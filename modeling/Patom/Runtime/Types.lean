import Patom.Types

namespace Patom.Runtime

abbrev PromptRequestId := Uuid
abbrev WorkerId := Uuid
abbrev ClaimKey := Uuid
abbrev ContradictionEventId := Uuid

abbrev TurnSeq := Nat

def LEASE_TTL : Duration := .fromSecs 30
def LEASE_HEARTBEAT_INTERVAL : Duration := .fromSecs 10
def MAX_IDEMPOTENCY_KEY_BYTES : Nat := 200
def MAX_DAG_TURNS : Nat := 64
def MAX_PINGPONG_RETRIES : Nat := 2

@[ext] structure IdempotencyKey where
  asStr : String
  nonempty : asStr ≠ ""
  bounded : asStr.utf8ByteSize ≤ MAX_IDEMPOTENCY_KEY_BYTES

instance : DecidableEq IdempotencyKey := fun _ _ => decidable_of_iff _ IdempotencyKey.ext_iff.symm

def IdempotencyKey.tryFrom (raw : String) : Except ParseError IdempotencyKey :=
  if h : raw = "" then .error (.empty "idempotency_key")
  else if h' : raw.utf8ByteSize ≤ MAX_IDEMPOTENCY_KEY_BYTES then .ok ⟨raw, h, h'⟩
  else .error (.tooLong "idempotency_key" MAX_IDEMPOTENCY_KEY_BYTES raw.utf8ByteSize)

inductive RequestStatus
  | pending
  | processing
  | done
  | failed
  deriving DecidableEq

def RequestStatus.isTerminal : RequestStatus → Bool
  | .done | .failed => true
  | .pending | .processing => false

inductive RequestKind
  | normal
  | reflection
  | resolution
  deriving DecidableEq

def RequestKind.asStr : RequestKind → String
  | .normal => "normal"
  | .reflection => "reflection"
  | .resolution => "resolution"

inductive RequestKindPayload
  | normal
  | reflection (threadId : ThreadId) (upToMessageId : ThreadMessageId)
  | resolution (contradictionEventId : ContradictionEventId)
  deriving DecidableEq

def RequestKindPayload.kind : RequestKindPayload → RequestKind
  | .normal => .normal
  | .reflection _ _ => .reflection
  | .resolution _ => .resolution

inductive FailureReason
  | cancelled
  | timeout
  | provider (detail : String)
  | hook (detail : String)
  | poison
  | unrecoverable (detail : String)
  | dagBudgetExceeded
  | billingExceeded
  | outOfCredit
  | noEgress
  deriving DecidableEq

def FailureReason.label : FailureReason → String
  | .cancelled => "cancelled"
  | .timeout => "timeout"
  | .provider _ => "provider"
  | .hook _ => "hook"
  | .poison => "poison"
  | .unrecoverable _ => "unrecoverable"
  | .dagBudgetExceeded => "dag_budget_exceeded"
  | .billingExceeded => "billing_exceeded"
  | .outOfCredit => "out_of_credit"
  | .noEgress => "no_egress"

def FailureReason.display : FailureReason → String
  | .cancelled => "cancelled"
  | .timeout => "turn timed out"
  | .provider detail => "provider error: " ++ detail
  | .hook detail => "hook denied: " ++ detail
  | .poison => "max attempts exceeded"
  | .unrecoverable detail => "unrecoverable: " ++ detail
  | .dagBudgetExceeded => "dag turn budget exceeded"
  | .billingExceeded => "monthly spend budget exceeded"
  | .outOfCredit => "out of platform credit"
  | .noEgress => "agent produced text without calling send_message after retries"

inductive PromptError
  | requestNotFound (id : PromptRequestId)
  | dagBudgetExceeded (root : PromptRequestId) (turnsUsed turnsCap : Nat)
  | dagNotFound (root : PromptRequestId)
  | backend (detail : String)
  | db (constraint : String)
  deriving DecidableEq

def PromptError.display : PromptError → String
  | .requestNotFound id => "request " ++ id.debug "PromptRequestId" ++ " not found"
  | .dagBudgetExceeded root used cap =>
    "dag " ++ root.debug "PromptRequestId" ++ " budget exceeded: " ++ toString used ++ "/" ++
      toString cap
  | .dagNotFound root => "dag " ++ root.debug "PromptRequestId" ++ " not found"
  | .backend detail => "queue backend error: " ++ detail
  | .db constraint => "queue db error: " ++ constraint

inductive LeaseTimingError
  | intervalZero
  | intervalNotUnderTtl (ttl heartbeatInterval : Duration)
  deriving DecidableEq

structure LeaseTiming where
  ttl : Duration
  heartbeatInterval : Duration
  positive : 0 < heartbeatInterval
  under : heartbeatInterval < ttl

def LeaseTiming.tryNew (ttl heartbeatInterval : Duration) : Except LeaseTimingError LeaseTiming :=
  if h : heartbeatInterval = 0 then .error .intervalZero
  else if h' : heartbeatInterval < ttl then .ok ⟨ttl, heartbeatInterval, Nat.pos_of_ne_zero h, h'⟩
  else .error (.intervalNotUnderTtl ttl heartbeatInterval)

def LeaseTiming.defaultConst : LeaseTiming :=
  ⟨LEASE_TTL, LEASE_HEARTBEAT_INTERVAL, by decide, by decide⟩

theorem LeaseTiming.ttl_pos (timing : LeaseTiming) : 0 < timing.ttl :=
  Nat.lt_trans timing.positive timing.under

theorem LeaseTiming.tryNew_default :
    LeaseTiming.tryNew LEASE_TTL LEASE_HEARTBEAT_INTERVAL = .ok LeaseTiming.defaultConst := rfl

theorem LEASE_TTL_eq : LEASE_TTL = 3 * LEASE_HEARTBEAT_INTERVAL := rfl

end Patom.Runtime
