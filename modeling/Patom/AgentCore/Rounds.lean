import Patom.AgentCore.Dispatch
import Patom.Billing.Service
import Patom.TypesLaws

open Patom.Billing
open Patom.Provider
open Patom.Runtime (FailureReason IdempotencyKey MAX_IDEMPOTENCY_KEY_BYTES MAX_PINGPONG_RETRIES
  PromptRequestId RequestKind)
open Patom.Foundation

namespace Patom.AgentCore

def MAX_TOOL_CALLS_PER_TURN : Nat := 16
def SEND_MESSAGE_TOOL_NAME : String := "send_message"
def ASK_APPROVAL_TOOL_NAME : String := "ask_approval"

def toolIsEgress (name : ToolName) : Bool :=
  name.asStr = SEND_MESSAGE_TOOL_NAME ∨ name.asStr = ASK_APPROVAL_TOOL_NAME

inductive Stop
  | error (e : AgentError)
  | elapsed
  | crashed
  deriving DecidableEq

structure Fold where
  price : Price
  usage : Usage
  isByo : Bool
  deriving DecidableEq

/-- Everything after a provider response: `settled` lists the settle transactions that commit,
none when the worker or the database fails first. -/
structure Exchange where
  response : ChatResponse
  settled : List (BillingPeriod × Time)
  reductions : List Fold
  interrupted : Option Stop
  deriving DecidableEq

structure Round where
  isByo : Bool
  compaction : List Usage
  outcome : Except Stop Exchange

inductive Next
  | final (text : String)
  | again (egress : Nat)
  | stop (s : Stop)
  deriving DecidableEq

def Exchange.next (x : Exchange) : Next :=
  match x.interrupted with
  | some s => .stop s
  | none =>
    let toolCalls := x.response.toolCalls
    if toolCalls = [] then
      if x.response.text = "" then .stop (.error .emptyReply) else .final x.response.text
    else if MAX_TOOL_CALLS_PER_TURN < toolCalls.length then
      .stop (.error (.tooManyToolCalls MAX_TOOL_CALLS_PER_TURN))
    else .again (toolCalls.countP fun call => toolIsEgress call.name)

def Exchange.reduced (x : Exchange) : List Fold :=
  let toolCalls := x.response.toolCalls
  if toolCalls = [] ∨ MAX_TOOL_CALLS_PER_TURN < toolCalls.length then [] else x.reductions

inductive Received
  | turn (index : TurnIndex) (isByo : Bool) (cost : Nat) (settled : List (BillingPeriod × Time))
  | fold (isByo : Bool) (cost : Nat)
  deriving DecidableEq

def Received.isByo : Received → Bool
  | .turn _ isByo _ _ => isByo
  | .fold isByo _ => isByo

def Received.cost : Received → Nat
  | .turn _ _ cost _ => cost
  | .fold _ cost => cost

def Received.settled : Received → List (BillingPeriod × Time)
  | .turn _ _ _ settled => settled
  | .fold _ _ => []

def Received.platformIndex : Received → Option TurnIndex
  | .turn index false _ _ => some index
  | .turn _ true _ _ => none
  | .fold _ _ => none

inductive Outcome
  | reply (finalText : String) (sendMessageCalls : Nat)
  | stopped (s : Stop)
  deriving DecidableEq

inductive TurnEnd
  | done
  | failed (reason : FailureReason)
  | crashed
  deriving DecidableEq

structure Attempt where
  rounds : List Round
  nudge : Except String Unit

section Agent

variable (price : Price) (maxTurns : MaxTurns)

def Round.received (round : Round) (index : TurnIndex) : List Received :=
  round.compaction.map (fun usage => .fold round.isByo (turnCost price usage)) ++
    match round.outcome with
    | .error _ => []
    | .ok x =>
      .turn index round.isByo (turnCost price x.response.usage) x.settled ::
        x.reduced.map fun f => .fold f.isByo (turnCost f.price f.usage)

theorem MaxTurns.index_lt {maxTurns : MaxTurns} {turn : Nat} (h : turn < maxTurns.get) :
    turn < MAX_TURNS_CAP := Nat.lt_of_lt_of_le h maxTurns.bounded

/-- The worker stops where the list of rounds ends. -/
def runLoop (turn sendMessageCalls : Nat) : List Round → Outcome × List Received
  | [] =>
    if turn < maxTurns.get then (.stopped .crashed, [])
    else (.stopped (.error (.maxTurnsExceeded maxTurns.get)), [])
  | round :: rest =>
    if h : turn < maxTurns.get then
      let received := round.received price ⟨turn, MaxTurns.index_lt h⟩
      match round.outcome with
      | .error s => (.stopped s, received)
      | .ok x =>
        match x.next with
        | .stop s => (.stopped s, received)
        | .final text => (.reply text sendMessageCalls, received)
        | .again egress =>
          let (outcome, more) := runLoop (turn + 1) (sendMessageCalls + egress) rest
          (outcome, received ++ more)
    else (.stopped (.error (.maxTurnsExceeded maxTurns.get)), [])

def runThreadLoop (rounds : List Round) : Outcome × List Received :=
  runLoop price maxTurns 0 0 rounds

/-- Background turns read a private log, which is never compacted. -/
def runBackgroundLoop (rounds : List Round) : Outcome × List Received :=
  runLoop price maxTurns 0 0 (rounds.map fun round => { round with compaction := [] })

def runWithPingpongGuard (retries : Nat) : List Attempt → TurnEnd × List (List Received)
  | [] => (.crashed, [])
  | attempt :: rest =>
    let (outcome, received) := runThreadLoop price maxTurns attempt.rounds
    match outcome with
    | .reply _ 0 =>
      if MAX_PINGPONG_RETRIES ≤ retries then (.failed .noEgress, [received])
      else
        match attempt.nudge with
        | .error e => (.failed (.unrecoverable ("nudge append: " ++ e)), [received])
        | .ok () =>
          let (turnEnd, more) := runWithPingpongGuard (retries + 1) rest
          (turnEnd, received :: more)
    | .reply _ _ => (.done, [received])
    | .stopped (.error e) => (.failed (handleAgentError e), [received])
    | .stopped .elapsed => (.failed .timeout, [received])
    | .stopped .crashed => (.crashed, [received])

def runBackground (rounds : List Round) : TurnEnd × List (List Received) :=
  let (outcome, received) := runBackgroundLoop price maxTurns rounds
  match outcome with
  | .reply _ _ => (.done, [received])
  | .stopped (.error e) => (.failed (handleAgentError e), [received])
  | .stopped .elapsed => (.failed .timeout, [received])
  | .stopped .crashed => (.crashed, [received])

def handleTurn (kind : RequestKind) (attempts : List Attempt) : TurnEnd × List (List Received) :=
  match kind with
  | .normal => runWithPingpongGuard price maxTurns 0 attempts
  | .reflection | .resolution =>
    runBackground price maxTurns (attempts.head?.elim [] Attempt.rounds)

end Agent

def usageKey (requestId : PromptRequestId) (turnIndex : TurnIndex) : Option IdempotencyKey :=
  (IdempotencyKey.tryFrom ("usage:" ++ requestId.display ++ ":" ++ toString turnIndex.val)).toOption

/-- Folds and own-key responses settle under no key. -/
def Received.usageKey (requestId : PromptRequestId) (r : Received) : Option IdempotencyKey :=
  r.platformIndex.bind (AgentCore.usageKey requestId)

section Metering

variable (creditGateActive : OrgId → Bool) (org : OrgId) (requestId : PromptRequestId)

/-- Only a turn's own response settles; a fold goes to `turn_metrics` alone. -/
def billingSettle (r : Received) (at_ : BillingPeriod × Time) (db : Db) : Db :=
  match r with
  | .turn index false cost _ =>
    settle creditGateActive at_.1 at_.2 org cost (usageKey requestId index) db
  | .turn _ true _ _ => db
  | .fold _ _ => db

def bill (db : Db) (r : Received) : Db :=
  r.settled.foldl (fun db at_ => billingSettle creditGateActive org requestId r at_ db) db

def billAll (db : Db) (received : List Received) : Db :=
  received.foldl (bill creditGateActive org requestId) db

end Metering

def usageKeyText (requestId : PromptRequestId) (turnIndex : TurnIndex) : String :=
  "usage:" ++ requestId.display ++ ":" ++ toString turnIndex.val

theorem utf8ByteSize_turnIndex (i : TurnIndex) : (toString i.val).utf8ByteSize ≤ 3 := by
  have hall : ∀ i : TurnIndex, (toString i.val).utf8ByteSize ≤ 3 := by decide
  exact hall i

theorem utf8ByteSize_usageKeyText (requestId : PromptRequestId) (i : TurnIndex) :
    43 ≤ (usageKeyText requestId i).utf8ByteSize ∧ (usageKeyText requestId i).utf8ByteSize ≤ 46 := by
  have hi := utf8ByteSize_turnIndex i
  have husage : "usage:".utf8ByteSize = 6 := by decide
  have hcolon : ":".utf8ByteSize = 1 := by decide
  simp only [usageKeyText, String.utf8ByteSize_append, Uuid.utf8ByteSize_display, husage, hcolon]
  omega

def turnKey (requestId : PromptRequestId) (i : TurnIndex) : IdempotencyKey where
  asStr := usageKeyText requestId i
  nonempty h := by
    have := (utf8ByteSize_usageKeyText requestId i).1
    rw [h] at this
    exact absurd this (by decide)
  bounded := Nat.le_trans (utf8ByteSize_usageKeyText requestId i).2 (by decide)

theorem usageKey_eq (requestId : PromptRequestId) (i : TurnIndex) :
    usageKey requestId i = some (turnKey requestId i) := by
  have hne : usageKeyText requestId i ≠ "" := (turnKey requestId i).nonempty
  have hle : (usageKeyText requestId i).utf8ByteSize ≤ MAX_IDEMPOTENCY_KEY_BYTES :=
    (turnKey requestId i).bounded
  change (IdempotencyKey.tryFrom (usageKeyText requestId i)).toOption = _
  rw [IdempotencyKey.tryFrom, dif_neg hne, dif_pos hle]
  rfl

theorem turnKey_injective {requestId : PromptRequestId} {i j : TurnIndex}
    (h : turnKey requestId i = turnKey requestId j) : i = j := by
  have htext : usageKeyText requestId i = usageKeyText requestId j := congrArg IdempotencyKey.asStr h
  have hdigits : toString i.val = toString j.val := by
    simpa [usageKeyText] using htext
  exact Fin.ext (natRepr_injective hdigits)

theorem usageKey_injective {requestId : PromptRequestId} :
    Function.Injective (usageKey requestId) := by
  intro i j h
  simp only [usageKey_eq, Option.some.injEq] at h
  exact turnKey_injective h

theorem Received.platformIndex_eq_some {r : Received} {i : TurnIndex} :
    r.platformIndex = some i ↔ ∃ cost settled, r = .turn i false cost settled := by
  cases r with
  | fold isByo cost => simp [platformIndex]
  | turn index isByo cost settled => cases isByo <;> simp [platformIndex]

section Agent

variable {price : Price} {maxTurns : MaxTurns}

variable (price) in
theorem Round.platformIndices_sublist (round : Round) (index : TurnIndex) :
    ((round.received price index).filterMap Received.platformIndex).Sublist [index] := by
  have hfolds : ∀ {α : Type} (l : List α) (byo : α → Bool) (cost : α → Nat),
      (l.map fun a => Received.fold (byo a) (cost a)).filterMap Received.platformIndex = [] := by
    intro α l byo cost
    simp [Received.platformIndex]
  rw [Round.received, List.filterMap_append, hfolds, List.nil_append]
  cases round.outcome with
  | error s => simp
  | ok x =>
    rw [List.filterMap_cons, hfolds]
    cases round.isByo <;> simp [Received.platformIndex]

theorem runLoop_platformIndices (turn sendMessageCalls : Nat) (rounds : List Round) :
    let indices := (runLoop price maxTurns turn sendMessageCalls rounds).2.filterMap
      Received.platformIndex
    (∀ i ∈ indices, turn ≤ i.val) ∧ indices.Pairwise (· < ·) := by
  induction rounds generalizing turn sendMessageCalls with
  | nil =>
    simp only [runLoop]
    split <;> simp
  | cons round rest ih =>
    simp only [runLoop]
    split
    case isFalse => simp
    case isTrue hturn =>
      have hround := round.platformIndices_sublist price ⟨turn, MaxTurns.index_lt hturn⟩
      have hmem : ∀ i ∈ (round.received price ⟨turn, MaxTurns.index_lt hturn⟩).filterMap
          Received.platformIndex, i = ⟨turn, MaxTurns.index_lt hturn⟩ := fun i hi => by
        simpa using hround.subset hi
      have hone : (∀ i ∈ (round.received price ⟨turn, MaxTurns.index_lt hturn⟩).filterMap
            Received.platformIndex, turn ≤ i.val) ∧
          ((round.received price ⟨turn, MaxTurns.index_lt hturn⟩).filterMap
            Received.platformIndex).Pairwise (· < ·) :=
        ⟨fun i hi => (hmem i hi ▸ Nat.le_refl turn), (List.pairwise_singleton _ _).sublist hround⟩
      cases round.outcome with
      | error s => exact hone
      | ok x =>
        cases hnext : x.next with
        | stop s =>
          simp only [hnext]
          exact hone
        | final text =>
          simp only [hnext]
          exact hone
        | again egress =>
          obtain ⟨hlater, hsorted⟩ := ih (turn + 1) (sendMessageCalls + egress)
          simp only [hnext, List.filterMap_append]
          constructor
          · intro i hi
            rcases List.mem_append.mp hi with hi | hi
            · exact hone.1 i hi
            · exact Nat.le_of_succ_le (hlater i hi)
          · refine List.pairwise_append.mpr ⟨hone.2, hsorted, fun i hi j hj => ?_⟩
            rw [hmem i hi]
            exact hlater j hj

theorem runLoop_nodup (rounds : List Round) :
    ((runLoop price maxTurns 0 0 rounds).2.filterMap Received.platformIndex).Nodup :=
  (runLoop_platformIndices 0 0 rounds).2.imp Fin.ne_of_lt

theorem runWithPingpongGuard_attempts (retries : Nat) (attempts : List Attempt) :
    ∀ received ∈ (runWithPingpongGuard price maxTurns retries attempts).2,
      ∃ rounds, received = (runLoop price maxTurns 0 0 rounds).2 := by
  induction attempts generalizing retries with
  | nil => simp [runWithPingpongGuard]
  | cons attempt rest ih =>
    have hfirst : ∃ rounds, (runThreadLoop price maxTurns attempt.rounds).2 =
        (runLoop price maxTurns 0 0 rounds).2 := ⟨attempt.rounds, rfl⟩
    intro received hreceived
    simp only [runWithPingpongGuard] at hreceived
    split at hreceived
    case h_1 =>
      split at hreceived
      · rwa [List.mem_singleton.mp hreceived]
      · split at hreceived
        · rwa [List.mem_singleton.mp hreceived]
        · rcases List.mem_cons.mp hreceived with rfl | hrest
          · exact hfirst
          · exact ih (retries + 1) received hrest
    all_goals rwa [List.mem_singleton.mp hreceived]

theorem handleTurn_attempts (kind : RequestKind) (attempts : List Attempt) :
    ∀ received ∈ (handleTurn price maxTurns kind attempts).2,
      ∃ rounds, received = (runLoop price maxTurns 0 0 rounds).2 := by
  have hbackground : ∀ rounds, ∀ received ∈ (runBackground price maxTurns rounds).2,
      ∃ rounds, received = (runLoop price maxTurns 0 0 rounds).2 := by
    intro rounds received hreceived
    simp only [runBackground] at hreceived
    split at hreceived <;> exact ⟨_, List.mem_singleton.mp hreceived⟩
  cases kind with
  | normal => exact runWithPingpongGuard_attempts 0 attempts
  | reflection => exact hbackground _
  | resolution => exact hbackground _

end Agent

end Patom.AgentCore
