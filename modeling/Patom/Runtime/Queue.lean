import Patom.Foundation.Table
import Patom.Foundation.Transition
import Patom.Runtime.Types

/-! The prompt queue over its four tables.  A claim runs as one transaction of several
statements, so its statements interleave with the commits of other workers; the other
queue operations are single statements. -/

open Patom.Foundation

namespace Patom.Runtime

structure Colleague where
  id : ColleagueId
  orgId : OrgId
  agentId : Option AgentId
  deriving DecidableEq

structure PromptRequest where
  id : PromptRequestId
  orgId : OrgId
  idempotencyKey : IdempotencyKey
  status : RequestStatus
  attempts : Nat
  turnSeq : TurnSeq
  cancellationRequested : Bool
  failureReason : Option FailureReason
  senderColleagueId : ColleagueId
  receiverColleagueId : ColleagueId
  rootRequestId : PromptRequestId
  kind : RequestKind
  kindPayload : RequestKindPayload
  threadId : Option ThreadId
  stateId : Option AgentThreadId
  backgroundTurnId : Option BackgroundTurnId
  triggerMessageId : Option ThreadMessageId
  actingUserId : Option UserId
  createdAt : Time
  updatedAt : Time
  claimKeyXor : stateId.isSome ≠ backgroundTurnId.isSome
  deriving DecidableEq

structure PromptRequestDag where
  rootRequestId : PromptRequestId
  orgId : OrgId
  turnsUsed : Nat
  turnsCap : Nat
  createdAt : Time
  deriving DecidableEq

structure ClaimLease where
  claimKey : ClaimKey
  orgId : OrgId
  workerId : WorkerId
  leaseSeq : TurnSeq
  leasedUntil : Time
  deriving DecidableEq

structure ClaimSeq where
  claimKey : ClaimKey
  nextSeq : TurnSeq
  orgId : OrgId
  deriving DecidableEq

instance : Keyed Colleague ColleagueId := ⟨(·.id)⟩
instance : Keyed PromptRequest PromptRequestId := ⟨(·.id)⟩
instance : Keyed PromptRequestDag PromptRequestId := ⟨(·.rootRequestId)⟩
instance : Keyed ClaimLease ClaimKey := ⟨(·.claimKey)⟩
instance : Keyed ClaimSeq ClaimKey := ⟨(·.claimKey)⟩

/-- `COALESCE(state_id, background_turn_id)`. -/
def PromptRequest.claimKey (r : PromptRequest) : ClaimKey :=
  (r.stateId.or r.backgroundTurnId).getD 0

structure Db where
  promptRequests : Table PromptRequest
  promptRequestDags : Table PromptRequestDag
  claimLeases : Table ClaimLease
  claimSeq : Table ClaimSeq

structure NewTrigger where
  orgId : OrgId
  actingUserId : UserId
  threadId : Option ThreadId
  stateId : Option AgentThreadId
  backgroundTurnId : Option BackgroundTurnId
  senderColleagueId : ColleagueId
  receiverAgentId : AgentId
  rootRequestId : Option PromptRequestId
  triggerMessageId : Option ThreadMessageId
  idempotencyKey : IdempotencyKey
  kindPayload : RequestKindPayload

structure TurnReceipt where
  claimKey : ClaimKey
  leaseSeq : TurnSeq
  triggerIds : List PromptRequestId
  actingUserId : UserId
  rootRequestId : PromptRequestId
  deriving DecidableEq

structure ClaimedTurn where
  claimKey : ClaimKey
  kind : RequestKind
  threadId : Option ThreadId
  orgId : OrgId
  actingUserId : UserId
  receiverAgentId : AgentId
  receiverColleagueId : ColleagueId
  triggerIds : List PromptRequestId
  rootRequestId : PromptRequestId
  kindPayload : RequestKindPayload
  worker : WorkerId
  leaseSeq : TurnSeq
  deriving DecidableEq

def ClaimedTurn.receipt (c : ClaimedTurn) : TurnReceipt :=
  ⟨c.claimKey, c.leaseSeq, c.triggerIds, c.actingUserId, c.rootRequestId⟩

structure DrainedTrigger where
  id : PromptRequestId
  kind : RequestKind
  threadId : Option ThreadId
  receiverColleagueId : ColleagueId
  agentId : Option AgentId
  kindPayload : RequestKindPayload
  rootRequestId : PromptRequestId
  deriving DecidableEq

section Statements

variable (colleagues : Table Colleague)

def resolveAgentColleague (org : OrgId) (agent : AgentId) : Except PromptError ColleagueId :=
  match colleagues.rows.find? fun c => c.orgId = org && c.agentId = some agent with
  | some c => .ok c.id
  | none => .error (.backend ("no colleague mapped for agent " ++ agent.debug "AgentId" ++
      " in org " ++ org.debug "OrgId"))

def findByIdempotencyKey (db : Db) (org : OrgId) (idem : IdempotencyKey) : Option PromptRequest :=
  db.promptRequests.rows.find? fun r => r.orgId = org && r.idempotencyKey = idem

/-- `id` is the identifier minted for the row, `now` the clock reading taken before the insert. -/
def enqueueTrigger (id : PromptRequestId) (now : Time) (trig : NewTrigger) (db : Db) :
    Except PromptError (Db × PromptRequestId) := do
  let receiver ← resolveAgentColleague colleagues trig.orgId trig.receiverAgentId
  if hxor : trig.stateId.isSome ≠ trig.backgroundTurnId.isSome then
    match findByIdempotencyKey db trig.orgId trig.idempotencyKey with
    | some existing => .ok (db, existing.id)
    | none =>
      let row : PromptRequest :=
        { id, orgId := trig.orgId, idempotencyKey := trig.idempotencyKey, status := .pending,
          attempts := 0, turnSeq := 0, cancellationRequested := false, failureReason := none,
          senderColleagueId := trig.senderColleagueId, receiverColleagueId := receiver,
          rootRequestId := trig.rootRequestId.getD id, kind := trig.kindPayload.kind,
          kindPayload := trig.kindPayload, threadId := trig.threadId, stateId := trig.stateId,
          backgroundTurnId := trig.backgroundTurnId, triggerMessageId := trig.triggerMessageId,
          actingUserId := some trig.actingUserId, createdAt := now, updatedAt := now,
          claimKeyXor := hxor }
      match db.promptRequests.insert? row with
      | none => .error (.db "prompt_requests_pkey")
      | some promptRequests =>
        if trig.rootRequestId.isSome then .ok ({ db with promptRequests }, id)
        else
          match db.promptRequestDags.insert? ⟨id, trig.orgId, 0, MAX_DAG_TURNS, now⟩ with
          | none => .error (.db "prompt_request_dags_pkey")
          | some promptRequestDags => .ok ({ db with promptRequests, promptRequestDags }, id)
  else .error (.db "prompt_requests_claim_key_xor")

def markCancelled (id : PromptRequestId) (now : Time) (r : PromptRequest) : PromptRequest :=
  if r.id = id then { r with cancellationRequested := true, updatedAt := now } else r

theorem markCancelled_key (id : PromptRequestId) (now : Time) (r : PromptRequest) :
    key (markCancelled id now r) = key r := by
  unfold markCancelled
  split <;> rfl

def requestCancellation (id : PromptRequestId) (now : Time) (db : Db) : Except PromptError Db :=
  if (db.promptRequests.find? id).isSome then
    let promptRequests := db.promptRequests.modify (markCancelled id now) (markCancelled_key id now)
    .ok { db with promptRequests }
  else .error (.requestNotFound id)

def eligible (db : Db) (now : Time) (r : PromptRequest) : Bool :=
  r.status = .pending &&
    !(db.claimLeases.rows.any fun l => l.claimKey = r.claimKey && now < l.leasedUntil)

/-- Every row that `ORDER BY created_at ASC LIMIT 1` may return: the order of ties is open. -/
def nextTurnCandidates (db : Db) (now : Time) : List PromptRequest :=
  let pending := db.promptRequests.rows.filter (eligible db now)
  pending.filter fun r => pending.all fun r' => r.createdAt ≤ r'.createdAt

def bumpClaimSeq (db : Db) (claimKey : ClaimKey) (org : OrgId) : ClaimSeq :=
  match db.claimSeq.find? claimKey with
  | some row => { row with nextSeq := row.nextSeq + 1 }
  | none => ⟨claimKey, 1, org⟩

def leaseFree (db : Db) (claimKey : ClaimKey) (now : Time) : Bool :=
  match db.claimLeases.find? claimKey with
  | some l => l.leasedUntil ≤ now
  | none => true

def takenLease (db : Db) (claimKey : ClaimKey) (org : OrgId) (worker : WorkerId) (leaseSeq : TurnSeq)
    (deadline : Time) : ClaimLease :=
  match db.claimLeases.find? claimKey with
  | some l => { l with workerId := worker, leaseSeq, leasedUntil := deadline }
  | none => ⟨claimKey, org, worker, leaseSeq, deadline⟩

def drainTurnPending (db : Db) (claimKey : ClaimKey) : List DrainedTrigger :=
  db.promptRequests.rows.filterMap fun r =>
    if r.claimKey = claimKey ∧ r.status = .pending then
      (colleagues.find? r.receiverColleagueId).map fun rc =>
        ⟨r.id, r.kind, r.threadId, r.receiverColleagueId, rc.agentId, r.kindPayload,
          r.rootRequestId⟩
    else none

def markDrained (ids : List PromptRequestId) (leaseSeq : TurnSeq) (now : Time)
    (r : PromptRequest) : PromptRequest :=
  if r.id ∈ ids then
    { r with status := .processing, turnSeq := leaseSeq, attempts := r.attempts + 1,
             updatedAt := now }
  else r

theorem markDrained_key (ids : List PromptRequestId) (leaseSeq : TurnSeq) (now : Time)
    (r : PromptRequest) : key (markDrained ids leaseSeq now r) = key r := by
  unfold markDrained
  split <;> rfl

def checkShared (agent : AgentId) (kind : RequestKind) : List DrainedTrigger → Except PromptError Unit
  | [] => .ok ()
  | d :: rest =>
    if d.agentId ≠ some agent then
      .error (.backend "drained triggers for one claim_key must share receiver_agent_id")
    else if d.kind ≠ kind then
      .error (.backend "drained triggers for one claim_key must share kind")
    else checkShared agent kind rest

def buildClaimedTurn (claimKey : ClaimKey) (org : OrgId) (actingUser : UserId) (worker : WorkerId)
    (leaseSeq : TurnSeq) (first : DrainedTrigger) (rest : List DrainedTrigger) :
    Except PromptError ClaimedTurn :=
  match first.agentId with
  | none => .error (.backend ("drained trigger receiver missing agent_id — receiver-is-agent trigger "
      ++ "should make this unreachable"))
  | some agent =>
    (checkShared agent first.kind rest).map fun _ =>
      ⟨claimKey, first.kind, first.threadId, org, actingUser, agent, first.receiverColleagueId,
        (first :: rest).map (·.id), first.rootRequestId, first.kindPayload, worker, leaseSeq⟩

def markFinalised (r : TurnReceipt) (status : RequestStatus) (reason : Option FailureReason)
    (now : Time) (row : PromptRequest) : PromptRequest :=
  if row.id ∈ r.triggerIds ∧ row.turnSeq = r.leaseSeq ∧ row.status = .processing then
    { row with status, failureReason := reason, updatedAt := now }
  else row

theorem markFinalised_key (r : TurnReceipt) (status : RequestStatus) (reason : Option FailureReason)
    (now : Time) (row : PromptRequest) : key (markFinalised r status reason now row) = key row := by
  unfold markFinalised
  split <;> rfl

def finaliseTurn (r : TurnReceipt) (status : RequestStatus) (reason : Option FailureReason)
    (now : Time) (db : Db) : Db :=
  let promptRequests := db.promptRequests.modify (markFinalised r status reason now)
    (markFinalised_key r status reason now)
  { db with promptRequests }

def renewed (r : TurnReceipt) (deadline : Time) (l : ClaimLease) : ClaimLease :=
  if l.claimKey = r.claimKey ∧ l.leaseSeq = r.leaseSeq then { l with leasedUntil := deadline } else l

theorem renewed_key (r : TurnReceipt) (deadline : Time) (l : ClaimLease) :
    key (renewed r deadline l) = key l := by
  unfold renewed
  split <;> rfl

def heartbeatTurn (r : TurnReceipt) (deadline : Time) (db : Db) : Db :=
  { db with claimLeases := db.claimLeases.modify (renewed r deadline) (renewed_key r deadline) }

def releaseTurn (r : TurnReceipt) (db : Db) : Db :=
  { db with claimLeases := db.claimLeases.delete fun l =>
      l.claimKey = r.claimKey && l.leaseSeq = r.leaseSeq }

end Statements

variable {colleagues : Table Colleague}

def committedSeq (db : Db) (k : ClaimKey) : TurnSeq := ((db.claimSeq.find? k).map (·.nextSeq)).getD 0

theorem bumpClaimSeq_nextSeq (db : Db) (k : ClaimKey) (org : OrgId) :
    (bumpClaimSeq db k org).nextSeq = committedSeq db k + 1 := by
  unfold bumpClaimSeq committedSeq
  cases db.claimSeq.find? k <;> simp

theorem bumpClaimSeq_key (db : Db) (k : ClaimKey) (org : OrgId) : key (bumpClaimSeq db k org) = k := by
  unfold bumpClaimSeq
  split
  case h_1 row hrow => exact (Table.key_of_find? hrow : key row = k)
  case h_2 => rfl

theorem takenLease_key (db : Db) (k : ClaimKey) (org : OrgId) (w : WorkerId) (seq : TurnSeq)
    (deadline : Time) : (takenLease db k org w seq deadline).claimKey = k := by
  unfold takenLease
  split
  case h_1 l hl => exact Table.key_of_find? hl
  case h_2 => rfl

theorem takenLease_fields {db : Db} {k : ClaimKey} {org : OrgId} {w : WorkerId} {seq : TurnSeq}
    {deadline : Time} {l : ClaimLease} (h : l = takenLease db k org w seq deadline) :
    l.claimKey = k ∧ l.leaseSeq = seq ∧ l.workerId = w := by
  refine h ▸ ⟨takenLease_key .., ?_, ?_⟩ <;> unfold takenLease <;> split <;> rfl

@[simp] theorem takenLease_leasedUntil (db : Db) (k : ClaimKey) (org : OrgId) (w : WorkerId)
    (seq : TurnSeq) (deadline : Time) :
    (takenLease db k org w seq deadline).leasedUntil = deadline := by
  unfold takenLease
  split <;> rfl

theorem leaseFree_iff {db : Db} {k : ClaimKey} {now : Time} :
    leaseFree db k now ↔ ∀ l ∈ db.claimLeases, l.claimKey = k → l.leasedUntil ≤ now := by
  unfold leaseFree
  split
  case h_1 l hl =>
    obtain ⟨hmem, hkey⟩ := Table.find?_eq_some.mp hl
    rw [decide_eq_true_iff]
    constructor
    · intro h l' hl' hk
      rwa [Table.eq_of_key_eq hl' hmem (hk.trans hkey.symm)]
    · exact fun h => h l hmem hkey
  case h_2 hnone =>
    simp only [true_iff]
    exact fun l hl hk => absurd hk (Table.find?_eq_none.mp hnone l hl)

theorem resolveAgentColleague_ok {org : OrgId} {agent : AgentId} {id : ColleagueId}
    (h : resolveAgentColleague colleagues org agent = .ok id) :
    ∃ c, colleagues.find? id = some c ∧ c.agentId = some agent := by
  unfold resolveAgentColleague at h
  split at h
  case h_1 c hc =>
    cases h
    have hagent := List.find?_some hc
    simp only [Bool.and_eq_true, decide_eq_true_eq] at hagent
    exact ⟨c, Table.find?_of_mem (ρ := Colleague) (List.mem_of_find?_eq_some hc), hagent.2⟩
  case h_2 => cases h

theorem enqueueTrigger_ok {id : PromptRequestId} {now : Time} {trig : NewTrigger} {db db' : Db}
    {rid : PromptRequestId} (h : enqueueTrigger colleagues id now trig db = .ok (db', rid)) :
    db'.claimLeases = db.claimLeases ∧ db'.claimSeq = db.claimSeq ∧
      (db'.promptRequests = db.promptRequests ∨
        ∃ row : PromptRequest, row.status = .pending ∧
          resolveAgentColleague colleagues trig.orgId trig.receiverAgentId =
            .ok row.receiverColleagueId ∧
          db.promptRequests.insert? row = some db'.promptRequests) := by
  unfold enqueueTrigger at h
  cases hr : resolveAgentColleague colleagues trig.orgId trig.receiverAgentId with
  | error e => simp [hr, bind, Except.bind] at h
  | ok receiver =>
    simp only [hr, bind, Except.bind] at h
    split at h
    case isFalse => cases h
    case isTrue =>
      split at h
      case h_1 => cases h; exact ⟨rfl, rfl, .inl rfl⟩
      case h_2 =>
        split at h
        case h_1 => cases h
        case h_2 hins =>
          split at h
          case isTrue => cases h; exact ⟨rfl, rfl, .inr ⟨_, rfl, rfl, hins⟩⟩
          case isFalse =>
            split at h
            case h_1 => cases h
            case h_2 => cases h; exact ⟨rfl, rfl, .inr ⟨_, rfl, rfl, hins⟩⟩

structure Enqueued (id : PromptRequestId) (now : Time) (trig : NewTrigger) (db db' : Db)
    (row : PromptRequest) : Prop where
  unseen : findByIdempotencyKey db trig.orgId trig.idempotencyKey = none
  rowId : row.id = id
  org : row.orgId = trig.orgId
  key : row.idempotencyKey = trig.idempotencyKey
  root : row.rootRequestId = trig.rootRequestId.getD id
  trigger : row.threadId = trig.threadId ∧ row.stateId = trig.stateId ∧
    row.triggerMessageId = trig.triggerMessageId
  inserted : db.promptRequests.insert? row = some db'.promptRequests
  dags : if trig.rootRequestId.isSome then db'.promptRequestDags = db.promptRequestDags
    else db.promptRequestDags.insert? ⟨id, trig.orgId, 0, MAX_DAG_TURNS, now⟩ =
      some db'.promptRequestDags

theorem enqueueTrigger_cases {id : PromptRequestId} {now : Time} {trig : NewTrigger} {db db' : Db}
    {rid : PromptRequestId} (h : enqueueTrigger colleagues id now trig db = .ok (db', rid)) :
    (∃ existing, findByIdempotencyKey db trig.orgId trig.idempotencyKey = some existing ∧
        db' = db ∧ rid = existing.id) ∨
      rid = id ∧ ∃ row, Enqueued id now trig db db' row := by
  unfold enqueueTrigger at h
  cases hr : resolveAgentColleague colleagues trig.orgId trig.receiverAgentId with
  | error e => simp [hr, bind, Except.bind] at h
  | ok receiver =>
    simp only [hr, bind, Except.bind] at h
    split at h
    case isFalse => cases h
    case isTrue =>
      split at h
      case h_1 existing hexisting =>
        cases h
        exact .inl ⟨existing, hexisting, rfl, rfl⟩
      case h_2 hunseen =>
        split at h
        case h_1 => cases h
        case h_2 hins =>
          split at h
          case isTrue hroot =>
            cases h
            exact .inr ⟨rfl, _, hunseen, rfl, rfl, rfl, rfl, ⟨rfl, rfl, rfl⟩, hins,
              by rw [if_pos hroot]⟩
          case isFalse hroot =>
            split at h
            case h_1 => cases h
            case h_2 hdag =>
              cases h
              exact .inr ⟨rfl, _, hunseen, rfl, rfl, rfl, rfl, ⟨rfl, rfl, rfl⟩, hins,
                by rw [if_neg hroot]; exact hdag⟩

structure Minted (trig : NewTrigger) (row : PromptRequest) : Prop where
  status : row.status = .pending
  uncancelled : row.cancellationRequested = false
  unfailed : row.failureReason = none
  kind : row.kind = trig.kindPayload.kind
  kindPayload : row.kindPayload = trig.kindPayload
  backgroundTurnId : row.backgroundTurnId = trig.backgroundTurnId

theorem enqueueTrigger_minted {id : PromptRequestId} {now : Time} {trig : NewTrigger} {db db' : Db}
    {rid : PromptRequestId} (h : enqueueTrigger colleagues id now trig db = .ok (db', rid)) :
    db'.promptRequests = db.promptRequests ∨
      ∃ row, Minted trig row ∧ db.promptRequests.insert? row = some db'.promptRequests := by
  unfold enqueueTrigger at h
  cases hr : resolveAgentColleague colleagues trig.orgId trig.receiverAgentId with
  | error e => simp [hr, bind, Except.bind] at h
  | ok receiver =>
    simp only [hr, bind, Except.bind] at h
    split at h
    case isFalse => cases h
    case isTrue =>
      split at h
      case h_1 => cases h; exact .inl rfl
      case h_2 =>
        split at h
        case h_1 => cases h
        case h_2 hins =>
          split at h
          case isTrue => cases h; exact .inr ⟨_, ⟨rfl, rfl, rfl, rfl, rfl, rfl⟩, hins⟩
          case isFalse =>
            split at h
            case h_1 => cases h
            case h_2 => cases h; exact .inr ⟨_, ⟨rfl, rfl, rfl, rfl, rfl, rfl⟩, hins⟩

theorem Enqueued.minted {id : PromptRequestId} {now : Time} {trig : NewTrigger} {db db' : Db}
    {rid : PromptRequestId} {row : PromptRequest} (hrow : Enqueued id now trig db db' row)
    (h : enqueueTrigger colleagues id now trig db = .ok (db', rid)) : Minted trig row := by
  have hrows := Table.rows_insert? hrow.inserted
  obtain hsame | ⟨row', hminted, hins⟩ := enqueueTrigger_minted h
  · simp [hsame] at hrows
  · have happend := (Table.rows_insert? hins).symm.trans hrows
    rwa [← List.singleton_inj.mp (List.append_cancel_left happend)]

theorem Enqueued.pending {id : PromptRequestId} {now : Time} {trig : NewTrigger} {db db' : Db}
    {rid : PromptRequestId} {row : PromptRequest} (hrow : Enqueued id now trig db db' row)
    (h : enqueueTrigger colleagues id now trig db = .ok (db', rid)) : row.status = .pending :=
  (hrow.minted h).status

theorem enqueueTrigger_unmapped {id : PromptRequestId} {now : Time} {trig : NewTrigger} {db : Db}
    {e : PromptError} (h : resolveAgentColleague colleagues trig.orgId trig.receiverAgentId = .error e) :
    enqueueTrigger colleagues id now trig db = .error e := by
  simp [enqueueTrigger, h, bind, Except.bind]

theorem enqueueTrigger_error {id : PromptRequestId} {now : Time} {trig : NewTrigger} {db : Db}
    {e : PromptError} (hfresh : db.promptRequests.find? id = none)
    (hxor : trig.stateId.isSome ≠ trig.backgroundTurnId.isSome) (hroot : trig.rootRequestId.isSome)
    (h : enqueueTrigger colleagues id now trig db = .error e) :
    ∃ e, resolveAgentColleague colleagues trig.orgId trig.receiverAgentId = .error e := by
  cases hr : resolveAgentColleague colleagues trig.orgId trig.receiverAgentId with
  | error e => exact ⟨e, rfl⟩
  | ok receiver =>
    simp only [enqueueTrigger, hr, bind, Except.bind, dif_pos hxor] at h
    split at h
    case h_1 => cases h
    case h_2 =>
      split at h
      case h_1 hins => exact absurd hfresh (Table.insert?_eq_none.mp hins)
      case h_2 =>
        rw [if_pos hroot] at h
        cases h

theorem enqueueTrigger_fresh {id : PromptRequestId} {now : Time} {trig : NewTrigger} {db : Db}
    {receiver : ColleagueId}
    (hreceiver : resolveAgentColleague colleagues trig.orgId trig.receiverAgentId = .ok receiver)
    (hunseen : findByIdempotencyKey db trig.orgId trig.idempotencyKey = none)
    (hfresh : db.promptRequests.find? id = none)
    (hxor : trig.stateId.isSome ≠ trig.backgroundTurnId.isSome) (hroot : trig.rootRequestId.isSome) :
    ∃ db' row, enqueueTrigger colleagues id now trig db = .ok (db', id) ∧
      Enqueued id now trig db db' row := by
  cases h : enqueueTrigger colleagues id now trig db with
  | error e =>
    obtain ⟨e', he⟩ := enqueueTrigger_error hfresh hxor hroot h
    exact absurd (hreceiver.symm.trans he) nofun
  | ok r =>
    obtain ⟨db', rid⟩ := r
    obtain ⟨existing, hexisting, -⟩ | ⟨rfl, row, hrow⟩ := enqueueTrigger_cases h
    · exact absurd (hunseen.symm.trans hexisting) nofun
    · exact ⟨db', row, rfl, hrow⟩

theorem enqueueTrigger_inherited {id : PromptRequestId} {now : Time} {trig : NewTrigger}
    {root : PromptRequestId} (hroot : trig.rootRequestId = some root) {db db' : Db}
    (h : db.promptRequests = db'.promptRequests) :
    (enqueueTrigger colleagues id now trig db).map (fun r => (r.1.promptRequests, r.2)) =
      (enqueueTrigger colleagues id now trig db').map fun r => (r.1.promptRequests, r.2) := by
  have hfind : findByIdempotencyKey db = findByIdempotencyKey db' := by
    funext org k
    rw [findByIdempotencyKey, h, findByIdempotencyKey]
  unfold enqueueTrigger
  cases resolveAgentColleague colleagues trig.orgId trig.receiverAgentId with
  | error e => rfl
  | ok receiver =>
    simp only [bind, Except.bind, hfind, h, hroot, Option.isSome_some, if_true]
    split
    case isFalse => rfl
    case isTrue =>
      split
      case h_1 => simp [Except.map, h]
      case h_2 => split <;> rfl

theorem findByIdempotencyKey_isSome {db : Db} {org : OrgId} {k : IdempotencyKey} :
    (findByIdempotencyKey db org k).isSome ↔
      ∃ r ∈ db.promptRequests, r.orgId = org ∧ r.idempotencyKey = k := by
  simp [findByIdempotencyKey, List.find?_isSome, Table.mem_def]

theorem findByIdempotencyKey_enqueue {id : PromptRequestId} {now : Time} {trig : NewTrigger}
    {db db' : Db} {rid : PromptRequestId}
    (h : enqueueTrigger colleagues id now trig db = .ok (db', rid)) {org : OrgId} {k : IdempotencyKey}
    (hk : (findByIdempotencyKey db org k).isSome) : (findByIdempotencyKey db' org k).isSome := by
  obtain ⟨-, -, rfl, -⟩ | ⟨-, row, hrow⟩ := enqueueTrigger_cases h
  · exact hk
  · obtain ⟨r, hr, hfields⟩ := findByIdempotencyKey_isSome.mp hk
    exact findByIdempotencyKey_isSome.mpr ⟨r, (Table.mem_insert? hrow.inserted).mpr (.inl hr), hfields⟩

theorem findByIdempotencyKey_enqueued {id : PromptRequestId} {now : Time} {trig : NewTrigger}
    {db db' : Db} {rid : PromptRequestId}
    (h : enqueueTrigger colleagues id now trig db = .ok (db', rid)) :
    (findByIdempotencyKey db' trig.orgId trig.idempotencyKey).isSome := by
  obtain ⟨existing, hexisting, rfl, -⟩ | ⟨-, row, hrow⟩ := enqueueTrigger_cases h
  · exact Option.isSome_of_eq_some hexisting
  · exact findByIdempotencyKey_isSome.mpr
      ⟨row, (Table.mem_insert? hrow.inserted).mpr (.inr rfl), hrow.org, hrow.key⟩

theorem requestCancellation_ok {id : PromptRequestId} {now : Time} {db db' : Db}
    (h : requestCancellation id now db = .ok db') :
    db'.claimLeases = db.claimLeases ∧ db'.claimSeq = db.claimSeq ∧
      ∀ r, r ∈ db'.promptRequests ↔ ∃ r' ∈ db.promptRequests, markCancelled id now r' = r := by
  unfold requestCancellation at h
  split at h <;> cases h
  exact ⟨rfl, rfl, fun r => by simp⟩

theorem buildClaimedTurn_ok {k : ClaimKey} {org : OrgId} {user : UserId} {w : WorkerId}
    {seq : TurnSeq} {first : DrainedTrigger} {rest : List DrainedTrigger} {turn : ClaimedTurn}
    (h : buildClaimedTurn k org user w seq first rest = .ok turn) :
    turn.claimKey = k ∧ turn.leaseSeq = seq ∧ turn.worker = w ∧
      turn.triggerIds = (first :: rest).map (·.id) := by
  unfold buildClaimedTurn at h
  split at h
  case h_1 => cases h
  case h_2 agent hagent =>
    cases hc : checkShared agent first.kind rest with
    | error e => simp [hc, Except.map] at h
    | ok u =>
      simp only [hc, Except.map, Except.ok.injEq] at h
      subst h
      exact ⟨rfl, rfl, rfl, rfl⟩

theorem mem_finaliseTurn {r : TurnReceipt} {status : RequestStatus} {reason : Option FailureReason}
    {now : Time} {db : Db} {row : PromptRequest} :
    row ∈ (finaliseTurn r status reason now db).promptRequests ↔
      ∃ row' ∈ db.promptRequests, markFinalised r status reason now row' = row := by
  simp [finaliseTurn]

theorem mem_heartbeatTurn {r : TurnReceipt} {deadline : Time} {db : Db} {l : ClaimLease} :
    l ∈ (heartbeatTurn r deadline db).claimLeases ↔ ∃ l' ∈ db.claimLeases, renewed r deadline l' = l := by
  simp [heartbeatTurn]

theorem mem_releaseTurn {r : TurnReceipt} {db : Db} {l : ClaimLease} :
    l ∈ (releaseTurn r db).claimLeases ↔
      l ∈ db.claimLeases ∧ (l.claimKey = r.claimKey → l.leaseSeq ≠ r.leaseSeq) := by
  simp [releaseTurn]

@[simp] theorem renewed_claimKey (r : TurnReceipt) (deadline : Time) (l : ClaimLease) :
    (renewed r deadline l).claimKey = l.claimKey :=
  renewed_key r deadline l

@[simp] theorem renewed_leaseSeq (r : TurnReceipt) (deadline : Time) (l : ClaimLease) :
    (renewed r deadline l).leaseSeq = l.leaseSeq := by
  unfold renewed
  split <;> rfl

@[simp] theorem renewed_workerId (r : TurnReceipt) (deadline : Time) (l : ClaimLease) :
    (renewed r deadline l).workerId = l.workerId := by
  unfold renewed
  split <;> rfl

end Patom.Runtime
