import Patom.Runtime.Queue

/-! Workers and the clock over the queue.  A claim transaction advances one statement at a
time: it reads committed rows, keeps its own writes to itself until it commits, and holds the
row locks those writes take. -/

open Patom.Foundation

namespace Patom.Runtime

structure Candidate where
  claimKey : ClaimKey
  orgId : OrgId
  actingUserId : UserId
  deriving DecidableEq

inductive ClaimPc
  | begun
  | candidate (c : Candidate)
  | bumped (c : Candidate) (seq : TurnSeq)
  | refused (c : Candidate) (seq : TurnSeq)
  | leased (c : Candidate) (seq : TurnSeq)
  | drained (c : Candidate) (seq : TurnSeq) (batch : List DrainedTrigger)
  deriving DecidableEq

structure ClaimTx where
  worker : WorkerId
  now : Time
  pc : ClaimPc
  deriving DecidableEq

instance : Keyed ClaimTx WorkerId := ⟨(·.worker)⟩

def ClaimPc.ticket : ClaimPc → Option (Candidate × TurnSeq)
  | .begun | .candidate _ => none
  | .bumped c seq | .refused c seq | .leased c seq | .drained c seq _ => some (c, seq)

def ClaimPc.seqLock (pc : ClaimPc) : Option ClaimKey := pc.ticket.map (·.1.claimKey)

/-- An upsert locks the lease row even when its `WHERE` refuses it. -/
def ClaimPc.leaseLock : ClaimPc → Option ClaimKey
  | .begun | .candidate _ | .bumped _ _ => none
  | .refused c _ | .leased c _ | .drained c _ _ => some c.claimKey

def ClaimPc.rowLock : ClaimPc → List PromptRequestId
  | .drained _ _ batch => batch.map (·.id)
  | _ => []

/-- A committed claim that drained something, kept as history. -/
structure Claim where
  worker : WorkerId
  candidate : Candidate
  leaseSeq : TurnSeq
  first : DrainedTrigger
  rest : List DrainedTrigger
  deriving DecidableEq

def Claim.claimKey (c : Claim) : ClaimKey := c.candidate.claimKey

def Claim.triggerIds (c : Claim) : List PromptRequestId := (c.first :: c.rest).map (·.id)

def Claim.turn (c : Claim) : Except PromptError ClaimedTurn :=
  buildClaimedTurn c.candidate.claimKey c.candidate.orgId c.candidate.actingUserId c.worker
    c.leaseSeq c.first c.rest

def Claim.receipt? (c : Claim) : Option TurnReceipt :=
  match c.turn with
  | .ok turn => some turn.receipt
  | .error _ => none

structure St where
  db : Db
  clock : Time
  inflight : Table ClaimTx
  stopped : List WorkerId
  claims : List Claim
  released : List TurnReceipt

def St.init : St := ⟨⟨.empty, .empty, .empty, .empty⟩, 0, .empty, [], [], []⟩

inductive Act
  | tick (d : Duration)
  | enqueue (id : PromptRequestId) (now : Time) (trig : NewTrigger)
  | requestCancellation (id : PromptRequestId) (now : Time)
  | claimBegin (w : WorkerId)
  | claimSelect (w : WorkerId) (pick : Option PromptRequestId)
  | claimBump (w : WorkerId)
  | claimLease (w : WorkerId)
  | claimDrain (w : WorkerId) (batch : List DrainedTrigger)
  | claimCommit (w : WorkerId)
  | claimAbort (w : WorkerId)
  | heartbeat (w : WorkerId) (r : TurnReceipt) (now : Time)
  | markTurnDone (w : WorkerId) (r : TurnReceipt) (now : Time)
  | markTurnFailed (w : WorkerId) (r : TurnReceipt) (reason : FailureReason) (now : Time)
  | release (w : WorkerId) (r : TurnReceipt)
  | stop (w : WorkerId)

def St.apply (s : St) : Except PromptError Db → St
  | .ok db => { s with db }
  | .error _ => s

def St.open? (s : St) (w : WorkerId) : Option ClaimTx := s.inflight.find? w

def St.advance (s : St) (tx : ClaimTx) (pc : ClaimPc) : St :=
  { s with inflight := s.inflight.put { tx with pc } }

def St.close (s : St) (w : WorkerId) : St :=
  { s with inflight := s.inflight.delete fun tx => tx.worker = w }

def St.live (s : St) (w : WorkerId) : Bool := w ∉ s.stopped

/-- Only a turn the claim handed to the worker carries a receipt. -/
def St.holds (s : St) (w : WorkerId) (r : TurnReceipt) : Bool :=
  s.claims.any fun c => c.worker = w && c.receipt? = some r

def St.seqLocked (s : St) (k : ClaimKey) : Bool :=
  s.inflight.rows.any fun tx => tx.pc.seqLock = some k

def St.leaseLocked (s : St) (k : ClaimKey) : Bool :=
  s.inflight.rows.any fun tx => tx.pc.leaseLock = some k

def St.rowLocked (s : St) (id : PromptRequestId) : Bool :=
  s.inflight.rows.any fun tx => id ∈ tx.pc.rowLock

/-- Whether a statement fenced on `(claim_key, lease_seq)` finds a row it would have to lock. -/
def St.fenceBlocked (s : St) (r : TurnReceipt) : Bool :=
  s.leaseLocked r.claimKey && s.db.claimLeases.rows.any fun l =>
    l.claimKey = r.claimKey && l.leaseSeq = r.leaseSeq

section Step

variable (colleagues : Table Colleague) (timing : LeaseTiming)

def commitSeq (c : Candidate) (db : Db) : Db :=
  { db with claimSeq := db.claimSeq.put (bumpClaimSeq db c.claimKey c.orgId) }

def commitLease (tx : ClaimTx) (c : Candidate) (seq : TurnSeq) (db : Db) : Db :=
  let lease := takenLease db c.claimKey c.orgId tx.worker seq (tx.now + timing.ttl)
  { db with claimLeases := db.claimLeases.put lease }

def commitDrain (tx : ClaimTx) (seq : TurnSeq) (ids : List PromptRequestId) (db : Db) : Db :=
  { db with promptRequests := db.promptRequests.modify (markDrained ids seq tx.now)
              (markDrained_key ids seq tx.now) }

/-- `COMMIT` at the three places `claim_next_turn` returns from, with what it returns. -/
def claimCommit (s : St) (w : WorkerId) : Option (St × Except PromptError (Option ClaimedTurn)) :=
  (s.open? w).bind fun tx =>
    match tx.pc with
    | .refused c _ => some ({ s.close w with db := commitSeq c s.db }, .ok none)
    | .drained c seq [] =>
      some ({ s.close w with db := commitLease timing tx c seq (commitSeq c s.db) }, .ok none)
    | .drained c seq (d :: rest) =>
      let claim : Claim := ⟨w, c, seq, d, rest⟩
      some ({ s.close w with
        db := commitDrain tx seq claim.triggerIds (commitLease timing tx c seq (commitSeq c s.db)),
        claims := s.claims ++ [claim] }, claim.turn.map some)
    | _ => none

def claimSelect (s : St) (w : WorkerId) (pick : Option PromptRequestId) : Option St :=
  (s.open? w).bind fun tx =>
    if tx.pc = .begun then
      match pick with
      | none => if (nextTurnCandidates s.db tx.now).isEmpty then some (s.close w) else none
      | some id =>
        ((nextTurnCandidates s.db tx.now).find? fun r => r.id = id).map fun r =>
          match r.actingUserId with
          | some user => s.advance tx (.candidate ⟨r.claimKey, r.orgId, user⟩)
          | none => s.close w
    else none

def claimBump (s : St) (w : WorkerId) : Option St :=
  (s.open? w).bind fun tx =>
    match tx.pc with
    | .candidate c =>
      if s.seqLocked c.claimKey then none
      else some (s.advance tx (.bumped c (bumpClaimSeq s.db c.claimKey c.orgId).nextSeq))
    | _ => none

def claimLease (s : St) (w : WorkerId) : Option St :=
  (s.open? w).bind fun tx =>
    match tx.pc with
    | .bumped c seq =>
      some (s.advance tx (if leaseFree s.db c.claimKey tx.now then .leased c seq else .refused c seq))
    | _ => none

def claimDrain (s : St) (w : WorkerId) (batch : List DrainedTrigger) : Option St :=
  (s.open? w).bind fun tx =>
    match tx.pc with
    | .leased c seq =>
      if batch.Perm (drainTurnPending colleagues s.db c.claimKey) then
        some (s.advance tx (.drained c seq batch))
      else none
    | _ => none

def fenced (s : St) (w : WorkerId) (r : TurnReceipt) (now : Time) : Bool :=
  s.live w && s.holds w r && now ≤ s.clock

def step : Step St Act
  | s, .tick d => some { s with clock := s.clock + d }
  | s, .enqueue id now trig =>
    if now ≤ s.clock then
      some (s.apply ((enqueueTrigger colleagues id now trig s.db).map Prod.fst))
    else none
  | s, .requestCancellation id now =>
    if now ≤ s.clock ∧ s.rowLocked id = false then some (s.apply (requestCancellation id now s.db))
    else none
  | s, .claimBegin w =>
    if s.live w ∧ (s.open? w).isNone then
      some { s with inflight := s.inflight.put ⟨w, s.clock, .begun⟩ }
    else none
  | s, .claimSelect w pick => claimSelect s w pick
  | s, .claimBump w => claimBump s w
  | s, .claimLease w => claimLease s w
  | s, .claimDrain w batch => claimDrain colleagues s w batch
  | s, .claimCommit w => (claimCommit timing s w).map Prod.fst
  | s, .claimAbort w => (s.open? w).map fun _ => s.close w
  | s, .heartbeat w r now =>
    if fenced s w r now ∧ s.fenceBlocked r = false then
      some { s with db := heartbeatTurn r (now + timing.ttl) s.db }
    else none
  | s, .markTurnDone w r now =>
    if fenced s w r now then some { s with db := finaliseTurn r .done none now s.db } else none
  | s, .markTurnFailed w r reason now =>
    if fenced s w r now then some { s with db := finaliseTurn r .failed (some reason) now s.db }
    else none
  | s, .release w r =>
    if fenced s w r 0 ∧ s.fenceBlocked r = false then
      some { s with db := releaseTurn r s.db, released := s.released ++ [r] }
    else none
  | s, .stop w => some { s.close w with stopped := w :: s.stopped }

end Step

namespace Sample

def colleagues : Table Colleague := ⟨[⟨1, 1, some 7⟩], by decide⟩

def trigger (idempotencyKey : IdempotencyKey) : NewTrigger where
  orgId := 1
  actingUserId := 3
  threadId := some 4
  stateId := some 9
  backgroundTurnId := none
  senderColleagueId := 2
  receiverAgentId := 7
  rootRequestId := none
  triggerMessageId := none
  idempotencyKey
  kindPayload := .normal

def post : NewTrigger := trigger ⟨"post", by decide, by decide⟩

def reply : NewTrigger := trigger ⟨"reply", by decide, by decide⟩

def drained (id : PromptRequestId) : DrainedTrigger := ⟨id, .normal, some 4, 1, some 7, .normal, id⟩

def claim (w : WorkerId) (id : PromptRequestId) : List Act :=
  [.claimBegin w, .claimSelect w (some id), .claimBump w, .claimLease w, .claimDrain w [drained id],
    .claimCommit w]

def receipt (id : PromptRequestId) (seq : TurnSeq) : TurnReceipt := ⟨9, seq, [id], 3, id⟩

end Sample

variable {colleagues : Table Colleague} {timing : LeaseTiming}

theorem Claim.receipt?_eq_some {c : Claim} {r : TurnReceipt} (h : c.receipt? = some r) :
    r.claimKey = c.claimKey ∧ r.leaseSeq = c.leaseSeq ∧ r.triggerIds = c.triggerIds := by
  unfold Claim.receipt? at h
  split at h
  case h_1 turn hturn =>
    cases h
    obtain ⟨hk, hs, -, hids⟩ := buildClaimedTurn_ok hturn
    exact ⟨hk, hs, hids⟩
  case h_2 => cases h

/-- Everything an enabled action can do. -/
inductive Stepped (colleagues : Table Colleague) (timing : LeaseTiming) (s : St) : Act → St → Prop
  | tick (d) : Stepped colleagues timing s (.tick d) { s with clock := s.clock + d }
  | enqueue {id now trig db rid} (h : enqueueTrigger colleagues id now trig s.db = .ok (db, rid)) :
      Stepped colleagues timing s (.enqueue id now trig) { s with db }
  | enqueueRejected {id now trig} : Stepped colleagues timing s (.enqueue id now trig) s
  | cancel {id now db} (free : s.rowLocked id = false) (h : requestCancellation id now s.db = .ok db) :
      Stepped colleagues timing s (.requestCancellation id now) { s with db }
  | cancelRejected {id now} : Stepped colleagues timing s (.requestCancellation id now) s
  | begin {w} (live : s.live w) (idle : s.open? w = none) :
      Stepped colleagues timing s (.claimBegin w)
        { s with inflight := s.inflight.put ⟨w, s.clock, .begun⟩ }
  | select {w tx r user} (htx : s.open? w = some tx) (hpc : tx.pc = .begun)
      (hr : r ∈ nextTurnCandidates s.db tx.now) (hu : r.actingUserId = some user) :
      Stepped colleagues timing s (.claimSelect w (some r.id))
        (s.advance tx (.candidate ⟨r.claimKey, r.orgId, user⟩))
  | selectClosed {w pick} : Stepped colleagues timing s (.claimSelect w pick) (s.close w)
  | bump {w tx c} (htx : s.open? w = some tx) (hpc : tx.pc = .candidate c)
      (free : s.seqLocked c.claimKey = false) :
      Stepped colleagues timing s (.claimBump w)
        (s.advance tx (.bumped c (bumpClaimSeq s.db c.claimKey c.orgId).nextSeq))
  | lease {w tx c seq} (htx : s.open? w = some tx) (hpc : tx.pc = .bumped c seq)
      (free : leaseFree s.db c.claimKey tx.now) :
      Stepped colleagues timing s (.claimLease w) (s.advance tx (.leased c seq))
  | refuse {w tx c seq} (htx : s.open? w = some tx) (hpc : tx.pc = .bumped c seq)
      (held : leaseFree s.db c.claimKey tx.now = false) :
      Stepped colleagues timing s (.claimLease w) (s.advance tx (.refused c seq))
  | drain {w tx c seq batch} (htx : s.open? w = some tx) (hpc : tx.pc = .leased c seq)
      (perm : batch.Perm (drainTurnPending colleagues s.db c.claimKey)) :
      Stepped colleagues timing s (.claimDrain w batch) (s.advance tx (.drained c seq batch))
  | commitRefused {w tx c seq} (htx : s.open? w = some tx) (hpc : tx.pc = .refused c seq) :
      Stepped colleagues timing s (.claimCommit w) { s.close w with db := commitSeq c s.db }
  | commitEmpty {w tx c seq} (htx : s.open? w = some tx) (hpc : tx.pc = .drained c seq []) :
      Stepped colleagues timing s (.claimCommit w)
        { s.close w with db := commitLease timing tx c seq (commitSeq c s.db) }
  | commitClaim {w tx c seq d rest} (htx : s.open? w = some tx)
      (hpc : tx.pc = .drained c seq (d :: rest)) :
      Stepped colleagues timing s (.claimCommit w)
        { s.close w with
          db := commitDrain tx seq (Claim.mk w c seq d rest).triggerIds
            (commitLease timing tx c seq (commitSeq c s.db)),
          claims := s.claims ++ [⟨w, c, seq, d, rest⟩] }
  | abort {w} : Stepped colleagues timing s (.claimAbort w) (s.close w)
  | heartbeat {w r now} (held : fenced s w r now) (free : s.fenceBlocked r = false) :
      Stepped colleagues timing s (.heartbeat w r now)
        { s with db := heartbeatTurn r (now + timing.ttl) s.db }
  | markTurnDone {w r now} (held : fenced s w r now) :
      Stepped colleagues timing s (.markTurnDone w r now)
        { s with db := finaliseTurn r .done none now s.db }
  | markTurnFailed {w r reason now} (held : fenced s w r now) :
      Stepped colleagues timing s (.markTurnFailed w r reason now)
        { s with db := finaliseTurn r .failed (some reason) now s.db }
  | release {w r} (held : fenced s w r 0) (free : s.fenceBlocked r = false) :
      Stepped colleagues timing s (.release w r)
        { s with db := releaseTurn r s.db, released := s.released ++ [r] }
  | stop {w} : Stepped colleagues timing s (.stop w) { s.close w with stopped := w :: s.stopped }

theorem claimSelect_stepped {s t : St} {w : WorkerId} {pick : Option PromptRequestId}
    (h : claimSelect s w pick = some t) : Stepped colleagues timing s (.claimSelect w pick) t := by
  obtain ⟨tx, htx, h⟩ := Option.bind_eq_some_iff.mp h
  split at h
  case isFalse => cases h
  case isTrue hpc =>
    cases pick with
    | none =>
      simp only [Option.ite_none_right_eq_some, Option.some.injEq] at h
      exact h.2 ▸ .selectClosed
    | some id =>
      obtain ⟨r, hr, rfl⟩ := Option.map_eq_some_iff.mp h
      have hid : r.id = id := by simpa using List.find?_some hr
      cases hu : r.actingUserId with
      | none => exact .selectClosed
      | some user => exact hid ▸ .select htx hpc (List.mem_of_find?_eq_some hr) hu

theorem claimCommit_stepped {s t : St} {w : WorkerId}
    {res : Except PromptError (Option ClaimedTurn)} (h : claimCommit timing s w = some (t, res)) :
    Stepped colleagues timing s (.claimCommit w) t := by
  obtain ⟨tx, htx, h⟩ := Option.bind_eq_some_iff.mp h
  split at h
  case h_1 hpc => cases h; exact .commitRefused htx hpc
  case h_2 hpc => cases h; exact .commitEmpty htx hpc
  case h_3 hpc => cases h; exact .commitClaim htx hpc
  case h_4 => cases h

theorem step_stepped {s t : St} {a : Act} (h : step colleagues timing s a = some t) :
    Stepped colleagues timing s a t := by
  cases a with
  | tick d => cases h; exact .tick d
  | enqueue id now trig =>
    simp only [step, Option.ite_none_right_eq_some, Option.some.injEq] at h
    obtain ⟨-, rfl⟩ := h
    cases he : enqueueTrigger colleagues id now trig s.db with
    | error e => exact .enqueueRejected
    | ok p => exact .enqueue he
  | requestCancellation id now =>
    simp only [step, Option.ite_none_right_eq_some, Option.some.injEq] at h
    obtain ⟨⟨-, free⟩, rfl⟩ := h
    cases he : Runtime.requestCancellation id now s.db with
    | error e => exact .cancelRejected
    | ok db => exact .cancel free he
  | claimBegin w =>
    simp only [step, Option.ite_none_right_eq_some, Option.some.injEq, Option.isNone_iff_eq_none] at h
    obtain ⟨⟨live, idle⟩, rfl⟩ := h
    exact .begin live idle
  | claimSelect w pick => exact claimSelect_stepped h
  | claimBump w =>
    obtain ⟨tx, htx, h⟩ := Option.bind_eq_some_iff.mp h
    split at h
    case h_1 hpc =>
      split at h
      · cases h
      · cases h
        exact .bump htx hpc (Bool.eq_false_iff.mpr ‹_›)
    case h_2 => cases h
  | claimLease w =>
    obtain ⟨tx, htx, h⟩ := Option.bind_eq_some_iff.mp h
    split at h
    case h_1 hpc =>
      cases h
      split
      · exact .lease htx hpc ‹_›
      · exact .refuse htx hpc (Bool.eq_false_iff.mpr ‹_›)
    case h_2 => cases h
  | claimDrain w batch =>
    obtain ⟨tx, htx, h⟩ := Option.bind_eq_some_iff.mp h
    split at h
    case h_1 hpc =>
      simp only [Option.ite_none_right_eq_some, Option.some.injEq] at h
      obtain ⟨perm, rfl⟩ := h
      exact .drain htx hpc perm
    case h_2 => cases h
  | claimCommit w =>
    obtain ⟨⟨t', res⟩, hc, rfl⟩ := Option.map_eq_some_iff.mp h
    exact claimCommit_stepped hc
  | claimAbort w =>
    obtain ⟨tx, -, rfl⟩ := Option.map_eq_some_iff.mp h
    exact .abort
  | heartbeat w r now =>
    simp only [step, Option.ite_none_right_eq_some, Option.some.injEq] at h
    obtain ⟨⟨held, free⟩, rfl⟩ := h
    exact .heartbeat held free
  | markTurnDone w r now =>
    simp only [step, Option.ite_none_right_eq_some, Option.some.injEq] at h
    obtain ⟨held, rfl⟩ := h
    exact .markTurnDone held
  | markTurnFailed w r reason now =>
    simp only [step, Option.ite_none_right_eq_some, Option.some.injEq] at h
    obtain ⟨held, rfl⟩ := h
    exact .markTurnFailed held
  | release w r =>
    simp only [step, Option.ite_none_right_eq_some, Option.some.injEq] at h
    obtain ⟨⟨held, free⟩, rfl⟩ := h
    exact .release held free
  | stop w => cases h; exact .stop

@[simp] theorem commitSeq_promptRequests (c : Candidate) (db : Db) :
    (commitSeq c db).promptRequests = db.promptRequests := rfl

@[simp] theorem commitSeq_claimLeases (c : Candidate) (db : Db) :
    (commitSeq c db).claimLeases = db.claimLeases := rfl

theorem committedSeq_commitSeq (c : Candidate) (db : Db) (k : ClaimKey) :
    committedSeq (commitSeq c db) k =
      if c.claimKey = k then committedSeq db k + 1 else committedSeq db k := by
  simp only [committedSeq, commitSeq, Table.find?_put, bumpClaimSeq_key]
  split
  · subst_vars
    simpa [committedSeq] using bumpClaimSeq_nextSeq db c.claimKey c.orgId
  · rfl

theorem committedSeq_le_commitSeq (c : Candidate) (db : Db) (k : ClaimKey) :
    committedSeq db k ≤ committedSeq (commitSeq c db) k := by
  rw [committedSeq_commitSeq]
  split <;> lia

@[simp] theorem committedSeq_commitLease (tx : ClaimTx) (c : Candidate) (seq : TurnSeq) (db : Db) :
    committedSeq (commitLease timing tx c seq db) = committedSeq db := rfl

@[simp] theorem committedSeq_commitDrain (tx : ClaimTx) (seq : TurnSeq) (ids : List PromptRequestId)
    (db : Db) : committedSeq (commitDrain tx seq ids db) = committedSeq db := rfl

theorem mem_commitLease {tx : ClaimTx} {c : Candidate} {seq : TurnSeq} {db : Db} {l : ClaimLease} :
    l ∈ (commitLease timing tx c seq db).claimLeases ↔
      l = takenLease db c.claimKey c.orgId tx.worker seq (tx.now + timing.ttl) ∨
        l ∈ db.claimLeases ∧ l.claimKey ≠ c.claimKey := by
  have hk : key (takenLease db c.claimKey c.orgId tx.worker seq (tx.now + timing.ttl)) = c.claimKey :=
    takenLease_key ..
  simp only [commitLease, Table.mem_put, hk]
  rfl

theorem mem_commitDrain {tx : ClaimTx} {seq : TurnSeq} {ids : List PromptRequestId} {db : Db}
    {r : PromptRequest} :
    r ∈ (commitDrain tx seq ids db).promptRequests ↔
      ∃ r' ∈ db.promptRequests, markDrained ids seq tx.now r' = r := by
  simp [commitDrain]

theorem find?_commitDrain (tx : ClaimTx) (seq : TurnSeq) (ids : List PromptRequestId) (db : Db)
    (id : PromptRequestId) : (commitDrain tx seq ids db).promptRequests.find? id =
      (db.promptRequests.find? id).map (markDrained ids seq tx.now) :=
  Table.find?_modify _ _ (markDrained_key ids seq tx.now) id

theorem St.open?_mem {s : St} {w : WorkerId} {tx : ClaimTx} (h : s.open? w = some tx) :
    tx ∈ s.inflight ∧ tx.worker = w :=
  Table.find?_eq_some.mp h

@[simp] theorem St.mem_close {s : St} {w : WorkerId} {tx : ClaimTx} :
    tx ∈ (s.close w).inflight ↔ tx ∈ s.inflight ∧ tx.worker ≠ w := by
  simp [St.close]

theorem St.mem_advance {s : St} {tx tx' : ClaimTx} {pc : ClaimPc} :
    tx' ∈ (s.advance tx pc).inflight ↔
      tx' = { tx with pc } ∨ tx' ∈ s.inflight ∧ tx'.worker ≠ tx.worker := by
  simp only [St.advance, Table.mem_put]
  rfl

theorem St.seqLocked_eq_false {s : St} {k : ClaimKey} :
    s.seqLocked k = false ↔ ∀ tx ∈ s.inflight, tx.pc.seqLock ≠ some k := by
  simp [St.seqLocked, Table.mem_def]

theorem St.fence_free {s : St} {r : TurnReceipt} (h : s.fenceBlocked r = false) {l : ClaimLease}
    (hl : l ∈ s.db.claimLeases) (hk : l.claimKey = r.claimKey) (hs : l.leaseSeq = r.leaseSeq) :
    ∀ tx ∈ s.inflight, tx.pc.leaseLock ≠ some r.claimKey := by
  have hfound : (s.db.claimLeases.rows.any fun l =>
      l.claimKey = r.claimKey && l.leaseSeq = r.leaseSeq) = true :=
    List.any_eq_true.mpr ⟨l, hl, by simp [hk, hs]⟩
  rw [St.fenceBlocked, hfound, Bool.and_true] at h
  simpa [St.leaseLocked, Table.mem_def] using h

theorem St.holds_iff {s : St} {w : WorkerId} {r : TurnReceipt} :
    s.holds w r ↔ ∃ c ∈ s.claims, c.worker = w ∧ c.receipt? = some r := by
  simp [St.holds]

theorem fenced_holds {s : St} {w : WorkerId} {r : TurnReceipt} {now : Time} (h : fenced s w r now) :
    ∃ c ∈ s.claims, c.worker = w ∧ c.receipt? = some r := by
  simp only [fenced, Bool.and_eq_true] at h
  exact St.holds_iff.mp h.1.2

end Patom.Runtime
