import Patom.Runtime.WorkerInvariant

/-! Cancelled turns.  A worker looks for a cancelled trigger before its turn and polls for one
beside it; what it finds ends the whole batch. -/

open Patom.AgentCore (AgentError handleAgentError)
open Patom.Foundation

namespace Patom.Runtime

/-- The pool, and the workers whose cancellation token has fired. -/
structure Watched where
  pool : Pool
  fired : List WorkerId

def Watched.init : Watched := ⟨.init, []⟩

inductive WatchedAct
  | pool (a : PoolAct)
  | poll (w : WorkerId) (fault : Bool)

def Watched.admits (s : Watched) : PoolAct → Bool
  | .turn w (.attempt (.errored .cancelled)) => w ∈ s.fired
  | _ => true

def Watched.tokens (s : Watched) : PoolAct → List WorkerId
  | .claim w => s.fired.filter fun w' => w' ≠ w
  | _ => s.fired

def TurnPc.attempts : TurnPc → Bool
  | .running .. | .nudging _ => true
  | _ => false

section Step

variable (colleagues : Table Colleague) (timing : LeaseTiming)

def watchedStep : Step Watched WatchedAct
  | s, .pool a =>
    if s.admits a then
      (poolStep colleagues timing s.pool a).map fun pool => ⟨pool, s.tokens a⟩
    else none
  | s, .poll w fault =>
    (s.pool.turn? w).bind fun t =>
      if t.pc.attempts then
        some (if !fault && anyCancelled s.pool.queue.db t.receipt.triggerIds then
          { s with fired := w :: s.fired } else s)
      else none

end Step

def CancelledIn (db : Db) (ids : List PromptRequestId) : Prop :=
  ∃ r ∈ db.promptRequests, r.id ∈ ids ∧ r.cancellationRequested

instance cancelledInDecidable (db : Db) (ids : List PromptRequestId) :
    Decidable (CancelledIn db ids) :=
  inferInstanceAs (Decidable (∃ r ∈ db.promptRequests.rows, r.id ∈ ids ∧ r.cancellationRequested))

/-- A trigger drained together with a cancelled one. -/
def InCancelledBatch (s : St) (id : PromptRequestId) : Prop :=
  ∃ c ∈ s.claims, id ∈ c.triggerIds ∧ CancelledIn s.db c.triggerIds

structure CancelsPerRequest (p : Pool) : Prop where
  rows : ∀ r ∈ p.queue.db.promptRequests, r.failureReason = some .cancelled →
    CancelledIn p.queue.db [r.id]
  chunks : ∀ c ∈ p.responses.chunks, c.payload = .fromFailure .cancelled →
    CancelledIn p.queue.db [c.requestId]

/-- Only the triggers of a batch with a cancelled one end as cancelled. -/
structure CancelsPerBatch (p : Pool) : Prop where
  rows : ∀ r ∈ p.queue.db.promptRequests, r.failureReason = some .cancelled →
    InCancelledBatch p.queue r.id
  chunks : ∀ c ∈ p.responses.chunks, c.payload = .fromFailure .cancelled →
    InCancelledBatch p.queue c.requestId

section Rows

variable {colleagues : Table Colleague} {timing : LeaseTiming} {s t : St} {a : Act}

@[simp] theorem markCancelled_failureReason (id : PromptRequestId) (now : Time)
    (r : PromptRequest) : (markCancelled id now r).failureReason = r.failureReason := by
  unfold markCancelled
  split <;> rfl

theorem cancelled_markCancelled {id : PromptRequestId} {now : Time} {r : PromptRequest}
    (h : r.cancellationRequested) : (markCancelled id now r).cancellationRequested := by
  unfold markCancelled
  split
  · rfl
  · exact h

@[simp] theorem markDrained_id (ids : List PromptRequestId) (seq : TurnSeq) (now : Time)
    (r : PromptRequest) : (markDrained ids seq now r).id = r.id :=
  markDrained_key ids seq now r

@[simp] theorem markFinalised_id (rc : TurnReceipt) (status : RequestStatus)
    (reason : Option FailureReason) (now : Time) (r : PromptRequest) :
    (markFinalised rc status reason now r).id = r.id :=
  markFinalised_key rc status reason now r

@[simp] theorem markDrained_cancellation (ids : List PromptRequestId) (seq : TurnSeq) (now : Time)
    (r : PromptRequest) :
    (markDrained ids seq now r).cancellationRequested = r.cancellationRequested ∧
      (markDrained ids seq now r).failureReason = r.failureReason := by
  unfold markDrained
  split <;> exact ⟨rfl, rfl⟩

@[simp] theorem markFinalised_cancellationRequested (rc : TurnReceipt) (status : RequestStatus)
    (reason : Option FailureReason) (now : Time) (r : PromptRequest) :
    (markFinalised rc status reason now r).cancellationRequested = r.cancellationRequested := by
  unfold markFinalised
  split <;> rfl

theorem markFinalised_failureReason (rc : TurnReceipt) (status : RequestStatus)
    (reason : Option FailureReason) (now : Time) (r : PromptRequest) :
    (markFinalised rc status reason now r).failureReason = r.failureReason ∨
      r.id ∈ rc.triggerIds ∧ (markFinalised rc status reason now r).failureReason = reason := by
  unfold markFinalised
  split
  case isTrue h => exact .inr ⟨h.1, rfl⟩
  case isFalse => exact .inl rfl

theorem CancelledIn.step (hst : Stepped colleagues timing s a t) {ids : List PromptRequestId}
    (h : CancelledIn s.db ids) : CancelledIn t.db ids := by
  obtain ⟨r, hr, hid, hcancelled⟩ := h
  cases hst with
  | enqueue he =>
    obtain ⟨_, -, rfl, -⟩ | ⟨-, row, hrow⟩ := enqueueTrigger_cases he
    · exact ⟨r, hr, hid, hcancelled⟩
    · exact ⟨r, (Table.mem_insert? hrow.inserted).mpr (.inl hr), hid, hcancelled⟩
  | @cancel cid now _ _ he =>
    obtain ⟨-, -, hrows⟩ := requestCancellation_ok he
    exact ⟨_, (hrows _).mpr ⟨r, hr, rfl⟩, (moved_markCancelled (.tick 0) cid now r).id ▸ hid,
      cancelled_markCancelled hcancelled⟩
  | commitClaim =>
    exact ⟨_, mem_commitDrain.mpr ⟨r, hr, rfl⟩, by rwa [markDrained_id],
      by rwa [(markDrained_cancellation _ _ _ r).1]⟩
  | markTurnDone =>
    exact ⟨_, mem_finaliseTurn.mpr ⟨r, hr, rfl⟩, by rwa [markFinalised_id],
      by rwa [markFinalised_cancellationRequested]⟩
  | markTurnFailed =>
    exact ⟨_, mem_finaliseTurn.mpr ⟨r, hr, rfl⟩, by rwa [markFinalised_id],
      by rwa [markFinalised_cancellationRequested]⟩
  | _ => exact ⟨r, hr, hid, hcancelled⟩

theorem InCancelledBatch.step (hst : Stepped colleagues timing s a t) {id : PromptRequestId}
    (h : InCancelledBatch s id) : InCancelledBatch t id := by
  obtain ⟨c, hc, hid, hcancelled⟩ := h
  exact ⟨c, claims_kept hst hc, hid, hcancelled.step hst⟩

theorem failure_origin (hst : Stepped colleagues timing s a t) {r : PromptRequest}
    {reason : FailureReason} (hr : r ∈ t.db.promptRequests)
    (hreason : r.failureReason = some reason) :
    (∃ r' ∈ s.db.promptRequests, r'.id = r.id ∧ r'.failureReason = some reason) ∨
      ∃ w rc now, a = .markTurnFailed w rc reason now ∧ r.id ∈ rc.triggerIds := by
  cases hst with
  | enqueue he =>
    obtain ⟨_, -, rfl, -⟩ | ⟨-, row, hrow⟩ := enqueueTrigger_cases he
    · exact .inl ⟨r, hr, rfl, hreason⟩
    · obtain hr | rfl := (Table.mem_insert? hrow.inserted).mp hr
      · exact .inl ⟨r, hr, rfl, hreason⟩
      · cases hreason.symm.trans (hrow.minted he).unfailed
  | @cancel cid now _ _ he =>
    obtain ⟨-, -, hrows⟩ := requestCancellation_ok he
    obtain ⟨r', hr', rfl⟩ := (hrows r).mp hr
    rw [markCancelled_failureReason] at hreason
    exact .inl ⟨r', hr', (markCancelled_key cid now r').symm, hreason⟩
  | commitClaim =>
    obtain ⟨r', hr', rfl⟩ := mem_commitDrain.mp hr
    rw [(markDrained_cancellation _ _ _ r').2] at hreason
    exact .inl ⟨r', hr', (markDrained_key _ _ _ r').symm, hreason⟩
  | @markTurnDone _ rc now =>
    obtain ⟨r', hr', rfl⟩ := mem_finaliseTurn.mp hr
    obtain e | ⟨-, e⟩ := markFinalised_failureReason rc .done none now r'
    · exact .inl ⟨r', hr', (markFinalised_key _ _ _ _ r').symm, e.symm.trans hreason⟩
    · cases hreason.symm.trans e
  | @markTurnFailed w rc reason' now =>
    obtain ⟨r', hr', rfl⟩ := mem_finaliseTurn.mp hr
    obtain e | ⟨hid, e⟩ := markFinalised_failureReason rc .failed (some reason') now r'
    · exact .inl ⟨r', hr', (markFinalised_key _ _ _ _ r').symm, e.symm.trans hreason⟩
    · obtain rfl := Option.some.inj (e.symm.trans hreason)
      exact .inr ⟨w, rc, now, rfl, by rwa [markFinalised_id]⟩
  | _ => exact .inl ⟨r, hr, rfl, hreason⟩

end Rows

def TurnPc.reason? : TurnPc → Option FailureReason
  | .failing reason _ | .failClosing reason _ _ => some reason
  | .marking failure => failure
  | _ => none

def TurnPc.isMarked : TurnPc → Bool
  | .checking | .emitting _ | .emitClosing .. | .releasing => true
  | _ => false

variable {colleagues : Table Colleague} {timing : LeaseTiming}

theorem fromFailure_eq_cancelled {reason : FailureReason}
    (h : ResponseChunk.fromFailure reason = .fromFailure .cancelled) : reason = .cancelled := by
  have hlabel : reason.label = FailureReason.cancelled.label := (ResponseChunk.error.inj h).2
  revert hlabel
  cases reason with
  | cancelled => exact fun _ => rfl
  | _ => exact fun e => absurd e (by simp [FailureReason.label])

theorem handleAgentError_eq_cancelled {e : AgentError} (h : handleAgentError e = .cancelled) :
    e = .cancelled := by
  cases e <;> first | rfl | cases h

def Turn.Stopped (t : Turn) (p : Pool) : TurnAct → Prop
  | .precheck _ => t.pc.isMarked = false ∧ anyCancelled p.queue.db t.receipt.triggerIds
  | .attempt (.errored .cancelled) => True
  | _ => False

inductive Charged (colleagues : Table Colleague) (timing : LeaseTiming) (p : Pool) (t : Turn) :
    TurnAct → Pool → Prop
  | stays {a responses dags} (hchunks : ∀ c ∈ responses.chunks, c ∈ p.responses.chunks ∨
        c.payload ≠ .fromFailure .cancelled) :
      Charged colleagues timing p t a { p with
        responses
        queue := { p.queue with db := { p.queue.db with promptRequestDags := dags } } }
  | goes {a pc responses} (hmarked : t.pc.isMarked → pc.isMarked)
      (hreason : pc.reason? = some .cancelled → t.pc.reason? = some .cancelled ∨ t.Stopped p a)
      (hchunks : ∀ c ∈ responses.chunks, c ∈ p.responses.chunks ∨
        (c.payload = .fromFailure .cancelled →
          t.pc.reason? = some .cancelled ∧ c.requestId ∈ t.unreported)) :
      Charged colleagues timing p t a { p.goto t pc with responses }
  | marks {queue now} (hpc : t.pc.isMarked = false)
      (h : step colleagues timing p.queue (match t.pc.reason? with
        | none => .markTurnDone t.worker t.receipt now
        | some reason => .markTurnFailed t.worker t.receipt reason now) = some queue) :
      Charged colleagues timing p t (.mark now false) { p.goto t .checking with queue }
  | releases {queue}
      (h : step colleagues timing p.queue (.release t.worker t.receipt) = some queue) :
      Charged colleagues timing p t (.release false) { p.leave t with queue }
  | leaves : Charged colleagues timing p t (.release true) (p.leave t)

theorem Pool.publish_chunks {p : Pool} {now : Time} {id : PromptRequestId} {chunk : ResponseChunk}
    {sunk : Sunk} {responses : Responses} (h : p.publish now id chunk sunk = some responses)
    {c : PromptResponseChunk} (hc : c ∈ responses.chunks) :
    c ∈ p.responses.chunks ∨ c.payload = chunk ∧ c.requestId = id := by
  obtain ⟨-, rfl⟩ | ⟨-, c', hpub⟩ := p.publish_cases h
  · exact .inl hc
  · obtain hold | rfl := hpub.mem.mp hc
    · exact .inl hold
    · exact .inr ⟨hpub.payload, hpub.requestId⟩

theorem Pool.mem_closed {p : Pool} {id : PromptRequestId} {fault : Bool} {c : PromptResponseChunk}
    (h : c ∈ (p.closed id fault).chunks) : c ∈ p.responses.chunks := by
  unfold Pool.closed at h
  split at h
  · exact h
  · rwa [closeInTx_chunks] at h

theorem Charged.moves {p : Pool} {t : Turn} {a : TurnAct} {pc : TurnPc}
    (hmarked : t.pc.isMarked → pc.isMarked)
    (hreason : pc.reason? = some .cancelled → t.pc.reason? = some .cancelled ∨ t.Stopped p a) :
    Charged colleagues timing p t a (p.goto t pc) :=
  .goes hmarked hreason fun _ hc => .inl hc

theorem Charged.unmoved {p : Pool} {t : Turn} {a : TurnAct} :
    Charged colleagues timing p t a p :=
  .stays fun _ hc => .inl hc

theorem Turn.attempted_charged (t : Turn) (p : Pool) (retries : Nat) (a : Attempt)
    (h : (t.attempted retries a).reason? = some .cancelled) : t.Stopped p (.attempt a) := by
  unfold Turn.attempted Turn.fails at h
  repeat' split at h
  case h_1 e =>
    obtain rfl := handleAgentError_eq_cancelled (Option.some.inj h)
    trivial
  all_goals cases h

theorem markStep_charged {p p' : Pool} {t : Turn} {failure : Option FailureReason} {now : Time}
    {fault : Bool} (hpc : t.pc.isMarked = false) (hreason : t.pc.reason? = failure)
    (h : markStep colleagues timing p t failure now fault = some p') :
    Charged colleagues timing p t (.mark now fault) p' := by
  unfold markStep at h
  cases fault with
  | true =>
    cases h
    exact .moves (fun _ => rfl) (by rintro ⟨⟩)
  | false =>
    obtain ⟨queue, hqueue, rfl⟩ := Option.map_eq_some_iff.mp h
    exact .marks hpc (hreason ▸ hqueue)

theorem releaseStep_charged {p p' : Pool} {t : Turn} {fault : Bool}
    (h : releaseStep colleagues timing p t fault = some p') :
    Charged colleagues timing p t (.release fault) p' := by
  unfold releaseStep at h
  cases fault with
  | true =>
    cases h
    exact .leaves
  | false =>
    obtain ⟨queue, hqueue, rfl⟩ := Option.map_eq_some_iff.mp h
    exact .releases hqueue

theorem bump_charged {p p' : Pool} {t : Turn} {retries refused unclosed : Nat} {fault : Bool}
    (hpc : t.pc = .running retries refused unclosed)
    (h : turnStep colleagues timing p t (.running retries refused unclosed) (.bump fault) =
      some p') :
    Charged colleagues timing p t (.bump fault) p' := by
  simp only [turnStep] at h
  cases fault with
  | true =>
    cases h
    exact .unmoved
  | false =>
    simp only [Bool.false_eq_true, if_false] at h
    cases hb : bumpOrFail t.toolRoot p.queue.db with
    | ok res =>
      obtain ⟨db, bumped⟩ := res
      have hqueue := bumpOrFail_queue t.toolRoot p.queue.db
      simp only [hb] at h hqueue
      cases h
      rw [hqueue]
      exact .stays fun _ hc => .inl hc
    | error e =>
      rw [hb] at h
      cases e with
      | dagBudgetExceeded =>
        cases h
        exact .moves (by rw [hpc]; rintro ⟨⟩) (by rintro ⟨⟩)
      | _ =>
        cases h
        exact .unmoved

theorem turnStep_charged {p p' : Pool} {t : Turn} {a : TurnAct}
    (h : turnStep colleagues timing p t t.pc a = some p') :
    Charged colleagues timing p t a p' := by
  have hmarked {pc pc' : TurnPc} (hpc : t.pc = pc) (hpc' : pc.isMarked → pc'.isMarked) :
      t.pc.isMarked → pc'.isMarked := hpc ▸ hpc'
  unfold turnStep at h
  split at h
  case h_1 fault hpc =>
    cases h
    refine .moves (by rw [hpc]; rintro ⟨⟩) fun e => .inr ?_
    cases hany : anyCancelled p.queue.db t.receipt.triggerIds with
    | true => exact ⟨by rw [hpc]; rfl, hany⟩
    | false =>
      rw [hany, Bool.and_false] at e
      cases e
  case h_2 fault hpc =>
    cases h
    refine .moves (by rw [hpc]; rintro ⟨⟩) ?_
    cases fault <;> rintro ⟨⟩
  case h_3 hpc =>
    simp only [Option.ite_none_right_eq_some, Option.map_eq_some_iff] at h
    obtain ⟨⟨-, hchunk⟩, responses, hpub, rfl⟩ := h
    refine .stays fun c hc => (Pool.publish_chunks hpub hc).imp_right ?_
    rintro ⟨rfl, -⟩ e
    rw [e] at hchunk
    cases hchunk
  case h_4 hpc => exact bump_charged hpc h
  case h_5 hpc =>
    obtain ⟨responses, hpub, rfl⟩ := Option.map_eq_some_iff.mp h
    refine .goes (by rw [hpc]; rintro ⟨⟩) (by rintro ⟨⟩) fun c hc => ?_
    refine (Pool.publish_chunks hpub hc).imp_right ?_
    rintro ⟨hpayload, -⟩ e
    cases fromFailure_eq_cancelled (hpayload.symm.trans e)
  case h_6 hpc =>
    cases h
    exact .goes (by rw [hpc]; rintro ⟨⟩) (by rintro ⟨⟩) fun c hc => .inl (Pool.mem_closed hc)
  case h_7 hpc =>
    simp only [Option.ite_none_right_eq_some, Option.some.injEq] at h
    obtain ⟨-, rfl⟩ := h
    exact .moves (by rw [hpc]; rintro ⟨⟩) fun e => .inr (t.attempted_charged p _ _ e)
  case h_8 fault hpc =>
    cases h
    refine .moves (by rw [hpc]; rintro ⟨⟩) ?_
    cases fault <;> rintro ⟨⟩
  case h_9 reason id rest now sunk hpc =>
    obtain ⟨responses, hpub, rfl⟩ := Option.map_eq_some_iff.mp h
    refine .goes (by rw [hpc]; rintro ⟨⟩) (fun e => .inl (by rw [hpc]; exact e)) fun c hc => ?_
    refine (Pool.publish_chunks hpub hc).imp_right ?_
    rintro ⟨hpayload, rfl⟩ e
    obtain rfl := fromFailure_eq_cancelled (hpayload.symm.trans e)
    exact ⟨by rw [hpc]; rfl, by rw [Turn.unreported, hpc]; exact List.mem_cons_self⟩
  case h_10 hpc =>
    cases h
    exact .goes (by rw [hpc]; rintro ⟨⟩) (fun e => .inl (by rw [hpc]; exact e))
      fun c hc => .inl (Pool.mem_closed hc)
  case h_11 hpc => exact markStep_charged (by rw [hpc]; rfl) (by rw [hpc]; rfl) h
  case h_12 hpc => exact markStep_charged (by rw [hpc]; rfl) (by rw [hpc]; rfl) h
  case h_13 fault hpc =>
    cases h
    refine .moves (fun _ => ?_) fun e => ?_
    · split <;> rfl
    · split at e <;> cases e
  case h_14 hpc =>
    obtain ⟨responses, hpub, rfl⟩ := Option.map_eq_some_iff.mp h
    refine .goes (fun _ => ?_) (fun e => ?_) fun c hc => ?_
    · split <;> rfl
    · split at e <;> cases e
    · refine (Pool.publish_chunks hpub hc).imp_right ?_
      rintro ⟨hpayload, -⟩ e
      cases hpayload.symm.trans e
  case h_15 hpc =>
    cases h
    exact .goes (fun _ => rfl) (by rintro ⟨⟩) fun c hc => .inl (Pool.mem_closed hc)
  case h_16 hpc => exact releaseStep_charged h
  case h_17 hpc => exact releaseStep_charged h
  case h_18 => cases h

structure Turn.Sound (t : Turn) (db : Db) : Prop where
  live : t.pc.isMarked = false → ∀ r ∈ db.promptRequests, r.id ∈ t.receipt.triggerIds →
    r.status.isLive
  charged : t.pc.reason? = some .cancelled → CancelledIn db t.receipt.triggerIds

structure WatchInv (colleagues : Table Colleague) (s : Watched) : Prop where
  pool : PoolInv colleagues s.pool
  sound : ∀ t ∈ s.pool.turns, t.Sound s.pool.queue.db
  fired : ∀ t ∈ s.pool.turns, t.worker ∈ s.fired → CancelledIn s.pool.queue.db t.receipt.triggerIds
  cancels : CancelsPerBatch s.pool

theorem watchInv_init : WatchInv colleagues .init where
  pool := poolInv_init
  sound := fun _ h => absurd h (Table.not_mem_empty _)
  fired := fun _ h => absurd h (Table.not_mem_empty _)
  cancels :=
    ⟨fun _ h => absurd h (Table.not_mem_empty _), fun _ h => absurd h (Table.not_mem_empty _)⟩

theorem Turn.Sound.step {s u : St} {a : Act} {t : Turn} (h : t.Sound s.db) (hinv : Inv colleagues s)
    (hst : Stepped colleagues timing s a u)
    (ha : t.pc.isMarked = false → ∀ id ∈ t.receipt.triggerIds, ¬a.finalises id) : t.Sound u.db where
  live := fun hpc r hr hid => by
    obtain ⟨r', hr', hmoved⟩ | hadded := rows_origin hinv hst hr
    · rw [hmoved.id] at hid
      rw [hmoved.isLive (ha hpc _ hid)]
      exact h.live hpc r' hr' hid
    · rw [hadded.status]
      rfl
  charged := fun hreason => (h.charged hreason).step hst

theorem anyCancelled_live {db : Db} {ids : List PromptRequestId}
    (hlive : ∀ r ∈ db.promptRequests, r.id ∈ ids → r.status.isLive) :
    anyCancelled db ids ↔ CancelledIn db ids := by
  unfold anyCancelled
  rw [List.any_eq_true]
  constructor
  · rintro ⟨r, hr, h⟩
    simp only [Bool.and_eq_true, decide_eq_true_eq, Bool.or_eq_true] at h
    obtain ⟨hid, hcancelled | hterminal⟩ := h
    · exact ⟨r, hr, hid, hcancelled⟩
    · have hno := hlive r hr hid
      rw [isLive_eq_not_isTerminal, hterminal] at hno
      cases hno
  · rintro ⟨r, hr, hid, hcancelled⟩
    exact ⟨r, hr, by simp [hid, hcancelled]⟩

theorem CancelsPerBatch.step {p : Pool} {queue : St} {a : Act} (h : CancelsPerBatch p)
    (hst : Stepped colleagues timing p.queue a queue)
    (ha : ∀ w rc now, a = .markTurnFailed w rc .cancelled now → ∀ id ∈ rc.triggerIds,
      InCancelledBatch p.queue id) (turns : Table Turn) :
    CancelsPerBatch { p with queue, turns } where
  rows := fun r hr hreason => by
    obtain ⟨r', hr', hid, hreason'⟩ | ⟨w, rc, now, rfl, hid⟩ := failure_origin hst hr hreason
    · exact hid ▸ (h.rows r' hr' hreason').step hst
    · exact (ha w rc now rfl _ hid).step hst
  chunks := fun c hc hpayload => (h.chunks c hc hpayload).step hst

namespace WatchInv

variable {s : Watched} (h : WatchInv colleagues s)
include h

theorem inCancelledBatch {t : Turn} (ht : t ∈ s.pool.turns)
    (hcancelled : CancelledIn s.pool.queue.db t.receipt.triggerIds) {id : PromptRequestId}
    (hid : id ∈ t.receipt.triggerIds) : InCancelledBatch s.pool.queue id := by
  obtain ⟨c, hc, -, hreceipt⟩ := h.pool.claimed t ht
  have hids := (Claim.receipt?_eq_some hreceipt).2.2
  exact ⟨c, hc, hids ▸ hid, hids ▸ hcancelled⟩

theorem stopped {t : Turn} {a : TurnAct} (ht : t ∈ s.pool.turns) (hstop : t.Stopped s.pool a)
    (hadmits : s.admits (.turn t.worker a)) : CancelledIn s.pool.queue.db t.receipt.triggerIds := by
  unfold Turn.Stopped at hstop
  split at hstop
  case h_1 => exact (anyCancelled_live ((h.sound t ht).live hstop.1)).mp hstop.2
  case h_2 => exact h.fired t ht (of_decide_eq_true hadmits)
  case h_3 => exact hstop.elim

theorem queue_step {a : Act} {queue : St} (hst : Stepped colleagues timing s.pool.queue a queue)
    {turns : Table Turn}
    (hturns : ∀ t ∈ turns, t.Sound s.pool.queue.db ∧
      (t.worker ∈ s.fired → CancelledIn s.pool.queue.db t.receipt.triggerIds))
    (hpool : PoolInv colleagues { s.pool with queue, turns })
    (ha : ∀ t ∈ turns, t.pc.isMarked = false → ∀ id ∈ t.receipt.triggerIds, ¬a.finalises id)
    (hfail : ∀ w rc now, a = .markTurnFailed w rc .cancelled now → ∀ id ∈ rc.triggerIds,
      InCancelledBatch s.pool.queue id) :
    WatchInv colleagues { s with pool := { s.pool with queue, turns } } where
  pool := hpool
  sound := fun t ht => (hturns t ht).1.step h.pool.queue hst (ha t ht)
  fired := fun t ht hw => ((hturns t ht).2 hw).step hst
  cancels := h.cancels.step hst hfail turns

theorem kept {t : Turn} (ht : t ∈ s.pool.turns) : t.Sound s.pool.queue.db ∧
    (t.worker ∈ s.fired → CancelledIn s.pool.queue.db t.receipt.triggerIds) :=
  ⟨h.sound t ht, h.fired t ht⟩

theorem goes {t : Turn} (ht : t ∈ s.pool.turns) {pc : TurnPc}
    (hmarked : t.pc.isMarked → pc.isMarked)
    (hreason : pc.reason? = some .cancelled → CancelledIn s.pool.queue.db t.receipt.triggerIds)
    {t' : Turn} (ht' : t' ∈ (s.pool.goto t pc).turns) : t'.Sound s.pool.queue.db ∧
      (t'.worker ∈ s.fired → CancelledIn s.pool.queue.db t'.receipt.triggerIds) := by
  obtain rfl | ⟨ht', -⟩ := Table.mem_put.mp ht'
  · refine ⟨⟨fun hpc => (h.sound t ht).live ?_, hreason⟩, h.fired t ht⟩
    exact Bool.eq_false_iff.mpr fun e => Bool.eq_false_iff.mp hpc (hmarked e)
  · exact h.kept ht'

theorem turn_step {t : Turn} {a : TurnAct} {p : Pool} (ht : t ∈ s.pool.turns)
    (hadmits : s.admits (.turn t.worker a)) (hstep : Charged colleagues timing s.pool t a p)
    (hpool : PoolInv colleagues p) : WatchInv colleagues ⟨p, s.fired⟩ := by
  have hcharged (hreason : t.pc.reason? = some .cancelled ∨ t.Stopped s.pool a) :
      CancelledIn s.pool.queue.db t.receipt.triggerIds :=
    hreason.elim (h.sound t ht).charged fun hstop => h.stopped ht hstop hadmits
  cases hstep with
  | stays hchunks =>
    exact {
      pool := hpool
      sound := fun t' ht' => ⟨(h.sound t' ht').live, (h.sound t' ht').charged⟩
      fired := h.fired
      cancels := ⟨h.cancels.rows, fun c hc hpayload =>
        (hchunks c hc).elim (fun hold => h.cancels.chunks c hold hpayload) (absurd hpayload)⟩ }
  | goes hmarked hreason hchunks =>
    have hcharged' := fun e => hcharged (hreason e)
    refine ⟨hpool, fun t' ht' => (h.goes ht hmarked hcharged' ht').1,
      fun t' ht' => (h.goes ht hmarked hcharged' ht').2, h.cancels.rows, fun c hc hpayload => ?_⟩
    obtain hold | hnew := hchunks c hc
    · exact h.cancels.chunks c hold hpayload
    · obtain ⟨hreason, hid⟩ := hnew hpayload
      exact h.inCancelledBatch ht (hcharged (.inl hreason)) ((h.pool.unreported t ht).1.subset hid)
  | marks hpc hqueue =>
    refine h.queue_step (step_stepped hqueue)
      (fun t' ht' => h.goes ht (fun _ => rfl) (by rintro ⟨⟩) ht') hpool
      (fun t' ht' hpc' id hid hfin => ?_) fun w rc now e id hid => ?_
    · obtain rfl | ⟨ht', hne⟩ := Table.mem_put.mp ht'
      · cases hpc'
      · have hid' : id ∈ t.receipt.triggerIds := by
          revert hfin
          split <;> exact fun hfin => hfin
        obtain rfl := h.pool.turn_eq ht' ht hid hid'
        exact hne rfl
    · revert e
      split
      case h_1 => rintro ⟨⟩
      case h_2 reason hreason =>
        intro e
        cases e
        exact h.inCancelledBatch ht ((h.sound t ht).charged hreason) hid
  | releases hqueue =>
    exact h.queue_step (step_stepped hqueue)
      (fun t' ht' => h.kept (Table.mem_delete.mp ht').1) hpool
      (fun _ _ _ _ _ => not_false) (by rintro _ _ _ ⟨⟩)
  | leaves =>
    exact ⟨hpool, fun t' ht' => h.sound t' (Table.mem_delete.mp ht').1,
      fun t' ht' => h.fired t' (Table.mem_delete.mp ht').1, h.cancels.rows, h.cancels.chunks⟩

theorem claim_step {w : WorkerId} {queue : St} {turn : ClaimedTurn}
    (hcommit : claimCommit timing s.pool.queue w = some (queue, .ok (some turn))) :
    WatchInv colleagues
      ⟨{ s.pool with queue, turns := s.pool.turns.put ⟨w, turn.receipt, turn.kind, .starting⟩ },
        s.fired.filter fun w' => w' ≠ w⟩ := by
  have hstep : step colleagues timing s.pool.queue (.claimCommit w) = some queue :=
    step_claimCommit hcommit
  have hst := step_stepped hstep
  obtain ⟨c, hclaims, -, hreceipt⟩ := claimCommit_turn hcommit
  have hids := (Claim.receipt?_eq_some hreceipt).2.2
  refine ⟨h.pool.claim hcommit, fun t ht => ?_, fun t ht hw => ?_, ?_⟩
  · obtain rfl | ⟨ht, -⟩ := Table.mem_put.mp ht
    · refine ⟨fun _ r hr hid => ?_, by rintro ⟨⟩⟩
      obtain ⟨-, r', hr', hstatus, -⟩ := drain_moves h.pool.queue hstep hclaims (hids ▸ hid)
      obtain ⟨hmem, hkey⟩ := Table.find?_eq_some.mp hr'
      rw [Table.eq_of_key_eq hr hmem hkey.symm, hstatus]
      rfl
    · exact (h.sound t ht).step h.pool.queue hst fun _ _ _ => not_false
  · obtain rfl | ⟨ht, -⟩ := Table.mem_put.mp ht
    · simp at hw
    · exact (h.fired t ht (List.mem_of_mem_filter hw)).step hst
  · exact h.cancels.step hst (by rintro _ _ _ ⟨⟩) _

theorem step {t : Watched} {a : WatchedAct} (hstep : watchedStep colleagues timing s a = some t) :
    WatchInv colleagues t := by
  cases a with
  | poll w fault =>
    obtain ⟨turn, hturn, hstep⟩ := Option.bind_eq_some_iff.mp hstep
    simp only [Option.ite_none_right_eq_some, Option.some.injEq] at hstep
    obtain ⟨hattempts, rfl⟩ := hstep
    split
    case isFalse => exact h
    case isTrue hany =>
      rw [Bool.and_eq_true] at hany
      obtain ⟨hmem, hw⟩ := Table.find?_eq_some.mp hturn
      have hlive : turn.pc.isMarked = false := by
        revert hattempts
        cases turn.pc <;> first | exact fun _ => rfl | rintro ⟨⟩
      have hcancelled := (anyCancelled_live ((h.sound turn hmem).live hlive)).mp hany.2
      refine ⟨h.pool, h.sound, fun t ht hfired => ?_, h.cancels⟩
      obtain e | hfired := List.mem_cons.mp hfired
      · rwa [Table.eq_of_key_eq ht hmem (e.trans hw.symm)]
      · exact h.fired t ht hfired
  | pool a =>
    simp only [watchedStep, Option.ite_none_right_eq_some, Option.map_eq_some_iff] at hstep
    obtain ⟨hadmits, p, hp, rfl⟩ := hstep
    have hpool := h.pool.step hp
    cases a with
    | queue a =>
      simp only [poolStep, Option.ite_none_right_eq_some, Option.map_eq_some_iff] at hp
      obtain ⟨hadmitted, queue, hqueue, rfl⟩ := hp
      have hno (id : PromptRequestId) : ¬a.finalises id := by
        intro hfin
        cases a <;> first | exact hfin | cases hadmitted
      refine h.queue_step (step_stepped hqueue)
        (fun t ht => h.kept (Table.mem_delete.mp ht).1) hpool (fun _ _ _ id _ => hno id) ?_
      rintro w rc now rfl id hid
      exact absurd hid (hno id)
    | claim w =>
      cases poolStep_stepped hp with
      | claims _ hcommit => exact h.claim_step hcommit
      | returns hcommit =>
        have hnext := h.queue_step (step_stepped (step_claimCommit hcommit))
          (fun t ht => h.kept ht) hpool (fun _ _ _ _ _ => not_false) (by rintro _ _ _ ⟨⟩)
        exact ⟨hnext.pool, hnext.sound, fun t ht hw => hnext.fired t ht (List.mem_of_mem_filter hw),
          hnext.cancels⟩
    | turn w a =>
      obtain ⟨t, ht, hturn⟩ := Option.bind_eq_some_iff.mp hp
      obtain ⟨hmem, rfl⟩ := Table.find?_eq_some.mp ht
      exact h.turn_step hmem hadmits (turnStep_charged hturn) hpool

end WatchInv

/-- Cancellation is per batch: in every state of every schedule, a trigger ends as cancelled, or is
told so, only where it was drained together with one whose cancellation was requested. -/
theorem cancels_per_batch {s : Watched}
    (h : Reachable (watchedStep colleagues timing) .init s) : CancelsPerBatch s.pool := by
  have hinv : WatchInv colleagues s := 
    h.inv (fun _ _ _ hinv hstep => hinv.step hstep) watchInv_init
  exact hinv.cancels

namespace Sample

def coalesced : List WatchedAct :=
  ([.queue (.enqueue 5 0 post), .queue (.enqueue 6 0 reply), .queue (.requestCancellation 6 0),
    .queue (.claimBegin 11), .queue (.claimSelect 11 (some 5)), .queue (.claimBump 11),
    .queue (.claimLease 11), .queue (.claimDrain 11 [drained 5, drained 6]), .claim 11,
    .turn 11 (.precheck false), .turn 11 (.publishFailure 0 .sent), .turn 11 (.closeFailure false),
    .turn 11 (.publishFailure 0 .sent), .turn 11 (.closeFailure false),
    .turn 11 (.mark 0 false)] : List PoolAct).map .pool

end Sample

theorem cancels_per_batch_coalesced : ∃ s,
    run (watchedStep Sample.colleagues .defaultConst) .init Sample.coalesced = some s ∧
    CancelsPerBatch s.pool := by
  have hrun :
      (run (watchedStep Sample.colleagues .defaultConst) .init Sample.coalesced).isSome := by
    decide +kernel
  obtain ⟨s, hs⟩ := Option.isSome_iff_exists.mp hrun
  exact ⟨s, hs, cancels_per_batch (run_path hs)⟩

/-- The first of them, which nobody cancelled, is told that it was, and ends so. -/
theorem coalesced_ends_cancelled : ∃ s,
    run (watchedStep Sample.colleagues .defaultConst) .init Sample.coalesced = some s ∧
    (∃ r ∈ s.pool.queue.db.promptRequests, r.id = 5 ∧ r.failureReason = some .cancelled) ∧
    (∃ c ∈ s.pool.responses.chunks, c.requestId = 5 ∧ c.payload = .fromFailure .cancelled) ∧
    ¬CancelsPerRequest s.pool := by
  have hrun : ∃ s,
      run (watchedStep Sample.colleagues .defaultConst) .init Sample.coalesced = some s ∧
      (∃ r ∈ s.pool.queue.db.promptRequests.rows, r.id = 5 ∧ r.failureReason = some .cancelled) ∧
      (∃ c ∈ s.pool.responses.chunks.rows, c.requestId = 5 ∧ c.payload = .fromFailure .cancelled) ∧
      ¬CancelledIn s.pool.queue.db [5] :=
    ⟨_, rfl, by decide +kernel, by decide +kernel, by decide +kernel⟩
  obtain ⟨s, hs, ⟨r, hr, hid, hreason⟩, hchunk, hno⟩ := hrun
  exact ⟨s, hs, ⟨r, hr, hid, hreason⟩, hchunk, fun h => hno (hid ▸ h.rows r hr hreason)⟩

end Patom.Runtime
