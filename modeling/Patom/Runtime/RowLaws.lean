import Patom.Runtime.Dag
import Patom.Runtime.Ownership

open Patom.Foundation

namespace Patom.Runtime

variable {colleagues : Table Colleague} {timing : LeaseTiming}

def Act.finalises : Act → PromptRequestId → Prop
  | .markTurnDone _ rc _, id | .markTurnFailed _ rc _ _, id => id ∈ rc.triggerIds
  | _, _ => False

structure Moved (a : Act) (r r' : PromptRequest) : Prop where
  id : r'.id = r.id
  root : r'.rootRequestId = r.rootRequestId
  status : r'.status = r.status ∨ r.status = .pending ∧ r'.status = .processing ∨
    a.finalises r.id ∧ r'.status.isTerminal

structure Added (a : Act) (s : St) (r : PromptRequest) : Prop where
  fresh : s.db.promptRequests.find? r.id = none
  status : r.status = .pending
  enqueued : ∃ now trig, a = .enqueue r.id now trig ∧ r.rootRequestId = trig.rootRequestId.getD r.id

theorem Moved.refl (a : Act) (r : PromptRequest) : Moved a r r := ⟨rfl, rfl, .inl rfl⟩

theorem Moved.pending {a : Act} {r r' : PromptRequest} (h : Moved a r r') (hp : r'.status = .pending) :
    r.status = .pending := by
  obtain e | ⟨-, e⟩ | ⟨-, e⟩ := h.status
  · rwa [← e]
  · rw [hp] at e
    cases e
  · rw [hp] at e
    cases e

theorem Moved.isLive {a : Act} {r r' : PromptRequest} (h : Moved a r r') (ha : ¬a.finalises r.id) :
    r'.status.isLive = r.status.isLive := by
  obtain e | ⟨e, e'⟩ | ⟨e, -⟩ := h.status
  · rw [e]
  · rw [e, e']
    rfl
  · exact absurd e ha

theorem moved_markCancelled (a : Act) (id : PromptRequestId) (now : Time) (r : PromptRequest) :
    Moved a r (markCancelled id now r) := by
  unfold markCancelled
  split
  · exact ⟨rfl, rfl, .inl rfl⟩
  · exact .refl a r

theorem moved_markFinalised (a : Act) {rc : TurnReceipt} {status : RequestStatus}
    (h : status.isTerminal) (ha : ∀ id ∈ rc.triggerIds, a.finalises id) (reason : Option FailureReason)
    (now : Time) (r : PromptRequest) : Moved a r (markFinalised rc status reason now r) := by
  unfold markFinalised
  split
  case isTrue hr => exact ⟨rfl, rfl, .inr (.inr ⟨ha _ hr.1, h⟩)⟩
  case isFalse => exact .refl a r

theorem moved_markDrained {s : St} (h : Inv colleagues s) {tx : ClaimTx} {c : Candidate}
    {seq : TurnSeq} {batch : List DrainedTrigger} (htx : tx ∈ s.inflight)
    (hpc : tx.pc = .drained c seq batch) (a : Act) {r : PromptRequest}
    (hr : r ∈ s.db.promptRequests) : Moved a r (markDrained (batch.map (·.id)) seq tx.now r) := by
  by_cases hp : r.status = .pending
  · unfold markDrained
    split
    · exact ⟨rfl, rfl, .inr (.inl ⟨hp, rfl⟩)⟩
    · exact .refl a r
  · rw [h.batch.markDrained_other htx hpc hr (.inr hp)]
    exact .refl a r

theorem rows_enqueued {s : St} {id rid : PromptRequestId} {now : Time} {trig : NewTrigger} {db : Db}
    (h : enqueueTrigger colleagues id now trig s.db = .ok (db, rid)) :
    db.promptRequests = s.db.promptRequests ∨ ∃ r, Added (.enqueue id now trig) s r ∧
      s.db.promptRequests.insert? r = some db.promptRequests := by
  obtain ⟨_, -, rfl, -⟩ | ⟨-, row, hrow⟩ := enqueueTrigger_cases h
  · exact .inl rfl
  · have hfresh : s.db.promptRequests.find? row.id = none :=
      Table.insert?_isSome.mp (Option.isSome_iff_exists.mpr ⟨_, hrow.inserted⟩)
    obtain rfl := hrow.rowId
    exact .inr ⟨row, ⟨hfresh, hrow.pending h, now, trig, rfl, hrow.root⟩, hrow.inserted⟩

theorem rows_origin {s t : St} {a : Act} (h : Inv colleagues s) (hst : Stepped colleagues timing s a t)
    {r' : PromptRequest} (hr' : r' ∈ t.db.promptRequests) :
    (∃ r ∈ s.db.promptRequests, Moved a r r') ∨ Added a s r' := by
  cases hst with
  | enqueue he =>
    obtain hrows | ⟨row, hadd, hins⟩ := rows_enqueued he
    · exact .inl ⟨r', hrows ▸ hr', .refl _ r'⟩
    · obtain hr' | rfl := (Table.mem_insert? hins).mp hr'
      · exact .inl ⟨r', hr', .refl _ r'⟩
      · exact .inr hadd
  | cancel _ he =>
    obtain ⟨-, -, hrows⟩ := requestCancellation_ok he
    obtain ⟨r, hr, rfl⟩ := (hrows r').mp hr'
    exact .inl ⟨r, hr, moved_markCancelled _ _ _ r⟩
  | commitClaim htx hpc =>
    obtain ⟨hmem, rfl⟩ := St.open?_mem htx
    obtain ⟨r, hr, rfl⟩ := mem_commitDrain.mp hr'
    exact .inl ⟨r, hr, moved_markDrained h hmem hpc _ hr⟩
  | @markTurnDone w rc now =>
    obtain ⟨r, hr, rfl⟩ := mem_finaliseTurn.mp hr'
    exact .inl ⟨r, hr, moved_markFinalised (.markTurnDone w rc now) rfl (fun _ h => h) _ _ r⟩
  | @markTurnFailed w rc reason now =>
    obtain ⟨r, hr, rfl⟩ := mem_finaliseTurn.mp hr'
    exact .inl ⟨r, hr, moved_markFinalised (.markTurnFailed w rc reason now) rfl (fun _ h => h) _ _ r⟩
  | _ => exact .inl ⟨r', hr', .refl _ r'⟩

theorem rows_moved {s t : St} {a : Act} (h : Inv colleagues s) (hst : Stepped colleagues timing s a t)
    {r : PromptRequest} (hr : r ∈ s.db.promptRequests) :
    ∃ r' ∈ t.db.promptRequests, Moved a r r' := by
  cases hst with
  | enqueue he =>
    obtain hrows | ⟨row, -, hins⟩ := rows_enqueued he
    · exact ⟨r, hrows ▸ hr, .refl _ r⟩
    · exact ⟨r, (Table.mem_insert? hins).mpr (.inl hr), .refl _ r⟩
  | cancel _ he =>
    obtain ⟨-, -, hrows⟩ := requestCancellation_ok he
    exact ⟨_, (hrows _).mpr ⟨r, hr, rfl⟩, moved_markCancelled _ _ _ r⟩
  | commitClaim htx hpc =>
    obtain ⟨hmem, rfl⟩ := St.open?_mem htx
    exact ⟨_, mem_commitDrain.mpr ⟨r, hr, rfl⟩, moved_markDrained h hmem hpc _ hr⟩
  | @markTurnDone w rc now =>
    exact ⟨_, mem_finaliseTurn.mpr ⟨r, hr, rfl⟩,
      moved_markFinalised (.markTurnDone w rc now) rfl (fun _ h => h) _ _ r⟩
  | @markTurnFailed w rc reason now =>
    exact ⟨_, mem_finaliseTurn.mpr ⟨r, hr, rfl⟩,
      moved_markFinalised (.markTurnFailed w rc reason now) rfl (fun _ h => h) _ _ r⟩
  | _ => exact ⟨r, hr, .refl _ r⟩

theorem claims_kept {s t : St} {a : Act} (hst : Stepped colleagues timing s a t) {c : Claim}
    (hc : c ∈ s.claims) : c ∈ t.claims := by
  cases hst with
  | commitClaim => exact List.mem_append_left _ hc
  | _ => exact hc

theorem Inv.claim_eq {s : St} (h : Inv colleagues s) {c c' : Claim} (hc : c ∈ s.claims)
    (hc' : c' ∈ s.claims) {id : PromptRequestId} (hid : id ∈ c.triggerIds) (hid' : id ∈ c'.triggerIds) :
    c = c' := by
  by_contra hne
  have hdisjoint := (List.nodup_flatMap.mp (triggerIds_nodup h)).2
  have : Std.Symm (Function.onFun List.Disjoint Claim.triggerIds) := ⟨fun _ _ h => List.Disjoint.symm h⟩
  exact hdisjoint.forall hc hc' hne hid hid'

theorem step_claimCommit {s t : St} {w : WorkerId} {res : Except PromptError (Option ClaimedTurn)}
    (h : claimCommit timing s w = some (t, res)) :
    step colleagues timing s (.claimCommit w) = some t := by
  rw [step, h]
  rfl

theorem claimCommit_turn {s t : St} {w : WorkerId} {turn : ClaimedTurn}
    (h : claimCommit timing s w = some (t, .ok (some turn))) :
    ∃ c, t.claims = s.claims ++ [c] ∧ c.worker = w ∧ c.receipt? = some turn.receipt := by
  obtain ⟨tx, htx, h⟩ := Option.bind_eq_some_iff.mp h
  split at h
  case h_1 => cases h
  case h_2 => cases h
  case h_3 c seq d rest hpc =>
    simp only [Option.some.injEq, Prod.mk.injEq] at h
    obtain ⟨rfl, hturn⟩ := h
    refine ⟨⟨w, c, seq, d, rest⟩, rfl, rfl, ?_⟩
    unfold Claim.receipt?
    cases hc : (Claim.mk w c seq d rest).turn with
    | error e => simp [hc, Except.map] at hturn
    | ok turn' =>
      simp only [hc, Except.map, Except.ok.injEq, Option.some.injEq] at hturn
      rw [hturn]
  case h_4 => cases h

end Patom.Runtime
