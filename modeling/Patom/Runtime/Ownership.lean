import Patom.Runtime.ClaimsInvariant

open Patom.Foundation

namespace Patom.Runtime

variable {colleagues : Table Colleague} {timing : LeaseTiming}

/-- No lease row carries both the receipt's key and its number. -/
def Stale (s : St) (r : TurnReceipt) : Prop :=
  ∀ l ∈ s.db.claimLeases, l.claimKey = r.claimKey → l.leaseSeq ≠ r.leaseSeq

/-- The operations that take a receipt. -/
inductive Fenced (r : TurnReceipt) : Act → Prop
  | heartbeat (w : WorkerId) (now : Time) : Fenced r (.heartbeat w r now)
  | markTurnDone (w : WorkerId) (now : Time) : Fenced r (.markTurnDone w r now)
  | markTurnFailed (w : WorkerId) (reason : FailureReason) (now : Time) :
      Fenced r (.markTurnFailed w r reason now)
  | release (w : WorkerId) : Fenced r (.release w r)

def Claim.SameFence (c : Claim) (r : TurnReceipt) : Prop :=
  c.claimKey = r.claimKey ∧ c.leaseSeq = r.leaseSeq

theorem heartbeatTurn_stale {s : St} {r : TurnReceipt} (h : Stale s r) (deadline : Time) :
    (heartbeatTurn r deadline s.db).claimLeases = s.db.claimLeases :=
  Table.modify_eq_self (renewed_key r deadline) fun l hl => if_neg fun ⟨hk, hs⟩ => h l hl hk hs

theorem releaseTurn_stale {s : St} {r : TurnReceipt} (h : Stale s r) :
    (releaseTurn r s.db).claimLeases = s.db.claimLeases :=
  Table.delete_eq_self fun l hl => by
    rw [Bool.and_eq_false_iff, decide_eq_false_iff_not, decide_eq_false_iff_not]
    exact or_iff_not_imp_left.mpr fun hk => h l hl (not_not.mp hk)

theorem Inv.find?_taken {s : St} (h : Inv colleagues s) {c : Claim} (hc : c ∈ s.claims)
    {id : PromptRequestId} (hid : id ∈ c.triggerIds) : ∃ r, s.db.promptRequests.find? id = some r ∧
      r.claimKey = c.claimKey ∧ r.turnSeq = c.leaseSeq ∧ r.status ≠ .pending := by
  obtain ⟨r, hr, hrid, rest⟩ := h.batch.taken c hc id hid
  exact ⟨r, Table.find?_eq_some.mpr ⟨hr, hrid⟩, rest⟩

theorem Inv.claim_unique {s : St} (h : Inv colleagues s) {c c' : Claim} (hc : c ∈ s.claims)
    (hc' : c' ∈ s.claims) {id : PromptRequestId} (hid : id ∈ c.triggerIds) (hid' : id ∈ c'.triggerIds) :
    c.claimKey = c'.claimKey ∧ c.leaseSeq = c'.leaseSeq := by
  obtain ⟨r, hr, hk, hs, -⟩ := h.find?_taken hc hid
  obtain ⟨r', hr', hk', hs', -⟩ := h.find?_taken hc' hid'
  obtain rfl := Option.some_inj.mp (hr.symm.trans hr')
  exact ⟨hk.symm.trans hk', hs.symm.trans hs'⟩

theorem finaliseTurn_other {s : St} (h : Inv colleagues s) {w : WorkerId} {r : TurnReceipt}
    {now now' : Time} (held : fenced s w r now) {c : Claim} (hc : c ∈ s.claims) (hne : ¬c.SameFence r)
    {id : PromptRequestId} (hid : id ∈ c.triggerIds) (status : RequestStatus)
    (reason : Option FailureReason) :
    (finaliseTurn r status reason now' s.db).promptRequests.find? id =
      s.db.promptRequests.find? id := by
  obtain ⟨c', hc', -, hreceipt⟩ := fenced_holds held
  obtain ⟨hk, hs, hids⟩ := Claim.receipt?_eq_some hreceipt
  have hnot : id ∉ r.triggerIds := fun hr => by
    obtain ⟨hkey, hseq⟩ := h.claim_unique hc hc' hid (hids ▸ hr)
    exact hne ⟨hkey.trans hk.symm, hseq.trans hs.symm⟩
  simp only [finaliseTurn, Table.find?_modify]
  cases hf : s.db.promptRequests.find? id with
  | none => rfl
  | some row =>
    have hrow : row.id = id := Table.key_of_find? hf
    rw [Option.map_some, markFinalised, if_neg fun hm => hnot (hrow ▸ hm.1)]

theorem triggerIds_nodup {s : St} (h : Inv colleagues s) : (s.claims.flatMap Claim.triggerIds).Nodup := by
  rw [List.nodup_flatMap]
  refine ⟨h.batch.claim_nodup, ?_⟩
  refine h.seq.claim_lt.imp_of_mem fun {c c'} hc hc' hlt id hid hid' => ?_
  obtain ⟨hk, hs⟩ := h.claim_unique hc hc' hid hid'
  exact absurd hs (Nat.ne_of_lt (hlt hk))

theorem leaseSeq_increasing {s : St} (h : Inv colleagues s) (k : ClaimKey) :
    ((s.claims.filter (·.claimKey = k)).map (·.leaseSeq)).Pairwise (· < ·) := by
  rw [List.pairwise_map]
  refine (h.seq.claim_lt.filter _).imp_of_mem fun {c c'} hc hc' hlt => hlt ?_
  simp only [List.mem_filter, decide_eq_true_iff] at hc hc'
  exact hc.2.trans hc'.2.symm

theorem drain_moves {s t : St} (h : Inv colleagues s) {w : WorkerId} {c : Claim}
    (hstep : step colleagues timing s (.claimCommit w) = some t) (hc : t.claims = s.claims ++ [c])
    {id : PromptRequestId} (hid : id ∈ c.triggerIds) :
    (∃ r, s.db.promptRequests.find? id = some r ∧ r.status = .pending) ∧
      ∃ r, t.db.promptRequests.find? id = some r ∧ r.status = .processing ∧
        r.claimKey = c.claimKey ∧ r.turnSeq = c.leaseSeq := by
  cases step_stepped hstep with
  | commitRefused => simp [St.close] at hc
  | commitEmpty => simp [St.close] at hc
  | @commitClaim w tx c' seq d' rest htx hpc =>
    obtain ⟨hmem, rfl⟩ := St.open?_mem htx
    obtain rfl := List.singleton_inj.mp (List.append_cancel_left hc)
    obtain ⟨d, hd, rfl⟩ := List.mem_map.mp hid
    obtain ⟨r, hr, hrid, hk, hp⟩ := h.batch.waiting _ hmem _ _ _ hpc d hd
    have hfind := Table.find?_eq_some.mpr ⟨hr, hrid⟩
    refine ⟨⟨r, hfind, hp⟩, markDrained (Claim.mk tx.worker c' seq d' rest).triggerIds seq tx.now r,
      ?_, ?_⟩
    · exact (find?_commitDrain ..).trans (congrArg _ hfind)
    · rw [markDrained, if_pos ((show r.id = d.id from hrid) ▸ hid)]
      exact ⟨rfl, hk, rfl⟩

/-- Mutual exclusion and fencing of claims, in every state that any interleaving reaches. -/
theorem lease_fencing {s : St} (h : Reachable (step colleagues timing) .init s) :
    (∀ k, (s.db.claimLeases.rows.filter (·.claimKey = k)).length ≤ 1 ∧
      ((s.claims.filter (·.claimKey = k)).map (·.leaseSeq)).Pairwise (· < ·)) ∧
    (∀ r a t, Stale s r → Fenced r a → step colleagues timing s a = some t →
      t.db.claimLeases = s.db.claimLeases ∧
      ∀ c ∈ s.claims, ¬c.SameFence r → ∀ id ∈ c.triggerIds,
        t.db.promptRequests.find? id = s.db.promptRequests.find? id) ∧
    (s.claims.flatMap Claim.triggerIds).Nodup ∧
    (∀ w t c, step colleagues timing s (.claimCommit w) = some t → t.claims = s.claims ++ [c] →
      ∀ id ∈ c.triggerIds,
        (∃ r, s.db.promptRequests.find? id = some r ∧ r.status = .pending) ∧
        ∃ r, t.db.promptRequests.find? id = some r ∧ r.status = .processing ∧
          r.claimKey = c.claimKey ∧ r.turnSeq = c.leaseSeq) := by
  have hinv := reachable_inv h
  refine ⟨fun k => ⟨Table.length_filter_key_le _ k, leaseSeq_increasing hinv k⟩, fun r a t hstale hf hstep => ?_,
    triggerIds_nodup hinv, fun w t c hstep hc id hid => drain_moves hinv hstep hc hid⟩
  cases hf with
  | heartbeat w now =>
    cases step_stepped hstep
    exact ⟨heartbeatTurn_stale hstale _, fun _ _ _ _ _ => rfl⟩
  | markTurnDone w now =>
    cases step_stepped hstep with
    | markTurnDone held =>
      exact ⟨rfl, fun c hc hne id hid => finaliseTurn_other hinv held hc hne hid _ _⟩
  | markTurnFailed w reason now =>
    cases step_stepped hstep with
    | markTurnFailed held =>
      exact ⟨rfl, fun c hc hne id hid => finaliseTurn_other hinv held hc hne hid _ _⟩
  | release w =>
    cases step_stepped hstep
    exact ⟨releaseTurn_stale hstale, fun _ _ _ _ _ => rfl⟩

theorem lease_fencing_handover : ∃ s, run (step Sample.colleagues .defaultConst) .init
      ([.enqueue 5 0 Sample.post] ++ Sample.claim 11 5 ++ [.markTurnDone 11 (Sample.receipt 5 1) 0,
        .release 11 (Sample.receipt 5 1), .enqueue 6 0 Sample.reply] ++ Sample.claim 12 6) = some s ∧
    s.claims.map (·.leaseSeq) = [1, 2] ∧ (s.claims.flatMap Claim.triggerIds).Nodup := by
  have h : (run (step Sample.colleagues .defaultConst) .init
      ([.enqueue 5 0 Sample.post] ++ Sample.claim 11 5 ++ [.markTurnDone 11 (Sample.receipt 5 1) 0,
        .release 11 (Sample.receipt 5 1), .enqueue 6 0 Sample.reply] ++ Sample.claim 12 6)).map
      (fun s => s.claims.map (·.leaseSeq)) = some [1, 2] := by decide
  obtain ⟨s, hs, hseqs⟩ := Option.map_eq_some_iff.mp h
  exact ⟨s, hs, hseqs, (lease_fencing (run_path hs)).2.2.1⟩

end Patom.Runtime

namespace Patom.Runtime

variable {colleagues : Table Colleague} {timing : LeaseTiming}

def Owned (s : St) (l : ClaimLease) : Prop :=
  ∃ c ∈ s.claims, c.worker = l.workerId ∧ c.claimKey = l.claimKey ∧ c.leaseSeq = l.leaseSeq ∧
    c.triggerIds ≠ [] ∧ ∀ r ∈ s.released, r.claimKey = l.claimKey → r.leaseSeq ≠ l.leaseSeq

def ReturnsNone (timing : LeaseTiming) (s : St) (w : WorkerId) (t : St) : Prop :=
  claimSelect s w none = some t ∨ claimCommit timing s w = some (t, .ok none)

structure NoOwnerless (timing : LeaseTiming) (s : St) : Prop where
  owned : ∀ l ∈ s.db.claimLeases, s.clock < l.leasedUntil → Owned s l
  unchanged : ∀ w t, ReturnsNone timing s w t → t.db.claimLeases = s.db.claimLeases

/-- A claim that holds its lease still finds a trigger of its key waiting. -/
def DrainsPending (s : St) : Act → Prop
  | .claimDrain w _ => ∀ tx c seq, s.open? w = some tx → tx.pc = .leased c seq →
      ∃ r ∈ s.db.promptRequests, r.claimKey = c.claimKey ∧ r.status = .pending
  | _ => True

def NoEmptyDrain (s : St) : Prop := ∀ tx ∈ s.inflight, ∀ c seq, tx.pc ≠ .drained c seq []

theorem commitLease_changes {s : St} (hinv : Inv colleagues s) {tx : ClaimTx}
    (htx : tx ∈ s.inflight) {c : Candidate} {seq : TurnSeq} (hticket : tx.pc.ticket = some (c, seq)) :
    (commitLease timing tx c seq (commitSeq c s.db)).claimLeases ≠ s.db.claimLeases := by
  intro e
  have hmem : takenLease (commitSeq c s.db) c.claimKey c.orgId tx.worker seq (tx.now + timing.ttl) ∈
      s.db.claimLeases := e ▸ mem_commitLease.mpr (.inl rfl)
  obtain ⟨hk, hs, -⟩ := takenLease_fields (Eq.refl (takenLease (commitSeq c s.db) c.claimKey c.orgId
    tx.worker seq (tx.now + timing.ttl)))
  have hle := hinv.seq.lease_le _ hmem
  have hseq := hinv.seq.ticket tx htx c seq hticket
  rw [hk, hs] at hle
  lia

theorem map_some_ne_ok_none (turn : Except PromptError ClaimedTurn) : turn.map some ≠ .ok none := by
  cases turn <;> simp [Except.map]

theorem unchanged_iff {s : St} (hinv : Inv colleagues s) :
    (∀ w t, ReturnsNone timing s w t → t.db.claimLeases = s.db.claimLeases) ↔ NoEmptyDrain s := by
  constructor
  · intro h tx htx c seq hpc
    have hopen : s.open? tx.worker = some tx := Table.find?_of_mem htx
    have hcommit : claimCommit timing s tx.worker = some ({ s.close tx.worker with
        db := commitLease timing tx c seq (commitSeq c s.db) }, .ok none) := by
      rw [claimCommit, hopen, Option.bind_some, hpc]
    exact commitLease_changes hinv htx (congrArg ClaimPc.ticket hpc) (h tx.worker _ (.inr hcommit))
  · rintro h w t (hsel | hcom)
    · obtain ⟨tx, -, hsel⟩ := Option.bind_eq_some_iff.mp hsel
      split at hsel
      · simp only [Option.ite_none_right_eq_some, Option.some.injEq] at hsel
        exact hsel.2 ▸ rfl
      · cases hsel
    · obtain ⟨tx, htx, hcom⟩ := Option.bind_eq_some_iff.mp hcom
      split at hcom
      case h_1 => cases hcom; rfl
      case h_2 hpc => exact absurd hpc (h tx (St.open?_mem htx).1 _ _)
      case h_3 =>
        simp only [Option.some.injEq, Prod.mk.injEq] at hcom
        exact absurd hcom.2 (map_some_ne_ok_none _)
      case h_4 => cases hcom

theorem noOwnerless_iff {s : St} (hinv : Inv colleagues s) : NoOwnerless timing s ↔
    (∀ l ∈ s.db.claimLeases, s.clock < l.leasedUntil → Owned s l) ∧ NoEmptyDrain s :=
  ⟨fun h => ⟨h.owned, (unchanged_iff hinv).mp h.unchanged⟩,
    fun h => ⟨h.1, (unchanged_iff hinv).mpr h.2⟩⟩

theorem Owned.of_history {s t : St} {l : ClaimLease} (h : Owned s l)
    (hclaims : ∀ c ∈ s.claims, c ∈ t.claims) (hreleased : ∀ r ∈ t.released, r ∈ s.released ∨
      (r.claimKey = l.claimKey → r.leaseSeq ≠ l.leaseSeq)) : Owned t l := by
  obtain ⟨c, hc, hw, hk, hs, hne, hrel⟩ := h
  exact ⟨c, hclaims c hc, hw, hk, hs, hne, fun r hr => (hreleased r hr).elim (hrel r) id⟩

theorem Claim.triggerIds_ne_nil (c : Claim) : c.triggerIds ≠ [] := List.cons_ne_nil _ _

theorem Inv.owned_of_held {s : St} (hinv : Inv colleagues s) {w : WorkerId} {r : TurnReceipt}
    {now : Time} (held : fenced s w r now) {l : ClaimLease} (hl : l ∈ s.db.claimLeases)
    (hk : l.claimKey = r.claimKey) (hs : l.leaseSeq = r.leaseSeq) : Owned s l := by
  obtain ⟨c, hc, -, hreceipt⟩ := fenced_holds held
  obtain ⟨hk', hs', -⟩ := Claim.receipt?_eq_some hreceipt
  have hck := hk'.symm.trans hk.symm
  have hcs := hs'.symm.trans hs.symm
  refine ⟨c, hc, hinv.lease.owner l hl c hc hck hcs, hck, hcs, c.triggerIds_ne_nil, fun r' hr' e => ?_⟩
  exact (hinv.lease.released r' hr' l hl e.symm).symm

theorem owned_step {s t : St} {a : Act} (hinv : Inv colleagues s)
    (h : ∀ l ∈ s.db.claimLeases, s.clock < l.leasedUntil → Owned s l) (hdrain : NoEmptyDrain s)
    (hst : Stepped colleagues timing s a t) :
    ∀ l ∈ t.db.claimLeases, t.clock < l.leasedUntil → Owned t l := by
  cases hst with
  | tick d => exact fun l hl hlt => h l hl (Nat.lt_of_le_of_lt (Nat.le_add_right _ _) hlt)
  | enqueue he => rw [(enqueueTrigger_ok he).1]; exact h
  | cancel _ he => rw [(requestCancellation_ok he).1]; exact h
  | commitEmpty htx hpc => exact absurd hpc (hdrain _ (St.open?_mem htx).1 _ _)
  | @commitClaim w tx c seq d rest htx hpc =>
    obtain ⟨hmem, rfl⟩ := St.open?_mem htx
    have hseq := hinv.seq.ticket tx hmem c seq (congrArg ClaimPc.ticket hpc)
    intro l hl hlt
    obtain hnew | ⟨hl, -⟩ := mem_commitLease.mp hl
    · obtain ⟨hk, hs, hw⟩ := takenLease_fields hnew
      refine ⟨⟨tx.worker, c, seq, d, rest⟩, List.mem_append_right _ (List.mem_singleton_self _), hw.symm,
        hk.symm, hs.symm, Claim.triggerIds_ne_nil _, fun r hr e => ?_⟩
      have hle := hinv.seq.released_le r hr
      rw [e, hk] at hle
      rw [hs]
      lia
    · exact (h l hl hlt).of_history (fun c hc => List.mem_append_left _ hc) fun r hr => .inl hr
  | heartbeat held free =>
    intro l hl hlt
    obtain ⟨l₀, hl₀, rfl⟩ := mem_heartbeatTurn.mp hl
    have hold : Owned s l₀ := by
      unfold renewed at hlt
      split at hlt
      case isTrue hm => exact hinv.owned_of_held held hl₀ hm.1 hm.2
      case isFalse => exact h l₀ hl₀ hlt
    simpa [Owned] using hold
  | release held free =>
    intro l hl hlt
    obtain ⟨hl, hne⟩ := mem_releaseTurn.mp hl
    refine (h l hl hlt).of_history (fun c hc => hc) fun r' hr' => ?_
    obtain hr' | hr' := List.mem_append.mp hr'
    · exact .inl hr'
    · rw [List.mem_singleton.mp hr']
      exact .inr fun e => (hne e.symm).symm
  | _ => exact h

theorem drainTurnPending_eq_nil {s : St} (hinv : Inv colleagues s) {k : ClaimKey} :
    drainTurnPending colleagues s.db k = [] ↔
      ¬∃ r ∈ s.db.promptRequests, r.claimKey = k ∧ r.status = .pending := by
  rw [List.eq_nil_iff_forall_not_mem]
  constructor
  · rintro h ⟨r, hr, hk, hp⟩
    obtain ⟨rc, hrc⟩ := Option.isSome_iff_exists.mp (hinv.batch.receiver r hr)
    exact h _ (mem_drainTurnPending.mpr ⟨r, hr, hk, hp, rc, hrc, rfl⟩)
  · intro h d hd
    obtain ⟨r, hr, hk, hp, -⟩ := mem_drainTurnPending.mp hd
    exact h ⟨r, hr, hk, hp⟩

theorem noEmptyDrain_step {s t : St} {a : Act} (hinv : Inv colleagues s) (h : NoEmptyDrain s)
    (hst : Stepped colleagues timing s a t) : NoEmptyDrain t ↔ DrainsPending s a := by
  have hclose (w : WorkerId) : NoEmptyDrain (s.close w) := fun tx htx => h tx (St.mem_close.mp htx).1
  have hput (tx : ClaimTx) (hpc : ∀ c seq, tx.pc ≠ .drained c seq []) :
      ∀ tx' ∈ s.inflight.put tx, ∀ c seq, tx'.pc ≠ .drained c seq [] := by
    intro tx' htx'
    obtain rfl | ⟨htx', -⟩ := Table.mem_put.mp htx'
    · exact hpc
    · exact h tx' htx'
  cases hst with
  | begin | select | bump | lease | refuse => exact iff_of_true (hput _ (by simp)) trivial
  | selectClosed | abort | stop | commitRefused | commitEmpty | commitClaim =>
    exact iff_of_true (hclose _) trivial
  | @drain w tx c seq batch htx hpc perm =>
    have hempty : batch = [] ↔ ¬∃ r ∈ s.db.promptRequests, r.claimKey = c.claimKey ∧ r.status = .pending := by
      rw [← drainTurnPending_eq_nil hinv]
      exact ⟨fun e => (List.nil_perm.mp (e ▸ perm)), fun e => List.perm_nil.mp (e ▸ perm)⟩
    constructor
    · intro hno tx' c' seq' htx' hpc'
      cases htx.symm.trans htx'
      cases hpc.symm.trans hpc'
      by_contra hnone
      exact hno _ (St.mem_advance.mpr (.inl rfl)) c seq (by rw [hempty.mpr hnone])
    · intro hpending
      refine hput _ fun c' seq' e => ?_
      cases e
      exact hempty.mp rfl (hpending tx c seq htx hpc)
  | _ => exact iff_of_true h trivial

/-- Leases stay owned throughout a run exactly when no claim drains nothing. -/
theorem noOwnerless_iff_drainsPending (as : List Act) :
    Always (step colleagues timing) (NoOwnerless timing) .init as ↔
      Steps (step colleagues timing) DrainsPending .init as := by
  refine always_iff_steps (Inv colleagues) (fun s a t hi _ hstep _ => hi.step hstep)
    (fun s a t hi h hstep => ?_) Inv.init ?_ as
  · obtain ⟨howned, hdrain⟩ := (noOwnerless_iff hi).mp h
    have hst := step_stepped hstep
    rw [noOwnerless_iff (hi.step hstep), ← noEmptyDrain_step hi hdrain hst]
    exact and_iff_right (owned_step hi howned hdrain hst)
  · exact (noOwnerless_iff (Inv.init : Inv colleagues .init)).mpr
      ⟨fun l hl => absurd hl (Table.not_mem_empty l), fun tx htx => absurd htx (Table.not_mem_empty tx)⟩

/-- Between one worker's candidate read and its drain, another claims, finishes and releases the key. -/
theorem noOwnerless_empty_drain : ∃ s, run (step Sample.colleagues .defaultConst) .init
      ([.enqueue 5 0 Sample.post, .claimBegin 11, .claimSelect 11 (some 5)] ++ Sample.claim 12 5 ++
        [.markTurnDone 12 (Sample.receipt 5 1) 0, .release 12 (Sample.receipt 5 1), .claimBump 11,
          .claimLease 11, .claimDrain 11 [], .claimCommit 11]) = some s ∧
    ¬NoOwnerless .defaultConst s := by
  have h : (run (step Sample.colleagues .defaultConst) .init
      ([.enqueue 5 0 Sample.post, .claimBegin 11, .claimSelect 11 (some 5)] ++ Sample.claim 12 5 ++
        [.markTurnDone 12 (Sample.receipt 5 1) 0, .release 12 (Sample.receipt 5 1), .claimBump 11,
          .claimLease 11, .claimDrain 11 [], .claimCommit 11])).any
      (fun s => s.db.claimLeases.rows.any fun l => s.clock < l.leasedUntil &&
        s.claims.all fun c => c.worker ≠ l.workerId) = true := by decide
  obtain ⟨s, hs, hbad⟩ := (Option.any_eq_true _ _).mp h
  refine ⟨s, hs, fun hown => ?_⟩
  obtain ⟨l, hl, hp⟩ := List.any_eq_true.mp hbad
  simp only [Bool.and_eq_true, decide_eq_true_eq, List.all_eq_true] at hp
  obtain ⟨c, hc, hw, -⟩ := hown.owned l hl hp.1
  exact hp.2 c hc hw

end Patom.Runtime
