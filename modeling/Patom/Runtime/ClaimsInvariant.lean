import Patom.Runtime.Claims

open Patom.Foundation

namespace Patom.Runtime

variable {colleagues : Table Colleague} {timing : LeaseTiming}

/-- Fencing numbers: every number in use was committed, except the one its holder is still
keeping to itself. -/
structure SeqInv (s : St) : Prop where
  ticket : ∀ tx ∈ s.inflight, ∀ c seq, tx.pc.ticket = some (c, seq) →
    seq = committedSeq s.db c.claimKey + 1
  exclusive : ∀ tx ∈ s.inflight, ∀ tx' ∈ s.inflight, ∀ k, tx.pc.seqLock = some k →
    tx'.pc.seqLock = some k → tx.worker = tx'.worker
  claim_le : ∀ c ∈ s.claims, c.leaseSeq ≤ committedSeq s.db c.claimKey
  claim_lt : s.claims.Pairwise fun c c' => c.claimKey = c'.claimKey → c.leaseSeq < c'.leaseSeq
  lease_le : ∀ l ∈ s.db.claimLeases, l.leaseSeq ≤ committedSeq s.db l.claimKey
  released_le : ∀ r ∈ s.released, r.leaseSeq ≤ committedSeq s.db r.claimKey

def TicketsFrom (s t : St) : Prop :=
  ∀ tx ∈ t.inflight, (∃ tx' ∈ s.inflight, tx'.worker = tx.worker ∧ tx.pc.ticket = tx'.pc.ticket) ∨
    tx.pc.ticket = none

theorem ticketsFrom_close (s : St) (w : WorkerId) : TicketsFrom s (s.close w) := fun tx h =>
  .inl ⟨tx, (St.mem_close.mp h).1, rfl, rfl⟩

theorem ticketsFrom_advance {s : St} {tx : ClaimTx} {pc : ClaimPc} (htx : tx ∈ s.inflight)
    (hpc : pc.ticket = tx.pc.ticket ∨ pc.ticket = none) : TicketsFrom s (s.advance tx pc) := by
  intro tx' h
  obtain rfl | ⟨h, -⟩ := St.mem_advance.mp h
  · exact hpc.imp (fun e => ⟨tx, htx, rfl, e⟩) id
  · exact .inl ⟨tx', h, rfl, rfl⟩

theorem seqLock_eq_some {pc : ClaimPc} {k : ClaimKey} :
    pc.seqLock = some k ↔ ∃ c seq, pc.ticket = some (c, seq) ∧ c.claimKey = k := by
  simp [ClaimPc.seqLock]

theorem SeqInv.of_same {s t : St} (h : SeqInv s) (hseq : t.db.claimSeq = s.db.claimSeq)
    (hclaims : t.claims = s.claims) (hfrom : TicketsFrom s t)
    (hleases : ∀ l ∈ t.db.claimLeases, ∃ l' ∈ s.db.claimLeases, l'.claimKey = l.claimKey ∧
      l'.leaseSeq = l.leaseSeq)
    (hreleased : ∀ r ∈ t.released, r.leaseSeq ≤ committedSeq s.db r.claimKey) : SeqInv t := by
  have hcommitted : committedSeq t.db = committedSeq s.db := by
    funext k
    simp [committedSeq, hseq]
  constructor
  case ticket =>
    intro tx htx c seq ht
    rw [hcommitted]
    obtain ⟨tx', htx', -, e⟩ | e := hfrom tx htx
    · exact h.ticket tx' htx' c seq (e ▸ ht)
    · rw [e] at ht
      cases ht
  case exclusive =>
    intro tx htx tx' htx' k hk hk'
    obtain ⟨x, hx, ex, tx_x⟩ | e := hfrom tx htx
    · obtain ⟨y, hy, ey, tx_y⟩ | e' := hfrom tx' htx'
      · rw [← ex, ← ey]
        rw [ClaimPc.seqLock, tx_x] at hk
        rw [ClaimPc.seqLock, tx_y] at hk'
        exact h.exclusive x hx y hy k hk hk'
      · simp [ClaimPc.seqLock, e'] at hk'
    · simp [ClaimPc.seqLock, e] at hk
  case claim_le => simpa only [hcommitted, hclaims] using h.claim_le
  case claim_lt => simpa only [hclaims] using h.claim_lt
  case lease_le =>
    intro l hl
    obtain ⟨l', hl', hk, hs⟩ := hleases l hl
    simpa only [hcommitted, ← hk, ← hs] using h.lease_le l' hl'
  case released_le => simpa only [hcommitted] using hreleased

theorem SeqInv.bump {s : St} (h : SeqInv s) {tx : ClaimTx} {c : Candidate}
    (free : s.seqLocked c.claimKey = false) :
    SeqInv (s.advance tx (.bumped c (bumpClaimSeq s.db c.claimKey c.orgId).nextSeq)) := by
  have hfree := St.seqLocked_eq_false.mp free
  refine { h with ticket := ?_, exclusive := ?_ }
  · intro tx' htx' c' seq ht
    obtain rfl | ⟨htx', -⟩ := St.mem_advance.mp htx'
    · cases ht
      exact bumpClaimSeq_nextSeq ..
    · exact h.ticket tx' htx' c' seq ht
  · intro x hx y hy k hxk hyk
    obtain rfl | ⟨hx, -⟩ := St.mem_advance.mp hx <;> obtain rfl | ⟨hy, -⟩ := St.mem_advance.mp hy
    · rfl
    · cases hxk
      exact absurd hyk (hfree y hy)
    · cases hyk
      exact absurd hxk (hfree x hx)
    · exact h.exclusive x hx y hy k hxk hyk

theorem SeqInv.commit {s t : St} (h : SeqInv s) {tx : ClaimTx} (htx : tx ∈ s.inflight)
    {c : Candidate} {seq : TurnSeq} (ht : tx.pc.ticket = some (c, seq))
    (hinflight : t.inflight = (s.close tx.worker).inflight)
    (hcommitted : committedSeq t.db = committedSeq (commitSeq c s.db))
    (hreleased : t.released = s.released)
    (hclaims : t.claims = s.claims ∨
      ∃ cl : Claim, cl.claimKey = c.claimKey ∧ cl.leaseSeq = seq ∧ t.claims = s.claims ++ [cl])
    (hleases : ∀ l ∈ t.db.claimLeases, l ∈ s.db.claimLeases ∨
      l.claimKey = c.claimKey ∧ l.leaseSeq = seq) : SeqInv t := by
  have hseq : seq = committedSeq s.db c.claimKey + 1 := h.ticket tx htx c seq ht
  have hnew : committedSeq (commitSeq c s.db) c.claimKey = seq := by
    rw [committedSeq_commitSeq, if_pos rfl, hseq]
  have hle (k : ClaimKey) : committedSeq s.db k ≤ committedSeq (commitSeq c s.db) k :=
    committedSeq_le_commitSeq c s.db k
  have hmem {x : ClaimTx} (hx : x ∈ t.inflight) : x ∈ s.inflight ∧ x.worker ≠ tx.worker := by
    rw [hinflight] at hx
    exact St.mem_close.mp hx
  constructor
  case ticket =>
    intro x hx c' seq' hx'
    obtain ⟨hxs, hne⟩ := hmem hx
    have hk : c.claimKey ≠ c'.claimKey := fun e => hne <|
      h.exclusive x hxs tx htx c.claimKey (seqLock_eq_some.mpr ⟨c', seq', hx', e.symm⟩)
        (seqLock_eq_some.mpr ⟨c, seq, ht, rfl⟩)
    rw [hcommitted, committedSeq_commitSeq, if_neg hk]
    exact h.ticket x hxs c' seq' hx'
  case exclusive => exact fun x hx y hy => h.exclusive x (hmem hx).1 y (hmem hy).1
  case claim_le =>
    rw [hcommitted]
    have hold : ∀ cl ∈ s.claims, cl.leaseSeq ≤ committedSeq (commitSeq c s.db) cl.claimKey :=
      fun cl hcl => Nat.le_trans (h.claim_le cl hcl) (hle _)
    obtain e | ⟨cl, hk, hs, e⟩ := hclaims
    · rwa [e]
    · rw [e]
      intro cl' hcl'
      obtain hcl' | hcl' := List.mem_append.mp hcl'
      · exact hold cl' hcl'
      · exact Nat.le_of_eq (by rw [List.mem_singleton.mp hcl', hk, hs, hnew])
  case claim_lt =>
    obtain e | ⟨cl, hk, hs, e⟩ := hclaims
    · rw [e]
      exact h.claim_lt
    · rw [e, List.pairwise_append]
      refine ⟨h.claim_lt, List.pairwise_singleton _ _, fun a ha b hb hab => ?_⟩
      rw [List.mem_singleton.mp hb] at hab ⊢
      have := h.claim_le a ha
      rw [hab, hk] at this
      lia
  case lease_le =>
    rw [hcommitted]
    intro l hl
    obtain hl | ⟨hk, hs⟩ := hleases l hl
    · exact Nat.le_trans (h.lease_le l hl) (hle _)
    · exact Nat.le_of_eq (by rw [hk, hs, hnew])
  case released_le =>
    rw [hcommitted, hreleased]
    exact fun r hr => Nat.le_trans (h.released_le r hr) (hle _)

theorem SeqInv.step {s t : St} {a : Act} (h : SeqInv s) (hst : Stepped colleagues timing s a t) :
    SeqInv t := by
  have hleases : ∀ l ∈ s.db.claimLeases, ∃ l' ∈ s.db.claimLeases,
      l'.claimKey = l.claimKey ∧ l'.leaseSeq = l.leaseSeq := fun l hl => ⟨l, hl, rfl, rfl⟩
  have hself : TicketsFrom s s := fun tx htx => .inl ⟨tx, htx, rfl, rfl⟩
  cases hst with
  | tick d => exact h.of_same rfl rfl hself hleases h.released_le
  | enqueue he =>
    obtain ⟨hl, hs, -⟩ := enqueueTrigger_ok he
    exact h.of_same hs rfl hself (by simpa only [hl] using hleases) h.released_le
  | enqueueRejected | cancelRejected => exact h
  | cancel _ he =>
    obtain ⟨hl, hs, -⟩ := requestCancellation_ok he
    exact h.of_same hs rfl hself (by simpa only [hl] using hleases) h.released_le
  | begin live idle =>
    refine h.of_same rfl rfl (fun tx htx => ?_) hleases h.released_le
    obtain rfl | ⟨htx, -⟩ := Table.mem_put.mp htx
    · exact .inr rfl
    · exact .inl ⟨tx, htx, rfl, rfl⟩
  | select htx hpc _ _ =>
    exact h.of_same rfl rfl (ticketsFrom_advance (St.open?_mem htx).1 (.inr rfl)) hleases
      h.released_le
  | selectClosed | abort => exact h.of_same rfl rfl (ticketsFrom_close s _) hleases h.released_le
  | bump _ _ free => exact h.bump free
  | lease htx hpc _ | refuse htx hpc _ | drain htx hpc _ =>
    exact h.of_same rfl rfl
      (ticketsFrom_advance (St.open?_mem htx).1 (.inl (by rw [hpc]; rfl))) hleases h.released_le
  | commitRefused htx hpc =>
    obtain ⟨hmem, rfl⟩ := St.open?_mem htx
    exact h.commit hmem (congrArg ClaimPc.ticket hpc) rfl rfl rfl (.inl rfl) fun l hl => .inl hl
  | commitEmpty htx hpc =>
    obtain ⟨hmem, rfl⟩ := St.open?_mem htx
    refine h.commit hmem (congrArg ClaimPc.ticket hpc) rfl rfl rfl (.inl rfl) fun l hl => ?_
    obtain hl | ⟨hl, -⟩ := mem_commitLease.mp hl
    · exact .inr ⟨(takenLease_fields hl).1, (takenLease_fields hl).2.1⟩
    · exact .inl hl
  | commitClaim htx hpc =>
    obtain ⟨hmem, rfl⟩ := St.open?_mem htx
    refine h.commit hmem (congrArg ClaimPc.ticket hpc) rfl rfl rfl (.inr ⟨_, rfl, rfl, rfl⟩) fun l hl => ?_
    obtain hl | ⟨hl, -⟩ := mem_commitLease.mp hl
    · exact .inr ⟨(takenLease_fields hl).1, (takenLease_fields hl).2.1⟩
    · exact .inl hl
  | heartbeat held free =>
    refine h.of_same rfl rfl hself (fun l hl => ?_) h.released_le
    obtain ⟨l', hl', rfl⟩ := mem_heartbeatTurn.mp hl
    exact ⟨l', hl', by simp, by simp⟩
  | markTurnDone | markTurnFailed => exact h.of_same rfl rfl hself hleases h.released_le
  | @release w r held free =>
    refine h.of_same rfl rfl hself (fun l hl => hleases l (mem_releaseTurn.mp hl).1) fun r' hr' => ?_
    obtain hr' | hr' := List.mem_append.mp hr'
    · exact h.released_le r' hr'
    · rw [List.mem_singleton.mp hr']
      obtain ⟨c, hc, -, hreceipt⟩ := fenced_holds held
      obtain ⟨hk, hs, -⟩ := Claim.receipt?_eq_some hreceipt
      rw [hk, hs]
      exact h.claim_le c hc
  | stop => exact h.of_same rfl rfl (ticketsFrom_close s _) hleases h.released_le

/-- A row version that keeps its identity and its claim; only a processing row may settle. -/
structure Kept (r r' : PromptRequest) : Prop where
  id : r'.id = r.id
  claimKey : r'.claimKey = r.claimKey
  turnSeq : r'.turnSeq = r.turnSeq
  receiver : r'.receiverColleagueId = r.receiverColleagueId
  status : r'.status = r.status ∨ r.status = .processing ∧ r'.status.isTerminal

theorem Kept.refl (r : PromptRequest) : Kept r r := ⟨rfl, rfl, rfl, rfl, .inl rfl⟩

theorem Kept.pending {r r' : PromptRequest} (h : Kept r r') :
    r'.status = .pending ↔ r.status = .pending := by
  obtain e | ⟨e, ht⟩ := h.status
  · rw [e]
  · rw [e]
    constructor <;> intro hp
    · simp [hp, RequestStatus.isTerminal] at ht
    · cases hp

theorem kept_markCancelled (id : PromptRequestId) (now : Time) (r : PromptRequest) :
    Kept r (markCancelled id now r) := by
  unfold markCancelled
  split
  · exact ⟨rfl, rfl, rfl, rfl, .inl rfl⟩
  · exact .refl r

theorem kept_markFinalised {rc : TurnReceipt} {status : RequestStatus} (h : status.isTerminal)
    (reason : Option FailureReason) (now : Time) (r : PromptRequest) :
    Kept r (markFinalised rc status reason now r) := by
  unfold markFinalised
  split
  case isTrue hr => exact ⟨rfl, rfl, rfl, rfl, .inr ⟨hr.2.2, h⟩⟩
  case isFalse => exact .refl r

def Waiting (db : Db) (k : ClaimKey) (id : PromptRequestId) : Prop :=
  ∃ r ∈ db.promptRequests, r.id = id ∧ r.claimKey = k ∧ r.status = .pending

def Taken (db : Db) (k : ClaimKey) (seq : TurnSeq) (id : PromptRequestId) : Prop :=
  ∃ r ∈ db.promptRequests, r.id = id ∧ r.claimKey = k ∧ r.turnSeq = seq ∧ r.status ≠ .pending

structure BatchInv (colleagues : Table Colleague) (s : St) : Prop where
  receiver : ∀ r ∈ s.db.promptRequests, (colleagues.find? r.receiverColleagueId).isSome
  batch_nodup : ∀ tx ∈ s.inflight, tx.pc.rowLock.Nodup
  waiting : ∀ tx ∈ s.inflight, ∀ c seq batch, tx.pc = .drained c seq batch →
    ∀ d ∈ batch, Waiting s.db c.claimKey d.id
  claim_nodup : ∀ c ∈ s.claims, c.triggerIds.Nodup
  taken : ∀ c ∈ s.claims, ∀ id ∈ c.triggerIds, Taken s.db c.claimKey c.leaseSeq id

theorem BatchInv.of_kept {s t : St} (h : BatchInv colleagues s)
    (hkept : ∀ r ∈ s.db.promptRequests, ∃ r' ∈ t.db.promptRequests, Kept r r')
    (hreceiver : ∀ r ∈ t.db.promptRequests, (colleagues.find? r.receiverColleagueId).isSome)
    (hinflight : ∀ tx ∈ t.inflight, tx ∈ s.inflight ∨ ∀ c seq batch, tx.pc ≠ .drained c seq batch)
    (hclaims : t.claims = s.claims) : BatchInv colleagues t := by
  refine ⟨hreceiver, fun tx htx => ?_, fun tx htx c seq batch hpc d hd => ?_, hclaims ▸ h.claim_nodup,
    fun c hc id hid => ?_⟩
  · obtain htx | hpc := hinflight tx htx
    · exact h.batch_nodup tx htx
    · cases e : tx.pc with
      | drained c seq batch => exact absurd e (hpc c seq batch)
      | _ => exact List.nodup_nil
  · obtain htx | hne := hinflight tx htx
    · obtain ⟨r, hr, hid, hk, hp⟩ := h.waiting tx htx c seq batch hpc d hd
      obtain ⟨r', hr', kept⟩ := hkept r hr
      exact ⟨r', hr', kept.id.trans hid, kept.claimKey.trans hk, kept.pending.mpr hp⟩
    · exact absurd hpc (hne c seq batch)
  · obtain ⟨r, hr, hid, hk, hs, hp⟩ := h.taken c (hclaims ▸ hc) id hid
    obtain ⟨r', hr', kept⟩ := hkept r hr
    exact ⟨r', hr', kept.id.trans hid, kept.claimKey.trans hk, kept.turnSeq.trans hs,
      fun e => hp (kept.pending.mp e)⟩

theorem mem_drainTurnPending {db : Db} {k : ClaimKey} {d : DrainedTrigger} :
    d ∈ drainTurnPending colleagues db k ↔ ∃ r ∈ db.promptRequests, r.claimKey = k ∧
      r.status = .pending ∧ ∃ rc, colleagues.find? r.receiverColleagueId = some rc ∧
      d = ⟨r.id, r.kind, r.threadId, r.receiverColleagueId, rc.agentId, r.kindPayload,
        r.rootRequestId⟩ := by
  simp only [drainTurnPending, List.mem_filterMap, Option.ite_none_right_eq_some,
    Option.map_eq_some_iff, and_assoc, eq_comm (a := d)]
  rfl

theorem drainTurnPending_nodup (db : Db) (k : ClaimKey) :
    ((drainTurnPending colleagues db k).map (·.id)).Nodup := by
  refine db.promptRequests.nodup.sublist (Table.map_filterMap_sublist _ _ fun r d hd => ?_)
  obtain ⟨-, rc, -, rfl⟩ : (r.claimKey = k ∧ r.status = .pending) ∧
      ∃ rc, colleagues.find? r.receiverColleagueId = some rc ∧ _ = d := by
    simpa using hd
  rfl

theorem BatchInv.drain {s : St} (h : BatchInv colleagues s) {tx : ClaimTx} {c : Candidate}
    {seq : TurnSeq} {batch : List DrainedTrigger}
    (perm : batch.Perm (drainTurnPending colleagues s.db c.claimKey)) :
    BatchInv colleagues (s.advance tx (.drained c seq batch)) := by
  refine { h with batch_nodup := fun tx' htx' => ?_, waiting := fun tx' htx' c' seq' b hpc d hd => ?_ }
  · obtain rfl | ⟨htx', -⟩ := St.mem_advance.mp htx'
    · exact (perm.map (·.id)).nodup_iff.mpr (drainTurnPending_nodup s.db c.claimKey)
    · exact h.batch_nodup tx' htx'
  · obtain rfl | ⟨htx', -⟩ := St.mem_advance.mp htx'
    · cases hpc
      obtain ⟨r, hr, hk, hp, rc, -, rfl⟩ := mem_drainTurnPending.mp (perm.mem_iff.mp hd)
      exact ⟨r, hr, rfl, hk, hp⟩
    · exact h.waiting tx' htx' c' seq' b hpc d hd

theorem BatchInv.markDrained_other {s : St} (h : BatchInv colleagues s) {tx : ClaimTx} {c : Candidate}
    {seq : TurnSeq} {batch : List DrainedTrigger} (htx : tx ∈ s.inflight)
    (hpc : tx.pc = .drained c seq batch) {r : PromptRequest} (hr : r ∈ s.db.promptRequests)
    (hne : r.claimKey ≠ c.claimKey ∨ r.status ≠ .pending) :
    markDrained (batch.map (·.id)) seq tx.now r = r := by
  refine if_neg fun hid => ?_
  obtain ⟨d, hd, e⟩ := List.mem_map.mp hid
  obtain ⟨r', hr', hid', hk, hp⟩ := h.waiting tx htx c seq batch hpc d hd
  obtain rfl := Table.eq_of_key_eq hr' hr (hid'.trans e)
  exact hne.elim (absurd hk) (absurd hp)

theorem BatchInv.commitClaim {s : St} (h : BatchInv colleagues s) (hseq : SeqInv s) {tx : ClaimTx}
    {c : Candidate} {seq : TurnSeq} {d : DrainedTrigger} {rest : List DrainedTrigger}
    (htx : tx ∈ s.inflight) (hpc : tx.pc = .drained c seq (d :: rest)) :
    BatchInv colleagues { s.close tx.worker with
      db := commitDrain tx seq (Claim.mk tx.worker c seq d rest).triggerIds
        (commitLease timing tx c seq (commitSeq c s.db)),
      claims := s.claims ++ [⟨tx.worker, c, seq, d, rest⟩] } := by
  have hother {r : PromptRequest} (hr : r ∈ s.db.promptRequests)
      (hne : r.claimKey ≠ c.claimKey ∨ r.status ≠ .pending) :
      r ∈ (commitDrain tx seq (Claim.mk tx.worker c seq d rest).triggerIds
        (commitLease timing tx c seq (commitSeq c s.db))).promptRequests :=
    mem_commitDrain.mpr ⟨r, hr, h.markDrained_other htx hpc hr hne⟩
  constructor
  case receiver =>
    intro r hr
    obtain ⟨r', hr', rfl⟩ := mem_commitDrain.mp hr
    have := h.receiver r' hr'
    unfold markDrained
    split <;> exact this
  case batch_nodup => exact fun tx' htx' => h.batch_nodup tx' (St.mem_close.mp htx').1
  case waiting =>
    intro tx' htx' c' seq' b hpc' x hx
    obtain ⟨htx', hw⟩ := St.mem_close.mp htx'
    obtain ⟨r, hr, hid, hk, hp⟩ := h.waiting tx' htx' c' seq' b hpc' x hx
    refine ⟨r, hother hr (.inl fun e => hw ?_), hid, hk, hp⟩
    exact hseq.exclusive tx' htx' tx htx c.claimKey
      (seqLock_eq_some.mpr ⟨c', seq', by rw [hpc']; rfl, hk.symm.trans e⟩)
      (seqLock_eq_some.mpr ⟨c, seq, by rw [hpc]; rfl, rfl⟩)
  case claim_nodup =>
    intro cl hcl
    obtain hcl | hcl := List.mem_append.mp hcl
    · exact h.claim_nodup cl hcl
    · have := h.batch_nodup tx htx
      rw [hpc] at this
      rw [List.mem_singleton.mp hcl]
      exact this
  case taken =>
    intro cl hcl id hid
    obtain hcl | hcl := List.mem_append.mp hcl
    · obtain ⟨r, hr, hrid, hk, hs, hp⟩ := h.taken cl hcl id hid
      exact ⟨r, hother hr (.inr hp), hrid, hk, hs, hp⟩
    · rw [List.mem_singleton.mp hcl] at hid ⊢
      obtain ⟨x, hx, rfl⟩ := List.mem_map.mp hid
      obtain ⟨r, hr, e, hk, hp⟩ := h.waiting tx htx c seq _ hpc x hx
      rw [← e] at hid ⊢
      refine ⟨markDrained _ seq tx.now r, mem_commitDrain.mpr ⟨r, hr, rfl⟩, ?_⟩
      rw [markDrained, if_pos hid]
      exact ⟨rfl, hk, rfl, by simp⟩

theorem finaliseTurn_kept (rc : TurnReceipt) {status : RequestStatus} (h : status.isTerminal)
    (reason : Option FailureReason) (now : Time) (db : Db) : ∀ r ∈ db.promptRequests,
    ∃ r' ∈ (finaliseTurn rc status reason now db).promptRequests, Kept r r' := fun r hr =>
  ⟨_, mem_finaliseTurn.mpr ⟨r, hr, rfl⟩, kept_markFinalised h reason now r⟩

theorem rows_kept {s t : St} {a : Act} (hst : Stepped colleagues timing s a t)
    (ha : ∀ w, a ≠ .claimCommit w) :
    ∀ r ∈ s.db.promptRequests, ∃ r' ∈ t.db.promptRequests, Kept r r' := by
  have hrefl : ∀ r ∈ s.db.promptRequests, ∃ r' ∈ s.db.promptRequests, Kept r r' :=
    fun r hr => ⟨r, hr, .refl r⟩
  cases hst with
  | enqueue he =>
    obtain ⟨-, -, hrows | ⟨row, -, -, hins⟩⟩ := enqueueTrigger_ok he
    · simpa only [hrows] using hrefl
    · exact fun r hr => ⟨r, (Table.mem_insert? hins).mpr (.inl hr), .refl r⟩
  | cancel _ he =>
    obtain ⟨-, -, hrows⟩ := requestCancellation_ok he
    exact fun r hr => ⟨_, (hrows _).mpr ⟨r, hr, rfl⟩, kept_markCancelled _ _ r⟩
  | markTurnDone => exact finaliseTurn_kept _ rfl _ _ _
  | markTurnFailed => exact finaliseTurn_kept _ rfl _ _ _
  | commitRefused | commitEmpty | commitClaim => exact absurd rfl (ha _)
  | _ => exact hrefl

theorem receivers_step {P : ColleagueId → Prop}
    (hresolved : ∀ org agent id, resolveAgentColleague colleagues org agent = .ok id → P id)
    {s t : St} {a : Act} (hst : Stepped colleagues timing s a t)
    (h : ∀ r ∈ s.db.promptRequests, P r.receiverColleagueId) :
    ∀ r ∈ t.db.promptRequests, P r.receiverColleagueId := by
  have hfinalise (rc : TurnReceipt) (status : RequestStatus) (hs : status.isTerminal)
      (reason : Option FailureReason) (now : Time) :
      ∀ r ∈ (finaliseTurn rc status reason now s.db).promptRequests, P r.receiverColleagueId := by
    intro r hr
    obtain ⟨r', hr', rfl⟩ := mem_finaliseTurn.mp hr
    rw [(kept_markFinalised hs reason now r').receiver]
    exact h r' hr'
  cases hst with
  | enqueue he =>
    obtain ⟨-, -, hrows | ⟨row, -, hrc, hins⟩⟩ := enqueueTrigger_ok he
    · simpa only [hrows] using h
    · intro r hr
      obtain hr | rfl := (Table.mem_insert? hins).mp hr
      · exact h r hr
      · exact hresolved _ _ _ hrc
  | cancel _ he =>
    obtain ⟨-, -, hrows⟩ := requestCancellation_ok he
    intro r hr
    obtain ⟨r', hr', rfl⟩ := (hrows r).mp hr
    rw [(kept_markCancelled _ _ r').receiver]
    exact h r' hr'
  | commitClaim =>
    intro r hr
    obtain ⟨r', hr', rfl⟩ := mem_commitDrain.mp hr
    have hreceiver := h r' hr'
    unfold markDrained
    split <;> exact hreceiver
  | markTurnDone => exact hfinalise _ _ rfl _ _
  | markTurnFailed => exact hfinalise _ _ rfl _ _
  | _ => exact h

theorem BatchInv.step {s t : St} {a : Act} (h : BatchInv colleagues s) (hseq : SeqInv s)
    (hst : Stepped colleagues timing s a t) : BatchInv colleagues t := by
  have hreceiver : ∀ r ∈ t.db.promptRequests, (colleagues.find? r.receiverColleagueId).isSome :=
    receivers_step (P := fun id => (colleagues.find? id).isSome) (fun _ _ _ hresolve => by
      obtain ⟨c, hc, -⟩ := resolveAgentColleague_ok hresolve
      exact Option.isSome_of_eq_some hc) hst h.receiver
  have hkept := rows_kept hst
  have hself : ∀ tx ∈ s.inflight, tx ∈ s.inflight ∨ ∀ c seq batch, tx.pc ≠ .drained c seq batch :=
    fun tx htx => .inl htx
  have hclose (w : WorkerId) : ∀ tx ∈ (s.close w).inflight,
      tx ∈ s.inflight ∨ ∀ c seq batch, tx.pc ≠ .drained c seq batch :=
    fun tx htx => .inl (St.mem_close.mp htx).1
  have hput (tx : ClaimTx) (hpc : ∀ c seq batch, tx.pc ≠ .drained c seq batch) :
      ∀ tx' ∈ s.inflight.put tx, tx' ∈ s.inflight ∨ ∀ c seq batch, tx'.pc ≠ .drained c seq batch := by
    intro tx' htx'
    obtain rfl | ⟨htx', -⟩ := Table.mem_put.mp htx'
    · exact .inr hpc
    · exact .inl htx'
  cases hst with
  | tick | enqueue | enqueueRejected | cancel | cancelRejected | heartbeat | markTurnDone
  | markTurnFailed | release => exact h.of_kept (hkept nofun) hreceiver hself rfl
  | begin | select | bump | lease | refuse =>
    exact h.of_kept (hkept nofun) hreceiver (hput _ (by simp)) rfl
  | selectClosed | abort | stop => exact h.of_kept (hkept nofun) hreceiver (hclose _) rfl
  | drain htx hpc perm => exact h.drain perm
  | commitRefused | commitEmpty =>
    exact h.of_kept (fun r hr => ⟨r, hr, .refl r⟩) hreceiver (hclose _) rfl
  | commitClaim htx hpc =>
    obtain ⟨hmem, rfl⟩ := St.open?_mem htx
    exact h.commitClaim hseq hmem hpc

def ClaimPc.takes : ClaimPc → Option ClaimKey
  | .leased c _ | .drained c _ _ => some c.claimKey
  | .begun | .candidate _ | .bumped _ _ | .refused _ _ => none

theorem ClaimPc.locks_of_takes {pc : ClaimPc} {k : ClaimKey} (h : pc.takes = some k) :
    pc.seqLock = some k ∧ pc.leaseLock = some k := by
  cases pc <;> simp_all [ClaimPc.takes, ClaimPc.seqLock, ClaimPc.ticket, ClaimPc.leaseLock]

structure LeaseInv (s : St) : Prop where
  now_le : ∀ tx ∈ s.inflight, tx.now ≤ s.clock
  free : ∀ tx ∈ s.inflight, ∀ k, tx.pc.takes = some k →
    ∀ l ∈ s.db.claimLeases, l.claimKey = k → l.leasedUntil ≤ tx.now
  owner : ∀ l ∈ s.db.claimLeases, ∀ c ∈ s.claims, c.claimKey = l.claimKey →
    c.leaseSeq = l.leaseSeq → c.worker = l.workerId
  released : ∀ r ∈ s.released, ∀ l ∈ s.db.claimLeases, l.claimKey = r.claimKey →
    l.leaseSeq ≠ r.leaseSeq

theorem LeaseInv.of_same {s t : St} (h : LeaseInv s) (hleases : t.db.claimLeases = s.db.claimLeases)
    (hclaims : t.claims = s.claims) (hreleased : t.released = s.released) (hclock : s.clock ≤ t.clock)
    (hinflight : ∀ tx ∈ t.inflight, (∃ tx' ∈ s.inflight, tx'.now = tx.now ∧
      (tx.pc.takes = none ∨ tx.pc.takes = tx'.pc.takes)) ∨ tx.now ≤ t.clock ∧ tx.pc.takes = none) :
    LeaseInv t := by
  refine ⟨fun tx htx => ?_, fun tx htx k hk => ?_, ?_, ?_⟩
  · obtain ⟨tx', htx', e, -⟩ | ⟨hle, -⟩ := hinflight tx htx
    · exact e ▸ Nat.le_trans (h.now_le tx' htx') hclock
    · exact hle
  · rw [hleases]
    obtain ⟨tx', htx', e, ht | ht⟩ | ⟨-, ht⟩ := hinflight tx htx
    · simp [ht] at hk
    · exact e ▸ h.free tx' htx' k (ht ▸ hk)
    · simp [ht] at hk
  · rw [hleases, hclaims]
    exact h.owner
  · rw [hleases, hreleased]
    exact h.released

theorem LeaseInv.lease {s : St} (h : LeaseInv s) {tx : ClaimTx} (htx : tx ∈ s.inflight)
    {c : Candidate} {seq : TurnSeq} (free : leaseFree s.db c.claimKey tx.now) :
    LeaseInv (s.advance tx (.leased c seq)) := by
  refine { h with now_le := fun tx' htx' => ?_, free := fun tx' htx' k hk => ?_ }
  · obtain rfl | ⟨htx', -⟩ := St.mem_advance.mp htx'
    · exact h.now_le tx htx
    · exact h.now_le tx' htx'
  · obtain rfl | ⟨htx', -⟩ := St.mem_advance.mp htx'
    · cases hk
      exact leaseFree_iff.mp free
    · exact h.free tx' htx' k hk

theorem LeaseInv.commit {s t : St} (h : LeaseInv s) (hseq : SeqInv s) {tx : ClaimTx}
    (htx : tx ∈ s.inflight) {c : Candidate} {seq : TurnSeq} (ht : tx.pc.ticket = some (c, seq))
    (hinflight : t.inflight = (s.close tx.worker).inflight) (hclock : t.clock = s.clock)
    (hreleased : t.released = s.released)
    (hclaims : ∀ cl ∈ t.claims, cl ∈ s.claims ∨ cl.worker = tx.worker ∧ cl.claimKey = c.claimKey)
    (hleases : ∀ l ∈ t.db.claimLeases, (l.claimKey = c.claimKey ∧ l.leaseSeq = seq ∧
      l.workerId = tx.worker) ∨ l ∈ s.db.claimLeases ∧ l.claimKey ≠ c.claimKey) : LeaseInv t := by
  have hnew := hseq.ticket tx htx c seq ht
  have hmem {x : ClaimTx} (hx : x ∈ t.inflight) : x ∈ s.inflight ∧ x.worker ≠ tx.worker := by
    rw [hinflight] at hx
    exact St.mem_close.mp hx
  constructor
  case now_le =>
    rw [hclock]
    exact fun tx' htx' => h.now_le tx' (hmem htx').1
  case free =>
    intro tx' htx' k hk l hl hlk
    obtain ⟨htx', hw⟩ := hmem htx'
    have hne : k ≠ c.claimKey := fun e => hw <| hseq.exclusive tx' htx' tx htx k
      (ClaimPc.locks_of_takes hk).1 (seqLock_eq_some.mpr ⟨c, seq, ht, e.symm⟩)
    obtain ⟨hk', -, -⟩ | ⟨hl, -⟩ := hleases l hl
    · exact absurd (hlk.symm.trans hk') hne
    · exact h.free tx' htx' k hk l hl hlk
  case owner =>
    intro l hl cl hcl hk hs
    obtain ⟨hk', hs', hw⟩ | ⟨hl, hne⟩ := hleases l hl
    · obtain hcl | ⟨hw', -⟩ := hclaims cl hcl
      · have hle := hseq.claim_le cl hcl
        rw [hk, hk', hs, hs'] at hle
        lia
      · rw [hw, hw']
    · obtain hcl | ⟨-, hk'⟩ := hclaims cl hcl
      · exact h.owner l hl cl hcl hk hs
      · exact absurd (hk.symm.trans hk') hne
  case released =>
    intro r hr l hl hk
    rw [hreleased] at hr
    obtain ⟨hk', hs', -⟩ | ⟨hl, -⟩ := hleases l hl
    · have hle := hseq.released_le r hr
      rw [← hk, hk'] at hle
      lia
    · exact h.released r hr l hl hk

theorem LeaseInv.heartbeat {s : St} (h : LeaseInv s) {r : TurnReceipt} (deadline : Time)
    (free : s.fenceBlocked r = false) : LeaseInv { s with db := heartbeatTurn r deadline s.db } := by
  constructor
  case now_le => exact h.now_le
  case free =>
    intro tx htx k hk l hl hlk
    obtain ⟨l', hl', rfl⟩ := mem_heartbeatTurn.mp hl
    rw [renewed_claimKey] at hlk
    unfold renewed
    split
    case isTrue hm =>
      have hlock := (ClaimPc.locks_of_takes hk).2
      rw [← hlk, hm.1] at hlock
      exact absurd hlock (St.fence_free free hl' hm.1 hm.2 tx htx)
    case isFalse => exact h.free tx htx k hk l' hl' hlk
  case owner =>
    intro l hl c hc hk hs
    obtain ⟨l', hl', rfl⟩ := mem_heartbeatTurn.mp hl
    simp only [renewed_claimKey, renewed_leaseSeq, renewed_workerId] at hk hs ⊢
    exact h.owner l' hl' c hc hk hs
  case released =>
    intro r' hr' l hl hk
    obtain ⟨l', hl', rfl⟩ := mem_heartbeatTurn.mp hl
    simp only [renewed_claimKey, renewed_leaseSeq] at hk ⊢
    exact h.released r' hr' l' hl' hk

theorem LeaseInv.release {s : St} (h : LeaseInv s) (r : TurnReceipt) :
    LeaseInv { s with db := releaseTurn r s.db, released := s.released ++ [r] } := by
  have hmem {l : ClaimLease} (hl : l ∈ (releaseTurn r s.db).claimLeases) := mem_releaseTurn.mp hl
  refine ⟨h.now_le, fun tx htx k hk l hl => h.free tx htx k hk l (hmem hl).1,
    fun l hl => h.owner l (hmem hl).1, fun r' hr' l hl hk => ?_⟩
  obtain hr' | hr' := List.mem_append.mp hr'
  · exact h.released r' hr' l (hmem hl).1 hk
  · rw [List.mem_singleton.mp hr'] at hk ⊢
    exact (hmem hl).2 hk

theorem LeaseInv.step {s t : St} {a : Act} (h : LeaseInv s) (hseq : SeqInv s)
    (hst : Stepped colleagues timing s a t) : LeaseInv t := by
  have hself : ∀ tx ∈ s.inflight, (∃ tx' ∈ s.inflight, tx'.now = tx.now ∧
      (tx.pc.takes = none ∨ tx.pc.takes = tx'.pc.takes)) ∨ tx.now ≤ s.clock ∧ tx.pc.takes = none :=
    fun tx htx => .inl ⟨tx, htx, rfl, .inr rfl⟩
  have hclose (w : WorkerId) : ∀ tx ∈ (s.close w).inflight, (∃ tx' ∈ s.inflight, tx'.now = tx.now ∧
      (tx.pc.takes = none ∨ tx.pc.takes = tx'.pc.takes)) ∨ tx.now ≤ s.clock ∧ tx.pc.takes = none :=
    fun tx htx => hself tx (St.mem_close.mp htx).1
  have hadvance {tx : ClaimTx} {pc : ClaimPc} (htx : tx ∈ s.inflight)
      (hpc : pc.takes = none ∨ pc.takes = tx.pc.takes) : LeaseInv (s.advance tx pc) := by
    refine h.of_same rfl rfl rfl (Nat.le_refl _) fun tx' htx' => ?_
    obtain rfl | ⟨htx', -⟩ := St.mem_advance.mp htx'
    · exact .inl ⟨tx, htx, rfl, hpc⟩
    · exact hself tx' htx'
  cases hst with
  | tick d =>
    exact h.of_same rfl rfl rfl (Nat.le_add_right _ _) fun tx htx => .inl ⟨tx, htx, rfl, .inr rfl⟩
  | enqueue he => exact h.of_same (enqueueTrigger_ok he).1 rfl rfl (Nat.le_refl _) hself
  | enqueueRejected | cancelRejected => exact h
  | cancel _ he => exact h.of_same (requestCancellation_ok he).1 rfl rfl (Nat.le_refl _) hself
  | begin live idle =>
    refine h.of_same rfl rfl rfl (Nat.le_refl _) fun tx htx => ?_
    obtain rfl | ⟨htx, -⟩ := Table.mem_put.mp htx
    · exact .inr ⟨Nat.le_refl _, rfl⟩
    · exact hself tx htx
  | select htx | bump htx | refuse htx => exact hadvance (St.open?_mem htx).1 (.inl rfl)
  | drain htx hpc => exact hadvance (St.open?_mem htx).1 (.inr (by rw [hpc]; rfl))
  | selectClosed | abort | stop => exact h.of_same rfl rfl rfl (Nat.le_refl _) (hclose _)
  | lease htx hpc free => exact h.lease (St.open?_mem htx).1 free
  | commitRefused => exact h.of_same rfl rfl rfl (Nat.le_refl _) (hclose _)
  | commitEmpty htx hpc =>
    obtain ⟨hmem, rfl⟩ := St.open?_mem htx
    exact h.commit hseq hmem (congrArg ClaimPc.ticket hpc) rfl rfl rfl (fun cl hcl => .inl hcl)
      fun l hl => (mem_commitLease.mp hl).imp_left takenLease_fields
  | commitClaim htx hpc =>
    obtain ⟨hmem, rfl⟩ := St.open?_mem htx
    refine h.commit hseq hmem (congrArg ClaimPc.ticket hpc) rfl rfl rfl (fun cl hcl => ?_)
      fun l hl => (mem_commitLease.mp hl).imp_left takenLease_fields
    obtain hcl | hcl := List.mem_append.mp hcl
    · exact .inl hcl
    · rw [List.mem_singleton.mp hcl]
      exact .inr ⟨rfl, rfl⟩
  | heartbeat _ free => exact h.heartbeat _ free
  | markTurnDone | markTurnFailed => exact h.of_same rfl rfl rfl (Nat.le_refl _) hself
  | release => exact h.release _

structure Inv (colleagues : Table Colleague) (s : St) : Prop where
  seq : SeqInv s
  batch : BatchInv colleagues s
  lease : LeaseInv s

theorem Inv.init : Inv colleagues .init := by
  refine ⟨⟨?_, ?_, ?_, .nil, ?_, ?_⟩, ⟨?_, ?_, ?_, ?_, ?_⟩, ⟨?_, ?_, ?_, ?_⟩⟩ <;> simp [St.init]

theorem Inv.step {s t : St} {a : Act} (h : Inv colleagues s)
    (hst : step colleagues timing s a = some t) : Inv colleagues t :=
  have hst := step_stepped hst
  ⟨h.seq.step hst, h.batch.step h.seq hst, h.lease.step h.seq hst⟩

theorem reachable_inv {s : St} (h : Reachable (step colleagues timing) .init s) : Inv colleagues s :=
  h.inv (fun _ _ _ hi => hi.step) .init

end Patom.Runtime
