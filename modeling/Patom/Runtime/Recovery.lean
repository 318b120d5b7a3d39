import Patom.Runtime.ClaimsInvariant

open Patom.Foundation

namespace Patom.Runtime

variable {colleagues : Table Colleague} {timing : LeaseTiming}

def LiveLease (s : St) (r : PromptRequest) : Prop :=
  ∃ l ∈ s.db.claimLeases, l.claimKey = r.claimKey ∧ l.leaseSeq = r.turnSeq ∧ s.clock < l.leasedUntil

/-- Some later claim commits and writes the trigger: it is drained again, or failed. -/
def Recovers (colleagues : Table Colleague) (timing : LeaseTiming) (s : St) (id : PromptRequestId) :
    Prop :=
  ∃ as s' w s'' r, run (step colleagues timing) s as = some s' ∧
    step colleagues timing s' (.claimCommit w) = some s'' ∧
    s''.db.promptRequests.find? id = some r ∧ s'.db.promptRequests.find? id ≠ some r ∧
    (r.status = .processing ∨ r.status = .failed)

def Recoverable (colleagues : Table Colleague) (timing : LeaseTiming) (s : St) : Prop :=
  ∀ r ∈ s.db.promptRequests, r.status = .processing → ¬LiveLease s r → Recovers colleagues timing s r.id

def NoOrphan (s : St) : Prop :=
  ∀ r ∈ s.db.promptRequests, r.status = .processing → LiveLease s r

def InUse (s : St) (k : ClaimKey) (seq : TurnSeq) : Prop :=
  ∃ r ∈ s.db.promptRequests, r.status = .processing ∧ r.claimKey = k ∧ r.turnSeq = seq

/-- No claimed batch outlives its lease: the lease neither runs out nor is released while a row of
the batch is in processing. -/
def KeepsLease (timing : LeaseTiming) (s : St) : Act → Prop
  | .tick d => ∀ l ∈ s.db.claimLeases, l.leasedUntil ≤ s.clock + d → ¬InUse s l.claimKey l.leaseSeq
  | .claimCommit w => ∀ tx c seq d rest, s.open? w = some tx → tx.pc = .drained c seq (d :: rest) →
      s.clock < tx.now + timing.ttl
  | .heartbeat _ r now => InUse s r.claimKey r.leaseSeq → s.clock < now + timing.ttl
  | .release _ r => ¬InUse s r.claimKey r.leaseSeq
  | _ => True

def Settled (s : St) (id : PromptRequestId) : Prop :=
  ∃ r ∈ s.db.promptRequests, r.id = id ∧ r.status ≠ .pending

theorem claimCommit_settled {s t : St} (h : Inv colleagues s) {w : WorkerId}
    (hst : Stepped colleagues timing s (.claimCommit w) t) {r : PromptRequest}
    (hr : r ∈ s.db.promptRequests) (hp : r.status ≠ .pending) : r ∈ t.db.promptRequests := by
  cases hst with
  | commitRefused | commitEmpty => exact hr
  | commitClaim htx hpc =>
    obtain ⟨hmem, rfl⟩ := St.open?_mem htx
    exact mem_commitDrain.mpr ⟨r, hr, h.batch.markDrained_other hmem hpc hr (.inr hp)⟩

theorem settled_step {s t : St} {a : Act} {id : PromptRequestId} (h : Settled s id)
    (hinv : Inv colleagues s) (hstep : step colleagues timing s a = some t) : Settled t id := by
  obtain ⟨r, hr, hid, hp⟩ := h
  have hst := step_stepped hstep
  by_cases ha : ∃ w, a = .claimCommit w
  · obtain ⟨w, rfl⟩ := ha
    exact ⟨r, claimCommit_settled hinv hst hr hp, hid, hp⟩
  · obtain ⟨r', hr', kept⟩ := rows_kept hst (fun w e => ha ⟨w, e⟩) r hr
    exact ⟨r', hr', kept.id.trans hid, fun e => hp (kept.pending.mp e)⟩

theorem settled_run {s t : St} {as : List Act} {id : PromptRequestId} (h : Settled s id)
    (hinv : Inv colleagues s) (hrun : run (step colleagues timing) s as = some t) :
    Inv colleagues t ∧ Settled t id := by
  induction as generalizing s with
  | nil =>
    cases hrun
    exact ⟨hinv, h⟩
  | cons a as ih =>
    obtain ⟨u, hu, hrest⟩ := Option.bind_eq_some_iff.mp hrun
    exact ih (settled_step h hinv hu) (hinv.step hu) hrest

theorem settled_not_recovers {s : St} {id : PromptRequestId} (h : Settled s id)
    (hinv : Inv colleagues s) : ¬Recovers colleagues timing s id := by
  rintro ⟨as, s', w, s'', r', hrun, hstep, hr', hne, -⟩
  obtain ⟨hinv', r, hr, hid, hp⟩ := settled_run h hinv hrun
  have hafter := Table.find?_eq_some.mpr ⟨claimCommit_settled hinv' (step_stepped hstep) hr hp, hid⟩
  have hbefore := Table.find?_eq_some.mpr ⟨hr, hid⟩
  exact hne (hbefore.trans (hafter.symm.trans hr'))

theorem recoverable_iff {s : St} (h : Inv colleagues s) :
    Recoverable colleagues timing s ↔ NoOrphan s := by
  constructor
  · intro hrec r hr hp
    by_contra hlive
    exact settled_not_recovers ⟨r, hr, rfl, by rw [hp]; nofun⟩ h (hrec r hr hp hlive)
  · intro hno r hr hp hlive
    exact absurd (hno r hr hp) hlive

theorem LiveLease.of_lease {s t : St} {r : PromptRequest} (h : LiveLease s r)
    (hclock : t.clock = s.clock) (hleases : ∀ l ∈ s.db.claimLeases, l.claimKey = r.claimKey →
      l.leaseSeq = r.turnSeq → s.clock < l.leasedUntil → l ∈ t.db.claimLeases) : LiveLease t r := by
  obtain ⟨l, hl, hk, hs, hlt⟩ := h
  exact ⟨l, hleases l hl hk hs hlt, hk, hs, hclock ▸ hlt⟩

theorem NoOrphan.of_rows {s t : St} (h : NoOrphan s) (hclock : t.clock = s.clock)
    (hleases : t.db.claimLeases = s.db.claimLeases)
    (hrows : ∀ r ∈ t.db.promptRequests, r.status = .processing → ∃ r' ∈ s.db.promptRequests,
      r'.status = .processing ∧ r'.claimKey = r.claimKey ∧ r'.turnSeq = r.turnSeq) : NoOrphan t := by
  intro r hr hp
  obtain ⟨r', hr', hp', hk, hs⟩ := hrows r hr hp
  obtain ⟨l, hl, hlk, hls, hlt⟩ := h r' hr' hp'
  exact ⟨l, hleases ▸ hl, hlk.trans hk, hls.trans hs, hclock ▸ hlt⟩

theorem noOrphan_tick {s : St} (h : NoOrphan s) (d : Duration) :
    NoOrphan { s with clock := s.clock + d } ↔ KeepsLease timing s (.tick d) := by
  constructor
  · rintro hno l hl hle ⟨r, hr, hp, hk, hs⟩
    obtain ⟨l', hl', hk', hs', hlt⟩ := hno r hr hp
    obtain rfl := Table.eq_of_key_eq hl' hl (hk'.trans hk)
    exact absurd hle (Nat.not_le_of_lt hlt)
  · intro hkeep r hr hp
    obtain ⟨l, hl, hk, hs, -⟩ := h r hr hp
    refine ⟨l, hl, hk, hs, Nat.lt_of_not_le fun hle => hkeep l hl hle ⟨r, hr, hp, hk.symm, hs.symm⟩⟩

theorem noOrphan_release {s : St} (h : NoOrphan s) (w : WorkerId) (r : TurnReceipt) :
    NoOrphan { s with db := releaseTurn r s.db, released := s.released ++ [r] } ↔
      KeepsLease timing s (.release w r) := by
  constructor
  · rintro hno ⟨row, hrow, hp, hk, hs⟩
    obtain ⟨l, hl, hlk, hls, -⟩ := hno row hrow hp
    exact (mem_releaseTurn.mp hl).2 (hlk.trans hk) (hls.trans hs)
  · intro hkeep row hrow hp
    refine (h row hrow hp).of_lease rfl fun l hl hk hs _ => mem_releaseTurn.mpr ⟨hl, fun hk' hs' => ?_⟩
    exact hkeep ⟨row, hrow, hp, hk.symm.trans hk', hs.symm.trans hs'⟩

theorem noOrphan_heartbeat {s : St} (h : NoOrphan s) (w : WorkerId) (r : TurnReceipt) (now : Time) :
    NoOrphan { s with db := heartbeatTurn r (now + timing.ttl) s.db } ↔
      KeepsLease timing s (.heartbeat w r now) := by
  constructor
  · rintro hno ⟨row, hrow, hp, hk, hs⟩
    obtain ⟨l, hl, hlk, hls, hlt⟩ := hno row hrow hp
    obtain ⟨l', -, rfl⟩ := mem_heartbeatTurn.mp hl
    rw [renewed_claimKey] at hlk
    rw [renewed_leaseSeq] at hls
    rwa [renewed, if_pos ⟨hlk.trans hk, hls.trans hs⟩] at hlt
  · intro hkeep row hrow hp
    obtain ⟨l, hl, hk, hs, hlt⟩ := h row hrow hp
    refine ⟨_, mem_heartbeatTurn.mpr ⟨l, hl, rfl⟩, by simpa using hk, by simpa using hs, ?_⟩
    unfold renewed
    split
    case isTrue hm => exact hkeep ⟨row, hrow, hp, hk.symm.trans hm.1, hs.symm.trans hm.2⟩
    case isFalse => exact hlt

theorem NoOrphan.lease_taken {s : St} (h : NoOrphan s) (hinv : Inv colleagues s) {tx : ClaimTx}
    (htx : tx ∈ s.inflight) {k : ClaimKey} (ht : tx.pc.takes = some k) {r : PromptRequest}
    (hr : r ∈ s.db.promptRequests) (hp : r.status = .processing) : r.claimKey ≠ k := by
  rintro rfl
  obtain ⟨l, hl, hk, -, hlt⟩ := h r hr hp
  have hle := hinv.lease.free tx htx _ ht l hl hk
  have hnow := hinv.lease.now_le tx htx
  lia

theorem noOrphan_claimCommit {s t : St} (h : NoOrphan s) (hinv : Inv colleagues s) {w : WorkerId}
    (hst : Stepped colleagues timing s (.claimCommit w) t) :
    NoOrphan t ↔ KeepsLease timing s (.claimCommit w) := by
  have hkept {tx : ClaimTx} {c : Candidate} {seq : TurnSeq} (htx : tx ∈ s.inflight)
      (ht : tx.pc.takes = some c.claimKey) {r : PromptRequest} (hr : r ∈ s.db.promptRequests)
      (hp : r.status = .processing) : ∃ l ∈ (commitLease timing tx c seq (commitSeq c s.db)).claimLeases,
        l.claimKey = r.claimKey ∧ l.leaseSeq = r.turnSeq ∧ s.clock < l.leasedUntil := by
    obtain ⟨l, hl, hk, rest⟩ := h r hr hp
    exact ⟨l, mem_commitLease.mpr (.inr ⟨hl, hk ▸ h.lease_taken hinv htx ht hr hp⟩), hk, rest⟩
  cases hst with
  | commitRefused htx hpc =>
    refine iff_of_true h fun tx' c' seq' d rest htx' hpc' => ?_
    cases htx.symm.trans htx'
    cases hpc.symm.trans hpc'
  | commitEmpty htx hpc =>
    refine iff_of_true (fun r hr hp => hkept (St.open?_mem htx).1 (congrArg ClaimPc.takes hpc) hr hp)
      fun tx' c' seq' d rest htx' hpc' => ?_
    cases htx.symm.trans htx'
    cases hpc.symm.trans hpc'
  | @commitClaim w tx c seq d rest htx hpc =>
    obtain ⟨hmem, rfl⟩ := St.open?_mem htx
    constructor
    · rintro hno tx' c' seq' d' rest' htx' hpc'
      cases htx.symm.trans htx'
      cases hpc.symm.trans hpc'
      obtain ⟨r, hr, hid, hk, hp⟩ := hinv.batch.waiting tx hmem c seq _ hpc d List.mem_cons_self
      have hdrained : markDrained (Claim.mk tx.worker c seq d rest).triggerIds seq tx.now r =
          { r with status := .processing, turnSeq := seq, attempts := r.attempts + 1,
                   updatedAt := tx.now } := if_pos (hid ▸ List.mem_cons_self)
      obtain ⟨l, hl, hlk, -, hlt⟩ := hno _ (mem_commitDrain.mpr ⟨r, hr, hdrained⟩) rfl
      obtain rfl | ⟨-, hne⟩ := mem_commitLease.mp hl
      · rwa [takenLease_leasedUntil] at hlt
      · exact absurd (hlk.trans hk) hne
    · intro hkeep r hr hp
      obtain ⟨r₀, hr₀, rfl⟩ := mem_commitDrain.mp hr
      by_cases hid : r₀.id ∈ (Claim.mk tx.worker c seq d rest).triggerIds
      · obtain ⟨x, hx, e⟩ := List.mem_map.mp hid
        obtain ⟨r', hr', hid', hk, -⟩ := hinv.batch.waiting tx hmem c seq _ hpc x hx
        obtain rfl := Table.eq_of_key_eq hr' hr₀ (hid'.trans e)
        rw [markDrained, if_pos hid]
        obtain ⟨htk, hts, -⟩ := takenLease_fields (Eq.refl (takenLease (commitSeq c s.db) c.claimKey
          c.orgId tx.worker seq (tx.now + timing.ttl)))
        refine ⟨_, mem_commitLease.mpr (.inl rfl), htk.trans hk.symm, hts, ?_⟩
        rw [takenLease_leasedUntil]
        exact hkeep tx c seq d rest htx hpc
      · rw [markDrained, if_neg hid] at hp ⊢
        exact hkept hmem (congrArg ClaimPc.takes hpc) hr₀ hp

theorem finaliseTurn_processing {rc : TurnReceipt} {status : RequestStatus} (h : status.isTerminal)
    {reason : Option FailureReason} {now : Time} {db : Db} {r : PromptRequest}
    (hr : r ∈ (finaliseTurn rc status reason now db).promptRequests) (hp : r.status = .processing) :
    r ∈ db.promptRequests := by
  obtain ⟨r', hr', rfl⟩ := mem_finaliseTurn.mp hr
  by_cases hm : r'.id ∈ rc.triggerIds ∧ r'.turnSeq = rc.leaseSeq ∧ r'.status = .processing
  · rw [markFinalised, if_pos hm] at hp
    cases hp
    cases h
  · rwa [markFinalised, if_neg hm]

theorem keepsLease_exact {s t : St} {a : Act} (hinv : Inv colleagues s) (h : NoOrphan s)
    (hstep : step colleagues timing s a = some t) : NoOrphan t ↔ KeepsLease timing s a := by
  have hst := step_stepped hstep
  have hsame {u : St} (hclock : u.clock = s.clock) (hleases : u.db.claimLeases = s.db.claimLeases)
      (hrows : ∀ r ∈ u.db.promptRequests, r.status = .processing → r ∈ s.db.promptRequests) :
      NoOrphan u :=
    h.of_rows hclock hleases fun r hr hp => ⟨r, hrows r hr hp, hp, rfl, rfl⟩
  have hid : ∀ r ∈ s.db.promptRequests, r.status = .processing → r ∈ s.db.promptRequests :=
    fun _ hr _ => hr
  cases hst with
  | tick d => exact noOrphan_tick h d
  | enqueue he =>
    obtain ⟨hl, -, hrows | ⟨row, hp, -, hins⟩⟩ := enqueueTrigger_ok he
    · exact iff_of_true (hsame rfl hl (by simpa only [hrows] using hid)) trivial
    · refine iff_of_true (hsame rfl hl fun r hr hr' => ?_) trivial
      obtain hr | rfl := (Table.mem_insert? hins).mp hr
      · exact hr
      · cases hp.symm.trans hr'
  | enqueueRejected | cancelRejected => exact iff_of_true h trivial
  | cancel _ he =>
    obtain ⟨hl, -, hrows⟩ := requestCancellation_ok he
    refine iff_of_true (h.of_rows rfl hl fun r hr hp => ?_) trivial
    obtain ⟨r', hr', rfl⟩ := (hrows r).mp hr
    obtain kept := kept_markCancelled _ _ r'
    refine ⟨r', hr', ?_, kept.claimKey.symm, kept.turnSeq.symm⟩
    unfold markCancelled at hp
    split at hp <;> exact hp
  | begin | select | selectClosed | bump | lease | refuse | drain | abort | stop =>
    exact iff_of_true (hsame rfl rfl hid) trivial
  | commitRefused htx hpc => exact noOrphan_claimCommit h hinv (.commitRefused htx hpc)
  | commitEmpty htx hpc => exact noOrphan_claimCommit h hinv (.commitEmpty htx hpc)
  | commitClaim htx hpc => exact noOrphan_claimCommit h hinv (.commitClaim htx hpc)
  | heartbeat => exact noOrphan_heartbeat h _ _ _
  | markTurnDone | markTurnFailed =>
    exact iff_of_true (hsame rfl rfl fun r hr hp => finaliseTurn_processing rfl hr hp) trivial
  | release => exact noOrphan_release h _ _

/-- Crash recovery holds throughout a run exactly when no claimed batch outlives its lease. -/
theorem recoverable_iff_keepsLease (as : List Act) :
    Always (step colleagues timing) (Recoverable colleagues timing) .init as ↔
      Steps (step colleagues timing) (KeepsLease timing) .init as := by
  refine always_iff_steps (Inv colleagues) (fun s a t hi _ hstep _ => hi.step hstep)
    (fun s a t hi hrec hstep => ?_) Inv.init ?_ as
  · rw [recoverable_iff (hi.step hstep)]
    exact keepsLease_exact hi ((recoverable_iff hi).mp hrec) hstep
  · exact (recoverable_iff Inv.init).mpr fun r hr => absurd hr (Table.not_mem_empty r)

/-- The worker stops right after its claim; once the lease has run out nothing reclaims the row. -/
theorem recoverable_stopped_worker : ∃ s, run (step Sample.colleagues .defaultConst) .init
      ([.enqueue 5 0 Sample.post] ++ Sample.claim 11 5 ++ [.stop 11, .tick (LEASE_TTL + 1)]) = some s ∧
    ¬Recoverable Sample.colleagues .defaultConst s := by
  have h : (run (step Sample.colleagues .defaultConst) .init
      ([.enqueue 5 0 Sample.post] ++ Sample.claim 11 5 ++ [.stop 11, .tick (LEASE_TTL + 1)])).any
      (fun s => s.db.promptRequests.rows.any fun r => r.status = .processing &&
        s.db.claimLeases.rows.all fun l => l.leasedUntil ≤ s.clock) = true := by decide
  obtain ⟨s, hs, hbad⟩ := (Option.any_eq_true _ _).mp h
  refine ⟨s, hs, fun hrec => ?_⟩
  obtain ⟨r, hr, hp⟩ := List.any_eq_true.mp hbad
  simp only [Bool.and_eq_true, decide_eq_true_eq, List.all_eq_true] at hp
  obtain ⟨l, hl, -, -, hlt⟩ := (recoverable_iff (reachable_inv (run_path hs))).mp hrec r hr hp.1
  exact absurd (hp.2 l hl) (Nat.not_le_of_lt hlt)

end Patom.Runtime
