import Patom.Runtime.Ownership

open Patom.Foundation

namespace Patom.Runtime

variable (colleagues : Table Colleague) (timing : LeaseTiming)

/-- Where `claim_next_turn` returns an error: on a candidate without an acting user, on a batch that
makes no turn, or on a statement that fails. -/
def ClaimFails (s : St) : Act → Prop
  | .claimSelect _ (some id) => ∃ r ∈ s.db.promptRequests, r.id = id ∧ r.actingUserId = none
  | .claimCommit w => ∃ t e, claimCommit timing s w = some (t, .error e)
  | .claimAbort _ => True
  | _ => False

def FailsClean (s : St) (a : Act) : Prop :=
  ClaimFails timing s a → ∀ t, step colleagues timing s a = some t →
    t.db.promptRequests = s.db.promptRequests ∧ t.db.claimLeases = s.db.claimLeases

def SharesBatch (s : St) : Act → Prop
  | .claimCommit w => ∀ tx ∈ s.open? w, ∀ c seq first rest, tx.pc = .drained c seq (first :: rest) →
      ∀ d ∈ rest, d.agentId = first.agentId ∧ d.kind = first.kind
  | _ => True

variable {colleagues timing}

theorem checkShared_eq_ok {agent : AgentId} {kind : RequestKind} {rest : List DrainedTrigger} :
    checkShared agent kind rest = .ok () ↔ ∀ d ∈ rest, d.agentId = some agent ∧ d.kind = kind := by
  induction rest with
  | nil => simp [checkShared]
  | cons d rest ih =>
    unfold checkShared
    by_cases hagent : d.agentId = some agent
    · by_cases hkind : d.kind = kind
      · simp [hagent, hkind, ih]
      · simp [hagent, hkind]
    · simp [hagent]

theorem Claim.turn_eq_error {c : Claim} {agent : AgentId} (hagent : c.first.agentId = some agent) :
    (∃ e, c.turn = .error e) ↔
      ¬ ∀ d ∈ c.rest, d.agentId = c.first.agentId ∧ d.kind = c.first.kind := by
  rw [hagent, ← checkShared_eq_ok]
  unfold Claim.turn buildClaimedTurn
  rw [hagent]
  dsimp only
  cases checkShared agent c.first.kind c.rest <;> simp [Except.map]

structure AgentInv (colleagues : Table Colleague) (s : St) : Prop where
  rows : ∀ r ∈ s.db.promptRequests, ∀ c ∈ colleagues.find? r.receiverColleagueId,
    c.agentId.isSome
  batches : ∀ tx ∈ s.inflight, ∀ c seq batch, tx.pc = .drained c seq batch →
    ∀ d ∈ batch, d.agentId.isSome

theorem AgentInv.step {s t : St} {a : Act} (h : AgentInv colleagues s)
    (hst : Stepped colleagues timing s a t) : AgentInv colleagues t := by
  refine ⟨receivers_step (P := fun id => ∀ c ∈ colleagues.find? id, c.agentId.isSome)
    (fun _ _ _ hresolve => ?_) hst h.rows, ?_⟩
  · obtain ⟨c, hc, hagent⟩ := resolveAgentColleague_ok hresolve
    intro c' hc'
    rw [Option.some.inj (hc'.symm.trans hc), hagent]
    rfl
  · have hclose (w : WorkerId) : ∀ tx ∈ (s.close w).inflight, ∀ c seq batch,
        tx.pc = .drained c seq batch → ∀ d ∈ batch, d.agentId.isSome :=
      fun tx htx => h.batches tx (St.mem_close.mp htx).1
    have hput (tx : ClaimTx) (hpc : ∀ c seq batch, tx.pc ≠ .drained c seq batch) :
        ∀ tx' ∈ s.inflight.put tx, ∀ c seq batch, tx'.pc = .drained c seq batch →
          ∀ d ∈ batch, d.agentId.isSome := by
      intro tx' htx' c seq batch hdrained
      obtain rfl | ⟨htx', -⟩ := Table.mem_put.mp htx'
      · exact absurd hdrained (hpc c seq batch)
      · exact h.batches tx' htx' c seq batch hdrained
    cases hst with
    | begin | select | bump | lease | refuse => exact hput _ (by simp)
    | drain htx hpc perm =>
      intro tx' htx' c seq batch hdrained d hd
      obtain rfl | ⟨htx', -⟩ := St.mem_advance.mp htx'
      · cases hdrained
        obtain ⟨r, hr, -, -, rc, hrc, rfl⟩ := mem_drainTurnPending.mp (perm.mem_iff.mp hd)
        exact h.rows r hr rc hrc
      · exact h.batches tx' htx' c seq batch hdrained d hd
    | selectClosed | commitRefused | commitEmpty | commitClaim | abort | stop => exact hclose _
    | _ => exact h.batches

theorem claimSelect_db {s t : St} {w : WorkerId} {pick : Option PromptRequestId}
    (h : claimSelect s w pick = some t) : t.db = s.db := by
  have hst : Stepped .empty .defaultConst s (.claimSelect w pick) t := claimSelect_stepped h
  cases hst <;> rfl

theorem failsClean_commit {s t : St} {w : WorkerId} (hinv : Inv colleagues s)
    (hagents : AgentInv colleagues s) (h : step colleagues timing s (.claimCommit w) = some t) :
    FailsClean colleagues timing s (.claimCommit w) ↔ SharesBatch s (.claimCommit w) := by
  obtain ⟨⟨t', res⟩, hcommit, rfl⟩ := Option.map_eq_some_iff.mp h
  have hfails : FailsClean colleagues timing s (.claimCommit w) ↔ ((∃ e, res = .error e) →
      t'.db.promptRequests = s.db.promptRequests ∧ t'.db.claimLeases = s.db.claimLeases) := by
    constructor
    · rintro hclean ⟨e, rfl⟩
      exact hclean ⟨t', e, hcommit⟩ t' h
    · rintro hclean ⟨u, e, hu⟩ v hv
      cases hcommit.symm.trans hu
      cases h.symm.trans hv
      exact hclean ⟨e, rfl⟩
  rw [hfails]
  obtain ⟨tx, htx, hpc⟩ := Option.bind_eq_some_iff.mp hcommit
  have hshares : SharesBatch s (.claimCommit w) ↔ ∀ c seq first rest,
      tx.pc = .drained c seq (first :: rest) →
        ∀ d ∈ rest, d.agentId = first.agentId ∧ d.kind = first.kind := by
    refine ⟨fun hall => hall tx htx, fun hall tx' htx' => ?_⟩
    rwa [← Option.some.inj (htx.symm.trans htx')]
  rw [hshares]
  split at hpc
  case h_1 hrefused =>
    cases hpc
    exact iff_of_true (by rintro ⟨e, h⟩; cases h) fun _ _ _ _ e => by cases hrefused.symm.trans e
  case h_2 hempty =>
    cases hpc
    exact iff_of_true (by rintro ⟨e, h⟩; cases h) fun _ _ _ _ e => by cases hempty.symm.trans e
  case h_3 c seq first rest hdrained =>
    have hmem := (St.open?_mem htx).1
    obtain ⟨agent, hagent⟩ := Option.isSome_iff_exists.mp
      (hagents.batches tx hmem c seq _ hdrained first List.mem_cons_self)
    have hturn := Claim.turn_eq_error (c := ⟨w, c, seq, first, rest⟩) hagent
    have hchanges : (commitLease timing tx c seq (commitSeq c s.db)).claimLeases ≠
        s.db.claimLeases := commitLease_changes hinv hmem (congrArg ClaimPc.ticket hdrained)
    cases hpc
    constructor
    · intro hclean c' seq' first' rest' e
      cases hdrained.symm.trans e
      refine not_not.mp fun hmixed => ?_
      obtain ⟨e, he⟩ := hturn.mpr hmixed
      exact hchanges (hclean ⟨e, by rw [he]; rfl⟩).2
    · rintro hall ⟨e, he⟩
      refine absurd (hall c seq first rest hdrained) (hturn.mp ?_)
      cases hc : Claim.turn ⟨w, c, seq, first, rest⟩ with
      | error e => exact ⟨e, rfl⟩
      | ok turn => simp [hc, Except.map] at he
  case h_4 => cases hpc

theorem failsClean_iff {s t : St} {a : Act} (hinv : Inv colleagues s)
    (hagents : AgentInv colleagues s) (h : step colleagues timing s a = some t) :
    FailsClean colleagues timing s a ↔ SharesBatch s a := by
  cases a with
  | claimCommit w => exact failsClean_commit hinv hagents h
  | claimSelect w pick =>
    refine iff_of_true (fun _ u hu => ?_) trivial
    rw [claimSelect_db hu]
    exact ⟨rfl, rfl⟩
  | claimAbort w =>
    refine iff_of_true (fun _ u hu => ?_) trivial
    obtain ⟨tx, -, rfl⟩ := Option.map_eq_some_iff.mp hu
    exact ⟨rfl, rfl⟩
  | _ => exact iff_of_true (fun hfails => hfails.elim) trivial

variable (colleagues timing)

/-- The claims of a schedule fail cleanly exactly when each drains a batch of one receiver and one
kind. -/
theorem failsClean_iff_sharesBatch (as : List Act) :
    Steps (step colleagues timing) (FailsClean colleagues timing) .init as ↔
      Steps (step colleagues timing) SharesBatch .init as :=
  steps_iff_steps (fun s => Inv colleagues s ∧ AgentInv colleagues s)
    (fun _ _ _ h e => ⟨h.1.step e, h.2.step (step_stepped e)⟩)
    (fun _ _ _ h e => failsClean_iff h.1 h.2 e)
    ⟨.init, fun r hr => absurd hr (Table.not_mem_empty r),
      fun tx htx => absurd htx (Table.not_mem_empty tx)⟩ as

namespace Sample

def reflection : NewTrigger :=
  { trigger ⟨"reflection", by decide, by decide⟩ with kindPayload := .reflection 4 8 }

def mixed : List DrainedTrigger :=
  [drained 5, ⟨6, .reflection, some 4, 1, some 7, .reflection 4 8, 6⟩]

def mixedClaim : List Act :=
  [.enqueue 5 0 post, .enqueue 6 0 reflection, .claimBegin 11, .claimSelect 11 (some 5),
    .claimBump 11, .claimLease 11, .claimDrain 11 mixed]

end Sample

theorem claim_fails_drained : ¬ ∀ (colleagues : Table Colleague) (timing : LeaseTiming)
    (as : List Act), Steps (step colleagues timing) (FailsClean colleagues timing) .init as := by
  intro h
  have hrun : ∃ s ∈ run (step Sample.colleagues .defaultConst) .init Sample.mixedClaim,
      ∃ res ∈ claimCommit .defaultConst s 11, res.2.toOption = none ∧
        res.1.db.promptRequests.rows.map (·.status) ≠ s.db.promptRequests.rows.map (·.status) := by
    decide +kernel
  obtain ⟨s, hs, ⟨t, res⟩, hcommit, herror, hchanged⟩ := hrun
  have hstep : step Sample.colleagues .defaultConst s (.claimCommit 11) = some t := by
    rw [step, show claimCommit .defaultConst s 11 = some (t, res) from hcommit]
    rfl
  have hclean := (h Sample.colleagues .defaultConst (Sample.mixedClaim ++ [.claimCommit 11])).last
    hs hstep
  cases res with
  | ok turn => cases herror
  | error e => exact hchanged (by rw [(hclean ⟨t, e, hcommit⟩ t hstep).1])

end Patom.Runtime
