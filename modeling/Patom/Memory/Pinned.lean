import Patom.Memory.RunsLaws

open Patom.Foundation

namespace Patom.Memory

def Op.byOperator : Op → Bool
  | .apply _ _ mutation => mutation.source = .operator
  | .recordValidation _ _ _ origin => origin.mutationSource = .operator
  | .setPinned .. | .revertEvent .. => true
  | .decayValidated .. | .matureTentative .. | .recordAccess _ | .recordContradiction ..
  | .resolveContradiction _ => false

def Act.byOperator : Act → Bool
  | .transact _ op => op.byOperator
  | .restore .. => true
  | .tick _ | .countOverflow .. | .selectOverflow _ | .evict .. | .readForgotten .. | .rollback _ =>
    false

section Guards

variable (sameOrg : AgentId → ColleagueId → Bool)

/-- A step that is not the operator's leaves pinned rows as they are. -/
def KeepsPinned (w : World) (a : Act) : Prop :=
  a.byOperator = false → ∀ t, memoryStep sameOrg w a = some t →
    ∀ m r, w.db.memories.find? m = some r → r.pinned = true →
      Preserved r (t.db.memories.find? m)

/-- No row has been pinned since an eviction selected it. -/
def EvictsUnpinned (w : World) (a : Act) : Prop :=
  ∀ b, a.batch sameOrg w = some b → b.deed = .evict → ∀ x ∈ b.entries, ∀ r,
    w.db.memories.find? x.1 = some r → r.pinned = false

end Guards

variable {sameOrg : AgentId → ColleagueId → Bool}

theorem Op.byOperator_iff {now : Time} {db : MemoryDb} {op : Op} {b : Batch}
    (h : op.plan now db = some b) : op.byOperator = true ↔ b.source = .operator := by
  cases op with
  | apply =>
    cases h
    exact decide_eq_true_iff
  | recordValidation =>
    cases h
    exact decide_eq_true_iff
  | setPinned =>
    cases h
    exact iff_of_true rfl rfl
  | revertEvent =>
    obtain ⟨e, -, rfl⟩ := Option.map_eq_some_iff.mp h
    exact iff_of_true rfl rfl
  | decayValidated =>
    cases h
    exact iff_of_false (by rintro ⟨⟩) (by rintro ⟨⟩)
  | matureTentative =>
    cases h
    exact iff_of_false (by rintro ⟨⟩) (by rintro ⟨⟩)
  | recordAccess => cases h
  | recordContradiction => cases h
  | resolveContradiction => cases h

theorem Act.byOperator_iff {w : World} {a : Act} {b : Batch} (h : a.batch sameOrg w = some b) :
    a.byOperator = true ↔ b.source = .operator := by
  cases a with
  | transact now op =>
    simp only [Act.batch] at h
    split at h
    · exact Op.byOperator_iff h
    · cases h
  | restore i inverse =>
    simp only [Act.batch] at h
    split at h
    · split at h
      · cases h
        exact iff_of_true rfl rfl
      · cases h
    · cases h
  | evict i eventIds =>
    simp only [Act.batch] at h
    split at h
    · split at h
      · cases h
        exact iff_of_false (by rintro ⟨⟩) (by rintro ⟨⟩)
      · cases h
    · cases h
  | tick => cases h
  | countOverflow => cases h
  | selectOverflow => cases h
  | readForgotten => cases h
  | rollback => cases h

theorem Quiet.preserved {db db' : MemoryDb} (h : Quiet db db') {m : MemoryId} {r : MemoryRow}
    (hr : db.memories.find? m = some r) : Preserved r (db'.memories.find? m) := by
  have hbody := h.rows m
  rw [hr, Option.map_some] at hbody
  obtain ⟨row, hrow, heq⟩ := Option.map_eq_some_iff.mp hbody
  simp only [MemoryRow.body, MemoryRow.mk.injEq] at heq
  obtain ⟨-, -, hkind, hcontent, hstate, hpinned, -⟩ := heq
  exact ⟨row, hrow, hcontent, hkind, hstate, hpinned⟩

theorem Outcome.preserved {e : MemoryEvent} {deed : Deed} {r : MemoryRow} {after : Option MemoryRow}
    (h : Outcome e deed (some r) after) (hpinned : r.pinned = true) (hsource : e.source ≠ .operator)
    (hdeed : deed ≠ .evict) : Preserved r after := by
  cases h with
  | update _ _ _ _ _ _ reaches => exact absurd (reaches.pin hpinned) hsource
  | validate _ _ reaches => exact absurd (reaches.pin hpinned) hsource
  | forget _ _ reaches => exact absurd (reaches.pin hpinned) hsource
  | evict => exact absurd rfl hdeed
  | restoreLive _ _ _ _ _ _ _ source => exact absurd source hsource

theorem Outcome.evicted {e : MemoryEvent} {before after : Option MemoryRow}
    (h : Outcome e .evict before after) : after = none ∧ e.source = .librarian := by
  cases h with
  | evict _ _ _ source => exact ⟨rfl, source⟩

theorem keepsPinned_step {w t : World} {a : Act} (hw : w.Valid)
    (h : memoryStep sameOrg w a = some t) :
    KeepsPinned sameOrg w a ↔ EvictsUnpinned sameOrg w a := by
  constructor
  · intro hkeeps b hb hdeed x hx r hr
    rcases memoryStep_cases hw h with ⟨hnone, -⟩ | ⟨b', es, hb', hchanges, hjournals⟩
    · rw [hnone] at hb
      cases hb
    · obtain rfl : b' = b := Option.some.inj (hb'.symm.trans hb)
      rw [← hjournals.entries] at hx
      obtain ⟨e, he, rfl⟩ := List.mem_map.mp hx
      have houtcome := hchanges.outcome hjournals.distinct he
      rw [hdeed] at houtcome
      obtain ⟨hgone, hlibrarian⟩ := houtcome.evicted
      have hother : a.byOperator = false := by
        rw [← Bool.not_eq_true, Act.byOperator_iff hb, ← (hjournals.stamped e he).2.2, hlibrarian]
        exact nofun
      by_contra hpinned
      obtain ⟨row, hrow, -⟩ := hkeeps hother t h e.targetMemoryId r hr (by simpa using hpinned)
      rw [hgone] at hrow
      cases hrow
  · intro hguard hother t' h' m r hr hpinned
    obtain rfl : t' = t := Option.some.inj (h'.symm.trans h)
    rcases memoryStep_cases hw h with ⟨-, hquiet⟩ | ⟨b, es, hb, hchanges, hjournals⟩
    · exact hquiet.preserved hr
    · rcases hchanges.at hjournals.distinct m with ⟨hsame, -⟩ | ⟨e, he, rfl, houtcome⟩
      · rw [hsame, hr]
        exact .refl r
      · rw [hr] at houtcome
        refine houtcome.preserved hpinned (fun hsource => ?_) fun hdeed => ?_
        · rw [(hjournals.stamped e he).2.2] at hsource
          rw [(Act.byOperator_iff hb).mpr hsource] at hother
          cases hother
        · have hentry : (e.targetMemoryId, e.id) ∈ b.entries := by
            rw [← hjournals.entries]
            exact List.mem_map.mpr ⟨e, he, rfl⟩
          rw [hguard b hb hdeed _ hentry r hr] at hpinned
          cases hpinned

/-- Pinned rows are safe from all but the operator in just the runs whose evictions delete no row
that was pinned after they had selected it. -/
theorem keepsPinned_iff (sameOrg : AgentId → ColleagueId → Bool) (as : List Act) :
    Steps (memoryStep sameOrg) (KeepsPinned sameOrg) .init as
      ↔ Steps (memoryStep sameOrg) (EvictsUnpinned sameOrg) .init as :=
  steps_iff_steps World.Valid (fun _ _ _ hw h => valid_step hw h)
    (fun _ _ _ hw h => keepsPinned_step hw h) valid_init as

def tea : MemoryContent := ⟨"likes tea", by decide, by decide⟩

def anyOrg : AgentId → ColleagueId → Bool := fun _ _ => true

def pinnedInFlight : List Act :=
  [.transact 0 (.apply 1 1 (.write 1 .identity tea .held false none .operator)),
    .countOverflow 0 1 0, .selectOverflow 0, .transact 0 (.setPinned 2 1 1 true)]

/-- The eviction then deletes the pinned row. -/
theorem pinned_evicted : ¬ ∀ (sameOrg : AgentId → ColleagueId → Bool) (as : List Act),
    Steps (memoryStep sameOrg) (KeepsPinned sameOrg) .init as := by
  intro h
  have hpinned : (run (memoryStep anyOrg) .init pinnedInFlight).bind
      (fun w => (w.db.memories.find? 1).map (·.pinned)) = some true := by
    decide +kernel
  obtain ⟨w, hw, hrow⟩ := Option.bind_eq_some_iff.mp hpinned
  obtain ⟨r, hr, hp⟩ := Option.map_eq_some_iff.mp hrow
  have hgone : ((run (memoryStep anyOrg) .init pinnedInFlight).bind fun w =>
      memoryStep anyOrg w (.evict 0 fun _ => 3)).map
      (fun t => (t.db.memories.find? 1).isSome) = some false := by
    decide +kernel
  rw [hw, Option.bind_some] at hgone
  obtain ⟨t, ht, hnone⟩ := Option.map_eq_some_iff.mp hgone
  obtain ⟨row, hrow, -⟩ := (h anyOrg (pinnedInFlight ++ [.evict 0 fun _ => 3])).last hw ht rfl t ht
    1 r hr hp
  rw [hrow] at hnone
  cases hnone

end Patom.Memory
