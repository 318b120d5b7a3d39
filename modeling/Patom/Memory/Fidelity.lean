import Patom.Memory.Replay

open Patom.Foundation

namespace Patom.Memory

/-- What is journaled comes after all there is of its memory; a validation leaves the time of the
last one, and only a memory that is gone is written back. -/
structure Orderly (sameOrg : AgentId → ColleagueId → Bool) (w : World) (a : Act) : Prop where
  later : ∀ b, a.batch sameOrg w = some b → ∀ x ∈ b.entries, ∀ e ∈ w.db.journal,
    e.targetMemoryId = x.1 → e.stamp < toLex (b.now, x.2.toNat)
  validates : ∀ b, a.batch sameOrg w = some b → b.deed = .validate → ∀ x ∈ b.entries, ∀ r,
    w.db.memories.find? x.1 = some r → r.lastValidatedAt = b.now
  restores : ∀ b, a.batch sameOrg w = some b → b.deed = .restore → ∀ x ∈ b.entries,
    w.db.memories.find? x.1 = none

instance (sameOrg : AgentId → ColleagueId → Bool) (w : World) (a : Act) :
    Decidable (Orderly sameOrg w a) :=
  decidable_of_iff (∀ b ∈ a.batch sameOrg w, b.entries.all fun x =>
      (∀ e ∈ w.db.journal, e.targetMemoryId = x.1 → e.stamp < toLex (b.now, x.2.toNat))
        ∧ (b.deed = .validate → ∀ r ∈ w.db.memories.find? x.1, r.lastValidatedAt = b.now)
        ∧ (b.deed = .restore → w.db.memories.find? x.1 = none)) <| by
    simp only [List.all_eq_true, decide_eq_true_eq]
    exact ⟨fun h => ⟨fun b hb x hx => (h b hb x hx).1, fun b hb hd x hx => (h b hb x hx).2.1 hd,
        fun b hb hd x hx => (h b hb x hx).2.2 hd⟩,
      fun h b hb x hx => ⟨h.later b hb x hx, fun hd => h.validates b hb hd x hx,
        fun hd => h.restores b hb hd x hx⟩⟩

theorem Outcome.relived {e : MemoryEvent} {deed : Deed} {before after r : Option MemoryRow}
    (h : Outcome e deed before after)
    (hr : r.map MemoryRow.remembered = before.map MemoryRow.remembered)
    (validates : deed = .validate → ∀ row, before = some row → row.lastValidatedAt = e.createdAt)
    (restores : deed = .restore → before = none) :
    ∃ r', relive e r = .ok r'
      ∧ r'.map MemoryRow.remembered = after.map MemoryRow.remembered := by
  have hnone : before = none → r = none := by
    rintro rfl
    exact Option.map_eq_none_iff.mp hr
  have hsome : ∀ row, before = some row → ∃ row', r = some row'
      ∧ row'.remembered = row.remembered := by
    rintro row rfl
    exact Option.map_eq_some_iff.mp hr
  cases h with
  | write content kind state pinned subject payload =>
    exact ⟨_, hnone rfl ▸ relive_minted payload, rfl⟩
  | update row after kind state pinned payload =>
    obtain ⟨row', rfl, hrow⟩ := hsome row rfl
    refine ⟨_, by rw [relive, reliveAs, payload], ?_⟩
    simp only [MemoryRow.remembered, Remembered.mk.injEq] at hrow
    simp [MemoryRow.remembered, MemoryRow.set, hrow]
  | validate row payload =>
    obtain ⟨row', rfl, hrow⟩ := hsome row rfl
    refine ⟨_, by rw [relive, reliveAs, payload], ?_⟩
    have hlast := validates rfl row rfl
    simp only [MemoryRow.remembered, Remembered.mk.injEq] at hrow
    simp [MemoryRow.remembered, MemoryRow.set, hrow, hlast]
  | forget row payload =>
    obtain ⟨row', rfl, -⟩ := hsome row rfl
    exact ⟨none, by rw [relive, reliveAs, payload], rfl⟩
  | evict row before payload => exact ⟨none, by cases r <;> rw [relive, reliveAs, payload], rfl⟩
  | restore content kind state pinned subject payload =>
    exact ⟨_, hnone rfl ▸ relive_minted payload, rfl⟩
  | restoreLive => cases restores rfl

variable {sameOrg : AgentId → ColleagueId → Bool}

theorem life_of_new {w t : World} {b : Batch} {es : List MemoryEvent}
    (hchanges : Changes b.deed es w.db t.db) (hjournals : b.Journals es w.db) {e : MemoryEvent}
    (he : e ∈ es)
    (hlater : ∀ e' ∈ w.db.journal, e'.targetMemoryId = e.targetMemoryId → e'.stamp < e.stamp) :
    t.db.life e.targetMemoryId = w.db.life e.targetMemoryId ++ [e] := by
  have hone : es.filter (·.targetMemoryId = e.targetMemoryId) = [e] := by
    have hdistinct := hjournals.distinct
    clear hchanges hjournals
    induction es with
    | nil => cases he
    | cons e₀ es ih =>
      obtain ⟨hnew, hdistinct⟩ := List.nodup_cons.mp hdistinct
      rcases List.mem_cons.mp he with rfl | he
      · rw [List.filter_cons_of_pos (by simp), List.filter_eq_nil_iff.mpr]
        intro e' he' heq
        exact hnew (List.mem_map.mpr ⟨e', he', by simpa using heq⟩)
      · rw [List.filter_cons_of_neg, ih he hdistinct]
        intro heq
        exact hnew (List.mem_map.mpr ⟨e, he, (by simpa using heq : e₀.targetMemoryId = _).symm⟩)
  rw [MemoryDb.life, hchanges.rows, List.filter_append, hone]
  refine inOrder_append_singleton MemoryEvent.stamp fun e' he' => ?_
  obtain ⟨he', htarget⟩ := List.mem_filter.mp he'
  exact le_of_lt (hlater e' he' (by simpa using htarget))

theorem life_of_old {w t : World} {deed : Deed} {es : List MemoryEvent}
    (hchanges : Changes deed es w.db t.db) {m : MemoryId}
    (hes : ∀ e ∈ es, e.targetMemoryId ≠ m) : t.db.life m = w.db.life m := by
  have hnone : es.filter (·.targetMemoryId = m) = [] :=
    List.filter_eq_nil_iff.mpr fun e he heq => hes e he (by simpa using heq)
  rw [MemoryDb.life, hchanges.rows, List.filter_append, hnone, List.append_nil]
  rfl

theorem faithful_step {w t : World} {a : Act} (hw : w.Valid) (hfaithful : w.db.Faithful)
    (h : memoryStep sameOrg w a = some t) (hguard : Orderly sameOrg w a) : t.db.Faithful := by
  rw [faithful_iff (valid_step hw h)]
  rw [faithful_iff hw] at hfaithful
  rcases memoryStep_cases hw h with ⟨-, hquiet⟩ | ⟨b, es, hb, hchanges, hjournals⟩
  · intro m
    obtain ⟨r, hr, hrows⟩ := hfaithful m
    refine ⟨r, ?_, hrows.trans ?_⟩
    · rw [MemoryDb.life, hquiet.journal]
      exact hr
    · have hbody := congrArg (Option.map MemoryRow.remembered) (hquiet.rows m)
      rw [Option.map_map, Option.map_map] at hbody
      exact hbody.symm
  · intro m
    obtain ⟨r, hr, hrows⟩ := hfaithful m
    rcases hchanges.at hjournals.distinct m with ⟨hsame, hnone⟩ | ⟨e, he, rfl, houtcome⟩
    · refine ⟨r, by rw [life_of_old hchanges hnone, hr], ?_⟩
      rw [hrows, MemoryDb.row, MemoryDb.row, hsame]
    · obtain ⟨hentry, hstamp⟩ := hjournals.stamp he
      have hnow := (hjournals.stamped e he).1
      have hlater : ∀ e' ∈ w.db.journal, e'.targetMemoryId = e.targetMemoryId →
          e'.stamp < e.stamp := by
        intro e' he' htarget
        rw [hstamp]
        exact hguard.later b hb _ hentry e' he' htarget
      obtain ⟨r', hr', hrows'⟩ := houtcome.relived hrows
        (fun hdeed row hrow => hnow ▸ hguard.validates b hb hdeed _ hentry row hrow)
        (fun hdeed => hguard.restores b hb hdeed _ hentry)
      refine ⟨r', ?_, hrows'⟩
      rw [life_of_new hchanges hjournals he hlater, replay_append, hr]
      refine (replay_cons e [] r).trans ?_
      rw [hr']
      rfl

theorem faithful_init : World.init.db.Faithful := fun _ => ⟨_, rfl, fun _ => rfl⟩

/-- In a run that journals each memory's events in order, a rebuild changes nothing. -/
theorem faithful_of_orderly (sameOrg : AgentId → ColleagueId → Bool) (as : List Act)
    (h : Steps (memoryStep sameOrg) (Orderly sameOrg) .init as) :
    Always (memoryStep sameOrg) (·.db.Faithful) .init as :=
  h.always World.Valid (fun _ _ _ hw _ h _ => valid_step hw h)
    (fun _ _ _ hw hfaithful h g => faithful_step hw hfaithful h g) valid_init faithful_init

def fact : MemoryContent := ⟨"a fact", by decide, by decide⟩

def restored : List Act :=
  [.transact 0 (.apply 1 1 (.write 1 .other fact .held false none .operator)), .tick 1,
    .transact 1 (.apply 2 2 (.update 1 1 fact .core .operator)), .tick 1,
    .transact 2 (.apply 3 3 (.forget 1 1 .operator)), .tick 1, .transact 3 (.revertEvent 4 1 3)]

theorem restored_faithful : Always (memoryStep fun _ _ => true) (·.db.Faithful) .init restored :=
  faithful_of_orderly (fun _ _ => true) restored (by decide +kernel)

def validatedLater : List Act :=
  [.transact 0 (.apply 1 1 (.write 1 .other fact .held false none .operator)), .tick 1,
    .transact 1 (.recordValidation 2 1 1 .operator)]

/-- The validation is journaled without its time, so a rebuild sets the time back. -/
theorem validation_lost : ¬ ∀ (sameOrg : AgentId → ColleagueId → Bool) (as : List Act),
    Always (memoryStep sameOrg) (·.db.Faithful) .init as := by
  intro h
  have hlive : (run (memoryStep fun _ _ => true) .init validatedLater).map
      (fun w => ((w.db.memories.find? 1).map MemoryRow.lastValidatedAt,
        (rebuildMaterialized 1 w.db).toOption.map
          fun db => (db.memories.find? 1).map MemoryRow.lastValidatedAt))
        = some (some 1, some (some 0)) := by
    decide +kernel
  obtain ⟨w, hw, htimes⟩ := Option.map_eq_some_iff.mp hlive
  obtain ⟨db, hdb, hrows⟩ := (h _ validatedLater).run hw 1
  simp only [Prod.mk.injEq, hdb, Except.toOption, Option.map_some, Option.some.injEq] at htimes
  have hlast := congrArg (Option.map Remembered.lastValidatedAt) (hrows 1)
  rw [Option.map_map, Option.map_map] at hlast
  change (db.memories.find? 1).map MemoryRow.lastValidatedAt
    = (w.db.memories.find? 1).map MemoryRow.lastValidatedAt at hlast
  rw [htimes.1, htimes.2] at hlast
  cases hlast

end Patom.Memory
