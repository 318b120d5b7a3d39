import Patom.Memory.StoreLaws

open Patom.Foundation

namespace Patom.Memory

section Sweeps

variable {now : Time} {eventIds : MemoryId → MemoryEventId}

def holdEvent (now : Time) (eventIds : MemoryId → MemoryEventId) (row : MemoryRow) : MemoryEvent :=
  ⟨eventIds row.id, row.agentId, row.id, .librarian, now,
    .update row.content row.content row.kind .held row.pinned⟩

def evictEvent (now : Time) (eventIds : MemoryId → MemoryEventId) (agent : AgentId)
    (row : MemoryRow) : MemoryEvent :=
  ⟨eventIds row.id, agent, row.id, .librarian, now, .forget row.content⟩

theorem hold_journaled {db db' : MemoryDb} {row : MemoryRow}
    (hrow : db.memories.find? row.id = some row) (hpinned : row.pinned = false)
    (h : hold now eventIds db row = .ok db') :
    Journaled .update (holdEvent now eventIds row) db db' := by
  obtain ⟨db₁, hevent, h⟩ := bind_eq_ok.mp h
  cases h
  refine .of_update hevent hrow ?_
  exact .update row row.content row.kind .held row.pinned rfl ⟨rfl, fun hp => by simp [hpinned] at hp⟩

theorem hold_changes {rows : List MemoryRow} {db db' : MemoryDb}
    (hids : (rows.map (·.id)).Nodup)
    (hrows : ∀ row ∈ rows, db.memories.find? row.id = some row ∧ row.pinned = false)
    (h : rows.foldlM (hold now eventIds) db = .ok db') :
    Changes .update (rows.map (holdEvent now eventIds)) db db' := by
  induction rows generalizing db with
  | nil =>
    cases h
    exact .nil _
  | cons row rows ih =>
    obtain ⟨db₁, hfirst, hrest⟩ := bind_eq_ok.mp h
    obtain ⟨hnew, hids⟩ := List.nodup_cons.mp hids
    obtain ⟨hrow, hpinned⟩ := hrows row List.mem_cons_self
    have hjournaled := hold_journaled hrow hpinned hfirst
    refine .cons hjournaled (ih hids (fun row' hrow' => ?_) hrest)
    obtain ⟨hfind, hpinned'⟩ := hrows row' (List.mem_cons_of_mem row hrow')
    have hne : row'.id ≠ row.id := fun e => hnew (List.mem_map.mpr ⟨row', hrow', e⟩)
    exact ⟨(hjournaled.frame row'.id hne).trans hfind, hpinned'⟩

theorem evict_changes {agent : AgentId} {rows : List MemoryRow} {db db' : MemoryDb}
    (h : rows.foldlM (evict now eventIds agent) db = .ok db') :
    Changes .evict (rows.map (evictEvent now eventIds agent)) db db' := by
  induction rows generalizing db with
  | nil =>
    cases h
    exact .nil _
  | cons row rows ih =>
    obtain ⟨db₁, hfirst, hrest⟩ := bind_eq_ok.mp h
    obtain ⟨db₂, hevent, hfirst⟩ := bind_eq_ok.mp hfirst
    cases hfirst
    exact .cons (.of_delete hevent (.evict _ row.content rfl rfl)) (ih hrest)

end Sweeps

def MemoryRow.body (r : MemoryRow) : MemoryRow := { r with lastAccessedAt := 0, accessCount := 0 }

structure Quiet (db db' : MemoryDb) : Prop where
  journal : db'.journal = db.journal
  rows : ∀ m, (db'.memories.find? m).map MemoryRow.body = (db.memories.find? m).map MemoryRow.body
  agents : db'.memories.rows.map (·.agentId) = db.memories.rows.map (·.agentId)

theorem Quiet.refl (db : MemoryDb) : Quiet db db := ⟨rfl, fun _ => rfl, rfl⟩

theorem recordAccess_quiet {now : Time} {db db' : MemoryDb} {ids : List MemoryId}
    (h : recordAccess now db ids = .ok db') : Quiet db db' := by
  unfold recordAccess at h
  split at h
  · cases h
    refine ⟨rfl, fun m => ?_, ?_⟩
    · dsimp only
      rw [Table.find?_modify]
      cases db.memories.find? m with
      | none => rfl
      | some row => by_cases hm : row.id ∈ ids <;> simp [hm, MemoryRow.body]
    · refine (List.map_map ..).trans (List.map_congr_left fun row _ => ?_)
      by_cases hm : row.id ∈ ids <;> simp [hm]
  · cases h

theorem recordContradiction_quiet {now : Time} {db db' : MemoryDb} {id : ContradictionEventId}
    {agent : AgentId} {a b : MemoryId} {out : ContradictionEventId}
    (h : recordContradiction now db id agent a b = .ok (out, db')) : Quiet db db' := by
  unfold recordContradiction at h
  dsimp only at h
  split at h
  · cases h
    exact .refl db
  · split at h
    · cases h
      exact ⟨rfl, fun _ => rfl, rfl⟩
    · cases h

theorem resolveContradiction_quiet {now : Time} {db db' : MemoryDb} {id : ContradictionEventId}
    (h : resolveContradiction now db id = .ok db') : Quiet db db' := by
  unfold resolveContradiction at h
  split at h
  · cases h
  · cases h
    exact ⟨rfl, fun _ => rfl, rfl⟩

structure Batch.Journals (b : Batch) (es : List MemoryEvent) (db : MemoryDb) : Prop where
  entries : es.map (fun e => (e.targetMemoryId, e.id)) = b.entries
  distinct : (es.map (·.targetMemoryId)).Nodup
  stamped : ∀ e ∈ es, e.createdAt = b.now ∧ e.agentId = b.agent ∧ e.source = b.source
  fresh : b.deed = .write → ∀ e ∈ es, ∀ e' ∈ db.journal, e'.targetMemoryId ≠ e.targetMemoryId
  known : b.deed = .evict ∨ b.deed = .restore → ∀ e ∈ es,
    ∃ e' ∈ db.journal, e'.targetMemoryId = e.targetMemoryId ∧ e'.agentId = e.agentId
  one : b.deed = .write ∨ b.deed = .restore → ∃ e, es = [e]

theorem Batch.Journals.single {b : Batch} {e : MemoryEvent} {db : MemoryDb}
    (entry : [(e.targetMemoryId, e.id)] = b.entries)
    (stamped : e.createdAt = b.now ∧ e.agentId = b.agent ∧ e.source = b.source)
    (fresh : b.deed = .write → ∀ e' ∈ db.journal, e'.targetMemoryId ≠ e.targetMemoryId)
    (known : b.deed = .evict ∨ b.deed = .restore →
      ∃ e' ∈ db.journal, e'.targetMemoryId = e.targetMemoryId ∧ e'.agentId = e.agentId) :
    b.Journals [e] db where
  entries := entry
  distinct := List.nodup_singleton _
  stamped e' he' := by
    cases List.mem_singleton.mp he'
    exact stamped
  fresh hdeed e' he' := by
    cases List.mem_singleton.mp he'
    exact fresh hdeed
  known hdeed e' he' := by
    cases List.mem_singleton.mp he'
    exact known hdeed
  one _ := ⟨e, rfl⟩

theorem Batch.Journals.stamp {b : Batch} {es : List MemoryEvent} {db : MemoryDb}
    (h : b.Journals es db) {e : MemoryEvent} (he : e ∈ es) :
    (e.targetMemoryId, e.id) ∈ b.entries ∧ e.stamp = toLex (b.now, e.id.toNat) := by
  refine ⟨h.entries ▸ List.mem_map.mpr ⟨e, he, rfl⟩, ?_⟩
  rw [MemoryEvent.stamp, (h.stamped e he).1]

variable {sameOrg : AgentId → ColleagueId → Bool}

def MemoryDb.Knows (db : MemoryDb) (agent : AgentId) (m : MemoryId) : Prop :=
  ∃ e ∈ db.journal, e.targetMemoryId = m ∧ e.agentId = agent

/-- What a transaction has read it may still rely on: the journal only grows. -/
def Pending.Valid (db : MemoryDb) : Pending → Prop
  | .counted .. => True
  | .evicting _ agent rows =>
    (rows.map MemoryRow.id).Nodup ∧ ∀ row ∈ rows, db.Knows agent row.id
  | .restoring _ agent target _ _ => db.Knows agent target

/-- A memory is one agent's, from its first event on. -/
structure World.Valid (w : World) : Prop where
  pending : ∀ p ∈ w.pending, p.Valid w.db
  owned : ∀ e ∈ w.db.journal, ∀ e' ∈ w.db.journal,
    e.targetMemoryId = e'.targetMemoryId → e.agentId = e'.agentId
  journaled : ∀ m row, w.db.memories.find? m = some row → w.db.Knows row.agentId m

theorem select_rows {db : MemoryDb} {snapshot : MemoryId → Bool} {p : MemoryRow → Bool}
    {row : MemoryRow} (h : row ∈ db.select snapshot p) :
    db.memories.find? row.id = some row ∧ p row = true := by
  obtain ⟨hmem, hp⟩ := List.mem_filter.mp h
  exact ⟨Table.find?_of_mem hmem, (Bool.and_eq_true_iff.mp hp).1⟩

theorem nodup_select (db : MemoryDb) (snapshot : MemoryId → Bool) (p : MemoryRow → Bool) :
    ((db.select snapshot p).map (·.id)).Nodup :=
  db.memories.nodup.sublist (List.filter_sublist.map _)

theorem sweep_changes {now : Time} {eventIds : MemoryId → MemoryEventId} (agent : AgentId)
    {db db' : MemoryDb} {snapshot : MemoryId → Bool} {p : MemoryRow → Bool}
    (hp : ∀ row, p row = true → row.agentId = agent ∧ row.pinned = false)
    (h : (db.select snapshot p).foldlM (hold now eventIds) db = .ok db') :
    ∃ es, Changes .update es db db' ∧ Batch.Journals ⟨.update, now, agent, .librarian,
      (db.select snapshot p).map fun r => (r.id, eventIds r.id)⟩ es db := by
  refine ⟨_, hold_changes (nodup_select db snapshot p) (fun row hrow => ?_) h, ?_⟩
  · obtain ⟨hfind, hrow⟩ := select_rows hrow
    exact ⟨hfind, (hp row hrow).2⟩
  · refine ⟨by rw [List.map_map]; rfl, ?_, fun e he => ?_, nofun, nofun, nofun⟩
    · rw [List.map_map]
      exact nodup_select db snapshot p
    · obtain ⟨row, hrow, rfl⟩ := List.mem_map.mp he
      exact ⟨rfl, (hp row (select_rows hrow).2).1, rfl⟩

theorem Op.run_cases {now : Time} {db db' : MemoryDb} {op : Op} (hfresh : op.fresh db = true)
    (h : op.run sameOrg now db = .ok db') :
    (op.plan now db = none ∧ Quiet db db')
      ∨ ∃ b es, op.plan now db = some b ∧ Changes b.deed es db db' ∧ b.Journals es db := by
  cases op with
  | apply eventId memoryId mutation =>
    obtain ⟨⟨out, db₁⟩, hrun, rfl⟩ := map_eq_ok.mp h
    obtain ⟨payload, hjournaled⟩ := apply_journaled hrun
    refine .inr ⟨_, _, rfl, .single hjournaled, .single rfl ⟨rfl, rfl, rfl⟩
      (fun hdeed e' he' => ?_) (fun hdeed => ?_)⟩
    · cases mutation with
      | write =>
        have hnew := List.all_eq_true.mp hfresh e' he'
        exact of_decide_eq_true hnew
      | update => cases hdeed
      | forget => cases hdeed
    · cases mutation <;> cases hdeed <;> contradiction
  | recordValidation eventId agent memory origin =>
    obtain ⟨⟨out, db₁⟩, hrun, rfl⟩ := map_eq_ok.mp h
    obtain ⟨payload, hjournaled⟩ := recordValidation_journaled hrun
    exact .inr ⟨_, _, rfl, .single hjournaled, .single rfl ⟨rfl, rfl, rfl⟩ nofun nofun⟩
  | setPinned eventId agent memory pinned =>
    obtain ⟨⟨out, db₁⟩, hrun, rfl⟩ := map_eq_ok.mp h
    obtain ⟨payload, hjournaled⟩ := setPinned_journaled hrun
    exact .inr ⟨_, _, rfl, .single hjournaled, .single rfl ⟨rfl, rfl, rfl⟩ nofun nofun⟩
  | revertEvent inverse agent event =>
    obtain ⟨⟨out, db₁⟩, hrun, rfl⟩ := map_eq_ok.mp h
    obtain ⟨e, payload, hfind, hagent, hjournaled⟩ := revertEvent_journaled hrun
    refine .inr ⟨_, _, congrArg (Option.map _) hfind, .single hjournaled,
      .single rfl ⟨rfl, rfl, rfl⟩ (fun hdeed => ?_) fun _ => ?_⟩
    · cases hpayload : e.payload <;> simp [hpayload, MemoryEventPayload.inverse] at hdeed
    · exact ⟨e, Table.mem_of_find? hfind, rfl, hagent⟩
  | decayValidated eventIds snapshot agent cutoff =>
    obtain ⟨⟨out, db₁⟩, hrun, rfl⟩ := map_eq_ok.mp h
    obtain ⟨db₂, hfold, hout⟩ := bind_eq_ok.mp hrun
    cases hout
    obtain ⟨es, hchanges, hjournals⟩ := sweep_changes agent (fun row hrow => by
      simp only [MemoryDb.stale, Bool.and_eq_true, decide_eq_true_eq, Bool.not_eq_true'] at hrow
      exact ⟨hrow.1.1.1, hrow.1.2⟩) hfold
    exact .inr ⟨_, es, rfl, hchanges, hjournals⟩
  | matureTentative eventIds snapshot agent cutoff =>
    obtain ⟨⟨out, db₁⟩, hrun, rfl⟩ := map_eq_ok.mp h
    obtain ⟨db₂, hfold, hout⟩ := bind_eq_ok.mp hrun
    cases hout
    obtain ⟨es, hchanges, hjournals⟩ := sweep_changes agent (fun row hrow => by
      simp only [MemoryDb.ripe, Bool.and_eq_true, decide_eq_true_eq, Bool.not_eq_true'] at hrow
      exact ⟨hrow.1.1.1.1, hrow.1.1.2⟩) hfold
    exact .inr ⟨_, es, rfl, hchanges, hjournals⟩
  | recordAccess ids => exact .inl ⟨rfl, recordAccess_quiet h⟩
  | recordContradiction id agent a b =>
    obtain ⟨⟨out, db₁⟩, hrun, rfl⟩ := map_eq_ok.mp h
    exact .inl ⟨rfl, recordContradiction_quiet hrun⟩
  | resolveContradiction id => exact .inl ⟨rfl, resolveContradiction_quiet h⟩

theorem memoryStep_cases {w t : World} {a : Act} (hw : w.Valid)
    (h : memoryStep sameOrg w a = some t) :
    (a.batch sameOrg w = none ∧ Quiet w.db t.db)
      ∨ ∃ b es, a.batch sameOrg w = some b ∧ Changes b.deed es w.db t.db
        ∧ b.Journals es w.db := by
  cases a with
  | tick d =>
    cases h
    exact .inl ⟨rfl, .refl _⟩
  | transact now op =>
    simp only [memoryStep] at h
    split at h
    · rename_i henabled
      cases h
      have hfresh := (Bool.and_eq_true_iff.mp henabled).2
      simp only [Act.batch, World.commit]
      cases hrun : op.run sameOrg now w.db with
      | error => exact .inl ⟨rfl, .refl _⟩
      | ok db => exact Op.run_cases hfresh hrun
    · cases h
  | countOverflow now agent quota =>
    simp only [memoryStep] at h
    split at h
    · cases h
      exact .inl ⟨rfl, .refl _⟩
    · cases h
  | selectOverflow i =>
    obtain ⟨p, hp, h⟩ := Option.bind_eq_some_iff.mp h
    cases p with
    | counted now agent limit =>
      cases h
      exact .inl ⟨rfl, .refl _⟩
    | evicting => cases h
    | restoring => cases h
  | evict i eventIds =>
    obtain ⟨p, hp, h⟩ := Option.bind_eq_some_iff.mp h
    cases p with
    | counted => cases h
    | evicting now agent rows =>
      cases h
      simp only [Act.batch, hp, World.commit]
      cases hrun : evictRows now eventIds agent rows w.db with
      | error => exact .inl ⟨rfl, .refl _⟩
      | ok out =>
        obtain ⟨db, hfold, hout⟩ := bind_eq_ok.mp hrun
        cases hout
        obtain ⟨hids, hknown⟩ := hw.pending _ (List.mem_of_getElem? hp)
        refine .inr ⟨_, _, rfl, evict_changes hfold, ?_, ?_, ?_, nofun, fun _ => ?_, nofun⟩
        · rw [List.map_map]
          rfl
        · rw [List.map_map]
          exact hids
        · intro e he
          obtain ⟨row, -, rfl⟩ := List.mem_map.mp he
          exact ⟨rfl, rfl, rfl⟩
        · intro e he
          obtain ⟨row, hrow, rfl⟩ := List.mem_map.mp he
          exact hknown row hrow
    | restoring => cases h
  | readForgotten now agent event =>
    simp only [memoryStep] at h
    split at h
    · split at h
      · split at h
        · split at h
          · cases h
            exact .inl ⟨rfl, .refl _⟩
          · cases h
        · cases h
      · cases h
    · cases h
  | restore i inverse =>
    obtain ⟨p, hp, h⟩ := Option.bind_eq_some_iff.mp h
    cases p with
    | counted => cases h
    | evicting => cases h
    | restoring now agent target before attrs =>
      cases h
      simp only [Act.batch, hp, World.commit]
      cases hrun : revertForget now inverse agent target w.db before attrs with
      | error => exact .inl ⟨rfl, .refl _⟩
      | ok db =>
        exact .inr ⟨_, _, rfl, .single (revertForget_journaled hrun), .single rfl ⟨rfl, rfl, rfl⟩
          nofun fun _ => hw.pending _ (List.mem_of_getElem? hp)⟩
  | rollback i =>
    simp only [memoryStep] at h
    split at h
    · cases h
      exact .inl ⟨rfl, .refl _⟩
    · cases h

section Changes

variable {deed : Deed} {es : List MemoryEvent} {db db' : MemoryDb}

theorem Changes.rows (h : Changes deed es db db') : db'.journal.rows = db.journal.rows ++ es := by
  induction h with
  | nil db => simp
  | cons hjournaled _ ih => rw [ih, Table.rows_insert? hjournaled.journal, List.append_assoc]; rfl

theorem Changes.frame (h : Changes deed es db db') {m : MemoryId}
    (hm : m ∉ es.map (·.targetMemoryId)) : db'.memories.find? m = db.memories.find? m := by
  induction h with
  | nil db => rfl
  | cons hjournaled _ ih =>
    simp only [List.map_cons, List.mem_cons, not_or] at hm
    rw [ih hm.2, hjournaled.frame m hm.1]

theorem Changes.outcome (h : Changes deed es db db') (hes : (es.map (·.targetMemoryId)).Nodup)
    {e : MemoryEvent} (he : e ∈ es) :
    Outcome e deed (db.memories.find? e.targetMemoryId) (db'.memories.find? e.targetMemoryId) := by
  induction h with
  | nil db => cases he
  | @cons e₀ es₀ _ _ _ hjournaled hrest ih =>
    obtain ⟨hnew, hes⟩ := List.nodup_cons.mp hes
    rcases List.mem_cons.mp he with rfl | he
    · rw [hrest.frame hnew]
      exact hjournaled.outcome
    · have hne : e.targetMemoryId ≠ e₀.targetMemoryId :=
        fun heq => hnew (List.mem_map.mpr ⟨e, he, heq⟩)
      rw [← hjournaled.frame e.targetMemoryId hne]
      exact ih hes he

theorem Changes.at (h : Changes deed es db db') (hes : (es.map (·.targetMemoryId)).Nodup)
    (m : MemoryId) :
    db'.memories.find? m = db.memories.find? m ∧ (∀ e ∈ es, e.targetMemoryId ≠ m)
      ∨ ∃ e ∈ es, e.targetMemoryId = m
        ∧ Outcome e deed (db.memories.find? m) (db'.memories.find? m) := by
  by_cases hm : m ∈ es.map (·.targetMemoryId)
  · obtain ⟨e, he, rfl⟩ := List.mem_map.mp hm
    exact .inr ⟨e, he, rfl, h.outcome hes he⟩
  · exact .inl ⟨h.frame hm, fun e he heq => hm (List.mem_map.mpr ⟨e, he, heq⟩)⟩

theorem Changes.mem_journal (h : Changes deed es db db') {e : MemoryEvent} :
    e ∈ db'.journal ↔ e ∈ db.journal ∨ e ∈ es := by
  rw [Table.mem_def, h.rows, List.mem_append, Table.mem_def]

theorem Changes.new (h : Changes deed es db db') {e : MemoryEvent} (he : e ∈ es) :
    e ∉ db.journal := by
  intro hmem
  have hnodup := db'.journal.nodup_rows
  rw [h.rows, List.nodup_append] at hnodup
  exact hnodup.2.2 e hmem e he rfl

end Changes

theorem MemoryDb.Knows.mono {db db' : MemoryDb} (hsub : ∀ e ∈ db.journal, e ∈ db'.journal)
    {agent : AgentId} {m : MemoryId} (h : db.Knows agent m) : db'.Knows agent m := by
  obtain ⟨e, he, hrest⟩ := h
  exact ⟨e, hsub e he, hrest⟩

theorem Pending.Valid.mono {db db' : MemoryDb} (hsub : ∀ e ∈ db.journal, e ∈ db'.journal)
    {p : Pending} (h : p.Valid db) : p.Valid db' := by
  cases p with
  | counted => trivial
  | evicting now agent rows => exact ⟨h.1, fun row hrow => (h.2 row hrow).mono hsub⟩
  | restoring => exact MemoryDb.Knows.mono hsub h

theorem evictable_valid {w : World} (hw : w.Valid) (now : Time) (agent : AgentId) (limit : Nat) :
    Pending.Valid w.db (.evicting now agent (w.db.evictable agent limit)) := by
  have hperm := List.perm_insertionSort (fun r r' : MemoryRow => r.evictionKey ≤ r'.evictionKey)
    (w.db.memories.rows.filter fun r => r.agentId = agent && !r.pinned)
  constructor
  · refine List.Nodup.sublist ((List.take_sublist _ _).map _) ((hperm.map _).nodup_iff.mpr ?_)
    exact w.db.memories.nodup.sublist (List.filter_sublist.map _)
  · intro row hrow
    obtain ⟨hmem, hrow⟩ := List.mem_filter.mp (hperm.mem_iff.mp (List.mem_of_mem_take hrow))
    have hagent : row.agentId = agent := by simpa using (Bool.and_eq_true_iff.mp hrow).1
    exact hagent ▸ hw.journaled row.id row (Table.find?_of_mem hmem)

theorem mem_pending_step {w t : World} {a : Act} (hw : w.Valid)
    (h : memoryStep sameOrg w a = some t) {p : Pending} (hp : p ∈ t.pending) :
    p ∈ w.pending ∨ p.Valid w.db := by
  have hcommit : ∀ (v : World) (r : Except Fault MemoryDb), (v.commit r).pending = v.pending := by
    intro v r
    cases r <;> rfl
  cases a with
  | tick d =>
    cases h
    exact .inl hp
  | transact now op =>
    simp only [memoryStep] at h
    split at h
    · cases h
      exact .inl (hcommit w _ ▸ hp)
    · cases h
  | countOverflow now agent quota =>
    simp only [memoryStep] at h
    split at h
    · cases h
      rcases List.mem_append.mp hp with hp | hp
      · exact .inl hp
      · cases List.mem_singleton.mp hp
        exact .inr trivial
    · cases h
  | selectOverflow i =>
    obtain ⟨q, hq, h⟩ := Option.bind_eq_some_iff.mp h
    cases q with
    | counted now agent limit =>
      cases h
      rcases List.mem_or_eq_of_mem_set hp with hp | rfl
      · exact .inl hp
      · exact .inr (evictable_valid hw now agent limit)
    | evicting => cases h
    | restoring => cases h
  | evict i eventIds =>
    obtain ⟨q, hq, h⟩ := Option.bind_eq_some_iff.mp h
    cases q with
    | counted => cases h
    | evicting =>
      cases h
      rw [hcommit] at hp
      exact .inl (List.mem_of_mem_eraseIdx hp)
    | restoring => cases h
  | readForgotten now agent event =>
    simp only [memoryStep] at h
    split at h
    · rename_i e hload
      obtain ⟨hfind, hagent⟩ := loadEvent_ok hload
      split at h
      · split at h
        · split at h
          · cases h
            rcases List.mem_append.mp hp with hp | hp
            · exact .inl hp
            · cases List.mem_singleton.mp hp
              exact .inr ⟨e, Table.mem_of_find? hfind, rfl, hagent⟩
          · cases h
        · cases h
      · cases h
    · cases h
  | restore i inverse =>
    obtain ⟨q, hq, h⟩ := Option.bind_eq_some_iff.mp h
    cases q with
    | counted => cases h
    | evicting => cases h
    | restoring =>
      cases h
      rw [hcommit] at hp
      exact .inl (List.mem_of_mem_eraseIdx hp)
  | rollback i =>
    simp only [memoryStep] at h
    split at h
    · cases h
      exact .inl (List.mem_of_mem_eraseIdx hp)
    · cases h

theorem Batch.Journals.agent_eq {w : World} {db' : MemoryDb} {b : Batch} {es : List MemoryEvent}
    (hw : w.Valid) (h : b.Journals es w.db) (hchanges : Changes b.deed es w.db db')
    {e e' : MemoryEvent} (he : e ∈ es) (he' : e' ∈ w.db.journal)
    (htarget : e'.targetMemoryId = e.targetMemoryId) : e'.agentId = e.agentId := by
  have hreaches : ∀ row, w.db.memories.find? e.targetMemoryId = some row → e.Reaches row →
      e'.agentId = e.agentId := by
    intro row hrow hreaches
    obtain ⟨e₀, he₀, htarget₀, hagent₀⟩ := hw.journaled _ row hrow
    rw [hw.owned e' he' e₀ he₀ (htarget.trans htarget₀.symm), hagent₀, hreaches.agent]
  have hknown : b.deed = .evict ∨ b.deed = .restore → e'.agentId = e.agentId := by
    intro hdeed
    obtain ⟨e₀, he₀, htarget₀, hagent₀⟩ := h.known hdeed e he
    rw [hw.owned e' he' e₀ he₀ (htarget.trans htarget₀.symm), hagent₀]
  have houtcome := hchanges.outcome h.distinct he
  generalize hbefore : w.db.memories.find? e.targetMemoryId = before at houtcome
  generalize db'.memories.find? e.targetMemoryId = after at houtcome
  generalize hdeed : b.deed = deed at houtcome
  cases houtcome with
  | write => exact absurd htarget (h.fresh hdeed e he e' he')
  | update row _ _ _ _ _ reaches => exact hreaches row hbefore reaches
  | validate row _ reaches => exact hreaches row hbefore reaches
  | forget row _ reaches => exact hreaches row hbefore reaches
  | evict => exact hknown (.inl hdeed)
  | restore => exact hknown (.inr hdeed)
  | restoreLive => exact hknown (.inr hdeed)

theorem Outcome.agent {e : MemoryEvent} {deed : Deed} {before after : Option MemoryRow}
    (h : Outcome e deed before after) {row : MemoryRow} (hrow : after = some row) :
    row.agentId = e.agentId ∨ before = some row := by
  cases h with
  | write =>
    cases hrow
    exact .inl rfl
  | update r _ _ _ _ _ reaches =>
    cases hrow
    exact .inl reaches.agent
  | validate r _ reaches =>
    cases hrow
    exact .inl reaches.agent
  | forget => cases hrow
  | evict => cases hrow
  | restore =>
    cases hrow
    exact .inl rfl
  | restoreLive => exact .inr hrow

theorem valid_step {w t : World} {a : Act} (hw : w.Valid)
    (h : memoryStep sameOrg w a = some t) : t.Valid := by
  rcases memoryStep_cases hw h with ⟨-, hquiet⟩ | ⟨b, es, -, hchanges, hjournals⟩
  · refine ⟨fun p hp => ?_, ?_, fun m row hrow => ?_⟩
    · have hsub : ∀ e ∈ w.db.journal, e ∈ t.db.journal := fun e he => hquiet.journal ▸ he
      exact ((mem_pending_step hw h hp).elim (hw.pending p) id).mono hsub
    · rw [hquiet.journal]
      exact hw.owned
    · have hbody := hquiet.rows m
      rw [hrow, Option.map_some] at hbody
      obtain ⟨row', hrow', heq⟩ := Option.map_eq_some_iff.mp hbody.symm
      have hagent : row'.body.agentId = row.body.agentId := congrArg MemoryRow.agentId heq
      replace hagent : row'.agentId = row.agentId := hagent
      rw [MemoryDb.Knows, hquiet.journal, ← hagent]
      exact hw.journaled m row' hrow'
  · have hsub : ∀ e ∈ w.db.journal, e ∈ t.db.journal :=
      fun e he => hchanges.mem_journal.mpr (.inl he)
    refine ⟨fun p hp => ?_, fun e he e' he' htarget => ?_, fun m row hrow => ?_⟩
    · exact ((mem_pending_step hw h hp).elim (hw.pending p) id).mono hsub
    · rcases hchanges.mem_journal.mp he with he | he <;>
        rcases hchanges.mem_journal.mp he' with he' | he'
      · exact hw.owned e he e' he' htarget
      · exact hjournals.agent_eq hw hchanges he' he htarget
      · exact (hjournals.agent_eq hw hchanges he he' htarget.symm).symm
      · rw [List.inj_on_of_nodup_map hjournals.distinct he he' htarget]
    · rcases hchanges.at hjournals.distinct m with ⟨hsame, -⟩ | ⟨e, he, rfl, houtcome⟩
      · exact (hw.journaled m row (hsame ▸ hrow)).mono hsub
      · rcases houtcome.agent hrow with hagent | hbefore
        · exact ⟨e, hchanges.mem_journal.mpr (.inr he), rfl, hagent.symm⟩
        · exact (hw.journaled _ row hbefore).mono hsub

theorem valid_init : World.init.Valid where
  pending _ hp := absurd hp List.not_mem_nil
  owned e he := absurd he (Table.not_mem_empty e)
  journaled _ _ hrow := by cases hrow

end Patom.Memory
