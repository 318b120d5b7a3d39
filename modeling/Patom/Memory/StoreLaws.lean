import Patom.Memory.Store

open Patom.Foundation

namespace Patom.Memory

namespace MemoryDb

variable {db db' : MemoryDb}

theorem insertEvent_ok {e : MemoryEvent} (h : db.insertEvent e = .ok db') :
    db.journal.insert? e = some db'.journal ∧ db'.memories = db.memories
      ∧ db'.contradictions = db.contradictions := by
  unfold insertEvent at h
  split at h
  · rename_i journal hjournal
    cases h
    exact ⟨hjournal, rfl, rfl⟩
  · cases h

theorem insertEvent_isOk {e : MemoryEvent} (h : db.journal.find? e.id = none) :
    ∃ db', db.insertEvent e = .ok db' := by
  obtain ⟨journal, hjournal⟩ := Option.isSome_iff_exists.mp (Table.insert?_isSome.mpr h)
  exact ⟨{ db with journal }, by rw [insertEvent, hjournal]⟩

theorem insertRow_ok {row : MemoryRow} (h : db.insertRow row = .ok db') :
    db.memories.insert? row = some db'.memories ∧ db'.journal = db.journal := by
  unfold insertRow at h
  split at h
  · rename_i memories hmemories
    cases h
    exact ⟨hmemories, rfl⟩
  · cases h

theorem insertRow_isOk {row : MemoryRow} (h : db.memories.find? row.id = none) :
    ∃ db', db.insertRow row = .ok db' := by
  obtain ⟨memories, hmemories⟩ := Option.isSome_iff_exists.mp (Table.insert?_isSome.mpr h)
  exact ⟨{ db with memories }, by rw [insertRow, hmemories]⟩

theorem lockExisting_ok {agent : AgentId} {target : MemoryId} {source : MutationSource}
    {row : MemoryRow} (h : db.lockExisting agent target source = .ok row) :
    db.memories.find? target = some row ∧ row.agentId = agent
      ∧ (row.pinned = true → source = .operator) := by
  unfold lockExisting at h
  split at h
  · cases h
  · rename_i r hr
    split at h
    · cases h
    · rename_i hagent
      split at h
      · cases h
      · rename_i hpinned
        cases h
        refine ⟨hr, not_not.mp hagent, fun hp => ?_⟩
        cases source <;> simp_all [MutationSource.bypassesPin]

theorem find?_updateRow (db : MemoryDb) (id m : MemoryId) (set : MemoryRow → MemoryRow) :
    (db.updateRow id set).memories.find? m
      = (db.memories.find? m).map fun r => if r.id = id then { set r with id := r.id } else r := by
  rw [updateRow, Table.find?_modify]

theorem find?_updateRow_self {id : MemoryId} {row : MemoryRow}
    (h : db.memories.find? id = some row) (set : MemoryRow → MemoryRow) :
    (db.updateRow id set).memories.find? id = some { set row with id := row.id } := by
  have hid : row.id = id := Table.key_of_find? h
  rw [find?_updateRow, h, Option.map_some, if_pos hid]

theorem find?_updateRow_ne {id m : MemoryId} (h : m ≠ id) (set : MemoryRow → MemoryRow) :
    (db.updateRow id set).memories.find? m = db.memories.find? m := by
  rw [find?_updateRow]
  cases hm : db.memories.find? m with
  | none => rfl
  | some row =>
    have hid : row.id = m := Table.key_of_find? hm
    rw [Option.map_some, if_neg (hid ▸ h)]

theorem find?_deleteRow (db : MemoryDb) (id m : MemoryId) :
    (db.deleteRow id).memories.find? m = if m = id then none else db.memories.find? m := by
  rw [deleteRow, Table.find?_delete]
  cases hm : db.memories.find? m with
  | none => simp
  | some row =>
    have hid : row.id = m := Table.key_of_find? hm
    by_cases h : m = id <;> simp [hid, h]

end MemoryDb

def MemoryEvent.minted (e : MemoryEvent) (content : MemoryContent) (kind : MemoryKind)
    (state : MemoryState) (pinned : Bool) (subject : Option ColleagueId) : MemoryRow :=
  ⟨e.targetMemoryId, e.agentId, kind, content, state, pinned, subject, e.source.turnId,
    e.createdAt, e.createdAt, e.createdAt, 0⟩

def MemoryRow.set (r : MemoryRow) (content : MemoryContent) (state : MemoryState) (pinned : Bool) :
    MemoryRow :=
  { r with content, state, pinned }

def Preserved (r : MemoryRow) (r' : Option MemoryRow) : Prop :=
  ∃ row, r' = some row ∧ row.content = r.content ∧ row.kind = r.kind ∧ row.state = r.state
    ∧ row.pinned = r.pinned

theorem Preserved.refl (r : MemoryRow) : Preserved r (some r) := ⟨r, rfl, rfl, rfl, rfl, rfl⟩

structure MemoryEvent.Reaches (e : MemoryEvent) (r : MemoryRow) : Prop where
  agent : r.agentId = e.agentId
  pin : r.pinned = true → e.source = .operator

/-- All that an event journaled by the store does to the row it is about. -/
inductive Outcome (e : MemoryEvent) : Deed → Option MemoryRow → Option MemoryRow → Prop
  | write (content kind state pinned subject)
      (payload : e.payload = .write content kind state pinned subject) :
      Outcome e .write none (some (e.minted content kind state pinned subject))
  | update (r after kind state pinned)
      (payload : e.payload = .update r.content after kind state pinned) (reaches : e.Reaches r) :
      Outcome e .update (some r) (some (r.set after state pinned))
  | validate (r)
      (payload : e.payload = .update r.content r.content r.kind r.state.validate r.pinned)
      (reaches : e.Reaches r) :
      Outcome e .validate (some r)
        (some { r with state := r.state.validate, lastValidatedAt := e.createdAt })
  | forget (r) (payload : e.payload = .forget r.content) (reaches : e.Reaches r) :
      Outcome e .forget (some r) none
  | evict (r before) (payload : e.payload = .forget before) (source : e.source = .librarian) :
      Outcome e .evict r none
  | restore (content kind state pinned subject)
      (payload : e.payload = .write content kind state pinned subject)
      (source : e.source = .operator) :
      Outcome e .restore none (some (e.minted content kind state pinned subject))
  | restoreLive (r content kind state pinned subject)
      (payload : e.payload = .write content kind state pinned subject)
      (source : e.source = .operator) :
      Outcome e .restore (some r) (some r)

structure Journaled (deed : Deed) (e : MemoryEvent) (db db' : MemoryDb) : Prop where
  journal : db.journal.insert? e = some db'.journal
  outcome : Outcome e deed (db.memories.find? e.targetMemoryId)
    (db'.memories.find? e.targetMemoryId)
  frame : ∀ m, m ≠ e.targetMemoryId → db'.memories.find? m = db.memories.find? m

inductive Changes (deed : Deed) : List MemoryEvent → MemoryDb → MemoryDb → Prop
  | nil (db) : Changes deed [] db db
  | cons {e es db db' db''} : Journaled deed e db db' → Changes deed es db' db'' →
      Changes deed (e :: es) db db''

theorem Changes.single {deed : Deed} {e : MemoryEvent} {db db' : MemoryDb}
    (h : Journaled deed e db db') : Changes deed [e] db db' :=
  .cons h (.nil db')

section Primitives

variable {db db₁ db' : MemoryDb} {e : MemoryEvent}

theorem Journaled.of_insert {content : MemoryContent} {kind : MemoryKind} {state : MemoryState}
    {pinned : Bool} {subject : Option ColleagueId} (hevent : db.insertEvent e = .ok db₁)
    (hrow : db₁.insertRow (e.minted content kind state pinned subject) = .ok db')
    (payload : e.payload = .write content kind state pinned subject) :
    Journaled .write e db db' := by
  obtain ⟨hjournal, hmemories, -⟩ := MemoryDb.insertEvent_ok hevent
  obtain ⟨hinsert, hsame⟩ := MemoryDb.insertRow_ok hrow
  rw [hmemories] at hinsert
  have hnew : db.memories.find? e.targetMemoryId = none :=
    Table.insert?_isSome.mp (Option.isSome_of_eq_some hinsert)
  have hfind := Table.find?_insert? hinsert
  refine ⟨hsame ▸ hjournal, ?_, fun m hm => (hfind m).trans (if_neg (Ne.symm hm))⟩
  rw [hnew, (hfind e.targetMemoryId).trans (if_pos rfl)]
  exact .write content kind state pinned subject payload

theorem Journaled.of_update {deed : Deed} {row : MemoryRow} {set : MemoryRow → MemoryRow}
    (hevent : db.insertEvent e = .ok db₁) (hrow : db.memories.find? e.targetMemoryId = some row)
    (outcome : Outcome e deed (some row) (some { set row with id := row.id })) :
    Journaled deed e db (db₁.updateRow e.targetMemoryId set) := by
  obtain ⟨hjournal, hmemories, -⟩ := MemoryDb.insertEvent_ok hevent
  refine ⟨hjournal, ?_, fun m hm => ?_⟩
  · rw [MemoryDb.find?_updateRow_self (hmemories ▸ hrow), hrow]
    exact outcome
  · rw [MemoryDb.find?_updateRow_ne hm, hmemories]

theorem Journaled.of_delete {deed : Deed} (hevent : db.insertEvent e = .ok db₁)
    (outcome : Outcome e deed (db.memories.find? e.targetMemoryId) none) :
    Journaled deed e db (db₁.deleteRow e.targetMemoryId) := by
  obtain ⟨hjournal, hmemories, -⟩ := MemoryDb.insertEvent_ok hevent
  refine ⟨hjournal, ?_, fun m hm => ?_⟩
  · rw [MemoryDb.find?_deleteRow, if_pos rfl]
    exact outcome
  · rw [MemoryDb.find?_deleteRow, if_neg hm, hmemories]

theorem Journaled.of_addNew {content : MemoryContent} {kind : MemoryKind} {state : MemoryState}
    {pinned : Bool} {subject : Option ColleagueId} (hevent : db.insertEvent e = .ok db₁)
    (payload : e.payload = .write content kind state pinned subject)
    (source : e.source = .operator) :
    Journaled .restore e db { db₁ with
      memories := db₁.memories.addNew (e.minted content kind state pinned subject) } := by
  obtain ⟨hjournal, hmemories, -⟩ := MemoryDb.insertEvent_ok hevent
  have hfind : ∀ m, (db₁.memories.addNew (e.minted content kind state pinned subject)).find? m
      = (db.memories.find? m).or (if e.targetMemoryId = m then
          some (e.minted content kind state pinned subject) else none) := fun m => by
    rw [Table.find?_addNew, hmemories]
    rfl
  refine ⟨hjournal, ?_, fun m hm => ?_⟩
  · dsimp only
    rw [hfind, if_pos rfl]
    cases db.memories.find? e.targetMemoryId with
    | none => exact .restore content kind state pinned subject payload source
    | some row => exact .restoreLive row content kind state pinned subject payload source
  · dsimp only
    rw [hfind, if_neg (Ne.symm hm), Option.or_none]

end Primitives

variable {sameOrg : AgentId → ColleagueId → Bool} {now : Time} {eventId : MemoryEventId}
  {db db' : MemoryDb}

theorem applyWrite_journaled {memoryId : MemoryId} {agent : AgentId} {kind : MemoryKind}
    {content : MemoryContent} {state : MemoryState} {pinned : Bool} {subject : Option ColleagueId}
    {source : MutationSource} {out : MutationOutcome}
    (h : applyWrite sameOrg now eventId db memoryId agent kind content state pinned subject source
      = .ok (out, db')) :
    Journaled .write
      ⟨eventId, agent, memoryId, source, now, .write content kind state pinned subject⟩ db db' := by
  obtain ⟨-, -, h⟩ := bind_eq_ok.mp h
  obtain ⟨db₁, hevent, h⟩ := bind_eq_ok.mp h
  obtain ⟨db₂, hrow, h⟩ := bind_eq_ok.mp h
  cases h
  exact .of_insert hevent hrow rfl

theorem applyUpdate_journaled {agent : AgentId} {target : MemoryId} {content : MemoryContent}
    {state : MemoryState} {source : MutationSource} {out : MutationOutcome}
    (h : applyUpdate now eventId db agent target content state source = .ok (out, db')) :
    ∃ payload, Journaled .update ⟨eventId, agent, target, source, now, payload⟩ db db' := by
  obtain ⟨prior, hlock, h⟩ := bind_eq_ok.mp h
  obtain ⟨db₁, hevent, h⟩ := bind_eq_ok.mp h
  cases h
  obtain ⟨hrow, hagent, hpin⟩ := MemoryDb.lockExisting_ok hlock
  exact ⟨_, .of_update hevent hrow (.update prior content prior.kind state prior.pinned rfl
    ⟨hagent, hpin⟩)⟩

theorem applyForget_journaled {agent : AgentId} {target : MemoryId} {source : MutationSource}
    {out : MutationOutcome} (h : applyForget now eventId db agent target source = .ok (out, db')) :
    ∃ payload, Journaled .forget ⟨eventId, agent, target, source, now, payload⟩ db db' := by
  obtain ⟨prior, hlock, h⟩ := bind_eq_ok.mp h
  obtain ⟨db₁, hevent, h⟩ := bind_eq_ok.mp h
  cases h
  obtain ⟨hrow, hagent, hpin⟩ := MemoryDb.lockExisting_ok hlock
  refine ⟨_, .of_delete hevent ?_⟩
  rw [hrow]
  exact .forget prior rfl ⟨hagent, hpin⟩

theorem apply_journaled {memoryId : MemoryId} {mutation : MemoryMutation} {out : MutationOutcome}
    (h : apply sameOrg now eventId db memoryId mutation = .ok (out, db')) :
    ∃ payload, Journaled mutation.deed
      ⟨eventId, mutation.agent, mutation.target memoryId, mutation.source, now, payload⟩
      db db' := by
  obtain ⟨-, -, h⟩ := bind_eq_ok.mp h
  cases mutation with
  | write => exact ⟨_, applyWrite_journaled h⟩
  | update => exact applyUpdate_journaled h
  | forget => exact applyForget_journaled h

theorem recordValidation_journaled {agent : AgentId} {memory : MemoryId}
    {origin : ValidationOrigin} {out : Option MemoryRow}
    (h : recordValidation now eventId db agent memory origin = .ok (out, db')) :
    ∃ payload, Journaled .validate
      ⟨eventId, agent, memory, origin.mutationSource, now, payload⟩ db db' := by
  obtain ⟨prior, hlock, h⟩ := bind_eq_ok.mp h
  obtain ⟨db₁, hevent, h⟩ := bind_eq_ok.mp h
  cases h
  obtain ⟨hrow, hagent, hpin⟩ := MemoryDb.lockExisting_ok hlock
  exact ⟨_, .of_update hevent hrow (.validate prior rfl ⟨hagent, hpin⟩)⟩

theorem setPinned_journaled {agent : AgentId} {memory : MemoryId} {pinned : Bool}
    {out : Option MemoryRow} (h : setPinned now eventId db agent memory pinned = .ok (out, db')) :
    ∃ payload,
      Journaled .update ⟨eventId, agent, memory, .operator, now, payload⟩ db db' := by
  obtain ⟨prior, hlock, h⟩ := bind_eq_ok.mp h
  obtain ⟨db₁, hevent, h⟩ := bind_eq_ok.mp h
  cases h
  obtain ⟨hrow, hagent, hpin⟩ := MemoryDb.lockExisting_ok hlock
  exact ⟨_, .of_update hevent hrow (.update prior prior.content prior.kind prior.state pinned rfl
    ⟨hagent, hpin⟩)⟩

section Revert

variable {agent : AgentId} {target : MemoryId} {inverse : MemoryEventId}

theorem revertWrite_journaled (h : revertWrite now inverse agent target db = .ok db') :
    ∃ payload,
      Journaled .forget ⟨inverse, agent, target, .operator, now, payload⟩ db db' := by
  obtain ⟨prior, hlock, h⟩ := bind_eq_ok.mp h
  obtain ⟨db₁, hevent, h⟩ := bind_eq_ok.mp h
  cases h
  obtain ⟨hrow, hagent, hpin⟩ := MemoryDb.lockExisting_ok hlock
  refine ⟨_, .of_delete hevent ?_⟩
  rw [hrow]
  exact .forget prior rfl ⟨hagent, hpin⟩

theorem revertUpdate_journaled {before : MemoryContent} {kind : MemoryKind} {state : MemoryState}
    {pinned : Bool}
    (h : revertUpdate now inverse agent target db before kind state pinned = .ok db') :
    ∃ payload,
      Journaled .update ⟨inverse, agent, target, .operator, now, payload⟩ db db' := by
  obtain ⟨prior, hlock, h⟩ := bind_eq_ok.mp h
  obtain ⟨db₁, hevent, h⟩ := bind_eq_ok.mp h
  cases h
  obtain ⟨hrow, hagent, hpin⟩ := MemoryDb.lockExisting_ok hlock
  exact ⟨_, .of_update hevent hrow (.update prior before kind state pinned rfl ⟨hagent, hpin⟩)⟩

theorem revertForget_journaled {before : MemoryContent} {attrs : RestoredAttrs}
    (h : revertForget now inverse agent target db before attrs = .ok db') :
    Journaled .restore ⟨inverse, agent, target, .operator, now,
      .write before attrs.kind attrs.state attrs.pinned attrs.subject⟩ db db' := by
  obtain ⟨db₁, hevent, h⟩ := bind_eq_ok.mp h
  cases h
  exact .of_addNew hevent rfl rfl

theorem loadEvent_ok {event : MemoryEventId} {e : MemoryEvent}
    (h : db.loadEvent agent event = .ok e) :
    db.journal.find? event = some e ∧ e.agentId = agent := by
  unfold MemoryDb.loadEvent at h
  split at h
  · rename_i e' he
    cases h
    obtain ⟨hfind, hagent⟩ := Option.filter_eq_some_iff.mp he
    exact ⟨hfind, by simpa using hagent⟩
  · cases h

theorem revertPayload_journaled {payload : MemoryEventPayload}
    (h : revertPayload now inverse agent target db payload = .ok db') :
    ∃ after, Journaled payload.inverse
      ⟨inverse, agent, target, .operator, now, after⟩ db db' := by
  cases payload with
  | write => exact revertWrite_journaled h
  | update => exact revertUpdate_journaled h
  | forget before =>
    obtain ⟨attrs, -, h⟩ := bind_eq_ok.mp h
    exact ⟨_, revertForget_journaled h⟩

theorem revertEvent_journaled {event : MemoryEventId} {out : Option MemoryRow}
    (h : revertEvent now inverse agent db event = .ok (out, db')) :
    ∃ e payload, db.journal.find? event = some e ∧ e.agentId = agent
      ∧ Journaled e.payload.inverse
        ⟨inverse, agent, e.targetMemoryId, .operator, now, payload⟩ db db' := by
  obtain ⟨e, hload, h⟩ := bind_eq_ok.mp h
  obtain ⟨db₁, hrevert, h⟩ := bind_eq_ok.mp h
  cases h
  obtain ⟨hfind, hagent⟩ := loadEvent_ok hload
  obtain ⟨payload, hjournaled⟩ := revertPayload_journaled hrevert
  exact ⟨e, payload, hfind, hagent, hjournaled⟩

end Revert

end Patom.Memory
