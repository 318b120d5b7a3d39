import Patom.Memory.Replay

open Patom.Foundation

namespace Patom.Memory

structure Reverted (sameOrg : AgentId → ColleagueId → Bool) (w : World) (a : Act) (e : MemoryEvent)
    (db' : MemoryDb) : Prop where
  notWrite : e.payload.written = none
  reverts : ∃ t now inverse out, memoryStep sameOrg w a = some t ∧ e ∈ t.db.journal
    ∧ e ∉ w.db.journal ∧ revertEvent now inverse e.agentId t.db e.id = .ok (out, db')

def Undone (db : MemoryDb) (e : MemoryEvent) (db' : MemoryDb) : Prop :=
  ∀ row, db.memories.find? e.targetMemoryId = some row →
    Preserved row (db'.memories.find? e.targetMemoryId)

/-- The event has changed neither state nor pinned flag; a forget has the content of the row, and
the last write or update in the journal has the rest. -/
def CarriesPrior (db : MemoryDb) (e : MemoryEvent) : Prop :=
  ∀ row, db.memories.find? e.targetMemoryId = some row →
    match e.payload with
    | .write .. => True
    | .update _ _ _ state pinned => state = row.state ∧ pinned = row.pinned
    | .forget before => before = row.content
        ∧ ((db.history e.agentId e.targetMemoryId).filterMap (·.payload.attrs)).getLast?
          = some (row.kind, row.state, row.pinned)

theorem filterMap_inOrder {ε : Type*} {β : Type*} {γ : Type*} [LinearOrder β] {stamp : ε → β}
    {es : List ε} (hinj : ∀ a ∈ es, ∀ b ∈ es, stamp a = stamp b → a = b) (f : ε → Option γ) :
    (inOrder stamp es).filterMap f
      = (inOrder stamp (es.filter fun e => (f e).isSome)).filterMap f := by
  rw [← filter_inOrder hinj, List.filterMap_filter]
  refine List.filterMap_congr fun e _ => ?_
  cases h : f e <;> simp

theorem Changes.filterMap_history {deed : Deed} {es : List MemoryEvent} {db db' : MemoryDb}
    (h : Changes deed es db db') (agent : AgentId) {m : MemoryId} {γ : Type}
    {f : MemoryEvent → Option γ} (hes : ∀ e ∈ es, e.targetMemoryId = m → f e = none) :
    (db'.history agent m).filterMap f = (db.history agent m).filterMap f := by
  have hinj : ∀ (db : MemoryDb) (p : MemoryEvent → Bool), ∀ a ∈ db.journal.rows.filter p,
      ∀ b ∈ db.journal.rows.filter p, a.stamp = b.stamp → a = b :=
    fun db p a ha b hb => stamp_inj (List.mem_filter.mp ha).1 (List.mem_filter.mp hb).1
  have hnone : (es.filter fun e => e.agentId = agent && e.targetMemoryId = m).filter
      (fun e => (f e).isSome) = [] := by
    refine List.filter_eq_nil_iff.mpr fun e he => ?_
    obtain ⟨he, hm⟩ := List.mem_filter.mp he
    have hm : e.targetMemoryId = m := by simpa using (Bool.and_eq_true_iff.mp hm).2
    simp [hes e he hm]
  rw [MemoryDb.history, MemoryDb.history, filterMap_inOrder (hinj db' _),
    filterMap_inOrder (hinj db _), h.rows, List.filter_append, List.filter_append, hnone,
    List.append_nil]

section Cases

variable {now : Time} {inverse : MemoryEventId} {agent : AgentId} {target : MemoryId}
  {db db' : MemoryDb}

theorem revertUpdate_row {before : MemoryContent} {kind : MemoryKind} {state : MemoryState}
    {pinned : Bool} {row : MemoryRow} (hrow : db.memories.find? target = some row)
    (h : revertUpdate now inverse agent target db before kind state pinned = .ok db') :
    db'.memories.find? target = some (row.set before state pinned) := by
  obtain ⟨prior, -, h⟩ := bind_eq_ok.mp h
  obtain ⟨db₁, hevent, h⟩ := bind_eq_ok.mp h
  cases h
  rw [MemoryDb.find?_updateRow_self ((MemoryDb.insertEvent_ok hevent).2.1 ▸ hrow)]
  rfl

theorem revertForget_row {before : MemoryContent} {attrs : RestoredAttrs}
    (hrow : db.memories.find? target = none)
    (h : revertForget now inverse agent target db before attrs = .ok db') :
    ∃ row, db'.memories.find? target = some row ∧ row.content = before ∧ row.kind = attrs.kind
      ∧ row.state = attrs.state ∧ row.pinned = attrs.pinned := by
  obtain ⟨db₁, hevent, h⟩ := bind_eq_ok.mp h
  cases h
  refine ⟨⟨target, agent, attrs.kind, before, attrs.state, attrs.pinned, attrs.subject, none, now,
    now, now, 0⟩, ?_, rfl, rfl, rfl, rfl⟩
  dsimp only
  rw [Table.find?_addNew, (MemoryDb.insertEvent_ok hevent).2.1, hrow, Option.none_or]
  exact if_pos rfl

theorem restoreAttrsFor_ok {attrs : RestoredAttrs} (h : db.restoreAttrsFor agent target = .ok attrs) :
    ((db.history agent target).filterMap (·.payload.attrs)).getLast?
      = some (attrs.kind, attrs.state, attrs.pinned) := by
  unfold MemoryDb.restoreAttrsFor at h
  split at h
  · cases h
  · rename_i hlast
    cases h
    exact hlast

end Cases

theorem preserved_some_iff {r row : MemoryRow} :
    Preserved row (some r) ↔ r.content = row.content ∧ r.kind = row.kind ∧ r.state = row.state
      ∧ r.pinned = row.pinned :=
  ⟨fun ⟨_, h, hrest⟩ => Option.some.inj h ▸ hrest, fun h => ⟨r, rfl, h⟩⟩

section Outcomes

variable {e : MemoryEvent} {deed : Deed} {row : MemoryRow} {after : Option MemoryRow}

theorem Outcome.of_update (h : Outcome e deed (some row) after) {before content : MemoryContent}
    {kind : MemoryKind} {state : MemoryState} {pinned : Bool}
    (payload : e.payload = .update before content kind state pinned) :
    before = row.content ∧ ∃ r, after = some r ∧ r.kind = row.kind := by
  cases h with
  | update _ _ _ _ _ payload' =>
    cases payload.symm.trans payload'
    exact ⟨rfl, _, rfl, rfl⟩
  | validate _ payload' =>
    cases payload.symm.trans payload'
    exact ⟨rfl, _, rfl, rfl⟩
  | forget _ payload' => cases payload.symm.trans payload'
  | evict _ _ payload' => cases payload.symm.trans payload'
  | restoreLive _ _ _ _ _ _ payload' => cases payload.symm.trans payload'

theorem Outcome.of_forget (h : Outcome e deed (some row) after) {before : MemoryContent}
    (payload : e.payload = .forget before) : after = none := by
  cases h with
  | update _ _ _ _ _ payload' => cases payload.symm.trans payload'
  | validate _ payload' => cases payload.symm.trans payload'
  | forget => rfl
  | evict => rfl
  | restoreLive _ _ _ _ _ _ payload' => cases payload.symm.trans payload'

end Outcomes

variable {sameOrg : AgentId → ColleagueId → Bool}

/-- A revert undoes an event just when the event carries what it replaced. -/
theorem undone_iff_carriesPrior {w : World} {a : Act} {e : MemoryEvent} {db' : MemoryDb}
    (hw : Reachable (memoryStep sameOrg) .init w) (h : Reverted sameOrg w a e db') :
    Undone w.db e db' ↔ CarriesPrior w.db e := by
  have hvalid : w.Valid := hw.inv (fun _ _ _ hv hs => valid_step hv hs) valid_init
  obtain ⟨hwrite, t, now, inverse, out, hstep, hmem, hnew, hrevert⟩ := h
  rcases memoryStep_cases hvalid hstep with ⟨-, hquiet⟩ | ⟨b, es, -, hchanges, hjournals⟩
  · rw [hquiet.journal] at hmem
    exact absurd hmem hnew
  · have he : e ∈ es := (hchanges.mem_journal.mp hmem).resolve_left hnew
    have houtcome := hchanges.outcome hjournals.distinct he
    obtain ⟨e', hload, hrevert⟩ := bind_eq_ok.mp hrevert
    obtain ⟨db₁, hpayload, hout⟩ := bind_eq_ok.mp hrevert
    cases hout
    obtain rfl : e' = e :=
      Option.some.inj ((loadEvent_ok hload).1.symm.trans (Table.find?_of_mem hmem))
    refine forall_congr' fun row => imp_congr_right fun hrow => ?_
    rw [hrow] at houtcome
    cases hcase : e'.payload with
    | write => rw [hcase] at hwrite; cases hwrite
    | update before after kind state pinned =>
      obtain ⟨hbefore, r, hr, hkind⟩ := houtcome.of_update hcase
      rw [hcase] at hpayload
      rw [revertUpdate_row hr hpayload, preserved_some_iff]
      simp [MemoryRow.set, hbefore, hkind]
    | forget before =>
      rw [hcase] at hpayload
      obtain ⟨attrs, hattrs, hforget⟩ := bind_eq_ok.mp hpayload
      have hlast := restoreAttrsFor_ok hattrs
      have hes : ∀ e ∈ es, e.targetMemoryId = e'.targetMemoryId → e.payload.attrs = none := by
        intro e he₀ hm
        rw [List.inj_on_of_nodup_map hjournals.distinct he₀ he hm, hcase]
        rfl
      rw [hchanges.filterMap_history e'.agentId hes] at hlast
      obtain ⟨r, hr, hcontent, hkind, hstate, hpinned⟩ :=
        revertForget_row (houtcome.of_forget hcase) hforget
      rw [hr, preserved_some_iff, hlast, hcontent, hkind, hstate, hpinned]
      simp

def draft : MemoryContent := ⟨"a draft", by decide, by decide⟩

def revision : MemoryContent := ⟨"a revision", by decide, by decide⟩

def thenReverted (op : Op) : Option (World × MemoryEvent × MemoryDb) := do
  let w ← run (memoryStep fun _ _ => true) .init
    [.transact 0 (.apply 1 1 (.write 1 .other draft .held false none .operator))]
  let t ← memoryStep (fun _ _ => true) w (.transact 0 op)
  let e ← t.db.journal.find? 2
  let out ← (revertEvent 0 3 e.agentId t.db e.id).toOption
  if w.db.journal.find? e.id = none ∧ e.payload.written = none then some (w, e, out.2) else none

theorem thenReverted_spec {op : Op} {w : World} {e : MemoryEvent} {db' : MemoryDb}
    (h : thenReverted op = some (w, e, db')) :
    Reachable (memoryStep fun _ _ => true) .init w
      ∧ Reverted (fun _ _ => true) w (.transact 0 op) e db' := by
  simp only [thenReverted, Option.bind_eq_bind, Option.bind_eq_some_iff] at h
  obtain ⟨w', hw, t, ht, e', he, ⟨out, db⟩, hout, h⟩ := h
  split at h
  · rename_i hcond
    cases h
    have hok : revertEvent 0 3 e.agentId t.db e.id = .ok (out, db) := by
      cases hr : revertEvent 0 3 e.agentId t.db e.id with
      | error => rw [hr] at hout; cases hout
      | ok => rw [hr] at hout; cases hout; rfl
    refine ⟨run_path hw, hcond.2, t, 0, 3, out, ht, Table.mem_of_find? he, fun hmem => ?_, hok⟩
    exact absurd (Table.find?_of_mem hmem) (by rw [show key e = e.id from rfl, hcond.1]; exact nofun)
  · cases h

theorem undone_revision : ∃ w e db',
    thenReverted (.apply 2 2 (.update 1 1 revision .held .operator)) = some (w, e, db')
      ∧ (Undone w.db e db' ↔ CarriesPrior w.db e) := by
  obtain ⟨⟨w, e, db'⟩, h⟩ := Option.isSome_iff_exists.mp
    (show (thenReverted (.apply 2 2 (.update 1 1 revision .held .operator))).isSome = true by
      decide +kernel)
  obtain ⟨hw, hreverted⟩ := thenReverted_spec h
  exact ⟨w, e, db', h, undone_iff_carriesPrior hw hreverted⟩

/-- A memory is pinned, the pinning is reverted, and the memory is still pinned. -/
theorem pin_stays : ¬ ∀ (sameOrg : AgentId → ColleagueId → Bool) (w : World) (a : Act)
    (e : MemoryEvent) (db' : MemoryDb), Reachable (memoryStep sameOrg) .init w →
    Reverted sameOrg w a e db' → Undone w.db e db' := by
  intro h
  have hpins : (thenReverted (.setPinned 2 1 1 true)).bind
      (fun x => ((x.1.db.memories.find? 1).map fun r => (x.2.1.targetMemoryId, r.pinned,
        (x.2.2.memories.find? 1).map (·.pinned)))) = some (1, false, some true) := by
    decide +kernel
  obtain ⟨⟨w, e, db'⟩, hx, hrow⟩ := Option.bind_eq_some_iff.mp hpins
  obtain ⟨r, hr, hvalues⟩ := Option.map_eq_some_iff.mp hrow
  simp only [Prod.mk.injEq] at hvalues
  obtain ⟨htarget, hbefore, hafter⟩ := hvalues
  obtain ⟨hw, hreverted⟩ := thenReverted_spec hx
  obtain ⟨row, hfind, -, -, -, hpinned⟩ := h _ w _ e db' hw hreverted r (htarget ▸ hr)
  rw [htarget] at hfind
  rw [hfind, Option.map_some, hpinned, hbefore] at hafter
  cases hafter

end Patom.Memory
