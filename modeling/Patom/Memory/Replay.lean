import Patom.Memory.RunsLaws

open Patom.Foundation

namespace Patom.Memory

structure Remembered where
  id : MemoryId
  agentId : AgentId
  kind : MemoryKind
  content : MemoryContent
  state : MemoryState
  pinned : Bool
  subject : Option ColleagueId
  sourceTurnId : Option PromptRequestId
  lastValidatedAt : Time
  deriving DecidableEq

def MemoryRow.remembered (r : MemoryRow) : Remembered :=
  ⟨r.id, r.agentId, r.kind, r.content, r.state, r.pinned, r.subject, r.sourceTurnId,
    r.lastValidatedAt⟩

def MemoryDb.Replayable (db : MemoryDb) : Prop :=
  ∀ agent, ∃ db', rebuildMaterialized agent db = .ok db'

def MemoryDb.Faithful (db : MemoryDb) : Prop :=
  ∀ agent, ∃ db', rebuildMaterialized agent db = .ok db' ∧ ∀ m,
    (db'.memories.find? m).map MemoryRow.remembered = (db.memories.find? m).map MemoryRow.remembered

def reliveAs (agent : AgentId) (e : MemoryEvent) : Option MemoryRow → Except Fault (Option MemoryRow)
  | none =>
    match e.payload with
    | .write content kind state pinned subject =>
      .ok (some { e.minted content kind state pinned subject with agentId := agent })
    | .update .. | .forget _ => .ok none
  | some r =>
    match e.payload with
    | .write .. => .error (.error .db)
    | .update _ after _ state pinned => .ok (some (r.set after state pinned))
    | .forget _ => .ok none

def relive (e : MemoryEvent) : Option MemoryRow → Except Fault (Option MemoryRow) :=
  reliveAs e.agentId e

theorem relive_minted {e : MemoryEvent} {content : MemoryContent} {kind : MemoryKind}
    {state : MemoryState} {pinned : Bool} {subject : Option ColleagueId}
    (payload : e.payload = .write content kind state pinned subject) :
    relive e none = .ok (some (e.minted content kind state pinned subject)) := by
  rw [relive, reliveAs, payload]
  rfl

def MemoryDb.life (db : MemoryDb) (m : MemoryId) : List MemoryEvent :=
  inOrder MemoryEvent.stamp (db.journal.rows.filter (·.targetMemoryId = m))

theorem stamp_inj {db : MemoryDb} {e e' : MemoryEvent} (he : e ∈ db.journal) (he' : e' ∈ db.journal)
    (h : e.stamp = e'.stamp) : e = e' := by
  have hid : e.id.toNat = e'.id.toNat := congrArg (fun s => (ofLex s).2) h
  exact Table.eq_of_key_eq he he' (BitVec.eq_of_toNat_eq hid)

def MemoryDb.row (db : MemoryDb) (m : MemoryId) : Option MemoryRow := db.memories.find? m

theorem row_updateRow (db : MemoryDb) (id : MemoryId) (set : MemoryRow → MemoryRow) :
    (db.updateRow id set).row
      = Function.update db.row id ((db.row id).map fun r => { set r with id := r.id }) := by
  funext m
  rw [Function.update_apply]
  split
  · rename_i hm
    subst hm
    cases hrow : db.row m with
    | none => rw [MemoryDb.row, MemoryDb.find?_updateRow, show db.memories.find? m = none from hrow]; rfl
    | some row => exact MemoryDb.find?_updateRow_self hrow set
  · rename_i hm
    exact MemoryDb.find?_updateRow_ne hm set

theorem row_deleteRow (db : MemoryDb) (id : MemoryId) :
    (db.deleteRow id).row = Function.update db.row id none := by
  funext m
  rw [Function.update_apply]
  exact MemoryDb.find?_deleteRow db id m

theorem row_insertRow {db db' : MemoryDb} {row : MemoryRow} (h : db.insertRow row = .ok db') :
    db'.row = Function.update db.row row.id (some row) := by
  funext m
  rw [MemoryDb.row, Table.find?_insert? (MemoryDb.insertRow_ok h).1, Function.update_apply]
  exact if_congr eq_comm rfl rfl

theorem applyReplay_keywise (agent : AgentId) :
    Keywise (applyReplay agent) MemoryDb.row (·.targetMemoryId) (reliveAs agent) := by
  intro db e
  cases hpayload : e.payload with
  | write content kind state pinned subject =>
    have hstep : applyReplay agent db e
        = db.insertRow { e.minted content kind state pinned subject with agentId := agent } := by
      rw [applyReplay, hpayload]
      rfl
    cases hrow : db.row e.targetMemoryId with
    | none =>
      have hfree : db.memories.find?
          ({ e.minted content kind state pinned subject with agentId := agent } : MemoryRow).id
            = none := hrow
      obtain ⟨db', hinsert⟩ := MemoryDb.insertRow_isOk hfree
      rw [hstep, hinsert, reliveAs, hpayload]
      exact congrArg Except.ok (row_insertRow hinsert)
    | some row =>
      have hfull : db.memories.insert?
          { e.minted content kind state pinned subject with agentId := agent } = none := by
        rw [Table.insert?_eq_none]
        exact Option.ne_none_iff_exists'.mpr ⟨row, hrow⟩
      rw [hstep, MemoryDb.insertRow, hfull, reliveAs, hpayload]
      rfl
  | update before after kind state pinned =>
    have hnext : ∀ r : Option MemoryRow, reliveAs agent e r
        = .ok (r.map fun row => row.set after state pinned) := by
      intro r
      cases r <;> simp [reliveAs, hpayload]
    rw [hnext, applyReplay, hpayload]
    exact congrArg Except.ok (row_updateRow db e.targetMemoryId _)
  | forget before =>
    have hnext : ∀ r : Option MemoryRow, reliveAs agent e r = .ok none := by
      intro r
      cases r <;> simp [reliveAs, hpayload]
    rw [hnext, applyReplay, hpayload]
    exact congrArg Except.ok (row_deleteRow db e.targetMemoryId)

theorem replay_reliveAs {agent : AgentId} {es : List MemoryEvent} (h : ∀ e ∈ es, e.agentId = agent)
    (r : Option MemoryRow) : replay (reliveAs agent) es r = replay relive es r := by
  induction es generalizing r with
  | nil => rfl
  | cons e es ih =>
    have hrest : replay (reliveAs agent) es = replay relive es :=
      funext fun r => ih (fun e' he' => h e' (List.mem_cons_of_mem e he')) r
    rw [replay_cons, replay_cons, hrest, relive, h e List.mem_cons_self]

section Rebuild

variable {w : World} (hw : w.Valid)
include hw

omit hw in
theorem mem_life {m : MemoryId} {e : MemoryEvent} :
    e ∈ w.db.life m ↔ e ∈ w.db.journal ∧ e.targetMemoryId = m := by
  simp [MemoryDb.life, Table.mem_def]

theorem agent_of_knows {agent : AgentId} {m : MemoryId} (h : w.db.Knows agent m) {e : MemoryEvent}
    (he : e ∈ w.db.journal) (hm : e.targetMemoryId = m) : e.agentId = agent := by
  obtain ⟨e', he', hm', hagent⟩ := h
  rw [hw.owned e he e' he' (hm.trans hm'.symm), hagent]

omit hw in
theorem filter_journal (agent : AgentId) (m : MemoryId) :
    (inOrder MemoryEvent.stamp (w.db.journal.rows.filter (·.agentId = agent))).filter
        (fun e => e.targetMemoryId = m)
      = inOrder MemoryEvent.stamp
          ((w.db.journal.rows.filter (·.agentId = agent)).filter fun e => e.targetMemoryId = m) :=
  filter_inOrder (fun _ ha _ hb hab =>
    stamp_inj (List.mem_filter.mp ha).1 (List.mem_filter.mp hb).1 hab) _

theorem filter_journal_known {agent : AgentId} {m : MemoryId} (h : w.db.Knows agent m) :
    (inOrder MemoryEvent.stamp (w.db.journal.rows.filter (·.agentId = agent))).filter
        (fun e => e.targetMemoryId = m) = w.db.life m := by
  rw [filter_journal, List.filter_filter, MemoryDb.life]
  congr 1
  refine List.filter_congr fun e he => ?_
  by_cases hm : e.targetMemoryId = m
  · simp [hm, agent_of_knows hw h he hm]
  · simp [hm]

omit hw in
theorem filter_journal_unknown {agent : AgentId} {m : MemoryId} (h : ¬ w.db.Knows agent m) :
    (inOrder MemoryEvent.stamp (w.db.journal.rows.filter (·.agentId = agent))).filter
        (fun e => e.targetMemoryId = m) = [] := by
  refine List.filter_eq_nil_iff.mpr fun e he hm => h ?_
  rw [mem_inOrder, List.mem_filter] at he
  exact ⟨e, he.1, by simpa using hm, by simpa using he.2⟩

theorem cleared_known {agent : AgentId} {m : MemoryId} (h : w.db.Knows agent m) :
    MemoryDb.row { w.db with memories := w.db.memories.delete (·.agentId = agent) } m = none := by
  rw [MemoryDb.row, Table.find?_delete]
  cases hrow : w.db.memories.find? m with
  | none => rfl
  | some row =>
    obtain ⟨e, he, hm, hagent⟩ := hw.journaled m row hrow
    have hrow : row.agentId = agent := hagent.symm.trans (agent_of_knows hw h he hm)
    simp [hrow]

theorem cleared_unknown {agent : AgentId} {m : MemoryId} (h : ¬ w.db.Knows agent m) :
    MemoryDb.row { w.db with memories := w.db.memories.delete (·.agentId = agent) } m
      = w.db.row m := by
  rw [MemoryDb.row, Table.find?_delete, MemoryDb.row]
  cases hrow : w.db.memories.find? m with
  | none => rfl
  | some row =>
    have hne : row.agentId ≠ agent := fun heq => h (heq ▸ hw.journaled m row hrow)
    simp [hne]

theorem replay_known {agent : AgentId} {m : MemoryId} (h : w.db.Knows agent m)
    (r : Option MemoryRow) :
    replay (reliveAs agent) (w.db.life m) r = replay relive (w.db.life m) r :=
  replay_reliveAs (fun _ he => agent_of_knows hw h (mem_life.mp he).1 (mem_life.mp he).2) r

theorem rebuild_row_known {agent : AgentId} {m : MemoryId} {db' : MemoryDb}
    (hdb : rebuildMaterialized agent w.db = .ok db') (h : w.db.Knows agent m) :
    replay relive (w.db.life m) none = .ok (db'.row m) := by
  have hview := (applyReplay_keywise agent).view_foldlM hdb m
  rw [filter_journal_known hw h, cleared_known hw h] at hview
  exact replay_known hw h none ▸ hview

theorem rebuild_row_unknown {agent : AgentId} {m : MemoryId} {db' : MemoryDb}
    (hdb : rebuildMaterialized agent w.db = .ok db') (h : ¬ w.db.Knows agent m) :
    db'.row m = w.db.row m := by
  have hview := (applyReplay_keywise agent).view_foldlM hdb m
  rw [filter_journal_unknown h, cleared_unknown hw h] at hview
  exact (Except.ok.inj hview).symm

theorem replayable_iff :
    w.db.Replayable ↔ ∀ m, ∃ r, replay relive (w.db.life m) none = .ok r := by
  constructor
  · intro h m
    cases hlife : w.db.life m with
    | nil => exact ⟨none, rfl⟩
    | cons e es =>
      have he : e ∈ w.db.life m := hlife ▸ List.mem_cons_self
      obtain ⟨db', hdb'⟩ := h e.agentId
      exact ⟨db'.row m, hlife ▸ rebuild_row_known hw hdb' ⟨e, (mem_life.mp he).1,
        (mem_life.mp he).2, rfl⟩⟩
  · intro h agent
    refine (applyReplay_keywise agent).foldlM_ok.mpr fun m => ?_
    by_cases hknown : w.db.Knows agent m
    · obtain ⟨r, hr⟩ := h m
      exact ⟨r, by rw [filter_journal_known hw hknown, cleared_known hw hknown,
        replay_known hw hknown, hr]⟩
    · exact ⟨_, by rw [filter_journal_unknown hknown]; rfl⟩

theorem faithful_iff :
    w.db.Faithful ↔ ∀ m, ∃ r, replay relive (w.db.life m) none = .ok r
      ∧ r.map MemoryRow.remembered = (w.db.row m).map MemoryRow.remembered := by
  constructor
  · intro h m
    cases hlife : w.db.life m with
    | nil =>
      refine ⟨none, rfl, ?_⟩
      cases hrow : w.db.row m with
      | none => rfl
      | some row =>
        obtain ⟨e, he, hm, -⟩ := hw.journaled m row hrow
        have hmem := mem_life.mpr ⟨he, hm⟩
        rw [hlife] at hmem
        cases hmem
    | cons e es =>
      have he : e ∈ w.db.life m := hlife ▸ List.mem_cons_self
      obtain ⟨db', hdb', hrows⟩ := h e.agentId
      exact ⟨db'.row m, hlife ▸ rebuild_row_known hw hdb' ⟨e, (mem_life.mp he).1,
        (mem_life.mp he).2, rfl⟩, hrows m⟩
  · intro h agent
    obtain ⟨db', hdb'⟩ := (replayable_iff hw).mpr (fun m => (h m).imp fun _ hr => hr.1) agent
    refine ⟨db', hdb', fun m => ?_⟩
    by_cases hknown : w.db.Knows agent m
    · obtain ⟨r, hr, hrows⟩ := h m
      have hrow := rebuild_row_known hw hdb' hknown
      rw [hr] at hrow
      cases hrow
      exact hrows
    · exact congrArg (Option.map MemoryRow.remembered) (rebuild_row_unknown hw hdb' hknown)

end Rebuild

def MemoryEvent.writes (e : MemoryEvent) : Bool :=
  match e.payload with
  | .write .. => true
  | .update .. | .forget _ => false

def MemoryEvent.forgets (e : MemoryEvent) : Bool :=
  match e.payload with
  | .forget _ => true
  | .write .. | .update .. => false

def MemoryDb.Apart (db : MemoryDb) (m : MemoryId) (s : Time ×ₗ Nat) : Prop :=
  ∀ e ∈ db.journal, e.targetMemoryId = m → e.writes = true →
    ∃ c ∈ db.journal, c.targetMemoryId = m ∧ c.forgets = true
      ∧ (e.stamp < c.stamp ∧ c.stamp < s ∨ s < c.stamp ∧ c.stamp < e.stamp)

/-- A reverted forget is stamped apart from the writes there are. -/
def RestoresApart (sameOrg : AgentId → ColleagueId → Bool) (w : World) (a : Act) : Prop :=
  ∀ b, a.batch sameOrg w = some b → b.deed = .restore → ∀ x ∈ b.entries,
    w.db.Apart x.1 (toLex (b.now, x.2.toNat))

theorem relive_lifetimes : Lifetimes MemoryEvent.writes MemoryEvent.forgets relive where
  opened e r h := by
    unfold MemoryEvent.writes at h
    split at h
    · rename_i hpayload
      exact ⟨_, by rw [relive, reliveAs, hpayload]⟩
    all_goals cases h
  opening e h := by
    unfold MemoryEvent.writes at h
    split at h
    · rename_i hpayload
      exact ⟨_, by rw [relive, reliveAs, hpayload]⟩
    all_goals cases h
  closing e r _ h := by
    unfold MemoryEvent.forgets at h
    split at h
    · rename_i hpayload
      cases r <;> rw [relive, reliveAs, hpayload]
    all_goals cases h
  keeping e r ho hc := by
    cases hpayload : e.payload with
    | write => simp [MemoryEvent.writes, hpayload] at ho
    | update _ after _ state pinned =>
      exact ⟨r.map fun row => row.set after state pinned,
        by cases r <;> simp [relive, reliveAs, hpayload], Option.isSome_map⟩
    | forget => simp [MemoryEvent.forgets, hpayload] at hc

theorem forgets_not_writes {e : MemoryEvent} (h : e.forgets = true) : e.writes = false := by
  cases hpayload : e.payload <;> simp [MemoryEvent.forgets, MemoryEvent.writes, hpayload] at h ⊢

def MemoryDb.Separated (db : MemoryDb) (m : MemoryId) : Prop :=
  ∀ a ∈ db.journal, a.targetMemoryId = m → a.writes = true →
    ∀ b ∈ db.journal, b.targetMemoryId = m → b.writes = true → a.stamp < b.stamp →
      ∃ c ∈ db.journal, c.targetMemoryId = m ∧ c.forgets = true ∧ a.stamp < c.stamp
        ∧ c.stamp < b.stamp

theorem spaced_life {w : World} {m : MemoryId} :
    Spaced MemoryEvent.stamp MemoryEvent.writes MemoryEvent.forgets (w.db.life m)
      ↔ w.db.Separated m := by
  constructor
  · intro h a ha ham haw b hb hbm hbw hab
    obtain ⟨c, hc, -, hcf, hac, hcb⟩ := h a (mem_life.mpr ⟨ha, ham⟩) b (mem_life.mpr ⟨hb, hbm⟩)
      haw hbw hab
    exact ⟨c, (mem_life.mp hc).1, (mem_life.mp hc).2, hcf, hac, hcb⟩
  · intro h a ha b hb haw hbw hab
    obtain ⟨ha, ham⟩ := mem_life.mp ha
    obtain ⟨hb, hbm⟩ := mem_life.mp hb
    obtain ⟨c, hc, hcm, hcf, hac, hcb⟩ := h a ha ham haw b hb hbm hbw hab
    exact ⟨c, mem_life.mpr ⟨hc, hcm⟩, forgets_not_writes hcf, hcf, hac, hcb⟩

theorem sorted_life (w : World) (m : MemoryId) :
    (w.db.life m).Pairwise fun a b => a.stamp < b.stamp := by
  have hnodup : (w.db.life m).Nodup :=
    (inOrder_perm _ _).nodup_iff.mpr (w.db.journal.nodup_rows.filter _)
  refine List.Pairwise.imp_of_mem ?_ ((inOrder_sorted MemoryEvent.stamp _).and hnodup)
  rintro a b ha hb ⟨hle, hne⟩
  refine lt_of_le_of_ne hle fun heq => hne ?_
  exact stamp_inj (mem_life.mp ha).1 (mem_life.mp hb).1 heq

theorem replayable_iff_separated {w : World} (hw : w.Valid) :
    w.db.Replayable ↔ ∀ m, w.db.Separated m := by
  rw [replayable_iff hw]
  refine forall_congr' fun m => ?_
  rw [relive_lifetimes.replay_ok (sorted_life w m) none, spaced_life]
  simp

theorem Outcome.writes_iff {e : MemoryEvent} {deed : Deed} {before after : Option MemoryRow}
    (h : Outcome e deed before after) : e.writes = true ↔ deed = .write ∨ deed = .restore := by
  cases h with
  | write _ _ _ _ _ payload => simp [MemoryEvent.writes, payload]
  | update _ _ _ _ _ payload => simp [MemoryEvent.writes, payload]
  | validate _ payload => simp [MemoryEvent.writes, payload]
  | forget _ payload => simp [MemoryEvent.writes, payload]
  | evict _ _ payload => simp [MemoryEvent.writes, payload]
  | restore _ _ _ _ _ payload => simp [MemoryEvent.writes, payload]
  | restoreLive _ _ _ _ _ _ payload => simp [MemoryEvent.writes, payload]

section Step

variable {deed : Deed} {es : List MemoryEvent} {db db' : MemoryDb}

theorem Changes.sub (h : Changes deed es db db') {e : MemoryEvent} (he : e ∈ db.journal) :
    e ∈ db'.journal :=
  h.mem_journal.mpr (.inl he)

theorem Changes.separated_of_not_writes (h : Changes deed es db db') {m : MemoryId}
    (hes : ∀ e ∈ es, e.targetMemoryId = m → e.writes = false) (hsep : db.Separated m) :
    db'.Separated m := by
  have hold : ∀ a ∈ db'.journal, a.targetMemoryId = m → a.writes = true → a ∈ db.journal := by
    intro a ha ham haw
    rcases h.mem_journal.mp ha with ha | ha
    · exact ha
    · rw [hes a ha ham] at haw
      cases haw
  intro a ha ham haw b hb hbm hbw hab
  obtain ⟨c, hc, hrest⟩ := hsep a (hold a ha ham haw) ham haw b (hold b hb hbm hbw) hbm hbw hab
  exact ⟨c, h.sub hc, hrest⟩

theorem Changes.separated_of_writes (h : Changes deed es db db')
    (hes : (es.map (·.targetMemoryId)).Nodup) {e : MemoryEvent} (he : e ∈ es)
    (hwrites : e.writes = true) (hsep : db.Separated e.targetMemoryId) :
    db'.Separated e.targetMemoryId ↔ db.Apart e.targetMemoryId e.stamp := by
  have hcases : ∀ a ∈ db'.journal, a.targetMemoryId = e.targetMemoryId →
      a ∈ db.journal ∨ a = e := by
    intro a ha ham
    rcases h.mem_journal.mp ha with ha | ha
    · exact .inl ha
    · exact .inr (List.inj_on_of_nodup_map hes ha he ham)
  have hmem : e ∈ db'.journal := h.mem_journal.mpr (.inr he)
  have hold : ∀ c ∈ db'.journal, c.targetMemoryId = e.targetMemoryId → c.forgets = true →
      c ∈ db.journal := by
    intro c hc hcm hcf
    rcases hcases c hc hcm with hc | rfl
    · exact hc
    · rw [forgets_not_writes hcf] at hwrites
      cases hwrites
  constructor
  · intro hsep' a ha ham haw
    have hne : a.stamp ≠ e.stamp := fun heq =>
      h.new he (stamp_inj (h.sub ha) hmem heq ▸ ha)
    rcases lt_or_gt_of_ne hne with hlt | hlt
    · obtain ⟨c, hc, hcm, hcf, hrest⟩ := hsep' a (h.sub ha) ham haw e hmem rfl hwrites hlt
      exact ⟨c, hold c hc hcm hcf, hcm, hcf, .inl hrest⟩
    · obtain ⟨c, hc, hcm, hcf, hrest⟩ := hsep' e hmem rfl hwrites a (h.sub ha) ham haw hlt
      exact ⟨c, hold c hc hcm hcf, hcm, hcf, .inr hrest⟩
  · intro hapart a ha ham haw b hb hbm hbw hab
    rcases hcases a ha ham with ha | rfl <;> rcases hcases b hb hbm with hb | rfl
    · obtain ⟨c, hc, hrest⟩ := hsep a ha ham haw b hb hbm hbw hab
      exact ⟨c, h.sub hc, hrest⟩
    · obtain ⟨c, hc, hcm, hcf, hbetween⟩ := hapart a ha ham haw
      rcases hbetween with hbetween | ⟨hbc, hca⟩
      · exact ⟨c, h.sub hc, hcm, hcf, hbetween⟩
      · exact absurd hab (lt_asymm (hbc.trans hca))
    · obtain ⟨c, hc, hcm, hcf, hbetween⟩ := hapart b hb hbm hbw
      rcases hbetween with ⟨hbc, hca⟩ | hbetween
      · exact absurd hab (lt_asymm (hbc.trans hca))
      · exact ⟨c, h.sub hc, hcm, hcf, hbetween⟩
    · exact absurd hab (lt_irrefl _)

end Step

variable {sameOrg : AgentId → ColleagueId → Bool}

theorem replayable_step {w t : World} {a : Act} (hw : w.Valid) (hreplay : w.db.Replayable)
    (h : memoryStep sameOrg w a = some t) :
    t.db.Replayable ↔ RestoresApart sameOrg w a := by
  rw [replayable_iff_separated (valid_step hw h)]
  rw [replayable_iff_separated hw] at hreplay
  rcases memoryStep_cases hw h with ⟨hnone, hquiet⟩ | ⟨b, es, hb, hchanges, hjournals⟩
  · refine iff_of_true (fun m => ?_) fun b hb => ?_
    · rw [MemoryDb.Separated, hquiet.journal]
      exact hreplay m
    · rw [hnone] at hb
      cases hb
  · constructor
    · intro hsep b' hb' hdeed x hx
      obtain rfl : b' = b := Option.some.inj (hb'.symm.trans hb)
      rw [← hjournals.entries] at hx
      obtain ⟨e, he, rfl⟩ := List.mem_map.mp hx
      have hwrites := (hchanges.outcome hjournals.distinct he).writes_iff.mpr (.inr hdeed)
      have hapart := (hchanges.separated_of_writes hjournals.distinct he hwrites
        (hreplay _)).mp (hsep _)
      rwa [(hjournals.stamp he).2] at hapart
    · intro hguard m
      rcases hchanges.at hjournals.distinct m with ⟨-, hnone⟩ | ⟨e, he, rfl, houtcome⟩
      · exact hchanges.separated_of_not_writes (fun e he hem => absurd hem (hnone e he)) (hreplay m)
      · cases hwrites : e.writes with
        | false =>
          refine hchanges.separated_of_not_writes (fun e' he' hem => ?_) (hreplay _)
          rw [List.inj_on_of_nodup_map hjournals.distinct he' he hem]
          exact hwrites
        | true =>
          refine (hchanges.separated_of_writes hjournals.distinct he hwrites (hreplay _)).mpr ?_
          obtain ⟨hentry, hstamp⟩ := hjournals.stamp he
          rcases houtcome.writes_iff.mp hwrites with hdeed | hdeed
          · exact fun e' he' hem => absurd hem (hjournals.fresh hdeed e he e' he')
          · exact hstamp ▸ hguard b hb hdeed _ hentry

theorem replayable_init : World.init.db.Replayable := fun _ => ⟨_, rfl⟩

/-- The journal stays replayable in just the runs that revert a forget only where a forget stands
between the new write and every other. -/
theorem replayable_iff_restoresApart (sameOrg : AgentId → ColleagueId → Bool) (as : List Act) :
    Always (memoryStep sameOrg) (·.db.Replayable) .init as
      ↔ Steps (memoryStep sameOrg) (RestoresApart sameOrg) .init as :=
  always_iff_steps World.Valid (fun _ _ _ hw _ h _ => valid_step hw h)
    (fun _ _ _ hw hreplay h => replayable_step hw hreplay h) valid_init replayable_init as

def note : MemoryContent := ⟨"a note", by decide, by decide⟩

def revertedTwice : List Act :=
  [.transact 0 (.apply 1 1 (.write 1 .other note .held false none .operator)), .tick 1,
    .transact 1 (.apply 2 2 (.forget 1 1 .operator)), .tick 1,
    .transact 2 (.revertEvent 3 1 2), .tick 1, .transact 3 (.revertEvent 4 1 2)]

theorem rebuild_fails : ¬ ∀ (sameOrg : AgentId → ColleagueId → Bool) (as : List Act),
    Always (memoryStep sameOrg) (·.db.Replayable) .init as := by
  intro h
  have hrebuild : (run (memoryStep fun _ _ => true) .init revertedTwice).map
      (fun w => (rebuildMaterialized 1 w.db).isOk) = some false := by
    decide +kernel
  obtain ⟨w, hw, hfail⟩ := Option.map_eq_some_iff.mp hrebuild
  obtain ⟨db, hdb⟩ := (h _ revertedTwice).run hw 1
  rw [hdb] at hfail
  cases hfail

end Patom.Memory
