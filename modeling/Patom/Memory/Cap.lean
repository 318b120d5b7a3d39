import Patom.Memory.Composer
import Patom.Memory.RunsLaws

open Patom.Foundation

namespace Patom.Memory

def MemoryDb.count (db : MemoryDb) (agent : AgentId) : Nat :=
  db.memories.rows.countP (·.agentId = agent)

def Capped (w : World) : Prop :=
  ∀ agent, w.db.count agent ≤ MAX_MEMORIES_PER_AGENT ∧ (∃ rows, w.db.list agent = .ok rows) ∧
    ∀ roster kindPayload, ∃ s, w.db.loadStable roster agent kindPayload = .ok s

/-- A memory is written, or written back, for an agent below the cap only. -/
def HasRoom (sameOrg : AgentId → ColleagueId → Bool) (w : World) (a : Act) : Prop :=
  ∀ b, a.batch sameOrg w = some b → ∀ x ∈ b.entries,
    b.deed = .write ∨ b.deed = .restore ∧ w.db.memories.find? x.1 = none →
      w.db.count b.agent < MAX_MEMORIES_PER_AGENT

theorem list_ok_iff (db : MemoryDb) (agent : AgentId) :
    (∃ rows, db.list agent = .ok rows) ↔ db.count agent ≤ MAX_MEMORIES_PER_AGENT := by
  have hlength : ∀ l : List MemoryRow, (l.take (MAX_MEMORIES_PER_AGENT + 1)).length
      ≤ MAX_MEMORIES_PER_AGENT ↔ l.length ≤ MAX_MEMORIES_PER_AGENT := by
    intro l
    rw [List.length_take]
    omega
  rw [MemoryDb.count, List.countP_eq_length_filter]
  simp only [MemoryDb.list, hlength, List.length_insertionSort]
  split
  · rename_i h
    exact iff_of_true ⟨_, rfl⟩ h
  · rename_i h
    exact iff_of_false (fun ⟨_, hrows⟩ => nomatch hrows) h

theorem capped_iff {w : World} : Capped w ↔ ∀ agent, w.db.count agent ≤ MAX_MEMORIES_PER_AGENT := by
  refine forall_congr' fun agent => ⟨And.left, fun hcount => ?_⟩
  obtain ⟨rows, hrows⟩ := (list_ok_iff w.db agent).mpr hcount
  exact ⟨hcount, ⟨rows, hrows⟩, fun _ _ => MemoryDb.loadStable_isOk hrows⟩

theorem Quiet.count {db db' : MemoryDb} (h : Quiet db db') (agent : AgentId) :
    db'.count agent = db.count agent := by
  have hmap : ∀ db : MemoryDb,
      db.count agent = (db.memories.rows.map (·.agentId)).countP (· = agent) := by
    intro db
    rw [List.countP_map]
    rfl
  rw [hmap db', hmap db, h.agents]

def one (agent : AgentId) (r : Option MemoryRow) : Nat := r.toList.countP (·.agentId = agent)

@[simp] theorem one_none (agent : AgentId) : one agent none = 0 := rfl

@[simp] theorem one_some (agent : AgentId) (r : MemoryRow) :
    one agent (some r) = if r.agentId = agent then 1 else 0 := by
  by_cases h : r.agentId = agent <;> simp [one, h]

theorem Journaled.count {deed : Deed} {e : MemoryEvent} {db db' : MemoryDb}
    (h : Journaled deed e db db') (agent : AgentId) :
    db'.count agent + one agent (db.memories.find? e.targetMemoryId)
      = db.count agent + one agent (db'.memories.find? e.targetMemoryId) :=
  Table.countP_frame h.frame _

theorem Outcome.one_le {e : MemoryEvent} {deed : Deed} {before after : Option MemoryRow}
    (h : Outcome e deed before after) (hdeed : deed ≠ .write)
    (hlive : deed = .restore → before ≠ none) (agent : AgentId) :
    one agent after ≤ one agent before := by
  cases h with
  | write => exact absurd rfl hdeed
  | update r => exact Nat.le_of_eq (by rw [one_some, one_some]; rfl)
  | validate r => exact Nat.le_of_eq (by rw [one_some, one_some])
  | forget => exact Nat.zero_le _
  | evict => exact Nat.zero_le _
  | restore => exact absurd rfl (hlive rfl)
  | restoreLive => exact Nat.le_refl _

theorem Outcome.one_eq {e : MemoryEvent} {deed : Deed} {before after : Option MemoryRow}
    (h : Outcome e deed before after)
    (hdeed : deed = .write ∨ deed = .restore ∧ before = none) (agent : AgentId) :
    one agent before = 0 ∧ one agent after = if e.agentId = agent then 1 else 0 := by
  rcases hdeed with rfl | ⟨rfl, rfl⟩ <;> cases h <;> exact ⟨rfl, one_some _ _⟩

theorem Changes.count_le {deed : Deed} {es : List MemoryEvent} {db db' : MemoryDb}
    (h : Changes deed es db db') (hdeed : deed ≠ .write ∧ deed ≠ .restore) (agent : AgentId) :
    db'.count agent ≤ db.count agent := by
  induction h with
  | nil db => exact Nat.le_refl _
  | cons hjournaled _ ih =>
    have hcount := hjournaled.count agent
    have hle := hjournaled.outcome.one_le hdeed.1 (fun hd => absurd hd hdeed.2) agent
    omega

variable {sameOrg : AgentId → ColleagueId → Bool}

theorem capped_step {w t : World} {a : Act} (hw : w.Valid) (hcapped : Capped w)
    (h : memoryStep sameOrg w a = some t) : Capped t ↔ HasRoom sameOrg w a := by
  rw [capped_iff] at hcapped ⊢
  rcases memoryStep_cases hw h with ⟨hnone, hquiet⟩ | ⟨b, es, hb, hchanges, hjournals⟩
  · refine iff_of_true (fun agent => hquiet.count agent ▸ hcapped agent) fun b hb => ?_
    rw [hnone] at hb
    cases hb
  · by_cases hdeed : b.deed = .write ∨ b.deed = .restore
    · obtain ⟨e, rfl⟩ := hjournals.one hdeed
      have hjournaled : Journaled b.deed e w.db t.db := by
        generalize t.db = db' at hchanges
        cases hchanges with
        | cons hjournaled hrest =>
          cases hrest
          exact hjournaled
      have hagent := (hjournals.stamped e (List.mem_singleton_self e)).2.1
      have hentries := hjournals.entries
      by_cases hnew : b.deed = .write ∨ b.deed = .restore
          ∧ w.db.memories.find? e.targetMemoryId = none
      · have hone := hjournaled.outcome.one_eq hnew
        have hcount : ∀ agent, t.db.count agent
            = w.db.count agent + if e.agentId = agent then 1 else 0 := by
          intro agent
          have hc := hjournaled.count agent
          obtain ⟨hbefore, hafter⟩ := hone agent
          omega
        constructor
        · intro hall b' hb' x hx _
          obtain rfl : b' = b := Option.some.inj (hb'.symm.trans hb)
          have hroom := hall b'.agent
          rw [hcount, hagent, if_pos rfl] at hroom
          exact hroom
        · intro hroom agent
          have hlt := hroom b hb (e.targetMemoryId, e.id) (by simp [← hentries]) hnew
          rw [hcount]
          split
          · rename_i heq
            rw [← heq, hagent]
            exact hlt
          · exact hcapped agent
      · refine iff_of_true (fun agent => ?_) fun b' hb' x hx hnew' => ?_
        · have hc := hjournaled.count agent
          have hle := hjournaled.outcome.one_le (fun hd => hnew (.inl hd))
            (fun hd hn => hnew (.inr ⟨hd, hn⟩)) agent
          have hcap := hcapped agent
          omega
        · obtain rfl : b' = b := Option.some.inj (hb'.symm.trans hb)
          rw [← hentries] at hx
          cases List.mem_singleton.mp hx
          exact absurd hnew' hnew
    · rw [not_or] at hdeed
      refine iff_of_true (fun agent => ?_) fun b' hb' x _ hnew => ?_
      · exact (hchanges.count_le hdeed agent).trans (hcapped agent)
      · obtain rfl : b' = b := Option.some.inj (hb'.symm.trans hb)
        exact (hnew.elim hdeed.1 fun hr => hdeed.2 hr.1).elim

theorem capped_init : Capped .init := capped_iff.mpr fun _ => Nat.zero_le _

/-- The cap holds throughout just the runs that write for agents below the cap. -/
theorem capped_iff_hasRoom (sameOrg : AgentId → ColleagueId → Bool) (as : List Act) :
    Always (memoryStep sameOrg) Capped .init as
      ↔ Steps (memoryStep sameOrg) (HasRoom sameOrg) .init as :=
  always_iff_steps World.Valid (fun _ _ _ hw _ h _ => valid_step hw h)
    (fun _ _ _ hw hcapped h => capped_step hw hcapped h) valid_init capped_init as

def remark : MemoryContent := ⟨"a remark", by decide, by decide⟩

def remarkOp (n : Nat) : Op :=
  .apply (BitVec.ofNat 128 n) (BitVec.ofNat 128 n)
    (.write 1 .other remark .held false none .operator)

def remarks (n : Nat) : List Act := (List.range n).map fun i => .transact 0 (remarkOp i)

theorem remarkOp_ok {db : MemoryDb} {n : Nat}
    (hmemories : db.memories.find? (BitVec.ofNat 128 n) = none)
    (hjournal : db.journal.find? (BitVec.ofNat 128 n) = none) :
    ∃ db', (remarkOp n).run (fun _ _ => true) 0 db = .ok db' := by
  let e : MemoryEvent := ⟨BitVec.ofNat 128 n, 1, BitVec.ofNat 128 n, .operator, 0,
    .write remark .other .held false none⟩
  obtain ⟨db₁, hevent⟩ := MemoryDb.insertEvent_isOk (e := e) hjournal
  have hsame := (MemoryDb.insertEvent_ok hevent).2.1
  have hfree : db₁.memories.find? (e.minted remark .other .held false none).id = none :=
    hsame ▸ hmemories
  obtain ⟨db₂, hrow⟩ := MemoryDb.insertRow_isOk hfree
  have hwrite : applyWrite (fun _ _ => true) 0 e.id db e.id 1 .other remark .held false none
      .operator = .ok (⟨e.id, e.id, some (e.minted remark .other .held false none)⟩, db₂) :=
    bind_eq_ok.mpr ⟨(), rfl, bind_eq_ok.mpr ⟨db₁, hevent, bind_eq_ok.mpr ⟨db₂, hrow, rfl⟩⟩⟩
  exact ⟨db₂, map_eq_ok.mpr ⟨_, bind_eq_ok.mpr ⟨(), rfl, hwrite⟩, rfl⟩⟩

theorem remarks_run (n : Nat) (hn : n ≤ 2 ^ 64) :
    ∃ w, run (memoryStep fun _ _ => true) .init (remarks n) = some w ∧ w.Valid
      ∧ w.db.count 1 = n
      ∧ (∀ e ∈ w.db.journal, e.id.toNat < n ∧ e.targetMemoryId.toNat < n) := by
  induction n with
  | zero => exact ⟨.init, rfl, valid_init, rfl, fun e he => absurd he (Table.not_mem_empty e)⟩
  | succ n ih =>
    obtain ⟨w, hw, hvalid, hcount, hids⟩ := ih (by omega)
    have hlt : n < 2 ^ 128 := by omega
    have htoNat : (BitVec.ofNat 128 n).toNat = n := by
      rw [BitVec.toNat_ofNat, Nat.mod_eq_of_lt hlt]
    have hnew : ∀ e ∈ w.db.journal, e.id ≠ BitVec.ofNat 128 n
        ∧ e.targetMemoryId ≠ BitVec.ofNat 128 n := by
      intro e he
      obtain ⟨hid, htarget⟩ := hids e he
      constructor <;> intro heq
      · rw [heq, htoNat] at hid
        exact lt_irrefl _ hid
      · rw [heq, htoNat] at htarget
        exact lt_irrefl _ htarget
    have hjournal : w.db.journal.find? (BitVec.ofNat 128 n) = none :=
      Table.find?_eq_none.mpr fun e he => (hnew e he).1
    have hmemories : w.db.memories.find? (BitVec.ofNat 128 n) = none := by
      by_contra hsome
      obtain ⟨row, hrow⟩ := Option.ne_none_iff_exists'.mp hsome
      obtain ⟨e, he, htarget, -⟩ := hvalid.journaled _ row hrow
      exact (hnew e he).2 htarget
    obtain ⟨db, hdb⟩ := remarkOp_ok hmemories hjournal
    have hfresh : (remarkOp n).fresh w.db = true :=
      List.all_eq_true.mpr fun e he => decide_eq_true (hnew e he).2
    have hstep : memoryStep (fun _ _ => true) w (.transact 0 (remarkOp n)) = some { w with db } := by
      simp [memoryStep, hfresh, World.commit, hdb]
    obtain ⟨⟨out, db₁⟩, hrun, rfl⟩ := map_eq_ok.mp hdb
    obtain ⟨payload, hjournaled⟩ := apply_journaled hrun
    refine ⟨_, ?_, valid_step hvalid hstep, ?_, fun e he => ?_⟩
    · rw [remarks, List.range_succ, List.map_append, run_append]
      rw [remarks] at hw
      rw [hw, Option.bind_some, List.map_singleton, run_step hstep, run_nil]
    · have hc := hjournaled.count 1
      obtain ⟨hbefore, hafter⟩ := hjournaled.outcome.one_eq (.inl rfl) 1
      rw [hbefore, hafter, hcount] at hc
      exact hc
    · rcases (Changes.single hjournaled).mem_journal.mp he with he | he
      · obtain ⟨hid, htarget⟩ := hids e he
        exact ⟨by omega, by omega⟩
      · cases List.mem_singleton.mp he
        exact ⟨Nat.lt_succ_of_le (Nat.le_of_eq htoNat), Nat.lt_succ_of_le (Nat.le_of_eq htoNat)⟩

/-- No write looks at the cap: after one more than it, the list cannot be read. -/
theorem cap_overshot : ¬ ∀ (sameOrg : AgentId → ColleagueId → Bool) (as : List Act),
    Always (memoryStep sameOrg) Capped .init as := by
  intro h
  obtain ⟨w, hrun, -, hcount, -⟩ := remarks_run (MAX_MEMORIES_PER_AGENT + 1) (by decide)
  have hle := ((h _ _).run hrun 1).1
  rw [hcount] at hle
  exact absurd hle (by decide)

end Patom.Memory
