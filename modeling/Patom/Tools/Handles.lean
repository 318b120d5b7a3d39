import Patom.Tools.Memory

open Patom.Foundation
open Patom.Memory (MemoryDb MemoryHandle MemoryId MemoryRow MemorySection SubjectNames)
open Patom.Memory.MemoryDb (KeepsPlace keepsPlace_iff loadStable_isOk resolveHandle_loadStable)

namespace Patom.Tools

section Defs

variable (ctx : MemoryCallContext) (deps : MemoryToolDeps) (i : MemoryCall × Supply)

def resolved : Option (MemoryHandle × MemoryId) :=
  i.1.handle.bind fun raw => (locate ctx i.2 deps raw).1.toOption.map (·.2)

/-- A handle is resolved to what it denotes in a section, or not at all. -/
def Resolves (s : MemorySection) : Prop :=
  ∀ p ∈ resolved ctx deps i, s.resolveHandle p.1 = some p.2

def asked : Option MemoryHandle :=
  i.1.handle.bind fun raw =>
    match (checkCap deps.counter ctx.requestId).1 with
    | .ok () => (MemoryHandle.parse raw).toOption
    | .error _ => none

/-- Since a state of the memories, as many rows have come ahead of the one that a call is about as
have left from there. -/
def Undisturbed (agent : AgentId) (db₀ : MemoryDb) : Prop :=
  ∀ handle ∈ asked ctx deps i, (db₀.resolveReservedPair ctx.kindPayload).length < handle.get →
    KeepsPlace agent (db₀.resolveReservedPair ctx.kindPayload) db₀ deps.db
      (handle.get - ((db₀.resolveReservedPair ctx.kindPayload).length + 1))

end Defs

variable {ctx : MemoryCallContext} {deps : MemoryToolDeps} {i : MemoryCall × Supply}
  {agent : AgentId}

theorem mem_resolved_iff (hagent : ctx.viewer.agentId? = some agent) {handle : MemoryHandle}
    {id : MemoryId} : (handle, id) ∈ resolved ctx deps i ↔ handle ∈ asked ctx deps i
      ∧ deps.db.resolveHandle i.2.roster agent ctx.kindPayload handle = .ok (some id) := by
  obtain ⟨call, supply⟩ := i
  unfold resolved asked
  cases call.handle with
  | none => simp
  | some raw =>
    have hlocated : (handle, id) ∈ (locate ctx supply deps raw).1.toOption.map (·.2)
        ↔ (locate ctx supply deps raw).1 = .ok (agent, handle, id) := by
      cases hl : (locate ctx supply deps raw).1 with
      | error e => simp [Except.toOption]
      | ok found =>
        obtain ⟨agent', handle', id'⟩ := found
        have hagent' := (locate_ok_iff.mp hl).1
        simp [Except.toOption, Option.some.inj (hagent.symm.trans hagent')]
    rw [Option.bind_some, hlocated, locate_ok_iff, Option.bind_some]
    cases (checkCap deps.counter ctx.requestId).1 with
    | error e => simp
    | ok _ => cases MemoryHandle.parse raw <;> simp [Except.toOption, hagent]

theorem resolves_step_iff (hagent : ctx.viewer.agentId? = some agent) {db₀ : MemoryDb}
    {roster : SubjectNames} {s : MemorySection}
    (hs : db₀.loadStable roster agent ctx.kindPayload = .ok s) (hpairs : SamePairs db₀ deps.db) :
    Resolves ctx deps i s ↔ Undisturbed ctx deps i agent db₀ := by
  have hdenotes := resolveHandle_loadStable hs
  have hpair := hpairs ctx.kindPayload
  generalize hreserved : db₀.resolveReservedPair ctx.kindPayload = reserved at hdenotes hpair
  have hresolves : Resolves ctx deps i s ↔ ∀ handle ∈ asked ctx deps i, ∀ id,
      deps.db.resolveHandle i.2.roster agent ctx.kindPayload handle = .ok (some id) →
        s.resolveHandle handle = some id := by
    constructor
    · exact fun h handle hasked id hid => h (handle, id) ((mem_resolved_iff hagent).mpr ⟨hasked, hid⟩)
    · rintro h ⟨handle, id⟩ hp
      obtain ⟨hasked, hid⟩ := (mem_resolved_iff hagent).mp hp
      exact h handle hasked id hid
  rw [hresolves, Undisturbed, hreserved]
  refine forall₂_congr fun handle _ => ?_
  rw [keepsPlace_iff]
  cases hload : deps.db.loadStable i.2.roster agent ctx.kindPayload with
  | error e =>
    have hempty : deps.db.shown agent reserved = [] := by
      cases hlist : deps.db.list agent with
      | error e => rw [MemoryDb.shown, hlist]
      | ok rows =>
        obtain ⟨s', hs'⟩ : ∃ s', deps.db.loadStable i.2.roster agent ctx.kindPayload = .ok s' :=
          loadStable_isOk hlist
        cases hload.symm.trans hs'
    simp [MemoryDb.resolveHandle, hload, hempty, bind, Except.bind]
  | ok s' =>
    have hnow := resolveHandle_loadStable hload handle
    have hresolve : deps.db.resolveHandle i.2.roster agent ctx.kindPayload handle
        = .ok (s'.resolveHandle handle) := by
      rw [MemoryDb.resolveHandle, hload]
      rfl
    rw [hpair] at hnow
    rw [hresolve, hnow, hdenotes handle]
    by_cases hle : handle.get ≤ reserved.length
    · simp [hle, hle.not_gt]
    · simp [hle, not_le.mp hle]

/-- In a response every handle is resolved to what it denotes in the section of its request, or
not at all, exactly if no call comes after ones that have changed how many rows are ahead of the
row it is about. -/
theorem resolves_iff_undisturbed (sameOrg : AgentId → ColleagueId → Bool)
    (hagent : ctx.viewer.agentId? = some agent) {roster : SubjectNames} {s : MemorySection}
    (hs : deps.db.loadStable roster agent ctx.kindPayload = .ok s)
    (calls : List (MemoryCall × Supply)) :
    Steps (memoryCallStep sameOrg ctx) (fun deps' i => Resolves ctx deps' i s) deps calls ↔
      Steps (memoryCallStep sameOrg ctx) (fun deps' i => Undisturbed ctx deps' i agent deps.db)
        deps calls :=
  steps_iff_steps (fun deps' => SamePairs deps.db deps'.db)
    (fun _ _ _ hpairs hstep kindPayload =>
      (memoryCallStep_samePairs hstep kindPayload).trans (hpairs kindPayload))
    (fun _ _ _ hpairs _ => resolves_step_iff hagent hs hpairs) (fun _ => rfl) calls

instance (s : MemorySection) : DecidablePred fun p : MemoryHandle × MemoryId =>
    s.resolveHandle p.1 = some p.2 := fun _ => inferInstance

instance (deps : MemoryToolDeps) (i : MemoryCall × Supply) (s : MemorySection) :
    Decidable (Resolves ctx deps i s) :=
  inferInstanceAs (Decidable (∀ p ∈ resolved ctx deps i, s.resolveHandle p.1 = some p.2))

def note (n : Nat) : MemoryCall × Supply :=
  (.write .identity "be brief" none, ⟨n, BitVec.ofNat 128 n, BitVec.ofNat 128 n, fun _ => none⟩)

def strike (n : Nat) (handle : String) : MemoryCall × Supply :=
  (.forget handle, ⟨n, BitVec.ofNat 128 n, BitVec.ofNat 128 n, fun _ => none⟩)

def scribe : MemoryCallContext where
  orgId := 1
  actingUserId := 1
  threadId := none
  viewer := .agent 1 1
  rootRequestId := 1
  requestId := 1
  kindPayload := .normal

theorem noted (calls : List (MemoryCall × Supply)) (b : Bool)
    (h : ((run (memoryCallStep (fun _ _ => true) scribe) ⟨.empty, .mutations⟩
        [note 1, note 2, note 3]).bind fun deps =>
          (deps.db.loadStable (fun _ => none) 1 .normal).toOption.map fun s =>
            decide (Steps (memoryCallStep (fun _ _ => true) scribe)
              (fun deps' i => Resolves scribe deps' i s) deps calls)) = some b) :
    ∃ deps s,
      run (memoryCallStep (fun _ _ => true) scribe) ⟨.empty, .mutations⟩ [note 1, note 2, note 3]
          = some deps
        ∧ deps.db.loadStable (fun _ => none) 1 .normal = .ok s
        ∧ (Steps (memoryCallStep (fun _ _ => true) scribe)
            (fun deps' i => Resolves scribe deps' i s) deps calls ↔ b = true) := by
  obtain ⟨deps, hdeps, hload⟩ := Option.bind_eq_some_iff.mp h
  obtain ⟨s, hs, hsteps⟩ := Option.map_eq_some_iff.mp hload
  exact ⟨deps, s, hdeps, toOption_eq_some.mp hs, by rw [← hsteps, decide_eq_true_iff]⟩

theorem other_forgotten : ∃ deps s,
    run (memoryCallStep (fun _ _ => true) scribe) ⟨.empty, .mutations⟩ [note 1, note 2, note 3]
        = some deps
      ∧ deps.db.loadStable (fun _ => none) 1 .normal = .ok s
      ∧ ¬ Steps (memoryCallStep (fun _ _ => true) scribe)
          (fun deps' i => Resolves scribe deps' i s) deps [strike 4 "M-1", strike 5 "M-2"] := by
  obtain ⟨deps, s, hdeps, hs, hsteps⟩ :=
    noted [strike 4 "M-1", strike 5 "M-2"] false (by decide +kernel)
  exact ⟨deps, s, hdeps, hs, by simp [hsteps]⟩

theorem last_first_undisturbed : ∃ deps s,
    run (memoryCallStep (fun _ _ => true) scribe) ⟨.empty, .mutations⟩ [note 1, note 2, note 3]
        = some deps
      ∧ deps.db.loadStable (fun _ => none) 1 .normal = .ok s
      ∧ Steps (memoryCallStep (fun _ _ => true) scribe)
          (fun deps' i => Undisturbed scribe deps' i 1 deps.db) deps
          [strike 4 "M-3", strike 5 "M-2"] := by
  obtain ⟨deps, s, hdeps, hs, hsteps⟩ :=
    noted [strike 4 "M-3", strike 5 "M-2"] true (by decide +kernel)
  exact ⟨deps, s, hdeps, hs,
    (resolves_iff_undisturbed (fun _ _ => true) rfl hs _).mp (hsteps.mpr rfl)⟩

end Patom.Tools
