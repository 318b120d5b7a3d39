import Patom.Scheduling.Cancellation

/-! The cap on the active tasks of an agent.  A creation counts them under a lock of the agent and
commits its row later; cancels and the write-backs of fires take no such lock. -/

open Patom.Foundation

namespace Patom.Scheduling

/-- A creation that holds the lock of its owner, and whether it has counted. -/
structure Creation where
  payload : NewScheduledTask
  counted : Bool

instance creationKeyed : Keyed Creation AgentId := ⟨(·.payload.ownerAgentId)⟩

structure Capped where
  base : St
  creations : Table Creation

def Capped.init : Capped := ⟨.init, .empty⟩

inductive CapAct
  | base (a : Act)
  | lock (payload : NewScheduledTask)
  | count (owner : AgentId)
  | insert (owner : AgentId) (id : ScheduledTaskId) (now : Time)
  | rollback (owner : AgentId)

def insertTask (id : ScheduledTaskId) (now : Time) (payload : NewScheduledTask)
    (tasks : ScheduledTasks) : Except ScheduledTaskError ScheduledTasks :=
  let row : ScheduledTaskRecord :=
    { payload with
      id, lastFiredAt := none, lastRequestId := none, state := .active, createdAt := now,
      updatedAt := now }
  match tasks.insert? row with
  | none => .error (.db "scheduled_tasks_pkey")
  | some tasks => .ok tasks

def Act.creates : Act → Bool
  | .create .. => true
  | _ => false

def Capped.unlock (s : Capped) (owner : AgentId) : Capped :=
  { s with creations := s.creations.delete fun c => c.payload.ownerAgentId = owner }

def Capped.counting (s : Capped) (owner : AgentId) : Nat :=
  if (s.creations.find? owner).any (·.counted) then 1 else 0

section Step

variable (env : Env)

def capStep : Step Capped CapAct
  | s, .base a => if a.creates then none else (step env s.base a).map fun base => { s with base }
  | s, .lock payload =>
    (s.creations.insert? ⟨payload, false⟩).map fun creations => { s with creations }
  | s, .count owner => (s.creations.find? owner).bind fun c =>
    if c.counted then none
    else if MAX_SCHEDULED_TASKS_PER_AGENT ≤ activeCount owner s.base.tasks then
      some (s.unlock owner)
    else some { s with creations := s.creations.put { c with counted := true } }
  | s, .insert owner id now => (s.creations.find? owner).bind fun c =>
    if c.counted then
      match insertTask id now c.payload s.base.tasks with
      | .ok tasks => some { s.unlock owner with base := { s.base with tasks } }
      | .error _ => some (s.unlock owner)
    else none
  | s, .rollback owner => some (s.unlock owner)

def CapHolds (s : Capped) : Prop :=
  ∀ owner, activeCount owner s.base.tasks ≤ MAX_SCHEDULED_TASKS_PER_AGENT

def Headroom (s : Capped) : Prop :=
  ∀ owner, activeCount owner s.base.tasks + s.counting owner ≤ MAX_SCHEDULED_TASKS_PER_AGENT

/-- The write-back of a fire makes a task that has become inactive active again only while its owner
is below the cap, with the creation that may be on its way. -/
def RevivesWithin (s : Capped) : CapAct → Prop
  | .base (.recordFired w _) => ∀ tick ∈ s.base.ticks.find? w, ∀ task ∈ tick.due.head?,
      ∀ r ∈ s.base.tasks.find? task.id, r.state ≠ .active →
      (task.schedule.nextAfter env.calendar tick.now).isSome →
      activeCount r.ownerAgentId s.base.tasks + s.counting r.ownerAgentId <
        MAX_SCHEDULED_TASKS_PER_AGENT
  | _ => True

instance revivesWithinDecidable (s : Capped) (a : CapAct) : Decidable (RevivesWithin env s a) := by
  unfold RevivesWithin
  split <;> infer_instance

end Step

def ScheduledTaskRecord.active (owner : AgentId) (r : ScheduledTaskRecord) : Nat :=
  if r.ownerAgentId = owner ∧ r.state = .active then 1 else 0

section Counts

variable {tasks tasks' : ScheduledTasks} {owner : AgentId}

theorem activeCount_modify {f : ScheduledTaskRecord → ScheduledTaskRecord}
    {hf : ∀ r, key (f r) = key r} {id : ScheduledTaskId} {r : ScheduledTaskRecord}
    (hr : tasks.find? id = some r) (hother : ∀ x : ScheduledTaskRecord, x.id ≠ id → f x = x) :
    activeCount owner (tasks.modify f hf) + r.active owner =
      activeCount owner tasks + (f r).active owner := by
  have hframe (id' : ScheduledTaskId) (hne : id' ≠ id) :
      (tasks.modify f hf).find? id' = tasks.find? id' := by
    rw [Table.find?_modify]
    cases hx : tasks.find? id' with
    | none => rfl
    | some x =>
      have hkey : x.id = id' := Table.key_of_find? hx
      rw [Option.map_some, hother x (hkey ▸ hne)]
  have hcount := Table.countP_frame hframe
    fun r : ScheduledTaskRecord => r.ownerAgentId = owner ∧ r.state = .active
  rw [Table.find?_modify, hr, Option.map_some, Option.toList_some, Option.toList_some,
    List.countP_singleton, List.countP_singleton] at hcount
  simpa only [decide_eq_true_eq, activeCount, ScheduledTaskRecord.active] using hcount

theorem activeCount_insertTask {id : ScheduledTaskId} {now : Time} {payload : NewScheduledTask}
    (h : insertTask id now payload tasks = .ok tasks') :
    activeCount owner tasks' =
      activeCount owner tasks + if payload.ownerAgentId = owner then 1 else 0 := by
  unfold insertTask at h
  simp only at h
  split at h
  case h_1 => cases h
  case h_2 hins =>
    cases h
    rw [activeCount, Table.rows_insert? hins, List.countP_append, List.countP_singleton]
    simp [activeCount]

theorem activeCount_cancel {task : ScheduledTaskId} {agent : AgentId} {now : Time}
    (h : cancel task agent now tasks = .ok tasks') :
    activeCount owner tasks' ≤ activeCount owner tasks := by
  obtain ⟨r, hr, ⟨-, rfl⟩ | ⟨-, rfl⟩⟩ := cancel_ok h
  · have hid : r.id = task := Table.key_of_find? hr
    have hcount : activeCount owner
          (tasks.modify (setCancelled task now) (setCancelled_key task now)) + r.active owner =
        activeCount owner tasks + (setCancelled task now r).active owner :=
      activeCount_modify hr fun x hx => if_neg hx
    have hnone : (setCancelled task now r).active owner = 0 := by
      simp [setCancelled, hid, ScheduledTaskRecord.active]
    omega
  · exact Nat.le_refl _

theorem activeCount_recordFired {task : ScheduledTaskId} {request : Runtime.PromptRequestId}
    {firedAt now : Time} {next : Option Time} {r : ScheduledTaskRecord}
    (hr : tasks.find? task = some r) :
    activeCount owner (recordFired task request firedAt next now tasks) + r.active owner =
      activeCount owner tasks + if r.ownerAgentId = owner ∧ next.isSome then 1 else 0 := by
  have hid : r.id = task := Table.key_of_find? hr
  have hcount : activeCount owner (recordFired task request firedAt next now tasks) +
      r.active owner =
        activeCount owner tasks + (setFired task request firedAt next now r).active owner :=
    activeCount_modify hr fun x hx => if_neg hx
  rw [hcount]
  cases next <;> simp [setFired, hid, ScheduledTaskRecord.active]

theorem recordFired_absent {task : ScheduledTaskId} {request : Runtime.PromptRequestId}
    {firedAt now : Time} {next : Option Time} (h : tasks.find? task = none) :
    recordFired task request firedAt next now tasks = tasks :=
  Table.modify_eq_self _ fun r hr => if_neg (Table.find?_eq_none.mp h r hr)

end Counts

section Counting

variable {s : Capped} {owner : AgentId}

theorem find?_unlock (s : Capped) (owner agent : AgentId) :
    (s.unlock owner).creations.find? agent =
      if agent = owner then none else s.creations.find? agent := by
  unfold Capped.unlock
  rw [Table.find?_delete]
  cases hc : s.creations.find? agent with
  | none => simp
  | some c =>
    have hkey : c.payload.ownerAgentId = agent := Table.key_of_find? hc
    by_cases e : agent = owner <;> simp [hkey, e]

theorem counting_unlock (s : Capped) (owner agent : AgentId) :
    (s.unlock owner).counting agent = if agent = owner then 0 else s.counting agent := by
  unfold Capped.counting
  rw [find?_unlock]
  by_cases e : agent = owner <;> simp [e]

theorem counting_of_find? {c : Creation} (h : s.creations.find? owner = some c) :
    s.counting owner = if c.counted then 1 else 0 := by
  rw [Capped.counting, h, Option.any_some]

end Counting

inductive CapStepped (env : Env) (s : Capped) : CapAct → Capped → Prop
  | base {a base} (hcreates : a.creates = false) (h : Stepped env s.base a base) :
      CapStepped env s (.base a) { s with base }
  | lock {payload creations} (h : s.creations.insert? ⟨payload, false⟩ = some creations) :
      CapStepped env s (.lock payload) { s with creations }
  | count {owner c} (hc : s.creations.find? owner = some c)
      (hroom : activeCount owner s.base.tasks < MAX_SCHEDULED_TASKS_PER_AGENT) :
      CapStepped env s (.count owner)
        { s with creations := s.creations.put { c with counted := true } }
  | insert {owner id now c tasks} (hc : s.creations.find? owner = some c) (hcounted : c.counted)
      (h : insertTask id now c.payload s.base.tasks = .ok tasks) :
      CapStepped env s (.insert owner id now) { s.unlock owner with base := { s.base with tasks } }
  | unlocks {a owner} (h : ∀ b, a ≠ .base b) : CapStepped env s a (s.unlock owner)

theorem capStep_stepped {env : Env} {s t : Capped} {a : CapAct} (h : capStep env s a = some t) :
    CapStepped env s a t := by
  cases a with
  | base a =>
    simp only [capStep, Option.ite_none_left_eq_some, Option.map_eq_some_iff] at h
    obtain ⟨hcreates, base, hbase, rfl⟩ := h
    exact .base (Bool.eq_false_iff.mpr hcreates) (step_stepped hbase)
  | lock payload =>
    obtain ⟨creations, hins, rfl⟩ := Option.map_eq_some_iff.mp h
    exact .lock hins
  | count owner =>
    obtain ⟨c, hc, h⟩ := Option.bind_eq_some_iff.mp h
    simp only [Option.ite_none_left_eq_some] at h
    obtain ⟨-, h⟩ := h
    split at h
    case isTrue =>
      cases h
      exact .unlocks (by rintro _ ⟨⟩)
    case isFalse hroom =>
      cases h
      exact .count hc (Nat.not_le.mp hroom)
  | insert owner id now =>
    obtain ⟨c, hc, h⟩ := Option.bind_eq_some_iff.mp h
    simp only [Option.ite_none_right_eq_some] at h
    obtain ⟨hcounted, h⟩ := h
    split at h
    case h_1 hins =>
      cases h
      exact .insert hc hcounted hins
    case h_2 =>
      cases h
      exact .unlocks (by rintro _ ⟨⟩)
  | rollback owner =>
    cases h
    exact .unlocks (by rintro _ ⟨⟩)

theorem activeCount_step {env : Env} {s t : St} {a : Act} (hcreates : a.creates = false)
    (h : Stepped env s a t) (hfired : ∀ w now, a ≠ .recordFired w now) (owner : AgentId) :
    activeCount owner t.tasks ≤ activeCount owner s.tasks := by
  cases h with
  | create => cases hcreates
  | cancel hcancel => exact activeCount_cancel hcancel
  | @recordFired w now => exact absurd rfl (hfired w now)
  | _ => exact Nat.le_refl _

theorem headroom_recordFired {s : Capped} (hroom : Headroom s) {task : ScheduledTaskId}
    {r : ScheduledTaskRecord} (hr : s.base.tasks.find? task = some r)
    (request : Runtime.PromptRequestId) (firedAt now : Time) (next : Option Time) :
    (∀ owner, activeCount owner (recordFired task request firedAt next now s.base.tasks) +
        s.counting owner ≤ MAX_SCHEDULED_TASKS_PER_AGENT) ↔
      (r.state ≠ .active → next.isSome →
        activeCount r.ownerAgentId s.base.tasks + s.counting r.ownerAgentId <
          MAX_SCHEDULED_TASKS_PER_AGENT) := by
  have hcount (owner : AgentId) :
      activeCount owner (recordFired task request firedAt next now s.base.tasks) + r.active owner =
        activeCount owner s.base.tasks + if r.ownerAgentId = owner ∧ next.isSome then 1 else 0 :=
    activeCount_recordFired hr
  constructor
  · intro h hstate hnext
    have hown := hcount r.ownerAgentId
    have hle := h r.ownerAgentId
    rw [ScheduledTaskRecord.active, if_neg fun e => hstate e.2, if_pos ⟨rfl, hnext⟩] at hown
    omega
  · intro h owner
    have hown := hcount owner
    have hle := hroom owner
    by_cases hrevives : r.ownerAgentId = owner ∧ next.isSome
    · obtain ⟨rfl, hnext⟩ := hrevives
      rw [if_pos ⟨rfl, hnext⟩] at hown
      by_cases hstate : r.state = .active
      · rw [ScheduledTaskRecord.active, if_pos ⟨rfl, hstate⟩] at hown
        omega
      · have hlt := h hstate hnext
        omega
    · rw [if_neg hrevives] at hown
      omega

theorem headroom_step {env : Env} {s t : Capped} {a : CapAct} (hroom : Headroom s)
    (hstep : capStep env s a = some t) : Headroom t ↔ RevivesWithin env s a := by
  cases capStep_stepped hstep with
  | @base a base hcreates hbase =>
    have hkept (hfired : ∀ w now, a ≠ .recordFired w now) : Headroom { s with base } := by
      intro owner
      have hcount := activeCount_step hcreates hbase hfired owner
      exact Nat.le_trans (Nat.add_le_add_right hcount _) (hroom owner)
    cases hbase with
    | @recordFired w now tick task rest request hfiring hpc =>
      cases hr : s.base.tasks.find? task.id with
      | none =>
        rw [recordFired_absent hr]
        refine iff_of_true hroom fun tick' htick task' htask r hr' => ?_
        obtain rfl := Option.some.inj (hfiring.found.symm.trans htick)
        rw [hfiring.head] at htask
        obtain rfl := Option.some.inj htask
        cases hr.symm.trans hr'
      | some r =>
        refine (headroom_recordFired hroom hr request _ now _).trans ?_
        constructor
        · intro h tick' htick task' htask r' hr'
          obtain rfl := Option.some.inj (hfiring.found.symm.trans htick)
          rw [hfiring.head] at htask
          obtain rfl := Option.some.inj htask
          obtain rfl := Option.some.inj (hr.symm.trans hr')
          exact h
        · exact fun h => h tick hfiring.found task (by rw [hfiring.head]; rfl) r hr
    | _ => exact iff_of_true (hkept (by rintro _ _ ⟨⟩)) trivial
  | @lock payload creations hins =>
    refine iff_of_true (fun owner => ?_) trivial
    have hsame : Capped.counting { s with creations } owner = s.counting owner := by
      unfold Capped.counting
      rw [Table.find?_insert? hins]
      split
      case isTrue e =>
        have hnone := Table.insert?_isSome.mp (Option.isSome_of_eq_some hins)
        rw [e] at hnone
        rw [hnone]
        rfl
      case isFalse => rfl
    rw [hsame]
    exact hroom owner
  | @count agent c hc hlt =>
    refine iff_of_true (fun owner => ?_) trivial
    have hkey : c.payload.ownerAgentId = agent := Table.key_of_find? hc
    unfold Capped.counting
    rw [Table.find?_put]
    split
    case isTrue e =>
      obtain rfl : agent = owner := hkey.symm.trans e
      exact hlt
    case isFalse => exact hroom owner
  | @insert agent id now c tasks hc hcounted hins =>
    refine iff_of_true (fun owner => ?_) trivial
    have hkey : c.payload.ownerAgentId = agent := Table.key_of_find? hc
    have hcount : activeCount owner tasks =
        activeCount owner s.base.tasks + if c.payload.ownerAgentId = owner then 1 else 0 :=
      activeCount_insertTask hins
    have hold := hroom owner
    have hnew := counting_unlock s agent owner
    change activeCount owner tasks + (s.unlock agent).counting owner ≤ _
    by_cases e : owner = agent
    · subst e
      rw [if_pos hkey] at hcount
      rw [if_pos rfl] at hnew
      rw [counting_of_find? hc, if_pos hcounted] at hold
      omega
    · rw [if_neg fun e' => e (e'.symm.trans hkey)] at hcount
      rw [if_neg e] at hnew
      omega
  | @unlocks a agent h =>
    refine iff_of_true (fun owner => ?_) ?_
    · have hnew := counting_unlock s agent owner
      have hold := hroom owner
      change activeCount owner s.base.tasks + (s.unlock agent).counting owner ≤ _
      split at hnew <;> omega
    · cases a with
      | base b => exact absurd rfl (h b)
      | _ => trivial

theorem headroom_iff_revivesWithin (env : Env) (as : List CapAct) :
    Always (capStep env) Headroom .init as ↔ Steps (capStep env) (RevivesWithin env) .init as :=
  always_iff_steps (fun _ => True) (fun _ _ _ _ _ _ _ => trivial)
    (fun _ _ _ _ hroom hstep => headroom_step hroom hstep) trivial (fun _ => Nat.zero_le _) as

/-- The cap holds throughout every schedule whose write-backs revive no task at the cap. -/
theorem capHolds_of_revivesWithin (env : Env) (as : List CapAct)
    (h : Steps (capStep env) (RevivesWithin env) .init as) :
    Always (capStep env) CapHolds .init as :=
  ((headroom_iff_revivesWithin env as).mpr h).mono fun _ hroom owner =>
    Nat.le_trans (Nat.le_add_right _ _) (hroom owner)

namespace Sample

def later : NewScheduledTask :=
  { digest with nextRunAt := some (fiveOClock + Duration.fromSecs 604800) }

def created (id : ScheduledTaskId) (payload : NewScheduledTask) : List CapAct :=
  [.lock payload, .count payload.ownerAgentId, .insert payload.ownerAgentId id 0]

def fired (task : ScheduledTaskId) : List CapAct :=
  ([.claim 8 fiveOClock [task], .createThread 8 100, .participate 8 101, .seed 8 102,
    .enqueue 8 103 fiveOClock] : List Act).map .base

def revived : List CapAct :=
  created 7 digest ++ fired 7 ++ [.base (.cancel 7 3 fiveOClock), .base (.recordFired 8 fiveOClock)]

def filled : List CapAct :=
  created 0 digest ++ (List.range 49).flatMap (fun i => created (i + 1) later) ++ fired 0

def overfilled : List CapAct :=
  filled ++ [.base (.cancel 0 3 fiveOClock)] ++ created 50 later ++
    [.base (.recordFired 8 fiveOClock)]

end Sample

theorem capHolds_revived : (run (capStep Sample.deployment) .init Sample.revived).isSome ∧
    Always (capStep Sample.deployment) CapHolds .init Sample.revived :=
  ⟨by decide +kernel,
    capHolds_of_revivesWithin Sample.deployment Sample.revived (by decide +kernel)⟩

/-- Fifty-one tasks of one agent are active. -/
theorem cap_exceeded_by_recordFired : ∃ s,
    run (capStep Sample.deployment) .init Sample.overfilled = some s ∧
    activeCount 3 s.base.tasks = 51 ∧ ¬CapHolds s := by
  have hrun : (run (capStep Sample.deployment) .init Sample.overfilled).any fun s =>
      activeCount 3 s.base.tasks = 51 := by
    decide +kernel
  obtain ⟨s, hs, hcount⟩ := (Option.any_eq_true _ _).mp hrun
  have hcount := of_decide_eq_true hcount
  refine ⟨s, hs, hcount, fun h => ?_⟩
  have hle := h 3
  rw [hcount] at hle
  exact absurd hle (by decide)

end Patom.Scheduling
