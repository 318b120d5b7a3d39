import Patom.Threads.StreamPump

open Patom.Foundation

namespace Patom.Threads.StreamPump

theorem pumpIdleTtl_pos (p : Platform) : 0 < p.pumpIdleTtl := by
  cases p <;> decide

theorem firstPhase_listens (p : Platform) (now : Time) :
    (Supervisor.firstPhase p now).listens = true := by
  cases p <;> rfl

theorem lastPhase_listens (p : Platform) : (Supervisor.lastPhase p).listens = false := by
  cases p <;> rfl

variable {p : Platform} {s : Supervisor}

variable (p s) in
/-- An abort goes with its entry and its attach, and no deadline is earlier than the TTL after
the last event that was waited for. -/
structure PumpInv : Prop where
  entries : ∀ e ∈ s.live, ∃ task ∈ s.tasks[e.handle]?, task.thread = e.thread
  evicted : ∀ task ∈ s.tasks, task.listens → task.aborted →
    s.attached task.thread = none ∧ s.live.find? task.thread = none
  deadline : ∀ task ∈ s.tasks, ∀ d, task.phase = .reading d → ∀ w ∈ s.attached task.thread,
    w.until_ ≤ max (w.at_ + p.pumpIdleTtl) d
  bound : ∀ thread, ∀ w ∈ s.attached thread,
    w.at_ ≤ s.now ∧ w.at_ + p.pumpIdleTtl ≤ w.until_ ∧ w.until_ ≤ s.now + p.pumpIdleTtl
  down : s.stopped → ∀ thread, s.attached thread = none

theorem pumpInv_start (p : Platform) : PumpInv p .start where
  entries := by simp [Supervisor.start]
  evicted := by simp [Supervisor.start]
  deadline := by simp [Supervisor.start]
  bound := by simp [Supervisor.start]
  down := by simp [Supervisor.start]

theorem kept_start (p : Platform) : Kept p .start where
  listening := by simp [Due, Supervisor.start]
  single := by simp [Supervisor.start]
  newest := by simp [Supervisor.start]
  capped := Nat.zero_le _

def Tamed (s t : Supervisor) : Prop :=
  ∀ j : Nat, ∀ task' ∈ t.tasks[j]?, ∃ task ∈ s.tasks[j]?,
    task'.thread = task.thread ∧ (task'.listens → task.listens)

theorem Kept.single_of {t : Supervisor} (h : Kept p s) (htamed : Tamed s t) (j k : Nat) :
    ∀ task ∈ t.tasks[j]?, ∀ task' ∈ t.tasks[k]?, task.thread = task'.thread →
      task.listens → task'.listens → j = k := by
  intro task htask task' htask' hthread hlisten hlisten'
  obtain ⟨old, hold, hthread₁, hlisten₁⟩ := htamed j task htask
  obtain ⟨old', hold', hthread₂, hlisten₂⟩ := htamed k task' htask'
  refine h.single j k old hold old' hold' ?_ (hlisten₁ hlisten) (hlisten₂ hlisten')
  rw [← hthread₁, ← hthread₂, hthread]

theorem Kept.newest_of {t : Supervisor} (h : Kept p s) (htamed : Tamed s t)
    (hlive : ∀ e ∈ t.live, e ∈ s.live) :
    ∀ e ∈ t.live, ∀ j : Nat, ∀ task ∈ t.tasks[j]?, task.thread = e.thread → j ≤ e.handle := by
  intro e he j task htask hthread
  obtain ⟨old, hold, hthread', -⟩ := htamed j task htask
  exact h.newest e (hlive e he) j old hold (hthread' ▸ hthread)

section Phases

variable {i : Nat} {task : Task} {phase : Phase}

theorem getElem?_setPhase (s : Supervisor) (i : Nat) (phase : Phase) (j : Nat) :
    (s.setPhase i phase).tasks[j]? =
      s.tasks[j]?.map fun task => if i = j then { task with phase } else task := by
  simp only [Supervisor.setPhase, List.getElem?_modify]
  split <;> simp

theorem mem_setPhase (ht : task ∈ s.tasks[i]?) {task' : Task}
    (h : task' ∈ (s.setPhase i phase).tasks) :
    task' = { task with phase } ∨ task' ∈ s.tasks := by
  obtain ⟨j, hj⟩ := List.mem_iff_getElem?.mp h
  rw [getElem?_setPhase, Option.map_eq_some_iff] at hj
  obtain ⟨old, hold, rfl⟩ := hj
  by_cases e : i = j
  · subst e
    rw [Option.mem_def, hold, Option.some.injEq] at ht
    simp [ht]
  · rw [if_neg e]
    exact .inr (List.mem_of_getElem? hold)

theorem tamed_setPhase (ht : task ∈ s.tasks[i]?) (hlistens : phase.listens → task.listens) :
    Tamed s (s.setPhase i phase) := by
  intro j task' htask'
  rw [getElem?_setPhase, Option.mem_def, Option.map_eq_some_iff] at htask'
  obtain ⟨old, hold, rfl⟩ := htask'
  refine ⟨old, hold, ?_⟩
  split
  case isTrue e =>
    subst e
    rw [Option.mem_def, hold, Option.some.injEq] at ht
    exact ⟨rfl, ht ▸ hlistens⟩
  case isFalse => exact ⟨rfl, id⟩

theorem PumpInv.setPhase (h : PumpInv p s) (ht : task ∈ s.tasks[i]?)
    (hlistens : phase.listens → task.listens)
    (hdeadline : ∀ d, phase = .reading d → s.now + p.pumpIdleTtl ≤ d) :
    PumpInv p (s.setPhase i phase) where
  entries e he := by
    obtain ⟨old, hold, hthread⟩ := h.entries e he
    rw [Option.mem_def] at hold
    rw [getElem?_setPhase, hold]
    refine ⟨_, rfl, ?_⟩
    split <;> exact hthread
  evicted task' htask' hlisten haborted := by
    obtain rfl | hold := mem_setPhase ht htask'
    · exact h.evicted task (List.mem_of_getElem? ht) (hlistens hlisten) haborted
    · exact h.evicted task' hold hlisten haborted
  deadline task' htask' d hd w hw := by
    obtain rfl | hold := mem_setPhase ht htask'
    · exact le_max_of_le_right (le_trans (h.bound _ w hw).2.2 (hdeadline d hd))
    · exact h.deadline task' hold d hd w hw
  bound := h.bound
  down := h.down

theorem Kept.setPhase_iff (h : Kept p s) (ht : task ∈ s.tasks[i]?)
    (hlistens : phase.listens → task.listens) :
    Kept p (s.setPhase i phase) ↔
      (task.listens → phase.listens = false → ¬ Due s task.thread) := by
  constructor
  case mp =>
    rintro h' hold hnew hdue
    obtain ⟨task', htask', hthread, hlisten, -⟩ := h'.listening task.thread hdue
    obtain ⟨j, hj⟩ := List.mem_iff_getElem?.mp htask'
    rw [getElem?_setPhase, Option.map_eq_some_iff] at hj
    obtain ⟨old, hold', rfl⟩ := hj
    by_cases e : i = j
    · rw [if_pos e, Task.listens, hnew] at hlisten
      cases hlisten
    · rw [if_neg e] at hthread hlisten
      exact e (h.single i j task ht old hold' hthread.symm hold hlisten)
  case mpr =>
    intro hfree
    have htamed := tamed_setPhase ht hlistens
    refine ⟨fun thread hdue => ?_, fun j k => h.single_of htamed j k,
      h.newest_of htamed fun _ he => he, h.capped⟩
    obtain ⟨task', htask', hthread, hlisten, haborted⟩ := h.listening thread hdue
    obtain ⟨j, hj⟩ := List.mem_iff_getElem?.mp htask'
    refine ⟨if i = j then { task' with phase } else task', ?_, ?_, ?_, ?_⟩
    · refine List.mem_of_getElem? (i := j) ?_
      rw [getElem?_setPhase, hj, Option.map_some]
    · split <;> exact hthread
    · split
      case isTrue e =>
        subst e
        rw [Option.mem_def, hj, Option.some.injEq] at ht
        subst ht
        by_contra hnew
        exact hfree hlisten (by simpa [Task.listens] using hnew) (hthread ▸ hdue)
      case isFalse => exact hlisten
    · split <;> exact haborted

theorem Kept.setPhase (h : Kept p s) (ht : task ∈ s.tasks[i]?)
    (hlistens : phase.listens → task.listens)
    (hfree : task.listens → phase.listens = false → ¬ Due s task.thread) :
    Kept p (s.setPhase i phase) :=
  (h.setPhase_iff ht hlistens).mpr hfree

end Phases

section Map

variable {thread : ThreadId}

theorem mem_remove {e : Entry} : e ∈ (s.remove thread).live ↔ e ∈ s.live ∧ e.thread ≠ thread := by
  simp [Supervisor.remove]

theorem find?_remove (s : Supervisor) (thread thread' : ThreadId) :
    (s.remove thread).live.find? thread' =
      if thread' = thread then none else s.live.find? thread' := by
  rw [Supervisor.remove, Table.find?_delete]
  cases hfind : s.live.find? thread' with
  | none => simp
  | some e =>
    have hthread : e.thread = thread' := Table.key_of_find? hfind
    by_cases h : thread' = thread <;> simp [hthread, h]

theorem PumpInv.remove (h : PumpInv p s) (thread : ThreadId) : PumpInv p (s.remove thread) where
  entries e he := h.entries e (mem_remove.mp he).1
  evicted task ht hlisten haborted := by
    obtain ⟨hattached, hnone⟩ := h.evicted task ht hlisten haborted
    refine ⟨hattached, ?_⟩
    rw [find?_remove, hnone, ite_self]
  deadline := h.deadline
  bound := h.bound
  down := h.down

theorem Kept.remove (h : Kept p s) (thread : ThreadId) : Kept p (s.remove thread) where
  listening := h.listening
  single := h.single
  newest e he := h.newest e (mem_remove.mp he).1
  capped := Nat.le_trans (List.length_filter_le _ _) h.capped

theorem getElem?_abort (s : Supervisor) (i j : Nat) :
    (s.abort i).tasks[j]? =
      s.tasks[j]?.map fun task => if i = j then { task with aborted := true } else task := by
  simp only [Supervisor.abort, List.getElem?_modify]
  split <;> simp

theorem tamed_abort (s : Supervisor) (i : Nat) : Tamed s (s.abort i) := by
  intro j task' htask'
  rw [getElem?_abort, Option.mem_def, Option.map_eq_some_iff] at htask'
  obtain ⟨old, hold, rfl⟩ := htask'
  refine ⟨old, hold, ?_⟩
  split <;> exact ⟨rfl, id⟩

theorem mem_abort {i : Nat} {task' : Task} (h : task' ∈ (s.abort i).tasks) :
    ∃ task ∈ s.tasks, task'.thread = task.thread ∧ task'.phase = task.phase ∧
      (task'.aborted → task.aborted ∨ task ∈ s.tasks[i]?) := by
  obtain ⟨j, hj⟩ := List.mem_iff_getElem?.mp h
  rw [getElem?_abort, Option.map_eq_some_iff] at hj
  obtain ⟨old, hold, rfl⟩ := hj
  refine ⟨old, List.mem_of_getElem? hold, ?_⟩
  split
  case isTrue e => exact ⟨rfl, rfl, fun _ => .inr (e ▸ hold)⟩
  case isFalse => exact ⟨rfl, rfl, .inl⟩

def Supervisor.forget (s : Supervisor) (victim : ThreadId) : Supervisor :=
  { s.remove victim with attached := Function.update s.attached victim none }

theorem due_forget {victim : ThreadId} (h : Due (s.forget victim) thread) :
    thread ≠ victim ∧ Due s thread := by
  obtain ⟨w, hw, hlt⟩ := h
  simp only [Supervisor.forget, Function.update_apply] at hw
  split at hw
  case isTrue => cases hw
  case isFalse hne => exact ⟨hne, w, hw, hlt⟩

theorem attached_forget (s : Supervisor) (victim thread : ThreadId) :
    (s.forget victim).attached thread = if thread = victim then none else s.attached thread := by
  simp only [Supervisor.forget, Function.update_apply]

theorem PumpInv.forget (h : PumpInv p s) (victim : ThreadId) : PumpInv p (s.forget victim) where
  entries := (h.remove victim).entries
  evicted task ht hlisten haborted := by
    obtain ⟨hattached, hnone⟩ := h.evicted task ht hlisten haborted
    refine ⟨?_, ((h.remove victim).evicted task ht hlisten haborted).2⟩
    rw [attached_forget, hattached, ite_self]
  deadline task ht d hd w hw := by
    rw [attached_forget] at hw
    split at hw
    case isTrue => cases hw
    case isFalse => exact h.deadline task ht d hd w hw
  bound thread w hw := by
    rw [attached_forget] at hw
    split at hw
    case isTrue => cases hw
    case isFalse => exact h.bound thread w hw
  down hstopped thread := by
    rw [attached_forget]
    split
    case isTrue => rfl
    case isFalse => exact h.down hstopped thread

theorem Kept.forget (h : Kept p s) (victim : ThreadId) : Kept p (s.forget victim) where
  listening thread hdue := h.listening thread (due_forget hdue).2
  single := h.single
  newest := (h.remove victim).newest
  capped := (h.remove victim).capped

theorem evict_cases {victim : ThreadId} {t : Supervisor} (h : s.evict victim = some t) :
    ∃ e ∈ s.live, e.thread = victim ∧
      (t = s.forget victim ∨ t = (s.forget victim).abort e.handle) := by
  obtain ⟨e, he, h⟩ := Option.bind_eq_some_iff.mp h
  obtain ⟨hmem, hkey⟩ := Table.find?_eq_some.mp he
  refine ⟨e, hmem, hkey, ?_⟩
  simp only at h
  split at h
  · exact .inl (Option.some.inj h).symm
  · split at h
    · cases h
    · exact .inr (Option.some.inj h).symm

theorem PumpInv.abort (h : PumpInv p s) {i : Nat}
    (hlost : ∀ task ∈ s.tasks[i]?,
      s.attached task.thread = none ∧ s.live.find? task.thread = none) :
    PumpInv p (s.abort i) where
  entries e he := by
    obtain ⟨old, hold, hthread⟩ := h.entries e he
    rw [Option.mem_def] at hold
    rw [getElem?_abort, hold]
    refine ⟨_, rfl, ?_⟩
    split <;> exact hthread
  evicted task' htask' hlisten haborted := by
    obtain ⟨task, htask, hthread, hphase, haborted'⟩ := mem_abort htask'
    rw [Task.listens, hphase] at hlisten
    change s.attached task'.thread = none ∧ s.live.find? task'.thread = none
    rw [hthread]
    obtain hold | hold := haborted' haborted
    · exact h.evicted task htask hlisten hold
    · exact hlost task hold
  deadline task' htask' d hd w hw := by
    obtain ⟨task, htask, hthread, hphase, -⟩ := mem_abort htask'
    exact h.deadline task htask d (hphase ▸ hd) w (hthread ▸ hw)
  bound := h.bound
  down := h.down

theorem Kept.abort (h : Kept p s) {i : Nat}
    (hlost : ∀ task ∈ s.tasks[i]?, s.attached task.thread = none) : Kept p (s.abort i) where
  listening thread hdue := by
    obtain ⟨task, htask, hthread, hlisten, haborted⟩ := h.listening thread hdue
    obtain ⟨j, hj⟩ := List.mem_iff_getElem?.mp htask
    have hne : i ≠ j := by
      rintro rfl
      obtain ⟨w, hw, -⟩ := hdue
      have hnone := hlost task hj
      rw [hthread] at hnone
      exact absurd (hnone.symm.trans hw) (by simp)
    refine ⟨task, List.mem_of_getElem? (i := j) ?_, hthread, hlisten, haborted⟩
    rw [getElem?_abort, hj, Option.map_some, if_neg hne]
  single j k := h.single_of (tamed_abort s i) j k
  newest := h.newest_of (tamed_abort s i) fun _ he => he
  capped := h.capped

theorem evict_spec {victim : ThreadId} {t : Supervisor} (h : s.evict victim = some t)
    (hinv : PumpInv p s) (hkept : Kept p s) :
    PumpInv p t ∧ Kept p t ∧ t.live.rows.length < s.live.rows.length ∧ Tamed s t ∧ Tamed t s ∧
      t.stopped = s.stopped ∧
        ∀ thread, s.live.find? thread = none → t.live.find? thread = none := by
  obtain ⟨e, he, rfl, ht⟩ := evict_cases h
  have hlost : ∀ task ∈ (s.forget e.thread).tasks[e.handle]?,
      (s.forget e.thread).attached task.thread = none ∧
        (s.forget e.thread).live.find? task.thread = none := by
    intro task htask
    obtain ⟨task', htask', hthread⟩ := hinv.entries e he
    have hsame : task' = task := Option.some.inj (htask'.symm.trans htask)
    subst hsame
    rw [hthread, attached_forget, if_pos rfl]
    exact ⟨rfl, (find?_remove s e.thread e.thread).trans (if_pos rfl)⟩
  have hroom : (s.forget e.thread).live.rows.length < s.live.rows.length := by
    have hperm := (Table.perm_delete he).length_eq
    rw [List.length_cons] at hperm
    exact Nat.lt_of_succ_le (Nat.le_of_eq hperm.symm)
  have hnone : ∀ thread, s.live.find? thread = none →
      (s.forget e.thread).live.find? thread = none := by
    intro thread hthread
    refine (find?_remove s e.thread thread).trans ?_
    rw [hthread, ite_self]
  have hself : Tamed s (s.forget e.thread) := fun j task htask => ⟨task, htask, rfl, id⟩
  obtain rfl | rfl := ht
  · exact ⟨hinv.forget _, hkept.forget _, hroom, hself, fun j task htask => ⟨task, htask, rfl, id⟩,
      rfl, hnone⟩
  · refine ⟨(hinv.forget _).abort hlost,
      (hkept.forget _).abort fun task htask => (hlost task htask).1, hroom,
      tamed_abort (s.forget e.thread) e.handle, ?_, rfl, hnone⟩
    intro j task htask
    refine ⟨if e.handle = j then { task with aborted := true } else task, ?_, ?_⟩
    · rw [getElem?_abort]
      exact Option.map_eq_some_iff.mpr ⟨task, htask, rfl⟩
    · split <;> exact ⟨rfl, id⟩

def Listened (s : Supervisor) (thread : ThreadId) : Prop :=
  ∃ task ∈ s.tasks, task.thread = thread ∧ task.listens

theorem Tamed.listened {t : Supervisor} (h : Tamed s t) (hlisten : Listened t thread) :
    Listened s thread := by
  obtain ⟨task, htask, hthread, hlisten⟩ := hlisten
  obtain ⟨j, hj⟩ := List.mem_iff_getElem?.mp htask
  obtain ⟨old, hold, hsame, hback⟩ := h j task hj
  exact ⟨old, List.mem_of_getElem? hold, hsame.symm.trans hthread, hback hlisten⟩

theorem attached_attach (s : Supervisor) (thread thread' : ThreadId) (until_ : Time) :
    (s.attach thread until_).attached thread' =
      if thread' = thread then some ⟨s.now, until_⟩ else s.attached thread' := by
  simp only [Supervisor.attach, Function.update_apply]

theorem due_attach (s : Supervisor) (thread : ThreadId) :
    Due (s.attach thread (s.now + p.pumpIdleTtl)) thread := by
  refine ⟨_, (attached_attach s thread thread _).trans (if_pos rfl), ?_⟩
  exact Nat.lt_add_of_pos_right (pumpIdleTtl_pos p)

theorem due_attach_ne {thread' : ThreadId} {until_ : Time} (hne : thread' ≠ thread)
    (h : Due (s.attach thread until_) thread') : Due s thread' := by
  obtain ⟨w, hw, hlt⟩ := h
  rw [attached_attach, if_neg hne] at hw
  exact ⟨w, hw, hlt⟩

theorem PumpInv.attach (h : PumpInv p s) (hstopped : s.stopped = false)
    (hfresh : ∀ task ∈ s.tasks, task.thread = thread → task.listens → task.aborted = false) :
    PumpInv p (s.attach thread (s.now + p.pumpIdleTtl)) where
  entries := h.entries
  evicted task ht hlisten haborted := by
    obtain ⟨hattached, hnone⟩ := h.evicted task ht hlisten haborted
    refine ⟨?_, hnone⟩
    rw [attached_attach]
    split
    case isTrue e => exact absurd haborted (by simp [hfresh task ht e hlisten])
    case isFalse => exact hattached
  deadline task ht d hd w hw := by
    rw [attached_attach] at hw
    split at hw
    case isTrue => 
      cases hw
      exact le_max_left _ _
    case isFalse => exact h.deadline task ht d hd w hw
  bound thread' w hw := by
    rw [attached_attach] at hw
    split at hw
    case isTrue =>
      cases hw
      exact ⟨le_rfl, le_rfl, le_rfl⟩
    case isFalse => exact h.bound thread' w hw
  down hdown := absurd hdown (by simp [Supervisor.attach, hstopped])

theorem Kept.attach_iff (h : Kept p s) (hinv : PumpInv p s) (hlive : (s.live.find? thread).isSome) :
    Kept p (s.attach thread (s.now + p.pumpIdleTtl)) ↔ Current s thread := by
  constructor
  case mp =>
    intro h'
    obtain ⟨task, htask, hthread, hlisten, -⟩ := h'.listening thread (due_attach s thread)
    exact ⟨fun _ => ⟨task, htask, hthread, hlisten⟩, fun _ => hlive⟩
  case mpr =>
    intro hcurrent
    obtain ⟨task, htask, hthread, hlisten⟩ := hcurrent.mp hlive
    refine ⟨fun thread' hdue => ?_, h.single, h.newest, h.capped⟩
    by_cases e : thread' = thread
    · refine ⟨task, htask, hthread.trans e.symm, hlisten, ?_⟩
      by_contra haborted
      have hnone := (hinv.evicted task htask hlisten (by simpa using haborted)).2
      rw [hthread] at hnone
      simp [hnone] at hlive
    · exact h.listening thread' (due_attach_ne e hdue)

variable (p s thread) in
def newTask : Task := ⟨thread, Supervisor.firstPhase p s.now, false⟩

theorem newTask_listens : (newTask p s thread).listens = true :=
  firstPhase_listens p s.now

theorem mem_insert {task : Task} (h : task ∈ (s.insert p thread).tasks) :
    task ∈ s.tasks ∨ task = newTask p s thread := by
  simpa [Supervisor.insert, newTask] using h

theorem getElem?_insert {j : Nat} {task : Task} (h : task ∈ (s.insert p thread).tasks[j]?) :
    task ∈ s.tasks[j]? ∨ j = s.tasks.length ∧ task = newTask p s thread := by
  simp only [Supervisor.insert, Option.mem_def, List.getElem?_append] at h
  split at h
  case isTrue => exact .inl h
  case isFalse hle =>
    obtain ⟨hj, htask⟩ := List.getElem?_eq_some_iff.mp h
    have hlen : j = s.tasks.length := by
      simp only [List.length_singleton] at hj
      omega
    subst hlen
    simp only [Nat.sub_self, List.getElem_singleton] at htask
    exact .inr ⟨rfl, htask.symm⟩

theorem newTask_mem (p : Platform) (s : Supervisor) (thread : ThreadId) :
    newTask p s thread ∈ (s.insert p thread).tasks[s.tasks.length]? := by
  simp [Supervisor.insert, newTask]

theorem old_mem {j : Nat} {task : Task} (h : task ∈ s.tasks[j]?) :
    task ∈ (s.insert p thread).tasks[j]? := by
  simp only [Supervisor.insert, Option.mem_def]
  exact List.getElem?_append_left (List.getElem?_eq_some_iff.mp h).1 ▸ h

theorem mem_live_insert {e : Entry} (hnone : s.live.find? thread = none)
    (h : e ∈ (s.insert p thread).live) :
    e = ⟨thread, s.tasks.length⟩ ∨ e ∈ s.live ∧ e.thread ≠ thread := by
  obtain rfl | ⟨he, -⟩ := Table.mem_put.mp h
  · exact .inl rfl
  · exact .inr ⟨he, Table.find?_eq_none.mp hnone e he⟩

theorem PumpInv.insert (h : PumpInv p s) (hnone : s.live.find? thread = none)
    (hfree : ¬ Listened s thread) : PumpInv p (s.insert p thread) where
  entries e he := by
    obtain rfl | ⟨he, -⟩ := mem_live_insert hnone he
    · exact ⟨_, newTask_mem p s thread, rfl⟩
    · obtain ⟨task, htask, hthread⟩ := h.entries e he
      exact ⟨task, old_mem htask, hthread⟩
  evicted task ht hlisten haborted := by
    obtain hold | rfl := mem_insert ht
    · obtain ⟨hattached, hlive⟩ := h.evicted task hold hlisten haborted
      refine ⟨hattached, (s.live.find?_put_ne ?_).trans hlive⟩
      exact fun e => hfree ⟨task, hold, e.symm, hlisten⟩
    · cases haborted
  deadline task ht d hd w hw := by
    obtain hold | rfl := mem_insert ht
    · exact h.deadline task hold d hd w hw
    · cases p with
      | slack => cases hd
      | lark =>
        cases hd
        exact le_max_of_le_right (h.bound thread w hw).2.2
  bound := h.bound
  down := h.down

theorem Kept.insert (h : Kept p s) (hnone : s.live.find? thread = none)
    (hroom : s.live.rows.length < p.maxStreamPumps) (hfree : ¬ Listened s thread) :
    Kept p (s.insert p thread) where
  listening thread' hdue := by
    obtain ⟨task, htask, hthread⟩ := h.listening thread' hdue
    exact ⟨task, List.mem_append_left _ htask, hthread⟩
  single j k task htask task' htask' hthread hlisten hlisten' := by
    obtain hold | ⟨rfl, rfl⟩ := getElem?_insert htask
    · obtain hold' | ⟨rfl, rfl⟩ := getElem?_insert htask'
      · exact h.single j k task hold task' hold' hthread hlisten hlisten'
      · exact absurd ⟨task, List.mem_of_getElem? hold, hthread, hlisten⟩ hfree
    · obtain hold' | ⟨rfl, -⟩ := getElem?_insert htask'
      · exact absurd ⟨task', List.mem_of_getElem? hold', hthread.symm, hlisten'⟩ hfree
      · rfl
  newest e he j task htask hthread := by
    obtain rfl | ⟨he, hne⟩ := mem_live_insert hnone he
    · obtain hold | ⟨rfl, -⟩ := getElem?_insert htask
      · exact Nat.le_of_lt (List.getElem?_eq_some_iff.mp hold).1
      · exact Nat.le_refl _
    · obtain hold | ⟨-, rfl⟩ := getElem?_insert htask
      · exact h.newest e he j task hold hthread
      · exact absurd hthread.symm hne
  capped := by
    have hrows := Table.rows_put (r := (⟨thread, s.tasks.length⟩ : Entry)) hnone
    change (s.live.put ⟨thread, s.tasks.length⟩).rows.length ≤ _
    rw [hrows, List.length_append, List.length_singleton]
    exact hroom

theorem find?_insert (p : Platform) (s : Supervisor) (thread : ThreadId) :
    ((s.insert p thread).live.find? thread).isSome :=
  Option.isSome_iff_exists.mpr ⟨_, s.live.find?_put_self _⟩

theorem spawn_iff (h : Kept p s) (hinv : PumpInv p s) (hnone : s.live.find? thread = none)
    (hroom : s.live.rows.length < p.maxStreamPumps) :
    Kept p ((s.insert p thread).attach thread (s.now + p.pumpIdleTtl)) ↔ ¬ Listened s thread := by
  constructor
  case mp =>
    rintro h' ⟨task, htask, hthread, hlisten⟩
    obtain ⟨j, hj⟩ := List.mem_iff_getElem?.mp htask
    have hsame := h'.single j s.tasks.length task (old_mem hj) _ (newTask_mem p s thread) hthread
      hlisten newTask_listens
    have hlt := (List.getElem?_eq_some_iff.mp hj).1
    omega
  case mpr =>
    intro hfree
    refine ((h.insert hnone hroom hfree).attach_iff (hinv.insert hnone hfree)
      (find?_insert p s thread)).mpr ?_
    refine ⟨fun _ => ⟨_, List.mem_of_getElem? (newTask_mem p s thread), rfl, newTask_listens⟩, ?_⟩
    exact fun _ => find?_insert p s thread

theorem PumpInv.spawn (h : PumpInv p s) (hstopped : s.stopped = false)
    (hnone : s.live.find? thread = none) (hfree : ¬ Listened s thread) :
    PumpInv p ((s.insert p thread).attach thread (s.now + p.pumpIdleTtl)) := by
  refine (h.insert hnone hfree).attach hstopped fun task htask hthread hlisten => ?_
  obtain hold | rfl := mem_insert htask
  · exact absurd ⟨task, hold, hthread, hlisten⟩ hfree
  · rfl

theorem spawnPump_spec {victim : Option ThreadId} {t : Supervisor}
    (ht : s.spawnPump p thread victim = some t) (h : Kept p s) (hinv : PumpInv p s)
    (hstopped : s.stopped = false) :
    (Kept p t ↔ Current s thread) ∧ (Kept p t → PumpInv p t) := by
  simp only [Supervisor.spawnPump] at ht
  split at ht
  case isTrue hlive =>
    cases ht
    have hiff := h.attach_iff hinv hlive
    refine ⟨hiff, fun _ => hinv.attach hstopped fun task htask hthread hlisten => ?_⟩
    by_contra haborted
    have hnone := (hinv.evicted task htask hlisten (by simpa using haborted)).2
    rw [hthread] at hnone
    simp [hnone] at hlive
  case isFalse hlive =>
    have hnone : s.live.find? thread = none := by simpa using hlive
    have hcurrent : Current s thread ↔ ¬ Listened s thread := by
      rw [Current, hnone]
      exact ⟨fun hiff hlisten => absurd (hiff.mpr hlisten) (by decide),
        fun hfree => ⟨fun hsome => absurd hsome (by decide), fun hlisten => absurd hlisten hfree⟩⟩
    split at ht
    case isFalse hroom =>
      cases ht
      have hiff := spawn_iff h hinv hnone (Nat.lt_of_not_le hroom)
      exact ⟨hiff.trans hcurrent.symm, fun hkept => hinv.spawn hstopped hnone (hiff.mp hkept)⟩
    case isTrue =>
      obtain ⟨victim, -, ht⟩ := Option.bind_eq_some_iff.mp ht
      obtain ⟨u, hu, rfl⟩ := Option.map_eq_some_iff.mp ht
      obtain ⟨hinv', h', hroom, hback, hforth, hstop, hgone⟩ := evict_spec hu hinv h
      have hnow : u.now = s.now := by
        obtain ⟨e, -, -, rfl | rfl⟩ := evict_cases hu <;> rfl
      have hlisten : Listened u thread ↔ Listened s thread := ⟨hback.listened, hforth.listened⟩
      have hiff := spawn_iff h' hinv' (hgone thread hnone) (Nat.lt_of_lt_of_le hroom h.capped)
      rw [← hnow]
      refine ⟨hiff.trans ((not_congr hlisten).trans hcurrent.symm), fun hkept => ?_⟩
      exact hinv'.spawn (hstop.trans hstopped) (hgone thread hnone) (hiff.mp hkept)

end Map

section Streams

variable {thread : ThreadId}

theorem attached_event (s : Supervisor) (thread thread' : ThreadId) :
    (s.event p thread).attached thread' =
      if thread' = thread then (s.attached thread).map fun w =>
        if s.now < w.until_ then { w with until_ := s.now + p.pumpIdleTtl } else w
      else s.attached thread' := by
  simp only [Supervisor.event, Function.update_apply]

theorem due_event {thread' : ThreadId} (h : Due (s.event p thread) thread') : Due s thread' := by
  obtain ⟨w, hw, hlt⟩ := h
  rw [attached_event] at hw
  split at hw
  case isTrue e =>
    obtain ⟨old, hold, rfl⟩ := Option.map_eq_some_iff.mp hw
    refine ⟨old, e ▸ hold, ?_⟩
    split at hlt
    case isTrue hdue => exact hdue
    case isFalse => exact hlt
  case isFalse => exact ⟨w, hw, hlt⟩

@[simp] theorem receive_thread (task : Task) (d : Time) :
    (task.receive d).thread = task.thread := by
  unfold Task.receive
  split <;> rfl

@[simp] theorem receive_aborted (task : Task) (d : Time) :
    (task.receive d).aborted = task.aborted := by
  unfold Task.receive
  split <;> rfl

@[simp] theorem receive_listens (task : Task) (d : Time) :
    (task.receive d).listens = task.listens := by
  unfold Task.receive
  split
  case h_1 d' h => simp [Task.listens, h, Phase.listens]
  all_goals rfl

theorem receive_reading {task : Task} {d d' : Time} (h : (task.receive d).phase = .reading d') :
    d' = d := by
  unfold Task.receive at h
  split at h
  case h_1 => exact (Phase.reading.inj h).symm
  all_goals simp_all

theorem getElem?_event (p : Platform) (s : Supervisor) (thread : ThreadId) (j : Nat) :
    (s.event p thread).tasks[j]? = s.tasks[j]?.map fun task =>
      if task.thread = thread then task.receive (s.now + p.pumpIdleTtl) else task := by
  simp [Supervisor.event]

theorem mem_event {task' : Task} (h : task' ∈ (s.event p thread).tasks) :
    ∃ task ∈ s.tasks, (if task.thread = thread then task.receive (s.now + p.pumpIdleTtl)
      else task) = task' :=
  List.mem_map.mp h

theorem event_frame (thread : ThreadId) (task : Task) (d : Time) :
    let task' := if task.thread = thread then task.receive d else task
    task'.thread = task.thread ∧ task'.listens = task.listens ∧ task'.aborted = task.aborted := by
  split <;> simp

theorem PumpInv.event (h : PumpInv p s) (thread : ThreadId) : PumpInv p (s.event p thread) where
  entries e he := by
    obtain ⟨task, htask, hthread⟩ := h.entries e he
    rw [getElem?_event]
    refine ⟨_, Option.map_eq_some_iff.mpr ⟨task, htask, rfl⟩, ?_⟩
    rw [(event_frame thread task _).1, hthread]
  evicted task' htask' hlisten haborted := by
    obtain ⟨task, htask, rfl⟩ := mem_event htask'
    obtain ⟨hthread, hlistens, haborts⟩ := event_frame thread task
      (s.now + p.pumpIdleTtl)
    obtain ⟨hattached, hnone⟩ := h.evicted task htask (hlistens ▸ hlisten) (haborts ▸ haborted)
    rw [hthread]
    refine ⟨?_, hnone⟩
    rw [attached_event]
    split
    case isTrue e => rw [← e, hattached, Option.map_none]
    case isFalse => exact hattached
  deadline task' htask' d hd w hw := by
    obtain ⟨task, htask, rfl⟩ := mem_event htask'
    rw [(event_frame thread task _).1, attached_event] at hw
    split at hd
    case isFalse hne =>
      rw [if_neg hne] at hw
      exact h.deadline task htask d hd w hw
    case isTrue e =>
      rw [receive_reading hd]
      rw [if_pos e] at hw
      obtain ⟨old, hold, rfl⟩ := Option.map_eq_some_iff.mp hw
      refine le_max_of_le_right ?_
      split
      case isTrue => exact le_rfl
      case isFalse => exact (h.bound thread old hold).2.2
  bound thread' w hw := by
    rw [attached_event] at hw
    split at hw
    case isFalse => exact h.bound thread' w hw
    case isTrue =>
      obtain ⟨old, hold, rfl⟩ := Option.map_eq_some_iff.mp hw
      obtain ⟨hpast, hsince, hbound⟩ := h.bound thread old hold
      split
      case isTrue => exact ⟨hpast, Nat.add_le_add_right hpast _, le_rfl⟩
      case isFalse => exact ⟨hpast, hsince, hbound⟩
  down hstopped thread' := by
    rw [attached_event, h.down hstopped, h.down hstopped, Option.map_none, ite_self]

theorem Kept.event (h : Kept p s) (thread : ThreadId) : Kept p (s.event p thread) := by
  have htamed : Tamed s (s.event p thread) := by
    intro j task' htask'
    rw [getElem?_event] at htask'
    obtain ⟨task, htask, rfl⟩ := Option.map_eq_some_iff.mp htask'
    obtain ⟨hthread, hlistens, -⟩ := event_frame thread task (s.now + p.pumpIdleTtl)
    exact ⟨task, htask, hthread, fun h => hlistens ▸ h⟩
  refine ⟨fun thread' hdue => ?_, fun j k => h.single_of htamed j k,
    h.newest_of htamed fun _ he => he, h.capped⟩
  obtain ⟨task, htask, hthread, hlisten, haborted⟩ := h.listening thread' (due_event hdue)
  obtain ⟨hthread', hlistens, haborts⟩ := event_frame thread task
    (s.now + p.pumpIdleTtl)
  exact ⟨_, List.mem_map.mpr ⟨task, htask, rfl⟩, hthread'.trans hthread, hlistens.trans hlisten,
    haborts.trans haborted⟩

theorem PumpInv.wait (h : PumpInv p s) (d : Duration) : PumpInv p { s with now := s.now + d } where
  entries := h.entries
  evicted := h.evicted
  deadline := h.deadline
  bound thread w hw := by
    obtain ⟨hpast, hsince, hbound⟩ := h.bound thread w hw
    have hlater : s.now ≤ s.now + d := Nat.le_add_right _ _
    exact ⟨le_trans hpast hlater, hsince, le_trans hbound (Nat.add_le_add_right hlater _)⟩
  down := h.down

theorem Kept.wait (h : Kept p s) (d : Duration) : Kept p { s with now := s.now + d } where
  listening thread hdue := by
    obtain ⟨w, hw, hlt⟩ := hdue
    exact h.listening thread ⟨w, hw, lt_of_le_of_lt (Nat.le_add_right s.now d) hlt⟩
  single := h.single
  newest := h.newest
  capped := h.capped

theorem getElem?_shutdown (s : Supervisor) (j : Nat) :
    s.shutdown.tasks[j]? = s.tasks[j]?.map fun task =>
      if s.live.rows.any (·.handle = j) then { task with aborted := true } else task := by
  simp [Supervisor.shutdown]

theorem pumpInv_shutdown (p : Platform) (s : Supervisor) : PumpInv p s.shutdown where
  entries e he := absurd he (Table.not_mem_empty e)
  evicted _ _ _ _ := ⟨rfl, rfl⟩
  deadline _ _ _ _ _ hw := by cases hw
  bound _ _ hw := by cases hw
  down _ _ := rfl

theorem Kept.shutdown (h : Kept p s) : Kept p s.shutdown where
  listening _ hdue := by
    obtain ⟨w, hw, -⟩ := hdue
    cases hw
  single j k := by
    refine h.single_of (fun j task' htask' => ?_) j k
    rw [getElem?_shutdown] at htask'
    obtain ⟨task, htask, rfl⟩ := Option.map_eq_some_iff.mp htask'
    refine ⟨task, htask, ?_⟩
    split <;> exact ⟨rfl, id⟩
  newest e he := absurd he (Table.not_mem_empty e)
  capped := Nat.zero_le _

end Streams

theorem due_iff_attached {task : Task} {d : Time} (h : PumpInv p s) (ht : task ∈ s.tasks)
    (hphase : task.phase = .reading d) (hd : d ≤ s.now) :
    ¬ Due s task.thread ↔ ∀ w ∈ s.attached task.thread, w.at_ + p.pumpIdleTtl ≤ s.now := by
  constructor
  · intro hdue w hw
    refine le_trans (h.bound _ w hw).2.1 ?_
    by_contra hlt
    exact hdue ⟨w, hw, lt_of_not_ge hlt⟩
  · rintro hyoung ⟨w, hw, hlt⟩
    have hle := le_trans (h.deadline task ht d hphase w hw) (max_le (hyoung w hw) hd)
    exact absurd hlt (not_lt_of_ge hle)

theorem forall_task_iff {i : Nat} {task : Task} {P : Task → Prop} (ht : task ∈ s.tasks[i]?) :
    (∀ task' ∈ s.tasks[i]?, P task') ↔ P task := by
  rw [Option.mem_def.mp ht]
  simp

theorem leave_spec {i : Nat} {task : Task} (hinv : PumpInv p s) (h : Kept p s)
    (ht : task ∈ s.tasks[i]?) (phase : Phase) (hleave : phase.listens = false) :
    (Kept p (s.setPhase i phase) ↔ (task.listens → ¬ Due s task.thread)) ∧
      PumpInv p (s.setPhase i phase) := by
  have hlistens : phase.listens → task.listens := fun hnew => by simp [hleave] at hnew
  refine ⟨(h.setPhase_iff ht hlistens).trans ?_, hinv.setPhase ht hlistens fun d hd => ?_⟩
  · exact ⟨fun hfree hold => hfree hold hleave, fun hfree hold _ => hfree hold⟩
  · rw [hd] at hleave
    cases hleave

theorem listens_of_phase {task : Task} {phase : Phase} (h : task.phase = phase) :
    task.listens = phase.listens := by
  rw [Task.listens, h]

/-- Of a step: it keeps the pumps exactly when it is orderly, and then the invariant. -/
def StepSpec (p : Platform) (s : Supervisor) (a : Act) (t : Supervisor) : Prop :=
  (Kept p t ↔ Orderly p s a) ∧ (Kept p t → PumpInv p t)

section Acts

variable {t : Supervisor} {i : Nat}

theorem stop_spec {a : Act} {task : Task} (hinv : PumpInv p s) (h : Kept p s)
    (ht : task ∈ s.tasks[i]?) (hlistens : task.listens) {phase : Phase} (hleave : phase.listens = false)
    (ha : Orderly p s a ↔ ¬ Due s task.thread) : StepSpec p s a (s.setPhase i phase) := by
  obtain ⟨hiff, hinv'⟩ := leave_spec hinv h ht phase hleave
  refine ⟨hiff.trans (Iff.trans ?_ ha.symm), fun _ => hinv'⟩
  exact ⟨fun hfree => hfree hlistens, fun hfree _ => hfree⟩

theorem rest_spec {a : Act} {task : Task} (hinv : PumpInv p s) (h : Kept p s)
    (ht : task ∈ s.tasks[i]?) (hfree : task.listens → ¬ Due s task.thread) {phase : Phase}
    (hleave : phase.listens = false) (ha : Orderly p s a) : StepSpec p s a (s.setPhase i phase) := by
  obtain ⟨hiff, hinv'⟩ := leave_spec hinv h ht phase hleave
  exact ⟨iff_of_true (hiff.mpr hfree) ha, fun _ => hinv'⟩

theorem opened_spec (hinv : PumpInv p s) (h : Kept p s) (ht : step p s (.opened i) = some t) :
    StepSpec p s (.opened i) t := by
  obtain ⟨task, htask, ht⟩ := Option.bind_eq_some_iff.mp ht
  obtain ⟨hphase, ht⟩ := Option.ite_none_right_eq_some.mp ht
  cases ht
  have hlistens : task.listens := listens_of_phase hphase
  refine ⟨iff_of_true (h.setPhase htask (fun _ => hlistens) fun _ hnew => by cases hnew) trivial,
    fun _ => hinv.setPhase htask (fun _ => hlistens) fun d hd => ?_⟩
  cases hd
  exact le_rfl

theorem failed_spec (hinv : PumpInv p s) (h : Kept p s) (ht : step p s (.failed i) = some t) :
    StepSpec p s (.failed i) t := by
  obtain ⟨task, htask, ht⟩ := Option.bind_eq_some_iff.mp ht
  obtain ⟨hphase, ht⟩ := Option.ite_none_right_eq_some.mp ht
  cases ht
  refine stop_spec hinv h htask (listens_of_phase hphase) rfl ?_
  rw [Orderly, forall_task_iff htask]

theorem idle_spec (hinv : PumpInv p s) (h : Kept p s) (ht : step p s (.idle i) = some t) :
    StepSpec p s (.idle i) t := by
  obtain ⟨task, htask, ht⟩ := Option.bind_eq_some_iff.mp ht
  split at ht
  case h_2 => cases ht
  case h_1 d hphase =>
    obtain ⟨hd, ht⟩ := Option.ite_none_right_eq_some.mp ht
    cases ht
    refine stop_spec hinv h htask (listens_of_phase hphase) (lastPhase_listens p) ?_
    rw [Orderly, forall_task_iff htask,
      ← due_iff_attached hinv (List.mem_of_getElem? htask) hphase hd]

theorem closed_spec (hinv : PumpInv p s) (h : Kept p s) (ht : step p s (.closed i) = some t) :
    StepSpec p s (.closed i) t := by
  obtain ⟨task, htask, ht⟩ := Option.bind_eq_some_iff.mp ht
  split at ht
  case h_2 => cases ht
  case h_1 d hphase =>
    cases ht
    refine stop_spec hinv h htask (listens_of_phase hphase) (lastPhase_listens p) ?_
    rw [Orderly, forall_task_iff htask]

theorem flushed_spec (hinv : PumpInv p s) (h : Kept p s) (ht : step p s (.flushed i) = some t) :
    StepSpec p s (.flushed i) t := by
  obtain ⟨task, htask, ht⟩ := Option.bind_eq_some_iff.mp ht
  obtain ⟨hphase, ht⟩ := Option.ite_none_right_eq_some.mp ht
  cases ht
  refine rest_spec hinv h htask (fun hlistens => ?_) rfl trivial
  rw [listens_of_phase hphase] at hlistens
  cases hlistens

theorem cancelled_spec (hinv : PumpInv p s) (h : Kept p s) (ht : step p s (.cancelled i) = some t) :
    StepSpec p s (.cancelled i) t := by
  obtain ⟨task, htask, ht⟩ := Option.bind_eq_some_iff.mp ht
  split at ht
  case h_2 => cases ht
  case h_1 d hphase =>
    obtain ⟨hstopped, ht⟩ := Option.ite_none_right_eq_some.mp ht
    cases ht
    refine rest_spec hinv h htask (fun _ hdue => ?_) rfl trivial
    obtain ⟨w, hw, -⟩ := hdue
    exact absurd ((hinv.down hstopped _).symm.trans hw) (by simp)

theorem removed_spec (hinv : PumpInv p s) (h : Kept p s) (ht : step p s (.removed i) = some t) :
    StepSpec p s (.removed i) t := by
  obtain ⟨task, htask, ht⟩ := Option.bind_eq_some_iff.mp ht
  obtain ⟨hphase, ht⟩ := Option.ite_none_right_eq_some.mp ht
  cases ht
  obtain ⟨hiff, hinv'⟩ := leave_spec hinv h htask .finished rfl
  have hkept : Kept p (s.setPhase i .finished) := hiff.mpr fun hlistens => by
    rw [listens_of_phase hphase] at hlistens
    cases hlistens
  exact ⟨iff_of_true (hkept.remove _) trivial, fun _ => hinv'.remove _⟩

theorem dropped_spec (hinv : PumpInv p s) (h : Kept p s) (ht : step p s (.dropped i) = some t) :
    StepSpec p s (.dropped i) t := by
  obtain ⟨task, htask, ht⟩ := Option.bind_eq_some_iff.mp ht
  obtain ⟨haborted, ht⟩ := Option.ite_none_right_eq_some.mp ht
  cases ht
  rw [Bool.and_eq_true] at haborted
  refine rest_spec hinv h htask (fun hlistens hdue => ?_) rfl trivial
  obtain ⟨w, hw, -⟩ := hdue
  have hnone := (hinv.evicted task (List.mem_of_getElem? htask) hlistens haborted.1).1
  exact absurd (hnone.symm.trans hw) (by simp)

theorem panicked_spec (hinv : PumpInv p s) (h : Kept p s) (ht : step p s (.panicked i) = some t) :
    StepSpec p s (.panicked i) t := by
  obtain ⟨task, htask, ht⟩ := Option.bind_eq_some_iff.mp ht
  obtain ⟨-, ht⟩ := Option.ite_none_right_eq_some.mp ht
  cases ht
  obtain ⟨hiff, hinv'⟩ := leave_spec hinv h htask .finished rfl
  refine ⟨hiff.trans ?_, fun _ => hinv'⟩
  rw [Orderly, forall_task_iff htask]

end Acts

theorem step_spec {a : Act} {t : Supervisor} (hinv : PumpInv p s) (h : Kept p s)
    (ht : step p s a = some t) : StepSpec p s a t := by
  cases a with
  | wait d =>
    cases ht
    exact ⟨iff_of_true (h.wait d) trivial, fun _ => hinv.wait d⟩
  | attach thread victim =>
    simp only [step] at ht
    split at ht
    case isTrue => cases ht
    case isFalse hstopped => exact spawnPump_spec ht h hinv (by simpa using hstopped)
  | opened => exact opened_spec hinv h ht
  | failed => exact failed_spec hinv h ht
  | event thread =>
    cases ht
    exact ⟨iff_of_true (h.event thread) trivial, fun _ => hinv.event thread⟩
  | idle => exact idle_spec hinv h ht
  | closed => exact closed_spec hinv h ht
  | flushed => exact flushed_spec hinv h ht
  | cancelled => exact cancelled_spec hinv h ht
  | removed => exact removed_spec hinv h ht
  | dropped => exact dropped_spec hinv h ht
  | panicked => exact panicked_spec hinv h ht
  | shutdown =>
    obtain ⟨-, ht⟩ := Option.ite_none_left_eq_some.mp ht
    cases ht
    exact ⟨iff_of_true h.shutdown trivial, fun _ => pumpInv_shutdown p s⟩

/-- Exact: the supervisor keeps its pumps when every step is orderly. -/
theorem kept_iff_orderly (p : Platform) (acts : List Act) :
    Always (step p) (Kept p) .start acts ↔ Steps (step p) (Orderly p) .start acts :=
  always_iff_steps (PumpInv p) (fun _ _ _ hinv h ht hkept => (step_spec hinv h ht).2 hkept)
    (fun _ _ _ hinv h ht => (step_spec hinv h ht).1) (pumpInv_start p) (kept_start p) acts

namespace Sample

def late : Platform → List Act
  | .slack => [.attach 0 none, .opened 0, .wait SLACK_PUMP_IDLE_TTL, .idle 0, .attach 0 none]
  | .lark => [.attach 0 none, .wait LARK_PUMP_IDLE_TTL, .idle 0, .attach 0 none]

def deaf (s : Supervisor) (thread : ThreadId) : Bool :=
  (s.attached thread).any (fun w => s.now < w.until_) && s.tasks.all fun task => !task.listens

theorem not_kept_of_deaf {s : Supervisor} {thread : ThreadId} (h : deaf s thread = true) :
    ¬ Kept p s := by
  intro hkept
  rw [deaf, Bool.and_eq_true, Option.any_eq_true, List.all_eq_true] at h
  obtain ⟨⟨w, hw, hlt⟩, hall⟩ := h
  obtain ⟨task, htask, -, hlisten, -⟩ := hkept.listening thread ⟨w, hw, by simpa using hlt⟩
  simpa [hlisten] using hall task htask

theorem late_deaf (p : Platform) :
    ∃ t, run (step p) .start (late p) = some t ∧ deaf t 0 = true := by
  have h : ((run (step p) .start (late p)).any fun t => deaf t 0) = true := by
    cases p <;> decide +kernel
  exact (Option.any_eq_true _ _).mp h

end Sample

/-- On either platform an attach is lost. -/
theorem attach_lost : ¬ Always (step .lark) (Kept .lark) .start (Sample.late .lark) ∧
    ¬ Always (step .slack) (Kept .slack) .start (Sample.late .slack) := by
  obtain ⟨s, hs, hdeaf⟩ := Sample.late_deaf .lark
  obtain ⟨t, ht, hdeaf'⟩ := Sample.late_deaf .slack
  exact ⟨fun h => Sample.not_kept_of_deaf hdeaf (h.run hs),
    fun h => Sample.not_kept_of_deaf hdeaf' (h.run ht)⟩

end Patom.Threads.StreamPump
