import Patom.Runtime.Queue
import Patom.Scheduling.Cancellation

open Patom.Foundation
open Patom.Runtime (findByIdempotencyKey findByIdempotencyKey_enqueue findByIdempotencyKey_enqueued
  enqueueTrigger enqueueTrigger_cases)

namespace Patom.Scheduling

abbrev FireKey := ScheduledTaskId × Time

def St.threadsOf (s : St) (f : FireKey) : List ThreadRow := s.threads.rows.filter (·.firing = f)

def St.seedsOf (s : St) (f : FireKey) : List Threads.ThreadMessage :=
  (s.threadsOf f).flatMap (·.feed.messages)

def St.triggersOf (s : St) (f : FireKey) : List (FireKey × Runtime.PromptRequestId) :=
  s.triggers.filter (·.1 = f)

structure OneEffect (s : St) (f : FireKey) : Prop where
  threads : (s.threadsOf f).length ≤ 1
  seeds : (s.seedsOf f).length ≤ 1
  triggers : (s.triggersOf f).length ≤ 1

/-- A fire creates its thread only where no earlier one has. -/
def FirstThread (s : St) : Act → Prop
  | .createThread w _ => ∀ tick task rest, Firing s w tick task rest →
      s.threadsOf (task.id, task.fireAt tick.now) = []
  | _ => True

def FirePc.thread? : FirePc → Option ThreadId
  | .created thread _ _ => some thread
  | .start | .enqueued _ => none

def FirePc.unseeded : FirePc → Bool
  | .created _ _ none => true
  | _ => false

structure SeedInv (ticks : Table Tick) (threads : Table ThreadRow) : Prop where
  fed : ∀ row ∈ threads, row.feed.messages.length ≤ 1
  stored : ∀ tick ∈ ticks, ∀ thread, tick.pc.thread? = some thread → (threads.find? thread).isSome
  unseeded : ∀ tick ∈ ticks, tick.pc.unseeded → ∀ row ∈ threads,
    tick.pc.thread? = some row.id → row.feed.messages = []
  apart : ∀ tick ∈ ticks, ∀ tick' ∈ ticks, ∀ thread, tick.pc.thread? = some thread →
    tick'.pc.thread? = some thread → tick = tick'

structure KeyInv (s : St) : Prop where
  tenant : ∀ tick ∈ s.ticks, ∀ task ∈ tick.due, ∃ r ∈ s.tasks, r.id = task.id ∧ r.orgId = task.orgId
  keyed : ∀ x ∈ s.triggers, ∃ r ∈ s.tasks, ∃ k, r.id = x.1.1 ∧ schedKey x.1.1 x.1.2 = .ok k ∧
    (findByIdempotencyKey s.queue r.orgId k).isSome
  once : ∀ f, (s.triggersOf f).length ≤ 1

variable {env : Env} {s t : St}

section SeedInv

variable {ticks ticks' : Table Tick} {threads : Table ThreadRow}

theorem FirePc.thread?_of_unseeded {pc : FirePc} (h : pc.unseeded) : pc.thread? ≠ none := by
  cases pc with
  | created => simp [thread?]
  | start | enqueued => simp [unseeded] at h

theorem SeedInv.mono (h : SeedInv ticks threads)
    (hsub : ∀ tick ∈ ticks', tick.pc.thread? ≠ none → tick ∈ ticks) : SeedInv ticks' threads where
  fed := h.fed
  stored tick htick thread hthread := h.stored tick (hsub tick htick (by simp [hthread])) thread hthread
  unseeded tick htick hpc := h.unseeded tick (hsub tick htick (FirePc.thread?_of_unseeded hpc)) hpc
  apart tick htick tick' htick' thread hthread hthread' :=
    h.apart tick (hsub tick htick (by simp [hthread])) tick' (hsub tick' htick' (by simp [hthread']))
      thread hthread hthread'

theorem SeedInv.leave (h : SeedInv ticks threads) {tick : Tick} (hpc : tick.pc.thread? = none) :
    SeedInv (ticks.put tick) threads := by
  refine h.mono fun tick' htick' hthread => ?_
  rcases Table.mem_put.mp htick' with rfl | ⟨hmem, -⟩
  · exact absurd hpc hthread
  · exact hmem

theorem SeedInv.create (h : SeedInv ticks threads) {tick : Tick} {row : ThreadRow}
    {threads' : Table ThreadRow} (hins : threads.insert? row = some threads')
    (hempty : row.feed = .empty) (hpc : tick.pc = .created row.id none none) :
    SeedInv (ticks.put tick) threads' := by
  have hfresh : threads.find? row.id = none :=
    Table.insert?_isSome.mp (Option.isSome_of_eq_some hins)
  have hthread : tick.pc.thread? = some row.id := by rw [hpc]; rfl
  have hold : ∀ tick' ∈ ticks, tick'.pc.thread? ≠ some row.id := fun tick' htick' e => by
    simpa [hfresh] using h.stored tick' htick' row.id e
  constructor
  case fed =>
    intro row' hrow'
    rcases (Table.mem_insert? hins).mp hrow' with hrow' | rfl
    · exact h.fed row' hrow'
    · simp [hempty, Threads.Thread.empty]
  case stored =>
    intro tick' htick' thread hthread'
    rw [Table.find?_insert? hins]
    split
    case isTrue => rfl
    case isFalse hne =>
      rcases Table.mem_put.mp htick' with rfl | ⟨htick', -⟩
      · exact absurd (Option.some.inj (hthread.symm.trans hthread')) hne
      · exact h.stored tick' htick' thread hthread'
  case unseeded =>
    intro tick' htick' hunseeded row' hrow' hthread'
    rcases (Table.mem_insert? hins).mp hrow' with hrow' | rfl
    · rcases Table.mem_put.mp htick' with rfl | ⟨htick', -⟩
      · have hid : row.id = row'.id := Option.some.inj (hthread.symm.trans hthread')
        exact absurd hid.symm (Table.find?_eq_none.mp hfresh row' hrow')
      · exact h.unseeded tick' htick' hunseeded row' hrow' hthread'
    · rw [hempty]
      rfl
  case apart =>
    intro tick₁ h₁ tick₂ h₂ thread e₁ e₂
    rcases Table.mem_put.mp h₁ with rfl | ⟨k₁, -⟩ <;> rcases Table.mem_put.mp h₂ with rfl | ⟨k₂, -⟩
    · rfl
    · exact absurd (e₂.trans (e₁.symm.trans hthread)) (hold tick₂ k₂)
    · exact absurd (e₁.trans (e₂.symm.trans hthread)) (hold tick₁ k₁)
    · exact h.apart tick₁ k₁ tick₂ k₂ thread e₁ e₂

theorem SeedInv.stay (h : SeedInv ticks threads) {tick : Tick} {thread : ThreadId}
    (htick : tick ∈ ticks) (hthread : tick.pc.thread? = some thread) (pc : FirePc)
    (hthread' : pc.thread? = some thread) {f : ThreadRow → ThreadRow}
    (hf : ∀ row, key (f row) = key row) (hother : ∀ row, row.id ≠ thread → f row = row)
    (hat : ∀ row ∈ threads, row.id = thread → (f row).feed.messages.length ≤ 1 ∧
      (pc.unseeded → (f row).feed.messages = [])) :
    SeedInv (ticks.put { tick with pc }) (threads.modify f hf) := by
  have hold : ∀ tick' ∈ ticks, key tick' ≠ key tick → tick'.pc.thread? ≠ some thread :=
    fun tick' htick' hne e => hne (congrArg key (h.apart tick' htick' tick htick thread e hthread))
  constructor
  case fed =>
    intro row' hrow'
    obtain ⟨row, hrow, rfl⟩ := Table.mem_modify.mp hrow'
    by_cases hid : row.id = thread
    · exact (hat row hrow hid).1
    · rw [hother row hid]
      exact h.fed row hrow
  case stored =>
    intro tick' htick' thread' e
    rw [Table.find?_modify, Option.isSome_map]
    rcases Table.mem_put.mp htick' with rfl | ⟨htick', -⟩
    · exact h.stored tick htick thread' (hthread.trans (hthread'.symm.trans e))
    · exact h.stored tick' htick' thread' e
  case unseeded =>
    intro tick' htick' hunseeded row' hrow' e
    obtain ⟨row, hrow, rfl⟩ := Table.mem_modify.mp hrow'
    have hid : (f row).id = row.id := hf row
    rw [hid] at e
    rcases Table.mem_put.mp htick' with rfl | ⟨htick', hne⟩
    · exact (hat row hrow (Option.some.inj (e.symm.trans hthread'))).2 hunseeded
    · rw [hother row fun e' => hold tick' htick' hne (e' ▸ e)]
      exact h.unseeded tick' htick' hunseeded row hrow e
  case apart =>
    intro tick₁ h₁ tick₂ h₂ thread' e₁ e₂
    rcases Table.mem_put.mp h₁ with rfl | ⟨k₁, hne₁⟩ <;>
      rcases Table.mem_put.mp h₂ with rfl | ⟨k₂, hne₂⟩
    · rfl
    · exact absurd (e₂.trans (e₁.symm.trans hthread')) (hold tick₂ k₂ hne₂)
    · exact absurd (e₁.trans (e₂.symm.trans hthread')) (hold tick₁ k₁ hne₁)
    · exact h.apart tick₁ k₁ tick₂ k₂ thread' e₁ e₂

theorem SeedInv.step {a : Act} (h : SeedInv s.ticks s.threads) (hstep : step env s a = some t) :
    SeedInv t.ticks t.threads := by
  cases step_stepped hstep with
  | create | cancel | trigger => exact h
  | claim | recordFired | fail | enqueue => exact h.leave rfl
  | crash => exact h.mono fun tick htick _ => (Table.mem_delete.mp htick).1
  | createThread _ _ hrow hins =>
    obtain ⟨hid, hempty, -⟩ := threadFor_some hrow
    exact h.create hins hempty (by rw [hid])
  | @participate _ state tick task rest thread seed row hfiring hpc =>
    have htick := Table.mem_of_find? hfiring.found
    have hthread : tick.pc.thread? = some thread := by rw [hpc]; rfl
    refine h.stay htick hthread _ rfl (ThreadRow.participate_key thread state)
      (fun row hne => if_neg hne) fun row hrow hid => ?_
    rw [ThreadRow.participate_feed]
    refine ⟨h.fed row hrow, fun hunseeded => h.unseeded tick htick ?_ row hrow (hid ▸ hthread)⟩
    rw [hpc]
    cases seed <;> exact hunseeded
  | @seed _ message tick task rest thread state hfiring hpc =>
    have htick := Table.mem_of_find? hfiring.found
    have hthread : tick.pc.thread? = some thread := by rw [hpc]; rfl
    refine h.stay htick hthread _ rfl (ThreadRow.append_key thread _)
      (fun row hne => if_neg hne) fun row hrow hid => ?_
    have hempty := h.unseeded tick htick (by rw [hpc]; rfl) row hrow (hid ▸ hthread)
    rw [ThreadRow.append, if_pos hid]
    exact ⟨by simp [Threads.Thread.append, hempty], fun hunseeded => nomatch hunseeded⟩

end SeedInv

section KeyInv

theorem KeyInv.mono (h : KeyInv s) (htasks : KeepsTenants s.tasks t.tasks)
    (hdue : ∀ tick ∈ t.ticks, ∀ task ∈ tick.due, ∃ tick' ∈ s.ticks, task ∈ tick'.due)
    (hqueue : ∀ org k, (findByIdempotencyKey s.queue org k).isSome →
      (findByIdempotencyKey t.queue org k).isSome)
    (htriggers : t.triggers = s.triggers) : KeyInv t where
  tenant tick htick task htask := by
    obtain ⟨tick', htick', htask⟩ := hdue tick htick task htask
    obtain ⟨r, hr, hid, horg⟩ := h.tenant tick' htick' task htask
    obtain ⟨r', hr', hid', horg'⟩ := htasks r hr
    exact ⟨r', hr', hid'.trans hid, horg'.trans horg⟩
  keyed x hx := by
    obtain ⟨r, hr, k, hid, hk, htaken⟩ := h.keyed x (htriggers ▸ hx)
    obtain ⟨r', hr', hid', horg'⟩ := htasks r hr
    exact ⟨r', hr', k, hid'.trans hid, hk, hqueue _ _ (horg' ▸ htaken)⟩
  once f := by
    rw [St.triggersOf, htriggers]
    exact h.once f

theorem due_put {ticks : Table Tick} {tick tick' : Tick} (htick : tick ∈ ticks)
    (hdue : tick'.due ⊆ tick.due) :
    ∀ x ∈ ticks.put tick', ∀ task ∈ x.due, ∃ y ∈ ticks, task ∈ y.due := by
  intro x hx task htask
  rcases Table.mem_put.mp hx with rfl | ⟨hx, -⟩
  · exact ⟨tick, htick, hdue htask⟩
  · exact ⟨x, hx, htask⟩

theorem keepsTenants_refl (tasks : ScheduledTasks) : KeepsTenants tasks tasks :=
  fun r hr => ⟨r, hr, rfl, rfl⟩

theorem KeyInv.triggersOf_eq_nil (h : KeyInv s) {tick : Tick} {task : ScheduledTaskRecord}
    {fireAt : Time} {k : Runtime.IdempotencyKey} (htick : tick ∈ s.ticks) (htask : task ∈ tick.due)
    (hk : schedKey task.id fireAt = .ok k)
    (hfree : findByIdempotencyKey s.queue task.orgId k = none) :
    s.triggersOf (task.id, fireAt) = [] := by
  refine List.filter_eq_nil_iff.mpr fun x hx e => ?_
  have hfiring : x.1 = (task.id, fireAt) := of_decide_eq_true e
  obtain ⟨r, hr, k', hid, hk', htaken⟩ := h.keyed x hx
  obtain ⟨r', hr', hid', horg⟩ := h.tenant tick htick task htask
  rw [hfiring] at hid hk'
  obtain rfl : k' = k := Except.ok.inj (hk'.symm.trans hk)
  obtain rfl : r = r' := Table.eq_of_key_eq hr hr' (hid.trans hid'.symm)
  rw [horg, hfree] at htaken
  cases htaken

theorem KeyInv.step {a : Act} (h : KeyInv s) (hstep : step env s a = some t) : KeyInv t := by
  cases step_stepped hstep with
  | create hcreate =>
    exact h.mono (create_keepsTenants hcreate) (fun x hx _ htask => ⟨x, hx, htask⟩) (fun _ _ => id) rfl
  | cancel hcancel =>
    exact h.mono (cancel_keepsTenants hcancel) (fun x hx _ htask => ⟨x, hx, htask⟩) (fun _ _ => id) rfl
  | claim hidle hclaim =>
    refine ⟨fun tick htick task htask => ?_, h.keyed, h.once⟩
    rcases Table.mem_put.mp htick with rfl | ⟨htick, -⟩
    · obtain ⟨id, -, hid⟩ := List.mem_filterMap.mp htask
      exact ⟨task, Table.mem_of_find? hid, rfl, rfl⟩
    · exact h.tenant tick htick task htask
  | crash =>
    exact h.mono (keepsTenants_refl _)
      (fun x hx _ htask => ⟨x, (Table.mem_delete.mp hx).1, htask⟩) (fun _ _ => id) rfl
  | trigger hfresh henqueue =>
    exact h.mono (keepsTenants_refl _) (fun x hx _ htask => ⟨x, hx, htask⟩)
      (fun _ _ => findByIdempotencyKey_enqueue henqueue) rfl
  | createThread hfiring | participate hfiring | seed hfiring =>
    exact h.mono (keepsTenants_refl _) (due_put (Table.mem_of_find? hfiring.found) (List.Subset.refl _))
      (fun _ _ => id) rfl
  | fail hfiring =>
    exact h.mono (keepsTenants_refl _)
      (due_put (Table.mem_of_find? hfiring.found) (hfiring.head ▸ List.subset_cons_self _ _))
      (fun _ _ => id) rfl
  | recordFired hfiring =>
    exact h.mono recordFired_keepsTenants
      (due_put (Table.mem_of_find? hfiring.found) (hfiring.head ▸ List.subset_cons_self _ _))
      (fun _ _ => id) rfl
  | @enqueue w request now tick task rest thread state seed queue id hfiring hpc hfresh henqueue =>
    obtain ⟨k, trig, hk, horg, rfl, hqueue⟩ := enqueueFire_some henqueue
    have htick := Table.mem_of_find? hfiring.found
    have htask : task ∈ tick.due := hfiring.head ▸ List.mem_cons_self
    have hgrown := h.mono (t := { s with queue, ticks := s.ticks.put { tick with pc := .enqueued id } })
      (keepsTenants_refl _) (due_put htick (List.Subset.refl _))
      (fun _ _ => findByIdempotencyKey_enqueue hqueue) rfl
    rcases enqueueTrigger_cases hqueue with ⟨existing, hexisting, -, rfl⟩ | ⟨rfl, row, hrow⟩
    · have hne : existing.id ≠ request := fun e =>
        Table.find?_eq_none.mp hfresh existing (List.mem_of_find?_eq_some hexisting) e
      simpa [hne] using hgrown
    · rw [if_pos rfl]
      refine ⟨hgrown.tenant, fun x hx => ?_, fun f => ?_⟩
      · rcases List.mem_append.mp hx with hx | hx
        · exact hgrown.keyed x hx
        · obtain rfl := List.mem_singleton.mp hx
          obtain ⟨r, hr, hid, hr'⟩ := h.tenant tick htick task htask
          refine ⟨r, hr, trig.idempotencyKey, hid, hk, ?_⟩
          rw [hr', ← horg]
          exact findByIdempotencyKey_enqueued hqueue
      · rw [St.triggersOf, List.filter_append]
        by_cases hf : (task.id, task.fireAt tick.now) = f
        · have hnil := h.triggersOf_eq_nil htick htask hk (horg ▸ hrow.unseen)
          rw [← hf, ← St.triggersOf, hnil]
          exact List.length_filter_le _ _
        · simpa [St.triggersOf, hf] using h.once f

end KeyInv

structure EffectInv (s : St) : Prop where
  seeds : SeedInv s.ticks s.threads
  keys : KeyInv s

theorem EffectInv.step {a : Act} (h : EffectInv s) (hstep : step env s a = some t) : EffectInv t :=
  ⟨h.seeds.step hstep, h.keys.step hstep⟩

theorem effectInv_init : EffectInv .init where
  seeds := ⟨nofun, nofun, nofun, nofun⟩
  keys := ⟨nofun, nofun, fun _ => Nat.zero_le _⟩

theorem seedsOf_length_le (h : EffectInv s) (f : FireKey) :
    (s.seedsOf f).length ≤ (s.threadsOf f).length := by
  have hfed : ∀ row ∈ s.threadsOf f, row.feed.messages.length ≤ 1 := fun row hrow =>
    h.seeds.fed row (List.mem_of_mem_filter hrow)
  rw [St.seedsOf, List.length_flatMap]
  calc ((s.threadsOf f).map fun row => row.feed.messages.length).sum
      ≤ ((s.threadsOf f).map fun _ => 1).sum := List.sum_le_sum hfed
    _ = (s.threadsOf f).length := by simp

theorem oneEffect_iff (h : EffectInv s) (f : FireKey) :
    OneEffect s f ↔ (s.threadsOf f).length ≤ 1 :=
  ⟨OneEffect.threads, fun hone => ⟨hone, (seedsOf_length_le h f).trans hone, h.keys.once f⟩⟩

theorem threadsOf_modify {threads : Table ThreadRow} {g : ThreadRow → ThreadRow}
    (hg : ∀ row, key (g row) = key row) (hfiring : ∀ row, (g row).firing = row.firing)
    (hthreads : t.threads = threads.modify g hg) (hs : s.threads = threads) (f : FireKey) :
    (t.threadsOf f).length = (s.threadsOf f).length := by
  have hcomp : ((fun row : ThreadRow => decide (row.firing = f)) ∘ g) =
      fun row => decide (row.firing = f) :=
    funext fun row => by rw [Function.comp_apply, hfiring]
  rw [St.threadsOf, hthreads, Table.modify, List.filter_map, List.length_map, hcomp, St.threadsOf, hs]

theorem oneEffect_step {a : Act} (hinv : EffectInv s) (hone : ∀ f, OneEffect s f)
    (hstep : step env s a = some t) : (∀ f, OneEffect t f) ↔ FirstThread s a := by
  have hlength : ∀ f, (s.threadsOf f).length ≤ 1 := fun f => (hone f).threads
  rw [forall_congr' (oneEffect_iff (hinv.step hstep))]
  cases step_stepped hstep with
  | create | cancel | claim | crash | trigger | enqueue | recordFired | fail =>
    exact iff_of_true hlength trivial
  | participate =>
    refine iff_of_true (fun f => ?_) trivial
    rw [threadsOf_modify (ThreadRow.participate_key _ _) (ThreadRow.participate_firing _ _) rfl rfl]
    exact hlength f
  | seed =>
    refine iff_of_true (fun f => ?_) trivial
    rw [threadsOf_modify (ThreadRow.append_key _ _) (ThreadRow.append_firing _ _) rfl rfl]
    exact hlength f
  | @createThread w thread tick task rest row threads hfiring hpc hrow hins =>
    obtain ⟨-, -, hat⟩ := threadFor_some hrow
    have hrows : ∀ f, threads.rows.filter (·.firing = f) =
        s.threadsOf f ++ if row.firing = f then [row] else [] := fun f => by
      rw [Table.rows_insert? hins, List.filter_append, St.threadsOf]
      simp [List.filter_singleton]
    constructor
    · intro h tick' task' rest' hfiring'
      obtain ⟨rfl, rfl, -⟩ := hfiring.unique hfiring'
      have hle := h (task'.id, task'.fireAt tick'.now)
      rw [St.threadsOf, hrows, if_pos hat, List.length_append, List.length_singleton] at hle
      exact List.eq_nil_of_length_eq_zero (Nat.le_zero.mp (Nat.le_of_add_le_add_right hle))
    · intro hfirst f
      rw [St.threadsOf, hrows]
      split
      case isTrue e =>
        rw [← e, hat, hfirst tick task rest hfiring]
        exact Nat.le_refl 1
      case isFalse =>
        rw [List.append_nil]
        exact hlength f

/-- In a schedule of any length, no fire has two effects exactly as long as each thread is
created for a fire that has none. -/
theorem oneEffect_iff_firstThread (env : Env) (as : List Act) :
    Always (step env) (fun s => ∀ f, OneEffect s f) .init as ↔
      Steps (step env) FirstThread .init as :=
  always_iff_steps EffectInv (fun _ _ _ hinv _ hstep _ => hinv.step hstep)
    (fun _ _ _ hinv hone hstep => oneEffect_step hinv hone hstep) effectInv_init
    (fun _ => ⟨Nat.zero_le _, Nat.zero_le _, Nat.zero_le _⟩) as

namespace Sample

def firedAgain : List Act :=
  [.create 7 0 digest, .claim 8 fiveOClock [7], .createThread 8 9, .participate 8 10, .seed 8 11,
    .enqueue 8 12 fiveOClock, .crash 8, .claim 13 fiveOClock [7], .createThread 13 14,
    .participate 13 15, .seed 13 16, .enqueue 13 17 fiveOClock, .recordFired 13 fiveOClock]

end Sample

/-- The retry leaves a second thread with a second seed; only its trigger is the first one's. -/
theorem two_threads_of_one_fire :
    ∃ s, run (step Sample.deployment) .init Sample.firedAgain = some s ∧
      (s.threadsOf (7, Sample.fiveOClock)).length = 2 ∧
      (s.seedsOf (7, Sample.fiveOClock)).length = 2 ∧
      (s.triggersOf (7, Sample.fiveOClock)).length = 1 ∧
      ¬ ∀ f, OneEffect s f := by
  have hrun : (run (step Sample.deployment) .init Sample.firedAgain).any fun s =>
      (s.threadsOf (7, Sample.fiveOClock)).length = 2 ∧
        (s.seedsOf (7, Sample.fiveOClock)).length = 2 ∧
        (s.triggersOf (7, Sample.fiveOClock)).length = 1 := by
    decide +kernel
  obtain ⟨s, hs, htwo⟩ := (Option.any_eq_true _ _).mp hrun
  obtain ⟨hthreads, hseeds, htriggers⟩ := of_decide_eq_true htwo
  refine ⟨s, hs, hthreads, hseeds, htriggers, fun hone => ?_⟩
  have hle := (hone (7, Sample.fiveOClock)).threads
  omega

end Patom.Scheduling
