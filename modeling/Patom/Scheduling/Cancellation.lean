import Patom.Scheduling.Scheduler

open Patom.Foundation

namespace Patom.Scheduling

/-- What was cancelled is not active, and no claim returns it. -/
structure Final (s : St) : Prop where
  inactive : ∀ id ∈ s.cancelled, ∀ r ∈ s.tasks, r.id = id → r.state ≠ .active
  unclaimed : ∀ id ∈ s.cancelled, ∀ now limit due, ClaimDue now limit s.tasks due → id ∉ due

/-- A fire is written back to a cancelled task only when its schedule has run out. -/
def SparesCancelled (env : Env) (s : St) : Act → Prop
  | .recordFired w _ => ∀ tick task rest, Firing s w tick task rest → task.id ∈ s.cancelled →
      task.schedule.nextAfter env.calendar tick.now = none
  | _ => True

def CancelledStored (s : St) : Prop := ∀ id ∈ s.cancelled, (s.tasks.find? id).isSome

variable {env : Env} {s t : St}

theorem final_iff :
    Final s ↔ ∀ id ∈ s.cancelled, ∀ r ∈ s.tasks, r.id = id → r.state ≠ .active := by
  refine ⟨Final.inactive, fun h => ⟨h, fun id hid now limit due hclaim hmem => ?_⟩⟩
  obtain ⟨r, hr, hdue⟩ := (Option.any_eq_true _ _).mp (hclaim.isDue id hmem)
  obtain ⟨hr, hkey⟩ := Table.find?_eq_some.mp hr
  refine h id hid r hr hkey ?_
  simp only [isDue, decide_eq_true_eq] at hdue
  exact hdue.1

theorem CancelledStored.step {a : Act} (h : CancelledStored s) (hstep : step env s a = some t) :
    CancelledStored t := by
  cases step_stepped hstep with
  | create hcreate =>
    intro id hid
    obtain ⟨r, -, -, hins⟩ := create_ok hcreate
    rw [Table.find?_insert? hins]
    split
    case isTrue => rfl
    case isFalse => exact h id hid
  | @cancel task owner now tasks hcancel =>
    intro id hid
    obtain ⟨r, hr, ⟨-, rfl⟩ | ⟨-, rfl⟩⟩ := cancel_ok hcancel
    · rw [Table.find?_modify, Option.isSome_map]
      rcases List.mem_cons.mp hid with rfl | hid
      · exact Option.isSome_of_eq_some hr
      · exact h id hid
    · rcases List.mem_cons.mp hid with rfl | hid
      · exact Option.isSome_of_eq_some hr
      · exact h id hid
  | recordFired =>
    intro id hid
    rw [recordFired, Table.find?_modify, Option.isSome_map]
    exact h id hid
  | claim | crash | trigger | createThread | participate | seed | enqueue | fail => exact h

theorem final_step {a : Act} (hstored : CancelledStored s) (hfinal : Final s)
    (hstep : step env s a = some t) : Final t ↔ SparesCancelled env s a := by
  rw [final_iff]
  have hinactive := hfinal.inactive
  cases step_stepped hstep with
  | create hcreate =>
    refine iff_of_true (fun id hid r hr hkey => ?_) trivial
    obtain ⟨r', -, -, hins⟩ := create_ok hcreate
    rcases (Table.mem_insert? hins).mp hr with hr | rfl
    · exact hinactive id hid r hr hkey
    · have hnone := Table.insert?_isSome.mp (Option.isSome_of_eq_some hins)
      have hsome := hstored id hid
      rw [← hkey, show s.tasks.find? r.id = none from hnone] at hsome
      cases hsome
  | @cancel task owner now tasks hcancel =>
    refine iff_of_true (fun id hid r hr hkey => ?_) trivial
    obtain ⟨hsame, hother⟩ := cancel_rows hcancel hr
    by_cases htask : r.id = task
    · exact hsame htask
    · refine hinactive id ((List.mem_cons.mp hid).resolve_left fun e => ?_) r (hother htask) hkey
      exact htask (hkey.trans e)
  | @recordFired w now tick task rest request hfiring hpc =>
    constructor
    · intro h tick' task' rest' hfiring' hcancelled
      obtain ⟨rfl, rfl, -⟩ := hfiring.unique hfiring'
      obtain ⟨r, hr⟩ := Option.isSome_iff_exists.mp (hstored task'.id hcancelled)
      obtain ⟨hr, hkey⟩ := Table.find?_eq_some.mp hr
      have hid : r.id = task'.id := hkey
      have hstate := h task'.id hcancelled _ (mem_recordFired.mpr ⟨r, hr, rfl⟩)
        (by rw [setFired, if_pos hid]; exact hid)
      rw [setFired, if_pos hid] at hstate
      simpa using hstate
    · intro hspares id hid r hr hkey
      obtain ⟨x, hx, rfl⟩ := mem_recordFired.mp hr
      unfold setFired at hkey ⊢
      split
      case isTrue hx' =>
        rw [if_pos hx'] at hkey
        have hnext := hspares tick task rest hfiring (hx' ▸ hkey ▸ hid)
        simp [hnext]
      case isFalse hx' =>
        rw [if_neg hx'] at hkey
        exact hinactive id hid x hx hkey
  | claim | crash | trigger | createThread | participate | seed | enqueue | fail =>
    exact iff_of_true hinactive trivial

theorem cancelledStored_init : CancelledStored .init :=
  fun _ hid => absurd hid List.not_mem_nil

theorem final_init : Final .init :=
  final_iff.mpr fun _ hid => absurd hid List.not_mem_nil

/-- In a schedule of any length, cancelled tasks stay cancelled exactly as long as no fire of one
is written back with a next run. -/
theorem final_iff_sparesCancelled (env : Env) (as : List Act) :
    Always (step env) Final .init as ↔ Steps (step env) (SparesCancelled env) .init as :=
  always_iff_steps CancelledStored (fun _ _ _ hstored _ hstep _ => hstored.step hstep)
    (fun _ _ _ hstored hfinal hstep => final_step hstored hfinal hstep) cancelledStored_init
    final_init as

namespace Sample

def calendar : Calendar where
  dateNaive _ now := now / Duration.fromSecs 86400
  weekday _ := .mon
  withYmdAndHms _ date time :=
    .single (date * Duration.fromSecs 86400 + Duration.fromSecs (time.hour * 3600 + time.minute * 60))

def deployment : Env where
  colleagues := ⟨[⟨1, 2, some 3⟩], by decide⟩
  resolveUser _ _ := some 4
  calendar := calendar
  toRfc3339 _ := "1970-01-01T00:00:00+00:00"
  batchLimit := 20

def fiveOClock : Time := Duration.fromSecs 18000

def digest : NewScheduledTask where
  ownerAgentId := 3
  orgId := 2
  createdByUserId := 5
  channelId := none
  prompt := ⟨"Read.", by decide, by decide⟩
  schedule := .recurring ⟨1, by decide⟩ ⟨5, 0, by decide, by decide⟩ ⟨"UTC"⟩
  nextRunAt := some fiveOClock

def cancelledMeanwhile : List Act :=
  [.create 7 0 digest, .claim 8 fiveOClock [7], .createThread 8 9, .participate 8 10, .seed 8 11,
    .enqueue 8 12 fiveOClock, .cancel 7 3 fiveOClock, .recordFired 8 fiveOClock]

end Sample

/-- The write-back revives the task, and the next day it is claimed again. -/
theorem active_after_cancel :
    ∃ s, run (step Sample.deployment) .init Sample.cancelledMeanwhile = some s ∧ 7 ∈ s.cancelled ∧
      (s.tasks.find? 7).map (·.state) = some .active ∧
      ClaimDue (Sample.fiveOClock + Duration.fromSecs 86400) 20 s.tasks [7] ∧ ¬ Final s := by
  have hrun : (run (step Sample.deployment) .init Sample.cancelledMeanwhile).any fun s =>
      7 ∈ s.cancelled ∧ (s.tasks.find? 7).map (·.state) = some .active ∧
        ClaimDue (Sample.fiveOClock + Duration.fromSecs 86400) 20 s.tasks [7] := by
    decide +kernel
  obtain ⟨s, hs, hrevived⟩ := (Option.any_eq_true _ _).mp hrun
  obtain ⟨hcancelled, hactive, hclaim⟩ := of_decide_eq_true hrevived
  refine ⟨s, hs, hcancelled, hactive, hclaim, fun hfinal => ?_⟩
  exact hfinal.unclaimed 7 hcancelled _ _ _ hclaim (List.mem_singleton.mpr rfl)

end Patom.Scheduling
