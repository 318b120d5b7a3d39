import Mathlib.Tactic.IntervalCases
import Mathlib.Tactic.SplitIfs
import Patom.Scheduling.Store

namespace Patom.Scheduling

open Foundation

def Weekday.succ : Weekday → Weekday
  | .mon => .tue
  | .tue => .wed
  | .wed => .thu
  | .thu => .fri
  | .fri => .sat
  | .sat => .sun
  | .sun => .mon

def Calendar.fire (cal : Calendar) (tz : Timezone) (time : TimeOfDay) (date : Nat) : Option Time :=
  (cal.withYmdAndHms tz date time).earliest?

/-- A zone as its users know it: weekdays in turn, fires in the order of their days, days before
today behind the clock and days after tomorrow ahead of it, missing local times a week apart. -/
structure Calendar.Zoned (cal : Calendar) (tz : Timezone) : Prop where
  weekday_succ : ∀ date, cal.weekday (date + 1) = (cal.weekday date).succ
  fire_lt : ∀ {time d e t u}, d < e → cal.fire tz time d = some t → cal.fire tz time e = some u →
    t < u
  past : ∀ {time now d t}, d < cal.dateNaive tz now → cal.fire tz time d = some t → t ≤ now
  ahead : ∀ {time now d t}, cal.dateNaive tz now + 2 ≤ d → cal.fire tz time d = some t → now < t
  gaps : ∀ {time d e}, d < e → cal.fire tz time d = none → cal.fire tz time e = none → d + 7 ≤ e

def Scheduled (cal : Calendar) (weekdays : Weekdays) (time : TimeOfDay) (tz : Timezone)
    (t : Time) : Prop :=
  ∃ date, weekdays.contains (cal.weekday date) ∧ cal.fire tz time date = some t

/-- The next run is the first fire ahead of now, and the task that ran stays active. -/
structure FiresNext (cal : Calendar) (now : Time) (weekdays : Weekdays) (time : TimeOfDay)
    (tz : Timezone) : Prop where
  next : ∃ t, (ScheduleSpec.recurring weekdays time tz).nextAfter cal now = some t ∧ now < t ∧
    Scheduled cal weekdays time tz t ∧
    ∀ u, Scheduled cal weekdays time tz u → now < u → t ≤ u
  active : ∀ (tasks : ScheduledTasks) task request firedAt clock r,
    (recordFired task request firedAt
      ((ScheduleSpec.recurring weekdays time tz).nextAfter cal now) clock tasks).find? task
        = some r →
    r.state = .active

/-- The only weekday of the set falls into a gap on the day its next fire is due: a day from the
second to the eighth after today, the fire of the week before it not being ahead of now. -/
def Skips (cal : Calendar) (now : Time) (weekdays : Weekdays) (time : TimeOfDay)
    (tz : Timezone) : Prop :=
  ∃ date, cal.dateNaive tz now + 2 ≤ date ∧ date ≤ cal.dateNaive tz now + 8 ∧
    cal.fire tz time date = none ∧
    (∀ w, weekdays.contains w ↔ w = cal.weekday date) ∧
    ∀ d t, d + 7 = date → cal.fire tz time d = some t → t ≤ now

section
variable {cal : Calendar} {tz : Timezone} {time : TimeOfDay} {weekdays : Weekdays} {now : Time}

theorem Weekday.succ_bit (w : Weekday) : w.succ.bit = (w.bit + 1) % 7 := by
  cases w <;> rfl

theorem Weekday.bit_lt (w : Weekday) : w.bit < 7 := by
  cases w <;> decide

theorem Weekday.bit_inj {w v : Weekday} (h : w.bit = v.bit) : w = v := by
  cases w <;> cases v <;> first | rfl | cases h

namespace Calendar.Zoned

theorem bit_add (h : cal.Zoned tz) (date k : Nat) :
    (cal.weekday (date + k)).bit = ((cal.weekday date).bit + k) % 7 := by
  induction k with
  | zero => exact (Nat.mod_eq_of_lt (Weekday.bit_lt _)).symm
  | succ k ih =>
    rw [← Nat.add_assoc, h.weekday_succ, Weekday.succ_bit, ih]
    omega

theorem weekday_week (h : cal.Zoned tz) (date : Nat) :
    cal.weekday (date + 7) = cal.weekday date := by
  apply Weekday.bit_inj
  rw [h.bit_add]
  have := (cal.weekday date).bit_lt
  omega

theorem exists_weekday (h : cal.Zoned tz) (w : Weekday) (date : Nat) :
    ∃ k < 7, cal.weekday (date + k) = w := by
  have hw := w.bit_lt
  have hd := (cal.weekday date).bit_lt
  refine ⟨(w.bit + 7 - (cal.weekday date).bit) % 7, Nat.mod_lt _ (by decide), ?_⟩
  apply Weekday.bit_inj
  rw [h.bit_add]
  omega

theorem fire_le (h : cal.Zoned tz) {d e : Nat} {t u : Time} (hde : d ≤ e)
    (ht : cal.fire tz time d = some t) (hu : cal.fire tz time e = some u) : t ≤ u := by
  obtain hlt | rfl := Nat.lt_or_eq_of_le hde
  · exact Nat.le_of_lt (h.fire_lt hlt ht hu)
  · exact Nat.le_of_eq (Option.some.inj (ht.symm.trans hu))

end Calendar.Zoned

def dueOn (cal : Calendar) (now : Time) (weekdays : Weekdays) (time : TimeOfDay) (tz : Timezone)
    (date : Nat) : Option Time :=
  if weekdays.contains (cal.weekday date) then
    (cal.withYmdAndHms tz date time).earliest?.filter fun t => now < t
  else none

theorem dueOn_eq_some {date : Nat} {t : Time} :
    dueOn cal now weekdays time tz date = some t ↔
      weekdays.contains (cal.weekday date) ∧ cal.fire tz time date = some t ∧ now < t := by
  simp [dueOn, Calendar.fire, Option.filter_eq_some_iff]

theorem nextAfter_recurring :
    (ScheduleSpec.recurring weekdays time tz).nextAfter cal now
      = (List.range 9).findSome? fun k =>
          dueOn cal now weekdays time tz (cal.dateNaive tz now + k) := rfl

theorem nextAfter_eq_none :
    (ScheduleSpec.recurring weekdays time tz).nextAfter cal now = none ↔
      ∀ k < 9, dueOn cal now weekdays time tz (cal.dateNaive tz now + k) = none := by
  simp [nextAfter_recurring, List.findSome?_eq_none_iff]

theorem nextAfter_eq_some {t : Time}
    (h : (ScheduleSpec.recurring weekdays time tz).nextAfter cal now = some t) :
    ∃ k, dueOn cal now weekdays time tz (cal.dateNaive tz now + k) = some t ∧
      ∀ j < k, dueOn cal now weekdays time tz (cal.dateNaive tz now + j) = none := by
  rw [nextAfter_recurring, List.findSome?_eq_some_iff] at h
  obtain ⟨before, k, after, hrange, hk, hbefore⟩ := h
  refine ⟨k, hk, fun j hj => hbefore j ?_⟩
  have hsorted : (before ++ k :: after).Pairwise (· < ·) := hrange ▸ List.pairwise_lt_range
  have hmem : j ∈ before ++ k :: after := by
    have hlast : k ∈ List.range 9 := by simp [hrange]
    rw [← hrange]
    exact List.mem_range.mpr (Nat.lt_trans hj (List.mem_range.mp hlast))
  obtain hb | hc := List.mem_append.mp hmem
  · exact hb
  · obtain ⟨-, hafter, -⟩ := List.pairwise_append.mp hsorted
    obtain rfl | ha := List.mem_cons.mp hc
    · omega
    · have := (List.pairwise_cons.mp hafter).1 j ha
      omega

theorem least_of_some (h : cal.Zoned tz) {t : Time}
    (hnext : (ScheduleSpec.recurring weekdays time tz).nextAfter cal now = some t) :
    now < t ∧ Scheduled cal weekdays time tz t ∧
      ∀ u, Scheduled cal weekdays time tz u → now < u → t ≤ u := by
  obtain ⟨k, hk, hfirst⟩ := nextAfter_eq_some hnext
  obtain ⟨hday, hfire, hlt⟩ := dueOn_eq_some.mp hk
  refine ⟨hlt, ⟨_, hday, hfire⟩, ?_⟩
  rintro u ⟨date, hdate, hu⟩ hnow
  have htoday : cal.dateNaive tz now ≤ date :=
    Nat.not_lt.mp fun hpast => Nat.not_le.mpr hnow (h.past hpast hu)
  obtain ⟨j, rfl⟩ := Nat.exists_eq_add_of_le htoday
  have hkj : k ≤ j := Nat.not_lt.mp fun hj => by
    have hnone := hfirst j hj
    rw [dueOn_eq_some.mpr ⟨hdate, hu, hnow⟩] at hnone
    cases hnone
  exact h.fire_le (Nat.add_le_add_left hkj _) hfire hu

theorem nextAfter_isSome_of_due {k : Nat} {t : Time} (hk : k < 9)
    (hdue : dueOn cal now weekdays time tz (cal.dateNaive tz now + k) = some t) :
    (ScheduleSpec.recurring weekdays time tz).nextAfter cal now ≠ none := by
  intro hnone
  rw [nextAfter_eq_none.mp hnone k hk] at hdue
  cases hdue

theorem gap_of_none (h : cal.Zoned tz) {k : Nat} (hk : k < 9) (h2 : 2 ≤ k)
    (hnone : (ScheduleSpec.recurring weekdays time tz).nextAfter cal now = none)
    (hday : weekdays.contains (cal.weekday (cal.dateNaive tz now + k))) :
    cal.fire tz time (cal.dateNaive tz now + k) = none := by
  cases hfire : cal.fire tz time (cal.dateNaive tz now + k) with
  | none => rfl
  | some t =>
    have hahead := h.ahead (Nat.add_le_add_left h2 _) hfire
    exact absurd hnone (nextAfter_isSome_of_due hk (dueOn_eq_some.mpr ⟨hday, hfire, hahead⟩))

theorem skips_of_none (h : cal.Zoned tz) (hne : ∃ w, weekdays.contains w)
    (hnone : (ScheduleSpec.recurring weekdays time tz).nextAfter cal now = none) :
    Skips cal now weekdays time tz := by
  obtain ⟨w, hw⟩ := hne
  obtain ⟨i, hi, rfl⟩ := h.exists_weekday w (cal.dateNaive tz now + 2)
  rw [Nat.add_assoc] at hw
  have hgap := gap_of_none h (by omega) (Nat.le_add_right 2 i) hnone hw
  refine ⟨cal.dateNaive tz now + (2 + i), by omega, by omega, hgap, ?_, ?_⟩
  · intro v
    constructor
    · intro hv
      obtain ⟨j, hj, rfl⟩ := h.exists_weekday v (cal.dateNaive tz now + 2)
      rw [Nat.add_assoc] at hv
      have hgap' := gap_of_none h (by omega) (Nat.le_add_right 2 j) hnone hv
      obtain hlt | heq | hlt := Nat.lt_trichotomy i j
      · have := h.gaps (by omega) hgap hgap'
        omega
      · rw [heq, Nat.add_assoc]
      · have := h.gaps (by omega) hgap' hgap
        omega
    · rintro rfl
      exact hw
  · intro d t hd hfire
    apply Nat.not_lt.mp
    intro hnow
    have htoday : cal.dateNaive tz now ≤ d :=
      Nat.not_lt.mp fun hpast => Nat.not_le.mpr hnow (h.past hpast hfire)
    obtain ⟨j, rfl⟩ := Nat.exists_eq_add_of_le htoday
    have hday : weekdays.contains (cal.weekday (cal.dateNaive tz now + j)) := by
      rw [← h.weekday_week, hd]
      exact hw
    exact nextAfter_isSome_of_due (by omega) (dueOn_eq_some.mpr ⟨hday, hfire, hnow⟩) hnone

theorem none_of_skips (h : cal.Zoned tz) (hskips : Skips cal now weekdays time tz) :
    (ScheduleSpec.recurring weekdays time tz).nextAfter cal now = none := by
  obtain ⟨date, hlow, hhigh, hgap, honly, hweek⟩ := hskips
  refine nextAfter_eq_none.mpr fun k hk => ?_
  cases hdue : dueOn cal now weekdays time tz (cal.dateNaive tz now + k) with
  | none => rfl
  | some t =>
    obtain ⟨hday, hfire, hnow⟩ := dueOn_eq_some.mp hdue
    have hsame := (honly _).mp hday
    obtain ⟨m, rfl⟩ := Nat.exists_eq_add_of_le (Nat.le_trans (Nat.le_add_right _ 2) hlow)
    -- Of the window's days only the gap and the day a week before it match.
    have hkm : k = m ∨ k + 7 = m := by
      have hd := (cal.weekday (cal.dateNaive tz now)).bit_lt
      have hbit := congrArg Weekday.bit hsame
      rw [h.bit_add, h.bit_add] at hbit
      omega
    obtain rfl | hkm := hkm
    · rw [hgap] at hfire
      cases hfire
    · exact absurd (hweek _ t (by omega) hfire) (Nat.not_le.mpr hnow)

theorem recordFired_state {task : ScheduledTaskId} {request : Runtime.PromptRequestId}
    {firedAt clock next : Time} {tasks : ScheduledTasks} {r : ScheduledTaskRecord}
    (h : (recordFired task request firedAt (some next) clock tasks).find? task = some r) :
    r.state = .active := by
  rw [recordFired, Table.find?_modify, Option.map_eq_some_iff] at h
  obtain ⟨old, hold, rfl⟩ := h
  have hid : old.id = task := Table.key_of_find? hold
  simp [setFired, hid]

/-- A recurring task fires next on time and forever, unless a gap takes its only day of the week. -/
theorem firesNext_iff (h : cal.Zoned tz) (hne : ∃ w, weekdays.contains w) :
    FiresNext cal now weekdays time tz ↔ ¬ Skips cal now weekdays time tz := by
  constructor
  · rintro ⟨⟨t, hsome, -⟩, -⟩ hskips
    rw [none_of_skips h hskips] at hsome
    cases hsome
  · intro hskips
    cases hnext : (ScheduleSpec.recurring weekdays time tz).nextAfter cal now with
    | none => exact absurd (skips_of_none h hne hnext) hskips
    | some t =>
      refine ⟨⟨t, hnext, least_of_some h hnext⟩, ?_⟩
      intro tasks task request firedAt clock r hr
      rw [hnext] at hr
      exact recordFired_state hr

end

def weekdayOf (date : Nat) : Weekday :=
  match date % 7 with
  | 0 => .mon
  | 1 => .tue
  | 2 => .wed
  | 3 => .thu
  | 4 => .fri
  | 5 => .sat
  | _ => .sun

def springsAt : Nat := 13 * 1440 + 120

def minuteOf (date : Nat) (time : TimeOfDay) : Nat := date * 1440 + time.hour * 60 + time.minute

def springForward : Calendar where
  dateNaive _ now := (if springsAt ≤ now then now + 60 else now) / 1440
  weekday := weekdayOf
  withYmdAndHms _ date time :=
    if minuteOf date time < springsAt then .single (minuteOf date time)
    else if minuteOf date time < springsAt + 60 then .none
    else .single (minuteOf date time - 60)

theorem springForward_fire {tz : Timezone} {time : TimeOfDay} {date : Nat} :
    springForward.fire tz time date =
      if minuteOf date time < springsAt then some (minuteOf date time)
      else if minuteOf date time < springsAt + 60 then none
      else some (minuteOf date time - 60) := by
  simp only [Calendar.fire, springForward]
  split
  · rfl
  · split <;> rfl

theorem minuteOf_day (time : TimeOfDay) {d e : Nat} (h : d < e) :
    minuteOf d time + 1440 ≤ minuteOf e time := by
  unfold minuteOf
  omega

theorem minuteOf_past (time : TimeOfDay) {d minute : Nat} (h : d < minute / 1440) :
    minuteOf d time < minute := by
  have := time.hourBound
  have := time.minuteBound
  unfold minuteOf
  omega

theorem minuteOf_ahead (time : TimeOfDay) {d minute : Nat} (h : minute / 1440 + 2 ≤ d) :
    minute + 1440 < minuteOf d time := by
  unfold minuteOf
  omega

theorem weekdayOf_succ (date : Nat) : weekdayOf (date + 1) = (weekdayOf date).succ := by
  have hlt : date % 7 < 7 := Nat.mod_lt _ (by decide)
  simp only [weekdayOf, Nat.add_mod date 1]
  generalize date % 7 = r at hlt
  interval_cases r <;> rfl

theorem springForward_zoned (tz : Timezone) : springForward.Zoned tz where
  weekday_succ := weekdayOf_succ
  fire_lt {time d e t u} hde ht hu := by
    have hday := minuteOf_day time hde
    rw [springForward_fire] at ht hu
    apply Nat.lt_of_succ_le
    split_ifs at ht hu <;> simp only [Option.some.injEq] at ht hu <;> omega
  past {time now d t} hd ht := by
    apply Nat.le_of_lt_succ
    have hminute := minuteOf_past time hd
    rw [springForward_fire] at ht
    split_ifs at hminute ht <;> simp only [Option.some.injEq] at ht <;> omega
  ahead {time now d t} hd ht := by
    apply Nat.lt_of_succ_le
    have hminute := minuteOf_ahead time hd
    rw [springForward_fire] at ht
    split_ifs at hminute ht <;> simp only [Option.some.injEq] at ht <;> omega
  gaps {time d e} hde hd he := by
    have hday := minuteOf_day time hde
    rw [springForward_fire] at hd he
    split_ifs at hd he
    omega

def sundays : Weekdays := ⟨0b1000000, by decide⟩
def halfPastTwo : TimeOfDay := ⟨2, 30, by decide, by decide⟩
def newYork : Timezone := ⟨"America/New_York"⟩

theorem firesNext_daily :
    FiresNext springForward (13 * 1440) ⟨0b1111111, by decide⟩ halfPastTwo newYork :=
  (firesNext_iff (springForward_zoned newYork) ⟨.mon, by decide⟩).mpr (by
    rintro ⟨date, -, -, -, honly, -⟩
    have hmon := (honly .mon).mp (by decide)
    have htue := (honly .tue).mp (by decide)
    cases hmon.trans htue.symm)

/-- Sundays at half past two: on the Monday before the gap the schedule is over. -/
theorem sunday_lost : springForward.Zoned newYork ∧ (∃ w, sundays.contains w) ∧
    (ScheduleSpec.recurring sundays halfPastTwo newYork).nextAfter springForward (7 * 1440) = none ∧
    Scheduled springForward sundays halfPastTwo newYork (20 * 1440 + 90) ∧
    ¬ FiresNext springForward (7 * 1440) sundays halfPastTwo newYork := by
  refine ⟨springForward_zoned newYork, ⟨.sun, by decide⟩, by decide +kernel,
    ⟨20, by decide, by decide +kernel⟩, ?_⟩
  rintro ⟨⟨t, hsome, -⟩, -⟩
  have hnone : (ScheduleSpec.recurring sundays halfPastTwo newYork).nextAfter springForward
      (7 * 1440) = none := by decide +kernel
  rw [hnone] at hsome
  cases hsome

end Patom.Scheduling
