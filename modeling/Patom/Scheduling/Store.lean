import Patom.Foundation.Table
import Patom.Runtime.Types
import Patom.Text
import Patom.Types

open Patom.Foundation
open Patom.Runtime (PromptRequestId)

namespace Patom.Scheduling

abbrev ScheduledTaskId := Uuid
abbrev ChannelId := Uuid

def PROMPT_MAX_BYTES : Nat := 64 * 1024

structure ScheduledPrompt where
  asStr : String
  nonempty : trim asStr.toList ≠ []
  bounded : asStr.utf8ByteSize ≤ PROMPT_MAX_BYTES

def ScheduledPrompt.tryFrom (raw : String) : Except ParseError ScheduledPrompt :=
  if h : trim raw.toList = [] then .error (.empty "scheduled_prompt")
  else if h' : raw.utf8ByteSize ≤ PROMPT_MAX_BYTES then .ok ⟨raw, h, h'⟩
  else .error (.tooLong "scheduled_prompt" PROMPT_MAX_BYTES raw.utf8ByteSize)

inductive Weekday
  | mon
  | tue
  | wed
  | thu
  | fri
  | sat
  | sun
  deriving DecidableEq

def Weekday.bit : Weekday → Nat
  | .mon => 0
  | .tue => 1
  | .wed => 2
  | .thu => 3
  | .fri => 4
  | .sat => 5
  | .sun => 6

structure Weekdays where
  bits : BitVec 8
  nonempty : bits ≠ 0
  deriving DecidableEq

def Weekdays.contains (weekdays : Weekdays) (w : Weekday) : Bool := weekdays.bits.getLsbD w.bit

structure TimeOfDay where
  hour : Nat
  minute : Nat
  hourBound : hour ≤ 23
  minuteBound : minute ≤ 59
  deriving DecidableEq

def TimeOfDay.tryNew (hour minute : Nat) : Except ParseError TimeOfDay :=
  if h : hour ≤ 23 then
    if h' : minute ≤ 59 then .ok ⟨hour, minute, h, h'⟩
    else .error (.outOfRange "time_of_day.minute" "0..=59")
  else .error (.outOfRange "time_of_day.hour" "0..=23")

structure Timezone where
  name : String
  deriving DecidableEq

inductive MappedLocalTime
  | none
  | single (t : Time)
  | ambiguous (earliest latest : Time)

/-- The calendar and its time zones, with days counted from any fixed one. -/
structure Calendar where
  dateNaive : Timezone → Time → Nat
  weekday : Nat → Weekday
  withYmdAndHms : Timezone → Nat → TimeOfDay → MappedLocalTime

inductive ScheduleSpec
  | once (runAt : Time)
  | recurring (weekdays : Weekdays) (time : TimeOfDay) (tz : Timezone)
  deriving DecidableEq

def MappedLocalTime.earliest? : MappedLocalTime → Option Time
  | .none => Option.none
  | .single t | .ambiguous t _ => some t

/-- The first matching day of the next nine whose instant lies ahead. -/
def nextRecurring (cal : Calendar) (now : Time) (weekdays : Weekdays) (time : TimeOfDay)
    (tz : Timezone) : Option Time :=
  (List.range 9).findSome? fun offset =>
    let date := cal.dateNaive tz now + offset
    if weekdays.contains (cal.weekday date) then
      (cal.withYmdAndHms tz date time).earliest?.filter fun t => now < t
    else none

def ScheduleSpec.nextAfter (cal : Calendar) (now : Time) : ScheduleSpec → Option Time
  | .once runAt => if now < runAt then some runAt else none
  | .recurring weekdays time tz => nextRecurring cal now weekdays time tz

theorem ScheduleSpec.lt_of_nextAfter {cal : Calendar} {spec : ScheduleSpec} {now t : Time}
    (h : spec.nextAfter cal now = some t) : now < t := by
  cases spec with
  | once runAt =>
    obtain ⟨hlt, hsome⟩ := Option.ite_none_right_eq_some.mp h
    exact Option.some.inj hsome ▸ hlt
  | recurring weekdays time tz =>
    obtain ⟨offset, -, hday⟩ := List.exists_of_findSome?_eq_some h
    obtain ⟨-, hfilter⟩ := Option.ite_none_right_eq_some.mp hday
    simpa using (Option.filter_eq_some_iff.mp hfilter).2

inductive ScheduledTaskState
  | active
  | done
  | cancelled
  deriving DecidableEq

def MAX_SCHEDULED_TASKS_PER_AGENT : Nat := 50

structure ScheduledTaskRecord where
  id : ScheduledTaskId
  ownerAgentId : AgentId
  orgId : OrgId
  createdByUserId : UserId
  channelId : Option ChannelId
  prompt : ScheduledPrompt
  schedule : ScheduleSpec
  nextRunAt : Option Time
  lastFiredAt : Option Time
  lastRequestId : Option PromptRequestId
  state : ScheduledTaskState
  createdAt : Time
  updatedAt : Time

instance : Keyed ScheduledTaskRecord ScheduledTaskId := ⟨(·.id)⟩

structure NewScheduledTask where
  ownerAgentId : AgentId
  orgId : OrgId
  createdByUserId : UserId
  channelId : Option ChannelId
  prompt : ScheduledPrompt
  schedule : ScheduleSpec
  nextRunAt : Option Time

inductive ScheduledTaskError
  | notFound (id : ScheduledTaskId)
  | perAgentCapExceeded (agent : AgentId) (max : Nat)
  | db (constraint : String)
  deriving DecidableEq

abbrev ScheduledTasks := Table ScheduledTaskRecord

def activeCount (owner : AgentId) (tasks : ScheduledTasks) : Nat :=
  tasks.rows.countP fun r => r.ownerAgentId = owner ∧ r.state = .active

def create (id : ScheduledTaskId) (now : Time) (payload : NewScheduledTask) (tasks : ScheduledTasks) :
    Except ScheduledTaskError ScheduledTasks :=
  if MAX_SCHEDULED_TASKS_PER_AGENT ≤ activeCount payload.ownerAgentId tasks then
    .error (.perAgentCapExceeded payload.ownerAgentId MAX_SCHEDULED_TASKS_PER_AGENT)
  else
    let row : ScheduledTaskRecord :=
      { payload with
        id, lastFiredAt := none, lastRequestId := none, state := .active, createdAt := now,
        updatedAt := now }
    match tasks.insert? row with
    | none => .error (.db "scheduled_tasks_pkey")
    | some tasks => .ok tasks

def setCancelled (id : ScheduledTaskId) (now : Time) (r : ScheduledTaskRecord) : ScheduledTaskRecord :=
  if r.id = id then { r with state := .cancelled, nextRunAt := none, updatedAt := now } else r

theorem setCancelled_key (id : ScheduledTaskId) (now : Time) (r : ScheduledTaskRecord) :
    key (setCancelled id now r) = key r := by
  unfold setCancelled
  split <;> rfl

/-- A task of another owner is not found; one that is no longer active stays as it is. -/
def cancel (task : ScheduledTaskId) (owner : AgentId) (now : Time) (tasks : ScheduledTasks) :
    Except ScheduledTaskError ScheduledTasks :=
  match (tasks.find? task).filter fun r => r.ownerAgentId = owner with
  | none => .error (.notFound task)
  | some r =>
    if r.state = .active then .ok (tasks.modify (setCancelled task now) (setCancelled_key task now))
    else .ok tasks

def isDue (now : Time) (r : ScheduledTaskRecord) : Bool :=
  r.state = .active ∧ r.nextRunAt.any fun t => t ≤ now

def runAt (tasks : ScheduledTasks) (id : ScheduledTaskId) : Time :=
  ((tasks.find? id).bind (·.nextRunAt)).getD 0

/-- A result of `ORDER BY next_run_at ASC LIMIT n` over the due rows: the order of ties is open. -/
structure ClaimDue (now : Time) (limit : Nat) (tasks : ScheduledTasks) (due : List ScheduledTaskId) :
    Prop where
  nodup : due.Nodup
  length : due.length = min limit (tasks.rows.countP (isDue now))
  isDue : ∀ id ∈ due, (tasks.find? id).any (isDue now)
  sorted : due.Pairwise fun a b => runAt tasks a ≤ runAt tasks b
  first : ∀ r ∈ tasks.rows, Scheduling.isDue now r → r.id ∈ due ∨ ∀ id ∈ due, runAt tasks id ≤ runAt tasks r.id

theorem claimDue_iff {now : Time} {limit : Nat} {tasks : ScheduledTasks}
    {due : List ScheduledTaskId} :
    ClaimDue now limit tasks due ↔
      due.Nodup ∧ due.length = min limit (tasks.rows.countP (isDue now)) ∧
        (due.all fun id => (tasks.find? id).any (isDue now)) ∧
        (due.Pairwise fun a b => runAt tasks a ≤ runAt tasks b) ∧
        tasks.rows.all fun r => isDue now r →
          r.id ∈ due ∨ due.all fun id => runAt tasks id ≤ runAt tasks r.id := by
  simp only [List.all_eq_true, decide_eq_true_eq]
  constructor
  · exact fun h => ⟨h.nodup, h.length, h.isDue, h.sorted, h.first⟩
  · rintro ⟨hnodup, hlength, hdue, hsorted, hfirst⟩
    exact ⟨hnodup, hlength, hdue, hsorted, hfirst⟩

instance (now : Time) (limit : Nat) (tasks : ScheduledTasks) (due : List ScheduledTaskId) :
    Decidable (ClaimDue now limit tasks due) :=
  decidable_of_iff _ claimDue_iff.symm

def setFired (task : ScheduledTaskId) (request : PromptRequestId) (firedAt : Time)
    (nextRunAt : Option Time) (now : Time) (r : ScheduledTaskRecord) : ScheduledTaskRecord :=
  if r.id = task then
    { r with
      lastFiredAt := some firedAt
      lastRequestId := some request
      nextRunAt
      state := if nextRunAt.isSome then .active else .done
      updatedAt := now }
  else r

theorem setFired_key (task : ScheduledTaskId) (request : PromptRequestId) (firedAt : Time)
    (nextRunAt : Option Time) (now : Time) (r : ScheduledTaskRecord) :
    key (setFired task request firedAt nextRunAt now r) = key r := by
  unfold setFired
  split <;> rfl

/-- The write-back of a fire, whatever the row has become meanwhile. -/
def recordFired (task : ScheduledTaskId) (request : PromptRequestId) (firedAt : Time)
    (nextRunAt : Option Time) (now : Time) (tasks : ScheduledTasks) : ScheduledTasks :=
  tasks.modify (setFired task request firedAt nextRunAt now)
    (setFired_key task request firedAt nextRunAt now)

def KeepsTenants (tasks tasks' : ScheduledTasks) : Prop :=
  ∀ r ∈ tasks, ∃ r' ∈ tasks', r'.id = r.id ∧ r'.orgId = r.orgId

theorem keepsTenants_modify {tasks : ScheduledTasks} {f : ScheduledTaskRecord → ScheduledTaskRecord}
    (hf : ∀ r, key (f r) = key r) (horg : ∀ r, (f r).orgId = r.orgId) :
    KeepsTenants tasks (tasks.modify f hf) :=
  fun r hr => ⟨f r, Table.mem_modify.mpr ⟨r, hr, rfl⟩, hf r, horg r⟩

theorem mem_recordFired {task : ScheduledTaskId} {request : Runtime.PromptRequestId} {firedAt now : Time}
    {next : Option Time} {tasks : ScheduledTasks} {r : ScheduledTaskRecord} :
    r ∈ recordFired task request firedAt next now tasks ↔
      ∃ r' ∈ tasks, setFired task request firedAt next now r' = r :=
  Table.mem_modify

theorem cancel_ok {task : ScheduledTaskId} {owner : AgentId} {now : Time} {tasks tasks' : ScheduledTasks}
    (h : cancel task owner now tasks = .ok tasks') :
    ∃ r, tasks.find? task = some r ∧
      (r.state = .active ∧ tasks' = tasks.modify (setCancelled task now) (setCancelled_key task now) ∨
        r.state ≠ .active ∧ tasks' = tasks) := by
  unfold cancel at h
  split at h
  case h_1 => cases h
  case h_2 r hr =>
    refine ⟨r, (Option.filter_eq_some_iff.mp hr).1, ?_⟩
    split at h
    case isTrue hactive =>
      cases h
      exact .inl ⟨hactive, rfl⟩
    case isFalse hactive =>
      cases h
      exact .inr ⟨hactive, rfl⟩

theorem create_ok {id : ScheduledTaskId} {now : Time} {payload : NewScheduledTask}
    {tasks tasks' : ScheduledTasks} (h : create id now payload tasks = .ok tasks') :
    ∃ r : ScheduledTaskRecord, r.id = id ∧ r.orgId = payload.orgId ∧
      tasks.insert? r = some tasks' := by
  unfold create at h
  split at h
  case isTrue => cases h
  case isFalse =>
    simp only at h
    split at h
    case h_1 => cases h
    case h_2 hins =>
      cases h
      exact ⟨_, rfl, rfl, hins⟩

theorem cancel_rows {task : ScheduledTaskId} {owner : AgentId} {now : Time}
    {tasks tasks' : ScheduledTasks} (h : cancel task owner now tasks = .ok tasks')
    {r : ScheduledTaskRecord} (hr : r ∈ tasks') :
    (r.id = task → r.state ≠ .active) ∧ (r.id ≠ task → r ∈ tasks) := by
  obtain ⟨r', hr', ⟨-, rfl⟩ | ⟨hstate, rfl⟩⟩ := cancel_ok h
  · obtain ⟨x, hx, rfl⟩ := Table.mem_modify.mp hr
    unfold setCancelled
    split
    case isTrue hid => exact ⟨fun _ => by simp, fun hne => absurd hid hne⟩
    case isFalse hid => exact ⟨fun e => absurd e hid, fun _ => hx⟩
  · refine ⟨fun hid => ?_, fun _ => hr⟩
    obtain ⟨hmem, hkey⟩ := Table.find?_eq_some.mp hr'
    rwa [Table.eq_of_key_eq hr hmem (hid.trans hkey.symm)]

theorem create_keepsTenants {id : ScheduledTaskId} {now : Time} {payload : NewScheduledTask}
    {tasks tasks' : ScheduledTasks} (h : create id now payload tasks = .ok tasks') :
    KeepsTenants tasks tasks' := by
  obtain ⟨x, -, -, hins⟩ := create_ok h
  exact fun r hr => ⟨r, (Table.mem_insert? hins).mpr (.inl hr), rfl, rfl⟩

theorem cancel_keepsTenants {task : ScheduledTaskId} {owner : AgentId} {now : Time}
    {tasks tasks' : ScheduledTasks} (h : cancel task owner now tasks = .ok tasks') :
    KeepsTenants tasks tasks' := by
  obtain ⟨-, -, ⟨-, rfl⟩ | ⟨-, rfl⟩⟩ := cancel_ok h
  · refine keepsTenants_modify _ fun r => ?_
    unfold setCancelled
    split <;> rfl
  · exact fun r hr => ⟨r, hr, rfl, rfl⟩

theorem recordFired_keepsTenants {task : ScheduledTaskId} {request : Runtime.PromptRequestId}
    {firedAt now : Time} {next : Option Time} {tasks : ScheduledTasks} :
    KeepsTenants tasks (recordFired task request firedAt next now tasks) := by
  refine keepsTenants_modify _ fun r => ?_
  unfold setFired
  split <;> rfl

end Patom.Scheduling
