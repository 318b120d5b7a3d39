import Patom.Foundation.Journal
import Patom.Runtime.Queue
import Patom.Scheduling.Store
import Patom.Threads.Feed

/-! Schedulers that tick beside each other.  A tick claims what is due and fires it task by
task; each write of a fire is a transaction of its own, after which the scheduler may stop. -/

open Patom.Foundation
open Patom.Runtime (Colleague enqueueTrigger IdempotencyKey NewTrigger PromptRequestId
  resolveAgentColleague)
open Patom.Threads (NewMessage Thread)

namespace Patom.Scheduling

abbrev SchedulerId := Uuid

structure Env where
  colleagues : Table Colleague
  resolveUser : OrgId → UserId → Option ColleagueId
  calendar : Calendar
  toRfc3339 : Time → String
  batchLimit : Nat

structure ThreadRow where
  id : ThreadId
  orgId : OrgId
  channelId : Option ChannelId
  createdBy : ColleagueId
  dmCounterpart : Option ColleagueId
  participation : Option AgentThreadId
  feed : Thread
  firing : ScheduledTaskId × Time

instance : Keyed ThreadRow ThreadId := ⟨(·.id)⟩

inductive FirePc
  | start
  | created (thread : ThreadId) (state : Option AgentThreadId) (seed : Option ThreadMessageId)
  | enqueued (request : PromptRequestId)
  deriving DecidableEq

/-- A tick of a scheduler: the rows it claimed and has not finished, the first one being fired. -/
structure Tick where
  scheduler : SchedulerId
  now : Time
  due : List ScheduledTaskRecord
  pc : FirePc

instance : Keyed Tick SchedulerId := ⟨(·.scheduler)⟩

/-- `triggers` and `cancelled` only record what has happened. -/
structure St where
  tasks : ScheduledTasks
  threads : Table ThreadRow
  queue : Runtime.Db
  ticks : Table Tick
  triggers : List ((ScheduledTaskId × Time) × PromptRequestId)
  cancelled : List ScheduledTaskId

def St.init : St := ⟨.empty, .empty, ⟨.empty, .empty, .empty, .empty⟩, .empty, [], []⟩

inductive Act
  | create (id : ScheduledTaskId) (now : Time) (payload : NewScheduledTask)
  | cancel (task : ScheduledTaskId) (owner : AgentId) (now : Time)
  | claim (scheduler : SchedulerId) (now : Time) (due : List ScheduledTaskId)
  | createThread (scheduler : SchedulerId) (thread : ThreadId)
  | participate (scheduler : SchedulerId) (state : AgentThreadId)
  | seed (scheduler : SchedulerId) (message : ThreadMessageId)
  | enqueue (scheduler : SchedulerId) (request : PromptRequestId) (now : Time)
  | recordFired (scheduler : SchedulerId) (now : Time)
  | fail (scheduler : SchedulerId)
  | crash (scheduler : SchedulerId)
  | trigger (request : PromptRequestId) (now : Time) (trig : NewTrigger)

def ScheduledTaskRecord.fireAt (task : ScheduledTaskRecord) (now : Time) : Time :=
  task.nextRunAt.getD now

def schedKey (task : ScheduledTaskId) (fireAt : Time) : Except ParseError IdempotencyKey :=
  IdempotencyKey.tryFrom ("sched-" ++ task.display ++ "-" ++ toString (fireAt / 1000000))

def seedPromptText (toRfc3339 : Time → String) (task : ScheduledTaskRecord) : String :=
  match task.channelId with
  | none => task.prompt.asStr
  | some _ =>
    task.prompt.asStr ++ "\n\n<digest-window since=\"" ++
      toRfc3339 (task.lastFiredAt.getD task.createdAt) ++ "\"/>\n" ++
      "Messages since the last run are those at or after this timestamp; " ++
      "pass it as `since` when you read a channel."

def seedMessage (toRfc3339 : Time → String) (task : ScheduledTaskRecord) : NewMessage :=
  ⟨.systemNote, none, some task.ownerAgentId, .user [.text (seedPromptText toRfc3339 task)]⟩

def fireTrigger (task : ScheduledTaskRecord) (human : ColleagueId) (thread : ThreadId)
    (state : AgentThreadId) (seed : ThreadMessageId) (key : IdempotencyKey) : NewTrigger where
  orgId := task.orgId
  actingUserId := task.createdByUserId
  threadId := some thread
  stateId := some state
  backgroundTurnId := none
  senderColleagueId := human
  receiverAgentId := task.ownerAgentId
  rootRequestId := none
  triggerMessageId := some seed
  idempotencyKey := key
  kindPayload := .normal

def ThreadRow.participate (thread : ThreadId) (state : AgentThreadId) (row : ThreadRow) : ThreadRow :=
  if row.id = thread then { row with participation := some (row.participation.getD state) } else row

def ThreadRow.append (thread : ThreadId) (m : NewMessage) (row : ThreadRow) : ThreadRow :=
  if row.id = thread then { row with feed := row.feed.append m } else row

theorem ThreadRow.participate_key (thread : ThreadId) (state : AgentThreadId) (row : ThreadRow) :
    key (row.participate thread state) = key row := by
  unfold participate
  split <;> rfl

theorem ThreadRow.append_key (thread : ThreadId) (m : NewMessage) (row : ThreadRow) :
    key (row.append thread m) = key row := by
  unfold append
  split <;> rfl

section Env

variable (env : Env)

def threadFor (thread : ThreadId) (task : ScheduledTaskRecord) (now : Time) : Option ThreadRow := do
  let human ← env.resolveUser task.orgId task.createdByUserId
  let dmCounterpart ←
    if task.channelId.isSome then some none
    else (resolveAgentColleague env.colleagues task.orgId task.ownerAgentId).toOption.map some
  some ⟨thread, task.orgId, task.channelId, human, dmCounterpart, none, .empty,
    (task.id, task.fireAt now)⟩

def enqueueFire (task : ScheduledTaskRecord) (fireAt : Time) (thread : ThreadId)
    (state : AgentThreadId) (seed : ThreadMessageId) (request : PromptRequestId) (now : Time)
    (queue : Runtime.Db) : Option (Runtime.Db × PromptRequestId) := do
  let human ← env.resolveUser task.orgId task.createdByUserId
  let key ← (schedKey task.id fireAt).toOption
  (enqueueTrigger env.colleagues request now (fireTrigger task human thread state seed key)
    queue).toOption

def fireStep (s : St) (tick : Tick) (task : ScheduledTaskRecord) (rest : List ScheduledTaskRecord) :
    Act → Option St
  | .createThread _ thread =>
    match tick.pc with
    | .start => do
      let row ← threadFor env thread task tick.now
      let threads ← s.threads.insert? row
      some { s with threads, ticks := s.ticks.put { tick with pc := .created thread none none } }
    | _ => none
  | .participate _ state =>
    match tick.pc with
    | .created thread none seed => do
      let row ← s.threads.find? thread
      some { s with
        threads := s.threads.modify (·.participate thread state)
          (ThreadRow.participate_key thread state)
        ticks := s.ticks.put
          { tick with pc := .created thread (some (row.participation.getD state)) seed } }
    | _ => none
  | .seed _ message =>
    match tick.pc with
    | .created thread state none =>
      let m := seedMessage env.toRfc3339 task
      some { s with
        threads := s.threads.modify (·.append thread m) (ThreadRow.append_key thread m)
        ticks := s.ticks.put { tick with pc := .created thread state (some message) } }
    | _ => none
  | .enqueue _ request now =>
    match tick.pc with
    | .created thread (some state) (some seed) =>
      if (s.queue.promptRequests.find? request).isNone then do
        let fireAt := task.fireAt tick.now
        let (queue, id) ← enqueueFire env task fireAt thread state seed request now s.queue
        let minted := if id = request then [((task.id, fireAt), request)] else []
        some { s with
          queue
          ticks := s.ticks.put { tick with pc := .enqueued id }
          triggers := s.triggers ++ minted }
      else none
    | _ => none
  | .recordFired _ now =>
    match tick.pc with
    | .enqueued request =>
      let next := task.schedule.nextAfter env.calendar tick.now
      some { s with
        tasks := recordFired task.id request (task.fireAt tick.now) next now s.tasks
        ticks := s.ticks.put { tick with due := rest, pc := .start } }
    | _ => none
  | .fail _ => some { s with ticks := s.ticks.put { tick with due := rest, pc := .start } }
  | _ => none

def Act.scheduler? : Act → Option SchedulerId
  | .createThread w _ | .participate w _ | .seed w _ | .enqueue w _ _ | .recordFired w _ | .fail w =>
    some w
  | .create .. | .cancel .. | .claim .. | .crash .. | .trigger .. => none

def step : Step St Act
  | s, .create id now payload => do
    let tasks ← (create id now payload s.tasks).toOption
    some { s with tasks }
  | s, .cancel task owner now => do
    let tasks ← (cancel task owner now s.tasks).toOption
    some { s with tasks, cancelled := task :: s.cancelled }
  | s, .claim w now due =>
    if (∀ tick, s.ticks.find? w = some tick → tick.due = []) ∧
        ClaimDue now env.batchLimit s.tasks due then
      some { s with ticks := s.ticks.put ⟨w, now, due.filterMap s.tasks.find?, .start⟩ }
    else none
  | s, .crash w => some { s with ticks := s.ticks.delete fun tick => tick.scheduler = w }
  | s, .trigger request now trig =>
    if (s.queue.promptRequests.find? request).isNone then do
      let (queue, _) ← (enqueueTrigger env.colleagues request now trig s.queue).toOption
      some { s with queue }
    else none
  | s, a => do
    let w ← a.scheduler?
    let tick ← s.ticks.find? w
    match tick.due with
    | task :: rest => fireStep env s tick task rest a
    | [] => none

end Env

section Stepped

variable (env : Env) (s : St)

structure Firing (w : SchedulerId) (tick : Tick) (task : ScheduledTaskRecord)
    (rest : List ScheduledTaskRecord) : Prop where
  found : s.ticks.find? w = some tick
  head : tick.due = task :: rest

inductive Stepped : Act → St → Prop
  | create {id now payload tasks} : create id now payload s.tasks = .ok tasks →
      Stepped (.create id now payload) { s with tasks }
  | cancel {task owner now tasks} : cancel task owner now s.tasks = .ok tasks →
      Stepped (.cancel task owner now) { s with tasks, cancelled := task :: s.cancelled }
  | claim {w now due} : (∀ tick, s.ticks.find? w = some tick → tick.due = []) →
      ClaimDue now env.batchLimit s.tasks due →
      Stepped (.claim w now due)
        { s with ticks := s.ticks.put ⟨w, now, due.filterMap s.tasks.find?, .start⟩ }
  | crash {w} :
      Stepped (.crash w) { s with ticks := s.ticks.delete fun tick => tick.scheduler = w }
  | trigger {request now trig queue id} : s.queue.promptRequests.find? request = none →
      enqueueTrigger env.colleagues request now trig s.queue = .ok (queue, id) →
      Stepped (.trigger request now trig) { s with queue }
  | createThread {w thread tick task rest row threads} : Firing s w tick task rest →
      tick.pc = .start → threadFor env thread task tick.now = some row →
      s.threads.insert? row = some threads →
      Stepped (.createThread w thread)
        { s with threads, ticks := s.ticks.put { tick with pc := .created thread none none } }
  | participate {w state tick task rest thread seed row} : Firing s w tick task rest →
      tick.pc = .created thread none seed → s.threads.find? thread = some row →
      Stepped (.participate w state) { s with
        threads := s.threads.modify (·.participate thread state)
          (ThreadRow.participate_key thread state)
        ticks := s.ticks.put
          { tick with pc := .created thread (some (row.participation.getD state)) seed } }
  | seed {w message tick task rest thread state} : Firing s w tick task rest →
      tick.pc = .created thread state none →
      Stepped (.seed w message) { s with
        threads := s.threads.modify (·.append thread (seedMessage env.toRfc3339 task))
          (ThreadRow.append_key thread (seedMessage env.toRfc3339 task))
        ticks := s.ticks.put { tick with pc := .created thread state (some message) } }
  | enqueue {w request now tick task rest thread state seed queue id} : Firing s w tick task rest →
      tick.pc = .created thread (some state) (some seed) →
      s.queue.promptRequests.find? request = none →
      enqueueFire env task (task.fireAt tick.now) thread state seed request now s.queue =
        some (queue, id) →
      Stepped (.enqueue w request now) { s with
        queue
        ticks := s.ticks.put { tick with pc := .enqueued id }
        triggers := s.triggers ++
          if id = request then [((task.id, task.fireAt tick.now), request)] else [] }
  | recordFired {w now tick task rest request} : Firing s w tick task rest →
      tick.pc = .enqueued request →
      Stepped (.recordFired w now) { s with
        tasks := recordFired task.id request (task.fireAt tick.now)
          (task.schedule.nextAfter env.calendar tick.now) now s.tasks
        ticks := s.ticks.put { tick with due := rest, pc := .start } }
  | fail {w tick task rest} : Firing s w tick task rest →
      Stepped (.fail w) { s with ticks := s.ticks.put { tick with due := rest, pc := .start } }

end Stepped

variable {env : Env} {s t : St}

theorem Firing.unique {w : SchedulerId} {tick tick' : Tick} {task task' : ScheduledTaskRecord}
    {rest rest' : List ScheduledTaskRecord} (h : Firing s w tick task rest)
    (h' : Firing s w tick' task' rest') : tick' = tick ∧ task' = task ∧ rest' = rest := by
  obtain rfl := Option.some.inj (h.found.symm.trans h'.found)
  obtain ⟨rfl, rfl⟩ := List.cons.inj (h.head.symm.trans h'.head)
  exact ⟨rfl, rfl, rfl⟩

theorem threadFor_some {thread : ThreadId} {task : ScheduledTaskRecord} {now : Time}
    {row : ThreadRow} (h : threadFor env thread task now = some row) :
    row.id = thread ∧ row.feed = .empty ∧ row.firing = (task.id, task.fireAt now) := by
  obtain ⟨human, -, h⟩ := Option.bind_eq_some_iff.mp h
  simp only at h
  split at h
  · cases h
    exact ⟨rfl, rfl, rfl⟩
  · obtain ⟨counterpart, -, h⟩ := Option.bind_eq_some_iff.mp h
    cases h
    exact ⟨rfl, rfl, rfl⟩

@[simp] theorem ThreadRow.participate_feed (thread : ThreadId) (state : AgentThreadId)
    (row : ThreadRow) : (row.participate thread state).feed = row.feed := by
  unfold participate
  split <;> rfl

@[simp] theorem ThreadRow.participate_firing (thread : ThreadId) (state : AgentThreadId)
    (row : ThreadRow) : (row.participate thread state).firing = row.firing := by
  unfold participate
  split <;> rfl

@[simp] theorem ThreadRow.append_firing (thread : ThreadId) (m : NewMessage) (row : ThreadRow) :
    (row.append thread m).firing = row.firing := by
  unfold append
  split <;> rfl

theorem enqueueFire_some {task : ScheduledTaskRecord} {fireAt now : Time} {thread : ThreadId}
    {state : AgentThreadId} {seed : ThreadMessageId} {request id : PromptRequestId}
    {queue queue' : Runtime.Db}
    (h : enqueueFire env task fireAt thread state seed request now queue = some (queue', id)) :
    ∃ k trig, schedKey task.id fireAt = .ok k ∧ trig.orgId = task.orgId ∧ trig.idempotencyKey = k ∧
      enqueueTrigger env.colleagues request now trig queue = .ok (queue', id) := by
  obtain ⟨human, -, h⟩ := Option.bind_eq_some_iff.mp h
  obtain ⟨k, hk, h⟩ := Option.bind_eq_some_iff.mp h
  exact ⟨k, _, toOption_eq_some.mp hk, rfl, rfl, toOption_eq_some.mp h⟩

theorem fireStep_stepped {a : Act} {w : SchedulerId} {tick : Tick} {task : ScheduledTaskRecord}
    {rest : List ScheduledTaskRecord} (hw : a.scheduler? = some w) (hfiring : Firing s w tick task rest)
    (h : fireStep env s tick task rest a = some t) : Stepped env s a t := by
  cases a with
  | createThread w' thread =>
    obtain rfl := Option.some.inj hw
    simp only [fireStep] at h
    split at h
    case h_2 => cases h
    case h_1 hpc =>
      obtain ⟨row, hrow, h⟩ := Option.bind_eq_some_iff.mp h
      obtain ⟨threads, hthreads, h⟩ := Option.bind_eq_some_iff.mp h
      cases h
      exact .createThread hfiring hpc hrow hthreads
  | participate w' state =>
    obtain rfl := Option.some.inj hw
    simp only [fireStep] at h
    split at h
    case h_2 => cases h
    case h_1 hpc =>
      obtain ⟨row, hrow, h⟩ := Option.bind_eq_some_iff.mp h
      cases h
      exact .participate hfiring hpc hrow
  | seed w' message =>
    obtain rfl := Option.some.inj hw
    simp only [fireStep] at h
    split at h
    case h_2 => cases h
    case h_1 hpc =>
      cases h
      exact .seed hfiring hpc
  | enqueue w' request now =>
    obtain rfl := Option.some.inj hw
    simp only [fireStep] at h
    split at h
    case h_2 => cases h
    case h_1 hpc =>
      obtain ⟨hfresh, h⟩ := Option.ite_none_right_eq_some.mp h
      obtain ⟨⟨queue, id⟩, henqueue, h⟩ := Option.bind_eq_some_iff.mp h
      cases h
      exact .enqueue hfiring hpc (Option.isNone_iff_eq_none.mp hfresh) henqueue
  | recordFired w' now =>
    obtain rfl := Option.some.inj hw
    simp only [fireStep] at h
    split at h
    case h_2 => cases h
    case h_1 hpc =>
      cases h
      exact .recordFired hfiring hpc
  | fail w' =>
    obtain rfl := Option.some.inj hw
    cases h
    exact .fail hfiring
  | create | cancel | claim | crash | trigger => cases hw

theorem step_stepped {a : Act} (h : step env s a = some t) : Stepped env s a t := by
  cases a with
  | create id now payload =>
    obtain ⟨tasks, htasks, h⟩ := Option.bind_eq_some_iff.mp h
    cases h
    exact .create (toOption_eq_some.mp htasks)
  | cancel task owner now =>
    obtain ⟨tasks, htasks, h⟩ := Option.bind_eq_some_iff.mp h
    cases h
    exact .cancel (toOption_eq_some.mp htasks)
  | claim w now due =>
    simp only [step, Option.ite_none_right_eq_some, Option.some.injEq] at h
    obtain ⟨⟨hidle, hdue⟩, rfl⟩ := h
    exact .claim hidle hdue
  | crash w =>
    cases h
    exact .crash
  | trigger request now trig =>
    simp only [step, Option.ite_none_right_eq_some] at h
    obtain ⟨hfresh, h⟩ := h
    obtain ⟨⟨queue, id⟩, henqueue, h⟩ := Option.bind_eq_some_iff.mp h
    cases h
    exact .trigger (Option.isNone_iff_eq_none.mp hfresh) (toOption_eq_some.mp henqueue)
  | createThread | participate | seed | enqueue | recordFired | fail =>
    obtain ⟨tick, htick, h⟩ := Option.bind_eq_some_iff.mp h
    split at h
    case h_2 => cases h
    case h_1 hdue => exact fireStep_stepped rfl ⟨htick, hdue⟩ h

end Patom.Scheduling
