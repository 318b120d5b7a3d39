import Patom.Foundation.Table
import Patom.Foundation.Transition
import Patom.Types

open Patom.Foundation

namespace Patom.Threads.StreamPump

def MAX_SLACK_STREAM_PUMPS : Nat := 256
def SLACK_PUMP_IDLE_TTL : Duration := .fromSecs (30 * 60)
def MAX_LARK_STREAM_PUMPS : Nat := 256
def LARK_PUMP_IDLE_TTL : Duration := .fromSecs (30 * 60)

inductive Platform
  | slack
  | lark
  deriving DecidableEq

namespace Platform

def maxStreamPumps : Platform → Nat
  | slack => MAX_SLACK_STREAM_PUMPS
  | lark => MAX_LARK_STREAM_PUMPS

def pumpIdleTtl : Platform → Duration
  | slack => SLACK_PUMP_IDLE_TTL
  | lark => LARK_PUMP_IDLE_TTL

end Platform

/-- `left` has returned from `run_pump` and waits for the lock of the map. -/
inductive Phase
  | opening
  | reading (idleDeadline : Time)
  | flushing
  | left
  | finished
  deriving DecidableEq

def Phase.listens : Phase → Bool
  | opening | reading _ => true
  | flushing | left | finished => false

def Phase.awaits : Phase → Bool
  | opening | reading _ | flushing => true
  | left | finished => false

/-- `aborted` is heeded at an `await` only. -/
structure Task where
  thread : ThreadId
  phase : Phase
  aborted : Bool
  deriving DecidableEq

def Task.listens (task : Task) : Bool := task.phase.listens

def Task.receive (task : Task) (idleDeadline : Time) : Task :=
  match task.phase with
  | .reading _ => { task with phase := .reading idleDeadline }
  | .opening | .flushing | .left | .finished => task

structure Entry where
  thread : ThreadId
  handle : Nat
  deriving DecidableEq

instance entryKeyed : Keyed Entry ThreadId := ⟨(·.thread)⟩

/-- When an attach was processed, and until when a pump is due to the thread for it. -/
structure Attached where
  at_ : Time
  until_ : Time
  deriving DecidableEq

structure Supervisor where
  now : Time
  tasks : List Task
  live : Table Entry
  stopped : Bool
  attached : ThreadId → Option Attached

namespace Supervisor

def start : Supervisor := ⟨0, [], .empty, false, fun _ => none⟩

def setPhase (s : Supervisor) (i : Nat) (phase : Phase) : Supervisor :=
  { s with tasks := s.tasks.modify i fun task => { task with phase } }

def abort (s : Supervisor) (i : Nat) : Supervisor :=
  { s with tasks := s.tasks.modify i fun task => { task with aborted := true } }

def remove (s : Supervisor) (thread : ThreadId) : Supervisor :=
  { s with live := s.live.delete fun e => e.thread = thread }

def isFinished (s : Supervisor) (e : Entry) : Bool :=
  s.tasks[e.handle]?.any fun task => task.phase = .finished

/-- The map has no order: any finished entry may go, and any at all when none is finished. -/
def evict (s : Supervisor) (victim : ThreadId) : Option Supervisor :=
  (s.live.find? victim).bind fun e =>
    let s' := { s.remove victim with attached := Function.update s.attached victim none }
    if s.isFinished e then some s'
    else if s.live.rows.any s.isFinished then none
    else some (s'.abort e.handle)

def attach (s : Supervisor) (thread : ThreadId) (until_ : Time) : Supervisor :=
  { s with attached := Function.update s.attached thread (some ⟨s.now, until_⟩) }

section Platforms

variable (p : Platform)

/-- Only Slack reads its workspace between subscribing and reading. -/
def firstPhase (now : Time) : Phase :=
  match p with
  | .slack => .opening
  | .lark => .reading (now + p.pumpIdleTtl)

/-- Only Lark posts its pending links after the read loop. -/
def lastPhase : Phase :=
  match p with
  | .slack => .left
  | .lark => .flushing

def insert (s : Supervisor) (thread : ThreadId) : Supervisor :=
  { s with
    tasks := s.tasks ++ [⟨thread, firstPhase p s.now, false⟩]
    live := s.live.put ⟨thread, s.tasks.length⟩ }

def spawnPump (s : Supervisor) (thread : ThreadId) (victim : Option ThreadId) :
    Option Supervisor :=
  let until_ := s.now + p.pumpIdleTtl
  if (s.live.find? thread).isSome then some (s.attach thread until_)
  else if p.maxStreamPumps ≤ s.live.rows.length then
    victim.bind fun victim => (s.evict victim).map fun s => (s.insert p thread).attach thread until_
  else some ((s.insert p thread).attach thread until_)

def event (s : Supervisor) (thread : ThreadId) : Supervisor :=
  { s with
    tasks := s.tasks.map fun task =>
      if task.thread = thread then task.receive (s.now + p.pumpIdleTtl) else task
    attached := Function.update s.attached thread ((s.attached thread).map fun w =>
      if s.now < w.until_ then { w with until_ := s.now + p.pumpIdleTtl } else w) }

end Platforms

def shutdown (s : Supervisor) : Supervisor :=
  { s with
    tasks := s.tasks.mapIdx fun i task =>
      if s.live.rows.any (·.handle = i) then { task with aborted := true } else task
    live := .empty
    stopped := true
    attached := fun _ => none }

end Supervisor

/-- What the supervisor, the pumps, the streams and the clock do; a pump is named by its task. -/
inductive Act
  | wait (d : Duration)
  | attach (thread : ThreadId) (victim : Option ThreadId)
  | opened (i : Nat)
  | failed (i : Nat)
  | event (thread : ThreadId)
  | idle (i : Nat)
  | closed (i : Nat)
  | flushed (i : Nat)
  | cancelled (i : Nat)
  | removed (i : Nat)
  | dropped (i : Nat)
  | panicked (i : Nat)
  | shutdown
  deriving DecidableEq

section Platforms

variable (p : Platform)

def step : Step Supervisor Act
  | s, .wait d => some { s with now := s.now + d }
  | s, .attach thread victim => if s.stopped then none else s.spawnPump p thread victim
  | s, .opened i => s.tasks[i]?.bind fun task =>
    if task.phase = .opening then some (s.setPhase i (.reading (s.now + p.pumpIdleTtl))) else none
  | s, .failed i => s.tasks[i]?.bind fun task =>
    if task.phase = .opening then some (s.setPhase i .left) else none
  | s, .event thread => some (s.event p thread)
  | s, .idle i => s.tasks[i]?.bind fun task =>
    match task.phase with
    | .reading idleDeadline =>
      if idleDeadline ≤ s.now then some (s.setPhase i (Supervisor.lastPhase p)) else none
    | _ => none
  | s, .closed i => s.tasks[i]?.bind fun task =>
    match task.phase with
    | .reading _ => some (s.setPhase i (Supervisor.lastPhase p))
    | _ => none
  | s, .flushed i => s.tasks[i]?.bind fun task =>
    if task.phase = .flushing then some (s.setPhase i .left) else none
  | s, .cancelled i => s.tasks[i]?.bind fun task =>
    match task.phase with
    | .reading _ => if s.stopped then some (s.setPhase i .left) else none
    | _ => none
  | s, .removed i => s.tasks[i]?.bind fun task =>
    if task.phase = .left then some ((s.setPhase i .finished).remove task.thread) else none
  | s, .dropped i => s.tasks[i]?.bind fun task =>
    if task.aborted && task.phase.awaits then some (s.setPhase i .finished) else none
  | s, .panicked i => s.tasks[i]?.bind fun task =>
    if task.phase.awaits then some (s.setPhase i .finished) else none
  | s, .shutdown => if s.stopped then none else some s.shutdown

def Due (s : Supervisor) (thread : ThreadId) : Prop :=
  ∃ w, s.attached thread = some w ∧ s.now < w.until_

/-- A pump listens wherever one is due, and only one; an entry is of the newest pump. -/
structure Kept (s : Supervisor) : Prop where
  listening : ∀ thread, Due s thread →
    ∃ task ∈ s.tasks, task.thread = thread ∧ task.listens ∧ task.aborted = false
  single : ∀ i j : Nat, ∀ task ∈ s.tasks[i]?, ∀ task' ∈ s.tasks[j]?,
    task.thread = task'.thread → task.listens → task'.listens → i = j
  newest : ∀ e ∈ s.live, ∀ j : Nat, ∀ task ∈ s.tasks[j]?, task.thread = e.thread → j ≤ e.handle
  capped : s.live.rows.length ≤ p.maxStreamPumps

/-- The map has the thread exactly when a pump listens to it. -/
def Current (s : Supervisor) (thread : ThreadId) : Prop :=
  (s.live.find? thread).isSome ↔ ∃ task ∈ s.tasks, task.thread = thread ∧ task.listens

/-- What each step has to meet: an attach finds the map current, a deadline does not pass within
the TTL of an attach, and a pump is not lost to its stream, its workspace or a panic while due. -/
def Orderly (s : Supervisor) : Act → Prop
  | .attach thread _ => Current s thread
  | .idle i => ∀ task ∈ s.tasks[i]?, ∀ w ∈ s.attached task.thread, w.at_ + p.pumpIdleTtl ≤ s.now
  | .failed i | .closed i => ∀ task ∈ s.tasks[i]?, ¬ Due s task.thread
  | .panicked i => ∀ task ∈ s.tasks[i]?, task.listens → ¬ Due s task.thread
  | .wait _ | .opened _ | .event _ | .flushed _ | .cancelled _ | .removed _ | .dropped _
  | .shutdown => True

end Platforms

end Patom.Threads.StreamPump
