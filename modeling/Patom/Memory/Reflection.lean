import Mathlib.Data.List.Sort
import Mathlib.Data.Prod.Lex
import Mathlib.Logic.Embedding.Basic
import Patom.Foundation.Transition
import Patom.Runtime.Claims
import Patom.Threads.Store

/-! The scheduler that has agents reflect on threads gone quiet, beside the posts of the threads
and the workers that run the reflections. -/

open Patom.Foundation
open Patom.Runtime (ClaimedTurn Colleague IdempotencyKey LeaseTiming NewTrigger PromptRequestId
  RequestKindPayload TurnReceipt WorkerId resolveAgentColleague)
open Patom.Threads (AgentThreadState NewThreadMessage Seq ThreadDb ThreadMessageRow appendMessage
  resolveParticipation)

namespace Patom.Memory

def REFLECTION_IDLE_TIMEOUT : Duration := .fromSecs (30 * 60)
def REFLECTION_SCHEDULER_BATCH_LIMIT : Nat := 32

structure ReflectionCheckpoint where
  agentId : AgentId
  threadId : ThreadId
  lastMessageId : ThreadMessageId
  orgId : OrgId
  createdAt : Time

instance : Keyed ReflectionCheckpoint (AgentId × ThreadId) := ⟨fun c => (c.agentId, c.threadId)⟩

structure ReflectionCandidate where
  agentId : AgentId
  threadId : ThreadId
  lastMessageId : ThreadMessageId
  latestAt : Time
  previousCursor : Option ThreadMessageId
  orgId : OrgId
  createdByUserId : UserId

structure ReflectionEnv where
  colleagues : Table Colleague
  timing : LeaseTiming
  /-- The user who created a thread, where a user did. -/
  creator : ThreadId → Option UserId
  idleThreshold : Duration
  batchLimit : Nat

/-- `found` is what the ticks have found and not yet enqueued, `advanced` the turns that have
written their checkpoint. -/
structure ReflectionSt where
  threads : ThreadDb
  runtime : Runtime.St
  checkpoints : Table ReflectionCheckpoint
  found : List ReflectionCandidate
  advanced : List TurnReceipt

def ReflectionSt.init : ReflectionSt := ⟨.empty, .init, .empty, [], []⟩

section FindCandidates

variable (env : ReflectionEnv) (s : ReflectionSt)

def posted (db : ThreadDb) (thread : ThreadId) : List ThreadMessageRow :=
  db.threadMessages.rows.filter fun m => m.threadId = thread && m.kind = .posted

def latestSeq (db : ThreadDb) (thread : ThreadId) : Option Seq := ((posted db thread).map (·.seq)).max?

def latestAt (db : ThreadDb) (thread : ThreadId) : Option Time :=
  ((posted db thread).map (·.createdAt)).max?

def ReflectionSt.checkpoint (agent : AgentId) (thread : ThreadId) : Option ReflectionCheckpoint :=
  s.checkpoints.find? (agent, thread)

def ReflectionSt.reflecting (thread : ThreadId) : Bool :=
  s.runtime.db.promptRequests.rows.any fun r =>
    r.kind = .reflection && (r.status = .pending || r.status = .processing) &&
      match r.kindPayload with
      | .reflection thread' _ => thread' = thread
      | .normal | .resolution _ => false

def candidate (now : Time) (ats : AgentThreadState) : Option ReflectionCandidate := do
  let seq ← latestSeq s.threads ats.threadId
  let at_ ← latestAt s.threads ats.threadId
  let lm ← s.threads.threadMessages.rows.find? fun m => m.threadId = ats.threadId && m.seq = seq
  let t ← s.threads.threads.find? ats.threadId
  let user ← env.creator ats.threadId
  let rc := s.checkpoint ats.agentId ats.threadId
  if at_ + env.idleThreshold ≤ now && rc.all (·.createdAt < at_) && !s.reflecting ats.threadId then
    some ⟨ats.agentId, ats.threadId, lm.id, at_, rc.map (·.lastMessageId), t.orgId, user⟩
  else none

def matched (now : Time) : List ReflectionCandidate :=
  s.threads.agentThreadState.rows.filterMap (candidate env s now)

def ReflectionCandidate.position (tie : AgentId × ThreadId ↪ Nat) (c : ReflectionCandidate) :
    Time ×ₗ Nat :=
  toLex (c.latestAt, tie (c.agentId, c.threadId))

def findCandidates (now : Time) (tie : AgentId × ThreadId ↪ Nat) : List ReflectionCandidate :=
  ((matched env s now).insertionSort (·.position tie ≤ ·.position tie)).take env.batchLimit

end FindCandidates

def reflectionKey (c : ReflectionCandidate) : Except ParseError IdempotencyKey :=
  IdempotencyKey.tryFrom ("reflect-" ++ c.agentId.display ++ "-" ++ c.threadId.display ++ "-"
    ++ c.lastMessageId.display)

def reflectionTrigger (c : ReflectionCandidate) (turn : BackgroundTurnId) (agent : ColleagueId)
    (key : IdempotencyKey) : NewTrigger where
  orgId := c.orgId
  actingUserId := c.createdByUserId
  threadId := none
  stateId := none
  backgroundTurnId := some turn
  senderColleagueId := agent
  receiverAgentId := c.agentId
  rootRequestId := none
  triggerMessageId := none
  idempotencyKey := key
  kindPayload := .reflection c.threadId c.lastMessageId

/-- The rows between the checkpoint a candidate was found with and its end. -/
def fetchSlice (db : ThreadDb) (c : ReflectionCandidate) : List ThreadMessageRow :=
  let seqOf (id : Option ThreadMessageId) : Int :=
    ((id.bind db.threadMessages.find?).map fun m => (m.seq : Int)).getD (-1)
  ((posted db c.threadId).filter fun m =>
    seqOf c.previousCursor < m.seq && m.seq ≤ seqOf (some c.lastMessageId)).insertionSort
      fun m m' => m.seq ≤ m'.seq

/-- An upsert that leaves the time of the first as it is. -/
def advanceReflectionCheckpoint (now : Time) (org : OrgId) (agent : AgentId) (thread : ThreadId)
    (upTo : ThreadMessageId) (checkpoints : Table ReflectionCheckpoint) :
    Table ReflectionCheckpoint :=
  match checkpoints.find? (agent, thread) with
  | some row => checkpoints.put { row with lastMessageId := upTo }
  | none => checkpoints.put ⟨agent, thread, upTo, org, now⟩

inductive ReflectionAct
  | createThread (id : ThreadId) (org : OrgId)
  | post (id : ThreadMessageId) (now : Time) (org : OrgId) (thread : ThreadId)
      (new : NewThreadMessage)
  | participate (id : AgentThreadId) (now : Time) (thread : ThreadId) (agent : AgentId)
  | tick (now : Time) (tie : AgentId × ThreadId ↪ Nat)
  | enqueue (i : Nat) (turn : BackgroundTurnId) (request : Runtime.PromptRequestId) (now : Time)
  | giveUp (i : Nat)
  | advance (worker : WorkerId) (turn : ClaimedTurn) (now : Time)
  | work (a : Runtime.Act)

/-- What a worker does for a turn that went well, before it marks the turn done. -/
def advance (s : ReflectionSt) (worker : WorkerId) (turn : ClaimedTurn) (now : Time) :
    Option ReflectionSt :=
  if s.runtime.live worker && now ≤ s.runtime.clock && turn.receipt ∉ s.advanced
      && s.runtime.claims.any (fun c => c.worker = worker && c.turn.toOption = some turn) then
    match turn.kindPayload with
    | .reflection thread upTo =>
      some { s with
        advanced := turn.receipt :: s.advanced
        checkpoints :=
          if (s.threads.threadMessages.find? upTo).isSome then
            advanceReflectionCheckpoint now turn.orgId turn.receiverAgentId thread upTo
              s.checkpoints
          else s.checkpoints }
    | .normal | .resolution _ => some s
  else none

def reflectionStep (env : ReflectionEnv) : Step ReflectionSt ReflectionAct
  | s, .createThread id org =>
    (s.threads.threads.insert? ⟨id, org⟩).map fun threads =>
      { s with threads := { s.threads with threads } }
  | s, .post id now org thread new =>
    if now ≤ s.runtime.clock then
      some { s with threads := (appendMessage id now org thread new s.threads).1 }
    else none
  | s, .participate id now thread agent =>
    match resolveParticipation id now thread agent s.threads with
    | .ok (threads, _) => if now ≤ s.runtime.clock then some { s with threads } else none
    | .error _ => none
  | s, .tick now tie =>
    if now ≤ s.runtime.clock then
      some { s with found := s.found ++ findCandidates env s now tie }
    else none
  | s, .enqueue i turn request now => do
    let c ← s.found[i]?
    let agent ← (resolveAgentColleague env.colleagues c.orgId c.agentId).toOption
    let key ← (reflectionKey c).toOption
    let runtime ← Runtime.step env.colleagues env.timing s.runtime
      (.enqueue request now (reflectionTrigger c turn agent key))
    return { s with runtime, found := s.found.eraseIdx i }
  | s, .giveUp i =>
    if i < s.found.length then some { s with found := s.found.eraseIdx i } else none
  | s, .advance worker turn now => advance s worker turn now
  | s, .work a => (Runtime.step env.colleagues env.timing s.runtime a).map fun runtime =>
      { s with runtime }

end Patom.Memory
