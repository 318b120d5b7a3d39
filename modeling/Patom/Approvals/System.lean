import Patom.Approvals.Desk
import Patom.Tools.SendMessage

/-! The approvals and the tool calls beside the two paths that enqueue into a running tree:
messages between agents, and resumes after a decision. -/

open Patom.AgentCore (ToolCallContext)
open Patom.Foundation
open Patom.Provider (ToolCall ToolResult)
open Patom.Runtime (Colleague FailureReason NewTrigger PromptRequestDag PromptRequestId RequestStatus
  TurnReceipt TurnSeq enqueueTrigger finaliseTurn markDrained markDrained_key)
open Patom.Tools (Prompt Send SendAct sendStep settleSend startSend)

namespace Patom.Approvals

structure Env where
  wired : Bool
  reduce : ToolCall → String → ToolResult
  colleagues : Table Colleague
  readColleague : ColleagueId → Except String DirectoryEntry

/-- Whose trigger it is; a resume goes on without the unit of the budget it asked for. -/
inductive Minter
  | sendMessage
  | resume (approval : ApprovalId) (paid : Bool)
  deriving DecidableEq

structure Mint where
  request : PromptRequestId
  root : PromptRequestId
  minter : Minter

structure St where
  desk : Desk
  world : World
  sends : Table Send
  attempts : Table Attempt
  minted : List Mint

def World.empty : World := ⟨.empty, ⟨.empty, .empty, .empty, .empty⟩⟩

def St.init : St := ⟨.init, .empty, .empty, .empty, []⟩

inductive Act
  | desk (a : DeskAct)
  | createThread (id : ThreadId) (org : OrgId)
  | post (request : PromptRequestId) (now : Time) (trig : NewTrigger)
  | claimed (ids : List PromptRequestId) (leaseSeq : TurnSeq) (now : Time)
  | finalised (r : TurnReceipt) (status : RequestStatus) (reason : Option FailureReason) (now : Time)
  | send (task : Uuid) (ctx : ToolCallContext) (thread : ThreadId) (colleague : ColleagueId)
      (agent : AgentId) (content : Prompt)
  | sendStep (task : Uuid) (act : SendAct)
  | sendStop (task : Uuid)
  | resume (task : Uuid) (org : OrgId) (approval : ApprovalId)
  | resumeStep (task : Uuid) (act : ResumeAct)
  | resumeStop (task : Uuid)

/-- The trigger an enqueue leaves, unless its key was taken or it failed. -/
def mint (w : World) (request root : PromptRequestId) (minter : Minter) : List Mint :=
  if (w.queue.promptRequests.find? request).isSome then [⟨request, root, minter⟩] else []

def sendMint (w : World) (d : Send) : SendAct → List Mint
  | .enqueue request _ => mint w request d.ctx.rootRequestId .sendMessage
  | .post .. | .participate .. | .join | .bump _ => []

def ResumePc.paid : ResumePc → Bool
  | .bumped _ _ paid => paid
  | .begun | .participating _ | .noted _ _ => false

def resumeMint (w : World) (a : Attempt) : ResumeAct → List Mint
  | .enqueue request _ => mint w request a.record.rootRequestId (.resume a.record.id a.pc.paid)
  | .participate .. | .note .. | .bump _ => []

def step (env : Env) : Step St Act
  | s, .desk a => (deskStep env.wired env.reduce s.desk a).map fun desk => { s with desk }
  | s, .createThread id org =>
    (s.world.threads.threads.insert? ⟨id, org⟩).map fun threads =>
      { s with world := { s.world with threads := { s.world.threads with threads } } }
  | s, .post request now trig =>
    if trig.rootRequestId = none then
      match enqueueTrigger env.colleagues request now trig s.world.queue with
      | .ok (queue, _) => some { s with world := { s.world with queue } }
      | .error _ => some s
    else none
  | s, .claimed ids leaseSeq now =>
    let promptRequests := s.world.queue.promptRequests.modify (markDrained ids leaseSeq now)
      (markDrained_key ids leaseSeq now)
    some { s with world := { s.world with queue := { s.world.queue with promptRequests } } }
  | s, .finalised r status reason now =>
    some { s with world := { s.world with queue := finaliseTurn r status reason now s.world.queue } }
  | s, .send task ctx thread colleague agent content =>
    match startSend task ctx thread colleague agent content with
    | .ok d => (s.sends.insert? d).map fun sends => { s with sends }
    | .error _ => some s
  | s, .sendStep task act => do
    let d ← s.sends.find? task
    let (world, progress) ← Tools.sendStep s.world d env.colleagues act
    some { s with
      world
      sends := settleSend d s.sends progress
      minted := s.minted ++ sendMint world d act }
  | s, .sendStop task => some { s with sends := s.sends.delete fun d => d.id = task }
  | s, .resume task org approval =>
    match read org approval s.desk.approvals with
    | .error _ => some s
    | .ok record =>
      match startResume env.readColleague task record with
      | .ok a => (s.attempts.insert? a).map fun attempts => { s with attempts }
      | .error _ => some s
  | s, .resumeStep task act => do
    let a ← s.attempts.find? task
    let (world, progress) ← Approvals.resumeStep s.world a env.colleagues act
    some { s with
      world
      attempts := settleAttempt a s.attempts progress
      minted := s.minted ++ resumeMint world a act }
  | s, .resumeStop task => some { s with attempts := s.attempts.delete fun a => a.id = task }

def St.inherited (s : St) (root : PromptRequestId) : List PromptRequestId :=
  (s.world.queue.promptRequests.rows.filter fun r => r.rootRequestId = root ∧ r.id ≠ root).map (·.id)

def St.budget (s : St) (root : PromptRequestId) : Option PromptRequestDag :=
  s.world.queue.promptRequestDags.find? root

def St.turnsUsed (s : St) (root : PromptRequestId) : Nat := ((s.budget root).map (·.turnsUsed)).getD 0

def St.turnsCap (s : St) (root : PromptRequestId) : Nat := ((s.budget root).map (·.turnsCap)).getD 0

def Minter.unpaid? : Minter → Option ApprovalId
  | .sendMessage | .resume _ true => none
  | .resume approval false => some approval

/-- The approvals whose resume enqueued its trigger without a unit of the budget. -/
def St.unpaid (s : St) (root : PromptRequestId) : List ApprovalId :=
  (s.minted.filter (·.root = root)).filterMap (·.minter.unpaid?)

namespace Sample

def deployment : Env where
  wired := true
  reduce call _ := ⟨call.id, "", false⟩
  colleagues := ⟨[⟨4, 1, some 3⟩, ⟨5, 1, none⟩, ⟨6, 1, some 7⟩], by decide⟩
  readColleague
    | 5 => .ok ⟨some 6, "Dana"⟩
    | _ => .error "colleague not found"

def deploy : NewApproval where
  id := 11
  threadId := 2
  requestingAgentId := 3
  requestingColleagueId := 4
  rootRequestId := 8
  actionSummary := ⟨"Deploy", by decide, by decide⟩
  gatedTool := ⟨"deploy", by decide, by decide, by decide⟩
  approvers := .anyone
  target := .web
  idempotencyKey := "call-1"
  expiresAt := 30

def turn : ToolCallContext where
  orgId := 1
  actingUserId := 6
  threadId := some 2
  viewer := .agent 4 3
  rootRequestId := 8
  requestId := 8

end Sample

end Patom.Approvals
