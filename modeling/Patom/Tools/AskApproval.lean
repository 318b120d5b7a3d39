import Patom.Approvals.Store
import Patom.Foundation.Transition
import Patom.Threads.Visibility
import Patom.Tools.SendMessage

/-! The calls of `ask_approval` for one action of one tree: the row, the request in the feed and
the card, each a step that the call may not live to see. -/

open Patom.AgentCore (ToolCallContext)
open Patom.Approvals
open Patom.Foundation
open Patom.Runtime (PromptRequestId)
open Patom.Threads (ColleagueRow NewThreadMessage ThreadDb appendMessage)

namespace Patom.Tools

structure AskApprovalInput where
  action : String
  gatedTool : String
  approvers : List ColleagueId
  expiresInSecs : Option Nat

structure AskApprovalOutput where
  approvalId : ApprovalId
  status : String
  expiresAt : Time
  deriving DecidableEq

structure Wanted where
  orgId : OrgId
  thread : ThreadId
  root : PromptRequestId
  gatedTool : ToolName
  action : ActionSummary

inductive AskPc
  | prepared
  | created (record : PendingApproval)
  | posted (record : PendingApproval)
  | carded (record : PendingApproval)

structure AskCall where
  id : Uuid
  ctx : ToolCallContext
  new : NewApproval
  pc : AskPc

instance askCallKeyed : Keyed AskCall Uuid := ⟨(·.id)⟩

structure AskSt where
  approvals : ApprovalDb
  threads : ThreadDb
  calls : Table AskCall
  posts : List ThreadMessageId
  returned : List (Except ToolError AskApprovalOutput)

inductive AskAct
  | ask (id : Uuid) (ctx : ToolCallContext) (input : AskApprovalInput)
      (target : Except String (Option PlatformTarget)) (approval : ApprovalId) (now : Time)
  | create (id : Uuid) (now : Time)
  | post (id : Uuid) (message : ThreadMessageId) (now : Time)
  | card (id : Uuid) (message : Option PlatformMessageId)
  | finish (id : Uuid)
  | stop (id : Uuid)
  | file (org : OrgId) (new : NewApproval) (now : Time)
  | decide (org : OrgId) (approval : ApprovalId) (decision : Decision) (clicker : ColleagueId)
      (now : Time)
  | expire (batch : List ApprovalId)
  | append (message : ThreadMessageId) (org : OrgId) (thread : ThreadId) (new : NewThreadMessage)
      (now : Time)

section Ask

-- the hexadecimal SHA-256 digest
variable (digest : String → String)

def idempotencyKey (thread : ThreadId) (root : PromptRequestId) (gatedTool : ToolName)
    (action : String) : String :=
  "apv:" ++ thread.display ++ ":" ++ root.display ++ ":" ++ gatedTool.asStr ++ ":" ++ digest action

def Wanted.key (want : Wanted) : String :=
  idempotencyKey digest want.thread want.root want.gatedTool want.action.asStr

def validateApprover (colleagues : Table ColleagueRow) (org : OrgId) (id : ColleagueId) :
    Except ToolError Unit :=
  match colleagues.find? id with
  | none => .error (.invalidInput ("ask_approval: unknown approver " ++ id.display))
  | some c =>
    if c.orgId ≠ org then .error (.invalidInput ("ask_approval: unknown approver " ++ id.display))
    else if c.userId.isNone then
      .error (.invalidInput
        ("ask_approval: approver " ++ id.display ++ " is an agent; only humans can approve"))
    else .ok ()

def validateApprovers (colleagues : Table ColleagueRow) (org : OrgId)
    (approvers : List ColleagueId) : Except ToolError ApproverPolicy := do
  let _ ← approvers.mapM (validateApprover colleagues org)
  (ApproverPolicy.fromIds approvers).mapError fun e => .invalidInput ("ask_approval: " ++ e.display)

def deadline (now : Time) (expiresInSecs : Option Nat) : Time :=
  now + min ((expiresInSecs.map Duration.fromSecs).getD APPROVAL_DEFAULT_TTL) APPROVAL_MAX_TTL

def prepareAsk (colleagues : Table ColleagueRow) (ctx : ToolCallContext) (input : AskApprovalInput)
    (target : Except String (Option PlatformTarget)) (approval : ApprovalId) (now : Time) :
    Except ToolError NewApproval := do
  let some agent := ctx.viewer.agentId?
    | .error (.invalidInput "ask_approval: caller must be an agent")
  let some colleague := ctx.viewer.colleagueId?
    | .error (.invalidInput "ask_approval: caller must be a colleague")
  let some thread := ctx.threadId
    | .error (.backend "ask_approval: no thread context on this call")
  let action ← (ActionSummary.tryFrom input.action).mapError fun e =>
    .invalidInput ("ask_approval: action: " ++ e.display)
  let gatedTool ← (ToolName.tryFrom input.gatedTool).mapError fun e =>
    .invalidInput ("ask_approval: gated_tool: " ++ e.display)
  let approvers ← validateApprovers colleagues ctx.orgId input.approvers
  let target ← target.mapError fun e => .backend ("ask_approval: resolve_target: " ++ e)
  .ok {
    id := approval
    threadId := thread
    requestingAgentId := agent
    requestingColleagueId := colleague
    rootRequestId := ctx.rootRequestId
    actionSummary := action
    gatedTool
    approvers
    target := target.getD .web
    idempotencyKey := idempotencyKey digest thread ctx.rootRequestId gatedTool action.asStr
    expiresAt := deadline now input.expiresInSecs }

def Wanted.Is (want : Wanted) (org : OrgId) (new : NewApproval) : Prop :=
  org = want.orgId ∧ new.threadId = want.thread ∧ new.rootRequestId = want.root ∧
    new.gatedTool = want.gatedTool ∧ new.actionSummary.asStr = want.action.asStr

instance wantedIsDecidable (want : Wanted) (org : OrgId) (new : NewApproval) :
    Decidable (want.Is org new) :=
  inferInstanceAs (Decidable (_ ∧ _ ∧ _ ∧ _ ∧ _))

def requestText (action : String) : String :=
  "🔔 Approval needed: " ++ action ++ ". Awaiting a human decision before I proceed."

def AskCall.request (c : AskCall) : NewThreadMessage where
  kind := .posted
  sender := some c.new.requestingColleagueId
  ownerAgentId := none
  body := .user [.text (requestText c.new.actionSummary.asStr)]
  receiver := none
  requestId := some c.ctx.requestId
  idempotencyKey := none

def approvalErrorText : ApprovalError → String
  | .notFound => "approval not found"
  | .notPending => "approval is not pending"
  | .unauthorized => "not authorized to decide this approval"
  | .expired => "approval has expired"
  | .backend detail => "approval backend error: " ++ detail
  | .parse e => e.display
  | .db constraint => constraint

def askOutput (record : PendingApproval) : AskApprovalOutput :=
  ⟨record.id, record.status.asStr, record.expiresAt⟩

def AskSt.advance (s : AskSt) (c : AskCall) (pc : AskPc) : AskSt :=
  { s with calls := s.calls.put { c with pc } }

def AskSt.answer (s : AskSt) (c : AskCall) (result : Except ToolError AskApprovalOutput) : AskSt :=
  { s with calls := s.calls.delete fun d => d.id = c.id, returned := s.returned ++ [result] }

section Steps
variable (s : AskSt) (c : AskCall)

/-- An approval that is there is answered as it is; only a new one is posted. -/
def askCreate (now : Time) : Option AskSt :=
  match c.pc with
  | .prepared =>
    match create c.ctx.orgId now c.new s.approvals with
    | .error e =>
      some (s.answer c (.error (.backend ("ask_approval: create: " ++ approvalErrorText e))))
    | .ok (approvals, .created record) => some { s.advance c (.created record) with approvals }
    | .ok (approvals, .existing record) =>
      some { s.answer c (.ok (askOutput record)) with approvals }
  | _ => none

def askPost (message : ThreadMessageId) (now : Time) : Option AskSt :=
  match c.pc with
  | .created record =>
    if (s.threads.threadMessages.find? message).isSome then none
    else
      match appendMessage message now c.ctx.orgId c.new.threadId c.request s.threads with
      | (threads, .error e) =>
        some { s.answer c (.error (.backend ("ask_approval: post failed: " ++ e.display))) with
          threads }
      | (threads, .ok id) =>
        some { s.advance c (.posted record) with threads, posts := s.posts ++ [id] }
  | _ => none

/-- The card is best effort. -/
def askCard (message : Option PlatformMessageId) : Option AskSt :=
  match c.pc with
  | .posted record =>
    let approvals := match (if c.new.target.platform = .web then none else message) with
      | none => s.approvals
      | some message =>
        match attachMessage c.ctx.orgId record.id message s.approvals with
        | .ok approvals => approvals
        | .error _ => s.approvals
    some { s.advance c (.carded record) with approvals }
  | _ => none

def askFinish : Option AskSt :=
  match c.pc with
  | .carded record => some (s.answer c (.ok (askOutput record)))
  | _ => none

end Steps

def askStep (colleagues : Table ColleagueRow) (want : Wanted) : Step AskSt AskAct
  | s, .ask id ctx input target approval now =>
    if (s.calls.find? id).isSome then none
    else
      match prepareAsk digest colleagues ctx input target approval now with
      | .error e => some { s with returned := s.returned ++ [.error e] }
      | .ok new =>
        if want.Is ctx.orgId new then
          some { s with calls := s.calls.put ⟨id, ctx, new, .prepared⟩ }
        else none
  | s, .create id now => (s.calls.find? id).bind fun c => askCreate s c now
  | s, .post id message now => (s.calls.find? id).bind fun c => askPost s c message now
  | s, .card id message => (s.calls.find? id).bind fun c => askCard s c message
  | s, .finish id => (s.calls.find? id).bind fun c => askFinish s c
  | s, .stop id => some { s with calls := s.calls.delete fun c => c.id = id }
  | s, .file org new now =>
    if org = want.orgId ∧ new.idempotencyKey = want.key digest then none
    else
      match create org now new s.approvals with
      | .error _ => none
      | .ok (approvals, _) => some { s with approvals }
  | s, .decide org approval decision clicker now =>
    match decide org approval decision clicker now s.approvals with
    | .error _ => none
    | .ok (approvals, _) => some { s with approvals }
  | s, .expire batch => some { s with approvals := expireDue batch s.approvals }
  | s, .append message org thread new now =>
    some { s with threads := (appendMessage message now org thread new s.threads).1 }

def AskSt.start (approvals : ApprovalDb) (threads : ThreadDb) : AskSt :=
  ⟨approvals, threads, .empty, [], []⟩

end Ask

end Patom.Tools
