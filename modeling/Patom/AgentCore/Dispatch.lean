import Patom.Approvals.Store
import Patom.Provider.Chat
import Patom.Runtime.Types
import Patom.Text

open Patom.Runtime (FailureReason PromptRequestId RequestKind)
open Patom.Approvals (afterConfig afterLookup ApprovalError GateOutcome)
open Patom.Provider (ToolCall ToolCallId ToolResult)

namespace Patom.AgentCore

inductive AgentError
  | provider (detail : String)
  | internal (detail : String)
  | thread (detail : String)
  | background (detail : String)
  | memory (detail : String)
  | todos (detail : String)
  | todosLoadTimeout
  | hook (detail : String)
  | hookDenied (reason : String)
  | providerTimeout
  | toolTimeout (name : String)
  | unknownTool (name : String)
  | tooManyToolCalls (max : Nat)
  | maxTurnsExceeded (turns : Nat)
  | emptyReply
  | billingExceeded (org : OrgId)
  | outOfCredit (org : OrgId)
  | cancelled
  deriving DecidableEq

def AgentError.display : AgentError → String
  | .provider detail => "provider: " ++ detail
  | .internal detail => "agent_core invariant: " ++ detail
  | .thread detail => "thread: " ++ detail
  | .background detail => "background: " ++ detail
  | .memory detail => "memory: " ++ detail
  | .todos detail => "todos: " ++ detail
  | .todosLoadTimeout => "todos pre-turn read timed out"
  | .hook detail => "hook: " ++ detail
  | .hookDenied reason => "hook denied: " ++ reason
  | .providerTimeout => "provider call timed out"
  | .toolTimeout name => "tool `" ++ name ++ "` timed out"
  | .unknownTool name => "model issued an unknown tool: " ++ name
  | .tooManyToolCalls max =>
    "model issued more than " ++ toString max ++ " tool calls in a single turn"
  | .maxTurnsExceeded turns => "max turns (" ++ toString turns ++ ") exceeded without final reply"
  | .emptyReply => "provider returned no usable content"
  | .billingExceeded org => "org " ++ org.display ++ " has exhausted its monthly spend budget"
  | .outOfCredit org => "org " ++ org.display ++ " is out of platform credit"
  | .cancelled => "agent cancelled"

def handleAgentError : AgentError → FailureReason
  | .cancelled => .cancelled
  | .providerTimeout | .todosLoadTimeout => .timeout
  | .hookDenied reason => .hook reason
  | .billingExceeded _ => .billingExceeded
  | .outOfCredit _ => .outOfCredit
  | e => .provider e.display

structure ToolCallContext where
  orgId : OrgId
  actingUserId : UserId
  threadId : Option ThreadId
  viewer : Participant
  rootRequestId : PromptRequestId
  requestId : PromptRequestId

def TOOL_RESULT_REDUCE_THRESHOLD : Nat := 32000
def TOOL_RESULT_MAX_BYTES : Nat := 256 * 1024

inductive ToolOutcome
  | output (text : String)
  | failed (detail : String)
  | timedOut
  | cancelled

def errorResult (id : ToolCallId) (message : String) : ToolResult :=
  let output :=
    if TOOL_RESULT_MAX_BYTES < message.utf8ByteSize then
      truncateToCharBoundary message TOOL_RESULT_MAX_BYTES
    else message
  ⟨id, output, true⟩

def unknownTool (call : ToolCall) (kind : RequestKind) : ToolResult :=
  errorResult call.id ("unknown tool for kind=" ++ kind.asStr ++ ": " ++ call.name.asStr)

/-- An oversized output is offloaded; `reduce` is what is left of it. -/
def toolResult (reduce : ToolCall → String → ToolResult) (call : ToolCall) : ToolOutcome → ToolResult
  | .output text =>
    if TOOL_RESULT_REDUCE_THRESHOLD < text.length then reduce call text
    else ⟨call.id, text, false⟩
  | .failed detail => errorResult call.id detail
  | .timedOut => errorResult call.id ("tool `" ++ call.name.asStr ++ "` timed out")
  | .cancelled => errorResult call.id "cancelled"

/-- How far `run_one_tool` has got with a call; `gated` is what the gate has read of it. -/
inductive DispatchPc
  | resolved
  | gated
  | allowed (gated : Bool)
  | returned (result : ToolResult)

structure Dispatch where
  id : Uuid
  call : ToolCall
  ctx : ToolCallContext
  pc : DispatchPc

def startDispatch (id : Uuid) (call : ToolCall) (kind : RequestKind) (ctx : ToolCallContext)
    (known : Bool) : Dispatch :=
  ⟨id, call, ctx, if known then .resolved else .returned (unknownTool call kind)⟩

def Dispatch.settle (d : Dispatch) (gated : Bool) : GateOutcome → Dispatch
  | .allowed => { d with pc := .allowed gated }
  | .blocked reason => { d with pc := .returned (errorResult d.call.id reason) }

/-- The gate stands open to a viewer that is no agent, and where none is wired. -/
def Dispatch.consultConfig (d : Dispatch) (wired : Bool)
    (read : AgentId → Except ApprovalError Bool) : Option Dispatch :=
  match d.pc with
  | .resolved =>
    match if wired then d.ctx.viewer.agentId? else none with
    | none => some (d.settle false .allowed)
    | some agent =>
      some (match afterConfig d.call.name (read agent) with
        | some outcome => d.settle false outcome
        | none => { d with pc := .gated })
  | _ => none

def Dispatch.consultApprovals (d : Dispatch) (read : Except ApprovalError Bool) : Option Dispatch :=
  match d.pc with
  | .gated => some (d.settle true (afterLookup d.call.name read))
  | _ => none

def Dispatch.execute (d : Dispatch) (reduce : ToolCall → String → ToolResult)
    (outcome : ToolOutcome) : Option (Bool × Dispatch) :=
  match d.pc with
  | .allowed gated => some (gated, { d with pc := .returned (toolResult reduce d.call outcome) })
  | _ => none

end Patom.AgentCore
