import Mathlib.Tactic

namespace Patom.Web

inductive Participant
  | human (colleagueId userId : String)
  | agent (colleagueId agentId : String)
  | system
  deriving DecidableEq

structure Attachment where
  url : String
  mime : String
  filename : String
  size : Nat
  deriving DecidableEq

/-- `J` is what JSON values are. -/
structure ToolCallPayload (J : Type) where
  id : String
  name : String
  input : J

structure ToolResultPayload where
  callId : String
  output : String
  isError : Option Bool
  deriving DecidableEq

inductive ContentBlock (J : Type)
  | text (value : String)
  | reasoning (value : String)
  | toolCall (value : ToolCallPayload J)
  | toolResult (value : ToolResultPayload)
  | image (value : Attachment)
  | file (value : Attachment)

structure ChatMessageBody (J : Type) where
  contents : Option (List (ContentBlock J))
  content : Option String

inductive ThreadMessageKind
  | posted
  | reasoning
  | toolUse
  | toolResult
  | systemNote
  deriving DecidableEq

structure ThreadMessage (J : Type) where
  seq : Int
  kind : ThreadMessageKind
  sender : Participant
  receiver : Option Participant
  body : Option (ChatMessageBody J)
  createdAt : String
  requestId : Option String
  clientKey : Option String
  senderDisplayName : Option String
  senderAvatarUrl : Option String

structure DecodedBody (J : Type) where
  text : String
  reasoning : String
  toolCalls : List (ToolCallPayload J)
  toolResults : List ToolResultPayload
  attachments : List Attachment

variable {J : Type}

def DecodedBody.empty : DecodedBody J := ⟨"", "", [], [], []⟩

def addLine (out line : String) : String := out ++ (if out = "" then "" else "\n") ++ line

def decodeBlock (out : DecodedBody J) : ContentBlock J → DecodedBody J
  | .text value => { out with text := addLine out.text value }
  | .reasoning value => { out with reasoning := addLine out.reasoning value }
  | .toolCall value => { out with toolCalls := out.toolCalls ++ [value] }
  | .toolResult value => { out with toolResults := out.toolResults ++ [value] }
  | .image value | .file value => { out with attachments := out.attachments ++ [value] }

def decodeBody (body : Option (ChatMessageBody J)) : DecodedBody J :=
  match body with
  | none => .empty
  | some body =>
    match body.contents with
    | some contents => contents.foldl decodeBlock .empty
    | none => { DecodedBody.empty with text := body.content.getD "" }

end Patom.Web
