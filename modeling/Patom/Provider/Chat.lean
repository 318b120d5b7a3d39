import Patom.Types

namespace Patom.Provider

def TOOL_CALL_ID_MAX_BYTES : Nat := 256

@[ext] structure ToolCallId where
  asStr : String
  nonempty : asStr ≠ ""
  bounded : asStr.utf8ByteSize ≤ TOOL_CALL_ID_MAX_BYTES

instance : DecidableEq ToolCallId := fun _ _ => decidable_of_iff _ ToolCallId.ext_iff.symm

def ToolCallId.tryFrom (raw : String) : Except ParseError ToolCallId :=
  if h : raw = "" then .error (.empty "tool_call_id")
  else if h' : raw.utf8ByteSize ≤ TOOL_CALL_ID_MAX_BYTES then .ok ⟨raw, h, h'⟩
  else .error (.tooLong "tool_call_id" TOOL_CALL_ID_MAX_BYTES raw.utf8ByteSize)

inductive AttachmentMime
  | png
  | jpeg
  | webp
  | gif
  | pdf
  | xlsx
  | docx
  | pptx
  | text
  deriving DecidableEq

def AttachmentMime.asMime : AttachmentMime → String
  | .png => "image/png"
  | .jpeg => "image/jpeg"
  | .webp => "image/webp"
  | .gif => "image/gif"
  | .pdf => "application/pdf"
  | .xlsx => "application/vnd.openxmlformats-officedocument.spreadsheetml.sheet"
  | .docx => "application/vnd.openxmlformats-officedocument.wordprocessingml.document"
  | .pptx => "application/vnd.openxmlformats-officedocument.presentationml.presentation"
  | .text => "text/plain"

structure Attachment where
  url : String
  mime : AttachmentMime
  filename : String
  size : Nat
  deriving DecidableEq

structure ToolCall where
  id : ToolCallId
  name : ToolName
  input : String
  deriving DecidableEq

structure ToolResult where
  callId : ToolCallId
  output : String
  isError : Bool
  deriving DecidableEq

inductive UserContent
  | text (text : String)
  | toolResult (result : ToolResult)
  | image (att : Attachment)
  | file (att : Attachment)
  deriving DecidableEq

inductive AssistantContent
  | text (text : String)
  | reasoning (text : String)
  | toolCall (call : ToolCall)
  deriving DecidableEq

inductive ChatMessage
  | user (contents : List UserContent)
  | assistant (contents : List AssistantContent)
  deriving DecidableEq

structure Usage where
  inputTokens : Nat
  outputTokens : Nat
  cacheCreationInputTokens : Option Nat
  cacheReadInputTokens : Option Nat
  deriving DecidableEq

structure ChatResponse where
  content : List AssistantContent
  usage : Usage
  deriving DecidableEq

def UserContent.isToolResult : UserContent → Bool
  | .toolResult _ => true
  | .text _ | .image _ | .file _ => false

def AssistantContent.toolCall? : AssistantContent → Option ToolCall
  | .toolCall call => some call
  | .text _ | .reasoning _ => none

def ChatResponse.toolCalls (response : ChatResponse) : List ToolCall :=
  response.content.filterMap AssistantContent.toolCall?

def ChatResponse.text (response : ChatResponse) : String :=
  response.content.foldl (fun out c =>
    match c with
    | .text t => (if out = "" then out else out ++ "\n") ++ t
    | .reasoning _ | .toolCall _ => out) ""

end Patom.Provider

namespace Patom.Provider.OpenAi

structure WirePromptTokensDetails where
  cachedTokens : Option Nat
  deriving DecidableEq

structure WireUsage where
  promptTokens : Nat
  completionTokens : Nat
  promptCacheHitTokens : Option Nat
  promptTokensDetails : Option WirePromptTokensDetails
  deriving DecidableEq

namespace WireUsage

variable (u : WireUsage)

def cacheReadTokens : Option Nat :=
  u.promptCacheHitTokens.or (u.promptTokensDetails.bind WirePromptTokensDetails.cachedTokens)

def cacheCreationTokens (_ : WireUsage) : Option Nat := none

def usage : Usage where
  inputTokens := u.promptTokens
  outputTokens := u.completionTokens
  cacheCreationInputTokens := u.cacheCreationTokens
  cacheReadInputTokens := u.cacheReadTokens

end WireUsage

end Patom.Provider.OpenAi
