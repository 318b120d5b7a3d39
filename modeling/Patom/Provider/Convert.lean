import Patom.Foundation.Journal
import Patom.Provider.Chat

open Patom.Foundation

namespace Patom.Provider

inductive ProviderError
  | unsupportedContent (mime model : String)
  | attachment (detail : String)
  deriving DecidableEq

structure ModelCapabilities where
  images : Bool
  pdf : Bool
  office : Bool
  text : Bool
  deriving DecidableEq

def ModelCapabilities.accepts (caps : ModelCapabilities) : AttachmentMime → Bool
  | .png | .jpeg | .webp | .gif => caps.images
  | .pdf => caps.pdf
  | .text => caps.text
  | .xlsx | .docx | .pptx => caps.office

structure AttachmentSource where
  fetch : String → Except String (List UInt8)
  base64 : List UInt8 → String
  attachmentToText : AttachmentMime → List UInt8 → Except String String

def AttachmentSource.toDataUri (source : AttachmentSource) (mime : AttachmentMime)
    (bytes : List UInt8) : String :=
  "data:" ++ mime.asMime ++ ";base64," ++ source.base64 bytes

end Patom.Provider

namespace Patom.Provider.OpenAi

inductive UserContentPart
  | text (text : String)
  | imageUrl (url detail : String)
  | file (filename : Option String) (fileData : String)
  deriving DecidableEq

inductive UserMessageContent
  | text (text : String)
  | parts (parts : List UserContentPart)
  deriving DecidableEq

structure WireToolCall where
  id : String
  name : String
  arguments : String
  deriving DecidableEq

inductive WireMessage
  | system (content : String)
  | user (content : UserMessageContent)
  | assistant (content : Option String) (toolCalls : Option (List WireToolCall))
      (reasoningContent : Option String)
  | tool (content toolCallId : String)
  deriving DecidableEq

/-- A resolved block of a user's message. -/
inductive Item
  | text (text : String)
  | media (part : UserContentPart)
  deriving DecidableEq

def Item.isMedia : Item → Bool
  | .text _ => false
  | .media _ => true

def Item.toPart : Item → UserContentPart
  | .text t => .text t
  | .media part => part

def Item.text? : Item → Option String
  | .text t => some t
  | .media _ => none

def toolMessage (r : ToolResult) : WireMessage := .tool r.output r.callId.asStr

section Convert

variable (caps : ModelCapabilities) (model : String) (source : AttachmentSource)

def gate (att : Attachment) : Except ProviderError Unit :=
  if caps.accepts att.mime then .ok () else .error (.unsupportedContent att.mime.asMime model)

def fileToItem (att : Attachment) : Except ProviderError Item := do
  gate caps model att
  let bytes ← (source.fetch att.url).mapError .attachment
  if att.mime = .pdf then
    return .media (.file (some att.filename) (source.toDataUri att.mime bytes))
  else
    let text ← (source.attachmentToText att.mime bytes).mapError .attachment
    return .text ("[Attached file: " ++ att.filename ++ "]\n" ++ text)

structure UserState where
  items : List Item
  toolMsgs : List WireMessage

def userBlock (s : UserState) : UserContent → Except ProviderError UserState
  | .text text => .ok { s with items := s.items ++ [.text text] }
  | .toolResult r => .ok { s with toolMsgs := s.toolMsgs ++ [toolMessage r] }
  | .image att => do
    gate caps model att
    return { s with items := s.items ++ [.media (.imageUrl att.url "auto")] }
  | .file att => do
    let item ← fileToItem caps model source att
    return { s with items := s.items ++ [item] }

/-- One message of parts if there is any media, else one message for each text. -/
def userMessages (items : List Item) : List WireMessage :=
  if items.any Item.isMedia then [.user (.parts (items.map Item.toPart))]
  else (items.filterMap Item.text?).map fun text => .user (.text text)

def userToWire (blocks : List UserContent) : Except ProviderError (List WireMessage) := do
  let s ← blocks.foldlM (userBlock caps model source) ⟨[], []⟩
  return userMessages s.items ++ s.toolMsgs

structure AssistantState where
  text : String
  reasoning : String
  toolCalls : List WireToolCall

def pushLine (out line : String) : String := (if out = "" then out else out ++ "\n") ++ line

def wireCall (call : ToolCall) : WireToolCall := ⟨call.id.asStr, call.name.asStr, call.input⟩

def assistantBlock (s : AssistantState) : AssistantContent → AssistantState
  | .text t => { s with text := pushLine s.text t }
  | .reasoning r => { s with reasoning := pushLine s.reasoning r }
  | .toolCall call => { s with toolCalls := s.toolCalls ++ [wireCall call] }

def thenSome (text : String) : Option String := if text = "" then none else some text

def assistantToWire (blocks : List AssistantContent) : List WireMessage :=
  let s := blocks.foldl assistantBlock ⟨"", "", []⟩
  let content := thenSome s.text
  let toolCalls := if s.toolCalls = [] then none else some s.toolCalls
  if content = none ∧ toolCalls = none then []
  else [.assistant content toolCalls (thenSome s.reasoning)]

def messageToWire : ChatMessage → Except ProviderError (List WireMessage)
  | .user content => userToWire caps model source content
  | .assistant content => .ok (assistantToWire content)

def messagesToWire : List ChatMessage → Except ProviderError (List WireMessage)
  | [] => .ok []
  | msg :: msgs => do
    let wires ← messageToWire caps model source msg
    return wires ++ (← messagesToWire msgs)

end Convert

def toolResult? : UserContent → Option ToolResult
  | .toolResult r => some r
  | .text _ | .image _ | .file _ => none

def results : ChatMessage → List ToolResult
  | .user contents => contents.filterMap toolResult?
  | .assistant _ => []

def calls : ChatMessage → List ToolCall
  | .user _ => []
  | .assistant contents => contents.filterMap AssistantContent.toolCall?

/-- Each message with results has nothing else and comes right behind the message that issued
exactly their calls; `open_` are the calls of the message ahead. -/
def Paired (open_ : List ToolCallId) : List ChatMessage → Prop
  | [] => True
  | msg :: msgs =>
    (results msg ≠ [] → (∃ rs : List ToolResult, msg = .user (rs.map .toolResult)) ∧
      ((results msg).map (·.callId)).Perm open_) ∧
    Paired ((calls msg).map (·.id)) msgs

inductive Said
  | text (text : String)
  | media (part : UserContentPart)
  | reasoning (text : String)
  | result (output toolCallId : String)
  deriving DecidableEq

def UserContentPart.said : UserContentPart → Said
  | .text t => .text t
  | part => .media part

def WireMessage.said : WireMessage → List Said
  | .system _ => []
  | .user (.text t) => [.text t]
  | .user (.parts parts) => parts.map UserContentPart.said
  | .assistant content _ reasoning => reasoning.toList.map .reasoning ++ content.toList.map .text
  | .tool output id => [.result output id]

def Item.said (item : Item) : Said := item.toPart.said

section Said

variable (caps : ModelCapabilities) (model : String) (source : AttachmentSource)

def saidBlock : UserContent → List Said
  | .text t => [.text t]
  | .toolResult r => [.result r.output r.callId.asStr]
  | .image att => [.media (.imageUrl att.url "auto")]
  | .file att =>
    match fileToItem caps model source att with
    | .ok item => [item.said]
    | .error _ => []

def text? : AssistantContent → Option String
  | .text t => some t
  | .reasoning _ | .toolCall _ => none

def reasoning? : AssistantContent → Option String
  | .reasoning r => some r
  | .text _ | .toolCall _ => none

def joinLines (lines : List String) : String := lines.foldl pushLine ""

def saidMessage : ChatMessage → List Said
  | .user contents => contents.flatMap (saidBlock caps model source)
  | .assistant contents =>
    let text := joinLines (contents.filterMap text?)
    if text = "" ∧ calls (.assistant contents) = [] then []
    else (thenSome (joinLines (contents.filterMap reasoning?))).toList.map .reasoning ++
      (thenSome text).toList.map .text

end Said

def WireMessage.isTool : WireMessage → Bool
  | .tool _ _ => true
  | .system _ | .user _ | .assistant _ _ _ => false

def WireMessage.toolCallId? : WireMessage → Option String
  | .tool _ id => some id
  | .system _ | .user _ | .assistant _ _ _ => none

def toolRun (wires : List WireMessage) : List String :=
  (wires.takeWhile WireMessage.isTool).filterMap WireMessage.toolCallId?

section Message

variable {caps : ModelCapabilities} {model : String} {source : AttachmentSource}
variable {msg : ChatMessage} {wires : List WireMessage}

theorem foldl_assistantBlock (s : AssistantState) (blocks : List AssistantContent) :
    blocks.foldl assistantBlock s =
      ⟨(blocks.filterMap text?).foldl pushLine s.text,
        (blocks.filterMap reasoning?).foldl pushLine s.reasoning,
        s.toolCalls ++ (blocks.filterMap AssistantContent.toolCall?).map wireCall⟩ := by
  induction blocks generalizing s with
  | nil => simp
  | cons block blocks ih =>
    rw [List.foldl_cons, ih]
    cases block <;> simp [List.filterMap_cons, assistantBlock, text?, reasoning?,
      AssistantContent.toolCall?]

theorem thenSome_eq_none {text : String} : thenSome text = none ↔ text = "" := by
  simp [thenSome]

theorem assistantToWire_cases (contents : List AssistantContent) :
    (assistantToWire contents = [] ∧ calls (.assistant contents) = [] ∧
      saidMessage caps model source (.assistant contents) = []) ∨
    ∃ content reasoning, assistantToWire contents = [.assistant content
        (if calls (.assistant contents) = [] then none
          else some ((calls (.assistant contents)).map wireCall)) reasoning] ∧
      (calls (.assistant contents) = [] → content.isSome) ∧
      (reasoning.toList.map .reasoning ++ content.toList.map .text) =
        saidMessage caps model source (.assistant contents) := by
  have hstate : contents.foldl assistantBlock ⟨"", "", []⟩ =
      ⟨joinLines (contents.filterMap text?), joinLines (contents.filterMap reasoning?),
        (calls (.assistant contents)).map wireCall⟩ := by
    rw [foldl_assistantBlock, List.nil_append]
    rfl
  have hcalls : (calls (.assistant contents)).map wireCall = [] ↔
      calls (.assistant contents) = [] := List.map_eq_nil_iff
  simp only [assistantToWire, hstate, saidMessage, hcalls]
  by_cases h : joinLines (contents.filterMap text?) = "" ∧ calls (.assistant contents) = []
  · exact .inl ⟨if_pos ⟨thenSome_eq_none.mpr h.1, if_pos h.2⟩, h.2, if_pos h⟩
  · have hshown : ¬ (thenSome (joinLines (contents.filterMap text?)) = none ∧
        (if calls (.assistant contents) = [] then none
          else some ((calls (.assistant contents)).map wireCall)) = none) := by
      rw [thenSome_eq_none]
      simpa using h
    refine .inr ⟨_, _, if_neg hshown, fun hnone => ?_, (if_neg h).symm⟩
    rw [Option.isSome_iff_ne_none, ne_eq, thenSome_eq_none]
    exact fun htext => h ⟨htext, hnone⟩

theorem userBlock_cases {s s' : UserState} {block : UserContent}
    (h : userBlock caps model source s block = .ok s') :
    (∃ r, block = .toolResult r ∧ s' = { s with toolMsgs := s.toolMsgs ++ [toolMessage r] }) ∨
    ∃ item, toolResult? block = none ∧ s' = { s with items := s.items ++ [item] } ∧
      saidBlock caps model source block = [item.said] := by
  cases block with
  | text t =>
    cases h
    exact .inr ⟨_, rfl, rfl, rfl⟩
  | toolResult r =>
    cases h
    exact .inl ⟨r, rfl, rfl⟩
  | image att =>
    obtain ⟨-, -, h⟩ := bind_eq_ok.mp h
    cases h
    exact .inr ⟨_, rfl, rfl, rfl⟩
  | file att =>
    obtain ⟨item, hitem, h⟩ := bind_eq_ok.mp h
    cases h
    exact .inr ⟨item, rfl, rfl, by rw [saidBlock, hitem]⟩

theorem foldlM_userBlock {blocks : List UserContent} {s s' : UserState}
    (h : blocks.foldlM (userBlock caps model source) s = .ok s') :
    s'.toolMsgs = s.toolMsgs ++ (blocks.filterMap toolResult?).map toolMessage ∧
      s'.items.map Item.said = s.items.map Item.said ++
        (blocks.filter fun block => (toolResult? block).isNone).flatMap
          (saidBlock caps model source) := by
  induction blocks generalizing s with
  | nil =>
    cases h
    simp
  | cons block blocks ih =>
    obtain ⟨next, hnext, h⟩ := bind_eq_ok.mp h
    obtain ⟨htools, hitems⟩ := ih h
    obtain ⟨r, rfl, rfl⟩ | ⟨item, hresult, rfl, hsaid⟩ := userBlock_cases hnext
    · rw [htools, hitems]
      simp [toolResult?]
    · rw [htools, hitems]
      simp [hresult, hsaid]

theorem said_userMessages (items : List Item) :
    (userMessages items).flatMap WireMessage.said = items.map Item.said := by
  rw [userMessages]
  split
  case isTrue =>
    rw [List.flatMap_singleton, WireMessage.said, List.map_map]
    rfl
  case isFalse h =>
    simp only [Bool.not_eq_true, List.any_eq_false] at h
    induction items with
    | nil => rfl
    | cons item items ih =>
      obtain ⟨hitem, hitems⟩ := List.forall_mem_cons.mp h
      cases item with
      | text t =>
        have hlater := ih hitems
        simpa [List.filterMap_cons, Item.text?, WireMessage.said, Item.said, Item.toPart,
          UserContentPart.said] using hlater
      | media part => cases hitem

theorem user_of_mem_userMessages {items : List Item} {w : WireMessage}
    (h : w ∈ userMessages items) : ∃ content, w = .user content := by
  rw [userMessages] at h
  split at h
  · exact ⟨_, List.mem_singleton.mp h⟩
  · obtain ⟨text, -, rfl⟩ := List.mem_map.mp h
    exact ⟨_, rfl⟩

theorem messageToWire_user {contents : List UserContent}
    (h : messageToWire caps model source (.user contents) = .ok wires) :
    ∃ items, wires = userMessages items ++ (results (.user contents)).map toolMessage ∧
      items.map Item.said = (contents.filter fun block => (toolResult? block).isNone).flatMap
        (saidBlock caps model source) := by
  obtain ⟨s, hs, h⟩ := bind_eq_ok.mp h
  cases h
  obtain ⟨htools, hitems⟩ := foldlM_userBlock hs
  exact ⟨s.items, by rw [htools]; rfl, hitems⟩

theorem filterMap_toolResult (rs : List ToolResult) :
    (rs.map UserContent.toolResult).filterMap toolResult? = rs := by
  rw [List.filterMap_map]
  exact List.filterMap_some

theorem isTool_toolMessage (r : ToolResult) : (toolMessage r).isTool := rfl

theorem messageToWire_results {rs : List ToolResult}
    (h : messageToWire caps model source (.user (rs.map .toolResult)) = .ok wires) :
    wires = rs.map toolMessage := by
  obtain ⟨items, rfl, hitems⟩ := messageToWire_user h
  have hnone : (rs.map UserContent.toolResult).filter
      (fun block => (toolResult? block).isNone) = [] := by
    simp [List.filter_map, Function.comp_def, toolResult?]
  rw [hnone, List.flatMap_nil, List.map_eq_nil_iff] at hitems
  rw [hitems, results, filterMap_toolResult]
  rfl

theorem messageToWire_no_results (h : messageToWire caps model source msg = .ok wires)
    (hnone : results msg = []) :
    (∀ w ∈ wires, w.isTool = false) ∧ (wires = [] → calls msg = []) ∧
      wires.flatMap WireMessage.said = saidMessage caps model source msg := by
  cases msg with
  | user contents =>
    obtain ⟨items, rfl, hitems⟩ := messageToWire_user h
    rw [hnone, List.map_nil, List.append_nil]
    refine ⟨fun w hw => ?_, fun _ => rfl, ?_⟩
    · obtain ⟨content, rfl⟩ := user_of_mem_userMessages hw
      rfl
    · have hall : (contents.filter fun block => (toolResult? block).isNone) = contents := by
        rw [results, List.filterMap_eq_nil_iff] at hnone
        exact List.filter_eq_self.mpr fun block hblock => by simp [hnone block hblock]
      rw [said_userMessages, hitems, hall]
      rfl
  | assistant contents =>
    cases h
    obtain ⟨hdropped, hcalls, hsaid⟩ | ⟨content, reasoning, hwire, -, hsaid⟩ :=
      @assistantToWire_cases caps model source contents
    · rw [hdropped, hsaid]
      exact ⟨fun w hw => absurd hw List.not_mem_nil, fun _ => hcalls, rfl⟩
    · rw [hwire, List.flatMap_singleton]
      refine ⟨fun w hw => ?_, fun hnil => absurd hnil (List.cons_ne_nil _ _), hsaid⟩
      rw [List.mem_singleton.mp hw]
      rfl

theorem messageToWire_calls (h : messageToWire caps model source msg = .ok wires)
    (hcalls : calls msg ≠ []) : ∃ content reasoning,
      wires = [.assistant content (some ((calls msg).map wireCall)) reasoning] := by
  cases msg with
  | user contents => exact absurd rfl hcalls
  | assistant contents =>
    cases h
    obtain ⟨-, hnone, -⟩ | ⟨content, reasoning, hwire, -, -⟩ :=
      @assistantToWire_cases caps model source contents
    · exact absurd hnone hcalls
    · rw [if_neg hcalls] at hwire
      exact ⟨content, reasoning, hwire⟩

theorem messageToWire_assistant (h : messageToWire caps model source msg = .ok wires)
    {content reasoning : Option String} {cs : Option (List WireToolCall)}
    (hw : .assistant content cs reasoning ∈ wires) :
    wires = [.assistant content cs reasoning] ∧ (content.isSome ∨ cs.isSome) ∧
      cs = (if calls msg = [] then none else some ((calls msg).map wireCall)) ∧
      ∃ contents, msg = .assistant contents := by
  cases msg with
  | user contents =>
    obtain ⟨items, rfl, -⟩ := messageToWire_user h
    rcases List.mem_append.mp hw with huser | htool
    · obtain ⟨_, huser⟩ := user_of_mem_userMessages huser
      cases huser
    · obtain ⟨r, -, hr⟩ := List.mem_map.mp htool
      cases hr
  | assistant contents =>
    cases h
    obtain ⟨hdropped, -, -⟩ | ⟨_, _, hwire, hsome, -⟩ :=
      @assistantToWire_cases caps model source contents
    · rw [hdropped] at hw
      cases hw
    · rw [hwire] at hw ⊢
      obtain ⟨rfl, rfl, rfl⟩ := WireMessage.assistant.inj (List.mem_singleton.mp hw)
      refine ⟨rfl, ?_, rfl, contents, rfl⟩
      by_cases hnone : calls (.assistant contents) = []
      · exact .inl (hsome hnone)
      · rw [if_neg hnone]
        exact .inr rfl

end Message

def answered (window : List ChatMessage) (i : Nat) : Bool :=
  (window[i + 1]?).any fun msg => results msg ≠ []

section Window

variable {caps : ModelCapabilities} {model : String} {source : AttachmentSource}
variable {open_ : List ToolCallId} {window : List ChatMessage} {wires : List WireMessage}

theorem messagesToWire_cons {msg : ChatMessage}
    (h : messagesToWire caps model source (msg :: window) = .ok wires) :
    ∃ group rest, messageToWire caps model source msg = .ok group ∧
      messagesToWire caps model source window = .ok rest ∧ wires = group ++ rest := by
  obtain ⟨group, hgroup, h⟩ := bind_eq_ok.mp h
  obtain ⟨rest, hrest, h⟩ := bind_eq_ok.mp h
  cases h
  exact ⟨group, rest, hgroup, hrest, rfl⟩

theorem toolRun_cons_of_not {w : WireMessage} (h : w.isTool = false) (wires : List WireMessage) :
    toolRun (w :: wires) = [] := by
  rw [toolRun, List.takeWhile_cons_of_neg (by simp [h]), List.filterMap_nil]

theorem toolRun_results (rs : List ToolResult) (wires : List WireMessage) :
    toolRun (rs.map toolMessage ++ wires) = rs.map (·.callId.asStr) ++ toolRun wires := by
  induction rs with
  | nil => rfl
  | cons r rs ih =>
    rw [List.map_cons, List.cons_append, toolRun, List.takeWhile_cons_of_pos (isTool_toolMessage r)]
    exact congrArg (List.cons _) ih

theorem Paired.quiet (hw : Paired [] window) {msg : ChatMessage} (hhead : window.head? = some msg) :
    results msg = [] := by
  cases window with
  | nil => cases hhead
  | cons _ window =>
    obtain rfl := Option.some.inj hhead
    by_contra hne
    have hperm := (hw.1 hne).2
    rw [List.perm_nil] at hperm
    exact hne (List.map_eq_nil_iff.mp hperm)

theorem toolRun_quiet (hw : Paired open_ window)
    (hhead : ∀ msg, window.head? = some msg → results msg = [])
    (h : messagesToWire caps model source window = .ok wires) : toolRun wires = [] := by
  induction window generalizing open_ wires with
  | nil =>
    cases h
    rfl
  | cons msg window ih =>
    obtain ⟨group, rest, hgroup, hrest, rfl⟩ := messagesToWire_cons h
    obtain ⟨hnot, hnil, -⟩ := messageToWire_no_results hgroup (hhead msg rfl)
    cases group with
    | cons w group => exact toolRun_cons_of_not (hnot w List.mem_cons_self) _
    | nil =>
      -- A message that was dropped had no calls, so the next one has no results.
      have hidle := hw.2
      rw [hnil rfl, List.map_nil] at hidle
      exact ih hw.2 (fun next hnext => hidle.quiet hnext) hrest

theorem toolRun_behind (hw : Paired open_ window)
    (h : messagesToWire caps model source window = .ok wires) :
    if (window.head?).any fun msg => results msg ≠ [] then
      (toolRun wires).Perm (open_.map (·.asStr))
    else toolRun wires = [] := by
  cases window with
  | nil =>
    cases h
    rfl
  | cons msg window =>
    by_cases hnone : results msg = []
    · rw [if_neg (by simp [hnone])]
      exact toolRun_quiet hw (fun m hm => Option.some.inj hm ▸ hnone) h
    · rw [if_pos (by simp [hnone])]
      obtain ⟨⟨rs, rfl⟩, hperm⟩ := hw.1 hnone
      obtain ⟨group, rest, hgroup, hrest, rfl⟩ := messagesToWire_cons h
      have hidle : Paired [] window := hw.2
      rw [messageToWire_results hgroup, toolRun_results,
        toolRun_quiet hidle (fun m hm => hidle.quiet hm) hrest, List.append_nil]
      rw [results, filterMap_toolResult] at hperm
      simpa [Function.comp_def] using hperm.map (·.asStr)

theorem split_cases {group rest before after : List WireMessage} {w : WireMessage}
    (h : group ++ rest = before ++ w :: after) :
    (∃ q, group = before ++ w :: q ∧ after = q ++ rest) ∨
      ∃ p, before = group ++ p ∧ rest = p ++ w :: after := by
  obtain ⟨p, hbefore, hrest⟩ | ⟨q, hgroup, hq⟩ := List.append_eq_append_iff.mp h
  · exact .inr ⟨p, hbefore, hrest⟩
  · cases q with
    | nil => exact .inr ⟨[], by rw [hgroup, List.append_nil, List.append_nil], hq.symm⟩
    | cons x q =>
      obtain ⟨rfl, rfl⟩ := List.cons.inj hq
      exact .inl ⟨q, hgroup, rfl⟩

theorem wire_calls (hw : Paired open_ window)
    (h : messagesToWire caps model source window = .ok wires) {before after : List WireMessage}
    {content reasoning : Option String} {cs : List WireToolCall}
    (hsplit : wires = before ++ .assistant content (some cs) reasoning :: after) :
    ∃ i contents, window[i]? = some (.assistant contents) ∧
      messagesToWire caps model source (window.take i) = .ok before ∧
      cs = (calls (.assistant contents)).map wireCall ∧
      if answered window i then (toolRun after).Perm (cs.map (·.id)) else toolRun after = [] := by
  induction window generalizing open_ wires before with
  | nil =>
    cases h
    exact absurd hsplit.symm (by simp)
  | cons msg window ih =>
    obtain ⟨group, rest, hgroup, hrest, rfl⟩ := messagesToWire_cons h
    obtain ⟨q, hfront, rfl⟩ | ⟨p, rfl, hback⟩ := split_cases hsplit
    · have hmem : .assistant content (some cs) reasoning ∈ group := by simp [hfront]
      obtain ⟨hone, -, hcs, contents, rfl⟩ := messageToWire_assistant hgroup hmem
      have hlength := congrArg List.length (hone.symm.trans hfront)
      simp only [List.length_append, List.length_cons, List.length_nil] at hlength
      obtain rfl : before = [] := List.eq_nil_of_length_eq_zero (by omega)
      obtain rfl : q = [] := List.eq_nil_of_length_eq_zero (by omega)
      have hne : calls (.assistant contents) ≠ [] := fun hnil => by
        rw [if_pos hnil] at hcs
        cases hcs
      rw [if_neg hne] at hcs
      cases hcs
      refine ⟨0, contents, rfl, rfl, rfl, ?_⟩
      have hbehind := toolRun_behind hw.2 hrest
      rw [List.head?_eq_getElem?] at hbehind
      simpa [answered, wireCall, Function.comp_def] using hbehind
    · obtain ⟨i, contents, hi, hbefore, hcs, hbehind⟩ := ih hw.2 hrest hback
      refine ⟨i + 1, contents, hi, ?_, hcs, hbehind⟩
      rw [List.take_succ_cons, messagesToWire, hgroup, hbefore]
      rfl

theorem wire_tool (hw : Paired open_ window)
    (h : messagesToWire caps model source window = .ok wires) {ahead : List WireMessage}
    (hahead : open_ ≠ [] → ∃ front content cs reasoning,
      ahead = front ++ [.assistant content (some cs) reasoning] ∧
      cs.map (·.id) = open_.map (·.asStr))
    {before after : List WireMessage} {output id : String}
    (hsplit : wires = before ++ .tool output id :: after) :
    ∃ front content cs reasoning tools,
      ahead ++ before = front ++ .assistant content (some cs) reasoning :: tools ∧
      (∀ w ∈ tools, w.isTool) ∧ id ∈ cs.map (·.id) := by
  induction window generalizing open_ wires ahead before with
  | nil =>
    cases h
    exact absurd hsplit.symm (by simp)
  | cons msg window ih =>
    obtain ⟨group, rest, hgroup, hrest, rfl⟩ := messagesToWire_cons h
    obtain ⟨q, hfront, rfl⟩ | ⟨p, rfl, hback⟩ := split_cases hsplit
    · have hresults : results msg ≠ [] := fun hnone => by
        have := (messageToWire_no_results hgroup hnone).1 (.tool output id) (hfront ▸ by simp)
        cases this
      obtain ⟨⟨rs, rfl⟩, hperm⟩ := hw.1 hresults
      have hne : open_ ≠ [] := fun hnil => by
        rw [hnil, List.perm_nil, List.map_eq_nil_iff] at hperm
        exact hresults hperm
      obtain ⟨front, content, cs, reasoning, rfl, hids⟩ := hahead hne
      have htools := messageToWire_results hgroup
      refine ⟨front, content, cs, reasoning, before, by simp, fun w hmem => ?_, ?_⟩
      · have hin : w ∈ rs.map toolMessage := htools ▸ hfront ▸ List.mem_append_left _ hmem
        obtain ⟨r, -, rfl⟩ := List.mem_map.mp hin
        rfl
      · have hin : .tool output id ∈ rs.map toolMessage := htools ▸ hfront ▸ by simp
        obtain ⟨r, hr, heq⟩ := List.mem_map.mp hin
        cases heq
        rw [results, filterMap_toolResult] at hperm
        rw [hids]
        exact List.mem_map_of_mem (hperm.subset (List.mem_map_of_mem hr))
    · have hnext : (calls msg).map (·.id) ≠ [] → ∃ front content cs reasoning,
          ahead ++ group = front ++ [.assistant content (some cs) reasoning] ∧
          cs.map (·.id) = ((calls msg).map (·.id)).map (·.asStr) := fun hne => by
        have hcalls : calls msg ≠ [] := fun hnil => hne (by rw [hnil, List.map_nil])
        obtain ⟨content, reasoning, rfl⟩ := messageToWire_calls hgroup hcalls
        exact ⟨ahead, content, _, reasoning, rfl, by simp [wireCall, Function.comp_def]⟩
      obtain ⟨front, content, cs, reasoning, tools, heq, htools, hid⟩ := ih hw.2 hrest hnext hback
      exact ⟨front, content, cs, reasoning, tools, by rw [← List.append_assoc, heq], htools, hid⟩

theorem wire_assistant (h : messagesToWire caps model source window = .ok wires)
    {content reasoning : Option String} {cs : Option (List WireToolCall)}
    (hmem : .assistant content cs reasoning ∈ wires) : content.isSome ∨ cs.isSome := by
  induction window generalizing wires with
  | nil =>
    cases h
    cases hmem
  | cons msg window ih =>
    obtain ⟨group, rest, hgroup, hrest, rfl⟩ := messagesToWire_cons h
    rcases List.mem_append.mp hmem with hfront | hback
    · exact (messageToWire_assistant hgroup hfront).2.1
    · exact ih hrest hback

theorem wire_said (hw : Paired open_ window)
    (h : messagesToWire caps model source window = .ok wires) :
    wires.flatMap WireMessage.said = window.flatMap (saidMessage caps model source) := by
  induction window generalizing open_ wires with
  | nil =>
    cases h
    rfl
  | cons msg window ih =>
    obtain ⟨group, rest, hgroup, hrest, rfl⟩ := messagesToWire_cons h
    rw [List.flatMap_append, List.flatMap_cons, ih hw.2 hrest]
    congr 1
    by_cases hnone : results msg = []
    · exact (messageToWire_no_results hgroup hnone).2.2
    · obtain ⟨⟨rs, rfl⟩, -⟩ := hw.1 hnone
      rw [messageToWire_results hgroup, saidMessage, List.flatMap_map, List.flatMap_map]
      rfl

end Window

/-- The calls of an assistant's message are followed by their results, one for each, if the window
has them and by none otherwise; there are no other results, no empty messages, and all is told in
its order. -/
theorem messagesToWire_paired {window : List ChatMessage} (hw : Paired [] window)
    (caps : ModelCapabilities) (model : String) (source : AttachmentSource)
    {wires : List WireMessage} (h : messagesToWire caps model source window = .ok wires) :
    (∀ before content cs reasoning after,
      wires = before ++ .assistant content (some cs) reasoning :: after →
      ∃ i contents, window[i]? = some (.assistant contents) ∧
        messagesToWire caps model source (window.take i) = .ok before ∧
        cs = (calls (.assistant contents)).map wireCall ∧
        if answered window i then (toolRun after).Perm (cs.map (·.id)) else toolRun after = []) ∧
    (∀ before output id after, wires = before ++ .tool output id :: after →
      ∃ front content cs reasoning tools,
        before = front ++ .assistant content (some cs) reasoning :: tools ∧
        (∀ w ∈ tools, w.isTool) ∧ id ∈ cs.map (·.id)) ∧
    (∀ content cs reasoning, .assistant content cs reasoning ∈ wires →
      content.isSome ∨ cs.isSome) ∧
    wires.flatMap WireMessage.said = window.flatMap (saidMessage caps model source) := by
  have hidle : ([] : List ToolCallId) ≠ [] → ∃ front content cs reasoning,
      ([] : List WireMessage) = front ++ [.assistant content (some cs) reasoning] ∧
      cs.map (·.id) = ([] : List ToolCallId).map (·.asStr) := fun hne => absurd rfl hne
  exact ⟨fun before content cs reasoning after => wire_calls hw h,
    fun before output id after => wire_tool hw h hidle,
    fun content cs reasoning => wire_assistant h, wire_said hw h⟩

namespace Sample

def call : ToolCall :=
  ⟨⟨"call_read", by decide, by decide⟩, ⟨"read_file", by decide, by decide, by decide⟩, "{}"⟩

def caps : ModelCapabilities := ⟨false, false, false, true⟩

def source : AttachmentSource where
  fetch _ := .error "timed out"
  base64 _ := ""
  attachmentToText _ _ := .error "timed out"

end Sample

theorem messagesToWire_paired_answered :
    let window : List ChatMessage := [.user [.text "Hi"], .assistant [.toolCall Sample.call],
      .user [.toolResult ⟨Sample.call.id, "found", false⟩]]
    ∃ wires, messagesToWire Sample.caps "m" Sample.source window = .ok wires ∧
      wires.flatMap WireMessage.said =
        window.flatMap (saidMessage Sample.caps "m" Sample.source) := by
  intro window
  have hw : Paired [] window :=
    ⟨fun h => absurd rfl h, fun h => absurd rfl h,
      fun _ => ⟨⟨[⟨Sample.call.id, "found", false⟩], rfl⟩, List.Perm.refl _⟩, trivial⟩
  exact ⟨_, rfl, (messagesToWire_paired hw Sample.caps "m" Sample.source rfl).2.2.2⟩

/-- A call at the end of a window is followed by nothing, and reasoning alone is not told. -/
theorem messagesToWire_unanswered :
    (¬ ∀ window wires, Paired [] window →
      messagesToWire Sample.caps "m" Sample.source window = .ok wires →
      ∀ before content cs reasoning after,
        wires = before ++ .assistant content (some cs) reasoning :: after →
        (toolRun after).Perm (cs.map (·.id))) ∧
    messagesToWire Sample.caps "m" Sample.source [.assistant [.reasoning "Why?"]] = .ok [] := by
  refine ⟨fun hall => ?_, rfl⟩
  have hw : Paired [] [.assistant [.toolCall Sample.call]] := ⟨fun h => absurd rfl h, trivial⟩
  have hperm := hall _ _ hw rfl [] none [wireCall Sample.call] none [] rfl
  exact absurd hperm.symm.eq_nil (List.cons_ne_nil _ _)

end Patom.Provider.OpenAi
