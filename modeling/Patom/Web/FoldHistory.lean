import Patom.Web.ChatBody

namespace Patom.Web

def SEND_MESSAGE : String := "send_message"
def WIRE_MCP_TOOL_NAME : String := "request_user_wire_mcp"

inductive MentionableKind
  | human
  | agent
  deriving DecidableEq

structure Mentionable where
  kind : MentionableKind
  id : String
  name : String
  colleagueId : Option String
  deriving DecidableEq

/-- What the fold does with JSON: `JSON.parse`, a field of an object, and a string. -/
structure Json (J : Type) where
  parse : String → Option J
  field : J → String → Option J
  string? : J → Option String

inductive ToolStatus
  | running
  | ok
  | error
  deriving DecidableEq

structure ToolCallEntry (J : Type) where
  callId : String
  name : String
  input : J
  output : Option String
  isError : Option Bool
  status : ToolStatus

structure McpWireRequest where
  catalogId : String
  displayName : String
  reason : String
  authKind : String
  homepageUrl : Option String
  deriving DecidableEq

inductive BubbleKind
  | agent
  | human
  deriving DecidableEq

inductive BubblePhase
  | persisted
  | streaming
  | optimistic
  deriving DecidableEq

/-- `toolCalls` are references into the fold's entries. -/
structure Bubble where
  kind : BubbleKind
  key : String
  requestId : String
  clientKey : Option String
  agentId : Option String
  agentName : Option String
  humanName : Option String
  humanId : Option String
  humanAvatarUrl : Option String
  ts : String
  text : String
  attachments : Option (List Attachment)
  reasoning : String
  toolCalls : List Nat
  wireRequests : List McpWireRequest
  phase : BubblePhase
  deriving DecidableEq

structure RootMessage where
  name : String
  id : String
  avatarUrl : Option String
  ts : String
  text : String
  attachments : List Attachment
  deriving DecidableEq

structure Poster where
  name : String
  id : String

structure Pending where
  reasoning : String
  toolCalls : List Nat
  deriving DecidableEq

def newPending : Pending := ⟨"", []⟩

def joinText (a b : String) : String := if a = "" then b else if b = "" then a else a ++ "\n" ++ b

def prefixName (content : String) (name : Option String) : String :=
  match name with
  | none => content
  | some name =>
    if name = "" ∨ ("@" ++ name).toList <+: content.toList then content
    else "@" ++ name ++ " " ++ content

section Roster

variable (roster : List Mentionable)

/-- The last one of an id is the one in the map. -/
def byId (kind : MentionableKind) (id : String) : Option Mentionable :=
  roster.reverse.find? fun m => m.kind = kind && m.id = id

def participantName : Option Participant → Option String
  | none | some .system => none
  | some (.agent _ agentId) => (byId roster .agent agentId).map (·.name)
  | some (.human _ userId) => (byId roster .human userId).map (·.name)

abbrev Names := String → Option String

def Names.set (names : Names) (key value : String) : Names := Function.update names key (some value)

def rosterNames : Names :=
  roster.foldl (fun names m =>
    match m.colleagueId with
    | some id => if id = "" then names else names.set id m.name
    | none => names) fun _ => none

def noteColleague (names : Names) (p : Option Participant) (humanName : Option String) : Names :=
  match p with
  | none | some .system => names
  | some (.agent colleagueId agentId) =>
    match (byId roster .agent agentId).map (·.name) with
    | some name => if name = "" then names else names.set colleagueId name
    | none => names
  | some (.human colleagueId userId) =>
    match humanName.or ((byId roster .human userId).map (·.name)) with
    | some name => if name = "" then names else names.set colleagueId name
    | none => names

variable {J : Type}

def colleagueNames (history : List (ThreadMessage J)) : Names :=
  history.foldl (fun names m =>
    noteColleague roster (noteColleague roster names (some m.sender) m.senderDisplayName)
      m.receiver none) (rosterNames roster)

end Roster

section Prepass

variable {J : Type}

def recvKey (reqId : Option String) (content : String) : String := reqId.getD "" ++ " " ++ content

def ToolResultPayload.failed (tr : ToolResultPayload) : Bool := tr.isError = some true

def failedCallIds (history : List (ThreadMessage J)) : List String :=
  history.flatMap fun m =>
    ((decodeBody m.body).toolResults.filter ToolResultPayload.failed).map (·.callId)

def deliveredReceiver (history : List (ThreadMessage J)) : Names :=
  history.foldl (fun names m =>
    match m.kind, m.sender, m.receiver with
    | .posted, .agent _ _, some (.human colleagueId _)
    | .posted, .agent _ _, some (.agent colleagueId _) =>
      names.set (recvKey m.requestId (decodeBody m.body).text) colleagueId
    | _, _, _ => names) fun _ => none

end Prepass

section Step

variable {J : Type}

/-- The entries are the objects that the bubbles and the index share. `index` and the results go by
call id, and an agent is known by its id. -/
structure FoldState (J : Type) where
  entries : List (ToolCallEntry J)
  bubbles : List Bubble
  pending : String → Pending
  lastBubble : String → Option Nat
  index : String → Option Nat
  sendMessageCallIds : List String
  rootMessage : Option RootMessage

def FoldState.init : FoldState J := ⟨[], [], fun _ => newPending, fun _ => none, fun _ => none, [], none⟩

structure Context where
  roster : List Mentionable
  poster : Poster
  failed : List String
  names : Names
  receivers : Names

def Context.of (roster : List Mentionable) (poster : Poster) (history : List (ThreadMessage J)) :
    Context :=
  ⟨roster, poster, failedCallIds history, colleagueNames roster history, deliveredReceiver history⟩

def addCall (aid : String) (s : FoldState J) (tc : ToolCallPayload J) : FoldState J :=
  let p := s.pending aid
  { s with
    entries := s.entries ++ [⟨tc.id, tc.name, tc.input, none, none, .running⟩]
    pending := Function.update s.pending aid { p with toolCalls := p.toolCalls ++ [s.entries.length] }
    index := Function.update s.index tc.id (some s.entries.length) }

def addReasoning (aid : String) (reasoning : String) (s : FoldState J) : FoldState J :=
  let p := s.pending aid
  { s with
    pending := Function.update s.pending aid { p with reasoning := joinText p.reasoning reasoning } }

def attach (s : FoldState J) (tr : ToolResultPayload) : FoldState J :=
  if tr.callId ∈ s.sendMessageCallIds then s
  else
    match s.index tr.callId with
    | none => s
    | some ref =>
      { s with
        entries := s.entries.modify ref fun e =>
          { e with
            output := some tr.output
            isError := tr.isError
            status := if tr.failed then .error else .ok } }

def attachResults (s : FoldState J) (results : List ToolResultPayload) : FoldState J :=
  results.foldl attach s

variable (json : Json J) (ctx : Context)

def sendContent (tc : ToolCallPayload J) : String :=
  ((json.field tc.input "content").bind json.string?).getD ""

def agentBubble (m : ThreadMessage J) (aid : String) (p : Pending) (tc : ToolCallPayload J) :
    Bubble where
  kind := .agent
  key := "h:" ++ toString m.seq ++ ":" ++ tc.id
  requestId := m.requestId.getD ("seq:" ++ toString m.seq)
  clientKey := none
  agentId := some aid
  agentName := if aid = "" then none else (byId ctx.roster .agent aid).map (·.name)
  humanName := none
  humanId := none
  humanAvatarUrl := none
  ts := m.createdAt
  text :=
    let content := sendContent json tc
    let recvColleague := ctx.receivers (recvKey m.requestId content)
    prefixName content ((recvColleague.filter (· ≠ "")).bind ctx.names)
  attachments := none
  reasoning := p.reasoning
  toolCalls := p.toolCalls
  wireRequests := []
  phase := .persisted

/-- One delivered send: a bubble of its own, with the reasoning and the calls of its row. -/
def deliver (m : ThreadMessage J) (aid : String) (p : Pending) (s : FoldState J)
    (tc : ToolCallPayload J) : FoldState J :=
  { s with
    bubbles := s.bubbles ++ [agentBubble json ctx m aid p tc]
    lastBubble := Function.update s.lastBubble aid (some s.bubbles.length) }

def foldSends (m : ThreadMessage J) (aid : String) (decoded : DecodedBody J) (s : FoldState J) :
    FoldState J :=
  let sendCalls := decoded.toolCalls.filter fun tc => tc.name = SEND_MESSAGE
  if 0 < sendCalls.length then
    let s := { s with sendMessageCallIds := s.sendMessageCallIds ++ sendCalls.map (·.id) }
    let deliveredCalls := sendCalls.filter fun tc => tc.id ∉ ctx.failed
    if 0 < deliveredCalls.length then
      let p := s.pending aid
      let s := deliveredCalls.foldl
        (deliver json ctx m aid { p with reasoning := joinText p.reasoning decoded.reasoning }) s
      { s with pending := Function.update s.pending aid newPending }
    else if decoded.reasoning ≠ "" then addReasoning aid decoded.reasoning s
    else s
  else if decoded.reasoning ≠ "" then
    match s.lastBubble aid with
    | some b =>
      if (s.pending aid).toolCalls = [] then
        { s with
          bubbles := s.bubbles.modify b fun lb =>
            { lb with reasoning := joinText lb.reasoning decoded.reasoning } }
      else addReasoning aid decoded.reasoning s
    | none => addReasoning aid decoded.reasoning s
  else s

def foldAgent (m : ThreadMessage J) (aid : String) (s : FoldState J) : FoldState J :=
  let decoded := decodeBody m.body
  let realCalls := decoded.toolCalls.filter fun tc => tc.name ≠ SEND_MESSAGE
  let s := realCalls.foldl (addCall aid) s
  attachResults (foldSends json ctx m aid decoded s) decoded.toolResults

def rootOf (m : ThreadMessage J) (userId : String) : RootMessage where
  name := m.senderDisplayName.getD ctx.poster.name
  id := userId
  avatarUrl := m.senderAvatarUrl
  ts := m.createdAt
  text := prefixName (decodeBody m.body).text (participantName ctx.roster m.receiver)
  attachments := (decodeBody m.body).attachments

def humanBubble (m : ThreadMessage J) (userId : String) : Bubble where
  kind := .human
  key := "h:" ++ toString m.seq ++ ":user"
  requestId := (m.requestId.or m.clientKey).getD ("seq:" ++ toString m.seq)
  clientKey := m.clientKey
  agentId := none
  agentName := none
  humanName := some (m.senderDisplayName.getD ctx.poster.name)
  humanId := some userId
  humanAvatarUrl := m.senderAvatarUrl
  ts := m.createdAt
  text := prefixName (decodeBody m.body).text (participantName ctx.roster m.receiver)
  attachments := some (decodeBody m.body).attachments
  reasoning := ""
  toolCalls := []
  wireRequests := []
  phase := .persisted

def speaks (m : ThreadMessage J) : Bool :=
  (decodeBody m.body).text ≠ "" || 0 < (decodeBody m.body).attachments.length

def foldHuman (m : ThreadMessage J) (userId : String) (s : FoldState J) : FoldState J :=
  match s.rootMessage with
  | none => { s with rootMessage := some (rootOf ctx m userId) }
  | some _ => if speaks m then { s with bubbles := s.bubbles ++ [humanBubble ctx m userId] } else s

def foldRow (s : FoldState J) (m : ThreadMessage J) : FoldState J :=
  match m.sender with
  | .agent _ aid => foldAgent json ctx m aid s
  | .system => attachResults s (decodeBody m.body).toolResults
  | .human _ userId => foldHuman ctx m userId s

def parseWireMcpOutput (output : String) : Option McpWireRequest := do
  let o ← json.parse output
  let str (name : String) := (json.field o name).bind json.string?
  if str "status" ≠ some "requested" then none
  else
    let catalogId ← str "catalog_id"
    let displayName ← str "display_name"
    let reason ← str "reason"
    let authKind ← str "auth_kind"
    if authKind ≠ "oauth2" ∧ authKind ≠ "static_headers" ∧ authKind ≠ "none" then none
    else return ⟨catalogId, displayName, reason, authKind, str "homepage_url"⟩

def wireRequest (tc : ToolCallEntry J) : Option McpWireRequest :=
  if tc.name ≠ WIRE_MCP_TOOL_NAME then none
  else if tc.status ≠ .ok then none
  else
    match tc.output with
    | none => none
    | some output => if output = "" then none else parseWireMcpOutput json output

def addWireRequests (entries : List (ToolCallEntry J)) (b : Bubble) : Bubble :=
  if b.kind ≠ .agent then b
  else
    { b with
      wireRequests := ((b.toolCalls.filterMap (entries[·]?)).filterMap (wireRequest json)).foldl
        (fun ws req => if ws.any (·.catalogId = req.catalogId) then ws else ws ++ [req])
        b.wireRequests }

structure FoldedHistory (J : Type) where
  rootMessage : Option RootMessage
  bubbles : List Bubble
  entries : List (ToolCallEntry J)

def foldHistory (history : List (ThreadMessage J)) (roster : List Mentionable) (poster : Poster) :
    FoldedHistory J :=
  let s := history.foldl (foldRow json (.of roster poster history)) .init
  ⟨s.rootMessage, s.bubbles.map (addWireRequests json s.entries), s.entries⟩

end Step

end Patom.Web
