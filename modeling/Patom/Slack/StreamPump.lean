import Mathlib.Data.List.DropRight
import Patom.Runtime.Response
import Patom.Slack.SignedLinks

open Patom.Mcp (McpAuthKind McpCatalogId)
open Patom.Runtime (ResponseChunk)

namespace Patom.Slack

def MAX_DEFERRED_WIRE_CARDS : Nat := 8
def SLACK_MAX_POST_CHARS : Nat := 35000
def SLACK_CONNECTION_REASON_MAX_CHARS : Nat := 2000
def CONNECT_LINK_TTL_SECS : Int := 60 * 10

namespace StreamPump

structure AttachRequest where
  threadId : ThreadId
  teamId : SlackTeamId
  channelId : SlackChannelId
  threadTs : SlackThreadTs
  slackUserId : SlackUserId

inductive Block
  | section (text : String)
  | connect (label url : String)
  | context (text : String)
  deriving DecidableEq

inductive PostBody
  | text (text : String)
  | blocks (fallbackText : String) (blocks : List Block)
  deriving DecidableEq

structure DeferredPost where
  body : PostBody
  username : String
  iconUrl : Option String
  deriving DecidableEq

structure PostRequest where
  token : String
  channel : SlackChannelId
  threadTs : Option SlackThreadTs
  body : PostBody
  username : String
  iconUrl : Option String
  ephemeralTo : Option SlackUserId
  deriving DecidableEq

/-- What the pump has at hand: `signConnect` and `connectUrlBase` make the links. -/
structure PumpDeps where
  signConnect : SlackConnectClaims → Int → String
  connectUrlBase : String
  botToken : String
  request : AttachRequest

/-- An item, with what the clock and the agent store answer when it is handled. -/
structure ThreadStreamItem where
  chunk : ResponseChunk
  fromAgent : AgentId
  nowUnixSecs : Int
  agent : Option (String × Option String)

inductive ThreadStreamEvent
  | backendError
  | stalled
  | item (item : ThreadStreamItem)

structure PumpSt where
  deferred : List DeferredPost
  posts : List PostRequest

def truncate (text : String) (maxChars : Nat) : String :=
  if maxChars = 0 then ""
  else if text.toList.length ≤ maxChars then text
  else String.ofList (text.toList.take (maxChars - 1)) ++ "…"

def clipBody (body : PostBody) (maxChars : Nat) : PostBody :=
  match body with
  | .text text => .text (truncate text maxChars)
  | .blocks fallbackText blocks => .blocks (truncate fallbackText maxChars) blocks

def buildConnectionRequestCard (reason displayName : String) (authKind : McpAuthKind)
    (connectUrl : Option String) : List Block :=
  [.section (truncate reason SLACK_CONNECTION_REASON_MAX_CHARS),
    match authKind, connectUrl with
    | .oauth2, some url => .connect ("Connect " ++ displayName) url
    | _, _ => .context ("_Finish wiring *" ++ displayName ++ "* in the Patom web UI._")]

def payloadForPost (chunk : ResponseChunk) (connectUrl : Option String) : Option PostBody :=
  match chunk with
  | .done finalText => if finalText = "" then none else some (.text finalText)
  | .agentMessage _ _ content _ => if content = "" then none else some (.text content)
  | .error reason _ => some (.text (":warning: Error: " ++ reason))
  | .wireMcpRequest _ _ displayName reason authKind _ =>
    some (.blocks ("Patom agent requested " ++ displayName ++ " connection")
      (buildConnectionRequestCard reason displayName authKind connectUrl))
  | .text _ | .reasoning _ | .toolCall _ | .toolResult _ | .stalled => none

section Pump

variable (deps : PumpDeps)

def buildConnectUrl (catalogId : McpCatalogId) (agentId : AgentId) (nowUnixSecs : Int) : String :=
  let req := deps.request
  let claims : SlackConnectClaims :=
    ⟨catalogId, req.teamId, req.channelId, req.threadTs, req.slackUserId, req.threadId, agentId⟩
  let base := (deps.connectUrlBase.toList.reverse.dropWhile (· = '/')).reverse
  String.ofList base ++ "/slack/mcp/connect?token="
    ++ deps.signConnect claims (nowUnixSecs + CONNECT_LINK_TTL_SECS)

def connectUrl (item : ThreadStreamItem) : Option String :=
  match item.chunk with
  | .wireMcpRequest _ catalogId _ _ .oauth2 _ =>
    some (buildConnectUrl deps catalogId item.fromAgent item.nowUnixSecs)
  | _ => none

/-- An agent that cannot be read posts under a stable name. -/
def resolveAgentIdentity (item : ThreadStreamItem) : String × Option String :=
  item.agent.getD ("agent", none)

def isWireMcpRequest : ResponseChunk → Bool
  | .wireMcpRequest .. => true
  | _ => false

def postToThread (post : DeferredPost) : PostRequest :=
  ⟨deps.botToken, deps.request.channelId, some deps.request.threadTs, post.body, post.username,
    post.iconUrl, none⟩

def postOf (item : ThreadStreamItem) : Option DeferredPost :=
  (payloadForPost item.chunk (connectUrl deps item)).map fun body =>
    ⟨clipBody body SLACK_MAX_POST_CHARS, (resolveAgentIdentity item).1,
      (resolveAgentIdentity item).2⟩

def handleStreamEvent (s : PumpSt) : ThreadStreamEvent → PumpSt
  | .backendError | .stalled => s
  | .item item =>
    match postOf deps item with
    | none => s
    | some post =>
      if isWireMcpRequest item.chunk then
        let deferred :=
          if MAX_DEFERRED_WIRE_CARDS ≤ s.deferred.length then s.deferred.eraseIdx 0 else s.deferred
        { s with deferred := deferred ++ [post] }
      else ⟨[], s.posts ++ [postToThread deps post] ++ s.deferred.map (postToThread deps)⟩

def handleAll (events : List ThreadStreamEvent) : PumpSt :=
  events.foldl (handleStreamEvent deps) ⟨[], []⟩

def cardOf : ThreadStreamEvent → Option DeferredPost
  | .item item => if isWireMcpRequest item.chunk then postOf deps item else none
  | .backendError | .stalled => none

def textOf : ThreadStreamEvent → Option DeferredPost
  | .item item => if isWireMcpRequest item.chunk then none else postOf deps item
  | .backendError | .stalled => none

def lastCards (events : List ThreadStreamEvent) : List DeferredPost :=
  (events.filterMap (cardOf deps)).rtake MAX_DEFERRED_WIRE_CARDS

def isEmptyDone : ThreadStreamEvent → Bool
  | .item item => item.chunk = .done ""
  | .backendError | .stalled => false

def isTerminal : ThreadStreamEvent → Bool
  | .item item => item.chunk.isTerminal
  | .backendError | .stalled => false

/-- Since the last text came `since`: behind the text of the terminal event, if it has one, come
the last cards, each once, and nothing is held back. -/
def Delivers (before since : List ThreadStreamEvent) (last : ThreadStreamEvent) : Prop :=
  (handleAll deps (before ++ since ++ [last])).deferred = [] ∧
    (handleAll deps (before ++ since ++ [last])).posts
      = (handleAll deps before).posts
        ++ ((textOf deps last).toList ++ lastCards deps since).map (postToThread deps)

end Pump

variable {deps : PumpDeps} {s : PumpSt} {e last : ThreadStreamEvent} {post : DeferredPost}
  {events before since : List ThreadStreamEvent}

theorem handle_card (h : cardOf deps e = some post) :
    handleStreamEvent deps s e = { s with deferred :=
      (if MAX_DEFERRED_WIRE_CARDS ≤ s.deferred.length then s.deferred.eraseIdx 0
        else s.deferred) ++ [post] } := by
  cases e with
  | backendError => cases h
  | stalled => cases h
  | item item =>
    obtain ⟨hcard, hpost⟩ := Option.ite_none_right_eq_some.mp h
    simp only [handleStreamEvent, hpost, hcard, if_true]

theorem handle_text (h : textOf deps e = some post) :
    handleStreamEvent deps s e
      = ⟨[], s.posts ++ [postToThread deps post] ++ s.deferred.map (postToThread deps)⟩ := by
  cases e with
  | backendError => cases h
  | stalled => cases h
  | item item =>
    obtain ⟨hcard, hpost⟩ := Option.ite_none_left_eq_some.mp h
    simp only [handleStreamEvent, hpost, hcard, Bool.false_eq_true, if_false]

theorem handle_silent (hcard : cardOf deps e = none) (htext : textOf deps e = none) :
    handleStreamEvent deps s e = s := by
  cases e with
  | backendError => rfl
  | stalled => rfl
  | item item =>
    have hpost : postOf deps item = none := by
      cases hc : isWireMcpRequest item.chunk with
      | true => simpa [cardOf, hc] using hcard
      | false => simpa [textOf, hc] using htext
    simp only [handleStreamEvent, hpost]

theorem push_rtake {l : List DeferredPost} {n : Nat} (hn : 0 < n) :
    (if n ≤ (l.rtake n).length then (l.rtake n).eraseIdx 0 else l.rtake n) ++ [post]
      = (l ++ [post]).rtake n := by
  have hlength : (l.rtake n).length = l.length - (l.length - n) := List.length_drop
  split
  · have hle : l.length + 1 - n ≤ l.length := by omega
    rw [List.eraseIdx_zero, List.rtake, List.rtake, List.tail_drop, List.length_append,
      List.length_singleton, List.drop_append_of_le_length hle]
    congr 2
    omega
  · have hshort : l.length + 1 - n = 0 := by omega
    have hshort' : l.length - n = 0 := by omega
    rw [List.rtake, List.rtake, hshort', List.length_append, List.length_singleton, hshort]
    rfl

theorem handle_since (hclear : s.deferred = []) (hsince : ∀ e ∈ since, textOf deps e = none) :
    since.foldl (handleStreamEvent deps) s = ⟨lastCards deps since, s.posts⟩ := by
  induction since using List.reverseRecOn with
  | nil => exact congrArg (PumpSt.mk · s.posts) hclear
  | append_singleton since e ih =>
    have hrest := ih fun e' he' => hsince e' (List.mem_append_left _ he')
    have htext := hsince e (List.mem_append_right _ (List.mem_singleton.mpr rfl))
    rw [List.foldl_append, hrest, List.foldl_cons, List.foldl_nil, lastCards, lastCards,
      List.filterMap_append]
    cases hcard : cardOf deps e with
    | none =>
      rw [handle_silent hcard htext, List.filterMap_cons_none hcard, List.filterMap_nil,
        List.append_nil]
    | some card =>
      rw [handle_card hcard, List.filterMap_cons_some hcard, List.filterMap_nil]
      exact congrArg (PumpSt.mk · s.posts) (push_rtake (by decide))

theorem clear_behind_text (hbefore : ∀ e ∈ before.getLast?, (textOf deps e).isSome) :
    (handleAll deps before).deferred = [] := by
  induction before using List.reverseRecOn with
  | nil => rfl
  | append_singleton before e _ =>
    obtain ⟨post, hpost⟩ := Option.isSome_iff_exists.mp (hbefore e (by simp))
    rw [handleAll, List.foldl_append, List.foldl_cons, List.foldl_nil, handle_text hpost]

theorem textOf_terminal (h : isTerminal last = true) :
    textOf deps last = none ↔ isEmptyDone last = true := by
  cases last with
  | backendError => cases h
  | stalled => cases h
  | item item =>
    obtain ⟨chunk, fromAgent, now, agent⟩ := item
    cases chunk with
    | done finalText =>
      by_cases hempty : finalText = "" <;>
        simp [textOf, postOf, payloadForPost, isWireMcpRequest, isEmptyDone, hempty]
    | error reason code =>
      simp [textOf, postOf, payloadForPost, isWireMcpRequest, isEmptyDone]
    | _ => cases h

theorem cardOf_terminal (h : isTerminal last = true) : cardOf deps last = none := by
  cases last with
  | backendError => cases h
  | stalled => cases h
  | item item =>
    obtain ⟨chunk, fromAgent, now, agent⟩ := item
    cases chunk with
    | done finalText => rfl
    | error reason code => rfl
    | _ => cases h

theorem lastCards_eq_nil : lastCards deps since = [] ↔ ∀ e ∈ since, cardOf deps e = none := by
  rw [← List.filterMap_eq_nil_iff, lastCards, List.rtake, List.drop_eq_nil_iff, ←
    List.length_eq_zero_iff]
  have hpos : 0 < MAX_DEFERRED_WIRE_CARDS := by decide
  omega

/-- The cards are delivered unless a turn that brought some ends in an empty `Done`. -/
theorem delivers_iff (hbefore : ∀ e ∈ before.getLast?, (textOf deps e).isSome)
    (hsince : ∀ e ∈ since, textOf deps e = none) (hlast : isTerminal last = true) :
    Delivers deps before since last ↔
      (isEmptyDone last = true → ∀ e ∈ since, cardOf deps e = none) := by
  have hrun : handleAll deps (before ++ since ++ [last])
      = handleStreamEvent deps ⟨lastCards deps since, (handleAll deps before).posts⟩ last := by
    rw [handleAll, List.foldl_append, List.foldl_append]
    exact congrArg (handleStreamEvent deps · last)
      (handle_since (clear_behind_text hbefore) hsince)
  rw [Delivers, hrun, ← lastCards_eq_nil]
  cases htext : textOf deps last with
  | some post =>
    have hnot : isEmptyDone last ≠ true := fun hempty => by
      rw [(textOf_terminal hlast).mpr hempty] at htext
      cases htext
    refine iff_of_true ?_ fun hempty => absurd hempty hnot
    rw [handle_text htext]
    simp
  | none =>
    have hempty := (textOf_terminal hlast).mp htext
    rw [handle_silent (cardOf_terminal hlast) htext]
    constructor
    · exact fun h _ => h.1
    · intro h
      simp [h hempty]

def notion : McpCatalogId := ⟨"notion", by decide, by decide, by decide⟩

def pumpDeps : PumpDeps where
  signConnect _ _ := "token"
  connectUrlBase := "https://patom.example/"
  botToken := "xoxb"
  request := ⟨1, ⟨"T01", by decide, by decide, by decide⟩, ⟨"C01", by decide, by decide, by decide⟩,
    ⟨"1700000000.111111", by decide, by decide⟩, ⟨"U01", by decide, by decide, by decide⟩⟩

def chunkEvent (chunk : ResponseChunk) : ThreadStreamEvent :=
  .item ⟨chunk, 7, 0, some ("Ava", none)⟩

def cardEvent : ThreadStreamEvent :=
  chunkEvent (.wireMcpRequest 7 notion "Notion" "To draft the brief." .oauth2 none)

theorem delivers_iff_error :
    Delivers pumpDeps [] [cardEvent] (chunkEvent (.error "timed out" "timeout")) :=
  (delivers_iff (fun _ h => by cases h) (by decide +kernel) rfl).mpr fun h =>
    absurd h (by decide +kernel)

/-- The card waits behind an empty `Done`. -/
theorem not_delivers : ¬ ∀ deps before since last,
    (∀ e ∈ before.getLast?, (textOf deps e).isSome) → (∀ e ∈ since, textOf deps e = none) →
      isTerminal last = true → Delivers deps before since last := by
  intro h
  have hdelivers := h pumpDeps [] [cardEvent] (chunkEvent (.done "")) (fun _ h => by cases h)
    (by decide +kernel) rfl
  exact absurd hdelivers.1 (by decide +kernel)

end StreamPump

end Patom.Slack
