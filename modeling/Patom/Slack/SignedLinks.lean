import Patom.Mcp.WireConnect
import Patom.Slack.Bridge

open Patom.Foundation
open Patom.Mcp (Family IdText Key McpCatalogId Plain TokenCrates catalogIdText mem_intercalate)

namespace Patom.Slack

/-- `parse_slack_id` -/
def SlackId.tryFrom (field raw : String) : Except ParseError SlackId :=
  if h : raw = "" then .error (.empty field)
  else if h' : raw.utf8ByteSize ≤ SLACK_ID_MAX_LEN then
    if h'' : raw.toList.all fun c => c.isAlphanum || c = '-' || c = '_' then .ok ⟨raw, h, h', h''⟩
    else .error (.malformed field "non-alphanumeric character")
  else .error (.tooLong field SLACK_ID_MAX_LEN raw.utf8ByteSize)

/-- `parse_slack_ts` -/
def SlackTs.tryFrom (field raw : String) : Except ParseError SlackTs :=
  if raw = "" then .error (.empty field)
  else if h : raw.utf8ByteSize ≤ SLACK_TS_MAX_LEN then
    if h' : isSlackTs raw.toList then .ok ⟨raw, h, h'⟩
    else
      match raw.toList.splitOn '.' with
      | [] => .error (.malformed field "expected <secs>.<micros>")
      | [_] => .error (.malformed field "missing fractional part")
      | [lhs, rhs] =>
        if lhs.isEmpty || rhs.isEmpty then .error (.malformed field "empty section around '.'")
        else .error (.malformed field "non-digit character")
      | _ => .error (.malformed field "more than one '.'")
  else .error (.tooLong field SLACK_TS_MAX_LEN raw.utf8ByteSize)

theorem SlackId.plain (id : SlackId) : Plain id.asStr.toList := fun c hc => by
  simpa [or_assoc] using List.all_eq_true.mp id.chars c hc

def slackIdText (field : String) : IdText SlackId where
  asStr := (·.asStr)
  tryFrom := SlackId.tryFrom field
  maxLen := SLACK_ID_MAX_LEN
  tryFrom_asStr id := by
    rw [SlackId.tryFrom, dif_neg id.nonempty, dif_pos id.bounded, dif_pos id.chars]
  nonempty := (·.nonempty)
  plain := SlackId.plain
  bounded := (·.bounded)

def teamIdText : IdText SlackTeamId := slackIdText "slack_team_id"
def channelIdText : IdText SlackChannelId := slackIdText "slack_channel_id"
def userIdText : IdText SlackUserId := slackIdText "slack_user_id"

namespace SlackTs

def parse (field : List Char) : Option SlackThreadTs :=
  (SlackTs.tryFrom "slack_thread_ts" (String.ofList field)).toOption

theorem asStr_eq (ts : SlackTs) : ∃ secs micros, ts.asStr.toList = secs ++ '.' :: micros ∧
    Plain secs ∧ Plain micros := by
  have hdigits := ts.digits
  unfold isSlackTs at hdigits
  split at hdigits
  · rename_i lhs rhs hsplit
    simp only [Bool.and_eq_true, List.all_eq_true] at hdigits
    obtain ⟨⟨-, hlhs⟩, hrhs⟩ := hdigits
    have hdigit : ∀ {c : Char}, c.isDigit = true → c.isAlphanum ∨ c = '-' ∨ c = '_' := fun h =>
      .inl (by simp [Char.isAlphanum, h])
    refine ⟨lhs, rhs, ?_, fun c hc => hdigit (hlhs c hc), fun c hc => hdigit (hrhs c hc)⟩
    have hjoin : ['.'].intercalate (ts.asStr.toList.splitOn '.') = ts.asStr.toList :=
      List.intercalate_splitOn '.'
    rw [← hjoin, hsplit]
    simp
  · cases hdigits

theorem parse_asStr (ts : SlackTs) : parse ts.asStr.toList = some ts := by
  have hne : ts.asStr ≠ "" := fun h => by
    have := ts.digits
    rw [h] at this
    cases this
  rw [parse, String.ofList_toList, tryFrom, if_neg hne, dif_pos ts.bounded, dif_pos ts.digits]
  rfl

theorem not_colon (ts : SlackTs) : ':' ∉ ts.asStr.toList := by
  obtain ⟨secs, micros, heq, hsecs, hmicros⟩ := ts.asStr_eq
  rw [heq, List.mem_append, List.mem_cons]
  rintro (h | h | h)
  · exact hsecs.not_colon h
  · cases h
  · exact hmicros.not_colon h

end SlackTs

structure SlackLinkClaims where
  teamId : SlackTeamId
  slackUserId : SlackUserId
  responseUrl : String
  deriving DecidableEq

structure SlackConnectClaims where
  catalogId : McpCatalogId
  teamId : SlackTeamId
  channelId : SlackChannelId
  threadTs : SlackThreadTs
  slackUserId : SlackUserId
  threadId : ThreadId
  agentId : AgentId
  deriving DecidableEq

structure StateClaims where
  orgId : OrgId
  userId : UserId
  deriving DecidableEq

variable (crates : TokenCrates)

def linkFields (claims : SlackLinkClaims) (expSecs : Int64) : List (List Char) :=
  [teamIdText.field claims.teamId, userIdText.field claims.slackUserId,
    crates.encodeBase64 claims.responseUrl.toByteArray.data.toList, showInt expSecs.toInt]

def renderLink (claims : SlackLinkClaims) (expSecs : Int64) : List Char :=
  [':'].intercalate (linkFields crates claims expSecs)

def signLink (key : Key) (claims : SlackLinkClaims) (expSecs : Int64) : List Char :=
  sign (crates.mac key) ':' (renderLink crates claims expSecs)

def decodeResponseUrl (field : List Char) : Option String := do
  let bytes ← crates.decodeBase64 field
  String.fromUTF8? ⟨⟨bytes⟩⟩

def verifyLink (key : Key) (token : List Char) (nowSecs : Int64) : Option SlackLinkClaims := do
  let payload ← payloadOf (crates.mac key) ':' token
  match payload.splitOn ':' with
  | [teamRaw, userRaw, urlBase64, expRaw] => do
    let teamId ← teamIdText.parse teamRaw
    let slackUserId ← userIdText.parse userRaw
    let responseUrl ← decodeResponseUrl crates urlBase64
    let expSecs ← readI64 expRaw
    if expSecs < nowSecs then none else return ⟨teamId, slackUserId, responseUrl⟩
  | _ => none

def linkFamily : Family SlackLinkClaims := ⟨renderLink crates, signLink crates, verifyLink crates⟩

def connectFields (claims : SlackConnectClaims) (expSecs : Int64) : List (List Char) :=
  [catalogIdText.field claims.catalogId, teamIdText.field claims.teamId,
    channelIdText.field claims.channelId, claims.threadTs.asStr.toList,
    userIdText.field claims.slackUserId, claims.threadId.chars, claims.agentId.chars,
    showInt expSecs.toInt]

def renderConnect (claims : SlackConnectClaims) (expSecs : Int64) : List Char :=
  [':'].intercalate (connectFields claims expSecs)

def signConnect (key : Key) (claims : SlackConnectClaims) (expSecs : Int64) : List Char :=
  sign (crates.mac key) ':' (renderConnect claims expSecs)

def verifyConnect (key : Key) (token : List Char) (nowSecs : Int64) : Option SlackConnectClaims := do
  let payload ← payloadOf (crates.mac key) ':' token
  match payload.splitOn ':' with
  | [catalogRaw, teamRaw, channelRaw, threadRaw, userRaw, threadRawUuid, agentRaw, expRaw] => do
    let catalogId ← catalogIdText.parse catalogRaw
    let teamId ← teamIdText.parse teamRaw
    let channelId ← channelIdText.parse channelRaw
    let threadTs ← SlackTs.parse threadRaw
    let slackUserId ← userIdText.parse userRaw
    let threadId ← crates.parseUuid threadRawUuid
    let agentId ← crates.parseUuid agentRaw
    let expSecs ← readI64 expRaw
    if expSecs < nowSecs then none
    else return ⟨catalogId, teamId, channelId, threadTs, slackUserId, threadId, agentId⟩
  | _ => none

def connectFamily : Family SlackConnectClaims :=
  ⟨renderConnect, signConnect crates, verifyConnect crates⟩

def stateFields (claims : StateClaims) (expSecs : Int64) : List (List Char) :=
  [claims.orgId.chars, claims.userId.chars, showInt expSecs.toInt]

def renderState (claims : StateClaims) (expSecs : Int64) : List Char :=
  ['.'].intercalate (stateFields claims expSecs)

def signState (key : Key) (claims : StateClaims) (expSecs : Int64) : List Char :=
  sign (crates.mac key) '.' (renderState claims expSecs)

def verifyState (key : Key) (token : List Char) (nowSecs : Int64) : Option StateClaims := do
  let payload ← payloadOf (crates.mac key) '.' token
  match payload.splitOn '.' with
  | [orgRaw, userRaw, expRaw] => do
    let orgId ← crates.parseUuid orgRaw
    let userId ← crates.parseUuid userRaw
    let expSecs ← readI64 expRaw
    if expSecs < nowSecs then none else return ⟨orgId, userId⟩
  | _ => none

def stateFamily : Family StateClaims := ⟨renderState, signState crates, verifyState crates⟩

section Laws

variable {crates} (h : crates.Documented)
include h

theorem splitOn_renderLink (claims : SlackLinkClaims) (expSecs : Int64) :
    (renderLink crates claims expSecs).splitOn ':' = linkFields crates claims expSecs := by
  refine List.splitOn_intercalate ':' ?_ (List.cons_ne_nil _ _)
  simp only [linkFields, List.forall_mem_cons, List.not_mem_nil, false_imp_iff, implies_true,
    and_true]
  exact ⟨claims.teamId.plain.not_colon, claims.slackUserId.plain.not_colon,
    Plain.not_colon (h.alphabet _), (Plain.int _).not_colon⟩

theorem decodeResponseUrl_encode (url : String) :
    decodeResponseUrl crates (crates.encodeBase64 url.toByteArray.data.toList) = some url := by
  rw [decodeResponseUrl, h.decode_encode, Option.bind_eq_bind, Option.bind_some]
  exact dif_pos url.isValidUTF8

theorem sound_linkFamily : (linkFamily crates).Sound := by
  refine .of_verify_sign (sign (crates.mac []) ':') (fun _ _ => rfl) fun key claims exp now => ?_
  change verifyLink crates key (signLink crates key claims exp) now = _
  rw [verifyLink, signLink, payloadOf_sign rfl, Option.bind_eq_bind, Option.bind_some,
    splitOn_renderLink h, linkFields]
  simp only [IdText.parse_field, decodeResponseUrl_encode h, readI64_showInt, Option.bind_eq_bind,
    Option.bind_some, Option.pure_def]

omit h in
theorem splitOn_renderConnect (claims : SlackConnectClaims) (expSecs : Int64) :
    (renderConnect claims expSecs).splitOn ':' = connectFields claims expSecs := by
  refine List.splitOn_intercalate ':' ?_ (List.cons_ne_nil _ _)
  simp only [connectFields, List.forall_mem_cons, List.not_mem_nil, false_imp_iff, implies_true,
    and_true]
  exact ⟨claims.catalogId.plain.not_colon, claims.teamId.plain.not_colon,
    claims.channelId.plain.not_colon, claims.threadTs.not_colon,
    claims.slackUserId.plain.not_colon, (Plain.uuid _).not_colon, (Plain.uuid _).not_colon,
    (Plain.int _).not_colon⟩

theorem sound_connectFamily : (connectFamily crates).Sound := by
  refine .of_verify_sign (sign (crates.mac []) ':') (fun _ _ => rfl) fun key claims exp now => ?_
  change verifyConnect crates key (signConnect crates key claims exp) now = _
  rw [verifyConnect, signConnect, payloadOf_sign rfl, Option.bind_eq_bind, Option.bind_some,
    splitOn_renderConnect, connectFields]
  simp only [IdText.parse_field, SlackTs.parse_asStr, h.parse_display, readI64_showInt,
    Option.bind_eq_bind, Option.bind_some, Option.pure_def]

theorem verifyConnect_signLink (key : Key) (claims : SlackLinkClaims) (exp now : Int64) :
    verifyConnect crates key (signLink crates key claims exp) now = none := by
  rw [verifyConnect, signLink, payloadOf_sign rfl, Option.bind_eq_bind, Option.bind_some,
    splitOn_renderLink h, linkFields]

omit h in
theorem verifyLink_signConnect (key : Key) (claims : SlackConnectClaims) (exp now : Int64) :
    verifyLink crates key (signConnect crates key claims exp) now = none := by
  rw [verifyLink, signConnect, payloadOf_sign rfl, Option.bind_eq_bind, Option.bind_some,
    splitOn_renderConnect, connectFields]

theorem verifyState_signLink (key : Key) (claims : SlackLinkClaims) (exp now : Int64) :
    verifyState crates key (signLink crates key claims exp) now = none := by
  have hfields : ∀ field ∈ linkFields crates claims exp, '.' ∉ field := by
    simp only [linkFields, List.forall_mem_cons, List.not_mem_nil, false_imp_iff, implies_true,
      and_true]
    exact ⟨claims.teamId.plain.not_dot, claims.slackUserId.plain.not_dot,
      Plain.not_dot (h.alphabet _), (Plain.int _).not_dot⟩
  have hdot : '.' ∉ signLink crates key claims exp := by
    rw [signLink, sign, List.mem_append, List.mem_cons]
    rintro (hmem | hmem | hmem)
    · obtain heq | ⟨field, hfield, hmem⟩ := mem_intercalate hmem
      · cases heq
      · exact hfields field hfield hmem
    · cases hmem
    · exact (Plain.tag _).not_dot hmem
  rw [verifyState, payloadOf_of_not_mem hdot]
  rfl

omit h in
theorem verifyState_signConnect (key : Key) (claims : SlackConnectClaims) (exp now : Int64) :
    verifyState crates key (signConnect crates key claims exp) now = none := by
  obtain ⟨secs, micros, hts, -, hmicros⟩ := claims.threadTs.asStr_eq
  let rest := [micros, userIdText.field claims.slackUserId, claims.threadId.chars,
    claims.agentId.chars, showInt exp.toInt]
  have hrest : ∀ field ∈ rest, '.' ∉ field := by
    simp only [rest, List.forall_mem_cons, List.not_mem_nil, false_imp_iff, implies_true, and_true]
    exact ⟨hmicros.not_dot, claims.slackUserId.plain.not_dot, (Plain.uuid _).not_dot,
      (Plain.uuid _).not_dot, (Plain.int _).not_dot⟩
  have hrender : renderConnect claims exp
      = [':'].intercalate [catalogIdText.field claims.catalogId, teamIdText.field claims.teamId,
          channelIdText.field claims.channelId, secs] ++ '.' :: [':'].intercalate rest := by
    simp [renderConnect, connectFields, rest, hts]
  have hlong : ∀ tag, payloadOf (crates.mac key) '.' (renderConnect claims exp ++ ':' :: encode32 tag)
      = none := by
    intro tag
    rw [hrender, List.append_assoc, List.cons_append]
    refine payloadOf_of_long _ ?_ ?_
    · rw [List.mem_append, List.mem_cons]
      rintro (hmem | hmem | hmem)
      · obtain heq | ⟨field, hfield, hmem⟩ := mem_intercalate hmem
        · cases heq
        · exact hrest field hfield hmem
      · cases hmem
      · exact (Plain.tag tag).not_dot hmem
    · have := Char.utf8Size_pos ':'
      rw [byteLen_append, byteLen_cons, byteLen_encode32]
      omega
  rw [verifyState, signConnect, sign, hlong]
  rfl

omit h in
theorem not_colon_signState (key : Key) (claims : StateClaims) (exp : Int64) :
    ':' ∉ signState crates key claims exp := by
  have hfields : ∀ field ∈ stateFields claims exp, ':' ∉ field := by
    simp only [stateFields, List.forall_mem_cons, List.not_mem_nil, false_imp_iff, implies_true,
      and_true]
    exact ⟨(Plain.uuid _).not_colon, (Plain.uuid _).not_colon, (Plain.int _).not_colon⟩
  rw [signState, sign, List.mem_append, List.mem_cons]
  rintro (hmem | hmem | hmem)
  · obtain heq | ⟨field, hfield, hmem⟩ := mem_intercalate hmem
    · cases heq
    · exact hfields field hfield hmem
  · cases hmem
  · exact (Plain.tag _).not_colon hmem

omit h in
theorem verifyLink_signState (key : Key) (claims : StateClaims) (exp now : Int64) :
    verifyLink crates key (signState crates key claims exp) now = none := by
  rw [verifyLink, payloadOf_of_not_mem (not_colon_signState key claims exp)]
  rfl

omit h in
theorem verifyConnect_signState (key : Key) (claims : StateClaims) (exp now : Int64) :
    verifyConnect crates key (signState crates key claims exp) now = none := by
  rw [verifyConnect, payloadOf_of_not_mem (not_colon_signState key claims exp)]
  rfl

end Laws

end Patom.Slack
