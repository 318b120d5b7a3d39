import Patom.Foundation.Table
import Patom.Foundation.Transition
import Patom.Runtime.Types
import Patom.Text

open Patom.Runtime (IdempotencyKey)
open Patom.Foundation

namespace Patom.Slack

def SLACK_ID_MAX_LEN : Nat := 32
def SLACK_TS_MAX_LEN : Nat := 32
def CHANNEL_NAME_MAX_LEN : Nat := 63
def PROMPT_MAX_BYTES : Nat := 64 * 1024

abbrev ChannelId := Uuid

@[ext] structure SlackId where
  asStr : String
  nonempty : asStr ≠ ""
  bounded : asStr.utf8ByteSize ≤ SLACK_ID_MAX_LEN
  chars : asStr.toList.all fun c => c.isAlphanum || c = '-' || c = '_'

instance slackIdDecidableEq : DecidableEq SlackId := fun _ _ =>
  decidable_of_iff _ SlackId.ext_iff.symm

abbrev SlackTeamId := SlackId
abbrev SlackChannelId := SlackId
abbrev SlackUserId := SlackId

def isSlackTs (raw : List Char) : Bool :=
  match raw.splitOn '.' with
  | [lhs, rhs] => !lhs.isEmpty && !rhs.isEmpty && lhs.all Char.isDigit && rhs.all Char.isDigit
  | _ => false

@[ext] structure SlackTs where
  asStr : String
  bounded : asStr.utf8ByteSize ≤ SLACK_TS_MAX_LEN
  digits : isSlackTs asStr.toList = true

instance slackTsDecidableEq : DecidableEq SlackTs := fun _ _ =>
  decidable_of_iff _ SlackTs.ext_iff.symm

abbrev SlackThreadTs := SlackTs

@[ext] structure Prompt where
  asStr : String
  nonempty : trim asStr.toList ≠ []
  bounded : asStr.utf8ByteSize ≤ PROMPT_MAX_BYTES

instance promptDecidableEq : DecidableEq Prompt := fun _ _ =>
  decidable_of_iff _ Prompt.ext_iff.symm

def Prompt.tryFrom (raw : String) : Except ParseError Prompt :=
  if h : trim raw.toList = [] then .error (.empty "prompt")
  else if h' : raw.utf8ByteSize ≤ PROMPT_MAX_BYTES then .ok ⟨raw, h, h'⟩
  else .error (.tooLong "prompt" PROMPT_MAX_BYTES raw.utf8ByteSize)

/-- A slug of `[a-z0-9-]`; `slack-` and an id are never too long. -/
def channelNameFor (channel : SlackChannelId) : Except ParseError String :=
  let name := "slack-" ++ channel.asStr.toLower
  if name.toList.all fun c => c.isLower || c.isDigit || c = '-' then .ok name
  else .error (.malformed "channel_name" "only [a-z0-9-] after the first char")

inductive InboundSource
  | appMention
  | threadMessage
  deriving DecidableEq

structure InboundEvent where
  teamId : SlackTeamId
  channelId : SlackChannelId
  userId : SlackUserId
  text : String
  threadTs : Option SlackThreadTs
  eventTs : SlackTs
  source : InboundSource
  deriving DecidableEq

structure SlashCommandSubmit where
  teamId : SlackTeamId
  channelId : SlackChannelId
  slackUserId : SlackUserId
  agentId : AgentId
  prompt : Prompt
  viewId : String
  threadTs : Option SlackThreadTs
  deriving DecidableEq

inductive SlackError
  | workspaceNotFound (team : SlackTeamId)
  | identityNotLinked (user : SlackUserId)
  | agentNotFound (agent : AgentId)
  | parse (e : ParseError)
  | internal (detail : String)
  deriving DecidableEq

structure SlackWorkspace where
  teamId : SlackTeamId
  orgId : OrgId
  botUserId : SlackUserId
  deriving DecidableEq

structure MentionParse where
  agentName : Option String
  stripped : String

/-- What the bridge reads of directories that it never writes. -/
structure BridgeDeps where
  readByTeam : SlackTeamId → Option SlackWorkspace
  lookupIdentity : SlackTeamId → SlackUserId → Option UserId
  resolveUser : OrgId → UserId → Option ColleagueId
  resolveAgent : OrgId → AgentId → Option ColleagueId
  /-- The organisation of an agent. -/
  readAgent : AgentId → Option OrgId
  readByNameForOrg : OrgId → String → Option AgentId
  parseMention : String → SlackUserId → MentionParse

/-! What the bridge does with a Slack message or slash submit, one transaction after the other. -/

def RECRUITER_AGENT_NAME : String := "Recruiter"

structure PatomChannel where
  id : ChannelId
  orgId : OrgId
  name : String
  deriving DecidableEq

structure SlackChannel where
  orgId : OrgId
  teamId : SlackTeamId
  slackChannelId : SlackChannelId
  channelId : ChannelId
  deriving DecidableEq

structure PatomThread where
  id : ThreadId
  orgId : OrgId
  channelId : ChannelId
  createdBy : ColleagueId
  deriving DecidableEq

structure SlackThread where
  orgId : OrgId
  teamId : SlackTeamId
  channelId : SlackChannelId
  threadTs : SlackThreadTs
  threadId : ThreadId
  deriving DecidableEq

/-- A posted row; the bridge gives it no idempotency key. -/
structure FeedRow where
  id : ThreadMessageId
  threadId : ThreadId
  sender : ColleagueId
  receiver : ColleagueId
  body : Prompt
  deriving DecidableEq

structure Participation where
  threadId : ThreadId
  agentId : AgentId
  id : AgentThreadId
  deriving DecidableEq

structure Trigger where
  orgId : OrgId
  idempotencyKey : IdempotencyKey
  id : Uuid
  actingUserId : UserId
  threadId : ThreadId
  stateId : AgentThreadId
  senderColleagueId : ColleagueId
  receiverAgentId : AgentId
  triggerMessageId : ThreadMessageId
  deriving DecidableEq

abbrev ThreadKey := SlackTeamId × SlackChannelId × SlackThreadTs

instance patomChannelKeyed : Keyed PatomChannel (OrgId × String) := ⟨fun r => (r.orgId, r.name)⟩
instance slackChannelKeyed : Keyed SlackChannel (OrgId × SlackTeamId × SlackChannelId) :=
  ⟨fun r => (r.orgId, r.teamId, r.slackChannelId)⟩
instance patomThreadKeyed : Keyed PatomThread ThreadId := ⟨(·.id)⟩
instance slackThreadKeyed : Keyed SlackThread ThreadKey :=
  ⟨fun r => (r.teamId, r.channelId, r.threadTs)⟩
instance feedRowKeyed : Keyed FeedRow ThreadMessageId := ⟨(·.id)⟩
instance participationKeyed : Keyed Participation (ThreadId × AgentId) :=
  ⟨fun r => (r.threadId, r.agentId)⟩
instance triggerKeyed : Keyed Trigger (OrgId × IdempotencyKey) :=
  ⟨fun r => (r.orgId, r.idempotencyKey)⟩

@[ext] structure Db where
  channels : Table PatomChannel
  slackChannels : Table SlackChannel
  threads : Table PatomThread
  bindings : Table SlackThread
  feed : Table FeedRow
  participations : Table Participation
  triggers : Table Trigger
  deriving DecidableEq

def Db.init : Db := ⟨.empty, .empty, .empty, .empty, .empty, .empty, .empty⟩

inductive Delivery
  | event (e : InboundEvent)
  | slash (s : SlashCommandSubmit)
  deriving DecidableEq

/-- The identifiers that one attempt draws, and the `ts` that Slack gives its mirror post. -/
structure Mint where
  channel : ChannelId
  thread : ThreadId
  message : ThreadMessageId
  participation : AgentThreadId
  request : Uuid
  mirror : SlackThreadTs
  deriving DecidableEq

structure Caller where
  workspace : SlackWorkspace
  userId : UserId
  deriving DecidableEq

structure Who where
  caller : Caller
  colleague : ColleagueId
  deriving DecidableEq

def Who.orgId (w : Who) : OrgId := w.caller.workspace.orgId

def Delivery.teamId : Delivery → SlackTeamId
  | .event e => e.teamId
  | .slash s => s.teamId

def Delivery.channelId : Delivery → SlackChannelId
  | .event e => e.channelId
  | .slash s => s.channelId

/-- The Slack thread of an attempt; a slash submit outside of one starts one with its mirror. -/
def Delivery.anchor (m : Mint) : Delivery → SlackThreadTs
  | .event e => e.threadTs.getD e.eventTs
  | .slash s => s.threadTs.getD m.mirror

def Delivery.threadKey (m : Mint) (x : Delivery) : ThreadKey := (x.teamId, x.channelId, x.anchor m)

def Delivery.idempotencyKey : Delivery → Except ParseError IdempotencyKey
  | .event e => IdempotencyKey.tryFrom
    ("slack:" ++ e.teamId.asStr ++ ":" ++ e.channelId.asStr ++ ":" ++ e.eventTs.asStr)
  | .slash s => IdempotencyKey.tryFrom
    ("slack-slash:" ++ s.teamId.asStr ++ ":" ++ s.channelId.asStr ++ ":" ++ s.viewId)

section Tables

variable (m : Mint)

def ensureChannel (org : OrgId) (team : SlackTeamId) (channel : SlackChannelId) (db : Db) :
    Except SlackError (ChannelId × Db) :=
  match channelNameFor channel with
  | .error e => .error (.parse e)
  | .ok name =>
    match db.slackChannels.find? (org, team, channel) with
    | some c => .ok (c.channelId, db)
    | none =>
      let channels := db.channels.addNew ⟨m.channel, org, name⟩
      let id := ((channels.find? (org, name)).map (·.id)).getD m.channel
      .ok (id, { db with
        channels
        slackChannels := db.slackChannels.addNew ⟨org, team, channel, id⟩ })

def lookupByThread (k : ThreadKey) (db : Db) : Option ThreadId :=
  (db.bindings.find? k).map (·.threadId)

def lastAgent (thread : ThreadId) (db : Db) : Option AgentId :=
  ((db.participations.rows.filter fun p => p.threadId = thread).getLast?).map (·.agentId)

/-- `ON CONFLICT (team_id, channel_id, thread_ts) DO NOTHING`. -/
def bind (org : OrgId) (k : ThreadKey) (thread : ThreadId) (db : Db) : Db :=
  { db with bindings := db.bindings.addNew ⟨org, k.1, k.2.1, k.2.2, thread⟩ }

def triggerExists (org : OrgId) (k : IdempotencyKey) (db : Db) : Bool :=
  (db.triggers.find? (org, k)).isSome

def resolveParticipation (thread : ThreadId) (agent : AgentId) (db : Db) : AgentThreadId × Db :=
  match db.participations.find? (thread, agent) with
  | some p => (p.id, db)
  | none => (m.participation, { db with
      participations := db.participations.put ⟨thread, agent, m.participation⟩ })

end Tables

section Attempt

variable (d : BridgeDeps)

def resolveMentionOrRecruiter (c : Caller) (e : InboundEvent) : Except SlackError AgentId :=
  let name := (d.parseMention e.text c.workspace.botUserId).agentName
  match name.bind (d.readByNameForOrg c.workspace.orgId) with
  | some agent => .ok agent
  | none =>
    match d.readByNameForOrg c.workspace.orgId RECRUITER_AGENT_NAME with
    | some agent => .ok agent
    | none => .error (.internal "recruiter")

def submission (c : Caller) (x : Delivery) : Except SlackError (IdempotencyKey × Prompt) :=
  match x.idempotencyKey with
  | .error e => .error (.parse e)
  | .ok k =>
    match x with
    | .slash s => .ok (k, s.prompt)
    | .event e =>
      match Prompt.tryFrom (d.parseMention e.text c.workspace.botUserId).stripped with
      | .error e => .error (.parse e)
      | .ok prompt => .ok (k, prompt)

inductive Pc
  | entry
  | channel (caller : Caller)
  | lookup (caller : Caller) (channel : ChannelId)
  | lastAgent (who : Who) (thread : ThreadId)
  | create (who : Who) (agent : AgentId) (channel : ChannelId)
  | bind (who : Who) (agent : AgentId) (thread : ThreadId)
  | check (who : Who) (agent : AgentId) (thread : ThreadId)
  | append (who : Who) (agent : AgentId) (thread : ThreadId) (key : IdempotencyKey)
      (prompt : Prompt)
  | participation (who : Who) (agent : AgentId) (thread : ThreadId) (key : IdempotencyKey)
  | enqueue (who : Who) (agent : AgentId) (thread : ThreadId) (key : IdempotencyKey)
      (state : AgentThreadId)
  | done
  | failed (e : SlackError)
  deriving DecidableEq

/-- `process_event` and `enqueue_from_slash` up to the channel. -/
def enter (db : Db) : Delivery → Pc
  | .event e =>
    match d.readByTeam e.teamId with
    | none => .failed (.workspaceNotFound e.teamId)
    | some w =>
      if w.botUserId = e.userId then .done
      else
        match d.lookupIdentity e.teamId e.userId with
        | none => .done
        | some user => .channel ⟨w, user⟩
  | .slash s =>
    match d.readByTeam s.teamId with
    | none => .failed (.workspaceNotFound s.teamId)
    | some w =>
      match d.lookupIdentity s.teamId s.slackUserId with
      | none => .failed (.identityNotLinked s.slackUserId)
      | some user =>
        if d.readAgent s.agentId ≠ some w.orgId then .failed (.agentNotFound s.agentId)
        else
          match (Delivery.slash s).idempotencyKey with
          | .error e => .failed (.parse e)
          | .ok k =>
            if triggerExists w.orgId k db then .done
            else if (d.resolveUser w.orgId user).isNone then
              .failed (.internal "resolve human colleague")
            else .channel ⟨w, user⟩

/-- What follows the channel: a slash submit outside of a thread posts its mirror, whose `ts` no
thread is bound to; the others look their thread up. -/
def located (c : Caller) (channel : ChannelId) : Delivery → Pc
  | .event _ => .lookup c channel
  | .slash s =>
    match s.threadTs, d.resolveUser c.workspace.orgId c.userId with
    | some _, _ => .lookup c channel
    | none, some colleague => .create ⟨c, colleague⟩ s.agentId channel
    | none, none => .failed (.internal "resolve human colleague")

def routed (w : Who) (channel : ChannelId) (found : Option ThreadId) : Delivery → Pc
  | .slash s =>
    match found with
    | some thread => .check w s.agentId thread
    | none => .create w s.agentId channel
  | .event e =>
    match e.source, found with
    | .threadMessage, some thread => .lastAgent w thread
    | .threadMessage, none => .done
    | .appMention, found =>
      match resolveMentionOrRecruiter d w.caller e, found with
      | .error err, _ => .failed err
      | .ok agent, some thread => .check w agent thread
      | .ok agent, none => .create w agent channel

def advance (x : Delivery) (m : Mint) (db : Db) : Pc → Pc × Db
  | .entry => (enter d db x, db)
  | .channel c =>
    match ensureChannel m c.workspace.orgId x.teamId x.channelId db with
    | .error e => (.failed e, db)
    | .ok (channel, db') => (located d c channel x, db')
  | .lookup c channel =>
    match d.resolveUser c.workspace.orgId c.userId with
    | none => (.failed (.internal "resolve human colleague"), db)
    | some colleague =>
      (routed d ⟨c, colleague⟩ channel (lookupByThread (x.threadKey m) db) x, db)
  | .lastAgent w thread =>
    match lastAgent thread db with
    | none => (.failed (.internal "bound slack thread has no agent participant"), db)
    | some agent => (.check w agent thread, db)
  | .create w agent channel =>
    match db.threads.insert? ⟨m.thread, w.orgId, channel, w.colleague⟩ with
    | none => (.failed (.internal "create thread"), db)
    | some threads => (.bind w agent m.thread, { db with threads })
  | .bind w agent thread =>
    (.check w agent thread, Slack.bind w.orgId (x.threadKey m) thread db)
  | .check w agent thread =>
    match submission d w.caller x with
    | .error e => (.failed e, db)
    | .ok (k, prompt) =>
      if triggerExists w.orgId k db then (.done, db) else (.append w agent thread k prompt, db)
  | .append w agent thread k prompt =>
    match d.resolveAgent w.orgId agent with
    | none => (.failed (.internal "resolve agent colleague"), db)
    | some receiver =>
      match db.feed.insert? ⟨m.message, thread, w.colleague, receiver, prompt⟩ with
      | none => (.failed (.internal "append"), db)
      | some feed => (.participation w agent thread k, { db with feed })
  | .participation w agent thread k =>
    let (state, db') := resolveParticipation m thread agent db
    (.enqueue w agent thread k state, db')
  | .enqueue w agent thread k state =>
    let row : Trigger :=
      ⟨w.orgId, k, m.request, w.caller.userId, thread, state, w.colleague, agent, m.message⟩
    (.done, { db with triggers := db.triggers.addNew row })
  | .done => (.done, db)
  | .failed e => (.failed e, db)

def advances (x : Delivery) (m : Mint) : Nat → Pc × Db → Pc × Db
  | 0, p => p
  | n + 1, p => advances x m n (advance d x m p.2 p.1)

def STEPS : Nat := 9

def handleOnce (x : Delivery) (m : Mint) (db : Db) : Db := (advances d x m STEPS (.entry, db)).2

end Attempt

end Patom.Slack
