import Patom.Foundation.Transition
import Patom.Foundation.Table
import Patom.Lark.Mention
import Patom.Runtime.Types

/-! What the bridge does with a message of a Lark chat, one transaction after the other. -/

open Patom.Foundation
open Patom.Runtime (IdempotencyKey)

namespace Patom.Lark

def CHANNEL_NAME_MAX_LEN : Nat := 63

abbrev LarkAppId := LarkId
abbrev LarkChatId := LarkId
abbrev LarkThreadId := LarkId
abbrev LarkMessageId := LarkId
abbrev LarkEventId := LarkId
abbrev ChannelId := Uuid

structure LarkApp where
  appId : LarkAppId
  orgId : OrgId
  agentId : AgentId
  deriving DecidableEq

def mentionsBot (tokens : List AtToken) (botOpenId : String) : Bool :=
  tokens.any fun t => t.openId = some botOpenId

structure InboundMessage where
  eventId : LarkEventId
  appId : LarkAppId
  tenantKey : TenantKey
  senderOpenId : LarkOpenId
  senderUserId : Option LarkUserId
  senderType : String
  chatId : LarkChatId
  chatType : String
  messageId : LarkMessageId
  rootId : Option LarkMessageId
  text : String
  mentions : List AtToken
  deriving DecidableEq

structure InboundWork where
  event : InboundMessage
  botOpenId : Option LarkOpenId
  deriving DecidableEq

structure BridgeDeps where
  apps : List LarkApp
  agentColleague : OrgId → AgentId → ColleagueId
  render : InboundWork → String

inductive LarkError
  | unknownApp (appId : LarkAppId)
  | parse (e : ParseError)
  | db (constraint : String)
  | internal (detail : String)
  deriving DecidableEq

structure ShadowUser where
  email : String
  userId : UserId
  orgId : OrgId
  deriving DecidableEq

structure Colleague where
  id : ColleagueId
  orgId : OrgId
  userId : UserId
  deriving DecidableEq

structure LarkUserHandle where
  orgId : OrgId
  tenantKey : TenantKey
  larkUserId : LarkUserId
  openId : LarkOpenId
  colleagueId : ColleagueId
  userId : UserId
  deriving DecidableEq

structure PatomChannel where
  id : ChannelId
  orgId : OrgId
  name : String
  deriving DecidableEq

structure LarkChannel where
  orgId : OrgId
  tenantKey : TenantKey
  chatId : LarkChatId
  channelId : ChannelId
  deriving DecidableEq

structure PatomThread where
  id : ThreadId
  orgId : OrgId
  channelId : ChannelId
  createdBy : ColleagueId
  deriving DecidableEq

structure LarkThread where
  orgId : OrgId
  appId : LarkAppId
  tenantKey : TenantKey
  chatId : LarkChatId
  larkThreadId : LarkThreadId
  patomThreadId : ThreadId
  deriving DecidableEq

structure FeedRow where
  orgId : OrgId
  idempotencyKey : IdempotencyKey
  id : ThreadMessageId
  threadId : ThreadId
  sender : ColleagueId
  receiver : Option ColleagueId
  body : String
  deriving DecidableEq

structure Participation where
  orgId : OrgId
  threadId : ThreadId
  agentId : AgentId
  id : AgentThreadId
  deriving DecidableEq

structure Trigger where
  orgId : OrgId
  idempotencyKey : IdempotencyKey
  id : Uuid
  actingUserId : UserId
  threadId : ThreadId
  stateId : AgentThreadId
  senderColleagueId : ColleagueId
  receiverAgentId : AgentId
  triggerMessageId : ThreadMessageId
  deriving DecidableEq

abbrev ThreadKey := TenantKey × LarkChatId × LarkThreadId

instance shadowUserKeyed : Keyed ShadowUser String := ⟨(·.email)⟩
instance colleagueKeyed : Keyed Colleague (OrgId × UserId) := ⟨fun r => (r.orgId, r.userId)⟩
instance larkUserHandleKeyed : Keyed LarkUserHandle (TenantKey × LarkUserId) :=
  ⟨fun r => (r.tenantKey, r.larkUserId)⟩
instance patomChannelKeyed : Keyed PatomChannel (OrgId × String) := ⟨fun r => (r.orgId, r.name)⟩
instance larkChannelKeyed : Keyed LarkChannel (OrgId × TenantKey × LarkChatId) :=
  ⟨fun r => (r.orgId, r.tenantKey, r.chatId)⟩
instance patomThreadKeyed : Keyed PatomThread ThreadId := ⟨(·.id)⟩
instance larkThreadKeyed : Keyed LarkThread ThreadKey :=
  ⟨fun r => (r.tenantKey, r.chatId, r.larkThreadId)⟩
instance feedRowKeyed : Keyed FeedRow (OrgId × IdempotencyKey) :=
  ⟨fun r => (r.orgId, r.idempotencyKey)⟩
instance participationKeyed : Keyed Participation (ThreadId × AgentId) :=
  ⟨fun r => (r.threadId, r.agentId)⟩
instance triggerKeyed : Keyed Trigger (OrgId × IdempotencyKey) :=
  ⟨fun r => (r.orgId, r.idempotencyKey)⟩

@[ext] structure BridgeSt where
  users : Table ShadowUser
  colleagues : Table Colleague
  handles : Table LarkUserHandle
  channels : Table PatomChannel
  larkChannels : Table LarkChannel
  threads : Table PatomThread
  bindings : Table LarkThread
  feed : Table FeedRow
  participations : Table Participation
  triggers : Table Trigger
  deriving DecidableEq

def BridgeSt.init : BridgeSt :=
  ⟨.empty, .empty, .empty, .empty, .empty, .empty, .empty, .empty, .empty, .empty⟩

structure Mint where
  user : UserId
  colleague : ColleagueId
  channel : ChannelId
  thread : ThreadId
  message : ThreadMessageId
  participation : AgentThreadId
  request : Uuid
  deriving DecidableEq

structure ShadowColleague where
  colleagueId : ColleagueId
  userId : UserId
  deriving DecidableEq

def syntheticEmail (user : LarkUserId) : String :=
  ("lark-" ++ user.asStr ++ "@shadow.invalid").toLower

def channelNameFor (chat : LarkChatId) : Except LarkError String :=
  let name := "lark-" ++ String.ofList (chat.asStr.toLower.toList.map fun c =>
    if c = '_' then '-' else c)
  if name.utf8ByteSize ≤ CHANNEL_NAME_MAX_LEN then .ok name
  else .error (.parse (.tooLong "channel_name" CHANNEL_NAME_MAX_LEN name.utf8ByteSize))

/-- `app_user_is_member`: what the row policies let a user see and write. -/
def BridgeSt.isMember (s : BridgeSt) (user : UserId) (org : OrgId) : Bool :=
  (s.colleagues.find? (org, user)).isSome

structure ChatMemberEvent where
  appId : LarkAppId
  tenantKey : TenantKey
  chatId : LarkChatId
  deriving DecidableEq

structure Member where
  user : LarkUserId
  openId : LarkOpenId
  mint : Mint
  deriving DecidableEq

/-- The events the bridge is handed, with what their handling draws and fetches. -/
inductive LarkEvent
  | message (work : InboundWork) (mint : Mint)
  | joined (ev : ChatMemberEvent) (members : List Member)
  | other
  deriving DecidableEq

section Transactions

variable (mint : Mint) (org : OrgId)

/-- A person is one handle of the tenant, whichever organisation minted it. -/
def resolveOrMint (tenant : TenantKey) (user : LarkUserId) (openId : LarkOpenId) (s : BridgeSt) :
    Except LarkError (ShadowColleague × BridgeSt) :=
  match s.handles.find? (tenant, user) with
  | some h => .ok (⟨h.colleagueId, h.userId⟩,
      { s with handles := s.handles.put { h with openId := openId } })
  | none =>
    if (s.users.find? (syntheticEmail user)).isSome then .error (.db "users_email_key")
    else .ok (⟨mint.colleague, mint.user⟩, { s with
      users := s.users.put ⟨syntheticEmail user, mint.user, org⟩
      colleagues := s.colleagues.put ⟨mint.colleague, org, mint.user⟩
      handles := s.handles.put ⟨org, tenant, user, openId, mint.colleague, mint.user⟩ })

def createChannelAndMapping (tenant : TenantKey) (chat : LarkChatId) (name : String)
    (s : BridgeSt) : ChannelId × BridgeSt :=
  let channels := s.channels.addNew ⟨mint.channel, org, name⟩
  let id := ((channels.find? (org, name)).map (·.id)).getD mint.channel
  (id, { s with channels, larkChannels := s.larkChannels.addNew ⟨org, tenant, chat, id⟩ })

def ensureChannel (tenant : TenantKey) (chat : LarkChatId) (s : BridgeSt) :
    Except LarkError (ChannelId × BridgeSt) := do
  let name ← channelNameFor chat
  match s.larkChannels.find? (org, tenant, chat) with
  | some c => pure (c.channelId, s)
  | none => pure (createChannelAndMapping mint org tenant chat name s)

def lookupByThread (k : ThreadKey) (s : BridgeSt) : Option ThreadId :=
  (s.bindings.find? k).map (·.patomThreadId)

def createThread (user : UserId) (channel : ChannelId) (creator : ColleagueId) (s : BridgeSt) :
    Except LarkError (ThreadId × BridgeSt) :=
  if s.isMember user org then
    match s.threads.insert? ⟨mint.thread, org, channel, creator⟩ with
    | some threads => .ok (mint.thread, { s with threads })
    | none => .error (.internal "create thread")
  else .error (.internal "create thread")

/-- `ON CONFLICT (tenant_key, chat_id, lark_thread_id) DO NOTHING`. -/
def bind (app : LarkAppId) (k : ThreadKey) (thread : ThreadId) (s : BridgeSt) : BridgeSt :=
  { s with bindings := s.bindings.addNew ⟨org, app, k.1, k.2.1, k.2.2, thread⟩ }

def visibleThread (user : UserId) (thread : ThreadId) (s : BridgeSt) : Option PatomThread :=
  (s.threads.find? thread).filter fun t => s.isMember user t.orgId

/-- The row is of the thread's organisation; the fallback looks in the caller's. -/
def append (user : UserId) (thread : ThreadId) (idem : IdempotencyKey) (sender : ColleagueId)
    (receiver : Option ColleagueId) (body : String) (s : BridgeSt) :
    Except LarkError (ThreadMessageId × BridgeSt) :=
  let existing : Except LarkError (ThreadMessageId × BridgeSt) :=
    match (s.feed.find? (org, idem)).filter fun _ => s.isMember user org with
    | some r => .ok (r.id, s)
    | none => .error (.internal "append")
  match visibleThread user thread s with
  | some t =>
    match s.feed.find? (t.orgId, idem) with
    | none => .ok (mint.message, { s with
        feed := s.feed.put ⟨t.orgId, idem, mint.message, thread, sender, receiver, body⟩ })
    | some _ => existing
  | none => existing

def resolveParticipation (user : UserId) (thread : ThreadId) (agent : AgentId) (s : BridgeSt) :
    Except LarkError (AgentThreadId × BridgeSt) :=
  match visibleThread user thread s with
  | none => .error (.internal "resolve participation")
  | some t =>
    match s.participations.find? (thread, agent) with
    | some p => .ok (p.id, s)
    | none => .ok (mint.participation, { s with
        participations := s.participations.put ⟨t.orgId, thread, agent, mint.participation⟩ })

def enqueueTrigger (user : UserId) (idem : IdempotencyKey) (thread : ThreadId)
    (state : AgentThreadId) (sender : ColleagueId) (agent : AgentId) (message : ThreadMessageId)
    (s : BridgeSt) : Except LarkError BridgeSt :=
  let row : Trigger := ⟨org, idem, mint.request, user, thread, state, sender, agent, message⟩
  if s.isMember user org then .ok { s with triggers := s.triggers.addNew row }
  else .error (.internal "no colleague mapped")

end Transactions

def threadAnchor (m : InboundMessage) : LarkThreadId := m.rootId.getD m.messageId

def messageIdempotencyKey (m : InboundMessage) : Except LarkError IdempotencyKey :=
  (IdempotencyKey.tryFrom ("lark:" ++ m.tenantKey.asStr ++ ":" ++ m.eventId.asStr)).mapError .parse

structure Job where
  work : InboundWork
  app : LarkApp
  user : LarkUserId
  mint : Mint
  deriving DecidableEq

def Job.key (j : Job) : ThreadKey :=
  (j.work.event.tenantKey, j.work.event.chatId, threadAnchor j.work.event)

def isTrigger (w : InboundWork) : Bool :=
  w.event.chatType = "p2p" || mentionsBot w.event.mentions (w.botOpenId.elim "" (·.asStr))

/-- The transaction that comes next. -/
inductive Pc
  | shadow
  | channel (shadow : ShadowColleague)
  | lookup (shadow : ShadowColleague) (channel : ChannelId)
  | create (shadow : ShadowColleague) (channel : ChannelId)
  | bind (shadow : ShadowColleague) (thread : ThreadId)
  | receiver (shadow : ShadowColleague) (thread : ThreadId)
  | append (shadow : ShadowColleague) (thread : ThreadId) (idem : IdempotencyKey)
      (receiver : Option ColleagueId)
  | participation (shadow : ShadowColleague) (thread : ThreadId) (idem : IdempotencyKey)
      (message : ThreadMessageId)
  | enqueue (shadow : ShadowColleague) (thread : ThreadId) (idem : IdempotencyKey)
      (message : ThreadMessageId) (state : AgentThreadId)
  | done
  | failed (e : LarkError)
  deriving DecidableEq

/-- A transaction that fails leaves no trace, and ends the handling. -/
def attempt {α : Type} (r : Except LarkError (α × BridgeSt)) (s : BridgeSt) (next : α → Pc) :
    Pc × BridgeSt :=
  match r with
  | .ok (a, s') => (next a, s')
  | .error e => (.failed e, s)

section Handler

variable (d : BridgeDeps)

def accept (w : InboundWork) (mint : Mint) : Except LarkError (Option Job) :=
  if w.event.senderType = "app" then .ok none
  else
    match d.apps.find? fun app => app.appId = w.event.appId with
    | none => .error (.unknownApp w.event.appId)
    | some app => .ok (w.event.senderUserId.map fun user => ⟨w, app, user, mint⟩)

/-- The next transaction of `handle_message`. -/
def advance (j : Job) (s : BridgeSt) : Pc → Pc × BridgeSt
  | .shadow =>
    attempt (resolveOrMint j.mint j.app.orgId j.work.event.tenantKey j.user
      j.work.event.senderOpenId s) s .channel
  | .channel shadow =>
    attempt (ensureChannel j.mint j.app.orgId j.work.event.tenantKey j.work.event.chatId s) s
      (.lookup shadow)
  | .lookup shadow channel =>
    match lookupByThread j.key s with
    | some thread => (.receiver shadow thread, s)
    | none => (.create shadow channel, s)
  | .create shadow channel =>
    attempt (createThread j.mint j.app.orgId shadow.userId channel shadow.colleagueId s) s
      (.bind shadow)
  | .bind shadow thread =>
    (.receiver shadow thread, Lark.bind j.app.orgId j.work.event.appId j.key thread s)
  | .receiver shadow thread =>
    match messageIdempotencyKey j.work.event with
    | .error e => (.failed e, s)
    | .ok idem =>
      let receiver :=
        if isTrigger j.work then some (d.agentColleague j.app.orgId j.app.agentId) else none
      (.append shadow thread idem receiver, s)
  | .append shadow thread idem receiver =>
    attempt (append j.mint j.app.orgId shadow.userId thread idem shadow.colleagueId receiver
      (d.render j.work) s) s fun message =>
        if isTrigger j.work then .participation shadow thread idem message else .done
  | .participation shadow thread idem message =>
    attempt (resolveParticipation j.mint shadow.userId thread j.app.agentId s) s
      (.enqueue shadow thread idem message)
  | .enqueue shadow thread idem message state =>
    attempt ((enqueueTrigger j.mint j.app.orgId shadow.userId idem thread state
      shadow.colleagueId j.app.agentId message s).map ((), ·)) s fun _ => .done
  | .done => (.done, s)
  | .failed e => (.failed e, s)

def advances (j : Job) : Nat → Pc × BridgeSt → Pc × BridgeSt
  | 0, p => p
  | n + 1, p => advances j n (advance d j p.2 p.1)

def TRANSACTIONS : Nat := 9

def handleMessage (w : InboundWork) (mint : Mint) (s : BridgeSt) : BridgeSt :=
  match accept d w mint with
  | .ok (some j) => (advances d j TRANSACTIONS (.shadow, s)).2
  | .ok none | .error _ => s

/-- The members of the chat, read from Lark; one that fails ends the sync. -/
def syncMembers (org : OrgId) (ev : ChatMemberEvent) : List Member → BridgeSt → BridgeSt
  | [], s => s
  | m :: ms, s =>
    match resolveOrMint m.mint org ev.tenantKey m.user m.openId s with
    | .error _ => s
    | .ok (_, s₁) =>
      match ensureChannel m.mint org ev.tenantKey ev.chatId s₁ with
      | .error _ => s₁
      | .ok (_, s₂) => syncMembers org ev ms s₂

def syncOnJoin (ev : ChatMemberEvent) (members : List Member) (s : BridgeSt) : BridgeSt :=
  match d.apps.find? fun app => app.appId = ev.appId with
  | none => s
  | some app => syncMembers app.orgId ev members s

def processEvent : LarkEvent → BridgeSt → BridgeSt
  | .message w mint, s => handleMessage d w mint s
  | .joined ev members, s => syncOnJoin d ev members s
  | .other, s => s

end Handler

end Patom.Lark
