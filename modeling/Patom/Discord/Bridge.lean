import Patom.Discord.Connection
import Patom.Foundation.Steady
import Patom.Runtime.Types

/-! What the bridge does with a message of the gateway.  A refusal by a constraint of the database
is one of the faults of the transaction it refuses. -/

open Patom.Foundation
open Patom.Foundation.Attempt (eachFrom exec recover)
open Patom.Runtime (IdempotencyKey)

namespace Patom.Discord

def DISCORD_BACKFILL_PAGE_SIZE : Nat := 100
def DISCORD_BACKFILL_MAX_MESSAGES : Nat := 1000
def DISCORD_BACKFILL_MAX_PAGES : Nat := 16

abbrev ContainerId := DiscordUserId
abbrev GuildId := DiscordUserId
abbrev DiscordMessageId := DiscordUserId

abbrev ChannelId := Uuid

structure Author where
  id : DiscordUserId
  bot : Bool
  deriving DecidableEq

structure InboundMessage where
  messageId : DiscordMessageId
  channelId : ContainerId
  guildId : Option GuildId
  author : Author
  content : String
  mentions : List Author
  webhookId : Option String
  deriving DecidableEq

structure DiscordApp where
  orgId : OrgId
  applicationId : ApplicationId
  agentId : AgentId

/-- Why a thread did not open: the status Discord refused with, or anything else. -/
inductive OpenFailure
  | postFailed (status : Nat)
  | other

def isPermanentOpenFailure : OpenFailure → Bool
  | .postFailed status => 400 ≤ status && status < 500
  | .other => false

inductive Minted
  | user
  | colleague
  | channel
  | thread
  | message
  | participation
  | request

/-- `page` is what the interface returns of a container's history before a message, newest first; an
entry that does not parse is `none`.  `opens` is the answer to the first request for a thread on a
message, a channel of its own, `refuses` the answer to the next once it has opened, and `mint kind n`
the `n`-th identifier of a kind. -/
structure BridgeDeps where
  app : DiscordApp
  botUserId : DiscordUserId
  agentColleague : ColleagueId
  page : ContainerId → DiscordMessageId → Nat → List (Option InboundMessage)
  opens : ContainerId → DiscordMessageId → Except OpenFailure ContainerId
  opens_new : ∀ container message, opens container message ≠ .ok container
  refuses : ContainerId → DiscordMessageId → OpenFailure
  render : InboundMessage → String
  mint : Minted → Nat → Uuid

structure ShadowColleague where
  orgId : OrgId
  discordUserId : DiscordUserId
  colleagueId : ColleagueId
  userId : UserId
  deriving DecidableEq

structure PatomChannel where
  id : ChannelId
  orgId : OrgId
  name : String
  deriving DecidableEq

structure DiscordChannel where
  orgId : OrgId
  guildId : GuildId
  discordChannelId : ContainerId
  channelId : ChannelId
  deriving DecidableEq

structure ChannelMember where
  channelId : ChannelId
  userId : UserId
  deriving DecidableEq

structure ChannelAgentMember where
  channelId : ChannelId
  colleagueId : ColleagueId
  deriving DecidableEq

structure PatomThread where
  id : ThreadId
  orgId : OrgId
  channelId : ChannelId
  createdBy : ColleagueId
  deriving DecidableEq

structure DiscordThread where
  orgId : OrgId
  applicationId : ApplicationId
  guildId : GuildId
  containerId : ContainerId
  parentId : Option ContainerId
  isThread : Bool
  patomThreadId : ThreadId
  backfillComplete : Bool
  deriving DecidableEq

structure FeedRow where
  orgId : OrgId
  idempotencyKey : IdempotencyKey
  id : ThreadMessageId
  threadId : ThreadId
  sender : ColleagueId
  receiver : Option ColleagueId
  body : String
  deriving DecidableEq

structure Participation where
  threadId : ThreadId
  agentId : AgentId
  id : AgentThreadId
  deriving DecidableEq

structure Trigger where
  orgId : OrgId
  idempotencyKey : IdempotencyKey
  id : Uuid
  actingUserId : UserId
  threadId : ThreadId
  stateId : AgentThreadId
  senderColleagueId : ColleagueId
  receiverAgentId : AgentId
  triggerMessageId : ThreadMessageId
  deriving DecidableEq

abbrev ThreadKey := OrgId × ApplicationId × GuildId × ContainerId

instance shadowKeyed : Keyed ShadowColleague (OrgId × DiscordUserId) :=
  ⟨fun r => (r.orgId, r.discordUserId)⟩
instance patomChannelKeyed : Keyed PatomChannel (OrgId × String) := ⟨fun r => (r.orgId, r.name)⟩
instance discordChannelKeyed : Keyed DiscordChannel (OrgId × GuildId × ContainerId) :=
  ⟨fun r => (r.orgId, r.guildId, r.discordChannelId)⟩
instance channelMemberKeyed : Keyed ChannelMember (ChannelId × UserId) :=
  ⟨fun r => (r.channelId, r.userId)⟩
instance channelAgentMemberKeyed : Keyed ChannelAgentMember (ChannelId × ColleagueId) :=
  ⟨fun r => (r.channelId, r.colleagueId)⟩
instance discordThreadKeyed : Keyed DiscordThread ThreadKey :=
  ⟨fun r => (r.orgId, r.applicationId, r.guildId, r.containerId)⟩
instance feedRowKeyed : Keyed FeedRow (OrgId × IdempotencyKey) :=
  ⟨fun r => (r.orgId, r.idempotencyKey)⟩
instance participationKeyed : Keyed Participation (ThreadId × AgentId) :=
  ⟨fun r => (r.threadId, r.agentId)⟩
instance triggerKeyed : Keyed Trigger (OrgId × IdempotencyKey) :=
  ⟨fun r => (r.orgId, r.idempotencyKey)⟩

/-- `opened` are the messages of Discord that the bot has had a thread opened on. -/
@[ext] structure BridgeSt where
  shadows : Table ShadowColleague
  channels : Table PatomChannel
  discordChannels : Table DiscordChannel
  members : Table ChannelMember
  agentMembers : Table ChannelAgentMember
  threads : List PatomThread
  bindings : Table DiscordThread
  feed : Table FeedRow
  participations : Table Participation
  triggers : Table Trigger
  opened : List (ContainerId × DiscordMessageId)
  deriving DecidableEq

def BridgeSt.init : BridgeSt :=
  ⟨.empty, .empty, .empty, .empty, .empty, [], .empty, .empty, .empty, .empty, []⟩

inductive Site
  | shadow
  | lookup
  | openThread
  | receiver
  | channel
  | agent
  | member
  | resolve
  | create
  | bind
  | markOpened
  | fetch (i : Nat)
  | rowShadow (i : Nat)
  | rowChannel (i : Nat)
  | row (i : Nat)
  | mark
  | append
  | participation
  | enqueue

def Site.inBackfill : Site → Bool
  | .fetch _ | .rowShadow _ | .rowChannel _ | .row _ | .mark => true
  | _ => false

abbrev Bridge := Foundation.Attempt Site BridgeSt

def InboundMessage.mentionsBot (m : InboundMessage) (bot : DiscordUserId) : Bool :=
  m.mentions.any (·.id = bot) ||
    decide (("<@" ++ bot.asStr ++ ">").toList <:+: m.content.toList) ||
    decide (("<@!" ++ bot.asStr ++ ">").toList <:+: m.content.toList)

theorem messageKey_bounded (app guild message : DiscordUserId) :
    ("discord:" ++ app.asStr ++ ":" ++ guild.asStr ++ ":" ++ message.asStr).utf8ByteSize ≤
      Runtime.MAX_IDEMPOTENCY_KEY_BYTES := by
  have happ := app.bounded
  have hguild := guild.bounded
  have hmessage := message.bounded
  have hlit : "discord:".utf8ByteSize = 8 ∧ ":".utf8ByteSize = 1 := by decide
  simp only [String.utf8ByteSize_append, hlit, Runtime.MAX_IDEMPOTENCY_KEY_BYTES,
    DISCORD_SNOWFLAKE_MAX_LEN] at *
  omega

theorem messageKey_nonempty (app guild message : DiscordUserId) :
    "discord:" ++ app.asStr ++ ":" ++ guild.asStr ++ ":" ++ message.asStr ≠ "" := by
  intro h
  have hlit : "discord:".utf8ByteSize = 8 := by decide
  have hsize := congrArg String.utf8ByteSize h
  simp only [String.utf8ByteSize_append, hlit, String.utf8ByteSize_empty] at hsize
  omega

def messageIdempotencyKey (app : DiscordApp) (guild : GuildId) (message : DiscordMessageId) :
    IdempotencyKey where
  asStr := "discord:" ++ app.applicationId.asStr ++ ":" ++ guild.asStr ++ ":" ++ message.asStr
  nonempty := messageKey_nonempty _ _ _
  bounded := messageKey_bounded _ _ _

structure Conversation where
  container : ContainerId
  parent : Option ContainerId
  isThread : Bool

section Transactions

variable (d : BridgeDeps)

def resolveOrMint (user : DiscordUserId) (s : BridgeSt) : ShadowColleague × BridgeSt :=
  let n := s.shadows.rows.length
  let r := s.shadows.getOrAdd ⟨d.app.orgId, user, d.mint .colleague n, d.mint .user n⟩
  (r.1, { s with shadows := r.2 })

def channelNameFor (container : ContainerId) : String := "discord-" ++ container.asStr

def createChannelAndMapping (guild : GuildId) (container : ContainerId) (s : BridgeSt) :
    ChannelId × BridgeSt :=
  let r := s.channels.getOrAdd
    ⟨d.mint .channel s.channels.rows.length, d.app.orgId, channelNameFor container⟩
  (r.1.id, { s with
    channels := r.2
    discordChannels := s.discordChannels.addNew ⟨d.app.orgId, guild, container, r.1.id⟩ })

def ensureChannel (guild : GuildId) (container : ContainerId) (user : UserId) (s : BridgeSt) :
    ChannelId × BridgeSt :=
  let r := match s.discordChannels.find? (d.app.orgId, guild, container) with
    | some c => (c.channelId, s)
    | none => createChannelAndMapping d guild container s
  (r.1, { r.2 with members := r.2.members.addNew ⟨r.1, user⟩ })

def addAgentToChannel (channel : ChannelId) (colleague : ColleagueId) (s : BridgeSt) :
    Unit × BridgeSt :=
  ((), { s with agentMembers := s.agentMembers.addNew ⟨channel, colleague⟩ })

def threadKey (guild : GuildId) (container : ContainerId) : ThreadKey :=
  (d.app.orgId, d.app.applicationId, guild, container)

def lookupByContainer (guild : GuildId) (container : ContainerId) (s : BridgeSt) :
    Option DiscordThread :=
  s.bindings.find? (threadKey d guild container)

def createThread (channel : ChannelId) (creator : ColleagueId) (s : BridgeSt) :
    ThreadId × BridgeSt :=
  let id := d.mint .thread s.threads.length
  (id, { s with threads := s.threads ++ [⟨id, d.app.orgId, channel, creator⟩] })

def bindThread (guild : GuildId) (conv : Conversation) (thread : ThreadId) (s : BridgeSt) :
    Unit × BridgeSt :=
  ((), { s with bindings := s.bindings.addNew ⟨d.app.orgId, d.app.applicationId, guild,
    conv.container, conv.parent, conv.isThread, thread, false⟩ })

def completed (k : ThreadKey) (b : DiscordThread) : DiscordThread :=
  if key b = k then { b with backfillComplete := true } else b

theorem completed_key (k : ThreadKey) (b : DiscordThread) : key (completed k b) = key b := by
  unfold completed
  split <;> rfl

def markBackfilled (guild : GuildId) (container : ContainerId) (s : BridgeSt) : Unit × BridgeSt :=
  let k := threadKey d guild container
  ((), { s with bindings := s.bindings.modify (completed k) (completed_key k) })

def appendMirrored (guild : GuildId) (thread : ThreadId) (sender : ColleagueId)
    (receiver : Option ColleagueId) (m : InboundMessage) (s : BridgeSt) :
    ThreadMessageId × BridgeSt :=
  let r := s.feed.getOrAdd ⟨d.app.orgId, messageIdempotencyKey d.app guild m.messageId,
    d.mint .message s.feed.rows.length, thread, sender, receiver, d.render m⟩
  (r.1.id, { s with feed := r.2 })

def resolveParticipation (thread : ThreadId) (s : BridgeSt) : AgentThreadId × BridgeSt :=
  let r := s.participations.getOrAdd
    ⟨thread, d.app.agentId, d.mint .participation s.participations.rows.length⟩
  (r.1.id, { s with participations := r.2 })

def enqueueTrigger (guild : GuildId) (m : InboundMessage) (user : UserId) (thread : ThreadId)
    (state : AgentThreadId) (sender : ColleagueId) (message : ThreadMessageId) (s : BridgeSt) :
    Uuid × BridgeSt :=
  let r := s.triggers.getOrAdd ⟨d.app.orgId, messageIdempotencyKey d.app guild m.messageId,
    d.mint .request s.triggers.rows.length, user, thread, state, sender, d.app.agentId, message⟩
  (r.1.id, { s with triggers := r.2 })

def askDiscord (container : ContainerId) (message : DiscordMessageId) (s : BridgeSt) :
    Except OpenFailure ContainerId × BridgeSt :=
  if (container, message) ∈ s.opened then (.error (d.refuses container message), s)
  else
    match d.opens container message with
    | .ok thread => (.ok thread, { s with opened := (container, message) :: s.opened })
    | .error e => (.error e, s)

end Transactions

section Bridge

variable (d : BridgeDeps)

def openFromMessage (m : InboundMessage) : Bridge (Except OpenFailure ContainerId) :=
  recover (exec .openThread (askDiscord d m.channelId m.messageId)) (.error .other)

/-- The guild of a message; a direct message anchors on its channel. -/
def InboundMessage.guild (m : InboundMessage) : GuildId := m.guildId.getD m.channelId

def isTrigger (m : InboundMessage) : Bool := m.guildId.isNone || m.mentionsBot d.botUserId

def ownedThread (m : InboundMessage) (s : BridgeSt) : Bool :=
  (lookupByContainer d m.guild m.channelId s).any (·.isThread)

def asks (m : InboundMessage) (inOwnedThread : Bool) : Bool :=
  m.guildId.isSome && isTrigger d m && !inOwnedThread

def resolveConversation (m : InboundMessage) : Bridge Conversation := do
  let inOwnedThread ← exec .lookup fun s => (ownedThread d m s, s)
  if asks d m inOwnedThread then
    match ← openFromMessage d m with
    | .ok thread => pure ⟨thread, some m.channelId, true⟩
    | .error e => pure ⟨m.channelId, none, isPermanentOpenFailure e⟩
  else pure ⟨m.channelId, none, inOwnedThread⟩

def resolveAgentColleague (site : Site) : Bridge ColleagueId :=
  exec site fun s => (d.agentColleague, s)

def resolveThread (guild : GuildId) (conv : Conversation) (channel : ChannelId)
    (creator : ColleagueId) : Bridge (ThreadId × Bool) := do
  match ← exec .resolve fun s => (lookupByContainer d guild conv.container s, s) with
  | some mapping => pure (mapping.patomThreadId, !mapping.backfillComplete)
  | none =>
    let thread ← exec .create (createThread d channel creator)
    exec .bind (bindThread d guild conv thread)
    if conv.parent.isSome then
      exec .markOpened (markBackfilled d guild conv.container)
    pure (thread, conv.parent.isNone)

/-- A malformed entry is dropped. -/
def parseHistoryPage (entries : List (Option InboundMessage)) : List InboundMessage :=
  entries.filterMap id

def fetchPages (container : ContainerId) :
    Nat → Nat → DiscordMessageId → List InboundMessage → Bridge (List InboundMessage)
  | 0, _, _, collected => pure collected
  | fuel + 1, i, cursor, collected =>
    if collected.length ≥ DISCORD_BACKFILL_MAX_MESSAGES then pure collected
    else do
      let page ← exec (.fetch i) fun s =>
        (parseHistoryPage (d.page container cursor DISCORD_BACKFILL_PAGE_SIZE), s)
      let collected := collected ++ page
      if page.length < DISCORD_BACKFILL_PAGE_SIZE then pure collected
      else
        fetchPages container fuel (i + 1) ((page.getLast?.map (·.messageId)).getD cursor) collected

def mirrorBackfilled (guild : GuildId) (thread : ThreadId) (i : Nat) (m : InboundMessage) :
    Bridge Unit :=
  if m.author.bot || m.webhookId.isSome then pure ()
  else do
    let shadow ← exec (.rowShadow i) (resolveOrMint d m.author.id)
    let _ ← exec (.rowChannel i) (ensureChannel d guild m.channelId shadow.userId)
    let _ ← exec (.row i) (appendMirrored d guild thread shadow.colleagueId none m)
    pure ()

/-- Keeps the most recent messages and mirrors them oldest first. -/
def backfillChannel (guild : GuildId) (channel : ContainerId) (thread : ThreadId)
    (before : DiscordMessageId) : Bridge Unit := do
  let collected ← fetchPages d channel DISCORD_BACKFILL_MAX_PAGES 0 before []
  eachFrom (mirrorBackfilled d guild thread) 0
    (collected.take DISCORD_BACKFILL_MAX_MESSAGES).reverse

def maybeBackfill (guild : GuildId) (channel : ContainerId) (thread : ThreadId)
    (before : DiscordMessageId) : Bridge Unit :=
  recover (do
    backfillChannel d guild channel thread before
    exec .mark (markBackfilled d guild channel)) ()

def openConversation (m : InboundMessage) (conv : Conversation) (channel : ChannelId)
    (creator : ColleagueId) : Bridge ThreadId := do
  let (thread, needsBackfill) ← resolveThread d m.guild conv channel creator
  if needsBackfill && conv.container = m.channelId then
    maybeBackfill d m.guild conv.container thread m.messageId
  pure thread

def mirrorIntoThread (m : InboundMessage) (conv : Conversation) (shadow : ShadowColleague)
    (receiver : Option ColleagueId) : Bridge (ThreadId × ThreadMessageId) := do
  let channel ← exec .channel (ensureChannel d m.guild conv.container shadow.userId)
  let agent ← resolveAgentColleague d .agent
  exec .member (addAgentToChannel channel agent)
  let thread ← openConversation d m conv channel shadow.colleagueId
  let appended ← exec .append (appendMirrored d m.guild thread shadow.colleagueId receiver m)
  pure (thread, appended)

def enqueueAndAttach (m : InboundMessage) (shadow : ShadowColleague) (thread : ThreadId)
    (message : ThreadMessageId) : Bridge Unit := do
  let state ← exec .participation (resolveParticipation d thread)
  let _ ← exec .enqueue
    (enqueueTrigger d m.guild m shadow.userId thread state shadow.colleagueId message)
  pure ()

def resolveReceiver (m : InboundMessage) : Bridge (Option ColleagueId) :=
  if isTrigger d m then do
    let receiver ← resolveAgentColleague d .receiver
    pure (some receiver)
  else pure none

def handleMessage (m : InboundMessage) : Bridge Unit :=
  if m.author.id = d.botUserId then pure ()
  else if m.author.bot || m.webhookId.isSome then pure ()
  else do
    let shadow ← exec .shadow (resolveOrMint d m.author.id)
    let conv ← resolveConversation d m
    let receiver ← resolveReceiver d m
    let (thread, appended) ← mirrorIntoThread d m conv shadow receiver
    if isTrigger d m then enqueueAndAttach d m shadow thread appended

end Bridge

end Patom.Discord
