import Patom.Http.Org
import Patom.Runtime.Queue
import Patom.Threads.Inserts

/-! `POST /prompts`.  Every read and every write of a submit is a transaction of its own, so a
submit that stops leaves what it has written. -/

open Patom.Foundation
open Patom.Provider (Attachment AttachmentMime ChatMessage UserContent)
open Patom.Runtime (IdempotencyKey NewTrigger PromptError PromptRequestId RequestStatus
  enqueueTrigger)
open Patom.Threads

namespace Patom.Http

inductive TagTarget
  | agent (id : AgentId)
  | human (id : UserId)
  deriving DecidableEq

structure SubmitPromptParams where
  userId : UserId
  orgId : OrgId
  threadId : Option ThreadId
  tags : List TagTarget
  content : Option String
  attachments : List Attachment
  idempotencyKey : IdempotencyKey
  channelId : Option ChannelId
  counterpart : Option TagTarget

def SubmitPromptParams.caller (params : SubmitPromptParams) : Caller :=
  ⟨params.userId, params.orgId⟩

structure SubmitOutcome where
  requestId : Option PromptRequestId
  threadId : ThreadId
  status : Option RequestStatus
  triggeredAgentIds : List AgentId
  existed : Bool
  deriving DecidableEq

structure ResolvedTag where
  colleague : ColleagueId
  agent : Option AgentId
  deriving DecidableEq

def isImage : AttachmentMime → Bool
  | .png | .jpeg | .webp | .gif => true
  | _ => false

def attachmentContent (att : Attachment) : UserContent :=
  if isImage att.mime then .image att else .file att

def userContent (content : Option String) (attachments : List Attachment) : List UserContent :=
  content.toList.map .text ++ attachments.map attachmentContent

/-- The unique index over `(org_id, idempotency_key)`. -/
def KeyIdx (chat : ChatDb) : Prop :=
  ∀ m ∈ chat.threadMessages, ∀ m' ∈ chat.threadMessages, m.orgId = m'.orgId →
    m.idempotencyKey.isSome → m.idempotencyKey = m'.idempotencyKey → m = m'

structure PromptDb where
  chat : ChatDb
  participations : Table AgentThreadState
  threadSeq : Table ThreadSeq
  queue : Runtime.Db
  keyIdx : KeyIdx chat

def roster (chat : ChatDb) : Table Runtime.Colleague where
  rows := chat.colleagues.rows.map fun c => ⟨c.id, c.orgId, c.agentId⟩
  nodup := by
    rw [List.map_map]
    exact chat.colleagues.nodup

def findByKey (db : PromptDb) (role : Role) (org : OrgId) (k : IdempotencyKey) :
    Option ThreadMessageRow :=
  (role.scan db.chat db.chat.threadMessages (·.orgId)).find? fun m =>
    m.orgId = org && m.idempotencyKey = some k

def findThread (db : PromptDb) (role : Role) (thread : ThreadId) : Option ThreadRow :=
  (role.scan db.chat db.chat.threads (·.orgId)).find? fun t => t.id = thread

def findExistingPost (db : PromptDb) (user : UserId) (org : OrgId) (k : IdempotencyKey) :
    Option (ThreadId × ThreadMessageId) :=
  (findByKey db (.user user) org k).map fun m => (m.threadId, m.id)

def resolveUserColleague (chat : ChatDb) (org : OrgId) (user : UserId) :
    Except ColleagueError ColleagueId :=
  match chat.colleagues.rows.find? fun c => c.orgId = org && c.userId = some user with
  | some c => .ok c.id
  | none => .error (.satelliteUnmapped .human)

def resolveAgentColleague (chat : ChatDb) (org : OrgId) (agent : AgentId) :
    Except ColleagueError ColleagueId :=
  match chat.colleagues.rows.find? fun c => c.orgId = org && c.agentId = some agent with
  | some c => .ok c.id
  | none => .error (.satelliteUnmapped .agent)

def resolveTargetColleague (chat : ChatDb) (org : OrgId) : TagTarget → Except HttpError ResolvedTag
  | .agent id =>
    match resolveAgentColleague chat org id with
    | .ok colleague => .ok ⟨colleague, some id⟩
    | .error _ => .error (.badRequest ("unknown agent tag " ++ id.display))
  | .human id =>
    match resolveUserColleague chat org id with
    | .ok colleague => .ok ⟨colleague, none⟩
    | .error _ => .error (.badRequest ("unknown human tag " ++ id.display))

def resolveTags (chat : ChatDb) (org : OrgId) (tags : List TagTarget) :
    Except HttpError (List ResolvedTag) :=
  tags.mapM (resolveTargetColleague chat org)

def implicitDmReceiver (chat : ChatDb) (params : SubmitPromptParams)
    (existing : Option (ThreadId × ThreadMessageId)) : Except HttpError (Option ResolvedTag) :=
  match (existing.map Prod.fst).or params.threadId with
  | none =>
    match params.counterpart with
    | some (.agent id) =>
      if params.channelId.isNone then
        (resolveTargetColleague chat params.orgId (.agent id)).map some
      else .ok none
    | _ => .ok none
  | some thread =>
    match (chat.threads.find? thread).bind (·.dmCounterpartColleagueId) with
    | none => .ok none
    | some counterpart =>
      match chat.colleagues.find? counterpart with
      | none => .error (.colleague (.notFound counterpart))
      | some c => .ok (c.agentId.map fun agent => ⟨counterpart, some agent⟩)

structure Prepared where
  existing : Option (ThreadId × ThreadMessageId)
  sender : ColleagueId
  tags : List ResolvedTag

def Prepared.agentTags (p : Prepared) : List AgentId := p.tags.filterMap (·.agent)

def allTags (chat : ChatDb) (params : SubmitPromptParams)
    (existing : Option (ThreadId × ThreadMessageId)) : Except HttpError (List ResolvedTag) :=
  match resolveTags chat params.orgId params.tags with
  | .error e => .error e
  | .ok tags =>
    if tags.any (·.agent.isSome) then .ok tags
    else
      match implicitDmReceiver chat params existing with
      | .error e => .error e
      | .ok implicit => .ok (tags ++ implicit.toList)

/-- The reads of a submit; `admits` is the answer of the billing gate, asked where a trigger is
to come. -/
def prepare (db : PromptDb) (params : SubmitPromptParams) (admits : Bool) :
    Except HttpError Prepared :=
  let existing := findExistingPost db params.userId params.orgId params.idempotencyKey
  match resolveUserColleague db.chat params.orgId params.userId with
  | .error e => .error (.colleague e)
  | .ok sender =>
    match allTags db.chat params existing with
    | .error e => .error e
    | .ok tags =>
      let p : Prepared := ⟨existing, sender, tags⟩
      if p.agentTags ≠ [] ∧ admits = false then .error .billing else .ok p

def ensureChannelMember (chat : ChatDb) (caller : Caller) (channel : ChannelId) : Bool :=
  let role := Role.user caller.userId
  (role.scan chat chat.channels (·.orgId)).any fun c =>
    c.id = channel && c.orgId = caller.orgId && c.archivedAt.isNone &&
      (role.scan chat chat.channelMembers (·.orgId)).any fun cm =>
        cm.channelId = c.id && cm.userId = caller.userId

theorem keyIdx_of_messages {chat chat' : ChatDb} (h : KeyIdx chat)
    (hmessages : chat'.threadMessages = chat.threadMessages) : KeyIdx chat' := by
  unfold KeyIdx
  rw [hmessages]
  exact h

inductive Place
  | channel (id : ChannelId)
  | dm (counterpart : ColleagueId)

def Place.row (id : ThreadId) (org : OrgId) (createdBy : ColleagueId) (now : Time) :
    Place → ThreadRow
  | .channel c => ⟨⟨id, org⟩, some c, createdBy, none, now, .inr rfl⟩
  | .dm k => ⟨⟨id, org⟩, none, createdBy, some k, now, .inl rfl⟩

def createThread (id : ThreadId) (now : Time) (db : PromptDb) (caller : Caller) (place : Place)
    (createdBy : ColleagueId) : Except HttpError (PromptDb × ThreadId) :=
  if appUserIsMember db.chat caller.userId caller.orgId then
    match h : db.chat.insertThread (place.row id caller.orgId createdBy now) with
    | none => .error .internal
    | some chat =>
      .ok ({ db with
        chat
        keyIdx := keyIdx_of_messages db.keyIdx (ChatDb.insertThread_added h).rest.2.2.2.2 }, id)
  else .error .internal

def resolveThread (id : ThreadId) (now : Time) (db : PromptDb) (params : SubmitPromptParams)
    (sender : ColleagueId) : Except HttpError (PromptDb × ThreadId) :=
  match params.threadId with
  | some thread =>
    if visibleTo db.chat params.caller thread then .ok (db, thread) else .error .notFound
  | none =>
    match params.channelId with
    | some channel =>
      if ensureChannelMember db.chat params.caller channel then
        createThread id now db params.caller (.channel channel) sender
      else .error (.forbidden "channel.not_member")
    | none =>
      match params.counterpart with
      | none => .error (.badRequest "a direct message requires a counterpart")
      | some target => do
        let counterpart ← resolveTargetColleague db.chat params.orgId target
        createThread id now db params.caller (.dm counterpart.colleague) sender

def KeyTaken (chat : ChatDb) (org : OrgId) (k : Option IdempotencyKey) : Prop :=
  ∃ m ∈ chat.threadMessages, m.orgId = org ∧ m.idempotencyKey.isSome ∧ m.idempotencyKey = k

instance keyTakenDecidable (chat : ChatDb) (org : OrgId) (k : Option IdempotencyKey) :
    Decidable (KeyTaken chat org k) :=
  inferInstanceAs (Decidable
    (∃ m ∈ chat.threadMessages, m.orgId = org ∧ m.idempotencyKey.isSome ∧ m.idempotencyKey = k))

theorem keyIdx_added {chat chat' : ChatDb} {row : ThreadMessageRow} (h : KeyIdx chat)
    (hfree : ¬KeyTaken chat row.orgId row.idempotencyKey)
    (hadded : ChatDb.MessageAdded chat chat' row) : KeyIdx chat' := by
  intro m hm m' hm' horg hsome hkey
  obtain hm | rfl := (Table.mem_insert? hadded.threadMessages).mp hm <;>
    obtain hm' | rfl := (Table.mem_insert? hadded.threadMessages).mp hm'
  · exact h m hm m' hm' horg hsome hkey
  · exact absurd ⟨m, hm, horg, hsome, hkey⟩ hfree
  · exact absurd ⟨m', hm', horg.symm, hkey ▸ hsome, hkey.symm⟩ hfree
  · rfl

/-- `append`, under the policy of the caller.  A key that is taken leaves its row as it is, and a
hole in the numbering; the answer is then the row that has it. -/
def append (id : ThreadMessageId) (now : Time) (db : PromptDb) (caller : Caller) (thread : ThreadId)
    (new : NewThreadMessage) : PromptDb × Except ThreadError ThreadMessageId :=
  let role := Role.user caller.userId
  let winner := match new.idempotencyKey.bind (findByKey db role caller.orgId) with
    | some existing => .ok existing.id
    | none => .error (.notFound thread)
  match findThread db role thread with
  | none => (db, winner)
  | some t =>
    let seq := bumpedThreadSeq thread db.threadSeq
    let threadSeq := db.threadSeq.put ⟨thread, seq⟩
    if hfree : KeyTaken db.chat t.orgId new.idempotencyKey then ({ db with threadSeq }, winner)
    else
      let row : ThreadMessageRow :=
        { new with id, threadId := thread, orgId := t.orgId, seq, createdAt := now }
      match h : db.chat.insertMessage row with
      | none => (db, .error (.db "thread_messages"))
      | some chat =>
        ({ db with
          chat
          threadSeq
          keyIdx := keyIdx_added db.keyIdx hfree (ChatDb.insertMessage_added h) }, .ok id)

def post (params : SubmitPromptParams) (p : Prepared) : NewThreadMessage where
  kind := .posted
  sender := some p.sender
  ownerAgentId := none
  body := .user (userContent params.content params.attachments)
  receiver := p.tags.head?.map (·.colleague)
  requestId := none
  idempotencyKey := some params.idempotencyKey

def participate (id : AgentThreadId) (now : Time) (db : PromptDb) (caller : Caller)
    (thread : ThreadId) (agent : AgentId) : Except ThreadError (PromptDb × AgentThreadId) :=
  match findThread db (.user caller.userId) thread with
  | none => .error (.notFound thread)
  | some t =>
    match db.participations.find? (thread, agent) with
    | some row => .ok (db, row.id)
    | none =>
      let participations := db.participations.put ⟨id, thread, agent, t.orgId, now⟩
      .ok ({ db with participations }, id)

def perAgentKey (k : IdempotencyKey) (agent : AgentId) : Except HttpError IdempotencyKey :=
  (IdempotencyKey.tryFrom (k.asStr ++ ":" ++ agent.display)).mapError fun e =>
    .badRequest ("idempotency_key too long for tags: " ++ e.display)

def tagTrigger (params : SubmitPromptParams) (sender : ColleagueId) (thread : ThreadId)
    (message : ThreadMessageId) (agent : AgentId) (state : AgentThreadId) (k : IdempotencyKey) :
    NewTrigger where
  orgId := params.orgId
  actingUserId := params.userId
  threadId := some thread
  stateId := some state
  backgroundTurnId := none
  senderColleagueId := sender
  receiverAgentId := agent
  rootRequestId := none
  triggerMessageId := some message
  idempotencyKey := k
  kindPayload := .normal

def enqueueTag (id : PromptRequestId) (now : Time) (db : PromptDb) (params : SubmitPromptParams)
    (sender : ColleagueId) (thread : ThreadId) (message : ThreadMessageId) (agent : AgentId)
    (state : AgentThreadId) : Except HttpError (PromptDb × PromptRequestId) := do
  let k ← perAgentKey params.idempotencyKey agent
  match enqueueTrigger (roster db.chat) id now
      (tagTrigger params sender thread message agent state k) db.queue with
  | .error e => .error (.prompt e)
  | .ok (queue, request) => .ok ({ db with queue }, request)

structure Mint where
  thread : ThreadId
  message : ThreadMessageId
  state : AgentId → AgentThreadId
  request : AgentId → PromptRequestId
  now : Time

section Submit

variable (mint : Mint) (params : SubmitPromptParams)

def enqueueTagTriggers (sender : ColleagueId) (thread : ThreadId) (message : ThreadMessageId) :
    List AgentId → PromptDb → PromptDb × Except HttpError (List PromptRequestId)
  | [], db => (db, .ok [])
  | agent :: rest, db =>
    match participate (mint.state agent) mint.now db params.caller thread agent with
    | .error _ => (db, .error .internal)
    | .ok (db, state) =>
      match enqueueTag (mint.request agent) mint.now db params sender thread message agent state
      with
      | .error e => (db, .error e)
      | .ok (db, request) =>
        let (db, result) := enqueueTagTriggers sender thread message rest db
        (db, result.map (request :: ·))

def threadAndPost (db : PromptDb) (p : Prepared) :
    PromptDb × Except HttpError (ThreadId × ThreadMessageId) :=
  match p.existing with
  | some pair => (db, .ok pair)
  | none =>
    match resolveThread mint.thread mint.now db params p.sender with
    | .error e => (db, .error e)
    | .ok (db, thread) =>
      match append mint.message mint.now db params.caller thread (post params p) with
      | (db, .error _) => (db, .error .internal)
      | (db, .ok message) => (db, .ok (thread, message))

def submitInternal (admits : Bool) (db : PromptDb) : PromptDb × Except HttpError SubmitOutcome :=
  match prepare db params admits with
  | .error e => (db, .error e)
  | .ok p =>
    match threadAndPost mint params db p with
    | (db, .error e) => (db, .error e)
    | (db, .ok (thread, message)) =>
      if p.agentTags = [] then (db, .ok ⟨none, thread, none, [], p.existing.isSome⟩)
      else
        match enqueueTagTriggers mint params p.sender thread message p.agentTags db with
        | (db, .error e) => (db, .error e)
        | (db, .ok requests) =>
          (db, .ok ⟨requests.head?, thread, some .pending, p.agentTags, p.existing.isSome⟩)

end Submit

end Patom.Http
