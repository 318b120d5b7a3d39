import Patom.Http.Prompts
import Patom.Http.Sight
import Patom.Runtime.Dag
import Patom.Tools.SendMessage

/-! `send_message` from its input on: who is addressed, where, and what it takes to get there.  A
call runs in transactions of its own, so what it has written before it is refused stays. -/

open Patom.AgentCore (ToolCallContext)
open Patom.Foundation
open Patom.Runtime (bumpOrFail enqueueTrigger IdempotencyKey NewTrigger PromptError PromptRequestId)
open Patom.Http
open Patom.Threads

namespace Patom.Tools

def ERR_SYSTEM_RECEIVER : String := "send_message: cannot deliver to System"

inductive Target
  | channel (id : ChannelId)
  | dm (counterpart : ColleagueId)

structure SendMessageInput where
  receiver : Option ColleagueId
  content : String
  target : Option Target

structure ChannelAgentMemberRow where
  channelId : ChannelId
  colleagueId : ColleagueId

instance channelAgentMemberKeyed : Keyed ChannelAgentMemberRow (ChannelId × ColleagueId) :=
  ⟨fun r => (r.channelId, r.colleagueId)⟩

structure SendMint where
  thread : ThreadId
  message : ThreadMessageId
  ownState : AgentThreadId
  receiverState : AgentThreadId
  request : PromptRequestId
  now : Time

def participantOf (c : ColleagueRow) : Participant :=
  match c.kind, c.userId, c.agentId with
  | .human, some user, _ => .human c.id user
  | .agent, _, some agent => .agent c.id agent
  | _, _, _ => .system

def ToolError.isRefusal : ToolError → Bool
  | .invalidInput detail => !"send_message: dag budget exceeded: ".toList.isPrefixOf detail.toList
  | .backend _ => false

def colleagueInChannel (agents : Table ChannelAgentMemberRow) (chat : ChatDb) (channel : ChannelId)
    (colleague : ColleagueId) : Bool :=
  agents.rows.any (fun am => am.channelId = channel && am.colleagueId = colleague) ||
    chat.channelMembers.rows.any fun m =>
      m.channelId = channel && chat.colleagues.rows.any fun c =>
        c.userId = some m.userId && c.orgId = m.orgId && c.id = colleague

section Call

variable (agents : Table ChannelAgentMemberRow) (mint : SendMint) (ctx : ToolCallContext)

def sendCaller : Caller := ⟨ctx.actingUserId, ctx.orgId⟩

def resolveColleague (chat : ChatDb) (id : ColleagueId) : Except ToolError Participant :=
  match chat.colleagues.find? id with
  | none => .error (.invalidInput ("send_message: unknown colleague " ++ id.display))
  | some c =>
    if c.orgId = ctx.orgId then .ok (participantOf c)
    else .error (.invalidInput ("send_message: unknown colleague " ++ id.display))

def validateReceiver (chat : ChatDb) :
    Option ColleagueId → Except ToolError (Option Participant)
  | none => .ok none
  | some id =>
    match resolveColleague ctx chat id with
    | .error e => .error e
    | .ok receiver =>
      if receiver = ctx.viewer then .error (.invalidInput "send_message: receiver equals caller")
      else if receiver = .system then .error (.invalidInput ERR_SYSTEM_RECEIVER)
      else .ok (some receiver)

def validate (chat : ChatDb) (input : SendMessageInput) :
    Except ToolError (Prompt × Option Participant × AgentId) :=
  match Prompt.tryFrom input.content with
  | .error e => .error (.invalidInput e.display)
  | .ok content =>
    match ctx.viewer.agentId? with
    | none => .error (.invalidInput "send_message: caller must be an agent")
    | some agent =>
      match validateReceiver ctx chat input.receiver with
      | .error e => .error e
      | .ok receiver => .ok (content, receiver, agent)

def targetPlace (chat : ChatDb) (creator : ColleagueId) : Target → Except ToolError Place
  | .channel channel =>
    if colleagueInChannel agents chat channel creator then .ok (.channel channel)
    else .error (.invalidInput "send_message: you are not a member of that channel")
  | .dm counterpart =>
    match resolveColleague ctx chat counterpart with
    | .error e => .error e
    | .ok (.human colleague _) => .ok (.dm colleague)
    | .ok _ => .error (.invalidInput "send_message: a dm target must be a human colleague")

def participation (db : PromptDb) (state : AgentThreadId) (thread : ThreadId) (agent : AgentId) :
    PromptDb × Except ToolError AgentThreadId :=
  match participate state mint.now db (sendCaller ctx) thread agent with
  | .error e => (db, .error (.backend ("send_message: resolve participation: " ++ e.display)))
  | .ok (db, state) => (db, .ok state)

def createTarget (db : PromptDb) (sender : AgentId) (creator : ColleagueId) (place : Place) :
    PromptDb × Except ToolError ThreadId :=
  match createThread mint.thread mint.now db (sendCaller ctx) place creator with
  | .error _ =>
    (db, .error (.backend ("send_message: create thread: " ++ (ThreadError.db "threads").display)))
  | .ok (db, thread) =>
    match participation mint ctx db mint.ownState thread sender with
    | (db, .error e) => (db, .error e)
    | (db, .ok _) => (db, .ok thread)

def resolveOrCreateTarget (db : PromptDb) (sender : AgentId) :
    Option Target → PromptDb × Except ToolError ThreadId
  | none =>
    match ctx.threadId with
    | none => (db, .error (.backend "send_message: no thread context on this call"))
    | some thread => (db, .ok thread)
  | some target =>
    match ctx.viewer.colleagueId? with
    | none => (db, .error (.invalidInput "send_message: caller must be a colleague"))
    | some creator =>
      match targetPlace agents ctx db.chat creator target with
      | .error e => (db, .error e)
      | .ok place => createTarget mint ctx db sender creator place

def outboundMessage (receiver : Option ColleagueId) (content : Prompt) : NewThreadMessage where
  kind := .posted
  sender := ctx.viewer.colleagueId?
  ownerAgentId := none
  body := .user [.text content.asStr]
  receiver
  requestId := some ctx.requestId
  idempotencyKey := none

def postMessage (db : PromptDb) (thread : ThreadId) (receiver : Option ColleagueId)
    (content : Prompt) : PromptDb × Except ToolError ThreadMessageId :=
  let (db, posted) := append mint.message mint.now db (sendCaller ctx) thread
    (outboundMessage ctx receiver content)
  (db, posted.mapError fun e => .backend ("send_message: post failed: " ++ e.display))

def posted (thread : ThreadId) (request : Option PromptRequestId) : SendMessageOutput :=
  ⟨thread, request, if request.isSome then "queued" else "posted"⟩

def deliverUntagged (db : PromptDb) (thread : ThreadId) (content : Prompt) :
    PromptDb × Except ToolError SendMessageOutput :=
  match postMessage mint ctx db thread none content with
  | (db, .error e) => (db, .error e)
  | (db, .ok _) => (db, .ok (posted thread none))

/-- No human is added to a channel by a message. -/
def deliverToHuman (db : PromptDb) (thread : ThreadId) (colleague : ColleagueId) (user : UserId)
    (content : Prompt) : PromptDb × Except ToolError SendMessageOutput :=
  match isChannelMember db.chat thread user with
  | .error e =>
    (db, .error (.backend ("send_message: membership check failed: " ++ e.display)))
  | .ok false =>
    (db, .error (.invalidInput "send_message: recipient is not a member of this channel"))
  | .ok true =>
    match postMessage mint ctx db thread (some colleague) content with
    | (db, .error e) => (db, .error e)
    | (db, .ok _) => (db, .ok (posted thread none))

def bumpBudget (db : PromptDb) : PromptDb × Except ToolError Unit :=
  match bumpOrFail ctx.rootRequestId db.queue with
  | .ok (queue, _) => ({ db with queue }, .ok ())
  | .error e@(.dagBudgetExceeded ..) =>
    (db, .error (.invalidInput ("send_message: dag budget exceeded: " ++ e.display)))
  | .error e => (db, .error (.backend ("send_message: dag bump failed: " ++ e.display)))

def tagKey (thread : ThreadId) (agent : AgentId) (message : ThreadMessageId) :
    Except ParseError IdempotencyKey :=
  IdempotencyKey.tryFrom
    ("tag:" ++ thread.display ++ ":" ++ agent.display ++ ":" ++ message.display)

def wakeUp (thread : ThreadId) (state : AgentThreadId) (agent : AgentId) (sender : ColleagueId)
    (message : ThreadMessageId) (k : IdempotencyKey) : NewTrigger where
  orgId := ctx.orgId
  actingUserId := ctx.actingUserId
  threadId := some thread
  stateId := some state
  backgroundTurnId := none
  senderColleagueId := sender
  receiverAgentId := agent
  rootRequestId := some ctx.rootRequestId
  triggerMessageId := some message
  idempotencyKey := k
  kindPayload := .normal

def enqueueWakeUp (db : PromptDb) (thread : ThreadId) (state : AgentThreadId) (agent : AgentId)
    (message : ThreadMessageId) : PromptDb × Except ToolError PromptRequestId :=
  match ctx.viewer.colleagueId? with
  | none => (db, .error (.backend "send_message: agent caller missing colleague"))
  | some sender =>
    match tagKey thread agent message with
    | .error e => (db, .error (.backend ("send_message: bad idempotency: " ++ e.display)))
    | .ok k =>
      match enqueueTrigger (roster db.chat) mint.request mint.now
          (wakeUp ctx thread state agent sender message k) db.queue with
      | .error e => (db, .error (.backend ("send_message: enqueue failed: " ++ e.display)))
      | .ok (queue, request) => ({ db with queue }, .ok request)

/-- The post and the participation are both awaited before either of their errors counts. -/
def deliverToAgent (db : PromptDb) (thread : ThreadId) (colleague : ColleagueId) (agent : AgentId)
    (content : Prompt) : PromptDb × Except ToolError SendMessageOutput :=
  let (db, message) := postMessage mint ctx db thread (some colleague) content
  let (db, state) := participation mint ctx db mint.receiverState thread agent
  match message, state with
  | .error e, _ | .ok _, .error e => (db, .error e)
  | .ok message, .ok state =>
    match bumpBudget ctx db with
    | (db, .error e) => (db, .error e)
    | (db, .ok ()) =>
      match enqueueWakeUp mint ctx db thread state agent message with
      | (db, .error e) => (db, .error e)
      | (db, .ok request) => (db, .ok (posted thread (some request)))

def deliver (db : PromptDb) (thread : ThreadId) (content : Prompt) :
    Option Participant → PromptDb × Except ToolError SendMessageOutput
  | none => deliverUntagged mint ctx db thread content
  | some (.human colleague user) => deliverToHuman mint ctx db thread colleague user content
  | some (.agent colleague agent) => deliverToAgent mint ctx db thread colleague agent content
  | some .system => (db, .error (.invalidInput ERR_SYSTEM_RECEIVER))

def handle (db : PromptDb) (input : SendMessageInput) :
    PromptDb × Except ToolError SendMessageOutput :=
  match validate ctx db.chat input with
  | .error e => (db, .error e)
  | .ok (content, receiver, sender) =>
    match resolveOrCreateTarget agents mint ctx db sender input.target with
    | (db, .error e) => (db, .error e)
    | (db, .ok thread) => deliver mint ctx db thread content receiver

end Call

section
variable {agents : Table ChannelAgentMemberRow} {mint : SendMint} {ctx : ToolCallContext}
  {db : PromptDb} {input : SendMessageInput}

def Untraced (agents : Table ChannelAgentMemberRow) (mint : SendMint) (ctx : ToolCallContext)
    (db : PromptDb) (input : SendMessageInput) : Prop :=
  ∀ e, (handle agents mint ctx db input).2 = .error e → e.isRefusal →
    (handle agents mint ctx db input).1 = db

def targetRow (mint : SendMint) (ctx : ToolCallContext) (creator : ColleagueId) (place : Place) :
    ThreadRow :=
  place.row mint.thread ctx.orgId creator mint.now

@[simp] theorem targetRow_id (mint : SendMint) (ctx : ToolCallContext) (creator : ColleagueId)
    (place : Place) : (targetRow mint ctx creator place).id = mint.thread := by
  cases place <;> rfl

@[simp] theorem targetRow_key (mint : SendMint) (ctx : ToolCallContext) (creator : ColleagueId)
    (place : Place) : key (targetRow mint ctx creator place) = mint.thread :=
  targetRow_id mint ctx creator place

@[simp] theorem targetRow_orgId (mint : SendMint) (ctx : ToolCallContext) (creator : ColleagueId)
    (place : Place) : (targetRow mint ctx creator place).orgId = ctx.orgId := by
  cases place <;> rfl

/-- A call to a human at an explicit target whose gates open and whose thread can be created, but
is not one that the human sees. -/
def Strands (agents : Table ChannelAgentMemberRow) (mint : SendMint) (ctx : ToolCallContext)
    (db : PromptDb) (input : SendMessageInput) : Prop :=
  ∃ content colleague user sender target creator place,
    validate ctx db.chat input = .ok (content, some (.human colleague user), sender) ∧
    input.target = some target ∧ ctx.viewer.colleagueId? = some creator ∧
    targetPlace agents ctx db.chat creator target = .ok place ∧
    appUserIsMember db.chat ctx.actingUserId ctx.orgId ∧
    db.chat.ThreadKeys (targetRow mint ctx creator place) ∧
    db.chat.threads.find? mint.thread = none ∧
    memberWhere db.chat user (targetRow mint ctx creator place) = false

@[simp] theorem isRefusal_backend (detail : String) :
    (ToolError.backend detail).isRefusal = false := rfl

theorem isRefusal_spent (rest : String) :
    (ToolError.invalidInput ("send_message: dag budget exceeded: " ++ rest)).isRefusal = false := by
  have h : "send_message: dag budget exceeded: ".toList.isPrefixOf
      ("send_message: dag budget exceeded: " ++ rest).toList = true := by
    rw [String.toList_append]
    exact List.isPrefixOf_iff_prefix.mpr (List.prefix_append _ _)
  simp only [ToolError.isRefusal, h, Bool.not_true]

theorem participation_refusal {state : AgentThreadId} {thread : ThreadId} {agent : AgentId}
    {e : ToolError} (h : (participation mint ctx db state thread agent).2 = .error e) :
    e.isRefusal = false := by
  unfold participation at h
  split at h
  all_goals cases h
  rfl

theorem postMessage_refusal {thread : ThreadId} {receiver : Option ColleagueId} {content : Prompt}
    {e : ToolError} (h : (postMessage mint ctx db thread receiver content).2 = .error e) :
    e.isRefusal = false := by
  simp only [postMessage] at h
  cases hposted : (append mint.message mint.now db (sendCaller ctx) thread
    (outboundMessage ctx receiver content)).2 with
  | error err =>
    rw [hposted] at h
    cases h
    rfl
  | ok id =>
    rw [hposted] at h
    cases h

theorem bumpBudget_refusal {e : ToolError} (h : (bumpBudget ctx db).2 = .error e) :
    e.isRefusal = false := by
  unfold bumpBudget at h
  split at h
  all_goals cases h
  · exact isRefusal_spent _
  · rfl

theorem enqueueWakeUp_refusal {thread : ThreadId} {state : AgentThreadId} {agent : AgentId}
    {message : ThreadMessageId} {e : ToolError}
    (h : (enqueueWakeUp mint ctx db thread state agent message).2 = .error e) :
    e.isRefusal = false := by
  unfold enqueueWakeUp at h
  repeat' split at h
  all_goals cases h
  all_goals rfl

theorem deliverUntagged_refusal {thread : ThreadId} {content : Prompt} {e : ToolError}
    (h : (deliverUntagged mint ctx db thread content).2 = .error e) : e.isRefusal = false := by
  unfold deliverUntagged at h
  split at h
  case h_1 hpost =>
    cases h
    exact postMessage_refusal (congrArg Prod.snd hpost)
  case h_2 => cases h

theorem deliverToAgent_refusal {thread : ThreadId} {colleague : ColleagueId} {agent : AgentId}
    {content : Prompt} {e : ToolError}
    (h : (deliverToAgent mint ctx db thread colleague agent content).2 = .error e) :
    e.isRefusal = false := by
  simp only [deliverToAgent] at h
  split at h
  case h_1 hpost =>
    cases h
    exact postMessage_refusal hpost
  case h_2 hstate =>
    cases h
    exact participation_refusal hstate
  case h_3 =>
    split at h
    case h_1 hbump =>
      cases h
      exact bumpBudget_refusal (congrArg Prod.snd hbump)
    case h_2 =>
      split at h
      case h_1 henqueue =>
        cases h
        exact enqueueWakeUp_refusal (congrArg Prod.snd henqueue)
      case h_2 => cases h

theorem deliverToHuman_refusal {thread : ThreadId} {colleague : ColleagueId} {user : UserId}
    {content : Prompt} {e : ToolError}
    (h : (deliverToHuman mint ctx db thread colleague user content).2 = .error e)
    (he : e.isRefusal) :
    isChannelMember db.chat thread user = .ok false ∧
      (deliverToHuman mint ctx db thread colleague user content).1 = db := by
  unfold deliverToHuman at h ⊢
  split at h
  case h_1 =>
    cases h
    cases he
  case h_2 hmember => exact ⟨hmember, rfl⟩
  case h_3 =>
    split at h
    case h_1 hpost =>
      cases h
      rw [postMessage_refusal (congrArg Prod.snd hpost)] at he
      cases he
    case h_2 => cases h

theorem deliver_refusal {thread : ThreadId} {content : Prompt} {receiver : Option Participant}
    {e : ToolError} (h : (deliver mint ctx db thread content receiver).2 = .error e)
    (he : e.isRefusal) (hreceiver : receiver ≠ some .system) :
    (deliver mint ctx db thread content receiver).1 = db ∧
      ∃ colleague user, receiver = some (.human colleague user) ∧
        isChannelMember db.chat thread user = .ok false := by
  cases receiver with
  | none =>
    rw [deliverUntagged_refusal h] at he
    cases he
  | some receiver =>
    cases receiver with
    | human colleague user =>
      obtain ⟨hmember, hdb⟩ := deliverToHuman_refusal h he
      exact ⟨hdb, colleague, user, rfl, hmember⟩
    | agent colleague agent =>
      rw [deliverToAgent_refusal h] at he
      cases he
    | system => exact absurd rfl hreceiver

theorem validate_receiver {chat : ChatDb} {content : Prompt} {receiver : Option Participant}
    {sender : AgentId} (h : validate ctx chat input = .ok (content, receiver, sender)) :
    receiver ≠ some .system := by
  unfold validate at h
  split at h
  case h_1 => cases h
  case h_2 =>
    split at h
    case h_1 => cases h
    case h_2 =>
      split at h
      case h_1 => cases h
      case h_2 hreceiver =>
        cases h
        unfold validateReceiver at hreceiver
        repeat' split at hreceiver
        all_goals cases hreceiver
        · exact fun heq => by cases heq
        · next hsystem => exact fun heq => hsystem (Option.some.inj heq)

theorem createTarget_refusal {sender : AgentId} {creator : ColleagueId} {place : Place}
    {e : ToolError} (h : (createTarget mint ctx db sender creator place).2 = .error e) :
    e.isRefusal = false := by
  unfold createTarget at h
  split at h
  case h_1 =>
    cases h
    rfl
  case h_2 =>
    split at h
    case h_1 hstate =>
      cases h
      exact participation_refusal (congrArg Prod.snd hstate)
    case h_2 => cases h

theorem participation_chat (db : PromptDb) (state : AgentThreadId) (thread : ThreadId)
    (agent : AgentId) : (participation mint ctx db state thread agent).1.chat = db.chat := by
  unfold participation
  split
  case h_1 => rfl
  case h_2 hstate => exact (participate_ok hstate).1

theorem createTarget_ok {sender : AgentId} {creator : ColleagueId} {place : Place}
    {db' : PromptDb} {thread : ThreadId}
    (h : createTarget mint ctx db sender creator place = (db', .ok thread)) :
    thread = mint.thread ∧ appUserIsMember db.chat ctx.actingUserId ctx.orgId ∧
      ChatDb.ThreadAdded db.chat db'.chat (targetRow mint ctx creator place) := by
  unfold createTarget at h
  split at h
  case h_1 => cases h
  case h_2 db₁ id hcreate =>
    obtain ⟨rfl, -, hmember, hadded⟩ := createThread_ok hcreate
    have hchat := @participation_chat mint ctx db₁ mint.ownState mint.thread sender
    split at h
    case h_1 => cases h
    case h_2 hstate =>
      cases h
      rw [hstate] at hchat
      exact ⟨rfl, hmember, by rw [hchat]; exact hadded⟩

theorem isChannelMember_added {chat chat' : ChatDb} {row : ThreadRow}
    (h : ChatDb.ThreadAdded chat chat' row) (user : UserId) :
    isChannelMember chat' row.id user = .ok (memberWhere chat user row) := by
  have hrow : row ∈ chat'.threads := (Table.mem_insert? h.threads).mpr (.inr rfl)
  obtain ⟨-, hcolleagues, -, hmembers, -⟩ := h.rest
  rw [isChannelMember_of_mem hrow]
  simp only [memberWhere, hmembers, hcolleagues, dmVisibleTo, channelMember, Role.scan, Role.reads]

theorem createThread_isOk {creator : ColleagueId} {place : Place}
    (hmember : appUserIsMember db.chat ctx.actingUserId ctx.orgId)
    (hkeys : db.chat.ThreadKeys (targetRow mint ctx creator place))
    (hfresh : db.chat.threads.find? mint.thread = none) :
    ∃ db', createThread mint.thread mint.now db (sendCaller ctx) place creator =
      .ok (db', mint.thread) := by
  have hins : (db.chat.threads.insert? (targetRow mint ctx creator place)).isSome :=
    Table.insert?_isSome.mpr (by rw [targetRow_key]; exact hfresh)
  have hchat : (db.chat.insertThread (targetRow mint ctx creator place)).isSome := by
    unfold ChatDb.insertThread
    rw [dif_pos hkeys]
    split
    case h_1 hnone =>
      rw [hnone] at hins
      cases hins
    case h_2 => rfl
  have hmember' : appUserIsMember db.chat (sendCaller ctx).userId (sendCaller ctx).orgId := hmember
  simp only [createThread, if_pos hmember']
  split
  case h_1 hnone =>
    have hnone' : db.chat.insertThread (targetRow mint ctx creator place) = none := hnone
    rw [hnone'] at hchat
    cases hchat
  case h_2 => exact ⟨_, rfl⟩

theorem createTarget_isOk {sender : AgentId} {creator : ColleagueId} {place : Place}
    (hmember : appUserIsMember db.chat ctx.actingUserId ctx.orgId)
    (hkeys : db.chat.ThreadKeys (targetRow mint ctx creator place))
    (hfresh : db.chat.threads.find? mint.thread = none) :
    ∃ db', createTarget mint ctx db sender creator place = (db', .ok mint.thread) := by
  obtain ⟨db₁, hcreate⟩ := createThread_isOk hmember hkeys hfresh
  have hadded : ChatDb.ThreadAdded db.chat db₁.chat (targetRow mint ctx creator place) :=
    (createThread_ok hcreate).2.2.2
  have hrow := (Table.mem_insert? hadded.threads).mpr (.inr rfl)
  have hreads : (Role.user (sendCaller ctx).userId).reads db₁.chat
      (targetRow mint ctx creator place).orgId = true := by
    rw [targetRow_orgId, Role.reads, appUserIsMember, hadded.rest.1]
    exact hmember
  have hfind := findThread_isSome hrow hreads
  rw [targetRow_id] at hfind
  obtain ⟨db₂, state, hstate⟩ := @participate_isOk db₁ (sendCaller ctx) mint.ownState mint.now
    mint.thread sender hfind
  refine ⟨db₂, ?_⟩
  simp only [createTarget, hcreate, participation, hstate]

theorem handle_target {content : Prompt} {receiver : Option Participant} {sender : AgentId}
    {target : Target} {creator : ColleagueId} {place : Place} {db' : PromptDb}
    (hvalidate : validate ctx db.chat input = .ok (content, receiver, sender))
    (htarget : input.target = some target) (hcreator : ctx.viewer.colleagueId? = some creator)
    (hplace : targetPlace agents ctx db.chat creator target = .ok place) :
    (∀ e, createTarget mint ctx db sender creator place = (db', .error e) →
      handle agents mint ctx db input = (db', .error e)) ∧
    ∀ thread, createTarget mint ctx db sender creator place = (db', .ok thread) →
      handle agents mint ctx db input = deliver mint ctx db' thread content receiver := by
  constructor
  all_goals
    intro _ hcreate
    simp only [handle, hvalidate, resolveOrCreateTarget, htarget, hcreator, hplace, hcreate]

theorem handle_refusal {e : ToolError} (h : (handle agents mint ctx db input).2 = .error e)
    (he : e.isRefusal) :
    (handle agents mint ctx db input).1 = db ∨ Strands agents mint ctx db input := by
  cases hvalidate : validate ctx db.chat input with
  | error e' => exact .inl (by simp only [handle, hvalidate])
  | ok validated =>
    obtain ⟨content, receiver, sender⟩ := validated
    have hreceiver := validate_receiver hvalidate
    cases htarget : input.target with
    | none =>
      simp only [handle, hvalidate, resolveOrCreateTarget, htarget] at h ⊢
      cases hthread : ctx.threadId with
      | none => exact .inl rfl
      | some thread =>
        simp only [hthread] at h ⊢
        exact .inl (deliver_refusal h he hreceiver).1
    | some target =>
      cases hcreator : ctx.viewer.colleagueId? with
      | none =>
        exact .inl (by simp only [handle, hvalidate, resolveOrCreateTarget, htarget, hcreator])
      | some creator =>
        cases hplace : targetPlace agents ctx db.chat creator target with
        | error e' =>
          exact .inl (by
            simp only [handle, hvalidate, resolveOrCreateTarget, htarget, hcreator, hplace])
        | ok place =>
          rcases hcreate : createTarget mint ctx db sender creator place with ⟨db₁, created⟩
          obtain ⟨hfails, hgoes⟩ := @handle_target agents mint ctx db input content receiver sender
            target creator place db₁ hvalidate htarget hcreator hplace
          cases created with
          | error e' =>
            rw [hfails _ hcreate] at h
            cases h
            rw [createTarget_refusal (congrArg Prod.snd hcreate)] at he
            cases he
          | ok thread =>
            rw [hgoes _ hcreate] at h
            obtain ⟨rfl, hmember, hadded⟩ := createTarget_ok hcreate
            obtain ⟨-, colleague, user, rfl, hgate⟩ := deliver_refusal h he hreceiver
            have hrow := isChannelMember_added hadded user
            rw [targetRow_id, hgate] at hrow
            have hfresh : db.chat.threads.find? (key (targetRow mint ctx creator place)) = none :=
              Table.insert?_isSome.mp (Option.isSome_iff_exists.mpr ⟨_, hadded.threads⟩)
            rw [targetRow_key] at hfresh
            exact .inr ⟨content, colleague, user, sender, target, creator, place, hvalidate,
              htarget, hcreator, hplace, hmember, hadded.keys, hfresh, (Except.ok.inj hrow).symm⟩

theorem handle_strands (h : Strands agents mint ctx db input) :
    (handle agents mint ctx db input).2 =
        .error (.invalidInput "send_message: recipient is not a member of this channel") ∧
      ((handle agents mint ctx db input).1.chat.threads.find? mint.thread).isSome := by
  obtain ⟨content, colleague, user, sender, target, creator, place, hvalidate, htarget, hcreator,
    hplace, hmember, hkeys, hfresh, hblind⟩ := h
  obtain ⟨db₁, hcreate⟩ := @createTarget_isOk mint ctx db sender creator place hmember hkeys hfresh
  obtain ⟨-, -, hadded⟩ := createTarget_ok hcreate
  have hgate := isChannelMember_added hadded user
  rw [targetRow_id, hblind] at hgate
  have hdeliver : deliver mint ctx db₁ mint.thread content (some (.human colleague user)) =
      (db₁, .error (.invalidInput "send_message: recipient is not a member of this channel")) := by
    simp only [deliver, deliverToHuman, hgate]
  rw [(handle_target hvalidate htarget hcreator hplace).2 _ hcreate, hdeliver]
  have hfind := Table.find?_of_mem ((Table.mem_insert? hadded.threads).mpr (.inr rfl))
  rw [targetRow_key] at hfind
  exact ⟨rfl, by rw [hfind]; rfl⟩

/-- A refused call leaves no trace, unless it is refused for a human at a target of its own. -/
theorem untraced_iff (agents : Table ChannelAgentMemberRow) (mint : SendMint)
    (ctx : ToolCallContext) (db : PromptDb) (input : SendMessageInput) :
    Untraced agents mint ctx db input ↔ ¬ Strands agents mint ctx db input := by
  constructor
  · intro h hstrands
    obtain ⟨herror, hthread⟩ := handle_strands hstrands
    have hsame := h _ herror (by decide)
    obtain ⟨-, -, -, -, -, -, -, -, -, -, -, -, -, hfresh, -⟩ := hstrands
    rw [hsame, hfresh] at hthread
    cases hthread
  · intro hstrands e h he
    exact (handle_refusal h he).resolve_right hstrands

end

namespace Outsider

def atWork : ToolCallContext where
  orgId := 1
  actingUserId := 10
  threadId := some 5
  viewer := .agent 22 30
  rootRequestId := 30
  requestId := 30

def aside : SendMessageInput := ⟨some 21, "hi bob", some (.dm 20)⟩

def minted : SendMint := ⟨6, 41, 50, 51, 31, 0⟩

end Outsider

/-- Bob does not see the new conversation, which stays. -/
theorem aside_strands :
    (∃ e, (handle .empty Outsider.minted Outsider.atWork Http.Sample.workspace Outsider.aside).2 =
        .error e ∧ e.isRefusal) ∧
      (Http.Sample.workspace.chat.threads.find? 6).isNone ∧
      ((handle .empty Outsider.minted Outsider.atWork Http.Sample.workspace
        Outsider.aside).1.chat.threads.find? 6).isSome ∧
      ((handle .empty Outsider.minted Outsider.atWork Http.Sample.workspace
        Outsider.aside).1.participations.find? (6, 30)).isSome ∧
      ¬ Untraced .empty Outsider.minted Outsider.atWork Http.Sample.workspace Outsider.aside := by
  have hthread : ((handle .empty Outsider.minted Outsider.atWork Http.Sample.workspace
      Outsider.aside).1.chat.threads.find? 6).isSome := by decide +kernel
  have herror : (handle .empty Outsider.minted Outsider.atWork Http.Sample.workspace
      Outsider.aside).2 =
        .error (.invalidInput "send_message: recipient is not a member of this channel") := by
    rfl
  refine ⟨⟨_, herror, by decide⟩, by decide +kernel, hthread, by decide +kernel, fun h => ?_⟩
  rw [h _ herror (by decide)] at hthread
  revert hthread
  decide +kernel

end Patom.Tools
