import Patom.AgentCore.Dispatch
import Patom.Approvals.Resume
import Patom.Runtime.Dag
import Patom.Scheduling.Store
import Patom.Threads.Store
import Patom.TypesLaws

/-! A message from one agent to another: the post and the receiver's participation, in either
order, then a unit of the root's budget, then the trigger. -/

open Patom.AgentCore (ToolCallContext)
open Patom.Approvals (World)
open Patom.Foundation
open Patom.Runtime (bumpDags bumpOrFail Colleague Enqueued enqueueTrigger enqueueTrigger_fresh
  findByIdempotencyKey IdempotencyKey NewTrigger PromptError PromptRequest PromptRequestId
  resolveAgentColleague)
open Patom.Scheduling (PROMPT_MAX_BYTES)
open Patom.Threads (appendMessage appendMessage_unkeyed NewThreadMessage resolveParticipation
  resolveParticipation_some ThreadError)

namespace Patom.Tools

structure Prompt where
  asStr : String
  nonempty : trim asStr.toList ≠ []
  bounded : asStr.utf8ByteSize ≤ PROMPT_MAX_BYTES

def Prompt.tryFrom (raw : String) : Except ParseError Prompt :=
  if h : trim raw.toList = [] then .error (.empty "prompt")
  else if h' : raw.utf8ByteSize ≤ PROMPT_MAX_BYTES then .ok ⟨raw, h, h'⟩
  else .error (.tooLong "prompt" PROMPT_MAX_BYTES raw.utf8ByteSize)

inductive ToolError
  | invalidInput (detail : String)
  | backend (detail : String)

structure SendMessageOutput where
  threadId : ThreadId
  requestId : Option PromptRequestId
  delivery : String

inductive SendPc
  | joining (posted : Option (Except ToolError ThreadMessageId))
      (state : Option (Except ToolError AgentThreadId))
  | delivered (posted : ThreadMessageId) (state : AgentThreadId)
  | funded (posted : ThreadMessageId) (state : AgentThreadId)

structure Send where
  id : Uuid
  ctx : ToolCallContext
  thread : ThreadId
  colleagueId : ColleagueId
  agentId : AgentId
  content : Prompt
  pc : SendPc

instance : Keyed Send Uuid := ⟨(·.id)⟩

inductive SendAct
  | post (message : ThreadMessageId) (now : Time)
  | participate (state : AgentThreadId) (now : Time)
  | join
  | bump (fault : Option String)
  | enqueue (request : PromptRequestId) (now : Time)

inductive SendProgress
  | running (pc : SendPc)
  | returned (result : Except ToolError SendMessageOutput)

def startSend (id : Uuid) (ctx : ToolCallContext) (thread : ThreadId) (colleagueId : ColleagueId)
    (agentId : AgentId) (content : Prompt) : Except ToolError Send :=
  match ctx.viewer.agentId? with
  | none => .error (.invalidInput "send_message: caller must be an agent")
  | some _ =>
    if Participant.agent colleagueId agentId = ctx.viewer then
      .error (.invalidInput "send_message: receiver equals caller")
    else .ok ⟨id, ctx, thread, colleagueId, agentId, content, .joining none none⟩

def Send.postedMessage (d : Send) : NewThreadMessage where
  kind := .posted
  sender := d.ctx.viewer.colleagueId?
  ownerAgentId := none
  body := .user [.text d.content.asStr]
  receiver := some d.colleagueId
  requestId := some d.ctx.requestId
  idempotencyKey := none

def Send.key (d : Send) (posted : ThreadMessageId) : Except ParseError IdempotencyKey :=
  IdempotencyKey.tryFrom ("tag:" ++ d.thread.display ++ ":" ++ d.agentId.display ++ ":" ++ posted.display)

def Send.trigger (d : Send) (state : AgentThreadId) (posted : ThreadMessageId) (sender : ColleagueId)
    (k : IdempotencyKey) : NewTrigger where
  orgId := d.ctx.orgId
  actingUserId := d.ctx.actingUserId
  threadId := some d.thread
  stateId := some state
  backgroundTurnId := none
  senderColleagueId := sender
  receiverAgentId := d.agentId
  rootRequestId := some d.ctx.rootRequestId
  triggerMessageId := some posted
  idempotencyKey := k
  kindPayload := .normal

section Steps

variable (w : World) (d : Send)

def sendPost (message : ThreadMessageId) (now : Time) : World × Except ToolError ThreadMessageId :=
  let (threads, posted) := appendMessage message now d.ctx.orgId d.thread d.postedMessage w.threads
  ({ w with threads }, posted.mapError fun e => .backend ("send_message: post failed: " ++ e.display))

def sendParticipate (state : AgentThreadId) (now : Time) : World × Except ToolError AgentThreadId :=
  match resolveParticipation state now d.thread d.agentId w.threads with
  | .ok (threads, state) => ({ w with threads }, .ok state)
  | .error e => (w, .error (.backend ("send_message: resolve participation: " ++ e.display)))

/-- A refused bump rejects the call; the post stays. -/
def bumpDagBudget (fault : Option String) : World × Except ToolError Unit :=
  match fault with
  | some detail =>
    (w, .error (.backend ("send_message: dag bump failed: " ++ (PromptError.db detail).display)))
  | none =>
    match bumpOrFail d.ctx.rootRequestId w.queue with
    | .ok (queue, _) => ({ w with queue }, .ok ())
    | .error e@(.dagBudgetExceeded ..) =>
      (w, .error (.invalidInput ("send_message: dag budget exceeded: " ++ e.display)))
    | .error e => (w, .error (.backend ("send_message: dag bump failed: " ++ e.display)))

def enqueueAgentTrigger (colleagues : Table Colleague) (state : AgentThreadId)
    (posted : ThreadMessageId) (request : PromptRequestId) (now : Time) :
    World × Except ToolError PromptRequestId :=
  match d.ctx.viewer.colleagueId? with
  | none => (w, .error (.backend "send_message: agent caller missing colleague"))
  | some sender =>
    match d.key posted with
    | .error e => (w, .error (.backend ("send_message: bad idempotency: " ++ e.display)))
    | .ok k =>
      match enqueueTrigger colleagues request now (d.trigger state posted sender k) w.queue with
      | .ok (queue, id) => ({ w with queue }, .ok id)
      | .error e => (w, .error (.backend ("send_message: enqueue failed: " ++ e.display)))

def sendJoin : Except ToolError ThreadMessageId → Except ToolError AgentThreadId → SendProgress
  | .error e, _ | .ok _, .error e => .returned (.error e)
  | .ok posted, .ok state => .running (.delivered posted state)

def sendStep (colleagues : Table Colleague) : SendAct → Option (World × SendProgress)
  | .post message now =>
    match d.pc with
    | .joining none state =>
      if (w.threads.threadMessages.find? message).isSome then none
      else
        let (w, posted) := sendPost w d message now
        some (w, .running (.joining (some posted) state))
    | _ => none
  | .participate state now =>
    match d.pc with
    | .joining posted none =>
      let (w, state) := sendParticipate w d state now
      some (w, .running (.joining posted (some state)))
    | _ => none
  | .join =>
    match d.pc with
    | .joining (some posted) (some state) => some (w, sendJoin posted state)
    | _ => none
  | .bump fault =>
    match d.pc with
    | .delivered posted state =>
      match bumpDagBudget w d fault with
      | (w, .ok ()) => some (w, .running (.funded posted state))
      | (w, .error e) => some (w, .returned (.error e))
    | _ => none
  | .enqueue request now =>
    match d.pc with
    | .funded posted state =>
      if (w.queue.promptRequests.find? request).isSome then none
      else
        let (w, result) := enqueueAgentTrigger w d colleagues state posted request now
        some (w, .returned (result.map fun id => ⟨d.thread, some id, "queued"⟩))
    | _ => none

end Steps

def settleSend (d : Send) (sends : Table Send) : SendProgress → Table Send
  | .running pc => sends.put { d with pc }
  | .returned _ => sends.delete fun e => e.id = d.id

def tag (thread : ThreadId) (agent : AgentId) (posted : ThreadMessageId) : String :=
  "tag:" ++ thread.display ++ ":" ++ agent.display ++ ":" ++ posted.display

@[simp] theorem utf8ByteSize_tag (thread : ThreadId) (agent : AgentId) (posted : ThreadMessageId) :
    (tag thread agent posted).utf8ByteSize = 114 := by
  simp only [tag, String.utf8ByteSize_append, Uuid.utf8ByteSize_display]
  rfl

theorem tag_injective {thread : ThreadId} {agent : AgentId} {posted posted' : ThreadMessageId}
    (h : tag thread agent posted = tag thread agent posted') : posted = posted' :=
  Uuid.display_injective ((String.append_right_inj _).mp h)

theorem Send.key_ok (d : Send) (posted : ThreadMessageId) :
    ∃ k, d.key posted = .ok k ∧ k.asStr = tag d.thread d.agentId posted := by
  have hsize := utf8ByteSize_tag d.thread d.agentId posted
  have hne : tag d.thread d.agentId posted ≠ "" := fun e => by
    rw [e] at hsize
    simp at hsize
  have hle : (tag d.thread d.agentId posted).utf8ByteSize ≤ Runtime.MAX_IDEMPOTENCY_KEY_BYTES := by
    rw [hsize]
    decide
  refine ⟨⟨tag d.thread d.agentId posted, hne, hle⟩, ?_, rfl⟩
  rw [Send.key, IdempotencyKey.tryFrom]
  exact (dif_neg hne).trans (dif_pos hle)

structure Deliverable (colleagues : Table Colleague) (w : World) (d : Send)
    (message : ThreadMessageId) (request : PromptRequestId) : Prop where
  begun : d.pc = .joining none none
  thread : (w.threads.threads.find? d.thread).isSome
  unposted : w.threads.threadMessages.find? message = none
  sender : d.ctx.viewer.colleagueId?.isSome
  receiver : ∃ c, resolveAgentColleague colleagues d.ctx.orgId d.agentId = .ok c
  budget : ∃ dag, w.queue.promptRequestDags.find? d.ctx.rootRequestId = some dag ∧
    dag.turnsUsed < dag.turnsCap
  unseen : ∀ r ∈ w.queue.promptRequests, r.idempotencyKey.asStr ≠ tag d.thread d.agentId message
  fresh : w.queue.promptRequests.find? request = none

variable {colleagues : Table Colleague} {w : World} {d : Send} {message : ThreadMessageId}
  {request : PromptRequestId}

theorem Deliverable.delivers (h : Deliverable colleagues w d message request) (id : AgentThreadId)
    (now : Time) :
    ∃ w₁ w₂ w₃ w₄ state result trig row,
      sendStep w d colleagues (.post message now) =
        some (w₁, .running (.joining (some (.ok message)) none)) ∧
      sendStep w₁ { d with pc := .joining (some (.ok message)) none } colleagues (.participate id now) =
        some (w₂, .running (.joining (some (.ok message)) (some (.ok state)))) ∧
      sendStep w₂ { d with pc := .joining (some (.ok message)) (some (.ok state)) } colleagues .join =
        some (w₂, .running (.delivered message state)) ∧
      sendStep w₂ { d with pc := .delivered message state } colleagues (.bump none) =
        some (w₃, .running (.funded message state)) ∧
      sendStep w₃ { d with pc := .funded message state } colleagues (.enqueue request now) =
        some (w₄, .returned result) ∧
      w₄.threads.threads = w.threads.threads ∧
      (∀ m ∈ w₄.threads.threadMessages, m.id = message ∨ m ∈ w.threads.threadMessages) ∧
      w₃.queue.promptRequests = w.queue.promptRequests ∧
      w₃.queue.promptRequestDags = bumpDags d.ctx.rootRequestId w.queue.promptRequestDags ∧
      trig.rootRequestId = some d.ctx.rootRequestId ∧
      trig.idempotencyKey.asStr = tag d.thread d.agentId message ∧
      Enqueued request now trig w₃.queue w₄.queue row := by
  obtain ⟨t, ht⟩ := Option.isSome_iff_exists.mp h.thread
  obtain ⟨sender, hsender⟩ := Option.isSome_iff_exists.mp h.sender
  obtain ⟨c, hc⟩ := h.receiver
  obtain ⟨dag, hdag, hleft⟩ := h.budget
  obtain ⟨k, hk, hkey⟩ := d.key_ok message
  obtain ⟨seqs, messages, posted, happend, hinsert, hposted⟩ :=
    @appendMessage_unkeyed w.threads d.thread d.ctx.orgId d.postedMessage message now t ht rfl h.unposted
  obtain ⟨states, state, hresolve, -⟩ := @resolveParticipation_some
    { w.threads with threadSeq := seqs, threadMessages := messages } d.thread id now d.agentId t ht
  let queue : Runtime.Db :=
    { w.queue with promptRequestDags := bumpDags d.ctx.rootRequestId w.queue.promptRequestDags }
  have hbump : bumpOrFail d.ctx.rootRequestId w.queue =
      .ok (queue, ⟨dag.turnsUsed + 1, dag.turnsCap⟩) := by
    simp only [bumpOrFail, hdag, hleft, if_true, queue]
  have hunseen : findByIdempotencyKey queue d.ctx.orgId k = none := by
    refine List.find?_eq_none.mpr fun r hr hmatch => h.unseen r hr ?_
    have hmatch : r.idempotencyKey = k := by simpa using And.right (by simpa using hmatch)
    rw [hmatch, hkey]
  obtain ⟨queue', row, henqueue, hrow⟩ := @enqueueTrigger_fresh colleagues request now
    (d.trigger state.id message sender k) queue c hc hunseen h.fresh (by simp [Send.trigger]) rfl
  let threads : Threads.ThreadDb :=
    { w.threads with threadSeq := seqs, threadMessages := messages, agentThreadState := states }
  refine ⟨⟨{ w.threads with threadSeq := seqs, threadMessages := messages }, w.queue⟩,
    ⟨threads, w.queue⟩, ⟨threads, queue⟩, ⟨threads, queue'⟩, state.id,
    .ok ⟨d.thread, some request, "queued"⟩, d.trigger state.id message sender k, row, ?_, ?_, ?_, ?_, ?_,
    rfl, fun m hm => ?_, rfl, rfl, rfl, ?_, hrow⟩
  · simp only [sendStep, h.begun, h.unposted, Option.isSome_none, Bool.false_eq_true, if_false, sendPost,
      happend, Except.mapError]
  · simp only [sendStep, sendParticipate, hresolve, threads]
  · rfl
  · simp only [sendStep, bumpDagBudget, hbump]
  · have hfresh : queue.promptRequests.find? request = none := h.fresh
    have henqueue' : enqueueAgentTrigger ⟨threads, queue⟩ { d with pc := .funded message state.id }
        colleagues state.id message request now = (⟨threads, queue'⟩, .ok request) := by
      have hk' : Send.key { d with pc := .funded message state.id } message = .ok k := hk
      have htrigger : Send.trigger { d with pc := .funded message state.id } state.id message sender k =
          d.trigger state.id message sender k := rfl
      simp only [enqueueAgentTrigger, hsender, hk', htrigger, henqueue]
    simp only [sendStep, hfresh, Option.isSome_none, Bool.false_eq_true, if_false, henqueue']
    rfl
  · rcases (Table.mem_insert? hinsert).mp hm with hm | rfl
    · exact .inr hm
    · exact .inl hposted
  · exact hkey

end Patom.Tools
