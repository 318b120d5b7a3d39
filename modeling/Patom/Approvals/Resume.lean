import Patom.Approvals.Store
import Patom.Runtime.Dag
import Patom.Threads.Store
import Patom.TypesLaws

/-! A call of the resume after a decision: four transactions of its own, after any of which it
may stop. -/

open Patom.Foundation
open Patom.Provider (ChatMessage UserContent)
open Patom.Runtime (bumpDags bumpOrFail bumpOrFail_ok bumpOrFail_queue Colleague enqueueTrigger
  enqueueTrigger_cases findByIdempotencyKey IdempotencyKey NewTrigger PromptError PromptRequestId
  resolveAgentColleague)
open Patom.Threads (appendMessage appendMessage_existing appendMessage_fresh findMessageByKey
  NewThreadMessage resolveParticipation resolveParticipation_existing resolveParticipation_missing
  resolveParticipation_some ThreadDb ThreadError ThreadHeader)

namespace Patom.Approvals

structure DirectoryEntry where
  userId : Option UserId
  displayName : String

structure World where
  threads : ThreadDb
  queue : Runtime.Db

inductive ResumePc
  | begun
  | participating (state : AgentThreadId)
  | noted (state : AgentThreadId) (note : ThreadMessageId)
  | bumped (state : AgentThreadId) (note : ThreadMessageId) (paid : Bool)

structure Attempt where
  id : Uuid
  record : PendingApproval
  decidedBy : ColleagueId
  actingUser : UserId
  deciderName : String
  label : String
  pc : ResumePc

instance : Keyed Attempt Uuid := ⟨(·.id)⟩

inductive ResumeAct
  | participate (state : AgentThreadId) (now : Time)
  | note (message : ThreadMessageId) (now : Time)
  | bump (fault : Bool)
  | enqueue (request : PromptRequestId) (now : Time)

inductive Progress
  | running (pc : ResumePc)
  | returned (result : Except ApprovalError PromptRequestId)

def ResumePc.rank : ResumePc → Nat
  | .begun => 0
  | .participating _ => 1
  | .noted _ _ => 2
  | .bumped _ _ _ => 3

def Progress.rank : Progress → Nat
  | .running pc => pc.rank
  | .returned _ => 4

def resumeLabel : ApprovalStatus → Except ApprovalError String
  | .approved => .ok "approved"
  | .denied => .ok "denied"
  | .pending | .expired => .error (.backend "resume called on an unresolved approval")

def startResume (readColleague : ColleagueId → Except String DirectoryEntry) (id : Uuid)
    (record : PendingApproval) : Except ApprovalError Attempt := do
  let decidedBy ← match record.decidedByColleague with
    | some c => .ok c
    | none => .error (.backend "resume called on a non-decided approval")
  let label ← resumeLabel record.status
  let decider ← (readColleague decidedBy).mapError fun e =>
    ApprovalError.backend ("resume: read decider: " ++ e)
  match decider.userId with
  | none => .error (.backend "resume: decider colleague has no user")
  | some actingUser =>
    .ok ⟨id, record, decidedBy, actingUser, decider.displayName, label, .begun⟩

def noteKey (record : PendingApproval) : Except ParseError IdempotencyKey :=
  IdempotencyKey.tryFrom ("apv-note-" ++ record.id.display)

def resumeKey (record : PendingApproval) : Except ParseError IdempotencyKey :=
  IdempotencyKey.tryFrom ("apv-resume-" ++ record.id.display)

def Attempt.noteMessage (a : Attempt) (k : IdempotencyKey) : NewThreadMessage where
  kind := .systemNote
  sender := none
  ownerAgentId := some a.record.requestingAgentId
  body := .user [.text ("APPROVAL " ++ a.label ++ " for: " ++ a.record.actionSummary.asStr ++
    ". Decided by " ++ a.deciderName ++ ".")]
  receiver := none
  requestId := some a.record.rootRequestId
  idempotencyKey := some k

def Attempt.trigger (a : Attempt) (state : AgentThreadId) (note : ThreadMessageId)
    (k : IdempotencyKey) : NewTrigger where
  orgId := a.record.orgId
  actingUserId := a.actingUser
  threadId := some a.record.threadId
  stateId := some state
  backgroundTurnId := none
  senderColleagueId := a.decidedBy
  receiverAgentId := a.record.requestingAgentId
  rootRequestId := some a.record.rootRequestId
  triggerMessageId := some note
  idempotencyKey := k
  kindPayload := .normal

section Steps

variable (w : World) (a : Attempt)

def stepParticipate (state : AgentThreadId) (now : Time) : World × Except ApprovalError AgentThreadId :=
  match resolveParticipation state now a.record.threadId a.record.requestingAgentId w.threads with
  | .ok (threads, state) => ({ w with threads }, .ok state)
  | .error e => (w, .error (.backend ("resume: participation: " ++ e.display)))

def stepNote (message : ThreadMessageId) (now : Time) : World × Except ApprovalError ThreadMessageId :=
  match noteKey a.record with
  | .error e => (w, .error (.parse e))
  | .ok k =>
    let (threads, note) :=
      appendMessage message now a.record.orgId a.record.threadId (a.noteMessage k) w.threads
    ({ w with threads },
      note.mapError fun e => .backend ("resume: append note: " ++ e.display))

/-- A bump that is refused or fails is logged, and the call goes on. -/
def stepBump (fault : Bool) : World × Bool :=
  if fault then (w, false)
  else
    match bumpOrFail a.record.rootRequestId w.queue with
    | .ok (queue, _) => ({ w with queue }, true)
    | .error _ => (w, false)

def stepEnqueue (colleagues : Table Colleague) (state : AgentThreadId) (note : ThreadMessageId)
    (request : PromptRequestId) (now : Time) : World × Except ApprovalError PromptRequestId :=
  match resumeKey a.record with
  | .error e => (w, .error (.parse e))
  | .ok k =>
    match enqueueTrigger colleagues request now (a.trigger state note k) w.queue with
    | .ok (queue, id) => ({ w with queue }, .ok id)
    | .error e => (w, .error (.backend ("resume: enqueue: " ++ e.display)))

def Progress.ofExcept {α : Type} (pc : α → ResumePc) : Except ApprovalError α → Progress
  | .ok x => .running (pc x)
  | .error e => .returned (.error e)

def resumeStep (colleagues : Table Colleague) : ResumeAct → Option (World × Progress)
  | .participate state now =>
    match a.pc with
    | .begun =>
      let (w, state) := stepParticipate w a state now
      some (w, .ofExcept .participating state)
    | _ => none
  | .note message now =>
    match a.pc with
    | .participating state =>
      if (w.threads.threadMessages.find? message).isSome then none
      else
        let (w, note) := stepNote w a message now
        some (w, .ofExcept (.noted state) note)
    | _ => none
  | .bump fault =>
    match a.pc with
    | .noted state note =>
      let (w, paid) := stepBump w a fault
      some (w, .running (.bumped state note paid))
    | _ => none
  | .enqueue request now =>
    match a.pc with
    | .bumped state note _ =>
      if (w.queue.promptRequests.find? request).isSome then none
      else
        let (w, result) := stepEnqueue w a colleagues state note request now
        some (w, .returned result)
    | _ => none

end Steps

def settleAttempt (a : Attempt) (attempts : Table Attempt) : Progress → Table Attempt
  | .running pc => attempts.put { a with pc }
  | .returned _ => attempts.delete fun b => b.id = a.id

theorem keyOfId_ok {label : String} (hlabel : label.utf8ByteSize + 36 ≤ Runtime.MAX_IDEMPOTENCY_KEY_BYTES)
    (id : Uuid) : ∃ k, IdempotencyKey.tryFrom (label ++ id.display) = .ok k := by
  have hsize : (label ++ id.display).utf8ByteSize = label.utf8ByteSize + 36 := by simp
  have hne : label ++ id.display ≠ "" := fun e => by
    rw [e] at hsize
    simp at hsize
  exact ⟨_, by rw [IdempotencyKey.tryFrom, dif_neg hne, dif_pos (hsize ▸ hlabel)]⟩

theorem noteKey_ok (record : PendingApproval) : ∃ k, noteKey record = .ok k :=
  keyOfId_ok (by decide) record.id

theorem resumeKey_ok (record : PendingApproval) : ∃ k, resumeKey record = .ok k :=
  keyOfId_ok (by decide) record.id

variable {colleagues : Table Colleague} {w : World} {a : Attempt}

theorem stepBump_world (w : World) (a : Attempt) (fault : Bool) :
    (stepBump w a fault).1 =
      if fault then w
      else { w with queue := { w.queue with
        promptRequestDags := bumpDags a.record.rootRequestId w.queue.promptRequestDags } } := by
  unfold stepBump
  cases fault with
  | true => rfl
  | false =>
    have hqueue := bumpOrFail_queue a.record.rootRequestId w.queue
    simp only [Bool.false_eq_true, if_false]
    rw [← hqueue]
    cases bumpOrFail a.record.rootRequestId w.queue with
    | ok r => rfl
    | error e => rfl

def Participates (w : World) (record : PendingApproval) (state : AgentThreadId) : Prop :=
  (w.threads.agentThreadState.find? (record.threadId, record.requestingAgentId)).map (·.id) = some state

def Noted (w : World) (record : PendingApproval) (note : ThreadMessageId) : Prop :=
  ∃ k, noteKey record = .ok k ∧ (findMessageByKey w.threads record.orgId k).map (·.id) = some note

def Triggered (colleagues : Table Colleague) (w : World) (record : PendingApproval) : Prop :=
  (∃ e, resolveAgentColleague colleagues record.orgId record.requestingAgentId = .error e) ∨
    ∃ k, resumeKey record = .ok k ∧ (findByIdempotencyKey w.queue record.orgId k).isSome

def OwnThread (w : World) (record : PendingApproval) : Prop :=
  ∃ t, w.threads.threads.find? record.threadId = some t ∧ t.orgId = record.orgId

theorem participate_missing (h : w.threads.threads.find? a.record.threadId = none)
    (id : AgentThreadId) (now : Time) : ∃ e, stepParticipate w a id now = (w, .error e) := by
  simp only [stepParticipate, resolveParticipation_missing h]
  exact ⟨_, rfl⟩

theorem participate_first (h : OwnThread w a.record) (id : AgentThreadId) (now : Time) :
    ∃ states state, stepParticipate w a id now =
        ({ w with threads := { w.threads with agentThreadState := states } }, .ok state) ∧
      (states.find? (a.record.threadId, a.record.requestingAgentId)).map (·.id) = some state := by
  obtain ⟨t, ht, -⟩ := h
  obtain ⟨states, row, hresolve, hrow⟩ := @resolveParticipation_some _ _ id now
    a.record.requestingAgentId t ht
  refine ⟨states, row.id, ?_, by rw [hrow]; rfl⟩
  simp only [stepParticipate, hresolve]

theorem participate_again (h : OwnThread w a.record) {state : AgentThreadId}
    (hstate : Participates w a.record state) (id : AgentThreadId) (now : Time) :
    stepParticipate w a id now = (w, .ok state) := by
  obtain ⟨t, ht, -⟩ := h
  obtain ⟨row, hrow, rfl⟩ := Option.map_eq_some_iff.mp hstate
  simp only [stepParticipate, resolveParticipation_existing ht hrow]

theorem note_first (h : OwnThread w a.record) {id : ThreadMessageId}
    (hid : w.threads.threadMessages.find? id = none) (now : Time) :
    ∃ seqs messages note, stepNote w a id now = ({ w with threads :=
        { w.threads with threadSeq := seqs, threadMessages := messages } }, .ok note) ∧
      ∃ k, noteKey a.record = .ok k ∧ (messages.rows.find? fun r =>
        r.orgId = a.record.orgId && r.idempotencyKey = some k).map (·.id) = some note := by
  obtain ⟨t, ht, horg⟩ := h
  obtain ⟨k, hk⟩ := noteKey_ok a.record
  cases hrow : findMessageByKey w.threads a.record.orgId k with
  | some row =>
    obtain ⟨seqs, happend⟩ := @appendMessage_existing _ _ _ (a.noteMessage k) k id now t ht horg rfl
      row hrow
    refine ⟨seqs, w.threads.threadMessages, row.id, ?_, k, hk, ?_⟩
    · simp only [stepNote, hk, happend]
      rfl
    · exact congrArg (Option.map (·.id)) hrow
  | none =>
    obtain ⟨seqs, messages, row, happend, -, hrowId, hfind⟩ :=
      @appendMessage_fresh _ _ _ (a.noteMessage k) k id now t ht horg rfl hrow hid
    refine ⟨seqs, messages, id, ?_, k, hk, ?_⟩
    · simp only [stepNote, hk, happend]
      rfl
    · rw [hfind, Option.map_some, hrowId]

theorem note_again (h : OwnThread w a.record) {note : ThreadMessageId} (hnote : Noted w a.record note)
    (id : ThreadMessageId) (now : Time) : ∃ seqs,
      stepNote w a id now = ({ w with threads := { w.threads with threadSeq := seqs } }, .ok note) := by
  obtain ⟨t, ht, horg⟩ := h
  obtain ⟨k, hk, hmap⟩ := hnote
  obtain ⟨row, hrow, rfl⟩ := Option.map_eq_some_iff.mp hmap
  obtain ⟨seqs, happend⟩ := @appendMessage_existing _ _ _ (a.noteMessage k) k id now t ht horg rfl
    row hrow
  refine ⟨seqs, ?_⟩
  simp only [stepNote, hk, happend]
  rfl

section Enqueue

variable {state : AgentThreadId} {note : ThreadMessageId} {request : PromptRequestId} {now : Time}

theorem enqueue_frame (w : World) (a : Attempt) (state : AgentThreadId) (note : ThreadMessageId)
    (request : PromptRequestId) (now : Time) :
    (stepEnqueue w a colleagues state note request now).1.threads = w.threads ∧
      (stepEnqueue w a colleagues state note request now).1.queue.promptRequestDags =
        w.queue.promptRequestDags := by
  obtain ⟨k, hk⟩ := resumeKey_ok a.record
  simp only [stepEnqueue, hk]
  cases henqueue : enqueueTrigger colleagues request now (a.trigger state note k) w.queue with
  | error e => exact ⟨rfl, rfl⟩
  | ok r =>
    obtain ⟨queue, id⟩ := r
    refine ⟨rfl, ?_⟩
    obtain ⟨-, -, rfl, -⟩ | ⟨-, row, hrow⟩ := enqueueTrigger_cases henqueue
    · rfl
    · exact hrow.dags

theorem enqueue_first (w : World) (a : Attempt) (state : AgentThreadId) (note : ThreadMessageId)
    (hfresh : w.queue.promptRequests.find? request = none) :
    Triggered colleagues (stepEnqueue w a colleagues state note request now).1 a.record := by
  obtain ⟨k, hk⟩ := resumeKey_ok a.record
  simp only [stepEnqueue, hk]
  cases henqueue : enqueueTrigger colleagues request now (a.trigger state note k) w.queue with
  | ok r => exact .inr ⟨k, hk, Runtime.findByIdempotencyKey_enqueued henqueue⟩
  | error e => exact .inl (Runtime.enqueueTrigger_error hfresh (by simp [Attempt.trigger]) rfl henqueue)

theorem enqueue_again (h : Triggered colleagues w a.record) :
    (stepEnqueue w a colleagues state note request now).1 = w := by
  obtain ⟨k, hk⟩ := resumeKey_ok a.record
  simp only [stepEnqueue, hk]
  obtain ⟨e, he⟩ | ⟨k', hk', htaken⟩ := h
  · rw [Runtime.enqueueTrigger_unmapped he]
  · obtain rfl : k' = k := Except.ok.inj (hk'.symm.trans hk)
    cases henqueue : enqueueTrigger colleagues request now (a.trigger state note k') w.queue with
    | error e => rfl
    | ok r =>
      obtain ⟨queue, id⟩ := r
      obtain ⟨-, -, rfl, -⟩ | ⟨-, row, hrow⟩ := enqueueTrigger_cases henqueue
      · rfl
      · rw [show findByIdempotencyKey w.queue a.record.orgId k' = none from hrow.unseen] at htaken
        cases htaken

theorem enqueue_congr {w' : World} (h : w.queue.promptRequests = w'.queue.promptRequests) :
    (stepEnqueue w a colleagues state note request now).1.queue.promptRequests =
      (stepEnqueue w' a colleagues state note request now).1.queue.promptRequests := by
  obtain ⟨k, hk⟩ := resumeKey_ok a.record
  simp only [stepEnqueue, hk]
  have hsame := @Runtime.enqueueTrigger_inherited colleagues request now (a.trigger state note k)
    a.record.rootRequestId rfl w.queue w'.queue h
  cases henqueue : enqueueTrigger colleagues request now (a.trigger state note k) w.queue <;>
    cases henqueue' : enqueueTrigger colleagues request now (a.trigger state note k) w'.queue <;>
    simp_all [Except.map]

end Enqueue

theorem mem_settleAttempt {b c : Attempt} {attempts : Table Attempt} {p : Progress}
    (h : c ∈ settleAttempt b attempts p) : (∃ pc, p = .running pc ∧ c = { b with pc }) ∨ c ∈ attempts := by
  cases p with
  | running pc => exact (Table.mem_put.mp h).imp (fun e => ⟨pc, rfl, e⟩) And.left
  | returned r => exact .inr (Table.mem_delete.mp h).1

theorem find?_settleAttempt {b : Attempt} {attempts : Table Attempt} {pc : ResumePc} :
    (settleAttempt b attempts (.running pc)).find? b.id = some { b with pc } := by
  rw [settleAttempt, Table.find?_put]
  exact if_pos rfl

end Patom.Approvals
