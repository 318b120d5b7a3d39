import Patom.Foundation.Table
import Patom.Runtime.Types
import Patom.Threads.Feed

open Patom.Foundation
open Patom.Runtime (IdempotencyKey PromptRequestId)

namespace Patom.Threads

inductive ThreadError
  | notFound (id : ThreadId)
  | backend (detail : String)
  | db (constraint : String)
  deriving DecidableEq

def ThreadError.display : ThreadError → String
  | .notFound id => "thread " ++ id.debug "ThreadId" ++ " not found"
  | .backend detail => "thread store backend error: " ++ detail
  | .db constraint => "thread store db error: " ++ constraint

structure ThreadHeader where
  id : ThreadId
  orgId : OrgId

structure AgentThreadState where
  id : AgentThreadId
  threadId : ThreadId
  agentId : AgentId
  orgId : OrgId
  createdAt : Time

structure ThreadSeq where
  threadId : ThreadId
  nextSeq : Seq

structure NewThreadMessage extends NewMessage where
  receiver : Option ColleagueId
  requestId : Option PromptRequestId
  idempotencyKey : Option IdempotencyKey

structure ThreadMessageRow extends NewThreadMessage where
  id : ThreadMessageId
  threadId : ThreadId
  orgId : OrgId
  seq : Seq
  createdAt : Time

instance : Keyed ThreadHeader ThreadId := ⟨(·.id)⟩
instance : Keyed AgentThreadState (ThreadId × AgentId) := ⟨fun r => (r.threadId, r.agentId)⟩
instance : Keyed ThreadSeq ThreadId := ⟨(·.threadId)⟩
instance : Keyed ThreadMessageRow ThreadMessageId := ⟨(·.id)⟩

structure ThreadDb where
  threads : Table ThreadHeader
  agentThreadState : Table AgentThreadState
  threadSeq : Table ThreadSeq
  threadMessages : Table ThreadMessageRow

def ThreadDb.empty : ThreadDb := ⟨.empty, .empty, .empty, .empty⟩

def resolveParticipation (id : AgentThreadId) (now : Time) (thread : ThreadId) (agent : AgentId)
    (db : ThreadDb) : Except ThreadError (ThreadDb × AgentThreadId) :=
  match db.threads.find? thread with
  | none => .error (.notFound thread)
  | some t =>
    match db.agentThreadState.find? (thread, agent) with
    | some row => .ok (db, row.id)
    | none =>
      let row : AgentThreadState := ⟨id, thread, agent, t.orgId, now⟩
      .ok ({ db with agentThreadState := db.agentThreadState.put row }, id)

def bumpedThreadSeq (thread : ThreadId) (seqs : Table ThreadSeq) : Seq :=
  ((seqs.find? thread).map (·.nextSeq)).getD 0 + 1

def findMessageByKey (db : ThreadDb) (org : OrgId) (k : IdempotencyKey) : Option ThreadMessageRow :=
  db.threadMessages.rows.find? fun r => r.orgId = org && r.idempotencyKey = some k

def appendMessage (id : ThreadMessageId) (now : Time) (org : OrgId) (thread : ThreadId)
    (new : NewThreadMessage) (db : ThreadDb) : ThreadDb × Except ThreadError ThreadMessageId :=
  let winner := match new.idempotencyKey.bind (findMessageByKey db org) with
    | some existing => .ok existing.id
    | none => .error (.notFound thread)
  match db.threads.find? thread with
  | none => (db, winner)
  | some t =>
    let seq := bumpedThreadSeq thread db.threadSeq
    let threadSeq := db.threadSeq.put ⟨thread, seq⟩
    if (new.idempotencyKey.bind (findMessageByKey db t.orgId)).isSome then
      ({ db with threadSeq }, winner)
    else
      let row : ThreadMessageRow :=
        { new with id, threadId := thread, orgId := t.orgId, seq, createdAt := now }
      match db.threadMessages.insert? row with
      | none => (db, .error (.db "thread_messages_id_key"))
      | some threadMessages => ({ db with threadSeq, threadMessages }, .ok id)

variable {db db' : ThreadDb} {thread : ThreadId}

theorem resolveParticipation_missing {id : AgentThreadId} {now : Time} {agent : AgentId}
    (h : db.threads.find? thread = none) :
    resolveParticipation id now thread agent db = .error (.notFound thread) := by
  rw [resolveParticipation, h]

theorem resolveParticipation_existing {id : AgentThreadId} {now : Time} {agent : AgentId}
    {t : ThreadHeader} (ht : db.threads.find? thread = some t) {row : AgentThreadState}
    (h : db.agentThreadState.find? (thread, agent) = some row) :
    resolveParticipation id now thread agent db = .ok (db, row.id) := by
  simp only [resolveParticipation, ht, h]

theorem resolveParticipation_some {id : AgentThreadId} {now : Time} {agent : AgentId}
    {t : ThreadHeader} (ht : db.threads.find? thread = some t) :
    ∃ states row, resolveParticipation id now thread agent db =
        .ok ({ db with agentThreadState := states }, row.id) ∧
      states.find? (thread, agent) = some row := by
  cases hrow : db.agentThreadState.find? (thread, agent) with
  | some row => exact ⟨db.agentThreadState, row, resolveParticipation_existing ht hrow, hrow⟩
  | none =>
    let row : AgentThreadState := ⟨id, thread, agent, t.orgId, now⟩
    refine ⟨db.agentThreadState.put row, row, ?_, ?_⟩
    · simp only [resolveParticipation, ht, hrow, row]
    · rw [Table.find?_put]
      exact if_pos rfl

variable {org : OrgId} {new : NewThreadMessage} {k : IdempotencyKey}

theorem appendMessage_existing {id : ThreadMessageId} {now : Time} {t : ThreadHeader}
    (ht : db.threads.find? thread = some t) (horg : t.orgId = org) (hk : new.idempotencyKey = some k)
    {row : ThreadMessageRow} (h : findMessageByKey db org k = some row) :
    ∃ seqs, appendMessage id now org thread new db = ({ db with threadSeq := seqs }, .ok row.id) := by
  refine ⟨db.threadSeq.put ⟨thread, bumpedThreadSeq thread db.threadSeq⟩, ?_⟩
  simp only [appendMessage, ht, hk, Option.bind_some, horg, h, Option.isSome_some, if_true]

theorem appendMessage_fresh {id : ThreadMessageId} {now : Time} {t : ThreadHeader}
    (ht : db.threads.find? thread = some t) (horg : t.orgId = org) (hk : new.idempotencyKey = some k)
    (h : findMessageByKey db org k = none) (hid : db.threadMessages.find? id = none) :
    ∃ seqs messages row,
      appendMessage id now org thread new db =
        ({ db with threadSeq := seqs, threadMessages := messages }, .ok id) ∧
      db.threadMessages.insert? row = some messages ∧ row.id = id ∧
      messages.rows.find? (fun r => r.orgId = org && r.idempotencyKey = some k) = some row := by
  let row : ThreadMessageRow :=
    { new with
      id, threadId := thread, orgId := t.orgId, seq := bumpedThreadSeq thread db.threadSeq,
      createdAt := now }
  obtain ⟨messages, hins⟩ := Option.isSome_iff_exists.mp (Table.insert?_isSome.mpr
    (show db.threadMessages.find? (key row) = none from hid))
  refine ⟨db.threadSeq.put ⟨thread, bumpedThreadSeq thread db.threadSeq⟩, messages, row, ?_, hins,
    rfl, ?_⟩
  · simp only [appendMessage, ht, hk, Option.bind_some, horg, h, Option.isSome_none]
    simp only [row, horg] at hins
    simp [hins]
  · have hrow : (row.orgId = org && row.idempotencyKey = some k) = true := by simp [row, horg, hk]
    rw [Table.rows_insert? hins, List.find?_append, List.find?_singleton,
      show db.threadMessages.rows.find? _ = none from h, hrow]
    rfl

theorem appendMessage_unkeyed {id : ThreadMessageId} {now : Time} {t : ThreadHeader}
    (ht : db.threads.find? thread = some t) (hk : new.idempotencyKey = none)
    (hid : db.threadMessages.find? id = none) :
    ∃ seqs messages row,
      appendMessage id now org thread new db =
        ({ db with threadSeq := seqs, threadMessages := messages }, .ok id) ∧
      db.threadMessages.insert? row = some messages ∧ row.id = id := by
  let row : ThreadMessageRow :=
    { new with
      id, threadId := thread, orgId := t.orgId, seq := bumpedThreadSeq thread db.threadSeq,
      createdAt := now }
  obtain ⟨messages, hins⟩ := Option.isSome_iff_exists.mp (Table.insert?_isSome.mpr
    (show db.threadMessages.find? (key row) = none from hid))
  refine ⟨db.threadSeq.put ⟨thread, bumpedThreadSeq thread db.threadSeq⟩, messages, row, ?_, hins, rfl⟩
  simp only [appendMessage, ht, hk, Option.bind_none, Option.isSome_none]
  simp only [row] at hins
  simp [hins]

theorem appendMessage_frame (id : ThreadMessageId) (now : Time) (org : OrgId) (thread : ThreadId)
    (new : NewThreadMessage) (db : ThreadDb) :
    (appendMessage id now org thread new db).1.threads = db.threads
      ∧ (appendMessage id now org thread new db).1.agentThreadState = db.agentThreadState
      ∧ ∀ m ∈ db.threadMessages, m ∈ (appendMessage id now org thread new db).1.threadMessages := by
  unfold appendMessage
  dsimp only
  split
  · exact ⟨rfl, rfl, fun _ hm => hm⟩
  · split
    · exact ⟨rfl, rfl, fun _ hm => hm⟩
    · split
      · exact ⟨rfl, rfl, fun _ hm => hm⟩
      · rename_i hinsert
        exact ⟨rfl, rfl, fun m hm => (Table.mem_insert? hinsert).mpr (.inl hm)⟩

end Patom.Threads
