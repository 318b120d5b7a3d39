import Patom.Memory.Reflection

open Patom.Foundation
open Patom.Threads (NewThreadMessage ThreadDb ThreadMessageRow ThreadSeq appendMessage
  bumpedThreadSeq)

namespace Patom.Memory

variable {db db' : ThreadDb} {thread : ThreadId} {agent : AgentId}

theorem mem_posted {m : ThreadMessageRow} : m ∈ posted db thread ↔
    m ∈ db.threadMessages ∧ m.threadId = thread ∧ m.kind = .posted := by
  rw [posted, List.mem_filter, Bool.and_eq_true, decide_eq_true_eq, decide_eq_true_eq]
  rfl

structure FeedInv (db : ThreadDb) : Prop where
  numbered : ∀ m ∈ db.threadMessages, m.seq < bumpedThreadSeq m.threadId db.threadSeq
  unique : ∀ m ∈ db.threadMessages, ∀ m' ∈ db.threadMessages, m.threadId = m'.threadId →
    m.seq = m'.seq → m = m'

structure Extends (db db' : ThreadDb) : Prop where
  kept : ∀ m ∈ db.threadMessages, m ∈ db'.threadMessages
  later : ∀ m' ∈ db'.threadMessages, m' ∈ db.threadMessages ∨
    ∀ m ∈ db.threadMessages, m.threadId = m'.threadId → m.seq < m'.seq

theorem bumpedThreadSeq_put (seqs : Table ThreadSeq) (thread thread' : ThreadId) (n : Threads.Seq) :
    bumpedThreadSeq thread' (seqs.put ⟨thread, n⟩) =
      if thread = thread' then n + 1 else bumpedThreadSeq thread' seqs := by
  have hkey : key (⟨thread, n⟩ : ThreadSeq) = thread := rfl
  unfold bumpedThreadSeq
  rw [Table.find?_put, hkey]
  by_cases hsame : thread = thread'
  · rw [if_pos hsame, if_pos hsame]
    rfl
  · rw [if_neg hsame, if_neg hsame]

theorem FeedInv.empty : FeedInv .empty where
  numbered _ h := (Table.not_mem_empty _ h).elim
  unique _ h := (Table.not_mem_empty _ h).elim

theorem appendMessage_rows (id : ThreadMessageId) (now : Time) (org : OrgId) (thread : ThreadId)
    (new : NewThreadMessage) (db : ThreadDb) :
    let db' := (appendMessage id now org thread new db).1
    db'.threadMessages = db.threadMessages ∧ (db'.threadSeq = db.threadSeq ∨
        db'.threadSeq = db.threadSeq.put ⟨thread, bumpedThreadSeq thread db.threadSeq⟩) ∨
      ∃ row : ThreadMessageRow, (row.threadId = thread ∧ row.kind = new.kind ∧ row.createdAt = now) ∧
        row.seq = bumpedThreadSeq thread db.threadSeq ∧
        db.threadMessages.insert? row = some db'.threadMessages ∧
        db'.threadSeq = db.threadSeq.put ⟨thread, bumpedThreadSeq thread db.threadSeq⟩ := by
  unfold appendMessage
  dsimp only
  split
  · exact .inl ⟨rfl, .inl rfl⟩
  · split
    · exact .inl ⟨rfl, .inr rfl⟩
    · split
      · exact .inl ⟨rfl, .inl rfl⟩
      · rename_i hinsert
        exact .inr ⟨_, ⟨rfl, rfl, rfl⟩, rfl, hinsert, rfl⟩

theorem lt_bumped_put {m : ThreadMessageRow} (seqs : Table ThreadSeq) (thread : ThreadId)
    (h : m.seq < bumpedThreadSeq m.threadId seqs) :
    m.seq < bumpedThreadSeq m.threadId (seqs.put ⟨thread, bumpedThreadSeq thread seqs⟩) := by
  rw [bumpedThreadSeq_put]
  split
  · rename_i hsame
    rw [hsame]
    exact Nat.lt_succ_of_lt h
  · exact h

theorem appendMessage_extends (h : FeedInv db) (id : ThreadMessageId) (now : Time) (org : OrgId)
    (thread : ThreadId) (new : NewThreadMessage) :
    FeedInv (appendMessage id now org thread new db).1 ∧
      Extends db (appendMessage id now org thread new db).1 := by
  obtain ⟨hmessages, hseqs⟩ | ⟨row, ⟨rfl, -, -⟩, hseq, hinsert, hput⟩ :=
    appendMessage_rows id now org thread new db
  · refine ⟨⟨fun m hm => ?_, hmessages ▸ h.unique⟩, ⟨fun m hm => hmessages ▸ hm, fun m hm => ?_⟩⟩
    · have hlt := h.numbered m (hmessages ▸ hm)
      obtain hsame | hput := hseqs
      · rwa [hsame]
      · rw [hput]
        exact lt_bumped_put db.threadSeq thread hlt
    · exact .inl (hmessages ▸ hm)
  · have hbelow : ∀ m ∈ db.threadMessages, m.threadId = row.threadId → m.seq < row.seq := by
      intro m hm hthread
      rw [hseq, ← hthread]
      exact h.numbered m hm
    refine ⟨⟨fun m hm => ?_, fun m hm m' hm' hthread hsame => ?_⟩,
      ⟨fun m hm => (Table.mem_insert? hinsert).mpr (.inl hm), fun m hm => ?_⟩⟩
    · rw [hput]
      obtain hm | rfl := (Table.mem_insert? hinsert).mp hm
      · exact lt_bumped_put db.threadSeq row.threadId (h.numbered m hm)
      · rw [bumpedThreadSeq_put, if_pos rfl, ← hseq]
        exact Nat.lt_succ_self _
    · obtain hold | rfl := (Table.mem_insert? hinsert).mp hm <;>
        obtain hold' | rfl := (Table.mem_insert? hinsert).mp hm'
      · exact h.unique m hold m' hold' hthread hsame
      · exact absurd hsame (hbelow m hold hthread).ne
      · exact absurd hsame (hbelow m' hold' hthread.symm).ne'
      · rfl
    · obtain hm | rfl := (Table.mem_insert? hinsert).mp hm
      · exact .inl hm
      · exact .inr hbelow

theorem posted_append (h : FeedInv db) (id : ThreadMessageId) (now : Time) (org : OrgId)
    (thread : ThreadId) (new : NewThreadMessage) (thread' : ThreadId) :
    posted (appendMessage id now org thread new db).1 thread' = posted db thread' ∨
      ∃ row, (row.threadId = thread ∧ new.kind = .posted ∧ row.createdAt = now) ∧
        thread = thread' ∧ (∀ m ∈ db.threadMessages, m.threadId = thread' → m.seq < row.seq) ∧
        posted (appendMessage id now org thread new db).1 thread' = posted db thread' ++ [row] := by
  obtain ⟨hmessages, -⟩ | ⟨row, ⟨rfl, hkind, hnow⟩, hseq, hinsert, -⟩ :=
    appendMessage_rows id now org thread new db
  · exact .inl (by rw [posted, hmessages, posted])
  · rw [posted, Table.rows_insert? hinsert, List.filter_append, List.filter_singleton, ← posted]
    by_cases hshows : row.threadId = thread' ∧ row.kind = .posted
    · obtain ⟨rfl, hposted⟩ := hshows
      refine .inr ⟨row, ⟨rfl, hkind ▸ hposted, hnow⟩, rfl, fun m hm hthread => ?_, by simp [hposted]⟩
      rw [hseq, ← hthread]
      exact h.numbered m hm
    · exact .inl (by simp only [← Bool.decide_and, decide_eq_false hshows]; simp)

theorem FeedInv.of_eq (h : FeedInv db) (hmessages : db'.threadMessages = db.threadMessages)
    (hseqs : db'.threadSeq = db.threadSeq) : FeedInv db' ∧ Extends db db' :=
  ⟨⟨hseqs ▸ hmessages ▸ h.numbered, hmessages ▸ h.unique⟩, ⟨fun _ hm => hmessages ▸ hm,
    fun _ hm => .inl (hmessages ▸ hm)⟩⟩

theorem resolveParticipation_feed {id : AgentThreadId} {now : Time} {state : AgentThreadId}
    (h : Threads.resolveParticipation id now thread agent db = .ok (db', state)) :
    db'.threadMessages = db.threadMessages ∧ db'.threadSeq = db.threadSeq := by
  unfold Threads.resolveParticipation at h
  split at h
  · cases h
  · split at h <;> cases h <;> exact ⟨rfl, rfl⟩

end Patom.Memory
