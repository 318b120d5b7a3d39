import Patom.Foundation.Transition
import Patom.Threads.Store

/-! Appends that race.  The first transaction of an append holds the counter of its thread, and
the key of the row it inserts, until it commits; the second reads the row that won the key. -/

open Patom.Foundation
open Patom.Runtime (IdempotencyKey)

namespace Patom.Threads

inductive AppendPc
  | started
  | bumped (org : OrgId) (seq : Seq)
  | inserted (row : ThreadMessageRow)
  | skipped (seq : Seq)
  | missed

structure Append where
  id : ThreadMessageId
  now : Time
  orgId : OrgId
  threadId : ThreadId
  message : NewThreadMessage
  pc : AppendPc

instance : Keyed Append ThreadMessageId := ⟨(·.id)⟩

structure Appended where
  id : ThreadMessageId
  orgId : OrgId
  threadId : ThreadId
  message : NewThreadMessage
  result : Except ThreadError ThreadMessageId

structure AppendSt where
  db : ThreadDb
  inflight : Table Append
  returned : List Appended

def AppendSt.init : AppendSt := ⟨.empty, .empty, []⟩

inductive AppendAct
  | createThread (id : ThreadId) (org : OrgId)
  | start (id : ThreadMessageId) (now : Time) (org : OrgId) (thread : ThreadId)
      (message : NewThreadMessage)
  | bump (id : ThreadMessageId)
  | insert (id : ThreadMessageId)
  | commit (id : ThreadMessageId)
  | read (id : ThreadMessageId)
  | fail (id : ThreadMessageId) (constraint : String)

/-- The number an open transaction has drawn, and with it the lock on the counter. -/
def AppendPc.ticket : AppendPc → Option Seq
  | .started | .missed => none
  | .bumped _ seq | .skipped seq => some seq
  | .inserted row => some row.seq

def AppendPc.row? : AppendPc → Option ThreadMessageRow
  | .inserted row => some row
  | _ => none

def Append.row (a : Append) (org : OrgId) (seq : Seq) : ThreadMessageRow :=
  { a.message with id := a.id, threadId := a.threadId, orgId := org, seq, createdAt := a.now }

def Append.winner (a : Append) (db : ThreadDb) : Except ThreadError ThreadMessageId :=
  match a.message.idempotencyKey.bind (findMessageByKey db a.orgId) with
  | some existing => .ok existing.id
  | none => .error (.notFound a.threadId)

def AppendSt.counterLocked (s : AppendSt) (thread : ThreadId) : Bool :=
  s.inflight.rows.any fun a => a.threadId = thread && a.pc.ticket.isSome

def AppendSt.keyLocked (s : AppendSt) (org : OrgId) (k : IdempotencyKey) : Bool :=
  s.inflight.rows.any fun a => a.pc.row?.any fun r => r.orgId = org && r.idempotencyKey = some k

def AppendSt.Minted (s : AppendSt) (id : ThreadMessageId) : Prop :=
  (∃ a ∈ s.inflight, a.id = id) ∨ ∃ d ∈ s.returned, d.id = id

instance (s : AppendSt) (id : ThreadMessageId) : Decidable (s.Minted id) :=
  inferInstanceAs (Decidable ((∃ a ∈ s.inflight, a.id = id) ∨ ∃ d ∈ s.returned, d.id = id))

def AppendSt.advance (s : AppendSt) (a : Append) (pc : AppendPc) : AppendSt :=
  { s with inflight := s.inflight.put { a with pc } }

def AppendSt.finish (s : AppendSt) (a : Append) (result : Except ThreadError ThreadMessageId) : AppendSt :=
  { s with
    inflight := s.inflight.delete fun a' => a'.id = a.id,
    returned := s.returned ++ [⟨a.id, a.orgId, a.threadId, a.message, result⟩] }

section Step

variable (s : AppendSt) (a : Append)

def appendBump : Option AppendSt :=
  match s.db.threads.find? a.threadId with
  | none => some (s.advance a .missed)
  | some t =>
    if s.counterLocked a.threadId then none
    else some (s.advance a (.bumped t.orgId (bumpedThreadSeq a.threadId s.db.threadSeq)))

/-- `ON CONFLICT DO NOTHING` waits for an insert of the same key that has not committed. -/
def appendInsert (org : OrgId) (seq : Seq) : Option AppendSt :=
  match a.message.idempotencyKey with
  | none => some (s.advance a (.inserted (a.row org seq)))
  | some k =>
    if (findMessageByKey s.db org k).isSome then some (s.advance a (.skipped seq))
    else if s.keyLocked org k then none
    else some (s.advance a (.inserted (a.row org seq)))

def appendCommit : Option AppendSt :=
  match a.pc with
  | .inserted row =>
    match s.db.threadMessages.insert? row with
    | none => some (s.finish a (.error (.db "thread_messages_id_key")))
    | some threadMessages =>
      let threadSeq := s.db.threadSeq.put ⟨a.threadId, row.seq⟩
      some { s.finish a (.ok a.id) with db := { s.db with threadSeq, threadMessages } }
  | .skipped seq =>
    let threadSeq := s.db.threadSeq.put ⟨a.threadId, seq⟩
    some { s.advance a .missed with db := { s.db with threadSeq } }
  | _ => none

end Step

def appendStep : Step AppendSt AppendAct
  | s, .createThread id org =>
    (s.db.threads.insert? ⟨id, org⟩).map fun threads => { s with db := { s.db with threads } }
  | s, .start id now org thread message =>
    if s.Minted id then none
    else some { s with inflight := s.inflight.put ⟨id, now, org, thread, message, .started⟩ }
  | s, .bump id =>
    (s.inflight.find? id).bind fun a =>
      match a.pc with
      | .started => appendBump s a
      | _ => none
  | s, .insert id =>
    (s.inflight.find? id).bind fun a =>
      match a.pc with
      | .bumped org seq => appendInsert s a org seq
      | _ => none
  | s, .commit id => (s.inflight.find? id).bind (appendCommit s)
  | s, .read id =>
    (s.inflight.find? id).bind fun a =>
      match a.pc with
      | .missed => some (s.finish a (a.winner s.db))
      | _ => none
  | s, .fail id constraint =>
    (s.inflight.find? id).map fun a => s.finish a (.error (.db constraint))

inductive Append.Advances (s : AppendSt) (a : Append) : AppendPc → Prop
  | missed (hpc : a.pc.row? = none) : a.Advances s .missed
  | bumped {t : ThreadHeader} (ht : s.db.threads.find? a.threadId = some t)
      (hfree : s.counterLocked a.threadId = false) (hpc : a.pc = .started) :
      a.Advances s (.bumped t.orgId (bumpedThreadSeq a.threadId s.db.threadSeq))
  | inserted {org : OrgId} {seq : Seq} (hpc : a.pc = .bumped org seq)
      (hfree : ∀ k, a.message.idempotencyKey = some k →
        findMessageByKey s.db org k = none ∧ s.keyLocked org k = false) :
      a.Advances s (.inserted (a.row org seq))
  | skipped {org : OrgId} {seq : Seq} (hpc : a.pc = .bumped org seq) : a.Advances s (.skipped seq)

def AppendSt.store (s : AppendSt) (a : Append) (seq : Seq) (threadMessages : Table ThreadMessageRow) :
    AppendSt :=
  { s with db := { s.db with threadSeq := s.db.threadSeq.put ⟨a.threadId, seq⟩, threadMessages } }

inductive FeedStepped (s : AppendSt) : AppendSt → Prop
  | created {t : ThreadHeader} {threads : Table ThreadHeader}
      (h : s.db.threads.insert? t = some threads) :
      FeedStepped s { s with db := { s.db with threads } }
  | started {a : Append} (hpc : a.pc = .started) (hnew : ¬s.Minted a.id) :
      FeedStepped s { s with inflight := s.inflight.put a }
  | advanced {a : Append} (ha : a ∈ s.inflight) {pc : AppendPc} (h : a.Advances s pc) :
      FeedStepped s (s.advance a pc)
  | skipped {a : Append} (ha : a ∈ s.inflight) {seq : Seq} (hpc : a.pc = .skipped seq) :
      FeedStepped s ((s.store a seq s.db.threadMessages).advance a .missed)
  | stored {a : Append} (ha : a ∈ s.inflight) {row : ThreadMessageRow} (hpc : a.pc = .inserted row)
      {threadMessages : Table ThreadMessageRow}
      (h : s.db.threadMessages.insert? row = some threadMessages) :
      FeedStepped s ((s.store a row.seq threadMessages).finish a (.ok a.id))
  | answered {a : Append} (ha : a ∈ s.inflight) : FeedStepped s (s.finish a (a.winner s.db))
  | failed {a : Append} (ha : a ∈ s.inflight) (e : ThreadError) : FeedStepped s (s.finish a (.error e))

variable {s t : AppendSt} {a : Append}

theorem appendBump_cases (h : appendBump s a = some t) (hpc : a.pc = .started) :
    ∃ pc, a.Advances s pc ∧ t = s.advance a pc := by
  unfold appendBump at h
  split at h
  · cases h
    exact ⟨_, .missed (by rw [hpc]; rfl), rfl⟩
  · next ht =>
    split at h
    · cases h
    · next hfree =>
      cases h
      exact ⟨_, .bumped ht (by simpa using hfree) hpc, rfl⟩

theorem appendInsert_cases {org : OrgId} {seq : Seq} (h : appendInsert s a org seq = some t)
    (hpc : a.pc = .bumped org seq) : ∃ pc, a.Advances s pc ∧ t = s.advance a pc := by
  unfold appendInsert at h
  split at h
  · next hk =>
    cases h
    exact ⟨_, .inserted hpc fun k hk' => absurd (hk.symm.trans hk') nofun, rfl⟩
  · next k hk =>
    split at h
    · cases h
      exact ⟨_, .skipped hpc, rfl⟩
    · next hrow =>
      split at h
      · cases h
      · next hfree =>
        cases h
        refine ⟨_, .inserted hpc fun k' hk' => ?_, rfl⟩
        obtain rfl := Option.some.inj (hk.symm.trans hk')
        exact ⟨by simpa using hrow, by simpa using hfree⟩

theorem appendCommit_stepped (h : appendCommit s a = some t) (ha : a ∈ s.inflight) :
    FeedStepped s t := by
  unfold appendCommit at h
  split at h
  · next hpc =>
    split at h
    · cases h
      exact .failed ha _
    · next hins =>
      cases h
      exact .stored ha hpc hins
  · next hpc =>
    cases h
    exact .skipped ha hpc
  · cases h

theorem appendStep_stepped {act : AppendAct} (h : appendStep s act = some t) : FeedStepped s t := by
  cases act with
  | createThread id org =>
    obtain ⟨threads, hins, rfl⟩ := Option.map_eq_some_iff.mp h
    exact .created hins
  | start id now org thread message =>
    simp only [appendStep] at h
    split at h
    · cases h
    · next hnew =>
      cases h
      exact .started rfl hnew
  | bump id =>
    obtain ⟨a, ha, h⟩ := Option.bind_eq_some_iff.mp h
    cases hpc : a.pc <;> rw [hpc] at h <;> try cases h
    obtain ⟨pc, hadv, rfl⟩ := appendBump_cases h hpc
    exact .advanced (Table.mem_of_find? ha) hadv
  | insert id =>
    obtain ⟨a, ha, h⟩ := Option.bind_eq_some_iff.mp h
    cases hpc : a.pc <;> rw [hpc] at h <;> try cases h
    obtain ⟨pc, hadv, rfl⟩ := appendInsert_cases h hpc
    exact .advanced (Table.mem_of_find? ha) hadv
  | commit id =>
    obtain ⟨a, ha, h⟩ := Option.bind_eq_some_iff.mp h
    exact appendCommit_stepped h (Table.mem_of_find? ha)
  | read id =>
    obtain ⟨a, ha, h⟩ := Option.bind_eq_some_iff.mp h
    cases hpc : a.pc <;> rw [hpc] at h <;> cases h
    exact .answered (Table.mem_of_find? ha)
  | fail id constraint =>
    obtain ⟨a, ha, rfl⟩ := Option.map_eq_some_iff.mp h
    exact .failed (Table.mem_of_find? ha) _

end Patom.Threads

namespace Patom.Threads

def AppendSt.Held (s : AppendSt) (r : ThreadMessageRow) : Prop :=
  r ∈ s.db.threadMessages ∨ ∃ a ∈ s.inflight, a.pc = .inserted r

def AppendSt.nextSeq (s : AppendSt) (thread : ThreadId) : Seq := bumpedThreadSeq thread s.db.threadSeq

def AppendSt.OrgOf (s : AppendSt) (thread : ThreadId) (org : OrgId) : Prop :=
  ∃ t ∈ s.db.threads, t.id = thread ∧ t.orgId = org

def Appended.Answers (d : Appended) (r : ThreadMessageRow) : Prop :=
  r.id = d.id ∧ r.threadId = d.threadId ∧ r.idempotencyKey = d.message.idempotencyKey ∨
    r.orgId = d.orgId ∧ r.idempotencyKey = d.message.idempotencyKey ∧ r.idempotencyKey.isSome

structure AppendInv (s : AppendSt) : Prop where
  org : ∀ r, s.Held r → s.OrgOf r.threadId r.orgId
  keyed : ∀ r r' k, s.Held r → s.Held r' → r.orgId = r'.orgId → r.idempotencyKey = some k →
    r'.idempotencyKey = some k → r.id = r'.id
  below : ∀ r ∈ s.db.threadMessages, r.seq < s.nextSeq r.threadId
  distinct : ∀ r ∈ s.db.threadMessages, ∀ r' ∈ s.db.threadMessages,
    r.threadId = r'.threadId → r.seq = r'.seq → r = r'
  ticket : ∀ a ∈ s.inflight, ∀ seq, a.pc.ticket = some seq → seq = s.nextSeq a.threadId
  alone : ∀ a ∈ s.inflight, ∀ a' ∈ s.inflight, a.threadId = a'.threadId →
    a.pc.ticket.isSome → a'.pc.ticket.isSome → a.id = a'.id
  bumped : ∀ a ∈ s.inflight, ∀ org seq, a.pc = .bumped org seq → s.OrgOf a.threadId org
  own : ∀ a ∈ s.inflight, ∀ row, a.pc = .inserted row →
    row.id = a.id ∧ row.threadId = a.threadId ∧ row.idempotencyKey = a.message.idempotencyKey
  minted : ∀ r ∈ s.db.threadMessages, ∃ d ∈ s.returned, d.id = r.id
  spent : ∀ a ∈ s.inflight, ∀ d ∈ s.returned, d.id ≠ a.id
  returned : ∀ d ∈ s.returned, ∀ id, d.result = .ok id →
    ∃ r ∈ s.db.threadMessages, r.id = id ∧ d.Answers r

theorem AppendInv.init : AppendInv .init where
  org := by rintro r (h | ⟨a, h, -⟩) <;> cases h
  keyed := by rintro r r' k (h | ⟨a, h, -⟩) <;> cases h
  below _ h := by cases h
  distinct _ h := by cases h
  ticket _ h := by cases h
  alone _ h := by cases h
  bumped _ h := by cases h
  own _ h := by cases h
  minted _ h := by cases h
  spent _ h := by cases h
  returned _ h := by cases h

section Parts

variable {s : AppendSt} {a a' : Append} {pc : AppendPc} {thread : ThreadId} {org : OrgId}

@[simp] theorem AppendSt.db_advance : (s.advance a pc).db = s.db := rfl

@[simp] theorem AppendSt.returned_advance : (s.advance a pc).returned = s.returned := rfl

theorem AppendSt.mem_advance :
    a' ∈ (s.advance a pc).inflight ↔ a' = { a with pc } ∨ a' ∈ s.inflight ∧ a'.id ≠ a.id :=
  Table.mem_put

@[simp] theorem AppendSt.db_finish {result : Except ThreadError ThreadMessageId} :
    (s.finish a result).db = s.db := rfl

theorem AppendSt.mem_finish {result : Except ThreadError ThreadMessageId} :
    a' ∈ (s.finish a result).inflight ↔ a' ∈ s.inflight ∧ a'.id ≠ a.id := by
  simp [finish]

@[simp] theorem nextSeq_advance : (s.advance a pc).nextSeq thread = s.nextSeq thread := rfl

theorem nextSeq_store {seq : Seq} {messages : Table ThreadMessageRow} :
    (s.store a seq messages).nextSeq thread =
      if a.threadId = thread then seq + 1 else s.nextSeq thread := by
  by_cases h : a.threadId = thread
  · simp [AppendSt.nextSeq, AppendSt.store, bumpedThreadSeq, Keyed.key, h]
  · simp [AppendSt.nextSeq, AppendSt.store, bumpedThreadSeq, Keyed.key, h]

theorem not_counterLocked (h : s.counterLocked thread = false) (ha : a ∈ s.inflight)
    (ht : a.threadId = thread) : a.pc.ticket.isSome = false := by
  simpa [ht] using List.any_eq_false.mp h a ha

theorem not_keyLocked {k : IdempotencyKey} (h : s.keyLocked org k = false) (ha : a ∈ s.inflight)
    {row : ThreadMessageRow} (hpc : a.pc = .inserted row) (horg : row.orgId = org) :
    row.idempotencyKey ≠ some k := by
  simpa [hpc, AppendPc.row?, horg] using List.any_eq_false.mp h a ha

theorem not_findMessageByKey {k : IdempotencyKey} {db : ThreadDb}
    (h : findMessageByKey db org k = none) {r : ThreadMessageRow} (hr : r ∈ db.threadMessages)
    (horg : r.orgId = org) : r.idempotencyKey ≠ some k := by
  simpa [horg] using List.find?_eq_none.mp h r hr

theorem mem_findMessageByKey {k : IdempotencyKey} {db : ThreadDb} {r : ThreadMessageRow}
    (h : findMessageByKey db org k = some r) :
    r ∈ db.threadMessages ∧ r.orgId = org ∧ r.idempotencyKey = some k := by
  have hp := List.find?_some h
  exact ⟨List.mem_of_find?_eq_some h, by simpa using hp⟩

theorem OrgOf.unique {org' : OrgId} (h : s.OrgOf thread org) (h' : s.OrgOf thread org') :
    org = org' := by
  obtain ⟨t, ht, e, rfl⟩ := h
  obtain ⟨t', ht', e', rfl⟩ := h'
  rw [Table.eq_of_key_eq ht ht' (e.trans e'.symm)]

theorem Held.of_advance {r : ThreadMessageRow} (h : (s.advance a pc).Held r) :
    s.Held r ∨ pc = .inserted r := by
  obtain h | ⟨a', ha', hpc⟩ := h
  · exact .inl (.inl h)
  · obtain rfl | ⟨ha', -⟩ := AppendSt.mem_advance.mp ha'
    · exact .inr hpc
    · exact .inl (.inr ⟨a', ha', hpc⟩)

theorem Held.of_finish {result : Except ThreadError ThreadMessageId} {r : ThreadMessageRow}
    (h : (s.finish a result).Held r) : s.Held r := by
  obtain h | ⟨a', ha', hpc⟩ := h
  · exact .inl h
  · exact .inr ⟨a', (AppendSt.mem_finish.mp ha').1, hpc⟩

end Parts

section Steps

variable {s : AppendSt} {a : Append}

theorem AppendInv.created (h : AppendInv s) {t : ThreadHeader} {threads : Table ThreadHeader}
    (hins : s.db.threads.insert? t = some threads) :
    AppendInv { s with db := { s.db with threads } } := by
  have horg : ∀ thread org, s.OrgOf thread org →
      AppendSt.OrgOf { s with db := { s.db with threads } } thread org :=
    fun thread org ⟨t', ht', e⟩ => ⟨t', (Table.mem_insert? hins).mpr (.inl ht'), e⟩
  exact { h with
    org := fun r hr => horg _ _ (h.org r hr)
    bumped := fun a ha org seq hpc => horg _ _ (h.bumped a ha org seq hpc) }

theorem AppendInv.started (h : AppendInv s) (hpc : a.pc = .started) (hnew : ¬s.Minted a.id) :
    AppendInv { s with inflight := s.inflight.put a } := by
  have hmem : ∀ a', a' ∈ s.inflight.put a → a' = a ∨ a' ∈ s.inflight := fun a' ha' =>
    (Table.mem_put.mp ha').imp_right And.left
  have hheld : ∀ r, AppendSt.Held { s with inflight := s.inflight.put a } r → s.Held r := by
    rintro r (hr | ⟨a', ha', e⟩)
    · exact .inl hr
    · obtain rfl | ha' := hmem a' ha'
      · cases hpc.symm.trans e
      · exact .inr ⟨a', ha', e⟩
  have hno : a.pc.ticket = none := by rw [hpc]; rfl
  exact {
    org := fun r hr => h.org r (hheld r hr)
    keyed := fun r r' k hr hr' => h.keyed r r' k (hheld r hr) (hheld r' hr')
    below := h.below
    distinct := h.distinct
    ticket := fun a' ha' seq e => by
      obtain rfl | ha' := hmem a' ha'
      · rw [hno] at e
        cases e
      · exact h.ticket a' ha' seq e
    alone := fun a₁ h₁ a₂ h₂ e k₁ k₂ => by
      obtain rfl | h₁ := hmem a₁ h₁
      · simp [hno] at k₁
      obtain rfl | h₂ := hmem a₂ h₂
      · simp [hno] at k₂
      exact h.alone a₁ h₁ a₂ h₂ e k₁ k₂
    bumped := fun a' ha' org seq e => by
      obtain rfl | ha' := hmem a' ha'
      · cases hpc.symm.trans e
      · exact h.bumped a' ha' org seq e
    own := fun a' ha' row e => by
      obtain rfl | ha' := hmem a' ha'
      · cases hpc.symm.trans e
      · exact h.own a' ha' row e
    minted := h.minted
    spent := fun a' ha' d hd e => by
      obtain rfl | ha' := hmem a' ha'
      · exact hnew (.inr ⟨d, hd, e⟩)
      · exact h.spent a' ha' d hd e
    returned := h.returned }

theorem AppendInv.inserted_held (h : AppendInv s) (ha : a ∈ s.inflight) {pc : AppendPc}
    (hadv : a.Advances s pc) {row : ThreadMessageRow} (hrow : pc = .inserted row) :
    s.OrgOf row.threadId row.orgId ∧
      ∀ r k, s.Held r → r.orgId = row.orgId → r.idempotencyKey = some k →
        row.idempotencyKey ≠ some k := by
  cases hadv with
  | inserted hpc hfree =>
    cases hrow
    refine ⟨h.bumped a ha _ _ hpc, fun r k hr horg hk hk' => ?_⟩
    obtain ⟨hnone, hunlocked⟩ := hfree k hk'
    obtain hr | ⟨a', ha', hpc'⟩ := hr
    · exact not_findMessageByKey hnone hr horg hk
    · exact not_keyLocked hunlocked ha' hpc' horg hk
  | _ => cases hrow

theorem AppendInv.drawn (h : AppendInv s) (ha : a ∈ s.inflight) {pc : AppendPc}
    (hadv : a.Advances s pc) {seq : Seq} (hseq : pc.ticket = some seq) :
    seq = s.nextSeq a.threadId ∧
      ∀ a' ∈ s.inflight, a'.threadId = a.threadId → a'.pc.ticket.isSome → a'.id = a.id := by
  have held : a.pc.ticket = some seq → seq = s.nextSeq a.threadId ∧
      ∀ a' ∈ s.inflight, a'.threadId = a.threadId → a'.pc.ticket.isSome → a'.id = a.id :=
    fun e => ⟨h.ticket a ha seq e, fun a' ha' et es =>
      h.alone a' ha' a ha et es (Option.isSome_iff_exists.mpr ⟨seq, e⟩)⟩
  cases hadv with
  | missed => cases hseq
  | bumped ht hfree hpc =>
    cases hseq
    refine ⟨rfl, fun a' ha' et es => ?_⟩
    rw [not_counterLocked hfree ha' et] at es
    cases es
  | inserted hpc hfree =>
    cases hseq
    exact held (by rw [hpc]; rfl)
  | skipped hpc =>
    cases hseq
    exact held (by rw [hpc]; rfl)

theorem AppendInv.advanced (h : AppendInv s) (ha : a ∈ s.inflight) {pc : AppendPc}
    (hadv : a.Advances s pc) : AppendInv (s.advance a pc) where
  org r hr := by
    obtain hr | hrow := Held.of_advance hr
    · exact h.org r hr
    · exact (h.inserted_held ha hadv hrow).1
  keyed r r' k hr hr' horg hk hk' := by
    obtain hr | hrow := Held.of_advance hr <;> obtain hr' | hrow' := Held.of_advance hr'
    · exact h.keyed r r' k hr hr' horg hk hk'
    · exact absurd hk' ((h.inserted_held ha hadv hrow').2 r k hr horg hk)
    · exact absurd hk ((h.inserted_held ha hadv hrow).2 r' k hr' horg.symm hk')
    · cases hrow.symm.trans hrow'
      rfl
  below := h.below
  distinct := h.distinct
  ticket a' ha' seq e := by
    obtain rfl | ⟨ha', -⟩ := AppendSt.mem_advance.mp ha'
    · exact (h.drawn ha hadv e).1
    · exact h.ticket a' ha' seq e
  alone a₁ h₁ a₂ h₂ e k₁ k₂ := by
    obtain rfl | ⟨h₁, -⟩ := AppendSt.mem_advance.mp h₁ <;>
      obtain rfl | ⟨h₂, -⟩ := AppendSt.mem_advance.mp h₂
    · rfl
    · obtain ⟨seq, hseq⟩ := Option.isSome_iff_exists.mp k₁
      exact ((h.drawn ha hadv hseq).2 a₂ h₂ e.symm k₂).symm
    · obtain ⟨seq, hseq⟩ := Option.isSome_iff_exists.mp k₂
      exact (h.drawn ha hadv hseq).2 a₁ h₁ e k₁
    · exact h.alone a₁ h₁ a₂ h₂ e k₁ k₂
  bumped a' ha' org seq e := by
    obtain rfl | ⟨ha', -⟩ := AppendSt.mem_advance.mp ha'
    · cases hadv with
      | bumped ht => cases e; exact ⟨_, Table.mem_of_find? ht, Table.key_of_find? ht, rfl⟩
      | _ => cases e
    · exact h.bumped a' ha' org seq e
  own a' ha' row e := by
    obtain rfl | ⟨ha', -⟩ := AppendSt.mem_advance.mp ha'
    · cases hadv with
      | inserted => cases e; exact ⟨rfl, rfl, rfl⟩
      | _ => cases e
    · exact h.own a' ha' row e
  minted := h.minted
  spent a' ha' := by
    obtain rfl | ⟨ha', -⟩ := AppendSt.mem_advance.mp ha'
    · exact h.spent a ha
    · exact h.spent a' ha'
  returned := h.returned

theorem AppendInv.finished (h : AppendInv s)
    {result : Except ThreadError ThreadMessageId}
    (hres : ∀ id, result = .ok id → ∃ r ∈ s.db.threadMessages, r.id = id ∧
      Appended.Answers ⟨a.id, a.orgId, a.threadId, a.message, result⟩ r) :
    AppendInv (s.finish a result) where
  org r hr := h.org r (Held.of_finish hr)
  keyed r r' k hr hr' := h.keyed r r' k (Held.of_finish hr) (Held.of_finish hr')
  below := h.below
  distinct := h.distinct
  ticket a' ha' := h.ticket a' (AppendSt.mem_finish.mp ha').1
  alone a₁ h₁ a₂ h₂ := h.alone a₁ (AppendSt.mem_finish.mp h₁).1 a₂ (AppendSt.mem_finish.mp h₂).1
  bumped a' ha' := h.bumped a' (AppendSt.mem_finish.mp ha').1
  own a' ha' := h.own a' (AppendSt.mem_finish.mp ha').1
  minted r hr := by
    obtain ⟨d, hd, e⟩ := h.minted r hr
    exact ⟨d, List.mem_append_left _ hd, e⟩
  spent a' ha' d hd e := by
    obtain ⟨ha', hne⟩ := AppendSt.mem_finish.mp ha'
    obtain hd | hd := List.mem_append.mp hd
    · exact h.spent a' ha' d hd e
    · cases List.mem_singleton.mp hd
      exact hne e.symm
  returned d hd id e := by
    obtain hd | hd := List.mem_append.mp hd
    · exact h.returned d hd id e
    · cases List.mem_singleton.mp hd
      exact hres id e

section Release

variable {seq : Seq} {messages : Table ThreadMessageRow}

theorem AppendInv.nextSeq_le (h : AppendInv s) (ha : a ∈ s.inflight) (hseq : a.pc.ticket = some seq)
    (thread : ThreadId) : s.nextSeq thread ≤ (s.store a seq messages).nextSeq thread := by
  rw [nextSeq_store]
  split
  · next e => exact e ▸ h.ticket a ha seq hseq ▸ Nat.le_succ _
  · exact Nat.le_refl _

theorem AppendInv.released (h : AppendInv s) (ha : a ∈ s.inflight) (hseq : a.pc.ticket = some seq)
    {a' : Append} (ha' : a' ∈ s.inflight) (hne : a'.id ≠ a.id) {q : Seq}
    (hq : a'.pc.ticket = some q) : q = (s.store a seq messages).nextSeq a'.threadId := by
  have hthread : a.threadId ≠ a'.threadId := fun e =>
    hne (h.alone a ha a' ha' e (Option.isSome_iff_exists.mpr ⟨seq, hseq⟩)
      (Option.isSome_iff_exists.mpr ⟨q, hq⟩)).symm
  rw [nextSeq_store, if_neg hthread]
  exact h.ticket a' ha' q hq

end Release

theorem AppendInv.skipped (h : AppendInv s) (ha : a ∈ s.inflight) {seq : Seq}
    (hpc : a.pc = .skipped seq) :
    AppendInv ((s.store a seq s.db.threadMessages).advance a .missed) := by
  have hseq : a.pc.ticket = some seq := by rw [hpc]; rfl
  have hmem : ∀ a' ∈ ((s.store a seq s.db.threadMessages).advance a .missed).inflight,
      a' = { a with pc := .missed } ∨ a' ∈ s.inflight ∧ a'.id ≠ a.id :=
    fun a' => AppendSt.mem_advance.mp
  have hheld : ∀ r, ((s.store a seq s.db.threadMessages).advance a .missed).Held r → s.Held r := by
    intro r hr
    obtain hr | e := Held.of_advance hr
    · exact hr
    · cases e
  exact {
    org := fun r hr => h.org r (hheld r hr)
    keyed := fun r r' k hr hr' => h.keyed r r' k (hheld r hr) (hheld r' hr')
    below := fun r hr => (h.below r hr).trans_le (h.nextSeq_le ha hseq _)
    distinct := h.distinct
    ticket := fun a' ha' q e => by
      obtain rfl | ⟨ha', hne⟩ := hmem a' ha'
      · cases e
      · exact h.released ha hseq ha' hne e
    alone := fun a₁ h₁ a₂ h₂ e k₁ k₂ => by
      obtain rfl | ⟨h₁, -⟩ := hmem a₁ h₁
      · cases k₁
      obtain rfl | ⟨h₂, -⟩ := hmem a₂ h₂
      · cases k₂
      exact h.alone a₁ h₁ a₂ h₂ e k₁ k₂
    bumped := fun a' ha' org q e => by
      obtain rfl | ⟨ha', -⟩ := hmem a' ha'
      · cases e
      · exact h.bumped a' ha' org q e
    own := fun a' ha' row e => by
      obtain rfl | ⟨ha', -⟩ := hmem a' ha'
      · cases e
      · exact h.own a' ha' row e
    minted := h.minted
    spent := fun a' ha' => by
      obtain rfl | ⟨ha', -⟩ := hmem a' ha'
      · exact h.spent a ha
      · exact h.spent a' ha'
    returned := h.returned }

theorem AppendInv.stored (h : AppendInv s) (ha : a ∈ s.inflight) {row : ThreadMessageRow}
    (hpc : a.pc = .inserted row) {messages : Table ThreadMessageRow}
    (hins : s.db.threadMessages.insert? row = some messages) :
    AppendInv ((s.store a row.seq messages).finish a (.ok a.id)) := by
  obtain ⟨hid, hthread, hkey⟩ := h.own a ha row hpc
  have hseq : a.pc.ticket = some row.seq := by rw [hpc]; rfl
  have hnext : row.seq = s.nextSeq row.threadId := hthread ▸ h.ticket a ha row.seq hseq
  have hmem : ∀ r ∈ messages, r ∈ s.db.threadMessages ∨ r = row := fun r =>
    (Table.mem_insert? hins).mp
  have hold : ∀ a' ∈ ((s.store a row.seq messages).finish a (.ok a.id)).inflight,
      a' ∈ s.inflight ∧ a'.id ≠ a.id := fun a' => AppendSt.mem_finish.mp
  have hheld : ∀ r, ((s.store a row.seq messages).finish a (.ok a.id)).Held r → s.Held r := by
    rintro r (hr | ⟨a', ha', e⟩)
    · obtain hr | rfl := hmem r hr
      · exact .inl hr
      · exact .inr ⟨a, ha, hpc⟩
    · exact .inr ⟨a', (hold a' ha').1, e⟩
  exact {
    org := fun r hr => h.org r (hheld r hr)
    keyed := fun r r' k hr hr' => h.keyed r r' k (hheld r hr) (hheld r' hr')
    below := fun r hr => by
      obtain hr | rfl := hmem r hr
      · exact (h.below r hr).trans_le (h.nextSeq_le ha hseq _)
      · rw [show ((s.store a r.seq messages).finish a (.ok a.id)).nextSeq r.threadId = r.seq + 1 from
          nextSeq_store.trans (if_pos hthread.symm)]
        exact Nat.lt_succ_self _
    distinct := fun r hr r' hr' et es => by
      obtain k | e := hmem r hr <;> obtain k' | e' := hmem r' hr'
      · exact h.distinct r k r' k' et es
      · exact absurd (h.below r k) (by rw [et, es, e', hnext]; exact Nat.lt_irrefl _)
      · exact absurd (h.below r' k') (by rw [← et, ← es, e, hnext]; exact Nat.lt_irrefl _)
      · exact e.trans e'.symm
    ticket := fun a' ha' q e => h.released ha hseq (hold a' ha').1 (hold a' ha').2 e
    alone := fun a₁ h₁ a₂ h₂ => h.alone a₁ (hold a₁ h₁).1 a₂ (hold a₂ h₂).1
    bumped := fun a' ha' => h.bumped a' (hold a' ha').1
    own := fun a' ha' => h.own a' (hold a' ha').1
    minted := fun r hr => by
      obtain hr | rfl := hmem r hr
      · obtain ⟨d, hd, e⟩ := h.minted r hr
        exact ⟨d, List.mem_append_left _ hd, e⟩
      · exact ⟨_, List.mem_append_right _ (List.mem_singleton.mpr rfl), hid.symm⟩
    spent := fun a' ha' d hd e => by
      obtain ⟨ha', hne⟩ := hold a' ha'
      obtain hd | hd := List.mem_append.mp hd
      · exact h.spent a' ha' d hd e
      · cases List.mem_singleton.mp hd
        exact hne e.symm
    returned := fun d hd id e => by
      obtain hd | hd := List.mem_append.mp hd
      · obtain ⟨r, hr, e⟩ := h.returned d hd id e
        exact ⟨r, (Table.mem_insert? hins).mpr (.inl hr), e⟩
      · cases List.mem_singleton.mp hd
        cases e
        exact ⟨row, (Table.mem_insert? hins).mpr (.inr rfl), hid, .inl ⟨hid, hthread, hkey⟩⟩ }

theorem AppendInv.answered (h : AppendInv s) :
    AppendInv (s.finish a (a.winner s.db)) := by
  refine h.finished fun id e => ?_
  unfold Append.winner at e
  split at e
  · next r hr =>
    cases e
    obtain ⟨k, hk, hr⟩ := Option.bind_eq_some_iff.mp hr
    obtain ⟨hr, horg, hrk⟩ := mem_findMessageByKey hr
    exact ⟨r, hr, rfl, .inr ⟨horg, hrk.trans hk.symm, by rw [hrk]; rfl⟩⟩
  · cases e

theorem AppendInv.step {t : AppendSt} (h : AppendInv s) (hst : FeedStepped s t) : AppendInv t := by
  cases hst with
  | created hins => exact h.created hins
  | started hpc hnew => exact h.started hpc hnew
  | advanced ha hadv => exact h.advanced ha hadv
  | skipped ha hpc => exact h.skipped ha hpc
  | stored ha hpc hins => exact h.stored ha hpc hins
  | answered => exact h.answered
  | failed => exact h.finished fun id e => by cases e

theorem AppendInv.reachable (h : Reachable appendStep .init s) : AppendInv s :=
  Reachable.inv (fun _ _ _ hi e => hi.step (appendStep_stepped e)) h .init

end Steps

end Patom.Threads
