import Patom.Threads.Append

open Patom.Foundation
open Patom.Runtime (IdempotencyKey)

namespace Patom.Threads

variable {s t : AppendSt}

/-- Rows stay, and a row that is new takes the number its thread was at. -/
structure Extended (s t : AppendSt) : Prop where
  kept : ∀ r ∈ s.db.threadMessages, r ∈ t.db.threadMessages
  nextSeq : ∀ thread, s.nextSeq thread ≤ t.nextSeq thread
  later : ∀ r ∈ t.db.threadMessages, r ∈ s.db.threadMessages ∨ s.nextSeq r.threadId ≤ r.seq

theorem Extended.of_eq (hm : t.db.threadMessages = s.db.threadMessages)
    (hs : t.db.threadSeq = s.db.threadSeq) : Extended s t where
  kept r hr := hm ▸ hr
  nextSeq thread := by rw [AppendSt.nextSeq, AppendSt.nextSeq, hs]
  later r hr := .inl (hm ▸ hr)

theorem Extended.trans {u : AppendSt} (h : Extended s t) (k : Extended t u) : Extended s u where
  kept r hr := k.kept r (h.kept r hr)
  nextSeq thread := (h.nextSeq thread).trans (k.nextSeq thread)
  later r hr := by
    obtain hr | hle := k.later r hr
    · exact h.later r hr
    · exact .inr ((h.nextSeq r.threadId).trans hle)

theorem AppendInv.extended (h : AppendInv s) (hst : FeedStepped s t) : Extended s t := by
  cases hst with
  | skipped ha hpc =>
    exact ⟨fun r hr => hr, h.nextSeq_le ha (by rw [hpc]; rfl), fun r hr => .inl hr⟩
  | stored ha hpc hins =>
    obtain ⟨-, hthread, -⟩ := h.own _ ha _ hpc
    refine ⟨fun r hr => (Table.mem_insert? hins).mpr (.inl hr),
      h.nextSeq_le ha (by rw [hpc]; rfl), fun r hr => ?_⟩
    obtain hr | rfl := (Table.mem_insert? hins).mp hr
    · exact .inl hr
    · exact .inr (hthread ▸ (h.ticket _ ha r.seq (by rw [hpc]; rfl)).ge)
  | _ => exact .of_eq rfl rfl

theorem AppendInv.extended_run (h : AppendInv s) {acts : List AppendAct}
    (hrun : run appendStep s acts = some t) : Extended s t := by
  have hstep : ∀ t a u, AppendInv t ∧ Extended s t → appendStep t a = some u → AppendInv u ∧ Extended s u :=
    fun t _ u hi e => ⟨hi.1.step (appendStep_stepped e),
      hi.2.trans (hi.1.extended (appendStep_stepped e))⟩
  have hboth : AppendInv t ∧ Extended s t := (run_path hrun).inv hstep ⟨h, .of_eq rfl rfl⟩
  exact hboth.2

section Solo

variable {a : Append} {pc pc' : AppendPc} {db : ThreadDb} {returned : List Appended}

def Append.solo (a : Append) (pc : AppendPc) (db : ThreadDb) (returned : List Appended) : AppendSt :=
  ⟨db, .single { a with pc }, returned⟩

@[simp] theorem Append.solo_db : (a.solo pc db returned).db = db := rfl

theorem Append.solo_find? : (a.solo pc db returned).inflight.find? a.id = some { a with pc } :=
  Table.find?_single (ρ := Append) { a with pc }

theorem Append.advance_solo :
    (a.solo pc db returned).advance { a with pc } pc' = a.solo pc' db returned := by
  have hput : (Table.single { a with pc }).put { a with pc := pc' } =
      Table.single { a with pc := pc' } :=
    Table.put_single rfl
  simp only [AppendSt.advance, Append.solo, hput]

theorem Append.finish_solo {result : Except ThreadError ThreadMessageId} :
    (a.solo pc db returned).finish { a with pc } result =
      ⟨db, .empty, returned ++ [⟨a.id, a.orgId, a.threadId, a.message, result⟩]⟩ := by
  simp only [AppendSt.finish, Append.solo]
  rw [Table.delete_single]
  simp

theorem Append.solo_counterLocked {thread : ThreadId} (h : pc.ticket = none) :
    (a.solo pc db returned).counterLocked thread = false := by
  simp [AppendSt.counterLocked, Append.solo, Table.single, h]

theorem Append.solo_keyLocked {org : OrgId} {k : IdempotencyKey} (h : pc.row? = none) :
    (a.solo pc db returned).keyLocked org k = false := by
  simp [AppendSt.keyLocked, Append.solo, Table.single, h]

theorem Append.solo_missing (h : db.threads.find? a.threadId = none) :
    appendStep (a.solo .started db returned) (.bump a.id) = some (a.solo .missed db returned) := by
  simp only [appendStep, solo_find?, Option.bind_some, appendBump, solo_db, h, advance_solo]

theorem Append.solo_bump {t : ThreadHeader} (returned : List Appended)
    (h : db.threads.find? a.threadId = some t) :
    appendStep (a.solo .started db returned) (.bump a.id) =
      some (a.solo (.bumped t.orgId (bumpedThreadSeq a.threadId db.threadSeq)) db returned) := by
  have hfree : (a.solo .started db returned).counterLocked a.threadId = false :=
    solo_counterLocked rfl
  simp only [appendStep, solo_find?, Option.bind_some, appendBump, solo_db, h, hfree, advance_solo]
  rfl

theorem Append.solo_skip {org : OrgId} {seq : Seq}
    (h : (a.message.idempotencyKey.bind (findMessageByKey db org)).isSome) :
    appendStep (a.solo (.bumped org seq) db returned) (.insert a.id) =
      some (a.solo (.skipped seq) db returned) := by
  cases hk : a.message.idempotencyKey with
  | none => simp [hk] at h
  | some k =>
    rw [hk, Option.bind_some] at h
    simp only [appendStep, solo_find?, Option.bind_some, appendInsert, hk, solo_db, if_pos h,
      advance_solo]

theorem Append.solo_insert {org : OrgId} {seq : Seq}
    (h : (a.message.idempotencyKey.bind (findMessageByKey db org)).isSome = false) :
    appendStep (a.solo (.bumped org seq) db returned) (.insert a.id) =
      some (a.solo (.inserted (a.row org seq)) db returned) := by
  cases hk : a.message.idempotencyKey with
  | none =>
    simp only [appendStep, solo_find?, Option.bind_some, appendInsert, hk, advance_solo]
    rfl
  | some k =>
    rw [hk, Option.bind_some] at h
    have hfree : (a.solo (.bumped org seq) db returned).keyLocked org k = false :=
      solo_keyLocked rfl
    simp only [appendStep, solo_find?, Option.bind_some, appendInsert, hk, solo_db, h, hfree,
      advance_solo]
    rfl

theorem Append.solo_commit {row : ThreadMessageRow} {messages : Table ThreadMessageRow}
    (h : db.threadMessages.insert? row = some messages) :
    appendStep (a.solo (.inserted row) db returned) (.commit a.id) =
      some ⟨{ db with
          threadSeq := db.threadSeq.put ⟨a.threadId, row.seq⟩, threadMessages := messages }, .empty,
        returned ++ [⟨a.id, a.orgId, a.threadId, a.message, .ok a.id⟩]⟩ := by
  simp only [appendStep, solo_find?, Option.bind_some, appendCommit, solo_db, h, finish_solo]

theorem Append.solo_burn {seq : Seq} :
    appendStep (a.solo (.skipped seq) db returned) (.commit a.id) =
      some (a.solo .missed { db with threadSeq := db.threadSeq.put ⟨a.threadId, seq⟩ } returned) := by
  simp only [appendStep, solo_find?, Option.bind_some, appendCommit, advance_solo]
  rfl

theorem Append.solo_read :
    appendStep (a.solo .missed db returned) (.read a.id) =
      some ⟨db, .empty,
        returned ++ [⟨a.id, a.orgId, a.threadId, a.message, a.winner db⟩]⟩ := by
  simp only [appendStep, solo_find?, Option.bind_some, finish_solo]
  rfl

end Solo

def appendActs (id : ThreadMessageId) (now : Time) (org : OrgId) (thread : ThreadId)
    (message : NewThreadMessage) (db : ThreadDb) : List AppendAct :=
  [.start id now org thread message, .bump id] ++
    match db.threads.find? thread with
    | none => [.read id]
    | some t =>
      [.insert id, .commit id] ++
        if (message.idempotencyKey.bind (findMessageByKey db t.orgId)).isSome then [.read id] else []

/-- An append that nothing interleaves with is `appendMessage`. -/
theorem appendMessage_run (h : AppendInv s) (hidle : s.inflight = .empty) {id : ThreadMessageId}
    (hnew : ¬s.Minted id) (now : Time) (org : OrgId) (thread : ThreadId) (message : NewThreadMessage) :
    run appendStep s (appendActs id now org thread message s.db) = some
      ⟨(appendMessage id now org thread message s.db).1, .empty,
        s.returned ++ [⟨id, org, thread, message, (appendMessage id now org thread message s.db).2⟩]⟩ := by
  let a : Append := ⟨id, now, org, thread, message, .started⟩
  have hstart : appendStep s (.start id now org thread message) =
      some (a.solo .started s.db s.returned) := by
    simp only [appendStep, if_neg hnew, hidle, Table.put_empty]
    rfl
  have hfresh : ∀ org seq, ∃ messages,
      s.db.threadMessages.insert? (a.row org seq) = some messages := by
    refine fun org seq => Option.isSome_iff_exists.mp (Table.insert?_isSome.mpr ?_)
    refine Table.find?_eq_none.mpr fun r hr e => hnew (.inr ?_)
    obtain ⟨d, hd, he⟩ := h.minted r hr
    exact ⟨d, hd, he.trans e⟩
  unfold appendMessage appendActs
  cases ht : s.db.threads.find? thread with
  | none =>
    simp only [List.cons_append, List.nil_append]
    rw [run_step hstart, run_step (Append.solo_missing (a := a) ht), run_step Append.solo_read, run_nil]
    rfl
  | some t =>
    let seq := bumpedThreadSeq thread s.db.threadSeq
    have hbump := Append.solo_bump (a := a) s.returned ht
    by_cases hk : (message.idempotencyKey.bind (findMessageByKey s.db t.orgId)).isSome
    · simp only [if_pos hk, List.cons_append, List.nil_append]
      rw [run_step hstart, run_step hbump, run_step (Append.solo_skip (a := a) hk),
        run_step Append.solo_burn, run_step Append.solo_read, run_nil]
      rfl
    · obtain ⟨messages, hins⟩ := hfresh t.orgId seq
      simp only [if_neg hk, List.cons_append, List.nil_append]
      rw [run_step hstart, run_step hbump, run_step (Append.solo_insert (a := a) (by simpa using hk)),
        run_step (Append.solo_commit hins), run_nil]
      have hins' : s.db.threadMessages.insert?
          { message with id, threadId := thread, orgId := t.orgId, seq, createdAt := now } =
          some messages := hins
      rw [hins']
      rfl

/-- What a feed promises its readers and the callers that retry. -/
structure AppendSt.Appends (s : AppendSt) : Prop where
  distinct : ∀ r ∈ s.db.threadMessages, ∀ r' ∈ s.db.threadMessages,
    r.threadId = r'.threadId → r.seq = r'.seq → r = r'
  ordered : ∀ acts t, run appendStep s acts = some t →
    ∀ r ∈ s.db.threadMessages, ∀ r' ∈ t.db.threadMessages,
      r.threadId = r'.threadId → ¬s.Minted r'.id → r.seq < r'.seq
  once : ∀ r ∈ s.db.threadMessages, ∀ r' ∈ s.db.threadMessages, ∀ k,
    r.orgId = r'.orgId → r.idempotencyKey = some k → r'.idempotencyKey = some k → r = r'
  converges : ∀ d ∈ s.returned, ∀ id k, d.result = .ok id → d.message.idempotencyKey = some k →
    ∀ r ∈ s.db.threadMessages, r.orgId = d.orgId → r.idempotencyKey = some k →
      r.threadId = d.threadId → id = r.id

theorem AppendInv.ordered (h : AppendInv s) {acts : List AppendAct} (hrun : run appendStep s acts = some t)
    {r r' : ThreadMessageRow} (hr : r ∈ s.db.threadMessages) (hr' : r' ∈ t.db.threadMessages)
    (hthread : r.threadId = r'.threadId) (hnew : ¬s.Minted r'.id) : r.seq < r'.seq := by
  obtain hold | hle := (h.extended_run hrun).later r' hr'
  · obtain ⟨d, hd, e⟩ := h.minted r' hold
    exact absurd (.inr ⟨d, hd, e⟩) hnew
  · exact (hthread ▸ h.below r hr).trans_le hle

theorem AppendInv.once (h : AppendInv s) {r r' : ThreadMessageRow} (hr : r ∈ s.db.threadMessages)
    (hr' : r' ∈ s.db.threadMessages) {k : IdempotencyKey} (horg : r.orgId = r'.orgId)
    (hk : r.idempotencyKey = some k) (hk' : r'.idempotencyKey = some k) : r = r' :=
  Table.eq_of_key_eq hr hr' (h.keyed r r' k (.inl hr) (.inl hr') horg hk hk')

theorem AppendInv.converges (h : AppendInv s) {d : Appended} (hd : d ∈ s.returned)
    {id : ThreadMessageId} {k : IdempotencyKey} (hid : d.result = .ok id)
    (hk : d.message.idempotencyKey = some k) {r : ThreadMessageRow} (hr : r ∈ s.db.threadMessages)
    (horg : r.orgId = d.orgId) (hrk : r.idempotencyKey = some k) (hthread : r.threadId = d.threadId) :
    id = r.id := by
  obtain ⟨r', hr', rfl, hans⟩ := h.returned d hd id hid
  obtain ⟨-, hthread', hkey'⟩ | ⟨horg', hkey', -⟩ := hans
  · -- its own row stands in the thread's organization, which is the other row's as well
    have horg' : r'.orgId = r.orgId := OrgOf.unique (h.org r' (.inl hr'))
      ((hthread.trans hthread'.symm) ▸ h.org r (.inl hr))
    rw [h.once hr' hr horg' (hkey'.trans hk) hrk]
  · rw [h.once hr' hr (horg'.trans horg.symm) (hkey'.trans hk) hrk]

namespace Sample

def message (key : Option IdempotencyKey) : NewThreadMessage where
  kind := .posted
  sender := some 5
  ownerAgentId := none
  body := .user []
  receiver := none
  requestId := none
  idempotencyKey := key

def submit : IdempotencyKey := ⟨"submit", by decide, by decide⟩

def racing : List AppendAct :=
  [.createThread 2 1, .start 10 3 1 2 (message (some submit)), .start 11 3 1 2 (message (some submit)),
    .bump 11, .insert 11, .commit 11, .bump 10, .insert 10, .commit 10, .read 10]

def followed : List AppendAct :=
  racing ++ [.start 12 4 1 2 (message none), .bump 12, .insert 12, .commit 12]

end Sample

theorem feed_append (h : Reachable appendStep .init s) : s.Appends :=
  have hinv := AppendInv.reachable h
  { distinct := hinv.distinct
    ordered := fun _ _ hrun _ hr _ hr' => hinv.ordered hrun hr hr'
    once := fun _ hr _ hr' _ => hinv.once hr hr'
    converges := fun _ hd _ _ hid hk _ hr => hinv.converges hd hid hk hr }

theorem feed_append_racing : ∃ s, run appendStep .init Sample.followed = some s ∧
    s.db.threadMessages.rows.map (fun r => (r.id, r.seq)) = [(11, 1), (12, 3)] ∧
    s.returned.map (fun d => (d.id, d.result.toOption)) =
      [(11, some 11), (10, some 11), (12, some 12)] ∧ s.Appends := by
  have hrows : (run appendStep .init Sample.followed).map (fun s =>
      (s.db.threadMessages.rows.map fun r => (r.id, r.seq),
        s.returned.map fun d => (d.id, d.result.toOption))) =
      some ([(11, 1), (12, 3)], [(11, some 11), (10, some 11), (12, some 12)]) := by
    decide +kernel
  obtain ⟨s, hrun, e⟩ := Option.map_eq_some_iff.mp hrows
  obtain ⟨e₁, e₂⟩ := Prod.mk.injEq .. ▸ e
  exact ⟨s, hrun, e₁, e₂, feed_append (run_path hrun)⟩

theorem appendMessage_run_raced : ∃ s, run appendStep .init Sample.racing = some s ∧
    run appendStep s (appendActs 12 4 1 2 (Sample.message none) s.db) = some
      ⟨(appendMessage 12 4 1 2 (Sample.message none) s.db).1, .empty, s.returned ++
        [⟨12, 1, 2, Sample.message none, (appendMessage 12 4 1 2 (Sample.message none) s.db).2⟩]⟩ := by
  have hdone : (run appendStep .init Sample.racing).map (fun s =>
      (s.inflight.rows.map Append.id, decide (s.Minted 12))) = some ([], false) := by
    decide +kernel
  obtain ⟨s, hrun, e⟩ := Option.map_eq_some_iff.mp hdone
  obtain ⟨hinflight, hnew⟩ := Prod.mk.inj e
  exact ⟨s, hrun, appendMessage_run (AppendInv.reachable (run_path hrun))
    (Table.ext (List.map_eq_nil_iff.mp hinflight)) (of_decide_eq_false hnew) 4 1 2 _⟩

end Patom.Threads
