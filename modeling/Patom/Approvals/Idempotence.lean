import Patom.Approvals.Trails

open Patom.Foundation
open Patom.Runtime (Colleague PromptRequestId SpentAfterOne bumpDags_iterate_eq_iff
  bumpDags_iterate_spent)

namespace Patom.Approvals

variable {colleagues : Table Colleague} {readColleague : ColleagueId → Except String DirectoryEntry}
  {record : PendingApproval} {w u : World} {s s' : Calls}

structure Idle (record : PendingApproval) (w : World) (s : Calls) : Prop where
  world : s.world = w
  calls : ∀ b ∈ s.attempts, b.record = record ∧ b.pc = .begun ∧
    w.threads.threads.find? record.threadId = none

theorem Idle.step {act : CallAct} (h : Idle record w s)
    (hstart : ∀ task a, startResume readColleague task record = .ok a →
      a.record = record ∧ a.pc = .begun ∧ w.threads.threads.find? record.threadId = none)
    (hstep : callStep colleagues readColleague record s act = some s') :
    Idle record w s' ∧ act.bumps = false := by
  cases act with
  | call task =>
    simp only [callStep, Option.ite_none_left_eq_some] at hstep
    obtain ⟨-, hstep⟩ := hstep
    split at hstep
    case h_2 =>
      cases hstep
      exact ⟨⟨h.world, h.calls⟩, rfl⟩
    case h_1 b hb =>
      cases hstep
      refine ⟨⟨h.world, fun c hc => ?_⟩, rfl⟩
      rcases Table.mem_put.mp hc with rfl | ⟨hc, -⟩
      · exact hstart task _ hb
      · exact h.calls c hc
  | stop task =>
    cases hstep
    exact ⟨⟨h.world, fun c hc => h.calls c (Table.mem_delete.mp hc).1⟩, rfl⟩
  | step task act =>
    obtain ⟨b, hb, hstep⟩ := Option.bind_eq_some_iff.mp hstep
    obtain ⟨⟨v, q⟩, hresume, hstep⟩ := Option.bind_eq_some_iff.mp hstep
    cases hstep
    obtain ⟨hrecord, hpc, hmissing⟩ := h.calls b (Table.mem_of_find? hb)
    cases act with
    | note | bump | enqueue => simp [resumeStep, hpc] at hresume
    | participate id now =>
      simp only [resumeStep, hpc, Option.some.injEq, Prod.mk.injEq] at hresume
      obtain ⟨rfl, rfl⟩ := hresume
      have hworld : s.world.threads.threads.find? b.record.threadId = none := by
        rw [h.world, hrecord, hmissing]
      obtain ⟨e, he⟩ := participate_missing hworld id now
      rw [he]
      exact ⟨⟨h.world, fun c hc => h.calls c (Table.mem_delete.mp hc).1⟩, rfl⟩

theorem Idle.run {calls : List CallAct} (h : Idle record w s)
    (hstart : ∀ task a, startResume readColleague task record = .ok a →
      a.record = record ∧ a.pc = .begun ∧ w.threads.threads.find? record.threadId = none)
    (hrun : run (callStep colleagues readColleague record) s calls = some s') : s'.world = w := by
  induction calls generalizing s with
  | nil =>
    cases hrun
    exact h.world
  | cons act calls ih =>
    obtain ⟨t, ht, hrun⟩ := Option.bind_eq_some_iff.mp hrun
    exact ih (h.step hstart ht).1 hrun

theorem idle_init (record : PendingApproval) (w : World) : Idle record w (.init w) where
  world := rfl
  calls b hb := absurd hb (Table.not_mem_empty b)

theorem oneCall_refused {e : ApprovalError} (h : startResume readColleague 0 record = .error e) :
    OneCall colleagues readColleague record w w := by
  refine ⟨0, [], ⟨w, .empty, 1⟩, ?_, rfl, rfl⟩
  simp only [List.map_nil, run_cons, run_nil, callStep, Calls.init, Table.find?_empty, Option.isSome_none,
    Bool.false_eq_true, if_false]
  rw [h]
  rfl

theorem Alone.oneCall {a : Attempt} {acts : List ResumeAct}
    {result : Except ApprovalError PromptRequestId}
    (h : Alone colleagues readColleague record w a acts u (.returned result))
    (hstart : startResume readColleague a.id record = .ok { a with pc := .begun }) :
    OneCall colleagues readColleague record w u := by
  obtain ⟨s, hrun, hworld, hreturned, -⟩ := h.ran
  refine ⟨a.id, acts, s, ?_, hreturned, hworld⟩
  simp only [run_cons, callStep, Calls.init, Table.find?_empty, Option.isSome_none, Bool.false_eq_true,
    if_false]
  rw [hstart]
  exact hrun

theorem oneCall_threadless {a : Attempt}
    (hstart : startResume readColleague a.id record = .ok { a with pc := .begun })
    (hthread : w.threads.threads.find? a.record.threadId = none) :
    OneCall colleagues readColleague record w w := by
  obtain ⟨e, he⟩ := @participate_missing w { a with pc := .begun } hthread 0 0
  have hresume : resumeStep w { a with pc := .begun } colleagues (.participate 0 0) =
      some (w, .returned (.error e)) := by
    simp only [resumeStep, he]
    rfl
  exact (alone_begun.step hresume).oneCall hstart

/-- Any number of calls, of which one returned, come to one call exactly where the budget
cannot tell their bumps apart. -/
theorem resume_idempotent_iff
    (hown : ∀ t, w.threads.threads.find? record.threadId = some t → t.orgId = record.orgId)
    {calls : List CallAct}
    (hrun : run (callStep colleagues readColleague record) (.init w) calls = some s)
    (hreturned : 0 < s.returned) :
    (∃ w', OneCall colleagues readColleague record w w' ∧ SameEffect s.world w') ↔
      calls.countP CallAct.bumps ≤ 1 ∨
        SpentAfterOne record.rootRequestId w.queue.promptRequestDags := by
  have hbudget := run_budget (fun b hb => absurd hb (Table.not_mem_empty b)) hrun
  constructor
  · rintro ⟨w', hone, hsame⟩
    obtain ⟨n, hn, hw'⟩ := hone.budget
    exact bumpDags_iterate_eq_iff hn (hbudget.symm.trans (hsame.budget.trans hw'))
  intro hcount
  obtain ⟨e, he⟩ | ⟨a, ha, hstart⟩ := startResume_cases readColleague record
  · have hworld := (idle_init record w).run
      (fun task a ha => absurd ((he task).symm.trans ha) nofun) hrun
    exact ⟨w, oneCall_refused (he 0), hworld ▸ .refl _⟩
  cases hthread : w.threads.threads.find? record.threadId with
  | none =>
    have hworld := (idle_init record w).run (fun task b hb => by
      obtain rfl := Except.ok.inj ((hstart task).symm.trans hb)
      exact ⟨ha, rfl, ha ▸ hthread⟩) hrun
    exact ⟨w, oneCall_threadless (hstart a.id) (ha ▸ hthread), hworld ▸ .refl _⟩
  | some t =>
    subst ha
    have howned : OwnThread w a.record := ⟨t, hthread, hown t hthread⟩
    obtain ⟨u, p, hled, htrails⟩ := (trails_init howned).run
      (@Led.begun colleagues w a (Decidable.decide (calls.countP CallAct.bumps = 0))) hstart hrun
    obtain ⟨r, rfl⟩ : ∃ r, p = .returned r := by
      have hlast := htrails.returned hreturned
      cases p with
      | running pc => cases pc <;> simp [Progress.rank, ResumePc.rank] at hlast
      | returned r => exact ⟨r, rfl⟩
    obtain ⟨acts, halone⟩ := hled.alone
    refine ⟨u, halone.oneCall (hstart a.id), htrails.feed, htrails.requests, ?_⟩
    rw [hbudget, hled.budget]
    cases hbumps : calls.countP CallAct.bumps with
    | zero => rfl
    | succ n =>
      have hone : (if 3 ≤ (Progress.returned r).rank ∧ Decidable.decide (n + 1 = 0) = false then 1 else 0) = 1 := by
        simp [Progress.rank]
      rw [hone]
      rcases hcount with hle | hspent
      · obtain rfl : n = 0 := by omega
        rfl
      · exact bumpDags_iterate_spent hspent n

namespace Sample

def refund : PendingApproval where
  id := 7
  orgId := 1
  threadId := 2
  requestingAgentId := 3
  requestingColleagueId := 4
  rootRequestId := 8
  actionSummary := ⟨"Refund order 12", by decide, by decide⟩
  gatedTool := ⟨"refund", by decide, by decide, by decide⟩
  approverKind := .anyone
  approverColleague := none
  status := .approved
  platform := .web
  platformAppId := none
  platformContainer := none
  platformReplyTo := none
  platformMessageId := none
  idempotencyKey := "call-1"
  decidedByColleague := some 5
  decidedAt := some 20
  expiresAt := 30
  createdAt := 10
  decidedConsistency := ⟨rfl, rfl⟩
  approverConsistency := by decide

def directory : Table Colleague := Table.empty.put ⟨4, 1, some 3⟩ |>.put ⟨5, 1, none⟩

def identities : ColleagueId → Except String DirectoryEntry
  | 5 => .ok ⟨some 6, "Dana"⟩
  | _ => .error "colleague not found"

def decidedWorld : World where
  threads := { Threads.ThreadDb.empty with threads := Table.empty.put ⟨2, 1⟩ }
  queue := ⟨.empty, Table.empty.put ⟨8, 1, 1, Runtime.MAX_DAG_TURNS, 0⟩, .empty, .empty⟩

def oneCall (task state message request : Uuid) : List CallAct :=
  [.call task, .step task (.participate state 21), .step task (.note message 22),
    .step task (.bump false), .step task (.enqueue request 23)]

def retried : List CallAct :=
  [.call 40, .step 40 (.participate 41 21), .call 44, .step 40 (.note 42 22),
    .step 44 (.participate 45 22), .step 44 (.note 46 23), .stop 40, .step 44 (.bump false),
    .step 44 (.enqueue 47 24)]

end Sample

theorem retried_is_one_call :
    ∃ s, run (callStep Sample.directory Sample.identities Sample.refund) (.init Sample.decidedWorld)
        Sample.retried = some s ∧ s.world.threads.threadMessages.rows.length = 1 ∧
      ∃ w', OneCall Sample.directory Sample.identities Sample.refund Sample.decidedWorld w' ∧
        SameEffect s.world w' := by
  have hrun : (run (callStep Sample.directory Sample.identities Sample.refund)
      (.init Sample.decidedWorld) Sample.retried).any fun s =>
        0 < s.returned ∧ s.world.threads.threadMessages.rows.length = 1 := by
    decide +kernel
  obtain ⟨s, hs, hdone⟩ := (Option.any_eq_true _ _).mp hrun
  obtain ⟨hreturned, hfeed⟩ := of_decide_eq_true hdone
  refine ⟨s, hs, hfeed, (resume_idempotent_iff (fun t ht => ?_) hs hreturned).mpr (.inl ?_)⟩
  · cases ht
    rfl
  · decide

/-- The second click appends nothing and enqueues nothing, and takes a second turn. -/
theorem second_call_takes_a_turn :
    ∃ s, run (callStep Sample.directory Sample.identities Sample.refund) (.init Sample.decidedWorld)
        (Sample.oneCall 40 41 42 43 ++ Sample.oneCall 44 45 46 47) = some s ∧
      s.returned = 2 ∧ s.world.threads.threadMessages.rows.length = 1 ∧
      s.world.queue.promptRequests.rows.length = 1 ∧
      ¬ ∃ w', OneCall Sample.directory Sample.identities Sample.refund Sample.decidedWorld w' ∧
        SameEffect s.world w' := by
  have hrun : (run (callStep Sample.directory Sample.identities Sample.refund)
      (.init Sample.decidedWorld) (Sample.oneCall 40 41 42 43 ++ Sample.oneCall 44 45 46 47)).any fun s =>
        s.returned = 2 ∧ s.world.threads.threadMessages.rows.length = 1 ∧
          s.world.queue.promptRequests.rows.length = 1 ∧
          (s.world.queue.promptRequestDags.find? 8).map (·.turnsUsed) = some 3 := by
    decide +kernel
  obtain ⟨s, hs, hcharged⟩ := (Option.any_eq_true _ _).mp hrun
  obtain ⟨hreturned, hfeed, htriggers, hused⟩ := of_decide_eq_true hcharged
  refine ⟨s, hs, hreturned, hfeed, htriggers, ?_⟩
  rintro ⟨w', hone, hsame⟩
  obtain ⟨n, hn, hw'⟩ := hone.budget
  rw [hsame.budget, hw'] at hused
  interval_cases n <;> revert hused <;> decide +kernel

end Patom.Approvals
