import Patom.Approvals.Resume
import Patom.Foundation.Transition

open Patom.Foundation
open Patom.Runtime (Colleague PromptRequestId bumpDags)

namespace Patom.Approvals

structure Calls where
  world : World
  attempts : Table Attempt
  returned : Nat

def Calls.init (w : World) : Calls := ⟨w, .empty, 0⟩

inductive CallAct
  | call (task : Uuid)
  | step (task : Uuid) (act : ResumeAct)
  | stop (task : Uuid)

def Progress.returns : Progress → Nat
  | .running _ => 0
  | .returned _ => 1

def CallAct.bumps : CallAct → Bool
  | .step _ (.bump false) => true
  | _ => false

section Calls

variable (colleagues : Table Colleague) (readColleague : ColleagueId → Except String DirectoryEntry)
  (record : PendingApproval)

def callStep : Step Calls CallAct
  | s, .call task =>
    if (s.attempts.find? task).isSome then none
    else
      match startResume readColleague task record with
      | .ok a => some { s with attempts := s.attempts.put a }
      | .error _ => some { s with returned := s.returned + 1 }
  | s, .step task act => do
    let a ← s.attempts.find? task
    let (world, progress) ← resumeStep s.world a colleagues act
    some ⟨world, settleAttempt a s.attempts progress, s.returned + progress.returns⟩
  | s, .stop task => some { s with attempts := s.attempts.delete fun a => a.id = task }

/-- The same feed rows, the same triggers and the same budget counters. -/
structure SameEffect (w w' : World) : Prop where
  feed : w.threads.threadMessages = w'.threads.threadMessages
  triggers : w.queue.promptRequests = w'.queue.promptRequests
  budget : w.queue.promptRequestDags = w'.queue.promptRequestDags

/-- What one call leaves that runs to its end, for some of the draws it may make. -/
def OneCall (w w' : World) : Prop :=
  ∃ (task : Uuid) (acts : List ResumeAct) (s : Calls), run (callStep colleagues readColleague record) (.init w)
    (.call task :: acts.map (.step task)) = some s ∧ s.returned = 1 ∧ s.world = w'

end Calls

variable {colleagues : Table Colleague} {readColleague : ColleagueId → Except String DirectoryEntry}
  {record : PendingApproval} {w u : World} {s s' : Calls}

theorem SameEffect.refl (w : World) : SameEffect w w := ⟨rfl, rfl, rfl⟩

theorem startResume_cases (readColleague : ColleagueId → Except String DirectoryEntry)
    (record : PendingApproval) : (∃ e, ∀ task, startResume readColleague task record = .error e) ∨
      ∃ a : Attempt, a.record = record ∧
        ∀ task, startResume readColleague task record = .ok { a with id := task, pc := .begun } := by
  cases hdecided : record.decidedByColleague with
  | none =>
    exact .inl ⟨.backend "resume called on a non-decided approval", fun _ => by
      simp [startResume, hdecided, bind, Except.bind]⟩
  | some c =>
    cases hlabel : resumeLabel record.status with
    | error e => exact .inl ⟨e, fun _ => by simp [startResume, hdecided, hlabel, bind, Except.bind]⟩
    | ok label =>
      cases hread : readColleague c with
      | error e =>
        exact .inl ⟨.backend ("resume: read decider: " ++ e), fun _ => by
          simp [startResume, hdecided, hlabel, hread, Except.mapError, bind, Except.bind]⟩
      | ok entry =>
        cases huser : entry.userId with
        | none =>
          exact .inl ⟨.backend "resume: decider colleague has no user", fun _ => by
            simp [startResume, hdecided, hlabel, hread, huser, Except.mapError, bind, Except.bind]⟩
        | some user =>
          refine .inr ⟨⟨0, record, c, user, entry.displayName, label, .begun⟩, rfl, fun task => ?_⟩
          simp [startResume, hdecided, hlabel, hread, huser, Except.mapError, bind, Except.bind]

section Budget

variable {a : Attempt} {p : Progress} {calls : List CallAct}

theorem resumeStep_budget {act : ResumeAct} {v : World} (h : resumeStep u a colleagues act = some (v, p)) :
    v.queue.promptRequestDags = (bumpDags a.record.rootRequestId)^[if (CallAct.step a.id act).bumps
      then 1 else 0] u.queue.promptRequestDags := by
  cases act with
  | participate id now =>
    simp only [resumeStep] at h
    split at h
    case h_2 => cases h
    case h_1 =>
      cases h
      unfold stepParticipate
      split <;> rfl
  | note id now =>
    simp only [resumeStep] at h
    split at h
    case h_2 => cases h
    case h_1 =>
      obtain ⟨-, h⟩ := Option.ite_none_left_eq_some.mp h
      cases h
      unfold stepNote
      split <;> rfl
  | bump fails =>
    simp only [resumeStep] at h
    split at h
    case h_2 => cases h
    case h_1 =>
      cases h
      rw [stepBump_world]
      cases fails <;> rfl
  | enqueue request now =>
    simp only [resumeStep] at h
    split at h
    case h_2 => cases h
    case h_1 =>
      obtain ⟨-, h⟩ := Option.ite_none_left_eq_some.mp h
      cases h
      exact (enqueue_frame ..).2

theorem run_budget (hrecords : ∀ b ∈ s.attempts, b.record = record)
    (hrun : run (callStep colleagues readColleague record) s calls = some s') :
    s'.world.queue.promptRequestDags = (bumpDags record.rootRequestId)^[calls.countP CallAct.bumps]
      s.world.queue.promptRequestDags := by
  induction calls generalizing s with
  | nil =>
    cases hrun
    rfl
  | cons act calls ih =>
    obtain ⟨t, ht, hrun⟩ := Option.bind_eq_some_iff.mp hrun
    rw [List.countP_cons, Function.iterate_add_apply]
    have hstep : (∀ b ∈ t.attempts, b.record = record) ∧ t.world.queue.promptRequestDags =
        (bumpDags record.rootRequestId)^[if act.bumps then 1 else 0]
          s.world.queue.promptRequestDags := by
      cases act with
      | call task =>
        simp only [callStep, Option.ite_none_left_eq_some] at ht
        obtain ⟨-, ht⟩ := ht
        split at ht
        case h_2 =>
          cases ht
          exact ⟨hrecords, rfl⟩
        case h_1 b hb =>
          cases ht
          refine ⟨fun c hc => ?_, rfl⟩
          rcases Table.mem_put.mp hc with rfl | ⟨hc, -⟩
          · obtain ⟨e, he⟩ | ⟨b', hb', hstart⟩ := startResume_cases readColleague record
            · exact absurd ((he task).symm.trans hb) nofun
            · exact Except.ok.inj ((hstart task).symm.trans hb) ▸ hb'
          · exact hrecords c hc
      | stop task =>
        cases ht
        exact ⟨fun c hc => hrecords c (Table.mem_delete.mp hc).1, rfl⟩
      | step task act =>
        obtain ⟨b, hb, ht⟩ := Option.bind_eq_some_iff.mp ht
        obtain ⟨⟨v, q⟩, hresume, ht⟩ := Option.bind_eq_some_iff.mp ht
        cases ht
        have hid : b.id = task := Table.key_of_find? hb
        have hrecord := hrecords b (Table.mem_of_find? hb)
        refine ⟨fun c hc => ?_, ?_⟩
        · rcases mem_settleAttempt hc with ⟨pc, -, rfl⟩ | hc
          · exact hrecord
          · exact hrecords c hc
        · rw [← hrecord, ← hid]
          exact resumeStep_budget hresume
    rw [ih hstep.1 hrun, hstep.2]

def bumpsLeft : Option Attempt → Nat
  | some b => if b.pc.rank ≤ 2 then 1 else 0
  | none => 0

theorem resumeStep_bumpsLeft {act : ResumeAct} {v : World}
    (h : resumeStep u a colleagues act = some (v, p)) (attempts : Table Attempt) :
    bumpsLeft ((settleAttempt a attempts p).find? a.id) +
      (if (CallAct.step a.id act).bumps then 1 else 0) ≤ bumpsLeft (some a) := by
  have hreturned : ∀ r, (settleAttempt a attempts (.returned r)).find? a.id = none := fun r =>
    Table.find?_eq_none.mpr fun b hb => of_decide_eq_false (Table.mem_delete.mp hb).2
  cases act with
  | participate id now =>
    simp only [resumeStep] at h
    split at h
    case h_2 => cases h
    case h_1 hpc =>
      cases h
      cases (stepParticipate u a id now).2 with
      | ok => simp [Progress.ofExcept, find?_settleAttempt, bumpsLeft, hpc, CallAct.bumps, ResumePc.rank]
      | error => simp [Progress.ofExcept, hreturned, bumpsLeft, CallAct.bumps]
  | note id now =>
    simp only [resumeStep] at h
    split at h
    case h_2 => cases h
    case h_1 hpc =>
      obtain ⟨-, h⟩ := Option.ite_none_left_eq_some.mp h
      cases h
      cases (stepNote u a id now).2 with
      | ok => simp [Progress.ofExcept, find?_settleAttempt, bumpsLeft, hpc, CallAct.bumps, ResumePc.rank]
      | error => simp [Progress.ofExcept, hreturned, bumpsLeft, CallAct.bumps]
  | bump fails =>
    simp only [resumeStep] at h
    split at h
    case h_2 => cases h
    case h_1 hpc =>
      cases h
      cases fails <;> simp [find?_settleAttempt, bumpsLeft, hpc, CallAct.bumps, ResumePc.rank]
  | enqueue request now =>
    simp only [resumeStep] at h
    split at h
    case h_2 => cases h
    case h_1 =>
      obtain ⟨-, h⟩ := Option.ite_none_left_eq_some.mp h
      cases h
      simp [hreturned, bumpsLeft, CallAct.bumps]

theorem countP_bumps_le {task : Uuid} {acts : List ResumeAct}
    (hrun : run (callStep colleagues readColleague record) s (acts.map (.step task)) = some s') :
    (acts.map (CallAct.step task)).countP CallAct.bumps ≤ bumpsLeft (s.attempts.find? task) := by
  induction acts generalizing s with
  | nil => exact Nat.zero_le _
  | cons act acts ih =>
    obtain ⟨t, ht, hrun⟩ := Option.bind_eq_some_iff.mp hrun
    obtain ⟨b, hb, ht⟩ := Option.bind_eq_some_iff.mp ht
    obtain ⟨⟨v, q⟩, hresume, ht⟩ := Option.bind_eq_some_iff.mp ht
    cases ht
    obtain rfl : b.id = task := Table.key_of_find? hb
    rw [List.map_cons, List.countP_cons, hb]
    exact (Nat.add_le_add_right (ih hrun) _).trans (resumeStep_bumpsLeft hresume s.attempts)

theorem OneCall.budget {w' : World} (h : OneCall colleagues readColleague record w w') :
    ∃ n ≤ 1, w'.queue.promptRequestDags =
      (bumpDags record.rootRequestId)^[n] w.queue.promptRequestDags := by
  obtain ⟨task, acts, s, hrun, -, rfl⟩ := h
  refine ⟨_, ?_, run_budget (fun b hb => absurd hb (Table.not_mem_empty b)) hrun⟩
  obtain ⟨t, -, hrun⟩ := Option.bind_eq_some_iff.mp hrun
  have hle := countP_bumps_le hrun
  rw [List.countP_cons_of_neg (by simp [CallAct.bumps])]
  refine hle.trans ?_
  unfold bumpsLeft
  split
  · split <;> decide
  · decide

end Budget

end Patom.Approvals
