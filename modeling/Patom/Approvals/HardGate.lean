import Patom.Approvals.DeskInvariant
import Patom.Approvals.System

open Patom.Foundation
open Patom.Provider (ToolCall)

namespace Patom.Approvals

variable {env : Env} {s t : St}

theorem desk_step {a : Act} (h : step env s a = some t) :
    t.desk = s.desk ∨ ∃ a, deskStep env.wired env.reduce s.desk a = some t.desk := by
  cases a with
  | desk a =>
    obtain ⟨desk, hdesk, rfl⟩ := Option.map_eq_some_iff.mp h
    exact .inr ⟨a, hdesk⟩
  | createThread id org =>
    obtain ⟨threads, -, rfl⟩ := Option.map_eq_some_iff.mp h
    exact .inl rfl
  | post request now trig =>
    simp only [step, Option.ite_none_right_eq_some] at h
    obtain ⟨-, h⟩ := h
    split at h <;> cases h <;> exact .inl rfl
  | claimed | finalised | sendStop | resumeStop =>
    cases h
    exact .inl rfl
  | send task ctx thread colleague agent content =>
    simp only [step] at h
    split at h
    case h_1 =>
      obtain ⟨sends, -, rfl⟩ := Option.map_eq_some_iff.mp h
      exact .inl rfl
    case h_2 =>
      cases h
      exact .inl rfl
  | sendStep task act =>
    obtain ⟨d, -, h⟩ := Option.bind_eq_some_iff.mp h
    obtain ⟨⟨w, p⟩, -, h⟩ := Option.bind_eq_some_iff.mp h
    cases h
    exact .inl rfl
  | resume task org approval =>
    simp only [step] at h
    split at h
    case h_1 =>
      cases h
      exact .inl rfl
    case h_2 =>
      split at h
      case h_1 =>
        obtain ⟨attempts, -, rfl⟩ := Option.map_eq_some_iff.mp h
        exact .inl rfl
      case h_2 =>
        cases h
        exact .inl rfl
  | resumeStep task act =>
    obtain ⟨b, -, h⟩ := Option.bind_eq_some_iff.mp h
    obtain ⟨⟨w, p⟩, -, h⟩ := Option.bind_eq_some_iff.mp h
    cases h
    exact .inl rfl

theorem desk_inv {as : List Act} (h : s.desk.Inv) (hrun : run (step env) s as = some t) : t.desk.Inv := by
  induction as generalizing s with
  | nil =>
    cases hrun
    exact h
  | cons a as ih =>
    obtain ⟨u, hu, hrun⟩ := Option.bind_eq_some_iff.mp hrun
    obtain hdesk | ⟨a, hdesk⟩ := desk_step hu
    · exact ih (hdesk ▸ h) hrun
    · exact ih (h.step hdesk) hrun

/-- A call that needs an approval runs only on a decision that approved it in time, by someone
its policy names; a row is decided once and its status settles once. -/
theorem hard_gate {as : List Act} (hrun : run (step env) .init as = some s) :
    (∀ d ∈ s.desk.dispatches, d.id ∈ s.desk.executed → s.desk.Required d →
      ∃ v ∈ s.desk.verdicts, v.Licenses d ∧ v.Sound s.desk.filings) ∧
    (s.desk.verdicts.map (·.before.id)).Nodup ∧
    ∀ a t, step env s a = some t → ∀ r ∈ s.desk.approvals.pendingApproval,
      ∃ r' ∈ t.desk.approvals.pendingApproval, r'.id = r.id ∧ r.status.Moves r'.status := by
  have h : s.desk.Inv := desk_inv Desk.inv_init hrun
  refine ⟨fun d hd hexecuted hrequired => ?_, h.once, fun a t hstep r hr => ?_⟩
  · obtain ⟨v, hv, hlicenses⟩ := h.licensed hd hexecuted hrequired
    exact ⟨v, hv, hlicenses, h.sound v hv⟩
  · obtain hdesk | ⟨a, hdesk⟩ := desk_step hstep
    · exact ⟨r, hdesk ▸ hr, rfl, .inl rfl⟩
    · obtain ⟨r', hr', hkeeps⟩ := deskStep_keeps hdesk hr
      exact ⟨r', hr', hkeeps.id, hkeeps.moves⟩

namespace Sample

def deployCall : ToolCall := ⟨⟨"call-2", by decide, by decide⟩, deploy.gatedTool, "\x7b\x7d"⟩

def gatedCall : List Act :=
  [.desk (.setGated 1 1 3 deploy.gatedTool), .desk (.ask 1 2 deploy),
    .desk (.decide 1 11 .approved 5 3), .desk (.callTool 60 deployCall .normal turn true),
    .desk (.consultConfig 60 none), .desk (.consultApprovals 60 none),
    .desk (.execute 60 (.output "deployed"))]

end Sample

theorem gated_call_licensed : ∃ s,
    run (step Sample.deployment) .init Sample.gatedCall = some s ∧ 60 ∈ s.desk.executed ∧
    (∀ d ∈ s.desk.dispatches, d.id ∈ s.desk.executed → s.desk.Required d →
      ∃ v ∈ s.desk.verdicts, v.Licenses d ∧ v.Sound s.desk.filings) ∧
    (s.desk.verdicts.map (·.before.id)).Nodup ∧
    ∀ a t, step Sample.deployment s a = some t → ∀ r ∈ s.desk.approvals.pendingApproval,
      ∃ r' ∈ t.desk.approvals.pendingApproval, r'.id = r.id ∧ r.status.Moves r'.status := by
  have hrun : (run (step Sample.deployment) .init Sample.gatedCall).any fun s =>
      s.desk.executed = [60] := by
    decide +kernel
  obtain ⟨s, hs, hexecuted⟩ := (Option.any_eq_true _ _).mp hrun
  refine ⟨s, hs, ?_, hard_gate hs⟩
  rw [of_decide_eq_true hexecuted]
  exact List.mem_singleton_self 60

end Patom.Approvals
