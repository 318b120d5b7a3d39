import Mathlib.Tactic

universe u v

namespace Patom.Foundation

/-- Actions are deterministic and may be disabled. -/
abbrev Step (σ : Type u) (α : Type v) := σ → α → Option σ

variable {σ : Type u} {α : Type v} {step : Step σ α}

def run (step : Step σ α) : σ → List α → Option σ
  | s, [] => some s
  | s, a :: as => (step s a).bind fun t => run step t as

/-- States linked by enabled actions, each meeting the guard where it is taken. -/
inductive Path (step : Step σ α) (G : σ → α → Prop) : σ → σ → Prop
  | refl (s : σ) : Path step G s s
  | tail {s t u : σ} {a : α} : Path step G s t → G t a → step t a = some u → Path step G s u

def Free (_ : σ) (_ : α) : Prop := True

def Reachable (step : Step σ α) (init s : σ) : Prop := Path step Free init s

/-- `P` in every state a schedule visits; the schedule ends at its first disabled action. -/
def Always (step : Step σ α) (P : σ → Prop) : σ → List α → Prop
  | s, [] => P s
  | s, a :: as => P s ∧ ∀ t, step s a = some t → Always step P t as

/-- `G` at every enabled action of a schedule, in the state it is taken in. -/
def Steps (step : Step σ α) (G : σ → α → Prop) : σ → List α → Prop
  | _, [] => True
  | s, a :: as => ∀ t, step s a = some t → G s a ∧ Steps step G t as

theorem steps_cons_iff {G : σ → α → Prop} {s : σ} {a : α} {as : List α} :
    Steps step G s (a :: as) ↔ ∀ t ∈ step s a, G s a ∧ Steps step G t as :=
  Iff.rfl

def Steps.decidable {G : σ → α → Prop} [∀ s a, Decidable (G s a)] :
    (s : σ) → (as : List α) → Decidable (Steps step G s as)
  | _, [] => .isTrue trivial
  | s, a :: as =>
    have (t : σ) : Decidable (G s a ∧ Steps step G t as) :=
      @instDecidableAnd _ _ _ (Steps.decidable t as)
    decidable_of_iff (∀ t ∈ step s a, G s a ∧ Steps step G t as) steps_cons_iff.symm

instance {G : σ → α → Prop} [∀ s a, Decidable (G s a)] (s : σ) (as : List α) :
    Decidable (Steps step G s as) :=
  Steps.decidable s as

@[simp] theorem run_nil (s : σ) : run step s [] = some s := rfl

@[simp] theorem run_cons (s : σ) (a : α) (as : List α) :
    run step s (a :: as) = (step s a).bind fun t => run step t as := rfl

theorem run_step {s t : σ} {a : α} (h : step s a = some t) (as : List α) :
    run step s (a :: as) = run step t as := by
  rw [run_cons, h, Option.bind_some]

theorem run_append (s : σ) (as bs : List α) :
    run step s (as ++ bs) = (run step s as).bind fun t => run step t bs := by
  induction as generalizing s with
  | nil => simp
  | cons a as ih => simp [ih, Option.bind_assoc]

theorem Path.trans {G : σ → α → Prop} {s t u : σ} (h : Path step G s t) (k : Path step G t u) :
    Path step G s u := by
  induction k with
  | refl => exact h
  | tail _ g e ih => exact .tail ih g e

theorem Path.single {G : σ → α → Prop} {s t : σ} {a : α} (g : G s a) (e : step s a = some t) :
    Path step G s t :=
  .tail (.refl s) g e

theorem Path.mono {G H : σ → α → Prop} (hGH : ∀ s a, G s a → H s a) {s t : σ}
    (h : Path step G s t) : Path step H s t := by
  induction h with
  | refl => exact .refl _
  | tail _ g e ih => exact .tail ih (hGH _ _ g) e

theorem Path.reachable {G : σ → α → Prop} {s t : σ} (h : Path step G s t) :
    Reachable step s t :=
  h.mono fun _ _ _ => trivial

/-- What one guarded step preserves, a guarded run preserves. -/
theorem Path.inv {G : σ → α → Prop} {Inv : σ → Prop}
    (hstep : ∀ s a t, Inv s → G s a → step s a = some t → Inv t) {s t : σ}
    (h : Path step G s t) (hs : Inv s) : Inv t := by
  induction h with
  | refl => exact hs
  | tail _ g e ih => exact hstep _ _ _ ih g e

theorem Reachable.inv {Inv : σ → Prop}
    (hstep : ∀ s a t, Inv s → step s a = some t → Inv t) {s t : σ}
    (h : Reachable step s t) (hs : Inv s) : Inv t :=
  Path.inv (fun s a t hi _ => hstep s a t hi) h hs

theorem run_path {s t : σ} {as : List α} (h : run step s as = some t) : Reachable step s t := by
  induction as generalizing s with
  | nil => cases h; exact .refl _
  | cons a as ih =>
    obtain ⟨u, hu, hrest⟩ := Option.bind_eq_some_iff.mp h
    exact (Path.single trivial hu).trans (ih hrest)

theorem Reachable.run {s t : σ} (h : Reachable step s t) : ∃ as, run step s as = some t := by
  induction h with
  | refl => exact ⟨[], rfl⟩
  | @tail t u a _ _ e ih =>
    obtain ⟨as, has⟩ := ih
    exact ⟨as ++ [a], by simp [run_append, has, e]⟩

theorem Always.head {P : σ → Prop} {s : σ} {as : List α} (h : Always step P s as) : P s := by
  cases as with
  | nil => exact h
  | cons a as => exact h.1

theorem Always.run {P : σ → Prop} {s t : σ} {as : List α} (h : Always step P s as)
    (hrun : run step s as = some t) : P t := by
  induction as generalizing s with
  | nil =>
    cases hrun
    exact h
  | cons a as ih =>
    obtain ⟨u, hu, hrest⟩ := Option.bind_eq_some_iff.mp hrun
    exact ih (h.2 u hu) hrest

theorem Always.mono {P Q : σ → Prop} (hPQ : ∀ s, P s → Q s) {s : σ} {as : List α}
    (h : Always step P s as) : Always step Q s as := by
  induction as generalizing s with
  | nil => exact hPQ s h
  | cons a as ih => exact ⟨hPQ s h.1, fun t e => ih (h.2 t e)⟩

/-- What every step preserves, every schedule stays in. -/
theorem Always.of_inv {P : σ → Prop} (hstep : ∀ s a t, P s → step s a = some t → P t) {s : σ}
    (hs : P s) (as : List α) : Always step P s as := by
  induction as generalizing s with
  | nil => exact hs
  | cons a as ih => exact ⟨hs, fun t e => ih (hstep s a t hs e)⟩

theorem Steps.of_forall {G : σ → α → Prop} {as : List α} (h : ∀ s, ∀ a ∈ as, G s a) (s : σ) :
    Steps step G s as := by
  induction as generalizing s with
  | nil => trivial
  | cons a as ih =>
    exact fun t _ => ⟨h s a List.mem_cons_self, ih (fun s b hb => h s b (List.mem_cons_of_mem a hb)) t⟩

theorem Steps.append {G : σ → α → Prop} {as bs : List α} {s : σ} (h : Steps step G s as)
    (k : ∀ t, run step s as = some t → Steps step G t bs) : Steps step G s (as ++ bs) := by
  induction as generalizing s with
  | nil => exact k s rfl
  | cons a as ih =>
    intro t e
    obtain ⟨g, hrest⟩ := h t e
    exact ⟨g, ih hrest fun u hu => k u (by rw [run_cons, e]; exact hu)⟩

theorem Steps.last {G : σ → α → Prop} {as : List α} {a : α} {s t u : σ}
    (h : Steps step G s (as ++ [a])) (hrun : run step s as = some t) (hu : step t a = some u) :
    G t a := by
  induction as generalizing s with
  | nil =>
    cases hrun
    exact (h u hu).1
  | cons b as ih =>
    obtain ⟨v, hv, hrest⟩ := Option.bind_eq_some_iff.mp hrun
    exact ih (h v hv).2 hrest

/-- A schedule whose steps are guarded keeps what each guarded step keeps. -/
theorem Steps.always {G : σ → α → Prop} {P : σ → Prop} (Inv : σ → Prop)
    (hstep : ∀ s a t, Inv s → P s → step s a = some t → P t → Inv t)
    (hkeep : ∀ s a t, Inv s → P s → step s a = some t → G s a → P t) {s : σ} {as : List α}
    (hs : Inv s) (hP : P s) (h : Steps step G s as) : Always step P s as := by
  induction as generalizing s with
  | nil => exact hP
  | cons a as ih =>
    refine ⟨hP, fun t e => ?_⟩
    obtain ⟨g, rest⟩ := h t e
    have hPt := hkeep s a t hs hP e g
    exact ih (hstep s a t hs hP e hPt) hPt rest

/-- Under an invariant that guarded steps keep, a guard may be exchanged for one it implies. -/
theorem Steps.imp {G H : σ → α → Prop} (Inv : σ → Prop)
    (hstep : ∀ s a t, Inv s → G s a → step s a = some t → Inv t)
    (himp : ∀ s a t, Inv s → step s a = some t → G s a → H s a) {s : σ} {as : List α}
    (hs : Inv s) (h : Steps step G s as) : Steps step H s as := by
  induction as generalizing s with
  | nil => trivial
  | cons a as ih =>
    intro t e
    obtain ⟨g, rest⟩ := h t e
    exact ⟨himp s a t hs e g, ih (hstep s a t hs g e) rest⟩

theorem steps_iff_steps {G H : σ → α → Prop} (Inv : σ → Prop)
    (hstep : ∀ s a t, Inv s → step s a = some t → Inv t)
    (hiff : ∀ s a t, Inv s → step s a = some t → (G s a ↔ H s a)) {s : σ} (hs : Inv s)
    (as : List α) : Steps step G s as ↔ Steps step H s as := by
  induction as generalizing s with
  | nil => exact Iff.rfl
  | cons a as ih =>
    exact forall₂_congr fun t e => and_congr (hiff s a t hs e) (ih (hstep s a t hs e))

/-- If, under the invariant, a step keeps `P` exactly when its guard holds, then a schedule
stays in `P` exactly when it meets the guard throughout. -/
theorem always_iff_steps {G : σ → α → Prop} {P : σ → Prop} (Inv : σ → Prop)
    (hstep : ∀ s a t, Inv s → P s → step s a = some t → P t → Inv t)
    (hexact : ∀ s a t, Inv s → P s → step s a = some t → (P t ↔ G s a)) {s : σ}
    (hs : Inv s) (hP : P s) (as : List α) : Always step P s as ↔ Steps step G s as := by
  constructor
  · intro h
    induction as generalizing s with
    | nil => trivial
    | cons a as ih =>
      intro t e
      have hrest := h.2 t e
      exact ⟨(hexact s a t hs hP e).mp hrest.head,
        ih (hstep s a t hs hP e hrest.head) hrest.head hrest⟩
  · exact Steps.always Inv hstep (fun s a t hi hp e => (hexact s a t hi hp e).mpr) hs hP

end Patom.Foundation
