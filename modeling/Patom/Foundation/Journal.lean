import Mathlib.Data.List.Sort
import Mathlib.Tactic

universe u v w x

namespace Patom.Foundation

section Result

variable {α : Type u} {β : Type v} {γ : Type u} {err : Type w}

theorem bind_eq_ok {x : Except err α} {f : α → Except err γ} {c : γ} :
    x >>= f = .ok c ↔ ∃ a, x = .ok a ∧ f a = .ok c := by
  cases x with
  | error e => exact ⟨nofun, fun ⟨_, h, _⟩ => nomatch h⟩
  | ok a => exact ⟨fun h => ⟨a, rfl, h⟩, fun ⟨_, h, hf⟩ => Except.ok.inj h ▸ hf⟩

theorem map_eq_ok {x : Except err α} {f : α → γ} {c : γ} :
    f <$> x = .ok c ↔ ∃ a, x = .ok a ∧ f a = c := by
  cases x with
  | error e => exact ⟨nofun, fun ⟨_, h, _⟩ => nomatch h⟩
  | ok a => exact ⟨fun h => ⟨a, rfl, Except.ok.inj h⟩, fun ⟨_, h, hf⟩ => Except.ok.inj h ▸ hf ▸ rfl⟩

theorem toOption_eq_some {x : Except err α} {a : α} : x.toOption = some a ↔ x = .ok a := by
  cases x <;> simp [Except.toOption]

end Result

section Order

variable {ε : Type u} {β : Type v} [LinearOrder β] (stamp : ε → β)

def inOrder (es : List ε) : List ε := es.insertionSort (stamp · ≤ stamp ·)

instance total_stamp : Std.Total fun a b : ε => stamp a ≤ stamp b := ⟨fun a b => le_total (stamp a) (stamp b)⟩

instance isTrans_stamp : IsTrans ε fun a b => stamp a ≤ stamp b := ⟨fun _ _ _ => le_trans⟩

theorem inOrder_perm (es : List ε) : (inOrder stamp es).Perm es := List.perm_insertionSort _ es

@[simp] theorem mem_inOrder {es : List ε} {e : ε} : e ∈ inOrder stamp es ↔ e ∈ es :=
  (inOrder_perm stamp es).mem_iff

theorem inOrder_sorted (es : List ε) :
    (inOrder stamp es).Pairwise fun a b => stamp a ≤ stamp b :=
  List.pairwise_insertionSort _ es

theorem inOrder_append_singleton {es : List ε} {e : ε} (h : ∀ a ∈ es, stamp a ≤ stamp e) :
    inOrder stamp (es ++ [e]) = inOrder stamp es ++ [e] := by
  have hinsert : ∀ (a : ε) (l : List ε), stamp a ≤ stamp e →
      (l ++ [e]).orderedInsert (stamp · ≤ stamp ·) a
        = l.orderedInsert (stamp · ≤ stamp ·) a ++ [e] := by
    intro a l ha
    induction l with
    | nil => simp [ha]
    | cons b l ih => by_cases hab : stamp a ≤ stamp b <;> simp [hab, ih]
  induction es with
  | nil => rfl
  | cons a es ih =>
    have hrest := ih fun b hb => h b (List.mem_cons_of_mem a hb)
    rw [inOrder] at hrest ⊢
    rw [List.cons_append, List.insertionSort_cons, hrest, hinsert a _ (h a List.mem_cons_self)]
    rfl

variable {stamp}

theorem eq_inOrder {es l : List ε} (hinj : ∀ a ∈ es, ∀ b ∈ es, stamp a = stamp b → a = b)
    (hperm : l.Perm es) (hsorted : l.Pairwise fun a b => stamp a ≤ stamp b) :
    l = inOrder stamp es := by
  refine List.Perm.eq_of_pairwise ?_ hsorted (inOrder_sorted stamp es)
    (hperm.trans (inOrder_perm stamp es).symm)
  intro a b ha hb hab hba
  exact hinj a (hperm.mem_iff.mp ha) b ((mem_inOrder stamp).mp hb) (le_antisymm hab hba)

theorem filter_inOrder {es : List ε} (hinj : ∀ a ∈ es, ∀ b ∈ es, stamp a = stamp b → a = b)
    (p : ε → Bool) : (inOrder stamp es).filter p = inOrder stamp (es.filter p) := by
  refine eq_inOrder ?_ ((inOrder_perm stamp es).filter p)
    ((inOrder_sorted stamp es).sublist List.filter_sublist)
  exact fun a ha b hb => hinj a (List.mem_filter.mp ha).1 b (List.mem_filter.mp hb).1

end Order

section Replay

variable {σ : Type u} {ε : Type v} {κ : Type w} {ρ : Type x} {err : Type*} [DecidableEq κ]
  {step : σ → ε → Except err σ} {view : σ → κ → Option ρ} {target : ε → κ}
  {act : ε → Option ρ → Except err (Option ρ)}

/-- A store an entry changes at its target only, and there by what is at the target only. -/
def Keywise (step : σ → ε → Except err σ) (view : σ → κ → Option ρ) (target : ε → κ)
    (act : ε → Option ρ → Except err (Option ρ)) : Prop :=
  ∀ s e, (step s e).map view
    = (act e (view s (target e))).map (Function.update (view s) (target e))

def replay (act : ε → Option ρ → Except err (Option ρ)) (es : List ε) (r : Option ρ) :
    Except err (Option ρ) :=
  es.foldlM (fun r e => act e r) r

@[simp] theorem replay_nil (r : Option ρ) : replay act [] r = .ok r := rfl

theorem replay_cons (e : ε) (es : List ε) (r : Option ρ) :
    replay act (e :: es) r = act e r >>= replay act es := rfl

theorem replay_append (es es' : List ε) (r : Option ρ) :
    replay act (es ++ es') r = replay act es r >>= replay act es' := by
  rw [replay, List.foldlM_append]
  rfl

theorem Keywise.ok (h : Keywise step view target act) {s t : σ} {e : ε} (hs : step s e = .ok t) :
    ∃ r, act e (view s (target e)) = .ok r ∧ view t = Function.update (view s) (target e) r := by
  have hspec := h s e
  rw [hs] at hspec
  cases hact : act e (view s (target e)) with
  | error => rw [hact] at hspec; cases hspec
  | ok r =>
    rw [hact] at hspec
    exact ⟨r, rfl, Except.ok.inj hspec⟩

theorem Keywise.error (h : Keywise step view target act) {s : σ} {e : ε} {x : err}
    (hs : step s e = .error x) : act e (view s (target e)) = .error x := by
  have hspec := h s e
  rw [hs] at hspec
  cases hact : act e (view s (target e)) with
  | error =>
    rw [hact] at hspec
    cases hspec
    rfl
  | ok r => rw [hact] at hspec; cases hspec

theorem Keywise.view_foldlM (h : Keywise step view target act) {es : List ε} {s t : σ}
    (hrun : es.foldlM step s = .ok t) (k : κ) :
    replay act (es.filter fun e => target e = k) (view s k) = .ok (view t k) := by
  induction es generalizing s with
  | nil =>
    cases hrun
    rfl
  | cons e es ih =>
    rw [List.foldlM_cons] at hrun
    cases hs : step s e with
    | error => rw [hs] at hrun; cases hrun
    | ok u =>
      rw [hs] at hrun
      obtain ⟨r, hr, hview⟩ := h.ok hs
      have hrest := ih hrun
      by_cases he : target e = k
      · rw [List.filter_cons_of_pos (by simpa using he), replay_cons, ← he, hr]
        rw [hview, he, Function.update_self] at hrest
        rw [he]
        exact hrest
      · rw [List.filter_cons_of_neg (by simpa using he)]
        rwa [hview, Function.update_of_ne (Ne.symm he)] at hrest

theorem Keywise.foldlM_ok (h : Keywise step view target act) {es : List ε} {s : σ} :
    (∃ t, es.foldlM step s = .ok t)
      ↔ ∀ k, ∃ r, replay act (es.filter fun e => target e = k) (view s k) = .ok r := by
  constructor
  · rintro ⟨t, ht⟩ k
    exact ⟨view t k, h.view_foldlM ht k⟩
  · intro hkeys
    induction es generalizing s with
    | nil => exact ⟨s, rfl⟩
    | cons e es ih =>
      obtain ⟨r, hr⟩ := hkeys (target e)
      rw [List.filter_cons_of_pos (by simp), replay_cons] at hr
      cases hs : step s e with
      | error =>
        rw [h.error hs] at hr
        cases hr
      | ok u =>
        obtain ⟨r', hr', hview⟩ := h.ok hs
        rw [List.foldlM_cons, hs]
        refine ih fun k => ?_
        by_cases he : target e = k
        · subst he
          rw [hr'] at hr
          exact ⟨r, by rwa [hview, Function.update_self]⟩
        · obtain ⟨r'', hr''⟩ := hkeys k
          rw [List.filter_cons_of_neg (by simpa using he)] at hr''
          exact ⟨r'', by rwa [hview, Function.update_of_ne (Ne.symm he)]⟩

end Replay

section Lifetimes

variable {ε : Type u} {ρ : Type v} {err : Type*} {β : Type w} [LinearOrder β] {stamp : ε → β}

/-- An entry that opens what is there fails; every other entry goes through. -/
structure Lifetimes (opens closes : ε → Bool) (act : ε → Option ρ → Except err (Option ρ)) :
    Prop where
  opened : ∀ e r, opens e = true → ∃ x, act e (some r) = .error x
  opening : ∀ e, opens e = true → ∃ r, act e none = .ok (some r)
  closing : ∀ e r, opens e = false → closes e = true → act e r = .ok none
  keeping : ∀ e r, opens e = false → closes e = false →
    ∃ r', act e r = .ok r' ∧ r'.isSome = r.isSome

def Spaced (stamp : ε → β) (opens closes : ε → Bool) (es : List ε) : Prop :=
  ∀ a ∈ es, ∀ b ∈ es, opens a = true → opens b = true → stamp a < stamp b →
    ∃ c ∈ es, opens c = false ∧ closes c = true ∧ stamp a < stamp c ∧ stamp c < stamp b

def Closed (stamp : ε → β) (opens closes : ε → Bool) (es : List ε) : Prop :=
  ∀ b ∈ es, opens b = true → ∃ c ∈ es, opens c = false ∧ closes c = true ∧ stamp c < stamp b

variable {opens closes : ε → Bool} {act : ε → Option ρ → Except err (Option ρ)}

theorem spaced_cons {e : ε} {es : List ε} (hfirst : ∀ b ∈ es, stamp e < stamp b) :
    Spaced stamp opens closes (e :: es)
      ↔ Spaced stamp opens closes es ∧ (opens e = true → Closed stamp opens closes es) := by
  constructor
  · intro h
    constructor
    · intro a ha b hb hoa hob hab
      obtain ⟨c, hc, hoc, hcc, hac, hcb⟩ := h a (List.mem_cons_of_mem e ha) b
        (List.mem_cons_of_mem e hb) hoa hob hab
      rcases List.mem_cons.mp hc with rfl | hc
      · exact absurd hac (lt_asymm (hfirst a ha))
      · exact ⟨c, hc, hoc, hcc, hac, hcb⟩
    · intro ho b hb hob
      obtain ⟨c, hc, hoc, hcc, hec, hcb⟩ := h e List.mem_cons_self b (List.mem_cons_of_mem e hb) ho
        hob (hfirst b hb)
      rcases List.mem_cons.mp hc with rfl | hc
      · exact absurd hec (lt_irrefl _)
      · exact ⟨c, hc, hoc, hcc, hcb⟩
  · rintro ⟨hspaced, hclosed⟩ a ha b hb hoa hob hab
    rcases List.mem_cons.mp ha with rfl | ha' <;> rcases List.mem_cons.mp hb with rfl | hb'
    · exact absurd hab (lt_irrefl _)
    · obtain ⟨c, hc, hoc, hcc, hcb⟩ := hclosed hoa b hb' hob
      exact ⟨c, List.mem_cons_of_mem _ hc, hoc, hcc, hfirst c hc, hcb⟩
    · exact absurd hab (lt_asymm (hfirst a ha'))
    · obtain ⟨c, hc, hrest⟩ := hspaced a ha' b hb' hoa hob hab
      exact ⟨c, List.mem_cons_of_mem _ hc, hrest⟩

theorem closed_cons {e : ε} {es : List ε} (hfirst : ∀ b ∈ es, stamp e < stamp b) :
    Closed stamp opens closes (e :: es)
      ↔ opens e = false ∧ (closes e = true ∨ Closed stamp opens closes es) := by
  constructor
  · intro h
    have ho : opens e = false := by
      rw [← Bool.not_eq_true]
      intro ho
      obtain ⟨c, hc, -, -, hce⟩ := h e List.mem_cons_self ho
      rcases List.mem_cons.mp hc with rfl | hc
      · exact lt_irrefl _ hce
      · exact lt_asymm (hfirst c hc) hce
    refine ⟨ho, ?_⟩
    by_cases hcloses : closes e = true
    · exact .inl hcloses
    · refine .inr fun b hb hob => ?_
      obtain ⟨c, hc, hoc, hcc, hcb⟩ := h b (List.mem_cons_of_mem e hb) hob
      rcases List.mem_cons.mp hc with rfl | hc
      · exact absurd hcc hcloses
      · exact ⟨c, hc, hoc, hcc, hcb⟩
  · rintro ⟨ho, hcloses⟩ b hb hob
    rcases List.mem_cons.mp hb with rfl | hb'
    · rw [ho] at hob
      cases hob
    · rcases hcloses with hcloses | hclosed
      · exact ⟨e, List.mem_cons_self, ho, hcloses, hfirst b hb'⟩
      · obtain ⟨c, hc, hrest⟩ := hclosed b hb' hob
        exact ⟨c, List.mem_cons_of_mem _ hc, hrest⟩

theorem Lifetimes.replay_ok (h : Lifetimes opens closes act) {es : List ε}
    (hsorted : es.Pairwise fun a b => stamp a < stamp b) (r : Option ρ) :
    (∃ r', replay act es r = .ok r') ↔
      Spaced stamp opens closes es ∧ (r.isSome = true → Closed stamp opens closes es) := by
  induction es generalizing r with
  | nil => simp [Spaced, Closed]
  | cons e es ih =>
    obtain ⟨hfirst, hrest⟩ := List.pairwise_cons.mp hsorted
    rw [replay_cons, spaced_cons hfirst, closed_cons hfirst]
    cases ho : opens e with
    | true =>
      cases r with
      | none =>
        obtain ⟨r, hr⟩ := h.opening e ho
        rw [hr]
        exact (ih hrest (some r)).trans (by simp)
      | some r =>
        obtain ⟨x, hx⟩ := h.opened e r ho
        rw [hx]
        constructor
        · rintro ⟨r', hr'⟩
          cases hr'
        · rintro ⟨-, hclosed⟩
          simpa using hclosed rfl
    | false =>
      cases hc : closes e with
      | true =>
        rw [h.closing e r ho hc]
        exact (ih hrest none).trans (by simp)
      | false =>
        obtain ⟨r', hr', hsome⟩ := h.keeping e r ho hc
        rw [hr']
        exact (ih hrest r').trans (by simp [hsome])

end Lifetimes

end Patom.Foundation
