import Mathlib.Tactic

/-! Pages by offset, each cut out of an order that is chosen anew among equal rows. -/

universe u v

namespace Patom.Foundation.Pages

variable {α : Type u} {κ : Type v} [LinearOrder κ]

structure Descending (val : α → κ) (xs ordered : List α) : Prop where
  perm : ordered.Perm xs
  sorted : ordered.Pairwise fun a b => val b ≤ val a

def page (p n : Nat) (ordered : List α) : List α := (ordered.drop (n * p)).take p

/-- Rows of one value lie on both sides of where page `n` begins. -/
def Straddled (val : α → κ) (xs : List α) (p n : Nat) : Prop :=
  ∃ t, xs.countP (t < val ·) < n * p ∧ n * p < xs.countP (t ≤ val ·)

section Sorted

variable {val : α → κ} {xs s s' : List α} {p n i : Nat} {x : α}

theorem holds_iff_lt_countP {q : α → Bool} (h : s.Pairwise fun a b => q b → q a)
    (hx : s[i]? = some x) : q x ↔ i < s.countP q := by
  induction s generalizing i with
  | nil => cases hx
  | cons a s ih =>
    obtain ⟨ha, hs⟩ := List.pairwise_cons.mp h
    cases i with
    | zero =>
      obtain rfl : a = x := by simpa using hx
      constructor
      · intro hq
        exact List.countP_pos_iff.mpr ⟨a, List.mem_cons_self, hq⟩
      · intro hpos
        obtain ⟨b, hb, hq⟩ := List.countP_pos_iff.mp hpos
        rcases List.mem_cons.mp hb with rfl | hb
        · exact hq
        · exact ha b hb hq
    | succ i =>
      have hx' : s[i]? = some x := by simpa using hx
      rw [ih hs hx', List.countP_cons]
      by_cases hq : q a
      · rw [if_pos hq, Nat.succ_lt_succ_iff]
      · have hnone : s.countP q = 0 := List.countP_eq_zero.mpr fun b hb hqb => hq (ha b hb hqb)
        rw [if_neg hq, hnone]
        omega

theorem take_countP {q : α → Bool} (h : s.Pairwise fun a b => q b → q a) :
    s.take (s.countP q) = s.filter q := by
  induction s with
  | nil => rfl
  | cons a s ih =>
    obtain ⟨ha, hs⟩ := List.pairwise_cons.mp h
    by_cases hq : q a
    · rw [List.countP_cons_of_pos hq, List.take_succ_cons, ih hs, List.filter_cons_of_pos hq]
    · have hnone : ∀ b ∈ s, ¬ q b := fun b hb hqb => hq (ha b hb hqb)
      rw [List.countP_cons_of_neg hq, List.filter_cons_of_neg hq, List.countP_eq_zero.mpr hnone,
        List.take_zero, List.filter_eq_nil_iff.mpr hnone]

variable (h : Descending val xs s)

include h

theorem Descending.above (t : κ) : s.Pairwise fun a b => decide (t < val b) → decide (t < val a) :=
  h.sorted.imp fun hle hlt => by simpa using (of_decide_eq_true hlt).trans_le hle

theorem Descending.atLeast (t : κ) : s.Pairwise fun a b => decide (t ≤ val b) → decide (t ≤ val a) :=
  h.sorted.imp fun hle hlt => by simpa using (of_decide_eq_true hlt).trans hle

theorem Descending.lt_val_iff (hx : s[i]? = some x) (t : κ) :
    t < val x ↔ i < xs.countP (t < val ·) := by
  rw [← h.perm.countP_eq, ← holds_iff_lt_countP (h.above t) hx, decide_eq_true_iff]

theorem Descending.le_val_iff (hx : s[i]? = some x) (t : κ) :
    t ≤ val x ↔ i < xs.countP (t ≤ val ·) := by
  rw [← h.perm.countP_eq, ← holds_iff_lt_countP (h.atLeast t) hx, decide_eq_true_iff]

theorem Descending.take_perm (h' : Descending val xs s') (hn : ¬ Straddled val xs p n) :
    (s.take (n * p)).Perm (s'.take (n * p)) := by
  by_cases hlt : n * p < s.length
  · have hx : s[n * p]? = some s[n * p] := List.getElem?_eq_getElem hlt
    have hat : n * p < xs.countP (val s[n * p] ≤ val ·) := (h.le_val_iff hx _).mp le_rfl
    have habove : ¬ n * p < xs.countP (val s[n * p] < val ·) := fun hc =>
      lt_irrefl _ ((h.lt_val_iff hx _).mpr hc)
    have hcount : n * p = xs.countP (val s[n * p] < val ·) := by
      by_contra hne
      exact hn ⟨_, by omega, hat⟩
    generalize val s[n * p] = t at hcount
    have htake : s.take (n * p) = s.filter (t < val ·) := by
      rw [hcount, ← h.perm.countP_eq]
      exact take_countP (h.above t)
    have htake' : s'.take (n * p) = s'.filter (t < val ·) := by
      rw [hcount, ← h'.perm.countP_eq]
      exact take_countP (h'.above t)
    rw [htake, htake']
    exact (h.perm.trans h'.perm.symm).filter _
  · have hlen := (h.perm.trans h'.perm.symm).length_eq
    rw [List.take_of_length_le (by omega), List.take_of_length_le (by omega)]
    exact h.perm.trans h'.perm.symm

end Sorted

section Tiling

variable {val : α → κ} {xs s : List α} {p n K : Nat} {order : Nat → List α}

theorem take_page (p n : Nat) (s : List α) : s.take (n * p) ++ page p n s = s.take ((n + 1) * p) := by
  rw [page, Nat.succ_mul, List.take_add]

theorem mem_page {x : α} : x ∈ page p n s ↔ ∃ i, n * p ≤ i ∧ i < (n + 1) * p ∧ s[i]? = some x := by
  rw [page, List.mem_iff_getElem?, Nat.succ_mul]
  constructor
  · rintro ⟨i, hi⟩
    have hlt : i < p := by
      have := (List.getElem?_eq_some_iff.mp hi).1
      rw [List.length_take] at this
      omega
    rw [List.getElem?_take_of_lt hlt, List.getElem?_drop] at hi
    exact ⟨n * p + i, by omega, by omega, hi⟩
  · rintro ⟨i, hle, hlt, hi⟩
    refine ⟨i - n * p, ?_⟩
    rw [List.getElem?_take_of_lt (by omega), List.getElem?_drop, Nat.add_sub_cancel' hle, hi]

theorem page_eq_nil : page p n s = [] ↔ p = 0 ∨ s.length ≤ n * p := by
  rw [page, List.take_eq_nil_iff, List.drop_eq_nil_iff, or_comm]

theorem flatMap_page_perm (hs : Descending val xs s) (horder : ∀ n, Descending val xs (order n))
    (K : Nat) (hn : ∀ n, n ≤ K → ¬ Straddled val xs p n) :
    ((List.range K).flatMap fun n => page p n (order n)).Perm (s.take (K * p)) := by
  induction K with
  | zero => simp
  | succ K ih =>
    have hpage : (page p K (order K)).Perm (page p K s) := by
      have hahead := (horder K).take_perm hs (hn K (Nat.le_succ K))
      have hupto := (horder K).take_perm hs (hn (K + 1) le_rfl)
      rw [← take_page, ← take_page] at hupto
      exact (List.perm_append_left_iff _).mp (hupto.trans (hahead.symm.append_right _))
    rw [List.range_succ, List.flatMap_append, List.flatMap_singleton, ← take_page]
    exact (ih fun n h => hn n (Nat.le_succ_of_le h)).append hpage

theorem not_straddled_of_le (h : xs.length ≤ n * p) : ¬ Straddled val xs p n := by
  rintro ⟨t, -, ht⟩
  have := List.countP_le_length (p := (t ≤ val ·)) (l := xs)
  omega

theorem pages_perm (horder : ∀ n, Descending val xs (order n)) (hK : xs.length ≤ K * p)
    (hn : ∀ n, ¬ Straddled val xs p n) :
    ((List.range K).flatMap fun n => page p n (order n)).Perm xs := by
  have hlen := (horder 0).perm.length_eq
  refine (flatMap_page_perm (horder 0) horder K fun n _ => hn n).trans ?_
  rw [List.take_of_length_le (by omega)]
  exact (horder 0).perm

theorem exists_descending (val : α → κ) (xs : List α) : ∃ s, Descending val xs s := by
  have htotal : Std.Total fun a b : α => val b ≤ val a := ⟨fun a b => le_total (val b) (val a)⟩
  have htrans : IsTrans α fun a b => val b ≤ val a := ⟨fun _ _ _ h h' => h'.trans h⟩
  exact ⟨xs.insertionSort fun a b => val b ≤ val a, List.perm_insertionSort _ xs,
    List.pairwise_insertionSort _ xs⟩

theorem Descending.exists_repeat (hs : Descending val xs s) {m : Nat}
    (hm : Straddled val xs p (m + 1)) :
    ∃ s' x, Descending val xs s' ∧ x ∈ page p m s ∧ x ∈ page p (m + 1) s' := by
  obtain ⟨t, habove, hupto⟩ := hm
  have hlen : xs.countP (t ≤ val ·) ≤ s.length := hs.perm.length_eq ▸ List.countP_le_length
  have hp : 0 < p := by
    by_contra hzero
    rw [Nat.eq_zero_of_not_pos hzero] at habove
    omega
  obtain ⟨k, hk⟩ : ∃ k, (m + 1) * p = k + 1 := Nat.exists_eq_succ_of_ne_zero (by positivity)
  have hle : m * p ≤ k := by
    rw [Nat.succ_mul] at hk
    omega
  rw [hk] at habove hupto
  have hx : s[k]? = some s[k] := List.getElem?_eq_getElem (by omega)
  have hy : s[k + 1]? = some s[k + 1] := List.getElem?_eq_getElem (by omega)
  have hxt : val s[k] = t := le_antisymm
    (not_lt.mp fun h => absurd ((hs.lt_val_iff hx t).mp h) (by omega))
    ((hs.le_val_iff hx t).mpr (by omega))
  have hyt : val s[k + 1] = t := le_antisymm
    (not_lt.mp fun h => absurd ((hs.lt_val_iff hy t).mp h) (by omega))
    ((hs.le_val_iff hy t).mpr hupto)
  have hsplit : s = s.take k ++ s[k] :: s[k + 1] :: s.drop (k + 2) := by
    rw [← List.drop_eq_getElem_cons, ← List.drop_eq_getElem_cons, List.take_append_drop]
  refine ⟨s.take k ++ s[k + 1] :: s[k] :: s.drop (k + 2), s[k], ⟨?_, ?_⟩, ?_, ?_⟩
  · refine List.Perm.trans ?_ hs.perm
    conv => rhs; rw [hsplit]
    exact (List.Perm.swap _ _ _).append_left _
  · have hmap : (s.take k ++ s[k + 1] :: s[k] :: s.drop (k + 2)).map val = s.map val := by
      conv => rhs; rw [hsplit]
      simp only [List.map_append, List.map_cons, hxt, hyt]
    have hsorted := hs.sorted
    rw [← List.pairwise_map (f := val) (R := fun a b => b ≤ a)] at hsorted ⊢
    rw [hmap]
    exact hsorted
  · exact mem_page.mpr ⟨k, hle, by omega, hx⟩
  · refine mem_page.mpr ⟨k + 1, by omega, by rw [Nat.succ_mul (m + 1)]; omega, ?_⟩
    rw [List.getElem?_append_right (by rw [List.length_take]; omega), List.length_take,
      Nat.min_eq_left (by omega), Nat.add_sub_cancel_left]
    rfl

end Tiling

section Exact

variable {val : α → κ} {xs s : List α} {p K : Nat}

theorem disjoint_pages {order : Nat → List α} (hxs : xs.Nodup)
    (h : ((List.range K).flatMap fun n => page p n (order n)).Perm xs) {m n : Nat} (hmn : m < n)
    (hn : n < K) : (page p m (order m)).Disjoint (page p n (order n)) := by
  have hnodup := h.nodup_iff.mpr hxs
  rw [List.nodup_flatMap] at hnodup
  have hpair := List.pairwise_iff_getElem.mp hnodup.2 m n (by simpa using hmn.trans hn)
    (by simpa using hn) hmn
  simpa using hpair

/-- The pages of every choice of orders hold every row once just where none begins among equals. -/
theorem pages_perm_iff (hxs : xs.Nodup) (hs : Descending val xs s) (hK : xs.length ≤ K * p) :
    (∀ order : Nat → List α, (∀ n, Descending val xs (order n)) →
      ((List.range K).flatMap fun n => page p n (order n)).Perm xs) ↔
      ∀ n, ¬ Straddled val xs p n := by
  constructor
  · intro h n hn
    cases n with
    | zero =>
      obtain ⟨t, habove, -⟩ := hn
      omega
    | succ m =>
      have hlt : m + 1 < K := by
        by_contra hge
        refine not_straddled_of_le ?_ hn
        exact hK.trans (Nat.mul_le_mul_right p (Nat.le_of_not_lt hge))
      obtain ⟨s', x, hs', hx, hx'⟩ := hs.exists_repeat hn
      have hperm := h (fun n => if n = m then s else s') fun n => by
        by_cases hnm : n = m
        · rw [if_pos hnm]
          exact hs
        · rw [if_neg hnm]
          exact hs'
      have hdisjoint := disjoint_pages hxs hperm (Nat.lt_succ_self m) hlt
      refine hdisjoint (a := x) ?_ ?_
      · rw [if_pos rfl]
        exact hx
      · rw [if_neg (Nat.succ_ne_self m)]
        exact hx'
  · intro h order horder
    exact pages_perm horder hK h

end Exact

end Patom.Foundation.Pages
