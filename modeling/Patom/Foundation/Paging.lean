import Mathlib.Data.List.Basic
import Mathlib.Order.Defs.LinearOrder
import Mathlib.Tactic

/-! A log read backwards in pages, and a copy of it that is caught up. -/

universe u v w

namespace Patom.Foundation

section Older

variable {α : Type u} {κ : Type v} [LinearOrder κ] (val : α → κ)

def older (l : List α) (a : κ) : List α := l.filter fun x => val x < a

abbrev NewestFirst (l : List α) : Prop := l.Pairwise fun x y => val y < val x

variable {val}

theorem older_split {pre post : List α} {x : α} (h : NewestFirst val (pre ++ x :: post)) :
    older val (pre ++ x :: post) (val x) = post := by
  obtain ⟨-, hpost, hpre⟩ := List.pairwise_append.mp h
  obtain ⟨hx, -⟩ := List.pairwise_cons.mp hpost
  have hnew : pre.filter (fun y => decide (val y < val x)) = [] := by
    refine List.filter_eq_nil_iff.mpr fun y hy => ?_
    have hlt := hpre y hy x List.mem_cons_self
    simpa using hlt.le
  have hold : post.filter (fun y => decide (val y < val x)) = post :=
    List.filter_eq_self.mpr fun y hy => by simpa using hx y hy
  rw [older, List.filter_append, hnew, List.filter_cons_of_neg (by simp), hold, List.nil_append]

theorem older_newestFirst {l : List α} (h : NewestFirst val l) (a : κ) :
    NewestFirst val (older val l a) :=
  h.sublist List.filter_sublist

theorem older_page {l : List α} (h : NewestFirst val l) {a : κ} {n : Nat} {x : α}
    (hx : (older val l a)[n]? = some x) : older val l (val x) = (older val l a).drop (n + 1) := by
  have hlt : n < (older val l a).length := (List.getElem?_eq_some_iff.mp hx).1
  have hget : (older val l a)[n] = x := (List.getElem?_eq_some_iff.mp hx).2
  have hsplit : older val l a = (older val l a).take n ++ x :: (older val l a).drop (n + 1) := by
    rw [← hget, List.cons_getElem_drop_succ, List.take_append_drop]
  have hxa : val x < a := by
    have hmem : x ∈ older val l a := hget ▸ List.getElem_mem hlt
    simpa using (List.mem_filter.mp hmem).2
  have htwice : older val (older val l a) (val x) = older val l (val x) := by
    rw [older, older, older, List.filter_filter]
    refine List.filter_congr fun y _ => ?_
    by_cases hy : val y < val x
    · simp [hy, hy.trans hxa]
    · simp [hy]
  have hsorted := older_newestFirst h a
  rw [hsplit] at hsorted
  rw [← htwice]
  conv_lhs => rw [hsplit]
  exact older_split hsorted

theorem mem_take_older {l : List α} (h : NewestFirst val l) {a a' : κ} (haa : a' ≤ a) {n : Nat}
    {x : α} (hx : x ∈ (older val l a).take n) (hxa : val x < a') :
    x ∈ (older val l a').take n := by
  have hsplit : older val l a = (older val l a).filter (fun y => decide (a' ≤ val y)) ++
      older val l a' := by
    have hsorted := older_newestFirst h a
    have htwice : (older val l a).filter (fun y => decide (val y < a')) = older val l a' := by
      rw [older, older, List.filter_filter]
      refine List.filter_congr fun y _ => ?_
      by_cases hy : val y < a'
      · simp [hy, hy.trans_le haa]
      · simp [hy]
    rw [← htwice]
    generalize older val l a = k at hsorted
    induction k with
    | nil => rfl
    | cons y k ih =>
      obtain ⟨hy, hk⟩ := List.pairwise_cons.mp hsorted
      by_cases hya : a' ≤ val y
      · rw [List.filter_cons_of_pos (by simpa using hya),
          List.filter_cons_of_neg (by simpa using hya), List.cons_append, ← ih hk]
      · have hlt := not_le.mp hya
        have hnone : k.filter (fun z => decide (a' ≤ val z)) = [] :=
          List.filter_eq_nil_iff.mpr fun z hz => by simpa using (hy z hz).trans hlt
        have hall : k.filter (fun z => decide (val z < a')) = k :=
          List.filter_eq_self.mpr fun z hz => by simpa using (hy z hz).trans hlt
        rw [List.filter_cons_of_neg (by simpa using hlt),
          List.filter_cons_of_pos (by simpa using hlt), hnone, hall, List.nil_append]
  rw [hsplit, List.take_append] at hx
  obtain hx | hx := List.mem_append.mp hx
  · have hge := (List.mem_filter.mp (List.mem_of_mem_take hx)).2
    exact absurd hxa (by simpa using hge)
  · exact (List.take_subset_take_left _ (Nat.sub_le _ _)) hx

end Older

section Gather

variable {α : Type u} {β : Type v} (f : α → Option β) (p N : Nat)

/-- Reads pages of `p` entries, of which those are kept that `f` accepts, until `N` are kept or a
page keeps less than `p`. -/
def gather : Nat → List α → List β → List β
  | 0, _, c => c
  | fuel + 1, l, c =>
    if N ≤ c.length then c
    else if ((l.take p).filterMap f).length < p then c ++ (l.take p).filterMap f
    else gather fuel (l.drop p) (c ++ (l.take p).filterMap f)

/-- Beyond a page with an entry that is dropped, nothing among the first `N` is wanted. -/
def Unbroken (wanted : β → Bool) (l : List α) : Prop :=
  ∀ n, (∃ x ∈ (l.drop (p * n)).take p, f x = none) →
    ∀ x ∈ (l.take N).drop (p * (n + 1)), ∀ y ∈ f x, wanted y = false

variable {f p N}

theorem Unbroken.next {wanted : β → Bool} {l : List α} {m : Nat}
    (h : Unbroken f p (p * (m + 1)) wanted l) : Unbroken f p (p * m) wanted (l.drop p) := by
  intro n hn x hx
  refine h (n + 1) ?_ x ?_
  · rw [List.drop_drop] at hn
    rwa [Nat.mul_succ, Nat.add_comm]
  · rw [← Nat.add_sub_cancel (p * m) p, ← Nat.mul_succ, ← List.drop_take, List.drop_drop] at hx
    rwa [Nat.mul_succ, Nat.add_comm]

theorem getLast?_filterMap {l : List α} (h : (l.filterMap f).length = l.length) :
    (l.filterMap f).getLast? = l.getLast?.bind f := by
  induction l using List.reverseRecOn with
  | nil => rfl
  | append_singleton l x _ =>
    cases hx : f x with
    | some y => simp [List.filterMap_append, hx]
    | none =>
      have hle := List.length_filterMap_le f l
      simp only [List.filterMap_append, List.filterMap_cons_none hx, List.filterMap_nil,
        List.append_nil, List.length_append, List.length_singleton] at h
      omega

theorem exists_none_of_length_filterMap_lt {l : List α} (h : (l.filterMap f).length < l.length) :
    ∃ x ∈ l, f x = none := by
  by_contra hall
  push Not at hall
  have hsome : (l.filterMap f).length = l.length := by
    clear h
    induction l with
    | nil => rfl
    | cons x l ih =>
      obtain ⟨y, hy⟩ := Option.ne_none_iff_exists'.mp (hall x List.mem_cons_self)
      rw [List.filterMap_cons_some hy, List.length_cons, List.length_cons,
        ih fun x hx => hall x (List.mem_cons_of_mem _ hx)]
  exact h.ne hsome

theorem mem_gather {fuel : Nat} {l : List α} {c : List β} {y : β} (h : y ∈ gather f p N fuel l c) :
    y ∈ c ∨ ∃ x ∈ l, f x = some y := by
  have hpage {l : List α} (hy : y ∈ (l.take p).filterMap f) : ∃ x ∈ l, f x = some y := by
    obtain ⟨x, hx, hxy⟩ := List.mem_filterMap.mp hy
    exact ⟨x, List.mem_of_mem_take hx, hxy⟩
  induction fuel generalizing l c with
  | zero => exact .inl h
  | succ fuel ih =>
    unfold gather at h
    split at h
    case isTrue => exact .inl h
    case isFalse =>
      split at h
      case isTrue => exact (List.mem_append.mp h).imp_right hpage
      case isFalse =>
        obtain h | ⟨x, hx, hxy⟩ := ih h
        · exact (List.mem_append.mp h).imp_right hpage
        · exact .inr ⟨x, List.mem_of_mem_drop hx, hxy⟩

theorem gather_wanted (hp : 0 < p) {wanted : β → Bool} {m fuel : Nat} {l : List α} {c : List β}
    (hN : c.length + p * m = N) (hfuel : m ≤ fuel) (h : Unbroken f p (p * m) wanted l) :
    ((gather f p N fuel l c).take N).filter wanted =
      (c ++ (l.take (p * m)).filterMap f).filter wanted := by
  induction m generalizing fuel l c with
  | zero =>
    have hc : gather f p N fuel l c = c := by
      cases fuel with
      | zero => rfl
      | succ fuel => rw [gather, if_pos (by omega)]
    rw [hc, List.take_of_length_le (by omega), Nat.mul_zero, List.take_zero, List.filterMap_nil,
      List.append_nil]
  | succ m ih =>
    obtain ⟨fuel, rfl⟩ : ∃ fuel', fuel = fuel' + 1 := ⟨fuel - 1, by omega⟩
    have hpm : p * (m + 1) = p + p * m := by ring
    have htake : l.take (p * (m + 1)) = l.take p ++ (l.drop p).take (p * m) := by
      rw [hpm, List.take_add]
    rw [gather, if_neg (by omega)]
    split
    case isTrue hshort =>
      have hlen : (c ++ (l.take p).filterMap f).length ≤ N := by
        rw [List.length_append]
        omega
      have hrest : (((l.drop p).take (p * m)).filterMap f).filter wanted = [] := by
        refine List.filter_eq_nil_iff.mpr fun y hy => ?_
        obtain ⟨x, hx, hxy⟩ := List.mem_filterMap.mp hy
        have hlong : p ≤ l.length := by
          by_contra hlt
          rw [List.drop_eq_nil_of_le (by omega), List.take_nil] at hx
          cases hx
        have hnone : ∃ x ∈ l.take p, f x = none :=
          exists_none_of_length_filterMap_lt (by
            rw [List.length_take, Nat.min_eq_left hlong]
            exact hshort)
        have hnot := h 0 (by simpa using hnone) x (by
          rw [htake, Nat.zero_add, Nat.mul_one, List.drop_append_of_le_length
            (by rw [List.length_take]; omega), List.drop_eq_nil_of_le
            (by rw [List.length_take]; omega), List.nil_append]
          exact hx) y hxy
        simp [hnot]
      rw [List.take_of_length_le hlen, htake, List.filterMap_append, ← List.append_assoc,
        List.filter_append (c ++ _), hrest, List.append_nil]
    case isFalse hfull =>
      have hpage : ((l.take p).filterMap f).length = p := by
        have hle := List.length_filterMap_le f (l.take p)
        rw [List.length_take] at hle
        omega
      rw [ih (by rw [List.length_append, hpage]; omega) (by omega) h.next, htake,
        List.filterMap_append, List.append_assoc]

end Gather

section CatchUp

variable {α : Type u} [DecidableEq α] {r : α → α → Prop}

def catchUp (X ys : List α) : List α := ys.foldl (fun X y => if y ∈ X then X else X ++ [y]) X

theorem catchUp_eq {X ys : List α} (h : ys.Nodup) : catchUp X ys = X ++ ys.filter (· ∉ X) := by
  induction ys generalizing X with
  | nil => simp [catchUp]
  | cons y ys ih =>
    obtain ⟨hy, hys⟩ := List.nodup_cons.mp h
    by_cases hmem : y ∈ X
    · rw [catchUp, List.foldl_cons, if_pos hmem, ← catchUp, ih hys]
      simp [hmem]
    · have hfilter : ys.filter (fun z => decide (z ∉ X ++ [y])) = ys.filter (· ∉ X) := by
        refine List.filter_congr fun z hz => ?_
        have hne : z ≠ y := fun e => hy (e ▸ hz)
        simp [hne]
      rw [catchUp, List.foldl_cons, if_neg hmem, ← catchUp, ih hys, hfilter]
      simp [hmem]

theorem mem_catchUp {X ys : List α} {y : α} : y ∈ catchUp X ys ↔ y ∈ X ∨ y ∈ ys := by
  induction ys generalizing X with
  | nil => simp [catchUp]
  | cons z ys ih =>
    rw [catchUp, List.foldl_cons, ← catchUp, ih]
    split
    case isTrue hz =>
      refine ⟨fun h => h.imp_right (List.mem_cons_of_mem _), fun h => ?_⟩
      obtain h | h := h
      · exact .inl h
      · obtain rfl | h := List.mem_cons.mp h
        · exact .inl hz
        · exact .inr h
    case isFalse => simp only [List.mem_append, List.mem_cons, List.not_mem_nil, or_false, or_assoc]

theorem catchUp_pairwise {X ys : List α} (hys : ys.Nodup) (hX : X.Pairwise r)
    (hr : ys.Pairwise r) (hlate : ∀ y ∈ ys, ∀ x ∈ X, y ∉ X → r x y) :
    (catchUp X ys).Pairwise r := by
  rw [catchUp_eq hys]
  refine List.pairwise_append.mpr ⟨hX, hr.sublist List.filter_sublist, fun x hx y hy => ?_⟩
  obtain ⟨hmem, hnot⟩ := List.mem_filter.mp hy
  exact hlate y hmem x hx (by simpa using hnot)

/-- Caught up, a copy that is in order holds what it was to have, in that order. -/
theorem filter_catchUp {X ys : List α} (hr : ∀ x y, r x y → ¬ r y x) (hys : ys.Pairwise r)
    (hX : (catchUp X ys).Pairwise r) : (catchUp X ys).filter (· ∈ ys) = ys := by
  have hnodup {l : List α} (h : l.Pairwise r) : l.Nodup := by
    refine h.imp fun {x y} hxy e => ?_
    subst e
    exact hr x x hxy hxy
  refine List.Perm.eq_of_pairwise (fun x y _ _ hxy hyx => absurd hyx (hr x y hxy))
    (hX.sublist List.filter_sublist) hys ((List.perm_ext_iff_of_nodup
    ((hnodup hX).sublist List.filter_sublist) (hnodup hys)).mpr fun y => ?_)
  rw [List.mem_filter, mem_catchUp, decide_eq_true_iff]
  exact ⟨And.right, fun h => ⟨.inr h, h⟩⟩

end CatchUp

end Patom.Foundation
