import Patom.Foundation.Paging

/-! A list read to its end by cursors, each read from the entry behind the last one shown. -/

universe u v w

namespace Patom.Foundation.Keyset

section Walk

variable {α : Type u} {σ : Type v} {ε : Type w}

/-- The rows a reader has seen when no cursor is left to follow; `read i` is the `i`-th request. -/
inductive Followed (read : Nat → Option σ → Except ε (List α × Option σ)) :
    Nat → Option σ → List α → Prop
  | last {i : Nat} {cursor : Option σ} {items : List α} :
      read i cursor = .ok (items, none) → Followed read i cursor items
  | more {i : Nat} {cursor : Option σ} {items rest : List α} {token : σ} :
      read i cursor = .ok (items, some token) → Followed read (i + 1) (some token) rest →
      Followed read i cursor (items ++ rest)

def cut (n : Nat) (fetched : List α) : List α × Option α :=
  if n < fetched.length then (fetched.dropLast, fetched.dropLast.getLast?) else (fetched, none)

variable {n : Nat}

theorem cut_take_of_le {l : List α} (h : l.length ≤ n) : cut n (l.take (n + 1)) = (l, none) := by
  rw [List.take_of_length_le (h.trans n.le_succ), cut, if_neg (Nat.not_lt.mpr h)]

theorem cut_take_of_lt {l : List α} (hn : 0 < n) (h : n < l.length) :
    cut n (l.take (n + 1)) = (l.take n, l[n - 1]?) := by
  have hlength : (l.take (n + 1)).length = n + 1 := List.length_take_of_le h
  have hdrop : (l.take (n + 1)).dropLast = l.take n := by
    rw [List.dropLast_eq_take, hlength, List.take_take]
    congr 1
    omega
  have hlast : (l.take n).getLast? = l[n - 1]? := by
    rw [List.getLast?_eq_getElem?, List.length_take_of_le h.le,
      List.getElem?_take_of_lt (Nat.sub_lt hn Nat.one_pos)]
  rw [cut, if_pos (hlength.symm ▸ n.lt_succ_self), hdrop, hlast]

variable (n) (tok : α → σ) (L : List α)

def cursorAt : Nat → Option σ
  | 0 => none
  | i + 1 => L[n * (i + 1) - 1]?.map tok

def PagesRest (read : Nat → Option σ → Except ε (List α × Option σ)) (kept : Nat → α → Bool) : Prop :=
  ∀ i, n * i ≤ L.length → read i (cursorAt n tok L i)
    = .ok ((cut n (((L.drop (n * i)).filter (kept i)).take (n + 1))).map id (Option.map tok))

variable {n} {tok} {L} {read : Nat → Option σ → Except ε (List α × Option σ)} {kept : Nat → α → Bool}
  {p : Nat}

variable (tok) in
theorem cursorAt_succ (hn : 0 < n) (h : n ≤ (L.drop (n * p)).length) :
    n * (p + 1) ≤ L.length ∧ ∃ x, (L.drop (n * p))[n - 1]? = some x ∧
      cursorAt n tok L (p + 1) = some (tok x) := by
  have hindex : n * p + (n - 1) = n * (p + 1) - 1 := by
    rw [Nat.mul_succ]
    omega
  have hx := List.getElem?_eq_getElem (l := L.drop (n * p)) (i := n - 1) (by omega)
  refine ⟨?_, _, hx, ?_⟩
  · rw [List.length_drop] at h
    rw [Nat.mul_succ]
    have : n * p ≤ L.length := by omega
    omega
  · rw [List.getElem?_drop, hindex] at hx
    rw [cursorAt, hx, Option.map_some]

theorem PagesRest.short (hread : PagesRest n tok L read kept) (hp : n * p ≤ L.length)
    (h : ((L.drop (n * p)).filter (kept p)).length ≤ n) :
    read p (cursorAt n tok L p) = .ok ((L.drop (n * p)).filter (kept p), none) := by
  rw [hread p hp, cut_take_of_le h]
  rfl

theorem PagesRest.long (hn : 0 < n) (hread : PagesRest n tok L read kept) (hp : n * p ≤ L.length)
    (h : n < ((L.drop (n * p)).filter (kept p)).length) :
    read p (cursorAt n tok L p) = .ok (((L.drop (n * p)).filter (kept p)).take n,
      ((L.drop (n * p)).filter (kept p))[n - 1]?.map tok) := by
  rw [hread p hp, cut_take_of_lt hn h]
  rfl

theorem kept_of_followed (hn : 0 < n) (hread : PagesRest n tok L read kept) {cursor : Option σ}
    {rows : List α} (h : Followed read p cursor rows) (hp : n * p ≤ L.length)
    (hcursor : cursor = cursorAt n tok L p) (hrows : rows = L.drop (n * p)) {j : Nat} {x : α}
    (hx : rows[j]? = some x) : kept (p + j / n) x := by
  induction h generalizing j with
  | @last p cursor items hpage =>
    subst hcursor hrows
    rcases Nat.lt_or_ge n ((L.drop (n * p)).filter (kept p)).length with hlt | hle
    · rw [hread.long hn hp hlt] at hpage
      have hlast := List.getElem?_eq_none_iff.mp
        (Option.map_eq_none_iff.mp (Prod.mk.inj (Except.ok.inj hpage)).2)
      omega
    · rw [hread.short hp hle] at hpage
      have hall := (Prod.mk.inj (Except.ok.inj hpage)).1
      rw [hall] at hle
      have hj := (List.getElem?_eq_some_iff.mp hx).1
      rw [Nat.div_eq_of_lt (hj.trans_le hle), Nat.add_zero]
      exact List.filter_eq_self.mp hall x (List.mem_of_getElem? hx)
  | @more p cursor items rest token hpage hrest ih =>
    subst hcursor
    rcases Nat.lt_or_ge n ((L.drop (n * p)).filter (kept p)).length with hlt | hle
    · rw [hread.long hn hp hlt] at hpage
      obtain ⟨hitems, htoken⟩ := Prod.mk.inj (Except.ok.inj hpage)
      have hlength : items.length = n := by rw [← hitems, List.length_take_of_le hlt.le]
      have hfront : items = (L.drop (n * p)).take n := by
        rw [← hrows, ← hlength, List.take_left]
      have hback : rest = L.drop (n * (p + 1)) := by
        rw [Nat.mul_succ, ← List.drop_drop, ← hrows, ← hlength, List.drop_left]
      obtain ⟨hp', y, hy, hcursor⟩ := cursorAt_succ tok hn
        (hlt.le.trans (List.length_filter_le _ _))
      have hsame : ((L.drop (n * p)).filter (kept p))[n - 1]? = some y := by
        rw [← hy, ← List.getElem?_take_of_lt (Nat.sub_lt hn Nat.one_pos), hitems, hfront,
          List.getElem?_take_of_lt (Nat.sub_lt hn Nat.one_pos)]
      rw [hsame, Option.map_some] at htoken
      rcases Nat.lt_or_ge j n with hj | hj
      · rw [List.getElem?_append_left (hlength.symm ▸ hj), ← hitems] at hx
        rw [Nat.div_eq_of_lt hj, Nat.add_zero]
        exact (List.mem_filter.mp (List.mem_of_mem_take (List.mem_of_getElem? hx))).2
      · rw [List.getElem?_append_right (hlength.symm ▸ hj), hlength] at hx
        have hkept := ih hp' (htoken ▸ hcursor.symm) hback hx
        rwa [Nat.div_eq_sub_div hn hj, Nat.add_comm (_ / n), ← Nat.add_assoc]
    · rw [hread.short hp hle] at hpage
      cases (Prod.mk.inj (Except.ok.inj hpage)).2

theorem followed_of_kept {p : Nat} (hn : 0 < n) (hread : PagesRest n tok L read kept)
    (hshrink : ∀ i j x, i ≤ j → x ∈ L → kept j x → kept i x) (hp : n * p ≤ L.length)
    (h : ∀ j x, (L.drop (n * p))[j]? = some x → kept (p + j / n) x) :
    Followed read p (cursorAt n tok L p) (L.drop (n * p)) := by
  have hall : (L.drop (n * p)).filter (kept p) = L.drop (n * p) := by
    refine List.filter_eq_self.mpr fun x hx => ?_
    obtain ⟨j, hj⟩ := List.mem_iff_getElem?.mp hx
    exact hshrink p (p + j / n) x (Nat.le_add_right _ _) (List.mem_of_mem_drop hx) (h j x hj)
  rcases Nat.lt_or_ge n (L.drop (n * p)).length with hlt | hle
  · have hpage := hread.long hn hp (hall.symm ▸ hlt)
    obtain ⟨hp', y, hy, hcursor⟩ := cursorAt_succ tok hn hlt.le
    have hback : (L.drop (n * p)).drop n = L.drop (n * (p + 1)) := by
      rw [List.drop_drop, Nat.mul_succ]
    have hdecr : L.length - n * (p + 1) < L.length - n * p := by
      rw [Nat.mul_succ] at hp' ⊢
      omega
    have hrest := followed_of_kept hn hread hshrink hp' fun j x hx => by
      rw [← hback, List.getElem?_drop] at hx
      have hkept := h (n + j) x hx
      rwa [Nat.add_div_left j hn, Nat.add_comm (j / n), ← Nat.add_assoc] at hkept
    rw [hall, hy, Option.map_some] at hpage
    rw [hcursor, ← hback] at hrest
    rw [← List.take_append_drop n (L.drop (n * p))]
    exact .more hpage hrest
  · have hpage := hread.short hp (hall.symm ▸ hle)
    rw [hall] at hpage
    exact .last hpage
termination_by L.length - n * p

theorem followed_iff (hn : 0 < n) (hread : PagesRest n tok L read kept)
    (hshrink : ∀ i j x, i ≤ j → x ∈ L → kept j x → kept i x) :
    Followed read 0 none L ↔ ∀ k x, L[k]? = some x → kept (k / n) x := by
  constructor
  · intro h k x hx
    have hkept := kept_of_followed hn hread h (Nat.zero_le _) rfl rfl hx
    rwa [Nat.zero_add] at hkept
  · intro h
    refine followed_of_kept (p := 0) hn hread hshrink (Nat.zero_le _) fun j x hx => ?_
    rw [Nat.zero_add]
    exact h j x hx

end Walk

section Place

variable {α : Type u} {κ : Type v} [LinearOrder κ] {val : α → κ}

theorem countP_newer {l : List α} (h : NewestFirst val l) {k : Nat} {x : α} (hx : l[k]? = some x) :
    l.countP (fun y => decide (val x < val y)) = k := by
  induction l generalizing k with
  | nil => cases hx
  | cons a l ih =>
    obtain ⟨ha, hl⟩ := List.pairwise_cons.mp h
    cases k with
    | zero =>
      obtain rfl : a = x := by simpa using hx
      refine List.countP_eq_zero.mpr fun y hy => ?_
      rcases List.mem_cons.mp hy with rfl | hy
      · simp
      · simpa using (ha y hy).le
    | succ k =>
      have hx' : l[k]? = some x := by simpa using hx
      have hnewer := ha x (List.mem_of_getElem? hx')
      rw [List.countP_cons_of_pos (by simpa using hnewer), ih hl hx']

theorem older_eq_drop {l : List α} (h : NewestFirst val l) {k : Nat} {x : α} (hx : l[k]? = some x) :
    older val l (val x) = l.drop (k + 1) := by
  obtain ⟨hk, hget⟩ := List.getElem?_eq_some_iff.mp hx
  have hsplit : l = l.take k ++ x :: l.drop (k + 1) := by
    rw [← hget, List.cons_getElem_drop_succ, List.take_append_drop]
  conv_lhs => rw [hsplit]
  exact older_split (hsplit ▸ h)

end Place

end Patom.Foundation.Keyset
