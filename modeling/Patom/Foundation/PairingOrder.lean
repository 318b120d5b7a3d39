import Patom.Foundation.Pairing

universe u

namespace Patom.Foundation

variable {ρ : Type u} (opens closes : ρ → Bool) (key : ρ → Nat)

abbrev Ordered (l : List ρ) : Prop := l.Pairwise fun x y => key x < key y

def Held (l : List ρ) (k : Nat) : Prop :=
  ∃ u ∈ l, opens u ∧ ∃ c ∈ l, closes c ∧ key u < k ∧ k < key c ∧
    ∀ y ∈ l, closes y → key y ≤ key u ∨ k < key y

instance (l : List ρ) (k : Nat) : Decidable (Held opens closes key l k) :=
  inferInstanceAs (Decidable (∃ u ∈ l, _))

variable {opens closes key}

theorem Ordered.lt_of_sublist {l : List ρ} (h : Ordered key l) {x y : ρ} (hsub : [x, y].Sublist l) :
    key x < key y := by
  simpa using h.sublist hsub

theorem sublist_of_notMem {x : ρ} {s gap rest : List ρ} (hx : x ∉ gap)
    (h : (x :: s).Sublist (gap ++ rest)) : (x :: s).Sublist rest := by
  induction gap with
  | nil => exact h
  | cons g gap ih =>
    rw [List.mem_cons, not_or] at hx
    rcases List.sublist_cons_iff.mp h with h | ⟨r, hr, -⟩
    · exact ih hx.2 h
    · exact absurd (List.cons.inj hr).1 hx.1

section Pair

variable {u c : ρ} {gap rest : List ρ}

theorem Ordered.pair (h : Ordered key (u :: (gap ++ c :: rest))) :
    (∀ g ∈ gap, key u < key g ∧ key g < key c) ∧ (∀ x ∈ rest, key u < key x ∧ key c < key x) ∧
      (∀ g ∈ gap, ∀ x ∈ rest, key g < key x) ∧ key u < key c ∧ Ordered key gap ∧
      Ordered key rest := by
  rw [Ordered, List.pairwise_cons, List.pairwise_append, List.pairwise_cons] at h
  obtain ⟨hfirst, hgap, ⟨hlast, hrest⟩, hcross⟩ := h
  refine ⟨fun g hg => ⟨hfirst g (by simp [hg]), hcross g hg c (by simp)⟩,
    fun x hx => ⟨hfirst x (by simp [hx]), hlast x hx⟩,
    fun g hg x hx => hcross g hg x (by simp [hx]), hfirst c (by simp), hgap, hrest⟩

end Pair

theorem closes_of_overtakes {l : List ρ} (h : Ordered key l) {c x : ρ}
    (hsub : [c, x].Sublist (rejoin opens closes none l)) (hlt : key x < key c) : closes c := by
  have hmoved : (rejoin opens closes none l).Pairwise _ := rejoin_pairwise h
  have := List.pairwise_pair.mp (hmoved.sublist hsub)
  exact (this.resolve_left fun hlt' => Nat.lt_asymm hlt hlt').1

theorem held_of_overtaken {l : List ρ} (h : Ordered key l) {c x : ρ}
    (hsub : [c, x].Sublist (rejoin opens closes none l)) (hlt : key x < key c) :
    Held opens closes key l (key x) := by
  have hclose := closes_of_overtakes h hsub hlt
  induction scan opens closes l with
  | nil => simp at hsub
  | @skip x₀ xs hx _ ih =>
    rw [rejoin_skip hx] at hsub
    have hfirst := (List.pairwise_cons.mp h).1
    rcases List.sublist_cons_iff.mp hsub with hsub | ⟨r, hr, hsub⟩
    · obtain ⟨u, hu, hopen, c', hc', hclose', hux, hxc, hnone⟩ := ih (List.pairwise_cons.mp h).2 hsub
      refine ⟨u, List.mem_cons_of_mem _ hu, hopen, c', List.mem_cons_of_mem _ hc', hclose', hux, hxc, ?_⟩
      exact List.forall_mem_cons.mpr ⟨fun _ => .inl (Nat.le_of_lt (hfirst u hu)), hnone⟩
    · obtain ⟨rfl, rfl⟩ := List.cons.inj hr
      have := hfirst x (mem_rejoin.mp (hsub.subset (by simp)))
      omega
  | @pair u₀ gap c₀ rest hu hgap hc _ ih =>
    obtain ⟨hgaps, hrests, -, huc, -, hrest⟩ := h.pair
    rw [rejoin_pair hu hgap hc] at hsub
    have hheld : ∀ g ∈ gap, Held opens closes key (u₀ :: (gap ++ c₀ :: rest)) (key g) := by
      intro g hg
      refine ⟨u₀, by simp, hu, c₀, by simp, hc, (hgaps g hg).1, (hgaps g hg).2, fun y hy hclose => ?_⟩
      rcases List.mem_cons.mp hy with rfl | hy
      · exact .inl (Nat.le_refl _)
      · rcases List.mem_append.mp hy with hy | hy
        · simp [hgap y hy] at hclose
        · refine .inr (Nat.lt_of_lt_of_le (hgaps g hg).2 ?_)
          rcases List.mem_cons.mp hy with rfl | hy
          · exact Nat.le_refl _
          · exact Nat.le_of_lt (hrests y hy).2
    have hcases : ∀ y ∈ gap ++ rejoin opens closes none rest, y ∈ gap ∨ y ∈ rest := fun y hy => by
      simpa using hy
    rcases List.sublist_cons_iff.mp hsub with hsub | ⟨r, hr, hsub⟩
    · rcases List.sublist_cons_iff.mp hsub with hsub | ⟨r, hr, hsub⟩
      · have hnotgap : c ∉ gap := fun hg => by simp [hgap c hg] at hclose
        have hsub := sublist_of_notMem hnotgap hsub
        obtain ⟨u, hu', hopen, c', hc', hclose', hux, hxc, hnone⟩ := ih hrest hsub
        refine ⟨u, by simp [hu'], hopen, c', by simp [hc'], hclose', hux, hxc, fun y hy hclose => ?_⟩
        rcases List.mem_cons.mp hy with rfl | hy
        · exact .inl (Nat.le_of_lt (hrests u hu').1)
        · rcases List.mem_append.mp hy with hy | hy
          · simp [hgap y hy] at hclose
          · rcases List.mem_cons.mp hy with rfl | hy
            · exact .inl (Nat.le_of_lt (hrests u hu').2)
            · exact hnone y hy hclose
      · obtain ⟨rfl, rfl⟩ := List.cons.inj hr
        rcases hcases x (hsub.subset (by simp)) with hx | hx
        · exact hheld x hx
        · have := (hrests x hx).2
          omega
    · obtain ⟨rfl, rfl⟩ := List.cons.inj hr
      have hx : x = c₀ ∨ x ∈ gap ∨ x ∈ rest := by simpa using hsub.subset (List.mem_singleton_self x)
      rcases hx with rfl | hx | hx
      · omega
      · have := (hgaps x hx).1
        omega
      · have := (hrests x hx).1
        omega
  | stuck hu htail =>
    rw [rejoin_stuck hu htail] at hsub
    exact absurd (h.lt_of_sublist hsub) (Nat.lt_asymm hlt)

theorem overtaken_of_held (hdisj : ∀ x, opens x → closes x = false) {l : List ρ}
    (h : Ordered key l) {x : ρ} (hx : x ∈ l) (hheld : Held opens closes key l (key x)) :
    ∃ c, [c, x].Sublist (rejoin opens closes none l) ∧ key x < key c := by
  induction scan opens closes l with
  | nil => cases hx
  | @skip x₀ xs hskip _ ih =>
    have hfirst := (List.pairwise_cons.mp h).1
    obtain ⟨u, hu, hopen, c, hc, hclose, hux, hxc, hnone⟩ := hheld
    have hu' : u ∈ xs := (List.mem_cons.mp hu).resolve_left fun e => by simp [e, hskip] at hopen
    have hlt := hfirst u hu'
    have hx' : x ∈ xs := (List.mem_cons.mp hx).resolve_left fun e => by
      rw [e] at hux
      omega
    have hc' : c ∈ xs := (List.mem_cons.mp hc).resolve_left fun e => by
      rw [e] at hxc
      omega
    obtain ⟨c', hsub, hlt'⟩ := ih (List.pairwise_cons.mp h).2 hx'
      ⟨u, hu', hopen, c, hc', hclose, hux, hxc, fun y hy => hnone y (List.mem_cons_of_mem _ hy)⟩
    exact ⟨c', by rw [rejoin_skip hskip]; exact hsub.cons _, hlt'⟩
  | @pair u₀ gap c₀ rest hu hgap hc _ ih =>
    obtain ⟨hgaps, hrests, hcross, huc, -, hrest⟩ := h.pair
    obtain ⟨u, hu', hopen, c, hc', hclose, hux, hxc, hnone⟩ := hheld
    have hpos : key u₀ ≤ key u := by
      have hu'' : u = u₀ ∨ u ∈ gap ∨ u = c₀ ∨ u ∈ rest := by simpa using hu'
      rcases hu'' with rfl | hu'' | rfl | hu''
      · exact Nat.le_refl _
      · exact Nat.le_of_lt (hgaps u hu'').1
      · exact Nat.le_of_lt huc
      · exact Nat.le_of_lt (hrests u hu'').1
    -- the pair's own closing row is not passed over
    have hlast := hnone c₀ (by simp) hc
    have hx' : x = u₀ ∨ x ∈ gap ∨ x = c₀ ∨ x ∈ rest := by simpa using hx
    rw [rejoin_pair hu hgap hc]
    rcases hx' with rfl | hx' | rfl | hx'
    · omega
    · refine ⟨c₀, .cons _ (.cons_cons _ (List.singleton_sublist.mpr ?_)), (hgaps x hx').2⟩
      exact List.mem_append_left _ hx'
    · omega
    · have hxc₀ := (hrests x hx').2
      have huc₀ : u ≠ c₀ := fun e => by simp [hdisj u hopen, ← e] at hc
      have hle : key c₀ ≤ key u := by omega
      have hu'' : u ∈ rest := by
        have hu'' : u = u₀ ∨ u ∈ gap ∨ u ∈ rest := by simpa [huc₀] using hu'
        rcases hu'' with rfl | hu'' | hu''
        · omega
        · have := (hgaps u hu'').2
          omega
        · exact hu''
      have hc'' : c ∈ rest := by
        have hc'' : c = u₀ ∨ c ∈ gap ∨ c = c₀ ∨ c ∈ rest := by simpa using hc'
        rcases hc'' with rfl | hc'' | rfl | hc''
        · omega
        · have := (hgaps c hc'').2
          omega
        · omega
        · exact hc''
      obtain ⟨c', hsub, hlt⟩ := ih hrest hx'
        ⟨u, hu'', hopen, c, hc'', hclose, hux, hxc, fun y hy => hnone y (by simp [hy])⟩
      exact ⟨c', hsub.trans (List.sublist_append_right (u₀ :: c₀ :: gap) _), hlt⟩
  | @stuck u₀ tail hu htail =>
    obtain ⟨u, hu', hopen, c, hc, hclose, hux, hxc, -⟩ := hheld
    have hfirst := (List.pairwise_cons.mp h).1
    rcases List.mem_cons.mp hc with rfl | hc
    · rcases List.mem_cons.mp hu' with rfl | hu'
      · omega
      · have := hfirst u hu'
        omega
    · simp [htail c hc] at hclose

theorem overtakes_between {l : List ρ} (h : Ordered key l) {x y z : ρ}
    (hsub : [x, y, z].Sublist (rejoin opens closes none l)) (hlt : key z < key x) :
    key y < key x := by
  have hclose : closes x := closes_of_overtakes h
    ((List.Sublist.cons_cons x (List.sublist_cons_self y [z])).trans hsub) hlt
  induction scan opens closes l with
  | nil => simp at hsub
  | @skip x₀ xs hskip _ ih =>
    rw [rejoin_skip hskip] at hsub
    rcases List.sublist_cons_iff.mp hsub with hsub | ⟨r, hr, hsub⟩
    · exact ih (List.pairwise_cons.mp h).2 hsub
    · obtain ⟨rfl, rfl⟩ := List.cons.inj hr
      have := (List.pairwise_cons.mp h).1 z (mem_rejoin.mp (hsub.subset (by simp)))
      omega
  | @pair u₀ gap c₀ rest hu hgap hc _ ih =>
    obtain ⟨hgaps, hrests, -, huc, -, hrest⟩ := h.pair
    rw [rejoin_pair hu hgap hc] at hsub
    rcases List.sublist_cons_iff.mp hsub with hsub | ⟨r, hr, hsub⟩
    · rcases List.sublist_cons_iff.mp hsub with hsub | ⟨r, hr, hsub⟩
      · refine ih hrest (sublist_of_notMem (fun hg => ?_) hsub)
        simp [hgap x hg] at hclose
      · obtain ⟨rfl, rfl⟩ := List.cons.inj hr
        by_cases hy : y ∈ gap
        · exact (hgaps y hy).2
        · have hz := mem_rejoin.mp ((sublist_of_notMem hy hsub).subset (by simp : z ∈ [y, z]))
          have := (hrests z hz).2
          omega
    · obtain ⟨rfl, rfl⟩ := List.cons.inj hr
      have hz : z = c₀ ∨ z ∈ gap ∨ z ∈ rest := by simpa using hsub.subset (by simp : z ∈ [y, z])
      rcases hz with rfl | hz | hz
      · omega
      · have := (hgaps z hz).1
        omega
      · have := (hrests z hz).1
        omega
  | stuck hu htail =>
    rw [rejoin_stuck hu htail] at hsub
    have := h.lt_of_sublist ((List.Sublist.cons_cons x (List.sublist_cons_self y [z])).trans hsub)
    omega

theorem filter_rejoin {p : ρ → Bool} (hp : ∀ g c, closes g = false → closes c → p c → p g = false)
    (l : List ρ) : (rejoin opens closes none l).filter p = l.filter p := by
  induction scan opens closes l with
  | nil => rfl
  | skip hx _ ih => rw [rejoin_skip hx, List.filter_cons, List.filter_cons, ih]
  | @pair u gap c rest hu hgap hc _ ih =>
    have hpair : (c :: (gap ++ rejoin opens closes none rest)).filter p
        = (gap ++ c :: rest).filter p := by
      cases hpc : p c with
      | false => simp [hpc, ih]
      | true =>
        have hnil : gap.filter p = [] :=
          List.filter_eq_nil_iff.mpr fun g hg => by simp [hp g c (hgap g hg) hc hpc]
        simp [hpc, hnil, ih]
    rw [rejoin_pair hu hgap hc]
    cases hpu : p u with
    | true =>
      rw [List.filter_cons_of_pos hpu, List.filter_cons_of_pos hpu, hpair]
    | false =>
      have hneg : ¬ p u = true := by simp [hpu]
      rw [List.filter_cons_of_neg hneg, List.filter_cons_of_neg hneg, hpair]
  | stuck hu htail => rw [rejoin_stuck hu htail]

theorem rejoin_eq_self {l : List ρ}
    (h : ∀ i u, l[i]? = some u → opens u → ∃ c, l[i + 1]? = some c ∧ closes c) :
    rejoin opens closes none l = l := by
  induction scan opens closes l with
  | nil => rfl
  | skip hx _ ih => rw [rejoin_skip hx, ih fun i => h (i + 1)]
  | @pair u gap c rest hu hgap hc _ ih =>
    obtain ⟨next, hnext, hclose⟩ := h 0 u rfl hu
    cases gap with
    | nil => rw [rejoin_pair hu hgap hc, List.nil_append, List.nil_append, ih fun i => h (i + 2)]
    | cons g gap =>
      obtain rfl : g = next := by simpa using hnext
      rw [hgap g List.mem_cons_self] at hclose
      cases hclose
  | stuck hu htail => exact rejoin_stuck hu htail

theorem rejoin_skips {l : List ρ} (h : ∀ x ∈ l, opens x = false) (rest : List ρ) :
    rejoin opens closes none (l ++ rest) = l ++ rejoin opens closes none rest := by
  induction l with
  | nil => rfl
  | cons x l ih =>
    rw [List.forall_mem_cons] at h
    rw [List.cons_append, rejoin_skip h.1, ih h.2, List.cons_append]

theorem rejoin_unclosed {l : List ρ} (h : ∀ x ∈ l, closes x = false) :
    rejoin opens closes none l = l := by
  induction scan opens closes l with
  | nil => rfl
  | skip hx _ ih => rw [rejoin_skip hx, ih (List.forall_mem_cons.mp h).2]
  | @pair u gap c rest _ _ hc _ _ => simp [h c (by simp)] at hc
  | stuck hu htail => exact rejoin_stuck hu htail

theorem rejoin_append (p q : List ρ) :
    rejoin opens closes none (p ++ q) = rejoin opens closes none p ++ rejoin opens closes none q ∨
    ∃ before u gap, p = before ++ u :: gap ∧ opens u ∧ (∀ g ∈ gap, closes g = false) ∧
      rejoin opens closes none (p ++ q)
        = rejoin opens closes none before ++ u :: rejoin opens closes (some gap) q := by
  induction scan opens closes p with
  | nil => exact .inl rfl
  | @skip x xs hx _ ih =>
    rw [List.cons_append, rejoin_skip hx, rejoin_skip hx]
    obtain heq | ⟨before, u, gap, rfl, hu, hgap, heq⟩ := ih
    · exact .inl (by rw [heq, List.cons_append])
    · exact .inr ⟨x :: before, u, gap, rfl, hu, hgap, by rw [heq, rejoin_skip hx, List.cons_append]⟩
  | @pair u gap c rest hu hgap hc _ ih =>
    rw [List.cons_append, List.append_assoc, List.cons_append, rejoin_pair hu hgap hc,
      rejoin_pair hu hgap hc]
    obtain heq | ⟨before, u', gap', rfl, hu', hgap', heq⟩ := ih
    · exact .inl (by simp [heq])
    · refine .inr ⟨u :: (gap ++ c :: before), u', gap', by simp, hu', hgap', ?_⟩
      rw [heq, rejoin_pair hu hgap hc]
      simp
  | @stuck u tail hu htail =>
    refine .inr ⟨[], u, tail, rfl, hu, htail, ?_⟩
    simp [rejoin, hu, rejoin_held htail]

theorem filter_rejoin_closing {h rest : List ρ} {c : ρ} {p : ρ → Bool}
    (hh : ∀ x ∈ h, closes x = false) (hc : closes c) (hc' : opens c = false) (hp : p c = false) :
    (rejoin opens closes none (h ++ c :: rest)).filter p
      = h.filter p ++ (rejoin opens closes none rest).filter p := by
  have hneg : ¬ p c = true := by simp [hp]
  obtain hidle | ⟨before, u, gap, rfl, hbefore, hu⟩ := first_or_none opens h
  · rw [rejoin_skips hidle, rejoin_skip hc', List.filter_append, List.filter_cons_of_neg hneg]
  · have hgap : ∀ g ∈ gap, closes g = false := fun g hg => hh g (by simp [hg])
    rw [List.append_assoc, List.cons_append, rejoin_skips hbefore, rejoin_pair hu hgap hc,
      ← List.singleton_append, List.filter_append, List.filter_append, List.filter_cons_of_neg hneg,
      List.filter_append, List.filter_append, ← List.singleton_append (x := u) (l := gap),
      List.filter_append, List.append_assoc, List.append_assoc]

section Cut

variable {p q kept rest : List ρ} {keep keep' : ρ → Bool} {a : ρ}

theorem suffix_of_append_eq {front back : List ρ} (h : kept ++ rest = front ++ back)
    (hkept : ∀ x ∈ kept, x ∉ back) : back <:+ rest := by
  obtain ⟨mid, -, rfl⟩ | ⟨mid, rfl, rfl⟩ := List.append_eq_append_iff.mp h
  · exact List.suffix_append _ _
  · cases mid with
    | nil => exact List.suffix_refl _
    | cons x mid => exact absurd List.mem_cons_self (hkept x (by simp))

theorem cut_at_last {mid : List ρ} (hnodup : (before ++ u :: gap).Nodup)
    (hlast : ∃ init, before ++ u :: gap = init ++ [a]) (ha : a ∈ kept)
    (hkept : (rejoin opens closes none before ++ [u]).filter keep = kept ++ mid) :
    mid = [] ∧ kept.getLast? = some u := by
  have hmem : a ∈ before ∨ a = u := by
    have := List.mem_of_mem_filter (hkept ▸ List.mem_append_left mid ha)
    simpa using this
  obtain ⟨init, hlast⟩ := hlast
  obtain ⟨-, hback, hdisjoint⟩ := List.nodup_append.mp hnodup
  have hgap : gap = [] := by
    obtain rfl | ⟨gap, x, rfl⟩ := gap.eq_nil_or_concat
    · rfl
    · rw [List.concat_eq_append, ← List.cons_append, ← List.append_assoc] at hlast
      obtain rfl : x = a := by simpa using (List.append_inj' hlast rfl).2
      obtain hx | rfl := hmem
      · exact absurd rfl (hdisjoint x hx x (by simp))
      · exact absurd (by simp) (List.nodup_cons.mp hback).1
  subst hgap
  obtain rfl : u = a := by simpa using (List.append_inj' hlast rfl).2
  have hnew : u ∉ before := fun hu => hdisjoint u hu u List.mem_cons_self rfl
  have hku : keep u := by
    have := List.mem_append_left mid ha
    rw [← hkept] at this
    exact (List.mem_filter.mp this).2
  rw [List.filter_append, List.filter_cons_of_pos hku, List.filter_nil] at hkept
  obtain rfl | ⟨mid, x, rfl⟩ := mid.eq_nil_or_concat
  · rw [List.append_nil] at hkept
    exact ⟨rfl, by rw [← hkept, List.getLast?_concat]⟩
  · rw [List.concat_eq_append, ← List.append_assoc] at hkept
    have hin : u ∈ kept ++ mid := List.mem_append_left mid ha
    rw [← (List.append_inj' hkept rfl).1] at hin
    exact absurd (mem_rejoin.mp (List.mem_of_mem_filter hin)) hnew

/-- The rows behind a list, scanned anew, come as they stand behind a cut of the whole that takes
the last row of the list, none of the rows behind it, and tears no pair apart. -/
theorem rejoin_behind_cut (hclosing : ∀ x, opens x → closes x = false) (hnodup : (p ++ q).Nodup)
    (hlast : ∃ init, p = init ++ [a]) (ha : a ∈ kept) (hkept : ∀ x ∈ kept, x ∉ q)
    (hcut : (rejoin opens closes none (p ++ q)).filter keep = kept ++ rest)
    (hpair : ∀ u c, kept.getLast? = some u → rest.head? = some c → opens u → closes c = false)
    (hkeep : ∀ x ∈ q, keep' x → keep x) :
    ((rejoin opens closes none q).filter keep').Sublist rest := by
  have hsub : ((rejoin opens closes none q).filter keep').Sublist
      ((rejoin opens closes none q).filter keep) := by
    rw [List.filter_congr (q := fun x => keep' x && keep x) fun x hx => ?_, ← List.filter_filter]
    · exact List.filter_sublist
    · cases hx' : keep' x with
      | false => rfl
      | true => exact (hkeep x (mem_rejoin.mp hx) hx').symm
  have hbehind : ∀ front, (rejoin opens closes none (p ++ q)).filter keep
      = front ++ (rejoin opens closes none q).filter keep →
      ((rejoin opens closes none q).filter keep').Sublist rest := fun front hfront =>
    hsub.trans (suffix_of_append_eq (hcut.symm.trans hfront) fun x hx hback =>
      hkept x hx (mem_rejoin.mp (List.mem_of_mem_filter hback))).sublist
  obtain heq | ⟨before, u, gap, rfl, hu, hgap, heq⟩ :=
    @rejoin_append _ opens closes p q
  · exact hbehind _ (by rw [heq, List.filter_append])
  obtain hnone | ⟨h, c, tail, rfl, hh, hc⟩ := first_or_none closes q
  · refine hbehind ((rejoin opens closes none before ++ u :: gap).filter keep) ?_
    have hheld : rejoin opens closes (some gap) q = gap ++ q := by
      simpa using @rejoin_held _ opens closes gap q hnone []
    rw [heq, hheld, rejoin_unclosed hnone, ← List.filter_append, List.append_assoc, List.cons_append]
  have hheld : rejoin opens closes (some gap) (h ++ c :: tail)
      = c :: (gap ++ h ++ rejoin opens closes none tail) := by
    rw [rejoin_held hh, rejoin, if_pos hc, List.cons_append]
  have hc' : opens c = false := by
    cases hopen : opens c with
    | false => rfl
    | true => simp [hclosing c hopen] at hc
  cases hkc : keep c with
  | false =>
    refine hbehind ((rejoin opens closes none before ++ u :: gap).filter keep) ?_
    rw [heq, hheld, filter_rejoin_closing hh hc hc' hkc]
    cases hku : keep u <;> simp [hkc, hku]
  | true =>
    -- The row that the opening one waits for comes next, and the cut parts them.
    exfalso
    have hfront : kept ++ rest = (rejoin opens closes none before ++ [u]).filter keep
        ++ c :: (gap ++ h ++ rejoin opens closes none tail).filter keep := by
      rw [← hcut, heq, hheld]
      cases hku : keep u <;> simp [hkc, hku]
    obtain ⟨mid, hX, hrest⟩ : ∃ mid, (rejoin opens closes none before ++ [u]).filter keep = kept ++ mid ∧
        rest = mid ++ c :: (gap ++ h ++ rejoin opens closes none tail).filter keep := by
      obtain hmid | ⟨mid, rfl, hback⟩ := List.append_eq_append_iff.mp hfront
      · exact hmid
      · cases mid with
        | nil => exact ⟨[], by simp, hback.symm⟩
        | cons x mid =>
          obtain ⟨rfl, -⟩ := List.cons.inj hback
          exact absurd (by simp) (hkept c (by simp))
    obtain ⟨rfl, hu'⟩ := cut_at_last (List.nodup_append.mp hnodup).1 hlast ha hX
    have hclosed := hpair u c hu' (by rw [hrest]; rfl) hu
    rw [hc] at hclosed
    cases hclosed

end Cut

end Patom.Foundation
