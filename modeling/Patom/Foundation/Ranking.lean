import Patom.Foundation.Journal

universe u v

namespace Patom.Foundation

variable {α : Type u}

section Stable

variable {r : α → α → Prop} [DecidableRel r] [Std.Total r]

theorem pairwise_orderedInsert {s : α → α → Prop} {a : α} {l : List α} (ha : ∀ b ∈ l, s a b)
    (hl : l.Pairwise fun b c => r b c ∧ (r c b → s b c)) [IsTrans α r] :
    (l.orderedInsert r a).Pairwise fun b c => r b c ∧ (r c b → s b c) := by
  induction l with
  | nil => simp
  | cons b l ih =>
    obtain ⟨hb, hl⟩ := List.pairwise_cons.mp hl
    have ha' := List.forall_mem_cons.mp ha
    by_cases hab : r a b
    · rw [List.orderedInsert_cons_of_le r l hab]
      refine List.pairwise_cons.mpr ⟨fun c hc => ⟨?_, fun _ => ha c hc⟩,
        List.pairwise_cons.mpr ⟨hb, hl⟩⟩
      obtain rfl | hc := List.mem_cons.mp hc
      · exact hab
      · exact Trans.trans hab (hb c hc).1
    · rw [List.orderedInsert_of_not_le r l hab]
      refine List.pairwise_cons.mpr ⟨fun c hc => ?_, ih ha'.2 hl⟩
      obtain rfl | hc := (List.mem_orderedInsert r).mp hc
      · exact ⟨(Std.Total.total c b).resolve_left hab, fun h => absurd h hab⟩
      · exact hb c hc

theorem pairwise_insertionSort_stable {s : α → α → Prop} [IsTrans α r] {l : List α}
    (hl : l.Pairwise s) : (l.insertionSort r).Pairwise fun b c => r b c ∧ (r c b → s b c) := by
  induction l with
  | nil => simp
  | cons a l ih =>
    obtain ⟨ha, hl⟩ := List.pairwise_cons.mp hl
    exact pairwise_orderedInsert (fun b hb => ha b ((List.mem_insertionSort r).mp hb)) (ih hl)

end Stable

theorem inOrder_strict {β : Type v} {κ : Type*} [LinearOrder β] (stamp : α → β) {id : α → κ}
    {l : List α} (hl : (l.map id).Nodup) (h : ∀ a b, stamp a = stamp b → id a = id b) :
    (inOrder stamp l).Pairwise (stamp · < stamp ·) := by
  have hids := List.pairwise_map.mp (((inOrder_perm stamp l).map id).nodup_iff.mpr hl)
  refine ((inOrder_sorted stamp l).and hids).imp ?_
  rintro a b ⟨hle, hne⟩
  exact lt_of_le_of_ne hle fun e => hne (h a b e)

section Extend

variable {β : Type v} [LinearOrder β] {key : α → β} {l g : List α} {a : α}

theorem mem_prefix_of_lt (hl : l.Pairwise (key · < key ·)) (hg : g <+: l) (ha : a ∈ g) {b : α}
    (hb : b ∈ l) (hlt : key b < key a) : b ∈ g := by
  obtain ⟨rest, rfl⟩ := hg
  obtain hb | hb := List.mem_append.mp hb
  · exact hb
  · exact absurd ((List.pairwise_append.mp hl).2.2 a ha b hb) (lt_asymm hlt)

theorem prefix_snoc_iff (hl : l.Pairwise (key · < key ·)) (hg : g <+: l) (ha : a ∈ l)
    (hnew : a ∉ g) : g ++ [a] <+: l ↔ ∀ b ∈ l, key b < key a → b ∈ g := by
  constructor
  · intro h b hb hlt
    have hmem := mem_prefix_of_lt hl h (List.mem_append_right g List.mem_cons_self) hb hlt
    obtain hb | hb := List.mem_append.mp hmem
    · exact hb
    · rw [List.mem_singleton.mp hb] at hlt
      exact absurd hlt (lt_irrefl _)
  · intro h
    obtain ⟨rest, rfl⟩ := hg
    have hrest : a ∈ rest := (List.mem_append.mp ha).resolve_left hnew
    obtain ⟨hsorted, hcross⟩ := (List.pairwise_append.mp hl).2
    cases rest with
    | nil => cases hrest
    | cons b rest =>
      obtain rfl | ha' := List.mem_cons.mp hrest
      · exact ⟨rest, by simp⟩
      · have hlt := (List.pairwise_cons.mp hsorted).1 a ha'
        have hb := h b (List.mem_append_right g List.mem_cons_self) hlt
        exact absurd (hcross b hb b List.mem_cons_self) (lt_irrefl _)

end Extend

section Place

variable {β : Type v} [LinearOrder β] (key : α → β)

def place (l : List α) (a : α) : Nat := l.countP fun b => key b < key a

variable {key}

theorem place_perm {l l' : List α} (h : l.Perm l') (a : α) : place key l a = place key l' a :=
  h.countP_eq _

theorem place_lt {l : List α} {a : α} (h : a ∈ l) : place key l a < l.length := by
  refine lt_of_le_of_ne List.countP_le_length fun hall => ?_
  simpa using List.countP_eq_length.mp hall a h

theorem getElem?_place {l : List α} (hl : l.Pairwise (key · < key ·)) {a : α} (h : a ∈ l) :
    l[place key l a]? = some a := by
  induction l with
  | nil => cases h
  | cons b l ih =>
    obtain ⟨hb, hl⟩ := List.pairwise_cons.mp hl
    obtain rfl | ha := List.mem_cons.mp h
    · have hnone : place key (a :: l) a = 0 := by
        refine List.countP_eq_zero.mpr fun c hc => ?_
        obtain rfl | hc := List.mem_cons.mp hc
        · simp
        · simpa using (hb c hc).le
      rw [hnone, List.getElem?_cons_zero]
    · have hsucc : place key (b :: l) a = place key l a + 1 :=
        List.countP_cons_of_pos (by simpa using hb a ha)
      rw [hsucc, List.getElem?_cons_succ, ih hl ha]

theorem getElem?_eq_some_iff_place {l : List α} (hl : l.Pairwise (key · < key ·)) {a : α}
    {k : Nat} : l[k]? = some a ↔ a ∈ l ∧ place key l a = k := by
  constructor
  · intro h
    have ha := List.mem_of_getElem? h
    refine ⟨ha, ?_⟩
    have hnodup : l.Nodup := hl.imp fun hlt e => by simp [e] at hlt
    exact (List.getElem?_inj (place_lt ha) hnodup).mp ((getElem?_place hl ha).trans h.symm)
  · rintro ⟨ha, rfl⟩
    exact getElem?_place hl ha

theorem mem_take_iff_place {l : List α} (hl : l.Pairwise (key · < key ·)) {a : α} {n : Nat} :
    a ∈ l.take n ↔ a ∈ l ∧ place key l a < n := by
  constructor
  · intro h
    obtain ⟨k, hk⟩ := List.mem_iff_getElem?.mp h
    rw [List.getElem?_take] at hk
    split at hk
    · rename_i hlt
      obtain ⟨ha, rfl⟩ := (getElem?_eq_some_iff_place hl).mp hk
      exact ⟨ha, hlt⟩
    · cases hk
  · rintro ⟨ha, hlt⟩
    refine List.mem_iff_getElem?.mpr ⟨place key l a, ?_⟩
    rw [List.getElem?_take_of_lt hlt, getElem?_place hl ha]

theorem countP_place_le (key : α → β) {l : List α}
    (hl : (inOrder key l).Pairwise (key · < key ·)) (n : Nat) :
    l.countP (fun a => n ≤ place key l a) ≤ l.length - n := by
  have hperm := inOrder_perm key l
  rw [← hperm.countP_eq, ← hperm.length_eq]
  simp only [← place_perm hperm]
  generalize inOrder key l = l at hl
  have hsplit : l.countP (fun a => n ≤ place key l a) =
      (l.take n).countP (fun a => n ≤ place key l a) +
        (l.drop n).countP (fun a => n ≤ place key l a) := by
    rw [← List.countP_append, List.take_append_drop]
  have hfirst : (l.take n).countP (fun a => n ≤ place key l a) = 0 := by
    refine List.countP_eq_zero.mpr fun a ha => ?_
    simpa using ((mem_take_iff_place hl).mp ha).2
  rw [hsplit, hfirst, Nat.zero_add, ← List.length_drop]
  exact List.countP_le_length

end Place

end Patom.Foundation
