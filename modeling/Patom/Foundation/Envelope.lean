import Mathlib.Algebra.Order.BigOperators.Group.List
import Mathlib.Data.List.Infix
import Mathlib.Tactic

/-! Blocks of lines behind which a closing tag stands, and what a text can forge in them. -/

namespace Patom.Foundation

variable {α ι ε : Type}

section Clean

structure Clean (newline : α) (close text : List α) : Prop where
  line : newline ∉ text
  tag : ¬ close <:+: text

variable {newline : α} {close : List α}

theorem append_split {before close after a b : List α} {c : α} (hc : c ∉ close) (hne : close ≠ [])
    (h : before ++ close ++ after = a ++ c :: b) : (∃ rest, a = before ++ close ++ rest) ∨
      ∃ rest, before = a ++ c :: rest ∧ b = rest ++ close ++ after := by
  rw [List.append_assoc, List.append_eq_append_iff] at h
  rcases h with ⟨s, ha, hs⟩ | ⟨s, hbefore, hs⟩
  · rw [List.append_eq_append_iff] at hs
    rcases hs with ⟨t, ht, -⟩ | ⟨t, ht, htail⟩
    · exact .inl ⟨t, by rw [ha, ht, List.append_assoc]⟩
    · cases t with
      | nil => exact .inl ⟨[], by rw [ha, ht]; simp⟩
      | cons d t =>
        have hd : c = d := (List.cons.inj htail).1
        exact absurd (ht ▸ hd ▸ List.mem_append_right s List.mem_cons_self) hc
  · cases s with
    | nil =>
      obtain ⟨d, tag, rfl⟩ := List.exists_cons_of_ne_nil hne
      have hd : c = d := (List.cons.inj hs).1
      exact absurd (hd ▸ List.mem_cons_self) hc
    | cons d rest =>
      rw [List.cons_append] at hs
      obtain ⟨rfl, hrest⟩ := List.cons.inj hs
      exact .inr ⟨rest, hbefore, by rw [hrest, List.append_assoc]⟩

theorem isInfix_append_cons {a b : List α} {c : α} (hc : c ∉ close) (hne : close ≠ []) :
    close <:+: a ++ c :: b ↔ close <:+: a ∨ close <:+: b := by
  constructor
  · rintro ⟨before, after, h⟩
    rcases append_split hc hne h with ⟨rest, ha⟩ | ⟨rest, -, hb⟩
    · exact .inl ⟨before, rest, ha.symm⟩
    · exact .inr ⟨rest, after, hb.symm⟩
  · rintro (h | h)
    · exact h.trans (List.prefix_append a _).isInfix
    · exact h.trans ((List.suffix_cons c b).trans (List.suffix_append a _)).isInfix

theorem clean_append_cons {a b : List α} {c : α} (hc : c ∉ close) (hne : close ≠ [])
    (hline : newline ≠ c) :
    Clean newline close (a ++ c :: b) ↔ Clean newline close a ∧ Clean newline close b := by
  constructor
  · rintro ⟨hmem, htag⟩
    rw [isInfix_append_cons hc hne, not_or] at htag
    rw [List.mem_append, List.mem_cons, not_or, not_or] at hmem
    exact ⟨⟨hmem.1, htag.1⟩, ⟨hmem.2.2, htag.2⟩⟩
  · rintro ⟨ha, hb⟩
    refine ⟨?_, ?_⟩
    · rw [List.mem_append, List.mem_cons, not_or, not_or]
      exact ⟨ha.line, hline, hb.line⟩
    · rw [isInfix_append_cons hc hne, not_or]
      exact ⟨ha.tag, hb.tag⟩

theorem clean_of_notMem {text : List α} {c : α} (hc : c ∈ close) (hline : newline ∉ text)
    (h : c ∉ text) : Clean newline close text :=
  ⟨hline, fun htag => h (htag.subset hc)⟩

end Clean

section Cut

def CutElsewhere (c : α) (u b u' b' a a' : List α) : Prop :=
  ∃ rest, a' = a ++ c :: (u ++ rest) ∧ b = rest ++ c :: (u' ++ b')

variable {c : α} {u u' : List α}

theorem CutElsewhere.eq {a b a' b' : List α} (h : CutElsewhere c u b u' b' a a') :
    a ++ c :: (u ++ b) = a' ++ c :: (u' ++ b') := by
  obtain ⟨rest, rfl, rfl⟩ := h
  simp

theorem cut_of_append {rest b b' : List α} (hu : c ∉ u) (hlen : u.length = u'.length)
    (h : c :: (u ++ b) = rest ++ c :: (u' ++ b')) : (rest = [] ∧ u = u' ∧ b = b') ∨
      ∃ more, rest = c :: (u ++ more) ∧ b = more ++ c :: (u' ++ b') := by
  cases rest with
  | nil =>
    obtain ⟨hu', hb⟩ := List.append_inj (List.cons.inj h).2 hlen
    exact .inl ⟨rfl, hu', hb⟩
  | cons d rest =>
    rw [List.cons_append] at h
    obtain ⟨rfl, htail⟩ := List.cons.inj h
    rw [List.append_eq_append_iff] at htail
    rcases htail with ⟨more, hrest, hb⟩ | ⟨more, hmore, hb⟩
    · exact .inr ⟨more, by rw [hrest], hb⟩
    · cases more with
      | nil =>
        rw [List.append_nil] at hmore
        exact .inr ⟨[], by rw [hmore, List.append_nil], hb.symm⟩
      | cons e more =>
        have he : c = e := (List.cons.inj hb).1
        exact absurd (hmore ▸ he ▸ List.mem_append_right rest List.mem_cons_self) hu

theorem append_cut_iff {a b a' b' : List α} (hu : c ∉ u) (hu' : c ∉ u')
    (hlen : u.length = u'.length) :
    a ++ c :: (u ++ b) = a' ++ c :: (u' ++ b') ↔ (a = a' ∧ u = u' ∧ b = b') ∨
      CutElsewhere c u b u' b' a a' ∨ CutElsewhere c u' b' u b a' a := by
  constructor
  · intro h
    rw [List.append_eq_append_iff] at h
    rcases h with ⟨rest, ha, h⟩ | ⟨rest, ha, h⟩
    · rcases cut_of_append hu hlen h with ⟨rfl, hu, hb⟩ | ⟨more, rfl, hb⟩
      · exact .inl ⟨by rw [ha, List.append_nil], hu, hb⟩
      · exact .inr (.inl ⟨more, ha, hb⟩)
    · rcases cut_of_append hu' hlen.symm h with ⟨rfl, hu, hb⟩ | ⟨more, rfl, hb⟩
      · exact .inl ⟨by rw [ha, List.append_nil], hu.symm, hb.symm⟩
      · exact .inr (.inr ⟨more, ha, hb⟩)
  · rintro (⟨rfl, rfl, rfl⟩ | h | h)
    · rfl
    · exact h.eq
    · exact h.eq.symm

theorem append_cons_inj {a b a' b' : List α} (h : c ∉ a) (h' : c ∉ a') :
    a ++ c :: b = a' ++ c :: b' ↔ a = a' ∧ b = b' := by
  have hcut : a ++ c :: ([] ++ b) = a' ++ c :: ([] ++ b') ↔ _ :=
    append_cut_iff List.not_mem_nil List.not_mem_nil rfl
  have hleft : ¬ CutElsewhere c [] b [] b' a a' := by
    rintro ⟨rest, rfl, -⟩
    exact h' (List.mem_append_right a List.mem_cons_self)
  have hright : ¬ CutElsewhere c [] b' [] b a' a := by
    rintro ⟨rest, rfl, -⟩
    exact h (List.mem_append_right a' List.mem_cons_self)
  simpa only [List.nil_append, true_and, hleft, hright, or_false] using hcut

end Cut

section Envelope

structure Envelope (ι ε α : Type) where
  newline : α
  close : List α
  block : ι → List α
  shown : ι → List ε
  fixed : ι → Nat

/-- The tag closes the block and stands nowhere else, and there is a line for each entry. -/
structure Envelope.Sealed [BEq α] (E : Envelope ι ε α) (x : ι) : Prop where
  closed : E.close <:+ E.block x
  once : ∀ before after, E.block x = before ++ E.close ++ after → after = []
  lines : ((E.block x).splitOn E.newline).length = E.fixed x + (E.shown x).length

/-- Two inputs that are not mistaken for each other, nor for a block of other entries. -/
structure Envelope.Unforged [BEq α] (E : Envelope ι ε α) (x y : ι) : Prop where
  left : E.block x ≠ [] → E.Sealed x
  right : E.block y ≠ [] → E.Sealed y
  shown : E.block x = E.block y → E.shown x = E.shown y

abbrev Envelope.Clean (E : Envelope ι ε α) (text : List α) : Prop :=
  Foundation.Clean E.newline E.close text

structure Envelope.Laid (E : Envelope ι ε α) (body : ι → List (List α)) : Prop where
  newline : E.newline ∉ E.close
  nonempty : E.close ≠ []
  empty : ∀ x, body x = [] → E.block x = []
  block : ∀ x, body x ≠ [] → E.block x = (body x).flatMap (· ++ [E.newline]) ++ E.close
  lines : ∀ x, body x ≠ [] → (body x).length + 1 = E.fixed x + (E.shown x).length

variable {newline : α} {close : List α}

theorem intercalate_concat (newline : α) (body : List (List α)) (close : List α) :
    [newline].intercalate (body ++ [close]) = body.flatMap (· ++ [newline]) ++ close := by
  induction body with
  | nil => simp [List.intercalate]
  | cons line body ih =>
    obtain ⟨next, rest, hrest⟩ : ∃ next rest, body ++ [close] = next :: rest :=
      List.exists_cons_of_ne_nil (by simp)
    rw [hrest] at ih
    rw [List.cons_append, hrest, List.intercalate_cons_cons, ih, List.flatMap_cons]
    simp

theorem flatMap_lines_inj [BEq α] [LawfulBEq α] {body body' : List (List α)}
    (h : ∀ line ∈ body, newline ∉ line) (h' : ∀ line ∈ body', newline ∉ line)
    (hclose : newline ∉ close)
    (heq : body.flatMap (· ++ [newline]) ++ close = body'.flatMap (· ++ [newline]) ++ close) :
    body = body' := by
  have hsplit : ∀ lines : List (List α), (∀ line ∈ lines, newline ∉ line) →
      (lines.flatMap (· ++ [newline]) ++ close).splitOn newline = lines ++ [close] := by
    intro lines hlines
    rw [← intercalate_concat]
    refine List.splitOn_intercalate newline (fun line hline => ?_) (by simp)
    rcases List.mem_append.mp hline with hline | hline
    · exact hlines line hline
    · exact List.mem_singleton.mp hline ▸ hclose
  have := hsplit body h
  rw [heq, hsplit body' h'] at this
  exact (List.append_cancel_right this).symm

theorem length_splitOn [BEq α] [LawfulBEq α] (newline : α) (text : List α) :
    (text.splitOn newline).length = text.count newline + 1 := by
  induction text with
  | nil => simp
  | cons c text ih =>
    rw [List.splitOn_cons_eq_if_modifyHead, List.count_cons]
    split
    · rw [List.length_cons, ih]
    · rw [List.length_modifyHead, ih, Nat.add_zero]

theorem count_lines [BEq α] [LawfulBEq α] (newline : α) (body : List (List α)) :
    (body.flatMap (· ++ [newline])).count newline
      = body.length + (body.map (List.count newline)).sum := by
  induction body with
  | nil => rfl
  | cons line body ih =>
    rw [List.flatMap_cons, List.count_append, List.count_append, ih]
    simp
    omega

theorem closed_once {body : List (List α)} (h : ∀ line ∈ body, ¬ close <:+: line)
    (hline : newline ∉ close) (hne : close ≠ []) {before after : List α}
    (heq : body.flatMap (· ++ [newline]) ++ close = before ++ close ++ after) : after = [] := by
  induction body generalizing before with
  | nil =>
    have hlen := congrArg List.length heq
    simp only [List.flatMap_nil, List.nil_append, List.length_append] at hlen
    exact List.length_eq_zero_iff.mp (by omega)
  | cons line body ih =>
    rw [List.flatMap_cons, List.append_assoc, List.append_assoc, List.singleton_append] at heq
    rcases append_split hline hne heq.symm with ⟨rest, hrest⟩ | ⟨rest, -, hrest⟩
    · exact absurd ⟨before, rest, hrest.symm⟩ (h line List.mem_cons_self)
    · exact ih (fun line' hmem => h line' (List.mem_cons_of_mem line hmem)) hrest

theorem closed_once_iff {body : List (List α)} (hline : newline ∉ close) (hne : close ≠ []) :
    (∀ before after, body.flatMap (· ++ [newline]) ++ close = before ++ close ++ after →
      after = []) ↔ ∀ line ∈ body, ¬ close <:+: line := by
  constructor
  · rintro h line hmem ⟨before, after, htag⟩
    obtain ⟨first, rest, rfl⟩ := List.append_of_mem hmem
    have hnil := h (first.flatMap (· ++ [newline]) ++ before)
      (after ++ newline :: (rest.flatMap (· ++ [newline]) ++ close)) (by simp [← htag])
    exact absurd hnil (by simp)
  · intro h before after heq
    exact closed_once h hline hne heq

variable {E : Envelope ι ε α} {body : ι → List (List α)} {x y : ι}

theorem Envelope.Laid.block_eq_nil (h : E.Laid body) : E.block x = [] ↔ body x = [] := by
  constructor
  · intro hnil
    by_contra hx
    rw [h.block x hx, List.append_eq_nil_iff] at hnil
    exact h.nonempty hnil.2
  · exact h.empty x

theorem Envelope.Laid.clean_append_cons (h : E.Laid body) {a b : List α} {c : α}
    (hc : c ∉ E.close) (hline : E.newline ≠ c) :
    E.Clean (a ++ c :: b) ↔ E.Clean a ∧ E.Clean b :=
  Foundation.clean_append_cons hc h.nonempty hline

variable [BEq α] [LawfulBEq α]

theorem Envelope.Laid.sealed_iff (h : E.Laid body) (hx : body x ≠ []) :
    E.Sealed x ↔ ∀ line ∈ body x, E.Clean line := by
  have hlines : ((E.block x).splitOn E.newline).length = E.fixed x + (E.shown x).length ↔
      ∀ line ∈ body x, E.newline ∉ line := by
    rw [length_splitOn, h.block x hx, List.count_append, count_lines,
      List.count_eq_zero_of_not_mem h.newline, ← h.lines x hx, Nat.add_zero]
    have hsum : ((body x).map (List.count E.newline)).sum = 0 ↔
        ∀ line ∈ body x, E.newline ∉ line := by
      simp [List.sum_eq_zero_iff_forall_eq_nat, List.count_eq_zero]
    rw [← hsum]
    omega
  have honce : (∀ before after, E.block x = before ++ E.close ++ after → after = []) ↔
      ∀ line ∈ body x, ¬ E.close <:+: line := by
    rw [h.block x hx]
    exact closed_once_iff h.newline h.nonempty
  constructor
  · intro hsealed line hline
    exact ⟨hlines.mp hsealed.lines line hline, honce.mp hsealed.once line hline⟩
  · intro hclean
    refine ⟨?_, honce.mpr fun line hline => (hclean line hline).tag,
      hlines.mpr fun line hline => (hclean line hline).line⟩
    rw [h.block x hx]
    exact List.suffix_append _ _

theorem Envelope.Laid.block_inj (h : E.Laid body) (hx : ∀ line ∈ body x, E.Clean line)
    (hy : ∀ line ∈ body y, E.Clean line) : E.block x = E.block y ↔ body x = body y := by
  by_cases hnil : body x = []
  · rw [h.empty x hnil, eq_comm, h.block_eq_nil, hnil, eq_comm]
  · by_cases hnil' : body y = []
    · rw [h.empty y hnil', h.block_eq_nil, hnil']
    · rw [h.block x hnil, h.block y hnil']
      constructor
      · exact flatMap_lines_inj (fun line hline => (hx line hline).line)
          (fun line hline => (hy line hline).line) h.newline
      · rintro e
        rw [e]

theorem Envelope.Laid.unforged_iff (h : E.Laid body) : E.Unforged x y ↔
    (∀ line ∈ body x, E.Clean line) ∧ (∀ line ∈ body y, E.Clean line) ∧
      (body x = body y → E.shown x = E.shown y) := by
  have hclean : ∀ z, (E.block z ≠ [] → E.Sealed z) ↔ ∀ line ∈ body z, E.Clean line := by
    intro z
    by_cases hz : body z = []
    · simp [h.block_eq_nil, hz]
    · rw [h.sealed_iff hz, Ne, h.block_eq_nil, imp_iff_right hz]
  constructor
  · rintro ⟨hx, hy, hshown⟩
    rw [hclean] at hx hy
    exact ⟨hx, hy, fun e => hshown ((h.block_inj hx hy).mpr e)⟩
  · rintro ⟨hx, hy, hshown⟩
    exact ⟨(hclean x).mpr hx, (hclean y).mpr hy, fun e => hshown ((h.block_inj hx hy).mp e)⟩

end Envelope

end Patom.Foundation
