import Mathlib.Algebra.Order.BigOperators.Group.List
import Mathlib.Data.String.Basic
import Mathlib.Tactic

namespace Patom

/-- The Unicode property `White_Space`. -/
def isWhitespace (c : Char) : Bool :=
  let n := c.toNat
  (9 ≤ n ∧ n ≤ 13) ∨ n = 32 ∨ n = 0x85 ∨ n = 0xA0 ∨ n = 0x1680 ∨ (0x2000 ≤ n ∧ n ≤ 0x200A) ∨
    n = 0x2028 ∨ n = 0x2029 ∨ n = 0x202F ∨ n = 0x205F ∨ n = 0x3000

def trimStart (text : List Char) : List Char := text.dropWhile isWhitespace

def trimEnd (text : List Char) : List Char := (trimStart text.reverse).reverse

def trim (text : List Char) : List Char := trimEnd (trimStart text)

def splitLines (text : List Char) : List (List Char) := text.splitOn '\n'

def splitOnce (needle : List Char) : List Char → Option (List Char × List Char)
  | [] => if needle = [] then some ([], []) else none
  | c :: text =>
    if needle.isPrefixOf (c :: text) then some ([], (c :: text).drop needle.length)
    else (splitOnce needle text).map fun (before, after) => (c :: before, after)

def eqIgnoreAsciiCase (a b : List Char) : Bool := a.map Char.toLower = b.map Char.toLower

theorem splitOnce_eq_append {needle text before after : List Char}
    (h : splitOnce needle text = some (before, after)) : text = before ++ needle ++ after := by
  induction text generalizing before with
  | nil =>
    simp only [splitOnce, Option.ite_none_right_eq_some, Option.some.injEq, Prod.mk.injEq] at h
    obtain ⟨rfl, rfl, rfl⟩ := h
    rfl
  | cons c text ih =>
    simp only [splitOnce] at h
    split at h
    case isTrue hleads =>
      simp only [Option.some.injEq, Prod.mk.injEq] at h
      obtain ⟨rfl, rfl⟩ := h
      obtain ⟨rest, hrest⟩ := List.isPrefixOf_iff_prefix.mp hleads
      simp [← hrest]
    case isFalse =>
      obtain ⟨⟨before', after'⟩, hsplit, heq⟩ := Option.map_eq_some_iff.mp h
      simp only [Prod.mk.injEq] at heq
      obtain ⟨rfl, rfl⟩ := heq
      simp [ih hsplit]

theorem splitOnce_singleton {c : Char} {before : List Char} (h : c ∉ before) (after : List Char) :
    splitOnce [c] (before ++ c :: after) = some (before, after) := by
  induction before with
  | nil => simp [splitOnce]
  | cons d before ih =>
    obtain ⟨hne, hrest⟩ := not_or.mp (mt List.mem_cons.mpr h)
    rw [List.cons_append, splitOnce, if_neg (by simpa using hne), ih hrest, Option.map_some]

theorem splitOnce_singleton_eq_none {c : Char} {text : List Char} (h : c ∉ text) :
    splitOnce [c] text = none := by
  cases hsplit : splitOnce [c] text with
  | none => rfl
  | some parts =>
    refine absurd ?_ h
    rw [splitOnce_eq_append hsplit]
    simp

def byteLen (text : List Char) : Nat := (text.map Char.utf8Size).sum

@[simp] theorem byteLen_nil : byteLen [] = 0 := rfl

@[simp] theorem byteLen_cons (c : Char) (text : List Char) :
    byteLen (c :: text) = c.utf8Size + byteLen text := List.sum_cons

@[simp] theorem byteLen_append (a b : List Char) : byteLen (a ++ b) = byteLen a + byteLen b := by
  simp [byteLen]

theorem byteLen_pos {text : List Char} (h : text ≠ []) : 0 < byteLen text := by
  cases text with
  | nil => exact absurd rfl h
  | cons c text => exact Nat.add_pos_left c.utf8Size_pos _

theorem byteLen_eq (text : List Char) : byteLen text = (String.ofList text).utf8ByteSize := by
  induction text with
  | nil => rfl
  | cons c text ih =>
    rw [byteLen_cons, ih, ← List.singleton_append, String.ofList_append, String.utf8ByteSize_append,
      ← String.singleton_eq_ofList, String.utf8ByteSize_singleton]

theorem byteLen_toList (text : String) : byteLen text.toList = text.utf8ByteSize := by
  rw [byteLen_eq, String.ofList_toList]

def cutAtBoundary : Nat → List Char → List Char
  | _, [] => []
  | n, c :: text => if c.utf8Size ≤ n then c :: cutAtBoundary (n - c.utf8Size) text else []

def truncateToCharBoundary (s : String) (target : Nat) : String :=
  String.ofList (cutAtBoundary target s.toList)

theorem cutAtBoundary_of_le {n : Nat} {text : List Char} (h : byteLen text ≤ n) :
    cutAtBoundary n text = text := by
  induction text generalizing n with
  | nil => rfl
  | cons c text ih =>
    rw [byteLen_cons] at h
    rw [cutAtBoundary, if_pos (by omega), ih (by omega)]

theorem cutAtBoundary_append (before after : List Char) :
    cutAtBoundary (byteLen before) (before ++ after) = before := by
  induction before with
  | nil =>
    cases after with
    | nil => rfl
    | cons c after =>
      have := c.utf8Size_pos
      rw [List.nil_append, cutAtBoundary, if_neg (by simp; omega)]
  | cons c before ih =>
    rw [byteLen_cons, List.cons_append, cutAtBoundary, if_pos (Nat.le_add_right _ _),
      Nat.add_sub_cancel_left, ih]

theorem exists_eq_cutAtBoundary_append (n : Nat) (text : List Char) :
    ∃ rest, text = cutAtBoundary n text ++ rest := by
  induction text generalizing n with
  | nil => exact ⟨[], rfl⟩
  | cons c text ih =>
    rw [cutAtBoundary]
    split
    · obtain ⟨rest, hrest⟩ := ih (n - c.utf8Size)
      exact ⟨rest, by rw [List.cons_append, ← hrest]⟩
    · exact ⟨c :: text, rfl⟩

def splitAtByte : Nat → List Char → Option (List Char × List Char)
  | 0, text => some ([], text)
  | _ + 1, [] => none
  | n + 1, c :: text =>
    if c.utf8Size ≤ n + 1 then
      (splitAtByte (n + 1 - c.utf8Size) text).map fun (a, b) => (c :: a, b)
    else none

@[simp] theorem splitAtByte_zero (text : List Char) : splitAtByte 0 text = some ([], text) := by
  cases text <;> rfl

theorem splitAtByte_append (a b : List Char) : splitAtByte (byteLen a) (a ++ b) = some (a, b) := by
  induction a with
  | nil => exact splitAtByte_zero b
  | cons c a ih =>
    obtain ⟨n, hn⟩ := Nat.exists_eq_add_of_lt (byteLen_pos (List.cons_ne_nil c a))
    have hrest : n + 1 - c.utf8Size = byteLen a := by
      rw [byteLen_cons] at hn
      omega
    have hle : c.utf8Size ≤ n + 1 := by
      rw [byteLen_cons] at hn
      omega
    rw [hn, Nat.zero_add, List.cons_append, splitAtByte, if_pos hle, hrest, ih]
    rfl

def charIndices : List Char → Nat → List (Nat × Char)
  | [], _ => []
  | c :: text, offset => (offset, c) :: charIndices text (offset + c.utf8Size)

theorem getElem?_charIndices (before after : List Char) (c : Char) (offset : Nat) :
    (charIndices (before ++ c :: after) offset)[before.length]?
      = some (offset + byteLen before, c) := by
  induction before generalizing offset with
  | nil => rfl
  | cons d before ih =>
    rw [List.cons_append, charIndices, List.length_cons, List.getElem?_cons_succ, ih,
      byteLen_cons, Nat.add_assoc]

def rfindFrom (needle : Char) : List Char → Nat → Option Nat
  | [], _ => none
  | c :: text, offset =>
    (rfindFrom needle text (offset + c.utf8Size)).or (if c = needle then some offset else none)

def rfind (needle : Char) (text : List Char) : Option Nat := rfindFrom needle text 0

theorem rfindFrom_eq_none {needle : Char} {text : List Char} {offset : Nat} :
    rfindFrom needle text offset = none ↔ needle ∉ text := by
  induction text generalizing offset with
  | nil => simp [rfindFrom]
  | cons c text ih =>
    rw [rfindFrom, Option.or_eq_none_iff, ih, List.mem_cons, not_or, and_comm]
    simp [eq_comm]

theorem rfindFrom_eq_some {needle : Char} {text : List Char} {offset i : Nat}
    (h : rfindFrom needle text offset = some i) :
    ∃ before after, text = before ++ needle :: after ∧ needle ∉ after ∧
      i = offset + byteLen before := by
  induction text generalizing offset with
  | nil => cases h
  | cons c text ih =>
    obtain hlater | ⟨hnone, hhere⟩ := Option.or_eq_some_iff.mp h
    · obtain ⟨before, after, htext, hlast, hi⟩ := ih hlater
      refine ⟨c :: before, after, by rw [htext, List.cons_append], hlast, ?_⟩
      rw [hi, byteLen_cons, Nat.add_assoc]
    · obtain ⟨rfl, hi⟩ := Option.ite_none_right_eq_some.mp hhere
      exact ⟨[], text, rfl, rfindFrom_eq_none.mp hnone, (Option.some.inj hi).symm⟩

theorem rfind_eq_none {needle : Char} {text : List Char} :
    rfind needle text = none ↔ needle ∉ text :=
  rfindFrom_eq_none

theorem rfind_eq_some {needle : Char} {text : List Char} {i : Nat}
    (h : rfind needle text = some i) :
    ∃ before after, text = before ++ needle :: after ∧ needle ∉ after ∧ i = byteLen before := by
  obtain ⟨before, after, htext, hlast, hi⟩ := rfindFrom_eq_some h
  exact ⟨before, after, htext, hlast, by rw [hi, Nat.zero_add]⟩

end Patom
