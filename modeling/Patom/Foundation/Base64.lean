import Mathlib.Tactic

namespace Patom.Foundation.Base64

def alphabet : List Char :=
  "ABCDEFGHIJKLMNOPQRSTUVWXYZabcdefghijklmnopqrstuvwxyz0123456789-_".toList

def digit (n : Nat) : Char := alphabet.getD n 'A'

def value (c : Char) : Option Nat := alphabet.idxOf? c

def encode : List UInt8 → List Char
  | a :: b :: c :: rest =>
    digit (a.toNat / 4) :: digit (a.toNat % 4 * 16 + b.toNat / 16)
      :: digit (b.toNat % 16 * 4 + c.toNat / 64) :: digit (c.toNat % 64) :: encode rest
  | [a, b] =>
    [digit (a.toNat / 4), digit (a.toNat % 4 * 16 + b.toNat / 16), digit (b.toNat % 16 * 4)]
  | [a] => [digit (a.toNat / 4), digit (a.toNat % 4 * 16)]
  | [] => []

/-- Bits of a last digit that are not of a byte have to be zero. -/
def decode : List Char → Option (List UInt8)
  | c₀ :: c₁ :: c₂ :: c₃ :: rest => do
    let w ← value c₀
    let x ← value c₁
    let y ← value c₂
    let z ← value c₃
    let bytes ← decode rest
    return .ofNat (w * 4 + x / 16) :: .ofNat (x % 16 * 16 + y / 4) :: .ofNat (y % 4 * 64 + z) :: bytes
  | [c₀, c₁, c₂] => do
    let w ← value c₀
    let x ← value c₁
    let y ← value c₂
    if y % 4 = 0 then return [.ofNat (w * 4 + x / 16), .ofNat (x % 16 * 16 + y / 4)] else none
  | [c₀, c₁] => do
    let w ← value c₀
    let x ← value c₁
    if x % 16 = 0 then return [.ofNat (w * 4 + x / 16)] else none
  | [_] => none
  | [] => some []

theorem value_digit {n : Nat} (h : n < 64) : value (digit n) = some n := by
  have hall : ∀ n < 64, value (digit n) = some n := by decide
  exact hall n h

theorem digit_alphabet (n : Nat) :
    (digit n).isAlphanum ∨ digit n = '-' ∨ digit n = '_' := by
  have hall : ('A' :: alphabet).all fun c => c.isAlphanum || c = '-' || c = '_' := by decide
  have hdigit : ∀ c ∈ 'A' :: alphabet, c.isAlphanum ∨ c = '-' ∨ c = '_' := by
    simpa only [List.all_eq_true, Bool.or_eq_true, decide_eq_true_eq, or_assoc] using hall
  apply hdigit
  unfold digit
  cases h : alphabet[n]? with
  | none => rw [List.getD_eq_getElem?_getD, h]; exact List.mem_cons_self
  | some c =>
    rw [List.getD_eq_getElem?_getD, h]
    exact List.mem_cons_of_mem _ (List.mem_of_getElem? h)

theorem ofNat_of_eq {n : Nat} {b : UInt8} (h : n = b.toNat) : UInt8.ofNat n = b := by
  rw [h, UInt8.ofNat_toNat]

theorem decode_encode (bytes : List UInt8) : decode (encode bytes) = some bytes := by
  induction bytes using encode.induct with
  | case1 a b c rest ih =>
    have ha := a.toNat_lt
    have hb := b.toNat_lt
    have hc := c.toNat_lt
    rw [encode, decode, value_digit (by omega), value_digit (by omega), value_digit (by omega),
      value_digit (by omega), ih]
    simp only [Option.bind_eq_bind, Option.bind_some, Option.pure_def]
    rw [ofNat_of_eq (b := a) (by omega), ofNat_of_eq (b := b) (by omega),
      ofNat_of_eq (b := c) (by omega)]
  | case2 a b =>
    have ha := a.toNat_lt
    have hb := b.toNat_lt
    rw [encode, decode, value_digit (by omega), value_digit (by omega), value_digit (by omega)]
    simp only [Option.bind_eq_bind, Option.bind_some, Option.pure_def]
    rw [if_pos (by omega), ofNat_of_eq (b := a) (by omega), ofNat_of_eq (b := b) (by omega)]
  | case3 a =>
    have ha := a.toNat_lt
    rw [encode, decode, value_digit (by omega), value_digit (by omega)]
    simp only [Option.bind_eq_bind, Option.bind_some, Option.pure_def]
    rw [if_pos (by omega), ofNat_of_eq (b := a) (by omega)]
  | case4 => rfl

theorem encode_alphabet (bytes : List UInt8) :
    ∀ c ∈ encode bytes, c.isAlphanum ∨ c = '-' ∨ c = '_' := by
  induction bytes using encode.induct with
  | case1 a b c rest ih =>
    simp only [encode, List.forall_mem_cons]
    exact ⟨digit_alphabet _, digit_alphabet _, digit_alphabet _, digit_alphabet _, ih⟩
  | case2 a b =>
    simp only [encode, List.forall_mem_cons, List.not_mem_nil, false_imp_iff, implies_true, and_true]
    exact ⟨digit_alphabet _, digit_alphabet _, digit_alphabet _⟩
  | case3 a =>
    simp only [encode, List.forall_mem_cons, List.not_mem_nil, false_imp_iff, implies_true, and_true]
    exact ⟨digit_alphabet _, digit_alphabet _⟩
  | case4 => exact fun c hc => absurd hc List.not_mem_nil

example : encode "Ma".toByteArray.data.toList = "TWE".toList := by decide +kernel

end Patom.Foundation.Base64
