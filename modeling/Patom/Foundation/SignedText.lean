import Patom.Text
import Patom.TypesLaws

/-! Texts with a signature, in hexadecimal, behind their last separator. -/

namespace Patom.Foundation

def rsplitOnce (sep : Char) : List Char → Option (List Char × List Char)
  | [] => none
  | c :: text =>
    match rsplitOnce sep text with
    | some (before, after) => some (c :: before, after)
    | none => if c = sep then some ([], text) else none

theorem rsplitOnce_eq_none {sep : Char} {text : List Char} (h : sep ∉ text) :
    rsplitOnce sep text = none := by
  induction text with
  | nil => rfl
  | cons c text ih =>
    obtain ⟨hne, hrest⟩ := not_or.mp (mt List.mem_cons.mpr h)
    simp only [rsplitOnce, ih hrest]
    exact if_neg (Ne.symm hne)

theorem rsplitOnce_append {sep : Char} (before : List Char) {after : List Char} (h : sep ∉ after) :
    rsplitOnce sep (before ++ sep :: after) = some (before, after) := by
  induction before with
  | nil => simp only [List.nil_append, rsplitOnce, rsplitOnce_eq_none h, if_pos]
  | cons c before ih => simp only [List.cons_append, rsplitOnce, ih]

def nibble (c : Char) : Option Nat :=
  if '0' ≤ c ∧ c ≤ '9' then some (c.toNat - '0'.toNat)
  else if 'a' ≤ c ∧ c ≤ 'f' then some (c.toNat - 'a'.toNat + 10)
  else if 'A' ≤ c ∧ c ≤ 'F' then some (c.toNat - 'A'.toNat + 10)
  else none

def encodeHex (bytes : List (BitVec 8)) : List Char :=
  bytes.flatMap fun b => [Nat.digitChar (b.toNat / 16), Nat.digitChar (b.toNat % 16)]

def decodeHex : List Char → Option (List (BitVec 8))
  | [] => some []
  | [_] => none
  | hi :: lo :: rest => do
    let hi ← nibble hi
    let lo ← nibble lo
    let bytes ← decodeHex rest
    return BitVec.ofNat 8 (hi * 16 + lo) :: bytes

theorem nibble_digitChar {n : Nat} (h : n < 16) : nibble (Nat.digitChar n) = some n := by
  have hall : ∀ n < 16, nibble (Nat.digitChar n) = some n := by decide
  exact hall n h

theorem high_lt (b : BitVec 8) : b.toNat / 16 < 16 := by
  have := b.isLt
  omega

theorem low_lt (b : BitVec 8) : b.toNat % 16 < 16 := Nat.mod_lt _ (by decide)

theorem decodeHex_encodeHex (bytes : List (BitVec 8)) : decodeHex (encodeHex bytes) = some bytes := by
  induction bytes with
  | nil => rfl
  | cons b bytes ih =>
    rw [encodeHex, List.flatMap_cons, ← encodeHex, List.cons_append, List.cons_append,
      List.nil_append, decodeHex, nibble_digitChar (high_lt b), nibble_digitChar (low_lt b), ih]
    simp only [Option.pure_def, Option.bind_eq_bind, Option.bind_some]
    rw [Nat.div_add_mod' b.toNat 16, BitVec.ofNat_toNat, BitVec.setWidth_eq]

theorem mem_encodeHex {bytes : List (BitVec 8)} {c : Char} (h : c ∈ encodeHex bytes) :
    ∃ n < 16, c = Nat.digitChar n := by
  obtain ⟨b, -, hc⟩ := List.mem_flatMap.mp h
  obtain rfl | hc := List.mem_cons.mp hc
  · exact ⟨_, high_lt b, rfl⟩
  · exact ⟨_, low_lt b, List.mem_singleton.mp hc⟩

theorem digitChar_isAlphanum {n : Nat} (h : n < 16) : (Nat.digitChar n).isAlphanum := by
  have hall : ∀ n < 16, (Nat.digitChar n).isAlphanum := by decide
  exact hall n h

theorem length_encodeHex (bytes : List (BitVec 8)) :
    (encodeHex bytes).length = 2 * bytes.length := by
  simp [encodeHex, Nat.mul_comm]

theorem byteLen_of_ascii {text : List Char} (h : ∀ c ∈ text, c.utf8Size = 1) :
    byteLen text = text.length := by
  rw [byteLen, List.map_congr_left h, List.map_const', List.sum_replicate, smul_eq_mul, Nat.mul_one]

structure Tag where
  bytes : List (BitVec 8)
  length : bytes.length = 32

def encode32 (tag : Tag) : List Char := encodeHex tag.bytes

def decode32 (s : List Char) : Option (List (BitVec 8)) :=
  if byteLen s ≠ 64 then none else decodeHex s

theorem byteLen_encode32 (tag : Tag) : byteLen (encode32 tag) = 64 := by
  rw [encode32, byteLen_of_ascii, length_encodeHex, tag.length]
  intro c hc
  obtain ⟨n, hn, rfl⟩ := mem_encodeHex hc
  exact digitChar_utf8Size hn

theorem decode32_encode32 (tag : Tag) : decode32 (encode32 tag) = some tag.bytes := by
  rw [decode32, if_neg (not_not.mpr (byteLen_encode32 tag)), encode32, decodeHex_encodeHex]

section Sign

variable (mac : List Char → Tag) (sep : Char)

def sign (payload : List Char) : List Char := payload ++ sep :: encode32 (mac payload)

def payloadOf (token : List Char) : Option (List Char) := do
  let (payload, sig) ← rsplitOnce sep token
  if byteLen sig ≠ 64 then none
  else
    let expected ← decode32 sig
    if (mac payload).bytes = expected then return payload else none

variable {mac sep}

theorem payloadOf_sign (h : sep.isAlphanum = false) (payload : List Char) :
    payloadOf mac sep (sign mac sep payload) = some payload := by
  have hsep : sep ∉ encode32 (mac payload) := by
    intro hmem
    obtain ⟨n, hn, rfl⟩ := mem_encodeHex hmem
    rw [digitChar_isAlphanum hn] at h
    cases h
  rw [payloadOf, sign, rsplitOnce_append payload hsep]
  simp [byteLen_encode32, decode32_encode32]

theorem payloadOf_of_not_mem {token : List Char} (h : sep ∉ token) : payloadOf mac sep token = none := by
  rw [payloadOf, rsplitOnce_eq_none h]
  rfl

theorem payloadOf_of_long (before : List Char) {after : List Char} (h : sep ∉ after)
    (hlen : 64 < byteLen after) : payloadOf mac sep (before ++ sep :: after) = none := by
  rw [payloadOf, rsplitOnce_append before h]
  simp [hlen.ne']

end Sign

def showInt (n : Int) : List Char :=
  if n < 0 then '-' :: Nat.toDigits 10 n.natAbs else Nat.toDigits 10 n.natAbs

def readNat (text : List Char) : Option Nat :=
  if text ≠ [] ∧ text.all Char.isDigit then some (Nat.ofDigitChars 10 text 0) else none

def readInt : List Char → Option Int
  | '-' :: digits => (readNat digits).map fun n => -n
  | '+' :: digits => (readNat digits).map fun n => n
  | digits => (readNat digits).map fun n => n

def readI64 (text : List Char) : Option Int64 :=
  (readInt text).bind fun n =>
    if -2 ^ 63 ≤ n ∧ n < 2 ^ 63 then some (Int64.ofInt n) else none

theorem readNat_toDigits (n : Nat) : readNat (Nat.toDigits 10 n) = some n := by
  have hdigits : (Nat.toDigits 10 n).all Char.isDigit :=
    List.all_eq_true.mpr fun c hc => Nat.isDigit_of_mem_toDigits (by decide) (by decide) hc
  rw [readNat, if_pos ⟨Nat.toDigits_ne_nil, hdigits⟩, Nat.ofDigitChars_ten_toDigits]

theorem readInt_showInt (n : Int) : readInt (showInt n) = some n := by
  unfold showInt
  split
  · rename_i hneg
    rw [readInt, readNat_toDigits]
    exact congrArg some (Int.eq_neg_comm.mp (Int.ofNat_natAbs_of_nonpos hneg.le)).symm
  · rename_i hpos
    have hread : readInt (Nat.toDigits 10 n.natAbs)
        = (readNat (Nat.toDigits 10 n.natAbs)).map fun n => (n : Int) := by
      have hdigit : ∀ c ∈ Nat.toDigits 10 n.natAbs, c.isDigit := fun c hc =>
        Nat.isDigit_of_mem_toDigits (by decide) (by decide) hc
      cases h : Nat.toDigits 10 n.natAbs with
      | nil => rfl
      | cons c rest =>
        have hc := hdigit c (h ▸ List.mem_cons_self)
        unfold readInt
        split
        · rename_i heq
          cases heq
          cases hc
        · rename_i heq
          cases heq
          cases hc
        · rfl
    rw [hread, readNat_toDigits]
    exact congrArg some (Int.natAbs_of_nonneg (Int.not_lt.mp hpos))

theorem readI64_showInt (n : Int64) : readI64 (showInt n.toInt) = some n := by
  rw [readI64, readInt_showInt, Option.bind_some, if_pos ⟨n.le_toInt, n.toInt_lt⟩, Int64.ofInt_toInt]

theorem mem_showInt {n : Int} {c : Char} (h : c ∈ showInt n) : c.isDigit ∨ c = '-' := by
  unfold showInt at h
  split at h
  · obtain rfl | h := List.mem_cons.mp h
    · exact .inr rfl
    · exact .inl (Nat.isDigit_of_mem_toDigits (by decide) (by decide) h)
  · exact .inl (Nat.isDigit_of_mem_toDigits (by decide) (by decide) h)

theorem length_showInt (n : Int64) : (showInt n.toInt).length ≤ 20 := by
  have hle := n.le_toInt
  have hlt := n.toInt_lt
  have hdigits : (Nat.toDigits 10 n.toInt.natAbs).length ≤ 19 :=
    (Nat.length_toDigits_le_iff (by decide) (by decide)).mpr (by omega)
  unfold showInt
  split
  · exact Nat.succ_le_succ hdigits
  · exact hdigits.trans (by decide)

end Patom.Foundation
