import Patom.Types

namespace Patom

theorem nibbles_injective {n a b : Nat} (ha : a < 16 ^ n) (hb : b < 16 ^ n)
    (h : ∀ i < n, a / 16 ^ i % 16 = b / 16 ^ i % 16) : a = b := by
  induction n generalizing a b with
  | zero => omega
  | succ n ih =>
    have hdiv : a / 16 = b / 16 := by
      apply ih
      · omega
      · omega
      · intro i hi
        have hstep := h (i + 1) (by omega)
        rwa [Nat.pow_succ', ← Nat.div_div_eq_div_mul, ← Nat.div_div_eq_div_mul] at hstep
    have hmod := h 0 (Nat.succ_pos n)
    simp only [Nat.pow_zero, Nat.div_one] at hmod
    omega

theorem digitChar_injective {a b : Nat} (ha : a < 16) (hb : b < 16)
    (h : Nat.digitChar a = Nat.digitChar b) : a = b := by
  have hall : ∀ a < 16, ∀ b < 16, Nat.digitChar a = Nat.digitChar b → a = b := by decide
  exact hall a ha b hb h

theorem digitChar_utf8Size {a : Nat} (ha : a < 16) : (Nat.digitChar a).utf8Size = 1 := by
  have hall : ∀ a < 16, (Nat.digitChar a).utf8Size = 1 := by decide
  exact hall a ha

theorem toDigits_injective {m n : Nat} (h : Nat.toDigits 10 m = Nat.toDigits 10 n) : m = n := by
  induction m using Nat.strongRecOn generalizing n with
  | ind m ih =>
    have hne : ∀ k, Nat.toDigits 10 k ≠ [] := fun k => by
      rw [← Nat.toList_repr]
      simp
    rcases Nat.lt_or_ge m 10 with hm | hm <;> rcases Nat.lt_or_ge n 10 with hn | hn
    · rw [Nat.toDigits_of_lt_base hm, Nat.toDigits_of_lt_base hn] at h
      exact digitChar_injective (by omega) (by omega) (List.cons.inj h).1
    · rw [Nat.toDigits_of_lt_base hm, Nat.toDigits_of_base_le (by omega) hn] at h
      exact absurd (List.append_eq_singleton_iff.mp h.symm) (by simp [hne])
    · rw [Nat.toDigits_of_base_le (by omega) hm, Nat.toDigits_of_lt_base hn] at h
      exact absurd (List.append_eq_singleton_iff.mp h) (by simp [hne])
    · rw [Nat.toDigits_of_base_le (by omega) hm, Nat.toDigits_of_base_le (by omega) hn] at h
      obtain ⟨hdiv, hmod⟩ := List.append_inj' h rfl
      have hhigh := ih (m / 10) (by omega) hdiv
      have hlow := digitChar_injective (by omega) (by omega) (List.cons.inj hmod).1
      omega

theorem natRepr_injective {m n : Nat} (h : m.repr = n.repr) : m = n :=
  toDigits_injective (String.ofList_injective h)

@[simp] theorem Uuid.length_hex (u : Uuid) (top n : Nat) : (u.hex top n).length = n := by
  simp [Uuid.hex]

theorem Uuid.nibble_lt (u : Uuid) (i : Nat) : u.nibble i < 16 := Nat.mod_lt _ (by decide)

theorem Uuid.hex_injective {u v : Uuid} {top n : Nat} (h : u.hex top n = v.hex top n) {j : Nat}
    (hj : j < n) : u.nibble (top - j) = v.nibble (top - j) := by
  have hget := List.map_inj_left.mp h j (List.mem_range.mpr hj)
  exact digitChar_injective (u.nibble_lt _) (v.nibble_lt _) hget

@[simp] theorem Uuid.length_chars (u : Uuid) : u.chars.length = 36 := by
  simp [Uuid.chars]

theorem Uuid.chars_injective {u v : Uuid} (h : u.chars = v.chars) : u = v := by
  obtain ⟨h, h₅⟩ := List.append_inj h (by simp)
  obtain ⟨h, h₄⟩ := List.append_inj h (by simp)
  obtain ⟨h, h₃⟩ := List.append_inj h (by simp)
  obtain ⟨h₁, h₂⟩ := List.append_inj h (by simp)
  apply BitVec.eq_of_toNat_eq
  have hu : u.toNat < 16 ^ 32 := u.isLt
  have hv : v.toNat < 16 ^ 32 := v.isLt
  refine nibbles_injective hu hv fun i hi => ?_
  change u.nibble i = v.nibble i
  rcases (by omega : 24 ≤ i ∨ (20 ≤ i ∧ i ≤ 23) ∨ (16 ≤ i ∧ i ≤ 19) ∨ (12 ≤ i ∧ i ≤ 15) ∨ i ≤ 11)
    with hi' | hi' | hi' | hi' | hi'
  · simpa [show 31 - (31 - i) = i by omega] using Uuid.hex_injective h₁ (j := 31 - i) (by omega)
  · simpa [show 23 - (23 - i) = i by omega] using Uuid.hex_injective (List.cons.inj h₂).2 (j := 23 - i) (by omega)
  · simpa [show 19 - (19 - i) = i by omega] using Uuid.hex_injective (List.cons.inj h₃).2 (j := 19 - i) (by omega)
  · simpa [show 15 - (15 - i) = i by omega] using Uuid.hex_injective (List.cons.inj h₄).2 (j := 15 - i) (by omega)
  · simpa [show 11 - (11 - i) = i by omega] using Uuid.hex_injective (List.cons.inj h₅).2 (j := 11 - i) (by omega)

theorem Uuid.display_injective {u v : Uuid} (h : u.display = v.display) : u = v :=
  Uuid.chars_injective (String.ofList_injective h)

theorem utf8ByteSize_ofList {l : List Char} (h : ∀ c ∈ l, c.utf8Size = 1) :
    (String.ofList l).utf8ByteSize = l.length := by
  induction l with
  | nil => rfl
  | cons c l ih =>
    rw [show c :: l = [c] ++ l from rfl, String.ofList_append, String.utf8ByteSize_append,
      ih fun d hd => h d (List.mem_cons_of_mem c hd), ← String.singleton_eq_ofList]
    have := h c List.mem_cons_self
    simp
    omega

theorem Uuid.hex_ascii (u : Uuid) (top n : Nat) : ∀ c ∈ u.hex top n, c.utf8Size = 1 := by
  intro c hc
  obtain ⟨j, -, rfl⟩ := List.mem_map.mp hc
  exact digitChar_utf8Size (u.nibble_lt _)

@[simp] theorem Uuid.utf8ByteSize_display (u : Uuid) : u.display.utf8ByteSize = 36 := by
  rw [Uuid.display, utf8ByteSize_ofList, Uuid.length_chars]
  intro c hc
  simp only [Uuid.chars, List.mem_append, List.mem_cons] at hc
  have hdash : Char.utf8Size '-' = 1 := by decide
  rcases hc with (((hc | rfl | hc) | rfl | hc) | rfl | hc) | rfl | hc
  all_goals first | exact hdash | exact u.hex_ascii _ _ c hc

end Patom
