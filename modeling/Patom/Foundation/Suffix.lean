import Mathlib.Data.List.Infix

namespace Patom.Foundation

variable {α : Type}

structure LongestSuffix (p : List α → Prop) (xs ys : List α) : Prop where
  suffix : ys <:+ xs
  fits : p ys
  longest : ∀ zs, zs <:+ xs → p zs → zs <:+ ys

variable {p q : List α → Prop} {before xs ys : List α} {x : α}

theorem LongestSuffix.of_cons (hmono : ∀ {as bs : List α}, as <:+ bs → p bs → p as)
    (hys : p ys) (hnext : ¬ p (x :: ys)) : LongestSuffix p (before ++ x :: ys) ys where
  suffix := (List.suffix_cons x ys).trans (List.suffix_append before _)
  fits := hys
  longest zs hzs hfits := by
    have hx : x :: ys <:+ before ++ x :: ys := List.suffix_append before _
    rcases List.suffix_or_suffix_of_suffix hzs hx with hle | hle
    · rcases List.suffix_cons_iff.mp hle with rfl | hle
      · exact absurd hfits hnext
      · exact hle
    · exact absurd (hmono hle hfits) hnext

theorem LongestSuffix.congr (h : LongestSuffix p xs ys) (hiff : ∀ zs, p zs ↔ q zs) :
    LongestSuffix q xs ys where
  suffix := h.suffix
  fits := (hiff ys).mp h.fits
  longest zs hzs hfits := h.longest zs hzs ((hiff zs).mpr hfits)

end Patom.Foundation
