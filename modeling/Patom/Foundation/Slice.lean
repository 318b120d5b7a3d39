import Patom.Foundation.Table

universe u v

namespace Patom.Foundation.Table

variable {ρ : Type u} {κ : Type v} [Keyed ρ κ] {t t' : Table ρ} {p : ρ → Bool} {r : ρ}

def slice (t : Table ρ) (p : ρ → Bool) : Table ρ := t.delete fun r => !p r

@[simp] theorem rows_slice (t : Table ρ) (p : ρ → Bool) : (t.slice p).rows = t.rows.filter p := by
  simp [slice, delete]

theorem filter_eq_singleton (hr : r ∈ t) (hp : p r = true)
    (h : ∀ r' ∈ t, p r' = true → key r' = key r) : t.rows.filter p = [r] := by
  have hmem : r ∈ t.rows.filter p := List.mem_filter.mpr ⟨hr, hp⟩
  have hall : ∀ r' ∈ t.rows.filter p, r' = r := fun r' hr' => by
    obtain ⟨hr', hp'⟩ := List.mem_filter.mp hr'
    exact eq_of_key_eq hr' hr (h r' hr' hp')
  have hnodup : (t.rows.filter p).Nodup := t.nodup_rows.filter p
  cases hl : t.rows.filter p with
  | nil =>
    rw [hl] at hmem
    cases hmem
  | cons x xs =>
    rw [hl] at hall hnodup
    obtain rfl := hall x List.mem_cons_self
    cases xs with
    | nil => rfl
    | cons y ys =>
      obtain rfl := hall y (by simp)
      simp at hnodup

variable [DecidableEq κ]

@[simp] theorem find?_slice (t : Table ρ) (p : ρ → Bool) (k : κ) :
    (t.slice p).find? k = (t.find? k).filter p := by
  simp [slice]

theorem mem_keys_iff {k : κ} : k ∈ t.rows.map key ↔ ∃ r, t.find? k = some r := by
  constructor
  · intro h
    obtain ⟨r, hr, rfl⟩ := List.mem_map.mp h
    exact ⟨r, find?_of_mem hr⟩
  · rintro ⟨r, h⟩
    exact List.mem_map.mpr ⟨r, mem_of_find? h, key_of_find? h⟩

theorem find?_slice_eq {k : κ} (h : ∀ r ∈ t.find? k, p r = true) :
    (t.slice p).find? k = t.find? k := by
  rw [find?_slice]
  cases hk : t.find? k with
  | none => rfl
  | some r => rw [Option.filter_some, if_pos (h r hk)]

theorem forall_find?_of_none {k : κ} {P : ρ → Prop} (h : t.find? k = none) :
    ∀ r ∈ t.find? k, P r := by
  rw [h]
  simp

theorem forall_find?_addNew {k : κ} {P : ρ → Prop} (h : ∀ r' ∈ t.find? k, P r') (hr : P r) :
    ∀ r' ∈ (t.addNew r).find? k, P r' := by
  intro r' hr'
  rw [find?_addNew] at hr'
  cases hk : t.find? k with
  | some r₀ =>
    rw [hk, Option.some_or] at hr'
    exact h r' (hk.trans hr')
  | none =>
    rw [hk, Option.none_or] at hr'
    split at hr' <;> cases hr'
    exact hr

theorem addNew_of_isSome (h : (t.find? (key r)).isSome) : t.addNew r = t := if_pos h

theorem addNew_addNew {r' : ρ} (t : Table ρ) (h : key r' = key r) :
    (t.addNew r').addNew r = t.addNew r' :=
  addNew_of_isSome (h ▸ isSome_find?_addNew t r')

theorem mem_or_eq_of_mem_addNew {r' : ρ} (h : r' ∈ t.addNew r) : r' ∈ t ∨ r' = r :=
  forall_find?_addNew (P := fun x => x ∈ t ∨ x = r) (fun _ hx => .inl (mem_of_find? hx))
    (.inr rfl) r' (find?_of_mem h)

theorem rows_put_of_find? {r' : ρ} (h : t.find? (key r) = some r') :
    (t.put r).rows = t.rows.map fun x => if key x = key r then r else x := by
  rw [put, dif_pos (mem_keys_iff.mpr ⟨r', h⟩)]
  rfl

theorem filter_map_replace {l : List ρ} (hr : p r = false)
    (h : ∀ x ∈ l, key x = key r → p x = false) :
    (l.map fun x => if key x = key r then r else x).filter p = l.filter p := by
  induction l with
  | nil => rfl
  | cons x xs ih =>
    rw [List.map_cons, List.filter_cons, List.filter_cons,
      ih fun y hy => h y (List.mem_cons_of_mem x hy)]
    by_cases e : key x = key r
    · rw [if_pos e, hr, h x List.mem_cons_self e]
      rfl
    · rw [if_neg e]

theorem slice_put (hr : p r = true) (h : ∀ r' ∈ t.find? (key r), p r' = true) :
    (t.put r).slice p = (t.slice p).put r := by
  refine ext ?_
  cases hk : t.find? (key r) with
  | none =>
    have hk' : (t.slice p).find? (key r) = none := by rw [find?_slice, hk, Option.filter_none]
    rw [rows_slice, rows_put hk, rows_put hk', rows_slice, List.filter_append]
    simp [hr]
  | some r' =>
    have hp := h r' hk
    have hk' : (t.slice p).find? (key r) = some r' := (find?_slice_eq h).trans hk
    rw [rows_slice, rows_put_of_find? hk, rows_put_of_find? hk', rows_slice, List.filter_map]
    refine congrArg _ (List.filter_congr fun x hx => ?_)
    by_cases e : key x = key r
    · rw [Function.comp_apply, if_pos e, hr]
      rw [eq_of_key_eq hx (mem_of_find? hk) (e.trans (key_of_find? hk).symm), hp]
    · rw [Function.comp_apply, if_neg e]

theorem slice_put_of_not (hr : p r = false) (h : ∀ r' ∈ t.find? (key r), p r' = false) :
    (t.put r).slice p = t.slice p := by
  refine ext ?_
  cases hk : t.find? (key r) with
  | none =>
    rw [rows_slice, rows_put hk, rows_slice, List.filter_append]
    simp [hr]
  | some r' =>
    rw [rows_slice, rows_put_of_find? hk, rows_slice]
    have hrow : ∀ x ∈ t.rows, key x = key r → p x = false := fun x hx e =>
      h x (hk ▸ congrArg some
        (eq_of_key_eq (mem_of_find? hk) hx ((key_of_find? hk).trans e.symm)))
    exact filter_map_replace hr hrow

theorem slice_addNew (hr : p r = true) (h : ∀ r' ∈ t.find? (key r), p r' = true) :
    (t.addNew r).slice p = (t.slice p).addNew r := by
  rw [addNew, addNew, find?_slice_eq h]
  split
  · rfl
  · exact slice_put hr h

theorem slice_addNew_of_not (hr : p r = false) : (t.addNew r).slice p = t.slice p := by
  rw [addNew]
  split <;> rename_i hk
  · rfl
  · refine slice_put_of_not hr fun r' h => ?_
    rw [Option.not_isSome_iff_eq_none.mp hk] at h
    cases h

theorem slice_insert? (hr : p r = true) (h : t.insert? r = some t') :
    (t.slice p).insert? r = some (t'.slice p) := by
  have hnone : t.find? (key r) = none := insert?_isSome.mp (h ▸ rfl)
  have hsome : ((t.slice p).insert? r).isSome := by
    rw [insert?_isSome, find?_slice, hnone, Option.filter_none]
  obtain ⟨u, hu⟩ := Option.isSome_iff_exists.mp hsome
  rw [hu]
  refine congrArg some (ext ?_)
  rw [rows_insert? hu, rows_slice, rows_slice, rows_insert? h, List.filter_append]
  simp [hr]

theorem slice_insert?_of_not (hr : p r = false) (h : t.insert? r = some t') :
    t'.slice p = t.slice p := by
  refine ext ?_
  rw [rows_slice, rows_slice, rows_insert? h, List.filter_append]
  simp [hr]

end Patom.Foundation.Table
