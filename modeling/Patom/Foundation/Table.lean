import Mathlib.Tactic

universe u v

namespace Patom.Foundation

class Keyed (ρ : Type u) (κ : outParam (Type v)) where
  key : ρ → κ

export Keyed (key)

/-- A finite relation with a primary key: two rows with one key cannot be stored. -/
structure Table (ρ : Type u) {κ : outParam (Type v)} [Keyed ρ κ] where
  rows : List ρ
  nodup : (rows.map key).Nodup

namespace Table

variable {ρ : Type u} {κ : Type v} [Keyed ρ κ]

@[ext] theorem ext {t t' : Table ρ} (h : t.rows = t'.rows) : t = t' := by
  cases t
  cases t'
  cases h
  rfl

instance [DecidableEq ρ] : DecidableEq (Table ρ) := fun t t' =>
  decidable_of_iff (t.rows = t'.rows) ⟨ext, congrArg rows⟩

def empty : Table ρ := ⟨[], .nil⟩

instance : Inhabited (Table ρ) := ⟨empty⟩

instance : Membership ρ (Table ρ) := ⟨fun t r => r ∈ t.rows⟩

theorem mem_def {t : Table ρ} {r : ρ} : r ∈ t ↔ r ∈ t.rows := Iff.rfl

instance (t : Table ρ) (P : ρ → Prop) [DecidablePred P] : Decidable (∀ r ∈ t, P r) :=
  inferInstanceAs (Decidable (∀ r ∈ t.rows, P r))

instance (t : Table ρ) (P : ρ → Prop) [DecidablePred P] : Decidable (∃ r ∈ t, P r) :=
  inferInstanceAs (Decidable (∃ r ∈ t.rows, P r))

@[simp] theorem not_mem_empty (r : ρ) : r ∉ (empty : Table ρ) := List.not_mem_nil

theorem eq_of_key_eq {t : Table ρ} {r r' : ρ} (h : r ∈ t) (h' : r' ∈ t) (e : key r = key r') :
    r = r' :=
  List.inj_on_of_nodup_map t.nodup h h' e

theorem map_filterMap_sublist {α : Type*} {l : List ρ} (f : ρ → Option α) (g : α → κ)
    (h : ∀ r a, f r = some a → g a = key r) : ((l.filterMap f).map g).Sublist (l.map key) := by
  induction l with
  | nil => simp
  | cons r l ih =>
    cases e : f r with
    | none => simpa [e] using ih.cons (key r)
    | some a => simpa [e, h r a e] using ih

theorem nodup_snoc (t : Table ρ) {r : ρ} (h : key r ∉ t.rows.map key) :
    ((t.rows ++ [r]).map key).Nodup := by
  rw [List.map_append, List.nodup_append]
  refine ⟨t.nodup, List.nodup_singleton _, fun a ha b hb e => h ?_⟩
  rw [← List.mem_singleton.mp hb, ← e]
  exact ha

/-- `UPDATE`: the change is `id` on the rows its `WHERE` leaves out. -/
def modify (t : Table ρ) (f : ρ → ρ) (hf : ∀ r, key (f r) = key r) : Table ρ :=
  ⟨t.rows.map f, by simpa [Function.comp_def, hf] using t.nodup⟩

def delete (t : Table ρ) (p : ρ → Bool) : Table ρ :=
  ⟨t.rows.filter fun r => !p r, t.nodup.sublist (List.filter_sublist.map _)⟩

@[simp] theorem mem_modify {t : Table ρ} {f : ρ → ρ} {hf : ∀ r, key (f r) = key r} {r : ρ} :
    r ∈ t.modify f hf ↔ ∃ r' ∈ t, f r' = r := by
  simp [modify, mem_def]

@[simp] theorem mem_delete {t : Table ρ} {p : ρ → Bool} {r : ρ} :
    r ∈ t.delete p ↔ r ∈ t ∧ p r = false := by
  simp [delete, mem_def]

theorem modify_eq_self {t : Table ρ} {f : ρ → ρ} (hf : ∀ r, key (f r) = key r)
    (h : ∀ r ∈ t, f r = r) : t.modify f hf = t :=
  ext (List.map_congr_left h |>.trans (List.map_id t.rows))

theorem delete_eq_self {t : Table ρ} {p : ρ → Bool} (h : ∀ r ∈ t, p r = false) : t.delete p = t :=
  ext (List.filter_eq_self.mpr fun r hr => by simp [h r hr])

def single (r : ρ) : Table ρ := ⟨[r], List.nodup_singleton _⟩

theorem delete_single {r : ρ} {p : ρ → Bool} (h : p r = true) : (single r).delete p = empty := by
  refine ext ?_
  simp [delete, single, empty, h]

theorem nodup_rows (t : Table ρ) : t.rows.Nodup := List.Nodup.of_map _ t.nodup

variable [DecidableEq κ]

def find? (t : Table ρ) (k : κ) : Option ρ := t.rows.find? fun r => key r = k

/-- `INSERT`, refused on a duplicate key. -/
def insert? (t : Table ρ) (r : ρ) : Option (Table ρ) :=
  if h : key r ∈ t.rows.map key then none
  else some ⟨t.rows ++ [r], t.nodup_snoc h⟩

/-- `INSERT … ON CONFLICT DO UPDATE` with the whole row. -/
def put (t : Table ρ) (r : ρ) : Table ρ :=
  if h : key r ∈ t.rows.map key then
    t.modify (fun r' => if key r' = key r then r else r') fun r' => by
      by_cases e : key r' = key r <;> simp [e]
  else ⟨t.rows ++ [r], t.nodup_snoc h⟩

@[simp] theorem find?_empty (k : κ) : (empty : Table ρ).find? k = none := rfl

theorem key_of_find? {t : Table ρ} {k : κ} {r : ρ} (h : t.find? k = some r) : key r = k := by
  simpa using List.find?_some h

theorem length_filter_key_le (t : Table ρ) (k : κ) :
    (t.rows.filter fun r => key r = k).length ≤ 1 := by
  rw [← List.countP_eq_length_filter]
  have h := List.nodup_iff_count_le_one.mp t.nodup k
  rwa [List.count, List.countP_map] at h

theorem mem_of_find? {t : Table ρ} {k : κ} {r : ρ} (h : t.find? k = some r) : r ∈ t :=
  List.mem_of_find?_eq_some h

theorem find?_of_mem {t : Table ρ} {r : ρ} (h : r ∈ t) : t.find? (key r) = some r := by
  cases hf : t.find? (key r) with
  | none => simpa using List.find?_eq_none.mp hf r h
  | some r' => rw [eq_of_key_eq (mem_of_find? hf) h (key_of_find? hf)]

theorem mem_iff {t : Table ρ} {r : ρ} : r ∈ t ↔ t.find? (key r) = some r :=
  ⟨find?_of_mem, mem_of_find?⟩

theorem find?_eq_some {t : Table ρ} {k : κ} {r : ρ} :
    t.find? k = some r ↔ r ∈ t ∧ key r = k :=
  ⟨fun h => ⟨mem_of_find? h, key_of_find? h⟩, fun ⟨h, e⟩ => e ▸ find?_of_mem h⟩

theorem find?_eq_none {t : Table ρ} {k : κ} : t.find? k = none ↔ ∀ r ∈ t, key r ≠ k := by
  simp [find?, mem_def]

theorem mem_insert? {t t' : Table ρ} {r r' : ρ} (h : t.insert? r = some t') :
    r' ∈ t' ↔ r' ∈ t ∨ r' = r := by
  unfold insert? at h
  split at h
  · cases h
  · cases h
    simp [mem_def]

theorem insert?_isSome {t : Table ρ} {r : ρ} :
    (t.insert? r).isSome ↔ t.find? (key r) = none := by
  unfold insert?
  split <;> rename_i h
  · obtain ⟨r', hr', e⟩ := List.mem_map.mp h
    simp [← e, find?_of_mem (mem_def.mpr hr')]
  · simp only [List.mem_map, not_exists, not_and] at h
    simpa [find?_eq_none, mem_def] using h

theorem rows_insert? {t t' : Table ρ} {r : ρ} (h : t.insert? r = some t') :
    t'.rows = t.rows ++ [r] := by
  unfold insert? at h
  split at h
  · cases h
  · cases h
    rfl

theorem insert?_eq_none {t : Table ρ} {r : ρ} : t.insert? r = none ↔ t.find? (key r) ≠ none := by
  rw [← Option.not_isSome_iff_eq_none, insert?_isSome]

@[simp] theorem mem_put {t : Table ρ} {r r' : ρ} :
    r' ∈ t.put r ↔ r' = r ∨ r' ∈ t ∧ key r' ≠ key r := by
  unfold put
  split <;> rename_i h
  · rw [mem_modify]
    constructor
    · rintro ⟨x, hx, rfl⟩
      by_cases e : key x = key r <;> simp [e, hx]
    · rintro (rfl | ⟨hr, e⟩)
      · obtain ⟨x, hx, e⟩ := List.mem_map.mp h
        exact ⟨x, hx, by simp [e]⟩
      · exact ⟨r', hr, by simp [e]⟩
  · have hne : ∀ x ∈ t.rows, key x ≠ key r := fun x hx e => h (List.mem_map.mpr ⟨x, hx, e⟩)
    simp only [mem_def, List.mem_append, List.mem_singleton]
    constructor
    · rintro (hr | rfl)
      · exact .inr ⟨hr, hne r' hr⟩
      · exact .inl rfl
    · rintro (rfl | ⟨hr, -⟩)
      · exact .inr rfl
      · exact .inl hr

@[simp] theorem find?_modify (t : Table ρ) (f : ρ → ρ) (hf : ∀ r, key (f r) = key r) (k : κ) :
    (t.modify f hf).find? k = (t.find? k).map f := by
  have hkeys : ((fun r => decide (key r = k)) ∘ f) = fun r => decide (key r = k) :=
    funext fun r => by rw [Function.comp_apply, hf]
  rw [find?, modify, List.find?_map, hkeys]
  rfl

theorem find?_insert? {t t' : Table ρ} {r : ρ} (h : t.insert? r = some t') (k : κ) :
    t'.find? k = if key r = k then some r else t.find? k := by
  split <;> rename_i e
  · exact find?_eq_some.mpr ⟨(mem_insert? h).mpr (.inr rfl), e⟩
  · cases hk : t.find? k with
    | some r' =>
      obtain ⟨hr', hkey⟩ := find?_eq_some.mp hk
      exact find?_eq_some.mpr ⟨(mem_insert? h).mpr (.inl hr'), hkey⟩
    | none =>
      rw [find?_eq_none] at hk ⊢
      intro r' hr'
      obtain hr' | rfl := (mem_insert? h).mp hr'
      · exact hk r' hr'
      · exact e

@[simp] theorem find?_delete (t : Table ρ) (p : ρ → Bool) (k : κ) :
    (t.delete p).find? k = (t.find? k).filter fun r => !p r := by
  cases hk : t.find? k with
  | none =>
    rw [find?_eq_none] at hk
    exact find?_eq_none.mpr fun r hr => hk r (mem_delete.mp hr).1
  | some r =>
    obtain ⟨hr, e⟩ := find?_eq_some.mp hk
    cases hp : p r with
    | false =>
      rw [Option.filter_some, hp]
      exact find?_eq_some.mpr ⟨mem_delete.mpr ⟨hr, hp⟩, e⟩
    | true =>
      simp only [Option.filter_some, hp, Bool.not_true, Bool.false_eq_true, if_false]
      refine find?_eq_none.mpr fun r' hr' e' => ?_
      obtain ⟨hr', hp'⟩ := mem_delete.mp hr'
      rw [eq_of_key_eq hr' hr (e'.trans e.symm), hp] at hp'
      cases hp'

@[simp] theorem find?_put (t : Table ρ) (r : ρ) (k : κ) :
    (t.put r).find? k = if key r = k then some r else t.find? k := by
  split <;> rename_i e
  · exact find?_eq_some.mpr ⟨mem_put.mpr (.inl rfl), e⟩
  · cases hk : t.find? k with
    | some r' =>
      obtain ⟨hr', rfl⟩ := find?_eq_some.mp hk
      exact find?_of_mem (mem_put.mpr (.inr ⟨hr', fun h => e h.symm⟩))
    | none =>
      rw [find?_eq_none] at hk ⊢
      intro r' hr'
      obtain rfl | ⟨hr', -⟩ := mem_put.mp hr'
      · exact e
      · exact hk r' hr'

theorem find?_put_self (t : Table ρ) (r : ρ) : (t.put r).find? (key r) = some r := by
  rw [find?_put, if_pos rfl]

theorem find?_put_ne (t : Table ρ) {r : ρ} {k : κ} (h : key r ≠ k) :
    (t.put r).find? k = t.find? k := by
  rw [find?_put, if_neg h]

theorem rows_put {t : Table ρ} {r : ρ} (h : t.find? (key r) = none) :
    (t.put r).rows = t.rows ++ [r] := by
  have hnew : key r ∉ t.rows.map key := fun hr => by
    obtain ⟨r', hr', e⟩ := List.mem_map.mp hr
    exact find?_eq_none.mp h r' hr' e
  rw [put, dif_neg hnew]

theorem keys_put (t : Table ρ) (r : ρ) :
    (t.put r).rows.map key =
      if key r ∈ t.rows.map key then t.rows.map key else t.rows.map key ++ [key r] := by
  unfold put
  split
  case isTrue h =>
    refine List.map_map.trans (List.map_congr_left fun r' _ => ?_)
    by_cases e : key r' = key r <;> simp [e]
  case isFalse h => simp

@[simp] theorem put_empty (r : ρ) : (empty : Table ρ).put r = single r := rfl

theorem put_single {r r' : ρ} (h : key r = key r') : (single r).put r' = single r' := by
  refine ext ?_
  simp [put, single, modify, h]

@[simp] theorem find?_single (r : ρ) : (single r).find? (key r) = some r :=
  find?_of_mem (List.mem_singleton.mpr rfl)

/-- `INSERT … ON CONFLICT DO NOTHING`: the first row of a key stays. -/
def addNew (t : Table ρ) (r : ρ) : Table ρ := if (t.find? (key r)).isSome then t else t.put r

theorem find?_addNew (t : Table ρ) (r : ρ) (k : κ) :
    (t.addNew r).find? k = (t.find? k).or (if key r = k then some r else none) := by
  unfold addNew
  by_cases h : (t.find? (key r)).isSome <;> by_cases e : key r = k
  · rw [if_pos h, ← e, Option.or_of_isSome h]
  · rw [if_pos h, if_neg e, Option.or_none]
  · rw [if_neg h, find?_put, if_pos e, if_pos e, ← e, Option.not_isSome_iff_eq_none.mp h,
      Option.none_or]
  · rw [if_neg h, find?_put, if_neg e, if_neg e, Option.or_none]

theorem map_find?_addNew {β : Type*} (f : ρ → β) (t : Table ρ) (r : ρ) (k : κ) :
    ((t.addNew r).find? k).map f
      = ((t.find? k).map f).or (if key r = k then some (f r) else none) := by
  rw [find?_addNew, Option.map_or]
  split <;> rfl

theorem isSome_find?_addNew (t : Table ρ) (r : ρ) : ((t.addNew r).find? (key r)).isSome := by
  rw [find?_addNew, if_pos rfl, Option.isSome_or, Option.isSome_some, Bool.or_true]

theorem mem_addNew_of_mem {t : Table ρ} {r r' : ρ} (h : r ∈ t) : r ∈ t.addNew r' := by
  refine mem_iff.mpr ?_
  rw [find?_addNew, mem_iff.mp h, Option.some_or]

theorem find?_foldl_addNew (t : Table ρ) (rs : List ρ) (k : κ) :
    (rs.foldl addNew t).find? k = (t.find? k).or (rs.find? fun r => key r = k) := by
  induction rs generalizing t with
  | nil => simp
  | cons r rs ih =>
    rw [List.foldl_cons, ih, find?_addNew, Option.or_assoc, List.find?_cons]
    by_cases e : key r = k <;> simp [e]

theorem perm_delete {t : Table ρ} {r : ρ} (h : r ∈ t) :
    t.rows.Perm (r :: (t.delete fun r' => key r' = key r).rows) := by
  refine (List.perm_ext_iff_of_nodup t.nodup_rows ?_).mpr fun r' => ?_
  · exact List.nodup_cons.mpr ⟨fun hr => by simpa using (mem_delete.mp hr).2, nodup_rows _⟩
  · rw [List.mem_cons]
    constructor
    · intro hr'
      by_cases e : key r' = key r
      · exact .inl (eq_of_key_eq hr' h e)
      · exact .inr (mem_delete.mpr ⟨hr', by simpa using e⟩)
    · rintro (rfl | hr')
      · exact h
      · exact (mem_delete.mp hr').1

theorem perm_put (t : Table ρ) (r : ρ) :
    (t.put r).rows.Perm (r :: (t.delete fun r' => key r' = key r).rows) := by
  refine (List.perm_ext_iff_of_nodup (nodup_rows _) ?_).mpr fun r' => ?_
  · exact List.nodup_cons.mpr ⟨fun hr => by simpa using (mem_delete.mp hr).2, nodup_rows _⟩
  · rw [List.mem_cons, ← mem_def, mem_put, ← mem_def, mem_delete, decide_eq_false_iff_not]

theorem length_put (t : Table ρ) (r : ρ) :
    (t.put r).rows.length = t.rows.length + if (t.find? (key r)).isNone then 1 else 0 := by
  rw [(perm_put t r).length_eq, List.length_cons]
  cases hfind : t.find? (key r) with
  | none =>
    rw [delete_eq_self fun r' hr' => by simpa using find?_eq_none.mp hfind r' hr']
    rfl
  | some r' =>
    obtain ⟨hr', hkey⟩ := find?_eq_some.mp hfind
    rw [(perm_delete hr').length_eq, hkey]
    rfl

theorem countP_delete {t : Table ρ} {r : ρ} (h : r ∈ t) (p : ρ → Bool) :
    (t.delete fun r' => key r' = key r).rows.countP p + (if p r then 1 else 0) = t.rows.countP p := by
  rw [(perm_delete h).countP_eq, List.countP_cons]

theorem countP_frame {t t' : Table ρ} {k : κ} (h : ∀ k', k' ≠ k → t'.find? k' = t.find? k')
    (p : ρ → Bool) :
    t'.rows.countP p + (t.find? k).toList.countP p
      = t.rows.countP p + (t'.find? k).toList.countP p := by
  have hsplit : ∀ t : Table ρ, t.rows.countP p
      = (t.delete fun r => key r = k).rows.countP p + (t.find? k).toList.countP p := by
    intro t
    cases hk : t.find? k with
    | none =>
      rw [delete_eq_self fun r hr => by simpa using find?_eq_none.mp hk r hr]
      simp
    | some r =>
      obtain ⟨hr, rfl⟩ := find?_eq_some.mp hk
      rw [← countP_delete hr p, Option.toList_some, List.countP_singleton]
  have hrest : (t'.delete fun r => key r = k).rows.Perm (t.delete fun r => key r = k).rows := by
    refine (List.perm_ext_iff_of_nodup (nodup_rows _) (nodup_rows _)).mpr fun r => ?_
    rw [← mem_def, ← mem_def, mem_delete, mem_delete, mem_iff, mem_iff]
    refine and_congr_left fun hr => ?_
    rw [h (key r) (by simpa using hr)]
  rw [hsplit t', hsplit t, hrest.countP_eq]
  omega

theorem countP_put {t : Table ρ} {r r' : ρ} (h : r ∈ t) (hkey : key r' = key r) (p : ρ → Bool) :
    (t.put r').rows.countP p + (if p r then 1 else 0) = t.rows.countP p + if p r' then 1 else 0 := by
  rw [(perm_put t r').countP_eq, List.countP_cons, hkey, ← countP_delete h p]
  omega

end Table

end Patom.Foundation
