import Patom.Memory.Composer

open Patom.Foundation

namespace Patom.Memory

section Layers

def layerBytes (rows : List MemoryRow) : Nat :=
  (rows.map fun row => row.content.asStr.utf8ByteSize + RENDER_LINE_OVERHEAD_BYTES).sum

def freshRows (rows contextual : List MemoryRow) : List MemoryRow :=
  contextual.filter (·.id ∉ (selectStableLayer rows).map (·.id))

def numberedRows (rows contextual : List MemoryRow) (reserved : List MemoryId) : List MemoryRow :=
  (selectStableLayer rows ++ trimToBudget (freshRows rows contextual)
    CONTEXTUAL_LAYER_MAX_BYTES).filter (·.id ∉ reserved)

theorem composeMemorySection_eq (rows contextual : List MemoryRow) (reserved : List MemoryId)
    (subjects : SubjectNames) : composeMemorySection rows contextual reserved subjects
      = render (selectStableLayer rows) (trimToBudget (freshRows rows contextual)
        CONTEXTUAL_LAYER_MAX_BYTES) reserved subjects := rfl

theorem layerBytes_trimFrom (budget total : Nat) (rows : List MemoryRow) :
    total + layerBytes (trimFrom budget total rows) ≤ max budget total := by
  induction rows generalizing total with
  | nil => simp [trimFrom, layerBytes]
  | cons row rows ih =>
    rw [trimFrom]
    split
    · simp [layerBytes]
    · have hrest := ih (total + (row.content.asStr.utf8ByteSize + RENDER_LINE_OVERHEAD_BYTES))
      simp only [layerBytes, List.map_cons, List.sum_cons] at hrest ⊢
      omega

theorem layerBytes_trimToBudget (rows : List MemoryRow) (budget : Nat) :
    layerBytes (trimToBudget rows budget) ≤ budget := by
  simpa [trimToBudget] using layerBytes_trimFrom budget 0 rows

theorem lt_length_trimFrom {budget total : Nat} {rows : List MemoryRow} {j : Nat}
    (hj : j < rows.length) :
    j < (trimFrom budget total rows).length ↔ total + layerBytes (rows.take (j + 1)) ≤ budget := by
  induction rows generalizing total j with
  | nil => exact absurd hj (Nat.not_lt_zero j)
  | cons row rows ih =>
    rw [trimFrom]
    split
    · simp only [List.length_nil, List.take_succ_cons, layerBytes, List.map_cons, List.sum_cons]
      omega
    · cases j with
      | zero => simp [layerBytes]; omega
      | succ j =>
        rw [List.length_cons] at hj ⊢
        have hrest := @ih (total + (row.content.asStr.utf8ByteSize +
          RENDER_LINE_OVERHEAD_BYTES)) j (Nat.lt_of_succ_lt_succ hj)
        rw [Nat.succ_lt_succ_iff, hrest]
        simp only [layerBytes, List.take_succ_cons, List.map_cons, List.sum_cons]
        omega

theorem getElem?_trimToBudget {budget : Nat} {rows : List MemoryRow} {j : Nat} {row : MemoryRow} :
    (trimToBudget rows budget)[j]? = some row ↔
      rows[j]? = some row ∧ layerBytes (rows.take (j + 1)) ≤ budget := by
  obtain ⟨rest, hrest⟩ := trimFrom_isPrefix budget 0 rows
  constructor
  · intro h
    have hlt : j < (trimFrom budget 0 rows).length := (List.getElem?_eq_some_iff.mp h).1
    have hget : rows[j]? = some row := by
      rw [← hrest, List.getElem?_append_left hlt]
      exact h
    have hj : j < rows.length := (List.getElem?_eq_some_iff.mp hget).1
    exact ⟨hget, by simpa using (lt_length_trimFrom hj).mp hlt⟩
  · rintro ⟨hget, hle⟩
    have hj : j < rows.length := (List.getElem?_eq_some_iff.mp hget).1
    have hlt : j < (trimFrom budget 0 rows).length :=
      (lt_length_trimFrom hj).mpr (by simpa using hle)
    rw [← hrest, List.getElem?_append_left hlt] at hget
    exact hget

end Layers

section Text

inductive Piece
  | frame (text : String)
  | entry (handle : MemoryHandle) (row : MemoryRow)

def Piece.text (subjects : SubjectNames) : Piece → String
  | .frame text => text
  | .entry handle row => renderEntry subjects handle row

def Piece.entry? : Piece → Option (MemoryHandle × MemoryRow)
  | .frame _ => none
  | .entry handle row => some (handle, row)

def kindHeader (kind : MemoryKind) : String := "\n### " ++ kind.displayLabel ++ "\n"

def FRAMES : List String :=
  MEMORY_TAG_OPEN :: MEMORY_INTRO :: MEMORY_TAG_CLOSE :: KIND_ORDER.map kindHeader

/-- The entries that stand in a text, in its order, with nothing else but its frame. -/
def Prints (subjects : SubjectNames) (printed : List (MemoryHandle × MemoryRow)) (text : String) :
    Prop :=
  ∃ pieces : List Piece, text = String.join (pieces.map (Piece.text subjects)) ∧
    (∀ frame, .frame frame ∈ pieces → frame ∈ FRAMES) ∧ pieces.filterMap Piece.entry? = printed

def kindPieces (entries : List (MemoryHandle × MemoryRow)) (kind : MemoryKind) : List Piece :=
  match entries.filter (·.2.kind = kind) with
  | [] => []
  | entries => .frame (kindHeader kind) :: entries.map fun (handle, row) => .entry handle row

def textPieces (entries : List (MemoryHandle × MemoryRow)) : List Piece :=
  .frame MEMORY_TAG_OPEN :: .frame MEMORY_INTRO ::
    KIND_ORDER.flatMap (kindPieces entries) ++ [.frame MEMORY_TAG_CLOSE]

def byKind (entries : List (MemoryHandle × MemoryRow)) : List (MemoryHandle × MemoryRow) :=
  KIND_ORDER.flatMap fun kind => entries.filter (·.2.kind = kind)

variable (entries : List (MemoryHandle × MemoryRow)) (subjects : SubjectNames)

theorem entries_pieces (entries : List (MemoryHandle × MemoryRow)) :
    (entries.map fun (handle, row) => Piece.entry handle row).filterMap Piece.entry? = entries := by
  rw [List.filterMap_map]
  exact List.filterMap_some

theorem filterMap_kindPieces (kind : MemoryKind) :
    (kindPieces entries kind).filterMap Piece.entry? = entries.filter (·.2.kind = kind) := by
  unfold kindPieces
  split
  · next h => rw [h, List.filterMap_nil]
  · next h => exact entries_pieces _

theorem join_kindPieces (kind : MemoryKind) :
    String.join ((kindPieces entries kind).map (Piece.text subjects)) =
      match entries.filter (·.2.kind = kind) with
      | [] => ""
      | entries => "\n### " ++ kind.displayLabel ++ "\n" ++
          String.join (entries.map fun (handle, row) => renderEntry subjects handle row) := by
  unfold kindPieces
  split
  · rfl
  · rw [List.map_cons, String.join_cons, List.map_map]
    rfl

theorem join_flatMap {α : Type} (xs : List α) (f : α → List String) :
    String.join (xs.flatMap f) = String.join (xs.map fun x => String.join (f x)) := by
  induction xs with
  | nil => rfl
  | cons x xs ih => rw [List.flatMap_cons, String.join_append, ih, List.map_cons, String.join_cons]

theorem renderText_prints : Prints subjects (byKind entries) (renderText entries subjects) := by
  refine ⟨textPieces entries, ?_, fun frame hframe => ?_, ?_⟩
  · have hkinds : String.join ((KIND_ORDER.flatMap (kindPieces entries)).map (Piece.text subjects))
        = String.join (KIND_ORDER.map fun kind =>
          match entries.filter (·.2.kind = kind) with
          | [] => ""
          | entries => "\n### " ++ kind.displayLabel ++ "\n" ++
              String.join (entries.map fun (handle, row) => renderEntry subjects handle row)) := by
      rw [List.map_flatMap, join_flatMap]
      simp only [join_kindPieces]
    have hclose : String.join ([Piece.frame MEMORY_TAG_CLOSE].map (Piece.text subjects))
        = MEMORY_TAG_CLOSE := by
      rw [List.map_singleton, String.join_cons, String.join_nil, String.append_empty, Piece.text]
    rw [renderText, textPieces, List.map_append, String.join_append, List.map_cons, List.map_cons,
      String.join_cons, String.join_cons, hkinds, hclose]
    exact congrArg (· ++ MEMORY_TAG_CLOSE) (String.append_assoc ..)
  · have hkind : ∀ kind, .frame frame ∈ kindPieces entries kind → frame = kindHeader kind := by
      intro kind h
      unfold kindPieces at h
      split at h
      · cases h
      · simpa using h
    simp only [textPieces, List.cons_append, List.mem_cons, List.mem_append, List.mem_flatMap,
      Piece.frame.injEq, List.not_mem_nil, or_false] at hframe
    rcases hframe with rfl | rfl | ⟨kind, hmem, h⟩ | rfl
    · exact List.mem_cons_self
    · exact List.mem_cons_of_mem _ List.mem_cons_self
    · rw [hkind kind h]
      exact List.mem_cons_of_mem _ (List.mem_cons_of_mem _ (List.mem_cons_of_mem _
        (List.mem_map_of_mem hmem)))
    · exact List.mem_cons_of_mem _ (List.mem_cons_of_mem _ List.mem_cons_self)
  · have hkinds : (KIND_ORDER.flatMap (kindPieces entries)).filterMap Piece.entry? = byKind entries := by
      rw [List.filterMap_flatMap]
      simp only [filterMap_kindPieces]
      rfl
    simp only [textPieces, List.cons_append, List.filterMap_cons, List.filterMap_append,
      List.filterMap_nil, Piece.entry?, hkinds, List.append_nil]

theorem perm_flatMap_filter {α κ : Type} [DecidableEq κ] (f : α → κ) {ks : List κ}
    (hks : ks.Nodup) {xs : List α} (h : ∀ x ∈ xs, f x ∈ ks) :
    (ks.flatMap fun k => xs.filter (f · = k)).Perm xs := by
  induction xs with
  | nil => simp
  | cons x xs ih =>
    have hrest := ih fun y hy => h y (List.mem_cons_of_mem x hy)
    obtain ⟨before, after, hsplit⟩ := List.append_of_mem (h x List.mem_cons_self)
    have hother : ∀ ks' : List κ, f x ∉ ks' → (ks'.flatMap fun k => (x :: xs).filter (f · = k))
        = ks'.flatMap fun k => xs.filter (f · = k) := by
      intro ks' hx
      refine List.flatMap_congr fun k hk => ?_
      rw [List.filter_cons_of_neg]
      simpa using fun e : f x = k => hx (e ▸ hk)
    rw [hsplit] at hks hrest ⊢
    have hnodup := List.nodup_middle.mp hks
    rw [List.nodup_cons, List.mem_append, not_or] at hnodup
    rw [List.flatMap_append, List.flatMap_cons, hother before hnodup.1.1, hother after hnodup.1.2,
      List.filter_cons_of_pos (by simp), List.cons_append]
    rw [List.flatMap_append, List.flatMap_cons] at hrest
    exact List.perm_middle.trans (hrest.cons x)

theorem byKind_perm : (byKind entries).Perm entries := by
  have hks : KIND_ORDER.Nodup := by decide
  have hmem : ∀ entry ∈ entries, entry.2.kind ∈ KIND_ORDER := fun entry _ => by
    cases entry.2.kind <;> decide
  exact perm_flatMap_filter (fun entry : MemoryHandle × MemoryRow => entry.2.kind) hks hmem

end Text

section Mint

variable {α : Type} {invariant : String} {n : Nat} {as : List α} {handles : List (MemoryHandle × α)}

theorem mint_spec (h : mint invariant n as = .ok handles) : handles.map Prod.snd = as ∧
    handles.map (fun entry => entry.1.get) = List.range' n as.length := by
  induction as generalizing n handles with
  | nil =>
    cases h
    exact ⟨rfl, rfl⟩
  | cons a as ih =>
    obtain ⟨first, hfirst, h⟩ := bind_eq_ok.mp h
    obtain ⟨rest, hrest, h⟩ := bind_eq_ok.mp h
    cases h
    obtain ⟨hrows, hgets⟩ := ih hrest
    rw [List.map_cons, List.map_cons, hrows, hgets, expectHandle_ok hfirst, List.length_cons,
      List.range'_succ]
    exact ⟨rfl, rfl⟩

theorem mint_le (h : mint invariant n as = .ok handles) (hne : as ≠ []) :
    n + as.length ≤ MemoryHandle.MAX + 1 := by
  obtain ⟨hrows, hgets⟩ := mint_spec h
  have hpos := List.length_pos_iff.mpr hne
  have hmem : n + (as.length - 1) ∈ handles.map fun entry => entry.1.get := by
    rw [hgets, List.mem_range'_1]
    omega
  obtain ⟨entry, -, hentry⟩ := List.mem_map.mp hmem
  have := entry.1.bounded
  omega

theorem mint_nodup (h : mint invariant n as = .ok handles) : (handles.map Prod.fst).Nodup := by
  have hnodup : ((handles.map Prod.fst).map MemoryHandle.get).Nodup := by
    rw [List.map_map]
    exact (mint_spec h).2 ▸ List.nodup_range'
  exact hnodup.of_map _

end Mint

section HandleMap

/-- A section whose handles name one row each: the reserved ids first, and behind them the rows
that are printed, each beside its handle. -/
structure NamesRows (rows : Table MemoryRow) (contextual : List MemoryRow)
    (reserved : List MemoryId) (subjects : SubjectNames) (s : MemorySection)
    (printed : List (MemoryHandle × MemoryRow)) : Prop where
  text : Prints subjects printed s.text
  injective : ∀ a b id, s.resolveHandle a = some id → s.resolveHandle b = some id → a = b
  bound : ∀ i id, reserved[i]? = some id →
    ∃ handle : MemoryHandle, handle.get = i + 1 ∧ s.resolveHandle handle = some id
  remaining : ∀ handle : MemoryHandle, reserved.length < handle.get →
    ((s.resolveHandle handle).isSome ↔ handle ∈ printed.map Prod.fst)
  resolves : ∀ handle row, (handle, row) ∈ printed →
    reserved.length < handle.get ∧ s.resolveHandle handle = some row.id
  once : (printed.map Prod.fst).Nodup
  ids : (printed.map fun entry => entry.2.id).Nodup
  unreserved : ∀ entry ∈ printed, entry.2.id ∉ reserved
  layers : ∃ stable relevant : List MemoryRow,
    (printed.map Prod.snd).Perm ((stable ++ relevant).filter (·.id ∉ reserved)) ∧
      stable ⊆ rows.rows ∧ relevant ⊆ contextual ∧
      layerBytes stable ≤ STABLE_LAYER_MAX_BYTES ∧
      layerBytes relevant ≤ CONTEXTUAL_LAYER_MAX_BYTES

/-- No two of the contextual rows that are new and fit share an id, unless it is reserved. -/
def FreshApart (rows : Table MemoryRow) (contextual : List MemoryRow) (reserved : List MemoryId) : Prop :=
  ∀ (i j : Nat) (row row' : MemoryRow), i < j →
    (freshRows rows.rows contextual)[i]? = some row →
    (freshRows rows.rows contextual)[j]? = some row' →
    layerBytes ((freshRows rows.rows contextual).take (j + 1)) ≤ CONTEXTUAL_LAYER_MAX_BYTES →
    row.id = row'.id → row.id ∈ reserved

/-- Nothing that gets a handle is listed twice, and the handles do not run out. -/
structure Distinguishable (rows : Table MemoryRow) (contextual : List MemoryRow)
    (reserved : List MemoryId) : Prop where
  once : reserved.Nodup
  apart : FreshApart rows contextual reserved
  room : reserved.length + (numberedRows rows.rows contextual reserved).length ≤ MemoryHandle.MAX

variable {rows : Table MemoryRow} {contextual : List MemoryRow} {reserved : List MemoryId}
  {subjects : SubjectNames} {s : MemorySection}

theorem trimToBudget_sublist (rows : List MemoryRow) (budget : Nat) :
    (trimToBudget rows budget).Sublist rows := (trimFrom_isPrefix budget 0 rows).sublist

theorem selectStableLayer_sub (rows : List MemoryRow) : selectStableLayer rows ⊆ rows := by
  intro row hrow
  have hsort := (trimToBudget_sublist _ _).subset hrow
  exact List.mem_of_mem_filter ((List.mem_insertionSort _).mp hsort)

theorem selectStableLayer_nodup (rows : Table MemoryRow) :
    ((selectStableLayer rows.rows).map (·.id)).Nodup := by
  have hstable : ((rows.rows.filter (·.stable)).map (·.id)).Nodup :=
    rows.nodup.sublist (List.filter_sublist.map _)
  have hsort := (List.perm_insertionSort (fun r r' : MemoryRow => r.standing ≤ r'.standing)
    (rows.rows.filter (·.stable))).map (·.id)
  exact (hsort.nodup_iff.mpr hstable).sublist ((trimToBudget_sublist _ _).map _)

theorem layerBytes_take_le (rows : List MemoryRow) {i j : Nat} (h : i ≤ j) :
    layerBytes (rows.take i) ≤ layerBytes (rows.take j) :=
  ((List.take_prefix_take_left h).sublist.map _).sum_le_sum fun _ _ => Nat.zero_le _

theorem freshApart_iff : FreshApart rows contextual reserved ↔
    (trimToBudget (freshRows rows.rows contextual) CONTEXTUAL_LAYER_MAX_BYTES).Pairwise
      fun row row' => row.id = row'.id → row.id ∈ reserved := by
  rw [List.pairwise_iff_getElem]
  constructor
  · intro h i j hi hj hij
    obtain ⟨hrow, -⟩ := getElem?_trimToBudget.mp (List.getElem?_eq_getElem hi)
    obtain ⟨hrow', hle⟩ := getElem?_trimToBudget.mp (List.getElem?_eq_getElem hj)
    exact h i j _ _ hij hrow hrow' hle
  · intro h i j row row' hij hrow hrow' hle
    obtain ⟨hj, rfl⟩ := List.getElem?_eq_some_iff.mp (getElem?_trimToBudget.mpr ⟨hrow', hle⟩)
    obtain ⟨hi, rfl⟩ := List.getElem?_eq_some_iff.mp (getElem?_trimToBudget.mpr
      ⟨hrow, (layerBytes_take_le _ (by omega)).trans hle⟩)
    exact h i j hi hj hij

theorem numberedRows_nodup :
    ((numberedRows rows.rows contextual reserved).map (·.id)).Nodup ↔
      FreshApart rows contextual reserved := by
  have hstable := (selectStableLayer_nodup rows).sublist
    ((List.filter_sublist (p := fun row : MemoryRow => decide (row.id ∉ reserved))).map (·.id))
  have hdisjoint : List.Disjoint
      (((selectStableLayer rows.rows).filter (·.id ∉ reserved)).map (·.id))
      (((trimToBudget (freshRows rows.rows contextual)
        CONTEXTUAL_LAYER_MAX_BYTES).filter (·.id ∉ reserved)).map (·.id)) := by
    intro id hid hid'
    obtain ⟨row, hrow, rfl⟩ := List.mem_map.mp hid'
    have hfresh := (trimToBudget_sublist _ _).subset (List.mem_of_mem_filter hrow)
    have hnew : row.id ∉ (selectStableLayer rows.rows).map (·.id) := by
      simpa using (List.mem_filter.mp hfresh).2
    exact hnew ((List.filter_sublist.map _).subset hid)
  rw [numberedRows, List.filter_append, List.map_append, List.nodup_append', freshApart_iff]
  constructor
  · rintro ⟨-, h, -⟩
    rw [List.Nodup, List.pairwise_map, List.pairwise_filter] at h
    refine h.imp fun {row row'} hne he => ?_
    by_contra hres
    exact hne (by simpa using hres) (by simpa using he ▸ hres) he
  · intro h
    refine ⟨hstable, ?_, hdisjoint⟩
    rw [List.Nodup, List.pairwise_map, List.pairwise_filter]
    refine h.imp fun {row row'} hres hrow _ he => ?_
    have hrow' : row.id ∉ reserved := by simpa using hrow
    exact hrow' (hres he)

theorem compose_ok (h : composeMemorySection rows.rows contextual reserved subjects = .ok s) :
    ∃ (handles : List (MemoryHandle × MemoryId)) (entries : List (MemoryHandle × MemoryRow)),
      mint "invariant: reserved handle count under cap" 1 reserved = .ok handles ∧
      mint "invariant: handle count under cap (per-agent quota enforces it)" (reserved.length + 1)
        (numberedRows rows.rows contextual reserved) = .ok entries ∧
      s.text = if entries.isEmpty then "" else renderText entries subjects := by
  rw [composeMemorySection_eq] at h
  obtain ⟨bound, hbound, h⟩ := bind_eq_ok.mp h
  obtain ⟨handles, hhandles, hbound⟩ := bind_eq_ok.mp hbound
  cases hbound
  obtain ⟨entries, hentries, h⟩ := bind_eq_ok.mp h
  cases h
  exact ⟨handles, entries, hhandles, hentries, rfl⟩

theorem compose_room (h : composeMemorySection rows.rows contextual reserved subjects = .ok s) :
    reserved.length + (numberedRows rows.rows contextual reserved).length ≤ MemoryHandle.MAX := by
  obtain ⟨handles, entries, hhandles, hentries, -⟩ := compose_ok h
  by_cases hnone : numberedRows rows.rows contextual reserved = []
  · rw [hnone]
    by_cases hres : reserved = []
    · rw [hres]
      exact Nat.zero_le _
    · have := mint_le hhandles hres
      simp only [List.length_nil]
      omega
  · have := mint_le hentries hnone
    omega

theorem compose_isOk
    (h : reserved.length + (numberedRows rows.rows contextual reserved).length ≤ MemoryHandle.MAX) :
    ∃ s, composeMemorySection rows.rows contextual reserved subjects = .ok s := by
  obtain ⟨handles, hhandles⟩ : ∃ handles,
      mint "invariant: reserved handle count under cap" 1 reserved = .ok handles :=
    mint_isOk one_ne_zero (by omega)
  obtain ⟨entries, hentries⟩ : ∃ entries,
      mint "invariant: handle count under cap (per-agent quota enforces it)" (reserved.length + 1)
        (numberedRows rows.rows contextual reserved) = .ok entries :=
    mint_isOk (Nat.succ_ne_zero _) (by omega)
  rw [composeMemorySection_eq]
  exact ⟨_, bind_eq_ok.mpr ⟨_, bind_eq_ok.mpr ⟨handles, hhandles, rfl⟩,
    bind_eq_ok.mpr ⟨entries, hentries, rfl⟩⟩⟩

def bindings (rows : Table MemoryRow) (contextual : List MemoryRow) (reserved : List MemoryId) :
    List MemoryId :=
  reserved ++ (numberedRows rows.rows contextual reserved).map (·.id)

theorem length_bindings : (bindings rows contextual reserved).length
    = reserved.length + (numberedRows rows.rows contextual reserved).length := by
  rw [bindings, List.length_append, List.length_map]

theorem bindings_nodup : (bindings rows contextual reserved).Nodup ↔
    reserved.Nodup ∧ FreshApart rows contextual reserved := by
  rw [bindings, List.nodup_append', numberedRows_nodup]
  refine ⟨fun h => ⟨h.1, h.2.1⟩, fun h => ⟨h.1, h.2, fun id hid hid' => ?_⟩⟩
  obtain ⟨row, hrow, rfl⟩ := List.mem_map.mp hid'
  have hrow' : row.id ∉ reserved := by simpa using (List.mem_filter.mp hrow).2
  exact hrow' hid

theorem resolveHandle_compose
    (h : composeMemorySection rows.rows contextual reserved subjects = .ok s)
    (handle : MemoryHandle) :
    s.resolveHandle handle = (bindings rows contextual reserved)[handle.get - 1]? := by
  rw [composeMemorySection_eq] at h
  rw [resolveHandle_render h handle, ← numberedRows, bindings]
  have hpos := handle.positive
  split
  · next hle => rw [List.getElem?_append_left (by omega)]
  · next hgt =>
    rw [List.getElem?_append_right (by omega), List.getElem?_map]
    congr 2
    omega

theorem exists_handle (h : composeMemorySection rows.rows contextual reserved subjects = .ok s)
    {k : Nat} {id : MemoryId} (hk : (bindings rows contextual reserved)[k]? = some id) :
    ∃ handle : MemoryHandle, handle.get = k + 1 ∧ s.resolveHandle handle = some id := by
  have hroom := compose_room h
  have hlt := (List.getElem?_eq_some_iff.mp hk).1
  rw [length_bindings] at hlt
  refine ⟨⟨k + 1, Nat.succ_ne_zero k, by omega⟩, rfl, ?_⟩
  rw [resolveHandle_compose h]
  exact hk

theorem bindings_nodup_of_injective
    (h : composeMemorySection rows.rows contextual reserved subjects = .ok s)
    (hinj : ∀ a b id, s.resolveHandle a = some id → s.resolveHandle b = some id → a = b) :
    (bindings rows contextual reserved).Nodup := by
  refine List.pairwise_iff_getElem.mpr fun i j hi hj hij he => ?_
  obtain ⟨a, ha, hra⟩ := exists_handle h (List.getElem?_eq_getElem hi)
  obtain ⟨b, hb, hrb⟩ := exists_handle h (List.getElem?_eq_getElem hj)
  obtain rfl := hinj a b _ hra (he ▸ hrb)
  omega

theorem NamesRows.distinguishable {printed : List (MemoryHandle × MemoryRow)}
    (h : composeMemorySection rows.rows contextual reserved subjects = .ok s)
    (hnames : NamesRows rows contextual reserved subjects s printed) :
    Distinguishable rows contextual reserved := by
  obtain ⟨honce, hapart⟩ := bindings_nodup.mp (bindings_nodup_of_injective h hnames.injective)
  exact ⟨honce, hapart, compose_room h⟩

theorem entry_place {n : Nat} {numbered : List MemoryRow} {invariant : String}
    {entries : List (MemoryHandle × MemoryRow)} (h : mint invariant n numbered = .ok entries)
    {handle : MemoryHandle} {row : MemoryRow} (hmem : (handle, row) ∈ entries) :
    ∃ k, handle.get = n + k ∧ numbered[k]? = some row := by
  obtain ⟨hrows, hgets⟩ := mint_spec h
  obtain ⟨k, hk, he⟩ := List.getElem_of_mem hmem
  have hentry : entries[k]? = some (handle, row) := by rw [List.getElem?_eq_getElem hk, he]
  have hget : (entries.map fun entry => entry.1.get)[k]? = some handle.get := by
    rw [List.getElem?_map, hentry]
    rfl
  have hrow : (entries.map Prod.snd)[k]? = some row := by
    rw [List.getElem?_map, hentry]
    rfl
  rw [hgets] at hget
  rw [hrows] at hrow
  have hlt : k < numbered.length := (List.getElem?_eq_some_iff.mp hrow).1
  rw [List.getElem?_range' hlt, Nat.one_mul] at hget
  exact ⟨k, (Option.some.inj hget).symm, hrow⟩

theorem mem_handles {n : Nat} {numbered : List MemoryRow} {invariant : String}
    {entries : List (MemoryHandle × MemoryRow)} (h : mint invariant n numbered = .ok entries)
    (handle : MemoryHandle) :
    handle ∈ entries.map Prod.fst ↔ n ≤ handle.get ∧ handle.get < n + numbered.length := by
  have hmem : handle.get ∈ (entries.map fun entry => entry.1.get) ↔
      handle ∈ entries.map Prod.fst := by
    rw [show (entries.map fun entry => entry.1.get) = (entries.map Prod.fst).map MemoryHandle.get from
      (List.map_map ..).symm]
    exact List.mem_map_of_injective fun a b => MemoryHandle.get_inj.mp
  rw [← hmem, (mint_spec h).2, List.mem_range'_1]

theorem Distinguishable.namesRows (hd : Distinguishable rows contextual reserved)
    (subjects : SubjectNames) :
    ∃ s printed, composeMemorySection rows.rows contextual reserved subjects = .ok s ∧
      NamesRows rows contextual reserved subjects s printed := by
  obtain ⟨s, h⟩ : ∃ s, composeMemorySection rows.rows contextual reserved subjects = .ok s :=
    compose_isOk hd.room
  obtain ⟨handles, entries, -, hentries, htext⟩ := compose_ok h
  have hperm := byKind_perm entries
  have hrows := (mint_spec hentries).1
  refine ⟨s, byKind entries, h, ?_⟩
  constructor
  · rw [htext]
    cases entries with
    | nil => exact ⟨[], rfl, fun _ h => (List.not_mem_nil h).elim, rfl⟩
    | cons entry entries => exact renderText_prints _ subjects
  · intro a b id ha hb
    rw [resolveHandle_compose h] at ha hb
    have hnodup := bindings_nodup.mpr ⟨hd.once, hd.apart⟩
    have hlt := (List.getElem?_eq_some_iff.mp ha).1
    have hplace := (List.getElem?_inj hlt hnodup).mp (ha.trans hb.symm)
    have := a.positive
    have := b.positive
    exact MemoryHandle.get_inj.mp (by omega)
  · intro i id hi
    have hlt := (List.getElem?_eq_some_iff.mp hi).1
    exact exists_handle h (by rw [bindings, List.getElem?_append_left hlt, hi])
  · intro handle hgt
    rw [(hperm.map Prod.fst).mem_iff, mem_handles hentries, resolveHandle_compose h,
      Option.isSome_iff_ne_none, Ne, List.getElem?_eq_none_iff, length_bindings]
    omega
  · intro handle row hmem
    obtain ⟨k, hget, hrow⟩ := entry_place hentries (hperm.mem_iff.mp hmem)
    refine ⟨by omega, ?_⟩
    rw [resolveHandle_compose h, bindings, List.getElem?_append_right (by omega), List.getElem?_map,
      show handle.get - 1 - reserved.length = k by omega, hrow]
    rfl
  · exact (hperm.map Prod.fst).nodup_iff.mpr (mint_nodup hentries)
  · have hids := (hperm.map fun entry => entry.2.id).nodup_iff
    rw [hids, show (entries.map fun entry => entry.2.id) = (entries.map Prod.snd).map (·.id) from
      (List.map_map ..).symm, hrows]
    exact numberedRows_nodup.mpr hd.apart
  · intro entry hmem
    have hrow : entry.2 ∈ entries.map Prod.snd := List.mem_map_of_mem (hperm.mem_iff.mp hmem)
    rw [hrows] at hrow
    simpa using (List.mem_filter.mp hrow).2
  · refine ⟨_, _, ?_, selectStableLayer_sub rows.rows, ?_, layerBytes_trimToBudget _ _,
      layerBytes_trimToBudget (freshRows rows.rows contextual) _⟩
    · rw [← numberedRows, ← hrows]
      exact hperm.map Prod.snd
    · exact fun row hrow => List.mem_of_mem_filter ((trimToBudget_sublist _ _).subset hrow)

end HandleMap

section Claims

theorem memory_handles_iff (rows : Table MemoryRow) (contextual : List MemoryRow)
    (reserved : List MemoryId) (subjects : SubjectNames) :
    (∃ s printed, composeMemorySection rows.rows contextual reserved subjects = .ok s ∧
      NamesRows rows contextual reserved subjects s printed) ↔
      Distinguishable rows contextual reserved :=
  ⟨fun ⟨_, _, h, hnames⟩ => hnames.distinguishable h, fun h => h.namesRows subjects⟩

def recalledRow : MemoryRow where
  id := 7
  agentId := 1
  kind := .other
  content := ⟨"Deploys happen on Fridays.", by decide, by decide⟩
  state := .held
  pinned := false
  subject := none
  sourceTurnId := none
  createdAt := 0
  lastValidatedAt := 0
  lastAccessedAt := 0
  accessCount := 0

/-- A search that returns a row twice has it printed under two handles. -/
theorem memory_handles_repeat : ¬ ∃ s printed,
    composeMemorySection (Table.empty : Table MemoryRow).rows [recalledRow, recalledRow] []
      (fun _ => none) = .ok s ∧
    NamesRows .empty [recalledRow, recalledRow] [] (fun _ => none) s printed := by
  rintro ⟨s, printed, h, hnames⟩
  have happart := (hnames.distinguishable h).apart 0 1 recalledRow recalledRow Nat.one_pos
  exact List.not_mem_nil (happart rfl rfl (by decide) rfl)

end Claims

end Patom.Memory
