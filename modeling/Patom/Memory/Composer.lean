import Patom.Foundation.Ranking
import Patom.Memory.Store
import Patom.Runtime.Types

open Patom.Foundation
open Patom.Runtime (RequestKindPayload)

namespace Patom.Memory

def STABLE_LAYER_MAX_BYTES : Nat := 4096
def CONTEXTUAL_LAYER_MAX_BYTES : Nat := 4096
def RENDER_LINE_OVERHEAD_BYTES : Nat := 32

abbrev ColleagueName := String

abbrev SubjectNames := ColleagueId → Option ColleagueName

def MEMORY_TAG_OPEN : String := "<memory>\n"
def MEMORY_TAG_CLOSE : String := "\n</memory>"

def MEMORY_INTRO : String :=
  "## Memory\nFacts you previously remembered. Each entry has an `M-NN` handle — pass it to " ++
  "`memory_update`, `memory_forget`, or `memory_validate` to revise the entry. Use `recall` to " ++
  "search for memories not listed below.\n"

def KIND_ORDER : List MemoryKind := [.identity, .other, .collaborator, .procedure, .open]

structure MemorySection where
  text : String
  handles : List (MemoryHandle × MemoryId)

def MemorySection.resolveHandle (s : MemorySection) (handle : MemoryHandle) : Option MemoryId :=
  s.handles.lookup handle

def trimFrom (budget total : Nat) : List MemoryRow → List MemoryRow
  | [] => []
  | row :: rows =>
    let line := row.content.asStr.utf8ByteSize + RENDER_LINE_OVERHEAD_BYTES
    if budget < total + line then [] else row :: trimFrom budget (total + line) rows

def trimToBudget (rows : List MemoryRow) (budget : Nat) : List MemoryRow := trimFrom budget 0 rows

def MemoryRow.stable (r : MemoryRow) : Bool := r.pinned || r.kind = .identity

def MemoryRow.standing (r : MemoryRow) : Natᵒᵈ ×ₗ Timeᵒᵈ :=
  toLex (.toDual r.state.priority, .toDual r.createdAt)

def selectStableLayer (rows : List MemoryRow) : List MemoryRow :=
  trimToBudget ((rows.filter (·.stable)).insertionSort (·.standing ≤ ·.standing))
    STABLE_LAYER_MAX_BYTES

def expectHandle (invariant : String) (n : Nat) : Except Fault MemoryHandle :=
  match MemoryHandle.tryFrom n with
  | .ok handle => .ok handle
  | .error _ => .error (.panic invariant)

def mint {α : Type} (invariant : String) : Nat → List α → Except Fault (List (MemoryHandle × α))
  | _, [] => .ok []
  | n, a :: as => do
    let handle ← expectHandle invariant n
    let rest ← mint invariant (n + 1) as
    return (handle, a) :: rest

def bindReservedHandles (reserved : List MemoryId) :
    Except Fault (List (MemoryHandle × MemoryId) × Nat) := do
  let handles ← mint "invariant: reserved handle count under cap" 1 reserved
  return (handles, reserved.length + 1)

def renderEntry (subjects : SubjectNames) (handle : MemoryHandle) (row : MemoryRow) : String :=
  let about := match row.subject.bind subjects with
    | some name => if row.kind = .collaborator then "(about " ++ name ++ ") " else ""
    | none => ""
  "- [" ++ handle.display ++ ", " ++ row.state.asStr ++ "] " ++ about ++ row.content.asStr ++ "\n"

def renderText (entries : List (MemoryHandle × MemoryRow)) (subjects : SubjectNames) : String :=
  let kinds := KIND_ORDER.map fun kind =>
    match entries.filter (·.2.kind = kind) with
    | [] => ""
    | entries => "\n### " ++ kind.displayLabel ++ "\n" ++
        String.join (entries.map fun (handle, row) => renderEntry subjects handle row)
  MEMORY_TAG_OPEN ++ MEMORY_INTRO ++ String.join kinds ++ MEMORY_TAG_CLOSE

def render (stable contextual : List MemoryRow) (reserved : List MemoryId)
    (subjects : SubjectNames) : Except Fault MemorySection := do
  let (handles, next) ← bindReservedHandles reserved
  let entries ← mint "invariant: handle count under cap (per-agent quota enforces it)" next
    ((stable ++ contextual).filter (·.id ∉ reserved))
  return ⟨if entries.isEmpty then "" else renderText entries subjects,
    handles ++ entries.map fun (handle, row) => (handle, row.id)⟩

def composeMemorySection (rows contextual : List MemoryRow) (reserved : List MemoryId)
    (subjects : SubjectNames) : Except Fault MemorySection :=
  let stable := selectStableLayer rows
  let trimmedContextual := trimToBudget (contextual.filter (·.id ∉ stable.map (·.id)))
    CONTEXTUAL_LAYER_MAX_BYTES
  render stable trimmedContextual reserved subjects

def MemoryDb.resolveReservedPair (db : MemoryDb) : RequestKindPayload → List MemoryId
  | .resolution id =>
    match db.contradictions.find? id with
    | some row => [row.memoryA, row.memoryB]
    | none => []
  | .normal | .reflection .. => []

def hydrateSubjects (roster : SubjectNames) (rows : List MemoryRow) : SubjectNames := fun id =>
  if rows.any (·.subject = some id) then roster id else none

def MemoryDb.loadStable (db : MemoryDb) (roster : SubjectNames) (agent : AgentId)
    (kindPayload : RequestKindPayload) : Except Fault MemorySection := do
  let rows ← db.list agent
  composeMemorySection rows [] (db.resolveReservedPair kindPayload) (hydrateSubjects roster rows)

def MemoryDb.resolveHandle (db : MemoryDb) (roster : SubjectNames) (agent : AgentId)
    (kindPayload : RequestKindPayload) (handle : MemoryHandle) :
    Except Fault (Option MemoryId) := do
  let composed ← db.loadStable roster agent kindPayload
  return composed.resolveHandle handle

section Handles

variable {α : Type} {invariant : String}

theorem tryFrom_ok {n : Nat} {handle : MemoryHandle} (h : MemoryHandle.tryFrom n = .ok handle) :
    handle.get = n := by
  unfold MemoryHandle.tryFrom at h
  split at h
  · cases h
  · split at h
    · cases h
      rfl
    · cases h

theorem expectHandle_ok {n : Nat} {handle : MemoryHandle}
    (h : expectHandle invariant n = .ok handle) : handle.get = n := by
  unfold expectHandle at h
  split at h
  · rename_i hn
    cases h
    exact tryFrom_ok hn
  · cases h

theorem lookup_mint {n : Nat} {as : List α} {handles : List (MemoryHandle × α)}
    (h : mint invariant n as = .ok handles) (handle : MemoryHandle) :
    handles.lookup handle = if n ≤ handle.get then as[handle.get - n]? else none := by
  induction as generalizing n handles with
  | nil =>
    cases h
    simp
  | cons a as ih =>
    obtain ⟨first, hfirst, h⟩ := bind_eq_ok.mp h
    obtain ⟨rest, hrest, h⟩ := bind_eq_ok.mp h
    cases h
    have hget := expectHandle_ok hfirst
    rw [List.lookup_cons, ih hrest]
    obtain hlt | heq | hgt := lt_trichotomy handle.get n
    · have hne : (handle == first) = false :=
        beq_false_of_ne fun e => hlt.ne (e ▸ hget)
      rw [hne, if_neg (by omega), if_neg (by omega)]
    · have hsame : (handle == first) = true := by
        cases handle
        cases first
        simp_all
      rw [hsame, if_pos heq.ge, heq, Nat.sub_self, List.getElem?_cons_zero]
    · have hne : (handle == first) = false :=
        beq_false_of_ne fun e => hgt.ne' (e ▸ hget)
      have hsub : handle.get - n = handle.get - (n + 1) + 1 := by omega
      rw [hne, if_pos (by omega), if_pos hgt.le, hsub, List.getElem?_cons_succ]

theorem mint_isOk {n : Nat} {as : List α} (hn : n ≠ 0) (h : n + as.length ≤ MemoryHandle.MAX + 1) :
    ∃ handles, mint invariant n as = .ok handles := by
  induction as generalizing n with
  | nil => exact ⟨[], rfl⟩
  | cons a as ih =>
    rw [List.length_cons] at h
    obtain ⟨rest, hrest⟩ := ih (Nat.succ_ne_zero n) (by omega)
    have hfirst : expectHandle invariant n = .ok ⟨n, hn, by omega⟩ := by
      rw [expectHandle, MemoryHandle.tryFrom, dif_neg hn, dif_pos]
    exact ⟨_, bind_eq_ok.mpr ⟨_, hfirst, bind_eq_ok.mpr ⟨rest, hrest, rfl⟩⟩⟩

end Handles

theorem lookup_map_id (entries : List (MemoryHandle × MemoryRow)) (handle : MemoryHandle) :
    (entries.map fun (handle, row) => (handle, row.id)).lookup handle
      = (entries.lookup handle).map (·.id) := by
  induction entries with
  | nil => rfl
  | cons entry entries ih =>
    rw [List.map_cons, List.lookup_cons, List.lookup_cons, ih]
    split <;> rfl

theorem trimFrom_isPrefix (budget total : Nat) (rows : List MemoryRow) :
    trimFrom budget total rows <+: rows := by
  induction rows generalizing total with
  | nil => exact List.prefix_refl []
  | cons row rows ih =>
    rw [trimFrom]
    split
    · exact List.nil_prefix
    · exact List.prefix_cons_inj row |>.mpr (ih _)

theorem length_trimFrom (budget total : Nat) (rows : List MemoryRow) :
    total + RENDER_LINE_OVERHEAD_BYTES * (trimFrom budget total rows).length ≤ max budget total := by
  induction rows generalizing total with
  | nil => simp [trimFrom]
  | cons row rows ih =>
    rw [trimFrom]
    split
    · simp
    · have hrest := ih (total + (row.content.asStr.utf8ByteSize + RENDER_LINE_OVERHEAD_BYTES))
      rw [List.length_cons, Nat.mul_succ]
      omega

theorem length_trimToBudget (rows : List MemoryRow) (budget : Nat) :
    RENDER_LINE_OVERHEAD_BYTES * (trimToBudget rows budget).length ≤ budget := by
  simpa [trimToBudget] using length_trimFrom budget 0 rows

theorem resolveHandle_render {stable contextual : List MemoryRow} {reserved : List MemoryId}
    {subjects : SubjectNames} {s : MemorySection}
    (h : render stable contextual reserved subjects = .ok s) (handle : MemoryHandle) :
    s.resolveHandle handle =
      if handle.get ≤ reserved.length then reserved[handle.get - 1]?
      else (((stable ++ contextual).filter (·.id ∉ reserved))[
        handle.get - (reserved.length + 1)]?).map (·.id) := by
  obtain ⟨bound, hbound, h⟩ := bind_eq_ok.mp h
  obtain ⟨handles, hhandles, hbound⟩ := bind_eq_ok.mp hbound
  cases hbound
  obtain ⟨entries, hentries, h⟩ := bind_eq_ok.mp h
  cases h
  have hpos := handle.positive
  rw [MemorySection.resolveHandle, List.lookup_append, lookup_map_id, lookup_mint hhandles,
    lookup_mint hentries, if_pos (Nat.one_le_iff_ne_zero.mpr hpos)]
  by_cases hle : handle.get ≤ reserved.length
  · have hlt : handle.get - 1 < reserved.length := by omega
    rw [if_pos hle, List.getElem?_eq_getElem hlt, Option.some_or]
  · rw [if_neg hle, List.getElem?_eq_none (by omega), Option.none_or, if_pos (by omega)]

def MemoryRow.age (r : MemoryRow) : Time ×ₗ Nat := toLex (r.createdAt, r.id.toNat)

def MemoryRow.rank (r : MemoryRow) : (Natᵒᵈ ×ₗ Timeᵒᵈ) ×ₗ Nat := toLex (r.standing, r.id.toNat)

theorem age_injective {r r' : MemoryRow} (h : r.age = r'.age) : r.id = r'.id :=
  BitVec.eq_of_toNat_eq (congrArg (fun a => (ofLex a).2) h)

theorem rank_lt {r r' : MemoryRow} (hle : r.standing ≤ r'.standing)
    (htie : r'.standing ≤ r.standing → r.age < r'.age) : r.rank < r'.rank := by
  obtain hlt | heq := hle.lt_or_eq
  · exact Prod.Lex.toLex_lt_toLex.mpr (.inl hlt)
  · refine Prod.Lex.toLex_lt_toLex.mpr (.inr ⟨heq, ?_⟩)
    have hcreated : r.createdAt = r'.createdAt :=
      OrderDual.toDual.injective (congrArg (fun a => (ofLex a).2) heq)
    obtain hlt | ⟨-, hid⟩ := Prod.Lex.toLex_lt_toLex.mp (htie heq.ge)
    · exact absurd hcreated hlt.ne
    · exact hid

instance : Std.Total fun r r' : MemoryRow => r.standing ≤ r'.standing :=
  ⟨fun r r' => le_total r.standing r'.standing⟩

instance : IsTrans MemoryRow fun r r' => r.standing ≤ r'.standing := ⟨fun _ _ _ => le_trans⟩

namespace MemoryDb

variable {db : MemoryDb} {agent : AgentId} {reserved : List MemoryId}

theorem list_ok {rows : List MemoryRow} (h : db.list agent = .ok rows) :
    rows.Perm (db.memories.rows.filter (·.agentId = agent))
      ∧ rows.Pairwise (·.age < ·.age) ∧ rows.length ≤ MAX_MEMORIES_PER_AGENT := by
  unfold list at h
  dsimp only at h
  split at h
  · rename_i hcap
    cases h
    rw [List.length_take] at hcap
    rw [List.take_of_length_le (by omega)]
    have hperm := inOrder_perm MemoryRow.age (db.memories.rows.filter (·.agentId = agent))
    exact ⟨hperm, inOrder_strict MemoryRow.age (db.memories.nodup.sublist (List.filter_sublist.map key))
      fun _ _ => age_injective, by omega⟩
  · cases h

def numbered (agent : AgentId) (reserved : List MemoryId) (r : MemoryRow) : Bool :=
  r.agentId = agent && r.stable && r.id ∉ reserved

def ahead (db : MemoryDb) (agent : AgentId) (reserved : List MemoryId) (r : MemoryRow) : Nat :=
  place MemoryRow.rank (db.memories.rows.filter (numbered agent reserved)) r

def shown (db : MemoryDb) (agent : AgentId) (reserved : List MemoryId) : List MemoryRow :=
  match db.list agent with
  | .ok rows => (selectStableLayer rows).filter (·.id ∉ reserved)
  | .error _ => []

variable (reserved) in
theorem shown_prefix {rows : List MemoryRow} (h : db.list agent = .ok rows) :
    ∃ ordered : List MemoryRow, db.shown agent reserved <+: ordered
      ∧ ordered.Perm (db.memories.rows.filter (numbered agent reserved))
      ∧ ordered.Pairwise (·.rank < ·.rank) := by
  obtain ⟨hperm, hsorted, -⟩ := list_ok h
  refine ⟨((rows.filter (·.stable)).insertionSort (·.standing ≤ ·.standing)).filter
    (·.id ∉ reserved), ?_, ?_, ?_⟩
  · rw [shown, h]
    exact (trimFrom_isPrefix _ _ _).filter _
  · have hsort := List.perm_insertionSort (fun r r' : MemoryRow => r.standing ≤ r'.standing)
      (rows.filter (·.stable))
    have hall := (hsort.trans (hperm.filter (·.stable))).filter (·.id ∉ reserved)
    rw [List.filter_filter, List.filter_filter] at hall
    refine hall.trans (.of_eq (List.filter_congr fun r _ => ?_))
    rw [numbered, Bool.and_comm, Bool.and_assoc, Bool.and_comm r.stable]
  · have hstable := pairwise_insertionSort_stable (r := fun r r' => r.standing ≤ r'.standing)
      (hsorted.filter (·.stable))
    exact (hstable.imp fun ⟨hle, htie⟩ => rank_lt hle htie).filter _

theorem getElem?_shown_iff {k : Nat} (hk : k < (db.shown agent reserved).length) {r : MemoryRow} :
    (db.shown agent reserved)[k]? = some r ↔
      r ∈ db.memories ∧ numbered agent reserved r ∧ db.ahead agent reserved r = k := by
  cases hlist : db.list agent with
  | error e => simp [shown, hlist] at hk
  | ok rows =>
    obtain ⟨ordered, ⟨rest, rfl⟩, hperm, hsorted⟩ := shown_prefix reserved hlist
    rw [← List.getElem?_append_left hk, getElem?_eq_some_iff_place hsorted, hperm.mem_iff,
      List.mem_filter, place_perm hperm, and_assoc]
    rfl

/-- The place is no longer there, or the row that had it is still there and still to be numbered,
with as many rows ahead of it. -/
def KeepsPlace (agent : AgentId) (reserved : List MemoryId) (db₀ db : MemoryDb) (k : Nat) : Prop :=
  k < (db.shown agent reserved).length →
    ∃ r₀ ∈ (db₀.shown agent reserved)[k]?, ∃ r ∈ db.memories, r.id = r₀.id
      ∧ numbered agent reserved r ∧ db.ahead agent reserved r = db₀.ahead agent reserved r₀

theorem keepsPlace_iff {db₀ : MemoryDb} {k : Nat} : KeepsPlace agent reserved db₀ db k ↔
    ∀ r ∈ (db.shown agent reserved)[k]?, ∃ r₀ ∈ (db₀.shown agent reserved)[k]?, r₀.id = r.id := by
  constructor
  · intro h r hr
    have hk := (List.getElem?_eq_some_iff.mp hr).1
    obtain ⟨r₀, hr₀, r', hr', hid, hnumbered, hahead⟩ := h hk
    have hk₀ := (List.getElem?_eq_some_iff.mp hr₀).1
    have hplace := ((getElem?_shown_iff hk₀).mp hr₀).2.2
    have hsame := (getElem?_shown_iff hk).mpr ⟨hr', hnumbered, hahead.trans hplace⟩
    obtain rfl := Option.some.inj (hr.symm.trans hsame)
    exact ⟨r₀, hr₀, hid.symm⟩
  · intro h hk
    have hr := List.getElem?_eq_getElem hk
    obtain ⟨r₀, hr₀, hid⟩ := h _ hr
    obtain ⟨hmem, hnumbered, hplace⟩ := (getElem?_shown_iff hk).mp hr
    have hk₀ := (List.getElem?_eq_some_iff.mp hr₀).1
    exact ⟨r₀, hr₀, _, hmem, hid.symm, hnumbered,
      hplace.trans ((getElem?_shown_iff hk₀).mp hr₀).2.2.symm⟩

variable {roster : SubjectNames} {kindPayload : RequestKindPayload} {s : MemorySection}

theorem resolveHandle_loadStable (h : db.loadStable roster agent kindPayload = .ok s)
    (handle : MemoryHandle) :
    s.resolveHandle handle =
      if handle.get ≤ (db.resolveReservedPair kindPayload).length then
        (db.resolveReservedPair kindPayload)[handle.get - 1]?
      else ((db.shown agent (db.resolveReservedPair kindPayload))[
        handle.get - ((db.resolveReservedPair kindPayload).length + 1)]?).map (·.id) := by
  obtain ⟨rows, hlist, h⟩ := bind_eq_ok.mp h
  have hcontextual : trimToBudget (([] : List MemoryRow).filter (·.id ∉ (selectStableLayer
      rows).map (·.id))) CONTEXTUAL_LAYER_MAX_BYTES = [] := rfl
  rw [composeMemorySection, hcontextual] at h
  rw [resolveHandle_render h handle, List.append_nil, shown, hlist]

theorem loadStable_isOk {rows : List MemoryRow} (h : db.list agent = .ok rows) :
    ∃ s, db.loadStable roster agent kindPayload = .ok s := by
  have hreserved : (db.resolveReservedPair kindPayload).length ≤ 2 := by
    unfold resolveReservedPair
    split
    · split <;> simp
    · simp
    · simp
  have hstable := length_trimToBudget ((rows.filter (·.stable)).insertionSort
    (·.standing ≤ ·.standing)) STABLE_LAYER_MAX_BYTES
  have hnumbered : ((selectStableLayer rows).filter
      (·.id ∉ db.resolveReservedPair kindPayload)).length ≤ 128 := by
    refine List.length_filter_le _ _ |>.trans ?_
    rw [RENDER_LINE_OVERHEAD_BYTES, STABLE_LAYER_MAX_BYTES] at hstable
    rw [selectStableLayer, STABLE_LAYER_MAX_BYTES]
    omega
  obtain ⟨handles, hhandles⟩ : ∃ handles, mint "invariant: reserved handle count under cap" 1
      (db.resolveReservedPair kindPayload) = .ok handles :=
    mint_isOk one_ne_zero (by rw [MemoryHandle.MAX]; omega)
  obtain ⟨entries, hentries⟩ : ∃ entries,
      mint "invariant: handle count under cap (per-agent quota enforces it)"
        ((db.resolveReservedPair kindPayload).length + 1)
        ((selectStableLayer rows).filter (·.id ∉ db.resolveReservedPair kindPayload))
          = .ok entries :=
    mint_isOk (Nat.succ_ne_zero _) (by rw [MemoryHandle.MAX]; omega)
  refine ⟨_, bind_eq_ok.mpr ⟨rows, h, bind_eq_ok.mpr ⟨_,
    bind_eq_ok.mpr ⟨handles, hhandles, rfl⟩, bind_eq_ok.mpr ⟨entries, ?_, rfl⟩⟩⟩⟩
  rw [← hentries]
  exact congrArg (mint _ _) (congrArg _ (List.append_nil _))

end MemoryDb

end Patom.Memory
