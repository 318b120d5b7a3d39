import Patom.Foundation.Slice
import Patom.Foundation.Transition
import Patom.Runtime.Response

open Patom.Foundation

namespace Patom.Runtime.LiveSlots

abbrev Sender := Nat

structure StreamSlot where
  requestId : PromptRequestId
  tx : Sender
  closed : Bool
  deriving DecidableEq

instance slotKeyed : Keyed StreamSlot PromptRequestId := ⟨StreamSlot.requestId⟩

structure SlotTable where
  slots : Table StreamSlot
  order : List PromptRequestId
  channels : Nat
  deriving DecidableEq

def SlotTable.empty : SlotTable := ⟨.empty, [], 0⟩

structure SlotCap where
  slotCap : Nat
  pos : 0 < slotCap

namespace SlotTable

def isClosed (t : SlotTable) (id : PromptRequestId) : Bool := (t.slots.find? id).any (·.closed)

def victim (t : SlotTable) : Option PromptRequestId × List PromptRequestId :=
  match t.order.findIdx? t.isClosed with
  | some idx => (t.order[idx]?, t.order.eraseIdx idx)
  | none => (t.order.head?, t.order.tail)

def evictOne (t : SlotTable) : SlotTable :=
  match t.victim.1 with
  | some id => { t with order := t.victim.2, slots := t.slots.delete fun s => key s = id }
  | none => { t with order := t.victim.2 }

def makeRoom (t : SlotTable) (slotCap : Nat) : SlotTable :=
  if slotCap ≤ t.slots.rows.length then t.evictOne else t

def pushNew (t : SlotTable) (id : PromptRequestId) : SlotTable where
  slots := t.slots.put ⟨id, t.channels, false⟩
  order := t.order ++ [id]
  channels := t.channels + 1

/-- `none` is a panic. -/
def touchSlot (t : SlotTable) (id : PromptRequestId) (slotCap : Nat) :
    Option (SlotTable × StreamSlot) :=
  let t := if (t.slots.find? id).isNone then (t.makeRoom slotCap).pushNew id else t
  (t.slots.find? id).map fun slot => (t, slot)

def close (t : SlotTable) (slot : StreamSlot) : SlotTable :=
  { t with slots := t.slots.put { slot with closed := true } }

def publishSender (t : SlotTable) (id : PromptRequestId) (terminal : Bool) (slotCap : Nat) :
    Option (SlotTable × Except ResponseError Sender) :=
  (t.touchSlot id slotCap).map fun (t, slot) =>
    if slot.closed then
      (t, .error (.backend ("request " ++ id.display ++ " stream already closed")))
    else (if terminal then t.close slot else t, .ok slot.tx)

def subscribeLive (t : SlotTable) (id : PromptRequestId) (slotCap : Nat) :
    Option (SlotTable × Sender × Bool) :=
  (t.touchSlot id slotCap).map fun (t, slot) => (t, slot.tx, slot.closed)

def markClosed (t : SlotTable) (id : PromptRequestId) (slotCap : Nat) : Option SlotTable :=
  (t.touchSlot id slotCap).map fun (t, slot) => t.close slot

end SlotTable

inductive Call
  | touchSlot (id : PromptRequestId)
  | publishSender (id : PromptRequestId) (terminal : Bool)
  | subscribeLive (id : PromptRequestId)
  | markClosed (id : PromptRequestId)
  deriving DecidableEq

def Call.id : Call → PromptRequestId
  | .touchSlot id | .publishSender id _ | .subscribeLive id | .markClosed id => id

def step (cap : SlotCap) : Step SlotTable Call := fun t c =>
  match c with
  | .touchSlot id => (t.touchSlot id cap.slotCap).map (·.1)
  | .publishSender id terminal => (t.publishSender id terminal cap.slotCap).map (·.1)
  | .subscribeLive id => (t.subscribeLive id cap.slotCap).map (·.1)
  | .markClosed id => t.markClosed id cap.slotCap

/-- The order holds the keys of the map, each once, and the map keeps to the cap. -/
structure InStep (cap : SlotCap) (t : SlotTable) : Prop where
  keys : t.order.Perm (t.slots.rows.map key)
  bounded : t.slots.rows.length ≤ cap.slotCap

section Evict

variable {t : SlotTable} {cap : SlotCap}

theorem SlotTable.isClosed_eq_true {id : PromptRequestId} :
    t.isClosed id = true ↔ ∃ s, t.slots.find? id = some s ∧ s.closed = true := by
  cases h : t.slots.find? id <;> simp [isClosed, h]

theorem InStep.nodup (h : InStep cap t) : t.order.Nodup := h.keys.nodup_iff.mpr t.slots.nodup

theorem InStep.mem_order (h : InStep cap t) {id : PromptRequestId} :
    id ∈ t.order ↔ ∃ s, t.slots.find? id = some s :=
  h.keys.mem_iff.trans Table.mem_keys_iff

theorem SlotTable.victim_spec (h : t.order ≠ []) :
    ∃ id rest, t.victim = (some id, rest) ∧ t.order.Perm (id :: rest) ∧
      (t.isClosed id = false → ∀ id' ∈ t.order, t.isClosed id' = false) := by
  unfold victim
  cases hidx : t.order.findIdx? t.isClosed with
  | some idx =>
    obtain ⟨hlt, hclosed, _⟩ := List.findIdx?_eq_some_iff_getElem.mp hidx
    refine ⟨t.order[idx], _, congrArg (·, _) (List.getElem?_eq_getElem hlt),
      (List.getElem_cons_eraseIdx_perm hlt).symm, fun hlive => ?_⟩
    rw [hclosed] at hlive
    cases hlive
  | none =>
    cases hord : t.order with
    | nil => exact absurd hord h
    | cons id rest =>
      exact ⟨id, rest, rfl, .refl _, fun _ => hord ▸ List.findIdx?_eq_none_iff.mp hidx⟩

theorem SlotTable.evictOne_spec (h : InStep cap t) (hne : t.order ≠ []) :
    ∃ id s, t.slots.find? id = some s ∧
      t.evictOne.slots = (t.slots.delete fun s => key s = id) ∧
      t.order.Perm (id :: t.evictOne.order) ∧ t.evictOne.channels = t.channels ∧
      (s.closed = false → ∀ s' ∈ t.slots, s'.closed = false) := by
  obtain ⟨id, rest, hv, hperm, hlive⟩ := t.victim_spec hne
  obtain ⟨s, hs⟩ := h.mem_order.mp (hperm.mem_iff.mpr List.mem_cons_self)
  have hclosed : ∀ {id' s'}, t.slots.find? id' = some s' → t.isClosed id' = s'.closed :=
    fun hs' => by rw [isClosed, hs', Option.any_some]
  have hevict : t.evictOne
      = { t with order := rest, slots := t.slots.delete fun s => key s = id } := by
    rw [evictOne, hv]
  rw [hevict]
  refine ⟨id, s, hs, rfl, hperm, rfl, fun hopen s' hs' => ?_⟩
  have hfind := Table.find?_of_mem hs'
  rw [← hclosed hfind]
  exact hlive ((hclosed hs).trans hopen) _ (h.mem_order.mpr ⟨s', hfind⟩)

theorem SlotTable.makeRoom_spec (h : InStep cap t) :
    InStep cap (t.makeRoom cap.slotCap) ∧
      (t.makeRoom cap.slotCap).slots.rows.length < cap.slotCap ∧
      (∀ id, (t.makeRoom cap.slotCap).slots.find? id = t.slots.find? id ∨
        (t.makeRoom cap.slotCap).slots.find? id = none) ∧
      ∀ s ∈ t.slots, (t.makeRoom cap.slotCap).slots.find? s.requestId = none →
        s.closed = false → ∀ s' ∈ t.slots, s'.closed = false := by
  unfold makeRoom
  split
  · next hfull =>
    have hne : t.order ≠ [] := fun hnil => by
      have hlen := h.keys.length_eq
      rw [hnil, List.length_map, List.length_nil] at hlen
      have := cap.pos
      omega
    obtain ⟨id, s, hs, hslots, hperm, _, hlive⟩ := evictOne_spec h hne
    have hrows := Table.perm_delete (Table.mem_of_find? hs)
    rw [Table.key_of_find? hs, ← hslots] at hrows
    have hkeys : t.evictOne.order.Perm (t.evictOne.slots.rows.map key) := by
      have hk := hrows.map (key (ρ := StreamSlot))
      rw [List.map_cons, Table.key_of_find? hs] at hk
      exact (List.perm_cons id).mp (hperm.symm.trans (h.keys.trans hk))
    have hlen : t.slots.rows.length = t.evictOne.slots.rows.length + 1 := hrows.length_eq
    refine ⟨⟨hkeys, by have := h.bounded; omega⟩, by have := h.bounded; omega, fun id' => ?_, ?_⟩
    · rw [hslots, Table.find?_delete]
      cases hf : t.slots.find? id' with
      | none => exact .inr rfl
      | some s' => by_cases e : key s' = id <;> simp [e]
    · intro s' hs' hgone hopen
      rw [hslots, Table.find?_delete, ← show key s' = s'.requestId from rfl,
        Table.find?_of_mem hs'] at hgone
      have he : key s' = id := by simpa using hgone
      rw [← he, Table.find?_of_mem hs'] at hs
      cases hs
      exact hlive hopen
  · next hroom =>
    refine ⟨h, by omega, fun _ => .inl rfl, fun s hs hgone => ?_⟩
    rw [← show key s = s.requestId from rfl, Table.find?_of_mem hs] at hgone
    cases hgone

end Evict

section Touch

variable {t u : SlotTable} {cap : SlotCap} {id : PromptRequestId} {s : StreamSlot}

theorem SlotTable.touchSlot_found (slotCap : Nat) (h : t.slots.find? id = some s) :
    t.touchSlot id slotCap = some (t, s) := by
  simp [touchSlot, h]

theorem SlotTable.touchSlot_missing (slotCap : Nat) (h : t.slots.find? id = none) :
    t.touchSlot id slotCap = some ((t.makeRoom slotCap).pushNew id,
      ⟨id, (t.makeRoom slotCap).channels, false⟩) := by
  have hput := Table.find?_put_self (t.makeRoom slotCap).slots
    (⟨id, (t.makeRoom slotCap).channels, false⟩ : StreamSlot)
  simp only [touchSlot, h, Option.isNone_none, if_true, pushNew]
  rw [show (key (⟨id, (t.makeRoom slotCap).channels, false⟩ : StreamSlot)) = id from rfl] at hput
  rw [hput]
  rfl

structure Touched (cap : SlotCap) (t : SlotTable) (id : PromptRequestId) (u : SlotTable)
    (s : StreamSlot) : Prop where
  inStep : InStep cap u
  found : u.slots.find? id = some s
  same : ∀ s', t.slots.find? id = some s' → u = t
  fresh : t.slots.find? id = none → s.closed = false
  others : ∀ id', id' ≠ id → u.slots.find? id' = t.slots.find? id' ∨ u.slots.find? id' = none
  evicts : ∀ s' ∈ t.slots, u.slots.find? s'.requestId = none → s'.closed = false →
    ∀ s'' ∈ t.slots, s''.closed = false

theorem SlotTable.pushNew_inStep (h : InStep cap t) (hroom : t.slots.rows.length < cap.slotCap)
    (hnew : t.slots.find? id = none) : InStep cap (t.pushNew id) := by
  have hrows : (t.slots.put ⟨id, t.channels, false⟩).rows
      = t.slots.rows ++ [⟨id, t.channels, false⟩] := Table.rows_put hnew
  constructor
  · rw [pushNew, hrows, List.map_append]
    exact h.keys.append_right [id]
  · rw [pushNew, hrows, List.length_append, List.length_singleton]
    omega

theorem SlotTable.touchSlot_spec (h : InStep cap t) (id : PromptRequestId) :
    ∃ u s, t.touchSlot id cap.slotCap = some (u, s) ∧ Touched cap t id u s := by
  cases hfind : t.slots.find? id with
  | some s =>
    refine ⟨t, s, touchSlot_found _ hfind, h, hfind, fun _ _ => rfl, by simp [hfind],
      fun _ _ => .inl rfl, fun s' hs' hgone => ?_⟩
    rw [← show key s' = s'.requestId from rfl, Table.find?_of_mem hs'] at hgone
    cases hgone
  | none =>
    obtain ⟨hin, hroom, hothers, hevicts⟩ := makeRoom_spec h
    have hnew : (t.makeRoom cap.slotCap).slots.find? id = none :=
      (hothers id).elim (fun e => e.trans hfind) fun e => e
    have hput : ∀ id', ((t.makeRoom cap.slotCap).pushNew id).slots.find? id'
        = if id = id' then some ⟨id, (t.makeRoom cap.slotCap).channels, false⟩
          else (t.makeRoom cap.slotCap).slots.find? id' := fun id' => Table.find?_put _ _ _
    refine ⟨_, _, touchSlot_missing _ hfind, pushNew_inStep hin hroom hnew, ?_, by simp [hfind],
      fun _ => rfl, fun id' hne => ?_, fun s' hs' hgone => ?_⟩
    · rw [hput, if_pos rfl]
    · rw [hput, if_neg (Ne.symm hne)]
      exact hothers id'
    · refine hevicts s' hs' ?_
      rw [hput] at hgone
      split at hgone
      · cases hgone
      · exact hgone

theorem InStep.close (h : InStep cap t) (hs : t.slots.find? id = some s) :
    InStep cap (t.close s) := by
  obtain ⟨hmem, rfl⟩ := Table.find?_eq_some.mp hs
  have hperm : (t.close s).slots.rows.Perm
      ({ s with closed := true } :: (t.slots.delete fun s' => key s' = key s).rows) :=
    Table.perm_put _ _
  have hrows := Table.perm_delete hmem
  constructor
  · refine h.keys.trans ((hrows.map key).trans ?_)
    exact (hperm.map key).symm
  · rw [hperm.length_eq]
    have := hrows.length_eq
    have := h.bounded
    simp only [List.length_cons] at *
    omega

theorem SlotTable.find?_close (t : SlotTable) (s : StreamSlot) (id : PromptRequestId) :
    (t.close s).slots.find? id
      = if s.requestId = id then some { s with closed := true } else t.slots.find? id :=
  Table.find?_put _ _ _

end Touch

section Runs

variable {t u : SlotTable} {cap : SlotCap} {id : PromptRequestId}

theorem step_spec (h : InStep cap t) (c : Call) :
    ∃ v s, Touched cap t c.id v s ∧
      (step cap t c = some v ∨ step cap t c = some (v.close s)) := by
  obtain ⟨v, s, htouch, hspec⟩ := SlotTable.touchSlot_spec h c.id
  refine ⟨v, s, hspec, ?_⟩
  cases c with
  | touchSlot id =>
    left
    simp only [step, show t.touchSlot id cap.slotCap = some (v, s) from htouch, Option.map_some]
  | publishSender id terminal =>
    simp only [step, SlotTable.publishSender,
      show t.touchSlot id cap.slotCap = some (v, s) from htouch, Option.map_some]
    split
    · exact .inl rfl
    · cases terminal with
      | false => exact .inl rfl
      | true => exact .inr rfl
  | subscribeLive id =>
    left
    simp only [step, SlotTable.subscribeLive,
      show t.touchSlot id cap.slotCap = some (v, s) from htouch, Option.map_some]
  | markClosed id =>
    right
    simp only [step, SlotTable.markClosed,
      show t.touchSlot id cap.slotCap = some (v, s) from htouch, Option.map_some]

theorem step_total (h : InStep cap t) (c : Call) : ∃ u, step cap t c = some u ∧ InStep cap u := by
  obtain ⟨v, s, hspec, he | he⟩ := step_spec h c
  · exact ⟨v, he, hspec.inStep⟩
  · exact ⟨_, he, hspec.inStep.close hspec.found⟩

theorem step_find? (h : InStep cap t) {c : Call} (hstep : step cap t c = some u) :
    ∃ v s, Touched cap t c.id v s ∧ ∀ id, u.slots.find? id = v.slots.find? id ∨
      id = c.id ∧ u.slots.find? id = some { s with closed := true } := by
  obtain ⟨v, s, hspec, he | he⟩ := step_spec h c
  · obtain rfl : v = u := Option.some.inj (he.symm.trans hstep)
    exact ⟨v, s, hspec, fun _ => .inl rfl⟩
  · obtain rfl : v.close s = u := Option.some.inj (he.symm.trans hstep)
    refine ⟨v, s, hspec, fun id => ?_⟩
    rw [SlotTable.find?_close, show s.requestId = c.id from Table.key_of_find? hspec.found]
    by_cases e : c.id = id
    · exact .inr ⟨e.symm, if_pos e⟩
    · exact .inl (if_neg e)

theorem step_evicts (h : InStep cap t) {c : Call} (hstep : step cap t c = some u) {s : StreamSlot}
    (hs : s ∈ t.slots) (hgone : u.slots.find? s.requestId = none) (hopen : s.closed = false) :
    ∀ s' ∈ t.slots, s'.closed = false := by
  obtain ⟨v, _, hspec, hfind⟩ := step_find? h hstep
  refine hspec.evicts s hs ?_ hopen
  cases hfind s.requestId with
  | inl e => exact e.symm.trans hgone
  | inr e => cases e.2.symm.trans hgone

theorem step_closed (h : InStep cap t) {c : Call} (hstep : step cap t c = some u)
    (hclosed : t.isClosed id = true) : u.slots.find? id = none ∨ u.isClosed id = true := by
  obtain ⟨v, s, hspec, hfind⟩ := step_find? h hstep
  obtain ⟨s₀, hs₀, hc₀⟩ := SlotTable.isClosed_eq_true.mp hclosed
  cases hfind id with
  | inr e => exact .inr (SlotTable.isClosed_eq_true.mpr ⟨_, e.2, rfl⟩)
  | inl e =>
    have hkept : v.slots.find? id = t.slots.find? id ∨ v.slots.find? id = none := by
      by_cases hid : id = c.id
      · exact .inl (by rw [hspec.same s₀ (hid ▸ hs₀)])
      · exact hspec.others id hid
    cases hkept with
    | inl hkept =>
      exact .inr (SlotTable.isClosed_eq_true.mpr ⟨s₀, e.trans (hkept.trans hs₀), hc₀⟩)
    | inr hgone => exact .inl (e.trans hgone)

theorem run_total (h : InStep cap t) (calls : List Call) :
    ∃ u, run (step cap) t calls = some u ∧ InStep cap u := by
  induction calls generalizing t with
  | nil => exact ⟨t, rfl, h⟩
  | cons c calls ih =>
    obtain ⟨v, hstep, hv⟩ := step_total h c
    rw [run_step hstep]
    exact ih hv

theorem run_closed (h : InStep cap t) (hclosed : t.isClosed id = true) {calls : List Call}
    (hrun : run (step cap) t calls = some u) (hopen : u.isClosed id = false) :
    ∃ mid rest v, calls = mid ++ rest ∧ run (step cap) t mid = some v ∧
      v.slots.find? id = none := by
  induction calls generalizing t with
  | nil =>
    cases hrun
    exact absurd (hclosed.symm.trans hopen) Bool.true_eq_false.mp
  | cons c calls ih =>
    obtain ⟨v, hstep, hv⟩ := step_total h c
    rw [run_step hstep] at hrun
    cases step_closed h hstep hclosed with
    | inl hgone => exact ⟨[c], calls, v, rfl, by rw [run_step hstep, run_nil], hgone⟩
    | inr hclosed =>
      obtain ⟨mid, rest, w, rfl, hmid, hgone⟩ := ih hv hclosed hrun
      exact ⟨c :: mid, rest, w, rfl, by rw [run_step hstep, hmid], hgone⟩

theorem inStep_empty (cap : SlotCap) : InStep cap .empty := ⟨.refl _, Nat.zero_le _⟩

theorem slots_stay_in_step (cap : SlotCap) (calls : List Call) :
    ∃ t, run (step cap) .empty calls = some t ∧ t.order.Nodup ∧
      (∀ id, id ∈ t.order ↔ ∃ s, t.slots.find? id = some s) ∧
      t.slots.rows.length ≤ cap.slotCap ∧
      (∀ c u s, step cap t c = some u → s ∈ t.slots → u.slots.find? s.requestId = none →
        s.closed = false → ∀ s' ∈ t.slots, s'.closed = false) ∧
      ∀ before between id t₀ s₀ s, calls = before ++ between →
        run (step cap) .empty before = some t₀ → t₀.slots.find? id = some s₀ →
        s₀.closed = true → t.slots.find? id = some s → s.closed = false →
        ∃ mid rest v, between = mid ++ rest ∧ run (step cap) t₀ mid = some v ∧
          v.slots.find? id = none := by
  obtain ⟨t, hrun, h⟩ := run_total (inStep_empty cap) calls
  refine ⟨t, hrun, h.nodup, fun _ => h.mem_order, h.bounded,
    fun c u s hstep hs hgone hopen => step_evicts h hstep hs hgone hopen, ?_⟩
  intro before between id t₀ s₀ s hcalls hbefore hs₀ hclosed hs hopen
  obtain ⟨t₁, hrun₁, h₀⟩ := run_total (inStep_empty cap) before
  cases hrun₁.symm.trans hbefore
  rw [hcalls, run_append, hbefore, Option.bind_some] at hrun
  refine run_closed h₀ (SlotTable.isClosed_eq_true.mpr ⟨s₀, hs₀, hclosed⟩) hrun ?_
  rw [SlotTable.isClosed, hs, Option.any_some, hopen]

end Runs

end Patom.Runtime.LiveSlots
