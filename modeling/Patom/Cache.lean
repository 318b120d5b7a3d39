import Patom.Foundation.Table
import Patom.Foundation.Transition

/-! The bounded cache with a lifetime per entry, and the calls that run on it. -/

universe u v

open Patom.Foundation

namespace Patom.Cache

structure Limits where
  cap : Nat
  ttl : Nat
  capPos : 0 < cap
  ttlPos : 0 < ttl

inductive Scope (κ : Type u)
  | all
  | only (k : κ)
  deriving DecidableEq

def Scope.covers {κ : Type u} [DecidableEq κ] (k : κ) : Scope κ → Bool
  | .all => true
  | .only k' => k' = k

structure Invalidation (κ : Type u) where
  id : Nat
  scope : Scope κ
  bump : Nat
  returned : Bool

instance invalidationKeyed (κ : Type u) : Keyed (Invalidation κ) Nat := ⟨Invalidation.id⟩

structure Entry (κ : Type u) (ν : Type v) where
  cacheKey : κ
  value : ν
  fetchedAt : Nat
  begunAt : Nat
  insertedAt : Nat

instance entryKeyed (κ : Type u) (ν : Type v) : Keyed (Entry κ ν) κ := ⟨Entry.cacheKey⟩

structure Load where
  startedAtEpoch : Nat
  begunAt : Nat

structure Hit (κ : Type u) (ν : Type v) where
  entry : Entry κ ν
  now : Nat
  hitAt : Nat

inductive CallPc (κ : Type u) (ν : Type v)
  | started (now : Nat)
  | missed
  | snapped (startedAtEpoch : Nat)
  | loading (load : Load)
  | loaded (load : Load) (value : ν)
  | stamped (load : Load) (value : ν) (nowAfter : Nat)
  | inserting (load : Load) (value : ν) (nowAfter : Nat)
  | hit (hit : Hit κ ν)
  | done (load : Load) (value : ν)
  | failed

/-- A `get_or_load`, and what had been invalidated when it started. -/
structure Call (κ : Type u) (ν : Type v) where
  id : Nat
  cacheKey : κ
  after : List (Invalidation κ)
  pc : CallPc κ ν

instance callKeyed (κ : Type u) (ν : Type v) : Keyed (Call κ ν) Nat := ⟨Call.id⟩

structure St (κ : Type u) (ν : Type v) where
  state : Table (Entry κ ν)
  epoch : Nat
  clock : Nat
  lock : Option Nat
  panicked : Bool
  calls : Table (Call κ ν)
  invalidations : Table (Invalidation κ)

variable {κ : Type u} {ν : Type v}

def St.new : St κ ν where
  state := .empty
  epoch := 0
  clock := 0
  lock := none
  panicked := false
  calls := .empty
  invalidations := .empty

inductive Act (κ : Type u) (ν : Type v)
  | start (call : Nat) (k : κ)
  | lookup (call : Nat)
  | snapshot (call : Nat)
  | load (call : Nat)
  | loaded (call : Nat) (value : Option ν)
  | stamp (call : Nat)
  | checkEpoch (call : Nat)
  | insert (call : Nat) (iteration : List κ)
  | bump (invalidation : Nat) (scope : Scope κ)
  | remove (invalidation : Nat)
  | advance (elapsed : Nat)

def St.goto (s : St κ ν) (c : Call κ ν) (pc : CallPc κ ν) : St κ ν :=
  { s with calls := s.calls.put { c with pc } }

variable [DecidableEq κ] (lim : Limits)

def Entry.isExpired (now : Nat) (e : Entry κ ν) : Bool := lim.ttl ≤ now - e.fetchedAt

def lookupFresh (k : κ) (now : Nat) (state : Table (Entry κ ν)) : Option (Entry κ ν) :=
  (state.find? k).filter fun e => !e.isExpired lim now

def victim (now : Nat) : Option (Entry κ ν) → List (Entry κ ν) → Option κ
  | oldestOverall, [] => oldestOverall.map Entry.cacheKey
  | oldestOverall, e :: es =>
    if e.isExpired lim now then some e.cacheKey
    else
      match oldestOverall with
      | none => victim now (some e) es
      | some oldest => victim now (some (if e.fetchedAt < oldest.fetchedAt then e else oldest)) es

def evictOne (iteration : List κ) (now : Nat) (state : Table (Entry κ ν)) : Table (Entry κ ν) :=
  match victim lim now none (iteration.filterMap state.find?) with
  | some k => state.delete (·.cacheKey = k)
  | none => state

/-- Room for a new entry; `none` when the assertion fails. -/
def makeRoom (iteration : List κ) (k : κ) (now : Nat) (state : Table (Entry κ ν)) :
    Option (Table (Entry κ ν)) :=
  if lim.cap ≤ state.rows.length ∧ (state.find? k).isNone then
    let evicted := evictOne lim iteration now state
    if evicted.rows.length < lim.cap then some evicted else none
  else some state

def insertLocked (s : St κ ν) (c : Call κ ν) (load : Load) (value : ν) (nowAfter : Nat)
    (iteration : List κ) : St κ ν :=
  match makeRoom lim iteration c.cacheKey nowAfter s.state with
  | some state => { s.goto c (.done load value) with
      state := state.put ⟨c.cacheKey, value, nowAfter, load.begunAt, s.clock⟩
      lock := none }
  | none => { s with panicked := true }

/-- One step of one call, between two points where others may run. -/
def callStep (s : St κ ν) (c : Call κ ν) : CallPc κ ν → Act κ ν → Option (St κ ν)
  | .started now, .lookup _ =>
    if s.lock.isNone then
      match lookupFresh lim c.cacheKey now s.state with
      | some e => some (s.goto c (.hit ⟨e, now, s.clock⟩))
      | none => some (s.goto c .missed)
    else none
  | .missed, .snapshot _ => some (s.goto c (.snapped s.epoch))
  | .snapped startedAtEpoch, .load _ => some (s.goto c (.loading ⟨startedAtEpoch, s.epoch⟩))
  | .loading load, .loaded _ (some value) => some (s.goto c (.loaded load value))
  | .loading _, .loaded _ none => some (s.goto c .failed)
  | .loaded load value, .stamp _ => some (s.goto c (.stamped load value s.clock))
  | .stamped load value nowAfter, .checkEpoch _ =>
    if s.lock.isNone then
      if s.epoch = load.startedAtEpoch then
        some { s.goto c (.inserting load value nowAfter) with lock := some c.id }
      else some (s.goto c (.done load value))
    else none
  | .inserting load value nowAfter, .insert _ iteration =>
    if iteration.isPerm (s.state.rows.map key) then
      some (insertLocked lim s c load value nowAfter iteration)
    else none
  | _, _ => none

def Act.call? : Act κ ν → Option Nat
  | .lookup call | .snapshot call | .load call | .loaded call _ | .stamp call | .checkEpoch call
  | .insert call _ => some call
  | _ => none

def step : Step (St κ ν) (Act κ ν)
  | s, .start call k =>
    if (s.calls.find? call).isNone then
      some { s with
        calls := s.calls.put ⟨call, k, s.invalidations.rows.filter (·.returned), .started s.clock⟩ }
    else none
  | s, .bump invalidation scope =>
    if (s.invalidations.find? invalidation).isNone then
      some { s with
        epoch := s.epoch + 1
        invalidations := s.invalidations.put ⟨invalidation, scope, s.epoch + 1, false⟩ }
    else none
  | s, .remove invalidation =>
    (s.invalidations.find? invalidation).bind fun i =>
      if !i.returned ∧ s.lock.isNone then
        some { s with
          state := s.state.delete fun e => i.scope.covers e.cacheKey
          invalidations := s.invalidations.put { i with returned := true } }
      else none
  | s, .advance elapsed => some { s with clock := s.clock + elapsed }
  | s, a => a.call?.bind fun call => (s.calls.find? call).bind fun c => callStep lim s c c.pc a

end Patom.Cache

namespace Patom.Cache

variable {κ : Type u} {ν : Type v} {lim : Limits}

section Evict

variable {now : Nat} {k : κ}

theorem victim_mem {oldest : Option (Entry κ ν)} {es : List (Entry κ ν)}
    (h : victim lim now oldest es = some k) : ∃ e ∈ oldest.toList ++ es, e.cacheKey = k := by
  induction es generalizing oldest with
  | nil =>
    obtain ⟨e, rfl, he⟩ := Option.map_eq_some_iff.mp h
    exact ⟨e, by simp, he⟩
  | cons e es ih =>
    unfold victim at h
    split at h
    · cases h
      exact ⟨e, by simp, rfl⟩
    · split at h
      · obtain ⟨x, hx, hk⟩ := ih h
        exact ⟨x, by simpa using hx, hk⟩
      · obtain ⟨x, hx, hk⟩ := ih h
        refine ⟨x, ?_, hk⟩
        simp only [Option.toList_some, List.singleton_append, List.mem_cons] at hx ⊢
        obtain hx | hx := hx
        · split at hx
          · exact .inr (.inl hx)
          · exact .inl hx
        · exact .inr (.inr hx)

theorem victim_isSome {oldest : Option (Entry κ ν)} {es : List (Entry κ ν)}
    (h : oldest.isSome ∨ es ≠ []) : (victim lim now oldest es).isSome := by
  induction es generalizing oldest with
  | nil => simpa [victim] using h
  | cons e es ih =>
    unfold victim
    split
    · rfl
    · split
      · exact ih (.inl rfl)
      · exact ih (.inl rfl)

variable [DecidableEq κ] {iteration : List κ} {state : Table (Entry κ ν)}

theorem mem_iterated (h : iteration.isPerm (state.rows.map key) = true) {e : Entry κ ν} :
    e ∈ iteration.filterMap state.find? ↔ e ∈ state := by
  have hperm : ∀ k, k ∈ iteration ↔ k ∈ state.rows.map key := fun k => (List.isPerm_iff.mp h).mem_iff
  rw [List.mem_filterMap]
  constructor
  · rintro ⟨k, -, hk⟩
    exact Table.mem_of_find? hk
  · exact fun he => ⟨key e, (hperm _).mpr (List.mem_map_of_mem he), Table.find?_of_mem he⟩

theorem mem_evictOne {e : Entry κ ν} (h : e ∈ evictOne lim iteration now state) : e ∈ state := by
  unfold evictOne at h
  split at h
  · exact (Table.mem_delete.mp h).1
  · exact h

theorem length_evictOne (h : iteration.isPerm (state.rows.map key) = true) (hne : state.rows ≠ []) :
    (evictOne lim iteration now state).rows.length + 1 = state.rows.length := by
  obtain ⟨e, he⟩ := List.exists_mem_of_ne_nil _ hne
  have hiter : iteration.filterMap state.find? ≠ [] :=
    List.ne_nil_of_mem ((mem_iterated h).mpr (Table.mem_def.mpr he))
  have hsome : (victim lim now none (iteration.filterMap state.find?)).isSome :=
    victim_isSome (.inr hiter)
  obtain ⟨k, hk⟩ := Option.isSome_iff_exists.mp hsome
  obtain ⟨v, hv, rfl⟩ := victim_mem hk
  have hmem : v ∈ state := (mem_iterated h).mp (by simpa using hv)
  rw [evictOne, hk, (Table.perm_delete hmem).length_eq]
  rfl

variable (now k) in
theorem makeRoom_spec (hperm : iteration.isPerm (state.rows.map key) = true)
    (hcap : state.rows.length ≤ lim.cap) : ∃ room, makeRoom lim iteration k now state = some room ∧
      (∀ e ∈ room, e ∈ state) ∧ ∀ e : Entry κ ν, e.cacheKey = k → (room.put e).rows.length ≤ lim.cap := by
  unfold makeRoom
  by_cases hfull : lim.cap ≤ state.rows.length ∧ (state.find? k).isNone
  · rw [if_pos hfull]
    have hne : state.rows ≠ [] := List.ne_nil_of_length_pos (Nat.lt_of_lt_of_le lim.capPos hfull.1)
    have hlen : (evictOne lim iteration now state).rows.length + 1 = state.rows.length :=
      length_evictOne hperm hne
    refine ⟨_, if_pos (by omega), fun e => mem_evictOne, fun e he => ?_⟩
    rw [Table.length_put]
    split <;> omega
  · rw [if_neg hfull]
    refine ⟨state, rfl, fun _ => id, fun e he => ?_⟩
    rw [Table.length_put, show key e = k from he]
    split
    · next hnone =>
      have : ¬ lim.cap ≤ state.rows.length := fun h => hfull ⟨h, hnone⟩
      omega
    · exact hcap

end Evict

def CallPc.yielded : CallPc κ ν → Option Nat
  | .hit h => some h.entry.begunAt
  | .done load _ => some load.begunAt
  | _ => none

variable [DecidableEq κ]

/-- What is yielded is fresh, what is hit is young at the given time, and the map has a bound. -/
structure Sound (lim : Limits) (time : Hit κ ν → Nat) (s : St κ ν) : Prop where
  fresh : ∀ c ∈ s.calls, ∀ begunAt ∈ c.pc.yielded, ∀ i ∈ c.after, i.scope.covers c.cacheKey →
    i.bump ≤ begunAt
  young : ∀ c ∈ s.calls, ∀ h, c.pc = .hit h → time h < h.entry.insertedAt + lim.ttl
  bounded : s.state.rows.length ≤ lim.cap
  asserted : s.panicked = false

/-- A load begins after its epoch was read, and after all that was invalidated before its call. -/
structure Load.Honest (after : List (Invalidation κ)) (load : Load) : Prop where
  started : load.startedAtEpoch ≤ load.begunAt
  after : ∀ i ∈ after, i.bump ≤ load.begunAt

/-- What is known of a call at each point; while it inserts, nothing is reported removed. -/
def CallOk (lim : Limits) (s : St κ ν) (c : Call κ ν) : CallPc κ ν → Prop
  | .started _ | .missed | .failed => True
  | .snapped startedAtEpoch => startedAtEpoch ≤ s.epoch
  | .loading load | .loaded load _ | .done load _ => load.Honest c.after
  | .stamped load _ nowAfter => load.Honest c.after ∧ nowAfter ≤ s.clock
  | .inserting load _ nowAfter => load.Honest c.after ∧ nowAfter ≤ s.clock ∧ s.lock = some c.id ∧
    ∀ i ∈ s.invalidations, i.returned → i.bump ≤ load.startedAtEpoch
  | .hit h => h.now < h.entry.insertedAt + lim.ttl ∧
    ∀ i ∈ c.after, i.scope.covers c.cacheKey → i.bump ≤ h.entry.begunAt

structure CacheInv (lim : Limits) (s : St κ ν) : Prop where
  bumps : ∀ i ∈ s.invalidations, i.bump ≤ s.epoch
  after : ∀ c ∈ s.calls, ∀ i ∈ c.after, i ∈ s.invalidations ∧ i.returned
  entries : ∀ e ∈ s.state, ∀ i ∈ s.invalidations, i.returned → i.scope.covers e.cacheKey →
    i.bump ≤ e.begunAt
  stamps : ∀ e ∈ s.state, e.fetchedAt ≤ e.insertedAt
  calls : ∀ c ∈ s.calls, CallOk lim s c c.pc
  bounded : s.state.rows.length ≤ lim.cap
  asserted : s.panicked = false

variable {s t : St κ ν} {c : Call κ ν}

theorem CacheInv.sound (h : CacheInv lim s) : Sound lim Hit.now s where
  fresh c hc begunAt hbegun i hi hcovers := by
    have hok := h.calls c hc
    unfold CallPc.yielded at hbegun
    split at hbegun
    · next hpc =>
      rw [hpc] at hok
      cases hbegun
      exact hok.2 i hi hcovers
    · next hpc =>
      rw [hpc] at hok
      cases hbegun
      exact hok.after i hi
    · cases hbegun
  young c hc h' hpc := by
    have hok := h.calls c hc
    rw [hpc] at hok
    exact hok.1
  bounded := h.bounded
  asserted := h.asserted

structure Keeps (s t : St κ ν) : Prop where
  epoch : s.epoch ≤ t.epoch
  clock : s.clock ≤ t.clock
  returned : ∀ i ∈ s.invalidations, i.returned → i ∈ t.invalidations
  held : s.lock.isSome → ∀ i ∈ t.invalidations, i.returned → i ∈ s.invalidations

theorem CallOk.keeps {pc : CallPc κ ν} (h : CallOk lim s c pc) (k : Keeps s t)
    (hlock : s.lock = some c.id → t.lock = some c.id) : CallOk lim t c pc := by
  cases pc with
  | started | missed | failed => trivial
  | snapped => exact h.trans k.epoch
  | loading | loaded | done | hit => exact h
  | stamped => exact ⟨h.1, h.2.trans k.clock⟩
  | inserting load =>
    obtain ⟨hhonest, hnow, hheld, hbumps⟩ := h
    refine ⟨hhonest, hnow.trans k.clock, hlock hheld, fun i hi hret => ?_⟩
    exact hbumps i (k.held (by rw [hheld]; rfl) i hi hret) hret

theorem CacheInv.goto (h : CacheInv lim s) (hc : c ∈ s.calls) (pc : CallPc κ ν) (k : Keeps s t)
    (hcalls : t.calls = s.calls.put { c with pc })
    (hinvalidations : t.invalidations = s.invalidations) (hbumps : s.epoch = t.epoch)
    (hlock : ∀ c' ∈ s.calls, c'.id ≠ c.id → s.lock = some c'.id → t.lock = some c'.id)
    (hok : CallOk lim t c pc)
    (hentries : ∀ e ∈ t.state, e ∈ s.state ∨ e.fetchedAt ≤ e.insertedAt ∧
      ∀ i ∈ s.invalidations, i.returned → i.bump ≤ e.begunAt)
    (hbounded : t.state.rows.length ≤ lim.cap) (hasserted : t.panicked = false) :
    CacheInv lim t where
  bumps i hi := by
    rw [← hbumps]
    exact h.bumps i (hinvalidations ▸ hi)
  after c' hc' i hi := by
    rw [hinvalidations]
    obtain rfl | ⟨hc', -⟩ := Table.mem_put.mp (hcalls ▸ hc')
    · exact h.after c hc i hi
    · exact h.after c' hc' i hi
  entries e he i hi hret hcovers := by
    rw [hinvalidations] at hi
    obtain he | ⟨-, hbump⟩ := hentries e he
    · exact h.entries e he i hi hret hcovers
    · exact hbump i hi hret
  stamps e he := by
    obtain he | ⟨hle, -⟩ := hentries e he
    · exact h.stamps e he
    · exact hle
  calls c' hc' := by
    obtain rfl | ⟨hc', hne⟩ := Table.mem_put.mp (hcalls ▸ hc')
    · exact hok
    · exact (h.calls c' hc').keeps k (hlock c' hc' hne)
  bounded := hbounded
  asserted := hasserted

omit [DecidableEq κ] in
theorem Keeps.goto (s : St κ ν) (c : Call κ ν) (pc : CallPc κ ν) : Keeps s (s.goto c pc) where
  epoch := Nat.le_refl _
  clock := Nat.le_refl _
  returned _ hi _ := hi
  held _ _ hi _ := hi

theorem CacheInv.moves (h : CacheInv lim s) (hc : c ∈ s.calls) {pc : CallPc κ ν}
    (hok : CallOk lim s c pc) : CacheInv lim (s.goto c pc) :=
  h.goto hc pc (.goto s c pc) rfl rfl rfl (fun _ _ _ => id) (hok.keeps (.goto s c pc) id)
    (fun _ => .inl) h.bounded h.asserted

theorem lookupFresh_eq_some {k : κ} {now : Nat} {state : Table (Entry κ ν)} {e : Entry κ ν}
    (h : lookupFresh lim k now state = some e) :
    e ∈ state ∧ e.cacheKey = k ∧ now < e.fetchedAt + lim.ttl := by
  obtain ⟨hfind, hfresh⟩ := Option.filter_eq_some_iff.mp h
  obtain ⟨he, hkey⟩ := Table.find?_eq_some.mp hfind
  refine ⟨he, hkey, ?_⟩
  have hlt : now - e.fetchedAt < lim.ttl := by simpa [Entry.isExpired] using hfresh
  omega

theorem CacheInv.hit (h : CacheInv lim s) (hc : c ∈ s.calls) {now : Nat} {e : Entry κ ν}
    (he : lookupFresh lim c.cacheKey now s.state = some e) :
    CacheInv lim (s.goto c (.hit ⟨e, now, s.clock⟩)) := by
  obtain ⟨hmem, hkey, hyoung⟩ := lookupFresh_eq_some he
  have hstamp := h.stamps e hmem
  refine h.moves hc ⟨Nat.lt_of_lt_of_le hyoung (Nat.add_le_add_right hstamp _), fun i hi hcovers => ?_⟩
  obtain ⟨hi, hret⟩ := h.after c hc i hi
  exact h.entries e hmem i hi hret (hkey ▸ hcovers)

theorem CacheInv.insert (h : CacheInv lim s) (hc : c ∈ s.calls) {load : Load} {value : ν}
    {nowAfter : Nat} (hok : CallOk lim s c (.inserting load value nowAfter)) {iteration : List κ}
    (hperm : iteration.isPerm (s.state.rows.map key) = true) :
    CacheInv lim (insertLocked lim s c load value nowAfter iteration) := by
  obtain ⟨hhonest, hnow, hheld, hbumps⟩ := hok
  obtain ⟨room, hroom, hsub, hlen⟩ := makeRoom_spec nowAfter c.cacheKey hperm h.bounded
  rw [insertLocked, hroom]
  refine h.goto hc (.done load value) ?_ rfl rfl rfl (fun c' _ hne hother => ?_) hhonest
    (fun e he => ?_) (hlen _ rfl) h.asserted
  · exact ⟨Nat.le_refl _, Nat.le_refl _, fun _ hi _ => hi, fun _ _ hi _ => hi⟩
  · exact absurd (Option.some.inj (hother.symm.trans hheld)) hne
  · obtain rfl | ⟨he, -⟩ := Table.mem_put.mp he
    · exact .inr ⟨hnow, fun i hi hret => (hbumps i hi hret).trans hhonest.started⟩
    · exact .inl (hsub e he)

theorem CacheInv.callStep (h : CacheInv lim s) (hc : c ∈ s.calls) {a : Act κ ν}
    (hstep : callStep lim s c c.pc a = some t) : CacheInv lim t := by
  have hok := h.calls c hc
  generalize c.pc = pc at hstep hok
  unfold Cache.callStep at hstep
  split at hstep
  · obtain ⟨-, hstep⟩ := Option.ite_none_right_eq_some.mp hstep
    split at hstep
    · next he =>
      cases hstep
      exact h.hit hc he
    · cases hstep
      exact h.moves hc trivial
  · cases hstep
    exact h.moves hc (Nat.le_refl _)
  · cases hstep
    refine h.moves hc ⟨hok, fun i hi => ?_⟩
    exact h.bumps i (h.after c hc i hi).1
  · cases hstep
    exact h.moves hc hok
  · cases hstep
    exact h.moves hc trivial
  · cases hstep
    exact h.moves hc ⟨hok, Nat.le_refl _⟩
  · next load value nowAfter _ =>
    obtain ⟨hfree, hstep⟩ := Option.ite_none_right_eq_some.mp hstep
    have hfree : s.lock = none := Option.isNone_iff_eq_none.mp hfree
    split at hstep
    · next hepoch =>
      cases hstep
      have hkeeps : Keeps s { s.goto c (.inserting load value nowAfter) with lock := some c.id } :=
        ⟨Nat.le_refl _, Nat.le_refl _, fun _ hi _ => hi, fun _ _ hi _ => hi⟩
      refine h.goto hc _ hkeeps rfl rfl rfl (fun _ _ _ e => ?_) ⟨hok.1, hok.2, rfl, fun i hi _ => ?_⟩
        (fun _ => .inl) h.bounded h.asserted
      · rw [hfree] at e
        cases e
      · exact (h.bumps i hi).trans hepoch.le
    · cases hstep
      exact h.moves hc hok.1
  · obtain ⟨hperm, hstep⟩ := Option.ite_none_right_eq_some.mp hstep
    cases hstep
    exact h.insert hc hok hperm
  · cases hstep

theorem CacheInv.start (h : CacheInv lim s) (call : Nat) (k : κ) :
    CacheInv lim { s with
      calls := s.calls.put ⟨call, k, s.invalidations.rows.filter (·.returned), .started s.clock⟩ } where
  bumps := h.bumps
  after c hc i hi := by
    obtain rfl | ⟨hc, -⟩ := Table.mem_put.mp hc
    · exact List.mem_filter.mp hi
    · exact h.after c hc i hi
  entries := h.entries
  stamps := h.stamps
  calls c hc := by
    obtain rfl | ⟨hc, -⟩ := Table.mem_put.mp hc
    · trivial
    · exact (h.calls c hc).keeps
        ⟨Nat.le_refl _, Nat.le_refl _, fun _ hi _ => hi, fun _ _ hi _ => hi⟩ id
  bounded := h.bounded
  asserted := h.asserted

theorem CacheInv.bump (h : CacheInv lim s) {n : Nat} (hfresh : s.invalidations.find? n = none)
    (scope : Scope κ) :
    CacheInv lim { s with
      epoch := s.epoch + 1
      invalidations := s.invalidations.put ⟨n, scope, s.epoch + 1, false⟩ } := by
  have hold : ∀ i ∈ s.invalidations, i.id ≠ n := Table.find?_eq_none.mp hfresh
  have hreturned : ∀ i ∈ s.invalidations.put ⟨n, scope, s.epoch + 1, false⟩, i.returned →
      i ∈ s.invalidations := by
    intro i hi hret
    obtain rfl | ⟨hi, -⟩ := Table.mem_put.mp hi
    · cases hret
    · exact hi
  have hkept : ∀ i ∈ s.invalidations, i ∈ s.invalidations.put ⟨n, scope, s.epoch + 1, false⟩ :=
    fun i hi => Table.mem_put.mpr (.inr ⟨hi, hold i hi⟩)
  exact {
    bumps := fun i hi => by
      obtain rfl | ⟨hi, -⟩ := Table.mem_put.mp hi
      · exact Nat.le_refl _
      · exact (h.bumps i hi).trans (Nat.le_succ _)
    after := fun c hc i hi => by
      obtain ⟨hi, hret⟩ := h.after c hc i hi
      exact ⟨hkept i hi, hret⟩
    entries := fun e he i hi hret => h.entries e he i (hreturned i hi hret) hret
    stamps := h.stamps
    calls := fun c hc => (h.calls c hc).keeps
      ⟨Nat.le_succ _, Nat.le_refl _, fun i hi _ => hkept i hi, fun _ => hreturned⟩ id
    bounded := h.bounded
    asserted := h.asserted }

theorem CacheInv.remove (h : CacheInv lim s) {i : Invalidation κ} (hi : i ∈ s.invalidations)
    (hpending : i.returned = false) (hfree : s.lock = none) :
    CacheInv lim { s with
      state := s.state.delete fun e => i.scope.covers e.cacheKey
      invalidations := s.invalidations.put { i with returned := true } } where
  bumps j hj := by
    obtain rfl | ⟨hj, -⟩ := Table.mem_put.mp hj
    · exact h.bumps i hi
    · exact h.bumps j hj
  after c hc j hj := by
    obtain ⟨hj, hret⟩ := h.after c hc j hj
    refine ⟨Table.mem_put.mpr (.inr ⟨hj, fun e => ?_⟩), hret⟩
    rw [Table.eq_of_key_eq hj hi e, hpending] at hret
    cases hret
  entries e he j hj hret hcovers := by
    obtain ⟨he, hkept⟩ := Table.mem_delete.mp he
    obtain rfl | ⟨hj, -⟩ := Table.mem_put.mp hj
    · exact absurd (hkept.symm.trans hcovers) (by decide)
    · exact h.entries e he j hj hret hcovers
  stamps e he := h.stamps e (Table.mem_delete.mp he).1
  calls c hc := by
    refine (h.calls c hc).keeps ⟨Nat.le_refl _, Nat.le_refl _, fun j hj hret => ?_, fun hheld => ?_⟩ id
    · refine Table.mem_put.mpr (.inr ⟨hj, fun e => ?_⟩)
      rw [Table.eq_of_key_eq hj hi e, hpending] at hret
      cases hret
    · rw [hfree] at hheld
      cases hheld
  bounded := (List.length_filter_le _ _).trans h.bounded
  asserted := h.asserted

theorem CacheInv.advance (h : CacheInv lim s) (elapsed : Nat) :
    CacheInv lim { s with clock := s.clock + elapsed } where
  bumps := h.bumps
  after := h.after
  entries := h.entries
  stamps := h.stamps
  calls c hc := (h.calls c hc).keeps
    ⟨Nat.le_refl _, Nat.le_add_right _ _, fun _ hi _ => hi, fun _ _ hi _ => hi⟩ id
  bounded := h.bounded
  asserted := h.asserted

theorem CacheInv.step (h : CacheInv lim s) {a : Act κ ν} (hstep : step lim s a = some t) :
    CacheInv lim t := by
  cases a with
  | start call k =>
    obtain ⟨-, hstep⟩ := Option.ite_none_right_eq_some.mp hstep
    cases hstep
    exact h.start call k
  | bump id scope =>
    obtain ⟨hfresh, hstep⟩ := Option.ite_none_right_eq_some.mp hstep
    cases hstep
    exact h.bump (Option.isNone_iff_eq_none.mp hfresh) scope
  | remove id =>
    obtain ⟨i, hi, hstep⟩ := Option.bind_eq_some_iff.mp hstep
    obtain ⟨⟨hpending, hfree⟩, hstep⟩ := Option.ite_none_right_eq_some.mp hstep
    cases hstep
    exact h.remove (Table.mem_of_find? hi) (by simpa using hpending) (Option.isNone_iff_eq_none.mp hfree)
  | advance elapsed =>
    cases hstep
    exact h.advance elapsed
  | lookup | snapshot | load | loaded | stamp | checkEpoch | insert =>
    obtain ⟨c, hc, hstep⟩ := Option.bind_eq_some_iff.mp hstep
    exact h.callStep (Table.mem_of_find? hc) hstep

theorem cacheInv_new (lim : Limits) : CacheInv lim (.new : St κ ν) where
  bumps i hi := absurd hi (Table.not_mem_empty i)
  after c hc := absurd hc (Table.not_mem_empty c)
  entries e he := absurd he (Table.not_mem_empty e)
  stamps e he := absurd he (Table.not_mem_empty e)
  calls c hc := absurd hc (Table.not_mem_empty c)
  bounded := Nat.zero_le _
  asserted := rfl

/-- The age of a hit is judged at the time its call started at. -/
theorem sound_at_start (lim : Limits) (as : List (Act κ ν)) :
    Always (step lim) (Sound lim Hit.now) .new as :=
  (Always.of_inv (fun _ _ _ h hstep => CacheInv.step h hstep) (cacheInv_new lim) as).mono
    fun _ h => h.sound

namespace Sample

def limits : Limits := ⟨1, 60, by decide, by decide⟩

def late : List (Act Nat Nat) :=
  [.start 1 7, .lookup 1, .snapshot 1, .load 1, .loaded 1 (some 42), .stamp 1, .checkEpoch 1,
    .insert 1 [], .start 2 7, .advance 60, .lookup 2]

end Sample

theorem hit_expired : ¬ ∀ (lim : Limits) (as : List (Act Nat Nat)),
    Always (step lim) (Sound lim Hit.hitAt) .new as := by
  intro h
  obtain ⟨s, hrun, hcall⟩ : ∃ s, run (step Sample.limits) .new Sample.late = some s ∧
      s.calls.find? 2 = some ⟨2, 7, [], .hit ⟨⟨7, 42, 0, 0, 0⟩, 0, 60⟩⟩ :=
    ⟨_, rfl, rfl⟩
  have hyoung := ((h Sample.limits Sample.late).run hrun).young _ (Table.mem_of_find? hcall) _ rfl
  exact absurd hyoung (by decide)

end Patom.Cache
