import Patom.Tools.Memory

open Patom.Foundation
open Patom.Runtime (PromptRequestId)

namespace Patom.Tools

structure Counted where
  counter : PerTurnCallCounter
  allowed : List PromptRequestId

def Counted.start (capPerTurn : Nat) : Counted := ⟨.withCap capPerTurn, []⟩

def Counted.call (s : Counted) (request : PromptRequestId) : Counted :=
  let (granted, counter) := s.counter.tryIncrement request
  ⟨counter, if granted.isSome then request :: s.allowed else s.allowed⟩

def countStep : Step Counted PromptRequestId := fun s request => some (s.call request)

def WithinCap (s : Counted) : Prop :=
  ∀ request, s.allowed.count request ≤ s.counter.capPerTurn

/-- The entry of a request that was let through has not been cleared. -/
def Remembered (s : Counted) (request : PromptRequestId) : Prop :=
  request ∈ s.allowed → (s.counter.inner.find? request).isSome

variable {c : PerTurnCallCounter} {s t : Counted} {request other : PromptRequestId}

namespace PerTurnCallCounter

def opened (c : PerTurnCallCounter) (request : PromptRequestId) : Table TurnCalls :=
  if c.bookkeepingMaxEntries ≤ c.inner.rows.length && (c.inner.find? request).isNone then .empty
  else c.inner

def callsOf (c : PerTurnCallCounter) (request : PromptRequestId) : Nat :=
  (((c.opened request).find? request).map (·.calls)).getD 0

theorem tryIncrement_of_spent (h : c.capPerTurn ≤ c.callsOf request) :
    c.tryIncrement request
      = (none, { c with inner := (c.opened request).put ⟨request, c.callsOf request⟩ }) :=
  if_pos h

theorem tryIncrement_of_left (h : c.callsOf request < c.capPerTurn) :
    c.tryIncrement request = (some (c.callsOf request + 1),
      { c with inner := (c.opened request).put ⟨request, c.callsOf request + 1⟩ }) :=
  if_neg (Nat.not_le.mpr h)

theorem opened_of_room (h : c.inner.rows.length < c.bookkeepingMaxEntries) :
    c.opened request = c.inner := by
  rw [opened, decide_eq_false (Nat.not_le.mpr h)]
  rfl

theorem find?_opened {e : TurnCalls} (h : (c.opened request).find? other = some e) :
    c.inner.find? other = some e := by
  unfold opened at h
  split at h
  · cases h
  · exact h

theorem callsOf_of_some {e : TurnCalls} (h : c.inner.find? request = some e) :
    c.callsOf request = e.calls := by
  simp [callsOf, opened, h]

theorem callsOf_of_none (h : c.inner.find? request = none) : c.callsOf request = 0 := by
  have hopened : (c.opened request).find? request = none := by
    cases e : (c.opened request).find? request with
    | none => rfl
    | some r => exact absurd (h.symm.trans (find?_opened e)) (by simp)
  rw [callsOf, hopened]
  rfl

end PerTurnCallCounter

/-- An entry counts every call that was let through. -/
structure CountInv (s : Counted) : Prop where
  entry : ∀ request e, s.counter.inner.find? request = some e →
    e.calls = s.allowed.count request
  within : WithinCap s

theorem CountInv.start (capPerTurn : Nat) : CountInv (.start capPerTurn) where
  entry request e h := by cases h
  within request := Nat.zero_le _

theorem CountInv.callsOf (hi : CountInv s) (h : Remembered s request) :
    s.counter.callsOf request = s.allowed.count request := by
  cases e : s.counter.inner.find? request with
  | some r => rw [PerTurnCallCounter.callsOf_of_some e, hi.entry request r e]
  | none =>
    have hnot : request ∉ s.allowed := fun hmem => by
      have hsome := h hmem
      rw [e] at hsome
      cases hsome
    rw [PerTurnCallCounter.callsOf_of_none e, List.count_eq_zero_of_not_mem hnot]

theorem CountInv.call (hi : CountInv s) (h : Remembered s request) : CountInv (s.call request) := by
  have hcalls := hi.callsOf h
  obtain hspent | hleft := Nat.lt_or_ge (s.counter.callsOf request) s.counter.capPerTurn |>.symm
  · simp only [Counted.call, PerTurnCallCounter.tryIncrement_of_spent hspent]
    refine ⟨fun other e he => ?_, hi.within⟩
    rw [Table.find?_put] at he
    split at he
    · rename_i hkey
      obtain rfl : request = other := hkey
      cases he
      exact hcalls
    · exact hi.entry other e (PerTurnCallCounter.find?_opened he)
  · simp only [Counted.call, PerTurnCallCounter.tryIncrement_of_left hleft]
    refine ⟨fun other e he => ?_, fun other => ?_⟩
    · rw [Table.find?_put] at he
      split at he
      · rename_i hkey
        obtain rfl : request = other := hkey
        cases he
        exact (congrArg (· + 1) hcalls).trans List.count_cons_self.symm
      · rename_i hkey
        have hne : request ≠ other := hkey
        rw [hi.entry other e (PerTurnCallCounter.find?_opened he)]
        exact (List.count_cons_of_ne hne).symm
    · by_cases hkey : request = other
      · subst hkey
        exact List.count_cons_self.trans_le (hcalls ▸ hleft)
      · exact (List.count_cons_of_ne hkey).trans_le (hi.within other)

/-- As long as every call still finds the entry of its request, no request gets more than the
cap. -/
theorem within_of_remembered {capPerTurn : Nat} {calls : List PromptRequestId}
    (h : Steps countStep Remembered (.start capPerTurn) calls) :
    Always countStep WithinCap (.start capPerTurn) calls := by
  refine (Steps.always (fun _ => True) (fun _ _ _ _ _ _ _ => trivial) ?_ trivial
    (.start capPerTurn) h).mono fun _ hi => CountInv.within hi
  intro s request t _ hi hstep hgood
  obtain rfl := Option.some.inj hstep
  exact hi.call hgood

theorem within_of_remembered_twice : Always countStep WithinCap (.start 1) [5, 6, 5] :=
  within_of_remembered (by
    intro s hs
    obtain rfl := Option.some.inj hs
    refine ⟨fun h => absurd h List.not_mem_nil, fun s hs => ?_⟩
    obtain rfl := Option.some.inj hs
    refine ⟨by unfold Remembered; decide +kernel, fun s hs => ?_⟩
    obtain rfl := Option.some.inj hs
    exact ⟨by unfold Remembered; decide +kernel, trivial⟩)

theorem Counted.call_fresh (hcap : 0 < s.counter.capPerTurn)
    (hroom : s.counter.inner.rows.length < s.counter.bookkeepingMaxEntries)
    (hfresh : s.counter.inner.find? request = none) :
    s.call request = ⟨{ s.counter with inner := s.counter.inner.put ⟨request, 1⟩ },
      request :: s.allowed⟩ := by
  have hcalls := PerTurnCallCounter.callsOf_of_none hfresh
  have hleft : s.counter.callsOf request < s.counter.capPerTurn := hcalls ▸ hcap
  simp only [Counted.call, PerTurnCallCounter.tryIncrement_of_left hleft, hcalls,
    PerTurnCallCounter.opened_of_room hroom]
  rfl

structure Filled (next entries : Nat) (s : Counted) : Prop where
  cap : 0 < s.counter.capPerTurn
  max : s.counter.bookkeepingMaxEntries = 1024
  length : s.counter.inner.rows.length = entries
  fresh : ∀ request : PromptRequestId, next ≤ request.toNat →
    s.counter.inner.find? request = none

theorem Filled.call {next entries : Nat} (h : Filled next entries s) (hnext : next < 2 ^ 128)
    (hroom : entries < 1024) : Filled (next + 1) (entries + 1) (s.call (.ofNat 128 next)) := by
  have hto : (BitVec.ofNat 128 next).toNat = next := by
    rw [BitVec.toNat_ofNat, Nat.mod_eq_of_lt hnext]
  have hfresh := h.fresh (.ofNat 128 next) hto.ge
  rw [Counted.call_fresh h.cap (by rw [h.length, h.max]; exact hroom) hfresh]
  refine ⟨h.cap, h.max, ?_, fun request hrequest => ?_⟩
  · refine (Table.length_put _ _).trans ?_
    have hnone : s.counter.inner.find? (key (TurnCalls.mk (.ofNat 128 next) 1)) = none := hfresh
    rw [if_pos (Option.isNone_iff_eq_none.mpr hnone), h.length]
  · refine (Table.find?_put_ne _ fun e : BitVec.ofNat 128 next = request => ?_).trans
      (h.fresh request (by omega))
    rw [← e, hto] at hrequest
    exact Nat.not_succ_le_self next hrequest

def freshCalls (next n : Nat) : List PromptRequestId :=
  (List.range' next n).map (BitVec.ofNat 128)

theorem Filled.calls (n : Nat) {next entries : Nat} (h : Filled next entries s)
    (hnext : next + n ≤ 2 ^ 128) (hroom : entries + n ≤ 1024) :
    Filled (next + n) (entries + n) ((freshCalls next n).foldl Counted.call s) := by
  induction n generalizing s next entries with
  | zero => exact h
  | succ n ih =>
    have hrest := ih (h.call (by omega) (by omega)) (by omega) (by omega)
    rwa [Nat.add_right_comm next 1 n, Nat.add_right_comm entries 1 n] at hrest

@[simp] theorem Counted.capPerTurn_call (s : Counted) (request : PromptRequestId) :
    (s.call request).counter.capPerTurn = s.counter.capPerTurn := by
  obtain hspent | hleft :=
    Nat.lt_or_ge (s.counter.callsOf request) s.counter.capPerTurn |>.symm
  · simp only [Counted.call, PerTurnCallCounter.tryIncrement_of_spent hspent]
  · simp only [Counted.call, PerTurnCallCounter.tryIncrement_of_left hleft]

@[simp] theorem Counted.capPerTurn_calls (s : Counted) (calls : List PromptRequestId) :
    (calls.foldl Counted.call s).counter.capPerTurn = s.counter.capPerTurn := by
  induction calls generalizing s with
  | nil => rfl
  | cons request calls ih => exact (ih _).trans (s.capPerTurn_call request)

theorem Counted.suffix_call (s : Counted) (request : PromptRequestId) :
    s.allowed <:+ (s.call request).allowed := by
  simp only [Counted.call]
  split
  · exact List.suffix_cons _ _
  · exact List.suffix_rfl

theorem Counted.suffix_calls (s : Counted) (calls : List PromptRequestId) :
    s.allowed <:+ (calls.foldl Counted.call s).allowed := by
  induction calls generalizing s with
  | nil => exact List.suffix_rfl
  | cons request calls ih => exact (s.suffix_call request).trans (ih _)

theorem Counted.call_cleared (hcap : 0 < s.counter.capPerTurn)
    (hfull : s.counter.bookkeepingMaxEntries ≤ s.counter.inner.rows.length)
    (hother : s.counter.inner.find? other = none) (hne : other ≠ request) :
    ((s.call other).call request).allowed = request :: other :: s.allowed := by
  have hopened : s.counter.opened other = .empty :=
    if_pos (by simp [hfull, hother])
  have hleft : s.counter.callsOf other < s.counter.capPerTurn :=
    PerTurnCallCounter.callsOf_of_none hother ▸ hcap
  have hcall : s.call other = ⟨{ s.counter with
      inner := .single ⟨other, s.counter.callsOf other + 1⟩ }, other :: s.allowed⟩ := by
    simp only [Counted.call, PerTurnCallCounter.tryIncrement_of_left hleft, hopened,
      Table.put_empty]
    rfl
  rw [hcall]
  have hnone : (Table.single (TurnCalls.mk other (s.counter.callsOf other + 1))).find? request
      = none :=
    Table.find?_eq_none.mpr fun r hr => by
      obtain rfl := List.mem_singleton.mp hr
      exact hne
  simp only [Counted.call]
  rw [PerTurnCallCounter.tryIncrement_of_left]
  · rfl
  · rw [PerTurnCallCounter.callsOf_of_none hnone]
    exact hcap

theorem run_countStep (s : Counted) (calls : List PromptRequestId) :
    run countStep s calls = some (calls.foldl Counted.call s) := by
  induction calls generalizing s with
  | nil => rfl
  | cons request calls ih => exact ih (s.call request)

def ninthCall : List PromptRequestId :=
  List.replicate MAX_MEMORY_MUTATIONS_PER_TURN 0 ++ freshCalls 1 1023 ++ [.ofNat 128 1024, 0]

def spentTurn : Counted :=
  (List.replicate MAX_MEMORY_MUTATIONS_PER_TURN 0).foldl Counted.call
    (.start MAX_MEMORY_MUTATIONS_PER_TURN)

theorem spentTurn_filled : Filled 1 1 spentTurn := by
  have hrows : spentTurn.counter.inner.rows = [⟨0, 8⟩] := by decide +kernel
  refine ⟨by decide +kernel, rfl, by rw [hrows]; rfl, fun request hrequest => ?_⟩
  refine Table.find?_eq_none.mpr fun r hr => ?_
  rw [Table.mem_def, hrows] at hr
  obtain rfl := List.mem_singleton.mp hr
  rintro rfl
  exact absurd hrequest (by decide)

theorem Filled.again {n : Nat} (h : Filled 1024 1024 s) (hcount : n ≤ s.allowed.count 0) :
    n + 1 ≤ ([.ofNat 128 1024, 0].foldl Counted.call s).allowed.count 0 := by
  have hcleared : ((s.call (.ofNat 128 1024)).call 0).allowed
      = 0 :: .ofNat 128 1024 :: s.allowed :=
    Counted.call_cleared h.cap (by rw [h.max, h.length])
      (h.fresh (.ofNat 128 1024) (by decide)) (by decide)
  rw [List.foldl_cons, List.foldl_cons, List.foldl_nil, hcleared, List.count_cons_self]
  exact Nat.succ_le_succ (hcount.trans ((List.sublist_cons_self _ _).count_le 0))

theorem nine_le_allowed : 8 + 1 ≤
    (ninthCall.foldl Counted.call (.start MAX_MEMORY_MUTATIONS_PER_TURN)).allowed.count 0 := by
  have hfull := spentTurn_filled.calls 1023 (by norm_num) (by norm_num)
  have hspent : 8 ≤ spentTurn.allowed.count 0 := by decide +kernel
  have hbefore := hspent.trans ((spentTurn.suffix_calls (freshCalls 1 1023)).sublist.count_le 0)
  have hturn : (List.replicate MAX_MEMORY_MUTATIONS_PER_TURN 0).foldl Counted.call
      (.start MAX_MEMORY_MUTATIONS_PER_TURN) = spentTurn := rfl
  rw [ninthCall, List.foldl_append, List.foldl_append, hturn]
  exact hfull.again hbefore

theorem not_withinCap :
    ¬ ∀ capPerTurn calls, Always countStep WithinCap (.start capPerTurn) calls := by
  intro h
  have hrun := run_countStep (.start MAX_MEMORY_MUTATIONS_PER_TURN) ninthCall
  have hnine := nine_le_allowed
  have hcap := Counted.capPerTurn_calls (.start MAX_MEMORY_MUTATIONS_PER_TURN) ninthCall
  generalize ninthCall.foldl Counted.call (.start MAX_MEMORY_MUTATIONS_PER_TURN) = t
    at hrun hnine hcap
  have hwithin : t.allowed.count 0 ≤ t.counter.capPerTurn :=
    (h MAX_MEMORY_MUTATIONS_PER_TURN ninthCall).run hrun 0
  rw [hcap] at hwithin
  exact absurd (hnine.trans hwithin) (by decide)

end Patom.Tools
