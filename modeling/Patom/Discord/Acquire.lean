import Patom.Discord.Budget
import Patom.Foundation.Transition

open Patom.Foundation

namespace Patom.Discord.Acquire

/-- The clock is read before the lock is taken. -/
inductive Phase
  | reading
  | locking (now : ℚ)
  | sleeping (wake : ℚ)

structure Caller where
  id : Nat
  attempt : Nat
  phase : Phase

instance callerKeyed : Keyed Caller Nat := ⟨(·.id)⟩

structure AcquireSt where
  clock : ℚ
  bucket : Option TokenBucket
  callers : Table Caller
  returns : List ℚ

inductive AcquireAct
  | tick (elapsed : ℚ)
  | call (id : Nat)
  | read (id : Nat)
  | access (id : Nat)
  | wake (id : Nat)

def AcquireSt.start (now : ℚ) : AcquireSt := ⟨now, none, .empty, []⟩

def AcquireSt.return_ (s : AcquireSt) (id : Nat) : AcquireSt :=
  { s with callers := s.callers.delete (·.id = id), returns := s.clock :: s.returns }

def AcquireSt.access (s : AcquireSt) (caller : Caller) (now : ℚ) : AcquireSt :=
  let (wait, bucket) := (s.bucket.getD (.fresh now)).tryTake now
  let s := { s with bucket := some bucket }
  match wait with
  | none => s.return_ caller.id
  | some wait =>
    let callers := s.callers.put { caller with phase := .sleeping (s.clock + wait) }
    { s with callers }

def AcquireSt.wake (s : AcquireSt) (caller : Caller) : AcquireSt :=
  if caller.attempt < DISCORD_GLOBAL_RATE_PER_SEC then
    { s with callers := s.callers.put ⟨caller.id, caller.attempt + 1, .reading⟩ }
  else s.return_ caller.id

def acquireStep : Step AcquireSt AcquireAct
  | s, .tick elapsed => if 0 ≤ elapsed then some { s with clock := s.clock + elapsed } else none
  | s, .call id => (s.callers.insert? ⟨id, 0, .reading⟩).map fun callers => { s with callers }
  | s, .read id => (s.callers.find? id).bind fun caller =>
    match caller.phase with
    | .reading =>
      let callers := s.callers.put { caller with phase := .locking s.clock }
      some { s with callers }
    | _ => none
  | s, .access id => (s.callers.find? id).bind fun caller =>
    match caller.phase with
    | .locking now => some (s.access caller now)
    | _ => none
  | s, .wake id => (s.callers.find? id).bind fun caller =>
    match caller.phase with
    | .sleeping wake => if wake ≤ s.clock then some (s.wake caller) else none
    | _ => none

def returnsIn (returns : List ℚ) (first last : ℚ) : Nat :=
  returns.countP fun r => first ≤ r && r ≤ last

def RateBound (s : AcquireSt) : Prop := ∀ first t : ℚ, 0 ≤ t →
  returnsIn s.returns first (first + t) ≤ DISCORD_GLOBAL_RATE_PER_SEC * (1 + t)

def Phase.isStale (clock : ℚ) : Phase → Bool
  | .locking now => now ≠ clock
  | .reading | .sleeping _ => false

/-- No time passes between reading the clock and taking the lock, and no call runs out of
attempts. -/
def prompt (s : AcquireSt) : AcquireAct → Bool
  | .access id => (s.callers.find? id).all fun caller => !caller.phase.isStale s.clock
  | .wake id => (s.callers.find? id).all fun caller => caller.attempt < DISCORD_GLOBAL_RATE_PER_SEC
  | .tick _ | .call _ | .read _ => true

def Prompt (s : AcquireSt) (a : AcquireAct) : Prop := prompt s a = true

instance promptDecidable (s : AcquireSt) (a : AcquireAct) : Decidable (Prompt s a) :=
  inferInstanceAs (Decidable (prompt s a = true))

/-- The returns since a time, and the tokens that are left, are paid for by the cap and the time
since. -/
structure Paid (b : TokenBucket) (returns : List ℚ) : Prop where
  nonneg : 0 ≤ b.tokens
  cap : b.tokens ≤ 50
  behind : ∀ r ∈ returns, r ≤ b.last
  room : ∀ first ≤ b.last,
    (returns.countP fun r => first ≤ r) + b.tokens ≤ 50 + 50 * (b.last - first)

variable {b : TokenBucket} {returns : List ℚ} {now : ℚ} {s t : AcquireSt}

theorem rate_eq : (DISCORD_GLOBAL_RATE_PER_SEC : ℚ) = 50 := rfl

theorem refill_tokens (hnow : b.last ≤ now) :
    (b.refill now).tokens = min ((now - b.last) * 50 + b.tokens) 50 := by
  rw [TokenBucket.refill, rate_eq, max_eq_left (sub_nonneg.mpr hnow)]

theorem Paid.fresh (now : ℚ) : Paid (.fresh now) [] where
  nonneg := by norm_num [TokenBucket.fresh, rate_eq]
  cap := by norm_num [TokenBucket.fresh, rate_eq]
  behind r hr := absurd hr List.not_mem_nil
  room first hfirst := by
    have hpos : 0 ≤ now - first := sub_nonneg.mpr hfirst
    simp only [TokenBucket.fresh, rate_eq, List.countP_nil, Nat.cast_zero]
    linarith

theorem Paid.refill (h : Paid b returns) (hnow : b.last ≤ now) : Paid (b.refill now) returns where
  nonneg := by
    rw [refill_tokens hnow]
    have hnonneg := h.nonneg
    exact le_min (by linarith) (by norm_num)
  cap := by
    rw [refill_tokens hnow]
    exact min_le_right _ _
  behind r hr := (h.behind r hr).trans hnow
  room first hfirst := by
    have hfirst' : first ≤ now := hfirst
    rw [refill_tokens hnow]
    change _ ≤ 50 + 50 * (now - first)
    obtain hold | hnew := le_or_gt first b.last
    · have hroom := h.room first hold
      have hmin := min_le_left ((now - b.last) * 50 + b.tokens) 50
      linarith
    · have hnone : (returns.countP fun r => first ≤ r) = 0 :=
        List.countP_eq_zero.mpr fun r hr hle =>
          absurd (of_decide_eq_true hle) (not_le.mpr ((h.behind r hr).trans_lt hnew))
      have hmin := min_le_right ((now - b.last) * 50 + b.tokens) 50
      rw [hnone, Nat.cast_zero]
      linarith

theorem Paid.take (h : Paid b returns) (htoken : 1 ≤ b.tokens) :
    Paid { b with tokens := b.tokens - 1 } (b.last :: returns) where
  nonneg := sub_nonneg.mpr htoken
  cap := (sub_le_self _ zero_le_one).trans h.cap
  behind := List.forall_mem_cons.mpr ⟨le_rfl, h.behind⟩
  room first hfirst := by
    have hroom := h.room first hfirst
    have hcount : ((b.last :: returns).countP fun r => first ≤ r)
        = (returns.countP fun r => first ≤ r) + 1 :=
      List.countP_cons_of_pos (decide_eq_true hfirst)
    rw [hcount, Nat.cast_succ]
    change _ + (b.tokens - 1) ≤ 50 + 50 * (b.last - first)
    linarith

theorem Paid.bound (h : Paid b (b.last :: returns))
    (hbound : ∀ first t : ℚ, 0 ≤ t → (returnsIn returns first (first + t) : ℚ) ≤ 50 * (1 + t))
    {first t : ℚ} (ht : 0 ≤ t) :
    (returnsIn (b.last :: returns) first (first + t) : ℚ) ≤ 50 * (1 + t) := by
  by_cases hin : first ≤ b.last ∧ b.last ≤ first + t
  · have hroom := h.room first hin.1
    have hle : returnsIn (b.last :: returns) first (first + t)
        ≤ (b.last :: returns).countP fun r => first ≤ r :=
      List.countP_mono_left fun r _ hr => (Bool.and_eq_true_iff.mp hr).1
    have hle' : (returnsIn (b.last :: returns) first (first + t) : ℚ)
        ≤ ((b.last :: returns).countP fun r => first ≤ r : ℕ) := Nat.cast_le.mpr hle
    have hnonneg := h.nonneg
    linarith [hin.2]
  · have hsame : returnsIn (b.last :: returns) first (first + t)
        = returnsIn returns first (first + t) :=
      List.countP_cons_of_neg (by simpa using hin)
    rw [hsame]
    exact hbound first t ht

structure RateInv (s : AcquireSt) : Prop where
  bound : RateBound s
  none : s.bucket = none → s.returns = []
  some : ∀ b ∈ s.bucket, Paid b s.returns ∧ b.last ≤ s.clock

theorem RateInv.start (now : ℚ) : RateInv (.start now) where
  bound first t ht := by
    have hnone : returnsIn (AcquireSt.start now).returns first (first + t) = 0 := rfl
    rw [hnone, Nat.cast_zero, rate_eq]
    linarith
  none _ := rfl
  some b hb := by cases hb

theorem RateInv.frame (hi : RateInv s) (hclock : s.clock ≤ t.clock) (hbucket : t.bucket = s.bucket)
    (hreturns : t.returns = s.returns) : RateInv t where
  bound first time ht := by
    rw [hreturns]
    exact hi.bound first time ht
  none h := by
    rw [hreturns]
    exact hi.none (hbucket ▸ h)
  some b hb := by
    obtain ⟨hpaid, hlast⟩ := hi.some b (hbucket ▸ hb)
    rw [hreturns]
    exact ⟨hpaid, hlast.trans hclock⟩

theorem RateInv.found (hi : RateInv s) : Paid (s.bucket.getD (.fresh s.clock)) s.returns ∧
    (s.bucket.getD (.fresh s.clock)).last ≤ s.clock := by
  cases hb : s.bucket with
  | none =>
    rw [hi.none hb]
    exact ⟨.fresh s.clock, le_rfl⟩
  | some b => exact hi.some b hb

theorem RateInv.access (hi : RateInv s) (caller : Caller) : RateInv (s.access caller s.clock) := by
  obtain ⟨hfound, hlast⟩ := hi.found
  have hpaid := hfound.refill hlast
  unfold AcquireSt.access TokenBucket.tryTake
  by_cases htoken : 1 ≤ ((s.bucket.getD (.fresh s.clock)).refill s.clock).tokens
  · have htake := hpaid.take htoken
    rw [if_pos htoken]
    refine ⟨fun first t ht => htake.bound hi.bound ht, fun h => (by cases h), fun b hb => ?_⟩
    obtain rfl := Option.some.inj hb
    exact ⟨htake, le_rfl⟩
  · rw [if_neg htoken]
    refine ⟨hi.bound, fun h => (by cases h), fun b hb => ?_⟩
    obtain rfl := Option.some.inj hb
    exact ⟨hpaid, le_rfl⟩

theorem RateInv.step (hi : RateInv s) {a : AcquireAct} (h : acquireStep s a = .some t)
    (hprompt : Prompt s a) : RateInv t := by
  cases a with
  | tick elapsed =>
    obtain ⟨helapsed, h⟩ := Option.ite_none_right_eq_some.mp h
    obtain rfl := Option.some.inj h
    exact hi.frame (le_add_of_nonneg_right helapsed) rfl rfl
  | call id =>
    obtain ⟨callers, -, rfl⟩ := Option.map_eq_some_iff.mp h
    exact hi.frame le_rfl rfl rfl
  | read id =>
    obtain ⟨⟨id, attempt, phase⟩, -, h⟩ := Option.bind_eq_some_iff.mp h
    cases phase with
    | reading =>
      obtain rfl := Option.some.inj h
      exact hi.frame le_rfl rfl rfl
    | locking now => cases h
    | sleeping wake => cases h
  | access id =>
    obtain ⟨⟨id, attempt, phase⟩, hcaller, h⟩ := Option.bind_eq_some_iff.mp h
    cases phase with
    | reading => cases h
    | locking now =>
      have hfresh : (decide (now ≠ s.clock)) = false := by
        rw [Prompt, prompt, hcaller, Option.all_some, Bool.not_eq_true'] at hprompt
        exact hprompt
      obtain rfl : now = s.clock := not_not.mp (of_decide_eq_false hfresh)
      obtain rfl := Option.some.inj h
      exact hi.access _
    | sleeping wake => cases h
  | wake id =>
    obtain ⟨⟨id, attempt, phase⟩, hcaller, h⟩ := Option.bind_eq_some_iff.mp h
    cases phase with
    | reading => cases h
    | locking now => cases h
    | sleeping wake =>
      obtain ⟨-, h⟩ := Option.ite_none_right_eq_some.mp h
      obtain rfl := Option.some.inj h
      rw [Prompt, prompt, hcaller, Option.all_some, decide_eq_true_iff] at hprompt
      rw [AcquireSt.wake, if_pos hprompt]
      exact hi.frame le_rfl rfl rfl

/-- Prompt callers that do not run out of attempts stay within the rate. -/
theorem rateBound_of_prompt {now : ℚ} {acts : List AcquireAct}
    (h : Steps acquireStep Prompt (.start now) acts) :
    Always acquireStep RateBound (.start now) acts :=
  (Steps.always (fun _ => True) (fun _ _ _ _ _ _ _ => trivial)
    (fun _ _ _ _ hi hstep hprompt => RateInv.step hi hstep hprompt) trivial (.start now) h).mono
    fun _ hi => hi.bound

def lucky (id : Nat) : List AcquireAct := [.call id, .read id, .access id]

def outpaced : Nat → List AcquireAct
  | 0 => []
  | n + 1 => outpaced n ++ [.tick (1 / 50)] ++ lucky (n + 51) ++ [.wake 0, .read 0, .access 0]

def burst : Nat → List AcquireAct
  | 0 => []
  | n + 1 => burst n ++ lucky (n + 1)

def outOfAttempts : List AcquireAct :=
  burst 50 ++ [.call 0, .read 0, .access 0] ++ outpaced 50 ++ [.tick (1 / 50)] ++ lucky 101
    ++ [.wake 0]

def overtaken : List AcquireAct :=
  [.call 0, .read 0, .tick 1] ++ burst 50 ++ [.access 0] ++ lucky 51

theorem not_rateBound :
    (¬Always acquireStep RateBound (.start 0) outOfAttempts) ∧
      ¬Always acquireStep RateBound (.start 0) overtaken := by
  constructor
  · intro h
    have hrun : ((run acquireStep (.start 0) outOfAttempts).any fun s =>
        101 < returnsIn s.returns 0 (0 + 51 / 50)) = true := by decide +kernel
    obtain ⟨s, hs, hmany⟩ := (Option.any_eq_true _ _).mp hrun
    have hbound := h.run hs 0 (51 / 50) (by norm_num)
    have hmany' : (101 : ℚ) < returnsIn s.returns 0 (0 + 51 / 50) :=
      Nat.cast_lt.mpr (of_decide_eq_true hmany)
    rw [rate_eq] at hbound
    linarith
  · intro h
    have hrun : ((run acquireStep (.start 0) overtaken).any fun s =>
        50 < returnsIn s.returns 1 (1 + 0)) = true := by decide +kernel
    obtain ⟨s, hs, hmany⟩ := (Option.any_eq_true _ _).mp hrun
    have hbound := h.run hs 1 0 le_rfl
    have hmany' : (50 : ℚ) < returnsIn s.returns 1 (1 + 0) :=
      Nat.cast_lt.mpr (of_decide_eq_true hmany)
    rw [rate_eq] at hbound
    linarith

theorem rateBound_of_prompt_burst : Always acquireStep RateBound (.start 0) (burst 50
    ++ [.call 51, .read 51, .access 51, .tick (1 / 50), .wake 51, .read 51, .access 51]) :=
  rateBound_of_prompt (by decide +kernel)

end Patom.Discord.Acquire
