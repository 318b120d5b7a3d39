import Mathlib.Data.Rat.Floor
import Patom.Discord.Connection
import Patom.Foundation.Table
import Patom.Foundation.Transition

/-! The bucket of send tokens of a bot, in exact seconds, and the budget of invalid responses that
all bots of an egress share, in nanoseconds. -/

open Patom.Foundation

namespace Patom.Discord

def DISCORD_INVALID_REQUEST_BUDGET : Nat := 10000
def DISCORD_INVALID_REQUEST_WINDOW : Nat := 10 * 60 * 1000000000

def DISCORD_GLOBAL_RATE_PER_SEC : Nat := 50

structure TokenBucket where
  tokens : ℚ
  last : ℚ

namespace TokenBucket

def fresh (now : ℚ) : TokenBucket := ⟨DISCORD_GLOBAL_RATE_PER_SEC, now⟩

/-- Time that has gone back counts as none. -/
def refill (b : TokenBucket) (now : ℚ) : TokenBucket :=
  ⟨min (max (now - b.last) 0 * DISCORD_GLOBAL_RATE_PER_SEC + b.tokens)
    DISCORD_GLOBAL_RATE_PER_SEC, now⟩

def tryTake (b : TokenBucket) (now : ℚ) : Option ℚ × TokenBucket :=
  let b := b.refill now
  if 1 ≤ b.tokens then (none, { b with tokens := b.tokens - 1 })
  else (some ((1 - b.tokens) / DISCORD_GLOBAL_RATE_PER_SEC), b)

end TokenBucket

structure InvalidBudget where
  windowStart : Nat
  count : Nat
  deriving DecidableEq

namespace InvalidBudget

def fresh (now : Nat) : InvalidBudget := ⟨now, 0⟩

def current (b : InvalidBudget) (now : Nat) : InvalidBudget :=
  if DISCORD_INVALID_REQUEST_WINDOW < now - b.windowStart then ⟨now, 0⟩ else b

/-- The count is a `u32` that saturates. -/
def recordInvalid (b : InvalidBudget) (now : Nat) : InvalidBudget :=
  { b.current now with count := min ((b.current now).count + 1) (2 ^ 32 - 1) }

def exhausted (b : InvalidBudget) (now : Nat) : Bool :=
  if DISCORD_INVALID_REQUEST_WINDOW < now - b.windowStart then false
  else DISCORD_INVALID_REQUEST_BUDGET ≤ b.count

end InvalidBudget

def isInvalid (status : Nat) : Bool := status = 401 || status = 403 || status = 429

end Patom.Discord

namespace Patom.Discord.Budget

structure Recorded where
  window : Nat
  time : Nat
  deriving DecidableEq

structure BudgetSt where
  budget : InvalidBudget
  clock : Nat
  inFlight : Bool
  log : List Recorded

inductive BudgetAct
  | send (now : Nat)
  | respond (now : Nat) (status : Nat)

def BudgetSt.start (now : Nat) : BudgetSt := ⟨.fresh now, now, false, []⟩

def BudgetSt.record (s : BudgetSt) (now : Nat) : BudgetSt :=
  let budget := s.budget.recordInvalid now
  ⟨budget, now, false, ⟨budget.windowStart, now⟩ :: s.log⟩

def budgetStep : Step BudgetSt BudgetAct
  | s, .send now =>
    if s.clock ≤ now && !s.inFlight && !s.budget.exhausted now then
      some { s with clock := now, inFlight := true }
    else none
  | s, .respond now status =>
    if s.clock ≤ now && s.inFlight then
      some (if isInvalid status then s.record now else { s with clock := now, inFlight := false })
    else none

def inInterval (first : Nat) (r : Recorded) : Bool :=
  first ≤ r.time && r.time ≤ first + DISCORD_INVALID_REQUEST_WINDOW

def within (log : List Recorded) (first : Nat) : Nat :=
  log.countP fun r => inInterval first r

def countedIn (log : List Recorded) (window : Nat) : Nat := log.countP fun r => r.window = window

def Rolling (s : BudgetSt) : Prop := ∀ first, within s.log first ≤ DISCORD_INVALID_REQUEST_BUDGET

structure Bounded (s : BudgetSt) : Prop where
  window : ∀ w, countedIn s.log w ≤ DISCORD_INVALID_REQUEST_BUDGET
  interval : ∀ first, within s.log first ≤ 2 * DISCORD_INVALID_REQUEST_BUDGET

structure Windows (log : List Recorded) (windowStart : Nat) : Prop where
  span : ∀ r ∈ log, r.window ≤ r.time ∧ r.time ≤ r.window + DISCORD_INVALID_REQUEST_WINDOW
  spaced : ∀ r ∈ log, ∀ r' ∈ log, r.window < r'.window →
    r.window + DISCORD_INVALID_REQUEST_WINDOW < r'.window
  last : ∀ r ∈ log, r.window = windowStart ∨
    r.window + DISCORD_INVALID_REQUEST_WINDOW < windowStart

structure BudgetInv (s : BudgetSt) : Prop where
  windows : Windows s.log s.budget.windowStart
  opened : s.budget.windowStart ≤ s.clock
  counted : countedIn s.log s.budget.windowStart = s.budget.count
  bounded : ∀ w, countedIn s.log w ≤ DISCORD_INVALID_REQUEST_BUDGET
  room : s.inFlight = true → s.budget.exhausted s.clock = false

variable {s t : BudgetSt} {now : Nat} {log : List Recorded} {windowStart : Nat}

theorem countP_le_add {α : Type*} {l : List α} {p q q' : α → Bool}
    (h : ∀ a ∈ l, p a = true → q a = true ∨ q' a = true) :
    l.countP p ≤ l.countP q + l.countP q' := by
  induction l with
  | nil => exact Nat.zero_le _
  | cons a l ih =>
    have hrest := ih fun b hb => h b (List.mem_cons_of_mem a hb)
    rw [List.countP_cons, List.countP_cons, List.countP_cons]
    by_cases hp : p a = true
    · obtain hq | hq := h a List.mem_cons_self hp
      · rw [if_pos hp, if_pos hq]
        omega
      · rw [if_pos hp, if_pos hq]
        omega
    · rw [if_neg hp]
      omega

theorem Windows.third (h : Windows log windowStart) {first : Nat} {r r' r'' : Recorded}
    (hr : r ∈ log) (hr' : r' ∈ log) (hr'' : r'' ∈ log) (hfirst : inInterval first r = true)
    (hlast : inInterval first r'' = true) (hlt : r.window < r'.window)
    (hlt' : r'.window < r''.window) : False := by
  have hspaced := h.spaced r hr r' hr' hlt
  have hspaced' := h.spaced r' hr' r'' hr'' hlt'
  have hspan := (h.span r hr).2
  have hspan'' := (h.span r'' hr'').1
  have hfirst' := of_decide_eq_true (Bool.and_eq_true_iff.mp hfirst).1
  have hlast' := of_decide_eq_true (Bool.and_eq_true_iff.mp hlast).2
  omega

theorem Windows.two (h : Windows log windowStart) (first : Nat) : ∃ w w', ∀ r ∈ log,
    inInterval first r = true → r.window = w ∨ r.window = w' := by
  by_cases hsome : ∃ w, ∃ r ∈ log, inInterval first r = true ∧ r.window = w
  · obtain ⟨r₀, hr₀, hin₀, hw₀⟩ := Nat.find_spec hsome
    have hmin : ∀ r ∈ log, inInterval first r = true → r₀.window ≤ r.window := fun r hr hin =>
      hw₀ ▸ Nat.find_min' hsome ⟨r, hr, hin, rfl⟩
    by_cases hother : ∃ r ∈ log, inInterval first r = true ∧ r.window ≠ r₀.window
    · obtain ⟨r₁, hr₁, hin₁, hne₁⟩ := hother
      have hlt₁ := Nat.lt_of_le_of_ne (hmin r₁ hr₁ hin₁) hne₁.symm
      refine ⟨r₀.window, r₁.window, fun r hr hin => ?_⟩
      by_cases hne : r.window = r₀.window
      · exact .inl hne
      · have hlt := Nat.lt_of_le_of_ne (hmin r hr hin) (Ne.symm hne)
        obtain hbelow | heq | habove := Nat.lt_trichotomy r.window r₁.window
        · exact (h.third hr₀ hr hr₁ hin₀ hin₁ hlt hbelow).elim
        · exact .inr heq
        · exact (h.third hr₀ hr₁ hr hin₀ hin hlt₁ habove).elim
    · refine ⟨r₀.window, r₀.window, fun r hr hin => .inl ?_⟩
      by_contra hne
      exact hother ⟨r, hr, hin, hne⟩
  · exact ⟨0, 0, fun r hr hin => absurd ⟨r.window, r, hr, hin, rfl⟩ hsome⟩

theorem BudgetInv.bounds (hi : BudgetInv s) : Bounded s where
  window := hi.bounded
  interval first := by
    obtain ⟨w, w', htwo⟩ := hi.windows.two first
    have hle : within s.log first ≤ countedIn s.log w + countedIn s.log w' :=
      countP_le_add fun r hr hin => (htwo r hr hin).imp decide_eq_true decide_eq_true
    have hw := hi.bounded w
    have hw' := hi.bounded w'
    omega

theorem BudgetInv.start (now : Nat) : BudgetInv (.start now) where
  windows := ⟨fun _ h => absurd h List.not_mem_nil, fun _ h => absurd h List.not_mem_nil,
    fun _ h => absurd h List.not_mem_nil⟩
  opened := le_rfl
  counted := rfl
  bounded w := Nat.zero_le _
  room h := by cases h

theorem Windows.cons (h : Windows log windowStart) {r : Recorded}
    (hspan : r.window ≤ r.time ∧ r.time ≤ r.window + DISCORD_INVALID_REQUEST_WINDOW)
    (hlast : ∀ r' ∈ log, r'.window = r.window ∨
      r'.window + DISCORD_INVALID_REQUEST_WINDOW < r.window) :
    Windows (r :: log) r.window where
  span := List.forall_mem_cons.mpr ⟨hspan, h.span⟩
  spaced r₁ hr₁ r₂ hr₂ hlt := by
    obtain heq₁ | hr₁ := List.mem_cons.mp hr₁
    · obtain heq₂ | hr₂ := List.mem_cons.mp hr₂
      · rw [heq₁, heq₂] at hlt
        exact absurd hlt (Nat.lt_irrefl _)
      · rw [heq₁] at hlt
        obtain heq | hfar := hlast r₂ hr₂ <;> omega
    · obtain heq₂ | hr₂ := List.mem_cons.mp hr₂
      · rw [heq₂] at hlt ⊢
        obtain heq | hfar := hlast r₁ hr₁
        · omega
        · exact hfar
      · exact h.spaced r₁ hr₁ r₂ hr₂ hlt
  last := List.forall_mem_cons.mpr ⟨.inl rfl, hlast⟩

theorem countedIn_cons (log : List Recorded) (r : Recorded) (w : Nat) :
    countedIn (r :: log) w = countedIn log w + if r.window = w then 1 else 0 := by
  rw [countedIn, List.countP_cons, countedIn]
  simp only [decide_eq_true_eq]

theorem BudgetInv.push (hi : BudgetInv s) {window time count : Nat} (hopened : window ≤ time)
    (htime : time ≤ window + DISCORD_INVALID_REQUEST_WINDOW)
    (hlast : ∀ r ∈ s.log, r.window = window ∨
      r.window + DISCORD_INVALID_REQUEST_WINDOW < window)
    (hcount : countedIn s.log window = count) (hroom : count < DISCORD_INVALID_REQUEST_BUDGET) :
    BudgetInv ⟨⟨window, count + 1⟩, time, false, ⟨window, time⟩ :: s.log⟩ where
  windows := hi.windows.cons ⟨hopened, htime⟩ hlast
  opened := hopened
  counted := by rw [countedIn_cons, hcount, if_pos rfl]
  bounded w := by
    rw [countedIn_cons]
    split
    · rename_i hw
      rw [← hw, hcount]
      exact hroom
    · exact hi.bounded w
  room h := by cases h

theorem BudgetInv.record (hi : BudgetInv s) (hclock : s.clock ≤ now) (hflight : s.inFlight = true) :
    BudgetInv (s.record now) := by
  have hopened := hi.opened
  by_cases hover : DISCORD_INVALID_REQUEST_WINDOW < now - s.budget.windowStart
  · have hcurrent : s.budget.current now = ⟨now, 0⟩ := if_pos hover
    have hrecord : s.budget.recordInvalid now = ⟨now, 1⟩ := by
      rw [InvalidBudget.recordInvalid, hcurrent]
      rfl
    have hfar : ∀ r ∈ s.log, r.window + DISCORD_INVALID_REQUEST_WINDOW < now := fun r hr => by
      obtain heq | hbefore := hi.windows.last r hr <;> omega
    have hnone : countedIn s.log now = 0 :=
      List.countP_eq_zero.mpr fun r hr hw => by
        have hbefore := hfar r hr
        rw [of_decide_eq_true hw] at hbefore
        omega
    rw [BudgetSt.record, hrecord]
    exact hi.push le_rfl (Nat.le_add_right _ _) (fun r hr => .inr (hfar r hr)) hnone (by decide)
  · have hcurrent : s.budget.current now = s.budget := if_neg hover
    have hless : s.budget.count < DISCORD_INVALID_REQUEST_BUDGET := by
      have hroom := hi.room hflight
      have hnot : ¬DISCORD_INVALID_REQUEST_WINDOW < s.clock - s.budget.windowStart := by omega
      rw [InvalidBudget.exhausted, if_neg hnot] at hroom
      exact Nat.lt_of_not_le (of_decide_eq_false hroom)
    have hsmall : DISCORD_INVALID_REQUEST_BUDGET < 2 ^ 32 - 1 := by decide
    have hrecord : s.budget.recordInvalid now
        = ⟨s.budget.windowStart, s.budget.count + 1⟩ := by
      rw [InvalidBudget.recordInvalid, hcurrent, Nat.min_eq_left (by omega)]
    rw [BudgetSt.record, hrecord]
    exact hi.push (by omega) (by omega) hi.windows.last hi.counted hless

theorem BudgetInv.step (hi : BudgetInv s) {a : BudgetAct} (h : budgetStep s a = some t) :
    BudgetInv t := by
  cases a with
  | send now =>
    obtain ⟨hguard, h⟩ := Option.ite_none_right_eq_some.mp h
    obtain rfl := Option.some.inj h
    rw [Bool.and_eq_true, Bool.and_eq_true, decide_eq_true_iff, Bool.not_eq_true',
      Bool.not_eq_true'] at hguard
    obtain ⟨⟨hclock, -⟩, hroom⟩ := hguard
    exact ⟨hi.windows, hi.opened.trans hclock, hi.counted, hi.bounded, fun _ => hroom⟩
  | respond now status =>
    obtain ⟨hguard, h⟩ := Option.ite_none_right_eq_some.mp h
    obtain rfl := Option.some.inj h
    rw [Bool.and_eq_true, decide_eq_true_iff] at hguard
    split
    · exact hi.record hguard.1 hguard.2
    · exact ⟨hi.windows, hi.opened.trans hguard.1, hi.counted, hi.bounded,
        fun h => by cases h⟩

/-- At most a budget in a window of the limiter, and two in an interval of its length. -/
theorem budget_bounded (now : Nat) (acts : List BudgetAct) :
    Always budgetStep Bounded (.start now) acts := by
  exact (Always.of_inv (fun _ _ _ hi => BudgetInv.step hi) (.start now) acts).mono
    fun _ hi => hi.bounds

def burst : Nat → List BudgetAct
  | 0 => []
  | n + 1 => .send DISCORD_INVALID_REQUEST_WINDOW ::
    .respond DISCORD_INVALID_REQUEST_WINDOW 429 :: burst n

theorem run_request {b : InvalidBudget} {clock : Nat} (hclock : clock ≤ now)
    (hopen : b.exhausted now = false) (log : List Recorded) (acts : List BudgetAct) :
    run budgetStep ⟨b, clock, false, log⟩ (.send now :: .respond now 429 :: acts)
      = run budgetStep ⟨b.recordInvalid now, now, false,
        ⟨(b.recordInvalid now).windowStart, now⟩ :: log⟩ acts := by
  have hsend : budgetStep ⟨b, clock, false, log⟩ (.send now) = some ⟨b, now, true, log⟩ :=
    if_pos (by simp [hclock, hopen])
  have hrespond : budgetStep ⟨b, now, true, log⟩ (.respond now 429)
      = some ⟨b.recordInvalid now, now, false,
        ⟨(b.recordInvalid now).windowStart, now⟩ :: log⟩ := by
    simp [budgetStep, isInvalid, BudgetSt.record]
  rw [run_step hsend, run_step hrespond]

theorem run_burst {n count clock : Nat} (hroom : count + n ≤ DISCORD_INVALID_REQUEST_BUDGET)
    (hclock : clock ≤ DISCORD_INVALID_REQUEST_WINDOW) (log : List Recorded) :
    ∃ clock', clock' ≤ DISCORD_INVALID_REQUEST_WINDOW ∧
      run budgetStep ⟨⟨0, count⟩, clock, false, log⟩ (burst n)
        = some ⟨⟨0, count + n⟩, clock', false,
          List.replicate n ⟨0, DISCORD_INVALID_REQUEST_WINDOW⟩ ++ log⟩ := by
  induction n generalizing count clock log with
  | zero => exact ⟨clock, hclock, rfl⟩
  | succ n ih =>
    have hopen : InvalidBudget.exhausted ⟨0, count⟩ DISCORD_INVALID_REQUEST_WINDOW = false := by
      rw [InvalidBudget.exhausted, if_neg (by simp)]
      exact decide_eq_false (by simp only; omega)
    have hrecord : InvalidBudget.recordInvalid ⟨0, count⟩ DISCORD_INVALID_REQUEST_WINDOW
        = ⟨0, count + 1⟩ := by
      have hsmall : DISCORD_INVALID_REQUEST_BUDGET < 2 ^ 32 - 1 := by decide
      rw [InvalidBudget.recordInvalid, InvalidBudget.current, if_neg (by simp),
        Nat.min_eq_left (by simp only; omega)]
    obtain ⟨clock', hle, hrun⟩ := ih (show count + 1 + n ≤ _ by omega)
      (le_refl DISCORD_INVALID_REQUEST_WINDOW) (⟨0, DISCORD_INVALID_REQUEST_WINDOW⟩ :: log)
    refine ⟨clock', hle, ?_⟩
    rw [burst, run_request hclock hopen, hrecord, hrun, Nat.add_right_comm, Nat.add_assoc,
      List.replicate_succ', List.append_assoc]
    rfl

/-- A burst at the end of a window and one more response at the start of the next. -/
theorem not_rolling : ¬ ∀ now acts, Always budgetStep Rolling (.start now) acts := by
  intro h
  have hroom : 0 + DISCORD_INVALID_REQUEST_BUDGET ≤ DISCORD_INVALID_REQUEST_BUDGET :=
    (Nat.zero_add _).le
  obtain ⟨clock, hclock, hrun⟩ := run_burst hroom (Nat.zero_le _) []
  have hnext : run budgetStep (.start 0) (burst DISCORD_INVALID_REQUEST_BUDGET
      ++ [.send (DISCORD_INVALID_REQUEST_WINDOW + 1),
        .respond (DISCORD_INVALID_REQUEST_WINDOW + 1) 429])
      = some ⟨⟨DISCORD_INVALID_REQUEST_WINDOW + 1, 1⟩, DISCORD_INVALID_REQUEST_WINDOW + 1, false,
        ⟨DISCORD_INVALID_REQUEST_WINDOW + 1, DISCORD_INVALID_REQUEST_WINDOW + 1⟩ ::
          List.replicate DISCORD_INVALID_REQUEST_BUDGET ⟨0, DISCORD_INVALID_REQUEST_WINDOW⟩⟩ := by
    rw [run_append]
    refine (congrArg (Option.bind · _) hrun).trans ?_
    have hopen : InvalidBudget.exhausted ⟨0, 0 + DISCORD_INVALID_REQUEST_BUDGET⟩
        (DISCORD_INVALID_REQUEST_WINDOW + 1) = false := by simp [InvalidBudget.exhausted]
    rw [Option.bind_some, run_request (Nat.le_succ_of_le hclock) hopen, List.append_nil]
    rfl
  have hwithin := (h 0 _).run hnext 1
  have hcount : DISCORD_INVALID_REQUEST_BUDGET + 1 ≤ within
      (⟨DISCORD_INVALID_REQUEST_WINDOW + 1, DISCORD_INVALID_REQUEST_WINDOW + 1⟩ ::
        List.replicate DISCORD_INVALID_REQUEST_BUDGET ⟨0, DISCORD_INVALID_REQUEST_WINDOW⟩) 1 := by
    rw [within, List.countP_cons, List.countP_replicate]
    decide
  exact absurd (hcount.trans hwithin) (Nat.not_succ_le_self _)

end Patom.Discord.Budget
