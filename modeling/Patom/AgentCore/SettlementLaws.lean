import Patom.AgentCore.Metering
import Patom.AgentCore.Settlement

open Patom.Billing
open Patom.Foundation
open Patom.Provider
open Patom.Runtime (RequestKind)

namespace Patom.AgentCore

section Rounds

variable (price : Price) {maxTurns : MaxTurns}

theorem loopRounds_received (turn sendMessageCalls : Nat) (rounds : List Round) :
    (runLoop price maxTurns turn sendMessageCalls rounds).2 =
      (loopRounds maxTurns turn rounds).flatMap fun ir => ir.2.received price ir.1 := by
  induction rounds generalizing turn sendMessageCalls with
  | nil =>
    rw [runLoop, loopRounds]
    split <;> rfl
  | cons round rest ih =>
    rw [runLoop, loopRounds]
    split
    case isFalse => rfl
    case isTrue =>
      rw [List.flatMap_cons]
      cases round.outcome with
      | error s => simp
      | ok x =>
        cases hnext : x.next with
        | stop s => simp [hnext]
        | final text => simp [hnext]
        | again egress => simp [hnext, ih]

theorem guardedRounds_received (retries : Nat) (attempts : List Attempt) :
    (runWithPingpongGuard price maxTurns retries attempts).2.flatten =
      (guardedRounds price maxTurns retries attempts).flatMap
        fun ir => ir.2.received price ir.1 := by
  induction attempts generalizing retries with
  | nil => rfl
  | cons attempt rest ih =>
    have hloop : (runThreadLoop price maxTurns attempt.rounds).2 =
        (loopRounds maxTurns 0 attempt.rounds).flatMap fun ir => ir.2.received price ir.1 :=
      loopRounds_received price 0 0 attempt.rounds
    rw [runWithPingpongGuard, guardedRounds, List.flatMap_append, ← hloop]
    generalize runThreadLoop price maxTurns attempt.rounds = loop
    obtain ⟨outcome, received⟩ := loop
    cases outcome with
    | stopped s => cases s <;> simp
    | reply text sent =>
      cases sent with
      | succ sent => simp
      | zero =>
        cases attempt.nudge with
        | error e => by_cases h : Runtime.MAX_PINGPONG_RETRIES ≤ retries <;> simp [h]
        | ok u => by_cases h : Runtime.MAX_PINGPONG_RETRIES ≤ retries <;> simp [h, ih]

theorem turnRounds_received (kind : RequestKind) (attempts : List Attempt) :
    (handleTurn price maxTurns kind attempts).2.flatten =
      (turnRounds price maxTurns kind attempts).flatMap fun ir => ir.2.received price ir.1 := by
  have hbackground : ∀ rounds, (runBackground price maxTurns rounds).2.flatten =
      (runBackgroundLoop price maxTurns rounds).2 := by
    intro rounds
    rw [runBackground]
    generalize runBackgroundLoop price maxTurns rounds = loop
    obtain ⟨outcome, received⟩ := loop
    cases outcome with
    | reply text sent => simp
    | stopped s => cases s <;> simp
  cases kind with
  | normal => exact guardedRounds_received price 0 attempts
  | reflection => exact (hbackground _).trans (loopRounds_received price 0 0 _)
  | resolution => exact (hbackground _).trans (loopRounds_received price 0 0 _)

def Effect.serving : Effect → Option (Bool × Nat)
  | .served r => some (r.isByo, r.cost)
  | .record _ _ => none
  | .settle _ _ _ => none

theorem serving_meterFoldSamples (folds : List Served) :
    (meterFoldSamples folds).filterMap Effect.serving = folds.map fun r => (r.isByo, r.cost) := by
  simp [meterFoldSamples, Effect.serving, Function.comp_def]

theorem filterMap_serving (kind : MetricKind) (index : TurnIndex) (round : Round) :
    (round.effects price kind index).filterMap Effect.serving =
      (round.received price index).map fun r => (r.isByo, r.cost) := by
  rw [Round.effects, Round.received, List.filterMap_append, serving_meterFoldSamples,
    List.map_append]
  congr 1
  · simp [Round.compacted, Served.cost, Received.isByo, Received.cost]
  · cases round.outcome with
    | error s => rfl
    | ok x =>
      have hsettles : (if round.isByo then [] else x.settled.map
          (.settle index ⟨some index, round.isByo, price, x.response.usage⟩)).filterMap
          Effect.serving = [] := by
        split <;> simp [Effect.serving]
      simp only [List.cons_append, List.filterMap_cons, Effect.serving, List.filterMap_append]
      rw [hsettles, serving_meterFoldSamples]
      simp [Exchange.summarized, Served.cost, Received.isByo, Received.cost]

end Rounds

/-- A turn that is not cut off serves what `handleTurn` receives. -/
theorem Turn.served_effects (t : Turn)
    (h : (t.rounds.flatMap fun ir => ir.2.effects t.price (.ofRequest t.kind) ir.1).length
      ≤ t.cut) :
    t.effects.filterMap Effect.serving =
      (handleTurn t.price t.maxTurns t.kind t.attempts).2.flatten.map
        fun r => (r.isByo, r.cost) := by
  rw [Turn.effects, List.take_of_length_le h, turnRounds_received, List.filterMap_flatMap,
    List.map_flatMap]
  exact List.flatMap_congr fun ir _ => filterMap_serving t.price _ ir.1 ir.2

section Balance

def total (w : Effect → Nat) (l : List Effect) : Nat := (l.map w).sum

def lastOf (f : Effect → Option Served) (l : List Effect) : Nat :=
  (l.getLast?.bind f).elim 0 Served.platformCost

def Effect.servedCost : Effect → Nat
  | .served r => r.platformCost
  | .record _ _ => 0
  | .settle _ _ _ => 0

def Effect.settledCost : Effect → Nat
  | .served _ => 0
  | .record _ _ => 0
  | .settle _ r _ => r.platformCost

def Effect.foldCost : Effect → Nat
  | .served r => if r.round = none then r.platformCost else 0
  | .record _ _ => 0
  | .settle _ _ _ => 0

def Effect.recordedCost (price : Price) : Effect → Nat
  | .served _ => 0
  | .record _ r => turnCost price r.usage
  | .settle _ _ _ => 0

def Effect.foldRecordedCost (price : Price) : Effect → Nat
  | .served _ => 0
  | .record _ r => if r.round = none then turnCost price r.usage else 0
  | .settle _ _ _ => 0

def Effect.unsettledRow : Effect → Option Served
  | .served _ => none
  | .record _ r => if r.round = none then none else some r
  | .settle _ _ _ => none

@[simp] theorem total_nil (w : Effect → Nat) : total w [] = 0 := rfl

@[simp] theorem total_cons (w : Effect → Nat) (e : Effect) (l : List Effect) :
    total w (e :: l) = w e + total w l := by
  simp [total]

@[simp] theorem lastOf_nil (f : Effect → Option Served) : lastOf f [] = 0 := rfl

@[simp] theorem lastOf_single (f : Effect → Option Served) (e : Effect) :
    lastOf f [e] = (f e).elim 0 Served.platformCost := rfl

@[simp] theorem lastOf_cons_cons (f : Effect → Option Served) (e e' : Effect) (l : List Effect) :
    lastOf f (e :: e' :: l) = lastOf f (e' :: l) := by
  simp [lastOf, List.getLast?_cons_cons]

theorem lastOf_cons {f : Effect → Option Served} {e : Effect}
    (h : (f e).elim 0 Served.platformCost = 0) (l : List Effect) :
    lastOf f (e :: l) = lastOf f l := by
  cases l with
  | nil => simp [h]
  | cons e' l => exact lastOf_cons_cons f e e' l

@[simp] theorem unsettled_settle (index : TurnIndex) (r : Served) (at_ : BillingPeriod × Time)
    (l : List Effect) : lastOf Effect.unsettled (.settle index r at_ :: l) =
      lastOf Effect.unsettled l :=
  lastOf_cons rfl l

theorem lastOf_unsettled_cons {e : Effect} (h : e.response.isByo = true ∨ e.response.round = none)
    (l : List Effect) : lastOf Effect.unsettled (e :: l) = lastOf Effect.unsettled l := by
  refine lastOf_cons ?_ l
  cases e with
  | served r =>
    by_cases hr : r.round = none <;>
      simp_all [Effect.unsettled, Effect.response, Served.platformCost]
  | record kind r =>
    by_cases hr : r.round = none <;>
      simp_all [Effect.unsettled, Effect.response, Served.platformCost]
  | settle index r at_ => rfl

variable {price : Price}

inductive Complete (price : Price) : List Effect → Prop
  | nil : Complete price []
  | fold {l : List Effect} {r : Served} : r.round = none → Complete price l →
    Complete price (.served r :: l)
  | foldRow {l : List Effect} {r : Served} {kind : MetricKind} : r.round = none →
    Complete price l → Complete price (.record kind r :: l)
  | own {l : List Effect} {r : Served} {kind : MetricKind} : r.isByo = true →
    Complete price l → Complete price (.served r :: .record kind r :: l)
  | round {l : List Effect} {r : Served} {kind : MetricKind} {index : TurnIndex}
    {at_ : BillingPeriod × Time} : r.round = some index → r.price = price → Complete price l →
    Complete price (.served r :: .record kind r :: .settle index r at_ :: l)

theorem Complete.append {l l' : List Effect} (h : Complete price l) (h' : Complete price l') :
    Complete price (l ++ l') := by
  induction h with
  | nil => exact h'
  | fold hr _ ih => exact .fold hr ih
  | foldRow hr _ ih => exact .foldRow hr ih
  | own hr _ ih => exact .own hr ih
  | round hr hprice _ ih => exact .round hr hprice ih

theorem complete_meterFoldSamples {folds : List Served} (h : ∀ r ∈ folds, r.round = none) :
    Complete price (meterFoldSamples folds) := by
  refine Complete.append ?_ ?_
  · induction folds with
    | nil => exact .nil
    | cons r folds ih =>
      rw [List.forall_mem_cons] at h
      exact .fold h.1 (ih h.2)
  · induction folds with
    | nil => exact .nil
    | cons r folds ih =>
      rw [List.forall_mem_cons] at h
      exact .foldRow h.1 (ih h.2)

variable (price) in
theorem Round.complete (kind : MetricKind) (index : TurnIndex) (round : Round)
    (h : round.isByo = false → ∀ x, round.outcome = .ok x → x.settled.length = 1) :
    Complete price (round.effects price kind index) := by
  refine (complete_meterFoldSamples ?_).append ?_
  · simp [Round.compacted]
  · cases houtcome : round.outcome with
    | error s => exact .nil
    | ok x =>
      have hreductions : Complete price (meterFoldSamples x.summarized) := by
        refine complete_meterFoldSamples ?_
        simp [Exchange.summarized]
      cases hbyo : round.isByo with
      | true => simpa [hbyo] using Complete.own rfl hreductions
      | false =>
        obtain ⟨at_, hsettled⟩ := List.length_eq_one_iff.mp (h hbyo x houtcome)
        simp only [hsettled, Bool.false_eq_true, if_false, List.map_cons, List.map_nil,
          List.cons_append, List.nil_append]
        exact .round rfl rfl hreductions

theorem complete_flatMap {rounds : List (TurnIndex × Round)} (kind : MetricKind)
    (h : ∀ ir ∈ rounds, ir.2.isByo = false → ∀ x, ir.2.outcome = .ok x → x.settled.length = 1) :
    Complete price (rounds.flatMap fun ir => ir.2.effects price kind ir.1) := by
  induction rounds with
  | nil => exact .nil
  | cons ir rounds ih =>
    rw [List.forall_mem_cons] at h
    exact (ir.2.complete price kind ir.1 h.1).append (ih h.2)

theorem Complete.served_balance {l : List Effect} (h : Complete price l) (n : Nat) :
    total Effect.servedCost (l.take n) = total Effect.settledCost (l.take n) +
      (total Effect.foldCost (l.take n) + lastOf Effect.unsettled (l.take n)) := by
  induction h generalizing n with
  | nil => simp
  | fold hr _ ih =>
    rcases n with _ | n
    · simp
    · rw [List.take_succ_cons, lastOf_unsettled_cons (by exact .inr hr)]
      simp only [total_cons, Effect.servedCost, Effect.settledCost, Effect.foldCost, hr, ih n,
        if_true]
      omega
  | foldRow hr _ ih =>
    rcases n with _ | n
    · simp
    · rw [List.take_succ_cons, lastOf_unsettled_cons (by exact .inr hr)]
      simp only [total_cons, Effect.servedCost, Effect.settledCost, Effect.foldCost, ih n]
      omega
  | own hr _ ih =>
    rcases n with _ | _ | n
    · simp
    · rw [List.take_succ_cons, lastOf_unsettled_cons (by exact .inl hr)]
      simp [Effect.servedCost, Effect.settledCost, Effect.foldCost, Served.platformCost, hr]
    · rw [List.take_succ_cons, List.take_succ_cons, lastOf_unsettled_cons (by exact .inl hr),
        lastOf_unsettled_cons (by exact .inl hr)]
      simp [Effect.servedCost, Effect.settledCost, Effect.foldCost, Served.platformCost, hr, ih n]
  | round hr hprice _ ih =>
    rcases n with _ | _ | _ | n
    · simp
    · simp [Effect.servedCost, Effect.settledCost, Effect.foldCost, Effect.unsettled, hr]
    · simp [Effect.servedCost, Effect.settledCost, Effect.foldCost, Effect.unsettled, hr]
    · simp [Effect.servedCost, Effect.settledCost, Effect.foldCost, hr, ih n]
      omega

@[simp] theorem unsettledRow_served (r : Served) (l : List Effect) :
    lastOf Effect.unsettledRow (.served r :: l) = lastOf Effect.unsettledRow l :=
  lastOf_cons rfl l

@[simp] theorem unsettledRow_settle (index : TurnIndex) (r : Served) (at_ : BillingPeriod × Time)
    (l : List Effect) : lastOf Effect.unsettledRow (.settle index r at_ :: l) =
      lastOf Effect.unsettledRow l :=
  lastOf_cons rfl l

theorem Complete.recorded_balance {l : List Effect} (h : Complete price l) (n : Nat)
    (hown : ∀ e ∈ l.take n, e.response.isByo = false) :
    total (Effect.recordedCost price) (l.take n) = total Effect.settledCost (l.take n) +
      (total (Effect.foldRecordedCost price) (l.take n) +
        lastOf Effect.unsettledRow (l.take n)) := by
  induction h generalizing n with
  | nil => simp
  | fold hr _ ih =>
    rcases n with _ | n
    · simp
    · rw [List.take_succ_cons, List.forall_mem_cons] at hown
      simp [Effect.recordedCost, Effect.settledCost, Effect.foldRecordedCost, ih n hown.2]
  | foldRow hr _ ih =>
    rcases n with _ | n
    · simp
    · rw [List.take_succ_cons, List.forall_mem_cons] at hown
      rw [List.take_succ_cons, lastOf_cons (by simp [Effect.unsettledRow, hr])]
      simp only [total_cons, Effect.recordedCost, Effect.settledCost, Effect.foldRecordedCost, hr,
        ih n hown.2, if_true]
      omega
  | own hr _ _ =>
    rcases n with _ | n
    · simp
    · rw [List.take_succ_cons, List.forall_mem_cons, Effect.response, hr] at hown
      exact absurd hown.1 (by decide)
  | @round l r kind index at_ hr hprice _ ih =>
    have hcost : r.isByo = false → r.platformCost = turnCost price r.usage := by
      intro hown
      rw [Served.platformCost, hown, ← hprice]
      rfl
    rcases n with _ | _ | _ | n
    · simp
    · simp [Effect.recordedCost, Effect.settledCost, Effect.foldRecordedCost, Effect.unsettledRow]
    · simp only [List.take_succ_cons, List.take_zero, List.forall_mem_cons] at hown
      simp [Effect.recordedCost, Effect.settledCost, Effect.foldRecordedCost, Effect.unsettledRow,
        hr, hcost hown.1]
    · simp only [List.take_succ_cons, List.forall_mem_cons] at hown
      rw [List.take_succ_cons, List.take_succ_cons, List.take_succ_cons, unsettledRow_served,
        lastOf_cons_cons, unsettledRow_settle]
      simp only [total_cons, Effect.recordedCost, Effect.settledCost, Effect.foldRecordedCost, hr,
        hcost hown.1, ih n hown.2.2.2, reduceCtorEq, if_false]
      omega

end Balance

section Ledgers

variable {creditGateActive : OrgId → Bool} {org : OrgId}

def share (org : OrgId) (u : OrgBillingUsage) : Nat := if u.orgId = org then u.usedMicroUsd else 0

theorem sum_filter_eq (rows : List OrgBillingUsage) :
    ((rows.filter (·.orgId = org)).map (·.usedMicroUsd)).sum = (rows.map (share org)).sum := by
  induction rows with
  | nil => rfl
  | cons u rows ih =>
    by_cases h : u.orgId = org
    · rw [List.filter_cons_of_pos (by simpa using h)]
      simp [share, h, ih]
    · rw [List.filter_cons_of_neg (by simpa using h)]
      simp [share, h, ih]

variable (org) in
theorem usedTotal_put (db : Billing.Db) (u : OrgBillingUsage) :
    usedTotal org { db with orgBillingUsage := db.orgBillingUsage.put u } +
        ((db.orgBillingUsage.find? (key u)).elim 0 (share org)) =
      usedTotal org db + share org u := by
  have hput := (Table.perm_put db.orgBillingUsage u).map (share org)
  rw [usedTotal, usedTotal, sum_filter_eq, sum_filter_eq, hput.sum_eq, List.map_cons, List.sum_cons]
  cases hfind : db.orgBillingUsage.find? (key u) with
  | none =>
    rw [Table.delete_eq_self fun u' hu' => by simpa using Table.find?_eq_none.mp hfind u' hu']
    simp [Nat.add_comm]
  | some old =>
    obtain ⟨hmem, hkey⟩ := Table.find?_eq_some.mp hfind
    have hold := (Table.perm_delete hmem).map (share org)
    rw [hold.sum_eq, List.map_cons, List.sum_cons, hkey, Option.elim_some]
    omega

theorem share_find (db : Billing.Db) (org' : OrgId) (period : BillingPeriod) :
    (db.orgBillingUsage.find? (org', period)).elim 0 (share org) =
      if org' = org then db.usedMicroUsd org' period else 0 := by
  rw [Db.usedMicroUsd]
  cases hfind : db.orgBillingUsage.find? (org', period) with
  | none => simp
  | some u =>
    have horg : u.orgId = org' := congrArg Prod.fst (Table.key_of_find? hfind)
    simp [share, horg]

theorem usedTotal_settle (period : BillingPeriod) (now : Time) (org' : OrgId) (cost : Nat)
    (usageKey : Option Runtime.IdempotencyKey) (db : Billing.Db) :
    usedTotal org (settle creditGateActive period now org' cost usageKey db) =
      usedTotal org db + if org' = org then cost else 0 := by
  have hkey : key (fireWarnOnce (db.orgBilling.find? org') now (settleUsage org' period cost db)) =
      (org', period) := (key_fireWarnOnce _ now _).trans (key_settleUsage org' period cost db)
  have hshare : share org (fireWarnOnce (db.orgBilling.find? org') now
      (settleUsage org' period cost db)) =
      if org' = org then db.usedMicroUsd org' period + cost else 0 := by
    have horg : (fireWarnOnce (db.orgBilling.find? org') now
        (settleUsage org' period cost db)).orgId = org' := congrArg Prod.fst hkey
    rw [share, horg, fireWarnOnce_used, settleUsage_used]
  have hput := usedTotal_put org db (fireWarnOnce (db.orgBilling.find? org') now
    (settleUsage org' period cost db))
  rw [hkey, share_find, hshare] at hput
  rw [settle, usedTotal, debitCredits_usage]
  change usedTotal org { db with orgBillingUsage := _ } = _
  split at hput <;> split <;> first | omega | contradiction

variable (creditGateActive) in
theorem Books.step_usedTotal (s : Books) (t : Turn) (e : Effect) :
    usedTotal org (s.step creditGateActive t e).db =
      usedTotal org s.db + if t.org = org then e.settledCost else 0 := by
  cases e with
  | served r => simp [Books.step, Effect.settledCost]
  | record kind r => simp [Books.step, Effect.settledCost]
  | settle index r at_ =>
    cases hbyo : r.isByo with
    | true => simp [Books.step, Effect.settledCost, billingSettle, Served.platformCost, hbyo]
    | false =>
      simp [Books.step, Effect.settledCost, billingSettle, Served.platformCost, hbyo,
        usedTotal_settle]

variable (creditGateActive) in
theorem Books.step_platformCost (s : Books) (t : Turn) (e : Effect) :
    (s.step creditGateActive t e).platformCost org =
      s.platformCost org + if t.org = org then e.servedCost else 0 := by
  cases e with
  | served r =>
    by_cases h : t.org = org <;> simp [Books.step, Books.platformCost, Effect.servedCost, h]
  | record kind r => simp [Books.step, Books.platformCost, Effect.servedCost]
  | settle index r at_ => simp [Books.step, Books.platformCost, Effect.servedCost]

def Effect.meteredCost (t : Turn) : Effect → Nat
  | .served _ => 0
  | .record kind r =>
    (recordTurnMetrics t.requestId t.stateId t.org kind t.price r.usage).elim 0 TurnMetricsRow.cost
  | .settle _ _ _ => 0

theorem recordTurnMetrics_org {requestId : Runtime.PromptRequestId} {stateId : Option AgentThreadId}
    {kind : MetricKind} {price : Price} {usage : Usage} {row : TurnMetricsRow}
    (h : recordTurnMetrics requestId stateId org kind price usage = some row) :
    row.orgId = org := by
  simp only [recordTurnMetrics, Option.bind_eq_bind, Option.bind_eq_some_iff,
    Option.some.injEq] at h
  obtain ⟨_, _, _, _, _, _, rfl⟩ := h
  rfl

variable (creditGateActive) in
theorem Books.step_meteredCost (s : Books) (t : Turn) (e : Effect) :
    (s.step creditGateActive t e).meteredCost org =
      s.meteredCost org + if t.org = org then e.meteredCost t else 0 := by
  cases e with
  | served r => simp [Books.step, Books.meteredCost, Effect.meteredCost]
  | settle index r at_ => simp [Books.step, Books.meteredCost, Effect.meteredCost]
  | record kind r =>
    cases hrow : recordTurnMetrics t.requestId t.stateId t.org kind t.price r.usage with
    | none => simp [Books.step, Books.meteredCost, Effect.meteredCost, hrow]
    | some row =>
      have horg := recordTurnMetrics_org hrow
      simp only [Books.step, Books.meteredCost, Effect.meteredCost, hrow]
      by_cases h : t.org = org <;> simp [horg, h]

theorem tryFrom_of_fits {n : Nat} (h : n ≤ I32_MAX) :
    InputTokens.tryFrom n = .ok ⟨n, h⟩ ∧ OutputTokens.tryFrom n = .ok ⟨n, h⟩ :=
  ⟨dif_pos h, dif_pos h⟩

theorem recordTurnMetrics_fits (requestId : Runtime.PromptRequestId) (stateId : AgentThreadId)
    (kind : MetricKind) (price : Price) {usage : Usage} (h : Fits usage) :
    (recordTurnMetrics requestId (some stateId) org kind price usage).elim 0 TurnMetricsRow.cost =
      turnCost price usage := by
  obtain ⟨hinput, houtput, hcreation, hread⟩ := h
  have hcache : ∀ cache : Option Nat, (∀ n, cache = some n → n ≤ I32_MAX) →
      (cache.bind fun n => (InputTokens.tryFrom n).toOption).map (·.get) = cache := by
    intro cache hcache
    cases cache with
    | none => rfl
    | some n => simp [(tryFrom_of_fits (hcache n rfl)).1, Except.toOption]
  have hrow : ∀ a : Nat, ∀ b : Nat, (ha : a ≤ I32_MAX) → (hb : b ≤ I32_MAX) →
      (InputTokens.tryFrom a).toOption = some ⟨a, ha⟩ ∧
        (OutputTokens.tryFrom b).toOption = some ⟨b, hb⟩ := by
    intro a b ha hb
    rw [(tryFrom_of_fits ha).1, (tryFrom_of_fits hb).2]
    exact ⟨rfl, rfl⟩
  obtain ⟨hin, hout⟩ := hrow _ _ hinput houtput
  simp only [recordTurnMetrics, Option.bind_eq_bind, Option.bind_some, hin, hout, Option.elim_some,
    TurnMetricsRow.cost, TurnMetricsRow.usage, hcache _ hcreation, hcache _ hread]

theorem foldl_ledger {m : Books → Nat} {w : Turn → Effect → Nat}
    (hstep : ∀ s t e, m (s.step creditGateActive t e) = m s + if t.org = org then w t e else 0)
    (acts : List (Turn × Effect)) (s : Books) :
    m (acts.foldl (fun s a => s.step creditGateActive a.1 a.2) s) =
      m s + (acts.map fun a => if a.1.org = org then w a.1 a.2 else 0).sum := by
  induction acts generalizing s with
  | nil => simp
  | cons a acts ih =>
    rw [List.foldl_cons, ih, hstep, List.map_cons, List.sum_cons, Nat.add_assoc]

theorem sum_acts (w : Turn → Effect → Nat) (turns : List Turn) :
    ((turns.flatMap fun t => t.effects.map (t, ·)).map
        fun a => if a.1.org = org then w a.1 a.2 else 0).sum =
      ((turns.filter (·.org = org)).map fun t => total (w t) t.effects).sum := by
  induction turns with
  | nil => rfl
  | cons t turns ih =>
    rw [List.flatMap_cons, List.map_append, List.sum_append, ih, List.map_map]
    by_cases h : t.org = org
    · rw [List.filter_cons_of_pos (by simpa using h), List.map_cons, List.sum_cons]
      simp [h, total, Function.comp_def]
    · rw [List.filter_cons_of_neg (by simpa using h)]
      simp [h, Function.comp_def]

theorem Run.ledger (run : Run) (db : Billing.Db) (m : Books → Nat) (w : Turn → Effect → Nat)
    (hstep : ∀ s t e, m (s.step creditGateActive t e) = m s + if t.org = org then w t e else 0) :
    m (run.books creditGateActive db) = m ⟨db, [], []⟩ +
      ((run.turns.filter (·.org = org)).map fun t => total (w t) t.effects).sum := by
  rw [Run.books, foldl_ledger hstep, (run.order.map _).sum_eq, sum_acts]

end Ledgers

section Turns

variable {run : Run} {org : OrgId} {t : Turn}

theorem Run.complete (ht : t ∈ run.turns) : Complete t.price
    (t.rounds.flatMap fun ir => ir.2.effects t.price (.ofRequest t.kind) ir.1) :=
  complete_flatMap _ (run.landed t ht)

theorem total_eq_zero {w : Effect → Nat} {l : List Effect} :
    total w l = 0 ↔ ∀ e ∈ l, w e = 0 := by
  simp [total, List.sum_eq_zero_iff]

theorem lastOf_eq_zero {f : Effect → Option Served} {l : List Effect} :
    lastOf f l = 0 ↔ ∀ r, l.getLast?.bind f = some r → r.platformCost = 0 := by
  rw [lastOf]
  cases l.getLast?.bind f <;> simp

theorem Turn.settled_le_served (ht : t ∈ run.turns) :
    total Effect.settledCost t.effects ≤ total Effect.servedCost t.effects := by
  rw [Turn.effects, (run.complete ht).served_balance]
  exact Nat.le_add_right _ _

theorem Turn.settled_eq_served_iff (ht : t ∈ run.turns) :
    total Effect.settledCost t.effects = total Effect.servedCost t.effects ↔
      (∀ r, .served r ∈ t.effects → r.round = none → r.platformCost = 0) ∧
        ∀ r, t.cutOff = some r → r.platformCost = 0 := by
  have hbalance := (run.complete ht).served_balance t.cut
  rw [← Turn.effects] at hbalance
  rw [Turn.cutOff, ← lastOf_eq_zero]
  have hfolds : total Effect.foldCost t.effects = 0 ↔
      ∀ r, .served r ∈ t.effects → r.round = none → r.platformCost = 0 := by
    rw [total_eq_zero]
    constructor
    · intro h r hr hround
      simpa [Effect.foldCost, hround] using h _ hr
    · intro h e he
      cases e with
      | served r =>
        rw [Effect.foldCost]
        split
        case isTrue hround => exact h r he hround
        case isFalse => rfl
      | record kind r => rfl
      | settle index r at_ => rfl
  rw [← hfolds]
  omega

theorem Turn.metered_eq_recorded (hkind : t.kind = .normal)
    (hfits : ∀ e ∈ t.effects, e.response.isByo = false ∧ Fits e.response.usage) :
    total (Effect.meteredCost t) t.effects = total (Effect.recordedCost t.price) t.effects := by
  rw [total, total]
  congr 1
  refine List.map_congr_left fun e he => ?_
  cases e with
  | served r => rfl
  | settle index r at_ => rfl
  | record kind r =>
    rw [Effect.meteredCost, Effect.recordedCost, Turn.stateId, hkind]
    exact recordTurnMetrics_fits t.requestId t.participation kind t.price (hfits _ he).2

theorem Turn.settled_le_metered (ht : t ∈ run.turns) (hkind : t.kind = .normal)
    (hfits : ∀ e ∈ t.effects, e.response.isByo = false ∧ Fits e.response.usage) :
    total Effect.settledCost t.effects ≤ total (Effect.meteredCost t) t.effects := by
  rw [Turn.metered_eq_recorded hkind hfits, Turn.effects,
    (run.complete ht).recorded_balance t.cut fun e he => (hfits e he).1]
  exact Nat.le_add_right _ _

theorem Turn.settled_eq_metered_iff (ht : t ∈ run.turns) (hkind : t.kind = .normal)
    (hfits : ∀ e ∈ t.effects, e.response.isByo = false ∧ Fits e.response.usage)
    (hcut : ∀ r, t.cutOff = some r → r.platformCost = 0) :
    total Effect.settledCost t.effects = total (Effect.meteredCost t) t.effects ↔
      ∀ kind r, .record kind r ∈ t.effects → r.round = none → turnCost t.price r.usage = 0 := by
  have hbalance := (run.complete ht).recorded_balance t.cut fun e he => (hfits e he).1
  rw [← Turn.effects, ← Turn.metered_eq_recorded hkind hfits] at hbalance
  have hlast : lastOf Effect.unsettledRow t.effects = 0 := by
    rw [lastOf_eq_zero]
    intro r hr
    obtain ⟨e, he, hrow⟩ := Option.bind_eq_some_iff.mp hr
    refine hcut r (Option.bind_eq_some_iff.mpr ⟨e, he, ?_⟩)
    cases e with
    | served r => cases hrow
    | record kind r => exact hrow
    | settle index r at_ => cases hrow
  have hfolds : total (Effect.foldRecordedCost t.price) t.effects = 0 ↔
      ∀ kind r, .record kind r ∈ t.effects → r.round = none → turnCost t.price r.usage = 0 := by
    rw [total_eq_zero]
    constructor
    · intro h kind r hr hround
      simpa [Effect.foldRecordedCost, hround] using h _ hr
    · intro h e he
      cases e with
      | served r => rfl
      | record kind r =>
        rw [Effect.foldRecordedCost]
        split
        case isTrue hround => exact h kind r he hround
        case isFalse => rfl
      | settle index r at_ => rfl
  rw [← hfolds]
  omega

end Turns

/-- Exact: the books agree when nothing that costs is left out of the settlements. -/
theorem reconciles_iff_tight (creditGateActive : OrgId → Bool) (run : Run) (org : OrgId)
    (db : Billing.Db) : Reconciles creditGateActive run org db ↔ Tight run org := by
  have hused := run.ledger db (fun s => usedTotal org s.db) (fun _ e => e.settledCost)
    (Books.step_usedTotal creditGateActive)
  have hserved := run.ledger db (·.platformCost org) (fun _ e => e.servedCost)
    (Books.step_platformCost creditGateActive)
  have hmetered := run.ledger db (·.meteredCost org) (fun t e => e.meteredCost t)
    (Books.step_meteredCost creditGateActive)
  have hturns : ∀ {t}, t ∈ run.turns.filter (·.org = org) ↔ t ∈ run.turns ∧ t.org = org := by
    simp [List.mem_filter]
  have hsettled := sum_map_eq_iff (l := run.turns.filter (·.org = org)) fun t ht =>
    Turn.settled_le_served (hturns.mp ht).1
  have hrows : run.Plain org → _ := fun hplain =>
    sum_map_eq_iff (l := run.turns.filter (·.org = org)) fun t ht =>
      have hone := hplain t (hturns.mp ht).1 (hturns.mp ht).2
      Turn.settled_le_metered (hturns.mp ht).1 hone.1 hone.2
  simp only [Books.platformCost, Books.meteredCost, List.filter_nil, List.map_nil, List.sum_nil,
    Nat.zero_add] at hserved hmetered
  constructor
  case mp =>
    intro h
    have hfree : ∀ t ∈ run.turns, t.org = org →
        (∀ r, .served r ∈ t.effects → r.round = none → r.platformCost = 0) ∧
          ∀ r, t.cutOff = some r → r.platformCost = 0 := by
      have hone := h.served
      rw [Books.platformCost, hused, hserved, Nat.add_left_cancel_iff, hsettled] at hone
      exact fun t ht horg => (Turn.settled_eq_served_iff ht).mp (hone t (hturns.mpr ⟨ht, horg⟩))
    refine ⟨fun t ht horg => (hfree t ht horg).1, fun t ht horg => (hfree t ht horg).2, ?_⟩
    intro hplain t ht horg
    have hone := h.metered hplain
    rw [Books.meteredCost, hused, hmetered, Nat.add_left_cancel_iff, hrows hplain] at hone
    obtain ⟨hkind, hfits⟩ := hplain t ht horg
    exact (Turn.settled_eq_metered_iff ht hkind hfits (hfree t ht horg).2).mp
      (hone t (hturns.mpr ⟨ht, horg⟩))
  case mpr =>
    intro h
    constructor
    · rw [Books.platformCost, hused, hserved, Nat.add_left_cancel_iff, hsettled]
      intro t ht
      obtain ⟨ht, horg⟩ := hturns.mp ht
      exact (Turn.settled_eq_served_iff ht).mpr ⟨h.folds t ht horg, h.cut t ht horg⟩
    · intro hplain
      rw [Books.meteredCost, hused, hmetered, Nat.add_left_cancel_iff, hrows hplain]
      intro t ht
      obtain ⟨ht, horg⟩ := hturns.mp ht
      obtain ⟨hkind, hfits⟩ := hplain t ht horg
      exact (Turn.settled_eq_metered_iff ht hkind hfits (h.cut t ht horg)).mpr
        (h.rows hplain t ht horg)

namespace Sample

def folded : Turn where
  org := 1
  requestId := 7
  participation := 3
  kind := .normal
  price := price
  maxTurns := maxTurns
  attempts := [⟨[{ round [.toolCall sendMessage] with compaction := [⟨10, 0, none, none⟩] },
    round [.text "Posted"]], .ok ()⟩]
  cut := 100

theorem folded_rounds : folded.rounds = [(.ZERO,
    { round [.toolCall sendMessage] with compaction := [⟨10, 0, none, none⟩] }),
    (⟨1, by decide⟩, round [.text "Posted"])] := rfl

theorem folded_landed : ∀ ir ∈ folded.rounds, ir.2.isByo = false →
    ∀ x, ir.2.outcome = .ok x → x.settled.length = 1 := by
  intro ir hir _ x hx
  rw [folded_rounds, List.mem_cons, List.mem_singleton] at hir
  obtain rfl | rfl := hir
  · cases hx
    rfl
  · cases hx
    rfl

def foldedRun : Run where
  turns := [folded]
  acts := folded.effects.map (folded, ·)
  order := by simp
  landed := by simpa using folded_landed

end Sample

theorem folded_served_effects : Sample.folded.effects.filterMap Effect.serving =
    (handleTurn Sample.price Sample.maxTurns .normal Sample.folded.attempts).2.flatten.map
      fun r => (r.isByo, r.cost) :=
  Turn.served_effects Sample.folded (by decide +kernel)

/-- The fold is served and metered, and never settled. -/
theorem fold_unsettled : ¬ ∀ creditGateActive run org db,
    Reconciles creditGateActive run org db := fun h =>
  absurd (h (fun _ => false) Sample.foldedRun 1 Sample.db).served (by decide +kernel)

end Patom.AgentCore
