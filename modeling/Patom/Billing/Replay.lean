import Patom.Billing.Service

open Patom.Foundation
open Patom.Runtime (IdempotencyKey)

namespace Patom.Billing

inductive BillingCall
  | settle (period : BillingPeriod) (now : Time) (org : OrgId) (cost : Nat)
      (usageKey : Option IdempotencyKey)
  | grant (org : OrgId) (amount : GrantAmount) (reason : LedgerReason)
      (idempotencyKey : IdempotencyKey) (actor : Option UserId) (now : Time)
  deriving DecidableEq

def BillingCall.settles (k : IdempotencyKey) : BillingCall → Bool
  | .settle _ _ _ _ usageKey => usageKey = some k
  | .grant .. => false

def BillingCall.metered (org : OrgId) (period : BillingPeriod) : BillingCall → Nat
  | .settle period' _ org' cost _ => if org' = org ∧ period' = period then cost else 0
  | .grant .. => 0

/-- The same calls, with the settlement under `k` made once. -/
def once (k : IdempotencyKey) : List BillingCall → List BillingCall
  | [] => []
  | c :: calls =>
    if c.settles k then c :: calls.filter (fun c => !c.settles k) else c :: once k calls

def Db.usedMicroUsd (db : Db) (org : OrgId) (period : BillingPeriod) : Nat :=
  ((db.orgBillingUsage.find? (org, period)).map (·.usedMicroUsd)).getD 0

/-- Balances, totals and ledger agree, and so does every usage counter. -/
structure SameCounters (db db' : Db) : Prop where
  credits : SameCredits db db'
  used : ∀ org period, db'.usedMicroUsd org period = db.usedMicroUsd org period

section Entitlements

variable (creditGateActive : OrgId → Bool)

def BillingCall.apply : BillingCall → Db → Db
  | .settle period now org cost usageKey =>
    Billing.settle creditGateActive period now org cost usageKey
  | .grant org amount reason idempotencyKey actor now =>
    grantCredit org amount reason idempotencyKey actor now

def applyAll (db : Db) (calls : List BillingCall) : Db :=
  calls.foldl (fun db c => c.apply creditGateActive db) db

variable {creditGateActive}

theorem debitCredits_usage (org : OrgId) (cost : Nat) (now : Time) (k : Option IdempotencyKey)
    (db : Db) :
    (debitCredits creditGateActive org cost now k db).orgBillingUsage = db.orgBillingUsage := by
  unfold debitCredits settleDebitCredits
  split
  case isTrue => rfl
  case isFalse =>
    split
    case h_1 => rfl
    case h_2 => split <;> rfl

theorem grantCredit_usage (org : OrgId) (amount : GrantAmount) (reason : LedgerReason)
    (k : IdempotencyKey) (actor : Option UserId) (now : Time) (db : Db) :
    (grantCredit org amount reason k actor now db).orgBillingUsage = db.orgBillingUsage := by
  unfold grantCredit
  split <;> rfl

@[simp] theorem fireWarnOnce_used (config : Option OrgBilling) (now : Time) (u : OrgBillingUsage) :
    (fireWarnOnce config now u).usedMicroUsd = u.usedMicroUsd := by
  unfold fireWarnOnce
  split
  · split <;> rfl
  · rfl

@[simp] theorem key_fireWarnOnce (config : Option OrgBilling) (now : Time) (u : OrgBillingUsage) :
    key (fireWarnOnce config now u) = key u := by
  unfold fireWarnOnce
  split
  · split <;> rfl
  · rfl

theorem key_settleUsage (org : OrgId) (period : BillingPeriod) (cost : Nat) (db : Db) :
    key (settleUsage org period cost db) = (org, period) := by
  unfold settleUsage
  split
  case h_1 u hu => exact (Table.key_of_find? hu : key u = (org, period))
  case h_2 => rfl

theorem settleUsage_used (org : OrgId) (period : BillingPeriod) (cost : Nat) (db : Db) :
    (settleUsage org period cost db).usedMicroUsd = db.usedMicroUsd org period + cost := by
  unfold settleUsage Db.usedMicroUsd
  split
  case h_1 u hu => simp [hu]
  case h_2 hnone => simp [hnone]

theorem usedMicroUsd_apply (c : BillingCall) (db : Db) (org : OrgId) (period : BillingPeriod) :
    (c.apply creditGateActive db).usedMicroUsd org period =
      db.usedMicroUsd org period + c.metered org period := by
  cases c with
  | grant => simp [Db.usedMicroUsd, BillingCall.apply, grantCredit_usage, BillingCall.metered]
  | settle period' now org' cost usageKey =>
    have hkey := (key_fireWarnOnce (db.orgBilling.find? org') now _).trans
      (key_settleUsage org' period' cost db)
    rw [BillingCall.apply, settle, Db.usedMicroUsd, debitCredits_usage, Table.find?_put, hkey,
      BillingCall.metered]
    by_cases h : org' = org ∧ period' = period
    · obtain ⟨rfl, rfl⟩ := h
      simp [settleUsage_used]
    · simp [h, Db.usedMicroUsd]

theorem usedMicroUsd_applyAll (calls : List BillingCall) (db : Db) (org : OrgId)
    (period : BillingPeriod) :
    (applyAll creditGateActive db calls).usedMicroUsd org period =
      db.usedMicroUsd org period + (calls.map (·.metered org period)).sum := by
  induction calls generalizing db with
  | nil => simp [applyAll]
  | cons c calls ih =>
    rw [applyAll, List.foldl_cons, ← applyAll, ih, usedMicroUsd_apply, List.map_cons, List.sum_cons,
      Nat.add_assoc]

theorem SameCounters.refl (db : Db) : SameCounters db db := ⟨.refl db, fun _ _ => rfl⟩

theorem SameCounters.trans {db db' db'' : Db} (h : SameCounters db db') (h' : SameCounters db' db'') :
    SameCounters db db'' :=
  ⟨h.credits.trans h'.credits, fun org period => (h'.used org period).trans (h.used org period)⟩

theorem SameCredits.debitCredits {db db' : Db} (h : SameCredits db db') (org : OrgId) (cost : Nat)
    (now : Time) (k : Option IdempotencyKey) :
    SameCredits (debitCredits creditGateActive org cost now k db)
      (debitCredits creditGateActive org cost now k db') := by
  unfold Billing.debitCredits settleDebitCredits
  rw [h.1, h.2]
  split
  case isTrue => exact h
  case isFalse =>
    split
    case h_1 => exact h
    case h_2 =>
      split
      case h_1 => exact h
      case h_2 => exact ⟨rfl, rfl⟩

theorem SameCredits.grantCredit {db db' : Db} (h : SameCredits db db') (org : OrgId)
    (amount : GrantAmount) (reason : LedgerReason) (k : IdempotencyKey) (actor : Option UserId)
    (now : Time) :
    SameCredits (grantCredit org amount reason k actor now db)
      (grantCredit org amount reason k actor now db') := by
  unfold Billing.grantCredit grantUpsertCredits
  rw [h.1, h.2]
  split
  case h_1 => exact h
  case h_2 => exact ⟨rfl, rfl⟩

theorem SameCredits.apply {db db' : Db} (h : SameCredits db db') (c : BillingCall) :
    SameCredits (c.apply creditGateActive db) (c.apply creditGateActive db') := by
  cases c with
  | settle period now org cost usageKey =>
    have hmetered : ∀ u u' : Table OrgBillingUsage,
        SameCredits { db with orgBillingUsage := u } { db' with orgBillingUsage := u' } :=
      fun _ _ => h
    exact (hmetered _ _).debitCredits org cost now usageKey
  | grant org amount reason k actor now => exact h.grantCredit org amount reason k actor now

theorem SameCounters.apply {db db' : Db} (h : SameCounters db db') (c : BillingCall) :
    SameCounters (c.apply creditGateActive db) (c.apply creditGateActive db') where
  credits := h.credits.apply c
  used org period := by rw [usedMicroUsd_apply, usedMicroUsd_apply, h.used]

theorem SameCounters.applyAll {db db' : Db} (h : SameCounters db db') (calls : List BillingCall) :
    SameCounters (applyAll creditGateActive db calls) (applyAll creditGateActive db' calls) := by
  induction calls generalizing db db' with
  | nil => exact h
  | cons c calls ih => exact ih (h.apply c)

theorem sameCounters_settle_zero (period : BillingPeriod) (now : Time) (org : OrgId)
    (k : Option IdempotencyKey) (db : Db) :
    SameCounters db (settle creditGateActive period now org 0 k db) where
  credits := by
    rw [settle, debitCredits, if_pos (.inr rfl)]
    exact ⟨rfl, rfl⟩
  used org' period' :=
    (usedMicroUsd_apply (.settle period now org 0 k) db org' period').trans
      (by simp [BillingCall.metered])

end Entitlements

section Once

variable {creditGateActive : OrgId → Bool} {k : IdempotencyKey} {calls : List BillingCall}

theorem filter_eq_self_of_count (h : calls.countP (·.settles k) = 0) :
    calls.filter (fun c => !c.settles k) = calls :=
  List.filter_eq_self.mpr fun c hc => by simpa using List.countP_eq_zero.mp h c hc

theorem once_eq_self (h : calls.countP (·.settles k) ≤ 1) : once k calls = calls := by
  induction calls with
  | nil => rfl
  | cons c calls ih =>
    rw [List.countP_cons] at h
    cases hc : c.settles k with
    | true => rw [once, if_pos hc, filter_eq_self_of_count (by simp [hc] at h; simpa using h)]
    | false => rw [once, hc, if_neg (by simp), ih (by omega)]

theorem sameCounters_filter
    (hzero : ∀ c ∈ calls, c.settles k → ∃ period now org, c = .settle period now org 0 (some k))
    (db : Db) :
    SameCounters (applyAll creditGateActive db (calls.filter fun c => !c.settles k))
      (applyAll creditGateActive db calls) := by
  induction calls generalizing db with
  | nil => exact .refl db
  | cons c calls ih =>
    rw [List.forall_mem_cons] at hzero
    cases hc : c.settles k with
    | true =>
      obtain ⟨period, now, org, rfl⟩ := hzero.1 hc
      rw [List.filter_cons_of_neg (by simp [hc])]
      exact (ih hzero.2 db).trans
        ((sameCounters_settle_zero period now org (some k) db).applyAll calls)
    | false =>
      rw [List.filter_cons_of_pos (by simp [hc])]
      exact ih hzero.2 _

theorem sameCounters_once
    (hzero : ∀ c ∈ calls, c.settles k → ∃ period now org, c = .settle period now org 0 (some k))
    (db : Db) :
    SameCounters (applyAll creditGateActive db (once k calls))
      (applyAll creditGateActive db calls) := by
  induction calls generalizing db with
  | nil => exact .refl db
  | cons c calls ih =>
    rw [List.forall_mem_cons] at hzero
    rw [once]
    split
    case isTrue => exact sameCounters_filter hzero.2 _
    case isFalse => exact ih hzero.2 _

theorem metered_filter_lt {period : BillingPeriod} {now : Time} {org : OrgId} {cost : Nat}
    (hmem : .settle period now org cost (some k) ∈ calls) (hcost : 0 < cost) :
    ((calls.filter fun c => !c.settles k).map (·.metered org period)).sum <
      (calls.map (·.metered org period)).sum := by
  induction calls with
  | nil => cases hmem
  | cons c calls ih =>
    have hle : ((calls.filter fun c => !c.settles k).map (·.metered org period)).sum ≤
        (calls.map (·.metered org period)).sum :=
      (List.filter_sublist.map _).sum_le_sum fun _ _ => Nat.zero_le _
    rw [List.map_cons, List.sum_cons]
    obtain rfl | hmem := List.mem_cons.mp hmem
    · have hself : (BillingCall.settle period now org cost (some k)).metered org period = cost := by
        simp [BillingCall.metered]
      rw [List.filter_cons_of_neg (by simp [BillingCall.settles]), hself]
      omega
    · have := ih hmem
      by_cases hc : c.settles k
      · rw [List.filter_cons_of_neg (by simp [hc])]
        omega
      · rw [List.filter_cons_of_pos (by simp [hc]), List.map_cons, List.sum_cons]
        omega

theorem metered_once_lt {org : OrgId} {cost : Nat} (hcost : 0 < cost)
    (hsame : ∀ c ∈ calls, c.settles k → ∃ period now, c = .settle period now org cost (some k))
    (h : 1 < calls.countP (·.settles k)) :
    ∃ period, ((once k calls).map (·.metered org period)).sum <
      (calls.map (·.metered org period)).sum := by
  induction calls with
  | nil => simp at h
  | cons c calls ih =>
    rw [List.forall_mem_cons] at hsame
    rw [List.countP_cons] at h
    rw [once]
    split
    case isTrue hc =>
      obtain ⟨c', hmem, hc'⟩ := List.countP_pos_iff.mp (by simpa [hc] using h)
      obtain ⟨period, now, rfl⟩ := hsame.2 c' hmem hc'
      refine ⟨period, ?_⟩
      rw [List.map_cons, List.map_cons, List.sum_cons, List.sum_cons]
      exact Nat.add_lt_add_left (metered_filter_lt hmem hcost) _
    case isFalse hc =>
      obtain ⟨period, hlt⟩ := ih hsame.2 (by simpa [hc] using h)
      refine ⟨period, ?_⟩
      rw [List.map_cons, List.map_cons, List.sum_cons, List.sum_cons]
      exact Nat.add_lt_add_left hlt _

/-- Among any other calls, the settlements under a key leave every counter as the first of them
alone exactly when they settle nothing or there is only one. -/
theorem sameCounters_once_iff (creditGateActive : OrgId → Bool) (db : Db) (org : OrgId) (cost : Nat)
    (k : IdempotencyKey) (calls : List BillingCall)
    (hsame : ∀ c ∈ calls, c.settles k → ∃ period now, c = .settle period now org cost (some k)) :
    SameCounters (applyAll creditGateActive db (once k calls)) (applyAll creditGateActive db calls) ↔
      cost = 0 ∨ calls.countP (·.settles k) ≤ 1 := by
  constructor
  · intro h
    by_contra hne
    rw [not_or, not_le] at hne
    obtain ⟨period, hlt⟩ := metered_once_lt (Nat.pos_of_ne_zero hne.1) hsame hne.2
    have hused := h.used org period
    rw [usedMicroUsd_applyAll, usedMicroUsd_applyAll] at hused
    omega
  · rintro (rfl | hone)
    · refine sameCounters_once (fun c hc hsettles => ?_) db
      obtain ⟨period, now, e⟩ := hsame c hc hsettles
      exact ⟨period, now, org, e⟩
    · rw [once_eq_self hone]
      exact .refl _

end Once

namespace Sample

def usageKey : IdempotencyKey := ⟨"usage:7:0", by decide, by decide⟩

def db : Db where
  orgBilling := .empty
  orgBillingUsage := .empty
  orgCreditLedger := ⟨[⟨1, 1000000, .grant, .promo, none, none, 0⟩], by decide⟩
  orgCredits := ⟨[.first 1 ⟨1000000, by decide⟩], by decide⟩

def retried (cost : Nat) : List BillingCall :=
  [.settle 0 5 1 cost (some usageKey), .settle 0 6 1 cost (some usageKey)]

theorem retried_settles (cost : Nat) : ∀ c ∈ retried cost, c.settles usageKey →
    ∃ period now, c = .settle period now 1 cost (some usageKey) := by
  intro c hc _
  simp only [retried, List.mem_cons, List.not_mem_nil, or_false] at hc
  obtain rfl | rfl := hc
  · exact ⟨0, 5, rfl⟩
  · exact ⟨0, 6, rfl⟩

end Sample

theorem sameCounters_free_retry :
    SameCounters (applyAll (fun _ => true) Sample.db (once Sample.usageKey (Sample.retried 0)))
      (applyAll (fun _ => true) Sample.db (Sample.retried 0)) :=
  (sameCounters_once_iff _ _ 1 0 _ _ (Sample.retried_settles 0)).mpr (.inl rfl)

/-- The retry is not debited, but it is metered. -/
theorem metered_retry :
    (∀ c ∈ Sample.retried 300000, c.settles Sample.usageKey →
        ∃ period now, c = .settle period now 1 300000 (some Sample.usageKey)) ∧
      SameCredits
        (applyAll (fun _ => true) Sample.db (once Sample.usageKey (Sample.retried 300000)))
        (applyAll (fun _ => true) Sample.db (Sample.retried 300000)) ∧
      ¬ SameCounters
        (applyAll (fun _ => true) Sample.db (once Sample.usageKey (Sample.retried 300000)))
        (applyAll (fun _ => true) Sample.db (Sample.retried 300000)) := by
  refine ⟨Sample.retried_settles 300000, ?_, fun h => absurd (h.used 1 0) (by decide)⟩
  have hinert : Inert (fun _ => true) 1 300000 Sample.usageKey
      (settle (fun _ => true) 0 5 1 300000 (some Sample.usageKey) Sample.db) :=
    inert_settle 0 5 1 300000 Sample.usageKey Sample.db
  exact settle_inert hinert

end Patom.Billing
