import Patom.Foundation.Table
import Patom.Provider.Chat
import Patom.Runtime.Types

open Patom.Foundation
open Patom.Provider (Usage)
open Patom.Runtime (IdempotencyKey)

namespace Patom.Billing

structure Price where
  input : Nat
  output : Nat
  cacheWrite : Nat
  cacheRead : Nat
  deriving DecidableEq

/-- Each lane is rounded down on its own. -/
def turnCost (price : Price) (usage : Usage) : Nat :=
  usage.inputTokens * price.input / 1000000 + usage.outputTokens * price.output / 1000000 +
    usage.cacheCreationInputTokens.getD 0 * price.cacheWrite / 1000000 +
    usage.cacheReadInputTokens.getD 0 * price.cacheRead / 1000000

def FULL_BPS : Nat := 10000

abbrev BillingPeriod := Nat

inductive LedgerKind
  | grant
  | debit
  | adjustment
  deriving DecidableEq

inductive LedgerReason
  | signupBonus
  | promo
  | referral
  | manual
  | refund
  | usage
  deriving DecidableEq

structure GrantAmount where
  get : Nat
  pos : 0 < get
  deriving DecidableEq

def GrantAmount.tryFrom (raw : Int) : Except ParseError GrantAmount :=
  if h : 0 < raw then .ok ⟨raw.toNat, by omega⟩
  else .error (.outOfRange "grant_amount_micro_usd" "must be > 0")

structure OrgBilling where
  orgId : OrgId
  monthlyCapMicroUsd : Option Nat
  warnThresholdBps : Nat
  deriving DecidableEq

structure OrgBillingUsage where
  orgId : OrgId
  periodStart : BillingPeriod
  usedMicroUsd : Nat
  warnedAt : Option Time
  deriving DecidableEq

structure OrgCredits where
  orgId : OrgId
  balanceMicroUsd : Int
  grantedTotalMicroUsd : Nat
  usedTotalMicroUsd : Nat
  balanced : balanceMicroUsd = grantedTotalMicroUsd - usedTotalMicroUsd
  deriving DecidableEq

structure LedgerEntry where
  orgId : OrgId
  deltaMicroUsd : Int
  kind : LedgerKind
  reason : LedgerReason
  idempotencyKey : Option IdempotencyKey
  actor : Option UserId
  createdAt : Time
  deriving DecidableEq

instance : Keyed OrgBilling OrgId := ⟨(·.orgId)⟩
instance : Keyed OrgBillingUsage (OrgId × BillingPeriod) := ⟨fun u => (u.orgId, u.periodStart)⟩
instance : Keyed OrgCredits OrgId := ⟨(·.orgId)⟩

def keysOf (entries : List LedgerEntry) : List IdempotencyKey :=
  entries.filterMap (·.idempotencyKey)

structure CreditLedger where
  entries : List LedgerEntry
  unique : (keysOf entries).Nodup

theorem CreditLedger.nodup_nil : (keysOf ([] : List LedgerEntry)).Nodup := .nil

def CreditLedger.empty : CreditLedger := ⟨[], nodup_nil⟩

def CreditLedger.keys (ledger : CreditLedger) : List IdempotencyKey := keysOf ledger.entries

/-- `INSERT … ON CONFLICT (idempotency_key) DO NOTHING`: `none` when the key is taken. -/
def CreditLedger.insert? (ledger : CreditLedger) (e : LedgerEntry) : Option CreditLedger :=
  if h : ∀ k, e.idempotencyKey = some k → k ∉ ledger.keys then
    some ⟨ledger.entries ++ [e], by
      rw [keysOf, List.filterMap_append]
      cases hk : e.idempotencyKey with
      | none => simpa [hk, keysOf] using ledger.unique
      | some k =>
        simp only [List.filterMap_cons, hk, List.filterMap_nil]
        exact List.nodup_append.mpr ⟨ledger.unique, List.nodup_singleton k, fun a ha b hb e => h k hk
          (List.mem_singleton.mp hb ▸ e ▸ ha)⟩⟩
  else none

structure Db where
  orgBilling : Table OrgBilling
  orgBillingUsage : Table OrgBillingUsage
  orgCreditLedger : CreditLedger
  orgCredits : Table OrgCredits

inductive BillingError
  | exceeded (org : OrgId) (usedMicroUsd capMicroUsd : Nat)
  | outOfCredit (org : OrgId) (balanceMicroUsd : Int)
  deriving DecidableEq

structure UsageSnapshot where
  usedMicroUsd : Nat
  capMicroUsd : Option Nat

def UsageSnapshot.decide (snapshot : UsageSnapshot) (org : OrgId) : Except BillingError Unit :=
  match snapshot.capMicroUsd with
  | none => .ok ()
  | some cap =>
    if cap ≤ snapshot.usedMicroUsd then .error (.exceeded org snapshot.usedMicroUsd cap) else .ok ()

def readSnapshot (org : OrgId) (period : BillingPeriod) (db : Db) : UsageSnapshot × Int :=
  let cap := (db.orgBilling.find? org).bind (·.monthlyCapMicroUsd)
  let used := (db.orgBillingUsage.find? (org, period)).map (·.usedMicroUsd)
  let balance := (db.orgCredits.find? org).map (·.balanceMicroUsd)
  (⟨used.getD 0, cap⟩, balance.getD 0)

section Entitlements

variable (creditGateActive : OrgId → Bool)

/-- The cap first, then credit. -/
def gate (org : OrgId) (period : BillingPeriod) (db : Db) : Except BillingError Unit := do
  let (snapshot, balance) := readSnapshot org period db
  snapshot.decide org
  if creditGateActive org ∧ balance ≤ 0 then .error (.outOfCredit org balance)

def OrgCredits.debit (cost : Nat) (c : OrgCredits) : OrgCredits :=
  { c with
    balanceMicroUsd := c.balanceMicroUsd - cost
    usedTotalMicroUsd := c.usedTotalMicroUsd + cost
    balanced := by
      have := c.balanced
      omega }

/-- One statement: no credits row and a key already in the ledger both leave everything alone. -/
def settleDebitCredits (org : OrgId) (cost : Nat) (usageKey : Option IdempotencyKey) (now : Time)
    (db : Db) : Db :=
  match db.orgCredits.find? org with
  | none => db
  | some credits =>
    match db.orgCreditLedger.insert? ⟨org, -cost, .debit, .usage, usageKey, none, now⟩ with
    | none => db
    | some orgCreditLedger =>
      { db with orgCreditLedger, orgCredits := db.orgCredits.put (credits.debit cost) }

def debitCredits (org : OrgId) (cost : Nat) (now : Time) (usageKey : Option IdempotencyKey)
    (db : Db) : Db :=
  if creditGateActive org = false ∨ cost = 0 then db
  else settleDebitCredits org cost usageKey now db

def settleUsage (org : OrgId) (period : BillingPeriod) (cost : Nat) (db : Db) : OrgBillingUsage :=
  match db.orgBillingUsage.find? (org, period) with
  | some u => { u with usedMicroUsd := u.usedMicroUsd + cost }
  | none => ⟨org, period, cost, none⟩

def warnThresholdMicros (cap bps : Nat) : Nat := cap * bps / FULL_BPS

/-- The warning is stamped on the first settle of the period that reaches the threshold. -/
def fireWarnOnce (config : Option OrgBilling) (now : Time) (u : OrgBillingUsage) : OrgBillingUsage :=
  match config with
  | some ⟨_, some cap, bps⟩ =>
    if warnThresholdMicros cap bps ≤ u.usedMicroUsd ∧ u.warnedAt = none then
      { u with warnedAt := some now }
    else u
  | _ => u

def settle (period : BillingPeriod) (now : Time) (org : OrgId) (cost : Nat)
    (usageKey : Option IdempotencyKey) (db : Db) : Db :=
  let usage := fireWarnOnce (db.orgBilling.find? org) now (settleUsage org period cost db)
  debitCredits creditGateActive org cost now usageKey
    { db with orgBillingUsage := db.orgBillingUsage.put usage }

end Entitlements

def OrgCredits.first (org : OrgId) (amount : GrantAmount) : OrgCredits where
  orgId := org
  balanceMicroUsd := amount.get
  grantedTotalMicroUsd := amount.get
  usedTotalMicroUsd := 0
  balanced := by simp

def OrgCredits.grant (amount : GrantAmount) (c : OrgCredits) : OrgCredits :=
  { c with
    balanceMicroUsd := c.balanceMicroUsd + amount.get
    grantedTotalMicroUsd := c.grantedTotalMicroUsd + amount.get
    balanced := by
      have := c.balanced
      omega }

def grantUpsertCredits (org : OrgId) (amount : GrantAmount) (db : Db) : OrgCredits :=
  match db.orgCredits.find? org with
  | none => .first org amount
  | some credits => credits.grant amount

/-- The balance moves only with a new ledger entry. -/
def grantCredit (org : OrgId) (amount : GrantAmount) (reason : LedgerReason) (idempotencyKey : IdempotencyKey)
    (actor : Option UserId) (now : Time) (db : Db) : Db :=
  match db.orgCreditLedger.insert?
      ⟨org, amount.get, .grant, reason, some idempotencyKey, actor, now⟩ with
  | none => db
  | some orgCreditLedger =>
    { db with orgCreditLedger, orgCredits := db.orgCredits.put (grantUpsertCredits org amount db) }

theorem CreditLedger.insert?_taken {ledger : CreditLedger} {e : LedgerEntry} {k : IdempotencyKey}
    (hk : e.idempotencyKey = some k) (h : k ∈ ledger.keys) : ledger.insert? e = none :=
  dif_neg fun hfree => hfree k hk h

theorem CreditLedger.insert?_fresh {ledger : CreditLedger} {e : LedgerEntry} {k : IdempotencyKey}
    (hk : e.idempotencyKey = some k) (h : k ∉ ledger.keys) :
    ∃ ledger', ledger.insert? e = some ledger' ∧ ledger'.entries = ledger.entries ++ [e] ∧
      ledger'.keys = ledger.keys ++ [k] := by
  have hfree : ∀ k', e.idempotencyKey = some k' → k' ∉ ledger.keys := by
    intro k' hk'
    rw [hk] at hk'
    rwa [← Option.some_inj.mp hk']
  refine ⟨_, dif_pos hfree, rfl, ?_⟩
  simp [CreditLedger.keys, keysOf, List.filterMap_append, hk]

def SameCredits (db db' : Db) : Prop :=
  db'.orgCreditLedger = db.orgCreditLedger ∧ db'.orgCredits = db.orgCredits

theorem SameCredits.refl (db : Db) : SameCredits db db := ⟨rfl, rfl⟩

theorem SameCredits.trans {db db' db'' : Db} (h : SameCredits db db') (h' : SameCredits db' db'') :
    SameCredits db db'' :=
  ⟨h'.1.trans h.1, h'.2.trans h.2⟩

section Entitlements

variable {creditGateActive : OrgId → Bool}

theorem settleDebitCredits_idle {org : OrgId} {cost : Nat} {k : IdempotencyKey} {now : Time} {db : Db}
    (h : db.orgCredits.find? org = none ∨ k ∈ db.orgCreditLedger.keys) :
    SameCredits db (settleDebitCredits org cost (some k) now db) := by
  unfold settleDebitCredits
  split
  case h_1 => exact ⟨rfl, rfl⟩
  case h_2 credits hcredits =>
    obtain hnone | htaken := h
    · rw [hnone] at hcredits
      cases hcredits
    · rw [CreditLedger.insert?_taken rfl htaken]
      exact ⟨rfl, rfl⟩

theorem settleDebitCredits_fresh {org : OrgId} {cost : Nat} {k : IdempotencyKey} {now : Time} {db : Db}
    {credits : OrgCredits} (hcredits : db.orgCredits.find? org = some credits)
    (h : k ∉ db.orgCreditLedger.keys) :
    (settleDebitCredits org cost (some k) now db).orgCredits.find? org = some (credits.debit cost) ∧
      (settleDebitCredits org cost (some k) now db).orgCreditLedger.keys =
        db.orgCreditLedger.keys ++ [k] := by
  obtain ⟨ledger, hins, -, hkeys⟩ := CreditLedger.insert?_fresh
    (e := ⟨org, -cost, .debit, .usage, some k, none, now⟩) rfl h
  have hkey : key (credits.debit cost) = org := (Table.key_of_find? hcredits : key credits = org)
  rw [settleDebitCredits, hcredits]
  simp only [hins]
  exact ⟨by simp [hkey], hkeys⟩

def Inert (creditGateActive : OrgId → Bool) (org : OrgId) (cost : Nat) (k : IdempotencyKey)
    (db : Db) : Prop :=
  creditGateActive org = false ∨ cost = 0 ∨ db.orgCredits.find? org = none ∨
    k ∈ db.orgCreditLedger.keys

theorem settle_inert {period : BillingPeriod} {now : Time} {org : OrgId} {cost : Nat}
    {k : IdempotencyKey} {db : Db} (h : Inert creditGateActive org cost k db) :
    SameCredits db (settle creditGateActive period now org cost (some k) db) := by
  simp only [settle, debitCredits]
  split
  case isTrue => exact ⟨rfl, rfl⟩
  case isFalse hactive =>
    obtain hgate | hcost | hidle := h
    · exact absurd (.inl hgate) hactive
    · exact absurd (.inr hcost) hactive
    · exact settleDebitCredits_idle hidle

theorem settle_debits {period : BillingPeriod} {now : Time} {org : OrgId} {cost : Nat}
    {k : IdempotencyKey} {db : Db} {credits : OrgCredits} (hgate : creditGateActive org)
    (hcost : cost ≠ 0) (hcredits : db.orgCredits.find? org = some credits)
    (h : k ∉ db.orgCreditLedger.keys) :
    (settle creditGateActive period now org cost (some k) db).orgCredits.find? org =
        some (credits.debit cost) ∧
      (settle creditGateActive period now org cost (some k) db).orgCreditLedger.keys =
        db.orgCreditLedger.keys ++ [k] := by
  simp only [settle, debitCredits, hgate, hcost, Bool.true_eq_false, or_self, if_false]
  exact settleDebitCredits_fresh hcredits h

theorem Inert.congr {org : OrgId} {cost : Nat} {k : IdempotencyKey} {db db' : Db} (h : SameCredits db db')
    (hinert : Inert creditGateActive org cost k db) : Inert creditGateActive org cost k db' := by
  unfold Inert at *
  rwa [h.1, h.2]

theorem inert_settle (period : BillingPeriod) (now : Time) (org : OrgId) (cost : Nat)
    (k : IdempotencyKey) (db : Db) :
    Inert creditGateActive org cost k (settle creditGateActive period now org cost (some k) db) := by
  by_cases hinert : Inert creditGateActive org cost k db
  · exact hinert.congr (settle_inert hinert)
  · simp only [Inert, not_or] at hinert
    obtain ⟨hgate, hcost, hrow, hkey⟩ := hinert
    obtain ⟨credits, hcredits⟩ := Option.ne_none_iff_exists'.mp hrow
    obtain ⟨-, hkeys⟩ := settle_debits (by simpa using hgate) hcost hcredits hkey
    refine .inr (.inr (.inr ?_))
    rw [hkeys]
    exact List.mem_append_right _ (List.mem_singleton.mpr rfl)

theorem Inert.settle {org : OrgId} {cost : Nat} {k : IdempotencyKey} {db : Db}
    (hinert : Inert creditGateActive org cost k db) (period : BillingPeriod) (now : Time)
    (cost' : Nat) (k' : IdempotencyKey) :
    Inert creditGateActive org cost k
      (Billing.settle creditGateActive period now org cost' (some k') db) := by
  by_cases hother : Inert creditGateActive org cost' k' db
  · exact hinert.congr (settle_inert hother)
  · simp only [Inert, not_or] at hother
    obtain ⟨hgate, hcost, hrow, hkey⟩ := hother
    obtain ⟨credits, hcredits⟩ := Option.ne_none_iff_exists'.mp hrow
    obtain ⟨-, hkeys⟩ := settle_debits (by simpa using hgate) hcost hcredits hkey
    rcases hinert with h | h | h | h
    · exact .inl h
    · exact .inr (.inl h)
    · exact absurd h hrow
    · refine .inr (.inr (.inr ?_))
      rw [hkeys]
      exact List.mem_append_left _ h

end Entitlements

end Patom.Billing
