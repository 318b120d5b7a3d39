import Patom.Billing.Service
import Patom.Foundation.Transition

open Patom.Foundation
open Patom.Runtime (IdempotencyKey)

namespace Patom.Billing

inductive Statement
  | grantUpsertCredits (amount : GrantAmount)
  | debitCredits (org : OrgId) (cost : Nat) (usageKey : Option IdempotencyKey) (now : Time)

/-- An open transaction: what it has written stays locked, and unseen, until it commits. -/
structure Tx where
  id : Nat
  usage : Option OrgBillingUsage
  entry : Option LedgerEntry
  credits : Option OrgCredits
  next : Option Statement

instance : Keyed Tx Nat := ⟨(·.id)⟩

def Tx.key (tx : Tx) : Option IdempotencyKey := tx.entry.bind (·.idempotencyKey)

structure St where
  db : Db
  txs : Table Tx

/-- No other transaction holds a value of `lock`; the one that does has to be waited for. -/
def St.unlocked {κ : Type} [DecidableEq κ] (s : St) (id : Nat) (lock : Tx → Option κ) (k : Option κ) :
    Bool :=
  s.txs.rows.all fun tx => tx.id = id ∨ lock tx = none ∨ lock tx ≠ k

def Tx.creditsRow (tx : Tx) : Option OrgId := tx.credits.map (·.orgId)
def Tx.usageRow (tx : Tx) : Option (OrgId × BillingPeriod) := tx.usage.map Foundation.key

inductive BillingAct
  | grantInsert (id : Nat) (org : OrgId) (amount : GrantAmount) (reason : LedgerReason)
      (idempotencyKey : IdempotencyKey) (actor : Option UserId) (now : Time)
  | grantUpsert (id : Nat)
  | settleUsage (id : Nat) (org : OrgId) (period : BillingPeriod) (now : Time) (cost : Nat)
      (usageKey : Option IdempotencyKey)
  | settleDebit (id : Nat)
  | commit (id : Nat)
  | rollback (id : Nat)

def CreditLedger.append? (ledger : CreditLedger) : Option LedgerEntry → Option CreditLedger
  | none => some ledger
  | some e => ledger.insert? e

def Db.write (db : Db) (tx : Tx) : Option Db :=
  (db.orgCreditLedger.append? tx.entry).map fun orgCreditLedger =>
    { db with
      orgBillingUsage := tx.usage.elim db.orgBillingUsage db.orgBillingUsage.put
      orgCreditLedger
      orgCredits := tx.credits.elim db.orgCredits db.orgCredits.put }

section Entitlements

variable (creditGateActive : OrgId → Bool)

def debitStatement (s : St) (tx : Tx) (org : OrgId) (cost : Nat) (usageKey : Option IdempotencyKey)
    (now : Time) : Option Tx :=
  let done := { tx with next := none }
  if creditGateActive org = false ∨ cost = 0 then some done
  else
    match s.db.orgCredits.find? org with
    | none => some done
    | some credits =>
      if s.unlocked tx.id Tx.key usageKey then
        let entry : LedgerEntry := ⟨org, -cost, .debit, .usage, usageKey, none, now⟩
        if (s.db.orgCreditLedger.insert? entry).isNone then some done
        else if s.unlocked tx.id Tx.creditsRow (some org) then
          some { done with entry, credits := some (credits.debit cost) }
        else none
      else none

def billingStep : Step St BillingAct
  | s, .grantInsert id org amount reason idempotencyKey actor now =>
    if s.unlocked id Tx.key (some idempotencyKey) then
      let entry : LedgerEntry :=
        ⟨org, amount.get, .grant, reason, some idempotencyKey, actor, now⟩
      let tx : Tx :=
        if (s.db.orgCreditLedger.insert? entry).isNone then ⟨id, none, none, none, none⟩
        else ⟨id, none, some entry, none, some (.grantUpsertCredits amount)⟩
      (s.txs.insert? tx).map fun txs => { s with txs }
    else none
  | s, .grantUpsert id =>
    match s.txs.find? id with
    | some tx@⟨_, _, some entry, _, some (.grantUpsertCredits amount)⟩ =>
      if s.unlocked id Tx.creditsRow (some entry.orgId) then
        let credits := grantUpsertCredits entry.orgId amount s.db
        some { s with txs := s.txs.put { tx with credits := some credits, next := none } }
      else none
    | _ => none
  | s, .settleUsage id org period now cost usageKey =>
    if s.unlocked id Tx.usageRow (some (org, period)) then
      let usage :=
        fireWarnOnce (s.db.orgBilling.find? org) now (settleUsage org period cost s.db)
      let tx : Tx := ⟨id, some usage, none, none, some (.debitCredits org cost usageKey now)⟩
      (s.txs.insert? tx).map fun txs => { s with txs }
    else none
  | s, .settleDebit id =>
    match s.txs.find? id with
    | some tx@⟨_, _, _, _, some (.debitCredits org cost usageKey now)⟩ =>
      (debitStatement creditGateActive s tx org cost usageKey now).map fun tx =>
        { s with txs := s.txs.put tx }
    | _ => none
  | s, .commit id =>
    match s.txs.find? id with
    | some tx@⟨_, _, _, _, none⟩ =>
      (s.db.write tx).map fun db => { db, txs := s.txs.delete fun tx => tx.id = id }
    | _ => none
  | s, .rollback id => some { s with txs := s.txs.delete fun tx => tx.id = id }

end Entitlements

variable {creditGateActive : OrgId → Bool}

def alone (db : Db) (tx : Tx) : St := ⟨db, ⟨[tx], List.nodup_singleton _⟩⟩

theorem alone_find? (db : Db) (tx : Tx) : (alone db tx).txs.find? tx.id = some tx :=
  Table.find?_of_mem (List.mem_singleton.mpr rfl)

theorem alone_put (db : Db) (tx tx' : Tx) (h : tx'.id = tx.id) :
    (alone db tx).txs.put tx' = (alone db tx').txs := by
  apply Table.ext
  have hkey : key tx' = key tx := h
  simp [alone, Table.put, Table.modify, hkey]

theorem alone_delete (db : Db) (tx : Tx) :
    ((alone db tx).txs.delete fun x => x.id = tx.id) = .empty := by
  apply Table.ext
  simp [alone, Table.delete, Table.empty]

theorem alone_unlocked {κ : Type} [DecidableEq κ] (db : Db) (tx : Tx) (lock : Tx → Option κ)
    (k : Option κ) :
    (alone db tx).unlocked tx.id lock k := by
  simp [St.unlocked, alone]

theorem alone_settleDebit (db : Db) {tx : Tx} {org : OrgId} {cost : Nat}
    {usageKey : Option IdempotencyKey} {now : Time}
    (hnext : tx.next = some (.debitCredits org cost usageKey now)) {tx' : Tx}
    (hdebit : debitStatement creditGateActive (alone db tx) tx org cost usageKey now = some tx')
    (hid : tx'.id = tx.id) :
    billingStep creditGateActive (alone db tx) (.settleDebit tx.id) = some (alone db tx') := by
  have hfind := alone_find? db tx
  obtain ⟨id, usage, entry, credits, next⟩ := tx
  cases hnext
  simp only [billingStep, hfind, hdebit, Option.map_some, alone_put db _ _ hid]
  rfl

theorem alone_grantUpsert (db : Db) {tx : Tx} {entry : LedgerEntry} {amount : GrantAmount}
    (hentry : tx.entry = some entry) (hnext : tx.next = some (.grantUpsertCredits amount)) :
    billingStep creditGateActive (alone db tx) (.grantUpsert tx.id) =
      some (alone db { tx with
        credits := some (grantUpsertCredits entry.orgId amount db)
        next := none }) := by
  have hfind := alone_find? db tx
  have hrow := alone_unlocked db tx Tx.creditsRow (some entry.orgId)
  have hput := fun tx' => alone_put db tx tx'
  obtain ⟨id, usage, _, credits, _⟩ := tx
  cases hentry
  cases hnext
  simp only [billingStep, hfind, hrow, if_true]
  exact congrArg (fun txs => some (⟨db, txs⟩ : St)) (hput _ rfl)

theorem alone_commit (db : Db) {tx : Tx} (hnext : tx.next = none) {db' : Db}
    (hwrite : db.write tx = some db') :
    billingStep creditGateActive (alone db tx) (.commit tx.id) = some ⟨db', .empty⟩ := by
  have hfind := alone_find? db tx
  have hdelete := alone_delete db tx
  obtain ⟨id, usage, entry, credits, next⟩ := tx
  cases hnext
  have hdb : (alone db ⟨id, usage, entry, credits, none⟩).db = db := rfl
  simp only [billingStep, hfind, hdb, hwrite, Option.map_some, hdelete]

theorem alone_debit (db : Db) (id : Nat) (usage : OrgBillingUsage) (org : OrgId) (cost : Nat)
    (usageKey : Option IdempotencyKey) (now : Time) (next : Option Statement) :
    ∃ tx, tx.id = id ∧ tx.next = none ∧
      debitStatement creditGateActive (alone db ⟨id, some usage, none, none, next⟩)
        ⟨id, some usage, none, none, next⟩ org cost usageKey now = some tx ∧
      db.write tx = some (debitCredits creditGateActive org cost now usageKey
        { db with orgBillingUsage := db.orgBillingUsage.put usage }) := by
  have hkey := alone_unlocked db ⟨id, some usage, none, none, next⟩ Tx.key usageKey
  have hrow := alone_unlocked db ⟨id, some usage, none, none, next⟩ Tx.creditsRow (some org)
  have hdb : (alone db ⟨id, some usage, none, none, next⟩).db = db := rfl
  unfold debitStatement debitCredits settleDebitCredits
  simp only [hkey, hrow, hdb, if_true]
  split
  case isTrue => exact ⟨_, rfl, rfl, rfl, rfl⟩
  case isFalse =>
    cases db.orgCredits.find? org with
    | none => exact ⟨_, rfl, rfl, rfl, rfl⟩
    | some c =>
      cases hins : db.orgCreditLedger.insert? ⟨org, -cost, .debit, .usage, usageKey, none, now⟩ with
      | none => exact ⟨_, rfl, rfl, rfl, rfl⟩
      | some ledger => exact ⟨_, rfl, rfl, rfl, by simp [Db.write, CreditLedger.append?, hins]⟩

/-- A settlement that nothing interleaves with is `settle`. -/
theorem settle_uninterrupted (db : Db) (id : Nat) (org : OrgId) (period : BillingPeriod) (now : Time)
    (cost : Nat) (usageKey : Option IdempotencyKey) :
    run (billingStep creditGateActive) ⟨db, .empty⟩
      [.settleUsage id org period now cost usageKey, .settleDebit id, .commit id] =
      some ⟨settle creditGateActive period now org cost usageKey db, .empty⟩ := by
  let usage := fireWarnOnce (db.orgBilling.find? org) now (settleUsage org period cost db)
  let next := some (Statement.debitCredits org cost usageKey now)
  obtain ⟨tx, rfl, hnext, hdebit, hwrite⟩ :=
    @alone_debit creditGateActive db id usage org cost usageKey now next
  have hopen : billingStep creditGateActive ⟨db, .empty⟩
      (.settleUsage tx.id org period now cost usageKey) =
      some (alone db ⟨tx.id, some usage, none, none, next⟩) := rfl
  rw [run_cons, hopen, Option.bind_some, run_cons, alone_settleDebit db rfl hdebit rfl,
    Option.bind_some, run_cons, alone_commit db hnext hwrite]
  rfl

/-- The statements of a grant: only a new ledger row moves the credits. -/
def grantStatements (id : Nat) (org : OrgId) (amount : GrantAmount) (reason : LedgerReason)
    (k : IdempotencyKey) (actor : Option UserId) (now : Time) (ledger : CreditLedger) :
    List BillingAct :=
  [.grantInsert id org amount reason k actor now] ++
    (if k ∈ ledger.keys then [] else [.grantUpsert id]) ++ [.commit id]

/-- A grant that nothing interleaves with is `grantCredit`. -/
theorem grant_uninterrupted (db : Db) (id : Nat) (org : OrgId) (amount : GrantAmount)
    (reason : LedgerReason) (k : IdempotencyKey) (actor : Option UserId) (now : Time) :
    run (billingStep creditGateActive) ⟨db, .empty⟩
      (grantStatements id org amount reason k actor now db.orgCreditLedger) =
      some ⟨grantCredit org amount reason k actor now db, .empty⟩ := by
  let entry : LedgerEntry := ⟨org, amount.get, .grant, reason, some k, actor, now⟩
  have hkey : entry.idempotencyKey = some k := rfl
  unfold grantCredit grantStatements
  by_cases htaken : k ∈ db.orgCreditLedger.keys
  · have hins := CreditLedger.insert?_taken hkey htaken
    have hopen : billingStep creditGateActive ⟨db, .empty⟩
        (.grantInsert id org amount reason k actor now) =
        some (alone db ⟨id, none, none, none, none⟩) := by
      simp only [billingStep, entry, hins]
      rfl
    have hcommit := @alone_commit creditGateActive db ⟨id, none, none, none, none⟩ rfl db rfl
    rw [if_pos htaken, List.append_nil, List.singleton_append, run_cons, hopen, Option.bind_some,
      run_cons, hcommit, hins]
    rfl
  · obtain ⟨ledger, hins, -⟩ := CreditLedger.insert?_fresh hkey htaken
    let tx : Tx := ⟨id, none, some entry, none, some (.grantUpsertCredits amount)⟩
    have hopen : billingStep creditGateActive ⟨db, .empty⟩
        (.grantInsert id org amount reason k actor now) = some (alone db tx) := by
      simp only [billingStep, entry, hins]
      rfl
    have hupsert := @alone_grantUpsert creditGateActive db tx entry amount rfl rfl
    have hwrite : db.write { tx with
        credits := some (grantUpsertCredits org amount db)
        next := none } = some { db with
          orgCreditLedger := ledger
          orgCredits := db.orgCredits.put (grantUpsertCredits org amount db) } := by
      simp only [Db.write, CreditLedger.append?, tx, hins]
      rfl
    rw [if_neg htaken, List.append_assoc, List.singleton_append, List.singleton_append, run_cons,
      hopen, Option.bind_some, run_cons, hupsert, Option.bind_some, run_cons, alone_commit db rfl hwrite,
      hins]
    rfl

end Patom.Billing
