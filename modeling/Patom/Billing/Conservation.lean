import Patom.Billing.Transactions

open Patom.Foundation
open Patom.Runtime (IdempotencyKey)

namespace Patom.Billing

def Db.balance (db : Db) (org : OrgId) : Int :=
  ((db.orgCredits.find? org).map (·.balanceMicroUsd)).getD 0

def Db.grantedTotal (db : Db) (org : OrgId) : Nat :=
  ((db.orgCredits.find? org).map (·.grantedTotalMicroUsd)).getD 0

def Db.usedTotal (db : Db) (org : OrgId) : Nat :=
  ((db.orgCredits.find? org).map (·.usedTotalMicroUsd)).getD 0

def deltaFor (org : OrgId) (e : LedgerEntry) : Int := if e.orgId = org then e.deltaMicroUsd else 0

def Db.ledgerSum (db : Db) (org : OrgId) : Int :=
  (db.orgCreditLedger.entries.map (deltaFor org)).sum

structure Conserved (db : Db) (org : OrgId) : Prop where
  totals : db.balance org = db.grantedTotal org - db.usedTotal org
  ledger : db.balance org = db.ledgerSum org

/-- The balance a transaction would write is the committed one moved by its entry. -/
structure TxInv (db : Db) (tx : Tx) : Prop where
  moved : ∀ c, tx.credits = some c → ∃ e, tx.entry = some e ∧ e.orgId = c.orgId ∧
    c.balanceMicroUsd = db.balance c.orgId + e.deltaMicroUsd
  pending : ∀ e, tx.entry = some e → tx.credits = none →
    ∃ amount, tx.next = some (.grantUpsertCredits amount) ∧ e.deltaMicroUsd = amount.get
  granting : ∀ amount, tx.next = some (.grantUpsertCredits amount) →
    ∀ e, tx.entry = some e → e.deltaMicroUsd = amount.get
  debiting : ∀ org cost usageKey now, tx.next = some (.debitCredits org cost usageKey now) →
    tx.entry = none ∧ tx.credits = none
  fresh : ∀ k, tx.key = some k → k ∉ db.orgCreditLedger.keys

structure Apart (tx tx' : Tx) : Prop where
  credits : tx.creditsRow = none ∨ tx.creditsRow ≠ tx'.creditsRow
  key : tx.key = none ∨ tx.key ≠ tx'.key

structure ConservationInv (s : St) : Prop where
  ledger : ∀ org, s.db.balance org = s.db.ledgerSum org
  txs : ∀ tx ∈ s.txs, TxInv s.db tx
  apart : ∀ tx ∈ s.txs, ∀ tx' ∈ s.txs, tx.id ≠ tx'.id → Apart tx tx'

theorem balance_eq_totals (db : Db) (org : OrgId) :
    db.balance org = db.grantedTotal org - db.usedTotal org := by
  unfold Db.balance Db.grantedTotal Db.usedTotal
  cases db.orgCredits.find? org with
  | none => rfl
  | some c => exact c.balanced

theorem unshared_symm {κ : Type} {a b : Option κ} (h : a = none ∨ a ≠ b) : b = none ∨ b ≠ a := by
  rcases h with rfl | hne
  · exact or_iff_not_imp_left.mpr id
  · exact .inr hne.symm

theorem Apart.symm {tx tx' : Tx} (h : Apart tx tx') : Apart tx' tx :=
  ⟨unshared_symm h.credits, unshared_symm h.key⟩

theorem unlocked_iff {κ : Type} [DecidableEq κ] {s : St} {id : Nat} {lock : Tx → Option κ}
    {k : Option κ} :
    s.unlocked id lock k ↔ ∀ tx ∈ s.txs, tx.id ≠ id → lock tx = none ∨ lock tx ≠ k := by
  simp only [St.unlocked, List.all_eq_true, decide_eq_true_eq, ← Table.mem_def]
  exact forall₂_congr fun tx _ => or_iff_not_imp_left

section Write

variable {db db' : Db} {tx : Tx}

def Tx.delta (tx : Tx) (org : OrgId) : Int := (tx.entry.map (deltaFor org)).getD 0

theorem CreditLedger.append?_entries {ledger ledger' : CreditLedger} {e : Option LedgerEntry}
    (h : ledger.append? e = some ledger') : ledger'.entries = ledger.entries ++ e.toList := by
  cases e with
  | none =>
    cases h
    simp
  | some e =>
    rw [append?, insert?] at h
    split at h
    · cases h
      rfl
    · cases h

theorem write_entries (h : db.write tx = some db') :
    db'.orgCreditLedger.entries = db.orgCreditLedger.entries ++ tx.entry.toList := by
  obtain ⟨ledger, happend, rfl⟩ := Option.map_eq_some_iff.mp h
  exact CreditLedger.append?_entries happend

theorem write_keys (h : db.write tx = some db') :
    db'.orgCreditLedger.keys = db.orgCreditLedger.keys ++ tx.key.toList := by
  rw [CreditLedger.keys, CreditLedger.keys, keysOf, keysOf, write_entries h, List.filterMap_append,
    Tx.key]
  cases tx.entry with
  | none => rfl
  | some e => cases hk : e.idempotencyKey <;> simp [hk]

theorem write_ledgerSum (h : db.write tx = some db') (org : OrgId) :
    db'.ledgerSum org = db.ledgerSum org + tx.delta org := by
  rw [Db.ledgerSum, Db.ledgerSum, write_entries h, Tx.delta, List.map_append, List.sum_append]
  cases tx.entry <;> simp

theorem write_credits (h : db.write tx = some db') :
    db'.orgCredits = tx.credits.elim db.orgCredits db.orgCredits.put := by
  obtain ⟨ledger, -, rfl⟩ := Option.map_eq_some_iff.mp h
  rfl

theorem TxInv.entry_none (hinv : TxInv db tx) (hnext : tx.next = none) (h : tx.credits = none) :
    tx.entry = none := by
  cases he : tx.entry with
  | none => rfl
  | some e =>
    obtain ⟨amount, hamount, -⟩ := hinv.pending e he h
    rw [hnext] at hamount
    cases hamount

theorem write_balance (hinv : TxInv db tx) (hnext : tx.next = none) (h : db.write tx = some db')
    (org : OrgId) : db'.balance org = db.balance org + tx.delta org := by
  rw [Db.balance, write_credits h]
  cases hc : tx.credits with
  | none =>
    rw [Tx.delta, hinv.entry_none hnext hc]
    simp [Db.balance]
  | some c =>
    obtain ⟨e, he, horg, hmoved⟩ := hinv.moved c hc
    rw [Tx.delta, he, Option.elim_some, Table.find?_put, Option.map_some, Option.getD_some, deltaFor,
      horg]
    change (Option.map _ (if c.orgId = org then _ else _)).getD 0 = _
    split
    case isTrue hkey =>
      rw [← hkey]
      exact hmoved
    case isFalse => exact (Int.add_zero _).symm

theorem TxInv.write {tx' : Tx} (hinv : TxInv db tx) (hnext : tx.next = none)
    (h : db.write tx = some db') (hinv' : TxInv db tx') (hapart : Apart tx' tx) : TxInv db' tx' where
  moved c hc := by
    obtain ⟨e, he, horg, hmoved⟩ := hinv'.moved c hc
    refine ⟨e, he, horg, ?_⟩
    rw [write_balance hinv hnext h, hmoved]
    suffices hzero : tx.delta c.orgId = 0 by rw [hzero, Int.add_zero]
    rw [Tx.delta]
    cases hcredits : tx.credits with
    | none =>
      rw [hinv.entry_none hnext hcredits]
      rfl
    | some c' =>
      obtain ⟨e', he', horg', -⟩ := hinv.moved c' hcredits
      rw [he', Option.map_some, Option.getD_some, deltaFor, if_neg]
      rw [horg']
      intro hsame
      rcases hapart.credits with hnone | hne
      · simp [Tx.creditsRow, hc] at hnone
      · exact hne (by simp [Tx.creditsRow, hc, hcredits, hsame])
  pending := hinv'.pending
  granting := hinv'.granting
  debiting := hinv'.debiting
  fresh k hk hmem := by
    rw [write_keys h, List.mem_append, Option.mem_toList] at hmem
    rcases hmem with hmem | hmem
    · exact hinv'.fresh k hk hmem
    · rcases hapart.key with hnone | hne
      · rw [hk] at hnone
        cases hnone
      · exact hne (hk.trans (Option.mem_def.mp hmem).symm)

end Write

theorem CreditLedger.fresh_of_insert? {ledger : CreditLedger} {e : LedgerEntry}
    (h : (ledger.insert? e).isNone = false) (k : IdempotencyKey) (hk : e.idempotencyKey = some k) :
    k ∉ ledger.keys := by
  intro hmem
  rw [CreditLedger.insert?_taken hk hmem] at h
  cases h

theorem CreditLedger.append?_fresh {ledger : CreditLedger} {tx : Tx}
    (h : ∀ k, tx.key = some k → k ∉ ledger.keys) : (ledger.append? tx.entry).isSome := by
  rw [Tx.key] at h
  cases he : tx.entry with
  | none => rfl
  | some e =>
    rw [he, Option.bind_some] at h
    rw [append?, insert?, dif_pos h]
    rfl

theorem grantUpsert_orgId (org : OrgId) (amount : GrantAmount) (db : Db) :
    (grantUpsertCredits org amount db).orgId = org := by
  unfold grantUpsertCredits
  split
  case h_1 => rfl
  case h_2 c hc => exact (Table.key_of_find? hc : key c = org)

theorem grantUpsert_balance (org : OrgId) (amount : GrantAmount) (db : Db) :
    (grantUpsertCredits org amount db).balanceMicroUsd = db.balance org + amount.get := by
  unfold grantUpsertCredits Db.balance
  split
  case h_1 hnone => simp [hnone, OrgCredits.first]
  case h_2 c hc => simp [hc, OrgCredits.grant]

structure Fits (s : St) (tx : Tx) : Prop where
  inv : TxInv s.db tx
  apart : ∀ x ∈ s.txs, x.id ≠ tx.id → Apart tx x

section Fits

variable {s : St} {tx : Tx}

theorem fits_idle (hentry : tx.entry = none) (hcredits : tx.credits = none)
    (hnext : ∀ amount, tx.next ≠ some (.grantUpsertCredits amount)) : Fits s tx where
  inv :=
    { moved := fun c hc => by simp [hcredits] at hc
      pending := fun e he => by simp [hentry] at he
      granting := fun amount h => absurd h (hnext amount)
      debiting := fun _ _ _ _ _ => ⟨hentry, hcredits⟩
      fresh := fun k hk => by simp [Tx.key, hentry] at hk }
  apart _ _ _ := ⟨.inl (by simp [Tx.creditsRow, hcredits]), .inl (by simp [Tx.key, hentry])⟩

theorem ConservationInv.fits (h : ConservationInv s) {s' : St} (hfits : Fits s tx)
    (hdb : s'.db = s.db) (htxs : ∀ x ∈ s'.txs, x = tx ∨ x ∈ s.txs ∧ x.id ≠ tx.id) :
    ConservationInv s' where
  ledger := hdb ▸ h.ledger
  txs x hx := by
    rw [hdb]
    rcases htxs x hx with rfl | ⟨hx, -⟩
    · exact hfits.inv
    · exact h.txs x hx
  apart x hx x' hx' hne := by
    rcases htxs x hx with rfl | ⟨hx, hid⟩
    · rcases htxs x' hx' with rfl | ⟨hx', hid'⟩
      · exact absurd rfl hne
      · exact hfits.apart x' hx' hid'
    · rcases htxs x' hx' with rfl | ⟨hx', -⟩
      · exact (hfits.apart x hx hid).symm
      · exact h.apart x hx x' hx' hne

theorem ConservationInv.opened (h : ConservationInv s) (hfits : Fits s tx) {txs : Table Tx}
    (hins : s.txs.insert? tx = some txs) : ConservationInv { s with txs } := by
  refine h.fits hfits rfl fun x hx => ((Table.mem_insert? hins).mp hx).symm.imp_right fun hx => ?_
  have hnone := Table.insert?_isSome.mp (Option.isSome_of_eq_some hins)
  exact ⟨hx, fun e => Table.find?_eq_none.mp hnone x hx e⟩

theorem ConservationInv.put (h : ConservationInv s) (hfits : Fits s tx) :
    ConservationInv { s with txs := s.txs.put tx } :=
  h.fits hfits rfl fun _ hx => (Table.mem_put.mp hx)

theorem ConservationInv.delete (h : ConservationInv s) (id : Nat) :
    ConservationInv { s with txs := s.txs.delete fun tx => tx.id = id } where
  ledger := h.ledger
  txs x hx := h.txs x (Table.mem_delete.mp hx).1
  apart x hx x' hx' := h.apart x (Table.mem_delete.mp hx).1 x' (Table.mem_delete.mp hx').1

theorem ConservationInv.commit (h : ConservationInv s) (htx : tx ∈ s.txs) (hnext : tx.next = none)
    {db : Db} (hwrite : s.db.write tx = some db) :
    ConservationInv { db, txs := s.txs.delete fun x => x.id = tx.id } where
  ledger org := by
    rw [write_balance (h.txs tx htx) hnext hwrite, write_ledgerSum hwrite, h.ledger]
  txs x hx := by
    obtain ⟨hx, hne⟩ := Table.mem_delete.mp hx
    exact (h.txs tx htx).write hnext hwrite (h.txs x hx) (h.apart x hx tx htx (by simpa using hne))
  apart x hx x' hx' := h.apart x (Table.mem_delete.mp hx).1 x' (Table.mem_delete.mp hx').1

theorem fits_grantInsert {entry : LedgerEntry} {amount : GrantAmount} {id : Nat}
    (hdelta : entry.deltaMicroUsd = amount.get)
    (hfresh : (s.db.orgCreditLedger.insert? entry).isNone = false)
    (hlock : s.unlocked id Tx.key entry.idempotencyKey) :
    Fits s ⟨id, none, some entry, none, some (.grantUpsertCredits amount)⟩ where
  inv :=
    { moved := fun c hc => by cases hc
      pending := fun e he _ => ⟨amount, rfl, by rw [← Option.some.inj he, hdelta]⟩
      granting := fun amount' hnext e he => by
        rw [← Option.some.inj he, hdelta, Statement.grantUpsertCredits.inj (Option.some.inj hnext)]
      debiting := fun _ _ _ _ hnext => by cases hnext
      fresh := fun k hk => CreditLedger.fresh_of_insert? hfresh k hk }
  apart x hx hne := ⟨.inl rfl, unshared_symm (unlocked_iff.mp hlock x hx hne)⟩

theorem ConservationInv.fits_grantUpsert (h : ConservationInv s) (htx : tx ∈ s.txs)
    {entry : LedgerEntry} {amount : GrantAmount} (hentry : tx.entry = some entry)
    (hnext : tx.next = some (.grantUpsertCredits amount))
    (hlock : s.unlocked tx.id Tx.creditsRow (some entry.orgId)) :
    Fits s { tx with
      credits := some (grantUpsertCredits entry.orgId amount s.db)
      next := none } where
  inv :=
    { moved := fun c hc => by
        obtain rfl := Option.some.inj hc
        refine ⟨entry, hentry, (grantUpsert_orgId _ _ _).symm, ?_⟩
        rw [grantUpsert_balance, grantUpsert_orgId, (h.txs tx htx).granting amount hnext entry hentry]
      pending := fun _ _ hnone => by cases hnone
      granting := fun _ hnone => by cases hnone
      debiting := fun _ _ _ _ hnone => by cases hnone
      fresh := (h.txs tx htx).fresh }
  apart x hx hne := by
    refine ⟨?_, (h.apart tx htx x hx (Ne.symm hne)).key⟩
    simp only [Tx.creditsRow, Option.map_some, grantUpsert_orgId]
    exact unshared_symm (unlocked_iff.mp hlock x hx hne)

theorem ConservationInv.fits_debit (h : ConservationInv s) (htx : tx ∈ s.txs) {org : OrgId}
    {cost : Nat} {usageKey : Option IdempotencyKey} {now : Time}
    (hnext : tx.next = some (.debitCredits org cost usageKey now)) {creditGateActive : OrgId → Bool}
    {tx' : Tx} (hdebit : debitStatement creditGateActive s tx org cost usageKey now = some tx') :
    tx'.id = tx.id ∧ Fits s tx' := by
  obtain ⟨hentry, hcredits⟩ := (h.txs tx htx).debiting org cost usageKey now hnext
  have hdone : Fits s { tx with next := none } :=
    fits_idle hentry hcredits fun amount hsome => by cases hsome
  unfold debitStatement at hdebit
  split at hdebit
  case isTrue =>
    obtain rfl := Option.some.inj hdebit
    exact ⟨rfl, hdone⟩
  case isFalse =>
    split at hdebit
    case h_1 =>
      obtain rfl := Option.some.inj hdebit
      exact ⟨rfl, hdone⟩
    case h_2 c hc =>
      have horg : c.orgId = org := Table.key_of_find? hc
      split at hdebit
      case isFalse => cases hdebit
      case isTrue hkey =>
        simp only at hdebit
        split at hdebit
        case isTrue =>
          obtain rfl := Option.some.inj hdebit
          exact ⟨rfl, hdone⟩
        case isFalse hfresh =>
          split at hdebit
          case isFalse => cases hdebit
          case isTrue hrow =>
            obtain rfl := Option.some.inj hdebit
            refine ⟨rfl, ?_, fun x hx hne => ⟨?_, ?_⟩⟩
            · exact
                { moved := fun c' hc' => by
                    obtain rfl := Option.some.inj hc'
                    refine ⟨_, rfl, horg.symm, ?_⟩
                    simp [OrgCredits.debit, Db.balance, horg, hc, Int.sub_eq_add_neg]
                  pending := fun _ _ hnone => by cases hnone
                  granting := fun _ hnone => by cases hnone
                  debiting := fun _ _ _ _ hnone => by cases hnone
                  fresh := fun k hk =>
                    CreditLedger.fresh_of_insert? (Bool.eq_false_iff.mpr hfresh) k hk }
            · have hcreditsRow := unshared_symm (unlocked_iff.mp hrow x hx hne)
              simpa [Tx.creditsRow, OrgCredits.debit, horg] using hcreditsRow
            · exact unshared_symm (unlocked_iff.mp hkey x hx hne)

end Fits

section Entitlements

variable {creditGateActive : OrgId → Bool}

theorem ConservationInv.step {s s' : St} {a : BillingAct} (h : ConservationInv s)
    (hstep : billingStep creditGateActive s a = some s') : ConservationInv s' := by
  cases a with
  | grantInsert id org amount reason k actor now =>
    simp only [billingStep] at hstep
    split at hstep
    case isFalse => cases hstep
    case isTrue hlock =>
      obtain ⟨txs, hins, rfl⟩ := Option.map_eq_some_iff.mp hstep
      split at hins
      case isTrue =>
        refine h.opened (fits_idle rfl rfl fun _ => ?_) hins
        rintro ⟨⟩
      case isFalse hfresh =>
        exact h.opened (fits_grantInsert rfl (Bool.eq_false_iff.mpr hfresh) hlock) hins
  | grantUpsert id =>
    simp only [billingStep] at hstep
    split at hstep
    case h_2 => cases hstep
    case h_1 entry _ amount hfind =>
      split at hstep
      case isFalse => cases hstep
      case isTrue hlock =>
        obtain rfl := Option.some.inj hstep
        obtain ⟨htx, rfl⟩ := Table.find?_eq_some.mp hfind
        exact h.put (h.fits_grantUpsert htx rfl rfl hlock)
  | settleUsage id org period now cost usageKey =>
    simp only [billingStep] at hstep
    split at hstep
    case isFalse => cases hstep
    case isTrue =>
      obtain ⟨txs, hins, rfl⟩ := Option.map_eq_some_iff.mp hstep
      refine h.opened (fits_idle rfl rfl fun _ => ?_) hins
      rintro ⟨⟩
  | settleDebit id =>
    simp only [billingStep] at hstep
    split at hstep
    case h_2 => cases hstep
    case h_1 hfind =>
      obtain ⟨tx', hdebit, rfl⟩ := Option.map_eq_some_iff.mp hstep
      exact h.put (h.fits_debit (Table.mem_of_find? hfind) rfl hdebit).2
  | commit id =>
    simp only [billingStep] at hstep
    split at hstep
    case h_2 => cases hstep
    case h_1 hfind =>
      obtain ⟨db, hwrite, rfl⟩ := Option.map_eq_some_iff.mp hstep
      obtain ⟨htx, rfl⟩ := Table.find?_eq_some.mp hfind
      exact h.commit htx rfl hwrite
  | rollback id =>
    obtain rfl := Option.some.inj hstep
    exact h.delete id

def St.init (orgBilling : Table OrgBilling) : St :=
  ⟨⟨orgBilling, .empty, .empty, .empty⟩, .empty⟩

theorem conservationInv_init (orgBilling : Table OrgBilling) : ConservationInv (.init orgBilling) where
  ledger _ := rfl
  txs tx htx := absurd htx (Table.not_mem_empty tx)
  apart tx htx := absurd htx (Table.not_mem_empty tx)

theorem commit_enabled {s : St} {tx : Tx} (h : ConservationInv s) (htx : tx ∈ s.txs)
    (hnext : tx.next = none) : (billingStep creditGateActive s (.commit tx.id)).isSome := by
  have hfind : s.txs.find? tx.id = some tx := Table.find?_of_mem htx
  obtain ⟨id, usage, entry, credits, next⟩ := tx
  cases hnext
  simp only [billingStep, hfind, Option.isSome_map, Db.write]
  exact CreditLedger.append?_fresh (h.txs _ htx).fresh

/-- In every state that transactions in any order, waiting and failing anywhere, can leave. -/
theorem credits_conserved {orgBilling : Table OrgBilling} {s : St}
    (h : Reachable (billingStep creditGateActive) (.init orgBilling) s) (org : OrgId) :
    Conserved s.db org where
  totals := balance_eq_totals s.db org
  ledger := (h.inv (fun _ _ _ hinv => hinv.step) (conservationInv_init orgBilling)).ledger org

end Entitlements

def Sample.interleaved : List BillingAct :=
  [.grantInsert 0 1 ⟨100, by decide⟩ .promo ⟨"promo:1", by decide, by decide⟩ none 0,
    .settleUsage 1 2 0 0 30 none, .grantUpsert 0, .settleDebit 1, .commit 0,
    .settleUsage 2 1 0 1 30 none, .settleDebit 2, .commit 1, .commit 2]

theorem credits_conserved_interleaved :
    ∃ s, run (billingStep fun _ => true) (.init .empty) Sample.interleaved = some s ∧
      s.db.balance 1 = 70 ∧ Conserved s.db 1 := by
  have hbalance : (run (billingStep fun _ => true) (.init .empty) Sample.interleaved).map
      (·.db.balance 1) = some 70 := by decide
  obtain ⟨s, hs, hs'⟩ := Option.map_eq_some_iff.mp hbalance
  exact ⟨s, hs, hs', credits_conserved (run_path hs) 1⟩

end Patom.Billing
