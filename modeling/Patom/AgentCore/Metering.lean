import Patom.AgentCore.Rounds

open Patom.Billing
open Patom.Foundation
open Patom.Provider
open Patom.Runtime (PromptRequestId RequestKind)

namespace Patom.AgentCore

section Credits

variable {creditGateActive : OrgId → Bool} {org : OrgId} {requestId : PromptRequestId}

/-- A response that cannot debit: not on the platform's key, or already inert. -/
def Quiet (creditGateActive : OrgId → Bool) (org : OrgId) (requestId : PromptRequestId)
    (r : Received) (db : Db) : Prop :=
  ∀ i, r.platformIndex = some i → Inert creditGateActive org r.cost (turnKey requestId i) db

theorem Quiet.congr {r : Received} {db db' : Db} (h : SameCredits db db')
    (hquiet : Quiet creditGateActive org requestId r db) :
    Quiet creditGateActive org requestId r db' :=
  fun i hi => (hquiet i hi).congr h

theorem Quiet.billingSettle {r : Received} {db : Db}
    (hquiet : Quiet creditGateActive org requestId r db) (at_ : BillingPeriod × Time) :
    SameCredits db (billingSettle creditGateActive org requestId r at_ db) := by
  cases r with
  | fold isByo cost => exact .refl db
  | turn index isByo cost settled =>
    cases isByo with
    | true => exact .refl db
    | false =>
      simp only [AgentCore.billingSettle, usageKey_eq]
      exact settle_inert (hquiet index rfl)

theorem quiet_billingSettle (r : Received) (at_ : BillingPeriod × Time) (db : Db) :
    Quiet creditGateActive org requestId r (billingSettle creditGateActive org requestId r at_ db) := by
  intro i hi
  obtain ⟨cost, settled, rfl⟩ := Received.platformIndex_eq_some.mp hi
  simp only [billingSettle, usageKey_eq]
  exact inert_settle _ _ _ _ _ _

theorem Quiet.foldl {r : Received} {db : Db} (hquiet : Quiet creditGateActive org requestId r db)
    (sends : List (BillingPeriod × Time)) :
    SameCredits db
      (sends.foldl (fun db at_ => AgentCore.billingSettle creditGateActive org requestId r at_ db) db) := by
  induction sends generalizing db with
  | nil => exact .refl db
  | cons at_ sends ih =>
    have hfirst := hquiet.billingSettle at_
    exact hfirst.trans (ih (hquiet.congr hfirst))

variable (creditGateActive org requestId) in
theorem bill_settled {r : Received} {at_ : BillingPeriod × Time} {sends : List (BillingPeriod × Time)}
    (h : r.settled = at_ :: sends) (db : Db) :
    SameCredits (billingSettle creditGateActive org requestId r at_ db)
      (bill creditGateActive org requestId db r) := by
  rw [bill, h, List.foldl_cons]
  exact (quiet_billingSettle r at_ db).foldl sends

theorem bill_quiet {r : Received} {db : Db} (hquiet : Quiet creditGateActive org requestId r db) :
    SameCredits db (bill creditGateActive org requestId db r) :=
  hquiet.foldl r.settled

theorem quiet_bill {r : Received} (h : r.settled ≠ []) (db : Db) :
    Quiet creditGateActive org requestId r (bill creditGateActive org requestId db r) := by
  obtain ⟨at_, sends, hsends⟩ := List.exists_cons_of_ne_nil h
  exact (quiet_billingSettle r at_ db).congr (bill_settled _ _ _ hsends db)

theorem Quiet.billingSettle_other {r : Received} {db : Db}
    (hquiet : Quiet creditGateActive org requestId r db) (r' : Received) (at_ : BillingPeriod × Time) :
    Quiet creditGateActive org requestId r
      (AgentCore.billingSettle creditGateActive org requestId r' at_ db) := by
  cases r' with
  | fold isByo cost => exact hquiet
  | turn index isByo cost settled =>
    cases isByo with
    | true => exact hquiet
    | false =>
      intro i hi
      simp only [AgentCore.billingSettle, usageKey_eq]
      exact (hquiet i hi).settle _ _ _ _

theorem Quiet.bill {r : Received} {db : Db} (hquiet : Quiet creditGateActive org requestId r db)
    (r' : Received) :
    Quiet creditGateActive org requestId r (AgentCore.bill creditGateActive org requestId db r') := by
  unfold AgentCore.bill
  induction r'.settled generalizing db with
  | nil => exact hquiet
  | cons at_ sends ih => exact ih (hquiet.billingSettle_other r' at_)

theorem Quiet.billAll {r : Received} {db : Db} (hquiet : Quiet creditGateActive org requestId r db)
    (received : List Received) :
    Quiet creditGateActive org requestId r
      (AgentCore.billAll creditGateActive org requestId db received) := by
  induction received generalizing db with
  | nil => exact hquiet
  | cons r' rest ih => exact ih (hquiet.bill r')

def due (requestId : PromptRequestId) (db : Db) (r : Received) : Nat :=
  match r.platformIndex with
  | none => 0
  | some i =>
    if r.settled ≠ [] ∧ turnKey requestId i ∉ db.orgCreditLedger.keys then r.cost else 0

theorem Quiet.due_eq_zero {r : Received} {db : Db} {credits : OrgCredits}
    (hquiet : Quiet creditGateActive org requestId r db) (hgate : creditGateActive org)
    (hcredits : db.orgCredits.find? org = some credits) : due requestId db r = 0 := by
  unfold due
  split
  case h_1 => rfl
  case h_2 i hi =>
    rcases hquiet i hi with h | h | h | h
    · simp [hgate] at h
    · simp [h]
    · simp [hcredits] at h
    · simp [h]

variable (requestId) in
theorem bill_balance (r : Received) {db : Db} {credits : OrgCredits} (hgate : creditGateActive org)
    (hcredits : db.orgCredits.find? org = some credits) :
    ∃ credits', (bill creditGateActive org requestId db r).orgCredits.find? org = some credits' ∧
      credits'.balanceMicroUsd + due requestId db r = credits.balanceMicroUsd ∧
      ∀ i, r.platformIndex ≠ some i →
        (turnKey requestId i ∈ (bill creditGateActive org requestId db r).orgCreditLedger.keys ↔
          turnKey requestId i ∈ db.orgCreditLedger.keys) := by
  by_cases hquiet : Quiet creditGateActive org requestId r db
  · have hsame := bill_quiet hquiet
    refine ⟨credits, by rw [hsame.2, hcredits], ?_, fun i _ => by rw [hsame.1]⟩
    rw [hquiet.due_eq_zero hgate hcredits]
    omega
  · obtain ⟨i, hi⟩ := not_forall.mp hquiet
    obtain ⟨hindex, hinert⟩ := Classical.not_imp.mp hi
    obtain ⟨cost, settled, rfl⟩ := Received.platformIndex_eq_some.mp hindex
    cases settled with
    | nil => exact ⟨credits, hcredits, by simp [due, Received.platformIndex, Received.settled], fun j _ => Iff.rfl⟩
    | cons at_ sends =>
      simp only [Inert, not_or] at hinert
      obtain ⟨-, hcost, -, hkey⟩ := hinert
      have hsettled : (Received.turn i false cost (at_ :: sends)).settled = at_ :: sends := rfl
      have hsame := bill_settled creditGateActive org requestId hsettled db
      simp only [billingSettle, usageKey_eq] at hsame
      obtain ⟨hrow, hkeys⟩ :
          _ ∧ (settle creditGateActive at_.1 at_.2 org cost (some (turnKey requestId i)) db).orgCreditLedger.keys
            = db.orgCreditLedger.keys ++ [turnKey requestId i] :=
        settle_debits hgate hcost hcredits hkey
      refine ⟨credits.debit cost, by rw [hsame.2]; exact hrow, ?_, fun j hj => ?_⟩
      · simp [due, Received.platformIndex, Received.settled, hkey, OrgCredits.debit, Received.cost]
      · have hne : turnKey requestId j ≠ turnKey requestId i := fun e =>
          hj (by rw [turnKey_injective e]; rfl)
        rw [hsame.1, hkeys]
        simp [hne]

variable (requestId) in
theorem billAll_balance {received : List Received} {db : Db} {credits : OrgCredits}
    (hgate : creditGateActive org) (hcredits : db.orgCredits.find? org = some credits)
    (hnodup : (received.filterMap Received.platformIndex).Nodup) :
    ∃ credits', (billAll creditGateActive org requestId db received).orgCredits.find? org =
        some credits' ∧
      credits'.balanceMicroUsd + (received.map (due requestId db)).sum = credits.balanceMicroUsd := by
  induction received generalizing db credits with
  | nil => exact ⟨credits, hcredits, by simp⟩
  | cons r rest ih =>
    obtain ⟨credits₁, hcredits₁, hbalance₁, hkeys⟩ := bill_balance requestId r hgate hcredits
    obtain ⟨credits₂, hcredits₂, hbalance₂⟩ := ih hcredits₁
      (hnodup.sublist (List.Sublist.filterMap _ (List.sublist_cons_self r rest)))
    refine ⟨credits₂, hcredits₂, ?_⟩
    have hrest : rest.map (due requestId (bill creditGateActive org requestId db r)) =
        rest.map (due requestId db) := by
      apply List.map_congr_left
      intro r' hr'
      unfold due
      split
      case h_1 => rfl
      case h_2 i hi =>
        have hne : r.platformIndex ≠ some i := fun h => by
          rw [List.filterMap_cons, h] at hnodup
          exact (List.nodup_cons.mp hnodup).1 (List.mem_filterMap.mpr ⟨r', hr', hi⟩)
        simp only [hkeys i hne]
    rw [hrest] at hbalance₂
    simp only [List.map_cons, List.sum_cons, Nat.cast_add]
    omega

end Credits

theorem sum_map_eq_iff {α : Type*} {l : List α} {f g : α → Nat} (h : ∀ a ∈ l, f a ≤ g a) :
    (l.map f).sum = (l.map g).sum ↔ ∀ a ∈ l, f a = g a := by
  induction l with
  | nil => simp
  | cons a l ih =>
    have hle : (l.map f).sum ≤ (l.map g).sum :=
      List.sum_le_sum fun b hb => h b (List.mem_cons_of_mem a hb)
    have ha := h a List.mem_cons_self
    simp only [List.map_cons, List.sum_cons, List.forall_mem_cons,
      ← ih fun b hb => h b (List.mem_cons_of_mem a hb)]
    omega

def Received.platformCost (r : Received) : Nat := if r.isByo then 0 else r.cost

section Claim

variable (creditGateActive : OrgId → Bool) (org : OrgId) (requestId : PromptRequestId)
  (received : List (List Received)) (db : Db)

/-- Every platform response of a claim debits the organisation once. -/
structure MeteredOnce : Prop where
  distinct : ((received.flatten.filterMap Received.platformIndex).map (usageKey requestId)).Nodup
  debited : creditGateActive org → ∀ credits, db.orgCredits.find? org = some credits →
    ∃ credits', (billAll creditGateActive org requestId db received.flatten).orgCredits.find? org =
        some credits' ∧
      credits'.balanceMicroUsd =
        credits.balanceMicroUsd - (received.flatten.map Received.platformCost).sum
  replayed : ∀ r ∈ received.flatten, r.settled ≠ [] → ∀ at_,
    SameCredits (billAll creditGateActive org requestId db received.flatten)
      (billingSettle creditGateActive org requestId r at_
        (billAll creditGateActive org requestId db received.flatten))

/-- No attempt repeats a platform round of another, and what costs is settled under a new key. -/
structure Billable : Prop where
  apart : received.Pairwise fun rs rs' =>
    (rs.filterMap Received.platformIndex).Disjoint (rs'.filterMap Received.platformIndex)
  settled : creditGateActive org → db.orgCredits.find? org ≠ none →
    ∀ r ∈ received.flatten, r.isByo = false → r.cost ≠ 0 →
      r.settled ≠ [] ∧
        ∀ k, r.usageKey requestId = some k → k ∉ db.orgCreditLedger.keys

end Claim

section Claim

variable {creditGateActive : OrgId → Bool} {org : OrgId} {requestId : PromptRequestId}
  {received : List (List Received)} {db : Db}

variable (requestId) in
theorem distinct_iff (hnodup : ∀ rs ∈ received, (rs.filterMap Received.platformIndex).Nodup) :
    ((received.flatten.filterMap Received.platformIndex).map (usageKey requestId)).Nodup ↔
      received.Pairwise fun rs rs' =>
        (rs.filterMap Received.platformIndex).Disjoint (rs'.filterMap Received.platformIndex) := by
  rw [List.nodup_map_iff usageKey_injective, List.filterMap_flatten, List.nodup_flatten, List.pairwise_map]
  constructor
  · rintro ⟨-, hapart⟩
    exact hapart
  · intro hapart
    refine ⟨fun l hl => ?_, hapart⟩
    obtain ⟨rs, hrs, rfl⟩ := List.mem_map.mp hl
    exact hnodup rs hrs

theorem due_eq_platformCost_iff {r : Received} :
    due requestId db r = r.platformCost ↔
      (r.isByo = false → r.cost ≠ 0 → r.settled ≠ [] ∧
        ∀ k, r.usageKey requestId = some k → k ∉ db.orgCreditLedger.keys) := by
  cases r with
  | fold isByo cost =>
    cases isByo <;> simp [due, Received.platformIndex, Received.platformCost, Received.isByo,
      Received.cost, Received.settled, eq_comm]
  | turn index isByo cost settled =>
    cases isByo with
    | true => simp [due, Received.platformIndex, Received.platformCost, Received.isByo]
    | false =>
      simp only [due, Received.platformIndex, Received.platformCost, Received.isByo,
        Received.usageKey, Option.bind_some, usageKey_eq]
      by_cases hcost : cost = 0
      · simp [Received.cost, hcost]
      · simp [Received.cost, hcost, Ne.symm hcost]

variable (requestId db) in
theorem due_le_platformCost (r : Received) : due requestId db r ≤ r.platformCost := by
  unfold due
  split
  case h_1 => exact Nat.zero_le _
  case h_2 i hi =>
    obtain ⟨cost, settled, rfl⟩ := Received.platformIndex_eq_some.mp hi
    split <;> simp [Received.platformCost, Received.isByo]

theorem replayed (r : Received) (hr : r ∈ received.flatten) (hsettled : r.settled ≠ [])
    (at_ : BillingPeriod × Time) :
    SameCredits (billAll creditGateActive org requestId db received.flatten)
      (billingSettle creditGateActive org requestId r at_
        (billAll creditGateActive org requestId db received.flatten)) := by
  apply Quiet.billingSettle
  obtain ⟨before, after, happend⟩ := List.append_of_mem hr
  rw [happend, billAll, List.foldl_append, List.foldl_cons]
  exact (quiet_bill hsettled _).billAll after

end Claim

namespace Sample

def price : Price := ⟨1000000, 1000000, 0, 0⟩

def maxTurns : MaxTurns := ⟨100, by decide, by decide⟩

def sendMessage : ToolCall :=
  ⟨⟨"call_1", by decide, by decide⟩, ⟨"send_message", by decide, by decide, by decide⟩, "{}"⟩

def round (content : List AssistantContent) : Round :=
  ⟨false, [], .ok ⟨⟨content, ⟨1, 0, none, none⟩⟩, [(0, 0)], [], none⟩⟩

def attempts : List Attempt :=
  [⟨[round [.text "Hello"]], .ok ()⟩,
    ⟨[round [.toolCall sendMessage], round [.text "Posted"]], .ok ()⟩]

def db : Db := ⟨.empty, .empty, .empty, ⟨[⟨1, 10, 10, 0, by decide⟩], by decide⟩⟩

end Sample

theorem meteredOnce_pingpong_retry :
    (handleTurn Sample.price Sample.maxTurns .normal Sample.attempts).1 = .done ∧
      ¬ MeteredOnce (fun _ => true) 1 7
        (handleTurn Sample.price Sample.maxTurns .normal Sample.attempts).2 Sample.db := by
  have hindices : (handleTurn Sample.price Sample.maxTurns .normal Sample.attempts).2.flatten.filterMap
      Received.platformIndex = [.ZERO, .ZERO, ⟨1, by decide⟩] := by decide
  refine ⟨by decide, fun h => ?_⟩
  have hdistinct := h.distinct
  rw [hindices] at hdistinct
  simp at hdistinct

/-- Exact: a claim is metered once when it never repeats a platform round and its settles land. -/
theorem meteredOnce_iff_billable (price : Price) (maxTurns : MaxTurns)
    (creditGateActive : OrgId → Bool) (org : OrgId) (requestId : PromptRequestId)
    (kind : RequestKind) (attempts : List Attempt) (db : Db) :
    MeteredOnce creditGateActive org requestId (handleTurn price maxTurns kind attempts).2 db ↔
      Billable creditGateActive org requestId (handleTurn price maxTurns kind attempts).2 db := by
  have hnodup : ∀ rs ∈ (handleTurn price maxTurns kind attempts).2,
      (rs.filterMap Received.platformIndex).Nodup := by
    intro rs hrs
    obtain ⟨rounds, rfl⟩ := handleTurn_attempts kind attempts rs hrs
    exact runLoop_nodup rounds
  generalize (handleTurn price maxTurns kind attempts).2 = received at hnodup
  have hdistinct := distinct_iff requestId hnodup
  have hall : (received.flatten.filterMap Received.platformIndex).Nodup ↔
      received.Pairwise fun rs rs' =>
        (rs.filterMap Received.platformIndex).Disjoint (rs'.filterMap Received.platformIndex) := by
    rw [← hdistinct, List.nodup_map_iff usageKey_injective]
  have hsum := sum_map_eq_iff (l := received.flatten) fun r _ =>
    due_le_platformCost requestId db r
  constructor
  case mp =>
    rintro ⟨hkeys, hdebited, -⟩
    have hapart := hdistinct.mp hkeys
    refine ⟨hapart, fun hgate hrow r hr => ?_⟩
    obtain ⟨credits, hcredits⟩ := Option.ne_none_iff_exists'.mp hrow
    obtain ⟨credits', hcredits', hbalance⟩ := billAll_balance requestId hgate hcredits
      (hall.mpr hapart)
    obtain ⟨credits'', hcredits'', hdebit⟩ := hdebited hgate credits hcredits
    rw [hcredits', Option.some.injEq] at hcredits''
    subst hcredits''
    have hdue := hsum.mp (by omega)
    exact due_eq_platformCost_iff.mp (hdue r hr)
  case mpr =>
    rintro ⟨hapart, hsettled⟩
    refine ⟨hdistinct.mpr hapart, fun hgate credits hcredits => ?_, replayed⟩
    obtain ⟨credits', hcredits', hbalance⟩ := billAll_balance requestId hgate hcredits
      (hall.mpr hapart)
    refine ⟨credits', hcredits', ?_⟩
    have hdue := hsum.mpr fun r hr => due_eq_platformCost_iff.mpr
      (hsettled hgate (by simp [hcredits]) r hr)
    omega

end Patom.AgentCore
