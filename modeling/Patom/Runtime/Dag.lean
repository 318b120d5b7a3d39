import Patom.Runtime.Queue

open Patom.Foundation

namespace Patom.Runtime

structure BudgetBumped where
  turnsUsed : Nat
  turnsCap : Nat
  deriving DecidableEq

def bumpTurns (root : PromptRequestId) (dag : PromptRequestDag) : PromptRequestDag :=
  if dag.rootRequestId = root ∧ dag.turnsUsed < dag.turnsCap then
    { dag with turnsUsed := dag.turnsUsed + 1 }
  else dag

theorem bumpTurns_key (root : PromptRequestId) (dag : PromptRequestDag) :
    key (bumpTurns root dag) = key dag := by
  unfold bumpTurns
  split <;> rfl

def bumpDags (root : PromptRequestId) (dags : Table PromptRequestDag) : Table PromptRequestDag :=
  dags.modify (bumpTurns root) (bumpTurns_key root)

/-- The increment and the read of a refused root share one transaction. -/
def bumpOrFail (root : PromptRequestId) (db : Db) : Except PromptError (Db × BudgetBumped) :=
  match db.promptRequestDags.find? root with
  | none => .error (.dagNotFound root)
  | some dag =>
    if dag.turnsUsed < dag.turnsCap then
      .ok ({ db with promptRequestDags := bumpDags root db.promptRequestDags },
        ⟨dag.turnsUsed + 1, dag.turnsCap⟩)
    else .error (.dagBudgetExceeded root dag.turnsUsed dag.turnsCap)

def RequestStatus.isLive : RequestStatus → Bool
  | .pending | .processing => true
  | .done | .failed => false

def quiescent (root : PromptRequestId) (db : Db) : Bool :=
  !db.promptRequests.rows.any fun r => r.rootRequestId = root ∧ r.status.isLive

theorem isLive_eq_not_isTerminal (status : RequestStatus) : status.isLive = !status.isTerminal := by
  cases status <;> rfl

theorem quiescent_iff {root : PromptRequestId} {db : Db} :
    quiescent root db ↔ ∀ r ∈ db.promptRequests, r.rootRequestId = root → r.status.isLive = false := by
  simp [quiescent, Table.mem_def]

@[simp] theorem find?_bumpDags (root other : PromptRequestId) (dags : Table PromptRequestDag) :
    (bumpDags root dags).find? other = (dags.find? other).map (bumpTurns root) :=
  Table.find?_modify ..

theorem bumpTurns_other {root : PromptRequestId} {dag : PromptRequestDag}
    (h : dag.rootRequestId ≠ root) : bumpTurns root dag = dag :=
  if_neg fun e => h e.1

theorem bumpTurns_spent {root : PromptRequestId} {dag : PromptRequestDag}
    (h : dag.turnsCap ≤ dag.turnsUsed) : bumpTurns root dag = dag :=
  if_neg fun e => absurd e.2 (Nat.not_lt.mpr h)

theorem bumpTurns_left {root : PromptRequestId} {dag : PromptRequestDag}
    (hroot : dag.rootRequestId = root) (h : dag.turnsUsed < dag.turnsCap) :
    bumpTurns root dag = { dag with turnsUsed := dag.turnsUsed + 1 } :=
  if_pos ⟨hroot, h⟩

@[simp] theorem bumpTurns_turnsCap (root : PromptRequestId) (dag : PromptRequestDag) :
    (bumpTurns root dag).turnsCap = dag.turnsCap := by
  unfold bumpTurns
  split <;> rfl

theorem bumpOrFail_queue (root : PromptRequestId) (db : Db) :
    (match bumpOrFail root db with
      | .ok (db', _) => db'
      | .error _ => db) = { db with promptRequestDags := bumpDags root db.promptRequestDags } := by
  unfold bumpOrFail
  cases hdag : db.promptRequestDags.find? root with
  | none =>
    have hself : bumpDags root db.promptRequestDags = db.promptRequestDags :=
      Table.modify_eq_self _ fun dag hmem => bumpTurns_other (Table.find?_eq_none.mp hdag dag hmem)
    rw [hself]
  | some dag =>
    by_cases hlt : dag.turnsUsed < dag.turnsCap
    · simp only [hlt, if_true]
    · have hself : bumpDags root db.promptRequestDags = db.promptRequestDags := by
        refine Table.modify_eq_self _ fun d hmem => ?_
        by_cases hd : d.rootRequestId = root
        · have hkey : dag.rootRequestId = root := Table.key_of_find? hdag
          obtain rfl := Table.eq_of_key_eq hmem (Table.mem_of_find? hdag) (hd.trans hkey.symm)
          exact bumpTurns_spent (Nat.not_lt.mp hlt)
        · exact bumpTurns_other hd
      simp only [hlt, if_false]
      rw [hself]

theorem bumpOrFail_ok {root : PromptRequestId} {db db' : Db} {bumped : BudgetBumped}
    (h : bumpOrFail root db = .ok (db', bumped)) :
    db' = { db with promptRequestDags := bumpDags root db.promptRequestDags } ∧
      ∃ dag, db.promptRequestDags.find? root = some dag ∧ dag.turnsUsed < dag.turnsCap := by
  have hqueue := bumpOrFail_queue root db
  rw [h] at hqueue
  refine ⟨hqueue, ?_⟩
  unfold bumpOrFail at h
  split at h
  case h_1 => cases h
  case h_2 dag hdag =>
    split at h
    case isFalse => cases h
    case isTrue hlt => exact ⟨dag, hdag, hlt⟩

section Iterate

variable {root : PromptRequestId} {dags : Table PromptRequestDag}

theorem find?_bumpDags_iterate (root other : PromptRequestId) (n : Nat) :
    ((bumpDags root)^[n] dags).find? other = (dags.find? other).map (bumpTurns root)^[n] := by
  induction n generalizing dags with
  | zero => simp
  | succ n ih => rw [Function.iterate_succ_apply, ih, find?_bumpDags, Option.map_map,
      Function.iterate_succ]

theorem bumpTurns_iterate_turnsUsed {dag : PromptRequestDag} (hroot : dag.rootRequestId = root)
    (n : Nat) : ((bumpTurns root)^[n] dag).turnsUsed =
      max dag.turnsUsed (min dag.turnsCap (dag.turnsUsed + n)) := by
  induction n generalizing dag with
  | zero => simp
  | succ n ih =>
    rw [Function.iterate_succ_apply]
    by_cases hlt : dag.turnsUsed < dag.turnsCap
    · have hnext := @ih { dag with turnsUsed := dag.turnsUsed + 1 } hroot
      rw [bumpTurns_left hroot hlt, hnext]
      grind
    · rw [bumpTurns_spent (Nat.not_lt.mp hlt), ih hroot]
      grind

def SpentAfterOne (root : PromptRequestId) (dags : Table PromptRequestDag) : Prop :=
  ∀ dag, dags.find? root = some dag → dag.turnsCap ≤ dag.turnsUsed + 1

theorem bumpDags_bumpDags (h : SpentAfterOne root dags) :
    bumpDags root (bumpDags root dags) = bumpDags root dags := by
  refine Table.modify_eq_self _ fun dag hdag => ?_
  obtain ⟨dag, hmem, rfl⟩ := Table.mem_modify.mp hdag
  by_cases hroot : dag.rootRequestId = root
  · have hspent := h dag (hroot ▸ Table.find?_of_mem hmem)
    by_cases hlt : dag.turnsUsed < dag.turnsCap
    · rw [bumpTurns_left hroot hlt]
      exact bumpTurns_spent hspent
    · rw [bumpTurns_spent (Nat.not_lt.mp hlt), bumpTurns_spent (Nat.not_lt.mp hlt)]
  · rw [bumpTurns_other hroot, bumpTurns_other hroot]

theorem bumpDags_iterate_spent (h : SpentAfterOne root dags) (n : Nat) :
    (bumpDags root)^[n + 1] dags = bumpDags root dags := by
  induction n with
  | zero => rfl
  | succ n ih => rw [Function.iterate_succ_apply', ih, bumpDags_bumpDags h]

theorem bumpDags_iterate_eq_iff {b c : Nat} (hc : c ≤ 1) :
    (bumpDags root)^[b] dags = (bumpDags root)^[c] dags → b ≤ 1 ∨ SpentAfterOne root dags := by
  intro h
  by_contra hcon
  obtain ⟨hb, hspent⟩ := not_or.mp hcon
  obtain ⟨dag, hdag⟩ := Classical.not_forall.mp hspent
  obtain ⟨hdag, hleft⟩ := Classical.not_imp.mp hdag
  have hroot : dag.rootRequestId = root := Table.key_of_find? hdag
  have hfind := congrArg (fun t : Table PromptRequestDag => t.find? root) h
  simp only [find?_bumpDags_iterate, hdag, Option.map_some, Option.some.injEq] at hfind
  have hused := congrArg PromptRequestDag.turnsUsed hfind
  rw [bumpTurns_iterate_turnsUsed hroot, bumpTurns_iterate_turnsUsed hroot] at hused
  omega

end Iterate

end Patom.Runtime
