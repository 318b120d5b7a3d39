import Patom.Runtime.RowLaws

open Patom.Foundation
open Relation

namespace Patom.Runtime

variable {colleagues : Table Colleague} {timing : LeaseTiming}

inductive RequestStatus.Next : RequestStatus → RequestStatus → Prop
  | claim : Next .pending .processing
  | done : Next .processing .done
  | failed : Next .processing .failed

theorem RequestStatus.Next.of_isTerminal {status : RequestStatus} (h : status.isTerminal) :
    Next .processing status := by
  cases status with
  | done => exact .done
  | failed => exact .failed
  | pending | processing => cases h

theorem RequestStatus.terminal_of_next {status status' : RequestStatus}
    (h : ReflTransGen Next status status') (hterminal : status.isTerminal) : status' = status := by
  induction h with
  | refl => rfl
  | tail _ hnext ih =>
    rw [ih] at hnext
    cases hnext <;> cases hterminal

structure Forward (R : RequestStatus → RequestStatus → Prop) (r r' : PromptRequest) : Prop where
  id : r'.id = r.id
  org : r'.orgId = r.orgId
  idempotencyKey : r'.idempotencyKey = r.idempotencyKey
  root : r'.rootRequestId = r.rootRequestId
  status : R r.status r'.status

theorem Forward.refl (r : PromptRequest) : Forward (ReflGen RequestStatus.Next) r r :=
  ⟨rfl, rfl, rfl, rfl, .refl⟩

theorem Forward.trans {r r' r'' : PromptRequest}
    (h : Forward (ReflTransGen RequestStatus.Next) r r')
    (k : Forward (ReflGen RequestStatus.Next) r' r'') :
    Forward (ReflTransGen RequestStatus.Next) r r'' :=
  ⟨k.id.trans h.id, k.org.trans h.org, k.idempotencyKey.trans h.idempotencyKey, k.root.trans h.root,
    h.status.trans k.status.to_reflTransGen⟩

theorem forward_markCancelled (id : PromptRequestId) (now : Time) (r : PromptRequest) :
    Forward (ReflGen RequestStatus.Next) r (markCancelled id now r) := by
  unfold markCancelled
  split
  · exact ⟨rfl, rfl, rfl, rfl, .refl⟩
  · exact .refl r

theorem forward_markFinalised {rc : TurnReceipt} {status : RequestStatus} (h : status.isTerminal)
    (reason : Option FailureReason) (now : Time) (r : PromptRequest) :
    Forward (ReflGen RequestStatus.Next) r (markFinalised rc status reason now r) := by
  unfold markFinalised
  split
  case isTrue hr => exact ⟨rfl, rfl, rfl, rfl, .single (hr.2.2 ▸ .of_isTerminal h)⟩
  case isFalse => exact .refl r

theorem forward_markDrained {s : St} (h : Inv colleagues s) {tx : ClaimTx} {c : Candidate}
    {seq : TurnSeq} {batch : List DrainedTrigger} (htx : tx ∈ s.inflight)
    (hpc : tx.pc = .drained c seq batch) {r : PromptRequest} (hr : r ∈ s.db.promptRequests) :
    Forward (ReflGen RequestStatus.Next) r (markDrained (batch.map (·.id)) seq tx.now r) := by
  by_cases hp : r.status = .pending
  · unfold markDrained
    split
    · exact ⟨rfl, rfl, rfl, rfl, .single (hp ▸ .claim)⟩
    · exact .refl r
  · rw [h.batch.markDrained_other htx hpc hr (.inr hp)]
    exact .refl r

inductive RowStep (rows rows' : Table PromptRequest) : Prop
  | forward (f : PromptRequest → PromptRequest) (hf : ∀ r, key (f r) = key r)
      (eq : rows' = rows.modify f hf)
      (moves : ∀ r ∈ rows, Forward (ReflGen RequestStatus.Next) r (f r))
  | added (row : PromptRequest) (inserted : rows.insert? row = some rows')
      (unseen : ∀ r ∈ rows, r.orgId = row.orgId → r.idempotencyKey ≠ row.idempotencyKey)

theorem RowStep.same (rows : Table PromptRequest) : RowStep rows rows :=
  .forward id (fun _ => rfl) (Table.modify_eq_self _ fun _ _ => rfl).symm fun r _ => .refl r

theorem rowStep_enqueue {id rid : PromptRequestId} {now : Time} {trig : NewTrigger} {db db' : Db}
    (h : enqueueTrigger colleagues id now trig db = .ok (db', rid)) :
    RowStep db.promptRequests db'.promptRequests := by
  obtain ⟨_, -, rfl, -⟩ | ⟨-, row, hrow⟩ := enqueueTrigger_cases h
  · exact .same _
  · refine .added row hrow.inserted fun r hr horg hkey => ?_
    have hseen := findByIdempotencyKey_isSome.mpr
      ⟨r, hr, horg.trans hrow.org, hkey.trans hrow.key⟩
    rw [hrow.unseen] at hseen
    cases hseen

theorem rowStep {s t : St} {a : Act} (h : Inv colleagues s)
    (hst : Stepped colleagues timing s a t) : RowStep s.db.promptRequests t.db.promptRequests := by
  cases hst with
  | enqueue he => exact rowStep_enqueue he
  | cancel _ he =>
    unfold requestCancellation at he
    split at he
    · cases he
      exact .forward (markCancelled _ _) (markCancelled_key _ _) rfl fun r _ =>
        forward_markCancelled _ _ r
    · cases he
  | commitClaim htx hpc =>
    obtain ⟨hmem, rfl⟩ := St.open?_mem htx
    exact .forward _ (markDrained_key _ _ _) rfl fun r hr => forward_markDrained h hmem hpc hr
  | markTurnDone =>
    exact .forward _ (markFinalised_key _ _ _ _) rfl fun r _ => forward_markFinalised rfl _ _ r
  | markTurnFailed =>
    exact .forward _ (markFinalised_key _ _ _ _) rfl fun r _ => forward_markFinalised rfl _ _ r
  | _ => exact .same _

theorem RowStep.moves {rows rows' : Table PromptRequest} (h : RowStep rows rows')
    {r : PromptRequest} (hr : r ∈ rows) :
    ∃ r' ∈ rows', Forward (ReflGen RequestStatus.Next) r r' := by
  cases h with
  | forward f hf eq moves => exact ⟨f r, eq ▸ Table.mem_modify.mpr ⟨r, hr, rfl⟩, moves r hr⟩
  | added row inserted => exact ⟨r, (Table.mem_insert? inserted).mpr (.inl hr), .refl r⟩

def KeyUnique (rows : Table PromptRequest) : Prop :=
  ∀ r ∈ rows, ∀ r' ∈ rows, r.orgId = r'.orgId → r.idempotencyKey = r'.idempotencyKey → r = r'

theorem KeyUnique.step {rows rows' : Table PromptRequest} (h : KeyUnique rows)
    (hstep : RowStep rows rows') : KeyUnique rows' := by
  cases hstep with
  | forward f hf eq moves =>
    intro r hr r' hr' horg hkey
    rw [eq] at hr hr'
    obtain ⟨x, hx, rfl⟩ := Table.mem_modify.mp hr
    obtain ⟨y, hy, rfl⟩ := Table.mem_modify.mp hr'
    rw [(moves x hx).org, (moves y hy).org] at horg
    rw [(moves x hx).idempotencyKey, (moves y hy).idempotencyKey] at hkey
    rw [h x hx y hy horg hkey]
  | added row inserted unseen =>
    intro r hr r' hr' horg hkey
    obtain hr | rfl := (Table.mem_insert? inserted).mp hr <;>
      obtain hr' | rfl := (Table.mem_insert? inserted).mp hr'
    · exact h r hr r' hr' horg hkey
    · exact absurd hkey (unseen r hr horg)
    · exact absurd hkey.symm (unseen r' hr' horg.symm)
    · rfl

theorem keyUnique_reachable {s : St} (h : Reachable (step colleagues timing) .init s) :
    KeyUnique s.db.promptRequests := by
  have hstep (s : St) (a : Act) (t : St) (hs : Inv colleagues s ∧ KeyUnique s.db.promptRequests)
      (e : step colleagues timing s a = some t) :
      Inv colleagues t ∧ KeyUnique t.db.promptRequests :=
    ⟨hs.1.step e, hs.2.step (rowStep hs.1 (step_stepped e))⟩
  exact (h.inv hstep ⟨.init, fun r hr => absurd hr (Table.not_mem_empty r)⟩).2

theorem moves_reachable {s t : St} (h : Inv colleagues s)
    (hst : Reachable (step colleagues timing) s t) {r : PromptRequest}
    (hr : r ∈ s.db.promptRequests) :
    ∃ r' ∈ t.db.promptRequests, Forward (ReflTransGen RequestStatus.Next) r r' := by
  have hstep (t : St) (a : Act) (u : St) (ht : Inv colleagues t ∧
      ∃ r' ∈ t.db.promptRequests, Forward (ReflTransGen RequestStatus.Next) r r')
      (e : step colleagues timing t a = some u) : Inv colleagues u ∧
      ∃ r' ∈ u.db.promptRequests, Forward (ReflTransGen RequestStatus.Next) r r' := by
    obtain ⟨hinv, r', hr', hforward⟩ := ht
    obtain ⟨r'', hr'', hnext⟩ := (rowStep hinv (step_stepped e)).moves hr'
    exact ⟨hinv.step e, r'', hr'', hforward.trans hnext⟩
  exact (hst.inv hstep ⟨h, r, hr, rfl, rfl, rfl, rfl, .refl⟩).2

structure Enqueues (id : PromptRequestId) (now : Time) (trig : NewTrigger) (db db' : Db)
    (rid : PromptRequestId) : Prop where
  returns : ∃ r ∈ db'.promptRequests, r.id = rid ∧ r.orgId = trig.orgId ∧
    r.idempotencyKey = trig.idempotencyKey
  retry : (∃ r ∈ db.promptRequests, r.orgId = trig.orgId ∧ r.idempotencyKey = trig.idempotencyKey) →
    db' = db
  minted : (∀ r ∈ db.promptRequests, r.orgId = trig.orgId →
      r.idempotencyKey ≠ trig.idempotencyKey) →
    rid = id ∧ ∃ r, db.promptRequests.insert? r = some db'.promptRequests ∧ r.id = id ∧
      r.status = .pending ∧ match trig.rootRequestId with
      | none => r.rootRequestId = id ∧
          db.promptRequestDags.insert? ⟨id, trig.orgId, 0, MAX_DAG_TURNS, now⟩ =
            some db'.promptRequestDags
      | some root => r.rootRequestId = root ∧ db'.promptRequestDags = db.promptRequestDags

theorem enqueueTrigger_enqueues {id rid : PromptRequestId} {now : Time} {trig : NewTrigger}
    {db db' : Db} (h : enqueueTrigger colleagues id now trig db = .ok (db', rid)) :
    Enqueues id now trig db db' rid := by
  obtain ⟨r, hfind, rfl, rfl⟩ | ⟨rfl, row, hrow⟩ := enqueueTrigger_cases h
  · have hr := List.mem_of_find?_eq_some hfind
    obtain ⟨horg, hkey⟩ : r.orgId = trig.orgId ∧ r.idempotencyKey = trig.idempotencyKey := by
      simpa using List.find?_some hfind
    exact ⟨⟨r, hr, rfl, horg, hkey⟩, fun _ => rfl, fun hnone => absurd hkey (hnone r hr horg)⟩
  · refine ⟨⟨row, (Table.mem_insert? hrow.inserted).mpr (.inr rfl), hrow.rowId, hrow.org, hrow.key⟩,
      fun hseen => ?_, fun _ => ⟨rfl, row, hrow.inserted, hrow.rowId, ?_, ?_⟩⟩
    · have hfound := findByIdempotencyKey_isSome.mpr hseen
      rw [hrow.unseen] at hfound
      cases hfound
    · exact hrow.pending h
    · have hroot := hrow.root
      have hdags := hrow.dags
      cases htrig : trig.rootRequestId with
      | none =>
        rw [htrig] at hroot hdags
        exact ⟨hroot, hdags⟩
      | some root =>
        rw [htrig] at hroot hdags
        exact ⟨hroot, hdags⟩

structure Lifecycle (colleagues : Table Colleague) (timing : LeaseTiming) (s : St) : Prop where
  keyUnique : KeyUnique s.db.promptRequests
  step : ∀ a t, step colleagues timing s a = some t → ∀ r ∈ s.db.promptRequests,
    ∃ r' ∈ t.db.promptRequests, Forward (ReflGen RequestStatus.Next) r r'
  run : ∀ t, Reachable (Runtime.step colleagues timing) s t → ∀ r ∈ s.db.promptRequests,
    ∃ r' ∈ t.db.promptRequests, Forward (ReflTransGen RequestStatus.Next) r r' ∧
      (r.status.isTerminal → r'.status = r.status)
  enqueues : ∀ id now trig db rid, enqueueTrigger colleagues id now trig s.db = .ok (db, rid) →
    Enqueues id now trig s.db db rid
  sameId : ∀ t, Reachable (Runtime.step colleagues timing) s t → ∀ r ∈ s.db.promptRequests,
    ∀ id now trig db rid, trig.orgId = r.orgId → trig.idempotencyKey = r.idempotencyKey →
      enqueueTrigger colleagues id now trig t.db = .ok (db, rid) → rid = r.id

theorem lifecycle {s : St} (h : Reachable (step colleagues timing) .init s) :
    Lifecycle colleagues timing s := by
  have hinv := reachable_inv h
  refine ⟨keyUnique_reachable h, fun a t e r hr => ?_, fun t ht r hr => ?_,
    fun _ _ _ _ _ => enqueueTrigger_enqueues, fun t ht r hr id now trig db rid horg hkey e => ?_⟩
  · exact (rowStep hinv (step_stepped e)).moves hr
  · obtain ⟨r', hr', hforward⟩ := moves_reachable hinv ht hr
    exact ⟨r', hr', hforward, RequestStatus.terminal_of_next hforward.status⟩
  · obtain ⟨r', hr', hforward⟩ := moves_reachable hinv ht hr
    have henq := enqueueTrigger_enqueues e
    have hold : db = t.db := henq.retry
      ⟨r', hr', hforward.org.trans horg.symm, hforward.idempotencyKey.trans hkey.symm⟩
    obtain ⟨x, hx, hid, hxorg, hxkey⟩ := henq.returns
    rw [hold] at hx
    have hsame : x = r' := keyUnique_reachable (h.trans ht) x hx r' hr'
      (hxorg.trans (horg.trans hforward.org.symm))
      (hxkey.trans (hkey.trans hforward.idempotencyKey.symm))
    rw [← hid, hsame, hforward.id]

theorem lifecycle_claimed : ∃ s, run (step Sample.colleagues .defaultConst) .init
      ([.enqueue 5 0 Sample.post] ++ Sample.claim 11 5) = some s ∧
    s.db.promptRequests.rows.map (·.status) = [.processing] ∧
    Lifecycle Sample.colleagues .defaultConst s := by
  have h : (run (step Sample.colleagues .defaultConst) .init
      ([.enqueue 5 0 Sample.post] ++ Sample.claim 11 5)).map
      (fun s => s.db.promptRequests.rows.map (·.status)) = some [.processing] := by decide
  obtain ⟨s, hs, hstatus⟩ := Option.map_eq_some_iff.mp h
  exact ⟨s, hs, hstatus, lifecycle (run_path hs)⟩

end Patom.Runtime
