import Patom.Runtime.RowLaws

open Patom.Foundation

namespace Patom.Runtime

variable {colleagues : Table Colleague} {timing : LeaseTiming}

structure Carried (r r' : PromptRequest) : Prop where
  id : r'.id = r.id
  claimKey : r'.claimKey = r.claimKey
  kind : r'.kind = r.kind
  payload : r'.kindPayload = r.kindPayload
  receiver : r'.receiverColleagueId = r.receiverColleagueId

theorem Carried.refl (r : PromptRequest) : Carried r r := ⟨rfl, rfl, rfl, rfl, rfl⟩

theorem carried_markCancelled (id : PromptRequestId) (now : Time) (r : PromptRequest) :
    Carried r (markCancelled id now r) := by
  unfold markCancelled
  split <;> exact ⟨rfl, rfl, rfl, rfl, rfl⟩

theorem carried_markFinalised (rc : TurnReceipt) (status : RequestStatus)
    (reason : Option FailureReason) (now : Time) (r : PromptRequest) :
    Carried r (markFinalised rc status reason now r) := by
  unfold markFinalised
  split <;> exact ⟨rfl, rfl, rfl, rfl, rfl⟩

theorem carried_markDrained (ids : List PromptRequestId) (seq : TurnSeq) (now : Time)
    (r : PromptRequest) : Carried r (markDrained ids seq now r) := by
  unfold markDrained
  split <;> exact ⟨rfl, rfl, rfl, rfl, rfl⟩

structure Seeded (colleagues : Table Colleague) (id : PromptRequestId) (trig : NewTrigger)
    (r : PromptRequest) : Prop where
  id : r.id = id
  minted : Minted trig r
  stateId : r.stateId = trig.stateId
  receiver : resolveAgentColleague colleagues trig.orgId trig.receiverAgentId
    = .ok r.receiverColleagueId

theorem enqueueTrigger_seeded {id rid : PromptRequestId} {now : Time} {trig : NewTrigger}
    {db db' : Db} (h : enqueueTrigger colleagues id now trig db = .ok (db', rid)) :
    db'.promptRequests = db.promptRequests ∨ ∃ r, Seeded colleagues id trig r ∧
      db.promptRequests.insert? r = some db'.promptRequests := by
  obtain ⟨-, -, rfl, -⟩ | ⟨-, row, hrow⟩ := enqueueTrigger_cases h
  · exact .inl rfl
  · obtain ⟨-, -, hsame | ⟨row', -, hreceiver, hins⟩⟩ := enqueueTrigger_ok h
    · exact .inl hsame
    · have happend := (Table.rows_insert? hins).symm.trans (Table.rows_insert? hrow.inserted)
      obtain rfl := List.singleton_inj.mp (List.append_cancel_left happend)
      exact .inr ⟨row', ⟨hrow.rowId, hrow.minted h, hrow.trigger.2.1, hreceiver⟩, hins⟩

theorem rows_from {s t : St} {a : Act} (h : Inv colleagues s)
    (hst : Stepped colleagues timing s a t) {r' : PromptRequest}
    (hr' : r' ∈ t.db.promptRequests) :
    (∃ r ∈ s.db.promptRequests, Carried r r' ∧ Moved a r r') ∨
      ∃ id now trig, a = .enqueue id now trig ∧ Seeded colleagues id trig r' ∧
        s.db.promptRequests.find? r'.id = none := by
  cases hst with
  | @enqueue id now trig db rid he =>
    obtain hrows | ⟨row, hrow, hins⟩ := enqueueTrigger_seeded he
    · exact .inl ⟨r', hrows ▸ hr', .refl r', .refl _ r'⟩
    · obtain hr' | rfl := (Table.mem_insert? hins).mp hr'
      · exact .inl ⟨r', hr', .refl r', .refl _ r'⟩
      · exact .inr ⟨id, now, trig, rfl, hrow,
          Table.insert?_isSome.mp (Option.isSome_of_eq_some hins)⟩
  | cancel _ he =>
    obtain ⟨-, -, hrows⟩ := requestCancellation_ok he
    obtain ⟨r, hr, rfl⟩ := (hrows r').mp hr'
    exact .inl ⟨r, hr, carried_markCancelled _ _ r, moved_markCancelled _ _ _ r⟩
  | commitClaim htx hpc =>
    obtain ⟨hmem, rfl⟩ := St.open?_mem htx
    obtain ⟨r, hr, rfl⟩ := mem_commitDrain.mp hr'
    exact .inl ⟨r, hr, carried_markDrained _ _ _ r, moved_markDrained h hmem hpc _ hr⟩
  | @markTurnDone w rc now =>
    obtain ⟨r, hr, rfl⟩ := mem_finaliseTurn.mp hr'
    exact .inl ⟨r, hr, carried_markFinalised _ _ _ _ r,
      moved_markFinalised (.markTurnDone w rc now) rfl (fun _ h => h) _ _ r⟩
  | @markTurnFailed w rc reason now =>
    obtain ⟨r, hr, rfl⟩ := mem_finaliseTurn.mp hr'
    exact .inl ⟨r, hr, carried_markFinalised _ _ _ _ r,
      moved_markFinalised (.markTurnFailed w rc reason now) rfl (fun _ h => h) _ _ r⟩
  | _ => exact .inl ⟨r', hr', .refl r', .refl _ r'⟩

theorem rows_onto {s t : St} {a : Act} (hst : Stepped colleagues timing s a t)
    {r : PromptRequest} (hr : r ∈ s.db.promptRequests) :
    ∃ r' ∈ t.db.promptRequests, Carried r r' := by
  cases hst with
  | enqueue he =>
    obtain hrows | ⟨row, -, hins⟩ := enqueueTrigger_seeded he
    · exact ⟨r, hrows ▸ hr, .refl r⟩
    · exact ⟨r, (Table.mem_insert? hins).mpr (.inl hr), .refl r⟩
  | cancel _ he =>
    obtain ⟨-, -, hrows⟩ := requestCancellation_ok he
    exact ⟨_, (hrows _).mpr ⟨r, hr, rfl⟩, carried_markCancelled _ _ r⟩
  | commitClaim => exact ⟨_, mem_commitDrain.mpr ⟨r, hr, rfl⟩, carried_markDrained _ _ _ r⟩
  | markTurnDone =>
    exact ⟨_, mem_finaliseTurn.mpr ⟨r, hr, rfl⟩, carried_markFinalised _ _ _ _ r⟩
  | markTurnFailed =>
    exact ⟨_, mem_finaliseTurn.mpr ⟨r, hr, rfl⟩, carried_markFinalised _ _ _ _ r⟩
  | _ => exact ⟨r, hr, .refl r⟩

def agentOf (colleagues : Table Colleague) (r : PromptRequest) : Option AgentId :=
  (colleagues.find? r.receiverColleagueId).bind (·.agentId)

theorem Seeded.agent {id : PromptRequestId} {trig : NewTrigger} {r : PromptRequest}
    (h : Seeded colleagues id trig r) : agentOf colleagues r = some trig.receiverAgentId := by
  obtain ⟨c, hc, hagent⟩ := resolveAgentColleague_ok h.receiver
  rw [agentOf, hc]
  exact hagent

structure Snapshot (colleagues : Table Colleague) (k : ClaimKey) (d : DrainedTrigger)
    (r : PromptRequest) : Prop where
  id : r.id = d.id
  claimKey : r.claimKey = k
  payload : r.kindPayload = d.kindPayload
  agent : agentOf colleagues r = d.agentId

theorem Snapshot.carried {k : ClaimKey} {d : DrainedTrigger} {r r' : PromptRequest}
    (h : Snapshot colleagues k d r) (hr : Carried r r') : Snapshot colleagues k d r' where
  id := hr.id.trans h.id
  claimKey := hr.claimKey.trans h.claimKey
  payload := hr.payload.trans h.payload
  agent := by rw [agentOf, hr.receiver]; exact h.agent

theorem snapshot_carried {rows rows' : Table PromptRequest} {k : ClaimKey} {d : DrainedTrigger}
    (hrows : ∀ r ∈ rows, ∃ r' ∈ rows', Carried r r')
    (h : ∃ r ∈ rows, Snapshot colleagues k d r) : ∃ r ∈ rows', Snapshot colleagues k d r := by
  obtain ⟨r, hr, hsnap⟩ := h
  obtain ⟨r', hr', hcarried⟩ := hrows r hr
  exact ⟨r', hr', hsnap.carried hcarried⟩

structure DrainInv (colleagues : Table Colleague) (s : St) : Prop where
  inflight : ∀ tx ∈ s.inflight, ∀ c seq batch, tx.pc = .drained c seq batch → ∀ d ∈ batch,
    ∃ r ∈ s.db.promptRequests, Snapshot colleagues c.claimKey d r
  claims : ∀ c ∈ s.claims, ∀ d ∈ c.first :: c.rest,
    ∃ r ∈ s.db.promptRequests, Snapshot colleagues c.claimKey d r

theorem DrainInv.init : DrainInv colleagues .init where
  inflight _ h := (Table.not_mem_empty _ h).elim
  claims _ h := by cases h

theorem DrainInv.of_carried {s t : St} (h : DrainInv colleagues s)
    (hrows : ∀ r ∈ s.db.promptRequests, ∃ r' ∈ t.db.promptRequests, Carried r r')
    (hinflight : ∀ tx ∈ t.inflight, tx ∈ s.inflight ∨ ∀ c seq batch, tx.pc ≠ .drained c seq batch)
    (hclaims : t.claims = s.claims) : DrainInv colleagues t := by
  refine ⟨fun tx htx c seq batch hpc d hd => ?_, fun c hc d hd => ?_⟩
  · obtain htx | hne := hinflight tx htx
    · exact snapshot_carried hrows (h.inflight tx htx c seq batch hpc d hd)
    · exact absurd hpc (hne c seq batch)
  · exact snapshot_carried hrows (h.claims c (hclaims ▸ hc) d hd)

theorem DrainInv.drain {s : St} (h : DrainInv colleagues s) {tx : ClaimTx} {c : Candidate}
    {seq : TurnSeq} {batch : List DrainedTrigger}
    (perm : batch.Perm (drainTurnPending colleagues s.db c.claimKey)) :
    DrainInv colleagues (s.advance tx (.drained c seq batch)) := by
  refine { h with inflight := fun tx' htx' c' seq' b hpc d hd => ?_ }
  obtain rfl | ⟨htx', -⟩ := St.mem_advance.mp htx'
  · cases hpc
    obtain ⟨r, hr, hk, -, rc, hrc, rfl⟩ := mem_drainTurnPending.mp (perm.mem_iff.mp hd)
    exact ⟨r, hr, rfl, hk, rfl, by rw [agentOf, hrc]; rfl⟩
  · exact h.inflight tx' htx' c' seq' b hpc d hd

theorem DrainInv.step {s t : St} {a : Act} (h : DrainInv colleagues s)
    (hst : Stepped colleagues timing s a t) : DrainInv colleagues t := by
  have hrows : ∀ r ∈ s.db.promptRequests, ∃ r' ∈ t.db.promptRequests, Carried r r' :=
    fun r hr => rows_onto hst hr
  have hself : ∀ tx ∈ s.inflight, tx ∈ s.inflight ∨ ∀ c seq batch, tx.pc ≠ .drained c seq batch :=
    fun tx htx => .inl htx
  have hclose (w : WorkerId) : ∀ tx ∈ (s.close w).inflight,
      tx ∈ s.inflight ∨ ∀ c seq batch, tx.pc ≠ .drained c seq batch :=
    fun tx htx => .inl (St.mem_close.mp htx).1
  have hput (tx : ClaimTx) (hpc : ∀ c seq batch, tx.pc ≠ .drained c seq batch) :
      ∀ tx' ∈ s.inflight.put tx, tx' ∈ s.inflight ∨
        ∀ c seq batch, tx'.pc ≠ .drained c seq batch := by
    intro tx' htx'
    obtain rfl | ⟨htx', -⟩ := Table.mem_put.mp htx'
    · exact .inr hpc
    · exact .inl htx'
  cases hst with
  | tick | enqueue | enqueueRejected | cancel | cancelRejected | heartbeat | markTurnDone
  | markTurnFailed | release => exact h.of_carried hrows hself rfl
  | begin | select | bump | lease | refuse => exact h.of_carried hrows (hput _ (by simp)) rfl
  | selectClosed | abort | stop => exact h.of_carried hrows (hclose _) rfl
  | drain htx hpc perm => exact h.drain perm
  | commitRefused | commitEmpty => exact h.of_carried hrows (hclose _) rfl
  | @commitClaim w tx c seq d rest htx hpc =>
    obtain ⟨hmem, rfl⟩ := St.open?_mem htx
    refine ⟨fun tx' htx' c' seq' b hpc' d' hd' => ?_, fun c' hc' d' hd' => ?_⟩
    · exact snapshot_carried hrows (h.inflight tx' (St.mem_close.mp htx').1 c' seq' b hpc' d' hd')
    · obtain hc' | hc' := List.mem_append.mp hc'
      · exact snapshot_carried hrows (h.claims c' hc' d' hd')
      · obtain rfl := List.mem_singleton.mp hc'
        exact snapshot_carried hrows (h.inflight tx hmem c seq _ hpc d' hd')

theorem turn_snapshot {s : St} (h : DrainInv colleagues s) {c : Claim} (hc : c ∈ s.claims)
    {turn : ClaimedTurn} (hturn : c.turn = .ok turn) :
    ∃ r ∈ s.db.promptRequests, r.id ∈ turn.triggerIds ∧ r.claimKey = turn.claimKey ∧
      r.kindPayload = turn.kindPayload ∧ agentOf colleagues r = some turn.receiverAgentId := by
  obtain ⟨r, hr, hsnap⟩ := h.claims c hc c.first List.mem_cons_self
  unfold Claim.turn buildClaimedTurn at hturn
  split at hturn
  · cases hturn
  · rename_i agent hagent
    cases hshared : checkShared agent c.first.kind c.rest with
    | error e => simp [hshared, Except.map] at hturn
    | ok u =>
      simp only [hshared, Except.map, Except.ok.injEq] at hturn
      subst hturn
      exact ⟨r, hr, by rw [hsnap.id]; exact List.mem_cons_self, hsnap.claimKey, hsnap.payload,
        hsnap.agent.trans hagent⟩

end Patom.Runtime
