import Patom.Runtime.RowLaws
import Patom.Runtime.Worker

open Patom.Foundation

namespace Patom.Runtime

variable {colleagues : Table Colleague} {timing : LeaseTiming}

inductive PoolStepped (colleagues : Table Colleague) (timing : LeaseTiming) (p : Pool) :
    PoolAct → Pool → Prop
  | queue {a queue} (admitted : p.admits a) (h : step colleagues timing p.queue a = some queue) :
      PoolStepped colleagues timing p (.queue a)
        { p with queue, turns := p.turns.delete fun t => a.stops t.worker }
  | claims {w queue turn} (idle : p.turn? w = none)
      (h : claimCommit timing p.queue w = some (queue, .ok (some turn))) :
      PoolStepped colleagues timing p (.claim w)
        { p with queue, turns := p.turns.put ⟨w, turn.receipt, turn.kind, .starting⟩ }
  | returns {w queue res} (h : claimCommit timing p.queue w = some (queue, res)) :
      PoolStepped colleagues timing p (.claim w) { p with queue }
  | turn {t a p'} (ht : t ∈ p.turns) (h : TurnStepped colleagues timing p t a p') :
      PoolStepped colleagues timing p (.turn t.worker a) p'

theorem poolStep_stepped {p p' : Pool} {a : PoolAct} (h : poolStep colleagues timing p a = some p') :
    PoolStepped colleagues timing p a p' := by
  cases a with
  | queue a =>
    simp only [poolStep, Option.ite_none_right_eq_some, Option.map_eq_some_iff] at h
    obtain ⟨admitted, queue, hqueue, rfl⟩ := h
    exact .queue admitted hqueue
  | claim w =>
    simp only [poolStep, Option.ite_none_left_eq_some, Option.map_eq_some_iff, Prod.exists,
      Option.not_isSome_iff_eq_none] at h
    obtain ⟨idle, queue, res, hcommit, rfl⟩ := h
    cases res with
    | error e => exact .returns hcommit
    | ok turn =>
      cases turn with
      | none => exact .returns hcommit
      | some turn => exact .claims idle hcommit
  | turn w a =>
    obtain ⟨t, ht, hstep⟩ := Option.bind_eq_some_iff.mp h
    obtain ⟨hmem, rfl⟩ := Table.find?_eq_some.mp ht
    exact .turn hmem (turnStep_stepped hstep)

def Concludes (chunk : ResponseChunk) : Prop :=
  chunk.isTerminal ∧ chunk ≠ .fromFailure .dagBudgetExceeded

def Concluded (rs : Responses) (id : PromptRequestId) : Prop := rs.Has id Concludes

def Finished (rs : Responses) (id : PromptRequestId) : Prop := rs.Has id (· = .done "")

def Closing (chunk : ResponseChunk) : Prop :=
  chunk = .done "" ∨ ∃ reason, chunk = .fromFailure reason

structure PoolInv (colleagues : Table Colleague) (p : Pool) : Prop where
  queue : Inv colleagues p.queue
  numbered : Numbered p.responses
  closing : ∀ c ∈ p.responses.chunks, c.payload.isTerminal → Closing c.payload
  requests : ∀ c ∈ p.responses.chunks, (p.queue.db.promptRequests.find? c.requestId).isSome
  claimed : ∀ t ∈ p.turns, ∃ c ∈ p.queue.claims, c.worker = t.worker ∧ c.receipt? = some t.receipt
  unreported : ∀ t ∈ p.turns, t.unreported.Sublist t.receipt.triggerIds ∧
    ∀ id ∈ t.unreported, ¬Concluded p.responses id
  unfinished : ∀ t ∈ p.turns, t.unfinished.Sublist t.receipt.triggerIds ∧
    ∀ id ∈ t.unfinished, ¬Finished p.responses id
  waiting : ∀ r ∈ p.queue.db.promptRequests, r.status = .pending → ¬Concluded p.responses r.id

theorem Finished.concluded {rs : Responses} {id : PromptRequestId} (h : Finished rs id) :
    Concluded rs id :=
  Responses.Has.mono h fun _ e => e ▸ ⟨rfl, nofun⟩

theorem poolInv_init : PoolInv colleagues .init where
  queue := .init
  numbered := numbered_empty
  closing := fun _ h => absurd h (Table.not_mem_empty _)
  requests := fun _ h => absurd h (Table.not_mem_empty _)
  claimed := fun _ h => absurd h (Table.not_mem_empty _)
  unreported := fun _ h => absurd h (Table.not_mem_empty _)
  unfinished := fun _ h => absurd h (Table.not_mem_empty _)
  waiting := fun _ h => absurd h (Table.not_mem_empty _)

namespace PoolInv

variable {p : Pool} (h : PoolInv colleagues p)
include h

theorem nodup {t : Turn} (ht : t ∈ p.turns) : t.receipt.triggerIds.Nodup := by
  obtain ⟨c, hc, -, hreceipt⟩ := h.claimed t ht
  rw [(Claim.receipt?_eq_some hreceipt).2.2]
  exact h.queue.batch.claim_nodup c hc

theorem turn_eq {t t' : Turn} (ht : t ∈ p.turns) (ht' : t' ∈ p.turns) {id : PromptRequestId}
    (hid : id ∈ t.receipt.triggerIds) (hid' : id ∈ t'.receipt.triggerIds) : t = t' := by
  obtain ⟨c, hc, hw, hreceipt⟩ := h.claimed t ht
  obtain ⟨c', hc', hw', hreceipt'⟩ := h.claimed t' ht'
  rw [(Claim.receipt?_eq_some hreceipt).2.2] at hid
  rw [(Claim.receipt?_eq_some hreceipt').2.2] at hid'
  obtain rfl := h.queue.claim_eq hc hc' hid hid'
  exact Table.eq_of_key_eq ht ht' (hw.symm.trans hw')

theorem drained {t : Turn} (ht : t ∈ p.turns) {id : PromptRequestId}
    (hid : id ∈ t.receipt.triggerIds) {r : PromptRequest} (hr : r ∈ p.queue.db.promptRequests)
    (hrid : r.id = id) : r.status ≠ .pending := by
  obtain ⟨c, hc, -, hreceipt⟩ := h.claimed t ht
  rw [(Claim.receipt?_eq_some hreceipt).2.2] at hid
  obtain ⟨r', hr', -, -, hp⟩ := h.queue.find?_taken hc hid
  obtain ⟨hmem, hkey⟩ := Table.find?_eq_some.mp hr'
  rwa [Table.eq_of_key_eq hr hmem (hrid.trans hkey.symm)]

theorem goto {t : Turn} (ht : t ∈ p.turns) {pc : TurnPc}
    (hreport : (pc.unreported t.receipt.triggerIds).Sublist t.unreported)
    (hfinish : (pc.unfinished t.receipt.triggerIds).Sublist t.unfinished) :
    PoolInv colleagues (p.goto t pc) where
  queue := h.queue
  numbered := h.numbered
  closing := h.closing
  requests := h.requests
  waiting := h.waiting
  claimed := fun t' ht' => by
    obtain rfl | ⟨ht', -⟩ := Table.mem_put.mp ht'
    · exact h.claimed t ht
    · exact h.claimed t' ht'
  unreported := fun t' ht' => by
    obtain rfl | ⟨ht', -⟩ := Table.mem_put.mp ht'
    · obtain ⟨hsub, hno⟩ := h.unreported t ht
      exact ⟨hreport.trans hsub, fun id hid => hno id (hreport.subset hid)⟩
    · exact h.unreported t' ht'
  unfinished := fun t' ht' => by
    obtain rfl | ⟨ht', -⟩ := Table.mem_put.mp ht'
    · obtain ⟨hsub, hno⟩ := h.unfinished t ht
      exact ⟨hfinish.trans hsub, fun id hid => hno id (hfinish.subset hid)⟩
    · exact h.unfinished t' ht'

theorem delete (q : Turn → Bool) : PoolInv colleagues { p with turns := p.turns.delete q } where
  queue := h.queue
  numbered := h.numbered
  closing := h.closing
  requests := h.requests
  waiting := h.waiting
  claimed := fun t' ht' => h.claimed t' (Table.mem_delete.mp ht').1
  unreported := fun t' ht' => h.unreported t' (Table.mem_delete.mp ht').1
  unfinished := fun t' ht' => h.unfinished t' (Table.mem_delete.mp ht').1

theorem close (id : PromptRequestId) (fault : Bool) :
    PoolInv colleagues { p with responses := p.closed id fault } := by
  unfold Pool.closed
  split
  case isTrue => exact h
  case isFalse =>
    exact {
      queue := h.queue
      numbered := h.numbered.close _ _
      claimed := h.claimed
      closing := by simpa only [closeInTx_chunks] using h.closing
      requests := by simpa only [closeInTx_chunks] using h.requests
      unreported := by simpa only [Concluded, has_closeInTx] using h.unreported
      unfinished := by simpa only [Finished, has_closeInTx] using h.unfinished
      waiting := by simpa only [Concluded, has_closeInTx] using h.waiting }

theorem publish {id : PromptRequestId} {chunk : ResponseChunk} {responses : Responses}
    {c : PromptResponseChunk} (hc : Published p.queue.db id chunk p.responses responses c)
    (hclosing : chunk.isTerminal → Closing chunk)
    (hreport : Concludes chunk → (∀ t ∈ p.turns, id ∉ t.unreported) ∧
      ∀ r ∈ p.queue.db.promptRequests, r.id = id → r.status ≠ .pending)
    (hfinish : chunk = .done "" → ∀ t ∈ p.turns, id ∉ t.unfinished) :
    PoolInv colleagues { p with responses } where
  queue := h.queue
  numbered := h.numbered.publish hc
  claimed := h.claimed
  closing := fun c' hc' ht => by
    obtain hc' | rfl := hc.mem.mp hc'
    · exact h.closing c' hc' ht
    · rw [hc.payload] at ht ⊢
      exact hclosing ht
  requests := fun c' hc' => by
    obtain hc' | rfl := hc.mem.mp hc'
    · exact h.requests c' hc'
    · rw [hc.requestId]
      exact hc.request
  unreported := fun t ht => ⟨(h.unreported t ht).1, fun other hother hcon => by
    obtain hold | ⟨rfl, hnew⟩ := (hc.has other Concludes).mp hcon
    · exact (h.unreported t ht).2 other hother hold
    · exact (hreport hnew).1 t ht hother⟩
  unfinished := fun t ht => ⟨(h.unfinished t ht).1, fun other hother hfin => by
    obtain hold | ⟨rfl, hnew⟩ := (hc.has other (· = .done "")).mp hfin
    · exact (h.unfinished t ht).2 other hother hold
    · exact hfinish hnew t ht hother⟩
  waiting := fun r hr hp hcon => by
    obtain hold | ⟨e, hnew⟩ := (hc.has r.id Concludes).mp hcon
    · exact h.waiting r hr hp hold
    · exact (hreport hnew).2 r hr e.symm hp

theorem queue_step {a : Act} {queue : St} (hstep : step colleagues timing p.queue a = some queue) :
    PoolInv colleagues { p with queue } where
  queue := h.queue.step hstep
  numbered := h.numbered
  closing := h.closing
  requests := fun c hc => by
    obtain ⟨r, hr⟩ := Option.isSome_iff_exists.mp (h.requests c hc)
    obtain ⟨hmem, hkey⟩ := Table.find?_eq_some.mp hr
    obtain ⟨r', hr', hmoved⟩ := rows_moved h.queue (step_stepped hstep) hmem
    have hkey' : key r' = c.requestId := hmoved.id.trans hkey
    rw [Table.find?_eq_some.mpr ⟨hr', hkey'⟩]
    rfl
  claimed := fun t ht => by
    obtain ⟨c, hc, hrest⟩ := h.claimed t ht
    exact ⟨c, claims_kept (step_stepped hstep) hc, hrest⟩
  unreported := h.unreported
  unfinished := h.unfinished
  waiting := fun r' hr' hp hcon => by
    obtain ⟨r, hr, hmoved⟩ | hadd := rows_origin h.queue (step_stepped hstep) hr'
    · exact h.waiting r hr (hmoved.pending hp) (hmoved.id ▸ hcon)
    · obtain ⟨c, hc, hid, -⟩ := hcon
      have hsome := h.requests c hc
      rw [hid, hadd.fresh] at hsome
      cases hsome

theorem claim {w : WorkerId} {queue : St} {turn : ClaimedTurn}
    (hcommit : claimCommit timing p.queue w = some (queue, .ok (some turn))) :
    PoolInv colleagues { p with queue, turns := p.turns.put ⟨w, turn.receipt, turn.kind, .starting⟩ } := by
  have hstep : step colleagues timing p.queue (.claimCommit w) = some queue :=
    step_claimCommit hcommit
  have hq := h.queue_step hstep
  obtain ⟨c, hclaims, hw, hreceipt⟩ := claimCommit_turn hcommit
  obtain ⟨-, -, hids⟩ := Claim.receipt?_eq_some hreceipt
  have hno (id : PromptRequestId) (hid : id ∈ turn.receipt.triggerIds) : ¬Concluded p.responses id := by
    rw [hids] at hid
    obtain ⟨⟨r, hr, hp⟩, -⟩ := drain_moves h.queue hstep hclaims hid
    obtain ⟨hmem, rfl⟩ := Table.find?_eq_some.mp hr
    exact h.waiting r hmem hp
  exact {
    queue := hq.queue
    numbered := hq.numbered
    closing := hq.closing
    requests := hq.requests
    waiting := hq.waiting
    claimed := fun t ht => by
      obtain rfl | ⟨ht, -⟩ := Table.mem_put.mp ht
      · exact ⟨c, hclaims ▸ List.mem_append_right _ (List.mem_singleton_self c), hw, hreceipt⟩
      · exact hq.claimed t ht
    unreported := fun t ht => by
      obtain rfl | ⟨ht, -⟩ := Table.mem_put.mp ht
      · exact ⟨List.Sublist.refl _, hno⟩
      · exact hq.unreported t ht
    unfinished := fun t ht => by
      obtain rfl | ⟨ht, -⟩ := Table.mem_put.mp ht
      · exact ⟨List.Sublist.refl _, fun id hid hfin => hno id hid hfin.concluded⟩
      · exact hq.unfinished t ht }

theorem bump (dags : Table PromptRequestDag) : PoolInv colleagues
    { p with queue := { p.queue with db := { p.queue.db with promptRequestDags := dags } } } where
  queue := ⟨{ h.queue.seq with }, { h.queue.batch with }, { h.queue.lease with }⟩
  numbered := h.numbered
  closing := h.closing
  requests := h.requests
  claimed := h.claimed
  unreported := h.unreported
  unfinished := h.unfinished
  waiting := h.waiting

theorem goto_elsewhere {t : Turn} (ht : t ∈ p.turns) {id : PromptRequestId}
    (hid : id ∈ t.receipt.triggerIds) (pc : TurnPc) :
    (id ∉ pc.unreported t.receipt.triggerIds → ∀ t' ∈ (p.goto t pc).turns, id ∉ t'.unreported) ∧
      (id ∉ pc.unfinished t.receipt.triggerIds → ∀ t' ∈ (p.goto t pc).turns, id ∉ t'.unfinished) := by
  constructor <;> intro hno t' ht' hid' <;> obtain rfl | ⟨ht', hne⟩ := Table.mem_put.mp ht'
  · exact hno hid'
  · have e := h.turn_eq ht' ht ((h.unreported t' ht').1.subset hid') hid
    have hw : t'.worker = t.worker := congrArg _ e
    exact hne hw
  · exact hno hid'
  · have e := h.turn_eq ht' ht ((h.unfinished t' ht').1.subset hid') hid
    have hw : t'.worker = t.worker := congrArg _ e
    exact hne hw

theorem turn_step {t : Turn} (ht : t ∈ p.turns) {a : TurnAct} {p' : Pool}
    (hstep : TurnStepped colleagues timing p t a p') : PoolInv colleagues p' := by
  cases hstep with
  | stays => exact h
  | moves _ hreport hfinish => exact h.goto ht hreport (hfinish ▸ List.Sublist.refl _)
  | closes _ hreport hfinish fault =>
    exact (h.goto ht (hreport ▸ List.Sublist.refl _) (hfinish ▸ List.Sublist.refl _)).close _ fault
  | bumps => exact h.bump _
  | @publishes id chunk _ _ _ _ _ _ _ hchunk hc =>
    refine h.publish hc (fun e => ?_) (fun e => ?_) (fun e => ?_)
    · simp [hchunk] at e
    · exact absurd e.1 (by simp [hchunk])
    · simp [e, ResponseChunk.isTerminal] at hchunk
  | refuses _ hreport hfinish hc =>
    refine (h.goto ht (hreport ▸ List.Sublist.refl _) (hfinish ▸ List.Sublist.refl _)).publish hc
      (fun _ => .inr ⟨_, rfl⟩) (fun e => absurd rfl e.2) (by rintro ⟨⟩)
  | @reports reason id rest _ _ _ _ _ hpc hc =>
    have hrep : t.unreported = id :: rest := by rw [Turn.unreported, hpc]; rfl
    have hfin : t.unfinished = t.receipt.triggerIds := by rw [Turn.unfinished, hpc]; rfl
    obtain ⟨hsub, -⟩ := h.unreported t ht
    rw [hrep] at hsub
    have hid := hsub.subset List.mem_cons_self
    have hnot : id ∉ rest := (List.nodup_cons.mp ((h.nodup ht).sublist hsub)).1
    refine (h.goto ht (hrep ▸ List.sublist_cons_self _ _) (hfin ▸ List.Sublist.refl _)).publish hc
      (fun _ => .inr ⟨_, rfl⟩) (fun _ => ⟨?_, fun r hr e => h.drained ht hid hr e⟩)
      (by rintro ⟨⟩)
    exact (h.goto_elsewhere ht hid _).1 hnot
  | marks hreport hfinish hmark hqueue =>
    exact (h.queue_step hqueue).goto ht (List.nil_sublist _) (hfinish ▸ List.Sublist.refl _)
  | checksLive => exact h.goto ht (List.nil_sublist _) (List.nil_sublist _)
  | @skips id rest _ hpc =>
    have hfin : t.unfinished = id :: rest := by rw [Turn.unfinished, hpc]; rfl
    exact h.goto ht (List.nil_sublist _) (hfin ▸ List.sublist_cons_self _ _)
  | @emits id rest pc _ _ _ _ _ hpc hnext hc =>
    have hfin : t.unfinished = id :: rest := by rw [Turn.unfinished, hpc]; rfl
    have hpc' : pc.unreported t.receipt.triggerIds = [] ∧ pc.unfinished t.receipt.triggerIds = rest := by
      obtain rfl | rfl := hnext <;> exact ⟨rfl, rfl⟩
    obtain ⟨hsub, -⟩ := h.unfinished t ht
    rw [hfin] at hsub
    have hid := hsub.subset List.mem_cons_self
    have hnot : id ∉ rest := (List.nodup_cons.mp ((h.nodup ht).sublist hsub)).1
    obtain ⟨hrep', hfin'⟩ := h.goto_elsewhere ht hid pc
    refine (h.goto ht (hpc'.1 ▸ List.nil_sublist _)
      (by rw [hpc'.2, hfin]; exact List.sublist_cons_self _ _)).publish hc (fun _ => .inl rfl) ?_ ?_
    · exact fun _ => ⟨hrep' (by rw [hpc'.1]; exact List.not_mem_nil), fun r hr e => h.drained ht hid hr e⟩
    · exact fun _ => hfin' (by rwa [hpc'.2])
  | releases _ hqueue => exact (h.queue_step hqueue).delete _
  | leaves => exact h.delete _

end PoolInv

theorem PoolInv.step {p p' : Pool} {a : PoolAct} (h : PoolInv colleagues p)
    (hstep : poolStep colleagues timing p a = some p') : PoolInv colleagues p' := by
  cases poolStep_stepped hstep with
  | queue _ hqueue => exact (h.queue_step hqueue).delete _
  | claims _ hcommit => exact h.claim hcommit
  | returns hcommit => exact h.queue_step (step_claimCommit hcommit)
  | turn ht hturn => exact h.turn_step ht hturn

end Patom.Runtime
