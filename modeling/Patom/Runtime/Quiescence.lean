import Patom.Runtime.WorkerInvariant

open Patom.Foundation

namespace Patom.Runtime

variable {colleagues : Table Colleague} {timing : LeaseTiming}

def Pool.Attends (p : Pool) (root : PromptRequestId) : Prop :=
  ∃ t ∈ p.turns, ∃ r ∈ p.queue.db.promptRequests, r.id ∈ t.receipt.triggerIds ∧ r.rootRequestId = root

/-- Once a tree is quiescent and its last turn is over, its root and its triggers are all told. -/
def StreamsEnd (p : Pool) : Prop :=
  ∀ root, quiescent root p.queue.db → ¬p.Attends root →
    ∀ r ∈ p.queue.db.promptRequests, r.rootRequestId = root →
      Terminated p.responses r.id ∧ Terminated p.responses root

def Pool.Told (p : Pool) (id : PromptRequestId) : Prop :=
  ∀ r ∈ p.queue.db.promptRequests, r.id = id → r.status.isLive ∨ Terminated p.responses id

/-- The triggers a step gives up: all of a turn's when its check finds the root's tree live or fails,
the next one when its `Done` is lost, those left when the worker stops. -/
def Pool.gives (p : Pool) : PoolAct → List PromptRequestId
  | .queue (.stop w) => (p.turn? w).elim [] Turn.unfinished
  | .turn w (.check fault) => (p.turn? w).elim [] fun t =>
      if fault = false ∧ quiescent t.receipt.rootRequestId p.queue.db then [] else t.unfinished
  | .turn w (.emit _ .lost) => (p.turn? w).elim [] fun t => t.unfinished.take 1
  | _ => []

def GivesTold (p : Pool) (a : PoolAct) : Prop := ∀ id ∈ p.gives a, p.Told id

instance (rs : Responses) (id : PromptRequestId) : Decidable (Terminated rs id) :=
  inferInstanceAs (Decidable (∃ c ∈ rs.chunks, c.requestId = id ∧ c.payload.isTerminal))

def PoolAct.keeps : PoolAct → Bool
  | .queue (.stop _) | .turn _ (.check _) | .turn _ (.emit _ .lost) => false
  | _ => true

theorem givesTold_of_nil {p : Pool} {a : PoolAct} (h : p.gives a = []) : GivesTold p a := by
  intro id hid
  rw [h] at hid
  cases hid

theorem givesTold_of_keeps {p : Pool} {a : PoolAct} (h : a.keeps) : GivesTold p a := by
  refine givesTold_of_nil ?_
  unfold Pool.gives
  split
  case h_4 => rfl
  all_goals cases h

def Owed (p : Pool) : Prop :=
  ∀ r ∈ p.queue.db.promptRequests, r.status.isLive = false →
    Terminated p.responses r.id ∨ ∃ t ∈ p.turns, r.id ∈ t.unfinished

def Rooted (p : Pool) : Prop :=
  ∀ r ∈ p.queue.db.promptRequests, ∃ r' ∈ p.queue.db.promptRequests,
    r'.id = r.rootRequestId ∧ r'.rootRequestId = r.rootRequestId

theorem streamsEnd_of_owed {p : Pool} (h : PoolInv colleagues p) (howed : Owed p) (hroot : Rooted p) :
    StreamsEnd p := by
  intro root hquiet hleft r hr e
  have htold (r : PromptRequest) (hr : r ∈ p.queue.db.promptRequests) (e : r.rootRequestId = root) :
      Terminated p.responses r.id := by
    obtain ht | ⟨t, ht, hid⟩ := howed r hr (quiescent_iff.mp hquiet r hr e)
    · exact ht
    · exact absurd ⟨t, ht, r, hr, (h.unfinished t ht).1.subset hid, e⟩ hleft
  obtain ⟨r', hr', hid, e'⟩ := hroot r hr
  refine ⟨htold r hr e, ?_⟩
  rw [← e, ← hid]
  exact htold r' hr' (e'.trans e)

theorem Owed.goto {p : Pool} (h : Owed p) {t : Turn} (ht : t ∈ p.turns) {pc : TurnPc}
    (hpc : ∀ id ∈ t.unfinished, id ∈ pc.unfinished t.receipt.triggerIds ∨ p.Told id) :
    Owed (p.goto t pc) := by
  intro r hr hlive
  obtain htold | ⟨t', ht', hid⟩ := h r hr hlive
  · exact .inl htold
  · by_cases hw : t'.worker = t.worker
    · obtain rfl := Table.eq_of_key_eq ht' ht hw
      obtain hid | htold := hpc _ hid
      · exact .inr ⟨_, Table.mem_put.mpr (.inl rfl), hid⟩
      · obtain hl | htold := htold r hr rfl
        · rw [hlive] at hl
          cases hl
        · exact .inl htold
    · exact .inr ⟨t', Table.mem_put.mpr (.inr ⟨ht', hw⟩), hid⟩

theorem Owed.responses {p : Pool} (h : Owed p) {responses : Responses}
    (hmono : ∀ id, Terminated p.responses id → Terminated responses id) :
    Owed { p with responses } := fun r hr hlive =>
  (h r hr hlive).imp_left (hmono r.id)

theorem Owed.delete {p : Pool} (h : Owed p) {q : Turn → Bool}
    (hq : ∀ t ∈ p.turns, q t → ∀ id ∈ t.unfinished, p.Told id) :
    Owed { p with turns := p.turns.delete q } := by
  intro r hr hlive
  obtain htold | ⟨t, ht, hid⟩ := h r hr hlive
  · exact .inl htold
  · cases hqt : q t with
    | false => exact .inr ⟨t, Table.mem_delete.mpr ⟨ht, hqt⟩, hid⟩
    | true =>
      obtain hl | htold := hq t ht hqt r.id hid r hr rfl
      · rw [hlive] at hl
        cases hl
      · exact .inl htold

theorem Owed.queue {p : Pool} (h : Owed p) (hinv : PoolInv colleagues p) {a : Act} {queue : St}
    (hstep : step colleagues timing p.queue a = some queue)
    (ha : ∀ id, a.finalises id → ∃ t ∈ p.turns, id ∈ t.unfinished) : Owed { p with queue } := by
  intro r' hr' hlive
  obtain ⟨r, hr, hmoved⟩ | hadd := rows_origin hinv.queue (step_stepped hstep) hr'
  · rw [hmoved.id]
    by_cases hfin : a.finalises r.id
    · exact .inr (ha _ hfin)
    · exact h r hr ((hmoved.isLive hfin).symm.trans hlive)
  · rw [hadd.status] at hlive
    cases hlive

theorem Owed.claim {p : Pool} (h : Owed p) {t : Turn} (idle : p.turn? t.worker = none) :
    Owed { p with turns := p.turns.put t } := fun r hr hlive =>
  (h r hr hlive).imp_right fun ⟨t', ht', hid⟩ =>
    ⟨t', Table.mem_put.mpr (.inr ⟨ht', Table.find?_eq_none.mp idle t' ht'⟩), hid⟩

theorem Published.told {db : Db} {id : PromptRequestId} {chunk : ResponseChunk} {rs rs' : Responses}
    {c : PromptResponseChunk} (h : Published db id chunk rs rs' c) (other : PromptRequestId)
    (ht : Terminated rs other) : Terminated rs' other :=
  (h.has other _).mpr (.inl ht)

theorem owed_turn {p p' : Pool} {t : Turn} {a : TurnAct} (h : PoolInv colleagues p) (ht : t ∈ p.turns)
    (howed : Owed p) (hg : GivesTold p (.turn t.worker a))
    (hstep : TurnStepped colleagues timing p t a p') : Owed p' := by
  have hfind : p.turn? t.worker = some t := Table.find?_of_mem ht
  cases hstep with
  | stays | bumps => exact howed
  | moves _ _ hfinish => exact howed.goto ht fun id hid => .inl (hfinish ▸ hid)
  | closes _ _ hfinish fault =>
    refine (howed.goto ht fun id hid => .inl (hfinish ▸ hid)).responses fun id htold => ?_
    unfold Pool.closed
    split
    · exact htold
    · exact (has_closeInTx ..).mpr htold
  | publishes _ _ _ _ hc => exact howed.responses hc.told
  | refuses _ _ hfinish hc =>
    exact (howed.goto ht fun id hid => .inl (hfinish ▸ hid)).responses hc.told
  | reports _ hpc hc =>
    refine (howed.goto ht fun id hid => .inl ?_).responses hc.told
    rwa [Turn.unfinished, hpc] at hid
  | @marks mark queue now hreport hfinish hmark hqueue =>
    have hq : Owed { p with queue } := howed.queue h hqueue fun id hid => by
      refine ⟨t, ht, ?_⟩
      rw [hfinish]
      obtain rfl | ⟨reason, rfl⟩ := hmark <;> exact hid
    exact hq.goto ht fun id hid => .inl (hfinish ▸ hid)
  | checksLive hpc live =>
    refine howed.goto ht fun id hid => .inr (hg id ?_)
    rw [Pool.gives, hfind, Option.elim_some, if_neg live]
    exact hid
  | @skips id rest now hpc =>
    have hfin : t.unfinished = id :: rest := by rw [Turn.unfinished, hpc]; rfl
    refine howed.goto ht fun other hother => ?_
    rw [hfin] at hother
    obtain rfl | hother := List.mem_cons.mp hother
    · refine .inr (hg other ?_)
      rw [Pool.gives, hfind, Option.elim_some, hfin]
      exact List.mem_cons_self
    · exact .inl hother
  | @emits id rest pc _ _ _ _ _ hpc hnext hc =>
    have hfin : t.unfinished = id :: rest := by rw [Turn.unfinished, hpc]; rfl
    have hpc' : pc.unfinished t.receipt.triggerIds = rest := by
      obtain rfl | rfl := hnext <;> rfl
    refine (howed.responses hc.told).goto ht fun other hother => ?_
    rw [hfin] at hother
    obtain rfl | hother := List.mem_cons.mp hother
    · exact .inr fun _ _ _ => .inr ((hc.has other _).mpr (.inr ⟨rfl, rfl⟩))
    · exact .inl (hpc' ▸ hother)
  | releases hfinish hqueue =>
    refine Owed.delete (howed.queue h hqueue (fun _ e => by cases e)) fun t' ht' hw id hid => ?_
    obtain rfl := Table.eq_of_key_eq ht' ht (of_decide_eq_true hw)
    rw [hfinish] at hid
    cases hid
  | leaves hfinish =>
    refine howed.delete fun t' ht' hw id hid => ?_
    obtain rfl := Table.eq_of_key_eq ht' ht (of_decide_eq_true hw)
    rw [hfinish] at hid
    cases hid

theorem owed_step {p p' : Pool} {a : PoolAct} (h : PoolInv colleagues p) (howed : Owed p)
    (hstep : poolStep colleagues timing p a = some p') (hg : GivesTold p a) : Owed p' := by
  cases poolStep_stepped hstep with
  | @queue a queue admitted hqueue =>
    have hadmits : ∀ id, ¬a.finalises id := by
      intro id hid
      cases a <;> first | exact hid | exact absurd admitted Bool.false_ne_true
    refine Owed.delete (howed.queue h hqueue fun id hid => absurd hid (hadmits id)) ?_
    intro t ht hstop id hid r hr e
    cases a with
    | stop w =>
      obtain rfl := of_decide_eq_true hstop
      have hfind : p.turn? t.worker = some t := Table.find?_of_mem ht
      obtain ⟨r₀, hr₀, hmoved⟩ | hadd := rows_origin h.queue (step_stepped hqueue) hr
      · rw [hmoved.isLive (hadmits _)]
        refine hg id ?_ r₀ hr₀ (hmoved.id.symm.trans e)
        rw [Pool.gives, hfind]
        exact hid
      · exact .inl (by rw [hadd.status]; rfl)
    | _ => cases hstop
  | claims idle hcommit =>
    exact (howed.queue h (step_claimCommit hcommit) fun _ e => by cases e).claim idle
  | returns hcommit => exact howed.queue h (step_claimCommit hcommit) fun _ e => by cases e
  | turn ht hturn => exact owed_turn h ht howed hg hturn

theorem rooted_queue {p : Pool} (h : PoolInv colleagues p) (hroot : Rooted p) {a : Act} {queue : St}
    (hstep : step colleagues timing p.queue a = some queue)
    (ha : ∀ id now trig, a = .enqueue id now trig → ∀ root, trig.rootRequestId = some root →
      ∃ r ∈ p.queue.db.promptRequests, r.rootRequestId = root) : Rooted { p with queue } := by
  have hold (r : PromptRequest) (hr : r ∈ p.queue.db.promptRequests) :
      ∃ r' ∈ queue.db.promptRequests, r'.id = r.rootRequestId ∧ r'.rootRequestId = r.rootRequestId := by
    obtain ⟨x, hx, hid, hxroot⟩ := hroot r hr
    obtain ⟨x', hx', hmoved⟩ := rows_moved h.queue (step_stepped hstep) hx
    exact ⟨x', hx', hmoved.id.trans hid, hmoved.root.trans hxroot⟩
  intro r' hr'
  obtain ⟨r, hr, hmoved⟩ | hadd := rows_origin h.queue (step_stepped hstep) hr'
  · rw [hmoved.root]
    exact hold r hr
  · obtain ⟨now, trig, rfl, e⟩ := hadd.enqueued
    cases htrig : trig.rootRequestId with
    | none =>
      rw [htrig] at e
      exact ⟨r', hr', e.symm, rfl⟩
    | some root =>
      obtain ⟨r, hr, rfl⟩ := ha _ _ _ rfl root htrig
      rw [e, htrig]
      exact hold r hr

theorem rooted_turn {p p' : Pool} {t : Turn} {a : TurnAct} (h : PoolInv colleagues p)
    (hroot : Rooted p) (hstep : TurnStepped colleagues timing p t a p') : Rooted p' := by
  cases hstep with
  | marks _ _ hmark hqueue =>
    refine rooted_queue (p := p) h hroot hqueue fun id now trig e => ?_
    obtain rfl | ⟨reason, rfl⟩ := hmark <;> cases e
  | releases _ hqueue => exact rooted_queue (p := p) h hroot hqueue fun _ _ _ e => by cases e
  | _ => exact hroot

theorem rooted_step {p p' : Pool} {a : PoolAct} (h : PoolInv colleagues p) (hroot : Rooted p)
    (hstep : poolStep colleagues timing p a = some p') : Rooted p' := by
  cases poolStep_stepped hstep with
  | queue admitted hqueue =>
    refine rooted_queue (p := p) h hroot hqueue ?_
    rintro id now trig rfl root e
    simpa [Pool.admits, e, Table.mem_def] using admitted
  | claims _ hcommit =>
    exact rooted_queue (p := p) h hroot (step_claimCommit hcommit) fun _ _ _ e => by cases e
  | returns hcommit =>
    exact rooted_queue (p := p) h hroot (step_claimCommit hcommit) fun _ _ _ e => by cases e
  | turn ht hturn => exact rooted_turn h hroot hturn

/-- Quiescence: in a schedule that gives up no trigger untold, every state tells the streams of each
tree that has come to rest. -/
theorem streamsEnd_of_givesTold (as : List PoolAct)
    (h : Steps (poolStep colleagues timing) GivesTold .init as) :
    Always (poolStep colleagues timing) StreamsEnd .init as := by
  have howed : Always (poolStep colleagues timing)
      (fun p => PoolInv colleagues p ∧ Rooted p ∧ Owed p) .init as := by
    refine Steps.always (fun _ => True) (fun _ _ _ _ _ _ _ => trivial) ?_ trivial ?_ h
    · rintro p a p' - ⟨hinv, hroot, howed⟩ hstep hg
      exact ⟨hinv.step hstep, rooted_step hinv hroot hstep, owed_step hinv howed hstep hg⟩
    · exact ⟨poolInv_init, fun _ h => absurd h (Table.not_mem_empty _),
        fun _ h => absurd h (Table.not_mem_empty _)⟩
  exact howed.mono fun p ⟨hinv, hroot, howed⟩ => streamsEnd_of_owed hinv howed hroot

theorem not_streamsEnd {p : Pool} {root : PromptRequestId} (hquiet : quiescent root p.queue.db)
    (hturns : p.turns.rows = []) (hroot : ∃ r ∈ p.queue.db.promptRequests, r.rootRequestId = root)
    (hno : ¬Terminated p.responses root) : ¬StreamsEnd p := by
  intro h
  obtain ⟨r, hr, e⟩ := hroot
  refine hno (h root hquiet ?_ r hr e).2
  rintro ⟨t, ht, -⟩
  rw [Table.mem_def, hturns] at ht
  cases ht

namespace Sample

def quiesced (w : WorkerId) (now : Time) : List PoolAct :=
  [.turn w (.emit now .sent), .turn w (.emitClose false), .turn w (.release false)]

def pair : Table Colleague := ⟨[⟨1, 1, some 7⟩, ⟨2, 1, some 8⟩], by decide⟩

def handoff : NewTrigger :=
  { trigger ⟨"handoff", by decide, by decide⟩ with
    stateId := some 10, senderColleagueId := 1, receiverAgentId := 8, rootRequestId := some 5 }

def handedOff : DrainedTrigger := ⟨6, .normal, some 4, 2, some 8, .normal, 5⟩

def handoffRun : List PoolAct :=
  [.queue (.enqueue 5 0 post)] ++ started 11 (drained 5) ++
    [.turn 11 (.bump false), .queue (.enqueue 6 0 handoff)] ++ succeeded 11 0 ++
    [.turn 11 (.check false), .turn 11 (.release false)] ++ started 12 handedOff ++
    succeeded 12 0 ++ [.turn 12 (.check false)] ++ quiesced 12 0

def markedRun : List PoolAct :=
  [.queue (.enqueue 5 0 post)] ++ started 11 (drained 5) ++
    [.turn 11 (.bump false), .queue (.enqueue 6 0 handoff)] ++ started 12 handedOff ++
    succeeded 12 0 ++ succeeded 11 0

def besideRun : List PoolAct :=
  markedRun ++ .turn 11 (.check false) :: quiesced 11 0 ++ .turn 12 (.check false) :: quiesced 12 0

end Sample

theorem givesTold_check {w : WorkerId} {as bs : List PoolAct} {p : Pool}
    (has : Steps (poolStep colleagues timing) GivesTold p as)
    (hgives : (run (poolStep colleagues timing) p as).all fun p =>
      p.gives (.turn w (.check false)) = [])
    (hkeeps : ∀ a ∈ bs, a.keeps = true) :
    Steps (poolStep colleagues timing) GivesTold p (as ++ .turn w (.check false) :: bs) := by
  refine has.append fun q hq r _ => ⟨?_, .of_forall (fun q a ha => givesTold_of_keeps (hkeeps a ha)) r⟩
  rw [hq, Option.all_some] at hgives
  exact givesTold_of_nil (of_decide_eq_true hgives)

theorem quiescence_beside : Always (poolStep Sample.pair .defaultConst) StreamsEnd .init
      Sample.besideRun ∧
    (run (poolStep Sample.pair .defaultConst) .init Sample.besideRun).map (fun p =>
      p.responses.chunks.rows.map fun c => (c.requestId, c.payload)) =
        some [(5, .done ""), (6, .done "")] := by
  constructor
  · have hmarked : Steps (poolStep Sample.pair .defaultConst) GivesTold .init Sample.markedRun :=
      .of_forall (fun p a ha =>
        givesTold_of_keeps ((by decide : ∀ a ∈ Sample.markedRun, a.keeps = true) a ha)) _
    refine streamsEnd_of_givesTold _ (givesTold_check (givesTold_check hmarked ?_ ?_) ?_ ?_)
    · decide +kernel
    · decide
    · decide +kernel
    · decide
  · decide +kernel

/-- The root's turn ends while the message it sent is still pending, so only the message is told. -/
theorem quiescence_handoff : ∃ p, run (poolStep Sample.pair .defaultConst) .init Sample.handoffRun =
      some p ∧ p.turns.rows = [] ∧
    p.queue.db.promptRequests.rows.map (fun r => (r.id, r.rootRequestId, r.status)) =
      [(5, 5, .done), (6, 5, .done)] ∧
    p.responses.chunks.rows.map (fun c => (c.requestId, c.payload)) = [(6, .done "")] ∧
    ¬StreamsEnd p := by
  have hsome : (run (poolStep Sample.pair .defaultConst) .init Sample.handoffRun).isSome := by
    decide +kernel
  have hseen : (run (poolStep Sample.pair .defaultConst) .init Sample.handoffRun).all (fun p =>
      p.turns.rows = [] ∧
      p.queue.db.promptRequests.rows.map (fun r => (r.id, r.rootRequestId, r.status)) =
        [(5, 5, .done), (6, 5, .done)] ∧
      p.responses.chunks.rows.map (fun c => (c.requestId, c.payload)) = [(6, .done "")] ∧
      quiescent 5 p.queue.db ∧ (∃ r ∈ p.queue.db.promptRequests, r.rootRequestId = 5) ∧
      ¬Terminated p.responses 5) := by
    decide +kernel
  obtain ⟨p, hp⟩ := Option.isSome_iff_exists.mp hsome
  rw [hp, Option.all_some, decide_eq_true_iff] at hseen
  obtain ⟨hturns, hrows, hchunks, hquiet, hroot, hno⟩ := hseen
  exact ⟨p, hp, hturns, hrows, hchunks, not_streamsEnd hquiet hturns hroot hno⟩

end Patom.Runtime
