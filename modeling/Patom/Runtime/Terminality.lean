import Patom.Runtime.WorkerInvariant

open Patom.Foundation

namespace Patom.Runtime

variable {colleagues : Table Colleague} {timing : LeaseTiming}

def Spent (rs : Responses) (id : PromptRequestId) : Prop :=
  rs.Has id (· = .fromFailure .dagBudgetExceeded)

def Reported (rs : Responses) (id : PromptRequestId) : Prop :=
  rs.Has id fun chunk => ∃ reason, chunk = .fromFailure reason

/-- No publish of a turn meets the end another path has put to the stream: a running or failing
turn finds it unspent, a quiescent one finds no failure on it, and a refused call no end at all. -/
def Turn.Uncontested (rs : Responses) (t : Turn) : TurnPc → TurnAct → Prop
  | _, .publish id _ _ sunk => sunk ≠ .lost → ¬Spent rs id
  | .failing _ (id :: _), .publishFailure _ sunk => sunk ≠ .lost → ¬Spent rs id
  | .emitting (id :: _), .emit _ sunk => sunk ≠ .lost → ¬Reported rs id
  | _, .refusePublish _ sunk => sunk ≠ .lost → ¬Terminated rs t.toolRoot
  | _, _ => True

def Uncontested (p : Pool) : PoolAct → Prop
  | .turn w a => ∀ t, p.turn? w = some t → t.Uncontested p.responses t.pc a
  | _ => True

theorem terminated_iff_spent {rs : Responses} {id : PromptRequestId} (h : ¬Concluded rs id) :
    Terminated rs id ↔ Spent rs id := by
  constructor
  · rintro ⟨c, hc, hid, ht⟩
    by_contra hno
    exact h ⟨c, hc, hid, ht, fun e => hno ⟨c, hc, hid, e⟩⟩
  · exact fun hspent => Responses.Has.mono hspent fun _ e => e ▸ rfl

theorem terminated_iff_reported {rs : Responses} {id : PromptRequestId}
    (hclosing : ∀ c ∈ rs.chunks, c.payload.isTerminal → Closing c.payload) (h : ¬Finished rs id) :
    Terminated rs id ↔ Reported rs id := by
  constructor
  · rintro ⟨c, hc, hid, ht⟩
    obtain e | e := hclosing c hc ht
    · exact absurd ⟨c, hc, hid, e⟩ h
    · exact ⟨c, hc, hid, e⟩
  · exact fun hrep => Responses.Has.mono hrep fun _ ⟨_, e⟩ => e ▸ rfl

theorem uncontested_silent {rs : Responses} {t : Turn} {pc : TurnPc} {a : TurnAct}
    (h : a.persists = false) : t.Uncontested rs pc a := by
  unfold Turn.Uncontested
  split <;> simp_all [TurnAct.persists]

theorem uncontested_turn {p : Pool} {t : Turn} (ht : t ∈ p.turns) (a : TurnAct) :
    Uncontested p (.turn t.worker a) ↔ t.Uncontested p.responses t.pc a := by
  have hfind : p.turn? t.worker = some t := Table.find?_of_mem ht
  simp [Uncontested, hfind]

theorem terminalLast_turn {p p' : Pool} {t : Turn} {a : TurnAct} (h : PoolInv colleagues p)
    (ht : t ∈ p.turns) (hlast : TerminalLast p.responses)
    (hstep : TurnStepped colleagues timing p t a p') :
    TerminalLast p'.responses ↔ t.Uncontested p.responses t.pc a := by
  cases hstep with
  | stays silent | moves silent => exact iff_of_true hlast (uncontested_silent silent)
  | closes silent _ _ fault =>
    refine iff_of_true ?_ (uncontested_silent silent)
    unfold Pool.closed
    split
    · exact hlast
    · simpa only [TerminalLast, closeInTx_chunks] using hlast
  | bumps | marks | releases | leaves => exact iff_of_true hlast (uncontested_silent rfl)
  | checksLive => exact iff_of_true hlast (uncontested_silent rfl)
  | skips => exact iff_of_true hlast (uncontested_silent rfl)
  | publishes sunk_ne hid hreport _ hc =>
    rw [terminalLast_publish h.numbered hlast hc,
      terminated_iff_spent ((h.unreported t ht).2 _ (hreport ▸ hid))]
    exact (imp_iff_right sunk_ne).symm
  | refuses sunk_ne _ _ hc =>
    rw [terminalLast_publish h.numbered hlast hc]
    unfold Turn.Uncontested
    exact (imp_iff_right sunk_ne).symm
  | @reports reason id rest _ _ _ _ sunk_ne hpc hc =>
    have hid : id ∈ t.unreported := by
      rw [Turn.unreported, hpc]
      exact List.mem_cons_self
    rw [terminalLast_publish h.numbered hlast hc, terminated_iff_spent ((h.unreported t ht).2 _ hid), hpc]
    exact (imp_iff_right sunk_ne).symm
  | @emits id rest _ _ _ _ _ sunk_ne hpc _ hc =>
    have hid : id ∈ t.unfinished := by
      rw [Turn.unfinished, hpc]
      exact List.mem_cons_self
    rw [terminalLast_publish h.numbered hlast hc,
      terminated_iff_reported h.closing ((h.unfinished t ht).2 _ hid), hpc]
    exact (imp_iff_right sunk_ne).symm

theorem terminalLast_exact {p p' : Pool} {a : PoolAct} (h : PoolInv colleagues p)
    (hlast : TerminalLast p.responses) (hstep : poolStep colleagues timing p a = some p') :
    TerminalLast p'.responses ↔ Uncontested p a := by
  cases poolStep_stepped hstep with
  | queue | claims | returns => exact iff_of_true hlast trivial
  | turn ht hturn => exact (terminalLast_turn h ht hlast hturn).trans (uncontested_turn ht _).symm

/-- Terminality: a schedule keeps every stream to one end exactly when no publish of it meets the end
that another path has put to the stream. -/
theorem terminalLast_iff_uncontested (as : List PoolAct) :
    Always (poolStep colleagues timing) (fun p => TerminalLast p.responses) .init as ↔
      Steps (poolStep colleagues timing) Uncontested .init as :=
  always_iff_steps (PoolInv colleagues) (fun _ _ _ hinv _ hstep _ => hinv.step hstep)
    (fun _ _ _ hinv hlast hstep => terminalLast_exact hinv hlast hstep) poolInv_init
    (fun _ h => absurd h (Table.not_mem_empty _)) as

/-- A failed turn tells its trigger, leaves the tree quiescent, and tells it again. -/
theorem terminality_failed_turn : ∃ p, run (poolStep Sample.colleagues .defaultConst) .init
      ([.queue (.enqueue 5 0 Sample.post)] ++ Sample.started 11 (Sample.drained 5) ++ Sample.failed 11 0 ++
        [.turn 11 (.check false), .turn 11 (.emit 0 .unsent)]) = some p ∧
    p.responses.chunks.rows.map (fun c => (c.requestId, c.seq, c.payload)) =
      [(5, 0, .error "provider error: provider returned no usable content" "provider"),
        (5, 1, .done "")] ∧
    ¬TerminalLast p.responses :=
  ⟨_, rfl, by decide +kernel, by decide +kernel⟩

end Patom.Runtime
