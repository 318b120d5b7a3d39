import Patom.AgentCore.Dispatch
import Patom.Runtime.Claims
import Patom.Runtime.Dag
import Patom.Runtime.Ownership
import Patom.Runtime.Response

/-! The worker pool over the queue and the response streams.  A worker runs one turn at a time,
and every write of a turn is a transaction of its own. -/

open Patom.AgentCore (AgentError handleAgentError)
open Patom.Foundation

namespace Patom.Runtime

/-- How far a turn has got.  A running one counts the refused `send_message` calls that have yet
to publish, and those that have yet to close. -/
inductive TurnPc
  | starting
  | resolving
  | running (retries refused unclosed : Nat)
  | nudging (retries : Nat)
  | failing (reason : FailureReason) (rest : List PromptRequestId)
  | failClosing (reason : FailureReason) (id : PromptRequestId) (rest : List PromptRequestId)
  | marking (failure : Option FailureReason)
  | checking
  | emitting (rest : List PromptRequestId)
  | emitClosing (id : PromptRequestId) (rest : List PromptRequestId)
  | releasing
  deriving DecidableEq

structure Turn where
  worker : WorkerId
  receipt : TurnReceipt
  kind : RequestKind
  pc : TurnPc
  deriving DecidableEq

instance : Keyed Turn WorkerId := ⟨(·.worker)⟩

inductive Attempt
  | replied (sendMessageCalls : Nat)
  | errored (e : AgentError)
  | elapsed

def Attempt.isReply : Attempt → Bool
  | .replied _ => true
  | .errored _ | .elapsed => false

/-- A publish loses its transaction, or commits and finds the live slot closed or open. -/
inductive Sunk
  | lost
  | unsent
  | sent
  deriving DecidableEq

structure Pool where
  queue : St
  responses : Responses
  turns : Table Turn

def Pool.init : Pool := ⟨.init, .empty, .empty⟩

inductive TurnAct
  | precheck (fault : Bool)
  | resolve (fault : Option String)
  | publish (id : PromptRequestId) (chunk : ResponseChunk) (now : Time) (sunk : Sunk)
  | bump (fault : Bool)
  | refusePublish (now : Time) (sunk : Sunk)
  | refuseClose (fault : Bool)
  | attempt (a : Attempt)
  | nudge (fault : Option String)
  | publishFailure (now : Time) (sunk : Sunk)
  | closeFailure (fault : Bool)
  | mark (now : Time) (fault : Bool)
  | check (fault : Bool)
  | emit (now : Time) (sunk : Sunk)
  | emitClose (fault : Bool)
  | release (fault : Bool)

inductive PoolAct
  | queue (a : Act)
  | claim (w : WorkerId)
  | turn (w : WorkerId) (a : TurnAct)

def Turn.toolRoot (t : Turn) : PromptRequestId :=
  match t.kind with
  | .normal => t.receipt.rootRequestId
  | .reflection | .resolution => t.receipt.triggerIds.head?.getD t.receipt.rootRequestId

def Turn.fails (t : Turn) (reason : FailureReason) : TurnPc := .failing reason t.receipt.triggerIds

def Turn.attempted (t : Turn) (retries : Nat) : Attempt → TurnPc
  | .errored e => t.fails (handleAgentError e)
  | .elapsed =>
    match t.kind with
    | .normal => t.fails .timeout
    | .reflection | .resolution => .marking (some .timeout)
  | .replied sendMessageCalls =>
    match t.kind with
    | .normal =>
      if sendMessageCalls ≠ 0 then .marking none
      else if MAX_PINGPONG_RETRIES ≤ retries then t.fails .noEgress
      else .nudging (retries + 1)
    | .reflection | .resolution => .marking none

def Turn.nudged (t : Turn) (retries : Nat) : Option String → TurnPc
  | none => .running retries 0 0
  | some detail =>
    t.fails (.unrecoverable ("nudge append: " ++ (PromptError.backend ("nudge: " ++ detail)).display))

def anyCancelled (db : Db) (ids : List PromptRequestId) : Bool :=
  db.promptRequests.rows.any fun r =>
    r.id ∈ ids && (r.cancellationRequested || r.status.isTerminal)

def Pool.turn? (p : Pool) (w : WorkerId) : Option Turn := p.turns.find? w

def Pool.goto (p : Pool) (t : Turn) (pc : TurnPc) : Pool :=
  { p with turns := p.turns.put { t with pc } }

def Pool.leave (p : Pool) (t : Turn) : Pool :=
  { p with turns := p.turns.delete fun t' => t'.worker = t.worker }

def Act.stops : Act → WorkerId → Bool
  | .stop w, w' => w = w'
  | _, _ => false

/-- What happens beside the turns.  A trigger that joins a tree names the root of one it was
enqueued from. -/
def Pool.admits (p : Pool) : Act → Bool
  | .claimCommit _ | .markTurnDone .. | .markTurnFailed .. | .release .. => false
  | .claimBegin w => (p.turn? w).isNone
  | .heartbeat w r _ => (p.turn? w).any fun t => t.receipt = r
  | .enqueue _ _ trig => trig.rootRequestId.all fun root =>
      p.queue.db.promptRequests.rows.any fun r => r.rootRequestId = root
  | _ => true

def Pool.publish (p : Pool) (now : Time) (id : PromptRequestId) (chunk : ResponseChunk) :
    Sunk → Option Responses
  | .lost => some p.responses
  | .unsent | .sent =>
    if now ≤ p.queue.clock then
      (publishInTx p.queue.db now id chunk p.responses).toOption.map Prod.fst
    else none

def Pool.closed (p : Pool) (id : PromptRequestId) (fault : Bool) : Responses :=
  if fault then p.responses else closeInTx p.queue.db id p.responses

section Step

variable (colleagues : Table Colleague) (timing : LeaseTiming)

def markStep (p : Pool) (t : Turn) (failure : Option FailureReason) (now : Time) (fault : Bool) :
    Option Pool :=
  if fault then some (p.goto t .checking)
  else
    let mark : Act := match failure with
      | none => .markTurnDone t.worker t.receipt now
      | some reason => .markTurnFailed t.worker t.receipt reason now
    (step colleagues timing p.queue mark).map fun queue => { p.goto t .checking with queue }

def releaseStep (p : Pool) (t : Turn) (fault : Bool) : Option Pool :=
  if fault then some (p.leave t)
  else
    (step colleagues timing p.queue (.release t.worker t.receipt)).map fun queue =>
      { p.leave t with queue }

def turnStep (p : Pool) (t : Turn) : TurnPc → TurnAct → Option Pool
  | .starting, .precheck fault =>
    some (p.goto t (if !fault && anyCancelled p.queue.db t.receipt.triggerIds then
      t.fails .cancelled else .resolving))
  | .resolving, .resolve fault =>
    some (p.goto t (match fault with
      | none => .running 0 0 0
      | some detail => t.fails (.unrecoverable ("agent resolve: " ++ detail))))
  | .running .., .publish id chunk now sunk =>
    if id ∈ t.receipt.triggerIds ∧ chunk.isTerminal = false then
      (p.publish now id chunk sunk).map fun responses => { p with responses }
    else none
  | .running retries refused unclosed, .bump fault =>
    if fault then some p
    else
      match bumpOrFail t.toolRoot p.queue.db with
      | .ok (db, _) => some { p with queue := { p.queue with db } }
      | .error (.dagBudgetExceeded ..) => some (p.goto t (.running retries (refused + 1) unclosed))
      | .error _ => some p
  | .running retries (refused + 1) unclosed, .refusePublish now sunk =>
    (p.publish now t.toolRoot (.fromFailure .dagBudgetExceeded) sunk).map fun responses =>
      { p.goto t (.running retries refused (unclosed + 1)) with responses }
  | .running retries refused (unclosed + 1), .refuseClose fault =>
    some { p.goto t (.running retries refused unclosed) with responses := p.closed t.toolRoot fault }
  | .running retries refused unclosed, .attempt a =>
    if a.isReply → refused = 0 ∧ unclosed = 0 then some (p.goto t (t.attempted retries a)) else none
  | .nudging retries, .nudge fault => some (p.goto t (t.nudged retries fault))
  | .failing reason (id :: rest), .publishFailure now sunk =>
    (p.publish now id (.fromFailure reason) sunk).map fun responses =>
      { p.goto t (.failClosing reason id rest) with responses }
  | .failClosing reason id rest, .closeFailure fault =>
    some { p.goto t (.failing reason rest) with responses := p.closed id fault }
  | .failing reason [], .mark now fault => markStep colleagues timing p t (some reason) now fault
  | .marking failure, .mark now fault => markStep colleagues timing p t failure now fault
  | .checking, .check fault =>
    some (p.goto t (if !fault && quiescent t.receipt.rootRequestId p.queue.db then
      .emitting t.receipt.triggerIds else .releasing))
  | .emitting (id :: rest), .emit now sunk =>
    (p.publish now id (.done "") sunk).map fun responses =>
      { p.goto t (if sunk = .sent then .emitClosing id rest else .emitting rest) with responses }
  | .emitClosing id rest, .emitClose fault =>
    some { p.goto t (.emitting rest) with responses := p.closed id fault }
  | .emitting [], .release fault => releaseStep colleagues timing p t fault
  | .releasing, .release fault => releaseStep colleagues timing p t fault
  | _, _ => none

def poolStep : Step Pool PoolAct
  | p, .queue a =>
    if p.admits a then
      (step colleagues timing p.queue a).map fun queue =>
        { p with queue, turns := p.turns.delete fun t => a.stops t.worker }
    else none
  | p, .claim w =>
    if (p.turn? w).isSome then none
    else
      (claimCommit timing p.queue w).map fun
        | (queue, .ok (some turn)) =>
          { p with queue, turns := p.turns.put ⟨w, turn.receipt, turn.kind, .starting⟩ }
        | (queue, _) => { p with queue }
  | p, .turn w a => (p.turn? w).bind fun t => turnStep colleagues timing p t t.pc a

end Step

namespace Sample

def started (w : WorkerId) (d : DrainedTrigger) : List PoolAct :=
  [.queue (.claimBegin w), .queue (.claimSelect w (some d.id)), .queue (.claimBump w),
    .queue (.claimLease w), .queue (.claimDrain w [d]), .claim w, .turn w (.precheck false),
    .turn w (.resolve none)]

def succeeded (w : WorkerId) (now : Time) : List PoolAct :=
  [.turn w (.attempt (.replied 1)), .turn w (.mark now false)]

def failed (w : WorkerId) (now : Time) : List PoolAct :=
  [.turn w (.attempt (.errored .emptyReply)), .turn w (.publishFailure now .sent),
    .turn w (.closeFailure false), .turn w (.mark now false)]

end Sample

variable {colleagues : Table Colleague} {timing : LeaseTiming}

def TurnPc.unreported (ids : List PromptRequestId) : TurnPc → List PromptRequestId
  | .starting | .resolving | .running .. | .nudging _ => ids
  | .failing _ rest | .failClosing _ _ rest => rest
  | .marking _ | .checking | .emitting _ | .emitClosing .. | .releasing => []

def TurnPc.unfinished (ids : List PromptRequestId) : TurnPc → List PromptRequestId
  | .emitting rest | .emitClosing _ rest => rest
  | .releasing => []
  | _ => ids

def Turn.unreported (t : Turn) : List PromptRequestId := t.pc.unreported t.receipt.triggerIds

def Turn.unfinished (t : Turn) : List PromptRequestId := t.pc.unfinished t.receipt.triggerIds

def TurnAct.persists : TurnAct → Bool
  | .publish _ _ _ sunk | .refusePublish _ sunk | .publishFailure _ sunk | .emit _ sunk => sunk ≠ .lost
  | _ => false

inductive TurnStepped (colleagues : Table Colleague) (timing : LeaseTiming) (p : Pool) (t : Turn) :
    TurnAct → Pool → Prop
  | stays {a} (silent : a.persists = false) : TurnStepped colleagues timing p t a p
  | moves {a pc} (silent : a.persists = false)
      (hreport : (pc.unreported t.receipt.triggerIds).Sublist t.unreported)
      (hfinish : pc.unfinished t.receipt.triggerIds = t.unfinished) :
      TurnStepped colleagues timing p t a (p.goto t pc)
  | closes {a pc id} (silent : a.persists = false)
      (hreport : pc.unreported t.receipt.triggerIds = t.unreported)
      (hfinish : pc.unfinished t.receipt.triggerIds = t.unfinished) (fault : Bool) :
      TurnStepped colleagues timing p t a { p.goto t pc with responses := p.closed id fault }
  | bumps : TurnStepped colleagues timing p t (.bump false)
      { p with queue := { p.queue with db := { p.queue.db with
        promptRequestDags := bumpDags t.toolRoot p.queue.db.promptRequestDags } } }
  | publishes {id chunk now sunk responses c} (sunk_ne : sunk ≠ .lost)
      (hid : id ∈ t.receipt.triggerIds) (hreport : t.unreported = t.receipt.triggerIds)
      (hchunk : chunk.isTerminal = false)
      (h : Published p.queue.db id chunk p.responses responses c) :
      TurnStepped colleagues timing p t (.publish id chunk now sunk) { p with responses }
  | refuses {pc now sunk responses c} (sunk_ne : sunk ≠ .lost)
      (hreport : pc.unreported t.receipt.triggerIds = t.unreported)
      (hfinish : pc.unfinished t.receipt.triggerIds = t.unfinished)
      (h : Published p.queue.db t.toolRoot (.fromFailure .dagBudgetExceeded) p.responses responses c) :
      TurnStepped colleagues timing p t (.refusePublish now sunk) { p.goto t pc with responses }
  | reports {reason id rest now sunk responses c} (sunk_ne : sunk ≠ .lost)
      (hpc : t.pc = .failing reason (id :: rest))
      (h : Published p.queue.db id (.fromFailure reason) p.responses responses c) :
      TurnStepped colleagues timing p t (.publishFailure now sunk)
        { p.goto t (.failClosing reason id rest) with responses }
  | marks {mark queue now} (hreport : t.unreported = []) (hfinish : t.unfinished = t.receipt.triggerIds)
      (hmark : mark = .markTurnDone t.worker t.receipt now ∨
        ∃ reason, mark = .markTurnFailed t.worker t.receipt reason now)
      (h : step colleagues timing p.queue mark = some queue) :
      TurnStepped colleagues timing p t (.mark now false) { p.goto t .checking with queue }
  | checksLive {fault} (hpc : t.pc = .checking)
      (live : ¬(fault = false ∧ quiescent t.receipt.rootRequestId p.queue.db)) :
      TurnStepped colleagues timing p t (.check fault) (p.goto t .releasing)
  | skips {id rest now} (hpc : t.pc = .emitting (id :: rest)) :
      TurnStepped colleagues timing p t (.emit now .lost) (p.goto t (.emitting rest))
  | emits {id rest pc now sunk responses c} (sunk_ne : sunk ≠ .lost)
      (hpc : t.pc = .emitting (id :: rest)) (hnext : pc = .emitting rest ∨ pc = .emitClosing id rest)
      (h : Published p.queue.db id (.done "") p.responses responses c) :
      TurnStepped colleagues timing p t (.emit now sunk) { p.goto t pc with responses }
  | releases {queue} (hfinish : t.unfinished = [])
      (h : step colleagues timing p.queue (.release t.worker t.receipt) = some queue) :
      TurnStepped colleagues timing p t (.release false) { p.leave t with queue }
  | leaves (hfinish : t.unfinished = []) : TurnStepped colleagues timing p t (.release true) (p.leave t)

theorem Pool.publish_cases {p : Pool} {now : Time} {id : PromptRequestId} {chunk : ResponseChunk}
    {sunk : Sunk} {responses : Responses} (h : p.publish now id chunk sunk = some responses) :
    sunk = .lost ∧ responses = p.responses ∨
      sunk ≠ .lost ∧ ∃ c, Published p.queue.db id chunk p.responses responses c := by
  have hcommit (h : (if now ≤ p.queue.clock then
      (publishInTx p.queue.db now id chunk p.responses).toOption.map Prod.fst else none) =
        some responses) : ∃ c, Published p.queue.db id chunk p.responses responses c := by
    simp only [Option.ite_none_right_eq_some, Option.map_eq_some_iff] at h
    obtain ⟨-, ⟨rs, persisted⟩, hok, rfl⟩ := h
    cases hp : publishInTx p.queue.db now id chunk p.responses with
    | error e => simp [hp, Except.toOption] at hok
    | ok res =>
      rw [hp] at hok
      cases hok
      exact publishInTx_ok hp
  cases sunk with
  | lost => exact .inl ⟨rfl, (Option.some.inj h).symm⟩
  | unsent => exact .inr ⟨nofun, hcommit h⟩
  | sent => exact .inr ⟨nofun, hcommit h⟩

theorem Turn.attempted_unreported (t : Turn) (retries : Nat) (a : Attempt) :
    ((t.attempted retries a).unreported t.receipt.triggerIds).Sublist t.receipt.triggerIds := by
  unfold Turn.attempted Turn.fails
  repeat' split
  all_goals simp [TurnPc.unreported]

theorem Turn.attempted_unfinished (t : Turn) (retries : Nat) (a : Attempt) :
    (t.attempted retries a).unfinished t.receipt.triggerIds = t.receipt.triggerIds := by
  unfold Turn.attempted Turn.fails
  repeat' split
  all_goals rfl

theorem markStep_stepped {p p' : Pool} {t : Turn} {failure : Option FailureReason} {now : Time}
    {fault : Bool} (hreport : t.unreported = []) (hfinish : t.unfinished = t.receipt.triggerIds)
    (h : markStep colleagues timing p t failure now fault = some p') :
    TurnStepped colleagues timing p t (.mark now fault) p' := by
  unfold markStep at h
  cases fault with
  | true =>
    cases h
    exact .moves rfl (List.nil_sublist _) hfinish.symm
  | false =>
    obtain ⟨queue, hqueue, rfl⟩ := Option.map_eq_some_iff.mp h
    refine .marks hreport hfinish ?_ hqueue
    cases failure with
    | none => exact .inl rfl
    | some reason => exact .inr ⟨reason, rfl⟩

theorem releaseStep_stepped {p p' : Pool} {t : Turn} {fault : Bool} (hfinish : t.unfinished = [])
    (h : releaseStep colleagues timing p t fault = some p') :
    TurnStepped colleagues timing p t (.release fault) p' := by
  unfold releaseStep at h
  cases fault with
  | true =>
    cases h
    exact .leaves hfinish
  | false =>
    obtain ⟨queue, hqueue, rfl⟩ := Option.map_eq_some_iff.mp h
    exact .releases hfinish hqueue

theorem bump_stepped {p p' : Pool} {t : Turn} {retries refused unclosed : Nat} {fault : Bool}
    (hpc : t.pc = .running retries refused unclosed)
    (h : turnStep colleagues timing p t (.running retries refused unclosed) (.bump fault) = some p') :
    TurnStepped colleagues timing p t (.bump fault) p' := by
  simp only [turnStep] at h
  cases fault with
  | true =>
    cases h
    exact .stays rfl
  | false =>
    simp only [Bool.false_eq_true, if_false] at h
    cases hb : bumpOrFail t.toolRoot p.queue.db with
    | ok res =>
      obtain ⟨db, bumped⟩ := res
      have hqueue := bumpOrFail_queue t.toolRoot p.queue.db
      simp only [hb] at h hqueue
      cases h
      rw [hqueue]
      exact .bumps
    | error e =>
      rw [hb] at h
      cases e with
      | dagBudgetExceeded =>
        cases h
        exact .moves rfl (by simp [Turn.unreported, hpc, TurnPc.unreported])
          (by simp [Turn.unfinished, hpc, TurnPc.unfinished])
      | _ =>
        cases h
        exact .stays rfl

theorem turnStep_stepped {p p' : Pool} {t : Turn} {a : TurnAct}
    (h : turnStep colleagues timing p t t.pc a = some p') : TurnStepped colleagues timing p t a p' := by
  have hreport (pc : TurnPc) (hpc : t.pc = pc) : t.unreported = pc.unreported t.receipt.triggerIds :=
    congrArg _ hpc
  have hfinish (pc : TurnPc) (hpc : t.pc = pc) : t.unfinished = pc.unfinished t.receipt.triggerIds :=
    congrArg _ hpc
  unfold turnStep at h
  split at h
  case h_1 hpc =>
    cases h
    refine .moves rfl ?_ ?_
    · rw [hreport _ hpc]
      split <;> exact List.Sublist.refl _
    · rw [hfinish _ hpc]
      split <;> rfl
  case h_2 hpc =>
    cases h
    refine .moves rfl ?_ ?_
    · rw [hreport _ hpc]
      split <;> exact List.Sublist.refl _
    · rw [hfinish _ hpc]
      split <;> rfl
  case h_3 hpc =>
    simp only [Option.ite_none_right_eq_some, Option.map_eq_some_iff] at h
    obtain ⟨⟨hid, hchunk⟩, responses, hpub, rfl⟩ := h
    obtain ⟨rfl, rfl⟩ | ⟨hne, c, hc⟩ := p.publish_cases hpub
    · exact .stays rfl
    · exact .publishes hne hid (hreport _ hpc) hchunk hc
  case h_4 hpc => exact bump_stepped hpc h
  case h_5 hpc =>
    obtain ⟨responses, hpub, rfl⟩ := Option.map_eq_some_iff.mp h
    obtain ⟨rfl, rfl⟩ | ⟨hne, c, hc⟩ := p.publish_cases hpub
    · exact .moves rfl (hreport _ hpc ▸ List.Sublist.refl _) (hfinish _ hpc).symm
    · exact .refuses hne (hreport _ hpc).symm (hfinish _ hpc).symm hc
  case h_6 hpc =>
    cases h
    refine .closes ?_ ?_ ?_ _
    · rfl
    · exact (hreport _ hpc).symm
    · exact (hfinish _ hpc).symm
  case h_7 hpc =>
    simp only [Option.ite_none_right_eq_some, Option.some.injEq] at h
    obtain ⟨-, rfl⟩ := h
    refine .moves rfl ?_ ?_
    · rw [hreport _ hpc]
      exact t.attempted_unreported _ _
    · rw [hfinish _ hpc]
      exact t.attempted_unfinished _ _
  case h_8 hpc =>
    cases h
    unfold Turn.nudged
    refine .moves rfl ?_ ?_
    · rw [hreport _ hpc]
      split <;> exact List.Sublist.refl _
    · rw [hfinish _ hpc]
      split <;> rfl
  case h_9 hpc =>
    obtain ⟨responses, hpub, rfl⟩ := Option.map_eq_some_iff.mp h
    obtain ⟨rfl, rfl⟩ | ⟨hne, c, hc⟩ := p.publish_cases hpub
    · exact .moves rfl (hreport _ hpc ▸ List.sublist_cons_self _ _) (hfinish _ hpc).symm
    · exact .reports hne hpc hc
  case h_10 hpc =>
    cases h
    refine .closes ?_ ?_ ?_ _
    · rfl
    · exact (hreport _ hpc).symm
    · exact (hfinish _ hpc).symm
  case h_11 hpc => exact markStep_stepped (hreport _ hpc) (hfinish _ hpc) h
  case h_12 hpc => exact markStep_stepped (hreport _ hpc) (hfinish _ hpc) h
  case h_13 fault hpc =>
    cases h
    by_cases hq : fault = false ∧ quiescent t.receipt.rootRequestId p.queue.db
    · rw [if_pos (by simpa using hq)]
      exact .moves rfl (List.nil_sublist _) (hfinish _ hpc).symm
    · rw [if_neg (by simpa using hq)]
      exact .checksLive hpc hq
  case h_14 hpc =>
    obtain ⟨responses, hpub, rfl⟩ := Option.map_eq_some_iff.mp h
    obtain ⟨rfl, rfl⟩ | ⟨hne, c, hc⟩ := p.publish_cases hpub
    · exact .skips hpc
    · refine .emits hne hpc ?_ hc
      split
      · exact .inr rfl
      · exact .inl rfl
  case h_15 hpc =>
    cases h
    refine .closes ?_ ?_ ?_ _
    · rfl
    · exact (hreport _ hpc).symm
    · exact (hfinish _ hpc).symm
  case h_16 hpc => exact releaseStep_stepped (hfinish _ hpc) h
  case h_17 hpc => exact releaseStep_stepped (hfinish _ hpc) h
  case h_18 => cases h

end Patom.Runtime
