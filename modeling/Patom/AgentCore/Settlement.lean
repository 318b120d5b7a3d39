import Patom.AgentCore.Rounds
import Patom.Billing.Replay

open Patom.Billing
open Patom.Foundation
open Patom.Provider
open Patom.Runtime (MAX_PINGPONG_RETRIES PromptRequestId RequestKind)

namespace Patom.AgentCore

def I32_MAX : Nat := 2147483647

structure InputTokens where
  get : Nat
  fits : get ≤ I32_MAX
  deriving DecidableEq

def InputTokens.tryFrom (raw : Nat) : Except ParseError InputTokens :=
  if h : raw ≤ I32_MAX then .ok ⟨raw, h⟩
  else .error (.outOfRange "input_tokens" "must fit in i32")

structure OutputTokens where
  get : Nat
  fits : get ≤ I32_MAX
  deriving DecidableEq

def OutputTokens.tryFrom (raw : Nat) : Except ParseError OutputTokens :=
  if h : raw ≤ I32_MAX then .ok ⟨raw, h⟩
  else .error (.outOfRange "output_tokens" "must fit in i32")

inductive MetricKind
  | normal
  | reflection
  | resolution
  | compaction
  deriving DecidableEq

def MetricKind.ofRequest : RequestKind → MetricKind
  | .normal => .normal
  | .reflection => .reflection
  | .resolution => .resolution

structure TurnMetricsRow where
  requestId : PromptRequestId
  orgId : OrgId
  stateId : AgentThreadId
  kind : MetricKind
  price : Price
  inputTokens : InputTokens
  outputTokens : OutputTokens
  cacheCreationTokens : Option InputTokens
  cacheReadTokens : Option InputTokens
  deriving DecidableEq

def TurnMetricsRow.usage (row : TurnMetricsRow) : Usage where
  inputTokens := row.inputTokens.get
  outputTokens := row.outputTokens.get
  cacheCreationInputTokens := row.cacheCreationTokens.map (·.get)
  cacheReadInputTokens := row.cacheReadTokens.map (·.get)

def TurnMetricsRow.cost (row : TurnMetricsRow) : Nat := turnCost row.price row.usage

/-- No row without a participation, nor for prompts or replies too long to count; a cache count
too long is left out. -/
def recordTurnMetrics (requestId : PromptRequestId) (stateId : Option AgentThreadId)
    (orgId : OrgId) (kind : MetricKind) (price : Price) (usage : Usage) :
    Option TurnMetricsRow := do
  let stateId ← stateId
  let inputTokens ← (InputTokens.tryFrom usage.inputTokens).toOption
  let outputTokens ← (OutputTokens.tryFrom usage.outputTokens).toOption
  let cacheCreationTokens :=
    usage.cacheCreationInputTokens.bind fun n => (InputTokens.tryFrom n).toOption
  let cacheReadTokens := usage.cacheReadInputTokens.bind fun n => (InputTokens.tryFrom n).toOption
  some { requestId, orgId, stateId, kind, price, inputTokens, outputTokens, cacheCreationTokens,
         cacheReadTokens }

structure Served where
  round : Option TurnIndex
  isByo : Bool
  price : Price
  usage : Usage
  deriving DecidableEq

def Served.cost (r : Served) : Nat := turnCost r.price r.usage

def Served.platformCost (r : Served) : Nat := if r.isByo then 0 else r.cost

/-- What a turn does about its provider responses. -/
inductive Effect
  | served (r : Served)
  | record (kind : MetricKind) (r : Served)
  | settle (index : TurnIndex) (r : Served) (at_ : BillingPeriod × Time)
  deriving DecidableEq

def Effect.response : Effect → Served
  | .served r => r
  | .record _ r => r
  | .settle _ r _ => r

def meterFoldSamples (folds : List Served) : List Effect :=
  folds.map .served ++ folds.map (.record .compaction)

section Agent

variable (price : Price)

def Round.compacted (round : Round) : List Served :=
  round.compaction.map fun usage => ⟨none, round.isByo, price, usage⟩

def Exchange.summarized (x : Exchange) : List Served :=
  x.reduced.map fun f => ⟨none, f.isByo, f.price, f.usage⟩

/-- A round is recorded before it is settled; under the organisation's own key it is not settled. -/
def Round.effects (kind : MetricKind) (index : TurnIndex) (round : Round) : List Effect :=
  meterFoldSamples (round.compacted price) ++
    match round.outcome with
    | .error _ => []
    | .ok x =>
      let r : Served := ⟨some index, round.isByo, price, x.response.usage⟩
      let settles : List Effect :=
        if round.isByo then [] else x.settled.map (.settle index r)
      .served r :: .record kind r :: settles ++ meterFoldSamples x.summarized

variable (maxTurns : MaxTurns)

def loopRounds (turn : Nat) : List Round → List (TurnIndex × Round)
  | [] => []
  | round :: rest =>
    if h : turn < maxTurns.get then
      (⟨turn, MaxTurns.index_lt h⟩, round) ::
        match round.outcome with
        | .error _ => []
        | .ok x =>
          match x.next with
          | .again _ => loopRounds (turn + 1) rest
          | .stop _ | .final _ => []
    else []

def guardedRounds (retries : Nat) : List Attempt → List (TurnIndex × Round)
  | [] => []
  | attempt :: rest =>
    loopRounds maxTurns 0 attempt.rounds ++
      match (runThreadLoop price maxTurns attempt.rounds).1, attempt.nudge with
      | .reply _ 0, .ok () =>
        if MAX_PINGPONG_RETRIES ≤ retries then [] else guardedRounds (retries + 1) rest
      | _, _ => []

def turnRounds (kind : RequestKind) (attempts : List Attempt) : List (TurnIndex × Round) :=
  match kind with
  | .normal => guardedRounds price maxTurns 0 attempts
  | .reflection | .resolution =>
    loopRounds maxTurns 0
      ((attempts.head?.elim [] Attempt.rounds).map fun round => { round with compaction := [] })

end Agent

/-- A claimed turn, dropped by its worker after `cut` effects. -/
structure Turn where
  org : OrgId
  requestId : PromptRequestId
  participation : AgentThreadId
  kind : RequestKind
  price : Price
  maxTurns : MaxTurns
  attempts : List Attempt
  cut : Nat

namespace Turn

def stateId (t : Turn) : Option AgentThreadId :=
  match t.kind with
  | .normal => some t.participation
  | .reflection | .resolution => none

def rounds (t : Turn) : List (TurnIndex × Round) :=
  turnRounds t.price t.maxTurns t.kind t.attempts

def effects (t : Turn) : List Effect :=
  (t.rounds.flatMap fun ir => ir.2.effects t.price (.ofRequest t.kind) ir.1).take t.cut

end Turn

structure Books where
  db : Billing.Db
  turnMetrics : List TurnMetricsRow
  served : List (OrgId × Served)

section Entitlements

variable (creditGateActive : OrgId → Bool)

def Books.step (s : Books) (t : Turn) : Effect → Books
  | .served r => { s with served := s.served ++ [(t.org, r)] }
  | .record kind r =>
    let row := recordTurnMetrics t.requestId t.stateId t.org kind t.price r.usage
    { s with turnMetrics := s.turnMetrics ++ row.toList }
  | .settle index r at_ =>
    let response : Received := .turn index r.isByo r.cost []
    { s with db := billingSettle creditGateActive t.org t.requestId response at_ s.db }

structure Run where
  turns : List Turn
  acts : List (Turn × Effect)
  order : acts.Perm (turns.flatMap fun t => t.effects.map (t, ·))
  landed : ∀ t ∈ turns, ∀ ir ∈ t.rounds, ir.2.isByo = false →
    ∀ x, ir.2.outcome = .ok x → x.settled.length = 1

def Run.books (run : Run) (db : Billing.Db) : Books :=
  run.acts.foldl (fun s a => s.step creditGateActive a.1 a.2) ⟨db, [], []⟩

end Entitlements

def usedTotal (org : OrgId) (db : Billing.Db) : Nat :=
  ((db.orgBillingUsage.rows.filter (·.orgId = org)).map (·.usedMicroUsd)).sum

def Books.platformCost (s : Books) (org : OrgId) : Nat :=
  ((s.served.filter (·.1 = org)).map (·.2.platformCost)).sum

def Books.meteredCost (s : Books) (org : OrgId) : Nat :=
  ((s.turnMetrics.filter (·.orgId = org)).map (·.cost)).sum

def Fits (usage : Usage) : Prop :=
  usage.inputTokens ≤ I32_MAX ∧ usage.outputTokens ≤ I32_MAX ∧
    (∀ n, usage.cacheCreationInputTokens = some n → n ≤ I32_MAX) ∧
    ∀ n, usage.cacheReadInputTokens = some n → n ≤ I32_MAX

/-- Only thread turns, only on the platform's key, and every count fits its column. -/
def Run.Plain (run : Run) (org : OrgId) : Prop :=
  ∀ t ∈ run.turns, t.org = org → t.kind = .normal ∧
    ∀ e ∈ t.effects, e.response.isByo = false ∧ Fits e.response.usage

/-- What is settled is what was served, and what was metered. -/
structure Reconciles (creditGateActive : OrgId → Bool) (run : Run) (org : OrgId) (db : Billing.Db) :
    Prop where
  served : usedTotal org (run.books creditGateActive db).db =
    usedTotal org db + (run.books creditGateActive db).platformCost org
  metered : run.Plain org → usedTotal org (run.books creditGateActive db).db =
    usedTotal org db + (run.books creditGateActive db).meteredCost org

def Effect.unsettled : Effect → Option Served
  | .served r => if r.round = none then none else some r
  | .record _ r => if r.round = none then none else some r
  | .settle _ _ _ => none

def Turn.cutOff (t : Turn) : Option Served := t.effects.getLast?.bind Effect.unsettled

/-- The folds are free, at the price of their own model and of the agent's, and so is a response
that a turn is dropped after. -/
structure Tight (run : Run) (org : OrgId) : Prop where
  folds : ∀ t ∈ run.turns, t.org = org → ∀ r, .served r ∈ t.effects → r.round = none →
    r.platformCost = 0
  cut : ∀ t ∈ run.turns, t.org = org → ∀ r, t.cutOff = some r → r.platformCost = 0
  rows : run.Plain org → ∀ t ∈ run.turns, t.org = org → ∀ kind r, .record kind r ∈ t.effects →
    r.round = none → turnCost t.price r.usage = 0

end Patom.AgentCore
