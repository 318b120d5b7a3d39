import Patom.AgentCore.Settlement
import Patom.Foundation.Journal
import Patom.Foundation.Keyset
import Patom.Foundation.SignedText

namespace Patom

/-- `parse` of a `str_enum!`. -/
def parseLabel {α : Type} (all : List α) (asStr : α → String) (raw : String) : Option α :=
  all.find? fun v => asStr v = raw

def Runtime.RequestKind.ALL : List Runtime.RequestKind := [.normal, .reflection, .resolution]

def Runtime.RequestKind.parse : String → Option Runtime.RequestKind := parseLabel ALL asStr

def AgentCore.MetricKind.ALL : List AgentCore.MetricKind :=
  [.normal, .reflection, .resolution, .compaction]

def AgentCore.MetricKind.asStr : AgentCore.MetricKind → String
  | .normal => "normal"
  | .reflection => "reflection"
  | .resolution => "resolution"
  | .compaction => "compaction"

def AgentCore.MetricKind.parse : String → Option AgentCore.MetricKind := parseLabel ALL asStr

end Patom

open Patom.AgentCore (MAX_TOOL_CALLS_PER_TURN MetricKind)
open Patom.Foundation
open Patom.Foundation.Keyset
open Patom.Runtime (PromptRequestId RequestKind)

namespace Patom.Http

def MAX_TURN_LIST_PAGE_SIZE : Nat := 50
def MAX_REASONING_BLOCKS_PER_TURN : Nat := 32
def MAX_MEMORY_WRITES_PER_TURN : Nat := 64

abbrev TurnMetricsId := Uuid
abbrev PromptVersionId := Uuid

def MIN_UTC : Int := -8334601228800000000
def MAX_UTC : Int := 8210266876799999999

structure DateTime where
  micros : Int
  earliest : MIN_UTC ≤ micros
  latest : micros ≤ MAX_UTC
  deriving DecidableEq

theorem DateTime.micros_injective {t t' : DateTime} (h : t.micros = t'.micros) : t = t' := by
  cases t
  cases t'
  cases h
  rfl

instance dateTimeOrder : LinearOrder DateTime := LinearOrder.lift' DateTime.micros fun _ _ => DateTime.micros_injective

namespace DateTime

def timestampMicros (t : DateTime) : Int64 := .ofInt t.micros

def fromTimestampMicros (n : Int64) : Option DateTime :=
  if h : MIN_UTC ≤ n.toInt ∧ n.toInt ≤ MAX_UTC then some ⟨n.toInt, h.1, h.2⟩ else none

/-- `none` where the subtraction of `chrono` panics. -/
def before (t : DateTime) (micros : Nat) : Option DateTime :=
  if h : MIN_UTC ≤ t.micros - micros then
    some ⟨t.micros - micros, h, (Int.sub_le_self _ (Int.natCast_nonneg _)).trans t.latest⟩
  else none

end DateTime

def DAY : Nat := 86400000000

structure TurnMetrics where
  id : TurnMetricsId
  requestId : PromptRequestId
  stateId : AgentThreadId
  agentId : AgentId
  promptVersionId : PromptVersionId
  kind : String
  model : String
  provider : String
  inputTokens : Nat
  outputTokens : Nat
  cacheCreationTokens : Option Nat
  cacheReadTokens : Option Nat
  durationMs : Nat
  stopReason : String
  startedAt : DateTime
  createdAt : DateTime
  /-- The `CHECK` of the column. -/
  kindCheck : kind ∈ ["normal", "reflection", "resolution", "compaction"]
  deriving DecidableEq

instance turnMetricsKeyed : Keyed TurnMetrics TurnMetricsId := ⟨TurnMetrics.id⟩

structure RequestRow where
  id : PromptRequestId
  rootRequestId : PromptRequestId
  threadId : Option ThreadId
  status : String
  failureReason : Option String
  deriving DecidableEq

instance requestRowKeyed : Keyed RequestRow PromptRequestId := ⟨RequestRow.id⟩

structure AgentPromptVersion where
  id : PromptVersionId
  version : Nat
  systemPrompt : String
  editedBy : Option UserId
  createdAt : DateTime
  deriving DecidableEq

instance agentPromptVersionKeyed : Keyed AgentPromptVersion PromptVersionId := ⟨AgentPromptVersion.id⟩

structure ContentEntry where
  kind : Option String
  value : Option String
  deriving DecidableEq

structure FeedMessage where
  requestId : PromptRequestId
  ownerAgentId : Option AgentId
  seq : Nat
  /-- `none` where the body has no array of contents. -/
  contents : Option (List ContentEntry)
  deriving DecidableEq

structure ToolCallEntry where
  id : Uuid
  requestId : PromptRequestId
  toolName : String
  startedAt : DateTime
  durationMs : Nat
  isError : Bool
  errorMessage : Option String
  deriving DecidableEq

structure MemoryWrite where
  id : Uuid
  mutation : String
  targetMemoryId : Uuid
  contentBefore : Option String
  contentAfter : Option String
  sourceTurnId : PromptRequestId
  createdAt : DateTime
  deriving DecidableEq

/-- What the tables hold for the caller; a turn's request and prompt version are there. -/
structure TurnDb where
  agents : List AgentId
  turns : Table TurnMetrics
  requests : Table RequestRow
  versions : Table AgentPromptVersion
  messages : List FeedMessage
  toolCalls : List ToolCallEntry
  memoryEvents : List MemoryWrite
  requestFk : ∀ tm ∈ turns, ∃ pr, requests.find? tm.requestId = some pr
  versionFk : ∀ tm ∈ turns, ∃ apv, versions.find? tm.promptVersionId = some apv

inductive TurnsError
  | badRequest (detail : String)
  | notFound
  | unknownLabel (enum raw : String)
  | panicked (message : String)
  deriving DecidableEq

def decodeLabel {α : Type} (enum : String) (parse : String → Option α) (raw : String) :
    Except TurnsError α :=
  (parse raw).elim (.error (.unknownLabel enum raw)) .ok

structure TurnRow where
  id : TurnMetricsId
  requestId : PromptRequestId
  startedAt : DateTime
  kind : MetricKind
  model : String
  provider : String
  inputTokens : Nat
  outputTokens : Nat
  cacheCreationTokens : Option Nat
  cacheReadTokens : Option Nat
  durationMs : Nat
  stopReason : String
  status : String
  failureReason : Option String
  promptVersion : Nat
  deriving DecidableEq

structure TurnsListQuery where
  from_ : Option DateTime
  to_ : Option DateTime
  kind : Option String
  cursor : Option (List Char)
  deriving DecidableEq

structure TurnFilter where
  kind : Option MetricKind
  from_ : DateTime
  to_ : DateTime
  deriving DecidableEq

structure TurnsListResponse where
  items : List TurnRow
  nextCursor : Option (List Char)
  deriving DecidableEq

def encodeTurnCursor (startedAt : DateTime) (id : TurnMetricsId) : List Char :=
  showInt startedAt.timestampMicros.toInt ++ '|' :: id.chars

/-- The uuid is read by `parseUuid`, which stands for `Uuid::parse_str`. -/
def decodeTurnCursor (parseUuid : List Char → Option Uuid) (token : List Char) :
    Except TurnsError (DateTime × TurnMetricsId) :=
  let decoded := do
    let parts ← splitOnce ['|'] token
    let startedAt ← (readI64 parts.1).bind DateTime.fromTimestampMicros
    let id ← parseUuid parts.2
    return (startedAt, id)
  decoded.elim (.error (.badRequest "malformed cursor")) .ok

def parseKindFilter : Option String → Except TurnsError (Option MetricKind)
  | none => .ok none
  | some raw =>
    if raw = "" ∨ raw = "all" then .ok none
    else (MetricKind.parse raw).elim (.error (.badRequest "unknown kind")) fun kind => .ok (some kind)

def TurnsListQuery.filter (q : TurnsListQuery) (now : DateTime) : Except TurnsError TurnFilter := do
  let kind ← parseKindFilter q.kind
  let to_ := q.to_.getD now
  let from_ ← match q.from_ with
    | some from_ => .ok from_
    | none => (to_.before DAY).elim (.error (.panicked "DateTime - Duration overflowed")) .ok
  return ⟨kind, from_, to_⟩

def turnKey (startedAt : DateTime) (id : TurnMetricsId) : Int ×ₗ Nat := toLex (startedAt.micros, id.toNat)

def TurnMetrics.key (tm : TurnMetrics) : Int ×ₗ Nat := turnKey tm.startedAt tm.id

def TurnRow.key (row : TurnRow) : Int ×ₗ Nat := turnKey row.startedAt row.id

def TurnFilter.passes (f : TurnFilter) (agent : AgentId) (tm : TurnMetrics) : Bool :=
  tm.agentId = agent && f.from_ ≤ tm.startedAt && tm.startedAt < f.to_ &&
    f.kind.all fun kind => tm.kind = kind.asStr

structure JoinedTurn where
  tm : TurnMetrics
  pr : RequestRow
  apv : AgentPromptVersion
  deriving DecidableEq

def JoinedTurn.decode (j : JoinedTurn) : Except TurnsError TurnRow := do
  let kind ← decodeLabel "MetricKind" MetricKind.parse j.tm.kind
  return {
    id := j.tm.id
    requestId := j.tm.requestId
    startedAt := j.tm.startedAt
    kind := kind
    model := j.tm.model
    provider := j.tm.provider
    inputTokens := j.tm.inputTokens
    outputTokens := j.tm.outputTokens
    cacheCreationTokens := j.tm.cacheCreationTokens
    cacheReadTokens := j.tm.cacheReadTokens
    durationMs := j.tm.durationMs
    stopReason := j.tm.stopReason
    status := j.pr.status
    failureReason := j.pr.failureReason
    promptVersion := j.apv.version }

def newestFirst (js : List JoinedTurn) : List JoinedTurn :=
  inOrder (fun j => OrderDual.toDual j.tm.key) js

namespace TurnDb

variable (db : TurnDb)

def join (tm : TurnMetrics) : Option JoinedTurn := do
  let pr ← db.requests.find? tm.requestId
  let apv ← db.versions.find? tm.promptVersionId
  return ⟨tm, pr, apv⟩

def fetchTurnRows (agent : AgentId) (f : TurnFilter) (cursor : Option (DateTime × TurnMetricsId))
    (limit : Nat) : Except TurnsError (List TurnRow) :=
  let found := (db.turns.rows.filterMap db.join).filter fun j =>
    f.passes agent j.tm && cursor.all fun c => j.tm.key < turnKey c.1 c.2
  ((newestFirst found).take (limit + 1)).mapM JoinedTurn.decode

end TurnDb

/-- The code's `limit` is `MAX_TURN_LIST_PAGE_SIZE`. -/
def listAgentTurns (parseUuid : List Char → Option Uuid) (db : TurnDb) (agent : AgentId)
    (limit : Nat) (now : DateTime) (q : TurnsListQuery) : Except TurnsError TurnsListResponse :=
  if agent ∉ db.agents then .error .notFound
  else do
    let f ← q.filter now
    let cursor ← q.cursor.mapM (decodeTurnCursor parseUuid)
    let items ← db.fetchTurnRows agent f cursor limit
    let hasMore := limit < items.length
    let items := if hasMore then items.dropLast else items
    let nextCursor := if hasMore then items.getLast?.map fun r => encodeTurnCursor r.startedAt r.id
      else none
    return ⟨items, nextCursor⟩

structure TurnMetricsResponse where
  id : TurnMetricsId
  requestId : PromptRequestId
  stateId : AgentThreadId
  rootRequestId : PromptRequestId
  threadId : Option ThreadId
  agentId : AgentId
  promptVersionId : PromptVersionId
  kind : RequestKind
  model : String
  provider : String
  inputTokens : Nat
  outputTokens : Nat
  cacheCreationTokens : Option Nat
  cacheReadTokens : Option Nat
  durationMs : Nat
  stopReason : String
  startedAt : DateTime
  createdAt : DateTime
  failureReason : Option String
  deriving DecidableEq

structure ReasoningBlock where
  text : String
  byteCount : Nat
  deriving DecidableEq

structure TurnDetailResponse where
  turn : TurnMetricsResponse
  reasoningBlocks : List ReasoningBlock
  toolCalls : List ToolCallEntry
  memoryWrites : List MemoryWrite
  promptVersion : AgentPromptVersion
  deriving DecidableEq

def pushReasoning (out : List ReasoningBlock) (entry : ContentEntry) : List ReasoningBlock :=
  if MAX_REASONING_BLOCKS_PER_TURN ≤ out.length then out
  else if entry.kind = some "reasoning" then
    entry.value.elim out fun text => out ++ [⟨text, text.utf8ByteSize⟩]
  else out

def extractReasoning (bodies : List (Option (List ContentEntry))) : List ReasoningBlock :=
  bodies.foldl (fun out contents => contents.elim out (List.foldl pushReasoning out)) []

def assertBound {α : Type} (cap : Nat) (message : String) (rows : List α) : Except TurnsError (List α) :=
  if rows.length ≤ cap then .ok rows else .error (.panicked message)

namespace TurnDb

variable (db : TurnDb) (requestId : PromptRequestId)

def fetchTurnRow (turnId : TurnMetricsId) : Except TurnsError TurnMetricsResponse := do
  let tm ← (db.turns.find? turnId).elim (.error .notFound) .ok
  let pr ← (db.requests.find? tm.requestId).elim (.error .notFound) .ok
  let kind ← decodeLabel "RequestKind" RequestKind.parse tm.kind
  return {
    id := tm.id
    requestId := tm.requestId
    stateId := tm.stateId
    rootRequestId := pr.rootRequestId
    threadId := pr.threadId
    agentId := tm.agentId
    promptVersionId := tm.promptVersionId
    kind := kind
    model := tm.model
    provider := tm.provider
    inputTokens := tm.inputTokens
    outputTokens := tm.outputTokens
    cacheCreationTokens := tm.cacheCreationTokens
    cacheReadTokens := tm.cacheReadTokens
    durationMs := tm.durationMs
    stopReason := tm.stopReason
    startedAt := tm.startedAt
    createdAt := tm.createdAt
    failureReason := pr.failureReason }

def fetchReasoning : Except TurnsError (List ReasoningBlock) :=
  let found := db.messages.filter fun m => m.requestId = requestId && m.ownerAgentId.isSome
  let bodies := (inOrder FeedMessage.seq found).take MAX_REASONING_BLOCKS_PER_TURN
  assertBound MAX_REASONING_BLOCKS_PER_TURN
    "invariant: reasoning blocks bounded by MAX_REASONING_BLOCKS_PER_TURN"
    (extractReasoning (bodies.map FeedMessage.contents))

def fetchToolCalls : Except TurnsError (List ToolCallEntry) :=
  let found := db.toolCalls.filter fun c => c.requestId = requestId
  assertBound MAX_TOOL_CALLS_PER_TURN
    "invariant: LIMIT enforces MAX_TOOL_CALLS_PER_TURN ceiling"
    ((inOrder ToolCallEntry.startedAt found).take MAX_TOOL_CALLS_PER_TURN)

def fetchMemoryWrites : Except TurnsError (List MemoryWrite) :=
  let found := db.memoryEvents.filter fun e => e.sourceTurnId = requestId
  assertBound MAX_MEMORY_WRITES_PER_TURN
    "invariant: LIMIT enforces MAX_MEMORY_WRITES_PER_TURN ceiling"
    ((inOrder (fun e => toLex (e.createdAt, e.id.toNat)) found).take MAX_MEMORY_WRITES_PER_TURN)

def fetchPromptVersion (id : PromptVersionId) : Except TurnsError AgentPromptVersion :=
  (db.versions.find? id).elim (.error .notFound) .ok

def loadDetail (turnId : TurnMetricsId) : Except TurnsError TurnDetailResponse := do
  let turn ← db.fetchTurnRow turnId
  let reasoningBlocks ← db.fetchReasoning turn.requestId
  let toolCalls ← db.fetchToolCalls turn.requestId
  let memoryWrites ← db.fetchMemoryWrites turn.requestId
  let promptVersion ← db.fetchPromptVersion turn.promptVersionId
  return ⟨turn, reasoningBlocks, toolCalls, memoryWrites, promptVersion⟩

def readTurnDetail (turnId : TurnMetricsId) : Except TurnsError TurnDetailResponse :=
  if (db.turns.find? turnId).isNone then .error .notFound else db.loadDetail turnId

end TurnDb

end Patom.Http
