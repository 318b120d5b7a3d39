import Patom.Text
import Patom.Types

namespace Patom.Memory

abbrev MemoryId := Uuid
abbrev MemoryEventId := Uuid
abbrev PromptRequestId := Uuid
abbrev ContradictionEventId := Uuid

def MAX_MEMORIES_PER_AGENT : Nat := 1024

inductive MemoryKind
  | identity
  | other
  | collaborator
  | procedure
  | open
  deriving DecidableEq

inductive MemoryState
  | core
  | validated
  | held
  | tentative
  deriving DecidableEq

def MemoryKind.asStr : MemoryKind → String
  | .identity => "self"
  | .other => "other"
  | .collaborator => "collaborator"
  | .procedure => "procedure"
  | .open => "open"

def MemoryKind.displayLabel : MemoryKind → String
  | .identity => "Self"
  | .other => "Other"
  | .collaborator => "Collaborator"
  | .procedure => "Procedure"
  | .open => "Open"

def MemoryState.asStr : MemoryState → String
  | .core => "core"
  | .validated => "validated"
  | .held => "held"
  | .tentative => "tentative"

def MemoryState.priority : MemoryState → Nat
  | .core => 4
  | .validated => 3
  | .held => 2
  | .tentative => 1

def MEMORY_CONTENT_MAX_BYTES : Nat := 4096

structure MemoryContent where
  asStr : String
  nonempty : trim asStr.toList ≠ []
  bounded : asStr.utf8ByteSize ≤ MEMORY_CONTENT_MAX_BYTES
  deriving DecidableEq

def MemoryContent.tryFrom (raw : String) : Except ParseError MemoryContent :=
  if h : trim raw.toList = [] then .error (.empty "memory_content")
  else if h' : raw.utf8ByteSize ≤ MEMORY_CONTENT_MAX_BYTES then .ok ⟨raw, h, h'⟩
  else .error (.tooLong "memory_content" MEMORY_CONTENT_MAX_BYTES raw.utf8ByteSize)

def VALIDATION_EVIDENCE_MAX_BYTES : Nat := 1024

structure MemoryEvidence where
  asStr : String
  nonempty : asStr.utf8ByteSize ≠ 0
  bounded : asStr.utf8ByteSize ≤ VALIDATION_EVIDENCE_MAX_BYTES

def MemoryEvidence.tryFrom (value : String) : Except ParseError MemoryEvidence :=
  if h : value.utf8ByteSize = 0 then .error (.empty "memory_evidence")
  else if h' : value.utf8ByteSize ≤ VALIDATION_EVIDENCE_MAX_BYTES then .ok ⟨value, h, h'⟩
  else .error
    (.tooLong "memory_evidence" VALIDATION_EVIDENCE_MAX_BYTES value.utf8ByteSize)

def MemoryHandle.MAX : Nat := 9999

structure MemoryHandle where
  get : Nat
  positive : get ≠ 0
  bounded : get ≤ MemoryHandle.MAX

theorem MemoryHandle.get_inj {a b : MemoryHandle} : a.get = b.get ↔ a = b := by
  cases a
  cases b
  simp

instance : DecidableEq MemoryHandle := fun _ _ => decidable_of_iff _ MemoryHandle.get_inj

def MemoryHandle.tryFrom (n : Nat) : Except ParseError MemoryHandle :=
  if h : n = 0 then .error (.outOfRange "memory_handle" "1..=9999")
  else if h' : n ≤ MemoryHandle.MAX then .ok ⟨n, h, h'⟩
  else .error (.outOfRange "memory_handle" "1..=9999")

def parseU32 (text : List Char) : Option Nat :=
  let digits := match text with
    | '+' :: digits => digits
    | digits => digits
  let n : Nat := digits.foldl (fun n c => 10 * n + (c.toNat - 48)) 0
  if digits ≠ [] && digits.all Char.isDigit && n < 2 ^ 32 then some n else none

def MemoryHandle.parse (raw : String) : Except ParseError MemoryHandle :=
  match raw.toList with
  | 'M' :: '-' :: digits =>
    match parseU32 digits with
    | some n => MemoryHandle.tryFrom n
    | none => .error (.malformed "memory_handle" "non-numeric handle suffix")
  | _ => .error (.malformed "memory_handle" "expected `M-<n>` form")

def MemoryHandle.display (h : MemoryHandle) : String := "M-" ++ toString h.get

inductive MutationSource
  | turn (id : PromptRequestId)
  | operator
  | librarian
  deriving DecidableEq

def MutationSource.turnId : MutationSource → Option PromptRequestId
  | .turn id => some id
  | .operator | .librarian => none

def MutationSource.bypassesPin : MutationSource → Bool
  | .operator => true
  | .turn _ | .librarian => false

inductive ValidationOrigin
  | agent (id : PromptRequestId)
  | operator
  deriving DecidableEq

def ValidationOrigin.mutationSource : ValidationOrigin → MutationSource
  | .agent id => .turn id
  | .operator => .operator

inductive MemoryMutation
  | write (agent : AgentId) (kind : MemoryKind) (content : MemoryContent) (state : MemoryState)
      (pinned : Bool) (subject : Option ColleagueId) (source : MutationSource)
  | update (agent : AgentId) (target : MemoryId) (content : MemoryContent) (state : MemoryState)
      (source : MutationSource)
  | forget (agent : AgentId) (target : MemoryId) (source : MutationSource)
  deriving DecidableEq

structure MemoryRow where
  id : MemoryId
  agentId : AgentId
  kind : MemoryKind
  content : MemoryContent
  state : MemoryState
  pinned : Bool
  subject : Option ColleagueId
  sourceTurnId : Option PromptRequestId
  createdAt : Time
  lastValidatedAt : Time
  lastAccessedAt : Time
  accessCount : Nat
  deriving DecidableEq

inductive MemoryEventPayload
  | write (content : MemoryContent) (kind : MemoryKind) (state : MemoryState) (pinned : Bool)
      (subject : Option ColleagueId)
  | update (before after : MemoryContent) (kind : MemoryKind) (state : MemoryState) (pinned : Bool)
  | forget (before : MemoryContent)
  deriving DecidableEq

structure MemoryEvent where
  id : MemoryEventId
  agentId : AgentId
  targetMemoryId : MemoryId
  source : MutationSource
  createdAt : Time
  payload : MemoryEventPayload
  deriving DecidableEq

structure ContradictionEventRow where
  id : ContradictionEventId
  agentId : AgentId
  memoryA : MemoryId
  memoryB : MemoryId
  createdAt : Time
  resolvedAt : Option Time
  deriving DecidableEq

structure MutationOutcome where
  eventId : MemoryEventId
  memoryId : MemoryId
  row : Option MemoryRow
  deriving DecidableEq

inductive MemoryStoreError
  | notFound (id : MemoryId)
  | eventNotFound (id : MemoryEventId)
  | contradictionNotFound (id : ContradictionEventId)
  | wrongAgent (id : MemoryId) (agent : AgentId)
  | pinnedImmutable (id : MemoryId)
  | subjectRequiredForCollaborator
  | subjectNotInOrg (subject : ColleagueId)
  | db
  deriving DecidableEq

/-- How a call ends other than well: with an error, or with a failed assertion. -/
inductive Fault
  | error (e : MemoryStoreError)
  | panic (message : String)
  deriving DecidableEq

end Patom.Memory
