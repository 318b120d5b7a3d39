import Patom.Memory.Composer
import Patom.Memory.StoreLaws
import Patom.Tools.SendMessage

open Patom.AgentCore (ToolCallContext)
open Patom.Foundation
open Patom.Memory (Fault MemoryContent MemoryDb MemoryEventId MemoryEvidence MemoryHandle MemoryId
  MemoryKind MemoryMutation MemoryRow MemorySection MemoryState MemoryStoreError MutationOutcome
  MutationSource SubjectNames ValidationOrigin)
open Patom.Runtime (PromptRequestId RequestKindPayload)

namespace Patom.Tools

def MAX_MEMORY_MUTATIONS_PER_TURN : Nat := 8

structure TurnCalls where
  requestId : PromptRequestId
  calls : Nat
  deriving DecidableEq

instance : Keyed TurnCalls PromptRequestId := ⟨(·.requestId)⟩

structure PerTurnCallCounter where
  inner : Table TurnCalls
  capPerTurn : Nat
  bookkeepingMaxEntries : Nat

namespace PerTurnCallCounter

def withCap (capPerTurn : Nat) : PerTurnCallCounter := ⟨.empty, capPerTurn, 1024⟩

def mutations : PerTurnCallCounter := withCap MAX_MEMORY_MUTATIONS_PER_TURN

/-- A full map is cleared for a request it does not have. -/
def tryIncrement (c : PerTurnCallCounter) (request : PromptRequestId) :
    Option Nat × PerTurnCallCounter :=
  let inner :=
    if c.bookkeepingMaxEntries ≤ c.inner.rows.length && (c.inner.find? request).isNone then .empty
    else c.inner
  let calls := ((inner.find? request).map (·.calls)).getD 0
  if c.capPerTurn ≤ calls then (none, { c with inner := inner.put ⟨request, calls⟩ })
  else (some (calls + 1), { c with inner := inner.put ⟨request, calls + 1⟩ })

end PerTurnCallCounter

structure MemoryCallContext extends ToolCallContext where
  kindPayload : RequestKindPayload

structure MemoryToolDeps where
  db : MemoryDb
  counter : PerTurnCallCounter

structure Supply where
  now : Time
  eventId : MemoryEventId
  memoryId : MemoryId
  roster : SubjectNames

/-- A call fails, or an assertion of the store does. -/
inductive ToolFault
  | failed (e : ToolError)
  | panic (message : String)

inductive MemoryOutput
  | written (memoryId : MemoryId) (kind state note : String)
  | updated (memoryId : MemoryId) (handle state : String)
  | forgotten (memoryId : MemoryId) (handle status : String)
  | validated (memoryId : MemoryId) (handle state : String)

inductive MemoryCall
  | write (kind : MemoryKind) (content : String) (subject : Option ColleagueId)
  | update (handle content : String)
  | forget (handle : String)
  | validate (handle evidence : String)

def MemoryCall.handle : MemoryCall → Option String
  | .write .. => none
  | .update handle _ | .forget handle | .validate handle _ => some handle

def storeErrorText : MemoryStoreError → String
  | .notFound id => "memory " ++ id.debug "MemoryId" ++ " not found"
  | .eventNotFound id => "memory event " ++ id.debug "MemoryEventId" ++ " not found"
  | .contradictionNotFound id =>
    "contradiction " ++ id.debug "ContradictionEventId" ++ " not found or already resolved"
  | .wrongAgent id agent =>
    "memory " ++ id.debug "MemoryId" ++ " does not belong to agent " ++ agent.debug "AgentId"
  | .pinnedImmutable id =>
    "memory " ++ id.debug "MemoryId" ++ " is pinned and cannot be mutated by an agent"
  | .subjectRequiredForCollaborator => "collaborator memory requires a subject colleague"
  | .subjectNotInOrg subject =>
    "subject colleague " ++ subject.debug "ColleagueId" ++ " is not a colleague in the agent's org"
  | .db => "memory store db error"

def storeToToolErr : MemoryStoreError → ToolError
  | .db => .backend (storeErrorText .db)
  | e => .invalidInput (storeErrorText e)

def parseToToolErr (e : ParseError) : ToolFault := .failed (.invalidInput e.display)

def ofFault : Fault → ToolFault
  | .error e => .failed (storeToToolErr e)
  | .panic message => .panic message

def expectAgent (ctx : MemoryCallContext) : Except ToolFault AgentId :=
  match ctx.viewer.agentId? with
  | some agent => .ok agent
  | none => .error (.failed (.backend "memory tool invoked with non-agent viewer"))

def checkCap (counter : PerTurnCallCounter) (request : PromptRequestId) :
    Except ToolFault Unit × PerTurnCallCounter :=
  let (counted, counter) := counter.tryIncrement request
  (match counted with
    | some _ => .ok ()
    | none => .error (.failed (.invalidInput ("memory mutation cap exceeded for this turn (max "
        ++ toString counter.capPerTurn ++ " mutations)"))), counter)

section Tools

variable (sameOrg : AgentId → ColleagueId → Bool) (ctx : MemoryCallContext) (supply : Supply)
  (deps : MemoryToolDeps)

def resolveHandle (agent : AgentId) (handle : MemoryHandle) : Except ToolFault MemoryId :=
  match deps.db.resolveHandle supply.roster agent ctx.kindPayload handle with
  | .ok (some id) => .ok id
  | .ok none => .error (.failed (.invalidInput ("unknown memory handle " ++ handle.display
      ++ "; check the `## Memory` section in your system prompt for valid handles")))
  | .error (.error e) => .error (.failed (.backend ("memory backend error: " ++ storeErrorText e)))
  | .error (.panic message) => .error (.panic message)

def locate (raw : String) :
    Except ToolFault (AgentId × MemoryHandle × MemoryId) × MemoryToolDeps :=
  match expectAgent ctx with
  | .error e => (.error e, deps)
  | .ok agent =>
    let (capped, counter) := checkCap deps.counter ctx.requestId
    (do capped
        let handle ← (MemoryHandle.parse raw).mapError parseToToolErr
        let id ← resolveHandle ctx supply deps agent handle
        return (agent, handle, id),
      { deps with counter })

/-- A resolution is closed by its mutation; the mutation stays where that fails. -/
def maybeCloseResolution : Except ToolFault Unit × MemoryToolDeps :=
  match ctx.kindPayload with
  | .resolution id =>
    match Memory.resolveContradiction supply.now deps.db id with
    | .ok db => (.ok (), { deps with db })
    | .error fault => (.error (ofFault fault), deps)
  | .normal | .reflection .. => (.ok (), deps)

def mutate (mutation : MemoryMutation) (out : MemoryId → MemoryOutput) :
    Except ToolFault MemoryOutput × MemoryToolDeps :=
  match Memory.apply sameOrg supply.now supply.eventId deps.db supply.memoryId mutation with
  | .error fault => (.error (ofFault fault), deps)
  | .ok (outcome, db) =>
    let (closed, deps) := maybeCloseResolution ctx supply { deps with db }
    (closed.map fun _ => out outcome.memoryId, deps)

def MemoryForgetTool.execute (handle : String) : Except ToolFault MemoryOutput × MemoryToolDeps :=
  match locate ctx supply deps handle with
  | (.error e, deps) => (.error e, deps)
  | (.ok (agent, handle, id), deps) =>
    mutate sameOrg ctx supply deps (.forget agent id (.turn ctx.requestId)) fun memoryId =>
      .forgotten memoryId handle.display "forgotten"

def MemoryUpdateTool.execute (handle content : String) :
    Except ToolFault MemoryOutput × MemoryToolDeps :=
  match locate ctx supply deps handle with
  | (.error e, deps) => (.error e, deps)
  | (.ok (agent, handle, id), deps) =>
    match MemoryContent.tryFrom content with
    | .error e => (.error (parseToToolErr e), deps)
    | .ok content =>
      mutate sameOrg ctx supply deps (.update agent id content .tentative (.turn ctx.requestId))
        fun memoryId => .updated memoryId handle.display MemoryState.tentative.asStr

def MemoryValidateTool.execute (handle evidence : String) :
    Except ToolFault MemoryOutput × MemoryToolDeps :=
  match locate ctx supply deps handle with
  | (.error e, deps) => (.error e, deps)
  | (.ok (agent, handle, id), deps) =>
    match MemoryEvidence.tryFrom evidence with
    | .error e => (.error (parseToToolErr e), deps)
    | .ok _ =>
      match Memory.recordValidation supply.now supply.eventId deps.db agent id
        (.agent ctx.requestId) with
      | .error fault => (.error (ofFault fault), deps)
      | .ok (row, db) =>
        (.ok (.validated id handle.display ((row.map (·.state.asStr)).getD "")), { deps with db })

def WRITE_NOTE : String :=
  "Memory written. The new entry will appear under a stable handle on your next session."

def MemoryWriteTool.execute (kind : MemoryKind) (content : String) (subject : Option ColleagueId) :
    Except ToolFault MemoryOutput × MemoryToolDeps :=
  match expectAgent ctx with
  | .error e => (.error e, deps)
  | .ok agent =>
    match checkCap deps.counter ctx.requestId with
    | (.error e, counter) => (.error e, { deps with counter })
    | (.ok (), counter) =>
      match MemoryContent.tryFrom content with
      | .error e => (.error (parseToToolErr e), { deps with counter })
      | .ok content =>
        match Memory.apply sameOrg supply.now supply.eventId deps.db supply.memoryId
          (.write agent kind content .tentative false subject (.turn ctx.requestId)) with
        | .error fault => (.error (ofFault fault), { deps with counter })
        | .ok (outcome, db) =>
          (.ok (.written outcome.memoryId kind.asStr MemoryState.tentative.asStr WRITE_NOTE),
            ⟨db, counter⟩)

def MemoryCall.execute : MemoryCall → Except ToolFault MemoryOutput × MemoryToolDeps
  | .write kind content subject => MemoryWriteTool.execute sameOrg ctx supply deps kind content subject
  | .update handle content => MemoryUpdateTool.execute sameOrg ctx supply deps handle content
  | .forget handle => MemoryForgetTool.execute sameOrg ctx supply deps handle
  | .validate handle evidence => MemoryValidateTool.execute ctx supply deps handle evidence

end Tools

/-- The calls of one response, one after the other: none of the tools is safe to run with others.
A call that panics is the last. -/
def memoryCallStep (sameOrg : AgentId → ColleagueId → Bool) (ctx : MemoryCallContext) :
    Step MemoryToolDeps (MemoryCall × Supply)
  | deps, (call, supply) =>
    match call.execute sameOrg ctx supply deps with
    | (.error (.panic _), _) => none
    | (_, deps) => some deps

def SamePairs (db db' : MemoryDb) : Prop :=
  ∀ kindPayload, db'.resolveReservedPair kindPayload = db.resolveReservedPair kindPayload

theorem SamePairs.of_contradictions {db db' : MemoryDb}
    (h : db'.contradictions = db.contradictions) : SamePairs db db' := fun kindPayload => by
  cases kindPayload <;> simp [MemoryDb.resolveReservedPair, h]

section Store

variable {sameOrg : AgentId → ColleagueId → Bool} {now : Time} {eventId : MemoryEventId}
  {db db' : MemoryDb} {memoryId : MemoryId}

theorem insertRow_contradictions {row : MemoryRow} (h : db.insertRow row = .ok db') :
    db'.contradictions = db.contradictions := by
  unfold MemoryDb.insertRow at h
  split at h
  · cases h
    rfl
  · cases h

theorem applyWrite_contradictions {agent : AgentId} {kind : MemoryKind} {content : MemoryContent}
    {state : MemoryState} {pinned : Bool} {subject : Option ColleagueId} {source : MutationSource}
    {out : MutationOutcome}
    (h : Memory.applyWrite sameOrg now eventId db memoryId agent kind content state pinned subject
      source = .ok (out, db')) : db'.contradictions = db.contradictions := by
  obtain ⟨-, -, h⟩ := bind_eq_ok.mp h
  obtain ⟨db₁, hevent, h⟩ := bind_eq_ok.mp h
  obtain ⟨db₂, hrow, h⟩ := bind_eq_ok.mp h
  cases h
  exact (insertRow_contradictions hrow).trans (MemoryDb.insertEvent_ok hevent).2.2

theorem applyUpdate_contradictions {agent : AgentId} {content : MemoryContent}
    {state : MemoryState} {source : MutationSource} {out : MutationOutcome}
    (h : Memory.applyUpdate now eventId db agent memoryId content state source = .ok (out, db')) :
    db'.contradictions = db.contradictions := by
  obtain ⟨prior, -, h⟩ := bind_eq_ok.mp h
  obtain ⟨db₁, hevent, h⟩ := bind_eq_ok.mp h
  cases h
  exact (MemoryDb.insertEvent_ok hevent).2.2

theorem applyForget_contradictions {agent : AgentId} {source : MutationSource}
    {out : MutationOutcome}
    (h : Memory.applyForget now eventId db agent memoryId source = .ok (out, db')) :
    db'.contradictions = db.contradictions := by
  obtain ⟨prior, -, h⟩ := bind_eq_ok.mp h
  obtain ⟨db₁, hevent, h⟩ := bind_eq_ok.mp h
  cases h
  exact (MemoryDb.insertEvent_ok hevent).2.2

theorem apply_contradictions {mutation : MemoryMutation} {out : MutationOutcome}
    (h : Memory.apply sameOrg now eventId db memoryId mutation = .ok (out, db')) :
    db'.contradictions = db.contradictions := by
  obtain ⟨-, -, h⟩ := bind_eq_ok.mp h
  cases mutation with
  | write => exact applyWrite_contradictions h
  | update => exact applyUpdate_contradictions h
  | forget => exact applyForget_contradictions h

theorem recordValidation_contradictions {agent : AgentId} {origin : ValidationOrigin}
    {row : Option MemoryRow}
    (h : Memory.recordValidation now eventId db agent memoryId origin = .ok (row, db')) :
    db'.contradictions = db.contradictions := by
  obtain ⟨prior, -, h⟩ := bind_eq_ok.mp h
  obtain ⟨db₁, hevent, h⟩ := bind_eq_ok.mp h
  cases h
  exact (MemoryDb.insertEvent_ok hevent).2.2

theorem resolveContradiction_samePairs {id : Memory.ContradictionEventId}
    (h : Memory.resolveContradiction now db id = .ok db') : SamePairs db db' := by
  unfold Memory.resolveContradiction at h
  split at h
  · cases h
  · cases h
    intro kindPayload
    cases kindPayload with
    | normal => rfl
    | reflection => rfl
    | resolution id' =>
      simp only [MemoryDb.resolveReservedPair, Table.find?_modify]
      cases hfind : db.contradictions.find? id' with
      | none => rfl
      | some row =>
        simp only [Option.map_some]
        split <;> rfl

end Store

section Calls

variable (sameOrg : AgentId → ColleagueId → Bool) (ctx : MemoryCallContext) (supply : Supply)
  (deps : MemoryToolDeps)

theorem locate_db (raw : String) : (locate ctx supply deps raw).2.db = deps.db := by
  unfold locate
  split <;> rfl

variable {ctx supply deps} in
theorem resolveHandle_ok_iff {agent : AgentId} {handle : MemoryHandle} {id : MemoryId} :
    resolveHandle ctx supply deps agent handle = .ok id ↔
      deps.db.resolveHandle supply.roster agent ctx.kindPayload handle = .ok (some id) := by
  unfold resolveHandle
  split <;> rename_i h <;> simp [h]

variable {ctx supply deps} in
theorem locate_ok_iff {raw : String} {agent : AgentId} {handle : MemoryHandle} {id : MemoryId} :
    (locate ctx supply deps raw).1 = .ok (agent, handle, id) ↔
      ctx.viewer.agentId? = some agent ∧ (checkCap deps.counter ctx.requestId).1 = .ok ()
        ∧ MemoryHandle.parse raw = .ok handle
        ∧ deps.db.resolveHandle supply.roster agent ctx.kindPayload handle = .ok (some id) := by
  unfold locate expectAgent
  cases ctx.viewer.agentId? with
  | none => simp
  | some a =>
    dsimp only
    constructor
    · intro h
      obtain ⟨⟨⟩, hcap, h⟩ := bind_eq_ok.mp h
      obtain ⟨handle', hparse, h⟩ := bind_eq_ok.mp h
      obtain ⟨id', hid, h⟩ := bind_eq_ok.mp h
      cases h
      refine ⟨rfl, hcap, ?_, resolveHandle_ok_iff.mp hid⟩
      cases hraw : MemoryHandle.parse raw with
      | error e => simp [hraw, Except.mapError] at hparse
      | ok _ => simpa [hraw, Except.mapError] using hparse
    · rintro ⟨ha, hcap, hparse, hid⟩
      cases ha
      refine bind_eq_ok.mpr ⟨(), hcap, bind_eq_ok.mpr ⟨handle, by rw [hparse]; rfl,
        bind_eq_ok.mpr ⟨id, resolveHandle_ok_iff.mpr hid, rfl⟩⟩⟩

theorem maybeCloseResolution_samePairs :
    SamePairs deps.db (maybeCloseResolution ctx supply deps).2.db := by
  unfold maybeCloseResolution
  split
  · split
    · rename_i h
      exact resolveContradiction_samePairs h
    · exact fun _ => rfl
  · exact fun _ => rfl
  · exact fun _ => rfl

theorem mutate_samePairs (mutation : MemoryMutation) (out : MemoryId → MemoryOutput) :
    SamePairs deps.db (mutate sameOrg ctx supply deps mutation out).2.db := by
  unfold mutate
  split
  · exact fun _ => rfl
  · rename_i db h
    intro kindPayload
    exact (maybeCloseResolution_samePairs ctx supply { deps with db } kindPayload).trans
      (SamePairs.of_contradictions (apply_contradictions h) kindPayload)

theorem writeTool_samePairs (kind : MemoryKind) (content : String) (subject : Option ColleagueId) :
    SamePairs deps.db (MemoryWriteTool.execute sameOrg ctx supply deps kind content subject).2.db := by
  unfold MemoryWriteTool.execute
  split
  · exact fun _ => rfl
  · split
    · exact fun _ => rfl
    · split
      · exact fun _ => rfl
      · split
        · exact fun _ => rfl
        · rename_i h
          exact .of_contradictions (apply_contradictions h)

theorem updateTool_samePairs (handle content : String) :
    SamePairs deps.db (MemoryUpdateTool.execute sameOrg ctx supply deps handle content).2.db := by
  have hlocate := locate_db ctx supply deps handle
  unfold MemoryUpdateTool.execute
  split <;> rename_i hl <;> rw [hl] at hlocate <;> rw [← hlocate]
  · exact fun _ => rfl
  · split
    · exact fun _ => rfl
    · exact mutate_samePairs sameOrg ctx supply _ _ _

theorem forgetTool_samePairs (handle : String) :
    SamePairs deps.db (MemoryForgetTool.execute sameOrg ctx supply deps handle).2.db := by
  have hlocate := locate_db ctx supply deps handle
  unfold MemoryForgetTool.execute
  split <;> rename_i hl <;> rw [hl] at hlocate <;> rw [← hlocate]
  · exact fun _ => rfl
  · exact mutate_samePairs sameOrg ctx supply _ _ _

theorem validateTool_samePairs (handle evidence : String) :
    SamePairs deps.db (MemoryValidateTool.execute ctx supply deps handle evidence).2.db := by
  have hlocate := locate_db ctx supply deps handle
  unfold MemoryValidateTool.execute
  split <;> rename_i hl <;> rw [hl] at hlocate <;> rw [← hlocate]
  · exact fun _ => rfl
  · split
    · exact fun _ => rfl
    · split
      · exact fun _ => rfl
      · rename_i h
        exact .of_contradictions (recordValidation_contradictions h)

theorem execute_samePairs (call : MemoryCall) :
    SamePairs deps.db (call.execute sameOrg ctx supply deps).2.db := by
  cases call with
  | write kind content subject => exact writeTool_samePairs sameOrg ctx supply deps kind content subject
  | update handle content => exact updateTool_samePairs sameOrg ctx supply deps handle content
  | forget handle => exact forgetTool_samePairs sameOrg ctx supply deps handle
  | validate handle evidence => exact validateTool_samePairs ctx supply deps handle evidence

variable {sameOrg ctx deps} in
theorem memoryCallStep_samePairs {deps' : MemoryToolDeps} {i : MemoryCall × Supply}
    (h : memoryCallStep sameOrg ctx deps i = some deps') : SamePairs deps.db deps'.db := by
  obtain ⟨call, supply⟩ := i
  have hpairs := execute_samePairs sameOrg ctx supply deps call
  unfold memoryCallStep at h
  dsimp only at h
  split at h
  · cases h
  · rename_i heq
    cases h
    rwa [heq] at hpairs

end Calls

end Patom.Tools
