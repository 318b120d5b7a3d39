import Mathlib.Data.Prod.Lex
import Patom.Foundation.Journal
import Patom.Foundation.Table
import Patom.Foundation.Transition
import Patom.Memory.Types

open Patom.Foundation

namespace Patom.Memory

instance : Keyed MemoryRow MemoryId := ⟨(·.id)⟩
instance : Keyed MemoryEvent MemoryEventId := ⟨(·.id)⟩
instance : Keyed ContradictionEventRow ContradictionEventId := ⟨(·.id)⟩

structure MemoryDb where
  memories : Table MemoryRow
  journal : Table MemoryEvent
  contradictions : Table ContradictionEventRow
  deriving DecidableEq

def MemoryDb.empty : MemoryDb := ⟨.empty, .empty, .empty⟩

def MemoryEvent.stamp (e : MemoryEvent) : Time ×ₗ Nat := toLex (e.createdAt, e.id.toNat)

namespace MemoryDb

def insertEvent (db : MemoryDb) (e : MemoryEvent) : Except Fault MemoryDb :=
  match db.journal.insert? e with
  | some journal => .ok { db with journal }
  | none => .error (.error .db)

def insertRow (db : MemoryDb) (row : MemoryRow) : Except Fault MemoryDb :=
  match db.memories.insert? row with
  | some memories => .ok { db with memories }
  | none => .error (.error .db)

def updateRow (db : MemoryDb) (id : MemoryId) (set : MemoryRow → MemoryRow) : MemoryDb :=
  { db with
    memories := db.memories.modify (fun r => if r.id = id then { set r with id := r.id } else r)
      fun r => by by_cases h : r.id = id <;> simp [h, key] }

def deleteRow (db : MemoryDb) (id : MemoryId) : MemoryDb :=
  { db with memories := db.memories.delete (·.id = id) }

/-- The row for an update or a forget; only the operator reaches pinned ones. -/
def lockExisting (db : MemoryDb) (agent : AgentId) (target : MemoryId) (source : MutationSource) :
    Except Fault MemoryRow :=
  match db.memories.find? target with
  | none => .error (.error (.notFound target))
  | some row =>
    if row.agentId ≠ agent then .error (.error (.wrongAgent target agent))
    else if row.pinned && !source.bypassesPin then .error (.error (.pinnedImmutable target))
    else .ok row

def list (db : MemoryDb) (agent : AgentId) : Except Fault (List MemoryRow) :=
  let rows := (db.memories.rows.filter (·.agentId = agent)).insertionSort
    fun r r' => toLex (r.createdAt, r.id.toNat) ≤ toLex (r'.createdAt, r'.id.toNat)
  let rows := rows.take (MAX_MEMORIES_PER_AGENT + 1)
  if rows.length ≤ MAX_MEMORIES_PER_AGENT then .ok rows
  else .error (.panic "invariant: per-agent memory cap overshot")

end MemoryDb

def MemoryMutation.ensureSubjectConsistency : MemoryMutation → Except Fault Unit
  | .write _ kind _ _ _ subject _ =>
    if kind = .collaborator && subject.isNone then
      .error (.error .subjectRequiredForCollaborator)
    else if kind = .collaborator || subject.isNone then .ok ()
    else .error (.panic "invariant: only collaborator memories carry a subject colleague")
  | .update .. | .forget .. => .ok ()

def ensureSubjectInOrg (sameOrg : AgentId → ColleagueId → Bool) (agent : AgentId) :
    Option ColleagueId → Except Fault Unit
  | some subject =>
    if sameOrg agent subject then .ok () else .error (.error (.subjectNotInOrg subject))
  | none => .ok ()

section Apply

variable (sameOrg : AgentId → ColleagueId → Bool) (now : Time) (eventId : MemoryEventId)
  (db : MemoryDb)

def applyWrite (memoryId : MemoryId) (agent : AgentId) (kind : MemoryKind)
    (content : MemoryContent) (state : MemoryState) (pinned : Bool) (subject : Option ColleagueId)
    (source : MutationSource) : Except Fault (MutationOutcome × MemoryDb) := do
  ensureSubjectInOrg sameOrg agent subject
  let db ← db.insertEvent
    ⟨eventId, agent, memoryId, source, now, .write content kind state pinned subject⟩
  let row : MemoryRow :=
    ⟨memoryId, agent, kind, content, state, pinned, subject, source.turnId, now, now, now, 0⟩
  let db ← db.insertRow row
  return (⟨eventId, memoryId, some row⟩, db)

def applyUpdate (agent : AgentId) (target : MemoryId) (content : MemoryContent)
    (state : MemoryState) (source : MutationSource) :
    Except Fault (MutationOutcome × MemoryDb) := do
  let prior ← db.lockExisting agent target source
  let db ← db.insertEvent ⟨eventId, agent, target, source, now,
    .update prior.content content prior.kind state prior.pinned⟩
  let db := db.updateRow target fun r => { r with content, state }
  return (⟨eventId, target, db.memories.find? target⟩, db)

def applyForget (agent : AgentId) (target : MemoryId) (source : MutationSource) :
    Except Fault (MutationOutcome × MemoryDb) := do
  let prior ← db.lockExisting agent target source
  let db ← db.insertEvent ⟨eventId, agent, target, source, now, .forget prior.content⟩
  return (⟨eventId, target, none⟩, db.deleteRow target)

/-- `MemoryStore::apply`; a write takes the id it is given. -/
def apply (memoryId : MemoryId) (mutation : MemoryMutation) :
    Except Fault (MutationOutcome × MemoryDb) := do
  mutation.ensureSubjectConsistency
  match mutation with
  | .write agent kind content state pinned subject source =>
    applyWrite sameOrg now eventId db memoryId agent kind content state pinned subject source
  | .update agent target content state source =>
    applyUpdate now eventId db agent target content state source
  | .forget agent target source => applyForget now eventId db agent target source

def MemoryState.validate : MemoryState → MemoryState
  | .tentative => .held
  | .held => .validated
  | .validated => .validated
  | .core => .core

def recordValidation (agent : AgentId) (memory : MemoryId) (origin : ValidationOrigin) :
    Except Fault (Option MemoryRow × MemoryDb) := do
  let prior ← db.lockExisting agent memory origin.mutationSource
  let state := prior.state.validate
  let db ← db.insertEvent ⟨eventId, agent, memory, origin.mutationSource, now,
    .update prior.content prior.content prior.kind state prior.pinned⟩
  let db := db.updateRow memory fun r => { r with state, lastValidatedAt := now }
  return (db.memories.find? memory, db)

def setPinned (agent : AgentId) (memory : MemoryId) (pinned : Bool) :
    Except Fault (Option MemoryRow × MemoryDb) := do
  let prior ← db.lockExisting agent memory .operator
  let db ← db.insertEvent ⟨eventId, agent, memory, .operator, now,
    .update prior.content prior.content prior.kind prior.state pinned⟩
  let db := db.updateRow memory fun r => { r with pinned }
  return (db.memories.find? memory, db)

end Apply

section Sweeps

variable (now : Time) (eventIds : MemoryId → MemoryEventId)

/-- One row of a sweep: journal it, and leave it `held`. -/
def hold (db : MemoryDb) (row : MemoryRow) : Except Fault MemoryDb := do
  let db ← db.insertEvent ⟨eventIds row.id, row.agentId, row.id, .librarian, now,
    .update row.content row.content row.kind .held row.pinned⟩
  return db.updateRow row.id fun r => { r with state := .held }

/-- The rows a sweep locks: those of its `WHERE` that its snapshot has, too. -/
def MemoryDb.select (db : MemoryDb) (snapshot : MemoryId → Bool) (p : MemoryRow → Bool) :
    List MemoryRow :=
  db.memories.rows.filter fun r => p r && snapshot r.id

def MemoryDb.stale (agent : AgentId) (cutoff : Time) (row : MemoryRow) : Bool :=
  row.agentId = agent && row.state = .validated && !row.pinned && row.lastValidatedAt < cutoff

def MemoryDb.disputed (db : MemoryDb) (id : MemoryId) : Bool :=
  db.contradictions.rows.any fun c =>
    c.resolvedAt.isNone && (c.memoryA = id || c.memoryB = id)

def MemoryDb.ripe (db : MemoryDb) (agent : AgentId) (cutoff : Time) (row : MemoryRow) : Bool :=
  row.agentId = agent && row.state = .tentative && !row.pinned && row.createdAt < cutoff
    && !db.disputed row.id

def decayValidated (snapshot : MemoryId → Bool) (agent : AgentId) (cutoff : Time) (db : MemoryDb) :
    Except Fault (Nat × MemoryDb) := do
  let rows := db.select snapshot (MemoryDb.stale agent cutoff)
  let db ← rows.foldlM (hold now eventIds) db
  return (rows.length, db)

def matureTentative (snapshot : MemoryId → Bool) (agent : AgentId) (cutoff : Time) (db : MemoryDb) :
    Except Fault (Nat × MemoryDb) := do
  let rows := db.select snapshot (db.ripe agent cutoff)
  let db ← rows.foldlM (hold now eventIds) db
  return (rows.length, db)

def MemoryRow.evictionKey (r : MemoryRow) : Nat ×ₗ (Time ×ₗ Nat) :=
  toLex (r.state.priority, toLex (r.lastAccessedAt, r.accessCount))

def MemoryDb.overflow (db : MemoryDb) (agent : AgentId) (quota : Nat) : Nat :=
  db.memories.rows.countP (·.agentId = agent) - quota

def MemoryDb.evictable (db : MemoryDb) (agent : AgentId) (limit : Nat) : List MemoryRow :=
  ((db.memories.rows.filter fun r => r.agentId = agent && !r.pinned).insertionSort
    fun r r' => r.evictionKey ≤ r'.evictionKey).take limit

def evict (agent : AgentId) (db : MemoryDb) (row : MemoryRow) : Except Fault MemoryDb := do
  let db ← db.insertEvent
    ⟨eventIds row.id, agent, row.id, .librarian, now, .forget row.content⟩
  return db.deleteRow row.id

def evictRows (agent : AgentId) (rows : List MemoryRow) (db : MemoryDb) :
    Except Fault (List MemoryId × MemoryDb) := do
  let db ← rows.foldlM (evict now eventIds agent) db
  return (rows.map (·.id), db)

end Sweeps

section Revert

variable (now : Time) (inverse : MemoryEventId) (agent : AgentId) (target : MemoryId)
  (db : MemoryDb)

def MemoryDb.loadEvent (event : MemoryEventId) : Except Fault MemoryEvent :=
  match (db.journal.find? event).filter (·.agentId = agent) with
  | some e => .ok e
  | none => .error (.error (.eventNotFound event))

def revertWrite : Except Fault MemoryDb := do
  let prior ← db.lockExisting agent target .operator
  let db ← db.insertEvent ⟨inverse, agent, target, .operator, now, .forget prior.content⟩
  return db.deleteRow target

def revertUpdate (before : MemoryContent) (kind : MemoryKind) (state : MemoryState)
    (pinned : Bool) : Except Fault MemoryDb := do
  let prior ← db.lockExisting agent target .operator
  let db ← db.insertEvent
    ⟨inverse, agent, target, .operator, now, .update prior.content before kind state pinned⟩
  return db.updateRow target fun r => { r with content := before, state, pinned }

structure RestoredAttrs where
  kind : MemoryKind
  state : MemoryState
  pinned : Bool
  subject : Option ColleagueId
  deriving DecidableEq

def MemoryEventPayload.attrs : MemoryEventPayload → Option (MemoryKind × MemoryState × Bool)
  | .write _ kind state pinned _ => some (kind, state, pinned)
  | .update _ _ kind state pinned => some (kind, state, pinned)
  | .forget _ => none

def MemoryEventPayload.written : MemoryEventPayload → Option (Option ColleagueId)
  | .write _ _ _ _ subject => some subject
  | .update .. | .forget _ => none

def MemoryDb.history : List MemoryEvent :=
  inOrder MemoryEvent.stamp
    (db.journal.rows.filter fun e => e.agentId = agent && e.targetMemoryId = target)

def MemoryDb.restoreAttrsFor : Except Fault RestoredAttrs :=
  match ((db.history agent target).filterMap (·.payload.attrs)).getLast? with
  | none => .error (.error (.notFound target))
  | some (kind, state, pinned) =>
    .ok ⟨kind, state, pinned,
      (((db.history agent target).filterMap (·.payload.written)).getLast?).join⟩

/-- The row is written back unless it is there. -/
def revertForget (before : MemoryContent) (attrs : RestoredAttrs) : Except Fault MemoryDb := do
  let db ← db.insertEvent ⟨inverse, agent, target, .operator, now,
    .write before attrs.kind attrs.state attrs.pinned attrs.subject⟩
  return { db with memories := db.memories.addNew ⟨target, agent, attrs.kind, before, attrs.state,
    attrs.pinned, attrs.subject, none, now, now, now, 0⟩ }

def revertPayload : MemoryEventPayload → Except Fault MemoryDb
  | .write .. => revertWrite now inverse agent target db
  | .update before _ kind state pinned =>
    revertUpdate now inverse agent target db before kind state pinned
  | .forget before => do
    let attrs ← db.restoreAttrsFor agent target
    revertForget now inverse agent target db before attrs

def revertEvent (event : MemoryEventId) : Except Fault (Option MemoryRow × MemoryDb) := do
  let e ← db.loadEvent agent event
  let db ← revertPayload now inverse agent e.targetMemoryId db e.payload
  return (db.memories.find? e.targetMemoryId, db)

end Revert

section Rest

variable (now : Time) (db : MemoryDb)

def recordAccess (ids : List MemoryId) : Except Fault MemoryDb :=
  if ids.length ≤ MAX_MEMORIES_PER_AGENT then
    .ok { db with
      memories := db.memories.modify (fun r =>
        if r.id ∈ ids then { r with lastAccessedAt := now, accessCount := r.accessCount + 1 } else r)
        fun r => by by_cases h : r.id ∈ ids <;> simp [h, key] }
  else .error (.panic "invariant: record_access batch ≤ MAX_MEMORIES_PER_AGENT")

def recordContradiction (id : ContradictionEventId) (agent : AgentId) (a b : MemoryId) :
    Except Fault (ContradictionEventId × MemoryDb) :=
  let lo := if a.toNat < b.toNat then a else b
  let hi := if a.toNat < b.toNat then b else a
  let pending := db.contradictions.rows.filter fun c =>
    c.agentId = agent && c.memoryA = lo && c.memoryB = hi && c.resolvedAt.isNone
  match (pending.insertionSort fun c c' => c'.createdAt ≤ c.createdAt).head? with
  | some c => .ok (c.id, db)
  | none =>
    match db.contradictions.insert? ⟨id, agent, lo, hi, now, none⟩ with
    | some contradictions => .ok (id, { db with contradictions })
    | none => .error (.error .db)

def resolveContradiction (id : ContradictionEventId) : Except Fault MemoryDb :=
  match db.contradictions.find? id with
  | none => .error (.error (.contradictionNotFound id))
  | some _ => .ok { db with
      contradictions := db.contradictions.modify (fun c =>
        if c.id = id && c.resolvedAt.isNone then { c with resolvedAt := some now } else c)
        fun c => by by_cases h : c.id = id && c.resolvedAt.isNone <;> simp [h, key] }

end Rest

def applyReplay (agent : AgentId) (db : MemoryDb) (e : MemoryEvent) : Except Fault MemoryDb :=
  match e.payload with
  | .write content kind state pinned subject =>
    db.insertRow ⟨e.targetMemoryId, agent, kind, content, state, pinned, subject,
      e.source.turnId, e.createdAt, e.createdAt, e.createdAt, 0⟩
  | .update _ after _ state pinned =>
    .ok (db.updateRow e.targetMemoryId fun r => { r with content := after, state, pinned })
  | .forget _ => .ok (db.deleteRow e.targetMemoryId)

def rebuildMaterialized (agent : AgentId) (db : MemoryDb) : Except Fault MemoryDb :=
  (inOrder MemoryEvent.stamp (db.journal.rows.filter (·.agentId = agent))).foldlM
    (applyReplay agent) { db with memories := db.memories.delete (·.agentId = agent) }

/-- A transaction that locks what it reads, so that it takes effect at one instant. -/
inductive Op
  | apply (eventId : MemoryEventId) (memoryId : MemoryId) (mutation : MemoryMutation)
  | recordValidation (eventId : MemoryEventId) (agent : AgentId) (memory : MemoryId)
      (origin : ValidationOrigin)
  | setPinned (eventId : MemoryEventId) (agent : AgentId) (memory : MemoryId) (pinned : Bool)
  | revertEvent (inverse : MemoryEventId) (agent : AgentId) (event : MemoryEventId)
  | decayValidated (eventIds : MemoryId → MemoryEventId) (snapshot : MemoryId → Bool)
      (agent : AgentId) (cutoff : Time)
  | matureTentative (eventIds : MemoryId → MemoryEventId) (snapshot : MemoryId → Bool)
      (agent : AgentId) (cutoff : Time)
  | recordAccess (ids : List MemoryId)
  | recordContradiction (id : ContradictionEventId) (agent : AgentId) (a b : MemoryId)
  | resolveContradiction (id : ContradictionEventId)

/-- A transaction between a read without a lock and what it writes after it. -/
inductive Pending
  | counted (now : Time) (agent : AgentId) (limit : Nat)
  | evicting (now : Time) (agent : AgentId) (rows : List MemoryRow)
  | restoring (now : Time) (agent : AgentId) (target : MemoryId) (before : MemoryContent)
      (attrs : RestoredAttrs)

structure World where
  db : MemoryDb
  clock : Time
  pending : List Pending

def World.init : World := ⟨.empty, 0, []⟩

inductive Act
  | tick (d : Duration)
  | transact (now : Time) (op : Op)
  | countOverflow (now : Time) (agent : AgentId) (quota : Nat)
  | selectOverflow (i : Nat)
  | evict (i : Nat) (eventIds : MemoryId → MemoryEventId)
  | readForgotten (now : Time) (agent : AgentId) (event : MemoryEventId)
  | restore (i : Nat) (inverse : MemoryEventId)
  | rollback (i : Nat)

section Step

variable (sameOrg : AgentId → ColleagueId → Bool)

def Op.run (now : Time) (db : MemoryDb) : Op → Except Fault MemoryDb
  | .apply eventId memoryId mutation => (·.2) <$> Memory.apply sameOrg now eventId db memoryId mutation
  | .recordValidation eventId agent memory origin =>
    (·.2) <$> Memory.recordValidation now eventId db agent memory origin
  | .setPinned eventId agent memory pinned =>
    (·.2) <$> Memory.setPinned now eventId db agent memory pinned
  | .revertEvent inverse agent event => (·.2) <$> Memory.revertEvent now inverse agent db event
  | .decayValidated eventIds snapshot agent cutoff =>
    (·.2) <$> Memory.decayValidated now eventIds snapshot agent cutoff db
  | .matureTentative eventIds snapshot agent cutoff =>
    (·.2) <$> Memory.matureTentative now eventIds snapshot agent cutoff db
  | .recordAccess ids => Memory.recordAccess now db ids
  | .recordContradiction id agent a b =>
    (·.2) <$> Memory.recordContradiction now db id agent a b
  | .resolveContradiction id => Memory.resolveContradiction now db id

def Op.fresh (db : MemoryDb) : Op → Bool
  | .apply _ memoryId (.write ..) => db.journal.rows.all (·.targetMemoryId ≠ memoryId)
  | _ => true

def World.commit (w : World) (r : Except Fault MemoryDb) : World :=
  match r with
  | .ok db => { w with db }
  | .error _ => w

def World.drop (w : World) (i : Nat) : World := { w with pending := w.pending.eraseIdx i }

/-- Every transaction has read the clock before it takes effect. -/
def memoryStep : Step World Act
  | w, .tick d => some { w with clock := w.clock + d }
  | w, .transact now op =>
    if now ≤ w.clock && op.fresh w.db then some (w.commit (op.run sameOrg now w.db)) else none
  | w, .countOverflow now agent quota =>
    if now ≤ w.clock then
      some { w with pending := w.pending ++ [.counted now agent (w.db.overflow agent quota)] }
    else none
  | w, .selectOverflow i => do
    let .counted now agent limit ← w.pending[i]? | none
    return { w with
      pending := w.pending.set i (.evicting now agent (w.db.evictable agent limit)) }
  | w, .evict i eventIds => do
    let .evicting now agent rows ← w.pending[i]? | none
    return (w.drop i).commit ((·.2) <$> evictRows now eventIds agent rows w.db)
  | w, .readForgotten now agent event => do
    let .ok e := w.db.loadEvent agent event | none
    let .forget before := e.payload | none
    let .ok attrs := w.db.restoreAttrsFor agent e.targetMemoryId | none
    if now ≤ w.clock then
      some { w with
        pending := w.pending ++ [.restoring now agent e.targetMemoryId before attrs] }
    else none
  | w, .restore i inverse => do
    let .restoring now agent target before attrs ← w.pending[i]? | none
    return (w.drop i).commit (revertForget now inverse agent target w.db before attrs)
  | w, .rollback i => if i < w.pending.length then some (w.drop i) else none

inductive Deed
  | write
  | update
  | validate
  | forget
  | evict
  | restore
  deriving DecidableEq

structure Batch where
  deed : Deed
  now : Time
  agent : AgentId
  source : MutationSource
  entries : List (MemoryId × MemoryEventId)

def MemoryMutation.deed : MemoryMutation → Deed
  | .write .. => .write
  | .update .. => .update
  | .forget .. => .forget

def MemoryMutation.agent : MemoryMutation → AgentId
  | .write agent .. | .update agent .. | .forget agent .. => agent

def MemoryMutation.source : MemoryMutation → MutationSource
  | .write _ _ _ _ _ _ source | .update _ _ _ _ source | .forget _ _ source => source

def MemoryMutation.target (memoryId : MemoryId) : MemoryMutation → MemoryId
  | .write .. => memoryId
  | .update _ target .. | .forget _ target _ => target

def MemoryEventPayload.inverse : MemoryEventPayload → Deed
  | .write .. => .forget
  | .update .. => .update
  | .forget _ => .restore

def Op.plan (now : Time) (db : MemoryDb) : Op → Option Batch
  | .apply eventId memoryId mutation =>
    some ⟨mutation.deed, now, mutation.agent, mutation.source, [(mutation.target memoryId, eventId)]⟩
  | .recordValidation eventId agent memory origin =>
    some ⟨.validate, now, agent, origin.mutationSource, [(memory, eventId)]⟩
  | .setPinned eventId agent memory _ =>
    some ⟨.update, now, agent, .operator, [(memory, eventId)]⟩
  | .revertEvent inverse agent event =>
    (db.journal.find? event).map fun e =>
      ⟨e.payload.inverse, now, agent, .operator, [(e.targetMemoryId, inverse)]⟩
  | .decayValidated eventIds snapshot agent cutoff =>
    some ⟨.update, now, agent, .librarian,
      (db.select snapshot (MemoryDb.stale agent cutoff)).map fun r => (r.id, eventIds r.id)⟩
  | .matureTentative eventIds snapshot agent cutoff =>
    some ⟨.update, now, agent, .librarian,
      (db.select snapshot (db.ripe agent cutoff)).map fun r => (r.id, eventIds r.id)⟩
  | .recordAccess _ | .recordContradiction .. | .resolveContradiction _ => none

def Act.batch (w : World) : Act → Option Batch
  | .transact now op => if (op.run sameOrg now w.db).isOk then op.plan now w.db else none
  | .evict i eventIds =>
    match w.pending[i]? with
    | some (.evicting now agent rows) =>
      if (evictRows now eventIds agent rows w.db).isOk then
        some ⟨.evict, now, agent, .librarian, rows.map fun r => (r.id, eventIds r.id)⟩
      else none
    | _ => none
  | .restore i inverse =>
    match w.pending[i]? with
    | some (.restoring now agent target before attrs) =>
      if (revertForget now inverse agent target w.db before attrs).isOk then
        some ⟨.restore, now, agent, .operator, [(target, inverse)]⟩
      else none
    | _ => none
  | .tick _ | .countOverflow .. | .selectOverflow _ | .readForgotten .. | .rollback _ => none

end Step

end Patom.Memory
