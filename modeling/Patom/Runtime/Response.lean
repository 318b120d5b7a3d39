import Patom.Mcp.Registry
import Patom.Provider.Chat
import Patom.Runtime.Queue

open Patom.Foundation
open Patom.Mcp (McpAuthKind McpCatalogId)
open Patom.Provider (ToolCall ToolResult)

namespace Patom.Runtime

abbrev ChunkSeq := Nat

inductive ResponseChunk
  | text (value : String)
  | reasoning (value : String)
  | toolCall (call : ToolCall)
  | toolResult (result : ToolResult)
  | agentMessage (fromAgent : AgentId) (toThread : ThreadId) (content : String)
      (toColleague : Option ColleagueId)
  | wireMcpRequest (fromAgent : AgentId) (catalogId : McpCatalogId) (displayName reason : String)
      (authKind : McpAuthKind) (homepageUrl : Option String)
  | done (finalText : String)
  | error (reason code : String)
  | stalled
  deriving DecidableEq

def ResponseChunk.isTerminal : ResponseChunk → Bool
  | .done _ | .error .. => true
  | _ => false

def ResponseChunk.fromFailure (reason : FailureReason) : ResponseChunk :=
  .error reason.display reason.label

structure ResponseChunkEnvelope where
  seq : ChunkSeq
  chunk : ResponseChunk
  deriving DecidableEq

inductive ResponseError
  | notFound (id : PromptRequestId)
  | lagged
  | backend (detail : String)
  | db (constraint : String)
  deriving DecidableEq

structure PromptResponseStream where
  requestId : PromptRequestId
  orgId : OrgId
  nextSeq : ChunkSeq
  closed : Bool
  deriving DecidableEq

structure PromptResponseChunk where
  requestId : PromptRequestId
  orgId : OrgId
  seq : ChunkSeq
  payload : ResponseChunk
  isTerminal : Bool
  createdAt : Time
  deriving DecidableEq

instance : Keyed PromptResponseStream PromptRequestId := ⟨(·.requestId)⟩
instance : Keyed PromptResponseChunk (PromptRequestId × ChunkSeq) := ⟨fun c => (c.requestId, c.seq)⟩

structure Responses where
  streams : Table PromptResponseStream
  chunks : Table PromptResponseChunk

def Responses.empty : Responses := ⟨.empty, .empty⟩

structure PersistedChunk where
  seq : ChunkSeq
  envelope : ResponseChunkEnvelope
  terminal : Bool
  deriving DecidableEq

/-- The stream row after a publish; the first one leaves `next_seq` at 1. -/
def bumpStream (req : PromptRequest) (terminal : Bool) (rs : Responses) : PromptResponseStream :=
  match rs.streams.find? req.id with
  | some stream => { stream with nextSeq := stream.nextSeq + 1, closed := stream.closed || terminal }
  | none => ⟨req.id, req.orgId, 1, terminal⟩

/-- `closed` is written and never read. -/
def publishInTx (db : Db) (now : Time) (requestId : PromptRequestId) (chunk : ResponseChunk)
    (rs : Responses) : Except ResponseError (Responses × PersistedChunk) :=
  match db.promptRequests.find? requestId with
  | none => .error (.backend ("publish: request " ++ requestId.display ++
      " has no prompt_requests row"))
  | some req =>
    let stream := bumpStream req chunk.isTerminal rs
    let seq := stream.nextSeq - 1
    match rs.chunks.insert? ⟨req.id, req.orgId, seq, chunk, chunk.isTerminal, now⟩ with
    | none => .error (.db "prompt_response_chunks_pkey")
    | some chunks =>
      .ok (⟨rs.streams.put stream, chunks⟩, ⟨seq, ⟨seq, chunk⟩, chunk.isTerminal⟩)

def closedStream (req : PromptRequest) (rs : Responses) : PromptResponseStream :=
  match rs.streams.find? req.id with
  | some stream => { stream with closed := true }
  | none => ⟨req.id, req.orgId, 0, true⟩

def closeInTx (db : Db) (requestId : PromptRequestId) (rs : Responses) : Responses :=
  match db.promptRequests.find? requestId with
  | none => rs
  | some req => { rs with streams := rs.streams.put (closedStream req rs) }

variable {db : Db} {now : Time} {id : PromptRequestId} {chunk : ResponseChunk} {rs rs' : Responses}

def Responses.nextSeq (rs : Responses) (id : PromptRequestId) : ChunkSeq :=
  ((rs.streams.find? id).map (·.nextSeq)).getD 0

def Numbered (rs : Responses) : Prop :=
  ∀ id seq, (∃ c ∈ rs.chunks, c.requestId = id ∧ c.seq = seq) ↔ seq < rs.nextSeq id

def Responses.Has (rs : Responses) (id : PromptRequestId) (q : ResponseChunk → Prop) : Prop :=
  ∃ c ∈ rs.chunks, c.requestId = id ∧ q c.payload

def Terminated (rs : Responses) (id : PromptRequestId) : Prop := rs.Has id (·.isTerminal)

/-- A request has at most one terminal chunk, and no chunk after it. -/
def TerminalLast (rs : Responses) : Prop :=
  ∀ c ∈ rs.chunks, c.payload.isTerminal → ∀ c' ∈ rs.chunks, c'.requestId = c.requestId →
    (c'.payload.isTerminal → c' = c) ∧ c'.seq ≤ c.seq

instance (rs : Responses) : Decidable (TerminalLast rs) :=
  inferInstanceAs (Decidable (∀ c ∈ rs.chunks.rows, c.payload.isTerminal →
    ∀ c' ∈ rs.chunks.rows, c'.requestId = c.requestId →
      (c'.payload.isTerminal → c' = c) ∧ c'.seq ≤ c.seq))

theorem bumpStream_key (req : PromptRequest) (terminal : Bool) (rs : Responses) :
    key (bumpStream req terminal rs) = req.id := by
  unfold bumpStream
  split
  case h_1 stream hs =>
    have hkey : stream.requestId = req.id := Table.key_of_find? hs
    exact hkey
  case h_2 => rfl

theorem bumpStream_nextSeq (req : PromptRequest) (terminal : Bool) (rs : Responses) :
    (bumpStream req terminal rs).nextSeq = rs.nextSeq req.id + 1 := by
  unfold bumpStream Responses.nextSeq
  split <;> simp_all

theorem closedStream_key (req : PromptRequest) (rs : Responses) : key (closedStream req rs) = req.id := by
  unfold closedStream
  split
  case h_1 stream hs =>
    have hkey : stream.requestId = req.id := Table.key_of_find? hs
    exact hkey
  case h_2 => rfl

theorem closedStream_nextSeq (req : PromptRequest) (rs : Responses) :
    (closedStream req rs).nextSeq = rs.nextSeq req.id := by
  unfold closedStream Responses.nextSeq
  split <;> simp_all

@[simp] theorem closeInTx_chunks (db : Db) (id : PromptRequestId) (rs : Responses) :
    (closeInTx db id rs).chunks = rs.chunks := by
  unfold closeInTx
  split <;> rfl

@[simp] theorem closeInTx_nextSeq (db : Db) (id other : PromptRequestId) (rs : Responses) :
    (closeInTx db id rs).nextSeq other = rs.nextSeq other := by
  unfold closeInTx
  split
  case h_1 => rfl
  case h_2 req hreq =>
    rw [Responses.nextSeq, Table.find?_put, closedStream_key]
    split
    case isTrue e =>
      subst e
      exact closedStream_nextSeq req rs
    case isFalse => rfl

structure Published (db : Db) (id : PromptRequestId) (chunk : ResponseChunk) (rs rs' : Responses)
    (c : PromptResponseChunk) : Prop where
  request : (db.promptRequests.find? id).isSome
  requestId : c.requestId = id
  seq : c.seq = rs.nextSeq id
  payload : c.payload = chunk
  chunks : rs'.chunks.rows = rs.chunks.rows ++ [c]
  nextSeq : ∀ other, rs'.nextSeq other = if other = id then rs.nextSeq id + 1 else rs.nextSeq other

theorem publishInTx_ok {p : PersistedChunk} (h : publishInTx db now id chunk rs = .ok (rs', p)) :
    ∃ c, Published db id chunk rs rs' c := by
  unfold publishInTx at h
  split at h
  case h_1 => cases h
  case h_2 req hreq =>
    obtain rfl : req.id = id := Table.key_of_find? hreq
    simp only [bumpStream_nextSeq, Nat.add_sub_cancel] at h
    split at h
    case h_1 => cases h
    case h_2 chunks hins =>
      cases h
      refine ⟨_, by rw [hreq]; rfl, rfl, rfl, rfl, Table.rows_insert? hins, fun other => ?_⟩
      rw [Responses.nextSeq, Table.find?_put, bumpStream_key]
      by_cases e : req.id = other
      · subst e
        simp [bumpStream_nextSeq]
      · simp [e, Ne.symm e, Responses.nextSeq]

theorem publishInTx_total (hnum : Numbered rs) (now : Time) (chunk : ResponseChunk)
    (h : (db.promptRequests.find? id).isSome) : ∃ p, publishInTx db now id chunk rs = .ok p := by
  obtain ⟨req, hreq⟩ := Option.isSome_iff_exists.mp h
  obtain rfl : req.id = id := Table.key_of_find? hreq
  have hfree : (rs.chunks.insert?
      ⟨req.id, req.orgId, rs.nextSeq req.id, chunk, chunk.isTerminal, now⟩).isSome := by
    rw [Table.insert?_isSome, Table.find?_eq_none]
    intro c hc e
    obtain ⟨hid, hseq⟩ := Prod.mk.inj e
    exact Nat.lt_irrefl _ ((hnum _ _).mp ⟨c, hc, hid, hseq⟩)
  obtain ⟨chunks, hins⟩ := Option.isSome_iff_exists.mp hfree
  simp only [publishInTx, hreq, bumpStream_nextSeq, Nat.add_sub_cancel, hins]
  exact ⟨_, rfl⟩

theorem Published.mem {c c' : PromptResponseChunk} (h : Published db id chunk rs rs' c) :
    c' ∈ rs'.chunks ↔ c' ∈ rs.chunks ∨ c' = c := by
  simp [Table.mem_def, h.chunks]

theorem Published.has {c : PromptResponseChunk} (h : Published db id chunk rs rs' c)
    (other : PromptRequestId) (q : ResponseChunk → Prop) :
    rs'.Has other q ↔ rs.Has other q ∨ id = other ∧ q chunk := by
  simp only [Responses.Has, h.mem, or_and_right, exists_or, exists_eq_left, h.requestId, h.payload]

theorem Responses.Has.mono {q q' : ResponseChunk → Prop} (h : rs.Has id q)
    (hq : ∀ chunk, q chunk → q' chunk) : rs.Has id q' := by
  obtain ⟨c, hc, hid, hqc⟩ := h
  exact ⟨c, hc, hid, hq _ hqc⟩

theorem has_closeInTx (db : Db) (closed other : PromptRequestId) (rs : Responses)
    (q : ResponseChunk → Prop) : (closeInTx db closed rs).Has other q ↔ rs.Has other q := by
  rw [Responses.Has, closeInTx_chunks]
  rfl

theorem numbered_empty : Numbered .empty := fun id seq => by
  constructor
  · rintro ⟨c, hc, -⟩
    exact absurd hc (Table.not_mem_empty c)
  · exact fun h => absurd h (Nat.not_lt_zero seq)

theorem Numbered.publish {c : PromptResponseChunk} (hnum : Numbered rs)
    (h : Published db id chunk rs rs' c) : Numbered rs' := by
  intro other seq
  simp only [h.mem, or_and_right, exists_or, exists_eq_left, hnum other seq, h.nextSeq, h.requestId,
    h.seq]
  by_cases e : other = id
  · subst e
    simp only [true_and, if_true]
    lia
  · simp [e, Ne.symm e]

theorem Numbered.close (hnum : Numbered rs) (db : Db) (id : PromptRequestId) :
    Numbered (closeInTx db id rs) := by
  simpa only [Numbered, closeInTx_chunks, closeInTx_nextSeq] using hnum

theorem Numbered.lt (hnum : Numbered rs) {c : PromptResponseChunk} (hc : c ∈ rs.chunks) :
    c.seq < rs.nextSeq c.requestId :=
  (hnum _ _).mp ⟨c, hc, rfl, rfl⟩

theorem terminalLast_publish {c : PromptResponseChunk} (hnum : Numbered rs) (hlast : TerminalLast rs)
    (h : Published db id chunk rs rs' c) : TerminalLast rs' ↔ ¬Terminated rs id := by
  constructor
  · rintro hlast' ⟨x, hx, hid, ht⟩
    have hle := (hlast' x (h.mem.mpr (.inl hx)) ht c (h.mem.mpr (.inr rfl)) (h.requestId.trans hid.symm)).2
    have hlt := hnum.lt hx
    rw [h.seq] at hle
    rw [hid] at hlt
    lia
  · intro hno x hx ht y hy hxy
    obtain hx | rfl := h.mem.mp hx <;> obtain hy | rfl := h.mem.mp hy
    · exact hlast x hx ht y hy hxy
    · exact absurd ⟨x, hx, hxy.symm.trans h.requestId, ht⟩ hno
    · have hid : y.requestId = id := hxy.trans h.requestId
      refine ⟨fun hy' => absurd ⟨y, hy, hid, hy'⟩ hno, ?_⟩
      rw [h.seq, ← hid]
      exact Nat.le_of_lt (hnum.lt hy)
    · exact ⟨fun _ => rfl, Nat.le_refl _⟩

end Patom.Runtime
