import Patom.Foundation.Delivery
import Patom.Foundation.Envelope
import Patom.Foundation.Table
import Patom.Web.FoldHistory

open Patom.Foundation

namespace Patom.Web

inductive StreamStatus
  | idle
  | connecting
  | open
  | stalled
  | closed
  | error
  deriving DecidableEq

inductive LiveStatus
  | streaming
  | done
  | error
  | stalled
  deriving DecidableEq

inductive ResponseChunk (J : Type)
  | text (value : String)
  | reasoning (value : String)
  | toolCall (id name : String) (input : J)
  | toolResult (callId output : String) (isError : Option Bool)
  | agentMessage (fromAgent toThread content : String)
  | wireMcpRequest (fromAgent : String) (request : McpWireRequest)
  | done (finalText : String)
  | error (reason code : String)
  | stalled

structure ThreadStreamEnvelope (J : Type) where
  requestId : Option String
  fromAgent : Option String
  chunkSeq : Option Nat
  chunk : ResponseChunk J

structure PendingHuman where
  idempotencyKey : String
  requestId : Option String
  triggered : Option Bool
  text : String
  attachments : Option (List Attachment)
  ts : String
  deriving DecidableEq

instance {J : Type} : Keyed (ToolCallEntry J) String := ⟨(·.callId)⟩
instance : Keyed PendingHuman String := ⟨(·.idempotencyKey)⟩

structure LiveAgent (J : Type) where
  requestId : String
  agentId : Option String
  message : String
  reasoning : String
  toolCalls : Table (ToolCallEntry (Option J))
  wireRequests : List McpWireRequest
  status : LiveStatus
  error : Option String
  errorCode : Option String
  ts : String

instance {J : Type} : Keyed (LiveAgent J) String := ⟨(·.requestId)⟩

structure ThreadState (J : Type) where
  pending : Table PendingHuman
  live : Table (LiveAgent J)
  seen : List String
  status : StreamStatus

variable {J : Type}

def emptyState : ThreadState J := ⟨.empty, .empty, [], .idle⟩

section Chunks

def toolCallRow (id name : String) (input : J) : ToolCallEntry (Option J) :=
  ⟨id, name, some input, none, none, .running⟩

def toolResultRow (existing : Option (ToolCallEntry (Option J))) (callId output : String)
    (isError : Option Bool) : ToolCallEntry (Option J) where
  callId := callId
  name := (existing.map (·.name)).getD "(tool)"
  input := existing.bind (·.input)
  output := some output
  isError := isError
  status := if isError = some true then .error else .ok

/-- `none` is the bubble itself, unchanged. -/
def applyChunk? (b : LiveAgent J) : ResponseChunk J → Option (LiveAgent J)
  | .text _ => none
  | .reasoning value => some { b with reasoning := b.reasoning ++ value }
  | .agentMessage fromAgent _ content =>
    some { b with message := b.message ++ content, agentId := b.agentId.or (some fromAgent) }
  | .wireMcpRequest fromAgent request =>
    if b.wireRequests.any (·.catalogId = request.catalogId) then
      if b.agentId ≠ none ∨ some fromAgent = b.agentId then none
      else some { b with agentId := some fromAgent }
    else
      some { b with
        agentId := b.agentId.or (some fromAgent)
        wireRequests := b.wireRequests ++ [request] }
  | .toolCall id name input => some { b with toolCalls := b.toolCalls.put (toolCallRow id name input) }
  | .toolResult callId output isError =>
    some { b with
      toolCalls := b.toolCalls.put (toolResultRow (b.toolCalls.find? callId) callId output isError) }
  | .done _ => some { b with status := .done }
  | .error reason code =>
    some { b with status := .error, error := some reason, errorCode := some code }
  | .stalled => some { b with status := .stalled }

def applyChunk (b : LiveAgent J) (chunk : ResponseChunk J) : LiveAgent J := (applyChunk? b chunk).getD b

end Chunks

abbrev Store (J : Type) := String → Option (ThreadState J)

def Store.thread (s : Store J) (rootId : String) : ThreadState J := (s rootId).getD emptyState

def update (s : Store J) (rootId : String) (fn : ThreadState J → Option (ThreadState J)) : Store J :=
  match fn (s.thread rootId) with
  | none => s
  | some next => Function.update s rootId (some next)

def addPending (cur : ThreadState J) (p : PendingHuman) : Option (ThreadState J) :=
  if (cur.pending.find? p.idempotencyKey).isSome then none
  else some { cur with pending := cur.pending.put p }

structure Outcome where
  requestId : Option String
  triggered : Bool
  deriving DecidableEq

def attachOutcome (cur : ThreadState J) (idempotencyKey : String) (outcome : Outcome) :
    Option (ThreadState J) :=
  match cur.pending.find? idempotencyKey with
  | none => none
  | some entry =>
    some { cur with
      pending := cur.pending.put
        { entry with requestId := outcome.requestId, triggered := some outcome.triggered } }

def removePending (cur : ThreadState J) (idempotencyKey : String) : Option (ThreadState J) :=
  if (cur.pending.find? idempotencyKey).isSome then
    some { cur with pending := cur.pending.delete fun p => p.idempotencyKey = idempotencyKey }
  else none

def dedupKey (requestId : String) (chunkSeq : Nat) : String := requestId ++ ":" ++ toString chunkSeq

structure Delivered (J : Type) where
  requestId : String
  fromAgent : Option String
  chunkSeq : Nat
  chunk : ResponseChunk J
  now : String

def Delivered.base (d : Delivered J) : LiveAgent J :=
  ⟨d.requestId, d.fromAgent, "", "", .empty, [], .streaming, none, none, d.now⟩

def syntheticStatus (cur : StreamStatus) : ResponseChunk J → StreamStatus
  | .stalled => .stalled
  | .error .. => .error
  | _ => cur

/-- Where the chunk changes nothing of a bubble that is there, the key alone is kept. -/
def applyDelivered (cur : ThreadState J) (d : Delivered J) : Option (ThreadState J) :=
  let key := dedupKey d.requestId d.chunkSeq
  if key ∈ cur.seen then none
  else
    let existing := cur.live.find? d.requestId
    let base := existing.getD d.base
    match applyChunk? base d.chunk, existing with
    | none, some _ => some { cur with seen := cur.seen ++ [key] }
    | updated, _ =>
      some { cur with live := cur.live.put (updated.getD base), seen := cur.seen ++ [key] }

def ThreadStreamEnvelope.delivered (env : ThreadStreamEnvelope J) (now : String) : Option (Delivered J) :=
  match env.requestId, env.chunkSeq with
  | some requestId, some chunkSeq => some ⟨requestId, env.fromAgent, chunkSeq, env.chunk, now⟩
  | _, _ => none

def applyEnvelope (cur : ThreadState J) (env : ThreadStreamEnvelope J) (now : String) :
    Option (ThreadState J) :=
  match env.delivered now with
  | none =>
    let status := syntheticStatus cur.status env.chunk
    if status = cur.status then none else some { cur with status := status }
  | some d => applyDelivered cur d

def setStatus (cur : ThreadState J) (status : StreamStatus) : Option (ThreadState J) :=
  if cur.status = status then none else some { cur with status := status }

def reset (s : Store J) (rootId : String) : Store J :=
  if (s rootId).isSome then Function.update s rootId (some emptyState) else s

inductive Action (J : Type)
  | addPending (p : PendingHuman)
  | attachOutcome (idempotencyKey : String) (outcome : Outcome)
  | removePending (idempotencyKey : String)
  | applyEnvelope (env : ThreadStreamEnvelope J) (now : String)
  | setStatus (status : StreamStatus)
  | reset

def Store.step (s : Store J) (rootId : String) : Action J → Store J
  | .addPending p => update s rootId fun cur => addPending cur p
  | .attachOutcome idempotencyKey outcome =>
    update s rootId fun cur => attachOutcome cur idempotencyKey outcome
  | .removePending idempotencyKey => update s rootId fun cur => removePending cur idempotencyKey
  | .applyEnvelope env now => update s rootId fun cur => applyEnvelope cur env now
  | .setStatus status => update s rootId fun cur => setStatus cur status
  | .reset => reset s rootId

def Store.empty : Store J := fun _ => none

def Store.run (acts : List (String × Action J)) : Store J :=
  acts.foldl (fun s act => s.step act.1 act.2) .empty

section Threads

def ThreadState.step (cur : ThreadState J) : Action J → ThreadState J
  | .addPending p => (addPending cur p).getD cur
  | .attachOutcome idempotencyKey outcome => (attachOutcome cur idempotencyKey outcome).getD cur
  | .removePending idempotencyKey => (removePending cur idempotencyKey).getD cur
  | .applyEnvelope env now => (applyEnvelope cur env now).getD cur
  | .setStatus status => (setStatus cur status).getD cur
  | .reset => emptyState

def threadActions (rootId : String) (acts : List (String × Action J)) : List (Action J) :=
  (acts.filter fun act => act.1 = rootId).map Prod.snd

theorem thread_set (s : Store J) (rootId rootId' : String) (st : ThreadState J) :
    Store.thread (Function.update s rootId (some st)) rootId' =
      if rootId = rootId' then st else s.thread rootId' := by
  by_cases e : rootId = rootId'
  · simp [Store.thread, e]
  · simp [Store.thread, e, Function.update_of_ne (Ne.symm e)]

theorem update_thread (s : Store J) (rootId rootId' : String)
    (fn : ThreadState J → Option (ThreadState J)) :
    (update s rootId fn).thread rootId' =
      if rootId = rootId' then (fn (s.thread rootId)).getD (s.thread rootId) else s.thread rootId' := by
  unfold update
  split
  case h_1 h =>
    rw [h]
    split
    case isTrue e => rw [← e, Option.getD_none]
    case isFalse => rfl
  case h_2 next h => rw [thread_set, h, Option.getD_some]

theorem reset_thread (s : Store J) (rootId rootId' : String) :
    (reset s rootId).thread rootId' = if rootId = rootId' then emptyState else s.thread rootId' := by
  unfold reset
  split
  case isTrue => exact thread_set s rootId rootId' emptyState
  case isFalse h =>
    split
    case isTrue e =>
      rw [← e, Store.thread, Option.not_isSome_iff_eq_none.mp h, Option.getD_none]
    case isFalse => rfl

theorem step_thread (s : Store J) (rootId rootId' : String) (a : Action J) :
    (s.step rootId a).thread rootId' =
      if rootId = rootId' then (s.thread rootId).step a else s.thread rootId' := by
  cases a with
  | reset => exact reset_thread s rootId rootId'
  | addPending | attachOutcome | removePending | applyEnvelope | setStatus =>
    rw [Store.step, update_thread]
    rfl

theorem run_thread (acts : List (String × Action J)) (rootId : String) :
    (Store.run acts).thread rootId =
      (threadActions rootId acts).foldl ThreadState.step emptyState := by
  induction acts using List.reverseRecOn with
  | nil => rfl
  | append_singleton acts act ih =>
    rw [Store.run, List.foldl_concat, ← Store.run, step_thread]
    by_cases e : act.1 = rootId
    · simp [threadActions, e, ih]
    · simp [threadActions, e, ih]

end Threads

section Deliveries

theorem digits_inj {n n' : Nat} (h : (toString n).toList = (toString n').toList) : n = n' := by
  rw [Nat.toString_eq_repr, Nat.toString_eq_repr, Nat.toList_repr, Nat.toList_repr] at h
  rw [← Nat.ofDigitChars_ten_toDigits (n := n), h, Nat.ofDigitChars_ten_toDigits]

theorem colon_not_mem_digits (n : Nat) : ':' ∉ (toString n).toList := by
  rw [Nat.toString_eq_repr, Nat.toList_repr]
  exact fun hc => absurd (Nat.isDigit_of_mem_toDigits (by decide) (by decide) hc) (by decide)

theorem dedupKey_inj {r r' : String} {n n' : Nat} :
    dedupKey r n = dedupKey r' n' ↔ r = r' ∧ n = n' := by
  constructor
  · intro h
    have hcolon (m : Nat) : ':' ∉ (toString m).toList.reverse :=
      fun hc => colon_not_mem_digits m (List.mem_reverse.mp hc)
    have hrev : (toString n).toList.reverse ++ ':' :: r.toList.reverse =
        (toString n').toList.reverse ++ ':' :: r'.toList.reverse := by
      simpa [dedupKey] using congrArg (fun text => text.toList.reverse) h
    obtain ⟨hn, hr⟩ := (append_cons_inj (hcolon n) (hcolon n')).mp hrev
    exact ⟨String.toList_inj.mp (List.reverse_injective hr), digits_inj (List.reverse_injective hn)⟩
  · rintro ⟨rfl, rfl⟩
    rfl

def Delivered.id (d : Delivered J) : String × Nat := (d.requestId, d.chunkSeq)

def bubbles : Inbox (Delivered J) String String (LiveAgent J) where
  key d := dedupKey d.requestId d.chunkSeq
  slot := Delivered.requestId
  init := Delivered.base
  act b d := applyChunk b d.chunk

def ThreadState.received (cur : ThreadState J) : Received String String (LiveAgent J) :=
  ⟨cur.seen, cur.live.find?⟩

theorem applyChunk_requestId (b : LiveAgent J) (chunk : ResponseChunk J) :
    (applyChunk b chunk).requestId = b.requestId := by
  cases chunk with
  | wireMcpRequest fromAgent request =>
    simp only [applyChunk, applyChunk?]
    split_ifs <;> rfl
  | text | reasoning | toolCall | toolResult | agentMessage | done | error | stalled => rfl

theorem find?_live_put (t : Table (LiveAgent J)) {b : LiveAgent J} {r : String} (h : b.requestId = r) :
    (t.put b).find? = Function.update t.find? r (some b) := by
  subst h
  funext r
  rw [Table.find?_put, Function.update_apply]
  exact if_congr eq_comm rfl rfl

theorem base_requestId (cur : ThreadState J) (d : Delivered J) :
    ((cur.live.find? d.requestId).getD d.base).requestId = d.requestId := by
  cases h : cur.live.find? d.requestId with
  | none => rfl
  | some b => exact Table.key_of_find? h

structure Took (cur : ThreadState J) (d : Delivered J) (next : ThreadState J) : Prop where
  pending : next.pending = cur.pending
  live : next.live.find? = Function.update cur.live.find? d.requestId
    (some (applyChunk ((cur.live.find? d.requestId).getD d.base) d.chunk))
  seen : next.seen = cur.seen ++ [dedupKey d.requestId d.chunkSeq]
  status : next.status = cur.status

theorem applyDelivered_old {cur : ThreadState J} {d : Delivered J}
    (h : dedupKey d.requestId d.chunkSeq ∈ cur.seen) : applyDelivered cur d = none := if_pos h

theorem applyDelivered_new {cur : ThreadState J} {d : Delivered J}
    (h : dedupKey d.requestId d.chunkSeq ∉ cur.seen) :
    ∃ next, applyDelivered cur d = some next ∧ Took cur d next := by
  have hput := find?_live_put cur.live
    ((applyChunk_requestId ((cur.live.find? d.requestId).getD d.base) d.chunk).trans
      (base_requestId cur d))
  simp only [applyDelivered, if_neg h]
  split
  case h_1 b hb hb' =>
    -- the bubble stays as it was, which is what setting it again would do
    refine ⟨_, rfl, rfl, ?_, rfl, rfl⟩
    rw [hb'] at hb ⊢
    rw [applyChunk, hb, Option.getD_none, Option.getD_some, ← hb', Function.update_eq_self]
  case h_2 updated _ _ => exact ⟨_, rfl, rfl, hput, rfl, rfl⟩

theorem received_delivered (cur : ThreadState J) (d : Delivered J) :
    ((applyDelivered cur d).getD cur).received = bubbles.receive cur.received d := by
  by_cases h : dedupKey d.requestId d.chunkSeq ∈ cur.seen
  · rw [applyDelivered_old h, Option.getD_none, bubbles.receive_old h]
  · obtain ⟨next, hnext, htook⟩ := applyDelivered_new h
    rw [hnext, Option.getD_some, bubbles.receive_new h, ThreadState.received, htook.live, htook.seen]
    rfl

def addDelivery (ds : List (Delivered J)) : Action J → List (Delivered J)
  | .reset => []
  | .applyEnvelope env now => ds ++ (env.delivered now).toList
  | _ => ds

def deliveries (acts : List (Action J)) : List (Delivered J) := acts.foldl addDelivery []

theorem step_received (cur : ThreadState J) (a : Action J) :
    (cur.step a).received =
      match a with
      | .reset => ⟨[], fun _ => none⟩
      | .applyEnvelope env now => (env.delivered now).toList.foldl bubbles.receive cur.received
      | _ => cur.received := by
  cases a with
  | reset => rfl
  | applyEnvelope env now =>
    simp only [ThreadState.step, applyEnvelope]
    cases h : env.delivered now with
    | none =>
      simp only [Option.toList_none, List.foldl_nil]
      split_ifs <;> rfl
    | some d => exact received_delivered cur d
  | addPending p =>
    simp only [ThreadState.step, addPending]
    split_ifs <;> rfl
  | attachOutcome idempotencyKey outcome =>
    simp only [ThreadState.step, attachOutcome]
    split <;> rfl
  | removePending idempotencyKey =>
    simp only [ThreadState.step, removePending]
    split_ifs <;> rfl
  | setStatus status =>
    simp only [ThreadState.step, setStatus]
    split_ifs <;> rfl

theorem steps_received (acts : List (Action J)) :
    (acts.foldl ThreadState.step emptyState).received =
      (deliveries acts).foldl bubbles.receive ⟨[], fun _ => none⟩ := by
  induction acts using List.reverseRecOn with
  | nil => rfl
  | append_singleton acts a ih =>
    rw [List.foldl_concat, step_received, ih, deliveries, deliveries, List.foldl_concat]
    cases a with
    | applyEnvelope env now => exact List.foldl_append.symm
    | reset | addPending | attachOutcome | removePending | setStatus => rfl

/-- The chunks of a request that a thread takes, each once, in the order they came first. -/
def chunksOf (acts : List (String × Action J)) (rootId requestId : String) : List (Delivered J) :=
  firsts Delivered.id
    ((deliveries (threadActions rootId acts)).filter fun d => d.requestId = requestId)

theorem run_live (acts : List (String × Action J)) (rootId requestId : String) :
    ((Store.run acts).thread rootId).live.find? requestId =
      bubbles.value none (chunksOf acts rootId requestId) := by
  have hkey (d d' : Delivered J) (h : bubbles.key d = bubbles.key d') :
      bubbles.slot d = bubbles.slot d' := (dedupKey_inj.mp h).1
  have hrun := bubbles.receive_slots hkey (deliveries (threadActions rootId acts))
    ⟨[], fun _ => none⟩ requestId
  rw [← steps_received, ← run_thread] at hrun
  refine hrun.trans (congrArg (bubbles.value none) ?_)
  have hinj : Function.Injective fun id : String × Nat => dedupKey id.1 id.2 :=
    fun _ _ h => Prod.ext_iff.mpr (dedupKey_inj.mp h)
  exact firstsFrom_comp Delivered.id hinj [] _

end Deliveries

section Shown

namespace ResponseChunk

def spoken : ResponseChunk J → String
  | .agentMessage _ _ content => content
  | _ => ""

def thought : ResponseChunk J → String
  | .reasoning value => value
  | _ => ""

def author : ResponseChunk J → Option String
  | .agentMessage fromAgent .. | .wireMcpRequest fromAgent _ => some fromAgent
  | _ => none

def wired : ResponseChunk J → Option McpWireRequest
  | .wireMcpRequest _ request => some request
  | _ => none

def outcome : ResponseChunk J → Option LiveStatus
  | .done _ => some .done
  | .error .. => some .error
  | .stalled => some .stalled
  | _ => none

def failure : ResponseChunk J → Option (String × String)
  | .error reason code => some (reason, code)
  | _ => none

def callId : ResponseChunk J → Option String
  | .toolCall id .. => some id
  | .toolResult callId .. => some callId
  | _ => none

end ResponseChunk

structure CallState (J : Type) where
  issued : Option (String × J)
  result : Option (String × Option Bool)

def CallState.next (s : CallState J) : ResponseChunk J → CallState J
  | .toolCall _ name input => ⟨some (name, input), none⟩
  | .toolResult _ output isError => ⟨s.issued, some (output, isError)⟩
  | _ => s

def CallState.entry (id : String) (s : CallState J) : ToolCallEntry (Option J) where
  callId := id
  name := (s.issued.map Prod.fst).getD "(tool)"
  input := s.issued.map Prod.snd
  output := s.result.map Prod.fst
  isError := s.result.bind Prod.snd
  status :=
    match s.result with
    | none => .running
    | some (_, isError) => if isError = some true then .error else .ok

def callState (id : String) (cs : List (ResponseChunk J)) : CallState J :=
  (cs.filter fun c => c.callId = some id).foldl CallState.next ⟨none, none⟩

def callEntry (id : String) (cs : List (ResponseChunk J)) : Option (ToolCallEntry (Option J)) :=
  if some id ∈ cs.map ResponseChunk.callId then some ((callState id cs).entry id) else none

/-- What the bubble of a request shows after chunks that begin with `d`'s. -/
structure Shows (d : Delivered J) (cs : List (ResponseChunk J)) (b : LiveAgent J) : Prop where
  requestId : b.requestId = d.requestId
  ts : b.ts = d.now
  agentId : b.agentId = d.fromAgent.or (cs.findSome? ResponseChunk.author)
  message : b.message = String.join (cs.map ResponseChunk.spoken)
  reasoning : b.reasoning = String.join (cs.map ResponseChunk.thought)
  status : b.status = (cs.filterMap ResponseChunk.outcome).getLast?.getD .streaming
  error : b.error = (cs.filterMap ResponseChunk.failure).getLast?.map Prod.fst
  errorCode : b.errorCode = (cs.filterMap ResponseChunk.failure).getLast?.map Prod.snd
  wireRequests : b.wireRequests =
    firsts McpWireRequest.catalogId (cs.filterMap ResponseChunk.wired)
  calls : b.toolCalls.rows.map ToolCallEntry.callId = firsts id (cs.filterMap ResponseChunk.callId)
  call : ∀ id, b.toolCalls.find? id = callEntry id cs

def addWire (requests : List McpWireRequest) : Option McpWireRequest → List McpWireRequest
  | none => requests
  | some w => if requests.any (·.catalogId = w.catalogId) then requests else requests ++ [w]

def ResponseChunk.enter (calls : Table (ToolCallEntry (Option J))) :
    ResponseChunk J → Table (ToolCallEntry (Option J))
  | .toolCall id name input => calls.put (toolCallRow id name input)
  | .toolResult callId output isError =>
    calls.put (toolResultRow (calls.find? callId) callId output isError)
  | _ => calls

theorem applyChunk_eq (b : LiveAgent J) (c : ResponseChunk J) :
    applyChunk b c =
      { b with
        agentId := b.agentId.or c.author
        message := b.message ++ c.spoken
        reasoning := b.reasoning ++ c.thought
        toolCalls := c.enter b.toolCalls
        wireRequests := addWire b.wireRequests c.wired
        status := c.outcome.getD b.status
        error := (c.failure.map Prod.fst).or b.error
        errorCode := (c.failure.map Prod.snd).or b.errorCode } := by
  obtain ⟨_, agentId, _, _, _, requests, _, _, _, _⟩ := b
  cases c with
  | wireMcpRequest fromAgent request =>
    simp only [applyChunk, applyChunk?, addWire, ResponseChunk.enter, ResponseChunk.author,
      ResponseChunk.spoken, ResponseChunk.thought, ResponseChunk.wired, ResponseChunk.outcome,
      ResponseChunk.failure]
    by_cases hdup : requests.any fun w => w.catalogId = request.catalogId
    · rw [if_pos hdup, if_pos hdup]
      cases agentId <;> simp
    · rw [if_neg hdup, if_neg hdup]
      simp
  | text | reasoning | toolCall | toolResult | agentMessage | done | error | stalled =>
    simp [applyChunk, applyChunk?, addWire, ResponseChunk.enter, ResponseChunk.author,
      ResponseChunk.spoken, ResponseChunk.thought, ResponseChunk.wired, ResponseChunk.outcome,
      ResponseChunk.failure]

theorem join_concat (texts : List String) (text : String) :
    String.join (texts ++ [text]) = String.join texts ++ text := by
  simp [String.join]

theorem addWire_firsts (requests : List McpWireRequest) (w : Option McpWireRequest) :
    addWire (firsts McpWireRequest.catalogId requests) w =
      firsts McpWireRequest.catalogId (requests ++ w.toList) := by
  cases w with
  | none => rw [Option.toList_none, List.append_nil, addWire]
  | some w =>
    have hany : (firsts McpWireRequest.catalogId requests).any (·.catalogId = w.catalogId) ↔
        w.catalogId ∈ requests.map McpWireRequest.catalogId := by
      rw [← mem_keys_firsts]
      simp
    rw [Option.toList_some, firsts_concat, addWire]
    by_cases hdup : w.catalogId ∈ requests.map McpWireRequest.catalogId
    · rw [if_pos (hany.mpr hdup), if_pos hdup]
    · rw [if_neg (fun h => hdup (hany.mp h)), if_neg hdup]

theorem enter_of_callId {c : ResponseChunk J} {id : String} (h : c.callId = some id)
    (calls : Table (ToolCallEntry (Option J))) : ∃ e, c.enter calls = calls.put e ∧ e.callId = id := by
  cases c with
  | toolCall | toolResult =>
    cases h
    exact ⟨_, rfl, rfl⟩
  | text | reasoning | agentMessage | wireMcpRequest | done | error | stalled => cases h

theorem enter_of_callId_none {c : ResponseChunk J} (h : c.callId = none)
    (calls : Table (ToolCallEntry (Option J))) : c.enter calls = calls := by
  cases c with
  | toolCall | toolResult => cases h
  | text | reasoning | agentMessage | wireMcpRequest | done | error | stalled => rfl

theorem enter_firsts {calls : Table (ToolCallEntry (Option J))} {ids : List String}
    (h : calls.rows.map ToolCallEntry.callId = firsts id ids) (c : ResponseChunk J) :
    (c.enter calls).rows.map ToolCallEntry.callId = firsts id (ids ++ c.callId.toList) := by
  cases hc : c.callId with
  | none => rw [enter_of_callId_none hc, h, Option.toList_none, List.append_nil]
  | some callId =>
    obtain ⟨e, he, rfl⟩ := enter_of_callId hc calls
    rw [he, Option.toList_some, firsts_concat]
    refine (Table.keys_put calls e).trans ?_
    have hmem : e.callId ∈ firsts id ids ↔ e.callId ∈ ids := by
      simpa using (mem_keys_firsts id : e.callId ∈ (firsts id ids).map id ↔ _)
    simp only [Keyed.key, h, hmem, List.map_id, id_eq]

theorem callEntry_of_callId {c : ResponseChunk J} {id : String} (h : c.callId = some id)
    (cs : List (ResponseChunk J)) :
    callEntry id (cs ++ [c]) = some (((callState id cs).next c).entry id) := by
  have hfilter : [c].filter (fun c => c.callId = some id) = [c] := by simp [h]
  rw [callEntry, if_pos (by simp [h]), callState, List.filter_append, hfilter, List.foldl_concat,
    ← callState]

theorem callEntry_of_ne {c : ResponseChunk J} {id : String} (h : c.callId ≠ some id)
    (cs : List (ResponseChunk J)) : callEntry id (cs ++ [c]) = callEntry id cs := by
  have hfilter : [c].filter (fun c => c.callId = some id) = [] := by simp [h]
  simp only [callEntry, callState, List.filter_append, hfilter, List.append_nil, List.map_append,
    List.map_singleton, List.mem_append, List.mem_singleton, h.symm, or_false]

theorem toolResultRow_callEntry (cs : List (ResponseChunk J)) (id output : String)
    (isError : Option Bool) :
    toolResultRow (callEntry id cs) id output isError =
      ((callState id cs).next (.toolResult id output isError)).entry id := by
  unfold callEntry
  split
  case isTrue => simp [toolResultRow, CallState.next, CallState.entry]
  case isFalse h =>
    have hnone : cs.filter (fun c => c.callId = some id) = [] := by
      refine List.filter_eq_nil_iff.mpr fun c hc e => h ?_
      exact List.mem_map.mpr ⟨c, hc, of_decide_eq_true e⟩
    simp [toolResultRow, CallState.next, CallState.entry, callState, hnone]

theorem enter_callEntry {calls : Table (ToolCallEntry (Option J))} {cs : List (ResponseChunk J)}
    (h : ∀ id, calls.find? id = callEntry id cs) (c : ResponseChunk J) (id : String) :
    (c.enter calls).find? id = callEntry id (cs ++ [c]) := by
  by_cases hc : c.callId = some id
  · rw [callEntry_of_callId hc]
    cases c with
    | toolCall callId name input =>
      cases hc
      exact Table.find?_put_self calls (toolCallRow id name input)
    | toolResult callId output isError =>
      cases hc
      rw [ResponseChunk.enter, h, toolResultRow_callEntry]
      exact Table.find?_put_self calls _
    | text | reasoning | agentMessage | wireMcpRequest | done | error | stalled => cases hc
  · rw [callEntry_of_ne hc, ← h]
    cases hid : c.callId with
    | none => rw [enter_of_callId_none hid]
    | some callId =>
      obtain ⟨e, he, rfl⟩ := enter_of_callId hid calls
      rw [he]
      exact calls.find?_put_ne fun e' => hc (hid.trans (congrArg some e'))

theorem shows_nil (d : Delivered J) : Shows d [] d.base where
  requestId := rfl
  ts := rfl
  agentId := by simp [Delivered.base]
  message := rfl
  reasoning := rfl
  status := rfl
  error := rfl
  errorCode := rfl
  wireRequests := rfl
  calls := rfl
  call _ := rfl

theorem Shows.step {d : Delivered J} {cs : List (ResponseChunk J)} {b : LiveAgent J}
    (h : Shows d cs b) (c : ResponseChunk J) : Shows d (cs ++ [c]) (applyChunk b c) := by
  rw [applyChunk_eq]
  constructor
  case requestId => exact h.requestId
  case ts => exact h.ts
  case agentId => simp [h.agentId, List.findSome?_append, Option.or_assoc]
  case message => rw [h.message, List.map_append, List.map_singleton, join_concat]
  case reasoning => rw [h.reasoning, List.map_append, List.map_singleton, join_concat]
  case status =>
    cases hc : c.outcome <;> simp [h.status, hc]
  case error =>
    cases hc : c.failure <;> simp [h.error, hc]
  case errorCode =>
    cases hc : c.failure <;> simp [h.errorCode, hc]
  case wireRequests =>
    rw [h.wireRequests, addWire_firsts, List.filterMap_append]
    cases hc : c.wired <;> simp [hc]
  case calls =>
    rw [enter_firsts h.calls, List.filterMap_append]
    cases hc : c.callId <;> simp [hc]
  case call => exact enter_callEntry h.call c

theorem shows_run (d : Delivered J) (ds : List (Delivered J)) :
    Shows d (ds.map Delivered.chunk) (ds.foldl bubbles.act d.base) := by
  induction ds using List.reverseRecOn with
  | nil => exact shows_nil d
  | append_singleton ds d' ih =>
    rw [List.map_append, List.foldl_concat]
    exact ih.step d'.chunk

/-- After any run a thread has a bubble for each request that a chunk has come in for since the last
reset, and the bubble shows each of the request's chunks once. -/
theorem run_shows (acts : List (String × Action J)) (rootId requestId : String) :
    match chunksOf acts rootId requestId with
    | [] => ((Store.run acts).thread rootId).live.find? requestId = none
    | d :: ds => ∃ b, ((Store.run acts).thread rootId).live.find? requestId = some b ∧
        Shows d ((d :: ds).map Delivered.chunk) b := by
  rw [run_live]
  cases chunksOf acts rootId requestId with
  | nil => rfl
  | cons d ds => exact ⟨_, bubbles.value_none_cons d ds, shows_run d (d :: ds)⟩

end Shown

end Patom.Web
