import Patom.Foundation.Delivery
import Patom.Foundation.Slice
import Patom.Foundation.Transition
import Patom.Runtime.Hub

/-! The fan-in of a process: one listener takes the notifications of all published chunks and hands
each to the connections that read its thread. -/

open Patom.Foundation

namespace Patom.Runtime.ThreadStream

def MAX_THREAD_CHUNK_BUFFER : Nat := 1024
def MAX_THREAD_SLOTS : Nat := 1024

structure ThreadStreamItem where
  requestId : PromptRequestId
  threadId : ThreadId
  fromAgent : AgentId
  chunkSeq : ChunkSeq
  chunk : ResponseChunk
  deriving DecidableEq

inductive ThreadStreamEvent
  | item (item : ThreadStreamItem)
  | stalled
  deriving DecidableEq

structure NotifyPayload where
  requestId : PromptRequestId
  threadId : Option ThreadId
  chunkSeq : ChunkSeq
  deriving DecidableEq

abbrev Sender := Nat

structure ThreadSlot where
  threadId : ThreadId
  tx : Sender
  deriving DecidableEq

instance slotKeyed : Keyed ThreadSlot ThreadId := ⟨ThreadSlot.threadId⟩

structure SlotTable where
  slots : Table ThreadSlot
  order : List ThreadId
  channels : Nat

def SlotTable.empty : SlotTable := ⟨.empty, [], 0⟩

structure SlotCap where
  slotCap : Nat
  pos : 0 < slotCap

namespace SlotTable

variable (receivers : Sender → Nat)

def isIdle (t : SlotTable) (id : ThreadId) : Bool :=
  (t.slots.find? id).any fun s => receivers s.tx = 0

def victim (t : SlotTable) : Option ThreadId × List ThreadId :=
  match t.order.findIdx? (t.isIdle receivers) with
  | some idx => (t.order[idx]?, t.order.eraseIdx idx)
  | none => (t.order.head?, t.order.tail)

def evictOne (t : SlotTable) : SlotTable :=
  match t.victim receivers with
  | (some id, order) => { t with order, slots := t.slots.delete fun s => key s = id }
  | (none, order) => { t with order }

def makeRoom (t : SlotTable) (slotCap : Nat) : SlotTable :=
  if slotCap ≤ t.slots.rows.length then t.evictOne receivers else t

def pushNew (t : SlotTable) (thread : ThreadId) : SlotTable where
  slots := t.slots.put ⟨thread, t.channels⟩
  order := t.order ++ [thread]
  channels := t.channels + 1

/-- `none` is a panic. -/
def touchSlot (t : SlotTable) (thread : ThreadId) (slotCap : Nat) : Option (SlotTable × ThreadSlot) :=
  let t :=
    if (t.slots.find? thread).isNone then (t.makeRoom receivers slotCap).pushNew thread else t
  (t.slots.find? thread).map fun slot => (t, slot)

end SlotTable

/-- A client that reads a thread: `since` is how many chunks were published when it subscribed, `sent`
what went into its channel since then and `events` what came out. -/
structure Connection where
  id : Uuid
  threadId : ThreadId
  tx : Sender
  receiver : Receiver ThreadStreamItem
  sent : List ThreadStreamItem
  events : List (Option ThreadStreamItem)
  since : Nat

instance connectionKeyed : Keyed Connection Uuid := ⟨Connection.id⟩

/-- Where the listener is in a notification: `fetching` holds a sender and no lock. -/
inductive Listener
  | idle
  | fetching (payload : NotifyPayload) (thread : ThreadId) (sender : Sender)

/-- `notified` is what the listener's connection has not handed over. -/
structure PgThreadStream where
  responses : Responses
  notified : List NotifyPayload
  table : SlotTable
  connections : Table Connection
  listener : Listener

def PgThreadStream.init : PgThreadStream := ⟨.empty, [], .empty, .empty, .idle⟩

def ThreadStreamEvent.ofPoll : Option ThreadStreamItem → ThreadStreamEvent
  | some got => .item got
  | none => .stalled

inductive Act
  | publish (request : PromptRequestId) (chunk : ResponseChunk) (now : Time)
  | recvError
  | recv
  | fetched (fault : Bool)
  | subscribe (id : Uuid) (thread : ThreadId)
  | poll (id : Uuid)
  | drop (id : Uuid)
  deriving DecidableEq

def Act.Clean (a : Act) : Prop := a ≠ .recvError ∧ a ≠ .fetched true

instance (a : Act) : Decidable a.Clean := inferInstanceAs (Decidable (_ ∧ _))

namespace PgThreadStream

def receivers (s : PgThreadStream) (tx : Sender) : Nat :=
  (s.connections.rows.filter fun d => d.tx = tx).length

section Steps

variable (db : Db) (colleagues : Table Colleague)

def publish (s : PgThreadStream) (request : PromptRequestId) (chunk : ResponseChunk) (now : Time) :
    PgThreadStream :=
  match publishInTx db now request chunk s.responses with
  | .error _ => s
  | .ok (responses, persisted) =>
    { s with
      responses
      notified := s.notified ++
        [⟨request, (db.promptRequests.find? request).bind (·.threadId), persisted.seq⟩] }

/-- The sender is looked up before the chunk is read, and not at all where nobody listens. -/
def recv (s : PgThreadStream) : Option PgThreadStream :=
  match s.listener, s.notified with
  | .idle, payload :: notified =>
    match payload.threadId with
    | none => some { s with notified }
    | some thread =>
      match (s.table.slots.find? thread).filter fun slot => 0 < s.receivers slot.tx with
      | none => some { s with notified }
      | some slot => some { s with notified, listener := .fetching payload thread slot.tx }
  | _, _ => none

/-- The joins drop a request without a receiver, and a receiver that is no agent does not decode. -/
def fetchItem (rs : Responses) (payload : NotifyPayload) (thread : ThreadId) :
    Option ThreadStreamItem := do
  let row ← rs.chunks.find? (payload.requestId, payload.chunkSeq)
  let request ← db.promptRequests.find? payload.requestId
  let rc ← colleagues.find? request.receiverColleagueId
  let receiverAgentId ← rc.agentId
  let fromAgent :=
    match row.payload with
    | .agentMessage fromAgent .. => fromAgent
    | _ => receiverAgentId
  return ⟨payload.requestId, thread, fromAgent, payload.chunkSeq, row.payload⟩

def Connection.offer (tx : Sender) (item : ThreadStreamItem) (d : Connection) : Connection :=
  if d.tx = tx then
    { d with
      receiver := d.receiver.offer MAX_THREAD_CHUNK_BUFFER item
      sent := d.sent ++ [item] }
  else d

theorem offer_key (tx : Sender) (item : ThreadStreamItem) (d : Connection) :
    key (Connection.offer tx item d) = key d := by
  unfold Connection.offer
  split <;> rfl

def send (s : PgThreadStream) (tx : Sender) (item : ThreadStreamItem) : PgThreadStream :=
  { s with connections := s.connections.modify (Connection.offer tx item) (offer_key tx item) }

def fetched (s : PgThreadStream) (fault : Bool) : Option PgThreadStream :=
  match s.listener with
  | .idle => none
  | .fetching payload thread sender =>
    let s := { s with listener := .idle }
    if fault then some s
    else
      match fetchItem db colleagues s.responses payload thread with
      | none => some s
      | some item => some (s.send sender item)

variable (cap : SlotCap)

def subscribe (s : PgThreadStream) (id : Uuid) (thread : ThreadId) : Option PgThreadStream :=
  if (s.connections.find? id).isSome then none
  else
    (s.table.touchSlot s.receivers thread cap.slotCap).map fun (table, slot) =>
      { s with
        table
        connections := s.connections.put
          ⟨id, thread, slot.tx, .new, [], [], s.responses.chunks.rows.length⟩ }

def drop (s : PgThreadStream) (id : Uuid) : PgThreadStream :=
  { s with connections := s.connections.delete fun d => d.id = id }

def isOpen (s : PgThreadStream) (tx : Sender) : Bool :=
  s.table.slots.rows.any (·.tx = tx) ||
    match s.listener with
    | .idle => false
    | .fetching _ _ sender => sender = tx

/-- A stream ends once its channel is closed and drained. -/
def poll (s : PgThreadStream) (id : Uuid) : Option PgThreadStream :=
  (s.connections.find? id).bind fun d =>
    match d.receiver.poll with
    | some (got, receiver) =>
      some { s with
        connections := s.connections.put { d with receiver, events := d.events ++ [got] } }
    | none => if s.isOpen d.tx then none else some (s.drop id)

def step : Step PgThreadStream Act
  | s, .publish request chunk now => some (s.publish db request chunk now)
  | s, .recvError => some { s with notified := [] }
  | s, .recv => s.recv
  | s, .fetched fault => s.fetched db colleagues fault
  | s, .subscribe id thread => s.subscribe cap id thread
  | s, .poll id => s.poll id
  | s, .drop id => some (s.drop id)

end Steps

end PgThreadStream

structure InStep (cap : SlotCap) (t : SlotTable) : Prop where
  keys : t.order.Perm (t.slots.rows.map key)
  bounded : t.slots.rows.length ≤ cap.slotCap
  fresh : ∀ s ∈ t.slots, s.tx < t.channels
  apart : ∀ s ∈ t.slots, ∀ s' ∈ t.slots, s.tx = s'.tx → s = s'

section Evict

variable {receivers : Sender → Nat} {cap : SlotCap} {t : SlotTable}

theorem inStep_empty (cap : SlotCap) : InStep cap .empty :=
  ⟨.refl _, Nat.zero_le _, fun _ hs => absurd hs (Table.not_mem_empty _),
    fun _ hs => absurd hs (Table.not_mem_empty _)⟩

theorem SlotTable.isIdle_of_mem {s : ThreadSlot} (h : s ∈ t.slots) :
    t.isIdle receivers s.threadId = decide (receivers s.tx = 0) := by
  have hfind : t.slots.find? s.threadId = some s := Table.find?_of_mem h
  rw [isIdle, hfind, Option.any_some]

theorem InStep.mem_order (h : InStep cap t) {id : ThreadId} :
    id ∈ t.order ↔ ∃ s ∈ t.slots, s.threadId = id :=
  h.keys.mem_iff.trans List.mem_map

theorem SlotTable.victim_spec (receivers : Sender → Nat) (h : t.order ≠ []) :
    ∃ id rest, t.victim receivers = (some id, rest) ∧ t.order.Perm (id :: rest) ∧
      (t.isIdle receivers id = false → ∀ id' ∈ t.order, t.isIdle receivers id' = false) := by
  unfold victim
  cases hidx : t.order.findIdx? (t.isIdle receivers) with
  | some idx =>
    obtain ⟨hlt, hidle, _⟩ := List.findIdx?_eq_some_iff_getElem.mp hidx
    refine ⟨t.order[idx], _, congrArg (·, _) (List.getElem?_eq_getElem hlt),
      (List.getElem_cons_eraseIdx_perm hlt).symm, fun hbusy => ?_⟩
    rw [hidle] at hbusy
    cases hbusy
  | none =>
    cases hord : t.order with
    | nil => exact absurd hord h
    | cons id rest =>
      exact ⟨id, rest, rfl, .refl _, fun _ => hord ▸ List.findIdx?_eq_none_iff.mp hidx⟩

structure Evicted (receivers : Sender → Nat) (t u : SlotTable) (s : ThreadSlot) : Prop where
  mem : s ∈ t.slots
  slots : u.slots = t.slots.delete fun s' => key s' = s.threadId
  order : t.order.Perm (s.threadId :: u.order)
  channels : u.channels = t.channels
  idle : 0 < receivers s.tx → ∀ s' ∈ t.slots, 0 < receivers s'.tx

theorem SlotTable.evictOne_spec (receivers : Sender → Nat) (h : InStep cap t) (hne : t.order ≠ []) :
    ∃ s, Evicted receivers t (t.evictOne receivers) s := by
  obtain ⟨id, rest, hvictim, hperm, hidle⟩ := t.victim_spec receivers hne
  obtain ⟨s, hs, rfl⟩ := h.mem_order.mp (hperm.mem_iff.mpr List.mem_cons_self)
  have hevict : t.evictOne receivers
      = { t with order := rest, slots := t.slots.delete fun s' => key s' = s.threadId } := by
    rw [evictOne, hvictim]
  refine ⟨s, hs, by rw [hevict], by rw [hevict]; exact hperm, by rw [hevict], fun hbusy s' hs' => ?_⟩
  have hall := hidle ((isIdle_of_mem hs).trans (decide_eq_false hbusy.ne')) s'.threadId
    (h.mem_order.mpr ⟨s', hs', rfl⟩)
  rw [isIdle_of_mem hs'] at hall
  exact Nat.pos_of_ne_zero (of_decide_eq_false hall)

structure Room (receivers : Sender → Nat) (cap : SlotCap) (t u : SlotTable) : Prop where
  inStep : InStep cap u
  room : u.slots.rows.length < cap.slotCap
  channels : u.channels = t.channels
  slots : ∀ s ∈ u.slots, s ∈ t.slots
  evicts : ∀ s ∈ t.slots, s ∉ u.slots → cap.slotCap = t.slots.rows.length ∧
    (0 < receivers s.tx → ∀ s' ∈ t.slots, 0 < receivers s'.tx)

theorem InStep.evict {u : SlotTable} {s : ThreadSlot} (h : InStep cap t)
    (hu : Evicted receivers t u s) :
    InStep cap u ∧ t.slots.rows.length = u.slots.rows.length + 1 := by
  have hrows : t.slots.rows.Perm (s :: u.slots.rows) := hu.slots ▸ Table.perm_delete hu.mem
  have hlen : t.slots.rows.length = u.slots.rows.length + 1 := hrows.length_eq
  have hsub : ∀ s' ∈ u.slots, s' ∈ t.slots := fun s' hs' => by
    rw [hu.slots] at hs'
    exact (Table.mem_delete.mp hs').1
  refine ⟨⟨?_, ?_, ?_, ?_⟩, hlen⟩
  · exact (List.perm_cons _).mp (hu.order.symm.trans (h.keys.trans (hrows.map key)))
  · have := h.bounded
    lia
  · exact fun s' hs' => hu.channels ▸ h.fresh s' (hsub s' hs')
  · exact fun s' hs' s'' hs'' => h.apart s' (hsub s' hs') s'' (hsub s'' hs'')

theorem SlotTable.makeRoom_spec (receivers : Sender → Nat) (h : InStep cap t) :
    Room receivers cap t (t.makeRoom receivers cap.slotCap) := by
  unfold makeRoom
  split
  case isTrue hfull =>
    have hlen := Nat.le_antisymm h.bounded hfull
    have hne : t.order ≠ [] := fun hnil => by
      have horder := h.keys.length_eq
      rw [hnil, List.length_map, List.length_nil] at horder
      have := cap.pos
      lia
    obtain ⟨s, hs⟩ := evictOne_spec receivers h hne
    obtain ⟨hin, hrows⟩ := h.evict hs
    refine ⟨hin, by lia, hs.channels, fun s' hs' => ?_, fun s' hs' hgone => ?_⟩
    · rw [hs.slots] at hs'
      exact (Table.mem_delete.mp hs').1
    · have hsame : s' = s := by
        rw [hs.slots, Table.mem_delete, not_and, Bool.not_eq_false, decide_eq_true_eq] at hgone
        exact Table.eq_of_key_eq hs' hs.mem (hgone hs')
      subst hsame
      exact ⟨hlen.symm, hs.idle⟩
  case isFalse hroom =>
    exact ⟨h, Nat.lt_of_not_le hroom, rfl, fun _ hs => hs, fun s hs hgone => absurd hs hgone⟩

structure Touched (receivers : Sender → Nat) (cap : SlotCap) (t : SlotTable) (thread : ThreadId)
    (u : SlotTable) (slot : ThreadSlot) : Prop where
  inStep : InStep cap u
  mem : slot ∈ u.slots
  thread : slot.threadId = thread
  known : slot ∈ t.slots ∧ u = t ∨ slot.tx = t.channels
  channels : t.channels ≤ u.channels
  slots : ∀ s ∈ u.slots, s = slot ∨ s ∈ t.slots
  evicts : ∀ s ∈ t.slots, s ∉ u.slots → cap.slotCap = t.slots.rows.length ∧
    (0 < receivers s.tx → ∀ s' ∈ t.slots, 0 < receivers s'.tx)

theorem Touched.old {thread : ThreadId} {u : SlotTable} {slot slot' : ThreadSlot}
    (h : Touched receivers cap t thread u slot) {tx : Sender} (htx : tx < t.channels)
    (hmem : slot' ∈ u.slots) (e : slot'.tx = tx) : slot' ∈ t.slots := by
  obtain rfl | hmem := h.slots slot' hmem
  · obtain ⟨hmem, -⟩ | hfresh := h.known
    · exact hmem
    · exact absurd (hfresh.symm.trans e) htx.ne'
  · exact hmem

theorem SlotTable.pushNew_inStep (h : InStep cap t) (hroom : t.slots.rows.length < cap.slotCap)
    {thread : ThreadId} (hnew : t.slots.find? thread = none) :
    InStep cap (t.pushNew thread) ∧
      ∀ s, s ∈ (t.pushNew thread).slots ↔ s ∈ t.slots ∨ s = ⟨thread, t.channels⟩ := by
  have hrows : (t.slots.put ⟨thread, t.channels⟩).rows = t.slots.rows ++ [⟨thread, t.channels⟩] :=
    Table.rows_put hnew
  have hmem (s : ThreadSlot) : s ∈ (t.pushNew thread).slots ↔ s ∈ t.slots ∨ s = ⟨thread, t.channels⟩ := by
    rw [Table.mem_def, pushNew, hrows, List.mem_append, List.mem_singleton, ← Table.mem_def]
  refine ⟨⟨?_, ?_, ?_, ?_⟩, hmem⟩
  · rw [pushNew, hrows, List.map_append]
    exact h.keys.append_right [thread]
  · rw [pushNew, hrows, List.length_append, List.length_singleton]
    exact hroom
  · intro s hs
    obtain hs | rfl := (hmem s).mp hs
    · exact Nat.lt_succ_of_lt (h.fresh s hs)
    · exact Nat.lt_succ_self _
  · intro s hs s' hs' e
    obtain hs | rfl := (hmem s).mp hs <;> obtain hs' | rfl := (hmem s').mp hs'
    · exact h.apart s hs s' hs' e
    · exact absurd e (h.fresh s hs).ne
    · exact absurd e.symm (h.fresh s' hs').ne
    · rfl

theorem SlotTable.touchSlot_spec (receivers : Sender → Nat) (h : InStep cap t)
    (thread : ThreadId) :
    ∃ u slot, t.touchSlot receivers thread cap.slotCap = some (u, slot) ∧
      Touched receivers cap t thread u slot := by
  cases hfind : t.slots.find? thread with
  | some slot =>
    obtain ⟨hmem, hthread⟩ := Table.find?_eq_some.mp hfind
    refine ⟨t, slot, by simp [touchSlot, hfind], h, hmem, hthread, .inl ⟨hmem, rfl⟩, Nat.le_refl _,
      fun s hs => .inr hs, fun s hs hgone => absurd hs hgone⟩
  | none =>
    have hroom := makeRoom_spec receivers h
    have hnew : (t.makeRoom receivers cap.slotCap).slots.find? thread = none :=
      Table.find?_eq_none.mpr fun s hs => Table.find?_eq_none.mp hfind s (hroom.slots s hs)
    obtain ⟨hin, hmem⟩ := pushNew_inStep hroom.inStep hroom.room hnew
    have hslot := (hmem ⟨thread, (t.makeRoom receivers cap.slotCap).channels⟩).mpr (.inr rfl)
    refine ⟨_, ⟨thread, (t.makeRoom receivers cap.slotCap).channels⟩, ?_, hin, hslot, rfl,
      .inr hroom.channels, ?_, fun s hs => ?_, fun s hs hgone => ?_⟩
    · have hfound : ((t.makeRoom receivers cap.slotCap).pushNew thread).slots.find? thread =
          some ⟨thread, (t.makeRoom receivers cap.slotCap).channels⟩ := Table.find?_of_mem hslot
      simp [touchSlot, hfind, hfound]
    · rw [← hroom.channels]
      exact Nat.le_succ _
    · exact ((hmem s).mp hs).symm.imp_right (hroom.slots s)
    · exact hroom.evicts s hs fun hs' => hgone ((hmem s).mpr (.inl hs'))

end Evict

def ThreadStreamItem.id (item : ThreadStreamItem) : PromptRequestId × ChunkSeq :=
  (item.requestId, item.chunkSeq)

def NotifyPayload.id (payload : NotifyPayload) : PromptRequestId × ChunkSeq :=
  (payload.requestId, payload.chunkSeq)

def Listener.taken : Listener → List (PromptRequestId × ChunkSeq)
  | .idle => []
  | .fetching payload _ _ => [payload.id]

namespace PgThreadStream

def inFlight (s : PgThreadStream) (tx : Sender) : List (PromptRequestId × ChunkSeq) :=
  match s.listener with
  | .idle => []
  | .fetching payload _ sender => if sender = tx then [payload.id] else []

def coming (s : PgThreadStream) : List (PromptRequestId × ChunkSeq) :=
  s.listener.taken ++ s.notified.map NotifyPayload.id

theorem inFlight_sublist (s : PgThreadStream) (tx : Sender) :
    (s.inFlight tx).Sublist s.listener.taken := by
  unfold inFlight
  cases s.listener with
  | idle => exact .slnil
  | fetching payload thread sender =>
    simp only
    split
    · exact .refl _
    · exact List.nil_sublist _

def log (s : PgThreadStream) : List (PromptRequestId × ChunkSeq) := s.responses.chunks.rows.map key

variable (db : Db) (colleagues : Table Colleague) (cap : SlotCap)

def threadOf (request : PromptRequestId) : Option ThreadId :=
  (db.promptRequests.find? request).bind (·.threadId)

/-- What a connection has been sent, and what of that it has seen. -/
structure Reads (s : PgThreadStream) (d : Connection) : Prop where
  ordered : (d.sent.map ThreadStreamItem.id).Sublist s.log
  faithful : ∀ item ∈ d.sent, threadOf db item.requestId = some d.threadId ∧
    fetchItem db colleagues s.responses ⟨item.requestId, some d.threadId, item.chunkSeq⟩ d.threadId
      = some item
  behind : Receiver.Behind MAX_THREAD_CHUNK_BUFFER d.sent d.events d.receiver

structure Inv (s : PgThreadStream) : Prop where
  inStep : InStep cap s.table
  coming : s.coming.Sublist s.log
  threads : ∀ payload ∈ s.notified, payload.threadId = threadOf db payload.requestId
  flight : ∀ payload thread tx, s.listener = .fetching payload thread tx →
    threadOf db payload.requestId = some thread ∧ tx < s.table.channels ∧
      ∀ slot ∈ s.table.slots, slot.tx = tx → slot.threadId = thread
  channels : ∀ d ∈ s.connections, d.tx < s.table.channels
  slots : ∀ d ∈ s.connections, ∀ slot ∈ s.table.slots, slot.tx = d.tx → slot.threadId = d.threadId
  flights : ∀ d ∈ s.connections, ∀ payload thread tx, s.listener = .fetching payload thread tx →
    tx = d.tx → thread = d.threadId
  ahead : ∀ d ∈ s.connections,
    (d.sent.map ThreadStreamItem.id ++ s.inFlight d.tx ++ s.notified.map NotifyPayload.id).Sublist s.log
  reads : ∀ d ∈ s.connections, Reads db colleagues s d

variable {db colleagues cap} {s t : PgThreadStream}

variable (db) in
theorem publish_cases (s : PgThreadStream) (request : PromptRequestId) (chunk : ResponseChunk)
    (now : Time) :
    s.publish db request chunk now = s ∨
      ∃ responses c, Published db request chunk s.responses responses c ∧
        s.publish db request chunk now =
          { s with
            responses
            notified := s.notified ++ [⟨request, threadOf db request, c.seq⟩] } := by
  unfold publish
  cases h : publishInTx db now request chunk s.responses with
  | error => exact .inl rfl
  | ok result =>
    obtain ⟨responses, persisted⟩ := result
    obtain ⟨c, hc⟩ := publishInTx_ok h
    refine .inr ⟨responses, c, hc, ?_⟩
    rw [hc.seq, publishInTx_persisted h]
    rfl

variable (db) in
theorem publish_frame (s : PgThreadStream) (request : PromptRequestId) (chunk : ResponseChunk)
    (now : Time) :
    (s.publish db request chunk now).table = s.table ∧
      (s.publish db request chunk now).connections = s.connections ∧
      (s.publish db request chunk now).listener = s.listener := by
  unfold publish
  split <;> exact ⟨rfl, rfl, rfl⟩

variable (db) in
theorem publish_log (s : PgThreadStream) (request : PromptRequestId) (chunk : ResponseChunk)
    (now : Time) :
    s.publish db request chunk now = s ∨
      ∃ id, (s.publish db request chunk now).log = s.log ++ [id] ∧
        (s.publish db request chunk now).notified.map NotifyPayload.id =
          s.notified.map NotifyPayload.id ++ [id] := by
  obtain hsame | ⟨responses, c, hc, hpub⟩ := publish_cases db s request chunk now
  · exact .inl hsame
  · refine .inr ⟨(request, c.seq), ?_, ?_⟩
    · rw [hpub, log, hc.chunks, List.map_append, List.map_singleton, ← hc.requestId]
      rfl
    · rw [hpub, List.map_append, List.map_singleton]
      rfl

theorem inv_init : Inv db colleagues cap .init where
  inStep := inStep_empty cap
  coming := .slnil
  threads payload h := by cases h
  flight payload thread tx h := by cases h
  channels d h := absurd h (Table.not_mem_empty d)
  slots d h := absurd h (Table.not_mem_empty d)
  flights d h := absurd h (Table.not_mem_empty d)
  ahead d h := absurd h (Table.not_mem_empty d)
  reads d h := absurd h (Table.not_mem_empty d)

theorem fetchItem_publish {request : PromptRequestId} {chunk : ResponseChunk} {rs rs' : Responses}
    {c : PromptResponseChunk} (h : Published db request chunk rs rs' c) {payload : NotifyPayload}
    {thread : ThreadId} {item : ThreadStreamItem}
    (hitem : fetchItem db colleagues rs payload thread = some item) :
    fetchItem db colleagues rs' payload thread = some item := by
  unfold fetchItem at hitem ⊢
  cases hrow : rs.chunks.find? (payload.requestId, payload.chunkSeq) with
  | none => simp [hrow] at hitem
  | some row =>
    have hrow' : rs'.chunks.find? (payload.requestId, payload.chunkSeq) = some row := by
      obtain ⟨hmem, hkey⟩ := Table.find?_eq_some.mp hrow
      exact Table.find?_eq_some.mpr ⟨h.mem.mpr (.inl hmem), hkey⟩
    rw [hrow] at hitem
    rw [hrow']
    exact hitem

theorem fetchItem_id {rs : Responses} {payload : NotifyPayload} {thread : ThreadId}
    {item : ThreadStreamItem} (h : fetchItem db colleagues rs payload thread = some item) :
    item.id = payload.id ∧ item.threadId = thread := by
  unfold fetchItem at h
  simp only [Option.bind_eq_bind, Option.bind_eq_some_iff, Option.pure_def, Option.some.injEq] at h
  obtain ⟨row, -, request, -, rc, -, agent, -, rfl⟩ := h
  exact ⟨rfl, rfl⟩

theorem Reads.publish {request : PromptRequestId} {chunk : ResponseChunk} {rs' : Responses}
    {c : PromptResponseChunk} (h : Published db request chunk s.responses rs' c) {d : Connection}
    (hd : Reads db colleagues s d) (ht : t.responses = rs') : Reads db colleagues t d := by
  subst ht
  refine ⟨?_, fun item hitem => ?_, hd.behind⟩
  · rw [log, h.chunks, List.map_append]
    exact hd.ordered.trans (List.sublist_append_left _ _)
  · obtain ⟨hthread, hfetch⟩ := hd.faithful item hitem
    exact ⟨hthread, fetchItem_publish h hfetch⟩

theorem inv_publish (h : Inv db colleagues cap s) (request : PromptRequestId) (chunk : ResponseChunk)
    (now : Time) : Inv db colleagues cap (s.publish db request chunk now) := by
  obtain hsame | ⟨responses, c, hc, hpub⟩ := publish_cases db s request chunk now
  · rw [hsame]
    exact h
  · have hlog : (s.publish db request chunk now).log = s.log ++ [(request, c.seq)] := by
      rw [hpub, log, hc.chunks, List.map_append, List.map_singleton, ← hc.requestId]
      rfl
    rw [hpub] at hlog ⊢
    refine ⟨h.inStep, ?_, ?_, h.flight, h.channels, h.slots, h.flights, fun d hd => ?_,
      fun d hd => (h.reads d hd).publish hc rfl⟩
    · rw [hlog, coming, List.map_append, ← List.append_assoc]
      exact h.coming.append_right _
    · intro payload hpayload
      obtain hpayload | hpayload := List.mem_append.mp hpayload
      · exact h.threads payload hpayload
      · rw [List.mem_singleton.mp hpayload]
    · rw [hlog, List.map_append, ← List.append_assoc]
      exact (h.ahead d hd).append_right _

theorem inv_recvError (h : Inv db colleagues cap s) :
    Inv db colleagues cap { s with notified := [] } := by
  refine ⟨h.inStep, ?_, fun _ hp => absurd hp List.not_mem_nil, h.flight, h.channels, h.slots,
    h.flights, fun d hd => ?_, fun d hd =>
      ⟨(h.reads d hd).ordered, (h.reads d hd).faithful, (h.reads d hd).behind⟩⟩
  · exact ((List.nil_sublist _).append_left _).trans h.coming
  · exact ((List.nil_sublist _).append_left _).trans (h.ahead d hd)

theorem inFlight_congr (h : t.listener = s.listener) (tx : Sender) : t.inFlight tx = s.inFlight tx := by
  rw [inFlight, h, inFlight]

theorem inFlight_idle (h : s.listener = .idle) (tx : Sender) : s.inFlight tx = [] := by
  rw [inFlight, h]

theorem inFlight_fetching {payload : NotifyPayload} {thread : ThreadId} {sender : Sender}
    (h : s.listener = .fetching payload thread sender) (tx : Sender) :
    s.inFlight tx = if sender = tx then [payload.id] else [] := by
  rw [inFlight, h]

theorem recv_cases (h : s.recv = some t) :
    ∃ payload notified, s.listener = .idle ∧ s.notified = payload :: notified ∧
      (t = { s with notified } ∧ (∀ slot ∈ s.table.slots, payload.threadId = some slot.threadId →
          s.receivers slot.tx = 0) ∨
        ∃ slot ∈ s.table.slots, payload.threadId = some slot.threadId ∧
          t = { s with notified, listener := .fetching payload slot.threadId slot.tx }) := by
  unfold recv at h
  split at h
  case h_2 => cases h
  case h_1 payload notified hidle hnotified =>
    refine ⟨payload, notified, hidle, hnotified, ?_⟩
    split at h
    case h_1 hnone =>
      cases h
      exact .inl ⟨rfl, fun slot _ e => by cases hnone.symm.trans e⟩
    case h_2 thread hthread =>
      split at h
      case h_1 hfilter =>
        cases h
        refine .inl ⟨rfl, fun slot hslot e => ?_⟩
        obtain rfl := Option.some.inj (hthread.symm.trans e)
        have hfind : s.table.slots.find? slot.threadId = some slot := Table.find?_of_mem hslot
        rw [hfind, Option.filter_some] at hfilter
        split at hfilter
        case isTrue => cases hfilter
        case isFalse hpos => exact Nat.eq_zero_of_not_pos fun h => hpos (decide_eq_true h)
      case h_2 slot hfilter =>
        cases h
        obtain ⟨hslot, rfl⟩ := Table.find?_eq_some.mp (Option.filter_eq_some_iff.mp hfilter).1
        exact .inr ⟨slot, hslot, hthread, rfl⟩

theorem Reads.same {d : Connection} (h : Reads db colleagues s d) (ht : t.responses = s.responses) :
    Reads db colleagues t d := by
  obtain ⟨hordered, hfaithful, hbehind⟩ := h
  refine ⟨?_, ?_, hbehind⟩
  · rw [log, ht]
    exact hordered
  · rw [ht]
    exact hfaithful

theorem inv_recv (h : Inv db colleagues cap s) (ht : s.recv = some t) : Inv db colleagues cap t := by
  obtain ⟨payload, notified, hidle, hnotified, hcases⟩ := recv_cases ht
  have hcoming := h.coming
  have hahead := h.ahead
  simp only [coming, inFlight, hidle, hnotified, Listener.taken, List.nil_append, List.append_nil,
    List.map_cons] at hcoming hahead
  have hthreads : ∀ p ∈ notified, p.threadId = threadOf db p.requestId :=
    fun p hp => h.threads p (hnotified ▸ List.mem_cons_of_mem payload hp)
  have hrest (ids : List (PromptRequestId × ChunkSeq)) :
      (ids ++ notified.map NotifyPayload.id).Sublist
        (ids ++ payload.id :: notified.map NotifyPayload.id) :=
    (List.sublist_cons_self _ _).append_left ids
  obtain ⟨rfl, -⟩ | ⟨slot, hslot, hthread, rfl⟩ := hcases
  · refine ⟨h.inStep, ?_, hthreads, h.flight, h.channels, h.slots, h.flights, fun d hd => ?_,
      fun d hd => (h.reads d hd).same rfl⟩
    · rw [coming, hidle]
      exact (hrest []).trans hcoming
    · rw [inFlight_idle (s := { s with notified }) hidle, List.append_nil]
      exact (hrest _).trans (hahead d hd)
  · constructor
    case inStep => exact h.inStep
    case coming => exact hcoming
    case threads => exact hthreads
    case flight =>
      intro p thread tx hl
      cases hl
      refine ⟨?_, h.inStep.fresh slot hslot, fun slot' hslot' e => ?_⟩
      · rw [← h.threads payload (hnotified ▸ List.mem_cons_self)]
        exact hthread
      · rw [h.inStep.apart slot' hslot' slot hslot e]
    case channels => exact h.channels
    case slots => exact h.slots
    case flights =>
      intro d hd p thread tx hl e
      cases hl
      exact h.slots d hd slot hslot e
    case ahead =>
      intro d hd
      rw [inFlight, List.append_assoc]
      simp only
      split
      · exact hahead d hd
      · exact (hrest _).trans (hahead d hd)
    case reads => exact fun d hd => (h.reads d hd).same rfl

theorem fetched_cases {fault : Bool} (h : s.fetched db colleagues fault = some t) :
    ∃ payload thread tx, s.listener = .fetching payload thread tx ∧
      ((fault = true ∨ fetchItem db colleagues s.responses payload thread = none) ∧
          t = { s with listener := .idle } ∨
        ∃ item, fetchItem db colleagues s.responses payload thread = some item ∧
          t = { s with listener := .idle }.send tx item) := by
  unfold fetched at h
  split at h
  case h_1 => cases h
  case h_2 payload thread tx hfetching =>
    refine ⟨payload, thread, tx, hfetching, ?_⟩
    simp only at h
    split at h
    case isTrue hfault =>
      cases h
      exact .inl ⟨.inl hfault, rfl⟩
    case isFalse =>
      split at h
      case h_1 hnone =>
        cases h
        exact .inl ⟨.inr hnone, rfl⟩
      case h_2 item hitem =>
        cases h
        exact .inr ⟨item, hitem, rfl⟩

variable (db colleagues s) in
structure Settled (d d' : Connection) : Prop where
  threadId : d'.threadId = d.threadId
  tx : d'.tx = d.tx
  sent : (d'.sent.map ThreadStreamItem.id).Sublist
    (d.sent.map ThreadStreamItem.id ++ s.inFlight d.tx)
  faithful : ∀ item ∈ d'.sent, threadOf db item.requestId = some d.threadId ∧
    fetchItem db colleagues s.responses ⟨item.requestId, some d.threadId, item.chunkSeq⟩ d.threadId
      = some item
  behind : Receiver.Behind MAX_THREAD_CHUNK_BUFFER d'.sent d'.events d'.receiver

theorem Reads.settled {d : Connection} (h : Reads db colleagues s d) : Settled db colleagues s d d :=
  ⟨rfl, rfl, List.sublist_append_left _ _, h.faithful, h.behind⟩

theorem inv_settle (h : Inv db colleagues cap s) (f : Connection → Connection)
    (hf : ∀ d, key (f d) = key d) (hd : ∀ d ∈ s.connections, Settled db colleagues s d (f d)) :
    Inv db colleagues cap
      { s with listener := .idle, connections := s.connections.modify f hf } := by
  constructor
  case inStep => exact h.inStep
  case coming => exact (List.sublist_append_right _ _).trans h.coming
  case threads => exact h.threads
  case flight =>
    intro _ _ _ hl
    cases hl
  case flights =>
    intro _ _ _ _ _ hl
    cases hl
  all_goals
    intro d' hd'
    simp only [Table.mem_modify] at hd'
    obtain ⟨d, hmem, rfl⟩ := hd'
    have hsettled := hd d hmem
  case channels =>
    rw [hsettled.tx]
    exact h.channels d hmem
  case slots =>
    rw [hsettled.threadId, hsettled.tx]
    exact h.slots d hmem
  case ahead =>
    rw [inFlight_idle rfl, List.append_nil]
    exact (hsettled.sent.append_right _).trans (h.ahead d hmem)
  case reads =>
    refine ⟨hsettled.sent.trans ((List.sublist_append_left _ _).trans (h.ahead d hmem)), ?_,
      hsettled.behind⟩
    rw [hsettled.threadId]
    exact hsettled.faithful

theorem inv_fetched (h : Inv db colleagues cap s) {fault : Bool}
    (ht : s.fetched db colleagues fault = some t) : Inv db colleagues cap t := by
  obtain ⟨payload, thread, tx, hfetching, ⟨-, rfl⟩ | ⟨item, hitem, rfl⟩⟩ := fetched_cases ht
  · have hkeep : s.connections.modify (fun d => d) (fun _ => rfl) = s.connections :=
      Table.modify_eq_self _ fun _ _ => rfl
    have hsettle := inv_settle h (fun d => d) (fun _ => rfl) fun d hd =>
      (h.reads d hd).settled
    rwa [hkeep] at hsettle
  · obtain ⟨hid, -⟩ := fetchItem_id hitem
    refine inv_settle h _ (offer_key tx item) fun d hd => ?_
    unfold Connection.offer
    split
    case isTrue htx =>
      obtain rfl := h.flights d hd payload thread tx hfetching htx.symm
      obtain ⟨hrequest, hseq⟩ := Prod.mk.inj hid
      refine ⟨rfl, rfl, ?_, fun item' hitem' => ?_, (h.reads d hd).behind.offer (by decide) item⟩
      · rw [htx, inFlight_fetching hfetching, if_pos rfl, List.map_append, List.map_singleton, hid]
      · obtain hitem' | hitem' := List.mem_append.mp hitem'
        · exact (h.reads d hd).faithful item' hitem'
        · obtain rfl := List.mem_singleton.mp hitem'
          rw [hrequest, hseq]
          exact ⟨(h.flight payload _ tx hfetching).1, hitem⟩
    case isFalse => exact (h.reads d hd).settled

theorem inv_drop (h : Inv db colleagues cap s) (id : Uuid) : Inv db colleagues cap (s.drop id) := by
  have hmem : ∀ d ∈ (s.drop id).connections, d ∈ s.connections := fun d hd => (Table.mem_delete.mp hd).1
  exact ⟨h.inStep, h.coming, h.threads, h.flight, fun d hd => h.channels d (hmem d hd),
    fun d hd => h.slots d (hmem d hd), fun d hd => h.flights d (hmem d hd),
    fun d hd => h.ahead d (hmem d hd), fun d hd => (h.reads d (hmem d hd)).same rfl⟩

theorem poll_cases {id : Uuid} (h : s.poll id = some t) :
    ∃ d, s.connections.find? id = some d ∧
      ((∃ got receiver, d.receiver.poll = some (got, receiver) ∧
          t = { s with
            connections := s.connections.put { d with receiver, events := d.events ++ [got] } }) ∨
        d.receiver.poll = none ∧ s.isOpen d.tx = false ∧ t = s.drop id) := by
  obtain ⟨d, hd, h⟩ := Option.bind_eq_some_iff.mp h
  refine ⟨d, hd, ?_⟩
  split at h
  case h_1 got receiver hpoll =>
    cases h
    exact .inl ⟨got, receiver, hpoll, rfl⟩
  case h_2 hpoll =>
    split at h
    case isTrue => cases h
    case isFalse hclosed =>
      cases h
      exact .inr ⟨hpoll, Bool.eq_false_of_not_eq_true hclosed, rfl⟩

theorem inv_poll (h : Inv db colleagues cap s) {id : Uuid} (ht : s.poll id = some t) :
    Inv db colleagues cap t := by
  obtain ⟨d, hfind, ⟨got, receiver, hpoll, rfl⟩ | ⟨-, -, rfl⟩⟩ := poll_cases ht
  · have hd := Table.mem_of_find? hfind
    have hmem {d' : Connection} (hd' : d' ∈ s.connections.put
        { d with receiver, events := d.events ++ [got] }) :
        d' = { d with receiver, events := d.events ++ [got] } ∨ d' ∈ s.connections :=
      (Table.mem_put.mp hd').imp_right And.left
    refine ⟨h.inStep, h.coming, h.threads, h.flight, fun d' hd' => ?_, fun d' hd' => ?_,
      fun d' hd' => ?_, fun d' hd' => ?_, fun d' hd' => ?_⟩
    all_goals obtain rfl | hd' := hmem hd'
    · exact h.channels d hd
    · exact h.channels d' hd'
    · exact h.slots d hd
    · exact h.slots d' hd'
    · exact h.flights d hd
    · exact h.flights d' hd'
    · exact h.ahead d hd
    · exact h.ahead d' hd'
    · exact ⟨(h.reads d hd).ordered, (h.reads d hd).faithful, (h.reads d hd).behind.poll hpoll⟩
    · exact (h.reads d' hd').same rfl
  · exact inv_drop h id

theorem subscribe_cases (h : Inv db colleagues cap s) {id : Uuid} {thread : ThreadId}
    (ht : s.subscribe cap id thread = some t) :
    ∃ table slot, Touched s.receivers cap s.table thread table slot ∧
      s.connections.find? id = none ∧
      t = { s with
        table
        connections := s.connections.put
          ⟨id, thread, slot.tx, .new, [], [], s.responses.chunks.rows.length⟩ } := by
  unfold subscribe at ht
  split at ht
  case isTrue => cases ht
  case isFalse hnew =>
    obtain ⟨table, slot, htouch, htouched⟩ :=
      SlotTable.touchSlot_spec s.receivers h.inStep thread
    rw [htouch] at ht
    cases ht
    exact ⟨table, slot, htouched, Option.not_isSome_iff_eq_none.mp hnew, rfl⟩

theorem inv_subscribe (h : Inv db colleagues cap s) {id : Uuid} {thread : ThreadId}
    (ht : s.subscribe cap id thread = some t) : Inv db colleagues cap t := by
  obtain ⟨table, slot, htouched, hnew, rfl⟩ := subscribe_cases h ht
  have hmem {d : Connection} (hd : d ∈ s.connections.put
      ⟨id, thread, slot.tx, .new, [], [], s.responses.chunks.rows.length⟩) :
      d = ⟨id, thread, slot.tx, .new, [], [], s.responses.chunks.rows.length⟩ ∨ d ∈ s.connections :=
    (Table.mem_put.mp hd).imp_right And.left
  constructor
  case inStep => exact htouched.inStep
  case coming => exact h.coming
  case threads => exact h.threads
  case flight =>
    intro payload thread' tx hl
    obtain ⟨hthread, htx, hslot⟩ := h.flight payload thread' tx hl
    exact ⟨hthread, htx.trans_le htouched.channels, fun slot' hslot' e =>
      hslot slot' (htouched.old htx hslot' e) e⟩
  case channels =>
    intro d hd
    obtain rfl | hd := hmem hd
    · exact htouched.inStep.fresh slot htouched.mem
    · exact (h.channels d hd).trans_le htouched.channels
  case slots =>
    intro d hd slot' hslot' e
    obtain rfl | hd := hmem hd
    · rw [htouched.inStep.apart slot' hslot' slot htouched.mem e]
      exact htouched.thread
    · exact h.slots d hd slot' (htouched.old (h.channels d hd) hslot' e) e
  case flights =>
    intro d hd payload thread' tx hl e
    obtain rfl | hd := hmem hd
    · obtain ⟨-, htx, hslot⟩ := h.flight payload thread' tx hl
      rw [← hslot slot (htouched.old htx htouched.mem e.symm) e.symm]
      exact htouched.thread
    · exact h.flights d hd payload thread' tx hl e
  case ahead =>
    intro d hd
    obtain rfl | hd := hmem hd
    · exact ((inFlight_sublist s slot.tx).append_right _).trans h.coming
    · exact h.ahead d hd
  case reads =>
    intro d hd
    obtain rfl | hd := hmem hd
    · exact ⟨List.nil_sublist _, fun _ hitem => absurd hitem List.not_mem_nil, .new _⟩
    · exact (h.reads d hd).same rfl

theorem inv_step {a : Act} (h : Inv db colleagues cap s) (ht : step db colleagues cap s a = some t) :
    Inv db colleagues cap t := by
  cases a with
  | publish request chunk now =>
    cases ht
    exact inv_publish h request chunk now
  | recvError =>
    cases ht
    exact inv_recvError h
  | recv => exact inv_recv h ht
  | fetched fault => exact inv_fetched h ht
  | subscribe id thread => exact inv_subscribe h ht
  | poll id => exact inv_poll h ht
  | drop id =>
    cases ht
    exact inv_drop h id

theorem inv_reachable (h : Reachable (step db colleagues cap) .init s) : Inv db colleagues cap s :=
  h.inv (fun _ _ _ hs ht => inv_step hs ht) inv_init

end PgThreadStream

end Patom.Runtime.ThreadStream
