import Patom.Foundation.Journal
import Patom.Foundation.Ranking
import Patom.Foundation.Transition
import Patom.Runtime.Response

/-! The response hub: publishes that commit and then fan out, beside subscribers that splice what
is stored with what is live. Slots are never evicted and queues never full. -/

open Patom.Foundation

namespace Patom.Runtime

structure StreamSlot where
  requestId : PromptRequestId
  closed : Bool
  deriving DecidableEq

instance : Keyed StreamSlot PromptRequestId := ⟨(·.requestId)⟩

inductive PublishPc
  | committed
  | sending
  deriving DecidableEq

/-- A publish that has committed and not yet fanned out. -/
structure Publish where
  id : Uuid
  requestId : PromptRequestId
  persisted : PersistedChunk
  pc : PublishPc
  deriving DecidableEq

structure StreamClose where
  id : Uuid
  requestId : PromptRequestId
  deriving DecidableEq

inductive SubscriberPc
  | attached
  | live (threshold : Option ChunkSeq)
  deriving DecidableEq

/-- `received` is what the stream has yielded, `backlog` and `queue` what it has not. -/
structure Subscriber where
  id : Uuid
  requestId : PromptRequestId
  since : Option ChunkSeq
  pc : SubscriberPc
  backlog : List ResponseChunkEnvelope
  queue : List ResponseChunkEnvelope
  received : List ResponseChunkEnvelope
  deriving DecidableEq

instance : Keyed Publish Uuid := ⟨(·.id)⟩
instance : Keyed StreamClose Uuid := ⟨(·.id)⟩
instance : Keyed Subscriber Uuid := ⟨(·.id)⟩

structure Hub where
  responses : Responses
  slots : Table StreamSlot
  publishes : Table Publish
  closing : Table StreamClose
  subscribers : Table Subscriber

def Hub.init : Hub := ⟨.empty, .empty, .empty, .empty, .empty⟩

def touchSlot (id : PromptRequestId) (slots : Table StreamSlot) : Table StreamSlot :=
  slots.addNew ⟨id, false⟩

def slotClosed (id : PromptRequestId) (slots : Table StreamSlot) : Bool :=
  (slots.find? id).any (·.closed)

def publishSender (id : PromptRequestId) (terminal : Bool) (slots : Table StreamSlot) :
    Except ResponseError (Table StreamSlot) :=
  let slots := touchSlot id slots
  if slotClosed id slots then
    .error (.backend ("request " ++ id.display ++ " stream already closed"))
  else if terminal then .ok (slots.put ⟨id, true⟩)
  else .ok slots

def markClosed (id : PromptRequestId) (slots : Table StreamSlot) : Table StreamSlot :=
  (touchSlot id slots).put ⟨id, true⟩

def PromptResponseChunk.envelope (c : PromptResponseChunk) : ResponseChunkEnvelope :=
  ⟨c.seq, c.payload⟩

def Responses.backlog (rs : Responses) (id : PromptRequestId) (since : Option ChunkSeq) :
    List ResponseChunkEnvelope :=
  (inOrder PromptResponseChunk.seq (rs.chunks.rows.filter fun c =>
    c.requestId = id && since.all (· < c.seq))).map (·.envelope)

def backlogMax (since : Option ChunkSeq) (backlog : List ResponseChunkEnvelope) : Option ChunkSeq :=
  backlog.foldl (fun m e => some (m.elim e.seq (max · e.seq))) since

def passes (threshold : Option ChunkSeq) (e : ResponseChunkEnvelope) : Bool :=
  !threshold.any (e.seq ≤ ·)

def Subscriber.offer (request : PromptRequestId) (e : ResponseChunkEnvelope) (d : Subscriber) :
    Subscriber :=
  if d.requestId = request then { d with queue := d.queue ++ [e] } else d

theorem Subscriber.offer_key (request : PromptRequestId) (e : ResponseChunkEnvelope)
    (d : Subscriber) : key (d.offer request e) = key d := by
  unfold offer
  split <;> rfl

def Subscriber.replay (rs : Responses) (d : Subscriber) : Subscriber :=
  let backlog := rs.backlog d.requestId d.since
  { d with pc := .live (backlogMax d.since backlog), backlog }

def Subscriber.poll (d : Subscriber) (threshold : Option ChunkSeq) : Option Subscriber :=
  match d.backlog, d.queue with
  | e :: backlog, _ => some { d with backlog, received := d.received ++ [e] }
  | [], e :: queue =>
    some { d with queue, received := if passes threshold e then d.received ++ [e] else d.received }
  | [], [] => none

inductive HubAct
  | publish (id : Uuid) (request : PromptRequestId) (chunk : ResponseChunk) (now : Time)
  | acquire (id : Uuid)
  | send (id : Uuid)
  | close (id : Uuid) (request : PromptRequestId)
  | markClosed (id : Uuid)
  | subscribe (id : Uuid) (request : PromptRequestId) (since : Option ChunkSeq)
  | readBacklog (id : Uuid)
  | poll (id : Uuid)
  | unsubscribe (id : Uuid)

section Step

variable (db : Db)

def Hub.publish (s : Hub) (id : Uuid) (request : PromptRequestId) (chunk : ResponseChunk)
    (now : Time) : Option Hub :=
  if (s.publishes.find? id).isNone then
    match publishInTx db now request chunk s.responses with
    | .ok (responses, persisted) =>
      some { s with responses, publishes := s.publishes.put ⟨id, request, persisted, .committed⟩ }
    | .error _ => some s
  else none

/-- A sender is not given out for a closed slot, and the chunk stays where it is stored. -/
def Hub.acquire (s : Hub) (id : Uuid) : Option Hub :=
  (s.publishes.find? id).bind fun p =>
    match p.pc with
    | .committed =>
      match publishSender p.requestId p.persisted.terminal s.slots with
      | .ok slots => some { s with slots, publishes := s.publishes.put { p with pc := .sending } }
      | .error _ => some { s with publishes := s.publishes.delete fun p => p.id = id }
    | .sending => none

def Hub.send (s : Hub) (id : Uuid) : Option Hub :=
  (s.publishes.find? id).bind fun p =>
    match p.pc with
    | .committed => none
    | .sending => some { s with
        publishes := s.publishes.delete fun p => p.id = id
        subscribers := s.subscribers.modify (·.offer p.requestId p.persisted.envelope)
          (Subscriber.offer_key _ _) }

def Hub.sent (s : Hub) (p : Publish) : Hub :=
  { s with
    publishes := s.publishes.delete fun q => q.id = p.id
    subscribers := s.subscribers.modify (·.offer p.requestId p.persisted.envelope)
      (Subscriber.offer_key _ _) }

def Hub.subscribe (s : Hub) (id : Uuid) (request : PromptRequestId) (since : Option ChunkSeq) :
    Option Hub :=
  if (s.subscribers.find? id).isNone then
    some { s with
      slots := touchSlot request s.slots
      subscribers := s.subscribers.put ⟨id, request, since, .attached, [], [], []⟩ }
  else none

def Hub.readBacklog (s : Hub) (id : Uuid) : Option Hub :=
  (s.subscribers.find? id).bind fun d =>
    match d.pc with
    | .attached => some { s with subscribers := s.subscribers.put (d.replay s.responses) }
    | .live _ => none

def Hub.poll (s : Hub) (id : Uuid) : Option Hub :=
  (s.subscribers.find? id).bind fun d =>
    match d.pc with
    | .attached => none
    | .live threshold => (d.poll threshold).map fun d =>
        { s with subscribers := s.subscribers.put d }

def hubStep : Step Hub HubAct
  | s, .publish id request chunk now => s.publish db id request chunk now
  | s, .acquire id => s.acquire id
  | s, .send id => s.send id
  | s, .close id request =>
    if (s.closing.find? id).isNone then
      some { s with
        responses := closeInTx db request s.responses
        closing := s.closing.put ⟨id, request⟩ }
    else none
  | s, .markClosed id => (s.closing.find? id).map fun c =>
      { s with
        slots := Runtime.markClosed c.requestId s.slots
        closing := s.closing.delete fun c => c.id = id }
  | s, .subscribe id request since => s.subscribe id request since
  | s, .readBacklog id => s.readBacklog id
  | s, .poll id => s.poll id
  | s, .unsubscribe id => some { s with subscribers := s.subscribers.delete fun d => d.id = id }

end Step

section Backlog

variable {db : Db} {now : Time} {id : PromptRequestId} {chunk : ResponseChunk} {rs rs' : Responses}
  {since : Option ChunkSeq} {e : ResponseChunkEnvelope}

def Responses.Holds (rs : Responses) (id : PromptRequestId) (e : ResponseChunkEnvelope) : Prop :=
  ∃ c ∈ rs.chunks, c.requestId = id ∧ c.envelope = e

theorem mem_backlog : e ∈ rs.backlog id since ↔ rs.Holds id e ∧ since.all (· < e.seq) := by
  simp only [Responses.backlog, List.mem_map, mem_inOrder, List.mem_filter, Bool.and_eq_true,
    decide_eq_true_eq, Responses.Holds, Table.mem_def]
  constructor
  · rintro ⟨c, ⟨hc, hid, hsince⟩, rfl⟩
    exact ⟨⟨c, hc, hid, rfl⟩, hsince⟩
  · rintro ⟨⟨c, hc, hid, rfl⟩, hsince⟩
    exact ⟨c, ⟨hc, hid, hsince⟩, rfl⟩

theorem backlog_strict (rs : Responses) (id : PromptRequestId) (since : Option ChunkSeq) :
    (rs.backlog id since).Pairwise (·.seq < ·.seq) := by
  refine List.pairwise_map.mpr (inOrder_strict _ (List.pairwise_map.mpr ?_) fun _ _ e => e)
  refine ((List.pairwise_map.mp rs.chunks.nodup).filter _).imp_of_mem fun {a b} ha hb hne e => ?_
  simp only [List.mem_filter, Bool.and_eq_true, decide_eq_true_eq] at ha hb
  exact hne (Prod.ext (ha.2.1.trans hb.2.1.symm) e)

@[simp] theorem backlog_closeInTx (db : Db) (closed id : PromptRequestId) (rs : Responses)
    (since : Option ChunkSeq) : (closeInTx db closed rs).backlog id since = rs.backlog id since := by
  simp only [Responses.backlog, closeInTx_chunks]

@[simp] theorem holds_closeInTx (db : Db) (closed id : PromptRequestId) (rs : Responses)
    (e : ResponseChunkEnvelope) : (closeInTx db closed rs).Holds id e ↔ rs.Holds id e := by
  simp only [Responses.Holds, closeInTx_chunks]

theorem Numbered.lt_of_holds (hnum : Numbered rs) (h : rs.Holds id e) : e.seq < rs.nextSeq id := by
  obtain ⟨c, hc, rfl, rfl⟩ := h
  exact hnum.lt hc

theorem publishInTx_persisted {p : PersistedChunk}
    (h : publishInTx db now id chunk rs = .ok (rs', p)) :
    p = ⟨rs.nextSeq id, ⟨rs.nextSeq id, chunk⟩, chunk.isTerminal⟩ := by
  unfold publishInTx at h
  split at h
  case h_1 => cases h
  case h_2 req hreq =>
    obtain rfl : req.id = id := Table.key_of_find? hreq
    simp only [bumpStream_nextSeq, Nat.add_sub_cancel] at h
    split at h
    case h_1 => cases h
    case h_2 => cases h; rfl

variable {c : PromptResponseChunk}

theorem Published.envelope (h : Published db id chunk rs rs' c) :
    c.envelope = ⟨rs.nextSeq id, chunk⟩ := by
  rw [PromptResponseChunk.envelope, h.seq, h.payload]

theorem Published.holds (h : Published db id chunk rs rs' c) (other : PromptRequestId) :
    rs'.Holds other e ↔ rs.Holds other e ∨ other = id ∧ e = ⟨rs.nextSeq id, chunk⟩ := by
  simp only [Responses.Holds, h.mem, or_and_right, exists_or, exists_eq_left, h.requestId,
    h.envelope, eq_comm (a := other), eq_comm (a := e)]

theorem Published.backlog (hnum : Numbered rs) (h : Published db id chunk rs rs' c)
    (other : PromptRequestId) (since : Option ChunkSeq) :
    rs.backlog other since <+: rs'.backlog other since := by
  rw [Responses.backlog, Responses.backlog, h.chunks, List.filter_append, List.filter_singleton,
    Bool.cond_eq_ite]
  split
  case isTrue hc =>
    rw [inOrder_append_singleton, List.map_append]
    · exact List.prefix_append _ _
    · intro a ha
      obtain ⟨ha, hid⟩ := List.mem_filter.mp ha
      simp only [Bool.and_eq_true, decide_eq_true_eq] at hid hc
      have hlt := hnum.lt ha
      rw [hid.1, ← hc.1, h.requestId, ← h.seq] at hlt
      exact Nat.le_of_lt hlt
  case isFalse => rw [List.append_nil]

theorem mem_backlogMax {l : List ResponseChunkEnvelope} {t : ChunkSeq}
    (h : backlogMax since l = some t) : since = some t ∨ ∃ e ∈ l, e.seq = t := by
  induction l generalizing since with
  | nil => exact .inl h
  | cons e l ih =>
    obtain hm | ⟨e', he', rfl⟩ := ih h
    · cases since with
      | none => exact .inr ⟨e, List.mem_cons_self, Option.some.inj hm⟩
      | some s =>
        obtain hle | hle := le_total s e.seq
        · exact .inr ⟨e, List.mem_cons_self, (max_eq_right hle).symm.trans (Option.some.inj hm)⟩
        · exact .inl ((congrArg some (max_eq_left hle)).symm.trans hm)
    · exact .inr ⟨e', List.mem_cons_of_mem e he', rfl⟩

theorem le_backlogMax (since : Option ChunkSeq) (l : List ResponseChunkEnvelope) :
    (∀ s ∈ since, ∃ t ∈ backlogMax since l, s ≤ t) ∧
      ∀ e ∈ l, ∃ t ∈ backlogMax since l, e.seq ≤ t := by
  induction l generalizing since with
  | nil => exact ⟨fun s hs => ⟨s, hs, Nat.le_refl s⟩, fun e he => by cases he⟩
  | cons e l ih =>
    obtain ⟨hfirst, hrest⟩ := ih (some (since.elim e.seq (max · e.seq)))
    obtain ⟨t, ht, hle⟩ := hfirst _ rfl
    have hboth : (∀ s ∈ since, s ≤ t) ∧ e.seq ≤ t := by
      cases since with
      | none => exact ⟨fun s hs => (by cases hs), hle⟩
      | some s =>
        refine ⟨fun s' hs => ?_, le_trans (le_max_right s e.seq) hle⟩
        cases hs
        exact le_trans (le_max_left s e.seq) hle
    refine ⟨fun s hs => ⟨t, ht, hboth.1 s hs⟩, fun e' he' => ?_⟩
    obtain rfl | he' := List.mem_cons.mp he'
    · exact ⟨t, ht, hboth.2⟩
    · exact hrest e' he'

theorem passes_eq_false {threshold : Option ChunkSeq} :
    passes threshold e = false ↔ ∃ t ∈ threshold, e.seq ≤ t := by
  cases threshold <;> simp [passes]

end Backlog

section Steps

variable {db : Db} {s t : Hub} {id : Uuid} {request : PromptRequestId} {chunk : ResponseChunk}
  {now : Time}

theorem slotClosed_touchSlot (id : PromptRequestId) (slots : Table StreamSlot) :
    slotClosed id (touchSlot id slots) = slotClosed id slots := by
  rw [slotClosed, touchSlot, Table.find?_addNew, slotClosed]
  cases slots.find? id with
  | some slot => rfl
  | none =>
    rw [Option.none_or]
    split <;> rfl

theorem touchSlot_isSome {slots : Table StreamSlot} {k : PromptRequestId} (id : PromptRequestId)
    (h : (slots.find? k).isSome) : ((touchSlot id slots).find? k).isSome := by
  rw [touchSlot, Table.find?_addNew, Option.isSome_or, h, Bool.true_or]

theorem touchSlot_self (slots : Table StreamSlot) (id : PromptRequestId) :
    ((touchSlot id slots).find? id).isSome := by
  rw [touchSlot, Table.find?_addNew, Option.isSome_or]
  simp [key]

theorem put_isSome {slots : Table StreamSlot} {k : PromptRequestId} (slot : StreamSlot)
    (h : (slots.find? k).isSome) : ((slots.put slot).find? k).isSome := by
  rw [Table.find?_put]
  split
  · rfl
  · exact h

theorem publish_cases (h : s.publish db id request chunk now = some t) :
    t = s ∨ ∃ rs p c, Published db request chunk s.responses rs c ∧ p.requestId = request ∧
      p.persisted.envelope = ⟨s.responses.nextSeq request, chunk⟩ ∧
      t = { s with responses := rs, publishes := s.publishes.put p } ∧
      s.publishes.find? p.id = none := by
  unfold Hub.publish at h
  split at h
  case isFalse => cases h
  case isTrue hfree =>
    split at h
    case h_2 => exact .inl (Option.some.inj h).symm
    case h_1 rs persisted hpub =>
      obtain ⟨c, hc⟩ := publishInTx_ok hpub
      refine .inr ⟨rs, ⟨id, request, persisted, .committed⟩, c, hc, rfl, ?_,
        (Option.some.inj h).symm, Option.isNone_iff_eq_none.mp hfree⟩
      rw [publishInTx_persisted hpub]

theorem acquire_cases (h : s.acquire id = some t) :
    ∃ p, s.publishes.find? id = some p ∧
      ((slotClosed p.requestId s.slots = false ∧ ∃ slots : Table StreamSlot,
          (∀ k, (s.slots.find? k).isSome → (slots.find? k).isSome) ∧
          t = { s with slots, publishes := s.publishes.put { p with pc := .sending } }) ∨
        (slotClosed p.requestId s.slots = true ∧
          t = { s with publishes := s.publishes.delete fun p => p.id = id })) := by
  obtain ⟨p, hp, h⟩ := Option.bind_eq_some_iff.mp h
  refine ⟨p, hp, ?_⟩
  cases hpc : p.pc with
  | sending => simp [hpc] at h
  | committed =>
    simp only [hpc, publishSender, slotClosed_touchSlot] at h
    cases hclosed : slotClosed p.requestId s.slots with
    | true =>
      rw [hclosed] at h
      exact .inr ⟨rfl, (Option.some.inj h).symm⟩
    | false =>
      rw [hclosed] at h
      refine .inl ⟨rfl, ?_⟩
      cases hterminal : p.persisted.terminal with
      | true =>
        rw [hterminal] at h
        exact ⟨_, fun k hk => put_isSome _ (touchSlot_isSome _ hk), (Option.some.inj h).symm⟩
      | false =>
        rw [hterminal] at h
        exact ⟨_, fun k hk => touchSlot_isSome _ hk, (Option.some.inj h).symm⟩

theorem send_cases (h : s.send id = some t) :
    ∃ p, s.publishes.find? id = some p ∧ p.pc = .sending ∧ t = { s with
      publishes := s.publishes.delete fun p => p.id = id
      subscribers := s.subscribers.modify (·.offer p.requestId p.persisted.envelope)
        (Subscriber.offer_key _ _) } := by
  obtain ⟨p, hp, h⟩ := Option.bind_eq_some_iff.mp h
  refine ⟨p, hp, ?_⟩
  cases hpc : p.pc with
  | committed => simp [hpc] at h
  | sending =>
    simp only [hpc, Option.some.injEq] at h
    exact ⟨rfl, h.symm⟩

theorem readBacklog_cases (h : s.readBacklog id = some t) :
    ∃ d ∈ s.subscribers, d.pc = .attached ∧
      t = { s with subscribers := s.subscribers.put (d.replay s.responses) } := by
  obtain ⟨d, hd, h⟩ := Option.bind_eq_some_iff.mp h
  refine ⟨d, Table.mem_of_find? hd, ?_⟩
  cases hpc : d.pc with
  | live threshold => simp [hpc] at h
  | attached =>
    simp only [hpc, Option.some.injEq] at h
    exact ⟨rfl, h.symm⟩

theorem poll_cases (h : s.poll id = some t) :
    ∃ d ∈ s.subscribers, ∃ threshold d', d.pc = .live threshold ∧ d.poll threshold = some d' ∧
      t = { s with subscribers := s.subscribers.put d' } := by
  obtain ⟨d, hd, h⟩ := Option.bind_eq_some_iff.mp h
  refine ⟨d, Table.mem_of_find? hd, ?_⟩
  cases hpc : d.pc with
  | attached => simp [hpc] at h
  | live threshold =>
    simp only [hpc] at h
    obtain ⟨d', hd', h⟩ := Option.map_eq_some_iff.mp h
    exact ⟨threshold, d', rfl, hd', h.symm⟩

end Steps

end Patom.Runtime
