import Patom.Runtime.Hub

open Patom.Foundation

namespace Patom.Runtime

/-- What the stream has yielded and what it will yield of what has reached it. -/
def Subscriber.given (d : Subscriber) (threshold : Option ChunkSeq) : List ResponseChunkEnvelope :=
  d.received ++ d.backlog ++ d.queue.filter (passes threshold)

def Subscriber.awaits (d : Subscriber) (p : Publish) : Bool :=
  d.requestId = p.requestId &&
    match d.pc with
    | .attached => false
    | .live threshold => passes threshold p.persisted.envelope

def Hub.InFlight (s : Hub) (id : PromptRequestId) (e : ResponseChunkEnvelope) : Prop :=
  ∃ p ∈ s.publishes, p.requestId = id ∧ p.persisted.envelope = e

def Hub.Ended (s : Hub) (d : Subscriber) : Prop :=
  d.backlog = [] ∧ d.queue = [] ∧ s.slots.find? d.requestId = none ∧
    ∀ p ∈ s.publishes, p.requestId = d.requestId → p.pc ≠ .sending

/-- The stream is the persisted chunks after `since` in their order; what it lacks of them is yet
to be fanned out. -/
structure Hub.Serves (s : Hub) (d : Subscriber) (threshold : Option ChunkSeq) : Prop where
  inOrder : d.given threshold <+: s.responses.backlog d.requestId d.since
  lossless : ∀ e ∈ s.responses.backlog d.requestId d.since,
    e ∈ d.given threshold ∨ s.InFlight d.requestId e
  ends : s.Ended d → ∃ e ∈ d.given threshold, e.chunk.isTerminal

def Delivered (s : Hub) : Prop :=
  ∀ d ∈ s.subscribers, ∀ threshold, d.pc = .live threshold → s.Serves d threshold

/-- No live stream is sent a chunk before an earlier one it awaits, or loses one to a closed
slot. -/
def FansOutInOrder (s : Hub) : HubAct → Prop
  | .acquire id => ∀ p ∈ s.publishes.find? id, slotClosed p.requestId s.slots →
      ∀ d ∈ s.subscribers, d.awaits p = false
  | .send id => ∀ p ∈ s.publishes.find? id, p.pc = .sending → ∀ d ∈ s.subscribers, d.awaits p →
      ∀ q ∈ s.publishes, d.awaits q →
        p.persisted.envelope.seq ≤ q.persisted.envelope.seq
  | _ => True

/-- Where a live stream stands between its replay and what is still to reach it. -/
structure Hub.Splices (s : Hub) (d : Subscriber) (threshold : Option ChunkSeq) : Prop where
  bounded : ∀ t ∈ threshold, d.since = some t ∨ t < s.responses.nextSeq d.requestId
  since : ∀ e, passes threshold e → d.since.all (· < e.seq)
  covered : ∀ e, s.responses.Holds d.requestId e → d.since.all (· < e.seq) →
    passes threshold e = false → e ∈ d.given threshold
  unsent : ∀ p ∈ s.publishes, p.requestId = d.requestId →
    passes threshold p.persisted.envelope → p.persisted.envelope ∉ d.given threshold

structure Hub.Tracks (s : Hub) (d : Subscriber) : Prop where
  queued : ∀ e ∈ d.queue, s.responses.Holds d.requestId e
  fresh : d.pc = .attached → d.received = []
  slotted : (s.slots.find? d.requestId).isSome
  spliced : ∀ threshold, d.pc = .live threshold → s.Splices d threshold

structure HubInv (s : Hub) : Prop where
  numbered : Numbered s.responses
  persisted : ∀ p ∈ s.publishes, s.responses.Holds p.requestId p.persisted.envelope
  distinct : ∀ p ∈ s.publishes, ∀ q ∈ s.publishes, p.requestId = q.requestId →
    p.persisted.envelope.seq = q.persisted.envelope.seq → p.id = q.id
  tracked : ∀ d ∈ s.subscribers, s.Tracks d

section Streams

variable {s t : Hub} {d d' : Subscriber} {p : Publish} {threshold : Option ChunkSeq}

theorem awaits_iff (hlive : d.pc = .live threshold) :
    d.awaits p ↔ p.requestId = d.requestId ∧ passes threshold p.persisted.envelope := by
  rw [Subscriber.awaits, hlive, Bool.and_eq_true, decide_eq_true_eq, eq_comm]

theorem live_of_awaits (h : d.awaits p) : ∃ threshold, d.pc = .live threshold := by
  cases hpc : d.pc with
  | attached => simp [Subscriber.awaits, hpc] at h
  | live threshold => exact ⟨threshold, rfl⟩

theorem poll_given (h : d.poll threshold = some d') :
    d'.id = d.id ∧ d'.requestId = d.requestId ∧ d'.since = d.since ∧ d'.pc = d.pc ∧
      d'.given threshold = d.given threshold ∧ ∀ e ∈ d'.queue, e ∈ d.queue := by
  unfold Subscriber.poll at h
  split at h
  case h_1 e backlog queue hbacklog =>
    cases h
    exact ⟨rfl, rfl, rfl, rfl, by simp [Subscriber.given, hbacklog], fun _ he => he⟩
  case h_2 e queue hbacklog hqueue =>
    cases h
    refine ⟨rfl, rfl, rfl, rfl, ?_, fun e' he' => by rw [hqueue]; exact List.mem_cons_of_mem e he'⟩
    simp only [Subscriber.given, hbacklog, hqueue, List.append_nil, List.filter_cons]
    split <;> simp
  case h_3 => cases h

section Offer

variable (request : PromptRequestId) (e : ResponseChunkEnvelope) (d)

@[simp] theorem offer_requestId : (d.offer request e).requestId = d.requestId := by
  unfold Subscriber.offer
  split <;> rfl

@[simp] theorem offer_since : (d.offer request e).since = d.since := by
  unfold Subscriber.offer
  split <;> rfl

@[simp] theorem offer_received : (d.offer request e).received = d.received := by
  unfold Subscriber.offer
  split <;> rfl

@[simp] theorem offer_pc : (d.offer request e).pc = d.pc := by
  unfold Subscriber.offer
  split <;> rfl

theorem mem_offer_queue {e' : ResponseChunkEnvelope} (h : e' ∈ (d.offer request e).queue) :
    e' ∈ d.queue ∨ d.requestId = request ∧ e' = e := by
  unfold Subscriber.offer at h
  split at h
  case isTrue hid =>
    obtain h | h := List.mem_append.mp h
    · exact .inl h
    · exact .inr ⟨hid, List.mem_singleton.mp h⟩
  case isFalse => exact .inl h

end Offer

theorem offer_given (hlive : d.pc = .live threshold) (p : Publish) :
    (d.offer p.requestId p.persisted.envelope).given threshold
      = if d.awaits p then d.given threshold ++ [p.persisted.envelope] else d.given threshold := by
  rw [Subscriber.offer]
  by_cases hid : d.requestId = p.requestId
  · rw [if_pos hid]
    have hawaits := awaits_iff (p := p) hlive
    cases hpass : passes threshold p.persisted.envelope <;>
      simp_all [Subscriber.given, List.filter_append]
  · rw [if_neg hid, if_neg fun h => hid ((awaits_iff hlive).mp h).1.symm]

theorem replay_given {rs : Responses} (hattached : d.received = [])
    (hqueue : ∀ e ∈ d.queue, rs.Holds d.requestId e) :
    (d.replay rs).given (backlogMax d.since (rs.backlog d.requestId d.since))
      = rs.backlog d.requestId d.since := by
  have hnone : (d.queue.filter (passes (backlogMax d.since (rs.backlog d.requestId d.since)))) = [] := by
    refine List.filter_eq_nil_iff.mpr fun e he => ?_
    rw [Bool.not_eq_true, passes_eq_false]
    by_cases hsince : d.since.all (· < e.seq) = true
    · exact (le_backlogMax _ _).2 e (mem_backlog.mpr ⟨hqueue e he, hsince⟩)
    · cases hs : d.since with
      | none => simp [hs] at hsince
      | some b =>
        obtain ⟨t, ht, hle⟩ := (le_backlogMax d.since (rs.backlog d.requestId d.since)).1 b hs
        refine ⟨t, by rwa [← hs], le_trans ?_ hle⟩
        simpa [hs] using hsince
  simp [Subscriber.given, Subscriber.replay, hattached, hnone]

end Streams

section Invariant

variable {db : Db} {s t : Hub} {threshold : Option ChunkSeq}

theorem Hub.Serves.of {d : Subscriber}
    (hpre : d.given threshold <+: s.responses.backlog d.requestId d.since)
    (hlossless : ∀ e ∈ s.responses.backlog d.requestId d.since,
      e ∈ d.given threshold ∨ s.InFlight d.requestId e)
    (hslot : (s.slots.find? d.requestId).isSome) : s.Serves d threshold := by
  refine ⟨hpre, hlossless, ?_⟩
  rintro ⟨-, -, hnone, -⟩
  simp [hnone] at hslot

theorem Hub.Serves.strict {d : Subscriber} (h : s.Serves d threshold) :
    (d.given threshold).Pairwise (·.seq < ·.seq) :=
  (backlog_strict ..).sublist h.inOrder.sublist

theorem HubInv.splices (h : HubInv s) {d : Subscriber} (hd : d ∈ s.subscribers)
    (hlive : d.pc = .live threshold) : s.Splices d threshold :=
  (h.tracked d hd).spliced threshold hlive

theorem hubInv_init : HubInv .init where
  numbered := numbered_empty
  persisted p hp := absurd hp (Table.not_mem_empty p)
  distinct p hp := absurd hp (Table.not_mem_empty p)
  tracked d hd := absurd hd (Table.not_mem_empty d)

theorem delivered_init : Delivered .init := fun d hd => absurd hd (Table.not_mem_empty d)

section Publish

variable {request : PromptRequestId} {chunk : ResponseChunk} {rs : Responses} {p : Publish}
  {c : PromptResponseChunk}

theorem HubInv.publish (h : HubInv s) (hP : Delivered s)
    (hpub : Published db request chunk s.responses rs c) (hrequest : p.requestId = request)
    (henvelope : p.persisted.envelope = ⟨s.responses.nextSeq request, chunk⟩) :
    HubInv { s with responses := rs, publishes := s.publishes.put p } where
  numbered := h.numbered.publish hpub
  persisted q hq := by
    obtain rfl | ⟨hq, -⟩ := Table.mem_put.mp hq
    · exact (hpub.holds _).mpr (.inr ⟨hrequest, henvelope⟩)
    · exact (hpub.holds _).mpr (.inl (h.persisted q hq))
  distinct q hq q' hq' hid hseq := by
    have hlater : ∀ r ∈ s.publishes, r.requestId = request →
        r.persisted.envelope.seq ≠ p.persisted.envelope.seq := by
      rintro r hr rfl
      rw [henvelope]
      exact (h.numbered.lt_of_holds (h.persisted r hr)).ne
    obtain rfl | ⟨hold, -⟩ := Table.mem_put.mp hq <;>
      obtain rfl | ⟨hold', -⟩ := Table.mem_put.mp hq'
    · rfl
    · exact absurd hseq.symm (hlater q' hold' (hid.symm.trans hrequest))
    · exact absurd hseq (hlater q hold (hid.trans hrequest))
    · exact h.distinct q hold q' hold' hid hseq
  tracked d hd := by
    have htrack := h.tracked d hd
    refine ⟨fun e he => (hpub.holds _).mpr (.inl (htrack.queued e he)), htrack.fresh,
      htrack.slotted, fun threshold hlive => ?_⟩
    have hsplice := htrack.spliced threshold hlive
    refine ⟨fun t ht => ?_, hsplice.since, fun e he hsince hpass => ?_, fun q hq hid hpass => ?_⟩
    · refine (hsplice.bounded t ht).imp id fun hlt => ?_
      rw [hpub.nextSeq]
      split
      case isTrue e =>
        rw [e] at hlt
        exact Nat.lt_succ_of_lt hlt
      case isFalse => exact hlt
    · obtain he | ⟨hid, rfl⟩ := (hpub.holds _).mp he
      · exact hsplice.covered e he hsince hpass
      · obtain ⟨t, ht, hle⟩ := passes_eq_false.mp hpass
        obtain hbegin | hlt := hsplice.bounded t ht
        · rw [hbegin] at hsince
          exact absurd (by simpa using hsince) (Nat.not_lt.mpr hle)
        · rw [hid] at hlt
          exact absurd hle (Nat.not_le.mpr hlt)
    · obtain rfl | ⟨hq, -⟩ := Table.mem_put.mp hq
      · intro hgiven
        have hheld := (mem_backlog.mp ((hP d hd threshold hlive).inOrder.subset hgiven)).1
        have hlt := h.numbered.lt_of_holds hheld
        rw [henvelope, ← hid, hrequest] at hlt
        exact lt_irrefl _ hlt
      · exact hsplice.unsent q hq hid hpass

theorem Delivered.publish (h : HubInv s) (hP : Delivered s)
    (hpub : Published db request chunk s.responses rs c) (hrequest : p.requestId = request)
    (henvelope : p.persisted.envelope = ⟨s.responses.nextSeq request, chunk⟩)
    (hfree : s.publishes.find? p.id = none) :
    Delivered { s with responses := rs, publishes := s.publishes.put p } := by
  intro d hd threshold hlive
  have hserves := hP d hd threshold hlive
  refine .of (hserves.inOrder.trans (hpub.backlog h.numbered _ _)) (fun e he => ?_)
    (h.tracked d hd).slotted
  obtain ⟨hheld, hsince⟩ := mem_backlog.mp he
  obtain hheld | ⟨hid, rfl⟩ := (hpub.holds _).mp hheld
  · refine (hserves.lossless e (mem_backlog.mpr ⟨hheld, hsince⟩)).imp id ?_
    rintro ⟨q, hq, hid, hq'⟩
    exact ⟨q, Table.mem_put.mpr (.inr ⟨hq, Table.find?_eq_none.mp hfree q hq⟩), hid, hq'⟩
  · exact .inr ⟨p, Table.mem_put.mpr (.inl rfl), hrequest.trans hid.symm, henvelope⟩

end Publish

section Fewer

variable {slots : Table StreamSlot} {publishes : Table Publish} {closing : Table StreamClose}

theorem HubInv.fewer (h : HubInv s)
    (hslots : ∀ k, (s.slots.find? k).isSome → (slots.find? k).isSome)
    (hpub : ∀ q ∈ publishes, ∃ q' ∈ s.publishes,
      q'.id = q.id ∧ q'.requestId = q.requestId ∧ q'.persisted = q.persisted) :
    HubInv { s with slots, publishes, closing } where
  numbered := h.numbered
  persisted q hq := by
    obtain ⟨q', hq', -, hrequest, hpersisted⟩ := hpub q hq
    rw [← hrequest, ← hpersisted]
    exact h.persisted q' hq'
  distinct q hq r hr hid hseq := by
    obtain ⟨q', hq', hqid, hqrequest, hqpersisted⟩ := hpub q hq
    obtain ⟨r', hr', hrid, hrrequest, hrpersisted⟩ := hpub r hr
    rw [← hqid, ← hrid]
    exact h.distinct q' hq' r' hr' (by rw [hqrequest, hrrequest, hid])
      (by rw [hqpersisted, hrpersisted, hseq])
  tracked d hd := by
    have htrack := h.tracked d hd
    refine ⟨htrack.queued, htrack.fresh, hslots _ htrack.slotted, fun threshold hlive => ?_⟩
    have hsplice := htrack.spliced threshold hlive
    refine ⟨hsplice.bounded, hsplice.since, hsplice.covered, fun q hq hid hpass => ?_⟩
    obtain ⟨q', hq', -, hrequest, hpersisted⟩ := hpub q hq
    rw [← hpersisted] at hpass ⊢
    exact hsplice.unsent q' hq' (hrequest.trans hid) hpass

theorem Delivered.fewer (h : HubInv s) (hP : Delivered s)
    (hslots : ∀ k, (s.slots.find? k).isSome → (slots.find? k).isSome)
    (hpub : ∀ q ∈ s.publishes, ∃ q' ∈ publishes,
      q'.requestId = q.requestId ∧ q'.persisted = q.persisted) :
    Delivered { s with slots, publishes, closing } := by
  intro d hd threshold hlive
  have hserves := hP d hd threshold hlive
  refine .of hserves.inOrder (fun e he => ?_) (hslots _ (h.tracked d hd).slotted)
  refine (hserves.lossless e he).imp id ?_
  rintro ⟨q, hq, hid, rfl⟩
  obtain ⟨q', hq', hrequest, hpersisted⟩ := hpub q hq
  exact ⟨q', hq', hrequest.trans hid, by rw [hpersisted]⟩

end Fewer

section Removal

variable {p : Publish} {d : Subscriber}

theorem HubInv.given_of_not_awaits (h : HubInv s) (hd : d ∈ s.subscribers)
    (hlive : d.pc = .live threshold) (hno : d.awaits p = false) (hid : p.requestId = d.requestId)
    (he : p.persisted.envelope ∈ s.responses.backlog d.requestId d.since) :
    p.persisted.envelope ∈ d.given threshold := by
  obtain ⟨hheld, hsince⟩ := mem_backlog.mp he
  refine (h.splices hd hlive).covered _ hheld hsince ?_
  rw [← Bool.not_eq_true] at hno ⊢
  exact fun hpass => hno ((awaits_iff hlive).mpr ⟨hid, hpass⟩)

theorem HubInv.mem_backlog_of_awaits (h : HubInv s) (hd : d ∈ s.subscribers)
    (hlive : d.pc = .live threshold) (hp : p ∈ s.publishes) (hawaits : d.awaits p) :
    p.persisted.envelope ∈ s.responses.backlog d.requestId d.since := by
  obtain ⟨hid, hpass⟩ := (awaits_iff hlive).mp hawaits
  refine mem_backlog.mpr ⟨?_, (h.splices hd hlive).since _ hpass⟩
  rw [← hid]
  exact h.persisted p hp

theorem HubInv.unsent (h : HubInv s) (hd : d ∈ s.subscribers) (hlive : d.pc = .live threshold)
    (hp : p ∈ s.publishes) (hawaits : d.awaits p) :
    p.persisted.envelope ∉ d.given threshold := by
  obtain ⟨hid, hpass⟩ := (awaits_iff hlive).mp hawaits
  exact (h.splices hd hlive).unsent p hp hid hpass

theorem HubInv.delete_distinct (h : HubInv s) (hp : p ∈ s.publishes) {q : Publish}
    (hq : q ∈ s.publishes.delete fun q => q.id = p.id) (hid : q.requestId = p.requestId) :
    q.persisted.envelope ≠ p.persisted.envelope := by
  obtain ⟨hq, hne⟩ := Table.mem_delete.mp hq
  intro e
  simp only [decide_eq_false_iff_not] at hne
  exact hne (h.distinct q hq p hp hid (by rw [e]))

theorem HubInv.delivered_drop_iff (h : HubInv s) (hP : Delivered s) (hp : p ∈ s.publishes) :
    Delivered { s with publishes := s.publishes.delete fun q => q.id = p.id } ↔
      ∀ d ∈ s.subscribers, d.awaits p = false := by
  constructor
  · intro hP' d hd
    rw [← Bool.not_eq_true]
    intro hawaits
    obtain ⟨threshold, hlive⟩ := live_of_awaits hawaits
    obtain hgiven | ⟨q, hq, hid, e⟩ := (hP' d hd threshold hlive).lossless _
      (h.mem_backlog_of_awaits hd hlive hp hawaits)
    · exact h.unsent hd hlive hp hawaits hgiven
    · exact h.delete_distinct hp hq (hid.trans ((awaits_iff hlive).mp hawaits).1.symm) e
  · intro hno d hd threshold hlive
    have hserves := hP d hd threshold hlive
    refine .of hserves.inOrder (fun e he => ?_) (h.tracked d hd).slotted
    obtain hgiven | ⟨q, hq, hid, rfl⟩ := hserves.lossless e he
    · exact .inl hgiven
    · by_cases hqp : q.id = p.id
      · obtain rfl : q = p := Table.eq_of_key_eq hq hp hqp
        exact .inl (h.given_of_not_awaits hd hlive (hno d hd) hid he)
      · exact .inr ⟨q, Table.mem_delete.mpr ⟨hq, by simpa using hqp⟩, hid, rfl⟩

end Removal

section Send

variable {p : Publish}

theorem mem_sent_subscribers {d' : Subscriber} : d' ∈ (s.sent p).subscribers ↔
    ∃ d ∈ s.subscribers, d.offer p.requestId p.persisted.envelope = d' := by
  rw [Hub.sent, Table.mem_modify]

theorem HubInv.splices_sent (h : HubInv s) (hp : p ∈ s.publishes) {d : Subscriber}
    (hd : d ∈ s.subscribers) (hlive : d.pc = .live threshold) :
    (s.sent p).Splices (d.offer p.requestId p.persisted.envelope) threshold := by
  have hsplice := h.splices hd hlive
  constructor
  case bounded =>
    rw [offer_since, offer_requestId]
    exact hsplice.bounded
  case since => simpa only [offer_since] using hsplice.since
  case covered =>
    intro e he hsince hpass
    rw [offer_requestId] at he
    rw [offer_since] at hsince
    have hgiven := hsplice.covered e he hsince hpass
    rw [offer_given hlive]
    split
    · exact List.mem_append_left _ hgiven
    · exact hgiven
  case unsent =>
    intro q hq hid hpass
    rw [offer_requestId] at hid
    have hold := hsplice.unsent q (Table.mem_delete.mp hq).1 hid hpass
    rw [offer_given hlive]
    split
    case isTrue hawaits =>
      have hpid := ((awaits_iff hlive).mp hawaits).1
      rw [List.mem_append, List.mem_singleton, not_or]
      exact ⟨hold, h.delete_distinct hp hq (hid.trans hpid.symm)⟩
    case isFalse => exact hold

theorem HubInv.sent (h : HubInv s) (hp : p ∈ s.publishes) : HubInv (s.sent p) where
  numbered := h.numbered
  persisted q hq := h.persisted q (Table.mem_delete.mp hq).1
  distinct q hq r hr := h.distinct q (Table.mem_delete.mp hq).1 r (Table.mem_delete.mp hr).1
  tracked d' hd' := by
    obtain ⟨d, hd, rfl⟩ := mem_sent_subscribers.mp hd'
    have htrack := h.tracked d hd
    refine ⟨fun e he => ?_, ?_, ?_, fun threshold hlive => ?_⟩
    · rw [offer_requestId]
      obtain he | ⟨hid, rfl⟩ := mem_offer_queue _ _ _ he
      · exact htrack.queued e he
      · rw [hid]
        exact h.persisted p hp
    · rw [offer_pc, offer_received]
      exact htrack.fresh
    · rw [offer_requestId]
      exact htrack.slotted
    · rw [offer_pc] at hlive
      exact h.splices_sent hp hd hlive

theorem HubInv.serves_sent_iff (h : HubInv s) (hP : Delivered s) (hp : p ∈ s.publishes)
    {d : Subscriber} (hd : d ∈ s.subscribers) (hlive : d.pc = .live threshold) :
    (s.sent p).Serves (d.offer p.requestId p.persisted.envelope) threshold ↔
      (d.awaits p → ∀ q ∈ s.publishes, d.awaits q →
        p.persisted.envelope.seq ≤ q.persisted.envelope.seq) := by
  have hserves := hP d hd threshold hlive
  have hstrict := backlog_strict s.responses d.requestId d.since
  constructor
  · intro hserves' hawaits q hq hawaits'
    have hpre := hserves'.inOrder
    rw [offer_given hlive, if_pos hawaits, offer_requestId, offer_since] at hpre
    have hbefore := (prefix_snoc_iff hstrict hserves.inOrder
      (h.mem_backlog_of_awaits hd hlive hp hawaits) (h.unsent hd hlive hp hawaits)).mp hpre
    by_contra hlt
    exact h.unsent hd hlive hq hawaits'
      (hbefore _ (h.mem_backlog_of_awaits hd hlive hq hawaits') (Nat.not_le.mp hlt))
  · intro hfirst
    refine .of ?_ (fun e he => ?_) (by rw [offer_requestId]; exact (h.tracked d hd).slotted)
    · rw [offer_given hlive, offer_requestId, offer_since]
      split
      case isTrue hawaits =>
        refine (prefix_snoc_iff hstrict hserves.inOrder
          (h.mem_backlog_of_awaits hd hlive hp hawaits) (h.unsent hd hlive hp hawaits)).mpr ?_
        intro e he hlt
        obtain hgiven | ⟨q, hq, hid, rfl⟩ := hserves.lossless e he
        · exact hgiven
        · refine h.given_of_not_awaits hd hlive ?_ hid he
          rw [← Bool.not_eq_true]
          exact fun hawaits' => absurd (hfirst hawaits q hq hawaits') (Nat.not_le.mpr hlt)
      case isFalse => exact hserves.inOrder
    · rw [offer_requestId, offer_since] at he
      rw [offer_given hlive, offer_requestId]
      obtain hgiven | ⟨q, hq, hid, rfl⟩ := hserves.lossless e he
      · left
        split
        · exact List.mem_append_left _ hgiven
        · exact hgiven
      · by_cases hqp : q.id = p.id
        · obtain rfl : q = p := Table.eq_of_key_eq hq hp hqp
          left
          split
          case isTrue => exact List.mem_append_right _ (List.mem_singleton.mpr rfl)
          case isFalse hno =>
            exact h.given_of_not_awaits hd hlive (Bool.not_eq_true _ ▸ hno) hid he
        · exact .inr ⟨q, Table.mem_delete.mpr ⟨hq, by simpa using hqp⟩, hid, rfl⟩

theorem HubInv.delivered_sent_iff (h : HubInv s) (hP : Delivered s) (hp : p ∈ s.publishes) :
    Delivered (s.sent p) ↔ ∀ d ∈ s.subscribers, d.awaits p → ∀ q ∈ s.publishes, d.awaits q →
      p.persisted.envelope.seq ≤ q.persisted.envelope.seq := by
  constructor
  · intro hP' d hd hawaits
    obtain ⟨threshold, hlive⟩ := live_of_awaits hawaits
    have hd' : d.offer p.requestId p.persisted.envelope ∈ (s.sent p).subscribers :=
      mem_sent_subscribers.mpr ⟨d, hd, rfl⟩
    refine (h.serves_sent_iff hP hp hd hlive).mp (hP' _ hd' threshold ?_) hawaits
    rw [offer_pc, hlive]
  · intro hfirst d' hd' threshold hlive
    obtain ⟨d, hd, rfl⟩ := mem_sent_subscribers.mp hd'
    rw [offer_pc] at hlive
    exact (h.serves_sent_iff hP hp hd hlive).mpr (hfirst d hd)

end Send

section Subscribers

variable {slots : Table StreamSlot} {subscribers : Table Subscriber} {d d' : Subscriber} {id : Uuid}
  {request : PromptRequestId} {since : Option ChunkSeq}

theorem Hub.Tracks.frame (h : s.Tracks d) (hslot : (slots.find? d.requestId).isSome) :
    Hub.Tracks { s with slots, subscribers } d := by
  refine ⟨h.queued, h.fresh, hslot, fun threshold hlive => ?_⟩
  have hsplice := h.spliced threshold hlive
  exact ⟨hsplice.bounded, hsplice.since, hsplice.covered, hsplice.unsent⟩

theorem Hub.Serves.frame (h : s.Serves d threshold) (hslot : (slots.find? d.requestId).isSome) :
    Hub.Serves { s with slots, subscribers } d threshold :=
  .of h.inOrder h.lossless hslot

theorem HubInv.fewerSubscribers (h : HubInv s) (hsub : ∀ d ∈ subscribers, d ∈ s.subscribers) :
    HubInv { s with subscribers } where
  numbered := h.numbered
  persisted := h.persisted
  distinct := h.distinct
  tracked d hd := (h.tracked d (hsub d hd)).frame (h.tracked d (hsub d hd)).slotted

theorem HubInv.put (h : HubInv s) (hslots : ∀ k, (s.slots.find? k).isSome → (slots.find? k).isSome)
    (hd : Hub.Tracks { s with slots, subscribers := s.subscribers.put d } d) :
    HubInv { s with slots, subscribers := s.subscribers.put d } where
  numbered := h.numbered
  persisted := h.persisted
  distinct := h.distinct
  tracked x hx := by
    obtain rfl | ⟨hx, -⟩ := Table.mem_put.mp hx
    · exact hd
    · exact (h.tracked x hx).frame (hslots _ (h.tracked x hx).slotted)

theorem Delivered.put (h : HubInv s) (hP : Delivered s)
    (hslots : ∀ k, (s.slots.find? k).isSome → (slots.find? k).isSome)
    (hd : ∀ threshold, d.pc = .live threshold →
      Hub.Serves { s with slots, subscribers := s.subscribers.put d } d threshold) :
    Delivered { s with slots, subscribers := s.subscribers.put d } := by
  intro x hx threshold hlive
  obtain rfl | ⟨hx, -⟩ := Table.mem_put.mp hx
  · exact hd threshold hlive
  · exact (hP x hx threshold hlive).frame (hslots _ (h.tracked x hx).slotted)

theorem Hub.tracks_subscribe : Hub.Tracks
    { s with slots := touchSlot request s.slots, subscribers }
    ⟨id, request, since, .attached, [], [], []⟩ where
  queued _ he := nomatch he
  fresh _ := rfl
  slotted := touchSlot_self s.slots request
  spliced _ hlive := nomatch hlive

theorem HubInv.tracks_replay (h : HubInv s) (hd : d ∈ s.subscribers) (hpc : d.pc = .attached) :
    s.Tracks (d.replay s.responses) := by
  have htrack := h.tracked d hd
  refine ⟨htrack.queued, (fun h => nomatch h), htrack.slotted, fun threshold hlive => ?_⟩
  cases hlive
  have hgiven := replay_given (htrack.fresh hpc) htrack.queued
  obtain ⟨hbegin, hrest⟩ := le_backlogMax d.since (s.responses.backlog d.requestId d.since)
  constructor
  case bounded =>
    refine fun t ht => (mem_backlogMax ht).imp id ?_
    rintro ⟨e, he, rfl⟩
    exact h.numbered.lt_of_holds (mem_backlog.mp he).1
  case since =>
    intro e hpass
    refine (Option.all_eq_true _ _).mpr fun b hb => decide_eq_true (Nat.lt_of_not_le fun hle => ?_)
    obtain ⟨t, ht, hle'⟩ := hbegin b hb
    rw [passes_eq_false.mpr ⟨t, ht, le_trans hle hle'⟩] at hpass
    cases hpass
  case covered =>
    intro e he hsince _
    rw [hgiven]
    exact mem_backlog.mpr ⟨he, hsince⟩
  case unsent =>
    intro p _ _ hpass
    rw [hgiven]
    intro he
    rw [passes_eq_false.mpr (hrest _ he)] at hpass
    cases hpass

theorem HubInv.serves_replay (h : HubInv s) (hd : d ∈ s.subscribers) (hpc : d.pc = .attached)
    (hlive : (d.replay s.responses).pc = .live threshold) :
    s.Serves (d.replay s.responses) threshold := by
  cases hlive
  have hgiven := replay_given ((h.tracked d hd).fresh hpc) (h.tracked d hd).queued
  refine .of ?_ (fun e he => .inl ?_) (h.tracked d hd).slotted
  · rw [hgiven]
    exact List.prefix_rfl
  · rw [hgiven]
    exact he

theorem HubInv.tracks_poll (h : HubInv s) (hd : d ∈ s.subscribers) (hlive : d.pc = .live threshold)
    (hpoll : d.poll threshold = some d') : s.Tracks d' := by
  obtain ⟨-, hrequest, hsince, hpc, hgiven, hqueue⟩ := poll_given hpoll
  have htrack := h.tracked d hd
  refine ⟨fun e he => ?_, fun h => ?_, ?_, fun threshold' hlive' => ?_⟩
  · rw [hrequest]
    exact htrack.queued e (hqueue e he)
  · rw [hpc, hlive] at h
    cases h
  · rw [hrequest]
    exact htrack.slotted
  · rw [hpc, hlive] at hlive'
    cases hlive'
    have hsplice := htrack.spliced threshold hlive
    constructor
    case bounded =>
      rw [hsince, hrequest]
      exact hsplice.bounded
    case since =>
      rw [hsince]
      exact hsplice.since
    case covered =>
      rw [hrequest, hsince, hgiven]
      exact hsplice.covered
    case unsent =>
      rw [hrequest, hgiven]
      exact hsplice.unsent

theorem HubInv.serves_poll (h : HubInv s) (hP : Delivered s) (hd : d ∈ s.subscribers)
    (hlive : d.pc = .live threshold) (hpoll : d.poll threshold = some d') :
    s.Serves d' threshold := by
  obtain ⟨-, hrequest, hsince, -, hgiven, -⟩ := poll_given hpoll
  have hserves := hP d hd threshold hlive
  refine .of ?_ (fun e he => ?_) (by rw [hrequest]; exact (h.tracked d hd).slotted)
  · rw [hgiven, hrequest, hsince]
    exact hserves.inOrder
  · rw [hrequest, hsince] at he
    rw [hgiven, hrequest]
    exact hserves.lossless e he

end Subscribers

section Step

theorem find?_markClosed_isSome {slots : Table StreamSlot} {k : PromptRequestId}
    (id : PromptRequestId) (h : (slots.find? k).isSome) :
    ((markClosed id slots).find? k).isSome :=
  put_isSome _ (touchSlot_isSome id h)

theorem HubInv.close (h : HubInv s) (request : PromptRequestId) (closing : Table StreamClose) :
    HubInv { s with responses := closeInTx db request s.responses, closing } where
  numbered := h.numbered.close db request
  persisted p hp := (holds_closeInTx ..).mpr (h.persisted p hp)
  distinct := h.distinct
  tracked d hd := by
    have htrack := h.tracked d hd
    refine ⟨fun e he => (holds_closeInTx ..).mpr (htrack.queued e he), htrack.fresh,
      htrack.slotted, fun threshold hlive => ?_⟩
    have hsplice := htrack.spliced threshold hlive
    refine ⟨fun t ht => ?_, hsplice.since, fun e he => ?_, hsplice.unsent⟩
    · rw [closeInTx_nextSeq]
      exact hsplice.bounded t ht
    · exact hsplice.covered e ((holds_closeInTx ..).mp he)

theorem Delivered.close (h : HubInv s) (hP : Delivered s) (request : PromptRequestId)
    (closing : Table StreamClose) :
    Delivered { s with responses := closeInTx db request s.responses, closing } := by
  intro d hd threshold hlive
  have hserves := hP d hd threshold hlive
  refine .of ?_ (fun e he => ?_) (h.tracked d hd).slotted
  · rw [backlog_closeInTx]
    exact hserves.inOrder
  · rw [backlog_closeInTx] at he
    exact hserves.lossless e he

theorem publishes_acquired {p : Publish} (hp : p ∈ s.publishes) (pc : PublishPc) :
    (∀ q ∈ s.publishes.put { p with pc }, ∃ q' ∈ s.publishes,
        q'.id = q.id ∧ q'.requestId = q.requestId ∧ q'.persisted = q.persisted) ∧
      ∀ q ∈ s.publishes, ∃ q' ∈ s.publishes.put { p with pc },
        q'.requestId = q.requestId ∧ q'.persisted = q.persisted := by
  constructor
  · intro q hq
    obtain rfl | ⟨hq, -⟩ := Table.mem_put.mp hq
    · exact ⟨p, hp, rfl, rfl, rfl⟩
    · exact ⟨q, hq, rfl, rfl, rfl⟩
  · intro q hq
    by_cases hid : q.id = p.id
    · obtain rfl : q = p := Table.eq_of_key_eq hq hp hid
      exact ⟨_, Table.mem_put.mpr (.inl rfl), rfl, rfl⟩
    · exact ⟨q, Table.mem_put.mpr (.inr ⟨hq, hid⟩), rfl, rfl⟩

theorem HubInv.acquire (h : HubInv s) (hP : Delivered s) {id : Uuid} (e : s.acquire id = some t) :
    HubInv t ∧ (Delivered t ↔ FansOutInOrder s (.acquire id)) := by
  obtain ⟨p, hfind, ⟨hopen, slots, hslots, rfl⟩ | ⟨hclosed, rfl⟩⟩ := acquire_cases e
  · have hp := Table.mem_of_find? hfind
    obtain ⟨hdown, hup⟩ := publishes_acquired hp .sending
    refine ⟨h.fewer hslots hdown, iff_of_true (hP.fewer h hslots hup) ?_⟩
    intro q hq hqclosed
    cases hfind.symm.trans hq
    rw [hopen] at hqclosed
    cases hqclosed
  · have hp := Table.mem_of_find? hfind
    obtain rfl : p.id = id := Table.key_of_find? hfind
    refine ⟨h.fewer (fun _ hk => hk) fun q hq => ⟨q, (Table.mem_delete.mp hq).1, rfl, rfl, rfl⟩, ?_⟩
    rw [h.delivered_drop_iff hP hp]
    constructor
    · intro hno q hq _
      cases hfind.symm.trans hq
      exact hno
    · exact fun hguard => hguard p hfind hclosed

theorem HubInv.send (h : HubInv s) (hP : Delivered s) {id : Uuid} (e : s.send id = some t) :
    HubInv t ∧ (Delivered t ↔ FansOutInOrder s (.send id)) := by
  obtain ⟨p, hfind, hpc, rfl⟩ := send_cases e
  have hp := Table.mem_of_find? hfind
  obtain rfl : p.id = id := Table.key_of_find? hfind
  refine ⟨h.sent hp, (h.delivered_sent_iff hP hp).trans ?_⟩
  constructor
  · intro hfirst q hq _
    cases hfind.symm.trans hq
    exact hfirst
  · exact fun hguard => hguard p hfind hpc

theorem HubInv.step (h : HubInv s) (hP : Delivered s) {a : HubAct} (e : hubStep db s a = some t) :
    HubInv t ∧ (Delivered t ↔ FansOutInOrder s a) := by
  cases a with
  | publish id request chunk now =>
    obtain rfl | ⟨rs, p, c, hpub, hrequest, henvelope, rfl, hfree⟩ := publish_cases e
    · exact ⟨h, iff_of_true hP trivial⟩
    · exact ⟨h.publish hP hpub hrequest henvelope,
        iff_of_true (hP.publish h hpub hrequest henvelope hfree) trivial⟩
  | acquire id => exact h.acquire hP e
  | send id => exact h.send hP e
  | close id request =>
    simp only [hubStep, Option.ite_none_right_eq_some, Option.some.injEq] at e
    obtain ⟨-, rfl⟩ := e
    exact ⟨h.close request _, iff_of_true (hP.close h request _) trivial⟩
  | markClosed id =>
    obtain ⟨c, -, rfl⟩ := Option.map_eq_some_iff.mp e
    have hslots : ∀ k, (s.slots.find? k).isSome →
        ((markClosed c.requestId s.slots).find? k).isSome :=
      fun _ hk => find?_markClosed_isSome c.requestId hk
    exact ⟨h.fewer hslots fun q hq => ⟨q, hq, rfl, rfl, rfl⟩,
      iff_of_true (hP.fewer h hslots fun q hq => ⟨q, hq, rfl, rfl⟩) trivial⟩
  | subscribe id request since =>
    simp only [hubStep, Hub.subscribe, Option.ite_none_right_eq_some, Option.some.injEq] at e
    obtain ⟨-, rfl⟩ := e
    have hslots : ∀ k, (s.slots.find? k).isSome →
        ((touchSlot request s.slots).find? k).isSome :=
      fun _ hk => touchSlot_isSome request hk
    exact ⟨h.put hslots Hub.tracks_subscribe,
      iff_of_true (hP.put h hslots fun _ hlive => nomatch hlive) trivial⟩
  | readBacklog id =>
    obtain ⟨d, hd, hpc, rfl⟩ := readBacklog_cases e
    have htrack := h.tracks_replay hd hpc
    refine ⟨h.put (fun _ hk => hk) (htrack.frame htrack.slotted), iff_of_true ?_ trivial⟩
    exact hP.put h (fun _ hk => hk) fun _ hlive =>
      (h.serves_replay hd hpc hlive).frame htrack.slotted
  | poll id =>
    obtain ⟨d, hd, threshold, d', hlive, hpoll, rfl⟩ := poll_cases e
    have htrack := h.tracks_poll hd hlive hpoll
    refine ⟨h.put (fun _ hk => hk) (htrack.frame htrack.slotted), iff_of_true ?_ trivial⟩
    refine hP.put h (fun _ hk => hk) fun threshold' hlive' => ?_
    rw [(poll_given hpoll).2.2.2.1, hlive] at hlive'
    cases hlive'
    exact (h.serves_poll hP hd hlive hpoll).frame htrack.slotted
  | unsubscribe id =>
    cases e
    have hsub : ∀ d ∈ s.subscribers.delete (·.id = id), d ∈ s.subscribers :=
      fun d hd => (Table.mem_delete.mp hd).1
    refine ⟨h.fewerSubscribers hsub, iff_of_true (fun d hd threshold hlive => ?_) trivial⟩
    exact (hP d (hsub d hd) threshold hlive).frame (h.tracked d (hsub d hd)).slotted

end Step

/-- Every subscriber of every run is given the chunks of its request in their order and none is
lost to it, exactly when every fan-out is in order. -/
theorem delivered_iff_fans_out_in_order (db : Db) (as : List HubAct) :
    Always (hubStep db) Delivered .init as ↔ Steps (hubStep db) FansOutInOrder .init as :=
  always_iff_steps HubInv (fun _ _ _ h hP e _ => (h.step hP e).1)
    (fun _ _ _ h hP e => (h.step hP e).2) hubInv_init delivered_init as

end Invariant

namespace Sample

def asked : PromptRequest :=
  { id := 5, orgId := 1, idempotencyKey := ⟨"ask", by decide, by decide⟩, status := .processing
    attempts := 1, turnSeq := 1, cancellationRequested := false, failureReason := none
    senderColleagueId := 2, receiverColleagueId := 1, rootRequestId := 5, kind := .normal
    kindPayload := .normal, threadId := some 3, stateId := some 9, backgroundTurnId := none
    triggerMessageId := some 4, actingUserId := none, createdAt := 0, updatedAt := 0
    claimKeyXor := by decide }

def asking : Db := ⟨.single asked, .empty, .empty, .empty⟩

def persisting : List HubAct :=
  [.subscribe 1 5 none, .readBacklog 1, .publish 2 5 (.text "a") 0, .publish 3 5 (.done "a") 0]

def overtaken : List HubAct :=
  persisting ++ [.acquire 2, .acquire 3, .send 3, .send 2, .poll 1, .poll 1]

def shutOut : List HubAct :=
  persisting ++ [.acquire 3, .send 3, .acquire 2, .poll 1]

end Sample

/-- A later chunk overtakes an earlier one on its way to the slot; a terminal one shuts it out. -/
theorem delivered_overtaken :
    (∃ s, run (hubStep Sample.asking) .init Sample.overtaken = some s ∧
      ∃ d ∈ s.subscribers, d.received.map (·.seq) = [1, 0]) ∧
    (∃ s, run (hubStep Sample.asking) .init Sample.shutOut = some s ∧ s.publishes.rows = [] ∧
      (s.responses.backlog 5 none).map (·.seq) = [0, 1] ∧
      ∃ d ∈ s.subscribers, d.received.map (·.seq) = [1] ∧ d.queue = []) ∧
    ¬Always (hubStep Sample.asking) Delivered .init Sample.overtaken := by
  have hover : ∃ s ∈ run (hubStep Sample.asking) .init Sample.overtaken,
      ∃ d ∈ s.subscribers.rows, d.received.map (·.seq) = [1, 0] ∧ d.pc = .live none ∧
        (d.given none).map (·.seq) = [1, 0] := by
    decide +kernel
  have hshut : ∃ s ∈ run (hubStep Sample.asking) .init Sample.shutOut, s.publishes.rows = [] ∧
      (s.responses.backlog 5 none).map (·.seq) = [0, 1] ∧
      ∃ d ∈ s.subscribers.rows, d.received.map (·.seq) = [1] ∧ d.queue = [] := by
    decide +kernel
  obtain ⟨s, hrun, d, hd, hreceived, hlive, hgiven⟩ := hover
  refine ⟨⟨s, hrun, d, hd, hreceived⟩, hshut, fun h => ?_⟩
  have hstrict := List.pairwise_map.mpr (h.run hrun d hd none hlive).strict
  rw [hgiven] at hstrict
  exact absurd hstrict (by decide)

end Patom.Runtime
