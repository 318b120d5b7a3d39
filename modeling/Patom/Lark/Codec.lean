import Mathlib.Data.Finset.Card
import Mathlib.Data.List.Nodup
import Mathlib.Tactic

namespace Patom.Lark

abbrev Bytes := List UInt8

def LARK_FRAME_REASSEMBLY_MAX : Nat := 64
def LARK_FRAME_MAX_FRAGMENTS : Nat := 256

def HEADER_MESSAGE_ID : String := "message_id"
def HEADER_SUM : String := "sum"
def HEADER_SEQ : String := "seq"

inductive Pbbp2Error
  | badFragment (sum seq : Int)
  | missingHeader (key : String)
  deriving DecidableEq

structure Header where
  key : String
  value : String

structure Frame where
  headers : List Header
  payload : Bytes

def parseI64 (text : List Char) : Option Int :=
  let negative := text.head? = some '-'
  let digits := if negative ∨ text.head? = some '+' then text.tail else text
  if digits ≠ [] ∧ digits.all Char.isDigit then
    let n : Nat := digits.foldl (fun n c => 10 * n + (c.toNat - 48)) 0
    let n : Int := if negative then -n else n
    if -9223372036854775808 ≤ n ∧ n ≤ 9223372036854775807 then some n else none
  else none

namespace Frame

variable (f : Frame)

def header (key : String) : Option String := (f.headers.find? (·.key = key)).map Header.value

def headerInt (key : String) : Option Int := (f.header key).bind fun v => parseI64 v.toList

def messageId : Option String := f.header HEADER_MESSAGE_ID

end Frame

structure Partial where
  messageId : String
  sum : Nat
  fragments : List (Option Bytes)
  filled : Nat
  deriving DecidableEq

structure Reassembler where
  partials : List Partial
  deriving DecidableEq

def Reassembler.new : Reassembler := ⟨[]⟩

def Partial.new (messageId : String) (sum : Nat) : Partial :=
  ⟨messageId, sum, List.replicate sum none, 0⟩

/-- A slice that is there already is left as it is. -/
def Partial.record (seq : Nat) (payload : Bytes) (p : Partial) : Partial :=
  if p.fragments[seq]? = some none then
    { p with fragments := p.fragments.set seq (some payload), filled := p.filled + 1 }
  else p

def Partial.payload (p : Partial) : Bytes := (p.fragments.filterMap id).flatten

namespace Reassembler

variable (r : Reassembler)

/-- A new message at the back of the queue, the oldest evicted when it is full. -/
def openNew (messageId : String) (sum : Nat) : List Partial :=
  (if LARK_FRAME_REASSEMBLY_MAX ≤ r.partials.length then r.partials.tail else r.partials) ++
    [.new messageId sum]

def locate (messageId : String) (sum : Nat) : List Partial × Partial × Nat :=
  match r.partials.findFinIdx? (·.messageId = messageId) with
  | some idx => (r.partials, r.partials.get idx, idx)
  | none => (r.openNew messageId sum, .new messageId sum, (r.openNew messageId sum).length - 1)

def acceptFragment (messageId : String) (sum seq : Nat) (payload : Bytes) :
    Except Pbbp2Error (Option Bytes) × Reassembler :=
  let (partials, p, idx) := r.locate messageId sum
  if p.sum ≠ sum then (.error (.badFragment sum seq), ⟨partials.eraseIdx idx⟩)
  else
    let p := p.record seq payload
    if p.filled < p.sum then (.ok none, ⟨partials.set idx p⟩)
    else (.ok (some p.payload), ⟨partials.eraseIdx idx⟩)

def accept (f : Frame) : Except Pbbp2Error (Option Bytes) × Reassembler :=
  let sum := (f.headerInt HEADER_SUM).getD 1
  let seq := (f.headerInt HEADER_SEQ).getD 0
  if sum ≤ 1 then (.ok (some f.payload), r)
  else if LARK_FRAME_MAX_FRAGMENTS < sum ∨ seq < 0 ∨ sum ≤ seq then (.error (.badFragment sum seq), r)
  else
    match f.messageId with
    | none => (.error (.missingHeader HEADER_MESSAGE_ID), r)
    | some messageId => r.acceptFragment messageId sum.toNat seq.toNat f.payload

end Reassembler

structure Fragment where
  messageId : String
  sum : Nat
  seq : Nat
  deriving DecidableEq

def Frame.fragment? (f : Frame) : Option Fragment :=
  let sum := (f.headerInt HEADER_SUM).getD 1
  let seq := (f.headerInt HEADER_SEQ).getD 0
  if sum ≤ 1 ∨ LARK_FRAME_MAX_FRAGMENTS < sum ∨ seq < 0 ∨ sum ≤ seq then none
  else f.messageId.map fun messageId => ⟨messageId, sum.toNat, seq.toNat⟩

variable {r : Reassembler} {f : Frame} {g : Fragment}

theorem fragment_bounds (h : f.fragment? = some g) : 1 < g.sum ∧ g.seq < g.sum := by
  simp only [Frame.fragment?, Option.ite_none_left_eq_some, Option.map_eq_some_iff] at h
  obtain ⟨hvalid, messageId, -, rfl⟩ := h
  dsimp only
  omega

theorem accept_fragment (h : f.fragment? = some g) :
    r.accept f = r.acceptFragment g.messageId g.sum g.seq f.payload := by
  simp only [Frame.fragment?, Option.ite_none_left_eq_some, Option.map_eq_some_iff] at h
  obtain ⟨hvalid, messageId, hid, rfl⟩ := h
  rw [not_or] at hvalid
  rw [Reassembler.accept, if_neg hvalid.1, if_neg hvalid.2, hid]

theorem accept_whole (h : f.fragment? = none) :
    (r.accept f).2 = r ∧ ((r.accept f).1 = .ok (some f.payload) ∨ ∃ e, (r.accept f).1 = .error e) := by
  unfold Reassembler.accept
  dsimp only
  split
  · exact ⟨rfl, .inl rfl⟩
  · split
    · exact ⟨rfl, .inr ⟨_, rfl⟩⟩
    · next hone hvalid =>
      rw [Frame.fragment?, if_neg (not_or.mpr ⟨hone, hvalid⟩), Option.map_eq_none_iff] at h
      rw [h]
      exact ⟨rfl, .inr ⟨_, rfl⟩⟩

section Record

variable {p : Partial} {seq : Nat} {payload : Bytes}

@[simp] theorem record_messageId : (p.record seq payload).messageId = p.messageId := by
  unfold Partial.record
  split <;> rfl

@[simp] theorem record_sum : (p.record seq payload).sum = p.sum := by
  unfold Partial.record
  split <;> rfl

structure Partial.Counts (p : Partial) : Prop where
  length : p.fragments.length = p.sum
  filled : p.filled = p.fragments.countP Option.isSome

theorem Partial.Counts.new (messageId : String) (sum : Nat) : (Partial.new messageId sum).Counts where
  length := List.length_replicate
  filled := by simp [Partial.new, List.countP_replicate]

theorem Partial.Counts.record (h : p.Counts) : (p.record seq payload).Counts := by
  unfold Partial.record
  split
  · next hnone =>
    obtain ⟨hlt, hget⟩ := List.getElem?_eq_some_iff.mp hnone
    refine ⟨(List.length_set).trans h.length, ?_⟩
    rw [List.countP_set hlt, hget, h.filled]
    rfl
  · exact h

theorem Partial.Counts.filled_le (h : p.Counts) : p.filled ≤ p.sum := by
  rw [h.filled, ← h.length]
  exact List.countP_le_length

def Partial.Holds (p : Partial) (seq : Nat) : Prop := ∃ b, p.fragments[seq]? = some (some b)

theorem Partial.Holds.record (h : p.Holds seq') : (p.record seq payload).Holds seq' := by
  obtain ⟨b, hb⟩ := h
  unfold Partial.record
  split
  · next hnone =>
    refine ⟨b, ?_⟩
    rw [List.getElem?_set_ne, hb]
    rintro rfl
    cases hnone.symm.trans hb
  · exact ⟨b, hb⟩

theorem holds_record (h : p.Counts) (hseq : seq < p.sum) : (p.record seq payload).Holds seq := by
  have hlt : seq < p.fragments.length := h.length ▸ hseq
  unfold Partial.record
  split
  · exact ⟨payload, List.getElem?_set_self hlt⟩
  · next hsome =>
    rw [List.getElem?_eq_getElem hlt, Option.some.injEq] at hsome
    obtain ⟨b, hb⟩ := Option.ne_none_iff_exists'.mp hsome
    exact ⟨b, by rw [List.getElem?_eq_getElem hlt, hb]⟩

theorem Partial.Counts.complete (h : p.Counts) : p.filled = p.sum ↔ ∀ seq < p.sum, p.Holds seq := by
  rw [h.filled, ← h.length, List.countP_eq_length]
  constructor
  · intro hall seq hseq
    obtain ⟨b, hb⟩ := Option.isSome_iff_exists.mp (hall _ (List.getElem_mem hseq))
    exact ⟨b, by rw [List.getElem?_eq_getElem hseq, hb]⟩
  · intro hall o ho
    obtain ⟨seq, hseq, rfl⟩ := List.getElem_of_mem ho
    obtain ⟨b, hb⟩ := hall seq hseq
    rw [List.getElem?_eq_getElem hseq, Option.some.injEq] at hb
    rw [hb]
    rfl

variable {bytes : Nat → Bytes}

theorem Partial.Counts.payload_eq (h : p.Counts) (hfull : p.filled = p.sum)
    (hbytes : ∀ seq b, p.fragments[seq]? = some (some b) → b = bytes seq) :
    p.payload = ((List.range p.sum).map bytes).flatten := by
  have hfragments : p.fragments = (List.range p.sum).map (some ∘ bytes) := by
    refine List.ext_getElem (by simp [h.length]) fun seq hseq _ => ?_
    obtain ⟨b, hb⟩ := h.complete.mp hfull seq (h.length ▸ hseq)
    rw [List.getElem?_eq_getElem hseq, Option.some.injEq] at hb
    rw [hb, hbytes seq b (by rw [List.getElem?_eq_getElem hseq, hb])]
    simp
  rw [Partial.payload, hfragments, List.filterMap_map]
  simp [Function.comp_def]

theorem bytes_record (h : ∀ seq b, p.fragments[seq]? = some (some b) → b = bytes seq)
    (hpayload : payload = bytes seq) {seq' : Nat} {b : Bytes}
    (hb : (p.record seq payload).fragments[seq']? = some (some b)) : b = bytes seq' := by
  unfold Partial.record at hb
  split at hb
  · next hnone =>
    by_cases e : seq = seq'
    · subst e
      rw [List.getElem?_set_self (List.getElem?_eq_some_iff.mp hnone).1] at hb
      cases hb
      exact hpayload
    · rw [List.getElem?_set_ne e] at hb
      exact h seq' b hb
  · exact h seq' b hb

end Record

section Locate

variable {messageId : String} {sum seq : Nat} {payload : Bytes}

def Reassembler.kept (r : Reassembler) : List Partial :=
  if LARK_FRAME_REASSEMBLY_MAX ≤ r.partials.length then r.partials.tail else r.partials

theorem kept_sublist : r.kept.Sublist r.partials := by
  unfold Reassembler.kept
  split
  · exact List.tail_sublist _
  · exact .refl _

theorem length_kept (h : r.partials.length ≤ LARK_FRAME_REASSEMBLY_MAX) :
    r.kept.length < LARK_FRAME_REASSEMBLY_MAX := by
  unfold Reassembler.kept
  split
  · rw [List.length_tail]
    have : 0 < LARK_FRAME_REASSEMBLY_MAX := by decide
    omega
  · omega

inductive Located (r : Reassembler) (messageId : String) (sum : Nat) :
    List Partial → Partial → List Partial → Prop
  | found {older newer : List Partial} {p : Partial} (h : r.partials = older ++ p :: newer)
      (hid : p.messageId = messageId) : Located r messageId sum older p newer
  | opened (h : ∀ p ∈ r.partials, p.messageId ≠ messageId) :
      Located r messageId sum r.kept (.new messageId sum) []

variable (r messageId sum) in
theorem locate_located : ∃ older p newer, Located r messageId sum older p newer ∧
    r.locate messageId sum = (older ++ p :: newer, p, older.length) := by
  unfold Reassembler.locate
  split
  · next idx hidx =>
    obtain ⟨hid, -⟩ := List.findFinIdx?_eq_some_iff.mp hidx
    have hsplit : r.partials = r.partials.take idx ++ r.partials.get idx :: r.partials.drop (idx + 1) := by
      rw [List.get_eq_getElem, List.getElem_cons_drop, List.take_append_drop]
    refine ⟨_, _, _, .found hsplit (of_decide_eq_true hid), ?_⟩
    rw [← hsplit, List.length_take_of_le idx.isLt.le]
  · next hnone =>
    rw [List.findFinIdx?_eq_none_iff] at hnone
    refine ⟨_, _, _, .opened fun p hp => by simpa using hnone p hp, ?_⟩
    rw [Reassembler.openNew, List.length_append]
    rfl

theorem Located.messageId_eq {older newer : List Partial} {p : Partial}
    (h : Located r messageId sum older p newer) : p.messageId = messageId := by
  cases h with
  | found _ hid => exact hid
  | opened => rfl

variable (r messageId sum seq payload) in
theorem acceptFragment_cases : ∃ older p newer, Located r messageId sum older p newer ∧
    (p.sum ≠ sum ∧ r.acceptFragment messageId sum seq payload =
        (.error (.badFragment sum seq), ⟨older ++ newer⟩) ∨
      p.sum = sum ∧ (p.record seq payload).filled < p.sum ∧
        r.acceptFragment messageId sum seq payload =
          (.ok none, ⟨older ++ p.record seq payload :: newer⟩) ∨
      p.sum = sum ∧ p.sum ≤ (p.record seq payload).filled ∧
        r.acceptFragment messageId sum seq payload =
          (.ok (some (p.record seq payload).payload), ⟨older ++ newer⟩)) := by
  obtain ⟨older, p, newer, hlocated, hlocate⟩ := locate_located r messageId sum
  refine ⟨older, p, newer, hlocated, ?_⟩
  have herase : (older ++ p :: newer).eraseIdx older.length = older ++ newer := by
    rw [List.eraseIdx_append_of_length_le (Nat.le_refl _), Nat.sub_self]
    rfl
  have hset : ∀ p', (older ++ p :: newer).set older.length p' = older ++ p' :: newer := by simp
  rw [Reassembler.acceptFragment, hlocate]
  simp only [record_sum, herase, hset]
  by_cases hsum : p.sum = sum
  · rw [if_neg (not_not.mpr hsum)]
    by_cases hfilled : (p.record seq payload).filled < p.sum
    · rw [if_pos hfilled]
      exact .inr (.inl ⟨hsum, hfilled, rfl⟩)
    · rw [if_neg hfilled]
      exact .inr (.inr ⟨hsum, Nat.le_of_not_lt hfilled, rfl⟩)
  · rw [if_pos hsum]
    exact .inl ⟨hsum, rfl⟩

end Locate

section Buffer

structure Reassembler.WellFormed (r : Reassembler) : Prop where
  ids : (r.partials.map Partial.messageId).Nodup
  counts : ∀ p ∈ r.partials, p.Counts
  waits : ∀ p ∈ r.partials, p.filled < p.sum
  bounded : r.partials.length ≤ LARK_FRAME_REASSEMBLY_MAX

theorem wellFormed_new : Reassembler.new.WellFormed where
  ids := .nil
  counts _ hp := absurd hp List.not_mem_nil
  waits _ hp := absurd hp List.not_mem_nil
  bounded := Nat.zero_le _

variable {messageId : String} {sum : Nat} {older newer : List Partial} {p : Partial}

theorem Located.others (h : Located r messageId sum older p newer) {q : Partial}
    (hq : q ∈ older ++ newer) : q ∈ r.partials := by
  cases h with
  | found h =>
    rw [h]
    simp only [List.mem_append, List.mem_cons] at hq ⊢
    tauto
  | opened =>
    rw [List.append_nil] at hq
    exact kept_sublist.subset hq

theorem Located.counts (h : Located r messageId sum older p newer) (hr : r.WellFormed) : p.Counts := by
  cases h with
  | found h => exact hr.counts p (by simp [h])
  | opened => exact .new messageId sum

theorem Located.nodup (h : Located r messageId sum older p newer) (hr : r.WellFormed) :
    ((older ++ p :: newer).map Partial.messageId).Nodup := by
  cases h with
  | found h => exact h ▸ hr.ids
  | opened h =>
    rw [List.map_append, List.nodup_append]
    refine ⟨hr.ids.sublist (kept_sublist.map _), List.nodup_singleton _, fun a ha b hb e => ?_⟩
    obtain ⟨q, hq, rfl⟩ := List.mem_map.mp ha
    exact h q (kept_sublist.subset hq) (e.trans (List.mem_singleton.mp hb))

theorem Located.length_le (h : Located r messageId sum older p newer) (hr : r.WellFormed) :
    (older ++ p :: newer).length ≤ LARK_FRAME_REASSEMBLY_MAX := by
  cases h with
  | found h => exact h ▸ hr.bounded
  | opened =>
    rw [List.length_append]
    exact length_kept hr.bounded

theorem Located.remove (h : Located r messageId sum older p newer) (hr : r.WellFormed) :
    (⟨older ++ newer⟩ : Reassembler).WellFormed where
  ids := (h.nodup hr).sublist (((List.Sublist.refl older).append (List.sublist_cons_self p newer)).map _)
  counts q hq := hr.counts q (h.others hq)
  waits q hq := hr.waits q (h.others hq)
  bounded := by
    have hlen := h.length_le hr
    simp only [List.length_append, List.length_cons] at hlen ⊢
    omega

theorem Located.replace (h : Located r messageId sum older p newer) (hr : r.WellFormed) {p' : Partial}
    (hid : p'.messageId = p.messageId) (hcounts : p'.Counts) (hwaits : p'.filled < p'.sum) :
    (⟨older ++ p' :: newer⟩ : Reassembler).WellFormed := by
  have hmem : ∀ q ∈ older ++ p' :: newer, q = p' ∨ q ∈ r.partials := by
    intro q hq
    simp only [List.mem_append, List.mem_cons] at hq
    obtain hq | rfl | hq := hq
    · exact .inr (h.others (List.mem_append_left _ hq))
    · exact .inl rfl
    · exact .inr (h.others (List.mem_append_right _ hq))
  exact {
    ids := by
      have hnodup := h.nodup hr
      rwa [List.map_append, List.map_cons, ← hid, ← List.map_cons, ← List.map_append] at hnodup
    counts := fun q hq => by
      obtain rfl | hq := hmem q hq
      · exact hcounts
      · exact hr.counts q hq
    waits := fun q hq => by
      obtain rfl | hq := hmem q hq
      · exact hwaits
      · exact hr.waits q hq
    bounded := by
      have hlen := h.length_le hr
      simpa using hlen }

theorem Reassembler.WellFormed.accept (hr : r.WellFormed) (f : Frame) : (r.accept f).2.WellFormed := by
  cases hg : f.fragment? with
  | none => rwa [(accept_whole hg).1]
  | some g =>
    rw [accept_fragment hg]
    obtain ⟨older, p, newer, h, ⟨-, e⟩ | ⟨-, hfilled, e⟩ | ⟨-, -, e⟩⟩ :=
      acceptFragment_cases r g.messageId g.sum g.seq f.payload
    · rw [e]
      exact h.remove hr
    · rw [e]
      exact h.replace hr record_messageId (h.counts hr).record (by rwa [record_sum])
    · rw [e]
      exact h.remove hr

end Buffer

section Content

variable (sumOf : String → Nat) (bytes : String → Nat → Bytes)

/-- The fragments of a message agree on how many they are and on what each of them is. -/
def Agrees (f : Frame) : Prop :=
  ∀ g ∈ f.fragment?, g.sum = sumOf g.messageId ∧ f.payload = bytes g.messageId g.seq

def message (messageId : String) : Bytes :=
  ((List.range (sumOf messageId)).map (bytes messageId)).flatten

def Frame.whole (f : Frame) : Bytes :=
  match f.fragment? with
  | some g => message sumOf bytes g.messageId
  | none => f.payload

structure Partial.Faithful (p : Partial) : Prop where
  sum : p.sum = sumOf p.messageId
  bytes : ∀ seq b, p.fragments[seq]? = some (some b) → b = bytes p.messageId seq

variable {sumOf bytes} {messageId : String} {sum : Nat} {older newer : List Partial} {p : Partial}

theorem Located.faithful (h : Located r messageId sum older p newer) (hsum : sum = sumOf messageId)
    (hr : ∀ p ∈ r.partials, p.Faithful sumOf bytes) : p.Faithful sumOf bytes := by
  cases h with
  | found h => exact hr p (by simp [h])
  | opened =>
    refine ⟨hsum, fun seq b hb => ?_⟩
    rw [Partial.new, List.getElem?_replicate] at hb
    split at hb <;> cases hb

theorem Partial.Faithful.record (h : p.Faithful sumOf bytes) {seq : Nat} {payload : Bytes}
    (hpayload : payload = bytes p.messageId seq) : (p.record seq payload).Faithful sumOf bytes where
  sum := by rw [record_sum, record_messageId, h.sum]
  bytes seq' b hb := by
    rw [record_messageId]
    exact bytes_record h.bytes hpayload hb

theorem accept_cases (hr : r.WellFormed) (hfaithful : ∀ p ∈ r.partials, p.Faithful sumOf bytes)
    (hagrees : Agrees sumOf bytes f) (hg : f.fragment? = some g) : ∃ older p newer,
      Located r g.messageId g.sum older p newer ∧ p.Counts ∧ p.Faithful sumOf bytes ∧ p.sum = g.sum ∧
      ((p.record g.seq f.payload).filled < g.sum ∧
          r.accept f = (.ok none, ⟨older ++ p.record g.seq f.payload :: newer⟩) ∨
        (p.record g.seq f.payload).filled = g.sum ∧
          r.accept f = (.ok (some (message sumOf bytes g.messageId)), ⟨older ++ newer⟩)) := by
  obtain ⟨hsum, hpayload⟩ := hagrees g hg
  rw [accept_fragment hg]
  obtain ⟨older, p, newer, h, hcases⟩ :=
    acceptFragment_cases r g.messageId g.sum g.seq f.payload
  have hp := h.faithful hsum hfaithful
  have hpsum : p.sum = g.sum := by rw [hp.sum, h.messageId_eq, hsum]
  have hcounts := h.counts hr
  refine ⟨older, p, newer, h, hcounts, hp, hpsum, ?_⟩
  obtain ⟨hne, -⟩ | ⟨-, hfilled, e⟩ | ⟨-, hfilled, e⟩ := hcases
  · exact absurd hpsum hne
  · exact .inl ⟨hpsum ▸ hfilled, e⟩
  · have hrecord : (p.record g.seq f.payload).Faithful sumOf bytes :=
      hp.record (by rw [h.messageId_eq, hpayload])
    have hle := hcounts.record.filled_le (p := p.record g.seq f.payload)
    rw [record_sum] at hle
    have hfull : (p.record g.seq f.payload).filled = p.sum := Nat.le_antisymm hle hfilled
    refine .inr ⟨hfull.trans hpsum, ?_⟩
    rw [e, hcounts.record.payload_eq (by rw [record_sum, hfull]) hrecord.bytes, record_sum, hp.sum,
      record_messageId, h.messageId_eq]
    rfl

theorem faithful_accept (hr : r.WellFormed) (hfaithful : ∀ p ∈ r.partials, p.Faithful sumOf bytes)
    (hagrees : Agrees sumOf bytes f) : ∀ p ∈ (r.accept f).2.partials, p.Faithful sumOf bytes := by
  cases hg : f.fragment? with
  | none => rwa [(accept_whole hg).1]
  | some g =>
    obtain ⟨older, p, newer, h, -, hp, -, ⟨-, e⟩ | ⟨-, e⟩⟩ := accept_cases hr hfaithful hagrees hg
    · rw [e]
      intro q hq
      simp only [List.mem_append, List.mem_cons] at hq
      obtain hq | rfl | hq := hq
      · exact hfaithful q (h.others (List.mem_append_left _ hq))
      · exact hp.record (by rw [h.messageId_eq, (hagrees g hg).2])
      · exact hfaithful q (h.others (List.mem_append_right _ hq))
    · rw [e]
      exact fun q hq => hfaithful q (h.others hq)

theorem accept_returns (hr : r.WellFormed) (hfaithful : ∀ p ∈ r.partials, p.Faithful sumOf bytes)
    (hagrees : Agrees sumOf bytes f) {payload : Bytes} (h : (r.accept f).1 = .ok (some payload)) :
    payload = f.whole sumOf bytes := by
  unfold Frame.whole
  cases hg : f.fragment? with
  | none =>
    obtain e | ⟨e', e⟩ := (accept_whole hg (r := r)).2
    · cases e.symm.trans h
      rfl
    · cases e.symm.trans h
  | some g =>
    obtain ⟨_, _, _, -, -, -, -, ⟨-, e⟩ | ⟨-, e⟩⟩ := accept_cases hr hfaithful hagrees hg
    · rw [e] at h
      cases h
    · rw [e] at h
      cases h
      rfl

end Content

section Stream

/-- The reassembler, and the messages of which a fragment was accepted since they were last
returned, whether or not it is still held. -/
structure Tracked where
  reassembler : Reassembler
  incomplete : Finset String

def Tracked.new : Tracked := ⟨.new, ∅⟩

def Tracked.accept (t : Tracked) (f : Frame) : Tracked where
  reassembler := (t.reassembler.accept f).2
  incomplete :=
    match f.fragment?, (t.reassembler.accept f).1 with
    | some g, .ok none => insert g.messageId t.incomplete
    | some g, .ok (some _) => t.incomplete.erase g.messageId
    | _, _ => t.incomplete

def feed (frames : List Frame) : Tracked := frames.foldl .accept .new

def outcome (frames : List Frame) (f : Frame) : Except Pbbp2Error (Option Bytes) :=
  ((feed frames).reassembler.accept f).1

theorem feed_snoc (frames : List Frame) (f : Frame) : feed (frames ++ [f]) = (feed frames).accept f := by
  rw [feed, List.foldl_append]
  rfl

variable (sumOf : String → Nat) (bytes : String → Nat → Bytes)

structure TrackedInv (t : Tracked) : Prop where
  buffer : t.reassembler.WellFormed
  faithful : ∀ p ∈ t.reassembler.partials, p.Faithful sumOf bytes
  listed : ∀ p ∈ t.reassembler.partials, p.messageId ∈ t.incomplete

variable {sumOf bytes} {t : Tracked}

theorem trackedInv_new : TrackedInv sumOf bytes .new where
  buffer := wellFormed_new
  faithful _ hp := absurd hp List.not_mem_nil
  listed _ hp := absurd hp List.not_mem_nil

theorem accept_incomplete_none (hg : f.fragment? = some g)
    (h : (t.reassembler.accept f).1 = .ok none) :
    (t.accept f).incomplete = insert g.messageId t.incomplete := by
  simp only [Tracked.accept, hg, h]

theorem accept_incomplete_some (hg : f.fragment? = some g) {payload : Bytes}
    (h : (t.reassembler.accept f).1 = .ok (some payload)) :
    (t.accept f).incomplete = t.incomplete.erase g.messageId := by
  simp only [Tracked.accept, hg, h]

theorem TrackedInv.accept (h : TrackedInv sumOf bytes t) (hagrees : Agrees sumOf bytes f) :
    TrackedInv sumOf bytes (t.accept f) where
  buffer := h.buffer.accept f
  faithful := faithful_accept h.buffer h.faithful hagrees
  listed := by
    cases hg : f.fragment? with
    | none =>
      intro p hp
      rw [Tracked.accept, (accept_whole hg).1] at hp
      simpa only [Tracked.accept, hg] using h.listed p hp
    | some g =>
      obtain ⟨older, p, newer, hl, -, -, -, ⟨-, e⟩ | ⟨-, e⟩⟩ :=
        accept_cases h.buffer h.faithful hagrees hg
      · intro q hq
        rw [accept_incomplete_none hg (by rw [e])]
        rw [Tracked.accept, e] at hq
        simp only [List.mem_append, List.mem_cons] at hq
        obtain hq | rfl | hq := hq
        · exact Finset.mem_insert_of_mem (h.listed q (hl.others (List.mem_append_left _ hq)))
        · rw [record_messageId, hl.messageId_eq]
          exact Finset.mem_insert_self _ _
        · exact Finset.mem_insert_of_mem (h.listed q (hl.others (List.mem_append_right _ hq)))
      · intro q hq
        rw [accept_incomplete_some hg (by rw [e])]
        rw [Tracked.accept, e] at hq
        refine Finset.mem_erase.mpr ⟨fun hid => ?_, h.listed q (hl.others hq)⟩
        have hnodup := hl.nodup h.buffer
        rw [List.map_append, List.map_cons, List.nodup_middle, List.nodup_cons, ← List.map_append,
          hl.messageId_eq] at hnodup
        exact hnodup.1 (List.mem_map.mpr ⟨q, hq, hid⟩)

theorem trackedInv_feed {frames : List Frame} (h : ∀ f ∈ frames, Agrees sumOf bytes f) :
    TrackedInv sumOf bytes (feed frames) := by
  induction frames using List.reverseRecOn with
  | nil => exact trackedInv_new
  | append_singleton frames f ih =>
    rw [feed_snoc]
    exact (ih fun f' hf' => h f' (List.mem_append_left _ hf')).accept (h f (by simp))

theorem filled_record_le {p : Partial} {seq : Nat} {payload : Bytes} :
    (p.record seq payload).filled ≤ p.filled + 1 := by
  unfold Partial.record
  split
  · exact Nat.le_refl _
  · exact Nat.le_succ _

theorem length_lt_of_opened (h : TrackedInv sumOf bytes t) (hg : f.fragment? = some g)
    (hnew : ∀ p ∈ t.reassembler.partials, p.messageId ≠ g.messageId)
    (hnone : (t.reassembler.accept f).1 = .ok none)
    (hcard : (t.accept f).incomplete.card ≤ LARK_FRAME_REASSEMBLY_MAX) :
    t.reassembler.partials.length < LARK_FRAME_REASSEMBLY_MAX := by
  have hids : g.messageId ∉ t.reassembler.partials.map Partial.messageId := fun hid => by
    obtain ⟨p, hp, e⟩ := List.mem_map.mp hid
    exact hnew p hp e
  have hsub : (g.messageId :: t.reassembler.partials.map Partial.messageId).toFinset ⊆
      insert g.messageId t.incomplete := by
    intro id hid
    rw [List.toFinset_cons] at hid
    refine Finset.insert_subset_insert _ (fun id hid => ?_) hid
    obtain ⟨p, hp, rfl⟩ := List.mem_map.mp (List.mem_toFinset.mp hid)
    exact h.listed p hp
  have hle := Finset.card_le_card hsub
  rw [List.toFinset_card_of_nodup (List.nodup_cons.mpr ⟨hids, h.buffer.ids⟩), List.length_cons,
    List.length_map, ← accept_incomplete_none hg hnone] at hle
  exact hle.trans hcard

def Present (r : Reassembler) (messageId : String) (seq : Nat) : Prop :=
  ∃ p ∈ r.partials, p.messageId = messageId ∧ p.Holds seq

theorem Present.accept (h : TrackedInv sumOf bytes t) (hagrees : Agrees sumOf bytes f)
    (hcard : (t.accept f).incomplete.card ≤ LARK_FRAME_REASSEMBLY_MAX) {messageId : String} {seq : Nat}
    (hpresent : Present t.reassembler messageId seq)
    (hnot : ∀ g ∈ f.fragment?, g.messageId = messageId → ∀ payload,
      (t.reassembler.accept f).1 ≠ .ok (some payload)) :
    Present (t.accept f).reassembler messageId seq := by
  obtain ⟨q, hq, rfl, hholds⟩ := hpresent
  cases hg : f.fragment? with
  | none =>
    rw [Tracked.accept, (accept_whole hg).1]
    exact ⟨q, hq, rfl, hholds⟩
  | some g =>
    obtain ⟨older, p, newer, hl, -, -, -, ⟨hfilled, e⟩ | ⟨hfilled, e⟩⟩ :=
      accept_cases h.buffer h.faithful hagrees hg
    · rw [Tracked.accept, e]
      have hmem : q = p ∨ q ∈ older ++ newer := by
        cases hl with
        | found hsplit =>
          rw [hsplit] at hq
          simp only [List.mem_append, List.mem_cons] at hq ⊢
          tauto
        | opened hnew =>
          have hlt := length_lt_of_opened h hg hnew (by rw [e]) hcard
          rw [Reassembler.kept, if_neg (Nat.not_le_of_lt hlt)]
          exact .inr (List.mem_append_left _ hq)
      obtain rfl | hmem := hmem
      · refine ⟨q.record g.seq f.payload, ?_, record_messageId, hholds.record⟩
        exact List.mem_append_right _ List.mem_cons_self
      · refine ⟨q, ?_, rfl, hholds⟩
        simp only [List.mem_append, List.mem_cons] at hmem ⊢
        tauto
    · rw [Tracked.accept, e]
      have hother : g.messageId ≠ q.messageId := fun hid => hnot g hg hid _ (by rw [e])
      refine ⟨q, ?_, rfl, hholds⟩
      cases hl with
      | found hsplit hid =>
        rw [hsplit] at hq
        simp only [List.mem_append, List.mem_cons] at hq ⊢
        obtain hq | rfl | hq := hq
        · exact .inl hq
        · exact absurd hid.symm hother
        · exact .inr hq
      | opened =>
        have hle : (Partial.record g.seq f.payload (.new g.messageId g.sum)).filled ≤ 1 := filled_record_le
        rw [hfilled] at hle
        exact absurd (fragment_bounds hg).1 (Nat.not_lt_of_le hle)

theorem present_recorded (h : TrackedInv sumOf bytes t) (hagrees : Agrees sumOf bytes f)
    (hg : f.fragment? = some g)
    (hnot : ∀ payload, (t.reassembler.accept f).1 ≠ .ok (some payload)) :
    Present (t.accept f).reassembler g.messageId g.seq := by
  obtain ⟨older, p, newer, hl, hcounts, -, hsum, ⟨-, e⟩ | ⟨-, e⟩⟩ :=
    accept_cases h.buffer h.faithful hagrees hg
  · rw [Tracked.accept, e]
    refine ⟨p.record g.seq f.payload, List.mem_append_right _ List.mem_cons_self, ?_, ?_⟩
    · rw [record_messageId, hl.messageId_eq]
    · exact holds_record hcounts (hsum ▸ (fragment_bounds hg).2)
  · exact absurd (by rw [e]) (hnot _)

theorem accept_completes (h : TrackedInv sumOf bytes t) (hagrees : Agrees sumOf bytes f)
    (hg : f.fragment? = some g)
    (hall : ∀ seq < g.sum, seq = g.seq ∨ Present t.reassembler g.messageId seq) :
    (t.reassembler.accept f).1 = .ok (some (message sumOf bytes g.messageId)) := by
  obtain ⟨older, p, newer, hl, hcounts, -, hsum, ⟨hfilled, -⟩ | ⟨-, e⟩⟩ :=
    accept_cases h.buffer h.faithful hagrees hg
  · have hholds : ∀ seq < p.sum, (p.record g.seq f.payload).Holds seq := by
      intro seq hseq
      obtain rfl | ⟨q, hq, hid, hholds⟩ := hall seq (hsum ▸ hseq)
      · exact holds_record hcounts hseq
      · cases hl with
        | found hsplit hpid =>
          have hmem : p ∈ t.reassembler.partials := by simp [hsplit]
          obtain rfl := List.inj_on_of_nodup_map h.buffer.ids hq hmem (hid.trans hpid.symm)
          exact hholds.record
        | opened hnew => exact absurd hid (hnew q hq)
    have hfull := hcounts.record.complete.mpr (by rwa [record_sum] : ∀ seq < (p.record g.seq f.payload).sum, _)
    rw [record_sum, hsum] at hfull
    exact absurd hfull hfilled.ne
  · rw [e]

/-- What a stream of frames is put together to. -/
structure Reassembles (sumOf : String → Nat) (bytes : String → Nat → Bytes) (frames : List Frame) :
    Prop where
  payload : ∀ before f, before ++ [f] <+: frames → ∀ payload,
    outcome before f = .ok (some payload) → payload = f.whole sumOf bytes
  returned : ∀ before window f, before ++ window ++ [f] <+: frames →
    (∀ w, w <+: window → w ≠ [] →
      (feed (before ++ w)).incomplete.card ≤ LARK_FRAME_REASSEMBLY_MAX) →
    ∀ g, f.fragment? = some g →
    (∀ seq < g.sum, ∃ f' ∈ window ++ [f], f'.fragment? = some { g with seq }) →
    (∀ w f', w ++ [f'] <+: window → ∀ g' ∈ f'.fragment?, g'.messageId = g.messageId → ∀ payload,
      outcome (before ++ w) f' ≠ .ok (some payload)) →
    outcome (before ++ window) f = .ok (some (message sumOf bytes g.messageId))
  buffer : (feed frames).reassembler.WellFormed

theorem present_window {before window : List Frame} {messageId : String} {seq : Nat}
    (hagrees : ∀ f ∈ before ++ window, Agrees sumOf bytes f)
    (hcard : ∀ w, w <+: window → w ≠ [] →
      (feed (before ++ w)).incomplete.card ≤ LARK_FRAME_REASSEMBLY_MAX)
    (hnot : ∀ w f, w ++ [f] <+: window → ∀ g ∈ f.fragment?, g.messageId = messageId → ∀ payload,
      outcome (before ++ w) f ≠ .ok (some payload))
    (harrived : ∃ f ∈ window, ∃ g ∈ f.fragment?, g.messageId = messageId ∧ g.seq = seq) :
    Present (feed (before ++ window)).reassembler messageId seq := by
  induction window using List.reverseRecOn with
  | nil =>
    obtain ⟨f, hf, -⟩ := harrived
    cases hf
  | append_singleton window f ih =>
    have hinv : TrackedInv sumOf bytes (feed (before ++ window)) :=
      trackedInv_feed fun f' hf' => hagrees f' (by
        rw [← List.append_assoc]
        exact List.mem_append_left _ hf')
    have hf : Agrees sumOf bytes f := hagrees f (by simp)
    have hlast := hnot window f List.prefix_rfl
    have hfeed : feed (before ++ (window ++ [f])) = (feed (before ++ window)).accept f := by
      rw [← List.append_assoc, feed_snoc]
    rw [hfeed]
    obtain ⟨f', hf', g, hg, hid, hseq⟩ := harrived
    obtain hf' | hf' := List.mem_append.mp hf'
    · have hpresent := ih (fun f'' hf'' => hagrees f'' (by
          rw [← List.append_assoc]
          exact List.mem_append_left _ hf''))
        (fun w hw => hcard w (hw.trans (List.prefix_append _ _)))
        (fun w f'' hw => hnot w f'' (hw.trans (List.prefix_append _ _))) ⟨f', hf', g, hg, hid, hseq⟩
      refine hpresent.accept hinv hf ?_ hlast
      rw [← hfeed]
      exact hcard _ List.prefix_rfl (by simp)
    · obtain rfl := List.mem_singleton.mp hf'
      subst hid hseq
      exact present_recorded hinv hf hg (hlast g hg rfl)

end Stream

theorem reassembles {sumOf : String → Nat} {bytes : String → Nat → Bytes} {frames : List Frame}
    (h : ∀ f ∈ frames, Agrees sumOf bytes f) : Reassembles sumOf bytes frames where
  payload before f hpre payload hout := by
    have hinv : TrackedInv sumOf bytes (feed before) :=
      trackedInv_feed fun f' hf' => h f' (hpre.subset (List.mem_append_left _ hf'))
    exact accept_returns hinv.buffer hinv.faithful (h f (hpre.subset (by simp))) hout
  returned before window f hpre hcard g hg hall hnot := by
    have hmem : ∀ f' ∈ before ++ window, Agrees sumOf bytes f' := fun f' hf' =>
      h f' (hpre.subset (List.mem_append_left _ hf'))
    refine accept_completes (trackedInv_feed hmem) (h f (hpre.subset (by simp))) hg fun seq hseq => ?_
    obtain ⟨f', hf', hg'⟩ := hall seq hseq
    obtain hf' | hf' := List.mem_append.mp hf'
    · exact .inr (present_window hmem hcard hnot ⟨f', hf', _, hg', rfl, rfl⟩)
    · obtain rfl := List.mem_singleton.mp hf'
      exact .inl (congrArg Fragment.seq (Option.some.inj (hg'.symm.trans hg)))
  buffer := (trackedInv_feed h).buffer

namespace Sample

def part (seq : String) (payload : Bytes) : Frame :=
  ⟨[⟨HEADER_MESSAGE_ID, "om_a"⟩, ⟨HEADER_SUM, "2"⟩, ⟨HEADER_SEQ, seq⟩], payload⟩

def stream : List Frame := [part "1" [98], part "1" [98], part "0" [97]]

def slice (_ : String) (seq : Nat) : Bytes := if seq = 0 then [97] else [98]

end Sample

theorem reassembles_resent : Reassembles (fun _ => 2) Sample.slice Sample.stream := by
  refine reassembles fun f hf g hg => ?_
  have hall : ∀ f ∈ Sample.stream, ∀ g ∈ f.fragment?, g.sum = 2 ∧ f.payload = Sample.slice g.messageId g.seq := by
    decide +kernel
  exact hall f hf g hg

end Patom.Lark
