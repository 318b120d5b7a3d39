import Patom.Memory.Feed
import Patom.Memory.Unreflected
import Patom.Runtime.Drained

/-! The slices that one scheduler freezes, and those that its agents reflect on. -/

open Patom.Foundation
open Patom.Runtime (Carried ClaimedTurn DrainInv PromptRequest TurnReceipt WorkerId agentOf)
open Patom.Threads (NewThreadMessage ThreadDb ThreadMessageRow ThreadSeq appendMessage
  bumpedThreadSeq)

namespace Patom.Memory

structure Reflected where
  agentId : AgentId
  threadId : ThreadId
  slice : List ThreadMessageRow

/-- `turns` has the slice that each background turn was seeded with, `marked` the turns that
workers have marked done or failed. -/
structure TileSt where
  base : ReflectionSt
  turns : List (BackgroundTurnId × List ThreadMessageRow)
  marked : List TurnReceipt
  reflected : List Reflected

def TileSt.init : TileSt := ⟨.init, [], [], []⟩

/-- `written` says if the checkpoint of a reflection that went well reaches the store. -/
inductive TileAct
  | act (a : ReflectionAct)
  | succeed (worker : WorkerId) (turn : ClaimedTurn) (now : Time) (written : Bool)

namespace TileSt

variable (s : TileSt)

abbrev requests : Table PromptRequest := s.base.runtime.db.promptRequests

def turn? (turn : BackgroundTurnId) : Option (List ThreadMessageRow) := s.turns.lookup turn

def reflects (r : TurnReceipt) : Bool :=
  s.base.runtime.claims.any fun c => c.receipt? = some r && c.first.kind = .reflection

/-- One scheduler enqueues what a tick has found before it ticks again, nothing else enqueues
reflections, and a worker marks a turn once: a reflection done after it went well, failed
otherwise. -/
def admits : ReflectionAct → Bool
  | .tick .. => s.base.found.isEmpty
  | .enqueue _ turn _ _ => (s.turn? turn).isNone
  | .advance .. => false
  | .work (.enqueue _ _ trig) => trig.kindPayload.kind ≠ .reflection
  | .work (.markTurnDone _ r _) => r ∉ s.marked && (!s.reflects r || r ∈ s.base.advanced)
  | .work (.markTurnFailed _ r _ _) => r ∉ s.marked && (!s.reflects r || r ∉ s.base.advanced)
  | _ => true

def turnsAfter : ReflectionAct → List (BackgroundTurnId × List ThreadMessageRow)
  | .enqueue i turn _ _ =>
    (turn, (s.base.found[i]?.map (fetchSlice s.base.threads)).getD []) :: s.turns
  | _ => s.turns

def markedAfter : ReflectionAct → List TurnReceipt
  | .work (.markTurnDone _ r _) => r :: s.marked
  | .work (.markTurnFailed _ r _ _) => r :: s.marked
  | _ => s.marked

end TileSt

def succeed (s : TileSt) (worker : WorkerId) (turn : ClaimedTurn) (now : Time) (written : Bool) :
    Option TileSt :=
  match turn.kindPayload with
  | .reflection thread _ =>
    if turn.receipt ∈ s.marked then none
    else
      let slice := (s.turn? turn.claimKey).getD []
      (advance s.base worker turn now).map fun base =>
        { s with
          base := if written then base else { base with checkpoints := s.base.checkpoints }
          reflected := s.reflected ++ [⟨turn.receiverAgentId, thread, slice⟩] }
  | .normal | .resolution _ => none

def tileStep (env : ReflectionEnv) : Step TileSt TileAct
  | s, .act a =>
    if s.admits a then
      (reflectionStep env s.base a).map fun base =>
        { s with base, turns := s.turnsAfter a, marked := s.markedAfter a }
    else none
  | s, .succeed worker turn now written => succeed s worker turn now written

def rowSeq (db : ThreadDb) (id : Option ThreadMessageId) : Int :=
  ((id.bind db.threadMessages.find?).map fun m => (m.seq : Int)).getD (-1)

structure Spans (db : ThreadDb) (thread : ThreadId) (low high : Int)
    (slice : List ThreadMessageRow) : Prop where
  ordered : slice.Pairwise fun m m' => m.seq < m'.seq
  mem_iff : ∀ m, m ∈ slice ↔ m ∈ posted db thread ∧ low < m.seq ∧ m.seq ≤ high

section Tiled

variable (env : ReflectionEnv) (s : TileSt)

def TileSt.cursor (agent : AgentId) (thread : ThreadId) : Int :=
  rowSeq s.base.threads ((s.base.checkpoint agent thread).map (·.lastMessageId))

def TileSt.slices (agent : AgentId) (thread : ThreadId) : List ThreadMessageRow :=
  (s.reflected.filter fun r => r.agentId = agent && r.threadId = thread).flatMap (·.slice)

structure Job (r : PromptRequest) (agent : AgentId) (thread : ThreadId) (upTo : ThreadMessageId) :
    Prop where
  payload : r.kindPayload = .reflection thread upTo
  agent : agentOf env.colleagues r = some agent

def TileSt.reflectedOn (id : Runtime.PromptRequestId) : Prop :=
  ∃ rc ∈ s.base.advanced, id ∈ rc.triggerIds

/-- The reflections that went well tile the thread as far as the checkpoint, and what is under way
goes on from there. -/
structure Tiled : Prop where
  reflected : ∀ agent thread, Spans s.base.threads thread (-1) (s.cursor agent thread)
    (s.slices agent thread)
  next : ∀ r ∈ s.requests, ∀ agent thread upTo, r.status.isLive → Job env r agent thread upTo →
    ¬ s.reflectedOn r.id → ∃ slice, s.turn? r.claimKey = some slice ∧
      Spans s.base.threads thread (s.cursor agent thread) (rowSeq s.base.threads (some upTo)) slice

end Tiled

def TileAct.written : TileAct → Bool
  | .succeed _ _ _ written => written
  | .act _ => true

/-- No checkpoint is lost. -/
def Written (_ : TileSt) (a : TileAct) : Prop := a.written = true

instance writtenDecidable (s : TileSt) (a : TileAct) : Decidable (Written s a) :=
  inferInstanceAs (Decidable (a.written = true))

variable {env : ReflectionEnv} {s s' : TileSt} {db db' : ThreadDb} {thread : ThreadId}
  {agent : AgentId} {low mid high : Int} {slice : List ThreadMessageRow}

theorem rowSeq_of_mem {m : ThreadMessageRow} (h : m ∈ db.threadMessages) :
    rowSeq db (some m.id) = m.seq := by
  have hfind : db.threadMessages.find? m.id = some m := Table.find?_of_mem h
  rw [rowSeq, Option.bind_some, hfind]
  rfl

theorem Spans.append {slice' : List ThreadMessageRow} (h : Spans db thread low mid slice)
    (h' : Spans db thread mid high slice') (hlow : low ≤ mid) (hhigh : mid ≤ high) :
    Spans db thread low high (slice ++ slice') := by
  refine ⟨List.pairwise_append.mpr ⟨h.ordered, h'.ordered, fun m hm m' hm' => ?_⟩, fun m => ?_⟩
  · have hle := ((h.mem_iff m).mp hm).2.2
    have hlt := ((h'.mem_iff m').mp hm').2.1
    exact Int.ofNat_lt.mp (hle.trans_lt hlt)
  · rw [List.mem_append, h.mem_iff, h'.mem_iff, ← and_or_left]
    refine and_congr_right fun _ => ?_
    omega

theorem Spans.nil (db : ThreadDb) (thread : ThreadId) : Spans db thread (-1) (-1) [] where
  ordered := .nil
  mem_iff m := by
    refine iff_of_false List.not_mem_nil ?_
    rintro ⟨-, hlow, hhigh⟩
    omega

theorem Spans.extends (h : Spans db thread low high slice) (hext : Extends db db')
    (hhigh : high = -1 ∨ ∃ m ∈ db.threadMessages, m.threadId = thread ∧ high = m.seq) :
    Spans db' thread low high slice where
  ordered := h.ordered
  mem_iff m := by
    rw [h.mem_iff, mem_posted, mem_posted]
    constructor
    · rintro ⟨⟨hm, hposted⟩, hspan⟩
      exact ⟨⟨hext.kept m hm, hposted⟩, hspan⟩
    · rintro ⟨⟨hm, hthread, hkind⟩, hlow, hle⟩
      refine ⟨⟨?_, hthread, hkind⟩, hlow, hle⟩
      obtain hm | hlater := hext.later m hm
      · exact hm
      · obtain rfl | ⟨top, htop, htopThread, rfl⟩ := hhigh
        · omega
        · have hlt := Int.ofNat_lt.mpr (hlater top htop (htopThread.trans hthread.symm))
          omega

theorem fetchSlice_spans (h : FeedInv db) (c : ReflectionCandidate) :
    Spans db c.threadId (rowSeq db c.previousCursor) (rowSeq db (some c.lastMessageId))
      (fetchSlice db c) := by
  have hsub : ∀ m ∈ (posted db c.threadId).filter fun m =>
      rowSeq db c.previousCursor < m.seq && m.seq ≤ rowSeq db (some c.lastMessageId),
      m ∈ db.threadMessages ∧ m.threadId = c.threadId := fun m hm =>
    have hposted := mem_posted.mp (List.mem_filter.mp hm).1
    ⟨hposted.1, hposted.2.1⟩
  let seqOf : ThreadMessageRow → Threads.Seq := (·.seq)
  have hseqs : (((posted db c.threadId).filter fun m =>
      rowSeq db c.previousCursor < m.seq && m.seq ≤ rowSeq db (some c.lastMessageId)).map
        seqOf).Nodup := by
    refine List.Nodup.map_on (fun m hm m' hm' hsame => ?_)
      ((db.threadMessages.nodup_rows.filter _).filter _)
    obtain ⟨hmem, hthread⟩ := hsub m hm
    obtain ⟨hmem', hthread'⟩ := hsub m' hm'
    exact h.unique m hmem m' hmem' (hthread.trans hthread'.symm) hsame
  refine ⟨inOrder_strict seqOf hseqs fun _ _ e => e, fun m => ?_⟩
  rw [fetchSlice, List.mem_insertionSort, List.mem_filter]
  simp [rowSeq]

structure QueueSide (env : ReflectionEnv) (s : TileSt) : Prop where
  inv : Runtime.Inv env.colleagues s.base.runtime
  drained : DrainInv env.colleagues s.base.runtime
  kinds : ∀ r ∈ s.requests, r.kind = r.kindPayload.kind
  turns : ∀ r ∈ s.requests, r.kindPayload.kind = .reflection → (s.turn? r.claimKey).isSome
  marked : ∀ rc ∈ s.marked, ∃ c ∈ s.base.runtime.claims, c.receipt? = some rc
  advanced : ∀ rc ∈ s.base.advanced, ∃ c ∈ s.base.runtime.claims, c.receipt? = some rc
  terminal : ∀ r ∈ s.requests, r.status.isTerminal → ∃ rc ∈ s.marked, r.id ∈ rc.triggerIds

theorem QueueSide.receipt_eq (h : QueueSide env s) {rc rc' : TurnReceipt}
    (hrc : ∃ c ∈ s.base.runtime.claims, c.receipt? = some rc)
    (hrc' : ∃ c ∈ s.base.runtime.claims, c.receipt? = some rc') {id : Runtime.PromptRequestId}
    (hid : id ∈ rc.triggerIds) (hid' : id ∈ rc'.triggerIds) : rc = rc' := by
  obtain ⟨c, hc, hreceipt⟩ := hrc
  obtain ⟨c', hc', hreceipt'⟩ := hrc'
  rw [(Runtime.Claim.receipt?_eq_some hreceipt).2.2] at hid
  rw [(Runtime.Claim.receipt?_eq_some hreceipt').2.2] at hid'
  obtain rfl := h.inv.claim_eq hc hc' hid hid'
  exact Option.some.inj (hreceipt.symm.trans hreceipt')

theorem QueueSide.claimed (h : QueueSide env s) {c : Runtime.Claim}
    (hc : c ∈ s.base.runtime.claims) {turn : ClaimedTurn} (hturn : c.turn = .ok turn)
    (hmarked : turn.receipt ∉ s.marked) (hadvanced : turn.receipt ∉ s.base.advanced) :
    ∃ r ∈ s.requests, r.id ∈ turn.receipt.triggerIds ∧ r.claimKey = turn.claimKey ∧
      r.kindPayload = turn.kindPayload ∧
      agentOf env.colleagues r = some turn.receiverAgentId ∧ r.status.isLive ∧
      ¬ s.reflectedOn r.id := by
  obtain ⟨r, hr, hid, hkey, hpayload, hagent⟩ := Runtime.turn_snapshot h.drained hc hturn
  have hreceipt : c.receipt? = some turn.receipt := by
    rw [Runtime.Claim.receipt?, hturn]
  refine ⟨r, hr, hid, hkey, hpayload, hagent, ?_, ?_⟩
  · rw [Runtime.isLive_eq_not_isTerminal, Bool.not_eq_true']
    refine Bool.eq_false_iff.mpr fun hterminal => ?_
    obtain ⟨rc, hrc, hid'⟩ := h.terminal r hr hterminal
    exact hmarked (h.receipt_eq (h.marked rc hrc) ⟨c, hc, hreceipt⟩ hid' hid ▸ hrc)
  · rintro ⟨rc, hrc, hid'⟩
    exact hadvanced (h.receipt_eq (h.advanced rc hrc) ⟨c, hc, hreceipt⟩ hid' hid ▸ hrc)

theorem QueueSide.init : QueueSide env .init where
  inv := .init
  drained := .init
  kinds _ h := (Table.not_mem_empty _ h).elim
  turns _ h := (Table.not_mem_empty _ h).elim
  marked _ h := by cases h
  advanced _ h := by cases h
  terminal _ h := (Table.not_mem_empty _ h).elim

theorem QueueSide.of_runtime (h : QueueSide env s) (hruntime : s'.base.runtime = s.base.runtime)
    (hturns : s'.turns = s.turns) (hmarked : s'.marked = s.marked)
    (hadvanced : ∀ rc ∈ s'.base.advanced, ∃ c ∈ s.base.runtime.claims, c.receipt? = some rc) :
    QueueSide env s' := by
  have hrequests : s'.requests = s.requests := congrArg (·.db.promptRequests) hruntime
  have hturn (k : Runtime.ClaimKey) : s'.turn? k = s.turn? k := by
    rw [TileSt.turn?, TileSt.turn?, hturns]
  constructor
  case inv => exact hruntime ▸ h.inv
  case drained => exact hruntime ▸ h.drained
  case kinds => exact hrequests ▸ h.kinds
  case turns =>
    intro r hr hkind
    rw [hturn]
    exact h.turns r (hrequests ▸ hr) hkind
  case marked =>
    rw [hmarked, hruntime]
    exact h.marked
  case advanced =>
    rw [hruntime]
    exact hadvanced
  case terminal =>
    rw [hmarked, hrequests]
    exact h.terminal

theorem QueueSide.of_step (h : QueueSide env s) {a : Runtime.Act}
    (hstep : Runtime.step env.colleagues env.timing s.base.runtime a = some s'.base.runtime)
    (hadvanced : s'.base.advanced = s.base.advanced)
    (hturns : ∀ k, (s.turn? k).isSome → (s'.turn? k).isSome)
    (henqueue : ∀ id now trig r, a = .enqueue id now trig →
      Runtime.Seeded env.colleagues id trig r → r.kindPayload.kind = .reflection →
      (s'.turn? r.claimKey).isSome)
    (hmarks : ∀ rc ∈ s.marked, rc ∈ s'.marked)
    (hmarked : ∀ rc ∈ s'.marked, rc ∈ s.marked ∨
      ∃ c ∈ s.base.runtime.claims, c.receipt? = some rc)
    (hsettles : ∀ id, a.finalises id → ∃ rc ∈ s'.marked, id ∈ rc.triggerIds) :
    QueueSide env s' := by
  have hstepped := Runtime.step_stepped hstep
  have hfrom {r' : PromptRequest} (hr' : r' ∈ s'.requests) :=
    Runtime.rows_from h.inv hstepped hr'
  have hclaims {rc : TurnReceipt} (hrc : ∃ c ∈ s.base.runtime.claims, c.receipt? = some rc) :
      ∃ c ∈ s'.base.runtime.claims, c.receipt? = some rc :=
    hrc.imp fun c hc => ⟨Runtime.claims_kept hstepped hc.1, hc.2⟩
  constructor
  case inv => exact h.inv.step hstep
  case drained => exact h.drained.step hstepped
  case kinds =>
    intro r' hr'
    obtain ⟨r, hr, hcarried, -⟩ | ⟨id, now, trig, -, hseeded, -⟩ := hfrom hr'
    · rw [hcarried.kind, hcarried.payload]
      exact h.kinds r hr
    · rw [hseeded.minted.kind, hseeded.minted.kindPayload]
  case turns =>
    intro r' hr' hkind
    obtain ⟨r, hr, hcarried, -⟩ | ⟨id, now, trig, ha, hseeded, -⟩ := hfrom hr'
    · rw [hcarried.claimKey]
      exact hturns _ (h.turns r hr (hcarried.payload ▸ hkind))
    · exact henqueue id now trig r' ha hseeded hkind
  case marked =>
    intro rc hrc
    obtain hold | hnew := hmarked rc hrc
    · exact hclaims (h.marked rc hold)
    · exact hclaims hnew
  case advanced =>
    intro rc hrc
    exact hclaims (h.advanced rc (hadvanced ▸ hrc))
  case terminal =>
    intro r' hr' hterminal
    obtain ⟨r, hr, hcarried, hmoved⟩ | ⟨id, now, trig, -, hseeded, -⟩ := hfrom hr'
    · rw [hcarried.id]
      obtain hsame | ⟨-, hprocessing⟩ | ⟨hfinalises, -⟩ := hmoved.status
      · obtain ⟨rc, hrc, hid⟩ := h.terminal r hr (hsame ▸ hterminal)
        exact ⟨rc, hmarks rc hrc, hid⟩
      · rw [hprocessing] at hterminal
        cases hterminal
      · exact hsettles r.id hfinalises
    · rw [hseeded.minted.status] at hterminal
      cases hterminal

structure Ready (env : ReflectionEnv) (s : TileSt) (c : ReflectionCandidate) : Prop where
  previous : c.previousCursor = (s.base.checkpoint c.agentId c.threadId).map (·.lastMessageId)
  ahead : ∃ m ∈ posted s.base.threads c.threadId, m.id = c.lastMessageId ∧
    s.cursor c.agentId c.threadId ≤ m.seq
  idle : ∀ r ∈ s.requests, r.status.isLive → ∀ upTo, ¬ Job env r c.agentId c.threadId upTo

structure PairSide (env : ReflectionEnv) (s : TileSt) : Prop where
  feed : FeedInv s.base.threads
  checkpoints : ∀ agent thread, ∀ rc ∈ s.base.checkpoint agent thread,
    ∃ m ∈ posted s.base.threads thread, m.id = rc.lastMessageId
  pairs : (s.base.found.map fun c => (c.threadId, c.agentId)).Nodup
  found : ∀ c ∈ s.base.found, Ready env s c
  single : ∀ r ∈ s.requests, ∀ r' ∈ s.requests, r.status.isLive → r'.status.isLive →
    ∀ agent thread upTo upTo', Job env r agent thread upTo → Job env r' agent thread upTo' → r = r'
  ahead : ∀ r ∈ s.requests, r.status.isLive → ∀ agent thread upTo, Job env r agent thread upTo →
    ¬ s.reflectedOn r.id → ∃ m ∈ posted s.base.threads thread, m.id = upTo ∧
      s.cursor agent thread ≤ m.seq
  tiled : Tiled env s

theorem Job.of_carried {r r' : PromptRequest} {upTo : ThreadMessageId}
    (h : Job env r' agent thread upTo) (hcarried : Carried r r') : Job env r agent thread upTo where
  payload := hcarried.payload.symm.trans h.payload
  agent := by
    rw [agentOf, ← hcarried.receiver]
    exact h.agent

theorem Job.kind {r : PromptRequest} {upTo : ThreadMessageId} (h : Job env r agent thread upTo) :
    r.kindPayload.kind = .reflection := by
  rw [h.payload]
  rfl

theorem PairSide.init : PairSide env .init where
  feed := .empty
  checkpoints _ _ _ h := by cases h
  pairs := .nil
  found _ h := by cases h
  single _ h := (Table.not_mem_empty _ h).elim
  ahead _ h := (Table.not_mem_empty _ h).elim
  tiled := ⟨fun _ thread => .nil _ thread, fun _ h => (Table.not_mem_empty _ h).elim⟩

theorem cursor_congr (hthreads : s'.base.threads = s.base.threads)
    (hcheckpoints : s'.base.checkpoints = s.base.checkpoints) (agent : AgentId)
    (thread : ThreadId) : s'.cursor agent thread = s.cursor agent thread := by
  rw [TileSt.cursor, TileSt.cursor, ReflectionSt.checkpoint, ReflectionSt.checkpoint, hthreads,
    hcheckpoints]

theorem PairSide.cursor_eq (h : PairSide env s) (agent : AgentId) (thread : ThreadId) :
    s.cursor agent thread = -1 ∨
      ∃ m ∈ posted s.base.threads thread, s.cursor agent thread = m.seq := by
  cases hrc : s.base.checkpoint agent thread with
  | none =>
    left
    rw [TileSt.cursor, hrc]
    rfl
  | some rc =>
    obtain ⟨m, hm, hid⟩ := h.checkpoints agent thread rc hrc
    refine .inr ⟨m, hm, ?_⟩
    rw [TileSt.cursor, hrc, Option.map_some, ← hid]
    exact rowSeq_of_mem (mem_posted.mp hm).1

theorem PairSide.of_rows (h : PairSide env s) (hthreads : s'.base.threads = s.base.threads)
    (hcheckpoints : s'.base.checkpoints = s.base.checkpoints)
    (hfound : s'.base.found.Sublist s.base.found)
    (hadvanced : s'.base.advanced = s.base.advanced)
    (hturns : ∀ k slice, s.turn? k = some slice → s'.turn? k = some slice)
    (hreflected : s'.reflected = s.reflected)
    (hrows : ∀ r' ∈ s'.requests, r'.status.isLive → r'.kindPayload.kind = .reflection →
      ∃ r ∈ s.requests, Carried r r' ∧ r.status.isLive) : PairSide env s' := by
  have hcursor := cursor_congr hthreads hcheckpoints
  have hover {r r' : PromptRequest} (hcarried : Carried r r') (hnot : ¬ s'.reflectedOn r'.id) :
      ¬ s.reflectedOn r.id := by
    rwa [TileSt.reflectedOn, hadvanced, hcarried.id] at hnot
  constructor
  case feed => exact hthreads ▸ h.feed
  case checkpoints =>
    intro agent thread rc hrc
    rw [ReflectionSt.checkpoint, hcheckpoints] at hrc
    exact hthreads ▸ h.checkpoints agent thread rc hrc
  case pairs => exact h.pairs.sublist (hfound.map _)
  case found =>
    intro c hc
    have hready := h.found c (hfound.subset hc)
    refine ⟨?_, ?_, fun r' hr' hlive upTo hjob => ?_⟩
    · rw [ReflectionSt.checkpoint, hcheckpoints]
      exact hready.previous
    · rw [hthreads, hcursor]
      exact hready.ahead
    · obtain ⟨r, hr, hcarried, hlive'⟩ := hrows r' hr' hlive hjob.kind
      exact hready.idle r hr hlive' upTo (hjob.of_carried hcarried)
  case single =>
    intro r₁ hr₁ r₂ hr₂ hlive₁ hlive₂ agent thread upTo₁ upTo₂ hjob₁ hjob₂
    obtain ⟨x₁, hx₁, hcarried₁, hold₁⟩ := hrows r₁ hr₁ hlive₁ hjob₁.kind
    obtain ⟨x₂, hx₂, hcarried₂, hold₂⟩ := hrows r₂ hr₂ hlive₂ hjob₂.kind
    obtain rfl := h.single x₁ hx₁ x₂ hx₂ hold₁ hold₂ agent thread upTo₁ upTo₂
      (hjob₁.of_carried hcarried₁) (hjob₂.of_carried hcarried₂)
    exact Table.eq_of_key_eq hr₁ hr₂ (hcarried₁.id.trans hcarried₂.id.symm)
  case ahead =>
    intro r' hr' hlive agent thread upTo hjob hnot
    obtain ⟨r, hr, hcarried, hold⟩ := hrows r' hr' hlive hjob.kind
    rw [hthreads, hcursor]
    exact h.ahead r hr hold agent thread upTo (hjob.of_carried hcarried) (hover hcarried hnot)
  case tiled =>
    refine ⟨fun agent thread => ?_, fun r' hr' agent thread upTo hlive hjob hnot => ?_⟩
    · rw [hthreads, hcursor, TileSt.slices, hreflected]
      exact h.tiled.reflected agent thread
    · obtain ⟨r, hr, hcarried, hold⟩ := hrows r' hr' hlive hjob.kind
      obtain ⟨slice, hslice, hspans⟩ := h.tiled.next r hr agent thread upTo hold
        (hjob.of_carried hcarried) (hover hcarried hnot)
      rw [hthreads, hcursor, hcarried.claimKey]
      exact ⟨slice, hturns _ _ hslice, hspans⟩

theorem PairSide.of_feed (h : PairSide env s) (hfeed : FeedInv s'.base.threads)
    (hext : Extends s.base.threads s'.base.threads)
    (hcheckpoints : s'.base.checkpoints = s.base.checkpoints)
    (hfound : s'.base.found = s.base.found) (hadvanced : s'.base.advanced = s.base.advanced)
    (hturns : s'.turns = s.turns) (hreflected : s'.reflected = s.reflected)
    (hrows : s'.requests = s.requests) : PairSide env s' := by
  have hposted {thread : ThreadId} {m : ThreadMessageRow}
      (hm : m ∈ posted s.base.threads thread) : m ∈ posted s'.base.threads thread := by
    obtain ⟨hmem, hrest⟩ := mem_posted.mp hm
    exact mem_posted.mpr ⟨hext.kept m hmem, hrest⟩
  have hseq {thread : ThreadId} {m : ThreadMessageRow} (hm : m ∈ posted s.base.threads thread) :
      rowSeq s'.base.threads (some m.id) = rowSeq s.base.threads (some m.id) :=
    (rowSeq_of_mem (mem_posted.mp (hposted hm)).1).trans
      (rowSeq_of_mem (mem_posted.mp hm).1).symm
  have hcheckpoint (agent : AgentId) (thread : ThreadId) :
      s'.base.checkpoint agent thread = s.base.checkpoint agent thread := by
    rw [ReflectionSt.checkpoint, ReflectionSt.checkpoint, hcheckpoints]
  have hcursor (agent : AgentId) (thread : ThreadId) :
      s'.cursor agent thread = s.cursor agent thread := by
    rw [TileSt.cursor, TileSt.cursor, hcheckpoint]
    cases hrc : s.base.checkpoint agent thread with
    | none => rfl
    | some rc =>
      obtain ⟨m, hm, hid⟩ := h.checkpoints agent thread rc hrc
      rw [Option.map_some, ← hid]
      exact hseq hm
  have hover {id : Runtime.PromptRequestId} (hnot : ¬ s'.reflectedOn id) : ¬ s.reflectedOn id := by
    rwa [TileSt.reflectedOn, hadvanced] at hnot
  constructor
  case feed => exact hfeed
  case checkpoints =>
    intro agent thread rc hrc
    obtain ⟨m, hm, hid⟩ := h.checkpoints agent thread rc (hcheckpoint agent thread ▸ hrc)
    exact ⟨m, hposted hm, hid⟩
  case pairs => exact hfound ▸ h.pairs
  case found =>
    intro c hc
    obtain ⟨hprevious, ⟨m, hm, hid, hle⟩, hidle⟩ := h.found c (hfound ▸ hc)
    refine ⟨hcheckpoint c.agentId c.threadId ▸ hprevious, ⟨m, hposted hm, hid, ?_⟩, hrows ▸ hidle⟩
    rwa [hcursor]
  case single => exact hrows ▸ h.single
  case ahead =>
    intro r hr hlive agent thread upTo hjob hnot
    obtain ⟨m, hm, hid, hle⟩ := h.ahead r (hrows ▸ hr) hlive agent thread upTo hjob (hover hnot)
    exact ⟨m, hposted hm, hid, hcursor agent thread ▸ hle⟩
  case tiled =>
    refine ⟨fun agent thread => ?_, fun r hr agent thread upTo hlive hjob hnot => ?_⟩
    · rw [hcursor, TileSt.slices, hreflected]
      refine (h.tiled.reflected agent thread).extends hext ?_
      obtain hstart | ⟨m, hm, heq⟩ := h.cursor_eq agent thread
      · exact .inl hstart
      · obtain ⟨hmem, hthread, -⟩ := mem_posted.mp hm
        exact .inr ⟨m, hmem, hthread, heq⟩
    · have hold := hrows ▸ hr
      obtain ⟨slice, hslice, hspans⟩ := h.tiled.next r hold agent thread upTo hlive hjob
        (hover hnot)
      obtain ⟨m, hm, rfl, -⟩ := h.ahead r hold hlive agent thread upTo hjob (hover hnot)
      obtain ⟨hmem, hthread, -⟩ := mem_posted.mp hm
      refine ⟨slice, by rw [TileSt.turn?, hturns]; exact hslice, ?_⟩
      rw [hcursor, hseq hm]
      exact hspans.extends hext (.inr ⟨m, hmem, hthread, rowSeq_of_mem hmem⟩)

theorem Job.eq {r : PromptRequest} {agent' : AgentId} {thread' : ThreadId}
    {upTo upTo' : ThreadMessageId} (h : Job env r agent thread upTo)
    (h' : Job env r agent' thread' upTo') : agent = agent' ∧ thread = thread' ∧ upTo = upTo' := by
  have hpayload := h.payload.symm.trans h'.payload
  rw [Runtime.RequestKindPayload.reflection.injEq] at hpayload
  exact ⟨Option.some.inj (h.agent.symm.trans h'.agent), hpayload⟩

theorem PairSide.insert (h : PairSide env s) {r₀ : PromptRequest} {c : ReflectionCandidate}
    (hready : Ready env s c)
    (hothers : ∀ c' ∈ s.base.found, (c'.threadId, c'.agentId) ≠ (c.threadId, c.agentId))
    (hjob : Job env r₀ c.agentId c.threadId c.lastMessageId)
    (hslice : s.turn? r₀.claimKey = some (fetchSlice s.base.threads c))
    {runtime : Runtime.St} (hinsert : s.requests.insert? r₀ = some runtime.db.promptRequests) :
    PairSide env { s with base := { s.base with runtime } } := by
  have hrows {r : PromptRequest} (hr : r ∈ runtime.db.promptRequests) : r ∈ s.requests ∨ r = r₀ :=
    (Table.mem_insert? hinsert).mp hr
  refine ⟨h.feed, h.checkpoints, h.pairs, fun c' hc' => ?_, fun r hr r' hr' => ?_,
    fun r hr hlive agent thread upTo hjob' hnot => ?_, h.tiled.reflected,
    fun r hr agent thread upTo hlive hjob' hnot => ?_⟩
  · obtain ⟨hprevious, hahead, hidle⟩ := h.found c' hc'
    refine ⟨hprevious, hahead, fun r hr hlive upTo hjob' => ?_⟩
    obtain hr | rfl := hrows hr
    · exact hidle r hr hlive upTo hjob'
    · obtain ⟨hagent, hthread, -⟩ := hjob.eq hjob'
      exact hothers c' hc' (Prod.ext hthread.symm hagent.symm)
  · intro hlive hlive' agent thread upTo upTo' hjob₁ hjob₂
    obtain hr | rfl := hrows hr <;> obtain hr' | rfl := hrows hr'
    · exact h.single r hr r' hr' hlive hlive' agent thread upTo upTo' hjob₁ hjob₂
    · obtain ⟨rfl, rfl, -⟩ := hjob.eq hjob₂
      exact absurd hjob₁ (hready.idle r hr hlive upTo)
    · obtain ⟨rfl, rfl, -⟩ := hjob.eq hjob₁
      exact absurd hjob₂ (hready.idle r' hr' hlive' upTo')
    · rfl
  · obtain hr | rfl := hrows hr
    · exact h.ahead r hr hlive agent thread upTo hjob' hnot
    · obtain ⟨rfl, rfl, rfl⟩ := hjob.eq hjob'
      exact hready.ahead
  · obtain hr | rfl := hrows hr
    · exact h.tiled.next r hr agent thread upTo hlive hjob' hnot
    · obtain ⟨rfl, rfl, rfl⟩ := hjob.eq hjob'
      refine ⟨_, hslice, ?_⟩
      have hspans := fetchSlice_spans h.feed c
      rwa [hready.previous] at hspans

theorem PairSide.candidate (h : PairSide env s)
    (hkinds : ∀ r ∈ s.requests, r.kind = r.kindPayload.kind) {now : Time}
    {ats : Threads.AgentThreadState} {c : ReflectionCandidate}
    (hc : candidate env s.base now ats = some c) : Ready env s c := by
  obtain ⟨seq, at_, lm, t, user, hseq, -, hlm, -, -, ⟨-, -, hidle⟩, rfl⟩ :=
    candidate_eq_some.mp hc
  obtain ⟨⟨m, hm, rfl⟩, hlast⟩ := latestSeq_eq_some_iff.mp hseq
  obtain ⟨hmem, hthread, -⟩ := mem_posted.mp hm
  have hlmSpec := List.find?_some hlm
  rw [Bool.and_eq_true, decide_eq_true_eq, decide_eq_true_eq] at hlmSpec
  obtain rfl := h.feed.unique lm (List.mem_of_find?_eq_some hlm) m hmem
    (hlmSpec.1.trans hthread.symm) hlmSpec.2
  refine ⟨rfl, ⟨lm, hm, rfl, ?_⟩, fun r hr hlive upTo hjob => ?_⟩
  · obtain hnone | ⟨top, htop, heq⟩ := h.cursor_eq ats.agentId ats.threadId
    · rw [hnone]
      omega
    · rw [heq]
      exact Int.ofNat_le.mpr (hlast top htop)
  · have hreflecting : s.base.reflecting ats.threadId = true := by
      refine List.any_eq_true.mpr ⟨r, hr, ?_⟩
      have hstatus : r.status = .pending ∨ r.status = .processing := by
        cases hs : r.status with
        | pending => exact .inl rfl
        | processing => exact .inr rfl
        | done =>
          rw [hs] at hlive
          cases hlive
        | failed =>
          rw [hs] at hlive
          cases hlive
      have hkind : r.kind = .reflection := (hkinds r hr).trans hjob.kind
      simp [hkind, hjob.payload, hstatus]
    exact Bool.false_ne_true (hidle.symm.trans hreflecting)

theorem PairSide.tick (h : PairSide env s)
    (hkinds : ∀ r ∈ s.requests, r.kind = r.kindPayload.kind) (now : Time)
    (tie : AgentId × ThreadId ↪ Nat) :
    PairSide env { s with base := { s.base with found := findCandidates env s.base now tie } } := by
  refine ⟨h.feed, h.checkpoints, ?_, fun c hc => ?_, h.single, h.ahead, h.tiled.reflected,
    h.tiled.next⟩
  · have hperm := List.perm_insertionSort (fun c c' : ReflectionCandidate =>
      c.position tie ≤ c'.position tie) (matched env s.base now)
    exact ((hperm.map _).nodup_iff.mpr (matched_nodup env s.base now)).sublist
      ((List.take_sublist _ _).map _)
  · obtain ⟨hmatched, -⟩ := mem_findCandidates.mp hc
    obtain ⟨ats, -, hcandidate⟩ := List.mem_filterMap.mp hmatched
    obtain ⟨hprevious, hahead, hidle⟩ := h.candidate hkinds hcandidate
    exact ⟨hprevious, hahead, hidle⟩

theorem find?_advance {checkpoints : Table ReflectionCheckpoint} (now : Time) (org : OrgId)
    (agent agent' : AgentId) (thread thread' : ThreadId) (upTo : ThreadMessageId) :
    ((advanceReflectionCheckpoint now org agent thread upTo checkpoints).find?
        (agent', thread')).map (·.lastMessageId) =
      if (agent, thread) = (agent', thread') then some upTo
      else (checkpoints.find? (agent', thread')).map (·.lastMessageId) := by
  unfold advanceReflectionCheckpoint
  split
  · rename_i row hrow
    have hkey : key { row with lastMessageId := upTo } = (agent, thread) :=
      (Table.key_of_find? hrow : key row = (agent, thread))
    rw [Table.find?_put, hkey]
    split <;> rfl
  · have hkey : key (⟨agent, thread, upTo, org, now⟩ : ReflectionCheckpoint) = (agent, thread) :=
      rfl
    rw [Table.find?_put, hkey]
    split <;> rfl

structure Succeeds (env : ReflectionEnv) (s s' : TileSt) (r : PromptRequest) (agent : AgentId)
    (thread : ThreadId) (upTo : ThreadMessageId) : Prop where
  mem : r ∈ s.requests
  live : r.status.isLive
  job : Job env r agent thread upTo
  before : ¬ s.reflectedOn r.id
  after : s'.reflectedOn r.id
  keeps : ∀ id, s.reflectedOn id → s'.reflectedOn id
  checkpoint : ∀ agent' thread', (s'.base.checkpoint agent' thread').map (·.lastMessageId) =
    if (agent, thread) = (agent', thread') then some upTo
    else (s.base.checkpoint agent' thread').map (·.lastMessageId)
  reflected : s'.reflected = s.reflected ++ [⟨agent, thread, (s.turn? r.claimKey).getD []⟩]
  threads : s'.base.threads = s.base.threads
  found : s'.base.found = s.base.found
  runtime : s'.base.runtime = s.base.runtime
  turns : s'.turns = s.turns

theorem PairSide.succeed (h : PairSide env s) {r : PromptRequest} {upTo : ThreadMessageId}
    (hs : Succeeds env s s' r agent thread upTo) : PairSide env s' := by
  have hrows : s'.requests = s.requests := congrArg (·.db.promptRequests) hs.runtime
  obtain ⟨m, hm, rfl, hahead⟩ := h.ahead r hs.mem hs.live agent thread upTo hs.job hs.before
  have hcursor : s'.cursor agent thread = m.seq := by
    rw [TileSt.cursor, hs.checkpoint, if_pos rfl, hs.threads]
    exact rowSeq_of_mem (mem_posted.mp hm).1
  have hcursor_ne {agent' : AgentId} {thread' : ThreadId}
      (hne : (agent, thread) ≠ (agent', thread')) :
      s'.cursor agent' thread' = s.cursor agent' thread' := by
    rw [TileSt.cursor, hs.checkpoint, if_neg hne, hs.threads]
    rfl
  -- the only reflection of the pair that is under way is the one that has gone well
  have hother {r' : PromptRequest} (hr' : r' ∈ s'.requests) (hlive : r'.status.isLive)
      {agent' : AgentId} {thread' : ThreadId} {upTo' : ThreadMessageId}
      (hjob : Job env r' agent' thread' upTo') (hnot : ¬ s'.reflectedOn r'.id) :
      (agent, thread) ≠ (agent', thread') := by
    intro hsame
    obtain ⟨rfl, rfl⟩ := Prod.mk.inj hsame
    obtain rfl := h.single r hs.mem r' (hrows ▸ hr') hs.live hlive agent thread m.id upTo' hs.job
      hjob
    exact hnot hs.after
  have hover {id : Runtime.PromptRequestId} (hnot : ¬ s'.reflectedOn id) : ¬ s.reflectedOn id :=
    fun hid => hnot (hs.keeps id hid)
  constructor
  case feed => exact hs.threads ▸ h.feed
  case checkpoints =>
    intro agent' thread' rc hrc
    have hid := hs.checkpoint agent' thread'
    rw [Option.mem_def.mp hrc, Option.map_some] at hid
    rw [hs.threads]
    split at hid
    · rename_i hsame
      obtain ⟨rfl, rfl⟩ := Prod.mk.inj hsame
      exact ⟨m, hm, (Option.some.inj hid).symm⟩
    · obtain ⟨rc', hrc', hlast⟩ := Option.map_eq_some_iff.mp hid.symm
      exact hlast ▸ h.checkpoints agent' thread' rc' hrc'
  case pairs => exact hs.found ▸ h.pairs
  case found =>
    intro c hc
    obtain ⟨hprevious, hposted, hidle⟩ := h.found c (hs.found ▸ hc)
    have hne : (agent, thread) ≠ (c.agentId, c.threadId) := by
      intro hsame
      obtain ⟨rfl, rfl⟩ := Prod.mk.inj hsame
      exact hidle r hs.mem hs.live m.id hs.job
    refine ⟨?_, ?_, hrows ▸ hidle⟩
    · rw [hs.checkpoint, if_neg hne]
      exact hprevious
    · rw [hs.threads, hcursor_ne hne]
      exact hposted
  case single => exact hrows ▸ h.single
  case ahead =>
    intro r' hr' hlive agent' thread' upTo' hjob hnot
    rw [hs.threads, hcursor_ne (hother hr' hlive hjob hnot)]
    exact h.ahead r' (hrows ▸ hr') hlive agent' thread' upTo' hjob (hover hnot)
  case tiled =>
    refine ⟨fun agent' thread' => ?_, fun r' hr' agent' thread' upTo' hlive hjob hnot => ?_⟩
    · rw [hs.threads, TileSt.slices, hs.reflected, List.filter_append, List.flatMap_append]
      have hold := h.tiled.reflected agent' thread'
      by_cases hsame : (agent, thread) = (agent', thread')
      · obtain ⟨rfl, rfl⟩ := Prod.mk.inj hsame
        obtain ⟨slice, hslice, hspans⟩ := h.tiled.next r hs.mem agent thread m.id hs.live hs.job
          hs.before
        rw [rowSeq_of_mem (mem_posted.mp hm).1] at hspans
        rw [hcursor, hslice]
        have hlow : -1 ≤ s.cursor agent thread := by
          obtain hnone | ⟨top, -, htop⟩ := h.cursor_eq agent thread <;> omega
        simpa [TileSt.slices] using hold.append hspans hlow hahead
      · have hnone : [(⟨agent, thread, (s.turn? r.claimKey).getD []⟩ : Reflected)].filter
            (fun x => x.agentId = agent' && x.threadId = thread') = [] := by
          refine List.filter_eq_nil_iff.mpr fun x hx htest => hsame ?_
          obtain rfl := List.mem_singleton.mp hx
          simpa using htest
        rw [hcursor_ne hsame, hnone, List.flatMap_nil, List.append_nil]
        exact hold
    · rw [hs.threads, hcursor_ne (hother hr' hlive hjob hnot)]
      obtain ⟨slice, hslice, hspans⟩ := h.tiled.next r' (hrows ▸ hr') agent' thread' upTo' hlive
        hjob (hover hnot)
      exact ⟨slice, by rw [TileSt.turn?, hs.turns]; exact hslice, hspans⟩

structure TileInv (env : ReflectionEnv) (s : TileSt) : Prop where
  queue : QueueSide env s
  pairs : PairSide env s

theorem TileInv.init : TileInv env .init := ⟨.init, .init⟩

theorem TileInv.succeed (h : TileInv env s) {worker : WorkerId} {turn : ClaimedTurn} {now : Time}
    (hstep : succeed s worker turn now true = some s') : TileInv env s' := by
  unfold Memory.succeed at hstep
  split at hstep
  · rename_i thread upTo hpayload
    obtain ⟨hmarked, hstep⟩ := Option.ite_none_left_eq_some.mp hstep
    obtain ⟨base, hadvance, rfl⟩ := Option.map_eq_some_iff.mp hstep
    obtain ⟨⟨hfresh, c, hc, hturn⟩, rfl⟩ := advance_eq_some hpayload hadvance
    obtain ⟨r, hr, hid, hkey, hrow, hagent, hlive, hnot⟩ :=
      h.queue.claimed hc hturn hmarked hfresh
    have hjob : Job env r turn.receiverAgentId thread upTo := ⟨hrow.trans hpayload, hagent⟩
    have hreceipt : c.receipt? = some turn.receipt := by
      rw [Runtime.Claim.receipt?, hturn]
    obtain ⟨m, hm, rfl, -⟩ := h.pairs.ahead r hr hlive _ _ _ hjob hnot
    have hstored : (s.base.threads.threadMessages.find? m.id).isSome :=
      Option.isSome_of_eq_some (Table.find?_of_mem (mem_posted.mp hm).1)
    refine ⟨h.queue.of_runtime rfl rfl rfl fun rc hrc => ?_, PairSide.succeed h.pairs
      ⟨hr, hlive, hjob, hnot, ⟨turn.receipt, List.mem_cons_self, hid⟩, ?_, ?_, ?_, rfl, rfl, rfl,
        rfl⟩⟩
    · obtain rfl | hold := List.mem_cons.mp hrc
      · exact ⟨c, hc, hreceipt⟩
      · exact h.queue.advanced rc hold
    · rintro id ⟨rc, hrc, hmem⟩
      exact ⟨rc, List.mem_cons_of_mem _ hrc, hmem⟩
    · intro agent' thread'
      simp only [ReflectionSt.checkpoint, if_true, hstored]
      exact find?_advance now turn.orgId turn.receiverAgentId agent' thread thread' m.id
    · rw [hkey]
  · cases hstep
  · cases hstep

theorem TileInv.feed (h : TileInv env s) {threads : ThreadDb}
    (hfeed : FeedInv threads ∧ Extends s.base.threads threads) :
    TileInv env { s with base := { s.base with threads } } where
  queue := h.queue.of_runtime rfl rfl rfl h.queue.advanced
  pairs := h.pairs.of_feed hfeed.1 hfeed.2 rfl rfl rfl rfl rfl rfl

theorem live_of_moved {a : Runtime.Act} {r r' : PromptRequest} (h : Runtime.Moved a r r')
    (hlive : r'.status.isLive) : r.status.isLive := by
  obtain hsame | ⟨hpending, -⟩ | ⟨-, hterminal⟩ := h.status
  · exact hsame ▸ hlive
  · rw [hpending]
    rfl
  · rw [Runtime.isLive_eq_not_isTerminal, hterminal] at hlive
    cases hlive

theorem TileInv.work (h : TileInv env s) {a : Runtime.Act} (hadmits : s.admits (.work a) = true)
    {runtime : Runtime.St}
    (hstep : Runtime.step env.colleagues env.timing s.base.runtime a = some runtime) :
    TileInv env { s with
      base := { s.base with runtime }, marked := s.markedAfter (.work a) } := by
  have hstepped := Runtime.step_stepped hstep
  have hnormal : ∀ id now trig r, a = .enqueue id now trig →
      Runtime.Seeded env.colleagues id trig r → r.kindPayload.kind ≠ .reflection := by
    rintro id now trig r rfl hseeded
    rw [hseeded.minted.kindPayload]
    exact of_decide_eq_true hadmits
  refine ⟨h.queue.of_step hstep rfl (fun _ => id) ?_ ?_ ?_ ?_, h.pairs.of_rows rfl rfl (.refl _) rfl
    (fun _ _ => id) rfl fun r' hr' hlive hkind => ?_⟩
  · exact fun id now trig r ha hseeded hkind => absurd hkind (hnormal id now trig r ha hseeded)
  · intro rc hrc
    cases a with
    | markTurnDone w r now => exact List.mem_cons_of_mem _ hrc
    | markTurnFailed w r reason now => exact List.mem_cons_of_mem _ hrc
    | _ => exact hrc
  · intro rc hrc
    cases hstepped with
    | markTurnDone held =>
      obtain rfl | hold := List.mem_cons.mp hrc
      · obtain ⟨c, hc, -, hreceipt⟩ := Runtime.fenced_holds held
        exact .inr ⟨c, hc, hreceipt⟩
      · exact .inl hold
    | markTurnFailed held =>
      obtain rfl | hold := List.mem_cons.mp hrc
      · obtain ⟨c, hc, -, hreceipt⟩ := Runtime.fenced_holds held
        exact .inr ⟨c, hc, hreceipt⟩
      · exact .inl hold
    | _ => exact .inl hrc
  · intro id hfinalises
    cases a with
    | markTurnDone w r now => exact ⟨r, List.mem_cons_self, hfinalises⟩
    | markTurnFailed w r reason now => exact ⟨r, List.mem_cons_self, hfinalises⟩
    | _ => exact hfinalises.elim
  · obtain ⟨r, hr, hcarried, hmoved⟩ | ⟨id, now, trig, ha, hseeded, -⟩ :=
      Runtime.rows_from h.queue.inv hstepped hr'
    · exact ⟨r, hr, hcarried, live_of_moved hmoved hlive⟩
    · exact absurd hkind (hnormal id now trig r' ha hseeded)

theorem ne_of_mem_eraseIdx {found : List ReflectionCandidate} {i : Nat} {c c' : ReflectionCandidate}
    (hpairs : (found.map fun c => (c.threadId, c.agentId)).Nodup) (hc : found[i]? = some c)
    (hc' : c' ∈ found.eraseIdx i) : (c'.threadId, c'.agentId) ≠ (c.threadId, c.agentId) := by
  obtain ⟨j, hne, hget⟩ := List.mem_eraseIdx_iff_getElem?.mp hc'
  intro hsame
  have hj : j < found.length := (List.getElem?_eq_some_iff.mp hget).1
  have hpair : (found.map fun c => (c.threadId, c.agentId))[j]?
      = (found.map fun c => (c.threadId, c.agentId))[i]? := by
    rw [List.getElem?_map, List.getElem?_map, hget, hc, Option.map_some, Option.map_some, hsame]
  exact hne ((List.getElem?_inj (by simpa using hj) hpairs).mp hpair)

theorem TileInv.enqueue (h : TileInv env s) {i : Nat} {turn : BackgroundTurnId}
    {request : Runtime.PromptRequestId} {now : Time} {c : ReflectionCandidate}
    (hc : s.base.found[i]? = some c) (hturn : (s.turn? turn).isNone = true)
    {colleague : ColleagueId} {idem : Runtime.IdempotencyKey} {runtime : Runtime.St}
    (hstep : Runtime.step env.colleagues env.timing s.base.runtime
      (.enqueue request now (reflectionTrigger c turn colleague idem)) = some runtime) :
    TileInv env { s with
      base := { s.base with runtime, found := s.base.found.eraseIdx i }
      turns := (turn, fetchSlice s.base.threads c) :: s.turns } := by
  have hmem : c ∈ s.base.found := List.mem_of_getElem? hc
  have hfresh (k : Runtime.ClaimKey) (slice : List ThreadMessageRow)
      (hslice : s.turn? k = some slice) :
      List.lookup k ((turn, fetchSlice s.base.threads c) :: s.turns) = some slice := by
    have hne : (k == turn) = false := by
      refine beq_eq_false_iff_ne.mpr ?_
      rintro rfl
      rw [hslice] at hturn
      cases hturn
    rw [List.lookup_cons, hne]
    exact hslice
  have hseed {r : PromptRequest} (hseeded : Runtime.Seeded env.colleagues request
      (reflectionTrigger c turn colleague idem) r) : r.claimKey = turn := by
    rw [PromptRequest.claimKey, hseeded.stateId, hseeded.minted.backgroundTurnId]
    rfl
  refine ⟨h.queue.of_step hstep rfl (fun k hk => ?_) ?_ (fun _ => id) (fun _ => .inl)
    fun _ hfinalises => hfinalises.elim, ?_⟩
  · obtain ⟨slice, hslice⟩ := Option.isSome_iff_exists.mp hk
    exact Option.isSome_of_eq_some (hfresh k slice hslice)
  · rintro id now' trig r ha hseeded -
    cases ha
    rw [TileSt.turn?, hseed hseeded]
    simp
  have herased : PairSide env { s with
      base := { s.base with found := s.base.found.eraseIdx i }
      turns := (turn, fetchSlice s.base.threads c) :: s.turns } :=
    h.pairs.of_rows rfl rfl (List.eraseIdx_sublist _ _) rfl hfresh rfl
      fun r hr hlive _ => ⟨r, hr, .refl r, hlive⟩
  obtain ⟨hprevious, hahead, hidle⟩ := h.pairs.found c hmem
  obtain ⟨-, hstep⟩ := Option.ite_none_right_eq_some.mp hstep
  obtain rfl := Option.some.inj hstep
  cases henqueue : Runtime.enqueueTrigger env.colleagues request now
      (reflectionTrigger c turn colleague idem) s.base.runtime.db with
  | error e => exact herased
  | ok result =>
    obtain ⟨db, rid⟩ := result
    obtain hsame | ⟨r, hseeded, hinsert⟩ := Runtime.enqueueTrigger_seeded henqueue
    · refine herased.of_rows rfl rfl (.refl _) rfl (fun _ _ => id) rfl
        fun r hr hlive _ => ⟨r, ?_, .refl r, hlive⟩
      have hold : r ∈ db.promptRequests := hr
      rwa [hsame] at hold
    · refine herased.insert ⟨hprevious, hahead, hidle⟩
        (fun c' hc' => ne_of_mem_eraseIdx h.pairs.pairs hc hc')
        ⟨hseeded.minted.kindPayload, hseeded.agent⟩ ?_ hinsert
      rw [TileSt.turn?, hseed hseeded]
      simp

theorem TileInv.act (h : TileInv env s) {a : ReflectionAct} (hadmits : s.admits a = true)
    {base : ReflectionSt} (hstep : reflectionStep env s.base a = some base) :
    TileInv env { s with base, turns := s.turnsAfter a, marked := s.markedAfter a } := by
  cases a with
  | createThread id org =>
    obtain ⟨threads, -, rfl⟩ := Option.map_eq_some_iff.mp hstep
    exact h.feed (h.pairs.feed.of_eq rfl rfl)
  | post id now org thread new =>
    obtain ⟨-, hstep⟩ := Option.ite_none_right_eq_some.mp hstep
    obtain rfl := Option.some.inj hstep
    exact h.feed (appendMessage_extends h.pairs.feed id now org thread new)
  | participate id now thread agent =>
    cases hjoin : Threads.resolveParticipation id now thread agent s.base.threads with
    | error e => simp [reflectionStep, hjoin] at hstep
    | ok joined =>
      obtain ⟨threads, state⟩ := joined
      simp only [reflectionStep, hjoin, Option.ite_none_right_eq_some, Option.some.injEq] at hstep
      obtain ⟨-, rfl⟩ := hstep
      obtain ⟨hmessages, hseqs⟩ := resolveParticipation_feed hjoin
      exact h.feed (h.pairs.feed.of_eq hmessages hseqs)
  | tick now tie =>
    obtain ⟨-, hstep⟩ := Option.ite_none_right_eq_some.mp hstep
    obtain rfl := Option.some.inj hstep
    have hfound : s.base.found = [] := List.isEmpty_iff.mp hadmits
    rw [hfound, List.nil_append]
    exact ⟨h.queue.of_runtime rfl rfl rfl h.queue.advanced, h.pairs.tick h.queue.kinds now tie⟩
  | enqueue i turn request now =>
    simp only [reflectionStep, Option.bind_eq_bind, Option.bind_eq_some_iff] at hstep
    obtain ⟨c, hc, colleague, -, idem, -, runtime, hruntime, hbase⟩ := hstep
    obtain rfl := Option.some.inj hbase
    have henqueue := h.enqueue hc hadmits hruntime
    simpa only [TileSt.turnsAfter, TileSt.markedAfter, hc, Option.map_some, Option.getD_some]
      using henqueue
  | giveUp i =>
    obtain ⟨-, hstep⟩ := Option.ite_none_right_eq_some.mp hstep
    obtain rfl := Option.some.inj hstep
    exact ⟨h.queue.of_runtime rfl rfl rfl h.queue.advanced,
      h.pairs.of_rows rfl rfl (List.eraseIdx_sublist _ _) rfl (fun _ _ => id) rfl
        fun r hr hlive _ => ⟨r, hr, .refl r, hlive⟩⟩
  | advance worker turn now => cases hadmits
  | work a =>
    obtain ⟨runtime, hruntime, rfl⟩ := Option.map_eq_some_iff.mp hstep
    exact h.work hadmits hruntime

theorem TileInv.step (h : TileInv env s) {a : TileAct} (hwritten : Written s a)
    (hstep : tileStep env s a = some s') : TileInv env s' := by
  cases a with
  | act a =>
    obtain ⟨hadmits, hstep⟩ := Option.ite_none_right_eq_some.mp hstep
    obtain ⟨base, hbase, rfl⟩ := Option.map_eq_some_iff.mp hstep
    exact h.act hadmits hbase
  | succeed worker turn now written =>
    obtain rfl : written = true := hwritten
    exact h.succeed hstep

/-- In a run that loses no checkpoint, the reflections that went well tile their threads. -/
theorem tiled_of_written (env : ReflectionEnv) (acts : List TileAct)
    (h : Steps (tileStep env) Written .init acts) : Always (tileStep env) (Tiled env) .init acts :=
  (Steps.always (fun _ => True) (fun _ _ _ _ _ _ _ => trivial)
    (fun _ _ _ _ hi hstep hwritten => TileInv.step hi hwritten hstep) trivial .init h).mono
      fun _ hi => hi.pairs.tiled

namespace Sample

def turnFor (turn : BackgroundTurnId) (request : Runtime.PromptRequestId) (upTo : ThreadMessageId) :
    ClaimedTurn :=
  { reflected with
    claimKey := turn
    triggerIds := [request]
    rootRequestId := request
    kindPayload := .reflection 4 upTo }

def reflect (turn : BackgroundTurnId) (request : Runtime.PromptRequestId) (upTo : ThreadMessageId)
    (now : Time) (written : Bool) : List TileAct :=
  [.act (.work (.tick REFLECTION_IDLE_TIMEOUT)), .act (.tick now byIds),
    .act (.enqueue 0 turn request now), .act (.work (.claimBegin 5)),
    .act (.work (.claimSelect 5 (some request))), .act (.work (.claimBump 5)),
    .act (.work (.claimLease 5)),
    .act (.work (.claimDrain 5
      [⟨request, .reflection, none, 1, some 7, .reflection 4 upTo, request⟩])),
    .act (.work (.claimCommit 5)), .succeed 5 (turnFor turn request upTo) now written,
    .act (.work (.markTurnDone 5 (turnFor turn request upTo).receipt now))]

def opened : List TileAct :=
  [.act (.createThread 4 1), .act (.participate 9 0 4 7), .act (.post 10 0 1 4 message)]

def inTurn (written : Bool) : List TileAct :=
  opened ++ reflect 20 30 10 (idle 1) written ++ [.act (.post 11 (idle 1) 1 4 message)] ++
    reflect 21 31 11 (idle 2) true

end Sample

theorem tiled_of_written_inTurn : Always (tileStep Sample.company) (Tiled Sample.company) .init
    (Sample.inTurn true) :=
  tiled_of_written Sample.company (Sample.inTurn true) (by decide +kernel)

/-- A checkpoint that is lost has the agent reflect on the same message again. -/
theorem not_tiled : ¬ ∀ env acts, Always (tileStep env) (Tiled env) .init acts := by
  intro hall
  have hrun : ((run (tileStep Sample.company) .init (Sample.inTurn false)).any fun t =>
      (t.slices 7 4).map (·.seq) = [1, 1, 2]) = true := by decide +kernel
  obtain ⟨t, ht, htwice⟩ := (Option.any_eq_true _ _).mp hrun
  have htiled := (hall Sample.company (Sample.inTurn false)).run ht
  have hordered := List.pairwise_map.mpr (htiled.reflected 7 4).ordered
  rw [of_decide_eq_true htwice] at hordered
  exact absurd hordered (by decide)

end Patom.Memory
