import Patom.Foundation.Journal
import Patom.Foundation.Ranking
import Patom.Memory.Feed
import Patom.Runtime.Drained
import Patom.Threads.Store

open Patom.Foundation
open Patom.Runtime (ClaimedTurn DrainInv WorkerId)
open Patom.Threads (AgentThreadState NewThreadMessage ThreadDb ThreadMessageRow appendMessage
  appendMessage_frame resolveParticipation)

namespace Patom.Memory

section Defs

variable (db : ThreadDb) (thread : ThreadId)

def Past (id : ThreadMessageId) : Prop :=
  ∃ m ∈ posted db thread, ∀ lm ∈ db.threadMessages.find? id, lm.seq < m.seq

def Since (t : Time) : Prop := ∃ m ∈ posted db thread, t < m.createdAt

variable (env : ReflectionEnv) (s : ReflectionSt) (now : Time) (tie : AgentId × ThreadId ↪ Nat)
  (ats : AgentThreadState)

def Unreflected : Prop :=
  ∃ m ∈ posted s.threads ats.threadId, ∀ rc ∈ s.checkpoint ats.agentId ats.threadId,
    ∀ lm ∈ s.threads.threadMessages.find? rc.lastMessageId, lm.seq < m.seq

def PostedSince : Prop :=
  ∃ m ∈ posted s.threads ats.threadId, ∀ rc ∈ s.checkpoint ats.agentId ats.threadId,
    rc.createdAt < m.createdAt

def Idle : Prop := ∀ m ∈ posted s.threads ats.threadId, m.createdAt + env.idleThreshold ≤ now

def Found : Prop :=
  ∃ c ∈ findCandidates env s now tie, c.agentId = ats.agentId ∧ c.threadId = ats.threadId

/-- Of the pairs that are quiet, those unreflected are the candidates. -/
def CandidatesExact : Prop :=
  ∀ ats ∈ s.threads.agentThreadState, Idle env s now ats →
    (Found env s now tie ats ↔ Unreflected s ats)

instance (id : ThreadMessageId) : Decidable (Past db thread id) :=
  inferInstanceAs (Decidable (∃ m ∈ posted db thread,
    ∀ lm ∈ db.threadMessages.find? id, lm.seq < m.seq))

instance (t : Time) : Decidable (Since db thread t) :=
  inferInstanceAs (Decidable (∃ m ∈ posted db thread, t < m.createdAt))

instance : Decidable (Unreflected s ats) :=
  inferInstanceAs (Decidable (∃ m ∈ posted s.threads ats.threadId,
    ∀ rc ∈ s.checkpoint ats.agentId ats.threadId,
      ∀ lm ∈ s.threads.threadMessages.find? rc.lastMessageId, lm.seq < m.seq))

instance : Decidable (Idle env s now ats) :=
  inferInstanceAs (Decidable (∀ m ∈ posted s.threads ats.threadId,
    m.createdAt + env.idleThreshold ≤ now))

instance : Decidable (Found env s now tie ats) :=
  inferInstanceAs (Decidable (∃ c ∈ findCandidates env s now tie,
    c.agentId = ats.agentId ∧ c.threadId = ats.threadId))

instance : Decidable (CandidatesExact env s now tie) :=
  inferInstanceAs (Decidable (∀ ats ∈ s.threads.agentThreadState, Idle env s now ats →
    (Found env s now tie ats ↔ Unreflected s ats)))

def Joined : Prop :=
  ∀ ats ∈ s.threads.agentThreadState, (s.threads.threads.find? ats.threadId).isSome

def awaiting : List AgentThreadState :=
  s.threads.agentThreadState.rows.filter fun ats => Idle env s now ats ∧ Unreflected s ats

/-- The pairs that wait are of threads that a user created and nobody reflects on, and there is
room for all of them in the batch. -/
def Servable : Prop :=
  (∀ ats ∈ awaiting env s now,
    (env.creator ats.threadId).isSome ∧ s.reflecting ats.threadId = false) ∧
  (awaiting env s now).length ≤ env.batchLimit

/-- When the first checkpoint of a pair is written, something is stamped later exactly if something
is posted past its row; when it moves, something is posted past the new row exactly if something is
past the old. -/
def Marks (turn : ClaimedTurn) : Prop :=
  match turn.kindPayload with
  | .reflection thread upTo =>
    match s.checkpoint turn.receiverAgentId thread with
    | none => Past s.threads thread upTo ↔ Since s.threads thread now
    | some rc => Past s.threads thread rc.lastMessageId ↔ Past s.threads thread upTo
  | .normal | .resolution _ => True

/-- A post is stamped after the checkpoints of its thread, and nothing but the scheduler enqueues
reflections. -/
def Timely : ReflectionAct → Prop
  | .post _ now _ thread new =>
    new.kind = .posted → ∀ rc ∈ s.checkpoints, rc.threadId = thread → rc.createdAt < now
  | .advance _ turn now => Marks s now turn
  | .tick now _ => Servable env s now
  | .work (.enqueue _ _ trig) => trig.kindPayload.kind ≠ .reflection
  | _ => True

def AtTick (P : ReflectionSt → Time → (AgentId × ThreadId ↪ Nat) → Prop) (s : ReflectionSt) :
    ReflectionAct → Prop
  | .tick now tie => P s now tie
  | _ => True

instance : Decidable (Servable env s now) :=
  inferInstanceAs (Decidable (_ ∧ _))

instance (turn : ClaimedTurn) : Decidable (Marks s now turn) := by
  unfold Marks
  split
  · split <;> infer_instance
  · infer_instance
  · infer_instance

instance (a : ReflectionAct) : Decidable (Timely env s a) := by
  unfold Timely
  split <;> infer_instance

instance (a : ReflectionAct) : Decidable (AtTick (CandidatesExact env) s a) := by
  cases a <;> unfold AtTick <;> infer_instance

end Defs

variable {env : ReflectionEnv} {s : ReflectionSt} {now : Time} {tie : AgentId × ThreadId ↪ Nat}
  {ats : AgentThreadState}

theorem latestAt_eq_some_iff {db : ThreadDb} {thread : ThreadId} {t : Time} :
    latestAt db thread = some t ↔
      (∃ m ∈ posted db thread, m.createdAt = t) ∧ ∀ m ∈ posted db thread, m.createdAt ≤ t := by
  rw [latestAt, List.max?_eq_some_iff]
  simp

theorem latestSeq_eq_some_iff {db : ThreadDb} {thread : ThreadId} {n : Threads.Seq} :
    latestSeq db thread = some n ↔
      (∃ m ∈ posted db thread, m.seq = n) ∧ ∀ m ∈ posted db thread, m.seq ≤ n := by
  rw [latestSeq, List.max?_eq_some_iff]
  simp

theorem latestAt_isSome {db : ThreadDb} {thread : ThreadId} {m : ThreadMessageRow}
    (h : m ∈ posted db thread) : ∃ t, latestAt db thread = some t := by
  refine Option.ne_none_iff_exists'.mp fun hnone => ?_
  rw [latestAt, List.max?_eq_none_iff, List.map_eq_nil_iff] at hnone
  rw [hnone] at h
  cases h

theorem latestRow_isSome {db : ThreadDb} {thread : ThreadId} {m : ThreadMessageRow}
    (h : m ∈ posted db thread) : ∃ seq lm, latestSeq db thread = some seq ∧
      db.threadMessages.rows.find? (fun m => m.threadId = thread && m.seq = seq) = some lm := by
  obtain ⟨seq, hseq⟩ : ∃ seq, latestSeq db thread = some seq := by
    refine Option.ne_none_iff_exists'.mp fun hnone => ?_
    rw [latestSeq, List.max?_eq_none_iff, List.map_eq_nil_iff] at hnone
    rw [hnone] at h
    cases h
  obtain ⟨lm, hlm, rfl⟩ := List.mem_map.mp (List.max?_mem hseq)
  obtain ⟨hmem, hthread⟩ := List.mem_filter.mp hlm
  obtain ⟨row, hrow⟩ := Option.isSome_iff_exists.mp (List.find?_isSome.mpr
    ⟨lm, hmem, by simpa using (Bool.and_eq_true_iff.mp hthread).1⟩ :
      (db.threadMessages.rows.find? fun m => m.threadId = thread && m.seq = lm.seq).isSome)
  exact ⟨lm.seq, row, hseq, hrow⟩

theorem candidate_eq_some {c : ReflectionCandidate} : candidate env s now ats = some c ↔
    ∃ seq at_ lm t user, latestSeq s.threads ats.threadId = some seq
      ∧ latestAt s.threads ats.threadId = some at_
      ∧ s.threads.threadMessages.rows.find? (fun m => m.threadId = ats.threadId && m.seq = seq)
          = some lm
      ∧ s.threads.threads.find? ats.threadId = some t ∧ env.creator ats.threadId = some user
      ∧ (at_ + env.idleThreshold ≤ now
        ∧ (∀ rc ∈ s.checkpoint ats.agentId ats.threadId, rc.createdAt < at_)
        ∧ s.reflecting ats.threadId = false)
      ∧ c = ⟨ats.agentId, ats.threadId, lm.id, at_,
          (s.checkpoint ats.agentId ats.threadId).map (·.lastMessageId), t.orgId, user⟩ := by
  simp only [candidate, Option.bind_eq_bind, Option.bind_eq_some_iff, Option.ite_none_right_eq_some,
    Bool.and_eq_true, decide_eq_true_eq, Bool.not_eq_true', Option.all_eq_true]
  constructor
  · rintro ⟨seq, hseq, at_, hat, lm, hlm, t, ht, user, huser, ⟨⟨hidle, hrc⟩, hlive⟩, hc⟩
    exact ⟨seq, at_, lm, t, user, hseq, hat, hlm, ht, huser, ⟨hidle, hrc, hlive⟩,
      (Option.some.inj hc).symm⟩
  · rintro ⟨seq, at_, lm, t, user, hseq, hat, hlm, ht, huser, ⟨hidle, hrc, hlive⟩, rfl⟩
    exact ⟨seq, hseq, at_, hat, lm, hlm, t, ht, user, huser, ⟨⟨hidle, hrc⟩, hlive⟩, rfl⟩

theorem postedSince_iff {t : Time} (h : latestAt s.threads ats.threadId = some t) :
    PostedSince s ats ↔ ∀ rc ∈ s.checkpoint ats.agentId ats.threadId, rc.createdAt < t := by
  obtain ⟨⟨m, hm, rfl⟩, hmax⟩ := latestAt_eq_some_iff.mp h
  exact ⟨fun ⟨m', hm', hrc⟩ rc hrc' => (hrc rc hrc').trans_le (hmax m' hm'), fun hrc => ⟨m, hm, hrc⟩⟩

theorem candidate_isSome_iff (hjoined : (s.threads.threads.find? ats.threadId).isSome)
    (hquiet : Idle env s now ats) :
    (∃ c, candidate env s now ats = some c) ↔
      (env.creator ats.threadId).isSome ∧ s.reflecting ats.threadId = false ∧ PostedSince s ats := by
  constructor
  · rintro ⟨c, hc⟩
    obtain ⟨seq, at_, lm, t, user, -, hat, -, -, huser, ⟨-, hrc, hlive⟩, -⟩ :=
      candidate_eq_some.mp hc
    exact ⟨Option.isSome_of_eq_some huser, hlive, (postedSince_iff hat).mpr hrc⟩
  · rintro ⟨hcreator, hlive, hsince⟩
    obtain ⟨m, hm, -⟩ := id hsince
    obtain ⟨at_, hat⟩ := latestAt_isSome hm
    obtain ⟨seq, lm, hseq, hlm⟩ := latestRow_isSome hm
    obtain ⟨t, ht⟩ := Option.isSome_iff_exists.mp hjoined
    obtain ⟨user, huser⟩ := Option.isSome_iff_exists.mp hcreator
    obtain ⟨⟨latest, hlatest, rfl⟩, -⟩ := latestAt_eq_some_iff.mp hat
    exact ⟨_, candidate_eq_some.mpr ⟨seq, latest.createdAt, lm, t, user, hseq, hat, hlm, ht, huser,
      ⟨hquiet latest hlatest, (postedSince_iff hat).mp hsince, hlive⟩, rfl⟩⟩

theorem matched_nodup (env : ReflectionEnv) (s : ReflectionSt) (now : Time) :
    ((matched env s now).map fun c => (c.threadId, c.agentId)).Nodup := by
  refine s.threads.agentThreadState.nodup.sublist
    (Table.map_filterMap_sublist (candidate env s now) _ fun ats c hc => ?_)
  obtain ⟨seq, at_, lm, t, user, -, -, -, -, -, -, rfl⟩ := candidate_eq_some.mp hc
  rfl

theorem position_injective {c c' : ReflectionCandidate} (h : c.position tie = c'.position tie) :
    (c.agentId, c.threadId) = (c'.agentId, c'.threadId) :=
  tie.injective (congrArg (fun p => (ofLex p).2) h)

theorem mem_findCandidates {c : ReflectionCandidate} : c ∈ findCandidates env s now tie ↔
    c ∈ matched env s now
      ∧ place (·.position tie) (matched env s now) c < env.batchLimit := by
  have hperm := inOrder_perm (·.position tie) (matched env s now)
  have hsorted := inOrder_strict (·.position tie) (matched_nodup env s now)
    fun c c' e => congrArg Prod.swap (position_injective e)
  rw [← place_perm hperm, ← hperm.mem_iff]
  exact mem_take_iff_place hsorted

theorem Idle.of_candidate {c : ReflectionCandidate} (h : candidate env s now ats = some c) :
    Idle env s now ats := by
  obtain ⟨seq, at_, lm, t, user, -, hat, -, -, -, ⟨hidle, -, -⟩, -⟩ := candidate_eq_some.mp h
  intro m hm
  exact (Nat.add_le_add_right ((latestAt_eq_some_iff.mp hat).2 m hm) env.idleThreshold).trans hidle

theorem found_iff (hats : ats ∈ s.threads.agentThreadState) :
    Found env s now tie ats ↔ ∃ c, candidate env s now ats = some c
      ∧ place (·.position tie) (matched env s now) c < env.batchLimit := by
  constructor
  · rintro ⟨c, hc, hagent, hthread⟩
    obtain ⟨hmatched, hplace⟩ := mem_findCandidates.mp hc
    obtain ⟨ats', hats', hc'⟩ := List.mem_filterMap.mp hmatched
    have hpair : key ats' = key ats := by
      obtain ⟨seq, at_, lm, t, user, -, -, -, -, -, -, rfl⟩ := candidate_eq_some.mp hc'
      exact Prod.ext hthread hagent
    obtain rfl := Table.eq_of_key_eq hats' hats hpair
    exact ⟨c, hc', hplace⟩
  · rintro ⟨c, hc, hlt⟩
    refine ⟨c, mem_findCandidates.mpr ⟨List.mem_filterMap.mpr ⟨ats, hats, hc⟩, hlt⟩, ?_⟩
    obtain ⟨seq, at_, lm, t, user, -, -, -, -, -, -, rfl⟩ := candidate_eq_some.mp hc
    exact ⟨rfl, rfl⟩

def StampsAgree (s : ReflectionSt) : Prop :=
  ∀ rc ∈ s.checkpoints, Since s.threads rc.threadId rc.createdAt ↔
    Past s.threads rc.threadId rc.lastMessageId

theorem StampsAgree.postedSince_iff (h : StampsAgree s) (ats : AgentThreadState) :
    PostedSince s ats ↔ Unreflected s ats := by
  unfold PostedSince Unreflected
  cases hrc : s.checkpoint ats.agentId ats.threadId with
  | none => simp
  | some rc =>
    obtain ⟨hmem, hkey⟩ := Table.find?_eq_some.mp hrc
    obtain ⟨-, hthread⟩ := Prod.mk.inj hkey
    simpa [Since, Past, hthread] using h rc hmem

theorem mem_awaiting : ats ∈ awaiting env s now ↔
    ats ∈ s.threads.agentThreadState ∧ Idle env s now ats ∧ Unreflected s ats := by
  rw [awaiting, List.mem_filter, decide_eq_true_eq]
  rfl

theorem StampsAgree.matches_iff (h : StampsAgree s) (hjoined : Joined s)
    (hats : ats ∈ s.threads.agentThreadState) : (∃ c, candidate env s now ats = some c) ↔
      ats ∈ awaiting env s now ∧ (env.creator ats.threadId).isSome
        ∧ s.reflecting ats.threadId = false := by
  rw [mem_awaiting]
  constructor
  · rintro ⟨c, hc⟩
    have hidle := Idle.of_candidate hc
    obtain ⟨hcreator, hlive, hsince⟩ := (candidate_isSome_iff (hjoined ats hats) hidle).mp ⟨c, hc⟩
    exact ⟨⟨hats, hidle, (h.postedSince_iff ats).mp hsince⟩, hcreator, hlive⟩
  · rintro ⟨⟨-, hidle, hnews⟩, hcreator, hlive⟩
    exact (candidate_isSome_iff (hjoined ats hats) hidle).mpr
      ⟨hcreator, hlive, (h.postedSince_iff ats).mpr hnews⟩

theorem length_matched (h : StampsAgree s) (hjoined : Joined s)
    (hopen : ∀ ats ∈ awaiting env s now,
      (env.creator ats.threadId).isSome ∧ s.reflecting ats.threadId = false) :
    (matched env s now).length = (awaiting env s now).length := by
  rw [matched, List.length_filterMap_eq_countP, awaiting, ← List.countP_eq_length_filter]
  refine List.countP_congr fun ats hats => ?_
  rw [Option.isSome_iff_exists, h.matches_iff hjoined hats, decide_eq_true_eq]
  constructor
  · rintro ⟨hwaits, -⟩
    exact (mem_awaiting.mp hwaits).2
  · intro hwaits
    have hmem := mem_awaiting.mpr ⟨hats, hwaits⟩
    exact ⟨hmem, hopen ats hmem⟩

theorem length_findCandidates_le : (findCandidates env s now tie).length ≤ env.batchLimit :=
  List.length_take_le _ _

theorem candidatesExact_iff (h : StampsAgree s) (hjoined : Joined s) :
    CandidatesExact env s now tie ↔ Servable env s now := by
  constructor
  · intro hexact
    have hopen : ∀ ats ∈ awaiting env s now,
        (env.creator ats.threadId).isSome ∧ s.reflecting ats.threadId = false := by
      intro ats hwaits
      obtain ⟨hats, hidle, hnews⟩ := mem_awaiting.mp hwaits
      obtain ⟨c, hc, -⟩ := (found_iff hats).mp ((hexact ats hats hidle).mpr hnews)
      exact ((h.matches_iff hjoined hats).mp ⟨c, hc⟩).2
    refine ⟨hopen, ?_⟩
    have hfound : ∀ c ∈ matched env s now, c ∈ findCandidates env s now tie := by
      intro c hc
      obtain ⟨ats, hats, hcandidate⟩ := List.mem_filterMap.mp hc
      obtain ⟨-, hidle, hnews⟩ :=
        mem_awaiting.mp ((h.matches_iff hjoined hats).mp ⟨c, hcandidate⟩).1
      obtain ⟨c', hc', hplace⟩ := (found_iff hats).mp ((hexact ats hats hidle).mpr hnews)
      obtain rfl := Option.some.inj (hcandidate.symm.trans hc')
      exact mem_findCandidates.mpr ⟨hc, hplace⟩
    rw [← length_matched h hjoined hopen]
    exact ((matched_nodup env s now).of_map _ |>.subperm hfound).length_le.trans
      length_findCandidates_le
  · rintro ⟨hopen, hroom⟩ ats hats hidle
    rw [found_iff hats]
    constructor
    · rintro ⟨c, hc, -⟩
      exact (mem_awaiting.mp ((h.matches_iff hjoined hats).mp ⟨c, hc⟩).1).2.2
    · intro hnews
      have hwaits := mem_awaiting.mpr ⟨hats, hidle, hnews⟩
      obtain ⟨c, hc⟩ := (h.matches_iff hjoined hats).mpr ⟨hwaits, hopen ats hwaits⟩
      refine ⟨c, hc, (place_lt (List.mem_filterMap.mpr ⟨ats, hats, hc⟩)).trans_le ?_⟩
      rwa [← matched, length_matched h hjoined hopen]

def Shows (db : ThreadDb) (thread : ThreadId) (id : ThreadMessageId) : Prop :=
  ∃ m ∈ posted db thread, m.id = id

section Shows

variable {db : ThreadDb} {thread : ThreadId}

theorem past_iff {m : ThreadMessageRow} (hm : m ∈ posted db thread) :
    Past db thread m.id ↔ ∃ m' ∈ posted db thread, m.seq < m'.seq := by
  have hfind : db.threadMessages.find? m.id = some m := Table.find?_of_mem (mem_posted.mp hm).1
  simp [Past, hfind]

theorem Shows.mono {db' : ThreadDb} {id : ThreadMessageId} (h : Shows db thread id)
    (hrows : ∀ m ∈ posted db thread, m ∈ posted db' thread) : Shows db' thread id :=
  h.imp fun m hm => ⟨hrows m hm.1, hm.2⟩

theorem Shows.of_candidate {c : ReflectionCandidate} (h : FeedInv s.threads)
    (hc : candidate env s now ats = some c) : Shows s.threads c.threadId c.lastMessageId := by
  obtain ⟨seq, at_, lm, t, user, hseq, -, hlm, -, -, -, rfl⟩ := candidate_eq_some.mp hc
  obtain ⟨⟨m, hm, rfl⟩, -⟩ := latestSeq_eq_some_iff.mp hseq
  obtain ⟨hmem, hthread, -⟩ := mem_posted.mp hm
  have hlmSpec := List.find?_some hlm
  rw [Bool.and_eq_true, decide_eq_true_eq, decide_eq_true_eq] at hlmSpec
  obtain rfl := h.unique lm (List.mem_of_find?_eq_some hlm) m hmem
    (hlmSpec.1.trans hthread.symm) hlmSpec.2
  exact ⟨lm, hm, rfl⟩

end Shows

/-- What a run keeps: reflections are on rows that their threads show, and the stamps agree. -/
structure SyncInv (env : ReflectionEnv) (s : ReflectionSt) : Prop where
  joined : Joined s
  feed : FeedInv s.threads
  queue : Runtime.Inv env.colleagues s.runtime
  drained : DrainInv env.colleagues s.runtime
  found : ∀ c ∈ s.found, Shows s.threads c.threadId c.lastMessageId
  requests : ∀ r ∈ s.runtime.db.promptRequests, ∀ thread upTo,
    r.kindPayload = .reflection thread upTo → Shows s.threads thread upTo
  checkpoints : ∀ rc ∈ s.checkpoints, Shows s.threads rc.threadId rc.lastMessageId
  stamps : StampsAgree s

theorem SyncInv.init : SyncInv env .init where
  joined _ h := (Table.not_mem_empty _ h).elim
  feed := .empty
  queue := .init
  drained := .init
  found _ h := by cases h
  requests _ h := (Table.not_mem_empty _ h).elim
  checkpoints _ h := (Table.not_mem_empty _ h).elim
  stamps _ h := (Table.not_mem_empty _ h).elim

theorem SyncInv.of_threads (h : SyncInv env s) {threads : ThreadDb}
    (hjoined : Joined { s with threads }) (hfeed : FeedInv threads)
    (hrows : ∀ thread, ∀ m ∈ posted s.threads thread, m ∈ posted threads thread)
    (hstamps : StampsAgree { s with threads }) : SyncInv env { s with threads } where
  joined := hjoined
  feed := hfeed
  queue := h.queue
  drained := h.drained
  found c hc := (h.found c hc).mono (hrows c.threadId)
  requests r hr thread upTo hpayload := (h.requests r hr thread upTo hpayload).mono (hrows thread)
  checkpoints rc hrc := (h.checkpoints rc hrc).mono (hrows rc.threadId)
  stamps := hstamps

theorem SyncInv.of_posted (h : SyncInv env s) {threads : ThreadDb}
    (hjoined : Joined { s with threads }) (hfeed : FeedInv threads)
    (hposted : ∀ thread, posted threads thread = posted s.threads thread) :
    SyncInv env { s with threads } := by
  refine h.of_threads hjoined hfeed (fun thread m hm => (hposted thread).symm ▸ hm) fun rc hrc => ?_
  obtain ⟨m, hm, hid⟩ := h.checkpoints rc hrc
  have hagree := h.stamps rc hrc
  rw [← hid, past_iff hm] at hagree
  rw [← hid, past_iff ((hposted rc.threadId).symm ▸ hm), Since, hposted]
  exact hagree

theorem SyncInv.post (h : SyncInv env s) {id : ThreadMessageId} {org : OrgId} {thread : ThreadId}
    {new : NewThreadMessage} (htimely : Timely env s (.post id now org thread new)) :
    SyncInv env { s with threads := (appendMessage id now org thread new s.threads).1 } := by
  obtain ⟨hthreads, hstates, -⟩ := appendMessage_frame id now org thread new s.threads
  have hposted := posted_append h.feed id now org thread new
  refine h.of_threads ?_ (appendMessage_extends h.feed id now org thread new).1
    (fun thread' m hm => ?_) fun rc hrc => ?_
  · intro ats hats
    rw [hthreads]
    exact h.joined ats (hstates ▸ hats)
  · obtain hsame | ⟨row, -, -, -, happend⟩ := hposted thread'
    · exact hsame ▸ hm
    · exact happend ▸ List.mem_append_left _ hm
  · obtain ⟨m, hm, hid⟩ := h.checkpoints rc hrc
    obtain hsame | ⟨row, ⟨-, hkind, hnow⟩, hthread, hlast, happend⟩ := hposted rc.threadId
    · have hagree := h.stamps rc hrc
      rw [← hid, past_iff hm] at hagree
      rw [← hid, past_iff (hsame.symm ▸ hm), Since, hsame]
      exact hagree
    · -- the new row is news by its stamp and by its number
      have hrow := List.mem_append_right (posted s.threads rc.threadId) (List.mem_singleton_self row)
      obtain ⟨hmem, hthread', -⟩ := mem_posted.mp hm
      rw [← hid, past_iff (happend.symm ▸ List.mem_append_left _ hm), Since, happend]
      exact iff_of_true ⟨row, hrow, hnow ▸ htimely hkind rc hrc hthread.symm⟩
        ⟨row, hrow, hlast m hmem hthread'⟩

theorem SyncInv.of_queue (h : SyncInv env s) {a : Runtime.Act} {runtime : Runtime.St}
    (hstep : Runtime.step env.colleagues env.timing s.runtime a = some runtime)
    (henqueue : ∀ id now trig, a = .enqueue id now trig → ∀ thread upTo,
      trig.kindPayload = .reflection thread upTo → Shows s.threads thread upTo) :
    SyncInv env { s with runtime } := by
  have hstepped := Runtime.step_stepped hstep
  refine { h with
    queue := h.queue.step hstep
    drained := h.drained.step hstepped
    requests := fun r' hr' thread upTo hpayload => ?_ }
  obtain ⟨r, hr, hcarried, -⟩ | ⟨id, now, trig, ha, hseeded, -⟩ :=
    Runtime.rows_from h.queue hstepped hr'
  · exact h.requests r hr thread upTo (hcarried.payload.symm.trans hpayload)
  · exact henqueue id now trig ha thread upTo (hseeded.minted.kindPayload.symm.trans hpayload)

theorem SyncInv.erase (h : SyncInv env s) (i : Nat) :
    SyncInv env { s with found := s.found.eraseIdx i } :=
  { h with found := fun c hc => h.found c (List.mem_of_mem_eraseIdx hc) }

theorem SyncInv.tick (h : SyncInv env s) :
    SyncInv env { s with found := s.found ++ findCandidates env s now tie } := by
  refine { h with found := fun c hc => ?_ }
  obtain hc | hc := List.mem_append.mp hc
  · exact h.found c hc
  · obtain ⟨ats, -, hcandidate⟩ := List.mem_filterMap.mp (mem_findCandidates.mp hc).1
    exact Shows.of_candidate h.feed hcandidate

theorem mem_advanceReflectionCheckpoint {checkpoints : Table ReflectionCheckpoint} {org : OrgId}
    {agent : AgentId} {thread : ThreadId} {upTo : ThreadMessageId} {rc : ReflectionCheckpoint}
    (h : rc ∈ advanceReflectionCheckpoint now org agent thread upTo checkpoints) :
    rc ∈ checkpoints ∨ rc.threadId = thread ∧ rc.lastMessageId = upTo ∧
      rc.createdAt = ((checkpoints.find? (agent, thread)).map (·.createdAt)).getD now := by
  unfold advanceReflectionCheckpoint at h
  split at h
  · rename_i row hrow
    have hkey : key row = (agent, thread) := Table.key_of_find? hrow
    obtain rfl | ⟨hmem, -⟩ := Table.mem_put.mp h
    · exact .inr ⟨(Prod.mk.inj hkey).2, rfl, by rw [hrow]; rfl⟩
    · exact .inl hmem
  · rename_i hnone
    obtain rfl | ⟨hmem, -⟩ := Table.mem_put.mp h
    · exact .inr ⟨rfl, rfl, by rw [hnone]; rfl⟩
    · exact .inl hmem

theorem advance_eq_some {s' : ReflectionSt} {worker : WorkerId} {turn : ClaimedTurn}
    {thread : ThreadId} {upTo : ThreadMessageId} (hpayload : turn.kindPayload = .reflection thread upTo)
    (h : advance s worker turn now = some s') :
    (turn.receipt ∉ s.advanced ∧ ∃ c ∈ s.runtime.claims, c.turn = .ok turn) ∧
      s' = { s with
        advanced := turn.receipt :: s.advanced
        checkpoints :=
          if (s.threads.threadMessages.find? upTo).isSome then
            advanceReflectionCheckpoint now turn.orgId turn.receiverAgentId thread upTo
              s.checkpoints
          else s.checkpoints } := by
  unfold advance at h
  rw [hpayload] at h
  obtain ⟨hguard, h⟩ := Option.ite_none_right_eq_some.mp h
  simp only [Bool.and_eq_true, decide_eq_true_eq] at hguard
  obtain ⟨⟨-, hfresh⟩, hclaim⟩ := hguard
  obtain ⟨c, hc, hturn⟩ := List.any_eq_true.mp hclaim
  rw [Bool.and_eq_true, decide_eq_true_eq, decide_eq_true_eq] at hturn
  exact ⟨⟨hfresh, c, hc, toOption_eq_some.mp hturn.2⟩, (Option.some.inj h).symm⟩

theorem SyncInv.shows_of_turn (h : SyncInv env s) {turn : ClaimedTurn} {thread : ThreadId}
    {upTo : ThreadMessageId} (hclaim : ∃ c ∈ s.runtime.claims, c.turn = .ok turn)
    (hpayload : turn.kindPayload = .reflection thread upTo) : Shows s.threads thread upTo := by
  obtain ⟨c, hc, hturn⟩ := hclaim
  obtain ⟨r, hr, -, -, hsame, -⟩ := Runtime.turn_snapshot h.drained hc hturn
  exact h.requests r hr thread upTo (hsame.trans hpayload)

theorem SyncInv.advance (h : SyncInv env s) {s' : ReflectionSt} {worker : WorkerId}
    {turn : ClaimedTurn} (hmarks : Marks s now turn)
    (hstep : Memory.advance s worker turn now = some s') : SyncInv env s' := by
  cases hpayload : turn.kindPayload with
  | reflection thread upTo =>
    obtain ⟨⟨-, hclaim⟩, rfl⟩ := advance_eq_some hpayload hstep
    have hshows := h.shows_of_turn hclaim hpayload
    simp only [Marks, hpayload] at hmarks
    have hmem : ∀ rc ∈ (if (s.threads.threadMessages.find? upTo).isSome then
        advanceReflectionCheckpoint now turn.orgId turn.receiverAgentId thread upTo s.checkpoints
        else s.checkpoints), rc ∈ s.checkpoints ∨ rc.threadId = thread ∧ rc.lastMessageId = upTo ∧
          rc.createdAt =
            ((s.checkpoint turn.receiverAgentId thread).map (·.createdAt)).getD now := by
      intro rc hrc
      split at hrc
      · exact mem_advanceReflectionCheckpoint hrc
      · exact .inl hrc
    refine { h with checkpoints := fun rc hrc => ?_, stamps := fun rc hrc => ?_ }
    · obtain hold | ⟨hthread, hupTo, -⟩ := hmem rc hrc
      · exact h.checkpoints rc hold
      · rw [hthread, hupTo]
        exact hshows
    · obtain hold | ⟨hthread, hupTo, hcreated⟩ := hmem rc hrc
      · exact h.stamps rc hold
      · rw [hthread, hupTo, hcreated]
        cases hlast : s.checkpoint turn.receiverAgentId thread with
        | none =>
          rw [hlast] at hmarks
          exact hmarks.symm
        | some last =>
          rw [hlast] at hmarks
          obtain ⟨hmem, hkey⟩ := Table.find?_eq_some.mp hlast
          obtain ⟨-, hsame⟩ := Prod.mk.inj hkey
          have hagree := h.stamps last hmem
          rw [hsame] at hagree
          exact hagree.trans hmarks
  | normal | resolution _ =>
    rw [Memory.advance, hpayload] at hstep
    obtain ⟨-, hstep⟩ := Option.ite_none_right_eq_some.mp hstep
    cases hstep
    exact h

theorem resolveParticipation_frame {id : AgentThreadId} {now : Time} {thread : ThreadId}
    {agent : AgentId} {db db' : ThreadDb} {state : AgentThreadId}
    (h : resolveParticipation id now thread agent db = .ok (db', state)) :
    db'.threads = db.threads ∧ db'.threadMessages = db.threadMessages
      ∧ ∀ ats ∈ db'.agentThreadState, ats ∈ db.agentThreadState
        ∨ (db.threads.find? ats.threadId).isSome := by
  unfold resolveParticipation at h
  split at h
  · cases h
  · rename_i ht
    split at h
    · cases h
      exact ⟨rfl, rfl, fun _ => .inl⟩
    · cases h
      refine ⟨rfl, rfl, fun ats hats => ?_⟩
      obtain rfl | ⟨hats, -⟩ := Table.mem_put.mp hats
      · exact .inr (Option.isSome_of_eq_some ht)
      · exact .inl hats

theorem posted_congr {db db' : ThreadDb} (h : db'.threadMessages = db.threadMessages)
    (thread : ThreadId) : posted db' thread = posted db thread := by
  rw [posted, h, posted]

theorem SyncInv.step (h : SyncInv env s) {a : ReflectionAct} (htimely : Timely env s a)
    {s' : ReflectionSt} (hstep : reflectionStep env s a = some s') : SyncInv env s' := by
  cases a with
  | createThread id org =>
    obtain ⟨threads, hinsert, rfl⟩ := Option.map_eq_some_iff.mp hstep
    obtain ⟨hfeed, -⟩ : FeedInv { s.threads with threads } ∧
        Extends s.threads { s.threads with threads } := h.feed.of_eq rfl rfl
    refine h.of_posted (fun ats hats => ?_) hfeed fun _ => rfl
    have hfind := Table.find?_insert? hinsert ats.threadId
    dsimp only
    rw [hfind]
    split
    · rfl
    · exact h.joined ats hats
  | post id now org thread new =>
    obtain ⟨-, hstep⟩ := Option.ite_none_right_eq_some.mp hstep
    cases hstep
    exact h.post htimely
  | participate id now thread agent =>
    cases hjoin : resolveParticipation id now thread agent s.threads with
    | error e => simp [reflectionStep, hjoin] at hstep
    | ok joined =>
      obtain ⟨threads, state⟩ := joined
      simp only [reflectionStep, hjoin, Option.ite_none_right_eq_some, Option.some.injEq] at hstep
      obtain ⟨-, rfl⟩ := hstep
      obtain ⟨hthreads, hmessages, hstates⟩ := resolveParticipation_frame hjoin
      obtain ⟨-, hseqs⟩ := resolveParticipation_feed hjoin
      refine h.of_posted (fun ats hats => ?_) (h.feed.of_eq hmessages hseqs).1
        (posted_congr hmessages)
      rw [hthreads]
      obtain hold | hnew := hstates ats hats
      · exact h.joined ats hold
      · exact hnew
  | tick now tie =>
    obtain ⟨-, hstep⟩ := Option.ite_none_right_eq_some.mp hstep
    cases hstep
    exact h.tick
  | enqueue i turn request now =>
    simp only [reflectionStep, Option.bind_eq_bind, Option.bind_eq_some_iff] at hstep
    obtain ⟨c, hc, colleague, -, idem, -, runtime, hruntime, hstep⟩ := hstep
    cases hstep
    refine (h.of_queue hruntime fun id now trig ha thread upTo hpayload => ?_).erase i
    cases ha
    cases hpayload
    exact h.found c (List.mem_of_getElem? hc)
  | giveUp i =>
    obtain ⟨-, hstep⟩ := Option.ite_none_right_eq_some.mp hstep
    cases hstep
    exact h.erase i
  | advance worker turn now => exact h.advance htimely hstep
  | work a =>
    obtain ⟨runtime, hruntime, rfl⟩ := Option.map_eq_some_iff.mp hstep
    refine h.of_queue hruntime fun id now trig ha thread upTo hpayload => ?_
    subst ha
    exact absurd (congrArg Runtime.RequestKindPayload.kind hpayload) htimely

/-- In a run in which posts are stamped after the checkpoints of their threads and checkpoints are
written in step with the posts, the candidates of every tick that can serve all pairs that wait are
those pairs. -/
theorem candidates_exact_of_timely (env : ReflectionEnv) {as : List ReflectionAct}
    (h : Steps (reflectionStep env) (Timely env) .init as) :
    Steps (reflectionStep env) (AtTick (CandidatesExact env)) .init as := by
  refine h.imp (SyncInv env) (fun s a t hinv htimely hstep => hinv.step htimely hstep)
    (fun s a t hinv _ htimely => ?_) .init
  cases a with
  | tick now tie => exact (candidatesExact_iff hinv.stamps hinv.joined).mpr htimely
  | _ => exact trivial

namespace Sample

def company : ReflectionEnv where
  colleagues := Runtime.Sample.colleagues
  timing := .defaultConst
  creator _ := some 3
  idleThreshold := REFLECTION_IDLE_TIMEOUT
  batchLimit := REFLECTION_SCHEDULER_BATCH_LIMIT

def byIds : AgentId × ThreadId ↪ Nat where
  toFun p := p.1.toNat * 2 ^ 128 + p.2.toNat
  inj' p q h := by
    have hp := p.2.isLt
    have hq := q.2.isLt
    dsimp only at h
    exact Prod.ext (BitVec.eq_of_toNat_eq (by omega)) (BitVec.eq_of_toNat_eq (by omega))

def message : NewThreadMessage where
  kind := .posted
  sender := some 2
  ownerAgentId := none
  body := .user [.text "hello"]
  receiver := none
  requestId := none
  idempotencyKey := none

def idle (n : Nat) : Time := n * REFLECTION_IDLE_TIMEOUT

def reflected : ClaimedTurn where
  claimKey := 20
  kind := .reflection
  threadId := none
  orgId := 1
  actingUserId := 3
  receiverAgentId := 7
  receiverColleagueId := 1
  triggerIds := [30]
  rootRequestId := 30
  kindPayload := .reflection 4 10
  worker := 5
  leaseSeq := 1

def interrupted : List ReflectionAct :=
  [.createThread 4 1, .participate 9 0 4 7, .post 10 0 1 4 message,
    .work (.tick (idle 1)), .tick (idle 1) byIds, .enqueue 0 20 30 (idle 1),
    .work (.claimBegin 5), .work (.claimSelect 5 (some 30)), .work (.claimBump 5),
    .work (.claimLease 5),
    .work (.claimDrain 5 [⟨30, .reflection, none, 1, some 7, .reflection 4 10, 30⟩]),
    .work (.claimCommit 5), .post 11 (idle 1) 1 4 message,
    .work (.tick 1), .advance 5 reflected (idle 1 + 1),
    .work (.markTurnDone 5 reflected.receipt (idle 1 + 1)), .work (.tick (idle 1))]

def reflectedAgain : ClaimedTurn :=
  { reflected with
    claimKey := 21, triggerIds := [31], rootRequestId := 31, kindPayload := .reflection 4 11 }

def claimed (request : Runtime.PromptRequestId) (upTo : ThreadMessageId) : List ReflectionAct :=
  [.work (.claimBegin 5), .work (.claimSelect 5 (some request)), .work (.claimBump 5),
    .work (.claimLease 5),
    .work (.claimDrain 5 [⟨request, .reflection, none, 1, some 7, .reflection 4 upTo, request⟩]),
    .work (.claimCommit 5)]

def timely : List ReflectionAct :=
  [.createThread 4 1, .participate 9 0 4 7, .post 10 0 1 4 message,
    .work (.tick (idle 1)), .tick (idle 1) byIds, .enqueue 0 20 30 (idle 1)] ++ claimed 30 10 ++
  [.advance 5 reflected (idle 1), .work (.markTurnDone 5 reflected.receipt (idle 1)),
    .work (.tick (idle 1)), .tick (idle 2) byIds, .post 11 (idle 2) 1 4 message,
    .work (.tick (idle 1)), .tick (idle 3) byIds, .enqueue 0 21 31 (idle 3)] ++ claimed 31 11 ++
  [.post 12 (idle 3) 1 4 message, .advance 5 reflectedAgain (idle 3),
    .work (.markTurnDone 5 reflectedAgain.receipt (idle 3)),
    .work (.tick (idle 1)), .tick (idle 4) byIds]

end Sample

theorem candidates_exact_sample :
    Steps (reflectionStep Sample.company) (AtTick (CandidatesExact Sample.company)) .init
      Sample.timely ∧
    (run (reflectionStep Sample.company) .init Sample.timely).map
      (·.found.map (·.lastMessageId)) = some [12] :=
  ⟨candidates_exact_of_timely Sample.company (by decide +kernel), by decide +kernel⟩

/-- What is posted during the first reflection is never reflected on. -/
theorem interruption_missed :
    (run (reflectionStep Sample.company) .init Sample.interrupted).isSome ∧
      ¬ Steps (reflectionStep Sample.company) (AtTick (CandidatesExact Sample.company)) .init
        (Sample.interrupted ++ [.tick (Sample.idle 2 + 1) Sample.byIds]) := by
  decide +kernel

end Patom.Memory
