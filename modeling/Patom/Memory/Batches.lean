import Mathlib.Algebra.Order.Floor.Div
import Patom.Memory.Cognition
import Patom.Memory.Unreflected

/-! What the batch limits of the two schedulers leave for later ticks: the agents that the librarian
sweeps, and the candidates that the reflection ticks enqueue. -/

open Patom.Foundation
open Patom.Runtime (enqueueTrigger findByIdempotencyKey findByIdempotencyKey_enqueue
  findByIdempotencyKey_enqueued findByIdempotencyKey_isSome IdempotencyKey NewTrigger PromptRequest
  PromptRequestId resolveAgentColleague WorkerId)
open Patom.Threads (AgentThreadState ThreadDb)

namespace Patom.Memory

def LIBRARIAN_BATCH_LIMIT : Nat := 32

structure AgentRow where
  id : AgentId
  orgId : OrgId
  createdAt : Time

instance agentRowKeyed : Keyed AgentRow AgentId := ⟨(·.id)⟩

/-- `owner` is the member of an organisation who joined it first. -/
structure Fleet where
  agents : Table AgentRow
  owner : OrgId → Option UserId

section Librarian

variable (f : Fleet) (tie : AgentId ↪ Nat) (batchLimit : Nat)

/-- `tie` is the order the database gives to agents created at the same time. -/
def AgentRow.position (a : AgentRow) : Time ×ₗ Nat := toLex (a.createdAt, tie a.id)

def Fleet.joined : List (AgentRow × UserId) :=
  f.agents.rows.filterMap fun a => (f.owner a.orgId).map fun user => (a, user)

def Fleet.listAgents : List (AgentId × OrgId × UserId) :=
  ((inOrder (fun p : AgentRow × UserId => p.1.position tie) f.joined).take batchLimit).map
    fun p => (p.1.id, p.1.orgId, p.2)

def Fleet.swept : List AgentId := ((f.listAgents tie batchLimit).take batchLimit).map (·.1)

/-- Whatever order the database gives to ties, every agent is swept in any
`⌈n / batchLimit⌉` ticks in a row. -/
def SweptInTurn : Prop :=
  ∀ ties : Nat → AgentId ↪ Nat, ∀ start, ∀ a ∈ f.agents,
    ∃ i < f.agents.rows.length ⌈/⌉ batchLimit, a.id ∈ f.swept (ties (start + i)) batchLimit

end Librarian

section Reflection

variable (env : ReflectionEnv)

def ReflectionCandidate.pair (c : ReflectionCandidate) : AgentId × ThreadId :=
  (c.agentId, c.threadId)

def ReflectionCandidate.held (c : ReflectionCandidate) (s : ReflectionSt) : Bool :=
  (reflectionKey c).toOption.any fun k => (findByIdempotencyKey s.runtime.db c.orgId k).isSome

def Settled (s : ReflectionSt) : Prop :=
  ∀ r ∈ s.runtime.db.promptRequests, r.kind = .reflection →
    r.status ≠ .pending ∧ r.status ≠ .processing

def ReflectionAct.ticks : ReflectionAct → Nat
  | .tick _ _ => 1
  | _ => 0

def ReflectionAct.inserts (s t : ReflectionSt) : ReflectionAct → List ReflectionCandidate
  | .enqueue i _ _ _ => s.found[i]?.toList.filter fun c => !c.held s && c.held t
  | _ => []

structure BatchSt where
  st : ReflectionSt
  ticks : Nat
  enqueued : List ReflectionCandidate

def BatchSt.start (s : ReflectionSt) : BatchSt := ⟨s, 0, []⟩

def BatchSt.has (s : BatchSt) (pair : AgentId × ThreadId) : Prop :=
  ∃ c ∈ s.enqueued, c.pair = pair

def batchStep : Step BatchSt ReflectionAct
  | s, a => (reflectionStep env s.st a).map fun t =>
    ⟨t, s.ticks + a.ticks, s.enqueued ++ a.inserts s.st t⟩

/-- Nothing is posted, no enqueue fails, and every job of a tick is over before the next. -/
def Calm (now₀ : Time) (s : BatchSt) : ReflectionAct → Prop
  | .createThread _ _ | .post _ _ _ _ _ | .participate _ _ _ _ | .giveUp _ => False
  | .tick now _ => s.st.found = [] ∧ Settled s.st ∧ now₀ ≤ now
  | .enqueue _ _ request _ => s.st.runtime.db.promptRequests.find? request = none
      ∧ s.st.runtime.db.promptRequestDags.find? request = none
  | .advance _ turn _ =>
    match turn.kindPayload with
    | .reflection thread _ => s.has (turn.receiverAgentId, thread)
    | .normal | .resolution _ => True
  | .work _ => True

/-- While some of `m` candidates are left nothing that the query matches has its key taken, and
none that is enqueued for the first time has. -/
def Unspent (m : Nat) (s : BatchSt) : ReflectionAct → Prop
  | .tick now _ => s.ticks * env.batchLimit < m → ∀ c ∈ matched env s.st now, c.held s.st = false
  | .enqueue i _ _ _ => ∀ c ∈ s.st.found[i]?, s.has c.pair ∨ c.held s.st = false
  | _ => True

/-- After `⌈m / batchLimit⌉` ticks each of the `m` candidates of the start has been enqueued. -/
def Served (s₀ : ReflectionSt) (now₀ : Time) (s : BatchSt) : Prop :=
  (matched env s₀ now₀).length ⌈/⌉ env.batchLimit ≤ s.ticks → s.st.found = [] →
    ∀ c ∈ matched env s₀ now₀, s.has c.pair

end Reflection

section Librarian

variable {f : Fleet} {tie : AgentId ↪ Nat} {batchLimit : Nat}

theorem length_swept_le : (f.swept tie batchLimit).length ≤ batchLimit := by
  rw [Fleet.swept, List.length_map]
  exact List.length_take_le _ _

theorem owner_of_mem_swept {a : AgentRow} (ha : a ∈ f.agents)
    (h : a.id ∈ f.swept tie batchLimit) : (f.owner a.orgId).isSome := by
  obtain ⟨r, hr, hid⟩ := List.mem_map.mp h
  obtain ⟨p, hp, rfl⟩ := List.mem_map.mp (List.mem_of_mem_take hr)
  obtain ⟨b, hb, hjoin⟩ := List.mem_filterMap.mp ((mem_inOrder _).mp (List.mem_of_mem_take hp))
  obtain ⟨user, huser, rfl⟩ := Option.map_eq_some_iff.mp hjoin
  obtain rfl := Table.eq_of_key_eq hb ha hid
  exact Option.isSome_of_eq_some huser

theorem mem_swept (hfits : f.agents.rows.length ≤ batchLimit) {a : AgentRow} (ha : a ∈ f.agents)
    (howner : (f.owner a.orgId).isSome) : a.id ∈ f.swept tie batchLimit := by
  obtain ⟨user, huser⟩ := Option.isSome_iff_exists.mp howner
  have hjoined : (a, user) ∈ f.joined :=
    List.mem_filterMap.mpr ⟨a, ha, Option.map_eq_some_iff.mpr ⟨user, huser, rfl⟩⟩
  have hshort : f.joined.length ≤ batchLimit := (List.length_filterMap_le _ _).trans hfits
  have horder := (inOrder_perm (fun p : AgentRow × UserId => p.1.position tie) f.joined).length_eq
  rw [Fleet.swept, Fleet.listAgents, List.take_of_length_le (horder.trans_le hshort),
    List.take_of_length_le (by rw [List.length_map]; exact horder.trans_le hshort), List.map_map]
  exact List.mem_map.mpr ⟨(a, user), (mem_inOrder _).mpr hjoined, rfl⟩

theorem sweptInTurn_iff_fits (f : Fleet) (batchLimit : Nat) : SweptInTurn f batchLimit ↔
    f.agents.rows.length ≤ batchLimit ∧ ∀ a ∈ f.agents, (f.owner a.orgId).isSome := by
  constructor
  · intro h
    have hmem : ∀ a ∈ f.agents, a.id ∈ f.swept ⟨BitVec.toNat, fun _ _ => BitVec.eq_of_toNat_eq⟩
        batchLimit := by
      intro a ha
      obtain ⟨i, -, hi⟩ := h (fun _ => ⟨BitVec.toNat, fun _ _ => BitVec.eq_of_toNat_eq⟩) 0 a ha
      exact hi
    refine ⟨?_, fun a ha => owner_of_mem_swept ha (hmem a ha)⟩
    have hsub : f.agents.rows.map key ⊆
        f.swept ⟨BitVec.toNat, fun _ _ => BitVec.eq_of_toNat_eq⟩ batchLimit := by
      intro id hid
      obtain ⟨a, ha, rfl⟩ := List.mem_map.mp hid
      exact hmem a ha
    have hle := (List.subperm_of_subset f.agents.nodup hsub).length_le
    rw [List.length_map] at hle
    exact hle.trans length_swept_le
  · rintro ⟨hfits, howned⟩ ties start a ha
    have hpos : 0 < f.agents.rows.length := List.length_pos_of_mem ha
    refine ⟨0, ?_, mem_swept hfits ha (howned a ha)⟩
    by_contra hzero
    have hle := (ceilDiv_le_iff_le_mul (hpos.trans_le hfits)).mp (Nat.le_of_not_lt hzero)
    omega

end Librarian

section Keys

variable {colleagues : Table Runtime.Colleague}

theorem findByIdempotencyKey_modify {db db' : Runtime.Db} {f : PromptRequest → PromptRequest}
    (hf : ∀ r, key (f r) = key r) (hdb : db'.promptRequests = db.promptRequests.modify f hf)
    (horg : ∀ r, (f r).orgId = r.orgId) (hkey : ∀ r, (f r).idempotencyKey = r.idempotencyKey)
    {org : OrgId} {k : IdempotencyKey} (h : (findByIdempotencyKey db org k).isSome) :
    (findByIdempotencyKey db' org k).isSome := by
  obtain ⟨r, hr, hfields⟩ := findByIdempotencyKey_isSome.mp h
  refine findByIdempotencyKey_isSome.mpr
    ⟨f r, ?_, (horg r).trans hfields.1, (hkey r).trans hfields.2⟩
  rw [hdb]
  exact Table.mem_modify.mpr ⟨r, hr, rfl⟩

theorem findByIdempotencyKey_step {timing : Runtime.LeaseTiming} {s t : Runtime.St}
    {a : Runtime.Act} (hstep : Runtime.step colleagues timing s a = some t) {org : OrgId}
    {k : IdempotencyKey} (h : (findByIdempotencyKey s.db org k).isSome) :
    (findByIdempotencyKey t.db org k).isSome := by
  cases Runtime.step_stepped hstep with
  | enqueue he => exact findByIdempotencyKey_enqueue he h
  | cancel _ he =>
    unfold Runtime.requestCancellation at he
    split at he
    case isTrue =>
      cases he
      refine findByIdempotencyKey_modify (Runtime.markCancelled_key _ _) rfl (fun r => ?_)
        (fun r => ?_) h <;> unfold Runtime.markCancelled <;> split <;> rfl
    case isFalse => cases he
  | commitClaim =>
    refine findByIdempotencyKey_modify (Runtime.markDrained_key _ _ _) rfl (fun r => ?_)
      (fun r => ?_) h <;> unfold Runtime.markDrained <;> split <;> rfl
  | markTurnDone =>
    refine findByIdempotencyKey_modify (Runtime.markFinalised_key _ _ _ _) rfl (fun r => ?_)
      (fun r => ?_) h <;> unfold Runtime.markFinalised <;> split <;> rfl
  | markTurnFailed =>
    refine findByIdempotencyKey_modify (Runtime.markFinalised_key _ _ _ _) rfl (fun r => ?_)
      (fun r => ?_) h <;> unfold Runtime.markFinalised <;> split <;> rfl
  | _ => exact h

theorem enqueueTrigger_root {id : PromptRequestId} {now : Time} {trig : NewTrigger}
    {db : Runtime.Db} {receiver : ColleagueId}
    (hreceiver : resolveAgentColleague colleagues trig.orgId trig.receiverAgentId = .ok receiver)
    (hfresh : db.promptRequests.find? id = none) (hdag : db.promptRequestDags.find? id = none)
    (hxor : trig.stateId.isSome ≠ trig.backgroundTurnId.isSome) :
    ∃ db' rid, enqueueTrigger colleagues id now trig db = .ok (db', rid) := by
  cases h : enqueueTrigger colleagues id now trig db with
  | ok r => exact ⟨r.1, r.2, rfl⟩
  | error e =>
    simp only [enqueueTrigger, hreceiver, bind, Except.bind, dif_pos hxor] at h
    split at h
    case h_1 => cases h
    case h_2 =>
      split at h
      case h_1 hins => exact absurd hfresh (Table.insert?_eq_none.mp hins)
      case h_2 =>
        split at h
        case isTrue => cases h
        case isFalse =>
          split at h
          case h_1 hins => exact absurd hdag (Table.insert?_eq_none.mp hins)
          case h_2 => cases h

end Keys

section Reflection

variable {env : ReflectionEnv} {s₀ : ReflectionSt} {now₀ : Time}

def Latest (db : ThreadDb) (c : ReflectionCandidate) : Prop :=
  ∃ seq lm t, latestSeq db c.threadId = some seq
    ∧ db.threadMessages.rows.find? (fun m => m.threadId = c.threadId && m.seq = seq) = some lm
    ∧ db.threads.find? c.threadId = some t ∧ c.lastMessageId = lm.id ∧ c.orgId = t.orgId

theorem latest_of_candidate {s : ReflectionSt} {now : Time} {ats : AgentThreadState}
    {c : ReflectionCandidate} (h : candidate env s now ats = some c) : Latest s.threads c := by
  obtain ⟨seq, at_, lm, t, user, hseq, -, hlm, ht, -, -, rfl⟩ := candidate_eq_some.mp h
  exact ⟨seq, lm, t, hseq, hlm, ht, rfl, rfl⟩

theorem latest_of_matched {s : ReflectionSt} {now : Time} {c : ReflectionCandidate}
    (h : c ∈ matched env s now) : Latest s.threads c := by
  obtain ⟨ats, -, hc⟩ := List.mem_filterMap.mp h
  exact latest_of_candidate hc

theorem Latest.held_eq {db : ThreadDb} {s : ReflectionSt} {c d : ReflectionCandidate}
    (hc : Latest db c) (hd : Latest db d) (h : c.pair = d.pair) : c.held s = d.held s := by
  obtain ⟨hagent, hthread⟩ := Prod.mk.inj h
  obtain ⟨seq, lm, t, hseq, hlm, ht, hid, horg⟩ := hc
  obtain ⟨seq', lm', t', hseq', hlm', ht', hid', horg'⟩ := hd
  rw [hthread] at hseq hlm ht
  obtain rfl := Option.some.inj (hseq.symm.trans hseq')
  obtain rfl := Option.some.inj (hlm.symm.trans hlm')
  obtain rfl := Option.some.inj (ht.symm.trans ht')
  unfold ReflectionCandidate.held reflectionKey
  rw [hagent, hthread, hid, hid', horg, horg']

theorem Settled.reflecting {s : ReflectionSt} (h : Settled s) (thread : ThreadId) :
    s.reflecting thread = false := by
  refine List.any_eq_false.mpr fun r hr => ?_
  by_cases hkind : r.kind = .reflection
  · simp [h r hr hkind]
  · simp [hkind]

theorem candidate_at_iff {s : ReflectionSt} {now now' : Time} {ats : AgentThreadState}
    {c : ReflectionCandidate} (h : candidate env s now ats = some c) :
    candidate env s now' ats = some c ↔ c.latestAt + env.idleThreshold ≤ now' := by
  obtain ⟨seq, at_, lm, t, user, hseq, hat, hlm, ht, huser, ⟨-, hrest⟩, rfl⟩ :=
    candidate_eq_some.mp h
  constructor
  · intro h'
    obtain ⟨_, at', _, _, _, -, -, -, -, -, ⟨hidle, -⟩, hc⟩ := candidate_eq_some.mp h'
    have hat' : at_ = at' := congrArg ReflectionCandidate.latestAt hc
    exact hat' ▸ hidle
  · intro hidle
    exact candidate_eq_some.mpr ⟨seq, at_, lm, t, user, hseq, hat, hlm, ht, huser, ⟨hidle, hrest⟩,
      rfl⟩

theorem quiet_of_candidate {s : ReflectionSt} {now : Time} {ats : AgentThreadState}
    {c : ReflectionCandidate} (h : candidate env s now ats = some c) :
    c.latestAt + env.idleThreshold ≤ now :=
  (candidate_at_iff h).mp h

theorem pair_of_candidate {s : ReflectionSt} {now : Time} {ats : AgentThreadState}
    {c : ReflectionCandidate} (h : candidate env s now ats = some c) :
    c.pair = (ats.agentId, ats.threadId) := by
  obtain ⟨-, -, -, -, -, -, -, -, -, -, -, rfl⟩ := candidate_eq_some.mp h
  rfl

theorem held_step {s t : ReflectionSt} {a : ReflectionAct} (h : reflectionStep env s a = some t)
    {c : ReflectionCandidate} (hc : c.held s = true) : c.held t = true := by
  obtain ⟨k, hk, hfound⟩ := (Option.any_eq_true _ _).mp hc
  refine (Option.any_eq_true _ _).mpr ⟨k, hk, ?_⟩
  cases a with
  | enqueue i turn request now =>
    simp only [reflectionStep, Option.bind_eq_bind, Option.bind_eq_some_iff] at h
    obtain ⟨c, -, agent, -, key, -, runtime, hruntime, h⟩ := h
    cases h
    exact findByIdempotencyKey_step hruntime hfound
  | work a =>
    obtain ⟨runtime, hruntime, rfl⟩ := Option.map_eq_some_iff.mp h
    exact findByIdempotencyKey_step hruntime hfound
  | advance worker turn now => rwa [advance_runtime h]
  | createThread id org =>
    obtain ⟨threads, -, rfl⟩ := Option.map_eq_some_iff.mp h
    exact hfound
  | post id now org thread new =>
    simp only [reflectionStep, Option.ite_none_right_eq_some, Option.some.injEq] at h
    obtain ⟨-, rfl⟩ := h
    exact hfound
  | participate id now thread agent =>
    simp only [reflectionStep] at h
    split at h
    case h_1 =>
      obtain ⟨-, h⟩ := Option.ite_none_right_eq_some.mp h
      cases h
      exact hfound
    case h_2 => cases h
  | tick now tie =>
    simp only [reflectionStep, Option.ite_none_right_eq_some, Option.some.injEq] at h
    obtain ⟨-, rfl⟩ := h
    exact hfound
  | giveUp i =>
    simp only [reflectionStep, Option.ite_none_right_eq_some, Option.some.injEq] at h
    obtain ⟨-, rfl⟩ := h
    exact hfound

def BatchSt.reached (s : BatchSt) (c : ReflectionCandidate) : Bool :=
  (s.enqueued ++ s.st.found).any (·.pair = c.pair)

theorem reached_iff {s : BatchSt} {c : ReflectionCandidate} :
    s.reached c = true ↔ s.has c.pair ∨ ∃ f ∈ s.st.found, f.pair = c.pair := by
  simp [BatchSt.reached, BatchSt.has]

structure BatchInv (env : ReflectionEnv) (s₀ : ReflectionSt) (now₀ : Time) (s : BatchSt) :
    Prop where
  threads : s.st.threads = s₀.threads
  untouched : ∀ agent thread, ¬ s.has (agent, thread) →
    s.st.checkpoint agent thread = s₀.checkpoint agent thread
  latest : ∀ c ∈ s.enqueued ++ s.st.found, Latest s₀.threads c
  held : ∀ c ∈ s.enqueued, c.held s.st = true
  left : (matched env s₀ now₀).countP (fun c => !s.reached c) ≤
    (matched env s₀ now₀).length - s.ticks * env.batchLimit

theorem batchInv_start (hfound : s₀.found = []) : BatchInv env s₀ now₀ (.start s₀) where
  threads := rfl
  untouched _ _ _ := rfl
  latest c hc := by simp [BatchSt.start, hfound] at hc
  held c hc := by cases hc
  left := by
    rw [BatchSt.start, Nat.zero_mul, Nat.sub_zero]
    exact List.countP_le_length

section Tick

variable {s : BatchSt} {now : Time} (h : BatchInv env s₀ now₀ s) (hs₀ : Settled s₀)
  (hsettled : Settled s.st) (hnow : now₀ ≤ now)

include h

theorem BatchInv.unenqueued (hfree : ∀ c ∈ matched env s.st now, c.held s.st = false)
    {c : ReflectionCandidate} (hc : c ∈ matched env s.st now) : ¬ s.has c.pair := by
  rintro ⟨d, hd, hpair⟩
  have hlatest := h.latest d (List.mem_append_left _ hd)
  have hheld := hlatest.held_eq (s := s.st) (h.threads ▸ latest_of_matched hc) hpair
  rw [h.held d hd, hfree c hc] at hheld
  cases hheld

include hs₀ hsettled

theorem BatchInv.candidate_eq (ats : AgentThreadState)
    (hats : ¬ s.has (ats.agentId, ats.threadId)) :
    candidate env s.st now ats = candidate env s₀ now ats := by
  have hcheckpoint := h.untouched ats.agentId ats.threadId hats
  refine Option.ext fun c => ?_
  rw [candidate_eq_some, candidate_eq_some, h.threads, hcheckpoint, hsettled.reflecting,
    hs₀.reflecting]

theorem BatchInv.newcomer_later {b u : ReflectionCandidate} (hb : b ∈ matched env s.st now)
    (hnew : ¬ s.has b.pair) (hlate : b ∉ matched env s₀ now₀) (hu : u ∈ matched env s₀ now₀) :
    u.latestAt < b.latestAt := by
  obtain ⟨ats, hats, hcand⟩ := List.mem_filterMap.mp hb
  rw [pair_of_candidate hcand] at hnew
  have hcand₀ := (h.candidate_eq hs₀ hsettled ats hnew).symm.trans hcand
  have hbusy : now₀ < b.latestAt + env.idleThreshold := by
    refine Nat.lt_of_not_le fun hidle => hlate (List.mem_filterMap.mpr ⟨ats, ?_, ?_⟩)
    · exact h.threads ▸ hats
    · exact (candidate_at_iff hcand₀).mpr hidle
  obtain ⟨ats', -, hcand'⟩ := List.mem_filterMap.mp hu
  exact lt_of_add_lt_add_right (lt_of_le_of_lt (quiet_of_candidate hcand') hbusy)

theorem BatchInv.place_le (tie : AgentId × ThreadId ↪ Nat) (hfound : s.st.found = [])
    (hfree : ∀ c ∈ matched env s.st now, c.held s.st = false) {u : ReflectionCandidate}
    (hu : u ∈ matched env s₀ now₀) :
    place (·.position tie) (matched env s.st now) u ≤
      place (·.position tie) ((matched env s₀ now₀).filter fun c => !s.reached c) u := by
  rw [place, place, List.countP_eq_length_filter, List.countP_eq_length_filter]
  refine (List.subperm_of_subset ((matched_nodup env s.st now).of_map.filter _) ?_).length_le
  intro b hb
  obtain ⟨hmatched, hbefore⟩ := List.mem_filter.mp hb
  have hnew := h.unenqueued hfree hmatched
  have hwaits : s.reached b = false := by
    refine Bool.eq_false_iff.mpr fun hreached => ?_
    obtain hhas | ⟨f, hf, -⟩ := reached_iff.mp hreached
    · exact hnew hhas
    · rw [hfound] at hf
      cases hf
  refine List.mem_filter.mpr ⟨List.mem_filter.mpr ⟨?_, by rw [hwaits]; rfl⟩, hbefore⟩
  by_contra hlate
  have hlater := h.newcomer_later hs₀ hsettled hmatched hnew hlate hu
  refine absurd (of_decide_eq_true hbefore) (lt_asymm ?_)
  exact Prod.Lex.toLex_lt_toLex.mpr (.inl hlater)

include hnow

theorem BatchInv.still_matched {c : ReflectionCandidate} (hc : c ∈ matched env s₀ now₀)
    (hnew : ¬ s.has c.pair) : c ∈ matched env s.st now := by
  obtain ⟨ats, hats, hcand⟩ := List.mem_filterMap.mp hc
  rw [pair_of_candidate hcand] at hnew
  refine List.mem_filterMap.mpr ⟨ats, h.threads ▸ hats, ?_⟩
  rw [h.candidate_eq hs₀ hsettled ats hnew]
  exact (candidate_at_iff hcand).mpr ((quiet_of_candidate hcand).trans hnow)

theorem BatchInv.left_tick (tie : AgentId × ThreadId ↪ Nat) (hfound : s.st.found = [])
    (hfree : ∀ c ∈ matched env s.st now, c.held s.st = false) :
    (matched env s₀ now₀).countP (fun c => !s.reached c &&
        (findCandidates env s.st now tie).all (·.pair ≠ c.pair)) ≤
      (matched env s₀ now₀).countP (fun c => !s.reached c) - env.batchLimit := by
  have hnodup : (((matched env s₀ now₀).filter fun c => !s.reached c).map
      fun c => (c.threadId, c.agentId)).Nodup :=
    (matched_nodup env s₀ now₀).sublist (List.filter_sublist.map _)
  have hplaces := countP_place_le (fun c : ReflectionCandidate => c.position tie)
    (inOrder_strict _ hnodup fun c c' e => congrArg Prod.swap (position_injective e)) env.batchLimit
  rw [← List.countP_eq_length_filter, List.countP_filter] at hplaces
  refine (List.countP_mono_left fun u hu hleft => ?_).trans hplaces
  obtain ⟨hwaits, hmissed⟩ := Bool.and_eq_true_iff.mp hleft
  refine Bool.and_eq_true_iff.mpr ⟨decide_eq_true ?_, hwaits⟩
  refine le_trans ?_ (h.place_le hs₀ hsettled tie hfound hfree hu)
  by_contra hroom
  have hnew : ¬ s.has u.pair := fun hhas => by
    rw [reached_iff.mpr (.inl hhas)] at hwaits
    cases hwaits
  have hmem := mem_findCandidates.mpr
    ⟨h.still_matched hs₀ hsettled hnow hu hnew, Nat.lt_of_not_le hroom⟩
  exact of_decide_eq_true (List.all_eq_true.mp hmissed u hmem) rfl

end Tick

section Step

variable {s t : BatchSt} {a : ReflectionAct}

theorem BatchInv.frame (h : BatchInv env s₀ now₀ s) {u : ReflectionSt}
    (hstep : reflectionStep env s.st a = some u) (hthreads : u.threads = s.st.threads)
    (hcheckpoints : ∀ agent thread, ¬ s.has (agent, thread) →
      u.checkpoint agent thread = s.st.checkpoint agent thread)
    (hfound : u.found = s.st.found) : BatchInv env s₀ now₀ ⟨u, s.ticks, s.enqueued⟩ where
  threads := hthreads.trans h.threads
  untouched agent thread hnew := (hcheckpoints agent thread hnew).trans
    (h.untouched agent thread hnew)
  latest c hc := h.latest c (by rwa [← hfound])
  held c hc := held_step hstep (h.held c hc)
  left := by
    have hreached : ∀ c, BatchSt.reached ⟨u, s.ticks, s.enqueued⟩ c = s.reached c := fun c => by
      rw [BatchSt.reached, BatchSt.reached, hfound]
    simp only [hreached]
    exact h.left

theorem find?_advanceReflectionCheckpoint_ne {now : Time} {org : OrgId} {agent agent' : AgentId}
    {thread thread' : ThreadId} {upTo : ThreadMessageId} {checkpoints : Table ReflectionCheckpoint}
    (hne : (agent, thread) ≠ (agent', thread')) :
    (advanceReflectionCheckpoint now org agent thread upTo checkpoints).find? (agent', thread') =
      checkpoints.find? (agent', thread') := by
  unfold advanceReflectionCheckpoint
  split
  · rename_i row hrow
    have hkey : key row = (agent, thread) := Table.key_of_find? hrow
    exact Table.find?_put_ne _ (fun e => hne (hkey.symm.trans e))
  · exact Table.find?_put_ne _ hne

theorem BatchInv.advance (h : BatchInv env s₀ now₀ s) {worker : WorkerId}
    {turn : Runtime.ClaimedTurn} {now : Time} {u : ReflectionSt}
    (hcalm : Calm now₀ s (.advance worker turn now))
    (hstep : reflectionStep env s.st (.advance worker turn now) = some u) :
    BatchInv env s₀ now₀ ⟨u, s.ticks, s.enqueued⟩ := by
  have hadvance : Patom.Memory.advance s.st worker turn now = some u := hstep
  unfold Patom.Memory.advance at hadvance
  split at hadvance
  case isFalse => cases hadvance
  case isTrue =>
    simp only [Calm] at hcalm
    split at hadvance
    case h_1 thread upTo hkind =>
      rw [hkind] at hcalm
      cases hadvance
      refine h.frame hstep rfl (fun agent' thread' hnew => ?_) rfl
      unfold ReflectionSt.checkpoint
      dsimp only
      split
      · exact find?_advanceReflectionCheckpoint_ne fun e => hnew (e ▸ hcalm)
      · rfl
    all_goals
      cases hadvance
      exact h.frame hstep rfl (fun _ _ _ => rfl) rfl

theorem BatchInv.tick (h : BatchInv env s₀ now₀ s) (hs₀ : Settled s₀) {now : Time}
    {tie : AgentId × ThreadId ↪ Nat} {u : ReflectionSt}
    (hcalm : Calm now₀ s (.tick now tie))
    (hunspent : Unspent env (matched env s₀ now₀).length s (.tick now tie))
    (hstep : reflectionStep env s.st (.tick now tie) = some u) :
    BatchInv env s₀ now₀ ⟨u, s.ticks + 1, s.enqueued⟩ := by
  obtain ⟨hfound, hsettled, hnow⟩ := hcalm
  have hheld := fun c hc => held_step hstep (h.held c hc)
  simp only [reflectionStep, Option.ite_none_right_eq_some, Option.some.injEq] at hstep
  obtain ⟨-, rfl⟩ := hstep
  refine ⟨h.threads, h.untouched, fun c hc => ?_, hheld, ?_⟩
  · simp only [hfound, List.nil_append, List.mem_append] at hc
    obtain hc | hc := hc
    · exact h.latest c (List.mem_append_left _ hc)
    · exact h.threads ▸ latest_of_matched (mem_findCandidates.mp hc).1
  · have hreached : ∀ c, (!BatchSt.reached ⟨{ s.st with
          found := s.st.found ++ findCandidates env s.st now tie }, s.ticks + 1, s.enqueued⟩ c) =
        (!s.reached c && (findCandidates env s.st now tie).all (·.pair ≠ c.pair)) := fun c => by
      simp [BatchSt.reached, hfound, List.all_eq_not_any_not]
    simp only [hreached]
    have hmul : (s.ticks + 1) * env.batchLimit = s.ticks * env.batchLimit + env.batchLimit :=
      Nat.succ_mul _ _
    by_cases hleft : s.ticks * env.batchLimit < (matched env s₀ now₀).length
    · have htick := h.left_tick hs₀ hsettled hnow tie hfound (hunspent hleft)
      have := h.left
      omega
    · have hnone := h.left
      have hfewer := List.countP_mono_left (l := matched env s₀ now₀)
        (p := fun c => !s.reached c && (findCandidates env s.st now tie).all (·.pair ≠ c.pair))
        (q := fun c => !s.reached c) fun c _ hc => (Bool.and_eq_true_iff.mp hc).1
      omega

theorem held_of_enqueue {s u : ReflectionSt} {i : Nat} {turn : BackgroundTurnId}
    {request : PromptRequestId} {now : Time} {c : ReflectionCandidate} (hc : s.found[i]? = some c)
    (hfresh : s.runtime.db.promptRequests.find? request = none)
    (hdag : s.runtime.db.promptRequestDags.find? request = none)
    (hstep : reflectionStep env s (.enqueue i turn request now) = some u) :
    c.held u = true ∧ u.threads = s.threads ∧ u.checkpoints = s.checkpoints
      ∧ u.found = s.found.eraseIdx i := by
  simp only [reflectionStep, Option.bind_eq_bind, Option.bind_eq_some_iff] at hstep
  obtain ⟨d, hd, agent, hagent, k, hk, runtime, hruntime, hu⟩ := hstep
  obtain rfl := Option.some.inj (hc.symm.trans hd)
  cases hu
  refine ⟨(Option.any_eq_true _ _).mpr ⟨k, hk, ?_⟩, rfl, rfl, rfl⟩
  obtain ⟨db', rid, henqueue⟩ : ∃ db' rid, enqueueTrigger env.colleagues request now
      (reflectionTrigger c turn agent k) s.runtime.db = .ok (db', rid) :=
    enqueueTrigger_root (toOption_eq_some.mp hagent) hfresh hdag (fun h => by cases h)
  simp only [Runtime.step, Option.ite_none_right_eq_some, Option.some.injEq] at hruntime
  obtain ⟨-, rfl⟩ := hruntime
  rw [henqueue]
  exact findByIdempotencyKey_enqueued henqueue

theorem BatchInv.enqueue (h : BatchInv env s₀ now₀ s) {i : Nat} {turn : BackgroundTurnId}
    {request : PromptRequestId} {now : Time} {u : ReflectionSt}
    (hcalm : Calm now₀ s (.enqueue i turn request now))
    (hunspent : Unspent env (matched env s₀ now₀).length s (.enqueue i turn request now))
    (hstep : reflectionStep env s.st (.enqueue i turn request now) = some u) :
    BatchInv env s₀ now₀
      ⟨u, s.ticks, s.enqueued ++ (ReflectionAct.enqueue i turn request now).inserts s.st u⟩ := by
  obtain ⟨hfresh, hdag⟩ := hcalm
  have hheld := fun c hc => held_step hstep (h.held c hc)
  cases hfind : s.st.found[i]? with
  | none => simp [reflectionStep, hfind] at hstep
  | some c =>
    obtain ⟨hafter, hthreads, hcheckpoints, hfound⟩ := held_of_enqueue hfind hfresh hdag hstep
    have hinserts : (ReflectionAct.enqueue i turn request now).inserts s.st u =
        [c].filter fun c => !c.held s.st && c.held u := by
      rw [ReflectionAct.inserts, hfind, Option.toList_some]
    rw [hinserts]
    refine ⟨hthreads.trans h.threads, fun agent thread hnew => ?_, fun d hd => ?_,
      fun d hd => ?_, ?_⟩
    · unfold ReflectionSt.checkpoint
      rw [hcheckpoints]
      refine h.untouched agent thread fun hhas => hnew ?_
      obtain ⟨d, hd, hpair⟩ := hhas
      exact ⟨d, List.mem_append_left _ hd, hpair⟩
    · have hcMem := List.mem_of_getElem? hfind
      simp only [List.mem_append, hfound] at hd
      obtain (hd | hd) | hd := hd
      · exact h.latest d (List.mem_append_left _ hd)
      · obtain rfl := List.mem_singleton.mp (List.mem_of_mem_filter hd)
        exact h.latest d (List.mem_append_right _ hcMem)
      · exact h.latest d (List.mem_append_right _ (List.mem_of_mem_eraseIdx hd))
    · obtain hd | hd := List.mem_append.mp hd
      · exact hheld d hd
      · exact (Bool.and_eq_true_iff.mp (List.mem_filter.mp hd).2).2
    · refine (List.countP_mono_left fun x _ hx => ?_).trans h.left
      rw [Bool.not_eq_true'] at hx ⊢
      rw [Bool.eq_false_iff] at hx ⊢
      intro hreached
      refine hx (reached_iff.mpr ?_)
      obtain ⟨d, hd, hpair⟩ | ⟨f, hf, hpair⟩ := reached_iff.mp hreached
      · exact .inl ⟨d, List.mem_append_left _ hd, hpair⟩
      · by_cases hfc : f = c
        · refine .inl ?_
          rw [← hpair, hfc]
          obtain ⟨d, hd, hdc⟩ | hfree := hunspent c hfind
          · exact ⟨d, List.mem_append_left _ hd, hdc⟩
          · exact ⟨c, List.mem_append_right _ (List.mem_filter.mpr
              ⟨List.mem_singleton_self c, by rw [hfree, hafter]; rfl⟩), rfl⟩
        · refine .inr ⟨f, ?_, hpair⟩
          obtain ⟨j, hj⟩ := List.mem_iff_getElem?.mp hf
          rw [hfound]
          refine List.mem_eraseIdx_iff_getElem?.mpr ⟨j, fun e => hfc ?_, hj⟩
          exact Option.some.inj ((e ▸ hj).symm.trans hfind)

theorem BatchInv.step (h : BatchInv env s₀ now₀ s) (hs₀ : Settled s₀) (hcalm : Calm now₀ s a)
    (hunspent : Unspent env (matched env s₀ now₀).length s a)
    (hstep : batchStep env s a = some t) : BatchInv env s₀ now₀ t := by
  obtain ⟨u, hu, rfl⟩ := Option.map_eq_some_iff.mp hstep
  cases a with
  | createThread id org => exact hcalm.elim
  | post id now org thread new => exact hcalm.elim
  | participate id now thread agent => exact hcalm.elim
  | giveUp i => exact hcalm.elim
  | tick now tie =>
    simp only [ReflectionAct.inserts, List.append_nil]
    exact h.tick hs₀ hcalm hunspent hu
  | enqueue i turn request now => exact h.enqueue hcalm hunspent hu
  | advance worker turn now =>
    simp only [ReflectionAct.inserts, List.append_nil]
    exact h.advance hcalm hu
  | work a =>
    simp only [ReflectionAct.inserts, List.append_nil]
    obtain ⟨runtime, -, hwork⟩ := Option.map_eq_some_iff.mp hu
    subst hwork
    exact h.frame hu rfl (fun _ _ _ => rfl) rfl

theorem BatchInv.served (h : BatchInv env s₀ now₀ s) (hlimit : 0 < env.batchLimit) :
    Served env s₀ now₀ s := by
  intro hticks hfound c hc
  have hall : (matched env s₀ now₀).length ≤ s.ticks * env.batchLimit :=
    Nat.mul_comm _ _ ▸ (ceilDiv_le_iff_le_mul hlimit).mp hticks
  have hleft := h.left
  rw [Nat.sub_eq_zero_of_le hall, Nat.le_zero, List.countP_eq_zero] at hleft
  have hreached : s.reached c = true := by simpa using hleft c hc
  obtain hhas | ⟨f, hf, -⟩ := reached_iff.mp hreached
  · exact hhas
  · rw [hfound] at hf
    cases hf

end Step

def Undisturbed (env : ReflectionEnv) (s₀ : ReflectionSt) (now₀ : Time) (s : BatchSt)
    (a : ReflectionAct) : Prop :=
  Calm now₀ s a ∧ Unspent env (matched env s₀ now₀).length s a

theorem served_of_undisturbed (hlimit : 0 < env.batchLimit) (hfound : s₀.found = [])
    (hs₀ : Settled s₀) {as : List ReflectionAct}
    (h : Steps (batchStep env) (Undisturbed env s₀ now₀) (.start s₀) as) :
    Always (batchStep env) (Served env s₀ now₀) (.start s₀) as :=
  (Steps.always (fun _ => True) (fun _ _ _ _ _ _ _ => trivial)
    (fun _ _ _ _ hinv hstep hg => BatchInv.step hinv hs₀ hg.1 hg.2 hstep) trivial
    (batchInv_start hfound) h).mono fun _ hinv => hinv.served hlimit

end Reflection

section Decidable

variable (env : ReflectionEnv) (s₀ : ReflectionSt) (now₀ : Time) (m : Nat) (s : BatchSt)
  (a : ReflectionAct)

instance decidableHas (pair : AgentId × ThreadId) : Decidable (s.has pair) :=
  inferInstanceAs (Decidable (∃ c ∈ s.enqueued, c.pair = pair))

instance decidableSettled : Decidable (Settled s₀) :=
  inferInstanceAs (Decidable (∀ r ∈ s₀.runtime.db.promptRequests.rows, r.kind = .reflection →
    r.status ≠ .pending ∧ r.status ≠ .processing))

instance decidableServed : Decidable (Served env s₀ now₀ s) :=
  inferInstanceAs (Decidable ((matched env s₀ now₀).length ⌈/⌉ env.batchLimit ≤ s.ticks →
    s.st.found = [] → ∀ c ∈ matched env s₀ now₀, s.has c.pair))

instance decidableCalm : (a : ReflectionAct) → Decidable (Calm now₀ s a)
  | .createThread _ _ | .post _ _ _ _ _ | .participate _ _ _ _ | .giveUp _ => .isFalse id
  | .tick now _ =>
    inferInstanceAs (Decidable (s.st.found = [] ∧ Settled s.st ∧ now₀ ≤ now))
  | .enqueue _ _ request _ =>
    inferInstanceAs (Decidable (s.st.runtime.db.promptRequests.find? request = none
      ∧ s.st.runtime.db.promptRequestDags.find? request = none))
  | .advance worker turn now =>
    match h : turn.kindPayload with
    | .reflection thread _ =>
      decidable_of_iff (s.has (turn.receiverAgentId, thread)) (by simp only [Calm, h])
    | .normal => .isTrue (by simp only [Calm, h])
    | .resolution _ => .isTrue (by simp only [Calm, h])
  | .work _ => .isTrue trivial

instance decidableUnspent : (a : ReflectionAct) → Decidable (Unspent env m s a)
  | .tick now _ => inferInstanceAs (Decidable (s.ticks * env.batchLimit < m →
      ∀ c ∈ matched env s.st now, c.held s.st = false))
  | .enqueue i _ _ _ => inferInstanceAs (Decidable (∀ c ∈ s.st.found[i]?,
      s.has c.pair ∨ c.held s.st = false))
  | .createThread _ _ | .post _ _ _ _ _ | .participate _ _ _ _ | .giveUp _ | .advance _ _ _
  | .work _ => .isTrue trivial

instance decidableUndisturbed : Decidable (Undisturbed env s₀ now₀ s a) :=
  inferInstanceAs (Decidable (Calm now₀ s a ∧ Unspent env (matched env s₀ now₀).length s a))

end Decidable
namespace Sample

def hired (n : Nat) : AgentRow := ⟨.ofNat 128 n, 1, n⟩

def fleet : Fleet where
  agents := ⟨(List.range 33).map hired, by decide⟩
  owner _ := some 3

def singly : ReflectionEnv := { company with batchLimit := 1 }

def twoQuiet : ReflectionSt :=
  (run (reflectionStep singly) .init [.createThread 4 1, .participate 9 0 4 7,
    .post 10 0 1 4 message, .createThread 6 1, .participate 8 0 6 7, .post 11 0 1 6 message,
    .work (.tick (idle 1))]).getD .init

def twoBatches (ending : List ReflectionAct) : List ReflectionAct :=
  [.tick (idle 1) byIds, .enqueue 0 20 30 (idle 1),
    .work (.claimBegin 5), .work (.claimSelect 5 (some 30)), .work (.claimBump 5),
    .work (.claimLease 5),
    .work (.claimDrain 5 [⟨30, .reflection, none, 1, some 7, .reflection 4 10, 30⟩]),
    .work (.claimCommit 5)] ++ ending ++ [.tick (idle 1) byIds, .enqueue 0 21 31 (idle 1)]

def goesWell : List ReflectionAct :=
  [.advance 5 reflected (idle 1), .work (.markTurnDone 5 reflected.receipt (idle 1))]

def fails : List ReflectionAct :=
  [.work (.markTurnFailed 5 reflected.receipt .timeout (idle 1))]

end Sample

/-- The batches of the librarian reach every agent exactly if one batch holds the fleet, and those
of the reflection scheduler reach every candidate while no job leaves its key behind. -/
theorem batches_reach (fleet : Fleet) (limit : Nat) (env : ReflectionEnv) (s₀ : ReflectionSt)
    (now₀ : Time) (as : List ReflectionAct) (hlimit : 0 < env.batchLimit) (hfound : s₀.found = [])
    (hsettled : Settled s₀) :
    (SweptInTurn fleet limit ↔
        fleet.agents.rows.length ≤ limit ∧ ∀ a ∈ fleet.agents, (fleet.owner a.orgId).isSome) ∧
      (Steps (batchStep env) (Undisturbed env s₀ now₀) (.start s₀) as →
        Always (batchStep env) (Served env s₀ now₀) (.start s₀) as) :=
  ⟨sweptInTurn_iff_fits fleet limit, served_of_undisturbed hlimit hfound hsettled⟩

theorem batches_reach_both : (SweptInTurn Sample.fleet 33 ↔ Sample.fleet.agents.rows.length ≤ 33 ∧
      ∀ a ∈ Sample.fleet.agents, (Sample.fleet.owner a.orgId).isSome) ∧
    Always (batchStep Sample.singly) (Served Sample.singly Sample.twoQuiet (Sample.idle 1))
      (.start Sample.twoQuiet) (Sample.twoBatches Sample.goesWell) := by
  have h := batches_reach Sample.fleet 33 Sample.singly Sample.twoQuiet (Sample.idle 1)
    (Sample.twoBatches Sample.goesWell) (by decide) (by decide +kernel) (by decide +kernel)
  exact ⟨h.1, h.2 (by decide +kernel)⟩

/-- The agent hired last is never swept, and the second thread waits behind the first, whose job
failed, for good. -/
theorem last_starves : ¬ SweptInTurn Sample.fleet LIBRARIAN_BATCH_LIMIT ∧
    Steps (batchStep Sample.singly) (Calm (Sample.idle 1)) (.start Sample.twoQuiet)
      (Sample.twoBatches Sample.fails) ∧
    ¬ Always (batchStep Sample.singly) (Served Sample.singly Sample.twoQuiet (Sample.idle 1))
      (.start Sample.twoQuiet) (Sample.twoBatches Sample.fails) := by
  have hlast : ((run (batchStep Sample.singly) (.start Sample.twoQuiet)
      (Sample.twoBatches Sample.fails)).any fun t =>
        decide (¬ Served Sample.singly Sample.twoQuiet (Sample.idle 1) t)) = true := by
    decide +kernel
  obtain ⟨t, hrun, hmissed⟩ := (Option.any_eq_true _ _).mp hlast
  refine ⟨fun h => ?_, by decide +kernel, fun h => of_decide_eq_true hmissed (h.run hrun)⟩
  exact absurd ((sweptInTurn_iff_fits _ _).mp h).1 (by decide)

end Patom.Memory
