import Patom.Approvals.Calls

open Patom.Foundation
open Patom.Runtime (Colleague PromptRequestId bumpDags)

namespace Patom.Approvals

def Grounded (w : World) (record : PendingApproval) : ResumePc → Prop
  | .begun => True
  | .participating state => Participates w record state
  | .noted state note | .bumped state note _ => Participates w record state ∧ Noted w record note

inductive Led (colleagues : Table Colleague) (w : World) (a : Attempt) (fault : Bool) :
    World → Progress → Prop
  | begun : Led colleagues w a fault w (.running .begun)
  | participate {u u' state id now} : Led colleagues w a fault u (.running .begun) →
      stepParticipate u a id now = (u', .ok state) →
      Led colleagues w a fault u' (.running (.participating state))
  | note {u u' state note id now} : Led colleagues w a fault u (.running (.participating state)) →
      u.threads.threadMessages.find? id = none → stepNote u a id now = (u', .ok note) →
      Led colleagues w a fault u' (.running (.noted state note))
  | bump {u u' state note paid} : Led colleagues w a fault u (.running (.noted state note)) →
      stepBump u a fault = (u', paid) → Led colleagues w a fault u' (.running (.bumped state note paid))
  | enqueue {u u' state note paid request now result} :
      Led colleagues w a fault u (.running (.bumped state note paid)) →
      u.queue.promptRequests.find? request = none →
      stepEnqueue u a colleagues state note request now = (u', result) →
      Led colleagues w a fault u' (.returned result)

variable {colleagues : Table Colleague} {readColleague : ColleagueId → Except String DirectoryEntry}
  {record : PendingApproval} {w u : World} {s s' : Calls}

theorem Attempt.eta {a b : Attempt} (h : a = { b with id := a.id, pc := a.pc }) (pc : ResumePc) :
    ({ a with pc } : Attempt) = { b with id := a.id, pc } := by
  rw [h]

/-- The calls agree with one that leads them, up to holes in the numbering and the counters. -/
structure Trails (colleagues : Table Colleague) (a : Attempt) (s : Calls) (u : World)
    (p : Progress) : Prop where
  own : OwnThread u a.record
  together : p.rank ≤ 1 → s.world = u
  headers : s.world.threads.threads = u.threads.threads
  states : s.world.threads.agentThreadState = u.threads.agentThreadState
  feed : s.world.threads.threadMessages = u.threads.threadMessages
  requests : s.world.queue.promptRequests = u.queue.promptRequests
  calls : ∀ b ∈ s.attempts, b = { a with id := b.id, pc := b.pc } ∧ b.pc.rank ≤ p.rank ∧
    Grounded s.world a.record b.pc
  lead : ∀ pc, p = .running pc → Grounded u a.record pc
  participates : 1 ≤ p.rank → ∃ state, Participates u a.record state
  noted : 2 ≤ p.rank → ∃ note, Noted u a.record note
  triggered : 4 ≤ p.rank → Triggered colleagues u a.record
  returned : 0 < s.returned → p.rank = 4

theorem Participates.congr {v : World} (h : v.threads.agentThreadState = u.threads.agentThreadState)
    {state : AgentThreadId} : Participates v record state ↔ Participates u record state := by
  rw [Participates, h, Participates]

theorem Noted.congr {v : World} (h : v.threads.threadMessages = u.threads.threadMessages)
    {note : ThreadMessageId} : Noted v record note ↔ Noted u record note := by
  simp only [Noted, Threads.findMessageByKey, h]

theorem Triggered.congr {v : World} (h : v.queue.promptRequests = u.queue.promptRequests) :
    Triggered colleagues v record ↔ Triggered colleagues u record := by
  simp only [Triggered, Runtime.findByIdempotencyKey, h]

theorem OwnThread.congr {v : World} (h : v.threads.threads = u.threads.threads) :
    OwnThread v record ↔ OwnThread u record := by
  rw [OwnThread, h, OwnThread]

theorem Grounded.congr {v : World} (hstates : v.threads.agentThreadState = u.threads.agentThreadState)
    (hfeed : v.threads.threadMessages = u.threads.threadMessages) {pc : ResumePc} :
    Grounded v record pc ↔ Grounded u record pc := by
  cases pc <;> simp only [Grounded, Participates.congr hstates, Noted.congr hfeed]

theorem Participates.unique {state state' : AgentThreadId} (h : Participates u record state)
    (h' : Participates u record state') : state = state' :=
  Option.some.inj (h.symm.trans h')

theorem Noted.unique {note note' : ThreadMessageId} (h : Noted u record note)
    (h' : Noted u record note') : note = note' := by
  obtain ⟨k, hk, hnote⟩ := h
  obtain ⟨k', hk', hnote'⟩ := h'
  obtain rfl := Except.ok.inj (hk.symm.trans hk')
  exact Option.some.inj (hnote.symm.trans hnote')

section Trails

variable {a b : Attempt} {p q : Progress} {fault : Bool} {v' : World}

theorem Trails.follow (h : Trails colleagues a s u p) (hb : b ∈ s.attempts)
    (htogether : p.rank ≤ 1 → v' = s.world)
    (hheaders : v'.threads.threads = s.world.threads.threads)
    (hstates : v'.threads.agentThreadState = s.world.threads.agentThreadState)
    (hfeed : v'.threads.threadMessages = s.world.threads.threadMessages)
    (hrequests : v'.queue.promptRequests = s.world.queue.promptRequests) (hrank : q.rank ≤ p.rank)
    (hground : ∀ pc, q = .running pc → Grounded s.world a.record pc) :
    Trails colleagues a ⟨v', settleAttempt b s.attempts q, s.returned + q.returns⟩ u p where
  own := h.own
  together hle := (htogether hle).trans (h.together hle)
  headers := hheaders.trans h.headers
  states := hstates.trans h.states
  feed := hfeed.trans h.feed
  requests := hrequests.trans h.requests
  calls c hc := by
    rw [Grounded.congr hstates hfeed]
    rcases mem_settleAttempt hc with ⟨pc, rfl, rfl⟩ | hc
    · exact ⟨Attempt.eta (h.calls b hb).1 pc, hrank, hground pc rfl⟩
    · exact h.calls c hc
  lead := h.lead
  participates := h.participates
  noted := h.noted
  triggered := h.triggered
  returned hpos := by
    cases q with
    | running pc => exact h.returned hpos
    | returned r =>
      have hlast : 4 ≤ p.rank := hrank
      cases p with
      | running pc => cases pc <;> simp [Progress.rank, ResumePc.rank] at hlast
      | returned => rfl

theorem Progress.rank_le (p : Progress) : p.rank ≤ 4 := by
  cases p with
  | running pc => cases pc <;> simp [rank, ResumePc.rank]
  | returned => exact Nat.le_refl 4

theorem Progress.rank_of_returns {p : Progress} (h : 0 < p.returns) : p.rank = 4 := by
  cases p with
  | running => cases h
  | returned => rfl

theorem Progress.eq_running {n : Nat} (h : p.rank = n) (hn : n < 4) :
    ∃ pc, p = .running pc ∧ pc.rank = n := by
  cases p with
  | running pc => exact ⟨pc, rfl, h⟩
  | returned r => exact absurd hn (h ▸ Nat.lt_irrefl 4)

theorem Trails.advance {u' : World} {q' : Progress} (h : Trails colleagues a s u p)
    (hb : b ∈ s.attempts) (hlead : p.rank < q'.rank) (hq : q.rank = q'.rank)
    (htogether : q'.rank ≤ 1 → v' = u') (hheaders : v'.threads.threads = u'.threads.threads)
    (hstates : v'.threads.agentThreadState = u'.threads.agentThreadState)
    (hfeed : v'.threads.threadMessages = u'.threads.threadMessages)
    (hrequests : v'.queue.promptRequests = u'.queue.promptRequests)
    (hown : u'.threads.threads = u.threads.threads)
    (hkept : ∀ pc : ResumePc, pc.rank ≤ p.rank → Grounded s.world a.record pc → Grounded v' a.record pc)
    (hground : ∀ pc, q = .running pc → Grounded v' a.record pc)
    (hground' : ∀ pc, q' = .running pc → Grounded u' a.record pc)
    (hparticipates : ∃ state, Participates u' a.record state)
    (hnoted : 2 ≤ q'.rank → ∃ note, Noted u' a.record note)
    (htriggered : 4 ≤ q'.rank → Triggered colleagues u' a.record) :
    Trails colleagues a ⟨v', settleAttempt b s.attempts q, s.returned + q.returns⟩ u' q' where
  own := (OwnThread.congr hown).mpr h.own
  together := htogether
  headers := hheaders
  states := hstates
  feed := hfeed
  requests := hrequests
  calls c hc := by
    rcases mem_settleAttempt hc with ⟨pc, rfl, rfl⟩ | hc
    · exact ⟨Attempt.eta (h.calls b hb).1 pc, hq.le, hground pc rfl⟩
    · obtain ⟨heta, hle, hc⟩ := h.calls c hc
      exact ⟨heta, hle.trans hlead.le, hkept c.pc hle hc⟩
  lead := hground'
  participates _ := hparticipates
  noted := hnoted
  triggered := htriggered
  returned hpos := by
    rcases Nat.eq_zero_or_pos s.returned with hzero | hreturned
    · rw [← hq]
      exact Progress.rank_of_returns (by rwa [hzero, Nat.zero_add] at hpos)
    · exact absurd (q'.rank_le) (Nat.not_le.mpr (h.returned hreturned ▸ hlead))

theorem grounded_begun {pc : ResumePc} (h : pc.rank ≤ 0) : Grounded w record pc := by
  cases pc with
  | begun => trivial
  | participating | noted | bumped => cases h

theorem Trails.participate (h : Trails colleagues a s u p) (hled : Led colleagues w a fault u p)
    (hb : b ∈ s.attempts) (id : AgentThreadId) (now : Time) :
    ∃ u' p', Led colleagues w a fault u' p' ∧ Trails colleagues a
      ⟨(stepParticipate s.world b id now).1,
        settleAttempt b s.attempts (.ofExcept .participating (stepParticipate s.world b id now).2),
        s.returned + (Progress.ofExcept .participating (stepParticipate s.world b id now).2).returns⟩
      u' p' := by
  have hsame : stepParticipate s.world b = stepParticipate s.world a := by
    rw [(h.calls b hb).1]
    rfl
  rw [hsame]
  have hown := (OwnThread.congr h.headers).mpr h.own
  rcases Nat.eq_zero_or_pos p.rank with hzero | hpos
  · obtain ⟨pc, rfl, hrank⟩ := Progress.eq_running hzero (by decide)
    obtain ⟨states, state, hstep, hstate⟩ := participate_first hown id now
    cases pc with
    | participating | noted | bumped => cases hrank
    | begun =>
      have htogether := h.together (Nat.zero_le 1)
      subst htogether
      refine ⟨_, _, .participate hled hstep, ?_⟩
      rw [hstep]
      exact h.advance hb Nat.zero_lt_one rfl (fun _ => rfl) rfl rfl rfl rfl rfl
        (fun pc hle _ => grounded_begun hle) (fun pc e => Progress.running.inj e ▸ hstate)
        (fun pc e => Progress.running.inj e ▸ hstate) ⟨state, hstate⟩
        (fun hle => absurd hle (Nat.not_succ_le_self 1))
        fun hle => by simp [Progress.rank, ResumePc.rank] at hle
  · obtain ⟨state, hstate⟩ := h.participates hpos
    have hground := (Participates.congr h.states).mpr hstate
    rw [participate_again hown hground]
    refine ⟨u, p, hled, h.follow hb (fun _ => rfl) rfl rfl rfl rfl hpos fun pc e => ?_⟩
    exact Progress.running.inj e ▸ hground

theorem Trails.note (h : Trails colleagues a s u p) (hled : Led colleagues w a fault u p)
    (hb : b ∈ s.attempts) {state : AgentThreadId} (hpc : b.pc = .participating state)
    {id : ThreadMessageId} (hid : s.world.threads.threadMessages.find? id = none) (now : Time) :
    ∃ u' p', Led colleagues w a fault u' p' ∧ Trails colleagues a
      ⟨(stepNote s.world b id now).1,
        settleAttempt b s.attempts (.ofExcept (.noted state) (stepNote s.world b id now).2),
        s.returned + (Progress.ofExcept (.noted state) (stepNote s.world b id now).2).returns⟩
      u' p' := by
  have hsame : stepNote s.world b = stepNote s.world a := by
    rw [(h.calls b hb).1]
    rfl
  rw [hsame]
  obtain ⟨-, hle, hstate⟩ := h.calls b hb
  rw [hpc] at hle hstate
  have hown := (OwnThread.congr h.headers).mpr h.own
  rcases Nat.eq_or_lt_of_le hle with hone | htwo
  · obtain ⟨pc, rfl, hrank⟩ := Progress.eq_running hone.symm (by simp [ResumePc.rank])
    cases pc with
    | begun | noted | bumped => cases hrank
    | participating state' =>
      have htogether := h.together (Nat.le_refl 1)
      subst htogether
      obtain rfl : state' = state := (h.lead _ rfl).unique hstate
      obtain ⟨seqs, messages, note, hstep, k, hk, hnote⟩ := note_first hown hid now
      have hnoted : Noted { s.world with threads :=
          { s.world.threads with threadSeq := seqs, threadMessages := messages } } a.record note :=
        ⟨k, hk, hnote⟩
      refine ⟨_, _, .note hled hid hstep, ?_⟩
      rw [hstep]
      refine h.advance hb (Nat.lt_succ_self 1) rfl (fun hle => absurd hle (Nat.not_succ_le_self 1)) rfl
        rfl rfl rfl rfl (fun pc hle hpc => ?_) (fun pc e => Progress.running.inj e ▸ ⟨hstate, hnoted⟩)
        (fun pc e => Progress.running.inj e ▸ ⟨hstate, hnoted⟩) ⟨state', hstate⟩
        (fun _ => ⟨note, hnoted⟩) fun hle => by simp [Progress.rank, ResumePc.rank] at hle
      cases pc with
      | begun => trivial
      | participating => exact hpc
      | noted | bumped => simp [Progress.rank, ResumePc.rank] at hle
  · obtain ⟨note, hnote⟩ := h.noted htwo
    have hnote' := (Noted.congr h.feed).mpr hnote
    obtain ⟨seqs, hstep⟩ := note_again hown hnote' id now
    rw [hstep]
    refine ⟨u, p, hled, h.follow hb (fun hle' => absurd htwo (Nat.not_lt.mpr hle')) rfl rfl rfl rfl htwo
      fun pc e => ?_⟩
    exact Progress.running.inj e ▸ ⟨hstate, hnote'⟩

theorem Trails.bump (h : Trails colleagues a s u p) (hled : Led colleagues w a fault u p)
    (hb : b ∈ s.attempts) {state : AgentThreadId} {note : ThreadMessageId}
    (hpc : b.pc = .noted state note) (fails : Bool) :
    ∃ u' p', Led colleagues w a fault u' p' ∧ Trails colleagues a
      ⟨(stepBump s.world b fails).1,
        settleAttempt b s.attempts (.running (.bumped state note (stepBump s.world b fails).2)),
        s.returned⟩
      u' p' := by
  obtain ⟨-, hle, hground⟩ := h.calls b hb
  rw [hpc] at hle hground
  have hframe : ∀ (v : World) (c : Attempt) (f : Bool), (stepBump v c f).1.threads = v.threads ∧
      (stepBump v c f).1.queue.promptRequests = v.queue.promptRequests := fun v c f => by
    rw [stepBump_world]
    cases f <;> exact ⟨rfl, rfl⟩
  obtain ⟨hthreads, hrequests⟩ := hframe s.world b fails
  have hkept : ∀ pc : ResumePc, Grounded s.world a.record pc →
      Grounded (stepBump s.world b fails).1 a.record pc := fun pc =>
    (Grounded.congr (by rw [hthreads]) (by rw [hthreads])).mpr
  rcases Nat.eq_or_lt_of_le hle with htwo | hthree
  · obtain ⟨pc, rfl, hrank⟩ := Progress.eq_running htwo.symm (by simp [ResumePc.rank])
    cases pc with
    | begun | participating | bumped => cases hrank
    | noted state' note' =>
      obtain ⟨hthreads', hrequests'⟩ := hframe u a fault
      have hlead : Grounded u a.record (.noted state' note') := h.lead _ rfl
      have hlead' : Grounded (stepBump u a fault).1 a.record (.noted state' note') :=
        (Grounded.congr (by rw [hthreads']) (by rw [hthreads'])).mpr hlead
      refine ⟨(stepBump u a fault).1, .running (.bumped state' note' (stepBump u a fault).2),
        .bump hled rfl, ?_⟩
      exact h.advance hb (Nat.lt_succ_self 2) rfl (fun hle => by simp [Progress.rank, ResumePc.rank] at hle)
        (by rw [hthreads, hthreads', h.headers]) (by rw [hthreads, hthreads', h.states])
        (by rw [hthreads, hthreads', h.feed]) (by rw [hrequests, hrequests', h.requests])
        (by rw [hthreads']) (fun pc _ => hkept pc)
        (fun pc e => Progress.running.inj e ▸ hkept _ hground)
        (fun pc e => Progress.running.inj e ▸ hlead') ⟨state', hlead'.1⟩ (fun _ => ⟨note', hlead'.2⟩)
        fun hle => by simp [Progress.rank, ResumePc.rank] at hle
  · refine ⟨u, p, hled, h.follow hb (fun hle' => ?_) (by rw [hthreads]) (by rw [hthreads])
      (by rw [hthreads]) hrequests hthree fun pc e => ?_⟩
    · exact absurd (hthree.trans_le hle') (by simp [ResumePc.rank])
    · exact Progress.running.inj e ▸ hground

theorem Trails.enqueue (h : Trails colleagues a s u p) (hled : Led colleagues w a fault u p)
    (hb : b ∈ s.attempts) {state : AgentThreadId} {note : ThreadMessageId} {paid : Bool}
    (hpc : b.pc = .bumped state note paid) {request : PromptRequestId}
    (hfresh : s.world.queue.promptRequests.find? request = none) (now : Time) :
    ∃ u' p', Led colleagues w a fault u' p' ∧ Trails colleagues a
      ⟨(stepEnqueue s.world b colleagues state note request now).1,
        settleAttempt b s.attempts
          (.returned (stepEnqueue s.world b colleagues state note request now).2),
        s.returned + 1⟩
      u' p' := by
  have hsame : stepEnqueue s.world b = stepEnqueue s.world a := by
    rw [(h.calls b hb).1]
    rfl
  rw [hsame]
  obtain ⟨-, hle, hground⟩ := h.calls b hb
  rw [hpc] at hle hground
  rcases Nat.eq_or_lt_of_le hle with hthree | hfour
  · obtain ⟨pc, rfl, hrank⟩ := Progress.eq_running hthree.symm (by simp [ResumePc.rank])
    cases pc with
    | begun | participating | noted => cases hrank
    | bumped state' note' paid' =>
      have hlead : Grounded u a.record (.bumped state' note' paid') := h.lead _ rfl
      obtain rfl : state' = state := hlead.1.unique ((Participates.congr h.states).mp hground.1)
      obtain rfl : note' = note := hlead.2.unique ((Noted.congr h.feed).mp hground.2)
      have hfresh' : u.queue.promptRequests.find? request = none := h.requests ▸ hfresh
      obtain ⟨hthreads, -⟩ := @enqueue_frame colleagues s.world a state' note' request now
      obtain ⟨hthreads', -⟩ := @enqueue_frame colleagues u a state' note' request now
      have hstates : Grounded (stepEnqueue u a colleagues state' note' request now).1 a.record
          (.bumped state' note' paid') :=
        (Grounded.congr (by rw [hthreads']) (by rw [hthreads'])).mpr hlead
      refine ⟨(stepEnqueue u a colleagues state' note' request now).1,
        .returned (stepEnqueue u a colleagues state' note' request now).2,
        .enqueue hled hfresh' rfl, ?_⟩
      exact h.advance hb (Nat.lt_succ_self 3) rfl (fun hle => by simp [Progress.rank] at hle)
        (by rw [hthreads, hthreads', h.headers]) (by rw [hthreads, hthreads', h.states])
        (by rw [hthreads, hthreads', h.feed]) (enqueue_congr h.requests) (by rw [hthreads'])
        (fun pc _ => (Grounded.congr (by rw [hthreads]) (by rw [hthreads])).mpr) (fun _ e => by cases e)
        (fun _ e => by cases e)
        ⟨state', hstates.1⟩ (fun _ => ⟨note', hstates.2⟩) fun _ => enqueue_first u a state' note' hfresh'
  · have htriggered := (Triggered.congr h.requests).mpr (h.triggered hfour)
    rw [enqueue_again htriggered]
    exact ⟨u, p, hled, h.follow hb (fun _ => rfl) rfl rfl rfl rfl hfour fun _ e => by cases e⟩

theorem Trails.step (h : Trails colleagues a s u p) (hled : Led colleagues w a fault u p)
    (hstart : ∀ task, startResume readColleague task record = .ok { a with id := task, pc := .begun })
    {act : CallAct} (hstep : callStep colleagues readColleague record s act = some s') :
    ∃ u' p', Led colleagues w a fault u' p' ∧ Trails colleagues a s' u' p' := by
  cases act with
  | call task =>
    simp only [callStep, hstart] at hstep
    split at hstep
    case isTrue => cases hstep
    case isFalse =>
      cases hstep
      refine ⟨u, p, hled, { h with calls := fun c hc => ?_ }⟩
      rcases Table.mem_put.mp hc with rfl | ⟨hc, -⟩
      · exact ⟨rfl, Nat.zero_le _, trivial⟩
      · exact h.calls c hc
  | stop task =>
    cases hstep
    exact ⟨u, p, hled, { h with calls := fun c hc => h.calls c (Table.mem_delete.mp hc).1 }⟩
  | step task act =>
    obtain ⟨b, hb, hstep⟩ := Option.bind_eq_some_iff.mp hstep
    obtain ⟨⟨v', q⟩, hresume, hstep⟩ := Option.bind_eq_some_iff.mp hstep
    cases hstep
    have hb := Table.mem_of_find? hb
    cases act with
    | participate id now =>
      simp only [resumeStep] at hresume
      split at hresume
      case h_2 => cases hresume
      case h_1 =>
        cases hresume
        exact h.participate hled hb id now
    | note id now =>
      simp only [resumeStep] at hresume
      split at hresume
      case h_2 => cases hresume
      case h_1 hpc =>
        obtain ⟨hfresh, hresume⟩ := Option.ite_none_left_eq_some.mp hresume
        cases hresume
        exact h.note hled hb hpc (Option.not_isSome_iff_eq_none.mp hfresh) now
    | bump fails =>
      simp only [resumeStep] at hresume
      split at hresume
      case h_2 => cases hresume
      case h_1 hpc =>
        cases hresume
        exact h.bump hled hb hpc fails
    | enqueue request now =>
      simp only [resumeStep] at hresume
      split at hresume
      case h_2 => cases hresume
      case h_1 hpc =>
        obtain ⟨hfresh, hresume⟩ := Option.ite_none_left_eq_some.mp hresume
        cases hresume
        exact h.enqueue hled hb hpc (Option.not_isSome_iff_eq_none.mp hfresh) now

theorem Trails.run (h : Trails colleagues a s u p) (hled : Led colleagues w a fault u p)
    (hstart : ∀ task, startResume readColleague task record = .ok { a with id := task, pc := .begun })
    {calls : List CallAct} (hrun : run (callStep colleagues readColleague record) s calls = some s') :
    ∃ u' p', Led colleagues w a fault u' p' ∧ Trails colleagues a s' u' p' := by
  induction calls generalizing s u p with
  | nil =>
    cases hrun
    exact ⟨u, p, hled, h⟩
  | cons act calls ih =>
    obtain ⟨t, ht, hrun⟩ := Option.bind_eq_some_iff.mp hrun
    obtain ⟨u', p', hled', h'⟩ := h.step hled hstart ht
    exact ih h' hled' hrun

theorem trails_init (hown : OwnThread w a.record) : Trails colleagues a (.init w) w (.running .begun) where
  own := hown
  together _ := rfl
  headers := rfl
  states := rfl
  feed := rfl
  requests := rfl
  calls c hc := absurd hc (Table.not_mem_empty c)
  lead _ e := Progress.running.inj e ▸ trivial
  participates hle := absurd hle (Nat.not_succ_le_zero 0)
  noted hle := absurd hle (Nat.not_succ_le_zero 1)
  triggered hle := absurd hle (Nat.not_succ_le_zero 3)
  returned hpos := absurd hpos (Nat.lt_irrefl 0)

structure Alone (colleagues : Table Colleague)
    (readColleague : ColleagueId → Except String DirectoryEntry) (record : PendingApproval) (w : World)
    (a : Attempt) (acts : List ResumeAct) (u : World) (p : Progress) : Prop where
  ran : ∃ s, Foundation.run (callStep colleagues readColleague record)
      ⟨w, Table.empty.put { a with pc := .begun }, 0⟩ (acts.map (.step a.id)) = some s ∧
    s.world = u ∧ s.returned = p.returns ∧
    ∀ pc, p = .running pc → s.attempts.find? a.id = some { a with pc }

theorem Alone.step {acts : List ResumeAct} {pc : ResumePc} {u' : World} {act : ResumeAct}
    (h : Alone colleagues readColleague record w a acts u (.running pc))
    (hstep : resumeStep u { a with pc } colleagues act = some (u', q)) :
    Alone colleagues readColleague record w a (acts ++ [act]) u' q := by
  obtain ⟨s, hrun, rfl, hreturned, hfind⟩ := h.ran
  refine ⟨⟨u', settleAttempt { a with pc } s.attempts q, s.returned + q.returns⟩, ?_, rfl, ?_,
    fun pc' e => ?_⟩
  · rw [List.map_append, run_append, hrun]
    simp [callStep, hfind pc rfl, hstep]
  · simp [hreturned, Progress.returns]
  · rw [e]
    exact find?_settleAttempt

theorem alone_begun : Alone colleagues readColleague record w a [] w (.running .begun) := by
  refine ⟨_, rfl, rfl, rfl, fun pc e => ?_⟩
  rw [← Progress.running.inj e, Table.find?_put]
  exact if_pos rfl

theorem Led.alone (h : Led colleagues w a fault u p) :
    ∃ acts, Alone colleagues readColleague record w a acts u p := by
  induction h with
  | begun => exact ⟨[], alone_begun⟩
  | @participate u u' state id now _ hstep ih =>
    obtain ⟨acts, halone⟩ := ih
    have hresume : resumeStep u { a with pc := .begun } colleagues (.participate id now) =
        some (u', .running (.participating state)) := by
      have hsame : stepParticipate u { a with pc := .begun } id now = (u', .ok state) := hstep
      simp only [resumeStep, hsame]
      rfl
    exact ⟨_, halone.step hresume⟩
  | @note u u' state note id now _ hfresh hstep ih =>
    obtain ⟨acts, halone⟩ := ih
    have hresume : resumeStep u { a with pc := .participating state } colleagues (.note id now) =
        some (u', .running (.noted state note)) := by
      have hsame : stepNote u { a with pc := .participating state } id now = (u', .ok note) := hstep
      simp only [resumeStep, hfresh, hsame, Option.isSome_none, Bool.false_eq_true, if_false]
      rfl
    exact ⟨_, halone.step hresume⟩
  | @bump u u' state note paid _ hstep ih =>
    obtain ⟨acts, halone⟩ := ih
    have hresume : resumeStep u { a with pc := .noted state note } colleagues (.bump fault) =
        some (u', .running (.bumped state note paid)) := by
      have hsame : stepBump u { a with pc := .noted state note } fault = (u', paid) := hstep
      simp only [resumeStep, hsame]
    exact ⟨_, halone.step hresume⟩
  | @enqueue u u' state note paid request now result _ hfresh hstep ih =>
    obtain ⟨acts, halone⟩ := ih
    have hresume : resumeStep u { a with pc := .bumped state note paid } colleagues
        (.enqueue request now) = some (u', .returned result) := by
      have hsame : stepEnqueue u { a with pc := .bumped state note paid } colleagues state note
          request now = (u', result) := hstep
      simp only [resumeStep, hfresh, hsame, Option.isSome_none, Bool.false_eq_true, if_false]
    exact ⟨_, halone.step hresume⟩

theorem Led.budget (h : Led colleagues w a fault u p) : u.queue.promptRequestDags =
    (bumpDags a.record.rootRequestId)^[if 3 ≤ p.rank ∧ fault = false then 1 else 0]
      w.queue.promptRequestDags := by
  induction h with
  | begun => rfl
  | @participate u u' state id now _ hstep ih =>
    have hqueue : u'.queue = u.queue := by
      rw [show u' = (stepParticipate u a id now).1 by rw [hstep]]
      unfold stepParticipate
      split <;> rfl
    rw [hqueue, ih]
    rfl
  | @note u u' state note id now _ _ hstep ih =>
    have hqueue : u'.queue = u.queue := by
      rw [show u' = (stepNote u a id now).1 by rw [hstep]]
      unfold stepNote
      split <;> rfl
    rw [hqueue, ih]
    rfl
  | @bump u u' state note paid _ hstep ih =>
    have hworld : u' = (stepBump u a fault).1 := by rw [hstep]
    rw [hworld, stepBump_world]
    cases fault with
    | true => exact ih
    | false => exact congrArg (bumpDags a.record.rootRequestId) ih
  | @enqueue u u' state note paid request now result _ _ hstep ih =>
    have hworld : u' = (stepEnqueue u a colleagues state note request now).1 := by rw [hstep]
    rw [hworld, (enqueue_frame ..).2, ih]
    simp [Progress.rank, ResumePc.rank]

end Trails

end Patom.Approvals
