import Patom.Slack.RedeliverySteps

open Patom.Foundation
open Patom.Runtime (IdempotencyKey)

namespace Patom.Slack

variable {d : BridgeDeps} {item : Item} {x : Delivery} {m : Mint} {db db' db₀ : Db} {w : Who}
  {c : Caller} {thread : ThreadId} {agent : AgentId} {ch : ChannelId} {k : IdempotencyKey}
  {prompt : Prompt} {receiver : ColleagueId} {state : AgentThreadId} {a b : Attempt}
  {s t : BridgeSt} {act : Act} {acts : List Act}

theorem Inv.init (d : BridgeDeps) (item : Item) (db₀ : Db) : Inv d item db₀ ⟨db₀, .empty⟩ where
  grown := .refl db₀
  listed a ha := absurd ha (Table.not_mem_empty a)
  fresh a ha := absurd ha (Table.not_mem_empty a)
  distinct a ha := absurd ha (Table.not_mem_empty a)
  holds a ha := absurd ha (Table.not_mem_empty a)
  channels := .inl ⟨rfl, rfl⟩
  made := .inl ⟨rfl, rfl⟩
  logged := .inl ⟨rfl, rfl, rfl⟩

theorem Grown.isNone {α β : Type} {f f' : α → Option β} (hg : ∀ i r, f i = some r → f' i = some r)
    {i : α} (h : f' i = none) : f i = none := by
  cases e : f i with
  | none => rfl
  | some r => exact absurd (h.symm.trans (hg i r e)) (by simp)

theorem Inv.deliver (hi : Inv d item db₀ s) (hx : x ∈ item.deliveries)
    (hm : m.unused x s = true) : Inv d item db₀ (s.put ⟨x, m, .entry⟩) := by
  simp only [Mint.unused, Bool.and_eq_true, Option.isNone_iff_eq_none, List.all_eq_true,
    decide_eq_true_eq, ne_eq] at hm
  obtain ⟨⟨⟨⟨hthread, hmessage⟩, hparts⟩, hmirror⟩, hothers⟩ := hm
  have hfresh : Fresh db₀ ⟨x, m, .entry⟩ := by
    refine ⟨Grown.isNone hi.grown.threads hthread, Grown.isNone hi.grown.feed hmessage,
      fun p hp => ?_, Grown.isNone hi.grown.lookup hmirror⟩
    have hfound := hi.grown.participations _ _ (Table.find?_of_mem hp)
    exact hparts p (Table.mem_of_find? hfound)
  have hmem : ∀ b ∈ s.attempts.put ⟨x, m, .entry⟩, b = ⟨x, m, .entry⟩ ∨ b ∈ s.attempts :=
    fun b hb => (Table.mem_put.mp hb).imp id And.left
  have hkept : ∀ b ∈ s.attempts, b ∈ s.attempts.put ⟨x, m, .entry⟩ := fun b hb =>
    Table.mem_put.mpr (.inr ⟨hb, (hothers b hb).1.1⟩)
  refine ⟨hi.grown, ?_, ?_, ?_, ?_, hi.channels, ?_, ?_⟩
  · intro b hb
    obtain rfl | hb := hmem b hb
    · exact hx
    · exact hi.listed b hb
  · intro b hb
    obtain rfl | hb := hmem b hb
    · exact hfresh
    · exact hi.fresh b hb
  · intro b hb b' hb' hne
    obtain rfl | hb := hmem b hb <;> obtain rfl | hb' := hmem b' hb'
    · exact absurd rfl hne
    · exact ⟨Ne.symm (hothers b' hb').1.2, Ne.symm (hothers b' hb').2⟩
    · exact ⟨(hothers b hb).1.2, (hothers b hb).2⟩
    · exact hi.distinct b hb b' hb' hne
  · intro b hb
    obtain rfl | hb := hmem b hb
    · trivial
    · exact hi.holds b hb
  · refine hi.made.imp id ?_
    rintro ⟨b, hb, h⟩
    exact ⟨b, hkept b hb, h⟩
  · refine hi.logged.imp id ?_
    rintro ⟨b, hb, h⟩
    exact ⟨b, hkept b hb, h⟩

theorem Inv.step (hi : Inv d item db₀ s) (hgood : orderly s act = true)
    (hs : bridgeStep d item s act = some t) : Inv d item db₀ t := by
  cases act with
  | deliver x m =>
    simp only [bridgeStep] at hs
    split at hs
    · rename_i h
      cases hs
      exact hi.deliver h.1 h.2
    · cases hs
  | step id =>
    simp only [bridgeStep] at hs
    obtain ⟨a, ha, rfl⟩ := Option.map_eq_some_iff.mp hs
    obtain ⟨hmem, rfl⟩ := Table.find?_eq_some.mp ha
    exact hi.advance hmem hgood
  | stop id =>
    simp only [bridgeStep] at hs
    obtain ⟨a, ha, rfl⟩ := Option.map_eq_some_iff.mp hs
    obtain ⟨ha, -⟩ := Option.filter_eq_some_iff.mp ha
    exact hi.read (Table.mem_of_find? ha) trivial

theorem Fresh.lastAgent (h : Fresh db₀ a) : Slack.lastAgent a.mint.thread db₀ = none := by
  have hnil : (db₀.participations.rows.filter fun p => p.threadId = a.mint.thread) = [] :=
    List.filter_eq_nil_iff.mpr fun p hp => by simpa using h.participation p hp
  rw [Slack.lastAgent, hnil]
  rfl

theorem Chosen.creates (h : Chosen d db₀ w thread agent x)
    (hnone : Slack.lastAgent thread db₀ = none) : x.creates = true := by
  cases x with
  | slash s => rfl
  | event e =>
    cases hsource : e.source with
    | appMention => simp [Delivery.creates, hsource]
    | threadMessage =>
      simp only [Chosen, hsource, hnone] at h
      cases h

theorem threadKey_congr {m' : Mint} (x : Delivery) (h : m.mirror = m'.mirror) :
    x.threadKey m = x.threadKey m' := by
  cases x with
  | event e => rfl
  | slash s => simp only [Delivery.threadKey, Delivery.anchor, h]

theorem not_top_of_not_creates (h : x.creates = false) : x.isTop = false := by
  cases x with
  | event e => rfl
  | slash s => cases h

def Reaches (d : BridgeDeps) (x : Delivery) (m : Mint) (db₀ db : Db) (w : Who) (agent : AgentId)
    (thread : ThreadId) : Prop :=
  ∃ n db₂, advances d x m STEPS (.entry, db₀) = advances d x m (n + 4) (.check w agent thread, db₂)
    ∧ db₂.threads = db.threads ∧ db₂.bindings = db.bindings ∧ db₂.feed = db₀.feed
    ∧ db₂.participations = db₀.participations ∧ db₂.triggers = db₀.triggers

theorem reaches_found (hk : Known d db₀ x w) (htop : x.isTop = false)
    (hch : ensureChannel m w.orgId x.teamId x.channelId db₀ = .ok (ch, db'))
    (hfound : lookupByThread (x.threadKey m) db₀ = some thread)
    (hagent : Chosen d db₀ w thread agent x) (ht : db.threads = db₀.threads)
    (hb : db.bindings = db₀.bindings) : Reaches d x m db₀ db w agent thread := by
  have hrest := ensureChannel_rest hch
  obtain ⟨n, h⟩ := advances_found hk htop hch hfound hagent
  exact ⟨n, db', h, hrest.threads.trans ht.symm, hrest.bindings.trans hb.symm, hrest.feed,
    hrest.participations, hrest.triggers⟩

theorem Created.reaches {agent₀ : AgentId} (hc : Created d db₀ db b w agent₀ ch)
    (hbind : db.bindings = (Slack.bind w.orgId b.threadKey b.mint.thread db₀).bindings)
    (halike : Alike d b.delivery x) (hagent : Chosen d db₀ w b.mint.thread agent x)
    (hfresh : Fresh db₀ b) (hkey : x.threadKey m = b.threadKey) (hm : m.thread = b.mint.thread)
    (hch : ensureChannel m w.orgId x.teamId x.channelId db₀ = .ok (ch, db')) :
    Reaches d x m db₀ db w agent b.mint.thread := by
  have hrest := ensureChannel_rest hch
  have hinsert : db₀.threads.insert? ⟨m.thread, w.orgId, ch, w.colleague⟩ = some db.threads := by
    rw [hm]
    exact hc.inserted
  have hnone : lookupByThread (x.threadKey m) db₀ = none := by
    rw [hkey]
    exact hc.unbound
  obtain ⟨n, h⟩ := advances_created (halike.known hc.known)
    (hagent.creates hfresh.lastAgent) hch hnone (hm ▸ hagent) hinsert
  rw [hm, hkey] at h
  refine ⟨n, _, h, rfl, ?_, hrest.feed, hrest.participations, hrest.triggers⟩
  rw [hbind]
  simp only [Slack.bind, hrest.bindings]

theorem Reaches.duplicate (h : Reaches d x m db₀ db w agent thread)
    (hsub : submission d w.caller x = .ok (k, prompt))
    (htrigger : triggerExists w.orgId k db₀ = true) (hf : db.feed = db₀.feed)
    (ht : db.triggers = db₀.triggers) : Agrees (handleOnce d x m db₀) db := by
  obtain ⟨n, db₂, hn, h₁, h₂, h₃, -, h₅⟩ := h
  have htrigger₂ : triggerExists w.orgId k db₂ = true := by
    rw [triggerExists, h₅]
    exact htrigger
  rw [handleOnce, hn, advances_duplicate hsub htrigger₂]
  exact ⟨h₁, h₂, h₃.trans hf.symm, h₅.trans ht.symm⟩

theorem Reaches.submitted (h : Reaches d a.delivery m db₀ db w agent thread)
    (hposted : Posted d db₀ db a w agent thread k prompt receiver)
    (hmessage : m.message = a.mint.message) (hrequest : m.request = a.mint.request)
    (hstate : ∀ p ∈ db₀.participations.find? (thread, agent), p.id = m.participation)
    (ht : db.triggers
      = db₀.triggers.addNew (triggerRow a.mint w agent thread k m.participation)) :
    Agrees (handleOnce d a.delivery m db₀) db := by
  obtain ⟨n, db₂, hn, h₁, h₂, h₃, h₄, h₅⟩ := h
  have hfree : triggerExists w.orgId k db₂ = false := by
    rw [triggerExists, h₅]
    exact hposted.free
  have hinsert : db₂.feed.insert? ⟨m.message, thread, w.colleague, receiver, prompt⟩
      = some db.feed := by
    rw [h₃, hmessage]
    exact hposted.inserted
  have hparticipation : (resolveParticipation m thread agent db₂).1 = m.participation := by
    rw [resolveParticipation, h₄]
    cases hp : db₀.participations.find? (thread, agent) with
    | none => rfl
    | some p => exact hstate p hp
  obtain ⟨participations, hend⟩ := advances_submitted hposted.submitted hfree hposted.receives
    hinsert (n := n) (m := m)
  rw [handleOnce, hn, hend]
  refine ⟨h₁, h₂, rfl, ?_⟩
  simp only [hparticipation, triggerRow, h₅, hmessage, hrequest, ht]

section Settled

variable (hi : Inv d item db₀ s)
include hi

theorem Inv.bound_by {K : ThreadKey} (h : lookupByThread K s.db = some thread) :
    lookupByThread K db₀ = some thread ∨ ∃ b ∈ s.attempts, ∃ w agent ch,
      Created d db₀ s.db b w agent ch ∧ b.threadKey = K ∧ b.mint.thread = thread
        ∧ s.db.bindings = (Slack.bind w.orgId b.threadKey b.mint.thread db₀).bindings := by
  obtain ⟨-, e⟩ | ⟨b, hb, w, agent, ch, hc⟩ := hi.made
  · rw [lookupByThread, e] at h
    exact .inl h
  · obtain e | e := hc.binding
    · rw [lookupByThread, e] at h
      exact .inl h
    · have hlookup := h
      rw [lookupByThread, e, ← lookupByThread, lookupByThread_bind] at hlookup
      cases h₀ : lookupByThread K db₀ with
      | some t =>
        rw [h₀, Option.some_or] at hlookup
        exact .inl hlookup
      | none =>
        rw [h₀, Option.none_or] at hlookup
        split at hlookup
        · rename_i hkey
          exact .inr ⟨b, hb, w, agent, ch, hc, hkey, Option.some.inj hlookup, e⟩
        · cases hlookup

theorem Inv.unmade (ha : a ∈ s.attempts) (h : lookupByThread a.threadKey db₀ = some thread) :
    s.db.threads = db₀.threads ∧ s.db.bindings = db₀.bindings := by
  obtain hsame | ⟨b, hb, w, agent, ch, hc⟩ := hi.made
  · exact hsame
  · have hkey : b.threadKey = a.threadKey :=
      ((hi.alike hb ha).threadKey b.mint).trans
        (threadKey_of_not_top ((hi.fresh a ha).not_top h) b.mint a.mint)
    exact absurd (h.symm.trans (hkey ▸ hc.unbound)) (by simp)

variable (hs : settled s = true)
include hs

theorem Inv.finished (ha : a ∈ s.attempts) :
    ∃ b ∈ s.attempts, b.delivery = a.delivery ∧ Finished d db₀ s.db b := by
  simp only [settled, Bool.and_eq_true, List.all_eq_true, List.any_eq_true,
    decide_eq_true_eq] at hs
  obtain ⟨-, b, hb, hdelivery, hpc⟩ := hs.2 a ha
  refine ⟨b, hb, hdelivery, ?_⟩
  have h := hi.holds b hb
  simpa only [Holds, hpc] using h

theorem Inv.enqueued_of_creates (ha : a ∈ s.attempts) (hk : Known d db₀ a.delivery w)
    (hcreates : a.delivery.creates = true) : ∃ b ∈ s.attempts, b.delivery = a.delivery
      ∧ ∃ k, a.delivery.idempotencyKey = .ok k ∧ triggerExists w.orgId k s.db = true
      ∧ ((∃ sub, a.delivery = .slash sub) ∨ ∃ agent thread prompt,
        Bound d db₀ s.db b w agent thread
          ∧ submission d w.caller a.delivery = .ok (k, prompt)) := by
  obtain ⟨b, hb, hdelivery, h⟩ := hi.finished hs ha
  refine ⟨b, hb, hdelivery, ?_⟩
  cases h with
  | outside h =>
    rw [hdelivery, hk.entered] at h
    cases h
  | dropped w' hk' hch hfalse hnone =>
    rw [hdelivery, hcreates] at hfalse
    cases hfalse
  | resubmitted w' k hk' hkey htrigger hslash =>
    rw [hdelivery] at hk' hkey hslash
    obtain rfl := hk.unique hk'
    exact ⟨k, hkey, htrigger, .inl hslash⟩
  | duplicate w' agent thread k prompt hbound hsub htrigger =>
    have hk' := hbound.known
    rw [hdelivery] at hk' hsub
    obtain rfl := hk.unique hk'
    exact ⟨k, submission_key hsub, htrigger, .inr ⟨agent, thread, prompt, hbound, hsub⟩⟩

theorem Inv.enqueued (ha : a ∈ s.attempts)
    (hposted : Posted d db₀ s.db a w agent thread k prompt receiver) : ∃ state,
      s.db.triggers = db₀.triggers.addNew (triggerRow a.mint w agent thread k state)
        ∧ ∀ p ∈ db₀.participations.find? (thread, agent), p.id = state := by
  have hkey := submission_key hposted.submitted
  have htrigger : triggerExists w.orgId k s.db = true := by
    obtain ⟨b, hb, hdelivery, h⟩ := hi.finished hs ha
    cases h with
    | outside h =>
      rw [hdelivery, hposted.known.entered] at h
      cases h
    | dropped w' hk' hch hcreates hnone =>
      have hsame : b.threadKey = a.threadKey := by
        rw [Attempt.threadKey, Attempt.threadKey, ← hdelivery]
        exact threadKey_of_not_top (not_top_of_not_creates hcreates) _ _
      obtain h | ⟨p, hp, w₁, agent₁, ch, hc, -, -, -⟩ := hi.bound_by hposted.bound
      · exact absurd (h.symm.trans (hsame ▸ hnone)) (by simp)
      · obtain ⟨-, -, -, k₁, hkey₁, htrigger₁, -⟩ :=
          hi.enqueued_of_creates hs hp hc.known hc.creates
        have halike := hi.alike hp ha
        obtain rfl := (halike.known hc.known).unique hposted.known
        have hk₁ : k₁ = k := Except.ok.inj (hkey₁.symm.trans (halike.key.trans hkey))
        exact hk₁ ▸ htrigger₁
    | resubmitted w' k' hk' hkey' htrigger' hslash =>
      rw [hdelivery] at hk' hkey'
      obtain rfl := hposted.known.unique hk'
      obtain rfl := Except.ok.inj (hkey.symm.trans hkey')
      exact htrigger'
    | duplicate w' agent' thread' k' prompt' hbound hsub htrigger' =>
      have hk' := hbound.known
      rw [hdelivery] at hk' hsub
      obtain rfl := hposted.known.unique hk'
      obtain rfl := Except.ok.inj (hkey.symm.trans (submission_key hsub))
      exact htrigger'
  obtain e | h := hposted.log
  · rw [triggerExists, e, ← triggerExists, hposted.free] at htrigger
    cases htrigger
  · exact h

theorem Inv.once_of_posted (ha : a ∈ s.attempts)
    (hposted : Posted d db₀ s.db a w agent thread k prompt receiver) : OnceFrom d db₀ s := by
  obtain ⟨state, htriggers, hstate⟩ := hi.enqueued hs ha hposted
  suffices h : ∃ m₀ : Mint, Reaches d a.delivery { m₀ with
      message := a.mint.message
      participation := state
      request := a.mint.request
      mirror := a.mint.mirror } db₀ s.db w agent thread by
    obtain ⟨m₀, h⟩ := h
    refine ⟨a, ha, _, h.submitted hposted rfl rfl hstate htriggers, fun t ht hnew => ?_⟩
    rw [htriggers] at ht
    obtain rfl := (Table.mem_or_eq_of_mem_addNew ht).resolve_left hnew
    exact hposted.bound
  have hfresh := hi.fresh a ha
  obtain hbound | ⟨b, hb, w', agent', ch, hc, hkey, rfl, hbind⟩ := hi.bound_by hposted.bound
  · obtain ⟨hthreads, hbindings⟩ := hi.unmade ha hbound
    obtain ⟨ch, m₀, db₁, hch⟩ := hposted.channel
    exact ⟨m₀, reaches_found hposted.known (hfresh.not_top hbound) hch hbound hposted.chosen
      hthreads hbindings⟩
  · have halike := hi.alike hb ha
    obtain rfl := (halike.known hc.known).unique hposted.known
    obtain ⟨m₀, db₁, hch⟩ := hc.channel
    rw [halike.teamId, halike.channelId] at hch
    exact ⟨{ m₀ with thread := b.mint.thread }, hc.reaches hbind halike hposted.chosen
      (hi.fresh b hb) hkey.symm rfl hch⟩

theorem Inv.once_of_unlogged (hfeed : s.db.feed = db₀.feed)
    (htriggers : s.db.triggers = db₀.triggers) : OnceFrom d db₀ s := by
  have hold : ∀ t ∈ s.db.triggers, t ∈ db₀.triggers := fun t ht => htriggers ▸ ht
  have htrigger : ∀ org k, triggerExists org k s.db = true → triggerExists org k db₀ = true :=
    fun org k h => by
      rw [triggerExists, htriggers] at h
      exact h
  have hne : s.attempts.rows ≠ [] := by
    intro e
    simp [settled, e] at hs
  obtain ⟨a, ha⟩ := List.exists_mem_of_ne_nil _ hne
  obtain ⟨b, hb, -, hfinished⟩ := hi.finished hs ha
  obtain ⟨hthreads, hbindings⟩ | ⟨p, hp, w, agent, ch, hc⟩ := hi.made
  · suffices h : ∃ m, Agrees (handleOnce d b.delivery m db₀) db₀ by
      obtain ⟨m, h⟩ := h
      exact ⟨b, hb, m, ⟨h.threads.trans hthreads.symm, h.bindings.trans hbindings.symm,
        h.feed.trans hfeed.symm, h.triggers.trans htriggers.symm⟩,
        fun t ht hnew => absurd (hold t ht) hnew⟩
    cases hfinished with
    | outside h =>
      have hend : advances d b.delivery b.mint STEPS (.entry, db₀) = (.done, db₀) := by
        have hhead : advances d b.delivery b.mint STEPS (.entry, db₀)
            = advances d b.delivery b.mint 8 (.done, db₀) := by
          rw [STEPS, advances, Slack.advance, h]
        exact hhead.trans (advances_done _ _ _ _)
      refine ⟨b.mint, ?_⟩
      rw [handleOnce, hend]
      exact ⟨rfl, rfl, rfl, rfl⟩
    | dropped w hk hch hcreates hnone =>
      obtain ⟨ch, m₀, db₁, hch⟩ := hch
      have hrest := ensureChannel_rest hch
      have hkey : b.delivery.threadKey m₀ = b.threadKey :=
        threadKey_of_not_top (not_top_of_not_creates hcreates) _ _
      refine ⟨m₀, ?_⟩
      rw [handleOnce, advances_dropped hk hcreates hch (hkey ▸ hnone)]
      exact ⟨hrest.threads, hrest.bindings, hrest.feed, hrest.triggers⟩
    | resubmitted w k hk hkey h hslash =>
      obtain ⟨sub, hx⟩ := hslash
      rw [hx] at hk hkey
      exact absurd ((not_known_of_trigger hk hkey).symm.trans (htrigger _ _ h))
        Bool.false_ne_true
    | duplicate w agent thread k prompt hbound hsub h =>
      have hfound : lookupByThread b.threadKey db₀ = some thread := by
        have e := hbound.bound
        rw [lookupByThread, hbindings] at e
        exact e
      have htop := (hi.fresh b hb).not_top hfound
      obtain ⟨ch, m₀, db₁, hch⟩ := hbound.channel
      have hkey : b.delivery.threadKey m₀ = b.threadKey := threadKey_of_not_top htop _ _
      have hreaches : Reaches d b.delivery m₀ db₀ db₀ w agent thread :=
        reaches_found hbound.known htop hch (hkey ▸ hfound) (hbound.chosen hfeed) rfl rfl
      exact ⟨m₀, hreaches.duplicate hsub (htrigger _ _ h) rfl rfl⟩
  · obtain ⟨b, hb, hdelivery, k, hkey, h, hslash | ⟨agent', thread, prompt, hbound, hsub⟩⟩ :=
      hi.enqueued_of_creates hs hp hc.known hc.creates
    · obtain ⟨sub, hx⟩ := hslash
      have hk := hc.known
      rw [hx] at hk hkey
      exact absurd ((not_known_of_trigger hk hkey).symm.trans (htrigger _ _ h))
        Bool.false_ne_true
    · obtain hfound | ⟨q, hq, w', agent₁, ch₁, hc₁, -, -, hbind⟩ := hi.bound_by hbound.bound
      · obtain ⟨-, hbindings⟩ := hi.unmade hb hfound
        have hkeys : p.threadKey = b.threadKey :=
          ((hi.alike hp hb).threadKey p.mint).trans
            (threadKey_of_not_top ((hi.fresh b hb).not_top hfound) _ _)
        exact absurd (hfound.symm.trans (hkeys ▸ hc.unbound)) (by simp)
      · have halike := hi.alike hp hq
        obtain rfl := (halike.known hc.known).unique hc₁.known
        obtain ⟨m₀, db₁, hch⟩ := hc₁.channel
        have hreaches := hc₁.reaches (m := { m₀ with
          thread := q.mint.thread
          mirror := q.mint.mirror }) hbind (hi.alike hq hq) (hc₁.chosen _) (hi.fresh q hq)
          (threadKey_congr _ rfl) rfl hch
        rw [halike.submission] at hsub
        exact ⟨q, hq, _, hreaches.duplicate hsub (htrigger _ _ h) hfeed htriggers,
          fun t ht hnew => absurd (hold t ht) hnew⟩

theorem Inv.once : OnceFrom d db₀ s := by
  obtain ⟨hfeed, -, htriggers⟩ | ⟨a, ha, w, agent, thread, k, prompt, receiver, hposted⟩ :=
    hi.logged
  · exact hi.once_of_unlogged hs hfeed htriggers
  · exact hi.once_of_posted hs ha hposted

end Settled

/-- In every run whose attempts create and append in turn, whatever they leave once each kind of
delivery came to its end is what a single one leaves. -/
theorem once_of_orderly
    (h : Steps (bridgeStep d item) (fun s a => orderly s a = true) ⟨db₀, .empty⟩ acts) :
    Always (bridgeStep d item) (fun s => settled s = true → OnceFrom d db₀ s) ⟨db₀, .empty⟩ acts :=
  (Steps.always (fun _ => True) (fun _ _ _ _ _ _ _ => trivial)
    (fun _ _ _ _ hi hs hgood => Inv.step hi hgood hs) trivial (.init d item db₀) h).mono
    fun _ hi hs => hi.once hs

def Pc.unlogged : Pc → Nat
  | .entry | .channel _ | .lookup _ _ | .lastAgent _ _ | .create _ _ _ | .bind _ _ _
  | .check _ _ _ | .append _ _ _ _ _ => 1
  | .participation _ _ _ _ | .enqueue _ _ _ _ _ | .done | .failed _ => 0

theorem Pc.unlogged_le_one (pc : Pc) : pc.unlogged ≤ 1 := by
  cases pc <;> simp [unlogged]

theorem advance_feed (d : BridgeDeps) (x : Delivery) (m : Mint) (db : Db) (pc : Pc) :
    (advance d x m db pc).2.feed.rows.length + (advance d x m db pc).1.unlogged
      ≤ db.feed.rows.length + pc.unlogged := by
  cases pc with
  | entry => exact Nat.add_le_add_left (Pc.unlogged_le_one _) _
  | lookup c ch =>
    simp only [advance]
    split <;> exact Nat.add_le_add_left (Pc.unlogged_le_one _) _
  | channel c =>
    simp only [advance]
    split
    · exact Nat.add_le_add_left (Pc.unlogged_le_one _) _
    · rename_i h
      rw [(ensureChannel_rest h).feed]
      exact Nat.add_le_add_left (Pc.unlogged_le_one _) _
  | lastAgent w thread =>
    simp only [advance]
    split <;> exact Nat.add_le_add_left (Pc.unlogged_le_one _) _
  | create w agent ch =>
    simp only [advance]
    split <;> exact Nat.add_le_add_left (Pc.unlogged_le_one _) _
  | bind w agent thread => exact Nat.le_refl _
  | check w agent thread =>
    simp only [advance]
    split
    · exact Nat.add_le_add_left (Pc.unlogged_le_one _) _
    · split <;> exact Nat.add_le_add_left (Pc.unlogged_le_one _) _
  | append w agent thread k prompt =>
    simp only [advance]
    split
    · exact Nat.le_succ _
    · split
      · exact Nat.le_succ _
      · rename_i h
        rw [Table.rows_insert? h, List.length_append]
        exact Nat.le_refl _
  | participation w agent thread k =>
    have hsame : db.participations = db.participations := rfl
    obtain ⟨-, hrows⟩ := resolveParticipation_congr m thread agent hsame
    simp only [advance]
    rw [hrows]
    exact Nat.le_refl _
  | enqueue w agent thread k state => exact Nat.le_refl _
  | done | failed e => exact Nat.le_refl _

theorem handleOnce_feed (d : BridgeDeps) (x : Delivery) (m : Mint) (db : Db) :
    (handleOnce d x m db).feed.rows.length ≤ db.feed.rows.length + 1 := by
  have h : ∀ n pc db, (advances d x m n (pc, db)).2.feed.rows.length
      ≤ db.feed.rows.length + pc.unlogged := by
    intro n
    induction n with
    | zero => exact fun pc db => Nat.le_add_right _ _
    | succ n ih => exact fun pc db => (ih _ _).trans (advance_feed d x m db pc)
  exact h STEPS .entry db

def hallTeam : SlackTeamId := ⟨"T-hall", by decide, by decide, by decide⟩
def hallChannel : SlackChannelId := ⟨"C-hall", by decide, by decide, by decide⟩
def ruth : SlackUserId := ⟨"U-ruth", by decide, by decide, by decide⟩
def hallBot : SlackUserId := ⟨"U-hall-bot", by decide, by decide, by decide⟩
def sentAt : SlackTs := ⟨"1700000001.000100", by decide, by decide⟩
def firstMirror : SlackTs := ⟨"1700000002.000200", by decide, by decide⟩
def secondMirror : SlackTs := ⟨"1700000003.000300", by decide, by decide⟩

def hallDeps : BridgeDeps where
  readByTeam _ := some ⟨hallTeam, 1, hallBot⟩
  lookupIdentity _ _ := some 7
  resolveUser _ user := some (10 + user)
  resolveAgent _ agent := some (20 + agent)
  readAgent _ := some 1
  readByNameForOrg _ _ := some 3
  parseMention text _ := ⟨none, text⟩

def asked : InboundEvent :=
  ⟨hallTeam, hallChannel, ruth, "sweep the hall", none, sentAt, .appMention⟩

def drawn (n : Uuid) (mirror : SlackTs) : Mint := ⟨n + 1, n + 2, n + 3, n + 4, n + 5, mirror⟩

def crashed : List Act :=
  .deliver (.event asked) (drawn 100 firstMirror) :: List.replicate 7 (.step 102) ++ [.stop 102]

def handledBy (n : Uuid) (mirror : SlackTs) : List Act :=
  .deliver (.event asked) (drawn n mirror) :: List.replicate STEPS (.step (n + 2))

/-- The retry of an attempt that stopped between its append and its trigger appends again. -/
theorem not_onceFrom : ¬ ∀ (d : BridgeDeps) (item : Item) (db₀ : Db) (acts : List Act),
    Always (bridgeStep d item) (fun s => settled s = true → OnceFrom d db₀ s)
      ⟨db₀, .empty⟩ acts := by
  intro h
  have hall := h hallDeps (.message asked) .init (crashed ++ handledBy 200 secondMirror)
  have hrun : ((run (bridgeStep hallDeps (.message asked)) ⟨.init, .empty⟩
      (crashed ++ handledBy 200 secondMirror)).any fun t =>
        settled t && t.db.feed.rows.length = 2) = true := by
    decide +kernel
  obtain ⟨t, ht, hbad⟩ := (Option.any_eq_true _ _).mp hrun
  simp only [Bool.and_eq_true, decide_eq_true_eq] at hbad
  obtain ⟨a, -, m, hagrees, -⟩ := hall.run ht hbad.1
  have hbound := handleOnce_feed hallDeps a.delivery m .init
  rw [hagrees.feed, hbad.2] at hbound
  exact absurd hbound (by decide)

theorem once_of_orderly_twice : Always (bridgeStep hallDeps (.message asked))
    (fun s => settled s = true → OnceFrom hallDeps .init s) ⟨.init, .empty⟩
    (handledBy 100 firstMirror ++ handledBy 200 secondMirror) :=
  once_of_orderly (by decide +kernel)

end Patom.Slack
