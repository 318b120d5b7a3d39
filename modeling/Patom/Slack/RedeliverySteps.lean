import Patom.Slack.Redelivery

open Patom.Foundation
open Patom.Runtime (IdempotencyKey)

namespace Patom.Slack

variable {d : BridgeDeps} {item : Item} {x : Delivery} {m : Mint} {db db' db₀ : Db} {w : Who}
  {c : Caller} {thread : ThreadId} {agent : AgentId} {ch : ChannelId} {k : IdempotencyKey}
  {prompt : Prompt} {receiver : ColleagueId} {state : AgentThreadId} {pc pc' : Pc}
  {a b : Attempt} {s t : BridgeSt} {attempts : Table Attempt}

theorem submission_key (h : submission d c x = .ok (k, prompt)) : x.idempotencyKey = .ok k := by
  unfold submission at h
  cases hk : x.idempotencyKey with
  | error e => simp [hk] at h
  | ok k' =>
    cases x with
    | slash s =>
      simp only [hk, Except.ok.injEq, Prod.mk.injEq] at h
      rw [h.1]
    | event e =>
      simp only [hk] at h
      split at h
      · cases h
      · simp only [Except.ok.injEq, Prod.mk.injEq] at h
        rw [h.1]

theorem enter_cases (d : BridgeDeps) (db : Db) (x : Delivery) :
    (∃ e, enter d db x = .failed e) ∨ enter d db x = .done ∨ ∃ c, enter d db x = .channel c := by
  cases x with
  | event e =>
    simp only [enter]
    cases d.readByTeam e.teamId with
    | none => exact .inl ⟨_, rfl⟩
    | some ws =>
      cases d.lookupIdentity e.teamId e.userId with
      | none => exact .inr (.inl (ite_self _))
      | some user =>
        by_cases hbot : ws.botUserId = e.userId
        · exact .inr (.inl (if_pos hbot))
        · exact .inr (.inr ⟨_, if_neg hbot⟩)
  | slash s =>
    simp only [enter]
    cases d.readByTeam s.teamId with
    | none => exact .inl ⟨_, rfl⟩
    | some ws =>
      cases d.lookupIdentity s.teamId s.slackUserId with
      | none => exact .inl ⟨_, rfl⟩
      | some user =>
        cases (Delivery.slash s).idempotencyKey with
        | error e =>
          dsimp only
          split <;> exact .inl ⟨_, rfl⟩
        | ok k =>
          dsimp only
          split
          · exact .inl ⟨_, rfl⟩
          · split
            · exact .inr (.inl rfl)
            · split
              · exact .inl ⟨_, rfl⟩
              · exact .inr (.inr ⟨_, rfl⟩)

theorem enter_eq_or (hg : Grown db₀ db) (x : Delivery) : enter d db x = enter d db₀ x
    ∨ enter d db x = .done ∧ (∃ s, x = .slash s)
      ∧ ∃ org k, triggerExists org k db = true ∧ triggerExists org k db₀ = false := by
  cases x with
  | event e => exact .inl rfl
  | slash s =>
    simp only [enter]
    cases d.readByTeam s.teamId with
    | none => exact .inl rfl
    | some ws =>
      cases d.lookupIdentity s.teamId s.slackUserId with
      | none => exact .inl rfl
      | some user =>
        cases (Delivery.slash s).idempotencyKey with
        | error e => exact .inl rfl
        | ok k =>
          dsimp only
          by_cases hagent : d.readAgent s.agentId ≠ some ws.orgId
          · exact .inl (by rw [if_pos hagent, if_pos hagent])
          · rw [if_neg hagent, if_neg hagent]
            cases hold : triggerExists ws.orgId k db₀ with
            | true => exact .inl (by rw [hg.triggers _ _ hold])
            | false =>
              cases hnew : triggerExists ws.orgId k db with
              | false => exact .inl rfl
              | true => exact .inr ⟨rfl, ⟨s, rfl⟩, _, _, hnew, hold⟩

theorem located_of_none (x : Delivery) (ch : ChannelId)
    (h : d.resolveUser c.workspace.orgId c.userId = none) :
    located d c ch x = .lookup c ch ∨ ∃ e, located d c ch x = .failed e := by
  cases x with
  | event e => exact .inl rfl
  | slash s =>
    cases hts : s.threadTs with
    | some ts => exact .inl (by simp only [located, hts])
    | none => exact .inr ⟨_, by simp only [located, hts, h]; rfl⟩

theorem routed_cases (db₀ : Db) (w : Who) (ch : ChannelId) (found : Option ThreadId)
    (x : Delivery) : (∃ e, routed d w ch found x = .failed e)
      ∨ (x.creates = false ∧ found = none ∧ routed d w ch found x = .done)
      ∨ (x.creates = false ∧ ∃ thread, found = some thread
        ∧ routed d w ch found x = .lastAgent w thread)
      ∨ ∃ agent, x.creates = true ∧ (∀ thread, Chosen d db₀ w thread agent x)
        ∧ (found = none ∧ routed d w ch found x = .create w agent ch
          ∨ ∃ thread, found = some thread ∧ routed d w ch found x = .check w agent thread) := by
  cases x with
  | slash s =>
    refine .inr (.inr (.inr ⟨s.agentId, rfl, fun _ => rfl, ?_⟩))
    cases found with
    | none => exact .inl ⟨rfl, rfl⟩
    | some thread => exact .inr ⟨thread, rfl, rfl⟩
  | event e =>
    cases hsource : e.source with
    | threadMessage =>
      cases found with
      | none => exact .inr (.inl (by simp [Delivery.creates, routed, hsource]))
      | some thread => exact .inr (.inr (.inl (by simp [Delivery.creates, routed, hsource])))
    | appMention =>
      cases hagent : resolveMentionOrRecruiter d w.caller e with
      | error err => exact .inl ⟨err, by simp [routed, hsource, hagent]⟩
      | ok agent =>
        refine .inr (.inr (.inr ⟨agent, by simp [Delivery.creates, hsource], ?_, ?_⟩))
        · simp [Chosen, hsource, hagent]
        · cases found <;> simp [routed, hsource, hagent]

theorem not_known_of_trigger {s : SlashCommandSubmit} (hk : Known d db₀ (.slash s) w)
    (hkey : (Delivery.slash s).idempotencyKey = .ok k) : triggerExists w.orgId k db₀ = false := by
  have h := hk.entered
  simp only [enter, hkey] at h
  cases hteam : d.readByTeam s.teamId with
  | none => simp [hteam] at h
  | some ws =>
    cases huser : d.lookupIdentity s.teamId s.slackUserId with
    | none => simp [hteam, huser] at h
    | some user =>
      simp only [hteam, huser] at h
      split at h
      · cases h
      · split at h
        · cases h
        · rename_i htrigger
          split at h
          · cases h
          · have hw : w.caller = ⟨ws, user⟩ := (Pc.channel.inj h).symm
            rw [Who.orgId, hw]
            simpa using htrigger

theorem Alike.known {y : Delivery} (h : Alike d x y) (hk : Known d db₀ x w) : Known d db₀ y w :=
  ⟨(h.enter db₀).symm.trans hk.entered, hk.who⟩

theorem threadKey_of_top (h : x.isTop = true) (m : Mint) :
    x.threadKey m = (x.teamId, x.channelId, m.mirror) := by
  cases x with
  | event e => cases h
  | slash s =>
    have hts : s.threadTs = none := by simpa [Delivery.isTop] using h
    simp [Delivery.threadKey, Delivery.anchor, hts]

theorem threadKey_of_not_top (h : x.isTop = false) (m m' : Mint) :
    x.threadKey m = x.threadKey m' := by
  cases x with
  | event e => rfl
  | slash s =>
    cases hts : s.threadTs with
    | none => simp [Delivery.isTop, hts] at h
    | some ts => simp [Delivery.threadKey, Delivery.anchor, hts]

theorem Fresh.not_top (h : Fresh db₀ a) (hbound : lookupByThread a.threadKey db₀ = some thread) :
    a.delivery.isTop = false := by
  cases htop : a.delivery.isTop with
  | false => rfl
  | true =>
    rw [Attempt.threadKey, threadKey_of_top htop, h.mirror] at hbound
    cases hbound

theorem exists_put {P : Attempt → Prop} (ha : a ∈ attempts) (hP : P a → P { a with pc := pc' })
    (h : ∃ b ∈ attempts, P b) : ∃ b ∈ attempts.put { a with pc := pc' }, P b := by
  obtain ⟨b, hb, hPb⟩ := h
  by_cases e : key b = key a
  · obtain rfl := Table.eq_of_key_eq hb ha e
    exact ⟨_, Table.mem_put.mpr (.inl rfl), hP hPb⟩
  · exact ⟨b, Table.mem_put.mpr (.inr ⟨hb, e⟩), hPb⟩

theorem Sends.moved (h : Sends d db₀ db a w agent thread k prompt receiver) :
    Sends d db₀ db { a with pc := pc' } w agent thread k prompt receiver :=
  ⟨h.known, h.channel, h.chosen, h.submitted, h.free, h.receives, h.bound, h.row⟩

theorem Made.put (ha : a ∈ attempts) (h : Made d db₀ db attempts) :
    Made d db₀ db (attempts.put { a with pc := pc' }) := by
  refine h.imp id fun h => exists_put ha ?_ h
  rintro ⟨w, agent, ch, hc⟩
  exact ⟨w, agent, ch, ⟨hc.known, hc.channel, hc.creates, hc.unbound, hc.chosen⟩, hc.inserted,
    hc.binding⟩

theorem Logged.put (ha : a ∈ attempts) (h : Logged d db₀ db attempts) :
    Logged d db₀ db (attempts.put { a with pc := pc' }) := by
  refine h.imp id fun h => exists_put ha ?_ h
  rintro ⟨w, agent, thread, k, prompt, receiver, hp⟩
  exact ⟨w, agent, thread, k, prompt, receiver, hp.toSends.moved, hp.inserted, hp.log⟩

theorem Made.frame (h : Made d db₀ db attempts) (ht : db'.threads = db.threads)
    (hb : db'.bindings = db.bindings) : Made d db₀ db' attempts := by
  refine h.imp (fun h => ⟨ht.trans h.1, hb.trans h.2⟩) ?_
  rintro ⟨a, ha, w, agent, ch, hc⟩
  refine ⟨a, ha, w, agent, ch, hc.toMakes, ?_, ?_⟩
  · rw [ht, hc.inserted]
  · rw [hb]
    exact hc.binding

theorem Posted.frame (h : Posted d db₀ db a w agent thread k prompt receiver)
    (hg : Grown db db') (hf : db'.feed = db.feed) (ht : db'.triggers = db.triggers) :
    Posted d db₀ db' a w agent thread k prompt receiver := by
  refine ⟨h.toSends.mono hg, ?_, ?_⟩
  · rw [hf, h.inserted]
  · rw [ht]
    exact h.log

theorem Logged.frame (h : Logged d db₀ db attempts) (hg : Grown db db')
    (hf : db'.feed = db.feed) (hp : db'.participations = db.participations)
    (ht : db'.triggers = db.triggers) : Logged d db₀ db' attempts := by
  refine h.imp (fun h => ⟨hf.trans h.1, hp.trans h.2.1, ht.trans h.2.2⟩) ?_
  rintro ⟨a, ha, w, agent, thread, k, prompt, receiver, hposted⟩
  exact ⟨a, ha, w, agent, thread, k, prompt, receiver, hposted.frame hg hf ht⟩

theorem Inv.moved (hi : Inv d item db₀ s) (ha : a ∈ s.attempts) (hg : Grown s.db db')
    (hu : db'.feed = db₀.feed → s.db.feed = db₀.feed)
    (hholds : Holds d db₀ db' { a with pc := pc' }) (hch : Channelled d item db₀ db')
    (hmade : Made d db₀ db' s.attempts) (hlog : Logged d db₀ db' s.attempts) :
    Inv d item db₀ ⟨db', s.attempts.put { a with pc := pc' }⟩ := by
  have hmem : ∀ b ∈ s.attempts.put { a with pc := pc' },
      b = { a with pc := pc' } ∨ b ∈ s.attempts := fun b hb =>
    (Table.mem_put.mp hb).imp id And.left
  refine ⟨hi.grown.trans hg, ?_, ?_, ?_, ?_, hch, hmade.put ha, hlog.put ha⟩
  · intro b hb
    obtain rfl | hb := hmem b hb
    · exact hi.listed a ha
    · exact hi.listed b hb
  · intro b hb
    obtain rfl | hb := hmem b hb
    · obtain ⟨h₁, h₂, h₃, h₄⟩ := hi.fresh a ha
      exact ⟨h₁, h₂, h₃, h₄⟩
    · exact hi.fresh b hb
  · intro b hb b' hb' hne
    obtain rfl | hb := hmem b hb <;> obtain rfl | hb' := hmem b' hb'
    · exact absurd rfl hne
    · exact hi.distinct a ha b' hb' hne
    · exact hi.distinct b hb a ha hne
    · exact hi.distinct b hb b' hb' hne
  · intro b hb
    obtain rfl | hb := hmem b hb
    · exact hholds
    · exact (hi.holds b hb).mono hg hu

theorem Inv.read (hi : Inv d item db₀ s) (ha : a ∈ s.attempts)
    (hholds : Holds d db₀ s.db { a with pc := pc' }) :
    Inv d item db₀ ⟨s.db, s.attempts.put { a with pc := pc' }⟩ :=
  hi.moved ha (.refl _) id hholds hi.channels hi.made hi.logged

theorem Inv.alike (hi : Inv d item db₀ s) (ha : a ∈ s.attempts) (hb : b ∈ s.attempts) :
    Alike d a.delivery b.delivery :=
  Slack.alike (hi.listed a ha) (hi.listed b hb)

section Steps

variable (hi : Inv d item db₀ s) (ha : a ∈ s.attempts)
include hi ha

theorem Inv.trigger_new {org : OrgId} (hnew : triggerExists org k s.db = true)
    (hold : triggerExists org k db₀ = false) : ∃ w k', Known d db₀ a.delivery w
      ∧ a.delivery.idempotencyKey = .ok k' ∧ triggerExists w.orgId k' s.db = true := by
  obtain ⟨-, -, e⟩ | ⟨p, hp, w, agent, thread, k', prompt, receiver, hposted⟩ := hi.logged
  · rw [triggerExists, e, ← triggerExists, hold] at hnew
    cases hnew
  · obtain e | ⟨state, e, -⟩ := hposted.log
    · rw [triggerExists, e, ← triggerExists, hold] at hnew
      cases hnew
    · have halike := hi.alike hp ha
      refine ⟨w, k', halike.known hposted.known, ?_, ?_⟩
      · rw [← halike.key]
        exact submission_key hposted.submitted
      · rw [triggerExists, e]
        exact Table.isSome_find?_addNew _ _

theorem Inv.entry (hpc : a.pc = .entry)
    (hadv : Slack.advance d a.delivery a.mint s.db a.pc = (pc', db')) :
    Inv d item db₀ ⟨db', s.attempts.put { a with pc := pc' }⟩ := by
  rw [hpc, advance] at hadv
  cases hadv
  refine hi.read ha ?_
  obtain e | ⟨hdone, hslash, org, k, hnew, hold⟩ := enter_eq_or (d := d) hi.grown a.delivery
  · obtain ⟨err, h⟩ | h | ⟨c, h⟩ := enter_cases d s.db a.delivery <;> rw [h]
    · trivial
    · exact Finished.outside (e.symm.trans h)
    · exact e.symm.trans h
  · obtain ⟨w, k', hk, hkey, htrigger⟩ := hi.trigger_new ha hnew hold
    rw [hdone]
    exact Finished.resubmitted w k' hk hkey htrigger hslash

theorem Inv.mapped (hc : enter d db₀ a.delivery = .channel c)
    (hch : ensureChannel a.mint c.workspace.orgId a.delivery.teamId a.delivery.channelId s.db
      = .ok (ch, db')) :
    ChannelOk db₀ a.delivery c ch ∧ Channelled d item db₀ db' := by
  obtain ⟨h₁, h₂⟩ | hmapped := hi.channels
  · have hok : ChannelOk db₀ a.delivery c ch := ⟨a.mint, ensureChannel_congr h₁ h₂ hch⟩
    refine ⟨hok, .inr fun x hx c' hc' => ?_⟩
    have halike : Alike d a.delivery x := Slack.alike (hi.listed a ha) hx
    obtain rfl : c = c' := by
      have e := hc.symm.trans ((halike.enter db₀).trans hc')
      exact Pc.channel.inj e
    obtain ⟨r, hr, rfl⟩ := ensureChannel_mapped hch
    refine ⟨r, halike.teamId ▸ halike.channelId ▸ hr, ?_⟩
    obtain ⟨m, db₁, h⟩ := hok
    exact ⟨m, db₁, halike.teamId ▸ halike.channelId ▸ h⟩
  · obtain ⟨r, hr, hok⟩ := hmapped _ (hi.listed a ha) c hc
    obtain ⟨rfl, rfl⟩ := ensureChannel_of_mapped hr hch
    exact ⟨hok, hi.channels⟩

theorem Inv.channel (hpc : a.pc = .channel c)
    (hadv : Slack.advance d a.delivery a.mint s.db a.pc = (pc', db')) :
    Inv d item db₀ ⟨db', s.attempts.put { a with pc := pc' }⟩ := by
  have hc : enter d db₀ a.delivery = .channel c := by simpa only [Holds, hpc] using hi.holds a ha
  rw [hpc, advance] at hadv
  cases hch : ensureChannel a.mint c.workspace.orgId a.delivery.teamId a.delivery.channelId
      s.db with
  | error e =>
    rw [hch] at hadv
    cases hadv
    exact hi.read ha trivial
  | ok p =>
    obtain ⟨ch, db₁⟩ := p
    rw [hch] at hadv
    cases hadv
    obtain ⟨hok, hchannels⟩ := hi.mapped ha hc hch
    have hrest := ensureChannel_rest hch
    refine hi.moved ha hrest.grown (fun e => hrest.feed ▸ e) ?_ hchannels
      (hi.made.frame hrest.threads hrest.bindings)
      (hi.logged.frame hrest.grown hrest.feed hrest.participations hrest.triggers)
    cases hwho : d.resolveUser c.workspace.orgId c.userId with
    | some colleague =>
      obtain ⟨-, hlocated⟩ | ⟨sub, hx, htop, hlocated⟩ :=
        located_eq (w := ⟨c, colleague⟩) a.delivery ch hwho
      · simp only [Holds, hlocated]
        exact ⟨hc, hok⟩
      · simp only [Holds, hlocated]
        refine ⟨⟨hc, hwho⟩, hok, ?_, ?_, fun thread => ?_⟩
        · rw [hx]
          rfl
        · rw [Attempt.threadKey, threadKey_of_top htop]
          exact (hi.fresh a ha).mirror
        · rw [hx]
          rfl
    | none =>
      obtain h | ⟨e, h⟩ := located_of_none a.delivery ch hwho <;> simp only [Holds, h]
      exact ⟨hc, hok⟩

theorem Inv.lookup (hpc : a.pc = .lookup c ch)
    (hadv : Slack.advance d a.delivery a.mint s.db a.pc = (pc', db')) :
    Inv d item db₀ ⟨db', s.attempts.put { a with pc := pc' }⟩ := by
  obtain ⟨hc, hok⟩ : enter d db₀ a.delivery = .channel c ∧ ChannelOk db₀ a.delivery c ch := by
    simpa only [Holds, hpc] using hi.holds a ha
  rw [hpc, advance] at hadv
  cases hwho : d.resolveUser c.workspace.orgId c.userId with
  | none =>
    simp only [hwho] at hadv
    cases hadv
    exact hi.read ha trivial
  | some colleague =>
    simp only [hwho] at hadv
    cases hadv
    have hk : Known d db₀ a.delivery ⟨c, colleague⟩ := ⟨hc, hwho⟩
    have hnone : lookupByThread a.threadKey s.db = none →
        lookupByThread a.threadKey db₀ = none := fun h => by
      cases h₀ : lookupByThread a.threadKey db₀ with
      | none => rfl
      | some t => exact absurd (h.symm.trans (hi.grown.lookup _ _ h₀)) (by simp)
    refine hi.read ha ?_
    change Holds d db₀ s.db { a with
      pc := routed d ⟨c, colleague⟩ ch (lookupByThread a.threadKey s.db) a.delivery }
    obtain ⟨e, h⟩ | ⟨hcreates, hfound, h⟩ | ⟨hcreates, thread, hfound, h⟩
        | ⟨agent, hcreates, hchosen, ⟨hfound, h⟩ | ⟨thread, hfound, h⟩⟩ :=
      routed_cases (d := d) db₀ ⟨c, colleague⟩ ch (lookupByThread a.threadKey s.db) a.delivery
      <;> simp only [Holds, h]
    · exact .dropped ⟨c, colleague⟩ hk ⟨ch, hok⟩ hcreates (hnone hfound)
    · exact ⟨hk, ⟨ch, hok⟩, hcreates, hfound⟩
    · exact ⟨hk, hok, hcreates, hnone hfound, hchosen⟩
    · exact ⟨hk, ⟨ch, hok⟩, hfound, fun _ => hchosen thread⟩

omit ha in
theorem Inv.participations (hfeed : s.db.feed = db₀.feed) :
    s.db.participations = db₀.participations := by
  obtain ⟨-, e, -⟩ | ⟨p, hp, w, agent, thread, k, prompt, receiver, hposted⟩ := hi.logged
  · exact e
  · have h := hposted.row
    rw [hfeed, (hi.fresh p hp).message] at h
    cases h

theorem Inv.lastAgent (hpc : a.pc = .lastAgent w thread)
    (hadv : Slack.advance d a.delivery a.mint s.db a.pc = (pc', db')) :
    Inv d item db₀ ⟨db', s.attempts.put { a with pc := pc' }⟩ := by
  obtain ⟨hk, hok, hcreates, hbound⟩ : Known d db₀ a.delivery w
      ∧ (∃ ch, ChannelOk db₀ a.delivery w.caller ch) ∧ a.delivery.creates = false
      ∧ lookupByThread a.threadKey s.db = some thread := by
    simpa only [Holds, hpc] using hi.holds a ha
  rw [hpc, advance] at hadv
  cases hlast : Slack.lastAgent thread s.db with
  | none =>
    simp only [hlast] at hadv
    cases hadv
    exact hi.read ha trivial
  | some agent =>
    simp only [hlast] at hadv
    cases hadv
    refine hi.read ha ⟨hk, hok, hbound, fun hfeed => ?_⟩
    have hlast₀ : Slack.lastAgent thread db₀ = some agent :=
      (lastAgent_congr (hi.participations hfeed)).symm.trans hlast
    change Chosen d db₀ w thread agent a.delivery
    cases hx : a.delivery with
    | slash sub =>
      rw [hx] at hcreates
      cases hcreates
    | event e =>
      cases hsource : e.source with
      | threadMessage => simpa only [Chosen, hsource] using hlast₀
      | appMention => simp [hx, Delivery.creates, hsource] at hcreates

theorem Inv.create (hpc : a.pc = .create w agent ch)
    (hunmade : ∀ b ∈ s.attempts, s.db.threads.find? b.mint.thread = none)
    (hadv : Slack.advance d a.delivery a.mint s.db a.pc = (pc', db')) :
    Inv d item db₀ ⟨db', s.attempts.put { a with pc := pc' }⟩ := by
  have hm : Makes d db₀ a w agent ch := by simpa only [Holds, hpc] using hi.holds a ha
  rw [hpc, advance] at hadv
  obtain ⟨hthreads, hbindings⟩ | ⟨p, hp, w', agent', ch', hc⟩ := hi.made
  · cases hinsert : s.db.threads.insert? ⟨a.mint.thread, w.orgId, ch, w.colleague⟩ with
    | none =>
      simp only [hinsert] at hadv
      cases hadv
      exact hi.read ha trivial
    | some threads =>
      simp only [hinsert] at hadv
      cases hadv
      have hg := grown_create hinsert
      have hrow : threads.find? a.mint.thread = some (madeRow a w ch) :=
        (Table.find?_insert? hinsert _).trans (if_pos rfl)
      refine hi.moved ha hg id ⟨rfl, ch, ⟨hm.known, hm.channel, hm.creates, hm.unbound,
        hm.chosen⟩, hrow⟩ hi.channels (.inr ⟨a, ha, w, agent, ch, hm, ?_, .inl hbindings⟩)
        (hi.logged.frame hg rfl rfl rfl)
      rw [← hthreads]
      exact hinsert
  · have h := (Table.find?_insert? hc.inserted p.mint.thread).trans (if_pos rfl)
    rw [hunmade p hp] at h
    cases h

theorem Inv.bind (hpc : a.pc = .bind w agent thread)
    (hadv : Slack.advance d a.delivery a.mint s.db a.pc = (pc', db')) :
    Inv d item db₀ ⟨db', s.attempts.put { a with pc := pc' }⟩ := by
  obtain ⟨rfl, ch, hm, hrow⟩ : thread = a.mint.thread ∧ ∃ ch, Makes d db₀ a w agent ch
      ∧ s.db.threads.find? a.mint.thread = some (madeRow a w ch) := by
    simpa only [Holds, hpc] using hi.holds a ha
  rw [hpc, advance] at hadv
  cases hadv
  obtain ⟨hthreads, -⟩ | ⟨p, hp, w', agent', ch', hc⟩ := hi.made
  · rw [hthreads, (hi.fresh a ha).thread] at hrow
    cases hrow
  · have hfound := Table.find?_insert? hc.inserted a.mint.thread
    obtain e | e := Decidable.em (p.mint.thread = a.mint.thread)
    · obtain rfl := Table.eq_of_key_eq hp ha e
      obtain rfl := hc.known.unique hm.known
      have hg := grown_bind w'.orgId p.threadKey p.mint.thread s.db
      have hbindings : (Slack.bind w'.orgId p.threadKey p.mint.thread s.db).bindings
          = (Slack.bind w'.orgId p.threadKey p.mint.thread db₀).bindings := by
        obtain e | e := hc.binding
        · simp only [Slack.bind, e]
        · simp only [Slack.bind, e]
          exact Table.addNew_addNew _ rfl
      have hbound : lookupByThread p.threadKey
          (Slack.bind w'.orgId p.threadKey p.mint.thread s.db) = some p.mint.thread := by
        rw [lookupByThread, hbindings, ← lookupByThread, lookupByThread_bind, hc.unbound,
          if_pos rfl, Option.none_or]
      refine hi.moved ha hg id ⟨hm.known, ⟨ch, hm.channel⟩, hbound, fun _ => hm.chosen _⟩
        hi.channels (.inr ⟨p, hp, w', agent', ch', hc.toMakes, hc.inserted, .inr hbindings⟩)
        (hi.logged.frame hg rfl rfl rfl)
    · have hne : key (madeRow p w' ch') ≠ a.mint.thread := e
      rw [if_neg hne, (hi.fresh a ha).thread, hrow] at hfound
      cases hfound

theorem Inv.check (hpc : a.pc = .check w agent thread)
    (hadv : Slack.advance d a.delivery a.mint s.db a.pc = (pc', db')) :
    Inv d item db₀ ⟨db', s.attempts.put { a with pc := pc' }⟩ := by
  have hb : Bound d db₀ s.db a w agent thread := by simpa only [Holds, hpc] using hi.holds a ha
  rw [hpc, advance] at hadv
  cases hsub : submission d w.caller a.delivery with
  | error e =>
    simp only [hsub] at hadv
    cases hadv
    exact hi.read ha trivial
  | ok p =>
    obtain ⟨k, prompt⟩ := p
    simp only [hsub] at hadv
    cases htrigger : triggerExists w.orgId k s.db with
    | true =>
      rw [htrigger, if_pos rfl] at hadv
      cases hadv
      exact hi.read ha (.duplicate w agent thread k prompt
        ⟨hb.known, hb.channel, hb.bound, hb.chosen⟩ hsub htrigger)
    | false =>
      rw [htrigger, if_neg Bool.false_ne_true] at hadv
      cases hadv
      refine hi.read ha ⟨⟨hb.known, hb.channel, hb.bound, hb.chosen⟩, hsub, ?_⟩
      cases h₀ : triggerExists w.orgId k db₀ with
      | false => rfl
      | true => exact absurd (htrigger.symm.trans (hi.grown.triggers _ _ h₀)) Bool.false_ne_true

theorem Inv.append (hpc : a.pc = .append w agent thread k prompt)
    (hunlogged : ∀ b ∈ s.attempts, s.db.feed.find? b.mint.message = none)
    (hadv : Slack.advance d a.delivery a.mint s.db a.pc = (pc', db')) :
    Inv d item db₀ ⟨db', s.attempts.put { a with pc := pc' }⟩ := by
  obtain ⟨hb, hsub, hfree⟩ : Bound d db₀ s.db a w agent thread
      ∧ submission d w.caller a.delivery = .ok (k, prompt)
      ∧ triggerExists w.orgId k db₀ = false := by
    simpa only [Holds, hpc] using hi.holds a ha
  rw [hpc, advance] at hadv
  obtain ⟨hfeed, -, htriggers⟩ | ⟨p, hp, w', agent', thread', k', prompt', receiver', hposted⟩ :=
    hi.logged
  · cases hreceiver : d.resolveAgent w.orgId agent with
    | none =>
      simp only [hreceiver] at hadv
      cases hadv
      exact hi.read ha trivial
    | some receiver =>
      cases hinsert : s.db.feed.insert? ⟨a.mint.message, thread, w.colleague, receiver, prompt⟩ with
      | none =>
        simp only [hreceiver, hinsert] at hadv
        cases hadv
        exact hi.read ha trivial
      | some feed =>
        simp only [hreceiver, hinsert] at hadv
        cases hadv
        have hg := grown_append hinsert
        have hrow : feed.find? a.mint.message = some (sentRow a w thread prompt receiver) :=
          (Table.find?_insert? hinsert _).trans (if_pos rfl)
        have hsends : Sends d db₀ { s.db with feed } a w agent thread k prompt receiver :=
          ⟨hb.known, hb.channel, hb.chosen hfeed, hsub, hfree, hreceiver, hb.bound, hrow⟩
        refine hi.moved ha hg (fun _ => hfeed) ⟨prompt, receiver, hsends.moved⟩ hi.channels
          (hi.made.frame rfl rfl) (.inr ⟨a, ha, w, agent, thread, k, prompt, receiver, hsends, ?_,
            .inl htriggers⟩)
        rw [← hfeed]
        exact hinsert
  · have h := hposted.row
    rw [hunlogged p hp] at h
    cases h

theorem Inv.poster (hs : Sends d db₀ s.db a w agent thread k prompt receiver) :
    ∃ w' agent' thread' k' prompt' receiver',
      Posted d db₀ s.db a w' agent' thread' k' prompt' receiver' := by
  have hrow := hs.row
  obtain ⟨hfeed, -, -⟩ | ⟨p, hp, w', agent', thread', k', prompt', receiver', hposted⟩ := hi.logged
  · rw [hfeed, (hi.fresh a ha).message] at hrow
    cases hrow
  · by_cases e : key p = key a
    · obtain rfl := Table.eq_of_key_eq hp ha e
      exact ⟨w', agent', thread', k', prompt', receiver', hposted⟩
    · have hne : key (sentRow p w' thread' prompt' receiver') ≠ a.mint.message :=
        (hi.distinct p hp a ha e).1
      rw [Table.find?_insert? hposted.inserted, if_neg hne, (hi.fresh a ha).message] at hrow
      cases hrow

theorem Inv.participation (hpc : a.pc = .participation w agent thread k)
    (hadv : Slack.advance d a.delivery a.mint s.db a.pc = (pc', db')) :
    Inv d item db₀ ⟨db', s.attempts.put { a with pc := pc' }⟩ := by
  obtain ⟨prompt, receiver, hs⟩ : ∃ prompt receiver,
      Sends d db₀ s.db a w agent thread k prompt receiver := by
    simpa only [Holds, hpc] using hi.holds a ha
  rw [hpc, advance] at hadv
  have hg := grown_participation a.mint thread agent s.db
  have hrows : ∃ participations, (resolveParticipation a.mint thread agent s.db).2
      = { s.db with participations } := ⟨_, (resolveParticipation_congr a.mint thread agent rfl).2⟩
  have hfound : ∀ p ∈ db₀.participations.find? (thread, agent),
      p.id = (resolveParticipation a.mint thread agent s.db).1 := fun p hp => by
    simp only [resolveParticipation, hi.grown.participations _ _ hp]
  generalize resolveParticipation a.mint thread agent s.db = r at hadv hg hrows hfound
  obtain ⟨state, db₁⟩ := r
  obtain ⟨participations, rfl⟩ := hrows
  cases hadv
  obtain ⟨w', agent', thread', k', prompt', receiver', hposted⟩ := hi.poster ha hs
  exact hi.moved ha hg id ⟨⟨prompt, receiver, (hs.mono hg).moved⟩, hfound⟩ hi.channels
    (hi.made.frame rfl rfl)
    (.inr ⟨a, ha, w', agent', thread', k', prompt', receiver', hposted.frame hg rfl rfl⟩)

theorem Inv.enqueue (hpc : a.pc = .enqueue w agent thread k state)
    (hadv : Slack.advance d a.delivery a.mint s.db a.pc = (pc', db')) :
    Inv d item db₀ ⟨db', s.attempts.put { a with pc := pc' }⟩ := by
  obtain ⟨⟨prompt, receiver, hs⟩, hstate⟩ :
      (∃ prompt receiver, Sends d db₀ s.db a w agent thread k prompt receiver)
        ∧ ∀ p ∈ db₀.participations.find? (thread, agent), p.id = state := by
    simpa only [Holds, hpc] using hi.holds a ha
  rw [hpc, advance] at hadv
  cases hadv
  have hg := grown_enqueue (triggerRow a.mint w agent thread k state) s.db
  have hbound : Bound d db₀ { s.db with
      triggers := s.db.triggers.addNew (triggerRow a.mint w agent thread k state) }
      { a with pc := .done } w agent thread := ⟨hs.known, hs.channel, hs.bound, fun _ => hs.chosen⟩
  refine hi.moved ha hg id (.duplicate w agent thread k prompt hbound hs.submitted
    (Table.isSome_find?_addNew _ _)) hi.channels (hi.made.frame rfl rfl) (.inr ?_)
  obtain ⟨w', agent', thread', k', prompt', receiver', hposted⟩ := hi.poster ha hs
  obtain e | ⟨state', e, -⟩ := hposted.log
  · have hrow : sentRow a w' thread' prompt' receiver' = sentRow a w thread prompt receiver :=
      Option.some.inj (hposted.row.symm.trans hs.row)
    refine ⟨a, ha, w, agent, thread, k, prompt, receiver, hs.mono hg, hrow ▸ hposted.inserted,
      .inr ⟨state, ?_, hstate⟩⟩
    rw [e]
    rfl
  · obtain rfl := hposted.known.unique hs.known
    have hk : (k', prompt') = (k, prompt) :=
      Except.ok.inj (hposted.submitted.symm.trans hs.submitted)
    obtain ⟨rfl, rfl⟩ := Prod.mk.inj hk
    refine ⟨a, ha, w', agent', thread', k', prompt', receiver', hposted.frame hg rfl ?_⟩
    rw [e]
    exact Table.addNew_addNew _ rfl

theorem Inv.advance (hgood : orderly s (.step (key a)) = true) :
    Inv d item db₀ (s.advance d a) := by
  have hfind := Table.find?_of_mem ha
  cases hadv : Slack.advance d a.delivery a.mint s.db a.pc with
  | mk pc' db' =>
    have hnext : s.advance d a = ⟨db', s.attempts.put { a with pc := pc' }⟩ := by
      rw [BridgeSt.advance, hadv]
    rw [hnext]
    cases hpc : a.pc with
    | entry => exact hi.entry ha hpc hadv
    | channel c => exact hi.channel ha hpc hadv
    | lookup c ch => exact hi.lookup ha hpc hadv
    | lastAgent w thread => exact hi.lastAgent ha hpc hadv
    | create w agent ch =>
      refine hi.create ha hpc (fun b hb => ?_) hadv
      have hall := hgood
      simp only [orderly, hfind, Option.all_some, hpc, List.all_eq_true,
        Option.isNone_iff_eq_none] at hall
      exact hall b hb
    | bind w agent thread => exact hi.bind ha hpc hadv
    | check w agent thread => exact hi.check ha hpc hadv
    | append w agent thread k prompt =>
      refine hi.append ha hpc (fun b hb => ?_) hadv
      have hall := hgood
      simp only [orderly, hfind, Option.all_some, hpc, List.all_eq_true,
        Option.isNone_iff_eq_none] at hall
      exact hall b hb
    | participation w agent thread k => exact hi.participation ha hpc hadv
    | enqueue w agent thread k state => exact hi.enqueue ha hpc hadv
    | done =>
      rw [hpc, Slack.advance] at hadv
      cases hadv
      refine hi.read ha ?_
      have h := hi.holds a ha
      simp only [Holds, hpc] at h
      cases h with
      | outside h => exact .outside h
      | dropped w hk hch hcreates hnone => exact .dropped w hk hch hcreates hnone
      | resubmitted w k hk hkey htrigger hslash => exact .resubmitted w k hk hkey htrigger hslash
      | duplicate w agent thread k prompt hb hsub htrigger =>
        exact .duplicate w agent thread k prompt ⟨hb.known, hb.channel, hb.bound, hb.chosen⟩ hsub
          htrigger
    | failed e =>
      rw [hpc, Slack.advance] at hadv
      cases hadv
      exact hi.read ha trivial

end Steps

end Patom.Slack
