import Patom.Discord.Bridge
import Patom.Foundation.Transition

open Patom.Foundation
open Patom.Foundation.Attempt

namespace Patom.Discord

structure Before (s t : BridgeSt) : Prop where
  shadows : s.shadows.Kept t.shadows
  discordChannels : s.discordChannels.Kept t.discordChannels
  members : s.members.Kept t.members
  agentMembers : s.agentMembers.Kept t.agentMembers
  bindings : ∀ k b, s.bindings.find? k = some b → ∃ b', t.bindings.find? k = some b' ∧
    b'.patomThreadId = b.patomThreadId ∧ b'.isThread = b.isThread ∧
    (b.backfillComplete → b'.backfillComplete)
  feed : s.feed.Kept t.feed
  participations : s.participations.Kept t.participations
  triggers : s.triggers.Kept t.triggers

theorem Before.refl (s : BridgeSt) : Before s s :=
  ⟨.refl _, .refl _, .refl _, .refl _, fun _ b h => ⟨b, h, rfl, rfl, id⟩, .refl _, .refl _, .refl _⟩

theorem Before.trans {s t u : BridgeSt} (h : Before s t) (h' : Before t u) : Before s u where
  shadows := h.shadows.trans h'.shadows
  discordChannels := h.discordChannels.trans h'.discordChannels
  members := h.members.trans h'.members
  agentMembers := h.agentMembers.trans h'.agentMembers
  bindings k b hb := by
    obtain ⟨b', hb', hthread, hkind, hdone⟩ := h.bindings k b hb
    obtain ⟨b'', hb'', hthread', hkind', hdone'⟩ := h'.bindings k b' hb'
    exact ⟨b'', hb'', hthread'.trans hthread, hkind'.trans hkind, hdone' ∘ hdone⟩
  feed := h.feed.trans h'.feed
  participations := h.participations.trans h'.participations
  triggers := h.triggers.trans h'.triggers

instance bridgePreorder : Preorder BridgeSt where
  le := Before
  le_refl := .refl
  le_trans _ _ _ := .trans

section Transactions

variable (d : BridgeDeps)

theorem resolveOrMint_ensures (user : DiscordUserId) : Ensures (resolveOrMint d user) where
  grows s := { Before.refl s with shadows := s.shadows.getOrAdd_kept _ }
  settled s t h := by
    simp only [resolveOrMint]
    rw [Table.getOrAdd_settled h.shadows]
    rfl

theorem ensureChannel_found {guild : GuildId} {container : ContainerId} {s : BridgeSt}
    {c : DiscordChannel} (user : UserId)
    (h : s.discordChannels.find? (d.app.orgId, guild, container) = some c) :
    ensureChannel d guild container user s =
      (c.channelId, { s with members := s.members.addNew ⟨c.channelId, user⟩ }) := by
  simp only [ensureChannel, h]

theorem createChannelAndMapping_grows (guild : GuildId) (container : ContainerId) (s : BridgeSt) :
    s ≤ (createChannelAndMapping d guild container s).2 :=
  { Before.refl s with discordChannels := s.discordChannels.addNew_kept _ }

theorem ensureChannel_grows (guild : GuildId) (container : ContainerId) (user : UserId)
    (s : BridgeSt) : s ≤ (ensureChannel d guild container user s).2 := by
  simp only [ensureChannel]
  split
  case h_1 c h => exact { Before.refl s with members := s.members.addNew_kept _ }
  case h_2 =>
    exact (createChannelAndMapping_grows d guild container s).trans
      { Before.refl _ with members := Table.addNew_kept _ _ }

theorem ensureChannel_maps (guild : GuildId) (container : ContainerId) (user : UserId)
    (s : BridgeSt) : ∃ c, (ensureChannel d guild container user s).2.discordChannels.find?
      (d.app.orgId, guild, container) = some c ∧
        c.channelId = (ensureChannel d guild container user s).1 := by
  cases h : s.discordChannels.find? (d.app.orgId, guild, container) with
  | some c =>
    rw [ensureChannel_found d user h]
    exact ⟨c, h, rfl⟩
  | none =>
    simp only [ensureChannel, h, createChannelAndMapping, Table.find?_addNew, Option.none_or]
    exact ⟨_, if_pos rfl, rfl⟩

theorem ensureChannel_ensures (guild : GuildId) (container : ContainerId) (user : UserId) :
    Ensures (ensureChannel d guild container user) where
  grows := ensureChannel_grows d guild container user
  settled s t h := by
    obtain ⟨c, hc, hid⟩ := ensureChannel_maps d guild container user s
    rw [ensureChannel_found d user (h.discordChannels _ _ hc), hid]
    have hmember : t.members.addNew ⟨(ensureChannel d guild container user s).1, user⟩ =
        t.members :=
      Table.addNew_settled h.members
    rw [hmember]

theorem addAgentToChannel_ensures (channel : ChannelId) (colleague : ColleagueId) :
    Ensures (addAgentToChannel channel colleague) where
  grows s := { Before.refl s with agentMembers := s.agentMembers.addNew_kept _ }
  settled s t h := by
    simp only [addAgentToChannel]
    rw [Table.addNew_settled h.agentMembers]

theorem appendMirrored_ensures (guild : GuildId) (thread : ThreadId) (sender : ColleagueId)
    (receiver : Option ColleagueId) (m : InboundMessage) :
    Ensures (appendMirrored d guild thread sender receiver m) where
  grows s := { Before.refl s with feed := s.feed.getOrAdd_kept _ }
  settled s t h := by
    simp only [appendMirrored]
    rw [Table.getOrAdd_settled h.feed]
    rfl

theorem resolveParticipation_ensures (thread : ThreadId) :
    Ensures (resolveParticipation d thread) where
  grows s := { Before.refl s with participations := s.participations.getOrAdd_kept _ }
  settled s t h := by
    simp only [resolveParticipation]
    rw [Table.getOrAdd_settled h.participations]
    rfl

theorem enqueueTrigger_ensures (guild : GuildId) (m : InboundMessage) (user : UserId)
    (thread : ThreadId) (state : AgentThreadId) (sender : ColleagueId)
    (message : ThreadMessageId) :
    Ensures (enqueueTrigger d guild m user thread state sender message) where
  grows s := { Before.refl s with triggers := s.triggers.getOrAdd_kept _ }
  settled s t h := by
    simp only [enqueueTrigger]
    rw [Table.getOrAdd_settled h.triggers]
    rfl

theorem completed_completed (k : ThreadKey) (b : DiscordThread) :
    completed k (completed k b) = completed k b := by
  by_cases h : key b = k
  · have hb : completed k b = { b with backfillComplete := true } := if_pos h
    rw [hb]
    exact if_pos h
  · have hb : completed k b = b := if_neg h
    rw [hb, hb]

theorem markBackfilled_grows (guild : GuildId) (container : ContainerId) (s : BridgeSt) :
    s ≤ (markBackfilled d guild container s).2 := by
  refine { Before.refl s with bindings := fun k b hb => ?_ }
  simp only [markBackfilled, Table.find?_modify, hb, Option.map_some]
  refine ⟨_, rfl, ?_⟩
  unfold completed
  split
  · exact ⟨rfl, rfl, fun _ => rfl⟩
  · exact ⟨rfl, rfl, id⟩

theorem markBackfilled_again (guild : GuildId) (container : ContainerId) (s : BridgeSt) :
    markBackfilled d guild container (markBackfilled d guild container s).2 =
      markBackfilled d guild container s := by
  simp only [markBackfilled, Table.modify, List.map_map, Function.comp_def, completed_completed]

theorem bindThread_grows (guild : GuildId) (conv : Conversation) (thread : ThreadId)
    (s : BridgeSt) : s ≤ (bindThread d guild conv thread s).2 := by
  refine { Before.refl s with bindings := fun k b hb => ⟨b, ?_, rfl, rfl, id⟩ }
  exact Table.addNew_kept _ _ k b hb

theorem createThread_grows (channel : ChannelId) (creator : ColleagueId) (s : BridgeSt) :
    s ≤ (createThread d channel creator s).2 :=
  { Before.refl s with }

end Transactions

/-- No thread is left unbound, and nothing fails where the bridge goes on regardless: while Discord
is asked for a thread, and in the backfill. -/
structure Fair (w : Weather Site) : Prop where
  create : w .create ≠ some .lost
  bind : w .bind = none ∨ w .bind = some .lost
  openThread : w .openThread = none ∨ w .openThread = some .crash
  backfill : ∀ site, site.inBackfill → w site = none ∨ w site = some .crash

theorem fair_clear : Fair clear where
  create h := by cases h
  bind := .inl rfl
  openThread := .inl rfl
  backfill _ _ := .inl rfl

section Backfill

variable (d : BridgeDeps)

theorem fetchPages_steady (container : ContainerId) (fuel i : Nat) (cursor : DiscordMessageId)
    (collected : List InboundMessage) :
    Steady Fair (fetchPages d container fuel i cursor collected) := by
  induction fuel generalizing i cursor collected with
  | zero => exact .pure _
  | succ fuel ih =>
    unfold fetchPages
    split
    case isTrue => exact .pure _
    case isFalse =>
      refine .bind ((Ensures.const _).steady _) fun page => ?_
      dsimp only
      split
      · exact .pure _
      · exact ih _ _ _

theorem fetchPages_unfailing (container : ContainerId) (fuel i : Nat) (cursor : DiscordMessageId)
    (collected : List InboundMessage) :
    Unfailing Fair (fetchPages d container fuel i cursor collected) := by
  induction fuel generalizing i cursor collected with
  | zero => exact .pure _
  | succ fuel ih =>
    unfold fetchPages
    split
    case isTrue => exact .pure _
    case isFalse =>
      refine .bind (.exec (fun w hw => hw.backfill _ rfl) _) fun page => ?_
      dsimp only
      split
      · exact .pure _
      · exact ih _ _ _

theorem fetchPages_keeps {I : BridgeSt → Prop} (container : ContainerId) (fuel i : Nat)
    (cursor : DiscordMessageId) (collected : List InboundMessage) :
    Keeps I (fetchPages d container fuel i cursor collected) := by
  induction fuel generalizing i cursor collected with
  | zero => exact .pure _
  | succ fuel ih =>
    unfold fetchPages
    split
    case isTrue => exact .pure _
    case isFalse =>
      refine .bind (.exec _ fun _ h => h) fun page => ?_
      dsimp only
      split
      · exact .pure _
      · exact ih _ _ _

theorem mirrorBackfilled_steady (guild : GuildId) (thread : ThreadId) (i : Nat)
    (m : InboundMessage) : Steady Fair (mirrorBackfilled d guild thread i m) := by
  unfold mirrorBackfilled
  split
  case isTrue => exact .pure ()
  case isFalse =>
    exact .bind ((resolveOrMint_ensures d _).steady _) fun _ =>
      .bind ((ensureChannel_ensures d _ _ _).steady _) fun _ =>
      .bind ((appendMirrored_ensures d _ _ _ _ _).steady _) fun _ => .pure ()

theorem mirrorBackfilled_unfailing (guild : GuildId) (thread : ThreadId) (i : Nat)
    (m : InboundMessage) : Unfailing Fair (mirrorBackfilled d guild thread i m) := by
  unfold mirrorBackfilled
  split
  case isTrue => exact .pure ()
  case isFalse =>
    exact .bind (.exec (fun w hw => hw.backfill _ rfl) _) fun _ =>
      .bind (.exec (fun w hw => hw.backfill _ rfl) _) fun _ =>
      .bind (.exec (fun w hw => hw.backfill _ rfl) _) fun _ => .pure ()

theorem backfillChannel_steady (guild : GuildId) (channel : ContainerId) (thread : ThreadId)
    (before : DiscordMessageId) :
    Steady Fair (backfillChannel d guild channel thread before) :=
  .bind (fetchPages_steady d _ _ _ _ _) fun _ =>
    .eachFrom (mirrorBackfilled_steady d guild thread) _ _

theorem backfillChannel_unfailing (guild : GuildId) (channel : ContainerId) (thread : ThreadId)
    (before : DiscordMessageId) :
    Unfailing Fair (backfillChannel d guild channel thread before) :=
  .bind (fetchPages_unfailing d _ _ _ _ _) fun _ =>
    .eachFrom (mirrorBackfilled_unfailing d guild thread) _ _

theorem ensureChannel_rest (guild : GuildId) (container : ContainerId) (user : UserId)
    (s : BridgeSt) : (ensureChannel d guild container user s).2.bindings = s.bindings ∧
      (ensureChannel d guild container user s).2.opened = s.opened ∧
      (ensureChannel d guild container user s).2.feed = s.feed := by
  simp only [ensureChannel]
  split <;> exact ⟨rfl, rfl, rfl⟩

theorem backfillChannel_keeps {I : BridgeSt → Prop}
    (hI : ∀ s t, t.bindings = s.bindings → t.opened = s.opened → I s → I t) (guild : GuildId)
    (channel : ContainerId) (thread : ThreadId) (before : DiscordMessageId) :
    Keeps I (backfillChannel d guild channel thread before) := by
  refine .bind (fetchPages_keeps d _ _ _ _ _) fun _ => .eachFrom (fun i m => ?_) _ _
  unfold mirrorBackfilled
  split
  case isTrue => exact .pure ()
  case isFalse =>
    exact .bind (.exec _ fun s => hI s _ rfl rfl) fun _ =>
      .bind (.exec _ fun s => hI s _ (ensureChannel_rest d _ _ _ s).1
        (ensureChannel_rest d _ _ _ s).2.1) fun _ =>
      .bind (.exec _ fun s => hI s _ rfl rfl) fun _ => .pure ()

theorem mark_unfailing (guild : GuildId) (container : ContainerId) :
    Unfailing Fair (exec Site.mark (markBackfilled d guild container)) :=
  .exec (fun _ hw => hw.backfill _ rfl) _

theorem maybeBackfill_resumes (guild : GuildId) (channel : ContainerId) (thread : ThreadId)
    (before : DiscordMessageId) : Resumes Fair (maybeBackfill d guild channel thread before) := by
  refine .recover fair_clear (.bind (backfillChannel_steady d guild channel thread before)
    fun _ => ?_) (.bind (backfillChannel_unfailing d guild channel thread before)
    fun _ => mark_unfailing d guild channel) ()
  exact .exec _ (markBackfilled_grows d guild channel) (markBackfilled_again d guild channel)

theorem maybeBackfill_keeps {I : BridgeSt → Prop}
    (hI : ∀ s t, t.bindings = s.bindings → t.opened = s.opened → I s → I t) (guild : GuildId)
    (channel : ContainerId) (thread : ThreadId) (before : DiscordMessageId)
    (hmark : ∀ s, I s → I (markBackfilled d guild channel s).2) :
    Keeps I (maybeBackfill d guild channel thread before) :=
  .recover (.bind (backfillChannel_keeps d hI guild channel thread before) fun _ =>
    .exec _ hmark) ()

theorem maybeBackfill_run {w : Weather Site} (hw : Fair w) (guild : GuildId)
    (channel : ContainerId) (thread : ThreadId) (before : DiscordMessageId) (s : BridgeSt) :
    maybeBackfill d guild channel thread before w s =
      (backfillChannel d guild channel thread before >>= fun _ =>
        exec .mark (markBackfilled d guild channel)) w s :=
  (Unfailing.bind (backfillChannel_unfailing d guild channel thread before)
    fun _ => mark_unfailing d guild channel).recover () hw

end Backfill

section Conversation

variable (d : BridgeDeps) (m : InboundMessage)

def home (s : BridgeSt) : Option DiscordThread := lookupByContainer d m.guild m.channelId s

def staying (isThread : Bool) : Conversation := ⟨m.channelId, none, isThread⟩

def pending (b : DiscordThread) : Bridge ThreadId := do
  if !b.backfillComplete then maybeBackfill d m.guild m.channelId b.patomThreadId m.messageId
  pure b.patomThreadId

def claimed (isThread : Bool) (channel : ChannelId) (creator : ColleagueId) (s : BridgeSt) :
    BridgeSt :=
  let r := createThread d channel creator s
  (bindThread d m.guild (staying m isThread) r.1 r.2).2

variable {d m}

theorem home_le {s t : BridgeSt} {b : DiscordThread} (h : home d m s = some b) (hst : s ≤ t) :
    ∃ b', home d m t = some b' ∧ b'.patomThreadId = b.patomThreadId ∧ b'.isThread = b.isThread ∧
      (b.backfillComplete → b'.backfillComplete) :=
  hst.bindings _ b h

theorem home_claimed {s : BridgeSt} (h : home d m s = none) (isThread : Bool) (channel : ChannelId)
    (creator : ColleagueId) : ∃ b, home d m (claimed d m isThread channel creator s) = some b ∧
      b.patomThreadId = (createThread d channel creator s).1 ∧ b.isThread = isThread ∧
      b.backfillComplete = false := by
  refine ⟨⟨d.app.orgId, d.app.applicationId, m.guild, m.channelId, none, isThread, _, false⟩, ?_,
    rfl, rfl, rfl⟩
  have hnone : (createThread d channel creator s).2.bindings.find?
      (threadKey d m.guild m.channelId) = none := h
  simp only [home, lookupByContainer, claimed, bindThread, staying, Table.find?_addNew, hnone,
    Option.none_or]
  exact if_pos rfl

theorem maybeBackfill_last {w : Weather Site} (hw : Fair w) {s : BridgeSt} {b b' : DiscordThread}
    {thread : ThreadId} (hb : home d m s = some b) (hpending : b.backfillComplete = false)
    (hb' : home d m (maybeBackfill d m.guild m.channelId thread m.messageId w s).2 = some b')
    (hdone : b'.backfillComplete = true) :
    (maybeBackfill d m.guild m.channelId thread m.messageId w s).1 = .ok () := by
  have hkept := backfillChannel_keeps d (I := fun t => t.bindings = s.bindings)
    (fun _ _ h _ h' => h.trans h') m.guild m.channelId thread m.messageId w s rfl
  have hnot {t : BridgeSt} (ht : t.bindings = s.bindings) (h : home d m t = some b') : False := by
    have hbb : some b' = some b := by
      rw [← h, ← hb, home, home, lookupByContainer, lookupByContainer, ht]
    rw [Option.some.inj hbb, hpending] at hdone
    cases hdone
  rw [maybeBackfill_run d hw] at hb' ⊢
  cases e : backfillChannel d m.guild m.channelId thread m.messageId w s with
  | mk r t =>
    rw [e] at hkept
    cases r with
    | error _ =>
      rw [bind_error e] at hb'
      exact (hnot hkept hb').elim
    | ok _ =>
      rw [bind_ok e] at hb' ⊢
      obtain hm | hm := hw.backfill .mark rfl
      · simp only [exec, hm]
      · simp only [exec, hm] at hb'
        exact (hnot hkept hb').elim

theorem maybeBackfill_marks {s t : BridgeSt} {b : DiscordThread} {thread : ThreadId}
    (hb : home d m s = some b)
    (h : maybeBackfill d m.guild m.channelId thread m.messageId clear s = (.ok (), t)) :
    ∃ b', home d m t = some b' ∧ b'.patomThreadId = b.patomThreadId ∧
      b'.backfillComplete = true := by
  have hkept := backfillChannel_keeps d (I := fun t => t.bindings = s.bindings)
    (fun _ _ h _ h' => h.trans h') m.guild m.channelId thread m.messageId clear s rfl
  rw [maybeBackfill_run d fair_clear, bind_run] at h
  split at h
  case h_2 => cases h
  case h_1 _ t' e =>
    rw [e] at hkept
    cases h
    refine ⟨completed (threadKey d m.guild m.channelId) b, ?_, ?_⟩
    · have hb' : t'.bindings.find? (threadKey d m.guild m.channelId) = some b := by
        rw [hkept]
        exact hb
      simp only [home, lookupByContainer, markBackfilled, Table.find?_modify, hb', Option.map_some]
    · rw [completed, if_pos (Table.key_of_find? hb)]
      exact ⟨rfl, rfl⟩

theorem pending_done {b : DiscordThread} (h : b.backfillComplete = true) :
    pending d m b = pure b.patomThreadId := by
  simp only [pending, h]
  rfl

theorem pending_open {b : DiscordThread} (h : b.backfillComplete = false) :
    pending d m b = (maybeBackfill d m.guild m.channelId b.patomThreadId m.messageId >>=
      fun _ => pure b.patomThreadId) := by
  simp only [pending, h]
  rfl

theorem pending_grows (b : DiscordThread) (s : BridgeSt) : Keeps (s ≤ ·) (pending d m b) := by
  unfold pending
  split
  · exact .bind ((maybeBackfill_resumes d _ _ _ _).grows s) fun _ => .pure _
  · exact .bind (.pure _) fun _ => .pure _

theorem pending_resume {w : Weather Site} (hw : Fair w) {s : BridgeSt} {b b' : DiscordThread}
    (hb : home d m s = some b) (hb' : home d m (pending d m b w s).2 = some b') :
    pending d m b' clear (pending d m b w s).2 = pending d m b clear s := by
  cases hdone : b.backfillComplete with
  | true =>
    rw [pending_done hdone] at hb' ⊢
    have hbb : some b' = some b := hb'.symm.trans hb
    rw [Option.some.inj hbb, pending_done hdone]
    rfl
  | false =>
    have hle := pending_grows (d := d) (m := m) b s w s le_rfl
    obtain ⟨b'', hb'', hthread, -⟩ := home_le hb hle
    rw [hb'] at hb''
    cases hb''
    have hres := maybeBackfill_resumes d m.guild m.channelId b.patomThreadId m.messageId
    rw [pending_open hdone, bind_pure_state] at hb' ⊢
    cases hdone' : b'.backfillComplete with
    | true =>
      have hok := maybeBackfill_last hw hb hdone hb' hdone'
      have hc := hres.sure w s () hw hok
      rw [pending_done hdone', hthread]
      rw [hc] at hok ⊢
      rw [bind_ok (Prod.ext hok rfl)]
    | false =>
      rw [pending_open hdone', hthread, bind_run, bind_run, hres.resume w s hw]

theorem pending_settled {s t u : BridgeSt} {b : DiscordThread} {thread : ThreadId}
    (hb : home d m s = some b) (h : pending d m b clear s = (.ok thread, t)) (htu : t ≤ u) :
    ∃ b', home d m u = some b' ∧ pending d m b' clear u = (.ok thread, u) := by
  have hdone : ∃ b', home d m t = some b' ∧ b'.patomThreadId = thread ∧
      b'.backfillComplete = true := by
    cases hdone : b.backfillComplete with
    | true =>
      rw [pending_done hdone] at h
      cases h
      exact ⟨b, hb, rfl, hdone⟩
    | false =>
      rw [pending_open hdone, bind_run] at h
      split at h
      case h_2 => cases h
      case h_1 e =>
        cases h
        exact maybeBackfill_marks hb e
  obtain ⟨b', hb', rfl, hdone⟩ := hdone
  obtain ⟨b'', hb'', hthread, -, hdone'⟩ := home_le hb' htu
  refine ⟨b'', hb'', ?_⟩
  rw [pending_done (hdone' hdone), hthread]
  rfl

variable (isThread : Bool) (channel : ChannelId) (creator : ColleagueId)

theorem openConversation_found {w : Weather Site} (hw : w .resolve = none) {s : BridgeSt}
    {b : DiscordThread} (hb : home d m s = some b) :
    openConversation d m (staying m isThread) channel creator w s = pending d m b w s := by
  have hlookup : lookupByContainer d m.guild (staying m isThread).container s = some b := hb
  have hresolve : resolveThread d m.guild (staying m isThread) channel creator w s =
      (.ok (b.patomThreadId, !b.backfillComplete), s) := by
    rw [resolveThread, bind_ok (exec_none hw _ _), hlookup]
    rfl
  rw [openConversation, bind_ok hresolve]
  simp only [staying, decide_true, Bool.and_true]
  rfl

theorem resolveThread_new {w : Weather Site} (hw : Fair w) {s : BridgeSt}
    (hnone : home d m s = none) :
    let p := resolveThread d m.guild (staying m isThread) channel creator
    let s' := claimed d m isThread channel creator s
    (∃ e, p w s = (.error e, s)) ∨ (∃ e, p w s = (.error e, s')) ∨
      p w s = (.ok ((createThread d channel creator s).1, true), s') := by
  have hlookup : lookupByContainer d m.guild (staying m isThread).container s = none := hnone
  dsimp only
  cases hr : w .resolve with
  | some f =>
    obtain ⟨e, h⟩ := read_stopped hr (lookupByContainer d m.guild m.channelId) s
    exact .inl ⟨e, bind_error h⟩
  | none =>
    rw [resolveThread, bind_ok (exec_none hr _ _), hlookup]
    cases hc : w .create with
    | some f =>
      obtain ⟨e, h⟩ := exec_stopped hc (fun h => hw.create (h ▸ hc))
        (createThread d channel creator) s
      exact .inl ⟨e, bind_error h⟩
    | none =>
      dsimp only
      rw [bind_ok (exec_none hc _ _)]
      obtain hb | hb := hw.bind
      · rw [bind_ok (exec_none hb _ _)]
        exact .inr (.inr rfl)
      · rw [bind_error (exec_lost hb _ _)]
        exact .inr (.inl ⟨_, rfl⟩)

theorem openConversation_new {w : Weather Site} (hw : Fair w) {s : BridgeSt} {b : DiscordThread}
    (hnone : home d m s = none)
    (hthread : b.patomThreadId = (createThread d channel creator s).1)
    (hdone : b.backfillComplete = false) :
    let p := openConversation d m (staying m isThread) channel creator
    let s' := claimed d m isThread channel creator s
    (∃ e, p w s = (.error e, s)) ∨ (∃ e, p w s = (.error e, s')) ∨ p w s = pending d m b w s' := by
  obtain ⟨e, h⟩ | ⟨e, h⟩ | h := resolveThread_new isThread channel creator hw hnone
  · exact .inl ⟨e, bind_error h⟩
  · exact .inr (.inl ⟨e, bind_error h⟩)
  · refine .inr (.inr ?_)
    rw [openConversation, bind_ok h, pending_open hdone, hthread]
    simp only [staying, decide_true, Bool.and_true]
    rfl

theorem openConversation_home (s : BridgeSt) :
    ∃ s' b, s ≤ s' ∧ home d m s' = some b ∧
      openConversation d m (staying m isThread) channel creator clear s = pending d m b clear s' ∧
      ∀ w, Fair w → let p := openConversation d m (staying m isThread) channel creator
        (∃ e, p w s = (.error e, s)) ∨ (∃ e, p w s = (.error e, s')) ∨
          p w s = pending d m b w s' := by
  cases hs : home d m s with
  | some b =>
    refine ⟨s, b, le_rfl, hs, openConversation_found isThread channel creator rfl hs,
      fun w hw => ?_⟩
    cases hr : w .resolve with
    | none => exact .inr (.inr (openConversation_found isThread channel creator hr hs))
    | some f =>
      obtain ⟨e, h⟩ := read_stopped hr (lookupByContainer d m.guild m.channelId) s
      exact .inl ⟨e, bind_error (bind_error h)⟩
  | none =>
    obtain ⟨b, hb, hthread, -, hdone⟩ := home_claimed hs isThread channel creator
    refine ⟨_, b, ?_, hb, ?_, fun w hw =>
      openConversation_new isThread channel creator hw hs hthread hdone⟩
    · exact (createThread_grows d channel creator s).trans (bindThread_grows d _ _ _ _)
    · have h : resolveThread d m.guild (staying m isThread) channel creator clear s =
          (.ok ((createThread d channel creator s).1, true),
            claimed d m isThread channel creator s) := by
        have hlookup : lookupByContainer d m.guild (staying m isThread).container s = none := hs
        rw [resolveThread, bind_ok (exec_clear _ _ _), hlookup]
        rfl
      rw [openConversation, bind_ok h, pending_open hdone, hthread]
      simp only [staying, decide_true, Bool.and_true]
      rfl

theorem openConversation_bound {s : BridgeSt} {b : DiscordThread} (hb : home d m s = some b) :
    openConversation d m (staying m isThread) channel creator clear s = pending d m b clear s :=
  openConversation_found isThread channel creator rfl hb

theorem openConversation_sure (conv : Conversation) :
    Sure Fair (openConversation d m conv channel creator) := by
  refine .bind ?_ fun p => ?_
  · refine .bind (.exec _ _) fun found => ?_
    split
    · exact .pure _
    · refine .bind (.exec _ _) fun _ => .bind (.exec _ _) fun _ => ?_
      split
      · exact .bind (.exec _ _) fun _ => .pure _
      · exact .bind (.pure _) fun _ => .pure _
  · dsimp only
    split
    · exact .bind (maybeBackfill_resumes d _ _ _ _).sure fun _ => .pure _
    · exact .bind (.pure _) fun _ => .pure _

theorem openConversation_keeps {I : BridgeSt → Prop} {conv : Conversation}
    (hcreate : ∀ s, I s → I (createThread d channel creator s).2)
    (hbind : ∀ thread s, I s → I (bindThread d m.guild conv thread s).2)
    (hmark : ∀ s, I s → I (markBackfilled d m.guild conv.container s).2)
    (hbackfill : ∀ thread, Keeps I (maybeBackfill d m.guild conv.container thread m.messageId)) :
    Keeps I (openConversation d m conv channel creator) := by
  refine .bind ?_ fun p => ?_
  · refine .bind (.exec _ fun _ h => h) fun found => ?_
    split
    · exact .pure _
    · refine .bind (.exec _ hcreate) fun _ => .bind (.exec _ (hbind _)) fun _ => ?_
      split
      · exact .bind (.exec _ hmark) fun _ => .pure _
      · exact .bind (.pure _) fun _ => .pure _
  · dsimp only
    split
    · exact .bind (hbackfill _) fun _ => .pure _
    · exact .bind (.pure _) fun _ => .pure _

theorem openConversation_steady :
    Steady Fair (openConversation d m (staying m isThread) channel creator) where
  sure := openConversation_sure channel creator _
  grows s := openConversation_keeps channel creator
    (fun t h => h.trans (createThread_grows d channel creator t))
    (fun thread t h => h.trans (bindThread_grows d _ _ thread t))
    (fun t h => h.trans (markBackfilled_grows d _ _ t))
    fun thread => (maybeBackfill_resumes d _ _ _ _).grows s
  resume w s hw := by
    obtain ⟨s', b, -, hb, hclear, hrun⟩ :=
      openConversation_home (d := d) (m := m) isThread channel creator s
    obtain ⟨e, h⟩ | ⟨e, h⟩ | h := hrun w hw
    · rw [h]
    · rw [h, openConversation_bound isThread channel creator hb, hclear]
    · obtain ⟨b', hb', -⟩ := home_le hb (pending_grows b s' w s' le_rfl)
      rw [h, openConversation_bound isThread channel creator hb', hclear,
        pending_resume hw hb hb']
  settled s thread t u h htu := by
    obtain ⟨s', b, -, hb, hclear, -⟩ :=
      openConversation_home (d := d) (m := m) isThread channel creator s
    rw [hclear] at h
    obtain ⟨b', hb', h'⟩ := pending_settled hb h htu
    rw [openConversation_bound isThread channel creator hb', h']

end Conversation

end Patom.Discord
