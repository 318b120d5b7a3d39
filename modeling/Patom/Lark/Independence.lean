import Patom.Foundation.Slice
import Patom.Lark.Bridge

/-! What an organisation has of a store that all organisations of a Lark tenant share. -/

open Patom.Foundation
open Patom.Runtime (IdempotencyKey)

namespace Patom.Lark

variable (d : BridgeDeps)

def BridgeSt.only (org : OrgId) (s : BridgeSt) : BridgeSt where
  users := s.users.slice (·.orgId = org)
  colleagues := s.colleagues.slice (·.orgId = org)
  handles := s.handles.slice (·.orgId = org)
  channels := s.channels.slice (·.orgId = org)
  larkChannels := s.larkChannels.slice (·.orgId = org)
  threads := s.threads.slice (·.orgId = org)
  bindings := s.bindings.slice (·.orgId = org)
  feed := s.feed.slice (·.orgId = org)
  participations := s.participations.slice (·.orgId = org)
  triggers := s.triggers.slice (·.orgId = org)

/-- Identifiers are drawn at random, and never twice. -/
def Mint.fresh (m : Mint) (s : BridgeSt) : Bool :=
  (s.threads.find? m.thread).isNone &&
    s.colleagues.rows.all fun c => c.userId ≠ m.user && c.id ≠ m.colleague

def LarkEvent.fresh : LarkEvent → BridgeSt → Bool
  | .message _ mint, s => mint.fresh s
  | .joined _ members, s =>
    members.all (·.mint.fresh s) && (members.map (·.mint.user)).Nodup
      && (members.map (·.mint.colleague)).Nodup
  | .other, _ => true

def bridgeStep : Step BridgeSt LarkEvent := fun s e =>
  if e.fresh s then some (processEvent d e s) else none

def LarkEvent.app : LarkEvent → Option LarkApp
  | .message w _ => d.apps.find? fun app => app.appId = w.event.appId
  | .joined ev _ => d.apps.find? fun app => app.appId = ev.appId
  | .other => none

def LarkEvent.ofOrg (org : OrgId) (e : LarkEvent) : Bool := (e.app d).any (·.orgId = org)

def ThreadOf (s : BridgeSt) (org : OrgId) (thread : ThreadId) : Prop :=
  ∃ t, s.threads.find? thread = some t ∧ t.orgId = org

def ColleagueOf (s : BridgeSt) (org : OrgId) (c : ShadowColleague) : Prop :=
  ∃ r, s.colleagues.find? (org, c.userId) = some r ∧ r.id = c.colleagueId

def Pc.shadow? : Pc → Option ShadowColleague
  | .shadow | .done | .failed _ => none
  | .channel c | .lookup c _ | .create c _ | .bind c _ | .receiver c _ | .append c _ _ _
  | .participation c _ _ _ | .enqueue c _ _ _ _ => some c

def Pc.thread? : Pc → Option ThreadId
  | .shadow | .channel _ | .lookup _ _ | .create _ _ | .done | .failed _ => none
  | .bind _ thread | .receiver _ thread | .append _ thread _ _ | .participation _ thread _ _
  | .enqueue _ thread _ _ _ => some thread

structure InOrg (org : OrgId) (pc : Pc) (s : BridgeSt) : Prop where
  shadow : ∀ c ∈ pc.shadow?, ColleagueOf s org c
  thread : ∀ t ∈ pc.thread?, ThreadOf s org t

def Local (s : BridgeSt) : LarkEvent → Prop
  | .message w mint => ∀ j, accept d w mint = .ok (some j) → ∀ n,
    InOrg j.app.orgId (advances d j n (.shadow, s)).1 (advances d j n (.shadow, s)).2
  | .joined ev members => ∀ app ∈ d.apps.find? fun app => app.appId = ev.appId, ∀ m ∈ members,
    ∀ h ∈ (syncOnJoin d ev members s).handles.find? (ev.tenantKey, m.user),
      h.orgId = app.orgId
        ∧ ColleagueOf (syncOnJoin d ev members s) app.orgId ⟨h.colleagueId, h.userId⟩
  | .other => True

/-- Two runs leave an organisation the same rows, and its events stay within it. -/
def Independent (org : OrgId) (s₀ : BridgeSt) (es : List LarkEvent) (s₀' : BridgeSt)
    (es' : List LarkEvent) : Prop :=
  ∀ s s', run (bridgeStep d) s₀ es = some s → run (bridgeStep d) s₀' es' = some s' →
    s.only org = s'.only org
      ∧ Steps (bridgeStep d) (fun s e => e.ofOrg d org = true → Local d s e) s₀ es
      ∧ Steps (bridgeStep d) (fun s e => e.ofOrg d org = true → Local d s e) s₀' es'

def ownUser (org : OrgId) (tenant : TenantKey) (user : LarkUserId) (s : BridgeSt) : Bool :=
  (s.handles.find? (tenant, user)).all (·.orgId = org)
    && (s.users.find? (syntheticEmail user)).all (·.orgId = org)

def ownThread (org : OrgId) (k : ThreadKey) (s : BridgeSt) : Bool :=
  (s.bindings.find? k).all (·.orgId = org)

/-- The event's bot is the first organisation to see its users and its thread. -/
def own (s : BridgeSt) : LarkEvent → Bool
  | .message w mint =>
    match accept d w mint with
    | .ok (some j) =>
      ownUser j.app.orgId w.event.tenantKey j.user s && ownThread j.app.orgId j.key s
    | .ok none | .error _ => true
  | .joined ev members => (d.apps.find? fun app => app.appId = ev.appId).all fun app =>
    members.all fun m => ownUser app.orgId ev.tenantKey m.user s
  | .other => true

structure Sealed (s : BridgeSt) : Prop where
  handle : ∀ h ∈ s.handles, ColleagueOf s h.orgId ⟨h.colleagueId, h.userId⟩
  binding : ∀ b ∈ s.bindings, ThreadOf s b.orgId b.patomThreadId
  participation : ∀ p ∈ s.participations, ThreadOf s p.orgId p.threadId

end Patom.Lark

namespace Patom.Lark

variable {d : BridgeDeps} {s s' : BridgeSt} {org org' : OrgId} {mint : Mint} {tenant : TenantKey}
  {user : LarkUserId} {openId : LarkOpenId} {chat : LarkChatId} {j : Job} {pc : Pc}

/-- What a transaction of an organisation reads and writes is the organisation's. -/
structure Confined {α : Type} (org : OrgId)
    (f : BridgeSt → Except LarkError (α × BridgeSt)) (s : BridgeSt) : Prop where
  own : f (s.only org) = (f s).map fun r => (r.1, r.2.only org)
  foreign : ∀ org' ≠ org, ∀ a s', f s = .ok (a, s') → s'.only org' = s.only org'

structure Grows (s s' : BridgeSt) : Prop where
  thread : ∀ {org t}, ThreadOf s org t → ThreadOf s' org t
  colleague : ∀ {org c}, ColleagueOf s org c → ColleagueOf s' org c

theorem Grows.inOrg (h : Grows s s') (hin : InOrg org pc s) : InOrg org pc s' :=
  ⟨fun c hc => h.colleague (hin.shadow c hc), fun t ht => h.thread (hin.thread t ht)⟩

theorem colleague_org {u : UserId} {c : Colleague} (h : c ∈ s.colleagues.find? (org, u)) :
    c.orgId = org :=
  congrArg Prod.fst (Table.key_of_find? h)

theorem isMember_only (s : BridgeSt) (user : UserId) :
    (s.only org).isMember user org = s.isMember user org := by
  exact congrArg Option.isSome
    (Table.find?_slice_eq fun c hc => decide_eq_true (colleague_org hc))

theorem ownUser_iff : ownUser org tenant user s = true ↔
    (∀ h ∈ s.handles.find? (tenant, user), h.orgId = org)
      ∧ ∀ u ∈ s.users.find? (syntheticEmail user), u.orgId = org := by
  simp [ownUser, Option.all_eq_true]

theorem ownThread_iff {k : ThreadKey} : ownThread org k s = true ↔
    ∀ b ∈ s.bindings.find? k, b.orgId = org := by
  simp [ownThread, Option.all_eq_true]

theorem resolveOrMint_confined (hown : ownUser org tenant user s = true) :
    Confined org (resolveOrMint mint org tenant user openId) s := by
  obtain ⟨hhandle, huser⟩ := ownUser_iff.mp hown
  have hhandles : (s.only org).handles.find? (tenant, user) = s.handles.find? (tenant, user) :=
    Table.find?_slice_eq fun h hh => decide_eq_true (hhandle h hh)
  have husers : (s.only org).users.find? (syntheticEmail user)
      = s.users.find? (syntheticEmail user) :=
    Table.find?_slice_eq fun u hu => decide_eq_true (huser u hu)
  cases hfind : s.handles.find? (tenant, user) with
  | some h =>
    have horg : h.orgId = org := hhandle h hfind
    have hkey : key h = (tenant, user) := Table.key_of_find? hfind
    have hrefreshed : ∀ h' ∈ s.handles.find? (key { h with openId := openId }), h' = h :=
      fun h' hh' => Option.some_inj.mp (hh'.symm.trans (hkey ▸ hfind))
    constructor
    · simp only [resolveOrMint, hhandles, hfind, Except.map]
      rw [BridgeSt.only, BridgeSt.only, Table.slice_put]
      · exact decide_eq_true horg
      · exact fun h' hh' => decide_eq_true (hrefreshed h' hh' ▸ horg)
    · intro org' hne a s' hok
      simp only [resolveOrMint, hfind, Except.ok.injEq, Prod.mk.injEq] at hok
      obtain ⟨-, rfl⟩ := hok
      have hother : decide (h.orgId = org') = false := decide_eq_false (horg ▸ hne.symm)
      rw [BridgeSt.only, BridgeSt.only, Table.slice_put_of_not]
      · exact hother
      · exact fun h' hh' => hrefreshed h' hh' ▸ hother
  | none =>
    cases hmail : s.users.find? (syntheticEmail user) with
    | some u =>
      constructor
      · simp only [resolveOrMint, hhandles, husers, hfind, hmail, Option.isSome_some, if_true,
          Except.map]
      · intro org' hne a s' hok
        simp [resolveOrMint, hfind, hmail] at hok
    | none =>
      constructor
      · simp only [resolveOrMint, hhandles, husers, hfind, hmail, Option.isSome_none,
          Bool.false_eq_true, if_false, Except.map]
        rw [BridgeSt.only, BridgeSt.only, Table.slice_put, Table.slice_put, Table.slice_put]
        · exact decide_eq_true rfl
        · exact Table.forall_find?_of_none hfind
        · exact decide_eq_true rfl
        · exact fun c hc => decide_eq_true (colleague_org hc)
        · exact decide_eq_true rfl
        · exact Table.forall_find?_of_none hmail
      · intro org' hne a s' hok
        simp only [resolveOrMint, hfind, hmail, Option.isSome_none, Bool.false_eq_true, if_false,
          Except.ok.injEq, Prod.mk.injEq] at hok
        obtain ⟨-, rfl⟩ := hok
        rw [BridgeSt.only, BridgeSt.only, Table.slice_put_of_not, Table.slice_put_of_not,
          Table.slice_put_of_not]
        · exact decide_eq_false hne.symm
        · exact Table.forall_find?_of_none hfind
        · exact decide_eq_false hne.symm
        · exact fun c hc => decide_eq_false (colleague_org hc ▸ hne.symm)
        · exact decide_eq_false hne.symm
        · exact Table.forall_find?_of_none hmail

theorem createChannelAndMapping_confined (mint : Mint) (org : OrgId) (tenant : TenantKey)
    (chat : LarkChatId) (name : String) (s : BridgeSt) :
    createChannelAndMapping mint org tenant chat name (s.only org)
        = ((createChannelAndMapping mint org tenant chat name s).1,
          (createChannelAndMapping mint org tenant chat name s).2.only org)
      ∧ ∀ org' ≠ org,
        (createChannelAndMapping mint org tenant chat name s).2.only org' = s.only org' := by
  have hchannels : (s.channels.addNew ⟨mint.channel, org, name⟩).slice (·.orgId = org)
      = (s.only org).channels.addNew ⟨mint.channel, org, name⟩ :=
    Table.slice_addNew (decide_eq_true rfl) fun c hc =>
      decide_eq_true (congrArg Prod.fst (Table.key_of_find? hc))
  have hfind : ((s.only org).channels.addNew ⟨mint.channel, org, name⟩).find? (org, name)
      = (s.channels.addNew ⟨mint.channel, org, name⟩).find? (org, name) := by
    rw [← hchannels]
    exact Table.find?_slice_eq fun c hc =>
      decide_eq_true (congrArg Prod.fst (Table.key_of_find? hc))
  constructor
  · simp only [createChannelAndMapping]
    rw [hfind, BridgeSt.only, BridgeSt.only, hchannels, Table.slice_addNew]
    · rfl
    · exact decide_eq_true rfl
    · exact fun c hc => decide_eq_true (congrArg Prod.fst (Table.key_of_find? hc))
  · intro org' hne
    simp only [createChannelAndMapping]
    rw [BridgeSt.only, BridgeSt.only, Table.slice_addNew_of_not, Table.slice_addNew_of_not]
    · exact decide_eq_false hne.symm
    · exact decide_eq_false hne.symm

theorem ensureChannel_confined : Confined org (ensureChannel mint org tenant chat) s := by
  have hfind : (s.only org).larkChannels.find? (org, tenant, chat)
      = s.larkChannels.find? (org, tenant, chat) :=
    Table.find?_slice_eq fun c hc => decide_eq_true (congrArg Prod.fst (Table.key_of_find? hc))
  unfold ensureChannel
  cases hname : channelNameFor chat with
  | error e =>
    exact ⟨rfl, fun org' hne a s' h => by cases h⟩
  | ok name =>
    cases hmap : s.larkChannels.find? (org, tenant, chat) with
    | some c =>
      constructor
      · simp only [Bind.bind, Except.bind, hfind, hmap]
        rfl
      · intro org' hne a s' h
        simp only [Bind.bind, Except.bind, hmap, pure, Except.pure, Except.ok.injEq,
          Prod.mk.injEq] at h
        rw [h.2]
    | none =>
      obtain ⟨hown, hforeign⟩ :=
        createChannelAndMapping_confined mint org tenant chat name s
      constructor
      · simp only [Bind.bind, Except.bind, hfind, hmap]
        rw [hown]
        rfl
      · intro org' hne a s' h
        simp only [Bind.bind, Except.bind, hmap, pure, Except.pure, Except.ok.injEq] at h
        rw [← hforeign org' hne, h]

theorem createThread_confined {u : UserId} {channel : ChannelId} {creator : ColleagueId}
    (hfresh : s.threads.find? mint.thread = none) :
    Confined org (createThread mint org u channel creator) s := by
  have hinserts : (s.threads.insert? ⟨mint.thread, org, channel, creator⟩).isSome :=
    Table.insert?_isSome.mpr hfresh
  obtain ⟨threads, hinsert⟩ := Option.isSome_iff_exists.mp hinserts
  unfold createThread
  constructor
  · rw [isMember_only]
    split
    · have hslice : (s.only org).threads.insert? ⟨mint.thread, org, channel, creator⟩
          = some (threads.slice (·.orgId = org)) :=
        Table.slice_insert? (decide_eq_true rfl) hinsert
      rw [hinsert, hslice]
      rfl
    · rfl
  · intro org' hne a s' h
    split at h
    · simp only [hinsert, Except.ok.injEq, Prod.mk.injEq] at h
      obtain ⟨-, rfl⟩ := h
      rw [BridgeSt.only, BridgeSt.only, Table.slice_insert?_of_not _ hinsert]
      exact decide_eq_false hne.symm
    · cases h

theorem bind_only {app : LarkAppId} {k : ThreadKey} {thread : ThreadId}
    (hown : ownThread org k s = true) :
    Lark.bind org app k thread (s.only org) = (Lark.bind org app k thread s).only org := by
  rw [Lark.bind, Lark.bind, BridgeSt.only, BridgeSt.only, Table.slice_addNew]
  · exact decide_eq_true rfl
  · exact fun b hb => decide_eq_true (ownThread_iff.mp hown b hb)

theorem bind_foreign {app : LarkAppId} {k : ThreadKey} {thread : ThreadId} (hne : org' ≠ org) :
    (Lark.bind org app k thread s).only org' = s.only org' := by
  rw [Lark.bind, BridgeSt.only, BridgeSt.only, Table.slice_addNew_of_not]
  exact decide_eq_false hne.symm

theorem lookupByThread_only {k : ThreadKey} (hown : ownThread org k s = true) :
    lookupByThread k (s.only org) = lookupByThread k s :=
  congrArg (Option.map _)
    (Table.find?_slice_eq fun b hb => decide_eq_true (ownThread_iff.mp hown b hb))

theorem visibleThread_eq {u : UserId} {thread : ThreadId} {t : PatomThread}
    (h : s.threads.find? thread = some t) :
    visibleThread u thread s = if s.isMember u t.orgId then some t else none := by
  rw [visibleThread, h, Option.filter_some]

theorem find?_threads_only {thread : ThreadId} {t : PatomThread}
    (h : s.threads.find? thread = some t) (horg : t.orgId = org) :
    (s.only org).threads.find? thread = some t := by
  refine (Table.find?_slice_eq fun t' ht' => ?_).trans h
  rw [h] at ht'
  cases ht'
  exact decide_eq_true horg

theorem append_confined {u : UserId} {thread : ThreadId} {idem : IdempotencyKey}
    {sender : ColleagueId} {receiver : Option ColleagueId} {body : String}
    (hthread : ThreadOf s org thread) :
    Confined org (append mint org u thread idem sender receiver body) s := by
  obtain ⟨t, hfind, horg⟩ := hthread
  have hfeed : (s.only org).feed.find? (org, idem) = s.feed.find? (org, idem) :=
    Table.find?_slice_eq fun r hr => decide_eq_true (congrArg Prod.fst (Table.key_of_find? hr))
  unfold append
  constructor
  · rw [visibleThread_eq hfind, visibleThread_eq (find?_threads_only hfind horg), horg,
      isMember_only]
    cases hmember : s.isMember u org with
    | false => simp [hfeed, Except.map]
    | true =>
      cases hrow : s.feed.find? (org, idem) with
      | some r => simp [hfeed, horg, hrow, Except.map, Option.filter_some]
      | none =>
        simp only [if_true, horg, hfeed, hrow, Except.map]
        rw [BridgeSt.only, BridgeSt.only, Table.slice_put]
        · exact decide_eq_true rfl
        · exact Table.forall_find?_of_none hrow
  · intro org' hne a s' h
    rw [visibleThread_eq hfind, horg] at h
    cases hmember : s.isMember u org with
    | false => simp [hmember] at h
    | true =>
      cases hrow : s.feed.find? (org, idem) with
      | some r =>
        simp only [hmember, if_true, horg, hrow, Option.filter_some, Except.ok.injEq,
          Prod.mk.injEq] at h
        rw [h.2]
      | none =>
        simp only [hmember, if_true, horg, hrow, Except.ok.injEq, Prod.mk.injEq] at h
        obtain ⟨-, rfl⟩ := h
        rw [BridgeSt.only, BridgeSt.only, Table.slice_put_of_not]
        · exact decide_eq_false hne.symm
        · exact Table.forall_find?_of_none hrow

theorem resolveParticipation_confined (hs : Sealed s) {u : UserId} {thread : ThreadId}
    {agent : AgentId} (hthread : ThreadOf s org thread) :
    Confined org (resolveParticipation mint u thread agent) s := by
  obtain ⟨t, hfind, horg⟩ := hthread
  have hown : ∀ p ∈ s.participations.find? (thread, agent), p.orgId = org := by
    intro p hp
    obtain ⟨t', ht', horg'⟩ := hs.participation p (Table.mem_of_find? hp)
    rw [show p.threadId = thread from congrArg Prod.fst (Table.key_of_find? hp), hfind] at ht'
    cases ht'
    exact horg'.symm.trans horg
  have hrows : (s.only org).participations.find? (thread, agent)
      = s.participations.find? (thread, agent) :=
    Table.find?_slice_eq fun p hp => decide_eq_true (hown p hp)
  unfold resolveParticipation
  constructor
  · rw [visibleThread_eq hfind, visibleThread_eq (find?_threads_only hfind horg), horg,
      isMember_only, hrows]
    cases hmember : s.isMember u org with
    | false => rfl
    | true =>
      cases hrow : s.participations.find? (thread, agent) with
      | some p => rfl
      | none =>
        simp only [if_true, Except.map]
        rw [BridgeSt.only, BridgeSt.only, Table.slice_put]
        · exact decide_eq_true horg
        · exact Table.forall_find?_of_none hrow
  · intro org' hne a s' h
    rw [visibleThread_eq hfind, horg] at h
    cases hmember : s.isMember u org with
    | false => simp [hmember] at h
    | true =>
      cases hrow : s.participations.find? (thread, agent) with
      | some p =>
        simp only [hmember, if_true, hrow, Except.ok.injEq, Prod.mk.injEq] at h
        rw [h.2]
      | none =>
        simp only [hmember, if_true, hrow, Except.ok.injEq, Prod.mk.injEq] at h
        obtain ⟨-, rfl⟩ := h
        rw [BridgeSt.only, BridgeSt.only, Table.slice_put_of_not]
        · exact decide_eq_false (horg ▸ hne.symm)
        · exact Table.forall_find?_of_none hrow

theorem enqueueTrigger_confined {u : UserId} {idem : IdempotencyKey} {thread : ThreadId}
    {state : AgentThreadId} {sender : ColleagueId} {agent : AgentId} {message : ThreadMessageId} :
    Confined org (fun s => (enqueueTrigger mint org u idem thread state sender agent message s).map
      ((), ·)) s := by
  unfold enqueueTrigger
  constructor
  · simp only [isMember_only]
    split
    · simp only [Except.map]
      rw [BridgeSt.only, BridgeSt.only, Table.slice_addNew]
      · exact decide_eq_true rfl
      · exact fun r hr => decide_eq_true (congrArg Prod.fst (Table.key_of_find? hr))
    · rfl
  · intro org' hne a s' h
    dsimp only at h
    split at h
    · simp only [Except.map, Except.ok.injEq, Prod.mk.injEq] at h
      obtain ⟨-, rfl⟩ := h
      rw [BridgeSt.only, BridgeSt.only, Table.slice_addNew_of_not]
      exact decide_eq_false hne.symm
    · cases h

@[refl] theorem Grows.refl (s : BridgeSt) : Grows s s := ⟨id, id⟩

theorem Grows.of_eq (ht : s'.threads = s.threads) (hc : s'.colleagues = s.colleagues) :
    Grows s s' := by
  constructor
  · intro org t h
    rwa [ThreadOf, ht]
  · intro org c h
    rwa [ColleagueOf, hc]

theorem Grows.of_put {c : Colleague} (hnew : ∀ r ∈ s.colleagues, r.userId ≠ c.userId)
    (ht : s'.threads = s.threads) (hc : s'.colleagues = s.colleagues.put c) : Grows s s' := by
  constructor
  · intro org t h
    rwa [ThreadOf, ht]
  · rintro org x ⟨r, hr, hid⟩
    refine ⟨r, ?_, hid⟩
    rw [hc, ← hr]
    refine Table.find?_put_ne _ fun e => hnew r (Table.mem_of_find? hr) ?_
    exact (congrArg Prod.snd (Table.key_of_find? hr)).trans (congrArg Prod.snd e).symm

theorem Sealed.grow (hs : Sealed s) (g : Grows s s')
    (hhandle : ∀ h ∈ s'.handles, h ∈ s.handles ∨ ColleagueOf s' h.orgId ⟨h.colleagueId, h.userId⟩)
    (hbinding : ∀ b ∈ s'.bindings, b ∈ s.bindings ∨ ThreadOf s' b.orgId b.patomThreadId)
    (hpart : ∀ p ∈ s'.participations, p ∈ s.participations ∨ ThreadOf s' p.orgId p.threadId) :
    Sealed s' where
  handle h hh := (hhandle h hh).elim (fun hold => g.colleague (hs.handle h hold)) id
  binding b hb := (hbinding b hb).elim (fun hold => g.thread (hs.binding b hold)) id
  participation p hp := (hpart p hp).elim (fun hold => g.thread (hs.participation p hold)) id

theorem Mint.fresh_iff : mint.fresh s = true ↔ s.threads.find? mint.thread = none
    ∧ ∀ c ∈ s.colleagues, c.userId ≠ mint.user ∧ c.id ≠ mint.colleague := by
  simp [Mint.fresh, Table.mem_def]

structure Keeps (s s' : BridgeSt) : Prop where
  closed : Sealed s'
  grows : Grows s s'
  threads : s'.threads = s.threads
  bindings : s'.bindings = s.bindings

theorem Keeps.refl (hs : Sealed s) : Keeps s s := ⟨hs, .refl s, rfl, rfl⟩

theorem Keeps.of_eq (hs : Sealed s) (ht : s'.threads = s.threads)
    (hc : s'.colleagues = s.colleagues) (hh : s'.handles = s.handles)
    (hb : s'.bindings = s.bindings) (hp : s'.participations = s.participations) : Keeps s s' :=
  ⟨hs.grow (.of_eq ht hc) (fun _ h => .inl (hh ▸ h)) (fun _ h => .inl (hb ▸ h))
    (fun _ h => .inl (hp ▸ h)), .of_eq ht hc, ht, hb⟩

theorem resolveOrMint_keeps (hs : Sealed s) (hfresh : mint.fresh s = true) {c : ShadowColleague}
    (h : resolveOrMint mint org tenant user openId s = .ok (c, s')) :
    Keeps s s' ∧ ((∀ r ∈ s.handles.find? (tenant, user), r.orgId = org) →
      ColleagueOf s' org c) := by
  unfold resolveOrMint at h
  cases hfind : s.handles.find? (tenant, user) with
  | some r =>
    have hr := hs.handle r (Table.mem_of_find? hfind)
    simp only [hfind, Except.ok.injEq, Prod.mk.injEq] at h
    obtain ⟨rfl, rfl⟩ := h
    refine ⟨⟨hs.grow (.of_eq rfl rfl) ?_ (fun b hb => .inl hb) (fun p hp => .inl hp),
      .of_eq rfl rfl, rfl, rfl⟩, fun hown => hown r rfl ▸ hr⟩
    intro x hx
    obtain rfl | ⟨hx, -⟩ := Table.mem_put.mp hx
    · exact .inr hr
    · exact .inl hx
  | none =>
    cases hmail : (s.users.find? (syntheticEmail user)).isSome with
    | true => simp [hfind, hmail] at h
    | false =>
      simp only [hfind, hmail, Bool.false_eq_true, if_false, Except.ok.injEq,
        Prod.mk.injEq] at h
      obtain ⟨rfl, rfl⟩ := h
      have hnew : ∀ r ∈ s.colleagues, r.userId ≠ mint.user := fun r hr =>
        ((Mint.fresh_iff.mp hfresh).2 r hr).1
      have hput := Table.find?_put_self s.colleagues ⟨mint.colleague, org, mint.user⟩
      refine ⟨⟨hs.grow (.of_put hnew rfl rfl) ?_ (fun b hb => .inl hb) (fun p hp => .inl hp),
        .of_put hnew rfl rfl, rfl, rfl⟩, fun _ => ⟨_, hput, rfl⟩⟩
      intro x hx
      obtain rfl | ⟨hx, -⟩ := Table.mem_put.mp hx
      · exact .inr ⟨_, hput, rfl⟩
      · exact .inl hx

theorem ensureChannel_keeps (hs : Sealed s) {channel : ChannelId}
    (h : ensureChannel mint org tenant chat s = .ok (channel, s')) : Keeps s s' := by
  unfold ensureChannel at h
  cases hname : channelNameFor chat with
  | error e =>
    rw [hname] at h
    cases h
  | ok name =>
    cases hmap : s.larkChannels.find? (org, tenant, chat) with
    | some c =>
      simp only [hname, Bind.bind, Except.bind, hmap, pure, Except.pure, Except.ok.injEq,
        Prod.mk.injEq] at h
      exact h.2 ▸ .refl hs
    | none =>
      simp only [hname, Bind.bind, Except.bind, hmap, pure, Except.pure, Except.ok.injEq,
        createChannelAndMapping, Prod.mk.injEq] at h
      obtain ⟨-, rfl⟩ := h
      exact .of_eq hs rfl rfl rfl rfl rfl

theorem visibleThread_find? {u : UserId} {thread : ThreadId} {t : PatomThread}
    (h : visibleThread u thread s = some t) : s.threads.find? thread = some t :=
  (Option.filter_eq_some_iff.mp h).1

theorem append_rows {u : UserId} {thread : ThreadId} {k : IdempotencyKey} {sender : ColleagueId}
    {receiver : Option ColleagueId} {body : String} {message : ThreadMessageId}
    (h : append mint org u thread k sender receiver body s = .ok (message, s')) :
    (s' = s ∧ (s.feed.find? (org, k)).isSome) ∨ ∃ t, s.threads.find? thread = some t
      ∧ s.feed.find? (t.orgId, k) = none ∧ ∃ feed, s' = { s with feed }
        ∧ feed = s.feed.put ⟨t.orgId, k, mint.message, thread, sender, receiver, body⟩ := by
  by_cases hnew : ∃ t, visibleThread u thread s = some t ∧ s.feed.find? (t.orgId, k) = none
  · obtain ⟨t, hsee, hrow⟩ := hnew
    simp only [append, hsee, hrow, Except.ok.injEq, Prod.mk.injEq] at h
    exact .inr ⟨t, visibleThread_find? hsee, hrow, _, h.2.symm, rfl⟩
  · cases hold : (s.feed.find? (org, k)).filter fun _ => s.isMember u org with
    | none =>
      cases hsee : visibleThread u thread s with
      | none => simp [append, hsee, hold] at h
      | some t =>
        obtain ⟨r, hr⟩ := Option.ne_none_iff_exists'.mp fun e => hnew ⟨t, hsee, e⟩
        simp [append, hsee, hr, hold] at h
    | some r =>
      have hs : s' = s := by
        cases hsee : visibleThread u thread s with
        | none =>
          simp only [append, hsee, hold, Except.ok.injEq, Prod.mk.injEq] at h
          exact h.2.symm
        | some t =>
          obtain ⟨r', hr'⟩ := Option.ne_none_iff_exists'.mp fun e => hnew ⟨t, hsee, e⟩
          simp only [append, hsee, hr', hold, Except.ok.injEq, Prod.mk.injEq] at h
          exact h.2.symm
      exact .inl ⟨hs, Option.isSome_of_eq_some (Option.filter_eq_some_iff.mp hold).1⟩

theorem append_keeps (hs : Sealed s) {u : UserId} {thread : ThreadId} {idem : IdempotencyKey}
    {sender : ColleagueId} {receiver : Option ColleagueId} {body : String}
    {message : ThreadMessageId}
    (h : append mint org u thread idem sender receiver body s = .ok (message, s')) :
    Keeps s s' := by
  obtain ⟨rfl, -⟩ | ⟨t, -, -, feed, rfl, -⟩ := append_rows h
  · exact .refl hs
  · exact .of_eq hs rfl rfl rfl rfl rfl

theorem resolveParticipation_keeps (hs : Sealed s) {u : UserId} {thread : ThreadId}
    {agent : AgentId} {state : AgentThreadId}
    (h : resolveParticipation mint u thread agent s = .ok (state, s')) : Keeps s s' := by
  unfold resolveParticipation at h
  cases hsee : visibleThread u thread s with
  | none =>
    rw [hsee] at h
    cases h
  | some t =>
    cases hrow : s.participations.find? (thread, agent) with
    | some p =>
      simp only [hsee, hrow, Except.ok.injEq, Prod.mk.injEq] at h
      exact h.2 ▸ .refl hs
    | none =>
      simp only [hsee, hrow, Except.ok.injEq, Prod.mk.injEq] at h
      obtain ⟨-, rfl⟩ := h
      refine ⟨hs.grow (.of_eq rfl rfl) (fun h hh => .inl hh) (fun b hb => .inl hb) ?_,
        .of_eq rfl rfl, rfl, rfl⟩
      intro p hp
      obtain rfl | ⟨hp, -⟩ := Table.mem_put.mp hp
      · exact .inr ⟨t, visibleThread_find? hsee, rfl⟩
      · exact .inl hp

theorem ok_of_map_ok {x : Except LarkError BridgeSt} {u : Unit}
    (h : x.map ((), ·) = .ok (u, s')) : x = .ok s' := by
  cases x with
  | error e => cases h
  | ok s₁ =>
    cases h
    rfl

theorem enqueueTrigger_keeps (hs : Sealed s) {u : UserId} {idem : IdempotencyKey}
    {thread : ThreadId} {state : AgentThreadId} {sender : ColleagueId} {agent : AgentId}
    {message : ThreadMessageId}
    (h : enqueueTrigger mint org u idem thread state sender agent message s = .ok s') :
    Keeps s s' := by
  unfold enqueueTrigger at h
  dsimp only at h
  split at h
  · cases h
    exact .of_eq hs rfl rfl rfl rfl rfl
  · cases h

theorem createThread_keeps (hs : Sealed s) {u : UserId} {channel : ChannelId}
    {creator : ColleagueId} {thread : ThreadId}
    (h : createThread mint org u channel creator s = .ok (thread, s')) :
    Sealed s' ∧ Grows s s' ∧ s'.bindings = s.bindings ∧ ThreadOf s' org thread := by
  unfold createThread at h
  split at h
  · cases hinsert : s.threads.insert? ⟨mint.thread, org, channel, creator⟩ with
    | none => simp [hinsert] at h
    | some threads =>
      simp only [hinsert, Except.ok.injEq, Prod.mk.injEq] at h
      obtain ⟨rfl, rfl⟩ := h
      have hnew : ∀ k, threads.find? k = if mint.thread = k
          then some ⟨mint.thread, org, channel, creator⟩ else s.threads.find? k :=
        Table.find?_insert? hinsert
      have hfree : s.threads.find? mint.thread = none :=
        Table.insert?_isSome.mp (Option.isSome_of_eq_some hinsert)
      have g : Grows s { s with threads } := by
        refine ⟨?_, id⟩
        rintro org' k ⟨t, ht, horg⟩
        refine ⟨t, (hnew k).trans ?_, horg⟩
        rw [if_neg, ht]
        rintro rfl
        rw [hfree] at ht
        cases ht
      exact ⟨hs.grow g (fun h hh => .inl hh) (fun b hb => .inl hb) (fun p hp => .inl hp), g, rfl,
        _, (hnew _).trans (if_pos rfl), rfl⟩
  · cases h

theorem Sealed.bind (hs : Sealed s) (app : LarkAppId) (k : ThreadKey) {thread : ThreadId}
    (hthread : ThreadOf s org thread) : Sealed (Lark.bind org app k thread s) := by
  refine hs.grow (.of_eq rfl rfl) (fun h hh => .inl hh) ?_ (fun p hp => .inl hp)
  intro b hb
  obtain hb | rfl := Table.mem_or_eq_of_mem_addNew hb
  · exact .inl hb
  · exact .inr hthread

theorem ownThread_bind {app : LarkAppId} {k : ThreadKey} {thread : ThreadId}
    (hown : ownThread org k s = true) : ownThread org k (Lark.bind org app k thread s) = true :=
  ownThread_iff.mpr (Table.forall_find?_addNew (ownThread_iff.mp hown) rfl)

def Pc.early : Pc → Bool
  | .shadow | .channel _ | .lookup _ _ | .create _ _ => true
  | .bind _ _ | .receiver _ _ | .append _ _ _ _ | .participation _ _ _ _ | .enqueue _ _ _ _ _
  | .done | .failed _ => false

/-- A handler whose organisation is the first to see its user and its thread. -/
structure Mine (j : Job) (pc : Pc) (s : BridgeSt) : Prop where
  closed : Sealed s
  inOrg : InOrg j.app.orgId pc s
  binding : ownThread j.app.orgId j.key s = true
  user : pc = .shadow →
    ownUser j.app.orgId j.work.event.tenantKey j.user s = true ∧ j.mint.fresh s = true
  thread : pc.early = true → s.threads.find? j.mint.thread = none

structure Advances (d : BridgeDeps) (j : Job) (pc : Pc) (s : BridgeSt) : Prop where
  mine : Mine j (advance d j s pc).1 (advance d j s pc).2
  own : advance d j (s.only j.app.orgId) pc
    = ((advance d j s pc).1, (advance d j s pc).2.only j.app.orgId)
  foreign : ∀ org ≠ j.app.orgId, (advance d j s pc).2.only org = s.only org

theorem Mine.failed (hm : Mine j pc s) (e : LarkError) : Mine j (.failed e) s where
  closed := hm.closed
  inOrg := ⟨fun c hc => (by cases hc), fun t ht => (by cases ht)⟩
  binding := hm.binding
  user h := by cases h
  thread h := by cases h

theorem Advances.of_attempt {α : Type} {f : BridgeSt → Except LarkError (α × BridgeSt)}
    {next : α → Pc} (hadv : ∀ s, advance d j s pc = attempt (f s) s next)
    (hc : Confined j.app.orgId f s) (hm : Mine j pc s)
    (hnext : ∀ a s', f s = .ok (a, s') → Mine j (next a) s') : Advances d j pc s := by
  cases hf : f s with
  | ok r =>
    have hadv' : advance d j s pc = (next r.1, r.2) := by rw [hadv, hf]; rfl
    refine ⟨?_, ?_, fun org hne => ?_⟩
    · rw [hadv']
      exact hnext r.1 r.2 hf
    · rw [hadv, hc.own, hf, hadv']
      rfl
    · rw [hadv']
      exact hc.foreign org hne r.1 r.2 hf
  | error e =>
    have hadv' : advance d j s pc = (.failed e, s) := by rw [hadv, hf]; rfl
    refine ⟨?_, ?_, fun org hne => ?_⟩
    · rw [hadv']
      exact hm.failed e
    · rw [hadv, hc.own, hf, hadv']
      rfl
    · rw [hadv']

theorem Mine.of_keeps {pc' : Pc} (hm : Mine j pc s) (h : Keeps s s')
    (hshadow : ∀ c ∈ pc'.shadow?, c ∈ pc.shadow? ∨ ColleagueOf s' j.app.orgId c)
    (hthread : ∀ t ∈ pc'.thread?, t ∈ pc.thread? ∨ ThreadOf s' j.app.orgId t)
    (hpc : pc' ≠ .shadow) (hearly : pc'.early = true → pc.early = true) : Mine j pc' s' where
  closed := h.closed
  inOrg := ⟨fun c hc => (hshadow c hc).elim (fun hc => h.grows.colleague (hm.inOrg.shadow c hc)) id,
    fun t ht => (hthread t ht).elim (fun ht => h.grows.thread (hm.inOrg.thread t ht)) id⟩
  binding := by
    rw [ownThread, h.bindings]
    exact hm.binding
  user e := absurd e hpc
  thread e := h.threads ▸ hm.thread (hearly e)

theorem Mine.lookup {c : ShadowColleague} {channel : ChannelId}
    (hm : Mine j (.lookup c channel) s) : Advances d j (.lookup c channel) s := by
  have hlookup := lookupByThread_only hm.binding
  cases hfind : lookupByThread j.key s with
  | none =>
    have hadv : advance d j s (.lookup c channel) = (.create c channel, s) := by
      simp only [advance, hfind]
    refine ⟨?_, ?_, fun org hne => by rw [hadv]⟩
    · rw [hadv]
      exact hm.of_keeps (.refl hm.closed) (fun _ h => .inl h) (fun t ht => by cases ht)
        (fun e => by cases e) id
    · rw [hadv]
      simp only [advance, hlookup, hfind]
  | some t =>
    have hadv : advance d j s (.lookup c channel) = (.receiver c t, s) := by
      simp only [advance, hfind]
    have ht : ThreadOf s j.app.orgId t := by
      obtain ⟨b, hb, rfl⟩ := Option.map_eq_some_iff.mp hfind
      exact ownThread_iff.mp hm.binding b hb ▸ hm.closed.binding b (Table.mem_of_find? hb)
    refine ⟨?_, ?_, fun org hne => by rw [hadv]⟩
    · rw [hadv]
      refine hm.of_keeps (.refl hm.closed) (fun _ h => .inl h) (fun t' ht' => ?_)
        (fun e => by cases e) (fun e => by cases e)
      cases ht'
      exact .inr ht
    · rw [hadv]
      simp only [advance, hlookup, hfind]

theorem Mine.create {c : ShadowColleague} {channel : ChannelId}
    (hm : Mine j (.create c channel) s) : Advances d j (.create c channel) s := by
  refine .of_attempt (fun s => rfl) (createThread_confined (hm.thread rfl)) hm fun t s' h => ?_
  obtain ⟨hclosed, g, hbindings, ht⟩ := createThread_keeps hm.closed h
  refine ⟨hclosed, ⟨fun c' hc' => g.colleague (hm.inOrg.shadow c' hc'), fun t' ht' => ?_⟩, ?_,
    fun e => (by cases e), fun e => (by cases e)⟩
  · cases ht'
    exact ht
  · rw [ownThread, hbindings]
    exact hm.binding

theorem Mine.bind {c : ShadowColleague} {t : ThreadId} (hm : Mine j (.bind c t) s) :
    Advances d j (.bind c t) s := by
  have hclosed := hm.closed.bind j.work.event.appId j.key (hm.inOrg.thread t rfl)
  refine ⟨⟨hclosed, ?_, ownThread_bind hm.binding, fun e => (by cases e),
    fun e => (by cases e)⟩, ?_, fun org hne => bind_foreign hne⟩
  · exact Grows.inOrg (.of_eq rfl rfl) ⟨hm.inOrg.shadow, hm.inOrg.thread⟩
  · exact congrArg (Prod.mk _) (bind_only hm.binding)

theorem Mine.receiver {c : ShadowColleague} {t : ThreadId} (hm : Mine j (.receiver c t) s) :
    Advances d j (.receiver c t) s := by
  cases hidem : messageIdempotencyKey j.work.event with
  | error e =>
    have hadv : ∀ s, advance d j s (.receiver c t) = (.failed e, s) := fun s => by
      simp only [advance, hidem]
    refine ⟨?_, ?_, fun org hne => by rw [hadv]⟩
    · rw [hadv]
      exact hm.failed e
    · rw [hadv, hadv]
  | ok idem =>
    have hadv : ∀ s, advance d j s (.receiver c t) = (.append c t idem
        (if isTrigger j.work then some (d.agentColleague j.app.orgId j.app.agentId) else none),
        s) := fun s => by
      simp only [advance, hidem]
    refine ⟨?_, ?_, fun org hne => by rw [hadv]⟩
    · rw [hadv]
      exact hm.of_keeps (.refl hm.closed) (fun _ h => .inl h) (fun _ h => .inl h)
        (fun e => by cases e) (fun e => by cases e)
    · rw [hadv, hadv]

theorem Mine.append {c : ShadowColleague} {t : ThreadId} {idem : IdempotencyKey}
    {receiver : Option ColleagueId} (hm : Mine j (.append c t idem receiver) s) :
    Advances d j (.append c t idem receiver) s := by
  refine .of_attempt (fun s => rfl) (append_confined (hm.inOrg.thread t rfl)) hm
    fun message s' h => ?_
  have hkeeps := append_keeps hm.closed h
  split
  · exact hm.of_keeps hkeeps (fun _ h => .inl h) (fun _ h => .inl h) (fun e => by cases e) id
  · exact hm.of_keeps hkeeps (fun c hc => by cases hc) (fun t ht => by cases ht)
      (fun e => by cases e) id

theorem Mine.advances (hm : Mine j pc s) : Advances d j pc s := by
  cases pc with
  | shadow =>
    obtain ⟨hown, hfresh⟩ := hm.user rfl
    refine .of_attempt (fun s => rfl) (resolveOrMint_confined hown) hm fun c s' h => ?_
    obtain ⟨hkeeps, hc⟩ := resolveOrMint_keeps hm.closed hfresh h
    refine hm.of_keeps hkeeps (fun c' hc' => ?_) (fun t ht => by cases ht) (fun e => by cases e)
      fun _ => rfl
    cases hc'
    exact .inr (hc (ownUser_iff.mp hown).1)
  | channel c =>
    refine .of_attempt (fun s => rfl) ensureChannel_confined hm fun channel s' h => ?_
    exact hm.of_keeps (ensureChannel_keeps hm.closed h) (fun _ h => .inl h)
      (fun t ht => by cases ht) (fun e => by cases e) fun _ => rfl
  | lookup c channel => exact hm.lookup
  | create c channel => exact hm.create
  | bind c t => exact hm.bind
  | receiver c t => exact hm.receiver
  | append c t idem receiver => exact hm.append
  | participation c t idem message =>
    refine .of_attempt (fun s => rfl)
      (resolveParticipation_confined hm.closed (hm.inOrg.thread t rfl)) hm fun state s' h => ?_
    exact hm.of_keeps (resolveParticipation_keeps hm.closed h) (fun _ h => .inl h)
      (fun _ h => .inl h) (fun e => by cases e) id
  | enqueue c t idem message state =>
    refine .of_attempt (fun s => rfl) enqueueTrigger_confined hm fun u s' h => ?_
    exact hm.of_keeps (enqueueTrigger_keeps hm.closed (ok_of_map_ok h)) (fun c hc => by cases hc)
      (fun t ht => by cases ht) (fun e => by cases e) fun e => by cases e
  | done => exact ⟨hm, rfl, fun org hne => rfl⟩
  | failed e => exact ⟨hm, rfl, fun org hne => rfl⟩

end Patom.Lark
