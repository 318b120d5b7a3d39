import Patom.Lark.Independence

open Patom.Foundation

namespace Patom.Lark

variable {d : BridgeDeps} {s s' : BridgeSt} {org : OrgId} {j : Job} {pc : Pc} {ev : ChatMemberEvent}
  {e : LarkEvent}

theorem advances_mine (hm : Mine j pc s) (n : Nat) :
    Mine j (advances d j n (pc, s)).1 (advances d j n (pc, s)).2
      ∧ advances d j n (pc, s.only j.app.orgId)
        = ((advances d j n (pc, s)).1, (advances d j n (pc, s)).2.only j.app.orgId)
      ∧ ∀ org ≠ j.app.orgId, (advances d j n (pc, s)).2.only org = s.only org := by
  induction n generalizing pc s with
  | zero => exact ⟨hm, rfl, fun org hne => rfl⟩
  | succ n ih =>
    have hadv := hm.advances (d := d)
    obtain ⟨hmine, hown, hforeign⟩ := ih hadv.mine
    refine ⟨hmine, ?_, fun org hne => (hforeign org hne).trans (hadv.foreign org hne)⟩
    rw [advances, hadv.own]
    exact hown

theorem accept_eq_some {w : InboundWork} {mint : Mint} (h : accept d w mint = .ok (some j)) :
    (d.apps.find? fun app => app.appId = w.event.appId) = some j.app ∧ j.work = w
      ∧ j.mint = mint := by
  unfold accept at h
  split at h
  · cases h
  · cases hfind : d.apps.find? fun app => app.appId = w.event.appId with
    | none => simp [hfind] at h
    | some app =>
      cases huser : w.event.senderUserId with
      | none => simp [hfind, huser] at h
      | some user =>
        simp only [hfind, huser, Option.map_some, Except.ok.injEq, Option.some.injEq] at h
        subst h
        exact ⟨rfl, rfl, rfl⟩

structure Processed (d : BridgeDeps) (e : LarkEvent) (s : BridgeSt) : Prop where
  closed : Sealed (processEvent d e s)
  own : ∀ org, e.ofOrg d org = true →
    (processEvent d e s).only org = processEvent d e (s.only org)
  foreign : ∀ org, e.ofOrg d org = false → (processEvent d e s).only org = s.only org
  here : Local d s e

theorem Mine.init {w : InboundWork} {mint : Mint} (hs : Sealed s)
    (hacc : accept d w mint = .ok (some j)) (hown : own d s (.message w mint) = true)
    (hfresh : mint.fresh s = true) : Mine j .shadow s := by
  obtain ⟨-, rfl, rfl⟩ := accept_eq_some hacc
  simp only [Patom.Lark.own, hacc, Bool.and_eq_true] at hown
  exact ⟨hs, ⟨fun c hc => (by cases hc), fun t ht => (by cases ht)⟩, hown.2,
    fun _ => ⟨hown.1, hfresh⟩, fun _ => (Mint.fresh_iff.mp hfresh).1⟩

theorem processed_message {w : InboundWork} {mint : Mint} (hs : Sealed s)
    (hown : own d s (.message w mint) = true) (hfresh : mint.fresh s = true) :
    Processed d (.message w mint) s := by
  cases hacc : accept d w mint with
  | error err =>
    have heq : ∀ s, processEvent d (.message w mint) s = s := fun s => by
      simp only [processEvent, handleMessage, hacc]
    refine ⟨(heq s).symm ▸ hs, fun org _ => by rw [heq, heq], fun org _ => by rw [heq], ?_⟩
    intro j hj
    simp [hacc] at hj
  | ok o =>
    cases o with
    | none =>
      have heq : ∀ s, processEvent d (.message w mint) s = s := fun s => by
        simp only [processEvent, handleMessage, hacc]
      refine ⟨(heq s).symm ▸ hs, fun org _ => by rw [heq, heq], fun org _ => by rw [heq], ?_⟩
      intro j hj
      simp [hacc] at hj
    | some j =>
      have hm : Mine j .shadow s := .init hs hacc hown hfresh
      have heq : ∀ s, processEvent d (.message w mint) s
          = (advances d j TRANSACTIONS (.shadow, s)).2 := fun s => by
        simp only [processEvent, handleMessage, hacc]
      have horg : ∀ org, (LarkEvent.message w mint).ofOrg d org = decide (j.app.orgId = org) :=
        fun org => by rw [LarkEvent.ofOrg, LarkEvent.app, (accept_eq_some hacc).1]; rfl
      obtain ⟨hmine, hown', hforeign⟩ := advances_mine (d := d) hm TRANSACTIONS
      refine ⟨?_, fun org ho => ?_, fun org ho => ?_, fun j' hj' n => ?_⟩
      · rw [heq]
        exact hmine.closed
      · obtain rfl : j.app.orgId = org := by simpa [horg] using ho
        rw [heq, heq, hown']
      · rw [heq]
        refine hforeign org fun e => ?_
        simp [horg, e] at ho
      · obtain rfl : j = j' := by simpa [hacc] using hj'
        exact (advances_mine hm n).1.inOrg

theorem ensureChannel_frame {mint : Mint} {tenant : TenantKey} {chat : LarkChatId}
    {channel : ChannelId} (h : ensureChannel mint org tenant chat s = .ok (channel, s')) :
    s'.users = s.users ∧ s'.colleagues = s.colleagues ∧ s'.handles = s.handles
      ∧ s'.threads = s.threads := by
  unfold ensureChannel at h
  cases hname : channelNameFor chat with
  | error e =>
    rw [hname] at h
    cases h
  | ok name =>
    cases hmap : s.larkChannels.find? (org, tenant, chat) with
    | some c =>
      simp only [hname, Bind.bind, Except.bind, hmap, pure, Except.pure, Except.ok.injEq,
        Prod.mk.injEq] at h
      exact h.2 ▸ ⟨rfl, rfl, rfl, rfl⟩
    | none =>
      simp only [hname, Bind.bind, Except.bind, hmap, pure, Except.pure, Except.ok.injEq,
        createChannelAndMapping, Prod.mk.injEq] at h
      exact h.2 ▸ ⟨rfl, rfl, rfl, rfl⟩

theorem resolveOrMint_rows {mint : Mint} {tenant : TenantKey} {user : LarkUserId}
    {openId : LarkOpenId} {c : ShadowColleague}
    (h : resolveOrMint mint org tenant user openId s = .ok (c, s')) :
    (∃ r, s.handles.find? (tenant, user) = some r ∧ s'.users = s.users
        ∧ s'.colleagues = s.colleagues ∧ s'.threads = s.threads
        ∧ s'.handles = s.handles.put { r with openId := openId })
      ∨ (s'.users = s.users.put ⟨syntheticEmail user, mint.user, org⟩
        ∧ s'.colleagues = s.colleagues.put ⟨mint.colleague, org, mint.user⟩
        ∧ s'.threads = s.threads
        ∧ s'.handles = s.handles.put ⟨org, tenant, user, openId, mint.colleague, mint.user⟩) := by
  unfold resolveOrMint at h
  cases hfind : s.handles.find? (tenant, user) with
  | some r =>
    simp only [hfind, Except.ok.injEq, Prod.mk.injEq] at h
    exact .inl ⟨r, rfl, h.2 ▸ ⟨rfl, rfl, rfl, rfl⟩⟩
  | none =>
    cases hmail : (s.users.find? (syntheticEmail user)).isSome with
    | true => simp [hfind, hmail] at h
    | false =>
      simp only [hfind, hmail, Bool.false_eq_true, if_false, Except.ok.injEq,
        Prod.mk.injEq] at h
      exact .inr (h.2 ▸ ⟨rfl, rfl, rfl, rfl⟩)

theorem ownUser_resolveOrMint {mint : Mint} {tenant tenant' : TenantKey} {user user' : LarkUserId}
    {openId : LarkOpenId} {c : ShadowColleague}
    (h : resolveOrMint mint org tenant user openId s = .ok (c, s'))
    (hown : ownUser org tenant user s = true) (hown' : ownUser org tenant' user' s = true) :
    ownUser org tenant' user' s' = true := by
  obtain ⟨hhandle, -⟩ := ownUser_iff.mp hown
  obtain ⟨hhandle', huser'⟩ := ownUser_iff.mp hown'
  refine ownUser_iff.mpr ⟨fun r hr => ?_, fun u hu => ?_⟩
  · obtain ⟨r₀, hr₀, -, -, -, hrows⟩ | ⟨-, -, -, hrows⟩ := resolveOrMint_rows h
    · rw [hrows, Table.find?_put] at hr
      split at hr
      · cases hr
        exact hhandle r₀ hr₀
      · exact hhandle' r hr
    · rw [hrows, Table.find?_put] at hr
      split at hr
      · cases hr
        rfl
      · exact hhandle' r hr
  · obtain ⟨r₀, hr₀, hrows, -⟩ | ⟨hrows, -⟩ := resolveOrMint_rows h
    · exact huser' u (hrows ▸ hu)
    · rw [hrows, Table.find?_put] at hu
      split at hu
      · cases hu
        rfl
      · exact huser' u hu

theorem fresh_resolveOrMint {mint mint' : Mint} {tenant : TenantKey} {user : LarkUserId}
    {openId : LarkOpenId} {c : ShadowColleague}
    (h : resolveOrMint mint org tenant user openId s = .ok (c, s')) (hu : mint.user ≠ mint'.user)
    (hc : mint.colleague ≠ mint'.colleague) (hfresh : mint'.fresh s = true) :
    mint'.fresh s' = true := by
  obtain ⟨hthread, hcolleague⟩ := Mint.fresh_iff.mp hfresh
  refine Mint.fresh_iff.mpr ⟨?_, fun r hr => ?_⟩
  · obtain ⟨r₀, -, -, -, ht, -⟩ | ⟨-, -, ht, -⟩ := resolveOrMint_rows h <;> rwa [ht]
  · obtain ⟨r₀, -, -, hrows, -⟩ | ⟨-, hrows, -⟩ := resolveOrMint_rows h
    · exact hcolleague r (hrows ▸ hr)
    · rw [hrows, Table.mem_put] at hr
      obtain rfl | ⟨hr, -⟩ := hr
      · exact ⟨hu, hc⟩
      · exact hcolleague r hr

structure Within (org : OrgId) (s t : BridgeSt) : Prop where
  closed : Sealed t
  foreign : ∀ org' ≠ org, t.only org' = s.only org'
  user : ∀ tenant user, ownUser org tenant user s = true → ownUser org tenant user t = true

theorem Within.refl (hs : Sealed s) : Within org s s := ⟨hs, fun _ _ => rfl, fun _ _ h => h⟩

theorem Within.trans {t : BridgeSt} (h : Within org s s') (h' : Within org s' t) :
    Within org s t :=
  ⟨h'.closed, fun org' hne => (h'.foreign org' hne).trans (h.foreign org' hne),
    fun tenant user hown => h'.user tenant user (h.user tenant user hown)⟩

theorem within_resolveOrMint {mint : Mint} {tenant : TenantKey} {user : LarkUserId}
    {openId : LarkOpenId} {c : ShadowColleague} (hs : Sealed s) (hfresh : mint.fresh s = true)
    (hown : ownUser org tenant user s = true)
    (h : resolveOrMint mint org tenant user openId s = .ok (c, s')) : Within org s s' where
  closed := (resolveOrMint_keeps hs hfresh h).1.closed
  foreign org' hne := (resolveOrMint_confined hown).foreign org' hne c s' h
  user _ _ hown' := ownUser_resolveOrMint h hown hown'

theorem within_ensureChannel {mint : Mint} {tenant : TenantKey} {chat : LarkChatId}
    {channel : ChannelId} (hs : Sealed s)
    (h : ensureChannel mint org tenant chat s = .ok (channel, s')) : Within org s s' where
  closed := (ensureChannel_keeps hs h).closed
  foreign org' hne := ensureChannel_confined.foreign org' hne channel s' h
  user _ _ hown := by
    obtain ⟨hu, -, hh, -⟩ := ensureChannel_frame h
    rw [ownUser, hh, hu]
    exact hown

structure Synced (org : OrgId) (ev : ChatMemberEvent) (ms : List Member) (s : BridgeSt) : Prop where
  closed : Sealed (syncMembers org ev ms s)
  own : syncMembers org ev ms (s.only org) = (syncMembers org ev ms s).only org
  foreign : ∀ org' ≠ org, (syncMembers org ev ms s).only org' = s.only org'
  user : ∀ tenant user, ownUser org tenant user s = true →
    ownUser org tenant user (syncMembers org ev ms s) = true

theorem Synced.within {ms : List Member} (h : Synced org ev ms s) :
    Within org s (syncMembers org ev ms s) :=
  ⟨h.closed, h.foreign, h.user⟩

theorem Within.synced {ms : List Member} (h : Within org s s')
    (heq : syncMembers org ev ms s = s')
    (hown : syncMembers org ev ms (s.only org) = s'.only org) : Synced org ev ms s := by
  subst heq
  exact ⟨h.closed, hown, h.foreign, h.user⟩

theorem synced (ms : List Member) (hs : Sealed s)
    (hown : ∀ m ∈ ms, ownUser org ev.tenantKey m.user s = true)
    (hfresh : ∀ m ∈ ms, m.mint.fresh s = true) (husers : (ms.map (·.mint.user)).Nodup)
    (hcolleagues : (ms.map (·.mint.colleague)).Nodup) : Synced org ev ms s := by
  induction ms generalizing s with
  | nil => exact (Within.refl hs).synced rfl rfl
  | cons m ms ih =>
    have hm := hown m List.mem_cons_self
    have hconfined : Confined org (resolveOrMint m.mint org ev.tenantKey m.user m.openId) s :=
      resolveOrMint_confined hm
    cases hmint : resolveOrMint m.mint org ev.tenantKey m.user m.openId s with
    | error err =>
      refine (Within.refl hs).synced ?_ ?_
      · simp only [syncMembers, hmint]
      · simp only [syncMembers, hconfined.own, hmint, Except.map]
    | ok r =>
      obtain ⟨c, s₁⟩ := r
      have hminted := within_resolveOrMint hs (hfresh m List.mem_cons_self) hm hmint
      have hchannel : Confined org (ensureChannel m.mint org ev.tenantKey ev.chatId) s₁ :=
        ensureChannel_confined
      cases hensure : ensureChannel m.mint org ev.tenantKey ev.chatId s₁ with
      | error err =>
        refine hminted.synced ?_ ?_
        · simp only [syncMembers, hmint, hensure]
        · simp only [syncMembers, hconfined.own, hmint, Except.map, hchannel.own, hensure]
      | ok r =>
        obtain ⟨channel, s₂⟩ := r
        have hwritten := hminted.trans (within_ensureChannel hminted.closed hensure)
        obtain ⟨-, hc, -, ht⟩ := ensureChannel_frame hensure
        obtain ⟨hu₁, hus⟩ := List.nodup_cons.mp husers
        obtain ⟨hc₁, hcs⟩ := List.nodup_cons.mp hcolleagues
        have hfresh₂ : ∀ m' ∈ ms, m'.mint.fresh s₂ = true := by
          intro m' hm'
          rw [Mint.fresh, ht, hc]
          exact fresh_resolveOrMint hmint
            (fun e => hu₁ (List.mem_map.mpr ⟨m', hm', e.symm⟩))
            (fun e => hc₁ (List.mem_map.mpr ⟨m', hm', e.symm⟩))
            (hfresh m' (List.mem_cons_of_mem m hm'))
        have hrest := ih hwritten.closed
          (fun m' hm' => hwritten.user _ _ (hown m' (List.mem_cons_of_mem m hm'))) hfresh₂ hus hcs
        refine (hwritten.trans hrest.within).synced ?_ ?_
        · simp only [syncMembers, hmint, hensure]
        · rw [← hrest.own]
          simp only [syncMembers, hconfined.own, hmint, Except.map, hchannel.own, hensure]

theorem processed_joined {members : List Member} (hs : Sealed s)
    (hown : own d s (.joined ev members) = true)
    (hfresh : (LarkEvent.joined ev members).fresh s = true) :
    Processed d (.joined ev members) s := by
  cases happ : d.apps.find? fun app => app.appId = ev.appId with
  | none =>
    have heq : ∀ s, processEvent d (.joined ev members) s = s := fun s => by
      simp only [processEvent, syncOnJoin, happ]
    refine ⟨(heq s).symm ▸ hs, fun org _ => by rw [heq, heq], fun org _ => by rw [heq], ?_⟩
    intro app h
    rw [happ] at h
    cases h
  | some app =>
    have heq : ∀ s, processEvent d (.joined ev members) s = syncMembers app.orgId ev members s :=
      fun s => by simp only [processEvent, syncOnJoin, happ]
    have horg : ∀ org, (LarkEvent.joined ev members).ofOrg d org = decide (app.orgId = org) :=
      fun org => by rw [LarkEvent.ofOrg, LarkEvent.app, happ]; rfl
    simp only [own, happ, Option.all_some, List.all_eq_true] at hown
    simp only [LarkEvent.fresh, Bool.and_eq_true, List.all_eq_true, decide_eq_true_eq] at hfresh
    have hsync : Synced app.orgId ev members s :=
      synced members hs hown hfresh.1.1 hfresh.1.2 hfresh.2
    refine ⟨?_, fun org ho => ?_, fun org ho => ?_, fun app' happ' m hm h hh => ?_⟩
    · rw [heq]
      exact hsync.closed
    · obtain rfl : app.orgId = org := by simpa [horg] using ho
      rw [heq, heq, hsync.own]
    · rw [heq]
      refine hsync.foreign org fun e => ?_
      simp [horg, e] at ho
    · obtain rfl : app = app' := by simpa [happ] using happ'
      have hstate : syncOnJoin d ev members s = syncMembers app.orgId ev members s := heq s
      rw [hstate] at hh ⊢
      have horg' := (ownUser_iff.mp (hsync.user _ _ (hown m hm))).1 h hh
      exact ⟨horg', horg' ▸ hsync.closed.handle h (Table.mem_of_find? hh)⟩

theorem processed (hs : Sealed s) (hown : own d s e = true) (hfresh : e.fresh s = true) :
    Processed d e s := by
  cases e with
  | message w mint => exact processed_message hs hown hfresh
  | joined ev members => exact processed_joined hs hown hfresh
  | other => exact ⟨hs, fun _ _ => rfl, fun _ _ => rfl, trivial⟩

theorem bridgeStep_eq_some : bridgeStep d s e = some s' ↔
    e.fresh s = true ∧ processEvent d e s = s' := by
  unfold bridgeStep
  split <;> simp [*]

theorem run_only {es : List LarkEvent} (hs : Sealed s)
    (hown : Steps (bridgeStep d) (fun s e => own d s e = true) s es)
    (hrun : run (bridgeStep d) s es = some s') (org : OrgId) :
    s'.only org
      = (es.filter (·.ofOrg d org)).foldl (fun s e => processEvent d e s) (s.only org) := by
  induction es generalizing s with
  | nil =>
    cases hrun
    rfl
  | cons e es ih =>
    obtain ⟨s₁, hstep, hrest⟩ := Option.bind_eq_some_iff.mp hrun
    obtain ⟨he, hown'⟩ := hown s₁ hstep
    obtain ⟨hfresh, rfl⟩ := bridgeStep_eq_some.mp hstep
    have hp := processed hs he hfresh
    rw [ih hp.closed hown' hrest]
    cases horg : e.ofOrg d org with
    | true => rw [List.filter_cons_of_pos horg, List.foldl_cons, hp.own org horg]
    | false => rw [List.filter_cons_of_neg (by simp [horg]), hp.foreign org horg]

theorem steps_local {es : List LarkEvent} (hs : Sealed s)
    (hown : Steps (bridgeStep d) (fun s e => own d s e = true) s es) :
    Steps (bridgeStep d) (fun s e => e.ofOrg d org = true → Local d s e) s es := by
  induction es generalizing s with
  | nil => trivial
  | cons e es ih =>
    intro s₁ hstep
    obtain ⟨he, hown'⟩ := hown s₁ hstep
    obtain ⟨hfresh, rfl⟩ := bridgeStep_eq_some.mp hstep
    have hp := processed hs he hfresh
    exact ⟨fun _ => hp.here, ih hp.closed hown'⟩

/-- Organisations whose bots are each first with their users and threads do not meet. -/
theorem independent_of_own {s₀ s₀' : BridgeSt} {es es' : List LarkEvent} (hs : Sealed s₀)
    (hs' : Sealed s₀') (hview : s₀.only org = s₀'.only org)
    (hsame : es.filter (·.ofOrg d org) = es'.filter (·.ofOrg d org))
    (hown : Steps (bridgeStep d) (fun s e => own d s e = true) s₀ es)
    (hown' : Steps (bridgeStep d) (fun s e => own d s e = true) s₀' es') :
    Independent d org s₀ es s₀' es' := by
  intro s s' hrun hrun'
  refine ⟨?_, steps_local hs hown, steps_local hs' hown'⟩
  rw [run_only hs hown hrun, run_only hs' hown' hrun', hview, hsame]

theorem sealed_init : Sealed .init := by
  constructor <;> intro r hr <;> exact absurd hr (Table.not_mem_empty r)

def sharedTenant : TenantKey := ⟨"t-shared", by decide, by decide, by decide⟩
def sharedChat : LarkChatId := ⟨"oc-hall", by decide, by decide, by decide⟩
def botOf (org : OrgId) : LarkApp :=
  ⟨if org = 1 then ⟨"cli-one", by decide, by decide, by decide⟩
    else ⟨"cli-two", by decide, by decide, by decide⟩, org, 10 + org⟩
def sharedDeps : BridgeDeps :=
  ⟨[botOf 1, botOf 2], fun _ agent => 20 + agent, fun w => w.event.text⟩
def ada : LarkUserId := ⟨"ada", by decide, by decide, by decide⟩
def bob : LarkUserId := ⟨"bob", by decide, by decide, by decide⟩
def openAda : LarkOpenId := ⟨"ou-ada", by decide, by decide, by decide⟩
def greeting : LarkMessageId := ⟨"om-hello", by decide, by decide, by decide⟩
def farewell : LarkMessageId := ⟨"om-bye", by decide, by decide, by decide⟩

def heard (org : OrgId) (user : LarkUserId) (message : LarkMessageId) : LarkEvent :=
  .message ⟨⟨message, (botOf org).appId, sharedTenant, openAda, some user, "user", sharedChat,
    "p2p", message, none, "hello", []⟩, none⟩
    ⟨org + 100, org + 110, org + 120, org + 130, org + 140, org + 150, org + 160⟩

/-- The second organisation's bot hears a message after the first one's, and has nothing of it. -/
theorem not_independent : ¬ ∀ (d : BridgeDeps) (org : OrgId) (es es' : List LarkEvent),
    es.filter (·.ofOrg d org) = es'.filter (·.ofOrg d org) →
      Independent d org .init es .init es' := by
  intro h
  obtain ⟨s, hs⟩ : ∃ s, run (bridgeStep sharedDeps) .init [heard 2 ada greeting] = some s :=
    Option.isSome_iff_exists.mp (by decide +kernel)
  obtain ⟨s', hs'⟩ : ∃ s, run (bridgeStep sharedDeps) .init
      [heard 1 ada greeting, heard 2 ada greeting] = some s :=
    Option.isSome_iff_exists.mp (by decide +kernel)
  have hviews : (run (bridgeStep sharedDeps) .init [heard 2 ada greeting]).map (·.only 2)
      ≠ (run (bridgeStep sharedDeps) .init
        [heard 1 ada greeting, heard 2 ada greeting]).map (·.only 2) := by decide +kernel
  rw [hs, hs'] at hviews
  exact hviews (congrArg some (h sharedDeps 2 _ _ (by decide +kernel) s s' hs hs').1)

theorem independent_of_own_two : Independent sharedDeps 2 .init
    [heard 1 ada greeting, heard 2 bob farewell] .init [heard 2 bob farewell] :=
  independent_of_own sealed_init sealed_init rfl (by decide +kernel) (by decide +kernel)
    (by decide +kernel)

end Patom.Lark
