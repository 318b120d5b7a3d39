import Patom.Foundation.Slice
import Patom.Slack.Bridge

/-! One Slack message or slash submit, delivered and attempted any number of times. -/

open Patom.Foundation
open Patom.Runtime (IdempotencyKey)

namespace Patom.Slack

/-- What Slack may deliver several times. -/
inductive Item
  | message (e : InboundEvent)
  | submit (s : SlashCommandSubmit)
  deriving DecidableEq

def Item.deliveries : Item → List Delivery
  | .message e =>
    [.event { e with source := .appMention }, .event { e with source := .threadMessage }]
  | .submit s => [.slash s]

structure Attempt where
  delivery : Delivery
  mint : Mint
  pc : Pc
  deriving DecidableEq

instance attemptKeyed : Keyed Attempt ThreadId := ⟨(·.mint.thread)⟩

structure BridgeSt where
  db : Db
  attempts : Table Attempt
  deriving DecidableEq

inductive Act
  | deliver (x : Delivery) (mint : Mint)
  | step (id : ThreadId)
  | stop (id : ThreadId)
  deriving DecidableEq

/-- Identifiers are drawn at random, and Slack gives no `ts` twice. -/
def Mint.unused (m : Mint) (x : Delivery) (s : BridgeSt) : Bool :=
  (s.db.threads.find? m.thread).isNone && (s.db.feed.find? m.message).isNone
    && (s.db.participations.rows.all fun p => p.threadId ≠ m.thread)
    && (lookupByThread (x.teamId, x.channelId, m.mirror) s.db).isNone
    && s.attempts.rows.all fun a =>
      a.mint.thread ≠ m.thread && a.mint.message ≠ m.message && a.mint.mirror ≠ m.mirror

def BridgeSt.put (a : Attempt) (s : BridgeSt) : BridgeSt :=
  { s with attempts := s.attempts.put a }

def BridgeSt.advance (d : BridgeDeps) (a : Attempt) (s : BridgeSt) : BridgeSt :=
  let (pc, db) := Slack.advance d a.delivery a.mint s.db a.pc
  { db, attempts := s.attempts.put { a with pc } }

def Pc.ended : Pc → Bool
  | .done | .failed _ => true
  | .entry | .channel _ | .lookup _ _ | .lastAgent _ _ | .create _ _ _ | .bind _ _ _
  | .check _ _ _ | .append _ _ _ _ _ | .participation _ _ _ _ | .enqueue _ _ _ _ _ => false

def bridgeStep (d : BridgeDeps) (item : Item) : Step BridgeSt Act
  | s, .deliver x m =>
    if x ∈ item.deliveries ∧ m.unused x s then some (s.put ⟨x, m, .entry⟩) else none
  | s, .step id => (s.attempts.find? id).map (s.advance d)
  | s, .stop id => ((s.attempts.find? id).filter fun a => !a.pc.ended).map fun a =>
    s.put { a with pc := .failed (.internal "stopped") }

def settled (s : BridgeSt) : Bool :=
  !s.attempts.rows.isEmpty && s.attempts.rows.all fun a =>
    a.pc.ended && s.attempts.rows.any fun b => b.delivery = a.delivery && b.pc = .done

structure Agrees (db db' : Db) : Prop where
  threads : db.threads = db'.threads
  bindings : db.bindings = db'.bindings
  feed : db.feed = db'.feed
  triggers : db.triggers = db'.triggers

/-- One of the deliveries, handled once with suitable draws, leaves what all attempts left, and
whatever was enqueued is of the thread bound to the Slack thread. -/
def OnceFrom (d : BridgeDeps) (db₀ : Db) (s : BridgeSt) : Prop :=
  ∃ a ∈ s.attempts, ∃ m, Agrees (handleOnce d a.delivery m db₀) s.db
    ∧ ∀ t ∈ s.db.triggers, t ∉ db₀.triggers →
      lookupByThread (a.delivery.threadKey m) s.db = some t.threadId

/-- A thread is created when no attempt has made one, a row appended when none has. -/
def orderly (s : BridgeSt) : Act → Bool
  | .deliver _ _ | .stop _ => true
  | .step id => (s.attempts.find? id).all fun a =>
    match a.pc with
    | .create _ _ _ => s.attempts.rows.all fun b => (s.db.threads.find? b.mint.thread).isNone
    | .append _ _ _ _ _ => s.attempts.rows.all fun b => (s.db.feed.find? b.mint.message).isNone
    | _ => true

variable {d : BridgeDeps} {item : Item} {x y : Delivery} {m m' : Mint} {db db' db₀ : Db} {w : Who}
  {c : Caller} {thread : ThreadId} {agent : AgentId} {ch : ChannelId} {k : IdempotencyKey}
  {prompt : Prompt} {pc pc' : Pc} {n : Nat}

/-- Deliveries of one item differ in how they find the agent, and in whether they may create. -/
structure Alike (d : BridgeDeps) (x y : Delivery) : Prop where
  teamId : x.teamId = y.teamId
  channelId : x.channelId = y.channelId
  key : x.idempotencyKey = y.idempotencyKey
  anchor : ∀ m, x.anchor m = y.anchor m
  enter : ∀ db, enter d db x = enter d db y
  submission : ∀ c, submission d c x = submission d c y

theorem alike (hx : x ∈ item.deliveries) (hy : y ∈ item.deliveries) : Alike d x y := by
  cases item with
  | message e =>
    simp only [Item.deliveries, List.mem_cons, List.not_mem_nil, or_false] at hx hy
    rcases hx with rfl | rfl <;> rcases hy with rfl | rfl <;>
      exact ⟨rfl, rfl, rfl, fun _ => rfl, fun _ => rfl, fun _ => rfl⟩
  | submit s =>
    simp only [Item.deliveries, List.mem_cons, List.not_mem_nil, or_false] at hx hy
    subst hx hy
    exact ⟨rfl, rfl, rfl, fun _ => rfl, fun _ => rfl, fun _ => rfl⟩

theorem Alike.threadKey (h : Alike d x y) (m : Mint) : x.threadKey m = y.threadKey m := by
  rw [Delivery.threadKey, Delivery.threadKey, h.teamId, h.channelId, h.anchor]

structure SameRest (db db' : Db) : Prop where
  threads : db'.threads = db.threads
  bindings : db'.bindings = db.bindings
  feed : db'.feed = db.feed
  participations : db'.participations = db.participations
  triggers : db'.triggers = db.triggers

theorem ensureChannel_rest {org : OrgId} {team : SlackTeamId} {channel : SlackChannelId}
    (h : ensureChannel m org team channel db = .ok (ch, db')) : SameRest db db' := by
  unfold ensureChannel at h
  cases hname : channelNameFor channel with
  | error e => simp [hname] at h
  | ok name =>
    cases hmap : db.slackChannels.find? (org, team, channel) with
    | some r =>
      simp only [hname, hmap, Except.ok.injEq, Prod.mk.injEq] at h
      exact h.2 ▸ ⟨rfl, rfl, rfl, rfl, rfl⟩
    | none =>
      simp only [hname, hmap, Except.ok.injEq, Prod.mk.injEq] at h
      exact h.2 ▸ ⟨rfl, rfl, rfl, rfl, rfl⟩

theorem ensureChannel_congr {org : OrgId} {team : SlackTeamId} {channel : SlackChannelId}
    (hc : db.channels = db₀.channels) (hs : db.slackChannels = db₀.slackChannels)
    (h : ensureChannel m org team channel db = .ok (ch, db')) :
    ∃ db₁, ensureChannel m org team channel db₀ = .ok (ch, db₁) := by
  unfold ensureChannel at h ⊢
  rw [hc, hs] at h
  cases hname : channelNameFor channel with
  | error e => simp [hname] at h
  | ok name =>
    cases hmap : db₀.slackChannels.find? (org, team, channel) with
    | some r =>
      simp only [hname, hmap, Except.ok.injEq, Prod.mk.injEq] at h ⊢
      exact ⟨db₀, h.1, rfl⟩
    | none =>
      simp only [hname, hmap, Except.ok.injEq, Prod.mk.injEq] at h ⊢
      exact ⟨_, h.1, rfl⟩

theorem ensureChannel_mapped {org : OrgId} {team : SlackTeamId} {channel : SlackChannelId}
    (h : ensureChannel m org team channel db = .ok (ch, db')) :
    ∃ r, db'.slackChannels.find? (org, team, channel) = some r ∧ r.channelId = ch := by
  unfold ensureChannel at h
  cases hname : channelNameFor channel with
  | error e => simp [hname] at h
  | ok name =>
    cases hmap : db.slackChannels.find? (org, team, channel) with
    | some r =>
      simp only [hname, hmap, Except.ok.injEq, Prod.mk.injEq] at h
      obtain ⟨rfl, rfl⟩ := h
      exact ⟨r, hmap, rfl⟩
    | none =>
      simp only [hname, hmap, Except.ok.injEq, Prod.mk.injEq] at h
      obtain ⟨rfl, rfl⟩ := h
      refine ⟨⟨org, team, channel, _⟩, ?_, rfl⟩
      rw [Table.find?_addNew, hmap, Option.none_or]
      exact if_pos rfl

theorem ensureChannel_of_mapped {org : OrgId} {team : SlackTeamId} {channel : SlackChannelId}
    {r : SlackChannel} (hr : db.slackChannels.find? (org, team, channel) = some r)
    (h : ensureChannel m org team channel db = .ok (ch, db')) : ch = r.channelId ∧ db' = db := by
  unfold ensureChannel at h
  cases hname : channelNameFor channel with
  | error e => simp [hname] at h
  | ok name =>
    simp only [hname, hr, Except.ok.injEq, Prod.mk.injEq] at h
    exact ⟨h.1.symm, h.2.symm⟩

structure Known (d : BridgeDeps) (db₀ : Db) (x : Delivery) (w : Who) : Prop where
  entered : enter d db₀ x = .channel w.caller
  who : d.resolveUser w.orgId w.caller.userId = some w.colleague

def ChannelOk (db₀ : Db) (x : Delivery) (c : Caller) (ch : ChannelId) : Prop :=
  ∃ m db₁, ensureChannel m c.workspace.orgId x.teamId x.channelId db₀ = .ok (ch, db₁)

def Chosen (d : BridgeDeps) (db₀ : Db) (w : Who) (thread : ThreadId) (agent : AgentId) :
    Delivery → Prop
  | .slash s => agent = s.agentId
  | .event e =>
    match e.source with
    | .appMention => resolveMentionOrRecruiter d w.caller e = .ok agent
    | .threadMessage => lastAgent thread db₀ = some agent

def Delivery.creates : Delivery → Bool
  | .event e => e.source = .appMention
  | .slash _ => true

def Delivery.isTop : Delivery → Bool
  | .event _ => false
  | .slash s => s.threadTs.isNone

theorem advances_done (x : Delivery) (m : Mint) (n : Nat) (db : Db) :
    advances d x m n (.done, db) = (.done, db) := by
  induction n with
  | zero => rfl
  | succ n ih => exact ih

theorem advances_head (henter : enter d db₀ x = .channel c)
    (hch : ensureChannel m c.workspace.orgId x.teamId x.channelId db₀ = .ok (ch, db)) :
    advances d x m (n + 2) (.entry, db₀) = advances d x m n (located d c ch x, db) := by
  simp only [advances, advance, henter, hch]

theorem advances_lookup (hwho : d.resolveUser w.orgId w.caller.userId = some w.colleague) :
    advances d x m (n + 1) (.lookup w.caller ch, db)
      = advances d x m n (routed d w ch (lookupByThread (x.threadKey m) db) x, db) := by
  simp only [Who.orgId] at hwho
  simp only [advances, advance, hwho]

theorem located_eq (x : Delivery) (ch : ChannelId)
    (hwho : d.resolveUser w.orgId w.caller.userId = some w.colleague) :
    (x.isTop = false ∧ located d w.caller ch x = .lookup w.caller ch)
      ∨ ∃ s, x = .slash s ∧ x.isTop = true
        ∧ located d w.caller ch x = .create w s.agentId ch := by
  simp only [Who.orgId] at hwho
  cases x with
  | event e => exact .inl ⟨rfl, rfl⟩
  | slash s =>
    cases hts : s.threadTs with
    | some ts =>
      refine .inl ⟨?_, ?_⟩
      · simp [Delivery.isTop, hts]
      · simp only [located, hts]
    | none =>
      refine .inr ⟨s, rfl, ?_, ?_⟩
      · simp [Delivery.isTop, hts]
      · simp only [located, hts, hwho]

theorem lastAgent_congr (h : db.participations = db₀.participations) :
    lastAgent thread db = lastAgent thread db₀ := by
  rw [lastAgent, lastAgent, h]

theorem advances_found (hk : Known d db₀ x w) (htop : x.isTop = false)
    (hch : ensureChannel m w.orgId x.teamId x.channelId db₀ = .ok (ch, db))
    (hfound : lookupByThread (x.threadKey m) db₀ = some thread)
    (hagent : Chosen d db₀ w thread agent x) :
    ∃ n, advances d x m STEPS (.entry, db₀)
      = advances d x m (n + 4) (.check w agent thread, db) := by
  have hrest := ensureChannel_rest hch
  have hlookup : lookupByThread (x.threadKey m) db = some thread := by
    rw [lookupByThread, hrest.bindings]
    exact hfound
  have hlocated : located d w.caller ch x = .lookup w.caller ch := by
    obtain ⟨-, h⟩ | ⟨s, -, h, -⟩ := located_eq x ch hk.who
    · exact h
    · rw [htop] at h
      cases h
  have hhead : advances d x m STEPS (.entry, db₀)
      = advances d x m 6 (routed d w ch (some thread) x, db) := by
    rw [← hlookup, ← advances_lookup hk.who, ← hlocated]
    exact advances_head hk.entered hch
  rw [hhead]
  cases x with
  | slash s =>
    obtain rfl := hagent
    exact ⟨2, rfl⟩
  | event e =>
    cases hsource : e.source with
    | appMention =>
      simp only [Chosen, hsource] at hagent
      refine ⟨2, ?_⟩
      simp only [routed, hsource, hagent]
    | threadMessage =>
      simp only [Chosen, hsource] at hagent
      refine ⟨1, ?_⟩
      have hlast := (lastAgent_congr hrest.participations).trans hagent
      simp only [routed, hsource]
      rw [advances]
      simp only [advance, hlast]

theorem advances_created {threads : Table PatomThread} (hk : Known d db₀ x w)
    (hcreates : x.creates = true)
    (hch : ensureChannel m w.orgId x.teamId x.channelId db₀ = .ok (ch, db))
    (hnone : lookupByThread (x.threadKey m) db₀ = none)
    (hagent : Chosen d db₀ w m.thread agent x)
    (hinsert : db₀.threads.insert? ⟨m.thread, w.orgId, ch, w.colleague⟩ = some threads) :
    ∃ n, advances d x m STEPS (.entry, db₀) = advances d x m (n + 4) (.check w agent m.thread,
      Slack.bind w.orgId (x.threadKey m) m.thread { db with threads }) := by
  have hrest := ensureChannel_rest hch
  have hlookup : lookupByThread (x.threadKey m) db = none := by
    rw [lookupByThread, hrest.bindings]
    exact hnone
  have hcreate : ∀ n, advances d x m (n + 2) (.create w agent ch, db)
      = advances d x m n (.check w agent m.thread,
        Slack.bind w.orgId (x.threadKey m) m.thread { db with threads }) := by
    intro n
    rw [← hrest.threads] at hinsert
    simp only [advances, advance, hinsert]
  have hhead : advances d x m STEPS (.entry, db₀)
      = advances d x m 7 (located d w.caller ch x, db) := advances_head hk.entered hch
  rw [hhead]
  obtain ⟨-, hlocated⟩ | ⟨s, rfl, -, hlocated⟩ := located_eq x ch hk.who
  · have hrouted : routed d w ch none x = .create w agent ch := by
      cases x with
      | slash s =>
        obtain rfl := hagent
        rfl
      | event e =>
        have hsource : e.source = .appMention := by simpa [Delivery.creates] using hcreates
        simp only [Chosen, hsource] at hagent
        simp only [routed, hsource, hagent]
    refine ⟨0, ?_⟩
    rw [hlocated, advances_lookup hk.who, hlookup, hrouted, hcreate]
  · obtain rfl := hagent
    exact ⟨1, by rw [hlocated, hcreate]⟩

theorem advances_dropped (hk : Known d db₀ x w) (hcreates : x.creates = false)
    (hch : ensureChannel m w.orgId x.teamId x.channelId db₀ = .ok (ch, db))
    (hnone : lookupByThread (x.threadKey m) db₀ = none) :
    advances d x m STEPS (.entry, db₀) = (.done, db) := by
  have hrest := ensureChannel_rest hch
  have hlookup : lookupByThread (x.threadKey m) db = none := by
    rw [lookupByThread, hrest.bindings]
    exact hnone
  cases x with
  | slash s => cases hcreates
  | event e =>
    have hsource : e.source = .threadMessage := by
      cases hs : e.source with
      | threadMessage => rfl
      | appMention => simp [Delivery.creates, hs] at hcreates
    have hhead : advances d (.event e) m STEPS (.entry, db₀)
        = advances d (.event e) m 7 (.lookup w.caller ch, db) := advances_head hk.entered hch
    rw [hhead, advances_lookup hk.who, hlookup]
    simp only [routed, hsource]
    exact advances_done _ _ _ _

theorem advances_duplicate (hsub : submission d w.caller x = .ok (k, prompt))
    (htrigger : triggerExists w.orgId k db = true) :
    advances d x m (n + 4) (.check w agent thread, db) = (.done, db) := by
  rw [advances]
  simp only [advance, hsub, htrigger, if_true]
  exact advances_done _ _ _ _

theorem resolveParticipation_congr (m : Mint) (thread : ThreadId) (agent : AgentId)
    (h : db.participations = db₀.participations) :
    (resolveParticipation m thread agent db).1 = (resolveParticipation m thread agent db₀).1
      ∧ (resolveParticipation m thread agent db).2 = { db with
        participations := (resolveParticipation m thread agent db₀).2.participations } := by
  unfold resolveParticipation
  rw [← h]
  cases hrow : db.participations.find? (thread, agent) with
  | some p => exact ⟨rfl, congrArg (fun rows => { db with participations := rows }) h⟩
  | none => exact ⟨rfl, rfl⟩

def triggerRow (m : Mint) (w : Who) (agent : AgentId) (thread : ThreadId) (k : IdempotencyKey)
    (state : AgentThreadId) : Trigger :=
  ⟨w.orgId, k, m.request, w.caller.userId, thread, state, w.colleague, agent, m.message⟩

theorem advances_submitted {receiver : ColleagueId} {feed : Table FeedRow}
    (hsub : submission d w.caller x = .ok (k, prompt))
    (htrigger : triggerExists w.orgId k db = false)
    (hreceiver : d.resolveAgent w.orgId agent = some receiver)
    (hinsert : db.feed.insert? ⟨m.message, thread, w.colleague, receiver, prompt⟩ = some feed) :
    ∃ participations, advances d x m (n + 4) (.check w agent thread, db) = (.done, { db with
      feed
      participations
      triggers := db.triggers.addNew
        (triggerRow m w agent thread k (resolveParticipation m thread agent db).1) }) := by
  have hsame : ({ db with feed } : Db).participations = db.participations := rfl
  obtain ⟨hstate, hrows⟩ := resolveParticipation_congr m thread agent hsame
  refine ⟨(resolveParticipation m thread agent db).2.participations, ?_⟩
  have hstep : advances d x m (n + 4) (.check w agent thread, db)
      = advances d x m n (.done, { (resolveParticipation m thread agent { db with feed }).2 with
        triggers := (resolveParticipation m thread agent { db with feed }).2.triggers.addNew
          (triggerRow m w agent thread k
            (resolveParticipation m thread agent { db with feed }).1) }) := by
    simp only [advances, advance, hsub, htrigger, hreceiver, hinsert, Bool.false_eq_true,
      if_false]
    rfl
  rw [hstep, advances_done, hstate, hrows]

end Patom.Slack

namespace Patom.Slack

variable {d : BridgeDeps} {item : Item} {x : Delivery} {m : Mint} {db db' db₀ : Db} {w : Who}
  {c : Caller} {thread : ThreadId} {agent : AgentId} {ch : ChannelId} {k : IdempotencyKey}
  {prompt : Prompt} {receiver : ColleagueId} {pc pc' : Pc} {a b : Attempt} {s t : BridgeSt}

def Attempt.threadKey (a : Attempt) : ThreadKey := a.delivery.threadKey a.mint

structure Grown (db db' : Db) : Prop where
  lookup : ∀ K thread, lookupByThread K db = some thread → lookupByThread K db' = some thread
  threads : ∀ id r, db.threads.find? id = some r → db'.threads.find? id = some r
  feed : ∀ id r, db.feed.find? id = some r → db'.feed.find? id = some r
  participations : ∀ id r, db.participations.find? id = some r →
    db'.participations.find? id = some r
  triggers : ∀ org k, triggerExists org k db = true → triggerExists org k db' = true

theorem Grown.refl (db : Db) : Grown db db :=
  ⟨fun _ _ => id, fun _ _ => id, fun _ _ => id, fun _ _ => id, fun _ _ => id⟩

theorem Grown.trans (h : Grown db₀ db) (h' : Grown db db') : Grown db₀ db' :=
  ⟨fun K t ht => h'.lookup K t (h.lookup K t ht), fun i r hr => h'.threads i r (h.threads i r hr),
    fun i r hr => h'.feed i r (h.feed i r hr),
    fun i r hr => h'.participations i r (h.participations i r hr),
    fun o k hk => h'.triggers o k (h.triggers o k hk)⟩

theorem SameRest.grown (h : SameRest db db') : Grown db db' where
  lookup K t := by rw [lookupByThread, lookupByThread, h.bindings]; exact id
  threads i r := by rw [h.threads]; exact id
  feed i r := by rw [h.feed]; exact id
  participations i r := by rw [h.participations]; exact id
  triggers o k := by rw [triggerExists, triggerExists, h.triggers]; exact id

theorem find?_insert?_mono {ρ κ : Type} [Keyed ρ κ] [DecidableEq κ] {rows rows' : Table ρ}
    {r r' : ρ} {i : κ} (h : rows.insert? r = some rows') (hr : rows.find? i = some r') :
    rows'.find? i = some r' := by
  rw [Table.find?_insert? h, if_neg, hr]
  rintro rfl
  have hnone := Table.insert?_isSome.mp (Option.isSome_of_eq_some h)
  rw [hr] at hnone
  cases hnone

theorem lookupByThread_bind {org : OrgId} {k K : ThreadKey} :
    lookupByThread K (Slack.bind org k thread db)
      = (lookupByThread K db).or (if k = K then some thread else none) :=
  Table.map_find?_addNew _ _ _ _

theorem grown_create {threads : Table PatomThread} {r : PatomThread}
    (h : db.threads.insert? r = some threads) : Grown db { db with threads } :=
  { Grown.refl db with threads := fun _ _ hr => find?_insert?_mono h hr }

theorem grown_bind (org : OrgId) (K : ThreadKey) (thread : ThreadId) (db : Db) :
    Grown db (Slack.bind org K thread db) :=
  { Grown.refl db with
    lookup := fun K' t ht => by rw [lookupByThread_bind, ht, Option.some_or] }

theorem grown_append {feed : Table FeedRow} {r : FeedRow} (h : db.feed.insert? r = some feed) :
    Grown db { db with feed } :=
  { Grown.refl db with feed := fun _ _ hr => find?_insert?_mono h hr }

theorem grown_participation (m : Mint) (thread : ThreadId) (agent : AgentId) (db : Db) :
    Grown db (resolveParticipation m thread agent db).2 := by
  unfold resolveParticipation
  cases h : db.participations.find? (thread, agent) with
  | some p => exact Grown.refl db
  | none =>
    refine { Grown.refl db with participations := fun i r hr => ?_ }
    rw [Table.find?_put, if_neg, hr]
    rintro rfl
    exact absurd (h.symm.trans hr) (by simp)

theorem grown_enqueue (r : Trigger) (db : Db) :
    Grown db { db with triggers := db.triggers.addNew r } :=
  { Grown.refl db with
    triggers := fun org k hk => by
      rw [triggerExists] at hk ⊢
      rw [Table.find?_addNew, Option.or_of_isSome hk]
      exact hk }

structure Fresh (db₀ : Db) (a : Attempt) : Prop where
  thread : db₀.threads.find? a.mint.thread = none
  message : db₀.feed.find? a.mint.message = none
  participation : ∀ p ∈ db₀.participations, p.threadId ≠ a.mint.thread
  mirror : lookupByThread (a.delivery.teamId, a.delivery.channelId, a.mint.mirror) db₀ = none

structure Bound (d : BridgeDeps) (db₀ db : Db) (a : Attempt) (w : Who) (agent : AgentId)
    (thread : ThreadId) : Prop where
  known : Known d db₀ a.delivery w
  channel : ∃ ch, ChannelOk db₀ a.delivery w.caller ch
  bound : lookupByThread a.threadKey db = some thread
  chosen : db.feed = db₀.feed → Chosen d db₀ w thread agent a.delivery

structure Makes (d : BridgeDeps) (db₀ : Db) (a : Attempt) (w : Who) (agent : AgentId)
    (ch : ChannelId) : Prop where
  known : Known d db₀ a.delivery w
  channel : ChannelOk db₀ a.delivery w.caller ch
  creates : a.delivery.creates = true
  unbound : lookupByThread a.threadKey db₀ = none
  chosen : ∀ thread, Chosen d db₀ w thread agent a.delivery

def madeRow (a : Attempt) (w : Who) (ch : ChannelId) : PatomThread :=
  ⟨a.mint.thread, w.orgId, ch, w.colleague⟩

def sentRow (a : Attempt) (w : Who) (thread : ThreadId) (prompt : Prompt)
    (receiver : ColleagueId) : FeedRow :=
  ⟨a.mint.message, thread, w.colleague, receiver, prompt⟩

structure Sends (d : BridgeDeps) (db₀ db : Db) (a : Attempt) (w : Who) (agent : AgentId)
    (thread : ThreadId) (k : IdempotencyKey) (prompt : Prompt) (receiver : ColleagueId) :
    Prop where
  known : Known d db₀ a.delivery w
  channel : ∃ ch, ChannelOk db₀ a.delivery w.caller ch
  chosen : Chosen d db₀ w thread agent a.delivery
  submitted : submission d w.caller a.delivery = .ok (k, prompt)
  free : triggerExists w.orgId k db₀ = false
  receives : d.resolveAgent w.orgId agent = some receiver
  bound : lookupByThread a.threadKey db = some thread
  row : db.feed.find? a.mint.message = some (sentRow a w thread prompt receiver)

inductive Finished (d : BridgeDeps) (db₀ db : Db) (a : Attempt) : Prop
  | outside (h : enter d db₀ a.delivery = .done)
  | dropped (w : Who) (hk : Known d db₀ a.delivery w)
      (hch : ∃ ch, ChannelOk db₀ a.delivery w.caller ch) (hcreates : a.delivery.creates = false)
      (hnone : lookupByThread a.threadKey db₀ = none)
  | resubmitted (w : Who) (k : IdempotencyKey) (hk : Known d db₀ a.delivery w)
      (hkey : a.delivery.idempotencyKey = .ok k) (htrigger : triggerExists w.orgId k db = true)
      (hslash : ∃ s, a.delivery = .slash s)
  | duplicate (w : Who) (agent : AgentId) (thread : ThreadId) (k : IdempotencyKey)
      (prompt : Prompt) (hb : Bound d db₀ db a w agent thread)
      (hsub : submission d w.caller a.delivery = .ok (k, prompt))
      (htrigger : triggerExists w.orgId k db = true)

def Holds (d : BridgeDeps) (db₀ db : Db) (a : Attempt) : Prop :=
  match a.pc with
  | .entry | .failed _ => True
  | .channel c => enter d db₀ a.delivery = .channel c
  | .lookup c ch => enter d db₀ a.delivery = .channel c ∧ ChannelOk db₀ a.delivery c ch
  | .lastAgent w thread => Known d db₀ a.delivery w
    ∧ (∃ ch, ChannelOk db₀ a.delivery w.caller ch) ∧ a.delivery.creates = false
    ∧ lookupByThread a.threadKey db = some thread
  | .create w agent ch => Makes d db₀ a w agent ch
  | .bind w agent thread => thread = a.mint.thread ∧ ∃ ch, Makes d db₀ a w agent ch
    ∧ db.threads.find? a.mint.thread = some (madeRow a w ch)
  | .check w agent thread => Bound d db₀ db a w agent thread
  | .append w agent thread k prompt => Bound d db₀ db a w agent thread
    ∧ submission d w.caller a.delivery = .ok (k, prompt) ∧ triggerExists w.orgId k db₀ = false
  | .participation w agent thread k =>
    ∃ prompt receiver, Sends d db₀ db a w agent thread k prompt receiver
  | .enqueue w agent thread k state =>
    (∃ prompt receiver, Sends d db₀ db a w agent thread k prompt receiver)
      ∧ ∀ p ∈ db₀.participations.find? (thread, agent), p.id = state
  | .done => Finished d db₀ db a

structure Created (d : BridgeDeps) (db₀ db : Db) (a : Attempt) (w : Who) (agent : AgentId)
    (ch : ChannelId) : Prop extends Makes d db₀ a w agent ch where
  inserted : db₀.threads.insert? (madeRow a w ch) = some db.threads
  binding : db.bindings = db₀.bindings
    ∨ db.bindings = (Slack.bind w.orgId a.threadKey a.mint.thread db₀).bindings

structure Posted (d : BridgeDeps) (db₀ db : Db) (a : Attempt) (w : Who) (agent : AgentId)
    (thread : ThreadId) (k : IdempotencyKey) (prompt : Prompt) (receiver : ColleagueId) :
    Prop extends Sends d db₀ db a w agent thread k prompt receiver where
  inserted : db₀.feed.insert? (sentRow a w thread prompt receiver) = some db.feed
  log : db.triggers = db₀.triggers ∨ ∃ state,
    db.triggers = db₀.triggers.addNew (triggerRow a.mint w agent thread k state)
      ∧ ∀ p ∈ db₀.participations.find? (thread, agent), p.id = state

def Made (d : BridgeDeps) (db₀ db : Db) (attempts : Table Attempt) : Prop :=
  (db.threads = db₀.threads ∧ db.bindings = db₀.bindings)
    ∨ ∃ a ∈ attempts, ∃ w agent ch, Created d db₀ db a w agent ch

def Logged (d : BridgeDeps) (db₀ db : Db) (attempts : Table Attempt) : Prop :=
  (db.feed = db₀.feed ∧ db.participations = db₀.participations ∧ db.triggers = db₀.triggers)
    ∨ ∃ a ∈ attempts, ∃ w agent thread k prompt receiver,
      Posted d db₀ db a w agent thread k prompt receiver

def Channelled (d : BridgeDeps) (item : Item) (db₀ db : Db) : Prop :=
  (db.channels = db₀.channels ∧ db.slackChannels = db₀.slackChannels)
    ∨ ∀ x ∈ item.deliveries, ∀ c, enter d db₀ x = .channel c →
      ∃ r, db.slackChannels.find? (c.workspace.orgId, x.teamId, x.channelId) = some r
        ∧ ChannelOk db₀ x c r.channelId

structure Inv (d : BridgeDeps) (item : Item) (db₀ : Db) (s : BridgeSt) : Prop where
  grown : Grown db₀ s.db
  listed : ∀ a ∈ s.attempts, a.delivery ∈ item.deliveries
  fresh : ∀ a ∈ s.attempts, Fresh db₀ a
  distinct : ∀ a ∈ s.attempts, ∀ b ∈ s.attempts, key a ≠ key b →
    a.mint.message ≠ b.mint.message ∧ a.mint.mirror ≠ b.mint.mirror
  holds : ∀ a ∈ s.attempts, Holds d db₀ s.db a
  channels : Channelled d item db₀ s.db
  made : Made d db₀ s.db s.attempts
  logged : Logged d db₀ s.db s.attempts

theorem Known.unique {w' : Who} (h : Known d db₀ x w) (h' : Known d db₀ x w') : w = w' := by
  obtain ⟨c, colleague⟩ := w
  obtain ⟨c', colleague'⟩ := w'
  have hc : c = c' := by
    have e := h.entered.symm.trans h'.entered
    simpa using e
  subst hc
  have e := h.who.symm.trans h'.who
  simpa using e

theorem Bound.mono (h : Bound d db₀ db a w agent thread) (hg : Grown db db')
    (hu : db'.feed = db₀.feed → db.feed = db₀.feed) : Bound d db₀ db' a w agent thread :=
  ⟨h.known, h.channel, hg.lookup _ _ h.bound, fun e => h.chosen (hu e)⟩

theorem Sends.mono (h : Sends d db₀ db a w agent thread k prompt receiver) (hg : Grown db db') :
    Sends d db₀ db' a w agent thread k prompt receiver :=
  ⟨h.known, h.channel, h.chosen, h.submitted, h.free, h.receives, hg.lookup _ _ h.bound,
    hg.feed _ _ h.row⟩

theorem Finished.mono (h : Finished d db₀ db a) (hg : Grown db db')
    (hu : db'.feed = db₀.feed → db.feed = db₀.feed) : Finished d db₀ db' a := by
  cases h with
  | outside h => exact .outside h
  | dropped w hk hch hcreates hnone => exact .dropped w hk hch hcreates hnone
  | resubmitted w k hk hkey htrigger hslash =>
    exact .resubmitted w k hk hkey (hg.triggers _ _ htrigger) hslash
  | duplicate w agent thread k prompt hb hsub htrigger =>
    exact .duplicate w agent thread k prompt (hb.mono hg hu) hsub (hg.triggers _ _ htrigger)

theorem Holds.mono (h : Holds d db₀ db a) (hg : Grown db db')
    (hu : db'.feed = db₀.feed → db.feed = db₀.feed) : Holds d db₀ db' a := by
  unfold Holds at h ⊢
  cases hpc : a.pc with
  | entry | failed e => trivial
  | channel c | lookup c ch | create w agent ch =>
    rw [hpc] at h
    exact h
  | lastAgent w thread =>
    rw [hpc] at h
    exact ⟨h.1, h.2.1, h.2.2.1, hg.lookup _ _ h.2.2.2⟩
  | bind w agent thread =>
    rw [hpc] at h
    obtain ⟨ht, ch, hm, hrow⟩ := h
    exact ⟨ht, ch, hm, hg.threads _ _ hrow⟩
  | check w agent thread =>
    rw [hpc] at h
    exact Bound.mono h hg hu
  | append w agent thread k prompt =>
    rw [hpc] at h
    exact ⟨h.1.mono hg hu, h.2⟩
  | participation w agent thread k =>
    rw [hpc] at h
    obtain ⟨prompt, receiver, hs⟩ := h
    exact ⟨prompt, receiver, hs.mono hg⟩
  | enqueue w agent thread k state =>
    rw [hpc] at h
    obtain ⟨⟨prompt, receiver, hs⟩, hp⟩ := h
    exact ⟨⟨prompt, receiver, hs.mono hg⟩, hp⟩
  | done =>
    rw [hpc] at h
    exact Finished.mono h hg hu

end Patom.Slack
