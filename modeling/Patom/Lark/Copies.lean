import Patom.Lark.Independence
import Patom.Lark.Isolation

open Patom.Foundation
open Patom.Runtime (IdempotencyKey)

namespace Patom.Lark

structure LarkEvents where
  all : List InboundWork
  distinct : ∀ w ∈ all, ∀ w' ∈ all, w.event.tenantKey = w'.event.tenantKey →
    w.event.eventId = w'.event.eventId → w = w'

structure Handler where
  job : Job
  pc : Pc
  deriving DecidableEq

instance handlerKeyed : Keyed Handler ThreadId := ⟨(·.job.mint.thread)⟩

structure ChatSt where
  db : BridgeSt
  handlers : Table Handler
  delivered : List InboundWork
  deriving DecidableEq

inductive ChatAct
  | deliver (work : InboundWork) (mint : Mint)
  | step (id : ThreadId)
  deriving DecidableEq

def Mint.unused (m : Mint) (s : ChatSt) : Bool :=
  m.fresh s.db && s.handlers.rows.all fun h =>
    h.job.mint.thread ≠ m.thread && h.job.mint.user ≠ m.user && h.job.mint.colleague ≠ m.colleague

section Steps

variable (d : BridgeDeps) (lark : LarkEvents)

def ChatSt.deliver (w : InboundWork) (mint : Mint) (s : ChatSt) : ChatSt :=
  match accept d w mint with
  | .ok (some j) =>
    { s with handlers := s.handlers.put ⟨j, .shadow⟩, delivered := w :: s.delivered }
  | .ok none | .error _ => { s with delivered := w :: s.delivered }

def ChatSt.advance (h : Handler) (s : ChatSt) : ChatSt :=
  let (pc, db) := Lark.advance d h.job s.db h.pc
  { s with db, handlers := s.handlers.put { h with pc } }

def chatStep : Step ChatSt ChatAct
  | s, .deliver w mint => if w ∈ lark.all ∧ mint.unused s then some (s.deliver d w mint) else none
  | s, .step id => (s.handlers.find? id).map (s.advance d)

end Steps

def InboundWork.threadKey (w : InboundWork) : ThreadKey :=
  (w.event.tenantKey, w.event.chatId, threadAnchor w.event)

def Pc.ended : Pc → Bool
  | .done | .failed _ => true
  | .shadow | .channel _ | .lookup _ _ | .create _ _ | .bind _ _ | .receiver _ _ | .append _ _ _ _
  | .participation _ _ _ _ | .enqueue _ _ _ _ _ => false

def Pc.creating : Pc → Bool
  | .create _ _ | .bind _ _ => true
  | .shadow | .channel _ | .lookup _ _ | .receiver _ _ | .append _ _ _ _ | .participation _ _ _ _
  | .enqueue _ _ _ _ _ | .done | .failed _ => false

def hasKey (k : IdempotencyKey) (w : InboundWork) : Bool :=
  (messageIdempotencyKey w.event).toOption = some k

def ChatSt.handlersOf (works : List InboundWork) (s : ChatSt) : List Handler :=
  s.handlers.rows.filter fun h => h.job.work ∈ works

def ChatSt.feedOf (works : List InboundWork) (s : ChatSt) : List FeedRow :=
  s.db.feed.rows.filter fun r => works.any (hasKey r.idempotencyKey)

def ChatSt.triggersOf (w : InboundWork) (s : ChatSt) : List Trigger :=
  s.db.triggers.rows.filter fun t => hasKey t.idempotencyKey w

def settled (works : List InboundWork) (s : ChatSt) : Bool :=
  works.all (fun w => w ∈ s.delivered) && (s.handlersOf works).all (·.pc.ended)

/-- The bound thread has the message once, and each addressed agent one trigger there. -/
structure OnceIn (d : BridgeDeps) (works : List InboundWork) (s : ChatSt) (thread : ThreadId) :
    Prop where
  bound : ∀ w ∈ works, lookupByThread w.threadKey s.db = some thread
  row : (s.feedOf works).map (·.threadId) = [thread]
  created : ∀ h ∈ s.handlersOf works, ∀ t ∈ s.db.threads.find? h.job.mint.thread, t.id = thread
  triggers : ∀ w ∈ works, ∀ app ∈ d.apps.find? fun app => app.appId = w.event.appId,
    (s.triggersOf w).map (fun t => (t.receiverAgentId, t.threadId))
      = if isTrigger w then [(app.agentId, thread)] else []

def Once (d : BridgeDeps) (works : List InboundWork) (s : ChatSt) : Prop :=
  ∃ thread, OnceIn d works s thread

structure SameMessage (m m' : InboundMessage) : Prop where
  tenantKey : m.tenantKey = m'.tenantKey
  senderUserId : m.senderUserId = m'.senderUserId
  senderType : m.senderType = m'.senderType
  chatId : m.chatId = m'.chatId
  chatType : m.chatType = m'.chatType
  messageId : m.messageId = m'.messageId
  rootId : m.rootId = m'.rootId
  text : m.text = m'.text

structure Copies (d : BridgeDeps) (org : OrgId) (works : List InboundWork) : Prop where
  same : ∀ w ∈ works, ∀ w' ∈ works, SameMessage w.event w'.event
  apps : (works.map (·.event.appId)).Nodup
  bots : ∀ w ∈ works, ∃ app, (d.apps.find? fun app => app.appId = w.event.appId) = some app
    ∧ app.orgId = org
  human : ∀ w ∈ works, w.event.senderType ≠ "app"

structure Plain (d : BridgeDeps) (w : InboundWork) (app : LarkApp) (user : LarkUserId)
    (k : IdempotencyKey) : Prop where
  accepted : ∀ mint, accept d w mint = .ok (some ⟨w, app, user, mint⟩)
  key : messageIdempotencyKey w.event = .ok k
  channel : (channelNameFor w.event.chatId).isOk = true

def knownOrNew (org : OrgId) (tenant : TenantKey) (user : LarkUserId) (s : BridgeSt) : Bool :=
  match s.handles.find? (tenant, user) with
  | some h => h.orgId = org
  | none => (s.users.find? (syntheticEmail user)).isNone

/-- No lookup finds nothing while a handler is about to bind the thread, one of the two being of
the delivery. -/
def apart (w : InboundWork) (s : ChatSt) : ChatAct → Bool
  | .deliver _ _ => true
  | .step id => (s.handlers.find? id).all fun h =>
    match h.pc with
    | .shadow => h.job.work ≠ w || knownOrNew h.job.app.orgId w.event.tenantKey h.job.user s.db
    | .lookup _ _ =>
      (h.job.work ≠ w || ownThread h.job.app.orgId h.job.key s.db) &&
        ((lookupByThread h.job.key s.db).isSome || s.handlers.rows.all fun h' =>
          !(h'.pc.creating && h'.job.key = h.job.key && (h.job.work = w || h'.job.work = w)))
    | _ => true

structure Unheard (w : InboundWork) (s : ChatSt) : Prop where
  closed : Sealed s.db
  handlers : s.handlers = .empty
  delivered : s.delivered = []
  feed : ∀ r ∈ s.db.feed, hasKey r.idempotencyKey w = false
  triggers : ∀ t ∈ s.db.triggers, hasKey t.idempotencyKey w = false

variable {d : BridgeDeps} {s s' : BridgeSt} {org : OrgId} {mint : Mint} {j : Job} {pc pc' : Pc}

inductive Advanced (d : BridgeDeps) (j : Job) (s : BridgeSt) : Pc → Pc → BridgeSt → Prop
  | shadow {c s'} (h : resolveOrMint j.mint j.app.orgId j.work.event.tenantKey j.user
      j.work.event.senderOpenId s = .ok (c, s')) : Advanced d j s .shadow (.channel c) s'
  | channel {c channel s'} (h : ensureChannel j.mint j.app.orgId j.work.event.tenantKey
      j.work.event.chatId s = .ok (channel, s')) :
      Advanced d j s (.channel c) (.lookup c channel) s'
  | found {c channel t} (h : lookupByThread j.key s = some t) :
      Advanced d j s (.lookup c channel) (.receiver c t) s
  | missed {c channel} (h : lookupByThread j.key s = none) :
      Advanced d j s (.lookup c channel) (.create c channel) s
  | created {c channel t s'} (h : createThread j.mint j.app.orgId c.userId channel c.colleagueId s
      = .ok (t, s')) : Advanced d j s (.create c channel) (.bind c t) s'
  | bound {c t} : Advanced d j s (.bind c t) (.receiver c t)
      (Lark.bind j.app.orgId j.work.event.appId j.key t s)
  | addressed {c t k r} (h : messageIdempotencyKey j.work.event = .ok k) :
      Advanced d j s (.receiver c t) (.append c t k r) s
  | appended {c t k r message s'} (h : append j.mint j.app.orgId c.userId t k c.colleagueId r
      (d.render j.work) s = .ok (message, s')) : Advanced d j s (.append c t k r)
        (if isTrigger j.work then .participation c t k message else .done) s'
  | joined {c t k message state s'} (h : resolveParticipation j.mint c.userId t j.app.agentId s
      = .ok (state, s')) :
      Advanced d j s (.participation c t k message) (.enqueue c t k message state) s'
  | enqueued {c t k message state s'} (h : enqueueTrigger j.mint j.app.orgId c.userId k t state
      c.colleagueId j.app.agentId message s = .ok s') :
      Advanced d j s (.enqueue c t k message state) .done s'
  | failed {p : Pc} (e : LarkError) (h : p.ended = false) : Advanced d j s p (.failed e) s
  | ended {p : Pc} (h : p.ended = true) : Advanced d j s p p s

theorem advanced_attempt {α : Type} {r : Except LarkError (α × BridgeSt)} {next : α → Pc}
    (hpc : pc.ended = false) (h : ∀ a s', r = .ok (a, s') → Advanced d j s pc (next a) s') :
    Advanced d j s pc (attempt r s next).1 (attempt r s next).2 := by
  cases r with
  | ok p => exact h p.1 p.2 rfl
  | error e => exact .failed e hpc

theorem advanced (d : BridgeDeps) (j : Job) (s : BridgeSt) (pc : Pc) :
    Advanced d j s pc (advance d j s pc).1 (advance d j s pc).2 := by
  cases pc with
  | shadow => exact advanced_attempt rfl fun c s' h => .shadow h
  | channel c => exact advanced_attempt rfl fun channel s' h => .channel h
  | lookup c channel =>
    cases h : lookupByThread j.key s with
    | none =>
      simp only [advance, h]
      exact .missed h
    | some t =>
      simp only [advance, h]
      exact .found h
  | create c channel => exact advanced_attempt rfl fun t s' h => .created h
  | bind c t => exact .bound
  | receiver c t =>
    cases h : messageIdempotencyKey j.work.event with
    | error e =>
      simp only [advance, h]
      exact .failed e rfl
    | ok k =>
      simp only [advance, h]
      exact .addressed h
  | append c t k r => exact advanced_attempt rfl fun message s' h => .appended h
  | participation c t k message => exact advanced_attempt rfl fun state s' h => .joined h
  | enqueue c t k message state =>
    exact advanced_attempt rfl fun u s' h => .enqueued (ok_of_map_ok h)
  | done => exact .ended rfl
  | failed e => exact .ended rfl

theorem resolveOrMint_log {tenant : TenantKey} {user : LarkUserId} {openId : LarkOpenId}
    {c : ShadowColleague} (h : resolveOrMint mint org tenant user openId s = .ok (c, s')) :
    s'.feed = s.feed ∧ s'.triggers = s.triggers ∧ s'.bindings = s.bindings := by
  unfold resolveOrMint at h
  cases hfind : s.handles.find? (tenant, user) with
  | some r =>
    simp only [hfind, Except.ok.injEq, Prod.mk.injEq] at h
    exact h.2 ▸ ⟨rfl, rfl, rfl⟩
  | none =>
    cases hmail : (s.users.find? (syntheticEmail user)).isSome with
    | true => simp [hfind, hmail] at h
    | false =>
      simp only [hfind, hmail, Bool.false_eq_true, if_false, Except.ok.injEq,
        Prod.mk.injEq] at h
      exact h.2 ▸ ⟨rfl, rfl, rfl⟩

theorem ensureChannel_log {tenant : TenantKey} {chat : LarkChatId} {channel : ChannelId}
    (h : ensureChannel mint org tenant chat s = .ok (channel, s')) :
    s'.feed = s.feed ∧ s'.triggers = s.triggers ∧ s'.bindings = s.bindings := by
  unfold ensureChannel at h
  cases hname : channelNameFor chat with
  | error e =>
    rw [hname] at h
    cases h
  | ok name =>
    cases hmap : s.larkChannels.find? (org, tenant, chat) with
    | some c =>
      simp only [hname, Bind.bind, Except.bind, hmap, pure, Except.pure, Except.ok.injEq,
        Prod.mk.injEq] at h
      exact h.2 ▸ ⟨rfl, rfl, rfl⟩
    | none =>
      simp only [hname, Bind.bind, Except.bind, hmap, pure, Except.pure, Except.ok.injEq,
        createChannelAndMapping, Prod.mk.injEq] at h
      exact h.2 ▸ ⟨rfl, rfl, rfl⟩

theorem createThread_rows {u : UserId} {channel : ChannelId} {creator : ColleagueId}
    {thread : ThreadId} (h : createThread mint org u channel creator s = .ok (thread, s')) :
    thread = mint.thread ∧ ∃ threads, s' = { s with threads }
      ∧ s.threads.insert? ⟨mint.thread, org, channel, creator⟩ = some threads := by
  unfold createThread at h
  split at h
  · cases hinsert : s.threads.insert? ⟨mint.thread, org, channel, creator⟩ with
    | none => simp [hinsert] at h
    | some threads =>
      simp only [hinsert, Except.ok.injEq, Prod.mk.injEq] at h
      exact ⟨h.1.symm, threads, h.2.symm, rfl⟩
  · cases h

theorem append_isSome {u : UserId} {thread : ThreadId} {k : IdempotencyKey} {sender : ColleagueId}
    {receiver : Option ColleagueId} {body : String} {message : ThreadMessageId}
    (ht : ThreadOf s org thread)
    (h : append mint org u thread k sender receiver body s = .ok (message, s')) :
    (s'.feed.find? (org, k)).isSome := by
  obtain ⟨rfl, hrow⟩ | ⟨t', ht', -, feed, rfl, rfl⟩ := append_rows h
  · exact hrow
  · obtain ⟨t, hfind, rfl⟩ := ht
    obtain rfl := Option.some_inj.mp (hfind.symm.trans ht')
    exact Option.isSome_of_eq_some (Table.find?_put_self _ _)

theorem resolveParticipation_rows {u : UserId} {thread : ThreadId} {agent : AgentId}
    {state : AgentThreadId} (h : resolveParticipation mint u thread agent s = .ok (state, s')) :
    ∃ participations, s' = { s with participations } := by
  unfold resolveParticipation at h
  cases hsee : visibleThread u thread s with
  | none =>
    rw [hsee] at h
    cases h
  | some t =>
    cases hrow : s.participations.find? (thread, agent) with
    | some p =>
      simp only [hsee, hrow, Except.ok.injEq, Prod.mk.injEq] at h
      exact ⟨_, h.2.symm⟩
    | none =>
      simp only [hsee, hrow, Except.ok.injEq, Prod.mk.injEq] at h
      exact ⟨_, h.2.symm⟩

theorem enqueueTrigger_rows {u : UserId} {k : IdempotencyKey} {thread : ThreadId}
    {state : AgentThreadId} {sender : ColleagueId} {agent : AgentId} {message : ThreadMessageId}
    (h : enqueueTrigger mint org u k thread state sender agent message s = .ok s') :
    ∃ triggers, s' = { s with triggers } ∧ triggers = s.triggers.addNew
      ⟨org, k, mint.request, u, thread, state, sender, agent, message⟩ := by
  unfold enqueueTrigger at h
  dsimp only at h
  split at h
  · exact ⟨_, (Except.ok.inj h).symm, rfl⟩
  · cases h

theorem lookupByThread_bind {app : LarkAppId} {k K : ThreadKey} {thread : ThreadId} :
    lookupByThread K (Lark.bind org app k thread s)
      = (lookupByThread K s).or (if k = K then some thread else none) :=
  Table.map_find?_addNew _ _ _ _

section Outcome

variable (h : Advanced d j s pc pc' s')
include h

theorem Advanced.lookup (K : ThreadKey) : lookupByThread K s' = lookupByThread K s
    ∨ ∃ c t, pc = .bind c t ∧ pc' = .receiver c t
      ∧ lookupByThread K s' = (lookupByThread K s).or (if j.key = K then some t else none) := by
  cases h with
  | shadow h => exact .inl (by rw [lookupByThread, lookupByThread, (resolveOrMint_log h).2.2])
  | channel h => exact .inl (by rw [lookupByThread, lookupByThread, (ensureChannel_log h).2.2])
  | created h =>
    obtain ⟨-, threads, rfl, -⟩ := createThread_rows h
    exact .inl rfl
  | bound => exact .inr ⟨_, _, rfl, rfl, lookupByThread_bind⟩
  | appended h =>
    obtain ⟨rfl, -⟩ | ⟨t, -, -, feed, rfl, -⟩ := append_rows h
    · exact .inl rfl
    · exact .inl rfl
  | joined h =>
    obtain ⟨participations, rfl⟩ := resolveParticipation_rows h
    exact .inl rfl
  | enqueued h =>
    obtain ⟨triggers, rfl, hrows⟩ := enqueueTrigger_rows h
    exact .inl rfl
  | found | missed | addressed | failed | ended => exact .inl rfl

theorem Advanced.feed : s'.feed = s.feed ∨ ∃ c t k r t' message, pc = .append c t k r
    ∧ s.threads.find? t = some t' ∧ s.feed.find? (t'.orgId, k) = none
    ∧ s'.feed = s.feed.put ⟨t'.orgId, k, message, t, c.colleagueId, r, d.render j.work⟩ := by
  cases h with
  | shadow h => exact .inl (resolveOrMint_log h).1
  | channel h => exact .inl (ensureChannel_log h).1
  | created h =>
    obtain ⟨-, threads, rfl, -⟩ := createThread_rows h
    exact .inl rfl
  | appended h =>
    obtain ⟨rfl, -⟩ | ⟨t', ht, hnone, feed, rfl, hrows⟩ := append_rows h
    · exact .inl rfl
    · exact .inr ⟨_, _, _, _, t', _, rfl, ht, hnone, hrows⟩
  | joined h =>
    obtain ⟨participations, rfl⟩ := resolveParticipation_rows h
    exact .inl rfl
  | enqueued h =>
    obtain ⟨triggers, rfl, hrows⟩ := enqueueTrigger_rows h
    exact .inl rfl
  | bound | found | missed | addressed | failed | ended => exact .inl rfl

theorem Advanced.triggers : s'.triggers = s.triggers ∨ ∃ c t k message state id,
    pc = .enqueue c t k message state ∧ s'.triggers = s.triggers.addNew
      ⟨j.app.orgId, k, id, c.userId, t, state, c.colleagueId, j.app.agentId, message⟩ := by
  cases h with
  | shadow h => exact .inl (resolveOrMint_log h).2.1
  | channel h => exact .inl (ensureChannel_log h).2.1
  | created h =>
    obtain ⟨-, threads, rfl, -⟩ := createThread_rows h
    exact .inl rfl
  | appended h =>
    obtain ⟨rfl, -⟩ | ⟨t', ht, hnone, feed, rfl, hrows⟩ := append_rows h
    · exact .inl rfl
    · exact .inl rfl
  | joined h =>
    obtain ⟨participations, rfl⟩ := resolveParticipation_rows h
    exact .inl rfl
  | enqueued h =>
    obtain ⟨triggers, rfl, hrows⟩ := enqueueTrigger_rows h
    exact .inr ⟨_, _, _, _, _, _, rfl, hrows⟩
  | bound | found | missed | addressed | failed | ended => exact .inl rfl

theorem Advanced.threads : s'.threads = s.threads ∨ ∃ c channel,
    pc = .create c channel ∧ pc' = .bind c j.mint.thread
      ∧ s.threads.insert? ⟨j.mint.thread, j.app.orgId, channel, c.colleagueId⟩
        = some s'.threads := by
  cases h with
  | shadow h =>
    obtain ⟨r, -, -, -, ht, -⟩ | ⟨-, -, ht, -⟩ := resolveOrMint_rows h <;> exact .inl ht
  | channel h => exact .inl (ensureChannel_frame h).2.2.2
  | created h =>
    obtain ⟨rfl, threads, rfl, hinsert⟩ := createThread_rows h
    exact .inr ⟨_, _, rfl, rfl, hinsert⟩
  | appended h =>
    obtain ⟨rfl, -⟩ | ⟨t', ht, hnone, feed, rfl, hrows⟩ := append_rows h
    · exact .inl rfl
    · exact .inl rfl
  | joined h =>
    obtain ⟨participations, rfl⟩ := resolveParticipation_rows h
    exact .inl rfl
  | enqueued h =>
    obtain ⟨triggers, rfl, hrows⟩ := enqueueTrigger_rows h
    exact .inl rfl
  | bound | found | missed | addressed | failed | ended => exact .inl rfl

theorem Advanced.colleagues : s'.colleagues = s.colleagues
    ∨ pc = .shadow ∧ ∃ c, s'.colleagues = s.colleagues.put c ∧ c.userId = j.mint.user
      ∧ c.id = j.mint.colleague := by
  cases h with
  | shadow h =>
    obtain ⟨r, -, -, hc, -⟩ | ⟨-, hc, -⟩ := resolveOrMint_rows h
    · exact .inl hc
    · exact .inr ⟨rfl, _, hc, rfl, rfl⟩
  | channel h => exact .inl (ensureChannel_frame h).2.1
  | created h =>
    obtain ⟨-, threads, rfl, -⟩ := createThread_rows h
    exact .inl rfl
  | appended h =>
    obtain ⟨rfl, -⟩ | ⟨t', ht, hnone, feed, rfl, hrows⟩ := append_rows h
    · exact .inl rfl
    · exact .inl rfl
  | joined h =>
    obtain ⟨participations, rfl⟩ := resolveParticipation_rows h
    exact .inl rfl
  | enqueued h =>
    obtain ⟨triggers, rfl, hrows⟩ := enqueueTrigger_rows h
    exact .inl rfl
  | bound | found | missed | addressed | failed | ended => exact .inl rfl

theorem Advanced.keeps (hs : Sealed s) (hfresh : pc = .shadow → j.mint.fresh s = true)
    (hmade : ∀ c t, pc = .bind c t → ThreadOf s j.app.orgId t) : Sealed s' ∧ Grows s s' := by
  cases h with
  | shadow h =>
    have hk := (resolveOrMint_keeps hs (hfresh rfl) h).1
    exact ⟨hk.closed, hk.grows⟩
  | channel h =>
    have hk := ensureChannel_keeps hs h
    exact ⟨hk.closed, hk.grows⟩
  | created h =>
    have hk := createThread_keeps hs h
    exact ⟨hk.1, hk.2.1⟩
  | bound => exact ⟨hs.bind _ _ (hmade _ _ rfl), .of_eq rfl rfl⟩
  | appended h =>
    have hk := append_keeps hs h
    exact ⟨hk.closed, hk.grows⟩
  | joined h =>
    have hk := resolveParticipation_keeps hs h
    exact ⟨hk.closed, hk.grows⟩
  | enqueued h =>
    have hk := enqueueTrigger_keeps hs h
    exact ⟨hk.closed, hk.grows⟩
  | found | missed | addressed | failed | ended => exact ⟨hs, .refl s⟩

theorem Advanced.inOrg (hs : Sealed s) (hfresh : pc = .shadow → j.mint.fresh s = true)
    (hin : InOrg j.app.orgId pc s)
    (hknown : pc = .shadow → ∀ r ∈ s.handles.find? (j.work.event.tenantKey, j.user),
      r.orgId = j.app.orgId)
    (hown : ∀ c channel, pc = .lookup c channel → ownThread j.app.orgId j.key s = true) :
    InOrg j.app.orgId pc' s' := by
  have hmade : ∀ c t, pc = .bind c t → ThreadOf s j.app.orgId t := fun c t e =>
    hin.thread t (e ▸ rfl)
  have g := (h.keeps hs hfresh hmade).2
  have hkept : (∀ c ∈ pc'.shadow?, c ∈ pc.shadow? ∨ ColleagueOf s' j.app.orgId c) →
      (∀ t ∈ pc'.thread?, t ∈ pc.thread? ∨ ThreadOf s' j.app.orgId t) →
      InOrg j.app.orgId pc' s' := fun hc ht =>
    ⟨fun c h => (hc c h).elim (fun h => g.colleague (hin.shadow c h)) id,
      fun t h => (ht t h).elim (fun h => g.thread (hin.thread t h)) id⟩
  cases h with
  | shadow h =>
    refine hkept (fun c hc => ?_) (fun t ht => by cases ht)
    cases hc
    exact .inr ((resolveOrMint_keeps hs (hfresh rfl) h).2 (hknown rfl))
  | channel h => exact hkept (fun _ h => .inl h) (fun _ h => .inl h)
  | found h =>
    refine hkept (fun _ h => .inl h) (fun t ht => ?_)
    cases ht
    obtain ⟨b, hb, rfl⟩ := Option.map_eq_some_iff.mp h
    have horg := ownThread_iff.mp (hown _ _ rfl) b hb
    exact .inr (horg ▸ hs.binding b (Table.mem_of_find? hb))
  | missed h => exact hkept (fun _ h => .inl h) (fun _ h => .inl h)
  | created h =>
    refine hkept (fun _ h => .inl h) (fun t ht => ?_)
    cases ht
    exact .inr (createThread_keeps hs h).2.2.2
  | bound => exact hkept (fun _ h => .inl h) (fun _ h => .inl h)
  | addressed h => exact hkept (fun _ h => .inl h) (fun _ h => .inl h)
  | appended h =>
    refine hkept (fun c hc => ?_) (fun t ht => ?_)
    · split at hc
      · exact .inl hc
      · cases hc
    · split at ht
      · exact .inl ht
      · cases ht
  | joined h => exact hkept (fun _ h => .inl h) (fun _ h => .inl h)
  | enqueued h => exact hkept (fun c hc => by cases hc) (fun t ht => by cases ht)
  | failed e he => exact hkept (fun c hc => by cases hc) (fun t ht => by cases ht)
  | ended he => exact hin

end Outcome

theorem attempt_ne_failed {α : Type} {r : Except LarkError (α × BridgeSt)} {next : α → Pc}
    (hr : r.isOk = true) (hnext : ∀ a e, next a ≠ .failed e) (e : LarkError) :
    (attempt r s next).1 ≠ .failed e := by
  cases r with
  | ok p => exact hnext p.1 e
  | error e' => cases hr

theorem ColleagueOf.isMember {c : ShadowColleague} (h : ColleagueOf s org c) :
    s.isMember c.userId org = true := by
  obtain ⟨r, hr, -⟩ := h
  rw [BridgeSt.isMember, hr]
  rfl

theorem visibleThread_of {c : ShadowColleague} {thread : ThreadId} (hc : ColleagueOf s org c)
    (ht : ThreadOf s org thread) : ∃ t, visibleThread c.userId thread s = some t
      ∧ t.orgId = org := by
  obtain ⟨t, hfind, horg⟩ := ht
  refine ⟨t, ?_, horg⟩
  rw [visibleThread_eq hfind, horg, hc.isMember, if_pos rfl]

theorem resolveOrMint_ok {tenant : TenantKey} {user : LarkUserId} {openId : LarkOpenId}
    (h : knownOrNew org tenant user s = true) :
    (resolveOrMint mint org tenant user openId s).isOk = true := by
  unfold knownOrNew at h
  unfold resolveOrMint
  cases hfind : s.handles.find? (tenant, user) with
  | some r => rfl
  | none =>
    rw [hfind] at h
    simp only [Option.isNone_iff_eq_none] at h
    rw [h]
    rfl

theorem known_of_knownOrNew {tenant : TenantKey} {user : LarkUserId}
    (h : knownOrNew org tenant user s = true) :
    ∀ r ∈ s.handles.find? (tenant, user), r.orgId = org := by
  intro r hr
  rw [knownOrNew, hr] at h
  simpa using h

theorem ensureChannel_ok {tenant : TenantKey} {chat : LarkChatId}
    (h : (channelNameFor chat).isOk = true) :
    (ensureChannel mint org tenant chat s).isOk = true := by
  unfold ensureChannel
  cases hname : channelNameFor chat with
  | error e =>
    rw [hname] at h
    cases h
  | ok name => cases s.larkChannels.find? (org, tenant, chat) <;> rfl

theorem createThread_ok {c : ShadowColleague} {channel : ChannelId} (hc : ColleagueOf s org c)
    (hfree : s.threads.find? mint.thread = none) :
    (createThread mint org c.userId channel c.colleagueId s).isOk = true := by
  have hinserts : (s.threads.insert? ⟨mint.thread, org, channel, c.colleagueId⟩).isSome :=
    Table.insert?_isSome.mpr hfree
  obtain ⟨threads, hinsert⟩ := Option.isSome_iff_exists.mp hinserts
  rw [createThread, hc.isMember, if_pos rfl, hinsert]
  rfl

theorem append_ok {c : ShadowColleague} {thread : ThreadId} {k : IdempotencyKey}
    {receiver : Option ColleagueId} {body : String} (hc : ColleagueOf s org c)
    (ht : ThreadOf s org thread) :
    (append mint org c.userId thread k c.colleagueId receiver body s).isOk = true := by
  obtain ⟨t, hsee, rfl⟩ := visibleThread_of hc ht
  unfold append
  rw [hsee]
  cases hrow : s.feed.find? (t.orgId, k) with
  | none => simp only [hrow]; rfl
  | some r => simp only [hrow, hc.isMember, Option.filter_some]; rfl

theorem resolveParticipation_ok {c : ShadowColleague} {thread : ThreadId} {agent : AgentId}
    (hc : ColleagueOf s org c) (ht : ThreadOf s org thread) :
    (resolveParticipation mint c.userId thread agent s).isOk = true := by
  obtain ⟨t, hsee, rfl⟩ := visibleThread_of hc ht
  unfold resolveParticipation
  rw [hsee]
  cases s.participations.find? (thread, agent) <;> rfl

theorem enqueueTrigger_ok {c : ShadowColleague} {k : IdempotencyKey} {thread : ThreadId}
    {state : AgentThreadId} {agent : AgentId} {message : ThreadMessageId}
    (hc : ColleagueOf s org c) :
    (enqueueTrigger mint org c.userId k thread state c.colleagueId agent message s).isOk
      = true := by
  unfold enqueueTrigger
  dsimp only
  rw [hc.isMember, if_pos rfl]
  rfl

theorem advance_ne_failed (hin : InOrg j.app.orgId pc s)
    (hname : (channelNameFor j.work.event.chatId).isOk = true)
    (hkey : (messageIdempotencyKey j.work.event).isOk = true)
    (hknown : pc = .shadow → knownOrNew j.app.orgId j.work.event.tenantKey j.user s = true)
    (hfree : pc.early = true → s.threads.find? j.mint.thread = none)
    (hpc : ∀ e, pc ≠ .failed e) (e : LarkError) : (advance d j s pc).1 ≠ .failed e := by
  cases pc with
  | shadow =>
    exact attempt_ne_failed (resolveOrMint_ok (hknown rfl)) (fun a e h => by cases h) e
  | channel c => exact attempt_ne_failed (ensureChannel_ok hname) (fun a e h => by cases h) e
  | lookup c channel =>
    unfold advance
    cases lookupByThread j.key s <;> exact fun h => by cases h
  | create c channel =>
    exact attempt_ne_failed (createThread_ok (hin.shadow c rfl) (hfree rfl))
      (fun a e h => by cases h) e
  | bind c t => exact fun h => by cases h
  | receiver c t =>
    unfold advance
    cases hk : messageIdempotencyKey j.work.event with
    | error e' =>
      rw [hk] at hkey
      cases hkey
    | ok k => exact fun h => by cases h
  | append c t k r =>
    refine attempt_ne_failed (append_ok (hin.shadow c rfl) (hin.thread t rfl)) (fun a e h => ?_) e
    split at h <;> cases h
  | participation c t k message =>
    exact attempt_ne_failed (resolveParticipation_ok (hin.shadow c rfl) (hin.thread t rfl))
      (fun a e h => by cases h) e
  | enqueue c t k message state =>
    refine attempt_ne_failed ?_ (fun a e h => by cases h) e
    have hok : (enqueueTrigger j.mint j.app.orgId c.userId k t state c.colleagueId j.app.agentId
        message s).isOk = true := enqueueTrigger_ok (hin.shadow c rfl)
    cases hq : enqueueTrigger j.mint j.app.orgId c.userId k t state c.colleagueId j.app.agentId
        message s with
    | ok s₁ => rfl
    | error e' =>
      rw [hq] at hok
      cases hok
  | done => exact fun h => by cases h
  | failed e' => exact absurd rfl (hpc e')

end Patom.Lark
