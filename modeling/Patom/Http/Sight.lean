import Patom.Http.PromptsLaws

open Patom.Foundation
open Patom.Provider (ChatMessage)
open Patom.Runtime (Enqueued IdempotencyKey NewTrigger PromptRequest PromptRequestId enqueueTrigger
  findByIdempotencyKey findByIdempotencyKey_isSome)
open Patom.Threads

namespace Patom.Http

/-- The new triggers of a submit, and its answer, name threads that its caller sees. -/
structure InSight (params : SubmitPromptParams) (db : PromptDb)
    (res : PromptDb × Except HttpError SubmitOutcome) : Prop where
  triggers : ∀ r ∈ res.1.queue.promptRequests, r ∉ db.queue.promptRequests →
    ∃ thread, r.threadId = some thread ∧ visibleTo res.1.chat params.caller thread
  answer : ∀ outcome, res.2 = .ok outcome → visibleTo res.1.chat params.caller outcome.threadId

/-- A submit that gets as far as a row with its key finds it in a thread that its caller sees. -/
def RetriesInSight (params : SubmitPromptParams) (admits : Bool) (db : PromptDb) : Prop :=
  ∀ p pair, prepare db params admits = .ok p → p.existing = some pair →
    (∀ agent ∈ p.agentTags, (perAgentKey params.idempotencyKey agent).isOk) →
    visibleTo db.chat params.caller pair.1

structure Mint.Fresh (mint : Mint) (agents : List AgentId) (queue : Runtime.Db) : Prop where
  requests : ∀ agent ∈ agents, queue.promptRequests.find? (mint.request agent) = none
  dags : ∀ agent ∈ agents, queue.promptRequestDags.find? (mint.request agent) = none
  distinct : ∀ agent ∈ agents, ∀ agent' ∈ agents, mint.request agent = mint.request agent' →
    agent = agent'

section Triggers

variable {mint : Mint} {params : SubmitPromptParams} {sender : ColleagueId} {thread : ThreadId}
  {message : ThreadMessageId}

theorem enqueueTagTriggers_frame (agents : List AgentId) (db : PromptDb) :
    (enqueueTagTriggers mint params sender thread message agents db).1.chat = db.chat ∧
      ∀ r ∈ (enqueueTagTriggers mint params sender thread message agents db).1.queue.promptRequests,
        r ∈ db.queue.promptRequests ∨ r.threadId = some thread := by
  induction agents generalizing db with
  | nil => exact ⟨rfl, fun r hr => .inl hr⟩
  | cons agent rest ih =>
    unfold enqueueTagTriggers
    split
    case h_1 => exact ⟨rfl, fun r hr => .inl hr⟩
    case h_2 db₁ state hstate =>
      obtain ⟨hchat₁, hqueue₁⟩ := participate_ok hstate
      split
      case h_1 => exact ⟨hchat₁, fun r hr => .inl (hqueue₁ ▸ hr)⟩
      case h_2 db₂ request htag =>
        obtain ⟨hchat₂, k, -, hadded⟩ := enqueueTag_ok htag
        obtain ⟨hchat, hrest⟩ := ih db₂
        refine ⟨hchat.trans (hchat₂.trans hchat₁), fun r hr => ?_⟩
        obtain hold | hthread := hrest r hr
        · obtain ⟨hqueue, -⟩ | ⟨-, row, hrow⟩ := hadded
          · exact .inl (hqueue₁ ▸ hqueue ▸ hold)
          · obtain hold | rfl := (Table.mem_insert? hrow.inserted).mp hold
            · exact .inl (hqueue₁ ▸ hold)
            · exact .inr hrow.trigger.1
        · exact .inr hthread

def Ready (mint : Mint) (params : SubmitPromptParams) (queue : Runtime.Db) (agent : AgentId) :
    Prop :=
  ∃ k, perAgentKey params.idempotencyKey agent = .ok k ∧
    ((findByIdempotencyKey queue params.orgId k).isSome ∨
      queue.promptRequests.find? (mint.request agent) = none ∧
        queue.promptRequestDags.find? (mint.request agent) = none)

theorem enqueueTag_ready {db : PromptDb} {agent : AgentId} {state : AgentThreadId}
    (hmapped : Mapped db.chat params.orgId agent) (hready : Ready mint params db.queue agent) :
    ∃ db' request, enqueueTag (mint.request agent) mint.now db params sender thread message agent
      state = .ok (db', request) := by
  obtain ⟨k, hk, hready⟩ := hready
  obtain ⟨receiver, hreceiver⟩ := resolveAgentColleague_roster hmapped
  have hok : ∃ res, enqueueTrigger (roster db.chat) (mint.request agent) mint.now
      (tagTrigger params sender thread message agent state k) db.queue = .ok res :=
    enqueueTrigger_isOk hreceiver (by simp [tagTrigger]) hready
  obtain ⟨⟨queue, request⟩, hqueue⟩ := hok
  simp only [enqueueTag, hk, hqueue, bind, Except.bind]
  exact ⟨_, _, rfl⟩

theorem Ready.step {db db' : PromptDb} {agent agent' : AgentId} {state : AgentThreadId}
    {request : PromptRequestId} (h : Ready mint params db.queue agent')
    (hdistinct : mint.request agent = mint.request agent' → agent = agent')
    (htag : enqueueTag (mint.request agent) mint.now db params sender thread message agent state =
      .ok (db', request)) : Ready mint params db'.queue agent' := by
  obtain ⟨-, k, hk, ⟨hqueue, -⟩ | ⟨-, row, hrow⟩⟩ := enqueueTag_ok htag
  · rwa [hqueue]
  · obtain ⟨k', hk', h⟩ := h
    refine ⟨k', hk', ?_⟩
    by_cases hsame : agent = agent'
    · subst hsame
      obtain rfl := Except.ok.inj (hk.symm.trans hk')
      refine .inl (findByIdempotencyKey_isSome.mpr ⟨row, ?_, hrow.org, hrow.key⟩)
      exact (Table.mem_insert? hrow.inserted).mpr (.inr rfl)
    · refine h.imp (fun hseen => ?_) fun ⟨hrequest, hdag⟩ => ?_
      · obtain ⟨r, hr, hkeys⟩ := findByIdempotencyKey_isSome.mp hseen
        exact findByIdempotencyKey_isSome.mpr
          ⟨r, (Table.mem_insert? hrow.inserted).mpr (.inl hr), hkeys⟩
      · have hne : mint.request agent ≠ mint.request agent' := fun e => hsame (hdistinct e)
        have hdags := hrow.dags
        rw [if_neg (by simp [tagTrigger])] at hdags
        refine ⟨?_, ?_⟩
        · rw [Table.find?_insert? hrow.inserted, if_neg, hrequest]
          exact fun e => hne (hrow.rowId.symm.trans e)
        · rw [Table.find?_insert? hdags, if_neg, hdag]
          exact hne

theorem enqueueTagTriggers_ok {agents : List AgentId} {db : PromptDb}
    (hthread : (findThread db (.user params.userId) thread).isSome)
    (hmapped : ∀ agent ∈ agents, Mapped db.chat params.orgId agent)
    (hready : ∀ agent ∈ agents, Ready mint params db.queue agent)
    (hdistinct : ∀ agent ∈ agents, ∀ agent' ∈ agents, mint.request agent = mint.request agent' →
      agent = agent') :
    ∃ db' requests,
      enqueueTagTriggers mint params sender thread message agents db = (db', .ok requests) := by
  induction agents generalizing db with
  | nil => exact ⟨_, _, rfl⟩
  | cons agent rest ih =>
    obtain ⟨db₁, state, hstate⟩ : ∃ db₁ state,
        participate (mint.state agent) mint.now db params.caller thread agent = .ok (db₁, state) :=
      participate_isOk hthread
    obtain ⟨hchat₁, hqueue₁⟩ := participate_ok hstate
    obtain ⟨db₂, request, htag⟩ : ∃ db₂ request, enqueueTag (mint.request agent) mint.now db₁ params
        sender thread message agent state = .ok (db₂, request) :=
      enqueueTag_ready (hchat₁ ▸ hmapped agent List.mem_cons_self)
        (hqueue₁ ▸ hready agent List.mem_cons_self)
    have hchat₂ := (enqueueTag_ok htag).1.trans hchat₁
    have hthread₂ : (findThread db₂ (.user params.userId) thread).isSome := by
      unfold findThread
      rw [hchat₂]
      exact hthread
    obtain ⟨db₃, requests, hrest⟩ := ih hthread₂
      (fun a ha => hchat₂ ▸ hmapped a (List.mem_cons_of_mem _ ha))
      (fun a ha => by
        have hold : Ready mint params db₁.queue a := hqueue₁ ▸ hready a (List.mem_cons_of_mem _ ha)
        exact hold.step (hdistinct agent List.mem_cons_self a (List.mem_cons_of_mem _ ha)) htag)
      (fun a ha a' ha' => hdistinct a (List.mem_cons_of_mem _ ha) a' (List.mem_cons_of_mem _ ha'))
    refine ⟨db₃, request :: requests, ?_⟩
    simp only [enqueueTagTriggers, hstate, htag, hrest]
    rfl

theorem enqueueTagTriggers_tooLong {agents : List AgentId} {db : PromptDb}
    (h : ∃ agent ∈ agents, ¬(perAgentKey params.idempotencyKey agent).isOk) :
    ∃ e, (enqueueTagTriggers mint params sender thread message agents db).2 = .error e ∧
      (enqueueTagTriggers mint params sender thread message agents db).1.queue = db.queue := by
  obtain ⟨agent, hagent, hlong⟩ := h
  cases agents with
  | nil => cases hagent
  | cons first rest =>
    have hfirst : ¬(perAgentKey params.idempotencyKey first).isOk := by
      rwa [perAgentKey_isOk] at hlong ⊢
    unfold enqueueTagTriggers
    split
    case h_1 => exact ⟨_, rfl, rfl⟩
    case h_2 db₁ state hstate =>
      split
      case h_1 => exact ⟨_, rfl, (participate_ok hstate).2⟩
      case h_2 db₂ request htag =>
        obtain ⟨-, k, hk, -⟩ := enqueueTag_ok htag
        rw [hk] at hfirst
        exact absurd rfl hfirst

end Triggers

section Submit

variable {mint : Mint} {params : SubmitPromptParams} {admits : Bool} {db : PromptDb}

theorem inSight_of_visible {db₁ : PromptDb} {p : Prepared} {thread : ThreadId}
    {message : ThreadMessageId} (hprepare : prepare db params admits = .ok p)
    (hpost : threadAndPost mint params db p = (db₁, .ok (thread, message)))
    (hqueue : db₁.queue = db.queue) (hvisible : visibleTo db₁.chat params.caller thread) :
    InSight params db (submitInternal mint params admits db) := by
  unfold submitInternal
  simp only [hprepare, hpost]
  split
  case isTrue =>
    refine ⟨fun r hr hnew => absurd (hqueue ▸ hr) hnew, ?_⟩
    rintro outcome ⟨⟩
    exact hvisible
  case isFalse =>
    have hchat : (enqueueTagTriggers mint params p.sender thread message p.agentTags db₁).1.chat =
        db₁.chat :=
      (enqueueTagTriggers_frame p.agentTags db₁).1
    have htriggers (r : PromptRequest) (hr : r ∈ (enqueueTagTriggers mint params p.sender thread
        message p.agentTags db₁).1.queue.promptRequests) (hnew : r ∉ db.queue.promptRequests) :
        r.threadId = some thread :=
      ((enqueueTagTriggers_frame p.agentTags db₁).2 r hr).resolve_left
        fun hold => hnew (hqueue ▸ hold)
    split
    case h_1 db₂ e hres =>
      rw [hres] at hchat htriggers
      refine ⟨fun r hr hnew => ⟨thread, htriggers r hr hnew, ?_⟩, by rintro _ ⟨⟩⟩
      rw [show db₂.chat = _ from hchat]
      exact hvisible
    case h_2 db₂ requests hres =>
      rw [hres] at hchat htriggers
      have hvisible : visibleTo db₂.chat params.caller thread := by
        rw [show db₂.chat = _ from hchat]
        exact hvisible
      refine ⟨fun r hr hnew => ⟨thread, htriggers r hr hnew, hvisible⟩, ?_⟩
      rintro outcome ⟨⟩
      exact hvisible

theorem inSight_of_error {res : PromptDb × Except HttpError SubmitOutcome} {e : HttpError}
    (herror : res.2 = .error e) (hqueue : res.1.queue = db.queue) : InSight params db res := by
  refine ⟨fun r hr hnew => absurd (hqueue ▸ hr) hnew, fun outcome hok => ?_⟩
  cases herror.symm.trans hok

theorem inSight_of_fresh {p : Prepared} (hprepare : prepare db params admits = .ok p)
    (hexisting : p.existing = none) : InSight params db (submitInternal mint params admits db) := by
  obtain ⟨-, hsender, -⟩ := prepare_ok hprepare
  cases hthread : resolveThread mint.thread mint.now db params p.sender with
  | error e =>
    have hpost : threadAndPost mint params db p = (db, .error e) := by
      simp only [threadAndPost, hexisting, hthread]
    refine inSight_of_error (e := e) ?_ ?_ <;> simp only [submitInternal, hprepare, hpost]
  | ok res =>
    obtain ⟨db₁, thread⟩ := res
    obtain ⟨hvisible, hqueue⟩ := resolveThread_visible hsender hthread
    have hview : SameView db₁.chat
        (append mint.message mint.now db₁ params.caller thread (post params p)).1.chat :=
      (append_frame mint.message mint.now thread (post params p)).1
    have happend : (append mint.message mint.now db₁ params.caller thread
        (post params p)).1.queue = db₁.queue :=
      (append_frame mint.message mint.now thread (post params p)).2
    cases hres : append mint.message mint.now db₁ params.caller thread (post params p) with
    | mk db₂ result =>
      rw [hres] at hview happend
      cases result with
      | error e =>
        have hpost : threadAndPost mint params db p = (db₂, .error .internal) := by
          simp only [threadAndPost, hexisting, hthread, hres]
        refine inSight_of_error (e := .internal) ?_ ?_ <;>
          simp only [submitInternal, hprepare, hpost]
        exact happend.trans hqueue
      | ok message =>
        have hpost : threadAndPost mint params db p = (db₂, .ok (thread, message)) := by
          simp only [threadAndPost, hexisting, hthread, hres]
        refine inSight_of_visible hprepare hpost (happend.trans hqueue) ?_
        rw [hview.visibleTo]
        exact hvisible

/-- A submit wakes agents only where its caller can see exactly when a row that it finds under its
key is in such a thread. -/
theorem inSight_iff_retriesInSight (mint : Mint) (params : SubmitPromptParams) (admits : Bool)
    (db : PromptDb)
    (hfresh : ∀ p, prepare db params admits = .ok p → mint.Fresh p.agentTags db.queue) :
    InSight params db (submitInternal mint params admits db) ↔ RetriesInSight params admits db := by
  constructor
  · rintro h p ⟨thread, message⟩ hprepare hexisting hkeys
    have hpost : threadAndPost mint params db p = (db, .ok (thread, message)) := by
      simp only [threadAndPost, hexisting]
    by_cases hnone : p.agentTags = []
    · have hres : submitInternal mint params admits db =
          (db, .ok ⟨none, thread, none, [], p.existing.isSome⟩) := by
        simp only [submitInternal, hprepare, hpost, if_pos hnone]
      rw [hres] at h
      exact h.answer _ rfl
    · obtain ⟨hfind, -⟩ := prepare_ok hprepare
      obtain ⟨m, hm, -, hid, horg, -, hmember⟩ := findExistingPost_some (hfind.symm.trans hexisting)
      obtain ⟨t, ht, hid', horg'⟩ := db.chat.messageOrg m hm
      have hthread : (findThread db (.user params.userId) thread).isSome := by
        rw [← hid, ← hid']
        refine findThread_isSome ht ?_
        rw [horg', horg]
        exact hmember
      have hfresh := hfresh p hprepare
      have hready (agent : AgentId) (hagent : agent ∈ p.agentTags) :
          Ready mint params db.queue agent := by
        cases hk : perAgentKey params.idempotencyKey agent with
        | error e =>
          have hno := hkeys agent hagent
          rw [hk] at hno
          cases hno
        | ok k => exact ⟨k, hk, .inr ⟨hfresh.requests agent hagent, hfresh.dags agent hagent⟩⟩
      obtain ⟨db', requests, hok⟩ : ∃ db' requests, enqueueTagTriggers mint params p.sender thread
          message p.agentTags db = (db', .ok requests) :=
        enqueueTagTriggers_ok hthread (prepare_mapped hprepare hexisting) hready hfresh.distinct
      have hchat : (enqueueTagTriggers mint params p.sender thread message p.agentTags db).1.chat =
          db.chat :=
        (enqueueTagTriggers_frame p.agentTags db).1
      rw [hok] at hchat
      have hres : submitInternal mint params admits db =
          (db', .ok ⟨requests.head?, thread, some .pending, p.agentTags, p.existing.isSome⟩) := by
        simp only [submitInternal, hprepare, hpost, if_neg hnone, hok]
      rw [hres] at h
      have hvisible := h.answer _ rfl
      rwa [show db'.chat = db.chat from hchat] at hvisible
  · intro h
    cases hprepare : prepare db params admits with
    | error e => refine inSight_of_error (e := e) ?_ ?_ <;> simp only [submitInternal, hprepare]
    | ok p =>
      cases hexisting : p.existing with
      | none => exact inSight_of_fresh hprepare hexisting
      | some pair =>
        obtain ⟨thread, message⟩ := pair
        have hpost : threadAndPost mint params db p = (db, .ok (thread, message)) := by
          simp only [threadAndPost, hexisting]
        by_cases hkeys : ∀ agent ∈ p.agentTags, (perAgentKey params.idempotencyKey agent).isOk
        · exact inSight_of_visible hprepare hpost rfl (h p _ hprepare hexisting hkeys)
        · push Not at hkeys
          obtain ⟨agent, hagent, hlong⟩ := hkeys
          have hlong : ∃ agent ∈ p.agentTags, ¬(perAgentKey params.idempotencyKey agent).isOk :=
            ⟨agent, hagent, by simpa using hlong⟩
          obtain ⟨e, herror, hqueue⟩ : ∃ e, (enqueueTagTriggers mint params p.sender thread message
              p.agentTags db).2 = .error e ∧ (enqueueTagTriggers mint params p.sender thread message
              p.agentTags db).1.queue = db.queue :=
            enqueueTagTriggers_tooLong hlong
          have hne : p.agentTags ≠ [] := List.ne_nil_of_mem hagent
          cases hres : enqueueTagTriggers mint params p.sender thread message p.agentTags db with
          | mk db' result =>
            rw [hres] at herror hqueue
            obtain rfl : result = .error e := herror
            refine inSight_of_error (e := e) ?_ ?_ <;>
              simp only [submitInternal, hprepare, hpost, if_neg hne, hres]
            exact hqueue

end Submit

namespace Sample

def ann : ColleagueRow := ⟨20, 1, .human, some 10, none, .inl ⟨rfl, rfl, rfl⟩⟩

def bob : ColleagueRow := ⟨21, 1, .human, some 11, none, .inl ⟨rfl, rfl, rfl⟩⟩

def scribe : ColleagueRow := ⟨22, 1, .agent, none, some 30, .inr ⟨rfl, rfl, rfl⟩⟩

def conversation : ThreadRow := ⟨⟨5, 1⟩, none, 20, some 22, 0, .inl rfl⟩

def key (raw : String) (nonempty : raw ≠ "")
    (bounded : raw.utf8ByteSize ≤ Runtime.MAX_IDEMPOTENCY_KEY_BYTES) : IdempotencyKey :=
  ⟨raw, nonempty, bounded⟩

def greeting : ThreadMessageRow where
  kind := .posted
  sender := some 20
  ownerAgentId := none
  body := .user [.text "hello"]
  receiver := some 22
  requestId := none
  idempotencyKey := some (key "k" (by decide) (by decide))
  id := 40
  threadId := 5
  orgId := 1
  seq := 1
  createdAt := 0

def staff : Table ColleagueRow := ⟨[ann, bob, scribe], by decide⟩

theorem ann_mem : ann ∈ staff := List.mem_cons_self

theorem scribe_mem : scribe ∈ staff :=
  List.mem_cons_of_mem _ (List.mem_cons_of_mem _ List.mem_cons_self)

def office : ChatDb where
  orgMembers := ⟨[⟨1, 10⟩, ⟨1, 11⟩], by decide⟩
  colleagues := staff
  channels := .empty
  channelMembers := .empty
  threads := .single conversation
  threadMessages := .single greeting
  channelOrg t ht c hc := by
    cases List.mem_singleton.mp ht
    cases hc
  memberOrg m hm := absurd hm (Table.not_mem_empty m)
  creatorOrg t ht := by
    cases List.mem_singleton.mp ht
    exact ⟨ann, ann_mem, rfl, rfl⟩
  counterpartOrg t ht k hk := by
    cases List.mem_singleton.mp ht
    cases hk
    exact ⟨scribe, scribe_mem, rfl, rfl⟩
  messageOrg m hm := by
    cases List.mem_singleton.mp hm
    exact ⟨conversation, List.mem_singleton.mpr rfl, rfl, rfl⟩
  senderOrg m hm k hk := by
    cases List.mem_singleton.mp hm
    cases hk
    exact ⟨ann, ann_mem, rfl, rfl⟩
  receiverOrg m hm k hk := by
    cases List.mem_singleton.mp hm
    cases hk
    exact ⟨scribe, scribe_mem, rfl, rfl⟩

def workspace : PromptDb where
  chat := office
  participations := .empty
  threadSeq := .single ⟨5, 1⟩
  queue := ⟨.empty, .empty, .empty, .empty⟩
  keyIdx := by
    intro m hm m' hm' _ _ _
    rw [List.mem_singleton.mp hm, List.mem_singleton.mp hm']

def opening (user : UserId) : SubmitPromptParams where
  userId := user
  orgId := 1
  threadId := none
  tags := [.agent 30]
  content := some "hi"
  attachments := []
  idempotencyKey := key "k" (by decide) (by decide)
  channelId := none
  counterpart := some (.agent 30)

def mint : Mint := ⟨6, 41, id, id, 0⟩

end Sample

theorem inSight_of_ann : InSight (Sample.opening 10) Sample.workspace
    (submitInternal Sample.mint (Sample.opening 10) true Sample.workspace) := by
  refine (inSight_iff_retriesInSight Sample.mint (Sample.opening 10) true Sample.workspace
    fun p _ => ⟨fun _ _ => rfl, fun _ _ => rfl, fun _ _ _ _ e => e⟩).mpr ?_
  intro p pair hprepare hexisting _
  have hfind : findExistingPost Sample.workspace 10 1 (Sample.opening 10).idempotencyKey =
      some (5, 40) := by
    decide +kernel
  have hpair := hexisting.symm.trans ((prepare_ok hprepare).1.trans hfind)
  obtain rfl := Option.some.inj hpair
  decide +kernel

/-- With the key of a post of Ann's, Bob wakes the agent in a conversation that is not his. -/
theorem bob_out_of_sight :
    (submitInternal Sample.mint (Sample.opening 11) true Sample.workspace).2 =
      .ok ⟨some 30, 5, some .pending, [30], true⟩ ∧
    visibleTo Sample.office ⟨11, 1⟩ 5 = false ∧
    ¬InSight (Sample.opening 11) Sample.workspace
      (submitInternal Sample.mint (Sample.opening 11) true Sample.workspace) := by
  have hanswer : (submitInternal Sample.mint (Sample.opening 11) true Sample.workspace).2 =
      .ok ⟨some 30, 5, some .pending, [30], true⟩ := by
    decide +kernel
  have hblind : visibleTo (submitInternal Sample.mint (Sample.opening 11) true
      Sample.workspace).1.chat ⟨11, 1⟩ 5 = false := by
    decide +kernel
  refine ⟨hanswer, by decide +kernel, fun h => ?_⟩
  have hsees := h.answer _ hanswer
  exact Bool.eq_false_iff.mp hblind hsees

end Patom.Http
