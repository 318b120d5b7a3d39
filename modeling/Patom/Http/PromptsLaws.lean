import Patom.Http.Prompts
import Patom.Runtime.Queue
import Patom.Threads.Visibility
import Patom.TypesLaws

open Patom.Foundation
open Patom.Runtime (Enqueued IdempotencyKey NewTrigger PromptRequest PromptRequestId enqueueTrigger
  enqueueTrigger_cases)
open Patom.Threads

namespace Patom.Http

section Keys

variable {k : IdempotencyKey} {agent agent' : AgentId}

theorem perAgentKey_isOk :
    (perAgentKey k agent).isOk ↔ k.asStr.utf8ByteSize + 37 ≤ Runtime.MAX_IDEMPOTENCY_KEY_BYTES := by
  have hsize : (k.asStr ++ ":" ++ agent.display).utf8ByteSize = k.asStr.utf8ByteSize + 37 := by
    simp only [String.utf8ByteSize_append, Uuid.utf8ByteSize_display]
    rfl
  have hne : k.asStr ++ ":" ++ agent.display ≠ "" := fun e => by
    rw [e] at hsize
    simp at hsize
  rw [perAgentKey, IdempotencyKey.tryFrom, dif_neg hne, ← hsize]
  split
  case isTrue h => exact iff_of_true rfl h
  case isFalse h => exact iff_of_false (by rintro ⟨⟩) h

end Keys

theorem enqueueTrigger_isOk {colleagues : Table Runtime.Colleague} {id : PromptRequestId}
    {now : Time} {trig : NewTrigger} {queue : Runtime.Db} {receiver : ColleagueId}
    (hreceiver :
      Runtime.resolveAgentColleague colleagues trig.orgId trig.receiverAgentId = .ok receiver)
    (hxor : trig.stateId.isSome ≠ trig.backgroundTurnId.isSome)
    (hready : (Runtime.findByIdempotencyKey queue trig.orgId trig.idempotencyKey).isSome ∨
      queue.promptRequests.find? id = none ∧ queue.promptRequestDags.find? id = none) :
    ∃ res, enqueueTrigger colleagues id now trig queue = .ok res := by
  simp only [enqueueTrigger, hreceiver, bind, Except.bind, dif_pos hxor]
  split
  case h_1 => exact ⟨_, rfl⟩
  case h_2 hunseen =>
    obtain hseen | ⟨hrequest, hdag⟩ := hready
    · rw [hunseen] at hseen
      cases hseen
    · split
      case h_1 hins => exact absurd hrequest (Table.insert?_eq_none.mp hins)
      case h_2 =>
        split
        case isTrue => exact ⟨_, rfl⟩
        case isFalse =>
          split
          case h_1 hins => exact absurd hdag (Table.insert?_eq_none.mp hins)
          case h_2 => exact ⟨_, rfl⟩

section Reads

variable {db : PromptDb}

theorem findByKey_some {role : Role} {org : OrgId} {k : IdempotencyKey} {m : ThreadMessageRow}
    (h : findByKey db role org k = some m) : m ∈ db.chat.threadMessages ∧
      role.reads db.chat m.orgId = true ∧ m.orgId = org ∧ m.idempotencyKey = some k := by
  have hm := mem_scan.mp (List.mem_of_find?_eq_some h)
  have hp := List.find?_some h
  simp only [Bool.and_eq_true, decide_eq_true_eq] at hp
  exact ⟨hm.1, hm.2, hp⟩

theorem findThread_some {role : Role} {thread : ThreadId} {t : ThreadRow}
    (h : findThread db role thread = some t) :
    t ∈ db.chat.threads ∧ role.reads db.chat t.orgId = true ∧ t.id = thread := by
  have ht := mem_scan.mp (List.mem_of_find?_eq_some h)
  have hid := List.find?_some h
  exact ⟨ht.1, ht.2, of_decide_eq_true hid⟩

theorem findThread_isSome {role : Role} {t : ThreadRow} (ht : t ∈ db.chat.threads)
    (hread : role.reads db.chat t.orgId = true) : (findThread db role t.id).isSome :=
  List.find?_isSome.mpr ⟨t, mem_scan.mpr ⟨ht, hread⟩, decide_eq_true rfl⟩

theorem findExistingPost_some {user : UserId} {org : OrgId} {k : IdempotencyKey} {thread : ThreadId}
    {message : ThreadMessageId} (h : findExistingPost db user org k = some (thread, message)) :
    ∃ m ∈ db.chat.threadMessages, m.id = message ∧ m.threadId = thread ∧ m.orgId = org ∧
      m.idempotencyKey = some k ∧ appUserIsMember db.chat user org := by
  obtain ⟨m, hm, e⟩ := Option.map_eq_some_iff.mp h
  obtain ⟨hmem, hread, horg, hkey⟩ := findByKey_some hm
  cases e
  exact ⟨m, hmem, rfl, rfl, horg, hkey, horg ▸ hread⟩

theorem resolveUserColleague_ok {chat : ChatDb} {org : OrgId} {user : UserId} {id : ColleagueId}
    (h : resolveUserColleague chat org user = .ok id) :
    ∃ c ∈ chat.colleagues, c.id = id ∧ c.orgId = org ∧ c.userId = some user := by
  unfold resolveUserColleague at h
  split at h
  case h_2 => cases h
  case h_1 c hc =>
    cases h
    have hp := List.find?_some hc
    simp only [Bool.and_eq_true, decide_eq_true_eq] at hp
    exact ⟨c, List.mem_of_find?_eq_some hc, rfl, hp⟩

def Mapped (chat : ChatDb) (org : OrgId) (agent : AgentId) : Prop :=
  ∃ c ∈ chat.colleagues, c.orgId = org ∧ c.agentId = some agent

theorem resolveTargetColleague_mapped {chat : ChatDb} {org : OrgId} {target : TagTarget}
    {tag : ResolvedTag} (h : resolveTargetColleague chat org target = .ok tag) :
    ∀ agent ∈ tag.agent, Mapped chat org agent := by
  cases target with
  | agent id =>
    simp only [resolveTargetColleague] at h
    split at h
    case h_2 => cases h
    case h_1 hid =>
      cases h
      rintro _ ⟨⟩
      unfold resolveAgentColleague at hid
      split at hid
      case h_2 => cases hid
      case h_1 c hc =>
        have hp := List.find?_some hc
        simp only [Bool.and_eq_true, decide_eq_true_eq] at hp
        exact ⟨c, List.mem_of_find?_eq_some hc, hp⟩
  | human id =>
    simp only [resolveTargetColleague] at h
    split at h
    case h_2 => cases h
    case h_1 =>
      cases h
      rintro _ ⟨⟩

theorem resolveTags_mapped {chat : ChatDb} {org : OrgId} {tags : List TagTarget}
    {resolved : List ResolvedTag} (h : resolveTags chat org tags = .ok resolved) :
    ∀ tag ∈ resolved, ∀ agent ∈ tag.agent, Mapped chat org agent := by
  induction tags generalizing resolved with
  | nil =>
    cases h
    exact fun _ htag => absurd htag List.not_mem_nil
  | cons target tags ih =>
    simp only [resolveTags, List.mapM_cons, bind, Except.bind] at h
    split at h
    case h_1 => cases h
    case h_2 tag htag =>
      split at h
      case h_1 => cases h
      case h_2 rest hrest =>
        cases h
        intro tag' htag'
        obtain rfl | htag' := List.mem_cons.mp htag'
        · exact resolveTargetColleague_mapped htag
        · exact ih hrest tag' htag'

theorem resolveAgentColleague_roster {chat : ChatDb} {org : OrgId} {agent : AgentId}
    (h : Mapped chat org agent) :
    ∃ id, Runtime.resolveAgentColleague (roster chat) org agent = .ok id := by
  obtain ⟨c, hc, horg, hagent⟩ := h
  unfold Runtime.resolveAgentColleague
  split
  case h_1 => exact ⟨_, rfl⟩
  case h_2 hnone =>
    have hno := List.find?_eq_none.mp hnone ⟨c.id, c.orgId, c.agentId⟩
      (List.mem_map.mpr ⟨c, hc, rfl⟩)
    simp [horg, hagent] at hno

theorem prepare_ok {params : SubmitPromptParams} {admits : Bool} {p : Prepared}
    (h : prepare db params admits = .ok p) :
    p.existing = findExistingPost db params.userId params.orgId params.idempotencyKey ∧
      resolveUserColleague db.chat params.orgId params.userId = .ok p.sender ∧
      allTags db.chat params p.existing = .ok p.tags := by
  unfold prepare at h
  simp only at h
  split at h
  case h_1 => cases h
  case h_2 sender hsender =>
    split at h
    case h_1 => cases h
    case h_2 tags htags =>
      split at h
      case isTrue => cases h
      case isFalse =>
        cases h
        exact ⟨rfl, hsender, htags⟩

theorem implicitDmReceiver_mapped {params : SubmitPromptParams} {thread : ThreadId}
    {message : ThreadMessageId} {implicit : Option ResolvedTag}
    (hthread : ∀ t ∈ db.chat.threads, t.id = thread → t.orgId = params.orgId)
    (h : implicitDmReceiver db.chat params (some (thread, message)) = .ok implicit) :
    ∀ tag ∈ implicit, ∀ agent ∈ tag.agent, Mapped db.chat params.orgId agent := by
  simp only [implicitDmReceiver, Option.map_some, Option.some_or] at h
  split at h
  case h_1 =>
    cases h
    rintro _ ⟨⟩
  case h_2 counterpart hcounterpart =>
    split at h
    case h_1 => cases h
    case h_2 c hc =>
      cases h
      intro tag htag agent hagent
      obtain ⟨agent', hagent', rfl⟩ := Option.map_eq_some_iff.mp htag
      obtain rfl := Option.some.inj hagent
      obtain ⟨t, ht, hdm⟩ := Option.bind_eq_some_iff.mp hcounterpart
      obtain ⟨hmem, hid⟩ := Table.find?_eq_some.mp ht
      obtain ⟨c', hc', hid', horg⟩ := db.chat.counterpartOrg t hmem counterpart hdm
      obtain ⟨hc, hkey⟩ := Table.find?_eq_some.mp hc
      obtain rfl := Table.eq_of_key_eq hc hc' (hkey.trans hid'.symm)
      exact ⟨c, hc, horg.trans (hthread t hmem hid), hagent'⟩

theorem prepare_mapped {params : SubmitPromptParams} {admits : Bool} {p : Prepared}
    (h : prepare db params admits = .ok p) {thread : ThreadId} {message : ThreadMessageId}
    (hexisting : p.existing = some (thread, message)) :
    ∀ agent ∈ p.agentTags, Mapped db.chat params.orgId agent := by
  obtain ⟨hfind, -, htags⟩ := prepare_ok h
  obtain ⟨m, hm, -, hthread, horg, -⟩ := findExistingPost_some (hfind.symm.trans hexisting)
  obtain ⟨t, ht, hid, horg'⟩ := db.chat.messageOrg m hm
  have hthread (t' : ThreadRow) (ht' : t' ∈ db.chat.threads) (e : t'.id = thread) :
      t'.orgId = params.orgId := by
    rw [Table.eq_of_key_eq ht' ht (e.trans (hthread.symm.trans hid.symm)), horg', horg]
  have hall (tag : ResolvedTag) (htag : tag ∈ p.tags) :
      ∀ agent ∈ tag.agent, Mapped db.chat params.orgId agent := by
    unfold allTags at htags
    split at htags
    case h_1 => cases htags
    case h_2 tags hresolved =>
      split at htags
      case isTrue =>
        cases htags
        exact resolveTags_mapped hresolved tag htag
      case isFalse =>
        rw [hexisting] at htags
        split at htags
        case h_1 => cases htags
        case h_2 implicit himplicit =>
          have htags := Except.ok.inj htags
          rw [← htags] at htag
          obtain htag | htag := List.mem_append.mp htag
          · exact resolveTags_mapped hresolved tag htag
          · exact implicitDmReceiver_mapped hthread himplicit tag (Option.mem_toList.mp htag)
  intro agent hagent
  obtain ⟨tag, htag, e⟩ := List.mem_filterMap.mp hagent
  exact hall tag htag agent e

end Reads

section Writes

variable {db db' : PromptDb} {caller : Caller} {params : SubmitPromptParams}

structure SameView (chat chat' : ChatDb) : Prop where
  orgMembers : chat'.orgMembers = chat.orgMembers
  colleagues : chat'.colleagues = chat.colleagues
  channels : chat'.channels = chat.channels
  channelMembers : chat'.channelMembers = chat.channelMembers
  threads : chat'.threads = chat.threads

theorem SameView.refl (chat : ChatDb) : SameView chat chat := ⟨rfl, rfl, rfl, rfl, rfl⟩

theorem SameView.visibleTo {chat chat' : ChatDb} (h : SameView chat chat') (caller : Caller)
    (thread : ThreadId) : visibleTo chat' caller thread = visibleTo chat caller thread := by
  have hreads (role : Role) (org : OrgId) : role.reads chat' org = role.reads chat org := by
    cases role with
    | privileged => rfl
    | user u => simp only [Role.reads, appUserIsMember, h.orgMembers]
  simp only [Threads.visibleTo, feedWhere, dmVisibleTo, channelMember, notArchived, Role.scan,
    hreads, h.colleagues, h.channels, h.channelMembers, h.threads]

theorem createThread_ok {id thread : ThreadId} {now : Time} {place : Place}
    {createdBy : ColleagueId}
    (h : createThread id now db caller place createdBy = .ok (db', thread)) :
    thread = id ∧ db'.queue = db.queue ∧ appUserIsMember db.chat caller.userId caller.orgId ∧
      ChatDb.ThreadAdded db.chat db'.chat (place.row id caller.orgId createdBy now) := by
  unfold createThread at h
  split at h
  case isFalse => cases h
  case isTrue hmember =>
    split at h
    case h_1 => cases h
    case h_2 hins =>
      cases h
      exact ⟨rfl, rfl, hmember, ChatDb.insertThread_added hins⟩

theorem createThread_visible {id thread : ThreadId} {now : Time} {place : Place}
    {createdBy : ColleagueId}
    (h : createThread id now db caller place createdBy = .ok (db', thread))
    (hgate : feedWhere db.chat .privileged caller.userId
      (place.row id caller.orgId createdBy now)) :
    visibleTo db'.chat caller thread := by
  obtain ⟨rfl, -, hmember, hadded⟩ := createThread_ok h
  obtain ⟨hmembers, hcolleagues, hchannels, hchannelMembers, -⟩ := hadded.rest
  have ht : place.row thread caller.orgId createdBy now ∈ db'.chat.threads :=
    (Table.mem_insert? hadded.threads).mpr (.inr rfl)
  have hid : (place.row thread caller.orgId createdBy now).id = thread := by cases place <;> rfl
  have horg : (place.row thread caller.orgId createdBy now).orgId = caller.orgId := by
    cases place <;> rfl
  have hvisible : visibleTo db'.chat caller (place.row thread caller.orgId createdBy now).id = _ :=
    visibleTo_of_mem ht
  rw [hid, horg] at hvisible
  have hgate' : feedWhere db'.chat .privileged caller.userId
      (place.row thread caller.orgId createdBy now) := by
    simpa only [feedWhere, dmVisibleTo, channelMember, notArchived, Role.scan, Role.reads,
      hcolleagues, hchannels, hchannelMembers] using hgate
  rw [hvisible, hgate', appUserIsMember, hmembers]
  simpa [appUserIsMember] using hmember

theorem resolveThread_visible {id thread : ThreadId} {now : Time} {sender : ColleagueId}
    (hsender : resolveUserColleague db.chat params.orgId params.userId = .ok sender)
    (h : resolveThread id now db params sender = .ok (db', thread)) :
    visibleTo db'.chat params.caller thread ∧ db'.queue = db.queue := by
  unfold resolveThread at h
  split at h
  case h_1 =>
    split at h
    case isFalse => cases h
    case isTrue hvisible =>
      cases h
      exact ⟨hvisible, rfl⟩
  case h_2 =>
    split at h
    case h_1 channel hchannel =>
      split at h
      case isFalse => cases h
      case isTrue hmember =>
        refine ⟨createThread_visible h ?_, (createThread_ok h).2.1⟩
        simp only [ensureChannelMember, List.any_eq_true, mem_scan, Bool.and_eq_true,
          decide_eq_true_eq] at hmember
        obtain ⟨c, ⟨hc, -⟩, ⟨⟨hid, -⟩, hopen⟩, cm, ⟨hcm, -⟩, hcid, huser⟩ := hmember
        simp only [feedWhere, Place.row, channelMember, notArchived, scan_privileged,
          List.any_eq_true, Bool.and_eq_true, decide_eq_true_eq]
        exact ⟨⟨cm, hcm, hcid.trans hid, huser⟩, c, hc, hid, hopen⟩
    case h_2 =>
      split at h
      case h_1 => cases h
      case h_2 target _ =>
        simp only [bind, Except.bind] at h
        split at h
        case h_1 => cases h
        case h_2 counterpart _ =>
          refine ⟨createThread_visible h ?_, (createThread_ok h).2.1⟩
          obtain ⟨c, hc, hid, -, huser⟩ := resolveUserColleague_ok hsender
          simp only [feedWhere, Place.row, dmVisibleTo, scan_privileged, Bool.or_eq_true,
            List.any_eq_true, Bool.and_eq_true, decide_eq_true_eq]
          exact .inl ⟨c, hc, by simp [hid, huser, SubmitPromptParams.caller]⟩

theorem append_frame (id : ThreadMessageId) (now : Time) (thread : ThreadId)
    (new : NewThreadMessage) : SameView db.chat (append id now db caller thread new).1.chat ∧
      (append id now db caller thread new).1.queue = db.queue := by
  unfold append
  simp only
  split
  case h_1 => exact ⟨.refl _, rfl⟩
  case h_2 =>
    split
    case isTrue => exact ⟨.refl _, rfl⟩
    case isFalse =>
      split
      case h_1 => exact ⟨.refl _, rfl⟩
      case h_2 hins =>
        obtain ⟨h₁, h₂, h₃, h₄, h₅⟩ := (ChatDb.insertMessage_added hins).rest
        exact ⟨⟨h₁, h₂, h₃, h₄, h₅⟩, rfl⟩

theorem append_ok {id message : ThreadMessageId} {now : Time} {thread : ThreadId}
    {new : NewThreadMessage} {k : IdempotencyKey} (hk : new.idempotencyKey = some k)
    (h : append id now db caller thread new = (db', .ok message)) :
    (∀ m ∈ db.chat.threadMessages, m ∈ db'.chat.threadMessages) ∧
      ((∃ t ∈ db.chat.threads, t.id = thread ∧ ∃ m ∈ db'.chat.threadMessages, m.id = message ∧
          m.threadId = thread ∧ m.orgId = t.orgId ∧ m.idempotencyKey = some k) ∨
        ∃ m ∈ db.chat.threadMessages, m.id = message ∧ m.orgId = caller.orgId ∧
          m.idempotencyKey = some k) := by
  have hwinner (m : ThreadMessageRow)
      (hm : new.idempotencyKey.bind (findByKey db (.user caller.userId) caller.orgId) = some m) :
      m ∈ db.chat.threadMessages ∧ m.orgId = caller.orgId ∧ m.idempotencyKey = some k := by
    rw [hk, Option.bind_some] at hm
    obtain ⟨hmem, -, horg, hkey⟩ := findByKey_some hm
    exact ⟨hmem, horg, hkey⟩
  unfold append at h
  simp only at h
  split at h
  case h_1 =>
    obtain ⟨hdb, hres⟩ := Prod.mk.inj h
    subst hdb
    split at hres
    case h_2 => cases hres
    case h_1 m hm =>
      obtain ⟨hmem, horg, hkey⟩ := hwinner m hm
      exact ⟨fun _ hm => hm, .inr ⟨m, hmem, Except.ok.inj hres, horg, hkey⟩⟩
  case h_2 t ht =>
    split at h
    case isTrue =>
      obtain ⟨hdb, hres⟩ := Prod.mk.inj h
      subst hdb
      split at hres
      case h_2 => cases hres
      case h_1 m hm =>
        obtain ⟨hmem, horg, hkey⟩ := hwinner m hm
        exact ⟨fun _ hm => hm, .inr ⟨m, hmem, Except.ok.inj hres, horg, hkey⟩⟩
    case isFalse =>
      split at h
      case h_1 => cases (Prod.mk.inj h).2
      case h_2 hins =>
        cases h
        have hadded := (ChatDb.insertMessage_added hins).threadMessages
        obtain ⟨hmem, -, hid⟩ := findThread_some ht
        exact ⟨fun m hm => (Table.mem_insert? hadded).mpr (.inl hm),
          .inl ⟨t, hmem, hid, _, (Table.mem_insert? hadded).mpr (.inr rfl), rfl, rfl, rfl, hk⟩⟩

theorem append_kept (id : ThreadMessageId) (now : Time) (thread : ThreadId) (new : NewThreadMessage)
    {m : ThreadMessageRow} (hm : m ∈ db.chat.threadMessages) :
    m ∈ (append id now db caller thread new).1.chat.threadMessages := by
  unfold append
  simp only
  split
  case h_1 => exact hm
  case h_2 =>
    split
    case isTrue => exact hm
    case isFalse =>
      split
      case h_1 => exact hm
      case h_2 hins =>
        exact (Table.mem_insert? (ChatDb.insertMessage_added hins).threadMessages).mpr (.inl hm)

theorem participate_ok {id state : AgentThreadId} {now : Time} {thread : ThreadId} {agent : AgentId}
    (h : participate id now db caller thread agent = .ok (db', state)) :
    db'.chat = db.chat ∧ db'.queue = db.queue := by
  unfold participate at h
  split at h
  case h_1 => cases h
  case h_2 =>
    split at h
    all_goals cases h
    all_goals exact ⟨rfl, rfl⟩

theorem participate_isOk {id : AgentThreadId} {now : Time} {thread : ThreadId} {agent : AgentId}
    (h : (findThread db (.user caller.userId) thread).isSome) :
    ∃ db' state, participate id now db caller thread agent = .ok (db', state) := by
  obtain ⟨t, ht⟩ := Option.isSome_iff_exists.mp h
  simp only [participate, ht]
  cases db.participations.find? (thread, agent) with
  | some row => exact ⟨_, _, rfl⟩
  | none => exact ⟨_, _, rfl⟩

theorem enqueueTag_ok {id request : PromptRequestId} {now : Time} {sender : ColleagueId}
    {thread : ThreadId} {message : ThreadMessageId} {agent : AgentId} {state : AgentThreadId}
    (h : enqueueTag id now db params sender thread message agent state = .ok (db', request)) :
    db'.chat = db.chat ∧ ∃ k, perAgentKey params.idempotencyKey agent = .ok k ∧
      ((db'.queue = db.queue ∧ ∃ existing,
          Runtime.findByIdempotencyKey db.queue params.orgId k = some existing ∧
            request = existing.id) ∨
        request = id ∧ ∃ row,
          Enqueued id now (tagTrigger params sender thread message agent state k) db.queue
            db'.queue row) := by
  unfold enqueueTag at h
  cases hk : perAgentKey params.idempotencyKey agent with
  | error e =>
    rw [hk] at h
    cases h
  | ok k =>
    simp only [hk, bind, Except.bind] at h
    split at h
    case h_1 => cases h
    case h_2 queue request hqueue =>
      cases h
      refine ⟨rfl, k, rfl, ?_⟩
      obtain ⟨existing, hexisting, rfl, hid⟩ | ⟨hid, row, hrow⟩ := enqueueTrigger_cases hqueue
      · exact .inl ⟨rfl, existing, hexisting, hid⟩
      · exact .inr ⟨hid, row, hrow⟩

end Writes

end Patom.Http
