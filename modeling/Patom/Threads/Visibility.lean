import Patom.Threads.Store

/-! Who may read a thread.  The rule is written out in four queries; three run under the row-level
policy of the reader, and one is privileged. -/

open Patom.Foundation
open Patom.Provider (ChatMessage)
open Patom.Runtime (IdempotencyKey PromptRequestId)

namespace Patom.Threads

def MAX_THREAD_LIST : Nat := 200
def MAX_THREAD_FEED : Nat := 500
def ROOT_SNIPPET_MAX_CHARS : Nat := 160

abbrev ChannelId := Uuid

structure Caller where
  userId : UserId
  orgId : OrgId
  deriving DecidableEq

inductive ColleagueKind
  | human
  | agent
  deriving DecidableEq

structure ColleagueRow where
  id : ColleagueId
  orgId : OrgId
  kind : ColleagueKind
  userId : Option UserId
  agentId : Option AgentId
  satellite : kind = .human ∧ userId.isSome ∧ agentId = none ∨
    kind = .agent ∧ agentId.isSome ∧ userId = none

structure OrgMemberRow where
  orgId : OrgId
  userId : UserId

structure ChannelRow where
  id : ChannelId
  orgId : OrgId
  archivedAt : Option Time

structure ChannelMemberRow where
  channelId : ChannelId
  userId : UserId
  orgId : OrgId

structure ThreadRow extends ThreadHeader where
  channelId : Option ChannelId
  createdByColleagueId : ColleagueId
  dmCounterpartColleagueId : Option ColleagueId
  lastActivityAt : Time
  channelXorCounterpart : channelId = none ∨ dmCounterpartColleagueId = none

instance : Keyed ColleagueRow ColleagueId := ⟨(·.id)⟩
instance : Keyed OrgMemberRow (OrgId × UserId) := ⟨fun r => (r.orgId, r.userId)⟩
instance : Keyed ChannelRow ChannelId := ⟨(·.id)⟩
instance : Keyed ChannelMemberRow (ChannelId × UserId) := ⟨fun r => (r.channelId, r.userId)⟩
instance : Keyed ThreadRow ThreadId := ⟨(·.id)⟩

/-- The tables with their foreign keys.  A thread's colleagues are of its organization, as are the
two ends of a message. -/
structure ChatDb where
  orgMembers : Table OrgMemberRow
  colleagues : Table ColleagueRow
  channels : Table ChannelRow
  channelMembers : Table ChannelMemberRow
  threads : Table ThreadRow
  threadMessages : Table ThreadMessageRow
  channelOrg : ∀ t ∈ threads, ∀ c ∈ t.channelId, ∃ ch ∈ channels, ch.id = c ∧ ch.orgId = t.orgId
  memberOrg : ∀ m ∈ channelMembers, ∃ ch ∈ channels, ch.id = m.channelId ∧ ch.orgId = m.orgId
  creatorOrg : ∀ t ∈ threads,
    ∃ c ∈ colleagues, c.id = t.createdByColleagueId ∧ c.orgId = t.orgId
  counterpartOrg : ∀ t ∈ threads, ∀ k ∈ t.dmCounterpartColleagueId,
    ∃ c ∈ colleagues, c.id = k ∧ c.orgId = t.orgId
  messageOrg : ∀ m ∈ threadMessages, ∃ t ∈ threads, t.id = m.threadId ∧ t.orgId = m.orgId
  senderOrg : ∀ m ∈ threadMessages, ∀ k ∈ m.sender, ∃ c ∈ colleagues, c.id = k ∧ c.orgId = m.orgId
  receiverOrg : ∀ m ∈ threadMessages, ∀ k ∈ m.receiver,
    ∃ c ∈ colleagues, c.id = k ∧ c.orgId = m.orgId

inductive Role
  | privileged
  | user (id : UserId)

def appUserIsMember (db : ChatDb) (user : UserId) (org : OrgId) : Bool :=
  (db.orgMembers.find? (org, user)).isSome

def Role.reads (db : ChatDb) (org : OrgId) : Role → Bool
  | .privileged => true
  | .user u => appUserIsMember db u org

/-- The rows of a table that a role's policy lets through. -/
def Role.scan {ρ κ : Type} [Keyed ρ κ] (db : ChatDb) (role : Role) (t : Table ρ)
    (org : ρ → OrgId) : List ρ :=
  t.rows.filter fun r => role.reads db (org r)

section Predicates

variable (db : ChatDb) (role : Role) (user : UserId)

def dmVisibleTo (t : ThreadRow) : Bool :=
  (role.scan db db.colleagues (·.orgId)).any (fun cb =>
    cb.id = t.createdByColleagueId && cb.userId = some user) ||
  (role.scan db db.colleagues (·.orgId)).any fun cp =>
    t.dmCounterpartColleagueId = some cp.id && cp.userId = some user

def channelMember (channel : ChannelId) : Bool :=
  (role.scan db db.channelMembers (·.orgId)).any fun cm => cm.channelId = channel && cm.userId = user

def notArchived (channel : ChannelId) : Bool :=
  (role.scan db db.channels (·.orgId)).any fun c => c.id = channel && c.archivedAt.isNone

/-- The `CASE` of `FEED_SQL` and of `visible_to`. -/
def feedWhere (t : ThreadRow) : Bool :=
  match t.channelId with
  | none => dmVisibleTo db role user t
  | some channel => channelMember db role user channel && notArchived db role channel

end Predicates

inductive ThreadScope
  | channel (id : ChannelId)
  | dms (counterpart : Option ColleagueId)

def LIST_WHERE_CHANNEL (db : ChatDb) (role : Role) (user : UserId) (channel : ChannelId)
    (t : ThreadRow) : Bool :=
  t.channelId = some channel && channelMember db role user channel && notArchived db role channel

def LIST_WHERE_DM (db : ChatDb) (role : Role) (user : UserId) (counterpart : Option ColleagueId)
    (t : ThreadRow) : Bool :=
  t.channelId.isNone && dmVisibleTo db role user t &&
    counterpart.all fun k => t.dmCounterpartColleagueId = some k || t.createdByColleagueId = k

abbrev MessageSender := Participant

structure FeedMessage where
  seq : Seq
  kind : MessageKind
  sender : MessageSender
  ownerAgentId : Option AgentId
  receiver : Option Participant
  body : ChatMessage
  requestId : Option PromptRequestId
  clientKey : Option IdempotencyKey
  createdAt : Time

structure RootSummary where
  snippet : String
  sender : MessageSender
  createdAt : Time

structure ThreadListItem where
  threadId : ThreadId
  channelId : Option ChannelId
  lastActivityAt : Time
  root : Option RootSummary
  replyCount : Nat

def participantOfColumns (colleague : Option ColleagueId) (joined : Option ColleagueRow) :
    Except ParseError Participant :=
  match colleague, joined.map ColleagueRow.kind with
  | none, _ => .ok .system
  | some cid, some .human =>
    match joined.bind ColleagueRow.userId with
    | some uid => .ok (.human cid uid)
    | none => .error (.malformed "participant.user_id" "human colleague without user_id")
  | some cid, some .agent =>
    match joined.bind ColleagueRow.agentId with
    | some aid => .ok (.agent cid aid)
    | none => .error (.malformed "participant.agent_id" "agent colleague without agent_id")
  | some _, none => .error (.malformed "participant.kind" "colleague read without joined kind")

def joinColleague (db : ChatDb) (role : Role) (id : Option ColleagueId) : Option ColleagueRow :=
  (role.scan db db.colleagues (·.orgId)).find? fun c => id = some c.id

def decodeParticipant (db : ChatDb) (role : Role) (id : Option ColleagueId) :
    Except ThreadError Participant :=
  (participantOfColumns id (joinColleague db role id)).mapError fun e =>
    .backend ("decode feed participant: " ++ e.display)

def feedRowToMessage (db : ChatDb) (role : Role) (m : ThreadMessageRow) :
    Except ThreadError FeedMessage := do
  let sender ← decodeParticipant db role m.sender
  let receiver ← match m.receiver with
    | some _ => some <$> decodeParticipant db role m.receiver
    | none => pure none
  return ⟨m.seq, m.kind, sender, m.ownerAgentId, receiver, m.body, m.requestId, m.idempotencyKey,
    m.createdAt⟩

def latest (cap : Nat) (rows : List ThreadMessageRow) : List ThreadMessageRow :=
  (rows.mergeSort fun m m' => m'.seq ≤ m.seq).take cap

def feedCap (limit : Nat) : Nat := max 1 (min limit MAX_THREAD_FEED)

def beforeSeq (before : Option Int) (m : ThreadMessageRow) : Bool := before.all fun b => (m.seq : Int) < b

/-- `FEED_SQL` -/
def feedRows (db : ChatDb) (role : Role) (caller : Caller) (thread : ThreadId) (before : Option Int)
    (cap : Nat) : List ThreadMessageRow :=
  latest cap <| (role.scan db db.threadMessages (·.orgId)).filter fun m =>
    m.threadId = thread && (role.scan db db.threads (·.orgId)).any (fun t =>
      t.id = m.threadId && t.orgId = caller.orgId && feedWhere db role caller.userId t) &&
    beforeSeq before m

def feed (db : ChatDb) (caller : Caller) (thread : ThreadId) (before : Option Int) (limit : Nat) :
    Except ThreadError (List FeedMessage) :=
  let role := Role.user caller.userId
  (feedRows db role caller thread before (feedCap limit)).reverse.mapM (feedRowToMessage db role)

def listWhere (db : ChatDb) (role : Role) (user : UserId) (t : ThreadRow) : ThreadScope → Bool
  | .channel channel => LIST_WHERE_CHANNEL db role user channel t
  | .dms counterpart => LIST_WHERE_DM db role user counterpart t

def listed (db : ChatDb) (role : Role) (caller : Caller) (scope : ThreadScope) : List ThreadRow :=
  ((role.scan db db.threads (·.orgId)).filter fun t =>
    t.orgId = caller.orgId && listWhere db role caller.userId t scope).mergeSort
    fun t t' => t'.lastActivityAt ≤ t.lastActivityAt

section List

-- `body->'contents'->0->>'value'`
variable (firstValue : ChatMessage → Option String)

def postedRows (db : ChatDb) (role : Role) (t : ThreadRow) : List ThreadMessageRow :=
  ((role.scan db db.threadMessages (·.orgId)).filter fun m =>
    m.threadId = t.id && m.kind = .posted).mergeSort fun m m' => m.seq ≤ m'.seq

def rootSummary (m : ThreadMessageRow) (sender : MessageSender) : RootSummary where
  snippet := ((firstValue m.body).map fun value =>
    String.ofList (value.toList.take ROOT_SNIPPET_MAX_CHARS)).getD ""
  sender
  createdAt := m.createdAt

def listRowToItem (db : ChatDb) (role : Role) (t : ThreadRow) : Except ThreadError ThreadListItem := do
  let posted := postedRows db role t
  let root ← match posted.head? with
    | some m => (some ∘ rootSummary firstValue m) <$> decodeParticipant db role m.sender
    | none => pure none
  return ⟨t.id, t.channelId, t.lastActivityAt, root, posted.length - 1⟩

def listThreads (db : ChatDb) (caller : Caller) (scope : ThreadScope) :
    Except ThreadError (List ThreadListItem) :=
  let role := Role.user caller.userId
  ((listed db role caller scope).take MAX_THREAD_LIST).mapM (listRowToItem firstValue db role)

end List

def isChannelMember (db : ChatDb) (thread : ThreadId) (user : UserId) : Except ThreadError Bool :=
  match (Role.privileged.scan db db.threads (·.orgId)).find? (·.id = thread) with
  | none => .error (.notFound thread)
  | some t =>
    .ok <| match t.channelId with
      | none => dmVisibleTo db .privileged user t
      | some channel => channelMember db .privileged user channel

def visibleTo (db : ChatDb) (caller : Caller) (thread : ThreadId) : Bool :=
  let role := Role.user caller.userId
  (role.scan db db.threads (·.orgId)).any fun t =>
    t.id = thread && t.orgId = caller.orgId && feedWhere db role caller.userId t

section Scan

variable {ρ κ : Type} [Keyed ρ κ] {db : ChatDb} {role : Role} {t : Table ρ} {org : ρ → OrgId}

theorem mem_scan {r : ρ} : r ∈ role.scan db t org ↔ r ∈ t ∧ role.reads db (org r) = true :=
  List.mem_filter

@[simp] theorem scan_privileged : Role.privileged.scan db t org = t.rows := by
  simp [Role.scan, Role.reads]

theorem filter_scan (p : ρ → Bool) :
    (role.scan db t org).filter p = t.rows.filter fun r => p r && role.reads db (org r) :=
  List.filter_filter

theorem any_scan {p : ρ → Bool} (h : ∀ r ∈ t, p r = true → role.reads db (org r) = true) :
    (role.scan db t org).any p = t.rows.any p := by
  rw [Bool.eq_iff_iff, List.any_eq_true, List.any_eq_true]
  constructor
  · rintro ⟨r, hr, hp⟩
    exact ⟨r, (mem_scan.mp hr).1, hp⟩
  · rintro ⟨r, hr, hp⟩
    exact ⟨r, mem_scan.mpr ⟨hr, h r hr hp⟩, hp⟩

theorem find?_scan {p : ρ → Bool} (h : ∀ r ∈ t, p r = true → role.reads db (org r) = true) :
    (role.scan db t org).find? p = t.rows.find? p := by
  rw [Role.scan, List.find?_filter]
  refine List.find?_congr fun r hr => ?_
  cases hp : p r with
  | false => simp
  | true => simp [h r hr hp]

end Scan

variable {db : ChatDb} {role : Role} {user : UserId} {t : ThreadRow}

theorem colleague_reads {org : OrgId} (hread : role.reads db org = true) {k : ColleagueId}
    (hk : ∃ c ∈ db.colleagues, c.id = k ∧ c.orgId = org) {c : ColleagueRow} (hc : c ∈ db.colleagues)
    (hid : c.id = k) : role.reads db c.orgId = true := by
  obtain ⟨c', hc', hid', rfl⟩ := hk
  rwa [Table.eq_of_key_eq hc hc' (hid.trans hid'.symm)]

theorem channel_reads {org : OrgId} (hread : role.reads db org = true) {k : ChannelId}
    (hk : ∃ ch ∈ db.channels, ch.id = k ∧ ch.orgId = org) {ch : ChannelRow} (hch : ch ∈ db.channels)
    (hid : ch.id = k) : role.reads db ch.orgId = true := by
  obtain ⟨ch', hch', hid', rfl⟩ := hk
  rwa [Table.eq_of_key_eq hch hch' (hid.trans hid'.symm)]

theorem dmVisibleTo_reads (ht : t ∈ db.threads) (hread : role.reads db t.orgId = true) :
    dmVisibleTo db role user t = dmVisibleTo db .privileged user t := by
  simp only [dmVisibleTo, scan_privileged]
  congr 1
  · refine any_scan fun c hc hp => ?_
    simp only [Bool.and_eq_true, decide_eq_true_eq] at hp
    exact colleague_reads hread (db.creatorOrg t ht) hc hp.1
  · refine any_scan fun c hc hp => ?_
    simp only [Bool.and_eq_true, decide_eq_true_eq] at hp
    exact colleague_reads hread (db.counterpartOrg t ht c.id hp.1) hc rfl

section Channel

variable {channel : ChannelId} {org : OrgId}
  (hchannel : ∃ ch ∈ db.channels, ch.id = channel ∧ ch.orgId = org)
  (hread : role.reads db org = true)

include hchannel hread

theorem channelMember_reads :
    channelMember db role user channel = channelMember db .privileged user channel := by
  simp only [channelMember, scan_privileged]
  refine any_scan fun m hm hp => ?_
  simp only [Bool.and_eq_true, decide_eq_true_eq] at hp
  obtain ⟨ch, hch, hid, horg⟩ := db.memberOrg m hm
  exact horg ▸ channel_reads hread hchannel hch (hid.trans hp.1)

theorem notArchived_reads : notArchived db role channel = notArchived db .privileged channel := by
  simp only [notArchived, scan_privileged]
  refine any_scan fun c hc hp => ?_
  simp only [Bool.and_eq_true, decide_eq_true_eq] at hp
  exact channel_reads hread hchannel hc hp.1

end Channel

theorem feedWhere_reads (ht : t ∈ db.threads) (hread : role.reads db t.orgId = true) :
    feedWhere db role user t = feedWhere db .privileged user t := by
  unfold feedWhere
  cases hc : t.channelId with
  | none => exact dmVisibleTo_reads ht hread
  | some channel =>
    have hchannel := db.channelOrg t ht channel hc
    simp only [channelMember_reads hchannel hread, notArchived_reads hchannel hread]

/-- What `isChannelMember` tests. -/
def memberWhere (db : ChatDb) (user : UserId) (t : ThreadRow) : Bool :=
  match t.channelId with
  | none => dmVisibleTo db .privileged user t
  | some channel => channelMember db .privileged user channel

def ThreadRow.isOpen (db : ChatDb) (t : ThreadRow) : Bool :=
  t.channelId.all (notArchived db .privileged)

theorem feedWhere_privileged :
    feedWhere db .privileged user t = (memberWhere db user t && t.isOpen db) := by
  unfold feedWhere memberWhere ThreadRow.isOpen
  cases t.channelId <;> simp

theorem isChannelMember_of_mem (ht : t ∈ db.threads) :
    isChannelMember db t.id user = .ok (memberWhere db user t) := by
  have hfind : db.threads.rows.find? (fun t' => decide (t'.id = t.id)) = some t :=
    Table.find?_of_mem ht
  simp only [isChannelMember, scan_privileged, hfind]
  rfl

theorem visibleTo_of_mem {caller : Caller} (ht : t ∈ db.threads) :
    visibleTo db caller t.id =
      (decide (t.orgId = caller.orgId) && appUserIsMember db caller.userId t.orgId &&
        feedWhere db .privileged caller.userId t) := by
  have hself : ∀ t' ∈ db.threads, t'.id = t.id → t' = t := fun t' ht' e => Table.eq_of_key_eq ht' ht e
  rw [Bool.eq_iff_iff]
  simp only [visibleTo, List.any_eq_true, mem_scan, Bool.and_eq_true, decide_eq_true_eq]
  constructor
  · rintro ⟨t', ⟨ht', hread⟩, ⟨hid, horg⟩, hgate⟩
    obtain rfl := hself t' ht' hid
    exact ⟨⟨horg, hread⟩, (feedWhere_reads ht hread).symm.trans hgate⟩
  · rintro ⟨⟨horg, hread⟩, hgate⟩
    have hreads : (Role.user caller.userId).reads db t.orgId = true := hread
    exact ⟨t, ⟨ht, hread⟩, ⟨rfl, horg⟩, (feedWhere_reads ht hreads).trans hgate⟩

theorem visibleTo_of_missing {caller : Caller} {thread : ThreadId}
    (h : ∀ t ∈ db.threads, t.id ≠ thread) : visibleTo db caller thread = false := by
  simp only [visibleTo, List.any_eq_false, mem_scan]
  rintro t ⟨ht, -⟩
  simp [h t ht]

section Decode

theorem participantOfColumns_row (c : ColleagueRow) :
    ∃ p, participantOfColumns (some c.id) (some c) = .ok p := by
  obtain ⟨hkind, hsat, -⟩ | ⟨hkind, hsat, -⟩ := c.satellite
  · obtain ⟨uid, huid⟩ := Option.isSome_iff_exists.mp hsat
    exact ⟨.human c.id uid, by simp [participantOfColumns, hkind, huid]⟩
  · obtain ⟨aid, haid⟩ := Option.isSome_iff_exists.mp hsat
    exact ⟨.agent c.id aid, by simp [participantOfColumns, hkind, haid]⟩

theorem decodeParticipant_ok {org : OrgId} (hread : role.reads db org = true)
    {id : Option ColleagueId} (h : ∀ k ∈ id, ∃ c ∈ db.colleagues, c.id = k ∧ c.orgId = org) :
    ∃ p, decodeParticipant db role id = .ok p ∧ decodeParticipant db .privileged id = .ok p := by
  have hsame : joinColleague db role id = joinColleague db .privileged id := by
    simp only [joinColleague, scan_privileged]
    refine find?_scan fun c hc hp => ?_
    exact colleague_reads hread (h c.id (of_decide_eq_true hp)) hc rfl
  simp only [decodeParticipant, hsame]
  cases id with
  | none => exact ⟨.system, rfl, rfl⟩
  | some k =>
    obtain ⟨c, hc, rfl, -⟩ := h k rfl
    have hjoin : joinColleague db .privileged (some c.id) = some c := by
      simp only [joinColleague, scan_privileged, Option.some.injEq, eq_comm (a := c.id)]
      exact Table.find?_of_mem hc
    obtain ⟨p, hp⟩ := participantOfColumns_row c
    exact ⟨p, by rw [hjoin, hp]; rfl, by rw [hjoin, hp]; rfl⟩

theorem feedRowToMessage_ok {m : ThreadMessageRow} (hm : m ∈ db.threadMessages)
    (hread : role.reads db m.orgId = true) :
    ∃ message, feedRowToMessage db role m = .ok message ∧
      feedRowToMessage db .privileged m = .ok message := by
  obtain ⟨sender, hs, hs'⟩ := decodeParticipant_ok hread (db.senderOrg m hm)
  obtain ⟨receiver, hr, hr'⟩ := decodeParticipant_ok hread (db.receiverOrg m hm)
  cases hrec : m.receiver with
  | none =>
    refine ⟨⟨m.seq, m.kind, sender, m.ownerAgentId, none, m.body, m.requestId, m.idempotencyKey,
      m.createdAt⟩, ?_, ?_⟩
    · simp only [feedRowToMessage, hs, hrec]
      rfl
    · simp only [feedRowToMessage, hs', hrec]
      rfl
  | some k =>
    rw [hrec] at hr hr'
    refine ⟨⟨m.seq, m.kind, sender, m.ownerAgentId, some receiver, m.body, m.requestId,
      m.idempotencyKey, m.createdAt⟩, ?_, ?_⟩
    · simp only [feedRowToMessage, hs, hrec, hr]
      rfl
    · simp only [feedRowToMessage, hs', hrec, hr']
      rfl

end Decode

def threadPage (db : ChatDb) (thread : ThreadId) (before : Option Int) (limit : Nat) :
    List ThreadMessageRow :=
  (latest (feedCap limit) (db.threadMessages.rows.filter fun m =>
    m.threadId = thread && beforeSeq before m)).reverse

theorem mem_latest {cap : Nat} {rows : List ThreadMessageRow} {m : ThreadMessageRow}
    (h : m ∈ latest cap rows) : m ∈ rows :=
  List.mem_mergeSort.mp (List.mem_of_mem_take h)

theorem mem_threadPage {thread : ThreadId} {before : Option Int} {limit : Nat} {m : ThreadMessageRow}
    (h : m ∈ threadPage db thread before limit) : m ∈ db.threadMessages ∧ m.threadId = thread := by
  have hm := List.mem_filter.mp (mem_latest (List.mem_reverse.mp h))
  simp only [Bool.and_eq_true, decide_eq_true_eq] at hm
  exact ⟨hm.1, hm.2.1⟩

theorem visibleTo_reads {caller : Caller} {thread : ThreadId} (h : visibleTo db caller thread = true)
    {m : ThreadMessageRow} (hm : m ∈ db.threadMessages) (hthread : m.threadId = thread) :
    (Role.user caller.userId).reads db m.orgId = true := by
  obtain ⟨t, ht, hid, horg⟩ := db.messageOrg m hm
  rw [← hthread, ← hid, visibleTo_of_mem ht] at h
  simp only [Bool.and_eq_true] at h
  exact horg ▸ h.1.2

theorem feedRows_eq (caller : Caller) (thread : ThreadId) (before : Option Int) (limit : Nat) :
    (feedRows db (.user caller.userId) caller thread before (feedCap limit)).reverse =
      if visibleTo db caller thread then threadPage db thread before limit else [] := by
  unfold feedRows threadPage
  split
  · next hv =>
    congr 2
    rw [filter_scan]
    refine List.filter_congr fun m hm => ?_
    by_cases hthread : m.threadId = thread
    · have hany : (Role.scan db (.user caller.userId) db.threads (·.orgId)).any (fun t =>
          decide (t.id = m.threadId) && decide (t.orgId = caller.orgId) &&
            feedWhere db (.user caller.userId) caller.userId t) = true := by
        rw [hthread]
        exact hv
      rw [hany, visibleTo_reads hv hm hthread]
      simp
    · simp [hthread]
  · next hv =>
    have hnone : ((Role.user caller.userId).scan db db.threadMessages (·.orgId)).filter (fun m =>
        decide (m.threadId = thread) && (Role.scan db (.user caller.userId) db.threads (·.orgId)).any
          (fun t => decide (t.id = m.threadId) && decide (t.orgId = caller.orgId) &&
            feedWhere db (.user caller.userId) caller.userId t) && beforeSeq before m) = [] := by
      refine List.filter_eq_nil_iff.mpr fun m _ => ?_
      simp only [Bool.and_eq_true, decide_eq_true_eq]
      rintro ⟨⟨rfl, hany⟩, -⟩
      exact hv hany
    rw [hnone]
    simp [latest]

end Patom.Threads
