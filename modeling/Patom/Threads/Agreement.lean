import Patom.Threads.Visibility

open Patom.Foundation
open Patom.Provider (ChatMessage)

namespace Patom.Threads

section MapM

variable {α β ε : Type} {f g : α → Except ε β}

theorem mapM_ok {l : List α} (h : ∀ x ∈ l, ∃ y, f x = .ok y ∧ g x = .ok y) :
    ∃ ys, l.mapM f = .ok ys ∧ l.mapM g = .ok ys ∧ List.Forall₂ (fun x y => f x = .ok y) l ys := by
  induction l with
  | nil => exact ⟨[], rfl, rfl, .nil⟩
  | cons x l ih =>
    obtain ⟨y, hf, hg⟩ := h x List.mem_cons_self
    obtain ⟨ys, hfs, hgs, hall⟩ := ih fun x' hx' => h x' (List.mem_cons_of_mem x hx')
    refine ⟨y :: ys, ?_, ?_, .cons hf hall⟩
    · rw [List.mapM_cons, hf, hfs]
      rfl
    · rw [List.mapM_cons, hg, hgs]
      rfl

end MapM

variable {db : ChatDb} {caller : Caller} {thread : ThreadId} {t : ThreadRow}

theorem feed_eq (before : Option Int) (limit : Nat) :
    ∃ messages, feed db caller thread before limit = .ok messages ∧
      (if visibleTo db caller thread then threadPage db thread before limit else []).mapM
        (feedRowToMessage db .privileged) = .ok messages := by
  simp only [feed, feedRows_eq]
  obtain ⟨messages, h, h', -⟩ := mapM_ok
    (l := if visibleTo db caller thread then threadPage db thread before limit else [])
    (f := feedRowToMessage db (.user caller.userId)) (g := feedRowToMessage db .privileged)
    fun m hm => by
      split at hm
      · next hv =>
        obtain ⟨hmem, hthread⟩ := mem_threadPage hm
        exact feedRowToMessage_ok hmem (visibleTo_reads hv hmem hthread)
      · cases hm
  exact ⟨messages, h, h'⟩

def ThreadRow.InScope (t : ThreadRow) : ThreadScope → Prop
  | .channel channel => t.channelId = some channel
  | .dms none => t.channelId = none
  | .dms (some k) =>
    t.channelId = none ∧ (t.dmCounterpartColleagueId = some k ∨ t.createdByColleagueId = k)

theorem listWhere_inScope {role : Role} {user : UserId} {scope : ThreadScope}
    (hscope : t.InScope scope) : listWhere db role user t scope = feedWhere db role user t := by
  cases scope with
  | channel channel =>
    have hc : t.channelId = some channel := hscope
    simp [listWhere, LIST_WHERE_CHANNEL, feedWhere, hc]
  | dms counterpart =>
    cases counterpart with
    | none =>
      have hc : t.channelId = none := hscope
      simp [listWhere, LIST_WHERE_DM, feedWhere, hc]
    | some k =>
      obtain ⟨hc, hk⟩ := hscope
      simp [listWhere, LIST_WHERE_DM, feedWhere, hc, hk]

theorem mem_listed {scope : ThreadScope} (ht : t ∈ db.threads) (hscope : t.InScope scope) :
    (∃ t' ∈ listed db (.user caller.userId) caller scope, t'.id = t.id) ↔
      visibleTo db caller t.id = true := by
  rw [visibleTo_of_mem ht]
  simp only [listed, List.mem_mergeSort, List.mem_filter, mem_scan, Bool.and_eq_true,
    decide_eq_true_eq]
  constructor
  · rintro ⟨t', ⟨⟨ht', hread⟩, horg, hwhere⟩, hid⟩
    obtain rfl : t' = t := Table.eq_of_key_eq ht' ht hid
    rw [listWhere_inScope hscope] at hwhere
    exact ⟨⟨horg, hread⟩, (feedWhere_reads ht hread).symm.trans hwhere⟩
  · rintro ⟨⟨horg, hread⟩, hwhere⟩
    refine ⟨t, ⟨⟨ht, hread⟩, horg, ?_⟩, rfl⟩
    rw [listWhere_inScope hscope]
    have hreads : (Role.user caller.userId).reads db t.orgId = true := hread
    exact (feedWhere_reads ht hreads).trans hwhere

section List

variable (firstValue : ChatMessage → Option String)

theorem listRowToItem_ok (db : ChatDb) (role : Role) (t : ThreadRow) :
    ∃ item, listRowToItem firstValue db role t = .ok item ∧ item.threadId = t.id := by
  cases hroot : (postedRows db role t).head? with
  | none =>
    refine ⟨⟨t.id, t.channelId, t.lastActivityAt, none, (postedRows db role t).length - 1⟩, ?_, rfl⟩
    simp only [listRowToItem, hroot]
    rfl
  | some m =>
    have hm : m ∈ role.scan db db.threadMessages (·.orgId) :=
      (List.mem_filter.mp (List.mem_mergeSort.mp (List.mem_of_mem_head? hroot))).1
    obtain ⟨hmem, hread⟩ := mem_scan.mp hm
    obtain ⟨sender, hs, -⟩ := decodeParticipant_ok hread (db.senderOrg m hmem)
    refine ⟨⟨t.id, t.channelId, t.lastActivityAt, some (rootSummary firstValue m sender),
      (postedRows db role t).length - 1⟩, ?_, rfl⟩
    simp only [listRowToItem, hroot, hs]
    rfl

theorem listThreads_ok (db : ChatDb) (caller : Caller) (scope : ThreadScope) :
    ∃ items, listThreads firstValue db caller scope = .ok items ∧
      items.map (·.threadId) =
        ((listed db (.user caller.userId) caller scope).take MAX_THREAD_LIST).map (·.id) := by
  let role := Role.user caller.userId
  obtain ⟨items, h, -, hall⟩ := mapM_ok (l := (listed db role caller scope).take MAX_THREAD_LIST)
    (f := listRowToItem firstValue db role) (g := listRowToItem firstValue db role)
    fun t _ => by
      obtain ⟨item, hitem, -⟩ := listRowToItem_ok firstValue db role t
      exact ⟨item, hitem, hitem⟩
  refine ⟨items, h, ?_⟩
  clear h
  generalize (listed db (.user caller.userId) caller scope).take MAX_THREAD_LIST = rows at hall ⊢
  induction hall with
  | nil => rfl
  | cons hx _ ih =>
    obtain ⟨item, hitem, hid⟩ := listRowToItem_ok firstValue db role _
    cases hitem.symm.trans hx
    rw [List.map_cons, List.map_cons, ih, hid]

/-- What the four read paths owe one another for one caller and one thread. -/
structure ReadsAgree (db : ChatDb) (caller : Caller) (thread : ThreadId) : Prop where
  feed : ∀ before limit, ∃ messages, feed db caller thread before limit = .ok messages ∧
    (if visibleTo db caller thread then threadPage db thread before limit else []).mapM
      (feedRowToMessage db .privileged) = .ok messages
  list : ∀ t ∈ db.threads, t.id = thread → ∀ scope, t.InScope scope →
    (listed db (.user caller.userId) caller scope).length ≤ MAX_THREAD_LIST →
    ∃ items, listThreads firstValue db caller scope = .ok items ∧
      (thread ∈ items.map (·.threadId) ↔ visibleTo db caller thread = true)
  member : visibleTo db caller thread = true ↔
    ∃ t ∈ db.threads, t.id = thread ∧ t.orgId = caller.orgId ∧
      appUserIsMember db caller.userId t.orgId = true ∧ t.isOpen db = true ∧
      isChannelMember db thread caller.userId = .ok true

theorem reads_agree (db : ChatDb) (caller : Caller) (thread : ThreadId) :
    ReadsAgree firstValue db caller thread where
  feed := feed_eq
  list t ht hid scope hscope hlimit := by
    obtain ⟨items, hitems, hmap⟩ := listThreads_ok firstValue db caller scope
    refine ⟨items, hitems, ?_⟩
    rw [hmap, List.take_of_length_le hlimit, ← hid, List.mem_map]
    exact mem_listed ht hscope
  member := by
    constructor
    · intro hv
      by_cases hmem : ∃ t ∈ db.threads, t.id = thread
      · obtain ⟨t, ht, rfl⟩ := hmem
        rw [visibleTo_of_mem ht, feedWhere_privileged] at hv
        simp only [Bool.and_eq_true, decide_eq_true_eq] at hv
        obtain ⟨⟨horg, huser⟩, hmember, hopen⟩ := hv
        exact ⟨t, ht, rfl, horg, huser, hopen, by rw [isChannelMember_of_mem ht, hmember]⟩
      · rw [visibleTo_of_missing fun t ht e => hmem ⟨t, ht, e⟩] at hv
        cases hv
    · rintro ⟨t, ht, rfl, horg, huser, hopen, hmember⟩
      rw [isChannelMember_of_mem ht] at hmember
      rw [visibleTo_of_mem ht, feedWhere_privileged, Except.ok.inj hmember, hopen, huser, horg]
      simp

end List

namespace Sample

def colleague : ColleagueRow := ⟨5, 1, .human, some 9, none, by decide⟩

def timeline : ThreadRow :=
  { id := 2, orgId := 1, channelId := some 3, createdByColleagueId := 5
    dmCounterpartColleagueId := none, lastActivityAt := 10, channelXorCounterpart := .inr rfl }

def chat (members : List OrgMemberRow) (hmembers : (members.map key).Nodup)
    (archivedAt : Option Time) : ChatDb where
  orgMembers := ⟨members, hmembers⟩
  colleagues := .single colleague
  channels := .single ⟨3, 1, archivedAt⟩
  channelMembers := .single ⟨3, 9, 1⟩
  threads := .single timeline
  threadMessages := .empty
  channelOrg t ht c hc := by
    cases List.mem_singleton.mp ht
    cases hc
    exact ⟨⟨3, 1, archivedAt⟩, List.mem_singleton.mpr rfl, rfl, rfl⟩
  memberOrg m hm := by
    cases List.mem_singleton.mp hm
    exact ⟨⟨3, 1, archivedAt⟩, List.mem_singleton.mpr rfl, rfl, rfl⟩
  creatorOrg t ht := by
    cases List.mem_singleton.mp ht
    exact ⟨colleague, List.mem_singleton.mpr rfl, rfl, rfl⟩
  counterpartOrg t ht k hk := by
    cases List.mem_singleton.mp ht
    cases hk
  messageOrg m hm := absurd hm (Table.not_mem_empty m)
  senderOrg m hm := absurd hm (Table.not_mem_empty m)
  receiverOrg m hm := absurd hm (Table.not_mem_empty m)

def archived : ChatDb := chat [⟨1, 9⟩] (by decide) (some 20)

def removed : ChatDb := chat [] (by decide) none

end Sample

/-- A member of an archived channel, and one who has left the organization, can be posted to in a
thread they cannot see. -/
theorem member_unseen :
    isChannelMember Sample.archived 2 9 = .ok true ∧ visibleTo Sample.archived ⟨9, 1⟩ 2 = false ∧
      isChannelMember Sample.removed 2 9 = .ok true ∧ visibleTo Sample.removed ⟨9, 1⟩ 2 = false := by
  decide

end Patom.Threads
