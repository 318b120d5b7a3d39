import Patom.Threads.Visibility

open Patom.Foundation

namespace Patom.Threads

namespace ChatDb

variable (db : ChatDb)

structure ThreadKeys (t : ThreadRow) : Prop where
  channel : ∀ c ∈ t.channelId, ∃ ch ∈ db.channels, ch.id = c ∧ ch.orgId = t.orgId
  creator : ∃ c ∈ db.colleagues, c.id = t.createdByColleagueId ∧ c.orgId = t.orgId
  counterpart : ∀ k ∈ t.dmCounterpartColleagueId,
    ∃ c ∈ db.colleagues, c.id = k ∧ c.orgId = t.orgId

structure MessageKeys (m : ThreadMessageRow) : Prop where
  thread : ∃ t ∈ db.threads, t.id = m.threadId ∧ t.orgId = m.orgId
  sender : ∀ k ∈ m.sender, ∃ c ∈ db.colleagues, c.id = k ∧ c.orgId = m.orgId
  receiver : ∀ k ∈ m.receiver, ∃ c ∈ db.colleagues, c.id = k ∧ c.orgId = m.orgId

theorem threadKeys_iff {t : ThreadRow} : db.ThreadKeys t ↔
    (∀ c ∈ t.channelId, ∃ ch ∈ db.channels, ch.id = c ∧ ch.orgId = t.orgId) ∧
    (∃ c ∈ db.colleagues, c.id = t.createdByColleagueId ∧ c.orgId = t.orgId) ∧
    ∀ k ∈ t.dmCounterpartColleagueId, ∃ c ∈ db.colleagues, c.id = k ∧ c.orgId = t.orgId :=
  ⟨fun h => ⟨h.channel, h.creator, h.counterpart⟩, fun ⟨h, h', h''⟩ => ⟨h, h', h''⟩⟩

theorem messageKeys_iff {m : ThreadMessageRow} : db.MessageKeys m ↔
    (∃ t ∈ db.threads, t.id = m.threadId ∧ t.orgId = m.orgId) ∧
    (∀ k ∈ m.sender, ∃ c ∈ db.colleagues, c.id = k ∧ c.orgId = m.orgId) ∧
    ∀ k ∈ m.receiver, ∃ c ∈ db.colleagues, c.id = k ∧ c.orgId = m.orgId :=
  ⟨fun h => ⟨h.thread, h.sender, h.receiver⟩, fun ⟨h, h', h''⟩ => ⟨h, h', h''⟩⟩

instance colleagueKeyDecidable (org : OrgId) (o : Option ColleagueId) :
    Decidable (∀ k ∈ o, ∃ c ∈ db.colleagues, c.id = k ∧ c.orgId = org) :=
  Option.decidableForallMem o

instance channelKeyDecidable (org : OrgId) (o : Option ChannelId) :
    Decidable (∀ c ∈ o, ∃ ch ∈ db.channels, ch.id = c ∧ ch.orgId = org) :=
  Option.decidableForallMem o

instance threadKeysDecidable (t : ThreadRow) : Decidable (db.ThreadKeys t) :=
  decidable_of_iff _ db.threadKeys_iff.symm

instance messageKeysDecidable (m : ThreadMessageRow) : Decidable (db.MessageKeys m) :=
  decidable_of_iff _ db.messageKeys_iff.symm

def addThread {t : ThreadRow} {threads : Table ThreadRow} (hk : db.ThreadKeys t)
    (h : db.threads.insert? t = some threads) : ChatDb :=
  { db with
    threads
    channelOrg := fun t' ht' => by
      obtain ht' | rfl := (Table.mem_insert? h).mp ht'
      · exact db.channelOrg t' ht'
      · exact hk.channel
    creatorOrg := fun t' ht' => by
      obtain ht' | rfl := (Table.mem_insert? h).mp ht'
      · exact db.creatorOrg t' ht'
      · exact hk.creator
    counterpartOrg := fun t' ht' => by
      obtain ht' | rfl := (Table.mem_insert? h).mp ht'
      · exact db.counterpartOrg t' ht'
      · exact hk.counterpart
    messageOrg := fun m hm => by
      obtain ⟨t', ht', hid, horg⟩ := db.messageOrg m hm
      exact ⟨t', (Table.mem_insert? h).mpr (.inl ht'), hid, horg⟩ }

def addMessage {m : ThreadMessageRow} {threadMessages : Table ThreadMessageRow}
    (hk : db.MessageKeys m) (h : db.threadMessages.insert? m = some threadMessages) : ChatDb :=
  { db with
    threadMessages
    messageOrg := fun m' hm' => by
      obtain hm' | rfl := (Table.mem_insert? h).mp hm'
      · exact db.messageOrg m' hm'
      · exact hk.thread
    senderOrg := fun m' hm' => by
      obtain hm' | rfl := (Table.mem_insert? h).mp hm'
      · exact db.senderOrg m' hm'
      · exact hk.sender
    receiverOrg := fun m' hm' => by
      obtain hm' | rfl := (Table.mem_insert? h).mp hm'
      · exact db.receiverOrg m' hm'
      · exact hk.receiver }

def insertThread (t : ThreadRow) : Option ChatDb :=
  if hk : db.ThreadKeys t then
    match h : db.threads.insert? t with
    | none => none
    | some _ => some (db.addThread hk h)
  else none

def insertMessage (m : ThreadMessageRow) : Option ChatDb :=
  if hk : db.MessageKeys m then
    match h : db.threadMessages.insert? m with
    | none => none
    | some _ => some (db.addMessage hk h)
  else none

variable {db}

structure ThreadAdded (db db' : ChatDb) (t : ThreadRow) : Prop where
  keys : db.ThreadKeys t
  threads : db.threads.insert? t = some db'.threads
  rest : db'.orgMembers = db.orgMembers ∧ db'.colleagues = db.colleagues ∧
    db'.channels = db.channels ∧ db'.channelMembers = db.channelMembers ∧
    db'.threadMessages = db.threadMessages

structure MessageAdded (db db' : ChatDb) (m : ThreadMessageRow) : Prop where
  keys : db.MessageKeys m
  threadMessages : db.threadMessages.insert? m = some db'.threadMessages
  rest : db'.orgMembers = db.orgMembers ∧ db'.colleagues = db.colleagues ∧
    db'.channels = db.channels ∧ db'.channelMembers = db.channelMembers ∧
    db'.threads = db.threads

theorem insertThread_added {db' : ChatDb} {t : ThreadRow} (h : db.insertThread t = some db') :
    ThreadAdded db db' t := by
  unfold insertThread at h
  split at h
  case isFalse => cases h
  case isTrue hk =>
    split at h
    case h_1 => cases h
    case h_2 hins =>
      cases h
      exact ⟨hk, hins, rfl, rfl, rfl, rfl, rfl⟩

theorem insertMessage_added {db' : ChatDb} {m : ThreadMessageRow}
    (h : db.insertMessage m = some db') : MessageAdded db db' m := by
  unfold insertMessage at h
  split at h
  case isFalse => cases h
  case isTrue hk =>
    split at h
    case h_1 => cases h
    case h_2 hins =>
      cases h
      exact ⟨hk, hins, rfl, rfl, rfl, rfl, rfl⟩

end ChatDb

end Patom.Threads
