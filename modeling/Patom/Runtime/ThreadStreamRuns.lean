import Patom.Runtime.Claims
import Patom.Runtime.Delivery
import Patom.Runtime.ThreadStream

open Patom.Foundation

namespace Patom.Runtime.ThreadStream

namespace PgThreadStream

variable {db : Db} {colleagues : Table Colleague} {cap : SlotCap} {s t : PgThreadStream}

section Gapless

variable (db)

def ofThread (thread : ThreadId) (ids : List (PromptRequestId × ChunkSeq)) :
    List (PromptRequestId × ChunkSeq) :=
  ids.filter fun id => threadOf db id.1 = some thread

theorem ofThread_append (thread : ThreadId) (ids ids' : List (PromptRequestId × ChunkSeq)) :
    ofThread db thread (ids ++ ids') = ofThread db thread ids ++ ofThread db thread ids' :=
  List.filter_append ..

def Stands (s : PgThreadStream) (d : Connection) : Prop := ∃ slot ∈ s.table.slots, slot.tx = d.tx

/-- What a connection is sent is a stretch of its thread's log that begins no later than the
connection; while its slot stands, only what has not been taken yet comes after it. -/
structure Gapless (s : PgThreadStream) (d : Connection) : Prop where
  since : d.since ≤ s.log.length
  stretch : ∃ before rest, before <+: ofThread db d.threadId (s.log.take d.since) ∧
    ofThread db d.threadId s.log =
      before ++ (d.sent.map ThreadStreamItem.id ++ s.inFlight d.tx) ++ rest ∧
    (s.Stands d → rest = ofThread db d.threadId (s.notified.map NotifyPayload.id))

variable (colleagues cap)

structure CleanInv (s : PgThreadStream) : Prop extends Inv db colleagues cap s where
  all : ∃ handled, s.log = handled ++ s.coming
  gapless : ∀ d ∈ s.connections, Gapless db s d

def Received : Prop := ∀ request ∈ db.promptRequests,
  ∃ rc, colleagues.find? request.receiverColleagueId = some rc ∧ rc.agentId.isSome

variable {db colleagues cap}

theorem cleanInv_init : CleanInv db colleagues cap .init where
  toInv := inv_init
  all := ⟨[], rfl⟩
  gapless d h := absurd h (Table.not_mem_empty d)

theorem Gapless.frame {d d' : Connection} (h : Gapless db s d) (hthread : d'.threadId = d.threadId)
    (htx : d'.tx = d.tx) (hsent : d'.sent = d.sent) (hsince : d'.since = d.since)
    (hresponses : t.responses = s.responses) (hnotified : t.notified = s.notified)
    (hlistener : t.listener = s.listener) (hstands : t.Stands d' → s.Stands d) : Gapless db t d' := by
  have hlog : t.log = s.log := by rw [log, hresponses, log]
  obtain ⟨before, rest, hbefore, hstretch, hrest⟩ := h.stretch
  refine ⟨by rw [hsince, hlog]; exact h.since, before, rest, ?_, ?_, fun hd => ?_⟩
  · rw [hthread, hlog, hsince]
    exact hbefore
  · rw [hthread, hlog, hsent, htx, inFlight_congr hlistener]
    exact hstretch
  · rw [hthread, hnotified]
    exact hrest (hstands hd)

theorem Gapless.publish {request : PromptRequestId} {chunk : ResponseChunk} {now : Time}
    {d : Connection} (h : Gapless db s d) : Gapless db (s.publish db request chunk now) d := by
  obtain hsame | ⟨id, hlog, hnotified⟩ := publish_log db s request chunk now
  · rw [hsame]
    exact h
  · obtain ⟨htable, -, hlistener⟩ := publish_frame db s request chunk now
    obtain ⟨before, rest, hbefore, hstretch, hrest⟩ := h.stretch
    refine ⟨?_, before, rest ++ ofThread db d.threadId [id], ?_, ?_, fun hd => ?_⟩
    · rw [hlog, List.length_append]
      exact Nat.le_add_right_of_le h.since
    · rw [hlog, List.take_append_of_le_length h.since]
      exact hbefore
    · rw [hlog, ofThread_append, hstretch, inFlight_congr hlistener, List.append_assoc _ rest]
    · rw [Stands, htable, ← Stands] at hd
      rw [hnotified, ofThread_append, hrest hd]

theorem cleanInv_publish (h : CleanInv db colleagues cap s) (request : PromptRequestId)
    (chunk : ResponseChunk) (now : Time) :
    CleanInv db colleagues cap (s.publish db request chunk now) := by
  obtain ⟨-, hconnections, hlistener⟩ := publish_frame db s request chunk now
  refine ⟨inv_publish h.toInv request chunk now, ?_, fun d hd => ?_⟩
  · obtain ⟨handled, hall⟩ := h.all
    obtain hsame | ⟨id, hlog, hnotified⟩ := publish_log db s request chunk now
    · rw [hsame]
      exact ⟨handled, hall⟩
    · refine ⟨handled, ?_⟩
      rw [hlog, hall, coming, coming, hlistener, hnotified, List.append_assoc, List.append_assoc]
  · rw [hconnections] at hd
    exact (h.gapless d hd).publish

theorem receivers_pos {d : Connection} (hd : d ∈ s.connections) : 0 < s.receivers d.tx :=
  List.length_pos_of_mem (List.mem_filter.mpr ⟨hd, decide_eq_true rfl⟩)

theorem ofThread_cons_of_ne {thread : ThreadId} {id : PromptRequestId × ChunkSeq}
    (h : threadOf db id.1 ≠ some thread) (ids : List (PromptRequestId × ChunkSeq)) :
    ofThread db thread (id :: ids) = ofThread db thread ids :=
  List.filter_cons_of_neg (by simpa using h)

theorem ofThread_cons_of_eq {thread : ThreadId} {id : PromptRequestId × ChunkSeq}
    (h : threadOf db id.1 = some thread) (ids : List (PromptRequestId × ChunkSeq)) :
    ofThread db thread (id :: ids) = id :: ofThread db thread ids :=
  List.filter_cons_of_pos (by simpa using h)

theorem Gapless.skip (hs : Inv db colleagues cap s) {payload : NotifyPayload}
    {notified : List NotifyPayload} (hnotified : s.notified = payload :: notified)
    (hnone : ∀ slot ∈ s.table.slots, payload.threadId = some slot.threadId → s.receivers slot.tx = 0)
    {d : Connection} (hd : d ∈ s.connections) (h : Gapless db s d) :
    Gapless db { s with notified } d := by
  obtain ⟨before, rest, hbefore, hstretch, hrest⟩ := h.stretch
  refine ⟨h.since, before, rest, hbefore, hstretch, fun hstands => ?_⟩
  rw [hrest hstands, hnotified, List.map_cons]
  refine ofThread_cons_of_ne (fun hthread => ?_) _
  obtain ⟨slot, hslot, htx⟩ := hstands
  have hpayload : payload.threadId = some slot.threadId := by
    rw [hs.slots d hd slot hslot htx, hs.threads payload (hnotified ▸ List.mem_cons_self)]
    exact hthread
  exact (receivers_pos hd).ne' (htx ▸ hnone slot hslot hpayload)

theorem Gapless.fetching (hs : Inv db colleagues cap s) {payload : NotifyPayload}
    {notified : List NotifyPayload} (hidle : s.listener = .idle)
    (hnotified : s.notified = payload :: notified) {slot : ThreadSlot} (hslot : slot ∈ s.table.slots)
    (hpayload : payload.threadId = some slot.threadId) {d : Connection} (hd : d ∈ s.connections)
    (h : Gapless db s d) :
    Gapless db { s with notified, listener := .fetching payload slot.threadId slot.tx } d := by
  obtain ⟨before, rest, hbefore, hstretch, hrest⟩ := h.stretch
  have hthread : threadOf db payload.requestId = some slot.threadId := by
    rw [← hs.threads payload (hnotified ▸ List.mem_cons_self)]
    exact hpayload
  rw [hnotified, List.map_cons] at hrest
  rw [inFlight_idle hidle, List.append_nil] at hstretch
  by_cases htx : slot.tx = d.tx
  · -- the connection's slot: the notification goes from ahead of the listener to its hands
    have hown : threadOf db payload.requestId = some d.threadId := by
      rw [hthread, hs.slots d hd slot hslot htx]
    refine ⟨h.since, before, ofThread db d.threadId (notified.map NotifyPayload.id), hbefore, ?_,
      fun _ => rfl⟩
    rw [inFlight_fetching rfl, if_pos htx, ← List.append_assoc, List.append_assoc _ [payload.id]]
    refine hstretch.trans (congrArg _ ?_)
    exact (hrest ⟨slot, hslot, htx⟩).trans (ofThread_cons_of_eq hown _)
  · refine ⟨h.since, before, rest, hbefore, ?_, fun ⟨slot', hslot', htx'⟩ => ?_⟩
    · rw [inFlight_fetching rfl, if_neg htx, List.append_nil]
      exact hstretch
    · -- only the slot of another thread can stand beside the one that was found
      refine (hrest ⟨slot', hslot', htx'⟩).trans (ofThread_cons_of_ne (fun hown => htx ?_) _)
      have hsame : slot.threadId = slot'.threadId := by
        rw [hs.slots d hd slot' hslot' htx']
        exact Option.some.inj (hthread.symm.trans hown)
      rw [Table.eq_of_key_eq hslot hslot' hsame]
      exact htx'

theorem cleanInv_recv (h : CleanInv db colleagues cap s) (ht : s.recv = some t) :
    CleanInv db colleagues cap t := by
  have hinv := inv_recv h.toInv ht
  obtain ⟨payload, notified, hidle, hnotified, hcases⟩ := recv_cases ht
  obtain ⟨handled, hall⟩ := h.all
  simp only [coming, hidle, hnotified, Listener.taken, List.nil_append, List.map_cons] at hall
  obtain ⟨rfl, hnone⟩ | ⟨slot, hslot, hpayload, rfl⟩ := hcases
  · refine ⟨hinv, ⟨handled ++ [payload.id], ?_⟩, fun d hd =>
      (h.gapless d hd).skip h.toInv hnotified hnone hd⟩
    rw [coming, hidle, List.append_assoc]
    exact hall
  · exact ⟨hinv, ⟨handled, hall⟩, fun d hd =>
      (h.gapless d hd).fetching h.toInv hidle hnotified hslot hpayload hd⟩

theorem fetchItem_total (hreceived : Received db colleagues) {payload : NotifyPayload}
    {thread : ThreadId} (hlog : payload.id ∈ s.log)
    (hthread : threadOf db payload.requestId = some thread) :
    ∃ item, fetchItem db colleagues s.responses payload thread = some item := by
  obtain ⟨row, hrow, hkey⟩ := List.mem_map.mp hlog
  have hfind : s.responses.chunks.find? (payload.requestId, payload.chunkSeq) = some row :=
    Table.find?_eq_some.mpr ⟨hrow, hkey⟩
  obtain ⟨request, hrequest, -⟩ := Option.bind_eq_some_iff.mp hthread
  obtain ⟨rc, hrc, hagent⟩ := hreceived request (Table.mem_of_find? hrequest)
  obtain ⟨agent, hagent⟩ := Option.isSome_iff_exists.mp hagent
  simp [fetchItem, hfind, hrequest, hrc, hagent]

theorem Gapless.offer {payload : NotifyPayload} {thread : ThreadId} {tx : Sender}
    {item : ThreadStreamItem} (hfetching : s.listener = .fetching payload thread tx)
    (hid : item.id = payload.id) {d : Connection} (h : Gapless db s d) :
    Gapless db ({ s with listener := .idle }.send tx item) (Connection.offer tx item d) := by
  obtain ⟨before, rest, hbefore, hstretch, hrest⟩ := h.stretch
  rw [inFlight_fetching hfetching] at hstretch
  unfold Connection.offer
  by_cases htx : d.tx = tx
  · rw [if_pos htx]
    refine ⟨h.since, before, rest, hbefore, ?_, hrest⟩
    rw [if_pos htx.symm] at hstretch
    rw [inFlight_idle rfl, List.append_nil, List.map_append, List.map_singleton, hid]
    exact hstretch
  · rw [if_neg htx]
    refine ⟨h.since, before, rest, hbefore, ?_, hrest⟩
    rw [if_neg (Ne.symm htx)] at hstretch
    rw [inFlight_idle rfl]
    exact hstretch

theorem cleanInv_fetched (hreceived : Received db colleagues) (h : CleanInv db colleagues cap s)
    {fault : Bool} (hfault : fault ≠ true) (ht : s.fetched db colleagues fault = some t) :
    CleanInv db colleagues cap t := by
  have hinv := inv_fetched h.toInv ht
  obtain ⟨payload, thread, tx, hfetching, hcases⟩ := fetched_cases ht
  obtain ⟨handled, hall⟩ := h.all
  have hlog : payload.id ∈ s.log := by
    rw [hall, coming, hfetching, Listener.taken]
    simp
  obtain ⟨hthread, -⟩ := h.flight payload thread tx hfetching
  obtain ⟨item, hitem⟩ := fetchItem_total hreceived hlog hthread
  obtain ⟨hskip, -⟩ | ⟨item, hitem, rfl⟩ := hcases
  · obtain hskip | hskip := hskip
    · exact absurd hskip hfault
    · cases hskip.symm.trans hitem
  · refine ⟨hinv, ⟨handled ++ [payload.id], ?_⟩, fun d' hd' => ?_⟩
    · rw [coming, hfetching, Listener.taken] at hall
      rw [List.append_assoc]
      exact hall
    · simp only [send, Table.mem_modify] at hd'
      obtain ⟨d, hd, rfl⟩ := hd'
      exact (h.gapless d hd).offer hfetching (fetchItem_id hitem).1

theorem cleanInv_drop (h : CleanInv db colleagues cap s) (id : Uuid) :
    CleanInv db colleagues cap (s.drop id) := by
  refine ⟨inv_drop h.toInv id, h.all, fun d hd => ?_⟩
  have hmem : d ∈ s.connections := (Table.mem_delete.mp hd).1
  exact (h.gapless d hmem).frame rfl rfl rfl rfl rfl rfl rfl fun hstands => hstands

theorem cleanInv_poll (h : CleanInv db colleagues cap s) {id : Uuid} (ht : s.poll id = some t) :
    CleanInv db colleagues cap t := by
  have hinv := inv_poll h.toInv ht
  obtain ⟨d, hfind, ⟨got, receiver, -, rfl⟩ | ⟨-, -, rfl⟩⟩ := poll_cases ht
  · refine ⟨hinv, h.all, fun d' hd' => ?_⟩
    obtain rfl | ⟨hd', -⟩ := Table.mem_put.mp hd'
    · exact (h.gapless d (Table.mem_of_find? hfind)).frame rfl rfl rfl rfl rfl rfl rfl
        fun hstands => hstands
    · exact (h.gapless d' hd').frame rfl rfl rfl rfl rfl rfl rfl fun hstands => hstands
  · exact cleanInv_drop h id

theorem Gapless.begins (ht : Inv db colleagues cap t) {d : Connection} (hd : d ∈ t.connections)
    (hsent : d.sent = []) (hsince : d.since = t.log.length)
    {handled : List (PromptRequestId × ChunkSeq)} (hall : t.log = handled ++ t.coming) :
    Gapless db t d := by
  have hsplit : ∃ before, ofThread db d.threadId (handled ++ t.listener.taken) =
      before ++ t.inFlight d.tx := by
    cases hl : t.listener with
    | idle => exact ⟨_, by rw [inFlight_idle hl, List.append_nil]⟩
    | fetching payload thread tx =>
      rw [inFlight_fetching hl]
      by_cases htx : tx = d.tx
      · refine ⟨ofThread db d.threadId handled, ?_⟩
        obtain rfl := ht.flights d hd payload thread tx hl htx
        rw [if_pos htx, ofThread_append, Listener.taken,
          ofThread_cons_of_eq (ht.flight payload _ tx hl).1]
        rfl
      · exact ⟨_, by rw [if_neg htx, List.append_nil]⟩
  obtain ⟨before, hbefore⟩ := hsplit
  have hstretch : ofThread db d.threadId t.log = before ++ t.inFlight d.tx ++
      ofThread db d.threadId (t.notified.map NotifyPayload.id) := by
    rw [hall, coming, ← List.append_assoc, ofThread_append, hbefore]
  refine ⟨hsince.le, before, _, ?_, ?_, fun _ => rfl⟩
  · rw [hsince, List.take_length, hstretch, List.append_assoc]
    exact List.prefix_append _ _
  · rw [hsent]
    exact hstretch

theorem cleanInv_subscribe (h : CleanInv db colleagues cap s) {id : Uuid} {thread : ThreadId}
    (ht : s.subscribe cap id thread = some t) : CleanInv db colleagues cap t := by
  have hinv := inv_subscribe h.toInv ht
  obtain ⟨table, slot, htouched, -, rfl⟩ := subscribe_cases h.toInv ht
  obtain ⟨handled, hall⟩ := h.all
  refine ⟨hinv, ⟨handled, hall⟩, fun d hd => ?_⟩
  obtain rfl | ⟨hd', -⟩ := Table.mem_put.mp hd
  · exact .begins hinv hd rfl (List.length_map _).symm hall
  · refine (h.gapless d hd').frame rfl rfl rfl rfl rfl rfl rfl fun ⟨slot', hslot', htx⟩ => ?_
    exact ⟨slot', htouched.old (h.channels d hd') hslot' htx, htx⟩

theorem cleanInv_step (hreceived : Received db colleagues) {a : Act} (h : CleanInv db colleagues cap s)
    (hclean : a.Clean) (ht : step db colleagues cap s a = some t) : CleanInv db colleagues cap t := by
  cases a with
  | publish request chunk now =>
    cases ht
    exact cleanInv_publish h request chunk now
  | recvError => exact absurd rfl hclean.1
  | recv => exact cleanInv_recv h ht
  | fetched fault => exact cleanInv_fetched hreceived h (fun e => hclean.2 (congrArg _ e)) ht
  | subscribe id thread => exact cleanInv_subscribe h ht
  | poll id => exact cleanInv_poll h ht
  | drop id =>
    cases ht
    exact cleanInv_drop h id

theorem cleanInv_run (hreceived : Received db colleagues) {acts : List Act}
    (hclean : ∀ a ∈ acts, a.Clean) (h : CleanInv db colleagues cap s)
    (hrun : run (step db colleagues cap) s acts = some t) : CleanInv db colleagues cap t := by
  induction acts generalizing s with
  | nil =>
    cases hrun
    exact h
  | cons a acts ih =>
    obtain ⟨u, hu, hrest⟩ := Option.bind_eq_some_iff.mp hrun
    exact ih (fun b hb => hclean b (List.mem_cons_of_mem a hb))
      (cleanInv_step hreceived h (hclean a List.mem_cons_self) hu) hrest

end Gapless

section Streams

/-- The map of slots keeps to its cap, with a channel for each thread, and a slot that somebody reads
is given up only where the map is full and every slot is read. -/
theorem slots_in_step (h : Reachable (step db colleagues cap) .init s) :
    InStep cap s.table ∧ ∀ a t, step db colleagues cap s a = some t → ∀ slot ∈ s.table.slots,
      slot ∉ t.table.slots → cap.slotCap = s.table.slots.rows.length ∧
        (0 < s.receivers slot.tx → ∀ slot' ∈ s.table.slots, 0 < s.receivers slot'.tx) := by
  have hinv := inv_reachable h
  refine ⟨hinv.inStep, fun a t ht slot hslot hgone => ?_⟩
  cases a with
  | subscribe id thread =>
    obtain ⟨table, slot', htouched, -, rfl⟩ := subscribe_cases hinv ht
    exact htouched.evicts slot hslot hgone
  | publish request chunk now =>
    cases ht
    rw [(publish_frame db s request chunk now).1] at hgone
    exact absurd hslot hgone
  | recvError =>
    cases ht
    exact absurd hslot hgone
  | recv =>
    obtain ⟨payload, notified, -, -, ⟨rfl, -⟩ | ⟨slot', -, -, rfl⟩⟩ := recv_cases ht
    · exact absurd hslot hgone
    · exact absurd hslot hgone
  | fetched fault =>
    obtain ⟨payload, thread, tx, -, ⟨-, rfl⟩ | ⟨item, -, rfl⟩⟩ := fetched_cases ht
    · exact absurd hslot hgone
    · exact absurd hslot hgone
  | poll id =>
    obtain ⟨d, -, ⟨got, receiver, -, rfl⟩ | ⟨-, -, rfl⟩⟩ := poll_cases ht
    · exact absurd hslot hgone
    · exact absurd hslot hgone
  | drop id =>
    cases ht
    exact absurd hslot hgone

/-- Whatever is lost, evicted or slow, a stream yields chunks of its own thread, as they are stored,
in the order they were published and each at most once. -/
theorem stream_sound (h : Reachable (step db colleagues cap) .init s) {d : Connection}
    (hd : d ∈ s.connections) :
    ((d.events.filterMap id).map ThreadStreamItem.id).Sublist s.log ∧
      ((d.events.filterMap id).map ThreadStreamItem.id).Nodup ∧
      ∀ item ∈ d.events.filterMap id, threadOf db item.requestId = some d.threadId ∧
        fetchItem db colleagues s.responses ⟨item.requestId, some d.threadId, item.chunkSeq⟩ d.threadId
          = some item := by
  obtain ⟨hordered, hfaithful, hbehind⟩ := (inv_reachable h).reads d hd
  obtain ⟨taken, gone, hmarked, hsent, -⟩ := hbehind.taken
  have hsub : (d.events.filterMap id).Sublist d.sent := by
    rw [hsent, List.append_assoc]
    exact hmarked.sublist.trans (List.sublist_append_left _ _)
  have hlog := (hsub.map ThreadStreamItem.id).trans hordered
  exact ⟨hlog, s.responses.chunks.nodup.sublist hlog, fun item hitem =>
    hfaithful item (hsub.subset hitem)⟩

/-- As long as nothing is lost on the way to the listener, a stream is a gapless stretch of its
thread's log that leaves out no chunk published since it began, and says so where the reader was too
slow for some of it. -/
theorem stream_gapless (hreceived : Received db colleagues) {acts : List Act}
    (hclean : ∀ a ∈ acts, a.Clean) (hrun : run (step db colleagues cap) .init acts = some s)
    {d : Connection} (hd : d ∈ s.connections) :
    Gapless db s d ∧ Receiver.Behind MAX_THREAD_CHUNK_BUFFER d.sent d.events d.receiver := by
  have hinv := cleanInv_run hreceived hclean cleanInv_init hrun
  exact ⟨hinv.gapless d hd, (hinv.reads d hd).behind⟩

section Sample

def sampleCap : SlotCap := ⟨MAX_THREAD_SLOTS, by decide⟩

def watched : List Act :=
  [.subscribe 1 3, .publish 5 (.text "a") 0, .publish 5 (.done "a") 0, .recv, .fetched false, .recv,
    .fetched false, .poll 1, .poll 1]

theorem sample_received : Received Sample.asking Sample.colleagues := by
  intro request hrequest
  obtain rfl := List.mem_singleton.mp hrequest
  exact ⟨⟨1, 1, some 7⟩, rfl, rfl⟩

theorem sample_run : ∃ s ∈ run (step Sample.asking Sample.colleagues sampleCap) .init watched,
    ∃ d ∈ s.connections.rows, d.events.length = 2 := by
  decide +kernel

theorem slots_in_step_sample : ∃ s ∈ run (step Sample.asking Sample.colleagues sampleCap) .init watched,
    InStep sampleCap s.table := by
  obtain ⟨s, hrun, -⟩ := sample_run
  exact ⟨s, hrun, (slots_in_step (run_path hrun)).1⟩

theorem stream_sound_sample : ∃ s ∈ run (step Sample.asking Sample.colleagues sampleCap) .init watched,
    ∃ d ∈ s.connections, d.events.length = 2 ∧
      ((d.events.filterMap id).map ThreadStreamItem.id).Nodup := by
  obtain ⟨s, hrun, d, hd, hevents⟩ := sample_run
  exact ⟨s, hrun, d, hd, hevents, (stream_sound (run_path hrun) hd).2.1⟩

theorem watched_stands :
    ∃ s ∈ run (step Sample.asking Sample.colleagues sampleCap) .init watched,
      ∃ d ∈ s.connections.rows, d.events.length = 2 ∧ ∃ slot ∈ s.table.slots, slot.tx = d.tx := by
  decide +kernel

theorem stream_gapless_sample :
    ∃ s ∈ run (step Sample.asking Sample.colleagues sampleCap) .init watched,
      ∃ d ∈ s.connections, d.events.length = 2 ∧ s.Stands d ∧ Gapless Sample.asking s d := by
  obtain ⟨s, hrun, d, hd, hevents, hstands⟩ := watched_stands
  exact ⟨s, hrun, d, hd, hevents, hstands, (stream_gapless sample_received (by decide) hrun hd).1⟩

end Sample

end Streams

end PgThreadStream

end Patom.Runtime.ThreadStream
