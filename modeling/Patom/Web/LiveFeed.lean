import Patom.Runtime.ThreadStreamRuns
import Patom.TypesLaws
import Patom.Web.ThreadStore

open Patom.Foundation
open Patom.Mcp (McpAuthKind)
open Patom.Runtime (Db PromptRequestId PromptResponseChunk Responses)
open Patom.Runtime.ThreadStream (Connection PgThreadStream ThreadStreamEvent ThreadStreamItem)

namespace Patom.Web

section Wire

variable {J : Type} (parse : String → J)

def authKindText : McpAuthKind → String
  | .oauth2 => "oauth2"
  | .staticHeaders => "static_headers"
  | .none => "none"

/-- A chunk as the page has it: whom a message is addressed to is not among its fields. -/
def wireChunk : Runtime.ResponseChunk → ResponseChunk J
  | .text value => .text value
  | .reasoning value => .reasoning value
  | .toolCall call => .toolCall call.id.asStr call.name.asStr (parse call.input)
  | .toolResult result => .toolResult result.callId.asStr result.output (some result.isError)
  | .agentMessage fromAgent toThread content _ =>
    .agentMessage fromAgent.display toThread.display content
  | .wireMcpRequest fromAgent catalogId displayName reason authKind homepageUrl =>
    .wireMcpRequest fromAgent.display
      ⟨catalogId.asStr, displayName, reason, authKindText authKind, homepageUrl⟩
  | .done finalText => .done finalText
  | .error reason code => .error reason code
  | .stalled => .stalled

def eventKind : Runtime.ResponseChunk → String
  | .text _ => "text"
  | .reasoning _ => "reasoning"
  | .toolCall _ => "tool_call"
  | .toolResult _ => "tool_result"
  | .agentMessage .. => "agent_message"
  | .wireMcpRequest .. => "wire_mcp_request"
  | .done _ => "done"
  | .error .. => "error"
  | .stalled => "stalled"

structure SseEvent (J : Type) where
  id : Nat
  event : String
  data : ThreadStreamEnvelope J

def itemToSse (cursor : Nat) (item : ThreadStreamItem) : SseEvent J where
  id := cursor
  event := eventKind item.chunk
  data := ⟨some item.requestId.display, some item.fromAgent.display, some item.chunkSeq,
    wireChunk parse item.chunk⟩

def syntheticToSse (cursor : Nat) (chunk : Runtime.ResponseChunk) : SseEvent J where
  id := cursor
  event := eventKind chunk
  data := ⟨none, none, none, wireChunk parse chunk⟩

def toSse (cursor : Nat) : Except String ThreadStreamEvent → SseEvent J
  | .ok (.item item) => itemToSse parse cursor item
  | .ok .stalled => syntheticToSse parse cursor .stalled
  | .error e => syntheticToSse parse cursor (.error e "stream")

def streamThread (cursor : Nat) : List (Except String ThreadStreamEvent) → List (SseEvent J)
  | [] => []
  | res :: rest => toSse parse cursor res :: streamThread (min (cursor + 1) (2 ^ 64 - 1)) rest

def KINDS : List String :=
  ["text", "reasoning", "tool_call", "tool_result", "agent_message", "wire_mcp_request", "done",
    "error", "stalled"]

def handle (e : SseEvent J) (now : String) : List (Action J) :=
  if e.event ∈ KINDS ∨ e.event = "message" then [.applyEnvelope e.data now] else []

theorem eventKind_mem (chunk : Runtime.ResponseChunk) : eventKind chunk ∈ KINDS := by
  cases chunk <;> simp [eventKind, KINDS]

theorem toSse_event (cursor : Nat) (res : Except String ThreadStreamEvent) :
    (toSse parse cursor res).event ∈ KINDS := by
  unfold toSse
  split
  case h_1 => exact eventKind_mem _
  case h_2 => exact eventKind_mem .stalled
  case h_3 e => exact eventKind_mem (.error e "stream")

theorem toSse_data (cursor : Nat) (res : Except String ThreadStreamEvent) :
    (toSse parse cursor res).data = (toSse parse 0 res).data := by
  unfold toSse
  split <;> rfl

theorem streamThread_event (cursor : Nat) {results : List (Except String ThreadStreamEvent)}
    {e : SseEvent J} (he : e ∈ streamThread parse cursor results) : e.event ∈ KINDS := by
  induction results generalizing cursor with
  | nil => cases he
  | cons res rest ih =>
    obtain rfl | he := List.mem_cons.mp he
    · exact toSse_event parse cursor res
    · exact ih _ he

theorem streamThread_data (cursor : Nat) (results : List (Except String ThreadStreamEvent)) :
    (streamThread parse cursor results).map SseEvent.data =
      results.map fun res => (toSse parse 0 res).data := by
  induction results generalizing cursor with
  | nil => rfl
  | cons res rest ih =>
    rw [streamThread, List.map_cons, List.map_cons, ih, toSse_data parse cursor]

def arrival (item : ThreadStreamItem) (now : String) : Delivered J :=
  ⟨item.requestId.display, some item.fromAgent.display, item.chunkSeq, wireChunk parse item.chunk, now⟩

end Wire

section Page

variable {J : Type}

def brings : Action J → Bool
  | .applyEnvelope .. | .reset => true
  | _ => false

/-- A page that has heard the beginning of a stream, each event at its time, and does as it likes
with the thread otherwise. -/
structure Page (events : List (SseEvent J)) (heard : List (SseEvent J × String)) (rootId : String)
    (acts : List (String × Action J)) : Prop where
  order : heard.map Prod.fst <+: events
  actions : (threadActions rootId acts).filter brings = heard.flatMap fun h => handle h.1 h.2

theorem deliveries_concat (acts : List (Action J)) (a : Action J) :
    deliveries (acts ++ [a]) = addDelivery (deliveries acts) a := List.foldl_concat ..

theorem deliveries_brings (acts : List (Action J)) :
    deliveries (acts.filter brings) = deliveries acts := by
  induction acts using List.reverseRecOn with
  | nil => rfl
  | append_singleton acts a ih =>
    rw [List.filter_append, deliveries_concat, ← ih]
    cases a with
    | applyEnvelope | reset => exact deliveries_concat ..
    | addPending | attachOutcome | removePending | setStatus =>
      exact congrArg deliveries (List.append_nil _)

theorem deliveries_handle {heard : List (SseEvent J × String)}
    (hkinds : ∀ h ∈ heard, h.1.event ∈ KINDS) :
    deliveries (heard.flatMap fun h => handle h.1 h.2) =
      heard.filterMap fun h => h.1.data.delivered h.2 := by
  induction heard using List.reverseRecOn with
  | nil => rfl
  | append_singleton heard h ih =>
    have hhandle : handle h.1 h.2 = [.applyEnvelope h.1.data h.2] :=
      if_pos (.inl (hkinds h (by simp)))
    rw [List.flatMap_append, List.flatMap_singleton, hhandle, deliveries_concat,
      ih fun h' hh => hkinds h' (List.mem_append_left _ hh), addDelivery, List.filterMap_append]
    cases hd : h.1.data.delivered h.2 <;> simp [hd]

theorem Page.deliveries {events : List (SseEvent J)} {heard : List (SseEvent J × String)}
    {rootId : String} {acts : List (String × Action J)} (h : Page events heard rootId acts)
    (hkinds : ∀ e ∈ events, e.event ∈ KINDS) :
    deliveries (threadActions rootId acts) = heard.filterMap fun h => h.1.data.delivered h.2 := by
  rw [← deliveries_brings, h.actions]
  exact deliveries_handle fun e he => hkinds e.1 (h.order.subset (List.mem_map_of_mem he))

variable (parse : String → J)

theorem heard_items {heard : List (SseEvent J × String)} {items : List ThreadStreamItem}
    (h : heard.map (fun h => h.1.data) <+: items.map fun item => (itemToSse parse 0 item).data) :
    ∃ timed : List (ThreadStreamItem × String), timed.map Prod.fst <+: items ∧
      timed.length = heard.length ∧
      (heard.filterMap fun h => h.1.data.delivered h.2) = timed.map fun h => arrival parse h.1 h.2 := by
  induction heard generalizing items with
  | nil => exact ⟨[], List.nil_prefix, rfl, rfl⟩
  | cons e heard ih =>
    cases items with
    | nil => cases List.prefix_nil.mp h
    | cons item items =>
      obtain ⟨he, h⟩ := List.cons_prefix_cons.mp h
      obtain ⟨timed, hitems, hlength, hdelivered⟩ := ih h
      refine ⟨(item, e.2) :: timed, List.cons_prefix_cons.mpr ⟨rfl, hitems⟩, congrArg _ hlength, ?_⟩
      have hown : e.1.data.delivered e.2 = some (arrival parse item e.2) :=
        congrArg (ThreadStreamEnvelope.delivered · e.2) he
      simp only [List.filterMap_cons, hown, hdelivered, List.map_cons]

end Page

section Follows

variable {J : Type} (parse : String → J) {db : Db} {colleagues : Table Runtime.Colleague}
  {cap : Runtime.ThreadStream.SlotCap} {s : PgThreadStream}

variable (db colleagues) in
def Follows (rs : Responses) (request : PromptRequestId) (thread : ThreadId) :
    List PromptResponseChunk → Option (LiveAgent J) → Prop
  | [], live => live = none
  | row :: rows, live => ∃ b item now, live = some b ∧
      PgThreadStream.fetchItem db colleagues rs ⟨request, some thread, row.seq⟩ thread = some item ∧
      Shows (arrival parse item now) ((row :: rows).map fun row => wireChunk parse row.payload) b

def published (s : PgThreadStream) (request : PromptRequestId) : List PromptResponseChunk :=
  s.responses.chunks.rows.filter fun row => row.requestId = request

/-- A connection for which nothing of a request is on its way any more. -/
structure CaughtUp (s : PgThreadStream) (d : Connection) (request : PromptRequestId) : Prop where
  stands : s.Stands d
  handed : s.inFlight d.tx = []
  noted : ∀ payload ∈ s.notified, payload.requestId ≠ request
  read : d.receiver = .new

theorem fetchItem_row {rs : Responses} {request : PromptRequestId} {thread : ThreadId} {seq : Nat}
    {item : ThreadStreamItem}
    (h : PgThreadStream.fetchItem db colleagues rs ⟨request, some thread, seq⟩ thread = some item) :
    ∃ row, rs.chunks.find? (request, seq) = some row ∧ item.chunk = row.payload := by
  unfold PgThreadStream.fetchItem at h
  simp only [Option.bind_eq_bind, Option.bind_eq_some_iff, Option.pure_def, Option.some.injEq] at h
  obtain ⟨row, hrow, request, -, rc, -, agent, -, rfl⟩ := h
  exact ⟨row, hrow, rfl⟩

theorem chunk_eq {rs : Responses} {items : List ThreadStreamItem} {rows : List PromptResponseChunk}
    (hids : items.map ThreadStreamItem.id = rows.map key) (hrows : ∀ row ∈ rows, row ∈ rs.chunks)
    (hitems : ∀ item ∈ items, ∃ row, rs.chunks.find? item.id = some row ∧ item.chunk = row.payload) :
    items.map ThreadStreamItem.chunk = rows.map PromptResponseChunk.payload := by
  induction items generalizing rows with
  | nil =>
    rw [List.map_nil, eq_comm, List.map_eq_nil_iff] at hids
    rw [hids]
    rfl
  | cons item items ih =>
    obtain ⟨row, rows', rfl, hid, hids⟩ := List.map_eq_cons_iff.mp hids.symm
    obtain ⟨row', hfind, hchunk⟩ := hitems item List.mem_cons_self
    obtain rfl : row = row' := by
      have hrow := Table.find?_of_mem (hrows row List.mem_cons_self)
      rw [hid, hfind] at hrow
      exact (Option.some.inj hrow).symm
    rw [List.map_cons, List.map_cons, hchunk, ih hids.symm
      (fun r hr => hrows r (List.mem_cons_of_mem _ hr))
      fun i hi => hitems i (List.mem_cons_of_mem _ hi)]

theorem published_keys (s : PgThreadStream) (request : PromptRequestId) :
    (published s request).map key = s.log.filter fun id => id.1 = request := by
  rw [PgThreadStream.log, List.filter_map]
  rfl

theorem sent_begins {d : Connection} (h : PgThreadStream.Gapless db s d) {request : PromptRequestId}
    (hthread : PgThreadStream.threadOf db request = some d.threadId)
    (hlater : ∀ id ∈ s.log.take d.since, id.1 ≠ request) :
    ((d.sent.map ThreadStreamItem.id).filter fun id => id.1 = request) <+:
        (published s request).map key ∧
      (CaughtUp s d request → ((d.sent.map ThreadStreamItem.id).filter fun id => id.1 = request) =
        (published s request).map key) := by
  obtain ⟨before, rest, hbefore, hstretch, hrest⟩ := h.stretch
  have hown (ids : List (PromptRequestId × Runtime.ChunkSeq)) :
      (PgThreadStream.ofThread db d.threadId ids).filter (fun id => id.1 = request) =
        ids.filter fun id => id.1 = request := by
    rw [PgThreadStream.ofThread, List.filter_filter]
    refine List.filter_congr fun id _ => ?_
    by_cases e : id.1 = request <;> simp [e, hthread]
  have hnil : before.filter (fun id => id.1 = request) = [] := by
    refine List.filter_eq_nil_iff.mpr fun id hid e => ?_
    exact hlater id (List.mem_filter.mp (hbefore.subset hid)).1 (of_decide_eq_true e)
  rw [published_keys, ← hown s.log, hstretch, List.filter_append, List.filter_append,
    List.filter_append, hnil, List.nil_append, List.append_assoc]
  refine ⟨List.prefix_append _ _, fun hcaught => ?_⟩
  have hnoted : rest.filter (fun id => id.1 = request) = [] := by
    rw [hrest hcaught.stands, hown]
    refine List.filter_eq_nil_iff.mpr fun id hid e => ?_
    obtain ⟨payload, hpayload, rfl⟩ := List.mem_map.mp hid
    exact hcaught.noted payload hpayload (of_decide_eq_true e)
  rw [hcaught.handed, hnoted, List.filter_nil, List.append_nil, List.append_nil]

def wireEvents (d : Connection) : List (SseEvent J) :=
  streamThread parse 0 (d.events.map fun e => .ok (.ofPoll e))

theorem wireEvents_data {d : Connection} {taken : List ThreadStreamItem}
    (h : d.events = taken.map some) :
    (wireEvents parse d).map SseEvent.data = taken.map fun item => (itemToSse parse 0 item).data := by
  rw [wireEvents, streamThread_data, h, List.map_map, List.map_map]
  rfl

theorem id_display_injective :
    Function.Injective fun id : PromptRequestId × Runtime.ChunkSeq => (id.1.display, id.2) := by
  intro id id' h
  obtain ⟨hrequest, hseq⟩ := Prod.ext_iff.mp h
  exact Prod.ext (Uuid.display_injective hrequest) hseq

theorem chunksOf_items {timed : List (ThreadStreamItem × String)} {rootId : String}
    {acts : List (String × Action J)} (request : PromptRequestId)
    (h : deliveries (threadActions rootId acts) = timed.map fun h => arrival parse h.1 h.2)
    (hnodup : ((timed.map Prod.fst).map ThreadStreamItem.id).Nodup) :
    chunksOf acts rootId request.display =
      (timed.filter fun h => h.1.requestId = request).map fun h => arrival parse h.1 h.2 := by
  have hfilter : ((timed.map fun h => arrival parse h.1 h.2).filter
      fun d => d.requestId = request.display) =
        (timed.filter fun h => h.1.requestId = request).map fun h => arrival parse h.1 h.2 := by
    rw [List.filter_map]
    refine congrArg _ (List.filter_congr fun h _ => ?_)
    exact decide_eq_decide.mpr ⟨fun e => Uuid.display_injective e, congrArg Uuid.display⟩
  rw [chunksOf, h, hfilter]
  refine firstsFrom_eq_self (fun _ _ => List.not_mem_nil) ?_
  have hown := ((List.filter_sublist (p := fun h => h.1.requestId = request)
    (l := timed)).map Prod.fst).map ThreadStreamItem.id
  have hmap := (hown.nodup hnodup).map id_display_injective
  rw [List.map_map, List.map_map] at hmap
  rw [List.map_map]
  exact hmap

theorem Page.items {d : Connection} {taken : List ThreadStreamItem} (hevents : d.events = taken.map some)
    {heard : List (SseEvent J × String)} {rootId : String} {acts : List (String × Action J)}
    (h : Page (wireEvents parse d) heard rootId acts) :
    ∃ timed : List (ThreadStreamItem × String), timed.map Prod.fst <+: taken ∧
      timed.length = heard.length ∧
      Web.deliveries (threadActions rootId acts) = timed.map fun h => arrival parse h.1 h.2 := by
  have hdata : heard.map (fun h => h.1.data) <+:
      taken.map fun item => (itemToSse parse 0 item).data := by
    rw [← wireEvents_data parse hevents]
    have hmap := h.order.map SseEvent.data
    rw [List.map_map] at hmap
    exact hmap
  obtain ⟨timed, htaken, hlength, hdelivered⟩ := heard_items parse hdata
  exact ⟨timed, htaken, hlength,
    (h.deliveries fun e he => streamThread_event parse 0 he).trans hdelivered⟩

theorem follows_of_items {rs : Responses} {request : PromptRequestId} {thread : ThreadId}
    {own : List (ThreadStreamItem × String)} {rows : List PromptResponseChunk} {rootId : String}
    {acts : List (String × Action J)}
    (hchunks : chunksOf acts rootId request.display = own.map fun h => arrival parse h.1 h.2)
    (hids : (own.map Prod.fst).map ThreadStreamItem.id = rows.map key)
    (hrows : ∀ row ∈ rows, row ∈ rs.chunks)
    (hitems : ∀ item ∈ own.map Prod.fst, item.requestId = request ∧
      PgThreadStream.fetchItem db colleagues rs ⟨item.requestId, some thread, item.chunkSeq⟩ thread
        = some item) :
    Follows parse db colleagues rs request thread rows
      (((Store.run acts).thread rootId).live.find? request.display) := by
  have hpayloads := chunk_eq hids hrows fun item hitem => fetchItem_row (hitems item hitem).2
  have hshows := run_shows acts rootId request.display
  rw [hchunks] at hshows
  cases rows with
  | nil =>
    rw [List.map_nil, List.map_eq_nil_iff, List.map_eq_nil_iff] at hids
    rw [hids] at hshows
    exact hshows
  | cons row rows =>
    cases own with
    | nil => cases hids
    | cons h own =>
      obtain ⟨b, hb, hbshows⟩ := hshows
      obtain ⟨hrequest, hfetch⟩ := hitems h.1 List.mem_cons_self
      have hseq : h.1.chunkSeq = row.seq := (Prod.ext_iff.mp (List.cons.inj hids).1).2
      rw [hrequest, hseq] at hfetch
      have hwire : ((h :: own).map fun h => arrival parse h.1 h.2).map Delivered.chunk =
          (row :: rows).map fun row => wireChunk parse row.payload := by
        have hmap := congrArg (List.map (wireChunk parse)) hpayloads
        rw [List.map_map, List.map_map, List.map_map] at hmap
        rw [List.map_map]
        exact hmap
      refine ⟨b, h.1, h.2, hb, hfetch, ?_⟩
      rw [← hwire]
      exact hbshows

/-- A page that listens to a thread over one connection shows, at any moment, how the turns that
began after the connection have gone so far, and all of each once nothing is on its way any more. -/
theorem page_follows (hreceived : PgThreadStream.Received db colleagues)
    {acts : List Runtime.ThreadStream.Act} (hclean : ∀ a ∈ acts, a.Clean)
    (hrun : run (PgThreadStream.step db colleagues cap) .init acts = some s) {d : Connection}
    (hd : d ∈ s.connections) (hlag : none ∉ d.events) {heard : List (SseEvent J × String)}
    {rootId : String} {pageActs : List (String × Action J)}
    (hpage : Page (wireEvents parse d) heard rootId pageActs) {request : PromptRequestId}
    (hthread : PgThreadStream.threadOf db request = some d.threadId)
    (hlater : ∀ id ∈ s.log.take d.since, id.1 ≠ request) :
    ∃ rows, rows <+: published s request ∧
      Follows parse db colleagues s.responses request d.threadId rows
        (((Store.run pageActs).thread rootId).live.find? request.display) ∧
      (CaughtUp s d request → heard.length = d.events.length → rows = published s request) := by
  have hinv := PgThreadStream.cleanInv_run hreceived hclean PgThreadStream.cleanInv_init hrun
  obtain ⟨hordered, hfaithful, hbehind⟩ := hinv.reads d hd
  obtain ⟨taken, gone, hmarked, hsent, hlagged⟩ := hbehind.taken
  have hevents := hmarked.complete hlag
  obtain ⟨timed, htaken, hlength, hdeliveries⟩ := hpage.items parse hevents
  have hsub : timed.map Prod.fst <+: d.sent := by
    rw [hsent, List.append_assoc]
    exact htaken.trans (List.prefix_append _ _)
  have hnodup : ((timed.map Prod.fst).map ThreadStreamItem.id).Nodup :=
    ((hsub.sublist.map _).trans hordered).nodup s.responses.chunks.nodup
  obtain ⟨hbegins, hwhole⟩ := sent_begins (hinv.gapless d hd) hthread hlater
  -- the request's own items, and as many rows of the request
  have hown : ((timed.filter fun h => h.1.requestId = request).map Prod.fst).map ThreadStreamItem.id =
      ((timed.map Prod.fst).map ThreadStreamItem.id).filter fun id => id.1 = request := by
    rw [List.filter_map, List.filter_map]
    rfl
  have hkeys : ((timed.filter fun h => h.1.requestId = request).map Prod.fst).map ThreadStreamItem.id =
      ((published s request).take (timed.filter fun h => h.1.requestId = request).length).map key := by
    have htake := List.prefix_iff_eq_take.mp
      (((hsub.map ThreadStreamItem.id).filter fun id => decide (id.1 = request)).trans hbegins)
    rw [← hown] at htake
    rw [List.map_take]
    simpa using htake
  refine ⟨_, List.take_prefix _ _, follows_of_items parse
    (chunksOf_items parse request hdeliveries hnodup) hkeys
    (fun row hrow => (List.mem_filter.mp (List.mem_of_mem_take hrow)).1) (fun item hitem => ?_), ?_⟩
  · obtain ⟨h, hh, rfl⟩ := List.mem_map.mp hitem
    obtain ⟨hh, hrequest⟩ := List.mem_filter.mp hh
    exact ⟨of_decide_eq_true hrequest,
      (hfaithful h.1 (hsub.subset (List.mem_map_of_mem hh))).2⟩
  · intro hcaught hheard
    have hgone : gone = [] := by
      rw [hcaught.read] at hlagged
      exact of_not_not fun hne => absurd (hlagged.mpr hne) Bool.false_ne_true
    have hall : timed.map Prod.fst = d.sent := by
      rw [hsent, hgone, hcaught.read, Receiver.new, List.append_nil, List.append_nil]
      refine htaken.eq_of_length ?_
      rw [List.length_map, hlength, hheard, hevents, List.length_map]
    have hlen := congrArg List.length (hown.trans (hall ▸ hwhole hcaught))
    rw [List.length_map, List.length_map, List.length_map] at hlen
    rw [hlen, List.take_length]

end Follows

section Sample

open Patom.Runtime.ThreadStream.PgThreadStream (sampleCap sample_received watched)

def listening {J : Type} (rootId : String) (events : List (SseEvent J)) : List (String × Action J) :=
  events.map fun e => (rootId, .applyEnvelope e.data "now")

theorem page_listening {J : Type} (rootId : String) {events : List (SseEvent J)}
    (hkinds : ∀ e ∈ events, e.event ∈ KINDS) :
    Page events (events.map fun e => (e, "now")) rootId (listening rootId events) := by
  constructor
  case order => simp [Function.comp_def]
  case actions =>
    induction events with
    | nil => rfl
    | cons e events ih =>
      have hrest := ih fun e' he => hkinds e' (List.mem_cons_of_mem _ he)
      have hhandle : handle e "now" = [.applyEnvelope e.data "now"] :=
        if_pos (.inl (hkinds e List.mem_cons_self))
      have hthread : threadActions rootId (listening rootId (e :: events)) =
          .applyEnvelope e.data "now" :: threadActions rootId (listening rootId events) := by
        simp [listening, threadActions]
      rw [List.map_cons, List.flatMap_cons, hhandle, ← hrest, hthread]
      exact List.filter_cons_of_pos rfl

theorem sample_listener :
    ∃ s ∈ run (PgThreadStream.step Runtime.Sample.asking Runtime.Sample.colleagues sampleCap) .init watched,
      ∃ d ∈ s.connections.rows, d.events.length = 2 ∧ none ∉ d.events ∧ d.since = 0 ∧
        PgThreadStream.threadOf Runtime.Sample.asking 5 = some d.threadId := by
  decide +kernel

theorem page_follows_sample :
    ∃ s ∈ run (PgThreadStream.step Runtime.Sample.asking Runtime.Sample.colleagues sampleCap) .init watched,
      ∃ d ∈ s.connections, d.events.length = 2 ∧
        ∃ rows, rows <+: published s 5 ∧
          Follows id Runtime.Sample.asking Runtime.Sample.colleagues s.responses 5 d.threadId rows
            (((Store.run (listening "thread" (wireEvents id d))).thread "thread").live.find?
              (Uuid.display 5)) := by
  obtain ⟨s, hrun, d, hd, hevents, hlag, hsince, hthread⟩ := sample_listener
  obtain ⟨rows, hrows, hfollows, -⟩ := page_follows id sample_received (by decide) hrun hd hlag
    (page_listening "thread" fun e he => streamThread_event id 0 he) hthread
    (fun i hi => absurd (hsince ▸ hi) List.not_mem_nil)
  exact ⟨s, hrun, d, hd, hevents, rows, hrows, hfollows⟩

end Sample

end Patom.Web
