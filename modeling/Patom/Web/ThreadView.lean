import Patom.Foundation.SignedText
import Patom.Foundation.Slice
import Patom.Web.FoldConserves
import Patom.Web.ThreadStore

open Patom.Foundation

namespace Patom.Web

variable {J : Type}

structure ViewBubble (J : Type) where
  kind : BubbleKind
  key : String
  requestId : String
  clientKey : Option String
  agentId : Option String
  agentName : Option String
  humanName : Option String
  humanId : Option String
  humanAvatarUrl : Option String
  ts : String
  text : String
  attachments : Option (List Attachment)
  reasoning : String
  toolCalls : List (ToolCallEntry (Option J))
  wireRequests : List McpWireRequest
  phase : BubblePhase
  error : Option String
  errorCode : Option String

structure ViewPoster extends Poster where
  avatarUrl : Option String

def ToolCallEntry.given (e : ToolCallEntry J) : ToolCallEntry (Option J) :=
  ⟨e.callId, e.name, some e.input, e.output, e.isError, e.status⟩

def persistedBubble (entries : List (ToolCallEntry J)) (b : Bubble) : ViewBubble J where
  kind := b.kind
  key := b.key
  requestId := b.requestId
  clientKey := b.clientKey
  agentId := b.agentId
  agentName := b.agentName
  humanName := b.humanName
  humanId := b.humanId
  humanAvatarUrl := b.humanAvatarUrl
  ts := b.ts
  text := b.text
  attachments := b.attachments
  reasoning := b.reasoning
  toolCalls := (b.toolCalls.filterMap (entries[·]?)).map ToolCallEntry.given
  wireRequests := b.wireRequests
  phase := b.phase
  error := none
  errorCode := none

def liveBubble (roster : List Mentionable) (lb : LiveAgent J) : ViewBubble J where
  kind := .agent
  key := "live:" ++ lb.requestId
  requestId := lb.requestId
  clientKey := none
  agentId := lb.agentId
  agentName := (roster.find? fun m => m.kind = .agent && some m.id = lb.agentId).map (·.name)
  humanName := none
  humanId := none
  humanAvatarUrl := none
  ts := lb.ts
  text := lb.message
  attachments := none
  reasoning := lb.reasoning
  toolCalls := lb.toolCalls.rows
  wireRequests := lb.wireRequests
  phase := .streaming
  error := if lb.status = .error then lb.error else none
  errorCode := if lb.status = .error then lb.errorCode else none

def optimisticBubble (poster : ViewPoster) (p : PendingHuman) : ViewBubble J where
  kind := .human
  key := "opt:" ++ p.idempotencyKey
  requestId := p.requestId.getD p.idempotencyKey
  clientKey := some p.idempotencyKey
  agentId := none
  agentName := none
  humanName := some poster.name
  humanId := some poster.id
  humanAvatarUrl := poster.avatarUrl
  ts := p.ts
  text := p.text
  attachments := some (p.attachments.getD [])
  reasoning := ""
  toolCalls := []
  wireRequests := []
  phase := .optimistic
  error := none
  errorCode := none

def PendingHuman.shows (p : PendingHuman) : Bool := p.text ≠ "" || (p.attachments.getD []).length ≠ 0

def phaseOrder : BubblePhase → Int
  | .persisted => 0
  | .streaming => 1
  | .optimistic => 2

/-- `date` is `Date.parse`, of times that it can read. -/
def byTs (date : String → Int) (a b : ViewBubble J) : Int :=
  if date a.ts ≠ date b.ts then date a.ts - date b.ts else phaseOrder a.phase - phaseOrder b.phase

section Merge

variable (persisted : List Bubble) (state : ThreadState J)

def persistedRequestIds : List String := persisted.map (·.requestId)

/-- An empty key is no key. -/
def persistedClientKeys : List String := (persisted.filterMap (·.clientKey)).filter (· ≠ "")

def visibleLive : List (LiveAgent J) :=
  state.live.rows.filter fun lb => lb.requestId ∉ persistedRequestIds persisted

def confirmed (p : PendingHuman) : Bool :=
  p.idempotencyKey ∈ persistedClientKeys persisted ||
    p.requestId.any fun requestId => requestId ≠ "" && requestId ∈ persistedRequestIds persisted

def visiblePending : List PendingHuman :=
  state.pending.rows.filter fun p => !confirmed persisted p && p.shows

end Merge

structure ThreadView (J : Type) where
  bubbles : List (ViewBubble J)
  rootMessage : Option RootMessage
  status : StreamStatus
  showThinking : Bool

section View

variable (date : String → Int) (json : Json J) (history : List (ThreadMessage J))
  (roster : List Mentionable) (poster : ViewPoster) (state : Option (ThreadState J))

def folded : FoldedHistory J := foldHistory json history roster poster.toPoster

/-- The bubbles before they are sorted. A thread that the store does not have shows none of its own. -/
def unsorted : List (ViewBubble J) :=
  let out := folded json history roster poster
  let cur := state.getD emptyState
  out.bubbles.map (persistedBubble out.entries) ++
    (visibleLive out.bubbles cur).map (liveBubble roster) ++
    (visiblePending out.bubbles cur).map (optimisticBubble poster)

def lastPending (last : ViewBubble J) : Option PendingHuman := do
  let clientKey ← last.clientKey
  if clientKey = "" then none else (state.getD emptyState).pending.find? clientKey

def threadView : ThreadView J :=
  let bubbles := (unsorted json history roster poster state).mergeSort fun a b => byTs date a b ≤ 0
  { bubbles := bubbles
    rootMessage := (folded json history roster poster).rootMessage
    status := (state.map (·.status)).getD .idle
    showThinking := bubbles.getLast?.any fun last =>
      last.kind = .human && last.phase ≠ .persisted &&
        ((lastPending state last).bind (·.triggered)).getD true }

end View

section Faces

def Bubble.face (b : Bubble) : Bubble := { b with reasoning := "", toolCalls := [], wireRequests := [] }

variable (json : Json J) (ctx : Context)

def rowFaces (rooted : Bool) (m : ThreadMessage J) : List Bubble :=
  match m.sender with
  | .agent _ aid => (delivered ctx.sent m).map (agentBubble json ctx m aid newPending)
  | .human _ userId => if rooted && speaks m then [humanBubble ctx m userId] else []
  | .system => []

def faces : Bool → List (ThreadMessage J) → List Bubble
  | _, [] => []
  | rooted, m :: rest => rowFaces json ctx rooted m ++ faces (rooted || isHuman m) rest

theorem humanBubble_face (m : ThreadMessage J) (userId : String) :
    (humanBubble ctx m userId).face = humanBubble ctx m userId := rfl

theorem modify_reasoning_face (bubbles : List Bubble) (i : Nat) (reasoning : String) :
    (bubbles.modify i fun lb => { lb with reasoning := joinText lb.reasoning reasoning }).map
      Bubble.face = bubbles.map Bubble.face := by
  refine List.ext_getElem? fun j => ?_
  simp only [List.getElem?_map, List.getElem?_modify]
  cases bubbles[j]? with
  | none => rfl
  | some b =>
    simp only [Option.map_eq_map, Option.map_some]
    split <;> rfl

theorem foldSends_faces (m : ThreadMessage J) (aid : String) (decoded : DecodedBody J)
    (s : FoldState J) :
    (foldSends json ctx m aid decoded s).bubbles.map Bubble.face =
      s.bubbles.map Bubble.face ++
        ((decoded.toolCalls.filter fun tc => tc.name = SEND_MESSAGE).filter
          fun tc => tc.id ∉ ctx.failed).map (agentBubble json ctx m aid newPending) := by
  unfold foldSends
  generalize decoded.toolCalls.filter (fun tc => tc.name = SEND_MESSAGE) = sendCalls
  by_cases hs : sendCalls = []
  · subst hs
    simp only [List.length_nil, lt_irrefl, if_false, List.filter_nil, List.map_nil, List.append_nil]
    split
    · split
      · split
        · exact modify_reasoning_face _ _ _
        · rfl
      · rfl
    · rfl
  · simp only [List.length_pos_of_ne_nil hs, if_true]
    generalize sendCalls.filter (fun tc => tc.id ∉ ctx.failed) = deliveredCalls
    by_cases hd : deliveredCalls = []
    · subst hd
      simp only [List.length_nil, lt_irrefl, if_false, List.map_nil, List.append_nil]
      split <;> rfl
    · simp only [List.length_pos_of_ne_nil hd, if_true]
      obtain ⟨lb, hlb⟩ := deliver_foldl json ctx m aid
        { s.pending aid with reasoning := joinText (s.pending aid).reasoning decoded.reasoning }
        deliveredCalls { s with sendMessageCallIds := s.sendMessageCallIds ++ sendCalls.map (·.id) }
      simp only [hlb, List.map_append, List.map_map]
      rfl

theorem foldRow_faces (s : FoldState J) (m : ThreadMessage J) :
    (foldRow json ctx s m).bubbles.map Bubble.face =
      s.bubbles.map Bubble.face ++ rowFaces json ctx s.rootMessage.isSome m := by
  rw [foldRow_eq, attachResults_bubbles]
  cases hm : m.sender with
  | system => simp [posted, rowFaces, hm]
  | human colleagueId userId =>
    simp only [posted, hm, foldHuman, rowFaces]
    cases s.rootMessage with
    | none => simp
    | some root => by_cases hs : speaks m <;> simp [hs, humanBubble_face]
  | agent colleagueId aid =>
    have hagent : agentOf m = some aid := by simp [agentOf, hm]
    have hdel : delivered ctx.sent m = ((decodeBody m.body).toolCalls.filter
        fun tc => tc.name = SEND_MESSAGE).filter fun tc => tc.id ∉ ctx.failed := by
      simp [delivered, sendCalls, issued, hm, Context.sent]
    simp only [posted, hm, rowFaces]
    rw [foldSends_faces, issue_of_agentOf hagent, addCalls_bubbles, hdel]

theorem foldRows_faces (rows : List (ThreadMessage J)) (s : FoldState J) :
    (rows.foldl (foldRow json ctx) s).bubbles.map Bubble.face =
      s.bubbles.map Bubble.face ++ faces json ctx s.rootMessage.isSome rows := by
  induction rows generalizing s with
  | nil => simp [faces]
  | cons m rows ih =>
    rw [List.foldl_cons, ih, foldRow_faces, foldRow_rootMessage, Option.isSome_or, humanRoot_isSome,
      List.append_assoc]
    rfl

theorem addWireRequests_face (entries : List (ToolCallEntry J)) (b : Bubble) :
    (addWireRequests json entries b).face = b.face := by
  unfold addWireRequests
  split <;> rfl

theorem foldHistory_faces (history : List (ThreadMessage J)) (roster : List Mentionable)
    (poster : Poster) :
    (foldHistory json history roster poster).bubbles.map Bubble.face =
      faces json (.of roster poster history) false history := by
  have hrun := foldRows_faces json (.of roster poster history) history .init
  simp only [FoldState.init, List.map_nil, List.nil_append, Option.isSome_none] at hrun
  rw [← hrun, foldHistory, List.map_map]
  exact List.map_congr_left fun b _ => addWireRequests_face json _ b

end Faces

section Order

variable (date : String → Int)

theorem byTs_iff (a b : ViewBubble J) :
    byTs date a b ≤ 0 ↔ date a.ts < date b.ts ∨
      date a.ts = date b.ts ∧ phaseOrder a.phase ≤ phaseOrder b.phase := by
  unfold byTs
  split
  · lia
  · lia

theorem byTs_trans (a b c : ViewBubble J) (hab : decide (byTs date a b ≤ 0))
    (hbc : decide (byTs date b c ≤ 0)) : decide (byTs date a c ≤ 0) := by
  simp only [decide_eq_true_eq, byTs_iff] at *
  lia

theorem byTs_total (a b : ViewBubble J) :
    decide (byTs date a b ≤ 0) || decide (byTs date b a ≤ 0) := by
  simp only [Bool.or_eq_true, decide_eq_true_eq, byTs_iff]
  lia

end Order

section Keys

theorem toList_repr_int (n : Int) : n.repr.toList = showInt n := by
  rw [Int.repr_eq_if, showInt]
  by_cases h : 0 ≤ n
  · have habs : n.toNat = n.natAbs := by lia
    rw [if_pos h, if_neg (Int.not_lt.mpr h), Nat.toList_repr, habs]
  · have habs : (-n).toNat = n.natAbs := by lia
    rw [if_neg h, if_pos (Int.not_le.mp h), String.toList_append, Nat.toList_repr, habs]
    rfl

theorem colon_not_mem_showInt (n : Int) : ':' ∉ showInt n := fun h => by
  obtain h | h := mem_showInt h
  · exact absurd h (by decide)
  · exact absurd h (by decide)

theorem rowKey_inj {n n' : Int} {id id' : String} :
    "h:" ++ toString n ++ ":" ++ id = "h:" ++ toString n' ++ ":" ++ id' ↔ n = n' ∧ id = id' := by
  constructor
  · intro h
    have htext : showInt n ++ ':' :: id.toList = showInt n' ++ ':' :: id'.toList := by
      simpa [toList_repr_int] using congrArg String.toList h
    obtain ⟨hn, hid⟩ := (append_cons_inj (colon_not_mem_showInt n) (colon_not_mem_showInt n')).mp htext
    refine ⟨?_, String.toList_inj.mp hid⟩
    exact Option.some.inj ((readInt_showInt n).symm.trans (hn ▸ readInt_showInt n'))
  · rintro ⟨rfl, rfl⟩
    rfl

structure RowsApart (history : List (ThreadMessage J)) : Prop where
  seqs : (history.map (·.seq)).Nodup
  sends : ∀ m ∈ history, ((sendCalls m).map (·.id)).Nodup

def rowKey (m : ThreadMessage J) (id : String) : String := "h:" ++ toString m.seq ++ ":" ++ id

variable (json : Json J) (ctx : Context)

theorem rowFaces_keys {m : ThreadMessage J} (rooted : Bool) (h : ((sendCalls m).map (·.id)).Nodup) :
    ∃ ids : List String, (rowFaces json ctx rooted m).map (·.key) = ids.map (rowKey m) ∧ ids.Nodup := by
  unfold rowFaces
  cases hm : m.sender with
  | system => exact ⟨[], rfl, .nil⟩
  | human colleagueId userId =>
    cases hs : rooted && speaks m with
    | false => exact ⟨[], rfl, .nil⟩
    | true => exact ⟨["user"], by simp [humanBubble, rowKey, String.append_assoc], List.nodup_singleton _⟩
  | agent colleagueId aid =>
    refine ⟨(delivered ctx.sent m).map (·.id), ?_, h.sublist (List.filter_sublist.map _)⟩
    simp only [List.map_map]
    rfl

theorem mem_faces {b : Bubble} {rooted : Bool} {history : List (ThreadMessage J)}
    (h : b ∈ faces json ctx rooted history) : ∃ m ∈ history, ∃ rooted, b ∈ rowFaces json ctx rooted m := by
  induction history generalizing rooted with
  | nil => cases h
  | cons m rest ih =>
    obtain h | h := List.mem_append.mp h
    · exact ⟨m, List.mem_cons_self, rooted, h⟩
    · obtain ⟨m', hm', hb⟩ := ih h
      exact ⟨m', List.mem_cons_of_mem m hm', hb⟩

theorem faces_keys_nodup {history : List (ThreadMessage J)} (h : RowsApart history) (rooted : Bool) :
    ((faces json ctx rooted history).map (·.key)).Nodup := by
  obtain ⟨hseqs, hsends⟩ := h
  induction history generalizing rooted with
  | nil => exact .nil
  | cons m rest ih =>
    obtain ⟨hseq, hseqs⟩ := List.nodup_cons.mp hseqs
    obtain ⟨ids, hkeys, hids⟩ := rowFaces_keys json ctx rooted (hsends m List.mem_cons_self)
    have hrest : ∀ m' ∈ rest, ((sendCalls m').map (·.id)).Nodup :=
      fun m' hm' => hsends m' (List.mem_cons_of_mem m hm')
    rw [faces, List.map_append, List.nodup_append]
    refine ⟨?_, ih _ hseqs hrest, fun k hk k' hk' e => ?_⟩
    · rw [hkeys]
      exact hids.map fun id id' e => (rowKey_inj.mp e).2
    · obtain ⟨b, hb, rfl⟩ := List.mem_map.mp hk'
      obtain ⟨m', hm', rooted', hb⟩ := mem_faces json ctx hb
      obtain ⟨ids', hkeys', -⟩ := rowFaces_keys json ctx rooted' (hrest m' hm')
      have hkey' : b.key ∈ (rowFaces json ctx rooted' m').map (·.key) := List.mem_map_of_mem hb
      rw [hkeys] at hk
      rw [hkeys'] at hkey'
      obtain ⟨id, -, rfl⟩ := List.mem_map.mp hk
      obtain ⟨id', -, e'⟩ := List.mem_map.mp hkey'
      have hsame : m.seq = m'.seq := (rowKey_inj.mp (e.trans e'.symm)).1
      exact hseq (List.mem_map.mpr ⟨m', hm', hsame.symm⟩)

end Keys

section Merged

variable (date : String → Int) (json : Json J) (history : List (ThreadMessage J))
  (roster : List Mentionable) (poster : ViewPoster) (state : Option (ThreadState J))

def persistedView : List (ViewBubble J) :=
  (folded json history roster poster).bubbles.map
    (persistedBubble (folded json history roster poster).entries)

def liveView : List (ViewBubble J) :=
  (visibleLive (folded json history roster poster).bubbles (state.getD emptyState)).map
    (liveBubble roster)

def optimisticView : List (ViewBubble J) :=
  (visiblePending (folded json history roster poster).bubbles (state.getD emptyState)).map
    (optimisticBubble poster)

theorem unsorted_eq : unsorted json history roster poster state =
    persistedView json history roster poster ++ liveView json history roster poster state ++
      optimisticView json history roster poster state := rfl

theorem persistedView_map {β : Type} (f : Bubble → β) (g : ViewBubble J → β)
    (h : ∀ entries b, g (persistedBubble entries b) = f b.face) :
    (persistedView json history roster poster).map g =
      (faces json (.of roster poster.toPoster history) false history).map f := by
  rw [← foldHistory_faces, persistedView, List.map_map, List.map_map]
  exact List.map_congr_left fun b _ => h _ b

theorem persistedView_keys (h : RowsApart history) :
    ((persistedView json history roster poster).map (·.key)).Nodup := by
  rw [persistedView_map json history roster poster (·.key) (·.key) fun _ _ => rfl]
  exact faces_keys_nodup json _ h false

theorem faces_head {b : Bubble} {ctx : Context} {rooted : Bool}
    (h : b ∈ faces json ctx rooted history) : b.phase = .persisted ∧ b.key.toList.head? = some 'h' := by
  obtain ⟨m, -, rooted, hb⟩ := mem_faces json ctx h
  unfold rowFaces at hb
  split at hb
  case h_1 =>
    obtain ⟨tc, -, rfl⟩ := List.mem_map.mp hb
    exact ⟨rfl, by simp [agentBubble]⟩
  case h_2 =>
    split at hb
    · obtain rfl := List.mem_singleton.mp hb
      exact ⟨rfl, by simp [humanBubble]⟩
    · cases hb
  case h_3 => cases hb

theorem persistedView_head {b : ViewBubble J} (h : b ∈ persistedView json history roster poster) :
    b.phase = .persisted ∧ b.key.toList.head? = some 'h' := by
  obtain ⟨b, hb, rfl⟩ := List.mem_map.mp h
  have hface : b.face ∈ faces json (.of roster poster.toPoster history) false history := by
    rw [← foldHistory_faces]
    exact List.mem_map_of_mem hb
  have hhead := faces_head json history hface
  exact hhead

theorem mem_persistedRequestIds {requestId : String} :
    requestId ∈ persistedRequestIds (folded json history roster poster).bubbles ↔
      ∃ b ∈ persistedView json history roster poster, b.requestId = requestId := by
  simp [persistedRequestIds, persistedView, persistedBubble]

theorem mem_liveView {b : ViewBubble J} : b ∈ liveView json history roster poster state ↔
    ∃ lb ∈ (state.getD emptyState).live, liveBubble roster lb = b ∧
      ¬∃ b' ∈ persistedView json history roster poster, b'.requestId = lb.requestId := by
  simp only [liveView, visibleLive, List.mem_map, List.mem_filter, decide_eq_true_eq,
    mem_persistedRequestIds, Table.mem_def]
  constructor
  · rintro ⟨lb, ⟨hlb, hnone⟩, rfl⟩
    exact ⟨lb, hlb, rfl, hnone⟩
  · rintro ⟨lb, hlb, rfl, hnone⟩
    exact ⟨lb, ⟨hlb, hnone⟩, rfl⟩

theorem liveView_head {b : ViewBubble J} (h : b ∈ liveView json history roster poster state) :
    b.phase = .streaming ∧ b.key.toList.head? = some 'l' := by
  obtain ⟨lb, -, rfl⟩ := List.mem_map.mp h
  exact ⟨rfl, by simp [liveBubble]⟩

theorem optimisticView_head {b : ViewBubble J}
    (h : b ∈ optimisticView json history roster poster state) :
    b.phase = .optimistic ∧ b.key.toList.head? = some 'o' := by
  obtain ⟨p, -, rfl⟩ := List.mem_map.mp h
  exact ⟨rfl, by simp [optimisticBubble]⟩

theorem append_right_inj {text a b : String} (h : text ++ a = text ++ b) : a = b := by
  have htext : text.toList ++ a.toList = text.toList ++ b.toList := by
    rw [← String.toList_append, h, String.toList_append]
  exact String.toList_inj.mp (List.append_cancel_left htext)

theorem liveView_keys : ((liveView json history roster poster state).map (·.key)).Nodup := by
  have hids : ((visibleLive (folded json history roster poster).bubbles
      (state.getD emptyState)).map LiveAgent.requestId).Nodup :=
    (state.getD emptyState).live.nodup.sublist (List.filter_sublist.map _)
  have hkeys := hids.map (f := fun requestId => "live:" ++ requestId) fun _ _ => append_right_inj
  rw [List.map_map] at hkeys
  rw [liveView, List.map_map]
  exact hkeys

theorem optimisticView_keys :
    ((optimisticView json history roster poster state).map (·.key)).Nodup := by
  have hids : ((visiblePending (folded json history roster poster).bubbles
      (state.getD emptyState)).map PendingHuman.idempotencyKey).Nodup :=
    (state.getD emptyState).pending.nodup.sublist (List.filter_sublist.map _)
  have hkeys := hids.map (f := fun key => "opt:" ++ key) fun _ _ => append_right_inj
  rw [List.map_map] at hkeys
  rw [optimisticView, List.map_map]
  exact hkeys

theorem unsorted_keys (h : RowsApart history) :
    ((unsorted json history roster poster state).map (·.key)).Nodup := by
  have hne {k k' : String} {c c' : Char} (hk : k.toList.head? = some c)
      (hk' : k'.toList.head? = some c') (hc : c ≠ c') : k ≠ k' := fun e => by
    rw [e, hk'] at hk
    exact hc (Option.some.inj hk).symm
  rw [unsorted_eq, List.map_append, List.map_append, List.nodup_append, List.nodup_append]
  refine ⟨⟨persistedView_keys json history roster poster h,
    liveView_keys json history roster poster state, ?_⟩,
    optimisticView_keys json history roster poster state, ?_⟩
  · intro k hk k' hk'
    obtain ⟨b, hb, rfl⟩ := List.mem_map.mp hk
    obtain ⟨b', hb', rfl⟩ := List.mem_map.mp hk'
    exact hne (persistedView_head json history roster poster hb).2
      (liveView_head json history roster poster state hb').2 (by decide)
  · intro k hk k' hk'
    rw [← List.map_append] at hk
    obtain ⟨b, hb, rfl⟩ := List.mem_map.mp hk
    obtain ⟨b', hb', rfl⟩ := List.mem_map.mp hk'
    have ho := (optimisticView_head json history roster poster state hb').2
    obtain hb | hb := List.mem_append.mp hb
    · exact hne (persistedView_head json history roster poster hb).2 ho (by decide)
    · exact hne (liveView_head json history roster poster state hb).2 ho (by decide)

/-- What a panel gets: every bubble once, under a key of its own and in order, and no request both
from the feed and from the stream. -/
structure Merged : Prop where
  perm : (threadView date json history roster poster state).bubbles.Perm
    (persistedView json history roster poster ++ liveView json history roster poster state ++
      optimisticView json history roster poster state)
  keys : ((threadView date json history roster poster state).bubbles.map (·.key)).Nodup
  sorted : (threadView date json history roster poster state).bubbles.Pairwise
    fun a b => byTs date a b ≤ 0
  stable : ∀ part : List (ViewBubble J), part.Pairwise (fun a b => byTs date a b ≤ 0) →
    part.Sublist (unsorted json history roster poster state) →
      part.Sublist (threadView date json history roster poster state).bubbles
  apart : ∀ b ∈ (threadView date json history roster poster state).bubbles,
    ∀ b' ∈ (threadView date json history roster poster state).bubbles,
      b.phase = .persisted → b'.phase = .streaming → b.requestId ≠ b'.requestId
  kept : ∀ lb ∈ (state.getD emptyState).live,
    liveBubble roster lb ∈ (threadView date json history roster poster state).bubbles ∨
      ∃ b ∈ (threadView date json history roster poster state).bubbles,
        b.phase = .persisted ∧ b.requestId = lb.requestId

theorem view_merged (h : RowsApart history) : Merged date json history roster poster state := by
  have hperm : (threadView date json history roster poster state).bubbles.Perm
      (unsorted json history roster poster state) := List.mergeSort_perm _ _
  have hmem (b : ViewBubble J) := hperm.mem_iff (a := b)
  simp only [unsorted_eq, List.mem_append] at hmem
  constructor
  case perm => exact hperm
  case keys =>
    exact (hperm.map _).nodup_iff.mpr (unsorted_keys json history roster poster state h)
  case sorted =>
    refine (List.pairwise_mergeSort (byTs_trans date) (byTs_total date) _).imp ?_
    exact fun h => of_decide_eq_true h
  case stable =>
    intro part hpart hsub
    exact List.sublist_mergeSort (byTs_trans date) (byTs_total date)
      (hpart.imp fun h => decide_eq_true h) hsub
  case apart =>
    intro b hb b' hb' hphase hphase' e
    have hpersisted : b ∈ persistedView json history roster poster := by
      obtain (h | h) | h := (hmem b).mp hb
      · exact h
      · cases hphase.symm.trans (liveView_head json history roster poster state h).1
      · cases hphase.symm.trans (optimisticView_head json history roster poster state h).1
    obtain (h | h) | h := (hmem b').mp hb'
    · cases hphase'.symm.trans (persistedView_head json history roster poster h).1
    · obtain ⟨lb, -, rfl, hnone⟩ := (mem_liveView json history roster poster state).mp h
      exact hnone ⟨b, hpersisted, e⟩
    · cases hphase'.symm.trans (optimisticView_head json history roster poster state h).1
  case kept =>
    intro lb hlb
    by_cases h : ∃ b ∈ persistedView json history roster poster, b.requestId = lb.requestId
    · obtain ⟨b, hb, e⟩ := h
      have hphase := (persistedView_head json history roster poster hb).1
      exact .inr ⟨b, (hmem b).mpr (.inl (.inl hb)), hphase, e⟩
    · have hlive := (mem_liveView json history roster poster state).mpr ⟨lb, hlb, rfl, h⟩
      exact .inl ((hmem _).mpr (.inl (.inr hlive)))

section Rows

def shownRows (sent : ToolCallPayload J → Bool) :
    Bool → List (ThreadMessage J) → List (ThreadMessage J)
  | _, [] => []
  | rooted, m :: rest =>
    (if (rowPosts sent rooted m).isEmpty then [] else [m]) ++
      shownRows sent (rooted || isHuman m) rest

def rowRequestId (m : ThreadMessage J) : String :=
  (if isHuman m then m.requestId.or m.clientKey else m.requestId).getD ("seq:" ++ toString m.seq)

def isEcho (key : String) (m : ThreadMessage J) : Bool := isHuman m && m.clientKey = some key

variable (ctx : Context) (rooted : Bool)

theorem rowFaces_requestIds (m : ThreadMessage J) {requestId : String} :
    requestId ∈ (rowFaces json ctx rooted m).map (·.requestId) ↔
      (rowPosts ctx.sent rooted m).isEmpty = false ∧ rowRequestId m = requestId := by
  cases hm : m.sender with
  | system => simp [rowFaces, rowPosts, hm]
  | human colleagueId userId =>
    cases hs : rooted && speaks m <;>
      simp [rowFaces, rowPosts, rowRequestId, isHuman, hm, hs, humanBubble, eq_comm]
  | agent colleagueId aid =>
    cases hd : delivered ctx.sent m <;>
      simp [rowFaces, rowPosts, rowRequestId, isHuman, hm, hd, agentBubble, eq_comm]

theorem rowFaces_echoes (m : ThreadMessage J) (key : String) :
    (rowFaces json ctx rooted m).countP (fun b => b.clientKey = some key) =
      (if (rowPosts ctx.sent rooted m).isEmpty then [] else [m]).countP (isEcho key) := by
  cases hm : m.sender with
  | system => simp [rowFaces, rowPosts, hm]
  | human colleagueId userId =>
    cases hs : rooted && speaks m <;>
      simp [rowFaces, rowPosts, isEcho, isHuman, hm, hs, humanBubble, List.countP_cons]
  | agent colleagueId aid =>
    cases hd : delivered ctx.sent m <;>
      simp [rowFaces, rowPosts, isEcho, isHuman, hm, hd, agentBubble]

theorem faces_requestIds (rows : List (ThreadMessage J)) {requestId : String} :
    requestId ∈ (faces json ctx rooted rows).map (·.requestId) ↔
      ∃ m ∈ shownRows ctx.sent rooted rows, rowRequestId m = requestId := by
  induction rows generalizing rooted with
  | nil => simp [faces, shownRows]
  | cons m rest ih =>
    rw [faces, shownRows, List.map_append, List.mem_append, rowFaces_requestIds, ih]
    cases (rowPosts ctx.sent rooted m).isEmpty <;> simp

theorem faces_echoes (rows : List (ThreadMessage J)) (key : String) :
    (faces json ctx rooted rows).countP (fun b => b.clientKey = some key) =
      (shownRows ctx.sent rooted rows).countP (isEcho key) := by
  induction rows generalizing rooted with
  | nil => rfl
  | cons m rest ih =>
    rw [faces, shownRows, List.countP_append, List.countP_append, rowFaces_echoes, ih]

end Rows

def feedShows : List (ThreadMessage J) :=
  shownRows (Context.of roster poster.toPoster history).sent false history

def echoes (p : PendingHuman) : Nat :=
  (feedShows history roster poster).countP (isEcho p.idempotencyKey)

def Answered (p : PendingHuman) : Prop :=
  ∃ requestId ∈ p.requestId, requestId ≠ "" ∧
    ∃ m ∈ feedShows history roster poster, rowRequestId m = requestId

instance (p : PendingHuman) : Decidable (Answered history roster poster p) :=
  inferInstanceAs (Decidable (∃ requestId ∈ p.requestId, requestId ≠ "" ∧
    ∃ m ∈ feedShows history roster poster, rowRequestId m = requestId))

theorem persistedView_echoes (p : PendingHuman) :
    (persistedView json history roster poster).countP (fun b => b.clientKey = some p.idempotencyKey)
      = echoes history roster poster p := by
  have hmap := persistedView_map json history roster poster (·.clientKey) (·.clientKey) fun _ _ => rfl
  have hcount := congrArg (List.countP fun k => decide (k = some p.idempotencyKey)) hmap
  rw [List.countP_map, List.countP_map] at hcount
  exact hcount.trans (faces_echoes json _ false history p.idempotencyKey)

theorem persistedRequestIds_iff {requestId : String} :
    requestId ∈ persistedRequestIds (folded json history roster poster).bubbles ↔
      ∃ m ∈ feedShows history roster poster, rowRequestId m = requestId := by
  have hmap := persistedView_map json history roster poster (·.requestId) (·.requestId) fun _ _ => rfl
  rw [mem_persistedRequestIds, feedShows, ← faces_requestIds json, ← hmap, List.mem_map]

theorem persistedClientKeys_iff {p : PendingHuman} :
    p.idempotencyKey ∈ persistedClientKeys (folded json history roster poster).bubbles ↔
      p.idempotencyKey ≠ "" ∧ 0 < echoes history roster poster p := by
  rw [← persistedView_echoes json, List.countP_pos_iff]
  simp [persistedClientKeys, persistedView, persistedBubble, and_comm]

theorem confirmed_iff {p : PendingHuman} :
    confirmed (folded json history roster poster).bubbles p ↔
      p.idempotencyKey ≠ "" ∧ 0 < echoes history roster poster p ∨
        Answered history roster poster p := by
  rw [confirmed, Bool.or_eq_true, decide_eq_true_eq, persistedClientKeys_iff, Answered]
  refine or_congr_right ?_
  cases p.requestId with
  | none => simp
  | some requestId =>
    simp only [Option.any_some, Option.mem_some_iff, exists_eq_left', Bool.and_eq_true,
      decide_eq_true_eq, persistedRequestIds_iff]

theorem liveView_clientKey (key : String) :
    (liveView json history roster poster state).countP (fun b => b.clientKey = some key) = 0 := by
  refine List.countP_eq_zero.mpr fun b hb => ?_
  obtain ⟨lb, -, rfl⟩ := List.mem_map.mp hb
  simp [liveBubble]

theorem optimisticView_clientKey {st : ThreadState J} {p : PendingHuman} (hp : p ∈ st.pending) :
    (optimisticView json history roster poster (some st)).countP
        (fun b => b.clientKey = some p.idempotencyKey) =
      if !confirmed (folded json history roster poster).bubbles p && p.shows then 1 else 0 := by
  have hown : (st.pending.rows.filter fun q => q.idempotencyKey = p.idempotencyKey) = [p] :=
    Table.filter_eq_singleton hp (decide_eq_true rfl) fun _ _ h => of_decide_eq_true h
  have hcount : (optimisticView json history roster poster (some st)).countP
      (fun b => b.clientKey = some p.idempotencyKey) =
        (st.pending.rows.filter fun q => q.idempotencyKey = p.idempotencyKey).countP
          fun q => !confirmed (folded json history roster poster).bubbles q && q.shows := by
    simp only [optimisticView, visiblePending, List.countP_map, List.countP_filter]
    refine List.countP_congr fun q _ => ?_
    simp [optimisticBubble, and_comm]
  rw [hcount, hown, List.countP_singleton]

/-- A post is shown once: by the one row of it that the feed shows, if its own bubble is gone then, or
by its own bubble, if the feed shows nothing of it. -/
theorem submission_shown_once_iff {st : ThreadState J} {p : PendingHuman} (hp : p ∈ st.pending) :
    ((threadView date json history roster poster (some st)).bubbles.countP
        fun b => b.clientKey = some p.idempotencyKey) = 1 ↔
      echoes history roster poster p = 1 ∧
        (p.idempotencyKey ≠ "" ∨ Answered history roster poster p ∨ ¬p.shows) ∨
      echoes history roster poster p = 0 ∧ ¬Answered history roster poster p ∧ p.shows := by
  have hperm : (threadView date json history roster poster (some st)).bubbles.Perm
      (unsorted json history roster poster (some st)) := List.mergeSort_perm _ _
  rw [hperm.countP_eq, unsorted_eq, List.countP_append, List.countP_append,
    persistedView_echoes, liveView_clientKey,
    optimisticView_clientKey json history roster poster hp, Nat.add_zero]
  have hconf : confirmed (folded json history roster poster).bubbles p ↔ _ := confirmed_iff ..
  generalize echoes history roster poster p = n at hconf ⊢
  generalize confirmed (folded json history roster poster).bubbles p = gone at hconf ⊢
  cases gone with
  | false =>
    obtain ⟨hkey, hanswer⟩ : (p.idempotencyKey ≠ "" → n = 0) ∧ ¬Answered history roster poster p := by
      simpa using hconf
    cases hshows : p.shows with
    | false => simp [hanswer]
    | true =>
      simp only [Bool.not_false, Bool.and_true, if_true, Nat.add_eq_right, hanswer, not_true,
        or_false, not_false_eq_true, and_true]
      exact ⟨.inr, fun hrow => hrow.elim (fun ⟨_, hne⟩ => hkey hne) id⟩
  | true =>
    have hgone := hconf.mp rfl
    simp only [Bool.not_true, Bool.false_and, Bool.false_eq_true, if_false, Nat.add_zero]
    constructor
    · intro hone
      exact .inl ⟨hone, hgone.elim (fun h => .inl h.1) fun h => .inr (.inl h)⟩
    · rintro (⟨hone, -⟩ | ⟨hnone, hanswer, -⟩)
      · exact hone
      · exact absurd hgone (by simp [hnone, hanswer])

end Merged

section Sample

def humanRow (seq : Int) (clientKey : Option String) : ThreadMessage String where
  seq := seq
  kind := .posted
  sender := .human "colleague" "user"
  receiver := none
  body := some ⟨some [.text "hello"], none⟩
  createdAt := "2026-01-01T00:00:00Z"
  requestId := none
  clientKey := clientKey
  senderDisplayName := none
  senderAvatarUrl := none

def sampleFeed : List (ThreadMessage String) := [humanRow 1 none, humanRow 2 (some "post")]

def samplePoster : ViewPoster := ⟨⟨"Ada", "user"⟩, none⟩

def samplePost : PendingHuman :=
  ⟨"post", some "request", some true, "hello", none, "2026-01-01T00:00:00Z"⟩

def sampleState : ThreadState String := { emptyState with pending := .single samplePost }

theorem sampleFeed_apart : RowsApart sampleFeed := by
  constructor
  · decide
  · simp [sampleFeed, humanRow, sendCalls, issued]

theorem view_merged_sample : RowsApart sampleFeed ∧
    Merged (fun _ => 0) textJson sampleFeed [] samplePoster (some sampleState) :=
  ⟨sampleFeed_apart, view_merged _ _ _ _ _ _ sampleFeed_apart⟩

def samplePostShown (feed : List (ThreadMessage String)) : Nat :=
  (threadView (fun _ => 0) textJson feed [] samplePoster (some sampleState)).bubbles.countP
    fun b => b.clientKey = some samplePost.idempotencyKey

theorem submission_shown_once_sample :
    samplePostShown [humanRow 1 none] = 1 ∧ samplePostShown sampleFeed = 1 := by
  have hp : samplePost ∈ sampleState.pending := List.mem_singleton.mpr rfl
  constructor
  · exact (submission_shown_once_iff (fun _ => 0) textJson _ [] samplePoster hp).mpr (by decide)
  · exact (submission_shown_once_iff (fun _ => 0) textJson _ [] samplePoster hp).mpr (by decide)

end Sample

end Patom.Web
