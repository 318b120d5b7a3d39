import Patom.Web.FoldRuns

namespace Patom.Web

variable {J : Type}

def sentIn (history : List (ThreadMessage J)) (tc : ToolCallPayload J) : Bool :=
  !history.any fun m => (decodeBody m.body).toolResults.any fun tr => tr.failed && tr.callId = tc.id

structure RealCall (history : List (ThreadMessage J)) where
  before : List (ThreadMessage J)
  row : ThreadMessage J
  after : List (ThreadMessage J)
  feed : history = before ++ row :: after
  agent : String
  sender : agentOf row = some agent
  ahead : List (ToolCallPayload J)
  call : ToolCallPayload J
  behind : List (ToolCallPayload J)
  calls : issued row = ahead ++ call :: behind
  real : call.name ≠ SEND_MESSAGE

namespace RealCall

variable {history : List (ThreadMessage J)} (c : RealCall history)

def aheadReal : List (ToolCallPayload J) := c.ahead.filter fun tc => tc.name ≠ SEND_MESSAGE

def behindReal : List (ToolCallPayload J) := c.behind.filter fun tc => tc.name ≠ SEND_MESSAGE

def ref : Nat := (c.before.flatMap realCalls).length + c.aheadReal.length

def Precedes : Prop :=
  (∃ tc ∈ c.behind, tc.name = SEND_MESSAGE ∧ sentIn history tc) ∨
    ∃ m ∈ c.after, agentOf m = some c.agent ∧ delivered (sentIn history) m ≠ []

def delivery : List Origin := Web.delivery (sentIn history) c.agent (c.row :: c.after)

def own : List ToolResultPayload :=
  if c.call.id ∈ c.behind.map (·.id) then []
  else (resultsOf c.row).filter (·.callId = c.call.id) ++ ownFrom c.call.id c.after

def sendTook : Bool :=
  (c.before ++ [c.row]).any fun m => (sendCalls m).any fun tc => tc.id = c.call.id

theorem realCalls_row : realCalls c.row = c.aheadReal ++ c.call :: c.behindReal := by
  simp [realCalls, c.calls, aheadReal, behindReal, c.real]

theorem behind_cases (h : c.call.id ∈ c.behind.map (·.id)) :
    c.call.id ∈ c.behindReal.map (·.id) ∨ c.sendTook := by
  obtain ⟨tc, htc, hid⟩ := List.mem_map.1 h
  by_cases hname : tc.name = SEND_MESSAGE
  · have hsend : tc ∈ sendCalls c.row := by simp [sendCalls, c.calls, htc, hname]
    exact .inr (List.any_eq_true.2
      ⟨c.row, by simp, List.any_eq_true.2 ⟨tc, hsend, by simpa using hid⟩⟩)
  · exact .inl (List.mem_map.2 ⟨tc, List.mem_filter.2 ⟨htc, by simpa using hname⟩, hid⟩)

theorem delivery_ne_nil (h : c.Precedes) : c.delivery ≠ [] := by
  have hrow (m : ThreadMessage J) (rest) (hm : agentOf m = some c.agent)
      (hd : delivered (sentIn history) m ≠ []) :
      Web.delivery (sentIn history) c.agent (m :: rest) ≠ [] := by
    simp [Web.delivery, hm, hd]
  have hlater (rows : List (ThreadMessage J)) (h : ∃ m ∈ rows, agentOf m = some c.agent ∧
      delivered (sentIn history) m ≠ []) : Web.delivery (sentIn history) c.agent rows ≠ [] := by
    induction rows with
    | nil => simp at h
    | cons m rest ih =>
      by_cases hm : agentOf m = some c.agent ∧ delivered (sentIn history) m ≠ []
      · exact hrow m rest hm.1 hm.2
      · rw [Web.delivery, if_neg hm]
        exact ih (by simpa [hm] using h)
  apply hlater
  obtain ⟨tc, htc, hname, hsent⟩ | ⟨m, hm, h⟩ := h
  · refine ⟨c.row, List.mem_cons_self, c.sender, List.ne_nil_of_mem (a := tc) ?_⟩
    have hmem : tc ∈ issued c.row := by simp [c.calls, htc]
    exact List.mem_filter.2 ⟨List.mem_filter.2 ⟨hmem, by simpa using hname⟩, hsent⟩
  · exact ⟨m, List.mem_cons_of_mem _ hm, h⟩

end RealCall

def FoldedHistory.holders (out : FoldedHistory J) (n : Nat) : List Origin :=
  held (out.bubbles.map Bubble.card) n

section Conserves

variable (json : Json J) (history : List (ThreadMessage J)) (roster : List Mentionable)
  (poster : Poster)

structure Posts : Prop where
  bubbles : (foldHistory json history roster poster).bubbles.map Bubble.origin =
    posts (sentIn history) false history
  rootMessage : (foldHistory json history roster poster).rootMessage =
    history.findSome? (humanRoot (.of roster poster history))

/-- Each call ahead of a delivery in one bubble. -/
structure Conserves : Prop extends Posts json history roster poster where
  calls : ∀ c : RealCall history, c.Precedes →
    ((foldHistory json history roster poster).holders c.ref).length = 1 ∧
      (foldHistory json history roster poster).entries[c.ref]? =
        some (answered c.call c.own.getLast?)

/-- Each call in the bubbles of one row; a send's id keeps its results. -/
structure ConservesByRow : Prop extends Posts json history roster poster where
  calls : ∀ c : RealCall history,
    (foldHistory json history roster poster).holders c.ref = c.delivery ∧
      (c.Precedes → c.delivery ≠ []) ∧
      (foldHistory json history roster poster).entries[c.ref]? =
        some (answered c.call (if c.sendTook then none else c.own.getLast?))

theorem mem_failedCallIds {id : String} : id ∈ failedCallIds history ↔
    ∃ m ∈ history, ∃ tr ∈ (decodeBody m.body).toolResults, tr.failed ∧ tr.callId = id := by
  simp [failedCallIds, and_assoc]

theorem sentIn_eq (tc : ToolCallPayload J) :
    sentIn history tc = (Context.of roster poster history).sent tc := by
  rw [Bool.eq_iff_iff]
  simp [sentIn, Context.sent, Context.of, mem_failedCallIds]

theorem addWireRequests_card (entries : List (ToolCallEntry J)) (b : Bubble) :
    (addWireRequests json entries b).card = b.card := by
  unfold addWireRequests
  split <;> rfl

theorem foldHistory_cards : (foldHistory json history roster poster).bubbles.map Bubble.card =
    (history.foldl (foldRow json (.of roster poster history)) .init).cards := by
  simp [foldHistory, FoldState.cards, Function.comp_def, addWireRequests_card]

theorem foldHistory_posts : Posts json history roster poster where
  bubbles := by
    have hsent : sentIn history = (Context.of roster poster history).sent :=
      funext (sentIn_eq history roster poster)
    have horigin (bs : List Bubble) : bs.map Bubble.origin = (bs.map Bubble.card).map Prod.fst := by
      simp [Bubble.card]
    rw [hsent, horigin, foldHistory_cards, foldRows_origins]
    rfl
  rootMessage := by
    simp [foldHistory, foldRows_rootMessage, FoldState.init]

end Conserves

section Shared

def textJson : Json String := ⟨fun _ => none, fun input _ => some input, some⟩

def agentRow (seq : Int) (blocks : List (ContentBlock String)) : ThreadMessage String where
  seq := seq
  kind := .toolUse
  sender := .agent "colleague" "agent"
  receiver := none
  body := some ⟨some blocks, none⟩
  createdAt := "2026-01-01T00:00:00Z"
  requestId := none
  clientKey := none
  senderDisplayName := none
  senderAvatarUrl := none

def grepCall : ToolCallPayload String := ⟨"call-1", "grep", "pattern"⟩

def sendCall (id : String) : ToolCallPayload String := ⟨id, SEND_MESSAGE, "done"⟩

def sharedRow : ThreadMessage String :=
  agentRow 1 [.toolCall grepCall, .toolCall (sendCall "call-2"), .toolCall (sendCall "call-3")]

def sharedCall : RealCall [sharedRow] where
  before := []
  row := sharedRow
  after := []
  feed := rfl
  agent := "agent"
  sender := rfl
  ahead := []
  call := grepCall
  behind := [sendCall "call-2", sendCall "call-3"]
  calls := rfl
  real := by decide

def sendRow : ThreadMessage String := agentRow 1 [.toolCall (sendCall "call-1")]

def takenRow : ThreadMessage String :=
  agentRow 2 [.toolCall grepCall, .toolCall (sendCall "call-2")]

def resultRow : ThreadMessage String :=
  { agentRow 3 [.toolResult ⟨"call-1", "found", none⟩] with sender := .system, kind := .toolResult }

def takenCall : RealCall [sendRow, takenRow, resultRow] where
  before := [sendRow]
  row := takenRow
  after := [resultRow]
  feed := rfl
  agent := "agent"
  sender := rfl
  ahead := []
  call := grepCall
  behind := [sendCall "call-2"]
  calls := rfl
  real := by decide

/-- Two sends of one row show the same call, and a call under an earlier send's id loses its
result. -/
theorem foldHistory_shares :
    ¬ Conserves textJson [sharedRow] [] ⟨"", ""⟩ ∧
      ¬ Conserves textJson [sendRow, takenRow, resultRow] [] ⟨"", ""⟩ := by
  constructor
  · intro h
    have hone := (h.calls sharedCall (.inl ⟨_, List.mem_cons_self, rfl, by decide⟩)).1
    have htwo : ((foldHistory textJson [sharedRow] [] ⟨"", ""⟩).holders
        sharedCall.ref).length = 2 := by decide
    omega
  · intro h
    have hfound := (h.calls takenCall (.inl ⟨_, List.mem_cons_self, rfl, by decide⟩)).2
    have hnone : ((foldHistory textJson [sendRow, takenRow, resultRow] [] ⟨"", ""⟩).entries[
        takenCall.ref]?).map (·.output) = some none := by decide
    have hown : takenCall.own.getLast? = some ⟨"call-1", "found", none⟩ := by decide
    rw [hfound, hown] at hnone
    cases hnone

end Shared

namespace RealCall

variable {history : List (ThreadMessage J)} (c : RealCall history) (json : Json J) (ctx : Context)

def state : FoldState J := c.before.foldl (foldRow json ctx) .init

theorem state_length :
    (c.state json ctx).entries.length = (c.before.flatMap realCalls).length := by
  simp [state, foldRows_length, FoldState.init]

theorem foldl_state :
    history.foldl (foldRow json ctx) .init =
      (c.row :: c.after).foldl (foldRow json ctx) (c.state json ctx) := by
  conv_lhs => rw [c.feed, List.foldl_append]
  rfl

theorem held_delivery :
    held (history.foldl (foldRow json ctx) .init).cards c.ref =
      Web.delivery ctx.sent c.agent (c.row :: c.after) := by
  have hlen := c.state_length json ctx
  have hrow := congrArg List.length c.realCalls_row
  simp only [List.length_append, List.length_cons] at hrow
  have hinit : Settled (FoldState.init : FoldState J) c.ref := fun b => rfl
  obtain ⟨hsettled, hnone⟩ := unseen_run json ctx c.before hinit (by simp [ref, FoldState.init])
  have howned : Owned (issue (c.state json ctx) c.row) c.ref c.agent := by
    intro b
    have hold : waiting (c.state json ctx) c.ref b = 0 := hsettled b
    rw [issue_waiting, hold, c.sender, Nat.zero_add]
    refine if_congr ⟨fun h => (Option.some.inj h.1).symm, fun h => ⟨h ▸ rfl, ?_⟩⟩ rfl rfl
    rw [hlen, hrow, ref]
    omega
  have hlt : c.ref < (issue (c.state json ctx) c.row).entries.length := by
    rw [issue_entries, List.length_append, List.length_map, hlen, hrow, ref]
    omega
  rw [c.foldl_state, owned_run json ctx c.after howned hlt, state, hnone]
  rfl

theorem issue_getElem? :
    (issue (c.state json ctx) c.row).entries[c.ref]? = some (answered c.call none) := by
  rw [issue_entries, ref, ← c.state_length json ctx, List.getElem?_append_right (by omega),
    c.realCalls_row]
  simp

theorem issue_index_of_not_behind (h : c.call.id ∉ c.behindReal.map (·.id)) :
    (issue (c.state json ctx) c.row).index c.call.id = some c.ref := by
  rw [issue_of_agentOf c.sender, c.realCalls_row, List.foldl_append, List.foldl_cons,
    addCalls_index_of_not_mem _ _ _ h]
  simp [addCall, addCalls_entries, state_length, ref]

theorem issue_index_of_behind (h : c.call.id ∈ c.behindReal.map (·.id)) :
    (issue (c.state json ctx) c.row).index c.call.id ≠ some c.ref := by
  rw [issue_of_agentOf c.sender, c.realCalls_row, List.foldl_append, List.foldl_cons]
  obtain ⟨k, -, hk⟩ := addCalls_index_of_mem c.agent c.behindReal
    (addCall c.agent (c.aheadReal.foldl (addCall c.agent) (c.state json ctx)) c.call) h
  rw [hk, Ne, Option.some.injEq]
  simp [addCall, addCalls_entries, state_length, ref]
  omega

theorem sendTook_iff :
    c.sendTook ↔ c.call.id ∈ (foldRow json ctx (c.state json ctx) c.row).sendMessageCallIds := by
  rw [foldRow_sends, state, foldRows_sends]
  simp [sendTook, FoldState.init]

theorem foldl_entry :
    (history.foldl (foldRow json ctx) .init).entries[c.ref]? =
      some (answered c.call (if c.sendTook then none else c.own.getLast?)) := by
  have hcoh : Coherent (c.state json ctx) := coherent_run json ctx c.before coherent_init
  have hentry := foldRow_entry json ctx hcoh (c.issue_getElem? json ctx)
  have hclosed (h : Closed (foldRow json ctx (c.state json ctx) c.row) c.call.id c.ref) :
      (history.foldl (foldRow json ctx) .init).entries[c.ref]? = some (answered c.call none) := by
    rw [c.foldl_state]
    exact closed_run json ctx c.after (coherent_foldRow json ctx hcoh _) (hentry.1 h) h
  by_cases hs : c.sendTook
  · rw [if_pos hs]
    exact hclosed fun _ => (c.sendTook_iff json ctx).1 hs
  · have hsend := fun h => hs ((c.sendTook_iff json ctx).2 h)
    rw [if_neg hs, own]
    by_cases hb : c.call.id ∈ c.behindReal.map (·.id)
    · have hbehind : c.call.id ∈ c.behind.map (·.id) := (List.filter_sublist.map _).subset hb
      rw [if_pos hbehind]
      exact hclosed fun h =>
        absurd (foldRow_index json ctx _ _ ▸ h) (c.issue_index_of_behind json ctx hb)
    · have hbehind : c.call.id ∉ c.behind.map (·.id) := fun h => (c.behind_cases h).elim hb hs
      have hidx := c.issue_index_of_not_behind json ctx hb
      have hidx' : (foldRow json ctx (c.state json ctx) c.row).index c.call.id = some c.ref := by
        rw [foldRow_index, hidx]
      rw [if_neg hbehind, c.foldl_state, List.foldl_cons,
        open_run json ctx c.after (coherent_foldRow json ctx hcoh _)
          (hentry.2 hidx fun h => hsend (h hidx')) hidx' hsend,
        List.getLast?_append, Option.or_none]

end RealCall

theorem foldHistory_conserves (json : Json J) (history : List (ThreadMessage J))
    (roster : List Mentionable) (poster : Poster) :
    ConservesByRow json history roster poster where
  toPosts := foldHistory_posts json history roster poster
  calls c := by
    have hsent : sentIn history = (Context.of roster poster history).sent :=
      funext (sentIn_eq history roster poster)
    refine ⟨?_, c.delivery_ne_nil, c.foldl_entry json _⟩
    rw [FoldedHistory.holders, foldHistory_cards, c.held_delivery, RealCall.delivery, hsent]

end Patom.Web
