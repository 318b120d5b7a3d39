import Patom.Web.FoldHistory

namespace Patom.Web

variable {J : Type}

section Rows

def agentOf (m : ThreadMessage J) : Option String :=
  match m.sender with
  | .agent _ aid => some aid
  | _ => none

def issued (m : ThreadMessage J) : List (ToolCallPayload J) :=
  match m.sender with
  | .agent _ _ => (decodeBody m.body).toolCalls
  | _ => []

def realCalls (m : ThreadMessage J) : List (ToolCallPayload J) :=
  (issued m).filter fun tc => tc.name ≠ SEND_MESSAGE

def sendCalls (m : ThreadMessage J) : List (ToolCallPayload J) :=
  (issued m).filter fun tc => tc.name = SEND_MESSAGE

def resultsOf (m : ThreadMessage J) : List ToolResultPayload :=
  match m.sender with
  | .human _ _ => []
  | _ => (decodeBody m.body).toolResults

theorem realCalls_of_agentOf_none {m : ThreadMessage J} (h : agentOf m = none) :
    realCalls m = [] := by
  cases hm : m.sender <;> simp_all [agentOf, realCalls, issued]

end Rows

section Origins

structure Origin where
  kind : BubbleKind
  key : String
  author : Option String
  ts : String
  deriving DecidableEq

def Bubble.origin (b : Bubble) : Origin := ⟨b.kind, b.key, b.agentId.or b.humanId, b.ts⟩

def sendOrigin (m : ThreadMessage J) (aid : String) (tc : ToolCallPayload J) : Origin :=
  ⟨.agent, "h:" ++ toString m.seq ++ ":" ++ tc.id, some aid, m.createdAt⟩

def humanOrigin (m : ThreadMessage J) (userId : String) : Origin :=
  ⟨.human, "h:" ++ toString m.seq ++ ":user", some userId, m.createdAt⟩

variable (sent : ToolCallPayload J → Bool)

def delivered (m : ThreadMessage J) : List (ToolCallPayload J) := (sendCalls m).filter sent

/-- The bubbles of one row; `rooted` says whether a human row stands ahead of it. -/
def rowPosts (rooted : Bool) (m : ThreadMessage J) : List Origin :=
  match m.sender with
  | .agent _ aid => (delivered sent m).map (sendOrigin m aid)
  | .human _ userId => if rooted && speaks m then [humanOrigin m userId] else []
  | .system => []

def isHuman (m : ThreadMessage J) : Bool :=
  match m.sender with
  | .human _ _ => true
  | _ => false

def posts : Bool → List (ThreadMessage J) → List Origin
  | _, [] => []
  | rooted, m :: rest => rowPosts sent rooted m ++ posts (rooted || isHuman m) rest

def delivery (aid : String) : List (ThreadMessage J) → List Origin
  | [] => []
  | m :: rest =>
    if agentOf m = some aid ∧ delivered sent m ≠ [] then (delivered sent m).map (sendOrigin m aid)
    else delivery aid rest

end Origins

section Calls

def answered (tc : ToolCallPayload J) : Option ToolResultPayload → ToolCallEntry J
  | none => ⟨tc.id, tc.name, tc.input, none, none, .running⟩
  | some tr => ⟨tc.id, tc.name, tc.input, some tr.output, tr.isError, if tr.failed then .error else .ok⟩

def ToolCallEntry.call (e : ToolCallEntry J) : ToolCallPayload J := ⟨e.callId, e.name, e.input⟩

@[simp] theorem answered_call (tc : ToolCallPayload J) (tr : Option ToolResultPayload) :
    (answered tc tr).call = tc := by
  cases tr <;> rfl

@[simp] theorem answered_callId (tc : ToolCallPayload J) (tr : Option ToolResultPayload) :
    (answered tc tr).callId = tc.id := by
  cases tr <;> rfl

variable (aid : String)

theorem addCalls_frame (calls : List (ToolCallPayload J)) (s : FoldState J) :
    calls.foldl (addCall aid) s =
      { s with
        entries := (calls.foldl (addCall aid) s).entries
        pending := (calls.foldl (addCall aid) s).pending
        index := (calls.foldl (addCall aid) s).index } := by
  induction calls generalizing s with
  | nil => rfl
  | cons tc calls ih => exact ih (addCall aid s tc)

@[simp] theorem addCalls_bubbles (calls : List (ToolCallPayload J)) (s : FoldState J) :
    (calls.foldl (addCall aid) s).bubbles = s.bubbles := by
  rw [addCalls_frame]

@[simp] theorem addCalls_sends (calls : List (ToolCallPayload J)) (s : FoldState J) :
    (calls.foldl (addCall aid) s).sendMessageCallIds = s.sendMessageCallIds := by
  rw [addCalls_frame]

@[simp] theorem addCalls_rootMessage (calls : List (ToolCallPayload J)) (s : FoldState J) :
    (calls.foldl (addCall aid) s).rootMessage = s.rootMessage := by
  rw [addCalls_frame]

theorem addCalls_entries (calls : List (ToolCallPayload J)) (s : FoldState J) :
    (calls.foldl (addCall aid) s).entries = s.entries ++ calls.map (answered · none) := by
  induction calls generalizing s with
  | nil => simp
  | cons tc calls ih => simp [ih, addCall, answered]

theorem addCalls_pending (calls : List (ToolCallPayload J)) (s : FoldState J) (b : String) :
    ((calls.foldl (addCall aid) s).pending b).toolCalls =
      (s.pending b).toolCalls ++ if b = aid then List.range' s.entries.length calls.length else [] := by
  induction calls generalizing s with
  | nil => simp
  | cons tc calls ih =>
    rw [List.foldl_cons, ih]
    by_cases hb : b = aid
    · subst hb
      simp [addCall, List.range'_succ]
    · simp [addCall, hb]

theorem addCalls_index_of_not_mem {id : String} (calls : List (ToolCallPayload J)) (s : FoldState J)
    (h : id ∉ calls.map (·.id)) : (calls.foldl (addCall aid) s).index id = s.index id := by
  induction calls generalizing s with
  | nil => rfl
  | cons tc calls ih =>
    simp only [List.map_cons, List.mem_cons, not_or] at h
    rw [List.foldl_cons, ih _ h.2]
    exact Function.update_of_ne h.1 ..

theorem addCalls_index_of_mem {id : String} (calls : List (ToolCallPayload J)) (s : FoldState J)
    (h : id ∈ calls.map (·.id)) :
    ∃ k, (calls[k]?).map (·.id) = some id ∧
      (calls.foldl (addCall aid) s).index id = some (s.entries.length + k) := by
  induction calls generalizing s with
  | nil => simp at h
  | cons tc calls ih =>
    by_cases hm : id ∈ calls.map (·.id)
    · obtain ⟨k, hk, href⟩ := ih (addCall aid s tc) hm
      refine ⟨k + 1, by simpa using hk, ?_⟩
      rw [List.foldl_cons, href]
      simp only [addCall, List.length_append, List.length_singleton]
      congr 1
      omega
    · have hid : id = tc.id := by simpa [hm] using h
      refine ⟨0, by simp [hid], ?_⟩
      rw [List.foldl_cons, addCalls_index_of_not_mem aid _ _ hm, hid]
      simp [addCall]

end Calls

section Results

theorem attach_frame (s : FoldState J) (tr : ToolResultPayload) :
    attach s tr = { s with entries := (attach s tr).entries } := by
  unfold attach
  split
  · rfl
  · split <;> rfl

theorem attachResults_frame (results : List ToolResultPayload) (s : FoldState J) :
    attachResults s results = { s with entries := (attachResults s results).entries } := by
  induction results generalizing s with
  | nil => rfl
  | cons tr results ih =>
    change attachResults (attach s tr) results =
      { s with entries := (attachResults (attach s tr) results).entries }
    have hs := attach_frame s tr
    generalize attach s tr = s' at hs ⊢
    rw [ih s', hs]

@[simp] theorem attachResults_bubbles (results : List ToolResultPayload) (s : FoldState J) :
    (attachResults s results).bubbles = s.bubbles := by
  rw [attachResults_frame]

@[simp] theorem attachResults_pending (results : List ToolResultPayload) (s : FoldState J) :
    (attachResults s results).pending = s.pending := by
  rw [attachResults_frame]

@[simp] theorem attachResults_index (results : List ToolResultPayload) (s : FoldState J) :
    (attachResults s results).index = s.index := by
  rw [attachResults_frame]

@[simp] theorem attachResults_sends (results : List ToolResultPayload) (s : FoldState J) :
    (attachResults s results).sendMessageCallIds = s.sendMessageCallIds := by
  rw [attachResults_frame]

@[simp] theorem attachResults_rootMessage (results : List ToolResultPayload) (s : FoldState J) :
    (attachResults s results).rootMessage = s.rootMessage := by
  rw [attachResults_frame]

theorem attach_calls (s : FoldState J) (tr : ToolResultPayload) :
    (attach s tr).entries.map ToolCallEntry.call = s.entries.map ToolCallEntry.call := by
  unfold attach
  split
  · rfl
  · split
    · rfl
    · refine List.ext_getElem? fun i => ?_
      simp only [List.getElem?_map, List.getElem?_modify]
      cases s.entries[i]? with
      | none => rfl
      | some e =>
        simp only [Option.map_eq_map, Option.map_some]
        split <;> rfl

theorem attachResults_calls (results : List ToolResultPayload) (s : FoldState J) :
    (attachResults s results).entries.map ToolCallEntry.call =
      s.entries.map ToolCallEntry.call := by
  induction results generalizing s with
  | nil => rfl
  | cons tr results ih => exact (ih _).trans (attach_calls s tr)

@[simp] theorem attachResults_length (results : List ToolResultPayload) (s : FoldState J) :
    (attachResults s results).entries.length = s.entries.length := by
  simpa using congrArg List.length (attachResults_calls results s)

theorem attach_getElem?_of_ne {s : FoldState J} {tr : ToolResultPayload} {n : Nat}
    (h : s.index tr.callId = some n → tr.callId ∈ s.sendMessageCallIds) :
    (attach s tr).entries[n]? = s.entries[n]? := by
  unfold attach
  split
  · rfl
  · split
    · rfl
    · rename_i hs _ ref href
      have hne : ref ≠ n := fun e => hs (h (by rw [href, e]))
      simp [hne]

theorem attach_getElem?_self {s : FoldState J} {tc : ToolCallPayload J} {tr : ToolResultPayload}
    {n : Nat} {out : Option ToolResultPayload} (h : s.entries[n]? = some (answered tc out))
    (hn : s.index tc.id = some n) (hs : tc.id ∉ s.sendMessageCallIds) (ht : tr.callId = tc.id) :
    (attach s tr).entries[n]? = some (answered tc (some tr)) := by
  simp only [attach, ht, hs, hn, if_false, List.getElem?_modify, h]
  cases out <;> simp [answered]

end Results

section Sends

def Bubble.card (b : Bubble) : Origin × List Nat := (b.origin, b.toolCalls)

def FoldState.cards (s : FoldState J) : List (Origin × List Nat) := s.bubbles.map Bubble.card

variable (json : Json J) (ctx : Context)

theorem agentBubble_card (m : ThreadMessage J) (aid : String) (p : Pending)
    (tc : ToolCallPayload J) :
    (agentBubble json ctx m aid p tc).card = (sendOrigin m aid tc, p.toolCalls) := rfl

theorem humanBubble_card (m : ThreadMessage J) (userId : String) :
    (humanBubble ctx m userId).card = (humanOrigin m userId, []) := rfl

theorem deliver_foldl (m : ThreadMessage J) (aid : String) (p : Pending)
    (calls : List (ToolCallPayload J)) (s : FoldState J) :
    ∃ lb, calls.foldl (deliver json ctx m aid p) s =
      { s with
        bubbles := s.bubbles ++ calls.map (agentBubble json ctx m aid p)
        lastBubble := lb } := by
  induction calls generalizing s with
  | nil => exact ⟨s.lastBubble, by simp⟩
  | cons tc calls ih =>
    obtain ⟨lb, h⟩ := ih (deliver json ctx m aid p s tc)
    refine ⟨lb, ?_⟩
    rw [List.foldl_cons, h]
    simp [deliver]

theorem addReasoning_pending (aid reasoning : String) (s : FoldState J) (b : String) :
    ((addReasoning aid reasoning s).pending b).toolCalls = (s.pending b).toolCalls := by
  by_cases hb : b = aid
  · subst hb
    simp [addReasoning]
  · simp [addReasoning, hb]

theorem modify_reasoning_card (bubbles : List Bubble) (i : Nat) (reasoning : String) :
    (bubbles.modify i fun lb => { lb with reasoning := joinText lb.reasoning reasoning }).map
      Bubble.card = bubbles.map Bubble.card := by
  refine List.ext_getElem? fun j => ?_
  simp only [List.getElem?_map, List.getElem?_modify]
  cases bubbles[j]? with
  | none => rfl
  | some b =>
    simp only [Option.map_eq_map, Option.map_some]
    split <;> rfl

structure Shipped (s s' : FoldState J) (aid : String) (origins : List Origin)
    (ids : List String) : Prop where
  entries : s'.entries = s.entries
  index : s'.index = s.index
  rootMessage : s'.rootMessage = s.rootMessage
  sends : s'.sendMessageCallIds = s.sendMessageCallIds ++ ids
  cards : s'.cards = s.cards ++ origins.map (·, (s.pending aid).toolCalls)
  pending : ∀ b, (s'.pending b).toolCalls =
    if b = aid ∧ origins ≠ [] then [] else (s.pending b).toolCalls

theorem addReasoning_shipped (aid reasoning : String) (ids : List String) (s : FoldState J) :
    Shipped s { addReasoning aid reasoning s with
      sendMessageCallIds := s.sendMessageCallIds ++ ids } aid [] ids where
  entries := rfl
  index := rfl
  rootMessage := rfl
  sends := rfl
  cards := by simp [FoldState.cards, addReasoning]
  pending b := by simpa using addReasoning_pending aid reasoning s b

theorem foldSends_shipped (m : ThreadMessage J) (aid : String) (decoded : DecodedBody J)
    (s : FoldState J) :
    Shipped s (foldSends json ctx m aid decoded s) aid
      (((decoded.toolCalls.filter fun tc => tc.name = SEND_MESSAGE).filter
        fun tc => tc.id ∉ ctx.failed).map (sendOrigin m aid))
      ((decoded.toolCalls.filter fun tc => tc.name = SEND_MESSAGE).map (·.id)) := by
  unfold foldSends
  generalize decoded.toolCalls.filter (fun tc => tc.name = SEND_MESSAGE) = sendCalls
  by_cases hs : sendCalls = []
  · subst hs
    simp only [List.length_nil, lt_irrefl, if_false, List.filter_nil, List.map_nil]
    have hkeep (r : String) := addReasoning_shipped aid r [] s
    simp only [List.append_nil] at hkeep
    split
    · split
      · rename_i b hb
        split
        · exact ⟨rfl, rfl, rfl, by simp,
            by simpa [FoldState.cards] using modify_reasoning_card s.bubbles b decoded.reasoning,
            by simp⟩
        · exact hkeep decoded.reasoning
      · exact hkeep decoded.reasoning
    · exact ⟨rfl, rfl, rfl, by simp, by simp, by simp⟩
  · simp only [List.length_pos_of_ne_nil hs, if_true]
    generalize sendCalls.filter (fun tc => tc.id ∉ ctx.failed) = deliveredCalls
    by_cases hd : deliveredCalls = []
    · subst hd
      simp only [List.length_nil, lt_irrefl, if_false, List.map_nil]
      split
      · exact addReasoning_shipped aid decoded.reasoning _ s
      · exact ⟨rfl, rfl, rfl, rfl, by simp [FoldState.cards], by simp⟩
    · simp only [List.length_pos_of_ne_nil hd, if_true]
      obtain ⟨lb, hlb⟩ := deliver_foldl json ctx m aid
        { s.pending aid with reasoning := joinText (s.pending aid).reasoning decoded.reasoning }
        deliveredCalls { s with sendMessageCallIds := s.sendMessageCallIds ++ sendCalls.map (·.id) }
      simp only [hlb]
      refine ⟨rfl, rfl, rfl, rfl, ?_, fun b => ?_⟩
      · simp [FoldState.cards, agentBubble_card, Function.comp_def]
      · by_cases hb : b = aid
        · subst hb
          simp [hd, newPending]
        · simp [hb]

end Sends

section Rows

variable (json : Json J) (ctx : Context)

def issue (s : FoldState J) (m : ThreadMessage J) : FoldState J :=
  match agentOf m with
  | some aid => (realCalls m).foldl (addCall aid) s
  | none => s

theorem issue_of_agentOf {s : FoldState J} {m : ThreadMessage J} {aid : String}
    (h : agentOf m = some aid) : issue s m = (realCalls m).foldl (addCall aid) s := by
  rw [issue, h]

def refs (s : FoldState J) (m : ThreadMessage J) : List Nat :=
  match agentOf m with
  | some aid => ((issue s m).pending aid).toolCalls
  | none => []

def posted (s : FoldState J) (m : ThreadMessage J) : FoldState J :=
  match m.sender with
  | .agent _ aid => foldSends json ctx m aid (decodeBody m.body) (issue s m)
  | .system => s
  | .human _ userId => foldHuman ctx m userId s

theorem foldRow_eq (s : FoldState J) (m : ThreadMessage J) :
    foldRow json ctx s m = attachResults (posted json ctx s m) (resultsOf m) := by
  unfold foldRow posted resultsOf
  cases hm : m.sender with
  | human => rfl
  | agent => simp [foldAgent, issue, agentOf, realCalls, issued, hm]
  | system => rfl

def humanRoot (m : ThreadMessage J) : Option RootMessage :=
  match m.sender with
  | .human _ userId => some (rootOf ctx m userId)
  | _ => none

def Context.sent (tc : ToolCallPayload J) : Bool := tc.id ∉ ctx.failed

structure Posted (s : FoldState J) (m : ThreadMessage J) (p : FoldState J) : Prop where
  entries : p.entries = (issue s m).entries
  index : p.index = (issue s m).index
  sends : p.sendMessageCallIds = s.sendMessageCallIds ++ (sendCalls m).map (·.id)
  cards : p.cards = s.cards ++ (rowPosts ctx.sent s.rootMessage.isSome m).map (·, refs s m)
  pending : ∀ b, (p.pending b).toolCalls =
    if agentOf m = some b ∧ delivered ctx.sent m ≠ [] then []
    else ((issue s m).pending b).toolCalls
  rootMessage : p.rootMessage = s.rootMessage.or (humanRoot ctx m)

theorem posted_spec (s : FoldState J) (m : ThreadMessage J) :
    Posted ctx s m (posted json ctx s m) := by
  cases hm : m.sender with
  | system =>
    constructor <;> simp [posted, hm, issue, agentOf, sendCalls, issued, rowPosts, humanRoot]
  | human colleagueId userId =>
    have hp : posted json ctx s m = foldHuman ctx m userId s := by simp [posted, hm]
    have hi : issue s m = s := by simp [issue, agentOf, hm]
    have hr : refs s m = [] := by simp [refs, agentOf, hm]
    rw [hp]
    unfold foldHuman
    cases hroot : s.rootMessage with
    | none => constructor <;> simp [hi, hm, agentOf, sendCalls, issued, rowPosts, hroot,
        FoldState.cards, humanRoot]
    | some root =>
      by_cases hs : speaks m
      · constructor <;> simp [hi, hr, hm, hs, agentOf, sendCalls, issued, rowPosts, hroot,
          FoldState.cards, humanBubble_card]
      · constructor <;> simp [hi, hm, hs, agentOf, sendCalls, issued, rowPosts, hroot]
  | agent colleagueId aid =>
    have ha : agentOf m = some aid := by simp [agentOf, hm]
    have hi : issue s m = (realCalls m).foldl (addCall aid) s := issue_of_agentOf ha
    have h := foldSends_shipped json ctx m aid (decodeBody m.body) (issue s m)
    have hp : posted json ctx s m = foldSends json ctx m aid (decodeBody m.body) (issue s m) := by
      simp [posted, hm]
    have hsend : (decodeBody m.body).toolCalls.filter (fun tc => tc.name = SEND_MESSAGE) =
        sendCalls m := by simp [sendCalls, issued, hm]
    have hdel : (sendCalls m).filter (fun tc => tc.id ∉ ctx.failed) = delivered ctx.sent m := rfl
    rw [hsend, hdel] at h
    rw [hp]
    refine ⟨h.entries, h.index, ?_, ?_, fun b => ?_, ?_⟩
    · rw [h.sends, hi, addCalls_sends]
    · rw [h.cards]
      simp [hi, FoldState.cards, rowPosts, hm, refs, ha]
    · rw [h.pending]
      simp [ha, @eq_comm _ aid b]
    · rw [h.rootMessage, hi, addCalls_rootMessage, humanRoot, hm, Option.or_none]

theorem foldRow_index (s : FoldState J) (m : ThreadMessage J) :
    (foldRow json ctx s m).index = (issue s m).index := by
  rw [foldRow_eq, attachResults_index, (posted_spec json ctx s m).index]

theorem foldRow_sends (s : FoldState J) (m : ThreadMessage J) :
    (foldRow json ctx s m).sendMessageCallIds =
      s.sendMessageCallIds ++ (sendCalls m).map (·.id) := by
  rw [foldRow_eq, attachResults_sends, (posted_spec json ctx s m).sends]

theorem foldRow_rootMessage (s : FoldState J) (m : ThreadMessage J) :
    (foldRow json ctx s m).rootMessage = s.rootMessage.or (humanRoot ctx m) := by
  rw [foldRow_eq, attachResults_rootMessage, (posted_spec json ctx s m).rootMessage]

theorem foldRow_cards (s : FoldState J) (m : ThreadMessage J) :
    (foldRow json ctx s m).cards =
      s.cards ++ (rowPosts ctx.sent s.rootMessage.isSome m).map (·, refs s m) := by
  rw [← (posted_spec json ctx s m).cards, foldRow_eq, FoldState.cards, attachResults_bubbles]
  rfl

theorem foldRow_pending (s : FoldState J) (m : ThreadMessage J) (b : String) :
    ((foldRow json ctx s m).pending b).toolCalls =
      if agentOf m = some b ∧ delivered ctx.sent m ≠ [] then []
      else ((issue s m).pending b).toolCalls := by
  rw [foldRow_eq, attachResults_pending, (posted_spec json ctx s m).pending]

theorem issue_entries (s : FoldState J) (m : ThreadMessage J) :
    (issue s m).entries = s.entries ++ (realCalls m).map (answered · none) := by
  unfold issue
  split
  · exact addCalls_entries _ _ _
  · rename_i h
    simp [realCalls_of_agentOf_none h]

theorem issue_index_of_not_mem {s : FoldState J} {m : ThreadMessage J} {id : String}
    (h : id ∉ (realCalls m).map (·.id)) : (issue s m).index id = s.index id := by
  unfold issue
  split
  · exact addCalls_index_of_not_mem _ _ _ h
  · rfl

theorem issue_index_of_mem {s : FoldState J} {m : ThreadMessage J} {id : String}
    (h : id ∈ (realCalls m).map (·.id)) :
    ∃ k, ((realCalls m)[k]?).map (·.id) = some id ∧
      (issue s m).index id = some (s.entries.length + k) := by
  unfold issue
  split
  · exact addCalls_index_of_mem _ _ s h
  · rename_i ha
    simp [realCalls_of_agentOf_none ha] at h

theorem foldRow_calls (s : FoldState J) (m : ThreadMessage J) :
    (foldRow json ctx s m).entries.map ToolCallEntry.call =
      s.entries.map ToolCallEntry.call ++ realCalls m := by
  rw [foldRow_eq, attachResults_calls, (posted_spec json ctx s m).entries, issue_entries]
  simp [Function.comp_def]

theorem foldRow_length (s : FoldState J) (m : ThreadMessage J) :
    (foldRow json ctx s m).entries.length = s.entries.length + (realCalls m).length := by
  simpa using congrArg List.length (foldRow_calls json ctx s m)

end Rows

end Patom.Web
