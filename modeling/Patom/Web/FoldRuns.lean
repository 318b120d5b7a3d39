import Patom.Web.FoldLaws

namespace Patom.Web

variable {J : Type}

section Bubbles

variable (json : Json J) (ctx : Context)

theorem foldRows_calls (rows : List (ThreadMessage J)) (s : FoldState J) :
    (rows.foldl (foldRow json ctx) s).entries.map ToolCallEntry.call =
      s.entries.map ToolCallEntry.call ++ rows.flatMap realCalls := by
  induction rows generalizing s with
  | nil => simp
  | cons m rows ih => simp [ih, foldRow_calls]

theorem foldRows_length (rows : List (ThreadMessage J)) (s : FoldState J) :
    (rows.foldl (foldRow json ctx) s).entries.length =
      s.entries.length + (rows.flatMap realCalls).length := by
  simpa only [List.length_map, List.length_append] using
    congrArg List.length (foldRows_calls json ctx rows s)

theorem foldRows_sends (rows : List (ThreadMessage J)) (s : FoldState J) :
    (rows.foldl (foldRow json ctx) s).sendMessageCallIds =
      s.sendMessageCallIds ++ rows.flatMap fun m => (sendCalls m).map (·.id) := by
  induction rows generalizing s with
  | nil => simp
  | cons m rows ih => simp [ih, foldRow_sends]

theorem humanRoot_isSome (m : ThreadMessage J) : (humanRoot ctx m).isSome = isHuman m := by
  unfold humanRoot isHuman
  cases m.sender <;> rfl

theorem foldRows_origins (rows : List (ThreadMessage J)) (s : FoldState J) :
    (rows.foldl (foldRow json ctx) s).cards.map Prod.fst =
      s.cards.map Prod.fst ++ posts ctx.sent s.rootMessage.isSome rows := by
  induction rows generalizing s with
  | nil => simp [posts]
  | cons m rows ih =>
    rw [List.foldl_cons, ih, foldRow_cards, foldRow_rootMessage, Option.isSome_or, humanRoot_isSome]
    simp [posts, Function.comp_def]

theorem foldRows_rootMessage (rows : List (ThreadMessage J)) (s : FoldState J) :
    (rows.foldl (foldRow json ctx) s).rootMessage =
      s.rootMessage.or (rows.findSome? (humanRoot ctx)) := by
  induction rows generalizing s with
  | nil => simp
  | cons m rows ih =>
    rw [List.foldl_cons, ih, foldRow_rootMessage, Option.or_assoc, List.findSome?_cons]
    cases humanRoot ctx m <;> rfl

end Bubbles

section Holders

def held (cards : List (Origin × List Nat)) (n : Nat) : List Origin :=
  cards.flatMap fun c => List.replicate (c.2.count n) c.1

def waiting (s : FoldState J) (n : Nat) (aid : String) : Nat := (s.pending aid).toolCalls.count n

theorem issue_waiting (s : FoldState J) (m : ThreadMessage J) (n : Nat) (b : String) :
    waiting (issue s m) n b = waiting s n b +
      if agentOf m = some b ∧ s.entries.length ≤ n ∧ n < s.entries.length + (realCalls m).length
      then 1 else 0 := by
  unfold issue
  cases ha : agentOf m with
  | none => simp
  | some aid =>
    simp only [waiting, addCalls_pending, List.count_append]
    by_cases hb : b = aid
    · subst hb
      rw [if_pos rfl, List.Nodup.count List.nodup_range']
      simp [List.mem_range'_1]
    · have hb' : aid ≠ b := fun h => hb h.symm
      simp [hb, hb']

variable (json : Json J) (ctx : Context)

theorem foldRow_waiting (s : FoldState J) (m : ThreadMessage J) (n : Nat) (b : String) :
    waiting (foldRow json ctx s m) n b =
      if agentOf m = some b ∧ delivered ctx.sent m ≠ [] then 0 else waiting (issue s m) n b := by
  unfold waiting
  rw [foldRow_pending]
  split <;> rfl

theorem foldRow_held (s : FoldState J) (m : ThreadMessage J) (n : Nat) :
    held (foldRow json ctx s m).cards n = held s.cards n ++
      (rowPosts ctx.sent s.rootMessage.isSome m).flatMap
        (List.replicate ((refs s m).count n)) := by
  simp [foldRow_cards, held, List.flatMap_map]

theorem rowPosts_of_agentOf {m : ThreadMessage J} {aid : String} (h : agentOf m = some aid)
    (sent : ToolCallPayload J → Bool) (rooted : Bool) :
    rowPosts sent rooted m = (delivered sent m).map (sendOrigin m aid) := by
  unfold agentOf at h
  split at h
  · rename_i hm
    obtain rfl := Option.some.inj h
    simp [rowPosts, hm]
  · cases h

def Settled (s : FoldState J) (n : Nat) : Prop := ∀ b, waiting s n b = 0

def Owned (s : FoldState J) (n : Nat) (aid : String) : Prop :=
  ∀ b, waiting s n b = if b = aid then 1 else 0

theorem foldRow_held_of_agentOf {s : FoldState J} {m : ThreadMessage J} {aid : String} {n : Nat}
    (h : agentOf m = some aid) :
    held (foldRow json ctx s m).cards n = held s.cards n ++
      ((delivered ctx.sent m).map (sendOrigin m aid)).flatMap
        (List.replicate (waiting (issue s m) n aid)) := by
  rw [foldRow_held, rowPosts_of_agentOf h]
  simp [refs, h, waiting]

theorem foldRow_held_of_agentOf_none {s : FoldState J} {m : ThreadMessage J} {n : Nat}
    (h : agentOf m = none) : held (foldRow json ctx s m).cards n = held s.cards n := by
  rw [foldRow_held]
  simp [refs, h]

theorem foldRow_settled {s : FoldState J} {m : ThreadMessage J} {n : Nat}
    (h : Settled (issue s m) n) :
    Settled (foldRow json ctx s m) n ∧ held (foldRow json ctx s m).cards n = held s.cards n := by
  constructor
  · intro b
    rw [foldRow_waiting, h b, ite_self]
  · cases ha : agentOf m with
    | none => exact foldRow_held_of_agentOf_none json ctx ha
    | some aid =>
      rw [foldRow_held_of_agentOf json ctx ha, h aid]
      simp

theorem issue_settled {s : FoldState J} {m : ThreadMessage J} {n : Nat} (h : Settled s n)
    (hn : n < s.entries.length ∨ s.entries.length + (realCalls m).length ≤ n) :
    Settled (issue s m) n := by
  intro b
  rw [issue_waiting, h b, if_neg (by omega)]

theorem settled_run (rows : List (ThreadMessage J)) {s : FoldState J} {n : Nat} (h : Settled s n)
    (hn : n < s.entries.length) :
    held (rows.foldl (foldRow json ctx) s).cards n = held s.cards n := by
  induction rows generalizing s with
  | nil => rfl
  | cons m rows ih =>
    have hrow := foldRow_settled json ctx (issue_settled (m := m) h (.inl hn))
    rw [List.foldl_cons, ih hrow.1 (by rw [foldRow_length]; omega), hrow.2]

theorem unseen_run (rows : List (ThreadMessage J)) {s : FoldState J} {n : Nat} (h : Settled s n)
    (hn : s.entries.length + (rows.flatMap realCalls).length ≤ n) :
    Settled (rows.foldl (foldRow json ctx) s) n ∧
      held (rows.foldl (foldRow json ctx) s).cards n = held s.cards n := by
  induction rows generalizing s with
  | nil => exact ⟨h, rfl⟩
  | cons m rows ih =>
    simp only [List.flatMap_cons, List.length_append] at hn
    have hrow := foldRow_settled json ctx (issue_settled (m := m) h (.inr (by omega)))
    obtain ⟨hs, hheld⟩ := ih hrow.1 (by rw [foldRow_length]; omega)
    exact ⟨hs, hheld.trans hrow.2⟩

theorem foldRow_owned_ships {s : FoldState J} {m : ThreadMessage J} {n : Nat} {aid : String}
    (h : Owned (issue s m) n aid) (hd : agentOf m = some aid ∧ delivered ctx.sent m ≠ []) :
    Settled (foldRow json ctx s m) n ∧ held (foldRow json ctx s m).cards n =
      held s.cards n ++ (delivered ctx.sent m).map (sendOrigin m aid) := by
  constructor
  · intro b
    rw [foldRow_waiting, h b]
    by_cases hb : b = aid
    · rw [if_pos (hb ▸ hd)]
    · rw [if_neg hb, ite_self]
  · have hone : List.replicate (α := Origin) 1 = fun o => [o] := rfl
    rw [foldRow_held_of_agentOf json ctx hd.1, h aid, if_pos rfl, hone, List.flatMap_singleton']

theorem foldRow_owned_waits {s : FoldState J} {m : ThreadMessage J} {n : Nat} {aid : String}
    (h : Owned (issue s m) n aid) (hd : ¬ (agentOf m = some aid ∧ delivered ctx.sent m ≠ [])) :
    Owned (foldRow json ctx s m) n aid ∧ held (foldRow json ctx s m).cards n = held s.cards n := by
  constructor
  · intro b
    rw [foldRow_waiting, h b]
    by_cases hb : b = aid
    · rw [if_neg (hb ▸ hd)]
    · rw [if_neg hb, ite_self]
  · cases ha : agentOf m with
    | none => exact foldRow_held_of_agentOf_none json ctx ha
    | some b =>
      rw [foldRow_held_of_agentOf json ctx ha, h b]
      by_cases hb : b = aid
      · have hnil : delivered ctx.sent m = [] := by simpa [ha, hb] using hd
        simp [hnil]
      · simp [hb]

theorem issue_owned {s : FoldState J} {m : ThreadMessage J} {n : Nat} {aid : String}
    (h : Owned s n aid) (hn : n < s.entries.length) : Owned (issue s m) n aid := by
  intro b
  have hold : ¬ s.entries.length ≤ n := by omega
  simp [issue_waiting, h b, hold]

theorem owned_run (rows : List (ThreadMessage J)) {m : ThreadMessage J} {s : FoldState J} {n : Nat}
    {aid : String} (h : Owned (issue s m) n aid) (hn : n < (issue s m).entries.length) :
    held ((m :: rows).foldl (foldRow json ctx) s).cards n =
      held s.cards n ++ delivery ctx.sent aid (m :: rows) := by
  induction rows generalizing m s with
  | nil =>
    by_cases hd : agentOf m = some aid ∧ delivered ctx.sent m ≠ []
    · simpa [delivery, hd] using (foldRow_owned_ships json ctx h hd).2
    · simpa [delivery, hd] using (foldRow_owned_waits json ctx h hd).2
  | cons m' rows ih =>
    have hlen : n < (foldRow json ctx s m).entries.length := by
      rwa [foldRow_length, ← List.length_map (answered · none), ← List.length_append,
        ← issue_entries]
    rw [List.foldl_cons, delivery]
    by_cases hd : agentOf m = some aid ∧ delivered ctx.sent m ≠ []
    · obtain ⟨hs, hheld⟩ := foldRow_owned_ships json ctx h hd
      rw [settled_run json ctx _ hs hlen, hheld, if_pos hd]
    · obtain ⟨ho, hheld⟩ := foldRow_owned_waits json ctx h hd
      have hmore : n < (issue (foldRow json ctx s m) m').entries.length := by
        rw [issue_entries, List.length_append]
        omega
      rw [ih (issue_owned ho hlen) hmore, hheld, if_neg hd]

end Holders

section Outcomes

def Coherent (s : FoldState J) : Prop :=
  ∀ id ref, s.index id = some ref → (s.entries[ref]?).map (·.callId) = some id

theorem coherent_init : Coherent (FoldState.init : FoldState J) := by
  intro id ref h
  cases h

theorem Coherent.of_calls {s s' : FoldState J} (h : Coherent s) (hi : s'.index = s.index)
    (he : s'.entries.map ToolCallEntry.call = s.entries.map ToolCallEntry.call) : Coherent s' := by
  intro id ref href
  have hcalls (t : FoldState J) : (t.entries[ref]?).map (·.callId) =
      ((t.entries.map ToolCallEntry.call)[ref]?).map (·.id) := by
    simp [ToolCallEntry.call, Function.comp_def]
  rw [hcalls, he, ← hcalls]
  exact h id ref (hi ▸ href)

theorem coherent_issue {s : FoldState J} (h : Coherent s) (m : ThreadMessage J) :
    Coherent (issue s m) := by
  intro id ref href
  rw [issue_entries]
  by_cases hid : id ∈ (realCalls m).map (·.id)
  · obtain ⟨k, hk, hidx⟩ := issue_index_of_mem (s := s) hid
    obtain rfl := Option.some.inj (hidx.symm.trans href)
    rw [List.getElem?_append_right (by omega)]
    simpa [Function.comp_def] using hk
  · rw [issue_index_of_not_mem hid] at href
    have hold := h id ref href
    have hlt : ref < s.entries.length := by
      by_contra hge
      rw [List.getElem?_eq_none (by omega)] at hold
      cases hold
    rwa [List.getElem?_append_left hlt]

variable (json : Json J) (ctx : Context)

theorem coherent_posted {s : FoldState J} (h : Coherent s) (m : ThreadMessage J) :
    Coherent (posted json ctx s m) :=
  (coherent_issue h m).of_calls (posted_spec json ctx s m).index
    (by rw [(posted_spec json ctx s m).entries])

theorem coherent_attachResults {s : FoldState J} (h : Coherent s)
    (results : List ToolResultPayload) : Coherent (attachResults s results) :=
  h.of_calls (attachResults_index _ _) (attachResults_calls _ _)

theorem coherent_foldRow {s : FoldState J} (h : Coherent s) (m : ThreadMessage J) :
    Coherent (foldRow json ctx s m) := by
  rw [foldRow_eq]
  exact coherent_attachResults (coherent_posted json ctx h m) _

theorem coherent_run (rows : List (ThreadMessage J)) {s : FoldState J} (h : Coherent s) :
    Coherent (rows.foldl (foldRow json ctx) s) := by
  induction rows generalizing s with
  | nil => exact h
  | cons m rows ih => exact ih (coherent_foldRow json ctx h m)

def Closed (s : FoldState J) (id : String) (n : Nat) : Prop :=
  s.index id = some n → id ∈ s.sendMessageCallIds

theorem attachResults_closed (results : List ToolResultPayload) {s : FoldState J} (hs : Coherent s)
    {n : Nat} {e : ToolCallEntry J} (he : s.entries[n]? = some e) (hc : Closed s e.callId n) :
    (attachResults s results).entries[n]? = some e := by
  induction results generalizing s with
  | nil => exact he
  | cons tr results ih =>
    have hkeep : (attach s tr).entries[n]? = s.entries[n]? := by
      refine attach_getElem?_of_ne fun hn => ?_
      have hid : e.callId = tr.callId := by simpa [he] using hs _ _ hn
      exact hid ▸ hc (hid ▸ hn)
    exact ih (coherent_attachResults hs [tr]) (hkeep.trans he)
      (by rwa [Closed, attach_frame])

theorem attachResults_open (results : List ToolResultPayload) {s : FoldState J} (hs : Coherent s)
    {n : Nat} {tc : ToolCallPayload J} {out : Option ToolResultPayload}
    (he : s.entries[n]? = some (answered tc out)) (hn : s.index tc.id = some n)
    (hsend : tc.id ∉ s.sendMessageCallIds) :
    (attachResults s results).entries[n]? =
      some (answered tc ((results.filter (·.callId = tc.id)).getLast?.or out)) := by
  induction results generalizing s out with
  | nil => simpa [attachResults] using he
  | cons tr results ih =>
    have hn' : (attach s tr).index tc.id = some n := by rwa [attach_frame]
    have hsend' : tc.id ∉ (attach s tr).sendMessageCallIds := by rwa [attach_frame]
    by_cases ht : tr.callId = tc.id
    · have hrest := ih (coherent_attachResults hs [tr]) (attach_getElem?_self he hn hsend ht)
        hn' hsend'
      have hlast : (((tr :: results).filter (·.callId = tc.id)).getLast?).or out =
          ((results.filter (·.callId = tc.id)).getLast?).or (some tr) := by
        rw [List.filter_cons_of_pos (by simpa using ht), List.getLast?_cons]
        cases (results.filter (·.callId = tc.id)).getLast? <;> rfl
      rw [hlast]
      exact hrest
    · have hkeep : (attach s tr).entries[n]? = s.entries[n]? := by
        refine attach_getElem?_of_ne fun h => ?_
        have hid : tc.id = tr.callId := by simpa [he] using hs _ _ h
        exact absurd hid.symm ht
      rw [List.filter_cons_of_neg (by simpa using ht)]
      exact ih (coherent_attachResults hs [tr]) (hkeep.trans he) hn' hsend'

def ownFrom (id : String) : List (ThreadMessage J) → List ToolResultPayload
  | [] => []
  | m :: rest =>
    if id ∈ (issued m).map (·.id) then []
    else (resultsOf m).filter (·.callId = id) ++ ownFrom id rest

theorem mem_issued_of_mem_realCalls {id : String} {m : ThreadMessage J}
    (h : id ∈ (realCalls m).map (·.id)) : id ∈ (issued m).map (·.id) :=
  (List.filter_sublist.map _).subset h

theorem mem_issued_of_mem_sendCalls {id : String} {m : ThreadMessage J}
    (h : id ∈ (sendCalls m).map (·.id)) : id ∈ (issued m).map (·.id) :=
  (List.filter_sublist.map _).subset h

theorem mem_calls_of_mem_issued {id : String} {m : ThreadMessage J}
    (h : id ∈ (issued m).map (·.id)) :
    id ∈ (realCalls m).map (·.id) ∨ id ∈ (sendCalls m).map (·.id) := by
  obtain ⟨tc, htc, rfl⟩ := List.mem_map.1 h
  by_cases hname : tc.name = SEND_MESSAGE
  · exact .inr (List.mem_map_of_mem (List.mem_filter.2 ⟨htc, by simpa using hname⟩))
  · exact .inl (List.mem_map_of_mem (List.mem_filter.2 ⟨htc, by simpa using hname⟩))

theorem foldRow_entry {s : FoldState J} {m : ThreadMessage J} {n : Nat} {tc : ToolCallPayload J}
    {out : Option ToolResultPayload} (hs : Coherent s)
    (he : (issue s m).entries[n]? = some (answered tc out)) :
    (Closed (foldRow json ctx s m) tc.id n →
      (foldRow json ctx s m).entries[n]? = some (answered tc out)) ∧
    ((issue s m).index tc.id = some n → ¬ Closed (foldRow json ctx s m) tc.id n →
      (foldRow json ctx s m).entries[n]? = some (answered tc
        ((((resultsOf m).filter (·.callId = tc.id)).getLast?).or out))) := by
  have hp := posted_spec json ctx s m
  have hcoh := coherent_posted json ctx hs m
  rw [← hp.entries] at he
  simp only [Closed, foldRow_eq, attachResults_index, attachResults_sends]
  constructor
  · intro hc
    exact attachResults_closed _ hcoh he (by simpa [Closed] using hc)
  · intro hn hc
    refine attachResults_open _ hcoh he (hp.index ▸ hn) fun hsend => hc fun _ => hsend

theorem closed_run (rows : List (ThreadMessage J)) {s : FoldState J} (hs : Coherent s) {n : Nat}
    {tc : ToolCallPayload J} {out : Option ToolResultPayload}
    (he : s.entries[n]? = some (answered tc out)) (hc : Closed s tc.id n) :
    (rows.foldl (foldRow json ctx) s).entries[n]? = some (answered tc out) := by
  induction rows generalizing s with
  | nil => exact he
  | cons m rows ih =>
    have hlt : n < s.entries.length := (List.getElem?_eq_some_iff.1 he).1
    have hissue : (issue s m).entries[n]? = some (answered tc out) := by
      rw [issue_entries, List.getElem?_append_left hlt, he]
    have hclosed : Closed (foldRow json ctx s m) tc.id n := by
      intro hn
      rw [foldRow_index] at hn
      rw [foldRow_sends, List.mem_append]
      refine .inl (hc ?_)
      by_cases hreal : tc.id ∈ (realCalls m).map (·.id)
      · obtain ⟨k, -, hk⟩ := issue_index_of_mem (s := s) hreal
        have hnk := Option.some.inj (hk.symm.trans hn)
        omega
      · rwa [issue_index_of_not_mem hreal] at hn
    exact ih (coherent_foldRow json ctx hs m) ((foldRow_entry json ctx hs hissue).1 hclosed) hclosed

theorem open_run (rows : List (ThreadMessage J)) {s : FoldState J} (hs : Coherent s) {n : Nat}
    {tc : ToolCallPayload J} {out : Option ToolResultPayload}
    (he : s.entries[n]? = some (answered tc out)) (hn : s.index tc.id = some n)
    (hsend : tc.id ∉ s.sendMessageCallIds) :
    (rows.foldl (foldRow json ctx) s).entries[n]? =
      some (answered tc ((ownFrom tc.id rows).getLast?.or out)) := by
  induction rows generalizing s out with
  | nil => simpa [ownFrom] using he
  | cons m rows ih =>
    have hlt : n < s.entries.length := (List.getElem?_eq_some_iff.1 he).1
    have hissue : (issue s m).entries[n]? = some (answered tc out) := by
      rw [issue_entries, List.getElem?_append_left hlt, he]
    have hcoh := coherent_foldRow json ctx hs m
    have hrow := foldRow_entry json ctx hs hissue
    rw [List.foldl_cons, ownFrom]
    by_cases hid : tc.id ∈ (issued m).map (·.id)
    · have hclosed : Closed (foldRow json ctx s m) tc.id n := by
        intro h
        rw [foldRow_index] at h
        rw [foldRow_sends, List.mem_append]
        refine .inr ((mem_calls_of_mem_issued hid).resolve_left fun hreal => ?_)
        obtain ⟨k, -, hk⟩ := issue_index_of_mem (s := s) hreal
        have hnk := Option.some.inj (hk.symm.trans h)
        omega
      rw [if_pos hid, closed_run json ctx rows hcoh (hrow.1 hclosed) hclosed]
      rfl
    · have hidx : (issue s m).index tc.id = some n := by
        rw [issue_index_of_not_mem fun h => hid (mem_issued_of_mem_realCalls h), hn]
      have hsend' : tc.id ∉ (foldRow json ctx s m).sendMessageCallIds := by
        rw [foldRow_sends, List.mem_append]
        exact fun h => h.elim hsend fun h => hid (mem_issued_of_mem_sendCalls h)
      have hidx' : (foldRow json ctx s m).index tc.id = some n := by rw [foldRow_index, hidx]
      rw [if_neg hid, ih hcoh (hrow.2 hidx fun h => hsend' (h hidx')) hidx' hsend',
        List.getLast?_append, Option.or_assoc]

end Outcomes

end Patom.Web
