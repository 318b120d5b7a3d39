import Patom.AgentCore.Watermark

open Patom.Foundation
open Patom.Provider
open Patom.Threads

namespace Patom.AgentCore

def cutAtToolSafeBoundary (tail : List ChatMessage) (targetKeep : Nat) :
    List ChatMessage × List ChatMessage :=
  let cut := toolSafeCutIndex tail targetKeep
  (tail.take cut, tail.drop cut)

def Adjacent (tail : List ChatMessage) : Prop :=
  ∀ i r id, tail[i]? = some r → toolResultHead r = some id →
    ∃ j p, i = j + 1 ∧ tail[j]? = some p ∧ id ∈ callIds p

section Cut

variable {tail : List ChatMessage} {targetKeep : Nat}

theorem toolSafeCutIndex_bounds (tail : List ChatMessage) (targetKeep : Nat) :
    tail.length - targetKeep - 1 ≤ toolSafeCutIndex tail targetKeep ∧
    toolSafeCutIndex tail targetKeep ≤ tail.length - targetKeep := by
  simp only [toolSafeCutIndex]
  split
  · exact ⟨Nat.le_refl _, Nat.sub_le _ _⟩
  · exact ⟨Nat.sub_le _ _, Nat.le_refl _⟩

theorem toolResultHead_of_cut (h : Adjacent tail) (hpos : 0 < toolSafeCutIndex tail targetKeep)
    {r : ChatMessage} (hr : tail[toolSafeCutIndex tail targetKeep]? = some r) :
    toolResultHead r = none := by
  cases hhead : toolResultHead r with
  | none => rfl
  | some id =>
    obtain ⟨j, p, hj, hp, hid⟩ := h _ r id hr hhead
    have hlt := (List.getElem?_eq_some_iff.mp hr).1
    have hsafe := toolSafeCutIndex_safe tail targetKeep hpos hlt
    rw [splitsPair, hr, hj, Nat.add_sub_cancel, hp, Option.bind_some, hhead] at hsafe
    simp [assistantCalls, hid] at hsafe

/-- The two sides are the tail, no call at the end of one is answered at the head of the other, and
at most one row more is kept than was to be. -/
theorem cutAtToolSafeBoundary_safe (h : Adjacent tail) (targetKeep : Nat) :
    (cutAtToolSafeBoundary tail targetKeep).1 ++ (cutAtToolSafeBoundary tail targetKeep).2 = tail ∧
    (∀ p r, (cutAtToolSafeBoundary tail targetKeep).1.getLast? = some p →
      (cutAtToolSafeBoundary tail targetKeep).2.head? = some r → (toolResultHead r).isSome →
      ∀ id ∈ resultIds r, id ∉ callIds p) ∧
    min targetKeep tail.length ≤ (cutAtToolSafeBoundary tail targetKeep).2.length ∧
    (cutAtToolSafeBoundary tail targetKeep).2.length ≤ targetKeep + 1 := by
  obtain ⟨hlow, hhigh⟩ := toolSafeCutIndex_bounds tail targetKeep
  refine ⟨List.take_append_drop _ _, fun p r hp hr hresult => ?_, ?_, ?_⟩
  · have hpos : 0 < toolSafeCutIndex tail targetKeep := by
      refine Nat.pos_of_ne_zero fun hzero => ?_
      rw [cutAtToolSafeBoundary, hzero] at hp
      cases hp
    rw [cutAtToolSafeBoundary, List.head?_drop] at hr
    rw [toolResultHead_of_cut h hpos hr] at hresult
    cases hresult
  · simp only [cutAtToolSafeBoundary, List.length_drop]
    omega
  · simp only [cutAtToolSafeBoundary, List.length_drop]
    omega

end Cut

theorem cutAtToolSafeBoundary_safe_pair :
    let call : ToolCall := ⟨⟨"a", by decide, by decide⟩,
      ⟨"search", by decide, by decide, by decide⟩, "{}"⟩
    let tail : List ChatMessage :=
      [.assistant [.toolCall call], .user [.toolResult ⟨call.id, "found", false⟩]]
    (cutAtToolSafeBoundary tail 1).2.length = 2 ∧
    (cutAtToolSafeBoundary tail 1).2.length ≤ 1 + 1 := by
  intro call tail
  have hadjacent : Adjacent tail := by
    intro i r id hr hid
    rcases i with _ | _ | i
    · cases hr
      cases hid
    · cases hr
      cases hid
      exact ⟨0, _, rfl, rfl, by decide⟩
    · cases hr
  exact ⟨by decide, (cutAtToolSafeBoundary_safe hadjacent 1).2.2.2⟩

theorem of_splitsPair {tail : List ChatMessage} {cut : Nat} (h : splitsPair tail cut) :
    ∃ p r id, tail[cut - 1]? = some p ∧ tail[cut]? = some r ∧ toolResultHead r = some id ∧
      id ∈ callIds p := by
  simp only [splitsPair] at h
  split at h
  case h_1 id p hhead hp =>
    obtain ⟨r, hr, hid⟩ := Option.bind_eq_some_iff.mp hhead
    exact ⟨p, r, id, hp, hr, hid, by simpa [assistantCalls] using h⟩
  case h_2 => cases h

theorem saturate_le (n : Nat) : saturate n ≤ U32_MAX := Nat.min_le_right _ _

theorem saturate_mono {m n : Nat} (h : m ≤ n) : saturate m ≤ saturate n :=
  min_le_min_right _ h

section Keep

variable {keepBudget : Nat}

theorem le_keepFrom (acc count : Nat) (rows : List TailRow) :
    count ≤ keepFrom keepBudget acc count rows := by
  induction rows generalizing acc count with
  | nil => exact Nat.le_refl count
  | cons row rows ih =>
    rw [keepFrom]
    split
    · exact Nat.le_refl count
    · exact Nat.le_of_succ_le (ih _ _)

theorem keepFrom_pos {rows : List TailRow} (hne : rows ≠ []) : 0 < keepFrom keepBudget 0 0 rows := by
  cases rows with
  | nil => exact absurd rfl hne
  | cons row rows =>
    rw [keepFrom, if_neg fun h => absurd h.2.1 (by decide)]
    exact le_keepFrom _ 1 rows

theorem keepFrom_append {acc count : Nat} {rows : List TailRow} (rest : List TailRow)
    (h : keepFrom keepBudget acc count rows = count + rows.length) :
    count + rows.length ≤ keepFrom keepBudget acc count (rows ++ rest) := by
  induction rows generalizing acc count with
  | nil => exact le_keepFrom _ _ _
  | cons row rows ih =>
    simp only [keepFrom, List.length_cons] at h
    split at h
    · omega
    case isFalse hgo =>
      have := ih (h.trans (by omega))
      rw [List.cons_append, keepFrom, if_neg hgo, List.length_cons]
      omega

theorem keepFrom_take {acc count n : Nat} {rows : List TailRow}
    (h : keepFrom keepBudget acc count rows = count + n) :
    keepFrom keepBudget acc count (rows.take n) = count + (rows.take n).length := by
  induction rows generalizing acc count n with
  | nil => simp [keepFrom]
  | cons row rows ih =>
    cases n with
    | zero => simp [keepFrom]
    | succ n =>
      simp only [keepFrom] at h
      split at h
      · omega
      case isFalse hgo =>
        have := ih (n := n) (h.trans (by omega))
        rw [List.take_succ_cons, keepFrom, if_neg hgo, this, List.length_cons]
        omega

theorem keepFrom_sublist {acc acc' count count' : Nat} {rows rows' : List TailRow}
    (hsub : rows'.Sublist rows) (hacc : acc' ≤ acc) (hmax : acc ≤ U32_MAX) (hcount : count' ≤ count)
    (h : keepFrom keepBudget acc count rows = count + rows.length) :
    keepFrom keepBudget acc' count' rows' = count' + rows'.length := by
  induction hsub generalizing acc acc' count count' with
  | slnil => rfl
  | @cons rows' rows row _ ih =>
    simp only [keepFrom, List.length_cons] at h
    split at h
    · omega
    · refine ih ?_ (saturate_le _) (Nat.le_succ_of_le hcount) (h.trans (by omega))
      exact Nat.le_min.mpr ⟨by omega, by omega⟩
  | @cons_cons rows' rows row _ ih =>
    simp only [keepFrom, List.length_cons] at h ⊢
    have hmono : saturate (acc' + messageTokens row.message) ≤
        saturate (acc + messageTokens row.message) :=
      saturate_mono (Nat.add_le_add_right hacc _)
    split at h
    · omega
    case isFalse hgo =>
      rw [if_neg fun hstop => hgo ⟨by omega, by omega, fun hrescue =>
        hstop.2.2 ⟨hrescue.1, by omega⟩⟩]
      exact (ih hmono (saturate_le _) (by omega) (h.trans (by omega))).trans (by omega)

theorem keepFrom_kept {rows rows' : List TailRow} (hne : rows ≠ [])
    (hsub : rows'.Sublist (rows.drop (rows.length - keepCount rows keepBudget))) :
    keepFrom keepBudget 0 0 rows'.reverse = rows'.length := by
  have hcount : keepFrom keepBudget 0 0 rows.reverse = keepCount rows keepBudget := by
    have hle := keepFrom_le keepBudget 0 0 rows.reverse
    have hpos : 0 < keepFrom keepBudget 0 0 rows.reverse :=
      keepFrom_pos (List.reverse_ne_nil_iff.mpr hne)
    rw [List.length_reverse] at hle
    rw [keepCount]
    omega
  have htake := keepFrom_take (n := keepCount rows keepBudget) (hcount.trans (Nat.zero_add _).symm)
  rw [List.take_reverse] at htake
  have hrev := List.reverse_sublist.mpr hsub
  simpa using keepFrom_sublist hrev (Nat.le_refl 0) (Nat.zero_le _) (Nat.le_refl 0) htake

theorem cutIndex_of_kept {rows : List TailRow}
    (h : keepFrom keepBudget 0 0 rows.reverse = rows.length) : cutIndex rows keepBudget = 0 := by
  have hcut : (messagesOf rows).length - keepCount rows keepBudget = 0 := by
    rw [messagesOf, List.length_map, keepCount, h]
    omega
  rw [cutIndex, toolSafeCutIndex, hcut]
  exact if_neg fun hpos => absurd hpos.1 (by decide)

theorem cutIndex_of_pair {u c : TailRow} {rest : List TailRow} {id : ToolCallId}
    (hhead : toolResultHead c.message = some id) (hid : id ∈ callIds u.message)
    (h : keepFrom keepBudget 0 0 (c :: rest).reverse = (c :: rest).length) :
    cutIndex (u :: c :: rest) keepBudget = 0 := by
  have hle := keepFrom_le keepBudget 0 0 (u :: c :: rest).reverse
  have hge := keepFrom_append [u] (h.trans (by simp))
  rw [← List.reverse_cons] at hge
  have hcut : (messagesOf (u :: c :: rest)).length - keepCount (u :: c :: rest) keepBudget ≤ 1 := by
    simp only [messagesOf, List.length_map, keepCount, List.length_cons, List.length_reverse] at hge ⊢
    omega
  have hsplits : splitsPair (messagesOf (u :: c :: rest)) 1 = true := by
    simp [splitsPair, messagesOf, hhead, assistantCalls, hid]
  rw [cutIndex, toolSafeCutIndex]
  generalize (messagesOf (u :: c :: rest)).length - keepCount (u :: c :: rest) keepBudget = cut at hcut
  obtain rfl | rfl : cut = 0 ∨ cut = 1 := by omega
  · exact if_neg fun hpos => absurd hpos.1 (by decide)
  · exact if_pos ⟨by decide, by simp [messagesOf], hsplits⟩

theorem cutIndex_settles {rows rows' : List TailRow} (hne : rows ≠ []) (hnodup : rows.Nodup)
    (hsub : rows'.Sublist (rows.drop (cutIndex rows keepBudget)))
    (hpair : ∀ (i : Nat) (u c : TailRow) (id : ToolCallId), rows[i]? = some u →
      rows[i + 1]? = some c → toolResultHead c.message = some id → id ∈ callIds u.message →
      u ∈ rows' → c ∈ rows') : cutIndex rows' keepBudget = 0 := by
  have hlen : (messagesOf rows).length = rows.length := by simp [messagesOf]
  rw [cutIndex, toolSafeCutIndex, hlen] at hsub
  split at hsub
  case isFalse => exact cutIndex_of_kept (keepFrom_kept hne hsub)
  case isTrue h =>
    obtain ⟨hpos, -, hsplits⟩ := h
    obtain ⟨u, c, id, hu, hc, hhead, hid⟩ : ∃ u c id,
        rows[rows.length - keepCount rows keepBudget - 1]? = some u ∧
        rows[rows.length - keepCount rows keepBudget]? = some c ∧
        toolResultHead c.message = some id ∧ id ∈ callIds u.message := by
      obtain ⟨p, r, id, hp, hr, hhead, hid⟩ := of_splitsPair hsplits
      simp only [messagesOf, List.getElem?_map, Option.map_eq_some_iff] at hp hr
      obtain ⟨u, hu, rfl⟩ := hp
      obtain ⟨c, hc, rfl⟩ := hr
      exact ⟨u, c, id, hu, hc, hhead, hid⟩
    have hback := drop_of_getElem? hu
    rw [Nat.sub_add_cancel hpos] at hback
    rw [hback] at hsub
    cases hsub with
    | cons _ hsub => exact cutIndex_of_kept (keepFrom_kept hne hsub)
    | @cons_cons rest _ _ hsub =>
      -- The nudge kept the calls for their result, which is still behind them.
      have hin : c ∈ rest := by
        refine (List.mem_cons.mp (hpair _ u c id hu (by rwa [Nat.sub_add_cancel hpos]) hhead hid
          List.mem_cons_self)).resolve_left fun e => ?_
        rw [e, toolResultHead_of_calls (List.ne_nil_of_mem hid)] at hhead
        cases hhead
      have hrest := hsub
      rw [drop_of_getElem? hc] at hrest
      cases hrest with
      | cons _ hlater =>
        have hfront := hnodup.sublist
          (List.drop_sublist (rows.length - keepCount rows keepBudget) rows)
        rw [drop_of_getElem? hc] at hfront
        exact absurd (hlater.subset hin) (List.nodup_cons.mp hfront).1
      | cons_cons _ hlater => exact cutIndex_of_pair hhead hid (keepFrom_kept hne hsub)

end Keep

def PairsAdjacent (viewer : Viewer) (labels : Labels) (w : List ThreadMessage) : Prop :=
  ∀ i c, (tailOf viewer labels w)[i]? = some c → c.closes →
    ∃ j u id, i = j + 1 ∧ (tailOf viewer labels w)[j]? = some u ∧
      toolResultHead (renderRow viewer labels c) = some id ∧ id ∈ callIds (renderRow viewer labels u)

def watermark (comp : Option ThreadCompaction) : Seq := comp.elim Seq.ZERO (·.coversThroughSeq)

section Settled

variable {viewer : Viewer} {labels : Labels} {t : Thread} {since covers : Seq} {keepBudget : Nat}

theorem kept_of_subset {w w' : List ThreadMessage} (hsub : w' ⊆ w) {m : ThreadMessage}
    (h : kept viewer labels w' m) : kept viewer labels w m := by
  unfold kept at h ⊢
  split at h
  · simp only [decide_eq_true_eq] at h ⊢
    obtain ⟨u, hu, hid⟩ := h
    exact ⟨u, hsub hu, hid⟩
  · rfl

theorem contextRows_ordered (hn : Numbered t) (agent : AgentId) (since : Seq) :
    (t.contextRows agent since).Pairwise fun m m' => m.seq < m'.seq :=
  ((hn.visible_ordered agent).sublist List.filter_sublist).sublist (newest_suffix _ _).sublist

theorem contextTail_nodup (hn : Numbered t) : (contextTail viewer labels since t).Nodup := by
  have hordered := contextRows_ordered hn viewer.agent since
  rw [contextTail_eq]
  refine List.Nodup.map_on (fun m hm m' hm' h => ?_)
    (((rejoin_perm _).nodup_iff.mpr (nodup_of_ordered hordered)).filter _)
  exact eq_of_seq_eq hordered (mem_tailOf.mp hm).1 (mem_tailOf.mp hm').1 (congrArg TailRow.seq h)

theorem ends_at_covered {w p : List ThreadMessage} {a : ThreadMessage}
    (hordered : w.Pairwise fun m m' => m.seq < m'.seq) (ha : a ∈ w)
    (hp : p ++ w.filter (fun m => a.seq < m.seq) = w) : ∃ init, p = init ++ [a] := by
  have hbehind : ∀ x ∈ w, a.seq < x.seq → x ∈ w.filter fun m => a.seq < m.seq := fun x hx hlt =>
    List.mem_filter.mpr ⟨hx, by simpa using hlt⟩
  have hap : a ∈ p := by
    rw [← hp] at ha
    refine (List.mem_append.mp ha).resolve_right fun h => ?_
    simpa using (List.mem_filter.mp h).2
  have hnodup := nodup_of_ordered hordered
  obtain rfl | ⟨init, x, rfl⟩ := p.eq_nil_or_concat
  · cases hap
  · rw [List.concat_eq_append] at hap hp ⊢
    have hx : x ∈ w := hp ▸ by simp
    obtain hinit | hx' := List.mem_append.mp hap
    · rw [← hp, List.append_assoc] at hordered
      have hlt := (List.pairwise_append.mp hordered).2.2 a hinit x (by simp)
      rw [← hp] at hnodup
      exact absurd rfl ((List.nodup_append.mp hnodup).2.2 x (by simp) x (hbehind x hx hlt))
    · exact ⟨init, by rw [List.mem_singleton.mp hx']⟩

theorem contextTail_behind (hn : Numbered t)
    (hadjacent : PairsAdjacent viewer labels (t.contextRows viewer.agent since))
    (hcovers : (splitTail (contextTail viewer labels since t) keepBudget).covers = some covers) :
    (contextTail viewer labels covers t).Sublist ((contextTail viewer labels since t).drop
      (cutIndex (contextTail viewer labels since t) keepBudget)) := by
  have hordered := contextRows_ordered hn viewer.agent since
  obtain ⟨o, ho, hseq⟩ := (splitTail_covers hcovers).mem
  obtain ⟨a, ha, hfirst, rfl⟩ := (mem_overflow_tail (f := ⟨t, none, []⟩)).mp ho
  have haw := (mem_tailOf.mp (List.mem_of_mem_take ha)).1
  have haseq : a.seq = covers := hseq
  have hlater := contextRows_of_covered hn haw (Nat.le_of_eq haseq)
  obtain ⟨p, hp⟩ : t.contextRows viewer.agent covers <:+ t.contextRows viewer.agent since := by
    rw [hlater]
    exact filter_gt_suffix hordered covers
  have hbehind : ∀ x, x ∈ t.contextRows viewer.agent covers → covers < x.seq := fun x =>
    since_lt_of_mem
  have htaken : ∀ x ∈ (tailOf viewer labels (t.contextRows viewer.agent since)).take
      (cutIndex (contextTail viewer labels since t) keepBudget), x.seq ≤ covers := by
    intro x hx
    by_cases hseed : 1 < x.seq
    · exact (splitTail_covers hcovers).le (toRow viewer labels x)
        ((mem_overflow_tail (f := ⟨t, none, []⟩)).mpr ⟨x, hx, hseed, rfl⟩)
    · lia
  have hnodup := nodup_of_ordered hordered
  rw [← hp] at hnodup
  have hlast : ∃ init, p = init ++ [a] := by
    apply ends_at_covered hordered haw
    rw [haseq, ← hlater, hp]
  rw [contextTail_eq covers]
  have hback : (contextTail viewer labels since t).drop
      (cutIndex (contextTail viewer labels since t) keepBudget) =
      ((tailOf viewer labels (t.contextRows viewer.agent since)).drop
        (cutIndex (contextTail viewer labels since t) keepBudget)).map (toRow viewer labels) := by
    rw [List.map_drop, ← contextTail_eq]
  rw [hback]
  have hcut : (scanned (p ++ t.contextRows viewer.agent covers)).filter
      (kept viewer labels (t.contextRows viewer.agent since)) =
      (tailOf viewer labels (t.contextRows viewer.agent since)).take
        (cutIndex (contextTail viewer labels since t) keepBudget) ++
      (tailOf viewer labels (t.contextRows viewer.agent since)).drop
        (cutIndex (contextTail viewer labels since t) keepBudget) := by
    rw [hp, List.take_append_drop]
    rfl
  refine List.Sublist.map _ (rejoin_behind_cut ThreadMessage.not_closes_of_opens hnodup hlast ha
    (fun x hx hq => Nat.not_lt_of_le (htaken x hx) (hbehind x hq)) hcut
    (fun u c _ hc _ => ?_) fun x hx hkept => ?_)
  · rw [List.head?_drop] at hc
    rw [Bool.eq_false_iff]
    intro hclose
    obtain ⟨j, u, id, hj, hu, hhead, hid⟩ := hadjacent _ c hc hclose
    refine cutIndex_safe (p := toRow viewer labels u) (r := toRow viewer labels c)
      (Nat.lt_of_lt_of_eq (Nat.succ_pos j) hj.symm) ?_ ?_ hhead hid
    · rw [hj, Nat.add_sub_cancel, contextTail_eq, List.getElem?_map, hu, Option.map_some]
    · rw [contextTail_eq, List.getElem?_map, ← contextTail_eq, hc, Option.map_some]
  · exact kept_of_subset (fun u hu => hp ▸ List.mem_append_right p hu) hkept

theorem pair_behind (hn : Numbered t)
    (hadjacent : PairsAdjacent viewer labels (t.contextRows viewer.agent since))
    (hlater : t.contextRows viewer.agent covers =
      (t.contextRows viewer.agent since).filter fun m => covers < m.seq)
    {i : Nat} {u c : ThreadMessage}
    (hu : (tailOf viewer labels (t.contextRows viewer.agent since))[i]? = some u)
    (hc : (tailOf viewer labels (t.contextRows viewer.agent since))[i + 1]? = some c)
    {id : ToolCallId} (hhead : toolResultHead (renderRow viewer labels c) = some id)
    (hid : id ∈ callIds (renderRow viewer labels u))
    (hmem : u ∈ tailOf viewer labels (t.contextRows viewer.agent covers)) :
    c ∈ tailOf viewer labels (t.contextRows viewer.agent covers) := by
  have hordered := contextRows_ordered hn viewer.agent since
  have huw := (mem_tailOf.mp hmem).1
  have hcw := (mem_tailOf.mp (List.mem_of_getElem? hc)).1
  have hopen : u.closes = false := by
    rw [Bool.eq_false_iff]
    intro hclose
    obtain ⟨-, -, head, -, -, hresult, -⟩ := hadjacent i u hu hclose
    rw [toolResultHead_of_calls (List.ne_nil_of_mem hid)] at hresult
    cases hresult
  have hsub : [u, c].Sublist (tailOf viewer labels (t.contextRows viewer.agent since)) := by
    refine List.Sublist.trans ?_ (List.drop_sublist i _)
    rw [drop_of_getElem? hu, drop_of_getElem? hc]
    exact .cons_cons u (.cons_cons c (List.nil_sublist _))
  have hle : u.seq ≤ c.seq := by
    refine Nat.le_of_not_lt fun hlt => ?_
    have := closes_of_overtakes hordered (sublist_scanned hsub) hlt
    rw [hopen] at this
    cases this
  refine mem_tailOf.mpr ⟨?_, ?_⟩
  · rw [hlater]
    exact List.mem_filter.mpr ⟨hcw, by simpa using Nat.lt_of_lt_of_le (since_lt_of_mem huw) hle⟩
  · rw [kept, hhead]
    simpa using ⟨u, huw, hid⟩

theorem contextTail_pair (hn : Numbered t)
    (hadjacent : PairsAdjacent viewer labels (t.contextRows viewer.agent since))
    (hcovers : (splitTail (contextTail viewer labels since t) keepBudget).covers = some covers)
    {i : Nat} {u c : TailRow} {id : ToolCallId}
    (hu : (contextTail viewer labels since t)[i]? = some u)
    (hc : (contextTail viewer labels since t)[i + 1]? = some c)
    (hhead : toolResultHead c.message = some id) (hid : id ∈ callIds u.message)
    (hmem : u ∈ contextTail viewer labels covers t) : c ∈ contextTail viewer labels covers t := by
  obtain ⟨o, ho, hseq⟩ := (splitTail_covers hcovers).mem
  obtain ⟨a, ha, haseq⟩ := mem_tailOf_of_overflow (f := ⟨t, none, []⟩) ho
  have hlater := contextRows_of_covered hn ha (Nat.le_of_eq (haseq.trans hseq))
  rw [contextTail_eq, List.getElem?_map, Option.map_eq_some_iff] at hu hc
  obtain ⟨u, hu, rfl⟩ := hu
  obtain ⟨c, hc, rfl⟩ := hc
  rw [contextTail_eq covers, List.mem_map] at hmem ⊢
  obtain ⟨u', hu', heq⟩ := hmem
  obtain rfl : u' = u := by
    refine eq_of_seq_eq (contextRows_ordered hn viewer.agent since) ?_
      (mem_tailOf.mp (List.mem_of_getElem? hu)).1 (congrArg TailRow.seq heq)
    have := (mem_tailOf.mp hu').1
    rw [hlater] at this
    exact List.mem_of_mem_filter this
  exact ⟨c, pair_behind hn hadjacent hlater hu hc hhead hid hu', rfl⟩

/-- The read after a fold that was stored has nothing left to fold, whatever size it is given. -/
theorem resolve_settles (hn : Numbered t) (contextWindow : Nat) (comp : Option ThreadCompaction)
    (hadjacent : PairsAdjacent viewer labels (t.contextRows viewer.agent (watermark comp)))
    {measured : Option Nat} {now : Time} {replies : Nat → Except CompactionError ChatResponse}
    {split : Split} {summary : CompactionSummary}
    (hfold : (resolveAgentContext contextWindow comp (contextTail viewer labels (watermark comp) t)
      measured now replies).2 = .summarized split summary) :
    let stored := (Compacted.summarized split summary).store now comp
    let next := contextTail viewer labels (watermark stored) t
    cutIndex next (contextTokenBudget contextWindow / 2) = 0 ∧
      ∀ measured' now' replies',
        (resolveAgentContext contextWindow stored next measured' now' replies').2 = .floor := by
  intro stored next
  obtain ⟨hsplit, hne⟩ := resolve_summarized (s := ⟨⟨t, none, []⟩, comp, [], now⟩)
    (r := ⟨labels, measured, replies⟩) hfold
  subst hsplit
  obtain ⟨covers, hcovers⟩ := splitTail_covers_some hne
  have hstored : watermark stored = covers := by
    simp [stored, Compacted.store, hcovers, watermark, saveCompaction]
  have hcut : cutIndex next (contextTokenBudget contextWindow / 2) = 0 := by
    have hnonempty : contextTail viewer labels (watermark comp) t ≠ [] := by
      obtain ⟨row, hrow⟩ := List.exists_mem_of_ne_nil _ hne
      exact List.ne_nil_of_mem (List.mem_of_mem_take (mem_overflow.mp hrow).1)
    refine cutIndex_settles hnonempty (contextTail_nodup hn) ?_ fun i u c id hu hc hhead hid hmem => ?_
    · rw [show next = contextTail viewer labels covers t by simp only [next, hstored]]
      exact contextTail_behind hn hadjacent hcovers
    · rw [show next = contextTail viewer labels covers t by simp only [next, hstored]] at hmem ⊢
      exact contextTail_pair hn hadjacent hcovers hu hc hhead hid hmem
  refine ⟨hcut, fun measured' now' replies' => ?_⟩
  have hnone : (splitTail next (contextTokenBudget contextWindow / 2)).overflow = [] := by
    rw [splitTail_overflow, hcut, List.take_zero, List.filter_nil]
  have hidle (prior : PriorCompaction) :
      (compactOverflow contextWindow prior next replies').2 = .floor := by
    simp only [compactOverflow, if_pos hnone]
  simp only [resolveAgentContext]
  split
  · rfl
  · split
    · rfl
    · exact hidle _

end Settled

namespace Sample

def searching : List FeedAct :=
  [.posted (some 3) [.text "Please look into it"], .posted (some 3) [.text "What do we know"],
    .toolUse [.toolCall { Threads.Sample.callA with input := "[\"orders\", \"refunds\", \"May\"]" }],
    .posted (some 3) [.text "Take your time"], .toolResult [("found it", false)]]

def searched : Thread := (Threads.Sample.feedOf searching).thread

def searchedTail (since : Seq) : List TailRow :=
  contextTail Threads.Sample.viewer unlabelled since searched

theorem searched_keeps : (splitTail (searchedTail 0) (contextTokenBudget 24 / 2)).overflow.map (·.seq) =
      [2] ∧
    (splitTail (searchedTail 0) (contextTokenBudget 24 / 2)).keep.map (·.seq) = [3, 5, 4] := by
  decide +kernel

theorem searched_adjacent : PairsAdjacent Threads.Sample.viewer unlabelled
    (searched.contextRows Threads.Sample.viewer.agent 0) := by
  intro i c hc hclose
  match i with
  | 0 | 1 | 2 | 4 =>
    cases hc
    cases hclose
  | 3 =>
    cases hc
    exact ⟨2, _, Threads.Sample.callA.id, rfl, rfl, rfl, by decide⟩
  | i + 5 => cases hc

theorem searched_numbered : Numbered searched := by
  constructor <;> decide

theorem resolve_searched : ∃ split summary,
    (resolveAgentContext 24 none (searchedTail 0) (some 1000) 0 fun _ => .ok answer).2 =
      .summarized split summary := by
  have hne : (splitTail (searchedTail 0) (contextTokenBudget 24 / 2)).overflow ≠ [] := fun hnil => by
    have hkeeps := searched_keeps.1
    rw [hnil] at hkeeps
    cases hkeeps
  exact resolve_of_trigger (s := ⟨⟨searched, none, []⟩, none, [], 0⟩)
    (r := ⟨unlabelled, some 1000, fun _ => .ok answer⟩) rfl (by decide) hne (fun _ => rfl)
    (rfl : extractText answer = _)

end Sample

theorem resolve_settles_searched : ∃ split summary,
    (resolveAgentContext 24 none (Sample.searchedTail 0) (some 1000) 0 fun _ => .ok Sample.answer).2 =
        .summarized split summary ∧
    (resolveAgentContext 24 ((Compacted.summarized split summary).store 0 none)
      (Sample.searchedTail (watermark ((Compacted.summarized split summary).store 0 none)))
      (some 1000) 0 fun _ => .ok Sample.answer).2 = .floor := by
  obtain ⟨split, summary, hfold⟩ := Sample.resolve_searched
  have hsettles := resolve_settles Sample.searched_numbered 24 none Sample.searched_adjacent hfold
  exact ⟨split, summary, hfold, hsettles.2 (some 1000) 0 _⟩

end Patom.AgentCore
