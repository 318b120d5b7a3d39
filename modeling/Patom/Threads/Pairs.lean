import Patom.Threads.Turns

open Patom.Foundation
open Patom.Provider

namespace Patom.Threads

section Render

variable {viewer : Viewer} {labels : Labels} {m : ThreadMessage}

theorem toolResultHead_cap (seq : Seq) (message : ChatMessage) :
    toolResultHead (capToolResultsInPlace seq message) = toolResultHead message := by
  cases message with
  | assistant contents => rfl
  | user contents =>
    cases contents with
    | nil => rfl
    | cons c contents => cases c <;> rfl

theorem resultIds_cap (seq : Seq) (message : ChatMessage) :
    resultIds (capToolResultsInPlace seq message) = resultIds message := by
  cases message with
  | assistant contents => rfl
  | user contents =>
    simp only [capToolResultsInPlace, resultIds, List.filterMap_map]
    apply List.filterMap_congr
    intro c _
    cases c <;> rfl

theorem callIds_cap (seq : Seq) (message : ChatMessage) :
    callIds (capToolResultsInPlace seq message) = callIds message := by
  cases message <;> rfl

theorem renderRow_private (h : m.kind ≠ .posted) :
    renderRow viewer labels m = capToolResultsInPlace m.seq m.body := by
  unfold renderRow mapRowForViewer
  rw [if_pos h]

variable (viewer labels) in
theorem render_opens (h : Shaped m) (hopen : m.opens) :
    callIds (renderRow viewer labels m) = callIds m.body ∧ callIds m.body ≠ [] ∧
      toolResultHead (renderRow viewer labels m) = none := by
  have hne := h.callIds_ne_nil hopen
  have hkind : m.kind = .toolUse := by simpa [ThreadMessage.opens] using hopen
  simp only [Shaped, hkind] at h
  obtain ⟨contents, hbody, -⟩ := h
  rw [renderRow_private (by simp [hkind]), callIds_cap, toolResultHead_cap]
  exact ⟨rfl, hne, by rw [hbody]; rfl⟩

variable (viewer labels) in
theorem render_closes (h : Shaped m) (hclose : m.closes) :
    callIds (renderRow viewer labels m) = [] ∧
      resultIds (renderRow viewer labels m) = resultIds m.body ∧
      ∃ id, toolResultHead (renderRow viewer labels m) = some id ∧ id ∈ resultIds m.body := by
  have hkind : m.kind = .toolResult := by simpa [ThreadMessage.closes] using hclose
  simp only [Shaped, hkind] at h
  obtain ⟨results, hne, hbody⟩ := h
  obtain ⟨r, results, rfl⟩ := List.exists_cons_of_ne_nil hne
  rw [renderRow_private (by simp [hkind]), callIds_cap, resultIds_cap, toolResultHead_cap, hbody]
  exact ⟨rfl, rfl, r.callId, rfl, List.mem_cons_self⟩

theorem toolResultHead_plain {contents : List UserContent}
    (h : ∀ c ∈ contents, c.isToolResult = false) : toolResultHead (.user contents) = none := by
  cases contents with
  | nil => rfl
  | cons c contents =>
    have hc := h c List.mem_cons_self
    cases c with
    | toolResult r => cases hc
    | _ => rfl

theorem prefixSenderLabel_plain {contents : List UserContent}
    (h : ∀ c ∈ contents, c.isToolResult = false) (label : Option String) :
    ∀ c ∈ prefixSenderLabel label contents, c.isToolResult = false := by
  intro c hc
  cases label with
  | none => exact h c hc
  | some label =>
    simp only [prefixSenderLabel] at hc
    split at hc
    · exact h c hc
    · rcases List.mem_cons.mp hc with rfl | hc
      · rfl
      · exact h c hc

theorem callIds_userToAssistantBlocks (contents : List UserContent) :
    callIds (.assistant (userToAssistantBlocks contents)) = [] := by
  induction contents with
  | nil => rfl
  | cons c contents ih => cases c <;> exact ih

theorem render_idle (h : Shaped m) (hidle : Idle ThreadMessage.opens ThreadMessage.closes m) :
    callIds (renderRow viewer labels m) = [] ∧ toolResultHead (renderRow viewer labels m) = none := by
  obtain ⟨hopens, hcloses⟩ := hidle
  cases hkind : m.kind with
  | toolUse => simp [ThreadMessage.opens, hkind] at hopens
  | toolResult => simp [ThreadMessage.closes, hkind] at hcloses
  | reasoning =>
    simp only [Shaped, hkind] at h
    obtain ⟨contents, hbody, hcalls⟩ := h
    rw [renderRow_private (by simp [hkind]), callIds_cap, toolResultHead_cap, hbody]
    exact ⟨congrArg (List.map _) hcalls, rfl⟩
  | systemNote =>
    simp only [Shaped, hkind] at h
    obtain ⟨contents, hbody, hplain⟩ := h
    rw [renderRow_private (by simp [hkind]), callIds_cap, toolResultHead_cap, hbody]
    exact ⟨rfl, toolResultHead_plain hplain⟩
  | posted =>
    simp only [Shaped, hkind] at h
    obtain ⟨contents, hbody, hplain⟩ := h
    rw [renderRow, callIds_cap, toolResultHead_cap]
    unfold mapRowForViewer
    rw [if_neg (by simp [hkind]), hbody]
    split
    · exact ⟨callIds_userToAssistantBlocks contents, rfl⟩
    · exact ⟨rfl, toolResultHead_plain (prefixSenderLabel_plain hplain _)⟩

end Render

/-- What a provider accepts: a result right behind the calls it answers, a use right ahead of its
result. -/
structure WellFormed (pairs : List (Seq × Seq)) (window : List (Seq × ChatMessage)) : Prop where
  preceded : ∀ r ∈ window, toolResultHead r.2 ≠ none →
    ∃ u, [u, r] <:+: window ∧ callIds u.2 ≠ [] ∧ resultIds r.2 = callIds u.2
  followed : ∀ u ∈ window, ∀ r ∈ window, (u.1, r.1) ∈ pairs → [u, r] <:+: window

/-- No result read behind a use that never got its own, and a result cut off from its use answers
no call of the window. -/
structure Pairable (pairs : List (Seq × Seq)) (rows : List (Seq × MessageKind × ChatMessage)) :
    Prop where
  closed : ∀ u ∈ rows, u.2.1 = .toolUse → ∀ r ∈ rows, r.2.1 = .toolResult → u.1 < r.1 →
    ∃ c ∈ rows, (u.1, c.1) ∈ pairs
  orphaned : ∀ r ∈ rows, r.2.1 = .toolResult → (∀ u ∈ rows, (u.1, r.1) ∉ pairs) →
    ∀ id ∈ (toolResultHead r.2.2).toList, ∀ u ∈ rows, id ∉ callIds u.2.2

set_option synthInstance.maxSize 512 in
instance (pairs : List (Seq × Seq)) (rows : List (Seq × MessageKind × ChatMessage)) :
    Decidable (Pairable pairs rows) :=
  decidable_of_iff
    ((∀ u ∈ rows, u.2.1 = .toolUse → ∀ r ∈ rows, r.2.1 = .toolResult → u.1 < r.1 →
        ∃ c ∈ rows, (u.1, c.1) ∈ pairs) ∧
      ∀ r ∈ rows, r.2.1 = .toolResult → (∀ u ∈ rows, (u.1, r.1) ∉ pairs) →
        ∀ id ∈ (toolResultHead r.2.2).toList, ∀ u ∈ rows, id ∉ callIds u.2.2)
    ⟨fun h => ⟨h.1, h.2⟩, fun h => ⟨h.1, h.2⟩⟩

section Window

variable {viewer : Viewer} {labels : Labels} {f : Feed} {since : Seq}

structure WindowInv (pairs : List (Seq × Seq)) (w : List ThreadMessage) : Prop where
  ordered : w.Pairwise fun m m' => m.seq < m'.seq
  shaped : ∀ m ∈ w, Shaped m
  braided : Braided ThreadMessage.opens ThreadMessage.closes w
  paired : ∀ u ∈ w, ∀ result, (u.seq, result) ∈ pairs ↔ ∃ c, Answered w u c ∧ c.seq = result
  matched : ∀ u c, Answered w u c → resultIds c.body = callIds u.body

variable (since) in
theorem FeedInv.window (h : FeedInv viewer f) :
    WindowInv f.pairs (f.thread.contextRows viewer.agent since) := by
  obtain ⟨pre, hpre⟩ := contextRows_suffix viewer.agent since h.numbered.ordered
  generalize f.thread.contextRows viewer.agent since = w at hpre
  have hordered := h.numbered.visible_ordered viewer.agent
  have hshaped := h.shaped
  have hpairs := h.pairs
  have hanswered := h.answered
  have hmatched := h.matched
  rw [← hpre] at hordered hshaped hpairs hanswered hmatched
  have hnodup := nodup_of_ordered hordered
  refine ⟨(List.pairwise_append.mp hordered).2.1, fun m hm => hshaped m (List.mem_append_right pre hm),
    Braided.suffix hnodup hanswered, fun u hu result => ?_,
    fun u c hans => hmatched u c (hans.prepend pre)⟩
  rw [hpairs]
  constructor
  · rintro ⟨u', c, hans, hseq, hresult⟩
    have heq : u' = u := eq_of_seq_eq hordered hans.mem_left (List.mem_append_right pre hu) hseq
    subst heq
    exact ⟨c, hans.suffix hnodup hu, hresult⟩
  · rintro ⟨c, hans, hresult⟩
    exact ⟨u, c, hans.prepend pre, rfl, hresult⟩

variable {w : List ThreadMessage} {pairs : List (Seq × Seq)}

variable (viewer labels w) in
def shown (m : ThreadMessage) : Seq × ChatMessage := (m.seq, renderRow viewer labels m)

variable (viewer labels w) in
def rowsOf : List (Seq × MessageKind × ChatMessage) :=
  w.map fun m => (m.seq, m.kind, renderRow viewer labels m)

variable (viewer labels w) in
def kept (m : ThreadMessage) : Bool :=
  match toolResultHead (renderRow viewer labels m) with
  | some id => ∃ u ∈ w, id ∈ callIds (renderRow viewer labels u)
  | none => true

variable (w) in
abbrev scanned : List ThreadMessage := rejoin ThreadMessage.opens ThreadMessage.closes none w

def repaired (viewer : Viewer) (labels : Labels) (w : List ThreadMessage) : List (Seq × ChatMessage) :=
  ((scanned w).filter (kept viewer labels w)).map (shown viewer labels)

variable (viewer labels w) in
theorem repaired_eq : dropOrphanToolResults (repairToolPairs (rowsOf viewer labels w)) =
    repaired viewer labels w := by
  rw [rowsOf, repaired, repairToolPairs_map, dropOrphanToolResults, List.filter_map]
  refine congrArg (List.map _) (List.filter_congr fun m _ => ?_)
  simp only [Function.comp_apply, kept]
  cases toolResultHead (renderRow viewer labels m) with
  | none => rfl
  | some id => simp

variable (viewer labels) in
theorem kept_of_answered (hw : WindowInv pairs w) {u c : ThreadMessage} (h : Answered w u c) :
    kept viewer labels w c := by
  have hu := h.mem_left
  have hc : c ∈ w := h.sublist.subset (by simp)
  obtain ⟨-, -, id, hhead, hid⟩ := render_closes viewer labels
    (hw.shaped c hc) h.closes_right
  have hcalls := (render_opens viewer labels (hw.shaped u hu) h.opens_left).1
  rw [hw.matched u c h, ← hcalls] at hid
  simpa [kept, hhead] using ⟨u, hu, hid⟩

variable (viewer labels) in
theorem kept_of_not_closes (hw : WindowInv pairs w) {m : ThreadMessage} (hm : m ∈ w)
    (h : m.closes = false) : kept viewer labels w m := by
  have hhead : toolResultHead (renderRow viewer labels m) = none := by
    cases hopen : m.opens with
    | true => exact (render_opens _ _ (hw.shaped m hm) hopen).2.2
    | false => exact (render_idle (hw.shaped m hm) ⟨hopen, h⟩).2
  simp [kept, hhead]

theorem mem_scanned {m : ThreadMessage} : m ∈ scanned w ↔ m ∈ w := mem_rejoin

theorem scanned_nodup (hw : WindowInv pairs w) : (scanned w).Nodup :=
  (rejoin_perm w).nodup_iff.mpr (nodup_of_ordered hw.ordered)

theorem eq_of_shown_eq (hw : WindowInv pairs w) {m m' : ThreadMessage} (hm : m ∈ w) (hm' : m' ∈ w)
    (h : shown viewer labels m = shown viewer labels m') : m = m' :=
  eq_of_seq_eq hw.ordered hm hm' (congrArg Prod.fst h)

theorem mem_repaired {row : Seq × ChatMessage} : row ∈ repaired viewer labels w ↔
    ∃ m ∈ w, kept viewer labels w m ∧ shown viewer labels m = row := by
  simp [repaired, and_assoc]

theorem repaired_nodup (hw : WindowInv pairs w) : (repaired viewer labels w).Nodup := by
  refine List.Nodup.map_on (fun m hm m' hm' h => ?_) ((scanned_nodup hw).filter _)
  exact eq_of_shown_eq hw (mem_scanned.mp (List.mem_of_mem_filter hm))
    (mem_scanned.mp (List.mem_of_mem_filter hm')) h

theorem infix_repaired {m m' : ThreadMessage} (hm : kept viewer labels w m)
    (hm' : kept viewer labels w m') (h : [m, m'] <:+: scanned w) :
    [shown viewer labels m, shown viewer labels m'] <:+: repaired viewer labels w := by
  have hfilter := h.filter (kept viewer labels w)
  rw [List.filter_cons_of_pos hm, List.filter_cons_of_pos hm', List.filter_nil] at hfilter
  exact hfilter.map _

theorem sublist_repaired {m m' : ThreadMessage} (hm : kept viewer labels w m)
    (hm' : kept viewer labels w m') (h : [m, m'].Sublist (scanned w)) :
    [shown viewer labels m, shown viewer labels m'].Sublist (repaired viewer labels w) := by
  have hfilter := h.filter (kept viewer labels w)
  rw [List.filter_cons_of_pos hm, List.filter_cons_of_pos hm', List.filter_nil] at hfilter
  exact hfilter.map _

theorem orphan_first (hw : WindowInv pairs w) {c u : ThreadMessage}
    (h : Orphan ThreadMessage.opens ThreadMessage.closes w c)
    (hsub : [u, c].Sublist (scanned w)) : u.opens = false := by
  obtain ⟨before, after, heq, hidle⟩ := h.rejoin ThreadMessage.not_closes_of_opens
  have hnodup := scanned_nodup hw
  unfold scanned at hsub hnodup
  rw [heq] at hsub hnodup
  exact (hidle u (mem_of_sublist_ahead hnodup hsub)).1

theorem sublist_of_seq_lt (hw : WindowInv pairs w) {m m' : ThreadMessage} (hm : m ∈ w) (hm' : m' ∈ w)
    (h : m.seq < m'.seq) : [m, m'].Sublist w := by
  refine (sublist_or_swap hm hm' fun e => by simp [e] at h).resolve_right fun hswap => ?_
  have := List.pairwise_pair.mp (hw.ordered.sublist hswap)
  lia

theorem orphan_of_unpaired (hw : WindowInv pairs w) {c : ThreadMessage} (hc : c ∈ w) (hclose : c.closes)
    (h : ∀ u ∈ w, (u.seq, c.seq) ∉ pairs) : Orphan ThreadMessage.opens ThreadMessage.closes w c := by
  refine (hw.braided c hc hclose).resolve_right ?_
  rintro ⟨u, hu⟩
  exact h u hu.mem_left ((hw.paired u hu.mem_left c.seq).mpr ⟨c, hu, rfl⟩)

theorem answered_of_paired (hw : WindowInv pairs w) {u c : ThreadMessage} (hu : u ∈ w) (hc : c ∈ w)
    (h : (u.seq, c.seq) ∈ pairs) : Answered w u c := by
  obtain ⟨c', hans, hseq⟩ := (hw.paired u hu c.seq).mp h
  have heq : c' = c := eq_of_seq_eq hw.ordered (hans.sublist.subset (by simp)) hc hseq
  exact heq ▸ hans

theorem opens_of_callIds (hw : WindowInv pairs w) {u : ThreadMessage} (hu : u ∈ w)
    (h : callIds (renderRow viewer labels u) ≠ []) : u.opens := by
  by_contra hopen
  rw [Bool.not_eq_true] at hopen
  cases hclose : u.closes with
  | true => exact h (render_closes _ _ (hw.shaped u hu) hclose).1
  | false => exact h (render_idle (hw.shaped u hu) ⟨hopen, hclose⟩).1

theorem closes_of_toolResultHead (hw : WindowInv pairs w) {c : ThreadMessage} (hc : c ∈ w)
    (h : toolResultHead (renderRow viewer labels c) ≠ none) : c.closes := by
  by_contra hclose
  rw [Bool.not_eq_true] at hclose
  cases hopen : c.opens with
  | true => exact h (render_opens _ _ (hw.shaped c hc) hopen).2.2
  | false => exact h (render_idle (hw.shaped c hc) ⟨hopen, hclose⟩).2

theorem Pairable.unstranded (hw : WindowInv pairs w) (h : Pairable pairs (rowsOf viewer labels w))
    (u : ThreadMessage) : ¬ Stranded ThreadMessage.opens ThreadMessage.closes w u := by
  rintro ⟨hopen, ⟨c, hsub, hclose⟩, hnone⟩
  have hu : u ∈ w := hsub.subset (by simp)
  have hlt := List.pairwise_pair.mp (hw.ordered.sublist hsub)
  obtain ⟨c', -, hpair⟩ := h.closed (u.seq, u.kind, renderRow viewer labels u)
    (List.mem_map_of_mem hu) (by simpa [ThreadMessage.opens] using hopen)
    (c.seq, c.kind, renderRow viewer labels c) (List.mem_map_of_mem (hsub.subset (by simp)))
    (by simpa [ThreadMessage.closes] using hclose) hlt
  obtain ⟨c'', hans, -⟩ := (hw.paired u hu c'.1).mp hpair
  exact hnone c'' hans

theorem Pairable.wellFormed (hw : WindowInv pairs w) (h : Pairable pairs (rowsOf viewer labels w)) :
    WellFormed pairs (repaired viewer labels w) := by
  have hadjacent := (rejoin_adjacent_iff ThreadMessage.not_closes_of_opens (nodup_of_ordered hw.ordered)
    hw.braided).mpr (h.unstranded hw)
  have hadjacent : ∀ u c, Answered w u c →
      [shown viewer labels u, shown viewer labels c] <:+: repaired viewer labels w := fun u c hans =>
    infix_repaired (kept_of_not_closes _ _ hw hans.mem_left
      (ThreadMessage.not_closes_of_opens u hans.opens_left)) (kept_of_answered _ _ hw hans)
      (hadjacent u c hans)
  constructor
  case preceded =>
    intro r hr hhead
    obtain ⟨c, hc, hkept, rfl⟩ := mem_repaired.mp hr
    have hclose : c.closes := closes_of_toolResultHead hw hc hhead
    by_cases hpaired : ∃ u ∈ w, (u.seq, c.seq) ∈ pairs
    · obtain ⟨u, hu, hpair⟩ := hpaired
      have hans := answered_of_paired hw hu hc hpair
      obtain ⟨hcalls, hne, -⟩ := render_opens viewer labels
        (hw.shaped u hu) hans.opens_left
      refine ⟨shown viewer labels u, hadjacent u c hans, by rw [shown, hcalls]; exact hne, ?_⟩
      rw [shown, shown, hcalls, (render_closes _ _ (hw.shaped c hc) hclose).2.1]
      exact hw.matched u c hans
    · obtain ⟨id, hid⟩ := Option.ne_none_iff_exists'.mp hhead
      simp only [shown] at hid
      simp only [kept, hid, decide_eq_true_eq] at hkept
      obtain ⟨u, hu, hcall⟩ := hkept
      refine absurd hcall (h.orphaned _ (List.mem_map_of_mem hc) ?_ ?_ id
        (Option.mem_toList.mpr hid) _ (List.mem_map_of_mem hu))
      · simpa [ThreadMessage.closes] using hclose
      · intro row hrow hpair
        obtain ⟨u', hu', rfl⟩ := List.mem_map.mp hrow
        exact hpaired ⟨u', hu', hpair⟩
  case followed =>
    intro u hu r hr hpair
    obtain ⟨mu, hmu, -, rfl⟩ := mem_repaired.mp hu
    obtain ⟨mc, hmc, -, rfl⟩ := mem_repaired.mp hr
    exact hadjacent mu mc (answered_of_paired hw hmu hmc hpair)

theorem WellFormed.closed (hw : WindowInv pairs w) (h : WellFormed pairs (repaired viewer labels w))
    (u : ThreadMessage) : ¬ Stranded ThreadMessage.opens ThreadMessage.closes w u := by
  refine (rejoin_adjacent_iff ThreadMessage.not_closes_of_opens (nodup_of_ordered hw.ordered)
    hw.braided).mp (fun u c hans => ?_) u
  refine (hans.rejoin ThreadMessage.not_closes_of_opens).resolve_right fun hswap => ?_
  have hc : c ∈ w := hans.sublist.subset (by simp)
  have hku := kept_of_not_closes viewer labels hw hans.mem_left
    (ThreadMessage.not_closes_of_opens u hans.opens_left)
  have hkc := kept_of_answered viewer labels hw hans
  have hadjacent := h.followed (shown viewer labels u) (mem_repaired.mpr ⟨u, hans.mem_left, hku, rfl⟩)
    (shown viewer labels c) (mem_repaired.mpr ⟨c, hc, hkc, rfl⟩)
    ((hw.paired u hans.mem_left c.seq).mpr ⟨c, hans, rfl⟩)
  exact not_sublist_swap (repaired_nodup hw) hadjacent.sublist (sublist_repaired hkc hku hswap)

theorem WellFormed.pairable (hw : WindowInv pairs w)
    (h : WellFormed pairs (repaired viewer labels w)) : Pairable pairs (rowsOf viewer labels w) := by
  constructor
  case closed =>
    intro u hu hopen r hr hclose hlt
    obtain ⟨mu, hmu, rfl⟩ := List.mem_map.mp hu
    obtain ⟨mc, hmc, rfl⟩ := List.mem_map.mp hr
    by_contra hnone
    refine h.closed hw mu ⟨by simpa [ThreadMessage.opens] using hopen, ⟨mc, ?_, ?_⟩, fun c hans => ?_⟩
    · exact sublist_of_seq_lt hw hmu hmc hlt
    · simpa [ThreadMessage.closes] using hclose
    · have hc : c ∈ w := hans.sublist.subset (by simp)
      exact hnone ⟨_, List.mem_map_of_mem hc, (hw.paired mu hmu c.seq).mpr ⟨c, hans, rfl⟩⟩
  case orphaned =>
    intro r hr hkind hunpaired id hid row hrow hcall
    obtain ⟨c, hc, rfl⟩ := List.mem_map.mp hr
    obtain ⟨u, hu, rfl⟩ := List.mem_map.mp hrow
    have hclose : c.closes := by simpa [ThreadMessage.closes] using hkind
    rw [Option.mem_toList] at hid
    have horphan := orphan_of_unpaired hw hc hclose fun u hu => hunpaired _ (List.mem_map_of_mem hu)
    have hkept : kept viewer labels w c := by simpa [kept, hid] using ⟨u, hu, hcall⟩
    obtain ⟨x, hadjacent, hne, -⟩ := h.preceded (shown viewer labels c)
      (mem_repaired.mpr ⟨c, hc, hkept, rfl⟩) (by simp [shown, hid])
    obtain ⟨u', hu', hku', rfl⟩ := mem_repaired.mp (hadjacent.subset List.mem_cons_self)
    have hopen := opens_of_callIds hw hu' hne
    have hneq : u' ≠ c := fun e => by
      have := ThreadMessage.not_closes_of_opens u' hopen
      rw [e, hclose] at this
      cases this
    rcases sublist_or_swap (mem_scanned.mpr hu') (mem_scanned.mpr hc) hneq with hsub | hswap
    · have := orphan_first hw horphan hsub
      rw [hopen] at this
      cases this
    · exact not_sublist_swap (repaired_nodup hw) hadjacent.sublist (sublist_repaired hkept hku' hswap)

end Window

/-- The window of every feed is well formed exactly when its rows are pairable. -/
theorem window_wellFormed_iff {viewer : Viewer} {f : Feed}
    (h : Reachable (feedStep viewer) .init f) (labels : Labels) (since : Seq) :
    WellFormed f.pairs
        (dropOrphanToolResults (repairToolPairs (mappedRows viewer labels since f.thread))) ↔
      Pairable f.pairs (mappedRows viewer labels since f.thread) := by
  have hw := (reachable_feedInv h).window since
  have heq := repaired_eq viewer labels (f.thread.contextRows viewer.agent since)
  have hrows : mappedRows viewer labels since f.thread =
      rowsOf viewer labels (f.thread.contextRows viewer.agent since) := by
    simp only [mappedRows, rowsOf]
  rw [hrows, heq]
  exact ⟨WellFormed.pairable hw, Pairable.wellFormed hw⟩

namespace Sample

def viewer : Viewer := ⟨1, 2⟩

def labels : Labels := ⟨fun _ => none, fun _ => some "Ada"⟩

def call (id : String) (hne : id ≠ "") (hle : id.utf8ByteSize ≤ TOOL_CALL_ID_MAX_BYTES) : ToolCall :=
  ⟨⟨id, hne, hle⟩, ⟨"search", by decide, by decide, by decide⟩, "{}"⟩

def callA : ToolCall := call "a" (by decide) (by decide)

def callB : ToolCall := call "b" (by decide) (by decide)

def interleaved : List FeedAct :=
  [.posted (some 3) [.text "Hi"], .toolUse [.toolCall callA], .posted (some 3) [.text "More"],
    .toolResult [("found", false)]]

def abandoned : List FeedAct :=
  [.posted (some 3) [.text "Hi"], .toolUse [.toolCall callA], .stop, .toolUse [.toolCall callB],
    .toolResult [("found", false)]]

def feedOf (acts : List FeedAct) : Feed := ((run (feedStep viewer) .init acts).getD .init)

end Sample

theorem window_wellFormed_interleaved :
    WellFormed (Sample.feedOf Sample.interleaved).pairs
      (dropOrphanToolResults (repairToolPairs (mappedRows Sample.viewer Sample.labels 0
        (Sample.feedOf Sample.interleaved).thread))) := by
  have hrun : run (feedStep Sample.viewer) .init Sample.interleaved =
      some (Sample.feedOf Sample.interleaved) := by decide
  exact (window_wellFormed_iff (run_path hrun) Sample.labels 0).mpr (by decide)

theorem window_malformed_abandoned :
    ∃ f, run (feedStep Sample.viewer) .init Sample.abandoned = some f ∧
      ¬ WellFormed f.pairs
        (dropOrphanToolResults (repairToolPairs (mappedRows Sample.viewer Sample.labels 0 f.thread))) := by
  refine ⟨Sample.feedOf Sample.abandoned, by decide, fun h => ?_⟩
  have hadjacent := h.followed (3, .assistant [.toolCall Sample.callB]) (by decide)
    (4, .user [.toolResult ⟨Sample.callB.id, "found", false⟩]) (by decide) (by decide)
  revert hadjacent
  decide

end Patom.Threads
