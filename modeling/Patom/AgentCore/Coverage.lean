import Patom.AgentCore.Compaction
import Patom.AgentCore.Retention
import Patom.Threads.Turns

open Patom.Foundation
open Patom.Provider
open Patom.Threads

namespace Patom.AgentCore

/-- A viewer's feed and its stored compaction; `folded` records every number that was ever part of
the overflow of a fold that was stored. -/
structure Coverage where
  feed : Feed
  compaction : Option ThreadCompaction
  folded : List Seq
  now : Time

def Coverage.init : Coverage := ⟨.init, none, [], 0⟩

def Coverage.covers (s : Coverage) : Seq := s.compaction.elim Seq.ZERO (·.coversThroughSeq)

structure Read where
  labels : Labels
  measured : Option Nat
  replies : Nat → Except CompactionError ChatResponse

inductive CoverageAct
  | feed (a : FeedAct)
  | tick (d : Duration)
  | read (r : Read)

def Compacted.folded : Compacted → List Seq
  | .summarized split _ => split.overflow.map (·.seq)
  | .floor | .failed _ => []

section Step

variable (viewer : Viewer) (contextWindow : Nat)

abbrev Coverage.tail (r : Read) (s : Coverage) : List TailRow :=
  contextTail viewer r.labels s.covers s.feed.thread

def Coverage.resolve (r : Read) (s : Coverage) : AgentContext × Compacted :=
  resolveAgentContext contextWindow s.compaction (s.tail viewer r) r.measured s.now r.replies

/-- A turn reads once every tool use it made is answered. -/
def coverageStep : Step Coverage CoverageAct := fun s act =>
  match act with
  | .feed a => (feedStep viewer s.feed a).map fun feed => { s with feed }
  | .tick d => some { s with now := s.now + d }
  | .read r =>
    if s.feed.pending = none then
      let compacted := (s.resolve viewer contextWindow r).2
      some { s with
        compaction := compacted.store s.now s.compaction
        folded := s.folded ++ compacted.folded }
    else none

def Coverage.beyond (s : Coverage) : List ThreadMessage :=
  (s.feed.thread.visible viewer.agent).filter fun m => SEED_ANCHOR_MSGS < m.seq ∧ s.covers < m.seq

end Step

section Window

variable {viewer : Viewer} {s : Coverage}

theorem mem_beyond {m : ThreadMessage} : m ∈ s.beyond viewer ↔
    m ∈ s.feed.thread.visible viewer.agent ∧ 1 < m.seq ∧ s.covers < m.seq := by
  rw [Coverage.beyond, List.mem_filter, decide_eq_true_eq]
  rfl

theorem beyond_suffix (hn : Numbered s.feed.thread) : s.beyond viewer <:+
    (s.feed.thread.visible viewer.agent).filter fun m => s.covers < m.seq := by
  have hfilter : s.beyond viewer = ((s.feed.thread.visible viewer.agent).filter fun m =>
      s.covers < m.seq).filter fun m => SEED_ANCHOR_MSGS < m.seq := by
    rw [List.filter_filter]
    simp only [Coverage.beyond, Bool.decide_and]
  rw [hfilter]
  exact filter_gt_suffix ((hn.visible_ordered viewer.agent).sublist List.filter_sublist) _

theorem mem_window_of_beyond (hn : Numbered s.feed.thread)
    (hroom : (s.beyond viewer).length ≤ MAX_CONTEXT_MESSAGES) {m : ThreadMessage}
    (hm : m ∈ s.beyond viewer) : m ∈ s.feed.thread.contextRows viewer.agent s.covers :=
  (suffix_newest (beyond_suffix hn) hroom).subset hm

theorem exists_unread (hn : Numbered s.feed.thread)
    (hmany : MAX_CONTEXT_MESSAGES < (s.beyond viewer).length) :
    ∃ m ∈ s.beyond viewer, m ∉ s.feed.thread.contextRows viewer.agent s.covers := by
  by_contra hall
  simp only [not_exists, not_and, not_not] at hall
  have hnodup := nodup_of_ordered ((hn.visible_ordered viewer.agent).sublist
    (List.filter_sublist (p := fun m => decide (SEED_ANCHOR_MSGS < m.seq ∧ s.covers < m.seq))))
  have hle : (s.beyond viewer).length ≤
      (s.feed.thread.contextRows viewer.agent s.covers).length :=
    List.Nodup.length_le_of_subset hnodup hall
  have hmax : (s.feed.thread.contextRows viewer.agent s.covers).length ≤ MAX_CONTEXT_MESSAGES :=
    length_newest_le _ _
  omega

theorem unread_lt (hn : Numbered s.feed.thread) {m x : ThreadMessage} (hm : m ∈ s.beyond viewer)
    (hnot : m ∉ s.feed.thread.contextRows viewer.agent s.covers)
    (hx : x ∈ s.feed.thread.contextRows viewer.agent s.covers) : m.seq < x.seq := by
  obtain ⟨pre, hpre⟩ : s.feed.thread.contextRows viewer.agent s.covers <:+
      (s.feed.thread.visible viewer.agent).filter fun m => s.covers < m.seq := newest_suffix _ _
  have hordered := (hn.visible_ordered viewer.agent).sublist
    (List.filter_sublist (p := fun m => decide (s.covers < m.seq)))
  have hmem := (beyond_suffix hn).subset hm
  rw [← hpre] at hordered hmem
  exact (List.pairwise_append.mp hordered).2.2 m ((List.mem_append.mp hmem).resolve_right hnot) x hx

end Window

/-- The rows up to the watermark were all handed to a fold that was stored. -/
def Honest (viewer : Viewer) (s : Coverage) : Prop :=
  ∀ m ∈ s.feed.thread.visible viewer.agent, SEED_ANCHOR_MSGS < m.seq → m.seq ≤ s.covers →
    m.seq ∈ s.folded

structure CoverageInv (viewer : Viewer) (s : Coverage) : Prop where
  feed : FeedInv viewer s.feed
  bounded : s.covers ≤ s.feed.thread.nextSeq
  folded : ∀ seq ∈ s.folded, seq ≤ s.covers
  unsplit : ∀ p ∈ s.feed.pairs, p.1 ≤ s.covers → p.2 ≤ s.covers
  ahead : ∀ use calls, s.feed.pending = some (use, calls) → s.covers < use

section Inv

variable {viewer : Viewer} {contextWindow : Nat} {s t : Coverage}

theorem coverageInv_init : CoverageInv viewer .init where
  feed := feedInv_init
  bounded := Nat.le_refl 0
  folded _ h := absurd h List.not_mem_nil
  unsplit _ h := absurd h List.not_mem_nil
  ahead _ _ h := nomatch h

theorem CoverageInv.feedStep (h : CoverageInv viewer s) {a : FeedAct} {f : Feed}
    (hstep : feedStep viewer s.feed a = some f) : CoverageInv viewer { s with feed := f } := by
  obtain ⟨-, hnext, hpending, hpairs⟩ := feedStep_moved hstep
  refine ⟨h.feed.step hstep, Nat.le_trans h.bounded hnext, h.folded, fun p hp hle => ?_,
    fun use calls huse => ?_⟩
  · rcases hpairs p hp with hp | ⟨calls, hp⟩
    · exact h.unsplit p hp hle
    · exact absurd hle (Nat.not_le_of_lt (h.ahead p.1 calls hp))
  · rcases hpending use calls huse with hold | hnew
    · exact h.ahead use calls hold
    · exact Nat.lt_of_le_of_lt h.bounded hnew

theorem CoverageInv.of_same (h : CoverageInv viewer s) (hfeed : t.feed = s.feed)
    (hcovers : t.covers = s.covers) (hfolded : t.folded = s.folded) : CoverageInv viewer t := by
  refine ⟨hfeed ▸ h.feed, ?_, ?_, ?_, ?_⟩
  · rw [hcovers, hfeed]
    exact h.bounded
  · rw [hfolded, hcovers]
    exact h.folded
  · rw [hcovers, hfeed]
    exact h.unsplit
  · rw [hcovers, hfeed]
    exact h.ahead

theorem CoverageInv.mem_tail (h : CoverageInv viewer s) (labels : Labels)
    (hroom : (s.beyond viewer).length ≤ MAX_CONTEXT_MESSAGES) {m : ThreadMessage}
    (hm : m ∈ s.beyond viewer) :
    m ∈ tailOf viewer labels (s.feed.thread.contextRows viewer.agent s.covers) := by
  have hn := h.feed.numbered
  have hread := mem_window_of_beyond hn hroom hm
  have hw := h.feed.window s.covers
  refine mem_tailOf.mpr ⟨hread, ?_⟩
  cases hclose : m.closes with
  | false => exact kept_of_not_closes _ _ hw hread hclose
  | true =>
    obtain ⟨hvisible, -, hlt⟩ := mem_beyond.mp hm
    obtain ⟨u, hans⟩ := h.feed.answered m hvisible hclose
    have hpair : (u.seq, m.seq) ∈ s.feed.pairs := (h.feed.pairs _ _).mpr ⟨u, m, hans, rfl, rfl⟩
    have hult : s.covers < u.seq := Nat.lt_of_not_le fun hle =>
      absurd (h.unsplit _ hpair hle) (Nat.not_le_of_lt hlt)
    have hu := mem_window_of_beyond hn hroom (mem_beyond.mpr
      ⟨hans.mem_left, h.feed.founded u hans.mem_left hans.opens_left, hult⟩)
    exact kept_of_answered _ _ hw (answered_of_paired hw hu hread hpair)

theorem compactOverflow_summarized {prior : PriorCompaction} {tail : List TailRow}
    {replies : Nat → Except CompactionError ChatResponse} {split : Split}
    {summary : CompactionSummary}
    (h : (compactOverflow contextWindow prior tail replies).2 = .summarized split summary) :
    split = splitTail tail (contextTokenBudget contextWindow / 2) ∧ split.overflow ≠ [] := by
  simp only [compactOverflow] at h
  split at h
  case isTrue => cases h
  case isFalse hne =>
    split at h
    · simp only [Compacted.summarized.injEq] at h
      exact h.1 ▸ ⟨rfl, hne⟩
    · cases h

theorem resolve_summarized {r : Read} {split : Split} {summary : CompactionSummary}
    (h : (s.resolve viewer contextWindow r).2 = .summarized split summary) :
    split = splitTail (s.tail viewer r) (contextTokenBudget contextWindow / 2) ∧
      split.overflow ≠ [] := by
  simp only [Coverage.resolve, resolveAgentContext] at h
  split at h
  · cases h
  · split at h
    · cases h
    · exact compactOverflow_summarized h

structure Stored (viewer : Viewer) (contextWindow : Nat) (s : Coverage) (r : Read) (covers : Seq)
    (t : Coverage) : Prop where
  largest : (splitTail (s.tail viewer r) (contextTokenBudget contextWindow / 2)).covers = some covers
  moved : t.covers = covers
  folded : t.folded = s.folded ++
    (splitTail (s.tail viewer r) (contextTokenBudget contextWindow / 2)).overflow.map (·.seq)

theorem read_enabled (r : Read) (h : s.feed.pending = none) :
    ∃ t, coverageStep viewer contextWindow s (.read r) = some t := by
  simp only [coverageStep]
  exact ⟨_, if_pos h⟩

theorem read_cases {r : Read} (hstep : coverageStep viewer contextWindow s (.read r) = some t) :
    t.feed = s.feed ∧ s.feed.pending = none ∧
      ((∃ split summary, (s.resolve viewer contextWindow r).2 = .summarized split summary ∧
          ∃ covers, Stored viewer contextWindow s r covers t) ∨
        ((∀ split summary, (s.resolve viewer contextWindow r).2 ≠ .summarized split summary) ∧
          t.covers = s.covers ∧ t.folded = s.folded)) := by
  simp only [coverageStep, Option.ite_none_right_eq_some, Option.some.injEq] at hstep
  obtain ⟨hpending, rfl⟩ := hstep
  refine ⟨rfl, hpending, ?_⟩
  cases hresolve : (s.resolve viewer contextWindow r).2 with
  | floor =>
    refine .inr ⟨fun _ _ h => (nomatch h), rfl, List.append_nil _⟩
  | failed e =>
    refine .inr ⟨fun _ _ h => (nomatch h), ?_, List.append_nil _⟩
    cases hcomp : s.compaction <;> simp [Compacted.store, bumpCooldown, Coverage.covers, hcomp]
  | summarized split summary =>
    obtain ⟨rfl, hne⟩ := resolve_summarized hresolve
    obtain ⟨covers, hcovers⟩ := splitTail_covers_some hne
    refine .inl ⟨_, summary, rfl, covers, hcovers, ?_, rfl⟩
    simp [Compacted.store, Coverage.covers, hcovers, saveCompaction]

variable {r : Read} {covers : Seq}

theorem Stored.mem_overflow (hst : Stored viewer contextWindow s r covers t) {row : TailRow}
    (hrow : row ∈ (splitTail (s.tail viewer r) (contextTokenBudget contextWindow / 2)).overflow) :
    row.seq ≤ covers ∧ s.covers < row.seq ∧
      ∃ m ∈ s.feed.thread.contextRows viewer.agent s.covers, m.seq = row.seq := by
  obtain ⟨m, hm, hseq⟩ := mem_tailOf_of_overflow hrow
  exact ⟨(splitTail_covers hst.largest).le row hrow, hseq ▸ since_lt_of_mem hm, m, hm, hseq⟩

theorem Stored.clean_cases (h : CoverageInv viewer s) (hst : Stored viewer contextWindow s r covers t)
    (hclean : CleanCut viewer r.labels s.covers s.feed.thread (contextTokenBudget contextWindow / 2))
    (hroom : (s.beyond viewer).length ≤ MAX_CONTEXT_MESSAGES) {m : ThreadMessage}
    (hm : m ∈ s.beyond viewer) :
    (m ∈ (tailOf viewer r.labels (s.feed.thread.contextRows viewer.agent s.covers)).drop
        (cutIndex (s.tail viewer r) (contextTokenBudget contextWindow / 2)) ∧ covers < m.seq) ∨
      (m.seq ∈ t.folded ∧ m.seq ≤ covers) := by
  have hmem := h.mem_tail r.labels hroom hm
  rw [← List.take_append_drop
    (cutIndex (s.tail viewer r) (contextTokenBudget contextWindow / 2)) (tailOf _ _ _)] at hmem
  rcases List.mem_append.mp hmem with htake | hdrop
  · have hrow : toRow viewer r.labels m ∈
        (splitTail (s.tail viewer r) (contextTokenBudget contextWindow / 2)).overflow :=
      mem_overflow_tail.mpr ⟨m, htake, (mem_beyond.mp hm).2.1, rfl⟩
    refine .inr ⟨?_, (hst.mem_overflow hrow).1⟩
    rw [hst.folded]
    exact List.mem_append_right _ (List.mem_map.mpr ⟨_, hrow, rfl⟩)
  · exact .inl ⟨hdrop, lt_of_cleanCut h.feed hclean hst.largest hdrop⟩

theorem Stored.honest_iff (h : CoverageInv viewer s) (hs : Honest viewer s)
    (hst : Stored viewer contextWindow s r covers t) (hfeed : t.feed = s.feed) :
    Honest viewer t ↔
      CleanCut viewer r.labels s.covers s.feed.thread (contextTokenBudget contextWindow / 2) ∧
        (s.beyond viewer).length ≤ MAX_CONTEXT_MESSAGES := by
  -- a number past the old watermark is folded now or never was
  have hnew : ∀ seq ∈ t.folded, s.covers < seq → ∃ row ∈
      (splitTail (s.tail viewer r) (contextTokenBudget contextWindow / 2)).overflow, row.seq = seq := by
    intro seq hseq hlt
    rw [hst.folded] at hseq
    rcases List.mem_append.mp hseq with hold | hnew
    · exact absurd hlt (Nat.not_lt_of_le (h.folded seq hold))
    · exact List.mem_map.mp hnew
  constructor
  · intro ht
    constructor
    · refine cleanCut_iff.mpr fun m hm hdeferred => ?_
      obtain ⟨row, hrow, hlt⟩ := overflow_of_deferred h.feed hm hdeferred
      have hmw := (mem_tailOf.mp (List.mem_of_getElem? hm)).1
      obtain ⟨u, hu, hopen, -, -, -, hum, -⟩ := hdeferred
      have hfounded := h.feed.founded u (visible_of_mem hu) hopen
      obtain ⟨o, ho, hseq⟩ : ∃ o ∈
          (splitTail (s.tail viewer r) (contextTokenBudget contextWindow / 2)).overflow,
            o.seq = m.seq := by
        refine hnew m.seq (ht m ?_ ?_ ?_) (since_lt_of_mem hmw)
        · rw [hfeed]
          exact visible_of_mem hmw
        · exact Nat.lt_trans hfounded hum
        · rw [hst.moved]
          have := (hst.mem_overflow hrow).1
          lia
      obtain ⟨m', hm', -, rfl⟩ := mem_overflow_tail.mp ho
      have heq : m' = m := eq_of_seq_eq (h.feed.window _).ordered
        (mem_tailOf.mp (List.mem_of_mem_take hm')).1 hmw hseq
      have hnodup := tailOf_nodup viewer r.labels (h.feed.window s.covers)
      have := hnodup.sublist (sublist_of_take_drop hm' (drop_of_getElem? hm ▸ List.mem_cons_self))
      simp [heq] at this
    · by_contra hmany
      obtain ⟨m, hm, hunread⟩ := exists_unread h.feed.numbered (Nat.lt_of_not_le hmany)
      obtain ⟨hvisible, hseed, hlt⟩ := mem_beyond.mp hm
      obtain ⟨o, ho, hseq⟩ := (splitTail_covers hst.largest).mem
      obtain ⟨x, hx, hxseq⟩ := mem_tailOf_of_overflow ho
      have hmx := unread_lt h.feed.numbered hm hunread hx
      have hfolded := ht m (hfeed ▸ hvisible) hseed (by rw [hst.moved]; lia)
      obtain ⟨row, hrow, hrowseq⟩ := hnew m.seq hfolded hlt
      obtain ⟨y, hy, hyseq⟩ := mem_tailOf_of_overflow hrow
      have heq : y = m := eq_of_seq_eq (h.feed.numbered.visible_ordered viewer.agent)
        (visible_of_mem hy) hvisible (hyseq.trans hrowseq)
      exact hunread (heq ▸ hy)
  · rintro ⟨hclean, hroom⟩ m hm hseed hle
    rw [hfeed] at hm
    rw [hst.moved] at hle
    by_cases hold : m.seq ≤ s.covers
    · rw [hst.folded]
      exact List.mem_append_left _ (hs m hm hseed hold)
    · rcases hst.clean_cases h hclean hroom (mem_beyond.mpr ⟨hm, hseed, Nat.lt_of_not_le hold⟩) with
        ⟨-, hlt⟩ | ⟨hfolded, -⟩
      · exact absurd hle (Nat.not_le_of_lt hlt)
      · exact hfolded

theorem CoverageInv.stored (h : CoverageInv viewer s) (hst : Stored viewer contextWindow s r covers t)
    (hfeed : t.feed = s.feed) (hpending : s.feed.pending = none)
    (hclean : CleanCut viewer r.labels s.covers s.feed.thread (contextTokenBudget contextWindow / 2))
    (hroom : (s.beyond viewer).length ≤ MAX_CONTEXT_MESSAGES) : CoverageInv viewer t := by
  obtain ⟨o, ho, hseq⟩ := (splitTail_covers hst.largest).mem
  obtain ⟨-, hlt, x, hx, hxseq⟩ := hst.mem_overflow ho
  have hgrow : s.covers ≤ covers := by lia
  refine ⟨hfeed ▸ h.feed, ?_, fun seq hfolded => ?_, fun p hp hle => ?_, fun use calls huse => ?_⟩
  · have := (h.feed.numbered.bounded x (mem_of_visible (visible_of_mem hx))).2
    rw [hst.moved, hfeed]
    lia
  · rw [hst.folded] at hfolded
    rw [hst.moved]
    rcases List.mem_append.mp hfolded with hold | hnew
    · exact Nat.le_trans (h.folded seq hold) hgrow
    · obtain ⟨row, hrow, rfl⟩ := List.mem_map.mp hnew
      exact (hst.mem_overflow hrow).1
  · rw [hst.moved] at hle ⊢
    rw [hfeed] at hp
    by_cases hold : p.1 ≤ s.covers
    · exact Nat.le_trans (h.unsplit p hp hold) hgrow
    · obtain ⟨u, c, hans, hu, hc⟩ := (h.feed.pairs p.1 p.2).mp hp
      have hult : s.covers < u.seq := by lia
      have huc := List.pairwise_pair.mp
        ((h.feed.numbered.visible_ordered viewer.agent).sublist hans.sublist)
      have hcv := hans.sublist.subset (by simp : c ∈ [u, c])
      have hus := h.feed.founded u hans.mem_left hans.opens_left
      rcases hst.clean_cases h hclean hroom (mem_beyond.mpr ⟨hcv, by lia, by lia⟩) with
        ⟨hkept, -⟩ | ⟨-, hcle⟩
      · have hw := h.feed.window s.covers
        have huw := mem_window_of_beyond h.feed.numbered hroom
          (mem_beyond.mpr ⟨hans.mem_left, hus, hult⟩)
        have hcw := (mem_tailOf.mp (List.mem_of_mem_drop hkept)).1
        have hans' := answered_of_paired hw huw hcw ((h.feed.pairs _ _).mpr ⟨u, c, hans, rfl, rfl⟩)
        have hukept := calls_kept hw (contextTail_eq s.covers s.feed.thread) hans' hkept
        have := lt_of_cleanCut h.feed hclean hst.largest hukept
        lia
      · rw [← hc]
        exact hcle
  · rw [hfeed, hpending] at huse
    cases huse

/-- A step keeps the invariant as long as the watermark stays honest. -/
theorem CoverageInv.step (h : CoverageInv viewer s) (hs : Honest viewer s) {a : CoverageAct}
    (hstep : coverageStep viewer contextWindow s a = some t) (ht : Honest viewer t) :
    CoverageInv viewer t := by
  cases a with
  | feed a =>
    obtain ⟨f, hf, rfl⟩ := Option.map_eq_some_iff.mp hstep
    exact h.feedStep hf
  | tick d =>
    cases hstep
    exact h.of_same rfl rfl rfl
  | read r =>
    obtain ⟨hfeed, hpending, ⟨_, _, _, covers, hst⟩ | ⟨-, hcovers, hfolded⟩⟩ := read_cases hstep
    · obtain ⟨hclean, hroom⟩ := (hst.honest_iff h hs hfeed).mp ht
      exact h.stored hst hfeed hpending hclean hroom
    · exact h.of_same hfeed hcovers hfolded

theorem CoverageInv.honest_feed (h : CoverageInv viewer s) (hs : Honest viewer s) {a : FeedAct}
    {f : Feed} (hf : Threads.feedStep viewer s.feed a = some f) :
    Honest viewer { s with feed := f } := by
  obtain ⟨⟨new, hvisible, -, hseq⟩, -, -, -⟩ := feedStep_moved hf
  intro m hm hseed hle
  rw [hvisible] at hm
  rcases List.mem_append.mp hm with hm | hm
  · exact hs m hm hseed hle
  · have hbound : s.covers ≤ s.feed.thread.nextSeq := h.bounded
    have hle' : m.seq ≤ s.covers := hle
    rw [hseq m hm] at hle'
    lia

theorem run_feed (s : Coverage) (as : List FeedAct) :
    run (coverageStep viewer contextWindow) s (as.map .feed) =
      (run (Threads.feedStep viewer) s.feed as).map fun feed => { s with feed } := by
  induction as generalizing s with
  | nil => rfl
  | cons a as ih =>
    simp only [List.map_cons, run_cons, coverageStep]
    cases Threads.feedStep viewer s.feed a with
    | none => rfl
    | some f => exact ih _

theorem coverageInv_feed {f : Feed} (h : Reachable (Threads.feedStep viewer) .init f) :
    CoverageInv viewer { Coverage.init with feed := f } := by
  have hstep : ∀ f a f', CoverageInv viewer { Coverage.init with feed := f } →
      Threads.feedStep viewer f a = some f' →
      CoverageInv viewer { Coverage.init with feed := f' } := fun f a f' hi hstep =>
    hi.feedStep hstep
  exact h.inv hstep coverageInv_init

theorem honest_uncovered (h : s.covers = 0) : Honest viewer s := by
  intro m _ hseed hle
  rw [h] at hle
  exact absurd (Nat.lt_of_lt_of_le hseed hle) (Nat.not_lt_zero _)

theorem foldChunks_ok {replies : Nat → Except CompactionError ChatResponse} {response : ChatResponse}
    {text : String} (hreply : ∀ n, replies n = .ok response) (htext : extractText response = some text)
    (fold : Nat) (acc : String) (chunks : List (List ChatMessage)) :
    ∃ out, (foldChunks replies fold acc chunks).1 = .ok out := by
  induction chunks generalizing fold acc with
  | nil => exact ⟨acc, rfl⟩
  | cons chunk chunks ih =>
    obtain ⟨out, hout⟩ := ih (fold + 1) text
    exact ⟨out, by simp [foldChunks, hreply, htext, hout]⟩

theorem resolve_of_trigger {r : Read} {response : ChatResponse} {text : String}
    (hcomp : s.compaction = none)
    (hsize : contextTokenBudget contextWindow < r.measured.getD
      (estimateTokens none (messagesOf (s.tail viewer r))))
    (hne : (splitTail (s.tail viewer r) (contextTokenBudget contextWindow / 2)).overflow ≠ [])
    (hreply : ∀ n, r.replies n = .ok response) (htext : extractText response = some text) :
    ∃ split summary, (s.resolve viewer contextWindow r).2 = .summarized split summary := by
  obtain ⟨out, hout⟩ : ∃ out, (runFoldPass r.replies none (messagesOf
      (splitTail (s.tail viewer r) (contextTokenBudget contextWindow / 2)).overflow)).1 = .ok out :=
    foldChunks_ok hreply htext 0 _ _
  refine ⟨splitTail (s.tail viewer r) (contextTokenBudget contextWindow / 2),
    CompactionSummary.clamp out, ?_⟩
  simp only [Coverage.resolve, resolveAgentContext, hcomp, Option.map_none, Option.filter_none,
    Option.bind_none, Option.any_none, Bool.false_eq_true, if_false]
  rw [if_neg fun h => absurd hsize (Nat.not_lt_of_le h.1)]
  simp only [compactOverflow, if_neg hne, hout]

end Inv

end Patom.AgentCore
