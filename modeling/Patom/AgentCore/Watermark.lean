import Patom.AgentCore.Coverage

open Patom.Foundation
open Patom.Provider
open Patom.Threads

namespace Patom.AgentCore

section Watermark

variable (viewer : Viewer) (contextWindow : Nat)

/-- A fold is stored only from a clean cut, of a read whose limit left nothing out. -/
def FoldsWhole (s : Coverage) : CoverageAct → Prop
  | .feed _ | .tick _ => True
  | .read r => ∀ split summary, (s.resolve viewer contextWindow r).2 = .summarized split summary →
    CleanCut viewer r.labels s.covers s.feed.thread (contextTokenBudget contextWindow / 2) ∧
      (s.beyond viewer).length ≤ MAX_CONTEXT_MESSAGES

variable {viewer contextWindow} in
theorem honest_step {s t : Coverage} (h : CoverageInv viewer s) (hs : Honest viewer s)
    {a : CoverageAct} (hstep : coverageStep viewer contextWindow s a = some t) :
    Honest viewer t ↔ FoldsWhole viewer contextWindow s a := by
  cases a with
  | feed a =>
    obtain ⟨f, hf, rfl⟩ := Option.map_eq_some_iff.mp hstep
    exact iff_of_true (h.honest_feed hs hf) trivial
  | tick d =>
    cases hstep
    exact iff_of_true hs trivial
  | read r =>
    obtain ⟨hfeed, -, ⟨split, summary, hresolve, covers, hst⟩ | ⟨hnone, hcovers, hfolded⟩⟩ :=
      read_cases hstep
    · rw [hst.honest_iff h hs hfeed]
      exact ⟨fun hwhole _ _ _ => hwhole, fun hwhole => hwhole split summary hresolve⟩
    · refine iff_of_true (fun m hm hseed hle => ?_) fun split summary h => absurd h (hnone _ _)
      rw [hfeed] at hm
      rw [hcovers] at hle
      rw [hfolded]
      exact hs m hm hseed hle

/-- The watermark stays honest throughout a run exactly when every fold it stores is whole. -/
theorem honest_iff_foldsWhole (as : List CoverageAct) :
    Always (coverageStep viewer contextWindow) (Honest viewer) .init as ↔
      Steps (coverageStep viewer contextWindow) (FoldsWhole viewer contextWindow) .init as := by
  refine always_iff_steps (CoverageInv viewer) (fun s a t hi hs hstep ht => hi.step hs hstep ht)
    (fun s a t hi hs hstep => honest_step hi hs hstep) coverageInv_init ?_ as
  exact fun m hm => absurd hm List.not_mem_nil

end Watermark

namespace Sample

def unlabelled : Labels := ⟨fun _ => none, fun _ => none⟩

def answer : ChatResponse := ⟨[.text "Facts:"], ⟨0, 0, none, none⟩⟩

def firstRead : Read := ⟨unlabelled, none, fun _ => .ok answer⟩

def long : String := String.ofList (List.replicate 65536 'x')

theorem length_replicate (n : Nat) (c : Char) : (String.ofList (List.replicate n c)).length = n := by
  simp

theorem length_long : long.length = 65536 := length_replicate 65536 'x'

section Long

variable {text : String}

def post (text : String) : FeedAct := .posted (some 3) [.text text]

def posted (text : String) (seq : Seq) : ThreadMessage :=
  { postedMessage (some 3) [.text text] with seq }

theorem renderRow_posted (seq : Seq) :
    renderRow Threads.Sample.viewer unlabelled (posted text seq) = .user [.text text] := rfl

def postedFeed (text : String) (n : Nat) : Feed :=
  ⟨⟨n, (List.range n).map fun i => posted text (i + 1)⟩, none, []⟩

theorem run_posts (k n : Nat) :
    run (feedStep Threads.Sample.viewer) (postedFeed text k) (List.replicate n (post text)) =
      some (postedFeed text (k + n)) := by
  induction n generalizing k with
  | zero => rfl
  | succ n ih =>
    have hstep : feedStep Threads.Sample.viewer (postedFeed text k) (post text) =
        some (postedFeed text (k + 1)) := by
      simp [feedStep, post, postedFeed, Thread.append, List.range_succ, posted, UserContent.isToolResult]
    rw [List.replicate_succ, run_cons, hstep, Option.bind_some, ih, Nat.add_assoc, Nat.add_comm 1 n]

theorem visible_posts (n : Nat) :
    (postedFeed text n).thread.visible Threads.Sample.viewer.agent =
      (postedFeed text n).thread.messages := by
  refine List.filter_eq_self.mpr fun m hm => ?_
  obtain ⟨i, -, rfl⟩ := List.mem_map.mp hm
  rfl

theorem messageChars_long (h : text.length = 65536) : messageChars (.user [.text text]) = 65536 := by
  simp [messageChars, userChars, h]

theorem messageTokens_long (h : text.length = 65536) : messageTokens (.user [.text text]) = 16384 := by
  simp [messageTokens, messageChars_long h, CHARS_PER_TOKEN, saturate, U32_MAX]

theorem keepFrom_long (h : text.length = 65536) {rows : List TailRow}
    (hrows : ∀ row ∈ rows, row.message = .user [.text text]) : keepFrom 50000 0 0 rows ≤ 3 := by
  have hplain : isImportantRow (.user [.text text]) = false := rfl
  rcases rows with _ | ⟨a, _ | ⟨b, _ | ⟨c, _ | ⟨d, rows⟩⟩⟩⟩
  case cons.cons.cons.cons =>
    simp only [List.forall_mem_cons] at hrows
    simp [keepFrom, hrows, messageTokens_long h, saturate, U32_MAX, hplain]
  all_goals exact Nat.le_trans (keepFrom_le _ _ _ _) (by simp)

theorem tail_posts : contextTail Threads.Sample.viewer unlabelled 0 (postedFeed text 202).thread =
    ((List.range 202).drop 2).map fun i => ⟨i + 1, .user [.text text]⟩ := by
  have hread : (postedFeed text 202).thread.contextRows Threads.Sample.viewer.agent 0 =
      ((List.range 202).drop 2).map fun i => posted text (i + 1) := by
    have hmessages : (postedFeed text 202).thread.messages =
        (List.range 202).map fun i => posted text (i + 1) := rfl
    rw [Thread.contextRows, visible_posts, List.filter_eq_self.mpr, newest, hmessages,
      List.length_map, List.length_range, List.map_drop, MAX_CONTEXT_MESSAGES]
    · intro m hm
      obtain ⟨i, -, rfl⟩ := List.mem_map.mp hm
      rfl
  rw [contextTail_eq, hread, tailOf, scanned, rejoin_idle, List.filter_eq_self.mpr, List.map_map]
  · rfl
  · intro m hm
    obtain ⟨i, -, rfl⟩ := List.mem_map.mp hm
    rfl
  · intro m hm
    obtain ⟨i, -, rfl⟩ := List.mem_map.mp hm
    rfl

theorem estimate_posts (h : text.length = 65536) :
    estimateTokens none (messagesOf (contextTail Threads.Sample.viewer unlabelled 0
      (postedFeed text 202).thread)) = 3276800 := by
  have hsum : ((messagesOf (contextTail Threads.Sample.viewer unlabelled 0
      (postedFeed text 202).thread)).map messageChars) = List.replicate 200 65536 := by
    refine List.eq_replicate_iff.mpr ⟨by simp [messagesOf, tail_posts], fun n hn => ?_⟩
    rw [tail_posts, messagesOf, List.map_map, List.map_map] at hn
    obtain ⟨i, -, rfl⟩ := List.mem_map.mp hn
    exact messageChars_long h
  rw [estimateTokens, hsum, List.sum_replicate_nat]
  rfl

theorem overflow_posts (h : text.length = 65536) :
    (splitTail (contextTail Threads.Sample.viewer unlabelled 0 (postedFeed text 202).thread)
      50000).overflow ≠ [] := by
  have hkeep : keepCount (contextTail Threads.Sample.viewer unlabelled 0
      (postedFeed text 202).thread) 50000 ≤ 3 := by
    have hfrom : keepFrom 50000 0 0 (contextTail Threads.Sample.viewer unlabelled 0
        (postedFeed text 202).thread).reverse ≤ 3 := by
      refine keepFrom_long h fun row hrow => ?_
      rw [List.mem_reverse, tail_posts] at hrow
      obtain ⟨i, -, rfl⟩ := List.mem_map.mp hrow
      rfl
    rw [keepCount]
    omega
  have hlength : (contextTail Threads.Sample.viewer unlabelled 0
      (postedFeed text 202).thread).length = 200 := by simp [tail_posts]
  have hcut : 0 < cutIndex (contextTail Threads.Sample.viewer unlabelled 0
      (postedFeed text 202).thread) 50000 := by
    simp only [cutIndex, toolSafeCutIndex, messagesOf, List.length_map, hlength]
    split <;> omega
  have hfirst : ((contextTail Threads.Sample.viewer unlabelled 0 (postedFeed text 202).thread).take
      (cutIndex (contextTail Threads.Sample.viewer unlabelled 0 (postedFeed text 202).thread)
        50000))[0]? = some ⟨3, .user [.text text]⟩ := by
    rw [List.getElem?_take_of_lt hcut, tail_posts]
    rfl
  exact List.ne_nil_of_mem (mem_overflow.mpr ⟨List.mem_of_getElem? hfirst, by lia⟩)

theorem beyond_posts : (Coverage.beyond Threads.Sample.viewer
    { Coverage.init with feed := postedFeed text 202 }).length = 201 := by
  have hcount : ((List.range 202).filter fun i => 1 < i + 1 ∧ 0 < i + 1).length = 201 := by
    decide +kernel
  rw [Coverage.beyond, visible_posts, ← hcount]
  simp only [postedFeed, List.filter_map, List.length_map]
  rfl

theorem dishonest_posts (h : text.length = 65536) : ∃ t,
    run (coverageStep Threads.Sample.viewer 200000) .init
      ((List.replicate 202 (post text)).map .feed ++ [.read firstRead]) = some t ∧
      ¬ Honest Threads.Sample.viewer t := by
  have hposts : run (feedStep Threads.Sample.viewer) .init (List.replicate 202 (post text)) =
      some (postedFeed text 202) := run_posts 0 202
  have hinv : CoverageInv Threads.Sample.viewer { Coverage.init with feed := postedFeed text 202 } :=
    coverageInv_feed (run_path hposts)
  have hsize : contextTokenBudget 200000 < firstRead.measured.getD (estimateTokens none
      (messagesOf (Coverage.tail Threads.Sample.viewer firstRead
        { Coverage.init with feed := postedFeed text 202 }))) := by
    refine Nat.lt_of_lt_of_eq ?_ (estimate_posts h).symm
    decide
  obtain ⟨split, summary, hresolve⟩ := resolve_of_trigger rfl hsize (overflow_posts h)
    (fun _ => rfl) (rfl : extractText answer = _)
  obtain ⟨t, ht⟩ : ∃ t, coverageStep Threads.Sample.viewer 200000
      { Coverage.init with feed := postedFeed text 202 } (.read firstRead) = some t :=
    read_enabled firstRead rfl
  refine ⟨t, ?_, fun hhonest => ?_⟩
  · rw [run_append, run_feed]
    simp only [Coverage.init, hposts, Option.map_some, Option.bind_some, run_cons, run_nil]
    exact congrArg (Option.bind · some) ht
  · obtain ⟨hfeed, -, ⟨_, _, _, covers, hst⟩ | ⟨hnone, -⟩⟩ := read_cases ht
    · have hroom := ((hst.honest_iff hinv (honest_uncovered rfl) hfeed).mp hhonest).2
      rw [beyond_posts] at hroom
      revert hroom
      decide
    · exact hnone split summary hresolve

end Long

end Sample

/-- A burst larger than one read, folded at once: row 2 is passed over. -/
theorem dishonest_burst : ∃ t,
    run (coverageStep Threads.Sample.viewer 200000) .init
      ((List.replicate 202 (Sample.post Sample.long)).map .feed ++ [.read Sample.firstRead]) = some t ∧
      ¬ Honest Threads.Sample.viewer t :=
  Sample.dishonest_posts Sample.length_long

end Patom.AgentCore
