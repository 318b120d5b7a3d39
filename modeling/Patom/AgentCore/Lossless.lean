import Patom.AgentCore.Compaction
import Patom.AgentCore.Dispatch
import Patom.AgentCore.Watermark
import Patom.Threads.Artifacts

open Patom.Foundation
open Patom.Provider
open Patom.Threads

namespace Patom.AgentCore

def PREVIEW_HEAD_CHARS : Nat := 2000
def PREVIEW_TAIL_CHARS : Nat := 2000

inductive ToolResultPolicy
  | summarize (intent : String)
  | paginate

def renderPreview (body : String) (handle : ArtifactHandle) (total : Nat) : String :=
  let head := body.toList.take PREVIEW_HEAD_CHARS
  let tail := if PREVIEW_TAIL_CHARS < total then body.toList.drop (total - PREVIEW_TAIL_CHARS) else []
  let omitted := total - head.length - tail.length
  String.ofList head ++ "\n\n[… " ++ toString omitted ++
    " chars omitted · full result offloaded as artifact " ++ handle.asStr ++
    " · call read_artifact(handle=\"" ++ handle.asStr ++
    "\", offset/limit | grep) to retrieve any slice …]\n\n" ++ String.ofList tail

def renderSummary (summary : String) (handle : ArtifactHandle) (total : Nat) : String :=
  "[Summarized tool result — " ++ toString total ++
    " chars reduced toward the request; this is NOT the full result. " ++
    "Full content offloaded as artifact " ++
    handle.asStr ++ "; call read_artifact(handle=\"" ++ handle.asStr ++
    "\", offset/limit | grep) for exact bytes.]\n\n" ++ summary

def bodyIntoChunkMessages (body : String) : List ChatMessage :=
  (body.toList.toChunks (SUMMARIZER_INPUT_BUDGET * CHARS_PER_TOKEN)).map fun piece =>
    .user [.text (String.ofList piece)]

def runReducePass (replies : Nat → Except CompactionError ChatResponse) (body : String) :
    Except CompactionError String :=
  let chunks := splitChunks (bodyIntoChunkMessages body) SUMMARIZER_INPUT_BUDGET
  (foldChunks replies 0 "" (chunks.drop (chunks.length - MAX_COMPACTION_CHUNKS))).1

def summarizeToolResult (body : String) :
    List (Nat → Except CompactionError ChatResponse) → Option String
  | [] => none
  | replies :: chain =>
    match runReducePass replies body with
    | .ok text => if trim text.toList ≠ [] then some text else summarizeToolResult body chain
    | .error _ => summarizeToolResult body chain

variable (contentAddress : String → ArtifactHandle)
  (summarizers : String → List (Nat → Except CompactionError ChatResponse))

def visibleBody (policy : ToolResultPolicy) (output : String) : String :=
  let total := output.length
  let handle := contentAddress output
  match policy with
  | .summarize intent =>
    match summarizeToolResult output (summarizers intent) with
    | some summary => renderSummary summary handle total
    | none => renderPreview output handle total
  | .paginate => renderPreview output handle total

def reduceAndOffload (offloads : Bool) (policy : ToolResultPolicy) (org : OrgId) (call : ToolCall)
    (output : String) (artifacts : Table ToolArtifact) : ToolResult × Table ToolArtifact :=
  if offloads then
    (⟨call.id, visibleBody contentAddress summarizers policy output, false⟩,
      saveToolArtifact ⟨org, contentAddress output, output⟩ artifacts)
  else (⟨call.id, output, false⟩, artifacts)

end Patom.AgentCore

namespace Patom.AgentCore

section Lossless

variable (viewer : Viewer) (contextWindow : Nat)

/-- Every visible row but the seed was folded, or is still read. -/
def Lossless (s : Coverage) : Prop :=
  ∀ m ∈ s.feed.thread.visible viewer.agent, SEED_ANCHOR_MSGS < m.seq →
    m.seq ∈ s.folded ∨
      ∀ labels, toRow viewer labels m ∈ contextTail viewer labels s.covers s.feed.thread

/-- A row is written only while the rows past the watermark fit in a read, and a fold is stored
only from a clean cut. -/
def KeepsAll (s : Coverage) : CoverageAct → Prop
  | .feed a => a.seen → (s.beyond viewer).length < MAX_CONTEXT_MESSAGES
  | .tick _ => True
  | .read r => ∀ split summary, (s.resolve viewer contextWindow r).2 = .summarized split summary →
    CleanCut viewer r.labels s.covers s.feed.thread (contextTokenBudget contextWindow / 2)

end Lossless

section Laws

variable {viewer : Viewer} {contextWindow : Nat} {s t : Coverage}

theorem mem_contextTail {labels : Labels} {m : ThreadMessage}
    (h : toRow viewer labels m ∈ contextTail viewer labels s.covers s.feed.thread) :
    ∃ x ∈ s.feed.thread.contextRows viewer.agent s.covers, x.seq = m.seq := by
  rw [contextTail_eq] at h
  obtain ⟨x, hx, heq⟩ := List.mem_map.mp h
  exact ⟨x, (mem_tailOf.mp hx).1, congrArg TailRow.seq heq⟩

theorem Lossless.honest (h : Lossless viewer s) : Honest viewer s := by
  intro m hm hseed hle
  refine (h m hm hseed).resolve_right fun htail => ?_
  obtain ⟨x, hx, hseq⟩ := mem_contextTail (htail ⟨fun _ => none, fun _ => none⟩)
  have := since_lt_of_mem hx
  lia

theorem lossless_iff (h : CoverageInv viewer s) : Lossless viewer s ↔
    Honest viewer s ∧ (s.beyond viewer).length ≤ MAX_CONTEXT_MESSAGES := by
  constructor
  · refine fun hs => ⟨hs.honest, ?_⟩
    by_contra hmany
    obtain ⟨m, hm, hunread⟩ := exists_unread h.feed.numbered (Nat.lt_of_not_le hmany)
    obtain ⟨hvisible, hseed, hlt⟩ := mem_beyond.mp hm
    rcases hs m hvisible hseed with hfolded | htail
    · exact absurd (h.folded m.seq hfolded) (Nat.not_le_of_lt hlt)
    · obtain ⟨x, hx, hseq⟩ := mem_contextTail (htail ⟨fun _ => none, fun _ => none⟩)
      have heq : x = m := eq_of_seq_eq (h.feed.numbered.visible_ordered viewer.agent)
        (visible_of_mem hx) hvisible hseq
      exact hunread (heq ▸ hx)
  · rintro ⟨hs, hroom⟩ m hm hseed
    by_cases hle : m.seq ≤ s.covers
    · exact .inl (hs m hm hseed hle)
    · refine .inr fun labels => ?_
      rw [contextTail_eq]
      exact List.mem_map_of_mem
        (h.mem_tail labels hroom (mem_beyond.mpr ⟨hm, hseed, Nat.lt_of_not_le hle⟩))

theorem room_feed (h : CoverageInv viewer s) (hroom : (s.beyond viewer).length ≤ MAX_CONTEXT_MESSAGES)
    {a : FeedAct} {f : Feed} (hf : feedStep viewer s.feed a = some f) :
    (Coverage.beyond viewer { s with feed := f }).length ≤ MAX_CONTEXT_MESSAGES ↔
      (a.seen → (s.beyond viewer).length < MAX_CONTEXT_MESSAGES) := by
  obtain ⟨⟨new, hvisible, hlength, hseq⟩, -, -, -⟩ := feedStep_moved hf
  have hbeyond : Coverage.beyond viewer { s with feed := f } = s.beyond viewer ++
      new.filter fun m => SEED_ANCHOR_MSGS < m.seq ∧ s.covers < m.seq := by
    simp only [Coverage.beyond, hvisible, List.filter_append]
    rfl
  rw [hbeyond, List.length_append]
  cases hseen : a.seen with
  | false =>
    rw [hseen] at hlength
    rw [List.eq_nil_of_length_eq_zero hlength]
    simpa using hroom
  | true =>
    rw [hseen] at hlength
    obtain ⟨m, rfl⟩ := List.length_eq_one_iff.mp hlength
    have hm := hseq m List.mem_cons_self
    have hbound : s.covers ≤ s.feed.thread.nextSeq := h.bounded
    by_cases hseed : s.feed.thread.nextSeq = 0
    · have hnil : s.beyond viewer = [] := by
        refine List.eq_nil_iff_forall_not_mem.mpr fun x hx => ?_
        have := h.feed.numbered.bounded x (mem_of_visible (mem_beyond.mp hx).1)
        lia
      simp [hnil, MAX_CONTEXT_MESSAGES, hm, hseed, SEED_ANCHOR_MSGS]
    · have hcount : SEED_ANCHOR_MSGS < m.seq ∧ s.covers < m.seq := by
        simp only [SEED_ANCHOR_MSGS]
        lia
      have hnew : ([m].filter fun m => SEED_ANCHOR_MSGS < m.seq ∧ s.covers < m.seq) = [m] :=
        List.filter_eq_self.mpr (by simpa using hcount)
      rw [hnew, List.length_singleton]
      exact ⟨fun hle _ => hle, fun hlt => hlt rfl⟩

theorem lossless_step (h : CoverageInv viewer s) (hs : Lossless viewer s) {a : CoverageAct}
    (hstep : coverageStep viewer contextWindow s a = some t) :
    Lossless viewer t ↔ KeepsAll viewer contextWindow s a := by
  obtain ⟨hhonest, hroom⟩ := (lossless_iff h).mp hs
  cases a with
  | feed a =>
    obtain ⟨f, hf, rfl⟩ := Option.map_eq_some_iff.mp hstep
    rw [lossless_iff (h.feedStep hf), room_feed h hroom hf]
    exact and_iff_right (h.honest_feed hhonest hf)
  | tick d =>
    cases hstep
    exact iff_of_true hs trivial
  | read r =>
    obtain ⟨hfeed, hpending, ⟨split, summary, hresolve, covers, hst⟩ | ⟨hnone, hcovers, hfolded⟩⟩ :=
      read_cases hstep
    · have hiff := hst.honest_iff h hhonest hfeed
      rw [and_iff_left hroom] at hiff
      have hclean : KeepsAll viewer contextWindow s (.read r) ↔ Honest viewer t := by
        rw [hiff]
        exact ⟨fun hkeeps => hkeeps split summary hresolve, fun hclean _ _ _ => hclean⟩
      rw [hclean]
      refine ⟨Lossless.honest, fun ht => ?_⟩
      refine (lossless_iff (h.stored hst hfeed hpending (hiff.mp ht) hroom)).mpr ⟨ht, ?_⟩
      have hgrow : s.covers ≤ t.covers := by
        obtain ⟨o, ho, hseq⟩ := (splitTail_covers hst.largest).mem
        have := (hst.mem_overflow ho).2.1
        rw [hst.moved]
        lia
      refine Nat.le_trans (List.Sublist.length_le ?_) hroom
      simp only [Coverage.beyond, hfeed]
      refine List.monotone_filter_right _ fun m hm => ?_
      simp only [decide_eq_true_eq] at hm ⊢
      exact ⟨hm.1, Nat.lt_of_le_of_lt hgrow hm.2⟩
    · refine iff_of_true (fun m hm hseed => ?_) fun split summary h => absurd h (hnone _ _)
      rw [hfeed] at hm
      rw [hfeed, hcovers, hfolded]
      exact hs m hm hseed

end Laws

/-- What a fold keeps is read again exactly when its cut is clean; over a run nothing is lost exactly
when every stored fold is clean and every written row finds room. -/
theorem retained_and_lossless (viewer : Viewer) :
    (∀ f, Reachable (feedStep viewer) .init f → ∀ labels since keepBudget,
      (∀ covers,
        (splitTail (contextTail viewer labels since f.thread) keepBudget).covers = some covers →
        ∀ row ∈ (splitTail (contextTail viewer labels since f.thread) keepBudget).keep,
          covers < row.seq ∧ row ∈ contextTail viewer labels covers f.thread) ↔
        CleanCut viewer labels since f.thread keepBudget) ∧
    ∀ contextWindow as, Always (coverageStep viewer contextWindow) (Lossless viewer) .init as ↔
      Steps (coverageStep viewer contextWindow) (KeepsAll viewer contextWindow) .init as := by
  constructor
  · intro f h labels since keepBudget
    exact retained_iff_cleanCut (reachable_feedInv h)
  · intro contextWindow as
    refine always_iff_steps (CoverageInv viewer) (fun s a t hi hs hstep ht =>
      hi.step hs.honest hstep ht.honest) (fun s a t hi hs hstep => lossless_step hi hs hstep)
      coverageInv_init ?_ as
    exact fun m hm => absurd hm List.not_mem_nil

namespace Sample

section Interleaved

variable {text : String}

def interleaved (text : String) : List FeedAct :=
  List.replicate 3 (post text) ++ [.toolUse [.toolCall Threads.Sample.callA]] ++
    List.replicate 4 (post text) ++ [.toolResult [("found", false)]]

def useRow : ThreadMessage :=
  { toolUseMessage Threads.Sample.viewer [.toolCall Threads.Sample.callA] with seq := 4 }

def resultRow : ThreadMessage :=
  { toolResultMessage Threads.Sample.viewer [Threads.Sample.callA] [("found", false)] with seq := 9 }

def interleavedFeed (text : String) : Feed where
  thread := ⟨9, [posted text 1, posted text 2, posted text 3, useRow, posted text 5, posted text 6,
    posted text 7, posted text 8, resultRow]⟩
  pending := none
  pairs := [(4, 9)]

theorem run_interleaved : run (feedStep Threads.Sample.viewer) .init (interleaved text) =
    some (interleavedFeed text) := rfl

theorem renderRow_use : renderRow Threads.Sample.viewer unlabelled useRow =
    .assistant [.toolCall Threads.Sample.callA] := rfl

theorem renderRow_result : renderRow Threads.Sample.viewer unlabelled resultRow =
    .user [.toolResult ⟨Threads.Sample.callA.id, "found", false⟩] := by decide +kernel

theorem contextRows_interleaved :
    (interleavedFeed text).thread.contextRows Threads.Sample.viewer.agent 0 =
      (interleavedFeed text).thread.messages := by
  simp [Thread.contextRows, Thread.visible, interleavedFeed, newest, MAX_CONTEXT_MESSAGES, posted,
    useRow, resultRow, ThreadMessage.visibleTo, postedMessage, toolUseMessage, toolResultMessage,
    Threads.Sample.viewer]

def interleavedRows (text : String) : List ThreadMessage :=
  [posted text 1, posted text 2, posted text 3, useRow, resultRow, posted text 5, posted text 6,
    posted text 7, posted text 8]

theorem tailOf_interleaved :
    tailOf Threads.Sample.viewer unlabelled (interleavedFeed text).thread.messages =
      interleavedRows text := by
  have hscan : scanned (interleavedFeed text).thread.messages = interleavedRows text := rfl
  have hcall : ∃ u ∈ (interleavedFeed text).thread.messages,
      Threads.Sample.callA.id ∈ callIds (renderRow Threads.Sample.viewer unlabelled u) :=
    ⟨useRow, by simp [interleavedFeed], by decide⟩
  rw [tailOf, hscan, List.filter_eq_self]
  simpa [interleavedRows, kept, renderRow_posted, renderRow_use, renderRow_result, toolResultHead]
    using hcall

theorem tail_interleaved : contextTail Threads.Sample.viewer unlabelled 0
    (interleavedFeed text).thread =
      (interleavedRows text).map (toRow Threads.Sample.viewer unlabelled) := by
  rw [contextTail_eq, contextRows_interleaved, tailOf_interleaved]

theorem messages_interleaved : messagesOf (contextTail Threads.Sample.viewer unlabelled 0
    (interleavedFeed text).thread) =
      List.replicate 3 (.user [.text text]) ++ [.assistant [.toolCall Threads.Sample.callA],
        .user [.toolResult ⟨Threads.Sample.callA.id, "found", false⟩]] ++
      List.replicate 4 (.user [.text text]) := by
  rw [tail_interleaved, messagesOf, List.map_map]
  simp [interleavedRows, toRow, renderRow_posted, renderRow_use, renderRow_result, List.replicate]

theorem cut_interleaved (h : text.length = 65536) : cutIndex (contextTail Threads.Sample.viewer
    unlabelled 0 (interleavedFeed text).thread) 50000 = 6 := by
  have hplain : isImportantRow (.user [.text text]) = false := rfl
  have hkeep : keepCount (contextTail Threads.Sample.viewer unlabelled 0
      (interleavedFeed text).thread) 50000 = 3 := by
    simp [keepCount, tail_interleaved, interleavedRows, toRow, renderRow_posted, keepFrom,
      messageTokens_long h, saturate, U32_MAX, hplain]
  rw [cutIndex, hkeep, messages_interleaved]
  simp [toolSafeCutIndex, splitsPair, List.replicate, toolResultHead]

theorem deferred_interleaved : Deferred (interleavedFeed text).thread.messages 6 := by
  refine ⟨useRow, by simp [interleavedFeed], rfl, resultRow, by simp [interleavedFeed], rfl,
    by decide, by decide, fun y hy hclose => ?_⟩
  simp only [interleavedFeed, List.mem_cons, List.not_mem_nil, or_false] at hy
  rcases hy with rfl | rfl | rfl | rfl | rfl | rfl | rfl | rfl | rfl
  case inr.inr.inr.inr.inr.inr.inr.inr => exact .inr (by decide)
  all_goals cases hclose

theorem estimate_interleaved (h : text.length = 65536) : estimateTokens none (messagesOf
    (contextTail Threads.Sample.viewer unlabelled 0 (interleavedFeed text).thread)) = 114689 := by
  rw [messages_interleaved, estimateTokens]
  simp [List.replicate, messageChars, userChars, assistantChars, h]
  decide

theorem lost_interleaved (h : text.length = 65536) : ∃ t,
    run (coverageStep Threads.Sample.viewer 200000) .init
      ((interleaved text).map .feed ++ [.read firstRead]) = some t ∧
      (∃ row ∈ (splitTail (contextTail Threads.Sample.viewer unlabelled 0 t.feed.thread) 50000).keep,
        row.seq = 6 ∧ row.seq ≤ t.covers) ∧
      ¬ Lossless Threads.Sample.viewer t := by
  have hinv : CoverageInv Threads.Sample.viewer { Coverage.init with feed := interleavedFeed text } :=
    coverageInv_feed (run_path run_interleaved)
  have hm : (tailOf Threads.Sample.viewer unlabelled ((interleavedFeed text).thread.contextRows
      Threads.Sample.viewer.agent 0))[cutIndex (contextTail Threads.Sample.viewer unlabelled 0
        (interleavedFeed text).thread) 50000]? = some (posted text 6) := by
    rw [cut_interleaved h, contextRows_interleaved, tailOf_interleaved]
    rfl
  have hdeferred : Deferred ((interleavedFeed text).thread.contextRows
      Threads.Sample.viewer.agent 0) (posted text 6).seq := by
    rw [contextRows_interleaved]
    exact deferred_interleaved
  obtain ⟨row, hrow, hlt⟩ := overflow_of_deferred hinv.feed hm hdeferred
  have hsize : contextTokenBudget 200000 < firstRead.measured.getD (estimateTokens none
      (messagesOf (Coverage.tail Threads.Sample.viewer firstRead
        { Coverage.init with feed := interleavedFeed text }))) := by
    refine Nat.lt_of_lt_of_eq ?_ (estimate_interleaved h).symm
    decide
  obtain ⟨split, summary, hresolve⟩ := resolve_of_trigger rfl hsize (List.ne_nil_of_mem hrow)
    (fun _ => rfl) (rfl : extractText answer = _)
  obtain ⟨t, ht⟩ : ∃ t, coverageStep Threads.Sample.viewer 200000
      { Coverage.init with feed := interleavedFeed text } (.read firstRead) = some t :=
    read_enabled firstRead rfl
  obtain ⟨hfeed, -, ⟨_, _, _, covers, hst⟩ | ⟨hnone, -⟩⟩ := read_cases ht
  · refine ⟨t, ?_, ⟨toRow Threads.Sample.viewer unlabelled (posted text 6), ?_, rfl, ?_⟩,
      fun hlossless => ?_⟩
    · rw [run_append, run_feed]
      simp only [Coverage.init, run_interleaved, Option.map_some, Option.bind_some, run_cons, run_nil]
      exact congrArg (Option.bind · some) ht
    · rw [hfeed]
      exact mem_keep.mpr ⟨_, drop_of_getElem? hm ▸ List.mem_cons_self, rfl⟩
    · rw [hst.moved]
      exact Nat.le_trans (Nat.le_of_lt hlt) (hst.mem_overflow hrow).1
    · have hclean := ((hst.honest_iff hinv (honest_uncovered rfl) hfeed).mp hlossless.honest).1
      exact cleanCut_iff.mp hclean _ hm hdeferred
  · exact absurd hresolve (hnone split summary)

end Interleaved

end Sample

theorem retained_interleaved :
    (∀ covers, (splitTail (contextTail Threads.Sample.viewer Sample.unlabelled 0
        (Sample.interleavedFeed Sample.long).thread) 50000).covers = some covers →
      ∀ row ∈ (splitTail (contextTail Threads.Sample.viewer Sample.unlabelled 0
        (Sample.interleavedFeed Sample.long).thread) 50000).keep,
        covers < row.seq ∧ row ∈ contextTail Threads.Sample.viewer Sample.unlabelled covers
          (Sample.interleavedFeed Sample.long).thread) ↔
      CleanCut Threads.Sample.viewer Sample.unlabelled 0 (Sample.interleavedFeed Sample.long).thread
        50000 :=
  (retained_and_lossless Threads.Sample.viewer).1 _ (run_path Sample.run_interleaved) _ _ _

/-- Three posts written while a tool ran are kept once, then neither read again nor folded. -/
theorem lossless_interleaved : ∃ t,
    run (coverageStep Threads.Sample.viewer 200000) .init
      ((Sample.interleaved Sample.long).map .feed ++ [.read Sample.firstRead]) = some t ∧
      (∃ row ∈ (splitTail (contextTail Threads.Sample.viewer Sample.unlabelled 0 t.feed.thread)
        50000).keep, row.seq = 6 ∧ row.seq ≤ t.covers) ∧
      ¬ Lossless Threads.Sample.viewer t :=
  Sample.lost_interleaved Sample.length_long

end Patom.AgentCore
