import Patom.AgentCore.Dispatch
import Patom.Text
import Patom.Threads.Feed

open Patom.Provider
open Patom.Threads

namespace Patom.AgentCore

def CONTEXT_TOKEN_BUDGET_DIVISOR : Nat := 2
def SUMMARIZER_INPUT_BUDGET : Nat := 24000
def MAX_COMPACTION_CHUNKS : Nat := 8
def COMPACTION_COOLDOWN : Duration := .fromSecs 300
def MAX_SUMMARY_TOKENS : Nat := 4000
def SEED_ANCHOR_MSGS : Nat := 1
def IMPORTANCE_KEEP_SLACK : Nat := 2000
def DECISION_MARKERS : List String := ["decision:", "decided:", "conclusion:"]
def CHARS_PER_TOKEN : Nat := 4

def U32_MAX : Nat := 2 ^ 32 - 1

def USIZE_MAX : Nat := 2 ^ 64 - 1

def saturate (n : Nat) : Nat := min n U32_MAX

def userChars : UserContent → Nat
  | .text text => text.length
  | .toolResult result => result.output.length
  | .image att | .file att => att.mime.asMime.length

def assistantChars : AssistantContent → Nat
  | .text text | .reasoning text => text.length
  | .toolCall call => call.input.length

def messageChars : ChatMessage → Nat
  | .user contents => (contents.map userChars).sum
  | .assistant contents => (contents.map assistantChars).sum

def messageTokens (message : ChatMessage) : Nat := saturate (messageChars message / CHARS_PER_TOKEN)

def estimateTokens (summary : Option String) (tail : List ChatMessage) : Nat :=
  saturate ((summary.elim 0 String.length + (tail.map messageChars).sum) / CHARS_PER_TOKEN)

def startsWithDecisionMarker (text : String) : Bool :=
  match ((splitLines text.toList).map trim).find? (· ≠ []) with
  | none => false
  | some line => DECISION_MARKERS.any fun m =>
    eqIgnoreAsciiCase (line.take m.length) m.toList

def isImportantRow : ChatMessage → Bool
  | .user contents => contents.any fun
    | .toolResult r => r.isError
    | .text _ | .image _ | .file _ => false
  | .assistant contents => contents.any fun
    | .text text | .reasoning text => startsWithDecisionMarker text
    | .toolCall _ => false

/-- Walks from the newest row; past the budget only important rows within the slack go on. -/
def keepFrom (keepBudget acc count : Nat) : List TailRow → Nat
  | [] => count
  | row :: rows =>
    let acc := saturate (acc + messageTokens row.message)
    let rescue := isImportantRow row.message ∧ acc ≤ saturate (keepBudget + IMPORTANCE_KEEP_SLACK)
    if keepBudget < acc ∧ 1 ≤ count ∧ ¬ rescue then count
    else keepFrom keepBudget acc (count + 1) rows

def keepCount (rows : List TailRow) (keepBudget : Nat) : Nat :=
  min (max (keepFrom keepBudget 0 0 rows.reverse) 1) (max rows.length 1)

def assistantCalls (message : ChatMessage) (id : ToolCallId) : Bool := id ∈ callIds message

def splitsPair (tail : List ChatMessage) (cut : Nat) : Bool :=
  match tail[cut]?.bind toolResultHead, tail[cut - 1]? with
  | some id, some message => assistantCalls message id
  | _, _ => false

def toolSafeCutIndex (tail : List ChatMessage) (targetKeep : Nat) : Nat :=
  let cut := tail.length - targetKeep
  if 0 < cut ∧ cut < tail.length ∧ splitsPair tail cut then cut - 1 else cut

/-- `covers` is the largest folded number. -/
def peelSeedAnchor (rows : List TailRow) : List TailRow × List TailRow × Option Seq :=
  let anchor := rows.filter fun row => row.seq ≤ SEED_ANCHOR_MSGS
  let overflow := rows.filter fun row => ¬ row.seq ≤ SEED_ANCHOR_MSGS
  (anchor, overflow, overflow.foldl (fun covers row => some (covers.elim row.seq (max row.seq))) none)

structure ChunkState where
  chunks : List (List ChatMessage)
  current : List ChatMessage
  acc : Nat

def ChunkState.push (budget : Nat) (s : ChunkState) (message : ChatMessage) : ChunkState :=
  let tokens := messageTokens message
  if budget < saturate (s.acc + tokens) ∧ s.current ≠ [] then
    ⟨s.chunks ++ [s.current], [message], tokens⟩
  else ⟨s.chunks, s.current ++ [message], saturate (s.acc + tokens)⟩

def splitChunks (overflow : List ChatMessage) (budget : Nat) : List (List ChatMessage) :=
  let s := overflow.foldl (ChunkState.push budget) ⟨[], [], 0⟩
  if s.current = [] then s.chunks else s.chunks ++ [s.current]

inductive CompactionError
  | summarizerTimeout
  | provider (detail : String)
  | empty
  | wallClockExceeded
  deriving DecidableEq

def AssistantContent.text? : AssistantContent → Option String
  | .text text => some text
  | .reasoning _ | .toolCall _ => none

def extractText (response : ChatResponse) : Option String :=
  let out := String.join (response.content.filterMap AssistantContent.text?)
  if trim out.toList = [] then none else some out

/-- `replies` answers the folds in turn; the responses are what the pass is metered by. -/
def foldChunks (replies : Nat → Except CompactionError ChatResponse) (fold : Nat) (acc : String) :
    List (List ChatMessage) → Except CompactionError String × List ChatResponse
  | [] => (.ok acc, [])
  | _ :: chunks =>
    match replies fold with
    | .error e => (.error e, [])
    | .ok response =>
      match extractText response with
      | none => (.error .empty, [response])
      | some acc =>
        let (result, samples) := foldChunks replies (fold + 1) acc chunks
        (result, response :: samples)

def SUMMARY_SECTIONS : List String :=
  ["Facts:", "Decisions:", "Constraints:", "Open items:", "Progress:"]

def emptySummaryTemplate : String := String.intercalate "\n" SUMMARY_SECTIONS

/-- Past `MAX_COMPACTION_CHUNKS` the oldest chunks are dropped. -/
def runFoldPass (replies : Nat → Except CompactionError ChatResponse) (prev : Option String)
    (overflow : List ChatMessage) : Except CompactionError String × List ChatResponse :=
  let chunks := splitChunks overflow SUMMARIZER_INPUT_BUDGET
  foldChunks replies 0 (prev.getD emptySummaryTemplate)
    (chunks.drop (chunks.length - MAX_COMPACTION_CHUNKS))

def SUMMARY_CAP_CHARS : Nat := MAX_SUMMARY_TOKENS * CHARS_PER_TOKEN

def sectionBodies : List (List Char) → List Char → Option (List (List Char))
  | [], text => some [text]
  | header :: headers, text => do
    let (before, after) ← splitOnce header text
    return before :: (← sectionBodies headers after)

def joinSections (bodies : List (List Char)) (capChars : Nat) : Option (List Char) :=
  let headers := SUMMARY_SECTIONS.map String.toList
  let headerChars := (headers.map List.length).sum
  let totalBody := (bodies.map List.length).sum
  let bodyBudget := capChars - (headerChars + (SUMMARY_SECTIONS.length - 1))
  if totalBody = 0 ∨ bodyBudget = 0 then none
  else
    some (['\n'].intercalate ((headers.zip bodies).map fun (header, body) =>
      header ++ body.take (min (bodyBudget * body.length) USIZE_MAX / totalBody)))

def clampWithinSections (text : List Char) (capChars : Nat) : Option (List Char) := do
  joinSections (← sectionBodies (SUMMARY_SECTIONS.map String.toList) text).tail capChars

structure CompactionSummary where
  asStr : String
  deriving DecidableEq

def CompactionSummary.clamp (text : String) : CompactionSummary :=
  if text.length ≤ SUMMARY_CAP_CHARS then ⟨text⟩
  else
    match clampWithinSections text.toList SUMMARY_CAP_CHARS with
    | some bySection => ⟨String.ofList bySection⟩
    | none => ⟨String.ofList (text.toList.take SUMMARY_CAP_CHARS)⟩

def CompactionSummary.estimatedTokens (summary : CompactionSummary) : Nat :=
  saturate (summary.asStr.length / CHARS_PER_TOKEN)

structure ThreadCompaction where
  summary : String
  coversThroughSeq : Seq
  summaryTokens : Nat
  failedAttempts : Nat
  cooldownUntil : Option Time
  deriving DecidableEq

structure AgentContext where
  summary : Option CompactionSummary
  messages : List ChatMessage
  deriving DecidableEq

structure PriorCompaction where
  summary : Option String
  failedAttempts : Nat

structure Split where
  anchor : List TailRow
  overflow : List TailRow
  covers : Option Seq
  keep : List TailRow
  deriving DecidableEq

def messagesOf (rows : List TailRow) : List ChatMessage := rows.map (·.message)

def cutIndex (rows : List TailRow) (keepBudget : Nat) : Nat :=
  toolSafeCutIndex (messagesOf rows) (keepCount rows keepBudget)

def splitTail (rows : List TailRow) (keepBudget : Nat) : Split :=
  let cut := cutIndex rows keepBudget
  let (anchor, overflow, covers) := peelSeedAnchor (rows.take cut)
  ⟨anchor, overflow, covers, rows.drop cut⟩

inductive Compacted
  | floor
  | summarized (split : Split) (summary : CompactionSummary)
  | failed (e : CompactionError)
  deriving DecidableEq

def contextTokenBudget (contextWindow : Nat) : Nat := contextWindow / CONTEXT_TOKEN_BUDGET_DIVISOR

def floorContext (prev : Option String) (tail : List TailRow) : AgentContext :=
  ⟨prev.map CompactionSummary.clamp, messagesOf tail⟩

def compactOverflow (contextWindow : Nat) (prior : PriorCompaction) (tail : List TailRow)
    (replies : Nat → Except CompactionError ChatResponse) : AgentContext × Compacted :=
  let split := splitTail tail (contextTokenBudget contextWindow / 2)
  let kept := messagesOf (split.anchor ++ split.keep)
  if split.overflow = [] then (⟨prior.summary.map CompactionSummary.clamp, kept⟩, .floor)
  else
    match (runFoldPass replies prior.summary (messagesOf split.overflow)).1 with
    | .ok text =>
      let summary := CompactionSummary.clamp text
      (⟨some summary, kept⟩, .summarized split summary)
    | .error e => (⟨prior.summary.map CompactionSummary.clamp, kept⟩, .failed e)

/-- `measured` is the last full turn's prompt size, when it is known. -/
def resolveAgentContext (contextWindow : Nat) (comp : Option ThreadCompaction) (tail : List TailRow)
    (measured : Option Nat) (now : Time) (replies : Nat → Except CompactionError ChatResponse) :
    AgentContext × Compacted :=
  let prev := (comp.map (·.summary)).filter (· ≠ "")
  let size := measured.getD (estimateTokens prev (messagesOf tail))
  if size ≤ contextTokenBudget contextWindow ∧ tail.length ≤ MAX_CONTEXT_MESSAGES then
    (floorContext prev tail, .floor)
  else if (comp.bind (·.cooldownUntil)).any (fun until_ => now < until_) then
    (floorContext prev tail, .floor)
  else
    compactOverflow contextWindow ⟨prev, comp.elim 0 (·.failedAttempts)⟩ tail replies

def saveCompaction (summary : CompactionSummary) (covers : Seq) : ThreadCompaction :=
  ⟨summary.asStr, covers, summary.estimatedTokens, 0, none⟩

def bumpCooldown (comp : Option ThreadCompaction) (until_ : Time) : ThreadCompaction :=
  match comp with
  | none => ⟨"", Seq.ZERO, 0, 1, some until_⟩
  | some c => { c with failedAttempts := c.failedAttempts + 1, cooldownUntil := some until_ }

/-- What is stored after a read; a fold that covers nothing stores nothing. -/
def Compacted.store (now : Time) (comp : Option ThreadCompaction) : Compacted → Option ThreadCompaction
  | .floor => comp
  | .summarized split summary => (split.covers.map (saveCompaction summary)).or comp
  | .failed _ => some (bumpCooldown comp (now + COMPACTION_COOLDOWN))

section Cut

theorem splitsPair_head {tail : List ChatMessage} {cut : Nat} (h : splitsPair tail cut) :
    ∃ message, tail[cut - 1]? = some message ∧ callIds message ≠ [] := by
  simp only [splitsPair] at h
  split at h
  case h_1 id message _ hprev =>
    refine ⟨message, hprev, fun hnil => ?_⟩
    simp [assistantCalls, hnil] at h
  case h_2 => cases h

theorem toolResultHead_of_calls {message : ChatMessage} (h : callIds message ≠ []) :
    toolResultHead message = none := by
  cases message with
  | user contents => exact absurd rfl h
  | assistant contents => rfl

theorem toolSafeCutIndex_safe (tail : List ChatMessage) (targetKeep : Nat)
    (hpos : 0 < toolSafeCutIndex tail targetKeep)
    (hlt : toolSafeCutIndex tail targetKeep < tail.length) :
    splitsPair tail (toolSafeCutIndex tail targetKeep) = false := by
  simp only [toolSafeCutIndex] at hpos hlt ⊢
  split at hpos
  case isTrue h =>
    obtain ⟨message, hprev, hcalls⟩ := splitsPair_head h.2.2
    rw [if_pos h, splitsPair, hprev, Option.bind_some, toolResultHead_of_calls hcalls]
  case isFalse h =>
    rw [if_neg h] at hlt ⊢
    simpa [hpos, hlt] using h

theorem keepFrom_le (keepBudget acc count : Nat) (rows : List TailRow) :
    keepFrom keepBudget acc count rows ≤ count + rows.length := by
  induction rows generalizing acc count with
  | nil => exact Nat.le_refl count
  | cons row rows ih =>
    simp only [keepFrom, List.length_cons]
    split
    · omega
    · exact Nat.le_trans (ih _ _) (by omega)

theorem cutIndex_safe {rows : List TailRow} {keepBudget : Nat} {p r : TailRow}
    (hcut : 0 < cutIndex rows keepBudget) (hp : rows[cutIndex rows keepBudget - 1]? = some p)
    (hr : rows[cutIndex rows keepBudget]? = some r) {id : ToolCallId}
    (hid : toolResultHead r.message = some id) : id ∉ callIds p.message := by
  have hlt : cutIndex rows keepBudget < (messagesOf rows).length := by
    simpa [messagesOf] using (List.getElem?_eq_some_iff.mp hr).1
  have hsafe := toolSafeCutIndex_safe (messagesOf rows) (keepCount rows keepBudget) hcut hlt
  rw [← cutIndex] at hsafe
  simpa [splitsPair, messagesOf, hr, hp, hid, assistantCalls] using hsafe

end Cut

structure Covers (overflow : List TailRow) (covers : Seq) : Prop where
  mem : ∃ row ∈ overflow, row.seq = covers
  le : ∀ row ∈ overflow, row.seq ≤ covers

section Peel

abbrev peelStep (covers : Option Seq) (row : TailRow) : Option Seq :=
  some (covers.elim row.seq (max row.seq))

theorem foldl_peelStep {rows : List TailRow} {c covers : Seq}
    (h : rows.foldl peelStep (some c) = some covers) :
    c ≤ covers ∧ (∀ row ∈ rows, row.seq ≤ covers) ∧
      (covers = c ∨ ∃ row ∈ rows, row.seq = covers) := by
  induction rows generalizing c with
  | nil =>
    obtain rfl := Option.some.inj h
    exact ⟨Nat.le_refl c, fun row hrow => absurd hrow List.not_mem_nil, .inl rfl⟩
  | cons row rows ih =>
    obtain ⟨hle, hall, hmem⟩ := ih (c := max row.seq c) h
    refine ⟨Nat.le_trans (Nat.le_max_right _ _) hle,
      List.forall_mem_cons.mpr ⟨Nat.le_trans (Nat.le_max_left _ _) hle, hall⟩, ?_⟩
    rcases hmem with hmem | ⟨r, hr, hseq⟩
    · rcases Nat.le_total row.seq c with hle | hle
      · exact .inl (hmem.trans (Nat.max_eq_right hle))
      · exact .inr ⟨row, List.mem_cons_self, (hmem.trans (Nat.max_eq_left hle)).symm⟩
    · exact .inr ⟨r, List.mem_cons_of_mem row hr, hseq⟩

theorem covers_of_foldl {rows : List TailRow} {covers : Seq}
    (h : rows.foldl peelStep none = some covers) : Covers rows covers := by
  cases rows with
  | nil => cases h
  | cons row rows =>
    obtain ⟨hle, hall, hmem⟩ := foldl_peelStep (c := row.seq) h
    refine ⟨?_, List.forall_mem_cons.mpr ⟨hle, hall⟩⟩
    rcases hmem with rfl | ⟨r, hr, hseq⟩
    · exact ⟨row, List.mem_cons_self, rfl⟩
    · exact ⟨r, List.mem_cons_of_mem row hr, hseq⟩

theorem foldl_peelStep_ne_none {rows : List TailRow} (h : rows ≠ []) :
    ∃ covers, rows.foldl peelStep none = some covers := by
  rcases List.eq_nil_or_concat rows with rfl | ⟨init, row, rfl⟩
  · exact absurd rfl h
  · rw [List.concat_eq_append, List.foldl_append]
    exact ⟨_, rfl⟩

end Peel

section Split

variable (rows : List TailRow) (keepBudget : Nat)

theorem splitTail_keep : (splitTail rows keepBudget).keep = rows.drop (cutIndex rows keepBudget) := rfl

theorem splitTail_overflow : (splitTail rows keepBudget).overflow =
    (rows.take (cutIndex rows keepBudget)).filter fun row => ¬ row.seq ≤ SEED_ANCHOR_MSGS := rfl

variable {rows keepBudget}

theorem mem_overflow {row : TailRow} : row ∈ (splitTail rows keepBudget).overflow ↔
    row ∈ rows.take (cutIndex rows keepBudget) ∧ 1 < row.seq := by
  simp [splitTail_overflow, SEED_ANCHOR_MSGS]

theorem splitTail_covers {covers : Seq} (h : (splitTail rows keepBudget).covers = some covers) :
    Covers (splitTail rows keepBudget).overflow covers :=
  covers_of_foldl h

theorem splitTail_covers_some (h : (splitTail rows keepBudget).overflow ≠ []) :
    ∃ covers, (splitTail rows keepBudget).covers = some covers :=
  foldl_peelStep_ne_none h

end Split

end Patom.AgentCore
