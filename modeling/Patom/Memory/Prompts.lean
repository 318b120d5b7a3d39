import Mathlib.Data.List.TakeWhile
import Patom.Foundation.Suffix
import Patom.Memory.Types
import Patom.Provider.Chat
import Patom.Slack.Bridge

open Patom.Foundation
open Patom.Provider
open Patom.Slack (Prompt PROMPT_MAX_BYTES)

namespace Patom.Memory

section Truncate

def isCharBoundary (s : String) (i : Nat) : Bool := (splitAtByte i s.toList).isSome

def nextBoundary (s : String) (idx : Nat) : Nat :=
  if idx < s.utf8ByteSize ∧ isCharBoundary s idx = false then nextBoundary s (idx + 1) else idx
termination_by s.utf8ByteSize - idx

def truncateFromStart (s : String) (maxBytes : Nat) : Except Fault String :=
  if s.utf8ByteSize ≤ maxBytes then .ok s
  else
    match splitAtByte (nextBoundary s (s.utf8ByteSize - maxBytes)) s.toList with
    | some (_, rest) => .ok (String.ofList rest)
    | none => .error (.panic "start byte index is not a char boundary")

theorem splitAtByte_ok {i : Nat} {text before after : List Char}
    (h : splitAtByte i text = some (before, after)) :
    text = before ++ after ∧ byteLen before = i := by
  induction text generalizing i before after with
  | nil =>
    cases i with
    | zero =>
      cases h
      exact ⟨rfl, rfl⟩
    | succ i => cases h
  | cons c text ih =>
    cases i with
    | zero =>
      cases h
      exact ⟨rfl, rfl⟩
    | succ i =>
      rw [splitAtByte] at h
      split at h
      · next hle =>
        obtain ⟨⟨front, back⟩, hsplit, hcons⟩ := Option.map_eq_some_iff.mp h
        obtain ⟨htext, hlen⟩ := ih hsplit
        cases hcons
        refine ⟨by rw [htext, List.cons_append], ?_⟩
        rw [byteLen_cons, hlen]
        omega
      · cases h

theorem nextBoundary_spec {s : String} {idx : Nat} (h : idx ≤ s.utf8ByteSize) :
    ∃ before after, s.toList = before ++ after ∧ nextBoundary s idx = byteLen before ∧
      idx ≤ byteLen before ∧ ∀ front c, before = front ++ [c] → byteLen front < idx := by
  fun_induction nextBoundary s idx with
  | case1 idx hinside ih =>
    obtain ⟨before, after, htext, hend, hle, hfront⟩ := ih hinside.1
    refine ⟨before, after, htext, hend, Nat.le_of_succ_le hle, fun front c hbefore => ?_⟩
    have hlt := hfront front c hbefore
    have hne : byteLen front ≠ idx := by
      rintro rfl
      have hsplit := splitAtByte_append front (c :: after)
      have hnone := hinside.2
      rw [isCharBoundary, htext, hbefore, List.append_assoc, List.singleton_append, hsplit] at hnone
      cases hnone
    omega
  | case2 idx hstop =>
    have hboundary : (splitAtByte idx s.toList).isSome := by
      by_cases hlt : idx < s.utf8ByteSize
      · have hnot := not_and.mp hstop hlt
        rw [Bool.not_eq_false] at hnot
        exact hnot
      · have hend : idx = byteLen s.toList := by
          rw [byteLen_toList]
          omega
        have hsplit := splitAtByte_append s.toList []
        rw [List.append_nil] at hsplit
        rw [hend, hsplit]
        rfl
    obtain ⟨⟨before, after⟩, hsplit⟩ := Option.isSome_iff_exists.mp hboundary
    obtain ⟨htext, hlen⟩ := splitAtByte_ok hsplit
    refine ⟨before, after, htext, hlen.symm, hlen.ge, fun front c hbefore => ?_⟩
    have hpos := c.utf8Size_pos
    rw [hbefore, byteLen_append, byteLen_cons, byteLen_nil] at hlen
    omega

theorem truncateFromStart_longest {s : String} {maxBytes : Nat} (h : maxBytes < s.utf8ByteSize) :
    ∃ kept, truncateFromStart s maxBytes = .ok kept ∧
      LongestSuffix (fun text => byteLen text ≤ maxBytes) s.toList kept.toList := by
  obtain ⟨before, after, htext, hend, hle, hfront⟩ :=
    nextBoundary_spec (Nat.sub_le s.utf8ByteSize maxBytes)
  have hlen : byteLen before + byteLen after = s.utf8ByteSize := by
    rw [← byteLen_append, ← htext, byteLen_toList]
  refine ⟨String.ofList after, ?_, ?_⟩
  · rw [truncateFromStart, if_neg (by omega), hend, htext, splitAtByte_append]
  · have hne : before ≠ [] := by
      rintro rfl
      rw [byteLen_nil] at hle
      omega
    obtain ⟨front, c, rfl⟩ := List.eq_nil_or_concat' before |>.resolve_left hne
    have hpassed := hfront front c rfl
    rw [byteLen_append, byteLen_cons, byteLen_nil] at hlen hle
    rw [htext, List.append_assoc, List.singleton_append, String.toList_ofList]
    refine LongestSuffix.of_cons (fun hsuffix hfits => ?_) (by omega) ?_
    · obtain ⟨front, rfl⟩ := hsuffix
      rw [byteLen_append] at hfits
      omega
    · rw [byteLen_cons]
      omega

end Truncate

section Render

def renderUserContent : UserContent → String
  | .text text => text
  | .toolResult result =>
    "[tool-result " ++ result.callId.asStr ++ (if result.isError then ": err]" else ": ok]")
  | .image att => "[image: " ++ att.filename ++ "]"
  | .file att => "[file: " ++ att.filename ++ "]"

def renderAssistantContent : AssistantContent → String
  | .text text | .reasoning text => text
  | .toolCall call => "[tool-call " ++ call.name.asStr ++ "(" ++ call.input ++ ")]"

def renderChatMessage : ChatMessage → String
  | .user blocks => "User: " ++ String.join (blocks.map renderUserContent) ++ "\n"
  | .assistant blocks => "Assistant: " ++ String.join (blocks.map renderAssistantContent) ++ "\n"

def renderTranscript (slice : List ChatMessage) : String :=
  String.join (slice.map renderChatMessage)

structure FlaggedEvent extends ContradictionEventRow where
  reason : String

variable (toRfc3339 : Time → String)

def renderPairEntry (label : String) (id : MemoryId) (row : Option MemoryRow) : String :=
  label ++ ":\n" ++ "  Id: " ++ Uuid.display id ++ "\n" ++
  match row with
  | none => "  [no longer exists — likely forgotten before resolution]\n"
  | some r =>
    "  Content: " ++ r.content.asStr ++ "\n" ++
    "  Kind: " ++ r.kind.asStr ++ "   State: " ++ r.state.asStr ++ "   Pinned: " ++
      toString r.pinned ++ "\n" ++
    "  Created: " ++ toRfc3339 r.createdAt ++ "\n" ++
    "  Last validated: " ++ toRfc3339 r.lastValidatedAt ++ "\n" ++
    "  Access count: " ++ toString r.accessCount ++ "\n" ++
    match r.sourceTurnId with
    | some turn => "  Source turn: " ++ Uuid.display turn ++ "\n"
    | none => "  Source turn: (operator note or librarian merge)\n"

def renderPair (ev : FlaggedEvent) (a b : Option MemoryRow) : String :=
  "Reason flagged: " ++ ev.reason ++ "\n" ++ "\n" ++
    renderPairEntry toRfc3339 "Memory A (M-1)" ev.memoryA a ++ "\n" ++
    renderPairEntry toRfc3339 "Memory B (M-2)" ev.memoryB b

end Render

section Build

def REFLECTION_HEADER : String :=
  "Reflect on the conversation below. Identify what should be remembered, updated, or " ++
  "forgotten.\n\n## Conversation\n"

def REFLECTION_NOTICE : String := "[earlier turns truncated to fit prompt cap]\n"

def REFLECTION_FALLBACK : String :=
  "Reflect on this session. No new turns are available since the last checkpoint; " ++
  "review existing memory instead."

def RESOLUTION_HEADER : String :=
  "Two of your memories were flagged as contradicting. Decide what to do.\n\n"

def RESOLUTION_NOTICE : String := "[earlier content trimmed to fit prompt cap]\n"

def expectPrompt (invariant : String) (raw : String) : Except Fault Prompt :=
  match Prompt.tryFrom raw with
  | .ok prompt => .ok prompt
  | .error _ => .error (.panic invariant)

/-- A rendering behind a header, trimmed from its head where it does not fit. -/
def promptBody (header notice rendering : String) : Except Fault String :=
  let cap := PROMPT_MAX_BYTES
  if header.utf8ByteSize + rendering.utf8ByteSize ≤ cap then .ok (header ++ rendering)
  else
    let maxBytes := cap - (header.utf8ByteSize + notice.utf8ByteSize)
    (truncateFromStart rendering maxBytes).map fun trimmed => header ++ notice ++ trimmed

def framedPrompt (header notice rendering : String) : Except Fault Prompt := do
  let body ← promptBody header notice rendering
  expectPrompt "invariant: body trimmed to Prompt cap" body

def buildReflectionPrompt (slice : List ChatMessage) : Except Fault Prompt :=
  let transcript := renderTranscript slice
  if trim transcript.toList = [] then
    expectPrompt "invariant: fallback fits Prompt cap" REFLECTION_FALLBACK
  else framedPrompt REFLECTION_HEADER REFLECTION_NOTICE transcript

def buildResolutionPrompt (toRfc3339 : Time → String) (ev : FlaggedEvent)
    (a b : Option MemoryRow) : Except Fault Prompt :=
  framedPrompt RESOLUTION_HEADER RESOLUTION_NOTICE (renderPair toRfc3339 ev a b)

end Build

section Framed

/-- What a prompt is of a rendering: all of it behind the header, or the notice and the newest part
that fits. -/
structure Framed (header notice rendering : String) (prompt : Prompt) : Prop where
  bounded : prompt.asStr.utf8ByteSize ≤ PROMPT_MAX_BYTES
  whole : (header ++ rendering).utf8ByteSize ≤ PROMPT_MAX_BYTES →
    prompt.asStr = header ++ rendering
  newest : PROMPT_MAX_BYTES < (header ++ rendering).utf8ByteSize →
    ∃ kept : String, prompt.asStr = header ++ notice ++ kept ∧ LongestSuffix (fun text =>
      (header ++ notice ++ String.ofList text).utf8ByteSize ≤ PROMPT_MAX_BYTES)
      rendering.toList kept.toList

theorem trim_ne_nil {text : List Char} {c : Char} (hmem : c ∈ text) (hc : isWhitespace c = false) :
    trim text ≠ [] := by
  intro h
  rw [trim, trimEnd, List.reverse_eq_nil_iff, trimStart, List.dropWhile_eq_nil_iff] at h
  cases hstart : trimStart text with
  | nil =>
    rw [trimStart, List.dropWhile_eq_nil_iff] at hstart
    rw [hstart c hmem] at hc
    cases hc
  | cons d rest =>
    have hspace := h d (by rw [hstart, List.mem_reverse]; exact List.mem_cons_self)
    have hhead := List.head?_dropWhile_not isWhitespace text
    rw [trimStart] at hstart
    rw [hstart] at hhead
    simp [hspace] at hhead

theorem expectPrompt_ok (invariant : String) {raw : String} (htrim : trim raw.toList ≠ [])
    (h : raw.utf8ByteSize ≤ PROMPT_MAX_BYTES) : expectPrompt invariant raw = .ok ⟨raw, htrim, h⟩ := by
  rw [expectPrompt, Prompt.tryFrom, dif_neg htrim, dif_pos h]

theorem framedPrompt_framed {header notice : String} {c : Char} (hmem : c ∈ header.toList)
    (hc : isWhitespace c = false) (hroom : header.utf8ByteSize + notice.utf8ByteSize ≤ PROMPT_MAX_BYTES)
    (rendering : String) :
    ∃ prompt, framedPrompt header notice rendering = .ok prompt ∧
      Framed header notice rendering prompt := by
  have htrim : ∀ rest : String, trim (header ++ rest).toList ≠ [] := by
    intro rest
    rw [String.toList_append]
    exact trim_ne_nil (List.mem_append_left _ hmem) hc
  by_cases hfits : header.utf8ByteSize + rendering.utf8ByteSize ≤ PROMPT_MAX_BYTES
  · have hsize : (header ++ rendering).utf8ByteSize ≤ PROMPT_MAX_BYTES := by
      rwa [String.utf8ByteSize_append]
    refine ⟨⟨header ++ rendering, htrim rendering, hsize⟩, ?_,
      ⟨hsize, fun _ => rfl, fun hlong => absurd hsize (Nat.not_le.mpr hlong)⟩⟩
    have hbody : promptBody header notice rendering = .ok (header ++ rendering) := if_pos hfits
    rw [framedPrompt, hbody]
    exact expectPrompt_ok _ (htrim rendering) hsize
  · have hlong : PROMPT_MAX_BYTES - (header.utf8ByteSize + notice.utf8ByteSize) <
        rendering.utf8ByteSize := by
      omega
    obtain ⟨kept, hkept, hlongest⟩ := truncateFromStart_longest hlong
    have hiff : ∀ text : List Char,
        byteLen text ≤ PROMPT_MAX_BYTES - (header.utf8ByteSize + notice.utf8ByteSize) ↔
          (header ++ notice ++ String.ofList text).utf8ByteSize ≤ PROMPT_MAX_BYTES := by
      intro text
      rw [String.utf8ByteSize_append, String.utf8ByteSize_append, ← byteLen_eq]
      omega
    have hsize : (header ++ notice ++ kept).utf8ByteSize ≤ PROMPT_MAX_BYTES := by
      have hfits := (hiff kept.toList).mp hlongest.fits
      rwa [String.ofList_toList] at hfits
    have hvisible : trim (header ++ notice ++ kept).toList ≠ [] := by
      rw [String.append_assoc]
      exact htrim _
    have hbody : promptBody header notice rendering = .ok (header ++ notice ++ kept) := by
      unfold promptBody
      rw [if_neg hfits]
      exact congrArg (Except.map fun trimmed => header ++ notice ++ trimmed) hkept
    refine ⟨⟨header ++ notice ++ kept, hvisible, hsize⟩, ?_, ⟨hsize, fun hwhole => ?_, fun _ => ?_⟩⟩
    · rw [framedPrompt, hbody]
      exact expectPrompt_ok _ hvisible hsize
    · rw [String.utf8ByteSize_append] at hwhole
      exact absurd hwhole hfits
    · exact ⟨kept, rfl, hlongest.congr hiff⟩

theorem head_renderChatMessage (message : ChatMessage) :
    ∃ c text, (renderChatMessage message).toList = c :: text ∧ isWhitespace c = false := by
  cases message with
  | user blocks =>
    refine ⟨'U', "ser: ".toList ++
      (String.join (blocks.map renderUserContent) ++ "\n").toList, ?_, by decide⟩
    rw [renderChatMessage, String.append_assoc, String.toList_append]
    rfl
  | assistant blocks =>
    refine ⟨'A', "ssistant: ".toList ++
      (String.join (blocks.map renderAssistantContent) ++ "\n").toList, ?_, by decide⟩
    rw [renderChatMessage, String.append_assoc, String.toList_append]
    rfl

theorem trim_renderTranscript (slice : List ChatMessage) :
    trim (renderTranscript slice).toList = [] ↔ slice = [] := by
  constructor
  · intro h
    cases slice with
    | nil => rfl
    | cons message slice =>
      obtain ⟨c, text, hhead, hc⟩ := head_renderChatMessage message
      refine absurd h (trim_ne_nil (c := c) ?_ hc)
      rw [renderTranscript, List.map_cons, String.join_cons, String.toList_append, hhead]
      exact List.mem_cons_self
  · rintro rfl
    rfl

theorem reflectionHeader_visible : 'R' ∈ REFLECTION_HEADER.toList := by
  delta REFLECTION_HEADER
  rw [String.toList_append]
  exact List.mem_append_left _ List.mem_cons_self

theorem resolutionHeader_visible : 'T' ∈ RESOLUTION_HEADER.toList := by
  delta RESOLUTION_HEADER
  exact List.mem_cons_self

theorem emptySlice_ok : ∃ prompt, buildReflectionPrompt [] = .ok prompt ∧
    prompt.asStr = REFLECTION_FALLBACK := by
  have hmem : 'R' ∈ REFLECTION_FALLBACK.toList := by
    delta REFLECTION_FALLBACK
    rw [String.toList_append]
    exact List.mem_append_left _ List.mem_cons_self
  refine ⟨⟨REFLECTION_FALLBACK, trim_ne_nil hmem (by decide), by decide⟩, ?_, rfl⟩
  rw [buildReflectionPrompt, if_pos ((trim_renderTranscript []).mpr rfl)]
  exact expectPrompt_ok _ _ _

/-- The prompts of the background turns are always made, and an oversized one keeps its newest
part. -/
theorem background_prompts_framed (slice : List ChatMessage) (toRfc3339 : Time → String)
    (ev : FlaggedEvent) (a b : Option MemoryRow) :
    (∃ prompt, buildReflectionPrompt slice = .ok prompt ∧
      prompt.asStr.utf8ByteSize ≤ PROMPT_MAX_BYTES ∧
      (slice = [] → prompt.asStr = REFLECTION_FALLBACK) ∧
      (slice ≠ [] → Framed REFLECTION_HEADER REFLECTION_NOTICE (renderTranscript slice) prompt)) ∧
    ∃ prompt, buildResolutionPrompt toRfc3339 ev a b = .ok prompt ∧
      Framed RESOLUTION_HEADER RESOLUTION_NOTICE (renderPair toRfc3339 ev a b) prompt := by
  constructor
  · by_cases hslice : slice = []
    · obtain ⟨prompt, hprompt, htext⟩ := emptySlice_ok
      refine ⟨prompt, hslice ▸ hprompt, prompt.bounded, fun _ => htext,
        fun hne => absurd hslice hne⟩
    · have hroom : REFLECTION_HEADER.utf8ByteSize + REFLECTION_NOTICE.utf8ByteSize ≤
          PROMPT_MAX_BYTES := by decide
      obtain ⟨prompt, hprompt, hframed⟩ := framedPrompt_framed reflectionHeader_visible
        (by decide) hroom (renderTranscript slice)
      refine ⟨prompt, ?_, prompt.bounded, fun h => absurd h hslice, fun _ => hframed⟩
      rw [buildReflectionPrompt, if_neg ((trim_renderTranscript slice).not.mpr hslice), hprompt]
  · exact framedPrompt_framed resolutionHeader_visible (by decide) (by decide) _

/-- There is no transcript in the prompt of an empty slice. -/
theorem emptySlice_has_no_header : ¬ ∃ prompt, buildReflectionPrompt [] = .ok prompt ∧
    Framed REFLECTION_HEADER REFLECTION_NOTICE (renderTranscript []) prompt := by
  rintro ⟨prompt, hprompt, hframed⟩
  obtain ⟨fallback, hfallback, htext⟩ := emptySlice_ok
  cases hprompt.symm.trans hfallback
  have hwhole := hframed.whole (by decide)
  rw [htext] at hwhole
  exact absurd (congrArg String.utf8ByteSize hwhole) (by decide)

end Framed

end Patom.Memory
