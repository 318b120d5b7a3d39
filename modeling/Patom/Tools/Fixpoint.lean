import Patom.AgentCore.Lossless
import Patom.Threads.Artifacts
import Patom.Tools.SendMessage

open Patom.AgentCore
open Patom.Foundation
open Patom.Provider
open Patom.Threads

namespace Patom.Tools

def DEFAULT_GREP_MATCHES : Nat := 16

structure ReadArtifactInput where
  handle : String
  offset : Option Nat
  limit : Option Nat
  grep : Option String

def ReadArtifactInput.selector (input : ReadArtifactInput) : ArtifactSelector :=
  match input.grep.filter fun pattern => trim pattern.toList ≠ [] with
  | some pattern => .grep pattern DEFAULT_GREP_MATCHES
  | none => .page (input.offset.getD 0) (input.limit.getD MAX_ARTIFACT_SLICE)

def readArtifact (tables : EscapeTables) (artifacts : Except String (Table ToolArtifact)) (org : OrgId)
    (input : ReadArtifactInput) : Except ToolError String := do
  let handle ← (ArtifactHandle.tryFrom input.handle).mapError fun e =>
    .invalidInput ("read_artifact: bad handle: " ++ e.display)
  let artifacts ← artifacts.mapError fun e => .backend ("read_artifact: " ++ e)
  match loadToolArtifactSlice tables artifacts org handle input.selector with
  | some slice => .ok slice
  | none => .error (.invalidInput ("read_artifact: no artifact for handle " ++ handle.asStr))

def digits (n : Nat) : Nat := (toString n).length

theorem digits_le {n k : Nat} (hk : 0 < k) (h : n < 10 ^ k) : digits n ≤ k := by
  rw [digits, show toString n = n.repr from rfl, ← String.length_toList, Nat.toList_repr]
  exact (Nat.length_toDigits_le_iff (by decide) hk).mpr h

section Rendered

variable {body summary : String} {handle : ArtifactHandle} {total : Nat}

theorem length_renderPreview (h : total < 10 ^ 20) (hbody : body.length = total) :
    (renderPreview body handle total).length ≤ 4284 := by
  have hhead : (body.toList.take PREVIEW_HEAD_CHARS).length ≤ PREVIEW_HEAD_CHARS :=
    List.length_take_le _ _
  have htail : (if PREVIEW_TAIL_CHARS < total then body.toList.drop (total - PREVIEW_TAIL_CHARS)
      else []).length ≤ PREVIEW_TAIL_CHARS := by
    split
    · rw [List.length_drop, String.length_toList, hbody]
      omega
    · exact Nat.zero_le _
  unfold renderPreview
  generalize body.toList.take PREVIEW_HEAD_CHARS = head at hhead ⊢
  generalize (if PREVIEW_TAIL_CHARS < total then body.toList.drop (total - PREVIEW_TAIL_CHARS)
      else []) = tail at htail ⊢
  have hdigits : digits (total - head.length - tail.length) ≤ 20 := digits_le (by decide) (by omega)
  have hopen : "\n\n[… ".length = 5 := by decide
  have homitted : " chars omitted · full result offloaded as artifact ".length = 51 := by decide
  have hcall : " · call read_artifact(handle=\"".length = 30 := by decide
  have hclose : "\", offset/limit | grep) to retrieve any slice …]\n\n".length = 50 := by decide
  simp only [digits] at hdigits
  simp only [PREVIEW_HEAD_CHARS] at hhead
  simp only [PREVIEW_TAIL_CHARS] at htail
  simp only [String.length_append, String.length_ofList, handle.length, hopen, homitted, hcall, hclose]
  omega

theorem length_renderSummary :
    (renderSummary summary handle total).length = summary.length + digits total + 325 := by
  have hopen : "[Summarized tool result — ".length = 26 := by decide
  have htotal : " chars reduced toward the request; this is NOT the full result. ".length = 64 := by
    decide
  have hartifact : "Full content offloaded as artifact ".length = 35 := by decide
  have hcall : "; call read_artifact(handle=\"".length = 29 := by decide
  have hclose : "\", offset/limit | grep) for exact bytes.]\n\n".length = 43 := by decide
  unfold renderSummary
  iterate 8 rw [String.length_append]
  rw [hopen, htotal, hartifact, hcall, hclose, handle.length, digits]
  omega

end Rendered

section Slices

variable {tables : EscapeTables} {body pattern : String} {n : Nat}

theorem length_substr (start length : Nat) (body : String) : (substr start length body).length ≤ length := by
  rw [substr, String.length_ofList]
  exact List.length_take_le _ _

theorem length_grepHeader {count : Nat} :
    (grepHeader tables pattern count).length = (quoted tables pattern).length + digits count + 46 := by
  have hopen : "[grep ".length = 6 := by decide
  have hcount : ": ".length = 2 := by decide
  have hclose : "+ match(es); window from first match]\n".length = 38 := by decide
  unfold grepHeader
  iterate 4 rw [String.length_append]
  rw [hopen, hcount, hclose, digits]
  omega

def grepOverhead (tables : EscapeTables) (body pattern : String) (n : Nat) : Nat :=
  match splitOnce pattern.toList body.toList with
  | none => (quoted tables pattern).length + 33
  | some _ => (quoted tables pattern).length +
    digits (countMatches pattern.toList (max n 1) body.toList) + 46

theorem grepOverhead_of_absent (h : splitOnce pattern.toList body.toList = none) :
    grepOverhead tables body pattern n = (quoted tables pattern).length + 33 := by
  rw [grepOverhead, h]

theorem length_grepSlice (hpattern : pattern ≠ "") :
    (grepSlice tables body pattern n).length ≤ MAX_ARTIFACT_SLICE ↔
      grepOverhead tables body pattern n ≤ MAX_ARTIFACT_SLICE := by
  rw [grepSlice, grepOverhead, if_neg hpattern]
  cases splitOnce pattern.toList body.toList with
  | none =>
    have hopen : "[grep: no match for ".length = 20 := by decide
    have hclose : " in artifact]".length = 13 := by decide
    dsimp only
    iterate 2 rw [String.length_append]
    rw [hopen, hclose]
    omega
  | some found =>
    have hheader : (grepHeader tables pattern
        (countMatches pattern.toList (max n 1) body.toList)).length = _ := length_grepHeader
    dsimp only
    rw [String.length_append, String.length_ofList, List.length_take]
    omega

end Slices

section Results

variable (contentAddress : String → ArtifactHandle)
  (summarizers : String → List (Nat → Except CompactionError ChatResponse))
  (policy : ToolResultPolicy) (output : String)

def extract : Option String :=
  match policy with
  | .summarize intent => summarizeToolResult output (summarizers intent)
  | .paginate => none

def ShortExtract : Prop :=
  ∀ summary ∈ extract summarizers policy output,
    summary.length + digits output.length + 325 ≤ TOOL_RESULT_REDUCE_THRESHOLD

theorem length_visibleBody (h : output.length < 2 ^ 64) :
    (visibleBody contentAddress summarizers policy output).length ≤ TOOL_RESULT_REDUCE_THRESHOLD ↔
      ShortExtract summarizers policy output := by
  have hpreview : (renderPreview output (contentAddress output) output.length).length ≤
      TOOL_RESULT_REDUCE_THRESHOLD :=
    (length_renderPreview (Nat.lt_trans h (by decide)) rfl).trans (by decide)
  unfold visibleBody ShortExtract extract
  cases policy with
  | paginate => exact iff_of_true hpreview fun summary e => by cases e
  | summarize intent =>
    dsimp only
    cases summarizeToolResult output (summarizers intent) with
    | none => exact iff_of_true hpreview fun summary e => by cases e
    | some summary =>
      dsimp only
      rw [length_renderSummary]
      constructor
      · intro hle summary' e
        cases e
        exact hle
      · exact fun hshort => hshort summary rfl

variable (tables : EscapeTables) (artifacts : Except String (Table ToolArtifact)) (org : OrgId)
  (input : ReadArtifactInput)

def ShortPattern : Prop :=
  ∀ handle, ArtifactHandle.tryFrom input.handle = .ok handle → ∀ stored, artifacts = .ok stored →
    ∀ a ∈ stored.find? (org, handle), ∀ pattern n, input.selector = .grep pattern n →
      grepOverhead tables (substr 1 MAX_ARTIFACT_GREP_SCAN a.fullBody) pattern n ≤ MAX_ARTIFACT_SLICE

theorem selector_grep {pattern : String} {n : Nat} (h : input.selector = .grep pattern n) :
    pattern ≠ "" := by
  unfold ReadArtifactInput.selector at h
  split at h
  · next pattern' hfilter =>
    cases h
    rintro rfl
    have hblank := (Option.filter_eq_some_iff.mp hfilter).2
    exact absurd hblank (by decide)
  · cases h

theorem selector_eq_grep {pattern : String} (hgrep : input.grep = some pattern)
    (htrim : trim pattern.toList ≠ []) :
    input.selector = .grep pattern DEFAULT_GREP_MATCHES := by
  unfold ReadArtifactInput.selector
  have hfilter : (some pattern).filter (fun pattern => decide (trim pattern.toList ≠ [])) =
      some pattern := Option.filter_some_pos (decide_eq_true htrim)
  rw [hgrep, hfilter]

theorem readArtifact_eq_ok {slice : String} :
    readArtifact tables artifacts org input = .ok slice ↔
      ∃ handle, ArtifactHandle.tryFrom input.handle = .ok handle ∧ ∃ stored, artifacts = .ok stored ∧
        loadToolArtifactSlice tables stored org handle input.selector = some slice := by
  unfold readArtifact
  cases ArtifactHandle.tryFrom input.handle with
  | error e => simp [Except.mapError, bind, Except.bind]
  | ok handle =>
    cases artifacts with
    | error e => simp [Except.mapError, bind, Except.bind]
    | ok stored =>
      cases hload : loadToolArtifactSlice tables stored org handle input.selector <;>
        simp [Except.mapError, bind, Except.bind, hload]

theorem length_readArtifact :
    (∀ slice, readArtifact tables artifacts org input = .ok slice → slice.length ≤ MAX_ARTIFACT_SLICE) ↔
      ShortPattern tables artifacts org input := by
  simp only [readArtifact_eq_ok, ShortPattern]
  constructor
  · intro hslice handle hhandle stored hstored a ha pattern n hselector
    refine (length_grepSlice (selector_grep input hselector)).mp (hslice _ ⟨handle, hhandle, stored, hstored, ?_⟩)
    rw [hselector, loadToolArtifactSlice, show stored.find? (org, handle) = some a from ha]
    rfl
  · rintro hshort slice ⟨handle, hhandle, stored, hstored, hload⟩
    cases hselector : input.selector with
    | page offset limit =>
      rw [hselector] at hload
      obtain ⟨a, -, rfl⟩ := Option.map_eq_some_iff.mp hload
      exact (length_substr _ _ _).trans (Nat.min_le_right _ _)
    | grep pattern n =>
      rw [hselector] at hload
      obtain ⟨a, ha, rfl⟩ := Option.map_eq_some_iff.mp hload
      exact (length_grepSlice (selector_grep input hselector)).mpr
        (hshort handle hhandle stored hstored a ha pattern n hselector)

/-- What is left of an offloaded result, and what is read back of one, are not reduced again. -/
structure ReducedOnce (visible : String) (read : Except ToolError String) : Prop where
  visible : visible.length ≤ TOOL_RESULT_REDUCE_THRESHOLD
  slice : ∀ slice, read = .ok slice → slice.length ≤ MAX_ARTIFACT_SLICE
  again : ∀ slice, read = .ok slice → ∀ reduce call,
    toolResult reduce call (.output slice) = ⟨call.id, slice, false⟩

theorem reducedOnce_iff (h : output.length < 2 ^ 64) (call : ToolCall) (db : Table ToolArtifact) :
    ReducedOnce (reduceAndOffload contentAddress summarizers true policy org call output db).1.output
        (readArtifact tables artifacts org input) ↔
      ShortExtract summarizers policy output ∧ ShortPattern tables artifacts org input := by
  rw [← length_visibleBody contentAddress summarizers policy output h, ← length_readArtifact]
  constructor
  · exact fun hreduced => ⟨hreduced.visible, hreduced.slice⟩
  · rintro ⟨hvisible, hslice⟩
    refine ⟨hvisible, hslice, fun slice e reduce call => if_neg (Nat.not_lt_of_le ?_)⟩
    exact (hslice slice e).trans (by decide)

end Results

theorem tryFrom_replicate {c : Char} (hhex : isHexDigit c = true) :
    ∃ handle, ArtifactHandle.tryFrom (String.ofList (List.replicate 64 c)) = .ok handle := by
  have hraw : (String.ofList (List.replicate 64 c)).toList.length = 64 ∧
      (String.ofList (List.replicate 64 c)).toList.all isHexDigit = true := by
    rw [String.toList_ofList]
    refine ⟨List.length_replicate, List.all_eq_true.mpr fun c' hc' => ?_⟩
    rw [List.eq_of_mem_replicate hc']
    exact hhex
  unfold ArtifactHandle.tryFrom
  rw [dif_pos hraw]
  exact ⟨_, rfl⟩

theorem trim_replicate {c : Char} (hvisible : isWhitespace c = false) (n : Nat) :
    trim (List.replicate n c) = List.replicate n c := by
  simp [trim, trimEnd, trimStart, hvisible]

theorem length_quoted_replicate {tables : EscapeTables} {c : Char}
    (hplain : escapeDebug tables c = [c]) (n : Nat) :
    (quoted tables (String.ofList (List.replicate n c))).length = n + 2 := by
  rw [quoted, String.length_ofList, String.toList_ofList, List.flatMap_replicate, hplain]
  simp only [List.length_append, List.length_flatten, List.map_replicate, List.sum_replicate,
    List.length_singleton, smul_eq_mul]
  omega

theorem splitOnce_eq_none {needle text : List Char} (h : text.length < needle.length) :
    splitOnce needle text = none := by
  cases hsplit : splitOnce needle text with
  | none => rfl
  | some found =>
    have hlength := congrArg List.length (splitOnce_eq_append hsplit)
    simp only [List.length_append] at hlength
    omega

namespace Sample

def ascii : EscapeTables := ⟨fun _ => true, fun _ => false⟩

theorem length_address : (String.ofList (List.replicate 64 'a')).length = 64 := by
  rw [String.length_ofList, List.length_replicate]

def address : ArtifactHandle := ⟨String.ofList (List.replicate 64 'a'), length_address⟩

def pattern : String := String.ofList (List.replicate MAX_ARTIFACT_SLICE 'a')

def search : ReadArtifactInput := ⟨address.asStr, none, none, some pattern⟩

def firstPage : ReadArtifactInput := ⟨address.asStr, none, none, none⟩

def fetch : ToolCall :=
  ⟨⟨"call-1", by decide, by decide⟩, ⟨"web_fetch", by decide, by decide, by decide⟩, "{}"⟩

def page : String := String.ofList (List.replicate 40000 'x')

theorem length_page : page.length = 40000 :=
  String.length_ofList.trans List.length_replicate

theorem length_page_lt : page.length < 2 ^ 64 := by
  have hlength := length_page
  omega

theorem tryFrom_search : ∃ handle, ArtifactHandle.tryFrom search.handle = .ok handle :=
  tryFrom_replicate (by decide)

theorem selector_search : search.selector = .grep pattern DEFAULT_GREP_MATCHES := by
  refine selector_eq_grep search rfl ?_
  rw [pattern, String.toList_ofList, trim_replicate (by decide)]
  exact List.ne_nil_of_length_pos (lt_of_lt_of_eq (by decide) List.length_replicate.symm)

theorem splitOnce_pattern :
    splitOnce pattern.toList (substr 1 MAX_ARTIFACT_GREP_SCAN "x").toList = none := by
  refine splitOnce_eq_none ?_
  rw [pattern, String.toList_ofList, List.length_replicate, substr, String.toList_ofList]
  exact (List.length_take_le' _ _).trans_lt (by decide)

theorem length_quoted_pattern : (quoted ascii pattern).length = MAX_ARTIFACT_SLICE + 2 :=
  length_quoted_replicate (by decide) _

end Sample

theorem reducedOnce_page : ReducedOnce
    (reduceAndOffload (fun _ => Sample.address) (fun _ => []) true .paginate 1 Sample.fetch
      Sample.page .empty).1.output
    (readArtifact Sample.ascii (.ok .empty) 1 Sample.firstPage) := by
  refine (reducedOnce_iff (fun _ => Sample.address) (fun _ => []) .paginate Sample.page
    Sample.ascii (.ok .empty) 1 Sample.firstPage Sample.length_page_lt Sample.fetch .empty).mpr ⟨?_, ?_⟩
  · intro summary e
    cases e
  · intro handle _ stored _ a _ pattern n e
    cases e

theorem slice_exceeds : ¬ ∀ (contentAddress : String → ArtifactHandle)
    (summarizers : String → List (Nat → Except CompactionError ChatResponse))
    (policy : ToolResultPolicy) (output : String) (tables : EscapeTables)
    (artifacts : Except String (Table ToolArtifact)) (org : OrgId) (input : ReadArtifactInput)
    (call : ToolCall) (db : Table ToolArtifact), output.length < 2 ^ 64 →
    ReducedOnce (reduceAndOffload contentAddress summarizers true policy org call output db).1.output
      (readArtifact tables artifacts org input) := by
  intro h
  obtain ⟨handle, hhandle⟩ := Sample.tryFrom_search
  have hreduced := h (fun _ => Sample.address) (fun _ => []) .paginate Sample.page Sample.ascii
    (.ok (.single ⟨1, handle, "x"⟩)) 1 Sample.search Sample.fetch .empty Sample.length_page_lt
  have hshort := (length_readArtifact Sample.ascii (.ok (.single ⟨1, handle, "x"⟩)) 1
    Sample.search).mp hreduced.slice handle hhandle _ rfl ⟨1, handle, "x"⟩ (Table.find?_single _)
    Sample.pattern DEFAULT_GREP_MATCHES Sample.selector_search
  rw [grepOverhead_of_absent Sample.splitOnce_pattern, Sample.length_quoted_pattern] at hshort
  omega

end Patom.Tools
