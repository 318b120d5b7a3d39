import Patom.Foundation.Envelope
import Patom.Foundation.SignedText
import Patom.Memory.HandleMap

open Patom.Foundation

namespace Patom.Memory

section Model

structure Listing where
  entries : List (MemoryHandle × MemoryRow)
  subjects : SubjectNames

def Listing.text (l : Listing) : String :=
  if l.entries.isEmpty then "" else renderText l.entries l.subjects

structure ShownEntry where
  handle : MemoryHandle
  kind : MemoryKind
  state : MemoryState
  about : Option ColleagueName
  content : String
  deriving DecidableEq

def showEntry (subjects : SubjectNames) (entry : MemoryHandle × MemoryRow) : ShownEntry where
  handle := entry.1
  kind := entry.2.kind
  state := entry.2.state
  about := if entry.2.kind = .collaborator then entry.2.subject.bind subjects else none
  content := entry.2.content.asStr

def Listing.shown (l : Listing) : List ShownEntry :=
  (byKind l.entries).map (showEntry l.subjects)

def Listing.kinds (l : Listing) : List MemoryKind :=
  KIND_ORDER.filter fun kind => l.entries.any (·.2.kind = kind)

def memoryEnvelope : Envelope Listing ShownEntry Char where
  newline := '\n'
  close := "</memory>".toList
  block l := l.text.toList
  shown := Listing.shown
  fixed l := 5 + 2 * l.kinds.length

theorem block_eq (l : Listing) : memoryEnvelope.block l = l.text.toList := rfl

end Model

section Lines

def ShownEntry.text (e : ShownEntry) : List Char :=
  match e.about with
  | none => e.content.toList
  | some name => "(about".toList ++ ' ' :: (name.toList ++ ')' :: ([' '] ++ e.content.toList))

def ShownEntry.mark (e : ShownEntry) : List Char :=
  "- [M-".toList ++ (Nat.toDigits 10 e.handle.get ++ ',' :: (' ' :: (e.state.asStr.toList ++ [']'])))

def ShownEntry.line (e : ShownEntry) : List Char := e.mark ++ ' ' :: e.text

def ShownEntry.tagged (e : ShownEntry) : MemoryKind × List Char := (e.kind, e.line)

def headingLine (kind : MemoryKind) : List Char := ("### " ++ kind.displayLabel).toList

def FACTS_LINE : String :=
  "Facts you previously remembered. Each entry has an `M-NN` handle — pass it to " ++
  "`memory_update`, `memory_forget`, or `memory_validate` to revise the entry. Use `recall` to " ++
  "search for memories not listed below."

def sectionLines (tagged : List (MemoryKind × List Char)) (kind : MemoryKind) : List (List Char) :=
  match tagged.filter (·.1 = kind) with
  | [] => []
  | tagged => [] :: headingLine kind :: tagged.map Prod.snd

def Listing.sectionText (l : Listing) (kind : MemoryKind) : String :=
  match l.entries.filter (·.2.kind = kind) with
  | [] => ""
  | entries => "\n### " ++ kind.displayLabel ++ "\n" ++
      String.join (entries.map fun (handle, row) => renderEntry l.subjects handle row)

def memoryLines : List (MemoryKind × List Char) → List (List Char)
  | [] => []
  | first :: rest => "<memory>".toList :: "## Memory".toList :: FACTS_LINE.toList ::
      KIND_ORDER.flatMap (sectionLines (first :: rest)) ++ [[]]

def Listing.lines (l : Listing) : List (List Char) := memoryLines (l.shown.map ShownEntry.tagged)

variable (subjects : SubjectNames)

theorem renderEntry_eq (handle : MemoryHandle) (row : MemoryRow) :
    (renderEntry subjects handle row).toList = (showEntry subjects (handle, row)).line ++ ['\n'] := by
  have hdisplay : handle.display.toList = 'M' :: '-' :: Nat.toDigits 10 handle.get := by
    simp [MemoryHandle.display]
  by_cases hkind : row.kind = .collaborator
  · cases hsubject : row.subject.bind subjects <;>
      simp [renderEntry, ShownEntry.line, ShownEntry.mark, ShownEntry.text, showEntry, hkind,
        hsubject, hdisplay]
  · cases hsubject : row.subject.bind subjects <;>
      simp [renderEntry, ShownEntry.line, ShownEntry.mark, ShownEntry.text, showEntry, hkind,
        hsubject, hdisplay]

variable (entries : List (MemoryHandle × MemoryRow))

theorem filter_byKind (kind : MemoryKind) :
    (byKind entries).filter (·.2.kind = kind) = entries.filter (·.2.kind = kind) := by
  have hother : ∀ kind' : MemoryKind, (entries.filter (·.2.kind = kind')).filter (·.2.kind = kind)
      = if kind' = kind then entries.filter (·.2.kind = kind) else [] := by
    intro kind'
    rw [List.filter_filter]
    split
    · next h => simp [h]
    · next h =>
      rw [List.filter_eq_nil_iff]
      rintro entry - hboth
      rw [Bool.and_eq_true, decide_eq_true_eq, decide_eq_true_eq] at hboth
      exact h (hboth.2.symm.trans hboth.1)
  rw [byKind, List.filter_flatMap]
  simp only [hother]
  cases kind <;> simp [KIND_ORDER]

theorem filter_tagged (l : Listing) (kind : MemoryKind) :
    (l.shown.map ShownEntry.tagged).filter (·.1 = kind) =
      (l.entries.filter (·.2.kind = kind)).map fun entry => (showEntry l.subjects entry).tagged := by
  rw [← filter_byKind l.entries kind, Listing.shown, List.map_map, List.filter_map]
  rfl

theorem shown_eq_nil (l : Listing) : l.shown = [] ↔ l.entries = [] := by
  rw [Listing.shown, List.map_eq_nil_iff]
  exact ⟨fun h => List.nil_perm.mp (h ▸ byKind_perm l.entries),
    fun h => List.perm_nil.mp (h ▸ byKind_perm l.entries)⟩

theorem memoryLines_eq_nil (tagged : List (MemoryKind × List Char)) :
    memoryLines tagged = [] ↔ tagged = [] := by
  cases tagged <;> simp [memoryLines]

theorem lines_eq_nil (l : Listing) : l.lines = [] ↔ l.entries = [] := by
  rw [Listing.lines, memoryLines_eq_nil, List.map_eq_nil_iff, shown_eq_nil]

theorem flatMap_sectionLines (l : Listing) (kind : MemoryKind) :
    (sectionLines (l.shown.map ShownEntry.tagged) kind).flatMap (· ++ ['\n']) =
      (l.sectionText kind).toList := by
  rw [sectionLines, Listing.sectionText, filter_tagged]
  cases l.entries.filter (·.2.kind = kind) with
  | nil => rfl
  | cons entry entries =>
    have hlines : ∀ es : List (MemoryHandle × MemoryRow),
        (String.join (es.map fun (handle, row) => renderEntry l.subjects handle row)).toList =
          (es.map fun entry => (showEntry l.subjects entry).line).flatMap (· ++ ['\n']) := by
      intro es
      induction es with
      | nil => rfl
      | cons entry es ih =>
        rw [List.map_cons, String.join_cons, String.toList_append, ih, renderEntry_eq]
        rfl
    rw [String.toList_append, hlines]
    simp [headingLine, ShownEntry.tagged, Function.comp_def]

theorem memoryIntro_eq :
    MEMORY_INTRO.toList = "## Memory".toList ++ '\n' :: (FACTS_LINE.toList ++ ['\n']) := by
  delta MEMORY_INTRO FACTS_LINE
  simp only [String.toList_append, String.reduceToList]
  rfl

theorem Listing.text_eq {l : Listing} (h : l.entries ≠ []) : l.text =
    MEMORY_TAG_OPEN ++ MEMORY_INTRO ++ String.join (KIND_ORDER.map l.sectionText) ++
      MEMORY_TAG_CLOSE :=
  if_neg (by simpa using h)

theorem text_eq_lines {l : Listing} (h : l.entries ≠ []) :
    l.text.toList = l.lines.flatMap (· ++ ['\n']) ++ "</memory>".toList := by
  have hkinds : (String.join (KIND_ORDER.map l.sectionText)).toList =
      (KIND_ORDER.flatMap (sectionLines (l.shown.map ShownEntry.tagged))).flatMap (· ++ ['\n']) := by
    rw [List.flatMap_assoc]
    simp only [flatMap_sectionLines, String.toList_join, List.flatMap_map]
  have hne : l.shown.map ShownEntry.tagged ≠ [] := by
    rw [Ne, List.map_eq_nil_iff, shown_eq_nil]
    exact h
  obtain ⟨first, rest, htagged⟩ := List.exists_cons_of_ne_nil hne
  rw [Listing.text_eq h, String.toList_append, String.toList_append, String.toList_append, hkinds, memoryIntro_eq, Listing.lines, htagged,
    memoryLines]
  simp [MEMORY_TAG_OPEN, MEMORY_TAG_CLOSE]

theorem length_sectionLines (l : Listing) (ks : List MemoryKind) :
    (ks.flatMap (sectionLines (l.shown.map ShownEntry.tagged))).length =
      2 * (ks.filter fun kind => l.entries.any (·.2.kind = kind)).length +
        (ks.flatMap fun kind => l.entries.filter (·.2.kind = kind)).length := by
  induction ks with
  | nil => rfl
  | cons kind ks ih =>
    rw [List.flatMap_cons, List.flatMap_cons, List.length_append, List.length_append, ih,
      sectionLines, filter_tagged, List.filter_cons]
    cases hfilter : l.entries.filter (·.2.kind = kind) with
    | nil =>
      rw [if_neg]
      · simp
      · rw [List.any_eq_true]
        rintro ⟨entry, hmem, hkind⟩
        exact List.not_mem_nil (hfilter ▸ List.mem_filter.mpr ⟨hmem, hkind⟩)
    | cons entry entries =>
      have hentry := List.mem_filter.mp (hfilter ▸ List.mem_cons_self (a := entry))
      rw [if_pos (List.any_eq_true.mpr ⟨entry, hentry⟩)]
      simp
      omega

theorem memory_laid : memoryEnvelope.Laid Listing.lines where
  newline := by decide
  nonempty := by decide
  empty l h := by
    rw [lines_eq_nil] at h
    simp [memoryEnvelope, Listing.text, h]
  block l h := text_eq_lines ((lines_eq_nil l).not.mp h)
  lines l h := by
    have hlength := length_sectionLines l KIND_ORDER
    have hshown : l.shown.length = (byKind l.entries).length := List.length_map _
    have hne : l.shown.map ShownEntry.tagged ≠ [] := (memoryLines_eq_nil _).not.mp h
    obtain ⟨first, rest, htagged⟩ := List.exists_cons_of_ne_nil hne
    rw [htagged] at hlength
    change l.lines.length + 1 = 5 + 2 * l.kinds.length + l.shown.length
    rw [Listing.lines, htagged, memoryLines, List.length_append, List.length_cons,
      List.length_cons, List.length_cons, hlength, hshown, Listing.kinds, byKind]
    simp
    omega

end Lines

section Clean

abbrev CleanText (text : List Char) : Prop := memoryEnvelope.Clean text

/-- What a section shows of a memory stays on its line. -/
def ShownEntry.Clean (e : ShownEntry) : Prop :=
  CleanText e.content.toList ∧ ∀ name, e.about = some name → CleanText name.toList

theorem cleanText_append_cons {a b : List Char} {c : Char} (hc : c ∉ memoryEnvelope.close)
    (hline : '\n' ≠ c) : CleanText (a ++ c :: b) ↔ CleanText a ∧ CleanText b :=
  memory_laid.clean_append_cons hc hline

theorem cleanText_of_notMem {text : List Char} (hline : '\n' ∉ text) (h : '<' ∉ text) :
    CleanText text := by
  have htag : '<' ∈ memoryEnvelope.close := by decide
  exact clean_of_notMem htag hline h

theorem clean_open : CleanText "<memory>".toList := by
  have htag : '/' ∈ memoryEnvelope.close := by decide
  exact clean_of_notMem htag (by decide) (by decide)

theorem notMem_mark (e : ShownEntry) {c : Char} (hdigit : c.isDigit = false)
    (hc : c ∉ "- [M-, ]corevalidatedheldtentative".toList) : c ∉ e.mark := by
  have hdigits : c ∉ Nat.toDigits 10 e.handle.get := by
    intro h
    rw [Nat.isDigit_of_mem_toDigits (by decide) (by decide) h] at hdigit
    cases hdigit
  cases hstate : e.state <;> simp_all [ShownEntry.mark, MemoryState.asStr]

theorem clean_line (e : ShownEntry) : CleanText e.line ↔ e.Clean := by
  have hmark : CleanText e.mark :=
    cleanText_of_notMem (notMem_mark e (by decide) (by decide)) (notMem_mark e (by decide) (by decide))
  have habout : CleanText "(about".toList := cleanText_of_notMem (by decide) (by decide)
  have hempty : CleanText [] := cleanText_of_notMem List.not_mem_nil List.not_mem_nil
  rw [ShownEntry.line, cleanText_append_cons (by decide) (by decide), ShownEntry.text,
    ShownEntry.Clean]
  cases e.about with
  | none => simp [hmark]
  | some name =>
    change _ ∧ CleanText ("(about".toList ++ ' ' :: (name.toList ++ ')' :: ([] ++ ' ' ::
      e.content.toList))) ↔ _
    rw [cleanText_append_cons (by decide) (by decide), cleanText_append_cons (by decide) (by decide),
      cleanText_append_cons (by decide) (by decide)]
    simp only [hmark, habout, hempty, true_and, Option.some.injEq, forall_eq', and_comm]

theorem clean_heading (kind : MemoryKind) : CleanText (headingLine kind) := by
  apply cleanText_of_notMem <;> cases kind <;> decide

theorem clean_facts : CleanText FACTS_LINE.toList := by
  delta FACTS_LINE
  simp only [String.toList_append, String.reduceToList]
  apply cleanText_of_notMem <;> decide

theorem mem_sectionLines {tagged : List (MemoryKind × List Char)} {kind : MemoryKind}
    {line : List Char} (h : line ∈ sectionLines tagged kind) :
    line = [] ∨ line = headingLine kind ∨ (kind, line) ∈ tagged := by
  rw [sectionLines] at h
  split at h
  · cases h
  · next hfilter =>
    rw [List.mem_cons, List.mem_cons] at h
    rcases h with h | h | h
    · exact .inl h
    · exact .inr (.inl h)
    · obtain ⟨entry, hentry, rfl⟩ := List.mem_map.mp h
      obtain ⟨hmem, hkind⟩ := List.mem_filter.mp hentry
      exact .inr (.inr (of_decide_eq_true hkind ▸ hmem))

theorem mem_sectionLines_of_mem {tagged : List (MemoryKind × List Char)}
    {entry : MemoryKind × List Char} (h : entry ∈ tagged) :
    entry.2 ∈ sectionLines tagged entry.1 := by
  have hfilter : entry ∈ tagged.filter (·.1 = entry.1) :=
    List.mem_filter.mpr ⟨h, decide_eq_true rfl⟩
  rw [sectionLines]
  split
  · next hnil => exact absurd (hnil ▸ hfilter) List.not_mem_nil
  · exact List.mem_cons_of_mem _ (List.mem_cons_of_mem _ (List.mem_map_of_mem hfilter))

theorem clean_lines (l : Listing) :
    (∀ line ∈ l.lines, CleanText line) ↔ ∀ e ∈ l.shown, e.Clean := by
  have hlines : ∀ tagged, (∀ line ∈ memoryLines tagged, CleanText line) ↔
      ∀ entry ∈ tagged, CleanText entry.2 := by
    intro tagged
    cases tagged with
    | nil => simp [memoryLines]
    | cons first rest =>
      constructor
      · intro h entry hentry
        have hkind : entry.1 ∈ KIND_ORDER := by cases entry.1 <;> decide
        exact h entry.2 (List.mem_append_left _ (List.mem_cons_of_mem _ (List.mem_cons_of_mem _
          (List.mem_cons_of_mem _ (List.mem_flatMap.mpr
            ⟨entry.1, hkind, mem_sectionLines_of_mem hentry⟩)))))
      · intro h line hline
        have hempty : CleanText [] := cleanText_of_notMem List.not_mem_nil List.not_mem_nil
        simp only [memoryLines, List.cons_append, List.mem_cons, List.mem_append, List.mem_flatMap,
          List.not_mem_nil, or_false] at hline
        rcases hline with hline | hline | hline | ⟨kind, -, hline⟩ | rfl
        · exact hline ▸ clean_open
        · exact hline ▸ cleanText_of_notMem (by decide) (by decide)
        · exact hline ▸ clean_facts
        · rcases mem_sectionLines hline with rfl | rfl | hmem
          · exact hempty
          · exact clean_heading kind
          · exact h (kind, line) hmem
        · exact hempty
  rw [Listing.lines, hlines, List.forall_mem_map]
  simp only [ShownEntry.tagged, clean_line]

end Clean

section Decode

def headingOf (line : List Char) : Option MemoryKind :=
  KIND_ORDER.find? fun kind => headingLine kind = line

def readLines : MemoryKind → List (List Char) → List (MemoryKind × List Char)
  | _, [] => []
  | kind, [] :: lines => readLines kind lines
  | kind, (c :: line) :: lines =>
    match headingOf (c :: line) with
    | some kind => readLines kind lines
    | none => (kind, c :: line) :: readLines kind lines

theorem headingLine_eq_cons (kind : MemoryKind) : ∃ line, headingLine kind = '#' :: line := by
  cases kind <;> exact ⟨_, rfl⟩

@[simp] theorem headingOf_headingLine (kind : MemoryKind) :
    headingOf (headingLine kind) = some kind := by
  cases kind <;> decide

theorem headingOf_eq_none {c : Char} (hc : c ≠ '#') (line : List Char) :
    headingOf (c :: line) = none := by
  rw [headingOf, List.find?_eq_none]
  rintro kind - h
  obtain ⟨rest, hrest⟩ := headingLine_eq_cons kind
  have hsharp := of_decide_eq_true h
  rw [hrest] at hsharp
  exact hc (List.cons.inj hsharp).1.symm

theorem readLines_heading (kind kind' : MemoryKind) (lines : List (List Char)) :
    readLines kind (headingLine kind' :: lines) = readLines kind' lines := by
  obtain ⟨line, hline⟩ := headingLine_eq_cons kind'
  rw [hline, readLines, ← hline, headingOf_headingLine]

theorem readLines_entries (kind : MemoryKind) {tagged : List (MemoryKind × List Char)}
    (h : ∀ entry ∈ tagged, entry.1 = kind ∧ entry.2.head? = some '-') (lines : List (List Char)) :
    readLines kind (tagged.map Prod.snd ++ lines) = tagged ++ readLines kind lines := by
  induction tagged with
  | nil => rfl
  | cons entry tagged ih =>
    obtain ⟨hkind, hhead⟩ := h entry List.mem_cons_self
    obtain ⟨line, hline⟩ := List.head?_eq_some_iff.mp hhead
    rw [List.map_cons, List.cons_append, hline, readLines, headingOf_eq_none (by decide),
      ih fun entry' hmem => h entry' (List.mem_cons_of_mem entry hmem), ← hline, ← hkind]
    rfl

theorem readLines_flatMap {tagged : List (MemoryKind × List Char)}
    (h : ∀ entry ∈ tagged, entry.2.head? = some '-') (ks : List MemoryKind) (kind : MemoryKind) :
    readLines kind (ks.flatMap (sectionLines tagged)) =
      ks.flatMap fun kind => tagged.filter (·.1 = kind) := by
  induction ks generalizing kind with
  | nil => rfl
  | cons kind' ks ih =>
    have hentries : ∀ entry ∈ tagged.filter (·.1 = kind'),
        entry.1 = kind' ∧ entry.2.head? = some '-' := by
      intro entry hentry
      obtain ⟨hmem, hkind⟩ := List.mem_filter.mp hentry
      exact ⟨of_decide_eq_true hkind, h entry hmem⟩
    rw [List.flatMap_cons, List.flatMap_cons, sectionLines]
    split
    · next hnil => rw [List.nil_append, ih, hnil, List.nil_append]
    · rw [List.cons_append, List.cons_append, readLines, readLines_heading,
        readLines_entries kind' hentries, ih]

theorem head_line (e : ShownEntry) : e.line.head? = some '-' := by
  simp [ShownEntry.line, ShownEntry.mark]

theorem flatMap_filter_tagged (l : Listing) :
    (KIND_ORDER.flatMap fun kind => (l.shown.map ShownEntry.tagged).filter (·.1 = kind)) =
      l.shown.map ShownEntry.tagged := by
  simp only [filter_tagged]
  rw [Listing.shown, byKind, List.map_map, List.map_flatMap]
  rfl

theorem lines_inj (x y : Listing) :
    x.lines = y.lines ↔ x.shown.map ShownEntry.tagged = y.shown.map ShownEntry.tagged := by
  constructor
  · intro h
    have hhead : ∀ l : Listing, ∀ entry ∈ l.shown.map ShownEntry.tagged,
        entry.2.head? = some '-' := by
      intro l entry hentry
      obtain ⟨e, -, rfl⟩ := List.mem_map.mp hentry
      exact head_line e
    have hread := readLines_flatMap (hhead x) KIND_ORDER .identity
    have hread' := readLines_flatMap (hhead y) KIND_ORDER .identity
    rw [flatMap_filter_tagged] at hread hread'
    rw [← hread, ← hread']
    rw [Listing.lines, Listing.lines] at h
    cases hx : x.shown.map ShownEntry.tagged with
    | nil =>
      rw [hx, memoryLines, eq_comm, memoryLines_eq_nil] at h
      rw [h]
    | cons first rest =>
      cases hy : y.shown.map ShownEntry.tagged with
      | nil =>
        rw [hy, memoryLines.eq_1, memoryLines_eq_nil, hx] at h
        cases h
      | cons first' rest' =>
        rw [hx, hy, memoryLines, memoryLines] at h
        have hsections := List.append_cancel_right h
        rw [(List.cons.inj (List.cons.inj (List.cons.inj hsections).2).2).2]
  · intro h
    rw [Listing.lines, Listing.lines, h]

end Decode

section Alike

inductive TextAlike : Option ColleagueName → String → Option ColleagueName → String → Prop
  | same {about : Option ColleagueName} {content : String} : TextAlike about content about content
  | spelled {name : ColleagueName} {content content' : String}
      (h : content = "(about " ++ name ++ ") " ++ content') :
      TextAlike none content (some name) content'
  | spells {name : ColleagueName} {content content' : String}
      (h : content' = "(about " ++ name ++ ") " ++ content) :
      TextAlike (some name) content none content'
  | shorter {name name' : ColleagueName} {content content' : String}
      (h : CutElsewhere ')' [' '] content.toList [' '] content'.toList name.toList name'.toList) :
      TextAlike (some name) content (some name') content'
  | longer {name name' : ColleagueName} {content content' : String}
      (h : CutElsewhere ')' [' '] content'.toList [' '] content.toList name'.toList name.toList) :
      TextAlike (some name) content (some name') content'

structure ShownEntry.Alike (e e' : ShownEntry) : Prop where
  handle : e.handle = e'.handle
  kind : e.kind = e'.kind
  state : e.state = e'.state
  text : TextAlike e.about e.content e'.about e'.content

theorem label_toList (name content : String) : ("(about " ++ name ++ ") " ++ content).toList =
    "(about".toList ++ ' ' :: (name.toList ++ ')' :: ([' '] ++ content.toList)) := by
  simp

theorem text_eq_iff (e e' : ShownEntry) :
    e.text = e'.text ↔ TextAlike e.about e.content e'.about e'.content := by
  rw [ShownEntry.text, ShownEntry.text]
  rcases e with ⟨handle, kind, state, about, content⟩
  rcases e' with ⟨handle', kind', state', about', content'⟩
  cases about with
  | none =>
    cases about' with
    | none =>
      constructor
      · intro h
        rw [String.toList_inj.mp h]
        exact .same
      · rintro ⟨⟩
        rfl
    | some name' =>
      constructor
      · intro h
        exact .spelled (String.toList_inj.mp (h.trans (label_toList name' content').symm))
      · rintro (_ | h)
        exact (congrArg String.toList h).trans (label_toList name' content')
  | some name =>
    cases about' with
    | none =>
      constructor
      · intro h
        exact .spells (String.toList_inj.mp (h.symm.trans (label_toList name content).symm))
      · rintro (_ | _ | h)
        exact ((congrArg String.toList h).trans (label_toList name content)).symm
    | some name' =>
      have hcut : name.toList ++ ')' :: ([' '] ++ content.toList) =
          name'.toList ++ ')' :: ([' '] ++ content'.toList) ↔ _ :=
        append_cut_iff (by decide) (by decide) rfl
      constructor
      · intro h
        rcases hcut.mp (List.cons.inj (List.append_cancel_left h)).2 with ⟨hname, -, hcontent⟩ | h | h
        · rw [String.toList_inj.mp hname, String.toList_inj.mp hcontent]
          exact .same
        · exact .shorter h
        · exact .longer h
      · rintro (_ | _ | _ | h | h)
        · rfl
        · exact congrArg (fun rest => "(about".toList ++ ' ' :: rest) h.eq
        · exact congrArg (fun rest => "(about".toList ++ ' ' :: rest) h.eq.symm

theorem toDigits_inj {n m : Nat} (h : Nat.toDigits 10 n = Nat.toDigits 10 m) : n = m := by
  have := readNat_toDigits n
  rw [h, readNat_toDigits] at this
  exact (Option.some.inj this).symm

theorem stateStr_inj {s s' : MemoryState} (h : s.asStr = s'.asStr) : s = s' := by
  cases s <;> cases s' <;> first | rfl | exact absurd h (by decide)

theorem tagged_eq_iff (e e' : ShownEntry) : e.tagged = e'.tagged ↔ e.Alike e' := by
  have hcomma : ∀ e : ShownEntry, ',' ∉ Nat.toDigits 10 e.handle.get := by
    intro e h
    exact absurd (Nat.isDigit_of_mem_toDigits (by decide) (by decide) h) (by decide)
  have hstate : ∀ e : ShownEntry, ']' ∉ e.state.asStr.toList := by
    intro e
    cases e.state <;> decide
  have hline : ∀ e : ShownEntry, e.line = "- [M-".toList ++ (Nat.toDigits 10 e.handle.get ++ ',' ::
      (' ' :: (e.state.asStr.toList ++ ']' :: (' ' :: e.text)))) := by
    intro e
    simp [ShownEntry.line, ShownEntry.mark]
  rw [ShownEntry.tagged, ShownEntry.tagged, Prod.mk.injEq, hline, hline,
    List.append_right_inj, append_cons_inj (hcomma e) (hcomma e'), List.cons.injEq,
    append_cons_inj (hstate e) (hstate e'), List.cons.injEq, text_eq_iff]
  constructor
  · rintro ⟨hkind, hhandle, -, hstate, -, htext⟩
    exact ⟨MemoryHandle.get_inj.mp (toDigits_inj hhandle), hkind,
      stateStr_inj (String.toList_inj.mp hstate), htext⟩
  · rintro ⟨hhandle, hkind, hstate, htext⟩
    exact ⟨hkind, by rw [hhandle], rfl, by rw [hstate], rfl, htext⟩

theorem lines_eq_iff (x y : Listing) :
    x.lines = y.lines ↔ List.Forall₂ ShownEntry.Alike x.shown y.shown := by
  rw [lines_inj, ← List.forall₂_eq_eq_eq, List.forall₂_map_left_iff, List.forall₂_map_right_iff]
  simp only [tagged_eq_iff]

theorem memory_unforged_iff (x y : Listing) : memoryEnvelope.Unforged x y ↔
    (∀ e ∈ x.shown, e.Clean) ∧ (∀ e ∈ y.shown, e.Clean) ∧
      (List.Forall₂ ShownEntry.Alike x.shown y.shown → x.shown = y.shown) := by
  rw [memory_laid.unforged_iff, clean_lines, clean_lines, lines_eq_iff]
  rfl

end Alike

end Patom.Memory
