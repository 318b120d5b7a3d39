import Patom.Colleagues.Render
import Patom.Text

open Patom.Foundation

namespace Patom.Colleagues

section Model

def PROFILE_SNIPPET_LEN : Nat := 160
def MAX_PARTICIPANTS_INLINE : Nat := 32
def MAX_NOTES_PER_PARTICIPANT : Nat := 3

theorem byteLen_cutAtBoundary_le (n : Nat) (text : List Char) : byteLen (cutAtBoundary n text) ≤ n := by
  induction text generalizing n with
  | nil => exact Nat.zero_le n
  | cons c text ih =>
    rw [cutAtBoundary]
    split
    · have hrest := ih (n - c.utf8Size)
      rw [byteLen_cons]
      omega
    · exact Nat.zero_le n

theorem utf8ByteSize_truncate_le (s : String) (target : Nat) :
    (truncateToCharBoundary s target).utf8ByteSize ≤ target := by
  rw [truncateToCharBoundary, ← byteLen_eq]
  exact byteLen_cutAtBoundary_le target s.toList

structure ParticipantSnippet where
  asStr : String
  bounded : asStr.utf8ByteSize ≤ PROFILE_SNIPPET_LEN
  deriving DecidableEq

def ParticipantSnippet.new (text : String) : ParticipantSnippet :=
  ⟨truncateToCharBoundary text PROFILE_SNIPPET_LEN, utf8ByteSize_truncate_le _ _⟩

theorem ParticipantSnippet.asStr_inj {a b : ParticipantSnippet} : a.asStr = b.asStr ↔ a = b := by
  cases a
  cases b
  simp

structure ParticipantNote where
  asStr : String
  bounded : asStr.utf8ByteSize ≤ PROFILE_SNIPPET_LEN
  deriving DecidableEq

def ParticipantNote.new (text : String) : ParticipantNote :=
  ⟨truncateToCharBoundary text PROFILE_SNIPPET_LEN, utf8ByteSize_truncate_le _ _⟩

theorem ParticipantNote.asStr_inj {a b : ParticipantNote} : a.asStr = b.asStr ↔ a = b := by
  cases a
  cases b
  simp

structure ParticipantNotes where
  notes : List ParticipantNote
  bounded : notes.length ≤ MAX_NOTES_PER_PARTICIPANT
  deriving DecidableEq

def ParticipantNotes.fromOrdered (notes : List String) : ParticipantNotes :=
  ⟨(notes.take MAX_NOTES_PER_PARTICIPANT).map ParticipantNote.new, by simp⟩

structure ParticipantLine where
  name : ColleagueName
  kind : ColleagueKind
  snippet : Option ParticipantSnippet
  notes : ParticipantNotes
  raisedThread : Bool
  deriving DecidableEq

def PARTICIPANTS_TAG_OPEN : String := "<participants>\n"
def PARTICIPANTS_TAG_CLOSE : String := "\n</participants>"

def raiser (lines : List ParticipantLine) : Option ColleagueName :=
  (lines.find? (·.raisedThread)).map (·.name)

def renderLine (line : ParticipantLine) : String :=
  "\n- " ++ line.name.asStr ++ " (" ++ line.kind.asStr ++ ")" ++
    (match line.snippet with
      | some snippet => " — " ++ snippet.asStr
      | none => "") ++
    (if line.raisedThread then " — raised this thread" else "") ++
    String.join (line.notes.notes.map fun note => "\n  • (you noted) " ++ note.asStr)

def renderParticipantsBlock (lines : List ParticipantLine) : String :=
  if lines.isEmpty then ""
  else
    PARTICIPANTS_TAG_OPEN ++
      (match raiser lines with
        | some name =>
          "People in this conversation. This thread was raised by " ++ name.asStr ++ "."
        | none => "People in this conversation.") ++
      String.join ((lines.take MAX_PARTICIPANTS_INLINE).map renderLine) ++ PARTICIPANTS_TAG_CLOSE

inductive ShownParticipant
  | person (name : ColleagueName) (kind : ColleagueKind) (snippet : Option ParticipantSnippet)
      (raised : Bool)
  | note (text : ParticipantNote)
  deriving DecidableEq

def showLine (line : ParticipantLine) : List ShownParticipant :=
  .person line.name line.kind line.snippet line.raisedThread :: line.notes.notes.map .note

def shownParticipants (lines : List ParticipantLine) : List ShownParticipant :=
  (lines.take MAX_PARTICIPANTS_INLINE).flatMap showLine

def participantsEnvelope : Envelope (List ParticipantLine) ShownParticipant Char where
  newline := '\n'
  close := "</participants>".toList
  block lines := (renderParticipantsBlock lines).toList
  shown := shownParticipants
  fixed _ := 3

end Model

section Lines

def kindTag (kind : ColleagueKind) : List Char := '(' :: (kind.asStr.toList ++ [')'])

def raisedTag (raised : Bool) : List Char :=
  if raised then ' ' :: "— raised this thread".toList else []

def behind (snippet : Option ParticipantSnippet) (raised : Bool) : List Char :=
  match snippet with
  | some snippet => [] ++ ' ' :: ("—".toList ++ ' ' :: (snippet.asStr.toList ++ raisedTag raised))
  | none => raisedTag raised

def NOTE_MARK : String := "  • (you noted)"
def PEOPLE : String := "People in this conversation."
def RAISED_BY : String := "People in this conversation. This thread was raised by"

def ShownParticipant.line : ShownParticipant → List Char
  | .person name kind snippet raised =>
    ['-'] ++ ' ' :: (name.asStr.toList ++ ' ' :: (kindTag kind ++ behind snippet raised))
  | .note text => NOTE_MARK.toList ++ ' ' :: text.asStr.toList

def headerLine (raiser : Option ColleagueName) : List Char :=
  match raiser with
  | some name => RAISED_BY.toList ++ ' ' :: (name.asStr.toList ++ '.' :: [])
  | none => PEOPLE.toList

def participantLines (lines : List ParticipantLine) : List (List Char) :=
  if lines = [] then []
  else "<participants>".toList :: headerLine (raiser lines) ::
    (shownParticipants lines).map ShownParticipant.line

theorem participantLines_eq_nil (lines : List ParticipantLine) :
    participantLines lines = [] ↔ lines = [] := by
  unfold participantLines
  split
  · next h => simp [h]
  · next h => simp [h]

theorem renderLine_eq (line : ParticipantLine) :
    (renderLine line).toList = ((showLine line).map ShownParticipant.line).flatMap ('\n' :: ·) := by
  have hnotes : (String.join (line.notes.notes.map fun note =>
      "\n  • (you noted) " ++ note.asStr)).toList =
      ((line.notes.notes.map ShownParticipant.note).map ShownParticipant.line).flatMap
        ('\n' :: ·) := by
    rw [String.toList_join, List.flatMap_map, List.map_map, List.flatMap_map]
    refine List.flatMap_congr fun note _ => ?_
    simp [ShownParticipant.line, NOTE_MARK]
  rw [showLine, List.map_cons, List.flatMap_cons, ← hnotes, renderLine]
  cases line.snippet <;> cases line.raisedThread <;>
    simp [ShownParticipant.line, behind, kindTag, raisedTag]

theorem flatMap_before (lines : List (List Char)) (first : List Char) :
    first ++ lines.flatMap ('\n' :: ·) ++ ['\n'] = (first :: lines).flatMap (· ++ ['\n']) := by
  induction lines generalizing first with
  | nil => simp
  | cons line lines ih =>
    rw [List.flatMap_cons, List.flatMap_cons, ← ih line]
    simp

theorem participantsBlock_eq {lines : List ParticipantLine} (h : lines ≠ []) :
    (renderParticipantsBlock lines).toList =
      (participantLines lines).flatMap (· ++ ['\n']) ++ "</participants>".toList := by
  have hpeople : (String.join ((lines.take MAX_PARTICIPANTS_INLINE).map renderLine)).toList =
      ((shownParticipants lines).map ShownParticipant.line).flatMap ('\n' :: ·) := by
    rw [String.toList_join, List.flatMap_map, shownParticipants, List.map_flatMap,
      List.flatMap_assoc]
    simp only [renderLine_eq]
  rw [participantLines, if_neg h, List.flatMap_cons, ← flatMap_before, ← hpeople,
    renderParticipantsBlock, if_neg (by simpa using h)]
  cases raiser lines <;>
    simp [headerLine, PEOPLE, RAISED_BY, PARTICIPANTS_TAG_OPEN, PARTICIPANTS_TAG_CLOSE]

theorem participants_laid : participantsEnvelope.Laid participantLines where
  newline := by decide
  nonempty := by decide
  empty lines h := by
    rw [participantLines_eq_nil] at h
    rw [h]
    rfl
  block lines h := participantsBlock_eq ((participantLines_eq_nil lines).not.mp h)
  lines lines h := by
    change (participantLines lines).length + 1 = 3 + (shownParticipants lines).length
    rw [participantLines, if_neg ((participantLines_eq_nil lines).not.mp h)]
    simp
    omega

end Lines

section Clean

abbrev CleanText (text : List Char) : Prop := participantsEnvelope.Clean text

def ShownParticipant.Clean : ShownParticipant → Prop
  | .person name _ snippet _ =>
    CleanText name.asStr.toList ∧ ∀ s, snippet = some s → CleanText s.asStr.toList
  | .note text => CleanText text.asStr.toList

/-- What a block shows stays on its line, and so does who raised the thread. -/
structure CleanBlock (lines : List ParticipantLine) : Prop where
  raiser : ∀ name, raiser lines = some name → CleanText name.asStr.toList
  shown : ∀ p ∈ shownParticipants lines, p.Clean

theorem cleanText_append_cons {a b : List Char} {c : Char} (hc : c ∉ participantsEnvelope.close)
    (hline : '\n' ≠ c) : CleanText (a ++ c :: b) ↔ CleanText a ∧ CleanText b :=
  participants_laid.clean_append_cons hc hline

theorem cleanText_of_notMem {text : List Char} (hline : '\n' ∉ text) (h : '<' ∉ text) :
    CleanText text := by
  have htag : '<' ∈ participantsEnvelope.close := by decide
  exact clean_of_notMem htag hline h

theorem clean_participants : CleanText "<participants>".toList := by
  have htag : '/' ∈ participantsEnvelope.close := by decide
  exact clean_of_notMem htag (by decide) (by decide)

theorem clean_nil : CleanText [] := cleanText_of_notMem List.not_mem_nil List.not_mem_nil

theorem clean_raisedTag (raised : Bool) : CleanText (raisedTag raised) := by
  apply cleanText_of_notMem <;> cases raised <;> decide

theorem append_raisedTag_false (text : List Char) : text ++ raisedTag false = text :=
  List.append_nil text

theorem clean_append_raisedTag {text : List Char} {raised : Bool} :
    CleanText (text ++ raisedTag raised) ↔ CleanText text := by
  cases raised with
  | false => rw [append_raisedTag_false]
  | true =>
    have hmark : CleanText "— raised this thread".toList :=
      cleanText_of_notMem (by decide) (by decide)
    rw [show raisedTag true = ' ' :: "— raised this thread".toList from rfl,
      cleanText_append_cons (by decide) (by decide), and_iff_left hmark]

theorem clean_behind (snippet : Option ParticipantSnippet) (raised : Bool) :
    CleanText (behind snippet raised) ↔ ∀ s, snippet = some s → CleanText s.asStr.toList := by
  cases snippet with
  | none => simp [behind, clean_raisedTag]
  | some snippet =>
    have hdash : CleanText "—".toList := cleanText_of_notMem (by decide) (by decide)
    rw [behind, cleanText_append_cons (by decide) (by decide),
      cleanText_append_cons (by decide) (by decide), clean_append_raisedTag]
    simp only [clean_nil, hdash, true_and, Option.some.injEq, forall_eq']

theorem clean_kindTag (kind : ColleagueKind) (text : List Char) :
    CleanText (kindTag kind ++ text) ↔ CleanText text := by
  have hkind : CleanText ('(' :: kind.asStr.toList) := by
    apply cleanText_of_notMem <;> cases kind <;> decide
  have hsplit : kindTag kind ++ text = ('(' :: kind.asStr.toList) ++ ')' :: text := by
    simp [kindTag]
  rw [hsplit, cleanText_append_cons (by decide) (by decide), and_iff_right hkind]

theorem clean_line (p : ShownParticipant) : CleanText p.line ↔ p.Clean := by
  cases p with
  | person name kind snippet raised =>
    have hdash : CleanText ['-'] := cleanText_of_notMem (by decide) (by decide)
    rw [ShownParticipant.line, cleanText_append_cons (by decide) (by decide),
      cleanText_append_cons (by decide) (by decide), clean_kindTag, clean_behind,
      and_iff_right hdash, ShownParticipant.Clean]
  | note text =>
    have hmark : CleanText NOTE_MARK.toList := cleanText_of_notMem (by decide) (by decide)
    rw [ShownParticipant.line, cleanText_append_cons (by decide) (by decide),
      and_iff_right hmark, ShownParticipant.Clean]

set_option maxRecDepth 4000 in
theorem clean_raisedBy : CleanText RAISED_BY.toList := cleanText_of_notMem (by decide) (by decide)

theorem clean_header (raiser : Option ColleagueName) :
    CleanText (headerLine raiser) ↔ ∀ name, raiser = some name → CleanText name.asStr.toList := by
  cases raiser with
  | none =>
    have hpeople : CleanText PEOPLE.toList := cleanText_of_notMem (by decide) (by decide)
    simp [headerLine, hpeople]
  | some name =>
    rw [headerLine, cleanText_append_cons (by decide) (by decide),
      cleanText_append_cons (by decide) (by decide)]
    simp only [clean_raisedBy, clean_nil, true_and, and_true, Option.some.injEq, forall_eq']

theorem clean_lines_iff (lines : List ParticipantLine) :
    (∀ line ∈ participantLines lines, CleanText line) ↔ CleanBlock lines := by
  unfold participantLines
  split
  · next h =>
    refine ⟨fun _ => ⟨?_, ?_⟩, by simp⟩
    · simp [raiser, h]
    · simp [shownParticipants, h]
  · rw [List.forall_mem_cons, List.forall_mem_cons, List.forall_mem_map, clean_header,
      and_iff_right clean_participants]
    simp only [clean_line]
    exact ⟨fun h => ⟨h.1, h.2⟩, fun h => ⟨h.1, h.2⟩⟩

end Clean

section Alike

def RAISED_MARK : String := "raised this thread"

inductive TailAlike : Option ParticipantSnippet → Bool → Option ParticipantSnippet → Bool → Prop
  | same {snippet : Option ParticipantSnippet} {raised : Bool} :
      TailAlike snippet raised snippet raised
  | spelled {s : ParticipantSnippet} (h : s.asStr = RAISED_MARK) :
      TailAlike none true (some s) false
  | spells {s : ParticipantSnippet} (h : s.asStr = RAISED_MARK) :
      TailAlike (some s) false none true
  | shorter {s s' : ParticipantSnippet} (h : s'.asStr = s.asStr ++ " — raised this thread") :
      TailAlike (some s) true (some s') false
  | longer {s s' : ParticipantSnippet} (h : s.asStr = s'.asStr ++ " — raised this thread") :
      TailAlike (some s) false (some s') true

inductive ShownParticipant.Alike : ShownParticipant → ShownParticipant → Prop
  | note {text : ParticipantNote} : Alike (.note text) (.note text)
  | tail {name : ColleagueName} {kind : ColleagueKind} {snippet snippet' : Option ParticipantSnippet}
      {raised raised' : Bool} (h : TailAlike snippet raised snippet' raised') :
      Alike (.person name kind snippet raised) (.person name kind snippet' raised')
  | shorter {name name' : ColleagueName} {kind kind' : ColleagueKind}
      {snippet snippet' : Option ParticipantSnippet} {raised raised' : Bool}
      (h : CutElsewhere ' ' (kindTag kind) (behind snippet raised) (kindTag kind')
        (behind snippet' raised') name.asStr.toList name'.asStr.toList) :
      Alike (.person name kind snippet raised) (.person name' kind' snippet' raised')
  | longer {name name' : ColleagueName} {kind kind' : ColleagueKind}
      {snippet snippet' : Option ParticipantSnippet} {raised raised' : Bool}
      (h : CutElsewhere ' ' (kindTag kind') (behind snippet' raised') (kindTag kind)
        (behind snippet raised) name'.asStr.toList name.asStr.toList) :
      Alike (.person name kind snippet raised) (.person name' kind' snippet' raised')

theorem raisedTag_true : raisedTag true = " — ".toList ++ RAISED_MARK.toList := by decide

theorem behind_some (s : ParticipantSnippet) (raised : Bool) :
    behind (some s) raised = " — ".toList ++ (s.asStr.toList ++ raisedTag raised) := rfl

theorem mark_eq_iff (s : ParticipantSnippet) (raised : Bool) :
    RAISED_MARK.toList = s.asStr.toList ++ raisedTag raised ↔
      s.asStr = RAISED_MARK ∧ raised = false := by
  cases raised with
  | false =>
    rw [append_raisedTag_false, String.toList_inj, eq_comm]
    simp
  | true =>
    refine ⟨fun h => ?_, fun h => absurd h.2 (by decide)⟩
    have hlength := congrArg List.length h
    rw [raisedTag_true, List.length_append, List.length_append] at hlength
    have hdash : " — ".toList.length = 3 := by decide
    omega

theorem snippet_eq_iff (s s' : ParticipantSnippet) (raised raised' : Bool) :
    s.asStr.toList ++ raisedTag raised = s'.asStr.toList ++ raisedTag raised' ↔
      TailAlike (some s) raised (some s') raised' := by
  have hmark : ∀ a b : String, a.toList = b.toList ++ raisedTag true ↔
      a = b ++ " — raised this thread" := by
    intro a b
    have htag : raisedTag true = " — raised this thread".toList := by decide
    rw [htag, ← String.toList_inj, String.toList_append]
  constructor
  · intro h
    cases raised <;> cases raised'
    · rw [append_raisedTag_false, append_raisedTag_false] at h
      rw [ParticipantSnippet.asStr_inj.mp (String.toList_inj.mp h)]
      exact .same
    · rw [append_raisedTag_false] at h
      exact .longer ((hmark s.asStr s'.asStr).mp h)
    · rw [append_raisedTag_false] at h
      exact .shorter ((hmark s'.asStr s.asStr).mp h.symm)
    · rw [ParticipantSnippet.asStr_inj.mp (String.toList_inj.mp (List.append_cancel_right h))]
      exact .same
  · intro h
    cases h with
    | same => rfl
    | shorter h =>
      rw [append_raisedTag_false]
      exact ((hmark s'.asStr s.asStr).mpr h).symm
    | longer h =>
      rw [append_raisedTag_false]
      exact (hmark s.asStr s'.asStr).mpr h

theorem behind_eq_iff (snippet snippet' : Option ParticipantSnippet) (raised raised' : Bool) :
    behind snippet raised = behind snippet' raised' ↔
      TailAlike snippet raised snippet' raised' := by
  have hmark : ∀ (s : ParticipantSnippet) (raised raised' : Bool),
      raisedTag raised = behind (some s) raised' ↔
        raised = true ∧ s.asStr = RAISED_MARK ∧ raised' = false := by
    intro s raised raised'
    cases raised with
    | false =>
      have hne : behind (some s) raised' ≠ [] := List.cons_ne_nil _ _
      exact ⟨fun h => absurd h.symm hne, fun h => absurd h.1 (by decide)⟩
    | true =>
      rw [raisedTag_true, behind_some, List.append_right_inj, mark_eq_iff, and_iff_right rfl]
  cases snippet with
  | none =>
    cases snippet' with
    | none =>
      constructor
      · intro h
        cases raised <;> cases raised' <;> first | exact .same | exact absurd h (by decide)
      · intro h
        cases h
        rfl
    | some s' =>
      constructor
      · intro h
        obtain ⟨rfl, hs, rfl⟩ := (hmark s' raised raised').mp h
        exact .spelled hs
      · intro h
        cases h with
        | spelled h => exact (hmark s' true false).mpr ⟨rfl, h, rfl⟩
  | some s =>
    cases snippet' with
    | none =>
      constructor
      · intro h
        obtain ⟨rfl, hs, rfl⟩ := (hmark s raised' raised).mp h.symm
        exact .spells hs
      · intro h
        cases h with
        | spells h => exact ((hmark s true false).mpr ⟨rfl, h, rfl⟩).symm
    | some s' => rw [behind_some, behind_some, List.append_right_inj, snippet_eq_iff]

theorem kindTag_inj {a b : ColleagueKind} (h : kindTag a = kindTag b) : a = b := by
  cases a <;> cases b <;> first | rfl | exact absurd h (by decide)

theorem line_eq_iff (p p' : ShownParticipant) : p.line = p'.line ↔ p.Alike p' := by
  have hblank : ∀ kind, ' ' ∉ kindTag kind := by
    intro kind
    cases kind <;> decide
  have hlength : ∀ kind kind', (kindTag kind).length = (kindTag kind').length := by
    intro kind kind'
    cases kind <;> cases kind' <;> decide
  cases p with
  | note text =>
    cases p' with
    | note text' =>
      constructor
      · intro h
        have htext := (List.cons.inj (List.append_cancel_left h)).2
        rw [ParticipantNote.asStr_inj.mp (String.toList_inj.mp htext)]
        exact .note
      · intro h
        cases h
        rfl
    | person name' kind' snippet' raised' =>
      constructor
      · intro h
        exact absurd (congrArg List.head? h) (by simp [ShownParticipant.line, NOTE_MARK])
      · intro h
        cases h
  | person name kind snippet raised =>
    cases p' with
    | note text' =>
      constructor
      · intro h
        exact absurd (congrArg List.head? h) (by simp [ShownParticipant.line, NOTE_MARK])
      · intro h
        cases h
    | person name' kind' snippet' raised' =>
      have hcut : name.asStr.toList ++ ' ' :: (kindTag kind ++ behind snippet raised) =
          name'.asStr.toList ++ ' ' :: (kindTag kind' ++ behind snippet' raised') ↔ _ :=
        append_cut_iff (hblank kind) (hblank kind') (hlength kind kind')
      constructor
      · intro h
        rcases hcut.mp (List.cons.inj (List.append_cancel_left h)).2 with ⟨hname, hkind, htail⟩ | h | h
        · rw [ColleagueName.asStr_inj.mp (String.toList_inj.mp hname), kindTag_inj hkind]
          exact .tail ((behind_eq_iff _ _ _ _).mp htail)
        · exact .shorter h
        · exact .longer h
      · intro h
        refine congrArg (fun rest => ['-'] ++ ' ' :: rest) (hcut.mpr ?_)
        cases h with
        | tail h => exact .inl ⟨rfl, rfl, (behind_eq_iff _ _ _ _).mpr h⟩
        | shorter h => exact .inr (.inl h)
        | longer h => exact .inr (.inr h)

theorem header_inj {a b : Option ColleagueName} (h : headerLine a = headerLine b) : a = b := by
  have hlength : ∀ name : ColleagueName, (headerLine (some name)).length ≠ PEOPLE.toList.length := by
    intro name
    have hraised : RAISED_BY.toList.length = 54 := by decide
    have hpeople : PEOPLE.toList.length = 28 := by decide
    rw [headerLine, List.length_append, hraised, hpeople]
    omega
  cases a with
  | none =>
    cases b with
    | none => rfl
    | some name => exact absurd (congrArg List.length h).symm (hlength name)
  | some name =>
    cases b with
    | none => exact absurd (congrArg List.length h) (hlength name)
    | some name' =>
      have hname := List.append_cancel_right (List.cons.inj (List.append_cancel_left h)).2
      rw [ColleagueName.asStr_inj.mp (String.toList_inj.mp hname)]

theorem participantLines_eq_iff (x y : List ParticipantLine) :
    participantLines x = participantLines y ↔ raiser x = raiser y ∧
      List.Forall₂ ShownParticipant.Alike (shownParticipants x) (shownParticipants y) := by
  have halike : ∀ ps qs : List ShownParticipant,
      ps.map ShownParticipant.line = qs.map ShownParticipant.line ↔
        List.Forall₂ ShownParticipant.Alike ps qs := by
    intro ps qs
    rw [← List.forall₂_eq_eq_eq, List.forall₂_map_left_iff, List.forall₂_map_right_iff]
    simp only [line_eq_iff]
  rw [← halike]
  cases x with
  | nil =>
    cases y with
    | nil => simp
    | cons line' rest' => simp [participantLines, shownParticipants, showLine, MAX_PARTICIPANTS_INLINE]
  | cons line rest =>
    cases y with
    | nil => simp [participantLines, shownParticipants, showLine, MAX_PARTICIPANTS_INLINE]
    | cons line' rest' =>
      rw [participantLines, participantLines, if_neg (List.cons_ne_nil _ _),
        if_neg (List.cons_ne_nil _ _)]
      constructor
      · intro h
        obtain ⟨hheader, hshown⟩ := List.cons.inj (List.cons.inj h).2
        exact ⟨header_inj hheader, hshown⟩
      · rintro ⟨hraiser, hshown⟩
        rw [hraiser, hshown]

theorem participants_unforged_iff (x y : List ParticipantLine) :
    participantsEnvelope.Unforged x y ↔ CleanBlock x ∧ CleanBlock y ∧
      (raiser x = raiser y → List.Forall₂ ShownParticipant.Alike (shownParticipants x)
        (shownParticipants y) → shownParticipants x = shownParticipants y) := by
  rw [participants_laid.unforged_iff, clean_lines_iff, clean_lines_iff, participantLines_eq_iff,
    and_imp]
  rfl

end Alike

end Patom.Colleagues
