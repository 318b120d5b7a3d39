import Patom.Foundation.Envelope
import Patom.TypesLaws

open Patom.Foundation

namespace Patom.Colleagues

section Types

def COLLEAGUE_NAME_MAX_LEN : Nat := 200

inductive ColleagueKind
  | human
  | agent
  deriving DecidableEq

def ColleagueKind.asStr : ColleagueKind → String
  | .human => "human"
  | .agent => "agent"

theorem ColleagueKind.asStr_inj {a b : ColleagueKind} (h : a.asStr = b.asStr) : a = b := by
  cases a <;> cases b <;> first | rfl | exact absurd h (by decide)

structure ColleagueName where
  asStr : String
  nonempty : asStr ≠ ""
  bounded : asStr.utf8ByteSize ≤ COLLEAGUE_NAME_MAX_LEN

def ColleagueName.tryFrom (raw : String) : Except ParseError ColleagueName :=
  if h : raw = "" then .error (.empty "colleague_name")
  else if h' : raw.utf8ByteSize ≤ COLLEAGUE_NAME_MAX_LEN then .ok ⟨raw, h, h'⟩
  else .error (.tooLong "colleague_name" COLLEAGUE_NAME_MAX_LEN raw.utf8ByteSize)

theorem ColleagueName.asStr_inj {a b : ColleagueName} : a.asStr = b.asStr ↔ a = b := by
  cases a
  cases b
  simp

instance colleagueNameDecidableEq : DecidableEq ColleagueName := fun _ _ =>
  decidable_of_iff _ ColleagueName.asStr_inj

structure ColleagueRef where
  id : ColleagueId
  kind : ColleagueKind
  displayName : ColleagueName
  deriving DecidableEq

end Types

section Model

def MAX_ROSTER_INLINE : Nat := 256

def ROSTER_TAG_OPEN : String := "<colleagues>\n"
def ROSTER_TAG_CLOSE : String := "\n</colleagues>"

def ROSTER_INTRO : String :=
  "Your colleagues. Address one with `send_message` (by id), record what you learn about one " ++
  "with `memory_write` (pass its id as `subject`), or look one up with `search_colleague`:\n"

abbrev Overrides := ColleagueId → Option ColleagueName

def ColleagueRef.labelled (overrides : Overrides) (c : ColleagueRef) : ColleagueRef :=
  { c with displayName := (overrides c.id).getD c.displayName }

def renderPeer (c : ColleagueRef) : String :=
  "- " ++ c.displayName.asStr ++ " — " ++ c.kind.asStr ++ ", id " ++ Uuid.display c.id

def renderRosterBlock (roster : List ColleagueRef) (viewer : ColleagueId) (overrides : Overrides) :
    String :=
  let peers := roster.filter (·.id ≠ viewer)
  if peers.isEmpty then ""
  else if MAX_ROSTER_INLINE < peers.length then
    ROSTER_TAG_OPEN ++ (toString peers.length ++
      " colleagues available; use `search_colleague` to find one.") ++ ROSTER_TAG_CLOSE
  else
    ROSTER_TAG_OPEN ++ ROSTER_INTRO ++
      "\n".intercalate (peers.map fun c => renderPeer (c.labelled overrides)) ++ ROSTER_TAG_CLOSE

structure Roster where
  colleagues : List ColleagueRef
  viewer : ColleagueId
  overrides : Overrides

def Roster.peers (r : Roster) : List ColleagueRef := r.colleagues.filter (·.id ≠ r.viewer)

/-- The peers that are listed, under the names they are listed by; a long roster lists none. -/
def Roster.shown (r : Roster) : List ColleagueRef :=
  if MAX_ROSTER_INLINE < r.peers.length then [] else r.peers.map (·.labelled r.overrides)

def rosterEnvelope : Envelope Roster ColleagueRef Char where
  newline := '\n'
  close := "</colleagues>".toList
  block r := (renderRosterBlock r.colleagues r.viewer r.overrides).toList
  shown := Roster.shown
  fixed _ := 3

end Model

section Lines

def peerLine (c : ColleagueRef) : List Char :=
  ['-'] ++ ' ' :: (c.displayName.asStr.toList ++ ' ' ::
    ("— ".toList ++ (c.kind.asStr.toList ++ (", id ".toList ++ Uuid.chars c.id))))

def noticeLine (peers : Nat) : List Char :=
  Nat.toDigits 10 peers ++ " colleagues available; use `search_colleague` to find one.".toList

def INTRO_LINE : String :=
  "Your colleagues. Address one with `send_message` (by id), record what you learn about one " ++
  "with `memory_write` (pass its id as `subject`), or look one up with `search_colleague`:"

def Roster.lines (r : Roster) : List (List Char) :=
  if r.peers = [] then []
  else if MAX_ROSTER_INLINE < r.peers.length then
    ["<colleagues>".toList, noticeLine r.peers.length]
  else "<colleagues>".toList :: INTRO_LINE.toList :: r.shown.map peerLine

theorem lines_eq_nil (r : Roster) : r.lines = [] ↔ r.peers = [] := by
  unfold Roster.lines
  split
  · next h => simp [h]
  · next h =>
    split <;> simp [h]

theorem renderPeer_eq (c : ColleagueRef) : (renderPeer c).toList = peerLine c := by
  simp [renderPeer, peerLine, Uuid.display]

theorem joined_lines {lines : List (List Char)} (h : lines ≠ []) :
    ['\n'].intercalate lines ++ ['\n'] = lines.flatMap (· ++ ['\n']) := by
  obtain ⟨body, last, rfl⟩ := List.eq_nil_or_concat' lines |>.resolve_left h
  rw [intercalate_concat, List.flatMap_append]
  simp

theorem renderRosterBlock_eq (r : Roster) :
    renderRosterBlock r.colleagues r.viewer r.overrides =
      if r.peers.isEmpty then ""
      else if MAX_ROSTER_INLINE < r.peers.length then
        ROSTER_TAG_OPEN ++ (toString r.peers.length ++
          " colleagues available; use `search_colleague` to find one.") ++ ROSTER_TAG_CLOSE
      else
        ROSTER_TAG_OPEN ++ ROSTER_INTRO ++
          "\n".intercalate (r.peers.map fun c => renderPeer (c.labelled r.overrides)) ++
            ROSTER_TAG_CLOSE := rfl

theorem rosterIntro_eq : ROSTER_INTRO.toList = INTRO_LINE.toList ++ ['\n'] := by
  delta ROSTER_INTRO INTRO_LINE
  simp only [String.toList_append, String.reduceToList]
  rfl

theorem rosterBlock_eq {r : Roster} (h : r.peers ≠ []) :
    (renderRosterBlock r.colleagues r.viewer r.overrides).toList =
      r.lines.flatMap (· ++ ['\n']) ++ "</colleagues>".toList := by
  rw [renderRosterBlock_eq, Roster.lines, if_neg h, if_neg (by simpa using h)]
  split
  · simp [noticeLine, ROSTER_TAG_OPEN, ROSTER_TAG_CLOSE]
  · next hlong =>
    have hshown : r.shown.map peerLine ≠ [] := by simpa [Roster.shown, hlong] using h
    have hlines : (r.peers.map fun c => renderPeer (c.labelled r.overrides)).map String.toList =
        r.shown.map peerLine := by
      simp [Roster.shown, hlong, renderPeer_eq]
    rw [String.toList_append, String.toList_append, String.toList_append,
      String.toList_intercalate, hlines, List.flatMap_cons, List.flatMap_cons,
      ← joined_lines hshown, rosterIntro_eq]
    simp [ROSTER_TAG_OPEN, ROSTER_TAG_CLOSE]

theorem roster_laid : rosterEnvelope.Laid Roster.lines where
  newline := by decide
  nonempty := by decide
  empty r h := by
    rw [lines_eq_nil] at h
    change (renderRosterBlock r.colleagues r.viewer r.overrides).toList = []
    rw [renderRosterBlock_eq, if_pos (by rw [h]; rfl)]
    rfl
  block r h := rosterBlock_eq ((lines_eq_nil r).not.mp h)
  lines r h := by
    change r.lines.length + 1 = 3 + r.shown.length
    rw [Roster.lines, if_neg ((lines_eq_nil r).not.mp h)]
    split
    · next hlong => simp [Roster.shown, hlong]
    · simp
      omega

end Lines

section Laws

/-- A name that neither ends the line of a colleague nor closes the roster. -/
def ColleagueRef.Clean (c : ColleagueRef) : Prop :=
  rosterEnvelope.Clean c.displayName.asStr.toList

theorem clean_roster_of_notMem {text : List Char} (hline : '\n' ∉ text) (h : '<' ∉ text) :
    rosterEnvelope.Clean text := by
  have htag : '<' ∈ rosterEnvelope.close := by decide
  exact clean_of_notMem htag hline h

theorem notMem_chars (u : Uuid) {c : Char} (h : c ∉ "0123456789abcdef-".toList) : c ∉ u.chars := by
  have hhex : ∀ top n, c ∉ u.hex top n := by
    intro top n hmem
    obtain ⟨j, -, hj⟩ := List.mem_map.mp hmem
    have hdigit : ∀ i : Fin 16, Nat.digitChar i ∈ "0123456789abcdef-".toList := by decide
    exact h (hj ▸ hdigit ⟨u.nibble (top - j), u.nibble_lt _⟩)
  have hdash : c ≠ '-' := fun e => h (e ▸ by decide)
  simp [Uuid.chars, hhex, hdash]

theorem clean_peerLine (c : ColleagueRef) : rosterEnvelope.Clean (peerLine c) ↔ c.Clean := by
  have hblank : ' ' ∉ rosterEnvelope.close := by decide
  have hbehind : ∀ d ∈ ['\n', '<'], d ∉ "— ".toList ++ (c.kind.asStr.toList ++
      (", id ".toList ++ Uuid.chars c.id)) := by
    intro d hd
    have hid : d ∉ Uuid.chars c.id := by
      apply notMem_chars
      fin_cases hd <;> decide
    cases c.kind <;> fin_cases hd <;> simp_all [ColleagueKind.asStr]
  have hclean := clean_roster_of_notMem (hbehind '\n' (by decide)) (hbehind '<' (by decide))
  have hdash : rosterEnvelope.Clean ['-'] := clean_roster_of_notMem (by decide) (by decide)
  rw [peerLine, roster_laid.clean_append_cons hblank (by decide),
    roster_laid.clean_append_cons hblank (by decide)]
  simp only [hdash, hclean, true_and, and_true, ColleagueRef.Clean]

theorem peerLine_injective : Function.Injective peerLine := by
  intro c c' h
  have hline : ∀ c : ColleagueRef, peerLine c = "- ".toList ++ (c.displayName.asStr.toList ++
      (" — ".toList ++ (c.kind.asStr.toList ++ (", id ".toList ++ Uuid.chars c.id)))) := fun _ => rfl
  have hkind : ∀ c : ColleagueRef, c.kind.asStr.toList.length = 5 := by
    intro c
    cases c.kind <;> rfl
  rw [hline, hline] at h
  obtain ⟨hname, hrest⟩ := List.append_inj' (List.append_cancel_left h) (by simp [hkind])
  obtain ⟨hkinds, hid⟩ := List.append_inj (List.append_cancel_left hrest) (by simp [hkind])
  have hids := Uuid.chars_injective (List.append_cancel_left hid)
  rcases c with ⟨id, kind, name⟩
  rcases c' with ⟨id', kind', name'⟩
  rw [ColleagueRef.mk.injEq]
  exact ⟨hids, ColleagueKind.asStr_inj (String.toList_inj.mp hkinds),
    ColleagueName.asStr_inj.mp (String.toList_inj.mp hname)⟩

theorem clean_intro : rosterEnvelope.Clean INTRO_LINE.toList := by
  delta INTRO_LINE
  simp only [String.toList_append, String.reduceToList]
  apply clean_roster_of_notMem <;> decide

theorem clean_notice (peers : Nat) : rosterEnvelope.Clean (noticeLine peers) := by
  have hdigits : ∀ c : Char, c.isDigit = false → c ∉ Nat.toDigits 10 peers := by
    intro c hc h
    rw [Nat.isDigit_of_mem_toDigits (by decide) (by decide) h] at hc
    cases hc
  apply clean_roster_of_notMem <;> simp [noticeLine, hdigits]

theorem clean_open : rosterEnvelope.Clean "<colleagues>".toList := by
  have htag : '/' ∈ rosterEnvelope.close := by decide
  exact clean_of_notMem htag (by decide) (by decide)

theorem clean_lines (r : Roster) :
    (∀ line ∈ r.lines, rosterEnvelope.Clean line) ↔ ∀ c ∈ r.shown, c.Clean := by
  unfold Roster.lines
  split
  · next h => simp [Roster.shown, h]
  · split
    · next hlong =>
      rw [List.forall_mem_cons, List.forall_mem_singleton, Roster.shown, if_pos hlong]
      simp only [clean_open, clean_notice, List.not_mem_nil, and_self, false_implies, implies_true]
    · rw [List.forall_mem_cons, List.forall_mem_cons, List.forall_mem_map]
      simp only [clean_open, clean_intro, true_and, clean_peerLine]

theorem drop_lines (r : Roster) : r.lines.drop 2 = r.shown.map peerLine := by
  unfold Roster.lines
  split
  · next h => simp [Roster.shown, h]
  · split
    · next hlong => simp [Roster.shown, hlong]
    · rfl

theorem roster_unforged_iff (x y : Roster) :
    rosterEnvelope.Unforged x y ↔ (∀ c ∈ x.shown, c.Clean) ∧ ∀ c ∈ y.shown, c.Clean := by
  have hshown : x.lines = y.lines → x.shown = y.shown := by
    intro h
    have hdrop := congrArg (List.drop 2) h
    rw [drop_lines, drop_lines] at hdrop
    exact peerLine_injective.list_map hdrop
  rw [roster_laid.unforged_iff, clean_lines, clean_lines]
  exact ⟨fun h => ⟨h.1, h.2.1⟩, fun h => ⟨h.1, h.2, hshown⟩⟩

end Laws

end Patom.Colleagues
