import Mathlib.Data.List.Sort
import Patom.Foundation.Scanner
import Patom.Text

universe v

open Patom.Foundation

namespace Patom.Mentions

section Scanner

variable {κ : Type v} (name : κ → List Char) (listed : List κ) (closes : List Char → Bool)

def nameAt (afterAt : List Char) : Option κ :=
  listed.find? fun k => (name k).isPrefixOf afterAt && closes (afterAt.drop (name k).length)

variable {name listed closes} in
theorem nameAt_spec {afterAt : List Char} {k : κ}
    (h : nameAt name listed closes afterAt = some k) :
    k ∈ listed ∧ name k <+: afterAt ∧ closes (afterAt.drop (name k).length) = true := by
  have hp := List.find?_some h
  rw [Bool.and_eq_true, List.isPrefixOf_iff_prefix] at hp
  exact ⟨List.mem_of_find?_eq_some h, hp⟩

def findAt (edge : Bool) (rest : List Char) : Option κ :=
  if rest.head? = some '@' && edge then nameAt name listed closes rest.tail else none

theorem findAt_cons (edge : Bool) (ch : Char) (rest : List Char) :
    findAt name listed closes edge (ch :: rest)
      = if ch = '@' && edge then nameAt name listed closes rest else none := by
  simp [findAt]

variable {name listed closes} in
theorem findAt_eq_some {edge : Bool} {rest : List Char} {k : κ}
    (h : findAt name listed closes edge rest = some k) :
    edge = true ∧
      ∃ afterAt, rest = '@' :: afterAt ∧ nameAt name listed closes afterAt = some k := by
  cases rest with
  | nil => cases h
  | cons ch rest =>
    rw [findAt_cons, Option.ite_none_right_eq_some, Bool.and_eq_true, decide_eq_true_iff] at h
    obtain ⟨⟨rfl, hedge⟩, hname⟩ := h
    exact ⟨hedge, rest, rfl, hname⟩

theorem findAt_of_ne {edge : Bool} {ch : Char} {rest : List Char} (h : ch ≠ '@') :
    findAt name listed closes edge (ch :: rest) = none := by
  rw [findAt_cons, decide_eq_false h, Bool.false_and, if_neg Bool.false_ne_true]

/-- Looks for names behind an `@` that has nothing or a space before it. -/
def nameScanner (space : Char → Bool) (behind : κ → Bool) : Scanner Char κ where
  text k := '@' :: name k
  find := findAt name listed closes
  lit := space
  named := behind
  found h := by
    obtain ⟨-, afterAt, rfl, hname⟩ := findAt_eq_some h
    obtain ⟨-, ⟨rest, hrest⟩, -⟩ := nameAt_spec hname
    exact ⟨List.cons_ne_nil _ _, rest, by rw [List.cons_append, hrest]⟩

variable {name listed closes} in
theorem within_name {edge : Bool} {rest : List Char} {k : κ} {a : Char} {mid tail : List Char}
    (hplain : ∀ k ∈ listed, '@' ∉ name k) (h : findAt name listed closes edge rest = some k)
    (htext : '@' :: name k = a :: mid ++ tail) (htail : tail ≠ []) :
    ∃ ch tail', tail = ch :: tail' ∧ ch ≠ '@' := by
  obtain ⟨-, afterAt, -, hname⟩ := findAt_eq_some h
  obtain ⟨ch, tail', rfl⟩ := List.exists_cons_of_ne_nil htail
  refine ⟨ch, tail', rfl, ?_⟩
  rintro rfl
  refine hplain k (nameAt_spec hname).1 ?_
  rw [(List.cons.inj htext).2]
  exact List.mem_append_right mid List.mem_cons_self

end Scanner

section Longest

variable (closes : List Char → Bool)

def longestAt (listed : List (List Char)) (afterAt : List Char) : Option Nat :=
  ((listed.filter fun name => name.isPrefixOf afterAt && closes (afterAt.drop name.length)).map
    List.length).max?

theorem longestAt_congr {listed listed' : List (List Char)} (h : ∀ name, name ∈ listed ↔ name ∈ listed')
    (afterAt : List Char) : longestAt closes listed afterAt = longestAt closes listed' afterAt := by
  refine Option.ext fun n => ?_
  simp only [longestAt, List.max?_eq_some_iff, List.mem_map, List.mem_filter, h]

def Descends (listed : List (List Char)) : Prop :=
  listed.Pairwise fun a b => ∀ text, a <+: text → b <+: text → b.length ≤ a.length

variable {closes}

theorem nameAt_length {κ : Type v} {name : κ → List Char} {listed : List κ}
    (hsorted : Descends (listed.map name)) (afterAt : List Char) :
    (nameAt name listed closes afterAt).map (fun k => (name k).length)
      = longestAt closes (listed.map name) afterAt := by
  rw [nameAt, ← List.head?_filter, ← List.head?_map, longestAt, List.filter_map, List.map_map]
  refine (List.max?_eq_head? ?_).symm
  rw [List.pairwise_map]
  refine ((List.pairwise_map.mp hsorted).sublist List.filter_sublist).imp_of_mem
    fun {k k'} hk hk' hle => ?_
  have hleads {k : κ} (hk : k ∈ listed.filter ((fun name => name.isPrefixOf afterAt &&
      closes (afterAt.drop name.length)) ∘ name)) : name k <+: afterAt :=
    List.isPrefixOf_iff_prefix.mp (Bool.and_eq_true_iff.mp (List.mem_filter.mp hk).2).1
  exact Nat.max_eq_left (hle afterAt (hleads hk) (hleads hk'))

theorem length_le_of_size {size : List Char → Nat} (happend : ∀ a b, size (a ++ b) = size a + size b)
    (hpos : ∀ a, a ≠ [] → 0 < size a) {a b text : List Char} (ha : a <+: text) (hb : b <+: text)
    (hsize : size a ≤ size b) : a.length ≤ b.length := by
  obtain hab | hba := List.prefix_or_prefix_of_prefix ha hb
  · exact hab.length_le
  · obtain ⟨rest, rfl⟩ := hba
    rw [happend] at hsize
    have hrest : rest = [] := by
      by_contra hne
      have := hpos rest hne
      omega
    rw [hrest, List.append_nil]

end Longest

section Handles

variable (isAlphanumeric : Char → Bool)

def isNameChar (c : Char) : Bool := isAlphanumeric c || c = '-' || c = '_'

def nameEnds (rest : List Char) : Bool := rest.head?.all fun c => !isNameChar isAlphanumeric c

def longestFirst {ι : Type v} (handles : List (List Char × ι)) : List (List Char × ι) :=
  (handles.filter fun h => h.1 ≠ []).insertionSort fun h h' => byteLen h'.1 ≤ byteLen h.1

def handleScanner {ι : Type v} (handles : List (List Char × ι)) : Scanner Char (List Char × ι) :=
  nameScanner Prod.fst (longestFirst handles) (nameEnds isAlphanumeric) isWhitespace fun _ => false

variable {isAlphanumeric} {ι : Type v} {handles : List (List Char × ι)} {h h' : List Char × ι}

theorem mem_longestFirst : h ∈ longestFirst handles ↔ h ∈ handles ∧ h.1 ≠ [] := by
  rw [longestFirst, List.mem_insertionSort, List.mem_filter, decide_eq_true_iff]

theorem find_handle (edge : Bool) (ch : Char) (rest : List Char) :
    (handleScanner isAlphanumeric handles).find edge (ch :: rest)
      = if ch = '@' && edge then
          (longestFirst handles).find? fun h =>
            h.1.isPrefixOf rest && nameEnds isAlphanumeric (rest.drop h.1.length)
        else none :=
  findAt_cons _ _ _ edge ch rest

theorem length_le_of_prefix {a b text : List Char} (ha : a <+: text) (hb : b <+: text)
    (hbytes : byteLen a ≤ byteLen b) : a.length ≤ b.length :=
  length_le_of_size byteLen_append (fun _ => byteLen_pos) ha hb hbytes

theorem scan_handle {afterAt rest : List Char}
    (hname : nameAt Prod.fst (longestFirst handles) (nameEnds isAlphanumeric) afterAt = some h)
    (hrest : afterAt = h.1 ++ rest) :
    (handleScanner isAlphanumeric handles).scan true ('@' :: afterAt)
      = .named h :: (handleScanner isAlphanumeric handles).scan false rest :=
  Scanner.scan_some _ ((findAt_cons _ _ _ true '@' afterAt).trans hname)
    (congrArg ('@' :: ·) hrest)

theorem longestFirst_sorted : Descends ((longestFirst handles).map Prod.fst) := by
  refine List.pairwise_map.mpr ((List.pairwise_insertionSort _ _).imp fun hbytes text ha hb => ?_)
  exact length_le_of_prefix hb ha hbytes

theorem longest_of_nameAt {afterAt : List Char}
    (hfind : nameAt Prod.fst (longestFirst handles) (nameEnds isAlphanumeric) afterAt = some h)
    (hmem : h' ∈ handles) (hne : h'.1 ≠ []) (hleads : h'.1 <+: afterAt)
    (hends : nameEnds isAlphanumeric (afterAt.drop h'.1.length)) : h'.1.length ≤ h.1.length := by
  obtain ⟨hp, before, after, hsorted, hbefore⟩ := List.find?_eq_some_iff_append.mp hfind
  have hmatches : (h'.1.isPrefixOf afterAt &&
      nameEnds isAlphanumeric (afterAt.drop h'.1.length)) = true :=
    Bool.and_eq_true_iff.mpr ⟨List.isPrefixOf_iff_prefix.mpr hleads, hends⟩
  have hpairwise := List.pairwise_insertionSort
    (fun h h' : List Char × ι => byteLen h'.1 ≤ byteLen h.1) (handles.filter fun h => h.1 ≠ [])
  have hin := mem_longestFirst.mpr ⟨hmem, hne⟩
  rw [longestFirst] at hin hsorted
  rw [hsorted] at hin hpairwise
  obtain hin | hin := List.mem_append.mp hin
  · have hnot := hbefore h' hin
    rw [hmatches] at hnot
    cases hnot
  · obtain rfl | hin := List.mem_cons.mp hin
    · exact le_rfl
    · have hbytes := (List.pairwise_cons.mp (List.pairwise_append.mp hpairwise).2.1).1 h' hin
      exact length_le_of_prefix hleads (nameAt_spec hfind).2.1 hbytes

end Handles

/-- What `\s` stands for in a regular expression. -/
def isJsSpace (c : Char) : Bool :=
  let n := c.toNat
  (9 ≤ n ∧ n ≤ 13) ∨ n = 32 ∨ n = 0xA0 ∨ n = 0x1680 ∨ (0x2000 ≤ n ∧ n ≤ 0x200A) ∨
    n = 0x2028 ∨ n = 0x2029 ∨ n = 0x202F ∨ n = 0x205F ∨ n = 0x3000 ∨ n = 0xFEFF

def jsLength (text : List Char) : Nat :=
  (text.map fun c => if c.toNat < 0x10000 then 1 else 2).sum

def jsNameEnds (rest : List Char) : Bool :=
  rest.head?.all fun c => isJsSpace c || c ∈ ".,!?;:".toList

theorem jsLength_append (a b : List Char) : jsLength (a ++ b) = jsLength a + jsLength b := by
  rw [jsLength, List.map_append, List.sum_append, jsLength, jsLength]

theorem jsLength_pos {a : List Char} (h : a ≠ []) : 0 < jsLength a := by
  obtain ⟨ch, rest, rfl⟩ := List.exists_cons_of_ne_nil h
  rw [jsLength, List.map_cons, List.sum_cons]
  split <;> omega

structure NamedMention where
  name : List Char
  start : Nat
  stop : Nat
  deriving DecidableEq

def jsSorted (names : List (List Char)) : List (List Char) :=
  names.insertionSort fun a b => jsLength b ≤ jsLength a

theorem jsSorted_sorted (names : List (List Char)) : Descends ((jsSorted names).map id) := by
  rw [List.map_id]
  exact (List.pairwise_insertionSort _ _).imp fun hlen text ha hb =>
    length_le_of_size jsLength_append (fun _ => jsLength_pos) hb ha hlen

def findLoop (text : List Char) (sorted : List (List Char)) :
    Nat → Nat → List NamedMention → List NamedMention
  | 0, _, out => out
  | turns + 1, i, out =>
    match text[i]? with
    | none => out
    | some ch =>
      match if ch = '@' && (i = 0 || (text[i - 1]?).any isJsSpace) then
          sorted.find? fun name => (text.drop (i + 1)).take name.length = name &&
            jsNameEnds (text.drop (i + 1 + name.length))
        else none with
      | some name =>
        findLoop text sorted turns (i + 1 + name.length)
          (out ++ [⟨name, i, i + 1 + name.length⟩])
      | none => findLoop text sorted turns (i + 1) out

def findNamedMentions (text : List Char) (names : List (List Char)) : List NamedMention :=
  if text = [] || names = [] then [] else findLoop text (jsSorted names) text.length 0 []

def behindName (name : List Char) : Bool := isJsSpace (('@' :: name).getLast (List.cons_ne_nil _ _))

def webScanner (names : List (List Char)) : Scanner Char (List Char) :=
  nameScanner id (jsSorted names) jsNameEnds isJsSpace behindName

def NamedMention.span (m : NamedMention) : Nat × Nat := (m.start, m.stop)

theorem findLoop_find (names : List (List Char)) (before rest : List Char) (ch : Char) :
    (if ch = '@' && (before.length = 0 ||
        ((before ++ ch :: rest)[before.length - 1]?).any isJsSpace) then
      (jsSorted names).find? fun name =>
        ((before ++ ch :: rest).drop (before.length + 1)).take name.length = name &&
          jsNameEnds ((before ++ ch :: rest).drop (before.length + 1 + name.length))
    else none) = (webScanner names).find (before.getLast?.all isJsSpace) (ch :: rest) := by
  have hdrop : (before ++ ch :: rest).drop (before.length + 1) = rest := by simp
  have hedge : (decide (before.length = 0) ||
      ((before ++ ch :: rest)[before.length - 1]?).any isJsSpace)
        = before.getLast?.all isJsSpace := by
    induction before using List.reverseRecOn with
    | nil => rfl
    | append_singleton before c => simp
  have hfind : (webScanner names).find (before.getLast?.all isJsSpace) (ch :: rest)
      = if ch = '@' && before.getLast?.all isJsSpace then
        nameAt id (jsSorted names) jsNameEnds rest else none := findAt_cons _ _ _ _ ch rest
  rw [hfind, hedge]
  refine if_congr Iff.rfl (congrArg (List.find? · _) (funext fun name => ?_)) rfl
  have hdrop' : (before ++ ch :: rest).drop (before.length + 1 + name.length)
      = rest.drop name.length :=
    List.drop_drop.symm.trans (congrArg (List.drop name.length) hdrop)
  have hleads : decide (rest.take name.length = name) = name.isPrefixOf rest := by
    refine Bool.eq_iff_iff.mpr ?_
    rw [decide_eq_true_iff, List.isPrefixOf_iff_prefix, List.prefix_iff_eq_take]
    exact eq_comm
  rw [hdrop, hdrop', hleads]
  rfl

theorem findLoop_spans (names : List (List Char)) (turns : Nat) (before rest : List Char)
    (out : List NamedMention) (hturns : rest.length ≤ turns) :
    (findLoop (before ++ rest) (jsSorted names) turns before.length out).map NamedMention.span
      = out.map NamedMention.span ++ (webScanner names).spans before.length
        ((webScanner names).scan (before.getLast?.all isJsSpace) rest) := by
  induction turns generalizing before rest out with
  | zero =>
    obtain rfl := List.eq_nil_of_length_eq_zero (Nat.le_zero.mp hturns)
    simp [findLoop, Scanner.spans]
  | succ turns ih =>
    cases rest with
    | nil => simp [findLoop, Scanner.spans]
    | cons ch rest =>
      have hget : (before ++ ch :: rest)[before.length]? = some ch := by simp
      rw [findLoop, hget]
      simp only [findLoop_find]
      cases hfind : (webScanner names).find (before.getLast?.all isJsSpace) (ch :: rest) with
      | none =>
        rw [Scanner.scan_none _ hfind]
        have hrest := ih (before ++ [ch]) rest out (Nat.le_of_succ_le_succ hturns)
        rw [List.append_assoc, List.singleton_append, List.length_append,
          List.getLast?_append] at hrest
        exact hrest
      | some name =>
        obtain ⟨-, afterAt, htext, hname⟩ := findAt_eq_some hfind
        obtain ⟨rfl, rfl⟩ := List.cons.inj htext
        obtain ⟨-, ⟨rest', rfl⟩, -⟩ := nameAt_spec hname
        have hlen : rest'.length ≤ turns := by
          simp only [List.length_cons, List.length_append] at hturns
          omega
        have hscan : (webScanner names).scan (before.getLast?.all isJsSpace)
            ('@' :: (name ++ rest')) = .named name ::
              (webScanner names).scan (behindName name) rest' := Scanner.scan_some _ hfind rfl
        have hlast : (before ++ '@' :: name).getLast?.all isJsSpace = behindName name := by
          rw [List.getLast?_append, List.getLast?_eq_some_getLast (List.cons_ne_nil _ _)]
          rfl
        have hlength : (before ++ '@' :: name).length = before.length + 1 + name.length := by
          rw [List.length_append, List.length_cons, Nat.add_right_comm, Nat.add_assoc]
        have hrest := ih (before ++ '@' :: name) rest'
          (out ++ [⟨name, before.length, before.length + 1 + name.length⟩]) hlen
        rw [hlast, hlength, List.append_assoc, List.map_append, List.append_assoc] at hrest
        have hstop : before.length + ('@' :: name).length = before.length + 1 + name.length := by
          rw [List.length_cons, Nat.add_right_comm, Nat.add_assoc]
        have hspans : (webScanner names).spans before.length (.named name ::
            (webScanner names).scan (behindName name) rest')
            = (before.length, before.length + 1 + name.length) ::
              (webScanner names).spans (before.length + 1 + name.length)
                ((webScanner names).scan (behindName name) rest') := by
          rw [Scanner.spans, ← hstop]
          rfl
        rw [id_eq, hscan, hspans]
        exact hrest

theorem findNamedMentions_spans (text : List Char) (names : List (List Char)) :
    (findNamedMentions text names).map NamedMention.span
      = (webScanner names).spans 0 ((webScanner names).scan true text) := by
  unfold findNamedMentions
  split
  · rename_i hnothing
    obtain hnone | hnone := Bool.or_eq_true_iff.mp hnothing
    · obtain rfl : text = [] := of_decide_eq_true hnone
      rfl
    · obtain rfl : names = [] := of_decide_eq_true hnone
      rw [Scanner.scan_of_find_none _ fun edge text => ite_self none, Scanner.spans_lit]
      rfl
  · exact findLoop_spans names text.length [] text [] le_rfl

end Patom.Mentions
