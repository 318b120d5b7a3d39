import Patom.Discord.Outbound
import Patom.Lark.Outbound
import Patom.Mentions.Names

universe v w

open Patom.Foundation

namespace Patom.Mentions

structure Contact where
  name : List Char
  discord : Discord.DiscordUserId
  lark : Lark.LarkOpenId

def discordHandles (roster : List Contact) : List Discord.Named :=
  roster.map fun c => (c.name, c.discord)

def larkHandles (roster : List Contact) : List Lark.Handle := roster.map fun c => (c.name, c.lark)

def names (roster : List Contact) : List (List Char) := roster.map (·.name)

section Definitions

variable (isAlphanumeric : Char → Bool) (text : List Char) (roster : List Contact)

def discordSpans : List (Nat × Nat) :=
  (handleScanner isAlphanumeric (discordHandles roster)).spans 0
    (Discord.segments isAlphanumeric text (discordHandles roster))

def larkSpans : List (Nat × Nat) :=
  (handleScanner isAlphanumeric (larkHandles roster)).spans 0
    (Lark.segments isAlphanumeric text (larkHandles roster))

/-- Both channels rewrite what the web client highlights. -/
def SpansAgree : Prop :=
  discordSpans isAlphanumeric text roster
      = (findNamedMentions text (names roster)).map NamedMention.span ∧
    larkSpans isAlphanumeric text roster
      = (findNamedMentions text (names roster)).map NamedMention.span

def DedupAgrees : Prop :=
  ∀ c ∈ roster, Lark.alreadyNames isAlphanumeric text c.name = true ↔
    ∃ h : Lark.Handle, h.1 = c.name ∧
      Segment.named h ∈ Lark.segments isAlphanumeric text (larkHandles roster)

def channelScanner (listed : List (List Char)) : Scanner Char (List Char × Unit) :=
  handleScanner isAlphanumeric (listed.map fun name => (name, ()))

/-- At every place that both scanners get to, they find a name of the same length or none. -/
def MatchersAgree : Prop :=
  (channelScanner isAlphanumeric (names roster)).agree (webScanner (names roster)) 0 true true text

/-- At every `@` the channels and the web client take a name of the same length, or none: the longest
that stands behind it and ends, if nothing or a space stands before it. -/
def AtsAgree : Prop :=
  ∀ before after, text = before ++ '@' :: after →
    (if before.getLast?.all isWhitespace then
      longestAt (nameEnds isAlphanumeric) ((names roster).filter (· ≠ [])) after else none)
      = if before.getLast?.all isJsSpace then longestAt jsNameEnds (names roster) after else none

/-- A name behind an `@` at a word boundary, with no name going on behind it. -/
structure StandsAt (name before after : List Char) : Prop where
  eq : text = before ++ '@' :: after
  edge : before.getLast?.all isWhitespace = true
  begins : name <+: after
  ends : nameEnds isAlphanumeric (after.drop name.length) = true

/-- No longer name of the roster stands at the same place, none that stands further left reaches
it, and the name itself does not overlap it from the left. -/
structure StandsClear (name before after : List Char) : Prop where
  stands : StandsAt isAlphanumeric text name before after
  nonempty : name ≠ []
  longest : ∀ c ∈ roster, StandsAt isAlphanumeric text c.name before after →
    c.name.length ≤ name.length
  reached : ∀ c ∈ roster, c.name ≠ [] → ∀ start mid, before = start ++ '@' :: mid →
    StandsAt isAlphanumeric text c.name start (mid ++ '@' :: after) → c.name.length < mid.length
  listed : ∀ start mid, before = start ++ '@' :: mid → name <+: mid ++ '@' :: after →
    name.length ≤ mid.length

/-- Every name that stands somewhere stands clear somewhere. -/
def NamesClear : Prop :=
  ∀ c ∈ roster, (∃ before after, StandsAt isAlphanumeric text c.name before after) →
    ∃ before after, StandsClear isAlphanumeric text roster c.name before after

end Definitions

def PlainNames (roster : List Contact) : Prop :=
  ∀ c ∈ roster, c.name ≠ [] ∧ '@' ∉ c.name ∧ c.name.getLast?.all (fun ch => !isWhitespace ch) = true

variable {isAlphanumeric : Char → Bool} {text : List Char} {roster : List Contact}

theorem longestFirst_map {ι : Type v} {κ : Type w} (g : ι → κ) (handles : List (List Char × ι)) :
    longestFirst (handles.map fun h => (h.1, g h.2))
      = (longestFirst handles).map fun h => (h.1, g h.2) := by
  rw [longestFirst, List.filter_map]
  exact (List.map_insertionSort (fun h h' : List Char × ι => byteLen h'.1 ≤ byteLen h.1)
    (fun h h' : List Char × κ => byteLen h'.1 ≤ byteLen h.1) _ _ fun _ _ _ _ => Iff.rfl).symm

theorem spans_handles {ι : Type v} (handles : List (List Char × ι)) (text : List Char) :
    (handleScanner isAlphanumeric handles).spans 0
        ((handleScanner isAlphanumeric handles).scan true text)
      = (channelScanner isAlphanumeric (handles.map (·.1))).spans 0
        ((channelScanner isAlphanumeric (handles.map (·.1))).scan true text) := by
  have hnames : (handles.map (·.1)).map (fun name => (name, ()))
      = handles.map fun h => (h.1, ()) := by rw [List.map_map]; rfl
  refine (Scanner.spans_map (handleScanner isAlphanumeric handles) _ (f := fun h => (h.1, ()))
    (fun edge text => ?_) (fun _ => rfl) rfl (fun _ => rfl) 0 0 true text).symm
  rw [channelScanner, hnames]
  cases text with
  | nil => rfl
  | cons ch rest =>
    refine (findAt_cons _ _ _ edge ch rest).trans ?_
    have hfind : (handleScanner isAlphanumeric handles).find edge (ch :: rest)
        = if ch = '@' && edge then nameAt Prod.fst (longestFirst handles)
          (nameEnds isAlphanumeric) rest else none := findAt_cons _ _ _ edge ch rest
    rw [hfind]
    split
    · rw [longestFirst_map (fun _ => ()), nameAt, List.find?_map]
      rfl
    · rfl

theorem spansAgree_iff : SpansAgree isAlphanumeric text roster ↔
    MatchersAgree isAlphanumeric text roster := by
  have hdiscord : discordSpans isAlphanumeric text roster
      = (channelScanner isAlphanumeric (names roster)).spans 0
        ((channelScanner isAlphanumeric (names roster)).scan true text) := by
    have hnames : (discordHandles roster).map (·.1) = names roster := by
      rw [discordHandles, List.map_map]
      rfl
    rw [← hnames]
    exact spans_handles _ text
  have hlark : larkSpans isAlphanumeric text roster
      = (channelScanner isAlphanumeric (names roster)).spans 0
        ((channelScanner isAlphanumeric (names roster)).scan true text) := by
    have hnames : (larkHandles roster).map (·.1) = names roster := by
      rw [larkHandles, List.map_map]
      rfl
    rw [← hnames]
    exact spans_handles _ text
  rw [SpansAgree, hdiscord, hlark, and_self, findNamedMentions_spans]
  exact Scanner.spans_eq_iff_agree _ _ 0 0 true true text

section Places

theorem nameScanner_local {κ : Type v} {name : κ → List Char} {listed : List κ}
    {closes : List Char → Bool} {space : Char → Bool} {behind : κ → Bool}
    (h : ∀ k ∈ listed, ('@' :: name k).getLast?.all space = behind k) :
    (nameScanner name listed closes space behind).Local fun before => before.getLast?.all space where
  lit before ch := by
    rw [List.getLast?_append]
    rfl
  named hfind before := by
    obtain ⟨-, afterAt, -, hname⟩ := findAt_eq_some hfind
    have hlast := h _ (nameAt_spec hname).1
    dsimp only [nameScanner]
    rw [← hlast, List.getLast?_append, List.getLast?_eq_some_getLast (List.cons_ne_nil _ _),
      Option.some_or]

theorem channelScanner_local (hplain : PlainNames roster) :
    (channelScanner isAlphanumeric (names roster)).Local fun before => before.getLast?.all isWhitespace := by
  refine nameScanner_local fun h hh => ?_
  obtain ⟨hmem, hne⟩ := mem_longestFirst.mp hh
  obtain ⟨name, hname, rfl⟩ := List.mem_map.mp hmem
  obtain ⟨c, hc, rfl⟩ := List.mem_map.mp hname
  have hlast := (hplain c hc).2.2
  rw [List.getLast?_eq_some_getLast hne, Option.all_some, Bool.not_eq_true'] at hlast
  rw [List.getLast?_cons_of_ne_nil hne, List.getLast?_eq_some_getLast hne, Option.all_some, hlast]

theorem webScanner_local (listed : List (List Char)) :
    (webScanner listed).Local fun before => before.getLast?.all isJsSpace :=
  nameScanner_local fun name _ => by
    rw [List.getLast?_eq_some_getLast (List.cons_ne_nil _ _)]
    rfl

theorem nameScanner_length {κ : Type v} {name : κ → List Char} {listed : List κ}
    {closes : List Char → Bool} {space : Char → Bool} {behind : κ → Bool} {edge : Bool}
    (hsorted : Descends (listed.map name)) (after : List Char) :
    ((nameScanner name listed closes space behind).find edge ('@' :: after)).map
        (fun k => ((nameScanner name listed closes space behind).text k).length)
      = (if edge then longestAt closes (listed.map name) after else none).map Nat.succ := by
  rw [← nameAt_length hsorted]
  cases edge with
  | false => rfl
  | true => exact (Option.map_map ..).symm

theorem mem_channelNames {name : List Char} :
    name ∈ (longestFirst ((names roster).map fun name => (name, ()))).map Prod.fst ↔
      name ∈ (names roster).filter (· ≠ []) := by
  rw [List.mem_filter, decide_eq_true_iff]
  constructor
  · intro h
    obtain ⟨handle, hmem, rfl⟩ := List.mem_map.mp h
    obtain ⟨hlisted, hne⟩ := mem_longestFirst.mp hmem
    obtain ⟨name, hname, rfl⟩ := List.mem_map.mp hlisted
    exact ⟨hname, hne⟩
  · rintro ⟨hname, hne⟩
    exact List.mem_map.mpr
      ⟨(name, ()), mem_longestFirst.mpr ⟨List.mem_map.mpr ⟨name, hname, rfl⟩, hne⟩, rfl⟩

theorem sameAt_iff (edge edge' : Bool) (after : List Char) :
    (channelScanner isAlphanumeric (names roster)).SameAt (webScanner (names roster)) edge edge'
        ('@' :: after) ↔
      (if edge then longestAt (nameEnds isAlphanumeric) ((names roster).filter (· ≠ [])) after else none)
        = if edge' then longestAt jsNameEnds (names roster) after else none := by
  have hchannel := longestAt_congr (nameEnds isAlphanumeric)
    (fun name => @mem_channelNames roster name) after
  have hweb : longestAt jsNameEnds ((jsSorted (names roster)).map id) after
      = longestAt jsNameEnds (names roster) after := by
    rw [List.map_id]
    exact longestAt_congr jsNameEnds (fun name => List.mem_insertionSort _) after
  rw [Scanner.SameAt, channelScanner, handleScanner, webScanner,
    nameScanner_length longestFirst_sorted, nameScanner_length (jsSorted_sorted _), hchannel, hweb]
  exact (Option.map_injective Nat.succ_injective).eq_iff

theorem sameAt_of_ne {edge edge' : Bool} {ch : Char} {rest : List Char} (h : ch ≠ '@') :
    (channelScanner isAlphanumeric (names roster)).SameAt (webScanner (names roster)) edge edge'
      (ch :: rest) := by
  rw [Scanner.SameAt, channelScanner, handleScanner, webScanner]
  dsimp only [nameScanner]
  rw [findAt_of_ne _ _ _ h, findAt_of_ne _ _ _ h]
  rfl

theorem spansAgree_iff_atsAgree (hplain : PlainNames roster) :
    SpansAgree isAlphanumeric text roster ↔ AtsAgree isAlphanumeric text roster := by
  have hlisted : ∀ h ∈ longestFirst ((names roster).map fun name => (name, ())), '@' ∉ h.1 := by
    intro h hh
    have hmem := mem_channelNames.mp (List.mem_map_of_mem hh)
    obtain ⟨c, hc, hname⟩ := List.mem_map.mp (List.mem_filter.mp hmem).1
    exact hname ▸ (hplain c hc).2.1
  rw [spansAgree_iff, MatchersAgree]
  refine (Scanner.agree_iff_sameEverywhere (channelScanner_local hplain) (webScanner_local _)
    (fun hfind a mid tail htext htail e after => ?_) [] text).trans ?_
  · obtain ⟨ch, tail', rfl, hne⟩ := within_name hlisted hfind htext htail
    exact ⟨findAt_of_ne _ _ _ hne, findAt_of_ne _ _ _ hne⟩
  · constructor
    · intro h before after htext
      exact (sameAt_iff _ _ _).mp (h before ('@' :: after) htext (List.cons_ne_nil _ _))
    · intro h before rest htext hne
      obtain ⟨ch, after, rfl⟩ := List.exists_cons_of_ne_nil hne
      by_cases hat : ch = '@'
      · subst hat
        exact (sameAt_iff _ _ _).mpr (h before after htext)
      · exact sameAt_of_ne hat

end Places

variable {name before after : List Char}

theorem mem_larkHandles {h : Lark.Handle} :
    h ∈ larkHandles roster ↔ ∃ c ∈ roster, (c.name, c.lark) = h :=
  List.mem_map

theorem StandsAt.of_nameAt {h : Lark.Handle} (htext : text = before ++ '@' :: after)
    (hedge : before.getLast?.all isWhitespace = true)
    (hname : nameAt Prod.fst (longestFirst (larkHandles roster)) (nameEnds isAlphanumeric) after
      = some h) :
    h.1 ≠ [] ∧ (∃ c ∈ roster, c.name = h.1) ∧ StandsAt isAlphanumeric text h.1 before after := by
  obtain ⟨hmem, hbegins, hends⟩ := nameAt_spec hname
  obtain ⟨hmem, hne⟩ := mem_longestFirst.mp hmem
  obtain ⟨c, hc, rfl⟩ := mem_larkHandles.mp hmem
  exact ⟨hne, ⟨c, hc, rfl⟩, htext, hedge, hbegins, hends⟩

theorem nameAt_of_longest {c : Contact} (hc : c ∈ roster) (hne : c.name ≠ [])
    (hstands : StandsAt isAlphanumeric text c.name before after)
    (hlongest : ∀ c' ∈ roster, StandsAt isAlphanumeric text c'.name before after →
      c'.name.length ≤ c.name.length) :
    ∃ h : Lark.Handle, h.1 = c.name ∧ nameAt Prod.fst (longestFirst (larkHandles roster))
      (nameEnds isAlphanumeric) after = some h := by
  have hmem : (c.name, c.lark) ∈ larkHandles roster := mem_larkHandles.mpr ⟨c, hc, rfl⟩
  cases hname : nameAt Prod.fst (longestFirst (larkHandles roster)) (nameEnds isAlphanumeric)
    after with
  | none =>
    refine absurd ?_ (List.find?_eq_none.mp hname _ (mem_longestFirst.mpr ⟨hmem, hne⟩))
    exact Bool.and_eq_true_iff.mpr
      ⟨List.isPrefixOf_iff_prefix.mpr hstands.begins, hstands.ends⟩
  | some h =>
    refine ⟨h, ?_, rfl⟩
    have hge : c.name.length ≤ h.1.length :=
      longest_of_nameAt hname hmem hne hstands.begins hstands.ends
    obtain ⟨-, ⟨c', hc', hname'⟩, hstands'⟩ := StandsAt.of_nameAt hstands.eq hstands.edge hname
    have hle : h.1.length ≤ c.name.length := hname' ▸ hlongest c' hc' (hname'.symm ▸ hstands')
    exact (List.prefix_of_prefix_length_le hstands'.begins hstands.begins hle).eq_of_length
      (Nat.le_antisymm hle hge)

theorem named_of_clear {c : Contact} (hc : c ∈ roster)
    (hclear : StandsClear isAlphanumeric text roster c.name before after)
    {done pre : List Char} {edge : Bool} (hbefore : before = done ++ pre)
    (hedge : edge = true → done.getLast?.all isWhitespace = true) (hpre : pre = [] → edge = true) :
    ∃ h : Lark.Handle, h.1 = c.name ∧ Segment.named h ∈
      (handleScanner isAlphanumeric (larkHandles roster)).scan edge (pre ++ '@' :: after) := by
  have hstands := hclear.stands
  generalize hlen : pre.length = n
  induction n using Nat.strong_induction_on generalizing done pre edge with
  | _ n ih =>
    cases pre with
    | nil =>
      obtain rfl := hpre rfl
      obtain ⟨h, hname, hfind⟩ := nameAt_of_longest hc hclear.nonempty hstands hclear.longest
      obtain ⟨rest, hrest⟩ := (nameAt_spec hfind).2.1
      refine ⟨h, hname, ?_⟩
      rw [List.nil_append, scan_handle hfind hrest.symm]
      exact List.mem_cons_self
    | cons ch pre =>
      have htext : text = done ++ ch :: (pre ++ '@' :: after) := by
        rw [hstands.eq, hbefore, List.append_assoc]
        rfl
      have hless : pre.length < n := by
        rw [← hlen]
        exact Nat.lt_succ_self _
      cases hfind : (handleScanner isAlphanumeric (larkHandles roster)).find edge
        (ch :: (pre ++ '@' :: after)) with
      | none =>
        have hlit := Scanner.scan_none _ hfind
        have hlast : (done ++ [ch]).getLast?.all isWhitespace = isWhitespace ch := by
          rw [List.getLast?_append]
          rfl
        have hbefore' : before = (done ++ [ch]) ++ pre := by
          rw [hbefore, List.append_assoc]
          rfl
        have hpre' : pre = [] → isWhitespace ch = true := by
          rintro rfl
          rw [← hlast, ← List.append_nil (done ++ [ch]), ← hbefore']
          exact hstands.edge
        obtain ⟨h, hname, hmem⟩ := ih pre.length hless hbefore' hlast.trans hpre' rfl
        refine ⟨h, hname, ?_⟩
        rw [List.cons_append, hlit]
        exact List.mem_cons_of_mem _ hmem
      | some h =>
        obtain ⟨rfl, afterAt, hafter, hname⟩ := findAt_eq_some hfind
        obtain ⟨rfl, rfl⟩ := List.cons.inj hafter
        obtain ⟨hne, ⟨c', hc', hname'⟩, hstands'⟩ := StandsAt.of_nameAt htext (hedge rfl) hname
        have hshort : h.1.length < pre.length := hname' ▸ hclear.reached c' hc' (hname'.symm ▸ hne)
          done pre hbefore (hname'.symm ▸ hstands')
        obtain ⟨rest, hrest⟩ := List.prefix_of_prefix_length_le hstands'.begins
          (List.prefix_append pre _) hshort.le
        have hbefore' : before = (done ++ '@' :: h.1) ++ rest := by
          rw [hbefore, ← hrest, List.append_assoc]
          rfl
        have hrest' : rest ≠ [] := by
          rintro rfl
          rw [List.append_nil] at hrest
          exact absurd hshort (hrest ▸ Nat.lt_irrefl _)
        have hless' : rest.length < n := by
          rw [← hrest, List.length_append] at hless
          omega
        obtain ⟨h', hname', hmem⟩ := ih rest.length hless' hbefore'
          (fun e => absurd e Bool.false_ne_true) (fun e => absurd e hrest') rfl
        refine ⟨h', hname', ?_⟩
        rw [List.cons_append, scan_handle hname (by rw [← hrest, List.append_assoc])]
        exact List.mem_cons_of_mem _ hmem

theorem edge_of_behind {ι : Type v} {handles : List (List Char × ι)}
    {pre : List (Segment Char (List Char × ι))}
    (h : pre.foldl (handleScanner isAlphanumeric handles).behind true = true) :
    (pre.flatMap (handleScanner isAlphanumeric handles).raw).getLast?.all isWhitespace = true := by
  induction pre using List.reverseRecOn with
  | nil => rfl
  | append_singleton pre seg =>
    rw [List.foldl_append] at h
    cases seg with
    | lit c =>
      rw [List.flatMap_append, List.getLast?_append]
      exact h
    | named i => cases h

theorem stands_of_named {h : Lark.Handle}
    (hmem : Segment.named h ∈ Lark.segments isAlphanumeric text (larkHandles roster)) :
    ∃ before after, h.1 ≠ [] ∧ StandsAt isAlphanumeric text h.1 before after ∧
      ∀ c ∈ roster, c.name ≠ [] → StandsAt isAlphanumeric text c.name before after →
        c.name.length ≤ h.1.length := by
  obtain ⟨pre, post, hsegs⟩ := List.append_of_mem hmem
  have hrest := Scanner.scan_append _ hsegs
  obtain ⟨rest, htext, -, hreads⟩ := Scanner.scan_cons _ hrest.symm
  obtain ⟨hedge, after, hafter, hname⟩ := findAt_eq_some hreads
  have hraw := Scanner.raw_scan (handleScanner isAlphanumeric (larkHandles roster)) true text
  have htext' : text = pre.flatMap (handleScanner isAlphanumeric (larkHandles roster)).raw
      ++ '@' :: after := by
    rw [← hafter, ← List.flatMap_append, ← hsegs]
    exact hraw.symm
  obtain ⟨hne, -, hstands⟩ := StandsAt.of_nameAt htext' (edge_of_behind hedge) hname
  refine ⟨_, after, hne, hstands, fun c hc hcne hc' => ?_⟩
  have hmem' : (c.name, c.lark) ∈ larkHandles roster := mem_larkHandles.mpr ⟨c, hc, rfl⟩
  exact longest_of_nameAt hname hmem' hcne hc'.begins hc'.ends

theorem stands_of_alreadyNames (h : Lark.alreadyNames isAlphanumeric text name = true) :
    ∃ before after, StandsAt isAlphanumeric text name before after := by
  obtain ⟨i, hi, hboth⟩ := List.any_eq_true.mp h
  obtain ⟨hedge, hends⟩ := Bool.and_eq_true_iff.mp hboth
  obtain ⟨before, rest, rfl, ⟨after, rfl⟩, rfl⟩ := Lark.prefix_of_mem_matchIndices hi
  rw [Nat.zero_add] at hedge hends
  refine ⟨before, name ++ after, rfl, ?_, List.prefix_append name after, ?_⟩
  · rwa [List.take_left] at hedge
  · have hdrop : (before ++ ('@' :: name ++ after)).drop (before.length + ('@' :: name).length)
        = (name ++ after).drop name.length := by
      rw [← List.drop_drop, List.drop_left, List.drop_left, List.drop_left]
    rwa [hdrop] at hends

theorem alreadyNames_of_stands (hstands : StandsAt isAlphanumeric text name before after)
    (hlisted : ∀ start mid, before = start ++ '@' :: mid → name <+: mid ++ '@' :: after →
      name.length ≤ mid.length) : Lark.alreadyNames isAlphanumeric text name = true := by
  have hmem : before.length ∈ Lark.matchIndices ('@' :: name) 0 0 text := by
    rw [hstands.eq]
    have hdone : before = [] ++ before := rfl
    refine Lark.mem_matchIndices (List.cons_ne_nil _ _)
      (List.cons_prefix_cons.mpr ⟨rfl, hstands.begins⟩) hdone
      fun start mid hbefore hne hleads => ?_
    obtain ⟨ch, mid, rfl⟩ := List.exists_cons_of_ne_nil hne
    obtain ⟨rfl, hrest⟩ := List.cons_prefix_cons.mp hleads
    exact Nat.succ_le_succ (hlisted start mid hbefore hrest)
  refine List.any_eq_true.mpr ⟨before.length, hmem, Bool.and_eq_true_iff.mpr ⟨?_, ?_⟩⟩
  · rw [hstands.eq, List.take_left]
    exact hstands.edge
  · rw [hstands.eq, ← List.drop_drop, List.drop_left]
    exact hstands.ends

theorem dedupAgrees_of_clear (h : NamesClear isAlphanumeric text roster) :
    DedupAgrees isAlphanumeric text roster := by
  intro c hc
  constructor
  · intro halready
    obtain ⟨before, after, hclear⟩ := h c hc (stands_of_alreadyNames halready)
    have hdone : before = [] ++ before := rfl
    obtain ⟨handle, hname, hmem⟩ := named_of_clear hc hclear hdone (fun _ : true = true => rfl)
      fun _ => rfl
    refine ⟨handle, hname, ?_⟩
    rw [Lark.segments, hclear.stands.eq]
    exact hmem
  · rintro ⟨handle, hname, hmem⟩
    obtain ⟨before, after, -, hstands, -⟩ := stands_of_named hmem
    obtain ⟨before, after, hclear⟩ := h c hc ⟨before, after, hname ▸ hstands⟩
    exact alreadyNames_of_stands hclear.stands hclear.listed

theorem at_mem_of_reach {mid : List Char} (h : name <+: mid ++ '@' :: after)
    (hlen : mid.length < name.length) : '@' ∈ name := by
  have hat : mid ++ ['@'] <+: name :=
    List.prefix_of_prefix_length_le ((List.prefix_append_right_inj mid).mpr
      (List.prefix_append ['@'] after)) h (by rw [List.length_append]; exact hlen)
  exact hat.subset (List.mem_append_right mid List.mem_cons_self)

theorem listed_of_plain {c : Contact} (hplain : PlainNames roster) (hc : c ∈ roster)
    {mid : List Char} (h : c.name <+: mid ++ '@' :: after) : c.name.length ≤ mid.length :=
  Nat.le_of_not_lt fun hlen => (hplain c hc).2.1 (at_mem_of_reach h hlen)

theorem clear_of_plain {c : Contact} (hplain : PlainNames roster) (hc : c ∈ roster)
    (hstands : StandsAt isAlphanumeric text c.name before after)
    (hlongest : ∀ c' ∈ roster, StandsAt isAlphanumeric text c'.name before after →
      c'.name.length ≤ c.name.length) :
    StandsClear isAlphanumeric text roster c.name before after where
  stands := hstands
  nonempty := (hplain c hc).1
  longest := hlongest
  reached c' hc' hne start mid hbefore hstands' := by
    refine Nat.lt_of_le_of_ne (listed_of_plain hplain hc' hstands'.begins) fun hlen => ?_
    -- The name would end in the space that stands before the `@`.
    have hmid : c'.name = mid := (List.prefix_of_prefix_length_le hstands'.begins
      (List.prefix_append mid _) hlen.le).eq_of_length hlen
    have hlast : (c'.name.getLast?.all fun ch => !isWhitespace ch) = true := (hplain c' hc').2.2
    have hspace : c'.name.getLast?.all isWhitespace = true := by
      have hedge := hstands.edge
      rwa [hbefore, ← hmid, List.getLast?_append, List.getLast?_cons_of_ne_nil hne,
        List.getLast?_eq_some_getLast hne, Option.some_or,
        ← List.getLast?_eq_some_getLast hne] at hedge
    rw [List.getLast?_eq_some_getLast hne, Option.all_some] at hspace hlast
    rw [hspace] at hlast
    cases hlast
  listed start mid hbefore h := listed_of_plain hplain hc h

theorem namesClear_of_plain (hplain : PlainNames roster)
    (h : DedupAgrees isAlphanumeric text roster) : NamesClear isAlphanumeric text roster := by
  rintro c hc ⟨before, after, hstands⟩
  have halready := alreadyNames_of_stands hstands fun start mid hbefore hleads =>
    listed_of_plain hplain hc hleads
  obtain ⟨handle, hname, hmem⟩ := (h c hc).mp halready
  obtain ⟨before, after, hne, hstands, hlongest⟩ := stands_of_named hmem
  rw [hname] at hstands hlongest
  exact ⟨before, after, clear_of_plain hplain hc hstands fun c' hc' =>
    hlongest c' hc' (hplain c' hc').1⟩

/-- When the matchers agree, and when the markers agree with the matches. -/
theorem mentions_agree_when (isAlphanumeric : Char → Bool) (text : List Char)
    (roster : List Contact) :
    (SpansAgree isAlphanumeric text roster ↔ MatchersAgree isAlphanumeric text roster) ∧
      (NamesClear isAlphanumeric text roster → DedupAgrees isAlphanumeric text roster) ∧
      (PlainNames roster → DedupAgrees isAlphanumeric text roster →
        NamesClear isAlphanumeric text roster) ∧
      (PlainNames roster →
        (SpansAgree isAlphanumeric text roster ↔ AtsAgree isAlphanumeric text roster)) :=
  ⟨spansAgree_iff, dedupAgrees_of_clear, namesClear_of_plain, spansAgree_iff_atsAgree⟩

def tomId : Discord.DiscordUserId := ⟨"8201", by decide, by decide, by decide, by decide⟩

def tomOpenId : Lark.LarkOpenId := ⟨"ou_tom", by decide, by decide, by decide⟩

def tom : Contact := ⟨"Tom".toList, tomId, tomOpenId⟩

def tomTran : Contact := ⟨"Tom Tran".toList, tomId, tomOpenId⟩

theorem tom_plain : PlainNames [tom] := by
  intro c hc
  obtain rfl := List.mem_singleton.mp hc
  exact ⟨by decide, by decide, by decide⟩

theorem mentions_agree_when_tom : SpansAgree Char.isAlphanum "hi @Tom, go".toList [tom] ∧
    AtsAgree Char.isAlphanum "hi @Tom, go".toList [tom] ∧
    DedupAgrees Char.isAlphanum "@Tom".toList [tom] := by
  have hspans : SpansAgree Char.isAlphanum "hi @Tom, go".toList [tom] :=
    (mentions_agree_when _ _ _).1.mpr (by unfold MatchersAgree; decide +kernel)
  refine ⟨hspans, ((mentions_agree_when _ _ _).2.2.2 tom_plain).mp hspans,
    (mentions_agree_when _ _ _).2.1 fun c hc _ => ⟨[], "Tom".toList, ?_⟩⟩
  obtain rfl := List.mem_singleton.mp hc
  refine ⟨⟨rfl, rfl, List.prefix_rfl, rfl⟩, by decide, fun c hc _ => ?_, ?_, ?_⟩
  · rw [List.mem_singleton.mp hc]
  · intro c hc hne start mid h
    exact absurd (congrArg List.length h) (by simp)
  · intro start mid h
    exact absurd (congrArg List.length h) (by simp)

/-- An apostrophe ends a name on the channels only, and a longer name hides a shorter one from the
rewriting only. -/
theorem not_mentions_agree :
    ¬SpansAgree Char.isAlphanum "@Tom's".toList [tom] ∧
      ¬DedupAgrees Char.isAlphanum "@Tom Tran".toList [tom, tomTran] := by
  constructor
  · intro h
    exact absurd h.1 (by decide +kernel)
  · intro h
    have hsegs : Lark.segments Char.isAlphanum "@Tom Tran".toList (larkHandles [tom, tomTran])
        = [.named ("Tom Tran".toList, tomOpenId)] := by decide +kernel
    obtain ⟨handle, hname, hmem⟩ := (h tom List.mem_cons_self).mp (by decide +kernel)
    rw [hsegs] at hmem
    obtain rfl := Segment.named.inj (List.mem_singleton.mp hmem)
    exact absurd hname (by decide)

end Patom.Mentions
