import Patom.Discord.Connection
import Patom.Foundation.Substitution
import Patom.Mentions.Names
import Patom.Text

open Patom.Foundation
open Patom.Mentions

namespace Patom.Discord

abbrev Mention := DiscordUserId × String

def readable (name : String) : List Char := '@' :: name.toList

def plainMarker (id : DiscordUserId) : List Char := "<@".toList ++ id.asStr.toList ++ ['>']

def nickMarker (id : DiscordUserId) : List Char := "<@!".toList ++ id.asStr.toList ++ ['>']

def renderInbound (content : List Char) (mentions : List Mention) : List Char :=
  if mentions = [] || (splitOnce "<@".toList content).isNone then content
  else mentions.foldl
    (fun out (id, name) => replaceAll (nickMarker id) (readable name)
      (replaceAll (plainMarker id) (readable name) out)) content

structure Marker where
  mention : Mention
  nick : Bool
  deriving DecidableEq

def Marker.text (m : Marker) : List Char :=
  if m.nick then nickMarker m.mention.1 else plainMarker m.mention.1

def Marker.readable (m : Marker) : List Char := Discord.readable m.mention.2

def markers (mentions : List Mention) : List Marker :=
  mentions.flatMap fun mention => [⟨mention, false⟩, ⟨mention, true⟩]

/-- Whatever the order of the mentions, every marker gives way to the name of its own. -/
def RendersAtOnce (content : List Char) (mentions : List Mention) : Prop :=
  ∀ order : List Mention, order.Perm mentions →
    renderInbound content order = substitute Marker.text (markers mentions) Marker.readable content

/-- In no order does a marker begin, when it is its turn, where another mention stands or
stood. -/
def RenderApart (content : List Char) (mentions : List Mention) : Prop :=
  ∀ order : List Mention, order.Perm mentions →
    apart Marker.text Marker.readable (pieces Marker.text (markers mentions) content) []
      (markers order)

variable {content : List Char} {mentions : List Mention}

theorem mem_markers {m : Marker} : m ∈ markers mentions ↔ m.mention ∈ mentions := by
  obtain ⟨mention, nick⟩ := m
  cases nick <;> simp [markers]

theorem nodup_markers (h : mentions.Nodup) : (markers mentions).Nodup := by
  induction mentions with
  | nil => exact List.nodup_nil
  | cons mention mentions ih =>
    obtain ⟨hnew, hrest⟩ := List.nodup_cons.mp h
    refine List.nodup_append.mpr ⟨by simp, ih hrest, fun m hm m' hm' => ?_⟩
    rintro rfl
    have hmention : m.mention = mention := by
      simp only [List.mem_cons, List.not_mem_nil, or_false] at hm
      obtain rfl | rfl := hm <;> rfl
    exact hnew (hmention ▸ mem_markers.mp hm')

theorem foldl_markers (order : List Mention) (out : List Char) :
    (markers order).foldl (fun out m => replaceAll m.text m.readable out) out
      = order.foldl (fun out (id, name) => replaceAll (nickMarker id) (readable name)
        (replaceAll (plainMarker id) (readable name) out)) out := by
  rw [markers, List.foldl_flatMap]
  rfl

theorem not_prefix_of_splitOnce {needle text s : List Char} (h : splitOnce needle text = none)
    (hs : s <:+ text) : ¬needle <+: s := by
  induction text with
  | nil =>
    obtain rfl := List.suffix_nil.mp hs
    rw [splitOnce, ite_eq_right_iff] at h
    exact fun hleads => absurd (h (List.prefix_nil.mp hleads)) (by simp)
  | cons c text ih =>
    rw [splitOnce] at h
    split at h
    · cases h
    · rename_i hhere
      obtain rfl | hs := List.suffix_cons_iff.mp hs
      · exact fun hleads => hhere (List.isPrefixOf_iff_prefix.mpr hleads)
      · exact ih (Option.map_eq_none_iff.mp h) hs

theorem Marker.text_prefix (m : Marker) : "<@".toList <+: m.text := by
  unfold Marker.text
  split
  · exact ⟨'!' :: (m.mention.1.asStr.toList ++ ['>']), by simp [nickMarker]⟩
  · exact ⟨m.mention.1.asStr.toList ++ ['>'], by simp [plainMarker]⟩

theorem substitute_of_none (h : splitOnce "<@".toList content = none) :
    substitute Marker.text (markers mentions) Marker.readable content = content := by
  refine substitute_of_absent fun s hs => ?_
  cases hlongest : longestAt Marker.text (markers mentions) s with
  | none => rfl
  | some m =>
    obtain ⟨-, -, hleads⟩ := longestAt_spec hlongest
    exact absurd (m.text_prefix.trans hleads) (not_prefix_of_splitOnce h hs)

theorem rendersAtOnce_of_apart (hids : (mentions.map (·.1)).Nodup)
    (h : RenderApart content mentions) : RendersAtOnce content mentions := by
  intro order hperm
  have hnodup := hperm.nodup_iff.mpr (List.Nodup.of_map _ hids)
  have hfold := foldl_replaceAll (h order hperm) (nodup_markers hnodup)
  rw [flat_pieces, foldl_markers] at hfold
  unfold renderInbound
  split
  · rename_i hnothing
    obtain hnone | hnone := Bool.or_eq_true_iff.mp hnothing
    · obtain rfl : order = [] := of_decide_eq_true hnone
      obtain rfl := List.nil_perm.mp hperm
      exact (substitute_of_absent fun s hs => rfl).symm
    · exact (substitute_of_none (Option.isNone_iff_eq_none.mp hnone)).symm
  · rw [hfold, substitute]
    refine flat_congr fun m hm => if_pos (mem_markers.mpr ?_)
    exact hperm.mem_iff.mpr (mem_markers.mp (mem_of_mem_holes hm))

end Patom.Discord

namespace Patom.Discord

abbrev Named := List Char × DiscordUserId

def renderMention (id : DiscordUserId) : List Char := "<@".toList ++ id.asStr.toList ++ ['>']

section Render

variable (isAlphanumeric : Char → Bool)

def outboundLoop (sorted : List Named) :
    Nat → Bool → List Char → List Char → List DiscordUserId → List Char × List DiscordUserId
  | _, _, [], out, pinged => (out, pinged)
  | skip + 1, prevIsBoundary, _ :: rest, out, pinged =>
    outboundLoop sorted skip prevIsBoundary rest out pinged
  | 0, prevIsBoundary, ch :: rest, out, pinged =>
    match if ch = '@' && prevIsBoundary then
        sorted.find? fun h => h.1.isPrefixOf rest && nameEnds isAlphanumeric (rest.drop h.1.length)
      else none with
    | some h =>
      outboundLoop sorted h.1.length false rest (out ++ renderMention h.2)
        (if h.2 ∈ pinged then pinged else pinged ++ [h.2])
    | none => outboundLoop sorted 0 (isWhitespace ch) rest (out ++ [ch]) pinged

def renderOutbound (content : List Char) (handles : List Named) :
    List Char × List DiscordUserId :=
  if handles = [] then (content, [])
  else outboundLoop isAlphanumeric (longestFirst handles) 0 true content [] []

end Render

def rendered : Segment Char Named → List Char
  | .lit c => [c]
  | .named h => renderMention h.2

def ping (pinged : List DiscordUserId) : Segment Char Named → List DiscordUserId
  | .lit _ => pinged
  | .named h => if h.2 ∈ pinged then pinged else pinged ++ [h.2]

variable {isAlphanumeric : Char → Bool}

def outboundStep (s : List Char × List DiscordUserId) (seg : Segment Char Named) :
    List Char × List DiscordUserId :=
  (s.1 ++ rendered seg, ping s.2 seg)

theorem foldl_outboundStep (segs : List (Segment Char Named))
    (s : List Char × List DiscordUserId) :
    segs.foldl outboundStep s = (s.1 ++ segs.flatMap rendered, segs.foldl ping s.2) := by
  induction segs generalizing s with
  | nil => rw [List.foldl_nil, List.flatMap_nil, List.append_nil, List.foldl_nil]
  | cons seg segs ih =>
    rw [List.foldl_cons, ih, List.flatMap_cons, ← List.append_assoc]
    rfl

theorem outboundLoop_eq (handles : List Named) (skip : Nat) (edge : Bool) (rest out : List Char)
    (pinged : List DiscordUserId) :
    outboundLoop isAlphanumeric (longestFirst handles) skip edge rest out pinged
      = (out ++ ((handleScanner isAlphanumeric handles).scanFrom skip edge rest).flatMap rendered,
        ((handleScanner isAlphanumeric handles).scanFrom skip edge rest).foldl ping pinged) := by
  rw [← foldl_outboundStep _ (out, pinged)]
  refine (handleScanner isAlphanumeric handles).loop_eq_foldl outboundStep
    (fun skip edge rest s =>
      outboundLoop isAlphanumeric (longestFirst handles) skip edge rest s.1 s.2)
    (fun skip _ _ => by cases skip <;> rfl) (fun _ _ _ _ _ => rfl) ?_ ?_ skip edge rest
    (out, pinged)
  · intro edge ch rest h s hfind
    rw [find_handle] at hfind
    rw [outboundLoop, hfind]
    rfl
  · intro edge ch rest s hfind
    rw [find_handle] at hfind
    rw [outboundLoop, hfind]
    rfl

def segments (isAlphanumeric : Char → Bool) (content : List Char) (handles : List Named) :
    List (Segment Char Named) :=
  (handleScanner isAlphanumeric handles).scan true content

theorem flatMap_rendered_lit (content : List Char) :
    (content.map Segment.lit).flatMap rendered = content := by
  induction content with
  | nil => rfl
  | cons c content ih => exact congrArg (c :: ·) ih

theorem foldl_ping_lit (content : List Char) (pinged : List DiscordUserId) :
    (content.map Segment.lit).foldl ping pinged = pinged := by
  induction content with
  | nil => rfl
  | cons c content ih => exact ih

theorem renderOutbound_eq (content : List Char) (handles : List Named) :
    renderOutbound isAlphanumeric content handles
      = ((segments isAlphanumeric content handles).flatMap rendered,
        (segments isAlphanumeric content handles).foldl ping []) := by
  unfold renderOutbound
  split
  · rename_i hnone
    subst hnone
    have hlit : segments isAlphanumeric content [] = content.map .lit :=
      Scanner.scan_of_find_none _ (fun edge text => ite_self none) true content
    rw [hlit, flatMap_rendered_lit, foldl_ping_lit]
  · exact outboundLoop_eq handles 0 true content [] []

theorem mem_foldl_ping {segs : List (Segment Char Named)} {pinged : List DiscordUserId}
    {id : DiscordUserId} :
    id ∈ segs.foldl ping pinged ↔ id ∈ pinged ∨ ∃ h, Segment.named h ∈ segs ∧ h.2 = id := by
  induction segs generalizing pinged with
  | nil => simp
  | cons seg segs ih =>
    rw [List.foldl_cons, ih]
    cases seg with
    | lit c => simp [ping]
    | named h =>
      have hping : id ∈ ping pinged (.named h) ↔ id ∈ pinged ∨ h.2 = id := by
        by_cases hin : h.2 ∈ pinged
        · rw [ping, if_pos hin]
          exact ⟨.inl, fun hid => hid.elim (fun hid => hid) fun e => e ▸ hin⟩
        · simp [ping, hin, eq_comm]
      rw [hping, or_assoc]
      refine or_congr_right ⟨fun hid => ?_, fun hid => ?_⟩
      · obtain e | ⟨h', hmem, e⟩ := hid
        · exact ⟨h, List.mem_cons_self, e⟩
        · exact ⟨h', List.mem_cons_of_mem _ hmem, e⟩
      · obtain ⟨h', hmem, e⟩ := hid
        obtain heq | hmem := List.mem_cons.mp hmem
        · exact .inl (Segment.named.inj heq ▸ e)
        · exact .inr ⟨h', hmem, e⟩

theorem nodup_foldl_ping {segs : List (Segment Char Named)} {pinged : List DiscordUserId}
    (h : pinged.Nodup) : (segs.foldl ping pinged).Nodup := by
  induction segs generalizing pinged with
  | nil => exact h
  | cons seg segs ih =>
    refine ih ?_
    cases seg with
    | lit c => exact h
    | named handle =>
      by_cases hin : handle.2 ∈ pinged
      · rwa [ping, if_pos hin]
      · rw [ping, if_neg hin]
        refine List.nodup_append.mpr ⟨h, List.nodup_singleton _, ?_⟩
        rintro a ha b hb rfl
        exact hin (List.mem_singleton.mp hb ▸ ha)

def erased : Segment Char Named → List Char
  | .lit c => [c]
  | .named h => '@' :: h.1

def AtBoundary (before : List (Segment Char Named)) : Prop :=
  ∀ seg ∈ before.getLast?, ∃ c, seg = .lit c ∧ isWhitespace c = true

def NameStands (isAlphanumeric : Char → Bool) (h : Named) (text : List Char) : Prop :=
  h.1 ≠ [] ∧ h.1 <+: text ∧ nameEnds isAlphanumeric (text.drop h.1.length) = true

structure PingsNames (isAlphanumeric : Char → Bool) (content : List Char) (handles : List Named)
    (segs : List (Segment Char Named)) (out : List Char) (pinged : List DiscordUserId) : Prop where
  erased : segs.flatMap erased = content
  rendered : segs.flatMap rendered = out
  named : ∀ before h after, segs = before ++ .named h :: after →
    AtBoundary before ∧ h ∈ handles ∧
      NameStands isAlphanumeric h (h.1 ++ after.flatMap Discord.erased)
  longest : ∀ before h after, segs = before ++ .named h :: after → ∀ h' ∈ handles,
    NameStands isAlphanumeric h' (h.1 ++ after.flatMap Discord.erased) →
      h'.1.length ≤ h.1.length
  leftmost : ∀ before after, segs = before ++ .lit '@' :: after → AtBoundary before →
    ∀ h ∈ handles, ¬NameStands isAlphanumeric h (after.flatMap Discord.erased)
  nodup : pinged.Nodup
  pinged : ∀ id, id ∈ pinged ↔ ∃ h, Segment.named h ∈ segs ∧ h.2 = id

variable {content : List Char} {handles : List Named}

theorem raw_eq_erased : (handleScanner isAlphanumeric handles).raw = erased :=
  funext fun seg => by cases seg <;> rfl

theorem foldl_behind_iff {before : List (Segment Char Named)} :
    before.foldl (handleScanner isAlphanumeric handles).behind true = true ↔ AtBoundary before := by
  rw [Scanner.foldl_behind]
  cases hlast : before.getLast? with
  | none => exact iff_of_true rfl fun seg hseg => by simp [hlast] at hseg
  | some seg =>
    cases seg with
    | lit c =>
      refine ⟨fun hc seg hseg => ⟨c, ?_, hc⟩, fun hat => ?_⟩
      · exact (Option.some.inj (hlast.symm.trans hseg)).symm
      · obtain ⟨d, e, hd⟩ := hat _ hlast
        cases e
        exact hd
    | named h =>
      refine iff_of_false Bool.false_ne_true fun hat => ?_
      obtain ⟨d, e, -⟩ := hat _ hlast
      cases e

theorem reads_segment {before after : List (Segment Char Named)} {seg : Segment Char Named}
    (h : segments isAlphanumeric content handles = before ++ seg :: after) :
    (handleScanner isAlphanumeric handles).Reads
      (before.foldl (handleScanner isAlphanumeric handles).behind true)
      (erased seg ++ after.flatMap erased) seg := by
  have hrest := Scanner.scan_append _ h
  obtain ⟨rest, htext, -, hreads⟩ := Scanner.scan_cons _ hrest.symm
  rwa [raw_eq_erased, List.flatMap_cons] at hreads

theorem find_name {before after : List (Segment Char Named)} {h : Named}
    (hsegs : segments isAlphanumeric content handles = before ++ .named h :: after) :
    AtBoundary before ∧ nameAt Prod.fst (longestFirst handles) (nameEnds isAlphanumeric)
      (h.1 ++ after.flatMap erased) = some h := by
  obtain ⟨hedge, afterAt, htext, hname⟩ := findAt_eq_some (reads_segment hsegs)
  obtain rfl : h.1 ++ after.flatMap erased = afterAt := (List.cons.inj htext).2
  exact ⟨foldl_behind_iff.mp hedge, hname⟩

theorem renderOutbound_pings (isAlphanumeric : Char → Bool) (content : List Char)
    (handles : List Named) :
    ∃ segs, PingsNames isAlphanumeric content handles segs
      (renderOutbound isAlphanumeric content handles).1
      (renderOutbound isAlphanumeric content handles).2 := by
  refine ⟨segments isAlphanumeric content handles, ?_, ?_, ?_, ?_, ?_, ?_, ?_⟩
  · rw [← raw_eq_erased]
    exact Scanner.raw_scan _ true content
  · rw [renderOutbound_eq]
  · intro before h after hsegs
    obtain ⟨hboundary, hname⟩ := find_name hsegs
    obtain ⟨hmem, hleads, hends⟩ := nameAt_spec hname
    obtain ⟨hmem, hne⟩ := mem_longestFirst.mp hmem
    exact ⟨hboundary, hmem, hne, hleads, hends⟩
  · rintro before h after hsegs h' hmem ⟨hne, hleads, hends⟩
    exact longest_of_nameAt (find_name hsegs).2 hmem hne hleads hends
  · rintro before after hsegs hboundary h hmem ⟨hne, hleads, hends⟩
    have hreads := reads_segment hsegs
    rw [foldl_behind_iff.mpr hboundary] at hreads
    have hnone : nameAt Prod.fst (longestFirst handles) (nameEnds isAlphanumeric)
        (after.flatMap erased) = none := hreads
    refine List.find?_eq_none.mp hnone h (mem_longestFirst.mpr ⟨hmem, hne⟩) ?_
    exact Bool.and_eq_true_iff.mpr ⟨List.isPrefixOf_iff_prefix.mpr hleads, hends⟩
  · rw [renderOutbound_eq]
    exact nodup_foldl_ping List.nodup_nil
  · intro id
    rw [renderOutbound_eq, mem_foldl_ping]
    simp

end Patom.Discord
