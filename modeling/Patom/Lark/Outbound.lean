import Patom.Lark.Mention
import Patom.Mentions.Names

open Patom.Foundation
open Patom.Mentions

namespace Patom.Lark

abbrev Handle := List Char × LarkOpenId

def renderAt (openId : LarkOpenId) (name : List Char) : List Char :=
  "<at user_id=\"".toList ++ openId.asStr.toList ++ "\">".toList ++ name ++ "</at>".toList

section Render

variable (isAlphanumeric : Char → Bool)

def atsLoop (sorted : List Handle) : Nat → Bool → List Char → List Char → List Char
  | _, _, [], out => out
  | skip + 1, prevIsBoundary, _ :: rest, out => atsLoop sorted skip prevIsBoundary rest out
  | 0, prevIsBoundary, ch :: rest, out =>
    match if ch = '@' && prevIsBoundary then
        sorted.find? fun h => h.1.isPrefixOf rest && nameEnds isAlphanumeric (rest.drop h.1.length)
      else none with
    | some h => atsLoop sorted h.1.length false rest (out ++ renderAt h.2 h.1)
    | none => atsLoop sorted 0 (isWhitespace ch) rest (out ++ [ch])

def renderAts (content : List Char) (handles : List Handle) : List Char :=
  if handles = [] then content
  else atsLoop isAlphanumeric (longestFirst handles) 0 true content []

def matchIndices (needle : List Char) : Nat → Nat → List Char → List Nat
  | _, _, [] => []
  | skip + 1, pos, _ :: text => matchIndices needle skip (pos + 1) text
  | 0, pos, c :: text =>
    if needle.isPrefixOf (c :: text) then
      pos :: matchIndices needle (needle.length - 1) (pos + 1) text
    else matchIndices needle 0 (pos + 1) text

def alreadyNames (text name : List Char) : Bool :=
  let needle := '@' :: name
  (matchIndices needle 0 0 text).any fun pos =>
    (text.take pos).getLast?.all isWhitespace &&
      nameEnds isAlphanumeric (text.drop (pos + needle.length))

end Render

def rendered : Segment Char Handle → List Char
  | .lit c => [c]
  | .named h => renderAt h.2 h.1

variable {isAlphanumeric : Char → Bool}

theorem atsLoop_eq (handles : List Handle) (skip : Nat) (edge : Bool) (rest out : List Char) :
    atsLoop isAlphanumeric (longestFirst handles) skip edge rest out
      = out
        ++ ((handleScanner isAlphanumeric handles).scanFrom skip edge rest).flatMap rendered := by
  rw [List.flatMap_def, ← List.foldl_append_eq_append]
  refine (handleScanner isAlphanumeric handles).loop_eq_foldl (fun out seg => out ++ rendered seg)
    (atsLoop isAlphanumeric (longestFirst handles)) (fun skip _ _ => by cases skip <;> rfl)
    (fun _ _ _ _ _ => rfl) ?_ ?_ skip edge rest out
  · intro edge ch rest h out hfind
    rw [find_handle] at hfind
    rw [atsLoop, hfind]
    rfl
  · intro edge ch rest out hfind
    rw [find_handle] at hfind
    rw [atsLoop, hfind]
    rfl

def segments (isAlphanumeric : Char → Bool) (content : List Char) (handles : List Handle) :
    List (Segment Char Handle) :=
  (handleScanner isAlphanumeric handles).scan true content

theorem flatMap_rendered_lit (content : List Char) :
    (content.map Segment.lit).flatMap rendered = content := by
  induction content with
  | nil => rfl
  | cons c content ih => exact congrArg (c :: ·) ih

theorem renderAts_eq (content : List Char) (handles : List Handle) :
    renderAts isAlphanumeric content handles
      = (segments isAlphanumeric content handles).flatMap rendered := by
  unfold renderAts
  split
  · rename_i hnone
    subst hnone
    have hlit : segments isAlphanumeric content [] = content.map .lit :=
      Scanner.scan_of_find_none _ (fun edge text => ite_self none) true content
    rw [hlit, flatMap_rendered_lit]
  · exact atsLoop_eq handles 0 true content []

theorem matchIndices_drop (needle : List Char) (skip pos : Nat) (text : List Char) :
    matchIndices needle skip pos text = matchIndices needle 0 (pos + skip) (text.drop skip) := by
  induction skip generalizing pos text with
  | zero => rfl
  | succ skip ih =>
    cases text with
    | nil => rfl
    | cons c text =>
      rw [matchIndices, ih, Nat.add_right_comm, Nat.add_assoc, List.drop_succ_cons]

theorem prefix_of_mem_matchIndices {needle : List Char} {skip pos i : Nat} {text : List Char}
    (h : i ∈ matchIndices needle skip pos text) :
    ∃ before after, text = before ++ after ∧ needle <+: after ∧ i = pos + before.length := by
  induction text generalizing skip pos with
  | nil => cases skip <;> cases h
  | cons c text ih =>
    have hlater : ∀ skip, i ∈ matchIndices needle skip (pos + 1) text →
        ∃ before after, c :: text = before ++ after ∧ needle <+: after ∧
          i = pos + before.length := by
      intro skip hi
      obtain ⟨before, after, rfl, hleads, rfl⟩ := ih hi
      refine ⟨c :: before, after, rfl, hleads, ?_⟩
      rw [List.length_cons, Nat.add_right_comm, Nat.add_assoc]
    cases skip with
    | succ skip => exact hlater skip h
    | zero =>
      rw [matchIndices] at h
      split at h
      · rename_i hhere
        obtain rfl | h := List.mem_cons.mp h
        · exact ⟨[], c :: text, rfl, List.isPrefixOf_iff_prefix.mp hhere, rfl⟩
        · exact hlater _ h
      · exact hlater 0 h

theorem mem_matchIndices {needle before after done pre : List Char} (hne : needle ≠ [])
    (hleads : needle <+: after) (hbefore : before = done ++ pre)
    (hapart : ∀ start mid, before = start ++ mid → mid ≠ [] → needle <+: mid ++ after →
      needle.length ≤ mid.length) :
    before.length ∈ matchIndices needle 0 done.length (pre ++ after) := by
  generalize hlen : pre.length = n
  induction n using Nat.strong_induction_on generalizing done pre with
  | _ n ih =>
    cases pre with
    | nil =>
      obtain ⟨c, rest, rfl⟩ := List.exists_cons_of_ne_nil
        (fun e : after = [] => hne (List.prefix_nil.mp (e ▸ hleads)))
      rw [List.nil_append, matchIndices, if_pos (List.isPrefixOf_iff_prefix.mpr hleads), hbefore,
        List.append_nil]
      exact List.mem_cons_self
    | cons c pre =>
      rw [List.cons_append, matchIndices]
      split
      · rename_i hhere
        have hhere := List.isPrefixOf_iff_prefix.mp hhere
        have hle := hapart done (c :: pre) hbefore (List.cons_ne_nil c pre) hhere
        obtain ⟨rest, hrest⟩ := List.prefix_of_prefix_length_le hhere
          (List.prefix_append (c :: pre) after) hle
        obtain ⟨d, k, rfl⟩ := List.exists_cons_of_ne_nil hne
        obtain ⟨rfl, rfl⟩ := List.cons.inj hrest
        have hless : rest.length < n := by
          rw [← hlen, List.length_cons, List.append_eq, List.length_append]
          omega
        have hnext : before = (done ++ d :: k) ++ rest := by
          rw [hbefore, List.append_assoc]
          rfl
        have hmem := ih rest.length hless hnext rfl
        refine List.mem_cons_of_mem _ ?_
        rw [matchIndices_drop, List.append_eq, List.append_assoc, List.length_cons,
          Nat.add_sub_cancel, List.drop_left]
        rwa [List.length_append, List.length_cons, ← Nat.add_assoc, Nat.add_right_comm] at hmem
      · have hless : pre.length < n := by
          rw [← hlen]
          exact Nat.lt_succ_self _
        have hnext : before = (done ++ [c]) ++ pre := by
          rw [hbefore, List.append_assoc]
          rfl
        have hmem := ih pre.length hless hnext rfl
        rwa [List.length_append, List.length_singleton] at hmem

end Patom.Lark
