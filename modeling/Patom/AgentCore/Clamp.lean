import Patom.AgentCore.Compaction

namespace Patom.AgentCore

def find (needle text : List Char) : Option Nat :=
  (splitOnce needle text).map fun (before, _) => byteLen before

def slice (text : List Char) (start finish : Nat) : Option (List Char) :=
  if start ≤ finish then do
    let (front, _) ← splitAtByte finish text
    let (_, body) ← splitAtByte start front
    return body
  else none

def headerStarts (text : List Char) : List (List Char) → Nat → Option (Option (List Nat))
  | [], _ => some (some [])
  | header :: headers, start => do
    let (_, rest) ← splitAtByte start text
    match find header rest with
    | none => some none
    | some offset =>
      let starts ← headerStarts text headers (start + offset + byteLen header)
      return starts.map ((start + offset) :: ·)

def bodySlices (text : List Char) : List (List Char) → List Nat → Option (List (List Char))
  | header :: headers, start :: starts => do
    let body ← slice text (start + byteLen header) (starts.headD (byteLen text))
    return body :: (← bodySlices text headers starts)
  | _, _ => some []

def clampWithinSectionsBytes (text : List Char) (capChars : Nat) : Option (Option (List Char)) := do
  let headers := SUMMARY_SECTIONS.map String.toList
  match ← headerStarts text headers 0 with
  | none => return none
  | some starts => return joinSections (← bodySlices text headers starts) capChars

/-- `clamp` with the offsets it works with; `none` is a slice inside a character. -/
def CompactionSummary.clampBytes (text : String) : Option CompactionSummary :=
  if text.length ≤ SUMMARY_CAP_CHARS then some ⟨text⟩
  else do
    match ← clampWithinSectionsBytes text.toList SUMMARY_CAP_CHARS with
    | some bySection => return ⟨String.ofList bySection⟩
    | none => return ⟨String.ofList (text.toList.take SUMMARY_CAP_CHARS)⟩

structure Sectioned (headers : List (List Char)) (before : List Char) (bodies : List (List Char))
    (text : List Char) : Prop where
  length : bodies.length = headers.length
  text : text = before ++ (List.zipWith (· ++ ·) headers bodies).flatten

section Sections

variable {headers bodies : List (List Char)} {before text : List Char}

theorem Sectioned.cons {header body : List Char} (h : Sectioned headers body bodies text) :
    Sectioned (header :: headers) before (body :: bodies) (before ++ header ++ text) where
  length := by rw [List.length_cons, List.length_cons, h.length]
  text := by
    rw [h.text, List.zipWith_cons_cons, List.flatten_cons]
    simp only [List.append_assoc]

theorem Sectioned.uncons {header : List Char}
    (h : Sectioned (header :: headers) before bodies text) :
    ∃ body rest, bodies = body :: rest ∧
      ∃ after, text = before ++ header ++ after ∧ Sectioned headers body rest after := by
  obtain ⟨hlen, htext⟩ := h
  cases bodies with
  | nil => cases hlen
  | cons body rest =>
    refine ⟨body, rest, rfl, _, ?_, Nat.succ.inj hlen, rfl⟩
    rw [htext, List.zipWith_cons_cons, List.flatten_cons]
    simp only [List.append_assoc]

theorem Sectioned.append (h : Sectioned headers before bodies text) (front : List Char) :
    Sectioned headers (front ++ before) bodies (front ++ text) where
  length := h.length
  text := by rw [h.text, List.append_assoc]

theorem Sectioned.length_text (h : Sectioned headers before bodies text) :
    text.length = before.length + (headers.map List.length).sum + (bodies.map List.length).sum := by
  induction headers generalizing before bodies text with
  | nil =>
    obtain rfl : bodies = [] := List.eq_nil_of_length_eq_zero h.length
    simp [h.text]
  | cons header headers ih =>
    obtain ⟨body, rest, rfl, after, rfl, hafter⟩ := h.uncons
    have := ih hafter
    simp only [List.length_append, List.map_cons, List.sum_cons] at this ⊢
    omega

theorem sectionBodies_sectioned {pieces : List (List Char)}
    (h : sectionBodies headers text = some pieces) :
    ∃ body bodies, pieces = body :: bodies ∧ Sectioned headers body bodies text := by
  induction headers generalizing pieces text with
  | nil =>
    obtain rfl := Option.some.inj h
    exact ⟨text, [], rfl, rfl, by simp⟩
  | cons header headers ih =>
    simp only [sectionBodies, Option.bind_eq_bind, Option.bind_eq_some_iff, Prod.exists] at h
    obtain ⟨front, after, hsplit, pieces, hpieces, heq⟩ := h
    obtain rfl := Option.some.inj heq
    obtain ⟨body, bodies, rfl, hafter⟩ := ih hpieces
    rw [splitOnce_eq_append hsplit]
    exact ⟨front, body :: bodies, rfl, hafter.cons⟩

theorem splitOnce_early (needle before after : List Char) :
    ∃ front mid, splitOnce needle (before ++ needle ++ after) = some (front, mid ++ after) ∧
      front.length ≤ before.length := by
  induction before with
  | nil =>
    refine ⟨[], [], ?_, Nat.le_refl 0⟩
    rw [List.nil_append, List.nil_append]
    cases hall : needle ++ after with
    | nil =>
      obtain ⟨rfl, rfl⟩ := List.append_eq_nil_iff.mp hall
      rfl
    | cons c text =>
      rw [splitOnce, ← hall, if_pos (List.isPrefixOf_iff_prefix.mpr (List.prefix_append _ _)),
        List.drop_left]
  | cons c before ih =>
    obtain ⟨front, mid, hsplit, hle⟩ := ih
    rw [List.cons_append, List.cons_append, splitOnce]
    split
    case isTrue hleads =>
      refine ⟨[], (c :: before ++ needle).drop needle.length, ?_, Nat.zero_le _⟩
      rw [← List.drop_append_of_le_length (by simp; omega)]
      rfl
    case isFalse => exact ⟨c :: front, mid, by rw [hsplit]; rfl, Nat.succ_le_succ hle⟩

theorem sectionBodies_of_sectioned (h : Sectioned headers before bodies text) :
    ∃ body found, sectionBodies headers text = some (body :: found) ∧
      body.length ≤ before.length := by
  induction headers generalizing before bodies text with
  | nil =>
    obtain rfl : bodies = [] := List.eq_nil_of_length_eq_zero h.length
    exact ⟨text, [], rfl, by simp [h.text]⟩
  | cons header headers ih =>
    obtain ⟨body, rest, rfl, after, rfl, hafter⟩ := h.uncons
    obtain ⟨front, mid, hsplit, hle⟩ := splitOnce_early header before after
    obtain ⟨piece, found, hfound, -⟩ := ih (hafter.append mid)
    exact ⟨front, piece :: found, by rw [sectionBodies, hsplit]; simp [hfound], hle⟩

end Sections

section Offsets

variable {headers : List (List Char)}

theorem slice_append (front body rest : List Char) :
    slice (front ++ body ++ rest) (byteLen front) (byteLen (front ++ body)) = some body := by
  rw [slice, if_pos (by simp), splitAtByte_append]
  simp only [Option.bind_eq_bind, Option.bind_some, splitAtByte_append]
  rfl

theorem headerStarts_cons (front text header : List Char) :
    headerStarts (front ++ text) (header :: headers) (byteLen front) =
      match splitOnce header text with
      | none => some none
      | some (before, _) => (headerStarts (front ++ text) headers
          (byteLen (front ++ before ++ header))).map (·.map (byteLen (front ++ before) :: ·)) := by
  simp only [headerStarts, splitAtByte_append, find, Option.bind_eq_bind, Option.bind_some]
  cases splitOnce header text with
  | none => rfl
  | some pair =>
    simp only [Option.map_some, byteLen_append]
    exact (Option.map_eq_bind ..).symm

theorem headerStarts_none (front : List Char) {text : List Char}
    (h : sectionBodies headers text = none) :
    headerStarts (front ++ text) headers (byteLen front) = some none := by
  induction headers generalizing front text with
  | nil => cases h
  | cons header headers ih =>
    rw [headerStarts_cons]
    cases hsplit : splitOnce header text with
    | none => rfl
    | some pair =>
      obtain ⟨before, after⟩ := pair
      have hafter : sectionBodies headers after = none :=
        Option.eq_none_iff_forall_ne_some.mpr (by simpa [sectionBodies, hsplit] using h)
      have hlater := ih (front ++ before ++ header) hafter
      have htext := splitOnce_eq_append hsplit
      simp only [List.append_assoc] at hlater htext
      simp only [htext, List.append_assoc, hlater, Option.map_some, Option.map_none]

theorem headerStarts_some (front : List Char) {text body : List Char} {bodies : List (List Char)}
    (h : sectionBodies headers text = some (body :: bodies)) :
    ∃ starts, headerStarts (front ++ text) headers (byteLen front) = some (some starts) ∧
      starts.headD (byteLen (front ++ text)) = byteLen (front ++ body) ∧
      bodySlices (front ++ text) headers starts = some bodies := by
  induction headers generalizing front text body bodies with
  | nil =>
    obtain ⟨rfl, rfl⟩ := List.cons.inj (Option.some.inj h)
    exact ⟨[], rfl, rfl, rfl⟩
  | cons header headers ih =>
    simp only [sectionBodies, Option.bind_eq_bind, Option.bind_eq_some_iff, Prod.exists] at h
    obtain ⟨before, after, hsplit, pieces, hpieces, heq⟩ := h
    obtain ⟨rfl, rfl⟩ := List.cons.inj (Option.some.inj heq)
    obtain ⟨piece, rest, rfl, hafter⟩ := sectionBodies_sectioned hpieces
    obtain ⟨starts, hstarts, hhead, hslices⟩ := ih (front ++ before ++ header) hpieces
    have htext : front ++ text = front ++ before ++ header ++ after := by
      rw [splitOnce_eq_append hsplit]
      simp only [List.append_assoc]
    rw [← htext] at hstarts hhead hslices
    have hslice := slice_append (front ++ before ++ header) piece
      (List.zipWith (· ++ ·) headers rest).flatten
    rw [List.append_assoc, ← hafter.text, ← htext] at hslice
    refine ⟨byteLen (front ++ before) :: starts, ?_, rfl, ?_⟩
    · simp only [headerStarts_cons, hsplit, hstarts, Option.map_some]
    · rw [bodySlices, hhead, ← byteLen_append, hslice, hslices]
      rfl

theorem clampWithinSectionsBytes_eq (text : List Char) (capChars : Nat) :
    clampWithinSectionsBytes text capChars = some (clampWithinSections text capChars) := by
  rw [clampWithinSectionsBytes, clampWithinSections]
  cases hpieces : sectionBodies (SUMMARY_SECTIONS.map String.toList) text with
  | none =>
    have hnone := headerStarts_none [] hpieces
    rw [List.nil_append, byteLen_nil] at hnone
    simp [hnone]
  | some pieces =>
    obtain ⟨body, bodies, rfl, -⟩ := sectionBodies_sectioned hpieces
    obtain ⟨starts, hstarts, -, hslices⟩ := headerStarts_some [] hpieces
    rw [List.nil_append] at hstarts hslices
    rw [byteLen_nil] at hstarts
    simp [hstarts, hslices]

theorem clampBytes_eq (text : String) :
    CompactionSummary.clampBytes text = some (CompactionSummary.clamp text) := by
  rw [CompactionSummary.clampBytes, CompactionSummary.clamp]
  split
  · rfl
  · rw [clampWithinSectionsBytes_eq]
    cases clampWithinSections text.toList SUMMARY_CAP_CHARS <;> rfl

end Offsets

section Shares

variable {bodies : List (List Char)} {capChars : Nat} {out : List Char}

theorem length_intercalate (c : Char) (pieces : List (List Char)) :
    ([c].intercalate pieces).length ≤ (pieces.map List.length).sum + (pieces.length - 1) := by
  induction pieces with
  | nil => exact Nat.le_refl 0
  | cons piece pieces ih =>
    cases pieces with
    | nil => simp
    | cons next pieces =>
      rw [List.intercalate_cons_cons]
      simp only [List.length_append, List.map_cons, List.sum_cons, List.length_cons,
        List.length_nil] at ih ⊢
      omega

theorem sum_shares (budget total : Nat) (lengths : List Nat) :
    (lengths.map fun n => min (budget * n) USIZE_MAX / total).sum ≤
      budget * lengths.sum / total := by
  induction lengths with
  | nil => exact Nat.zero_le _
  | cons n lengths ih =>
    rw [List.map_cons, List.sum_cons, List.sum_cons, Nat.mul_add]
    calc min (budget * n) USIZE_MAX / total + (lengths.map _).sum
      _ ≤ budget * n / total + budget * lengths.sum / total :=
        Nat.add_le_add (Nat.div_le_div_right (Nat.min_le_left _ _)) ih
      _ ≤ (budget * n + budget * lengths.sum) / total := Nat.div_add_div_le_add_div

theorem length_cut_le (share : Nat → Nat) (headers bodies : List (List Char)) :
    (((headers.zip bodies).map fun (header, body) => header ++ body.take (share body.length)).map
      List.length).sum ≤
      (headers.map List.length).sum + ((bodies.map List.length).map share).sum := by
  induction headers generalizing bodies with
  | nil => simp
  | cons header headers ih =>
    cases bodies with
    | nil => simp
    | cons body bodies =>
      have := ih bodies
      simp only [List.zip_cons_cons, List.map_cons, List.sum_cons, List.length_append,
        List.length_take] at this ⊢
      omega

theorem length_joinSections (h : joinSections bodies capChars = some out) :
    out.length ≤ capChars := by
  simp only [joinSections, Option.ite_none_left_eq_some, Option.some.injEq, not_or] at h
  obtain ⟨⟨htotal, hbudget⟩, rfl⟩ := h
  refine (length_intercalate _ _).trans ?_
  generalize hheaders : SUMMARY_SECTIONS.map String.toList = headers at *
  have hcount : headers.length = SUMMARY_SECTIONS.length := by rw [← hheaders, List.length_map]
  generalize hleft : capChars - ((headers.map List.length).sum + (SUMMARY_SECTIONS.length - 1))
    = budget at *
  have hcut := length_cut_le (fun n => min (budget * n) USIZE_MAX / (bodies.map List.length).sum)
    headers bodies
  have hshares := sum_shares budget (bodies.map List.length).sum (bodies.map List.length)
  rw [Nat.mul_div_cancel _ (Nat.pos_of_ne_zero htotal)] at hshares
  simp only [List.length_map, List.length_zip] at hcut ⊢
  omega

theorem intercalate_sectioned (cut : List Char → List Char) (headers bodies : List (List Char))
    (hlen : bodies.length = headers.length) :
    ∃ left, Sectioned headers [] left (['\n'].intercalate
      ((headers.zip bodies).map fun p => p.1 ++ cut p.2)) := by
  induction headers generalizing bodies with
  | nil => exact ⟨[], rfl, rfl⟩
  | cons header headers ih =>
    obtain ⟨body, bodies, rfl⟩ := List.exists_cons_of_length_eq_add_one hlen
    obtain ⟨left, hleft⟩ := ih bodies (Nat.succ.inj hlen)
    cases headers with
    | nil =>
      refine ⟨[cut body], rfl, ?_⟩
      simp [List.eq_nil_of_length_eq_zero (Nat.succ.inj hlen)]
    | cons next headers =>
      obtain ⟨body', bodies, rfl⟩ := List.exists_cons_of_length_eq_add_one (Nat.succ.inj hlen)
      refine ⟨(cut body ++ ['\n']) :: left, ?_⟩
      have hcons : Sectioned (header :: next :: headers) [] _ ([] ++ header ++ _) :=
        (hleft.append (cut body ++ ['\n'])).cons
      simpa [List.intercalate_cons_cons] using hcons

theorem joinSections_sectioned (hlen : bodies.length = SUMMARY_SECTIONS.length)
    (h : joinSections bodies capChars = some out) :
    ∃ left, Sectioned (SUMMARY_SECTIONS.map String.toList) [] left out := by
  simp only [joinSections, Option.ite_none_left_eq_some, Option.some.injEq] at h
  obtain ⟨-, rfl⟩ := h
  exact intercalate_sectioned (fun body => body.take (min (_ * body.length) USIZE_MAX / _))
    (SUMMARY_SECTIONS.map String.toList) bodies (hlen.trans (List.length_map _).symm)

end Shares

section Clamp

theorem length_clamp (text : String) :
    (CompactionSummary.clamp text).asStr.length ≤ SUMMARY_CAP_CHARS := by
  rw [CompactionSummary.clamp]
  split
  case isTrue h => exact h
  case isFalse =>
    split
    case h_1 bySection h =>
      obtain ⟨pieces, -, hjoin⟩ := Option.bind_eq_some_iff.mp h
      simpa using length_joinSections hjoin
    case h_2 => simp

theorem clamp_of_le {text : String} (h : text.length ≤ SUMMARY_CAP_CHARS) :
    CompactionSummary.clamp text = ⟨text⟩ := if_pos h

theorem clamp_sectioned {text : String} {before : List Char} {bodies : List (List Char)}
    (h : Sectioned (SUMMARY_SECTIONS.map String.toList) before bodies text.toList)
    (hbody : ∃ body ∈ bodies, body ≠ []) :
    ∃ front left, Sectioned (SUMMARY_SECTIONS.map String.toList) front left
      (CompactionSummary.clamp text).asStr.toList := by
  by_cases hfits : text.length ≤ SUMMARY_CAP_CHARS
  · rw [clamp_of_le hfits]
    exact ⟨before, bodies, h⟩
  obtain ⟨front, found, hpieces, hle⟩ := sectionBodies_of_sectioned h
  obtain ⟨_, _, heq, hfound⟩ := sectionBodies_sectioned hpieces
  obtain ⟨rfl, rfl⟩ := List.cons.inj heq
  have htotal : 0 < (found.map List.length).sum := by
    obtain ⟨body, hmem, hne⟩ := hbody
    have hpos := List.length_pos_iff.mpr hne
    have hsum := List.le_sum_of_mem (List.mem_map_of_mem (f := List.length) hmem)
    have := h.length_text
    have := hfound.length_text
    omega
  obtain ⟨out, hjoin⟩ : ∃ out, joinSections found SUMMARY_CAP_CHARS = some out := by
    have hbudget : SUMMARY_CAP_CHARS - (((SUMMARY_SECTIONS.map String.toList).map List.length).sum +
        (SUMMARY_SECTIONS.length - 1)) ≠ 0 := by decide
    exact ⟨_, if_neg fun h => h.elim (Nat.ne_of_gt htotal) hbudget⟩
  have hclamp : clampWithinSections text.toList SUMMARY_CAP_CHARS = some out := by
    rw [clampWithinSections, hpieces]
    exact hjoin
  obtain ⟨left, hleft⟩ := joinSections_sectioned (hfound.length.trans (by simp)) hjoin
  refine ⟨[], left, ?_⟩
  rw [CompactionSummary.clamp, if_neg hfits, hclamp, String.toList_ofList]
  exact hleft

/-- The summary fits and is found without a slice inside a character, a text that fits is left
alone, and sections that stand in order stay so. -/
theorem clampBytes_sound (text : String) :
    ∃ summary, CompactionSummary.clampBytes text = some summary ∧
      summary.asStr.length ≤ MAX_SUMMARY_TOKENS * 4 ∧
      (text.length ≤ MAX_SUMMARY_TOKENS * 4 → summary.asStr = text) ∧
      CompactionSummary.clampBytes summary.asStr = some summary ∧
      ∀ before bodies, Sectioned (SUMMARY_SECTIONS.map String.toList) before bodies text.toList →
        (∃ body ∈ bodies, body ≠ []) →
        ∃ front left, Sectioned (SUMMARY_SECTIONS.map String.toList) front left
          summary.asStr.toList := by
  refine ⟨CompactionSummary.clamp text, clampBytes_eq text, length_clamp text, fun hfits => ?_, ?_,
    fun before bodies h hbody => clamp_sectioned h hbody⟩
  · rw [clamp_of_le hfits]
  · rw [clampBytes_eq, clamp_of_le (length_clamp text)]

end Clamp

end Patom.AgentCore
