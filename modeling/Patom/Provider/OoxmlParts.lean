import Patom.Provider.OoxmlText
import Patom.TypesLaws

namespace Patom.Provider

def MAX_DOC_EXTRACT_BYTES : Nat := 200 * 1024

inductive AttachmentError
  | extract (detail : String)
  | panicked (message : String)
  deriving DecidableEq

/-- An opened archive, as the `zip` crate gives it; an error is what it displays. -/
structure ZipArchive where
  fileNames : List String
  byName : String → Except String ByteArray

def docExtractReadCap : Nat := MAX_DOC_EXTRACT_BYTES

/-- `by_name`, and `take(..).read_to_string(..)` of the entry. -/
def ZipArchive.readPart (a : ZipArchive) (found read name : String) : Except AttachmentError String :=
  match a.byName name with
  | .error e => .error (.extract (found ++ ": " ++ e))
  | .ok data =>
    match String.fromUTF8? (data.extract 0 docExtractReadCap) with
    | some xml => .ok xml
    | none => .error (.extract (read ++ ": stream did not contain valid UTF-8"))

def scannedText : Except String (List Char) → Except AttachmentError (List Char)
  | .ok text => .ok text
  | .error message => .error (.panicked message)

def extractDocx (opened : Except String ZipArchive) : Except AttachmentError (List Char) :=
  match opened with
  | .error e => .error (.extract ("docx zip: " ++ e))
  | .ok archive =>
    match archive.readPart "docx body" "docx read" "word/document.xml" with
    | .error e => .error e
    | .ok xml => scannedText (docxXmlToText xml.toList)

def isSlide (name : String) : Bool :=
  "ppt/slides/slide".toList.isPrefixOf name.toList && ".xml".toList.isSuffixOf name.toList

/-- The loop over the slides; the names of those that were emitted are kept beside the text. -/
def slideLoop (archive : ZipArchive) :
    List String → List Char → List String → Except AttachmentError (List Char × List String)
  | [], out, emitted => .ok (out, emitted)
  | name :: slides, out, emitted =>
    if MAX_DOC_EXTRACT_BYTES ≤ byteLen out then .ok (out, emitted)
    else
      match archive.readPart "pptx slide" "pptx read" name with
      | .error e => .error e
      | .ok xml =>
        match scannedText (pptxXmlToText xml.toList out) with
        | .error e => .error e
        | .ok out => slideLoop archive slides (out ++ ['\n']) (emitted ++ [name])

def emitSlides (opened : Except String ZipArchive) : Except AttachmentError (List Char × List String) :=
  match opened with
  | .error e => .error (.extract ("pptx zip: " ++ e))
  | .ok archive =>
    slideLoop archive ((archive.fileNames.filter isSlide).insertionSort (· ≤ ·)) [] []

def extractPptx (opened : Except String ZipArchive) : Except AttachmentError (List Char) :=
  (emitSlides opened).map Prod.fst

def CutsWhole (text : String) (n : Nat) : Prop :=
  byteLen (cutAtBoundary n text.toList) = min n text.utf8ByteSize

instance cutsWholeDecidable (text : String) (n : Nat) : Decidable (CutsWhole text n) :=
  inferInstanceAs (Decidable (_ = _))

theorem extract_of_cutsWhole {text : String} {n : Nat} (h : CutsWhole text n) :
    text.toByteArray.extract 0 n = (String.ofList (cutAtBoundary n text.toList)).toByteArray := by
  obtain ⟨rest, hrest⟩ := exists_eq_cutAtBoundary_append n text.toList
  have hsize : (String.ofList (cutAtBoundary n text.toList)).utf8ByteSize = min n text.utf8ByteSize := by
    rw [← byteLen_eq, h]
  have htext : text = String.ofList (cutAtBoundary n text.toList) ++ String.ofList rest := by
    rw [← String.ofList_append, ← hrest, String.ofList_toList]
  rcases Nat.le_total n text.utf8ByteSize with hle | hle
  · rw [Nat.min_eq_left hle] at hsize
    conv_lhs => rw [htext, String.toByteArray_append]
    exact ByteArray.extract_append_eq_left hsize.symm
  · have hall : cutAtBoundary n text.toList = text.toList :=
      cutAtBoundary_of_le (by rwa [byteLen_toList])
    rw [hall, String.ofList_toList, ← Nat.max_eq_left hle, ← String.size_toByteArray]
    exact ByteArray.extract_zero_max_size

theorem fromUTF8?_extract (text : String) (n : Nat) : String.fromUTF8? (text.toByteArray.extract 0 n)
    = if CutsWhole text n then some (String.ofList (cutAtBoundary n text.toList)) else none := by
  split
  · next h =>
    have hvalid : (text.toByteArray.extract 0 n).IsValidUTF8 := by
      rw [extract_of_cutsWhole h]
      exact String.isValidUTF8 _
    rw [String.fromUTF8?, dif_pos hvalid]
    exact congrArg some (String.toByteArray_inj.mp (extract_of_cutsWhole h))
  · next h =>
    refine dif_neg fun hvalid => h ?_
    rcases Nat.le_total n text.utf8ByteSize with hle | hle
    · have hpos : String.Pos.Raw.IsValid text ⟨n⟩ :=
        String.Pos.Raw.isValid_iff_isValidUTF8_extract_zero.mpr ⟨hle, hvalid⟩
      obtain ⟨before, after, rfl, hn⟩ := String.Pos.Raw.isValid_iff_exists_append.mp hpos
      have hsize : n = byteLen before.toList := by
        rw [byteLen_toList]
        exact congrArg String.Pos.Raw.byteIdx hn
      rw [CutsWhole, Nat.min_eq_left hle, hsize, String.toList_append, cutAtBoundary_append]
    · rw [CutsWhole, Nat.min_eq_right hle, cutAtBoundary_of_le (by rwa [byteLen_toList]), byteLen_toList]

theorem readPart_eq {a : ZipArchive} {name text : String} (h : a.byName name = .ok text.toByteArray)
    (found read : String) : a.readPart found read name = if CutsWhole text MAX_DOC_EXTRACT_BYTES then
      .ok (String.ofList (cutAtBoundary MAX_DOC_EXTRACT_BYTES text.toList))
    else .error (.extract (read ++ ": stream did not contain valid UTF-8")) := by
  rw [ZipArchive.readPart, h]
  simp only [docExtractReadCap, fromUTF8?_extract]
  by_cases hcut : CutsWhole text MAX_DOC_EXTRACT_BYTES
  · simp only [if_pos hcut]
  · simp only [if_neg hcut]

structure DocxFile where
  archive : ZipArchive
  body : String
  yields : archive.byName "word/document.xml" = .ok body.toByteArray

def DocxFile.Extracts (file : DocxFile) : Prop :=
  ∃ text, docxXmlToText (cutAtBoundary MAX_DOC_EXTRACT_BYTES file.body.toList) = .ok text ∧
    extractDocx (.ok file.archive) = .ok text

def slideName (n : Nat) : String := "ppt/slides/slide" ++ toString n ++ ".xml"

structure Deck where
  archive : ZipArchive
  numbers : List Nat
  xml : Nat → String
  increasing : numbers.Pairwise (· < ·)
  names : (archive.fileNames.filter isSlide).Perm (numbers.map slideName)
  yields : ∀ n ∈ numbers, archive.byName (slideName n) = .ok (xml n).toByteArray

def slideText (xml : List Char) : List Char := (pptxXmlToText xml []).toOption.getD []

theorem pptxXmlToText_eq (xml out : List Char) : pptxXmlToText xml out = .ok (out ++ slideText xml) := by
  obtain ⟨text, htext⟩ := scanTags_ok pptxTag "pptx scan is bounded by input length" false
    (Nat.lt_succ_of_le (length_le_byteLen xml))
  have hnil : pptxXmlToText xml [] = .ok text := htext []
  rw [slideText, hnil]
  exact htext out

namespace Deck

variable (deck : Deck)

def page (n : Nat) : List Char :=
  slideText (cutAtBoundary MAX_DOC_EXTRACT_BYTES (deck.xml n).toList) ++ ['\n']

def roomFor : List Char → List Nat → List Nat
  | _, [] => []
  | out, n :: ns =>
    if MAX_DOC_EXTRACT_BYTES ≤ byteLen out then [] else n :: roomFor (out ++ deck.page n) ns

def emitted : List Nat := deck.roomFor [] deck.numbers

/-- The slides are emitted in increasing number as long as there is room. -/
def Extracts : Prop :=
  emitSlides (.ok deck.archive) = .ok (deck.emitted.flatMap deck.page, deck.emitted.map slideName)

end Deck

theorem toList_slideName (n : Nat) : (slideName n).toList =
    "ppt/slides/slide".toList ++ ((toString n).toList ++ ".xml".toList) := by
  delta slideName
  rw [String.toList_append, String.toList_append, List.append_assoc]

theorem slideName_injective {m n : Nat} (h : slideName m = slideName n) : m = n := by
  have hlist := congrArg String.toList h
  rw [toList_slideName, toList_slideName, List.append_cancel_left_eq,
    List.append_cancel_right_eq] at hlist
  exact natRepr_injective (String.toList_injective hlist)

theorem slideLoop_emitted {archive : ZipArchive} {names : List String} {out : List Char}
    {emitted : List String} {res : List Char × List String}
    (h : slideLoop archive names out emitted = .ok res) : ∃ more, res.2 = emitted ++ more := by
  induction names generalizing out emitted with
  | nil =>
    cases h
    exact ⟨[], (List.append_nil _).symm⟩
  | cons name names ih =>
    rw [slideLoop] at h
    split at h
    · cases h
      exact ⟨[], (List.append_nil _).symm⟩
    · split at h
      · cases h
      · split at h
        · cases h
        · obtain ⟨more, hmore⟩ := ih h
          exact ⟨name :: more, by rw [hmore, List.append_assoc, List.singleton_append]⟩

section Deck

variable {deck : Deck}

theorem slideLoop_cons {n : Nat} (h : deck.archive.byName (slideName n) = .ok (deck.xml n).toByteArray)
    (names : List String) {out : List Char} (emitted : List String)
    (hroom : ¬ MAX_DOC_EXTRACT_BYTES ≤ byteLen out) (hcut : CutsWhole (deck.xml n) MAX_DOC_EXTRACT_BYTES) :
    slideLoop deck.archive (slideName n :: names) out emitted
      = slideLoop deck.archive names (out ++ deck.page n) (emitted ++ [slideName n]) := by
  rw [slideLoop, if_neg hroom, readPart_eq h, if_pos hcut]
  simp only [String.toList_ofList, pptxXmlToText_eq, scannedText, Deck.page, List.append_assoc]

theorem slideLoop_cut {n : Nat} (h : deck.archive.byName (slideName n) = .ok (deck.xml n).toByteArray)
    (names : List String) {out : List Char} (emitted : List String)
    (hroom : ¬ MAX_DOC_EXTRACT_BYTES ≤ byteLen out)
    (hcut : ¬ CutsWhole (deck.xml n) MAX_DOC_EXTRACT_BYTES) :
    ∃ e, slideLoop deck.archive (slideName n :: names) out emitted = .error e := by
  rw [slideLoop, if_neg hroom, readPart_eq h, if_neg hcut]
  exact ⟨_, rfl⟩

theorem mem_of_mem_roomFor {out : List Char} {ns : List Nat} {n : Nat} (h : n ∈ deck.roomFor out ns) :
    n ∈ ns := by
  induction ns generalizing out with
  | nil => exact h
  | cons m ns ih =>
    rw [Deck.roomFor] at h
    split at h
    · cases h
    · rcases List.mem_cons.mp h with rfl | h
      · exact List.mem_cons_self
      · exact List.mem_cons_of_mem _ (ih h)

theorem slideLoop_iff {ns : List Nat} {names : List String} (hincreasing : ns.Pairwise (· < ·))
    (hyields : ∀ n ∈ ns, deck.archive.byName (slideName n) = .ok (deck.xml n).toByteArray)
    (hperm : names.Perm (ns.map slideName)) (hsorted : names.Pairwise (· < ·)) (out : List Char)
    (emitted : List String) :
    slideLoop deck.archive names out emitted
        = .ok (out ++ (deck.roomFor out ns).flatMap deck.page, emitted ++ (deck.roomFor out ns).map slideName) ↔
      ∀ n ∈ deck.roomFor out ns, CutsWhole (deck.xml n) MAX_DOC_EXTRACT_BYTES ∧
        ∀ m ∈ ns, n < m → slideName n < slideName m := by
  induction ns generalizing names out emitted with
  | nil =>
    obtain rfl := List.perm_nil.mp hperm
    simp [slideLoop, Deck.roomFor]
  | cons n ns ih =>
    obtain ⟨hfirst, hrest⟩ := List.pairwise_cons.mp hincreasing
    by_cases hroom : MAX_DOC_EXTRACT_BYTES ≤ byteLen out
    · have hnone : deck.roomFor out (n :: ns) = [] := if_pos hroom
      cases names with
      | nil => simp [hnone, slideLoop]
      | cons name names => simp [hnone, slideLoop, hroom]
    have hshown : deck.roomFor out (n :: ns) = n :: deck.roomFor (out ++ deck.page n) ns := if_neg hroom
    obtain ⟨name, names, rfl⟩ : ∃ name rest, names = name :: rest := by
      refine List.exists_cons_of_ne_nil ?_
      rintro rfl
      exact absurd (List.nil_perm.mp hperm) (List.cons_ne_nil _ _)
    obtain ⟨hleast, hsorted'⟩ := List.pairwise_cons.mp hsorted
    by_cases hname : name = slideName n
    · subst hname
      have hperm' : names.Perm (ns.map slideName) := List.Perm.cons_inv hperm
      have hnext := ih hrest (fun m hm => hyields m (List.mem_cons_of_mem _ hm)) hperm' hsorted'
        (out ++ deck.page n) (emitted ++ [slideName n])
      by_cases hcut : CutsWhole (deck.xml n) MAX_DOC_EXTRACT_BYTES
      · rw [slideLoop_cons (hyields n List.mem_cons_self) names emitted hroom hcut, hshown]
        simp only [List.flatMap_cons, List.map_cons, List.append_assoc, List.singleton_append] at hnext ⊢
        rw [hnext]
        constructor
        · intro h k hk
          rcases List.mem_cons.mp hk with rfl | hk
          · refine ⟨hcut, fun m hm hlt => ?_⟩
            rcases List.mem_cons.mp hm with rfl | hm
            · exact absurd hlt (lt_irrefl _)
            · exact hleast _ (hperm'.mem_iff.mpr (List.mem_map_of_mem hm))
          · refine ⟨(h k hk).1, fun m hm hlt => ?_⟩
            rcases List.mem_cons.mp hm with rfl | hm
            · exact absurd hlt (hfirst k (mem_of_mem_roomFor hk)).asymm
            · exact (h k hk).2 m hm hlt
        · intro h k hk
          have hboth := h k (List.mem_cons_of_mem _ hk)
          exact ⟨hboth.1, fun m hm => hboth.2 m (List.mem_cons_of_mem _ hm)⟩
      · obtain ⟨e, he⟩ := slideLoop_cut (hyields n List.mem_cons_self) names emitted hroom hcut
        rw [he, hshown]
        exact iff_of_false (fun h => by cases h) fun h => hcut (h n List.mem_cons_self).1
    -- A slide with a greater number sorts first, and is read in place of this one.
    · obtain ⟨m, hm, rfl⟩ : ∃ m ∈ ns, slideName m = name := by
        obtain ⟨m, hm, hname'⟩ := List.mem_map.mp (hperm.mem_iff.mp List.mem_cons_self)
        rcases List.mem_cons.mp hm with rfl | hm
        · exact absurd hname'.symm hname
        · exact ⟨m, hm, hname'⟩
      have hyield := hyields m (List.mem_cons_of_mem _ hm)
      refine iff_of_false (fun h => ?_) fun h => ?_
      · by_cases hcut : CutsWhole (deck.xml m) MAX_DOC_EXTRACT_BYTES
        · rw [slideLoop_cons hyield names emitted hroom hcut, hshown] at h
          obtain ⟨more, hmore⟩ := slideLoop_emitted h
          rw [List.map_cons, List.append_assoc, List.append_cancel_left_eq, List.singleton_append] at hmore
          exact hname (List.cons.inj hmore).1.symm
        · obtain ⟨e, he⟩ := slideLoop_cut hyield names emitted hroom hcut
          cases he.symm.trans h
      · have hbefore := (h n (hshown ▸ List.mem_cons_self)).2 m (List.mem_cons_of_mem _ hm) (hfirst m hm)
        have hmem : slideName n ∈ names := by
          rcases List.mem_cons.mp (hperm.mem_iff.mpr List.mem_cons_self) with heq | hmem
          · exact absurd heq.symm hname
          · exact hmem
        exact absurd (hleast _ hmem) hbefore.asymm

theorem deck_extracts_iff (deck : Deck) : deck.Extracts ↔
    ∀ n ∈ deck.emitted, CutsWhole (deck.xml n) MAX_DOC_EXTRACT_BYTES ∧
      ∀ m ∈ deck.numbers, n < m → slideName n < slideName m := by
  have hperm := (List.perm_insertionSort (· ≤ ·) (deck.archive.fileNames.filter isSlide)).trans deck.names
  have hnodup : ((deck.archive.fileNames.filter isSlide).insertionSort (· ≤ ·)).Nodup := by
    refine hperm.nodup_iff.mpr (List.Nodup.map (fun _ _ => slideName_injective) ?_)
    exact deck.increasing.imp fun h => h.ne
  have hsorted : ((deck.archive.fileNames.filter isSlide).insertionSort (· ≤ ·)).Pairwise (· < ·) :=
    ((List.pairwise_insertionSort (· ≤ ·) _).and hnodup).imp fun h => lt_of_le_of_ne h.1 h.2
  have hloop := slideLoop_iff deck.increasing deck.yields hperm hsorted [] []
  rw [List.nil_append, List.nil_append] at hloop
  exact hloop

theorem docx_extracts_iff (file : DocxFile) : file.Extracts ↔ CutsWhole file.body MAX_DOC_EXTRACT_BYTES := by
  obtain ⟨text, htext⟩ := scanTags_ok docxTag "docx scan is bounded by input length" false
    (Nat.lt_succ_of_le (length_le_byteLen (cutAtBoundary MAX_DOC_EXTRACT_BYTES file.body.toList)))
  have hscan : docxXmlToText (cutAtBoundary MAX_DOC_EXTRACT_BYTES file.body.toList) = .ok text := htext []
  have hread := readPart_eq file.yields "docx body" "docx read"
  unfold DocxFile.Extracts
  simp only [extractDocx, hread]
  by_cases hcut : CutsWhole file.body MAX_DOC_EXTRACT_BYTES
  · simp only [if_pos hcut, String.toList_ofList, hscan]
    exact iff_of_true ⟨text, rfl, rfl⟩ hcut
  · simp only [if_neg hcut]
    exact iff_of_false (fun ⟨_, _, h⟩ => by cases h) hcut

theorem range_in_order_iff {count : Nat} (hnumbers : deck.numbers = List.range' 1 count)
    (htwo : 2 ∈ deck.emitted) :
    (∀ n ∈ deck.emitted, ∀ m ∈ deck.numbers, n < m → slideName n < slideName m) ↔ count ≤ 9 := by
  constructor
  · intro h
    by_contra hmany
    have hten : 10 ∈ deck.numbers := by
      rw [hnumbers, List.mem_range'_1]
      omega
    have hlt := h 2 htwo 10 hten (by decide)
    exact absurd hlt (by decide +kernel)
  · intro hfew n hn m hm hlt
    have hall : ∀ m < 10, ∀ n < m, slideName n < slideName m := by decide +kernel
    rw [hnumbers, List.mem_range'_1] at hm
    exact hall m (by omega) n hlt

end Deck

/-- A document is read when its cap leaves no character in two; a deck when that holds of each slide
there is room for and these sort as texts before all of a greater number, which of slides 1 to
`count` they do for `count ≤ 9`. -/
theorem extraction_iff (file : DocxFile) (deck : Deck) :
    (file.Extracts ↔ CutsWhole file.body MAX_DOC_EXTRACT_BYTES) ∧
    (deck.Extracts ↔ ∀ n ∈ deck.emitted, CutsWhole (deck.xml n) MAX_DOC_EXTRACT_BYTES ∧
      ∀ m ∈ deck.numbers, n < m → slideName n < slideName m) ∧
    ∀ count, deck.numbers = List.range' 1 count → 2 ∈ deck.emitted →
      ((∀ n ∈ deck.emitted, ∀ m ∈ deck.numbers, n < m → slideName n < slideName m) ↔ count ≤ 9) :=
  ⟨docx_extracts_iff file, deck_extracts_iff deck, fun _ hnumbers htwo => range_in_order_iff hnumbers htwo⟩

theorem isSlide_slideName (n : Nat) : isSlide (slideName n) := by
  delta isSlide
  rw [toList_slideName, Bool.and_eq_true, List.isPrefixOf_iff_prefix, List.isSuffixOf_iff_suffix]
  exact ⟨⟨_, rfl⟩, _, List.append_assoc _ _ _⟩

def numberXml (n : Nat) : String := "<a:t>" ++ toString n ++ "</a:t>"

def tenSlides : Deck where
  archive :=
    { fileNames := (List.range' 1 10).map slideName
      byName := fun name =>
        match (List.range' 1 10).find? fun n => slideName n = name with
        | some n => .ok (numberXml n).toByteArray
        | none => .error "specified file not found in archive" }
  numbers := List.range' 1 10
  xml := numberXml
  increasing := List.pairwise_lt_range'
  names := by
    rw [List.filter_eq_self.mpr fun name hname => ?_]
    obtain ⟨n, -, rfl⟩ := List.mem_map.mp hname
    exact isSlide_slideName n
  yields n hn := by
    have hfind : (List.range' 1 10).find? (fun m => slideName m = slideName n) = some n := by
      obtain ⟨m, hm⟩ := Option.isSome_iff_exists.mp
        (List.find?_isSome.mpr ⟨n, hn, decide_eq_true rfl⟩ :
          ((List.range' 1 10).find? fun m => slideName m = slideName n).isSome)
      have hname : slideName m = slideName n := by simpa using List.find?_some hm
      rw [hm, slideName_injective hname]
    simp only [hfind]

theorem tenSlides_out_of_order : ¬ tenSlides.Extracts := by
  have htwo : 2 ∈ tenSlides.emitted := by decide +kernel
  intro h
  have hlt := ((deck_extracts_iff tenSlides).mp h 2 htwo).2 10 (by decide) (by decide)
  exact absurd hlt (by decide +kernel)

end Patom.Provider
