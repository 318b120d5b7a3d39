import Patom.Provider.OoxmlScan

namespace Patom.Provider

structure Attrs where
  chars : List Char
  closed : '>' ∉ chars
  apart : ∀ c ∈ chars.head?, isWhitespace c
  open_ : chars.getLast? ≠ some '/'

inductive TextChar
  | raw (c : Char) (plain : c ≠ '<' ∧ c ≠ '&')
  | entity (e : Entity)

def TextChar.value : TextChar → Char
  | .raw c _ => c
  | .entity e => e.char

def TextChar.render : TextChar → List Char
  | .raw c _ => [c]
  | .entity e => '&' :: e.name

structure Dialect where
  text : List Char
  para : List Char
  tabs : List (List Char)
  breaks : List (List Char)
  plain : (text :: para :: tabs ++ breaks).all fun name =>
    name ≠ [] && name.all fun c => !endsName c && c ≠ '>'

namespace Dialect

def docx : Dialect :=
  ⟨"w:t".toList, "w:p".toList, ["w:tab".toList], ["w:br".toList, "w:cr".toList], by decide⟩

def pptx : Dialect := ⟨"a:t".toList, "a:p".toList, [], ["a:br".toList], by decide⟩

def own (d : Dialect) : List (List Char) :=
  d.text :: ('/' :: d.text) :: ('/' :: d.para) :: d.tabs ++ d.breaks

end Dialect

/-- The start tags of paragraphs and of runs are among the others. -/
inductive Elem (d : Dialect)
  | text (attrs : Attrs) (body : List TextChar)
  | emptyText (attrs : Attrs)
  | tab (name : List Char) (h : name ∈ d.tabs) (attrs : Attrs)
  | brk (name : List Char) (h : name ∈ d.breaks) (attrs : Attrs)
  | paraEnd
  | other (tag : List Char) (closed : '>' ∉ tag) (foreign : tagName tag ∉ d.own)

def inTag (tag : List Char) : List Char := '<' :: (tag ++ ['>'])

namespace Elem

variable {d : Dialect}

def render : Elem d → List Char
  | .text attrs body =>
    inTag (d.text ++ attrs.chars) ++ body.flatMap TextChar.render ++ inTag ('/' :: d.text)
  | .emptyText attrs => inTag (d.text ++ (attrs.chars ++ ['/']))
  | .tab name _ attrs => inTag (name ++ (attrs.chars ++ ['/']))
  | .brk name _ attrs => inTag (name ++ (attrs.chars ++ ['/']))
  | .paraEnd => inTag ('/' :: d.para)
  | .other tag _ _ => inTag tag

def seen : Elem d → List Char
  | .text _ body => body.map TextChar.value
  | .emptyText _ => []
  | .tab _ _ _ => ['\t']
  | .brk _ _ _ => ['\n']
  | .paraEnd => ['\n']
  | .other _ _ _ => []

def isText : Elem d → Bool
  | .text _ _ => true
  | _ => false

def isEmptyText : Elem d → Bool
  | .emptyText _ => true
  | _ => false

end Elem

/-- An element with what stands before it: white space, or what the elements around it contain. -/
structure Token (d : Dialect) where
  lead : List Char
  plain : '<' ∉ lead
  elem : Elem d

structure Document (d : Dialect) where
  tokens : List (Token d)
  tail : List Char
  plain : '<' ∉ tail

namespace Document

variable {d : Dialect}

def renderTokens (ts : List (Token d)) : List Char := ts.flatMap fun t => t.lead ++ t.elem.render

def render (doc : Document d) : List Char := renderTokens doc.tokens ++ doc.tail

def text (doc : Document d) : List Char := doc.tokens.flatMap fun t => t.elem.seen

def TagsOnly (ts : List (Token d)) : Prop :=
  ∀ mid t after, ts = mid ++ t :: after → (∀ t' ∈ mid, t'.elem.isText = false) → t.lead = []

/-- Each text element that closes itself has tags only behind it, up to the next text element. -/
def Tight (ts : List (Token d)) : Prop :=
  ∀ before empty after, ts = before ++ empty :: after → empty.elem.isEmptyText → TagsOnly after

end Document

theorem decodeEntity_name (e : Entity) (rest : List Char) : decodeEntity (e.name ++ rest) = (e.char, rest) := by
  cases e <;> rfl

theorem length_decodeEntity_le (tail : List Char) : (decodeEntity tail).2.length ≤ tail.length := by
  unfold decodeEntity
  split
  · rw [List.length_drop]
    exact Nat.sub_le _ _
  · exact Nat.le_refl _

theorem unescapeLoop_ok {fuel : Nat} {s : List Char} (h : s.length < fuel) :
    ∃ u, ∀ out, unescapeLoop fuel out s = .ok (out ++ u) ∧ (u = [] ↔ s = []) := by
  induction fuel generalizing s with
  | zero => exact absurd h (Nat.not_lt_zero _)
  | succ fuel ih =>
    cases hsplit : splitOnce ['&'] s with
    | none => exact ⟨s, fun out => ⟨by rw [unescapeLoop, hsplit], Iff.rfl⟩⟩
    | some parts =>
      have happend : s = parts.1 ++ ['&'] ++ parts.2 := splitOnce_eq_append hsplit
      have hs := congrArg List.length happend
      have hle := length_decodeEntity_le parts.2
      simp only [List.length_append, List.length_singleton] at hs
      obtain ⟨u, hu⟩ := ih (s := (decodeEntity parts.2).2) (by omega)
      refine ⟨parts.1 ++ [(decodeEntity parts.2).1] ++ u, fun out => ⟨?_, ?_⟩⟩
      · rw [unescapeLoop, hsplit]
        simp only [(hu _).1, List.append_assoc]
      · refine iff_of_false (by simp) fun hnil => ?_
        rw [hnil, List.length_nil] at hs
        omega

theorem length_le_byteLen (s : List Char) : s.length ≤ byteLen s := by
  induction s with
  | nil => exact Nat.le_refl 0
  | cons c s ih =>
    have := c.utf8Size_pos
    rw [List.length_cons, byteLen_cons]
    omega

def unescaped (s : List Char) : List Char := (pushUnescaped [] s).toOption.getD []

theorem pushUnescaped_eq (out s : List Char) : pushUnescaped out s = .ok (out ++ unescaped s) := by
  unfold unescaped pushUnescaped
  split
  · obtain ⟨u, hu⟩ := unescapeLoop_ok (Nat.lt_succ_of_le (length_le_byteLen s))
    rw [(hu out).1, (hu []).1]
    rfl
  · rfl

theorem unescaped_eq_nil {s : List Char} : unescaped s = [] ↔ s = [] := by
  unfold unescaped pushUnescaped
  split
  · obtain ⟨u, hu⟩ := unescapeLoop_ok (Nat.lt_succ_of_le (length_le_byteLen s))
    rw [(hu []).1]
    exact (hu []).2
  · rfl

theorem unescapeLoop_render (body : List TextChar) {fuel : Nat} (out before : List Char)
    (h : (before ++ body.flatMap TextChar.render).length < fuel) (hbefore : '&' ∉ before) :
    unescapeLoop fuel out (before ++ body.flatMap TextChar.render)
      = .ok (out ++ before ++ body.map TextChar.value) := by
  induction body generalizing fuel out before with
  | nil =>
    obtain ⟨fuel, rfl⟩ := Nat.exists_eq_add_one_of_ne_zero (Nat.ne_zero_of_lt h)
    simp [unescapeLoop, splitOnce_singleton_eq_none hbefore]
  | cons c body ih =>
    cases c with
    | raw c plain =>
      have hsplit : before ++ (TextChar.raw c plain :: body).flatMap TextChar.render
          = before ++ [c] ++ body.flatMap TextChar.render := by
        simp [TextChar.render]
      rw [hsplit] at h ⊢
      rw [ih _ _ h (by simp [hbefore, plain.2.symm])]
      simp [TextChar.value]
    | entity e =>
      obtain ⟨fuel, rfl⟩ := Nat.exists_eq_add_one_of_ne_zero (Nat.ne_zero_of_lt h)
      have hsplit : before ++ (TextChar.entity e :: body).flatMap TextChar.render
          = before ++ '&' :: (e.name ++ body.flatMap TextChar.render) := by
        simp [TextChar.render]
      rw [hsplit] at h ⊢
      rw [unescapeLoop, splitOnce_singleton hbefore]
      simp only [decodeEntity_name]
      have hlength : ([] ++ body.flatMap TextChar.render).length < fuel := by
        simp only [List.length_append, List.length_cons] at h
        rw [List.nil_append]
        omega
      have hrest := ih (out ++ before ++ [e.char]) [] hlength List.not_mem_nil
      rw [List.nil_append, List.append_nil] at hrest
      rw [hrest]
      simp [TextChar.value]

theorem unescaped_render (body : List TextChar) :
    unescaped (body.flatMap TextChar.render) = body.map TextChar.value := by
  have hloop := unescapeLoop_render body [] [] (Nat.lt_succ_of_le (length_le_byteLen _)) List.not_mem_nil
  have hpush := pushUnescaped_eq [] (body.flatMap TextChar.render)
  rw [pushUnescaped] at hpush
  split at hpush
  · rw [List.nil_append] at hloop
    exact (Except.ok.inj (hloop.symm.trans hpush)).symm
  · next hnone =>
    rw [List.nil_append, unescapeLoop, splitOnce_singleton_eq_none hnone] at hloop
    exact (Except.ok.inj hpush).symm.trans (Except.ok.inj hloop)

section Names

variable {name rest : List Char}

theorem takeWhile_name (h : ∀ c ∈ name, endsName c = false) (hrest : ∀ c ∈ rest.head?, endsName c) :
    (name ++ rest).takeWhile (!endsName ·) = name := by
  rw [List.takeWhile_append_of_pos fun c hc => by rw [h c hc]; rfl]
  cases rest with
  | nil => simp
  | cons c rest =>
    have hc : endsName c := hrest c rfl
    simp [hc]

theorem tagName_open (hne : name ≠ []) (h : ∀ c ∈ name, endsName c = false)
    (hrest : ∀ c ∈ rest.head?, endsName c) : tagName (name ++ rest) = name := by
  obtain ⟨c, name, rfl⟩ := List.exists_cons_of_ne_nil hne
  have hslash : c ≠ '/' := by
    rintro rfl
    exact absurd (h '/' List.mem_cons_self) (by decide)
  rw [tagName, if_neg (by simpa using hslash), takeWhile_name h hrest]

theorem tagName_close (h : ∀ c ∈ name, endsName c = false) : tagName ('/' :: name) = '/' :: name := by
  have hall : (name ++ []).takeWhile (!endsName ·) = name := takeWhile_name h (by simp)
  rw [List.append_nil] at hall
  rw [tagName, if_pos List.head?_cons, List.tail_cons, hall]

end Names

theorem Dialect.name_plain (d : Dialect) (name : List Char)
    (h : name ∈ d.text :: d.para :: d.tabs ++ d.breaks) :
    name ≠ [] ∧ (∀ c ∈ name, endsName c = false) ∧ '>' ∉ name := by
  have hname := List.all_eq_true.mp d.plain name h
  simp only [Bool.and_eq_true, decide_eq_true_eq, List.all_eq_true] at hname
  refine ⟨hname.1, fun c hc => ?_, fun hgt => ?_⟩
  · simpa using (hname.2 c hc).1
  · exact (hname.2 '>' hgt).2 rfl

structure Dialect.ReadBy (d : Dialect) (act : List Char → TagAct) : Prop where
  text : act d.text = .openText
  closeText : act ('/' :: d.text) = .closeText
  tab : ∀ name ∈ d.tabs, act name = .push '\t'
  brk : ∀ name ∈ d.breaks, act name = .push '\n'
  paraEnd : act ('/' :: d.para) = .push '\n'
  skip : ∀ name, name ∉ d.own → act name = .skip

theorem docx_readBy : Dialect.docx.ReadBy docxTag where
  text := by decide
  closeText := by decide
  tab := by decide
  brk := by decide
  paraEnd := by decide
  skip := fun name h => by
    simp only [Dialect.own, Dialect.docx, List.cons_append, List.nil_append, List.mem_cons,
      List.not_mem_nil, or_false, not_or] at h
    obtain ⟨ht, hct, hp, htab, hbr, hcr⟩ := h
    have hct' : name ≠ "/w:t".toList := hct
    have hp' : name ≠ "/w:p".toList := hp
    simp only [docxTag, if_neg ht, if_neg hct', if_neg htab, hbr, hcr, hp', or_self, if_false]

theorem pptx_readBy : Dialect.pptx.ReadBy pptxTag where
  text := by decide
  closeText := by decide
  tab := by decide
  brk := by decide
  paraEnd := by decide
  skip := fun name h => by
    simp only [Dialect.own, Dialect.pptx, List.cons_append, List.nil_append, List.mem_cons,
      List.not_mem_nil, or_false, not_or] at h
    obtain ⟨ht, hct, hp, hbr⟩ := h
    have hct' : name ≠ "/a:t".toList := hct
    have hp' : name ≠ "/a:p".toList := hp
    simp only [pptxTag, if_neg ht, if_neg hct', hbr, hp', or_self, if_false]

section Scan

variable {d : Dialect} {act : List Char → TagAct} {message : String} {fuel : Nat} {inside : Bool}
  {text tag rest tail out : List Char}

def shown (inside : Bool) (text : List Char) : List Char := if inside then unescaped text else []

theorem push_shown (inside : Bool) (out text : List Char) :
    (if inside then pushUnescaped out text else .ok out) = .ok (out ++ shown inside text) := by
  unfold shown
  cases inside with
  | false => rw [if_neg Bool.false_ne_true, if_neg Bool.false_ne_true, List.append_nil]
  | true => rw [if_pos rfl, if_pos rfl, pushUnescaped_eq]

theorem shown_render (body : List TextChar) :
    shown true (body.flatMap TextChar.render) = body.map TextChar.value := by
  rw [shown, if_pos rfl, unescaped_render]

theorem scanTags_tail (h : '<' ∉ tail) : scanTags act message (fuel + 1) inside tail out = .ok out := by
  rw [scanTags, splitOnce_singleton_eq_none h]

theorem scanTags_tag (htext : '<' ∉ text) (htag : '>' ∉ tag) :
    scanTags act message (fuel + 1) inside (text ++ (inTag tag ++ rest)) out
      = scanTags act message fuel ((act (tagName tag)).inside inside) rest
        (out ++ (shown inside text ++ (act (tagName tag)).pushed)) := by
  have hrest : text ++ (inTag tag ++ rest) = text ++ '<' :: (tag ++ '>' :: rest) := by simp [inTag]
  rw [hrest, scanTags, splitOnce_singleton htext]
  simp only [push_shown, splitOnce_singleton htag, List.append_assoc]

def Elem.after : Elem d → Bool → Bool
  | .text _ _, _ => false
  | .emptyText _, _ => true
  | _, inside => inside

theorem not_mem_selfClosed {name : List Char} (hname : '>' ∉ name) (attrs : Attrs) :
    '>' ∉ name ++ (attrs.chars ++ ['/']) := by
  simp [hname, attrs.closed]

theorem selfClosed_head (attrs : Attrs) : ∀ c ∈ (attrs.chars ++ ['/']).head?, endsName c := by
  intro c hc
  cases hchars : attrs.chars with
  | nil =>
    rw [hchars] at hc
    obtain rfl : '/' = c := by simpa using hc
    rfl
  | cons b chars =>
    rw [hchars] at hc
    obtain rfl : b = c := by simpa using hc
    have := attrs.apart b (by simp [hchars])
    simp [endsName, this]

variable (act message inside out) in
theorem scanTags_single (htext : '<' ∉ text) (htag : '>' ∉ tag)
    (h : (text ++ (inTag tag ++ rest)).length < fuel) :
    ∃ fuel', rest.length < fuel' ∧ scanTags act message fuel inside (text ++ (inTag tag ++ rest)) out
      = scanTags act message fuel' ((act (tagName tag)).inside inside) rest
        (out ++ (shown inside text ++ (act (tagName tag)).pushed)) := by
  obtain ⟨fuel, rfl⟩ := Nat.exists_eq_add_one_of_ne_zero (Nat.ne_zero_of_lt h)
  refine ⟨fuel, ?_, scanTags_tag htext htag⟩
  simp only [inTag, List.length_append, List.length_cons] at h
  omega

theorem not_mem_renderChar (c : TextChar) : '<' ∉ c.render := by
  cases c with
  | raw c plain => simpa [TextChar.render] using plain.1.symm
  | entity e => cases e <;> decide

variable (act message inside out) in
theorem scanTags_elem (hact : d.ReadBy act) (t : Token d)
    (h : (t.lead ++ (t.elem.render ++ rest)).length < fuel) :
    ∃ fuel', rest.length < fuel' ∧ scanTags act message fuel inside (t.lead ++ (t.elem.render ++ rest)) out
      = scanTags act message fuel' (t.elem.after inside) rest (out ++ (shown inside t.lead ++ t.elem.seen)) := by
  obtain ⟨lead, plain, elem⟩ := t
  obtain ⟨htne, htname, htgt⟩ := d.name_plain d.text (by simp)
  obtain ⟨hpne, hpname, hpgt⟩ := d.name_plain d.para (by simp)
  cases elem with
  | text attrs body =>
    have hname := tagName_open htne htname fun c hc => by
      rw [endsName, attrs.apart c hc, Bool.true_or]
    have hbody : '<' ∉ body.flatMap TextChar.render := by
      intro hmem
      obtain ⟨c, -, hc⟩ := List.mem_flatMap.mp hmem
      exact not_mem_renderChar c hc
    have hsplit : lead ++ ((Elem.text (d := d) attrs body).render ++ rest) = lead ++ (inTag (d.text ++ attrs.chars)
        ++ (body.flatMap TextChar.render ++ (inTag ('/' :: d.text) ++ rest))) := by
      simp [Elem.render]
    rw [hsplit] at h ⊢
    obtain ⟨fuel₁, hfuel₁, hopen⟩ := scanTags_single act message inside out plain
      (by simp [htgt, attrs.closed]) h
    obtain ⟨fuel₂, hfuel₂, hclose⟩ := scanTags_single act message true (out ++ shown inside lead) hbody
      (by simp [htgt]) hfuel₁
    refine ⟨fuel₂, hfuel₂, ?_⟩
    rw [hname, hact.text] at hopen
    rw [tagName_close htname, hact.closeText, shown_render] at hclose
    rw [hopen]
    simpa [TagAct.inside, TagAct.pushed, Elem.after, Elem.seen] using hclose
  | emptyText attrs =>
    have hstep := scanTags_single act message inside out plain (not_mem_selfClosed htgt attrs) h
    rwa [tagName_open htne htname (selfClosed_head attrs), hact.text] at hstep
  | tab name hmem attrs =>
    obtain ⟨hne, hplain, hgt⟩ := d.name_plain name (by simp [hmem])
    have hstep := scanTags_single act message inside out plain (not_mem_selfClosed hgt attrs) h
    rwa [tagName_open hne hplain (selfClosed_head attrs), hact.tab name hmem] at hstep
  | brk name hmem attrs =>
    obtain ⟨hne, hplain, hgt⟩ := d.name_plain name (by simp [hmem])
    have hstep := scanTags_single act message inside out plain (not_mem_selfClosed hgt attrs) h
    rwa [tagName_open hne hplain (selfClosed_head attrs), hact.brk name hmem] at hstep
  | paraEnd =>
    have hgt : '>' ∉ '/' :: d.para := by simp [hpgt]
    have hstep := scanTags_single act message inside out plain hgt h
    rwa [tagName_close hpname, hact.paraEnd] at hstep
  | other tag closed foreign =>
    have hstep := scanTags_single act message inside out plain closed h
    rwa [hact.skip _ foreign] at hstep

def observed : Bool → List (Token d) → List Char
  | _, [] => []
  | inside, t :: ts => shown inside t.lead ++ t.elem.seen ++ observed (t.elem.after inside) ts

theorem scanTags_tokens (hact : d.ReadBy act) (ts : List (Token d)) (htail : '<' ∉ tail)
    (h : (Document.renderTokens ts ++ tail).length < fuel) :
    scanTags act message fuel inside (Document.renderTokens ts ++ tail) out
      = .ok (out ++ observed inside ts) := by
  induction ts generalizing fuel inside out with
  | nil =>
    obtain ⟨fuel, rfl⟩ := Nat.exists_eq_add_one_of_ne_zero (Nat.ne_zero_of_lt h)
    simpa [Document.renderTokens, observed] using scanTags_tail htail
  | cons t ts ih =>
    have hsplit : Document.renderTokens (t :: ts) ++ tail
        = t.lead ++ (t.elem.render ++ (Document.renderTokens ts ++ tail)) := by
      simp [Document.renderTokens]
    rw [hsplit] at h ⊢
    obtain ⟨fuel', hfuel', hstep⟩ := scanTags_elem act message inside out hact t h
    rw [hstep, ih hfuel', observed]
    simp only [List.append_assoc]

def Flows : Bool → List (Token d) → Prop
  | _, [] => True
  | inside, t :: ts => (inside → t.lead = []) ∧ Flows (t.elem.after inside) ts

theorem shown_eq_nil {lead : List Char} : shown inside lead = [] ↔ (inside → lead = []) := by
  unfold shown
  cases inside with
  | false => simp
  | true => simp [unescaped_eq_nil]

theorem length_seen_le (inside : Bool) (ts : List (Token d)) :
    (ts.flatMap fun t => t.elem.seen).length ≤ (observed inside ts).length := by
  induction ts generalizing inside with
  | nil => exact Nat.le_refl _
  | cons t ts ih =>
    have hrest := ih (t.elem.after inside)
    simp only [List.flatMap_cons, observed, List.length_append] at hrest ⊢
    omega

theorem observed_eq_iff (inside : Bool) (ts : List (Token d)) :
    observed inside ts = ts.flatMap (fun t => t.elem.seen) ↔ Flows inside ts := by
  induction ts generalizing inside with
  | nil => exact iff_of_true rfl trivial
  | cons t ts ih =>
    have hle := length_seen_le (t.elem.after inside) ts
    rw [observed, List.flatMap_cons, Flows, ← ih, ← shown_eq_nil]
    constructor
    · intro h
      have hlength := congrArg List.length h
      simp only [List.length_append] at hlength
      have hnil : shown inside t.lead = [] := List.eq_nil_of_length_eq_zero (by omega)
      rw [hnil, List.nil_append] at h
      exact ⟨hnil, List.append_cancel_left h⟩
    · rintro ⟨hnil, hrest⟩
      rw [hnil, hrest, List.nil_append]

theorem tagsOnly_cons {t : Token d} {ts : List (Token d)} : Document.TagsOnly (t :: ts) ↔
    t.lead = [] ∧ (t.elem.isText = false → Document.TagsOnly ts) := by
  constructor
  · intro h
    refine ⟨h [] t ts rfl (by simp), fun htext mid t' after heq hmid => ?_⟩
    refine h (t :: mid) t' after (by rw [heq, List.cons_append]) fun x hx => ?_
    rcases List.mem_cons.mp hx with rfl | hx
    · exact htext
    · exact hmid x hx
  · rintro ⟨hlead, hrest⟩ mid t' after heq hmid
    cases mid with
    | nil =>
      obtain ⟨rfl, -⟩ := List.cons.inj heq
      exact hlead
    | cons x mid =>
      obtain ⟨rfl, htail⟩ := List.cons.inj heq
      exact hrest (hmid t List.mem_cons_self) mid t' after htail fun y hy => hmid y (List.mem_cons_of_mem _ hy)

theorem tight_cons {t : Token d} {ts : List (Token d)} : Document.Tight (t :: ts) ↔
    (t.elem.isEmptyText → Document.TagsOnly ts) ∧ Document.Tight ts := by
  constructor
  · intro h
    exact ⟨h [] t ts rfl, fun before empty after heq => h (t :: before) empty after (by rw [heq, List.cons_append])⟩
  · rintro ⟨hempty, hrest⟩ before empty after heq
    cases before with
    | nil =>
      obtain ⟨rfl, rfl⟩ := List.cons.inj heq
      exact hempty
    | cons x before =>
      obtain ⟨rfl, htail⟩ := List.cons.inj heq
      exact hrest before empty after htail

theorem flows_iff (inside : Bool) (ts : List (Token d)) :
    Flows inside ts ↔ (inside → Document.TagsOnly ts) ∧ Document.Tight ts := by
  induction ts generalizing inside with
  | nil =>
    refine iff_of_true trivial ⟨fun _ mid t after heq => ?_, fun before empty after heq => ?_⟩
    · cases mid <;> cases heq
    · cases before <;> cases heq
  | cons t ts ih =>
    rw [Flows, ih, tagsOnly_cons, tight_cons]
    cases t.elem <;> simp [Elem.after, Elem.isText, Elem.isEmptyText] <;> tauto

variable (act message inside) in
theorem scanTags_ok (h : rest.length < fuel) :
    ∃ text, ∀ out, scanTags act message fuel inside rest out = .ok (out ++ text) := by
  induction fuel generalizing inside rest with
  | zero => exact absurd h (Nat.not_lt_zero _)
  | succ fuel ih =>
    cases hlt : splitOnce ['<'] rest with
    | none => exact ⟨[], fun out => by rw [scanTags, hlt, List.append_nil]⟩
    | some parts =>
      cases hgt : splitOnce ['>'] parts.2 with
      | none =>
        refine ⟨shown inside parts.1, fun out => ?_⟩
        rw [scanTags, hlt]
        simp only [push_shown, hgt]
      | some parts' =>
        have hrest : rest = parts.1 ++ ['<'] ++ parts.2 := splitOnce_eq_append hlt
        have hafter : parts.2 = parts'.1 ++ ['>'] ++ parts'.2 := splitOnce_eq_append hgt
        have hlength : parts'.2.length < fuel := by
          rw [hrest, hafter] at h
          simp only [List.length_append, List.length_singleton] at h
          omega
        obtain ⟨text, htext⟩ := ih ((act (tagName parts'.1)).inside inside) hlength
        refine ⟨shown inside parts.1 ++ ((act (tagName parts'.1)).pushed ++ text), fun out => ?_⟩
        rw [scanTags, hlt]
        simp only [push_shown, hgt, htext, List.append_assoc]

variable (message) in
theorem scanTags_document (hact : d.ReadBy act) (doc : Document d) (out : List Char) :
    scanTags act message (byteLen doc.render + 1) false doc.render out = .ok (out ++ doc.text) ↔
      Document.Tight doc.tokens := by
  have hfuel : doc.render.length < byteLen doc.render + 1 := Nat.lt_succ_of_le (length_le_byteLen _)
  have hscan : scanTags act message (byteLen doc.render + 1) false doc.render out
      = .ok (out ++ observed false doc.tokens) := scanTags_tokens hact doc.tokens doc.plain hfuel
  have hflows := flows_iff false doc.tokens
  simp only [Bool.false_eq_true, false_imp_iff, true_and] at hflows
  rw [hscan, ← hflows, ← observed_eq_iff, Document.text, Except.ok.injEq, List.append_cancel_left_eq]

end Scan

/-- The scan is exact on the documents that show nothing behind a text element that closes itself,
and its steps are enough on any string. -/
theorem ooxml_text_iff (doc : Document .docx) (slide : Document .pptx) (xml out : List Char) :
    (docxXmlToText doc.render = .ok doc.text ↔ Document.Tight doc.tokens) ∧
    (pptxXmlToText slide.render out = .ok (out ++ slide.text) ↔ Document.Tight slide.tokens) ∧
    (∃ text, docxXmlToText xml = .ok text) ∧ ∃ text, pptxXmlToText xml out = .ok text := by
  have hfuel : xml.length < byteLen xml + 1 := Nat.lt_succ_of_le (length_le_byteLen xml)
  obtain ⟨text, htext⟩ := scanTags_ok docxTag "docx scan is bounded by input length" false hfuel
  obtain ⟨text', htext'⟩ := scanTags_ok pptxTag "pptx scan is bounded by input length" false hfuel
  refine ⟨?_, scanTags_document _ pptx_readBy slide out, ⟨_, htext []⟩, _, htext' out⟩
  have hdoc := scanTags_document "docx scan is bounded by input length" docx_readBy doc []
  rwa [List.nil_append] at hdoc

def noAttrs : Attrs := ⟨[], List.not_mem_nil, by simp, by simp⟩

def emptyRun : Document .docx where
  tokens := [⟨[], List.not_mem_nil, .emptyText noAttrs⟩, ⟨['\n', ' '], by decide, .paraEnd⟩]
  tail := []
  plain := List.not_mem_nil

theorem emptyRun_leaks : docxXmlToText emptyRun.render ≠ .ok emptyRun.text := by
  have hscan : docxXmlToText emptyRun.render = .ok ['\n', ' ', '\n'] := rfl
  rw [hscan]
  decide

end Patom.Provider
