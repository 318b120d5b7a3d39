import Patom.Text

namespace Patom.Discord

def cut (max : Nat) (rest : List Char) : Option (List Char × List Char) :=
  let hard := ((charIndices rest 0)[max]?.map (·.1)).getD (byteLen rest)
  (splitAtByte hard rest).bind fun (window, _) =>
    let split := ((rfind '\n' window).filter fun p => 0 < p).getD hard
    (splitAtByte split rest).map fun (head, tail) => (head, tail.dropWhile (· = '\n'))

/-- Out of turns, or sliced inside a character, there is no result. -/
def chunkLoop (max : Nat) : Nat → List Char → List (List Char) → Option (List (List Char))
  | 0, _, _ => none
  | turns + 1, rest, chunks =>
    if max < rest.length then
      (cut max rest).bind fun (head, tail) => chunkLoop max turns tail (chunks ++ [head])
    else some (if rest = [] then chunks else chunks ++ [rest])

def chunkContent (content : List Char) (max : Nat) : Option (List (List Char)) :=
  if max = 0 then none
  else if content = [] then some [[]]
  else chunkLoop max (content.length + 1) content []

def NewlineOnly (text : List Char) : Prop := ∀ c ∈ text, c = '\n'

variable {max : Nat} {content rest : List Char}

/-- The chunks of a content and the runs of newlines that were dropped after each of them. -/
structure Chunked (max : Nat) (content : List Char) (chunks gaps : List (List Char)) : Prop where
  bounded : ∀ c ∈ chunks, 1 ≤ c.length ∧ c.length ≤ max
  parallel : gaps.length = chunks.length
  gap : ∀ g ∈ gaps, NewlineOnly g
  joined : (List.zipWith (· ++ ·) chunks gaps).flatten = content
  later : ∀ c ∈ chunks.tail, c.head? ≠ some '\n'
  first : ∀ c ∈ chunks.head?, c.head? = content.head?
  newlines : ∀ c ∈ chunks.head?, NewlineOnly c → NewlineOnly content ∨
    (max = 1 ∧ content.head? = some '\n') ∨ ['\n', '\n'] <+: content

structure CutAt (max : Nat) (rest head gap tail : List Char) : Prop where
  eq : rest = head ++ gap ++ tail
  gap : NewlineOnly gap
  nonempty : head ≠ []
  bounded : head.length ≤ max
  start : tail.head? ≠ some '\n'
  newlines : NewlineOnly head →
    (max = 1 ∧ rest.head? = some '\n') ∨ ['\n', '\n'] <+: rest

theorem newlineOnly_takeWhile (text : List Char) : NewlineOnly (text.takeWhile (· = '\n')) :=
  fun c hc => of_decide_eq_true (List.all_eq_true.mp List.all_takeWhile c hc)

theorem head?_dropWhile_newline (text : List Char) :
    (text.dropWhile (· = '\n')).head? ≠ some '\n' := by
  intro h
  have hhead := List.head?_dropWhile_not (· = '\n') text
  rw [h] at hhead
  simp at hhead

theorem split_at {head tail : List Char} (hrest : rest = head ++ tail) :
    (splitAtByte (byteLen head) rest).map
      (fun (head, tail) => (head, tail.dropWhile (· = '\n')))
      = some (head, tail.dropWhile (· = '\n')) := by
  rw [hrest, splitAtByte_append]
  rfl

theorem CutAt.of_append {head tail : List Char} (hrest : rest = head ++ tail) (hne : head ≠ [])
    (hmax : head.length ≤ max) (hnewlines : NewlineOnly head →
      (max = 1 ∧ rest.head? = some '\n') ∨ ['\n', '\n'] <+: rest) :
    CutAt max rest head (tail.takeWhile (· = '\n')) (tail.dropWhile (· = '\n')) where
  eq := by rw [List.append_assoc, List.takeWhile_append_dropWhile, hrest]
  gap := newlineOnly_takeWhile tail
  nonempty := hne
  bounded := hmax
  start := head?_dropWhile_newline tail
  newlines := hnewlines

theorem hard_eq (hlong : max < rest.length) :
    ∃ window after, rest = window ++ after ∧ window.length = max ∧
      ((charIndices rest 0)[max]?.map (·.1)).getD (byteLen rest) = byteLen window := by
  refine ⟨rest.take max, rest.drop max, (List.take_append_drop max rest).symm,
    List.length_take_of_le hlong.le, ?_⟩
  have hsplit : rest = rest.take max ++ rest[max] :: rest.drop (max + 1) := by
    rw [List.cons_getElem_drop_succ, List.take_append_drop]
  have hindex := getElem?_charIndices (rest.take max) (rest.drop (max + 1)) rest[max] 0
  rw [← hsplit, List.length_take_of_le hlong.le] at hindex
  rw [hindex]
  exact Nat.zero_add _

theorem cut_spec (hmax : 0 < max) (hlong : max < rest.length) :
    ∃ head gap tail, cut max rest = some (head, tail) ∧ CutAt max rest head gap tail := by
  obtain ⟨window, after, hrest, hlen, hhard⟩ := hard_eq hlong
  have hne : window ≠ [] := List.ne_nil_of_length_pos (hlen ▸ hmax)
  have hwindow : splitAtByte (byteLen window) rest = some (window, after) :=
    hrest ▸ splitAtByte_append window after
  have hcut : cut max rest = (splitAtByte
      (((rfind '\n' window).filter fun p => 0 < p).getD (byteLen window)) rest).map
        fun (head, tail) => (head, tail.dropWhile (· = '\n')) := by
    rw [cut, hhard, hwindow]
    rfl
  rw [hcut]
  cases hfind : rfind '\n' window with
  | none =>
    refine ⟨_, _, _, split_at hrest, .of_append hrest hne hlen.le fun hnewlines => ?_⟩
    obtain ⟨c, hc⟩ := List.exists_mem_of_ne_nil window hne
    exact absurd (hnewlines c hc ▸ hc) (rfind_eq_none.mp hfind)
  | some p =>
    obtain ⟨before, line, hbefore, hlast, rfl⟩ := rfind_eq_some hfind
    cases before with
    | nil =>
      refine ⟨_, _, _, split_at hrest, .of_append hrest hne hlen.le fun hnewlines => .inl ?_⟩
      have hline : line = [] := List.eq_nil_iff_forall_not_mem.mpr fun c hc =>
        hlast (hnewlines c (hbefore ▸ List.mem_cons_of_mem _ hc) ▸ hc)
      rw [hline] at hbefore
      exact ⟨by rw [← hlen, hbefore]; rfl, by rw [hrest, hbefore]; rfl⟩
    | cons c before =>
      have hpos : 0 < byteLen (c :: before) := byteLen_pos (List.cons_ne_nil _ _)
      have hrest' : rest = (c :: before) ++ ('\n' :: line ++ after) := by
        rw [hrest, hbefore, List.append_assoc]
      have hle : (c :: before).length ≤ max := by
        rw [← hlen, hbefore, List.length_append]
        exact Nat.le_add_right _ _
      rw [Option.filter_some, if_pos (decide_eq_true hpos)]
      refine ⟨_, _, _, split_at hrest', .of_append hrest' (List.cons_ne_nil _ _) hle
        fun hnewlines => .inr ?_⟩
      obtain rfl := hnewlines c List.mem_cons_self
      rw [hrest']
      cases before with
      | nil => exact List.prefix_append ['\n', '\n'] (line ++ after)
      | cons d before =>
        obtain rfl := hnewlines d (List.mem_cons_of_mem _ List.mem_cons_self)
        exact List.prefix_append ['\n', '\n'] (before ++ ('\n' :: line ++ after))

theorem CutAt.length_lt {head gap tail : List Char} (h : CutAt max rest head gap tail) :
    tail.length < rest.length := by
  have hpos := List.length_pos_of_ne_nil h.nonempty
  rw [h.eq, List.length_append, List.length_append]
  omega

theorem Chunked.nil : Chunked max [] [] [] where
  bounded c hc := absurd hc List.not_mem_nil
  parallel := rfl
  gap c hc := absurd hc List.not_mem_nil
  joined := rfl
  later c hc := absurd hc List.not_mem_nil
  first c hc := by cases hc
  newlines c hc := by cases hc

theorem Chunked.single (hne : rest ≠ []) (hmax : rest.length ≤ max) :
    Chunked max rest [rest] [[]] where
  bounded c hc := by
    obtain rfl := List.mem_singleton.mp hc
    exact ⟨List.length_pos_of_ne_nil hne, hmax⟩
  parallel := rfl
  gap g hg := by
    obtain rfl := List.mem_singleton.mp hg
    exact fun c hc => absurd hc List.not_mem_nil
  joined := by simp
  later c hc := absurd hc List.not_mem_nil
  first c hc := by
    obtain rfl := Option.some.inj hc
    rfl
  newlines c hc hnewlines := by
    obtain rfl := Option.some.inj hc
    exact .inl hnewlines

theorem Chunked.cons {head gap tail : List Char} {chunks gaps : List (List Char)}
    (hcut : CutAt max rest head gap tail) (h : Chunked max tail chunks gaps) :
    Chunked max rest (head :: chunks) (gap :: gaps) where
  bounded := List.forall_mem_cons.mpr
    ⟨⟨List.length_pos_of_ne_nil hcut.nonempty, hcut.bounded⟩, h.bounded⟩
  parallel := congrArg (· + 1) h.parallel
  gap := List.forall_mem_cons.mpr ⟨hcut.gap, h.gap⟩
  joined := by rw [List.zipWith_cons_cons, List.flatten_cons, h.joined, ← hcut.eq]
  later c hc := by
    cases chunks with
    | nil => cases hc
    | cons d chunks =>
      obtain rfl | hc := List.mem_cons.mp hc
      · exact h.first c rfl ▸ hcut.start
      · exact h.later c hc
  first c hc := by
    obtain rfl := Option.some.inj hc
    obtain ⟨d, rest', rfl⟩ := List.exists_cons_of_ne_nil hcut.nonempty
    rw [hcut.eq]
    rfl
  newlines c hc hnewlines := by
    obtain rfl := Option.some.inj hc
    exact .inr (hcut.newlines hnewlines)

theorem chunkLoop_spec (hmax : 0 < max) {turns : Nat} (hturns : rest.length < turns)
    (acc : List (List Char)) : ∃ chunks gaps,
      chunkLoop max turns rest acc = some (acc ++ chunks) ∧ Chunked max rest chunks gaps := by
  induction turns generalizing rest acc with
  | zero => exact absurd hturns (Nat.not_lt_zero _)
  | succ turns ih =>
    by_cases hlong : max < rest.length
    · obtain ⟨head, gap, tail, hcut, h⟩ := cut_spec hmax hlong
      have hless := h.length_lt
      obtain ⟨chunks, gaps, hloop, hchunked⟩ := ih (show tail.length < turns by omega)
        (acc ++ [head])
      refine ⟨head :: chunks, gap :: gaps, ?_, .cons h hchunked⟩
      rw [chunkLoop, if_pos hlong, hcut, Option.bind_some]
      exact hloop.trans (by rw [List.append_assoc, List.singleton_append])
    · rw [chunkLoop, if_neg hlong]
      by_cases hne : rest = []
      · subst hne
        exact ⟨[], [], by rw [if_pos rfl, List.append_nil], .nil⟩
      · exact ⟨[rest], [[]], by rw [if_neg hne], .single hne (Nat.le_of_not_lt hlong)⟩

/-- No turn is left over, and no slice goes through a character. -/
theorem chunkContent_chunked {content : List Char} {max : Nat} (hne : content ≠ [])
    (hmax : 1 ≤ max) : ∃ chunks gaps,
      chunkContent content max = some chunks ∧ Chunked max content chunks gaps := by
  obtain ⟨chunks, gaps, hloop, h⟩ := chunkLoop_spec hmax (Nat.lt_succ_self content.length) []
  refine ⟨chunks, gaps, ?_, h⟩
  rw [chunkContent, if_neg (Nat.ne_of_gt hmax), if_neg hne, hloop, List.nil_append]

theorem chunkContent_chunked_lines : ∃ chunks gaps,
    chunkContent "a\n\nbé".toList 2 = some chunks ∧ Chunked 2 "a\n\nbé".toList chunks gaps :=
  chunkContent_chunked (by decide) (by decide)

/-- A first chunk of newlines, and newlines lost behind the last one. -/
theorem not_newlines_between :
    (¬ ∃ chunks, chunkContent "\n\nabc".toList 2 = some chunks ∧
      ∀ c ∈ chunks, NewlineOnly c → NewlineOnly "\n\nabc".toList) ∧
    ¬ ∃ chunks gaps, chunkContent "abc\n\n".toList 3 = some chunks ∧
      gaps.length + 1 = chunks.length ∧ (∀ g ∈ gaps, NewlineOnly g) ∧
      (List.zipWith (· ++ ·) chunks (gaps ++ [[]])).flatten = "abc\n\n".toList := by
  constructor
  · rintro ⟨chunks, hchunks, hnewlines⟩
    have hrun : chunkContent "\n\nabc".toList 2 = some [['\n'], ['a', 'b'], ['c']] := by
      decide +kernel
    obtain rfl := Option.some.inj (hrun.symm.trans hchunks)
    have hall := hnewlines ['\n'] List.mem_cons_self fun c hc => List.mem_singleton.mp hc
    exact absurd (hall 'a' (by decide)) (by decide)
  · rintro ⟨chunks, gaps, hchunks, hlen, -, hjoin⟩
    have hrun : chunkContent "abc\n\n".toList 3 = some [['a', 'b', 'c']] := by decide +kernel
    obtain rfl := Option.some.inj (hrun.symm.trans hchunks)
    obtain rfl := List.eq_nil_of_length_eq_zero (Nat.succ.inj hlen)
    exact absurd hjoin (by decide)

end Patom.Discord
