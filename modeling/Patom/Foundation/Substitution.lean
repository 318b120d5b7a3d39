import Mathlib.Data.List.Infix
import Mathlib.Data.List.MinMax
import Mathlib.Tactic

/-! Keys that stand for tokens in a text, replaced at once or one after another. -/

universe u v

namespace Patom.Foundation

variable {α : Type u} {ι : Type v}

section Replace

variable [DecidableEq α] (pat new : List α)

def replaceFrom : Nat → List α → List α
  | _, [] => []
  | skip + 1, _ :: text => replaceFrom skip text
  | 0, a :: text =>
    if pat.isPrefixOf (a :: text) then new ++ replaceFrom (pat.length - 1) text
    else a :: replaceFrom 0 text

def replaceAll (text : List α) : List α :=
  if pat = [] then new ++ text.flatMap fun a => a :: new else replaceFrom pat new 0 text

theorem replaceFrom_drop (skip : Nat) (text : List α) :
    replaceFrom pat new skip text = replaceFrom pat new 0 (text.drop skip) := by
  induction skip generalizing text with
  | zero => rfl
  | succ skip ih =>
    cases text with
    | nil => rfl
    | cons a text => exact ih text

theorem replaceFrom_match (hne : pat ≠ []) (text : List α) :
    replaceFrom pat new 0 (pat ++ text) = new ++ replaceFrom pat new 0 text := by
  obtain ⟨a, rest, rfl⟩ := List.exists_cons_of_ne_nil hne
  have hleads : (a :: rest).isPrefixOf (a :: (rest ++ text)) = true :=
    List.isPrefixOf_iff_prefix.mpr (List.prefix_append (a :: rest) text)
  rw [List.cons_append, replaceFrom, if_pos hleads, replaceFrom_drop]
  simp

variable {pat new}

theorem replaceFrom_append {a b : List α}
    (h : ∀ s ∈ a.tails, s ≠ [] → ¬pat.isPrefixOf (s ++ b)) :
    replaceFrom pat new 0 (a ++ b) = a ++ replaceFrom pat new 0 b := by
  induction a with
  | nil => rfl
  | cons x a ih =>
    have hhere : ¬pat.isPrefixOf (x :: (a ++ b)) :=
      h (x :: a) ((List.mem_tails _ _).mpr List.suffix_rfl) (List.cons_ne_nil x a)
    have hrest := ih fun s hs => h s ((List.mem_tails _ _).mpr
      (((List.mem_tails _ _).mp hs).trans (List.suffix_cons x a)))
    rw [List.cons_append, replaceFrom, if_neg hhere, hrest, List.cons_append]

end Replace

inductive Piece (α : Type u) (ι : Type v)
  | lit (a : α)
  | hole (i : ι)

def flat (texts : ι → List α) : List (Piece α ι) → List α
  | [] => []
  | .lit a :: ps => a :: flat texts ps
  | .hole i :: ps => texts i ++ flat texts ps

def holes : List (Piece α ι) → List ι
  | [] => []
  | .lit _ :: ps => holes ps
  | .hole i :: ps => i :: holes ps

theorem flat_congr {texts texts' : ι → List α} {ps : List (Piece α ι)}
    (h : ∀ i ∈ holes ps, texts i = texts' i) : flat texts ps = flat texts' ps := by
  induction ps with
  | nil => rfl
  | cons p ps ih =>
    cases p with
    | lit a => exact congrArg (a :: ·) (ih h)
    | hole i =>
      have hi := h i List.mem_cons_self
      rw [flat, flat, hi, ih fun j hj => h j (List.mem_cons_of_mem i hj)]

section Pieces

variable [DecidableEq α] (key : ι → List α) (tokens : List ι)

def longestAt (text : List α) : Option ι :=
  (tokens.filter fun i => key i ≠ [] && (key i).isPrefixOf text).argmax fun i => (key i).length

def piecesFrom : Nat → List α → List (Piece α ι)
  | _, [] => []
  | skip + 1, _ :: text => piecesFrom skip text
  | 0, a :: text =>
    match longestAt key tokens (a :: text) with
    | some i => .hole i :: piecesFrom ((key i).length - 1) text
    | none => .lit a :: piecesFrom 0 text

def pieces (text : List α) : List (Piece α ι) := piecesFrom key tokens 0 text

def substitute (rep : ι → List α) (text : List α) : List α := flat rep (pieces key tokens text)

variable {key tokens}

theorem longestAt_spec {text : List α} {i : ι} (h : longestAt key tokens text = some i) :
    i ∈ tokens ∧ key i ≠ [] ∧ key i <+: text := by
  have hmem := List.argmax_mem h
  rw [List.mem_filter, Bool.and_eq_true, decide_eq_true_iff, List.isPrefixOf_iff_prefix] at hmem
  exact hmem

theorem flat_piecesFrom (skip : Nat) (text : List α) :
    flat key (piecesFrom key tokens skip text) = text.drop skip := by
  induction text generalizing skip with
  | nil => cases skip <;> rfl
  | cons a text ih =>
    cases skip with
    | succ skip => exact ih skip
    | zero =>
      rw [piecesFrom]
      cases hlongest : longestAt key tokens (a :: text) with
      | none => exact congrArg (a :: ·) (ih 0)
      | some i =>
        obtain ⟨-, hne, rest, hrest⟩ := longestAt_spec hlongest
        obtain ⟨b, k, hkey⟩ := List.exists_cons_of_ne_nil hne
        rw [hkey] at hrest
        obtain ⟨rfl, htext⟩ := List.cons.inj hrest
        have hdrop : text.drop k.length = rest := by
          rw [← htext]
          exact List.drop_left
        simp only [flat, ih, hkey, List.length_cons, Nat.add_sub_cancel, List.drop_zero, hdrop]
        exact hrest

theorem flat_pieces (text : List α) : flat key (pieces key tokens text) = text :=
  flat_piecesFrom 0 text

theorem mem_of_mem_holes {skip : Nat} {text : List α} {i : ι}
    (h : i ∈ holes (piecesFrom key tokens skip text)) : i ∈ tokens := by
  induction text generalizing skip with
  | nil => cases skip <;> cases h
  | cons a text ih =>
    cases skip with
    | succ skip => exact ih h
    | zero =>
      rw [piecesFrom] at h
      cases hlongest : longestAt key tokens (a :: text) with
      | none =>
        rw [hlongest] at h
        exact ih h
      | some j =>
        rw [hlongest] at h
        obtain rfl | h := List.mem_cons.mp h
        · exact (longestAt_spec hlongest).1
        · exact ih h

theorem substitute_of_absent {rep : ι → List α} {text : List α}
    (h : ∀ s, s <:+ text → longestAt key tokens s = none) :
    substitute key tokens rep text = text := by
  unfold substitute pieces
  induction text with
  | nil => rfl
  | cons a text ih =>
    rw [piecesFrom, h (a :: text) List.suffix_rfl]
    exact congrArg (a :: ·) (ih fun s hs => h s (hs.trans (List.suffix_cons a text)))

end Pieces

section Apart

variable [DecidableEq α] [DecidableEq ι]

def onlyAt (pat : List α) (i : ι) (texts : ι → List α) : List (Piece α ι) → Bool
  | [] => pat ≠ []
  | .lit a :: ps => !pat.isPrefixOf (a :: flat texts ps) && onlyAt pat i texts ps
  | .hole j :: ps =>
    (j = i || (texts j).tails.all fun s => s = [] || !pat.isPrefixOf (s ++ flat texts ps)) &&
      onlyAt pat i texts ps

theorem onlyAt_ne_nil {pat : List α} {i : ι} {texts : ι → List α} {ps : List (Piece α ι)}
    (h : onlyAt pat i texts ps) : pat ≠ [] := by
  induction ps with
  | nil => exact of_decide_eq_true h
  | cons p ps ih =>
    cases p <;> exact ih (Bool.and_eq_true_iff.mp h).2

theorem replaceAll_flat {i : ι} {texts : ι → List α} {new : List α} {ps : List (Piece α ι)}
    (h : onlyAt (texts i) i texts ps) :
    replaceAll (texts i) new (flat texts ps) = flat (Function.update texts i new) ps := by
  have hne := onlyAt_ne_nil h
  rw [replaceAll, if_neg hne]
  induction ps with
  | nil => rfl
  | cons p ps ih =>
    cases p with
    | lit a =>
      obtain ⟨hhere, hrest⟩ := Bool.and_eq_true_iff.mp h
      rw [flat, replaceFrom, if_neg (Bool.eq_false_iff.mp (Bool.not_eq_true' _ ▸ hhere)), ih hrest]
      rfl
    | hole j =>
      obtain ⟨hhere, hrest⟩ := Bool.and_eq_true_iff.mp h
      rw [flat, flat]
      obtain hj | hother := Bool.or_eq_true_iff.mp hhere
      · obtain rfl : j = i := of_decide_eq_true hj
        rw [replaceFrom_match _ _ hne, ih hrest, Function.update_self]
      · by_cases hj : j = i
        · subst hj
          rw [replaceFrom_match _ _ hne, ih hrest, Function.update_self]
        · rw [Function.update_of_ne hj, ← ih hrest]
          refine replaceFrom_append fun s hs hs' => ?_
          have hs'' := List.all_eq_true.mp hother s hs
          rw [decide_eq_false hs', Bool.false_or, Bool.not_eq_true'] at hs''
          exact Bool.eq_false_iff.mp hs''

variable (key rep : ι → List α)

def partly (done : List ι) (i : ι) : List α := if i ∈ done then rep i else key i

/-- Whether the key of every token of an order begins, when it is its turn, only at its own
places. -/
def apart (ps : List (Piece α ι)) : List ι → List ι → Bool
  | _, [] => true
  | done, i :: order =>
    onlyAt (key i) i (partly key rep done) ps && apart ps (i :: done) order

variable {key rep}

omit [DecidableEq α] in
theorem update_partly (done : List ι) (i : ι) :
    Function.update (partly key rep done) i (rep i) = partly key rep (i :: done) := by
  funext j
  by_cases hj : j = i
  · subst hj
    rw [Function.update_self, partly, if_pos List.mem_cons_self]
  · simp only [Function.update_of_ne hj, partly, List.mem_cons, hj, false_or]

theorem foldl_replaceAll_partly {order done : List ι} {ps : List (Piece α ι)}
    (h : apart key rep ps done order) (hnodup : order.Nodup) (hnew : ∀ i ∈ order, i ∉ done) :
    order.foldl (fun out i => replaceAll (key i) (rep i) out) (flat (partly key rep done) ps)
      = flat (partly key rep (order.reverse ++ done)) ps := by
  induction order generalizing done with
  | nil => rfl
  | cons i order ih =>
    obtain ⟨honly, hrest⟩ := Bool.and_eq_true_iff.mp h
    obtain ⟨hfresh, hnodup⟩ := List.nodup_cons.mp hnodup
    have hkey : partly key rep done i = key i := if_neg (hnew i List.mem_cons_self)
    have hstep : replaceAll (key i) (rep i) (flat (partly key rep done) ps)
        = flat (partly key rep (i :: done)) ps := by
      rw [← update_partly, ← replaceAll_flat (hkey ▸ honly), hkey]
    rw [List.foldl_cons, hstep, ih hrest hnodup, List.reverse_cons, List.append_assoc,
      List.singleton_append]
    intro j hj hmem
    obtain rfl | hmem := List.mem_cons.mp hmem
    · exact hfresh hj
    · exact hnew j (List.mem_cons_of_mem i hj) hmem

/-- Replacing token after token comes to replacing them at once. -/
theorem foldl_replaceAll {order : List ι} {ps : List (Piece α ι)} (h : apart key rep ps [] order)
    (hnodup : order.Nodup) :
    order.foldl (fun out i => replaceAll (key i) (rep i) out) (flat key ps)
      = flat (partly key rep order) ps := by
  have hstart : partly key rep [] = key := funext fun i => if_neg List.not_mem_nil
  have hend : partly key rep (order.reverse ++ []) = partly key rep order := by
    funext i
    simp only [partly, List.append_nil, List.mem_reverse]
  have hfold := foldl_replaceAll_partly h hnodup fun i _ => List.not_mem_nil
  rwa [hstart, hend] at hfold

end Apart

end Patom.Foundation
