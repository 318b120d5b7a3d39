import Mathlib.Data.List.Basic
import Mathlib.Tactic

/-! A scanner that reads a text from the left and takes out what it finds. -/

universe u v w

namespace Patom.Foundation

variable {α : Type u} {ι : Type v} {κ : Type w}

inductive Segment (α : Type u) (ι : Type v)
  | lit (a : α)
  | named (i : ι)
  deriving DecidableEq

/-- Whether something is found may depend on what was read just before. -/
structure Scanner (α : Type u) (ι : Type v) where
  text : ι → List α
  find : Bool → List α → Option ι
  lit : α → Bool
  named : ι → Bool
  found : ∀ {edge rest i}, find edge rest = some i → text i ≠ [] ∧ text i <+: rest

namespace Scanner

variable (S : Scanner α ι)

/-- The elements of a find that are still to come are skipped. -/
def scanFrom : Nat → Bool → List α → List (Segment α ι)
  | _, _, [] => []
  | skip + 1, edge, _ :: rest => scanFrom skip edge rest
  | 0, edge, a :: rest =>
    match S.find edge (a :: rest) with
    | some i => .named i :: scanFrom ((S.text i).length - 1) (S.named i) rest
    | none => .lit a :: scanFrom 0 (S.lit a) rest

def scan (edge : Bool) (text : List α) : List (Segment α ι) := S.scanFrom 0 edge text

def raw : Segment α ι → List α
  | .lit a => [a]
  | .named i => S.text i

def behind : Bool → Segment α ι → Bool
  | _, .lit a => S.lit a
  | _, .named i => S.named i

theorem scanFrom_drop (skip : Nat) (edge : Bool) (text : List α) :
    S.scanFrom skip edge text = S.scan edge (text.drop skip) := by
  induction skip generalizing text with
  | zero => rfl
  | succ skip ih =>
    cases text with
    | nil => rfl
    | cons a text => exact ih text

@[simp] theorem scan_nil (edge : Bool) : S.scan edge [] = [] := rfl

theorem scan_none {edge : Bool} {a : α} {rest : List α} (h : S.find edge (a :: rest) = none) :
    S.scan edge (a :: rest) = .lit a :: S.scan (S.lit a) rest := by
  rw [scan, scanFrom, h]
  rfl

theorem scan_some {edge : Bool} {text rest : List α} {i : ι} (h : S.find edge text = some i)
    (htext : text = S.text i ++ rest) :
    S.scan edge text = .named i :: S.scan (S.named i) rest := by
  obtain ⟨a, name, hname⟩ := List.exists_cons_of_ne_nil (S.found h).1
  rw [hname] at htext
  subst htext
  rw [scan, List.cons_append, scanFrom, ← List.cons_append, h]
  simp [scanFrom_drop, hname]

def Reads (edge : Bool) (text : List α) : Segment α ι → Prop
  | .lit _ => S.find edge text = none
  | .named i => S.find edge text = some i

theorem scan_cons {edge : Bool} {text : List α} {seg : Segment α ι} {segs : List (Segment α ι)}
    (h : S.scan edge text = seg :: segs) :
    ∃ rest, text = S.raw seg ++ rest ∧ segs = S.scan (S.behind edge seg) rest ∧
      S.Reads edge text seg := by
  cases text with
  | nil => cases h
  | cons a rest =>
    cases hfind : S.find edge (a :: rest) with
    | none =>
      rw [S.scan_none hfind] at h
      obtain ⟨rfl, rfl⟩ := List.cons.inj h
      exact ⟨rest, rfl, rfl, hfind⟩
    | some i =>
      obtain ⟨rest', hrest⟩ := (S.found hfind).2
      rw [S.scan_some hfind hrest.symm] at h
      obtain ⟨rfl, rfl⟩ := List.cons.inj h
      exact ⟨rest', hrest.symm, rfl, hfind⟩

theorem eq_nil_of_scan {edge : Bool} {text : List α} (h : S.scan edge text = []) :
    text = [] := by
  cases text with
  | nil => rfl
  | cons a rest =>
    cases hfind : S.find edge (a :: rest) with
    | none =>
      rw [S.scan_none hfind] at h
      cases h
    | some i =>
      obtain ⟨rest', hrest⟩ := (S.found hfind).2
      rw [S.scan_some hfind hrest.symm] at h
      cases h

theorem raw_scan (edge : Bool) (text : List α) :
    (S.scan edge text).flatMap S.raw = text := by
  generalize hsegs : S.scan edge text = segs
  induction segs generalizing edge text with
  | nil => exact (S.eq_nil_of_scan hsegs).symm
  | cons seg segs ih =>
    obtain ⟨rest, rfl, hrest, -⟩ := S.scan_cons hsegs
    rw [List.flatMap_cons, ih _ _ hrest.symm]

theorem scan_append {edge : Bool} {text : List α} {before after : List (Segment α ι)}
    (h : S.scan edge text = before ++ after) :
    after = S.scan (before.foldl S.behind edge) (after.flatMap S.raw) := by
  induction before generalizing edge text with
  | nil =>
    have hafter : S.scan edge text = after := h
    rw [List.foldl_nil, ← hafter, S.raw_scan]
  | cons seg before ih =>
    obtain ⟨rest, -, hrest, -⟩ := S.scan_cons h
    exact ih hrest.symm

theorem foldl_behind (edge : Bool) (segs : List (Segment α ι)) :
    segs.foldl S.behind edge = (segs.getLast?.map (S.behind edge)).getD edge := by
  induction segs using List.reverseRecOn with
  | nil => rfl
  | append_singleton segs seg =>
    rw [List.foldl_append, List.getLast?_append]
    cases seg <;> rfl

theorem scan_of_find_none (h : ∀ edge text, S.find edge text = none) (edge : Bool)
    (text : List α) : S.scan edge text = text.map .lit := by
  induction text generalizing edge with
  | nil => rfl
  | cons a text ih => rw [S.scan_none (h edge _), ih, List.map_cons]

section Loop

universe x

variable {σ : Type x} (act : σ → Segment α ι → σ)

theorem loop_eq_foldl (loop : Nat → Bool → List α → σ → σ)
    (hnil : ∀ skip edge s, loop skip edge [] s = s)
    (hskip : ∀ skip edge a rest s, loop (skip + 1) edge (a :: rest) s = loop skip edge rest s)
    (hnamed : ∀ edge a rest i s, S.find edge (a :: rest) = some i → loop 0 edge (a :: rest) s
      = loop ((S.text i).length - 1) (S.named i) rest (act s (.named i)))
    (hlit : ∀ edge a rest s, S.find edge (a :: rest) = none → loop 0 edge (a :: rest) s
      = loop 0 (S.lit a) rest (act s (.lit a)))
    (skip : Nat) (edge : Bool) (text : List α) (s : σ) :
    loop skip edge text s = (S.scanFrom skip edge text).foldl act s := by
  induction text generalizing skip edge s with
  | nil =>
    rw [hnil]
    cases skip <;> rfl
  | cons a rest ih =>
    cases skip with
    | succ skip =>
      rw [hskip]
      exact ih skip edge s
    | zero =>
      rw [scanFrom]
      cases hfind : S.find edge (a :: rest) with
      | none =>
        rw [hlit edge a rest s hfind]
        exact ih 0 _ _
      | some i =>
        rw [hnamed edge a rest i s hfind]
        exact ih _ _ _

end Loop

def spans : Nat → List (Segment α ι) → List (Nat × Nat)
  | _, [] => []
  | offset, .lit _ :: segs => spans (offset + 1) segs
  | offset, .named i :: segs =>
    (offset, offset + (S.text i).length) :: spans (offset + (S.text i).length) segs

theorem le_of_mem_spans {offset : Nat} {segs : List (Segment α ι)} {span : Nat × Nat}
    (h : span ∈ S.spans offset segs) : offset ≤ span.1 := by
  induction segs generalizing offset with
  | nil => cases h
  | cons seg segs ih =>
    cases seg with
    | lit a => exact (Nat.le_succ offset).trans (ih h)
    | named i =>
      obtain rfl | h := List.mem_cons.mp h
      · exact le_rfl
      · exact (Nat.le_add_right offset _).trans (ih h)

theorem spans_lit (offset : Nat) (text : List α) : S.spans offset (text.map .lit) = [] := by
  induction text generalizing offset with
  | nil => rfl
  | cons a text ih => exact ih (offset + 1)

variable (T : Scanner α κ)

/-- Whether two scanners find spans of one length wherever they get to together. -/
def agree : Nat → Bool → Bool → List α → Bool
  | _, _, _, [] => true
  | skip + 1, edge, edge', _ :: rest => agree skip edge edge' rest
  | 0, edge, edge', a :: rest =>
    match S.find edge (a :: rest), T.find edge' (a :: rest) with
    | none, none => agree 0 (S.lit a) (T.lit a) rest
    | some i, some j =>
      decide ((S.text i).length = (T.text j).length) &&
        agree ((S.text i).length - 1) (S.named i) (T.named j) rest
    | _, _ => false

theorem spans_ne {offset len : Nat} {spans spans' : List (Nat × Nat)}
    (h : ∀ span ∈ spans', offset + 1 ≤ span.1) : (offset, len) :: spans ≠ spans' := by
  rintro rfl
  exact absurd (h _ List.mem_cons_self) (Nat.not_succ_le_self offset)

theorem spans_eq_iff_agree (skip offset : Nat) (edge edge' : Bool) (text : List α) :
    S.spans offset (S.scanFrom skip edge text) = T.spans offset (T.scanFrom skip edge' text) ↔
      agree S T skip edge edge' text := by
  induction text generalizing skip offset edge edge' with
  | nil => cases skip <;> simp [scanFrom, spans, agree]
  | cons a rest ih =>
    cases skip with
    | succ skip => exact ih skip offset edge edge'
    | zero =>
      rw [scanFrom, scanFrom, agree]
      cases hi : S.find edge (a :: rest) with
      | none =>
        cases hj : T.find edge' (a :: rest) with
        | none => exact ih 0 (offset + 1) _ _
        | some j =>
          refine iff_of_false (fun h => ?_) Bool.false_ne_true
          exact spans_ne (fun span hspan => S.le_of_mem_spans hspan) h.symm
      | some i =>
        cases hj : T.find edge' (a :: rest) with
        | none =>
          refine iff_of_false (fun h => ?_) Bool.false_ne_true
          exact spans_ne (fun span hspan => T.le_of_mem_spans hspan) h
        | some j =>
          simp only [spans, List.cons.injEq, Prod.mk.injEq, true_and, Nat.add_left_cancel_iff,
            Bool.and_eq_true, decide_eq_true_eq]
          refine and_congr_right fun hlen => ?_
          rw [← hlen]
          exact ih _ _ _ _

theorem agree_drop (skip : Nat) (edge edge' : Bool) (text : List α) :
    agree S T skip edge edge' text = agree S T 0 edge edge' (text.drop skip) := by
  induction skip generalizing text with
  | zero => rfl
  | succ skip ih =>
    cases text with
    | nil => rfl
    | cons a text => exact ih text

def SameAt (edge edge' : Bool) (text : List α) : Prop :=
  (S.find edge text).map (fun i => (S.text i).length)
    = (T.find edge' text).map fun j => (T.text j).length

section Local

variable (opens opens' : List α → Bool)

structure Local (opens : List α → Bool) : Prop where
  lit : ∀ before a, opens (before ++ [a]) = S.lit a
  named : ∀ {edge text i}, S.find edge text = some i → ∀ before, opens (before ++ S.text i) = S.named i

def SameEverywhere (before rest : List α) : Prop :=
  ∀ mid after, rest = mid ++ after → after ≠ [] →
    S.SameAt T (opens (before ++ mid)) (opens' (before ++ mid)) after

variable {S T opens opens'}

theorem sameEverywhere_cons {before rest : List α} {a : α} :
    S.SameEverywhere T opens opens' before (a :: rest) ↔
      S.SameAt T (opens before) (opens' before) (a :: rest) ∧
        S.SameEverywhere T opens opens' (before ++ [a]) rest := by
  constructor
  · intro h
    refine ⟨?_, fun mid after heq hne => ?_⟩
    · have hhere := h [] (a :: rest) rfl (List.cons_ne_nil a rest)
      rwa [List.append_nil] at hhere
    · have hthere := h (a :: mid) after (congrArg (a :: ·) heq) hne
      rwa [List.append_assoc]
  · rintro ⟨hhere, hthere⟩ mid after heq hne
    cases mid with
    | nil =>
      obtain rfl : a :: rest = after := heq
      rwa [List.append_nil]
    | cons b mid =>
      obtain ⟨rfl, hrest⟩ := List.cons.inj heq
      have hsame := hthere mid after hrest hne
      rwa [List.append_assoc] at hsame

theorem sameEverywhere_append {before name rest : List α}
    (hwithin : ∀ mid tail, name = mid ++ tail → tail ≠ [] →
      ∀ e e', S.SameAt T e e' (tail ++ rest)) :
    S.SameEverywhere T opens opens' before (name ++ rest) ↔
      S.SameEverywhere T opens opens' (before ++ name) rest := by
  induction name generalizing before with
  | nil => rw [List.nil_append, List.append_nil]
  | cons a name ih =>
    have hrest : S.SameEverywhere T opens opens' (before ++ [a]) (name ++ rest) ↔
        S.SameEverywhere T opens opens' (before ++ [a] ++ name) rest :=
      ih fun mid tail heq => hwithin (a :: mid) tail (congrArg (a :: ·) heq)
    rw [List.append_assoc] at hrest
    rw [List.cons_append, sameEverywhere_cons, hrest]
    exact and_iff_right (hwithin [] (a :: name) rfl (List.cons_ne_nil a name) _ _)

/-- Where neither finds anything within what the first finds, two local scanners agree if they find
the same everywhere. -/
theorem agree_iff_sameEverywhere (hS : S.Local opens) (hT : T.Local opens')
    (hwithin : ∀ {edge text i}, S.find edge text = some i → ∀ a mid tail, S.text i = a :: mid ++ tail →
      tail ≠ [] → ∀ e after, S.find e (tail ++ after) = none ∧ T.find e (tail ++ after) = none)
    (before rest : List α) : agree S T 0 (opens before) (opens' before) rest ↔
      S.SameEverywhere T opens opens' before rest := by
  generalize hlen : rest.length = n
  induction n using Nat.strong_induction_on generalizing before rest with
  | _ n ih =>
    cases rest with
    | nil =>
      exact iff_of_true rfl fun mid after h hne => absurd (List.append_eq_nil_iff.mp h.symm).2 hne
    | cons a rest =>
      rw [sameEverywhere_cons, agree, SameAt]
      cases hi : S.find (opens before) (a :: rest) with
      | none =>
        cases hj : T.find (opens' before) (a :: rest) with
        | some j => simp
        | none =>
          have hstep := ih rest.length (hlen ▸ Nat.lt_succ_self _) (before ++ [a]) rest rfl
          rw [hS.lit, hT.lit] at hstep
          simpa using hstep
      | some i =>
        cases hj : T.find (opens' before) (a :: rest) with
        | none => simp
        | some j =>
          obtain ⟨hne, after, hafter⟩ := S.found hi
          obtain ⟨-, after', hafter'⟩ := T.found hj
          simp only [Bool.and_eq_true, decide_eq_true_eq, Option.map_some, Option.some.injEq]
          refine and_congr_right fun hsize => ?_
          obtain ⟨htext, rfl⟩ := List.append_inj (hafter.trans hafter'.symm) hsize
          obtain ⟨b, name, hname⟩ := List.exists_cons_of_ne_nil hne
          obtain ⟨rfl, rfl⟩ : b = a ∧ name ++ after = rest := by simpa [hname] using hafter
          have hless : after.length < n := by
            rw [← hlen, List.length_cons, List.length_append]
            omega
          have hstep := ih after.length hless (before ++ S.text i) after rfl
          rw [hS.named hi, htext, hT.named hj, ← htext, hname] at hstep
          rw [agree_drop, hname, List.length_cons, Nat.add_sub_cancel, List.drop_left, hstep,
            List.append_cons before b name]
          refine (sameEverywhere_append fun mid tail heq htail e e' => ?_).symm
          have hnone (e : Bool) := hwithin hi b mid tail (by rw [hname, heq]; rfl) htail e after
          rw [SameAt, (hnone e).1, (hnone e').2]
          rfl

end Local

theorem spans_map {f : ι → κ} (hfind : ∀ edge text, T.find edge text = (S.find edge text).map f)
    (htext : ∀ i, T.text (f i) = S.text i) (hlit : T.lit = S.lit)
    (hnamed : ∀ i, T.named (f i) = S.named i) (skip offset : Nat) (edge : Bool) (text : List α) :
    T.spans offset (T.scanFrom skip edge text) = S.spans offset (S.scanFrom skip edge text) := by
  induction text generalizing skip offset edge with
  | nil => cases skip <;> rfl
  | cons a rest ih =>
    cases skip with
    | succ skip => exact ih skip offset edge
    | zero =>
      rw [scanFrom, scanFrom, hfind]
      cases hi : S.find edge (a :: rest) with
      | none =>
        simp only [Option.map_none, spans, hlit]
        exact ih _ _ _
      | some i =>
        simp only [Option.map_some, spans, htext, hnamed]
        rw [ih]

end Scanner

end Patom.Foundation
