import Mathlib.Tactic

universe u

namespace Patom.Foundation

section Pairing

variable {ρ : Type u} (opens closes : ρ → Bool)

/-- A scan with one slot: behind an opening row it holds rows back until one closes. -/
def rejoin : Option (List ρ) → List ρ → List ρ
  | held, [] => held.getD []
  | none, x :: xs => x :: rejoin (if opens x then some [] else none) xs
  | some held, x :: xs =>
    if closes x then x :: held ++ rejoin none xs else rejoin (some (held ++ [x])) xs

inductive Scan : List ρ → Prop
  | nil : Scan []
  | skip {x xs} : opens x = false → Scan xs → Scan (x :: xs)
  | pair {u gap c rest} : opens u → (∀ g ∈ gap, closes g = false) → closes c → Scan rest →
      Scan (u :: (gap ++ c :: rest))
  | stuck {u tail} : opens u → (∀ g ∈ tail, closes g = false) → Scan (u :: tail)

def Idle (x : ρ) : Prop := opens x = false ∧ closes x = false

inductive Answers : List ρ → ρ → ρ → Prop
  | here {u gap c after} : opens u → (∀ g ∈ gap, Idle opens closes g) → closes c →
      Answers (u :: (gap ++ c :: after)) u c
  | there {x xs u c} : Answers xs u c → Answers (x :: xs) u c

inductive Open : List ρ → ρ → Prop
  | here {u tail} : opens u → (∀ g ∈ tail, Idle opens closes g) → Open (u :: tail) u
  | there {x xs u} : Open xs u → Open (x :: xs) u

inductive Orphan : List ρ → ρ → Prop
  | here {c after} : closes c → Orphan (c :: after) c
  | there {x xs c} : Idle opens closes x → Orphan xs c → Orphan (x :: xs) c

/-- Only a closing row at the head can have lost the row it answers. -/
def Braided (l : List ρ) : Prop :=
  ∀ c ∈ l, closes c → Orphan opens closes l c ∨ ∃ u, Answers opens closes l u c

/-- An opening row never answered, with a closing row behind it. -/
structure Stranded (l : List ρ) (u : ρ) : Prop where
  opening : opens u
  passed : ∃ c, [u, c].Sublist l ∧ closes c
  unanswered : ∀ c, ¬ Answers opens closes l u c

variable {opens closes}

theorem first_or_none (p : ρ → Bool) (l : List ρ) :
    (∀ g ∈ l, p g = false) ∨
      ∃ gap c rest, l = gap ++ c :: rest ∧ (∀ g ∈ gap, p g = false) ∧ p c := by
  induction l with
  | nil => exact .inl fun g hg => absurd hg List.not_mem_nil
  | cons x xs ih =>
    cases hx : p x with
    | true => exact .inr ⟨[], x, xs, rfl, fun g hg => absurd hg List.not_mem_nil, hx⟩
    | false =>
      rcases ih with hnone | ⟨gap, c, rest, rfl, hgap, hc⟩
      · exact .inl fun g hg => (List.mem_cons.mp hg).elim (fun e => e ▸ hx) (hnone g)
      · refine .inr ⟨x :: gap, c, rest, rfl, fun g hg => ?_, hc⟩
        exact (List.mem_cons.mp hg).elim (fun e => e ▸ hx) (hgap g)

variable (opens closes) in
theorem scan (l : List ρ) : Scan opens closes l := by
  induction hn : l.length using Nat.strongRecOn generalizing l with
  | ind n ih =>
    subst hn
    cases l with
    | nil => exact .nil
    | cons x xs =>
      cases hx : opens x with
      | false => exact .skip hx (ih xs.length (by simp) xs rfl)
      | true =>
        rcases first_or_none closes xs with hnone | ⟨gap, c, rest, rfl, hgap, hc⟩
        · exact .stuck hx hnone
        · exact .pair hx hgap hc (ih rest.length (by simp; omega) rest rfl)

theorem rejoin_held {held gap : List ρ} (h : ∀ g ∈ gap, closes g = false) (rest : List ρ) :
    rejoin opens closes (some held) (gap ++ rest) =
      rejoin opens closes (some (held ++ gap)) rest := by
  induction gap generalizing held with
  | nil => simp
  | cons g gap ih =>
    rw [List.forall_mem_cons] at h
    simp [rejoin, h.1, ih h.2]

@[simp] theorem rejoin_nil (held : Option (List ρ)) : rejoin opens closes held [] = held.getD [] := by
  cases held <;> rfl

theorem rejoin_skip {x : ρ} (h : opens x = false) (xs : List ρ) :
    rejoin opens closes none (x :: xs) = x :: rejoin opens closes none xs := by
  simp [rejoin, h]

theorem rejoin_pair {u c : ρ} {gap : List ρ} (hu : opens u) (hgap : ∀ g ∈ gap, closes g = false)
    (hc : closes c) (rest : List ρ) :
    rejoin opens closes none (u :: (gap ++ c :: rest)) =
      u :: c :: (gap ++ rejoin opens closes none rest) := by
  simp [rejoin, hu, rejoin_held hgap, hc]

theorem rejoin_stuck {u : ρ} {tail : List ρ} (hu : opens u) (h : ∀ g ∈ tail, closes g = false) :
    rejoin opens closes none (u :: tail) = u :: tail := by
  have htail : rejoin opens closes (some []) (tail ++ []) = rejoin opens closes (some tail) [] :=
    rejoin_held h []
  rw [List.append_nil] at htail
  simp [rejoin, hu, htail]

theorem rejoin_idle {l : List ρ} (h : ∀ x ∈ l, opens x = false) :
    rejoin opens closes none l = l := by
  induction l with
  | nil => rfl
  | cons x xs ih =>
    rw [List.forall_mem_cons] at h
    rw [rejoin_skip h.1, ih h.2]

theorem rejoin_perm (l : List ρ) : (rejoin opens closes none l).Perm l := by
  induction scan opens closes l with
  | nil => simp
  | skip hx _ ih =>
    rw [rejoin_skip hx]
    exact ih.cons _
  | pair hu hgap hc _ ih =>
    rw [rejoin_pair hu hgap hc]
    refine .cons _ ?_
    exact ((ih.append_left _).cons _).trans List.perm_middle.symm
  | stuck hu htail => rw [rejoin_stuck hu htail]

@[simp] theorem mem_rejoin {l : List ρ} {x : ρ} : x ∈ rejoin opens closes none l ↔ x ∈ l :=
  (rejoin_perm l).mem_iff

@[simp] theorem length_rejoin (l : List ρ) : (rejoin opens closes none l).length = l.length :=
  (rejoin_perm l).length_eq

theorem rejoin_pairwise {R : ρ → ρ → Prop} {l : List ρ} (h : l.Pairwise R) :
    (rejoin opens closes none l).Pairwise fun x y => R x y ∨ (closes x ∧ R y x) := by
  induction scan opens closes l with
  | nil => simp
  | skip hx _ ih =>
    rw [List.pairwise_cons] at h
    rw [rejoin_skip hx, List.pairwise_cons]
    exact ⟨fun y hy => .inl (h.1 y (mem_rejoin.mp hy)), ih h.2⟩
  | @pair u gap c rest hu hgap hc _ ih =>
    rw [List.pairwise_cons, List.pairwise_append, List.pairwise_cons] at h
    obtain ⟨hfirst, hgap', ⟨hlast, hrest⟩, hcross⟩ := h
    rw [rejoin_pair hu hgap hc, List.pairwise_cons, List.pairwise_cons, List.pairwise_append]
    refine ⟨fun y hy => .inl (hfirst y ?_), fun y hy => ?_, hgap'.imp .inl, ih hrest,
      fun x hx y hy => .inl (hcross x hx y (List.mem_cons_of_mem c (mem_rejoin.mp hy)))⟩
    · simpa [or_left_comm] using hy
    · rcases List.mem_append.mp hy with hy | hy
      · exact .inr ⟨hc, hcross y hy c List.mem_cons_self⟩
      · exact .inl (hlast y (mem_rejoin.mp hy))
  | stuck hu htail =>
    rw [rejoin_stuck hu htail]
    exact h.imp .inl

theorem first_unique {p : ρ → Bool} {l l' rest rest' : List ρ} {x y : ρ} (hl : ∀ g ∈ l, p g = false)
    (hl' : ∀ g ∈ l', p g = false) (hx : p x) (hy : p y) (h : l ++ x :: rest = l' ++ y :: rest') :
    l = l' ∧ x = y ∧ rest = rest' := by
  induction l generalizing l' with
  | nil =>
    cases l' with
    | nil => exact ⟨rfl, List.cons.inj h⟩
    | cons g l' =>
      have hg := hl' g List.mem_cons_self
      rw [← (List.cons.inj h).1, hx] at hg
      cases hg
  | cons g l ih =>
    rw [List.forall_mem_cons] at hl
    cases l' with
    | nil =>
      rw [← (List.cons.inj h).1, hl.1] at hy
      cases hy
    | cons g' l' =>
      rw [List.forall_mem_cons] at hl'
      obtain ⟨rfl, htail⟩ := List.cons.inj h
      obtain ⟨rfl, hrest⟩ := ih hl.2 hl'.2 htail
      exact ⟨rfl, hrest⟩

theorem Answers.opens_left {l : List ρ} {u c : ρ} (h : Answers opens closes l u c) : opens u := by
  induction h with
  | here hu _ _ => exact hu
  | there _ ih => exact ih

theorem Answers.closes_right {l : List ρ} {u c : ρ} (h : Answers opens closes l u c) : closes c := by
  induction h with
  | here _ _ hc => exact hc
  | there _ ih => exact ih

theorem Answers.sublist {l : List ρ} {u c : ρ} (h : Answers opens closes l u c) :
    [u, c].Sublist l := by
  induction h with
  | here _ _ _ => simp
  | there _ ih => exact ih.cons _

theorem Answers.mem_left {l : List ρ} {u c : ρ} (h : Answers opens closes l u c) : u ∈ l :=
  h.sublist.subset List.mem_cons_self

theorem Answers.append {l : List ρ} {u c : ρ} (h : Answers opens closes l u c) (l' : List ρ) :
    Answers opens closes (l ++ l') u c := by
  induction h with
  | here hu hgap hc =>
    simp only [List.cons_append, List.append_assoc]
    exact .here hu hgap hc
  | there _ ih => exact .there ih

theorem Answers.prepend {l : List ρ} {u c : ρ} (h : Answers opens closes l u c) (l' : List ρ) :
    Answers opens closes (l' ++ l) u c := by
  induction l' with
  | nil => exact h
  | cons x l' ih => exact .there ih

theorem answers_skip {x : ρ} (hx : opens x = false) {xs : List ρ} {u c : ρ} :
    Answers opens closes (x :: xs) u c ↔ Answers opens closes xs u c := by
  constructor
  · intro h
    cases h with
    | here hu _ _ => simp [hx] at hu
    | there h => exact h
  · exact .there

theorem answers_drop {gap xs : List ρ} (hgap : ∀ g ∈ gap, opens g = false) {u c : ρ} :
    Answers opens closes (gap ++ xs) u c ↔ Answers opens closes xs u c := by
  induction gap with
  | nil => rfl
  | cons g gap ih =>
    rw [List.forall_mem_cons] at hgap
    rw [List.cons_append, answers_skip hgap.1, ih hgap.2]

theorem orphan_cons {x : ρ} {xs : List ρ} {c : ρ} (h : Orphan opens closes (x :: xs) c) :
    (c = x ∧ closes x) ∨ (Idle opens closes x ∧ Orphan opens closes xs c) := by
  cases h with
  | here hc => exact .inl ⟨rfl, hc⟩
  | there hx h => exact .inr ⟨hx, h⟩

theorem stranded_of_open_gap {u c : ρ} {gap rest : List ρ} (hnodup : (u :: (gap ++ c :: rest)).Nodup)
    (hu : opens u) (hgap : ∀ g ∈ gap, closes g = false) (hc : closes c)
    (hopen : ∃ g ∈ gap, opens g) : Stranded opens closes (u :: (gap ++ c :: rest)) u := by
  refine ⟨hu, ⟨c, by simp, hc⟩, fun c' h => ?_⟩
  generalize hl : u :: (gap ++ c :: rest) = l at h
  cases h with
  | @here _ gap' _ after _ hgap' hc' =>
    obtain ⟨-, htail⟩ := List.cons.inj hl
    obtain ⟨g, hg, hgopen⟩ := hopen
    obtain ⟨rfl, -⟩ := first_unique hgap (fun g hg => (hgap' g hg).2) hc hc' htail
    simp [(hgap' g hg).1] at hgopen
  | there h =>
    rw [← (List.cons.inj hl).2] at h
    exact (List.nodup_cons.mp hnodup).1 h.mem_left

section Disjoint

variable (hdisj : ∀ x, opens x → closes x = false)

theorem not_idle_of_opens {x : ρ} (h : opens x) : ¬ Idle opens closes x := fun hx => by
  simp [hx.1] at h

include hdisj

theorem answers_pair {u c : ρ} {gap : List ρ} (hu : opens u) (hgap : ∀ g ∈ gap, Idle opens closes g)
    (hc : closes c) (rest : List ρ) {u' c' : ρ} :
    Answers opens closes (u :: (gap ++ c :: rest)) u' c' ↔
      (u' = u ∧ c' = c) ∨ Answers opens closes rest u' c' := by
  have hopen : opens c = false := by
    by_contra h
    simp [hdisj c (by simpa using h)] at hc
  have hrest : Answers opens closes (gap ++ c :: rest) u' c' ↔ Answers opens closes rest u' c' := by
    rw [answers_drop fun g hg => (hgap g hg).1, answers_skip hopen]
  constructor
  · intro h
    generalize hl : u :: (gap ++ c :: rest) = l at h
    cases h with
    | here hu' hgap' hc' =>
      obtain ⟨rfl, htail⟩ := List.cons.inj hl
      exact .inl ⟨rfl, (first_unique (fun g hg => (hgap g hg).2) (fun g hg => (hgap' g hg).2) hc hc'
        htail).2.1.symm⟩
    | there h =>
      rw [← (List.cons.inj hl).2] at h
      exact .inr (hrest.mp h)
  · rintro (⟨rfl, rfl⟩ | h)
    · exact .here hu hgap hc
    · exact .there (hrest.mpr h)

theorem Braided.rest {u c : ρ} {gap rest : List ρ} (hb : Braided opens closes (u :: (gap ++ c :: rest)))
    (hu : opens u) (hgap : ∀ g ∈ gap, Idle opens closes g) (hc : closes c) (hnew : c ∉ rest) :
    Braided opens closes rest := by
  intro c' hc' hclose
  rcases hb c' (by simp [hc']) hclose with horphan | ⟨u', hu'⟩
  · rcases orphan_cons horphan with ⟨-, hclose'⟩ | ⟨hidle, -⟩
    · simp [hdisj u hu] at hclose'
    · exact absurd hidle (not_idle_of_opens hu)
  · rcases (answers_pair hdisj hu hgap hc rest).mp hu' with ⟨-, rfl⟩ | h
    · exact absurd hc' hnew
    · exact .inr ⟨u', h⟩

end Disjoint

theorem infix_cons_of_ne {x u c : ρ} (h : u ≠ x) {xs : List ρ} :
    [u, c] <:+: x :: xs ↔ [u, c] <:+: xs := by
  rw [List.infix_cons_iff]
  constructor
  · rintro (hpre | hadjacent)
    · exact absurd (List.cons_prefix_cons.mp hpre).1 h
    · exact hadjacent
  · exact .inr

theorem infix_append_of_notMem {l l' : List ρ} {u c : ρ} (h : u ∉ l) :
    [u, c] <:+: l ++ l' ↔ [u, c] <:+: l' := by
  induction l with
  | nil => rfl
  | cons x l ih =>
    rw [List.mem_cons, not_or] at h
    rw [List.cons_append, infix_cons_of_ne h.1, ih h.2]

theorem not_sublist_swap {l : List ρ} (hnodup : l.Nodup) {x y : ρ} (h : [x, y].Sublist l)
    (h' : [y, x].Sublist l) : False := by
  induction l with
  | nil => cases h
  | cons a l ih =>
    rw [List.nodup_cons] at hnodup
    cases h with
    | cons _ h =>
      cases h' with
      | cons _ h' => exact ih hnodup.2 h h'
      | cons_cons _ h' => exact hnodup.1 (h.subset (by simp))
    | cons_cons _ h =>
      cases h' with
      | cons _ h' => exact hnodup.1 (h'.subset (by simp))
      | cons_cons _ h' => exact hnodup.1 (h'.subset (by simp))

theorem Stranded.skip {x u : ρ} {xs : List ρ} (hx : opens x = false) :
    Stranded opens closes (x :: xs) u ↔ Stranded opens closes xs u := by
  have hne : opens u → u ≠ x := fun hu e => by simp [e, hx] at hu
  constructor
  · rintro ⟨hu, ⟨c, hsub, hc⟩, hnone⟩
    refine ⟨hu, ⟨c, ?_, hc⟩, fun c h => hnone c (.there h)⟩
    exact (List.sublist_cons_iff.mp hsub).resolve_right fun ⟨r, hr, _⟩ => hne hu (List.cons.inj hr).1
  · rintro ⟨hu, ⟨c, hsub, hc⟩, hnone⟩
    exact ⟨hu, ⟨c, hsub.cons x, hc⟩, fun c h => hnone c ((answers_skip hx).mp h)⟩

theorem Stranded.drop {gap xs : List ρ} {u : ρ} (hgap : ∀ g ∈ gap, opens g = false) :
    Stranded opens closes (gap ++ xs) u ↔ Stranded opens closes xs u := by
  induction gap with
  | nil => rfl
  | cons g gap ih =>
    rw [List.forall_mem_cons] at hgap
    rw [List.cons_append, Stranded.skip hgap.1, ih hgap.2]

theorem Braided.skip {x : ρ} {xs : List ρ} (hb : Braided opens closes (x :: xs)) (hnew : x ∉ xs)
    (hx : opens x = false) : Braided opens closes xs := by
  intro c hc hclose
  rcases hb c (List.mem_cons_of_mem x hc) hclose with horphan | ⟨u, hu⟩
  · rcases orphan_cons horphan with ⟨rfl, -⟩ | ⟨-, horphan⟩
    · exact absurd hc hnew
    · exact .inl horphan
  · exact .inr ⟨u, (answers_skip hx).mp hu⟩

theorem sublist_tail_closes {u u' c : ρ} {tail : List ρ} (htail : ∀ g ∈ tail, closes g = false)
    (h : [u', c].Sublist (u :: tail)) : closes c = false := by
  rcases List.sublist_cons_iff.mp h with h | ⟨r, hr, h⟩
  · exact htail c (h.subset (by simp))
  · obtain ⟨-, rfl⟩ := List.cons.inj hr
    exact htail c (h.subset (by simp))

section Disjoint

variable (hdisj : ∀ x, opens x → closes x = false)

include hdisj

theorem Stranded.pair {u c u' : ρ} {gap rest : List ρ} (hnew : u ∉ gap ++ c :: rest) (hu : opens u)
    (hgap : ∀ g ∈ gap, Idle opens closes g) (hc : closes c) :
    Stranded opens closes (u :: (gap ++ c :: rest)) u' ↔ Stranded opens closes rest u' := by
  have hopen : opens c = false := by
    by_contra h
    simp [hdisj c (by simpa using h)] at hc
  have hrest : Stranded opens closes (gap ++ c :: rest) u' ↔ Stranded opens closes rest u' := by
    rw [Stranded.drop fun g hg => (hgap g hg).1, Stranded.skip hopen]
  rw [← hrest]
  constructor
  · rintro ⟨hu', ⟨c', hsub, hc'⟩, hnone⟩
    refine ⟨hu', ⟨c', ?_, hc'⟩, fun c h => hnone c (.there h)⟩
    rcases List.sublist_cons_iff.mp hsub with hsub | ⟨r, hr, -⟩
    · exact hsub
    · obtain ⟨rfl, -⟩ := List.cons.inj hr
      exact absurd (.here hu hgap hc) (hnone c)
  · rintro ⟨hu', ⟨c', hsub, hc'⟩, hnone⟩
    refine ⟨hu', ⟨c', hsub.cons u, hc'⟩, fun c'' h => ?_⟩
    rcases (answers_pair hdisj hu hgap hc rest).mp h with ⟨rfl, -⟩ | h
    · exact hnew (hsub.subset (by simp))
    · exact hnone c'' ((answers_drop fun g hg => (hgap g hg).1).mpr ((answers_skip hopen).mpr h))

/-- Every answer ends up right behind what it answers, unless an earlier opening row took it. -/
theorem rejoin_adjacent_iff {l : List ρ} (hnodup : l.Nodup) (hb : Braided opens closes l) :
    (∀ u c, Answers opens closes l u c → [u, c] <:+: rejoin opens closes none l) ↔
      ∀ u, ¬ Stranded opens closes l u := by
  induction scan opens closes l with
  | nil =>
    refine iff_of_true (fun u c h => ?_) fun u h => ?_
    · cases h
    · obtain ⟨c, hsub, -⟩ := h.passed
      cases hsub
  | @skip x xs hx _ ih =>
    rw [List.nodup_cons] at hnodup
    have hne : ∀ u c, Answers opens closes xs u c → u ≠ x := fun u c h e => by
      simpa [e, hx] using h.opens_left
    simp only [answers_skip hx, Stranded.skip hx, rejoin_skip hx]
    rw [← ih hnodup.2 (hb.skip hnodup.1 hx)]
    exact forall₂_congr fun u c => imp_congr_right fun h => infix_cons_of_ne (hne u c h)
  | @pair u gap c rest hu hgap hc _ ih =>
    by_cases hopen : ∃ g ∈ gap, opens g
    · have hstranded := stranded_of_open_gap hnodup hu hgap hc hopen
      refine iff_of_false (fun h => ?_) fun h => h u hstranded
      rcases hb c (by simp) hc with horphan | ⟨u', hu'⟩
      · rcases orphan_cons horphan with ⟨-, hclose⟩ | ⟨hidle, -⟩
        · simp [hdisj u hu] at hclose
        · exact not_idle_of_opens hu hidle
      · have hmem : u' ∈ gap ++ rejoin opens closes none rest := by
          have hne : u' ≠ u := fun e => hstranded.unanswered c (e ▸ hu')
          have hne' : u' ≠ c := fun e => by simp [hdisj u' hu'.opens_left, ← e] at hc
          simpa [hne, hne'] using hu'.mem_left
        refine not_sublist_swap ((rejoin_perm _).nodup_iff.mpr hnodup) (h u' c hu').sublist ?_
        rw [rejoin_pair hu hgap hc]
        exact .cons u (.cons_cons c (List.singleton_sublist.mpr hmem))
    · have hidle : ∀ g ∈ gap, Idle opens closes g := fun g hg =>
        ⟨by simpa using fun h => hopen ⟨g, hg, h⟩, hgap g hg⟩
      rw [List.nodup_cons] at hnodup
      obtain ⟨hnew, hnodup'⟩ := hnodup
      obtain ⟨-, hnodup'', hapart⟩ := List.nodup_append.mp hnodup'
      rw [List.nodup_cons] at hnodup''
      simp only [answers_pair hdisj hu hidle hc, Stranded.pair hdisj hnew hu hidle hc,
        rejoin_pair hu hgap hc]
      rw [← ih hnodup''.2 (hb.rest hdisj hu hidle hc hnodup''.1)]
      have hlater : ∀ u' c', Answers opens closes rest u' c' →
          ([u', c'] <:+: u :: c :: (gap ++ rejoin opens closes none rest) ↔
            [u', c'] <:+: rejoin opens closes none rest) := by
        intro u' c' h
        have hmem := h.mem_left
        rw [infix_cons_of_ne fun e => hnew (by simp [← e, hmem]),
          infix_cons_of_ne fun e : u' = c => hnodup''.1 (e ▸ hmem),
          infix_append_of_notMem fun hg => hapart u' hg u' (List.mem_cons_of_mem c hmem) rfl]
      constructor
      · intro h u' c' hans
        exact (hlater u' c' hans).mp (h u' c' (.inr hans))
      · rintro h u' c' (⟨rfl, rfl⟩ | hans)
        · exact ⟨[], _, rfl⟩
        · exact (hlater u' c' hans).mpr (h u' c' hans)
  | @stuck u tail hu htail =>
    refine iff_of_true (fun u' c h => ?_) fun u' h => ?_
    · have hc := h.closes_right
      simp [sublist_tail_closes htail h.sublist] at hc
    · obtain ⟨c, hsub, hc⟩ := h.passed
      simp [sublist_tail_closes htail hsub] at hc

theorem Answers.closed {x : ρ} {xs : List ρ} (hx : closes x) {u c : ρ}
    (h : Answers opens closes (x :: xs) u c) : Answers opens closes xs u c := by
  cases h with
  | here hu _ _ => simp [hdisj x hu] at hx
  | there h => exact h

theorem answers_gap {gap rest : List ρ} {c : ρ} (hgap : ∀ g ∈ gap, closes g = false) (hc : closes c)
    {u' c' : ρ} (h : Answers opens closes (gap ++ c :: rest) u' c') :
    (u' ∈ gap ∧ c' = c) ∨ Answers opens closes rest u' c' := by
  induction gap with
  | nil => exact .inr (h.closed hdisj hc)
  | cons g gap ih =>
    rw [List.forall_mem_cons] at hgap
    generalize hl : g :: gap ++ c :: rest = l at h
    cases h with
    | here _ hgap' hc' =>
      obtain ⟨rfl, htail⟩ := List.cons.inj hl
      exact .inl ⟨List.mem_cons_self,
        (first_unique hgap.2 (fun g hg => (hgap' g hg).2) hc hc' htail).2.1.symm⟩
    | there h =>
      rw [← (List.cons.inj hl).2] at h
      exact (ih hgap.2 h).imp_left fun ⟨hu', e⟩ => ⟨List.mem_cons_of_mem g hu', e⟩

theorem Answers.rejoin {l : List ρ} {u c : ρ} (h : Answers opens closes l u c) :
    [u, c] <:+: rejoin opens closes none l ∨
      [c, u].Sublist (Foundation.rejoin opens closes none l) := by
  induction scan opens closes l with
  | nil => cases h
  | @skip x xs hx _ ih =>
    rw [rejoin_skip hx]
    exact (ih ((answers_skip hx).mp h)).imp (fun h => List.infix_cons_iff.mpr (.inr h)) (.cons x)
  | @pair u₀ gap c₀ rest hu hgap hc _ ih =>
    rw [rejoin_pair hu hgap hc]
    generalize hl : u₀ :: (gap ++ c₀ :: rest) = l at h
    cases h with
    | here hu' hgap' hc' =>
      obtain ⟨rfl, htail⟩ := List.cons.inj hl
      obtain ⟨-, rfl, -⟩ := first_unique hgap (fun g hg => (hgap' g hg).2) hc hc' htail
      exact .inl ⟨[], _, rfl⟩
    | there h =>
      rw [← (List.cons.inj hl).2] at h
      rcases answers_gap hdisj hgap hc h with ⟨hgap', rfl⟩ | h
      · exact .inr (.cons _ (.cons_cons _ (List.singleton_sublist.mpr (List.mem_append_left _ hgap'))))
      · refine (ih h).imp (fun h => ?_) fun h => ?_
        · exact h.trans (List.suffix_append (u₀ :: c₀ :: gap) _).isInfix
        · exact h.trans (List.sublist_append_right (u₀ :: c₀ :: gap) _)
  | stuck hu htail =>
    have hc := h.closes_right
    simp [sublist_tail_closes htail h.sublist] at hc

theorem Orphan.rejoin {l : List ρ} {c : ρ} (h : Orphan opens closes l c) :
    ∃ before after, Foundation.rejoin opens closes none l = before ++ c :: after ∧
      ∀ b ∈ before, Idle opens closes b := by
  induction h with
  | here hc =>
    have hopen : ∀ c, closes c → opens c = false := fun c hc => by
      by_contra h
      simp [hdisj c (by simpa using h)] at hc
    exact ⟨[], _, rejoin_skip (hopen _ hc) _, fun b hb => absurd hb List.not_mem_nil⟩
  | @there x xs c hx _ ih =>
    obtain ⟨before, after, heq, hidle⟩ := ih
    exact ⟨x :: before, after, by rw [rejoin_skip hx.1, heq]; rfl, List.forall_mem_cons.mpr ⟨hx, hidle⟩⟩

end Disjoint

theorem rejoin_map {σ : Type*} {opens' closes' : σ → Bool} (f : σ → ρ)
    (hopens : ∀ x, opens (f x) = opens' x) (hcloses : ∀ x, closes (f x) = closes' x)
    (held : Option (List σ)) (l : List σ) :
    rejoin opens closes (held.map (List.map f)) (l.map f) =
      (rejoin opens' closes' held l).map f := by
  induction l generalizing held with
  | nil => cases held <;> simp
  | cons x xs ih =>
    cases held with
    | none =>
      have hheld : (if opens' x then some [] else none : Option (List ρ)) =
          (if opens' x then some [] else none : Option (List σ)).map (List.map f) := by
        split <;> rfl
      simp only [List.map_cons, Option.map_none, rejoin, hopens, hheld, ih]
    | some held =>
      have hnone := ih none
      have hsome := ih (some (held ++ [x]))
      simp only [Option.map_none] at hnone
      simp only [Option.map_some, List.map_append, List.map_cons, List.map_nil] at hsome
      simp only [List.map_cons, Option.map_some, rejoin, hcloses, hnone, hsome]
      split <;> simp

theorem answers_snoc {l : List ρ} {x u c : ρ} :
    Answers opens closes (l ++ [x]) u c ↔
      Answers opens closes l u c ∨ (c = x ∧ closes x ∧ Open opens closes l u) := by
  constructor
  · intro h
    induction l with
    | nil =>
      generalize hl : [] ++ [x] = l at h
      cases h with
      | here _ _ _ => simp at hl
      | there h =>
        rw [← (List.cons.inj hl).2] at h
        cases h
    | cons y ys ih =>
      generalize hl : y :: ys ++ [x] = l at h
      cases h with
      | @here _ gap _ after hu hgap hc =>
        obtain ⟨rfl, htail⟩ := List.cons.inj hl
        rcases List.eq_nil_or_concat after with rfl | ⟨after', z, rfl⟩
        · obtain ⟨rfl, hx⟩ := List.append_inj' htail rfl
          obtain ⟨rfl, -⟩ := List.cons.inj hx
          exact .inr ⟨rfl, hc, .here hu hgap⟩
        · have htail' : ys ++ [x] = (gap ++ c :: after') ++ [z] := by simpa using htail
          obtain ⟨rfl, -⟩ := List.append_inj' htail' rfl
          exact .inl (.here hu hgap hc)
      | there h =>
        rw [← (List.cons.inj hl).2] at h
        exact (ih h).imp .there fun ⟨e, hx, hopen⟩ => ⟨e, hx, .there hopen⟩
  · rintro (h | ⟨rfl, hc, hopen⟩)
    · exact h.append [x]
    · induction hopen with
      | here hu htail => exact .here hu htail hc
      | there _ ih => exact .there ih

theorem Open.opening {l : List ρ} {u : ρ} (h : Open opens closes l u) : opens u := by
  induction h with
  | here hu _ => exact hu
  | there _ ih => exact ih

theorem Open.mem {l : List ρ} {u : ρ} (h : Open opens closes l u) : u ∈ l := by
  induction h with
  | here _ _ => exact List.mem_cons_self
  | there _ ih => exact List.mem_cons_of_mem _ ih

theorem Open.snoc_idle {l : List ρ} {x u : ρ} (h : Open opens closes l u)
    (hx : Idle opens closes x) : Open opens closes (l ++ [x]) u := by
  induction h with
  | here hu htail =>
    refine .here hu fun g hg => ?_
    rcases List.mem_append.mp hg with hg | hg
    · exact htail g hg
    · exact List.mem_singleton.mp hg ▸ hx
  | there _ ih => exact .there ih

theorem open_snoc_opens (l : List ρ) {x : ρ} (hx : opens x) : Open opens closes (l ++ [x]) x := by
  induction l with
  | nil => exact .here hx fun g hg => absurd hg List.not_mem_nil
  | cons y ys ih => exact .there ih

theorem Open.unique {l : List ρ} {u u' : ρ} (h : Open opens closes l u)
    (h' : Open opens closes l u') : u = u' := by
  induction h with
  | here hu htail =>
    cases h' with
    | here _ _ => rfl
    | there h' =>
      exact absurd (htail u' h'.mem) (not_idle_of_opens h'.opening)
  | there h ih =>
    cases h' with
    | here _ htail =>
      exact absurd (htail _ h.mem) (not_idle_of_opens h.opening)
    | there h' => exact ih h'

theorem Answers.suffix {pre l : List ρ} {u c : ρ} (hnodup : (pre ++ l).Nodup)
    (h : Answers opens closes (pre ++ l) u c) (hu : u ∈ l) : Answers opens closes l u c := by
  induction pre with
  | nil => exact h
  | cons x pre ih =>
    rw [List.cons_append, List.nodup_cons] at hnodup
    generalize hl : x :: pre ++ l = l' at h
    cases h with
    | here _ _ _ =>
      obtain ⟨rfl, -⟩ := List.cons.inj hl
      exact absurd (List.mem_append_right pre hu) hnodup.1
    | there h =>
      rw [← (List.cons.inj hl).2] at h
      exact ih hnodup.2 h

theorem orphan_of_idle_prefix {gap : List ρ} (hgap : ∀ g ∈ gap, Idle opens closes g) {c : ρ}
    (hc : closes c) (after : List ρ) : Orphan opens closes (gap ++ c :: after) c := by
  induction gap with
  | nil => exact .here hc
  | cons g gap ih =>
    rw [List.forall_mem_cons] at hgap
    exact .there hgap.1 (ih hgap.2)

theorem Answers.orphan {pre l : List ρ} {u c : ρ} (hnodup : (pre ++ l).Nodup)
    (h : Answers opens closes (pre ++ l) u c) (hu : u ∉ l) (hc : c ∈ l) :
    Orphan opens closes l c := by
  induction pre with
  | nil => exact absurd h.mem_left hu
  | cons x pre ih =>
    rw [List.cons_append, List.nodup_cons] at hnodup
    generalize hl : x :: pre ++ l = l' at h
    cases h with
    | @here _ gap _ after _ hgap hclose =>
      obtain ⟨-, htail⟩ := List.cons.inj hl
      rcases List.append_eq_append_iff.mp htail with ⟨gap', rfl, rfl⟩ | ⟨pre', rfl, hrest⟩
      · exact orphan_of_idle_prefix (fun g hg => hgap g (List.mem_append_right pre hg)) hclose after
      · cases pre' with
        | nil =>
          rw [List.nil_append] at hrest
          exact hrest ▸ .here hclose
        | cons y pre' =>
          obtain ⟨rfl, -⟩ := List.cons.inj hrest
          exact absurd rfl ((List.nodup_append.mp hnodup.2).2.2 c (by simp) c hc)
    | there h =>
      rw [← (List.cons.inj hl).2] at h
      exact ih hnodup.2 h

theorem Braided.suffix {pre l : List ρ} (hnodup : (pre ++ l).Nodup)
    (h : ∀ c ∈ pre ++ l, closes c → ∃ u, Answers opens closes (pre ++ l) u c) :
    Braided opens closes l := by
  intro c hc hclose
  obtain ⟨u, hu⟩ := h c (List.mem_append_right pre hc) hclose
  by_cases hmem : u ∈ l
  · exact .inr ⟨u, hu.suffix hnodup hmem⟩
  · exact .inl (hu.orphan hnodup hmem hc)

theorem Orphan.idle_ahead {l : List ρ} {x c : ρ} (hnodup : l.Nodup) (h : Orphan opens closes l c)
    (hsub : [x, c].Sublist l) : Idle opens closes x := by
  induction h with
  | here _ =>
    rcases List.sublist_cons_iff.mp hsub with hsub | ⟨r, hr, hsub⟩
    · exact absurd (hsub.subset (by simp)) (List.nodup_cons.mp hnodup).1
    · obtain ⟨-, rfl⟩ := List.cons.inj hr
      exact absurd (hsub.subset (by simp)) (List.nodup_cons.mp hnodup).1
  | there hy _ ih =>
    rcases List.sublist_cons_iff.mp hsub with hsub | ⟨r, hr, -⟩
    · exact ih (List.nodup_cons.mp hnodup).2 hsub
    · exact (List.cons.inj hr).1 ▸ hy

theorem sublist_or_swap {l : List ρ} {x y : ρ} (hx : x ∈ l) (hy : y ∈ l) (hne : x ≠ y) :
    [x, y].Sublist l ∨ [y, x].Sublist l := by
  induction l with
  | nil => cases hx
  | cons z l ih =>
    rcases List.mem_cons.mp hx with rfl | hx' <;> rcases List.mem_cons.mp hy with rfl | hy'
    · exact absurd rfl hne
    · exact .inl (.cons_cons _ (List.singleton_sublist.mpr hy'))
    · exact .inr (.cons_cons _ (List.singleton_sublist.mpr hx'))
    · exact (ih hx' hy').imp (.cons z) (.cons z)

theorem mem_of_sublist_ahead {before after : List ρ} {x y : ρ} (hnodup : (before ++ y :: after).Nodup)
    (h : [x, y].Sublist (before ++ y :: after)) : x ∈ before := by
  by_contra hx
  have hne : x ≠ y := fun e => by
    have := hnodup.sublist h
    simp [e] at this
  have hmem : x ∈ after := by simpa [hx, hne] using h.subset List.mem_cons_self
  refine not_sublist_swap hnodup h ?_
  exact (List.Sublist.cons_cons y (List.singleton_sublist.mpr hmem)).trans
    (List.sublist_append_right before _)

end Pairing

end Patom.Foundation
