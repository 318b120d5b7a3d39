import Patom.AgentCore.Compaction
import Patom.Threads.TailLaws

open Patom.Foundation
open Patom.Provider
open Patom.Threads

namespace Patom.AgentCore

section Adjacent

variable {α : Type*} {l : List α} {n : Nat} {x y : α}

theorem sublist_of_take_drop (hx : x ∈ l.take n) (hy : y ∈ l.drop n) : [x, y].Sublist l := by
  rw [← List.take_append_drop n l]
  exact (List.singleton_sublist.mpr hx).append (List.singleton_sublist.mpr hy)

theorem infix_at_cut (hnodup : l.Nodup) (h : [x, y] <:+: l) (hx : x ∈ l.take n)
    (hy : y ∈ l.drop n) : 0 < n ∧ l[n - 1]? = some x ∧ l[n]? = some y := by
  obtain ⟨before, after, rfl⟩ := h
  have hx' : (before ++ [x, y] ++ after)[before.length]? = some x := by simp
  have hy' : (before ++ [x, y] ++ after)[before.length + 1]? = some y := by simp
  obtain ⟨i, hi, hxi⟩ := List.mem_take_iff_getElem.mp hx
  obtain ⟨j, hj, hyj⟩ := List.mem_drop_iff_getElem.mp hy
  have hi' : i = before.length := (hnodup.getElem_inj_iff).mp
    (hxi.trans (List.getElem_eq_iff (by simp) |>.mpr hx').symm)
  have hj' : n + j = before.length + 1 := (hnodup.getElem_inj_iff).mp
    (hyj.trans (List.getElem_eq_iff (by simp) |>.mpr hy').symm)
  have hn : n = before.length + 1 := by omega
  rw [hn]
  exact ⟨Nat.succ_pos _, hx', hy'⟩

theorem drop_of_getElem? (h : l[n]? = some x) : l.drop n = x :: l.drop (n + 1) := by
  obtain ⟨hlt, rfl⟩ := List.getElem?_eq_some_iff.mp h
  exact List.drop_eq_getElem_cons hlt

theorem mem_take_of_ahead (hnodup : l.Nodup) (hy : l[n]? = some y) (h : [x, y].Sublist l) :
    x ∈ l.take n := by
  have hsplit := List.take_append_drop n l
  rw [drop_of_getElem? hy] at hsplit
  rw [← hsplit] at hnodup h
  exact mem_of_sublist_ahead hnodup h

end Adjacent

/-- The first row kept was not written inside a pair of the window. -/
def CleanCut (viewer : Viewer) (labels : Labels) (since : Seq) (t : Thread) (keepBudget : Nat) :
    Prop :=
  let rows := contextTail viewer labels since t
  ∀ row, rows[cutIndex rows keepBudget]? = some row →
    ¬ Deferred (t.contextRows viewer.agent since) row.seq

section Split

variable {viewer : Viewer} {labels : Labels} {w : List ThreadMessage} {pairs : List (Seq × Seq)}
variable {cut : Nat}

theorem lt_of_clean (hw : WindowInv pairs w)
    (hclean : ∀ m, (tailOf viewer labels w)[cut]? = some m → ¬ Deferred w m.seq)
    {x y : ThreadMessage} (hx : x ∈ (tailOf viewer labels w).take cut)
    (hy : y ∈ (tailOf viewer labels w).drop cut) : x.seq < y.seq := by
  have hsub := sublist_of_take_drop hx hy
  have hne : x.seq ≠ y.seq := fun e => by
    have hxy := eq_of_seq_eq hw.ordered (mem_tailOf.mp (List.mem_of_mem_take hx)).1
      (mem_tailOf.mp (List.mem_of_mem_drop hy)).1 e
    have := (tailOf_nodup _ _ hw).sublist hsub
    simp [hxy] at this
  by_contra hlt
  have hlt : y.seq < x.seq := by lia
  obtain ⟨m, rest, hdrop⟩ := List.exists_cons_of_ne_nil (List.ne_nil_of_mem hy)
  have hm : (tailOf viewer labels w)[cut]? = some m := by
    rw [← List.head?_drop, hdrop, List.head?_cons]
  refine hclean m hm ((overtaken_iff_deferred hw (List.mem_of_getElem? hm)).mp ⟨x, ?_, ?_⟩)
  · exact sublist_of_take_drop hx (hdrop ▸ List.mem_cons_self)
  · rw [hdrop] at hy
    rcases List.mem_cons.mp hy with rfl | hy
    · exact hlt
    · have hthree : [x, m, y].Sublist (tailOf viewer labels w) := by
        rw [← List.take_append_drop cut (tailOf viewer labels w), hdrop]
        exact (List.singleton_sublist.mpr hx).append (.cons_cons m (List.singleton_sublist.mpr hy))
      exact overtakes_between hw.ordered (sublist_scanned hthree) hlt

theorem overtaken_at_cut (hw : WindowInv pairs w) {m : ThreadMessage}
    (hm : (tailOf viewer labels w)[cut]? = some m) (hdeferred : Deferred w m.seq) :
    ∃ c ∈ (tailOf viewer labels w).take cut, m.seq < c.seq := by
  obtain ⟨c, hsub, hlt⟩ := (overtaken_iff_deferred hw (List.mem_of_getElem? hm)).mpr hdeferred
  exact ⟨c, mem_take_of_ahead (tailOf_nodup _ _ hw) hm hsub, hlt⟩

theorem calls_kept (hw : WindowInv pairs w) {rows : List TailRow}
    (hrows : rows = (tailOf viewer labels w).map (toRow viewer labels)) {keepBudget : Nat}
    {u c : ThreadMessage} (hans : Answered w u c)
    (hc : c ∈ (tailOf viewer labels w).drop (cutIndex rows keepBudget)) :
    u ∈ (tailOf viewer labels w).drop (cutIndex rows keepBudget) := by
  have hu := mem_tailOf.mpr ⟨hans.mem_left, kept_of_not_closes viewer labels
    hw hans.mem_left (ThreadMessage.not_closes_of_opens u hans.opens_left)⟩
  have hcw := (mem_tailOf.mp (List.mem_of_mem_drop hc)).1
  rw [← List.take_append_drop (cutIndex rows keepBudget) (tailOf viewer labels w)] at hu
  refine (List.mem_append.mp hu).resolve_left fun htake => ?_
  have hsub := sublist_of_take_drop htake hc
  rcases hans.rejoin ThreadMessage.not_closes_of_opens with hadjacent | hswap
  · obtain ⟨hpos, hprev, hnext⟩ :=
      infix_at_cut (tailOf_nodup _ _ hw) (answered_adjacent hw hans hadjacent) htake hc
    obtain ⟨-, -, id, hhead, hid⟩ := render_closes viewer labels
      (hw.shaped c hcw) hans.closes_right
    refine cutIndex_safe (p := toRow viewer labels u) (r := toRow viewer labels c) hpos
      (by rw [hrows] at hprev ⊢; simp [hprev]) (by rw [hrows] at hnext ⊢; simp [hnext]) hhead ?_
    rw [toRow, (render_opens _ _ (hw.shaped u hans.mem_left) hans.opens_left).1, ← hw.matched u c hans]
    exact hid
  · exact not_sublist_swap (scanned_nodup hw) hswap (sublist_scanned hsub)

theorem opening_kept (hw : WindowInv pairs w) {u c : ThreadMessage}
    (horphan : Orphan ThreadMessage.opens ThreadMessage.closes w c)
    (hc : c ∈ (tailOf viewer labels w).drop cut) (hu : u ∈ w) (hopen : u.opens) :
    u ∈ (tailOf viewer labels w).drop cut := by
  have hu' := mem_tailOf.mpr ⟨hu, kept_of_not_closes viewer labels hw hu
    (ThreadMessage.not_closes_of_opens u hopen)⟩
  rw [← List.take_append_drop cut (tailOf viewer labels w)] at hu'
  refine (List.mem_append.mp hu').resolve_left fun htake => ?_
  have := orphan_first hw horphan (sublist_scanned (sublist_of_take_drop htake hc))
  rw [hopen] at this
  cases this

theorem kept_later (hw : WindowInv pairs w) {rows : List TailRow}
    (hrows : rows = (tailOf viewer labels w).map (toRow viewer labels)) {keepBudget : Nat}
    {later : List ThreadMessage} (hlater : WindowInv pairs later)
    (hkeep : ∀ m ∈ (tailOf viewer labels w).drop (cutIndex rows keepBudget), m ∈ later)
    {m : ThreadMessage} (hm : m ∈ (tailOf viewer labels w).drop (cutIndex rows keepBudget)) :
    m ∈ tailOf viewer labels later := by
  obtain ⟨hmw, hkept⟩ := mem_tailOf.mp (List.mem_of_mem_drop hm)
  refine mem_tailOf.mpr ⟨hkeep m hm, ?_⟩
  cases hclose : m.closes with
  | false => exact kept_of_not_closes _ _ hlater (hkeep m hm) hclose
  | true =>
    obtain ⟨-, -, id, hhead, hid⟩ := render_closes viewer labels
      (hw.shaped m hmw) hclose
    have hcalls : ∃ u ∈ later, id ∈ callIds (renderRow viewer labels u) := by
      rcases hw.braided m hmw hclose with horphan | ⟨u, hans⟩
      · obtain ⟨u, hu, hcall⟩ : ∃ u ∈ w, id ∈ callIds (renderRow viewer labels u) := by
          simpa [kept, hhead] using hkept
        have hopen := opens_of_callIds hw hu (List.ne_nil_of_mem hcall)
        exact ⟨u, hkeep u (opening_kept hw horphan hm hu hopen), hcall⟩
      · refine ⟨u, hkeep u (calls_kept hw hrows hans hm), ?_⟩
        rw [(render_opens _ _ (hw.shaped u hans.mem_left) hans.opens_left).1, ← hw.matched u m hans]
        exact hid
    simpa [kept, hhead] using hcalls

end Split

section Fold

variable {viewer : Viewer} {labels : Labels} {f : Feed} {since : Seq} {keepBudget : Nat}

theorem cleanCut_iff : CleanCut viewer labels since f.thread keepBudget ↔
    ∀ m, (tailOf viewer labels (f.thread.contextRows viewer.agent since))[
      cutIndex (contextTail viewer labels since f.thread) keepBudget]? = some m →
        ¬ Deferred (f.thread.contextRows viewer.agent since) m.seq := by
  have hrow (i : Nat) : (contextTail viewer labels since f.thread)[i]? =
      (tailOf viewer labels (f.thread.contextRows viewer.agent since))[i]?.map
        (toRow viewer labels) := by
    rw [contextTail_eq, List.getElem?_map]
  simp only [CleanCut, hrow, Option.map_eq_some_iff]
  constructor
  · intro h m hm
    exact h _ ⟨m, hm, rfl⟩
  · rintro h row ⟨m, hm, rfl⟩
    exact h m hm

theorem mem_keep {row : TailRow} :
    row ∈ (splitTail (contextTail viewer labels since f.thread) keepBudget).keep ↔
      ∃ m ∈ (tailOf viewer labels (f.thread.contextRows viewer.agent since)).drop
        (cutIndex (contextTail viewer labels since f.thread) keepBudget),
          toRow viewer labels m = row := by
  rw [splitTail_keep]
  generalize cutIndex (contextTail viewer labels since f.thread) keepBudget = cut
  rw [contextTail_eq, ← List.map_drop, List.mem_map]

theorem mem_overflow_tail {row : TailRow} :
    row ∈ (splitTail (contextTail viewer labels since f.thread) keepBudget).overflow ↔
      ∃ m ∈ (tailOf viewer labels (f.thread.contextRows viewer.agent since)).take
        (cutIndex (contextTail viewer labels since f.thread) keepBudget),
          1 < m.seq ∧ toRow viewer labels m = row := by
  rw [mem_overflow]
  generalize cutIndex (contextTail viewer labels since f.thread) keepBudget = cut
  rw [contextTail_eq, ← List.map_take, List.mem_map]
  constructor
  · rintro ⟨⟨m, hm, rfl⟩, hseq⟩
    exact ⟨m, hm, hseq, rfl⟩
  · rintro ⟨m, hm, hseq, rfl⟩
    exact ⟨⟨m, hm, rfl⟩, hseq⟩

theorem mem_tailOf_of_overflow {row : TailRow}
    (h : row ∈ (splitTail (contextTail viewer labels since f.thread) keepBudget).overflow) :
    ∃ m ∈ f.thread.contextRows viewer.agent since, m.seq = row.seq := by
  obtain ⟨m, hm, -, rfl⟩ := mem_overflow_tail.mp h
  exact ⟨m, (mem_tailOf.mp (List.mem_of_mem_take hm)).1, rfl⟩

theorem overflow_of_deferred (h : FeedInv viewer f)
    {m : ThreadMessage} (hm : (tailOf viewer labels (f.thread.contextRows viewer.agent since))[
      cutIndex (contextTail viewer labels since f.thread) keepBudget]? = some m)
    (hdeferred : Deferred (f.thread.contextRows viewer.agent since) m.seq) :
    ∃ row ∈ (splitTail (contextTail viewer labels since f.thread) keepBudget).overflow,
      m.seq < row.seq := by
  obtain ⟨c, hc, hlt⟩ := overtaken_at_cut (h.window _) hm hdeferred
  obtain ⟨u, -, -, -, -, -, hum, -⟩ := hdeferred
  exact ⟨toRow viewer labels c, mem_overflow_tail.mpr ⟨c, hc, by lia, rfl⟩, hlt⟩

theorem lt_of_cleanCut (h : FeedInv viewer f) (hclean : CleanCut viewer labels since f.thread keepBudget)
    {covers : Seq}
    (hcovers : (splitTail (contextTail viewer labels since f.thread) keepBudget).covers = some covers)
    {m : ThreadMessage} (hm : m ∈ (tailOf viewer labels (f.thread.contextRows viewer.agent since)).drop
      (cutIndex (contextTail viewer labels since f.thread) keepBudget)) : covers < m.seq := by
  obtain ⟨row, hrow, rfl⟩ := (splitTail_covers hcovers).mem
  obtain ⟨c, hc, -, rfl⟩ := mem_overflow_tail.mp hrow
  exact lt_of_clean (h.window _) (cleanCut_iff.mp hclean) hc hm

/-- A fold leaves what it keeps in the next read exactly when its cut is clean. -/
theorem retained_iff_cleanCut (h : FeedInv viewer f) :
    (∀ covers,
      (splitTail (contextTail viewer labels since f.thread) keepBudget).covers = some covers →
      ∀ row ∈ (splitTail (contextTail viewer labels since f.thread) keepBudget).keep,
        covers < row.seq ∧ row ∈ contextTail viewer labels covers f.thread) ↔
      CleanCut viewer labels since f.thread keepBudget := by
  constructor
  · intro hkept
    refine cleanCut_iff.mpr fun m hm hdeferred => ?_
    obtain ⟨row, hrow, hlt⟩ := overflow_of_deferred h hm hdeferred
    obtain ⟨covers, hcovers⟩ := splitTail_covers_some (List.ne_nil_of_mem hrow)
    have hkeep := mem_keep.mpr ⟨m, drop_of_getElem? hm ▸ List.mem_cons_self, rfl⟩
    have hlt' : covers < m.seq := (hkept covers hcovers _ hkeep).1
    have hle : row.seq ≤ covers := (splitTail_covers hcovers).le row hrow
    lia
  · intro hclean covers hcovers row hrow
    obtain ⟨m, hm, rfl⟩ := mem_keep.mp hrow
    refine ⟨lt_of_cleanCut h hclean hcovers hm, ?_⟩
    obtain ⟨o, ho, hseq⟩ := (splitTail_covers hcovers).mem
    obtain ⟨mo, hmo, hoseq⟩ := mem_tailOf_of_overflow ho
    have hlater := contextRows_of_covered h.numbered hmo (Nat.le_of_eq (hoseq.trans hseq))
    rw [contextTail_eq]
    refine List.mem_map_of_mem (kept_later (h.window _) (contextTail_eq since f.thread)
      (h.window _) (fun x hx => ?_) hm)
    rw [hlater, List.mem_filter]
    exact ⟨(mem_tailOf.mp (List.mem_of_mem_drop hx)).1, by simpa using lt_of_cleanCut h hclean hcovers hx⟩

end Fold

end Patom.AgentCore
