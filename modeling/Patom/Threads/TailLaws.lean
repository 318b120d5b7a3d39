import Patom.Foundation.PairingOrder
import Patom.Threads.Pairs

open Patom.Foundation
open Patom.Provider

namespace Patom.Threads

/-- Written between a tool use and the next tool result. -/
abbrev Deferred (rows : List ThreadMessage) (seq : Seq) : Prop :=
  Held ThreadMessage.opens ThreadMessage.closes ThreadMessage.seq rows seq

section Tail

variable (viewer : Viewer) (labels : Labels) (w : List ThreadMessage)

def toRow (m : ThreadMessage) : TailRow := ⟨m.seq, renderRow viewer labels m⟩

def tailOf : List ThreadMessage := (scanned w).filter (kept viewer labels w)

end Tail

section TailOf

variable {viewer : Viewer} {labels : Labels} {w : List ThreadMessage} {pairs : List (Seq × Seq)}

theorem contextTail_eq (since : Seq) (t : Thread) : contextTail viewer labels since t =
    (tailOf viewer labels (t.contextRows viewer.agent since)).map (toRow viewer labels) := by
  have hrows : mappedRows viewer labels since t =
      rowsOf viewer labels (t.contextRows viewer.agent since) := by
    simp only [mappedRows, rowsOf]
  rw [contextTail, hrows, repaired_eq, repaired, List.map_map]
  rfl

theorem mem_tailOf {m : ThreadMessage} :
    m ∈ tailOf viewer labels w ↔ m ∈ w ∧ kept viewer labels w m := by
  simp [tailOf]

variable (viewer labels) in
theorem tailOf_nodup (hw : WindowInv pairs w) : (tailOf viewer labels w).Nodup :=
  (scanned_nodup hw).filter _

theorem sublist_scanned {l : List ThreadMessage} (h : l.Sublist (tailOf viewer labels w)) :
    l.Sublist (scanned w) :=
  h.trans List.filter_sublist

theorem sublist_tailOf {m m' : ThreadMessage} (hm : kept viewer labels w m)
    (hm' : kept viewer labels w m') (h : [m, m'].Sublist (scanned w)) :
    [m, m'].Sublist (tailOf viewer labels w) := by
  have hfilter := h.filter (kept viewer labels w)
  rwa [List.filter_cons_of_pos hm, List.filter_cons_of_pos hm', List.filter_nil] at hfilter

theorem answered_adjacent (hw : WindowInv pairs w) {u c : ThreadMessage}
    (hans : Answered w u c) (h : [u, c] <:+: scanned w) : [u, c] <:+: tailOf viewer labels w := by
  have hu := kept_of_not_closes viewer labels hw hans.mem_left
    (ThreadMessage.not_closes_of_opens u hans.opens_left)
  have hfilter := h.filter (kept viewer labels w)
  rwa [List.filter_cons_of_pos hu, List.filter_cons_of_pos (kept_of_answered _ _ hw hans),
    List.filter_nil] at hfilter

theorem kept_of_overtakes (hw : WindowInv pairs w) {c m : ThreadMessage}
    (hsub : [c, m].Sublist (scanned w)) (hlt : m.seq < c.seq) : kept viewer labels w c := by
  have hclose := closes_of_overtakes hw.ordered hsub hlt
  have hc : c ∈ w := mem_scanned.mp (hsub.subset (by simp))
  obtain ⟨u, hu, hopen, -, -, -, hum, -, -⟩ := held_of_overtaken hw.ordered hsub hlt
  rcases hw.braided c hc hclose with horphan | ⟨u', hans⟩
  · have hahead := sublist_of_seq_lt hw hu hc (Nat.lt_trans hum hlt)
    have := horphan.idle_ahead (nodup_of_ordered hw.ordered) hahead
    simp [this.1] at hopen
  · exact kept_of_answered _ _ hw hans

theorem overtaken_iff_deferred (hw : WindowInv pairs w) {m : ThreadMessage}
    (hm : m ∈ tailOf viewer labels w) :
    (∃ c, [c, m].Sublist (tailOf viewer labels w) ∧ m.seq < c.seq) ↔ Deferred w m.seq := by
  constructor
  · rintro ⟨c, hsub, hlt⟩
    exact held_of_overtaken hw.ordered (sublist_scanned hsub) hlt
  · intro h
    obtain ⟨hmw, hkept⟩ := mem_tailOf.mp hm
    obtain ⟨c, hsub, hlt⟩ := overtaken_of_held ThreadMessage.not_closes_of_opens hw.ordered hmw h
    exact ⟨c, sublist_tailOf (kept_of_overtakes hw hsub hlt) hkept hsub, hlt⟩

end TailOf

section Since

variable {agent : AgentId} {since : Seq} {t : Thread}

theorem visible_of_mem {m : ThreadMessage} (h : m ∈ t.contextRows agent since) :
    m ∈ t.visible agent :=
  List.mem_of_mem_filter ((newest_suffix _ _).subset h)

theorem contextRows_of_covered (hn : Numbered t) {m : ThreadMessage}
    (hm : m ∈ t.contextRows agent since) {covers : Seq} (hcovers : m.seq ≤ covers) :
    t.contextRows agent covers = (t.contextRows agent since).filter fun x => covers < x.seq := by
  have hlt := since_lt_of_mem hm
  have hordered := hn.visible_ordered agent
  obtain ⟨pre, hpre⟩ : t.contextRows agent since <:+
      (t.visible agent).filter fun m => since < m.seq := newest_suffix _ _
  have hsorted := hordered.sublist (List.filter_sublist (p := fun m => decide (since < m.seq)))
  rw [← hpre] at hsorted
  have hnil : (pre.filter fun x => covers < x.seq) = [] := by
    refine List.filter_eq_nil_iff.mpr fun x hx => ?_
    have := (List.pairwise_append.mp hsorted).2.2 x hx m hm
    simp only [decide_eq_true_eq]
    lia
  have hsplit : ((t.visible agent).filter fun x => covers < x.seq) =
      (t.contextRows agent since).filter fun x => covers < x.seq := by
    have hsub : ((t.visible agent).filter fun x => covers < x.seq) =
        ((t.visible agent).filter fun x => since < x.seq).filter fun x => covers < x.seq := by
      rw [List.filter_filter]
      refine List.filter_congr fun x _ => ?_
      rw [Bool.eq_iff_iff]
      simp only [decide_eq_true_eq, Bool.and_eq_true]
      exact ⟨fun h => ⟨h, Nat.lt_trans (Nat.lt_of_lt_of_le hlt hcovers) h⟩, And.left⟩
    rw [hsub, ← hpre, List.filter_append, hnil, List.nil_append]
  rw [Thread.contextRows, hsplit]
  refine newest_eq_self ((List.length_filter_le _ _).trans ?_)
  exact length_newest_le _ _

theorem suffix_newest {α : Type*} {n : Nat} {l s : List α} (h : s <:+ l) (hle : s.length ≤ n) :
    s <:+ newest n l := by
  refine List.suffix_of_suffix_length_le h (newest_suffix n l) ?_
  have := h.length_le
  rw [newest, List.length_drop]
  omega

end Since

section Conserved

variable (rows : List (Seq × MessageKind × ChatMessage))

/-- The pass moves rows only: none is lost or doubled, and neither the results nor the other rows
change places among themselves. -/
theorem repairToolPairs_conserves :
    (∃ out : List (Seq × MessageKind × ChatMessage), repairToolPairs rows = out.map dropKind ∧
      out.Perm rows ∧
      (out.filter fun row => row.2.1 ≠ .toolResult) = rows.filter (fun row => row.2.1 ≠ .toolResult) ∧
      (out.filter fun row => row.2.1 = .toolResult) = rows.filter fun row => row.2.1 = .toolResult) ∧
    ((∀ i row, rows[i]? = some row → row.2.1 = .toolUse →
        ∃ next, rows[i + 1]? = some next ∧ next.2.1 = .toolResult) →
      repairToolPairs rows = rows.map dropKind) := by
  refine ⟨⟨rejoin rowOpens rowCloses none rows, repairToolPairs_eq rows, rejoin_perm rows, ?_, ?_⟩,
    fun h => ?_⟩
  · exact filter_rejoin (fun g c _ hc hp => by simp_all [rowCloses]) rows
  · exact filter_rejoin (fun g c hg _ _ => by simpa [rowCloses] using hg) rows
  · rw [repairToolPairs_eq, rejoin_eq_self fun i row hrow hopen => ?_]
    obtain ⟨next, hnext, hresult⟩ := h i row hrow (by simpa [rowOpens] using hopen)
    exact ⟨next, hnext, by simpa [rowCloses] using hresult⟩

theorem repairToolPairs_conserves_pair :
    repairToolPairs [(1, .toolUse, .assistant []), (2, .toolResult, .user [])]
      = [(1, .assistant []), (2, .user [])] :=
  (repairToolPairs_conserves [(1, .toolUse, .assistant []), (2, .toolResult, .user [])]).2 <| by
    intro i row hrow huse
    rcases i with _ | _ | i
    · exact ⟨_, rfl, rfl⟩
    · cases hrow
      cases huse
    · cases hrow

end Conserved

end Patom.Threads
