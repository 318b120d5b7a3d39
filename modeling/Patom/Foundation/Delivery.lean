import Mathlib.Tactic
import Patom.Foundation.Table

/-! Deliveries that may come again: a receiver keeps the keys it has taken and each delivery acts on
one slot.  And deliveries that may be lost: a receiver of a broadcast that falls behind is told so. -/

universe u v w x

namespace Patom.Foundation

section Firsts

variable {α : Type u} {κ : Type v} [DecidableEq κ] (key : α → κ)

def firstsFrom (seen : List κ) : List α → List α
  | [] => []
  | a :: as => if key a ∈ seen then firstsFrom seen as else a :: firstsFrom (seen ++ [key a]) as

def firsts (as : List α) : List α := firstsFrom key [] as

variable {key}

@[simp]
theorem firstsFrom_nil (seen : List κ) : firstsFrom key seen [] = [] := rfl

theorem firstsFrom_cons (seen : List κ) (a : α) (as : List α) :
    firstsFrom key seen (a :: as) =
      if key a ∈ seen then firstsFrom key seen as
      else a :: firstsFrom key (seen ++ [key a]) as := rfl

theorem firstsFrom_congr {seen seen' : List κ} {as : List α}
    (h : ∀ a ∈ as, key a ∈ seen ↔ key a ∈ seen') :
    firstsFrom key seen as = firstsFrom key seen' as := by
  induction as generalizing seen seen' with
  | nil => rfl
  | cons a as ih =>
    have hrest : ∀ b ∈ as, key b ∈ seen ↔ key b ∈ seen' := fun b hb => h b (List.mem_cons_of_mem a hb)
    have hsnoc : ∀ b ∈ as, key b ∈ seen ++ [key a] ↔ key b ∈ seen' ++ [key a] := fun b hb => by
      rw [List.mem_append, List.mem_append, hrest b hb]
    simp only [firstsFrom_cons, h a List.mem_cons_self, ih hrest, ih hsnoc]

theorem mem_keys_firstsFrom {seen : List κ} {as : List α} {k : κ} :
    k ∈ (firstsFrom key seen as).map key ↔ k ∈ as.map key ∧ k ∉ seen := by
  induction as generalizing seen with
  | nil => simp
  | cons a as ih =>
    rw [firstsFrom_cons]
    split
    case isTrue h =>
      rw [ih, List.map_cons, List.mem_cons]
      constructor
      · exact fun ⟨hk, hs⟩ => ⟨.inr hk, hs⟩
      · rintro ⟨rfl | hk, hs⟩
        · exact absurd h hs
        · exact ⟨hk, hs⟩
    case isFalse h =>
      rw [List.map_cons, List.mem_cons, ih, List.map_cons, List.mem_cons]
      by_cases e : k = key a
      · subst e
        simp [h]
      · simp [e]

theorem firstsFrom_append (seen : List κ) (as bs : List α) :
    firstsFrom key seen (as ++ bs) =
      firstsFrom key seen as ++ firstsFrom key (seen ++ (firstsFrom key seen as).map key) bs := by
  induction as generalizing seen with
  | nil => simp
  | cons a as ih =>
    rw [List.cons_append, firstsFrom_cons, firstsFrom_cons]
    split
    · exact ih seen
    · rw [ih, List.cons_append, List.map_cons, List.append_assoc, List.singleton_append]

theorem firstsFrom_eq_self {seen : List κ} {as : List α} (hnew : ∀ a ∈ as, key a ∉ seen)
    (hnodup : (as.map key).Nodup) : firstsFrom key seen as = as := by
  induction as generalizing seen with
  | nil => rfl
  | cons a as ih =>
    obtain ⟨ha, hnodup⟩ := List.nodup_cons.mp hnodup
    rw [firstsFrom_cons, if_neg (hnew a List.mem_cons_self), ih (fun b hb => ?_) hnodup]
    simp only [List.mem_append, List.mem_singleton, not_or]
    exact ⟨hnew b (List.mem_cons_of_mem a hb), fun e => ha (e ▸ List.mem_map_of_mem hb)⟩

theorem filter_firstsFrom {p : α → Bool} (hp : ∀ a b, key a = key b → p a = p b) (seen : List κ)
    (as : List α) : (firstsFrom key seen as).filter p = firstsFrom key seen (as.filter p) := by
  induction as generalizing seen with
  | nil => rfl
  | cons a as ih =>
    rw [firstsFrom_cons]
    by_cases hs : key a ∈ seen
    · rw [if_pos hs, ih]
      by_cases ha : p a
      · rw [List.filter_cons_of_pos ha, firstsFrom_cons, if_pos hs]
      · rw [List.filter_cons_of_neg ha]
    · rw [if_neg hs]
      by_cases ha : p a
      · rw [List.filter_cons_of_pos ha, List.filter_cons_of_pos ha, firstsFrom_cons, if_neg hs, ih]
      · rw [List.filter_cons_of_neg ha, List.filter_cons_of_neg ha, ih]
        refine firstsFrom_congr fun b hb => ?_
        have hne : key b ≠ key a := fun e => ha (hp _ _ e ▸ (List.mem_filter.mp hb).2)
        simp [hne]

theorem firstsFrom_comp (key : α → κ) {κ' : Type w} [DecidableEq κ'] {f : κ → κ'}
    (hf : f.Injective) (seen : List κ) (as : List α) :
    firstsFrom (fun a => f (key a)) (seen.map f) as = firstsFrom key seen as := by
  induction as generalizing seen with
  | nil => rfl
  | cons a as ih =>
    have hsnoc : seen.map f ++ [f (key a)] = (seen ++ [key a]).map f := by simp
    simp only [firstsFrom_cons, List.mem_map_of_injective hf, hsnoc, ih]

theorem mem_keys_firsts (key : α → κ) {as : List α} {k : κ} :
    k ∈ (firsts key as).map key ↔ k ∈ as.map key := by
  rw [firsts, mem_keys_firstsFrom]
  exact and_iff_left List.not_mem_nil

theorem firsts_concat (as : List α) (a : α) :
    firsts key (as ++ [a]) =
      if key a ∈ as.map key then firsts key as else firsts key as ++ [a] := by
  rw [firsts, firstsFrom_append, ← firsts, List.nil_append]
  by_cases h : key a ∈ as.map key
  · rw [if_pos h, firstsFrom_cons, if_pos ((mem_keys_firsts key).mpr h), firstsFrom_nil, List.append_nil]
  · rw [if_neg h, firstsFrom_cons, if_neg fun h' => h ((mem_keys_firsts key).mp h'), firstsFrom_nil]

end Firsts

/-- How deliveries act: each has a key, is for one slot, and changes the slot's value, or begins it. -/
structure Inbox (α : Type u) (κ : Type v) (ι : Type w) (σ : Type x) where
  key : α → κ
  slot : α → ι
  init : α → σ
  act : σ → α → σ

structure Received (κ : Type v) (ι : Type w) (σ : Type x) where
  seen : List κ
  slots : ι → Option σ

namespace Inbox

variable {α : Type u} {κ : Type v} {ι : Type w} {σ : Type x} (box : Inbox α κ ι σ)

def value (v : Option σ) (as : List α) : Option σ :=
  as.foldl (fun v a => some (box.act (v.getD (box.init a)) a)) v

theorem value_some (v : σ) (as : List α) : box.value (some v) as = some (as.foldl box.act v) := by
  induction as generalizing v with
  | nil => rfl
  | cons a as ih => exact ih _

theorem value_none_cons (a : α) (as : List α) :
    box.value none (a :: as) = some ((a :: as).foldl box.act (box.init a)) := value_some box _ as

variable [DecidableEq ι]

def accept (r : Received κ ι σ) (a : α) : Received κ ι σ where
  seen := r.seen ++ [box.key a]
  slots := Function.update r.slots (box.slot a)
    (some (box.act ((r.slots (box.slot a)).getD (box.init a)) a))

theorem accept_slots (as : List α) (r : Received κ ι σ) (i : ι) :
    (as.foldl box.accept r).slots i = box.value (r.slots i) (as.filter fun a => box.slot a = i) := by
  induction as generalizing r with
  | nil => rfl
  | cons a as ih =>
    rw [List.foldl_cons, ih]
    by_cases h : box.slot a = i
    · subst h
      simp [accept, value]
    · rw [List.filter_cons_of_neg (by simpa using h)]
      simp [accept, Function.update_of_ne (Ne.symm h)]

variable [DecidableEq κ]

def receive (r : Received κ ι σ) (a : α) : Received κ ι σ :=
  if box.key a ∈ r.seen then r else box.accept r a

theorem receive_old {r : Received κ ι σ} {a : α} (h : box.key a ∈ r.seen) : box.receive r a = r :=
  if_pos h

theorem receive_new {r : Received κ ι σ} {a : α} (h : box.key a ∉ r.seen) :
    box.receive r a = box.accept r a := if_neg h

theorem receive_run (as : List α) (r : Received κ ι σ) :
    as.foldl box.receive r = (firstsFrom box.key r.seen as).foldl box.accept r := by
  induction as generalizing r with
  | nil => rfl
  | cons a as ih =>
    rw [List.foldl_cons, ih, receive, firstsFrom_cons]
    split
    · rfl
    · rfl

/-- A slot's value is told by the first ones among its own deliveries: neither what comes again nor
what comes between them for other slots matters. -/
theorem receive_slots (hkey : ∀ a b, box.key a = box.key b → box.slot a = box.slot b) (as : List α)
    (r : Received κ ι σ) (i : ι) :
    (as.foldl box.receive r).slots i =
      box.value (r.slots i) (firstsFrom box.key r.seen (as.filter fun a => box.slot a = i)) := by
  rw [receive_run, accept_slots, filter_firstsFrom]
  intro a b h
  simp [hkey a b h]

end Inbox

/-- A receiver of a broadcast channel: what is kept for it, and whether older values were overwritten. -/
structure Receiver (α : Type u) where
  queue : List α
  lagged : Bool
  deriving DecidableEq

namespace Receiver

variable {α : Type u}

def new : Receiver α := ⟨[], false⟩

/-- A send to a full receiver overwrites the oldest value. -/
def offer (capacity : Nat) (r : Receiver α) (a : α) : Receiver α :=
  if r.queue.length < capacity then { r with queue := r.queue ++ [a] }
  else ⟨r.queue.tail ++ [a], true⟩

/-- `none` tells that values were overwritten. -/
def poll (r : Receiver α) : Option (Option α × Receiver α) :=
  if r.lagged then some (none, { r with lagged := false })
  else
    match r.queue with
    | [] => none
    | a :: queue => some (some a, { r with queue })

/-- What has come out of what was sent: a mark stands wherever something is missing. -/
inductive Marked : List α → List (Option α) → Prop
  | nil : Marked [] []
  | got {sent : List α} {out : List (Option α)} (a : α) :
      Marked sent out → Marked (sent ++ [a]) (out ++ [some a])
  | lost {sent gone : List α} {out : List (Option α)} :
      Marked sent out → gone ≠ [] → Marked (sent ++ gone) (out ++ [none])

theorem Marked.sublist {sent : List α} {out : List (Option α)} (h : Marked sent out) :
    (out.filterMap id).Sublist sent := by
  induction h with
  | nil => exact .slnil
  | got a _ ih => simpa using ih.append_right [a]
  | lost _ _ ih => simpa using ih.trans (List.sublist_append_left _ _)

theorem Marked.complete {sent : List α} {out : List (Option α)} (h : Marked sent out)
    (hout : none ∉ out) : out = sent.map some := by
  induction h with
  | nil => rfl
  | got a _ ih =>
    rw [ih fun hn => hout (List.mem_append_left _ hn), List.map_append, List.map_singleton]
  | lost => exact absurd (List.mem_append_right _ (List.mem_singleton.mpr rfl)) hout

structure Behind (capacity : Nat) (sent : List α) (out : List (Option α)) (r : Receiver α) : Prop where
  taken : ∃ taken gone, Marked taken out ∧ sent = taken ++ gone ++ r.queue ∧
    (r.lagged = true ↔ gone ≠ [])
  bounded : r.queue.length ≤ capacity

theorem Behind.new (capacity : Nat) : Behind capacity [] [] (Receiver.new : Receiver α) :=
  ⟨⟨[], [], .nil, rfl, by simp [Receiver.new]⟩, Nat.zero_le _⟩

variable {capacity : Nat} {sent : List α} {out : List (Option α)} {r : Receiver α}

theorem Behind.offer (h : Behind capacity sent out r) (hcap : 0 < capacity) (a : α) :
    Behind capacity (sent ++ [a]) out (r.offer capacity a) := by
  obtain ⟨⟨taken, gone, hmarked, rfl, hlagged⟩, hbound⟩ := h
  unfold Receiver.offer
  split
  case isTrue hroom =>
    refine ⟨⟨taken, gone, hmarked, by simp, hlagged⟩, ?_⟩
    rw [List.length_append, List.length_singleton]
    exact hroom
  case isFalse hfull =>
    obtain ⟨oldest, rest, hqueue⟩ := List.exists_cons_of_length_pos (hcap.trans_le (Nat.le_of_not_lt hfull))
    refine ⟨⟨taken, gone ++ [oldest], hmarked, by simp [hqueue], by simp⟩, ?_⟩
    rw [hqueue, List.length_cons] at hbound
    simpa [hqueue] using hbound

theorem Behind.poll (h : Behind capacity sent out r) {got : Option α} {r' : Receiver α}
    (hpoll : r.poll = some (got, r')) : Behind capacity sent (out ++ [got]) r' := by
  obtain ⟨⟨taken, gone, hmarked, rfl, hlagged⟩, hbound⟩ := h
  unfold Receiver.poll at hpoll
  split at hpoll
  case isTrue hlag =>
    cases hpoll
    exact ⟨⟨taken ++ gone, [], hmarked.lost (hlagged.mp hlag), by simp, by simp⟩, hbound⟩
  case isFalse hlag =>
    have hgone : gone = [] := of_not_not fun h => hlag (hlagged.mpr h)
    subst hgone
    split at hpoll
    case h_1 => cases hpoll
    case h_2 a queue hqueue =>
      cases hpoll
      rw [hqueue, List.length_cons] at hbound
      refine ⟨⟨taken ++ [a], [], hmarked.got a, by simp [hqueue], by simpa using hlag⟩, ?_⟩
      exact Nat.le_of_succ_le hbound

end Receiver

end Patom.Foundation
