import Mathlib.Data.List.MinMax
import Patom.Foundation.Table
import Patom.Foundation.Transition
import Patom.Types

open Patom.Foundation

namespace Patom.Mcp.RateLimit

def MCP_TEST_CONNECT_PER_MIN : Nat := 10
def MCP_TEST_CONNECT_BUCKETS_MAX : Nat := 4096
def WINDOW : Nat := 60 * 1000000000

structure Bucket where
  user : UserId
  samples : List Nat
  lastTouched : Nat
  deriving DecidableEq

instance bucketKeyed : Keyed Bucket UserId := ⟨(·.user)⟩

/-- The order in which the map is gone through, which is not specified. -/
structure IterOrder where
  of : List Bucket → List Bucket
  perm : ∀ bs, (of bs).Perm bs

/-- `checked_sub` -/
def cutoff (now : Nat) : Option Nat := if WINDOW ≤ now then some (now - WINDOW) else none

def Bucket.prune (cutoff : Option Nat) (b : Bucket) : Bucket :=
  match cutoff with
  | some cutoff => { b with samples := b.samples.dropWhile (· < cutoff) }
  | none => b

def touch (user : UserId) (now : Nat) (buckets : Table Bucket) : Bucket :=
  let bucket := (buckets.find? user).getD ⟨user, [], now⟩
  Bucket.prune (cutoff now) { bucket with lastTouched := now }

def evict (order : IterOrder) (user : UserId) (buckets : Table Bucket) : Table Bucket :=
  if MCP_TEST_CONNECT_BUCKETS_MAX < buckets.rows.length then
    match ((order.of buckets.rows).filter (·.user ≠ user)).argmin (·.lastTouched) with
    | some victim => buckets.delete (·.user = victim.user)
    | none => buckets
  else buckets

/-- `none` where the assertion fails. -/
def tryAdmit (order : IterOrder) (user : UserId) (now : Nat) (buckets : Table Bucket) :
    Option (Table Bucket × Bool) :=
  let bucket := touch user now buckets
  if MCP_TEST_CONNECT_PER_MIN < bucket.samples.length then none
  else if MCP_TEST_CONNECT_PER_MIN ≤ bucket.samples.length then some (buckets.put bucket, false)
  else
    let bucket := { bucket with samples := bucket.samples ++ [now] }
    some (evict order user (buckets.put bucket), true)

structure Attempt where
  user : UserId
  time : Nat
  admitted : Bool
  deriving DecidableEq

structure LimiterSt where
  clock : Nat
  buckets : Table Bucket
  log : List Attempt

def LimiterSt.init : LimiterSt := ⟨0, .empty, []⟩

structure Call where
  user : UserId
  now : Nat
  order : IterOrder

def limiterStep : Step LimiterSt Call := fun s c =>
  if s.clock ≤ c.now then
    (tryAdmit c.order c.user c.now s.buckets).map fun (buckets, admitted) =>
      ⟨c.now, buckets, s.log ++ [⟨c.user, c.now, admitted⟩]⟩
  else none

def admitted (log : List Attempt) (user : UserId) : List Nat :=
  (log.filter fun a => a.user = user && a.admitted).map (·.time)

def within (first : Nat) (times : List Nat) : Nat :=
  times.countP fun t => first ≤ t && t ≤ first + WINDOW

/-- No minute has more admitted calls of a user than there may be. -/
def Limited (s : LimiterSt) : Prop :=
  ∀ user first, within first (admitted s.log user) ≤ MCP_TEST_CONNECT_PER_MIN

def preceding (now : Nat) (times : List Nat) : Nat :=
  times.countP fun t => now ≤ t + WINDOW && t ≤ now

structure Guarded (s : LimiterSt) : Prop where
  refused : ∀ before a after, s.log = before ++ a :: after → a.admitted = false →
    MCP_TEST_CONNECT_PER_MIN ≤ preceding a.time (admitted before a.user)
  asserted : ∀ order user now, s.clock ≤ now → (tryAdmit order user now s.buckets).isSome
  bounded : s.buckets.rows.length ≤ MCP_TEST_CONNECT_BUCKETS_MAX

theorem snoc_eq_append_cons {α : Type*} {l before after : List α} {x a : α}
    (h : l ++ [x] = before ++ a :: after) :
    (l = before ∧ x = a) ∨ ∃ after, l = before ++ a :: after := by
  obtain rfl | ⟨after, y, rfl⟩ := after.eq_nil_or_concat
  · obtain ⟨hl, hx⟩ := List.append_inj' h rfl
    exact .inl ⟨hl, (List.cons.inj hx).1⟩
  · rw [List.concat_eq_append, ← List.cons_append, ← List.append_assoc] at h
    exact .inr ⟨after, (List.append_inj' h rfl).1⟩

theorem dropWhile_of_sorted {l : List Nat} (h : l.Pairwise (· ≤ ·)) (c : Nat) :
    l.dropWhile (· < c) = l.filter (c ≤ ·) := by
  induction l with
  | nil => rfl
  | cons a l ih =>
    obtain ⟨hhead, hrest⟩ := List.pairwise_cons.mp h
    by_cases ha : a < c
    · rw [List.dropWhile_cons_of_pos (by simpa using ha), ih hrest,
        List.filter_cons_of_neg (by simpa using ha)]
    · have hall : ∀ b ∈ a :: l, decide (c ≤ b) = true := by
        intro b hb
        obtain rfl | hb := List.mem_cons.mp hb
        · simpa using ha
        · exact decide_eq_true ((Nat.le_of_not_lt ha).trans (hhead b hb))
      rw [List.dropWhile_cons_of_neg (by simpa using ha), List.filter_eq_self.mpr hall]

@[simp] theorem prune_user (cutoff : Option Nat) (b : Bucket) : (b.prune cutoff).user = b.user := by
  cases cutoff <;> rfl

@[simp] theorem prune_lastTouched (cutoff : Option Nat) (b : Bucket) :
    (b.prune cutoff).lastTouched = b.lastTouched := by
  cases cutoff <;> rfl

theorem prune_samples {b : Bucket} (h : b.samples.Pairwise (· ≤ ·)) (now : Nat) :
    (b.prune (cutoff now)).samples = b.samples.filter (now ≤ · + WINDOW) := by
  unfold cutoff
  split
  · rename_i hle
    rw [Bucket.prune, dropWhile_of_sorted h]
    refine List.filter_congr fun t _ => ?_
    rw [decide_eq_decide, Nat.sub_le_iff_le_add]
  · refine (List.filter_eq_self.mpr fun t _ => ?_).symm
    exact decide_eq_true (by omega)

section Touch

variable {user : UserId} {now : Nat} {buckets : Table Bucket}

@[simp] theorem touch_user : (touch user now buckets).user = user := by
  rw [touch, prune_user]
  cases h : buckets.find? user with
  | none => rfl
  | some b => exact Table.key_of_find? h

@[simp] theorem touch_lastTouched : (touch user now buckets).lastTouched = now := by
  rw [touch, prune_lastTouched]

theorem touch_none (h : buckets.find? user = none) : (touch user now buckets).samples = [] := by
  rw [touch, h, prune_samples .nil]
  rfl

theorem touch_some {b : Bucket} (h : buckets.find? user = some b)
    (hsorted : b.samples.Pairwise (· ≤ ·)) :
    (touch user now buckets).samples = b.samples.filter (now ≤ · + WINDOW) := by
  rw [touch, h]
  exact prune_samples (b := { b with lastTouched := now }) hsorted now

theorem touch_sublist (h : ∀ b ∈ buckets, b.samples.Pairwise (· ≤ ·)) {times : List Nat}
    (hsub : ∀ b ∈ buckets, b.user = user → b.samples.Sublist times) :
    (touch user now buckets).samples.Sublist (times.filter (now ≤ · + WINDOW)) := by
  cases hfind : buckets.find? user with
  | none =>
    rw [touch_none hfind]
    exact List.nil_sublist _
  | some b =>
    have hmem := Table.mem_of_find? hfind
    rw [touch_some hfind (h b hmem)]
    exact (hsub b hmem (Table.key_of_find? hfind)).filter _

end Touch

section Evict

variable {order : IterOrder} {user : UserId} {buckets : Table Bucket}

theorem evict_subset {b : Bucket} (h : b ∈ evict order user buckets) : b ∈ buckets := by
  unfold evict at h
  split at h
  · split at h
    · exact (Table.mem_delete.mp h).1
    · exact h
  · exact h

theorem evict_of_le (h : buckets.rows.length ≤ MCP_TEST_CONNECT_BUCKETS_MAX) :
    evict order user buckets = buckets :=
  if_neg (Nat.not_lt.mpr h)

theorem length_evict (h : buckets.rows.length ≤ MCP_TEST_CONNECT_BUCKETS_MAX + 1) :
    (evict order user buckets).rows.length ≤ MCP_TEST_CONNECT_BUCKETS_MAX := by
  unfold evict
  split
  · rename_i hover
    split
    · rename_i victim hvictim
      have hmem := List.mem_of_mem_filter (List.argmin_mem hvictim)
      have hperm := Table.perm_delete (t := buckets) ((order.perm _).mem_iff.mp hmem)
      have hlen := hperm.length_eq
      rw [List.length_cons] at hlen
      refine Nat.le_of_succ_le_succ (Eq.trans_le ?_ h)
      exact hlen.symm
    · rename_i hnone
      have hall := List.filter_eq_nil_iff.mp (List.argmin_eq_none.mp hnone)
      have hone : ∀ b ∈ buckets.rows, b.user = user := fun b hb => by
        simpa using hall b ((order.perm _).mem_iff.mpr hb)
      have hlen : (buckets.rows.filter fun b => b.user = user).length ≤ 1 :=
        Table.length_filter_key_le buckets user
      rw [List.filter_eq_self.mpr fun b hb => decide_eq_true (hone b hb)] at hlen
      exact absurd (hover.trans_le hlen) (by decide)
  · exact Nat.le_of_not_lt ‹_›

end Evict

section TryAdmit

variable {order : IterOrder} {user : UserId} {now : Nat} {buckets buckets' : Table Bucket}
  {admits : Bool}

theorem tryAdmit_cases (h : tryAdmit order user now buckets = some (buckets', admits)) :
    (admits = false ∧ MCP_TEST_CONNECT_PER_MIN ≤ (touch user now buckets).samples.length ∧
      buckets' = buckets.put (touch user now buckets)) ∨
    (admits = true ∧ (touch user now buckets).samples.length < MCP_TEST_CONNECT_PER_MIN ∧
      buckets' = evict order user (buckets.put { touch user now buckets with
        samples := (touch user now buckets).samples ++ [now] })) := by
  unfold tryAdmit at h
  dsimp only at h
  split at h
  · cases h
  · split at h
    · rename_i hfull
      cases h
      exact .inl ⟨rfl, hfull, rfl⟩
    · rename_i hroom
      cases h
      exact .inr ⟨rfl, Nat.lt_of_not_le hroom, rfl⟩

theorem tryAdmit_isSome
    (h : (touch user now buckets).samples.length ≤ MCP_TEST_CONNECT_PER_MIN) :
    (tryAdmit order user now buckets).isSome := by
  unfold tryAdmit
  dsimp only
  rw [if_neg (Nat.not_lt.mpr h)]
  split <;> rfl

theorem find?_of_refused
    (h : MCP_TEST_CONNECT_PER_MIN ≤ (touch user now buckets).samples.length) :
    (buckets.find? user).isSome := by
  by_contra hnone
  rw [touch_none (Option.not_isSome_iff_eq_none.mp hnone)] at h
  exact absurd h (by decide)

end TryAdmit

section Admitted

variable {log : List Attempt} {a : Attempt} {user : UserId}

theorem admitted_snoc (log : List Attempt) (a : Attempt) (user : UserId) :
    admitted (log ++ [a]) user =
      admitted log user ++ if a.user = user ∧ a.admitted then [a.time] else [] := by
  rw [admitted, List.filter_append, List.map_append]
  congr 1
  by_cases h : a.user = user ∧ a.admitted = true <;> simp [h]

theorem admitted_snoc_ne (h : a.user ≠ user) : admitted (log ++ [a]) user = admitted log user := by
  rw [admitted_snoc, if_neg fun k => h k.1, List.append_nil]

theorem admitted_le {n : Nat} (h : ∀ a ∈ log, a.time ≤ n) : ∀ t ∈ admitted log user, t ≤ n := by
  intro t ht
  obtain ⟨a, ha, rfl⟩ := List.mem_map.mp ht
  exact h a (List.mem_of_mem_filter ha)

theorem admitted_sorted (h : log.Pairwise (·.time ≤ ·.time)) :
    (admitted log user).Pairwise (· ≤ ·) :=
  List.pairwise_map.mpr (h.sublist List.filter_sublist)

end Admitted

theorem length_filter_le_preceding {times : List Nat} {now : Nat} (h : ∀ t ∈ times, t ≤ now) :
    (times.filter (now ≤ · + WINDOW)).length ≤ preceding now times := by
  rw [← List.countP_eq_length_filter]
  refine List.countP_mono_left fun t ht hin => ?_
  rw [Bool.and_eq_true]
  exact ⟨hin, decide_eq_true (h t ht)⟩

theorem within_le {times : List Nat} {first now : Nat} (h : now ≤ first + WINDOW) :
    within first times ≤ (times.filter (now ≤ · + WINDOW)).length := by
  rw [← List.countP_eq_length_filter]
  refine List.countP_mono_left fun t _ hin => ?_
  have hfirst : first ≤ t := of_decide_eq_true (Bool.and_eq_true_iff.mp hin).1
  exact decide_eq_true (h.trans (Nat.add_le_add_right hfirst _))

theorem limiterStep_cases {s t : LimiterSt} {c : Call} (h : limiterStep s c = some t) :
    s.clock ≤ c.now ∧ ∃ buckets admits,
      tryAdmit c.order c.user c.now s.buckets = some (buckets, admits) ∧
      t = ⟨c.now, buckets, s.log ++ [⟨c.user, c.now, admits⟩]⟩ := by
  unfold limiterStep at h
  split at h
  · rename_i hclock
    obtain ⟨⟨buckets, admits⟩, htry, rfl⟩ := Option.map_eq_some_iff.mp h
    exact ⟨hclock, buckets, admits, htry, rfl⟩
  · cases h

structure LimiterInv (s : LimiterSt) : Prop where
  clock : ∀ a ∈ s.log, a.time ≤ s.clock
  ordered : s.log.Pairwise (·.time ≤ ·.time)
  samples : ∀ b ∈ s.buckets, b.samples.Sublist (admitted s.log b.user)
  short : ∀ b ∈ s.buckets, b.samples.length ≤ MCP_TEST_CONNECT_PER_MIN
  bounded : s.buckets.rows.length ≤ MCP_TEST_CONNECT_BUCKETS_MAX
  refused : ∀ before a after, s.log = before ++ a :: after → a.admitted = false →
    MCP_TEST_CONNECT_PER_MIN ≤ preceding a.time (admitted before a.user)

theorem LimiterInv.init : LimiterInv .init where
  clock := by simp [LimiterSt.init]
  ordered := .nil
  samples b hb := absurd hb (Table.not_mem_empty b)
  short b hb := absurd hb (Table.not_mem_empty b)
  bounded := Nat.zero_le _
  refused before a after h := absurd h (by simp [LimiterSt.init])

namespace LimiterInv

variable {s : LimiterSt} (hs : LimiterInv s)
include hs

theorem sorted {b : Bucket} (hb : b ∈ s.buckets) : b.samples.Pairwise (· ≤ ·) :=
  (admitted_sorted hs.ordered).sublist (hs.samples b hb)

theorem touch_sublist (user : UserId) (now : Nat) :
    (touch user now s.buckets).samples.Sublist
      ((admitted s.log user).filter (now ≤ · + WINDOW)) :=
  RateLimit.touch_sublist (fun _ => hs.sorted) fun b hb e => e ▸ hs.samples b hb

theorem touch_short (user : UserId) (now : Nat) :
    (touch user now s.buckets).samples.length ≤ MCP_TEST_CONNECT_PER_MIN := by
  cases h : s.buckets.find? user with
  | none =>
    rw [touch_none h]
    exact Nat.zero_le _
  | some b =>
    have hmem := Table.mem_of_find? h
    rw [touch_some h (hs.sorted hmem)]
    exact (List.length_filter_le _ _).trans (hs.short b hmem)

theorem step {t : LimiterSt} {c : Call} (h : limiterStep s c = some t) : LimiterInv t := by
  obtain ⟨hclock, buckets, admits, htry, rfl⟩ := limiterStep_cases h
  have htimes : ∀ a ∈ s.log, a.time ≤ c.now := fun a ha => (hs.clock a ha).trans hclock
  have hsub := hs.touch_sublist c.user c.now
  -- Another user's bucket and calls are as they were.
  have hother : ∀ b ∈ s.buckets, b.user ≠ c.user →
      b.samples.Sublist (admitted (s.log ++ [⟨c.user, c.now, admits⟩]) b.user) := by
    intro b hb hne
    rw [admitted_snoc_ne (Ne.symm hne)]
    exact hs.samples b hb
  refine
    { clock := ?_
      ordered := ?_
      samples := ?_
      short := ?_
      bounded := ?_
      refused := ?_ }
  · simpa [or_imp, forall_and] using htimes
  · refine List.pairwise_append.mpr ⟨hs.ordered, List.pairwise_singleton _ _, fun a ha b hb => ?_⟩
    obtain rfl := List.mem_singleton.mp hb
    exact htimes a ha
  · intro b hb
    obtain ⟨rfl, -, rfl⟩ | ⟨rfl, -, rfl⟩ := tryAdmit_cases htry
    · obtain rfl | ⟨hb, hne⟩ := Table.mem_put.mp hb
      · rw [touch_user, admitted_snoc, if_neg (fun h => (by cases h.2)), List.append_nil]
        exact hsub.trans List.filter_sublist
      · exact hother b hb fun e => hne (e.trans touch_user.symm)
    · obtain rfl | ⟨hb, hne⟩ := Table.mem_put.mp (evict_subset hb)
      · simp only [touch_user]
        rw [admitted_snoc, if_pos ⟨rfl, rfl⟩]
        exact (hsub.trans List.filter_sublist).append (List.Sublist.refl _)
      · exact hother b hb fun e => hne (e.trans touch_user.symm)
  · intro b hb
    obtain ⟨rfl, -, rfl⟩ | ⟨rfl, hroom, rfl⟩ := tryAdmit_cases htry
    · obtain rfl | ⟨hb, -⟩ := Table.mem_put.mp hb
      · exact hs.touch_short c.user c.now
      · exact hs.short b hb
    · obtain rfl | ⟨hb, -⟩ := Table.mem_put.mp (evict_subset hb)
      · rw [List.length_append]
        exact hroom
      · exact hs.short b hb
  · obtain ⟨rfl, hfull, rfl⟩ | ⟨rfl, -, rfl⟩ := tryAdmit_cases htry
    · obtain ⟨b, hb⟩ := Option.isSome_iff_exists.mp (find?_of_refused hfull)
      have hfound : s.buckets.find? (key (touch c.user c.now s.buckets)) = some b :=
        (congrArg s.buckets.find? touch_user).trans hb
      rw [Table.length_put, hfound]
      exact hs.bounded
    · refine length_evict ?_
      rw [Table.length_put]
      exact Nat.add_le_add hs.bounded (by split <;> decide)
  · intro before a after hlog hrefused
    obtain ⟨rfl, rfl⟩ | ⟨after, hlog⟩ := snoc_eq_append_cons hlog
    · obtain ⟨-, hfull, -⟩ | ⟨rfl, -⟩ := tryAdmit_cases htry
      · exact hfull.trans (hsub.length_le.trans
          (length_filter_le_preceding (admitted_le htimes)))
      · cases hrefused
    · exact hs.refused before a after hlog hrefused

theorem guarded : Guarded s where
  refused := hs.refused
  asserted _ user now _ := tryAdmit_isSome (hs.touch_short user now)
  bounded := hs.bounded

end LimiterInv

/-- As long as no bucket is evicted, the buckets hold all that was admitted in the minute before. -/
structure Kept (users : List UserId) (s : LimiterSt) : Prop extends LimiterInv s where
  known : ∀ b ∈ s.buckets, b.user ∈ users
  kept : ∀ user now, s.clock ≤ now →
    (touch user now s.buckets).samples = (admitted s.log user).filter (now ≤ · + WINDOW)

namespace Kept

variable {users : List UserId} {s : LimiterSt}

theorem init : Kept users .init where
  toLimiterInv := .init
  known b hb := absurd hb (Table.not_mem_empty b)
  kept _ _ _ := touch_none rfl

theorem length_le {buckets : Table Bucket} (h : ∀ b ∈ buckets, b.user ∈ users) :
    buckets.rows.length ≤ users.length := by
  have hsub : buckets.rows.map (·.user) ⊆ users := by
    intro user huser
    obtain ⟨b, hb, rfl⟩ := List.mem_map.mp huser
    exact h b hb
  rw [← List.length_map]
  exact (buckets.nodup.subperm hsub).length_le

theorem touch_put {user : UserId} {now : Nat} {buckets : Table Bucket} {b : Bucket}
    (hsorted : b.samples.Pairwise (· ≤ ·)) :
    (touch user now (buckets.put b)).samples =
      if b.user = user then b.samples.filter (now ≤ · + WINDOW)
      else (touch user now buckets).samples := by
  split
  · rename_i heq
    exact touch_some (heq ▸ Table.find?_put_self buckets b) hsorted
  · rename_i hne
    rw [touch, Table.find?_put_ne buckets hne, touch]

theorem kept_put (hs : Kept users s) {c : Call} (hclock : s.clock ≤ c.now) {admits : Bool}
    {b : Bucket} (huser : b.user = c.user)
    (hsamples : b.samples = (touch c.user c.now s.buckets).samples ++ if admits then [c.now] else [])
    (hsorted : b.samples.Pairwise (· ≤ ·)) (user : UserId) (now : Nat) (hnow : c.now ≤ now) :
    (touch user now (s.buckets.put b)).samples =
      (admitted (s.log ++ [⟨c.user, c.now, admits⟩]) user).filter (now ≤ · + WINDOW) := by
  rw [touch_put hsorted, huser]
  split
  · rename_i heq
    subst heq
    rw [hsamples, hs.kept _ _ hclock, admitted_snoc, List.filter_append, List.filter_append,
      List.filter_filter]
    congr 1
    · refine List.filter_congr fun t _ => ?_
      rw [← Bool.decide_and, decide_eq_decide]
      exact and_iff_left_of_imp hnow.trans
    · simp
  · rename_i hne
    rw [admitted_snoc_ne hne]
    exact hs.kept user now (hclock.trans hnow)

theorem step (hs : Kept users s) (hlen : users.length ≤ MCP_TEST_CONNECT_BUCKETS_MAX)
    {t : LimiterSt} {c : Call} (hmem : c.user ∈ users) (h : limiterStep s c = some t) :
    Kept users t := by
  have hinv := hs.toLimiterInv.step h
  obtain ⟨hclock, buckets, admits, htry, rfl⟩ := limiterStep_cases h
  have hknown : ∀ b : Bucket, b.user = c.user → ∀ b' ∈ s.buckets.put b, b'.user ∈ users := by
    intro b huser b' hb'
    obtain rfl | ⟨hb', -⟩ := Table.mem_put.mp hb'
    · exact huser ▸ hmem
    · exact hs.known b' hb'
  obtain ⟨rfl, -, rfl⟩ | ⟨rfl, -, rfl⟩ := tryAdmit_cases htry
  · exact
      { hinv with
        known := hknown _ touch_user
        kept := hs.kept_put hclock touch_user (List.append_nil _).symm
          (hinv.sorted (Table.mem_put.mpr (.inl rfl))) }
  · have hall := hknown { touch c.user c.now s.buckets with
      samples := (touch c.user c.now s.buckets).samples ++ [c.now] } touch_user
    rw [evict_of_le ((length_le hall).trans hlen)] at hinv ⊢
    exact
      { hinv with
        known := hall
        kept := hs.kept_put hclock touch_user rfl
          (hinv.sorted (Table.mem_put.mpr (.inl rfl))) }

theorem limited (hs : Kept users s) {t : LimiterSt} {c : Call} (h : limiterStep s c = some t)
    (hlim : Limited s) : Limited t := by
  obtain ⟨hclock, buckets, admits, htry, rfl⟩ := limiterStep_cases h
  intro user first
  obtain ⟨rfl, -⟩ | ⟨rfl, hroom, -⟩ := tryAdmit_cases htry
  · rw [admitted_snoc, if_neg (fun k => (by cases k.2)), List.append_nil]
    exact hlim user first
  · by_cases huser : c.user = user
    · subst huser
      rw [admitted_snoc, if_pos ⟨rfl, rfl⟩, within, List.countP_append]
      by_cases hin : c.now ≤ first + WINDOW
      · rw [hs.kept _ _ hclock] at hroom
        have hle : within first (admitted s.log c.user) < MCP_TEST_CONNECT_PER_MIN :=
          (within_le hin).trans_lt hroom
        exact (Nat.add_le_add_left List.countP_le_length _).trans hle
      · rw [List.countP_singleton, if_neg (by simpa using fun _ => Nat.lt_of_not_le hin)]
        exact hlim c.user first
    · rw [admitted_snoc_ne huser]
      exact hlim user first

end Kept

/-- Whatever users there are, the map is bounded and no call is refused without reason; with no
more users than buckets no minute has more admitted calls than it may. -/
theorem always_limited (calls : List Call) :
    Always limiterStep Guarded .init calls ∧
    ((calls.map (·.user)).dedup.length ≤ MCP_TEST_CONNECT_BUCKETS_MAX →
      Always limiterStep Limited .init calls) := by
  refine ⟨(Always.of_inv (fun _ _ _ hs => hs.step) LimiterInv.init calls).mono
    fun _ hs => hs.guarded, ?_⟩
  intro hlen
  let users := (calls.map (·.user)).dedup
  have hmem : ∀ _ : LimiterSt, ∀ c ∈ calls, c.user ∈ users := fun _ c hc =>
    List.mem_dedup.mpr (List.mem_map_of_mem hc)
  have hguard : Steps limiterStep (fun _ c => c.user ∈ users) .init calls := .of_forall hmem _
  have halways := Steps.always (P := fun s => Kept users s ∧ Limited s) (fun _ => True)
    (fun _ _ _ _ _ _ _ => trivial)
    (fun _ _ _ _ hP h hmem => ⟨hP.1.step hlen hmem h, hP.1.limited h hP.2⟩)
    trivial ⟨.init, fun _ _ => Nat.zero_le _⟩ hguard
  exact halways.mono fun _ => And.right

def IterOrder.rows : IterOrder := ⟨id, .refl⟩

def burst (user : UserId) : List Call :=
  (List.range 12).map fun i => ⟨user, WINDOW + i, .rows⟩

theorem always_limited_burst :
    Always limiterStep Limited .init (burst 1) :=
  (always_limited (burst 1)).2 (by decide)

example : (run limiterStep .init (burst 1)).map (·.log.countP (·.admitted)) = some 10 := by decide

end Patom.Mcp.RateLimit
