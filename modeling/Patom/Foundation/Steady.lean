import Mathlib.Order.Defs.PartialOrder
import Patom.Foundation.Table

/-! Programs of transactions, each of which may fail or be the last one before the process stops.
A steady program can be taken up again: what an attempt has done, the next one finds done. -/

universe u v

namespace Patom.Foundation

namespace Table

variable {ρ : Type u} {κ : Type v} [Keyed ρ κ] [DecidableEq κ]

def Kept (t t' : Table ρ) : Prop := ∀ k r, t.find? k = some r → t'.find? k = some r

theorem Kept.refl (t : Table ρ) : t.Kept t := fun _ _ h => h

theorem Kept.trans {t t' t'' : Table ρ} (h : t.Kept t') (h' : t'.Kept t'') : t.Kept t'' :=
  fun k r hr => h' k r (h k r hr)

def getOrAdd (t : Table ρ) (r : ρ) : ρ × Table ρ :=
  match t.find? (key r) with
  | some r' => (r', t)
  | none => (r, t.put r)

theorem find?_getOrAdd (t : Table ρ) (r : ρ) :
    (t.getOrAdd r).2.find? (key r) = some (t.getOrAdd r).1 := by
  unfold getOrAdd
  split
  case h_1 r' h => exact h
  case h_2 => exact t.find?_put_self r

theorem getOrAdd_kept (t : Table ρ) (r : ρ) : t.Kept (t.getOrAdd r).2 := by
  intro k r' h
  unfold getOrAdd
  split
  case h_1 => exact h
  case h_2 hnone =>
    rw [find?_put_ne t (fun e => ?_), h]
    rw [← e, hnone] at h
    cases h

theorem getOrAdd_found {t : Table ρ} {r r' : ρ} (h : t.find? (key r) = some r') :
    t.getOrAdd r = (r', t) := by
  unfold getOrAdd
  rw [h]

theorem getOrAdd_settled {t u : Table ρ} {r r' : ρ} (h : (t.getOrAdd r).2.Kept u)
    (e : key r' = key r) : u.getOrAdd r' = ((t.getOrAdd r).1, u) :=
  getOrAdd_found (e ▸ h _ _ (t.find?_getOrAdd r))

theorem addNew_kept (t : Table ρ) (r : ρ) : t.Kept (t.addNew r) := by
  intro k r' h
  rw [find?_addNew, h, Option.some_or]

theorem addNew_settled {t u : Table ρ} {r : ρ} (h : (t.addNew r).Kept u) : u.addNew r = u := by
  obtain ⟨r', hr'⟩ := Option.isSome_iff_exists.mp (t.isSome_find?_addNew r)
  unfold addNew
  rw [if_pos (Option.isSome_of_eq_some (h _ _ hr'))]

end Table

/-- What befalls a transaction: the process stops before it, it fails, or it goes through and its
answer is lost. -/
inductive Mishap
  | crash
  | fail
  | lost
  deriving DecidableEq

inductive Stop
  | crashed
  | failed
  deriving DecidableEq

abbrev Weather (φ : Type) := φ → Option Mishap

def clear {φ : Type} : Weather φ := fun _ => none

def Attempt (φ σ α : Type) := Weather φ → σ → Except Stop α × σ

namespace Attempt

variable {φ σ α β ι : Type}

def ret (a : α) : Attempt φ σ α := fun _ s => (.ok a, s)

def andThen (p : Attempt φ σ α) (k : α → Attempt φ σ β) : Attempt φ σ β := fun w s =>
  match p w s with
  | (.ok a, t) => k a w t
  | (.error e, t) => (.error e, t)

instance attemptMonad : Monad (Attempt φ σ) where
  pure := ret
  bind := andThen

def exec (site : φ) (op : σ → α × σ) : Attempt φ σ α := fun w s =>
  match w site with
  | none => (.ok (op s).1, (op s).2)
  | some .crash => (.error .crashed, s)
  | some .fail => (.error .failed, s)
  | some .lost => (.error .failed, (op s).2)

def recover (p : Attempt φ σ α) (a : α) : Attempt φ σ α := fun w s =>
  match p w s with
  | (.error .failed, t) => (.ok a, t)
  | r => r

def eachFrom (f : Nat → ι → Attempt φ σ Unit) : Nat → List ι → Attempt φ σ Unit
  | _, [] => pure ()
  | i, x :: xs => do
    f i x
    eachFrom f (i + 1) xs

def attempts (p : Attempt φ σ α) : σ → List (Weather φ) → σ
  | s, [] => s
  | s, w :: ws => attempts p (p w s).2 ws

def Returns (p : Attempt φ σ α) : σ → List (Weather φ) → Prop
  | _, [] => False
  | s, w :: ws => (∃ a, (p w s).1 = .ok a) ∨ Returns p (p w s).2 ws

@[simp] theorem pure_run (a : α) (w : Weather φ) (s : σ) :
    (pure a : Attempt φ σ α) w s = (.ok a, s) := rfl

theorem bind_run (p : Attempt φ σ α) (k : α → Attempt φ σ β) (w : Weather φ) (s : σ) :
    (p >>= k) w s = match p w s with
      | (.ok a, t) => k a w t
      | (.error e, t) => (.error e, t) := rfl

theorem bind_ok {p : Attempt φ σ α} {k : α → Attempt φ σ β} {w : Weather φ} {s t : σ} {a : α}
    (h : p w s = (.ok a, t)) : (p >>= k) w s = k a w t := by
  rw [bind_run, h]

theorem bind_error {p : Attempt φ σ α} {k : α → Attempt φ σ β} {w : Weather φ} {s t : σ} {e : Stop}
    (h : p w s = (.error e, t)) : (p >>= k) w s = (.error e, t) := by
  rw [bind_run, h]

theorem bind_assoc {γ : Type} (p : Attempt φ σ α) (k : α → Attempt φ σ β) (l : β → Attempt φ σ γ) :
    p >>= k >>= l = p >>= fun a => k a >>= l := by
  funext w s
  rw [bind_run, bind_run, bind_run]
  split
  case h_1 a t h =>
    split at h
    case h_1 h' => rw [bind_ok h]
    case h_2 => cases h
  case h_2 e t h =>
    split at h
    case h_1 h' => rw [bind_error h]
    case h_2 h' =>
      cases h
      rfl

theorem bind_pure_state (p : Attempt φ σ α) (b : β) (w : Weather φ) (s : σ) :
    ((p >>= fun _ => pure b : Attempt φ σ β) w s).2 = (p w s).2 := by
  rw [bind_run]
  split
  case h_1 _ _ e => rw [e]; rfl
  case h_2 _ _ e => rw [e]

@[simp] theorem exec_clear (site : φ) (op : σ → α × σ) (s : σ) :
    exec site op clear s = (.ok (op s).1, (op s).2) := rfl

theorem exec_none {site : φ} {w : Weather φ} (h : w site = none) (op : σ → α × σ) (s : σ) :
    exec site op w s = (.ok (op s).1, (op s).2) := by
  rw [exec, h]

theorem exec_lost {site : φ} {w : Weather φ} (h : w site = some .lost) (op : σ → α × σ) (s : σ) :
    exec site op w s = (.error .failed, (op s).2) := by
  rw [exec, h]

theorem exec_stopped {site : φ} {w : Weather φ} {f : Mishap} (h : w site = some f) (hf : f ≠ .lost)
    (op : σ → α × σ) (s : σ) : ∃ e, exec site op w s = (.error e, s) := by
  rw [exec, h]
  cases f with
  | lost => exact absurd rfl hf
  | crash => exact ⟨_, rfl⟩
  | fail => exact ⟨_, rfl⟩

theorem exec_state (site : φ) (op : σ → α × σ) (w : Weather φ) (s : σ) :
    (exec site op w s).2 = s ∨ (exec site op w s).2 = (op s).2 := by
  unfold exec
  split
  · exact .inr rfl
  · exact .inl rfl
  · exact .inl rfl
  · exact .inr rfl

theorem exec_ok {site : φ} {op : σ → α × σ} {w : Weather φ} {s t : σ} {a : α}
    (h : exec site op w s = (.ok a, t)) : a = (op s).1 ∧ t = (op s).2 := by
  unfold exec at h
  split at h <;> cases h
  exact ⟨rfl, rfl⟩

theorem recover_state (p : Attempt φ σ α) (a : α) (w : Weather φ) (s : σ) :
    (recover p a w s).2 = (p w s).2 := by
  unfold recover
  split
  case h_1 t h => rw [h]
  case h_2 => rfl

theorem read_stopped {site : φ} {w : Weather φ} {f : Mishap} (h : w site = some f) (g : σ → α)
    (s : σ) : ∃ e, exec site (fun s => (g s, s)) w s = (.error e, s) := by
  by_cases hf : f = .lost
  · exact ⟨_, exec_lost (hf ▸ h) _ s⟩
  · exact exec_stopped h hf _ s

section Keeps

def Keeps (I : σ → Prop) (p : Attempt φ σ α) : Prop := ∀ w s, I s → I (p w s).2

variable {I : σ → Prop}

theorem Keeps.pure (a : α) : Keeps I (pure a : Attempt φ σ α) := fun _ _ h => h

theorem Keeps.bind {p : Attempt φ σ α} {k : α → Attempt φ σ β} (hp : Keeps I p)
    (hk : ∀ a, Keeps I (k a)) : Keeps I (p >>= k) := by
  intro w s hs
  have ht := hp w s hs
  rw [bind_run]
  split
  case h_1 a t h =>
    rw [h] at ht
    exact hk a w t ht
  case h_2 e t h =>
    rw [h] at ht
    exact ht

theorem Keeps.exec (site : φ) {op : σ → α × σ} (h : ∀ s, I s → I (op s).2) :
    Keeps I (exec site op) := by
  intro w s hs
  unfold Attempt.exec
  split
  · exact h s hs
  · exact hs
  · exact hs
  · exact h s hs

theorem Keeps.recover {p : Attempt φ σ α} (hp : Keeps I p) (a : α) : Keeps I (recover p a) := by
  intro w s hs
  have ht := hp w s hs
  unfold Attempt.recover
  split
  case h_1 t h =>
    rw [h] at ht
    exact ht
  case h_2 => exact ht

theorem Keeps.eachFrom {f : Nat → ι → Attempt φ σ Unit} (hf : ∀ i x, Keeps I (f i x)) (i : Nat)
    (xs : List ι) : Keeps I (eachFrom f i xs) := by
  induction xs generalizing i with
  | nil => exact .pure ()
  | cons x xs ih => exact .bind (hf i x) fun _ => ih (i + 1)

end Keeps

section Unfailing

variable {F : Weather φ → Prop}

def Unfailing (F : Weather φ → Prop) (p : Attempt φ σ α) : Prop :=
  ∀ w s, F w → (p w s).1 ≠ .error .failed

theorem Unfailing.pure (a : α) : Unfailing F (pure a : Attempt φ σ α) := fun _ _ _ h => by cases h

theorem Unfailing.bind {p : Attempt φ σ α} {k : α → Attempt φ σ β} (hp : Unfailing F p)
    (hk : ∀ a, Unfailing F (k a)) : Unfailing F (p >>= k) := by
  intro w s hw
  have hs := hp w s hw
  rw [bind_run]
  split
  case h_1 a t h => exact hk a w t hw
  case h_2 e t h =>
    rw [h] at hs
    intro e'
    exact hs (congrArg Except.error (Except.error.inj e'))

theorem Unfailing.exec {site : φ} (h : ∀ w, F w → w site = none ∨ w site = some .crash)
    (op : σ → α × σ) : Unfailing F (exec site op) := by
  intro w s hw
  unfold Attempt.exec
  obtain e | e := h w hw <;> rw [e] <;> exact fun h => by cases h

theorem Unfailing.eachFrom {f : Nat → ι → Attempt φ σ Unit} (hf : ∀ i x, Unfailing F (f i x))
    (i : Nat) (xs : List ι) : Unfailing F (eachFrom f i xs) := by
  induction xs generalizing i with
  | nil => exact .pure ()
  | cons x xs ih => exact .bind (hf i x) fun _ => ih (i + 1)

theorem Unfailing.recover {p : Attempt φ σ α} (hp : Unfailing F p) (a : α) {w : Weather φ} {s : σ}
    (hw : F w) : recover p a w s = p w s := by
  unfold Attempt.recover
  split
  case h_1 t h => exact absurd (congrArg Prod.fst h) (hp w s hw)
  case h_2 => rfl

end Unfailing

section Sure

variable {F : Weather φ → Prop}

/-- In the weather `F`, an attempt that returns has done all there is to do. -/
def Sure (F : Weather φ → Prop) (p : Attempt φ σ α) : Prop :=
  ∀ w s a, F w → (p w s).1 = .ok a → p w s = p clear s

theorem Sure.pure (a : α) : Sure F (pure a : Attempt φ σ α) := fun _ _ _ _ _ => rfl

theorem Sure.bind {p : Attempt φ σ α} {k : α → Attempt φ σ β} (hp : Sure F p)
    (hk : ∀ a, Sure F (k a)) : Sure F (p >>= k) := by
  intro w s b hw h
  rw [bind_run] at h
  split at h
  case h_1 a t e =>
    have hc := hp w s a hw (congrArg Prod.fst e)
    rw [bind_ok e, bind_ok (hc.symm.trans e)]
    exact hk a w t b hw h
  case h_2 => cases h

theorem Sure.exec (site : φ) (op : σ → α × σ) : Sure F (exec site op) := by
  intro w s a _ h
  unfold Attempt.exec at h ⊢
  split at h
  case h_1 => rfl
  all_goals cases h

theorem Sure.recover (hF : F clear) {p : Attempt φ σ α} (hp : Sure F p) (hu : Unfailing F p)
    (a : α) : Sure F (recover p a) := by
  intro w s b hw h
  rw [hu.recover a hw] at h ⊢
  rw [hu.recover a hF]
  exact hp w s b hw h

end Sure

section Steady

variable [Preorder σ] {F : Weather φ → Prop}

/-- The state order says what has been done.  An attempt that stopped is resumed to the outcome that
an undisturbed one has. -/
structure Resumes (F : Weather φ → Prop) (p : Attempt φ σ α) : Prop where
  sure : Sure F p
  grows : ∀ s, Keeps (s ≤ ·) p
  resume : ∀ w s, F w → p clear (p w s).2 = p clear s

structure Steady (F : Weather φ → Prop) (p : Attempt φ σ α) : Prop extends Resumes F p where
  settled : ∀ s a t u, p clear s = (.ok a, t) → t ≤ u → p clear u = (.ok a, u)

structure Ensures (op : σ → α × σ) : Prop where
  grows : ∀ s, s ≤ (op s).2
  settled : ∀ s t, (op s).2 ≤ t → op t = ((op s).1, t)

theorem Resumes.le {p : Attempt φ σ α} (h : Resumes F p) (w : Weather φ) (s : σ) : s ≤ (p w s).2 :=
  h.grows s w s le_rfl

theorem Ensures.const (a : α) : Ensures fun s : σ => (a, s) :=
  ⟨le_refl, fun _ _ _ => rfl⟩

theorem Steady.pure (a : α) : Steady F (pure a : Attempt φ σ α) where
  sure := .pure a
  grows _ := .pure a
  resume _ _ _ := rfl
  settled _ _ _ _ h _ := by cases h; rfl

theorem Resumes.exec (site : φ) {op : σ → α × σ} (hgrows : ∀ s, s ≤ (op s).2)
    (hagain : ∀ s, op (op s).2 = op s) : Resumes F (exec site op) where
  sure := .exec site op
  grows _ := .exec site fun t ht => ht.trans (hgrows t)
  resume w s _ := by
    obtain hs | hs := exec_state site op w s
    · rw [hs]
    · rw [hs, exec_clear, exec_clear, hagain]

theorem Ensures.steady {op : σ → α × σ} (h : Ensures op) (site : φ) : Steady F (exec site op) where
  toResumes := .exec site h.grows fun s => h.settled s _ le_rfl
  settled s a t u e htu := by
    cases e
    rw [exec_clear, h.settled s u htu]

theorem Resumes.bind {p : Attempt φ σ α} {k : α → Attempt φ σ β} (hp : Steady F p)
    (hk : ∀ a, Resumes F (k a)) : Resumes F (p >>= k) where
  sure := .bind hp.sure fun a => (hk a).sure
  grows s := .bind (hp.grows s) fun a => (hk a).grows s
  resume w s hw := by
    cases e : p w s with
    | mk r t =>
      cases r with
      | error e' =>
        have hc : p clear t = p clear s := by simpa [e] using hp.resume w s hw
        rw [bind_error e, bind_run, bind_run, hc]
      | ok a =>
        have hc : p clear s = (.ok a, t) := (hp.sure w s a hw (congrArg Prod.fst e)).symm.trans e
        rw [bind_ok e, bind_ok (hp.settled s a t _ hc ((hk a).le w t)), bind_ok hc]
        exact (hk a).resume w t hw

theorem Steady.bind {p : Attempt φ σ α} {k : α → Attempt φ σ β} (hp : Steady F p)
    (hk : ∀ a, Steady F (k a)) : Steady F (p >>= k) where
  toResumes := .bind hp fun a => (hk a).toResumes
  settled s b t u h htu := by
    rw [bind_run] at h
    split at h
    case h_2 => cases h
    case h_1 a t' e =>
      have htt : t' ≤ t := by simpa [h] using (hk a).le clear t'
      rw [bind_ok (hp.settled s a t' u e (htt.trans htu))]
      exact (hk a).settled t' b t u h htu

theorem Steady.eachFrom {f : Nat → ι → Attempt φ σ Unit} (hf : ∀ i x, Steady F (f i x)) (i : Nat)
    (xs : List ι) : Steady F (eachFrom f i xs) := by
  induction xs generalizing i with
  | nil => exact .pure ()
  | cons x xs ih => exact .bind (hf i x) fun _ => ih (i + 1)

theorem Resumes.recover (hF : F clear) {p : Attempt φ σ α} (hp : Resumes F p) (hu : Unfailing F p)
    (a : α) : Resumes F (recover p a) where
  sure := hp.sure.recover hF hu a
  grows s := (hp.grows s).recover a
  resume w s hw := by
    rw [hu.recover a hw, hu.recover a hF, hu.recover a hF]
    exact hp.resume w s hw

theorem Steady.read {f : σ → β} {k : β → Attempt φ σ α} (hk : ∀ b, Steady F (k b)) (site : φ)
    (hread : ∀ s t, s ≤ t → k (f t) clear t = k (f s) clear t) :
    Steady F (exec site (fun s => (f s, s)) >>= k) where
  sure := .bind (.exec site _) fun b => (hk b).sure
  grows s := .bind (.exec site fun _ h => h) fun b => (hk b).grows s
  resume w s hw := by
    have hread' : exec site (fun s : σ => (f s, s)) w s = (.ok (f s), s) ∨
        ∃ e, exec site (fun s : σ => (f s, s)) w s = (.error e, s) := by
      unfold Attempt.exec
      split
      · exact .inl rfl
      all_goals exact .inr ⟨_, rfl⟩
    obtain e | ⟨_, e⟩ := hread'
    · rw [bind_ok e, bind_ok (exec_clear _ _ _), bind_ok (exec_clear _ _ _),
        hread s _ ((hk (f s)).le w s)]
      exact (hk (f s)).resume w s hw
    · rw [bind_error e]
  settled s a t u h htu := by
    have h' : k (f s) clear s = (.ok a, t) := h
    have hst : s ≤ t := by simpa [h'] using (hk (f s)).le clear s
    show k (f u) clear u = (.ok a, u)
    rw [hread s u (hst.trans htu)]
    exact (hk (f s)).settled s a t u h' htu

/-- After an attempt that returns, the others find nothing to do. -/
theorem Steady.attempts_settled {p : Attempt φ σ α} (hp : Steady F p) {a : α} {s : σ}
    (h : p clear s = (.ok a, s)) {ws : List (Weather φ)} (hws : ∀ w ∈ ws, F w) :
    attempts p s ws = s := by
  induction ws with
  | nil => rfl
  | cons w ws ih =>
    have hagain := hp.settled s a s _ h (hp.le w s)
    rw [hp.resume w s (hws w List.mem_cons_self), h] at hagain
    rw [attempts, ← (Prod.mk.inj hagain).2]
    exact ih fun w hw => hws w (List.mem_cons_of_mem _ hw)

/-- However often it is attempted, once an attempt has returned the state is that of one. -/
theorem Steady.attempts_eq {p : Attempt φ σ α} (hp : Steady F p) {s : σ}
    {ws : List (Weather φ)} (hws : ∀ w ∈ ws, F w) (h : Returns p s ws) :
    attempts p s ws = (p clear s).2 := by
  induction ws generalizing s with
  | nil => exact h.elim
  | cons w ws ih =>
    have hw := hws w List.mem_cons_self
    have hws' : ∀ w ∈ ws, F w := fun w hw => hws w (List.mem_cons_of_mem _ hw)
    obtain ⟨a, ha⟩ | h := h
    · have hc := hp.sure w s a hw ha
      have hdone : p clear s = (.ok a, (p w s).2) := by
        rw [← hc]
        exact Prod.ext ha rfl
      rw [attempts, hp.attempts_settled (hp.settled s a _ _ hdone le_rfl) hws', hc]
    · rw [attempts, ih hws' h, hp.resume w s hw]

end Steady

theorem attempts_congr {F : Weather φ → Prop} {I : σ → Prop} {p q : Attempt φ σ α} (hI : Keeps I q)
    (h : ∀ w s, F w → I s → p w s = q w s) {s : σ} (hs : I s) {ws : List (Weather φ)}
    (hws : ∀ w ∈ ws, F w) :
    attempts p s ws = attempts q s ws ∧ (Returns p s ws ↔ Returns q s ws) := by
  induction ws generalizing s with
  | nil => exact ⟨rfl, .rfl⟩
  | cons w ws ih =>
    obtain ⟨hstate, hreturns⟩ := ih (hI w s hs) fun w hw => hws w (List.mem_cons_of_mem _ hw)
    rw [attempts, attempts, Returns, Returns, h w s (hws w List.mem_cons_self) hs]
    exact ⟨hstate, or_congr_right hreturns⟩

end Attempt

end Patom.Foundation
