import Patom.AgentCore.Folds

open Patom.Provider
open Patom.Threads

namespace Patom.AgentCore

def rowTokens (rows : List TailRow) : Nat := (rows.map fun row => messageTokens row.message).sum

def suffixTokens (rows : List TailRow) (n : Nat) : Nat := rowTokens (rows.drop (rows.length - n))

/-- The last `n` rows may be kept: within the budget, or within the slack where every row that
goes past the budget is important; the newest may be kept alone. `meter` reads a sum off. -/
structure Keeps (meter : Nat → Nat) (rows : List TailRow) (keepBudget n : Nat) : Prop where
  pos : 1 ≤ n
  le : n ≤ max rows.length 1
  within : meter (suffixTokens rows n) ≤ keepBudget ∨ n = 1 ∨
    meter (suffixTokens rows n) ≤ meter (keepBudget + IMPORTANCE_KEEP_SLACK) ∧
      ∀ k, 1 < k → k ≤ n → keepBudget < meter (suffixTokens rows k) →
        ∃ row, rows[rows.length - k]? = some row ∧ isImportantRow row.message

section Saturate

theorem saturate_le_self (n : Nat) : saturate n ≤ n := Nat.min_le_left n U32_MAX

theorem saturate_add (m n : Nat) : saturate (saturate m + n) = saturate (m + n) := by
  unfold saturate
  omega

theorem saturate_le_iff {n b : Nat} (h : b < U32_MAX ∨ n ≤ U32_MAX) : saturate n ≤ b ↔ n ≤ b := by
  unfold saturate
  omega

end Saturate

section Suffix

variable {rows : List TailRow} {k n : Nat}

theorem suffixTokens_mono (h : k ≤ n) : suffixTokens rows k ≤ suffixTokens rows n := by
  have hdrop : (rows.drop (rows.length - k)).Sublist (rows.drop (rows.length - n)) :=
    List.drop_sublist_drop_left rows (by omega)
  exact (hdrop.map _).sum_le_sum fun _ _ => Nat.zero_le _

theorem suffixTokens_eq (rows : List TailRow) (n : Nat) :
    suffixTokens rows n = rowTokens (rows.reverse.take n) := by
  rw [suffixTokens, rowTokens, rowTokens, List.take_reverse, List.map_reverse, List.sum_reverse]

end Suffix

section Walk

variable {keepBudget k n : Nat}

def Passes (newest : List TailRow) (keepBudget k : Nat) : Prop :=
  saturate (rowTokens (newest.take k)) ≤ keepBudget ∨ k = 1 ∨
    saturate (rowTokens (newest.take k)) ≤ saturate (keepBudget + IMPORTANCE_KEEP_SLACK) ∧
      ∃ row, newest[k - 1]? = some row ∧ isImportantRow row.message

theorem rowTokens_snoc (rows : List TailRow) (row : TailRow) :
    rowTokens (rows ++ [row]) = rowTokens rows + messageTokens row.message := by
  simp [rowTokens]

theorem passes_next {seen rest : List TailRow} {row : TailRow} :
    Passes (seen ++ row :: rest) keepBudget (seen.length + 1) ↔
      saturate (rowTokens seen + messageTokens row.message) ≤ keepBudget ∨ seen.length = 0 ∨
        saturate (rowTokens seen + messageTokens row.message)
          ≤ saturate (keepBudget + IMPORTANCE_KEEP_SLACK) ∧ isImportantRow row.message := by
  have htake : (seen ++ row :: rest).take (seen.length + 1) = seen ++ [row] := by
    simp [List.take_append]
  simp [Passes, htake, rowTokens_snoc]

theorem keepFrom_spec (keepBudget : Nat) (seen rest : List TailRow) :
    let n := keepFrom keepBudget (saturate (rowTokens seen)) seen.length rest
    seen.length ≤ n ∧ n ≤ (seen ++ rest).length ∧
      (∀ k, seen.length < k → k ≤ n → Passes (seen ++ rest) keepBudget k) ∧
      (n < (seen ++ rest).length → ¬ Passes (seen ++ rest) keepBudget (n + 1)) := by
  induction rest generalizing seen with
  | nil =>
    simp only [keepFrom, List.append_nil]
    exact ⟨le_refl _, le_refl _, fun k h h' => absurd h' (by omega), fun h => absurd h (by omega)⟩
  | cons row rest ih =>
    simp only [keepFrom, saturate_add]
    split
    · next h =>
      refine ⟨le_refl _, by simp, fun k h h' => absurd h' (by omega), fun _ hpass => ?_⟩
      rcases passes_next.mp hpass with hle | hzero | ⟨hle, himp⟩
      · omega
      · omega
      · exact h.2.2 ⟨himp, hle⟩
    · next h =>
      have hpass : Passes (seen ++ row :: rest) keepBudget (seen.length + 1) := by
        refine passes_next.mpr ?_
        by_contra hnot
        push Not at hnot
        exact h ⟨hnot.1, by omega, fun hresc => hnot.2.2 hresc.2 hresc.1⟩
      have hrec := ih (seen ++ [row])
      simp only [rowTokens_snoc, List.length_append, List.length_singleton, List.append_assoc,
        List.singleton_append] at hrec
      obtain ⟨hge, hle, hall, hstop⟩ := hrec
      refine ⟨by omega, by simpa using hle, fun k hk hkn => ?_, by simpa using hstop⟩
      by_cases he : k = seen.length + 1
      · exact he ▸ hpass
      · exact hall k (by omega) hkn

end Walk

section Greatest

variable {rows : List TailRow} {keepBudget k n : Nat}

theorem passes_reverse (hpos : 0 < k) (hle : k ≤ rows.length) :
    Passes rows.reverse keepBudget k ↔ saturate (suffixTokens rows k) ≤ keepBudget ∨ k = 1 ∨
      saturate (suffixTokens rows k) ≤ saturate (keepBudget + IMPORTANCE_KEEP_SLACK) ∧
        ∃ row, rows[rows.length - k]? = some row ∧ isImportantRow row.message := by
  have hidx : rows.length - 1 - (k - 1) = rows.length - k := by omega
  rw [Passes, ← suffixTokens_eq, List.getElem?_reverse (by omega), hidx]

theorem keeps_iff_passes (hpos : 1 ≤ n) (hle : n ≤ rows.length) :
    Keeps saturate rows keepBudget n ↔
      ∀ k, 0 < k → k ≤ n → Passes rows.reverse keepBudget k := by
  constructor
  · intro h k hk hkn
    have hmono : saturate (suffixTokens rows k) ≤ saturate (suffixTokens rows n) :=
      saturate_mono (suffixTokens_mono hkn)
    rw [passes_reverse hk (by omega)]
    rcases h.within with hin | hone | ⟨hslack, himp⟩
    · exact .inl (by omega)
    · exact .inr (.inl (by omega))
    · by_cases hk' : saturate (suffixTokens rows k) ≤ keepBudget ∨ k = 1
      · exact hk'.imp_right .inl
      · refine .inr (.inr ⟨by omega, himp k (by omega) hkn (by omega)⟩)
  · intro h
    refine ⟨hpos, by omega, ?_⟩
    rcases (passes_reverse hpos hle).mp (h n hpos (le_refl n)) with hin | hone | ⟨hslack, _⟩
    · exact .inl hin
    · exact .inr (.inl hone)
    · refine .inr (.inr ⟨hslack, fun k hk hkn hover => ?_⟩)
      rcases (passes_reverse (by omega) (by omega)).mp (h k (by omega) hkn) with hk' | hk' | hk'
      · omega
      · omega
      · exact hk'.2

theorem keepCount_saturated (rows : List TailRow) (keepBudget : Nat) :
    IsGreatest {n | Keeps saturate rows keepBudget n} (keepCount rows keepBudget) := by
  have hspec := keepFrom_spec keepBudget [] rows.reverse
  simp only [rowTokens, List.map_nil, List.sum_nil, List.length_nil, List.nil_append,
    List.length_reverse] at hspec
  obtain ⟨-, hle, hall, hstop⟩ := hspec
  have hcount : keepCount rows keepBudget
      = min (max (keepFrom keepBudget 0 0 rows.reverse) 1) (max rows.length 1) := rfl
  rw [show saturate 0 = 0 from rfl] at hle hall hstop
  generalize keepFrom keepBudget 0 0 rows.reverse = kept at *
  by_cases hnil : rows.length = 0
  · have hone : keepCount rows keepBudget = 1 := by omega
    rw [hone]
    exact ⟨⟨le_refl 1, by omega, .inr (.inl rfl)⟩, fun n hn => by have := hn.le; omega⟩
  have hpos : 1 ≤ kept := by
    by_contra hzero
    have hk : kept = 0 := by omega
    exact hstop (by omega) (hk ▸ .inr (.inl rfl))
  have hkept : keepCount rows keepBudget = kept := by omega
  rw [hkept]
  refine ⟨(keeps_iff_passes hpos hle).mpr hall, fun n hn => ?_⟩
  have hn' : n ≤ rows.length := by have := hn.le; omega
  by_contra hlt
  exact hstop (by omega) ((keeps_iff_passes hn.pos hn').mp hn (kept + 1) (by omega) (by omega))

theorem keeps_exact (h : keepBudget + IMPORTANCE_KEEP_SLACK < U32_MAX ∨
    suffixTokens rows rows.length ≤ U32_MAX) :
    Keeps saturate rows keepBudget n ↔ Keeps id rows keepBudget n := by
  have htotal : ∀ k, suffixTokens rows k ≤ suffixTokens rows rows.length := fun k => by
    rw [suffixTokens_eq rows rows.length, suffixTokens_eq rows k, ← List.length_reverse,
      List.take_length]
    exact ((List.take_sublist _ _).map _).sum_le_sum fun _ _ => Nat.zero_le _
  have hbudget : ∀ k, saturate (suffixTokens rows k) ≤ keepBudget ↔
      suffixTokens rows k ≤ keepBudget := fun k =>
    saturate_le_iff (h.imp (by omega) fun hle => (htotal k).trans hle)
  have hslack : ∀ k, saturate (suffixTokens rows k) ≤ saturate (keepBudget + IMPORTANCE_KEEP_SLACK)
      ↔ suffixTokens rows k ≤ keepBudget + IMPORTANCE_KEEP_SLACK := fun k => by
    have := htotal k
    unfold saturate
    omega
  have hover : ∀ k, keepBudget < saturate (suffixTokens rows k) ↔
      keepBudget < suffixTokens rows k := fun k => by
    rw [← Nat.not_le, ← Nat.not_le, hbudget]
  constructor
  · intro hk
    refine ⟨hk.pos, hk.le, ?_⟩
    simpa only [id_eq, hbudget, hslack, hover] using hk.within
  · intro hk
    refine ⟨hk.pos, hk.le, ?_⟩
    simpa only [id_eq, hbudget, hslack, hover] using hk.within

theorem keepCount_greatest (rows : List TailRow) (keepBudget : Nat) :
    IsGreatest {n | Keeps saturate rows keepBudget n} (keepCount rows keepBudget) ∧
      (keepBudget + IMPORTANCE_KEEP_SLACK < U32_MAX ∨ suffixTokens rows rows.length ≤ U32_MAX →
        IsGreatest {n | Keeps id rows keepBudget n} (keepCount rows keepBudget)) := by
  refine ⟨keepCount_saturated rows keepBudget, fun h => ?_⟩
  have hset : {n | Keeps id rows keepBudget n} = {n | Keeps saturate rows keepBudget n} :=
    Set.ext fun n => (keeps_exact h).symm
  rw [hset]
  exact keepCount_saturated rows keepBudget

end Greatest

section Saturated

def filler (n : Nat) : ChatMessage := .user [.text (String.ofList (List.replicate n 'a'))]

theorem messageTokens_filler (n : Nat) : messageTokens (filler (n * CHARS_PER_TOKEN)) = saturate n := by
  have hlen : messageChars (filler (n * CHARS_PER_TOKEN)) = n * CHARS_PER_TOKEN := by
    simp [messageChars, userChars, filler]
  rw [messageTokens, hlen, Nat.mul_div_cancel n (show 0 < CHARS_PER_TOKEN by decide)]

def fillerTail (n : Nat) : List TailRow :=
  [⟨1, filler (1 * CHARS_PER_TOKEN)⟩, ⟨2, filler (n * CHARS_PER_TOKEN)⟩]

theorem suffixTokens_fillerTail (n : Nat) : suffixTokens (fillerTail n) 2 = 1 + saturate n := by
  change messageTokens (filler (1 * CHARS_PER_TOKEN))
    + (messageTokens (filler (n * CHARS_PER_TOKEN)) + 0) = 1 + saturate n
  rw [messageTokens_filler, messageTokens_filler]
  rfl

theorem keepCount_fillerTail (n : Nat) : keepCount (fillerTail n) U32_MAX = 2 := by
  refine (keepCount_saturated (fillerTail n) U32_MAX).unique ⟨⟨by omega, ?_, .inl ?_⟩, ?_⟩
  · exact le_max_left 2 1
  · exact Nat.min_le_right _ _
  · exact fun n hn => hn.le

/-- With the largest budget the walk keeps an ordinary row that is past it. -/
theorem keepCount_not_exact :
    ¬ ∀ (rows : List TailRow) (keepBudget : Nat), keepBudget ≤ U32_MAX →
      IsGreatest {n | Keeps id rows keepBudget n} (keepCount rows keepBudget) := by
  intro h
  have hkeeps := (h (fillerTail U32_MAX) U32_MAX (le_refl _)).1
  rw [keepCount_fillerTail] at hkeeps
  have htokens := suffixTokens_fillerTail U32_MAX
  rw [show saturate U32_MAX = U32_MAX from Nat.min_self _] at htokens
  rcases hkeeps.within with hle | hone | ⟨_, himp⟩
  · rw [id_eq, htokens] at hle
    omega
  · cases hone
  · have hover : U32_MAX < id (suffixTokens (fillerTail U32_MAX) 2) := by rw [id_eq, htokens]; omega
    obtain ⟨row, hrow, himportant⟩ := himp 2 (by omega) (le_refl 2) hover
    obtain rfl : ⟨1, filler (1 * CHARS_PER_TOKEN)⟩ = row := Option.some.inj hrow
    cases himportant

end Saturated

end Patom.AgentCore
