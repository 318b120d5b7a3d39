import Patom.Billing.Service
import Patom.Provider.Chat

open Patom.Provider.OpenAi (WireUsage)

namespace Patom.Billing

section Lanes

variable (d : Nat)

def floored (lanes : List Nat) : Nat := (lanes.map (· / d)).sum

def dropped (lanes : List Nat) : Nat := (lanes.map (· % d)).sum

theorem floored_add_dropped (lanes : List Nat) : d * floored d lanes + dropped d lanes = lanes.sum := by
  induction lanes with
  | nil => rfl
  | cons lane lanes ih =>
    have hlane := Nat.div_add_mod lane d
    simp only [floored, dropped, List.map_cons, List.sum_cons, Nat.mul_add] at ih ⊢
    omega

theorem dropped_le (hd : 0 < d) (lanes : List Nat) :
    dropped d lanes + lanes.length ≤ d * lanes.length := by
  induction lanes with
  | nil => exact Nat.le_refl 0
  | cons lane lanes ih =>
    have hlane := Nat.mod_lt lane hd
    simp only [dropped, List.map_cons, List.sum_cons, List.length_cons, Nat.mul_add] at ih ⊢
    omega

end Lanes

def MTOK : Nat := 1000000

variable (price : Price) (u : WireUsage)

def cached : Nat := u.cacheReadTokens.getD 0

def exactCost : Nat :=
  (u.promptTokens - cached u) * price.input + cached u * price.cacheRead +
    u.completionTokens * price.output

def lanes : List Nat :=
  [u.promptTokens * price.input, u.completionTokens * price.output, cached u * price.cacheRead]

theorem turnCost_usage : turnCost price u.usage = floored MTOK (lanes price u) := by
  simp [turnCost, floored, lanes, cached, MTOK, WireUsage.usage, WireUsage.cacheCreationTokens]
  omega

/-- The cost is exact but for what rounding drops of the three lanes. -/
def BilledOnce : Prop :=
  MTOK * turnCost price u.usage ≤ exactCost price u ∧
    exactCost price u < MTOK * turnCost price u.usage + MTOK * 3

instance : Decidable (BilledOnce price u) := inferInstanceAs (Decidable (_ ∧ _))

theorem sum_lanes (h : cached u ≤ u.promptTokens) :
    (lanes price u).sum = exactCost price u + cached u * price.input := by
  have hsplit : u.promptTokens * price.input =
      (u.promptTokens - cached u) * price.input + cached u * price.input := by
    rw [← Nat.add_mul, Nat.sub_add_cancel h]
  simp only [lanes, exactCost, List.sum_cons, List.sum_nil, hsplit]
  omega

/-- Billing the cached tokens twice goes unnoticed when rounding drops as much. -/
theorem billedOnce_iff (h : cached u ≤ u.promptTokens) : BilledOnce price u ↔
    cached u * price.input ≤ u.promptTokens * price.input % MTOK +
      u.completionTokens * price.output % MTOK + cached u * price.cacheRead % MTOK := by
  have hsum := floored_add_dropped MTOK (lanes price u)
  have hdropped := dropped_le MTOK (by decide) (lanes price u)
  have hlen : (lanes price u).length = 3 := rfl
  have hrem : dropped MTOK (lanes price u) = u.promptTokens * price.input % MTOK +
      u.completionTokens * price.output % MTOK + cached u * price.cacheRead % MTOK := by
    simp only [dropped, lanes, List.map_cons, List.map_nil, List.sum_cons, List.sum_nil]
    omega
  rw [sum_lanes price u h] at hsum
  rw [hlen] at hdropped
  rw [BilledOnce, turnCost_usage, ← hrem]
  omega

namespace Sample

def gpt : Price := ⟨5000000, 30000000, 5000000, 500000⟩

def nano : Price := ⟨50000, 400000, 50000, 5000⟩

def fewCached : WireUsage := ⟨1019, 2, none, some ⟨some 36⟩⟩

def report : WireUsage := ⟨1000000, 0, none, some ⟨some 900000⟩⟩

end Sample

theorem billedOnce_fewCached : BilledOnce Sample.nano Sample.fewCached :=
  (billedOnce_iff Sample.nano Sample.fewCached (by decide)).mpr (by decide)

theorem billed_twice : ¬ ∀ (price : Price) (u : WireUsage), cached u ≤ u.promptTokens →
    BilledOnce price u := fun h =>
  absurd (h Sample.gpt Sample.report (by decide)) (by decide)

end Patom.Billing
