import Mathlib.Data.Nat.Basic
import Mathlib.Logic.Function.Basic
import Mathlib.Tactic.Common

namespace MiniBox.Extents

variable {κ ν : Type}

inductive Cell (κ ν : Type)
  | of (k : κ) (i : ℕ)
  | other (v : ν)

def put (k : κ) (first count : ℕ) (t : ℕ → Option (Cell κ ν)) (n : ℕ) : Option (Cell κ ν) :=
  if first ≤ n ∧ n < first + count then some (.of k (n - first)) else t n

def clear (first count : ℕ) (t : ℕ → Option (Cell κ ν)) (n : ℕ) : Option (Cell κ ν) :=
  if first ≤ n ∧ n < first + count then none else t n

def Lays (extent : κ → Option (ℕ × ℕ)) (t : ℕ → Option (Cell κ ν)) : Prop :=
  ∀ n k i, t n = some (.of k i) ↔ ∃ e, extent k = some e ∧ i < e.2 ∧ n = e.1 + i

variable {extent : κ → Option (ℕ × ℕ)} {t t' : ℕ → Option (Cell κ ν)} {k : κ} {first count n : ℕ}

theorem Lays.cell (h : Lays extent t) (hk : extent k = some (first, count)) (hn : first ≤ n ∧ n < first + count) :
    t n = some (.of k (n - first)) := by
  rw [h]
  exact ⟨(first, count), hk, by dsimp only; omega, by dsimp only; omega⟩

theorem Lays.congr (h : Lays extent t) (ht : ∀ n k i, t' n = some (.of k i) ↔ t n = some (.of k i)) : Lays extent t' := by
  intro n k i
  rw [ht]
  exact h n k i

variable [DecidableEq κ]

theorem Lays.put (h : Lays extent t) (hk : extent k = none) (hfree : ∀ n, first ≤ n ∧ n < first + count → t n = none) :
    Lays (Function.update extent k (some (first, count))) (put k first count t) := by
  intro n k' i
  unfold Extents.put
  by_cases hn : first ≤ n ∧ n < first + count
  · rw [if_pos hn]
    by_cases hk' : k' = k
    · subst hk'
      rw [Function.update_self]
      simp only [Option.some.injEq, Cell.of.injEq, true_and, exists_eq_left']
      omega
    · rw [Function.update_of_ne hk', ← h, hfree n hn]
      simp [Ne.symm hk']
  · rw [if_neg hn, h]
    by_cases hk' : k' = k
    · subst hk'
      rw [Function.update_self, hk]
      simp only [reduceCtorEq, false_and, exists_false, Option.some.injEq, exists_eq_left', false_iff]
      omega
    · rw [Function.update_of_ne hk']

theorem Lays.clear (h : Lays extent t) (hk : extent k = some (first, count)) :
    Lays (Function.update extent k none) (clear first count t) := by
  intro n k' i
  unfold Extents.clear
  by_cases hn : first ≤ n ∧ n < first + count
  · rw [if_pos hn]
    by_cases hk' : k' = k
    · subst hk'
      simp
    · rw [Function.update_of_ne hk', ← h, h.cell hk hn]
      simp [Ne.symm hk']
  · rw [if_neg hn, h]
    by_cases hk' : k' = k
    · subst hk'
      rw [Function.update_self, hk]
      simp only [Option.some.injEq, exists_eq_left', reduceCtorEq, false_and, exists_false, iff_false]
      omega
    · rw [Function.update_of_ne hk']

end MiniBox.Extents
