import Mathlib.Data.List.MinMax
import Mathlib.Data.Prod.Lex
import MiniBox.IndexLoops

namespace MiniBox.MaximalRuns

open IndexLoops

variable {free : ℕ → Bool} {lo hi n i j : ℕ}

structure MaximalRun (free : ℕ → Bool) (lo hi i j : ℕ) : Prop where
  lo_le : lo ≤ i
  lt : i < j
  le_hi : j ≤ hi
  marked : ∀ m, i ≤ m → m < j → free m = true
  starts : lo < i → free (i - 1) = false
  ends : j < hi → free j = false

structure BestFit (free : ℕ → Bool) (lo hi n i j : ℕ) : Prop where
  run : MaximalRun free lo hi i j
  fits : n ≤ j - i
  best : ∀ i' j', MaximalRun free lo hi i' j' → n ≤ j' - i' → j - i < j' - i' ∨ j - i = j' - i' ∧ i ≤ i'

def Boundary (free : ℕ → Bool) (lo hi m : ℕ) : Prop :=
  lo < m → m < hi → free (m - 1) = true → free m = false

theorem MaximalRun.le_of_boundary {m : ℕ} (h : MaximalRun free lo hi i j) (hm : Boundary free lo hi m) (him : i < m) :
    j ≤ m := by
  by_contra hjm
  have h1 := h.marked (m - 1) (by omega) (by omega)
  have h2 := h.marked m (by omega) (by omega)
  have h3 := hm (by have := h.lo_le; omega) (by have := h.le_hi; omega) h1
  rw [h2] at h3
  cases h3

theorem lt_runEnd (k : ℕ) (hk : 0 < k) (hf : free i = true) : i < runEnd free true k i := by
  cases k with
  | zero => omega
  | succ k =>
    rw [runEnd, if_pos hf]
    exact le_runEnd free true k (i + 1)

section RunAt

variable (hlo : lo ≤ i) (hhi : i < hi) (hb : Boundary free lo hi i) (hf : free i = true)
include hlo hhi hb hf

theorem maximalRun_runEnd : MaximalRun free lo hi i (runEnd free true (hi - i) i) := by
  have hle := runEnd_le free true (hi - i) i
  refine ⟨hlo, lt_runEnd _ (by omega) hf, by omega, key_of_lt_runEnd free true _ _, ?_, ?_⟩
  · intro h
    by_contra hp
    rw [hb h hhi (by simpa using hp)] at hf
    cases hf
  · intro h
    simpa using runEnd_stops free true (hi - i) i (by omega)

theorem MaximalRun.le_runEnd {a c : ℕ} (h : MaximalRun free lo hi a c) (hc : c ≤ runEnd free true (hi - i) i) :
    c ≤ i ∨ a = i ∧ c = runEnd free true (hi - i) i := by
  have hrun := maximalRun_runEnd hlo hhi hb hf
  rcases Nat.lt_trichotomy a i with ha | ha | ha
  · exact Or.inl (h.le_of_boundary hb ha)
  · refine Or.inr ⟨ha, ?_⟩
    by_contra hne
    have h1 := hrun.marked c (by have := h.lt; omega) (by omega)
    rw [h.ends (by have := hrun.le_hi; omega)] at h1
    cases h1
  · have h1 := hrun.marked (a - 1) (by omega) (by have := h.lt; omega)
    rw [h.starts (by omega)] at h1
    cases h1

end RunAt

theorem boundary_of_run {a : ℕ} (h : MaximalRun free lo hi a i) : Boundary free lo hi i := fun _ hi _ => h.ends hi

theorem boundary_succ (hf : free i = false) : Boundary free lo hi (i + 1) := by
  intro _ _ h
  rw [Nat.add_sub_cancel, hf] at h
  cases h

theorem MaximalRun.le_of_not {a c : ℕ} (h : MaximalRun free lo hi a c) (hf : free i = false) (hc : c ≤ i + 1) :
    c ≤ i := by
  by_contra hne
  have h1 := h.marked i (by have := h.lt; omega) (by omega)
  rw [hf] at h1
  cases h1

theorem MaximalRun.covers {c : ℕ} (h : MaximalRun free lo hi i c) (hhi : j ≤ hi)
    (hm : ∀ m, i ≤ m → m < j → free m = true) : j ≤ c := by
  by_contra hlt
  have h1 := hm c (by have := h.lt; omega) (Nat.lt_of_not_le hlt)
  rw [h.ends (by omega)] at h1
  cases h1

theorem exists_maximalRun_at (hlo : lo ≤ i) (hij : i < j) (hhi : j ≤ hi)
    (hm : ∀ m, i ≤ m → m < j → free m = true) (hb : Boundary free lo hi i) :
    ∃ a c, MaximalRun free lo hi a c ∧ a ≤ i ∧ j ≤ c := by
  have hrun := maximalRun_runEnd hlo (by omega) hb (hm i (le_refl i) hij)
  exact ⟨i, _, hrun, le_refl i, hrun.covers hhi hm⟩

theorem exists_maximalRun (hlo : lo ≤ i) (hij : i < j) (hhi : j ≤ hi)
    (hm : ∀ m, i ≤ m → m < j → free m = true) :
    ∃ a c, MaximalRun free lo hi a c ∧ a ≤ i ∧ j ≤ c := by
  induction hk : i - lo generalizing i with
  | zero =>
    exact exists_maximalRun_at hlo hij hhi hm fun h => absurd h (by omega)
  | succ k ih =>
    by_cases hp : free (i - 1) = true
    · have hm' : ∀ m, i - 1 ≤ m → m < j → free m = true := by
        intro m h1 h2
        rcases Nat.eq_or_lt_of_le h1 with h | h
        · rw [← h]
          exact hp
        · exact hm m (by omega) h2
      obtain ⟨a, c, hrun, ha, hc⟩ := ih (by omega) (by omega) hm' (by omega)
      exact ⟨a, c, hrun, by omega, hc⟩
    · exact exists_maximalRun_at hlo hij hhi hm fun _ _ h => absurd h hp

def runLength (free : ℕ → Bool) (hi i : ℕ) : ℕ := runEnd free true (hi - i) i - i

def fittingRuns (free : ℕ → Bool) (lo hi n : ℕ) : List ℕ :=
  (List.range' lo (hi - lo)).filter fun i => decide ((lo < i → free (i - 1) = false) ∧ free i = true ∧ n ≤ runLength free hi i)

def bestFit (free : ℕ → Bool) (lo hi n : ℕ) : Option ℕ :=
  (fittingRuns free lo hi n).argmin fun i => toLex (runLength free hi i, i)

theorem MaximalRun.eq_runEnd (h : MaximalRun free lo hi i j) : j = runEnd free true (hi - i) i := by
  have hlt := h.lt
  have hle := h.le_hi
  have hb : Boundary free lo hi i := by
    intro h1 _ h3
    rw [h.starts h1] at h3
    cases h3
  have hrun := maximalRun_runEnd h.lo_le (by omega) hb (h.marked i le_rfl hlt)
  have h1 := h.covers hrun.le_hi hrun.marked
  have h2 := hrun.covers hle h.marked
  omega

theorem mem_fittingRuns : i ∈ fittingRuns free lo hi n ↔ ∃ j, MaximalRun free lo hi i j ∧ n ≤ j - i := by
  unfold fittingRuns
  rw [List.mem_filter, List.mem_range'_1, decide_eq_true_iff]
  constructor
  · rintro ⟨⟨hlo, hhi⟩, hs, hf, hn⟩
    have hb : Boundary free lo hi i := by
      intro h1 _ h3
      rw [hs h1] at h3
      cases h3
    exact ⟨_, maximalRun_runEnd hlo (by omega) hb hf, hn⟩
  · rintro ⟨j, hrun, hn⟩
    have hlt := hrun.lt
    have hle := hrun.le_hi
    have hlo := hrun.lo_le
    refine ⟨⟨hlo, by omega⟩, hrun.starts, hrun.marked i le_rfl hlt, ?_⟩
    unfold runLength
    rw [← hrun.eq_runEnd]
    exact hn

theorem bestFit_of_best (h : BestFit free lo hi n i j) : bestFit free lo hi n = some i := by
  unfold bestFit
  cases hm : (fittingRuns free lo hi n).argmin fun i => toLex (runLength free hi i, i) with
  | none =>
    rw [List.argmin_eq_none] at hm
    have hi := mem_fittingRuns.mpr ⟨j, h.run, h.fits⟩
    rw [hm] at hi
    cases hi
  | some m =>
    obtain ⟨hmem, hleast, -⟩ := List.argmin_eq_some_iff.mp hm
    obtain ⟨c, hrun, hc⟩ := mem_fittingRuns.mp hmem
    have hle := hleast i (mem_fittingRuns.mpr ⟨j, h.run, h.fits⟩)
    have hbest := h.best m c hrun hc
    rw [Prod.Lex.le_iff] at hle
    dsimp only [ofLex_toLex, runLength] at hle
    rw [← hrun.eq_runEnd, ← h.run.eq_runEnd] at hle
    congr 1
    omega

theorem bestFit_eq_none (h : ∀ a c, MaximalRun free lo hi a c → ¬ n ≤ c - a) : bestFit free lo hi n = none := by
  unfold bestFit
  rw [List.argmin_eq_none, List.eq_nil_iff_forall_not_mem]
  intro a ha
  obtain ⟨c, hrun, hc⟩ := mem_fittingRuns.mp ha
  exact h a c hrun hc

end MiniBox.MaximalRuns
