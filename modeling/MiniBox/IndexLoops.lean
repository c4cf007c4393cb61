import Mathlib.Tactic

namespace MiniBox.IndexLoops

variable {α ε κ : Type}

/-- `for (j = i; j < i + k; j++) t[j] = f(t[j])`. -/
def forRange (len : ℕ) (oob : ε) (f : α → α) : ℕ → ℕ → (ℕ → α) → Except ε (ℕ → α)
  | _, 0, t => .ok t
  | i, k + 1, t =>
    if i < len then forRange len oob f (i + 1) k (Function.update t i (f (t i))) else .error oob

def anyRange (len : ℕ) (oob : ε) (p : α → Bool) (t : ℕ → α) : ℕ → ℕ → Except ε Bool
  | _, 0 => .ok false
  | i, k + 1 =>
    if i < len then (if p (t i) then .ok true else anyRange len oob p t (i + 1) k) else .error oob

def runEnd [DecidableEq κ] (key : ℕ → κ) (v : κ) : ℕ → ℕ → ℕ
  | 0, j => j
  | k + 1, j => if key j = v then runEnd key v k (j + 1) else j

def mapRange (f : α → α) (i k : ℕ) (t : ℕ → α) : ℕ → α :=
  fun j => if i ≤ j ∧ j < i + k then f (t j) else t j

/-- The loop that acts on one run of equal keys at a time:
`while (i < stop) { j = end of the run at i; act on [i, j); i = j; }`. -/
def runLoop [DecidableEq κ] (key : α → κ) (act : κ → α → α) (stop : ℕ) : ℕ → ℕ → (ℕ → α) → ℕ → α
  | 0, _, t => t
  | fuel + 1, i, t =>
    if i < stop then
      let v := key (t i)
      let j := runEnd (fun k => key (t k)) v (stop - (i + 1)) (i + 1)
      runLoop key act stop fuel j (mapRange (act v) i (j - i) t)
    else t

theorem mapRange_mem (f : α → α) (i k : ℕ) (t : ℕ → α) (j : ℕ) (h : i ≤ j ∧ j < i + k) :
    mapRange f i k t j = f (t j) := if_pos h

theorem mapRange_not_mem (f : α → α) (i k : ℕ) (t : ℕ → α) (j : ℕ) (h : ¬ (i ≤ j ∧ j < i + k)) :
    mapRange f i k t j = t j := if_neg h

theorem mapRange_mapRange (f g : α → α) (i k : ℕ) (t : ℕ → α) :
    mapRange g i k (mapRange f i k t) = mapRange (g ∘ f) i k t := by
  funext j
  by_cases h : i ≤ j ∧ j < i + k
  · simp [mapRange, h]
  · simp [mapRange, h]

theorem mapRange_append (f : α → α) (i k l : ℕ) (t : ℕ → α) :
    mapRange f (i + k) l (mapRange f i k t) = mapRange f i (k + l) t := by
  funext j
  by_cases h1 : i ≤ j ∧ j < i + k
  · have h2 : ¬ (i + k ≤ j ∧ j < i + k + l) := by omega
    have h3 : i ≤ j ∧ j < i + (k + l) := by omega
    simp only [mapRange, h1, h2, h3, and_self, if_true, if_false]
  · have h2 : (i + k ≤ j ∧ j < i + k + l) ↔ (i ≤ j ∧ j < i + (k + l)) := by omega
    simp only [mapRange, h1, h2, if_false]

theorem mapRange_join (f : α → α) {i j stop : ℕ} (t : ℕ → α) (hij : i ≤ j) (hj : j ≤ stop) :
    mapRange f j (stop - j) (mapRange f i (j - i) t) = mapRange f i (stop - i) t := by
  have h := mapRange_append f i (j - i) (stop - j) t
  rwa [show i + (j - i) = j by omega, show j - i + (stop - j) = stop - i by omega] at h

theorem mapRange_one (f : α → α) (i : ℕ) (t : ℕ → α) : mapRange f i 1 t = Function.update t i (f (t i)) := by
  funext j
  by_cases hj : j = i
  · subst hj
    simp [mapRange]
  · rw [mapRange_not_mem _ _ _ _ _ (by omega), Function.update_of_ne hj]

theorem mapRange_succ (f : α → α) (i k : ℕ) (t : ℕ → α) :
    mapRange f (i + 1) k (Function.update t i (f (t i))) = mapRange f i (k + 1) t := by
  rw [← mapRange_one, mapRange_append, Nat.add_comm 1 k]

theorem mapRange_zero (f : α → α) (i : ℕ) (t : ℕ → α) : mapRange f i 0 t = t := by
  funext j
  exact mapRange_not_mem _ _ _ _ _ (by omega)

theorem mapRange_congr {f g : α → α} {i k : ℕ} {t : ℕ → α} (h : ∀ j, i ≤ j → j < i + k → f (t j) = g (t j)) :
    mapRange f i k t = mapRange g i k t := by
  funext j
  by_cases hj : i ≤ j ∧ j < i + k
  · rw [mapRange_mem _ _ _ _ _ hj, mapRange_mem _ _ _ _ _ hj, h j hj.1 hj.2]
  · rw [mapRange_not_mem _ _ _ _ _ hj, mapRange_not_mem _ _ _ _ _ hj]

theorem forRange_eq (len : ℕ) (oob : ε) (f : α → α) (i k : ℕ) (t : ℕ → α) (h : i + k ≤ len) :
    forRange len oob f i k t = .ok (mapRange f i k t) := by
  induction k generalizing i t with
  | zero => rw [forRange, mapRange_zero]
  | succ k ih => rw [forRange, if_pos (by omega), ih _ _ (by omega), mapRange_succ]

theorem forRange_error (len : ℕ) (oob : ε) (f : α → α) (i k : ℕ) (t : ℕ → α) (hk : 0 < k) (h : len < i + k) :
    forRange len oob f i k t = .error oob := by
  induction k generalizing i t with
  | zero => omega
  | succ k ih =>
    rw [forRange]
    split_ifs with hi
    · exact ih _ _ (by omega) (by omega)
    · rfl

theorem anyRange_eq (len : ℕ) (oob : ε) (p : α → Bool) (t : ℕ → α) (i k : ℕ) (h : i + k ≤ len) :
    anyRange len oob p t i k = .ok ((List.range' i k).any fun j => p (t j)) := by
  induction k generalizing i with
  | zero => rfl
  | succ k ih =>
    rw [anyRange, if_pos (by omega), List.range'_succ, List.any_cons]
    by_cases hp : p (t i) = true
    · simp [hp]
    · rw [if_neg hp, ih _ (by omega)]
      simp [hp]

theorem anyRange_congr {len : ℕ} {oob : ε} {p : α → Bool} {t t' : ℕ → α} (h : ∀ i, i < len → p (t i) = p (t' i))
    (i k : ℕ) : anyRange len oob p t i k = anyRange len oob p t' i k := by
  induction k generalizing i with
  | zero => rfl
  | succ k ih =>
    unfold anyRange
    split_ifs with h1 h2 h3
    · rfl
    · rw [h i h1] at h2
      contradiction
    · rw [h i h1] at h2
      contradiction
    · exact ih (i + 1)
    · rfl

theorem anyRange_false {len : ℕ} {oob : ε} {p : α → Bool} {t : ℕ → α} {i k : ℕ}
    (h : anyRange len oob p t i k = .ok false) :
    (k = 0 ∨ i + k ≤ len) ∧ ∀ j, i ≤ j → j < i + k → p (t j) = false := by
  induction k generalizing i with
  | zero => exact ⟨Or.inl rfl, by omega⟩
  | succ k ih =>
    rw [anyRange] at h
    split_ifs at h with hi hp
    · cases h
    · obtain ⟨h1, h2⟩ := ih h
      refine ⟨by omega, fun j hj1 hj2 => ?_⟩
      by_cases hj : j = i
      · simpa [hj] using hp
      · exact h2 j (by omega) (by omega)

theorem any_range'_eq_true {p : α → Bool} {t : ℕ → α} {i k : ℕ} :
    ((List.range' i k).any fun j => p (t j)) = true ↔ ∃ j, i ≤ j ∧ j < i + k ∧ p (t j) = true := by
  simp only [List.any_eq_true, List.mem_range'_1]
  constructor
  · rintro ⟨j, ⟨h1, h2⟩, h3⟩
    exact ⟨j, h1, h2, h3⟩
  · rintro ⟨j, h1, h2, h3⟩
    exact ⟨j, ⟨h1, h2⟩, h3⟩

theorem any_range'_eq_false {p : α → Bool} {t : ℕ → α} {i k : ℕ} :
    ((List.range' i k).any fun j => p (t j)) = false ↔ ∀ j, i ≤ j → j < i + k → p (t j) = false := by
  rw [← Bool.not_eq_true, any_range'_eq_true]
  constructor
  · intro h j h1 h2
    by_contra hp
    exact h ⟨j, h1, h2, by simpa using hp⟩
  · rintro h ⟨j, h1, h2, h3⟩
    simp [h j h1 h2] at h3

section Runs

variable [DecidableEq κ] (key : ℕ → κ) (v : κ)

theorem le_runEnd (k j : ℕ) : j ≤ runEnd key v k j := by
  induction k generalizing j with
  | zero => exact le_refl j
  | succ k ih =>
    unfold runEnd
    split_ifs
    · exact (Nat.le_succ j).trans (ih _)
    · exact le_refl j

theorem runEnd_le (k j : ℕ) : runEnd key v k j ≤ j + k := by
  induction k generalizing j with
  | zero => exact le_refl j
  | succ k ih =>
    unfold runEnd
    split_ifs
    · exact (ih _).trans (by omega)
    · omega

theorem key_of_lt_runEnd (k j m : ℕ) (h1 : j ≤ m) (h2 : m < runEnd key v k j) : key m = v := by
  induction k generalizing j with
  | zero => rw [runEnd] at h2; omega
  | succ k ih =>
    unfold runEnd at h2
    split_ifs at h2 with hk
    · by_cases hm : m = j
      · rw [hm, hk]
      · exact ih (j + 1) (by omega) h2
    · omega

theorem runEnd_stops (k j : ℕ) (h : runEnd key v k j < j + k) : key (runEnd key v k j) ≠ v := by
  induction k generalizing j with
  | zero => rw [runEnd] at h; omega
  | succ k ih =>
    unfold runEnd at h ⊢
    split_ifs at h ⊢ with hf
    · exact ih (j + 1) (by omega)
    · exact hf

theorem key_in_run (k i m : ℕ) (h1 : i ≤ m) (h2 : m < runEnd key (key i) k (i + 1)) : key m = key i := by
  by_cases hm : m = i
  · rw [hm]
  · exact key_of_lt_runEnd key (key i) k (i + 1) m (by omega) h2

theorem runEnd_congr {key key' : ℕ → κ} (k j : ℕ) (h : ∀ m, j ≤ m → m < j + k → key m = key' m) :
    runEnd key v k j = runEnd key' v k j := by
  induction k generalizing j with
  | zero => rfl
  | succ k ih =>
    unfold runEnd
    rw [h j (by omega) (by omega), ih (j + 1) fun m h1 h2 => h m (by omega) (by omega)]

theorem runLoop_eq (key : α → κ) (act : κ → α → α) (stop fuel i : ℕ) (t : ℕ → α) (hi : i ≤ stop)
    (hf : stop - i ≤ fuel) : runLoop key act stop fuel i t = mapRange (fun a => act (key a) a) i (stop - i) t := by
  induction fuel generalizing i t with
  | zero => rw [runLoop, show stop - i = 0 by omega, mapRange_zero]
  | succ fuel ih =>
    unfold runLoop
    by_cases hlt : i < stop
    · simp only [hlt, ↓reduceIte]
      generalize hj : runEnd (fun k => key (t k)) (key (t i)) (stop - (i + 1)) (i + 1) = j
      have hge : i + 1 ≤ j := hj ▸ le_runEnd _ _ _ _
      have hle : j ≤ stop := by
        have := runEnd_le (fun k => key (t k)) (key (t i)) (stop - (i + 1)) (i + 1)
        omega
      have hrun : mapRange (act (key (t i))) i (j - i) t = mapRange (fun a => act (key a) a) i (j - i) t := by
        apply mapRange_congr
        intro k h1 h2
        have hk := key_in_run (fun k => key (t k)) (stop - (i + 1)) i k h1 (by omega)
        exact congrArg (fun v => act v (t k)) hk.symm
      rw [ih j _ hle (by omega), hrun, mapRange_join _ _ (by omega) hle]
    · rw [if_neg hlt, show stop - i = 0 by omega, mapRange_zero]

end Runs

end MiniBox.IndexLoops
