import Mathlib.Logic.Relation
import Mathlib.Data.List.Basic

namespace MiniBox.Runs

open Relation

variable {σ : Type} {step : σ → σ → Prop}

theorem invariant {P : σ → Prop} (hstep : ∀ a b, step a b → P a → P b) {a b : σ} (h : ReflTransGen step a b)
    (ha : P a) : P b := by
  induction h with
  | refl => exact ha
  | tail _ hs ih => exact hstep _ _ hs ih

section Machines

variable {τ ι ο : Type}

def outputs (next : σ → ι → ο × σ) : σ → List ι → List ο
  | _, [] => []
  | s, i :: is => (next s i).1 :: outputs next (next s i).2 is

theorem outputs_eq {next : σ → ι → ο × σ} {next' : τ → ι → ο × τ} {R : σ → τ → Prop} {ok : ι → Prop}
    (hstep : ∀ s t i, R s t → ok i → (next s i).1 = (next' t i).1 ∧ R (next s i).2 (next' t i).2)
    {s : σ} {t : τ} (hr : R s t) {is : List ι} (hok : ∀ i ∈ is, ok i) :
    outputs next s is = outputs next' t is := by
  induction is generalizing s t with
  | nil => rfl
  | cons i is ih =>
    obtain ⟨ho, hr'⟩ := hstep s t i hr (hok i (by simp))
    rw [outputs, outputs, ho, ih hr' fun j hj => hok j (by simp [hj])]

def final (next : σ → ι → ο × σ) : σ → List ι → σ
  | s, [] => s
  | s, i :: is => final next (next s i).2 is

theorem outputs_eq_unless {next : σ → ι → ο × σ} {next' : τ → ι → ο × τ} {R : σ → τ → Prop} {E : σ → Prop}
    {ok : ι → Prop} (hstep : ∀ s t i, R s t → ok i →
      E (next s i).2 ∨ (next s i).1 = (next' t i).1 ∧ R (next s i).2 (next' t i).2)
    (hstay : ∀ s i, ok i → E s → E (next s i).2) {s : σ} {t : τ} (hr : R s t) {is : List ι} (hok : ∀ i ∈ is, ok i)
    (hE : ¬ E (final next s is)) : outputs next s is = outputs next' t is := by
  have hlast : ∀ (is : List ι) (s : σ), (∀ i ∈ is, ok i) → E s → E (final next s is) := by
    intro is
    induction is with
    | nil => exact fun s _ h => h
    | cons i is ih =>
      intro s hok h
      exact ih _ (fun j hj => hok j (by simp [hj])) (hstay s i (hok i (by simp)) h)
  induction is generalizing s t with
  | nil => rfl
  | cons i is ih =>
    have htail : ∀ j ∈ is, ok j := fun j hj => hok j (by simp [hj])
    rcases hstep s t i hr (hok i (by simp)) with he | ⟨ho, hr'⟩
    · exact absurd (hlast is _ htail he) hE
    · rw [outputs, outputs, ho, ih hr' htail hE]

end Machines

end MiniBox.Runs
