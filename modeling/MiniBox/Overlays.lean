import Mathlib.Data.List.Basic

namespace MiniBox.Overlays

variable {α β ι σ ε : Type}

def paint (f : α → Option β) (g : α → β) (a : α) : β := (f a).getD (g a)

def latest (f : ι → α → Option β) (l : List ι) (g : α → β) (a : α) : β := (l.reverse.findSome? (f · a)).getD (g a)

variable {f f' : α → Option β} {g : α → β}

@[simp] theorem latest_nil (w : ι → α → Option β) (g : α → β) : latest w [] g = g := rfl

theorem latest_concat (w : ι → α → Option β) (l : List ι) (i : ι) (g : α → β) :
    latest w (l ++ [i]) g = paint (w i) (latest w l g) := by
  funext a
  unfold latest paint
  rw [List.reverse_concat, List.findSome?_cons]
  cases w i a with
  | none => rfl
  | some v => rfl

theorem paint_none (h : ∀ a, f a = none) : paint f g = g := by
  funext a
  rw [paint, h]
  rfl

theorem paint_paint (h : ∀ a, (f' a).isSome → (f a).isSome) : paint f (paint f' g) = paint f g := by
  funext a
  unfold paint
  cases hf : f a with
  | some v => rfl
  | none =>
    cases hf' : f' a with
    | none => rfl
    | some v =>
      have hsome := h a (by rw [hf']; rfl)
      rw [hf] at hsome
      cases hsome

theorem foldlM_done {step : σ → ι → Except ε σ} (P : List ι → σ → Prop) {l : List ι} {s : σ}
    (hstep : ∀ done s i, i ∈ l → P done s → ∃ s', step s i = .ok s' ∧ P (done ++ [i]) s') (hs : P [] s) :
    ∃ s', l.foldlM step s = .ok s' ∧ P l s' := by
  suffices h : ∀ rest done s, (∀ i ∈ rest, i ∈ l) → P done s → ∃ s', rest.foldlM step s = .ok s' ∧ P (done ++ rest) s' from
    h l [] s (fun _ hi => hi) hs
  intro rest
  induction rest with
  | nil =>
    intro done s _ hs
    rw [List.append_nil]
    exact ⟨s, rfl, hs⟩
  | cons i rest ih =>
    intro done s hl hs
    obtain ⟨hi, hrest⟩ := List.forall_mem_cons.mp hl
    obtain ⟨s₁, hrun, hs₁⟩ := hstep done s i hi hs
    obtain ⟨s', hruns, hs'⟩ := ih (done ++ [i]) s₁ hrest hs₁
    refine ⟨s', ?_, ?_⟩
    · rw [List.foldlM_cons, hrun]
      exact hruns
    · rw [List.append_cons]
      exact hs'

end MiniBox.Overlays
