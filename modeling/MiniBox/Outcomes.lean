import Mathlib.Logic.Basic

namespace MiniBox.Outcomes

variable {ε α β : Type}

theorem ok_bind (a : α) (f : α → Except ε β) : (Except.ok a >>= f) = f a := rfl

theorem bind_ok {x : Except ε α} {f : α → Except ε β} {y : β} (h : (x >>= f) = .ok y) :
    ∃ a, x = .ok a ∧ f a = .ok y := by
  cases x with
  | error e => cases h
  | ok a => exact ⟨a, rfl, h⟩

def passes : Except ε Bool → Bool
  | .ok t => t
  | .error _ => false

theorem passes_bind {x : Except ε α} {f : α → Except ε Bool} (h : passes (x >>= f) = true) :
    ∃ a, x = .ok a ∧ passes (f a) = true := by
  cases x with
  | error e => cases h
  | ok a => exact ⟨a, rfl, h⟩

theorem passes_pure {P : Prop} [Decidable P] (h : passes (pure (decide P) : Except ε Bool) = true) : P :=
  of_decide_eq_true h

end MiniBox.Outcomes
