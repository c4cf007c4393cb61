import MiniBox.Effects

namespace MiniBox.Relational

open Effects

variable {ε σ τ α β γ δ : Type}

def SameOutcome (Q : α → β → Prop) : Except ε α → Except ε β → Prop
  | .ok a, .ok b => Q a b
  | .error e, .error e' => e = e'
  | .ok _, .error _ => False
  | .error _, .ok _ => False

section Outcomes

variable {Q : α → β → Prop} {Q' : γ → δ → Prop}

theorem sameOutcome_refl {Q : α → α → Prop} (hq : ∀ a, Q a a) (x : Except ε α) : SameOutcome Q x x := by
  cases x with
  | ok a => exact hq a
  | error e => exact rfl

theorem sameOutcome_bind {x : Except ε α} {y : Except ε β} {f : α → Except ε γ} {g : β → Except ε δ}
    (hx : SameOutcome Q x y) (hf : ∀ a b, Q a b → SameOutcome Q' (f a) (g b)) :
    SameOutcome Q' (x >>= f) (y >>= g) := by
  cases x with
  | error e =>
    cases y with
    | error e' => exact hx
    | ok b => exact hx.elim
  | ok a =>
    cases y with
    | error e' => exact hx.elim
    | ok b => exact hf a b hx

end Outcomes

structure Lock (R : σ → τ → Prop) (E : σ → Prop) (Q : α → β → Prop) (x : Effect ε σ α) (y : Effect ε τ β) :
    Prop where
  agree : ∀ s t, R s t → E (exec x s).2 ∨
    SameOutcome Q (exec x s).1 (exec y t).1 ∧ R (exec x s).2 (exec y t).2
  stay : ∀ s, E s → E (exec x s).2

variable {R : σ → τ → Prop} {E : σ → Prop} {Q : α → β → Prop} {Q' : γ → δ → Prop}

theorem lock_pure {a : α} {b : β} (h : Q a b) : Lock R E Q (pure a : Effect ε σ α) (pure b : Effect ε τ β) :=
  ⟨fun _ _ hr => .inr ⟨h, hr⟩, fun _ he => he⟩

theorem lock_throw (e : ε) : Lock R E Q (throw e : Effect ε σ α) (throw e : Effect ε τ β) :=
  ⟨fun _ _ hr => .inr ⟨rfl, hr⟩, fun _ he => he⟩

theorem lock_lift {x : Except ε α} {y : Except ε β} (h : SameOutcome Q x y) :
    Lock R E Q (lift x : Effect ε σ α) (lift y : Effect ε τ β) :=
  ⟨fun _ _ hr => .inr ⟨h, hr⟩, fun _ he => he⟩

theorem lock_attempt {f : σ → Except ε (α × σ)} {g : τ → Except ε (β × τ)}
    (hagree : ∀ s t, R s t → (∃ a s', f s = .ok (a, s') ∧ E s') ∨
      SameOutcome (fun x y => Q x.1 y.1 ∧ R x.2 y.2) (f s) (g t))
    (hstay : ∀ s a s', E s → f s = .ok (a, s') → E s') : Lock R E Q (attempt f) (attempt g) := by
  constructor
  · intro s t hr
    rw [exec_attempt, exec_attempt]
    rcases hagree s t hr with ⟨a, s', hf, he⟩ | h
    · rw [hf]
      exact .inl he
    · cases hf : f s with
      | error e =>
        cases hg : g t with
        | error e' =>
          rw [hf, hg] at h
          exact .inr ⟨h, hr⟩
        | ok y =>
          rw [hf, hg] at h
          exact h.elim
      | ok x =>
        cases hg : g t with
        | error e' =>
          rw [hf, hg] at h
          exact h.elim
        | ok y =>
          rw [hf, hg] at h
          exact .inr h
  · intro s he
    rw [exec_attempt]
    cases hf : f s with
    | error e => exact he
    | ok x => exact hstay s x.1 x.2 he hf

theorem lock_bind {x : Effect ε σ α} {y : Effect ε τ β} {f : α → Effect ε σ γ} {g : β → Effect ε τ δ}
    (htotal : ∀ a, ∃ b, Q a b) (hx : Lock R E Q x y) (hf : ∀ a b, Q a b → Lock R E Q' (f a) (g b)) :
    Lock R E Q' (x >>= f) (y >>= g) := by
  have hstay : ∀ a s, E s → E (exec (f a) s).2 := by
    intro a s he
    obtain ⟨b, hq⟩ := htotal a
    exact (hf a b hq).stay s he
  constructor
  · intro s t hr
    rw [exec_bind, exec_bind]
    have h := hx.agree s t hr
    rcases hxs : exec x s with ⟨_ | a, s'⟩ <;> rcases hyt : exec y t with ⟨_ | b, t'⟩ <;>
      simp only [hxs, hyt, SameOutcome, false_and, or_false] at h ⊢
    · exact h
    · exact .inl h
    · exact .inl (hstay a s' h)
    · rcases h with h | ⟨hq, hr'⟩
      · exact .inl (hstay a s' h)
      · exact (hf a b hq).agree s' t' hr'
  · intro s he
    have h := hx.stay s he
    rw [exec_bind]
    rcases hxs : exec x s with ⟨_ | a, s'⟩ <;> rw [hxs] at h
    · exact h
    · exact hstay a s' h

theorem lock_seq {x : Effect ε σ α} {y : Effect ε τ α} {f : α → Effect ε σ γ} {g : α → Effect ε τ δ}
    (hx : Lock R E Eq x y) (hf : ∀ a, Lock R E Q' (f a) (g a)) : Lock R E Q' (x >>= f) (y >>= g) :=
  lock_bind (fun a => ⟨a, rfl⟩) hx fun a _ hab => hab ▸ hf a

end MiniBox.Relational
