import Mathlib.Logic.Basic

namespace MiniBox.Effects

variable {ε σ α β : Type}

abbrev Effect (ε σ α : Type) := ExceptT ε (StateM σ) α

def exec (x : Effect ε σ α) (s : σ) : Except ε α × σ := StateT.run (ExceptT.run x) s

def lift (x : Except ε α) : Effect ε σ α := ExceptT.mk (pure x)

def attempt (f : σ → Except ε (α × σ)) : Effect ε σ α :=
  ExceptT.mk fun s =>
    match f s with
    | .ok (a, s') => (.ok a, s')
    | .error e => (.error e, s)

@[simp] theorem exec_pure (a : α) (s : σ) : exec (pure a : Effect ε σ α) s = (.ok a, s) := rfl

@[simp] theorem exec_throw (e : ε) (s : σ) : exec (throw e : Effect ε σ α) s = (.error e, s) := rfl

@[simp] theorem exec_lift (x : Except ε α) (s : σ) : exec (lift x : Effect ε σ α) s = (x, s) := rfl

theorem exec_attempt (f : σ → Except ε (α × σ)) (s : σ) :
    exec (attempt f) s = match f s with
      | .ok (a, s') => (.ok a, s')
      | .error e => (.error e, s) := rfl

theorem exec_bind (x : Effect ε σ α) (f : α → Effect ε σ β) (s : σ) :
    exec (x >>= f) s = match exec x s with
      | (.ok a, s') => exec (f a) s'
      | (.error e, s') => (.error e, s') := by
  change (match exec x s with
    | (r, s') => exec (ExceptT.bindCont f r : Effect ε σ β) s') = _
  rcases exec x s with ⟨_ | _, s'⟩ <;> rfl

theorem exec_bind_ok {x : Effect ε σ α} {f : α → Effect ε σ β} {s s' : σ} {a : α}
    (h : exec x s = (.ok a, s')) : exec (x >>= f) s = exec (f a) s' := by
  rw [exec_bind, h]

theorem exec_bind_cases {x : Effect ε σ α} {f : α → Effect ε σ β} {s s' : σ} {b : β}
    (h : exec (x >>= f) s = (.ok b, s')) : ∃ a s₁, exec x s = (.ok a, s₁) ∧ exec (f a) s₁ = (.ok b, s') := by
  rw [exec_bind] at h
  cases hx : exec x s with
  | mk r s₁ =>
    rw [hx] at h
    cases r with
    | error e => cases h
    | ok a => exact ⟨a, s₁, rfl, h⟩

theorem exec_attempt_cases {f : σ → Except ε (α × σ)} {s s' : σ} {a : α} (h : exec (attempt f) s = (.ok a, s')) :
    f s = .ok (a, s') := by
  rw [exec_attempt] at h
  cases hf : f s with
  | error e =>
    rw [hf] at h
    cases h
  | ok u =>
    rw [hf] at h
    cases h
    rfl

def answer : Except ε α × σ → Except ε (α × σ)
  | (.ok a, s) => .ok (a, s)
  | (.error e, _) => .error e

theorem answer_ok {r : Except ε α × σ} {a : α} {s : σ} (h : answer r = .ok (a, s)) : r = (.ok a, s) := by
  obtain ⟨_ | _, _⟩ := r
  · cases h
  · cases h
    rfl

section Postconditions

structure Ensures (x : Effect ε σ α) (Q : α → Prop) : Prop where
  answer : ∀ s a s', exec x s = (.ok a, s') → Q a

variable {x : Effect ε σ α} {f : α → Effect ε σ β} {P Q : α → Prop} {R : β → Prop}

theorem ensures_pure {a : α} (h : Q a) : Ensures (pure a : Effect ε σ α) Q := by
  constructor
  intro s b s' hb
  simp only [exec_pure, Prod.mk.injEq, Except.ok.injEq] at hb
  exact hb.1 ▸ h

theorem ensures_throw (e : ε) : Ensures (throw e : Effect ε σ α) Q := by
  constructor
  intro s b s' hb
  simp at hb

theorem ensures_lift {y : Except ε α} (h : ∀ a, y = .ok a → Q a) : Ensures (lift y : Effect ε σ α) Q := by
  constructor
  intro s b s' hb
  simp only [exec_lift, Prod.mk.injEq] at hb
  exact h b hb.1

theorem ensures_bind (hx : Ensures x P) (hf : ∀ a, P a → Ensures (f a) R) : Ensures (x >>= f) R := by
  constructor
  intro s b s' hb
  rw [exec_bind] at hb
  cases hxs : exec x s with
  | mk r s₁ =>
    rw [hxs] at hb
    cases r with
    | error e => simp at hb
    | ok a => exact (hf a (hx.answer s a s₁ hxs)).answer s₁ b s' hb

theorem ensures_seq (hf : ∀ a, Ensures (f a) R) : Ensures (x >>= f) R :=
  ensures_bind (P := fun _ => True) ⟨fun _ _ _ _ => trivial⟩ fun a _ => hf a

theorem ensures_mono (h : Ensures x P) (hpq : ∀ a, P a → Q a) : Ensures x Q :=
  ⟨fun s a s' ha => hpq a (h.answer s a s' ha)⟩

end Postconditions

section Invariants

structure Maintains (x : Effect ε σ α) (I : σ → Prop) : Prop where
  state : ∀ s, I s → I (exec x s).2

variable {x : Effect ε σ α} {f : α → Effect ε σ β} {I : σ → Prop}

theorem maintains_pure (a : α) : Maintains (pure a : Effect ε σ α) I := ⟨fun _ h => h⟩

theorem maintains_bind (hx : Maintains x I) (hf : ∀ a, Maintains (f a) I) : Maintains (x >>= f) I := by
  constructor
  intro s hs
  have h := hx.state s hs
  rw [exec_bind]
  cases hxs : exec x s with
  | mk r s' =>
    rw [hxs] at h
    cases r with
    | error e => exact h
    | ok a => exact (hf a).state s' h

end Invariants

section Failures

structure FailsClean (x : Effect ε σ α) (failed Q : α → Prop) : Prop where
  clean : ∀ s a s', exec x s = (.ok a, s') → failed a → s' = s ∧ Q a

variable {x : Effect ε σ α} {f : α → Effect ε σ β} {failed Q : α → Prop} {failed' Q' : β → Prop}

theorem failsClean_pure {a : α} (h : failed a → Q a) : FailsClean (pure a : Effect ε σ α) failed Q := by
  constructor
  intro s b s' hb hfail
  cases hb
  exact ⟨rfl, h hfail⟩

theorem failsClean_bind (hx : FailsClean x failed Q) (hf : ∀ a, failed a → Q a → FailsClean (f a) failed' Q')
    (hs : ∀ a, ¬ failed a → Ensures (f a) fun b => ¬ failed' b) : FailsClean (x >>= f) failed' Q' := by
  constructor
  intro s b s' hb hfail
  obtain ⟨a, s₁, ha, hfa⟩ := exec_bind_cases hb
  by_cases h : failed a
  · obtain ⟨rfl, hq⟩ := hx.clean s a s₁ ha h
    exact (hf a h hq).clean s₁ b s' hfa hfail
  · exact absurd hfail ((hs a h).answer s₁ b s' hfa)

theorem failsClean_read (hx : FailsClean x (fun _ => True) fun _ => True)
    (hf : ∀ a, FailsClean (f a) failed' Q') : FailsClean (x >>= f) failed' Q' :=
  failsClean_bind hx (fun a _ _ => hf a) fun _ h => absurd trivial h

end Failures

end MiniBox.Effects
