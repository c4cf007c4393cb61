import Mathlib.Data.List.Basic

namespace MiniBox.CheckedReads

variable {ε α β σ ι : Type} {e : ε}

structure Reads (e : ε) (x : Except ε α) (P : Prop) (a : α) : Prop where
  inside : P → x = .ok a
  outside : ¬ P → x = .error e

section Rules

variable {x : Except ε α} {f : α → Except ε β} {P Q : Prop} {a : α} {b : β}

theorem reads_done (h : P) (a : α) : Reads e (pure a : Except ε α) P a := ⟨fun _ => rfl, fun hn => absurd h hn⟩

theorem Reads.congr (h : Reads e x P a) (hpq : P ↔ Q) : Reads e x Q a :=
  ⟨fun hq => h.inside (hpq.mpr hq), fun hq => h.outside fun hp => hq (hpq.mp hp)⟩

theorem Reads.andThen (hx : Reads e x P a) (hpq : Q → P) (hf : P → Reads e (f a) Q b) : Reads e (x >>= f) Q b := by
  by_cases hp : P
  · rw [hx.inside hp]
    exact hf hp
  · refine ⟨fun hq => absurd (hpq hq) hp, fun _ => ?_⟩
    rw [hx.outside hp]
    rfl

theorem Reads.bind (hx : Reads e x P a) (hf : Reads e (f a) Q b) : Reads e (x >>= f) (P ∧ Q) b :=
  hx.andThen And.left fun hp => hf.congr (by simp [hp])

theorem Reads.map {g : α → β} (hx : Reads e x P a) : Reads e (x.map g) P (g a) := by
  constructor
  · intro hp
    rw [hx.inside hp]
    rfl
  · intro hn
    rw [hx.outside hn]
    rfl

theorem reads_foldlM {step : σ → ι → Except ε σ} {P : ι → Prop} {f : σ → ι → σ}
    (h : ∀ s i, Reads e (step s i) (P i) (f s i)) (l : List ι) (s : σ) :
    Reads e (l.foldlM step s) (∀ i ∈ l, P i) (l.foldl f s) := by
  induction l generalizing s with
  | nil => exact reads_done (by simp) s
  | cons i l ih =>
    rw [List.foldlM_cons, List.foldl_cons]
    apply (h s i).andThen
    · intro hall
      exact hall i List.mem_cons_self
    · intro hi
      exact (ih (f s i)).congr (by simp [hi])

end Rules

structure Checks (e : ε) (x : Except ε α) (P L : Prop) (I : α → Prop) : Prop where
  outside : ¬ P → x = .error e
  lands : P → L → ∃ a, x = .ok a ∧ I a
  dies : P → ¬ L → ∃ d, d ≠ e ∧ x = .error d

def Avoids (e : ε) (x : Except ε α) (P : Prop) : Prop := x ≠ .error e ↔ P

section Steps

variable {x : Except ε α} {f : α → Except ε β} {P Q L M : Prop} {I : α → Prop} {J : β → Prop} {a : α}

theorem Reads.checks (h : Reads e x P a) : Checks e x P True (· = a) :=
  ⟨h.outside, fun hp _ => ⟨a, h.inside hp, rfl⟩, fun _ hn => absurd trivial hn⟩

theorem checks_done (h : I a) : Checks e (pure a : Except ε α) True True I :=
  ⟨fun hn => absurd trivial hn, fun _ _ => ⟨a, rfl, h⟩, fun _ hn => absurd trivial hn⟩

theorem Checks.congr {P' L' : Prop} (h : Checks e x P L I) (hp : P ↔ P') (hl : P → (L ↔ L')) :
    Checks e x P' L' I := by
  refine ⟨fun hn => h.outside fun hp' => hn (hp.mp hp'), ?_, ?_⟩
  · intro hp' hl'
    exact h.lands (hp.mpr hp') ((hl (hp.mpr hp')).mpr hl')
  · intro hp' hl'
    exact h.dies (hp.mpr hp') fun hl'' => hl' ((hl (hp.mpr hp')).mp hl'')

theorem Checks.bind (hx : Checks e x P L I) (hf : L → ∀ a, I a → Checks e (f a) Q M J) :
    Checks e (x >>= f) (P ∧ (L → Q)) (L ∧ M) J := by
  by_cases hp : P
  · by_cases hl : L
    · obtain ⟨a, rfl, ha⟩ := hx.lands hp hl
      exact (hf hl a ha).congr (by simp [hp, hl]) (by simp [hl])
    · obtain ⟨d, hd, rfl⟩ := hx.dies hp hl
      refine ⟨fun hn => absurd ⟨hp, fun h => absurd h hl⟩ hn, fun _ hlm => absurd hlm.1 hl, ?_⟩
      intro _ _
      exact ⟨d, hd, rfl⟩
  · refine ⟨?_, fun h => absurd h.1 hp, fun h => absurd h.1 hp⟩
    intro _
    rw [hx.outside hp]
    rfl

theorem Checks.followed (hx : Checks e x P L I) (hf : ∀ a, I a → Checks e (f a) True True J) :
    Checks e (x >>= f) P L J := by
  apply (hx.bind fun _ => hf).congr
  · simp
  · simp

theorem Checks.andReturn {g : α → β} (hx : Checks e x P L I) (hg : ∀ a, I a → J (g a)) :
    Checks e (x >>= fun a => pure (g a)) P L J := hx.followed fun a ha => checks_done (hg a ha)

theorem Reads.thenChecks (hx : Reads e x P a) (hf : Checks e (f a) Q M J) : Checks e (x >>= f) (P ∧ Q) M J := by
  apply (hx.checks.bind (f := f) (Q := Q) (M := M) (J := J) ?_).congr
  · simp
  · simp
  · rintro - _ rfl
    exact hf

theorem Checks.lead (hx : Checks e x True L I) (hf : L → ∀ a, I a → Checks e (f a) Q M J) :
    Checks e (x >>= f) (L → Q) (L ∧ M) J := by
  apply (hx.bind hf).congr
  · simp
  · simp

theorem Checks.skip {c : Prop} [Decidable c] (hx : ¬ c → Checks e x P L I) {d : α} (hd : I d) :
    Checks e (if c then pure d else x) (¬ c → P) (¬ c → L) I := by
  by_cases hc : c
  · rw [if_pos hc]
    exact (checks_done hd).congr (by simp [hc]) (by simp [hc])
  · rw [if_neg hc]
    exact (hx hc).congr (by simp [hc]) (by simp [hc])

theorem Checks.only {c : Prop} [Decidable (¬ c)] (hx : c → Checks e x P L I) {d : α} (hd : I d) :
    Checks e (if ¬ c then pure d else x) (c → P) (c → L) I := by
  apply (Checks.skip (fun hc => hx (not_not.mp hc)) hd).congr
  · rw [not_not]
  · intro _
    rw [not_not]

theorem checks_range {step : σ → ℕ → Except ε σ} {P L : ℕ → Prop} {I : σ → Prop}
    (h : ∀ s i, I s → Checks e (step s i) (P i) (L i) I) (n : ℕ) {s : σ} (hs : I s) :
    Checks e ((List.range n).foldlM step s) (∀ i < n, (∀ j < i, L j) → P i) (∀ i < n, L i) I := by
  induction n with
  | zero => exact (checks_done hs).congr (by simp) (by simp)
  | succ n ih =>
    rw [List.range_succ, List.foldlM_append]
    have hlast : ∀ t, I t → Checks e ([n].foldlM step t) (P n) (L n) I := by
      intro t ht
      rw [List.foldlM_cons]
      exact (h t n ht).followed fun u hu => checks_done hu
    apply (ih.bind fun _ => hlast).congr
    · rw [Nat.forall_lt_succ_right]
    · intro _
      rw [Nat.forall_lt_succ_right]

theorem Checks.avoids (h : Checks e x P L I) : Avoids e x P := by
  constructor
  · intro hx
    by_contra hp
    exact hx (h.outside hp)
  · intro hp hx
    by_cases hl : L
    · obtain ⟨a, ha, -⟩ := h.lands hp hl
      rw [ha] at hx
      cases hx
    · obtain ⟨d, hd, hxd⟩ := h.dies hp hl
      rw [hxd] at hx
      cases hx
      exact hd rfl

theorem Checks.bind_avoids (hx : Checks e x P L I) (hf : L → ∀ a, I a → Avoids e (f a) Q) :
    Avoids e (x >>= f) (P ∧ (L → Q)) := by
  by_cases hp : P
  · by_cases hl : L
    · obtain ⟨a, rfl, ha⟩ := hx.lands hp hl
      exact (show f a ≠ .error e ↔ Q from hf hl a ha).trans (by simp [hp, hl])
    · obtain ⟨d, hd, rfl⟩ := hx.dies hp hl
      refine ⟨fun _ => ⟨hp, fun h => absurd h hl⟩, fun _ he => ?_⟩
      cases he
      exact hd rfl
  · rw [hx.outside hp]
    exact ⟨fun hn => absurd rfl hn, fun h => absurd h.1 hp⟩

theorem Avoids.congr (hx : Avoids e x P) (hpq : P ↔ Q) : Avoids e x Q :=
  (show x ≠ .error e ↔ P from hx).trans hpq

theorem Reads.thenAvoids (hx : Reads e x P a) (hf : P → Avoids e (f a) Q) : Avoids e (x >>= f) (P ∧ Q) := by
  by_cases hp : P
  · rw [hx.inside hp]
    exact (hf hp).congr (by simp [hp])
  · rw [hx.outside hp]
    exact ⟨fun hn => absurd rfl hn, fun h => absurd h.1 hp⟩

theorem bind_ne_error (hx : x ≠ .error e) (hf : ∀ a, f a ≠ .error e) : x >>= f ≠ .error e := by
  cases x with
  | ok a => exact hf a
  | error d =>
    intro h
    cases h
    exact hx rfl

theorem Avoids.andThen (hx : Avoids e x P) (hf : ∀ a, f a ≠ .error e) : Avoids e (x >>= f) P := by
  apply Iff.trans _ hx
  constructor
  · rintro h rfl
    exact h rfl
  · intro h
    exact bind_ne_error h hf

end Steps

end MiniBox.CheckedReads
