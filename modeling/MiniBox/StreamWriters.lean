import MiniBox.StreamReaders

namespace MiniBox.StreamWriters

open ByteStream Effects StreamReaders

variable {ε σ : Type}

abbrev Writer (ε σ α : Type) := Effect (Stop ε) (σ × Sink) α

def putting (chunk : σ → List UInt8) : Writer ε σ Unit :=
  ExceptT.mk fun (st, w) =>
    match w.put (chunk st) with
    | (true, w') => (.ok (), (st, w'))
    | (false, w') => (.error .refused, (st, w'))

def handing (f : σ → Sink → Except ε (ℤ × σ × Sink)) : Writer ε σ Unit :=
  ExceptT.mk fun (st, w) =>
    match f st w with
    | .ok (rc, st', w') => (if rc = 0 then .ok () else .error .refused, (st', w'))
    | .error e => (.error (.died e), (st, w))

inductive Wrote (bytes : List UInt8) (st' : σ) (w : Sink) : Except (Stop ε) Unit × (σ × Sink) → Prop
  | done {w' : Sink} : w'.out = w.out ++ bytes → w'.fails = w.fails → Wrote bytes st' w (.ok (), (st', w'))
  | refused {st₁ : σ} {w' : Sink} : (∃ k, w.fails k = true) → Wrote bytes st' w (.error .refused, (st₁, w'))

def Emits (x : Writer ε σ Unit) (st : σ) (bytes : List UInt8) (st' : σ) : Prop :=
  ∀ w, Wrote bytes st' w (exec x (st, w))

theorem emits_bind {x : Writer ε σ Unit} {f : Unit → Writer ε σ Unit} {st st' st'' : σ} {l l' : List UInt8}
    (hx : Emits x st l st') (hf : Emits (f ()) st' l' st'') : Emits (x >>= f) st (l ++ l') st'' := by
  intro w
  rw [exec_bind]
  generalize hr : exec x (st, w) = r
  have h := hx w
  rw [hr] at h
  cases h with
  | refused hk => exact .refused hk
  | @done w' hout hfails =>
    have h' := hf w'
    generalize hr' : exec (f ()) (st', w') = r'
    rw [hr'] at h'
    change Wrote (l ++ l') st'' w (exec (f ()) (st', w'))
    rw [hr']
    cases h' with
    | refused hk => exact .refused (hfails ▸ hk)
    | done hout' hfails' =>
      refine .done ?_ (hfails'.trans hfails)
      rw [hout', hout, List.append_assoc]

theorem emits_putting (chunk : σ → List UInt8) (st : σ) : Emits (putting chunk : Writer ε σ Unit) st (chunk st) st := by
  intro w
  change Wrote _ _ w (match w.put (chunk st) with
    | (true, w') => (Except.ok (), (st, w'))
    | (false, w') => (.error Stop.refused, (st, w')))
  unfold Sink.put
  split_ifs with hf
  · exact .refused ⟨_, hf⟩
  · exact .done rfl rfl

theorem emits_handing {f : σ → Sink → Except ε (ℤ × σ × Sink)} {st st' : σ} {l : List UInt8}
    (h : ∀ w, ∃ rc st₁ w', f st w = .ok (rc, st₁, w') ∧
      ((rc = 0 ∧ st₁ = st' ∧ w'.out = w.out ++ l ∧ w'.fails = w.fails) ∨ (rc ≠ 0 ∧ ∃ k, w.fails k = true))) :
    Emits (handing f) st l st' := by
  intro w
  obtain ⟨rc, st₁, w', hf, hc⟩ := h w
  change Wrote l st' w (match f st w with
    | .ok (rc, st', w') => (if rc = 0 then .ok () else .error .refused, (st', w'))
    | .error e => (.error (.died e), (st, w)))
  rw [hf]
  rcases hc with ⟨rfl, rfl, hout, hfails⟩ | ⟨hne, hk⟩
  · exact .done hout hfails
  · simp only [hne, ↓reduceIte]
    exact .refused hk

section Invariants

variable {I : σ → Prop}

abbrev Spares (x : Writer ε σ Unit) (I : σ → Prop) : Prop := Maintains x fun s => I s.1

theorem spares_putting (chunk : σ → List UInt8) : Spares (putting chunk : Writer ε σ Unit) I := by
  constructor
  rintro ⟨st, w⟩ hst
  change I (match w.put (chunk st) with
    | (true, w') => (Except.ok (), (st, w'))
    | (false, w') => (.error (Stop.refused : Stop ε), (st, w'))).2.1
  rcases w.put (chunk st) with ⟨_ | _, w'⟩
  · exact hst
  · exact hst

theorem spares_handing {f : σ → Sink → Except ε (ℤ × σ × Sink)}
    (h : ∀ st w rc st' w', f st w = .ok (rc, st', w') → I st → I st') : Spares (handing f) I := by
  constructor
  rintro ⟨st, w⟩ hst
  change I (match f st w with
    | .ok (rc, st', w') => (if rc = 0 then Except.ok () else .error Stop.refused, (st', w'))
    | .error e => (.error (.died e), (st, w))).2.1
  cases hf : f st w with
  | error e => exact hst
  | ok r => exact h st w _ _ _ hf hst

end Invariants

end MiniBox.StreamWriters
