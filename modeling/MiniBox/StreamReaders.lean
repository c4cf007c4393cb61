import MiniBox.Effects
import MiniBox.LittleEndian

namespace MiniBox.StreamReaders

open ByteStream Effects

inductive Stop (ε : Type)
  | refused
  | died (e : ε)

abbrev Reader (ε σ α : Type) := Effect (Stop ε) (σ × Source) α

variable {ε σ α β : Type}

def reading (f : σ → Source → Bool × β × Source) (put : σ → β → σ) : Reader ε σ β :=
  ExceptT.mk fun (st, src) =>
    let r := f st src
    (if r.1 then .ok r.2.1 else .error .refused, (put st r.2.1, r.2.2))

def updating (f : σ → Except ε σ) : Reader ε σ Unit :=
  ExceptT.mk fun (st, src) =>
    match f st with
    | .ok st' => (.ok (), (st', src))
    | .error e => (.error (.died e), (st, src))

def readBytes (n : ℕ) : Reader ε σ (Bytes n) := reading (fun _ src => rd (zeroes n) src) fun st _ => st

def readU32 : Reader ε σ UInt32 := reading (fun _ src => rdU32 0 src) fun st _ => st

def readU64 : Reader ε σ UInt64 := reading (fun _ src => rdU64 0 src) fun st _ => st

def expect (magic : List UInt8) : Reader ε σ Unit :=
  reading (fun _ src => ((rdMagic magic src).1 && (rdMagic magic src).2.1, (), (rdMagic magic src).2.2))
    fun st _ => st

def calling (f : σ → Source → Except ε (ℤ × σ × Source)) : Reader ε σ Unit :=
  ExceptT.mk fun (st, src) =>
    match f st src with
    | .ok (rc, st', src') => (if rc = 0 then .ok () else .error .refused, (st', src'))
    | .error e => (.error (.died e), (st, src))

def times (x : Reader ε σ Unit) : ℕ → Reader ε σ Unit
  | 0 => pure ()
  | n + 1 => do
    x
    times x n

theorem exec_reading (f : σ → Source → Bool × β × Source) (p : σ → β → σ) (st : σ) (src : Source) :
    exec (reading f p : Reader ε σ β) (st, src) =
      (if (f st src).1 then .ok (f st src).2.1 else .error .refused, (p st (f st src).2.1, (f st src).2.2)) := rfl

theorem exec_updating (f : σ → Except ε σ) (st : σ) (src : Source) :
    exec (updating f) (st, src) = match f st with
      | .ok st' => (.ok (), (st', src))
      | .error e => (.error (.died e), (st, src)) := rfl

theorem exec_calling (f : σ → Source → Except ε (ℤ × σ × Source)) (st : σ) (src : Source) :
    exec (calling f) (st, src) = match f st src with
      | .ok (rc, st', src') => (if rc = 0 then .ok () else .error .refused, (st', src'))
      | .error e => (.error (.died e), (st, src)) := rfl

structure Consumes (x : Reader ε σ α) (st : σ) (bytes : List UInt8) (a : α) (st' : σ) : Prop where
  run : ∀ src tail, src.rest = bytes ++ tail →
    ∃ src', exec x (st, src) = (.ok a, (st', src')) ∧ src'.rest = tail

theorem consumes_pure (a : α) (st : σ) : Consumes (pure a : Reader ε σ α) st [] a st := by
  constructor
  intro src tail h
  exact ⟨src, rfl, h⟩

theorem consumes_bind {x : Reader ε σ α} {f : α → Reader ε σ β} {st st' st'' : σ} {l l' : List UInt8} {a : α} {b : β}
    (hx : Consumes x st l a st') (hf : Consumes (f a) st' l' b st'') :
    Consumes (x >>= f) st (l ++ l') b st'' := by
  constructor
  intro src tail h
  rw [List.append_assoc] at h
  obtain ⟨src', hrun, hrest⟩ := hx.run src _ h
  obtain ⟨src'', hrun', hrest'⟩ := hf.run src' tail hrest
  exact ⟨src'', (exec_bind_ok hrun).trans hrun', hrest'⟩

theorem consumes_reading {f : σ → Source → Bool × β × Source} {p : σ → β → σ} {st : σ} {l : List UInt8} {b : β}
    (h : ∀ src tail, src.rest = l ++ tail →
      (f st src).1 = true ∧ (f st src).2.1 = b ∧ (f st src).2.2.rest = tail) :
    Consumes (reading f p : Reader ε σ β) st l b (p st b) := by
  constructor
  intro src tail hsrc
  obtain ⟨h1, h2, h3⟩ := h src tail hsrc
  refine ⟨(f st src).2.2, ?_, h3⟩
  rw [exec_reading, if_pos h1, h2]

theorem consumes_calling {f : σ → Source → Except ε (ℤ × σ × Source)} {st st' : σ} {l : List UInt8}
    (h : ∀ src tail, src.rest = l ++ tail → ∃ src', f st src = .ok (0, st', src') ∧ src'.rest = tail) :
    Consumes (calling f) st l () st' := by
  constructor
  intro src tail hsrc
  obtain ⟨src', hf, hrest⟩ := h src tail hsrc
  refine ⟨src', ?_, hrest⟩
  rw [exec_calling, hf]
  rfl

theorem consumes_updating {f : σ → Except ε σ} {st st' : σ} (h : f st = .ok st') :
    Consumes (updating f) st [] () st' := by
  constructor
  intro src tail hsrc
  refine ⟨src, ?_, hsrc⟩
  rw [exec_updating, h]

theorem consumes_updating_bind {f : σ → Except ε σ} {g : Unit → Reader ε σ α} {st st' st'' : σ} {l : List UInt8}
    {a : α} (h : f st = .ok st') (hg : Consumes (g ()) st' l a st'') : Consumes (updating f >>= g) st l a st'' :=
  consumes_bind (consumes_updating h) hg

theorem consumes_readBytes {n : ℕ} (x : Bytes n) (st : σ) :
    Consumes (readBytes n : Reader ε σ (Bytes n)) st (List.ofFn x) x st :=
  consumes_reading (p := fun st _ => st) fun src tail h => rd_ofFn (zeroes n) x src tail h

theorem consumes_readU32 (x : UInt32) (st : σ) :
    Consumes (readU32 : Reader ε σ UInt32) st (List.ofFn (u32Bytes x)) x st :=
  consumes_reading (p := fun st _ => st) fun src tail h => rdU32_of 0 x src tail h

theorem consumes_readU64 (x : UInt64) (st : σ) :
    Consumes (readU64 : Reader ε σ UInt64) st (List.ofFn (u64Bytes x)) x st :=
  consumes_reading (p := fun st _ => st) fun src tail h => rdU64_of 0 x src tail h

theorem consumes_expect (magic : List UInt8) (st : σ) :
    Consumes (expect magic : Reader ε σ Unit) st magic () st := by
  apply consumes_reading (p := fun st _ => st)
  intro src tail h
  obtain ⟨h1, h2, h3⟩ := rdMagic_of magic tail src h
  exact ⟨by simp [h1, h2], rfl, h3⟩

theorem consumes_times {x : Reader ε σ Unit} {enc : β → List UInt8} (S : List β → σ) (l : List β)
    (h : ∀ done b todo, l = done ++ b :: todo → Consumes x (S done) (enc b) () (S (done ++ [b]))) :
    Consumes (times x l.length) (S []) (l.flatMap enc) () (S l) := by
  suffices hs : ∀ todo done, l = done ++ todo →
      Consumes (times x todo.length) (S done) (todo.flatMap enc) () (S l) from hs l [] rfl
  intro todo
  induction todo with
  | nil =>
    intro done hl
    rw [List.append_nil] at hl
    subst hl
    exact consumes_pure () _
  | cons b todo ih =>
    intro done hl
    rw [List.flatMap_cons]
    apply consumes_bind (h done b todo hl)
    apply ih
    rw [hl, List.append_assoc]
    rfl

section Outcomes

structure Yields (x : Reader ε σ α) (st : σ) (bytes : List UInt8) (Q : σ → Prop) : Prop where
  run : ∀ src tail, src.rest = bytes ++ tail →
    ∃ a st' src', exec x (st, src) = (.ok a, (st', src')) ∧ src'.rest = tail ∧ Q st'

variable {P Q : σ → Prop}

theorem Consumes.yields {x : Reader ε σ α} {st st' : σ} {bytes : List UInt8} {a : α} (h : Consumes x st bytes a st')
    (hq : Q st') : Yields x st bytes Q := by
  constructor
  intro src tail hsrc
  obtain ⟨src', hrun, hrest⟩ := h.run src tail hsrc
  exact ⟨a, st', src', hrun, hrest, hq⟩

theorem Consumes.andYields {x : Reader ε σ α} {f : α → Reader ε σ β} {st st' : σ} {l l' : List UInt8} {a : α}
    (hx : Consumes x st l a st') (hf : Yields (f a) st' l' Q) : Yields (x >>= f) st (l ++ l') Q := by
  constructor
  intro src tail hsrc
  rw [List.append_assoc] at hsrc
  obtain ⟨src₁, hrun, hrest⟩ := hx.run src _ hsrc
  obtain ⟨b, st₂, src₂, hrun', hrest', hq⟩ := hf.run src₁ tail hrest
  exact ⟨b, st₂, src₂, (exec_bind_ok hrun).trans hrun', hrest', hq⟩

theorem yields_bind {x : Reader ε σ α} {f : α → Reader ε σ β} {st : σ} {l l' : List UInt8} (hx : Yields x st l P)
    (hf : ∀ a st', P st' → Yields (f a) st' l' Q) : Yields (x >>= f) st (l ++ l') Q := by
  constructor
  intro src tail hsrc
  rw [List.append_assoc] at hsrc
  obtain ⟨a, st₁, src₁, hrun, hrest, hp⟩ := hx.run src _ hsrc
  obtain ⟨b, st₂, src₂, hrun', hrest', hq⟩ := (hf a st₁ hp).run src₁ tail hrest
  exact ⟨b, st₂, src₂, (exec_bind_ok hrun).trans hrun', hrest', hq⟩

theorem yields_calling {f : σ → Source → Except ε (ℤ × σ × Source)} {st : σ} {l : List UInt8}
    (h : ∀ src tail, src.rest = l ++ tail → ∃ st' src', f st src = .ok (0, st', src') ∧ src'.rest = tail ∧ Q st') :
    Yields (calling f) st l Q := by
  constructor
  intro src tail hsrc
  obtain ⟨st', src', hf, hrest, hq⟩ := h src tail hsrc
  refine ⟨(), st', src', ?_, hrest, hq⟩
  rw [exec_calling, hf]
  rfl

end Outcomes

section Invariants

variable {I : σ → Prop}

abbrev Builds (x : Reader ε σ α) (I : σ → Prop) : Prop := Maintains x fun s => I s.1

theorem builds_reading {f : σ → Source → Bool × β × Source} {p : σ → β → σ} (h : ∀ st b, I st → I (p st b)) :
    Builds (reading f p : Reader ε σ β) I := by
  constructor
  rintro ⟨st, src⟩ hst
  rw [exec_reading]
  exact h st _ hst

theorem builds_updating {f : σ → Except ε σ} (h : ∀ st st', f st = .ok st' → I st → I st') :
    Builds (updating f) I := by
  constructor
  rintro ⟨st, src⟩ hst
  rw [exec_updating]
  cases hf : f st with
  | error e => exact hst
  | ok st' => exact h st st' hf hst

theorem builds_times {x : Reader ε σ Unit} (hx : Builds x I) (n : ℕ) : Builds (times x n) I := by
  induction n with
  | zero => exact maintains_pure ()
  | succ n ih => exact maintains_bind hx fun _ => ih

end Invariants

section Transitions

variable {R S : σ → σ → Prop}

structure Turns (x : Reader ε σ α) (R : σ → σ → Prop) : Prop where
  run : ∀ st src a st' src', exec x (st, src) = (.ok a, (st', src')) → R st st'

theorem turns_reading {f : σ → Source → Bool × β × Source} {p : σ → β → σ} (h : ∀ st b, R st (p st b)) :
    Turns (reading f p : Reader ε σ β) R := by
  constructor
  intro st src a st' src' hrun
  rw [exec_reading] at hrun
  split_ifs at hrun
  · cases hrun
    exact h st _
  · cases hrun

theorem turns_calling {f : σ → Source → Except ε (ℤ × σ × Source)}
    (h : ∀ st src st' src', f st src = .ok (0, st', src') → R st st') : Turns (calling f) R := by
  constructor
  intro st src a st' src' hrun
  rw [exec_calling] at hrun
  cases hf : f st src with
  | error e =>
    rw [hf] at hrun
    cases hrun
  | ok r =>
    obtain ⟨rc, st₁, src₁⟩ := r
    rw [hf] at hrun
    by_cases hrc : rc = 0
    · simp only [hrc, ↓reduceIte] at hrun
      cases hrun
      exact h _ _ _ _ (hrc ▸ hf)
    · simp only [hrc, ↓reduceIte] at hrun
      cases hrun

theorem turns_bind {x : Reader ε σ α} {f : α → Reader ε σ β} (hx : Turns x R) (hf : ∀ a, Turns (f a) S) :
    Turns (x >>= f) fun st st'' => ∃ st', R st st' ∧ S st' st'' := by
  constructor
  intro st src b st'' src'' hrun
  obtain ⟨a, ⟨st', src'⟩, h₁, h₂⟩ := exec_bind_cases hrun
  exact ⟨st', hx.run st src a st' src' h₁, (hf a).run st' src' b st'' src'' h₂⟩

theorem turns_skip {x : Reader ε σ α} {f : α → Reader ε σ β} (hx : Turns x Eq) (hf : ∀ a, Turns (f a) S) :
    Turns (x >>= f) S := by
  constructor
  intro st src b st'' src'' hrun
  obtain ⟨st', rfl, h⟩ := (turns_bind hx hf).run st src b st'' src'' hrun
  exact h

theorem turns_expect (magic : List UInt8) : Turns (expect magic : Reader ε σ Unit) Eq := turns_reading fun _ _ => rfl

end Transitions

end MiniBox.StreamReaders
