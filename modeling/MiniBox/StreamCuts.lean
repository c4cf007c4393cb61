import MiniBox.StreamReaders

namespace MiniBox.StreamReaders

open ByteStream Effects

variable {ε σ α β : Type} {D : Prop} {x : Reader ε σ α} {f : α → Reader ε σ β} {st st' st'' : σ} {a : α} {b : β}
  {bytes l tail tail' : List UInt8}

def Dies (x : Reader ε σ α) (st : σ) (src : Source) : Prop := ∃ e s, exec x (st, src) = (.error (.died e), s)

theorem Dies.left {src : Source} (h : Dies x st src) : Dies (x >>= f) st src := by
  obtain ⟨e, s, h⟩ := h
  exact ⟨e, s, by rw [exec_bind, h]⟩

theorem Dies.right {src src' : Source} (hx : exec x (st, src) = (.ok a, (st', src'))) (h : Dies (f a) st' src') :
    Dies (x >>= f) st src := by
  obtain ⟨e, s, h⟩ := h
  exact ⟨e, s, by rw [exec_bind_ok hx, h]⟩

structure Takes (D : Prop) (x : Reader ε σ α) (st : σ) (bytes : List UInt8) (a : α) (st' : σ) (tail : List UInt8) :
    Prop where
  run : ∀ src, src.rest = bytes →
    (∃ src', exec x (st, src) = (.ok a, (st', src')) ∧ src'.rest = tail) ∨ D ∧ Dies x st src

structure Refuses (D : Prop) (x : Reader ε σ α) (st : σ) (bytes : List UInt8) (st' : σ) : Prop where
  run : ∀ src, src.rest = bytes → (∃ src', exec x (st, src) = (.error .refused, (st', src'))) ∨ D ∧ Dies x st src

theorem Consumes.takes (h : Consumes x st l a st') (tail : List UInt8) : Takes D x st (l ++ tail) a st' tail :=
  ⟨fun src hsrc => Or.inl (h.run src tail hsrc)⟩

theorem takes_bind (hx : Takes D x st bytes a st' tail) (hf : Takes D (f a) st' tail b st'' tail') :
    Takes D (x >>= f) st bytes b st'' tail' := by
  constructor
  intro src hsrc
  rcases hx.run src hsrc with ⟨src', hrun, hrest⟩ | ⟨hd, hdies⟩
  · rcases hf.run src' hrest with ⟨src'', hrun', hrest'⟩ | ⟨hd, hdies⟩
    · exact Or.inl ⟨src'', (exec_bind_ok hrun).trans hrun', hrest'⟩
    · exact Or.inr ⟨hd, .right hrun hdies⟩
  · exact Or.inr ⟨hd, hdies.left⟩

theorem refuses_left (hx : Refuses D x st bytes st') : Refuses D (x >>= f) st bytes st' := by
  constructor
  intro src hsrc
  rcases hx.run src hsrc with ⟨src', hrun⟩ | ⟨hd, hdies⟩
  · refine Or.inl ⟨src', ?_⟩
    rw [exec_bind, hrun]
  · exact Or.inr ⟨hd, hdies.left⟩

theorem refuses_right (hx : Takes D x st bytes a st' tail) (hf : Refuses D (f a) st' tail st'') :
    Refuses D (x >>= f) st bytes st'' := by
  constructor
  intro src hsrc
  rcases hx.run src hsrc with ⟨src', hrun, hrest⟩ | ⟨hd, hdies⟩
  · rcases hf.run src' hrest with ⟨src'', hrun'⟩ | ⟨hd, hdies⟩
    · exact Or.inl ⟨src'', (exec_bind_ok hrun).trans hrun'⟩
    · exact Or.inr ⟨hd, .right hrun hdies⟩
  · exact Or.inr ⟨hd, hdies.left⟩

theorem takes_updating {g : σ → Except ε σ} (h : g st = .ok st') (tail : List UInt8) :
    Takes D (updating g) st tail () st' tail := (consumes_updating h).takes tail

theorem takes_updating_bind {g : σ → Except ε σ} {k : Unit → Reader ε σ β} (h : g st = .ok st')
    (hk : Takes D (k ()) st' bytes b st'' tail) : Takes D (updating g >>= k) st bytes b st'' tail :=
  takes_bind (takes_updating h bytes) hk

theorem refuses_updating_bind {g : σ → Except ε σ} {k : Unit → Reader ε σ β} (h : g st = .ok st')
    (hk : Refuses D (k ()) st' bytes st'') : Refuses D (updating g >>= k) st bytes st'' :=
  refuses_right (takes_updating h bytes) hk

theorem Refuses.mono {D' : Prop} (h : Refuses D x st bytes st') (hd : D → D') : Refuses D' x st bytes st' := by
  constructor
  intro src hsrc
  rcases h.run src hsrc with hrun | ⟨hD, hdies⟩
  · exact Or.inl hrun
  · exact Or.inr ⟨hd hD, hdies⟩

theorem refuses_reading {g : σ → Source → Bool × β × Source} {p : σ → β → σ}
    (h : ∀ src, src.rest = bytes → (g st src).1 = false ∧ (g st src).2.1 = b) :
    Refuses D (reading g p : Reader ε σ β) st bytes (p st b) := by
  constructor
  intro src hsrc
  obtain ⟨h1, h2⟩ := h src hsrc
  refine Or.inl ⟨(g st src).2.2, ?_⟩
  rw [exec_reading, h1, h2]
  rfl

theorem refuses_readBytes {n : ℕ} (h : bytes.length < n) :
    Refuses D (readBytes n : Reader ε σ (Bytes n)) st bytes st := by
  apply refuses_reading (p := fun st _ => st) (b := overlay (zeroes n) 0 (bytes.take n))
  intro src hsrc
  rw [rd_fst, rd_buf, hsrc]
  exact ⟨decide_eq_false (by omega), rfl⟩

theorem refuses_readU32 (h : bytes.length < 4) : Refuses D (readU32 : Reader ε σ UInt32) st bytes st := by
  apply refuses_reading (p := fun st _ => st) (b := u32OfBytes (overlay (u32Bytes 0) 0 (bytes.take 4)))
  intro src hsrc
  rw [rdU32, rd_fst, rd_buf, hsrc]
  exact ⟨decide_eq_false (by omega), rfl⟩

theorem refuses_readU64 (h : bytes.length < 8) : Refuses D (readU64 : Reader ε σ UInt64) st bytes st := by
  apply refuses_reading (p := fun st _ => st) (b := u64OfBytes (overlay (u64Bytes 0) 0 (bytes.take 8)))
  intro src hsrc
  rw [rdU64, rd_fst, rd_buf, hsrc]
  exact ⟨decide_eq_false (by omega), rfl⟩

theorem rdMagic_false {magic : List UInt8} {src : Source} (h : ¬ magic <+: src.rest) :
    ((rdMagic magic src).1 && (rdMagic magic src).2.1) = false := by
  by_contra hne
  obtain ⟨h1, h2⟩ : (rdMagic magic src).1 = true ∧ (rdMagic magic src).2.1 = true := by simpa using hne
  exact h ⟨_, (rdMagic_true h1 h2).symm⟩

theorem refuses_expect {magic : List UInt8} (h : ¬ magic <+: bytes) :
    Refuses D (expect magic : Reader ε σ Unit) st bytes st := by
  apply refuses_reading (p := fun st _ => st) (b := ())
  rintro src rfl
  exact ⟨rdMagic_false h, rfl⟩

section Times

variable {y : Reader ε σ Unit} {enc : β → List UInt8} (S : List β → σ)

theorem takes_times (bs : List β) (tail : List UInt8)
    (h : ∀ done b todo tail, bs = done ++ b :: todo → Takes D y (S done) (enc b ++ tail) () (S (done ++ [b])) tail) :
    Takes D (times y bs.length) (S []) (bs.flatMap enc ++ tail) () (S bs) tail := by
  suffices hs : ∀ todo done, bs = done ++ todo →
      Takes D (times y todo.length) (S done) (todo.flatMap enc ++ tail) () (S bs) tail from hs bs [] rfl
  intro todo
  induction todo with
  | nil =>
    intro done hl
    rw [List.append_nil] at hl
    subst hl
    exact (consumes_pure () _).takes tail
  | cons b todo ih =>
    intro done hl
    rw [List.flatMap_cons, List.append_assoc]
    apply takes_bind (h done b todo _ hl)
    apply ih
    rw [hl, List.append_assoc]
    rfl

theorem refuses_times {n : ℕ} {p : List UInt8} (bs : List β) (hn : bs.length < n)
    (h : ∀ done b todo tail, bs = done ++ b :: todo → Takes D y (S done) (enc b ++ tail) () (S (done ++ [b])) tail)
    (hp : Refuses D y (S bs) p st') :
    Refuses D (times y n) (S []) (bs.flatMap enc ++ p) st' := by
  suffices hs : ∀ todo done n, bs = done ++ todo → todo.length < n →
      Refuses D (times y n) (S done) (todo.flatMap enc ++ p) st' from hs bs [] n rfl hn
  intro todo
  induction todo with
  | nil =>
    intro done n hl hn
    rw [List.append_nil] at hl
    subst hl
    obtain ⟨k, rfl⟩ := Nat.exists_eq_succ_of_ne_zero (Nat.pos_iff_ne_zero.mp hn)
    exact refuses_left hp
  | cons b todo ih =>
    intro done n hl hn
    obtain ⟨k, rfl⟩ := Nat.exists_eq_succ_of_ne_zero (Nat.ne_zero_of_lt hn)
    rw [List.flatMap_cons, List.append_assoc]
    apply refuses_right (h done b todo _ hl)
    apply ih
    · rw [hl, List.append_assoc]
      rfl
    · simpa using hn

theorem split_times {short : List UInt8 → Prop} (h : ∀ l, (∃ b rest, l = enc b ++ rest) ∨ short l) (n : ℕ)
    (l : List UInt8) :
    (∃ (bs : List β) (rest : List UInt8), bs.length = n ∧ l = bs.flatMap enc ++ rest) ∨
      ∃ (bs : List β) (p : List UInt8), bs.length < n ∧ short p ∧ l = bs.flatMap enc ++ p := by
  induction n generalizing l with
  | zero => exact Or.inl ⟨[], l, rfl, rfl⟩
  | succ n ih =>
    rcases h l with ⟨b, rest, rfl⟩ | hs
    · rcases ih rest with ⟨bs, rest', hlen, rfl⟩ | ⟨bs, p, hlen, hp, rfl⟩
      · exact Or.inl ⟨b :: bs, rest', by simp [hlen], by simp⟩
      · exact Or.inr ⟨b :: bs, p, by simpa using hlen, hp, by simp⟩
    · exact Or.inr ⟨[], l, Nat.succ_pos n, hs, rfl⟩

end Times

end MiniBox.StreamReaders
