import Mathlib.Tactic
import Mathlib.Data.List.OfFn

namespace MiniBox.ByteStream

abbrev Bytes (n : ℕ) := Fin n → UInt8

variable {n : ℕ}

def zeroes (n : ℕ) : Bytes n := fun _ => 0

def overlay (buf : Bytes n) (off : ℕ) (l : List UInt8) : Bytes n :=
  fun i => if off ≤ i then (l[i.val - off]?).getD (buf i) else buf i

def ascii (s : String) : List UInt8 := s.toList.map fun c => UInt8.ofNat c.toNat

structure Source where
  rest : List UInt8
  wish : ℕ → ℕ
  calls : ℕ

/-- The number of bytes one call returns: at least one and at most `m`, none at the end. -/
def Source.chunk (s : Source) (m : ℕ) : ℕ := min (max 1 (s.wish s.calls)) (min m s.rest.length)

def Source.advance (s : Source) (k : ℕ) : Source :=
  { s with rest := s.rest.drop k, calls := s.calls + 1 }

def rdLoop : ℕ → ℕ → Bytes n → Source → Bool × Bytes n × Source
  | 0, off, buf, s => (decide (n ≤ off), buf, s)
  | fuel + 1, off, buf, s =>
    if n ≤ off then (true, buf, s)
    else if s.chunk (n - off) = 0 then (false, buf, s.advance 0)
    else rdLoop fuel (off + s.chunk (n - off))
      (overlay buf off (s.rest.take (s.chunk (n - off)))) (s.advance (s.chunk (n - off)))

def rd (buf : Bytes n) (s : Source) : Bool × Bytes n × Source := rdLoop n 0 buf s

theorem chunk_le (s : Source) (m : ℕ) : s.chunk m ≤ m := by
  simp only [Source.chunk]; omega

theorem chunk_le_length (s : Source) (m : ℕ) : s.chunk m ≤ s.rest.length := by
  simp only [Source.chunk]; omega

theorem chunk_eq_zero (s : Source) (m : ℕ) (hm : 0 < m) : s.chunk m = 0 ↔ s.rest = [] := by
  rw [← List.length_eq_zero_iff]
  simp only [Source.chunk]; omega

@[simp] theorem advance_rest (s : Source) (k : ℕ) : (s.advance k).rest = s.rest.drop k := rfl

theorem overlay_nil (buf : Bytes n) (off : ℕ) : overlay buf off [] = buf := by
  funext i
  simp [overlay]

theorem overlay_overlay (buf : Bytes n) (off k m : ℕ) (l : List UInt8) (hm : k ≤ m) :
    overlay (overlay buf off (l.take k)) (off + k) ((l.drop k).take (m - k)) =
      overlay buf off (l.take m) := by
  funext i
  simp only [overlay, List.getElem?_take, List.getElem?_drop]
  by_cases h1 : off ≤ i.val
  · by_cases h2 : off + k ≤ i.val
    · have h3 : ¬ i.val - off < k := by omega
      have h4 : k + (i.val - (off + k)) = i.val - off := by omega
      have h5 : i.val - (off + k) < m - k ↔ i.val - off < m := by omega
      simp [h1, h2, h3, h4, h5]
    · have h3 : i.val - off < k := by omega
      have h4 : i.val - off < m := by omega
      simp [h1, h2, h3, h4]
  · have h2 : ¬ off + k ≤ i.val := by omega
    simp [h1, h2]

theorem rdLoop_spec (fuel off : ℕ) (buf : Bytes n) (s : Source) (hoff : off ≤ n) (hf : n - off ≤ fuel) :
    (rdLoop fuel off buf s).1 = decide (n - off ≤ s.rest.length) ∧
      (rdLoop fuel off buf s).2.1 = overlay buf off (s.rest.take (n - off)) ∧
      (rdLoop fuel off buf s).2.2.rest = s.rest.drop (n - off) := by
  induction fuel generalizing off buf s with
  | zero =>
    have he : n - off = 0 := by omega
    simp only [rdLoop, he, List.take_zero, overlay_nil, List.drop_zero, and_self, and_true]
    simp; omega
  | succ fuel ih =>
    unfold rdLoop
    by_cases hd : n ≤ off
    · have he : n - off = 0 := by omega
      simp [hd, he, overlay_nil]
    · have hz := chunk_eq_zero s (n - off) (by omega)
      by_cases hc : s.chunk (n - off) = 0
      · have hr := hz.mp hc
        simp only [hd, ↓reduceIte, hc, hr, List.take_nil, overlay_nil, advance_rest, List.drop_nil,
          List.length_nil, and_self, and_true]
        simp; omega
      · have hle := chunk_le s (n - off)
        have hlen := chunk_le_length s (n - off)
        obtain ⟨h1, h2, h3⟩ := ih (off + s.chunk (n - off))
          (overlay buf off (s.rest.take (s.chunk (n - off)))) (s.advance (s.chunk (n - off)))
          (by omega) (by omega)
        simp only [hd, ↓reduceIte, hc]
        refine ⟨?_, ?_, ?_⟩
        · rw [h1]
          simp only [advance_rest, List.length_drop, decide_eq_decide]
          omega
        · rw [h2, advance_rest, ← Nat.sub_sub, overlay_overlay _ _ _ _ _ hle]
        · rw [h3, advance_rest, List.drop_drop]
          congr 1; omega

theorem rd_fst (buf : Bytes n) (s : Source) : (rd buf s).1 = decide (n ≤ s.rest.length) := by
  simpa [rd] using (rdLoop_spec n 0 buf s (by omega) (by omega)).1

theorem rd_buf (buf : Bytes n) (s : Source) : (rd buf s).2.1 = overlay buf 0 (s.rest.take n) := by
  simpa [rd] using (rdLoop_spec n 0 buf s (by omega) (by omega)).2.1

theorem rd_rest (buf : Bytes n) (s : Source) : (rd buf s).2.2.rest = s.rest.drop n := by
  simpa [rd] using (rdLoop_spec n 0 buf s (by omega) (by omega)).2.2

theorem overlay_eq_iff {buf : Bytes n} {p : List UInt8} (hp : p.length ≤ n) :
    overlay buf 0 p = buf ↔ p <+: List.ofFn buf := by
  constructor
  · intro h
    refine List.prefix_iff_eq_take.mpr (List.ext_getElem (by simp [hp]) fun i h1 h2 => ?_)
    have hi : i < n := by omega
    have hget := congrFun h ⟨i, hi⟩
    simp only [overlay, Nat.zero_le, ↓reduceIte, Nat.sub_zero, List.getElem?_eq_getElem h1, Option.getD_some] at hget
    rw [List.getElem_take, hget]
    exact (List.getElem_ofFn _).symm
  · rintro ⟨q, hq⟩
    funext i
    by_cases hi : i.val < p.length
    · have hget : (List.ofFn buf)[i.val]? = some (buf i) := by
        rw [List.getElem?_ofFn, dif_pos i.isLt]
      rw [← hq, List.getElem?_append_left hi] at hget
      simp only [overlay, Nat.zero_le, ↓reduceIte, Nat.sub_zero, hget, Option.getD_some]
    · simp only [overlay, Nat.zero_le, ↓reduceIte, Nat.sub_zero, List.getElem?_eq_none (Nat.le_of_not_lt hi),
        Option.getD_none]

theorem overlay_ofFn (buf x : Bytes n) (tail : List UInt8) :
    overlay buf 0 ((List.ofFn x ++ tail).take n) = x := by
  rw [List.take_left' List.length_ofFn]
  funext i
  simp [overlay]

theorem rd_ofFn (buf x : Bytes n) (s : Source) (tail : List UInt8) (h : s.rest = List.ofFn x ++ tail) :
    (rd buf s).1 = true ∧ (rd buf s).2.1 = x ∧ (rd buf s).2.2.rest = tail := by
  have hl : (List.ofFn x).length = n := List.length_ofFn
  refine ⟨?_, ?_, ?_⟩
  · rw [rd_fst, h, decide_eq_true_eq, List.length_append, hl]
    omega
  · rw [rd_buf, h, overlay_ofFn]
  · rw [rd_rest, h, List.drop_left' hl]

theorem exists_ofFn {l : List UInt8} {n : ℕ} (h : l.length = n) : ∃ x : Bytes n, List.ofFn x = l := by
  subst h
  exact ⟨fun i => l[i.val], List.ofFn_getElem⟩

def rdMagic (magic : List UInt8) (s : Source) : Bool × Bool × Source :=
  let r := rd (zeroes magic.length) s
  (r.1, decide (List.ofFn r.2.1 = magic), r.2.2)

theorem rdMagic_of (magic tail : List UInt8) (s : Source) (h : s.rest = magic ++ tail) :
    (rdMagic magic s).1 = true ∧ (rdMagic magic s).2.1 = true ∧ (rdMagic magic s).2.2.rest = tail := by
  have hm : List.ofFn (fun i : Fin magic.length => magic[i.val]) = magic := List.ofFn_getElem
  obtain ⟨h1, h2, h3⟩ := rd_ofFn (zeroes magic.length) (fun i => magic[i.val]) s tail (by rw [h, hm])
  exact ⟨h1, by simp only [rdMagic, h2, hm, decide_true], h3⟩

theorem rd_true {buf : Bytes n} {s : Source} (h : (rd buf s).1 = true) :
    s.rest = List.ofFn (rd buf s).2.1 ++ (rd buf s).2.2.rest := by
  rw [rd_fst, decide_eq_true_eq] at h
  obtain ⟨x, hx⟩ := exists_ofFn (List.length_take_of_le h)
  have hsplit : s.rest = List.ofFn x ++ s.rest.drop n := by rw [hx, List.take_append_drop]
  obtain ⟨-, h2, h3⟩ := rd_ofFn buf x s _ hsplit
  rw [h2, h3]
  exact hsplit

theorem rdMagic_true {magic : List UInt8} {s : Source} (h1 : (rdMagic magic s).1 = true)
    (h2 : (rdMagic magic s).2.1 = true) : s.rest = magic ++ (rdMagic magic s).2.2.rest := by
  have hsplit := rd_true h1
  have hm : List.ofFn (rd (zeroes magic.length) s).2.1 = magic := of_decide_eq_true h2
  rw [hm] at hsplit
  exact hsplit

structure Sink where
  out : List UInt8
  calls : ℕ
  fails : ℕ → Bool

def Sink.accepting : Sink := ⟨[], 0, fun _ => false⟩

def Sink.put (w : Sink) (chunk : List UInt8) : Bool × Sink :=
  if w.fails w.calls then (false, { w with calls := w.calls + 1 })
  else (true, { w with out := w.out ++ chunk, calls := w.calls + 1 })

def Sink.putAll (w : Sink) : List (List UInt8) → Bool × Sink
  | [] => (true, w)
  | chunk :: chunks =>
    match w.put chunk with
    | (true, w') => w'.putAll chunks
    | (false, w') => (false, w')

theorem Sink.putAll_cases (w : Sink) (chunks : List (List UInt8)) :
    (∃ w', w.putAll chunks = (true, w') ∧ w'.out = w.out ++ chunks.flatten ∧ w'.fails = w.fails) ∨
      ∃ w', w.putAll chunks = (false, w') ∧ ∃ k, w.fails k = true := by
  induction chunks generalizing w with
  | nil => exact .inl ⟨w, rfl, by simp, rfl⟩
  | cons chunk chunks ih =>
    simp only [Sink.putAll, Sink.put]
    by_cases hf : w.fails w.calls = true
    · exact .inr ⟨_, by rw [if_pos hf], _, hf⟩
    · rw [if_neg hf]
      rcases ih ⟨w.out ++ chunk, w.calls + 1, w.fails⟩ with ⟨w', hput, hout, hfails⟩ | ⟨w', hput, hk⟩
      · refine .inl ⟨w', hput, ?_, hfails⟩
        rw [hout, List.flatten_cons, List.append_assoc]
      · exact .inr ⟨w', hput, hk⟩

theorem putAll_true (w w' : Sink) (chunks : List (List UInt8)) (h : w.putAll chunks = (true, w')) :
    w'.out = w.out ++ chunks.flatten := by
  rcases w.putAll_cases chunks with ⟨w₁, hput, hout, -⟩ | ⟨w₁, hput, -⟩
  · rw [h] at hput
    cases hput
    exact hout
  · rw [h] at hput
    cases hput

theorem putAll_accepts (w : Sink) (chunks : List (List UInt8)) (h : ∀ k, w.fails k = false) :
    ∃ w', w.putAll chunks = (true, w') := by
  rcases w.putAll_cases chunks with ⟨w', hput, -⟩ | ⟨w', -, k, hk⟩
  · exact ⟨w', hput⟩
  · rw [h k] at hk
    cases hk

end MiniBox.ByteStream
