import MiniBox.ByteStream

namespace MiniBox.ByteStream

variable {n : ℕ}

def leBytes (n x : ℕ) : Bytes n := fun i => UInt8.ofNat (x / 256 ^ i.val)

def leDigits : List UInt8 → ℕ
  | [] => 0
  | d :: ds => d.toNat + 256 * leDigits ds

def leValue (b : Bytes n) : ℕ := leDigits (List.ofFn b)

theorem ofFn_leBytes (n x : ℕ) :
    List.ofFn (leBytes (n + 1) x) = UInt8.ofNat x :: List.ofFn (leBytes n (x / 256)) := by
  rw [List.ofFn_succ]
  congr 2
  · simp [leBytes]
  · funext i
    simp [leBytes, pow_succ', Nat.div_div_eq_div_mul]

theorem leValue_leBytes (n x : ℕ) : leValue (leBytes n x) = x % 256 ^ n := by
  unfold leValue
  induction n generalizing x with
  | zero => simp [leDigits, Nat.mod_one]
  | succ n ih =>
    rw [ofFn_leBytes, leDigits, ih, pow_succ', Nat.mod_mul]
    simp

def u32Bytes (x : UInt32) : Bytes 4 := leBytes 4 x.toNat
def u64Bytes (x : UInt64) : Bytes 8 := leBytes 8 x.toNat
def u32OfBytes (b : Bytes 4) : UInt32 := UInt32.ofNat (leValue b)
def u64OfBytes (b : Bytes 8) : UInt64 := UInt64.ofNat (leValue b)

@[simp] theorem u32OfBytes_u32Bytes (x : UInt32) : u32OfBytes (u32Bytes x) = x := by
  unfold u32OfBytes u32Bytes
  rw [leValue_leBytes, Nat.mod_eq_of_lt (by simpa using x.toNat_lt)]
  simp

@[simp] theorem u64OfBytes_u64Bytes (x : UInt64) : u64OfBytes (u64Bytes x) = x := by
  unfold u64OfBytes u64Bytes
  rw [leValue_leBytes, Nat.mod_eq_of_lt (by simpa using x.toNat_lt)]
  simp

/-- `rd` into a 32-bit variable: on a short stream its low bytes are already overwritten. -/
def rdU32 (x : UInt32) (s : Source) : Bool × UInt32 × Source :=
  let r := rd (u32Bytes x) s
  (r.1, u32OfBytes r.2.1, r.2.2)

def rdU64 (x : UInt64) (s : Source) : Bool × UInt64 × Source :=
  let r := rd (u64Bytes x) s
  (r.1, u64OfBytes r.2.1, r.2.2)

theorem rdU32_of (x y : UInt32) (s : Source) (tail : List UInt8)
    (h : s.rest = List.ofFn (u32Bytes y) ++ tail) :
    (rdU32 x s).1 = true ∧ (rdU32 x s).2.1 = y ∧ (rdU32 x s).2.2.rest = tail := by
  obtain ⟨h1, h2, h3⟩ := rd_ofFn (u32Bytes x) (u32Bytes y) s tail h
  exact ⟨h1, by simp [rdU32, h2], h3⟩

theorem rdU64_of (x y : UInt64) (s : Source) (tail : List UInt8)
    (h : s.rest = List.ofFn (u64Bytes y) ++ tail) :
    (rdU64 x s).1 = true ∧ (rdU64 x s).2.1 = y ∧ (rdU64 x s).2.2.rest = tail := by
  obtain ⟨h1, h2, h3⟩ := rd_ofFn (u64Bytes x) (u64Bytes y) s tail h
  exact ⟨h1, by simp [rdU64, h2], h3⟩

def le32 (x : UInt32) : List UInt8 := List.ofFn (u32Bytes x)
def le64 (x : UInt64) : List UInt8 := List.ofFn (u64Bytes x)

@[simp] theorem length_le32 (x : UInt32) : (le32 x).length = 4 := List.length_ofFn

@[simp] theorem length_le64 (x : UInt64) : (le64 x).length = 8 := List.length_ofFn

theorem leDigits_le32 (x : UInt32) : UInt32.ofNat (leDigits (le32 x)) = x := u32OfBytes_u32Bytes x

theorem leDigits_le64 (x : UInt64) : UInt64.ofNat (leDigits (le64 x)) = x := u64OfBytes_u64Bytes x

theorem drop_le32 (x : UInt32) (l : List UInt8) (n : ℕ) : (le32 x ++ l).drop (n + 4) = l.drop n := by
  rw [List.drop_append, length_le32, List.drop_eq_nil_of_le (by simp), List.nil_append, Nat.add_sub_cancel]

theorem take_le32 (x : UInt32) (l : List UInt8) : (le32 x ++ l).take 4 = le32 x :=
  List.take_left' (length_le32 x)

theorem drop_le64 (x : UInt64) (l : List UInt8) (n : ℕ) : (le64 x ++ l).drop (n + 8) = l.drop n := by
  rw [List.drop_append, length_le64, List.drop_eq_nil_of_le (by simp), List.nil_append, Nat.add_sub_cancel]

theorem take_le64 (x : UInt64) (l : List UInt8) : (le64 x ++ l).take 8 = le64 x :=
  List.take_left' (length_le64 x)

section Split

theorem leDigits_lt (l : List UInt8) : leDigits l < 256 ^ l.length := by
  induction l with
  | nil => simp [leDigits]
  | cons d ds ih =>
    have hd := d.toNat_lt
    rw [leDigits, List.length_cons, pow_succ]
    omega

theorem ofFn_leBytes_leDigits (l : List UInt8) : List.ofFn (leBytes l.length (leDigits l)) = l := by
  induction l with
  | nil => rfl
  | cons d ds ih =>
    have hd := d.toNat_lt
    have hdiv : (d.toNat + 256 * leDigits ds) / 256 = leDigits ds := by omega
    rw [leDigits, List.length_cons, ofFn_leBytes, hdiv, ih]
    congr 1
    apply UInt8.toNat_inj.mp
    rw [UInt8.toNat_ofNat']
    omega

theorem ofFn_leBytes_mod (n x : ℕ) : List.ofFn (leBytes n (x % 256 ^ n)) = List.ofFn (leBytes n x) := by
  have h := ofFn_leBytes_leDigits (List.ofFn (leBytes n x))
  rwa [show leDigits (List.ofFn (leBytes n x)) = _ from leValue_leBytes n x, List.length_ofFn] at h

theorem le32_ofNat (x : ℕ) : le32 (UInt32.ofNat x) = List.ofFn (leBytes 4 x) := by
  rw [le32, u32Bytes, UInt32.toNat_ofNat']
  exact ofFn_leBytes_mod 4 x

theorem le64_ofNat (x : ℕ) : le64 (UInt64.ofNat x) = List.ofFn (leBytes 8 x) := by
  rw [le64, u64Bytes, UInt64.toNat_ofNat']
  exact ofFn_leBytes_mod 8 x

theorem leBytes_leValue (b : Bytes n) : leBytes n (leValue b) = b := by
  have h := ofFn_leBytes_leDigits (List.ofFn b)
  rw [List.length_ofFn] at h
  exact List.ofFn_injective h

theorem leValue_lt (b : Bytes n) : leValue b < 256 ^ n := by
  have h := leDigits_lt (List.ofFn b)
  rwa [List.length_ofFn] at h

theorem u32Bytes_u32OfBytes (b : Bytes 4) : u32Bytes (u32OfBytes b) = b := by
  rw [u32Bytes, u32OfBytes, UInt32.toNat_ofNat_of_lt' ((leValue_lt b).trans_eq (by norm_num)), leBytes_leValue]

theorem u64Bytes_u64OfBytes (b : Bytes 8) : u64Bytes (u64OfBytes b) = b := by
  rw [u64Bytes, u64OfBytes, UInt64.toNat_ofNat_of_lt' ((leValue_lt b).trans_eq (by norm_num)), leBytes_leValue]

theorem exists_ofFn_append {l : List UInt8} (h : n ≤ l.length) :
    ∃ (b : Bytes n) (rest : List UInt8), l = List.ofFn b ++ rest := by
  obtain ⟨b, hb⟩ := exists_ofFn (List.length_take_of_le h)
  exact ⟨b, l.drop n, by rw [hb, List.take_append_drop]⟩

theorem exists_le32 {l : List UInt8} (h : 4 ≤ l.length) : ∃ x rest, l = le32 x ++ rest := by
  obtain ⟨b, rest, rfl⟩ := exists_ofFn_append h
  exact ⟨u32OfBytes b, rest, by rw [le32, u32Bytes_u32OfBytes]⟩

theorem exists_le64 {l : List UInt8} (h : 8 ≤ l.length) : ∃ x rest, l = le64 x ++ rest := by
  obtain ⟨b, rest, rfl⟩ := exists_ofFn_append h
  exact ⟨u64OfBytes b, rest, by rw [le64, u64Bytes_u64OfBytes]⟩

end Split

section Patches

def u32Coding : UInt32 ≃ Bytes 4 := ⟨u32Bytes, u32OfBytes, u32OfBytes_u32Bytes, u32Bytes_u32OfBytes⟩
def u64Coding : UInt64 ≃ Bytes 8 := ⟨u64Bytes, u64OfBytes, u64OfBytes_u64Bytes, u64Bytes_u64OfBytes⟩

variable {α : Type}

def patched (coding : α ≃ Bytes n) (x : α) (p : List UInt8) : α := coding.symm (overlay (coding x) 0 p)

theorem patched_nil (coding : α ≃ Bytes n) (x : α) : patched coding x [] = x := by
  rw [patched, overlay_nil, Equiv.symm_apply_apply]

theorem patched_ofFn (coding : α ≃ Bytes n) (x y : α) : patched coding x (List.ofFn (coding y)) = y := by
  have h := overlay_ofFn (coding x) (coding y) []
  rw [List.append_nil, List.take_of_length_le (by simp)] at h
  rw [patched, h, Equiv.symm_apply_apply]

theorem patched_eq_iff {coding : α ≃ Bytes n} {x : α} {p : List UInt8} (hp : p.length ≤ n) :
    patched coding x p = x ↔ p <+: List.ofFn (coding x) := by
  rw [← overlay_eq_iff hp, patched, Equiv.symm_apply_eq]

theorem patched_le32 (x y : UInt32) : patched u32Coding x (le32 y) = y := patched_ofFn u32Coding x y

theorem patched_le64 (x y : UInt64) : patched u64Coding x (le64 y) = y := patched_ofFn u64Coding x y

end Patches

end MiniBox.ByteStream
