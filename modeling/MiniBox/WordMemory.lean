import MiniBox.LittleEndian

namespace MiniBox.WordMemory

open ByteStream

abbrev Memory := UInt64 → UInt8

def load (m : Memory) (a : UInt64) : UInt64 := u64OfBytes fun i => m (a + UInt64.ofNat i)

def store (m : Memory) (a v : UInt64) : Memory := fun x =>
  if h : (x - a).toNat < 8 then u64Bytes v ⟨(x - a).toNat, h⟩ else m x

def WordsApart (a b : UInt64) : Prop := ∀ x : UInt64, (x - a).toNat < 8 → ¬ (x - b).toNat < 8

variable {m m' : Memory} {a b v : UInt64}

theorem toNat_add_sub {i : ℕ} (h : i < 8) : (a + UInt64.ofNat i - a).toNat = i := by
  rw [UInt64.add_comm, UInt64.add_sub_cancel]
  exact UInt64.toNat_ofNat_of_lt' (by rw [show UInt64.size = 2 ^ 64 from rfl]; omega)

theorem load_congr (h : ∀ x : UInt64, (x - a).toNat < 8 → m' x = m x) : load m' a = load m a := by
  unfold load
  congr 1
  funext i
  apply h
  rw [toNat_add_sub i.isLt]
  exact i.isLt

theorem store_outside {x : UInt64} (h : ¬ (x - a).toNat < 8) : store m a v x = m x := dif_neg h

@[simp] theorem load_store (m : Memory) (a v : UInt64) : load (store m a v) a = v := by
  unfold load
  rw [← u64OfBytes_u64Bytes v]
  congr 1
  funext i
  have hi := toNat_add_sub (a := a) i.isLt
  unfold store
  rw [dif_pos (by rw [hi]; exact i.isLt)]
  congr 1
  · rw [u64OfBytes_u64Bytes]
  · exact Fin.ext hi

theorem load_store_apart (h : WordsApart a b) : load (store m b v) a = load m a :=
  load_congr fun x hx => store_outside (h x hx)

theorem apart_of_lt (hab : a.toNat + 8 ≤ b.toNat) (hb : b.toNat + 8 ≤ 2 ^ 64) : WordsApart a b := by
  intro x h1 h2
  have h1' : (x - a).toNat = (2 ^ 64 - a.toNat + x.toNat) % 2 ^ 64 := UInt64.toNat_sub _ _
  have h2' : (x - b).toNat = (2 ^ 64 - b.toNat + x.toNat) % 2 ^ 64 := UInt64.toNat_sub _ _
  have := x.toNat_lt
  omega

theorem apart_sub (a : UInt64) : WordsApart a (a - 8) := by
  intro x h1 h2
  have h1' : (x - a).toNat = (2 ^ 64 - a.toNat + x.toNat) % 2 ^ 64 := UInt64.toNat_sub _ _
  have h2' : (x - (a - 8)).toNat = (2 ^ 64 - (a - 8).toNat + x.toNat) % 2 ^ 64 := UInt64.toNat_sub _ _
  have ha : (a - 8).toNat = (2 ^ 64 - 8 + a.toNat) % 2 ^ 64 := UInt64.toNat_sub _ _
  have := x.toNat_lt
  have := a.toNat_lt
  omega

theorem WordsApart.symm (h : WordsApart a b) : WordsApart b a := fun x h1 h2 => h x h2 h1

section Blit

def blit (m : Memory) (p : UInt64) (l : List UInt8) : Memory := fun x => l.getD (x - p).toNat (m x)

def bytesAt (m : Memory) (p : UInt64) (n : ℕ) : List UInt8 := (List.range n).map fun i => m (p + UInt64.ofNat i)

theorem blit_outside {p x : UInt64} {l : List UInt8} (h : ¬ (x - p).toNat < l.length) : blit m p l x = m x := by
  unfold blit
  rw [List.getD_eq_getElem?_getD, List.getElem?_eq_none (not_lt.mp h), Option.getD_none]

theorem load_blit_apart {p : UInt64} {l : List UInt8} (h : ∀ x : UInt64, (x - p).toNat < l.length → ¬ (x - a).toNat < 8) :
    load (blit m p l) a = load m a :=
  load_congr fun x hx => blit_outside fun hp => h x hp hx

theorem update_eq_blit (m : Memory) (p : UInt64) (v : UInt8) : Function.update m p v = blit m p [v] := by
  funext x
  by_cases h : x = p
  · subst h
    simp [blit]
  · have hne : (x - p).toNat ≠ 0 := by
      intro h0
      apply h
      rw [← UInt64.sub_add_cancel x p, UInt64.toNat_inj.mp (h0.trans UInt64.toNat_zero.symm), UInt64.zero_add]
    obtain ⟨k, hk⟩ := Nat.exists_eq_succ_of_ne_zero hne
    simp [blit, h, hk]

theorem store_eq_blit (m : Memory) (p v : UInt64) : store m p v = blit m p (le64 v) := by
  funext x
  unfold store blit le64
  rw [List.getD_eq_getElem?_getD, List.getElem?_ofFn]
  split_ifs with h
  · rfl
  · rfl

theorem blit_blit (m : Memory) (p : UInt64) (l l' : List UInt8) (h : l.length + l'.length ≤ 2 ^ 64) :
    blit (blit m p l) (p + UInt64.ofNat l.length) l' = blit m p (l ++ l') := by
  funext x
  unfold blit
  have hlen : (UInt64.ofNat l.length).toNat = l.length % 2 ^ 64 := UInt64.toNat_ofNat'
  have hx : (x - (p + UInt64.ofNat l.length)).toNat = (2 ^ 64 - (p + UInt64.ofNat l.length).toNat + x.toNat) % 2 ^ 64 :=
    UInt64.toNat_sub _ _
  have hx' : (x - p).toNat = (2 ^ 64 - p.toNat + x.toNat) % 2 ^ 64 := UInt64.toNat_sub _ _
  have hp : (p + UInt64.ofNat l.length).toNat = (p.toNat + (UInt64.ofNat l.length).toNat) % 2 ^ 64 := UInt64.toNat_add _ _
  have := x.toNat_lt
  have := p.toNat_lt
  by_cases hin : (x - p).toNat < l.length
  · have hout : l'.length ≤ (x - (p + UInt64.ofNat l.length)).toNat := by omega
    simp [hin, List.getElem?_append_left, List.getElem?_eq_none hout]
  · have hsub : (x - (p + UInt64.ofNat l.length)).toNat = (x - p).toNat - l.length := by omega
    simp [List.getElem?_append_right (not_lt.mp hin), hsub, List.getElem?_eq_none (not_lt.mp hin)]

theorem bytesAt_blit (m : Memory) (p : UInt64) (l : List UInt8) {k n : ℕ} (h : k + n ≤ l.length) (hl : l.length ≤ 2 ^ 64) :
    bytesAt (blit m p l) (p + UInt64.ofNat k) n = (l.drop k).take n := by
  apply List.ext_getElem
  · simp [bytesAt]
    omega
  · intro i h1 h2
    have hi : i < n := by simpa [bytesAt] using h1
    have hk : (p + UInt64.ofNat k + UInt64.ofNat i - p).toNat = k + i := by
      rw [UInt64.add_assoc, ← UInt64.ofNat_add, UInt64.add_comm, UInt64.add_sub_cancel]
      exact UInt64.toNat_ofNat_of_lt' (by rw [show UInt64.size = 2 ^ 64 from rfl]; omega)
    simp [bytesAt, blit, hk, show k + i < l.length by omega]

theorem bytesAt_add (m : Memory) (p : UInt64) (k n : ℕ) :
    bytesAt m p (k + n) = bytesAt m p k ++ bytesAt m (p + UInt64.ofNat k) n := by
  unfold bytesAt
  rw [List.range_add, List.map_append, List.map_map]
  congr 1
  apply List.map_congr_left
  intro i _
  simp only [Function.comp_apply]
  rw [UInt64.ofNat_add, UInt64.add_assoc]

theorem bytesAt_part {p : UInt64} {k n size : ℕ} (h : k + n ≤ size) :
    bytesAt m (p + UInt64.ofNat k) n = ((bytesAt m p size).drop k).take n := by
  obtain ⟨r, rfl⟩ := Nat.exists_eq_add_of_le h
  have hlen : ∀ (q : UInt64) n, (bytesAt m q n).length = n := fun q n => by simp [bytesAt]
  rw [Nat.add_assoc, bytesAt_add, List.drop_append_of_le_length (by rw [hlen]), List.drop_of_length_le (by rw [hlen]),
    List.nil_append, bytesAt_add, List.take_append_of_le_length (by rw [hlen]), List.take_of_length_le (by rw [hlen])]

theorem bytesAt_congr {n : ℕ} {p : UInt64} (h : ∀ x : UInt64, (x - p).toNat < n → m' x = m x) (hn : n ≤ 2 ^ 64) :
    bytesAt m' p n = bytesAt m p n := by
  apply List.map_congr_left
  intro i hi
  apply h
  rw [UInt64.add_comm, UInt64.add_sub_cancel]
  rw [List.mem_range] at hi
  rw [UInt64.toNat_ofNat_of_lt' (by rw [show UInt64.size = 2 ^ 64 from rfl]; omega)]
  exact hi

end Blit

structure Regions (ρ : Type) where
  base : ρ → ℕ
  words : ρ → ℕ
  fits : ∀ r, base r + 8 * words r ≤ 2 ^ 64
  apart : ∀ r r', r ≠ r' → base r + 8 * words r ≤ base r' ∨ base r' + 8 * words r' ≤ base r

namespace Regions

variable {ρ : Type} (w : Regions ρ)

def addr (r : ρ) (k : ℕ) : UInt64 := UInt64.ofNat (w.base r + 8 * k)

def view (m : Memory) (c : ρ × ℕ) : UInt64 := if c.2 < w.words c.1 then load m (w.addr c.1 c.2) else 0

variable {w} {r : ρ} {k : ℕ}

theorem toNat_addr (h : k < w.words r) : (w.addr r k).toNat = w.base r + 8 * k := by
  have hfits := w.fits r
  exact UInt64.toNat_ofNat_of_lt' (by rw [show UInt64.size = 2 ^ 64 from rfl]; omega)

theorem addr_add (r : ρ) (k n : ℕ) : w.addr r k + UInt64.ofNat (8 * n) = w.addr r (k + n) := by
  unfold addr
  rw [← UInt64.ofNat_add, Nat.mul_add, Nat.add_assoc]

theorem addr_sub (r : ρ) (k n : ℕ) : w.addr r (k + n) - UInt64.ofNat (8 * n) = w.addr r k := by
  rw [← addr_add, UInt64.add_sub_cancel]

@[simp] theorem addr_8 (r : ρ) (k : ℕ) : w.addr r k + 8 = w.addr r (k + 1) := addr_add r k 1
@[simp] theorem addr_10 (r : ρ) (k : ℕ) : w.addr r k + 0x10 = w.addr r (k + 2) := addr_add r k 2
@[simp] theorem addr_18 (r : ρ) (k : ℕ) : w.addr r k + 0x18 = w.addr r (k + 3) := addr_add r k 3
@[simp] theorem addr_20 (r : ρ) (k : ℕ) : w.addr r k + 0x20 = w.addr r (k + 4) := addr_add r k 4
@[simp] theorem addr_28 (r : ρ) (k : ℕ) : w.addr r k + 0x28 = w.addr r (k + 5) := addr_add r k 5
@[simp] theorem addr_30 (r : ρ) (k : ℕ) : w.addr r k + 0x30 = w.addr r (k + 6) := addr_add r k 6
@[simp] theorem addr_back (r : ρ) (k : ℕ) : w.addr r (k + 1) - 8 = w.addr r k := addr_sub r k 1

theorem load_addr (h : k < w.words r) (m : Memory) : load m (w.addr r k) = w.view m (r, k) := (if_pos h).symm

theorem addr_apart {r' : ρ} {k' : ℕ} (h : k < w.words r) (h' : k' < w.words r') (hne : (r, k) ≠ (r', k')) :
    WordsApart (w.addr r k) (w.addr r' k') := by
  have ha := toNat_addr h
  have ha' := toNat_addr h'
  have hfits := w.fits r
  have hfits' := w.fits r'
  by_cases hr : r = r'
  · subst hr
    have hk : k ≠ k' := fun hk => hne (by rw [hk])
    rcases Nat.lt_or_gt_of_ne hk with hk | hk
    · exact apart_of_lt (by omega) (by omega)
    · exact (apart_of_lt (by omega) (by omega)).symm
  · rcases w.apart r r' hr with hd | hd
    · exact apart_of_lt (by omega) (by omega)
    · exact (apart_of_lt (by omega) (by omega)).symm

def Outside (w : Regions ρ) (a : UInt64) : Prop :=
  a.toNat + 8 ≤ 2 ^ 64 ∧ ∀ r, a.toNat + 8 ≤ w.base r ∨ w.base r + 8 * w.words r ≤ a.toNat

theorem view_store_outside (h : w.Outside a) : w.view (store m a v) = w.view m := by
  funext c
  unfold view
  split_ifs with hc
  · apply load_store_apart
    have hc' := toNat_addr hc
    have hfits := w.fits c.1
    rcases h.2 c.1 with hd | hd
    · exact (apart_of_lt (by omega) (by omega)).symm
    · exact apart_of_lt (by omega) h.1
  · rfl

theorem view_congr (h : ∀ r, ∀ x : UInt64, w.base r ≤ x.toNat → x.toNat < w.base r + 8 * w.words r → m' x = m x) :
    w.view m' = w.view m := by
  funext c
  unfold view
  split_ifs with hc
  · apply load_congr
    intro x hx
    have hc' := toNat_addr hc
    have hfits := w.fits c.1
    have hx' : (x - w.addr c.1 c.2).toNat = (2 ^ 64 - (w.addr c.1 c.2).toNat + x.toNat) % 2 ^ 64 := UInt64.toNat_sub _ _
    have := x.toNat_lt
    exact h c.1 x (by omega) (by omega)
  · rfl

variable [DecidableEq ρ]

theorem view_store (h : k < w.words r) (m : Memory) (v : UInt64) :
    w.view (store m (w.addr r k) v) = Function.update (w.view m) (r, k) v := by
  funext c
  by_cases hc : c = (r, k)
  · subst hc
    rw [Function.update_self, view, if_pos h, load_store]
  · rw [Function.update_of_ne hc]
    unfold view
    split_ifs with hin
    · exact load_store_apart (addr_apart hin h hc)
    · rfl

end Regions

end MiniBox.WordMemory
