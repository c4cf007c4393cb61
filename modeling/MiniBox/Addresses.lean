import Mathlib.Tactic

namespace MiniBox

def alignDown (p : UInt64) : UInt64 := p &&& ~~~(0xfff : UInt64)
def alignUp (p : UInt64) : UInt64 := ((p - 1) ||| 0xfff) + 1

structure Range where
  start : UInt64
  size : UInt64
  deriving DecidableEq, Repr

namespace Range

def rangeEnd (r : Range) : UInt64 := r.start + r.size
def contains (r : Range) (a : UInt64) : Bool := decide (r.start ≤ a) && decide (a < r.rangeEnd)
def alignExpand (r : Range) : Range :=
  ⟨alignDown r.start, alignUp r.rangeEnd - alignDown r.start⟩

def NoWrap (r : Range) : Prop := r.start.toNat + r.size.toNat < 2 ^ 64

instance (r : Range) : Decidable r.NoWrap := inferInstanceAs (Decidable (_ < _))

/-- What `mb_block_new` asks of a block's range. A range that passes its two tests and
wraps has at least `2 ^ 52 - 2 ^ 20` pages, more than any page table can hold. -/
structure IsSpan (r : Range) : Prop where
  start_aligned : r.start = alignDown r.start
  size_aligned : r.size = alignDown r.size
  one_region : r.start >>> 32 = (r.rangeEnd - 1) >>> 32
  no_wrap : r.start.toNat + r.size.toNat ≤ 2 ^ 64

def npages (r : Range) : ℕ := (r.size >>> 12).toNat

end Range

theorem and_not_pageMask (x : UInt64) : x &&& ~~~(0xfff : UInt64) = (x >>> 12) <<< 12 := by
  have hm : (0xfff : UInt64).toBitVec = BitVec.ofNat 64 (2 ^ 12 - 1) := rfl
  have hs : (12 : UInt64).toBitVec = 12#64 := rfl
  apply UInt64.eq_of_toBitVec_eq
  apply BitVec.eq_of_getLsbD_eq
  intro i hi
  rw [UInt64.toBitVec_and, UInt64.toBitVec_not, hm]
  simp only [UInt64.toBitVec_shiftLeft, UInt64.toBitVec_shiftRight, hs, BitVec.getLsbD_and,
    BitVec.getLsbD_not, BitVec.getLsbD_ofNat, Nat.testBit_two_pow_sub_one]
  by_cases h : i < 12
  · simp [h]
  · have he : 12 + (i - 12) = i := by omega
    simp [hi, h, he]

theorem or_pageMask (x : UInt64) : x ||| (0xfff : UInt64) = ((x >>> 12) <<< 12) ||| 0xfff := by
  have hm : (0xfff : UInt64).toBitVec = BitVec.ofNat 64 (2 ^ 12 - 1) := rfl
  have hs : (12 : UInt64).toBitVec = 12#64 := rfl
  apply UInt64.eq_of_toBitVec_eq
  apply BitVec.eq_of_getLsbD_eq
  intro i hi
  rw [UInt64.toBitVec_or, UInt64.toBitVec_or, hm]
  simp only [UInt64.toBitVec_shiftLeft, UInt64.toBitVec_shiftRight, hs, BitVec.getLsbD_or,
    BitVec.getLsbD_ofNat, Nat.testBit_two_pow_sub_one]
  by_cases h : i < 12
  · simp [hi, h]
  · have he : 12 + (i - 12) = i := by omega
    simp [hi, h, he]

theorem toNat_shiftRight_page (x : UInt64) : (x >>> 12).toNat = x.toNat / 4096 := by
  simp [UInt64.toNat_shiftRight, Nat.shiftRight_eq_div_pow]

theorem toNat_pageFloor (x : UInt64) : ((x >>> 12) <<< 12).toNat = x.toNat - x.toNat % 4096 := by
  have hx := x.toNat_lt
  rw [UInt64.toNat_shiftLeft, toNat_shiftRight_page]
  simp only [UInt64.reduceToNat, Nat.reduceMod, Nat.shiftLeft_eq, Nat.reducePow]
  omega

theorem toNat_alignDown (p : UInt64) : (alignDown p).toNat = p.toNat - p.toNat % 4096 := by
  rw [alignDown, and_not_pageMask, toNat_pageFloor]

theorem eq_alignDown_iff (p : UInt64) : p = alignDown p ↔ p.toNat % 4096 = 0 := by
  rw [← UInt64.toNat_inj, toNat_alignDown]
  have := Nat.mod_le p.toNat 4096
  omega

theorem toNat_or_pageMask (x : UInt64) : (x ||| (0xfff : UInt64)).toNat = x.toNat - x.toNat % 4096 + 4095 := by
  have hx := x.toNat_lt
  have hd : x.toNat - x.toNat % 4096 = 4096 * (x.toNat / 4096) := by omega
  rw [or_pageMask, UInt64.toNat_or, toNat_pageFloor, hd]
  simpa [Nat.mul_comm] using (Nat.two_pow_add_eq_or_of_lt (i := 12) (b := 4095) (by norm_num) (x.toNat / 4096)).symm

theorem toNat_alignUp (p : UInt64) : (alignUp p).toNat = (p.toNat + 4095) / 4096 * 4096 % 2 ^ 64 := by
  have hp := p.toNat_lt
  have h1 : (p - 1).toNat = (p.toNat + (2 ^ 64 - 1)) % 2 ^ 64 := by
    rw [UInt64.toNat_sub, Nat.add_comm]
    rfl
  rw [alignUp, UInt64.toNat_add, toNat_or_pageMask, h1]
  simp only [UInt64.reduceToNat]
  omega

theorem toNat_rangeEnd (r : Range) (h : r.NoWrap) : r.rangeEnd.toNat = r.start.toNat + r.size.toNat := by
  rw [Range.rangeEnd, UInt64.toNat_add, Nat.mod_eq_of_lt h]

theorem npages_eq (r : Range) : r.npages = r.size.toNat / 4096 := toNat_shiftRight_page r.size

end MiniBox
