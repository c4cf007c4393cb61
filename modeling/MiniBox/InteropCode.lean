import MiniBox.X86

/-!
The interop area: the machine code through which host and guest call each other, as `interop_bin.c` has it, and
the instructions it consists of.
-/

namespace MiniBox

open X86

def mbOrg : UInt64 := 0x35f00000000

def fill (n : ℕ) : List UInt8 := List.replicate n 0xcc

def guestSyscallBytes : List UInt8 :=
  [0x55, 0x65, 0x4c, 0x8b, 0x14, 0x25, 0x18, 0x00, 0x00, 0x00, 0x49, 0x89, 0x62, 0x10, 0x49, 0x8b,
   0x62, 0x08, 0x4c, 0x8b, 0x1c, 0x24, 0x65, 0x4c, 0x89, 0x1c, 0x25, 0x10, 0x00, 0x00, 0x00, 0x4c,
   0x8b, 0x5c, 0x24, 0x08, 0x65, 0x4c, 0x89, 0x1c, 0x25, 0x08, 0x00, 0x00, 0x00, 0x41, 0x52, 0x4d,
   0x31, 0xdb, 0x65, 0x4c, 0x89, 0x1c, 0x25, 0x18, 0x00, 0x00, 0x00, 0x4d, 0x8b, 0x5a, 0x30, 0x41,
   0x53, 0x50, 0x49, 0x8b, 0x42, 0x28, 0xff, 0xd0, 0x4d, 0x31, 0xd2, 0x65, 0x4c, 0x89, 0x14, 0x25,
   0x10, 0x00, 0x00, 0x00, 0x49, 0x83, 0xea, 0x01, 0x65, 0x4c, 0x89, 0x14, 0x25, 0x08, 0x00, 0x00,
   0x00, 0x4c, 0x8b, 0x54, 0x24, 0x10, 0x65, 0x4c, 0x89, 0x14, 0x25, 0x18, 0x00, 0x00, 0x00, 0x49,
   0x8b, 0x62, 0x10, 0x5d, 0xc3]

def callGuestSimpleBytes : List UInt8 := [0x49, 0x89, 0xfb, 0x49, 0x89, 0xf2, 0xe9, 0xf5, 0x00, 0x00, 0x00]

/-- The call of a guest entry `r11` in the context `r10`, at 0x200. -/
def callGuestImplBytes : List UInt8 :=
  [0x49, 0x8b, 0x42, 0x08, 0x48, 0x85, 0xc0, 0x74, 0x1e, 0x49, 0x8b, 0x42, 0x18, 0x48, 0x85, 0xc0,
   0x74, 0x01, 0xcc, 0x49, 0x8b, 0x42, 0x08, 0x49, 0x89, 0x42, 0x18, 0x49, 0x8b, 0x42, 0x10, 0x49,
   0x87, 0x42, 0x20, 0x49, 0x89, 0x42, 0x10, 0x65, 0x48, 0x8b, 0x04, 0x25, 0x08, 0x00, 0x00, 0x00,
   0x50, 0x65, 0x48, 0x8b, 0x04, 0x25, 0x10, 0x00, 0x00, 0x00, 0x50, 0x48, 0x31, 0xc0, 0x65, 0x48,
   0x89, 0x04, 0x25, 0x10, 0x00, 0x00, 0x00, 0x48, 0x83, 0xe8, 0x01, 0x65, 0x48, 0x89, 0x04, 0x25,
   0x08, 0x00, 0x00, 0x00, 0x65, 0x4c, 0x89, 0x14, 0x25, 0x18, 0x00, 0x00, 0x00, 0x49, 0x89, 0x62,
   0x08, 0x49, 0x8b, 0x62, 0x10, 0x41, 0xff, 0xd3, 0x65, 0x4c, 0x8b, 0x14, 0x25, 0x18, 0x00, 0x00,
   0x00, 0x49, 0x89, 0x62, 0x10, 0x49, 0x8b, 0x62, 0x08, 0x41, 0xbb, 0x00, 0x00, 0x00, 0x00, 0x4d,
   0x89, 0x5a, 0x08, 0x65, 0x4c, 0x89, 0x1c, 0x25, 0x18, 0x00, 0x00, 0x00, 0x4d, 0x8b, 0x5a, 0x18,
   0x4d, 0x85, 0xdb, 0x74, 0x1a, 0x4d, 0x89, 0x5a, 0x08, 0x41, 0xbb, 0x00, 0x00, 0x00, 0x00, 0x4d,
   0x89, 0x5a, 0x18, 0x4d, 0x8b, 0x5a, 0x20, 0x4d, 0x87, 0x5a, 0x10, 0x4d, 0x89, 0x5a, 0x20, 0x41,
   0x5a, 0x65, 0x4c, 0x89, 0x14, 0x25, 0x10, 0x00, 0x00, 0x00, 0x41, 0x5a, 0x65, 0x4c, 0x89, 0x14,
   0x25, 0x08, 0x00, 0x00, 0x00, 0xc3]

/-- The address that a guest calls for a callback slot, at 0x300 + 16 * slot; the last eight jumps are short. -/
def extcallThunkBytes (slot : ℕ) : List UInt8 :=
  if slot < 56 then
    [0xb8, UInt8.ofNat slot, 0, 0, 0, 0xe9, UInt8.ofNat (0x3f6 - 16 * slot), UInt8.ofNat ((0x3f6 - 16 * slot) / 256), 0, 0] ++
      fill 6
  else [0xb8, UInt8.ofNat slot, 0, 0, 0, 0xeb, UInt8.ofNat (0x3f9 - 16 * slot)] ++ fill 9

def extcallImplBytes : List UInt8 :=
  [0x65, 0x4c, 0x8b, 0x14, 0x25, 0x18, 0x00, 0x00, 0x00, 0x49, 0x89, 0x62, 0x10, 0x49, 0x8b, 0x62,
   0x08, 0x4c, 0x8b, 0x1c, 0x24, 0x65, 0x4c, 0x89, 0x1c, 0x25, 0x10, 0x00, 0x00, 0x00, 0x4c, 0x8b,
   0x5c, 0x24, 0x08, 0x65, 0x4c, 0x89, 0x1c, 0x25, 0x08, 0x00, 0x00, 0x00, 0x41, 0x52, 0x4d, 0x31,
   0xdb, 0x65, 0x4c, 0x89, 0x1c, 0x25, 0x18, 0x00, 0x00, 0x00, 0x4d, 0x8b, 0x5c, 0xc2, 0x38, 0x41,
   0xff, 0xd3, 0x4d, 0x31, 0xd2, 0x65, 0x4c, 0x89, 0x14, 0x25, 0x10, 0x00, 0x00, 0x00, 0x49, 0x83,
   0xea, 0x01, 0x65, 0x4c, 0x89, 0x14, 0x25, 0x08, 0x00, 0x00, 0x00, 0x4c, 0x8b, 0x14, 0x24, 0x65,
   0x4c, 0x89, 0x14, 0x25, 0x18, 0x00, 0x00, 0x00, 0x49, 0x8b, 0x62, 0x10, 0xc3]

def unwindBytes : List UInt8 :=
  [0x80, 0x00, 0x00, 0x00, 0xf5, 0x00, 0x00, 0x00, 0x18, 0x08, 0x00, 0x00, 0x00, 0x07, 0x00, 0x00,
   0x6d, 0x07, 0x00, 0x00, 0x20, 0x08, 0x00, 0x00, 0x01, 0x05, 0x01, 0x00, 0x05, 0x42, 0x00, 0x00,
   0x01, 0x05, 0x01, 0x00, 0x05, 0x22, 0x00, 0x00]

def mbInteropBin : List UInt8 :=
  fill 0x80 ++ guestSyscallBytes ++ fill 11 ++ callGuestSimpleBytes ++ fill 245 ++ callGuestImplBytes ++ fill 58 ++
    (List.range 64).flatMap extcallThunkBytes ++ extcallImplBytes ++ fill 147 ++ unwindBytes

def interopCode : Code := fun a => mbInteropBin.drop (a - mbOrg).toNat

section Listings

@[simp] def gsAt (d : UInt64) : Place := ⟨true, none, none, d⟩
@[simp] def contextAt (d : UInt64) : Place := ⟨false, some .r10, none, d⟩
@[simp] def stackAt (d : UInt64) : Place := ⟨false, some .rsp, none, d⟩

def syscallIn : List (Instr × ℕ) :=
  [(.push .rbp, 1), (.load .r10 (gsAt 0x18), 9), (.store (contextAt 0x10) .rsp, 4), (.load .rsp (contextAt 8), 4),
   (.load .r11 (stackAt 0), 4), (.store (gsAt 0x10) .r11, 9), (.load .r11 (stackAt 8), 5), (.store (gsAt 8) .r11, 9),
   (.push .r10, 2), (.xor .r11 .r11, 3), (.store (gsAt 0x18) .r11, 9), (.load .r11 (contextAt 0x30), 4), (.push .r11, 2),
   (.push .rax, 1), (.load .rax (contextAt 0x28), 4), (.call .rax, 2)]

def syscallOut : List (Instr × ℕ) :=
  [(.xor .r10 .r10, 3), (.store (gsAt 0x10) .r10, 9), (.sub .r10 1, 4), (.store (gsAt 8) .r10, 9),
   (.load .r10 (stackAt 0x10), 5), (.store (gsAt 0x18) .r10, 9), (.load .rsp (contextAt 0x10), 4), (.pop .rbp, 1),
   (.ret, 1)]

def callGuestSimple : List (Instr × ℕ) := [(.move .r11 .rdi, 3), (.move .r10 .rsi, 3), (.jump 0xf5, 5)]

def implTest : List (Instr × ℕ) := [(.load .rax (contextAt 8), 4), (.test .rax .rax, 3), (.je 0x1e, 2)]

def implTestAlt : List (Instr × ℕ) := [(.load .rax (contextAt 0x18), 4), (.test .rax .rax, 3), (.je 1, 2)]

def implSwap : List (Instr × ℕ) :=
  [(.load .rax (contextAt 8), 4), (.store (contextAt 0x18) .rax, 4), (.load .rax (contextAt 0x10), 4),
   (.exchange .rax (contextAt 0x20), 4), (.store (contextAt 0x10) .rax, 4)]

def implCall : List (Instr × ℕ) :=
  [(.load .rax (gsAt 8), 9), (.push .rax, 1), (.load .rax (gsAt 0x10), 9), (.push .rax, 1), (.xor .rax .rax, 3),
   (.store (gsAt 0x10) .rax, 9), (.sub .rax 1, 4), (.store (gsAt 8) .rax, 9), (.store (gsAt 0x18) .r10, 9),
   (.store (contextAt 8) .rsp, 4), (.load .rsp (contextAt 0x10), 4), (.call .r11, 3)]

def implBack : List (Instr × ℕ) :=
  [(.load .r10 (gsAt 0x18), 9), (.store (contextAt 0x10) .rsp, 4), (.load .rsp (contextAt 8), 4), (.imm .r11 0, 6),
   (.store (contextAt 8) .r11, 4), (.store (gsAt 0x18) .r11, 9), (.load .r11 (contextAt 0x18), 4), (.test .r11 .r11, 3),
   (.je 0x1a, 2)]

def implUnswap : List (Instr × ℕ) :=
  [(.store (contextAt 8) .r11, 4), (.imm .r11 0, 6), (.store (contextAt 0x18) .r11, 4), (.load .r11 (contextAt 0x20), 4),
   (.exchange .r11 (contextAt 0x10), 4), (.store (contextAt 0x20) .r11, 4)]

def implRet : List (Instr × ℕ) :=
  [(.pop .r10, 2), (.store (gsAt 0x10) .r10, 9), (.pop .r10, 2), (.store (gsAt 8) .r10, 9), (.ret, 1)]

def extcallThunk (slot : ℕ) : List (Instr × ℕ) :=
  [(.imm .rax (UInt64.ofNat slot), 5),
   if slot < 56 then (.jump (UInt64.ofNat (0x3f6 - 16 * slot)), 5) else (.jump (UInt64.ofNat (0x3f9 - 16 * slot)), 2)]

def extcallIn : List (Instr × ℕ) :=
  [(.load .r10 (gsAt 0x18), 9), (.store (contextAt 0x10) .rsp, 4), (.load .rsp (contextAt 8), 4),
   (.load .r11 (stackAt 0), 4), (.store (gsAt 0x10) .r11, 9), (.load .r11 (stackAt 8), 5), (.store (gsAt 8) .r11, 9),
   (.push .r10, 2), (.xor .r11 .r11, 3), (.store (gsAt 0x18) .r11, 9),
   (.load .r11 ⟨false, some .r10, some (.rax, 8), 0x38⟩, 5), (.call .r11, 3)]

def extcallOut : List (Instr × ℕ) :=
  [(.xor .r10 .r10, 3), (.store (gsAt 0x10) .r10, 9), (.sub .r10 1, 4), (.store (gsAt 8) .r10, 9),
   (.load .r10 (stackAt 0), 4), (.store (gsAt 0x18) .r10, 9), (.load .rsp (contextAt 0x10), 4), (.ret, 1)]

def listings : List (UInt64 × List (Instr × ℕ)) :=
  [(0x80, syscallIn), (0xc8, syscallOut), (0x100, callGuestSimple), (0x200, implTest),
   (0x209, implTestAlt), (0x212, [(.int3, 1)]), (0x213, implSwap), (0x227, implCall), (0x268, implBack),
   (0x295, implUnswap), (0x2af, implRet), (0x700, extcallIn), (0x742, extcallOut)]

theorem lists_of_mem : ∀ u ∈ listings, Lists interopCode (mbOrg + u.1) u.2 := by decide +kernel

theorem lists_at {s : State} {a : UInt64} {l : List (Instr × ℕ)} (hrip : s.rip = mbOrg + a) (hmem : (a, l) ∈ listings) :
    Lists interopCode s.rip l := by
  rw [hrip]
  exact lists_of_mem (a, l) hmem

theorem lists_extcallThunk : ∀ slot < 64,
    Lists interopCode (mbOrg + 0x300 + UInt64.ofNat (16 * slot)) (extcallThunk slot) := by decide +kernel

end Listings

end MiniBox
