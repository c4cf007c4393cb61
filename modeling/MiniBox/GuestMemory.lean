import MiniBox.Effects
import MiniBox.MemoryOperations

namespace MiniBox

open ByteStream Effects

abbrev Guest (M α : Type) := Effect Crash M α

structure GuestMemory (M : Type) where
  read : UInt64 → Guest M UInt8
  fetch : UInt64 → Guest M UInt8
  write : UInt64 → UInt8 → Guest M Unit
  memOp : MemOp → Guest M ℤ

namespace GuestMemory

variable {M : Type} (mem : GuestMemory M)

def readBytes : ℕ → UInt64 → Guest M (List UInt8)
  | 0, _ => pure []
  | n + 1, a => do
    let v ← mem.read a
    let vs ← readBytes n (a + 1)
    return v :: vs

def writeBytes : UInt64 → List UInt8 → Guest M Unit
  | _, [] => pure ()
  | a, v :: vs => do
    mem.write a v
    writeBytes (a + 1) vs

def load32 (a : UInt64) : Guest M UInt32 := do
  let bytes ← mem.readBytes 4 a
  return UInt32.ofNat (leDigits bytes)

def load64 (a : UInt64) : Guest M UInt64 := do
  let bytes ← mem.readBytes 8 a
  return UInt64.ofNat (leDigits bytes)

def store32 (a : UInt64) (v : UInt32) : Guest M Unit := mem.writeBytes a (le32 v)

def store64 (a v : UInt64) : Guest M Unit := mem.writeBytes a (le64 v)

end GuestMemory

def sok (v : ℤ) : UInt64 := UInt64.ofInt v
def serr (e : ℤ) : UInt64 := UInt64.ofInt (-e)

def cint (a : UInt64) : ℤ := if a.toNat % 2 ^ 32 < 2 ^ 31 then a.toNat % 2 ^ 32 else a.toNat % 2 ^ 32 - 2 ^ 32

def reply (r : ℤ) : UInt64 := if r < 0 then serr (cint (UInt64.ofInt (-r))) else sok r

end MiniBox
