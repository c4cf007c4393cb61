import MiniBox.GuestAccess
import MiniBox.MaximalRuns

/-!
The machine a guest is to believe in: a status and 4096 bytes for each page, every
access decided by the status alone. Nothing here knows of dirty bits, snapshots or
native protections.
-/

namespace MiniBox

open ByteStream IndexLoops MaximalRuns

structure Plain where
  addr : Range
  status : ℕ → UInt8
  data : ℕ → PageData
  sealed : Bool

namespace Plain

variable (m : Plain)

def fresh (addr : Range) : Plain := ⟨addr, fun _ => stFree, fun _ => zeroes 4096, false⟩

def pageOf (a : UInt64) : ℕ := ((a - m.addr.start) >>> 12).toNat

def access (a : UInt64) : Access :=
  if m.addr.contains a then grants (m.status (m.pageOf a)) else ⟨false, false, false⟩

def byte (a : UInt64) : UInt8 := m.data (m.pageOf a) (offsetOf a)

def store (a : UInt64) (v : UInt8) : Plain :=
  { m with
    data := Function.update m.data (m.pageOf a) (Function.update (m.data (m.pageOf a)) (offsetOf a) v) }

def isFree (i : ℕ) : Bool := decide (m.status i = stFree)

def hasFree (ps pc : ℕ) : Bool := (List.range' ps pc).any m.isFree
def hasTaken (ps pc : ℕ) : Bool := (List.range' ps pc).any fun i => !m.isFree i

def setStatus (ps pc : ℕ) (st : UInt8) : Plain := { m with status := mapRange (fun _ => st) ps pc m.status }

def zero (ps pc : ℕ) : Plain := { m with data := mapRange (fun _ => zeroes 4096) ps pc m.data }

def mmapFixed (addr : Range) (prot : Prot) (noReplace : Bool) : ℤ × Plain :=
  match validate m.addr addr with
  | none => (-einval, m)
  | some (ps, pc) => if noReplace && m.hasTaken ps pc then (-eexist, m) else (0, m.setStatus ps pc (protStatus prot))

def place (as acount n : ℕ) : Option ℕ := bestFit m.isFree as (as + acount) n

def mmap (addr : Range) (prot : Prot) (arena : Range) (noReplace : Bool) : ℤ × Plain :=
  if addr.size = 0 then (-einval, m)
  else if addr.start = 0 then
    if addr.size ≠ alignDown addr.size then (-einval, m)
    else match validate m.addr arena with
      | none => (-einval, m)
      | some (as, acount) => match m.place as acount (addr.size >>> 12).toNat with
        | none => (-enomem, m)
        | some ps => (sword (m.addr.start + (UInt64.ofNat ps <<< 12)),
            m.setStatus ps (addr.size >>> 12).toNat (protStatus prot))
  else match m.mmapFixed addr prot noReplace with
    | (r, m') => (if r ≠ 0 then r else sword addr.start, m')

def mprotect (addr : Range) (prot : Prot) : ℤ × Plain :=
  match validate m.addr addr with
  | none => (-einval, m)
  | some (ps, pc) => if m.hasFree ps pc then (-enomem, m) else (0, m.setStatus ps pc (protStatus prot))

def munmap (addr : Range) : ℤ × Plain :=
  match validate m.addr addr with
  | none => (-einval, m)
  | some (ps, pc) => if m.hasFree ps pc then (-einval, m) else (0, (m.zero ps pc).setStatus ps pc stFree)

def madviseDontneed (addr : Range) : ℤ × Plain :=
  match validate m.addr addr with
  | none => (-einval, m)
  | some (ps, pc) => if m.hasFree ps pc then (-einval, m) else (0, m.zero ps pc)

def mremap (addr : Range) (newSize : UInt64) : ℤ × Plain :=
  if addr.size = 0 ∨ newSize = 0 then (-einval, m)
  else if addr.start = 0 then (-enosys, m)
  else match validate m.addr addr with
    | none => (-einval, m)
    | some (ps, pc) =>
      if newSize > addr.size then
        match validate m.addr ⟨addr.start, newSize⟩ with
        | none => (-einval, m)
        | some (fs, fc) =>
          if m.hasFree ps pc then (-einval, m)
          else if m.hasTaken (ps + pc) (fs + fc - (ps + pc)) then (-eexist, m)
          else (sword addr.start, m.setStatus (ps + pc) (fc - pc) (m.status ps))
      else if m.hasFree ps pc then (-einval, m)
      else match m.munmap ⟨addr.start + newSize, addr.size - newSize⟩ with
        | (r, m') => (if r ≠ 0 then r else sword addr.start, m')

def mem : MemOp → ℤ × Plain
  | .mmapFixed addr prot noReplace => m.mmapFixed addr prot noReplace
  | .mmap addr prot arena noReplace => m.mmap addr prot arena noReplace
  | .mprotect addr prot => m.mprotect addr prot
  | .munmap addr => m.munmap addr
  | .madviseDontneed addr => m.madviseDontneed addr
  | .mremap addr newSize => m.mremap addr newSize

def markInvisible (addr : Range) : ℤ × Plain :=
  if m.sealed then (-einval, m)
  else match validate m.addr addr with
    | none => (-einval, m)
    | some _ => (0, m)

def sealBlock : ℤ × Plain := if m.sealed then (-einval, m) else (0, { m with sealed := true })

end Plain

inductive Act
  | read (a : UInt64)
  | write (a : UInt64) (v : UInt8)
  | fetch (a : UInt64)
  | mem (op : MemOp)
  | markInvisible (addr : Range)
  | sealBlock

def Act.NoWrap : Act → Prop
  | .mem op => op.NoWrap
  | .markInvisible addr => addr.NoWrap
  | _ => True

inductive Answer
  | byte (v : UInt8)
  | stored
  | fault
  | returned (r : ℤ)
  deriving DecidableEq

def Plain.act (m : Plain) : Act → Answer × Plain
  | .read a => if (m.access a).read then (.byte (m.byte a), m) else (.fault, m)
  | .write a v => if (m.access a).write then (.stored, m.store a v) else (.fault, m)
  | .fetch a => if (m.access a).exec then (.byte (m.byte a), m) else (.fault, m)
  | .mem op => (.returned (m.mem op).1, (m.mem op).2)
  | .markInvisible addr => (.returned (m.markInvisible addr).1, (m.markInvisible addr).2)
  | .sealBlock => (.returned m.sealBlock.1, m.sealBlock.2)

end MiniBox
