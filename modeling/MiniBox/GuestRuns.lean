import MiniBox.GuestAccess
import MiniBox.Host
import MiniBox.Runs

namespace MiniBox

open Effects

/-- A step of the guest; `setRegs` stands for the computation between two syscalls, and
`junk` for the bytes that `realloc` adds to a file. -/
inductive GuestStep
  | read (a : UInt64)
  | write (a : UInt64) (v : UInt8)
  | fetch (a : UInt64)
  | setRegs (context : Context)
  | syscall (s : Syscall) (junk : ℕ → UInt8)

inductive Seen
  | byte (v : UInt8)
  | stored
  | moved
  | returned (rax : UInt64) (context : Context) (tid : UInt32)
  | died (e : Crash)
  | dead
  deriving DecidableEq

variable {M : Type}

def Kernel.guestStep (mem : GuestMemory M) (k : Kernel) : GuestStep → Guest M (Seen × Kernel)
  | .read a => do
    let v ← mem.read a
    return (.byte v, k)
  | .write a v => do
    mem.write a v
    return (.stored, k)
  | .fetch a => do
    let v ← mem.fetch a
    return (.byte v, k)
  | .setRegs context => return (.moved, { k with context })
  | .syscall s junk => do
    let (rax, k) ← k.dispatch mem s junk
    return (.returned rax k.context k.threads.getTid, k)

def GuestMemory.next (mem : GuestMemory M) : Option Kernel × M → GuestStep → Seen × (Option Kernel × M)
  | (none, m), _ => (.dead, none, m)
  | (some k, m), x =>
    match exec (k.guestStep mem x) m with
    | (.ok (o, k'), m') => (o, some k', m')
    | (.error e, m') => (.died e, none, m')

def blockMemory : GuestMemory Block where
  read a := attempt fun b => (b.guestRead a).map (·, b)
  fetch a := attempt fun b => (b.guestFetch a).map (·, b)
  write a v := attempt fun b => (b.guestWrite a v).map ((), ·)
  memOp op := attempt fun b => op.run b

def Host.observe (h : Host) (steps : List GuestStep) : Except Crash (List Seen) := do
  let h ← h.activate
  return Runs.outputs blockMemory.next (some h.toKernel, h.block) steps

end MiniBox
