import MiniBox.FileSystem
import MiniBox.Threads

/-! The guest syscall dispatcher of `host.c`. -/

namespace MiniBox

open Effects

def eopnotsupp : ℤ := 95

structure Layout where
  elf : Range
  mainThread : Range
  altThread : Range
  sbrk : Range
  sealedHeap : Range
  invis : Range
  plain : Range
  mmapArena : Range
  deriving DecidableEq

structure Kernel where
  fs : Fs
  programBreak : UInt64
  layout : Layout
  context : Context
  threads : ThreadSet

inductive FileSyscall
  | read | write | open | close | stat | fstat | lseek | readv | writev | truncate | ftruncate
  deriving DecidableEq, Repr

inductive SyscallName
  | file (f : FileSyscall)
  | mmap | mprotect | munmap | brk | rtSigprocmask | ioctl | schedYield | mremap | madvise | nanosleep | getpid
  | exit | getppid | gettid | futex | setThreadArea | clockNanosleep | clockGettime | setTidAddress | wbxClone
  deriving DecidableEq, Repr

namespace SyscallName

def ofNumber (nr : UInt64) : Option SyscallName :=
  ([(0, file .read), (1, file .write), (2, file .open), (3, file .close), (4, file .stat), (5, file .fstat),
    (8, file .lseek), (9, mmap), (10, mprotect), (11, munmap), (12, brk), (14, rtSigprocmask), (16, ioctl),
    (19, file .readv), (20, file .writev), (24, schedYield), (25, mremap), (28, madvise), (35, nanosleep),
    (39, getpid), (60, exit), (76, file .truncate), (77, file .ftruncate), (110, getppid), (186, gettid),
    (202, futex), (205, setThreadArea), (218, setTidAddress), (228, clockGettime), (230, clockNanosleep),
    (2000, wbxClone)] : List (UInt64 × SyscallName)).lookup nr

end SyscallName

structure Syscall where
  nr : UInt64
  a1 : UInt64
  a2 : UInt64
  a3 : UInt64
  a4 : UInt64
  a5 : UInt64

def replyZero (r : ℤ) : UInt64 := if r < 0 then serr (cint (UInt64.ofInt (-r))) else sok 0

def replyStatus (r : ℤ) : UInt64 := if r ≠ 0 then serr (-r) else sok 0

def argToProt (a : UInt64) : Option Prot :=
  if a &&& ~~~7 ≠ 0 then none
  else if a &&& 4 ≠ 0 then some (if a &&& 2 ≠ 0 then .rwx else .rx)
  else if a &&& 2 ≠ 0 then some .rw
  else if a &&& 1 ≠ 0 then some .r
  else some .none

def mapAnonymous : UInt64 := 0x20
def mapStack : UInt64 := 0x20000
def mapFixedNoreplace : UInt64 := 0x100000
def madvDontneed : UInt64 := 4

namespace Kernel

variable {M : Type} (mem : GuestMemory M) (k : Kernel) (s : Syscall)

section MemorySyscalls

def mmap : Guest M UInt64 :=
  match argToProt s.a3 with
  | none => pure (serr einval)
  | some prot =>
    if s.a4 &&& mapAnonymous = 0 then pure (serr eopnotsupp)
    else if s.a4 &&& 0xf00 ≠ 0 then pure (serr eopnotsupp)
    else if s.a4 &&& mapStack ≠ 0 ∧ prot ≠ .rw then pure (serr einval)
    else do
      let res ← mem.memOp (.mmap ⟨s.a1, s.a2⟩ (if s.a4 &&& mapStack ≠ 0 then .rwStack else prot)
        k.layout.mmapArena (decide (s.a4 &&& mapFixedNoreplace ≠ 0)))
      return reply res

def mremap : Guest M UInt64 := do
  let res ← mem.memOp (.mremap ⟨s.a1, s.a2⟩ s.a3)
  return reply res

def mprotect : Guest M UInt64 :=
  match argToProt s.a3 with
  | none => pure (serr einval)
  | some prot => do
    let res ← mem.memOp (.mprotect ⟨s.a1, s.a2⟩ prot)
    return replyStatus res

def munmap : Guest M UInt64 := do
  let res ← mem.memOp (.munmap ⟨s.a1, s.a2⟩)
  return replyStatus res

def madvise : Guest M UInt64 :=
  if s.a3 = madvDontneed then do
    let res ← mem.memOp (.madviseDontneed ⟨s.a1, s.a2⟩)
    return replyStatus res
  else pure (sok 0)

/-- The break moves up also where the pages could not be mapped. -/
def brk : Guest M UInt64 :=
  if s.a1 ≠ alignDown s.a1 then pure k.programBreak
  else if s.a1 < k.layout.sbrk.start then pure k.programBreak
  else if s.a1 > k.layout.sbrk.rangeEnd then pure k.programBreak
  else if s.a1 > k.programBreak then do
    let _ ← mem.memOp (.mmapFixed ⟨k.programBreak, s.a1 - k.programBreak⟩ .rw true)
    return s.a1
  else pure k.programBreak

end MemorySyscalls

section FileSyscalls

def sameString : List UInt8 → UInt64 → Guest M Bool
  | [], a => do
    let v ← mem.read a
    return decide (v = 0)
  | c :: cs, a => do
    let v ← mem.read a
    if v = c then sameString cs (a + 1) else return false

def findName : List MountedFile → UInt64 → Guest M (Option (List UInt8))
  | [], _ => return none
  | f :: files, a => do
    let found ← sameString mem f.name a
    if found then return some f.name else findName files a

def withName (a : UInt64) (call : List UInt8 → Guest M (UInt64 × Kernel)) : Guest M (UInt64 × Kernel) := do
  let found ← findName mem k.fs.files a
  match found with
  | none => return (serr enoent, k)
  | some name => call name

def readFile (fd : ℤ) (base len : UInt64) : Guest M (ℤ × Kernel) := do
  let (r, bytes, fs) := k.fs.read fd len.toNat
  mem.writeBytes base bytes
  return (r, { k with fs })

def writeFile (fd : ℤ) (base len : UInt64) : Guest M (ℤ × Kernel) :=
  match k.fs.writeCode fd with
  | some r => return (r, k)
  | none => do
    let buf ← mem.readBytes len.toNat base
    let (r, fs) ← lift (k.fs.write fd buf)
    return (r, { k with fs })

def iovLoop (call : Kernel → UInt64 → UInt64 → Guest M (ℤ × Kernel)) :
    ℕ → UInt64 → ℤ → Kernel → Guest M (UInt64 × Kernel)
  | 0, _, total, k => return (sok total, k)
  | n + 1, a, total, k => do
    let base ← mem.load64 a
    if base = 0 then iovLoop call n (a + 16) total k
    else do
      let len ← mem.load64 (a + 8)
      let (r, k) ← call k base len
      if r < 0 then return (reply r, k) else iovLoop call n (a + 16) (total + r) k

/-- The file syscalls; `junk` is what `realloc` leaves in the bytes it adds. -/
def fileSyscall (junk : ℕ → UInt8) : FileSyscall → Guest M (UInt64 × Kernel)
  | .open => k.withName mem s.a1 fun name =>
    return (reply (k.fs.openFile name s.a2.toUInt32).1, { k with fs := (k.fs.openFile name s.a2.toUInt32).2 })
  | .close => return (replyZero (k.fs.close (cint s.a1)).1, { k with fs := (k.fs.close (cint s.a1)).2 })
  | .read => do
    let (r, k) ← k.readFile mem (cint s.a1) s.a2 s.a3
    return (reply r, k)
  | .write => do
    let (r, k) ← k.writeFile mem (cint s.a1) s.a2 s.a3
    return (reply r, k)
  | .readv => iovLoop mem (fun k => k.readFile mem (cint s.a1)) s.a3.toNat s.a2 0 k
  | .writev => iovLoop mem (fun k => k.writeFile mem (cint s.a1)) s.a3.toNat s.a2 0 k
  | .lseek => return (reply (k.fs.seek (cint s.a1) (sword s.a2) (cint s.a3)).1,
      { k with fs := (k.fs.seek (cint s.a1) (sword s.a2) (cint s.a3)).2 })
  | .stat => k.withName mem s.a1 fun name => do
    mem.writeBytes s.a2 (k.fs.statName name).2
    return (replyZero (k.fs.statName name).1, k)
  | .fstat => do
    mem.writeBytes s.a2 (k.fs.statFd (cint s.a1)).2
    return (replyZero (k.fs.statFd (cint s.a1)).1, k)
  | .truncate => k.withName mem s.a1 fun name =>
    return (replyZero (k.fs.truncateName junk name (sword s.a2)).1,
      { k with fs := (k.fs.truncateName junk name (sword s.a2)).2 })
  | .ftruncate => return (replyZero (k.fs.truncateFd junk (cint s.a1) (sword s.a2)).1,
      { k with fs := (k.fs.truncateFd junk (cint s.a1) (sword s.a2)).2 })

end FileSyscalls

section ThreadSyscalls

/-- The operation a `futex` syscall asks for, `FUTEX_PRIVATE_FLAG` taken off. -/
def futexOp : Option ThreadOp :=
  let op := s.a2.toUInt32 &&& ~~~128
  if op = 0 then some (.futexWait s.a1 s.a3.toUInt32)
  else if op = 1 then some (.futexWake s.a1 s.a3.toUInt32)
  else if op = 3 then some (.futexRequeue s.a1 s.a5 s.a3.toUInt32 s.a4.toUInt32)
  else if op = 6 then some (.futexLockPi s.a1)
  else if op = 7 then some (.futexUnlockPi s.a1)
  else none

def threadOp (op : ThreadOp) : Guest M (UInt64 × Kernel) := do
  let (r, threads, context) ← op.run mem k.threads k.context
  return (r, { k with threads, context })

end ThreadSyscalls

def plainly (x : Guest M UInt64) : Guest M (UInt64 × Kernel) := do
  let r ← x
  return (r, k)

def dispatch (junk : ℕ → UInt8) : Guest M (UInt64 × Kernel) :=
  match SyscallName.ofNumber s.nr with
  | none => throw .trap
  | some .mmap => k.plainly (k.mmap mem s)
  | some .mremap => k.plainly (mremap mem s)
  | some .mprotect => k.plainly (mprotect mem s)
  | some .munmap => k.plainly (munmap mem s)
  | some .madvise => k.plainly (madvise mem s)
  | some .brk => do
    let res ← k.brk mem s
    return (res, { k with programBreak := res })
  | some .ioctl => return (sok 0, k)
  | some .clockGettime => do
    mem.store64 s.a2 1495889068
    mem.store64 (s.a2 + 8) 0
    return (sok 0, k)
  | some .rtSigprocmask => return (sok 0, k)
  | some .setThreadArea => return (serr enosys, k)
  | some .setTidAddress => k.threadOp mem (.setTidAddress s.a1)
  | some .gettid => return (sok k.threads.getTid.toNat, k)
  | some .getpid => return (sok 1, k)
  | some .getppid => return (sok 1, k)
  | some .schedYield => k.threadOp mem .yield
  | some .nanosleep => k.threadOp mem .yield
  | some .clockNanosleep => k.threadOp mem .yield
  | some .wbxClone => k.threadOp mem (.spawn s.a1 s.a2 s.a3 s.a4 s.a5)
  | some .exit => k.threadOp mem .exit
  | some .futex =>
    match futexOp s with
    | none => return (serr enosys, k)
    | some op => k.threadOp mem op
  | some (.file f) => k.fileSyscall mem s junk f

end Kernel

end MiniBox
