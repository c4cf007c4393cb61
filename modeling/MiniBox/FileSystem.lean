import MiniBox.MemoryBlock
import MiniBox.LinearTables

namespace MiniBox

open ByteStream LinearTables

def enoent : ℤ := 2
def ebadf : ℤ := 9
def eacces : ℤ := 13
def ebusy : ℤ := 16

def badFd : ℤ := -1

inductive FileKind
  | empty | sysout | regular
  deriving DecidableEq, Repr

/-- A file and its one descriptor. The capacity of the buffer is always its length. -/
structure MountedFile where
  name : List UInt8
  fd : ℤ
  kind : FileKind
  data : List UInt8
  pos : ℕ
  writable : Bool
  inBounds : pos ≤ data.length
  deriving DecidableEq

namespace MountedFile

def canRead (f : MountedFile) : Bool := decide (f.kind ≠ .sysout)

def canWrite (f : MountedFile) : Bool :=
  decide (f.kind = .sysout) || (decide (f.kind = .regular) && f.writable)

def withFd (fd : ℤ) (f : MountedFile) : MountedFile := { f with fd }

def closed (f : MountedFile) : MountedFile := { f with pos := 0, fd := badFd, inBounds := Nat.zero_le _ }

def taken (n : ℕ) (f : MountedFile) : List UInt8 := (f.data.drop f.pos).take n

def advance (n : ℕ) (f : MountedFile) : MountedFile :=
  { f with
    pos := f.pos + min n (f.data.length - f.pos)
    inBounds := by have := f.inBounds; omega }

def overwrite (buf : List UInt8) (f : MountedFile) : MountedFile :=
  { f with
    data := f.data.take f.pos ++ buf ++ f.data.drop (f.pos + buf.length)
    pos := f.pos + buf.length
    inBounds := by have := f.inBounds; simp; omega }

def sought (p : ℤ) (f : MountedFile) : MountedFile :=
  { f with pos := min p.toNat f.data.length, inBounds := Nat.min_le_right _ _ }

def resize (junk : ℕ → UInt8) (size : ℕ) (f : MountedFile) : MountedFile :=
  { f with
    data := f.data.take size ++ (List.range' f.data.length (size - f.data.length)).map junk
    pos := min f.pos size
    inBounds := by have := f.inBounds; simp; omega }

def modeReg : UInt32 := 0o100000
def modeFifo : UInt32 := 0o010000
def modeRead : UInt32 := 0o444
def modeWrite : UInt32 := 0o222

def fillStat (canRead canWrite canSeek : Bool) (length : ℕ) : List UInt8 :=
  let mode := (if canRead then modeRead else 0) ||| (if canWrite then modeWrite else 0) |||
    (if canSeek then modeReg else modeFifo)
  let size := if canSeek then length else 0
  le64 1 ++ le64 1 ++ le64 0 ++ le32 mode ++ le32 0 ++ le32 0 ++ le32 0 ++ le64 0 ++
    le64 (UInt64.ofNat size) ++ le64 4096 ++ le64 (UInt64.ofNat ((size + 511) / 512)) ++
    le64 1262304000000 ++ le64 500000000 ++ le64 1262304000000 ++ le64 500000000 ++
    le64 1262304000000 ++ le64 500000000 ++ le64 0 ++ le64 0 ++ le64 0

def statFile (f : MountedFile) : List UInt8 :=
  match f.kind with
  | .sysout => fillStat false true false 0
  | .empty => fillStat true false false 0
  | .regular => fillStat true f.writable true f.data.length

end MountedFile

structure Fs where
  files : List MountedFile
  deriving DecidableEq

namespace Fs

variable (fs : Fs)

def byName (name : List UInt8) : Option MountedFile := lookup MountedFile.name name fs.files
def byFd (fd : ℤ) : Option MountedFile := lookup MountedFile.fd fd fs.files

def modifyName (name : List UInt8) (g : MountedFile → MountedFile) : Fs :=
  ⟨adjust MountedFile.name name g fs.files⟩

def modifyFd (fd : ℤ) (g : MountedFile → MountedFile) : Fs := ⟨adjust MountedFile.fd fd g fs.files⟩

def device (name : String) (fd : ℤ) (kind : FileKind) : MountedFile :=
  ⟨ascii name, fd, kind, [], 0, false, Nat.le_refl _⟩

def new : Fs :=
  ⟨[device "/dev/stdin" 0 .empty, device "/dev/stdout" 1 .sysout, device "/dev/stderr" 2 .sysout]⟩

def mount (name data : List UInt8) (writable : Bool) : ℤ × Fs :=
  match fs.byName name with
  | some _ => (-eexist, fs)
  | none => (0, ⟨fs.files ++ [⟨name, badFd, .regular, data, 0, writable, Nat.zero_le _⟩]⟩)

def unmount (name : List UInt8) : ℤ × List UInt8 × Fs :=
  match fs.byName name with
  | none => (-enoent, [], fs)
  | some f =>
    if f.kind ≠ .regular then (-einval, [], fs)
    else if f.fd ≠ badFd then (-ebusy, [], fs)
    else (0, f.data, ⟨discard MountedFile.name name fs.files⟩)

/-- The loop `while (by_fd(fs, fd)) fd++`: of `n` files at most `n` descriptors are taken. -/
def freeFdLoop : ℕ → ℤ → ℤ
  | 0, fd => fd
  | n + 1, fd => if (fs.byFd fd).isSome then freeFdLoop n (fd + 1) else fd

def freeFd : ℤ := fs.freeFdLoop fs.files.length 0

inductive AccessMode
  | rdonly | wronly | rdwr | other

def accessMode (flags : UInt32) : AccessMode :=
  let mode := flags &&& 0o10000003
  if mode = 0 then .rdonly else if mode = 1 then .wronly else if mode = 2 then .rdwr else .other

def openFile (name : List UInt8) (flags : UInt32) : ℤ × Fs :=
  let fd := fs.freeFd
  match fs.byName name with
  | none => (-enoent, fs)
  | some f =>
    if f.fd ≠ badFd then (-eacces, fs)
    else match accessMode flags with
      | .rdonly => if !f.canRead then (-eacces, fs) else (fd, fs.modifyName name (.withFd fd))
      | .wronly => if !f.canWrite then (-eacces, fs) else (fd, fs.modifyName name (.withFd fd))
      | .rdwr => if !f.canRead || !f.canWrite then (-eacces, fs) else (fd, fs.modifyName name (.withFd fd))
      | .other => (-einval, fs)

def close (fd : ℤ) : ℤ × Fs :=
  match fs.byFd fd with
  | none => (-ebadf, fs)
  | some _ => (0, fs.modifyFd fd .closed)

def read (fd : ℤ) (n : ℕ) : ℤ × List UInt8 × Fs :=
  match fs.byFd fd with
  | none => (-enoent, [], fs)
  | some f =>
    match f.kind with
    | .empty => (0, [], fs)
    | .sysout => (-ebadf, [], fs)
    | .regular => ((f.taken n).length, f.taken n, fs.modifyFd fd (.advance n))

def writeCode (fd : ℤ) : Option ℤ :=
  match fs.byFd fd with
  | none => some (-enoent)
  | some f =>
    match f.kind with
    | .sysout => none
    | .empty => some (-ebadf)
    | .regular => if f.writable then none else some (-ebadf)

def write (fd : ℤ) (buf : List UInt8) : Except Crash (ℤ × Fs) :=
  match fs.byFd fd with
  | none => .ok (-enoent, fs)
  | some f =>
    match f.kind with
    | .sysout => .ok (buf.length, fs)
    | .empty => .ok (-ebadf, fs)
    | .regular =>
      if !f.writable then .ok (-ebadf, fs)
      -- the sum wraps: the buffer is not grown and `memcpy` leaves it
      else if 2 ^ 64 ≤ f.pos + buf.length then .error .outOfBounds
      else .ok (buf.length, fs.modifyFd fd (.overwrite buf))

def seek (fd offset : ℤ) (whence : ℤ) : ℤ × Fs :=
  match fs.byFd fd with
  | none => (-einval, fs)
  | some f =>
    if f.kind ≠ .regular then (-einval, fs)
    else
      let newpos : Option ℤ :=
        if whence = 0 then some offset
        else if whence = 1 then some (f.pos + offset)
        else if whence = 2 then some (f.data.length + offset)
        else none
      match newpos with
      | none => (-einval, fs)
      | some p => if p < 0 ∨ f.data.length < p then (-einval, fs) else (p, fs.modifyFd fd (.sought p))

def statFound : Option MountedFile → ℤ × List UInt8
  | none => (-enoent, [])
  | some f => (0, f.statFile)

def statName (name : List UInt8) : ℤ × List UInt8 := statFound (fs.byName name)
def statFd (fd : ℤ) : ℤ × List UInt8 := statFound (fs.byFd fd)

def truncateName (junk : ℕ → UInt8) (name : List UInt8) (size : ℤ) : ℤ × Fs :=
  match fs.byName name with
  | none => (-enoent, fs)
  | some f =>
    if f.kind ≠ .regular ∨ f.writable = false ∨ size < 0 then (-ebadf, fs)
    else (0, fs.modifyName name (.resize junk size.toNat))

def truncateFd (junk : ℕ → UInt8) (fd size : ℤ) : ℤ × Fs :=
  match fs.byFd fd with
  | none => (-enoent, fs)
  | some f => fs.truncateName junk f.name size

end Fs

inductive FsCall
  | open (name : List UInt8) (flags : UInt32)
  | close (fd : ℤ)
  | read (fd : ℤ) (n : ℕ)
  | write (fd : ℤ) (buf : List UInt8)
  | seek (fd offset whence : ℤ)
  | statName (name : List UInt8)
  | statFd (fd : ℤ)
  | truncateName (junk : ℕ → UInt8) (name : List UInt8) (size : ℤ)
  | truncateFd (junk : ℕ → UInt8) (fd size : ℤ)

structure FsReply where
  code : ℤ
  bytes : List UInt8
  deriving DecidableEq

def Fs.call (fs : Fs) : FsCall → Except Crash (FsReply × Fs)
  | .open name flags => .ok (⟨(fs.openFile name flags).1, []⟩, (fs.openFile name flags).2)
  | .close fd => .ok (⟨(fs.close fd).1, []⟩, (fs.close fd).2)
  | .read fd n => .ok (⟨(fs.read fd n).1, (fs.read fd n).2.1⟩, (fs.read fd n).2.2)
  | .write fd buf => do
    let (r, fs) ← fs.write fd buf
    return (⟨r, []⟩, fs)
  | .seek fd offset whence => .ok (⟨(fs.seek fd offset whence).1, []⟩, (fs.seek fd offset whence).2)
  | .statName name => .ok (⟨(fs.statName name).1, (fs.statName name).2⟩, fs)
  | .statFd fd => .ok (⟨(fs.statFd fd).1, (fs.statFd fd).2⟩, fs)
  | .truncateName junk name size =>
    .ok (⟨(fs.truncateName junk name size).1, []⟩, (fs.truncateName junk name size).2)
  | .truncateFd junk fd size => .ok (⟨(fs.truncateFd junk fd size).1, []⟩, (fs.truncateFd junk fd size).2)

end MiniBox
