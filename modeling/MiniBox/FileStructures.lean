import MiniBox.FileRuns

namespace MiniBox

open ByteStream LinearTables Outcomes

/-- The bytes of a heap block after `realloc`, which does not set the bytes it adds. -/
def regrow (junk : ℕ → UInt8) (old : List UInt8) (size : ℕ) : List UInt8 :=
  old.take size ++ (List.range' old.length (size - old.length)).map junk

/-- `realloc` and the accesses behind it. No block of `2 ^ 63` bytes exists, and the null
pointer that is returned in its place is used. -/
def reallocate (junk : ℕ → UInt8) (old : List UInt8) (size : UInt64) : Except Crash (List UInt8) :=
  if size.toNat < 2 ^ 63 then .ok (regrow junk old size.toNat) else .error .nullDeref

def copyOut (block : List UInt8) (pos n : ℕ) : Except Crash (List UInt8) :=
  if pos + n ≤ block.length then .ok ((block.drop pos).take n) else .error .outOfBounds

def copyIn (block : List UInt8) (pos : ℕ) (buf : List UInt8) : Except Crash (List UInt8) :=
  if pos + buf.length ≤ block.length then .ok (block.take pos ++ buf ++ block.drop (pos + buf.length))
  else .error .outOfBounds

def duplicate (junk : ℕ → UInt8) (data : List UInt8) (len : UInt64) : Except Crash (List UInt8) := do
  let block ← reallocate junk [] (if len = 0 then 1 else len)
  if len = 0 then return block else copyIn block 0 data

structure RawFile where
  name : List UInt8
  fd : ℤ
  kind : FileKind
  data : List UInt8
  len : UInt64
  cap : UInt64
  pos : UInt64
  writable : Bool
  deriving DecidableEq

namespace RawFile

def canRead (f : RawFile) : Bool := decide (f.kind ≠ .sysout)

def canWrite (f : RawFile) : Bool :=
  decide (f.kind = .sysout) || (decide (f.kind = .regular) && f.writable)

def withFd (fd : ℤ) (f : RawFile) : RawFile := { f with fd }

def closed (f : RawFile) : RawFile := { f with pos := 0, fd := badFd }

def read (n : UInt64) (f : RawFile) : Except Crash (List UInt8 × RawFile) := do
  let avail := f.len - f.pos
  let take := if n < avail then n else avail
  let bytes ← copyOut f.data f.pos.toNat take.toNat
  return (bytes, { f with pos := f.pos + take })

def write (junk : ℕ → UInt8) (buf : List UInt8) (f : RawFile) : Except Crash RawFile := do
  let newpos := f.pos + UInt64.ofNat buf.length
  let f ← (if f.cap < newpos then do
    let data ← reallocate junk f.data newpos
    return { f with cap := newpos, data }
  else pure f)
  let data ← copyIn f.data f.pos.toNat buf
  return { f with data, pos := newpos, len := if f.len < newpos then newpos else f.len }

def truncate (junk : ℕ → UInt8) (size : ℤ) (f : RawFile) : Except Crash RawFile := do
  let size := UInt64.ofNat size.toNat
  let data ← reallocate junk f.data (if size = 0 then 1 else size)
  return { f with data, len := size, cap := size, pos := if size < f.pos then size else f.pos }

def statFile (f : RawFile) : List UInt8 :=
  match f.kind with
  | .sysout => MountedFile.fillStat false true false 0
  | .empty => MountedFile.fillStat true false false 0
  | .regular => MountedFile.fillStat true f.writable true f.len.toNat

end RawFile

structure RawFs where
  files : List RawFile
  deriving DecidableEq

namespace RawFs

variable (fs : RawFs)

def byName (name : List UInt8) : Option RawFile := lookup RawFile.name name fs.files
def byFd (fd : ℤ) : Option RawFile := lookup RawFile.fd fd fs.files

def setName (name : List UInt8) (f : RawFile) : RawFs := ⟨adjust RawFile.name name (fun _ => f) fs.files⟩
def setFd (fd : ℤ) (f : RawFile) : RawFs := ⟨adjust RawFile.fd fd (fun _ => f) fs.files⟩

def device (name : String) (fd : ℤ) (kind : FileKind) : RawFile := ⟨ascii name, fd, kind, [], 0, 0, 0, false⟩

def new : RawFs :=
  ⟨[device "/dev/stdin" 0 .empty, device "/dev/stdout" 1 .sysout, device "/dev/stderr" 2 .sysout]⟩

def mount (junk : ℕ → UInt8) (name data : List UInt8) (writable : Bool) : Except Crash (ℤ × RawFs) :=
  match fs.byName name with
  | some _ => .ok (-eexist, fs)
  | none => do
    let len := UInt64.ofNat data.length
    let block ← duplicate junk data len
    return (0, ⟨fs.files ++ [⟨name, badFd, .regular, block, len, len, 0, writable⟩]⟩)

def unmount (name : List UInt8) : Except Crash (ℤ × List UInt8 × RawFs) :=
  match fs.byName name with
  | none => .ok (-enoent, [], fs)
  | some f =>
    if f.kind ≠ .regular then .ok (-einval, [], fs)
    else if f.fd ≠ badFd then .ok (-ebusy, [], fs)
    else do
      let data ← copyOut f.data 0 f.len.toNat
      return (0, data, ⟨discard RawFile.name name fs.files⟩)

def freeFdLoop : ℕ → ℤ → ℤ
  | 0, fd => fd
  | n + 1, fd => if (fs.byFd fd).isSome then freeFdLoop n (fd + 1) else fd

def freeFd : ℤ := fs.freeFdLoop fs.files.length 0

def openFile (name : List UInt8) (flags : UInt32) : ℤ × RawFs :=
  let fd := fs.freeFd
  match fs.byName name with
  | none => (-enoent, fs)
  | some f =>
    if f.fd ≠ badFd then (-eacces, fs)
    else match Fs.accessMode flags with
      | .rdonly => if !f.canRead then (-eacces, fs) else (fd, fs.setName name (f.withFd fd))
      | .wronly => if !f.canWrite then (-eacces, fs) else (fd, fs.setName name (f.withFd fd))
      | .rdwr => if !f.canRead || !f.canWrite then (-eacces, fs) else (fd, fs.setName name (f.withFd fd))
      | .other => (-einval, fs)

def close (fd : ℤ) : ℤ × RawFs :=
  match fs.byFd fd with
  | none => (-ebadf, fs)
  | some f => (0, fs.setFd fd f.closed)

def read (fd : ℤ) (n : UInt64) : Except Crash (ℤ × List UInt8 × RawFs) :=
  match fs.byFd fd with
  | none => .ok (-enoent, [], fs)
  | some f =>
    match f.kind with
    | .empty => .ok (0, [], fs)
    | .sysout => .ok (-ebadf, [], fs)
    | .regular => do
      let (bytes, f) ← f.read n
      return (sword (UInt64.ofNat bytes.length), bytes, fs.setFd fd f)

def write (junk : ℕ → UInt8) (fd : ℤ) (buf : List UInt8) : Except Crash (ℤ × RawFs) :=
  match fs.byFd fd with
  | none => .ok (-enoent, fs)
  | some f =>
    match f.kind with
    | .sysout => .ok (sword (UInt64.ofNat buf.length), fs)
    | .empty => .ok (-ebadf, fs)
    | .regular =>
      if !f.writable then .ok (-ebadf, fs)
      else do
        let f ← f.write junk buf
        return (sword (UInt64.ofNat buf.length), fs.setFd fd f)

def seek (fd offset whence : ℤ) : ℤ × RawFs :=
  match fs.byFd fd with
  | none => (-einval, fs)
  | some f =>
    if f.kind ≠ .regular then (-einval, fs)
    else
      let newpos : Option ℤ :=
        if whence = 0 then some offset
        else if whence = 1 then some (sword f.pos + offset)
        else if whence = 2 then some (sword f.len + offset)
        else none
      match newpos with
      | none => (-einval, fs)
      | some p =>
        if p < 0 ∨ sword f.len < p then (-einval, fs)
        else (p, fs.setFd fd { f with pos := UInt64.ofNat p.toNat })

def statFound : Option RawFile → ℤ × List UInt8
  | none => (-enoent, [])
  | some f => (0, f.statFile)

def statName (name : List UInt8) : ℤ × List UInt8 := statFound (fs.byName name)
def statFd (fd : ℤ) : ℤ × List UInt8 := statFound (fs.byFd fd)

def truncateName (junk : ℕ → UInt8) (name : List UInt8) (size : ℤ) : Except Crash (ℤ × RawFs) :=
  match fs.byName name with
  | none => .ok (-enoent, fs)
  | some f =>
    if f.kind ≠ .regular ∨ f.writable = false ∨ size < 0 then .ok (-ebadf, fs)
    else do
      let f ← f.truncate junk size
      return (0, fs.setName name f)

def truncateFd (junk : ℕ → UInt8) (fd size : ℤ) : Except Crash (ℤ × RawFs) :=
  match fs.byFd fd with
  | none => .ok (-enoent, fs)
  | some f => fs.truncateName junk f.name size

def event (junk : ℕ → UInt8) : FsEvent → Except Crash (FsReply × RawFs)
  | .mount name data writable => do
    let (r, fs) ← fs.mount junk name data writable
    return (⟨r, []⟩, fs)
  | .unmount name => do
    let (r, data, fs) ← fs.unmount name
    return (⟨r, data⟩, fs)
  | .call (.open name flags) => .ok (⟨(fs.openFile name flags).1, []⟩, (fs.openFile name flags).2)
  | .call (.close fd) => .ok (⟨(fs.close fd).1, []⟩, (fs.close fd).2)
  | .call (.read fd n) => do
    let (r, bytes, fs) ← fs.read fd (UInt64.ofNat n)
    return (⟨r, bytes⟩, fs)
  | .call (.write fd buf) => do
    let (r, fs) ← fs.write junk fd buf
    return (⟨r, []⟩, fs)
  | .call (.seek fd offset whence) => .ok (⟨(fs.seek fd offset whence).1, []⟩, (fs.seek fd offset whence).2)
  | .call (.statName name) => .ok (⟨(fs.statName name).1, (fs.statName name).2⟩, fs)
  | .call (.statFd fd) => .ok (⟨(fs.statFd fd).1, (fs.statFd fd).2⟩, fs)
  | .call (.truncateName junk name size) => do
    let (r, fs) ← fs.truncateName junk name size
    return (⟨r, []⟩, fs)
  | .call (.truncateFd junk fd size) => do
    let (r, fs) ← fs.truncateFd junk fd size
    return (⟨r, []⟩, fs)

def target : FsEvent → Option (List UInt8)
  | .mount name _ _ => some name
  | .unmount name => some name
  | .call (.open name _) => some name
  | .call (.close fd) => (fs.byFd fd).map RawFile.name
  | .call (.read fd _) => (fs.byFd fd).map RawFile.name
  | .call (.write fd _) => (fs.byFd fd).map RawFile.name
  | .call (.seek fd _ _) => (fs.byFd fd).map RawFile.name
  | .call (.statName name) => some name
  | .call (.statFd fd) => (fs.byFd fd).map RawFile.name
  | .call (.truncateName _ name _) => some name
  | .call (.truncateFd _ fd _) => (fs.byFd fd).map RawFile.name

def run (junk : ℕ → UInt8) (fs : RawFs) : List FsEvent → Except Crash (List FsReply × RawFs)
  | [] => .ok ([], fs)
  | e :: es => do
    let (r, fs) ← fs.event junk e
    let (rs, fs) ← fs.run junk es
    return (r :: rs, fs)

end RawFs

section Frame

variable {fs fs' : RawFs} {f f' : RawFile} {junk : ℕ → UInt8}

def RawFs.Frames (fs fs' : RawFs) (name : Option (List UInt8)) : Prop :=
  fs'.files.filter (fun f => decide (some f.name ≠ name)) = fs.files.filter fun f => decide (some f.name ≠ name)

theorem read_name {n : UInt64} {bytes : List UInt8} (h : f.read n = .ok (bytes, f')) : f'.name = f.name := by
  unfold RawFile.read at h
  obtain ⟨_, -, h⟩ := bind_ok h
  cases h
  rfl

theorem write_name {buf : List UInt8} (h : f.write junk buf = .ok f') : f'.name = f.name := by
  unfold RawFile.write at h
  obtain ⟨f₁, hgrow, h⟩ := bind_ok h
  obtain ⟨_, -, h⟩ := bind_ok h
  cases h
  split_ifs at hgrow
  · obtain ⟨_, -, hgrow⟩ := bind_ok hgrow
    cases hgrow
    rfl
  · cases hgrow
    rfl

theorem truncate_name {size : ℤ} (h : f.truncate junk size = .ok f') : f'.name = f.name := by
  unfold RawFile.truncate at h
  obtain ⟨_, -, h⟩ := bind_ok h
  cases h
  rfl

theorem frames_setFd {fd : ℤ} (hf : fs.byFd fd = some f) (hname : f'.name = f.name) :
    fs.Frames (fs.setFd fd f') (some f.name) :=
  filter_adjust hf (by simp) (by simp [hname])

theorem frames_setName {name : List UInt8} (hf : fs.byName name = some f) (hname : f'.name = f.name) :
    fs.Frames (fs.setName name f') (some name) := by
  have hkey : f.name = name := lookup_key hf
  exact filter_adjust hf (by simp [hkey]) (by simp [hname, hkey])

theorem truncateName_frames {name : List UInt8} {size r : ℤ} (h : fs.truncateName junk name size = .ok (r, fs')) :
    fs.Frames fs' (some name) := by
  unfold RawFs.truncateName at h
  cases hf : fs.byName name with
  | none =>
    rw [hf] at h
    cases h
    rfl
  | some f =>
    rw [hf] at h
    dsimp only at h
    split_ifs at h
    · cases h
      rfl
    · obtain ⟨f', hnew, h⟩ := bind_ok h
      cases h
      exact frames_setName hf (truncate_name hnew)

theorem write_frames {fd r : ℤ} {buf : List UInt8} (h : fs.write junk fd buf = .ok (r, fs')) :
    fs.Frames fs' ((fs.byFd fd).map RawFile.name) := by
  unfold RawFs.write at h
  cases hf : fs.byFd fd with
  | none =>
    rw [hf] at h
    cases h
    rfl
  | some f =>
    rw [hf] at h
    dsimp only at h
    cases hk : f.kind with
    | empty =>
      rw [hk] at h
      cases h
      rfl
    | sysout =>
      rw [hk] at h
      cases h
      rfl
    | regular =>
      rw [hk] at h
      dsimp only at h
      split_ifs at h
      · cases h
        rfl
      · obtain ⟨f', hnew, h⟩ := bind_ok h
        cases h
        exact frames_setFd hf (write_name hnew)

theorem read_frames {fd r : ℤ} {n : UInt64} {bytes : List UInt8} (h : fs.read fd n = .ok (r, bytes, fs')) :
    fs.Frames fs' ((fs.byFd fd).map RawFile.name) := by
  unfold RawFs.read at h
  cases hf : fs.byFd fd with
  | none =>
    rw [hf] at h
    cases h
    rfl
  | some f =>
    rw [hf] at h
    dsimp only at h
    cases hk : f.kind with
    | empty =>
      rw [hk] at h
      cases h
      rfl
    | sysout =>
      rw [hk] at h
      cases h
      rfl
    | regular =>
      rw [hk] at h
      obtain ⟨⟨_, f'⟩, hnew, h⟩ := bind_ok h
      cases h
      exact frames_setFd hf (read_name hnew)

theorem openFile_frames (fs : RawFs) (name : List UInt8) (flags : UInt32) :
    fs.Frames (fs.openFile name flags).2 (some name) := by
  unfold RawFs.openFile
  dsimp only
  cases hf : fs.byName name with
  | none => rfl
  | some f =>
    have hopen : fs.Frames (fs.setName name (f.withFd fs.freeFd)) (some name) := frames_setName hf rfl
    dsimp only
    split
    · rfl
    · cases Fs.accessMode flags with
      | rdonly =>
        cases f.canRead
        · rfl
        · exact hopen
      | wronly =>
        cases f.canWrite
        · rfl
        · exact hopen
      | rdwr =>
        cases !f.canRead || !f.canWrite
        · exact hopen
        · rfl
      | other => rfl

theorem seek_frames (fs : RawFs) (fd offset whence : ℤ) :
    fs.Frames (fs.seek fd offset whence).2 ((fs.byFd fd).map RawFile.name) := by
  unfold RawFs.seek
  cases hf : fs.byFd fd with
  | none => rfl
  | some f =>
    dsimp only
    split
    · rfl
    · generalize (if whence = 0 then some offset else if whence = 1 then some (sword f.pos + offset)
        else if whence = 2 then some (sword f.len + offset) else none) = target
      cases target with
      | none => rfl
      | some p =>
        dsimp only
        split
        · rfl
        · exact frames_setFd hf rfl

theorem event_frames {e : FsEvent} {r : FsReply} (h : fs.event junk e = .ok (r, fs')) : fs.Frames fs' (fs.target e) := by
  cases e with
  | mount name data writable =>
    obtain ⟨⟨_, fs₁⟩, hm, h⟩ := bind_ok h
    cases h
    unfold RawFs.mount at hm
    cases hf : fs.byName name with
    | none =>
      rw [hf] at hm
      obtain ⟨block, -, hm⟩ := bind_ok hm
      cases hm
      unfold RawFs.Frames RawFs.target
      rw [List.filter_append]
      simp
    | some f =>
      rw [hf] at hm
      cases hm
      rfl
  | unmount name =>
    obtain ⟨⟨_, _, fs₁⟩, hm, h⟩ := bind_ok h
    cases h
    unfold RawFs.unmount at hm
    cases hf : fs.byName name with
    | none =>
      rw [hf] at hm
      cases hm
      rfl
    | some f =>
      rw [hf] at hm
      dsimp only at hm
      split_ifs at hm
      · cases hm
        rfl
      · cases hm
        rfl
      · obtain ⟨_, -, hm⟩ := bind_ok hm
        cases hm
        exact filter_discard fun x hx => by simp [RawFs.target, hx]
  | call c =>
    cases c with
    | «open» name flags =>
      cases h
      exact openFile_frames fs name flags
    | close fd =>
      cases h
      change fs.Frames (fs.close fd).2 ((fs.byFd fd).map RawFile.name)
      unfold RawFs.close
      cases hf : fs.byFd fd with
      | none => rfl
      | some f => exact frames_setFd hf rfl
    | read fd n =>
      obtain ⟨⟨_, _, fs₁⟩, hr, h⟩ := bind_ok h
      cases h
      exact read_frames hr
    | write fd buf =>
      obtain ⟨⟨_, fs₁⟩, hw, h⟩ := bind_ok h
      cases h
      exact write_frames hw
    | seek fd offset whence =>
      cases h
      exact seek_frames fs fd offset whence
    | statName name =>
      cases h
      rfl
    | statFd fd =>
      cases h
      rfl
    | truncateName junk name size =>
      obtain ⟨⟨_, fs₁⟩, ht, h⟩ := bind_ok h
      cases h
      exact truncateName_frames ht
    | truncateFd junk fd size =>
      obtain ⟨⟨_, fs₁⟩, ht, h⟩ := bind_ok h
      cases h
      unfold RawFs.truncateFd at ht
      change fs.Frames _ ((fs.byFd fd).map RawFile.name)
      cases hf : fs.byFd fd with
      | none =>
        rw [hf] at ht
        cases ht
        rfl
      | some f =>
        rw [hf] at ht
        exact truncateName_frames ht

end Frame

end MiniBox
