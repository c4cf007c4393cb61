import MiniBox.FileRuns

/-!
What the virtual file system is for: an ordered list of files with distinct names, each a byte
string with a position and at most one descriptor.
-/

namespace MiniBox

open ByteStream LinearTables

structure VirtualFile where
  name : List UInt8
  kind : FileKind
  writable : Bool
  content : List UInt8
  pos : ℕ
  fd : Option ℕ

namespace VirtualFile

variable (v : VirtualFile)

def refuses (flags : UInt32) : Option ℤ :=
  if flags.toNat.testBit 21 ∨ flags.toNat % 4 = 3 then some (-einval)
  else if flags.toNat % 4 ≠ 1 ∧ v.kind = .sysout then some (-eacces)
  else if flags.toNat % 4 ≠ 0 ∧ (v.kind = .empty ∨ v.kind = .regular ∧ v.writable = false) then some (-eacces)
  else none

def next (n : ℕ) : List UInt8 := (v.content.drop v.pos).take n

def advance (n : ℕ) : VirtualFile := { v with pos := v.pos + (v.next n).length }

def overwrite (buf : List UInt8) : VirtualFile :=
  { v with content := v.content.take v.pos ++ buf ++ v.content.drop (v.pos + buf.length), pos := v.pos + buf.length }

def seekTo (p : ℕ) : VirtualFile := { v with pos := p }

def target (offset whence : ℤ) : Option ℤ :=
  if whence = 0 then some offset
  else if whence = 1 then some (v.pos + offset)
  else if whence = 2 then some (v.content.length + offset)
  else none

def shorten (size : ℕ) : VirtualFile := { v with content := v.content.take size, pos := min v.pos size }

def mode : ℕ :=
  match v.kind with
  | .sysout => 0o010222
  | .empty => 0o010444
  | .regular => if v.writable then 0o100666 else 0o100444

def size : ℕ :=
  match v.kind with
  | .regular => v.content.length
  | _ => 0

def statBytes (mode size : ℕ) : List UInt8 :=
  [(8, 1), (8, 1), (8, 0), (4, mode), (4, 0), (4, 0), (4, 0), (8, 0), (8, size), (8, 4096), (8, (size + 511) / 512),
    (8, 1262304000000), (8, 500000000), (8, 1262304000000), (8, 500000000), (8, 1262304000000), (8, 500000000),
    (8, 0), (8, 0), (8, 0)].flatMap fun field : ℕ × ℕ => List.ofFn (leBytes field.1 field.2)

def status : List UInt8 := statBytes v.mode v.size

end VirtualFile

structure FileMap where
  files : List VirtualFile
  names : (files.map VirtualFile.name).Nodup
  fds : ∀ v ∈ files, ∀ w ∈ files, ∀ d, v.fd = some d → w.fd = some d → v = w

namespace FileMap

variable (m : FileMap)

def device (name : String) (fd : ℕ) (kind : FileKind) : VirtualFile := ⟨ascii name, kind, false, [], 0, some fd⟩

def new : FileMap where
  files := [device "/dev/stdin" 0 .empty, device "/dev/stdout" 1 .sysout, device "/dev/stderr" 2 .sysout]
  names := by decide
  fds := by simp [device]

def named (name : List UInt8) : Option VirtualFile := lookup VirtualFile.name name m.files

def opened (fd : ℤ) : Option VirtualFile := lookup VirtualFile.fd (some fd.toNat) m.files

noncomputable def lowest : ℕ := sInf {d | ∀ v ∈ m.files, v.fd ≠ some d}

def add (v : VirtualFile) (hname : v.name ∉ m.files.map VirtualFile.name) (hfd : v.fd = none) : FileMap where
  files := m.files ++ [v]
  names := by
    rw [List.map_append, List.nodup_append']
    exact ⟨m.names, List.nodup_singleton _, by simpa [List.disjoint_singleton] using hname⟩
  fds := by
    have hold : ∀ w ∈ m.files ++ [v], ∀ d, w.fd = some d → w ∈ m.files := by
      intro w hw d hd
      rcases List.mem_append.mp hw with hw | hw
      · exact hw
      · rw [List.mem_singleton.mp hw, hfd] at hd
        cases hd
    intro w hw x hx d hwd hxd
    exact m.fds w (hold w hw d hwd) x (hold x hx d hxd) d hwd hxd

def remove (name : List UInt8) : FileMap where
  files := discard VirtualFile.name name m.files
  names := (discard_sublist.map _).nodup m.names
  fds := fun v hv w hw => m.fds v (discard_sublist.subset hv) w (discard_sublist.subset hw)

def change (name : List UInt8) (g : VirtualFile → VirtualFile) (hname : ∀ v, (g v).name = v.name)
    (hfd : ∀ v d, (g v).fd = some d → v.fd = some d ∨ ∀ w ∈ m.files, w.fd ≠ some d) : FileMap where
  files := adjust VirtualFile.name name g m.files
  names := by
    rw [map_adjust hname]
    exact m.names
  fds := by
    have hother : ∀ v ∈ m.files, ∀ w ∈ m.files, ∀ d, v.name ≠ w.name → (g v).fd = some d → w.fd ≠ some d := by
      intro v hv w hw d hne hd hwd
      rcases hfd v d hd with hvd | hfree
      · exact hne (congrArg VirtualFile.name (m.fds v hv w hw d hvd hwd))
      · exact hfree w hw hwd
    rw [adjust_eq_map m.names]
    intro v' hv' w' hw' d hvd hwd
    obtain ⟨v, hv, rfl⟩ := List.mem_map.mp hv'
    obtain ⟨w, hw, rfl⟩ := List.mem_map.mp hw'
    by_cases hvn : v.name = name
    · by_cases hwn : w.name = name
      · rw [List.inj_on_of_nodup_map m.names hv hw (hvn.trans hwn.symm)]
      · rw [if_pos hvn] at hvd
        rw [if_neg hwn] at hwd
        exact absurd hwd (hother v hv w hw d (hvn.trans_ne (Ne.symm hwn)) hvd)
    · by_cases hwn : w.name = name
      · rw [if_neg hvn] at hvd
        rw [if_pos hwn] at hwd
        exact absurd hvd (hother w hw v hv d (hwn.trans_ne (Ne.symm hvn)) hwd)
      · rw [if_neg hvn] at hvd ⊢
        rw [if_neg hwn] at hwd ⊢
        exact m.fds v hv w hw d hvd hwd

def revise (name : List UInt8) (g : VirtualFile → VirtualFile) (hname : ∀ v, (g v).name = v.name)
    (hfd : ∀ v, (g v).fd = v.fd) : FileMap :=
  m.change name g hname fun v _ hd => .inl (hfd v ▸ hd)

theorem lowest_free : ∀ v ∈ m.files, v.fd ≠ some m.lowest := by
  have hfree : {d | ∀ v ∈ m.files, v.fd ≠ some d}.Nonempty := by
    obtain ⟨d, hd⟩ := (m.files.filterMap VirtualFile.fd).toFinset.exists_notMem
    refine ⟨d, ?_⟩
    intro v hv hvd
    exact hd (List.mem_toFinset.mpr (List.mem_filterMap.mpr ⟨v, hv, hvd⟩))
  exact Nat.sInf_mem hfree

def mount (name data : List UInt8) (writable : Bool) : FsReply × FileMap :=
  if h : name ∈ m.files.map VirtualFile.name then (⟨-eexist, []⟩, m)
  else (⟨0, []⟩, m.add ⟨name, .regular, writable, data, 0, none⟩ h rfl)

def unmount (name : List UInt8) : FsReply × FileMap :=
  match m.named name with
  | none => (⟨-enoent, []⟩, m)
  | some v =>
    if v.kind ≠ .regular then (⟨-einval, []⟩, m)
    else if v.fd ≠ none then (⟨-ebusy, []⟩, m)
    else (⟨0, v.content⟩, m.remove name)

noncomputable def openFile (name : List UInt8) (flags : UInt32) : FsReply × FileMap :=
  match m.named name with
  | none => (⟨-enoent, []⟩, m)
  | some v =>
    if v.fd ≠ none then (⟨-eacces, []⟩, m)
    else match v.refuses flags with
      | some e => (⟨e, []⟩, m)
      | none =>
        (⟨m.lowest, []⟩, m.change name (fun v => { v with fd := some m.lowest }) (fun _ => rfl)
          fun _ _ hd => .inr fun w hw => Option.some.inj hd ▸ m.lowest_free w hw)

def close (fd : ℤ) : FsReply × FileMap :=
  match m.opened fd with
  | none => (⟨-ebadf, []⟩, m)
  | some v =>
    (⟨0, []⟩, m.change v.name (fun v => { v with fd := none, pos := 0 }) (fun _ => rfl) fun _ _ hd => nomatch hd)

def read (fd : ℤ) (n : ℕ) : FsReply × FileMap :=
  match m.opened fd with
  | none => (⟨-enoent, []⟩, m)
  | some v =>
    match v.kind with
    | .empty => (⟨0, []⟩, m)
    | .sysout => (⟨-ebadf, []⟩, m)
    | .regular =>
      (⟨(v.next n).length, v.next n⟩, m.revise v.name (·.advance n) (fun _ => rfl) (fun _ => rfl))

def write (fd : ℤ) (buf : List UInt8) : FsReply × FileMap :=
  match m.opened fd with
  | none => (⟨-enoent, []⟩, m)
  | some v =>
    match v.kind with
    | .sysout => (⟨buf.length, []⟩, m)
    | .empty => (⟨-ebadf, []⟩, m)
    | .regular =>
      if v.writable then (⟨buf.length, []⟩, m.revise v.name (·.overwrite buf) (fun _ => rfl) (fun _ => rfl))
      else (⟨-ebadf, []⟩, m)

def seek (fd offset whence : ℤ) : FsReply × FileMap :=
  match m.opened fd with
  | none => (⟨-einval, []⟩, m)
  | some v =>
    if v.kind ≠ .regular then (⟨-einval, []⟩, m)
    else match v.target offset whence with
      | none => (⟨-einval, []⟩, m)
      | some p =>
        if 0 ≤ p ∧ p ≤ v.content.length then
          (⟨p, []⟩, m.revise v.name (·.seekTo p.toNat) (fun _ => rfl) (fun _ => rfl))
        else (⟨-einval, []⟩, m)

def stat (v : Option VirtualFile) : FsReply := v.elim ⟨-enoent, []⟩ fun v => ⟨0, v.status⟩

def truncate (v : Option VirtualFile) (size : ℤ) : FsReply × FileMap :=
  match v with
  | none => (⟨-enoent, []⟩, m)
  | some v =>
    if v.kind = .regular ∧ v.writable = true ∧ 0 ≤ size then
      (⟨0, []⟩, m.revise v.name (·.shorten size.toNat) (fun _ => rfl) (fun _ => rfl))
    else (⟨-ebadf, []⟩, m)

noncomputable def event : FsEvent → FsReply × FileMap
  | .mount name data writable => m.mount name data writable
  | .unmount name => m.unmount name
  | .call (.open name flags) => m.openFile name flags
  | .call (.close fd) => m.close fd
  | .call (.read fd n) => m.read fd n
  | .call (.write fd buf) => m.write fd buf
  | .call (.seek fd offset whence) => m.seek fd offset whence
  | .call (.statName name) => (stat (m.named name), m)
  | .call (.statFd fd) => (stat (m.opened fd), m)
  | .call (.truncateName _ name size) => m.truncate (m.named name) size
  | .call (.truncateFd _ fd size) => m.truncate (m.opened fd) size

/-- The events of which the map says what they do: descriptors are not negative, sizes are
machine words, and a file is not made longer than it is by `truncate`. -/
def Allows : FsEvent → Prop
  | .mount _ data _ => data.length < 2 ^ 64
  | .call (.close fd) => 0 ≤ fd
  | .call (.read fd n) => 0 ≤ fd ∧ n < 2 ^ 64
  | .call (.write fd buf) => 0 ≤ fd ∧ ∀ v, m.opened fd = some v → v.pos + buf.length < 2 ^ 64
  | .call (.seek fd _ _) => 0 ≤ fd
  | .call (.statFd fd) => 0 ≤ fd
  | .call (.truncateName _ name size) => ∀ v, m.named name = some v → size ≤ v.content.length
  | .call (.truncateFd _ fd size) => 0 ≤ fd ∧ ∀ v, m.opened fd = some v → size ≤ v.content.length
  | _ => True

noncomputable def run (m : FileMap) : List FsEvent → List FsReply × FileMap
  | [] => ([], m)
  | e :: es => ((m.event e).1 :: ((m.event e).2.run es).1, ((m.event e).2.run es).2)

def AllowsAll (m : FileMap) : List FsEvent → Prop
  | [] => True
  | e :: es => m.Allows e ∧ (m.event e).2.AllowsAll es

end FileMap

end MiniBox
