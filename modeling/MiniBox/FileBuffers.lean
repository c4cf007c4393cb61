import MiniBox.FileStructures

namespace MiniBox

open ByteStream LinearTables Outcomes

def FsReply.seen (r : FsReply) : UInt64 × List UInt8 := (UInt64.ofInt r.code, r.bytes)

theorem ofInt_sword (w : UInt64) : UInt64.ofInt (sword w) = w := by
  apply UInt64.toNat_inj.mp
  have := w.toNat_lt
  rw [UInt64.ofInt, UInt64.toNat_ofNat', sword]
  split_ifs <;> omega

theorem seen_length (n : ℕ) (bytes : List UInt8) :
    FsReply.seen ⟨sword (UInt64.ofNat n), bytes⟩ = FsReply.seen ⟨n, bytes⟩ := by
  have h : UInt64.ofInt n = UInt64.ofNat n := by
    apply UInt64.toNat_inj.mp
    simp only [UInt64.ofInt, UInt64.toNat_ofNat']
    omega
  rw [FsReply.seen, FsReply.seen, ofInt_sword, h]

theorem sword_nonneg {n : ℕ} (h : n < 2 ^ 63) : 0 ≤ sword (UInt64.ofNat n) := by
  rw [sword, UInt64.toNat_ofNat', Nat.mod_eq_of_lt (by omega), if_pos h]
  exact Int.natCast_nonneg n

section Blocks

variable {junk : ℕ → UInt8} {block data : List UInt8} {pos : ℕ}

def Backs (block data : List UInt8) : Prop := ∃ rest, block = data ++ rest

theorem length_regrow (junk : ℕ → UInt8) (old : List UInt8) (size : ℕ) : (regrow junk old size).length = size := by
  simp [regrow]
  omega

theorem Backs.length_le (h : Backs block data) : data.length ≤ block.length := by
  obtain ⟨rest, rfl⟩ := h
  simp

theorem Backs.regrow (h : Backs block data) (junk : ℕ → UInt8) {size : ℕ} (hs : data.length ≤ size) :
    Backs (MiniBox.regrow junk block size) data := by
  obtain ⟨rest, rfl⟩ := h
  unfold MiniBox.regrow
  rw [List.take_append, List.take_of_length_le hs, List.append_assoc]
  exact ⟨_, rfl⟩

theorem Backs.cut (h : Backs block data) {size : ℕ} (hs : size ≤ data.length) {size' : ℕ} (hs' : size ≤ size') :
    Backs (MiniBox.regrow junk block size') (data.take size) := by
  obtain ⟨rest, rfl⟩ := h
  have htake : Backs (data ++ rest) (data.take size) :=
    ⟨data.drop size ++ rest, by rw [← List.append_assoc, List.take_append_drop]⟩
  apply htake.regrow junk
  rw [List.length_take]
  omega

theorem Backs.copyOut (h : Backs block data) (pos n : ℕ) (hn : pos + n ≤ data.length) :
    copyOut block pos n = .ok ((data.drop pos).take n) := by
  have hle := h.length_le
  obtain ⟨rest, rfl⟩ := h
  rw [MiniBox.copyOut, if_pos (by omega)]
  congr 1
  rw [List.drop_append_of_le_length (by omega), List.take_append_of_le_length (by rw [List.length_drop]; omega)]

theorem Backs.copyIn (h : Backs block data) (buf : List UInt8) (hpos : pos ≤ data.length)
    (hroom : pos + buf.length ≤ block.length) :
    ∃ block', copyIn block pos buf = .ok block' ∧
      Backs block' (data.take pos ++ buf ++ data.drop (pos + buf.length)) := by
  refine ⟨_, if_pos hroom, ?_⟩
  obtain ⟨rest, rfl⟩ := h
  rw [List.take_append_of_le_length hpos, List.drop_append]
  exact ⟨_, by rw [List.append_assoc _ (data.drop _)]⟩

end Blocks

structure Stores (r : RawFile) (f : MountedFile) : Prop where
  name : r.name = f.name
  fd : r.fd = f.fd
  kind : r.kind = f.kind
  writable : r.writable = f.writable
  pos : r.pos.toNat = f.pos
  len : r.len.toNat = f.data.length
  cap : r.cap = r.len
  block : f.kind = .regular → Backs r.data f.data
  small : f.data.length < 2 ^ 63

section Files

variable {r : RawFile} {f : MountedFile}

theorem Stores.setFd (h : Stores r f) (fd : ℤ) : Stores (r.withFd fd) (f.withFd fd) :=
  ⟨h.name, rfl, h.kind, h.writable, h.pos, h.len, h.cap, h.block, h.small⟩

theorem Stores.close (h : Stores r f) : Stores r.closed f.closed :=
  ⟨h.name, rfl, h.kind, h.writable, rfl, h.len, h.cap, h.block, h.small⟩

theorem Stores.read (h : Stores r f) (hk : f.kind = .regular) {n : ℕ} (hn : n < 2 ^ 64) :
    ∃ r', r.read (UInt64.ofNat n) = .ok (f.taken n, r') ∧ Stores r' (f.advance n) := by
  have hbound := f.inBounds
  have havail : (r.len - r.pos).toNat = f.data.length - f.pos := by
    rw [UInt64.toNat_sub_of_le _ _ (by rw [UInt64.le_iff_toNat_le, h.pos, h.len]; exact hbound), h.pos, h.len]
  have htake : (if UInt64.ofNat n < r.len - r.pos then UInt64.ofNat n else r.len - r.pos).toNat =
      min n (f.data.length - f.pos) := by
    have hof : (UInt64.ofNat n).toNat = n := by rw [UInt64.toNat_ofNat', Nat.mod_eq_of_lt hn]
    split_ifs with hlt
    · rw [UInt64.lt_iff_toNat_lt, hof, havail] at hlt
      omega
    · rw [UInt64.lt_iff_toNat_lt, hof, havail] at hlt
      omega
  unfold RawFile.read
  dsimp only
  generalize (if UInt64.ofNat n < r.len - r.pos then UInt64.ofNat n else r.len - r.pos) = take at htake ⊢
  have hcopy := (h.block hk).copyOut f.pos take.toNat (by omega)
  have hsame : (f.data.drop f.pos).take take.toNat = f.taken n := by
    rw [MountedFile.taken, htake, List.take_eq_take_iff, List.length_drop]
    omega
  refine ⟨{ r with pos := r.pos + take }, ?_, h.name, h.fd, h.kind, h.writable, ?_, h.len, h.cap, h.block, h.small⟩
  · rw [h.pos, hcopy, ok_bind, hsame]
    rfl
  · have hsmall := h.small
    change (r.pos + take).toNat = f.pos + min n (f.data.length - f.pos)
    rw [UInt64.toNat_add, h.pos, htake]
    omega

theorem Stores.write (h : Stores r f) (junk : ℕ → UInt8) (hk : f.kind = .regular) {buf : List UInt8}
    (hn : f.pos + buf.length < 2 ^ 64) :
    (∃ r', r.write junk buf = .ok r' ∧ Stores r' (f.overwrite buf)) ∨
      r.write junk buf = .error .nullDeref ∧ 2 ^ 63 ≤ (f.overwrite buf).data.length := by
  have hbound := f.inBounds
  have hsmall := h.small
  have hlength : (f.overwrite buf).data.length = max f.data.length (f.pos + buf.length) := by
    simp [MountedFile.overwrite]
    omega
  have hnew : (r.pos + UInt64.ofNat buf.length).toNat = f.pos + buf.length := by
    rw [UInt64.toNat_add, UInt64.toNat_ofNat', h.pos]
    omega
  unfold RawFile.write
  dsimp only
  generalize r.pos + UInt64.ofNat buf.length = newpos at hnew ⊢
  have hback := h.block hk
  have hgrow : r.cap < newpos ↔ f.data.length < f.pos + buf.length := by
    rw [UInt64.lt_iff_toNat_lt, h.cap, h.len, hnew]
  by_cases hg : f.data.length < f.pos + buf.length
  · rw [if_pos (hgrow.mpr hg)]
    by_cases hroom : f.pos + buf.length < 2 ^ 63
    · have hblock : reallocate junk r.data newpos = .ok (regrow junk r.data (f.pos + buf.length)) := by
        rw [reallocate, hnew, if_pos hroom]
      obtain ⟨block, hcopy, hback'⟩ := (hback.regrow junk hg.le).copyIn buf hbound
        (by rw [length_regrow])
      refine .inl ⟨{ r with cap := newpos, data := block, pos := newpos, len := newpos }, ?_, h.name, h.fd, h.kind,
        h.writable, hnew, ?_, rfl, fun _ => hback', ?_⟩
      · have hlen : r.len < newpos := h.cap ▸ hgrow.mpr hg
        rw [hblock]
        change (copyIn (regrow junk r.data (f.pos + buf.length)) r.pos.toNat buf >>= _) = _
        rw [h.pos, hcopy, ok_bind, if_pos hlen]
        rfl
      · change newpos.toNat = _
        rw [hlength]
        omega
      · rw [hlength]
        omega
    · refine .inr ⟨?_, by rw [hlength]; omega⟩
      rw [reallocate, hnew, if_neg hroom]
      rfl
  · rw [if_neg (mt hgrow.mp hg)]
    obtain ⟨block, hcopy, hback'⟩ := hback.copyIn buf hbound (by have := hback.length_le; omega)
    refine .inl ⟨{ r with data := block, pos := newpos }, ?_, h.name, h.fd, h.kind, h.writable, hnew, ?_, h.cap,
      fun _ => hback', ?_⟩
    · have hlen : ¬ r.len < newpos := h.cap ▸ mt hgrow.mp hg
      change (copyIn r.data r.pos.toNat buf >>= _) = _
      rw [h.pos, hcopy, ok_bind, if_neg hlen]
      rfl
    · rw [hlength, h.len]
      omega
    · rw [hlength]
      omega

theorem Stores.truncate (h : Stores r f) (junk : ℕ → UInt8) (hk : f.kind = .regular) {size : ℤ}
    (hle : size ≤ f.data.length) :
    ∃ r', r.truncate junk size = .ok r' ∧ Stores r' (f.resize junk size.toNat) := by
  have hbound := f.inBounds
  have hsmall := h.small
  have hsize : (UInt64.ofNat size.toNat).toNat = size.toNat := by
    rw [UInt64.toNat_ofNat', Nat.mod_eq_of_lt (by omega)]
  have hdata : (f.resize junk size.toNat).data = f.data.take size.toNat := by
    have hnone : size.toNat - f.data.length = 0 := by omega
    simp [MountedFile.resize, hnone]
  unfold RawFile.truncate
  dsimp only
  generalize UInt64.ofNat size.toNat = n at hsize ⊢
  have hblock : reallocate junk r.data (if n = 0 then 1 else n) =
      .ok (regrow junk r.data (if n = 0 then 1 else n : UInt64).toNat) := by
    apply if_pos
    split_ifs
    · decide
    · omega
  have hroom : size.toNat ≤ (if n = 0 then 1 else n : UInt64).toNat := by
    split_ifs with hz
    · rw [hz] at hsize
      rw [← hsize]
      decide
    · exact hsize.symm.le
  refine ⟨{ r with
    data := regrow junk r.data (if n = 0 then 1 else n : UInt64).toNat
    len := n
    cap := n
    pos := if n < r.pos then n else r.pos }, ?_, h.name, h.fd, h.kind, h.writable, ?_, ?_, rfl, ?_, ?_⟩
  · rw [hblock]
    rfl
  · change (if n < r.pos then n else r.pos).toNat = min f.pos size.toNat
    split_ifs with hlt
    · rw [UInt64.lt_iff_toNat_lt, h.pos] at hlt
      omega
    · rw [UInt64.lt_iff_toNat_lt, h.pos] at hlt
      rw [h.pos]
      omega
  · rw [hdata, List.length_take]
    change n.toNat = _
    omega
  · intro _
    rw [hdata]
    exact (h.block hk).cut (by omega) hroom
  · rw [hdata, List.length_take]
    omega

theorem Stores.seek (h : Stores r f) {p : ℤ} (hle : p ≤ f.data.length) :
    Stores { r with pos := UInt64.ofNat p.toNat } (f.sought p) := by
  refine ⟨h.name, h.fd, h.kind, h.writable, ?_, h.len, h.cap, h.block, h.small⟩
  have hsmall := h.small
  change (UInt64.ofNat p.toNat).toNat = min p.toNat f.data.length
  rw [UInt64.toNat_ofNat']
  omega

theorem Stores.canRead (h : Stores r f) : r.canRead = f.canRead := by rw [RawFile.canRead, MountedFile.canRead, h.kind]

theorem Stores.canWrite (h : Stores r f) : r.canWrite = f.canWrite := by
  rw [RawFile.canWrite, MountedFile.canWrite, h.kind, h.writable]

theorem Stores.statFile (h : Stores r f) : r.statFile = f.statFile := by
  unfold RawFile.statFile MountedFile.statFile
  rw [h.kind]
  cases f.kind with
  | empty => rfl
  | sysout => rfl
  | regular => simp only [h.writable, h.len]

end Files

def Holds (raw : RawFs) (fs : Fs) : Prop := List.Forall₂ Stores raw.files fs.files

section Tables

variable {raw : RawFs} {fs : Fs} {name : List UInt8} {fd : ℤ} {r r' : RawFile} {f : MountedFile}
  {g : MountedFile → MountedFile}

theorem Holds.byName (h : Holds raw fs) (name : List UInt8) : raw.byName name = none ∧ fs.byName name = none ∨
    ∃ r f, raw.byName name = some r ∧ fs.byName name = some f ∧ Stores r f :=
  lookup_related h fun _ _ hs => by rw [hs.name]

theorem Holds.byFd (h : Holds raw fs) (fd : ℤ) : raw.byFd fd = none ∧ fs.byFd fd = none ∨
    ∃ r f, raw.byFd fd = some r ∧ fs.byFd fd = some f ∧ Stores r f :=
  lookup_related h fun _ _ hs => by rw [hs.fd]

theorem Holds.setName (h : Holds raw fs) (hr : raw.byName name = some r) (hf : fs.byName name = some f)
    (hs : Stores r' (g f)) : Holds (raw.setName name r') (fs.modifyName name g) :=
  adjust_related h (fun _ _ hs => by rw [hs.name]) hr hf hs

theorem Holds.setFd (h : Holds raw fs) (hr : raw.byFd fd = some r) (hf : fs.byFd fd = some f)
    (hs : Stores r' (g f)) : Holds (raw.setFd fd r') (fs.modifyFd fd g) :=
  adjust_related h (fun _ _ hs => by rw [hs.fd]) hr hf hs

theorem Holds.freeFd (h : Holds raw fs) : raw.freeFd = fs.freeFd := by
  have hloop : ∀ (n : ℕ) (d : ℤ), raw.freeFdLoop n d = fs.freeFdLoop n d := by
    intro n
    induction n with
    | zero => intro d; rfl
    | succ n ih =>
      intro d
      have hsome : (raw.byFd d).isSome = (fs.byFd d).isSome := by
        rcases h.byFd d with ⟨hr, hf⟩ | ⟨r, f, hr, hf, -⟩
        · rw [hr, hf]
          rfl
        · rw [hr, hf]
          rfl
      rw [RawFs.freeFdLoop, Fs.freeFdLoop, hsome, ih]
  rw [RawFs.freeFd, Fs.freeFd, List.Forall₂.length_eq h, hloop]

end Tables

/-- The answer of the structures to an event is that of the byte strings, or there was no
block for a file of `2 ^ 63` bytes. -/
def Concurs (raw : RawFs) (out : Except Crash (FsReply × RawFs)) (spec : Except Crash (FsReply × Fs)) : Prop :=
  (∃ c r raw' fs', out = .ok (c, raw') ∧ spec = .ok (r, fs') ∧ c.seen = r.seen ∧ Holds raw' fs' ∧
      (c.code < 0 → raw' = raw)) ∨
    out = .error .nullDeref ∧ ∃ r fs', spec = .ok (r, fs') ∧ ∃ f ∈ fs'.files, 2 ^ 63 ≤ f.data.length

def FsEvent.Sized (fs : Fs) : FsEvent → Prop
  | .mount _ data _ => data.length < 2 ^ 64
  | .call (.read _ n) => n < 2 ^ 64
  | .call (.write fd buf) => ∀ f, fs.byFd fd = some f → f.pos + buf.length < 2 ^ 64
  | .call (.truncateName _ name size) => ∀ f, fs.byName name = some f → size ≤ f.data.length
  | .call (.truncateFd _ fd size) => ∀ f, fs.byFd fd = some f → size ≤ f.data.length
  | _ => True

section Events

variable {raw : RawFs} {fs : Fs} {junk : ℕ → UInt8}

theorem concurs_same (reply : FsReply) (h : Holds raw fs) : Concurs raw (.ok (reply, raw)) (.ok (reply, fs)) :=
  .inl ⟨reply, reply, raw, fs, rfl, rfl, rfl, h, fun _ => rfl⟩

theorem concurs_done {raw' : RawFs} {fs' : Fs} (c r : FsReply) (hseen : c.seen = r.seen) (hcode : 0 ≤ c.code)
    (h : Holds raw' fs') : Concurs raw (.ok (c, raw')) (.ok (r, fs')) :=
  .inl ⟨c, r, raw', fs', rfl, rfl, hseen, h, fun hneg => absurd hneg (not_lt.mpr hcode)⟩

theorem Holds.append (h : Holds raw fs) {r : RawFile} {f : MountedFile} (hs : Stores r f) :
    Holds ⟨raw.files ++ [r]⟩ ⟨fs.files ++ [f]⟩ := List.rel_append h (.cons hs .nil)

theorem stores_mounted {name data : List UInt8} {writable : Bool} {block : List UInt8} (hsmall : data.length < 2 ^ 63)
    (hb : Backs block data) :
    Stores ⟨name, badFd, .regular, block, UInt64.ofNat data.length, UInt64.ofNat data.length, 0, writable⟩
      ⟨name, badFd, .regular, data, 0, writable, Nat.zero_le _⟩ := by
  refine ⟨rfl, rfl, rfl, rfl, rfl, ?_, rfl, fun _ => hb, hsmall⟩
  change (UInt64.ofNat data.length).toNat = data.length
  rw [UInt64.toNat_ofNat', Nat.mod_eq_of_lt (by omega)]

theorem duplicate_spec (junk : ℕ → UInt8) {data : List UInt8} (hn : data.length < 2 ^ 64) :
    (∃ block, duplicate junk data (UInt64.ofNat data.length) = .ok block ∧ Backs block data ∧ data.length < 2 ^ 63) ∨
      duplicate junk data (UInt64.ofNat data.length) = .error .nullDeref ∧ 2 ^ 63 ≤ data.length := by
  have hlen : (UInt64.ofNat data.length).toNat = data.length := by rw [UInt64.toNat_ofNat', Nat.mod_eq_of_lt hn]
  unfold duplicate
  generalize UInt64.ofNat data.length = len at hlen ⊢
  by_cases hz : len = 0
  · simp only [hz, ↓reduceIte]
    have hnil : data = [] := by
      rw [hz] at hlen
      exact List.length_eq_zero_iff.mp hlen.symm
    exact .inl ⟨regrow junk [] 1, rfl, ⟨_, by rw [hnil]; rfl⟩, by rw [hnil]; decide⟩
  · simp only [hz, ↓reduceIte]
    by_cases hsmall : data.length < 2 ^ 63
    · have hblock : reallocate junk [] len = .ok (regrow junk [] data.length) := by
        rw [reallocate, hlen, if_pos hsmall]
      have hempty : Backs (regrow junk [] data.length) [] := ⟨_, rfl⟩
      obtain ⟨block, hcopy, hb⟩ := hempty.copyIn data (Nat.zero_le _) (by rw [length_regrow]; omega)
      refine .inl ⟨block, ?_, by simpa using hb, hsmall⟩
      rw [hblock, ok_bind, hcopy]
    · refine .inr ⟨?_, by omega⟩
      rw [reallocate, hlen, if_neg hsmall]
      rfl

theorem Holds.mount (h : Holds raw fs) (name data : List UInt8) (writable : Bool) (hn : data.length < 2 ^ 64) :
    Concurs raw (raw.event junk (.mount name data writable)) (fs.event (.mount name data writable)) := by
  simp only [RawFs.event, RawFs.mount, Fs.event, Fs.mount]
  rcases h.byName name with ⟨hr, hf⟩ | ⟨r, f, hr, hf, hs⟩
  · rw [hr, hf]
    rcases duplicate_spec junk hn with ⟨block, hdup, hb, hsmall⟩ | ⟨hdup, hbig⟩
    · dsimp only
      rw [hdup]
      exact concurs_done ⟨0, []⟩ ⟨0, []⟩ rfl (le_refl 0) (h.append (stores_mounted hsmall hb))
    · refine .inr ⟨?_, _, _, rfl, _, List.mem_append_right _ (List.mem_singleton_self _), hbig⟩
      dsimp only
      rw [hdup]
      rfl
  · rw [hr, hf]
    exact concurs_same ⟨-eexist, []⟩ h

theorem Holds.unmount (h : Holds raw fs) (name : List UInt8) :
    Concurs raw (raw.event junk (.unmount name)) (fs.event (.unmount name)) := by
  simp only [RawFs.event, RawFs.unmount, Fs.event, Fs.unmount]
  rcases h.byName name with ⟨hr, hf⟩ | ⟨r, f, hr, hf, hs⟩
  · rw [hr, hf]
    exact concurs_same ⟨-enoent, []⟩ h
  · rw [hr, hf]
    dsimp only
    rw [hs.kind, hs.fd]
    split_ifs with hk hfd
    · exact concurs_same ⟨-einval, []⟩ h
    · exact concurs_same ⟨-ebusy, []⟩ h
    · have hcopy := (hs.block (not_not.mp hk)).copyOut 0 f.data.length (by omega)
      have hrest : Holds ⟨discard RawFile.name name raw.files⟩ ⟨discard MountedFile.name name fs.files⟩ :=
        discard_related h fun _ _ hs => by rw [hs.name]
      rw [hs.len, hcopy, List.drop_zero, List.take_length]
      exact concurs_done ⟨0, f.data⟩ ⟨0, f.data⟩ rfl (le_refl 0) hrest

theorem Holds.openFile (h : Holds raw fs) (name : List UInt8) (flags : UInt32) :
    Concurs raw (raw.event junk (.call (.open name flags))) (fs.event (.call (.open name flags))) := by
  simp only [RawFs.event, RawFs.openFile, Fs.event, Fs.call, Fs.openFile]
  rcases h.byName name with ⟨hr, hf⟩ | ⟨r, f, hr, hf, hs⟩
  · rw [hr, hf]
    exact concurs_same ⟨-enoent, []⟩ h
  · rw [hr, hf]
    dsimp only
    rw [hs.fd, hs.canRead, hs.canWrite, h.freeFd]
    have hopen : Concurs raw (.ok (⟨fs.freeFd, []⟩, raw.setName name (r.withFd fs.freeFd)))
        (.ok (⟨fs.freeFd, []⟩, fs.modifyName name (.withFd fs.freeFd))) :=
      concurs_done ⟨fs.freeFd, []⟩ ⟨fs.freeFd, []⟩ rfl fs.freeFd_least.1 (h.setName hr hf (hs.setFd _))
    by_cases hfd : f.fd = badFd
    · rw [if_neg (not_not.mpr hfd), if_neg (not_not.mpr hfd)]
      cases Fs.accessMode flags with
      | rdonly =>
        cases f.canRead
        · exact concurs_same ⟨-eacces, []⟩ h
        · exact hopen
      | wronly =>
        cases f.canWrite
        · exact concurs_same ⟨-eacces, []⟩ h
        · exact hopen
      | rdwr =>
        cases hrw : !f.canRead || !f.canWrite
        · exact hopen
        · exact concurs_same ⟨-eacces, []⟩ h
      | other => exact concurs_same ⟨-einval, []⟩ h
    · rw [if_pos hfd, if_pos hfd]
      exact concurs_same ⟨-eacces, []⟩ h

theorem Holds.close (h : Holds raw fs) (fd : ℤ) :
    Concurs raw (raw.event junk (.call (.close fd))) (fs.event (.call (.close fd))) := by
  simp only [RawFs.event, RawFs.close, Fs.event, Fs.call, Fs.close]
  rcases h.byFd fd with ⟨hr, hf⟩ | ⟨r, f, hr, hf, hs⟩
  · rw [hr, hf]
    exact concurs_same ⟨-ebadf, []⟩ h
  · rw [hr, hf]
    exact concurs_done ⟨0, []⟩ ⟨0, []⟩ rfl (le_refl 0) (h.setFd hr hf hs.close)

theorem Holds.read (h : Holds raw fs) (fd : ℤ) {n : ℕ} (hn : n < 2 ^ 64) :
    Concurs raw (raw.event junk (.call (.read fd n))) (fs.event (.call (.read fd n))) := by
  simp only [RawFs.event, RawFs.read, Fs.event, Fs.call, Fs.read]
  rcases h.byFd fd with ⟨hr, hf⟩ | ⟨r, f, hr, hf, hs⟩
  · rw [hr, hf]
    exact concurs_same ⟨-enoent, []⟩ h
  · rw [hr, hf]
    dsimp only
    rw [hs.kind]
    cases hk : f.kind with
    | empty => exact concurs_same ⟨0, []⟩ h
    | sysout => exact concurs_same ⟨-ebadf, []⟩ h
    | regular =>
      obtain ⟨r', hread, hs'⟩ := hs.read hk hn
      dsimp only
      rw [hread]
      have hsmall : (f.taken n).length < 2 ^ 63 := by
        have := hs.small
        simp only [MountedFile.taken, List.length_take, List.length_drop]
        omega
      exact concurs_done ⟨_, f.taken n⟩ ⟨_, f.taken n⟩ (seen_length _ _) (sword_nonneg hsmall) (h.setFd hr hf hs')

theorem Holds.write (h : Holds raw fs) (fd : ℤ) (buf : List UInt8)
    (hn : ∀ f, fs.byFd fd = some f → f.pos + buf.length < 2 ^ 64) :
    Concurs raw (raw.event junk (.call (.write fd buf))) (fs.event (.call (.write fd buf))) := by
  simp only [RawFs.event, RawFs.write, Fs.event, Fs.call, Fs.write]
  rcases h.byFd fd with ⟨hr, hf⟩ | ⟨r, f, hr, hf, hs⟩
  · rw [hr, hf]
    exact concurs_same ⟨-enoent, []⟩ h
  · have hfits := hn f hf
    rw [hr, hf]
    dsimp only
    rw [hs.kind, hs.writable]
    cases hk : f.kind with
    | empty => exact concurs_same ⟨-ebadf, []⟩ h
    | sysout => exact .inl ⟨⟨_, []⟩, ⟨_, []⟩, raw, fs, rfl, rfl, seen_length _ _, h, fun _ => rfl⟩
    | regular =>
      cases hw : f.writable with
      | false => exact concurs_same ⟨-ebadf, []⟩ h
      | true =>
        simp only [Bool.not_true, Bool.false_eq_true, ↓reduceIte, not_le.mpr hfits]
        rcases hs.write junk hk hfits with ⟨r', hwrite, hs'⟩ | ⟨hwrite, hbig⟩
        · rw [hwrite]
          have hsmall : buf.length < 2 ^ 63 := by
            have := hs'.small
            simp only [MountedFile.overwrite, List.length_append] at this
            omega
          exact concurs_done ⟨_, []⟩ ⟨_, []⟩ (seen_length _ _) (sword_nonneg hsmall) (h.setFd hr hf hs')
        · refine .inr ⟨by rw [hwrite]; rfl, _, _, rfl, f.overwrite buf, mem_adjust_self hf, hbig⟩

theorem Holds.seek (h : Holds raw fs) (fd offset whence : ℤ) :
    Concurs raw (raw.event junk (.call (.seek fd offset whence))) (fs.event (.call (.seek fd offset whence))) := by
  simp only [RawFs.event, RawFs.seek, Fs.event, Fs.call, Fs.seek]
  rcases h.byFd fd with ⟨hr, hf⟩ | ⟨r, f, hr, hf, hs⟩
  · rw [hr, hf]
    exact concurs_same ⟨-einval, []⟩ h
  · have hlen : sword r.len = f.data.length := by rw [sword, hs.len, if_pos hs.small]
    have hpos : sword r.pos = f.pos := by rw [sword, hs.pos, if_pos (f.inBounds.trans_lt hs.small)]
    rw [hr, hf]
    dsimp only
    rw [hlen, hpos]
    by_cases hk : f.kind = .regular
    · rw [if_neg (not_not.mpr (hs.kind.trans hk)), if_neg (not_not.mpr hk)]
      generalize (if whence = 0 then some offset else if whence = 1 then some (↑f.pos + offset)
        else if whence = 2 then some (↑f.data.length + offset) else none) = target
      cases target with
      | none => exact concurs_same ⟨-einval, []⟩ h
      | some p =>
        dsimp only
        by_cases hp : p < 0 ∨ ↑f.data.length < p
        · rw [if_pos hp, if_pos hp]
          exact concurs_same ⟨-einval, []⟩ h
        · rw [if_neg hp, if_neg hp]
          push Not at hp
          exact concurs_done ⟨p, []⟩ ⟨p, []⟩ rfl hp.1 (h.setFd hr hf (hs.seek hp.2))
    · rw [if_pos (hs.kind.trans_ne hk), if_pos hk]
      exact concurs_same ⟨-einval, []⟩ h

theorem Holds.stat (h : Holds raw fs) {r : Option RawFile} {f : Option MountedFile}
    (hfound : r = none ∧ f = none ∨ ∃ r' f', r = some r' ∧ f = some f' ∧ Stores r' f') :
    Concurs raw (.ok (⟨(RawFs.statFound r).1, (RawFs.statFound r).2⟩, raw))
      (.ok (⟨(Fs.statFound f).1, (Fs.statFound f).2⟩, fs)) := by
  rcases hfound with ⟨rfl, rfl⟩ | ⟨r', f', rfl, rfl, hs⟩
  · exact concurs_same ⟨-enoent, []⟩ h
  · simp only [RawFs.statFound, Fs.statFound, hs.statFile]
    exact concurs_same ⟨0, _⟩ h

theorem Holds.truncateName (h : Holds raw fs) (junk : ℕ → UInt8) (name : List UInt8) (size : ℤ)
    (hn : ∀ f, fs.byName name = some f → f.kind = .regular → f.writable = true → size ≤ f.data.length) :
    Concurs raw
      (do let (r, raw) ← raw.truncateName junk name size; return (⟨r, []⟩, raw))
      (.ok (⟨(fs.truncateName junk name size).1, []⟩, (fs.truncateName junk name size).2)) := by
  simp only [RawFs.truncateName, Fs.truncateName]
  rcases h.byName name with ⟨hr, hf⟩ | ⟨r, f, hr, hf, hs⟩
  · rw [hr, hf]
    exact concurs_same ⟨-enoent, []⟩ h
  · rw [hr, hf]
    dsimp only
    rw [hs.kind, hs.writable]
    by_cases hbad : f.kind ≠ .regular ∨ f.writable = false ∨ size < 0
    · rw [if_pos hbad, if_pos hbad]
      exact concurs_same ⟨-ebadf, []⟩ h
    · rw [if_neg hbad, if_neg hbad]
      push Not at hbad
      have hle := hn f hf hbad.1 (by simpa using hbad.2.1)
      obtain ⟨r', htrunc, hs'⟩ := hs.truncate junk hbad.1 hle
      rw [htrunc]
      exact concurs_done ⟨0, []⟩ ⟨0, []⟩ rfl (le_refl 0) (h.setName hr hf hs')

theorem Holds.event (h : Holds raw fs) (hsound : fs.Sound) (e : FsEvent) (hsized : e.Sized fs) :
    Concurs raw (raw.event junk e) (fs.event e) := by
  cases e with
  | mount name data writable => exact h.mount name data writable hsized
  | unmount name => exact h.unmount name
  | call c =>
    cases c with
    | «open» name flags => exact h.openFile name flags
    | close fd => exact h.close fd
    | read fd n => exact h.read fd hsized
    | write fd buf => exact h.write fd buf hsized
    | seek fd offset whence => exact h.seek fd offset whence
    | statName name => exact h.stat (h.byName name)
    | statFd fd => exact h.stat (h.byFd fd)
    | truncateName junk name size => exact h.truncateName junk name size fun f hf _ _ => hsized f hf
    | truncateFd junk fd size =>
      simp only [RawFs.event, RawFs.truncateFd, Fs.event, Fs.call, Fs.truncateFd]
      rcases h.byFd fd with ⟨hr, hf⟩ | ⟨r, f, hr, hf, hs⟩
      · rw [hr, hf]
        exact concurs_same ⟨-enoent, []⟩ h
      · rw [hr, hf]
        dsimp only
        rw [hs.name]
        apply h.truncateName
        intro g hg _ _
        rw [Fs.byName_of_mem hsound (lookup_mem hf)] at hg
        cases hg
        exact hsized f hf

end Events

end MiniBox
