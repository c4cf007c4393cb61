import MiniBox.FileBuffers
import MiniBox.FileMap

namespace MiniBox

open ByteStream LinearTables Outcomes

def fdField (d : Option ℕ) : ℤ := d.elim badFd fun d => d

theorem fdField_eq_badFd {d : Option ℕ} : fdField d = badFd ↔ d = none := by
  cases d with
  | none => simp [fdField]
  | some d =>
    simp only [fdField, Option.elim_some, badFd, reduceCtorEq]

theorem fdField_eq {d : Option ℕ} {fd : ℤ} (h : 0 ≤ fd) : fdField d = fd ↔ d = some fd.toNat := by
  cases d with
  | none =>
    simp only [fdField, Option.elim_none, badFd, reduceCtorEq, iff_false]
    omega
  | some d =>
    simp only [fdField, Option.elim_some, Option.some.injEq]
    omega

structure Shows (f : MountedFile) (v : VirtualFile) : Prop where
  name : f.name = v.name
  kind : f.kind = v.kind
  writable : f.writable = v.writable
  content : f.data = v.content
  pos : f.pos = v.pos
  fd : f.fd = fdField v.fd

def Views (fs : Fs) (m : FileMap) : Prop := List.Forall₂ Shows fs.files m.files

section Lookups

variable {fs : Fs} {m : FileMap} {f : MountedFile} {v : VirtualFile} {fd : ℤ}

theorem Views.named (h : Views fs m) (name : List UInt8) : fs.byName name = none ∧ m.named name = none ∨
    ∃ f v, fs.byName name = some f ∧ m.named name = some v ∧ Shows f v :=
  lookup_related h fun _ _ hs => by rw [hs.name]

theorem Views.opened (h : Views fs m) (hfd : 0 ≤ fd) : fs.byFd fd = none ∧ m.opened fd = none ∨
    ∃ f v, fs.byFd fd = some f ∧ m.opened fd = some v ∧ Shows f v :=
  lookup_related h fun _ _ hs => by rw [hs.fd, fdField_eq hfd]

theorem Views.names (h : Views fs m) : fs.files.map MountedFile.name = m.files.map VirtualFile.name :=
  map_related h fun _ _ hs => hs.name

theorem Views.sound (h : Views fs m) : fs.Sound := by
  have hnames : (fs.files.map MountedFile.name).Nodup := h.names ▸ m.names
  refine ⟨hnames, ?_, ?_⟩
  · intro f hf g hg heq hopen
    obtain ⟨v, hv, hfv⟩ := mem_related h hf
    obtain ⟨w, hw, hgw⟩ := mem_related h hg
    cases hd : v.fd with
    | none => exact absurd (hfv.fd.trans (fdField_eq_badFd.mpr hd)) hopen
    | some d =>
      have hwd : w.fd = some d := by
        have hdw : fdField w.fd = d := by rw [← hgw.fd, ← heq, hfv.fd, hd]; rfl
        simpa using (fdField_eq (Int.natCast_nonneg d)).mp hdw
      have hvw := m.fds v hv w hw d hd hwd
      apply List.inj_on_of_nodup_map hnames hf hg
      rw [hfv.name, hgw.name, hvw]
  · intro f hf hopen
    obtain ⟨v, -, hfv⟩ := mem_related h hf
    cases hd : v.fd with
    | none => exact absurd (hfv.fd.trans (fdField_eq_badFd.mpr hd)) hopen
    | some d =>
      rw [hfv.fd, hd]
      exact Int.natCast_nonneg d

theorem Views.lowest (h : Views fs m) : (m.lowest : ℤ) = fs.freeFd := by
  obtain ⟨h0, hfree, hbelow⟩ := fs.freeFd_least
  have hmem : ∀ v ∈ m.files, v.fd ≠ some fs.freeFd.toNat := by
    rcases h.opened h0 with ⟨-, hm⟩ | ⟨f, v, hf, -⟩
    · intro v hv hd
      exact lookup_eq_none.mp hm (hd ▸ List.mem_map_of_mem hv)
    · rw [hf] at hfree
      cases hfree
  have hle : m.lowest ≤ fs.freeFd.toNat := Nat.sInf_le hmem
  by_contra hne
  have hsome := hbelow m.lowest (Int.natCast_nonneg _) (by omega)
  rcases h.opened (Int.natCast_nonneg m.lowest) with ⟨hf, -⟩ | ⟨f, v, -, hv, -⟩
  · simp [hf] at hsome
  · refine m.lowest_free v (lookup_mem hv) ?_
    simpa using lookup_key hv

end Lookups

section Events

variable {fs : Fs} {m : FileMap} {f : MountedFile} {v : VirtualFile} {fd : ℤ}

theorem Views.change (h : Views fs m) (hf : f ∈ fs.files) (hv : v ∈ m.files) (hs : Shows f v)
    {g : MountedFile → MountedFile} {g' : VirtualFile → VirtualFile} (hg : Shows (g f) (g' v)) :
    List.Forall₂ Shows (fs.modifyName f.name g).files (adjust VirtualFile.name v.name g' m.files) :=
  adjust_related h (fun _ _ hxy => by rw [hxy.name, hs.name]) (Fs.byName_of_mem h.sound hf)
    (lookup_of_mem m.names hv) hg

theorem and_accmode (n : ℕ) : n &&& 0o10000003 = 2 ^ 21 * (n.testBit 21).toNat + n % 4 := by
  apply Nat.eq_of_testBit_eq
  intro i
  have hmask : (0o10000003 : ℕ) = 2 ^ 21 * 1 + 3 := by norm_num
  rw [Nat.testBit_and, hmask, Nat.testBit_two_pow_mul_add _ (by norm_num), Nat.testBit_two_pow_mul_add _ (by omega)]
  split_ifs with hi
  · rw [show 4 = 2 ^ 2 by rfl, Nat.testBit_mod_two_pow, show 3 = 2 ^ 2 - 1 by rfl, Nat.testBit_two_pow_sub_one,
      Bool.and_comm]
  · rcases Nat.eq_or_lt_of_not_lt hi with rfl | hlt
    · cases n.testBit 21 <;> rfl
    · obtain ⟨k, rfl⟩ := Nat.exists_eq_add_of_lt hlt
      rw [show 21 + k + 1 - 21 = k + 1 by omega]
      cases n.testBit 21 <;> simp [Nat.testBit_succ]

theorem accessMode_eq (flags : UInt32) : Fs.accessMode flags =
    if flags.toNat.testBit 21 ∨ flags.toNat % 4 = 3 then .other
    else if flags.toNat % 4 = 0 then .rdonly else if flags.toNat % 4 = 1 then .wronly else .rdwr := by
  have heq : ∀ k : UInt32, flags &&& 0o10000003 = k ↔
      2 ^ 21 * (flags.toNat.testBit 21).toNat + flags.toNat % 4 = k.toNat := by
    intro k
    rw [← and_accmode]
    exact UInt32.toNat_inj.symm
  have hlt := Nat.mod_lt flags.toNat (show 0 < 4 by norm_num)
  unfold Fs.accessMode
  simp only [heq, UInt32.reduceToNat]
  generalize flags.toNat % 4 = k at hlt
  cases flags.toNat.testBit 21 with
  | true =>
    have hbig : 3 ≤ 2 ^ 21 * true.toNat + k := by
      rw [Bool.toNat_true]
      omega
    rw [if_neg (by omega), if_neg (by omega), if_neg (by omega), if_pos (Or.inl rfl)]
  | false =>
    simp only [Bool.toNat_false, Nat.mul_zero, Nat.zero_add, Bool.false_eq_true, false_or]
    interval_cases k <;> rfl

theorem Shows.refuses (hs : Shows f v) (flags : UInt32) : Fs.refusal f (Fs.accessMode flags) = v.refuses flags := by
  have hread : f.canRead = decide (v.kind ≠ .sysout) := by rw [MountedFile.canRead, hs.kind]
  have hwrite : f.canWrite = (decide (v.kind = .sysout) || (decide (v.kind = .regular) && v.writable)) := by
    rw [MountedFile.canWrite, hs.kind, hs.writable]
  have hlt := Nat.mod_lt flags.toNat (show 0 < 4 by norm_num)
  rw [accessMode_eq]
  unfold VirtualFile.refuses
  generalize flags.toNat.testBit 21 = path
  generalize flags.toNat % 4 = k at hlt
  interval_cases k <;> cases path <;> cases hk : v.kind <;> cases hw : v.writable <;>
    simp [Fs.refusal, hread, hwrite, hk, hw]

theorem fillStat_eq (canRead canWrite canSeek : Bool) (length : ℕ) :
    MountedFile.fillStat canRead canWrite canSeek length =
      VirtualFile.statBytes ((if canSeek then 0o100000 else 0o010000) + (if canRead then 0o444 else 0) +
        if canWrite then 0o222 else 0) (if canSeek then length else 0) := by
  have hmode : (if canRead then MountedFile.modeRead else 0) ||| (if canWrite then MountedFile.modeWrite else 0) |||
      (if canSeek then MountedFile.modeReg else MountedFile.modeFifo) = UInt32.ofNat ((if canSeek then 0o100000
        else 0o010000) + (if canRead then 0o444 else 0) + if canWrite then 0o222 else 0) := by
    cases canRead <;> cases canWrite <;> cases canSeek <;> rfl
  unfold MountedFile.fillStat VirtualFile.statBytes
  simp only [List.flatMap_cons, List.flatMap_nil, List.append_nil, ← le64_ofNat, ← le32_ofNat, hmode, List.append_assoc]
  rfl

theorem Shows.statFile (hs : Shows f v) : f.statFile = v.status := by
  unfold MountedFile.statFile VirtualFile.status VirtualFile.mode VirtualFile.size
  rw [hs.kind, hs.writable, hs.content]
  cases v.kind with
  | empty => exact fillStat_eq true false false 0
  | sysout => exact fillStat_eq false true false 0
  | regular =>
    cases v.writable with
    | false => exact fillStat_eq true false true _
    | true => exact fillStat_eq true true true _

def Follows (spec : Except Crash (FsReply × Fs)) (out : FsReply × FileMap) : Prop :=
  ∃ fs', spec = .ok (out.1, fs') ∧ Views fs' out.2

theorem Views.follows (h : Views fs m) (r : FsReply) : Follows (.ok (r, fs)) (r, m) := ⟨fs, rfl, h⟩

theorem Views.mount (h : Views fs m) (name data : List UInt8) (writable : Bool) :
    Follows (fs.event (.mount name data writable)) (m.mount name data writable) := by
  simp only [Fs.event, Fs.mount, FileMap.mount]
  rcases h.named name with ⟨hf, hm⟩ | ⟨f, v, hf, hm, -⟩
  · rw [hf, dif_neg (lookup_eq_none.mp hm)]
    refine ⟨_, rfl, List.rel_append h (.cons ?_ .nil)⟩
    exact ⟨rfl, rfl, rfl, rfl, rfl, rfl⟩
  · have hmem : name ∈ m.files.map VirtualFile.name := isSome_lookup.mp (by rw [show lookup _ _ _ = _ from hm]; rfl)
    rw [hf, dif_pos hmem]
    exact h.follows _

theorem Views.unmount (h : Views fs m) (name : List UInt8) :
    Follows (fs.event (.unmount name)) (m.unmount name) := by
  simp only [Fs.event, Fs.unmount, FileMap.unmount]
  rcases h.named name with ⟨hf, hm⟩ | ⟨f, v, hf, hm, hs⟩
  · rw [hf, hm]
    exact h.follows _
  · rw [hf, hm]
    dsimp only
    have hopen : f.fd ≠ badFd ↔ v.fd ≠ none := not_congr (hs.fd ▸ fdField_eq_badFd)
    rw [hs.kind, hs.content]
    by_cases hk : v.kind ≠ .regular
    · rw [if_pos hk, if_pos hk]
      exact h.follows _
    · rw [if_neg hk, if_neg hk]
      by_cases hfd : v.fd ≠ none
      · rw [if_pos hfd, if_pos (hopen.mpr hfd)]
        exact h.follows _
      · rw [if_neg hfd, if_neg (mt hopen.mp hfd)]
        exact ⟨_, rfl, discard_related h fun _ _ hxy => by rw [hxy.name]⟩

theorem Views.openFile (h : Views fs m) (name : List UInt8) (flags : UInt32) :
    Follows (fs.event (.call (.open name flags))) (m.openFile name flags) := by
  simp only [Fs.event, Fs.call, FileMap.openFile]
  rcases h.named name with ⟨hf, hm⟩ | ⟨f, v, hf, hm, hs⟩
  · rw [Fs.openFile_none flags hf, hm]
    exact h.follows _
  · rw [hm]
    dsimp only
    by_cases hfd : v.fd = none
    · rw [if_neg (not_not.mpr hfd), Fs.openFile_closed flags hf (hs.fd.trans (fdField_eq_badFd.mpr hfd)), hs.refuses]
      cases v.refuses flags with
      | some e => exact h.follows _
      | none =>
        dsimp only
        rw [← h.lowest]
        refine ⟨_, rfl, adjust_related h (fun _ _ hxy => by rw [hxy.name]) hf hm ?_⟩
        exact ⟨hs.name, hs.kind, hs.writable, hs.content, hs.pos, rfl⟩
    · rw [if_pos hfd, Fs.openFile_busy flags hf (hs.fd.trans_ne (mt fdField_eq_badFd.mp hfd))]
      exact h.follows _

theorem Views.close (h : Views fs m) (hfd : 0 ≤ fd) : Follows (fs.event (.call (.close fd))) (m.close fd) := by
  simp only [Fs.event, Fs.call, Fs.close, FileMap.close]
  rcases h.opened hfd with ⟨hf, hm⟩ | ⟨f, v, hf, hm, hs⟩
  · rw [hf, hm]
    exact h.follows _
  · rw [hf, hm]
    dsimp only
    rw [Fs.modifyFd_eq h.sound hf]
    refine ⟨_, rfl, h.change (lookup_mem hf) (lookup_mem hm) hs ?_⟩
    exact ⟨hs.name, hs.kind, hs.writable, hs.content, rfl, rfl⟩

theorem Views.read (h : Views fs m) (hfd : 0 ≤ fd) (n : ℕ) :
    Follows (fs.event (.call (.read fd n))) (m.read fd n) := by
  simp only [Fs.event, Fs.call, Fs.read, FileMap.read]
  rcases h.opened hfd with ⟨hf, hm⟩ | ⟨f, v, hf, hm, hs⟩
  · rw [hf, hm]
    exact h.follows _
  · have hnext : f.taken n = v.next n := by rw [MountedFile.taken, VirtualFile.next, hs.content, hs.pos]
    rw [hf, hm]
    dsimp only
    rw [hs.kind]
    cases v.kind with
    | empty => exact h.follows _
    | sysout => exact h.follows _
    | regular =>
      dsimp only
      rw [hnext, Fs.modifyFd_eq h.sound hf]
      refine ⟨_, rfl, h.change (lookup_mem hf) (lookup_mem hm) hs ?_⟩
      refine ⟨hs.name, hs.kind, hs.writable, hs.content, ?_, hs.fd⟩
      simp only [MountedFile.advance, VirtualFile.advance, VirtualFile.next, List.length_take, List.length_drop,
        hs.content, hs.pos]

theorem Views.write (h : Views fs m) (hfd : 0 ≤ fd) (buf : List UInt8)
    (hfit : ∀ v, m.opened fd = some v → v.pos + buf.length < 2 ^ 64) :
    Follows (fs.event (.call (.write fd buf))) (m.write fd buf) := by
  simp only [Fs.event, Fs.call, Fs.write, FileMap.write]
  rcases h.opened hfd with ⟨hf, hm⟩ | ⟨f, v, hf, hm, hs⟩
  · rw [hf, hm]
    exact h.follows _
  · have hlt := hfit v hm
    rw [hf, hm]
    dsimp only
    rw [hs.kind, hs.writable, hs.pos]
    cases v.kind with
    | empty => exact h.follows _
    | sysout => exact h.follows _
    | regular =>
      cases v.writable with
      | false => exact h.follows _
      | true =>
        simp only [Bool.not_true, Bool.false_eq_true, ↓reduceIte, not_le.mpr hlt]
        rw [Fs.modifyFd_eq h.sound hf]
        refine ⟨_, rfl, h.change (lookup_mem hf) (lookup_mem hm) hs ?_⟩
        refine ⟨hs.name, hs.kind, hs.writable, ?_, ?_, hs.fd⟩
        · simp only [MountedFile.overwrite, VirtualFile.overwrite, hs.content, hs.pos]
        · simp only [MountedFile.overwrite, VirtualFile.overwrite, hs.pos]

theorem Views.seek (h : Views fs m) (hfd : 0 ≤ fd) (offset whence : ℤ) :
    Follows (fs.event (.call (.seek fd offset whence))) (m.seek fd offset whence) := by
  simp only [Fs.event, Fs.call, Fs.seek, FileMap.seek]
  rcases h.opened hfd with ⟨hf, hm⟩ | ⟨f, v, hf, hm, hs⟩
  · rw [hf, hm]
    exact h.follows _
  · rw [hf, hm]
    dsimp only
    rw [hs.kind, hs.content, hs.pos]
    by_cases hk : v.kind = .regular
    · rw [if_neg (not_not.mpr hk), if_neg (not_not.mpr hk)]
      unfold VirtualFile.target
      generalize (if whence = 0 then some offset else if whence = 1 then some (↑v.pos + offset)
        else if whence = 2 then some (↑v.content.length + offset) else none) = target
      cases target with
      | none => exact h.follows _
      | some p =>
        dsimp only
        by_cases hp : 0 ≤ p ∧ p ≤ v.content.length
        · rw [if_pos hp, if_neg (by omega), Fs.modifyFd_eq h.sound hf]
          refine ⟨_, rfl, h.change (lookup_mem hf) (lookup_mem hm) hs ?_⟩
          refine ⟨hs.name, hs.kind, hs.writable, hs.content, ?_, hs.fd⟩
          simp only [MountedFile.sought, VirtualFile.seekTo, hs.content]
          omega
        · rw [if_neg hp, if_pos (by omega)]
          exact h.follows _
    · rw [if_pos hk, if_pos hk]
      exact h.follows _

theorem Views.stat (h : Views fs m) {f : Option MountedFile} {v : Option VirtualFile}
    (hfound : f = none ∧ v = none ∨ ∃ f' v', f = some f' ∧ v = some v' ∧ Shows f' v') :
    Follows (.ok (⟨(Fs.statFound f).1, (Fs.statFound f).2⟩, fs)) (FileMap.stat v, m) := by
  rcases hfound with ⟨rfl, rfl⟩ | ⟨f', v', rfl, rfl, hs⟩
  · exact h.follows _
  · simp only [Fs.statFound, FileMap.stat, Option.elim_some, hs.statFile]
    exact h.follows _

theorem Views.truncate (h : Views fs m) (hf : f ∈ fs.files) (hv : v ∈ m.files) (hs : Shows f v) (junk : ℕ → UInt8)
    {size : ℤ} (hle : size ≤ v.content.length) :
    Follows (.ok (⟨(fs.truncateName junk f.name size).1, []⟩, (fs.truncateName junk f.name size).2))
      (m.truncate (some v) size) := by
  simp only [Fs.truncateName, FileMap.truncate, Fs.byName_of_mem h.sound hf, hs.kind, hs.writable]
  by_cases hok : v.kind = .regular ∧ v.writable = true ∧ 0 ≤ size
  · have hbad : ¬ (v.kind ≠ .regular ∨ v.writable = false ∨ size < 0) := by
      rintro (hk | hw | hneg)
      · exact hk hok.1
      · rw [hok.2.1] at hw
        cases hw
      · omega
    rw [if_pos hok, if_neg hbad]
    refine ⟨_, rfl, h.change hf hv hs ?_⟩
    have hnone : size.toNat - v.content.length = 0 := by omega
    refine ⟨hs.name, hs.kind, hs.writable, ?_, ?_, hs.fd⟩
    · simp [MountedFile.resize, VirtualFile.shorten, hs.content, hnone]
    · simp only [MountedFile.resize, VirtualFile.shorten, hs.pos]
  · have hbad : v.kind ≠ .regular ∨ v.writable = false ∨ size < 0 := by
      by_contra hc
      push Not at hc
      exact hok ⟨hc.1, by simpa using hc.2.1, hc.2.2⟩
    rw [if_neg hok, if_pos hbad]
    exact h.follows _

theorem Views.event (h : Views fs m) {e : FsEvent} (ha : m.Allows e) : Follows (fs.event e) (m.event e) := by
  cases e with
  | mount name data writable => exact h.mount name data writable
  | unmount name => exact h.unmount name
  | call c =>
    cases c with
    | «open» name flags => exact h.openFile name flags
    | close fd => exact h.close ha
    | read fd n => exact h.read ha.1 n
    | write fd buf => exact h.write ha.1 buf ha.2
    | seek fd offset whence => exact h.seek ha offset whence
    | statName name => exact h.stat (h.named name)
    | statFd fd => exact h.stat (h.opened ha)
    | truncateName junk name size =>
      simp only [Fs.event, Fs.call, FileMap.event]
      rcases h.named name with ⟨hf, hm⟩ | ⟨f, v, hf, hm, hs⟩
      · simp only [Fs.truncateName, hf, hm]
        exact h.follows _
      · have hle : size ≤ v.content.length := ha v hm
        rw [hm, ← show f.name = name from lookup_key hf]
        exact h.truncate (lookup_mem hf) (lookup_mem hm) hs junk hle
    | truncateFd junk fd size =>
      simp only [Fs.event, Fs.call, Fs.truncateFd, FileMap.event]
      rcases h.opened ha.1 with ⟨hf, hm⟩ | ⟨f, v, hf, hm, hs⟩
      · rw [hf, hm]
        exact h.follows _
      · rw [hf, hm]
        exact h.truncate (lookup_mem hf) (lookup_mem hm) hs junk (ha.2 v hm)

theorem Views.sized (h : Views fs m) {e : FsEvent} (ha : m.Allows e) : e.Sized fs := by
  cases e with
  | mount name data writable => exact ha
  | unmount name => trivial
  | call c =>
    cases c with
    | read fd n => exact ha.2
    | write fd buf =>
      intro f hf
      rcases h.opened ha.1 with ⟨hnone, -⟩ | ⟨f', v, hf', hm, hs⟩
      · rw [hnone] at hf
        cases hf
      · rw [hf'] at hf
        cases hf
        rw [hs.pos]
        exact ha.2 v hm
    | truncateName junk name size =>
      intro f hf
      rcases h.named name with ⟨hnone, -⟩ | ⟨f', v, hf', hm, hs⟩
      · rw [hnone] at hf
        cases hf
      · rw [hf'] at hf
        cases hf
        rw [hs.content]
        exact ha v hm
    | truncateFd junk fd size =>
      intro f hf
      rcases h.opened ha.1 with ⟨hnone, -⟩ | ⟨f', v, hf', hm, hs⟩
      · rw [hnone] at hf
        cases hf
      · rw [hf'] at hf
        cases hf
        rw [hs.content]
        exact ha.2 v hm
    | _ => trivial

end Events

structure Depicts (r : RawFile) (v : VirtualFile) : Prop where
  name : r.name = v.name
  kind : r.kind = v.kind
  writable : r.writable = v.writable
  fd : r.fd = fdField v.fd
  pos : r.pos.toNat = v.pos
  len : r.len.toNat = v.content.length
  bounds : r.pos ≤ r.len ∧ r.len ≤ r.cap
  content : v.kind = .regular → r.cap.toNat ≤ r.data.length ∧ r.data.take r.len.toNat = v.content

def Represents (raw : RawFs) (m : FileMap) : Prop := List.Forall₂ Depicts raw.files m.files

theorem Stores.depicts {r : RawFile} {f : MountedFile} {v : VirtualFile} (hr : Stores r f) (hf : Shows f v) :
    Depicts r v := by
  have hlen : r.len.toNat = v.content.length := hr.len.trans (congrArg List.length hf.content)
  refine ⟨hr.name.trans hf.name, hr.kind.trans hf.kind, hr.writable.trans hf.writable, hr.fd.trans hf.fd,
    hr.pos.trans hf.pos, hlen, ⟨?_, ?_⟩, ?_⟩
  · rw [UInt64.le_iff_toNat_le, hr.pos, hr.len]
    exact f.inBounds
  · rw [hr.cap]
    exact UInt64.le_refl _
  · intro hk
    have hback := hr.block (hf.kind.trans hk)
    rw [hr.cap, hr.len]
    refine ⟨hback.length_le, ?_⟩
    obtain ⟨rest, hrest⟩ := hback
    rw [hrest, List.take_left', hf.content]
    rfl

theorem Holds.represents {raw : RawFs} {fs : Fs} {m : FileMap} (hr : Holds raw fs) (hf : Views fs m) :
    Represents raw m := by
  unfold Holds at hr
  unfold Views at hf
  unfold Represents
  generalize raw.files = rs at hr ⊢
  generalize fs.files = ms at hr hf
  generalize m.files = vs at hf ⊢
  induction hr generalizing vs with
  | nil =>
    cases hf
    exact .nil
  | cons h _ ih =>
    cases hf with
    | cons h' hrest => exact .cons (h.depicts h') (ih _ hrest)

section Runs

variable {raw : RawFs} {fs : Fs} {m : FileMap}

def FileMap.Overfull (m : FileMap) : Prop := ∃ v ∈ m.files, 2 ^ 63 ≤ v.content.length

theorem refines_event (junk : ℕ → UInt8) (hr : Holds raw fs) (hf : Views fs m) {e : FsEvent} (ha : m.Allows e) :
    (∃ reply raw' fs', raw.event junk e = .ok (reply, raw') ∧ reply.seen = (m.event e).1.seen ∧ Holds raw' fs' ∧
        Views fs' (m.event e).2 ∧ (reply.code < 0 → raw' = raw)) ∨
      raw.event junk e = .error .nullDeref ∧ (m.event e).2.Overfull := by
  obtain ⟨fs', hspec, hviews⟩ := hf.event ha
  rcases hr.event hf.sound e (hf.sized ha) with ⟨c, r, raw', fs₁, hout, hspec', hseen, hholds, hfail⟩ |
    ⟨hout, r, fs₁, hspec', f, hmem, hbig⟩
  · rw [hspec] at hspec'
    cases hspec'
    exact .inl ⟨c, raw', fs', hout, hseen, hholds, hviews, hfail⟩
  · rw [hspec] at hspec'
    cases hspec'
    obtain ⟨v, hv, hs⟩ := mem_related hviews hmem
    exact .inr ⟨hout, v, hv, hs.content ▸ hbig⟩

theorem refines_run (junk : ℕ → UInt8) (hr : Holds raw fs) (hf : Views fs m) {es : List FsEvent} (ha : m.AllowsAll es) :
    (∃ replies raw' fs', raw.run junk es = .ok (replies, raw') ∧
        replies.map FsReply.seen = (m.run es).1.map FsReply.seen ∧ Holds raw' fs' ∧ Views fs' (m.run es).2) ∨
      raw.run junk es = .error .nullDeref ∧ ∃ k ≤ es.length, (m.run (es.take k)).2.Overfull := by
  induction es generalizing raw fs m with
  | nil => exact .inl ⟨[], raw, fs, rfl, rfl, hr, hf⟩
  | cons e es ih =>
    rcases refines_event junk hr hf ha.1 with ⟨reply, raw₁, fs₁, hout, hseen, hr₁, hf₁, -⟩ | ⟨hout, hbig⟩
    · rcases ih hr₁ hf₁ ha.2 with ⟨replies, raw₂, fs₂, hrun, hsame, hr₂, hf₂⟩ | ⟨hrun, k, hk, hbig⟩
      · refine .inl ⟨reply :: replies, raw₂, fs₂, ?_, ?_, hr₂, hf₂⟩
        · simp only [RawFs.run, hout, ok_bind, hrun]
          rfl
        · simp only [FileMap.run, List.map_cons, hseen, hsame]
      · refine .inr ⟨?_, k + 1, Nat.succ_le_succ hk, hbig⟩
        simp only [RawFs.run, hout, ok_bind, hrun]
        rfl
    · refine .inr ⟨?_, 1, Nat.succ_le_succ (Nat.zero_le _), hbig⟩
      simp only [RawFs.run, hout]
      rfl

theorem holds_new : Holds RawFs.new Fs.new := by
  have hdevice : ∀ (name : String) (fd : ℤ) (kind : FileKind), kind ≠ .regular →
      Stores (RawFs.device name fd kind) (Fs.device name fd kind) := by
    intro name fd kind hk
    exact ⟨rfl, rfl, rfl, rfl, rfl, rfl, rfl, fun h => absurd h hk, Nat.two_pow_pos 63⟩
  exact .cons (hdevice _ _ _ (by decide)) (.cons (hdevice _ _ _ (by decide)) (.cons (hdevice _ _ _ (by decide)) .nil))

theorem views_new : Views Fs.new FileMap.new := by
  have hdevice : ∀ (name : String) (fd : ℕ) (kind : FileKind),
      Shows (Fs.device name fd kind) (FileMap.device name fd kind) := by
    intro name fd kind
    exact ⟨rfl, rfl, rfl, rfl, rfl, rfl⟩
  exact .cons (hdevice _ 0 _) (.cons (hdevice _ 1 _) (.cons (hdevice _ 2 _) .nil))

theorem Holds.distinct (hr : Holds raw fs) (hs : fs.Sound) :
    ∀ f ∈ raw.files, ∀ g ∈ raw.files, f.fd = g.fd → f.fd ≠ badFd → f = g := by
  intro f hf g hg heq hopen
  have hnames : (raw.files.map RawFile.name).Nodup := by
    rw [map_related hr fun _ _ h => h.name]
    exact hs.names
  obtain ⟨f', hf', hff⟩ := mem_related hr hf
  obtain ⟨g', hg', hgg⟩ := mem_related hr hg
  have hsame : f' = g' := hs.fds f' hf' g' hg' (hff.fd.symm.trans (heq.trans hgg.fd)) (hff.fd ▸ hopen)
  apply List.inj_on_of_nodup_map hnames hf hg
  rw [hff.name, hgg.name, hsame]

theorem vfs_refines_file_map (junk : ℕ → UInt8) {events : List FsEvent} (h : FileMap.new.AllowsAll events) :
    (∃ replies raw, RawFs.new.run junk events = .ok (replies, raw) ∧
      replies.map FsReply.seen = (FileMap.new.run events).1.map FsReply.seen ∧
      Represents raw (FileMap.new.run events).2 ∧
      (∀ f ∈ raw.files, ∀ g ∈ raw.files, f.fd = g.fd → f.fd ≠ badFd → f = g) ∧
      ∀ e reply raw', (FileMap.new.run events).2.Allows e → raw.event junk e = .ok (reply, raw') →
        (reply.code < 0 → raw' = raw) ∧ raw.Frames raw' (raw.target e)) ∨
    RawFs.new.run junk events = .error .nullDeref ∧
      ∃ k ≤ events.length, (FileMap.new.run (events.take k)).2.Overfull := by
  rcases refines_run junk holds_new views_new h with ⟨replies, raw, fs, hrun, hsame, hr, hf⟩ | hdead
  · refine .inl ⟨replies, raw, hrun, hsame, hr.represents hf, hr.distinct hf.sound, ?_⟩
    intro e reply raw' ha he
    refine ⟨?_, event_frames he⟩
    rcases refines_event junk hr hf ha with ⟨reply', raw₁, _, hout, -, -, -, hfail⟩ | ⟨hout, -⟩
    · rw [he] at hout
      cases hout
      exact hfail
    · rw [he] at hout
      cases hout
  · exact .inr hdead

def shortEvents : List FsEvent :=
  [.mount (ascii "f") [7, 8] false, .call (.open (ascii "f") 2), .call (.statName (ascii "f")),
    .call (.open (ascii "f") 0), .call (.read 3 5), .call (.close 3), .unmount (ascii "f")]

theorem vfs_refines_file_map_short : ∃ (replies : List FsReply) (raw : RawFs) (stat : List UInt8),
    RawFs.new.run (fun _ => 0) shortEvents = .ok (replies, raw) ∧
      replies = [⟨0, []⟩, ⟨-13, []⟩, ⟨0, stat⟩, ⟨3, []⟩, ⟨2, [7, 8]⟩, ⟨0, []⟩, ⟨0, [7, 8]⟩] ∧
      stat.length = 144 ∧ (stat.drop 24).take 4 = [0x24, 0x81, 0, 0] ∧ (stat.drop 48).take 8 = [2, 0, 0, 0, 0, 0, 0, 0] ∧
      replies.map FsReply.seen = (FileMap.new.run shortEvents).1.map FsReply.seen ∧
      Represents raw (FileMap.new.run shortEvents).2 := by
  have hrun : RawFs.new.run (fun _ => 0) shortEvents = .ok ([⟨0, []⟩, ⟨-13, []⟩,
      ⟨0, (MountedFile.fillStat true false true 2)⟩, ⟨3, []⟩, ⟨2, [7, 8]⟩, ⟨0, []⟩, ⟨0, [7, 8]⟩], RawFs.new) := by
    decide +kernel
  have hall : FileMap.new.AllowsAll shortEvents :=
    ⟨(by decide : 2 < 2 ^ 64), trivial, trivial, trivial, ⟨by decide, by decide⟩, (by decide : (0 : ℤ) ≤ 3),
      trivial, trivial⟩
  rcases vfs_refines_file_map (fun _ => 0) hall with ⟨replies, raw, hrun', hsame, hrep, -⟩ | ⟨hdead, -⟩
  · rw [hrun] at hrun'
    cases hrun'
    exact ⟨_, _, _, hrun, rfl, by decide +kernel, by decide +kernel, by decide +kernel, hsame, hrep⟩
  · rw [hrun] at hdead
    cases hdead

end Runs

end MiniBox
