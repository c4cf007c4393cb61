import MiniBox.KernelSteps
import MiniBox.FileRuns

namespace MiniBox

open LinearTables Outcomes Relation

namespace MountedFile

inductive Touch (f : MountedFile) : MountedFile → Prop
  | same : Touch f f
  | opened (d : ℤ) : Touch f (f.withFd d)
  | closed : Touch f f.closed
  | advanced (n : ℕ) : f.kind = .regular → Touch f (f.advance n)
  | sought (p : ℤ) : f.kind = .regular → Touch f (f.sought p)
  | overwritten (buf : List UInt8) : f.kind = .regular → f.writable = true → Touch f (f.overwrite buf)
  | resized (junk : ℕ → UInt8) (size : ℕ) : f.kind = .regular → f.writable = true → Touch f (f.resize junk size)

def content (f : MountedFile) : List UInt8 × FileKind × List UInt8 × Bool := (f.name, f.kind, f.data, f.writable)

def handle (f : MountedFile) : List UInt8 × ℤ × ℕ := (f.name, f.fd, f.pos)

variable {f g : MountedFile}

theorem Touch.content (h : f.Touch g) (hf : f.writable = false) : g.content = f.content := by
  cases h with
  | same => rfl
  | opened d => rfl
  | closed => rfl
  | advanced n _ => rfl
  | sought p _ => rfl
  | overwritten buf _ hw =>
    rw [hf] at hw
    cases hw
  | resized junk size _ hw =>
    rw [hf] at hw
    cases hw

theorem Touch.start (h : f.Touch g) (hf : f.kind ≠ .regular → f.pos = 0) : g.kind ≠ .regular → g.pos = 0 := by
  cases h with
  | same => exact hf
  | opened d => exact hf
  | closed => exact fun _ => rfl
  | advanced n hk => exact fun hne => absurd hk hne
  | sought p hk => exact fun hne => absurd hk hne
  | overwritten buf hk _ => exact fun hne => absurd hk hne
  | resized junk size hk _ => exact fun hne => absurd hk hne

theorem eq_of_handle (hc : g.content = f.content) (hh : g.handle = f.handle) : g = f := by
  cases f
  cases g
  cases hc
  cases hh
  rfl

end MountedFile

namespace Fs

open MountedFile

variable {fs fs' : Fs} {f g : MountedFile} {c : FsCall} {r : FsReply}

def contents (fs : Fs) : List (List UInt8 × FileKind × List UInt8 × Bool) := fs.files.map content

def handles (fs : Fs) : List (List UInt8 × ℤ × ℕ) := fs.files.map handle

def ReadOnly (fs : Fs) : Prop := ∀ f ∈ fs.files, f.writable = false

def Level (fs : Fs) : Prop := ∀ f ∈ fs.files, f.kind ≠ .regular → f.pos = 0

section Touches

def Touched (fs fs' : Fs) : Prop := List.Forall₂ Touch fs.files fs'.files

theorem Touched.refl (fs : Fs) : fs.Touched fs := List.forall₂_same.mpr fun _ _ => .same

theorem touched_fd {d : ℤ} {g : MountedFile → MountedFile} (hf : fs.byFd d = some f) (ht : f.Touch (g f)) :
    fs.Touched (fs.modifyFd d g) := adjust_related_self (fun _ => .same) hf ht

theorem touched_name {name : List UInt8} {g : MountedFile → MountedFile} (hf : fs.byName name = some f)
    (ht : f.Touch (g f)) : fs.Touched (fs.modifyName name g) := adjust_related_self (fun _ => .same) hf ht

theorem touched_openFile (fs : Fs) (name : List UInt8) (flags : UInt32) : fs.Touched (fs.openFile name flags).2 := by
  cases hf : fs.byName name with
  | none =>
    rw [openFile_none flags hf]
    exact .refl fs
  | some f =>
    by_cases hfd : f.fd = badFd
    · rw [openFile_closed flags hf hfd]
      cases refusal f (accessMode flags) with
      | none => exact touched_name hf (.opened fs.freeFd)
      | some e => exact .refl fs
    · rw [openFile_busy flags hf hfd]
      exact .refl fs

theorem touched_close (fs : Fs) (d : ℤ) : fs.Touched (fs.close d).2 := by
  unfold close
  cases hf : fs.byFd d with
  | none => exact .refl fs
  | some f => exact touched_fd hf .closed

theorem touched_read (fs : Fs) (d : ℤ) (n : ℕ) : fs.Touched (fs.read d n).2.2 := by
  unfold read
  cases hf : fs.byFd d with
  | none => exact .refl fs
  | some f =>
    dsimp only
    cases hk : f.kind with
    | empty => exact .refl fs
    | sysout => exact .refl fs
    | regular => exact touched_fd hf (.advanced n hk)

theorem touched_write {d : ℤ} {buf : List UInt8} {rc : ℤ} (h : fs.write d buf = .ok (rc, fs')) : fs.Touched fs' := by
  unfold write at h
  cases hf : fs.byFd d with
  | none =>
    rw [hf] at h
    cases h
    exact .refl fs
  | some f =>
    rw [hf] at h
    dsimp only at h
    cases hk : f.kind with
    | empty =>
      rw [hk] at h
      cases h
      exact .refl fs
    | sysout =>
      rw [hk] at h
      cases h
      exact .refl fs
    | regular =>
      rw [hk] at h
      dsimp only at h
      split_ifs at h with hw
      · cases h
        exact .refl fs
      · cases h
        exact touched_fd hf (.overwritten buf hk (by simpa using hw))

theorem touched_seek (fs : Fs) (d offset whence : ℤ) : fs.Touched (fs.seek d offset whence).2 := by
  unfold seek
  cases hf : fs.byFd d with
  | none => exact .refl fs
  | some f =>
    dsimp only
    by_cases hk : f.kind = .regular
    · rw [if_neg (not_not.mpr hk)]
      generalize (if whence = 0 then some offset else if whence = 1 then some (↑f.pos + offset)
        else if whence = 2 then some (↑f.data.length + offset) else none) = target
      cases target with
      | none => exact .refl fs
      | some p =>
        dsimp only
        split_ifs
        · exact .refl fs
        · exact touched_fd hf (.sought p hk)
    · rw [if_pos hk]
      exact .refl fs

theorem touched_truncateName (fs : Fs) (junk : ℕ → UInt8) (name : List UInt8) (size : ℤ) :
    fs.Touched (fs.truncateName junk name size).2 := by
  unfold truncateName
  cases hf : fs.byName name with
  | none => exact .refl fs
  | some f =>
    dsimp only
    split_ifs with hc
    · exact .refl fs
    · push Not at hc
      exact touched_name hf (.resized junk _ hc.1 (by simpa using hc.2.1))

theorem touched_truncateFd (fs : Fs) (junk : ℕ → UInt8) (d size : ℤ) :
    fs.Touched (fs.truncateFd junk d size).2 := by
  unfold truncateFd
  cases fs.byFd d with
  | none => exact .refl fs
  | some f => exact touched_truncateName fs junk f.name size

theorem Step.touched (h : fs.Step fs') : fs.Touched fs' := by
  obtain ⟨c, r, hc⟩ := h
  cases c with
  | «open» name flags =>
    cases hc
    exact touched_openFile fs name flags
  | close d =>
    cases hc
    exact touched_close fs d
  | read d n =>
    cases hc
    exact touched_read fs d n
  | write d buf =>
    obtain ⟨⟨rc, fs₁⟩, hw, hc⟩ := bind_ok hc
    cases hc
    exact touched_write hw
  | seek d offset whence =>
    cases hc
    exact touched_seek fs d offset whence
  | statName name =>
    cases hc
    exact .refl fs
  | statFd d =>
    cases hc
    exact .refl fs
  | truncateName junk name size =>
    cases hc
    exact touched_truncateName fs junk name size
  | truncateFd junk d size =>
    cases hc
    exact touched_truncateFd fs junk d size

theorem Level.step (hl : fs.Level) (h : fs.Step fs') : fs'.Level := by
  intro g hg
  have hback : List.Forall₂ (fun g f => f.Touch g) fs'.files fs.files := List.Forall₂.flip h.touched
  obtain ⟨f, hf, ht⟩ := mem_related hback hg
  exact ht.start (hl f hf)

theorem ReadOnly.contents_step (hr : fs.ReadOnly) (h : fs.Step fs') : fs'.contents = fs.contents := by
  have hboth := (List.forall₂_and_left _ _).mpr ⟨hr, h.touched⟩
  exact (map_related hboth fun f g hfg => (hfg.2.content hfg.1).symm).symm

theorem ReadOnly.of_contents (hr : fs.ReadOnly) (h : fs'.contents = fs.contents) : fs'.ReadOnly := by
  intro g hg
  have hmem : g.content ∈ fs.contents := h ▸ List.mem_map_of_mem hg
  obtain ⟨f, hf, hfg⟩ := List.mem_map.mp hmem
  rw [← hr f hf]
  exact congrArg (fun c => c.2.2.2) hfg.symm

end Touches

theorem eq_of_handles (hc : fs'.contents = fs.contents) (hh : fs'.handles = fs.handles) : fs' = fs := by
  obtain ⟨l⟩ := fs
  obtain ⟨l'⟩ := fs'
  unfold contents at hc
  unfold handles at hh
  congr 1
  induction l generalizing l' with
  | nil => exact List.map_eq_nil_iff.mp hc
  | cons f l ih =>
    cases l' with
    | nil => cases hc
    | cons g l' =>
      obtain ⟨hgc, hc⟩ := List.cons.inj hc
      obtain ⟨hgh, hh⟩ := List.cons.inj hh
      rw [eq_of_handle hgc hgh, ih l' hc hh]

section Replies

def replies (fs : Fs) : List FsCall → Except Crash (List FsReply)
  | [] => .ok []
  | c :: calls => do
    let (r, fs) ← fs.call c
    let rs ← fs.replies calls
    return r :: rs

def Agree (fs fs' : Fs) : Prop := ∀ calls, fs'.replies calls = fs.replies calls

theorem Agree.symm (h : fs.Agree fs') : fs'.Agree fs := fun calls => (h calls).symm

theorem replies_cons {calls : List FsCall} (h : fs.call c = .ok (r, fs')) :
    fs.replies (c :: calls) = (fs'.replies calls).map (r :: ·) := by
  rw [replies, h, ok_bind]
  change (fs'.replies calls >>= fun rs => pure (r :: rs)) = _
  cases fs'.replies calls with
  | error e => rfl
  | ok rs => rfl

theorem Agree.call {fs₁ : Fs} (h : fs.Agree fs') (hc : fs.call c = .ok (r, fs₁)) :
    ∃ fs₁', fs'.call c = .ok (r, fs₁') ∧ fs₁.Agree fs₁' := by
  cases hc' : fs'.call c with
  | error e =>
    have hdead : fs'.replies [c] = .error e := by
      rw [replies, hc']
      rfl
    have hone := h [c]
    rw [hdead, replies_cons hc] at hone
    cases hone
  | ok p =>
    obtain ⟨r', fs₁'⟩ := p
    have hmap : ∀ calls, (fs₁'.replies calls).map (r' :: ·) = (fs₁.replies calls).map (r :: ·) := by
      intro calls
      rw [← replies_cons hc, ← replies_cons hc', h]
    obtain rfl : r' = r := (List.cons.inj (Except.ok.inj (hmap []))).1
    refine ⟨fs₁', rfl, ?_⟩
    intro calls
    have hcalls := hmap calls
    cases hx : fs₁'.replies calls with
    | error e =>
      rw [hx] at hcalls
      cases hy : fs₁.replies calls with
      | error e' =>
        rw [hy] at hcalls
        exact congrArg _ (Except.error.inj hcalls)
      | ok rs =>
        rw [hy] at hcalls
        cases hcalls
    | ok rs' =>
      rw [hx] at hcalls
      cases hy : fs₁.replies calls with
      | error e' =>
        rw [hy] at hcalls
        cases hcalls
      | ok rs =>
        rw [hy] at hcalls
        rw [(List.cons.inj (Except.ok.inj hcalls)).2]

end Replies

section Probes

def ownFlags (f : MountedFile) : UInt32 := if f.kind = .sysout then 1 else 0

theorem refusal_ownFlags (f : MountedFile) : refusal f (accessMode (ownFlags f)) = none := by
  unfold ownFlags
  by_cases hk : f.kind = .sysout
  · rw [if_pos hk, show accessMode 1 = .wronly from rfl, refusal, canWrite]
    simp [hk]
  · rw [if_neg hk, show accessMode 0 = .rdonly from rfl, refusal, canRead]
    simp [hk]

theorem ownFlags_congr (hc : g.content = f.content) : ownFlags g = ownFlags f := by
  have hkind : g.kind = f.kind := congrArg (fun c => c.2.1) hc
  unfold ownFlags
  rw [hkind]

theorem openFile_own (h : fs.Sound) (hf : f ∈ fs.files) (hfd : f.fd = badFd) :
    fs.openFile f.name (ownFlags f) = (fs.freeFd, fs.modifyName f.name (.withFd fs.freeFd)) := by
  rw [openFile_closed _ (byName_of_mem h hf) hfd, refusal_ownFlags]

theorem call_open (fs : Fs) (name : List UInt8) (flags : UInt32) :
    fs.call (.open name flags) = .ok (⟨(fs.openFile name flags).1, []⟩, (fs.openFile name flags).2) := rfl

theorem Agree.closed (h : fs.Agree fs') (hs : fs.Sound) (hs' : fs'.Sound) (hf : f ∈ fs.files) (hg : g ∈ fs'.files)
    (hc : g.content = f.content) (hfd : f.fd = badFd) : g.fd = badFd := by
  by_contra hopen
  have hname : g.name = f.name := congrArg Prod.fst hc
  obtain ⟨fs₁', hcall, -⟩ := h.call (fs.call_open f.name (ownFlags f))
  rw [call_open, ← hname, openFile_busy _ (byName_of_mem hs' hg) hopen, hname, openFile_own hs hf hfd] at hcall
  have hcode : -eacces = fs.freeFd := congrArg FsReply.code (Prod.mk.inj (Except.ok.inj hcall)).1
  have hpos := fs.freeFd_least.1
  rw [← hcode] at hpos
  exact absurd hpos (by decide)

theorem byFd_of_mem (h : fs.Sound) (hf : f ∈ fs.files) (hopen : f.fd ≠ badFd) : fs.byFd f.fd = some f := by
  cases hx : fs.byFd f.fd with
  | none => exact absurd rfl (byFd_eq_none.mp hx f hf)
  | some x =>
    have hfd : x.fd = f.fd := lookup_key hx
    rw [h.fds x (lookup_mem hx) f hf hfd (hfd ▸ hopen)]

theorem close_open (h : fs.Sound) (hf : f ∈ fs.files) (hopen : f.fd ≠ badFd) :
    fs.call (.close f.fd) = .ok (⟨0, []⟩, fs.modifyName f.name .closed) := by
  have hx := byFd_of_mem h hf hopen
  rw [call, close, hx, modifyFd_eq h hx]

theorem Sound.call (h : fs.Sound) (hc : fs.call c = .ok (r, fs')) : fs'.Sound :=
  (event_edit h (show fs.event (.call c) = .ok (r, fs') from hc)).sound h

theorem Agree.fd (h : fs.Agree fs') (hs : fs.Sound) (hs' : fs'.Sound) (hf : f ∈ fs.files) (hg : g ∈ fs'.files)
    (hc : g.content = f.content) : g.fd = f.fd := by
  by_cases hclosed : f.fd = badFd
  · rw [h.closed hs hs' hf hg hc hclosed, hclosed]
  have hopen : g.fd ≠ badFd := fun hbad => hclosed (h.symm.closed hs' hs hg hf hc.symm hbad)
  by_contra hne
  have hclose := close_open hs hf hclosed
  obtain ⟨fs₁', hclose', hafter⟩ := h.call hclose
  have hstill : g ∈ fs₁'.files := by
    rcases close_cases hs' f.fd with ⟨-, hcl⟩ | ⟨x, hx, hxfd, hcl⟩
    · rw [Fs.call, hcl] at hclose'
      cases hclose'
    · rw [Fs.call, hcl] at hclose'
      cases hclose'
      have hgx : g.fd ≠ x.fd := by
        rw [hxfd]
        exact hne
      exact (mem_modifyName hs' hx _ g).mpr (.inr ⟨hg, hs'.name_ne hg hx hgx⟩)
  have hshut : f.closed ∈ (fs.modifyName f.name .closed).files := (mem_modifyName hs hf _ _).mpr (.inl rfl)
  exact hopen (hafter.closed (hs.call hclose) (hs'.call hclose') hshut hstill hc rfl)

theorem seek_here (h : fs.Sound) (hf : f ∈ fs.files) (hk : f.kind = .regular) (hopen : f.fd ≠ badFd) :
    (fs.seek f.fd 0 1).1 = f.pos := by
  have hle : ¬ ((f.pos : ℤ) < 0 ∨ (f.data.length : ℤ) < f.pos) := by
    have := f.inBounds
    omega
  simp only [seek, byFd_of_mem h hf hopen, hk, ne_eq, not_true_eq_false, ↓reduceIte, one_ne_zero, add_zero, hle]

theorem Agree.pos_open (h : fs.Agree fs') (hs : fs.Sound) (hs' : fs'.Sound) (hf : f ∈ fs.files) (hg : g ∈ fs'.files)
    (hc : g.content = f.content) (hk : f.kind = .regular) (hopen : f.fd ≠ badFd) : g.pos = f.pos := by
  have hfd := h.fd hs hs' hf hg hc
  have hkg : g.kind = .regular := (congrArg (fun c => c.2.1) hc).trans hk
  obtain ⟨fs₁', hcall, -⟩ := h.call (show fs.call (.seek f.fd 0 1) = .ok (⟨(fs.seek f.fd 0 1).1, []⟩, _) from rfl)
  have hcode : (fs'.seek f.fd 0 1).1 = (fs.seek f.fd 0 1).1 := congrArg FsReply.code (Prod.mk.inj (Except.ok.inj hcall)).1
  rw [seek_here hs hf hk hopen, ← hfd, seek_here hs' hg hkg (hfd ▸ hopen)] at hcode
  exact_mod_cast hcode

theorem Agree.pos (h : fs.Agree fs') (hs : fs.Sound) (hs' : fs'.Sound) (hf : f ∈ fs.files) (hg : g ∈ fs'.files)
    (hc : g.content = f.content) (hk : f.kind = .regular) : g.pos = f.pos := by
  by_cases hclosed : f.fd = badFd
  · have hname : g.name = f.name := congrArg Prod.fst hc
    have hopen := fs.call_open f.name (ownFlags f)
    obtain ⟨fs₁', hopen', hafter⟩ := h.call hopen
    have hsound := hs.call hopen
    have hsound' := hs'.call hopen'
    rw [openFile_own hs hf hclosed] at hafter hsound hopen'
    have hshut := h.closed hs hs' hf hg hc hclosed
    rw [call_open, ← hname, ← ownFlags_congr hc, openFile_own hs' hg hshut] at hopen'
    obtain ⟨-, rfl⟩ := Prod.mk.inj (Except.ok.inj hopen')
    have hfmem : f.withFd fs.freeFd ∈ (fs.modifyName f.name (.withFd fs.freeFd)).files :=
      (mem_modifyName hs hf _ _).mpr (.inl rfl)
    have hgmem : g.withFd fs'.freeFd ∈ (fs'.modifyName g.name (.withFd fs'.freeFd)).files :=
      (mem_modifyName hs' hg _ _).mpr (.inl rfl)
    have hne : fs.freeFd ≠ badFd := by
      have := fs.freeFd_least.1
      unfold badFd
      omega
    have hpos : (g.withFd fs'.freeFd).pos = (f.withFd fs.freeFd).pos :=
      hafter.pos_open hsound hsound' hfmem hgmem hc hk hne
    exact hpos
  · exact h.pos_open hs hs' hf hg hc hk hclosed

theorem Agree.handles (h : fs.Agree fs') (hs : fs.Sound) (hs' : fs'.Sound) (hl : fs.Level) (hl' : fs'.Level)
    (hc : fs'.contents = fs.contents) : fs'.handles = fs.handles := by
  have hlen : fs'.files.length = fs.files.length := by simpa [contents] using congrArg List.length hc
  unfold Fs.handles
  apply List.ext_getElem
  · simpa using hlen
  intro i hi hi'
  rw [List.getElem_map, List.getElem_map]
  rw [List.length_map] at hi hi'
  have hcontent : fs'.files[i].content = fs.files[i].content := by
    have hget := List.getElem_of_eq hc (show i < fs'.contents.length by simpa [contents] using hi)
    unfold contents at hget
    rwa [List.getElem_map, List.getElem_map] at hget
  have hf := List.getElem_mem hi'
  have hg := List.getElem_mem hi
  have hname : fs'.files[i].name = fs.files[i].name := congrArg Prod.fst hcontent
  have hkind : fs'.files[i].kind = fs.files[i].kind := congrArg (fun c => c.2.1) hcontent
  have hpos : fs'.files[i].pos = fs.files[i].pos := by
    by_cases hk : fs.files[i].kind = .regular
    · exact h.pos hs hs' hf hg hcontent hk
    · rw [hl _ hf hk, hl' _ hg (hkind ▸ hk)]
  unfold handle
  rw [hname, h.fd hs hs' hf hg hcontent, hpos]

end Probes

end Fs

end MiniBox
