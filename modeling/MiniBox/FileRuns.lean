import MiniBox.FileSystem

namespace MiniBox

open ByteStream LinearTables Outcomes

inductive FsEvent
  | mount (name data : List UInt8) (writable : Bool)
  | unmount (name : List UInt8)
  | call (c : FsCall)

namespace Fs

def event (fs : Fs) : FsEvent → Except Crash (FsReply × Fs)
  | .mount name data writable => .ok (⟨(fs.mount name data writable).1, []⟩, (fs.mount name data writable).2)
  | .unmount name => .ok (⟨(fs.unmount name).1, (fs.unmount name).2.1⟩, (fs.unmount name).2.2)
  | .call c => fs.call c

structure Sound (fs : Fs) : Prop where
  names : (fs.files.map MountedFile.name).Nodup
  fds : ∀ f ∈ fs.files, ∀ g ∈ fs.files, f.fd = g.fd → f.fd ≠ badFd → f = g
  nonneg : ∀ f ∈ fs.files, f.fd ≠ badFd → 0 ≤ f.fd

variable {fs fs' : Fs} {f : MountedFile} {fd : ℤ}

theorem sound_new : new.Sound := by
  refine ⟨by decide, by decide, by decide⟩

theorem byName_of_mem (h : fs.Sound) (hf : f ∈ fs.files) : fs.byName f.name = some f := lookup_of_mem h.names hf

theorem byFd_eq_none : fs.byFd fd = none ↔ ∀ f ∈ fs.files, f.fd ≠ fd := by
  rw [byFd, lookup_eq_none]
  simp only [List.mem_map, not_exists, not_and, ne_eq]

theorem modifyFd_eq (h : fs.Sound) (hf : fs.byFd fd = some f) (g : MountedFile → MountedFile) :
    fs.modifyFd fd g = fs.modifyName f.name g := congrArg Fs.mk (adjust_other h.names hf)

theorem mem_modifyName (h : fs.Sound) (hf : f ∈ fs.files) (g : MountedFile → MountedFile) (x : MountedFile) :
    x ∈ (fs.modifyName f.name g).files ↔ x = g f ∨ x ∈ fs.files ∧ x.name ≠ f.name :=
  mem_adjust_iff h.names hf rfl

section FreeDescriptor

theorem freeFdLoop_spec (n : ℕ) (d : ℤ) (hd : ∀ e, 0 ≤ e → e < d → (fs.byFd e).isSome) :
    d ≤ fs.freeFdLoop n d ∧ (∀ e, 0 ≤ e → e < fs.freeFdLoop n d → (fs.byFd e).isSome) ∧
      (fs.byFd (fs.freeFdLoop n d) = none ∨ fs.freeFdLoop n d = d + n) := by
  induction n generalizing d with
  | zero => exact ⟨le_refl d, hd, .inr (by simp [freeFdLoop])⟩
  | succ n ih =>
    unfold freeFdLoop
    by_cases hs : (fs.byFd d).isSome = true
    · have hd' : ∀ e, 0 ≤ e → e < d + 1 → (fs.byFd e).isSome := by
        intro e h0 he
        by_cases hed : e = d
        · rw [hed]
          exact hs
        · exact hd e h0 (by omega)
      obtain ⟨h1, h2, h3⟩ := ih (d + 1) hd'
      rw [if_pos hs]
      refine ⟨by omega, h2, h3.imp_right ?_⟩
      intro he
      rw [he]
      push_cast
      omega
    · rw [if_neg hs]
      refine ⟨le_refl d, hd, .inl ?_⟩
      simpa using hs

theorem exists_free (fs : Fs) : ∃ d : ℤ, 0 ≤ d ∧ d ≤ fs.files.length ∧ fs.byFd d = none := by
  by_contra hc
  push Not at hc
  have hsub : (Finset.range (fs.files.length + 1)).map ⟨fun n : ℕ => (n : ℤ), Nat.cast_injective⟩ ⊆
      (fs.files.map MountedFile.fd).toFinset := by
    intro d hd
    obtain ⟨n, hn, rfl⟩ := Finset.mem_map.mp hd
    have hlt := Finset.mem_range.mp hn
    rw [List.mem_toFinset]
    have := hc n (by positivity) (by exact_mod_cast Nat.lt_succ_iff.mp hlt)
    rwa [ne_eq, byFd, lookup_eq_none, not_not] at this
  have hcard := Finset.card_le_card hsub
  rw [Finset.card_map, Finset.card_range] at hcard
  have hle := List.toFinset_card_le (fs.files.map MountedFile.fd)
  rw [List.length_map] at hle
  omega

theorem freeFd_least (fs : Fs) :
    0 ≤ fs.freeFd ∧ fs.byFd fs.freeFd = none ∧ ∀ d, 0 ≤ d → d < fs.freeFd → (fs.byFd d).isSome := by
  obtain ⟨h1, h2, h3⟩ := fs.freeFdLoop_spec fs.files.length 0 (by omega)
  refine ⟨h1, ?_, h2⟩
  rcases h3 with h3 | h3
  · exact h3
  · obtain ⟨d, h0, hle, hfree⟩ := fs.exists_free
    have hd : d = fs.freeFd := by
      by_contra hne
      have := h2 d h0 (by unfold freeFd at hne; omega)
      simp [hfree] at this
    rwa [hd] at hfree

theorem freeFd_ne (hf : f ∈ fs.files) : f.fd ≠ fs.freeFd := byFd_eq_none.mp fs.freeFd_least.2.1 f hf

end FreeDescriptor

structure Revision (g : MountedFile → MountedFile) : Prop where
  name : ∀ x, (g x).name = x.name
  fd : ∀ x, (g x).fd = x.fd
  kind : ∀ x, (g x).kind = x.kind
  writable : ∀ x, (g x).writable = x.writable

theorem revision_advance (n : ℕ) : Revision (.advance n) := ⟨fun _ => rfl, fun _ => rfl, fun _ => rfl, fun _ => rfl⟩
theorem revision_overwrite (buf : List UInt8) : Revision (.overwrite buf) :=
  ⟨fun _ => rfl, fun _ => rfl, fun _ => rfl, fun _ => rfl⟩
theorem revision_sought (p : ℤ) : Revision (.sought p) := ⟨fun _ => rfl, fun _ => rfl, fun _ => rfl, fun _ => rfl⟩
theorem revision_resize (junk : ℕ → UInt8) (size : ℕ) : Revision (.resize junk size) :=
  ⟨fun _ => rfl, fun _ => rfl, fun _ => rfl, fun _ => rfl⟩

def Steady : FsEvent → FsReply → Prop
  | .call (.open _ _), r => r.code < 0
  | .call (.close _), r => r.code ≠ 0
  | _, _ => True

inductive Edit (fs : Fs) : FsEvent → FsReply → Fs → Prop
  | same {e : FsEvent} {r : FsReply} : Steady e r → Edit fs e r fs
  | mounted {e : FsEvent} {r : FsReply} {f : MountedFile} : Steady e r → fs.byName f.name = none → f.fd = badFd →
      Edit fs e r ⟨fs.files ++ [f]⟩
  | unmounted {e : FsEvent} {r : FsReply} {f : MountedFile} : Steady e r → f ∈ fs.files → f.fd = badFd →
      Edit fs e r ⟨discard MountedFile.name f.name fs.files⟩
  | opened {flags : UInt32} {f : MountedFile} : f ∈ fs.files → f.fd = badFd →
      Edit fs (.call (.open f.name flags)) ⟨fs.freeFd, []⟩ (fs.modifyName f.name (.withFd fs.freeFd))
  | closed {f : MountedFile} : f ∈ fs.files →
      Edit fs (.call (.close f.fd)) ⟨0, []⟩ (fs.modifyName f.name .closed)
  | revised {e : FsEvent} {r : FsReply} {f : MountedFile} {g : MountedFile → MountedFile} : Steady e r →
      f ∈ fs.files → f.kind = .regular → Revision g → Edit fs e r (fs.modifyName f.name g)

section Cases

def refusal (f : MountedFile) : AccessMode → Option ℤ
  | .rdonly => if f.canRead then none else some (-eacces)
  | .wronly => if f.canWrite then none else some (-eacces)
  | .rdwr => if f.canRead && f.canWrite then none else some (-eacces)
  | .other => some (-einval)

theorem refusal_neg {m : AccessMode} {e : ℤ} (h : refusal f m = some e) : e < 0 := by
  cases m <;> simp only [refusal, Option.ite_none_left_eq_some, Option.some.injEq] at h
  · rw [← h.2]; decide
  · rw [← h.2]; decide
  · rw [← h.2]; decide
  · rw [← h]; decide

theorem openFile_none {name : List UInt8} (flags : UInt32) (h : fs.byName name = none) :
    fs.openFile name flags = (-enoent, fs) := by
  simp only [openFile, h]

theorem openFile_busy {name : List UInt8} (flags : UInt32) (h : fs.byName name = some f) (hfd : f.fd ≠ badFd) :
    fs.openFile name flags = (-eacces, fs) := by
  simp only [openFile, h, hfd, ne_eq, not_false_eq_true, ↓reduceIte]

theorem openFile_closed {name : List UInt8} (flags : UInt32) (h : fs.byName name = some f) (hfd : f.fd = badFd) :
    fs.openFile name flags = match refusal f (accessMode flags) with
      | some e => (e, fs)
      | none => (fs.freeFd, fs.modifyName name (.withFd fs.freeFd)) := by
  simp only [openFile, h, hfd, ne_eq, not_true_eq_false, ↓reduceIte, refusal]
  cases accessMode flags with
  | rdonly => cases f.canRead <;> rfl
  | wronly => cases f.canWrite <;> rfl
  | rdwr => cases f.canRead <;> cases f.canWrite <;> rfl
  | other => rfl

theorem openFile_cases (fs : Fs) (name : List UInt8) (flags : UInt32) :
    (∃ e < 0, fs.openFile name flags = (e, fs)) ∨
      ∃ f ∈ fs.files, f.name = name ∧ f.fd = badFd ∧
        fs.openFile name flags = (fs.freeFd, fs.modifyName name (.withFd fs.freeFd)) := by
  cases hf : fs.byName name with
  | none => exact .inl ⟨_, by decide, openFile_none flags hf⟩
  | some f =>
    by_cases hfd : f.fd = badFd
    · rw [openFile_closed flags hf hfd]
      cases hr : refusal f (accessMode flags) with
      | none => exact .inr ⟨f, lookup_mem hf, lookup_key hf, hfd, rfl⟩
      | some e => exact .inl ⟨e, refusal_neg hr, rfl⟩
    · exact .inl ⟨_, by decide, openFile_busy flags hf hfd⟩

theorem close_cases (h : fs.Sound) (fd : ℤ) :
    fs.byFd fd = none ∧ fs.close fd = (-ebadf, fs) ∨
      ∃ f ∈ fs.files, f.fd = fd ∧ fs.close fd = (0, fs.modifyName f.name .closed) := by
  unfold close
  cases hf : fs.byFd fd with
  | none => exact .inl ⟨rfl, rfl⟩
  | some f => exact .inr ⟨f, lookup_mem hf, lookup_key hf, by rw [modifyFd_eq h hf]⟩

theorem read_cases (h : fs.Sound) (fd : ℤ) (n : ℕ) :
    (fs.read fd n).2.2 = fs ∨ ∃ f ∈ fs.files, f.kind = .regular ∧ (fs.read fd n).2.2 = fs.modifyName f.name (.advance n) := by
  unfold read
  cases hf : fs.byFd fd with
  | none => exact .inl rfl
  | some f =>
    dsimp only
    cases hk : f.kind with
    | empty => exact .inl rfl
    | sysout => exact .inl rfl
    | regular => exact .inr ⟨f, lookup_mem hf, hk, modifyFd_eq h hf _⟩

theorem write_cases (h : fs.Sound) {buf : List UInt8} {r : ℤ} (hw : fs.write fd buf = .ok (r, fs')) :
    fs' = fs ∨ ∃ f ∈ fs.files, f.kind = .regular ∧ fs' = fs.modifyName f.name (.overwrite buf) := by
  unfold write at hw
  cases hf : fs.byFd fd with
  | none =>
    rw [hf] at hw
    cases hw
    exact .inl rfl
  | some f =>
    rw [hf] at hw
    dsimp only at hw
    cases hk : f.kind with
    | empty =>
      rw [hk] at hw
      cases hw
      exact .inl rfl
    | sysout =>
      rw [hk] at hw
      cases hw
      exact .inl rfl
    | regular =>
      rw [hk] at hw
      dsimp only at hw
      split_ifs at hw
      · cases hw
        exact .inl rfl
      · cases hw
        exact .inr ⟨f, lookup_mem hf, hk, modifyFd_eq h hf _⟩

theorem seek_cases (h : fs.Sound) (fd offset whence : ℤ) :
    (fs.seek fd offset whence).2 = fs ∨
      ∃ f ∈ fs.files, ∃ p, f.kind = .regular ∧ (fs.seek fd offset whence).2 = fs.modifyName f.name (.sought p) := by
  unfold seek
  cases hf : fs.byFd fd with
  | none => exact .inl rfl
  | some f =>
    dsimp only
    by_cases hk : f.kind = .regular
    · rw [if_neg (not_not.mpr hk)]
      generalize (if whence = 0 then some offset else if whence = 1 then some (↑f.pos + offset)
        else if whence = 2 then some (↑f.data.length + offset) else none) = target
      cases target with
      | none => exact .inl rfl
      | some p =>
        dsimp only
        split_ifs
        · exact .inl rfl
        · exact .inr ⟨f, lookup_mem hf, p, hk, modifyFd_eq h hf _⟩
    · rw [if_pos hk]
      exact .inl rfl

theorem truncateName_cases (junk : ℕ → UInt8) (name : List UInt8) (size : ℤ) :
    (fs.truncateName junk name size).2 = fs ∨ ∃ f ∈ fs.files, f.kind = .regular ∧
      (fs.truncateName junk name size).2 = fs.modifyName f.name (.resize junk size.toNat) := by
  unfold truncateName
  cases hf : fs.byName name with
  | none => exact .inl rfl
  | some f =>
    dsimp only
    split_ifs with hc
    · exact .inl rfl
    · push Not at hc
      refine .inr ⟨f, lookup_mem hf, hc.1, ?_⟩
      rw [lookup_key hf]

theorem truncateFd_cases (junk : ℕ → UInt8) (fd size : ℤ) :
    (fs.truncateFd junk fd size).2 = fs ∨ ∃ f ∈ fs.files, f.kind = .regular ∧
      (fs.truncateFd junk fd size).2 = fs.modifyName f.name (.resize junk size.toNat) := by
  unfold truncateFd
  cases fs.byFd fd with
  | none => exact .inl rfl
  | some f => exact truncateName_cases junk f.name size

end Cases

theorem event_edit (h : fs.Sound) {e : FsEvent} {r : FsReply} (he : fs.event e = .ok (r, fs')) : Edit fs e r fs' := by
  have revised : ∀ {g : MountedFile → MountedFile}, Steady e r → Revision g →
      (fs' = fs ∨ ∃ f ∈ fs.files, f.kind = .regular ∧ fs' = fs.modifyName f.name g) → Edit fs e r fs' := by
    rintro g hs hg (rfl | ⟨f, hf, hk, rfl⟩)
    · exact .same hs
    · exact .revised hs hf hk hg
  cases e with
  | mount name data writable =>
    cases he
    unfold mount
    cases hf : fs.byName name with
    | none => exact .mounted trivial hf rfl
    | some f => exact .same trivial
  | unmount name =>
    cases he
    unfold unmount
    cases hf : fs.byName name with
    | none => exact .same trivial
    | some f =>
      dsimp only
      split_ifs with hk hfd
      · exact .same trivial
      · exact .same trivial
      · rw [← show f.name = name from lookup_key hf]
        exact .unmounted trivial (lookup_mem hf) (not_not.mp hfd)
  | call c =>
    cases c with
    | «open» name flags =>
      cases he
      rcases fs.openFile_cases name flags with ⟨e, he, ho⟩ | ⟨f, hf, rfl, hfd, ho⟩
      · rw [ho]
        exact .same he
      · rw [ho]
        exact .opened hf hfd
    | close fd =>
      cases he
      rcases close_cases h fd with ⟨-, hc⟩ | ⟨f, hf, rfl, hc⟩
      · rw [hc]
        exact .same (by decide : -ebadf ≠ 0)
      · rw [hc]
        exact .closed hf
    | read fd n =>
      cases he
      exact revised trivial (revision_advance n) (read_cases h fd n)
    | write fd buf =>
      obtain ⟨⟨r', fs₁⟩, hw, he⟩ := bind_ok he
      cases he
      exact revised trivial (revision_overwrite buf) (write_cases h hw)
    | seek fd offset whence =>
      cases he
      rcases seek_cases h fd offset whence with hs | ⟨f, hf, p, hk, hs⟩
      · rw [hs]
        exact .same trivial
      · rw [hs]
        exact .revised trivial hf hk (revision_sought p)
    | statName name =>
      cases he
      exact .same trivial
    | statFd fd =>
      cases he
      exact .same trivial
    | truncateName junk name size =>
      cases he
      exact revised trivial (revision_resize junk _) (truncateName_cases junk name size)
    | truncateFd junk fd size =>
      cases he
      exact revised trivial (revision_resize junk _) (truncateFd_cases junk fd size)

section Invariant

theorem Sound.modifyName (h : fs.Sound) (hf : f ∈ fs.files) {g : MountedFile → MountedFile}
    (hname : ∀ x, (g x).name = x.name) (hfree : (g f).fd ≠ badFd → ∀ x ∈ fs.files, x.fd = (g f).fd → x = f)
    (hpos : (g f).fd ≠ badFd → 0 ≤ (g f).fd) : (fs.modifyName f.name g).Sound := by
  have hother : ∀ x ∈ fs.files, x.name ≠ f.name → (g f).fd = x.fd → (g f).fd = badFd := by
    intro x hx hne heq
    by_contra hopen
    exact hne (congrArg MountedFile.name (hfree hopen x hx heq.symm))
  refine ⟨?_, ?_, ?_⟩
  · rw [Fs.modifyName, map_adjust hname]
    exact h.names
  · intro x hx y hy heq hopen
    rw [mem_modifyName h hf] at hx hy
    rcases hx with rfl | ⟨hx, hxf⟩
    · rcases hy with rfl | ⟨hy, hyf⟩
      · rfl
      · exact absurd (hother y hy hyf heq) hopen
    · rcases hy with rfl | ⟨hy, hyf⟩
      · exact absurd (hother x hx hxf heq.symm) (heq ▸ hopen)
      · exact h.fds x hx y hy heq hopen
  · intro x hx hopen
    rw [mem_modifyName h hf] at hx
    rcases hx with rfl | ⟨hx, -⟩
    · exact hpos hopen
    · exact h.nonneg x hx hopen

theorem Edit.sound {e : FsEvent} {r : FsReply} (h : fs.Sound) (he : Edit fs e r fs') : fs'.Sound := by
  cases he with
  | same => exact h
  | @mounted _ _ f _ hname hfd =>
    have hnew : f.name ∉ fs.files.map MountedFile.name := lookup_eq_none.mp hname
    refine ⟨?_, ?_, ?_⟩
    · rw [List.map_append, List.nodup_append']
      exact ⟨h.names, List.nodup_singleton _, by simpa [List.disjoint_singleton] using hnew⟩
    · intro x hx y hy heq hopen
      rcases List.mem_append.mp hx with hx | hx
      · rcases List.mem_append.mp hy with hy | hy
        · exact h.fds x hx y hy heq hopen
        · rw [List.mem_singleton.mp hy, hfd] at heq
          exact absurd heq hopen
      · rw [List.mem_singleton.mp hx] at hopen
        exact absurd hfd hopen
    · intro x hx hopen
      rcases List.mem_append.mp hx with hx | hx
      · exact h.nonneg x hx hopen
      · rw [List.mem_singleton.mp hx] at hopen
        exact absurd hfd hopen
  | @unmounted _ _ f _ hf hfd =>
    have hsub : ∀ {x}, x ∈ discard MountedFile.name f.name fs.files → x ∈ fs.files := fun hx => discard_sublist.subset hx
    exact ⟨(discard_sublist.map _).nodup h.names, fun x hx y hy => h.fds x (hsub hx) y (hsub hy),
      fun x hx => h.nonneg x (hsub hx)⟩
  | @opened _ f hf hfd =>
    refine h.modifyName hf (fun _ => rfl) ?_ (fun _ => fs.freeFd_least.1)
    intro _ x hx heq
    exact absurd heq (freeFd_ne hx)
  | @closed f hf => exact h.modifyName hf (fun _ => rfl) (fun hc => absurd rfl hc) (fun hc => absurd rfl hc)
  | @revised _ _ f g _ hf _ hg =>
    refine h.modifyName hf hg.name ?_ ?_
    · intro hopen x hx heq
      rw [hg.fd] at hopen heq
      exact h.fds x hx f hf heq (heq ▸ hopen)
    · intro hopen
      rw [hg.fd] at hopen ⊢
      exact h.nonneg f hf hopen

end Invariant

section Descriptors

def openAfter (open₀ : Set ℤ) : FsEvent → FsReply → Set ℤ
  | .call (.open _ _), r => if 0 ≤ r.code then insert r.code open₀ else open₀
  | .call (.close fd), r => if r.code = 0 then open₀ \ {fd} else open₀
  | _, _ => open₀

inductive Reached : Fs → Set ℤ → Prop
  | new : Reached new {0, 1, 2}
  | event {fs fs' : Fs} {open₀ : Set ℤ} {e : FsEvent} {r : FsReply} : Reached fs open₀ → fs.event e = .ok (r, fs') →
      Reached fs' (openAfter open₀ e r)

def descriptors (fs : Fs) : Set ℤ := {d | d ≠ badFd ∧ ∃ f ∈ fs.files, f.fd = d}

theorem openAfter_steady {open₀ : Set ℤ} {e : FsEvent} {r : FsReply} (h : Steady e r) : openAfter open₀ e r = open₀ := by
  unfold Steady at h
  unfold openAfter
  split <;> simp_all

theorem mem_descriptors {d : ℤ} : d ∈ fs.descriptors ↔ d ≠ badFd ∧ ∃ f ∈ fs.files, f.fd = d := Iff.rfl

theorem descriptors_modifyName (h : fs.Sound) (hf : f ∈ fs.files) (g : MountedFile → MountedFile) (d : ℤ) :
    d ∈ (fs.modifyName f.name g).descriptors ↔
      d ≠ badFd ∧ (d = (g f).fd ∨ ∃ x ∈ fs.files, x.name ≠ f.name ∧ x.fd = d) := by
  simp only [mem_descriptors, mem_modifyName h hf, or_and_right, exists_or, exists_eq_left, and_assoc, eq_comm]

theorem Sound.name_ne (h : fs.Sound) {x : MountedFile} (hx : x ∈ fs.files) (hf : f ∈ fs.files) (hne : x.fd ≠ f.fd) :
    x.name ≠ f.name := by
  intro he
  exact hne (congrArg MountedFile.fd (List.inj_on_of_nodup_map h.names hx hf he))

theorem Edit.descriptors {e : FsEvent} {r : FsReply} (h : fs.Sound) (he : Edit fs e r fs') :
    fs'.descriptors = openAfter fs.descriptors e r := by
  cases he with
  | same hs => rw [openAfter_steady hs]
  | @mounted _ _ f hs _ hfd =>
    rw [openAfter_steady hs]
    ext d
    rw [mem_descriptors, mem_descriptors]
    refine and_congr_right ?_
    intro hd
    constructor
    · rintro ⟨x, hx, rfl⟩
      rcases List.mem_append.mp hx with hx | hx
      · exact ⟨x, hx, rfl⟩
      · rw [List.mem_singleton.mp hx] at hd
        exact absurd hfd hd
    · rintro ⟨x, hx, rfl⟩
      exact ⟨x, List.mem_append_left _ hx, rfl⟩
  | @unmounted _ _ f hs hf hfd =>
    rw [openAfter_steady hs]
    ext d
    rw [mem_descriptors, mem_descriptors]
    refine and_congr_right ?_
    intro hd
    constructor
    · rintro ⟨x, hx, rfl⟩
      exact ⟨x, discard_sublist.subset hx, rfl⟩
    · rintro ⟨x, hx, rfl⟩
      have hne := h.name_ne hx hf (hfd ▸ hd)
      exact ⟨x, (List.mem_eraseP_of_neg (by simpa using hne)).mpr hx, rfl⟩
  | @opened _ f hf hfd =>
    ext d
    have hfree := fs.freeFd_least.1
    rw [descriptors_modifyName h hf, openAfter, if_pos hfree, Set.mem_insert_iff, mem_descriptors]
    constructor
    · rintro ⟨hd, rfl | ⟨x, hx, -, rfl⟩⟩
      · exact .inl rfl
      · exact .inr ⟨hd, x, hx, rfl⟩
    · rintro (rfl | ⟨hd, x, hx, rfl⟩)
      · refine ⟨?_, .inl rfl⟩
        intro hbad
        rw [show fs.freeFd = badFd from hbad] at hfree
        exact absurd hfree (by decide)
      · exact ⟨hd, .inr ⟨x, hx, h.name_ne hx hf (hfd ▸ hd), rfl⟩⟩
  | @closed f hf =>
    ext d
    rw [descriptors_modifyName h hf, openAfter, if_pos rfl, Set.mem_sdiff, Set.mem_singleton_iff, mem_descriptors]
    constructor
    · rintro ⟨hd, rfl | ⟨x, hx, hne, rfl⟩⟩
      · exact absurd rfl hd
      · refine ⟨⟨hd, x, hx, rfl⟩, ?_⟩
        intro he
        exact hne (congrArg MountedFile.name (h.fds x hx f hf he hd))
    · rintro ⟨⟨hd, x, hx, rfl⟩, hne⟩
      exact ⟨hd, .inr ⟨x, hx, h.name_ne hx hf hne, rfl⟩⟩
  | @revised _ _ f g hs hf _ hg =>
    rw [openAfter_steady hs]
    ext d
    rw [descriptors_modifyName h hf, mem_descriptors, hg.fd]
    refine and_congr_right ?_
    intro hd
    constructor
    · rintro (rfl | ⟨x, hx, -, rfl⟩)
      · exact ⟨f, hf, rfl⟩
      · exact ⟨x, hx, rfl⟩
    · rintro ⟨x, hx, rfl⟩
      by_cases he : x.fd = f.fd
      · exact .inl he
      · exact .inr ⟨x, hx, h.name_ne hx hf he, rfl⟩

theorem descriptors_new : new.descriptors = {0, 1, 2} := by
  ext d
  simp only [mem_descriptors, new, device, List.mem_cons, List.not_mem_nil, or_false, exists_eq_or_imp, exists_eq_left,
    Set.mem_insert_iff, Set.mem_singleton_iff, badFd]
  omega

theorem Reached.sound {open₀ : Set ℤ} (h : Reached fs open₀) : fs.Sound ∧ fs.descriptors = open₀ := by
  induction h with
  | new => exact ⟨sound_new, descriptors_new⟩
  | event _ he ih =>
    obtain ⟨hs, rfl⟩ := ih
    have hedit := event_edit hs he
    exact ⟨hedit.sound hs, hedit.descriptors hs⟩

end Descriptors

section Rejection

structure Rejects (fs : Fs) (fd : ℤ) : Prop where
  read : ∀ n, (fs.read fd n).1 < 0 ∧ (fs.read fd n).2.2 = fs
  write : ∀ buf, ∃ e < 0, fs.write fd buf = .ok (e, fs)
  seek : ∀ offset whence, (fs.seek fd offset whence).1 < 0 ∧ (fs.seek fd offset whence).2 = fs
  statFd : (fs.statFd fd).1 < 0
  truncateFd : ∀ junk size, (fs.truncateFd junk fd size).1 < 0 ∧ (fs.truncateFd junk fd size).2 = fs
  close : (fs.close fd).1 < 0 ∧ (fs.close fd).2 = fs

theorem rejects_of_none (h : fs.byFd fd = none) : fs.Rejects fd := by
  have hneg : -enoent < 0 := by decide
  constructor
  · intro n
    simp only [Fs.read, h]
    exact ⟨hneg, trivial⟩
  · intro buf
    exact ⟨-enoent, hneg, by simp only [Fs.write, h]⟩
  · intro offset whence
    simp only [Fs.seek, h]
    exact ⟨by decide, trivial⟩
  · simp only [Fs.statFd, h]
    exact hneg
  · intro junk size
    simp only [Fs.truncateFd, h]
    exact ⟨hneg, trivial⟩
  · simp only [Fs.close, h]
    exact ⟨by decide, trivial⟩

theorem Rejects.none (h : fs.Rejects fd) : fs.byFd fd = none := by
  cases hf : fs.byFd fd with
  | none => rfl
  | some f =>
    have hclose := h.close.1
    simp only [Fs.close, hf, lt_self_iff_false] at hclose

theorem rejects_iff {open₀ : Set ℤ} (h : Reached fs open₀) (hfd : fd ∉ open₀) :
    fs.Rejects fd ↔ fd ≠ -1 ∨ ∀ f ∈ fs.files, f.fd ≠ -1 := by
  obtain ⟨-, rfl⟩ := h.sound
  constructor
  · intro hr
    by_cases hbad : fd = -1
    · subst hbad
      exact .inr (byFd_eq_none.mp hr.none)
    · exact .inl hbad
  · intro hcase
    apply rejects_of_none
    rw [byFd_eq_none]
    intro f hf he
    rcases hcase with hne | hopen
    · exact hfd ⟨hne, f, hf, he⟩
    · by_cases hbad : fd = -1
      · exact hopen f hf (he.trans hbad)
      · exact hfd ⟨hbad, f, hf, he⟩

theorem rejects_seven : ∃ open₀, Reached new open₀ ∧ 7 ∉ open₀ ∧ new.Rejects 7 := by
  have hfd : (7 : ℤ) ∉ ({0, 1, 2} : Set ℤ) := by simp
  exact ⟨_, .new, hfd, (rejects_iff .new hfd).mpr (.inl (by decide))⟩

/-- A guest that never opened the mounted file reads it through descriptor `-1`. -/
theorem reads_closed_file : ∃ (fs : Fs) (open₀ : Set ℤ), Reached fs open₀ ∧ -1 ∉ open₀ ∧
    (fs.read (-1) 3).1 = 2 ∧ (fs.read (-1) 3).2.1 = [7, 8] ∧ (fs.read (-1) 3).2.2 ≠ fs ∧ ¬ fs.Rejects (-1) := by
  have hfd : (-1 : ℤ) ∉ ({0, 1, 2} : Set ℤ) := by simp
  have hr : (((new.mount (ascii "f") [7, 8] false).2).read (-1) 3).1 = 2 := by decide
  refine ⟨(new.mount (ascii "f") [7, 8] false).2, _, @Reached.event _ _ _ (.mount (ascii "f") [7, 8] false) _ .new rfl, hfd, hr,
    by decide, by decide, ?_⟩
  intro hrej
  have := (hrej.read 3).1
  rw [hr] at this
  exact absurd this (by decide)

end Rejection

end Fs

end MiniBox
