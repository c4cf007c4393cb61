import MiniBox.FileProbes
import MiniBox.Rewind

namespace MiniBox

open ByteStream Effects LinearTables Outcomes Relation StreamReaders

namespace Fs

variable {fs fs' : Fs}

structure Tidy (fs : Fs) : Prop where
  sound : fs.Sound
  level : fs.Level

theorem tidy_new : new.Tidy := ⟨sound_new, by unfold Level; decide⟩

theorem Tidy.step (h : fs.Tidy) (hs : fs.Step fs') : fs'.Tidy := by
  refine ⟨?_, h.level.step hs⟩
  obtain ⟨c, r, hc⟩ := hs
  exact h.sound.call hc

theorem Tidy.mount (h : fs.Tidy) (name data : List UInt8) (writable : Bool) : (fs.mount name data writable).2.Tidy := by
  have hedit : Edit fs (.mount name data writable) _ _ := event_edit h.sound rfl
  refine ⟨hedit.sound h.sound, ?_⟩
  unfold Fs.mount
  cases fs.byName name with
  | some f => exact h.level
  | none =>
    intro f hf hk
    rcases List.mem_append.mp hf with hf | hf
    · exact h.level f hf hk
    · rw [List.mem_singleton.mp hf]

theorem Tidy.unmount (h : fs.Tidy) (name : List UInt8) : (fs.unmount name).2.2.Tidy := by
  have hedit : Edit fs (.unmount name) _ _ := event_edit h.sound rfl
  refine ⟨hedit.sound h.sound, ?_⟩
  unfold Fs.unmount
  cases fs.byName name with
  | none => exact h.level
  | some f =>
    dsimp only
    split_ifs
    · exact h.level
    · exact h.level
    · intro g hg hk
      exact h.level g (discard_sublist.subset hg) hk

end Fs

namespace Host

variable {elf : Elf} {mounts : Prop} {h h' s t : Host}

section Files

theorem files_step {P : Fs → Prop} (hcall : ∀ fs fs', Fs.Step fs fs' → P fs → P fs')
    (hmount : mounts → ∀ fs name data writable, P fs → P (fs.mount name data writable).2)
    (hunmount : mounts → ∀ fs name, P fs → P (fs.unmount name).2.2) (ho : h.Orderly) (hs : HostStep elf mounts h h')
    (hp : P h.fs) : P h'.fs := by
  cases hs with
  | guest _ hx =>
    have hsteps := ((Kernel.guestStep_step _).answer _ _ _ hx).fsSteps
    exact Runs.invariant (P := P) hcall hsteps hp
  | activate ha =>
    rw [ho.resident.activate] at ha
    cases ha
    exact hp
  | deactivate =>
    unfold deactivate
    split_ifs
    · exact hp
    · exact hp
  | elfSeal _ _ => exact hp
  | sealHost hb =>
    rcases sealHost_cases hb with rfl | ⟨code, block, -, -, ⟨-, rfl⟩ | ⟨-, rfl⟩⟩
    · exact hp
    · exact hp
    · exact hp
  | mount hm => exact hmount hm _ _ _ _ hp
  | unmount hm => exact hunmount hm _ _ hp
  | save hsave =>
    have hrest := (shelved_saveState ho.resident ho.storable ho.main hsave).rest
    rw [hrest]
    exact hp
  | load hload =>
    obtain ⟨-, g, hrep, rfl⟩ := loadState_cases ho.resident hload
    rw [leave_toKernel, hrep.rest]
    exact hp

theorem files_run {P : Fs → Prop} (hcall : ∀ fs fs', Fs.Step fs fs' → P fs → P fs')
    (hmount : mounts → ∀ fs name data writable, P fs → P (fs.mount name data writable).2)
    (hunmount : mounts → ∀ fs name, P fs → P (fs.unmount name).2.2) (ho : h.Orderly)
    (hrun : ReflTransGen (HostStep elf mounts) h h') (hp : P h.fs) : P h'.fs := by
  have hall : h'.Orderly ∧ P h'.fs := by
    refine Runs.invariant (P := fun g => g.Orderly ∧ P g.fs) ?_ hrun ⟨ho, hp⟩
    rintro g g' hstep ⟨hog, hpg⟩
    exact ⟨hog.step hstep, files_step hcall hmount hunmount hog hstep hpg⟩
  exact hall.2

theorem tidy_run (ho : h.Orderly) (hrun : ReflTransGen (HostStep elf mounts) h h') (ht : h.fs.Tidy) : h'.fs.Tidy :=
  files_run (P := Fs.Tidy) (fun _ _ hs ht => ht.step hs) (fun _ _ name data writable ht => ht.mount name data writable)
    (fun _ _ name ht => ht.unmount name) ho hrun ht

theorem contents_run (ho : h.Orderly) (hrun : ReflTransGen (HostStep elf False) h h') (hr : h.fs.ReadOnly) :
    h'.fs.contents = h.fs.contents := by
  refine files_run (P := fun fs => fs.contents = h.fs.contents) ?_ False.elim False.elim ho hrun rfl
  intro fs fs' hs heq
  exact ((hr.of_contents heq).contents_step hs).trans heq

theorem hostNew_fs {img : Image} {tpl : LayoutTemplate} (hmade : hostNew img tpl = .ok (.inr (h, elf))) :
    h.fs = Fs.new := by
  obtain ⟨span, h₀, s, -, hcreate, -, rfl⟩ := hostNew_cases hmade
  obtain ⟨b₀, b, layout, -, -, -, rfl⟩ := create_cases hcreate
  rfl

theorem tidy_life {img : Image} {tpl : LayoutTemplate} {h₀ : Host} (hmade : hostNew img tpl = .ok (.inr (h₀, elf)))
    (hlife : ReflTransGen (HostStep elf mounts) h₀ h) : h.fs.Tidy := by
  apply tidy_run (hostNew_start hmade).1 hlife
  rw [hostNew_fs hmade]
  exact Fs.tidy_new

theorem loadState_fs {msg : Option String} {src src' : Source} (ho : h.Orderly)
    (hload : h.loadState src = .ok (0, msg, h', src')) : h'.fs = h.fs := by
  obtain ⟨-, g, hrep, rfl⟩ := loadState_cases ho.resident hload
  rw [leave_toKernel, hrep.rest]
  rfl

theorem loadState_main {msg : Option String} {src src' : Source} (ho : h.Orderly)
    (hload : h.loadState src = .ok (0, msg, h', src')) : h.threads.activeTid = 1 := by
  obtain ⟨-, g, hrep, -⟩ := loadState_cases ho.resident hload
  obtain ⟨src₁, src₂, hthreads⟩ := hrep.threads
  by_contra hne
  unfold ThreadSet.load at hthreads
  rw [if_pos (show h.awake.threads.activeTid ≠ 1 from hne)] at hthreads
  cases hthreads

theorem loadState_saved {base : ℕ → PageData} (hos : s.Orderly) (hot : t.Orderly) (hs : s.SealedOn base)
    (ht : t.SealedOn base) (hk : s.Akin t) (ha : t.threads.activeTid = 1) :
    ∃ src t' src', src.rest = s.stateBytes ∧ t.loadState src = .ok (0, none, t', src') := by
  have hsrc : Source.rest ⟨s.stateBytes, fun _ => 1, 0⟩ = s.stateBytes ++ [] := (List.append_nil _).symm
  obtain ⟨block, src', -, -, hload⟩ := loadState_spec hos hot hs ht hk ha hsrc
  exact ⟨_, _, src', rfl, hload⟩

end Files

def CoversFiles (s t : Host) (bytes : List UInt8) : Prop :=
  s.fs.ReadOnly ∧ ∀ src msg t' src', src.rest = bytes → t.loadState src = .ok (0, msg, t', src') →
    ∀ calls, t'.fs.replies calls = s.fs.replies calls

theorem files_covered_iff {img : Image} {tpl : LayoutTemplate} {h₀ s' : Host} {w w' : Sink} {msg : Option String}
    {bytes : List UInt8} (hmade : hostNew img tpl = .ok (.inr (h₀, elf)))
    (hlife : ReflTransGen (HostStep elf True) h₀ s) (hsealed : s.sealed = true) (hs1 : s.threads.activeTid = 1)
    (hsave : s.saveState w = .ok (0, msg, s', w')) (hbytes : w'.out = w.out ++ bytes)
    (hrun : ReflTransGen (HostStep elf False) s t) :
    s.CoversFiles t bytes ↔
      (∀ f ∈ s.fs.files, f.writable = false) ∧ (t.threads.activeTid = 1 → t.fs.handles = s.fs.handles) := by
  obtain ⟨hos, base, hs⟩ := life_sealed hmade hlife hsealed
  obtain ⟨hot, ht, hk⟩ := SealedOn.run hos hs hrun
  have htidy : s.fs.Tidy := tidy_life hmade hlife
  have htidy' : t.fs.Tidy := tidy_run hos hrun htidy
  apply and_congr_right
  intro hro
  have hcontents := contents_run hos hrun hro
  constructor
  · intro hcovers ht1
    obtain rfl : bytes = s.stateBytes :=
      List.append_cancel_left (hbytes.symm.trans (saveState_out hos hs hs1 hsave))
    obtain ⟨src, t', src', hsrc, hload⟩ := loadState_saved hos hot hs ht hk ht1
    have hagree : s.fs.Agree t.fs := by
      intro calls
      rw [← hcovers _ _ _ _ hsrc hload calls, loadState_fs hot hload]
    exact hagree.handles htidy.sound htidy'.sound htidy.level htidy'.level hcontents
  · intro hhandles src msg t' src' hsrc hload calls
    rw [loadState_fs hot hload, Fs.eq_of_handles hcontents (hhandles (loadState_main hot hload))]

section Names

variable {M : Type} {mem : GuestMemory M} {m : M}

def Spells (mem : GuestMemory M) (m : M) : List UInt8 → UInt64 → Prop
  | [], a => exec (mem.read a) m = (.ok 0, m)
  | c :: cs, a => c ≠ 0 ∧ exec (mem.read a) m = (.ok c, m) ∧ Spells mem m cs (a + 1)

theorem Spells.sameString {name : List UInt8} {a : UInt64} (h : Spells mem m name a) {other : List UInt8}
    (hother : 0 ∉ other) : exec (Kernel.sameString mem other a) m = (.ok (decide (other = name)), m) := by
  induction other generalizing name a with
  | nil =>
    unfold Kernel.sameString
    cases name with
    | nil => exact exec_bind_ok h
    | cons c cs =>
      rw [exec_bind_ok h.2.1, exec_pure, decide_eq_false h.1]
      rfl
  | cons d ds ih =>
    obtain ⟨hd, hds⟩ := not_or.mp (mt List.mem_cons.mpr hother)
    unfold Kernel.sameString
    cases name with
    | nil =>
      rw [exec_bind_ok h, if_neg hd]
      rfl
    | cons c cs =>
      rw [exec_bind_ok h.2.1]
      by_cases hc : c = d
      · rw [if_pos hc, ih h.2.2 hds]
        simp [hc]
      · rw [if_neg hc, exec_pure]
        simp [Ne.symm hc]

theorem Spells.findName {name : List UInt8} {a : UInt64} (h : Spells mem m name a) {files : List MountedFile}
    (hfiles : ∀ f ∈ files, 0 ∉ f.name) (hmem : name ∈ files.map MountedFile.name) :
    exec (Kernel.findName mem files a) m = (.ok (some name), m) := by
  induction files with
  | nil => cases hmem
  | cons f files ih =>
    obtain ⟨hf, hfiles⟩ := List.forall_mem_cons.mp hfiles
    unfold Kernel.findName
    rw [exec_bind_ok (h.sameString hf)]
    by_cases hname : f.name = name
    · rw [decide_eq_true hname, if_pos rfl, hname]
      rfl
    · rw [decide_eq_false hname, if_neg Bool.false_ne_true]
      rw [List.map_cons, List.mem_cons] at hmem
      exact ih hfiles (hmem.resolve_left (Ne.symm hname))

variable {k : Kernel} {s : Syscall} {junk : ℕ → UInt8}

theorem exec_syscall {k' : Kernel} {m' : M} {rax : UInt64} (h : exec (k.dispatch mem s junk) m = (.ok (rax, k'), m')) :
    exec (k.guestStep mem (.syscall s junk)) m = (.ok (.returned rax k'.context k'.threads.getTid, k'), m') :=
  exec_bind_ok h

theorem dispatch_open (junk : ℕ → UInt8) {name : List UInt8} (hnr : SyscallName.ofNumber s.nr = some (.file .open))
    (h : Spells mem m name s.a1) (hfiles : ∀ f ∈ k.fs.files, 0 ∉ f.name)
    (hmem : name ∈ k.fs.files.map MountedFile.name) :
    exec (k.dispatch mem s junk) m = (.ok (reply (k.fs.openFile name s.a2.toUInt32).1,
      { k with fs := (k.fs.openFile name s.a2.toUInt32).2 }), m) := by
  unfold Kernel.dispatch
  rw [hnr]
  exact exec_bind_ok (h.findName hfiles hmem)

theorem dispatch_read (junk : ℕ → UInt8) {m' : M} (hnr : SyscallName.ofNumber s.nr = some (.file .read))
    (h : exec (mem.writeBytes s.a2 (k.fs.read (cint s.a1) s.a3.toNat).2.1) m = (.ok (), m')) :
    exec (k.dispatch mem s junk) m = (.ok (reply (k.fs.read (cint s.a1) s.a3.toNat).1,
      { k with fs := (k.fs.read (cint s.a1) s.a3.toNat).2.2 }), m') := by
  have hfile : exec (k.readFile mem (cint s.a1) s.a2 s.a3) m = (.ok ((k.fs.read (cint s.a1) s.a3.toNat).1,
      { k with fs := (k.fs.read (cint s.a1) s.a3.toNat).2.2 }), m') := exec_bind_ok h
  unfold Kernel.dispatch
  rw [hnr]
  exact exec_bind_ok hfile

end Names

section OneFile

def oneFile : Fs := ((Fs.new.mount (ascii "f") [7, 8] false).2.openFile (ascii "f") 0).2

theorem oneFile_runs : ∃ (tpl : LayoutTemplate) (elf : Elf) (h₀ s t u : Host),
    hostNew onePageImage tpl = .ok (.inr (h₀, elf)) ∧ ReflTransGen (HostStep elf True) h₀ s ∧ s.sealed = true ∧
    s.threads.activeTid = 1 ∧ HostStep elf False s t ∧ HostStep elf False t u ∧ t.threads.activeTid = 1 ∧
    s.fs.ReadOnly ∧ s.fs.replies [.read 3 1] = .ok [⟨1, [7]⟩] ∧ t.fs.replies [.read 3 1] = .ok [⟨1, [8]⟩] ∧
    u.fs.handles = s.fs.handles ∧ ∃ f ∈ (s.mount (ascii "g") [] true).2.fs.files, f.writable = true := by
  obtain ⟨elf, h₀, s₀, hmade, hseal, hsealed, hactive, hthreads, hfs, hpage⟩ := onePage_sealed
  obtain ⟨hopen, -, hfirst⟩ := hpage 0x36f00000000 (by decide) (by decide)
  obtain ⟨-, -, hsecond⟩ := hpage 0x36f00000001 (by decide) (by decide)
  obtain ⟨b, hwrite, -⟩ := hopen.guestWrite 7
  have hs1 : s₀.threads.activeTid = 1 := by
    rw [hthreads]
    rfl
  have hspells : Spells blockMemory s₀.block (ascii "f") 0x36f00000000 :=
    ⟨by decide, exec_guestRead hfirst, exec_guestRead hsecond⟩
  have hmounted : (s₀.mount (ascii "f") [7, 8] false).2.fs = (Fs.new.mount (ascii "f") [7, 8] false).2 := by
    unfold Host.mount
    rw [hfs]
  have hopened := dispatch_open (k := (s₀.mount (ascii "f") [7, 8] false).2.toKernel)
    (s := ⟨2, 0x36f00000000, 0, 0, 0, 0⟩) (fun _ => 0) rfl hspells (by rw [hmounted]; decide) (by rw [hmounted]; decide)
  rw [hmounted] at hopened
  have hread := dispatch_read (k := { s₀.toKernel with fs := oneFile }) (s := ⟨0, 3, 0x36f00000000, 1, 0, 0⟩)
    (fun _ => 0) rfl (exec_bind_ok (exec_guestWrite hwrite))
  have hmount : HostStep elf True s₀ (s₀.mount (ascii "f") [7, 8] false).2 := .mount trivial
  have hopening : HostStep elf True (s₀.mount (ascii "f") [7, 8] false).2 { s₀ with fs := oneFile } :=
    .guest hactive (exec_syscall hopened)
  have hlife : ReflTransGen (HostStep elf True) h₀ { s₀ with fs := oneFile } :=
    ((ReflTransGen.single (.sealHost hseal)).tail hmount).tail hopening
  have hreading : HostStep elf False { s₀ with fs := oneFile } { s₀ with fs := (oneFile.read 3 1).2.2, block := b } :=
    .guest hactive (exec_syscall hread)
  have hseeking : HostStep elf False { s₀ with fs := (oneFile.read 3 1).2.2, block := b }
      { s₀ with fs := ((oneFile.read 3 1).2.2.seek 3 0 0).2, block := b } :=
    .guest (x := .syscall ⟨8, 3, 0, 0, 0, 0⟩ fun _ => 0) hactive rfl
  have hro : ∀ f ∈ oneFile.files, f.writable = false := by decide
  have hbefore : oneFile.replies [.read 3 1] = .ok [⟨1, [7]⟩] := rfl
  have hafter : (oneFile.read 3 1).2.2.replies [.read 3 1] = .ok [⟨1, [8]⟩] := rfl
  have hhandles : ((oneFile.read 3 1).2.2.seek 3 0 0).2.handles = oneFile.handles := rfl
  have hwritable : ∃ f ∈ (oneFile.mount (ascii "g") [] true).2.files, f.writable = true := by decide
  exact ⟨_, elf, h₀, _, _, _, hmade, hlife, hsealed, hs1, hreading, hseeking, hs1, hro, hbefore, hafter, hhandles,
    hwritable⟩

/-- After the load a guest that has read one byte gets the second one, not the first; and a host with a
writable file can be saved. -/
theorem position_not_covered : ∃ (tpl : LayoutTemplate) (elf : Elf) (h₀ s s' t r r' : Host) (w' v' : Sink),
    hostNew onePageImage tpl = .ok (.inr (h₀, elf)) ∧ ReflTransGen (HostStep elf True) h₀ s ∧ s.sealed = true ∧
    s.threads.activeTid = 1 ∧ s.saveState .accepting = .ok (0, none, s', w') ∧ ReflTransGen (HostStep elf False) s t ∧
    s.fs.ReadOnly ∧ ¬ s.CoversFiles t w'.out ∧ HostStep elf True s r ∧ (∃ f ∈ r.fs.files, f.writable = true) ∧
    r.saveState .accepting = .ok (0, none, r', v') := by
  obtain ⟨tpl, elf, h₀, s, t, u, hmade, hlife, hsealed, hs1, hst, -, ht1, hro, hbefore, hafter, -, hwritable⟩ :=
    oneFile_runs
  obtain ⟨hos, base, hs⟩ := life_sealed hmade hlife hsealed
  obtain ⟨hot, ht, hk⟩ := SealedOn.run hos hs (.single hst)
  obtain ⟨s', w', hsave, hout⟩ := saveState_accepting hos hs hs1
  have hmount : HostStep elf True s (s.mount (ascii "g") [] true).2 := .mount trivial
  obtain ⟨r', v', hsaveR, -⟩ := saveState_accepting (hos.step hmount) (SealedOn.step hos hs hmount).1 hs1
  refine ⟨tpl, elf, h₀, s, s', t, _, r', w', v', hmade, hlife, hsealed, hs1, hsave, .single hst, hro, ?_, hmount,
    hwritable, hsaveR⟩
  rintro ⟨-, hcovers⟩
  obtain ⟨src, t', src', hsrc, hload⟩ := loadState_saved hos hot hs ht hk ht1
  have hsame := hcovers _ _ _ _ (hsrc.trans hout.symm) hload [.read 3 1]
  rw [loadState_fs hot hload, hbefore, hafter] at hsame
  cases hsame

theorem files_covered_rewound : ∃ (tpl : LayoutTemplate) (elf : Elf) (h₀ s s' t u : Host) (w' : Sink),
    hostNew onePageImage tpl = .ok (.inr (h₀, elf)) ∧ ReflTransGen (HostStep elf True) h₀ s ∧ s.sealed = true ∧
    s.saveState .accepting = .ok (0, none, s', w') ∧ HostStep elf False s t ∧ HostStep elf False t u ∧
    t.fs ≠ s.fs ∧ s.CoversFiles u w'.out := by
  obtain ⟨tpl, elf, h₀, s, t, u, hmade, hlife, hsealed, hs1, hst, htu, ht1, hro, hbefore, hafter, hhandles, -⟩ :=
    oneFile_runs
  obtain ⟨hos, base, hs⟩ := life_sealed hmade hlife hsealed
  obtain ⟨s', w', hsave, hout⟩ := saveState_accepting hos hs hs1
  refine ⟨tpl, elf, h₀, s, s', t, u, w', hmade, hlife, hsealed, hsave, hst, htu, ?_, ?_⟩
  · intro heq
    rw [heq, hbefore] at hafter
    cases hafter
  · exact (files_covered_iff hmade hlife hsealed hs1 hsave rfl ((ReflTransGen.single hst).tail htu)).mpr
      ⟨hro, fun _ => hhandles⟩

end OneFile

end Host

end MiniBox
