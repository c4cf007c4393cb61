import MiniBox.ElfLoader
import MiniBox.SetupSpecs

namespace MiniBox

open ByteStream CheckedReads IndexLoops Outcomes

variable {b b' : Block} {addr : Range} {α : Type}

theorem exists_of_not_bounded (h : ¬ b.Bounded addr) : ∃ ps pc, b.validate addr = some (ps, pc) ∧ b.npages < ps + pc := by
  unfold Block.Bounded at h
  push Not at h
  exact h

theorem loop_error {ps pc : ℕ} (hv : b.validate addr = some (ps, pc)) (h : b.npages < ps + pc) (f : Page → Page)
    (t : ℕ → Page) : forRange b.npages Crash.outOfBounds f ps pc t = .error .outOfBounds :=
  forRange_error _ _ _ _ _ _ (validate_pos hv) h

theorem markInvisible_eq (hs : b.sealed = false) (hb : b.Bounded addr) :
    b.markInvisible addr = match b.validate addr with
      | none => .ok (-einval, b)
      | some (ps, pc) => .ok (0, b.mapPages ps pc fun p => b.sync (Block.hidePage p)) := by
  unfold Block.markInvisible
  rw [if_neg (by simp [hs])]
  cases hv : b.validate addr with
  | none => rfl
  | some q =>
    have hq := hb q.1 q.2 hv
    simp only [forRange_eq _ _ _ _ _ _ hq, ok_bind]
    change (b.mapPages q.1 q.2 Block.hidePage).refreshRange q.1 q.2 >>= _ = _
    rw [refreshRange_eq (b.mapPages q.1 q.2 Block.hidePage) q.1 q.2 hq, ok_bind]
    exact congrArg (fun c => Except.ok (0, c)) (mapPages_mapPages b q.1 q.2 Block.hidePage b.sync)

theorem markInvisible_error (hs : b.sealed = false) (hb : ¬ b.Bounded addr) :
    b.markInvisible addr = .error .outOfBounds := by
  obtain ⟨ps, pc, hv, hlt⟩ := exists_of_not_bounded hb
  unfold Block.markInvisible
  rw [if_neg (by simp [hs]), hv]
  simp only [loop_error hv hlt]
  rfl

theorem mmapFixed_error (prot : Prot) (hb : ¬ b.Bounded addr) : b.mmapFixed addr prot false = .error .outOfBounds := by
  obtain ⟨ps, pc, hv, hlt⟩ := exists_of_not_bounded hb
  unfold Block.mmapFixed Block.setProtections
  rw [hv]
  simp only [loop_error hv hlt, Bool.false_eq_true, ↓reduceIte, ok_bind]
  rfl

structure Block.SameFrame (b b' : Block) : Prop where
  addr : b'.addr = b.addr
  sealed : b'.sealed = b.sealed

theorem Block.SameFrame.trans {b'' : Block} (h : b.SameFrame b') (h' : b'.SameFrame b'') : b.SameFrame b'' :=
  ⟨h'.addr.trans h.addr, h'.sealed.trans h.sealed⟩

theorem Block.SameFrame.validate (h : b.SameFrame b') : b'.validate = b.validate := by
  funext r
  rw [Block.validate, Block.validate, h.addr]

theorem Block.SameFrame.bounded (h : b.SameFrame b') : b'.Bounded = b.Bounded := by
  funext r
  unfold Block.Bounded Block.npages
  rw [h.validate, h.addr]

theorem crashes_ne_outside (x : Except Crash α) : crashes x ≠ .error .outside := by
  cases x with
  | ok a => exact fun h => nomatch h
  | error c => exact fun h => nomatch h

theorem checks_crashes {x : Except Crash α} {L : Prop} {I : α → Prop} (hok : L → ∃ a, x = .ok a ∧ I a)
    (hbad : ¬ L → ∃ c, x = .error c) : Checks .outside (crashes x) True L I := by
  refine ⟨fun h => absurd trivial h, ?_, ?_⟩
  · intro _ hl
    obtain ⟨a, rfl, ha⟩ := hok hl
    exact ⟨a, rfl, ha⟩
  · intro _ hl
    obtain ⟨c, rfl⟩ := hbad hl
    exact ⟨.crash c, by simp, rfl⟩

theorem checks_markInvisible (hs : b.sealed = false) (addr : Range) :
    Checks .outside (crashes (b.markInvisible addr)) True (b.Bounded addr) fun u => b.SameFrame u.2 := by
  apply checks_crashes
  · intro hb
    have heq := markInvisible_eq hs hb
    cases hv : b.validate addr with
    | none =>
      rw [hv] at heq
      exact ⟨_, heq, ⟨rfl, rfl⟩⟩
    | some q =>
      rw [hv] at heq
      exact ⟨_, heq, ⟨rfl, rfl⟩⟩
  · intro hb
    exact ⟨_, markInvisible_error hs hb⟩

theorem checks_mmapFixed (addr : Range) (prot : Prot) :
    Checks .outside (crashes (b.mmapFixed addr prot false)) True (b.Bounded addr) fun u => b.SameFrame u.2 := by
  apply checks_crashes
  · intro hb
    have heq := mmapFixed_eq addr prot false hb
    cases hv : b.validate addr with
    | none =>
      rw [hv] at heq
      exact ⟨_, heq, ⟨rfl, rfl⟩⟩
    | some q =>
      rw [hv] at heq
      exact ⟨_, heq, ⟨rfl, rfl⟩⟩
  · intro hb
    exact ⟨_, mmapFixed_error prot hb⟩

theorem checks_mprotect (prot : Prot) (hb : b.Bounded addr) :
    Checks .outside (crashes (b.mprotect addr prot)) True True fun u => b.SameFrame u.2 := by
  apply checks_crashes
  · intro _
    have heq := mprotect_eq addr prot hb
    cases hv : b.validate addr with
    | none =>
      rw [hv] at heq
      exact ⟨_, heq, ⟨rfl, rfl⟩⟩
    | some q =>
      rw [hv] at heq
      dsimp only at heq
      split_ifs at heq with hf
      · exact ⟨_, heq, ⟨rfl, rfl⟩⟩
      · exact ⟨_, heq, ⟨rfl, rfl⟩⟩
  · intro h
    exact absurd trivial h

theorem checks_call {img : Image} {layout : Layout} {s : Loading} {c : SetupCall} {P L : Prop}
    (hs : b.SameFrame s.block)
    (h : Checks .outside (c.run img layout s.block) P L fun u => s.block.SameFrame u.2) :
    Checks .outside (s.call img layout c) P L fun t => b.SameFrame t.block :=
  h.andReturn fun _ hu => hs.trans hu

section Copy

variable (img : Image) (b : Block) (src start len : UInt64)

def Block.CopyInside : Prop :=
  ∀ ps pc, b.validate (Range.alignExpand ⟨start, len⟩) = some (ps, pc) → ps + pc ≤ b.npages → img.Has src len.toNat

def Block.CopyLands : Prop :=
  ∀ ps pc, b.validate (Range.alignExpand ⟨start, len⟩) = some (ps, pc) →
    ps + pc ≤ b.npages ∧ (start - b.addr.start).toNat + len.toNat ≤ b.npages * 4096

variable {b} in
theorem Block.SameFrame.copyInside (h : b.SameFrame b') :
    b'.CopyInside img src start len = b.CopyInside img src start len := by
  unfold Block.CopyInside Block.npages
  rw [h.validate, h.addr]

variable {b} in
theorem Block.SameFrame.copyLands (h : b.SameFrame b') : b'.CopyLands start len = b.CopyLands start len := by
  unfold Block.CopyLands Block.npages
  rw [h.validate, h.addr]

theorem length_slice (h : img.Has src len.toNat) : (img.slice src len).length = len.toNat := by
  unfold Image.Has at h
  simp only [Image.slice, List.length_take, List.length_drop]
  omega

theorem mirrorCopy_eq {off : ℕ} {l : List UInt8} (h : off + l.length ≤ b.npages * 4096) :
    b.mirrorCopy off l = .ok (b.withPages fun i => Block.copyInto off i l (b.pages i)) := if_pos h

theorem mirrorCopy_error {off : ℕ} {l : List UInt8} (h : ¬ off + l.length ≤ b.npages * 4096) :
    b.mirrorCopy off l = .error .outOfBounds := if_neg h

theorem copyFromImage_eq (hin : b.CopyInside img src start len) (hland : b.CopyLands start len) :
    b.copyFromImage img src start len = match b.validate (Range.alignExpand ⟨start, len⟩) with
      | none => .ok (-einval, b)
      | some (ps, pc) => .ok (0, b.withPages fun i =>
          Block.copyInto (start - b.addr.start).toNat i (img.slice src len) (mapRange Block.soil ps pc b.pages i)) := by
  unfold Block.copyFromImage
  cases hv : b.validate (Range.alignExpand ⟨start, len⟩) with
  | none => rfl
  | some q =>
    obtain ⟨hq, hfit⟩ := hland q.1 q.2 hv
    have hhas := hin q.1 q.2 hv hq
    rw [← length_slice img src len hhas] at hfit
    simp only [forRange_eq _ _ _ _ _ _ hq, crashes, ok_bind, Image.copy, if_pos hhas]
    rw [mirrorCopy_eq (b.withPages (mapRange Block.soil q.1 q.2 b.pages)) hfit]
    rfl

theorem checks_copyFromImage :
    Checks .outside (b.copyFromImage img src start len) (b.CopyInside img src start len) (b.CopyLands start len)
      fun u => b.SameFrame u.2 := by
  refine ⟨?_, ?_, ?_⟩
  · intro hin
    unfold Block.CopyInside at hin
    push Not at hin
    obtain ⟨ps, pc, hv, hq, hhas⟩ := hin
    unfold Block.copyFromImage
    rw [hv]
    simp only [forRange_eq _ _ _ _ _ _ hq, crashes, ok_bind, Image.copy, if_neg hhas]
    rfl
  · intro hin hland
    have heq := copyFromImage_eq img b src start len hin hland
    cases hv : b.validate (Range.alignExpand ⟨start, len⟩) with
    | none =>
      rw [hv] at heq
      exact ⟨_, heq, ⟨rfl, rfl⟩⟩
    | some q =>
      rw [hv] at heq
      exact ⟨_, heq, ⟨rfl, rfl⟩⟩
  · intro hin hland
    unfold Block.CopyLands at hland
    push Not at hland
    obtain ⟨ps, pc, hv, hfit⟩ := hland
    refine ⟨.crash .outOfBounds, by simp, ?_⟩
    unfold Block.copyFromImage
    rw [hv]
    by_cases hq : ps + pc ≤ b.npages
    · have hhas := hin ps pc hv hq
      have hout := not_le.mpr (hfit hq)
      rw [← length_slice img src len hhas] at hout
      simp only [forRange_eq _ _ _ _ _ _ hq, crashes, ok_bind, Image.copy, if_pos hhas]
      rw [mirrorCopy_error (b.withPages (mapRange Block.soil ps pc b.pages)) hout]
      rfl
    · simp only [loop_error hv (not_le.mp hq)]
      rfl

end Copy

section Calls

variable {img : Image} {layout : Layout} {rc : ℤ}

theorem copyFromImage_external {src start len : UInt64} (h : b.copyFromImage img src start len = .ok (rc, b')) :
    ∃ bytes, bytes.length = len.toNat ∧ b.copyFromExternal bytes start = .ok (rc, b') := by
  unfold Block.copyFromImage at h
  cases hv : b.validate (Range.alignExpand ⟨start, len⟩) with
  | none =>
    rw [hv] at h
    refine ⟨List.replicate len.toNat 0, List.length_replicate, ?_⟩
    unfold Block.copyFromExternal
    rw [List.length_replicate, UInt64.ofNat_toNat, hv]
    cases h
    rfl
  | some q =>
    rw [hv] at h
    obtain ⟨pages, hp, h⟩ := bind_ok h
    obtain ⟨bytes, hbytes, h⟩ := bind_ok h
    unfold Image.copy at hbytes
    split_ifs at hbytes with hhas
    cases hbytes
    obtain ⟨c, hc, h⟩ := bind_ok h
    cases h
    have hlen := length_slice img src len hhas
    refine ⟨_, hlen, ?_⟩
    unfold Block.copyFromExternal
    rw [hlen, UInt64.ofNat_toNat, hv]
    change forRange _ _ _ _ _ _ >>= _ = _
    rw [crashes_ok hp, ok_bind, crashes_ok hc]
    rfl

inductive SetupMove (b : Block) (rc : ℤ) (b' : Block) : Prop
  | memory {op : MemOp} : op.run b = .ok (rc, b') → SetupMove b rc b'
  | hide {addr : Range} : b.markInvisible addr = .ok (rc, b') → SetupMove b rc b'
  | copy {bytes : List UInt8} {start : UInt64} : b.copyFromExternal bytes start = .ok (rc, b') → SetupMove b rc b'

theorem SetupCall.move {c : SetupCall} (h : c.run img layout b = .ok (rc, b')) : SetupMove b rc b' := by
  cases c with
  | markInvisible addr => exact .hide (crashes_ok h)
  | mmapFixed addr prot noReplace =>
    have hrun : (MemOp.mmapFixed addr prot noReplace).run b = .ok (rc, b') := crashes_ok h
    exact .memory hrun
  | copyImage src start len =>
    obtain ⟨bytes, -, hcopy⟩ := copyFromImage_external h
    exact .copy hcopy
  | copyLayout start => exact .copy (crashes_ok h)
  | mprotect addr prot =>
    have hrun : (MemOp.mprotect addr prot).run b = .ok (rc, b') := crashes_ok h
    exact .memory hrun

variable {P : Block → Prop} (hP : ∀ b rc b', SetupMove b rc b' → P b → P b')

include hP

theorem call_keeps {s s' : Loading} {c : SetupCall} (hs : P s.block) (h : s.call img layout c = .ok s') : P s'.block := by
  obtain ⟨⟨rc, b'⟩, hrun, h⟩ := bind_ok h
  cases h
  exact hP _ _ _ (SetupCall.move hrun) hs

theorem loadSegment_keeps {s s' : Loading} {i : ℕ} (hs : P s.block) (h : s.loadSegment img layout i = .ok s') :
    P s'.block := by
  unfold Loading.loadSegment at h
  obtain ⟨ph, -, h⟩ := bind_ok h
  obtain ⟨type, -, h⟩ := bind_ok h
  split_ifs at h
  · cases h
    exact hs
  obtain ⟨vaddr, -, h⟩ := bind_ok h
  split_ifs at h
  · cases h
    exact hs
  obtain ⟨memsz, -, h⟩ := bind_ok h
  dsimp only at h
  split_ifs at h
  · cases h
    exact hs
  obtain ⟨flags, -, h⟩ := bind_ok h
  obtain ⟨s₁, h₁, h⟩ := bind_ok h
  have hs₁ := call_keeps hP hs h₁
  obtain ⟨filesz, -, h⟩ := bind_ok h
  split_ifs at h
  · obtain ⟨offset, -, h⟩ := bind_ok h
    obtain ⟨s₂, h₂, h⟩ := bind_ok h
    exact call_keeps hP (call_keeps hP hs₁ h₂) h
  · exact call_keeps hP hs₁ h

theorem addStack_keeps {s s' : Loading} {stack : Range} (hs : P s.block) (h : s.addStack img layout stack = .ok s') :
    P s'.block := by
  obtain ⟨s₁, h₁, h⟩ := bind_ok h
  obtain ⟨s₂, h₂, h⟩ := bind_ok h
  exact call_keeps hP (call_keeps hP (call_keeps hP hs h₁) h₂) h

theorem segments_keep {s s' : Loading} {is : List ℕ} (hs : P s.block)
    (h : is.foldlM (Loading.loadSegment img layout) s = .ok s') : P s'.block := by
  induction is generalizing s with
  | nil =>
    cases h
    exact hs
  | cons i is ih =>
    obtain ⟨s₁, h₁, h⟩ := bind_ok h
    exact ih (loadSegment_keeps hP hs h₁) h

theorem hideInvis_keeps {s s' : Loading} {sections : List SectionInfo} (hs : P s.block)
    (h : s.hideInvis img layout sections = .ok (.inr s')) : P s'.block := by
  unfold Loading.hideInvis at h
  split at h
  · cases h
    exact hs
  · split at h
    · cases h
    · obtain ⟨s₁, h₁, h⟩ := bind_ok h
      cases h
      exact call_keeps hP hs h₁

theorem fillInfo_keeps {s s' : Loading} {infoArea : Range} (hs : P s.block)
    (h : s.fillInfo img layout infoArea = .ok (.inr s')) : P s'.block := by
  unfold Loading.fillInfo at h
  split_ifs at h
  · cases h
  · obtain ⟨s₁, h₁, h⟩ := bind_ok h
    cases h
    exact call_keeps hP hs h₁
  · cases h
    exact hs

theorem elfLoad_keeps {elf : Elf} {s : Loading} (hb : P b) (h : elfLoad img layout b = .ok (.inr (elf, s))) :
    P s.block := by
  unfold elfLoad at h
  split_ifs at h
  · cases h
  obtain ⟨entry, -, h⟩ := bind_ok h
  obtain ⟨table, -, h⟩ := bind_ok h
  obtain ⟨symbols, -, h⟩ := bind_ok h
  obtain ⟨hidden, h₀, h⟩ := bind_ok h
  cases hidden with
  | inl message => cases h
  | inr s₀ =>
    have hs₀ := hideInvis_keeps hP (s := ⟨b, []⟩) hb h₀
    obtain ⟨s₁, h₁, h⟩ := bind_ok h
    have hs₁ := call_keeps hP hs₀ h₁
    obtain ⟨phnum, -, h⟩ := bind_ok h
    obtain ⟨s₂, h₂, h⟩ := bind_ok h
    have hs₂ := segments_keep hP hs₁ h₂
    obtain ⟨filled, h₃, h⟩ := bind_ok h
    cases filled with
    | inl message => cases h
    | inr s₃ =>
      have hs₃ := fillInfo_keeps hP hs₂ h₃
      obtain ⟨s₄, h₄, h⟩ := bind_ok h
      obtain ⟨s₅, h₅, h⟩ := bind_ok h
      cases h
      exact addStack_keeps hP (addStack_keeps hP hs₃ h₄) h₅

end Calls

end MiniBox
