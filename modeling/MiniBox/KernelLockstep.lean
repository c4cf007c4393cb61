import MiniBox.GuestRuns
import MiniBox.ThreadLockstep

namespace MiniBox

open ByteStream Effects Relational

variable {M N : Type} {R : M → N → Prop} {E : M → Prop} {mem : GuestMemory M} {mem' : GuestMemory N}

structure Kernel.Twin (files : Prop) (k k' : Kernel) : Prop where
  programBreak : k.programBreak = k'.programBreak
  layout : k.layout = k'.layout
  context : k.context = k'.context
  threads : k.threads.Twin k'.threads
  fs : files → k.fs = k'.fs

theorem Kernel.Twin.refl (files : Prop) (k : Kernel) : Kernel.Twin files k k := ⟨rfl, rfl, rfl, .refl _, fun _ => rfl⟩

def SyscallName.isFile : SyscallName → Bool
  | .file _ => true
  | _ => false

def Syscall.isFile (s : Syscall) : Bool := (SyscallName.ofNumber s.nr).any SyscallName.isFile

section Dispatch

variable {files : Prop} {k k' : Kernel} (h : Related R E mem mem') (hk : k.Twin files k') (s : Syscall)

def Kernel.Answers (files : Prop) {α : Type} (x y : α × Kernel) : Prop := x.1 = y.1 ∧ x.2.Twin files y.2

theorem Kernel.Answers.refl {α : Type} (x : α × Kernel) : Kernel.Answers files x x := ⟨rfl, .refl _ _⟩

theorem Kernel.Answers.total {α : Type} (x : α × Kernel) : ∃ y, Kernel.Answers files x y := ⟨x, .refl x⟩

include h in
theorem lock_memorySyscalls :
    Lock R E Eq (k.mmap mem s) (k.mmap mem' s) ∧ Lock R E Eq (Kernel.mremap mem s) (Kernel.mremap mem' s) ∧
    Lock R E Eq (Kernel.mprotect mem s) (Kernel.mprotect mem' s) ∧
    Lock R E Eq (Kernel.munmap mem s) (Kernel.munmap mem' s) ∧
    Lock R E Eq (Kernel.madvise mem s) (Kernel.madvise mem' s) ∧
    Lock R E Eq (k.brk mem s) (k.brk mem' s) := by
  have hop : ∀ op (f : ℤ → UInt64), Lock R E Eq (mem.memOp op >>= fun r => pure (f r))
      (mem'.memOp op >>= fun r => pure (f r)) := by
    intro op f
    apply lock_seq (h.memOp op)
    intro r
    exact lock_pure rfl
  refine ⟨?_, hop _ _, ?_, hop _ _, ?_, ?_⟩
  · unfold Kernel.mmap
    cases argToProt s.a3 with
    | none => exact lock_pure rfl
    | some prot =>
      dsimp only
      split_ifs
      · exact lock_pure rfl
      · exact lock_pure rfl
      · exact lock_pure rfl
      · exact hop _ _
      · exact hop _ _
  · unfold Kernel.mprotect
    cases argToProt s.a3 with
    | none => exact lock_pure rfl
    | some prot => exact hop _ _
  · unfold Kernel.madvise
    split_ifs
    · exact hop _ _
    · exact lock_pure rfl
  · unfold Kernel.brk
    split_ifs
    · exact lock_pure rfl
    · exact lock_pure rfl
    · exact lock_pure rfl
    · exact hop _ _
    · exact lock_pure rfl

include hk in
theorem lock_plainly {x : Guest M UInt64} {y : Guest N UInt64} (hxy : Lock R E Eq x y) :
    Lock R E (Kernel.Answers files) (k.plainly x) (k'.plainly y) :=
  lock_seq hxy fun _ => lock_pure ⟨rfl, hk⟩

include h hk in
theorem lock_kernelThreadOp (op : ThreadOp) :
    Lock R E (Kernel.Answers files) (k.threadOp mem op) (k'.threadOp mem' op) := by
  unfold Kernel.threadOp
  rw [← hk.context]
  apply lock_bind (fun a => ⟨a, ThreadSet.Alike.refl a⟩) (lock_threadOp h hk.threads k.context op)
  rintro ⟨r, t, c⟩ ⟨r', t', c'⟩ ⟨hr, ht, hc⟩
  dsimp only at hr ht hc
  subst hr hc
  exact lock_pure ⟨rfl, hk.programBreak, hk.layout, rfl, ht, hk.fs⟩

section Files

variable (hf : files)

include h in
theorem lock_sameString (name : List UInt8) (a : UInt64) :
    Lock R E Eq (Kernel.sameString mem name a) (Kernel.sameString mem' name a) := by
  induction name generalizing a with
  | nil => exact lock_seq (h.read a) fun _ => lock_pure rfl
  | cons c cs ih =>
    apply lock_seq (h.read a)
    intro v
    split_ifs
    · exact ih (a + 1)
    · exact lock_pure rfl

include h in
theorem lock_findName (files : List MountedFile) (a : UInt64) :
    Lock R E Eq (Kernel.findName mem files a) (Kernel.findName mem' files a) := by
  induction files with
  | nil => exact lock_pure rfl
  | cons f files ih =>
    apply lock_seq (lock_sameString h f.name a)
    intro found
    split_ifs
    · exact lock_pure rfl
    · exact ih

theorem Kernel.Twin.withFs (hk : k.Twin files k') (fs : Fs) :
    Kernel.Twin files { k with fs := fs } { k' with fs := fs } :=
  ⟨hk.programBreak, hk.layout, hk.context, hk.threads, fun _ => rfl⟩

include h hk hf

theorem lock_withName (a : UInt64) {f : List UInt8 → Guest M (UInt64 × Kernel)}
    {g : List UInt8 → Guest N (UInt64 × Kernel)} (hfg : ∀ name, Lock R E (Kernel.Answers files) (f name) (g name)) :
    Lock R E (Kernel.Answers files) (k.withName mem a f) (k'.withName mem' a g) := by
  unfold Kernel.withName
  rw [← hk.fs hf]
  apply lock_seq (lock_findName h _ a)
  intro found
  cases found with
  | none => exact lock_pure ⟨rfl, hk⟩
  | some name => exact hfg name

theorem lock_readFile (fd : ℤ) (base len : UInt64) :
    Lock R E (Kernel.Answers files) (k.readFile mem fd base len) (k'.readFile mem' fd base len) := by
  unfold Kernel.readFile
  rw [← hk.fs hf]
  apply lock_seq (h.writeBytes _ _)
  intro
  exact lock_pure ⟨rfl, hk.withFs _⟩

theorem lock_writeFile (fd : ℤ) (base len : UInt64) :
    Lock R E (Kernel.Answers files) (k.writeFile mem fd base len) (k'.writeFile mem' fd base len) := by
  unfold Kernel.writeFile
  rw [← hk.fs hf]
  cases k.fs.writeCode fd with
  | some r => exact lock_pure ⟨rfl, hk⟩
  | none =>
    apply lock_seq (h.readBytes _ _)
    intro buf
    apply lock_seq (lock_lift (sameOutcome_refl (fun _ => rfl) _))
    rintro ⟨r, fs⟩
    exact lock_pure ⟨rfl, hk.withFs _⟩

omit hk hf in
theorem lock_iovLoop {f : Kernel → UInt64 → UInt64 → Guest M (ℤ × Kernel)}
    {g : Kernel → UInt64 → UInt64 → Guest N (ℤ × Kernel)}
    (hfg : ∀ k k' : Kernel, k.Twin files k' → ∀ base len, Lock R E (Kernel.Answers files) (f k base len) (g k' base len))
    (n : ℕ) (a : UInt64) (total : ℤ) (hk : k.Twin files k') :
    Lock R E (Kernel.Answers files) (Kernel.iovLoop mem f n a total k) (Kernel.iovLoop mem' g n a total k') := by
  induction n generalizing a total k k' with
  | zero => exact lock_pure ⟨rfl, hk⟩
  | succ n ih =>
    apply lock_seq (h.load64 a)
    intro base
    split_ifs
    · exact ih (a + 16) total hk
    · apply lock_seq (h.load64 (a + 8))
      intro len
      apply lock_bind Kernel.Answers.total (hfg k k' hk base len)
      rintro ⟨r, k₁⟩ ⟨r', k₁'⟩ ⟨hr, h₁⟩
      dsimp only at hr h₁
      subst hr
      dsimp only
      split_ifs
      · exact lock_pure ⟨rfl, h₁⟩
      · exact ih (a + 16) (total + r) h₁

theorem lock_fileSyscall (junk : ℕ → UInt8) (f : FileSyscall) :
    Lock R E (Kernel.Answers files) (k.fileSyscall mem s junk f) (k'.fileSyscall mem' s junk f) := by
  have hfs := hk.fs hf
  cases f with
  | «open» =>
    apply lock_withName h hk hf
    intro name
    rw [hfs]
    exact lock_pure ⟨rfl, hk.withFs _⟩
  | close =>
    unfold Kernel.fileSyscall
    rw [hfs]
    exact lock_pure ⟨rfl, hk.withFs _⟩
  | read =>
    apply lock_bind Kernel.Answers.total (lock_readFile h hk hf _ _ _)
    rintro ⟨r, k₁⟩ ⟨r', k₁'⟩ ⟨rfl, h₁⟩
    exact lock_pure ⟨rfl, h₁⟩
  | write =>
    apply lock_bind Kernel.Answers.total (lock_writeFile h hk hf _ _ _)
    rintro ⟨r, k₁⟩ ⟨r', k₁'⟩ ⟨rfl, h₁⟩
    exact lock_pure ⟨rfl, h₁⟩
  | readv => exact lock_iovLoop h (fun k k' hk base len => lock_readFile h hk hf _ base len) _ _ _ hk
  | writev => exact lock_iovLoop h (fun k k' hk base len => lock_writeFile h hk hf _ base len) _ _ _ hk
  | lseek =>
    unfold Kernel.fileSyscall
    rw [hfs]
    exact lock_pure ⟨rfl, hk.withFs _⟩
  | stat =>
    apply lock_withName h hk hf
    intro name
    rw [hfs]
    apply lock_seq (h.writeBytes _ _)
    intro
    exact lock_pure ⟨rfl, hk⟩
  | fstat =>
    unfold Kernel.fileSyscall
    rw [hfs]
    apply lock_seq (h.writeBytes _ _)
    intro
    exact lock_pure ⟨rfl, hk⟩
  | truncate =>
    apply lock_withName h hk hf
    intro name
    rw [hfs]
    exact lock_pure ⟨rfl, hk.withFs _⟩
  | ftruncate =>
    unfold Kernel.fileSyscall
    rw [hfs]
    exact lock_pure ⟨rfl, hk.withFs _⟩

end Files

include h hk

theorem lock_dispatch (junk : ℕ → UInt8) (hs : files ∨ s.isFile = false) :
    Lock R E (Kernel.Answers files) (k.dispatch mem s junk) (k'.dispatch mem' s junk) := by
  obtain ⟨hmmap, hmremap, hmprotect, hmunmap, hmadvise, hbrk⟩ := lock_memorySyscalls (k := k) h s
  have hthread := lock_kernelThreadOp h hk
  unfold Kernel.dispatch
  unfold Syscall.isFile at hs
  cases hn : SyscallName.ofNumber s.nr with
  | none => exact lock_throw _
  | some name =>
    rw [hn] at hs
    cases name with
    | file f =>
      rcases hs with hf | hs
      · exact lock_fileSyscall h hk s hf junk f
      · simp [SyscallName.isFile] at hs
    | mmap =>
      have hsame : k'.mmap mem' s = k.mmap mem' s := by
        unfold Kernel.mmap
        rw [hk.layout]
      dsimp only
      rw [hsame]
      exact lock_plainly hk hmmap
    | mremap => exact lock_plainly hk hmremap
    | mprotect => exact lock_plainly hk hmprotect
    | munmap => exact lock_plainly hk hmunmap
    | madvise => exact lock_plainly hk hmadvise
    | brk =>
      have hsame : k'.brk mem' s = k.brk mem' s := by
        unfold Kernel.brk
        rw [hk.layout, hk.programBreak]
      dsimp only
      rw [hsame]
      apply lock_seq hbrk
      intro res
      exact lock_pure ⟨rfl, rfl, hk.layout, hk.context, hk.threads, hk.fs⟩
    | clockGettime =>
      apply lock_seq (h.store64 _ _)
      intro
      apply lock_seq (h.store64 _ _)
      intro
      exact lock_pure ⟨rfl, hk⟩
    | gettid =>
      have hsame : k'.threads.getTid = k.threads.getTid := hk.threads.activeTid
      dsimp only
      rw [hsame]
      exact lock_pure ⟨rfl, hk⟩
    | futex =>
      dsimp only
      cases Kernel.futexOp s with
      | none => exact lock_pure ⟨rfl, hk⟩
      | some op => exact hthread op
    | setTidAddress => exact hthread _
    | schedYield => exact hthread _
    | nanosleep => exact hthread _
    | clockNanosleep => exact hthread _
    | wbxClone => exact hthread _
    | exit => exact hthread _
    | rtSigprocmask => exact lock_pure ⟨rfl, hk⟩
    | ioctl => exact lock_pure ⟨rfl, hk⟩
    | setThreadArea => exact lock_pure ⟨rfl, hk⟩
    | getpid => exact lock_pure ⟨rfl, hk⟩
    | getppid => exact lock_pure ⟨rfl, hk⟩

def GuestStep.noFile : GuestStep → Bool
  | .syscall s _ => !s.isFile
  | _ => true

theorem lock_guestStep (x : GuestStep) (hx : files ∨ x.noFile = true) :
    Lock R E (Kernel.Answers files) (k.guestStep mem x) (k'.guestStep mem' x) := by
  cases x with
  | read a => exact lock_seq (h.read a) fun _ => lock_pure ⟨rfl, hk⟩
  | write a v => exact lock_seq (h.write a v) fun _ => lock_pure ⟨rfl, hk⟩
  | fetch a => exact lock_seq (h.fetch a) fun _ => lock_pure ⟨rfl, hk⟩
  | setRegs c => exact lock_pure ⟨rfl, hk.programBreak, hk.layout, rfl, hk.threads, hk.fs⟩
  | syscall s junk =>
    have hs : files ∨ s.isFile = false := hx.imp_right fun h => by simpa [GuestStep.noFile] using h
    apply lock_bind Kernel.Answers.total (lock_dispatch h hk s junk hs)
    rintro ⟨rax, k₁⟩ ⟨rax', k₁'⟩ ⟨hr, h₁⟩
    dsimp only at hr h₁
    subst hr
    refine lock_pure ⟨?_, h₁⟩
    have ht : k₁'.threads.getTid = k₁.threads.getTid := h₁.threads.activeTid
    simp only [h₁.context, ht]

end Dispatch

section Machines

def Side (files : Prop) (R : M → N → Prop) (x : Option Kernel × M) (y : Option Kernel × N) : Prop :=
  Option.Rel (Kernel.Twin files) x.1 y.1 ∧ R x.2 y.2

variable {files : Prop} (h : Related R E mem mem')

include h

theorem next_stay (x : GuestStep) (s : Option Kernel × M) (hx : files ∨ x.noFile = true) (he : E s.2) :
    E (mem.next s x).2.2 := by
  obtain ⟨_ | k, m⟩ := s
  · exact he
  · have hstay := (lock_guestStep h (Kernel.Twin.refl files k) x hx).stay m he
    unfold GuestMemory.next
    rcases hr : exec (k.guestStep mem x) m with ⟨_ | ⟨o, k'⟩, m'⟩ <;> simp only [hr] at hstay ⊢ <;> exact hstay

theorem next_agree (x : GuestStep) {s : Option Kernel × M} {t : Option Kernel × N} (hx : files ∨ x.noFile = true)
    (hst : Side files R s t) :
    E (mem.next s x).2.2 ∨
      (mem.next s x).1 = (mem'.next t x).1 ∧ Side files R (mem.next s x).2 (mem'.next t x).2 := by
  obtain ⟨_ | k, m⟩ := s
  · obtain ⟨_ | k', m'⟩ := t
    · exact .inr ⟨rfl, hst⟩
    · cases hst.1
  · obtain ⟨_ | k', m'⟩ := t
    · cases hst.1
    · obtain ⟨⟨hk⟩, hm⟩ := hst
      have hagree := (lock_guestStep h hk x hx).agree m m' hm
      unfold GuestMemory.next
      rcases hr : exec (k.guestStep mem x) m with ⟨_ | ⟨o, k₁⟩, m₁⟩ <;>
        rcases hr' : exec (k'.guestStep mem' x) m' with ⟨_ | ⟨o', k₁'⟩, m₁'⟩ <;>
        simp only [hr, hr', SameOutcome, false_and, or_false] at hagree ⊢
      · exact hagree.imp_right fun h => ⟨by rw [h.1], .none, h.2⟩
      · exact .inl hagree
      · exact .inl hagree
      · exact hagree.imp_right fun h => ⟨h.1.1, .some h.1.2, h.2⟩

theorem outputs_related {s : Option Kernel × M} {t : Option Kernel × N} (hst : Side files R s t)
    {steps : List GuestStep} (hx : ∀ x ∈ steps, files ∨ x.noFile = true) (he : ¬ E (Runs.final mem.next s steps).2) :
    Runs.outputs mem.next s steps = Runs.outputs mem'.next t steps :=
  Runs.outputs_eq_unless (R := Side files R) (E := fun s => E s.2) (fun _ _ x hst hx => next_agree h x hx hst)
    (fun s x hx he => next_stay h x s hx he) hst hx he

end Machines

end MiniBox
