import MiniBox.GuestRuns
import MiniBox.ThreadSteps

namespace MiniBox

open Effects Relation

def Fs.Step (fs fs' : Fs) : Prop := ∃ c r, fs.call c = .ok (r, fs')

namespace Kernel

variable {M : Type} {mem : GuestMemory M} {k k' : Kernel} {s : Syscall} {junk : ℕ → UInt8}

section Files

def Filed (k k' : Kernel) : Prop := ∃ fs, ReflTransGen Fs.Step k.fs fs ∧ k' = { k with fs }

theorem Filed.refl (k : Kernel) : k.Filed k := ⟨k.fs, .refl, rfl⟩

theorem Filed.trans {k'' : Kernel} (h : k.Filed k') (h' : k'.Filed k'') : k.Filed k'' := by
  obtain ⟨fs, hfs, rfl⟩ := h
  obtain ⟨fs', hfs', rfl⟩ := h'
  exact ⟨fs', hfs.trans hfs', rfl⟩

theorem filed_call {c : FsCall} {r : FsReply} {fs : Fs} (h : k.fs.call c = .ok (r, fs)) : k.Filed { k with fs } :=
  ⟨fs, .single ⟨c, r, h⟩, rfl⟩

theorem filed_readFile (fd : ℤ) (base len : UInt64) : Ensures (k.readFile mem fd base len) fun p => k.Filed p.2 := by
  unfold readFile
  apply ensures_seq
  intro _
  exact ensures_pure (filed_call (c := .read fd len.toNat) rfl)

theorem filed_writeFile (fd : ℤ) (base len : UInt64) :
    Ensures (k.writeFile mem fd base len) fun p => k.Filed p.2 := by
  unfold writeFile
  cases k.fs.writeCode fd with
  | some r => exact ensures_pure (Filed.refl k)
  | none =>
    apply ensures_seq
    intro buf
    apply ensures_bind (ensures_lift fun _ h => h)
    rintro ⟨r, fs⟩ hw
    apply ensures_pure
    apply filed_call (c := .write fd buf) (r := ⟨r, []⟩)
    change k.fs.write fd buf >>= _ = _
    rw [hw]
    rfl

theorem filed_withName {a : UInt64} {call : List UInt8 → Guest M (UInt64 × Kernel)}
    (h : ∀ name, Ensures (call name) fun p => k.Filed p.2) :
    Ensures (k.withName mem a call) fun p => k.Filed p.2 := by
  apply ensures_seq
  intro found
  cases found with
  | none => exact ensures_pure (Filed.refl k)
  | some name => exact h name

theorem filed_iovLoop {call : Kernel → UInt64 → UInt64 → Guest M (ℤ × Kernel)}
    (h : ∀ k base len, Ensures (call k base len) fun p => k.Filed p.2) (n : ℕ) (a : UInt64) (total : ℤ) :
    Ensures (iovLoop mem call n a total k) fun p => k.Filed p.2 := by
  induction n generalizing a total k with
  | zero => exact ensures_pure (Filed.refl k)
  | succ n ih =>
    apply ensures_seq
    intro base
    split_ifs
    · exact ih _ _
    · apply ensures_seq
      intro len
      apply ensures_bind (h k base len)
      rintro ⟨r, k₁⟩ h₁
      dsimp only
      split_ifs
      · exact ensures_pure h₁
      · exact ensures_mono (ih _ _) fun p hp => h₁.trans hp

theorem filed_fileSyscall (f : FileSyscall) : Ensures (k.fileSyscall mem s junk f) fun p => k.Filed p.2 := by
  cases f with
  | «open» => exact filed_withName fun name => ensures_pure (filed_call (c := .open name s.a2.toUInt32) rfl)
  | close => exact ensures_pure (filed_call (c := .close (cint s.a1)) rfl)
  | read =>
    apply ensures_bind (filed_readFile (cint s.a1) s.a2 s.a3)
    rintro ⟨r, k₁⟩ h₁
    exact ensures_pure h₁
  | write =>
    apply ensures_bind (filed_writeFile (cint s.a1) s.a2 s.a3)
    rintro ⟨r, k₁⟩ h₁
    exact ensures_pure h₁
  | readv => exact filed_iovLoop (fun k => filed_readFile (cint s.a1)) _ _ _
  | writev => exact filed_iovLoop (fun k => filed_writeFile (cint s.a1)) _ _ _
  | lseek => exact ensures_pure (filed_call (c := .seek (cint s.a1) (sword s.a2) (cint s.a3)) rfl)
  | stat =>
    apply filed_withName
    intro name
    apply ensures_seq
    intro _
    exact ensures_pure (Filed.refl k)
  | fstat =>
    apply ensures_seq
    intro _
    exact ensures_pure (Filed.refl k)
  | truncate =>
    exact filed_withName fun name => ensures_pure (filed_call (c := .truncateName junk name (sword s.a2)) rfl)
  | ftruncate => exact ensures_pure (filed_call (c := .truncateFd junk (cint s.a1) (sword s.a2)) rfl)

end Files

section Break

structure BrkGrows (k : Kernel) (a : UInt64) : Prop where
  aligned : a = alignDown a
  start_le : k.layout.sbrk.start ≤ a
  le_end : a ≤ k.layout.sbrk.rangeEnd
  above : k.programBreak < a

theorem brk_cases (k : Kernel) (mem : GuestMemory M) (s : Syscall) :
    ¬ k.BrkGrows s.a1 ∧ k.brk mem s = pure k.programBreak ∨
      k.BrkGrows s.a1 ∧ k.brk mem s = (do
        let _ ← mem.memOp (.mmapFixed ⟨k.programBreak, s.a1 - k.programBreak⟩ .rw true)
        return s.a1) := by
  unfold brk
  by_cases h1 : s.a1 ≠ alignDown s.a1
  · rw [if_pos h1]
    exact Or.inl ⟨fun h => h1 h.aligned, rfl⟩
  rw [if_neg h1]
  by_cases h2 : s.a1 < k.layout.sbrk.start
  · rw [if_pos h2]
    exact Or.inl ⟨fun h => UInt64.not_lt.mpr h.start_le h2, rfl⟩
  rw [if_neg h2]
  by_cases h3 : s.a1 > k.layout.sbrk.rangeEnd
  · rw [if_pos h3]
    exact Or.inl ⟨fun h => UInt64.not_lt.mpr h.le_end h3, rfl⟩
  rw [if_neg h3]
  by_cases h4 : s.a1 > k.programBreak
  · rw [if_pos h4]
    exact Or.inr ⟨⟨not_not.mp h1, UInt64.not_lt.mp h2, UInt64.not_lt.mp h3, h4⟩, rfl⟩
  · rw [if_neg h4]
    exact Or.inl ⟨fun h => h4 h.above, rfl⟩

end Break

inductive Step (k : Kernel) : Kernel → Prop
  | files {k' : Kernel} : k.Filed k' → Step k k'
  | threads {threads : ThreadSet} {context : Context} : ThreadSet.ThreadStep k.threads k.context threads →
      Step k { k with threads, context }
  | grows {a : UInt64} : k.BrkGrows a → Step k { k with programBreak := a }
  | registers (context : Context) : Step k { k with context }

theorem Step.refl (k : Kernel) : k.Step k := .files (.refl k)

theorem Step.layout (h : k.Step k') : k'.layout = k.layout := by
  cases h with
  | files h =>
    obtain ⟨fs, -, rfl⟩ := h
    rfl
  | threads _ => rfl
  | grows _ => rfl
  | registers _ => rfl

theorem Step.threadStep (h : k.Step k') : ThreadSet.ThreadStep k.threads k.context k'.threads := by
  cases h with
  | files h =>
    obtain ⟨fs, -, rfl⟩ := h
    exact .stay
  | threads h => exact h
  | grows _ => exact .stay
  | registers _ => exact .stay

theorem Step.fsSteps (h : k.Step k') : ReflTransGen Fs.Step k.fs k'.fs := by
  cases h with
  | files h =>
    obtain ⟨fs, hfs, rfl⟩ := h
    exact hfs
  | threads _ => exact .refl
  | grows _ => exact .refl
  | registers _ => exact .refl

theorem step_plainly (x : Guest M UInt64) : Ensures (k.plainly x) fun p => k.Step p.2 := by
  apply ensures_seq
  intro r
  exact ensures_pure (Step.refl k)

theorem step_threadOp (op : ThreadOp) : Ensures (k.threadOp mem op) fun p => k.Step p.2 := by
  apply ensures_bind (op.run_step mem k.threads k.context)
  rintro ⟨r, threads, context⟩ h
  exact ensures_pure (Step.threads h)

theorem dispatch_step : Ensures (k.dispatch mem s junk) fun p => k.Step p.2 := by
  have hsame : ∀ r, Ensures (pure (r, k) : Guest M (UInt64 × Kernel)) fun p => k.Step p.2 :=
    fun r => ensures_pure (Step.refl k)
  cases hn : SyscallName.ofNumber s.nr with
  | none =>
    rw [dispatch, hn]
    exact ensures_throw _
  | some name =>
    rw [dispatch, hn]
    cases name with
    | mmap | mremap | mprotect | munmap | madvise => exact step_plainly _
    | brk =>
      rcases k.brk_cases mem s with ⟨-, h⟩ | ⟨hg, h⟩
      · dsimp only
        rw [h]
        exact hsame _
      · dsimp only
        rw [h, bind_assoc]
        apply ensures_seq
        intro _
        exact ensures_pure (Step.grows hg)
    | clockGettime =>
      apply ensures_seq
      intro _
      apply ensures_seq
      intro _
      exact hsame _
    | ioctl | rtSigprocmask | setThreadArea | gettid | getpid | getppid => exact hsame _
    | setTidAddress | schedYield | nanosleep | clockNanosleep | wbxClone | exit => exact step_threadOp _
    | futex =>
      dsimp only
      cases hop : futexOp s with
      | none => exact hsame _
      | some op => exact step_threadOp op
    | file f => exact ensures_mono (filed_fileSyscall _) fun p hp => Step.files hp

theorem guestStep_step (x : GuestStep) : Ensures (k.guestStep mem x) fun p => k.Step p.2 := by
  cases x with
  | read a =>
    apply ensures_seq
    intro v
    exact ensures_pure (Step.refl k)
  | write a v =>
    apply ensures_seq
    intro _
    exact ensures_pure (Step.refl k)
  | fetch a =>
    apply ensures_seq
    intro v
    exact ensures_pure (Step.refl k)
  | setRegs context => exact ensures_pure (Step.registers context)
  | «syscall» s junk =>
    apply ensures_bind dispatch_step
    rintro ⟨rax, k₁⟩ h₁
    exact ensures_pure h₁

end Kernel

end MiniBox
