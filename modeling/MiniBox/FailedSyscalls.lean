import MiniBox.BaselineInvariant
import MiniBox.GuestWords
import MiniBox.MemoryEdits

namespace MiniBox

open Effects Outcomes

def IsErrno (r : UInt64) : Prop := 2 ^ 64 - 4096 < r.toNat

instance (r : UInt64) : Decidable (IsErrno r) := inferInstanceAs (Decidable (_ < _))

theorem toNat_ofInt (v : ℤ) : (UInt64.ofInt v).toNat = (v % 2 ^ 64).toNat := by
  have h : (v % 2 ^ 64).toNat < 2 ^ 64 := by omega
  rw [UInt64.ofInt, UInt64.toNat_ofNat', Nat.mod_eq_of_lt h]

theorem dvd_cint {w : UInt64} (h : w.toNat % 4096 = 0) : (4096 : ℤ) ∣ cint w := by
  unfold cint
  split_ifs
  · omega
  · omega

theorem not_isErrno_ofInt {v : ℤ} (h : (4096 : ℤ) ∣ v) : ¬ IsErrno (UInt64.ofInt v) := by
  unfold IsErrno
  rw [toNat_ofInt]
  omega

theorem not_isErrno_reply {r : ℤ} (h : (4096 : ℤ) ∣ r) : ¬ IsErrno (reply r) := by
  unfold reply
  split_ifs
  · apply not_isErrno_ofInt
    rw [Int.dvd_neg]
    apply dvd_cint
    rw [toNat_ofInt]
    omega
  · exact not_isErrno_ofInt h

theorem not_isErrno_replyStatus {r : ℤ} (h : (4096 : ℤ) ∣ r) : ¬ IsErrno (replyStatus r) := by
  unfold replyStatus
  split_ifs
  · apply not_isErrno_ofInt
    simpa using h
  · exact not_isErrno_ofInt (dvd_zero _)

theorem not_isErrno_tid (tid : UInt32) : ¬ IsErrno (reply tid.toNat) := by
  have h := tid.toNat_lt
  unfold IsErrno
  rw [reply, if_neg (by omega), sok, toNat_ofInt]
  omega

theorem failsClean_memOp (op : MemOp) :
    FailsClean (blockMemory.memOp op) (fun r => ¬ (4096 : ℤ) ∣ r) fun _ => True := by
  constructor
  intro b r b' h hr
  rcases MemOp.run_outcome (exec_attempt_cases h) with hb | ⟨hd, -⟩
  · exact ⟨hb, trivial⟩
  · exact absurd hd hr

theorem failsClean_load64 (a : UInt64) :
    FailsClean (blockMemory.load64 a) (fun _ => True) fun _ => True := by
  constructor
  intro b v b' h _
  obtain ⟨bytes, b₁, hb, hv⟩ := exec_bind_cases h
  obtain ⟨-, rfl⟩ := Block.exec_readBytes hb
  cases hv
  exact ⟨rfl, trivial⟩

theorem failsClean_report {op : MemOp} {report : ℤ → UInt64}
    (h : ∀ r, (4096 : ℤ) ∣ r → ¬ IsErrno (report r)) :
    FailsClean (do let r ← blockMemory.memOp op; return report r) IsErrno fun _ => True := by
  apply failsClean_bind (failsClean_memOp op)
  · intro r _ _
    exact failsClean_pure fun _ => trivial
  · intro r hr
    exact ensures_pure (h r (not_not.mp hr))

section

variable (k : Kernel) (s : Syscall)

theorem failsClean_mmap : FailsClean (k.mmap blockMemory s) IsErrno fun _ => True := by
  unfold Kernel.mmap
  cases argToProt s.a3 with
  | none => exact failsClean_pure fun _ => trivial
  | some prot =>
    dsimp only
    split_ifs
    · exact failsClean_pure fun _ => trivial
    · exact failsClean_pure fun _ => trivial
    · exact failsClean_pure fun _ => trivial
    · exact failsClean_report fun r => not_isErrno_reply
    · exact failsClean_report fun r => not_isErrno_reply

theorem failsClean_mprotect : FailsClean (Kernel.mprotect blockMemory s) IsErrno fun _ => True := by
  unfold Kernel.mprotect
  cases argToProt s.a3 with
  | none => exact failsClean_pure fun _ => trivial
  | some prot => exact failsClean_report fun r => not_isErrno_replyStatus

theorem failsClean_madvise : FailsClean (Kernel.madvise blockMemory s) IsErrno fun _ => True := by
  unfold Kernel.madvise
  split_ifs
  · exact failsClean_report fun r => not_isErrno_replyStatus
  · exact failsClean_pure fun _ => trivial

theorem failsClean_spawn (t : ThreadSet) (threadArea guestRsp guestRip childTid parentTid : UInt64) :
    FailsClean (t.spawn blockMemory threadArea guestRsp guestRip childTid parentTid)
      (fun p => IsErrno (reply p.1)) fun p => p.2 = t := by
  unfold ThreadSet.spawn
  apply failsClean_read (failsClean_load64 _)
  intro stackEnd
  apply failsClean_read (failsClean_load64 _)
  intro stackSize
  apply failsClean_bind (failsClean_memOp _)
  · intro rc hrc _
    have hne : rc ≠ 0 := by
      rintro rfl
      exact hrc (dvd_zero _)
    rw [if_pos hne]
    exact failsClean_pure fun _ => rfl
  · intro rc hrc
    split_ifs
    · exact ensures_pure (not_isErrno_reply (not_not.mp hrc))
    · apply ensures_seq
      intro _
      apply ensures_seq
      intro _
      apply ensures_seq
      intro _
      apply ensures_seq
      intro t'
      exact ensures_pure (not_isErrno_tid t.nextTid)

theorem failsClean_clone (threadArea guestRsp guestRip childTid parentTid : UInt64) :
    FailsClean (k.threadOp blockMemory (.spawn threadArea guestRsp guestRip childTid parentTid))
      (fun p => IsErrno p.1) fun p => p.2 = k := by
  unfold Kernel.threadOp ThreadOp.run
  simp only [bind_assoc]
  apply failsClean_bind (failsClean_spawn k.threads threadArea guestRsp guestRip childTid parentTid)
  · rintro ⟨r, t⟩ _ ht
    cases ht
    exact failsClean_pure fun _ => rfl
  · rintro ⟨r, t⟩ hr
    exact ensures_pure hr

variable {k}

theorem failsClean_plainly {x : Guest Block UInt64} (h : FailsClean x IsErrno fun _ => True) :
    FailsClean (k.plainly x) (fun p => IsErrno p.1) fun p => p.2 = k := by
  apply failsClean_bind h
  · intro r _ _
    exact failsClean_pure fun _ => rfl
  · intro r hr
    exact ensures_pure hr

end

def memorySyscalls : List SyscallName := [.mmap, .mremap, .mprotect, .munmap, .madvise, .wbxClone]

theorem failed_syscall_changes_nothing {k k' : Kernel} {b b' : Block} {s : Syscall} {junk : ℕ → UInt8}
    {name : SyscallName} {r : UInt64} (hn : SyscallName.ofNumber s.nr = some name) (hm : name ∈ memorySyscalls)
    (h : exec (k.dispatch blockMemory s junk) b = (.ok (r, k'), b')) (he : IsErrno r) : b' = b ∧ k' = k := by
  suffices hf : FailsClean (k.dispatch blockMemory s junk) (fun p => IsErrno p.1) fun p => p.2 = k from
    hf.clean b (r, k') b' h he
  unfold Kernel.dispatch
  rw [hn]
  simp only [memorySyscalls, List.mem_cons, List.not_mem_nil, or_false] at hm
  rcases hm with rfl | rfl | rfl | rfl | rfl | rfl
  · exact failsClean_plainly (failsClean_mmap k s)
  · exact failsClean_plainly (failsClean_report fun r => not_isErrno_reply)
  · exact failsClean_plainly (failsClean_mprotect s)
  · exact failsClean_plainly (failsClean_report fun r => not_isErrno_replyStatus)
  · exact failsClean_plainly (failsClean_madvise s)
  · exact failsClean_clone k s.a1 s.a2 s.a3 s.a4 s.a5

def freshKernel : Kernel :=
  ⟨Fs.new, 0, ⟨⟨0, 0⟩, ⟨0, 0⟩, ⟨0, 0⟩, ⟨0, 0⟩, ⟨0, 0⟩, ⟨0, 0⟩, ⟨0, 0⟩, ⟨0, 0⟩⟩, ⟨0, 0⟩, ThreadSet.new⟩

theorem failed_syscall_changes_nothing_clone : ∃ (b b' : Block) (k : Kernel) (r : UInt64),
    exec (freshKernel.dispatch blockMemory ⟨2000, 0x36f00000000, 0, 0, 0, 0⟩ fun _ => 0) b = (.ok (r, k), b') ∧
      r = serr einval ∧ b' = b ∧ k = freshKernel := by
  have hrun : passes (do
      let u₁ ← smallest.ready
      let u₂ ← answer
        (exec (freshKernel.dispatch blockMemory ⟨2000, 0x36f00000000, 0, 0, 0, 0⟩ fun _ => 0) u₁.2)
      return decide (u₂.1.1 = serr einval)) = true := by decide +kernel
  obtain ⟨⟨_, b⟩, -, hrun⟩ := passes_bind hrun
  obtain ⟨⟨⟨r, k⟩, b'⟩, h, hrun⟩ := passes_bind hrun
  have hr := passes_pure hrun
  subst hr
  have h := answer_ok h
  exact ⟨b, b', k, _, h, rfl, failed_syscall_changes_nothing rfl (by decide) h (by decide)⟩

end MiniBox
