import MiniBox.ElfLoader
import MiniBox.KernelSteps
import MiniBox.LayoutSoundness

namespace MiniBox

open Effects Outcomes Relation

namespace Kernel

variable {k k' : Kernel}

structure BreakStep (k k' : Kernel) : Prop where
  layout : k'.layout = k.layout
  moves : k'.programBreak = k.programBreak ∨ k.BrkGrows k'.programBreak

theorem Step.breakStep (h : k.Step k') : k.BreakStep k' := by
  cases h with
  | files h =>
    obtain ⟨fs, -, rfl⟩ := h
    exact ⟨rfl, Or.inl rfl⟩
  | threads h => exact ⟨rfl, Or.inl rfl⟩
  | grows hg => exact ⟨rfl, Or.inr hg⟩
  | registers context => exact ⟨rfl, Or.inl rfl⟩

structure BreakSound (k : Kernel) : Prop where
  aligned : k.programBreak.toNat % 4096 = 0
  start_le : k.layout.sbrk.start.toNat ≤ k.programBreak.toNat
  le_end : k.programBreak.toNat ≤ k.layout.sbrk.start.toNat + k.layout.sbrk.size.toNat

theorem BrkGrows.sound {a : UInt64} (h : k.BrkGrows a) : BreakSound { k with programBreak := a } :=
  ⟨(eq_alignDown_iff a).mp h.aligned, UInt64.le_iff_toNat_le.mp h.start_le,
    (UInt64.le_iff_toNat_le.mp h.le_end).trans (rangeEnd_le _)⟩

theorem BreakStep.sound (h : k.BreakStep k') (hk : k.BreakSound) :
    k'.BreakSound ∧ k.programBreak ≤ k'.programBreak := by
  obtain ⟨hlayout, hmove | hgrow⟩ := h
  · refine ⟨⟨?_, ?_, ?_⟩, ?_⟩
    · rw [hmove]
      exact hk.aligned
    · rw [hlayout, hmove]
      exact hk.start_le
    · rw [hlayout, hmove]
      exact hk.le_end
    · rw [hmove]
      exact UInt64.le_refl _
  · obtain ⟨h1, h2, h3⟩ := hgrow.sound
    refine ⟨⟨h1, ?_, ?_⟩, UInt64.le_of_lt hgrow.above⟩
    · rw [hlayout]
      exact h2
    · rw [hlayout]
      exact h3

def Started (k : Kernel) : Prop :=
  k.programBreak = k.layout.sbrk.start ∧ ∃ span tpl, k.layout = Layout.build (Range.alignExpand span) tpl

theorem Started.sound (h : k.Started) : k.BreakSound := by
  obtain ⟨hbreak, span, tpl, hlayout⟩ := h
  obtain ⟨hstart, hsize⟩ := Layout.aligned_alignExpand span
  have hmem : k.layout.sbrk ∈ Range.stack span.alignExpand.start (Layout.sizes span.alignExpand tpl) := by
    rw [← Layout.regions_build, hlayout]
    simp [Layout.regions]
  have hal := Range.aligned_stack hstart (Layout.aligned_sizes hsize) k.layout.sbrk hmem
  rw [← hbreak] at hal
  refine ⟨hal.1, ?_, ?_⟩
  · rw [hbreak]
  · rw [hbreak]
    exact Nat.le_add_right _ _

end Kernel

theorem started_create {span : Range} {hash : ByteStream.Bytes 32} {tpl : LayoutTemplate} {h : Host}
    (hmade : Host.create span hash tpl = .ok (.inr h)) : h.toKernel.Started := by
  obtain ⟨b₀, b, layout, rfl, -, -, rfl⟩ := Host.create_cases hmade
  exact ⟨rfl, span, tpl, rfl⟩

theorem started_hostNew {img : Image} {tpl : LayoutTemplate} {h : Host} {elf : Elf}
    (hmade : hostNew img tpl = .ok (.inr (h, elf))) : h.toKernel.Started := by
  obtain ⟨span, h₀, s, -, hcreate, -, rfl⟩ := hostNew_cases hmade
  exact (started_create hcreate : h₀.toKernel.Started)

section Runs

def KernelMove (x y : Kernel × Block) : Prop :=
  ∃ step seen, exec (x.1.guestStep blockMemory step) x.2 = (.ok (seen, y.1), y.2)

variable {x y : Kernel × Block}

theorem KernelMove.break_step (h : KernelMove x y) : x.1.BreakStep y.1 := by
  obtain ⟨step, seen, h⟩ := h
  exact ((Kernel.guestStep_step step).answer _ _ _ h).breakStep

theorem run_break (h : ReflTransGen KernelMove x y) (hx : x.1.BreakSound) :
    y.1.BreakSound ∧ x.1.programBreak ≤ y.1.programBreak := by
  induction h with
  | refl => exact ⟨hx, UInt64.le_refl _⟩
  | tail _ hstep ih =>
    obtain ⟨hy, hle⟩ := ih
    obtain ⟨hz, hle'⟩ := hstep.break_step.sound hy
    exact ⟨hz, UInt64.le_trans hle hle'⟩

end Runs

namespace Block

def PageFree (b : Block) (a : UInt64) : Prop := Range.Within ⟨a, 0x1000⟩ b.addr ∧ b.isFree (b.pageOf a) = true

def PageRw (b : Block) (a : UInt64) : Prop :=
  Range.Within ⟨a, 0x1000⟩ b.addr ∧ (b.pages (b.pageOf a)).status = stRW

def FreeRange (b : Block) (r : Range) : Prop :=
  ∃ ps pc, b.validate r = some (ps, pc) ∧ ∀ p, ps ≤ p → p < ps + pc → b.isFree p = true

end Block

/-- What is asked of `brk`: the new break is in bounds and not lower, and the pages between the breaks
were free and are allocated; where one of them is taken the break stays. -/
def BrkHonest (k : Kernel) (b : Block) (s : Syscall) (junk : ℕ → UInt8) : Prop :=
  ∃ r k' b', exec (k.dispatch blockMemory s junk) b = (.ok (r, k'), b') ∧ r = k'.programBreak ∧
    k'.BreakSound ∧ k.programBreak ≤ k'.programBreak ∧
    (k.programBreak < r → ∀ a : UInt64, a.toNat % 4096 = 0 → k.programBreak ≤ a → a < r →
      b.PageFree a ∧ b'.PageRw a) ∧
    (k.BrkGrows s.a1 → (∃ a : UInt64, a.toNat % 4096 = 0 ∧ k.programBreak ≤ a ∧ a < s.a1 ∧ ¬ b.PageFree a) →
      r = k.programBreak)

section Pages

variable {b : Block} {o e : UInt64} {ps pc : ℕ}

theorem toNat_gap (hlt : o < e) : (e - o).toNat = e.toNat - o.toNat :=
  UInt64.toNat_sub_of_le _ _ (UInt64.le_of_lt hlt)

theorem gap_noWrap (hlt : o < e) : Range.NoWrap ⟨o, e - o⟩ := by
  have he := e.toNat_lt
  have hlt' := UInt64.lt_iff_toNat_lt.mp hlt
  change o.toNat + (e - o).toNat < 2 ^ 64
  rw [toNat_gap hlt]
  omega

theorem page_in_range (hlt : o < e) (hv : b.validate ⟨o, e - o⟩ = some (ps, pc)) {a : UInt64}
    (hal : a.toNat % 4096 = 0) (hle : o ≤ a) (hae : a < e) :
    Range.Within ⟨a, 0x1000⟩ b.addr ∧ ps ≤ b.pageOf a ∧ b.pageOf a < ps + pc := by
  have hgap := toNat_gap hlt
  obtain ⟨-, h2, h3, h4, h5⟩ := validate_within (gap_noWrap hlt) hv
  have hlt := UInt64.lt_iff_toNat_lt.mp hlt
  have hle := UInt64.le_iff_toNat_le.mp hle
  have hae := UInt64.lt_iff_toNat_lt.mp hae
  obtain ⟨-, hps, hpc, -⟩ := validate_counts hv
  have hs := (eq_alignDown_iff _).mp b.span.start_aligned
  have hone : (0x1000 : UInt64).toNat = 4096 := rfl
  simp only [hgap] at h2 h3 h4 h5 hps hpc
  have hpage := pageOf_eq (b := b) (a := a) (by omega)
  refine ⟨⟨?_, hal, ?_, ?_, ?_⟩, by omega, by omega⟩ <;> simp only [hone] <;> omega

end Pages

section Honesty

variable {k : Kernel} {b : Block} {s : Syscall} {junk : ℕ → UInt8}

theorem dispatch_brk (hn : SyscallName.ofNumber s.nr = some .brk) :
    k.dispatch blockMemory s junk = (do
      let res ← k.brk blockMemory s
      return (res, { k with programBreak := res })) := by
  unfold Kernel.dispatch
  rw [hn]

theorem exec_brk_grows (hn : SyscallName.ofNumber s.nr = some .brk) (hg : k.BrkGrows s.a1) {rc : ℤ} {b' : Block}
    (hm : b.mmapFixed ⟨k.programBreak, s.a1 - k.programBreak⟩ .rw true = .ok (rc, b')) :
    exec (k.dispatch blockMemory s junk) b = (.ok (s.a1, { k with programBreak := s.a1 }), b') := by
  have hbrk : k.brk blockMemory s = (do
      let _ ← blockMemory.memOp (.mmapFixed ⟨k.programBreak, s.a1 - k.programBreak⟩ .rw true)
      return s.a1) := by
    rcases k.brk_cases blockMemory s with ⟨hno, -⟩ | ⟨-, h⟩
    · exact absurd hg hno
    · exact h
  have hop : exec (blockMemory.memOp (.mmapFixed ⟨k.programBreak, s.a1 - k.programBreak⟩ .rw true)) b =
      (.ok rc, b') := by
    change exec (attempt fun b => b.mmapFixed ⟨k.programBreak, s.a1 - k.programBreak⟩ .rw true) b = _
    rw [exec_attempt, hm]
  rw [dispatch_brk hn, hbrk, bind_assoc, exec_bind_ok hop]
  rfl

theorem mmapFixed_taken {r : Range} (hw : r.NoWrap) (hno : ¬ b.FreeRange r) :
    ∃ rc, b.mmapFixed r .rw true = .ok (rc, b) := by
  rw [mmapFixed_eq r .rw true hw.bounded]
  cases hv : b.validate r with
  | none => exact ⟨_, rfl⟩
  | some q =>
    obtain ⟨ps, pc⟩ := q
    have htaken : b.hasTaken ps pc = true := by
      by_contra hf
      exact hno ⟨ps, pc, hv, hasTaken_eq_false.mp (by simpa using hf)⟩
    exact ⟨-eexist, by simp [htaken]⟩

theorem mmapFixed_free {r : Range} {ps pc : ℕ} (hw : r.NoWrap) (hv : b.validate r = some (ps, pc))
    (hf : ∀ p, ps ≤ p → p < ps + pc → b.isFree p = true) :
    b.mmapFixed r .rw true = .ok (0, b.edit ps pc (.status stRW)) := by
  rw [mmapFixed_eq r .rw true hw.bounded, hv]
  simp only [hasTaken_eq_false.mpr hf, Bool.and_false, Bool.false_eq_true, ↓reduceIte]
  rfl

theorem brk_honest_of_free (hn : SyscallName.ofNumber s.nr = some .brk) (hg : k.BrkGrows s.a1)
    (hfree : b.FreeRange ⟨k.programBreak, s.a1 - k.programBreak⟩) : BrkHonest k b s junk := by
  obtain ⟨ps, pc, hv, hf⟩ := hfree
  have hpages : ∀ a : UInt64, a.toNat % 4096 = 0 → k.programBreak ≤ a → a < s.a1 →
      b.PageFree a ∧ (b.edit ps pc (.status stRW)).PageRw a := by
    intro a hal hle hlt
    obtain ⟨hw, h1, h2⟩ := page_in_range hg.above hv hal hle hlt
    refine ⟨⟨hw, hf _ h1 h2⟩, hw, ?_⟩
    change ((b.edit ps pc (.status stRW)).pages (b.pageOf a)).status = stRW
    rw [edit_page_mem _ ⟨h1, h2⟩, sync_status]
    rfl
  refine ⟨_, _, _, exec_brk_grows hn hg (mmapFixed_free (gap_noWrap hg.above) hv hf), rfl, hg.sound,
    UInt64.le_of_lt hg.above, fun _ => hpages, ?_⟩
  rintro - ⟨a, hal, hle, hlt, hno⟩
  exact absurd (hpages a hal hle hlt).1 hno

theorem brk_honest_of_not_grows (hn : SyscallName.ofNumber s.nr = some .brk) (hk : k.BreakSound)
    (hno : ¬ k.BrkGrows s.a1) : BrkHonest k b s junk := by
  have hbrk : k.brk blockMemory s = pure k.programBreak := by
    rcases k.brk_cases blockMemory s with ⟨-, h⟩ | ⟨hg, -⟩
    · exact h
    · exact absurd hg hno
  have hexec : exec (k.dispatch blockMemory s junk) b = (.ok (k.programBreak, k), b) := by
    rw [dispatch_brk hn, hbrk, pure_bind]
    rfl
  refine ⟨_, _, _, hexec, rfl, hk, UInt64.le_refl _, fun h => absurd h (UInt64.lt_irrefl _), fun hg => absurd hg hno⟩

theorem not_brk_honest (hn : SyscallName.ofNumber s.nr = some .brk) (hk : k.BreakSound) (hg : k.BrkGrows s.a1)
    (hno : ¬ b.FreeRange ⟨k.programBreak, s.a1 - k.programBreak⟩) : ¬ BrkHonest k b s junk := by
  rintro ⟨r, k', b', hexec, -, -, -, hpages, -⟩
  obtain ⟨rc, hm⟩ := mmapFixed_taken (gap_noWrap hg.above) hno
  rw [exec_brk_grows hn hg hm] at hexec
  cases hexec
  obtain ⟨⟨-, hfree⟩, -, hrw⟩ :=
    hpages hg.above k.programBreak hk.aligned (UInt64.le_refl _) hg.above
  have hst : (b.pages (b.pageOf k.programBreak)).status = stFree := of_decide_eq_true hfree
  rw [hst] at hrw
  exact absurd hrw (by decide)

theorem brk_honest_iff {k₀ : Kernel} {b₀ : Block} (hstart : k₀.Started)
    (hrun : ReflTransGen KernelMove (k₀, b₀) (k, b)) (hn : SyscallName.ofNumber s.nr = some .brk) :
    (k.BreakSound ∧ k₀.programBreak ≤ k.programBreak) ∧
      (BrkHonest k b s junk ↔
        (k.BrkGrows s.a1 → b.FreeRange ⟨k.programBreak, s.a1 - k.programBreak⟩)) := by
  have hsound := run_break hrun hstart.sound
  refine ⟨hsound, fun hhonest hg => ?_, fun hfree => ?_⟩
  · by_contra hno
    exact not_brk_honest hn hsound.1 hg hno hhonest
  · by_cases hg : k.BrkGrows s.a1
    · exact brk_honest_of_free hn hg (hfree hg)
    · exact brk_honest_of_not_grows hn hsound.1 hg

end Honesty

section OnePageHeap

def onePageHeap : Except Crash (String ⊕ Host) :=
  Host.create ⟨0x36f00000000, 0x1000⟩ (ByteStream.zeroes 32) ⟨0x1000, 0, 0, 0, 0x1000⟩

def theHost : String ⊕ Host → Except Crash Host
  | .inl _ => .error .trap
  | .inr h => .ok h

theorem theHost_ok {r : String ⊕ Host} {h : Host} (hr : theHost r = .ok h) : r = .inr h := by
  cases r with
  | inl message => cases hr
  | inr h₀ =>
    cases hr
    rfl

theorem brk_honest_first : ∃ h : Host, onePageHeap = .ok (.inr h) ∧
    BrkHonest h.toKernel h.block ⟨12, 0x36f00202000, 0, 0, 0, 0⟩ fun _ => 0 := by
  have hrun : passes (do
      let h ← onePageHeap >>= theHost
      return decide (h.programBreak = 0x36f00201000 ∧
        h.block.validate ⟨0x36f00201000, 0x1000⟩ = some (0x201, 1) ∧ h.block.isFree 0x201 = true)) = true := by
    decide +kernel
  obtain ⟨h, hmade, hrun⟩ := passes_bind hrun
  obtain ⟨r, hcreate, hr⟩ := bind_ok hmade
  obtain ⟨hbreak, hv, hfree⟩ := passes_pure hrun
  rw [theHost_ok hr] at hcreate
  refine ⟨h, hcreate, (brk_honest_iff (started_create hcreate) .refl rfl).2.mpr fun _ => ?_⟩
  rw [hbreak]
  refine ⟨0x201, 1, hv, fun p h1 h2 => ?_⟩
  obtain rfl : p = 0x201 := by omega
  exact hfree

/-- The guest maps the first page of the heap itself, and `brk` over it answers as if it had been free. -/
theorem brk_reports_unmapped : ∃ (h : Host) (k : Kernel) (b : Block), onePageHeap = .ok (.inr h) ∧
    ReflTransGen KernelMove (h.toKernel, h.block) (k, b) ∧ k.programBreak = 0x36f00201000 ∧
    (b.pages (b.pageOf 0x36f00201000)).status = stR ∧
    exec (k.dispatch blockMemory ⟨12, 0x36f00202000, 0, 0, 0, 0⟩ fun _ => 0) b =
      (.ok (0x36f00202000, { k with programBreak := 0x36f00202000 }), b) ∧
    ¬ BrkHonest k b ⟨12, 0x36f00202000, 0, 0, 0, 0⟩ fun _ => 0 := by
  have hrun : passes (do
      let h ← onePageHeap >>= theHost
      let u₁ ← answer (exec (h.toKernel.guestStep blockMemory
        (.syscall ⟨9, 0x36f00201000, 0x1000, 1, 0x20, 0⟩ fun _ => 0)) h.block)
      return decide (u₁.1.2.programBreak = 0x36f00201000 ∧ u₁.1.2.layout.sbrk = ⟨0x36f00201000, 0x1000⟩ ∧
        (u₁.2.pages (u₁.2.pageOf 0x36f00201000)).status = stR)) = true := by decide +kernel
  obtain ⟨h, hmade, hrun⟩ := passes_bind hrun
  obtain ⟨⟨⟨seen, k⟩, b⟩, hstep, hrun⟩ := passes_bind hrun
  obtain ⟨r, hcreate, hr⟩ := bind_ok hmade
  obtain ⟨hbreak, hsbrk, hstatus⟩ := passes_pure hrun
  rw [theHost_ok hr] at hcreate
  have hmove : ReflTransGen KernelMove (h.toKernel, h.block) (k, b) := .single ⟨_, seen, answer_ok hstep⟩
  have hg : k.BrkGrows 0x36f00202000 := by
    constructor
    · decide
    · rw [hsbrk]
      decide
    · rw [hsbrk]
      decide
    · rw [hbreak]
      decide
  have hno : ¬ b.FreeRange ⟨k.programBreak, 0x36f00202000 - k.programBreak⟩ := by
    rintro ⟨ps, pc, hv, hf⟩
    obtain ⟨-, h1, h2⟩ :=
      page_in_range hg.above hv (a := 0x36f00201000) (by decide) (by rw [hbreak]; decide) (by decide)
    have hfree := of_decide_eq_true (hf _ h1 h2)
    rw [hstatus] at hfree
    exact absurd hfree (by decide)
  obtain ⟨rc, hm⟩ := mmapFixed_taken (gap_noWrap hg.above) hno
  exact ⟨h, k, b, hcreate, hmove, hbreak, hstatus, exec_brk_grows (s := ⟨12, 0x36f00202000, 0, 0, 0, 0⟩) rfl hg hm,
    not_brk_honest rfl (run_break hmove (started_create hcreate).sound).1 hg hno⟩

end OnePageHeap

end MiniBox
