import MiniBox.MemoryOperations

namespace MiniBox

open ByteStream IndexLoops Outcomes

structure Range.Within (r span : Range) : Prop where
  nonempty : 0 < r.size.toNat
  start_aligned : r.start.toNat % 4096 = 0
  size_aligned : r.size.toNat % 4096 = 0
  start_le : span.start.toNat ≤ r.start.toNat
  end_le : r.start.toNat + r.size.toNat ≤ span.start.toNat + span.size.toNat

theorem validate_counts {span r : Range} {ps pc : ℕ} (h : validate span r = some (ps, pc)) :
    span.start.toNat ≤ r.start.toNat ∧ ps = (r.start.toNat - span.start.toNat) / 4096 ∧
      pc = r.size.toNat / 4096 ∧ 0 < r.size.toNat ∧ r.start.toNat % 4096 = 0 ∧ r.size.toNat % 4096 = 0 ∧
      r.rangeEnd.toNat ≤ span.rangeEnd.toNat := by
  unfold validate at h
  split_ifs at h with hc
  push Not at hc
  obtain ⟨h1, h2, h3, h4, h5⟩ := hc
  have hle : span.start ≤ r.start := by simpa using h1
  have hend : r.rangeEnd.toNat ≤ span.rangeEnd.toNat := by
    rw [← UInt64.le_iff_toNat_le]; simpa using h2
  rw [Option.some.injEq, Prod.mk.injEq, toNat_shiftRight_page, toNat_shiftRight_page,
    UInt64.toNat_sub_of_le _ _ hle] at h
  refine ⟨UInt64.le_iff_toNat_le.mp hle, h.1.symm, h.2.symm, ?_, (eq_alignDown_iff _).mp h4,
    (eq_alignDown_iff _).mp h5, hend⟩
  rw [Nat.pos_iff_ne_zero]
  intro h0
  exact h3 (UInt64.toNat_inj.mp h0)

theorem rangeEnd_le (r : Range) : r.rangeEnd.toNat ≤ r.start.toNat + r.size.toNat := by
  rw [Range.rangeEnd, UInt64.toNat_add]
  exact Nat.mod_le _ _

theorem validate_within {span r : Range} {ps pc : ℕ} (hw : r.NoWrap) (h : validate span r = some (ps, pc)) :
    r.Within span := by
  obtain ⟨h1, -, -, h4, h5, h6, h7⟩ := validate_counts h
  rw [toNat_rangeEnd r hw] at h7
  exact ⟨h4, h5, h6, h1, h7.trans (rangeEnd_le span)⟩

theorem Range.Within.bounds {span r : Range} {ps pc : ℕ} (hs : span.IsSpan) (hw : r.Within span)
    (h : validate span r = some (ps, pc)) : ps + pc ≤ span.npages := by
  obtain ⟨-, rfl, rfl, -⟩ := validate_counts h
  have ha := (eq_alignDown_iff _).mp hs.start_aligned
  have h1 := hw.start_aligned
  have h2 := hw.size_aligned
  have h3 := hw.start_le
  have h4 := hw.end_le
  rw [npages_eq]
  omega

theorem validate_of_within {span r : Range} (hs : span.NoWrap) (hw : r.Within span) :
    validate span r = some ((r.start.toNat - span.start.toNat) / 4096, r.size.toNat / 4096) := by
  have hn : r.NoWrap := hw.end_le.trans_lt hs
  have hle := UInt64.le_iff_toNat_le.mpr hw.start_le
  unfold validate
  rw [if_neg, toNat_shiftRight_page, toNat_shiftRight_page, UInt64.toNat_sub_of_le _ _ hle]
  push Not
  refine ⟨?_, ?_, ?_, (eq_alignDown_iff _).mpr hw.start_aligned, (eq_alignDown_iff _).mpr hw.size_aligned⟩
  · simpa using hle
  · intro h
    have hlt := UInt64.lt_iff_toNat_lt.mp h
    rw [toNat_rangeEnd r hn, toNat_rangeEnd span hs] at hlt
    have hend := hw.end_le
    omega
  · intro h
    have hpos := hw.nonempty
    rw [h] at hpos
    exact absurd hpos (by decide)

variable {b : Block}

def Block.Bounded (b : Block) (r : Range) : Prop := ∀ ps pc, b.validate r = some (ps, pc) → ps + pc ≤ b.npages

theorem Range.NoWrap.bounded {r : Range} (hw : r.NoWrap) : b.Bounded r :=
  fun _ _ h => (validate_within hw h).bounds b.span h

def Block.isFree (b : Block) (i : ℕ) : Bool := (b.pages i).isFree

def Block.hasFree (b : Block) (ps pc : ℕ) : Bool := (List.range' ps pc).any fun j => (b.pages j).isFree

def Block.hasTaken (b : Block) (ps pc : ℕ) : Bool := (List.range' ps pc).any fun j => !(b.pages j).isFree

theorem hasFree_eq_false {ps pc : ℕ} : b.hasFree ps pc = false ↔ ∀ p, ps ≤ p → p < ps + pc → b.isFree p = false :=
  any_range'_eq_false

theorem hasTaken_eq_false {ps pc : ℕ} : b.hasTaken ps pc = false ↔ ∀ p, ps ≤ p → p < ps + pc → b.isFree p = true := by
  unfold Block.hasTaken Block.isFree
  rw [any_range'_eq_false (p := fun q : Page => !q.isFree)]
  simp only [Bool.not_eq_false']

theorem anyFree_eq (ps pc : ℕ) (h : ps + pc ≤ b.npages) : b.anyFree ps pc = .ok (b.hasFree ps pc) :=
  anyRange_eq _ _ _ _ _ _ h

theorem anyTaken_eq (ps pc : ℕ) (h : ps + pc ≤ b.npages) : b.anyTaken ps pc = .ok (b.hasTaken ps pc) :=
  anyRange_eq _ _ _ _ _ _ h

inductive PageEdit
  | status (st : UInt8)
  | advise
  | unmap

def PageEdit.apply : PageEdit → Page → Page
  | status st, p => p.setStatus st
  | advise, p => p.release
  | unmap, p => p.release.setStatus stFree

def Block.edit (b : Block) (ps pc : ℕ) (e : PageEdit) : Block :=
  b.mapPages ps pc fun p => b.sync (e.apply p)

theorem edit_page_mem {ps pc p : ℕ} (e : PageEdit) (h : ps ≤ p ∧ p < ps + pc) :
    (b.edit ps pc e).pages p = b.sync (e.apply (b.pages p)) := by
  rw [Block.edit, Block.mapPages, withPages_pages, mapRange_mem _ _ _ _ _ h]

theorem edit_page_not_mem {ps pc p : ℕ} (e : PageEdit) (h : ¬ (ps ≤ p ∧ p < ps + pc)) :
    (b.edit ps pc e).pages p = b.pages p := by
  rw [Block.edit, Block.mapPages, withPages_pages, mapRange_not_mem _ _ _ _ _ h]

theorem mmapFixed_eq (addr : Range) (prot : Prot) (noReplace : Bool) (hb : b.Bounded addr) :
    b.mmapFixed addr prot noReplace = match b.validate addr with
      | none => .ok (-einval, b)
      | some (ps, pc) =>
        if noReplace && b.hasTaken ps pc then .ok (-eexist, b)
        else .ok (0, b.edit ps pc (.status (protStatus prot))) := by
  unfold Block.mmapFixed
  cases hv : b.validate addr with
  | none => rfl
  | some r =>
    obtain ⟨ps, pc⟩ := r
    replace hb := hb ps pc hv
    cases noReplace with
    | false =>
      simp only [ok_bind, setProtections_eq _ _ _ _ hb]
      rfl
    | true =>
      simp only [↓reduceIte, anyTaken_eq ps pc hb, ok_bind, setProtections_eq _ _ _ _ hb, Bool.true_and]
      split_ifs <;> rfl

theorem mprotect_eq (addr : Range) (prot : Prot) (hb : b.Bounded addr) :
    b.mprotect addr prot = match b.validate addr with
      | none => .ok (-einval, b)
      | some (ps, pc) =>
        if b.hasFree ps pc then .ok (-enomem, b)
        else .ok (0, b.edit ps pc (.status (protStatus prot))) := by
  unfold Block.mprotect
  cases hv : b.validate addr with
  | none => rfl
  | some r =>
    obtain ⟨ps, pc⟩ := r
    replace hb := hb ps pc hv
    simp only [anyFree_eq ps pc hb, ok_bind, setProtections_eq _ _ _ _ hb]
    split_ifs <;> rfl

theorem freePages_eq (ps pc : ℕ) (adviseOnly : Bool) (h : ps + pc ≤ b.npages) :
    b.freePages ps pc adviseOnly = .ok (b.edit ps pc (if adviseOnly then .advise else .unmap)) := by
  unfold Block.freePages
  rw [forRange_eq _ _ _ _ _ _ h, ok_bind]
  cases adviseOnly with
  | true =>
    change (b.mapPages ps pc Page.release).refreshRange ps pc = _
    rw [refreshRange_eq (b.mapPages ps pc Page.release) ps pc h]
    exact congrArg Except.ok (mapPages_mapPages b ps pc Page.release b.sync)
  | false =>
    change (b.mapPages ps pc Page.release).setProtections ps pc stFree = _
    rw [setProtections_eq (b.mapPages ps pc Page.release) ps pc stFree h]
    exact congrArg Except.ok (mapPages_mapPages b ps pc Page.release fun p => b.sync (p.setStatus stFree))

theorem munmapImpl_eq (addr : Range) (adviseOnly : Bool) (hb : b.Bounded addr) :
    b.munmapImpl addr adviseOnly = match b.validate addr with
      | none => .ok (-einval, b)
      | some (ps, pc) =>
        if b.hasFree ps pc then .ok (-einval, b)
        else .ok (0, b.edit ps pc (if adviseOnly then .advise else .unmap)) := by
  unfold Block.munmapImpl
  cases hv : b.validate addr with
  | none => rfl
  | some r =>
    obtain ⟨ps, pc⟩ := r
    replace hb := hb ps pc hv
    simp only [anyFree_eq ps pc hb, ok_bind, freePages_eq _ _ _ hb]
    split_ifs <;> rfl

end MiniBox
