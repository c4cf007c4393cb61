import MiniBox.BestFit
import MiniBox.PlainMachine
import MiniBox.SetupSpecs

namespace MiniBox

open ByteStream IndexLoops Outcomes

def Plain.of (b : Block) : Plain := ⟨b.addr, fun i => (b.pages i).status, fun i => (b.pages i).data, b.sealed⟩

structure Block.Synced (b : Block) : Prop where
  swappedIn : b.swappedIn = true
  native : ∀ i, (b.pages i).native = protToNative (b.pages i).nativeProt

variable {b : Block}

theorem apply_status (e : PageEdit) (p : Page) : (e.apply p).status = match e with
    | .status st => st
    | .advise => p.status
    | .unmap => stFree := by
  cases e with
  | status st => rfl
  | advise => exact p.maybeSnapshot_status
  | unmap => rfl

def Plain.edit (m : Plain) (ps pc : ℕ) : PageEdit → Plain
  | .status st => m.setStatus ps pc st
  | .advise => m.zero ps pc
  | .unmap => (m.zero ps pc).setStatus ps pc stFree

theorem of_edit (b : Block) (ps pc : ℕ) (e : PageEdit) : Plain.of (b.edit ps pc e) = (Plain.of b).edit ps pc e := by
  have hs : ∀ i, ((b.edit ps pc e).pages i).status = ((Plain.of b).edit ps pc e).status i := by
    intro i
    change (mapRange (fun p => b.sync (e.apply p)) ps pc b.pages i).status = _
    unfold mapRange
    split_ifs with hi
    · rw [sync_status, apply_status]
      cases e <;> simp [Plain.edit, Plain.of, Plain.setStatus, Plain.zero, mapRange, hi]
    · cases e <;> simp [Plain.edit, Plain.of, Plain.setStatus, Plain.zero, mapRange, hi]
  have hd : ∀ i, ((b.edit ps pc e).pages i).data = ((Plain.of b).edit ps pc e).data i := by
    intro i
    change (mapRange (fun p => b.sync (e.apply p)) ps pc b.pages i).data = _
    unfold mapRange
    split_ifs with hi
    · rw [sync_data]
      cases e with
      | status st => rfl
      | advise => exact (mapRange_mem (fun _ => zeroes 4096) ps pc (Plain.of b).data i hi).symm
      | unmap => exact (mapRange_mem (fun _ => zeroes 4096) ps pc (Plain.of b).data i hi).symm
    · cases e with
      | status st => rfl
      | advise => exact (mapRange_not_mem (fun _ => zeroes 4096) ps pc (Plain.of b).data i hi).symm
      | unmap => exact (mapRange_not_mem (fun _ => zeroes 4096) ps pc (Plain.of b).data i hi).symm
  have he : ((Plain.of b).edit ps pc e).addr = b.addr ∧ ((Plain.of b).edit ps pc e).sealed = b.sealed := by
    cases e <;> exact ⟨rfl, rfl⟩
  unfold Plain.of at *
  rw [Plain.mk.injEq]
  exact ⟨he.1.symm, funext hs, funext hd, he.2.symm⟩

theorem refresh_native (p : Page) : p.refresh.native = protToNative p.refresh.nativeProt := rfl

theorem Block.Synced.sync (h : b.Synced) (p : Page) : b.sync p = p.refresh := if_pos h.swappedIn

theorem Block.Synced.mapPages (h : b.Synced) (ps pc : ℕ) (f : Page → Page) :
    (b.mapPages ps pc fun p => b.sync (f p)).Synced := by
  refine ⟨h.swappedIn, fun i => ?_⟩
  change (mapRange (fun p => b.sync (f p)) ps pc b.pages i).native =
    protToNative (mapRange (fun p => b.sync (f p)) ps pc b.pages i).nativeProt
  unfold mapRange
  split_ifs
  · dsimp only
    rw [h.sync]
    exact refresh_native _
  · exact h.native i

def Agrees (b : Block) (x : Except Crash (ℤ × Block)) (y : ℤ × Plain) : Prop :=
  ∃ b', x = .ok (y.1, b') ∧ Plain.of b' = y.2 ∧ (b.Synced → b'.Synced)

theorem validate_of (b : Block) (addr : Range) : validate (Plain.of b).addr addr = b.validate addr := rfl

theorem place_of {as acount : ℕ} (n : ℕ) (h : as + acount ≤ b.npages) :
    (Plain.of b).place as acount n = b.place as acount n := (place_eq_bestFit h).symm

theorem agrees_same (r : ℤ) : Agrees b (.ok (r, b)) (r, Plain.of b) := ⟨b, rfl, rfl, id⟩

theorem agrees_edit (r : ℤ) (ps pc : ℕ) (e : PageEdit) :
    Agrees b (.ok (r, b.edit ps pc e)) (r, (Plain.of b).edit ps pc e) :=
  ⟨_, rfl, of_edit b ps pc e, fun h => h.mapPages ps pc e.apply⟩

theorem mmapFixed_agrees (addr : Range) (prot : Prot) (noReplace : Bool) (hw : addr.NoWrap) :
    Agrees b (b.mmapFixed addr prot noReplace) ((Plain.of b).mmapFixed addr prot noReplace) := by
  rw [mmapFixed_eq addr prot noReplace hw.bounded]
  unfold Plain.mmapFixed
  rw [validate_of]
  cases hv : b.validate addr with
  | none => exact agrees_same _
  | some q =>
    change Agrees b (if noReplace && b.hasTaken q.1 q.2 then _ else _)
      (if noReplace && b.hasTaken q.1 q.2 then _ else _)
    split_ifs
    · exact agrees_same _
    · exact agrees_edit 0 q.1 q.2 _

theorem mprotect_agrees (addr : Range) (prot : Prot) (hw : addr.NoWrap) :
    Agrees b (b.mprotect addr prot) ((Plain.of b).mprotect addr prot) := by
  rw [mprotect_eq addr prot hw.bounded]
  unfold Plain.mprotect
  rw [validate_of]
  cases hv : b.validate addr with
  | none => exact agrees_same _
  | some q =>
    change Agrees b (if b.hasFree q.1 q.2 then _ else _) (if b.hasFree q.1 q.2 then _ else _)
    split_ifs
    · exact agrees_same _
    · exact agrees_edit 0 q.1 q.2 _

theorem munmap_agrees (addr : Range) (hw : addr.NoWrap) :
    Agrees b (b.munmapImpl addr false) ((Plain.of b).munmap addr) := by
  rw [munmapImpl_eq addr false hw.bounded]
  unfold Plain.munmap
  rw [validate_of]
  cases hv : b.validate addr with
  | none => exact agrees_same _
  | some q =>
    change Agrees b (if b.hasFree q.1 q.2 then _ else _) (if b.hasFree q.1 q.2 then _ else _)
    by_cases hf : b.hasFree q.1 q.2 = true
    · rw [if_pos hf, if_pos hf]
      exact agrees_same _
    · rw [if_neg hf, if_neg hf]
      exact agrees_edit 0 q.1 q.2 .unmap

theorem madviseDontneed_agrees (addr : Range) (hw : addr.NoWrap) :
    Agrees b (b.munmapImpl addr true) ((Plain.of b).madviseDontneed addr) := by
  rw [munmapImpl_eq addr true hw.bounded]
  unfold Plain.madviseDontneed
  rw [validate_of]
  cases hv : b.validate addr with
  | none => exact agrees_same _
  | some q =>
    change Agrees b (if b.hasFree q.1 q.2 then _ else _) (if b.hasFree q.1 q.2 then _ else _)
    by_cases hf : b.hasFree q.1 q.2 = true
    · rw [if_pos hf, if_pos hf]
      exact agrees_same _
    · rw [if_neg hf, if_neg hf]
      exact agrees_edit 0 q.1 q.2 .advise

theorem Agrees.address {x : Except Crash (ℤ × Block)} {y : ℤ × Plain} (h : Agrees b x y) (a : ℤ) :
    Agrees b (x >>= fun (r, b') => pure (if r ≠ 0 then r else a, b')) (if y.1 ≠ 0 then y.1 else a, y.2) := by
  obtain ⟨b', rfl, h2, h3⟩ := h
  exact ⟨b', rfl, h2, h3⟩

theorem mmap_agrees (addr arena : Range) (prot : Prot) (noReplace : Bool) (hw : addr.NoWrap) (ha : arena.NoWrap) :
    Agrees b (b.mmap addr prot arena noReplace) ((Plain.of b).mmap addr prot arena noReplace) := by
  unfold Block.mmap Plain.mmap
  split_ifs
  · exact agrees_same _
  · exact agrees_same _
  · rw [validate_of]
    cases hv : b.validate arena with
    | none => exact agrees_same _
    | some q =>
      have hin := ha.bounded q.1 q.2 hv
      simp only [findFreePages_eq _ hin, ok_bind]
      rw [place_of _ hin]
      cases hp : b.place q.1 q.2 (addr.size >>> 12).toNat with
      | none => exact agrees_same _
      | some ps =>
        have hle := (place_spec hp).1
        simp only [setProtections_eq b ps _ _ (hle.trans hin), ok_bind]
        exact agrees_edit (sword (b.pageAddr ps)) ps _ (.status (protStatus prot))
  · exact (mmapFixed_agrees addr prot noReplace hw).address _

theorem mremap_agrees (addr : Range) (newSize : UInt64) (hw : addr.NoWrap)
    (hn : Range.NoWrap ⟨addr.start, newSize⟩) :
    Agrees b (b.mremap addr newSize) ((Plain.of b).mremap addr newSize) := by
  have ht : ¬ newSize > addr.size → Range.NoWrap ⟨addr.start + newSize, addr.size - newSize⟩ := by
    intro hg
    rw [gt_iff_lt, UInt64.lt_iff_toNat_lt] at hg
    exact tail_noWrap addr newSize hw hn (by omega)
  rw [mremap_eq addr newSize hw.bounded (fun _ => hn.bounded) fun hg => (ht hg).bounded]
  unfold Plain.mremap
  by_cases h0 : addr.size = 0 ∨ newSize = 0
  · rw [if_pos h0, if_pos h0]
    exact agrees_same _
  rw [if_neg h0, if_neg h0]
  by_cases hz : addr.start = 0
  · rw [if_pos hz, if_pos hz]
    exact agrees_same _
  rw [if_neg hz, if_neg hz]
  rw [validate_of]
  cases hv : b.validate addr with
  | none => exact agrees_same _
  | some q =>
    dsimp only
    by_cases hg : newSize > addr.size
    · rw [if_pos hg, if_pos hg]
      rw [validate_of]
      cases hf : b.validate ⟨addr.start, newSize⟩ with
      | none => exact agrees_same _
      | some f =>
        change Agrees b (if b.hasFree q.1 q.2 then _ else if b.hasTaken _ _ then _ else _)
          (if b.hasFree q.1 q.2 then _ else if b.hasTaken _ _ then _ else _)
        split_ifs
        · exact agrees_same _
        · exact agrees_same _
        · exact agrees_edit (sword addr.start) _ _ (.status (b.pages q.1).status)
    · rw [if_neg hg, if_neg hg]
      change Agrees b (if b.hasFree q.1 q.2 then _ else _) (if b.hasFree q.1 q.2 then _ else _)
      by_cases hfree : b.hasFree q.1 q.2 = true
      · rw [if_pos hfree, if_pos hfree]
        exact agrees_same _
      rw [if_neg hfree, if_neg hfree]
      unfold Plain.munmap
      cases htv : b.validate ⟨addr.start + newSize, addr.size - newSize⟩ with
      | none =>
        have hpv : validate (Plain.of b).addr ⟨addr.start + newSize, addr.size - newSize⟩ = none := htv
        rw [hpv]
        exact agrees_same _
      | some t =>
        have hpv : validate (Plain.of b).addr ⟨addr.start + newSize, addr.size - newSize⟩ = some t := htv
        rw [hpv]
        dsimp only
        by_cases hf : b.hasFree t.1 t.2 = true
        · have hpf : (Plain.of b).hasFree t.1 t.2 = true := hf
          simp only [hf, hpf, ↓reduceIte]
          exact agrees_same _
        · have hpf : ¬ (Plain.of b).hasFree t.1 t.2 = true := hf
          simp only [hf, hpf, Bool.false_eq_true, ↓reduceIte]
          exact agrees_edit (sword addr.start) t.1 t.2 .unmap

theorem mem_agrees (op : MemOp) (hw : op.NoWrap) : Agrees b (op.run b) ((Plain.of b).mem op) := by
  cases op with
  | mmapFixed addr prot noReplace => exact mmapFixed_agrees addr prot noReplace hw
  | mmap addr prot arena noReplace => exact mmap_agrees addr arena prot noReplace hw.1 hw.2
  | mprotect addr prot => exact mprotect_agrees addr prot hw
  | munmap addr => exact munmap_agrees addr hw
  | madviseDontneed addr => exact madviseDontneed_agrees addr hw
  | mremap addr newSize => exact mremap_agrees addr newSize hw.1 hw.2

theorem of_mapPages (ps pc : ℕ) (f : Page → Page) (hs : ∀ p, (f p).status = p.status)
    (hd : ∀ p, (f p).data = p.data) : Plain.of (b.mapPages ps pc f) = Plain.of b := by
  have h1 : ∀ i, (mapRange f ps pc b.pages i).status = (b.pages i).status := by
    intro i
    unfold mapRange
    split_ifs
    · exact hs _
    · rfl
  have h2 : ∀ i, (mapRange f ps pc b.pages i).data = (b.pages i).data := by
    intro i
    unfold mapRange
    split_ifs
    · exact hd _
    · rfl
  unfold Plain.of
  rw [Plain.mk.injEq]
  exact ⟨rfl, funext h1, funext h2, rfl⟩

theorem markInvisible_agrees (addr : Range) (hw : addr.NoWrap) :
    Agrees b (b.markInvisible addr) ((Plain.of b).markInvisible addr) := by
  unfold Block.markInvisible Plain.markInvisible
  by_cases hs : b.sealed = true
  · have hps : (Plain.of b).sealed = true := hs
    rw [if_pos hs, if_pos hps]
    exact agrees_same _
  have hps : ¬ (Plain.of b).sealed = true := hs
  rw [if_neg hs, if_neg hps]
  cases hv : b.validate addr with
  | none =>
    have hpv : validate (Plain.of b).addr addr = none := hv
    rw [hpv]
    exact agrees_same _
  | some q =>
    have hpv : validate (Plain.of b).addr addr = some q := hv
    have hin := hw.bounded q.1 q.2 hv
    rw [hpv]
    dsimp only
    rw [forRange_eq _ _ _ _ _ _ hin, ok_bind]
    change Agrees b ((b.mapPages q.1 q.2 Block.hidePage).refreshRange q.1 q.2 >>= _) _
    rw [refreshRange_eq (b.mapPages q.1 q.2 Block.hidePage) q.1 q.2 hin, ok_bind]
    have he : (b.mapPages q.1 q.2 Block.hidePage).mapPages q.1 q.2 (b.mapPages q.1 q.2 Block.hidePage).sync =
      b.mapPages q.1 q.2 fun p => b.sync (Block.hidePage p) := mapPages_mapPages b q.1 q.2 Block.hidePage b.sync
    rw [he]
    refine ⟨_, rfl, of_mapPages _ _ _ (fun p => ?_) (fun p => ?_), fun h => h.mapPages q.1 q.2 Block.hidePage⟩
    · rw [sync_status]
      rfl
    · rw [sync_data]
      rfl

theorem sealBlock_agrees : Agrees b b.sealBlock (Plain.of b).sealBlock := by
  unfold Block.sealBlock Plain.sealBlock
  by_cases hs : b.sealed = true
  · have hps : (Plain.of b).sealed = true := hs
    rw [if_pos hs, if_pos hps]
    exact agrees_same _
  have hps : ¬ (Plain.of b).sealed = true := hs
  rw [if_neg hs, if_neg hps, forRange_eq _ _ _ _ _ _ (by omega), ok_bind]
  change Agrees b ((b.mapPages 0 b.npages Block.sealPage).refreshAll >>= _) _
  rw [refreshAll_eq, ok_bind]
  have he : (b.mapPages 0 b.npages Block.sealPage).mapPages 0 b.npages (b.mapPages 0 b.npages Block.sealPage).sync =
    b.mapPages 0 b.npages fun p => b.sync (Block.sealPage p) := mapPages_mapPages b 0 b.npages Block.sealPage b.sync
  have hof : Plain.of (b.mapPages 0 b.npages fun p => b.sync (Block.sealPage p)) = Plain.of b := by
    refine of_mapPages _ _ _ (fun p => ?_) (fun p => ?_)
    · rw [sync_status]
      unfold Block.sealPage
      split_ifs <;> rfl
    · rw [sync_data]
      unfold Block.sealPage
      split_ifs <;> rfl
  change Agrees b (.ok (0, { (b.mapPages 0 b.npages Block.sealPage).mapPages 0 b.npages
    (b.mapPages 0 b.npages Block.sealPage).sync with sealed := true, hash := _ })) _
  rw [he]
  refine ⟨_, rfl, ?_, fun h => ?_⟩
  · have hst := congrArg Plain.status hof
    have hda := congrArg Plain.data hof
    unfold Plain.of at hst hda ⊢
    rw [Plain.mk.injEq]
    exact ⟨rfl, hst, hda, rfl⟩
  · have hm := h.mapPages 0 b.npages Block.sealPage
    exact ⟨hm.swappedIn, hm.native⟩

end MiniBox
