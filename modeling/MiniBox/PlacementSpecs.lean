import MiniBox.MemorySpecs

namespace MiniBox

open ByteStream IndexLoops Outcomes

variable {b : Block}

theorem findFreeLoop_spec (free : ℕ → Bool) (n stop fuel i : ℕ) (best : Option ℕ) (bestLen ps : ℕ)
    (hi : i ≤ stop) (hbest : ∀ q, best = some q → q + n ≤ stop ∧ ∀ j, q ≤ j → j < q + n → free j = true)
    (h : Block.findFreeLoop free n stop fuel i best bestLen = some ps) :
    ps + n ≤ stop ∧ ∀ j, ps ≤ j → j < ps + n → free j = true := by
  induction fuel generalizing i best bestLen with
  | zero => exact hbest ps h
  | succ fuel ih =>
    unfold Block.findFreeLoop at h
    split_ifs at h with hlt hf
    · simp only at h
      have hle := runEnd_le free true (stop - i) i
      have hkey := key_of_lt_runEnd free true (stop - i) i
      have hge := le_runEnd free true (stop - i) i
      split_ifs at h with hn
      · refine ih _ _ _ (by omega) ?_ h
        rintro q ⟨⟩
        exact ⟨by omega, fun j h1 h2 => hkey j h1 (by omega)⟩
      · exact ih _ _ _ (by omega) hbest h
    · exact ih _ _ _ (by omega) hbest h
    · exact hbest ps h

def Block.place (b : Block) (as acount n : ℕ) : Option ℕ :=
  Block.findFreeLoop (fun i => (b.pages i).isFree) n (as + acount) acount as none (2 ^ 64 - 1)

theorem place_spec {as acount n ps : ℕ} (h : b.place as acount n = some ps) :
    ps + n ≤ as + acount ∧ ∀ j, ps ≤ j → j < ps + n → (b.pages j).isFree = true :=
  findFreeLoop_spec _ _ _ _ _ _ _ _ (by omega) (by simp) h

theorem findFreePages_eq {as acount : ℕ} (n : ℕ) (h : as + acount ≤ b.npages) :
    b.findFreePages as acount n = .ok (b.place as acount n) := by
  have ht : b.inTable as acount = true := by simp [Block.inTable, h]
  rw [Block.findFreePages, if_pos ht]
  rfl

theorem mmap_eq (addr : Range) (prot : Prot) (arena : Range) (noReplace : Bool) (hb : b.Bounded addr)
    (ha : b.Bounded arena) :
    b.mmap addr prot arena noReplace =
      if addr.size = 0 then .ok (-einval, b)
      else if addr.start = 0 then
        if addr.size ≠ alignDown addr.size then .ok (-einval, b)
        else match b.validate arena with
          | none => .ok (-einval, b)
          | some (as, acount) => match b.place as acount (addr.size >>> 12).toNat with
            | none => .ok (-enomem, b)
            | some ps => .ok (sword (b.pageAddr ps),
                b.edit ps (addr.size >>> 12).toNat (.status (protStatus prot)))
      else match b.validate addr with
        | none => .ok (-einval, b)
        | some (ps, pc) =>
          if noReplace && b.hasTaken ps pc then .ok (-eexist, b)
          else .ok (sword addr.start, b.edit ps pc (.status (protStatus prot))) := by
  unfold Block.mmap
  split_ifs with h0 hs hal
  · rfl
  · rfl
  · cases hv : b.validate arena with
    | none => rfl
    | some r =>
      obtain ⟨as, acount⟩ := r
      have hin := ha as acount hv
      simp only [findFreePages_eq _ hin, ok_bind]
      cases hp : b.place as acount (addr.size >>> 12).toNat with
      | none => rfl
      | some ps =>
        have hle := (place_spec hp).1
        simp only [setProtections_eq b ps _ _ (hle.trans hin), ok_bind]
        rfl
  · rw [mmapFixed_eq addr prot noReplace hb]
    cases hv : b.validate addr with
    | none => simp [ok_bind, einval, pure, Except.pure]
    | some r =>
      simp only
      split_ifs <;> simp [ok_bind, eexist, pure, Except.pure]

theorem tail_noWrap (addr : Range) (newSize : UInt64) (hw : addr.NoWrap)
    (hn : Range.NoWrap ⟨addr.start, newSize⟩) (hle : newSize.toNat ≤ addr.size.toNat) :
    Range.NoWrap ⟨addr.start + newSize, addr.size - newSize⟩ := by
  unfold Range.NoWrap at hw hn ⊢
  simp only at hw hn ⊢
  rw [UInt64.toNat_add, UInt64.toNat_sub_of_le _ _ (UInt64.le_iff_toNat_le.mpr hle),
    Nat.mod_eq_of_lt hn]
  omega

theorem mremap_eq (addr : Range) (newSize : UInt64) (hb : b.Bounded addr)
    (hn : newSize > addr.size → b.Bounded ⟨addr.start, newSize⟩)
    (ht : ¬ newSize > addr.size → b.Bounded ⟨addr.start + newSize, addr.size - newSize⟩) :
    b.mremap addr newSize =
      if addr.size = 0 ∨ newSize = 0 then .ok (-einval, b)
      else if addr.start = 0 then .ok (-enosys, b)
      else match b.validate addr with
        | none => .ok (-einval, b)
        | some (ps, pc) =>
          if newSize > addr.size then
            match b.validate ⟨addr.start, newSize⟩ with
            | none => .ok (-einval, b)
            | some (fs, fc) =>
              if b.hasFree ps pc then .ok (-einval, b)
              else if b.hasTaken (ps + pc) (fs + fc - (ps + pc)) then .ok (-eexist, b)
              else .ok (sword addr.start, b.edit (ps + pc) (fc - pc) (.status (b.pages ps).status))
          else if b.hasFree ps pc then .ok (-einval, b)
          else match b.validate ⟨addr.start + newSize, addr.size - newSize⟩ with
            | none => .ok (-einval, b)
            | some (ts, tc) =>
              if b.hasFree ts tc then .ok (-einval, b)
              else .ok (sword addr.start, b.edit ts tc .unmap) := by
  unfold Block.mremap
  by_cases h0 : addr.size = 0 ∨ newSize = 0
  · simp only [h0, ↓reduceIte]
  by_cases hs : addr.start = 0
  · simp only [h0, hs, ↓reduceIte]
  simp only [h0, hs, ↓reduceIte]
  cases hv : b.validate addr with
  | none => rfl
  | some r =>
    obtain ⟨ps, pc⟩ := r
    have hin := hb ps pc hv
    simp only
    by_cases hg : newSize > addr.size
    · simp only [hg, ↓reduceIte]
      cases hf : b.validate ⟨addr.start, newSize⟩ with
      | none => rfl
      | some q =>
        obtain ⟨fs, fc⟩ := q
        have hfb := hn hg fs fc hf
        obtain ⟨-, hps, hpc, hpos, -, hal, -⟩ := validate_counts hv
        obtain ⟨-, hfs, hfc, -⟩ := validate_counts hf
        have hlt := UInt64.lt_iff_toNat_lt.mp hg
        simp only at hfs hfc
        have hcount : ps + pc ≤ fs + fc := by omega
        have hst : b.statusAt ps = .ok (b.pages ps).status := if_pos (by omega)
        have htaken := anyTaken_eq (b := b) (ps + pc) (fs + fc - (ps + pc)) (by omega)
        have hset := setProtections_eq b (ps + pc) (fc - pc) (b.pages ps).status (by omega)
        simp only [anyFree_eq ps pc hin, htaken, hst, hset, ok_bind]
        split_ifs <;> rfl
    · have htb := ht hg
      simp only [hg, ↓reduceIte, anyFree_eq ps pc hin, ok_bind, munmapImpl_eq _ false htb]
      by_cases hfree : b.hasFree ps pc = true
      · simp only [hfree, ↓reduceIte]; rfl
      · simp only [hfree, Bool.false_eq_true, ↓reduceIte]
        cases htv : b.validate ⟨addr.start + newSize, addr.size - newSize⟩ with
        | none => simp [ok_bind, einval, pure, Except.pure]
        | some q =>
          simp only
          split_ifs <;> simp [ok_bind, einval, pure, Except.pure]

end MiniBox
