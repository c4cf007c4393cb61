import MiniBox.PlacementSpecs

namespace MiniBox

open ByteStream IndexLoops Outcomes

variable {b b' : Block}

/-- The block was edited on one stretch of pages; a status given to a page is never
`Free`, only `unmap` frees. -/
def Edited (b b' : Block) : Prop :=
  ∃ ps pc e, ps + pc ≤ b.npages ∧ e ≠ .status stFree ∧ b' = b.edit ps pc e

def Settles (b b' : Block) : Prop := b' = b ∨ Edited b b'

def Outcome (b : Block) (r : ℤ) (b' : Block) : Prop := b' = b ∨ (4096 : ℤ) ∣ r ∧ Edited b b'

theorem Outcome.settles {r : ℤ} (h : Outcome b r b') : Settles b b' := by
  rcases h with h | ⟨-, h⟩
  · exact Or.inl h
  · exact Or.inr h

def Block.tryEdit (b : Block) (ps pc : ℕ) (e : PageEdit) : Except Crash Block :=
  if b.inTable ps pc then .ok (b.edit ps pc e) else .error .outOfBounds

theorem mapPages_zero (ps : ℕ) (f : Page → Page) : b.mapPages ps 0 f = b := by
  rw [Block.mapPages, mapRange_zero]
  rfl

theorem setProtections_tryEdit (ps pc : ℕ) (st : UInt8) :
    b.setProtections ps pc st = b.tryEdit ps pc (.status st) := by
  unfold Block.tryEdit
  by_cases h : ps + pc ≤ b.npages
  · rw [setProtections_eq b ps pc st h, if_pos (by simp [Block.inTable, h])]
    rfl
  · by_cases h0 : pc = 0
    · subst h0
      have ht : b.inTable ps 0 = true := by simp [Block.inTable]
      rw [if_pos ht, Block.edit, mapPages_zero, Block.setProtections, forRange, ok_bind, Block.refreshRange]
      simp only [withPages_swappedIn, Block.inTable, decide_true, true_or, ↓reduceIte,
        Block.refreshLoop]
      split_ifs <;> rfl
    · rw [Block.setProtections, forRange_error _ _ _ _ _ _ (by omega) (by omega),
        if_neg (by simp [Block.inTable, h, h0])]
      rfl

theorem dvd_sword {a : UInt64} (h : a.toNat % 4096 = 0) : (4096 : ℤ) ∣ sword a := by
  unfold sword
  split_ifs
  · omega
  · omega

theorem aligned_pageAddr (i : ℕ) : (b.pageAddr i).toNat % 4096 = 0 := by
  have h := (eq_alignDown_iff _).mp b.span.start_aligned
  rw [Block.pageAddr, UInt64.toNat_add, UInt64.toNat_shiftLeft]
  simp only [UInt64.reduceToNat, Nat.reduceMod, Nat.shiftLeft_eq, Nat.reducePow]
  omega

theorem tryEdit_outcome {ps pc : ℕ} {e : PageEdit} {r : ℤ} (h : b.tryEdit ps pc e = .ok b')
    (he : e ≠ .status stFree) (hr : (4096 : ℤ) ∣ r) : Outcome b r b' := by
  unfold Block.tryEdit at h
  split_ifs at h with ht
  cases Except.ok.inj h
  by_cases h0 : pc = 0
  · subst h0
    exact Or.inl (mapPages_zero _ _)
  · simp only [Block.inTable, h0, false_or, decide_eq_true_eq] at ht
    exact Or.inr ⟨hr, ps, pc, e, ht, he, rfl⟩

theorem protStatus_ne_free (prot : Prot) : protStatus prot ≠ stFree := by
  cases prot <;> decide

theorem setProtections_outcome {ps pc : ℕ} {st : UInt8} {r : ℤ} (h : b.setProtections ps pc st = .ok b')
    (hs : st ≠ stFree) (hr : (4096 : ℤ) ∣ r) : Outcome b r b' := by
  rw [setProtections_tryEdit] at h
  exact tryEdit_outcome h (fun he => hs (PageEdit.status.inj he)) hr

theorem validate_pos {r : Range} {ps pc : ℕ} (h : b.validate r = some (ps, pc)) : 0 < pc := by
  obtain ⟨-, -, rfl, hpos, -, hal, -⟩ := validate_counts h
  omega

theorem dvd_start {r : Range} {ps pc : ℕ} (h : b.validate r = some (ps, pc)) : (4096 : ℤ) ∣ sword r.start :=
  dvd_sword (validate_counts h).2.2.2.2.1

theorem anyFree_false {ps pc : ℕ} (h : b.anyFree ps pc = .ok false) (hp : 0 < pc) :
    ps + pc ≤ b.npages ∧ (b.pages ps).status ≠ stFree := by
  obtain ⟨hb, hf⟩ := anyRange_false h
  exact ⟨by omega, by simpa [Page.isFree] using hf ps (by omega) (by omega)⟩

theorem answer_of_ok {c : Block} {r r' : ℤ} (h : (Except.ok (r, c) : Except Crash (ℤ × Block)) = .ok (r', b')) :
    r = r' ∧ c = b' := Prod.mk.inj (Except.ok.inj h)

theorem block_of_ok {c : Block} {r r' : ℤ} (h : (Except.ok (r, c) : Except Crash (ℤ × Block)) = .ok (r', b')) :
    c = b' := (answer_of_ok h).2

theorem outcome_same {r r' : ℤ} (h : (Except.ok (r, b) : Except Crash (ℤ × Block)) = .ok (r', b')) :
    Outcome b r' b' := Or.inl (block_of_ok h).symm

theorem mmapFixed_outcome {addr : Range} {prot : Prot} {noReplace : Bool} {r : ℤ}
    (h : b.mmapFixed addr prot noReplace = .ok (r, b')) :
    Outcome b r b' ∧ (r = 0 → ∃ q, b.validate addr = some q) := by
  unfold Block.mmapFixed at h
  cases hv : b.validate addr with
  | none =>
    rw [hv] at h
    refine ⟨outcome_same h, ?_⟩
    rintro rfl
    cases (answer_of_ok h).1
  | some q =>
    refine ⟨?_, fun _ => ⟨q, rfl⟩⟩
    rw [hv] at h
    have hrest : ∀ taken : Bool, (if taken then (pure (-eexist, b) : Except Crash (ℤ × Block)) else do
        let b ← b.setProtections q.1 q.2 (protStatus prot)
        return (0, b)) = .ok (r, b') → Outcome b r b' := by
      intro taken ht
      split_ifs at ht
      · exact outcome_same ht
      · obtain ⟨c, hc, hr⟩ := bind_ok ht
        obtain ⟨rfl, rfl⟩ := answer_of_ok hr
        exact setProtections_outcome hc (protStatus_ne_free prot) (dvd_zero _)
    cases noReplace with
    | false => exact hrest false h
    | true =>
      obtain ⟨taken, -, ht⟩ := bind_ok h
      exact hrest taken ht

theorem Outcome.report {r : ℤ} {a : UInt64} (h : Outcome b r b') (ha : r = 0 → (4096 : ℤ) ∣ sword a) :
    Outcome b (if r ≠ 0 then r else sword a) b' := by
  rcases h with h | ⟨hr, h⟩
  · exact Or.inl h
  · refine Or.inr ⟨?_, h⟩
    split_ifs with h0
    · exact hr
    · exact ha (not_not.mp h0)

theorem mmap_outcome {addr arena : Range} {prot : Prot} {noReplace : Bool} {r : ℤ}
    (h : b.mmap addr prot arena noReplace = .ok (r, b')) : Outcome b r b' := by
  unfold Block.mmap at h
  split_ifs at h
  · exact outcome_same h
  · exact outcome_same h
  · cases hv : b.validate arena with
    | none => rw [hv] at h; exact outcome_same h
    | some q =>
      rw [hv] at h
      obtain ⟨found, -, hf⟩ := bind_ok h
      cases found with
      | none => exact outcome_same hf
      | some ps =>
        obtain ⟨c, hc, hr⟩ := bind_ok hf
        obtain ⟨rfl, rfl⟩ := answer_of_ok hr
        exact setProtections_outcome hc (protStatus_ne_free prot) (dvd_sword (aligned_pageAddr ps))
  · obtain ⟨⟨r', c⟩, hc, hr⟩ := bind_ok h
    obtain ⟨rfl, rfl⟩ := answer_of_ok hr
    obtain ⟨hout, hv⟩ := mmapFixed_outcome hc
    apply hout.report
    intro h0
    obtain ⟨q, hq⟩ := hv h0
    exact dvd_start hq

theorem mprotect_outcome {addr : Range} {prot : Prot} {r : ℤ} (h : b.mprotect addr prot = .ok (r, b')) :
    Outcome b r b' := by
  unfold Block.mprotect at h
  cases hv : b.validate addr with
  | none => rw [hv] at h; exact outcome_same h
  | some q =>
    rw [hv] at h
    obtain ⟨free, -, hf⟩ := bind_ok h
    split_ifs at hf
    · exact outcome_same hf
    · obtain ⟨c, hc, hr⟩ := bind_ok hf
      obtain ⟨rfl, rfl⟩ := answer_of_ok hr
      exact setProtections_outcome hc (protStatus_ne_free prot) (dvd_zero _)

theorem munmapImpl_outcome {addr : Range} {adviseOnly : Bool} {r : ℤ}
    (h : b.munmapImpl addr adviseOnly = .ok (r, b')) : Outcome b r b' := by
  unfold Block.munmapImpl at h
  cases hv : b.validate addr with
  | none => rw [hv] at h; exact outcome_same h
  | some q =>
    rw [hv] at h
    obtain ⟨free, hfree, hf⟩ := bind_ok h
    cases free with
    | true => exact outcome_same hf
    | false =>
      have hb := (anyFree_false hfree (validate_pos hv)).1
      obtain ⟨c, hc, hr⟩ := bind_ok hf
      rw [freePages_eq _ _ _ hb] at hc
      cases hc
      obtain ⟨rfl, rfl⟩ := answer_of_ok hr
      refine Or.inr ⟨dvd_zero _, _, _, _, hb, ?_, rfl⟩
      cases adviseOnly <;> simp

theorem mremap_outcome {addr : Range} {newSize : UInt64} {r : ℤ} (h : b.mremap addr newSize = .ok (r, b')) :
    Outcome b r b' := by
  unfold Block.mremap at h
  by_cases h0 : addr.size = 0 ∨ newSize = 0
  · rw [if_pos h0] at h
    exact outcome_same h
  rw [if_neg h0] at h
  by_cases hz : addr.start = 0
  · rw [if_pos hz] at h
    exact outcome_same h
  rw [if_neg hz] at h
  cases hv : b.validate addr with
  | none => rw [hv] at h; exact outcome_same h
  | some q =>
    rw [hv] at h
    simp only at h
    split_ifs at h
    · cases hv' : b.validate ⟨addr.start, newSize⟩ with
      | none => rw [hv'] at h; exact outcome_same h
      | some q' =>
        rw [hv'] at h
        obtain ⟨free, hfree, hf⟩ := bind_ok h
        cases free with
        | true => exact outcome_same hf
        | false =>
          obtain ⟨taken, -, ht⟩ := bind_ok hf
          cases taken with
          | true => exact outcome_same ht
          | false =>
            obtain ⟨hb, hne⟩ := anyFree_false hfree (validate_pos hv)
            obtain ⟨st, hst, hs⟩ := bind_ok ht
            obtain ⟨c, hc, hr⟩ := bind_ok hs
            have hlt : q.1 < b.npages := by
              have := validate_pos hv
              omega
            rw [Block.statusAt, if_pos hlt] at hst
            cases hst
            obtain ⟨rfl, rfl⟩ := answer_of_ok hr
            exact setProtections_outcome hc hne (dvd_start hv)
    · obtain ⟨free, -, hf⟩ := bind_ok h
      cases free with
      | true => exact outcome_same hf
      | false =>
        obtain ⟨⟨r', c⟩, hc, hr⟩ := bind_ok hf
        obtain ⟨rfl, rfl⟩ := answer_of_ok hr
        exact (munmapImpl_outcome hc).report fun _ => dvd_start hv

theorem MemOp.run_outcome {op : MemOp} {r : ℤ} (h : op.run b = .ok (r, b')) : Outcome b r b' := by
  cases op with
  | mmapFixed addr prot noReplace => exact (mmapFixed_outcome h).1
  | mmap addr prot arena noReplace => exact mmap_outcome h
  | mprotect addr prot => exact mprotect_outcome h
  | munmap addr => exact munmapImpl_outcome h
  | madviseDontneed addr => exact munmapImpl_outcome h
  | mremap addr newSize => exact mremap_outcome h

theorem MemOp.run_settles {op : MemOp} {r : ℤ} (h : op.run b = .ok (r, b')) : Settles b b' :=
  (MemOp.run_outcome h).settles

end MiniBox
