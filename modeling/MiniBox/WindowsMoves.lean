import MiniBox.PlacementSpecs
import MiniBox.WindowsBlock

namespace MiniBox

open ByteStream IndexLoops Outcomes Relation

namespace WinPage

def sync (swappedIn : Bool) (p : WinPage) : WinPage := if swappedIn then p.refresh else p

def Unseen (swappedIn : Bool) (p : WinPage) : Prop :=
  swappedIn = true ∧ p.invisible = false ∧ p.status = stRWStack ∧ p.dirty = false ∧ p.guard = false

@[simp] theorem sync_status (sw : Bool) (p : WinPage) : (p.sync sw).status = p.status := by cases sw <;> rfl
@[simp] theorem sync_dirty (sw : Bool) (p : WinPage) : (p.sync sw).dirty = p.dirty := by cases sw <;> rfl
@[simp] theorem sync_invisible (sw : Bool) (p : WinPage) : (p.sync sw).invisible = p.invisible := by cases sw <;> rfl
@[simp] theorem sync_snap (sw : Bool) (p : WinPage) : (p.sync sw).snap = p.snap := by cases sw <;> rfl
@[simp] theorem sync_data (sw : Bool) (p : WinPage) : (p.sync sw).data = p.data := by cases sw <;> rfl

theorem preCapture_of_ne {p : WinPage} (h : p.status ≠ stRWStack) : p.preCapture = p := if_neg h

theorem preCapture_of_snap {p : WinPage} (h : p.snap ≠ .none) : p.preCapture = p := by
  unfold preCapture
  split_ifs
  · unfold onPage Page.maybeSnapshot
    cases hs : p.snap with
    | none => exact absurd hs h
    | zero => rfl
    | data d => rfl
  · rfl

end WinPage

namespace WinBlock

variable {b b' c : WinBlock}

def mapPages (b : WinBlock) (pstart pcount : ℕ) (f : WinPage → WinPage) : WinBlock :=
  b.withPages (mapRange f pstart pcount b.pages)

def edit (b : WinBlock) (ps pc : ℕ) (e : PageEdit) : WinBlock :=
  b.mapPages ps pc fun p => ((p.onPage e.apply).sync b.swappedIn).preCapture

theorem mapPages_mapPages (ps pc : ℕ) (f g : WinPage → WinPage) :
    (b.mapPages ps pc f).mapPages ps pc g = b.mapPages ps pc (g ∘ f) :=
  congrArg b.withPages (mapRange_mapRange f g ps pc b.pages)

theorem mapPages_congr {ps pc : ℕ} {f g : WinPage → WinPage} (h : ∀ p, f p = g p) :
    b.mapPages ps pc f = b.mapPages ps pc g := by
  rw [show f = g from funext h]

theorem refreshRange_eq (b : WinBlock) (ps pc : ℕ) (h : ps + pc ≤ b.npages) :
    b.refreshRange ps pc = .ok (b.mapPages ps pc (WinPage.sync b.swappedIn)) := by
  have ht : b.toBlock.inTable ps pc = true := by
    simp only [Block.inTable, decide_eq_true_eq]
    exact Or.inr h
  unfold refreshRange
  cases hs : b.swappedIn with
  | true =>
    have hloop := runLoop_eq WinPage.winProt WinPage.protect (ps + pc) pc ps b.pages (by omega) (by omega)
    rw [if_pos rfl, if_pos ht, hloop, Nat.add_sub_cancel_left]
    rfl
  | false =>
    have hid : mapRange (WinPage.sync false) ps pc b.pages = b.pages := by
      funext j
      simp [mapRange, WinPage.sync]
    rw [if_neg (by simp), mapPages, hid]
    rfl

theorem setProtections_eq (b : WinBlock) (ps pc : ℕ) (st : UInt8) (h : ps + pc ≤ b.npages) :
    b.setProtections ps pc st = .ok (b.edit ps pc (.status st)) := by
  unfold setProtections
  rw [forRange_eq _ _ _ _ _ _ h, ok_bind]
  change ((b.mapPages ps pc (WinPage.onPage (Page.setStatus st))).refreshRange ps pc >>= _) = _
  rw [refreshRange_eq (b.mapPages ps pc _) ps pc h, ok_bind, mapPages_mapPages]
  have hstatus : ∀ p : WinPage, ((p.onPage (Page.setStatus st)).sync b.swappedIn).status = st := by
    intro p
    cases hs : b.swappedIn <;> rfl
  by_cases hst : st = stRWStack
  · rw [if_pos hst]
    change (forRange b.npages Crash.outOfBounds _ ps pc _ >>= _) = _
    rw [forRange_eq _ _ _ _ _ _ h, ok_bind]
    apply congrArg Except.ok
    change (mapPages _ ps pc _) = _
    rw [mapPages_mapPages, edit]
    apply mapPages_congr
    intro p
    exact (if_pos ((hstatus p).trans hst)).symm
  · rw [if_neg hst]
    apply congrArg Except.ok
    rw [edit]
    apply mapPages_congr
    intro p
    exact (WinPage.preCapture_of_ne ((hstatus p).trans_ne hst)).symm

theorem release_snap_ne (p : Page) : p.release.snap ≠ .none := by
  change p.maybeSnapshot.snap ≠ .none
  unfold Page.maybeSnapshot
  cases hs : p.snap with
  | none => simp
  | zero => simp [hs]
  | data d => simp [hs]

theorem freePages_eq (b : WinBlock) (ps pc : ℕ) (adviseOnly : Bool) (h : ps + pc ≤ b.npages) :
    b.freePages ps pc adviseOnly = .ok (b.edit ps pc (if adviseOnly then .advise else .unmap)) := by
  unfold freePages
  rw [forRange_eq _ _ _ _ _ _ h, ok_bind]
  cases adviseOnly with
  | true =>
    change (b.mapPages ps pc (WinPage.onPage Page.release)).refreshRange ps pc = _
    rw [refreshRange_eq (b.mapPages ps pc _) ps pc h, mapPages_mapPages, edit]
    apply congrArg Except.ok
    apply mapPages_congr
    intro p
    have hsnap : ((p.onPage Page.release).sync b.swappedIn).snap ≠ .none := by
      rw [WinPage.sync_snap]
      exact release_snap_ne p.toPage
    exact (WinPage.preCapture_of_snap hsnap).symm
  | false =>
    change (b.mapPages ps pc (WinPage.onPage Page.release)).setProtections ps pc stFree = _
    rw [setProtections_eq (b.mapPages ps pc _) ps pc stFree h, edit, mapPages_mapPages]
    rfl

def sampled (b : WinBlock) : WinBlock := if b.swappedIn then b.swept else b

def Answers (b : WinBlock) (query : Query) : Prop :=
  b.swappedIn = true → ∃ os : AddressSpace b.addr, ∀ pages, os.Reports pages (query pages)

theorem sampleStacks_eq {query : Query} (h : b.Answers query) : b.sampleStacks query = .ok b.sampled := by
  unfold sampleStacks sampled
  cases hs : b.swappedIn with
  | false => rw [getStackDirty, if_neg (by simp [hs])]; rfl
  | true =>
    obtain ⟨os, hq⟩ := h hs
    rw [getStackDirty_eq (hq b.pages) (Nat.lt_succ_self _) hs]
    rfl

theorem sampled_addr : b.sampled.addr = b.addr := by unfold sampled; split_ifs <;> rfl
theorem sampled_sealed : b.sampled.sealed = b.sealed := by unfold sampled; split_ifs <;> rfl
theorem sampled_swappedIn : b.sampled.swappedIn = b.swappedIn := by unfold sampled; split_ifs <;> rfl

theorem sampled_answers {query : Query} (h : b.Answers query) : b.sampled.Answers query := by
  unfold sampled
  split_ifs
  · exact h
  · exact h

def Edited (b b' : WinBlock) : Prop := b' = b ∨ ∃ ps pc e, ps + pc ≤ b.npages ∧ b' = b.edit ps pc e

theorem edited_same {r r' : ℤ} (h : (Except.ok (r, b) : Except Crash (ℤ × WinBlock)) = .ok (r', b')) :
    b.Edited b' := Or.inl (Prod.mk.inj (Except.ok.inj h)).2.symm

theorem bounds {r : Range} {q : ℕ × ℕ} (hw : r.NoWrap) (h : b.toBlock.validate r = some q) :
    q.1 + q.2 ≤ b.npages := by
  have hb : b.toBlock.Bounded r := hw.bounded
  exact hb q.1 q.2 h

theorem mprotect_edited {query : Query} (hq : b.Answers query) {addr : Range} {prot : Prot} (hw : addr.NoWrap) {r : ℤ}
    (h : b.mprotect query addr prot = .ok (r, b')) : b.sampled.Edited b' := by
  unfold mprotect at h
  rw [sampleStacks_eq hq, ok_bind] at h
  cases hv : b.sampled.toBlock.validate addr with
  | none => rw [hv] at h; exact edited_same h
  | some q =>
    rw [hv] at h
    obtain ⟨free, -, hf⟩ := bind_ok h
    split_ifs at hf
    · exact edited_same hf
    · rw [setProtections_eq _ _ _ _ (bounds hw hv), ok_bind] at hf
      exact Or.inr ⟨_, _, _, bounds hw hv, (Prod.mk.inj (Except.ok.inj hf)).2.symm⟩

theorem munmapImpl_edited {query : Query} (hq : b.Answers query) {addr : Range} {adviseOnly : Bool} (hw : addr.NoWrap)
    {r : ℤ} (h : b.munmapImpl query addr adviseOnly = .ok (r, b')) : b.sampled.Edited b' := by
  unfold munmapImpl at h
  rw [sampleStacks_eq hq, ok_bind] at h
  cases hv : b.sampled.toBlock.validate addr with
  | none => rw [hv] at h; exact edited_same h
  | some q =>
    rw [hv] at h
    obtain ⟨free, -, hf⟩ := bind_ok h
    split_ifs at hf
    · exact edited_same hf
    · rw [freePages_eq _ _ _ _ (bounds hw hv), ok_bind] at hf
      exact Or.inr ⟨_, _, _, bounds hw hv, (Prod.mk.inj (Except.ok.inj hf)).2.symm⟩

theorem mremap_edited {query : Query} (hq : b.Answers query) {addr : Range} {newSize : UInt64} (hw : addr.NoWrap)
    (hn : Range.NoWrap ⟨addr.start, newSize⟩) {r : ℤ} (h : b.mremap query addr newSize = .ok (r, b')) :
    b.sampled.Edited b' ∨ b.sampled.sampled.Edited b' := by
  unfold mremap at h
  rw [sampleStacks_eq hq, ok_bind] at h
  by_cases h0 : addr.size = 0 ∨ newSize = 0
  · rw [if_pos h0] at h
    exact Or.inl (edited_same h)
  rw [if_neg h0] at h
  by_cases hz : addr.start = 0
  · rw [if_pos hz] at h
    exact Or.inl (edited_same h)
  rw [if_neg hz] at h
  cases hv : b.sampled.toBlock.validate addr with
  | none => rw [hv] at h; exact Or.inl (edited_same h)
  | some q =>
    rw [hv] at h
    dsimp only at h
    by_cases hg : newSize > addr.size
    · rw [if_pos hg] at h
      cases hf : b.sampled.toBlock.validate ⟨addr.start, newSize⟩ with
      | none => rw [hf] at h; exact Or.inl (edited_same h)
      | some f =>
        rw [hf] at h
        obtain ⟨free, -, h⟩ := bind_ok h
        cases free with
        | true => exact Or.inl (edited_same h)
        | false =>
          obtain ⟨taken, -, h⟩ := bind_ok h
          cases taken with
          | true => exact Or.inl (edited_same h)
          | false =>
            obtain ⟨st, -, h⟩ := bind_ok h
            have hle : q.1 + q.2 + (f.2 - q.2) ≤ b.sampled.npages := by
              have hfull := bounds hn hf
              obtain ⟨-, hps, hpc, -⟩ := validate_counts (show _ = some (q.1, q.2) from hv)
              obtain ⟨-, hfs, hfc, -⟩ := validate_counts (show _ = some (f.1, f.2) from hf)
              have hlt := UInt64.lt_iff_toNat_lt.mp hg
              dsimp only at hfs hfc
              omega
            rw [setProtections_eq _ _ _ _ hle, ok_bind] at h
            exact Or.inl (Or.inr ⟨_, _, _, hle, (Prod.mk.inj (Except.ok.inj h)).2.symm⟩)
    · rw [if_neg hg] at h
      obtain ⟨free, -, h⟩ := bind_ok h
      cases free with
      | true => exact Or.inl (edited_same h)
      | false =>
        obtain ⟨u, hu, h⟩ := bind_ok h
        have htail := tail_noWrap addr newSize hw hn (UInt64.le_iff_toNat_le.mp (UInt64.not_lt.mp hg))
        have hedit := munmapImpl_edited (sampled_answers hq) htail hu
        rw [(Prod.mk.inj (Except.ok.inj h)).2] at hedit
        exact Or.inr hedit

theorem mmapFixed_edited {addr : Range} {prot : Prot} {noReplace : Bool} (hw : addr.NoWrap) {r : ℤ}
    (h : b.mmapFixed addr prot noReplace = .ok (r, b')) :
    b' = b ∨ ∃ q, b.toBlock.validate addr = some q ∧ q.1 + q.2 ≤ b.npages ∧
      (noReplace = true → ∀ i, q.1 ≤ i → i < q.1 + q.2 → (b.pages i).status = stFree) ∧
      b' = b.edit q.1 q.2 (.status (protStatus prot)) := by
  unfold mmapFixed at h
  cases hv : b.toBlock.validate addr with
  | none => rw [hv] at h; exact Or.inl (Prod.mk.inj (Except.ok.inj h)).2.symm
  | some q =>
    rw [hv] at h
    have hb := bounds hw hv
    cases noReplace with
    | false =>
      obtain ⟨taken, ht, h⟩ := bind_ok h
      cases ht
      obtain ⟨c, hc, h⟩ := bind_ok h
      rw [setProtections_eq _ _ _ _ hb] at hc
      cases hc
      exact Or.inr ⟨q, rfl, hb, by simp, (Prod.mk.inj (Except.ok.inj h)).2.symm⟩
    | true =>
      obtain ⟨taken, ht, h⟩ := bind_ok h
      cases taken with
      | true => exact Or.inl (Prod.mk.inj (Except.ok.inj h)).2.symm
      | false =>
        obtain ⟨c, hc, h⟩ := bind_ok h
        rw [setProtections_eq _ _ _ _ hb] at hc
        cases hc
        refine Or.inr ⟨q, rfl, hb, fun _ i h1 h2 => ?_, (Prod.mk.inj (Except.ok.inj h)).2.symm⟩
        have hfree : (!(b.pages i).isFree) = false := (anyRange_false ht).2 i h1 h2
        exact of_decide_eq_true (by rwa [Bool.not_eq_false'] at hfree)

theorem mmap_edited {addr arena : Range} {prot : Prot} {noReplace : Bool} (ha : arena.NoWrap) {r : ℤ}
    (h : b.mmap addr prot arena noReplace = .ok (r, b')) :
    b' = b ∨ (addr.start ≠ 0 ∧ ∃ r', b.mmapFixed addr prot noReplace = .ok (r', b')) ∨ ∃ ps pc, ps + pc ≤ b.npages ∧
      (∀ i, ps ≤ i → i < ps + pc → (b.pages i).status = stFree) ∧ b' = b.edit ps pc (.status (protStatus prot)) := by
  unfold mmap at h
  split_ifs at h with h0 hz
  · exact Or.inl (Prod.mk.inj (Except.ok.inj h)).2.symm
  · exact Or.inl (Prod.mk.inj (Except.ok.inj h)).2.symm
  · cases hv : b.toBlock.validate arena with
    | none => rw [hv] at h; exact Or.inl (Prod.mk.inj (Except.ok.inj h)).2.symm
    | some q =>
      rw [hv] at h
      have hb := bounds ha hv
      obtain ⟨found, hfound, h⟩ := bind_ok h
      cases found with
      | none => exact Or.inl (Prod.mk.inj (Except.ok.inj h)).2.symm
      | some ps =>
        rw [findFreePages_eq (b := b.toBlock) _ hb] at hfound
        obtain ⟨hle, hfree⟩ := place_spec (Except.ok.inj hfound)
        obtain ⟨c, hc, h⟩ := bind_ok h
        rw [setProtections_eq _ _ _ _ (hle.trans hb)] at hc
        cases hc
        refine Or.inr (Or.inr ⟨_, _, hle.trans hb, fun i h1 h2 => ?_, (Prod.mk.inj (Except.ok.inj h)).2.symm⟩)
        exact of_decide_eq_true (hfree i h1 h2)
  · obtain ⟨u, hu, h⟩ := bind_ok h
    have hb := (Prod.mk.inj (Except.ok.inj h)).2
    exact Or.inr (Or.inl ⟨hz, u.1, hb ▸ hu⟩)

theorem markInvisible_cases {addr : Range} (hw : addr.NoWrap) {r : ℤ} (h : b.markInvisible addr = .ok (r, b')) :
    b' = b ∨ b.sealed = false ∧ ∃ ps pc, ps + pc ≤ b.npages ∧
      b' = b.mapPages ps pc fun p => (p.onPage Block.hidePage).sync b.swappedIn := by
  unfold markInvisible at h
  split_ifs at h with hs
  · exact Or.inl (Prod.mk.inj (Except.ok.inj h)).2.symm
  · cases hv : b.toBlock.validate addr with
    | none => rw [hv] at h; exact Or.inl (Prod.mk.inj (Except.ok.inj h)).2.symm
    | some q =>
      rw [hv] at h
      have hb := bounds hw hv
      obtain ⟨pages, hp, h⟩ := bind_ok h
      rw [forRange_eq _ _ _ _ _ _ hb] at hp
      cases hp
      obtain ⟨c, hc, h⟩ := bind_ok h
      change (b.mapPages q.1 q.2 (WinPage.onPage Block.hidePage)).refreshRange q.1 q.2 = _ at hc
      rw [refreshRange_eq (b.mapPages q.1 q.2 _) _ _ hb, mapPages_mapPages] at hc
      cases hc
      exact Or.inr ⟨by simpa using hs, _, _, hb, (Prod.mk.inj (Except.ok.inj h)).2.symm⟩

end WinBlock

inductive Shift : WinBlock → WinBlock → Prop
  | sample {b : WinBlock} : b.swappedIn = true → Shift b b.swept
  | edit {b : WinBlock} {ps pc : ℕ} (e : PageEdit) : ps + pc ≤ b.npages →
      (∀ i, ps ≤ i → i < ps + pc → ¬ (b.pages i).Unseen b.swappedIn) → Shift b (b.edit ps pc e)
  | hide {b : WinBlock} {ps pc : ℕ} : b.sealed = false → ps + pc ≤ b.npages →
      Shift b (b.mapPages ps pc fun p => (p.onPage Block.hidePage).sync b.swappedIn)
  | touch {b : WinBlock} (i : ℕ) : b.swappedIn = true → Shift b (b.setPage i (b.pages i).touch)
  | store {b : WinBlock} (i : ℕ) (o : Fin 4096) (v : UInt8) : b.swappedIn = true → (b.pages i).native.write = true →
      (b.pages i).guard = false → Shift b (b.setPage i ((b.pages i).onPage (Page.store o v)))
  | trip {b : WinBlock} (i : ℕ) : b.swappedIn = true → (b.pages i).native.write = false →
      Shift b (b.setPage i (b.pages i).trip)
  | map {b : WinBlock} (active : Bool) : b.swappedIn = false →
      Shift b { b.mapPages 0 b.npages WinPage.refresh with swappedIn := true, active := active }
  | flag {b : WinBlock} (active : Bool) : Shift b { b with active := active }

namespace WinBlock

variable {b b' c : WinBlock}

theorem sampled_shifts : ReflTransGen Shift b b.sampled := by
  unfold sampled
  split_ifs with hs
  · exact .single (.sample hs)
  · exact .refl

theorem not_unseen_sampled (i : ℕ) (hi : i < b.npages) : ¬ (b.sampled.pages i).Unseen b.sampled.swappedIn := by
  rw [sampled_swappedIn]
  rintro ⟨hs, -, hst, hd, hg⟩
  rw [sampled, if_pos hs] at hst hd hg
  have hp : (b.swept.pages i) = (b.pages i).sweep := mapRange_mem _ _ _ _ _ ⟨Nat.zero_le i, by omega⟩
  rw [hp, WinPage.sweep, WinPage.mark_eq] at hst hd hg
  have hst' : (b.pages i).status = stRWStack := hst
  have hg' : (b.pages i).guard = false := hg
  simp [hst', hg'] at hd

theorem Edited.shifts (h : b.Edited b') (hq : ∀ i, i < b.npages → ¬ (b.pages i).Unseen b.swappedIn) :
    ReflTransGen Shift b b' := by
  rcases h with rfl | ⟨ps, pc, e, hb, rfl⟩
  · exact .refl
  · exact .single (.edit e hb fun i _ h2 => hq i (by omega))

theorem sampled_npages : b.sampled.npages = b.npages := by rw [npages, npages, sampled_addr]

theorem sampled_edited_shifts (h : b.sampled.Edited b') : ReflTransGen Shift b b' :=
  sampled_shifts.trans (h.shifts fun i hi => not_unseen_sampled i (sampled_npages (b := b) ▸ hi))

def Settled (b : WinBlock) (addr : Range) : Prop :=
  ∀ q, b.toBlock.validate addr = some q → ∀ i, q.1 ≤ i → i < q.1 + q.2 → ¬ (b.pages i).Unseen b.swappedIn

theorem not_unseen_of_free {p : WinPage} {sw : Bool} (h : p.status = stFree) : ¬ p.Unseen sw := by
  rintro ⟨-, -, hst, -⟩
  rw [h] at hst
  exact absurd hst (by decide)

theorem mmapFixed_shifts {addr : Range} {prot : Prot} {noReplace : Bool} (hw : addr.NoWrap)
    (hs : noReplace = false → b.Settled addr) {r : ℤ} (h : b.mmapFixed addr prot noReplace = .ok (r, b')) :
    ReflTransGen Shift b b' := by
  rcases mmapFixed_edited hw h with rfl | ⟨q, hv, hb, hfree, rfl⟩
  · exact .refl
  · refine .single (.edit _ hb fun i h1 h2 => ?_)
    cases noReplace with
    | false => exact hs rfl q hv i h1 h2
    | true => exact not_unseen_of_free (hfree rfl i h1 h2)

theorem guestRead_shifts {a : UInt64} {v : UInt8} (h : b.guestRead a = .ok (v, b')) : ReflTransGen Shift b b' := by
  unfold guestRead at h
  dsimp only at h
  split_ifs at h with hm
  cases h
  simp only [Bool.and_eq_true, Block.mapped] at hm
  exact .single (.touch _ hm.1.1)

theorem setPage_setPage (i : ℕ) (p q : WinPage) : (b.setPage i p).setPage i q = b.setPage i q :=
  congrArg b.withPages (Function.update_idem _ _ _)

theorem setPage_same (i : ℕ) (p : WinPage) : (b.setPage i p).pages i = p := Function.update_self _ _ _

theorem store_shift (i : ℕ) (p : WinPage) (o : Fin 4096) (v : UInt8) (hs : b.swappedIn = true)
    (hw : p.native.write = true) (hg : p.guard = false) :
    Shift (b.setPage i p) (b.setPage i (p.onPage (Page.store o v))) := by
  have h : Shift (b.setPage i p) ((b.setPage i p).setPage i (((b.setPage i p).pages i).onPage (Page.store o v))) := by
    apply Shift.store i o v
    · exact hs
    · rwa [setPage_same]
    · rwa [setPage_same]
  rwa [setPage_same, setPage_setPage] at h

theorem trip_shift (i : ℕ) (p : WinPage) (hs : b.swappedIn = true) (hw : p.native.write = false) :
    Shift (b.setPage i p) (b.setPage i p.trip) := by
  have h : Shift (b.setPage i p) ((b.setPage i p).setPage i ((b.setPage i p).pages i).trip) := by
    apply Shift.trip i
    · exact hs
    · rwa [setPage_same]
  rwa [setPage_same, setPage_setPage] at h

theorem trip_guard (p : WinPage) : p.trip.guard = false := by
  change decide (winNativeProt _ true = .rwStack) = false
  rw [decide_eq_false_iff_not]
  unfold winNativeProt statusProt
  split_ifs <;> simp_all

theorem guestWrite_shifts {a : UInt64} {v : UInt8} (h : b.guestWrite a v = .ok b') : ReflTransGen Shift b b' := by
  unfold guestWrite at h
  dsimp only at h
  split_ifs at h with hm
  · cases h
    simp only [Bool.and_eq_true, Block.mapped] at hm
    exact .tail (.single (.touch _ hm.1.1)) (store_shift _ _ _ _ hm.1.1 hm.2 rfl)
  · obtain ⟨u, hu, h⟩ := bind_ok h
    unfold trip at hu
    dsimp only at hu
    split_ifs at hu with hmap hwr
    · cases hu
      dsimp only at h
      have hs : b.swappedIn = true := by
        have hmap' : b.toBlock.mapped a = true := hmap
        simp only [Bool.and_eq_true, Block.mapped] at hmap'
        exact hmap'.1
      have hn : (b.pages (b.toBlock.pageOf a)).touch.native.write = false := by
        have hmap' : b.toBlock.mapped a = true := hmap
        simpa [hmap'] using hm
      split_ifs at h with hw
      cases h
      have hsame : (b.setPage (b.toBlock.pageOf a) (b.pages (b.toBlock.pageOf a)).touch).toBlock.pageOf a =
        b.toBlock.pageOf a := rfl
      simp only [hsame, setPage_same, setPage_setPage, Bool.true_and] at hw ⊢
      refine .tail (.tail (.single (.touch _ hs)) (trip_shift _ _ hs hn)) (store_shift _ _ _ _ hs hw (trip_guard _))
    · cases hu
      simp at h

theorem switch_shifts (h : b.activate = .ok b') : ReflTransGen Shift b b' := by
  unfold activate at h
  split_ifs at h with ha hs
  · cases h
    exact .refl
  · cases h
    exact .single (.flag true)
  · have hall := refreshRange_eq { b with swappedIn := true } 0 b.npages (by
      rw [Nat.zero_add]
      exact le_refl _)
    change (refreshRange { b with swappedIn := true } 0 b.npages >>= _) = _ at h
    rw [hall] at h
    cases h
    exact .single (.map true (by simpa using hs))

end WinBlock

inductive WinOp
  | mem (op : MemOp)
  | markInvisible (addr : Range)
  | sealBlock
  | save (w : Sink)
  | load (s : Source)
  | read (a : UInt64)
  | write (a : UInt64) (v : UInt8)
  | activate
  | deactivate

namespace WinOp

def runMem (query : Query) (b : WinBlock) : MemOp → Except Crash (ℤ × WinBlock)
  | .mmapFixed addr prot noReplace => b.mmapFixed addr prot noReplace
  | .mmap addr prot arena noReplace => b.mmap addr prot arena noReplace
  | .mprotect addr prot => b.mprotect query addr prot
  | .munmap addr => b.munmapImpl query addr false
  | .madviseDontneed addr => b.munmapImpl query addr true
  | .mremap addr newSize => b.mremap query addr newSize

def run (query : Query) (b : WinBlock) : WinOp → Except Crash (ℤ × WinBlock)
  | mem op => runMem query b op
  | markInvisible addr => b.markInvisible addr
  | sealBlock => b.sealBlock query
  | save w => do
    let u ← b.saveState query w
    return (u.1, u.2.1)
  | load s => do
    let u ← b.loadState query s
    return (u.1, u.2.1)
  | read a => do
    let u ← b.guestRead a
    return (0, u.2)
  | write a v => do
    let b' ← b.guestWrite a v
    return (0, b')
  | activate => do
    let b' ← b.activate
    return (0, b')
  | deactivate => .ok (0, b.deactivate)

def NoWrap : WinOp → Prop
  | mem op => op.NoWrap
  | markInvisible addr => addr.NoWrap
  | _ => True

def Accepted (r : ℤ) : WinOp → Prop
  | load _ => r = 0
  | _ => True

/-- What the code relies on and does not check: `mmap_fixed` replaces no stack page that was
touched since the last sweep, and a load makes no page a clean stack page before its
snapshot was captured. -/
def Heeds (b : WinBlock) : WinOp → Prop
  | mem (.mmapFixed addr _ noReplace) => noReplace = false → b.Settled addr
  | mem (.mmap addr _ _ noReplace) => addr.start ≠ 0 → noReplace = false → b.Settled addr
  | load s => ∀ l, b.sampled.toBlock.loadHeader s = .inr l → ∀ i, i < b.npages → (b.pages i).invisible = false →
      l.statii i = stRWStack → l.dirtii i = 0 → (b.pages i).snap ≠ .none
  | _ => True

end WinOp

def WinStep (b b' : WinBlock) : Prop :=
  ∃ (op : WinOp) (query : Query) (r : ℤ), op.NoWrap ∧ b.Answers query ∧ op.run query b = .ok (r, b') ∧ op.Accepted r

def HeedingStep (b b' : WinBlock) : Prop :=
  ∃ (op : WinOp) (query : Query) (r : ℤ), op.NoWrap ∧ b.Answers query ∧ op.run query b = .ok (r, b') ∧ op.Accepted r ∧
    op.Heeds b

namespace WinOp

variable {b b' : WinBlock} {query : Query} {r : ℤ}

theorem runMem_shifts {op : MemOp} (hw : op.NoWrap) (hq : b.Answers query) (h : runMem query b op = .ok (r, b'))
    (hh : (mem op).Heeds b) : ReflTransGen Shift b b' := by
  cases op with
  | mmapFixed addr prot noReplace => exact WinBlock.mmapFixed_shifts hw hh h
  | mmap addr prot arena noReplace =>
    rcases WinBlock.mmap_edited hw.2 h with rfl | ⟨hz, r', hr⟩ | ⟨ps, pc, hb, hfree, rfl⟩
    · exact .refl
    · exact WinBlock.mmapFixed_shifts hw.1 (hh hz) hr
    · exact .single (.edit _ hb fun i h1 h2 => WinBlock.not_unseen_of_free (hfree i h1 h2))
  | mprotect addr prot => exact WinBlock.sampled_edited_shifts (WinBlock.mprotect_edited hq hw h)
  | munmap addr => exact WinBlock.sampled_edited_shifts (WinBlock.munmapImpl_edited hq hw h)
  | madviseDontneed addr => exact WinBlock.sampled_edited_shifts (WinBlock.munmapImpl_edited hq hw h)
  | mremap addr newSize =>
    rcases WinBlock.mremap_edited hq hw.1 hw.2 h with h | h
    · exact WinBlock.sampled_edited_shifts h
    · exact WinBlock.sampled_shifts.trans (WinBlock.sampled_edited_shifts h)

end WinOp

end MiniBox
