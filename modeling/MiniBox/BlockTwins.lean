import MiniBox.BlockMoves
import MiniBox.PlainRefinement
import MiniBox.Relational

namespace MiniBox

open ByteStream IndexLoops Outcomes Relational

def Page.Exact (p : Page) : Prop := p.native = protToNative p.nativeProt

structure Block.Exact (b : Block) : Prop where
  swappedIn : b.swappedIn = true
  native : ∀ i, i < b.npages → (b.pages i).Exact

namespace Page

structure Twin (seen : Fin 4096 → Prop) (p q : Page) : Prop where
  status : p.status = q.status
  invisible : p.invisible = q.invisible
  left : p.Exact
  right : q.Exact
  data : ∀ o, p.invisible = false ∨ seen o → p.data o = q.data o

variable {seen : Fin 4096 → Prop} {p q : Page}

theorem Exact.native_eq (h : p.Exact) :
    p.native = { grants p.status with write := p.dirty && (grants p.status).write } := by
  rw [Exact, nativeProt, MiniBox.native_eq] at h
  exact h

theorem Exact.writable (h : p.Exact) : (p.native.write || p.isWritable) = (grants p.status).write := by
  rw [h.native_eq, isWritable_eq]
  cases p.dirty <;> simp

theorem Exact.refresh (p : Page) : p.refresh.Exact := rfl

theorem Exact.written (h : p.Exact) (o : Fin 4096) (v : UInt8) : (p.written o v).Exact := by
  unfold Page.written
  split_ifs
  · exact h
  · exact refresh_native _

theorem Twin.read (h : Twin seen p q) : p.native.read = q.native.read := by
  rw [h.left.native_eq, h.right.native_eq, h.status]

theorem Twin.exec (h : Twin seen p q) : p.native.exec = q.native.exec := by
  rw [h.left.native_eq, h.right.native_eq, h.status]

theorem apply_data (e : PageEdit) (p : Page) : (e.apply p).data = match e with
    | .status _ => p.data
    | .advise => zeroes 4096
    | .unmap => zeroes 4096 := by
  cases e <;> rfl

theorem Twin.edit (h : Twin seen p q) (e : PageEdit) : Twin seen (e.apply p).refresh (e.apply q).refresh := by
  refine ⟨?_, ?_, Exact.refresh _, Exact.refresh _, ?_⟩
  · change (e.apply p).status = (e.apply q).status
    rw [apply_status, apply_status, h.status]
  · change (e.apply p).invisible = (e.apply q).invisible
    rw [apply_invisible, apply_invisible, h.invisible]
  · intro o ho
    change (e.apply p).data o = (e.apply q).data o
    change (e.apply p).invisible = false ∨ seen o at ho
    rw [apply_invisible] at ho
    rw [apply_data, apply_data]
    cases e with
    | status st => exact h.data o ho
    | advise => rfl
    | unmap => rfl

theorem written_invisible (p : Page) (o : Fin 4096) (v : UInt8) : (p.written o v).invisible = p.invisible := by
  unfold Page.written
  split_ifs
  · rfl
  · exact p.maybeSnapshot_invisible

theorem Twin.written (h : Twin seen p q) (o : Fin 4096) (v : UInt8) :
    Twin (fun o' => o' = o ∨ seen o') (p.written o v) (q.written o v) := by
  obtain ⟨hpd, hps⟩ := written_plain p o v
  obtain ⟨hqd, hqs⟩ := written_plain q o v
  refine ⟨?_, ?_, h.left.written o v, h.right.written o v, ?_⟩
  · rw [hps, hqs, h.status]
  · rw [written_invisible, written_invisible, h.invisible]
  · intro o' ho
    rw [written_invisible] at ho
    rw [hpd, hqd]
    by_cases he : o' = o
    · rw [he, Function.update_self, Function.update_self]
    · rw [Function.update_of_ne he, Function.update_of_ne he]
      exact h.data o' (ho.imp_right fun h => h.resolve_left he)

theorem Twin.mono {seen' : Fin 4096 → Prop} (h : Twin seen p q) (hs : ∀ o, seen' o → seen o) : Twin seen' p q :=
  ⟨h.status, h.invisible, h.left, h.right, fun o ho => h.data o (ho.imp_right (hs o))⟩

end Page

structure Block.Twin (written : List UInt64) (b c : Block) : Prop where
  addr : b.addr = c.addr
  left : b.swappedIn = true
  right : c.swappedIn = true
  pages : ∀ i, i < b.npages →
    (b.pages i).Twin (fun o => ∃ a ∈ written, b.pageOf a = i ∧ offsetOf a = o) (c.pages i)

variable {written : List UInt64} {b c : Block}

namespace Block

theorem Twin.npages (h : Twin written b c) : c.npages = b.npages := by
  unfold Block.npages
  rw [h.addr]

theorem Twin.pageOf (h : Twin written b c) (a : UInt64) : c.pageOf a = b.pageOf a := by
  unfold Block.pageOf
  rw [h.addr]

theorem Twin.mapped (h : Twin written b c) (a : UInt64) : c.mapped a = b.mapped a := by
  unfold Block.mapped
  rw [h.left, h.right, h.addr]

theorem Twin.validate (h : Twin written b c) (r : Range) : c.validate r = b.validate r := by
  unfold Block.validate
  rw [h.addr]

theorem Twin.isFree (h : Twin written b c) (i : ℕ) (hi : i < b.npages) : (b.pages i).isFree = (c.pages i).isFree := by
  unfold Page.isFree
  rw [(h.pages i hi).status]

theorem Twin.anyFree (h : Twin written b c) (ps pc : ℕ) : c.anyFree ps pc = b.anyFree ps pc := by
  unfold Block.anyFree
  rw [h.npages]
  exact (anyRange_congr h.isFree ps pc).symm

theorem Twin.anyTaken (h : Twin written b c) (ps pc : ℕ) : c.anyTaken ps pc = b.anyTaken ps pc := by
  unfold Block.anyTaken
  rw [h.npages]
  apply anyRange_congr
  intro i hi
  rw [h.isFree i hi]

theorem Twin.statusAt (h : Twin written b c) (i : ℕ) : c.statusAt i = b.statusAt i := by
  unfold Block.statusAt
  rw [h.npages]
  split_ifs with hi
  · rw [(h.pages i hi).status]
  · rfl

theorem findFreeLoop_congr {free free' : ℕ → Bool} {stop : ℕ} (h : ∀ i, i < stop → free i = free' i)
    (n fuel i : ℕ) (best : Option ℕ) (bestLen : ℕ) :
    findFreeLoop free n stop fuel i best bestLen = findFreeLoop free' n stop fuel i best bestLen := by
  induction fuel generalizing i best bestLen with
  | zero => rfl
  | succ fuel ih =>
    unfold findFreeLoop
    by_cases hi : i < stop
    · rw [if_pos hi, if_pos hi, h i hi, runEnd_congr true (stop - i) i fun m _ hm => h m (by omega)]
      simp only [ih]
    · rw [if_neg hi, if_neg hi]

theorem Twin.findFreePages (h : Twin written b c) (as acount n : ℕ) :
    c.findFreePages as acount n = b.findFreePages as acount n := by
  unfold Block.findFreePages inTable
  rw [h.npages]
  by_cases ht : acount = 0 ∨ as + acount ≤ b.npages
  · rw [if_pos (by simpa using ht), if_pos (by simpa using ht)]
    congr 1
    rcases ht with rfl | ht
    · rfl
    · exact (findFreeLoop_congr (fun i hi => h.isFree i (by omega)) _ _ _ _ _).symm
  · rw [if_neg (by simpa using ht), if_neg (by simpa using ht)]

theorem Twin.edit (h : Twin written b c) (ps pc : ℕ) (e : PageEdit) : Twin written (b.edit ps pc e) (c.edit ps pc e) := by
  refine ⟨h.addr, h.left, h.right, fun i hi => ?_⟩
  have hp := h.pages i hi
  have hb : b.sync = Page.refresh := by
    funext p
    rw [Block.sync, if_pos h.left]
  have hc : c.sync = Page.refresh := by
    funext p
    rw [Block.sync, if_pos h.right]
  change Page.Twin (fun o => ∃ a ∈ written, b.pageOf a = i ∧ offsetOf a = o)
    (mapRange (fun p => b.sync (e.apply p)) ps pc b.pages i) (mapRange (fun p => c.sync (e.apply p)) ps pc c.pages i)
  rw [hb, hc]
  unfold mapRange
  split_ifs
  · exact hp.edit e
  · exact hp

def Answers (written : List UInt64) (x y : ℤ × Block) : Prop := x.1 = y.1 ∧ Twin written x.2 y.2

theorem Twin.setProtections (h : Twin written b c) (ps pc : ℕ) (st : UInt8) :
    SameOutcome (Twin written) (b.setProtections ps pc st) (c.setProtections ps pc st) := by
  rw [setProtections_tryEdit, setProtections_tryEdit]
  unfold tryEdit inTable
  rw [h.npages]
  split_ifs
  · exact h.edit ps pc _
  · exact rfl

theorem Twin.setting (h : Twin written b c) (ps pc : ℕ) (st : UInt8) (r : ℤ) :
    SameOutcome (Answers written) (b.setProtections ps pc st >>= fun b' => pure (r, b'))
      (c.setProtections ps pc st >>= fun c' => pure (r, c')) :=
  sameOutcome_bind (h.setProtections ps pc st) fun _ _ h' => ⟨rfl, h'⟩

theorem Twin.mmapFixed (h : Twin written b c) (addr : Range) (prot : Prot) (noReplace : Bool) :
    SameOutcome (Answers written) (b.mmapFixed addr prot noReplace) (c.mmapFixed addr prot noReplace) := by
  unfold Block.mmapFixed
  rw [h.validate]
  cases b.validate addr with
  | none => exact ⟨rfl, h⟩
  | some q =>
    dsimp only
    have hrest : ∀ taken : Bool, SameOutcome (Answers written)
        (if taken then (pure (-eexist, b) : Except Crash _) else
          b.setProtections q.1 q.2 (protStatus prot) >>= fun b' => pure (0, b'))
        (if taken then (pure (-eexist, c) : Except Crash _) else
          c.setProtections q.1 q.2 (protStatus prot) >>= fun c' => pure (0, c')) := by
      intro taken
      split_ifs
      · exact ⟨rfl, h⟩
      · exact h.setting q.1 q.2 _ 0
    cases noReplace with
    | false => exact hrest false
    | true =>
      rw [if_pos rfl, if_pos rfl, h.anyTaken]
      refine sameOutcome_bind (sameOutcome_refl (fun _ => rfl) _) ?_
      rintro taken _ rfl
      exact hrest taken

theorem Twin.mprotect (h : Twin written b c) (addr : Range) (prot : Prot) :
    SameOutcome (Answers written) (b.mprotect addr prot) (c.mprotect addr prot) := by
  unfold Block.mprotect
  rw [h.validate]
  cases b.validate addr with
  | none => exact ⟨rfl, h⟩
  | some q =>
    dsimp only
    rw [h.anyFree]
    refine sameOutcome_bind (sameOutcome_refl (fun _ => rfl) _) ?_
    rintro free _ rfl
    split_ifs
    · exact ⟨rfl, h⟩
    · exact h.setting q.1 q.2 _ 0

theorem Twin.munmapImpl (h : Twin written b c) (addr : Range) (adviseOnly : Bool) :
    SameOutcome (Answers written) (b.munmapImpl addr adviseOnly) (c.munmapImpl addr adviseOnly) := by
  unfold Block.munmapImpl
  rw [h.validate]
  cases hv : b.validate addr with
  | none => exact ⟨rfl, h⟩
  | some q =>
    dsimp only
    rw [h.anyFree]
    cases hf : b.anyFree q.1 q.2 with
    | error e => exact rfl
    | ok free =>
      cases free with
      | true => exact ⟨rfl, h⟩
      | false =>
        have hin := (anyFree_false hf (validate_pos hv)).1
        rw [ok_bind, ok_bind, freePages_eq _ _ _ hin, freePages_eq _ _ _ (by rw [h.npages]; exact hin)]
        exact ⟨rfl, h.edit q.1 q.2 _⟩

theorem Twin.mmap (h : Twin written b c) (addr arena : Range) (prot : Prot) (noReplace : Bool) :
    SameOutcome (Answers written) (b.mmap addr prot arena noReplace) (c.mmap addr prot arena noReplace) := by
  unfold Block.mmap
  split_ifs
  · exact ⟨rfl, h⟩
  · exact ⟨rfl, h⟩
  · rw [h.validate]
    cases b.validate arena with
    | none => exact ⟨rfl, h⟩
    | some q =>
      dsimp only
      rw [h.findFreePages]
      refine sameOutcome_bind (sameOutcome_refl (fun _ => rfl) _) ?_
      rintro found _ rfl
      cases found with
      | none => exact ⟨rfl, h⟩
      | some ps =>
        have haddr : c.pageAddr ps = b.pageAddr ps := by
          unfold pageAddr
          rw [h.addr]
        dsimp only
        rw [haddr]
        exact h.setting ps _ _ _
  · refine sameOutcome_bind (h.mmapFixed addr prot noReplace) ?_
    rintro ⟨r, b'⟩ ⟨r', c'⟩ ⟨rfl, h'⟩
    exact ⟨rfl, h'⟩

theorem Twin.mremap (h : Twin written b c) (addr : Range) (newSize : UInt64) :
    SameOutcome (Answers written) (b.mremap addr newSize) (c.mremap addr newSize) := by
  unfold Block.mremap
  by_cases h0 : addr.size = 0 ∨ newSize = 0
  · rw [if_pos h0, if_pos h0]
    exact ⟨rfl, h⟩
  rw [if_neg h0, if_neg h0]
  by_cases hz : addr.start = 0
  · rw [if_pos hz, if_pos hz]
    exact ⟨rfl, h⟩
  rw [if_neg hz, if_neg hz, h.validate]
  cases b.validate addr with
  | none => exact ⟨rfl, h⟩
  | some q =>
    dsimp only
    rw [h.anyFree, h.validate]
    by_cases hg : newSize > addr.size
    · rw [if_pos hg, if_pos hg]
      cases b.validate ⟨addr.start, newSize⟩ with
      | none => exact ⟨rfl, h⟩
      | some f =>
        refine sameOutcome_bind (sameOutcome_refl (fun _ => rfl) _) ?_
        rintro free _ rfl
        cases free with
        | true => exact ⟨rfl, h⟩
        | false =>
          rw [h.anyTaken]
          refine sameOutcome_bind (sameOutcome_refl (fun _ => rfl) _) ?_
          rintro taken _ rfl
          cases taken with
          | true => exact ⟨rfl, h⟩
          | false =>
            rw [h.statusAt]
            refine sameOutcome_bind (sameOutcome_refl (fun _ => rfl) _) ?_
            rintro st _ rfl
            exact h.setting _ _ st _
    · rw [if_neg hg, if_neg hg]
      refine sameOutcome_bind (sameOutcome_refl (fun _ => rfl) _) ?_
      rintro free _ rfl
      cases free with
      | true => exact ⟨rfl, h⟩
      | false =>
        refine sameOutcome_bind (h.munmapImpl _ false) ?_
        rintro ⟨r, b'⟩ ⟨r', c'⟩ ⟨rfl, h'⟩
        exact ⟨rfl, h'⟩

theorem Twin.memOp (h : Twin written b c) (op : MemOp) : SameOutcome (Answers written) (op.run b) (op.run c) := by
  cases op with
  | mmapFixed addr prot noReplace => exact h.mmapFixed addr prot noReplace
  | mmap addr prot arena noReplace => exact h.mmap addr arena prot noReplace
  | mprotect addr prot => exact h.mprotect addr prot
  | munmap addr => exact h.munmapImpl addr false
  | madviseDontneed addr => exact h.munmapImpl addr true
  | mremap addr newSize => exact h.mremap addr newSize

theorem Twin.byte (h : Twin written b c) {a : UInt64} (hm : b.mapped a = true)
    (hs : (b.pages (b.pageOf a)).invisible = false ∨ a ∈ written) :
    (b.pages (b.pageOf a)).data (offsetOf a) = (c.pages (b.pageOf a)).data (offsetOf a) :=
  (h.pages _ (pageOf_lt hm)).data _ (hs.imp_right fun ha => ⟨a, ha, rfl, rfl⟩)

theorem Twin.guestRead (h : Twin written b c) (a : UInt64) :
    SameOutcome (fun v w => (b.pages (b.pageOf a)).invisible = false ∨ a ∈ written → v = w) (b.guestRead a)
      (c.guestRead a) := by
  unfold Block.guestRead
  rw [h.mapped, h.pageOf]
  by_cases hm : b.mapped a = true
  · rw [(h.pages _ (pageOf_lt hm)).read, hm, Bool.true_and]
    split_ifs
    · exact h.byte hm
    · exact rfl
  · simp only [hm, Bool.false_and, Bool.false_eq_true, ↓reduceIte]
    exact rfl

theorem Twin.guestFetch (h : Twin written b c) (a : UInt64) :
    SameOutcome (fun v w => (b.pages (b.pageOf a)).invisible = false ∨ a ∈ written → v = w) (b.guestFetch a)
      (c.guestFetch a) := by
  unfold Block.guestFetch
  rw [h.mapped, h.pageOf]
  by_cases hm : b.mapped a = true
  · rw [(h.pages _ (pageOf_lt hm)).exec, hm, Bool.true_and]
    split_ifs
    · exact h.byte hm
    · exact rfl
  · simp only [hm, Bool.false_and, Bool.false_eq_true, ↓reduceIte]
    exact rfl

theorem Twin.guestWrite (h : Twin written b c) (a : UInt64) (v : UInt8) :
    SameOutcome (Twin (a :: written)) (b.guestWrite a v) (c.guestWrite a v) := by
  rw [guestWrite_eq, guestWrite_eq, h.mapped, h.pageOf]
  by_cases hm : b.mapped a = true
  · have hi := pageOf_lt hm
    have hp := h.pages _ hi
    rw [if_pos hm, if_pos hm, hp.left.writable, hp.right.writable, hp.status]
    split_ifs
    · refine ⟨h.addr, h.left, h.right, fun i hi => ?_⟩
      change Page.Twin (fun o => ∃ x ∈ a :: written, b.pageOf x = i ∧ offsetOf x = o)
        (Function.update b.pages (b.pageOf a) _ i) (Function.update c.pages (b.pageOf a) _ i)
      by_cases he : i = b.pageOf a
      · subst he
        rw [Function.update_self, Function.update_self]
        refine (hp.written (offsetOf a) v).mono ?_
        rintro o ⟨x, hx, hpx, rfl⟩
        rcases List.mem_cons.mp hx with rfl | hx
        · exact .inl rfl
        · exact .inr ⟨x, hx, hpx, rfl⟩
      · rw [Function.update_of_ne he, Function.update_of_ne he]
        refine (h.pages i hi).mono ?_
        rintro o ⟨x, hx, hpx, rfl⟩
        rcases List.mem_cons.mp hx with rfl | hx
        · exact absurd hpx.symm he
        · exact ⟨x, hx, hpx, rfl⟩
    · exact rfl
  · rw [if_neg hm, if_neg hm]
    exact rfl

end Block

end MiniBox
