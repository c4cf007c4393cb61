import MiniBox.MemorySpecs

namespace MiniBox

open ByteStream Outcomes

namespace Page

def trip (p : Page) : Page := refresh { p.maybeSnapshot with dirty := true }

def store (o : Fin 4096) (v : UInt8) (p : Page) : Page := { p with data := Function.update p.data o v }

def isWritable (p : Page) : Bool :=
  decide (p.status = stRW) || decide (p.status = stRWX) || decide (p.status = stRWStack)

end Page

def offsetOf (a : UInt64) : Fin 4096 := ⟨a.toNat % 4096, Nat.mod_lt _ (by norm_num)⟩

namespace Block

def pageOf (b : Block) (a : UInt64) : ℕ := ((a - b.addr.start) >>> 12).toNat

def setPage (b : Block) (i : ℕ) (p : Page) : Block := b.withPages (Function.update b.pages i p)

/-- The address belongs to the guest mapping of the block, which is then the block
that the fault handler finds for it. -/
def mapped (b : Block) (a : UInt64) : Bool := b.swappedIn && b.addr.contains a

def trip (b : Block) (a : UInt64) : Except Crash (Bool × Block) :=
  if b.mapped a then
    if (b.pages (b.pageOf a)).isWritable then .ok (true, b.setPage (b.pageOf a) (b.pages (b.pageOf a)).trip)
    else .error .trap
  else .ok (false, b)

def guestRead (b : Block) (a : UInt64) : Except Crash UInt8 :=
  if b.mapped a && (b.pages (b.pageOf a)).native.read then .ok ((b.pages (b.pageOf a)).data (offsetOf a))
  else .error .segv

def guestFetch (b : Block) (a : UInt64) : Except Crash UInt8 :=
  if b.mapped a && (b.pages (b.pageOf a)).native.exec then .ok ((b.pages (b.pageOf a)).data (offsetOf a))
  else .error .segv

/-- A write goes through where the native protection lets it, and otherwise
enters `handler`, which trips the page so that the write is retried. -/
def guestWrite (b : Block) (a : UInt64) (v : UInt8) : Except Crash Block :=
  if b.mapped a && (b.pages (b.pageOf a)).native.write then
    .ok (b.setPage (b.pageOf a) ((b.pages (b.pageOf a)).store (offsetOf a) v))
  else do
    let (handled, b') ← b.trip a
    if handled && (b'.pages (b.pageOf a)).native.write then
      return b'.setPage (b.pageOf a) ((b'.pages (b.pageOf a)).store (offsetOf a) v)
    else .error .segv

end Block

variable {b : Block}

@[simp] theorem setPage_pages (b : Block) (i : ℕ) (p : Page) :
    (b.setPage i p).pages = Function.update b.pages i p := rfl

theorem isWritable_eq (p : Page) : p.isWritable = (grants p.status).write := by
  rw [Bool.eq_iff_iff, grants_write]
  simp [Page.isWritable, or_assoc]

theorem trip_native (p : Page) (h : p.isWritable = true) : p.trip.native.write = true := by
  rw [isWritable_eq] at h
  have hn : p.trip.native = protToNative (nativeProt p.status true) := by
    simp [Page.trip, Page.refresh, Page.protect, Page.nativeProt]
  rw [hn, native_eq]
  simpa using h

theorem pageOf_eq {a : UInt64} (h : b.addr.start.toNat ≤ a.toNat) :
    b.pageOf a = (a.toNat - b.addr.start.toNat) / 4096 := by
  rw [Block.pageOf, toNat_shiftRight_page, UInt64.toNat_sub_of_le _ _ (UInt64.le_iff_toNat_le.mpr h)]

theorem pageOf_lt {a : UInt64} (h : b.mapped a = true) : b.pageOf a < b.npages := by
  simp only [Block.mapped, Range.contains, Bool.and_eq_true, decide_eq_true_eq] at h
  obtain ⟨-, hle, hlt⟩ := h
  have h1 := UInt64.le_iff_toNat_le.mp hle
  have h2 := UInt64.lt_iff_toNat_lt.mp hlt
  have hsum : b.addr.rangeEnd.toNat ≤ b.addr.start.toNat + b.addr.size.toNat := by
    rw [Range.rangeEnd, UInt64.toNat_add]; exact Nat.mod_le _ _
  have ha := (eq_alignDown_iff _).mp b.span.size_aligned
  rw [pageOf_eq h1, Block.npages, npages_eq]
  omega

def Page.written (p : Page) (o : Fin 4096) (v : UInt8) : Page :=
  if p.native.write then p.store o v else p.trip.store o v

theorem written_plain (p : Page) (o : Fin 4096) (v : UInt8) :
    (p.written o v).data = Function.update p.data o v ∧ (p.written o v).status = p.status := by
  unfold Page.written
  split_ifs
  · exact ⟨rfl, rfl⟩
  · simp [Page.store, Page.trip, Page.refresh, Page.protect]

theorem guestWrite_eq (a : UInt64) (v : UInt8) :
    b.guestWrite a v =
      if b.mapped a then
        if (b.pages (b.pageOf a)).native.write || (b.pages (b.pageOf a)).isWritable then
          .ok (b.setPage (b.pageOf a) ((b.pages (b.pageOf a)).written (offsetOf a) v))
        else .error .trap
      else .error .segv := by
  unfold Block.guestWrite Block.trip Page.written
  by_cases hm : b.mapped a = true
  · by_cases hn : (b.pages (b.pageOf a)).native.write = true
    · simp [hm, hn]
    · by_cases hw : (b.pages (b.pageOf a)).isWritable = true
      · have ht := trip_native _ hw
        simp only [hm, hn, hw, Bool.and_false, Bool.false_eq_true, ↓reduceIte, ok_bind, Bool.true_and,
          Bool.or_true, setPage_pages, Function.update_self, ht]
        simp [Block.setPage, pure, Except.pure]
      · simp [hm, hn, hw, bind, Except.bind]
  · simp [hm, ok_bind]

theorem guestWrite_cases {a : UInt64} {v : UInt8} {b' : Block} (h : b.guestWrite a v = .ok b') :
    b.pageOf a < b.npages ∧
      ((b.pages (b.pageOf a)).native.write = true ∨ (b.pages (b.pageOf a)).isWritable = true) ∧
      b' = b.setPage (b.pageOf a) ((b.pages (b.pageOf a)).written (offsetOf a) v) := by
  rw [guestWrite_eq] at h
  split_ifs at h with hm hw
  refine ⟨pageOf_lt hm, by simpa using hw, ?_⟩
  exact (Except.ok.inj h).symm

end MiniBox
