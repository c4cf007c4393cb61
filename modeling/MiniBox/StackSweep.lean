import MiniBox.MemoryBlock

/-!
The Windows build of a block. A page there has a guard bit beside its access, which the
operating system clears at the first access; `get_stack_dirty` samples those bits.
-/

namespace MiniBox

open IndexLoops Outcomes ByteStream

structure Attributes where
  access : Access
  guard : Bool
  deriving DecidableEq, Repr

structure WinPage extends Page where
  guard : Bool

namespace WinPage

def attributes (p : WinPage) : Attributes := ⟨p.native, p.guard⟩

def mark (dirty : Bool) (p : WinPage) : WinPage :=
  if dirty && decide (p.status = stRWStack) then { p with dirty := true } else p

def sweep (p : WinPage) : WinPage := p.mark (!p.guard)

theorem mark_false (p : WinPage) : p.mark false = p := rfl

theorem mark_of_ne (d : Bool) (p : WinPage) (h : p.status ≠ stRWStack) : p.mark d = p := by
  simp [mark, h]

theorem mark_of_dirty (d : Bool) (p : WinPage) (h : p.dirty = true) : p.mark d = p := by
  unfold mark
  split_ifs
  · rw [← h]
  · rfl

theorem mark_eq (d : Bool) (p : WinPage) :
    p.mark d = { p with dirty := p.dirty || (d && decide (p.status = stRWStack)) } := by
  unfold mark
  split_ifs with h
  · rw [h, Bool.or_true]
  · rw [Bool.eq_false_iff.mpr h, Bool.or_false]

end WinPage

structure WinBlock where
  addr : Range
  span : addr.IsSpan
  pages : ℕ → WinPage
  sealed : Bool
  swappedIn : Bool
  active : Bool
  hash : Bytes 32

def WinBlock.npages (b : WinBlock) : ℕ := b.addr.npages

def WinBlock.withPages (b : WinBlock) (pages : ℕ → WinPage) : WinBlock := { b with pages }

namespace Range

variable (r : Range)

def pageAt (i : ℕ) : UInt64 := r.start + UInt64.ofNat (i * 4096)

theorem pageAt_zero : r.pageAt 0 = r.start := by
  simp [pageAt]

theorem pageAt_succ (i : ℕ) : r.pageAt i + 4096 = r.pageAt (i + 1) := by
  have h : UInt64.ofNat (i * 4096) + 4096 = UInt64.ofNat ((i + 1) * 4096) := by
    rw [Nat.succ_mul, UInt64.ofNat_add]
    rfl
  rw [pageAt, pageAt, UInt64.add_assoc, h]

variable {r} {room i : ℕ}

theorem toNat_pageAt (h : r.start.toNat + i * 4096 < 2 ^ 64) : (r.pageAt i).toNat = r.start.toNat + i * 4096 := by
  have hi : (UInt64.ofNat (i * 4096)).toNat = i * 4096 := UInt64.toNat_ofNat_of_lt' (show _ < 2 ^ 64 by omega)
  rw [pageAt, UInt64.toNat_add, hi, Nat.mod_eq_of_lt h]

theorem IsSpan.size_eq (hs : r.IsSpan) : r.size.toNat = r.npages * 4096 := by
  have h := (eq_alignDown_iff _).mp hs.size_aligned
  rw [npages_eq]
  omega

theorem pageAt_lt_rangeEnd (hs : r.IsSpan) (hr : r.npages ≤ room) (hb : r.start.toNat + room * 4096 < 2 ^ 64)
    (hi : i ≤ r.npages) : r.pageAt i < r.rangeEnd ↔ i < r.npages := by
  have hsize := hs.size_eq
  have hend : r.rangeEnd.toNat = r.start.toNat + r.npages * 4096 := by
    have hw : r.NoWrap := by
      change r.start.toNat + r.size.toNat < 2 ^ 64
      omega
    rw [toNat_rangeEnd r hw, hsize]
  have hpage : (r.pageAt i).toNat = r.start.toNat + i * 4096 :=
    toNat_pageAt (Nat.lt_of_le_of_lt (Nat.add_le_add_left (Nat.mul_le_mul_right 4096 (hi.trans hr)) _) hb)
  rw [UInt64.lt_iff_toNat_lt, hpage, hend]
  omega

end Range

/-- The user address space from the start of a mapped block on: `room` pages, of which
the block has the first `npages`. -/
structure AddressSpace (addr : Range) where
  room : ℕ
  beyond : ℕ → Attributes
  covers : addr.npages ≤ room
  bounded : addr.start.toNat + room * 4096 < 2 ^ 64

namespace AddressSpace

variable {addr : Range} (os : AddressSpace addr) (pages : ℕ → WinPage)

def attributes (i : ℕ) : Attributes := if i < addr.npages then (pages i).attributes else os.beyond i

structure Region (i n : ℕ) : Prop where
  pos : 0 < n
  le_room : i + n ≤ os.room
  equal : ∀ j, i ≤ j → j < i + n → os.attributes pages j = os.attributes pages i
  maximal : i + n < os.room → os.attributes pages (i + n) ≠ os.attributes pages i

def Reports (query : UInt64 → Option (UInt64 × Bool)) : Prop :=
  ∀ i, i < addr.npages → ∃ n, os.Region pages i n ∧
    query (addr.pageAt i) = some (UInt64.ofNat (n * 4096), !(pages i).guard)

def regionEnd (i : ℕ) : ℕ := runEnd (os.attributes pages) (os.attributes pages i) (os.room - (i + 1)) (i + 1)

def getStackDirty (start : UInt64) : Option (UInt64 × Bool) :=
  let i := ((start - addr.start) >>> 12).toNat
  some (UInt64.ofNat ((os.regionEnd pages i - i) * 4096), !(os.attributes pages i).guard)

variable {i : ℕ}

theorem attributes_of_lt (hi : i < addr.npages) : os.attributes pages i = (pages i).attributes := if_pos hi

theorem region_regionEnd (hi : i < os.room) : os.Region pages i (os.regionEnd pages i - i) := by
  have hgt : i + 1 ≤ os.regionEnd pages i := le_runEnd _ _ _ _
  have hle : os.regionEnd pages i ≤ i + 1 + (os.room - (i + 1)) := runEnd_le _ _ _ _
  have hsum : i + (os.regionEnd pages i - i) = os.regionEnd pages i := by omega
  constructor
  · omega
  · omega
  · intro j h1 h2
    exact key_in_run _ _ _ _ h1 (hsum ▸ h2)
  · intro hroom
    rw [hsum] at hroom ⊢
    exact runEnd_stops _ _ _ _ (show os.regionEnd pages i < _ by omega)

theorem reports_getStackDirty : os.Reports pages (os.getStackDirty pages) := by
  intro i hi
  have hc := os.covers
  have hb := os.bounded
  refine ⟨_, os.region_regionEnd pages (Nat.lt_of_lt_of_le hi hc), ?_⟩
  have hpage : ((addr.pageAt i - addr.start) >>> 12).toNat = i := by
    have hsub : addr.pageAt i - addr.start = UInt64.ofNat (i * 4096) := by
      rw [Range.pageAt, UInt64.add_comm, UInt64.add_sub_cancel]
    rw [hsub, toNat_shiftRight_page, UInt64.toNat_ofNat_of_lt' (show _ < 2 ^ 64 by omega)]
    omega
  simp only [getStackDirty, hpage, os.attributes_of_lt pages hi]
  rfl

end AddressSpace

inductive SweepStop
  | outOfBounds | outOfFuel
  deriving DecidableEq, Repr

namespace Sweep

variable (addr : Range)

def mark (dirty : Bool) (pi : ℕ) (pages : ℕ → WinPage) : Except SweepStop (ℕ → WinPage) :=
  if dirty then
    if pi < addr.npages then .ok (Function.update pages pi ((pages pi).mark dirty)) else .error .outOfBounds
  else .ok pages

def region (dirty : Bool) : ℕ → UInt64 → UInt64 → ℕ → (ℕ → WinPage) →
    Except SweepStop (UInt64 × ℕ × (ℕ → WinPage))
  | 0, _, _, _, _ => .error .outOfFuel
  | fuel + 1, size, start, pi, pages =>
    if 0 < size ∧ start < addr.rangeEnd then do
      let pages ← mark addr dirty pi pages
      region dirty fuel (size - if size < 4096 then size else 4096) (start + 4096) (pi + 1) pages
    else .ok (start, pi, pages)

def loop (query : UInt64 → Option (UInt64 × Bool)) : ℕ → UInt64 → ℕ → (ℕ → WinPage) →
    Except SweepStop (ℕ → WinPage)
  | 0, _, _, _ => .error .outOfFuel
  | fuel + 1, start, pi, pages =>
    if start < addr.rangeEnd then
      if pi < addr.npages then
        if !(pages pi).dirty && decide ((pages pi).status = stRWStack) then
          match query start with
          | none => loop query fuel (start + 4096) (pi + 1) pages
          | some answer => do
            let swept ← region addr answer.2 (fuel + 1) answer.1 start pi pages
            loop query fuel swept.1 swept.2.1 swept.2.2
        else loop query fuel (start + 4096) (pi + 1) pages
      else .error .outOfBounds
    else .ok pages

end Sweep

/-- `get_stack_dirty`, on at most `fuel` turns of each of its loops. -/
def WinBlock.getStackDirty (query : UInt64 → Option (UInt64 × Bool)) (fuel : ℕ) (b : WinBlock) :
    Except SweepStop WinBlock :=
  if b.swappedIn then do
    let pages ← Sweep.loop b.addr query fuel b.addr.start 0 b.pages
    return b.withPages pages
  else .ok b

namespace Sweep

variable {addr : Range} {pages : ℕ → WinPage} {fuel pi : ℕ}

theorem mark_eq (d : Bool) (hpi : pi < addr.npages) :
    mark addr d pi pages = .ok (Function.update pages pi ((pages pi).mark d)) := by
  cases d with
  | false => rw [WinPage.mark_false, Function.update_eq_self]; rfl
  | true => rw [mark, if_pos rfl, if_pos hpi]

theorem size_sub (n : ℕ) (hn : (n + 1) * 4096 < 2 ^ 64) :
    (UInt64.ofNat ((n + 1) * 4096) - if UInt64.ofNat ((n + 1) * 4096) < 4096 then UInt64.ofNat ((n + 1) * 4096)
      else 4096) = UInt64.ofNat (n * 4096) := by
  have hsize : (UInt64.ofNat ((n + 1) * 4096)).toNat = (n + 1) * 4096 := UInt64.toNat_ofNat_of_lt' (show _ < 2 ^ 64 from hn)
  have hlt : ¬ UInt64.ofNat ((n + 1) * 4096) < 4096 := by
    rw [UInt64.lt_iff_toNat_lt, hsize]
    change ¬ (n + 1) * 4096 < 4096
    omega
  rw [if_neg hlt, Nat.succ_mul, UInt64.ofNat_add]
  exact UInt64.add_sub_cancel _ _

variable (os : AddressSpace addr) (hs : addr.IsSpan)
include os hs

theorem lt_rangeEnd (hpi : pi ≤ addr.npages) : addr.pageAt pi < addr.rangeEnd ↔ pi < addr.npages :=
  Range.pageAt_lt_rangeEnd hs os.covers os.bounded hpi

theorem region_eq (d : Bool) (n : ℕ) (hn : n * 4096 < 2 ^ 64) (hpi : pi ≤ addr.npages)
    (hfuel : addr.npages - pi < fuel) :
    region addr d fuel (UInt64.ofNat (n * 4096)) (addr.pageAt pi) pi pages =
      .ok (addr.pageAt (min (pi + n) addr.npages), min (pi + n) addr.npages,
        mapRange (WinPage.mark d) pi (min (pi + n) addr.npages - pi) pages) := by
  induction fuel generalizing n pi pages with
  | zero => omega
  | succ fuel ih =>
    have hin := lt_rangeEnd os hs hpi
    rw [region]
    cases n with
    | zero =>
      have hstop : ¬ ((0 : UInt64) < UInt64.ofNat (0 * 4096) ∧ addr.pageAt pi < addr.rangeEnd) := by simp
      rw [if_neg hstop, Nat.add_zero, Nat.min_eq_left hpi, Nat.sub_self, mapRange_zero]
    | succ n =>
      have hpos : (0 : UInt64) < UInt64.ofNat ((n + 1) * 4096) := by
        have hsize : (UInt64.ofNat ((n + 1) * 4096)).toNat = (n + 1) * 4096 :=
          UInt64.toNat_ofNat_of_lt' (show _ < 2 ^ 64 from hn)
        rw [UInt64.lt_iff_toNat_lt, hsize]
        exact Nat.mul_pos n.succ_pos (by decide)
      by_cases hlt : pi < addr.npages
      · have hmin : min (pi + 1 + n) addr.npages = min (pi + (n + 1)) addr.npages := by omega
        have hlen : min (pi + (n + 1)) addr.npages - pi = min (pi + (n + 1)) addr.npages - (pi + 1) + 1 := by omega
        rw [if_pos ⟨hpos, hin.mpr hlt⟩, mark_eq d hlt, ok_bind, size_sub n hn, Range.pageAt_succ,
          ih n (Nat.lt_of_le_of_lt (Nat.mul_le_mul_right 4096 n.le_succ) hn) hlt (by omega), hmin,
          mapRange_succ, hlen]
      · have hend : min (pi + (n + 1)) addr.npages = pi := by omega
        rw [if_neg (fun h => hlt (hin.mp h.2)), hend, Nat.sub_self, mapRange_zero]

theorem region_swept {table : ℕ → WinPage} {n : ℕ} (hr : os.Region table pi n)
    (hsame : ∀ j, pi ≤ j → pages j = table j) (hlt : pi < addr.npages) (hfuel : addr.npages - pi < fuel) :
    region addr (!(table pi).guard) fuel (UInt64.ofNat (n * 4096)) (addr.pageAt pi) pi pages =
      .ok (addr.pageAt (min (pi + n) addr.npages), min (pi + n) addr.npages,
        mapRange WinPage.sweep pi (min (pi + n) addr.npages - pi) pages) := by
  have hroom := hr.le_room
  have hbound := os.bounded
  rw [region_eq os hs _ _ (by omega) hlt.le hfuel]
  congr 3
  apply mapRange_congr
  intro j h1 h2
  have hattr := hr.equal j h1 (by omega)
  rw [os.attributes_of_lt table hlt, os.attributes_of_lt table (by omega)] at hattr
  have hguard : (table j).guard = (table pi).guard := congrArg Attributes.guard hattr
  rw [WinPage.sweep, hsame j h1, hguard]

theorem loop_eq {table : ℕ → WinPage} {query : UInt64 → Option (UInt64 × Bool)} (hq : os.Reports table query)
    (hsame : ∀ j, pi ≤ j → pages j = table j) (hpi : pi ≤ addr.npages) (hfuel : addr.npages - pi < fuel) :
    loop addr query fuel (addr.pageAt pi) pi pages = .ok (mapRange WinPage.sweep pi (addr.npages - pi) pages) := by
  induction fuel generalizing pi pages with
  | zero => omega
  | succ fuel ih =>
    have hin := lt_rangeEnd os hs hpi
    rw [loop]
    by_cases hlt : pi < addr.npages
    · rw [if_pos (hin.mpr hlt), if_pos hlt]
      by_cases hask : (!(pages pi).dirty && decide ((pages pi).status = stRWStack)) = true
      · obtain ⟨n, hr, hanswer⟩ := hq pi hlt
        rw [if_pos hask, hanswer]
        dsimp only
        rw [region_swept os hs hr hsame hlt hfuel, ok_bind]
        dsimp only
        have hpos := hr.pos
        have hgt : pi < min (pi + n) addr.npages := lt_min (by omega) hlt
        have hle : min (pi + n) addr.npages ≤ addr.npages := min_le_right _ _
        generalize min (pi + n) addr.npages = stop at hgt hle
        rw [ih _ (by omega) (by omega), mapRange_join _ _ (by omega) (by omega)]
        intro j hj
        rw [mapRange_not_mem _ _ _ _ _ (by omega), hsame j (by omega)]
      · have hskip : (pages pi).sweep = pages pi := by
          by_cases hst : (pages pi).status = stRWStack
          · exact WinPage.mark_of_dirty _ _ (by simpa [hst] using hask)
          · exact WinPage.mark_of_ne _ _ hst
        have hlen : addr.npages - pi = addr.npages - (pi + 1) + 1 := by omega
        rw [if_neg hask, Range.pageAt_succ, ih (fun j hj => hsame j (by omega)) hlt (by omega), hlen,
          ← mapRange_succ, hskip, Function.update_eq_self]
    · rw [if_neg (fun h => hlt (hin.mp h)), show addr.npages - pi = 0 by omega, mapRange_zero]

end Sweep

namespace WinBlock

def swept (b : WinBlock) : WinBlock := b.withPages (mapRange WinPage.sweep 0 b.npages b.pages)

theorem getStackDirty_eq {b : WinBlock} {os : AddressSpace b.addr} {query : UInt64 → Option (UInt64 × Bool)}
    (hq : os.Reports b.pages query) {fuel : ℕ} (hfuel : b.npages < fuel) (hin : b.swappedIn = true) :
    b.getStackDirty query fuel = .ok b.swept := by
  have hloop : Sweep.loop b.addr query fuel (b.addr.pageAt 0) 0 b.pages =
      .ok (mapRange WinPage.sweep 0 b.npages b.pages) :=
    Sweep.loop_eq os b.span hq (fun _ _ => rfl) (Nat.zero_le _) hfuel
  rw [Range.pageAt_zero] at hloop
  rw [getStackDirty, if_pos hin, hloop]
  rfl

theorem getStackDirty_page_by_page (b : WinBlock) (os : AddressSpace b.addr)
    (query : UInt64 → Option (UInt64 × Bool)) (hq : os.Reports b.pages query) (fuel : ℕ) (hfuel : b.npages < fuel)
    (hin : b.swappedIn = true) :
    b.getStackDirty query fuel = .ok { b with
      pages := fun i => { b.pages i with
        dirty := (b.pages i).dirty ||
          (decide (i < b.npages) && decide ((b.pages i).status = stRWStack) && !(b.pages i).guard) } } := by
  rw [getStackDirty_eq hq hfuel hin]
  apply congrArg (fun pages => Except.ok (b.withPages pages))
  funext i
  by_cases hi : i < b.npages
  · rw [mapRange_mem _ _ _ _ _ ⟨Nat.zero_le i, by omega⟩, WinPage.sweep, WinPage.mark_eq, decide_eq_true hi,
      Bool.true_and, Bool.and_comm]
  · rw [mapRange_not_mem _ _ _ _ _ (by omega), decide_eq_false hi, Bool.false_and, Bool.false_and, Bool.or_false]

def touchedStack : WinBlock where
  addr := ⟨0x36f00000000, 0x3000⟩
  span := ⟨by decide, by decide, by decide, by decide⟩
  pages := fun i =>
    { freshPage with status := stRWStack, native := protToNative .rwStack, guard := decide (i = 0) }
  sealed := false
  swappedIn := true
  active := true
  hash := zeroes 32

def besideStack : AddressSpace touchedStack.addr where
  room := 4
  beyond := fun _ => ⟨protToNative .rw, false⟩
  covers := by decide
  bounded := by decide

theorem getStackDirty_touchedStack : ∃ b, touchedStack.getStackDirty (besideStack.getStackDirty touchedStack.pages) 4 =
    .ok b ∧ (b.pages 0).dirty = false ∧ (b.pages 1).dirty = true ∧ (b.pages 2).dirty = true :=
  ⟨_, getStackDirty_page_by_page touchedStack besideStack _ (besideStack.reports_getStackDirty _) 4 (by decide) rfl,
    by decide, by decide, by decide⟩

end WinBlock

end MiniBox
