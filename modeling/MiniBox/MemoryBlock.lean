import MiniBox.Addresses
import MiniBox.IndexLoops
import MiniBox.Outcomes
import MiniBox.Pages
import MiniBox.LittleEndian
import MiniBox.Sha256

/-! The memory block: its construction, activation, protection refresh and seal. -/

namespace MiniBox

open ByteStream IndexLoops Outcomes

inductive Crash
  | trap | segv | outOfBounds | nullDeref
  deriving DecidableEq, Repr

def eio : ℤ := 5
def enomem : ℤ := 12
def eexist : ℤ := 17
def einval : ℤ := 22
def enosys : ℤ := 38

def sword (a : UInt64) : ℤ := if a.toNat < 2 ^ 63 then a.toNat else a.toNat - 2 ^ 64

structure Block where
  addr : Range
  span : addr.IsSpan
  pages : ℕ → Page
  sealed : Bool
  swappedIn : Bool
  active : Bool
  hash : Bytes 32

def freshPage : Page where
  status := stFree
  dirty := false
  invisible := false
  snap := .zero
  data := zeroes 4096
  native := protToNative .none

namespace Block

def npages (b : Block) : ℕ := b.addr.npages

def withPages (b : Block) (pages : ℕ → Page) : Block := { b with pages }

def inTable (b : Block) (pstart pcount : ℕ) : Bool := decide (pcount = 0 ∨ pstart + pcount ≤ b.npages)

/-- `calloc` gives no page table for a range that wraps, and its first entry is then written. No mapping has length 0. -/
def new (addr : Range) : Except Crash (Option Block) :=
  if h1 : addr.start = alignDown addr.start ∧ addr.size = alignDown addr.size then
    if h2 : addr.start >>> 32 = (addr.rangeEnd - 1) >>> 32 then
      if h3 : addr.start.toNat + addr.size.toNat ≤ 2 ^ 64 then
        if addr.size = 0 then .ok none
        else .ok (some ⟨addr, ⟨h1.1, h1.2, h2, h3⟩, fun _ => freshPage, false, false, false, zeroes 32⟩)
      else .error .nullDeref
    else .ok none
  else .ok none

theorem new_cases {addr : Range} {b : Block} (h : new addr = .ok (some b)) :
    addr.size ≠ 0 ∧ ∃ span, b = ⟨addr, span, fun _ => freshPage, false, false, false, zeroes 32⟩ := by
  unfold new at h
  split_ifs at h with h1 h2 h3 h0
  · cases h
  · cases h
    exact ⟨h0, _, rfl⟩
  · cases h
  · cases h

def refreshLoop (stop : ℕ) : ℕ → ℕ → (ℕ → Page) → ℕ → Page
  | 0, _, pages => pages
  | fuel + 1, i, pages =>
    if i < stop then
      let prot := (pages i).nativeProt
      let j := runEnd (fun k => (pages k).nativeProt) prot (stop - (i + 1)) (i + 1)
      refreshLoop stop fuel j (mapRange (Page.protect prot) i (j - i) pages)
    else pages

def refreshRange (b : Block) (pstart pcount : ℕ) : Except Crash Block :=
  if b.swappedIn then
    if b.inTable pstart pcount then
      .ok (b.withPages (refreshLoop (pstart + pcount) pcount pstart b.pages))
    else .error .outOfBounds
  else .ok b

def refreshAll (b : Block) : Except Crash Block := b.refreshRange 0 b.npages

def activate (b : Block) : Except Crash Block :=
  if b.active then .ok b
  else if b.swappedIn then .ok { b with active := true }
  else do
    let b ← { b with swappedIn := true }.refreshAll
    return { b with active := true }

def deactivate (b : Block) : Block := { b with active := false }

def setProtections (b : Block) (pstart pcount : ℕ) (status : UInt8) : Except Crash Block := do
  let pages ← forRange b.npages .outOfBounds (Page.setStatus status) pstart pcount b.pages
  (b.withPages pages).refreshRange pstart pcount

def sealPage (p : Page) : Page :=
  if p.dirty && !p.invisible then { p with dirty := false, snap := .none } else p

def snapshotBytes : Snapshot → List UInt8
  | .none => List.ofFn (u32Bytes 1)
  | .zero => List.ofFn (u32Bytes 2)
  | .data bytes => List.ofFn bytes

def rangeBytes (r : Range) : List UInt8 := List.ofFn (u64Bytes r.start) ++ List.ofFn (u64Bytes r.size)

def blockHash (b : Block) : Bytes 32 :=
  Sha256.final ((List.range b.npages).foldl (fun c i => Sha256.update c (snapshotBytes (b.pages i).snap))
    (Sha256.update Sha256.init (rangeBytes b.addr)))

def sealBlock (b : Block) : Except Crash (ℤ × Block) :=
  if b.sealed then .ok (-einval, b)
  else do
    let pages ← forRange b.npages .outOfBounds sealPage 0 b.npages b.pages
    let b ← (b.withPages pages).refreshAll
    return (0, { b with sealed := true, hash := b.blockHash })

def sync (b : Block) (p : Page) : Page := if b.swappedIn then p.refresh else p

def mapPages (b : Block) (pstart pcount : ℕ) (f : Page → Page) : Block :=
  b.withPages (mapRange f pstart pcount b.pages)

end Block

section

variable (b : Block) (pages : ℕ → Page)

@[simp] theorem withPages_pages : (b.withPages pages).pages = pages := rfl
@[simp] theorem withPages_addr : (b.withPages pages).addr = b.addr := rfl
@[simp] theorem withPages_npages : (b.withPages pages).npages = b.npages := rfl
@[simp] theorem withPages_sealed : (b.withPages pages).sealed = b.sealed := rfl
@[simp] theorem withPages_swappedIn : (b.withPages pages).swappedIn = b.swappedIn := rfl
@[simp] theorem withPages_hash : (b.withPages pages).hash = b.hash := rfl
@[simp] theorem withPages_sync : (b.withPages pages).sync = b.sync := rfl
@[simp] theorem withPages_withPages (pages' : ℕ → Page) :
    (b.withPages pages).withPages pages' = b.withPages pages' := rfl

end

theorem refreshLoop_runLoop (stop fuel i : ℕ) (pages : ℕ → Page) :
    Block.refreshLoop stop fuel i pages = runLoop Page.nativeProt Page.protect stop fuel i pages := by
  induction fuel generalizing i pages with
  | zero => rfl
  | succ fuel ih => simp only [Block.refreshLoop, runLoop, ih]

theorem refreshLoop_eq (stop fuel i : ℕ) (pages : ℕ → Page) (hi : i ≤ stop) (hf : stop - i ≤ fuel) :
    Block.refreshLoop stop fuel i pages = mapRange Page.refresh i (stop - i) pages := by
  rw [refreshLoop_runLoop]
  exact runLoop_eq _ _ stop fuel i pages hi hf

theorem mapPages_mapPages (b : Block) (ps pc : ℕ) (f g : Page → Page) :
    (b.mapPages ps pc f).mapPages ps pc g = b.mapPages ps pc (g ∘ f) :=
  congrArg b.withPages (mapRange_mapRange f g ps pc b.pages)

theorem refreshRange_eq (b : Block) (ps pc : ℕ) (h : ps + pc ≤ b.npages) :
    b.refreshRange ps pc = .ok (b.mapPages ps pc b.sync) := by
  have ht : b.inTable ps pc = true := by simp [Block.inTable, h]
  unfold Block.refreshRange
  by_cases hs : b.swappedIn = true
  · have hsync : b.sync = Page.refresh := by funext p; simp [Block.sync, hs]
    rw [if_pos hs, if_pos ht, refreshLoop_eq _ _ _ _ (by omega) (by omega), Block.mapPages, hsync]
    simp
  · have hid : mapRange b.sync ps pc b.pages = b.pages := by
      funext j
      simp [mapRange, Block.sync, hs]
    rw [if_neg hs, Block.mapPages, hid]
    rfl

theorem setProtections_eq (b : Block) (ps pc : ℕ) (st : UInt8) (h : ps + pc ≤ b.npages) :
    b.setProtections ps pc st = .ok (b.mapPages ps pc fun p => b.sync (p.setStatus st)) := by
  unfold Block.setProtections
  rw [forRange_eq _ _ _ _ _ _ h, ok_bind]
  change (b.mapPages ps pc (Page.setStatus st)).refreshRange ps pc = _
  rw [refreshRange_eq (b.mapPages ps pc (Page.setStatus st)) ps pc h]
  exact congrArg Except.ok (mapPages_mapPages b ps pc (Page.setStatus st) b.sync)

theorem refreshAll_eq (b : Block) : b.refreshAll = .ok (b.mapPages 0 b.npages b.sync) :=
  refreshRange_eq b 0 b.npages (by omega)

end MiniBox
