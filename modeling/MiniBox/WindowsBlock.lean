import MiniBox.BlockState
import MiniBox.StackSweep

/-!
The memory operations, the seal and the savestates of the Windows build. What the two
builds share is taken from the block without its guard bits.
-/

namespace MiniBox

open ByteStream IndexLoops Outcomes

/-- The Windows branch of `mb_page_native_prot`. -/
def winNativeProt (status : UInt8) (dirty : Bool) : Prot :=
  if status = stFree then .none
  else if status = stRWStack ∧ dirty = true then .rw
  else if status = stRW ∧ dirty = false then .r
  else if status = stRWX ∧ dirty = false then .rx
  else statusProt status

namespace WinPage

def onPage (f : Page → Page) (p : WinPage) : WinPage := { p with toPage := f p.toPage }

def winProt (p : WinPage) : Prot := winNativeProt p.status p.dirty

def protect (prot : Prot) (p : WinPage) : WinPage :=
  { p with native := protToNative prot, guard := decide (prot = .rwStack) }

def refresh (p : WinPage) : WinPage := p.protect p.winProt

def preCapture (p : WinPage) : WinPage := if p.status = stRWStack then p.onPage Page.maybeSnapshot else p

def sealPage (p : WinPage) : WinPage :=
  if p.dirty && !p.invisible then (p.onPage Block.sealPage).preCapture else p

def touch (p : WinPage) : WinPage := { p with guard := false }

def trip (p : WinPage) : WinPage := refresh { p.onPage Page.maybeSnapshot with dirty := true }

end WinPage

abbrev Query := (ℕ → WinPage) → UInt64 → Option (UInt64 × Bool)

namespace WinBlock

def toBlock (b : WinBlock) : Block :=
  ⟨b.addr, b.span, fun i => (b.pages i).toPage, b.sealed, b.swappedIn, b.active, b.hash⟩

def ofBlock (b : Block) : WinBlock :=
  ⟨b.addr, b.span, fun i => ⟨b.pages i, false⟩, b.sealed, b.swappedIn, b.active, b.hash⟩

def new (addr : Range) : Except Crash (Option WinBlock) := do
  let b ← Block.new addr
  return b.map ofBlock

def refreshRange (b : WinBlock) (pstart pcount : ℕ) : Except Crash WinBlock :=
  if b.swappedIn then
    if b.toBlock.inTable pstart pcount then
      .ok (b.withPages (runLoop WinPage.winProt WinPage.protect (pstart + pcount) pcount pstart b.pages))
    else .error .outOfBounds
  else .ok b

def refreshAll (b : WinBlock) : Except Crash WinBlock := b.refreshRange 0 b.npages

def activate (b : WinBlock) : Except Crash WinBlock :=
  if b.active then .ok b
  else if b.swappedIn then .ok { b with active := true }
  else do
    let b ← { b with swappedIn := true }.refreshAll
    return { b with active := true }

def deactivate (b : WinBlock) : WinBlock := { b with active := false }

def setProtections (b : WinBlock) (pstart pcount : ℕ) (status : UInt8) : Except Crash WinBlock := do
  let pages ← forRange b.npages .outOfBounds (WinPage.onPage (Page.setStatus status)) pstart pcount b.pages
  let b ← (b.withPages pages).refreshRange pstart pcount
  if status = stRWStack then
    let pages ← forRange b.npages .outOfBounds (WinPage.onPage Page.maybeSnapshot) pstart pcount b.pages
    return b.withPages pages
  else return b

def sampleStacks (query : Query) (b : WinBlock) : Except Crash WinBlock :=
  match b.getStackDirty (query b.pages) (b.npages + 1) with
  | .ok b' => .ok b'
  | .error _ => .error .outOfBounds

def mmapFixed (b : WinBlock) (addr : Range) (prot : Prot) (noReplace : Bool) : Except Crash (ℤ × WinBlock) :=
  match b.toBlock.validate addr with
  | none => .ok (-einval, b)
  | some (ps, pcount) => do
    let taken ← if noReplace then b.toBlock.anyTaken ps pcount else .ok false
    if taken then return (-eexist, b)
    else
      let b ← b.setProtections ps pcount (protStatus prot)
      return (0, b)

def mmap (b : WinBlock) (addr : Range) (prot : Prot) (arena : Range) (noReplace : Bool) :
    Except Crash (ℤ × WinBlock) :=
  if addr.size = 0 then .ok (-einval, b)
  else if addr.start = 0 then
    if addr.size ≠ alignDown addr.size then .ok (-einval, b)
    else match b.toBlock.validate arena with
      | none => .ok (-einval, b)
      | some (as, acount) => do
        let found ← b.toBlock.findFreePages as acount (addr.size >>> 12).toNat
        match found with
        | none => return (-enomem, b)
        | some ps =>
          let b' ← b.setProtections ps (addr.size >>> 12).toNat (protStatus prot)
          return (sword (b.toBlock.pageAddr ps), b')
  else do
    let (r, b') ← b.mmapFixed addr prot noReplace
    return (if r ≠ 0 then r else sword addr.start, b')

def mprotect (query : Query) (b : WinBlock) (addr : Range) (prot : Prot) : Except Crash (ℤ × WinBlock) := do
  let b ← b.sampleStacks query
  match b.toBlock.validate addr with
  | none => return (-einval, b)
  | some (ps, pcount) =>
    let free ← b.toBlock.anyFree ps pcount
    if free then return (-enomem, b)
    else
      let b ← b.setProtections ps pcount (protStatus prot)
      return (0, b)

def freePages (b : WinBlock) (ps pcount : ℕ) (adviseOnly : Bool) : Except Crash WinBlock := do
  let pages ← forRange b.npages .outOfBounds (WinPage.onPage Page.release) ps pcount b.pages
  if adviseOnly then (b.withPages pages).refreshRange ps pcount
  else (b.withPages pages).setProtections ps pcount stFree

def munmapImpl (query : Query) (b : WinBlock) (addr : Range) (adviseOnly : Bool) :
    Except Crash (ℤ × WinBlock) := do
  let b ← b.sampleStacks query
  match b.toBlock.validate addr with
  | none => return (-einval, b)
  | some (ps, pcount) =>
    let free ← b.toBlock.anyFree ps pcount
    if free then return (-einval, b)
    else
      let b ← b.freePages ps pcount adviseOnly
      return (0, b)

def mremap (query : Query) (b : WinBlock) (addr : Range) (newSize : UInt64) : Except Crash (ℤ × WinBlock) := do
  let b ← b.sampleStacks query
  if addr.size = 0 ∨ newSize = 0 then return (-einval, b)
  else if addr.start = 0 then return (-enosys, b)
  else match b.toBlock.validate addr with
    | none => return (-einval, b)
    | some (ps, pcount) =>
      if newSize > addr.size then
        match b.toBlock.validate ⟨addr.start, newSize⟩ with
        | none => return (-einval, b)
        | some (fs, fcount) =>
          let free ← b.toBlock.anyFree ps pcount
          if free then return (-einval, b)
          else
            let taken ← b.toBlock.anyTaken (ps + pcount) (fs + fcount - (ps + pcount))
            if taken then return (-eexist, b)
            else
              let st ← b.toBlock.statusAt ps
              let b ← b.setProtections (ps + pcount) (fcount - pcount) st
              return (sword addr.start, b)
      else
        let free ← b.toBlock.anyFree ps pcount
        if free then return (-einval, b)
        else
          let (r, b') ← b.munmapImpl query ⟨addr.start + newSize, addr.size - newSize⟩ false
          return (if r ≠ 0 then r else sword addr.start, b')

def markInvisible (b : WinBlock) (addr : Range) : Except Crash (ℤ × WinBlock) :=
  if b.sealed then .ok (-einval, b)
  else match b.toBlock.validate addr with
    | none => .ok (-einval, b)
    | some (ps, pcount) => do
      let pages ← forRange b.npages .outOfBounds (WinPage.onPage Block.hidePage) ps pcount b.pages
      let b ← (b.withPages pages).refreshRange ps pcount
      return (0, b)

def sealBlock (query : Query) (b : WinBlock) : Except Crash (ℤ × WinBlock) :=
  if b.sealed then .ok (-einval, b)
  else do
    let b ← b.sampleStacks query
    let pages ← forRange b.npages .outOfBounds WinPage.sealPage 0 b.npages b.pages
    let b ← (b.withPages pages).refreshAll
    return (0, { b with sealed := true, hash := b.toBlock.blockHash })

def saveState (query : Query) (b : WinBlock) (w : Sink) : Except Crash (ℤ × WinBlock × Sink) :=
  if b.sealed then do
    let b ← b.sampleStacks query
    match w.putAll b.toBlock.saveChunks with
    | (true, w') => return (0, b, w')
    | (false, w') => return (-eio, b, w')
  else .ok (-einval, b, w)

def setPage (b : WinBlock) (i : ℕ) (p : WinPage) : WinBlock := b.withPages (Function.update b.pages i p)

def loadLoop (statii dirtii : ℕ → UInt8) :
    ℕ → ℕ → Option ℕ → ℕ → WinBlock → Source → Except Crash (ℤ × WinBlock × Source)
  | 0, _, none, _, b, s => .ok (0, b, s)
  | 0, _, some r, runEnd, b, s => do
    let b ← b.refreshRange r (runEnd - r + 1)
    return (0, b, s)
  | n + 1, i, runStart, runEnd, b, s =>
    let (rc, q, s') := (b.pages i).toPage.load (dirtii i != 0) s
    if rc ≠ 0 then .ok (rc, b.setPage i { b.pages i with toPage := q }, s')
    else
      let q : WinPage := { b.pages i with toPage := q.setStatus (statii i) }
      if q.winProt ≠ (b.pages i).winProt then
        loadLoop statii dirtii n (i + 1) (some (runStart.getD i)) i (b.setPage i q) s'
      else match runStart with
        | none => loadLoop statii dirtii n (i + 1) none runEnd (b.setPage i q) s'
        | some r => do
          let b ← (b.setPage i q).refreshRange r (runEnd - r + 1)
          loadLoop statii dirtii n (i + 1) none runEnd b s'

def loadState (query : Query) (b : WinBlock) (s : Source) : Except Crash (ℤ × WinBlock × Source) :=
  if b.sealed then do
    let b ← b.sampleStacks query
    match b.toBlock.loadHeader s with
    | .inl (rc, s) => return (rc, b, s)
    | .inr l => loadLoop l.statii l.dirtii b.npages 0 none 0 b l.source
  else .ok (-einval, b, s)

def trip (b : WinBlock) (a : UInt64) : Except Crash (Bool × WinBlock) :=
  if b.toBlock.mapped a then
    let p := b.pages (b.toBlock.pageOf a)
    if p.isWritable then .ok (true, b.setPage (b.toBlock.pageOf a) p.trip) else .error .trap
  else .ok (false, b)

/-- A read: `veh` lets the guest go on after a guard page violation. -/
def guestRead (b : WinBlock) (a : UInt64) : Except Crash (UInt8 × WinBlock) :=
  let p := (b.pages (b.toBlock.pageOf a)).touch
  if b.toBlock.mapped a && p.native.read then .ok (p.data (offsetOf a), b.setPage (b.toBlock.pageOf a) p)
  else .error .segv

/-- A write: past the guard bit it goes through where the access lets it, and otherwise
enters `veh`, which trips the page so that the write is retried. -/
def guestWrite (b : WinBlock) (a : UInt64) (v : UInt8) : Except Crash WinBlock :=
  let p := (b.pages (b.toBlock.pageOf a)).touch
  if b.toBlock.mapped a && p.native.write then
    .ok (b.setPage (b.toBlock.pageOf a) (p.onPage (Page.store (offsetOf a) v)))
  else do
    let (handled, b') ← (b.setPage (b.toBlock.pageOf a) p).trip a
    let q := b'.pages (b.toBlock.pageOf a)
    if handled && q.native.write then return b'.setPage (b.toBlock.pageOf a) (q.onPage (Page.store (offsetOf a) v))
    else .error .segv

end WinBlock

end MiniBox
