import MiniBox.MemoryBlock

namespace MiniBox

open ByteStream IndexLoops

def validate (span addr : Range) : Option (ℕ × ℕ) :=
  if addr.start < span.start ∨ addr.rangeEnd > span.rangeEnd ∨ addr.size = 0 ∨
      addr.start ≠ alignDown addr.start ∨ addr.size ≠ alignDown addr.size then none
  else some (((addr.start - span.start) >>> 12).toNat, (addr.size >>> 12).toNat)

namespace Block

def validate (b : Block) (addr : Range) : Option (ℕ × ℕ) := MiniBox.validate b.addr addr

def anyFree (b : Block) (pstart pcount : ℕ) : Except Crash Bool :=
  anyRange b.npages .outOfBounds Page.isFree b.pages pstart pcount

def anyTaken (b : Block) (pstart pcount : ℕ) : Except Crash Bool :=
  anyRange b.npages .outOfBounds (fun p => !p.isFree) b.pages pstart pcount

def mmapFixed (b : Block) (addr : Range) (prot : Prot) (noReplace : Bool) : Except Crash (ℤ × Block) :=
  match b.validate addr with
  | none => .ok (-einval, b)
  | some (ps, pcount) => do
    let taken ← if noReplace then b.anyTaken ps pcount else .ok false
    if taken then return (-eexist, b)
    else
      let b ← b.setProtections ps pcount (protStatus prot)
      return (0, b)

def findFreeLoop (free : ℕ → Bool) (npages stop : ℕ) : ℕ → ℕ → Option ℕ → ℕ → Option ℕ
  | 0, _, best, _ => best
  | fuel + 1, i, best, bestLen =>
    if i < stop then
      if free i then
        let j := runEnd free true (stop - i) i
        if npages ≤ j - i ∧ j - i < bestLen then findFreeLoop free npages stop fuel j (some i) (j - i)
        else findFreeLoop free npages stop fuel j best bestLen
      else findFreeLoop free npages stop fuel (i + 1) best bestLen
    else best

def findFreePages (b : Block) (arenaStart arenaCount npages : ℕ) : Except Crash (Option ℕ) :=
  if b.inTable arenaStart arenaCount then
    .ok (findFreeLoop (fun i => (b.pages i).isFree) npages (arenaStart + arenaCount) arenaCount
      arenaStart none (2 ^ 64 - 1))
  else .error .outOfBounds

def pageAddr (b : Block) (i : ℕ) : UInt64 := b.addr.start + (UInt64.ofNat i <<< 12)

def mmap (b : Block) (addr : Range) (prot : Prot) (arena : Range) (noReplace : Bool) :
    Except Crash (ℤ × Block) :=
  if addr.size = 0 then .ok (-einval, b)
  else if addr.start = 0 then
    if addr.size ≠ alignDown addr.size then .ok (-einval, b)
    else match b.validate arena with
      | none => .ok (-einval, b)
      | some (as, acount) => do
        let found ← b.findFreePages as acount (addr.size >>> 12).toNat
        match found with
        | none => return (-enomem, b)
        | some ps =>
          let b' ← b.setProtections ps (addr.size >>> 12).toNat (protStatus prot)
          return (sword (b.pageAddr ps), b')
  else do
    let (r, b') ← b.mmapFixed addr prot noReplace
    return (if r ≠ 0 then r else sword addr.start, b')

def mprotect (b : Block) (addr : Range) (prot : Prot) : Except Crash (ℤ × Block) :=
  match b.validate addr with
  | none => .ok (-einval, b)
  | some (ps, pcount) => do
    let free ← b.anyFree ps pcount
    if free then return (-enomem, b)
    else
      let b ← b.setProtections ps pcount (protStatus prot)
      return (0, b)

def freePages (b : Block) (ps pcount : ℕ) (adviseOnly : Bool) : Except Crash Block := do
  let pages ← forRange b.npages .outOfBounds Page.release ps pcount b.pages
  if adviseOnly then (b.withPages pages).refreshRange ps pcount
  else (b.withPages pages).setProtections ps pcount stFree

def munmapImpl (b : Block) (addr : Range) (adviseOnly : Bool) : Except Crash (ℤ × Block) :=
  match b.validate addr with
  | none => .ok (-einval, b)
  | some (ps, pcount) => do
    let free ← b.anyFree ps pcount
    if free then return (-einval, b)
    else
      let b ← b.freePages ps pcount adviseOnly
      return (0, b)

def munmap (b : Block) (addr : Range) : Except Crash (ℤ × Block) := b.munmapImpl addr false
def madviseDontneed (b : Block) (addr : Range) : Except Crash (ℤ × Block) := b.munmapImpl addr true

def statusAt (b : Block) (i : ℕ) : Except Crash UInt8 :=
  if i < b.npages then .ok (b.pages i).status else .error .outOfBounds

def mremap (b : Block) (addr : Range) (newSize : UInt64) : Except Crash (ℤ × Block) :=
  if addr.size = 0 ∨ newSize = 0 then .ok (-einval, b)
  else if addr.start = 0 then .ok (-enosys, b)
  else match b.validate addr with
    | none => .ok (-einval, b)
    | some (ps, pcount) =>
      if newSize > addr.size then
        match b.validate ⟨addr.start, newSize⟩ with
        | none => .ok (-einval, b)
        | some (fs, fcount) => do
          let free ← b.anyFree ps pcount
          if free then return (-einval, b)
          else
            let taken ← b.anyTaken (ps + pcount) (fs + fcount - (ps + pcount))
            if taken then return (-eexist, b)
            else
              let st ← b.statusAt ps
              let b ← b.setProtections (ps + pcount) (fcount - pcount) st
              return (sword addr.start, b)
      else do
        let free ← b.anyFree ps pcount
        if free then return (-einval, b)
        else
          let (r, b') ← b.munmapImpl ⟨addr.start + newSize, addr.size - newSize⟩ false
          return (if r ≠ 0 then r else sword addr.start, b')

def hidePage (p : Page) : Page := { p with dirty := true, invisible := true }

def markInvisible (b : Block) (addr : Range) : Except Crash (ℤ × Block) :=
  if b.sealed then .ok (-einval, b)
  else match b.validate addr with
    | none => .ok (-einval, b)
    | some (ps, pcount) => do
      let pages ← forRange b.npages .outOfBounds hidePage ps pcount b.pages
      let b ← (b.withPages pages).refreshRange ps pcount
      return (0, b)

def copyInto (off i : ℕ) (src : List UInt8) (p : Page) : Page :=
  { p with
    data := fun k => if off ≤ i * 4096 + k then (src[i * 4096 + k.val - off]?).getD (p.data k) else p.data k }

def mirrorCopy (b : Block) (off : ℕ) (src : List UInt8) : Except Crash Block :=
  if off + src.length ≤ b.npages * 4096 then
    .ok (b.withPages fun i => copyInto off i src (b.pages i))
  else .error .outOfBounds

def soil (p : Page) : Page := { p with dirty := true }

def copyFromExternal (b : Block) (src : List UInt8) (start : UInt64) : Except Crash (ℤ × Block) :=
  match b.validate (Range.alignExpand ⟨start, UInt64.ofNat src.length⟩) with
  | none => .ok (-einval, b)
  | some (ps, pcount) => do
    let pages ← forRange b.npages .outOfBounds soil ps pcount b.pages
    let b ← (b.withPages pages).mirrorCopy (start - b.addr.start).toNat src
    return (0, b)

end Block

inductive MemOp
  | mmapFixed (addr : Range) (prot : Prot) (noReplace : Bool)
  | mmap (addr : Range) (prot : Prot) (arena : Range) (noReplace : Bool)
  | mprotect (addr : Range) (prot : Prot)
  | munmap (addr : Range)
  | madviseDontneed (addr : Range)
  | mremap (addr : Range) (newSize : UInt64)

namespace MemOp

def run (b : Block) : MemOp → Except Crash (ℤ × Block)
  | mmapFixed addr prot noReplace => b.mmapFixed addr prot noReplace
  | mmap addr prot arena noReplace => b.mmap addr prot arena noReplace
  | mprotect addr prot => b.mprotect addr prot
  | munmap addr => b.munmap addr
  | madviseDontneed addr => b.madviseDontneed addr
  | mremap addr newSize => b.mremap addr newSize

def NoWrap : MemOp → Prop
  | mmapFixed addr _ _ => addr.NoWrap
  | mmap addr _ arena _ => addr.NoWrap ∧ arena.NoWrap
  | mprotect addr _ => addr.NoWrap
  | munmap addr => addr.NoWrap
  | madviseDontneed addr => addr.NoWrap
  | mremap addr newSize => addr.NoWrap ∧ Range.NoWrap ⟨addr.start, newSize⟩

end MemOp

end MiniBox
