import MiniBox.GuestAccess

/-! Saving and loading the memory block. -/

namespace MiniBox

open ByteStream

def blockMagic : List UInt8 := ascii "ActivatedMemoryBlock"

namespace Page

def carried (p : Page) : Bool := !p.invisible && p.dirty

def loadBytes (p : Page) (newD : Bool) (s : Source) : ℤ × Page × Source :=
  let r := rd p.data s
  if r.1 then (0, { p with data := r.2.1, dirty := newD }, r.2.2)
  else (-eio, { p with data := r.2.1 }, r.2.2)

/-- The loop body of `mb_block_load_state` up to the dirty bit: the return code that
ends the load, if it is not zero, and the page as it is then. -/
def load (p : Page) (newD : Bool) (s : Source) : ℤ × Page × Source :=
  if p.invisible then (0, p, s)
  else if !p.dirty && newD then p.maybeSnapshot.loadBytes newD s
  else if p.dirty && !newD then
    match p.snap with
    | .zero => (0, { p with data := zeroes 4096, dirty := newD }, s)
    | .data d => (0, { p with data := d, dirty := newD }, s)
    | .none => (-einval, p, s)
  else if p.dirty && newD then p.loadBytes newD s
  else (0, { p with dirty := newD }, s)

end Page

structure Pass where
  block : Block
  statii : ℕ → UInt8
  dirtii : ℕ → UInt8
  source : Source

namespace Block

def statii (b : Block) : Bytes b.npages := fun i => (b.pages i).status
def dirtii (b : Block) : Bytes b.npages := fun i => if (b.pages i).dirty then 1 else 0

def contents (pages : ℕ → Page) (i n : ℕ) : List (List UInt8) :=
  ((List.range' i n).filter fun j => (pages j).carried).map fun j => List.ofFn (pages j).data

def saveChunks (b : Block) : List (List UInt8) :=
  [blockMagic, List.ofFn b.hash, rangeBytes b.addr, List.ofFn b.statii, List.ofFn b.dirtii] ++
    contents b.pages 0 b.npages

def saveState (b : Block) (w : Sink) : ℤ × Block × Sink :=
  if b.sealed then
    match w.putAll b.saveChunks with
    | (true, w') => (0, b, w')
    | (false, w') => (-eio, b, w')
  else (-einval, b, w)

/-- The page loop of `mb_block_load_state` from page `i` on, with `n` pages to go.
A run of pages whose protection changed is pending from `runStart` to `runEnd`. -/
def loadLoop (statii dirtii : ℕ → UInt8) :
    ℕ → ℕ → Option ℕ → ℕ → Block → Source → Except Crash (ℤ × Block × Source)
  | 0, _, none, _, b, s => .ok (0, b, s)
  | 0, _, some r, runEnd, b, s => do
    let b ← b.refreshRange r (runEnd - r + 1)
    return (0, b, s)
  | n + 1, i, runStart, runEnd, b, s =>
    let (rc, q, s') := (b.pages i).load (dirtii i != 0) s
    if rc ≠ 0 then .ok (rc, b.setPage i q, s')
    else
      let q := q.setStatus (statii i)
      if q.nativeProt ≠ (b.pages i).nativeProt then
        loadLoop statii dirtii n (i + 1) (some (runStart.getD i)) i (b.setPage i q) s'
      else match runStart with
        | none => loadLoop statii dirtii n (i + 1) none runEnd (b.setPage i q) s'
        | some r => do
          let b ← (b.setPage i q).refreshRange r (runEnd - r + 1)
          loadLoop statii dirtii n (i + 1) none runEnd b s'

def rangeOfBytes (raw : Bytes 16) : Range :=
  ⟨u64OfBytes fun i => raw (Fin.castAdd 8 i), u64OfBytes fun i => raw (Fin.natAdd 8 i)⟩

def byteAt {n : ℕ} (buf : Bytes n) (i : ℕ) : UInt8 := if h : i < n then buf ⟨i, h⟩ else 0

/-- The part of `mb_block_load_state` before its page loop: the return code that ends the
load there, or the pass over the pages that follows. -/
def loadHeader (b : Block) (s : Source) : (ℤ × Source) ⊕ Pass :=
  let (ok, eq, s) := rdMagic blockMagic s
  if !ok then .inl (-eio, s)
  else if !eq then .inl (-einval, s)
  else
    let (ok, _, s) := rd (zeroes 32) s
    if !ok then .inl (-eio, s)
    else
      let (ok, raw, s) := rd (zeroes 16) s
      if !ok then .inl (-eio, s)
      else if rangeOfBytes raw ≠ b.addr then .inl (-einval, s)
      else
        let (ok, statii, s) := rd (zeroes b.npages) s
        if !ok then .inl (-eio, s)
        else
          let (ok, dirtii, s) := rd (zeroes b.npages) s
          if !ok then .inl (-eio, s)
          else .inr ⟨b, byteAt statii, byteAt dirtii, s⟩

def loadState (b : Block) (s : Source) : Except Crash (ℤ × Block × Source) :=
  if b.sealed then
    match b.loadHeader s with
    | .inl (rc, s) => .ok (rc, b, s)
    | .inr l => loadLoop l.statii l.dirtii b.npages 0 none 0 b l.source
  else .ok (-einval, b, s)

end Block

end MiniBox
