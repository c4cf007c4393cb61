import MiniBox.Kernel
import MiniBox.Outcomes
import MiniBox.ThreadStream
import MiniBox.StreamWriters

/-! The host: a kernel and a memory block, how it is made, sealed, saved and loaded. -/

namespace MiniBox

open ByteStream Effects Outcomes StreamReaders StreamWriters

structure LayoutTemplate where
  sbrkSize : UInt64
  sealedSize : UInt64
  invisSize : UInt64
  plainSize : UInt64
  mmapSize : UInt64

namespace Layout

def behind (r : Range) (size : UInt64) : Range := ⟨r.rangeEnd, alignUp size⟩

def build (elf : Range) (tpl : LayoutTemplate) : Layout :=
  let mainThread := behind elf 0x100000
  let altThread := behind mainThread 0x100000
  let sbrk := behind altThread tpl.sbrkSize
  let sealedHeap := behind sbrk tpl.sealedSize
  let invis := behind sealedHeap tpl.invisSize
  let plain := behind invis tpl.plainSize
  let mmapArena := behind plain tpl.mmapSize
  { elf, mainThread, altThread, sbrk, sealedHeap, invis, plain, mmapArena }

def all (l : Layout) : Range := ⟨l.elf.start, l.mmapArena.rangeEnd - l.elf.start⟩

end Layout

structure Host extends Kernel where
  block : Block
  active : Bool
  sealed : Bool
  elfHash : Bytes 32

namespace Host

def activate (h : Host) : Except Crash Host :=
  if h.active then .ok h
  else do
    let b ← h.block.activate
    return { h with block := b, active := true }

def deactivate (h : Host) : Host :=
  if h.active then { h with block := h.block.deactivate, active := false } else h

/-- `mb_host_new` up to the ELF loader: an error text or the activated host, which the
loader fills with memory operations before `_start` runs. -/
def create (elfSpan : Range) (elfHash : Bytes 32) (tpl : LayoutTemplate) : Except Crash (String ⊕ Host) :=
  let layout := Layout.build elfSpan.alignExpand tpl
  if layout.all.start >>> 32 ≠ (layout.all.rangeEnd - 1) >>> 32 then
    .ok (.inl "HostMemoryLayout must fit into a single 4GiB region")
  else do
    let made ← Block.new layout.all
    match made with
    | none => return .inl "failed to create memory block"
    | some block =>
      let h ← activate
        { fs := Fs.new, programBreak := layout.sbrk.start, layout
          context := ⟨layout.mainThread.rangeEnd, 0⟩, threads := ThreadSet.new
          block, active := false, sealed := false, elfHash }
      return .inr h

theorem create_cases {elfSpan : Range} {elfHash : Bytes 32} {tpl : LayoutTemplate} {h : Host}
    (hmade : create elfSpan elfHash tpl = .ok (.inr h)) :
    ∃ b₀ b layout, layout = Layout.build elfSpan.alignExpand tpl ∧ Block.new layout.all = .ok (some b₀) ∧
      b₀.activate = .ok b ∧
      h = { fs := Fs.new, programBreak := layout.sbrk.start, layout
            context := ⟨layout.mainThread.rangeEnd, 0⟩, threads := ThreadSet.new
            block := b, active := true, sealed := false, elfHash } := by
  unfold create at hmade
  dsimp only at hmade
  split at hmade
  · cases hmade
  obtain ⟨made, hnew, hmade⟩ := bind_ok hmade
  cases made with
  | none => cases hmade
  | some b₀ =>
    obtain ⟨h', hact, hmade⟩ := bind_ok hmade
    cases hmade
    obtain ⟨b, hb, hact⟩ := bind_ok hact
    cases hact
    exact ⟨b₀, b, _, rfl, hnew, hb, rfl⟩

/-- The end of `mb_host_seal`, when the guest's own seal procedures have run and the ELF
loader has protected its read-only sections. -/
def sealHost (h : Host) : Except Crash (ℤ × Option String × Host) :=
  if h.sealed then .ok (-1, some "Already sealed!", h)
  else do
    let (rc, block) ← h.block.sealBlock
    if rc ≠ 0 then return (-1, some "seal failed", { h with block })
    else return (0, none, { h with block, sealed := true })

def mount (h : Host) (name data : List UInt8) (writable : Bool) : ℤ × Host :=
  ((h.fs.mount name data writable).1, { h with fs := (h.fs.mount name data writable).2 })

def unmount (h : Host) (name : List UInt8) : ℤ × List UInt8 × Host :=
  ((h.fs.unmount name).1, (h.fs.unmount name).2.1, { h with fs := (h.fs.unmount name).2.2 })

def saveStart : List UInt8 := ascii "ActivatedWaterboxHost_v1"

def saveEnd : List UInt8 :=
  [0xcb, 0x87] ++ ascii "soHxoq" ++ [0xc9, 0xaf, 0xc7, 0x9d, 0xca, 0x87, 0xc9, 0x90] ++ ascii "Mp" ++
    [0xc7, 0x9d, 0xca, 0x87, 0xc9, 0x90, 0xca, 0x8c, 0xe1, 0xb4, 0x89, 0xca, 0x87, 0xc9, 0x94, 0xe2, 0x88, 0x80]

def fsMagic : List UInt8 := ascii "FileSystem"
def fsEndMagic : List UInt8 := ascii "FileSystemEnd"
def elfMagic : List UInt8 := ascii "ElfLoader"

def saveBlock (h : Host) (w : Sink) : Except Crash (ℤ × Host × Sink) :=
  .ok ((h.block.saveState w).1, { h with block := (h.block.saveState w).2.1 }, (h.block.saveState w).2.2)

def saveThreads (h : Host) (w : Sink) : Except Crash (ℤ × Host × Sink) := do
  let (rc, threads, w) ← h.threads.save h.context w
  return (rc, { h with threads }, w)

/-- The file system goes into the stream as two magics with nothing between them. -/
def saveBody : Writer Crash Host Unit := do
  putting fun _ => saveStart
  putting fun _ => fsMagic
  putting fun _ => fsEndMagic
  putting fun h => le64 h.programBreak
  putting fun _ => elfMagic
  putting fun h => List.ofFn h.elfHash
  handing saveBlock
  handing saveThreads
  putting fun _ => saveEnd

def leave (wasActive : Bool) (h : Host) : Host := if wasActive then h else h.deactivate

def saveState (h : Host) (w : Sink) : Except Crash (ℤ × Option String × Host × Sink) :=
  if !h.sealed then .ok (-1, some "Not sealed!", h, w)
  else do
    let h₁ ← h.activate
    match exec saveBody (h₁, w) with
    | (.ok _, (h₂, w')) => return (0, none, h₂.leave h.active, w')
    | (.error .refused, (h₂, w')) => return (-1, some "save_state write failed", h₂.leave h.active, w')
    | (.error (.died e), _) => .error e

structure Loading where
  host : Host
  errbuf : Option String

def blaming {α : Type} (msg : String) (x : Reader Crash Loading α) : Reader Crash Loading α :=
  ExceptT.mk fun s =>
    match exec x s with
    | (.error .refused, (l, src)) => (.error .refused, ({ l with errbuf := some msg }, src))
    | r => r

def checkElfHash (raw : Bytes 32) : Reader Crash Loading Unit :=
  calling fun l src => .ok (if raw = l.host.elfHash then 0 else -1, l, src)

def loadBlock : Reader Crash Loading Unit :=
  calling fun l src => do
    let (rc, block, src) ← l.host.block.loadState src
    return (rc, { l with host := { l.host with block } }, src)

def loadThreads : Reader Crash Loading Unit :=
  calling fun l src => do
    let (rc, threads, context, src) ← l.host.threads.load l.host.context src
    return (rc, { l with host := { l.host with threads, context } }, src)

def loadBody : Reader Crash Loading Unit := do
  blaming "bad start magic" (expect saveStart)
  blaming "bad fs magic" (expect fsMagic)
  blaming "bad fs magic" (expect fsEndMagic)
  let _ ← reading (fun l src => rdU64 l.host.programBreak src)
    fun l v => { l with host := { l.host with programBreak := v } }
  blaming "bad elf magic" (expect elfMagic)
  let raw ← readBytes 32
  blaming "ELF hash mismatch" (checkElfHash raw)
  blaming "memory block load failed" loadBlock
  blaming "thread set load failed" loadThreads
  blaming "bad end magic" (expect saveEnd)

def loadState (h : Host) (src : Source) : Except Crash (ℤ × Option String × Host × Source) :=
  if !h.sealed then .ok (-1, some "Not sealed!", h, src)
  else do
    let h₁ ← h.activate
    match exec loadBody (⟨h₁, none⟩, src) with
    | (.ok _, (l, src')) => return (0, l.errbuf, l.host.leave h.active, src')
    | (.error .refused, (l, src')) => return (-1, l.errbuf, l.host.leave h.active, src')
    | (.error (.died e), _) => .error e

end Host

end MiniBox
