import MiniBox.CheckedReads
import MiniBox.Host
import MiniBox.Sha256

/-! The ELF loader: what it reads from the guest image and what it does to the memory block. -/

namespace MiniBox

open ByteStream IndexLoops Outcomes

/-- How the loader dies: it reads behind the image, or an operation on the block kills it. -/
inductive ElfFault
  | outside
  | crash (c : Crash)
  deriving DecidableEq

def crashes {α : Type} : Except Crash α → Except ElfFault α
  | .ok a => .ok a
  | .error c => .error (.crash c)

theorem crashes_ok {α : Type} {x : Except Crash α} {a : α} (h : crashes x = .ok a) : x = .ok a := by
  cases x with
  | ok b => exact congrArg Except.ok (Except.ok.inj h)
  | error c => cases h

structure Image where
  bytes : List UInt8
  small : bytes.length < 2 ^ 64

structure Field where
  offset : UInt64
  size : ℕ

def eEntry : Field := ⟨24, 8⟩
def ePhoff : Field := ⟨32, 8⟩
def eShoff : Field := ⟨40, 8⟩
def ePhentsize : Field := ⟨54, 2⟩
def ePhnum : Field := ⟨56, 2⟩
def eShnum : Field := ⟨60, 2⟩
def eShstrndx : Field := ⟨62, 2⟩

def pType : Field := ⟨0, 4⟩
def pFlags : Field := ⟨4, 4⟩
def pOffset : Field := ⟨8, 8⟩
def pVaddr : Field := ⟨16, 8⟩
def pFilesz : Field := ⟨32, 8⟩
def pMemsz : Field := ⟨40, 8⟩

def shName : Field := ⟨0, 4⟩
def shType : Field := ⟨4, 4⟩
def shAddr : Field := ⟨16, 8⟩
def shOffset : Field := ⟨24, 8⟩
def shSize : Field := ⟨32, 8⟩
def shLink : Field := ⟨40, 4⟩

def stName : Field := ⟨0, 4⟩
def stInfo : Field := ⟨4, 1⟩
def stOther : Field := ⟨5, 1⟩
def stValue : Field := ⟨8, 8⟩
def stSize : Field := ⟨16, 8⟩

def firstChar : Field := ⟨0, 1⟩

def ptLoad : UInt64 := 1
def shtSymtab : UInt64 := 2
def shtNobits : UInt64 := 8

structure SectionInfo where
  name : List UInt8
  addr : Range
  deriving DecidableEq

structure ExportInfo where
  name : List UInt8
  value : UInt64
  size : UInt64
  deriving DecidableEq

structure Elf where
  sections : List SectionInfo
  exports : List ExportInfo
  entry : UInt64
  hash : Bytes 32

structure SectionTable where
  sections : List SectionInfo
  symtab : Option (UInt64 × UInt64)

structure SymbolTable where
  exports : List ExportInfo
  infoArea : Range

namespace Image

variable (img : Image)

def Has (off : UInt64) (n : ℕ) : Prop := off.toNat + n ≤ img.bytes.length

instance (off : UInt64) (n : ℕ) : Decidable (img.Has off n) := inferInstanceAs (Decidable (_ ≤ _))

def val (base : UInt64) (f : Field) : UInt64 :=
  UInt64.ofNat (leDigits ((img.bytes.drop (base + f.offset).toNat).take f.size))

def get (base : UInt64) (f : Field) : Except ElfFault UInt64 :=
  if img.Has (base + f.offset) f.size then .ok (img.val base f) else .error .outside

def slice (off len : UInt64) : List UInt8 := (img.bytes.drop off.toNat).take len.toNat

def copy (off len : UInt64) : Except ElfFault (List UInt8) :=
  if img.Has off len.toNat then .ok (img.slice off len) else .error .outside

end Image

def cstring : List UInt8 → Except ElfFault (List UInt8)
  | [] => .error .outside
  | c :: l => if c = 0 then .ok [] else (cstring l).map (c :: ·)

/-- `strcmp(name, s) == 0` reads the name up to the first difference. -/
def strcmpEq : List UInt8 → List UInt8 → Except ElfFault Bool
  | [], _ => .error .outside
  | c :: _, [] => .ok (c = 0)
  | c :: l, d :: s => if c = d then strcmpEq l s else .ok false

namespace Image

variable (img : Image)

def phdr (i : ℕ) : Except ElfFault UInt64 := do
  let phoff ← img.get 0 ePhoff
  let phentsize ← img.get 0 ePhentsize
  return phoff + UInt64.ofNat i * phentsize

def spanStep (span : UInt64 × UInt64) (i : ℕ) : Except ElfFault (UInt64 × UInt64) := do
  let ph ← img.phdr i
  let vaddr ← img.get ph pVaddr
  if vaddr = 0 then return span
  else
    let memsz ← img.get ph pMemsz
    return (if vaddr < span.1 then vaddr else span.1, if vaddr + memsz > span.2 then vaddr + memsz else span.2)

def elfSpan : Except ElfFault Range := do
  let phnum ← img.get 0 ePhnum
  let (lo, hi) ← (List.range phnum.toNat).foldlM img.spanStep (0xffffffffffffffff, 0)
  return ⟨lo, hi - lo⟩

def isElf64 : Bool :=
  decide (64 ≤ img.bytes.length) && decide (img.bytes.take 4 = [0x7f, 0x45, 0x4c, 0x46]) &&
    decide (img.bytes[4]? = some 2)

def sectionStep (shoff shstrtab : UInt64) (t : SectionTable) (i : ℕ) : Except ElfFault SectionTable := do
  let sh := shoff + UInt64.ofNat i * 64
  let nameOff ← img.get sh shName
  let name := shstrtab + nameOff
  let type ← img.get sh shType
  let sections ←
    if type ≠ shtNobits then do
      let first ← img.get name firstChar
      if first ≠ 0 then
        let addr ← img.get sh shAddr
        if addr ≠ 0 then
          let text ← cstring (img.bytes.drop name.toNat)
          let size ← img.get sh shSize
          pure (t.sections ++ [⟨text, ⟨addr, size⟩⟩])
        else pure t.sections
      else pure t.sections
    else pure t.sections
  let symtab ←
    if type = shtSymtab then do
      let link ← img.get sh shLink
      pure (some (sh, shoff + link * 64))
    else pure t.symtab
  return ⟨sections, symtab⟩

def readSections : Except ElfFault SectionTable := do
  let shoff ← img.get 0 eShoff
  let shstrndx ← img.get 0 eShstrndx
  let shstrtab ← img.get (shoff + shstrndx * 64) shOffset
  let shnum ← img.get 0 eShnum
  (List.range shnum.toNat).foldlM (img.sectionStep shoff shstrtab) ⟨[], none⟩

def symbolStep (syms strtab : UInt64) (s : SymbolTable) (i : ℕ) : Except ElfFault SymbolTable := do
  let sym := syms + UInt64.ofNat i * 24
  let nameOff ← img.get sym stName
  let name := strtab + nameOff
  let first ← img.get name firstChar
  if first = 0 then return s
  else
    let info ← img.get sym stInfo
    let other ← img.get sym stOther
    let exports ←
      if other &&& 3 = 0 ∧ info >>> 4 = 1 then do
        let text ← cstring (img.bytes.drop name.toNat)
        let value ← img.get sym stValue
        let size ← img.get sym stSize
        pure (s.exports ++ [⟨text, value, size⟩])
      else pure s.exports
    let isInfo ← strcmpEq (img.bytes.drop name.toNat) (ascii "__wbxsysinfo")
    let infoArea ←
      if isInfo then do
        let value ← img.get sym stValue
        let size ← img.get sym stSize
        pure ⟨value, size⟩
      else pure s.infoArea
    return ⟨exports, infoArea⟩

def readSymbols : Option (UInt64 × UInt64) → Except ElfFault SymbolTable
  | none => .ok ⟨[], ⟨0, 0⟩⟩
  | some (symtab, strtabSh) => do
    let size ← img.get symtab shSize
    let syms ← img.get symtab shOffset
    let strtab ← img.get strtabSh shOffset
    (List.range (size.toNat / 24)).foldlM (img.symbolStep syms strtab) ⟨[], ⟨0, 0⟩⟩

end Image

def splitInvis : List SectionInfo → Option (SectionInfo × List SectionInfo)
  | [] => none
  | s :: l => if s.name = ascii ".invis" then some (s, l) else (splitInvis l).map fun u => (u.1, s :: u.2)

def SectionInfo.overlaps (iv : Range) (s : SectionInfo) : Bool :=
  decide (s.addr.alignExpand.size ≠ 0) && decide (s.addr.alignExpand.start < iv.rangeEnd) &&
    decide (iv.start < s.addr.alignExpand.rangeEnd)

def Layout.bytes (l : Layout) : List UInt8 :=
  [l.elf, l.mainThread, l.altThread, l.sbrk, l.sealedHeap, l.invis, l.plain, l.mmapArena].flatMap
    fun r => le64 r.start ++ le64 r.size

/-- The calls on the block whose results the loader does not look at. -/
inductive SetupCall
  | markInvisible (addr : Range)
  | mmapFixed (addr : Range) (prot : Prot) (noReplace : Bool)
  | copyImage (src start len : UInt64)
  | copyLayout (start : UInt64)
  | mprotect (addr : Range) (prot : Prot)

namespace Block

def copyFromImage (img : Image) (b : Block) (src start len : UInt64) : Except ElfFault (ℤ × Block) :=
  match b.validate (Range.alignExpand ⟨start, len⟩) with
  | none => .ok (-einval, b)
  | some (ps, pcount) => do
    let pages ← crashes (forRange b.npages .outOfBounds soil ps pcount b.pages)
    let bytes ← img.copy src len
    let b ← crashes ((b.withPages pages).mirrorCopy (start - b.addr.start).toNat bytes)
    return (0, b)

end Block

def SetupCall.run (img : Image) (layout : Layout) (b : Block) : SetupCall → Except ElfFault (ℤ × Block)
  | markInvisible addr => crashes (b.markInvisible addr)
  | mmapFixed addr prot noReplace => crashes (b.mmapFixed addr prot noReplace)
  | copyImage src start len => b.copyFromImage img src start len
  | copyLayout start => crashes (b.copyFromExternal layout.bytes start)
  | mprotect addr prot => crashes (b.mprotect addr prot)

structure Loading where
  block : Block
  calls : List (SetupCall × ℤ)

namespace Loading

variable (img : Image) (layout : Layout) (s : Loading)

def call (c : SetupCall) : Except ElfFault Loading := do
  let (rc, b) ← c.run img layout s.block
  return ⟨b, s.calls ++ [(c, rc)]⟩

def hideInvis (sections : List SectionInfo) : Except ElfFault (List UInt8 ⊕ Loading) :=
  match splitInvis sections with
  | none => .ok (.inr s)
  | some (invis, others) =>
    match others.find? (SectionInfo.overlaps invis.addr.alignExpand) with
    | some other =>
      .ok (.inl (ascii "miniBox: section " ++ other.name ++ ascii " overlaps .invis - check linkscript\n"))
    | none => do
      let s ← s.call img layout (.markInvisible invis.addr.alignExpand)
      return .inr s

def segmentProt (flags : UInt64) : Prot :=
  if flags &&& 2 ≠ 0 then (if flags &&& 1 ≠ 0 then .rwx else .rw)
  else if flags &&& 1 ≠ 0 then .rx
  else if flags &&& 4 ≠ 0 then .r
  else .none

def loadSegment (i : ℕ) : Except ElfFault Loading := do
  let ph ← img.phdr i
  let type ← img.get ph pType
  if type ≠ ptLoad then return s
  else
    let vaddr ← img.get ph pVaddr
    if vaddr = 0 then return s
    else
      let memsz ← img.get ph pMemsz
      let pa := Range.alignExpand ⟨vaddr, memsz⟩
      if pa.size = 0 then return s
      else
        let flags ← img.get ph pFlags
        let s ← s.call img layout (.mmapFixed pa .rw false)
        let filesz ← img.get ph pFilesz
        let s ←
          if filesz ≠ 0 then do
            let offset ← img.get ph pOffset
            s.call img layout (.copyImage offset vaddr filesz)
          else pure s
        s.call img layout (.mprotect pa (segmentProt flags))

def fillInfo (infoArea : Range) : Except ElfFault (List UInt8 ⊕ Loading) :=
  if infoArea.start ≠ 0 then
    if infoArea.size ≠ 128 then .ok (.inl (ascii "miniBox: __wbxsysinfo wrong size\n"))
    else do
      let s ← s.call img layout (.copyLayout infoArea.start)
      return .inr s
  else .ok (.inr s)

def addStack (stack : Range) : Except ElfFault Loading := do
  let s ← s.call img layout (.mmapFixed stack .rwStack true)
  let s ← s.call img layout (.mprotect ⟨stack.start, 0x4000⟩ .none)
  s.call img layout (.markInvisible stack)

end Loading

/-- The message and the result -1, or the loaded image and the result 0. -/
def elfLoad (img : Image) (layout : Layout) (b : Block) : Except ElfFault (List UInt8 ⊕ Elf × Loading) := do
  if !img.isElf64 then return .inl (ascii "miniBox: not an ELF64 image\n")
  else
    let entry ← img.get 0 eEntry
    let table ← img.readSections
    let symbols ← img.readSymbols table.symtab
    match ← Loading.hideInvis img layout ⟨b, []⟩ table.sections with
    | .inl message => return .inl message
    | .inr s =>
      let s ← s.call img layout (.markInvisible layout.invis)
      let phnum ← img.get 0 ePhnum
      let s ← (List.range phnum.toNat).foldlM (Loading.loadSegment img layout) s
      match ← s.fillInfo img layout symbols.infoArea with
      | .inl message => return .inl message
      | .inr s =>
        let s ← s.addStack img layout layout.mainThread
        let s ← s.addStack img layout layout.altThread
        let hash := Sha256.final (Sha256.update Sha256.init img.bytes)
        return .inr (⟨table.sections, symbols.exports, entry, hash⟩, s)

def sectionRoAfterSeal (name : List UInt8) : Bool :=
  decide (ascii ".rel.ro" <:+: name) || decide (ascii ".got" <+: name) || decide (name = ascii ".init_array") ||
    decide (name = ascii ".fini_array") || decide (name = ascii ".tbss") || decide (name = ascii ".sealed")

def sealSection (b : Block) (s : SectionInfo) : Except Crash Block :=
  if s.addr.alignExpand.size ≠ 0 ∧ sectionRoAfterSeal s.name = true then do
    let (_, b) ← b.mprotect s.addr.alignExpand .r
    return b
  else return b

def elfSeal (elf : Elf) (b : Block) : Except Crash Block := elf.sections.foldlM sealSection b

/-- `mb_host_new` up to the call of `_start`. -/
def hostNew (img : Image) (tpl : LayoutTemplate) : Except ElfFault (String ⊕ Host × Elf) := do
  let span ← img.elfSpan
  match ← crashes (Host.create span (Sha256.final (Sha256.update Sha256.init img.bytes)) tpl) with
  | .inl message => return .inl message
  | .inr h =>
    match ← elfLoad img h.layout h.block with
    | .inl _ => return .inl "failed to load guest ELF"
    | .inr (elf, s) => return .inr ({ h with block := s.block }, elf)

theorem hostNew_cases {img : Image} {tpl : LayoutTemplate} {h : Host} {elf : Elf}
    (hmade : hostNew img tpl = .ok (.inr (h, elf))) :
    ∃ span h₀ s, img.elfSpan = .ok span ∧
      Host.create span (Sha256.final (Sha256.update Sha256.init img.bytes)) tpl = .ok (.inr h₀) ∧
      elfLoad img h₀.layout h₀.block = .ok (.inr (elf, s)) ∧ h = { h₀ with block := s.block } := by
  obtain ⟨span, hspan, hmade⟩ := bind_ok hmade
  obtain ⟨made, hcreate, hmade⟩ := bind_ok hmade
  cases made with
  | inl message => cases hmade
  | inr h₀ =>
    obtain ⟨loaded, hload, hmade⟩ := bind_ok hmade
    cases loaded with
    | inl message => cases hmade
    | inr r =>
      cases hmade
      exact ⟨span, h₀, r.2, hspan, crashes_ok hcreate, hload, rfl⟩

end MiniBox
