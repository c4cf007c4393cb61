import Mathlib.Data.Nat.Bitwise
import MiniBox.BlockCanvas
import MiniBox.ImageBounds

namespace MiniBox

open ByteStream Overlays

namespace Range

variable {r r' span : Range}

def firstPage (r : Range) : ℕ := r.start.toNat / 4096

def endPage (r : Range) : ℕ := (r.start.toNat + r.size.toNat + 4095) / 4096

def touches (r : Range) (a : ℕ) : Bool := decide (r.firstPage ≤ a / 4096 ∧ a / 4096 < r.endPage)

def PagesApart (r r' : Range) : Prop :=
  r'.firstPage = r'.endPage ∨ r.endPage ≤ r'.firstPage ∨ r'.endPage ≤ r.firstPage

instance (r r' : Range) : Decidable (r.PagesApart r') := inferInstanceAs (Decidable (_ ∨ _ ∨ _))

instance (r span : Range) : Decidable (r.In span) :=
  decidable_of_iff (span.start.toNat ≤ r.start.toNat ∧
    r.start.toNat + r.size.toNat ≤ span.start.toNat + span.size.toNat) ⟨fun h => ⟨h.1, h.2⟩, fun h => ⟨h.1, h.2⟩⟩

theorem covers_alignExpand (h : r.endPage * 4096 < 2 ^ 64) (a : ℕ) : r.alignExpand.covers a = r.touches a := by
  obtain ⟨hs, he⟩ := Block.toNat_alignExpand h
  unfold touches firstPage endPage
  rw [Bool.eq_iff_iff, covers_iff, decide_eq_true_iff, he, hs]
  omega

theorem In.trans (h : r.In r') (h' : r'.In span) : r.In span :=
  ⟨h'.start_le.trans h.start_le, h.end_le.trans h'.end_le⟩

theorem In.within (h : r.In span) (hstart : r.start.toNat % 4096 = 0) (hsize : r.size.toNat % 4096 = 0)
    (hne : r.size ≠ 0) : r.Within span :=
  ⟨Nat.pos_iff_ne_zero.mpr fun h0 => hne (UInt64.toNat_inj.mp h0), hstart, hsize, h.start_le, h.end_le⟩

theorem In.endPage_lt (h : r.In span) (hstart : span.start.toNat % 4096 = 0) (hsize : span.size.toNat % 4096 = 0)
    (hn : span.NoWrap) : r.endPage * 4096 < 2 ^ 64 := by
  obtain ⟨h1, h2⟩ := h
  unfold NoWrap at hn
  unfold endPage
  omega

theorem In.alignExpand (h : r.In span) (hstart : span.start.toNat % 4096 = 0) (hsize : span.size.toNat % 4096 = 0)
    (hn : span.NoWrap) : r.alignExpand.In span := by
  obtain ⟨hs, he⟩ := Block.toNat_alignExpand (h.endPage_lt hstart hsize hn)
  obtain ⟨h1, h2⟩ := h
  exact ⟨by omega, by omega⟩

theorem In.covers (h : r.In span) {a : ℕ} (ha : r.covers a = true) : span.covers a = true := by
  rw [covers_iff] at ha ⊢
  exact ⟨h.start_le.trans ha.1, ha.2.trans_le h.end_le⟩

end Range

theorem overlaps_iff {r : Range} {s : SectionInfo} (hr : r.endPage * 4096 < 2 ^ 64)
    (hs : s.addr.endPage * 4096 < 2 ^ 64) :
    SectionInfo.overlaps r.alignExpand s = true ↔ ¬ r.PagesApart s.addr := by
  obtain ⟨hr1, hr2⟩ := Block.toNat_alignExpand hr
  obtain ⟨hs1, hs2⟩ := Block.toNat_alignExpand hs
  have hrend := toNat_rangeEnd r.alignExpand (by unfold Range.NoWrap; rw [hr2]; exact hr)
  have hsend := toNat_rangeEnd s.addr.alignExpand (by unfold Range.NoWrap; rw [hs2]; exact hs)
  have hempty : s.addr.alignExpand.size = 0 ↔ s.addr.alignExpand.size.toNat = 0 :=
    ⟨fun h => by rw [h]; rfl, fun h => UInt64.toNat_inj.mp h⟩
  simp only [SectionInfo.overlaps, Bool.and_eq_true, decide_eq_true_eq, ne_eq, hempty, UInt64.lt_iff_toNat_lt, hrend,
    hsend, hr1, hs1, Range.PagesApart, Range.firstPage, Range.endPage]
  omega

def accessStatus (flags : UInt64) : UInt8 :=
  match flags.toNat.testBit 1, flags.toNat.testBit 0, flags.toNat.testBit 2 with
  | true, true, _ => 0x07
  | true, false, _ => 0x03
  | false, true, _ => 0x05
  | false, false, true => 0x01
  | false, false, false => 0x20

theorem and_bit (x m : UInt64) (i : ℕ) (hm : m.toNat = 2 ^ i) : x &&& m ≠ 0 ↔ x.toNat.testBit i = true := by
  have hne : x &&& m ≠ 0 ↔ x.toNat &&& 2 ^ i ≠ 0 := by
    rw [← hm, ← UInt64.toNat_and, ne_eq, ne_eq, ← UInt64.toNat_inj, UInt64.toNat_zero]
  rw [hne, Nat.and_two_pow]
  cases x.toNat.testBit i with
  | false => simp
  | true => simp

theorem protStatus_segmentProt (flags : UInt64) : protStatus (Loading.segmentProt flags) = accessStatus flags := by
  unfold Loading.segmentProt accessStatus
  simp only [and_bit flags 2 1 rfl, and_bit flags 1 0 rfl, and_bit flags 4 2 rfl]
  cases flags.toNat.testBit 1 <;> cases flags.toNat.testBit 0 <;> cases flags.toNat.testBit 2 <;> rfl

def SectionInfo.isInvis (s : SectionInfo) : Bool := decide (s.name = ascii ".invis")

theorem splitInvis_eq (l : List SectionInfo) :
    splitInvis l = (l.find? SectionInfo.isInvis).map fun s => (s, l.eraseP SectionInfo.isInvis) := by
  induction l with
  | nil => rfl
  | cons s l ih =>
    unfold splitInvis
    by_cases hs : s.name = ascii ".invis"
    · have hinvis : s.isInvis = true := decide_eq_true hs
      rw [if_pos hs, List.find?_cons_of_pos hinvis, List.eraseP_cons_of_pos hinvis]
      rfl
    · have hinvis : ¬ s.isInvis = true := by
        unfold SectionInfo.isInvis
        rw [decide_eq_true_iff]
        exact hs
      rw [if_neg hs, List.find?_cons_of_neg hinvis, List.eraseP_cons_of_neg hinvis, ih, Option.map_map]
      rfl

def Layout.words (l : Layout) : List UInt64 :=
  [l.elf.start, l.elf.size, l.mainThread.start, l.mainThread.size, l.altThread.start, l.altThread.size,
    l.sbrk.start, l.sbrk.size, l.sealedHeap.start, l.sealedHeap.size, l.invis.start, l.invis.size,
    l.plain.start, l.plain.size, l.mmapArena.start, l.mmapArena.size]

theorem bytes_eq_flatMap (l : Layout) : l.bytes = l.words.flatMap le64 := by
  simp only [Layout.bytes, Layout.words, List.flatMap_cons, List.flatMap_nil, List.append_assoc]

theorem getElem?_flatMap_le64 (l : List UInt64) (k : ℕ) :
    (l.flatMap le64)[k]? = l[k / 8]?.map fun w => UInt8.ofNat (w.toNat / 256 ^ (k % 8)) := by
  induction l generalizing k with
  | nil => rfl
  | cons w l ih =>
    rw [List.flatMap_cons]
    by_cases hk : k < 8
    · rw [List.getElem?_append_left (by rw [length_le64]; exact hk), Nat.div_eq_of_lt hk, Nat.mod_eq_of_lt hk, le64,
        List.getElem?_ofFn, dif_pos hk]
      rfl
    · obtain ⟨j, rfl⟩ := Nat.exists_eq_add_of_le (Nat.le_of_not_lt hk)
      rw [List.getElem?_append_right (by rw [length_le64]; omega), length_le64, Nat.add_sub_cancel_left, ih,
        show (8 + j) / 8 = j / 8 + 1 by omega, show (8 + j) % 8 = j % 8 by omega, List.getElem?_cons_succ]

namespace Image

variable (img : Image)

section Segments

def Loads (i : ℕ) : Prop := img.val (img.ph i) pType = ptLoad ∧ img.val (img.ph i) pVaddr ≠ 0

instance (i : ℕ) : Decidable (img.Loads i) := inferInstanceAs (Decidable (_ ∧ _))

def segmentRange (i : ℕ) : Range := ⟨img.val (img.ph i) pVaddr, img.val (img.ph i) pMemsz⟩

structure SegmentSane (i : ℕ) : Prop where
  file_le : (img.val (img.ph i) pFilesz).toNat ≤ (img.val (img.ph i) pMemsz).toNat
  in_file : img.Has (img.val (img.ph i) pOffset) (img.val (img.ph i) pFilesz).toNat
  no_wrap : (img.segmentRange i).NoWrap

instance (i : ℕ) : Decidable (img.SegmentSane i) :=
  decidable_of_iff ((img.val (img.ph i) pFilesz).toNat ≤ (img.val (img.ph i) pMemsz).toNat ∧
    img.Has (img.val (img.ph i) pOffset) (img.val (img.ph i) pFilesz).toNat ∧ (img.segmentRange i).NoWrap)
    ⟨fun h => ⟨h.1, h.2.1, h.2.2⟩, fun h => ⟨h.1, h.2, h.3⟩⟩

def segmentByte (i : ℕ) (a : ℕ) : Option UInt8 :=
  if img.Loads i then
    written (img.val (img.ph i) pVaddr).toNat (img.slice (img.val (img.ph i) pOffset) (img.val (img.ph i) pFilesz)) a
  else none

def segmentStatus (i : ℕ) (a : ℕ) : Option UInt8 :=
  if img.Loads i ∧ (img.segmentRange i).touches a = true then some (accessStatus (img.val (img.ph i) pFlags)) else none

variable {img} {i : ℕ}

theorem segmentByte_skip (h : ¬ img.Loads i) (a : ℕ) : img.segmentByte i a = none := if_neg h

theorem segmentStatus_skip (h : ¬ img.Loads i) (a : ℕ) : img.segmentStatus i a = none := if_neg fun hl => h hl.1

theorem segmentByte_empty (h : img.val (img.ph i) pFilesz = 0) (a : ℕ) : img.segmentByte i a = none := by
  unfold segmentByte written slice
  rw [h]
  split_ifs <;> rfl

theorem segmentStatus_eq (hloads : img.Loads i) (hend : (img.segmentRange i).endPage * 4096 < 2 ^ 64) :
    img.segmentStatus i =
      (img.segmentPages i).only (protStatus (Loading.segmentProt (img.val (img.ph i) pFlags))) := by
  funext a
  unfold segmentStatus Range.only
  rw [protStatus_segmentProt, show (img.segmentPages i).covers a = _ from Range.covers_alignExpand hend a]
  by_cases ha : (img.segmentRange i).touches a = true
  · rw [if_pos ⟨hloads, ha⟩, if_pos ha]
  · rw [if_neg fun h => ha h.2, if_neg ha]

end Segments

section Loaded

def headers : List ℕ := List.range (img.val 0 ePhnum).toNat

def infoArea : Range := (img.symbolTable img.sectionTable.symtab).infoArea

def infoByte (layout : Layout) (a : ℕ) : Option UInt8 :=
  if img.infoArea.start ≠ 0 ∧ img.infoArea.start.toNat ≤ a then
    let k := a - img.infoArea.start.toNat
    layout.words[k / 8]?.map fun w => UInt8.ofNat (w.toNat / 256 ^ (k % 8))
  else none

def invisSection : Option SectionInfo := img.sectionTable.sections.find? SectionInfo.isInvis

def besideInvis : List SectionInfo := img.sectionTable.sections.eraseP SectionInfo.isInvis

def hiddenSection (a : ℕ) : Bool := img.invisSection.any fun s => s.addr.touches a

def stackStatus (stack : Range) (a : ℕ) : Option UInt8 :=
  if stack.start.toNat ≤ a ∧ a < stack.start.toNat + 0x4000 then some 0x20
  else if stack.covers a then some 0x13
  else none

def loaded (layout : Layout) : Canvas where
  status := paint (stackStatus layout.altThread)
    (paint (stackStatus layout.mainThread) (latest img.segmentStatus img.headers fun _ => 0))
  hidden a := layout.altThread.covers a || layout.mainThread.covers a || layout.invis.covers a || img.hiddenSection a
  byte := paint (img.infoByte layout) (latest img.segmentByte img.headers fun _ => 0)

def HeadersInside : Prop :=
  ∀ i ∈ img.headers, (∀ f ∈ [pType, pVaddr, pMemsz, pFlags, pFilesz, pOffset], img.Sees (img.ph i) f) ∧
    img.Has (img.val (img.ph i) pOffset) (img.val (img.ph i) pFilesz).toNat

instance : Decidable img.HeadersInside := inferInstanceAs (Decidable (∀ i ∈ _, _))

structure WellFormed : Prop where
  nonempty : img.span.alignExpand.size ≠ 0
  segments : ∀ i ∈ img.headers, img.Loads i → img.SegmentSane i
  info : img.infoArea.start ≠ 0 → img.infoArea.size = 128 →
    ∃ i ∈ img.headers, img.Loads i ∧ img.infoArea.In (img.segmentRange i)
  sections : ∀ s ∈ img.sectionTable.sections, s.addr.endPage * 4096 < 2 ^ 64
  invis : ∀ s ∈ img.invisSection, ∃ i ∈ img.headers, img.Loads i ∧ s.addr.In (img.segmentRange i)

structure Accepted (b : Block) (layout : Layout) : Prop where
  isElf : img.isElf64 = true
  inside : img.LoadInside b layout
  apart : ∀ s ∈ img.invisSection, ∀ s' ∈ img.besideInvis, s.addr.PagesApart s'.addr
  info : img.infoArea.start ≠ 0 → img.infoArea.size = 128

variable {img} {layout : Layout}

theorem loadInside_of (hsections : img.SectionsInside) (hsymbols : img.SymbolsInside img.sectionTable.symtab)
    (hheaders : img.HeadersInside) (b : Block) (layout : Layout) : img.LoadInside b layout := by
  refine ⟨hsections, hsymbols, ?_⟩
  intro _ _ i hi _
  obtain ⟨hsees, hhas⟩ := hheaders i (List.mem_range.mpr hi)
  simp only [List.forall_mem_cons] at hsees
  obtain ⟨htype, hvaddr, hmemsz, hflags, hfilesz, hoffset, -⟩ := hsees
  exact ⟨htype, fun _ => ⟨hvaddr, fun _ => ⟨hmemsz, fun _ => ⟨hflags, fun _ => ⟨hfilesz, fun _ => ⟨hoffset,
    fun _ _ _ _ => hhas⟩⟩⟩⟩⟩⟩

theorem infoByte_eq (hstart : img.infoArea.start ≠ 0) :
    img.infoByte layout = written img.infoArea.start.toNat layout.bytes := by
  funext a
  unfold infoByte written
  by_cases ha : img.infoArea.start.toNat ≤ a
  · rw [if_pos ⟨hstart, ha⟩, if_pos ha, bytes_eq_flatMap, getElem?_flatMap_le64]
  · rw [if_neg fun h => ha h.2, if_neg ha]

theorem stackStatus_eq (stack : Range) (g : ℕ → UInt8) :
    paint (stackStatus stack) g = paint (Range.only ⟨stack.start, 0x4000⟩ (protStatus .none))
      (paint (stack.only (protStatus .rwStack)) g) := by
  funext a
  have hguard : Range.covers ⟨stack.start, 0x4000⟩ a = true ↔
      stack.start.toNat ≤ a ∧ a < stack.start.toNat + 0x4000 := Range.covers_iff
  unfold paint stackStatus
  by_cases ha : stack.start.toNat ≤ a ∧ a < stack.start.toNat + 0x4000
  · rw [if_pos ha, Range.only_some (hguard.mpr ha)]
    rfl
  · rw [if_neg ha, Range.only_none (mt hguard.mp ha)]
    rfl

theorem stackStatus_covers {stack : Range} {a : ℕ} (hsize : 0x4000 ≤ stack.size.toNat) (h : (stackStatus stack a).isSome) :
    stack.covers a = true := by
  unfold stackStatus at h
  split_ifs at h with hguard hcovers
  · rw [Range.covers_iff]
    omega
  · exact hcovers
  · cases h

theorem splitInvis_none (h : img.invisSection = none) : splitInvis img.sectionTable.sections = none := by
  rw [splitInvis_eq, show img.sectionTable.sections.find? _ = none from h]
  rfl

theorem splitInvis_some {s : SectionInfo} (h : img.invisSection = some s) :
    splitInvis img.sectionTable.sections = some (s, img.besideInvis) := by
  rw [splitInvis_eq, show img.sectionTable.sections.find? _ = some s from h]
  rfl

theorem apart_iff (hwf : img.WellFormed) {s : SectionInfo} (hs : img.invisSection = some s) :
    img.besideInvis.find? (SectionInfo.overlaps s.addr.alignExpand) = none ↔
      ∀ s' ∈ img.besideInvis, s.addr.PagesApart s'.addr := by
  have hend := hwf.sections s (List.mem_of_find?_eq_some hs)
  rw [List.find?_eq_none]
  apply forall₂_congr
  intro s' hs'
  rw [overlaps_iff hend (hwf.sections s' (List.mem_of_mem_eraseP hs')), not_not]

end Loaded

end Image

end MiniBox
