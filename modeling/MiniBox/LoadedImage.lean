import MiniBox.BaselineInvariant
import MiniBox.ImageCanvas

namespace MiniBox

open ByteStream CheckedReads IndexLoops Outcomes Overlays

def SetupCall.size : SetupCall → UInt64
  | markInvisible addr => addr.size
  | mmapFixed addr _ _ => addr.size
  | copyImage _ _ len => len
  | copyLayout _ => 128
  | mprotect addr _ => addr.size

theorem length_bytes (l : Layout) : l.bytes.length = 128 := by
  simp only [Layout.bytes, List.flatMap_cons, List.flatMap_nil, List.length_append, length_le64, List.length_nil]

theorem copyFromImage_slice {b : Block} {img : Image} {src start len : UInt64} (h : img.Has src len.toNat) :
    b.copyFromImage img src start len = crashes (b.copyFromExternal (img.slice src len) start) := by
  unfold Block.copyFromImage Block.copyFromExternal
  rw [length_slice img src len h, UInt64.ofNat_toNat]
  cases hv : b.validate (Range.alignExpand ⟨start, len⟩) with
  | none => rfl
  | some q =>
    dsimp only
    cases hp : forRange b.npages Crash.outOfBounds Block.soil q.1 q.2 b.pages with
    | error e => rfl
    | ok pages =>
      have hcopy : img.copy src len = .ok (img.slice src len) := if_pos h
      simp only [crashes, ok_bind, hcopy]
      cases (b.withPages pages).mirrorCopy (start - b.addr.start).toNat (img.slice src len) with
      | error e => rfl
      | ok b' => rfl

namespace Loading

variable {img : Image} {layout : Layout} {b : Block} {c c' : Canvas} {s : Loading} {r : Range}

structure Paints (b : Block) (c : Canvas) (s : Loading) : Prop where
  frame : b.SameFrame s.block
  shows : s.block.Shows c
  codes : ∀ u ∈ s.calls, u.1.size ≠ 0 → u.2 = 0

theorem Paints.andCall {call : SetupCall} (hs : s.Paints b c)
    (h : ∃ rc b', call.run img layout s.block = .ok (rc, b') ∧ (call.size ≠ 0 → rc = 0) ∧ s.block.SameFrame b' ∧
      b'.Shows c') :
    ∃ t, s.call img layout call = .ok t ∧ t.Paints b c' := by
  obtain ⟨rc, b', hrun, hrc, hframe, hshows⟩ := h
  refine ⟨⟨b', s.calls ++ [(call, rc)]⟩, ?_, hs.frame.trans hframe, hshows, ?_⟩
  · unfold Loading.call
    rw [hrun]
    rfl
  · intro u hu
    rcases List.mem_append.mp hu with hu | hu
    · exact hs.codes u hu
    · rw [List.mem_singleton.mp hu]
      exact hrc

theorem Paints.within (hs : s.Paints b c) (hw : r.Within b.addr) : r.Within s.block.addr := by
  rw [hs.frame.addr]
  exact hw

section Calls

variable (img layout) (hn : b.addr.NoWrap)

include hn

theorem Paints.noWrap (hs : s.Paints b c) : s.block.addr.NoWrap := by
  rw [hs.frame.addr]
  exact hn

theorem Paints.map (hs : s.Paints b c) (hw : r.Within b.addr) (prot : Prot) (noReplace : Bool)
    (hfree : noReplace = true → ∀ a, r.covers a = true → c.status a = stFree) :
    ∃ t, s.call img layout (.mmapFixed r prot noReplace) = .ok t ∧
      t.Paints b { c with status := paint (r.only (protStatus prot)) c.status } := by
  obtain ⟨b', hrun, hframe, hshows⟩ :=
    Block.mmapFixed_shows hs.shows (hs.noWrap hn) (hs.within hw) prot noReplace hfree
  apply hs.andCall
  exact ⟨0, b', congrArg crashes hrun, fun _ => rfl, hframe, hshows⟩

theorem Paints.protect (hs : s.Paints b c) (hw : r.Within b.addr) (prot : Prot)
    (htaken : ∀ a, r.covers a = true → c.status a ≠ stFree) :
    ∃ t, s.call img layout (.mprotect r prot) = .ok t ∧
      t.Paints b { c with status := paint (r.only (protStatus prot)) c.status } := by
  obtain ⟨b', hrun, hframe, hshows⟩ :=
    Block.mprotect_shows hs.shows (hs.noWrap hn) (hs.within hw) prot htaken
  apply hs.andCall
  exact ⟨0, b', congrArg crashes hrun, fun _ => rfl, hframe, hshows⟩

theorem Paints.hide (hs : s.Paints b c) (hu : b.sealed = false) (hw : r.size ≠ 0 → r.Within b.addr) :
    ∃ t, s.call img layout (.markInvisible r) = .ok t ∧
      t.Paints b { c with hidden := fun a => r.covers a || c.hidden a } := by
  obtain ⟨rc, b', hrun, hrc, hframe, hshows⟩ := Block.markInvisible_shows hs.shows (hs.noWrap hn)
    (hs.frame.sealed.trans hu) fun hne => hs.within (hw hne)
  apply hs.andCall
  exact ⟨rc, b', congrArg crashes hrun, hrc, hframe, hshows⟩

theorem Paints.copySegment {src start len : UInt64} (hs : s.Paints b c) (hne : len ≠ 0) (hhas : img.Has src len.toNat)
    (h : Range.In ⟨start, len⟩ b.addr) :
    ∃ t, s.call img layout (.copyImage src start len) = .ok t ∧
      t.Paints b { c with byte := paint (written start.toNat (img.slice src len)) c.byte } := by
  have hlen := length_slice img src len hhas
  have hnil : img.slice src len ≠ [] := by
    intro h0
    rw [h0] at hlen
    exact hne (UInt64.toNat_inj.mp hlen.symm)
  rw [← hs.frame.addr] at h
  obtain ⟨b', hrun, hframe, hshows⟩ := Block.copyFromExternal_shows hs.shows (hs.noWrap hn) hnil h.start_le
    (by rw [hlen]; exact h.end_le)
  apply hs.andCall
  exact ⟨0, b', (copyFromImage_slice hhas).trans (congrArg crashes hrun), fun _ => rfl, hframe, hshows⟩

theorem Paints.copyInfo {start : UInt64} (hs : s.Paints b c) (h : Range.In ⟨start, 128⟩ b.addr) :
    ∃ t, s.call img layout (.copyLayout start) = .ok t ∧
      t.Paints b { c with byte := paint (written start.toNat layout.bytes) c.byte } := by
  have hlen := length_bytes layout
  have hnil : layout.bytes ≠ [] := by
    intro h0
    rw [h0] at hlen
    cases hlen
  rw [← hs.frame.addr] at h
  obtain ⟨b', hrun, hframe, hshows⟩ := Block.copyFromExternal_shows hs.shows (hs.noWrap hn) hnil h.start_le
    (by rw [hlen]; exact h.end_le)
  apply hs.andCall
  exact ⟨0, b', congrArg crashes hrun, fun _ => rfl, hframe, hshows⟩

end Calls

end Loading

namespace Image

variable (img : Image)

section Segments

variable {img} {b : Block} {layout : Layout} {c : Canvas} {s : Loading} {i : ℕ}

theorem segment_empty (hsane : img.SegmentSane i) (hn : b.addr.NoWrap) (hin : (img.segmentRange i).In b.addr)
    (h : (img.segmentPages i).size = 0) : img.val (img.ph i) pFilesz = 0 := by
  have hend : b.addr.start.toNat + b.addr.size.toNat < 2 ^ 64 := hn
  have hstart := (eq_alignDown_iff _).mp b.span.start_aligned
  have hsize := (eq_alignDown_iff _).mp b.span.size_aligned
  have hle := hin.end_le
  obtain ⟨hs, he⟩ := Block.toNat_alignExpand (r := img.segmentRange i) (by omega)
  have hz : (img.segmentRange i).alignExpand.size.toNat = 0 := congrArg UInt64.toNat h
  have hmem : (img.segmentRange i).size.toNat = 0 := by omega
  have hfile := hsane.file_le
  apply UInt64.toNat_inj.mp
  change (img.val (img.ph i) pMemsz).toNat = 0 at hmem
  rw [hmem] at hfile
  exact Nat.le_zero.mp hfile

theorem segmentStatus_in (hloads : img.Loads i) (hn : b.addr.NoWrap) (hin : (img.segmentRange i).In b.addr) :
    img.segmentStatus i =
      (img.segmentPages i).only (protStatus (Loading.segmentProt (img.val (img.ph i) pFlags))) := by
  have hstart := (eq_alignDown_iff _).mp b.span.start_aligned
  have hsize := (eq_alignDown_iff _).mp b.span.size_aligned
  exact segmentStatus_eq hloads (hin.endPage_lt hstart hsize hn)

-- the pages are writable for the copy, and get their own protection behind it
variable (layout) in
theorem protectSegment_paints (hloads : img.Loads i) (hn : b.addr.NoWrap) (hin : (img.segmentRange i).In b.addr)
    (hw : (img.segmentPages i).Within b.addr) {byte : ℕ → UInt8}
    (hs : s.Paints b ⟨paint ((img.segmentPages i).only (protStatus .rw)) c.status, c.hidden, byte⟩) :
    ∃ t, s.call img layout (.mprotect (img.segmentPages i) (Loading.segmentProt (img.val (img.ph i) pFlags))) = .ok t ∧
      t.Paints b ⟨paint (img.segmentStatus i) c.status, c.hidden, byte⟩ := by
  have hmapped : ∀ a, (img.segmentPages i).covers a = true →
      paint ((img.segmentPages i).only (protStatus .rw)) c.status a ≠ stFree := by
    intro a ha
    rw [paint, Range.only_some ha]
    exact (by decide : protStatus .rw ≠ stFree)
  obtain ⟨t, hrun, ht⟩ := hs.protect img layout hn hw (Loading.segmentProt (img.val (img.ph i) pFlags)) hmapped
  refine ⟨t, hrun, ?_⟩
  rw [segmentStatus_in hloads hn hin, ← Range.paint_only_same _ _ (protStatus .rw)]
  exact ht

variable (layout) in
theorem loadSegment_paints (hs : s.Paints b c) (hn : b.addr.NoWrap) (hphnum : img.Sees 0 ePhnum)
    (hinside : img.SegmentInside b i) (hsane : img.Loads i → img.SegmentSane i)
    (hin : img.Loads i → (img.segmentRange i).In b.addr) :
    ∃ t, s.loadSegment img layout i = .ok t ∧
      t.Paints b { c with status := paint (img.segmentStatus i) c.status, byte := paint (img.segmentByte i) c.byte } := by
  have hskip : (∀ a, img.segmentStatus i a = none) → (∀ a, img.segmentByte i a = none) → s.Paints b
      { c with status := paint (img.segmentStatus i) c.status, byte := paint (img.segmentByte i) c.byte } := by
    intro hst hby
    rw [paint_none hst, paint_none hby]
    exact hs
  obtain ⟨htype, hinside⟩ := hinside
  unfold Loading.loadSegment
  rw [(img.reads_phdr hphnum i).inside trivial, ok_bind, (img.reads_get _ pType).inside htype, ok_bind]
  by_cases hload : img.val (img.ph i) pType = ptLoad
  case neg =>
    rw [if_pos hload]
    have hno : ¬ img.Loads i := fun h => hload h.1
    exact ⟨s, rfl, hskip (segmentStatus_skip hno) (segmentByte_skip hno)⟩
  obtain ⟨hvaddr, hinside⟩ := hinside hload
  rw [if_neg (not_not.mpr hload), (img.reads_get _ pVaddr).inside hvaddr, ok_bind]
  by_cases hzero : img.val (img.ph i) pVaddr = 0
  · rw [if_pos hzero]
    have hno : ¬ img.Loads i := fun h => h.2 hzero
    exact ⟨s, rfl, hskip (segmentStatus_skip hno) (segmentByte_skip hno)⟩
  have hloads : img.Loads i := ⟨hload, hzero⟩
  have hsane := hsane hloads
  have hin := hin hloads
  have hstart := (eq_alignDown_iff _).mp b.span.start_aligned
  have hsize := (eq_alignDown_iff _).mp b.span.size_aligned
  obtain ⟨hmemsz, hinside⟩ := hinside hzero
  rw [if_neg hzero, (img.reads_get _ pMemsz).inside hmemsz, ok_bind]
  change ∃ t, (if (img.segmentPages i).size = 0 then _ else _) = _ ∧ _
  by_cases hempty : (img.segmentPages i).size = 0
  · rw [if_pos hempty]
    refine ⟨s, rfl, hskip ?_ (segmentByte_empty (segment_empty hsane hn hin hempty))⟩
    intro a
    rw [segmentStatus_in hloads hn hin]
    exact Range.only_none (by rw [Range.covers_empty hempty]; exact Bool.false_ne_true)
  obtain ⟨hflags, hinside⟩ := hinside hempty
  have hw : (img.segmentPages i).Within b.addr := Block.alignExpand_within hstart hsize hn hin hempty
  obtain ⟨hfilesz, hinside⟩ := hinside (Block.bounded_of_within hn hw)
  rw [if_neg hempty, (img.reads_get _ pFlags).inside hflags, ok_bind]
  obtain ⟨s₁, hrun₁, hs₁⟩ := hs.map img layout hn hw .rw false (fun h => nomatch h)
  change ∃ t, ((s.call img layout (.mmapFixed (img.segmentPages i) .rw false)) >>= _) = _ ∧ _
  rw [hrun₁, ok_bind, (img.reads_get _ pFilesz).inside hfilesz, ok_bind]
  by_cases hfile : img.val (img.ph i) pFilesz = 0
  · rw [if_neg (not_not.mpr hfile)]
    rw [paint_none (segmentByte_empty hfile)]
    exact protectSegment_paints layout hloads hn hin hw hs₁
  · obtain ⟨hoffset, -⟩ := hinside hfile
    rw [if_pos hfile, (img.reads_get _ pOffset).inside hoffset, ok_bind]
    have hcopy : Range.In ⟨img.val (img.ph i) pVaddr, img.val (img.ph i) pFilesz⟩ b.addr :=
      ⟨hin.start_le, le_trans (Nat.add_le_add_left hsane.file_le _) hin.end_le⟩
    obtain ⟨s₂, hrun₂, hs₂⟩ := hs₁.copySegment img layout hn hfile hsane.in_file hcopy
    have hbyte : img.segmentByte i = written (img.val (img.ph i) pVaddr).toNat
        (img.slice (img.val (img.ph i) pOffset) (img.val (img.ph i) pFilesz)) := by
      funext a
      exact if_pos hloads
    rw [hrun₂, ok_bind, hbyte]
    exact protectSegment_paints layout hloads hn hin hw hs₂

end Segments

section Headers

def segmentsOver (l : List ℕ) (c : Canvas) : Canvas :=
  { c with status := latest img.segmentStatus l c.status, byte := latest img.segmentByte l c.byte }

variable {img} {b : Block} {layout : Layout} {c : Canvas} {s : Loading}

variable (layout) in
theorem segments_paint (hs : s.Paints b c) (hn : b.addr.NoWrap) (hphnum : img.Sees 0 ePhnum) {l : List ℕ}
    (hinside : ∀ i ∈ l, img.SegmentInside b i) (hsane : ∀ i ∈ l, img.Loads i → img.SegmentSane i)
    (hin : ∀ i ∈ l, img.Loads i → (img.segmentRange i).In b.addr) :
    ∃ t, l.foldlM (Loading.loadSegment img layout) s = .ok t ∧ t.Paints b (img.segmentsOver l c) := by
  refine foldlM_done (fun done (t : Loading) => t.Paints b (img.segmentsOver done c)) ?_ hs
  intro done t i hi ht
  obtain ⟨u, hrun, hu⟩ := loadSegment_paints layout ht hn hphnum (hinside i hi) (hsane i hi) (hin i hi)
  refine ⟨u, hrun, ?_⟩
  unfold segmentsOver
  rw [latest_concat, latest_concat]
  exact hu

end Headers

end Image

namespace Layout

variable {l : Layout} {tpl : LayoutTemplate} {r : Range}

theorem Sound.region_in (h : l.Sound tpl) (hr : r ∈ l.regions) (hne : r.size ≠ 0) : r.In l.all := by
  have hpos : 0 < r.size.toNat := Nat.pos_iff_ne_zero.mpr fun h0 => hne (UInt64.toNat_inj.mp h0)
  have hmem : ∀ a ∈ r.cells, a ∈ l.all.cells := by
    intro a ha
    rw [← h.union]
    exact Set.mem_iUnion₂.mpr ⟨r, hr, ha⟩
  have hfirst := Range.mem_cells.mp (hmem r.start.toNat (Range.mem_cells.mpr (by omega)))
  have hlast := Range.mem_cells.mp (hmem (r.start.toNat + r.size.toNat - 1) (Range.mem_cells.mpr (by omega)))
  exact ⟨hfirst.1, by omega⟩

theorem Sound.region_within (h : l.Sound tpl) (hr : r ∈ l.regions) (hne : r.size ≠ 0) : r.Within l.all :=
  (h.region_in hr hne).within (h.aligned r hr).1 (h.aligned r hr).2 hne

end Layout

namespace Image

variable (img : Image)

section Span

theorem span_fold (l : List ℕ) (u : UInt64 × UInt64) :
    (l.foldl img.spanNext u).1 ≤ u.1 ∧ u.2 ≤ (l.foldl img.spanNext u).2 ∧
      ∀ i ∈ l, img.val (img.ph i) pVaddr ≠ 0 → (l.foldl img.spanNext u).1 ≤ img.val (img.ph i) pVaddr ∧
        img.val (img.ph i) pVaddr + img.val (img.ph i) pMemsz ≤ (l.foldl img.spanNext u).2 := by
  induction l generalizing u with
  | nil => exact ⟨UInt64.le_refl _, UInt64.le_refl _, fun i hi => absurd hi List.not_mem_nil⟩
  | cons j l ih =>
    rw [List.foldl_cons]
    obtain ⟨hlo, hhi, hall⟩ := ih (img.spanNext u j)
    have hnext : (img.spanNext u j).1 ≤ u.1 ∧ u.2 ≤ (img.spanNext u j).2 ∧ (img.val (img.ph j) pVaddr ≠ 0 →
        (img.spanNext u j).1 ≤ img.val (img.ph j) pVaddr ∧
          img.val (img.ph j) pVaddr + img.val (img.ph j) pMemsz ≤ (img.spanNext u j).2) := by
      unfold spanNext
      dsimp only
      split_ifs <;> grind
    refine ⟨UInt64.le_trans hlo hnext.1, UInt64.le_trans hnext.2.1 hhi, ?_⟩
    intro i hi hne
    rcases List.mem_cons.mp hi with rfl | hi
    · exact ⟨UInt64.le_trans hlo (hnext.2.2 hne).1, UInt64.le_trans (hnext.2.2 hne).2 hhi⟩
    · exact hall i hi hne

theorem segment_in_elf {tpl : LayoutTemplate} {i : ℕ} (hfits : Layout.Fits img.span.alignExpand tpl)
    (hne : img.span.alignExpand.size ≠ 0) (hi : i < (img.val 0 ePhnum).toNat) (hloads : img.Loads i)
    (hn : (img.segmentRange i).NoWrap) : (img.segmentRange i).In img.span.alignExpand := by
  obtain ⟨-, -, hall⟩ := img.span_fold (List.range (img.val 0 ePhnum).toNat) (0xffffffffffffffff, 0)
  obtain ⟨hlo, hhi⟩ := hall i (List.mem_range.mpr hi) hloads.2
  unfold span at hfits hne ⊢
  generalize (List.range (img.val 0 ePhnum).toNat).foldl img.spanNext (0xffffffffffffffff, 0) = u at hlo hhi hfits hne ⊢
  obtain ⟨lo, hi⟩ := u
  dsimp only at hlo hhi hfits hne ⊢
  have hlo := UInt64.le_iff_toNat_le.mp hlo
  have hhi := UInt64.le_iff_toNat_le.mp hhi
  rw [show (img.val (img.ph i) pVaddr + img.val (img.ph i) pMemsz).toNat = _ from toNat_rangeEnd (img.segmentRange i) hn]
    at hhi
  have hend : Range.rangeEnd ⟨lo, hi - lo⟩ = hi := by
    unfold Range.rangeEnd
    rw [UInt64.add_comm, UInt64.sub_add_cancel]
  have hstart : (Range.alignExpand ⟨lo, hi - lo⟩).start.toNat = lo.toNat - lo.toNat % 4096 := toNat_alignDown lo
  have hup : (alignUp hi).toNat = (hi.toNat + 4095) / 4096 * 4096 % 2 ^ 64 := toNat_alignUp hi
  have hsize : (Range.alignExpand ⟨lo, hi - lo⟩).size.toNat =
      (2 ^ 64 - (lo.toNat - lo.toNat % 4096) + (alignUp hi).toNat) % 2 ^ 64 := by
    rw [← hstart]
    nth_rewrite 3 [← hend]
    exact UInt64.toNat_sub _ _
  have hpos : (Range.alignExpand ⟨lo, hi - lo⟩).size.toNat ≠ 0 := fun h0 => hne (UInt64.toNat_inj.mp h0)
  have hle : (img.segmentRange i).start.toNat = (img.val (img.ph i) pVaddr).toNat := rfl
  have hhi_lt := hi.toNat_lt
  unfold Layout.Fits at hfits
  rw [hup] at hsize
  rw [hsize] at hpos hfits
  rw [hstart] at hfits
  constructor
  · rw [hstart]
    omega
  · rw [hstart, hsize]
    omega

end Span

section Loader

variable {img} {b : Block} {layout : Layout} {c : Canvas} {s : Loading}

variable (img layout) in
theorem addStack_paints {stack : Range} (hs : s.Paints b c) (hn : b.addr.NoWrap) (hu : b.sealed = false)
    (hw : stack.Within b.addr) (hsize : 0x4000 ≤ stack.size.toNat)
    (hfree : ∀ a, stack.covers a = true → c.status a = stFree) :
    ∃ t, s.addStack img layout stack = .ok t ∧ t.Paints b
      { c with status := paint (stackStatus stack) c.status, hidden := fun a => stack.covers a || c.hidden a } := by
  have hguard : Range.Within ⟨stack.start, 0x4000⟩ b.addr := by
    have hlen : (0x4000 : UInt64).toNat = 0x4000 := rfl
    have hend := hw.end_le
    refine ⟨?_, hw.start_aligned, ?_, hw.start_le, ?_⟩
    all_goals
      dsimp only
      omega
  have hcovers : ∀ a, Range.covers ⟨stack.start, 0x4000⟩ a = true → stack.covers a = true := by
    intro a ha
    rw [Range.covers_iff] at ha ⊢
    exact ⟨ha.1, ha.2.trans_le (Nat.add_le_add_left hsize _)⟩
  obtain ⟨s₁, hrun₁, hs₁⟩ := hs.map img layout hn hw .rwStack true fun _ => hfree
  obtain ⟨s₂, hrun₂, hs₂⟩ := hs₁.protect img layout hn hguard .none (by
    intro a ha
    dsimp only
    rw [paint, Range.only_some (hcovers a ha)]
    exact (by decide : protStatus .rwStack ≠ stFree))
  obtain ⟨s₃, hrun₃, hs₃⟩ := hs₂.hide img layout hn hu fun _ => hw
  refine ⟨s₃, ?_, ?_⟩
  · unfold Loading.addStack
    rw [hrun₁, ok_bind, hrun₂, ok_bind, hrun₃]
  · rw [stackStatus_eq]
    exact hs₃

variable (img layout) in
theorem hideInvis_paints (hs : s.Paints b c) (hn : b.addr.NoWrap) (hu : b.sealed = false)
    (hhidden : ∀ a, c.hidden a = false) (hwf : img.WellFormed)
    (hin : ∀ s ∈ img.invisSection, s.addr.alignExpand.size ≠ 0 → s.addr.alignExpand.Within b.addr)
    (hapart : ∀ s ∈ img.invisSection, ∀ s' ∈ img.besideInvis, s.addr.PagesApart s'.addr) :
    ∃ t, s.hideInvis img layout img.sectionTable.sections = .ok (.inr t) ∧
      t.Paints b { c with hidden := img.hiddenSection } := by
  unfold Loading.hideInvis hiddenSection
  cases hinvis : img.invisSection with
  | none =>
    rw [splitInvis_none hinvis]
    refine ⟨s, rfl, ?_⟩
    change s.Paints b { c with hidden := fun _ => false }
    rw [← show c.hidden = fun _ => false from funext hhidden]
    exact hs
  | some u =>
    have hend := hwf.sections u (List.mem_of_find?_eq_some hinvis)
    obtain ⟨t, hrun, ht⟩ := hs.hide img layout hn hu (hin u hinvis)
    refine ⟨t, ?_, ?_⟩
    · rw [splitInvis_some hinvis]
      simp only [(apart_iff hwf hinvis).mpr (hapart u hinvis), hrun, ok_bind]
      rfl
    · simp only [hhidden, Bool.or_false, Range.covers_alignExpand hend] at ht
      exact ht

variable (img layout) in
theorem fillInfo_paints (hs : s.Paints b c) (hn : b.addr.NoWrap)
    (hinfo : img.infoArea.start ≠ 0 → img.infoArea.size = 128 ∧ img.infoArea.In b.addr) :
    ∃ t, s.fillInfo img layout img.infoArea = .ok (.inr t) ∧
      t.Paints b { c with byte := paint (img.infoByte layout) c.byte } := by
  unfold Loading.fillInfo
  by_cases hstart : img.infoArea.start = 0
  · rw [if_neg (not_not.mpr hstart)]
    refine ⟨s, rfl, ?_⟩
    rw [paint_none (f := img.infoByte layout)]
    · exact hs
    · intro a
      exact if_neg fun h => h.1 hstart
  · obtain ⟨hsize, hin⟩ := hinfo hstart
    rw [if_pos hstart, if_neg (not_not.mpr hsize)]
    have hin' : Range.In ⟨img.infoArea.start, 128⟩ b.addr := by
      rw [← hsize]
      exact hin
    obtain ⟨t, hrun, ht⟩ := hs.copyInfo img layout hn hin'
    refine ⟨t, ?_, ?_⟩
    · rw [hrun]
      rfl
    · rw [infoByte_eq hstart]
      exact ht

structure Placed (b : Block) (layout : Layout) : Prop where
  noWrap : b.addr.NoWrap
  elf_in : layout.elf.In b.addr
  elf_start : layout.elf.start.toNat % 4096 = 0
  elf_size : layout.elf.size.toNat % 4096 = 0
  main : layout.mainThread.Within b.addr ∧ 0x4000 ≤ layout.mainThread.size.toNat
  alt : layout.altThread.Within b.addr ∧ 0x4000 ≤ layout.altThread.size.toNat
  invis : layout.invis.size ≠ 0 → layout.invis.Within b.addr
  elf_main : ∀ a, layout.elf.covers a = true → layout.mainThread.covers a = false
  elf_alt : ∀ a, layout.elf.covers a = true → layout.altThread.covers a = false
  main_alt : ∀ a, layout.mainThread.covers a = true → layout.altThread.covers a = false

theorem Placed.elf_noWrap (hp : Placed b layout) : layout.elf.NoWrap := hp.elf_in.end_le.trans_lt hp.noWrap

theorem segment_pages_in (hp : Placed b layout) {i : ℕ} (h : (img.segmentRange i).In layout.elf) :
    (img.segmentPages i).In layout.elf := h.alignExpand hp.elf_start hp.elf_size hp.elf_noWrap

theorem not_covers {r r' : Range} (h : ∀ a, r.covers a = true → r'.covers a = false) {a : ℕ}
    (ha : r'.covers a = true) : r.covers a = false := by
  by_contra hc
  rw [h a (Bool.eq_true_of_not_eq_false hc)] at ha
  cases ha

theorem latest_segmentStatus {l : List ℕ} {a : ℕ} (hp : Placed b layout)
    (hin : ∀ i ∈ l, img.Loads i → (img.segmentRange i).In layout.elf) (ha : layout.elf.covers a = false) (g : ℕ → UInt8) :
    latest img.segmentStatus l g a = g a := by
  have hnone : l.reverse.findSome? (img.segmentStatus · a) = none := by
    rw [List.findSome?_eq_none_iff]
    intro i hi
    by_cases hloads : img.Loads i
    · have helf := hin i (List.mem_reverse.mp hi) hloads
      rw [segmentStatus_eq hloads (helf.endPage_lt hp.elf_start hp.elf_size hp.elf_noWrap)]
      apply Range.only_none
      intro hc
      rw [(segment_pages_in hp helf).covers hc] at ha
      cases ha
    · exact segmentStatus_skip hloads a
  unfold latest
  rw [hnone]
  rfl

theorem segment_lands (hp : Placed b layout) {i : ℕ} (hsane : img.Loads i → img.SegmentSane i)
    (hin : img.Loads i → (img.segmentRange i).In layout.elf) : img.SegmentLands b i := by
  intro htype hvaddr hne
  have hloads : img.Loads i := ⟨htype, hvaddr⟩
  have hsegment := (hin hloads).trans hp.elf_in
  have hstart := (eq_alignDown_iff _).mp b.span.start_aligned
  have hsize := (eq_alignDown_iff _).mp b.span.size_aligned
  refine ⟨Block.bounded_of_within hp.noWrap (Block.alignExpand_within hstart hsize hp.noWrap hsegment hne), ?_⟩
  intro hfile ps pc hv
  have hcopy : Range.In ⟨img.val (img.ph i) pVaddr, img.val (img.ph i) pFilesz⟩ b.addr :=
    ⟨hsegment.start_le, le_trans (Nat.add_le_add_left (hsane hloads).file_le _) hsegment.end_le⟩
  have hne' : (Range.alignExpand ⟨img.val (img.ph i) pVaddr, img.val (img.ph i) pFilesz⟩).size ≠ 0 := by
    intro h0
    rw [Block.validate_empty h0] at hv
    cases hv
  have hwithin := Block.alignExpand_within hstart hsize hp.noWrap hcopy hne'
  refine ⟨Block.bounded_of_within hp.noWrap hwithin ps pc hv, ?_⟩
  have h1 : b.addr.start.toNat ≤ (img.val (img.ph i) pVaddr).toNat := hcopy.start_le
  have h2 : (img.val (img.ph i) pVaddr).toNat + (img.val (img.ph i) pFilesz).toNat ≤ _ := hcopy.end_le
  rw [UInt64.toNat_sub_of_le _ _ (UInt64.le_iff_toNat_le.mpr h1), Block.npages, npages_eq]
  omega

theorem invis_within (hp : Placed b layout) (hwf : img.WellFormed)
    (hin : ∀ i ∈ img.headers, img.Loads i → (img.segmentRange i).In layout.elf) {u : SectionInfo}
    (hu : u ∈ img.invisSection) (hz : u.addr.alignExpand.size ≠ 0) : u.addr.alignExpand.Within b.addr := by
  obtain ⟨j, hj, hloads, hsegment⟩ := hwf.invis u hu
  have hpages := (hsegment.trans (hin j hj hloads)).alignExpand hp.elf_start hp.elf_size hp.elf_noWrap
  have haligned := Layout.aligned_alignExpand u.addr
  exact (hpages.trans hp.elf_in).within haligned.1 haligned.2 hz

theorem Accepted.segmentInside (h : img.Accepted b layout) (hp : Placed b layout) (hwf : img.WellFormed)
    (hin : ∀ i ∈ img.headers, img.Loads i → (img.segmentRange i).In layout.elf) :
    ∀ i ∈ img.headers, img.SegmentInside b i := by
  intro i hi
  have hi := List.mem_range.mp hi
  apply h.inside.segments _ _ i hi
  · intro j hj
    have hj := List.mem_range.mpr (hj.trans hi)
    exact segment_lands hp (hwf.segments j hj) (hin j hj)
  · intro u hsplit
    cases hinvis : img.invisSection with
    | none =>
      rw [splitInvis_none hinvis] at hsplit
      cases hsplit
    | some s =>
      rw [splitInvis_some hinvis] at hsplit
      cases hsplit
      refine ⟨(apart_iff hwf hinvis).mpr (h.apart s hinvis), ?_⟩
      by_cases hz : s.addr.alignExpand.size = 0
      · intro ps pc hv
        rw [Block.validate_empty hz] at hv
        cases hv
      · exact Block.bounded_of_within hp.noWrap (invis_within hp hwf hin hinvis hz)
  · by_cases hz : layout.invis.size = 0
    · intro ps pc hv
      rw [Block.validate_empty hz] at hv
      cases hv
    · exact Block.bounded_of_within hp.noWrap (hp.invis hz)

theorem elfLoad_paints (h : img.Accepted b layout) (hp : Placed b layout) (hwf : img.WellFormed)
    (hu : b.sealed = false) (hfresh : b.Shows ⟨fun _ => stFree, fun _ => false, fun _ => 0⟩)
    (hin : ∀ i ∈ img.headers, img.Loads i → (img.segmentRange i).In layout.elf) :
    ∃ s, elfLoad img layout b = .ok (.inr
        (⟨img.sectionTable.sections, (img.symbolTable img.sectionTable.symtab).exports, img.val 0 eEntry,
          Sha256.final (Sha256.update Sha256.init img.bytes)⟩, s)) ∧
      s.Paints b (img.loaded layout) := by
  have hhead := has_header h.isElf
  have hphnum : img.Sees 0 ePhnum := img.sees_header hhead (by decide)
  have hs : Loading.Paints b ⟨fun _ => stFree, fun _ => false, fun _ => 0⟩ ⟨b, []⟩ :=
    ⟨⟨rfl, rfl⟩, hfresh, fun u hu => absurd hu List.not_mem_nil⟩
  have hinfo : img.infoArea.start ≠ 0 → img.infoArea.size = 128 ∧ img.infoArea.In b.addr := by
    intro hstart
    obtain ⟨i, hi, hloads, hinfo⟩ := hwf.info hstart (h.info hstart)
    exact ⟨h.info hstart, hinfo.trans ((hin i hi hloads).trans hp.elf_in)⟩
  obtain ⟨s₁, hrun₁, hs₁⟩ := hideInvis_paints img layout hs hp.noWrap hu (fun _ => rfl) hwf
    (fun _ hinvis => invis_within hp hwf hin hinvis) h.apart
  obtain ⟨s₂, hrun₂, hs₂⟩ := hs₁.hide img layout hp.noWrap hu hp.invis
  obtain ⟨s₃, hrun₃, hs₃⟩ := segments_paint layout hs₂ hp.noWrap hphnum (h.segmentInside hp hwf hin) hwf.segments
    fun i hi hloads => (hin i hi hloads).trans hp.elf_in
  obtain ⟨s₄, hrun₄, hs₄⟩ := fillInfo_paints img layout hs₃ hp.noWrap hinfo
  obtain ⟨s₅, hrun₅, hs₅⟩ := addStack_paints img layout hs₄ hp.noWrap hu hp.main.1 hp.main.2 (by
    intro a ha
    exact latest_segmentStatus hp hin (not_covers hp.elf_main ha) _)
  obtain ⟨s₆, hrun₆, hs₆⟩ := addStack_paints img layout hs₅ hp.noWrap hu hp.alt.1 hp.alt.2 (by
    intro a ha
    have hmain : stackStatus layout.mainThread a = none := by
      rw [← Option.not_isSome_iff_eq_none]
      intro hsome
      rw [hp.main_alt a (stackStatus_covers hp.main.2 hsome)] at ha
      cases ha
    dsimp only
    rw [paint, hmain]
    exact latest_segmentStatus hp hin (not_covers hp.elf_alt ha) _)
  refine ⟨s₆, ?_, ?_⟩
  · unfold elfLoad
    simp only [h.isElf, Bool.not_true, Bool.false_eq_true, ↓reduceIte]
    rw [(img.reads_get 0 eEntry).inside (img.sees_header hhead (by decide)), ok_bind,
      (img.reads_readSections hhead).inside h.inside.sections, ok_bind,
      (img.reads_readSymbols _).inside h.inside.symbols, ok_bind, hrun₁, ok_bind]
    dsimp only
    rw [hrun₂, ok_bind, (img.reads_get 0 ePhnum).inside hphnum, ok_bind]
    change ((img.headers.foldlM (Loading.loadSegment img layout) s₂) >>= _) = _
    rw [hrun₃, ok_bind]
    change ((s₃.fillInfo img layout img.infoArea) >>= _) = _
    rw [hrun₄, ok_bind]
    dsimp only
    rw [hrun₅, ok_bind, hrun₆, ok_bind]
    rfl
  · unfold loaded
    simp only [segmentsOver, ← Bool.or_assoc] at hs₆ ⊢
    exact hs₆

end Loader

end Image

section Create

variable {span : Range} {hash : Bytes 32} {tpl : LayoutTemplate} {h : Host}

theorem create_shows (hmade : Host.create span hash tpl = .ok (.inr h)) :
    h.block.Shows ⟨fun _ => stFree, fun _ => false, fun _ => 0⟩ := by
  obtain ⟨b₀, b, layout, -, hnew, hb, rfl⟩ := Host.create_cases hmade
  have hpages : b₀.pages = fun _ => freshPage := by
    obtain ⟨-, span, rfl⟩ := Block.new_cases hnew
    rfl
  have hpage : ∀ i < b.npages, ∃ n, b.pages i = { freshPage with native := n } := by
    intro i hi
    rw [(Switch.activate hb).npages] at hi
    have hn := (Switch.activate hb).page i hi
    rw [hpages] at hn
    exact hn
  refine ⟨?_, ?_, ?_⟩
  · intro i hi
    obtain ⟨n, hn⟩ := hpage i hi
    rw [hn]
    rfl
  · intro i hi
    obtain ⟨n, hn⟩ := hpage i hi
    rw [hn]
    rfl
  · intro i hi k
    obtain ⟨n, hn⟩ := hpage i hi
    rw [hn]
    rfl

theorem create_placed (hmade : Host.create span hash tpl = .ok (.inr h)) (hfits : Layout.Fits span.alignExpand tpl)
    (hend : h.layout.all.NoWrap) (hne : span.alignExpand.size ≠ 0) : Image.Placed h.block h.layout := by
  obtain ⟨hlayout, haddr⟩ := create_layout hmade
  obtain ⟨hstart, hsize⟩ := Layout.aligned_alignExpand span
  have hcheck := check_of_create (show Host.create span hash tpl ≠ .ok (.inl regionError) by rw [hmade]; simp)
  have hsound := Layout.sound_of_fits hstart hsize hcheck hfits
  rw [← hlayout] at hsound
  have hthread : (alignUp 0x100000).toNat = 0x100000 := by decide
  have hmain : h.layout.mainThread.size = alignUp 0x100000 := by rw [hlayout]; rfl
  have halt : h.layout.altThread.size = alignUp 0x100000 := by rw [hlayout]; rfl
  have helf : h.layout.elf = span.alignExpand := by rw [hlayout]; rfl
  have hpos : alignUp 0x100000 ≠ 0 := by decide
  have hregions : h.layout.regions = [h.layout.elf, h.layout.mainThread, h.layout.altThread, h.layout.sbrk,
    h.layout.sealedHeap, h.layout.invis, h.layout.plain, h.layout.mmapArena] := rfl
  have hapart : ∀ {r r' : Range}, r.Before r' → ∀ a, r.covers a = true → r'.covers a = false := by
    intro r r' hbefore a ha
    by_contra hc
    rw [Bool.not_eq_false] at hc
    exact lt_irrefl a (hbefore a (Range.covers_iff.mp ha) a (Range.covers_iff.mp hc))
  obtain ⟨hfirst, hordered⟩ := List.pairwise_cons.mp (hregions ▸ hsound.ordered)
  obtain ⟨hsecond, -⟩ := List.pairwise_cons.mp hordered
  rw [← haddr] at hend
  refine ⟨hend, ?_, ?_, ?_, ⟨?_, ?_⟩, ⟨?_, ?_⟩, ?_, hapart (hfirst _ (by simp)), hapart (hfirst _ (by simp)),
    hapart (hsecond _ (by simp))⟩
  · rw [haddr]
    exact hsound.region_in (by simp [hregions]) (by rw [helf]; exact hne)
  · rw [helf]
    exact hstart
  · rw [helf]
    exact hsize
  · rw [haddr]
    exact hsound.region_within (by simp [hregions]) (by rw [hmain]; exact hpos)
  · rw [hmain, hthread]
    decide
  · rw [haddr]
    exact hsound.region_within (by simp [hregions]) (by rw [halt]; exact hpos)
  · rw [halt, hthread]
    decide
  · intro hz
    rw [haddr]
    exact hsound.region_within (by simp [hregions]) hz

end Create

section Main

variable {img : Image} {hash : Bytes 32} {tpl : LayoutTemplate} {h : Host}

theorem Image.elfLoad_created (hmade : Host.create img.span hash tpl = .ok (.inr h))
    (hfits : Layout.Fits img.span.alignExpand tpl) (hend : h.layout.all.NoWrap) (hwf : img.WellFormed)
    (hacc : img.Accepted h.block h.layout) :
    ∃ s, elfLoad img h.layout h.block = .ok (.inr
        (⟨img.sectionTable.sections, (img.symbolTable img.sectionTable.symtab).exports, img.val 0 eEntry,
          Sha256.final (Sha256.update Sha256.init img.bytes)⟩, s)) ∧
      s.Paints h.block (img.loaded h.layout) := by
  have hplaced := create_placed hmade hfits hend hwf.nonempty
  apply elfLoad_paints hacc hplaced hwf (create_unsealed hmade) (create_shows hmade)
  intro i hi hloads
  rw [(create_layout hmade).1]
  exact img.segment_in_elf hfits hwf.nonempty (List.mem_range.mp hi) hloads (hwf.segments i hi hloads).no_wrap

end Main

section Overlap

def elfHeader (entry shoff : UInt64) (phnum shnum : UInt8) : List UInt8 :=
  [0x7f, 0x45, 0x4c, 0x46, 2] ++ List.replicate 19 0 ++ le64 entry ++ le64 64 ++ le64 shoff ++ List.replicate 6 0 ++
    [56, 0, phnum, 0, 64, 0, shnum, 0, 0, 0]

def programHeader (flags : UInt32) (offset vaddr filesz memsz : UInt64) : List UInt8 :=
  le32 1 ++ le32 flags ++ le64 offset ++ le64 vaddr ++ le64 0 ++ le64 filesz ++ le64 memsz ++ le64 0

end Overlap

end MiniBox
