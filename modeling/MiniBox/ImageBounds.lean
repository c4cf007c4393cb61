import MiniBox.LoaderCalls
import MiniBox.LayoutSoundness

namespace MiniBox

open ByteStream CheckedReads IndexLoops Outcomes

theorem reads_cstring (l : List UInt8) : Reads .outside (cstring l) (0 ∈ l) (l.takeWhile (· ≠ 0)) := by
  induction l with
  | nil => exact ⟨fun h => absurd h List.not_mem_nil, fun _ => rfl⟩
  | cons c l ih =>
    unfold cstring
    by_cases hc : c = 0
    · rw [if_pos hc, hc]
      exact reads_done (by simp) []
    · rw [if_neg hc, List.takeWhile_cons_of_pos (by simpa using hc)]
      refine ih.map.congr ?_
      simp [Ne.symm hc]

theorem reads_strcmpEq (l s : List UInt8) :
    Reads .outside (strcmpEq l s) (¬ l <+: s) (decide (s ++ [0] <+: l)) := by
  induction l generalizing s with
  | nil => exact ⟨fun h => absurd List.nil_prefix h, fun _ => by cases s <;> rfl⟩
  | cons c l ih =>
    cases s with
    | nil =>
      refine ⟨fun _ => ?_, fun h => absurd (by simp) h⟩
      simp [strcmpEq, eq_comm]
    | cons d s =>
      unfold strcmpEq
      by_cases hc : c = d
      · subst hc
        rw [if_pos rfl]
        simpa using ih s
      · rw [if_neg hc]
        refine ⟨fun _ => ?_, fun h => absurd (by simp [hc]) h⟩
        simp [Ne.symm hc]

namespace Image

variable (img : Image)

def Sees (base : UInt64) (f : Field) : Prop := img.Has (base + f.offset) f.size

instance (base : UInt64) (f : Field) : Decidable (img.Sees base f) := inferInstanceAs (Decidable (img.Has _ _))

theorem reads_get (base : UInt64) (f : Field) :
    Reads .outside (img.get base f) (img.Sees base f) (img.val base f) := by
  unfold get
  exact ⟨fun h => if_pos h, fun h => if_neg h⟩

section Span

def ph (i : ℕ) : UInt64 := img.val 0 ePhoff + UInt64.ofNat i * img.val 0 ePhentsize

theorem sees_header {f : Field} (h : img.Has 0 64) (hf : f.offset.toNat + f.size ≤ 64) : img.Sees 0 f := by
  unfold Sees Has at *
  rw [UInt64.zero_add]
  simp only [UInt64.toNat_zero] at h
  omega

theorem reads_phdr (h : img.Sees 0 ePhnum) (i : ℕ) : Reads .outside (img.phdr i) True (img.ph i) := by
  have hoff : img.Sees 0 ePhoff := by
    unfold Sees Has at *
    simp only [ePhnum, ePhoff, UInt64.zero_add, UInt64.reduceToNat] at *
    omega
  have hent : img.Sees 0 ePhentsize := by
    unfold Sees Has at *
    simp only [ePhnum, ePhentsize, UInt64.zero_add, UInt64.reduceToNat] at *
    omega
  apply (img.reads_get 0 ePhoff).andThen (fun _ => hoff)
  intro _
  apply (img.reads_get 0 ePhentsize).andThen (fun _ => hent)
  intro _
  exact reads_done trivial _

def SpanHeaderInside (i : ℕ) : Prop :=
  img.Sees (img.ph i) pVaddr ∧ (img.val (img.ph i) pVaddr ≠ 0 → img.Sees (img.ph i) pMemsz)

def SpanInside : Prop := img.Sees 0 ePhnum ∧ ∀ i < (img.val 0 ePhnum).toNat, img.SpanHeaderInside i

def spanNext (span : UInt64 × UInt64) (i : ℕ) : UInt64 × UInt64 :=
  let vaddr := img.val (img.ph i) pVaddr
  let top := vaddr + img.val (img.ph i) pMemsz
  if vaddr = 0 then span
  else (if vaddr < span.1 then vaddr else span.1, if top > span.2 then top else span.2)

def span : Range :=
  let u := (List.range (img.val 0 ePhnum).toNat).foldl img.spanNext (0xffffffffffffffff, 0)
  ⟨u.1, u.2 - u.1⟩

theorem reads_spanStep (h : img.Sees 0 ePhnum) (span : UInt64 × UInt64) (i : ℕ) :
    Reads .outside (img.spanStep span i) (img.SpanHeaderInside i) (img.spanNext span i) := by
  unfold spanNext
  apply (img.reads_phdr h i).andThen fun _ => trivial
  intro _
  apply (img.reads_get _ pVaddr).andThen fun hin => hin.1
  intro hv
  by_cases hz : img.val (img.ph i) pVaddr = 0
  · rw [if_pos hz, if_pos hz]
    exact reads_done ⟨hv, fun hne => absurd hz hne⟩ span
  · rw [if_neg hz, if_neg hz]
    apply (img.reads_get _ pMemsz).andThen fun hin => hin.2 hz
    intro hm
    exact reads_done ⟨hv, fun _ => hm⟩ _

theorem reads_elfSpan : Reads .outside img.elfSpan img.SpanInside img.span := by
  apply (img.reads_get 0 ePhnum).andThen fun hin => hin.1
  intro h
  apply (reads_foldlM (img.reads_spanStep h) _ _).andThen
  · intro hin i hi
    exact hin.2 i (List.mem_range.mp hi)
  · intro hall
    exact reads_done ⟨h, fun i hi => hall i (List.mem_range.mpr hi)⟩ _

end Span

section Sections

variable (shoff strings : UInt64)

def sh (i : ℕ) : UInt64 := shoff + UInt64.ofNat i * 64

def SectionInside (sh name : UInt64) : Prop :=
  img.Sees sh shType ∧
    (img.val sh shType ≠ shtNobits → img.Sees name firstChar ∧ (img.val name firstChar ≠ 0 →
      img.Sees sh shAddr ∧ (img.val sh shAddr ≠ 0 → 0 ∈ img.bytes.drop name.toNat ∧ img.Sees sh shSize))) ∧
    (img.val sh shType = shtSymtab → img.Sees sh shLink)

instance (sh name : UInt64) : Decidable (img.SectionInside sh name) := inferInstanceAs (Decidable (_ ∧ _ ∧ _))

def sectionNext (t : SectionTable) (sh name : UInt64) : SectionTable where
  sections :=
    if img.val sh shType ≠ shtNobits then
      if img.val name firstChar ≠ 0 then
        if img.val sh shAddr ≠ 0 then
          t.sections ++ [⟨(img.bytes.drop name.toNat).takeWhile (· ≠ 0), ⟨img.val sh shAddr, img.val sh shSize⟩⟩]
        else t.sections
      else t.sections
    else t.sections
  symtab := if img.val sh shType = shtSymtab then some (sh, shoff + img.val sh shLink * 64) else t.symtab

theorem reads_link (s : UInt64) (t : SectionTable) (sections : List SectionInfo) :
    Reads .outside
      (if img.val s shType = shtSymtab then do
        let link ← img.get s shLink
        pure (⟨sections, some (s, shoff + link * 64)⟩ : SectionTable)
      else pure ⟨sections, t.symtab⟩)
      (img.val s shType = shtSymtab → img.Sees s shLink)
      ⟨sections, if img.val s shType = shtSymtab then some (s, shoff + img.val s shLink * 64) else t.symtab⟩ := by
  by_cases hs : img.val s shType = shtSymtab
  · rw [if_pos hs, if_pos hs]
    apply (img.reads_get s shLink).andThen (fun h => h hs)
    intro h
    exact reads_done (fun _ => h) _
  · rw [if_neg hs, if_neg hs]
    exact reads_done (fun h => absurd h hs) _

theorem reads_sectionStep (t : SectionTable) (i : ℕ) :
    Reads .outside (img.sectionStep shoff strings t i)
      (img.Sees (sh shoff i) shName ∧ img.SectionInside (sh shoff i) (strings + img.val (sh shoff i) shName))
      (img.sectionNext shoff t (sh shoff i) (strings + img.val (sh shoff i) shName)) := by
  have hlink := img.reads_link shoff (sh shoff i) t
  have hsh : shoff + UInt64.ofNat i * 64 = sh shoff i := rfl
  unfold sectionStep
  simp only [hsh]
  apply (img.reads_get _ shName).bind
  apply (img.reads_get _ shType).bind
  unfold sectionNext
  by_cases hn : img.val (sh shoff i) shType ≠ shtNobits
  · simp only [if_pos hn]
    apply (img.reads_get _ firstChar).andThen fun h => (h.1 hn).1
    intro hf
    by_cases hz : img.val (strings + img.val (sh shoff i) shName) firstChar ≠ 0
    · simp only [if_pos hz]
      apply (img.reads_get _ shAddr).andThen fun h => ((h.1 hn).2 hz).1
      intro ha
      by_cases hd : img.val (sh shoff i) shAddr ≠ 0
      · simp only [if_pos hd]
        apply (reads_cstring _).andThen fun h => (((h.1 hn).2 hz).2 hd).1
        intro hc
        apply (img.reads_get _ shSize).andThen fun h => (((h.1 hn).2 hz).2 hd).2
        intro hsize
        exact (hlink _).congr ⟨fun hl => ⟨fun _ => ⟨hf, fun _ => ⟨ha, fun _ => ⟨hc, hsize⟩⟩⟩, hl⟩, And.right⟩
      · simp only [if_neg hd]
        exact (hlink _).congr ⟨fun hl => ⟨fun _ => ⟨hf, fun _ => ⟨ha, fun h => absurd h hd⟩⟩, hl⟩, And.right⟩
    · simp only [if_neg hz]
      exact (hlink _).congr ⟨fun hl => ⟨fun _ => ⟨hf, fun h => absurd h hz⟩, hl⟩, And.right⟩
  · simp only [if_neg hn]
    apply (hlink _).congr
    simp [hn]

def shstrtab : UInt64 := img.val (img.val 0 eShoff + img.val 0 eShstrndx * 64) shOffset

def sectionName (i : ℕ) : UInt64 := img.shstrtab + img.val (sh (img.val 0 eShoff) i) shName

def SectionsInside : Prop :=
  img.Sees (img.val 0 eShoff + img.val 0 eShstrndx * 64) shOffset ∧ ∀ i < (img.val 0 eShnum).toNat,
    img.Sees (sh (img.val 0 eShoff) i) shName ∧ img.SectionInside (sh (img.val 0 eShoff) i) (img.sectionName i)

instance : Decidable img.SectionsInside := inferInstanceAs (Decidable (_ ∧ ∀ i < _, _))

def sectionTable : SectionTable :=
  (List.range (img.val 0 eShnum).toNat).foldl
    (fun t i => img.sectionNext (img.val 0 eShoff) t (sh (img.val 0 eShoff) i) (img.sectionName i)) ⟨[], none⟩

theorem reads_readSections (h : img.Has 0 64) :
    Reads .outside img.readSections img.SectionsInside img.sectionTable := by
  apply (img.reads_get 0 eShoff).andThen fun _ => img.sees_header h (by decide)
  intro _
  apply (img.reads_get 0 eShstrndx).andThen fun _ => img.sees_header h (by decide)
  intro _
  apply (img.reads_get _ shOffset).andThen And.left
  intro hstr
  apply (img.reads_get 0 eShnum).andThen fun _ => img.sees_header h (by decide)
  intro _
  apply (reads_foldlM (img.reads_sectionStep (img.val 0 eShoff) img.shstrtab) _ _).congr
  simp only [List.mem_range]
  exact ⟨fun hall => ⟨hstr, hall⟩, And.right⟩

end Sections

section Symbols

variable (syms strtab : UInt64)

def sym (i : ℕ) : UInt64 := syms + UInt64.ofNat i * 24

def SymbolInside (sym name : UInt64) : Prop :=
  img.Sees name firstChar ∧ (img.val name firstChar ≠ 0 → img.Sees sym stInfo ∧ img.Sees sym stOther ∧
    (img.val sym stOther &&& 3 = 0 ∧ img.val sym stInfo >>> 4 = 1 →
      0 ∈ img.bytes.drop name.toNat ∧ img.Sees sym stValue ∧ img.Sees sym stSize) ∧
    ¬ img.bytes.drop name.toNat <+: ascii "__wbxsysinfo" ∧
    (ascii "__wbxsysinfo" ++ [0] <+: img.bytes.drop name.toNat → img.Sees sym stValue ∧ img.Sees sym stSize))

instance (sym name : UInt64) : Decidable (img.SymbolInside sym name) := inferInstanceAs (Decidable (_ ∧ _))

def symbolNext (s : SymbolTable) (sym name : UInt64) : SymbolTable :=
  if img.val name firstChar = 0 then s
  else
    { exports :=
        if img.val sym stOther &&& 3 = 0 ∧ img.val sym stInfo >>> 4 = 1 then
          s.exports ++ [⟨(img.bytes.drop name.toNat).takeWhile (· ≠ 0), img.val sym stValue, img.val sym stSize⟩]
        else s.exports
      infoArea :=
        if ascii "__wbxsysinfo" ++ [0] <+: img.bytes.drop name.toNat then ⟨img.val sym stValue, img.val sym stSize⟩
        else s.infoArea }

theorem reads_infoArea (s : SymbolTable) (sym name : UInt64) (exports : List ExportInfo) :
    Reads .outside
      (do
        let isInfo ← strcmpEq (img.bytes.drop name.toNat) (ascii "__wbxsysinfo")
        if isInfo = true then do
          let value ← img.get sym stValue
          let size ← img.get sym stSize
          pure (⟨exports, ⟨value, size⟩⟩ : SymbolTable)
        else pure ⟨exports, s.infoArea⟩)
      (¬ img.bytes.drop name.toNat <+: ascii "__wbxsysinfo" ∧
        (ascii "__wbxsysinfo" ++ [0] <+: img.bytes.drop name.toNat → img.Sees sym stValue ∧ img.Sees sym stSize))
      ⟨exports, if ascii "__wbxsysinfo" ++ [0] <+: img.bytes.drop name.toNat then
        ⟨img.val sym stValue, img.val sym stSize⟩ else s.infoArea⟩ := by
  apply (reads_strcmpEq _ _).bind
  simp only [decide_eq_true_iff]
  by_cases hi : ascii "__wbxsysinfo" ++ [0] <+: img.bytes.drop name.toNat
  · rw [if_pos hi, if_pos hi]
    apply (img.reads_get sym stValue).andThen fun h => (h hi).1
    intro hv
    apply (img.reads_get sym stSize).andThen fun h => (h hi).2
    intro hs
    exact reads_done (fun _ => ⟨hv, hs⟩) _
  · rw [if_neg hi, if_neg hi]
    exact reads_done (fun h => absurd h hi) _

theorem reads_symbolStep (s : SymbolTable) (i : ℕ) :
    Reads .outside (img.symbolStep syms strtab s i)
      (img.Sees (sym syms i) stName ∧ img.SymbolInside (sym syms i) (strtab + img.val (sym syms i) stName))
      (img.symbolNext s (sym syms i) (strtab + img.val (sym syms i) stName)) := by
  have hinfo := img.reads_infoArea s (sym syms i) (strtab + img.val (sym syms i) stName)
  have hsym : syms + UInt64.ofNat i * 24 = sym syms i := rfl
  unfold symbolStep
  simp only [hsym]
  apply (img.reads_get _ stName).bind
  apply (img.reads_get _ firstChar).bind
  unfold symbolNext
  by_cases hz : img.val (strtab + img.val (sym syms i) stName) firstChar = 0
  · rw [if_pos hz, if_pos hz]
    exact reads_done (fun h => absurd hz h) _
  · rw [if_neg hz, if_neg hz]
    apply (img.reads_get _ stInfo).andThen fun h => (h hz).1
    intro hi
    apply (img.reads_get _ stOther).andThen fun h => (h hz).2.1
    intro ho
    by_cases he : img.val (sym syms i) stOther &&& 3 = 0 ∧ img.val (sym syms i) stInfo >>> 4 = 1
    · simp only [if_pos he]
      apply (reads_cstring _).andThen fun h => ((h hz).2.2.1 he).1
      intro hc
      apply (img.reads_get _ stValue).andThen fun h => ((h hz).2.2.1 he).2.1
      intro hv
      apply (img.reads_get _ stSize).andThen fun h => ((h hz).2.2.1 he).2.2
      intro hs
      exact (hinfo _).congr ⟨fun h _ => ⟨hi, ho, fun _ => ⟨hc, hv, hs⟩, h⟩, fun h => (h hz).2.2.2⟩
    · simp only [if_neg he]
      exact (hinfo _).congr ⟨fun h _ => ⟨hi, ho, fun h' => absurd h' he, h⟩, fun h => (h hz).2.2.2⟩

def symbolName (strtabSh sym : UInt64) : UInt64 := img.val strtabSh shOffset + img.val sym stName

def TableInside (symtab strtabSh : UInt64) : Prop :=
  img.Sees symtab shSize ∧ img.Sees symtab shOffset ∧ img.Sees strtabSh shOffset ∧
    ∀ i < (img.val symtab shSize).toNat / 24, img.Sees (sym (img.val symtab shOffset) i) stName ∧
      img.SymbolInside (sym (img.val symtab shOffset) i) (img.symbolName strtabSh (sym (img.val symtab shOffset) i))

instance (symtab strtabSh : UInt64) : Decidable (img.TableInside symtab strtabSh) :=
  inferInstanceAs (Decidable (_ ∧ _ ∧ _ ∧ ∀ i < _, _))

def SymbolsInside (table : Option (UInt64 × UInt64)) : Prop := ∀ t ∈ table, img.TableInside t.1 t.2

instance (table : Option (UInt64 × UInt64)) : Decidable (img.SymbolsInside table) :=
  match table with
  | none => isTrue fun _ ht => absurd ht (Option.not_mem_none _)
  | some t => decidable_of_iff (img.TableInside t.1 t.2) (by simp [SymbolsInside])

def symbolTable : Option (UInt64 × UInt64) → SymbolTable
  | none => ⟨[], ⟨0, 0⟩⟩
  | some (symtab, strtabSh) => (List.range ((img.val symtab shSize).toNat / 24)).foldl
      (fun s i => img.symbolNext s (sym (img.val symtab shOffset) i)
        (img.symbolName strtabSh (sym (img.val symtab shOffset) i))) ⟨[], ⟨0, 0⟩⟩

theorem reads_readSymbols (table : Option (UInt64 × UInt64)) :
    Reads .outside (img.readSymbols table) (img.SymbolsInside table) (img.symbolTable table) := by
  cases table with
  | none => exact reads_done (fun t ht => absurd ht (by simp)) _
  | some t =>
    have htable : img.SymbolsInside (some t) ↔ img.TableInside t.1 t.2 := by
      simp only [SymbolsInside, Option.mem_def, Option.some.injEq, forall_eq']
    refine Reads.congr ?_ htable.symm
    apply (img.reads_get _ shSize).bind
    apply (img.reads_get _ shOffset).bind
    apply (img.reads_get _ shOffset).bind
    apply (reads_foldlM (img.reads_symbolStep _ _) _ _).congr
    simp only [List.mem_range]
    rfl

end Symbols

section Segments

variable (b : Block) (layout : Layout)

def segmentPages (i : ℕ) : Range := Range.alignExpand ⟨img.val (img.ph i) pVaddr, img.val (img.ph i) pMemsz⟩

def SegmentInside (i : ℕ) : Prop :=
  img.Sees (img.ph i) pType ∧ (img.val (img.ph i) pType = ptLoad →
    img.Sees (img.ph i) pVaddr ∧ (img.val (img.ph i) pVaddr ≠ 0 →
      img.Sees (img.ph i) pMemsz ∧ ((img.segmentPages i).size ≠ 0 →
        img.Sees (img.ph i) pFlags ∧ (b.Bounded (img.segmentPages i) →
          img.Sees (img.ph i) pFilesz ∧ (img.val (img.ph i) pFilesz ≠ 0 →
            img.Sees (img.ph i) pOffset ∧ b.CopyInside img (img.val (img.ph i) pOffset)
              (img.val (img.ph i) pVaddr) (img.val (img.ph i) pFilesz))))))

def SegmentLands (i : ℕ) : Prop :=
  img.val (img.ph i) pType = ptLoad → img.val (img.ph i) pVaddr ≠ 0 → (img.segmentPages i).size ≠ 0 →
    b.Bounded (img.segmentPages i) ∧ (img.val (img.ph i) pFilesz ≠ 0 →
      b.CopyLands (img.val (img.ph i) pVaddr) (img.val (img.ph i) pFilesz))

variable {img b layout}

theorem checks_loadSegment (h : img.Sees 0 ePhnum) (s : Loading) (i : ℕ) (hs : b.SameFrame s.block) :
    Checks .outside (s.loadSegment img layout i) (img.SegmentInside b i) (img.SegmentLands b i)
      fun t => b.SameFrame t.block := by
  unfold Loading.loadSegment
  rw [(img.reads_phdr h i).inside trivial, ok_bind]
  apply (img.reads_get _ pType).thenChecks
  refine Checks.only (fun _ => ?_) hs
  apply (img.reads_get _ pVaddr).thenChecks
  refine Checks.skip (fun _ => ?_) hs
  apply (img.reads_get _ pMemsz).thenChecks
  refine Checks.skip (fun _ => ?_) hs
  apply (img.reads_get _ pFlags).thenChecks
  have hmap : Checks .outside (s.call img layout (.mmapFixed (img.segmentPages i) .rw false)) True
      (b.Bounded (img.segmentPages i)) fun t => b.SameFrame t.block := by
    rw [← hs.bounded]
    exact checks_call hs (checks_mmapFixed _ _)
  apply hmap.lead
  intro hb t ht
  have hprotect : ∀ u : Loading, b.SameFrame u.block → Checks .outside
      (u.call img layout (.mprotect (img.segmentPages i) (Loading.segmentProt (img.val (img.ph i) pFlags)))) True True
      fun v => b.SameFrame v.block := by
    intro u hu
    rw [← hu.bounded] at hb
    exact checks_call hu (checks_mprotect _ hb)
  apply (img.reads_get _ pFilesz).thenChecks
  by_cases hf : img.val (img.ph i) pFilesz ≠ 0
  · simp only [hf, ne_eq, not_false_eq_true, ↓reduceIte, forall_const]
    apply (img.reads_get _ pOffset).thenChecks
    apply Checks.followed
    · rw [← ht.copyInside, ← ht.copyLands]
      exact checks_call ht (checks_copyFromImage _ _ _ _ _)
    · exact hprotect
  · simp only [hf, ↓reduceIte, false_imp_iff]
    exact hprotect t ht

def HidesInvis (b : Block) (sections : List SectionInfo) : Prop :=
  ∀ u ∈ splitInvis sections,
    u.2.find? (SectionInfo.overlaps u.1.addr.alignExpand) = none ∧ b.Bounded u.1.addr.alignExpand

variable (img b layout) in
def SegmentsInside : Prop :=
  HidesInvis b img.sectionTable.sections → b.Bounded layout.invis →
    ∀ i < (img.val 0 ePhnum).toNat, (∀ j < i, img.SegmentLands b j) → img.SegmentInside b i

variable (img layout) in
theorem checks_hide {s : Loading} (hs : b.SameFrame s.block) (hb : b.sealed = false) (addr : Range) :
    Checks .outside (s.call img layout (.markInvisible addr)) True (b.Bounded addr) fun t => b.SameFrame t.block := by
  rw [← hs.bounded]
  exact checks_call hs (checks_markInvisible (hs.sealed.trans hb) addr)

variable (img layout) in
theorem hideInvis_hides (s : Loading) {sections : List SectionInfo} (hs : b.SameFrame s.block)
    (hb : b.sealed = false) (h : HidesInvis b sections) :
    ∃ t, s.hideInvis img layout sections = .ok (.inr t) ∧ b.SameFrame t.block := by
  unfold Loading.hideInvis
  cases hsplit : splitInvis sections with
  | none => exact ⟨s, rfl, hs⟩
  | some u =>
    obtain ⟨hfind, hbound⟩ := h u hsplit
    obtain ⟨t, ht, hframe⟩ := (checks_hide img layout hs hb _).lands trivial hbound
    refine ⟨t, ?_, hframe⟩
    simp only [hfind, ht, ok_bind]
    rfl

variable (img layout) in
theorem hideInvis_fails (s : Loading) {sections : List SectionInfo} (hs : b.SameFrame s.block)
    (hb : b.sealed = false) (h : ¬ HidesInvis b sections) :
    (∃ text, s.hideInvis img layout sections = .ok (.inl text)) ∨
      ∃ d, d ≠ ElfFault.outside ∧ s.hideInvis img layout sections = .error d := by
  unfold HidesInvis at h
  push Not at h
  obtain ⟨u, hsplit, hu⟩ := h
  unfold Loading.hideInvis
  rw [hsplit]
  cases hfind : u.2.find? (SectionInfo.overlaps u.1.addr.alignExpand) with
  | some other =>
    left
    simp only [hfind]
    exact ⟨_, rfl⟩
  | none =>
    right
    obtain ⟨d, hd, hrun⟩ := (checks_hide img layout hs hb _).dies trivial (hu hfind)
    refine ⟨d, hd, ?_⟩
    simp only [hfind, hrun]
    rfl

theorem call_ne_outside {c : SetupCall} (h : ∀ src start len, c ≠ .copyImage src start len) (s : Loading) :
    s.call img layout c ≠ .error .outside := by
  apply bind_ne_error
  · cases c with
    | copyImage src start len => exact absurd rfl (h src start len)
    | markInvisible addr => exact crashes_ne_outside _
    | mmapFixed addr prot noReplace => exact crashes_ne_outside _
    | copyLayout start => exact crashes_ne_outside _
    | mprotect addr prot => exact crashes_ne_outside _
  · intro u h
    cases h

theorem fillInfo_ne_outside (s : Loading) (r : Range) : s.fillInfo img layout r ≠ .error .outside := by
  unfold Loading.fillInfo
  split
  · split
    · exact fun h => nomatch h
    · apply bind_ne_error (call_ne_outside (by simp) s)
      intro u h
      cases h
  · exact fun h => nomatch h

theorem addStack_ne_outside (s : Loading) (r : Range) : s.addStack img layout r ≠ .error .outside := by
  apply bind_ne_error (call_ne_outside (by simp) s)
  intro t
  apply bind_ne_error (call_ne_outside (by simp) t)
  intro u
  exact call_ne_outside (by simp) u

variable (img b layout) in
structure LoadInside : Prop where
  sections : img.SectionsInside
  symbols : img.SymbolsInside img.sectionTable.symtab
  segments : img.SegmentsInside b layout

theorem has_header (h : img.isElf64 = true) : img.Has 0 64 := by
  simp only [isElf64, Bool.and_eq_true, decide_eq_true_eq] at h
  simpa [Has] using h.1.1

theorem avoids_segments {α : Type} {s : Loading} (hhead : img.Has 0 64) (hb : b.sealed = false)
    (hs : b.SameFrame s.block) {f : Loading → Except ElfFault α} (hf : ∀ t, f t ≠ .error .outside) :
    Avoids .outside
      (do
        let s ← s.call img layout (.markInvisible layout.invis)
        let phnum ← img.get 0 ePhnum
        let s ← (List.range phnum.toNat).foldlM (Loading.loadSegment img layout) s
        f s)
      (b.Bounded layout.invis →
        ∀ i < (img.val 0 ePhnum).toNat, (∀ j < i, img.SegmentLands b j) → img.SegmentInside b i) := by
  have hphnum : img.Sees 0 ePhnum := img.sees_header hhead (by decide)
  apply Avoids.congr ((checks_hide img layout hs hb layout.invis).bind_avoids ?_)
  · rw [true_and]
  intro _ t ht
  rw [(img.reads_get 0 ePhnum).inside hphnum, ok_bind]
  apply Avoids.andThen _ hf
  exact (checks_range (checks_loadSegment hphnum) _ ht).avoids

theorem avoids_elfLoad (hb : b.sealed = false) :
    Avoids .outside (elfLoad img layout b) (img.isElf64 = true → img.LoadInside b layout) := by
  unfold elfLoad
  by_cases helf : img.isElf64 = true
  · have hhead := has_header helf
    have hsame : b.SameFrame b := ⟨rfl, rfl⟩
    simp only [helf, Bool.not_true, Bool.false_eq_true, ↓reduceIte]
    rw [(img.reads_get 0 eEntry).inside (img.sees_header hhead (by decide)), ok_bind]
    suffices h : Avoids .outside (img.readSections >>= _)
        (img.SectionsInside ∧ img.SymbolsInside img.sectionTable.symtab ∧ img.SegmentsInside b layout) from
      h.congr ⟨fun h _ => ⟨h.1, h.2.1, h.2.2⟩,
        fun h => ⟨(h trivial).sections, (h trivial).symbols, (h trivial).segments⟩⟩
    apply (img.reads_readSections hhead).thenAvoids
    intro _
    apply (img.reads_readSymbols _).thenAvoids
    intro _
    by_cases hhide : HidesInvis b img.sectionTable.sections
    · obtain ⟨s, hrun, hs⟩ := hideInvis_hides img layout ⟨b, []⟩ hsame hb hhide
      rw [hrun, ok_bind]
      apply (avoids_segments hhead hb hs ?_).congr
      · exact ⟨fun h _ => h, fun h => h hhide⟩
      intro t
      apply bind_ne_error (fillInfo_ne_outside t _)
      intro u
      cases u with
      | inl text => exact fun h => nomatch h
      | inr u =>
        apply bind_ne_error (addStack_ne_outside u _)
        intro v
        apply bind_ne_error (addStack_ne_outside v _)
        intro w
        exact fun h => nomatch h
    · refine ⟨fun _ h => absurd h hhide, fun _ => ?_⟩
      rcases hideInvis_fails img layout ⟨b, []⟩ hsame hb hhide with ⟨text, hrun⟩ | ⟨d, hd, hrun⟩
      · rw [hrun]
        exact fun h => nomatch h
      · rw [hrun]
        intro h
        cases h
        exact hd rfl
  · rw [Bool.not_eq_true] at helf
    simp only [helf, Bool.not_false, ↓reduceIte]
    constructor
    · intro _ h
      cases h
    · intro _ h
      cases h

end Segments

structure ReadsInside (tpl : LayoutTemplate) : Prop where
  span : img.SpanInside
  load : ∀ h, Host.create img.span (Sha256.final (Sha256.update Sha256.init img.bytes)) tpl = .ok (.inr h) →
    img.isElf64 = true → img.LoadInside h.block h.layout

theorem create_unsealed {span : Range} {hash : Bytes 32} {tpl : LayoutTemplate} {h : Host}
    (hmade : Host.create span hash tpl = .ok (.inr h)) : h.block.sealed = false := by
  obtain ⟨b₀, b, layout, -, hnew, hb, rfl⟩ := Host.create_cases hmade
  rw [(Switch.activate hb).cases.2.1]
  obtain ⟨-, span, rfl⟩ := Block.new_cases hnew
  rfl

end Image

theorem loader_reads_inside_iff (img : Image) (tpl : LayoutTemplate) :
    hostNew img tpl ≠ .error .outside ↔ img.ReadsInside tpl := by
  suffices h : Avoids .outside (hostNew img tpl) (img.SpanInside ∧ ∀ h,
      Host.create img.span (Sha256.final (Sha256.update Sha256.init img.bytes)) tpl = .ok (.inr h) →
        img.isElf64 = true → img.LoadInside h.block h.layout) from
    h.congr ⟨fun h => ⟨h.1, h.2⟩, fun h => ⟨h.span, h.load⟩⟩
  apply img.reads_elfSpan.thenAvoids
  intro _
  cases hmade : Host.create img.span (Sha256.final (Sha256.update Sha256.init img.bytes)) tpl with
  | error c =>
    constructor
    · intro _ h hh
      cases hh
    · intro _ h
      cases h
  | ok r =>
    cases r with
    | inl text =>
      constructor
      · intro _ h hh
        cases hh
      · intro _ h
        cases h
    | inr h =>
      apply Avoids.andThen ((Image.avoids_elfLoad (Image.create_unsealed hmade)).congr ?_)
      · intro r hr
        cases r with
        | inl text => cases hr
        | inr u => cases hr
      · simp only [Except.ok.injEq, Sum.inr.injEq, forall_eq']

theorem empty_image_read : ∃ img : Image, img.bytes = [] ∧ ∀ tpl, hostNew img tpl = .error .outside := by
  refine ⟨⟨[], by decide⟩, rfl, ?_⟩
  intro tpl
  rfl

end MiniBox
