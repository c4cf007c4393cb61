import MiniBox.HostRuns
import MiniBox.LoadedImage

namespace MiniBox

open ByteStream CheckedReads Effects IndexLoops Outcomes Overlays Relation

namespace Block

variable {b : Block} {c : Canvas} {a : UInt64}

theorem sealPage_shows (p : Page) :
    (sealPage p).status = p.status ∧ (sealPage p).invisible = p.invisible ∧ (sealPage p).data = p.data := by
  unfold sealPage
  split_ifs
  · exact ⟨rfl, rfl, rfl⟩
  · exact ⟨rfl, rfl, rfl⟩

theorem sealBlock_shows (hs : b.Shows c) (hu : b.sealed = false) :
    ∃ b', b.sealBlock = .ok (0, b') ∧ b'.addr = b.addr ∧ b'.Shows c := by
  have hrun : ∃ b', b.sealBlock = .ok (0, b') := by
    unfold sealBlock
    rw [if_neg (by simp [hu]), forRange_eq _ _ _ _ _ _ (by omega), ok_bind]
    change ∃ b', (b.mapPages 0 b.npages sealPage).refreshAll >>= _ = _
    rw [refreshAll_eq]
    exact ⟨_, rfl⟩
  obtain ⟨b', hrun⟩ := hrun
  obtain ⟨-, haddr, -, -, hpage⟩ := sealBlock_cases hu hrun
  have hn : b'.npages = b.npages := by
    rw [npages, haddr]
    rfl
  have hstart : ∀ i, b'.pageStart i = b.pageStart i := by
    intro i
    rw [pageStart, haddr]
    rfl
  refine ⟨b', hrun, haddr, ?_, ?_, ?_⟩
  · intro i hi
    rw [hn] at hi
    rw [hpage i hi, sync_status, (sealPage_shows _).1, hstart, hs.status i hi]
  · intro i hi
    rw [hn] at hi
    rw [hpage i hi, sync_invisible, (sealPage_shows _).2.1, hstart, hs.hidden i hi]
  · intro i hi k
    rw [hn] at hi
    rw [hpage i hi, sync_data, (sealPage_shows _).2.2, hstart, hs.byte i hi k]

theorem pageStart_pageOf (hm : b.mapped a = true) :
    b.pageStart (b.pageOf a) = a.toNat / 4096 * 4096 ∧ b.pageStart (b.pageOf a) + (offsetOf a).val = a.toNat := by
  have hstart := (eq_alignDown_iff _).mp b.span.start_aligned
  simp only [mapped, Range.contains, Bool.and_eq_true, decide_eq_true_eq] at hm
  have hle := UInt64.le_iff_toNat_le.mp hm.2.1
  have hoff : (offsetOf a).val = a.toNat % 4096 := rfl
  rw [pageStart, pageOf_eq hle, hoff]
  omega

structure Open (b : Block) (a : UInt64) : Prop where
  exact : b.Exact
  mapped : b.mapped a = true
  readable : (grants (b.pages (b.pageOf a)).status).read = true
  writable : (grants (b.pages (b.pageOf a)).status).write = true

theorem Open.of_shows (hs : b.Shows c) (he : b.Exact) (hm : b.mapped a = true)
    (hr : (grants (c.status (a.toNat / 4096 * 4096))).read = true)
    (hw : (grants (c.status (a.toNat / 4096 * 4096))).write = true) : b.Open a := by
  have hstatus := hs.status _ (pageOf_lt hm)
  rw [(pageStart_pageOf hm).1] at hstatus
  rw [← hstatus] at hr hw
  exact ⟨he, hm, hr, hw⟩

theorem Open.guestRead (ho : b.Open a) : b.guestRead a = .ok ((b.pages (b.pageOf a)).data (offsetOf a)) := by
  unfold Block.guestRead
  rw [(ho.exact.native _ (pageOf_lt ho.mapped)).native_eq, ho.mapped]
  exact if_pos ho.readable

theorem Open.guestRead_shows (ho : b.Open a) (hs : b.Shows c) : b.guestRead a = .ok (c.byte a.toNat) := by
  rw [ho.guestRead, hs.byte _ (pageOf_lt ho.mapped), (pageStart_pageOf ho.mapped).2]

theorem Open.guestWrite (ho : b.Open a) (v : UInt8) :
    ∃ b', b.guestWrite a v = .ok b' ∧ b'.guestRead a = .ok v := by
  have hexact := ho.exact.native _ (pageOf_lt ho.mapped)
  have hrun : b.guestWrite a v = .ok (b.setPage (b.pageOf a) ((b.pages (b.pageOf a)).written (offsetOf a) v)) := by
    rw [guestWrite_eq, if_pos ho.mapped, hexact.writable, if_pos ho.writable]
  obtain ⟨hdata, hstatus⟩ := written_plain (b.pages (b.pageOf a)) (offsetOf a) v
  have hexact' := ho.exact.moves (guestWrite_moves hrun)
  generalize (b.pages (b.pageOf a)).written (offsetOf a) v = p at hrun hdata hstatus hexact'
  have hpage : (b.setPage (b.pageOf a) p).pages ((b.setPage (b.pageOf a) p).pageOf a) = p :=
    Function.update_self _ _ _
  have hopen : (b.setPage (b.pageOf a) p).Open a := by
    refine ⟨hexact', ho.mapped, ?_, ?_⟩
    · rw [hpage, hstatus]
      exact ho.readable
    · rw [hpage, hstatus]
      exact ho.writable
  refine ⟨_, hrun, ?_⟩
  rw [hopen.guestRead, hpage, hdata, Function.update_self]

end Block

section Create

variable {img : Image} {tpl : LayoutTemplate} {h : Host}

theorem Image.HeadersInside.span (h : img.HeadersInside) (helf : img.isElf64 = true) : img.SpanInside := by
  refine ⟨img.sees_header (has_header helf) (by decide), ?_⟩
  intro i hi
  have hsees := (h i (List.mem_range.mpr hi)).1
  exact ⟨hsees pVaddr (by simp), fun _ => hsees pMemsz (by simp)⟩

theorem hostNew_sealed (hheaders : img.HeadersInside)
    (hmade : Host.create img.span (Sha256.final (Sha256.update Sha256.init img.bytes)) tpl = .ok (.inr h))
    (hfits : Layout.Fits img.span.alignExpand tpl) (hend : h.layout.all.NoWrap) (hwf : img.WellFormed)
    (hacc : img.Accepted h.block h.layout) :
    ∃ elf h₀ b, hostNew img tpl = .ok (.inr (h₀, elf)) ∧
      h₀.sealHost = .ok (0, none, { h with block := b, sealed := true }) ∧ b.addr = h.layout.all ∧ b.Exact ∧
      b.Shows (img.loaded h.layout) := by
  obtain ⟨s, hload, hpaints⟩ := Image.elfLoad_created hmade hfits hend hwf hacc
  have hnew : ∃ elf, hostNew img tpl = .ok (.inr ({ h with block := s.block }, elf)) := by
    unfold hostNew
    rw [img.reads_elfSpan.inside (hheaders.span hacc.isElf), ok_bind, hmade]
    simp only [crashes, ok_bind, hload]
    exact ⟨_, rfl⟩
  obtain ⟨elf, hnew⟩ := hnew
  obtain ⟨hstart, hunsealed⟩ := Host.hostNew_start hnew
  obtain ⟨b, hrun, haddr, hshows⟩ := Block.sealBlock_shows hpaints.shows hunsealed.raw.unsealed
  refine ⟨elf, _, b, hnew, ?_, ?_, exact_sealBlock hstart.resident.swappedIn hunsealed.raw.unsealed hrun, hshows⟩
  · unfold Host.sealHost
    rw [if_neg (by rw [hunsealed.unsealed]; exact Bool.false_ne_true)]
    change s.block.sealBlock >>= _ = _
    rw [hrun]
    rfl
  · rw [haddr, hpaints.frame.addr]
    exact (create_layout hmade).2

end Create

section OnePage

def onePageImage : Image where
  bytes := elfHeader 0x36f00000008 0 1 0 ++ programHeader 7 120 0x36f00000000 2 0x1000 ++ ascii "f" ++ [0]
  small := by decide +kernel

theorem onePageImage_wellFormed : onePageImage.WellFormed :=
  ⟨by decide +kernel, by decide +kernel, by decide +kernel, by decide +kernel, by decide +kernel⟩

theorem onePageImage_accepted (b : Block) (layout : Layout) : onePageImage.Accepted b layout :=
  ⟨by decide +kernel, Image.loadInside_of (by decide +kernel) (by decide +kernel) (by decide +kernel) b layout,
    by decide +kernel, by decide +kernel⟩

theorem onePageImage_byte (layout : Layout) {a : ℕ} (ha : 0x36f00000000 ≤ a) :
    (onePageImage.loaded layout).byte a = if a = 0x36f00000000 then 0x66 else 0 := by
  have hinfo : onePageImage.infoArea.start = 0 := by decide +kernel
  have hheaders : onePageImage.headers = [0] := by decide +kernel
  have hloads : onePageImage.Loads 0 := by decide +kernel
  have hvaddr : (onePageImage.val (onePageImage.ph 0) pVaddr).toNat = 0x36f00000000 := by decide +kernel
  have hslice : onePageImage.slice (onePageImage.val (onePageImage.ph 0) pOffset)
      (onePageImage.val (onePageImage.ph 0) pFilesz) = [0x66, 0] := by decide +kernel
  have hbyte : onePageImage.segmentByte 0 a = written 0x36f00000000 [0x66, 0] a := by
    rw [Image.segmentByte, if_pos hloads, hvaddr, hslice]
  change ((onePageImage.infoByte layout) a).getD (latest onePageImage.segmentByte onePageImage.headers (fun _ => 0) a) = _
  rw [Image.infoByte, if_neg fun h => h.1 hinfo, hheaders, Option.getD_none, ← List.nil_append [0], latest_concat,
    latest_nil, paint, hbyte, written, if_pos ha]
  obtain ⟨k, rfl⟩ := Nat.exists_eq_add_of_le ha
  rw [Nat.add_sub_cancel_left]
  rcases k with _ | _ | k
  · rfl
  · rfl
  · exact (if_neg (by omega)).symm

def onePageTemplate : LayoutTemplate := ⟨0x10000, 0x10000, 1, 0, 0x3a000⟩

theorem onePage_sealed : ∃ elf h₀ s, hostNew onePageImage onePageTemplate = .ok (.inr (h₀, elf)) ∧
    h₀.sealHost = .ok (0, none, s) ∧ s.sealed = true ∧ s.active = true ∧ s.threads = ThreadSet.new ∧ s.fs = Fs.new ∧
    ∀ a : UInt64, 0x36f00000000 ≤ a.toNat → a.toNat < 0x36f00001000 → s.block.Open a ∧
      (s.block.pages (s.block.pageOf a)).invisible = false ∧
      s.block.guestRead a = .ok (if a = 0x36f00000000 then 0x66 else 0) := by
  obtain ⟨h, hmade, hlayout, haddr⟩ := exists_created onePageImage.span
    (Sha256.final (Sha256.update Sha256.init onePageImage.bytes)) onePageTemplate (by decide +kernel)
  have hend : h.layout.all.NoWrap := by
    rw [hlayout]
    decide +kernel
  obtain ⟨elf, h₀, b, hnew, hseal, hall, hexact, hshows⟩ := hostNew_sealed (by decide +kernel) hmade (by decide +kernel)
    hend onePageImage_wellFormed (onePageImage_accepted _ _)
  have hstart : b.addr.start.toNat = 0x36f00000000 ∧ 0x36f00001000 ≤ b.addr.rangeEnd.toNat := by
    rw [hall, hlayout]
    decide +kernel
  have hstatus : (onePageImage.loaded h.layout).status 0x36f00000000 = 0x07 := by
    rw [hlayout]
    decide +kernel
  have hhidden : (onePageImage.loaded h.layout).hidden 0x36f00000000 = false := by
    rw [hlayout]
    decide +kernel
  obtain ⟨b₀, b₁, layout, -, -, -, rfl⟩ := Host.create_cases hmade
  refine ⟨elf, h₀, _, hnew, hseal, rfl, rfl, rfl, rfl, ?_⟩
  intro a hle hlt
  have hm : b.mapped a = true := by
    simp only [Block.mapped, Range.contains, hexact.swappedIn, Bool.true_and, Bool.and_eq_true, decide_eq_true_eq,
      UInt64.le_iff_toNat_le, UInt64.lt_iff_toNat_lt]
    omega
  have hpage : a.toNat / 4096 * 4096 = 0x36f00000000 := by omega
  have hopen : b.Open a := by
    apply Block.Open.of_shows hshows hexact hm
    · rw [hpage, hstatus]
      rfl
    · rw [hpage, hstatus]
      rfl
  refine ⟨hopen, ?_, ?_⟩
  · rw [hshows.hidden _ (pageOf_lt hm), (Block.pageStart_pageOf hm).1, hpage, hhidden]
  · rw [hopen.guestRead_shows hshows, onePageImage_byte _ hle]
    by_cases ha : a = 0x36f00000000
    · rw [if_pos ha, ha]
      rfl
    · rw [if_neg ha, if_neg]
      intro heq
      exact ha (UInt64.toNat_inj.mp heq)

end OnePage

end MiniBox
