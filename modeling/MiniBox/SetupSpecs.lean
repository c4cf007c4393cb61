import MiniBox.BlockMoves

namespace MiniBox

open ByteStream IndexLoops Outcomes

variable {b b' : Block}

theorem copyInto_untouched {off i : ℕ} {src : List UInt8} (p : Page)
    (h : ∀ k : Fin 4096, off ≤ i * 4096 + k → off + src.length ≤ i * 4096 + k) :
    Block.copyInto off i src p = p := by
  have hd : (Block.copyInto off i src p).data = p.data := by
    funext k
    simp only [Block.copyInto]
    split_ifs with hk
    · have := h k hk
      rw [List.getElem?_eq_none (by omega)]
      rfl
    · rfl
  cases p
  simp only [Block.copyInto, Page.mk.injEq, true_and, and_true] at hd ⊢
  exact hd

theorem copy_range {start : UInt64} {len ps pc i : ℕ} (hfit : (start - b.addr.start).toNat + len ≤ b.npages * 4096)
    (hv : b.validate (Range.alignExpand ⟨start, UInt64.ofNat len⟩) = some (ps, pc)) (k : Fin 4096)
    (h1 : (start - b.addr.start).toNat ≤ i * 4096 + k)
    (h2 : i * 4096 + k < (start - b.addr.start).toNat + len) : ps ≤ i ∧ i < ps + pc := by
  have hwrap := b.span.no_wrap
  have hsize := b.addr.size.toNat_lt
  rw [Block.npages, npages_eq] at hfit
  have hlen : (UInt64.ofNat len).toNat = len :=
    UInt64.toNat_ofNat_of_lt' (by rw [show UInt64.size = 2 ^ 64 from rfl]; omega)
  have hend : (Range.rangeEnd ⟨start, UInt64.ofNat len⟩).toNat = (start.toNat + len) % 2 ^ 64 := by
    rw [Range.rangeEnd, UInt64.toNat_add, hlen]
  unfold Block.validate validate Range.alignExpand at hv
  split_ifs at hv with hc
  push Not at hc
  obtain ⟨hle, -, hsz, -, -⟩ := hc
  simp only [Option.some.injEq, Prod.mk.injEq, toNat_shiftRight_page] at hv hsz hle
  have hle' : b.addr.start.toNat ≤ (alignDown start).toNat := UInt64.le_iff_toNat_le.mp (by simpa using hle)
  have hsz' : (alignUp (Range.rangeEnd ⟨start, UInt64.ofNat len⟩) - alignDown start).toNat ≠ 0 :=
    fun h0 => hsz (UInt64.toNat_inj.mp h0)
  have ha := (eq_alignDown_iff _).mp b.span.start_aligned
  have hs := start.toNat_lt
  rw [UInt64.toNat_sub_of_le _ _ (UInt64.le_iff_toNat_le.mpr hle'), toNat_alignDown] at hv
  rw [toNat_alignDown] at hle'
  rw [UInt64.toNat_sub_of_le _ _ (UInt64.le_iff_toNat_le.mpr (by omega))] at h1 h2 hfit
  rw [UInt64.toNat_sub, toNat_alignUp, toNat_alignDown, hend] at hv hsz'
  have hk := k.isLt
  omega

theorem copyFromExternal_cases {src : List UInt8} {start : UInt64} {r : ℤ}
    (h : b.copyFromExternal src start = .ok (r, b')) :
    b' = b ∨ ∃ ps pc, b.validate (Range.alignExpand ⟨start, UInt64.ofNat src.length⟩) = some (ps, pc) ∧
      ps + pc ≤ b.npages ∧ ∃ f : ℕ → Page → PageData, b' = b.withPages fun i =>
        if ps ≤ i ∧ i < ps + pc then { b.pages i with dirty := true, data := f i (b.pages i) } else b.pages i := by
  unfold Block.copyFromExternal at h
  cases hv : b.validate (Range.alignExpand ⟨start, UInt64.ofNat src.length⟩) with
  | none =>
    rw [hv] at h
    exact Or.inl (block_of_ok h).symm
  | some q =>
    rw [hv] at h
    obtain ⟨pages, hp, hm⟩ := bind_ok h
    obtain ⟨c, hc, hr⟩ := bind_ok hm
    obtain rfl := block_of_ok hr
    have hpos := validate_pos hv
    have hb : q.1 + q.2 ≤ b.npages := by
      by_contra hlt
      rw [forRange_error _ _ _ _ _ _ hpos (by omega)] at hp
      cases hp
    rw [forRange_eq _ _ _ _ _ _ hb] at hp
    cases hp
    unfold Block.mirrorCopy at hc
    split_ifs at hc with hfit
    cases hc
    refine Or.inr ⟨q.1, q.2, rfl, hb,
      fun i p => (Block.copyInto (start - b.addr.start).toNat i src p).data, ?_⟩
    apply congrArg b.withPages
    funext i
    rw [withPages_pages]
    split_ifs with hi
    · rw [mapRange_mem _ _ _ _ _ hi]
      rfl
    · rw [mapRange_not_mem _ _ _ _ _ hi]
      refine copyInto_untouched _ fun k h1 => ?_
      by_contra h2
      exact hi (copy_range hfit hv k h1 (by omega))

theorem markInvisible_cases {addr : Range} {r : ℤ} (h : b.markInvisible addr = .ok (r, b')) :
    b' = b ∨ ∃ ps pc, ps + pc ≤ b.npages ∧ b' = b.mapPages ps pc fun p => b.sync (Block.hidePage p) := by
  unfold Block.markInvisible at h
  split_ifs at h
  · exact Or.inl (block_of_ok h).symm
  cases hv : b.validate addr with
  | none =>
    rw [hv] at h
    exact Or.inl (block_of_ok h).symm
  | some q =>
    rw [hv] at h
    obtain ⟨pages, hp, hm⟩ := bind_ok h
    obtain ⟨c, hc, hr⟩ := bind_ok hm
    obtain rfl := block_of_ok hr
    have hb : q.1 + q.2 ≤ b.npages := by
      by_contra hlt
      rw [forRange_error _ _ _ _ _ _ (validate_pos hv) (by omega)] at hp
      cases hp
    rw [forRange_eq _ _ _ _ _ _ hb] at hp
    cases hp
    change (b.mapPages q.1 q.2 Block.hidePage).refreshRange q.1 q.2 = _ at hc
    rw [refreshRange_eq (b.mapPages q.1 q.2 Block.hidePage) q.1 q.2 hb] at hc
    cases hc
    exact Or.inr ⟨q.1, q.2, hb, mapPages_mapPages b q.1 q.2 Block.hidePage b.sync⟩

theorem sealBlock_cases {r : ℤ} (hs : b.sealed = false) (h : b.sealBlock = .ok (r, b')) :
    r = 0 ∧ b'.addr = b.addr ∧ b'.sealed = true ∧ b'.swappedIn = b.swappedIn ∧
      ∀ i, i < b.npages → b'.pages i = b.sync (Block.sealPage (b.pages i)) := by
  unfold Block.sealBlock at h
  rw [if_neg (by simp [hs]), forRange_eq _ _ _ _ _ _ (by omega), ok_bind] at h
  change (b.mapPages 0 b.npages Block.sealPage).refreshAll >>= _ = _ at h
  rw [refreshAll_eq, ok_bind] at h
  cases h
  refine ⟨rfl, rfl, rfl, rfl, fun i hi => ?_⟩
  have hin : 0 ≤ i ∧ i < 0 + b.npages := by omega
  change mapRange b.sync 0 b.npages (mapRange Block.sealPage 0 b.npages b.pages) i = _
  rw [mapRange_mapRange, mapRange_mem _ _ _ _ _ hin]
  rfl

end MiniBox
