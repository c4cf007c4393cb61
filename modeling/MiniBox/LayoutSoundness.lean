import MiniBox.BlockMoves
import MiniBox.Host
import Mathlib.Order.CompletePartialOrder

namespace MiniBox

namespace Range

def cells (r : Range) : Set ℕ := Set.Ico r.start.toNat (r.start.toNat + r.size.toNat)

def Before (r r' : Range) : Prop := ∀ a ∈ r.cells, ∀ a' ∈ r'.cells, a < a'

def stack : UInt64 → List UInt64 → List Range
  | _, [] => []
  | s, x :: xs => ⟨s, x⟩ :: stack (s + x) xs

def total (xs : List UInt64) : ℕ := (xs.map UInt64.toNat).sum

@[simp] theorem total_nil : total [] = 0 := rfl
@[simp] theorem total_cons (x : UInt64) (xs : List UInt64) : total (x :: xs) = x.toNat + total xs := rfl

theorem mem_cells {r : Range} {a : ℕ} : a ∈ r.cells ↔ r.start.toNat ≤ a ∧ a < r.start.toNat + r.size.toNat := Iff.rfl

theorem mem_stack {s : UInt64} {xs : List UInt64} (h : s.toNat + total xs ≤ 2 ^ 64) (a : ℕ) :
    (∃ r ∈ stack s xs, a ∈ r.cells) ↔ s.toNat ≤ a ∧ a < s.toNat + total xs := by
  induction xs generalizing s with
  | nil =>
    simp only [stack, List.not_mem_nil, false_and, exists_false, total_nil, false_iff]
    omega
  | cons x xs ih =>
    rw [total_cons] at h ⊢
    have hsum : (s + x).toNat = (s.toNat + x.toNat) % 2 ^ 64 := UInt64.toNat_add s x
    have hrest := ih (s := s + x) (by omega)
    rw [stack, List.exists_mem_cons_iff, hrest, mem_cells]
    dsimp only
    omega

theorem pairwise_stack {s : UInt64} {xs : List UInt64} (h : s.toNat + total xs ≤ 2 ^ 64) :
    (stack s xs).Pairwise Before := by
  induction xs generalizing s with
  | nil => exact List.Pairwise.nil
  | cons x xs ih =>
    rw [total_cons] at h
    have hsum : (s + x).toNat = (s.toNat + x.toNat) % 2 ^ 64 := UInt64.toNat_add s x
    have hfits : (s + x).toNat + total xs ≤ 2 ^ 64 := by omega
    refine List.pairwise_cons.mpr ⟨?_, ih hfits⟩
    intro r hr a ha a' ha'
    have hrest := (mem_stack hfits a').mp ⟨r, hr, ha'⟩
    have hfirst := mem_cells.mp ha
    dsimp only at hfirst
    omega

theorem total_le {s : UInt64} {xs : List UInt64} (hin : ∀ r ∈ stack s xs, r.start.toNat + r.size.toNat ≤ 2 ^ 64)
    (hord : (stack s xs).Pairwise Before) : s.toNat + total xs ≤ 2 ^ 64 := by
  induction xs generalizing s with
  | nil =>
    have := s.toNat_lt
    simp only [total_nil]
    omega
  | cons x xs ih =>
    obtain ⟨hfirst, hord⟩ := List.pairwise_cons.mp hord
    have hx : s.toNat + x.toNat ≤ 2 ^ 64 := hin ⟨s, x⟩ List.mem_cons_self
    have hsum : (s + x).toNat = (s.toNat + x.toNat) % 2 ^ 64 := UInt64.toNat_add s x
    have hrest := ih (fun r hr => hin r (List.mem_cons_of_mem _ hr)) hord
    rw [total_cons]
    by_cases hend : s.toNat + x.toNat = 2 ^ 64
    -- the next range starts at address zero, so that it and all others have to be empty
    · by_contra hc
      have hzero : (s + x).toNat = 0 := by omega
      obtain ⟨r, hr, h0⟩ := (mem_stack hrest 0).mpr (by omega)
      have hlt := s.toNat_lt
      have := hfirst r hr s.toNat (mem_cells.mpr ⟨le_refl _, by dsimp only; omega⟩) 0 h0
      omega
    · omega

theorem toNat_foldl_add (s : UInt64) (xs : List UInt64) :
    (xs.foldl (· + ·) s).toNat = (s.toNat + total xs) % 2 ^ 64 := by
  induction xs generalizing s with
  | nil =>
    have := s.toNat_lt
    simp only [List.foldl_nil, total_nil]
    omega
  | cons x xs ih =>
    rw [List.foldl_cons, ih, UInt64.toNat_add, total_cons]
    omega

theorem chain_stack (s : UInt64) (xs : List UInt64) :
    (stack s xs).IsChain fun r r' => r'.start = r.rangeEnd := by
  induction xs generalizing s with
  | nil => exact List.IsChain.nil
  | cons x xs ih =>
    cases xs with
    | nil => exact List.IsChain.singleton _
    | cons y ys => exact List.IsChain.cons_cons rfl (ih (s + x))

theorem aligned_stack {s : UInt64} {xs : List UInt64} (hs : s.toNat % 4096 = 0) (hxs : ∀ x ∈ xs, x.toNat % 4096 = 0) :
    ∀ r ∈ stack s xs, r.start.toNat % 4096 = 0 ∧ r.size.toNat % 4096 = 0 := by
  induction xs generalizing s with
  | nil => simp [stack]
  | cons x xs ih =>
    obtain ⟨hx, hxs⟩ := List.forall_mem_cons.mp hxs
    have hsum : (s + x).toNat = (s.toNat + x.toNat) % 2 ^ 64 := UInt64.toNat_add s x
    refine List.forall_mem_cons.mpr ⟨⟨hs, hx⟩, ih ?_ hxs⟩
    omega

end Range

namespace Layout

open Range

def regions (l : Layout) : List Range :=
  [l.elf, l.mainThread, l.altThread, l.sbrk, l.sealedHeap, l.invis, l.plain, l.mmapArena]

structure Sound (l : Layout) (tpl : LayoutTemplate) : Prop where
  aligned : ∀ r ∈ l.regions, r.start.toNat % 4096 = 0 ∧ r.size.toNat % 4096 = 0
  contiguous : l.regions.IsChain fun r r' => r'.start = r.rangeEnd
  ordered : l.regions.Pairwise Before
  disjoint : l.regions.Pairwise fun r r' => Disjoint r.cells r'.cells
  granted : tpl.sbrkSize ≤ l.sbrk.size ∧ tpl.sealedSize ≤ l.sealedHeap.size ∧ tpl.invisSize ≤ l.invis.size ∧
    tpl.plainSize ≤ l.plain.size ∧ tpl.mmapSize ≤ l.mmapArena.size
  union : ⋃ r ∈ l.regions, r.cells = l.all.cells
  oneRegion : ∀ a ∈ l.all.cells, a / 2 ^ 32 = l.all.start.toNat / 2 ^ 32

def roundUp (size : UInt64) : ℕ := (size.toNat + 4095) / 4096 * 4096

def Fits (elf : Range) (tpl : LayoutTemplate) : Prop :=
  elf.start.toNat + elf.size.toNat + 2 * 2 ^ 20 + roundUp tpl.sbrkSize + roundUp tpl.sealedSize +
    roundUp tpl.invisSize + roundUp tpl.plainSize + roundUp tpl.mmapSize ≤ 2 ^ 64

instance (elf : Range) (tpl : LayoutTemplate) : Decidable (Fits elf tpl) := inferInstanceAs (Decidable (_ ≤ _))

def sizes (elf : Range) (tpl : LayoutTemplate) : List UInt64 :=
  [elf.size, alignUp 0x100000, alignUp 0x100000, alignUp tpl.sbrkSize, alignUp tpl.sealedSize, alignUp tpl.invisSize,
    alignUp tpl.plainSize, alignUp tpl.mmapSize]

theorem regions_build (elf : Range) (tpl : LayoutTemplate) :
    (build elf tpl).regions = stack elf.start (sizes elf tpl) := rfl

theorem toNat_alignUp_eq (x : UInt64) : (alignUp x).toNat = roundUp x % 2 ^ 64 := toNat_alignUp x

theorem le_alignUp_iff (x : UInt64) : x ≤ alignUp x ↔ roundUp x < 2 ^ 64 := by
  have hx := x.toNat_lt
  rw [UInt64.le_iff_toNat_le, toNat_alignUp]
  unfold roundUp
  omega

theorem total_sizes (elf : Range) (tpl : LayoutTemplate) :
    total (sizes elf tpl) = elf.size.toNat + 2 * 2 ^ 20 + roundUp tpl.sbrkSize % 2 ^ 64 +
      roundUp tpl.sealedSize % 2 ^ 64 + roundUp tpl.invisSize % 2 ^ 64 + roundUp tpl.plainSize % 2 ^ 64 +
      roundUp tpl.mmapSize % 2 ^ 64 := by
  have hthread : (alignUp 0x100000).toNat = 2 ^ 20 := by decide
  simp only [sizes, total_cons, total_nil, toNat_alignUp_eq, hthread]
  omega

section Build

variable {elf : Range} {tpl : LayoutTemplate}

theorem aligned_sizes (he : elf.size.toNat % 4096 = 0) : ∀ x ∈ sizes elf tpl, x.toNat % 4096 = 0 := by
  have hup : ∀ x : UInt64, (alignUp x).toNat % 4096 = 0 := by
    intro x
    rw [toNat_alignUp]
    omega
  simp only [sizes, List.forall_mem_cons, he, hup, List.not_mem_nil, false_imp_iff, implies_true, and_self]

theorem Fits.total_le (h : Fits elf tpl) :
    elf.start.toNat + total (sizes elf tpl) ≤ 2 ^ 64 ∧ roundUp tpl.sbrkSize < 2 ^ 64 ∧
      roundUp tpl.sealedSize < 2 ^ 64 ∧ roundUp tpl.invisSize < 2 ^ 64 ∧ roundUp tpl.plainSize < 2 ^ 64 ∧
      roundUp tpl.mmapSize < 2 ^ 64 := by
  unfold Fits at h
  rw [total_sizes]
  omega

theorem rangeEnd_all (l : Layout) : l.all.rangeEnd = l.mmapArena.rangeEnd := by
  unfold all
  generalize l.mmapArena.rangeEnd = e
  unfold rangeEnd
  rw [UInt64.add_comm, UInt64.sub_add_cancel]

theorem all_build (elf : Range) (tpl : LayoutTemplate) :
    (build elf tpl).all = ⟨elf.start, (build elf tpl).mmapArena.rangeEnd - elf.start⟩ := rfl

theorem toNat_rangeEnd_build (elf : Range) (tpl : LayoutTemplate) :
    (build elf tpl).mmapArena.rangeEnd.toNat = (elf.start.toNat + total (sizes elf tpl)) % 2 ^ 64 := by
  rw [← toNat_foldl_add]
  simp only [build, behind, rangeEnd, sizes, List.foldl_cons, List.foldl_nil]

theorem region_of_check {s e : UInt64} {n : ℕ} (hn : 0 < n) (hfits : s.toNat + n ≤ 2 ^ 64)
    (he : e.toNat = (s.toNat + n) % 2 ^ 64) (hcheck : s >>> 32 = (e - 1) >>> 32) :
    s.toNat / 2 ^ 32 = (s.toNat + n - 1) / 2 ^ 32 ∧ (e - s).toNat = n := by
  have hshift : ∀ a : UInt64, (a >>> 32).toNat = a.toNat / 2 ^ 32 := by
    intro a
    simp [UInt64.toNat_shiftRight, Nat.shiftRight_eq_div_pow]
  have hpred : (e - 1).toNat = (e.toNat + (2 ^ 64 - 1)) % 2 ^ 64 := by
    rw [UInt64.toNat_sub, Nat.add_comm]
    rfl
  have hregion := congrArg UInt64.toNat hcheck
  rw [hshift, hshift, hpred, he] at hregion
  rw [UInt64.toNat_sub, he]
  have := s.toNat_lt
  omega

theorem sound_of_fits (hstart : elf.start.toNat % 4096 = 0) (hsize : elf.size.toNat % 4096 = 0)
    (hcheck : (build elf tpl).all.start >>> 32 = ((build elf tpl).all.rangeEnd - 1) >>> 32)
    (hfits : Fits elf tpl) : (build elf tpl).Sound tpl := by
  obtain ⟨htotal, hsbrk, hsealed, hinvis, hplain, hmmap⟩ := hfits.total_le
  have hpos : 0 < total (sizes elf tpl) := by
    rw [total_sizes]
    omega
  rw [rangeEnd_all, all_build] at hcheck
  obtain ⟨hregion, hall⟩ := region_of_check hpos htotal (toNat_rangeEnd_build elf tpl) hcheck
  have hcells : (build elf tpl).all.cells = Set.Ico elf.start.toNat (elf.start.toNat + total (sizes elf tpl)) := by
    rw [all_build, cells, hall]
  have hordered : (build elf tpl).regions.Pairwise Before := by
    rw [regions_build]
    exact pairwise_stack htotal
  refine ⟨?_, ?_, hordered, hordered.imp ?_, ?_, ?_, ?_⟩
  · rw [regions_build]
    exact aligned_stack hstart (aligned_sizes hsize)
  · rw [regions_build]
    exact chain_stack _ _
  · intro r r' hbefore
    rw [Set.disjoint_left]
    intro a ha ha'
    exact lt_irrefl a (hbefore a ha a ha')
  · exact ⟨(le_alignUp_iff _).mpr hsbrk, (le_alignUp_iff _).mpr hsealed, (le_alignUp_iff _).mpr hinvis,
      (le_alignUp_iff _).mpr hplain, (le_alignUp_iff _).mpr hmmap⟩
  · ext a
    rw [hcells, Set.mem_iUnion₂, Set.mem_Ico, ← mem_stack htotal a, regions_build]
    simp only [exists_prop]
  · intro a ha
    rw [hcells, Set.mem_Ico] at ha
    rw [all_build]
    dsimp only
    omega

theorem fits_of_sound (h : (build elf tpl).Sound tpl) : Fits elf tpl := by
  have hin : ∀ r ∈ stack elf.start (sizes elf tpl), r.start.toNat + r.size.toNat ≤ 2 ^ 64 := by
    intro r hr
    by_cases hz : r.size.toNat = 0
    · have := r.start.toNat_lt
      omega
    · have hlast : r.start.toNat + r.size.toNat - 1 ∈ r.cells := by
        rw [mem_cells]
        omega
      have hmem : r.start.toNat + r.size.toNat - 1 ∈ (build elf tpl).all.cells := by
        rw [← h.union, regions_build]
        exact Set.mem_iUnion₂.mpr ⟨r, hr, hlast⟩
      have hregion := h.oneRegion _ hmem
      have := (build elf tpl).all.start.toNat_lt
      omega
  have hordered := h.ordered
  rw [regions_build] at hordered
  have htotal := Range.total_le hin hordered
  obtain ⟨hsbrk, hsealed, hinvis, hplain, hmmap⟩ := h.granted
  have hsbrk := (le_alignUp_iff _).mp hsbrk
  have hsealed := (le_alignUp_iff _).mp hsealed
  have hinvis := (le_alignUp_iff _).mp hinvis
  have hplain := (le_alignUp_iff _).mp hplain
  have hmmap := (le_alignUp_iff _).mp hmmap
  rw [total_sizes, Nat.mod_eq_of_lt hsbrk, Nat.mod_eq_of_lt hsealed, Nat.mod_eq_of_lt hinvis, Nat.mod_eq_of_lt hplain,
    Nat.mod_eq_of_lt hmmap] at htotal
  unfold Fits
  omega

end Build

theorem aligned_alignExpand (r : Range) :
    r.alignExpand.start.toNat % 4096 = 0 ∧ r.alignExpand.size.toNat % 4096 = 0 := by
  have hstart : r.alignExpand.start.toNat = r.start.toNat - r.start.toNat % 4096 := toNat_alignDown r.start
  have hsize : r.alignExpand.size.toNat =
      (2 ^ 64 - r.alignExpand.start.toNat + (alignUp r.rangeEnd).toNat) % 2 ^ 64 := UInt64.toNat_sub _ _
  rw [toNat_alignUp] at hsize
  have := r.start.toNat_lt
  omega

end Layout

open Layout Outcomes

def regionError : String := "HostMemoryLayout must fit into a single 4GiB region"

theorem check_of_create {span : Range} {hash : ByteStream.Bytes 32} {tpl : LayoutTemplate}
    (h : Host.create span hash tpl ≠ .ok (.inl regionError)) :
    (build span.alignExpand tpl).all.start >>> 32 = ((build span.alignExpand tpl).all.rangeEnd - 1) >>> 32 := by
  by_contra hne
  apply h
  unfold Host.create
  exact if_pos hne

theorem addr_new {addr : Range} {b : Block} (h : Block.new addr = .ok (some b)) : b.addr = addr := by
  obtain ⟨-, span, rfl⟩ := Block.new_cases h
  rfl

theorem create_layout {span : Range} {hash : ByteStream.Bytes 32} {tpl : LayoutTemplate} {h : Host}
    (hmade : Host.create span hash tpl = .ok (.inr h)) :
    h.layout = build span.alignExpand tpl ∧ h.block.addr = h.layout.all := by
  obtain ⟨b₀, b, layout, rfl, hnew, hb, rfl⟩ := Host.create_cases hmade
  exact ⟨rfl, (Switch.activate hb).cases.1.trans (addr_new hnew)⟩

theorem layout_sound_iff {span : Range} {hash : ByteStream.Bytes 32} {tpl : LayoutTemplate}
    (h : Host.create span hash tpl ≠ .ok (.inl regionError)) :
    (build span.alignExpand tpl).Sound tpl ↔ Fits span.alignExpand tpl := by
  obtain ⟨hstart, hsize⟩ := aligned_alignExpand span
  constructor
  · exact fits_of_sound
  · exact sound_of_fits hstart hsize (check_of_create h)

theorem exists_created (span : Range) (hash : ByteStream.Bytes 32) (tpl : LayoutTemplate)
    (hrun : passes (do return (← Host.create span hash tpl).isRight) = true) :
    ∃ h : Host, Host.create span hash tpl = .ok (.inr h) ∧ h.layout = build span.alignExpand tpl ∧
      h.block.addr = h.layout.all := by
  obtain ⟨r, hmade, hright⟩ := passes_bind hrun
  obtain ⟨h, rfl⟩ := Sum.isRight_iff.mp hright
  exact ⟨h, hmade, create_layout hmade⟩

theorem layout_sound_small : ∃ (span : Range) (tpl : LayoutTemplate) (h : Host),
    Host.create span (ByteStream.zeroes 32) tpl = .ok (.inr h) ∧ h.block.addr.size = 0x25d000 ∧ h.layout.Sound tpl := by
  obtain ⟨h, hmade, hlayout, haddr⟩ := exists_created ⟨0x36f00000123, 0x1234⟩ (ByteStream.zeroes 32)
    ⟨0x10000, 0x10000, 1, 0, 0x3a000⟩ (by decide +kernel)
  refine ⟨_, _, h, hmade, ?_, ?_⟩
  · rw [haddr, hlayout]
    decide
  · rw [hlayout]
    have hcheck : Host.create ⟨0x36f00000123, 0x1234⟩ (ByteStream.zeroes 32) ⟨0x10000, 0x10000, 1, 0, 0x3a000⟩ ≠
        .ok (.inl regionError) := by
      rw [hmade]
      simp
    exact (layout_sound_iff hcheck).mpr (by decide)

theorem layout_unsound_halves : ∃ (span : Range) (tpl : LayoutTemplate) (h : Host),
    Host.create span (ByteStream.zeroes 32) tpl = .ok (.inr h) ∧ h.block.addr.size < h.layout.sbrk.size ∧
      ¬ h.layout.Sound tpl := by
  obtain ⟨h, hmade, hlayout, haddr⟩ := exists_created ⟨0x36f00000000, 0x1000⟩ (ByteStream.zeroes 32)
    ⟨0x8000000000000000, 0x8000000000000000, 0, 0, 0⟩ (by decide +kernel)
  refine ⟨_, _, h, hmade, ?_, ?_⟩
  · rw [haddr, hlayout]
    decide
  · rw [hlayout]
    intro hsound
    exact absurd (fits_of_sound hsound) (by decide)

end MiniBox
