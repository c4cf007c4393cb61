import MiniBox.BaselineInvariant
import MiniBox.MemoryEdits

namespace MiniBox

open ByteStream IndexLoops Outcomes

namespace Block

variable {b b' : Block} {a n m : UInt64}

structure Resizable (b : Block) (a n m : UInt64) : Prop where
  old : Range.Within ⟨a, n⟩ b.addr
  target : Range.Within ⟨a, m⟩ b.addr
  old_noWrap : Range.NoWrap ⟨a, n⟩
  target_noWrap : Range.NoWrap ⟨a, m⟩
  allocated : ∀ p, b.pageOf a ≤ p → p < b.pageOf a + n.toNat / 4096 → b.isFree p = false

def TailFree (b : Block) (a n m : UInt64) : Prop :=
  ∀ p, b.pageOf a + n.toNat / 4096 ≤ p → p < b.pageOf a + m.toNat / 4096 → b.isFree p = true

def TailZero (b : Block) (a n m : UInt64) : Prop :=
  ∀ p, b.pageOf a + n.toNat / 4096 ≤ p → p < b.pageOf a + m.toNat / 4096 → (b.pages p).data = zeroes 4096

structure Resized (b b' : Block) (a n m : UInt64) : Prop where
  grown : ∀ p, b.pageOf a + n.toNat / 4096 ≤ p → p < b.pageOf a + m.toNat / 4096 →
    (b'.pages p).status = (b.pages (b.pageOf a)).status
  freed : ∀ p, b.pageOf a + m.toNat / 4096 ≤ p → p < b.pageOf a + n.toNat / 4096 →
    (b'.pages p).status = stFree ∧ (b'.pages p).data = zeroes 4096
  others : ∀ p, ¬ (b.pageOf a + n.toNat / 4096 ≤ p ∧ p < b.pageOf a + m.toNat / 4096) →
    ¬ (b.pageOf a + m.toNat / 4096 ≤ p ∧ p < b.pageOf a + n.toNat / 4096) → b'.pages p = b.pages p

def SameMemory (b b' : Block) : Prop :=
  ∀ p, (b'.pages p).status = (b.pages p).status ∧ (b'.pages p).data = (b.pages p).data

structure Resizes (b : Block) (a n m : UInt64) : Prop where
  succeeds : b.TailFree a n m → ∃ b', b.mremap ⟨a, n⟩ m = .ok (sword a, b') ∧ Resized b b' a n m ∧
    (n < m → ∃ b'', b'.mremap ⟨a, m⟩ n = .ok (sword a, b'') ∧ SameMemory b b'')
  refuses : ¬ b.TailFree a n m → b.mremap ⟨a, n⟩ m = .ok (-eexist, b)

theorem validate_pageOf {r : Range} (hs : b.addr.NoWrap) (hw : r.Within b.addr) :
    b.validate r = some (b.pageOf r.start, r.size.toNat / 4096) := by
  rw [Block.validate, validate_of_within hs hw, pageOf_eq hw.start_le]

theorem Resizable.ne_zero (h : b.Resizable a n m) : n ≠ 0 ∧ m ≠ 0 := by
  have h1 := h.old.nonempty
  have h2 := h.target.nonempty
  constructor
  · rintro rfl
    exact Nat.lt_irrefl 0 h1
  · rintro rfl
    exact Nat.lt_irrefl 0 h2

def grow (b : Block) (a n m : UInt64) : Block :=
  b.edit (b.pageOf a + n.toNat / 4096) (m.toNat / 4096 - n.toNat / 4096) (.status (b.pages (b.pageOf a)).status)

def shrink (b : Block) (a n m : UInt64) : Block :=
  b.edit (b.pageOf a + m.toNat / 4096) (n.toNat / 4096 - m.toNat / 4096) .unmap

theorem hasTaken_tail : b.hasTaken (b.pageOf a + n.toNat / 4096) (m.toNat / 4096 - n.toNat / 4096) = false ↔
    b.TailFree a n m := by
  rw [hasTaken_eq_false]
  constructor
  · intro hf p h1 h2
    exact hf p h1 (by omega)
  · intro hf p h1 h2
    exact hf p h1 (by omega)

section

variable (hs : b.addr.NoWrap) (h : b.Resizable a n m) (ha : a ≠ 0)
include hs h ha

theorem mremap_grow (hlt : n < m) :
    b.mremap ⟨a, n⟩ m =
      if b.hasTaken (b.pageOf a + n.toNat / 4096) (m.toNat / 4096 - n.toNat / 4096) then .ok (-eexist, b)
      else .ok (sword a, b.grow a n m) := by
  obtain ⟨hn, hm⟩ := h.ne_zero
  have hsub : ∀ x y z : ℕ, x + y - (x + z) = y - z := fun x y z => Nat.add_sub_add_left x y z
  rw [mremap_eq ⟨a, n⟩ m h.old_noWrap.bounded (fun _ => h.target_noWrap.bounded) (fun hg => absurd hlt hg),
    if_neg (by simp [hn, hm]), if_neg ha, validate_pageOf hs h.old]
  dsimp only
  rw [if_pos hlt, validate_pageOf hs h.target]
  dsimp only
  rw [hasFree_eq_false.mpr h.allocated, if_neg (by decide), hsub]
  rfl

theorem mremap_shrink (hlt : m < n) :
    b.mremap ⟨a, n⟩ m = .ok (sword a, b.shrink a n m) := by
  obtain ⟨hn, hm⟩ := h.ne_zero
  have hng : ¬ m > n := fun hg => absurd (UInt64.lt_trans hg hlt) (UInt64.lt_irrefl n)
  have hlt' := UInt64.lt_iff_toNat_lt.mp hlt
  have hwrap := h.target_noWrap
  have htail := tail_noWrap ⟨a, n⟩ m h.old_noWrap h.target_noWrap hlt'.le
  have hadd : (a + m).toNat = a.toNat + m.toNat := by
    rw [UInt64.toNat_add, Nat.mod_eq_of_lt hwrap]
  have hsub : (n - m).toNat = n.toNat - m.toNat := UInt64.toNat_sub_of_le _ _ (UInt64.le_iff_toNat_le.mpr hlt'.le)
  obtain ⟨-, h2, h3, h4, h5⟩ := h.old
  obtain ⟨-, -, h3', -, -⟩ := h.target
  simp only at h2 h3 h4 h5 h3'
  have hw : Range.Within ⟨a + m, n - m⟩ b.addr := by
    constructor <;> simp only [hadd, hsub] <;> omega
  have hstart := (eq_alignDown_iff _).mp b.span.start_aligned
  have hpage : b.pageOf (a + m) = b.pageOf a + m.toNat / 4096 := by
    rw [pageOf_eq (by omega), pageOf_eq h4, hadd]
    omega
  have hfree : b.hasFree (b.pageOf (a + m)) ((n - m).toNat / 4096) = false := by
    apply hasFree_eq_false.mpr
    intro p h6 h7
    rw [hpage] at h6 h7
    rw [hsub] at h7
    exact h.allocated p (by omega) (by omega)
  rw [mremap_eq ⟨a, n⟩ m h.old_noWrap.bounded (fun hg => absurd hg hng) (fun _ => htail.bounded),
    if_neg (by simp [hn, hm]), if_neg ha, validate_pageOf hs h.old]
  dsimp only
  rw [if_neg hng, hasFree_eq_false.mpr h.allocated, if_neg (by decide), validate_pageOf hs hw]
  dsimp only
  rw [hfree, if_neg (by decide), hpage, hsub]
  have hdiv : (n.toNat - m.toNat) / 4096 = n.toNat / 4096 - m.toNat / 4096 := by omega
  rw [hdiv]
  rfl

end

section Pages

variable {p : ℕ}

theorem grow_tail (h1 : b.pageOf a + n.toNat / 4096 ≤ p) (h2 : p < b.pageOf a + m.toNat / 4096) :
    ((b.grow a n m).pages p).status = (b.pages (b.pageOf a)).status := by
  rw [grow, edit_page_mem _ ⟨h1, by omega⟩, sync_status]
  rfl

theorem grow_other (h : ¬ (b.pageOf a + n.toNat / 4096 ≤ p ∧ p < b.pageOf a + m.toNat / 4096)) :
    (b.grow a n m).pages p = b.pages p := edit_page_not_mem _ (by omega)

theorem shrink_tail (h1 : b.pageOf a + m.toNat / 4096 ≤ p) (h2 : p < b.pageOf a + n.toNat / 4096) :
    ((b.shrink a n m).pages p).status = stFree ∧ ((b.shrink a n m).pages p).data = zeroes 4096 := by
  rw [shrink, edit_page_mem _ ⟨h1, by omega⟩, sync_status, sync_data]
  exact ⟨rfl, rfl⟩

theorem shrink_other (h : ¬ (b.pageOf a + m.toNat / 4096 ≤ p ∧ p < b.pageOf a + n.toNat / 4096)) :
    (b.shrink a n m).pages p = b.pages p := edit_page_not_mem _ (by omega)

end Pages

theorem resized_grow (hlt : n < m) : Resized b (b.grow a n m) a n m := by
  have hlt := UInt64.lt_iff_toNat_lt.mp hlt
  refine ⟨fun p h1 h2 => grow_tail h1 h2, fun p h1 h2 => ?_, fun p h1 _ => grow_other h1⟩
  omega

theorem resized_shrink (hlt : m < n) : Resized b (b.shrink a n m) a n m := by
  have hlt := UInt64.lt_iff_toNat_lt.mp hlt
  refine ⟨fun p h1 h2 => ?_, fun p h1 h2 => shrink_tail h1 h2, fun p _ h2 => shrink_other h2⟩
  omega

theorem Resizable.grown (h : b.Resizable a n m) : Resizable (b.grow a n m) a m n := by
  refine ⟨h.target, h.old, h.target_noWrap, h.old_noWrap, fun p h1 h2 => ?_⟩
  change b.pageOf a ≤ p at h1
  change p < b.pageOf a + m.toNat / 4096 at h2
  have hfirst := h.allocated (b.pageOf a) (le_refl _) (by
    have := h.old.nonempty
    have := h.old.size_aligned
    simp only at *
    omega)
  by_cases ht : b.pageOf a + n.toNat / 4096 ≤ p
  · unfold isFree Page.isFree at hfirst ⊢
    rw [grow_tail ht h2]
    exact hfirst
  · unfold isFree
    rw [grow_other (by omega)]
    exact h.allocated p h1 (by omega)

theorem shrink_grow_same : SameMemory b ((b.grow a n m).shrink a m n) ↔ b.TailFree a n m ∧ b.TailZero a n m := by
  have htail : ∀ p, b.pageOf a + n.toNat / 4096 ≤ p → p < b.pageOf a + m.toNat / 4096 →
      (((b.grow a n m).shrink a m n).pages p).status = stFree ∧
        (((b.grow a n m).shrink a m n).pages p).data = zeroes 4096 := fun p h1 h2 => shrink_tail h1 h2
  constructor
  · intro hsame
    constructor
    · intro p h1 h2
      have := (hsame p).1
      rw [(htail p h1 h2).1] at this
      simp [isFree, Page.isFree, ← this]
    · intro p h1 h2
      rw [← (hsame p).2, (htail p h1 h2).2]
  · rintro ⟨hfree, hzero⟩ p
    by_cases hp : b.pageOf a + n.toNat / 4096 ≤ p ∧ p < b.pageOf a + m.toNat / 4096
    · have hf := hfree p hp.1 hp.2
      rw [(htail p hp.1 hp.2).1, (htail p hp.1 hp.2).2, hzero p hp.1 hp.2]
      exact ⟨(of_decide_eq_true hf).symm, rfl⟩
    · have hother : ((b.grow a n m).shrink a m n).pages p = (b.grow a n m).pages p := shrink_other hp
      rw [hother, grow_other hp]
      exact ⟨rfl, rfl⟩

theorem not_resizes {r : ℤ} (hal : a.toNat % 4096 = 0) (h : b.mremap ⟨a, n⟩ m = .ok (r, b))
    (hr : r = -einval ∨ r = -enosys) : ¬ b.Resizes a n m := by
  intro hres
  have hd := dvd_sword hal
  by_cases hf : b.TailFree a n m
  · obtain ⟨b', h', -⟩ := hres.succeeds hf
    rw [h] at h'
    obtain ⟨rfl, -⟩ := answer_of_ok h'
    rcases hr with hr | hr <;> rw [hr] at hd <;> exact absurd hd (by decide)
  · have h' := hres.refuses hf
    rw [h] at h'
    obtain ⟨rfl, -⟩ := answer_of_ok h'
    rcases hr with hr | hr <;> exact absurd hr (by decide)

theorem mremap_zero (h : b.Resizable 0 n m) : b.mremap ⟨0, n⟩ m = .ok (-enosys, b) := by
  obtain ⟨hn, hm⟩ := h.ne_zero
  rw [mremap, if_neg (by simp [hn, hm]), if_pos rfl]

theorem mremap_wrapped (h : b.Resizable a n m) (ha : a ≠ 0) (hs : ¬ b.addr.NoWrap) :
    b.mremap ⟨a, n⟩ m = .ok (-einval, b) := by
  obtain ⟨hn, hm⟩ := h.ne_zero
  have hv : b.validate ⟨a, n⟩ = none := by
    cases hv : b.validate ⟨a, n⟩ with
    | none => rfl
    | some q =>
      obtain ⟨-, -, -, hpos, -, -, hend⟩ := validate_counts hv
      have hno := b.span.no_wrap
      have h0 : b.addr.rangeEnd.toNat = 0 := by
        unfold Range.NoWrap at hs
        have hsum : b.addr.start.toNat + b.addr.size.toNat = 2 ^ 64 := by omega
        rw [Range.rangeEnd, UInt64.toNat_add, hsum]
        rfl
      rw [toNat_rangeEnd _ h.old_noWrap, h0] at hend
      simp only at hend hpos
      omega
  rw [mremap, if_neg (by simp [hn, hm]), if_neg ha, hv]

theorem mremap_same (h : b.Resizable a n n) (ha : a ≠ 0) (hs : b.addr.NoWrap) :
    b.mremap ⟨a, n⟩ n = .ok (-einval, b) := by
  obtain ⟨hn, -⟩ := h.ne_zero
  have hng : ¬ n > n := UInt64.lt_irrefl n
  have hv : b.validate ⟨a + n, n - n⟩ = none := by
    cases hv : b.validate ⟨a + n, n - n⟩ with
    | none => rfl
    | some q =>
      obtain ⟨-, -, -, hpos, -⟩ := validate_counts hv
      simp at hpos
  have hb : b.Bounded ⟨a + n, n - n⟩ := by
    intro ps pc hq
    rw [hv] at hq
    cases hq
  rw [mremap_eq ⟨a, n⟩ n h.old_noWrap.bounded (fun hg => absurd hg hng) (fun _ => hb), if_neg (by simp [hn]),
    if_neg ha, validate_pageOf hs h.old]
  dsimp only
  rw [if_neg hng, hasFree_eq_false.mpr h.allocated, if_neg (by decide), hv]

theorem mremap_resizes_iff (h : b.Resizable a n m) :
    b.Resizes a n m ↔ b.addr.NoWrap ∧ a ≠ 0 ∧ m ≠ n ∧ (b.TailFree a n m → b.TailZero a n m) := by
  have hal := h.old.start_aligned
  constructor
  · intro hres
    by_cases ha : a = 0
    · subst ha
      exact absurd hres (not_resizes hal (mremap_zero h) (Or.inr rfl))
    by_cases hs : b.addr.NoWrap
    swap
    · exact absurd hres (not_resizes hal (mremap_wrapped h ha hs) (Or.inl rfl))
    by_cases hmn : m = n
    · subst hmn
      exact absurd hres (not_resizes hal (mremap_same h ha hs) (Or.inl rfl))
    refine ⟨hs, ha, hmn, fun hfree => ?_⟩
    rcases UInt64.lt_or_lt_of_ne hmn with hlt | hlt
    · intro p h1 h2
      have := UInt64.lt_iff_toNat_lt.mp hlt
      omega
    · obtain ⟨b', hb', -, hback⟩ := hres.succeeds hfree
      rw [mremap_grow hs h ha hlt, hasTaken_tail.mpr hfree, if_neg (by decide)] at hb'
      obtain ⟨-, rfl⟩ := answer_of_ok hb'
      obtain ⟨b'', hb'', hsame⟩ := hback hlt
      rw [mremap_shrink (b := b.grow a n m) hs h.grown ha hlt] at hb''
      obtain ⟨-, rfl⟩ := answer_of_ok hb''
      exact (shrink_grow_same.mp hsame).2
  · rintro ⟨hs, ha, hmn, hzero⟩
    rcases UInt64.lt_or_lt_of_ne hmn with hlt | hlt
    · have hlt' := UInt64.lt_iff_toNat_lt.mp hlt
      have hfree : b.TailFree a n m := by
        intro p h1 h2
        omega
      refine ⟨fun _ => ⟨_, mremap_shrink hs h ha hlt, resized_shrink hlt, fun hg => ?_⟩, fun hno => absurd hfree hno⟩
      exact absurd (UInt64.lt_trans hg hlt) (UInt64.lt_irrefl n)
    · have hgrow := mremap_grow hs h ha hlt
      constructor
      · intro hfree
        rw [hasTaken_tail.mpr hfree, if_neg (by decide)] at hgrow
        refine ⟨_, hgrow, resized_grow hlt, fun _ => ⟨_, mremap_shrink (b := b.grow a n m) hs h.grown ha hlt, ?_⟩⟩
        exact shrink_grow_same.mpr ⟨hfree, hzero hfree⟩
      · intro hno
        have htaken := fun hf => hno (hasTaken_tail.mp hf)
        rw [hgrow, if_pos (by simpa using htaken)]

def halfTaken : Block :=
  ⟨⟨0x36f00000000, 0x2000⟩, ⟨by decide, by decide, by decide, by decide⟩,
    fun i => if i = 0 then { freshPage with status := stRW } else freshPage, false, false, false, zeroes 32⟩

theorem halfTaken_resizable (m : UInt64) (ht : Range.Within ⟨0x36f00000000, m⟩ halfTaken.addr)
    (hm : Range.NoWrap ⟨0x36f00000000, m⟩) : halfTaken.Resizable 0x36f00000000 0x1000 m := by
  refine ⟨⟨by decide, by decide, by decide, by decide, by decide⟩, ht, by decide, hm, fun p h1 h2 => ?_⟩
  obtain rfl : p = 0 := by
    change p < 0 + 1 at h2
    omega
  decide

theorem mremap_resizes_halfTaken : halfTaken.Resizes 0x36f00000000 0x1000 0x2000 := by
  have h := halfTaken_resizable 0x2000 ⟨by decide, by decide, by decide, by decide, by decide⟩ (by decide)
  refine (mremap_resizes_iff h).mpr ⟨by decide, by decide, by decide, fun _ p h1 h2 => ?_⟩
  obtain rfl : p = 1 := by
    change 0 + 1 ≤ p at h1
    change p < 0 + 2 at h2
    omega
  rfl

theorem mremap_same_size_refused : ∃ b₀ b : Block, smallest.activate = .ok b₀ ∧
    b₀.mmapFixed onePage .rw true = .ok (0, b) ∧ b.Resizable 0x36f00000000 0x1000 0x1000 ∧
    b.mremap ⟨0x36f00000000, 0x1000⟩ 0x1000 = .ok (-einval, b) ∧ ¬ b.Resizes 0x36f00000000 0x1000 0x1000 := by
  have hrun : passes (do
      let u₁ ← smallest.ready
      return decide (u₁.1 = 0 ∧ u₁.2.addr = onePage ∧ u₁.2.isFree 0 = false)) = true := by decide +kernel
  obtain ⟨⟨r, b⟩, hready, hrun⟩ := passes_bind hrun
  obtain ⟨rfl, haddr, htaken⟩ := passes_pure hrun
  obtain ⟨b₀, h₀, h₁⟩ := ready_ok hready
  have hw : Range.Within ⟨0x36f00000000, 0x1000⟩ b.addr := by
    rw [haddr]
    exact ⟨by decide, by decide, by decide, by decide, by decide⟩
  have hpage : b.pageOf 0x36f00000000 = 0 := by
    rw [pageOf, haddr]
    rfl
  have h : b.Resizable 0x36f00000000 0x1000 0x1000 := by
    refine ⟨hw, hw, by decide, by decide, fun p h1 h2 => ?_⟩
    rw [hpage] at h2
    obtain rfl : p = 0 := by
      change p < 0 + 1 at h2
      omega
    exact htaken
  have hs : b.addr.NoWrap := by
    rw [haddr]
    decide
  have hr := mremap_same h (by decide) hs
  exact ⟨b₀, b, h₀, h₁, h, hr, not_resizes (by decide) hr (Or.inl rfl)⟩

end Block

end MiniBox
