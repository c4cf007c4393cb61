import MiniBox.BaselineInvariant
import MiniBox.MaximalRuns

namespace MiniBox

open ByteStream IndexLoops MaximalRuns Outcomes

section Scan

variable {free : ℕ → Bool} {lo hi n i : ℕ}

def Scanned (free : ℕ → Bool) (lo hi n upto : ℕ) : Option ℕ → ℕ → Prop
  | none, bestLen => hi < bestLen ∧ ∀ a c, MaximalRun free lo hi a c → c ≤ upto → ¬ n ≤ c - a
  | some q, bestLen => MaximalRun free lo hi q (q + bestLen) ∧ q ≤ upto ∧ n ≤ bestLen ∧
      ∀ a c, MaximalRun free lo hi a c → c ≤ upto → n ≤ c - a → bestLen < c - a ∨ bestLen = c - a ∧ q ≤ a

variable {best : Option ℕ} {bestLen : ℕ}

theorem Scanned.mono {upto' : ℕ} (h : Scanned free lo hi n i best bestLen) (hle : i ≤ upto')
    (hnew : ∀ a c, MaximalRun free lo hi a c → c ≤ upto' → n ≤ c - a → c ≤ i) :
    Scanned free lo hi n upto' best bestLen := by
  cases best with
  | none => exact ⟨h.1, fun a c hr hc hn => h.2 a c hr (hnew a c hr hc hn) hn⟩
  | some q =>
    obtain ⟨h1, h2, h3, h4⟩ := h
    exact ⟨h1, h2.trans hle, h3, fun a c hr hc hn => h4 a c hr (hnew a c hr hc hn) hn⟩

section RunAt

variable (hlo : lo ≤ i) (hhi : i < hi) (hb : Boundary free lo hi i) (hf : free i = true)
  (h : Scanned free lo hi n i best bestLen)
include hlo hhi hb hf h

theorem Scanned.better (hn : n ≤ runEnd free true (hi - i) i - i)
    (hlt : runEnd free true (hi - i) i - i < bestLen) :
    Scanned free lo hi n (runEnd free true (hi - i) i) (some i) (runEnd free true (hi - i) i - i) := by
  have hrun := maximalRun_runEnd hlo hhi hb hf
  have hle := hrun.lt
  refine ⟨?_, hle.le, hn, ?_⟩
  · rw [Nat.add_sub_cancel' hle.le]
    exact hrun
  · intro a c hr hc hfit
    rcases hr.le_runEnd hlo hhi hb hf hc with hci | ⟨rfl, rfl⟩
    · cases best with
      | none => exact absurd hfit (h.2 a c hr hci)
      | some q =>
        obtain ⟨-, -, -, h4⟩ := h
        have := h4 a c hr hci hfit
        omega
    · exact Or.inr ⟨rfl, le_refl _⟩

theorem Scanned.worse (hno : ¬ (n ≤ runEnd free true (hi - i) i - i ∧ runEnd free true (hi - i) i - i < bestLen)) :
    Scanned free lo hi n (runEnd free true (hi - i) i) best bestLen := by
  have hrun := maximalRun_runEnd hlo hhi hb hf
  have hle := hrun.lt
  have hend := hrun.le_hi
  cases best with
  | none =>
    refine ⟨h.1, fun a c hr hc hfit => ?_⟩
    rcases hr.le_runEnd hlo hhi hb hf hc with hci | ⟨rfl, rfl⟩
    · exact h.2 a c hr hci hfit
    · have := h.1
      omega
  | some q =>
    obtain ⟨h1, h2, h3, h4⟩ := h
    refine ⟨h1, by omega, h3, fun a c hr hc hfit => ?_⟩
    rcases hr.le_runEnd hlo hhi hb hf hc with hci | ⟨rfl, rfl⟩
    · exact h4 a c hr hci hfit
    · omega

end RunAt

theorem findFreeLoop_scanned (fuel : ℕ) (hlo : lo ≤ i) (hhi : i ≤ hi) (hfuel : hi - i ≤ fuel)
    (hb : Boundary free lo hi i) (h : Scanned free lo hi n i best bestLen) :
    ∃ len, Scanned free lo hi n hi (Block.findFreeLoop free n hi fuel i best bestLen) len := by
  induction fuel generalizing i best bestLen with
  | zero =>
    obtain rfl : i = hi := by omega
    exact ⟨bestLen, h⟩
  | succ fuel ih =>
    unfold Block.findFreeLoop
    by_cases hlt : i < hi
    · rw [if_pos hlt]
      by_cases hf : free i = true
      · have hrun := maximalRun_runEnd hlo hlt hb hf
        have hstep := hrun.lt
        rw [if_pos hf]
        simp only
        split_ifs with hn
        · exact ih (by omega) hrun.le_hi (by omega) (boundary_of_run hrun) (h.better hlo hlt hb hf hn.1 hn.2)
        · exact ih (by omega) hrun.le_hi (by omega) (boundary_of_run hrun) (h.worse hlo hlt hb hf hn)
      · rw [if_neg hf]
        have hf : free i = false := by simpa using hf
        apply ih (by omega) (by omega) (by omega) (boundary_succ hf)
        exact h.mono (Nat.le_succ i) fun a c hr hc _ => hr.le_of_not hf hc
    · rw [if_neg hlt]
      obtain rfl : i = hi := by omega
      exact ⟨bestLen, h⟩

end Scan

variable {b : Block} {as ac n : ℕ}

theorem npages_lt (b : Block) : b.npages < 2 ^ 64 - 1 := by
  have h := b.addr.size.toNat_lt
  rw [Block.npages, npages_eq]
  omega

theorem place_scanned (h : as + ac ≤ b.npages) :
    ∃ len, Scanned b.isFree as (as + ac) n (as + ac) (b.place as ac n) len := by
  apply findFreeLoop_scanned ac (le_refl as) (by omega) (by omega)
  · intro h1
    omega
  · refine ⟨h.trans_lt (npages_lt b), fun a c hr hc => ?_⟩
    have h1 := hr.lo_le
    have h2 := hr.lt
    omega

theorem place_bestFit {ps : ℕ} (h : as + ac ≤ b.npages) (hp : b.place as ac n = some ps) :
    ∃ j, BestFit b.isFree as (as + ac) n ps j := by
  obtain ⟨len, hs⟩ := place_scanned (n := n) h
  rw [hp] at hs
  obtain ⟨h1, -, h3, h4⟩ := hs
  refine ⟨ps + len, h1, by omega, fun a c hr hfit => ?_⟩
  have := h4 a c hr hr.le_hi hfit
  omega

theorem place_eq_bestFit (h : as + ac ≤ b.npages) : b.place as ac n = bestFit b.isFree as (as + ac) n := by
  cases hp : b.place as ac n with
  | none =>
    obtain ⟨len, hs⟩ := place_scanned (n := n) h
    rw [hp] at hs
    exact (bestFit_eq_none fun a c hrun => hs.2 a c hrun hrun.le_hi).symm
  | some ps =>
    obtain ⟨j, hbest⟩ := place_bestFit h hp
    exact (bestFit_of_best hbest).symm

def Block.unused (b : Block) (p : ℕ) : Bool := (b.pages p).status == 0

theorem isFree_eq_unused (b : Block) : b.isFree = b.unused := by
  funext p
  exact (beq_eq_decide _ _).symm

def Block.HasRoom (b : Block) (as ac n : ℕ) : Prop :=
  ∃ i, as ≤ i ∧ i + n ≤ as + ac ∧ ∀ j, i ≤ j → j < i + n → b.unused j = true

theorem place_none_iff (h : as + ac ≤ b.npages) (hn : 0 < n) :
    b.place as ac n = none ↔ ¬ b.HasRoom as ac n := by
  unfold Block.HasRoom
  rw [← isFree_eq_unused]
  constructor
  · rintro hp ⟨i, h1, h2, h3⟩
    obtain ⟨len, hs⟩ := place_scanned (n := n) h
    rw [hp] at hs
    obtain ⟨a, c, hrun, ha, hc⟩ := exists_maximalRun h1 (by omega) h2 h3
    exact hs.2 a c hrun hrun.le_hi (by omega)
  · intro hno
    cases hp : b.place as ac n with
    | none => rfl
    | some ps =>
      obtain ⟨j, hbest⟩ := place_bestFit h hp
      obtain ⟨h1, h2⟩ := place_spec hp
      exact absurd ⟨ps, hbest.run.lo_le, h1, h2⟩ hno

def statusOf : Prot → UInt8
  | .none => 0x20
  | .r => 0x01
  | .rw => 0x03
  | .rx => 0x05
  | .rwx => 0x07
  | .rwStack => 0x13

def accessOf (dirty : Bool) : Prot → Access
  | .none => ⟨false, false, false⟩
  | .r => ⟨true, false, false⟩
  | .rw => ⟨true, dirty, false⟩
  | .rx => ⟨true, false, true⟩
  | .rwx => ⟨true, dirty, true⟩
  | .rwStack => ⟨true, dirty, false⟩

structure Given (mapped : Bool) (prot : Prot) (p p' : Page) : Prop where
  status : p'.status = statusOf prot
  native : p'.native = if mapped then accessOf p.dirty prot else p.native
  data : p'.data = p.data
  dirty : p'.dirty = p.dirty
  snap : p'.snap = p.snap
  invisible : p'.invisible = p.invisible

theorem given_setStatus (b : Block) (p : Page) (prot : Prot) :
    Given b.swappedIn prot p (b.sync (p.setStatus (protStatus prot))) := by
  unfold Block.sync
  cases b.swappedIn with
  | false => exact ⟨by cases prot <;> rfl, rfl, rfl, rfl, rfl, rfl⟩
  | true =>
    refine ⟨by cases prot <;> rfl, ?_, rfl, rfl, rfl, rfl⟩
    change protToNative (nativeProt (protStatus prot) p.dirty) = accessOf p.dirty prot
    cases prot <;> cases p.dirty <;> rfl

structure Placed (b b' : Block) (i n : ℕ) (prot : Prot) : Prop where
  were_free : ∀ p, i ≤ p → p < i + n → b.unused p = true
  given : ∀ p, i ≤ p → p < i + n → Given b.swappedIn prot (b.pages p) (b'.pages p)
  others : ∀ p, ¬ (i ≤ p ∧ p < i + n) → b'.pages p = b.pages p
  block : b' = b.withPages b'.pages

theorem mmap_best_fit (b : Block) (arena : Range) (size : UInt64) (prot : Prot) (noReplace : Bool) {as ac : ℕ}
    (hw : arena.NoWrap) (hv : b.validate arena = some (as, ac)) (h0 : size ≠ 0) (hal : size = alignDown size) :
    (b.HasRoom as ac (size.toNat / 4096) → ∃ i j b', BestFit b.unused as (as + ac) (size.toNat / 4096) i j ∧
        Placed b b' i (size.toNat / 4096) prot ∧
        b.mmap ⟨0, size⟩ prot arena noReplace = .ok (sword (b.pageAddr i), b')) ∧
      (¬ b.HasRoom as ac (size.toNat / 4096) →
        b.mmap ⟨0, size⟩ prot arena noReplace = .ok (-enomem, b)) := by
  have hin := hw.bounded as ac hv
  have hpos : 0 < size.toNat / 4096 := by
    have h1 := (eq_alignDown_iff _).mp hal
    have h2 : size.toNat ≠ 0 := fun h => h0 (UInt64.toNat_inj.mp h)
    omega
  have hzero : Range.NoWrap ⟨0, size⟩ := by
    change 0 + size.toNat < 2 ^ 64
    have := size.toNat_lt
    omega
  rw [mmap_eq ⟨0, size⟩ prot arena noReplace hzero.bounded hw.bounded, if_neg h0, if_pos rfl,
    if_neg (not_not.mpr hal), hv]
  simp only [toNat_shiftRight_page]
  constructor
  · intro hroom
    cases hp : b.place as ac (size.toNat / 4096) with
    | none => exact absurd hroom ((place_none_iff hin hpos).mp hp)
    | some ps =>
      obtain ⟨j, hbest⟩ := place_bestFit hin hp
      have hfree : ∀ p, ps ≤ p → p < ps + size.toNat / 4096 → b.isFree p = true := (place_spec hp).2
      rw [isFree_eq_unused] at hbest hfree
      refine ⟨ps, j, _, hbest, ⟨hfree, ?_, ?_, rfl⟩, rfl⟩
      · intro p h1 h2
        rw [edit_page_mem _ ⟨h1, h2⟩]
        exact given_setStatus b (b.pages p) prot
      · intro p h
        exact edit_page_not_mem _ h
  · intro hroom
    rw [(place_none_iff hin hpos).mpr hroom]

def gapped : Block :=
  ⟨⟨0x36f00000000, 0x4000⟩, ⟨by decide, by decide, by decide, by decide⟩,
    fun i => if i = 2 then { freshPage with status := stRW, native := protToNative .r } else freshPage, false, true, true,
    zeroes 32⟩

theorem mmap_best_fit_gapped : ∃ i j b', BestFit gapped.unused 0 4 1 i j ∧ Placed gapped b' i 1 .rwx ∧
    gapped.mmap ⟨0, 0x1000⟩ .rwx gapped.addr false = .ok (0x36f00003000, b') ∧
    (List.range 4).map (fun p => (b'.pages p).status) = [0, 0, 3, 7] ∧
    (List.range 4).map (fun p => (b'.pages p).native) =
      [⟨false, false, false⟩, ⟨false, false, false⟩, ⟨true, false, false⟩, ⟨true, false, true⟩] := by
  have hroom : gapped.HasRoom 0 4 1 := by
    refine ⟨3, by decide, by decide, fun j h1 h2 => ?_⟩
    obtain rfl : j = 3 := by omega
    decide
  have hrun : passes (do
      let u₁ ← gapped.mmap ⟨0, 0x1000⟩ .rwx gapped.addr false
      return decide (u₁.1 = 0x36f00003000 ∧
        (List.range 4).map (fun p => (u₁.2.pages p).status) = [0, 0, 3, 7] ∧
        (List.range 4).map (fun p => (u₁.2.pages p).native) =
          [⟨false, false, false⟩, ⟨false, false, false⟩, ⟨true, false, false⟩, ⟨true, false, true⟩])) = true := by
    decide +kernel
  obtain ⟨i, j, b', hbest, hplaced, h⟩ :=
    (mmap_best_fit gapped gapped.addr 0x1000 .rwx false (by decide) (by decide) (by decide) (by decide)).1 hroom
  obtain ⟨u, hu, hrun⟩ := passes_bind hrun
  obtain rfl := Except.ok.inj (h.symm.trans hu)
  obtain ⟨hr, hst, hnat⟩ := passes_pure hrun
  have hr : sword (gapped.pageAddr i) = 0x36f00003000 := hr
  rw [hr] at h
  exact ⟨i, j, b', hbest, hplaced, h, hst, hnat⟩

end MiniBox
