import MiniBox.LoadedImage
import MiniBox.GuestMemory

/-!
The heaps of the guest library. `alloc_sealed`, `alloc_invisible` and `alloc_plain` hand out memory from the front of
three regions of the layout and ask the host for its pages, and `ecl_seal` makes the first heap read-only.
-/

namespace MiniBox

open ByteStream Outcomes Overlays

inductive Heap
  | sealed | invisible | plain
  deriving DecidableEq

instance : Fintype Heap := ⟨{.sealed, .invisible, .plain}, fun h => by cases h <;> decide⟩

def Heap.arena (l : Layout) : Heap → Range
  | .sealed => l.sealedHeap
  | .invisible => l.invis
  | .plain => l.plain

structure GuestHeaps where
  current : Heap → UInt64
  block : Block

def mapFailed (r : UInt64) : Bool := decide (r > 0 - 4096)

def allocHelper (b : Block) (mmapArena : Range) (size : UInt64) (range : Range) (current : UInt64) :
    Except Crash (Option UInt64 × UInt64 × Block) :=
  let start := if current = 0 then range.start else current
  let stop := (start + size + 15) &&& ~~~15
  if stop < start ∨ stop > range.start + range.size then .ok (none, start, b)
  else
    let pstart := (start + 0xfff) &&& ~~~0xfff
    let pend := (stop + 0xfff) &&& ~~~0xfff
    if pstart < pend then do
      let u ← b.mmap ⟨pstart, pend - pstart⟩ .rw mmapArena true
      return if mapFailed (reply u.1) then (none, start, u.2) else (some start, stop, u.2)
    else .ok (some start, stop, b)

def GuestHeaps.onHeap (l : Layout) (h : Heap) (size : UInt64) (g : GuestHeaps) :
    Except Crash (Option UInt64 × GuestHeaps) := do
  let u ← allocHelper g.block l.mmapArena size (h.arena l) (g.current h)
  return (u.1, ⟨Function.update g.current h u.2.1, u.2.2⟩)

def allocSealed (l : Layout) := GuestHeaps.onHeap l .sealed
def allocInvisible (l : Layout) := GuestHeaps.onHeap l .invisible
def allocPlain (l : Layout) := GuestHeaps.onHeap l .plain

def GuestHeaps.alloc (l : Layout) : Heap → UInt64 → GuestHeaps → Except Crash (Option UInt64 × GuestHeaps)
  | .sealed => allocSealed l
  | .invisible => allocInvisible l
  | .plain => allocPlain l

def GuestHeaps.allocAll (l : Layout) (g : GuestHeaps) : List (Heap × UInt64) →
    Except Crash (List (Option UInt64) × GuestHeaps)
  | [] => .ok ([], g)
  | r :: rs => do
    let u ← GuestHeaps.alloc l r.1 r.2 g
    let v ← u.2.allocAll l rs
    return (u.1 :: v.1, v.2)

def eclSeal (l : Layout) (g : GuestHeaps) : Except Crash GuestHeaps :=
  if g.current .sealed ≠ 0 then do
    let u ← g.block.mprotect
      ⟨l.sealedHeap.start, (g.current .sealed - l.sealedHeap.start + 0xfff) &&& ~~~0xfff⟩ .r
    if u.1 ≠ 0 then .error .trap else return { g with block := u.2 }
  else .ok g

section Bumps

/-- The bytes that a request takes; the sizes above `2 ^ 64 - 16` wrap around to none. -/
def reserve (size : UInt64) : ℕ := (size.toNat + 15) / 16 * 16 % 2 ^ 64

structure Bumps where
  used : Heap → ℕ
  asked : Heap → Bool

def Bumps.alloc (cap : Heap → ℕ) (s : Bumps) (h : Heap) (size : UInt64) : Option ℕ × Bumps :=
  if s.used h + reserve size ≤ cap h then
    (some (s.used h), ⟨Function.update s.used h (s.used h + reserve size), Function.update s.asked h true⟩)
  else (none, ⟨s.used, Function.update s.asked h true⟩)

def Bumps.allocAll (cap : Heap → ℕ) (s : Bumps) : List (Heap × UInt64) → List (Option ℕ) × Bumps
  | [] => ([], s)
  | r :: rs =>
    let u := s.alloc cap r.1 r.2
    let v := u.2.allocAll cap rs
    (u.1 :: v.1, v.2)

def Bumps.new : Bumps := ⟨fun _ => 0, fun _ => false⟩

structure Grant where
  heap : Heap
  size : UInt64
  first : ℕ
  bytes : ℕ

def heapGrants : List (Heap × UInt64) → List (Option ℕ) → List Grant
  | r :: rs, some o :: os => ⟨r.1, r.2, o, reserve r.2⟩ :: heapGrants rs os
  | _ :: rs, none :: os => heapGrants rs os
  | [], _ => []
  | _, [] => []

def addresses (l : Layout) (rs : List (Heap × UInt64)) (os : List (Option ℕ)) : List (Option UInt64) :=
  rs.zipWith (fun r o => o.map fun n => (r.1.arena l).start + UInt64.ofNat n) os

def pageBytes (n : ℕ) : ℕ := (n + 4095) / 4096 * 4096

def Bumps.takes (l : Layout) (s : Bumps) (h : Heap) (a : ℕ) : Bool :=
  decide ((h.arena l).start.toNat ≤ a ∧ a < (h.arena l).start.toNat + pageBytes (s.used h))

def Bumps.canvas (l : Layout) (s : Bumps) (c : Canvas) : Canvas :=
  { c with status := fun a => if ∃ h, s.takes l h a = true then 0x03 else c.status a }

end Bumps

section BumpRuns

variable {cap : Heap → ℕ}

theorem reserve_mod (size : UInt64) : reserve size % 16 = 0 := by
  unfold reserve
  omega

theorem reserve_eq {size : UInt64} (h : size.toNat ≤ 2 ^ 64 - 16) : reserve size = (size.toNat + 15) / 16 * 16 := by
  unfold reserve
  omega

theorem reserve_wraps {size : UInt64} (h : 2 ^ 64 - 16 < size.toNat) : reserve size = 0 := by
  have hlt := size.toNat_lt
  unfold reserve
  omega

theorem bytes_heapGrants (rs : List (Heap × UInt64)) (os : List (Option ℕ)) :
    ∀ u ∈ heapGrants rs os, u.bytes = reserve u.size := by
  induction rs generalizing os with
  | nil =>
    intro u hu
    cases hu
  | cons r rs ih =>
    rcases os with _ | ⟨_ | o, os⟩
    · intro u hu
      cases hu
    · exact ih os
    · exact List.forall_mem_cons.mpr ⟨rfl, ih os⟩

theorem Bumps.alloc_spec (cap : Heap → ℕ) (s : Bumps) (h : Heap) (size : UInt64) :
    (∀ h', s.used h' ≤ (s.alloc cap h size).2.used h') ∧
      ∀ o, (s.alloc cap h size).1 = some o → o = s.used h ∧ (s.alloc cap h size).2.used h = o + reserve size := by
  unfold Bumps.alloc
  split_ifs with hfit
  · refine ⟨?_, ?_⟩
    · intro h'
      by_cases hh : h' = h
      · subst hh
        simp
      · simp [hh]
    · rintro o ⟨⟩
      simp
  · exact ⟨fun _ => le_rfl, fun o ho => by cases ho⟩

theorem Bumps.alloc_aligned (cap : Heap → ℕ) (s : Bumps) (h : Heap) (size : UInt64) (hs : ∀ h, s.used h % 16 = 0) :
    ∀ h', (s.alloc cap h size).2.used h' % 16 = 0 := by
  intro h'
  have hres := reserve_mod size
  have hh' := hs h'
  unfold Bumps.alloc
  split_ifs with hfit
  · by_cases hh : h' = h
    · subst hh
      simp only [Function.update_self]
      omega
    · simpa [hh] using hh'
  · exact hh'

theorem Bumps.used_le (s : Bumps) (rs : List (Heap × UInt64)) (h : Heap) : s.used h ≤ (s.allocAll cap rs).2.used h := by
  induction rs generalizing s with
  | nil => exact le_rfl
  | cons r rs ih => exact ((s.alloc_spec cap r.1 r.2).1 h).trans (ih _)

theorem Bumps.mem_grants {s : Bumps} {rs : List (Heap × UInt64)} {u : Grant}
    (hu : u ∈ heapGrants rs (s.allocAll cap rs).1) :
    s.used u.heap ≤ u.first ∧ u.first + u.bytes ≤ (s.allocAll cap rs).2.used u.heap := by
  induction rs generalizing s with
  | nil => cases hu
  | cons r rs ih =>
    obtain ⟨hmono, hgrant⟩ := s.alloc_spec cap r.1 r.2
    have hrest : u ∈ heapGrants rs ((s.alloc cap r.1 r.2).2.allocAll cap rs).1 →
        s.used u.heap ≤ u.first ∧ u.first + u.bytes ≤ (s.allocAll cap (r :: rs)).2.used u.heap := by
      intro hmem
      obtain ⟨h1, h2⟩ := ih hmem
      exact ⟨(hmono _).trans h1, h2⟩
    have hanswer : (s.allocAll cap (r :: rs)).1 =
      (s.alloc cap r.1 r.2).1 :: ((s.alloc cap r.1 r.2).2.allocAll cap rs).1 := rfl
    rw [hanswer] at hu
    cases ho : (s.alloc cap r.1 r.2).1 with
    | none =>
      rw [ho] at hu
      exact hrest hu
    | some o =>
      rw [ho] at hu
      obtain ⟨rfl, hused⟩ := hgrant o ho
      rcases List.mem_cons.mp hu with rfl | hu
      · refine ⟨le_rfl, ?_⟩
        rw [← hused]
        exact Bumps.used_le _ rs r.1
      · exact hrest hu

theorem Bumps.aligned_grants {s : Bumps} {rs : List (Heap × UInt64)} (hs : ∀ h, s.used h % 16 = 0) :
    ∀ u ∈ heapGrants rs (s.allocAll cap rs).1, u.first % 16 = 0 := by
  induction rs generalizing s with
  | nil =>
    intro u hu
    cases hu
  | cons r rs ih =>
    have hanswer : (s.allocAll cap (r :: rs)).1 =
      (s.alloc cap r.1 r.2).1 :: ((s.alloc cap r.1 r.2).2.allocAll cap rs).1 := rfl
    have hrest := ih (s.alloc_aligned cap r.1 r.2 hs)
    rw [hanswer]
    cases ho : (s.alloc cap r.1 r.2).1 with
    | none => exact hrest
    | some o =>
      obtain ⟨rfl, -⟩ := (s.alloc_spec cap r.1 r.2).2 o ho
      exact List.forall_mem_cons.mpr ⟨hs r.1, hrest⟩

theorem Bumps.pairwise_grants (s : Bumps) (rs : List (Heap × UInt64)) :
    (heapGrants rs (s.allocAll cap rs).1).Pairwise fun u v => u.heap = v.heap → u.first + u.bytes ≤ v.first := by
  induction rs generalizing s with
  | nil => exact List.Pairwise.nil
  | cons r rs ih =>
    have hanswer : (s.allocAll cap (r :: rs)).1 =
      (s.alloc cap r.1 r.2).1 :: ((s.alloc cap r.1 r.2).2.allocAll cap rs).1 := rfl
    rw [hanswer]
    cases ho : (s.alloc cap r.1 r.2).1 with
    | none => exact ih _
    | some o =>
      refine List.pairwise_cons.mpr ⟨?_, ih _⟩
      intro v hv heq
      obtain ⟨-, hused⟩ := (s.alloc_spec cap r.1 r.2).2 o ho
      have hle := (Bumps.mem_grants hv).1
      dsimp only at heq ⊢
      rwa [← heq, hused] at hle

end BumpRuns

structure HeapArenas (l : Layout) (b : Block) : Prop where
  low : b.addr.start.toNat + b.addr.size.toNat ≤ 2 ^ 63
  start_pos : ∀ h, 0 < (Heap.arena l h).start.toNat
  start_aligned : ∀ h, (Heap.arena l h).start.toNat % 4096 = 0
  size_aligned : ∀ h, (Heap.arena l h).size.toNat % 4096 = 0
  inside : ∀ h, (Heap.arena l h).In b.addr
  apart : ∀ h h', h ≠ h' → ∀ a, (Heap.arena l h).covers a = true → (Heap.arena l h').covers a = false

section Steps

variable {l : Layout} {c : Canvas} {s : Bumps} {g g' : GuestHeaps} {h : Heap}

structure GuestHeaps.Follows (l : Layout) (c : Canvas) (s : Bumps) (g : GuestHeaps) : Prop where
  current : ∀ h, g.current h = if s.asked h then (Heap.arena l h).start + UInt64.ofNat (s.used h) else 0
  fits : ∀ h, s.used h ≤ (Heap.arena l h).size.toNat
  aligned : ∀ h, s.used h % 16 = 0
  unused : ∀ h, s.asked h = false → s.used h = 0
  arenas : HeapArenas l g.block
  shows : g.block.Shows (s.canvas l c)

theorem and_not_fifteen (x : UInt64) : x &&& ~~~(15 : UInt64) = (x >>> 4) <<< 4 := by
  have hm : (15 : UInt64).toBitVec = BitVec.ofNat 64 (2 ^ 4 - 1) := rfl
  have hs : (4 : UInt64).toBitVec = 4#64 := rfl
  apply UInt64.eq_of_toBitVec_eq
  apply BitVec.eq_of_getLsbD_eq
  intro i hi
  rw [UInt64.toBitVec_and, UInt64.toBitVec_not, hm]
  simp only [UInt64.toBitVec_shiftLeft, UInt64.toBitVec_shiftRight, hs, BitVec.getLsbD_and,
    BitVec.getLsbD_not, BitVec.getLsbD_ofNat, Nat.testBit_two_pow_sub_one]
  by_cases h : i < 4
  · simp [h]
  · have he : 4 + (i - 4) = i := by omega
    simp [hi, h, he]

theorem toNat_and_not_fifteen (x : UInt64) : (x &&& ~~~(15 : UInt64)).toNat = x.toNat / 16 * 16 := by
  have hx := x.toNat_lt
  rw [and_not_fifteen, UInt64.toNat_shiftLeft]
  simp only [UInt64.toNat_shiftRight, UInt64.reduceToNat, Nat.reduceMod, Nat.shiftRight_eq_div_pow, Nat.shiftLeft_eq,
    Nat.reducePow]
  omega

theorem toNat_pageCeil (x : UInt64) (hx : x.toNat + 4095 < 2 ^ 64) :
    ((x + 0xfff) &&& ~~~(0xfff : UInt64)).toNat = pageBytes x.toNat := by
  rw [and_not_pageMask, toNat_pageFloor, UInt64.toNat_add]
  simp only [UInt64.reduceToNat, pageBytes]
  omega

theorem stop_spec {start last : UInt64} (size : UInt64) (haligned : start.toNat % 16 = 0) (hle : start.toNat ≤ last.toNat)
    (hlast : last.toNat ≤ 2 ^ 63) :
    ¬ ((start + size + 15) &&& ~~~15 < start ∨ (start + size + 15) &&& ~~~15 > last) ↔
      start.toNat + reserve size ≤ last.toNat := by
  have hsize := size.toNat_lt
  have h15 : (start + size + 15).toNat = ((start.toNat + size.toNat) % 2 ^ 64 + 15) % 2 ^ 64 := by
    rw [UInt64.toNat_add, UInt64.toNat_add]
    rfl
  rw [UInt64.lt_iff_toNat_lt, gt_iff_lt, UInt64.lt_iff_toNat_lt, toNat_and_not_fifteen, h15]
  unfold reserve
  omega

theorem toNat_stop {start last : UInt64} (size : UInt64) (haligned : start.toNat % 16 = 0) (hle : start.toNat ≤ last.toNat)
    (hlast : last.toNat ≤ 2 ^ 63) (hfits : start.toNat + reserve size ≤ last.toNat) :
    ((start + size + 15) &&& ~~~15).toNat = start.toNat + reserve size := by
  have hsize := size.toNat_lt
  have h15 : (start + size + 15).toNat = ((start.toNat + size.toNat) % 2 ^ 64 + 15) % 2 ^ 64 := by
    rw [UInt64.toNat_add, UInt64.toNat_add]
    rfl
  rw [toNat_and_not_fifteen, h15]
  unfold reserve at hfits ⊢
  omega

theorem takes_iff {a : ℕ} : s.takes l h a = true ↔
    (Heap.arena l h).start.toNat ≤ a ∧ a < (Heap.arena l h).start.toNat + pageBytes (s.used h) := decide_eq_true_iff

theorem canvas_status (a : ℕ) :
    (s.canvas l c).status a = if ∃ h, s.takes l h a = true then 0x03 else c.status a := rfl

theorem pageBytes_le {n m : ℕ} (h : n ≤ m) (hm : m % 4096 = 0) : pageBytes n ≤ m := by
  unfold pageBytes
  omega

theorem le_pageBytes (n : ℕ) : n ≤ pageBytes n := by
  unfold pageBytes
  omega

theorem pageBytes_mono {n m : ℕ} (h : n ≤ m) : pageBytes n ≤ pageBytes m := by
  unfold pageBytes
  omega

theorem pageBytes_add {n : ℕ} (m : ℕ) (hn : n % 4096 = 0) : pageBytes (n + m) = n + pageBytes m := by
  unfold pageBytes
  omega

theorem canvas_congr {s' : Bumps} (hused : ∀ h, pageBytes (s'.used h) = pageBytes (s.used h)) :
    s'.canvas l c = s.canvas l c := by
  unfold Bumps.canvas Bumps.takes
  simp only [hused]

theorem GuestHeaps.Follows.takes_covers (hf : g.Follows l c s) {a : ℕ} (ha : s.takes l h a = true) :
    (Heap.arena l h).covers a = true := by
  have hle := pageBytes_le (hf.fits h) (hf.arenas.size_aligned h)
  rw [takes_iff] at ha
  rw [Range.covers_iff]
  omega

theorem mmap_of_fixed {b b' : Block} {addr arena : Range} {prot : Prot} {noReplace : Bool} (hsize : addr.size ≠ 0)
    (hstart : addr.start ≠ 0) (hfixed : b.mmapFixed addr prot noReplace = .ok (0, b')) :
    b.mmap addr prot arena noReplace = .ok (sword addr.start, b') := by
  unfold Block.mmap
  rw [if_neg hsize, if_neg hstart, hfixed]
  rfl

theorem mapFailed_reply {a : UInt64} (ha : a.toNat < 2 ^ 63) : mapFailed (reply (sword a)) = false := by
  have hword : sword a = a.toNat := if_pos ha
  have hreply : reply (sword a) = a := by
    have hnat : (a.toNat % 2 ^ 64 : ℤ).toNat = a.toNat := by omega
    unfold reply sok UInt64.ofInt
    rw [hword, if_neg (by omega), hnat, UInt64.ofNat_toNat]
  rw [hreply, mapFailed, decide_eq_false_iff_not, gt_iff_lt, UInt64.lt_iff_toNat_lt]
  have h4096 : (0 - 4096 : UInt64).toNat = 2 ^ 64 - 4096 := by decide
  omega

theorem HeapArenas.frame {b b' : Block} (ha : HeapArenas l b) (hframe : b.SameFrame b') : HeapArenas l b' := by
  obtain ⟨h1, h2, h3, h4, h5, h6⟩ := ha
  rw [← hframe.addr] at h1 h5
  exact ⟨h1, h2, h3, h4, h5, h6⟩

theorem canvas_grow {used' : Heap → ℕ} {asked' : Heap → Bool} {r : Range} (hr : ∀ a, r.covers a = true ↔
      (Heap.arena l h).start.toNat + pageBytes (s.used h) ≤ a ∧ a < (Heap.arena l h).start.toNat + pageBytes (used' h))
    (hle : s.used h ≤ used' h) (hother : ∀ h', h' ≠ h → used' h' = s.used h') :
    (Bumps.mk used' asked').canvas l c =
      { s.canvas l c with status := paint (r.only (protStatus .rw)) (s.canvas l c).status } := by
  have hmono := pageBytes_mono hle
  have hstatus : ((Bumps.mk used' asked').canvas l c).status =
      paint (r.only (protStatus .rw)) (s.canvas l c).status := by
    funext a
    unfold paint
    rw [canvas_status, canvas_status]
    by_cases hcov : r.covers a = true
    · obtain ⟨h1, h2⟩ := (hr a).mp hcov
      have htakes : (Bumps.mk used' asked').takes l h a = true := takes_iff.mpr ⟨by omega, h2⟩
      rw [Range.only_some hcov, if_pos ⟨h, htakes⟩]
      rfl
    · rw [Range.only_none hcov, Option.getD_none]
      have hiff : (∃ h', (Bumps.mk used' asked').takes l h' a = true) ↔ ∃ h', s.takes l h' a = true := by
        apply exists_congr
        intro h'
        rw [takes_iff, takes_iff]
        by_cases hh : h' = h
        · subst hh
          have := mt (hr a).mpr hcov
          dsimp only
          omega
        · dsimp only
          rw [hother h' hh]
      by_cases hex : ∃ h', s.takes l h' a = true
      · rw [if_pos hex, if_pos (hiff.mpr hex)]
      · rw [if_neg hex, if_neg (mt hiff.mp hex)]
  unfold Bumps.canvas at hstatus ⊢
  dsimp only at hstatus ⊢
  rw [hstatus]

def Layout.heapRoom (l : Layout) (h : Heap) : ℕ := (h.arena l).size.toNat

namespace GuestHeaps.Follows

theorem start_eq (hf : g.Follows l c s) (h : Heap) :
    (if g.current h = 0 then (h.arena l).start else g.current h) = (h.arena l).start + UInt64.ofNat (s.used h) ∧
      ((h.arena l).start + UInt64.ofNat (s.used h)).toNat = (h.arena l).start.toNat + s.used h := by
  have hpos := hf.arenas.start_pos h
  have hlow := hf.arenas.low
  have hin := (hf.arenas.inside h).end_le
  have hfits := hf.fits h
  have hnat : ((h.arena l).start + UInt64.ofNat (s.used h)).toNat = (h.arena l).start.toNat + s.used h := by
    rw [UInt64.toNat_add, UInt64.toNat_ofNat_of_lt' (by rw [show UInt64.size = 2 ^ 64 from rfl]; omega)]
    omega
  refine ⟨?_, hnat⟩
  rw [hf.current h]
  cases hasked : s.asked h with
  | true =>
    have hne : (h.arena l).start + UInt64.ofNat (s.used h) ≠ 0 := by
      intro h0
      rw [h0, UInt64.toNat_zero] at hnat
      omega
    rw [if_pos rfl, if_neg hne]
  | false =>
    rw [hf.unused h hasked]
    simp

theorem moved (hf : g.Follows l c s) {b' : Block} {used : ℕ} {current : UInt64} (hframe : g.block.SameFrame b')
    (hcurrent : current = (h.arena l).start + UInt64.ofNat used) (hused : used ≤ (h.arena l).size.toNat)
    (haligned : used % 16 = 0)
    (hshows : b'.Shows ((Bumps.mk (Function.update s.used h used) (Function.update s.asked h true)).canvas l c)) :
    Follows l c ⟨Function.update s.used h used, Function.update s.asked h true⟩ ⟨Function.update g.current h current, b'⟩ := by
  refine ⟨?_, ?_, ?_, ?_, hf.arenas.frame hframe, hshows⟩
  · intro h'
    by_cases hh : h' = h
    · subst hh
      simp [hcurrent]
    · simp [hh, hf.current h']
  · intro h'
    by_cases hh : h' = h
    · subst hh
      simpa using hused
    · simpa [hh] using hf.fits h'
  · intro h'
    by_cases hh : h' = h
    · subst hh
      simpa using haligned
    · simpa [hh] using hf.aligned h'
  · intro h' hasked
    by_cases hh : h' = h
    · subst hh
      simp at hasked
    · simp only [ne_eq, hh, not_false_eq_true, Function.update_of_ne] at hasked ⊢
      exact hf.unused h' hasked

-- no heap has the pages yet: this one ends in front of them, and the others are elsewhere
theorem ahead_free (hf : g.Follows l c s) (hfree : ∀ h a, (Heap.arena l h).covers a = true → c.status a = stFree) {a : ℕ}
    (ha : (h.arena l).covers a = true) (hahead : (h.arena l).start.toNat + pageBytes (s.used h) ≤ a) :
    (s.canvas l c).status a = stFree := by
  rw [canvas_status, if_neg]
  · exact hfree h a ha
  · rintro ⟨h', htakes⟩
    by_cases hh : h' = h
    · subst hh
      rw [takes_iff] at htakes
      omega
    · have hother := hf.takes_covers htakes
      rw [hf.arenas.apart h h' (Ne.symm hh) a ha] at hother
      cases hother

theorem same_pages (hf : g.Follows l c s) {used : ℕ} (asked : Heap → Bool)
    (hsame : pageBytes used = pageBytes (s.used h)) :
    g.block.Shows ((Bumps.mk (Function.update s.used h used) asked).canvas l c) := by
  rw [canvas_congr (s := s)]
  · exact hf.shows
  · intro h'
    by_cases hh : h' = h
    · subst hh
      simpa using hsame
    · simp [hh]

theorem maps (hf : g.Follows l c s) (hfree : ∀ h a, (Heap.arena l h).covers a = true → c.status a = stFree)
    {used : ℕ} (asked : Heap → Bool) (r : Range) (hle : s.used h ≤ used) (hused : used ≤ (h.arena l).size.toNat)
    (hrstart : r.start.toNat = (h.arena l).start.toNat + pageBytes (s.used h))
    (hrsize : r.start.toNat + r.size.toNat = (h.arena l).start.toNat + pageBytes used) (hpos : 0 < r.size.toNat) :
    ∃ b', g.block.mmap r .rw l.mmapArena true = .ok (sword r.start, b') ∧ g.block.SameFrame b' ∧
      b'.Shows ((Bumps.mk (Function.update s.used h used) asked).canvas l c) := by
  have hlow := hf.arenas.low
  have hstart := hf.arenas.start_pos h
  have hsa := hf.arenas.start_aligned h
  obtain ⟨hin, hin'⟩ := hf.arenas.inside h
  have hpages := pageBytes_le hused (hf.arenas.size_aligned h)
  have hmod : ∀ n, pageBytes n % 4096 = 0 := fun n => Nat.mul_mod_left _ _
  have hm1 := hmod (s.used h)
  have hm2 := hmod used
  have hcov : ∀ a, r.covers a = true ↔ (h.arena l).start.toNat + pageBytes (s.used h) ≤ a ∧
      a < (h.arena l).start.toNat + pageBytes used := by
    intro a
    rw [Range.covers_iff]
    omega
  have hstatus : ∀ a, r.covers a = true → (s.canvas l c).status a = stFree := by
    intro a ha
    rw [hcov] at ha
    exact hf.ahead_free hfree (Range.covers_iff.mpr (by omega)) ha.1
  obtain ⟨b', hfixed, hframe, hshows⟩ := Block.mmapFixed_shows hf.shows (by unfold Range.NoWrap; omega)
    ⟨hpos, by omega, by omega, by omega, by omega⟩ .rw true fun _ => hstatus
  refine ⟨b', mmap_of_fixed ?_ ?_ hfixed, hframe, ?_⟩
  · intro h0
    rw [h0] at hpos
    exact lt_irrefl 0 hpos
  · intro h0
    rw [h0, UInt64.toNat_zero] at hrstart
    omega
  · rw [canvas_grow (s := s) (r := r) (h := h)]
    · exact hshows
    · intro a
      rw [hcov]
      simp
    · simpa using hle
    · intro h' hh
      simp [hh]

theorem onHeap (hf : g.Follows l c s) (hfree : ∀ h a, (Heap.arena l h).covers a = true → c.status a = stFree) (h : Heap)
    (size : UInt64) :
    ∃ g', g.onHeap l h size =
        .ok ((s.alloc l.heapRoom h size).1.map fun o => (h.arena l).start + UInt64.ofNat o, g') ∧
      g.block.SameFrame g'.block ∧ g'.Follows l c (s.alloc l.heapRoom h size).2 := by
  obtain ⟨hstart, hnat⟩ := hf.start_eq h
  have hlow := hf.arenas.low
  obtain ⟨hin, hin'⟩ := hf.arenas.inside h
  have hsa := hf.arenas.start_aligned h
  have hza := hf.arenas.size_aligned h
  have hfits := hf.fits h
  have hal := hf.aligned h
  have hlast : ((h.arena l).start + (h.arena l).size).toNat = (h.arena l).start.toNat + (h.arena l).size.toNat := by
    rw [UInt64.toNat_add]
    omega
  have h16 : ((h.arena l).start + UInt64.ofNat (s.used h)).toNat % 16 = 0 := by omega
  have hle : ((h.arena l).start + UInt64.ofNat (s.used h)).toNat ≤ ((h.arena l).start + (h.arena l).size).toNat := by omega
  have hhalf : ((h.arena l).start + (h.arena l).size).toNat ≤ 2 ^ 63 := by omega
  have hstop := stop_spec size h16 hle hhalf
  unfold GuestHeaps.onHeap allocHelper Bumps.alloc Layout.heapRoom
  rw [hstart]
  by_cases hfit : s.used h + reserve size ≤ (h.arena l).size.toNat
  · have hroom := hstop.mpr (by omega)
    have hend := toNat_stop size h16 hle hhalf (by omega)
    have hres := reserve_mod size
    rw [if_pos hfit]
    dsimp only
    rw [if_neg hroom]
    generalize ((h.arena l).start + UInt64.ofNat (s.used h) + size + 15) &&& ~~~15 = stop at hroom hend ⊢
    have hcurrent : stop = (h.arena l).start + UInt64.ofNat (s.used h + reserve size) := by
      apply UInt64.toNat_inj.mp
      rw [UInt64.toNat_add, UInt64.toNat_ofNat_of_lt' (by unfold UInt64.size; omega)]
      omega
    have hps := toNat_pageCeil ((h.arena l).start + UInt64.ofNat (s.used h)) (by omega)
    have hpe := toNat_pageCeil stop (by omega)
    rw [hnat, pageBytes_add _ hsa] at hps
    rw [hend, hnat, Nat.add_assoc, pageBytes_add _ hsa] at hpe
    have hpages := pageBytes_le hfit hza
    split_ifs with hlt
    · have hsub := UInt64.toNat_sub_of_le _ _ (UInt64.le_of_lt hlt)
      rw [UInt64.lt_iff_toNat_lt] at hlt
      obtain ⟨b', hmmap, hframe, hshows⟩ := hf.maps hfree (Function.update s.asked h true) ⟨_, _⟩
        (Nat.le_add_right (s.used h) (reserve size)) hfit hps
        (by dsimp only; rw [hsub]; omega) (by dsimp only; rw [hsub]; omega)
      rw [hmmap, ok_bind]
      dsimp only
      rw [mapFailed_reply (by omega)]
      exact ⟨_, rfl, hframe, hf.moved hframe hcurrent hfit (by omega) hshows⟩
    · rw [UInt64.lt_iff_toNat_lt] at hlt
      have hsame : pageBytes (s.used h + reserve size) = pageBytes (s.used h) :=
        le_antisymm (by omega) (pageBytes_mono (Nat.le_add_right _ _))
      exact ⟨_, rfl, ⟨rfl, rfl⟩, hf.moved ⟨rfl, rfl⟩ hcurrent hfit (by omega) (hf.same_pages _ hsame)⟩
  · have hroom := not_not.mp (mt hstop.mp (by omega))
    rw [if_neg hfit]
    dsimp only
    rw [if_pos hroom]
    refine ⟨_, rfl, ⟨rfl, rfl⟩, ?_⟩
    have hmoved := hf.moved (h := h) ⟨rfl, rfl⟩ rfl hfits hal (hf.same_pages _ rfl)
    rw [Function.update_eq_self] at hmoved
    exact hmoved

theorem allocAll (hf : g.Follows l c s) (hfree : ∀ h a, (Heap.arena l h).covers a = true → c.status a = stFree)
    (rs : List (Heap × UInt64)) :
    ∃ g', g.allocAll l rs = .ok (addresses l rs (s.allocAll l.heapRoom rs).1, g') ∧
      g.block.SameFrame g'.block ∧ g'.Follows l c (s.allocAll l.heapRoom rs).2 := by
  induction rs generalizing g s with
  | nil => exact ⟨g, rfl, ⟨rfl, rfl⟩, hf⟩
  | cons r rs ih =>
    obtain ⟨g₁, hone, hframe₁, hf₁⟩ := hf.onHeap hfree r.1 r.2
    obtain ⟨g₂, hrest, hframe₂, hf₂⟩ := ih hf₁
    have halloc : GuestHeaps.alloc l r.1 r.2 g = g.onHeap l r.1 r.2 := by
      cases r.1 <;> rfl
    refine ⟨g₂, ?_, hframe₁.trans hframe₂, hf₂⟩
    rw [GuestHeaps.allocAll, halloc, hone, ok_bind, hrest]
    rfl

theorem sealed_size (hf : g.Follows l c s) (hasked : s.asked .sealed = true) :
    ((g.current .sealed - l.sealedHeap.start + 0xfff) &&& ~~~0xfff).toNat = pageBytes (s.used .sealed) := by
  have hlow := hf.arenas.low
  obtain ⟨hin, hin'⟩ := hf.arenas.inside .sealed
  have hfits := hf.fits .sealed
  have hsub : g.current .sealed - l.sealedHeap.start = UInt64.ofNat (s.used .sealed) := by
    rw [hf.current, if_pos hasked]
    show l.sealedHeap.start + _ - _ = _
    rw [UInt64.add_comm, UInt64.add_sub_cancel]
  have hnat : (UInt64.ofNat (s.used .sealed)).toNat = s.used .sealed :=
    UInt64.toNat_ofNat_of_lt' (by unfold UInt64.size; omega)
  rw [hsub, toNat_pageCeil _ (by omega), hnat]

theorem eclSeal_unasked (hf : g.Follows l c s) (hasked : s.asked .sealed = false) : eclSeal l g = .ok g := by
  have hcurrent : g.current .sealed = 0 := by
    rw [hf.current, hasked]
    rfl
  unfold eclSeal
  rw [if_neg (not_not.mpr hcurrent)]

theorem current_ne_zero (hf : g.Follows l c s) (hasked : s.asked h = true) : g.current h ≠ 0 := by
  obtain ⟨-, hnat⟩ := hf.start_eq h
  have hpos := hf.arenas.start_pos h
  rw [hf.current, if_pos hasked]
  intro h0
  rw [h0, UInt64.toNat_zero] at hnat
  omega

theorem eclSeal_empty (hf : g.Follows l c s) (hasked : s.asked .sealed = true) (hempty : s.used .sealed = 0) :
    eclSeal l g = .error .trap := by
  have hsize := hf.sealed_size hasked
  rw [hempty] at hsize
  have hzero : (g.current .sealed - l.sealedHeap.start + 0xfff) &&& ~~~0xfff = 0 := UInt64.toNat_inj.mp hsize
  unfold eclSeal
  rw [if_pos (hf.current_ne_zero hasked), hzero]
  unfold Block.mprotect Block.validate MiniBox.validate
  rw [if_pos (Or.inr (Or.inr (Or.inl rfl)))]
  rfl

theorem eclSeal_used (hf : g.Follows l c s) (hused : 0 < s.used .sealed) :
    ∃ b', eclSeal l g = .ok ⟨g.current, b'⟩ ∧ g.block.SameFrame b' ∧ b'.Shows { c with
      status := fun a => if s.takes l .sealed a then 0x01 else (s.canvas l c).status a } := by
  have hasked : s.asked .sealed = true := by
    by_contra hno
    have := hf.unused .sealed (Bool.eq_false_iff.mpr hno)
    omega
  have hsize := hf.sealed_size hasked
  have hlow := hf.arenas.low
  obtain ⟨hin, hin'⟩ := hf.arenas.inside .sealed
  have hsa := hf.arenas.start_aligned .sealed
  have hza := hf.arenas.size_aligned .sealed
  have hpages := pageBytes_le (hf.fits .sealed) hza
  have hpos : 0 < pageBytes (s.used .sealed) := hused.trans_le (le_pageBytes _)
  unfold eclSeal
  rw [if_pos (hf.current_ne_zero hasked)]
  generalize (g.current .sealed - l.sealedHeap.start + 0xfff) &&& ~~~0xfff = size at hsize ⊢
  have hcov : ∀ a, (Range.mk l.sealedHeap.start size).covers a = true ↔ s.takes l .sealed a = true := by
    intro a
    rw [Range.covers_iff, takes_iff]
    dsimp only [Heap.arena]
    rw [hsize]
  dsimp only [Heap.arena] at hin hin' hsa hza hpages
  have hwithin : (Range.mk l.sealedHeap.start size).Within g.block.addr := by
    have hmod : pageBytes (s.used .sealed) % 4096 = 0 := Nat.mul_mod_left _ _
    rw [← hsize] at hpos hpages hmod
    exact ⟨hpos, hsa, hmod, hin, (Nat.add_le_add_left hpages _).trans hin'⟩
  have htaken : ∀ a, (Range.mk l.sealedHeap.start size).covers a = true → (s.canvas l c).status a ≠ stFree := by
    intro a ha
    rw [canvas_status, if_pos ⟨.sealed, (hcov a).mp ha⟩]
    decide
  obtain ⟨b', hmprotect, hframe, hshows⟩ :=
    Block.mprotect_shows hf.shows (by unfold Range.NoWrap; omega) hwithin .r htaken
  refine ⟨b', ?_, hframe, ?_⟩
  · rw [hmprotect]
    rfl
  · have hstatus : paint (Range.only ⟨l.sealedHeap.start, size⟩ (protStatus .r)) (s.canvas l c).status =
        fun a => if s.takes l .sealed a then 0x01 else (s.canvas l c).status a := by
      funext a
      unfold paint
      by_cases ha : s.takes l .sealed a = true
      · rw [Range.only_some ((hcov a).mpr ha), if_pos ha]
        rfl
      · rw [Range.only_none (mt (hcov a).mp ha), if_neg ha]
        rfl
    rw [hstatus] at hshows
    exact hshows

end GuestHeaps.Follows

theorem GuestHeaps.Follows.fresh {b : Block} (ha : HeapArenas l b) (hs : b.Shows c) :
    GuestHeaps.Follows l c .new ⟨fun _ => 0, b⟩ := by
  have hcanvas : Bumps.new.canvas l c = c := by
    have hnone : ∀ a, ¬ ∃ h, Bumps.new.takes l h a = true := by
      rintro a ⟨h, hh⟩
      rw [takes_iff] at hh
      have hzero : pageBytes (Bumps.new.used h) = 0 := show pageBytes 0 = 0 by decide
      omega
    unfold Bumps.canvas
    simp only [hnone, if_false]
  refine ⟨fun _ => rfl, fun _ => Nat.zero_le _, fun _ => rfl, fun _ _ => rfl, ha, ?_⟩
  rw [hcanvas]
  exact hs

end Steps

section Hosts

variable {span : Range} {hash : Bytes 32} {tpl : LayoutTemplate} {host : Host}

theorem Range.stack_in {s : UInt64} {xs : List UInt64} (h : s.toNat + total xs < 2 ^ 64) :
    ∀ r ∈ stack s xs, s.toNat ≤ r.start.toNat ∧ r.start.toNat + r.size.toNat ≤ s.toNat + total xs := by
  induction xs generalizing s with
  | nil =>
    intro r hr
    cases hr
  | cons x xs ih =>
    rw [total_cons] at h ⊢
    have hsum : (s + x).toNat = s.toNat + x.toNat := by
      rw [UInt64.toNat_add]
      omega
    intro r hr
    rcases List.mem_cons.mp hr with rfl | hr
    · exact ⟨le_rfl, by dsimp only; omega⟩
    · have hrest := ih (by omega) r hr
      omega

theorem heapArenas_of_create (hmade : Host.create span hash tpl = .ok (.inr host))
    (hfits : Layout.Fits span.alignExpand tpl) (hlow : host.layout.all.start.toNat + host.layout.all.size.toNat ≤ 2 ^ 63)
    (hpos : 0 < span.alignExpand.start.toNat) {b : Block} (hb : b.addr = host.layout.all) : HeapArenas host.layout b := by
  obtain ⟨hlayout, haddr⟩ := create_layout hmade
  obtain ⟨hstart, hsize⟩ := Layout.aligned_alignExpand span
  have hcheck := check_of_create (show Host.create span hash tpl ≠ .ok (.inl regionError) by rw [hmade]; simp)
  have hsound := Layout.sound_of_fits hstart hsize hcheck hfits
  rw [← hlayout] at hsound
  have hregion : ∀ h, Heap.arena host.layout h ∈ host.layout.regions := by
    intro h
    cases h <;> simp [Heap.arena, Layout.regions]
  -- the lower half leaves no room for the sizes to wrap
  have hin : ∀ r ∈ host.layout.regions, span.alignExpand.start.toNat ≤ r.start.toNat ∧ r.In host.layout.all := by
    obtain ⟨htotal, -⟩ := hfits.total_le
    have hsome : 0 < Range.total (Layout.sizes span.alignExpand tpl) := by
      rw [Layout.total_sizes]
      omega
    rw [Layout.rangeEnd_all, Layout.all_build] at hcheck
    obtain ⟨-, hall⟩ :=
      Layout.region_of_check hsome htotal (Layout.toNat_rangeEnd_build span.alignExpand tpl) hcheck
    have hstarts : host.layout.all.start = span.alignExpand.start := by rw [hlayout]; rfl
    have hsizes : host.layout.all.size.toNat = Range.total (Layout.sizes span.alignExpand tpl) := by
      rw [hlayout]
      exact hall
    rw [hstarts, hsizes] at hlow
    intro r hr
    rw [hlayout, Layout.regions_build] at hr
    have hr' := Range.stack_in (by omega) r hr
    refine ⟨hr'.1, ?_, ?_⟩
    · rw [hstarts]
      exact hr'.1
    · rw [hstarts, hsizes]
      exact hr'.2
  rw [← hb] at hlow
  refine ⟨hlow, ?_, ?_, ?_, ?_, ?_⟩
  · intro h
    exact hpos.trans_le (hin _ (hregion h)).1
  · intro h
    exact (hsound.aligned _ (hregion h)).1
  · intro h
    exact (hsound.aligned _ (hregion h)).2
  · intro h
    rw [hb]
    exact (hin _ (hregion h)).2
  · have hapart : ∀ {r r' : Range}, Disjoint r.cells r'.cells →
        (∀ a, r.covers a = true → r'.covers a = false) ∧ ∀ a, r'.covers a = true → r.covers a = false := by
      intro r r' hdisjoint
      rw [Set.disjoint_left] at hdisjoint
      refine ⟨?_, ?_⟩
      · intro a ha
        rw [Bool.eq_false_iff]
        exact fun ha' => hdisjoint (Range.covers_iff.mp ha) (Range.covers_iff.mp ha')
      · intro a ha
        rw [Bool.eq_false_iff]
        exact fun ha' => hdisjoint (Range.covers_iff.mp ha') (Range.covers_iff.mp ha)
    have hdisjoint := hsound.disjoint
    simp only [Layout.regions, List.pairwise_cons, List.forall_mem_cons] at hdisjoint
    obtain ⟨-, -, -, -, ⟨h1, h2, -⟩, ⟨h3, -⟩, -⟩ := hdisjoint
    intro h h' hne
    cases h <;> cases h' <;> first | exact absurd rfl hne | skip
    · exact (hapart h1).1
    · exact (hapart h2).1
    · exact (hapart h1).2
    · exact (hapart h3).1
    · exact (hapart h2).2
    · exact (hapart h3).2

theorem heaps_serve (hmade : Host.create span hash tpl = .ok (.inr host))
    (hfits : Layout.Fits span.alignExpand tpl) (hlow : host.layout.all.start.toNat + host.layout.all.size.toNat ≤ 2 ^ 63)
    (hpos : 0 < span.alignExpand.start.toNat) {b : Block} {c : Canvas} (hb : b.addr = host.layout.all) (hs : b.Shows c)
    (hfree : ∀ h a, (Heap.arena host.layout h).covers a = true → c.status a = stFree) (rs : List (Heap × UInt64)) :
    let served := Bumps.new.allocAll host.layout.heapRoom rs
    ∃ g, (GuestHeaps.mk (fun _ => 0) b).allocAll host.layout rs = .ok (addresses host.layout rs served.1, g) ∧
      g.block.addr = b.addr ∧ g.block.Shows (served.2.canvas host.layout c) ∧
      (∀ u ∈ heapGrants rs served.1, u.first % 16 = 0 ∧ u.first + u.bytes ≤ host.layout.heapRoom u.heap ∧
        (u.size.toNat ≤ 2 ^ 64 - 16 → u.size.toNat ≤ u.bytes) ∧ (2 ^ 64 - 16 < u.size.toNat → u.bytes = 0) ∧
        ∀ i < u.bytes, (served.2.canvas host.layout c).status ((u.heap.arena host.layout).start.toNat + u.first + i) = 3) ∧
      (heapGrants rs served.1).Pairwise (fun u v => u.heap = v.heap → u.first + u.bytes ≤ v.first) ∧
      (served.2.asked .sealed = false → eclSeal host.layout g = .ok g) ∧
      (served.2.asked .sealed = true → served.2.used .sealed = 0 → eclSeal host.layout g = .error .trap) ∧
      (0 < served.2.used .sealed → ∃ b', eclSeal host.layout g = .ok ⟨g.current, b'⟩ ∧ b'.addr = b.addr ∧ b'.Shows { c with
        status := fun a =>
          if served.2.takes host.layout .sealed a then 1 else (served.2.canvas host.layout c).status a }) := by
  have hf := GuestHeaps.Follows.fresh (heapArenas_of_create hmade hfits hlow hpos hb) hs
  obtain ⟨g, hrun, hframe, hg⟩ := hf.allocAll hfree rs
  refine ⟨g, hrun, hframe.addr, hg.shows, ?_, Bumps.pairwise_grants _ rs, hg.eclSeal_unasked, hg.eclSeal_empty, ?_⟩
  · intro u hu
    obtain ⟨-, hend⟩ := Bumps.mem_grants hu
    have hpages := le_pageBytes ((Bumps.new.allocAll host.layout.heapRoom rs).2.used u.heap)
    have hbytes := bytes_heapGrants _ _ u hu
    refine ⟨Bumps.aligned_grants (fun _ => rfl) u hu, hend.trans (hg.fits _), ?_, ?_, ?_⟩
    · intro hsize
      rw [hbytes, reserve_eq hsize]
      omega
    · intro hsize
      rw [hbytes, reserve_wraps hsize]
    · intro i hi
      rw [canvas_status, if_pos ⟨u.heap, takes_iff.mpr ⟨by omega, by omega⟩⟩]
  · intro hused
    obtain ⟨b', hseal, hframe', hshows⟩ := hg.eclSeal_used hused
    exact ⟨b', hseal, hframe'.addr.trans hframe.addr, hshows⟩

/-- A layout without a plain heap, right after `mb_host_new`. The request for `2 ^ 64 - 1` bytes gets an address that the
next request gets as well. -/
theorem heaps_serve_small : ∃ (span : Range) (tpl : LayoutTemplate) (host : Host) (g : GuestHeaps) (b' : Block),
    Host.create span (zeroes 32) tpl = .ok (.inr host) ∧
      (GuestHeaps.mk (fun _ => 0) host.block).allocAll host.layout [(.sealed, 100), (.plain, 1), (.invisible, 0x900),
          (.sealed, 0xffffffffffffffff), (.sealed, 0x2000), (.invisible, 0x701)] =
        .ok ([some 0x36f00212000, none, some 0x36f00222000, some 0x36f00212070, some 0x36f00212070, none], g) ∧
      ([0x212, 0x214, 0x215].map fun i => (g.block.pages i).status) = [3, 3, 0] ∧
      eclSeal host.layout g = .ok ⟨g.current, b'⟩ ∧
      ([0x212, 0x214, 0x215, 0x222].map fun i => (b'.pages i).status) = [1, 1, 0, 3] := by
  obtain ⟨host, hmade, hlayout, haddr⟩ := exists_created ⟨0x36f00000123, 0x1234⟩ (zeroes 32)
    ⟨0x10000, 0x10000, 1, 0, 0x3a000⟩ (by decide +kernel)
  have hlow : host.layout.all.start.toNat + host.layout.all.size.toNat ≤ 2 ^ 63 := by
    rw [hlayout]
    decide
  obtain ⟨g, hserved, hframe, hshows, -, -, -, -, hseal⟩ := heaps_serve hmade (by decide) hlow (by decide) haddr
    (create_shows hmade) (fun _ _ _ => rfl) [(.sealed, 100), (.plain, 1), (.invisible, 0x900),
      (.sealed, 0xffffffffffffffff), (.sealed, 0x2000), (.invisible, 0x701)]
  obtain ⟨b', hsealed, hframe', hshows'⟩ := hseal (by rw [hlayout]; decide)
  have hpages : ∀ {d : Block}, d.addr = host.block.addr → d.npages = 0x25d ∧
      ∀ i, d.pageStart i = 0x36f00000000 + i * 4096 := by
    intro d hd
    rw [haddr, hlayout] at hd
    refine ⟨?_, ?_⟩
    · rw [Block.npages, hd]
      decide
    · intro i
      rw [Block.pageStart, hd]
      rfl
  obtain ⟨hn, hstart⟩ := hpages hframe
  obtain ⟨hn', hstart'⟩ := hpages hframe'
  have hstatus : ([0x212, 0x214, 0x215].map fun i => (g.block.pages i).status) = [3, 3, 0] := by
    rw [List.map_congr_left (fun i hi => hshows.status i (by simp at hi; omega))]
    simp only [hstart]
    rw [hlayout]
    decide
  have hstatus' : ([0x212, 0x214, 0x215, 0x222].map fun i => (b'.pages i).status) = [1, 1, 0, 3] := by
    rw [List.map_congr_left (fun i hi => hshows'.status i (by simp at hi; omega))]
    simp only [hstart']
    rw [hlayout]
    decide
  refine ⟨_, _, host, g, b', hmade, ?_, hstatus, hsealed, hstatus'⟩
  rw [hserved, hlayout]
  rfl

end Hosts

end MiniBox
