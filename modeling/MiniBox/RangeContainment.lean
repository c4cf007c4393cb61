import MiniBox.BaselineInvariant

namespace MiniBox

open Outcomes Relation

namespace MemOp

def Addressed : MemOp → Prop
  | mmapFixed _ _ _ => False
  | mmap addr _ _ _ => addr.start ≠ 0
  | mprotect _ _ => True
  | munmap _ => True
  | madviseDontneed _ => True
  | mremap _ _ => True

def ranges : MemOp → List Range
  | mmapFixed addr _ _ => [addr]
  | mmap addr _ _ _ => [addr]
  | mprotect addr _ => [addr]
  | munmap addr => [addr]
  | madviseDontneed addr => [addr]
  | mremap addr newSize =>
    if newSize > addr.size then [addr, ⟨addr.start, newSize⟩]
    else [addr, ⟨addr.start + newSize, addr.size - newSize⟩]

def AsksToMove : MemOp → Prop
  | mremap addr newSize => addr.start = 0 ∧ addr.size ≠ 0 ∧ newSize ≠ 0
  | _ => False

end MemOp

structure Contained (b : Block) (op : MemOp) : Prop where
  accepts : ∀ r ∈ op.ranges, b.validate r ≠ none → r.Within b.addr
  inTable : ∃ rc b', op.run b = .ok (rc, b')
  refuses : (∃ r ∈ op.ranges, ¬ r.Within b.addr) → op.run b = .ok (-einval, b)

def Overflows (span r : Range) : Prop :=
  2 ^ 64 ≤ r.start.toNat + r.size.toNat ∧
    ¬ (r.start.toNat + r.size.toNat = 2 ^ 64 ∧ span.start.toNat + span.size.toNat = 2 ^ 64)

def Refused (span r : Range) : Prop :=
  r.start.toNat < span.start.toNat ∨ r.start.toNat % 4096 ≠ 0 ∨ r.size.toNat % 4096 ≠ 0 ∨
    span.rangeEnd.toNat < r.rangeEnd.toNat

variable {b : Block} {span r : Range}

theorem Overflows.not_within (hs : span.IsSpan) (h : Overflows span r) : ¬ r.Within span := by
  intro hw
  have h1 := hw.end_le
  have h2 := hs.no_wrap
  unfold Overflows at h
  omega

theorem validate_none (h : validate span r = none) (hsize : r.size.toNat ≠ 0) : Refused span r := by
  unfold validate at h
  split_ifs at h with hc
  unfold Refused
  rcases hc with hc | hc | hc | hc | hc
  · exact Or.inl (UInt64.lt_iff_toNat_lt.mp hc)
  · exact Or.inr (Or.inr (Or.inr (UInt64.lt_iff_toNat_lt.mp hc)))
  · rw [hc] at hsize
    exact absurd rfl hsize
  · exact Or.inr (Or.inl fun ha => hc ((eq_alignDown_iff _).mpr ha))
  · exact Or.inr (Or.inr (Or.inl fun ha => hc ((eq_alignDown_iff _).mpr ha)))

theorem not_refused {ps pc : ℕ} (h : validate span r = some (ps, pc)) : ¬ Refused span r := by
  obtain ⟨h1, -, -, -, h4, h5, h6⟩ := validate_counts h
  unfold Refused
  omega

theorem accepts_iff (hs : span.IsSpan) :
    (validate span r ≠ none → r.Within span) ↔ (Overflows span r → Refused span r) := by
  constructor
  · intro h ho
    cases hv : validate span r with
    | none =>
      refine validate_none hv fun h0 => ?_
      have := r.start.toNat_lt
      unfold Overflows at ho
      omega
    | some q => exact absurd (h (by simp [hv])) (ho.not_within hs)
  · intro h hv
    obtain ⟨⟨ps, pc⟩, hv⟩ := Option.ne_none_iff_exists'.mp hv
    have hr := not_refused hv
    by_cases hw : r.NoWrap
    · exact validate_within hw hv
    · obtain ⟨h1, -, -, h4, h5, h6, -⟩ := validate_counts hv
      have ho : ¬ Overflows span r := fun ho => hr (h ho)
      unfold Overflows at ho
      unfold Range.NoWrap at hw
      exact ⟨h4, h5, h6, h1, by omega⟩

theorem bounded_of_accepts (h : b.validate r ≠ none → r.Within b.addr) : b.Bounded r :=
  fun _ _ hv => (h (by simp [hv])).bounds b.span hv

theorem not_accepted (h : b.validate r ≠ none → r.Within b.addr) (hw : ¬ r.Within b.addr) :
    b.validate r = none := by
  by_contra hv
  exact hw (h hv)

theorem run_of_range {x : Except Crash (ℤ × Block)} {k : ℕ → ℕ → Except Crash (ℤ × Block)}
    (hr : b.validate r ≠ none → r.Within b.addr) (hk : ∀ ps pc, ∃ rc b', k ps pc = .ok (rc, b'))
    (hx : x = match b.validate r with
      | none => .ok (-einval, b)
      | some (ps, pc) => k ps pc) :
    (∃ rc b', x = .ok (rc, b')) ∧ (¬ r.Within b.addr → x = .ok (-einval, b)) := by
  constructor
  · cases hv : b.validate r with
    | none => exact ⟨_, _, by rw [hx, hv]⟩
    | some q =>
      obtain ⟨rc, b', he⟩ := hk q.1 q.2
      exact ⟨rc, b', by rw [hx, hv]; exact he⟩
  · intro hw
    rw [hx, not_accepted hr hw]

theorem mremap_of_accepts {addr : Range} {newSize : UInt64} (hm : ¬ (MemOp.mremap addr newSize).AsksToMove)
    (h : ∀ r ∈ (MemOp.mremap addr newSize).ranges, b.validate r ≠ none → r.Within b.addr) :
    (∃ rc b', b.mremap addr newSize = .ok (rc, b')) ∧
      ((∃ r ∈ (MemOp.mremap addr newSize).ranges, ¬ r.Within b.addr) → b.mremap addr newSize = .ok (-einval, b)) := by
  by_cases h0 : addr.size = 0 ∨ newSize = 0
  · rw [Block.mremap, if_pos h0]
    exact ⟨⟨_, _, rfl⟩, fun _ => rfl⟩
  have hz : ¬ addr.start = 0 := by
    intro hz
    push Not at h0
    exact hm ⟨hz, h0⟩
  by_cases hg : newSize > addr.size
  · simp only [MemOp.ranges, if_pos hg, List.mem_cons, List.not_mem_nil, or_false, forall_eq_or_imp, forall_eq,
      exists_eq_or_imp, exists_eq_left] at h ⊢
    rw [mremap_eq addr newSize (bounded_of_accepts h.1) (fun _ => bounded_of_accepts h.2) (fun hn => absurd hg hn),
      if_neg h0, if_neg hz]
    cases hv : b.validate addr with
    | none => exact ⟨⟨_, _, rfl⟩, fun _ => rfl⟩
    | some q =>
      have hw := h.1 (by simp [hv])
      simp only [hg, ↓reduceIte, hw, not_true_eq_false, false_or]
      refine run_of_range h.2 (fun fs fc => ?_) rfl
      split_ifs <;> exact ⟨_, _, rfl⟩
  · simp only [MemOp.ranges, if_neg hg, List.mem_cons, List.not_mem_nil, or_false, forall_eq_or_imp, forall_eq,
      exists_eq_or_imp, exists_eq_left] at h ⊢
    rw [mremap_eq addr newSize (bounded_of_accepts h.1) (fun hn => absurd hn hg) (fun _ => bounded_of_accepts h.2),
      if_neg h0, if_neg hz]
    cases hv : b.validate addr with
    | none => exact ⟨⟨_, _, rfl⟩, fun _ => rfl⟩
    | some q =>
      have hw := h.1 (by simp [hv])
      simp only [hg, ↓reduceIte, hw, not_true_eq_false, false_or]
      by_cases hf : b.hasFree q.1 q.2 = true
      · simp only [hf, ↓reduceIte, implies_true, and_true]
        exact ⟨_, _, rfl⟩
      · simp only [hf, Bool.false_eq_true, ↓reduceIte]
        refine run_of_range h.2 (fun ts tc => ?_) rfl
        split_ifs <;> exact ⟨_, _, rfl⟩

theorem run_of_accepts {op : MemOp} (ha : op.Addressed) (hm : ¬ op.AsksToMove)
    (h : ∀ r ∈ op.ranges, b.validate r ≠ none → r.Within b.addr) :
    (∃ rc b', op.run b = .ok (rc, b')) ∧ ((∃ r ∈ op.ranges, ¬ r.Within b.addr) → op.run b = .ok (-einval, b)) := by
  cases op with
  | mmapFixed addr prot noReplace => exact ha.elim
  | mmap addr prot arena noReplace =>
    have hr := h addr (by simp [MemOp.ranges])
    have hz : ¬ addr.start = 0 := ha
    simp only [MemOp.run, MemOp.ranges, List.mem_singleton, exists_eq_left, Block.mmap]
    by_cases h0 : addr.size = 0
    · rw [if_pos h0]
      exact ⟨⟨_, _, rfl⟩, fun _ => rfl⟩
    · rw [if_neg h0, if_neg hz, mmapFixed_eq addr prot noReplace (bounded_of_accepts hr)]
      refine run_of_range (k := fun ps pc => if noReplace && b.hasTaken ps pc then .ok (-eexist, b)
        else .ok (sword addr.start, b.edit ps pc (.status (protStatus prot)))) hr ?_ ?_
      · intro ps pc
        split_ifs <;> exact ⟨_, _, rfl⟩
      · cases hv : b.validate addr with
        | none => rfl
        | some q =>
          dsimp only
          split_ifs <;> rfl
  | mprotect addr prot =>
    have hr := h addr (by simp [MemOp.ranges])
    simp only [MemOp.run, MemOp.ranges, List.mem_singleton, exists_eq_left]
    refine run_of_range hr (fun ps pc => ?_) (mprotect_eq addr prot (bounded_of_accepts hr))
    split_ifs <;> exact ⟨_, _, rfl⟩
  | munmap addr =>
    have hr := h addr (by simp [MemOp.ranges])
    simp only [MemOp.run, MemOp.ranges, List.mem_singleton, exists_eq_left]
    refine run_of_range hr (fun ps pc => ?_) (munmapImpl_eq addr false (bounded_of_accepts hr))
    split_ifs <;> exact ⟨_, _, rfl⟩
  | madviseDontneed addr =>
    have hr := h addr (by simp [MemOp.ranges])
    simp only [MemOp.run, MemOp.ranges, List.mem_singleton, exists_eq_left]
    refine run_of_range hr (fun ps pc => ?_) (munmapImpl_eq addr true (bounded_of_accepts hr))
    split_ifs <;> exact ⟨_, _, rfl⟩
  | mremap addr newSize => exact mremap_of_accepts hm h

theorem run_of_move {op : MemOp} (hm : op.AsksToMove) : op.run b = .ok (-enosys, b) := by
  cases op with
  | mremap addr newSize =>
    obtain ⟨hz, h0, hn⟩ := hm
    rw [MemOp.run, Block.mremap, if_neg (by simp [h0, hn]), if_pos hz]
  | _ => exact hm.elim

theorem contained_iff (b : Block) (op : MemOp) (ha : op.Addressed) :
    Contained b op ↔ (∀ r ∈ op.ranges, Overflows b.addr r → Refused b.addr r) ∧
      (op.AsksToMove → ∀ r ∈ op.ranges, r.Within b.addr) := by
  constructor
  · intro hc
    refine ⟨fun r hr => (accepts_iff b.span).mp (hc.accepts r hr), fun hm r hr => ?_⟩
    by_contra hw
    have he := hc.refuses ⟨r, hr, hw⟩
    rw [run_of_move hm] at he
    cases he
  · rintro ⟨ho, hmove⟩
    have hacc : ∀ r ∈ op.ranges, b.validate r ≠ none → r.Within b.addr :=
      fun r hr => (accepts_iff b.span).mpr (ho r hr)
    by_cases hm : op.AsksToMove
    · refine ⟨hacc, ⟨_, _, run_of_move hm⟩, ?_⟩
      rintro ⟨r, hr, hw⟩
      exact absurd (hmove hm r hr) hw
    · obtain ⟨h1, h2⟩ := run_of_accepts ha hm hacc
      exact ⟨hacc, h1, h2⟩

theorem contained_onePage : Contained smallest (.munmap onePage) := by
  refine (contained_iff smallest (.munmap onePage) trivial).mpr ⟨fun r hr ho => ?_, fun hm => hm.elim⟩
  rw [List.mem_singleton.mp hr] at ho
  exact absurd ho.1 (by decide)

def wrapping : Range := ⟨0x36f00000000, 0xfffffffffffff000⟩

theorem containment_fails : ∃ b₀ b : Block, smallest.activate = .ok b₀ ∧
    (MemOp.mmapFixed onePage .rw true).run b₀ = .ok (0, b) ∧ b.validate wrapping = some (0, 0xfffffffffffff) ∧
    (MemOp.munmap wrapping).run b = .error .outOfBounds ∧ ¬ Contained b (.munmap wrapping) := by
  have hrun : passes (do
      let u₁ ← smallest.ready
      return decide (u₁.1 = 0 ∧ u₁.2.npages = 1 ∧ (u₁.2.pages 0).status = stRW ∧
        u₁.2.validate wrapping = some (0, 0xfffffffffffff))) = true := by decide +kernel
  obtain ⟨⟨r, b⟩, hready, hrun⟩ := passes_bind hrun
  obtain ⟨rfl, hn, hst, hv⟩ := passes_pure hrun
  obtain ⟨b₀, hact, hmap⟩ := ready_ok hready
  have hfree : (b.pages 0).isFree = false := by
    rw [Page.isFree, hst]
    decide
  have hoob : (MemOp.munmap wrapping).run b = .error .outOfBounds := by
    rw [MemOp.run, Block.munmap, Block.munmapImpl, hv]
    have hany : b.anyFree 0 0xfffffffffffff = .error .outOfBounds := by
      rw [Block.anyFree, show (0xfffffffffffff : ℕ) = 0xffffffffffffd + 1 + 1 from rfl, IndexLoops.anyRange,
        IndexLoops.anyRange, hn, hfree]
      rfl
    exact congrArg (fun x => x >>= _) hany
  refine ⟨b₀, b, hact, hmap, hv, hoob, fun hc => ?_⟩
  obtain ⟨rc, b', he⟩ := hc.inTable
  rw [hoob] at he
  cases he

end MiniBox
