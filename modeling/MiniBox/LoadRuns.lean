import MiniBox.BlockState

namespace MiniBox

open ByteStream IndexLoops Outcomes

namespace Pass

variable (l : Pass)

def newDirty (k : ℕ) : Bool := l.dirtii k != 0

def sourceAt : ℕ → Source
  | 0 => l.source
  | k + 1 => ((l.block.pages k).load (l.newDirty k) (sourceAt k)).2.2

def code (k : ℕ) : ℤ := ((l.block.pages k).load (l.newDirty k) (l.sourceAt k)).1

def body (k : ℕ) : Page := ((l.block.pages k).load (l.newDirty k) (l.sourceAt k)).2.1

def after (k : ℕ) : Page := (l.body k).setStatus (l.statii k)

def changed (k : ℕ) : Bool := decide ((l.after k).nativeProt ≠ (l.block.pages k).nativeProt)

def settled (k : ℕ) : Page := if l.changed k then l.block.sync (l.after k) else l.after k

def runStart : ℕ → Option ℕ
  | 0 => none
  | k + 1 => if l.changed k then some ((runStart k).getD k) else none

def pending (k j : ℕ) : Bool := (l.runStart k).any fun r => decide (r ≤ j)

def pagesAt (k j : ℕ) : Page :=
  if j < k then (if l.pending k j then l.after j else l.settled j) else l.block.pages j

def blockAt (k : ℕ) : Block := l.block.withPages (l.pagesAt k)

def flushed (k : ℕ) : Block :=
  l.block.withPages fun j => if j < k then l.settled j else l.block.pages j

theorem runStart_lt {k r : ℕ} (h : l.runStart k = some r) : r < k := by
  induction k generalizing r with
  | zero => simp [runStart] at h
  | succ k ih =>
    rw [runStart] at h
    split_ifs at h with hc
    cases hr : l.runStart k with
    | none => simp [hr] at h; omega
    | some q =>
      have := ih hr
      simp [hr] at h
      omega

theorem changed_of_runStart {k r : ℕ} (h : l.runStart k = some r) (j : ℕ) (h1 : r ≤ j) (h2 : j < k) :
    l.changed j = true := by
  induction k generalizing r with
  | zero => omega
  | succ k ih =>
    rw [runStart] at h
    split_ifs at h with hc
    by_cases hj : j = k
    · rw [hj, hc]
    · cases hr : l.runStart k with
      | none =>
        simp [hr] at h
        omega
      | some q =>
        simp [hr] at h
        exact ih hr (by omega) (by omega)

theorem pending_iff {k j : ℕ} (hj : j < k) :
    l.pending k j = true ↔ ∀ m, j ≤ m → m < k → l.changed m = true := by
  constructor
  · intro h m h1 h2
    cases hr : l.runStart k with
    | none => simp [pending, hr] at h
    | some r =>
      simp only [pending, hr, Option.any_some, decide_eq_true_eq] at h
      exact l.changed_of_runStart hr m (by omega) h2
  · intro h
    induction k with
    | zero => omega
    | succ k ih =>
      have hc := h k (by omega) (by omega)
      rw [pending, runStart, if_pos hc, Option.any_some, decide_eq_true_eq]
      by_cases hjk : j = k
      · cases hr : l.runStart k with
        | none => simp [hjk]
        | some r =>
          have := l.runStart_lt hr
          simp; omega
      · have hp := ih (by omega) (fun m h1 h2 => h m h1 (by omega))
        cases hr : l.runStart k with
        | none => simp [pending, hr] at hp
        | some r => simpa [pending, hr] using hp

theorem pagesAt_succ_of_changed {k : ℕ} (h : l.changed k = true) :
    l.pagesAt (k + 1) = Function.update (l.pagesAt k) k (l.after k) := by
  funext j
  by_cases hj : j = k
  · subst hj
    have hp : l.pending (j + 1) j = true := (l.pending_iff (by omega)).mpr fun m h1 h2 => by
      rwa [show m = j by omega]
    simp [pagesAt, hp]
  · rw [Function.update_of_ne hj]
    by_cases hlt : j < k
    · have hp : l.pending (k + 1) j = l.pending k j := by
        rw [Bool.eq_iff_iff, l.pending_iff hlt, l.pending_iff (by omega)]
        constructor
        · exact fun hm m h1 h2 => hm m h1 (by omega)
        · intro hm m h1 h2
          by_cases hmk : m = k
          · rw [hmk, h]
          · exact hm m h1 (by omega)
      simp [pagesAt, hlt, show j < k + 1 by omega, hp]
    · simp [pagesAt, hlt, show ¬ j < k + 1 by omega]

theorem pagesAt_of_none {k : ℕ} (h : l.runStart k = none) (j : ℕ) :
    l.pagesAt k j = if j < k then l.settled j else l.block.pages j := by
  simp [pagesAt, pending, h]

theorem flush_pages {k r : ℕ} (h : l.runStart k = some r) :
    mapRange l.block.sync r (k - r) (l.pagesAt k) =
      fun j => if j < k then l.settled j else l.block.pages j := by
  have hlt := l.runStart_lt h
  funext j
  by_cases hj : r ≤ j ∧ j < r + (k - r)
  · have hc := l.changed_of_runStart h j hj.1 (by omega)
    rw [mapRange_mem _ _ _ _ _ hj]
    simp [pagesAt, pending, h, hj.1, show j < k by omega, settled, hc]
  · rw [mapRange_not_mem _ _ _ _ _ hj]
    by_cases hjk : j < k
    · simp [pagesAt, pending, h, hjk, show ¬ r ≤ j by omega]
    · simp [pagesAt, hjk]

theorem blockAt_of_none {k : ℕ} (h : l.runStart k = none) : l.blockAt k = l.flushed k :=
  congrArg l.block.withPages (funext (l.pagesAt_of_none h))

theorem flushed_setPage {k : ℕ} (h : l.changed k = false) :
    (l.flushed k).setPage k (l.after k) = l.blockAt (k + 1) := by
  rw [l.blockAt_of_none (by simp [runStart, h])]
  apply congrArg l.block.withPages
  funext j
  by_cases hj : j = k
  · subst hj
    simp [settled, h]
  · rw [Function.update_of_ne hj]
    simp only [flushed, Block.withPages, show j < k + 1 ↔ j < k by omega]

theorem blockAt_setPage {k : ℕ} (h : l.changed k = true) :
    (l.blockAt k).setPage k (l.after k) = l.blockAt (k + 1) :=
  congrArg l.block.withPages (l.pagesAt_succ_of_changed h).symm

theorem flush_eq {k r : ℕ} (h : l.runStart k = some r) (hk : k ≤ l.block.npages) :
    (l.blockAt k).refreshRange r (k - 1 - r + 1) = .ok (l.flushed k) := by
  have hlt := l.runStart_lt h
  have hr : r + (k - 1 - r + 1) ≤ (l.blockAt k).npages := by
    change _ ≤ l.block.npages
    omega
  rw [refreshRange_eq _ _ _ hr, show k - 1 - r + 1 = k - r by omega]
  exact congrArg (fun p => Except.ok (l.block.withPages p)) (l.flush_pages h)

theorem flush_setPage {k r : ℕ} (h : l.runStart k = some r) (hk : k ≤ l.block.npages)
    (hc : l.changed k = false) :
    ((l.blockAt k).setPage k (l.after k)).refreshRange r (k - 1 - r + 1) = .ok (l.blockAt (k + 1)) := by
  have hlt := l.runStart_lt h
  have hr : r + (k - 1 - r + 1) ≤ ((l.blockAt k).setPage k (l.after k)).npages := by
    change _ ≤ l.block.npages
    omega
  rw [refreshRange_eq _ _ _ hr, show k - 1 - r + 1 = k - r by omega, ← l.flushed_setPage hc]
  apply congrArg (fun p => Except.ok (l.block.withPages p))
  have hp := l.flush_pages h
  funext j
  by_cases hj : j = k
  · subst hj
    rw [mapRange_not_mem _ _ _ _ _ (by omega)]
    simp
  · rw [Function.update_of_ne hj]
    change mapRange l.block.sync r (k - r) (Function.update (l.pagesAt k) k (l.after k)) j = _
    have hj' := congrFun hp j
    simp only [mapRange, Function.update_of_ne hj] at hj' ⊢
    exact hj'

theorem loadLoop_step {k : ℕ} (n e : ℕ) (hk : k < l.block.npages) (hc : l.code k = 0)
    (he : (l.runStart k).isSome → e = k - 1) :
    ∃ e', ((l.runStart (k + 1)).isSome → e' = k) ∧
      Block.loadLoop l.statii l.dirtii (n + 1) k (l.runStart k) e (l.blockAt k) (l.sourceAt k) =
        Block.loadLoop l.statii l.dirtii n (k + 1) (l.runStart (k + 1)) e' (l.blockAt (k + 1))
          (l.sourceAt (k + 1)) := by
  have hpage : (l.blockAt k).pages k = l.block.pages k := by simp [blockAt, pagesAt, Block.withPages]
  have hload : (l.block.pages k).load (l.dirtii k != 0) (l.sourceAt k) =
      (0, l.body k, l.sourceAt (k + 1)) := by rw [← hc]; rfl
  rw [Block.loadLoop, hpage, hload]
  simp only [ne_eq, not_true_eq_false, ↓reduceIte]
  rw [show (l.body k).setStatus (l.statii k) = l.after k from rfl]
  by_cases hch : l.changed k = true
  · have hne : ¬ (l.after k).nativeProt = (l.block.pages k).nativeProt := by simpa [changed] using hch
    refine ⟨k, fun _ => rfl, ?_⟩
    rw [if_pos hne, l.blockAt_setPage hch, runStart, if_pos hch]
  · have hch' : l.changed k = false := by simpa using hch
    have heq : ¬ ¬ (l.after k).nativeProt = (l.block.pages k).nativeProt := by simpa [changed] using hch
    have hn : l.runStart (k + 1) = none := by simp [runStart, hch']
    refine ⟨e, by simp [hn], ?_⟩
    rw [if_neg heq, hn]
    cases hr : l.runStart k with
    | none => rw [l.blockAt_of_none hr, l.flushed_setPage hch']
    | some r =>
      simp only [he (by simp [hr]), l.flush_setPage hr hk.le hch', ok_bind]

theorem loadLoop_ok {k : ℕ} (n e : ℕ) (hn : k + n ≤ l.block.npages)
    (hc : ∀ j, k ≤ j → j < k + n → l.code j = 0) (he : (l.runStart k).isSome → e = k - 1) :
    Block.loadLoop l.statii l.dirtii n k (l.runStart k) e (l.blockAt k) (l.sourceAt k) =
      .ok (0, l.flushed (k + n), l.sourceAt (k + n)) := by
  induction n generalizing k e with
  | zero =>
    cases hr : l.runStart k with
    | none => rw [Block.loadLoop, l.blockAt_of_none hr, Nat.add_zero]
    | some r =>
      rw [Block.loadLoop, he (by simp [hr]), l.flush_eq hr hn, ok_bind]
      rfl
  | succ n ih =>
    obtain ⟨e', he', hstep⟩ := l.loadLoop_step n e (by omega) (hc k (by omega) (by omega)) he
    rw [hstep, ih e' (by omega) (fun j h1 h2 => hc j (by omega) (by omega)) he',
      show k + 1 + n = k + (n + 1) by omega]

theorem loadLoop_fail {k m : ℕ} (n e : ℕ) (hn : k + n ≤ l.block.npages) (hkm : k ≤ m) (hm : m < k + n)
    (hfail : l.code m ≠ 0) (hc : ∀ j, k ≤ j → j < m → l.code j = 0)
    (he : (l.runStart k).isSome → e = k - 1) :
    Block.loadLoop l.statii l.dirtii n k (l.runStart k) e (l.blockAt k) (l.sourceAt k) =
      .ok (l.code m, (l.blockAt m).setPage m (l.body m), l.sourceAt (m + 1)) := by
  induction n generalizing k e with
  | zero => omega
  | succ n ih =>
    by_cases hmk : m = k
    · subst hmk
      have hpage : (l.blockAt m).pages m = l.block.pages m := by simp [blockAt, pagesAt, Block.withPages]
      have hload : (l.block.pages m).load (l.dirtii m != 0) (l.sourceAt m) =
          (l.code m, l.body m, l.sourceAt (m + 1)) := rfl
      rw [Block.loadLoop, hpage, hload]
      simp only [ne_eq, hfail, not_false_eq_true, ↓reduceIte]
    · obtain ⟨e', he', hstep⟩ := l.loadLoop_step n e (by omega) (hc k (by omega) (by omega)) he
      rw [hstep]
      exact ih e' (by omega) (by omega) (by omega) (fun j h1 h2 => hc j (by omega) h2) he'

end Pass

end MiniBox
