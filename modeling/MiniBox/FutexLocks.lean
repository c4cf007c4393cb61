import Mathlib.Data.Nat.Bitwise
import MiniBox.FutexRequeue
import MiniBox.ThreadSwitches
import MiniBox.GuestWords
import MiniBox.BaselineInvariant

/-!
The priority-inheritance futex as a lock. The ledger of a run keeps the threads that own
the lock and those that wait for it, in the order in which they asked.
-/

namespace MiniBox

open Effects LinearTables Outcomes

namespace ThreadSet

variable {t t' : ThreadSet} {c c' : Context} {tid : UInt32} {r ret addr : UInt64}

section Tids

def tids (t : ThreadSet) : List UInt32 := t.threads.map GThread.tid

theorem mem_tids : tid ∈ t.tids ↔ (t.saved tid).isSome := by
  rw [saved, Option.isSome_map]
  exact isSome_findThread.symm

theorem Transfer.mem_tids {op : ThreadOp} {u : UInt64 × ThreadSet × Context} (hc : t.Consistent)
    (h : Transfer t c op u) (hm : tid ∈ u.2.1.tids) : tid ∈ t.tids ∨ u.2.1.nextTid ≠ t.nextTid ∧ tid = t.nextTid := by
  rw [ThreadSet.mem_tids] at hm ⊢
  cases h with
  | stay hs _ => exact .inl (hs.saved ▸ hm)
  | create _ _ hn _ hs =>
    by_cases hj : tid = t.nextTid
    · refine .inr ⟨?_, hj⟩
      rw [hn]
      exact succ_ne_self t.nextTid
    · rw [hs, Function.update_of_ne hj] at hm
      exact .inl hm
  | switch _ _ hs _ =>
    by_cases hj : tid = t.activeTid
    · rw [hj]
      exact .inl (ThreadSet.mem_tids.mp (tid_mem_of_stateOf hc.active))
    · rw [hs, Function.update_of_ne hj] at hm
      exact .inl hm

theorem tids_parked (c : Context) : (t.parked c).tids = t.tids := tids_modifyThread (by intro; rfl)

theorem Reachable.positive (h : Reachable t) : 0 ∉ t.tids := by
  induction h with
  | new => decide
  | syscall op ht hrun hwrap ih =>
    intro hz
    have hc := ht.sound.1
    have hmove := (op.run_move _ _ _).answer _ _ _ hrun
    rcases (hmove.transfer hc).mem_tids hc hz with hz | ⟨-, hz⟩
    · exact ih hz
    · have hmain := hc.below 1 hc.main
      rw [← hz] at hmain
      exact absurd hmain (by decide)
  | save ht hsave ih =>
    rcases save_cases_any hsave with rfl | rfl
    · exact ih
    · rw [tids_parked]
      exact ih
  | load ht hu hsave hbytes hsrc hload iht ihu =>
    rcases load_cases hu.sound.2 hsave hbytes hsrc hload with rfl | rfl
    · exact iht
    · rw [tids_parked]
      exact ihu

end Tids

structure Ledger where
  owners : List UInt32
  waiting : List UInt32
  deriving DecidableEq

namespace Ledger

def ask (l : Ledger) (tid : UInt32) : Ledger := { l with waiting := l.waiting ++ [tid] }

def settle (l : Ledger) (t : ThreadSet) : Ledger where
  owners := l.owners ++ l.waiting.filter fun tid => decide (t.stateOf tid ≠ some .waiting)
  waiting := l.waiting.filter fun tid => decide (t.stateOf tid = some .waiting)

def leave (l : Ledger) (tid : UInt32) : Ledger := { l with owners := l.owners.erase tid }

variable {l : Ledger}

theorem settle_asleep (h : ∀ tid ∈ l.waiting, t.stateOf tid = some .waiting) : l.settle t = l := by
  have hnone : l.waiting.filter (fun tid => decide (t.stateOf tid ≠ some .waiting)) = [] := by
    rw [List.filter_eq_nil_iff]
    intro tid htid
    simp [h tid htid]
  have hall : l.waiting.filter (fun tid => decide (t.stateOf tid = some .waiting)) = l.waiting := by
    rw [List.filter_eq_self]
    intro tid htid
    simp [h tid htid]
  rw [settle, hnone, hall, List.append_nil]

theorem settle_head {rest : List UInt32} (hl : l.waiting = tid :: rest) (hr : t.stateOf tid = some .runnable)
    (h : ∀ j ∈ rest, t.stateOf j = some .waiting) : l.settle t = ⟨l.owners ++ [tid], rest⟩ := by
  have hrest : (Ledger.mk l.owners rest).settle t = ⟨l.owners, rest⟩ := settle_asleep h
  simp only [settle, mk.injEq] at hrest
  rw [settle, hl, List.filter_cons, List.filter_cons]
  simp only [hr, mk.injEq]
  refine ⟨?_, hrest.2⟩
  rw [List.append_right_eq_self.mp hrest.1]
  rfl

end Ledger

/-- Runs in which the word at `addr` starts at 0 and only `futex_lock_pi` and `futex_unlock_pi`
touch it, in the discipline of a lock. Other syscalls may come in between, as long as they
leave the word and its queue alone. -/
inductive LockRun (addr : UInt64) : ThreadSet → Block → Ledger → Prop
  | start {t : ThreadSet} {b : Block} (ht : t.Reachable) (htids : ∀ tid ∈ t.tids, tid.toNat < 2 ^ 30)
      (hw : b.word addr = 0) (hq : t.queueAt addr = []) : LockRun addr t b ⟨[], []⟩
  | lock {t t' : ThreadSet} {b b' : Block} {l : Ledger} {c c' : Context} {r : UInt64} (h : LockRun addr t b l)
      (hown : t.activeTid ∉ l.owners)
      (hrun : exec (ThreadOp.run blockMemory t c (.futexLockPi addr)) b = (.ok (r, t', c'), b')) :
      LockRun addr t' b' ((l.ask t.activeTid).settle t')
  | unlock {t t' : ThreadSet} {b b' : Block} {l : Ledger} {c c' : Context} {r : UInt64} (h : LockRun addr t b l)
      (hown : t.activeTid ∈ l.owners)
      (hrun : exec (ThreadOp.run blockMemory t c (.futexUnlockPi addr)) b = (.ok (r, t', c'), b')) :
      LockRun addr t' b' ((l.leave t.activeTid).settle t')
  | yield {t t' : ThreadSet} {b b' : Block} {l : Ledger} {c c' : Context} {r : UInt64} (h : LockRun addr t b l)
      (hrun : exec (ThreadOp.run blockMemory t c .yield) b = (.ok (r, t', c'), b')) :
      LockRun addr t' b' (l.settle t')
  | other {t t' : ThreadSet} {b b' : Block} {l : Ledger} {c c' : Context} {r : UInt64} {op : ThreadOp}
      (h : LockRun addr t b l) (hrun : exec (op.run blockMemory t c) b = (.ok (r, t', c'), b'))
      (hw : b'.word addr = b.word addr) (hq : t'.queueAt addr = t.queueAt addr)
      (hexit : op = .exit → t.activeTid ∉ l.owners) (hwrap : t'.nextTid ≠ 0)
      (htids : ∀ tid ∈ t'.tids, tid.toNat < 2 ^ 30) : LockRun addr t' b' (l.settle t')
  | guest {t : ThreadSet} {b b' : Block} {l : Ledger} (h : LockRun addr t b l)
      (hw : b'.word addr = b.word addr) : LockRun addr t b' l

inductive LockWord (queue : List UInt32) (w : UInt32) : List UInt32 → Prop
  | free (hq : queue = []) (hw : w = 0) : LockWord queue w []
  | held {tid : UInt32} (hz : tid ≠ 0) (hlt : tid.toNat < 2 ^ 30)
      (hw : w = if queue = [] then tid else tid ||| futexWaiters) : LockWord queue w [tid]

section Words

theorem toNat_waiters {w : UInt32} (h : w.toNat < 2 ^ 30) : (w ||| futexWaiters).toNat = 2 ^ 31 + w.toNat := by
  have hadd := Nat.two_pow_add_eq_or_of_lt (show w.toNat < 2 ^ 31 by omega) 1
  rw [mul_one] at hadd
  rw [UInt32.toNat_or, Nat.or_comm]
  exact hadd.symm

theorem waiters_or {w : UInt32} : (w ||| futexWaiters) ||| futexWaiters = w ||| futexWaiters := by
  rw [UInt32.or_assoc, UInt32.or_self]

theorem low_and {w : UInt32} : (w &&& 0x3fffffff).toNat = w.toNat % 2 ^ 30 := by
  rw [UInt32.toNat_and]
  exact Nat.and_two_pow_sub_one_eq_mod w.toNat 30

theorem bit_and {w : UInt32} : w &&& futexWaiters ≠ 0 ↔ 2 ^ 31 ≤ w.toNat := by
  have hlt := w.toNat_lt
  have hand : (w &&& futexWaiters).toNat = (w.toNat.testBit 31).toNat * 2 ^ 31 := by
    rw [UInt32.toNat_and]
    exact Nat.and_two_pow w.toNat 31
  rw [ne_eq, ← UInt32.toNat_inj, hand, Nat.testBit_eq_decide_div_mod_eq]
  by_cases h : w.toNat / 2 ^ 31 % 2 = 1
  · simp only [h, decide_true, Bool.toNat_true, UInt32.toNat_zero]
    omega
  · simp only [h, decide_false, Bool.toNat_false, UInt32.toNat_zero]
    omega

theorem LockWord.eq_zero {queue owners : List UInt32} {w : UInt32} (h : LockWord queue w owners) :
    w = 0 ↔ owners = [] := by
  cases h with
  | free hq hw => exact ⟨fun _ => rfl, fun _ => hw⟩
  | @held tid hz hlt hw =>
    refine ⟨fun h0 => ?_, fun h0 => absurd h0 (List.cons_ne_nil _ _)⟩
    exfalso
    by_cases hq : queue = []
    · rw [if_pos hq] at hw
      exact hz (hw.symm.trans h0)
    · rw [if_neg hq] at hw
      have hnat := congrArg UInt32.toNat (hw.symm.trans h0)
      rw [toNat_waiters hlt, UInt32.toNat_zero] at hnat
      omega

theorem LockWord.length {queue owners : List UInt32} {w : UInt32} (h : LockWord queue w owners) :
    owners.length ≤ 1 := by
  cases h with
  | free hq hw => exact Nat.zero_le 1
  | held hz hlt hw => exact le_refl 1

theorem LockWord.owner {queue owners : List UInt32} {w : UInt32} (h : LockWord queue w owners)
    (ho : tid ∈ owners) : owners = [tid] := by
  cases h with
  | free hq hw => cases ho
  | held hz hlt hw => rw [List.mem_singleton.mp ho]

theorem LockWord.low {queue owners : List UInt32} {w : UInt32} (h : LockWord queue w owners) :
    ∀ o ∈ owners, w &&& 0x3fffffff = o := by
  cases h with
  | free hq hw => simp
  | @held tid hz hlt hw =>
    intro o ho
    obtain rfl : o = tid := List.mem_singleton.mp ho
    rw [← UInt32.toNat_inj, low_and, hw]
    by_cases hq : queue = []
    · rw [if_pos hq]
      omega
    · rw [if_neg hq, toNat_waiters hlt]
      omega

theorem LockWord.bit {queue owners : List UInt32} {w : UInt32} (h : LockWord queue w owners) :
    w &&& futexWaiters ≠ 0 ↔ queue ≠ [] := by
  rw [bit_and]
  cases h with
  | free hq hw => simp [hq, hw]
  | held hz hlt hw =>
    by_cases hq : queue = []
    · rw [if_pos hq] at hw
      rw [hw]
      simp only [hq, ne_eq, not_true_eq_false, iff_false, not_le]
      omega
    · rw [if_neg hq] at hw
      rw [hw, toNat_waiters hlt]
      simp [hq]

theorem LockWord.join {queue owners : List UInt32} {w : UInt32} (h : LockWord queue w owners) (hw : w ≠ 0)
    (tid : UInt32) : LockWord (queue ++ [tid]) (w ||| futexWaiters) owners := by
  cases h with
  | free hq hz => exact absurd hz hw
  | held hz hlt hword =>
    refine .held hz hlt ?_
    rw [if_neg (by simp), hword]
    by_cases hq : queue = []
    · rw [if_pos hq]
    · rw [if_neg hq, waiters_or]

end Words

section Steps

theorem queueAt_swapTo (h : t.swapTo c tid ret = .ok (r, t', c')) : t'.queueAt = t.queueAt := by
  obtain ⟨nw, rfl, -⟩ := swapTo_cases h
  rfl

theorem queueAt_swapToNext (h : t.swapToNext c ret = .ok (r, t', c')) : t'.queueAt = t.queueAt := by
  rcases swapToNext_cases h with ⟨-, hu⟩ | ⟨best, -, -, hs⟩
  · cases hu
    rfl
  · exact queueAt_swapTo hs

theorem queueAt_parkMe (h : t.parkMe c ret addr = .ok (r, t', c')) :
    t'.queueAt addr = t.queueAt addr ++ [t.activeTid] := by
  obtain ⟨t₁, hpark, hs⟩ := bind_ok h
  obtain ⟨t₂, hpush, -, rfl⟩ := parkOther_cases hpark
  rw [queueAt_swapToNext hs]
  exact (queueAt_queuePush hpush addr).trans (if_pos rfl)

structure Kept (addr : UInt64) (t : ThreadSet) (b : Block) (l : Ledger) : Prop where
  reachable : t.Reachable
  tids : ∀ tid ∈ t.tids, tid.toNat < 2 ^ 30
  waiting : l.waiting = t.queueAt addr
  word : LockWord (t.queueAt addr) (b.word addr) l.owners

variable {b b' : Block} {l : Ledger}

theorem Kept.consistent (h : Kept addr t b l) : t.Consistent := h.reachable.sound.1

theorem Kept.asleep (h : Kept addr t b l) : ∀ tid ∈ l.waiting, t.stateOf tid = some .waiting := by
  intro tid htid
  rw [h.waiting] at htid
  exact h.consistent.stateOf_queueAt htid

theorem Kept.next {op : ThreadOp} (h : Kept addr t b l) (hn : t'.nextTid = t.nextTid)
    (hrun : exec (op.run blockMemory t c) b = (.ok (r, t', c'), b')) :
    t'.Reachable ∧ ∀ tid ∈ t'.tids, tid.toNat < 2 ^ 30 := by
  have hc := h.consistent
  have hwrap : t'.nextTid ≠ 0 := by
    intro hz
    have hmain := hc.below 1 hc.main
    rw [← hn, hz] at hmain
    exact absurd hmain (by decide)
  refine ⟨.syscall op h.reachable hrun hwrap, fun tid htid => ?_⟩
  have hmove := (op.run_move _ _ _).answer _ _ _ hrun
  rcases (hmove.transfer hc).mem_tids hc htid with htid | ⟨hne, -⟩
  · exact h.tids tid htid
  · exact absurd hn hne

theorem Kept.active (h : Kept addr t b l) : t.activeTid ≠ 0 ∧ t.activeTid.toNat < 2 ^ 30 := by
  have hmem := tid_mem_of_stateOf h.consistent.active
  exact ⟨fun hz => h.reachable.positive (hz ▸ hmem), h.tids _ hmem⟩

theorem Kept.lock (h : Kept addr t b l)
    (hrun : exec (ThreadOp.run blockMemory t c (.futexLockPi addr)) b = (.ok (r, t', c'), b')) :
    Kept addr t' b' ((l.ask t.activeTid).settle t') := by
  have hall := hrun
  obtain ⟨atom, b₁, hload, hrun⟩ := exec_bind_cases hrun
  obtain ⟨rfl, rfl⟩ := Block.exec_load32 hload
  by_cases hz : b₁.word addr = 0
  · rw [if_pos hz] at hrun
    obtain ⟨u, b₂, hstore, hrun⟩ := exec_bind_cases hrun
    cases hrun
    have howners := h.word.eq_zero.mp hz
    have hqueue : t.queueAt addr = [] := by
      have hw := h.word
      rw [howners] at hw
      cases hw with
      | free hq _ => exact hq
    have hempty : l.waiting = [] := h.waiting.trans hqueue
    have hsettle : (l.ask t.activeTid).settle t = ⟨[t.activeTid], []⟩ := by
      have hask : (l.ask t.activeTid).waiting = [t.activeTid] := by simp [Ledger.ask, hempty]
      rw [Ledger.settle_head hask h.consistent.active (by simp)]
      simp [Ledger.ask, howners]
    obtain ⟨hne, hlt⟩ := h.active
    rw [hsettle]
    refine ⟨h.reachable, h.tids, hqueue.symm, .held hne hlt ?_⟩
    rw [if_pos hqueue]
    exact Block.exec_store32 hstore
  · rw [if_neg hz] at hrun
    obtain ⟨u, b₂, hstore, hrun⟩ := exec_bind_cases hrun
    obtain ⟨hpark, rfl⟩ := Prod.mk.inj hrun
    have hqueue := queueAt_parkMe hpark
    obtain ⟨hreach, htids⟩ := h.next (h.consistent.parkMe hpark).2 hall
    have hwait : (l.ask t.activeTid).waiting = t'.queueAt addr := by
      rw [hqueue, ← h.waiting]
      rfl
    have hsettle : (l.ask t.activeTid).settle t' = l.ask t.activeTid := by
      apply Ledger.settle_asleep
      intro tid htid
      rw [hwait] at htid
      exact hreach.sound.1.stateOf_queueAt htid
    rw [hsettle]
    refine ⟨hreach, htids, hwait, ?_⟩
    rw [hqueue, Block.exec_store32 hstore]
    exact h.word.join hz t.activeTid

theorem Kept.release (h : Kept addr t b l) (hown : t.activeTid ∈ l.owners) (hq : t.queueAt addr = [])
    (hrun : exec (ThreadOp.run blockMemory t c (.futexUnlockPi addr)) b = (.ok (r, t', c'), b')) :
    Kept addr t' b' ((l.leave t.activeTid).settle t') := by
  change exec (t.futexUnlockPi blockMemory c addr) b = _ at hrun
  unfold futexUnlockPi at hrun
  rw [unparkOne_none hq] at hrun
  obtain ⟨u, b₁, hstore, hrun⟩ := exec_bind_cases hrun
  cases hrun
  have hsettle : (l.leave t.activeTid).settle t = ⟨[], []⟩ := by
    simp [Ledger.settle, Ledger.leave, h.waiting, hq, h.word.owner hown]
  rw [hsettle]
  exact ⟨h.reachable, h.tids, hq.symm, .free hq (Block.exec_store32 hstore)⟩

theorem Kept.handoff {rest : List UInt32} (h : Kept addr t b l) (hown : t.activeTid ∈ l.owners)
    (hq : t.queueAt addr = tid :: rest)
    (hrun : exec (ThreadOp.run blockMemory t c (.futexUnlockPi addr)) b = (.ok (r, t', c'), b')) :
    Kept addr t' b' ((l.leave t.activeTid).settle t') ∧ t'.activeTid = tid ∧
      ((l.leave t.activeTid).settle t').owners = [tid] := by
  have hall := hrun
  obtain ⟨t₁, hu, hwake⟩ := h.consistent.unparkOne_head hq
  change exec (t.futexUnlockPi blockMemory c addr) b = _ at hrun
  unfold futexUnlockPi at hrun
  rw [hu] at hrun
  obtain ⟨u, b₁, hstore, hrun⟩ := exec_bind_cases hrun
  obtain ⟨hswap, rfl⟩ := Prod.mk.inj hrun
  obtain ⟨hkeeps, -, -, hrunnable⟩ := h.consistent.unparkOne hu
  obtain ⟨hswitched, hactive⟩ := hkeeps.1.toScheduled.swapTo hrunnable hswap
  obtain ⟨hreach, htids⟩ := h.next (hswitched.nextTid.trans hkeeps.2) hall
  have hqueue : t'.queueAt addr = rest := by
    rw [queueAt_swapTo hswap, hwake.queues, if_pos rfl]
  have hstate : t'.stateOf tid = some .runnable := (hswitched.states tid).trans hrunnable
  have hwaiting : (l.leave t.activeTid).waiting = tid :: rest := h.waiting.trans hq
  have hsettle : (l.leave t.activeTid).settle t' = ⟨[tid], rest⟩ := by
    rw [Ledger.settle_head hwaiting hstate]
    · simp [Ledger.leave, h.word.owner hown]
    · intro j hj
      rw [← hqueue] at hj
      exact hreach.sound.1.stateOf_queueAt hj
  have hmem := tid_mem_of_stateOf hstate
  have hne : tid ≠ 0 := fun hz => hreach.positive (hz ▸ hmem)
  rw [hsettle]
  refine ⟨⟨hreach, htids, hqueue.symm, .held hne (htids tid hmem) ?_⟩, hactive, rfl⟩
  rw [Block.exec_store32 hstore, hqueue]
  by_cases hr : rest = [] <;> simp [hr]

theorem Kept.unlock (h : Kept addr t b l) (hown : t.activeTid ∈ l.owners)
    (hrun : exec (ThreadOp.run blockMemory t c (.futexUnlockPi addr)) b = (.ok (r, t', c'), b')) :
    Kept addr t' b' ((l.leave t.activeTid).settle t') := by
  cases hq : t.queueAt addr with
  | nil => exact h.release hown hq hrun
  | cons tid rest => exact (h.handoff hown hq hrun).1

theorem Kept.stay (h : Kept addr t b l) (hreach : t'.Reachable) (htids : ∀ tid ∈ t'.tids, tid.toNat < 2 ^ 30)
    (hw : b'.word addr = b.word addr) (hq : t'.queueAt addr = t.queueAt addr) : Kept addr t' b' (l.settle t') := by
  have hsettle : l.settle t' = l := by
    apply Ledger.settle_asleep
    intro tid htid
    rw [h.waiting, ← hq] at htid
    exact hreach.sound.1.stateOf_queueAt htid
  rw [hsettle]
  refine ⟨hreach, htids, h.waiting.trans hq.symm, ?_⟩
  rw [hq, hw]
  exact h.word

theorem LockRun.kept (h : LockRun addr t b l) : Kept addr t b l := by
  induction h with
  | start ht htids hw hq => exact ⟨ht, htids, hq.symm, .free hq hw⟩
  | lock h hown hrun ih => exact ih.lock hrun
  | unlock h hown hrun ih => exact ih.unlock hown hrun
  | yield h hrun ih =>
    obtain ⟨hswap, rfl⟩ := Prod.mk.inj hrun
    obtain ⟨hreach, htids⟩ := ih.next (ih.consistent.toScheduled.swapToNext hswap).nextTid hrun
    exact ih.stay hreach htids rfl (congrFun (queueAt_swapToNext hswap) addr)
  | other h hrun hw hq hexit hwrap htids ih => exact ih.stay (.syscall _ ih.reachable hrun hwrap) htids hw hq
  | guest h hw ih =>
    refine ⟨ih.reachable, ih.tids, ih.waiting, ?_⟩
    rw [hw]
    exact ih.word

end Steps

theorem futex_lock_fair {b : Block} {l : Ledger} (h : LockRun addr t b l) :
    l.owners.length ≤ 1 ∧ (b.word addr = 0 ↔ l.owners = []) ∧
      (∀ o ∈ l.owners, b.word addr &&& 0x3fffffff = o) ∧
      (b.word addr &&& futexWaiters ≠ 0 ↔ t.queueAt addr ≠ []) ∧ (b.word addr = 0 → t.queueAt addr = []) ∧
      ∀ (tid : UInt32) (rest : List UInt32) (c c' : Context) (r : UInt64) (t' : ThreadSet) (b' : Block),
        l.waiting = tid :: rest → t.activeTid ∈ l.owners →
        exec (ThreadOp.run blockMemory t c (.futexUnlockPi addr)) b = (.ok (r, t', c'), b') →
        t'.activeTid = tid ∧ ((l.leave t.activeTid).settle t').owners = [tid] := by
  have hk := h.kept
  refine ⟨hk.word.length, hk.word.eq_zero, hk.word.low, hk.word.bit, ?_, ?_⟩
  · intro hz
    have hbit := hk.word.bit
    rw [hz] at hbit
    exact not_not.mp fun hne => hbit.mpr hne (by decide)
  · intro tid rest c c' r t' b' hwait hown hrun
    exact (hk.handoff hown (hk.waiting.symm.trans hwait) hrun).2

theorem futex_lock_fair_child : ∃ (t t' : ThreadSet) (b b' : Block) (c c' : Context) (r : UInt64),
    LockRun 0x36f00000010 t b ⟨[1], [2]⟩ ∧
    exec (ThreadOp.run blockMemory t c (.futexUnlockPi 0x36f00000010)) b = (.ok (r, t', c'), b') ∧
    b.word 0x36f00000010 &&& 0x3fffffff = 1 ∧ t'.activeTid = 2 := by
  have hrun : passes (do
      let u₁ ← smallest.ready
      let u₂ ← answer (exec (ThreadOp.run blockMemory spawned ⟨0, 0⟩ (.futexLockPi 0x36f00000010)) u₁.2)
      let u₃ ← answer (exec (ThreadOp.run blockMemory u₂.1.2.1 u₂.1.2.2 .yield) u₂.2)
      let u₄ ← answer (exec (ThreadOp.run blockMemory u₃.1.2.1 u₃.1.2.2 (.futexLockPi 0x36f00000010)) u₃.2)
      let u₅ ← answer (exec (ThreadOp.run blockMemory u₄.1.2.1 u₄.1.2.2 (.futexUnlockPi 0x36f00000010)) u₄.2)
      return decide (u₁.2.word 0x36f00000010 = 0 ∧ u₂.1.2.1.activeTid = 1 ∧ u₃.1.2.1.activeTid = 2 ∧ u₄.1.2.1.activeTid = 1 ∧
        ((Ledger.mk [] []).ask 1).settle u₂.1.2.1 = ⟨[1], []⟩ ∧ (Ledger.mk [1] []).settle u₃.1.2.1 = ⟨[1], []⟩ ∧
        ((Ledger.mk [1] []).ask 2).settle u₄.1.2.1 = ⟨[1], [2]⟩)) = true := by decide +kernel
  obtain ⟨⟨_, b⟩, -, hrun⟩ := passes_bind hrun
  obtain ⟨⟨⟨r₁, t₁, c₁⟩, b₁⟩, h1, hrun⟩ := passes_bind hrun
  obtain ⟨⟨⟨r₂, t₂, c₂⟩, b₂⟩, h2, hrun⟩ := passes_bind hrun
  obtain ⟨⟨⟨r₃, t₃, c₃⟩, b₃⟩, h3, hrun⟩ := passes_bind hrun
  obtain ⟨⟨⟨r₄, t₄, c₄⟩, b₄⟩, h4, hrun⟩ := passes_bind hrun
  obtain ⟨hw, ha1, ha2, ha3, hl1, hl2, hl3⟩ := passes_pure hrun
  have hspawn : exec (ThreadOp.run zeroMemory new ⟨0, 0⟩ (.spawn 0x3000 0x1000 0x2000 0 0x5000)) () =
      (.ok (2, spawned, ⟨0, 0⟩), ()) := rfl
  have hstart : LockRun 0x36f00000010 spawned b ⟨[], []⟩ :=
    .start (.syscall _ .new hspawn (by decide)) (List.forall_mem_map.mpr (by decide)) hw rfl
  have hk1 : LockRun 0x36f00000010 t₁ b₁ ⟨[1], []⟩ := hl1 ▸ hstart.lock (by decide) (answer_ok h1)
  have hk2 : LockRun 0x36f00000010 t₂ b₂ ⟨[1], []⟩ := hl2 ▸ hk1.yield (answer_ok h2)
  have hk3 : LockRun 0x36f00000010 t₃ b₃ ⟨[1], [2]⟩ := by
    have h := hk2.lock (by rw [ha2]; decide) (answer_ok h3)
    rwa [ha2, hl3] at h
  have hfair := futex_lock_fair hk3
  refine ⟨t₃, t₄, b₃, b₄, c₃, c₄, r₄, hk3, answer_ok h4, hfair.2.2.1 1 (by decide), ?_⟩
  exact (hfair.2.2.2.2.2 2 [] c₃ c₄ r₄ t₄ b₄ rfl (by rw [ha3]; decide) (answer_ok h4)).1

end ThreadSet

end MiniBox
