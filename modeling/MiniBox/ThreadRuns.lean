import MiniBox.ThreadStorage

namespace MiniBox

open ByteStream Effects LinearTables

namespace ThreadSet

/-- The sets that a host gets to from `mb_threads_new` while no step kills the process
and `next_tid` has not wrapped. -/
inductive Reachable : ThreadSet → Prop
  | new : Reachable new
  | syscall {M : Type} {mem : GuestMemory M} {m m' : M} {t t' : ThreadSet} {c c' : Context} {r : UInt64}
      (op : ThreadOp) (ht : Reachable t) (hrun : exec (op.run mem t c) m = (.ok (r, t', c'), m'))
      (hwrap : t'.nextTid ≠ 0) : Reachable t'
  | save {t t' : ThreadSet} {c : Context} {code : ℤ} {w w' : Sink} (ht : Reachable t)
      (hsave : t.save c w = .ok (code, t', w')) : Reachable t'
  | load {t t' u u' : ThreadSet} {c c' cu : Context} {code : ℤ} {w w' : Sink} {src src' : Source}
      {bytes tail : List UInt8} (ht : Reachable t) (hu : Reachable u) (hsave : u.save cu w = .ok (0, u', w'))
      (hbytes : w'.out = w.out ++ bytes) (hsrc : src.rest = bytes ++ tail)
      (hload : t.load c src = .ok (code, t', c', src')) : Reachable t'

variable {t t' u : ThreadSet} {c : Context}

theorem consistent_new : new.Consistent := by decide

theorem Consistent.parked (h : t.Consistent) (c : Context) : (t.parked c).Consistent := by
  refine ⟨h.toScheduled.modifyThread (by intro; rfl) (by intro; rfl), ?_⟩
  exact (stateOf_modifyThread (by intro; rfl) (by intro; rfl) _).trans h.active

theorem save_cases_any {code : ℤ} {w w' : Sink} (h : t.save c w = .ok (code, t', w')) : t' = t ∨ t' = t.parked c := by
  unfold save at h
  by_cases ha : t.activeTid ≠ 1
  · rw [if_pos ha] at h
    cases h
    exact .inl rfl
  · rw [if_neg ha] at h
    split at h
    · cases h
    · split at h
      all_goals
        cases h
        exact .inr rfl

theorem load_cases {u' : ThreadSet} {c' cu : Context} {code : ℤ} {w w' : Sink} {src src' : Source}
    {bytes tail : List UInt8} (hu : u.Storable) (hsave : u.save cu w = .ok (0, u', w'))
    (hbytes : w'.out = w.out ++ bytes) (hsrc : src.rest = bytes ++ tail)
    (hload : t.load c src = .ok (code, t', c', src')) : t' = t ∨ t' = u.parked cu := by
  obtain ⟨ha, hmain, rfl, hout⟩ := save_cases hsave
  obtain rfl : bytes = (u.parked cu).stream := List.append_cancel_left (hbytes.symm.trans hout)
  by_cases hact : t.activeTid = 1
  · obtain ⟨src₁, hl, -⟩ := load_saved hu hmain hact hsrc
    rw [hl] at hload
    cases hload
    exact .inr rfl
  · unfold ThreadSet.load at hload
    rw [if_pos hact] at hload
    cases hload
    exact .inl rfl

theorem Reachable.sound (h : Reachable t) : t.Consistent ∧ t.Storable := by
  induction h with
  | new => exact ⟨consistent_new, storable_new⟩
  | syscall op ht hrun hwrap ih =>
    have hstep := (op.run_step _ _ _).answer _ _ _ hrun
    exact ⟨ih.1.step hstep hwrap, ih.2.step hstep⟩
  | save ht hsave ih =>
    rcases save_cases_any hsave with rfl | rfl
    · exact ih
    · exact ⟨ih.1.parked _, ih.2.modifyThread (by intro; rfl)⟩
  | load ht hu hsave hbytes hsrc hload iht ihu =>
    rcases load_cases ihu.2 hsave hbytes hsrc hload with rfl | rfl
    · exact iht
    · exact ⟨ihu.1.parked _, ihu.2.modifyThread (by intro; rfl)⟩

theorem Consistent.queued (h : t.Consistent) {g : GThread} (hg : g ∈ t.threads) (hw : g.state = .waiting) :
    ∃ q ∈ t.futicies, q.tids.count g.tid = 1 ∧ ∀ q' ∈ t.futicies, g.tid ∈ q'.tids → q' = q := by
  have hmem : g.tid ∈ t.waiters := (h.asleep g.tid).mpr (by rw [stateOf_of_mem h.toScheduled hg, hw])
  obtain ⟨q, hq, hin⟩ := List.mem_flatMap.mp hmem
  obtain ⟨hnodup, hdisj⟩ := List.nodup_flatMap.mp h.once
  refine ⟨q, hq, List.count_eq_one_of_mem (hnodup q hq) hin, ?_⟩
  intro q' hq' hin'
  by_contra hne
  have : Std.Symm (Function.onFun List.Disjoint FutexQueue.tids) := ⟨fun _ _ hd => List.Disjoint.symm hd⟩
  exact hdisj.forall hq' hq hne hin' hin

theorem thread_set_invariant (h : Reachable t) :
    (t.threads.map GThread.tid).Pairwise (· < ·) ∧
      (∃ g ∈ t.threads, g.tid = 1) ∧
      (∃ g ∈ t.threads, g.tid = t.activeTid ∧ g.state = .runnable) ∧
      (∀ g ∈ t.threads, g.tid < t.nextTid) ∧
      (t.futicies.map FutexQueue.addr).Nodup ∧
      (∀ q ∈ t.futicies, q.tids ≠ []) ∧
      (∀ g ∈ t.threads, g.state = .waiting →
        ∃ q ∈ t.futicies, q.tids.count g.tid = 1 ∧ ∀ q' ∈ t.futicies, g.tid ∈ q'.tids → q' = q) ∧
      (∀ q ∈ t.futicies, ∀ tid ∈ q.tids, ∃ g ∈ t.threads, g.tid = tid ∧ g.state = .waiting) := by
  have hc := h.sound.1
  refine ⟨hc.sorted, ?_, ?_, ?_, hc.addresses, hc.nonempty, ?_, ?_⟩
  · exact List.mem_map.mp hc.main
  · exact mem_of_stateOf hc.active
  · intro g hg
    exact hc.below g.tid (List.mem_map_of_mem hg)
  · intro g hg hw
    exact hc.queued hg hw
  · intro q hq tid htid
    exact mem_of_stateOf ((hc.asleep tid).mp (List.mem_flatMap.mpr ⟨q, hq, htid⟩))

def zeroMemory : GuestMemory Unit := ⟨fun _ => pure 0, fun _ => pure 0, fun _ _ => pure (), fun _ => pure 0⟩

def spawned : ThreadSet where
  nextTid := 3
  activeTid := 1
  threads := [⟨1, .runnable, 0, 0, 0, 0⟩, ⟨2, .runnable, 0, 0x0ff0, 0x3000, 0⟩]
  futicies := []

def mainWaits : ThreadSet where
  nextTid := 3
  activeTid := 2
  threads := [⟨1, .waiting, 0, 0, 0, 0⟩, ⟨2, .runnable, 0, 0x0ff0, 0x3000, 0⟩]
  futicies := [⟨0x4000, [1]⟩]

theorem thread_set_invariant_mainWaits : Reachable mainWaits ∧
    (∃ g ∈ mainWaits.threads, g.tid = mainWaits.activeTid ∧ g.state = .runnable) ∧
    (∀ q ∈ mainWaits.futicies, ∀ tid ∈ q.tids, ∃ g ∈ mainWaits.threads, g.tid = tid ∧ g.state = .waiting) := by
  have hspawn : exec (ThreadOp.run zeroMemory new ⟨0, 0⟩ (.spawn 0x3000 0x1000 0x2000 0 0x5000)) () =
      (.ok (2, spawned, ⟨0, 0⟩), ()) := rfl
  have hwait : exec (ThreadOp.run zeroMemory spawned ⟨0, 0⟩ (.futexWait 0x4000 0)) () =
      (.ok (0, mainWaits, ⟨0x0ff0, 0x3000⟩), ()) := rfl
  have hreach : Reachable mainWaits := .syscall _ (.syscall _ .new hspawn (by decide)) hwait (by decide)
  have hinv := thread_set_invariant hreach
  exact ⟨hreach, hinv.2.2.1, hinv.2.2.2.2.2.2.2⟩

end ThreadSet

end MiniBox
