import MiniBox.ThreadRuns

namespace MiniBox

open LinearTables Outcomes

namespace ThreadSet

variable {t t' : ThreadSet} {c c' : Context} {i : ℕ}

def runnable (t : ThreadSet) : List UInt32 :=
  (t.threads.filter fun g => decide (g.state = .runnable)).map GThread.tid

def yields : ℕ → ThreadSet → Context → Except Crash (List UInt32 × ThreadSet × Context)
  | 0, t, c => .ok ([], t, c)
  | n + 1, t, c => do
    let (_, t, c) ← t.yield c
    let (tids, t', c') ← yields n t c
    return (t.activeTid :: tids, t', c')

section Runnable

theorem nextRunnable_eq (t : ThreadSet) : t.nextRunnable = following (· < ·) t.activeTid t.runnable := by
  unfold nextRunnable following runnable
  rw [List.find?_map, List.find?_filter, List.head?_map, List.head?_filter, Option.map_or]
  congr 3
  funext g
  rw [Bool.and_comm]
  simp

theorem pairwise_runnable (h : t.Scheduled) : t.runnable.Pairwise (· < ·) :=
  h.sorted.sublist (List.filter_sublist.map _)

theorem mem_runnable (h : t.Scheduled) {tid : UInt32} : tid ∈ t.runnable ↔ t.stateOf tid = some .runnable := by
  constructor
  · intro hin
    obtain ⟨g, hg, rfl⟩ := List.mem_map.mp hin
    obtain ⟨hmem, hstate⟩ := List.mem_filter.mp hg
    rw [stateOf_of_mem h hmem, of_decide_eq_true hstate]
  · intro hstate
    obtain ⟨g, hmem, rfl, hs⟩ := mem_of_stateOf hstate
    exact List.mem_map_of_mem (List.mem_filter.mpr ⟨hmem, decide_eq_true hs⟩)

theorem runnable_of_states (h : t.Scheduled) (h' : t'.Scheduled) (hs : ∀ j, t'.stateOf j = t.stateOf j) :
    t'.runnable = t.runnable := by
  have hsorted := pairwise_runnable h
  have hsorted' := pairwise_runnable h'
  apply List.Perm.eq_of_pairwise _ hsorted' hsorted
  · apply (List.perm_ext_iff_of_nodup (hsorted'.imp UInt32.ne_of_lt) (hsorted.imp UInt32.ne_of_lt)).mpr
    intro tid
    rw [mem_runnable h', mem_runnable h, hs]
  · intro a b _ _ hab hba
    exact absurd hba (UInt32.lt_asymm hab)

theorem active_index (h : t.Consistent) : t.runnable[t.runnable.idxOf t.activeTid]? = some t.activeTid := by
  have hmem := (mem_runnable h.toScheduled).mpr h.active
  rw [List.getElem?_eq_getElem (List.idxOf_lt_length_of_mem hmem), List.getElem_idxOf]

end Runnable

section Yields

theorem swapTo_ok {tid : UInt32} (ha : (t.findThread t.activeTid).isSome) (hb : (t.findThread tid).isSome)
    (c : Context) (ret : UInt64) : ∃ u, t.swapTo c tid ret = .ok u := by
  have hparked : ((t.modifyThread t.activeTid fun old =>
      { old with rax := ret, rsp := c.guestRsp, threadArea := c.threadArea }).findThread tid).isSome := by
    rw [findThread, isSome_lookup] at hb ⊢
    rwa [tids_modifyThread (by intro; rfl)]
  obtain ⟨old, hold⟩ := Option.isSome_iff_exists.mp ha
  obtain ⟨nw, hnw⟩ := Option.isSome_iff_exists.mp hparked
  unfold swapTo
  simp only [hold, hnw]
  exact ⟨_, rfl⟩

theorem Consistent.yield_next (h : t.Consistent) (hi : t.runnable[i]? = some t.activeTid) (c : Context) :
    ∃ r t' c', t.yield c = .ok (r, t', c') ∧ t'.Consistent ∧ t'.runnable = t.runnable ∧
      t.runnable[(i + 1) % t.runnable.length]? = some t'.activeTid := by
  obtain ⟨hlt, -⟩ := List.getElem?_eq_some_iff.mp hi
  obtain ⟨best, hbest⟩ : ∃ best, t.runnable[(i + 1) % t.runnable.length]? = some best :=
    ⟨_, List.getElem?_eq_getElem (Nat.mod_lt _ (by omega))⟩
  have hnext : t.nextRunnable = some best := by
    rw [nextRunnable_eq, following_getElem? (fun a b => UInt32.lt_asymm) (pairwise_runnable h.toScheduled) hi, hbest]
  have hstate := h.nextRunnable hnext
  unfold yield swapToNext
  simp only [hnext]
  by_cases hself : best = t.activeTid
  · rw [if_pos hself]
    exact ⟨_, t, c, rfl, h, rfl, hself ▸ hbest⟩
  · rw [if_neg hself]
    obtain ⟨⟨r, t', c'⟩, hswap⟩ := swapTo_ok (isSome_findThread.mpr (tid_mem_of_stateOf h.active))
      (isSome_findThread.mpr (tid_mem_of_stateOf hstate)) c (sok 0)
    obtain ⟨hswitched, hactive⟩ := h.toScheduled.swapTo hstate hswap
    refine ⟨r, t', c', hswap, hswitched.consistent, ?_, hactive ▸ hbest⟩
    exact runnable_of_states h.toScheduled hswitched.consistent.toScheduled hswitched.states

theorem Consistent.yields_circle (h : t.Consistent) (hi : t.runnable[i]? = some t.activeTid) (c : Context) (n : ℕ) :
    ∃ tids t' c', yields n t c = .ok (tids, t', c') ∧ t'.Consistent ∧ t'.runnable = t.runnable ∧
      t.runnable[(i + n) % t.runnable.length]? = some t'.activeTid ∧ tids.length = n ∧
      ∀ j < n, tids[j]? = t.runnable[(j + (i + 1)) % t.runnable.length]? := by
  induction n generalizing t c i with
  | zero =>
    obtain ⟨hlt, -⟩ := List.getElem?_eq_some_iff.mp hi
    refine ⟨[], t, c, rfl, h, rfl, ?_, rfl, by simp⟩
    rw [Nat.add_zero, Nat.mod_eq_of_lt hlt, hi]
  | succ n ih =>
    obtain ⟨r, t₁, c₁, hyield, h₁, hrun₁, hnext⟩ := h.yield_next hi c
    obtain ⟨tids, t', c', hrest, h', hrun', hend, hlen, htids⟩ := ih h₁ (hrun₁ ▸ hnext) c₁
    refine ⟨t₁.activeTid :: tids, t', c', ?_, h', hrun'.trans hrun₁, ?_, by simp [hlen], ?_⟩
    · rw [yields, hyield, ok_bind]
      dsimp only
      rw [hrest, ok_bind]
      rfl
    · rw [← hend, hrun₁, Nat.mod_add_mod]
      congr 2
      omega
    · intro j hj
      cases j with
      | zero => rw [List.getElem?_cons_zero, Nat.zero_add, hnext]
      | succ j =>
        rw [List.getElem?_cons_succ, htids j (by omega), hrun₁, Nat.add_comm j, Nat.add_assoc, Nat.mod_add_mod]
        congr 2
        omega

end Yields

theorem yield_round_robin (h : t.Consistent) (c : Context) :
    (∃ tids t' c', yields t.runnable.length t c = .ok (tids, t', c') ∧ t'.activeTid = t.activeTid ∧
      t.runnable.Pairwise (· < ·) ∧ tids = t.runnable.rotate (t.runnable.idxOf t.activeTid + 1)) ∧
    ∀ n, ∃ tids t' c', yields n t c = .ok (tids, t', c') ∧ ∀ tid ∈ tids, t.stateOf tid = some .runnable := by
  have hi := active_index h
  obtain ⟨hlt, -⟩ := List.getElem?_eq_some_iff.mp hi
  constructor
  · obtain ⟨tids, t', c', hrun, -, -, hend, hlen, htids⟩ := h.yields_circle hi c t.runnable.length
    refine ⟨tids, t', c', hrun, ?_, pairwise_runnable h.toScheduled, ?_⟩
    · rw [Nat.add_mod_right, Nat.mod_eq_of_lt hlt, hi] at hend
      exact (Option.some.inj hend).symm
    · apply List.ext_getElem?
      intro j
      by_cases hj : j < t.runnable.length
      · rw [htids j hj, List.getElem?_rotate hj]
      · rw [List.getElem?_eq_none (by omega), List.getElem?_eq_none (by rw [List.length_rotate]; omega)]
  · intro n
    obtain ⟨tids, t', c', hrun, -, -, -, hlen, htids⟩ := h.yields_circle hi c n
    refine ⟨tids, t', c', hrun, ?_⟩
    intro tid hin
    obtain ⟨j, hj, rfl⟩ := List.mem_iff_getElem.mp hin
    rw [← mem_runnable h.toScheduled]
    apply List.mem_of_getElem?
    rw [← htids j (hlen ▸ hj), List.getElem?_eq_getElem hj]

theorem yield_round_robin_two : ∃ t t' : ThreadSet, ∃ c c' : Context, t.stateOf 2 = some .waiting ∧
    yields 2 t c = .ok ([3, 1], t', c') ∧ t'.activeTid = 1 := by
  let t : ThreadSet := ⟨4, 1, [⟨1, .runnable, 0, 0, 0, 0⟩, ⟨2, .waiting, 0, 0, 0, 0⟩, ⟨3, .runnable, 0, 0, 0, 0⟩],
    [⟨16, [2]⟩]⟩
  have h : t.Consistent := by decide
  obtain ⟨⟨tids, t', c', hrun, hactive, -, rfl⟩, -⟩ := yield_round_robin h ⟨0, 0⟩
  exact ⟨t, t', ⟨0, 0⟩, c', rfl, hrun, hactive⟩

end ThreadSet

end MiniBox
