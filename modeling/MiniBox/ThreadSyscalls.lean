import MiniBox.ThreadInvariant
import MiniBox.ThreadSteps

namespace MiniBox

open Effects LinearTables Outcomes

namespace ThreadSet

variable {t t' : ThreadSet} {c c' : Context} {tid : UInt32} {r ret : UInt64}

structure Switched (t t' : ThreadSet) : Prop where
  consistent : t'.Consistent
  nextTid : t'.nextTid = t.nextTid
  states : ∀ j, t'.stateOf j = t.stateOf j

theorem Scheduled.swapTo (h : t.Scheduled) (hr : t.stateOf tid = some .runnable)
    (hs : t.swapTo c tid ret = .ok (r, t', c')) : Switched t t' ∧ t'.activeTid = tid := by
  obtain ⟨nw, rfl, -, -, -⟩ := swapTo_cases hs
  have hstates : ∀ j, (t.modifyThread t.activeTid fun old =>
      { old with rax := ret, rsp := c.guestRsp, threadArea := c.threadArea }).stateOf j = t.stateOf j :=
    fun j => stateOf_modifyThread (by intro; rfl) (by intro; rfl) j
  refine ⟨⟨⟨?_, ?_⟩, rfl, hstates⟩, rfl⟩
  · apply Scheduled.activate
    exact h.modifyThread (fun _ => rfl) (fun _ => rfl)
  · exact (hstates tid).trans hr

theorem Scheduled.nextRunnable (h : t.Scheduled) (hn : t.nextRunnable = some tid) :
    t.stateOf tid = some .runnable := by
  obtain ⟨g, hg, rfl⟩ := Option.map_eq_some_iff.mp hn
  rcases Option.or_eq_some_iff.mp hg with h1 | ⟨-, h2⟩
  · have hp := List.find?_some h1
    simp only [Bool.and_eq_true, decide_eq_true_eq] at hp
    rw [← hp.2]
    exact stateOf_of_mem h (List.mem_of_find?_eq_some h1)
  · have hp := List.find?_some h2
    rw [decide_eq_true_eq] at hp
    rw [← hp]
    exact stateOf_of_mem h (List.mem_of_find?_eq_some h2)

theorem Scheduled.swapToNext (h : t.Scheduled) (hs : t.swapToNext c ret = .ok (r, t', c')) : Switched t t' := by
  rcases swapToNext_cases hs with ⟨hn, hu⟩ | ⟨best, hn, -, hs⟩
  · cases hu
    exact ⟨⟨h, h.nextRunnable hn⟩, rfl, fun _ => rfl⟩
  · exact (h.swapTo (h.nextRunnable hn) hs).1

def Keeps (t t' : ThreadSet) : Prop := t'.Consistent ∧ t'.nextTid = t.nextTid

theorem Consistent.parkMe {addr : UInt64} (h : t.Consistent) (hp : t.parkMe c ret addr = .ok (r, t', c')) :
    Keeps t t' := by
  obtain ⟨t₁, h1, h2⟩ := bind_ok hp
  have hslept := h.parkOther h.active h1
  have hswitched := hslept.scheduled.swapToNext h2
  exact ⟨hswitched.consistent, hswitched.nextTid.trans hslept.nextTid⟩

theorem Consistent.unparkOne {addr : UInt64} {more : Bool} (h : t.Consistent)
    (hu : t.unparkOne addr = some (tid, more, t')) :
    Keeps t t' ∧ t'.activeTid = t.activeTid ∧ tid ≠ t'.activeTid ∧ t'.stateOf tid = some .runnable := by
  have hw := h.toScheduled.unparkOne hu
  have hne : tid ≠ t.activeTid := by
    intro he
    have := hw.before
    rw [he, h.active] at this
    cases this
  refine ⟨⟨⟨hw.scheduled, ?_⟩, hw.nextTid⟩, hw.activeTid, hw.activeTid ▸ hne, ?_⟩
  · rw [hw.activeTid, hw.states, if_neg (Ne.symm hne)]
    exact h.active
  · rw [hw.states, if_pos rfl]

theorem Consistent.unparked (h : t.Consistent) (addr : UInt64) :
    Keeps t (t.unparked addr) ∧ (t.unparked addr).activeTid = t.activeTid := by
  unfold ThreadSet.unparked
  cases hu : t.unparkOne addr with
  | none => exact ⟨⟨h, rfl⟩, rfl⟩
  | some u =>
    obtain ⟨hk, ha, -⟩ := h.unparkOne hu
    exact ⟨hk, ha⟩

theorem Consistent.parkOther {addr : UInt64} (h : t.Consistent) (hne : tid ≠ t.activeTid)
    (hr : t.stateOf tid = some .runnable) (hp : t.parkOther addr tid = .ok t') : Keeps t t' := by
  have hs := h.toScheduled.parkOther hr hp
  refine ⟨⟨hs.scheduled, ?_⟩, hs.nextTid⟩
  rw [hs.activeTid, hs.states, if_neg (Ne.symm hne)]
  exact h.active

theorem Keeps.trans {t₁ t₂ t₃ : ThreadSet} (h1 : Keeps t₁ t₂) (h2 : Keeps t₂ t₃) : Keeps t₁ t₃ :=
  ⟨h2.1, h2.2.trans h1.2⟩

theorem Consistent.requeueLoop {src dst : UInt64} {n wake : ℕ} {count k : ℤ} (h : t.Consistent)
    (hl : requeueLoop src dst n wake t count = .ok (k, t')) : Keeps t t' := by
  refine requeueLoop_keeps (P := Keeps t) ?_ ⟨h, rfl⟩ hl
  rintro u tid more t₁ t₂ hu h₁ hcase
  obtain ⟨hk, -, hne, hrun⟩ := hu.1.unparkOne h₁
  rcases hcase with rfl | hp
  · exact hu.trans hk
  · exact hu.trans (hk.trans (hk.1.parkOther hne hrun hp))

theorem Consistent.removeThread (h : t.Consistent) (h1 : tid ≠ 1) (ha : tid ≠ t.activeTid)
    (hr : t.stateOf tid = some .runnable) : (t.removeThread tid).Consistent := by
  have hstates : ∀ j, (t.removeThread tid).stateOf j = if j = tid then none else t.stateOf j := by
    intro j
    unfold stateOf findThread ThreadSet.removeThread
    rw [lookup_discard h.nodup]
    by_cases hj : j = tid <;> simp [hj]
  have hsub : ((t.removeThread tid).threads.map GThread.tid).Sublist (t.threads.map GThread.tid) :=
    discard_sublist.map _
  refine ⟨⟨h.sorted.sublist hsub, ?_, ?_, h.addresses, h.nonempty, h.once, ?_⟩, ?_⟩
  · have hsome : (lookup GThread.tid 1 (discard GThread.tid tid t.threads)).isSome := by
      rw [lookup_discard h.nodup, if_neg (Ne.symm h1)]
      exact isSome_lookup.mpr h.main
    exact isSome_lookup.mp hsome
  · intro j hj
    exact h.below j (hsub.subset hj)
  · intro j
    rw [hstates]
    change j ∈ t.waiters ↔ _
    rw [h.asleep]
    by_cases hj : j = tid
    · simp [hj, hr]
    · rw [if_neg hj]
  · rw [hstates]
    change (if t.activeTid = tid then none else _) = _
    rw [if_neg (Ne.symm ha)]
    exact h.active

theorem insertThread_last {g : GThread} (h : ∀ x ∈ t.threads, ¬ g.tid < x.tid) :
    t.insertThread g = (grown t.threads (t.threads ++ [g])).map fun threads => { t with threads } := by
  unfold insertThread
  rw [place_last h]
  cases grown t.threads (t.threads ++ [g]) <;> rfl

theorem insertThread_cases {g : GThread} (h : ∀ x ∈ t.threads, ¬ g.tid < x.tid)
    (hi : t.insertThread g = .ok t') :
    t.threads.length < tableRoom ∧ t' = { t with threads := t.threads ++ [g] } := by
  rw [insertThread_last h] at hi
  cases hgrow : grown t.threads (t.threads ++ [g]) with
  | error e =>
    rw [hgrow] at hi
    cases hi
  | ok l =>
    obtain ⟨hlt, rfl⟩ := grown_ok hgrow
    rw [hgrow] at hi
    exact ⟨hlt, (Except.ok.inj hi).symm⟩

theorem lt_succ_of_no_wrap {n : UInt32} (h : n + 1 ≠ 0) : n < n + 1 := by
  have hlt := n.toNat_lt
  have hz : (n + 1).toNat ≠ 0 := fun he => h (UInt32.toNat_inj.mp he)
  rw [UInt32.lt_iff_toNat_lt]
  rw [UInt32.toNat_add, UInt32.toNat_one] at *
  omega

theorem succ_ne_self (n : UInt32) : n + 1 ≠ n := by
  intro h
  grind

theorem Consistent.insertThread {g : GThread} (h : t.Consistent) (hg : g.tid = t.nextTid)
    (hr : g.state = .runnable) (hi : t.insertThread g = .ok t') (hwrap : t'.nextTid + 1 ≠ 0) :
    { t' with nextTid := t'.nextTid + 1 }.Consistent := by
  have hbelow : ∀ tid ∈ t.threads.map GThread.tid, tid < g.tid := by
    intro tid htid
    rw [hg]
    exact h.below tid htid
  have hfresh : lookup GThread.tid g.tid t.threads = none := by
    rw [lookup_eq_none]
    exact fun hmem => UInt32.lt_irrefl _ (hbelow _ hmem)
  obtain ⟨-, rfl⟩ := insertThread_cases (fun x hx => UInt32.lt_asymm (hbelow _ (List.mem_map_of_mem hx))) hi
  have hlt : t.nextTid < t.nextTid + 1 := lt_succ_of_no_wrap hwrap
  have hold : ∀ j, j ≠ g.tid →
      stateOf ⟨t.nextTid + 1, t.activeTid, t.threads ++ [g], t.futicies⟩ j = t.stateOf j := by
    intro j hj
    unfold stateOf findThread
    rw [lookup_append, lookup_cons, if_neg (Ne.symm hj)]
    simp
  have hnew : stateOf ⟨t.nextTid + 1, t.activeTid, t.threads ++ [g], t.futicies⟩ g.tid = some .runnable := by
    unfold stateOf findThread
    rw [lookup_append, hfresh, lookup_cons, if_pos rfl, ← hr]
    rfl
  have hnone : t.stateOf g.tid = none := by
    unfold stateOf findThread
    rw [hfresh]
    rfl
  refine ⟨⟨?_, ?_, ?_, h.addresses, h.nonempty, h.once, ?_⟩, ?_⟩
  · rw [List.map_append, List.pairwise_append]
    refine ⟨h.sorted, by simp, ?_⟩
    intro a ha b hb
    simp only [List.map_cons, List.map_nil, List.mem_singleton] at hb
    exact hb ▸ hbelow a ha
  · rw [List.map_append]
    exact List.mem_append_left _ h.main
  · intro j hj
    rw [List.map_append, List.mem_append] at hj
    rcases hj with hj | hj
    · exact UInt32.lt_trans (h.below j hj) hlt
    · simp only [List.map_cons, List.map_nil, List.mem_singleton] at hj
      rw [hj, hg]
      exact hlt
  · intro j
    change j ∈ t.waiters ↔ _
    rw [h.asleep]
    by_cases hj : j = g.tid
    · subst hj
      rw [hnew, hnone]
      simp
    · rw [hold j hj]
  · apply (hold _ ?_).trans h.active
    intro he
    have := h.active
    rw [he, hnone] at this
    cases this

theorem Consistent.setTidAddress {addr : UInt64} (h : t.Consistent)
    (hs : t.setTidAddress addr = .ok (tid, t')) : Keeps t t' := by
  rw [setTidAddress_cases hs]
  refine ⟨⟨h.toScheduled.modifyThread (by intro; rfl) (by intro; rfl), ?_⟩, rfl⟩
  exact (stateOf_modifyThread (by intro; rfl) (by intro; rfl) _).trans h.active

theorem Keeps.exit {t₁ t₂ : ThreadSet} (h1 : t.activeTid ≠ 1) (hk : Keeps t t₁)
    (ha : t₁.activeTid = t.activeTid) (hs : t₁.swapToNext c ret = .ok (r, t₂, c'))
    (hne : t₂.activeTid ≠ t.activeTid) : (t₂.removeThread t.activeTid).Consistent := by
  have hsw := hk.1.toScheduled.swapToNext hs
  apply hsw.consistent.removeThread h1 (Ne.symm hne)
  rw [hsw.states, ← ha]
  exact hk.1.active

theorem Consistent.step (h : t.Consistent) (hs : ThreadStep t c t') (hwrap : t'.nextTid ≠ 0) : t'.Consistent := by
  cases hs with
  | stay => exact h
  | spawn hg hr hi => exact h.insertThread hg hr hi hwrap
  | exit h1 hj hsw hne =>
    rcases hj with rfl | ⟨addr, rfl⟩
    · exact Keeps.exit h1 ⟨h, rfl⟩ rfl hsw hne
    · obtain ⟨hk, ha⟩ := h.unparked addr
      exact hk.exit h1 ha hsw hne
  | yield hsw => exact (h.toScheduled.swapToNext hsw).consistent
  | park hp => exact (h.parkMe hp).1
  | requeue hl => exact (h.requeueLoop hl).1
  | handoff hu hsw =>
    obtain ⟨hk, -, -, hrun⟩ := h.unparkOne hu
    exact (hk.1.toScheduled.swapTo hrun hsw).1.consistent
  | address ha => exact (h.setTidAddress ha).1

end ThreadSet

end MiniBox
