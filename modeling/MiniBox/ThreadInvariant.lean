import MiniBox.Threads

namespace MiniBox

open Effects LinearTables Outcomes

namespace ThreadSet

def stateOf (t : ThreadSet) (tid : UInt32) : Option TState := (t.findThread tid).map GThread.state

def waiters (t : ThreadSet) : List UInt32 := t.futicies.flatMap FutexQueue.tids

structure Scheduled (t : ThreadSet) : Prop where
  sorted : (t.threads.map GThread.tid).Pairwise (· < ·)
  main : 1 ∈ t.threads.map GThread.tid
  below : ∀ tid ∈ t.threads.map GThread.tid, tid < t.nextTid
  addresses : (t.futicies.map FutexQueue.addr).Nodup
  nonempty : ∀ q ∈ t.futicies, q.tids ≠ []
  once : t.waiters.Nodup
  asleep : ∀ tid, tid ∈ t.waiters ↔ t.stateOf tid = some .waiting

structure Consistent (t : ThreadSet) : Prop extends Scheduled t where
  active : t.stateOf t.activeTid = some .runnable

variable {t t' : ThreadSet}

theorem Scheduled.nodup (h : t.Scheduled) : (t.threads.map GThread.tid).Nodup :=
  h.sorted.imp fun hlt => UInt32.ne_of_lt hlt

theorem stateOf_of_mem (h : t.Scheduled) {g : GThread} (hg : g ∈ t.threads) :
    t.stateOf g.tid = some g.state := by
  rw [stateOf, findThread, lookup_of_mem h.nodup hg]
  rfl

theorem mem_of_stateOf {tid : UInt32} {s : TState} (h : t.stateOf tid = some s) :
    ∃ g ∈ t.threads, g.tid = tid ∧ g.state = s := by
  obtain ⟨g, hg, hs⟩ := Option.map_eq_some_iff.mp h
  exact ⟨g, lookup_mem hg, lookup_key hg, hs⟩

theorem tid_mem_of_stateOf {tid : UInt32} {s : TState} (h : t.stateOf tid = some s) :
    tid ∈ t.threads.map GThread.tid := by
  obtain ⟨g, hg, rfl, -⟩ := mem_of_stateOf h
  exact List.mem_map_of_mem hg

theorem isSome_findThread {tid : UInt32} : (t.findThread tid).isSome ↔ tid ∈ t.threads.map GThread.tid :=
  isSome_lookup

theorem consistent_iff : t.Consistent ↔ (t.threads.map GThread.tid).Pairwise (· < ·) ∧ 1 ∈ t.threads.map GThread.tid ∧
    (∀ g ∈ t.threads, g.tid < t.nextTid) ∧ (t.futicies.map FutexQueue.addr).Nodup ∧ (∀ q ∈ t.futicies, q.tids ≠ []) ∧
    t.waiters.Nodup ∧ (∀ s ∈ t.waiters.map t.stateOf, s = some .waiting) ∧
    (∀ g ∈ t.threads, t.stateOf g.tid = some .waiting → g.tid ∈ t.waiters) ∧
    t.stateOf t.activeTid = some .runnable := by
  constructor
  · intro h
    exact ⟨h.sorted, h.main, fun g hg => h.below _ (List.mem_map_of_mem hg), h.addresses, h.nonempty, h.once,
      List.forall_mem_map.mpr fun tid => (h.asleep tid).mp, fun g _ => (h.asleep g.tid).mpr, h.active⟩
  · rintro ⟨hsorted, hmain, hbelow, haddresses, hnonempty, honce, hasleep, hqueued, hactive⟩
    refine ⟨⟨hsorted, hmain, List.forall_mem_map.mpr hbelow, haddresses, hnonempty, honce, ?_⟩, hactive⟩
    intro tid
    refine ⟨List.forall_mem_map.mp hasleep tid, ?_⟩
    intro hwaits
    obtain ⟨g, hg, rfl, -⟩ := mem_of_stateOf hwaits
    exact hqueued g hg hwaits

instance (t : ThreadSet) : Decidable t.Consistent := decidable_of_iff' _ consistent_iff

section Room

theorem length_le_of_nodup {l : List UInt32} {n : ℕ} (h : l.Nodup) (hlt : ∀ x ∈ l, x.toNat < n) : l.length ≤ n := by
  have hmap : (l.map UInt32.toNat).Nodup := h.map fun _ _ he => UInt32.toNat_inj.mp he
  have hsub : l.map UInt32.toNat ⊆ List.range n := by
    intro m hm
    obtain ⟨x, hx, rfl⟩ := List.mem_map.mp hm
    exact List.mem_range.mpr (hlt x hx)
  have hle := (hmap.subperm hsub).length_le
  rwa [List.length_map, List.length_range] at hle

theorem length_queue_le {q : FutexQueue} (h : q ∈ t.futicies) : q.tids.length ≤ t.waiters.length := by
  rw [waiters, List.length_flatMap]
  exact List.single_le_sum (by simp) _ (List.mem_map_of_mem h)

theorem length_futicies_le (h : ∀ q ∈ t.futicies, q.tids ≠ []) : t.futicies.length ≤ t.waiters.length := by
  rw [waiters, List.length_flatMap]
  have hone : ∀ n ∈ t.futicies.map fun q => q.tids.length, 1 ≤ n := by
    intro n hn
    obtain ⟨q, hq, rfl⟩ := List.mem_map.mp hn
    exact List.length_pos_iff.mpr (h q hq)
  have := List.length_le_sum_of_one_le _ hone
  rwa [List.length_map] at this

end Room

section Primitives

variable {tid : UInt32} {f : GThread → GThread}

theorem tids_modifyThread (hf : ∀ g, (f g).tid = g.tid) :
    (t.modifyThread tid f).threads.map GThread.tid = t.threads.map GThread.tid :=
  map_adjust hf t.threads

theorem stateOf_modifyThread (hf : ∀ g, (f g).tid = g.tid) (hs : ∀ g, (f g).state = g.state) (j : UInt32) :
    (t.modifyThread tid f).stateOf j = t.stateOf j := by
  unfold stateOf findThread modifyThread
  rw [lookup_adjust hf]
  by_cases hj : j = tid
  · subst hj
    rw [if_pos rfl, Option.map_map]
    congr 1
    funext g
    exact hs g
  · rw [if_neg hj]

theorem stateOf_setState (s : TState) (hp : (t.stateOf tid).isSome) (j : UInt32) :
    (t.modifyThread tid fun g => { g with state := s }).stateOf j = if j = tid then some s else t.stateOf j := by
  obtain ⟨g, hg⟩ := Option.isSome_iff_exists.mp (by simpa [stateOf] using hp)
  unfold stateOf findThread modifyThread
  rw [lookup_adjust (by intro; rfl)]
  by_cases hj : j = tid
  · subst hj
    rw [if_pos rfl, if_pos rfl]
    unfold findThread at hg
    rw [hg]
    rfl
  · rw [if_neg hj, if_neg hj]

theorem Scheduled.modifyThread (h : t.Scheduled) (hf : ∀ g, (f g).tid = g.tid)
    (hs : ∀ g, (f g).state = g.state) : (t.modifyThread tid f).Scheduled where
  sorted := by rw [tids_modifyThread hf]; exact h.sorted
  main := by rw [tids_modifyThread hf]; exact h.main
  below := by rw [tids_modifyThread hf]; exact h.below
  addresses := h.addresses
  nonempty := h.nonempty
  once := h.once
  asleep j := by rw [stateOf_modifyThread hf hs]; exact h.asleep j

theorem Scheduled.activate (h : t.Scheduled) (tid : UInt32) : { t with activeTid := tid }.Scheduled where
  sorted := h.sorted
  main := h.main
  below := h.below
  addresses := h.addresses
  nonempty := h.nonempty
  once := h.once
  asleep := h.asleep

structure Pushed (t : ThreadSet) (tid : UInt32) (t' : ThreadSet) : Prop where
  nextTid : t'.nextTid = t.nextTid
  activeTid : t'.activeTid = t.activeTid
  threads : t'.threads = t.threads
  addresses : (t.futicies.map FutexQueue.addr).Nodup → (t'.futicies.map FutexQueue.addr).Nodup
  nonempty : (∀ q ∈ t.futicies, q.tids ≠ []) → ∀ q ∈ t'.futicies, q.tids ≠ []
  waiters : t'.waiters.Perm (tid :: t.waiters)

theorem grown_ok {α : Type} {old new l : List α} (h : grown old new = .ok l) :
    old.length < tableRoom ∧ l = new := by
  unfold grown at h
  split_ifs at h with hlt
  exact ⟨hlt, (Except.ok.inj h).symm⟩

theorem getOrMakeQueue_cases {addr : UInt64} {q : FutexQueue} (h : t.getOrMakeQueue addr = .ok (t', q)) :
    (t' = t ∧ t.findQueue addr = some q) ∨
      (t.findQueue addr = none ∧ q = ⟨addr, []⟩ ∧ t.futicies.length < tableRoom ∧
        t' = { t with futicies := t.futicies ++ [⟨addr, []⟩] }) := by
  unfold getOrMakeQueue at h
  cases hq : t.findQueue addr with
  | some q' =>
    rw [hq] at h
    cases h
    exact .inl ⟨rfl, rfl⟩
  | none =>
    rw [hq] at h
    obtain ⟨l, hl, hr⟩ := bind_ok h
    obtain ⟨hlt, rfl⟩ := grown_ok hl
    cases hr
    exact .inr ⟨rfl, rfl, hlt, rfl⟩

theorem queuePush_cases {addr : UInt64} (h : t.queuePush addr tid = .ok t') :
    (∃ q, t.findQueue addr = some q ∧ q.tids.length < tableRoom ∧
        t' = t.modifyQueue addr fun _ => q.tids ++ [tid]) ∨
      (t.findQueue addr = none ∧ t.futicies.length < tableRoom ∧
        t' = { t with futicies := t.futicies ++ [⟨addr, [tid]⟩] }) := by
  obtain ⟨⟨t₁, q⟩, hmake, h2⟩ := bind_ok h
  obtain ⟨l, hl, hr⟩ := bind_ok h2
  obtain ⟨hlt, rfl⟩ := grown_ok hl
  cases hr
  rcases getOrMakeQueue_cases hmake with ⟨rfl, hq⟩ | ⟨hq, rfl, hroom, rfl⟩
  · exact .inl ⟨q, hq, hlt, rfl⟩
  · refine .inr ⟨hq, hroom, ?_⟩
    unfold modifyQueue
    rw [adjust_append hq]
    simp [adjust]

theorem nodup_made {addr : UInt64} (hn : (t.futicies.map FutexQueue.addr).Nodup) (hq : t.findQueue addr = none)
    (tids : List UInt32) : ((t.futicies ++ [FutexQueue.mk addr tids]).map FutexQueue.addr).Nodup := by
  rw [List.map_append, List.nodup_append]
  refine ⟨hn, by simp, ?_⟩
  rintro a ha b hb rfl
  simp only [List.map_cons, List.map_nil, List.mem_singleton] at hb
  exact lookup_eq_none.mp hq (hb ▸ ha)

theorem pushed_queuePush {addr : UInt64} (h : t.queuePush addr tid = .ok t') : Pushed t tid t' := by
  rcases queuePush_cases h with ⟨q, hq, -, rfl⟩ | ⟨hq, -, rfl⟩
  · have hkeys : (t.modifyQueue addr fun _ => q.tids ++ [tid]).futicies.map FutexQueue.addr =
        t.futicies.map FutexQueue.addr := map_adjust (by intro; rfl) _
    refine ⟨rfl, rfl, rfl, fun hn => hkeys ▸ hn, ?_, ?_⟩
    · intro hne q' hq'
      rcases mem_adjust hq' with hold | ⟨x, -, rfl⟩
      · exact hne q' hold
      · simp
    · have hperm := perm_adjust (f := fun q' => { q' with tids := q.tids ++ [tid] }) hq FutexQueue.tids
      apply (List.perm_append_left_iff q.tids).mp
      refine hperm.trans ?_
      simp [waiters]
  · refine ⟨rfl, rfl, rfl, fun hn => nodup_made hn hq _, ?_, ?_⟩
    · intro hne q' hq'
      rcases List.mem_append.mp hq' with hold | hnew
      · exact hne q' hold
      · simp only [List.mem_singleton] at hnew
        simp [hnew]
    · simp only [waiters, List.flatMap_append, List.flatMap_cons, List.flatMap_nil, List.append_nil]
      exact List.perm_append_comm

theorem unparkOne_cases {addr : UInt64} {more : Bool} (h : t.unparkOne addr = some (tid, more, t')) :
    ∃ tids, t.findQueue addr = some ⟨addr, tid :: tids⟩ ∧ more = decide (tids ≠ []) ∧
      t' = { (t.modifyThread tid fun g => { g with state := .runnable }) with
        futicies := if tids = [] then discard FutexQueue.addr addr t.futicies
          else adjust FutexQueue.addr addr (fun q => { q with tids := tids }) t.futicies } := by
  unfold unparkOne at h
  cases hq : t.findQueue addr with
  | none =>
    rw [hq] at h
    cases h
  | some q =>
    obtain ⟨a, l⟩ := q
    obtain rfl : a = addr := lookup_key hq
    cases l with
    | nil =>
      rw [hq] at h
      cases h
    | cons tid' tids =>
      simp only [hq] at h
      by_cases he : tids = []
      · subst he
        simp only [↓reduceIte, Option.some.injEq, Prod.mk.injEq] at h
        obtain ⟨rfl, rfl, rfl⟩ := h
        refine ⟨[], rfl, by simp, ?_⟩
        simp only [removeQueue, modifyThread, modifyQueue, ↓reduceIte]
        rw [discard_adjust (by intro; rfl)]
      · simp only [he, ↓reduceIte, Option.some.injEq, Prod.mk.injEq] at h
        obtain ⟨rfl, rfl, rfl⟩ := h
        refine ⟨tids, rfl, by simp [he], ?_⟩
        simp only [modifyThread, modifyQueue, he, ↓reduceIte]

theorem perm_unparkOne {addr : UInt64} {more : Bool} (h : t.unparkOne addr = some (tid, more, t')) :
    t.waiters.Perm (tid :: t'.waiters) := by
  obtain ⟨tids, hq, -, rfl⟩ := unparkOne_cases h
  by_cases he : tids = []
  · subst he
    simp only [↓reduceIte]
    exact (perm_discard hq FutexQueue.tids).symm
  · simp only [he, ↓reduceIte]
    have hperm := perm_adjust (f := fun q => { q with tids := tids }) hq FutexQueue.tids
    apply (List.perm_append_left_iff tids).mp
    refine hperm.symm.trans ?_
    rw [List.cons_append]
    exact List.perm_middle.symm

theorem sublist_unparkOne {addr : UInt64} {more : Bool} (h : t.unparkOne addr = some (tid, more, t')) :
    (t'.futicies.map FutexQueue.addr).Sublist (t.futicies.map FutexQueue.addr) := by
  obtain ⟨tids, -, -, rfl⟩ := unparkOne_cases h
  by_cases he : tids = []
  · simp only [he, ↓reduceIte]
    exact discard_sublist.map _
  · simp only [he, ↓reduceIte]
    rw [map_adjust (by intro; rfl)]

theorem nonempty_unparkOne {addr : UInt64} {more : Bool} (h : t.unparkOne addr = some (tid, more, t'))
    (hne : ∀ q ∈ t.futicies, q.tids ≠ []) : ∀ q ∈ t'.futicies, q.tids ≠ [] := by
  obtain ⟨tids, -, -, rfl⟩ := unparkOne_cases h
  intro q hq
  by_cases he : tids = []
  · simp only [he, ↓reduceIte] at hq
    exact hne q (discard_sublist.subset hq)
  · simp only [he, ↓reduceIte] at hq
    rcases mem_adjust hq with hold | ⟨x, -, rfl⟩
    · exact hne q hold
    · exact he

structure Woken (t : ThreadSet) (tid : UInt32) (t' : ThreadSet) : Prop where
  scheduled : t'.Scheduled
  nextTid : t'.nextTid = t.nextTid
  activeTid : t'.activeTid = t.activeTid
  before : t.stateOf tid = some .waiting
  states : ∀ j, t'.stateOf j = if j = tid then some .runnable else t.stateOf j

theorem Scheduled.unparkOne {addr : UInt64} {more : Bool} (h : t.Scheduled)
    (hu : t.unparkOne addr = some (tid, more, t')) : Woken t tid t' := by
  have hperm := perm_unparkOne hu
  have hadd := sublist_unparkOne hu
  have hne := nonempty_unparkOne hu h.nonempty
  have hbefore : t.stateOf tid = some .waiting := (h.asleep tid).mp (hperm.mem_iff.mpr (by simp))
  have hsome : (t.stateOf tid).isSome := by simp [hbefore]
  have honce : (tid :: t'.waiters).Nodup := hperm.nodup_iff.mp h.once
  obtain ⟨tids, -, -, ht⟩ := unparkOne_cases hu
  have hthreads : t'.threads = (t.modifyThread tid fun g => { g with state := .runnable }).threads := by rw [ht]
  have hstates : ∀ j, t'.stateOf j = if j = tid then some .runnable else t.stateOf j := by
    intro j
    rw [← stateOf_setState .runnable hsome, stateOf, findThread, hthreads]
    rfl
  have htids : t'.threads.map GThread.tid = t.threads.map GThread.tid := by
    rw [hthreads]
    exact tids_modifyThread (by intro; rfl)
  have hnext : t'.nextTid = t.nextTid := by rw [ht]; rfl
  refine ⟨⟨?_, ?_, ?_, ?_, hne, ?_, ?_⟩, hnext, by rw [ht]; rfl, hbefore, hstates⟩
  · rw [htids]
    exact h.sorted
  · rw [htids]
    exact h.main
  · rw [htids, hnext]
    exact h.below
  · exact h.addresses.sublist hadd
  · exact (List.nodup_cons.mp honce).2
  · intro j
    rw [hstates]
    by_cases hj : j = tid
    · subst hj
      simpa using (List.nodup_cons.mp honce).1
    · rw [if_neg hj, ← h.asleep j, hperm.mem_iff, List.mem_cons]
      simp [hj]

structure Slept (t : ThreadSet) (tid : UInt32) (t' : ThreadSet) : Prop where
  scheduled : t'.Scheduled
  nextTid : t'.nextTid = t.nextTid
  activeTid : t'.activeTid = t.activeTid
  states : ∀ j, t'.stateOf j = if j = tid then some .waiting else t.stateOf j

theorem parkOther_cases {addr : UInt64} (h : t.parkOther addr tid = .ok t') :
    ∃ t₁, t.queuePush addr tid = .ok t₁ ∧ (t₁.findThread tid).isSome ∧
      t' = t₁.modifyThread tid fun g => { g with state := .waiting } := by
  obtain ⟨t₁, h1, h2⟩ := bind_ok h
  cases hf : t₁.findThread tid with
  | none =>
    rw [hf] at h2
    cases h2
  | some g =>
    rw [hf] at h2
    exact ⟨t₁, h1, by simp [hf], (Except.ok.inj h2).symm⟩

theorem Scheduled.parkOther {addr : UInt64} (h : t.Scheduled) (hr : t.stateOf tid = some .runnable)
    (hp : t.parkOther addr tid = .ok t') : Slept t tid t' := by
  obtain ⟨t₁, hpush, -, rfl⟩ := parkOther_cases hp
  have hq := pushed_queuePush hpush
  have hsame : ∀ j, t₁.stateOf j = t.stateOf j := by
    intro j
    rw [stateOf, findThread, hq.threads]
    rfl
  have hstates : ∀ j, (t₁.modifyThread tid fun g => { g with state := .waiting }).stateOf j =
      if j = tid then some .waiting else t.stateOf j := by
    intro j
    rw [stateOf_setState .waiting (by simp [hsame, hr]), hsame]
  have htids : (t₁.modifyThread tid fun g => { g with state := .waiting }).threads.map GThread.tid =
      t.threads.map GThread.tid := by
    rw [tids_modifyThread (by intro; rfl), hq.threads]
  have hfresh : tid ∉ t.waiters := by
    rw [h.asleep, hr]
    simp
  refine ⟨⟨?_, ?_, ?_, hq.addresses h.addresses, hq.nonempty h.nonempty, ?_, ?_⟩, hq.nextTid, hq.activeTid, hstates⟩
  · rw [htids]
    exact h.sorted
  · rw [htids]
    exact h.main
  · intro j hj
    rw [htids] at hj
    exact hq.nextTid ▸ h.below j hj
  · exact hq.waiters.nodup_iff.mpr (List.nodup_cons.mpr ⟨hfresh, h.once⟩)
  · intro j
    rw [hstates]
    change j ∈ t₁.waiters ↔ _
    rw [hq.waiters.mem_iff, List.mem_cons]
    by_cases hj : j = tid
    · simp [hj]
    · rw [if_neg hj, ← h.asleep j]
      simp [hj]

end Primitives

end ThreadSet

end MiniBox
