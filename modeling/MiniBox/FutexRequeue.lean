import MiniBox.ThreadRuns

namespace MiniBox

open Effects LinearTables Outcomes

namespace ThreadSet

variable {t t' : ThreadSet} {tid : UInt32} {addr : UInt64}

def queueAt (t : ThreadSet) (addr : UInt64) : List UInt32 := ((t.findQueue addr).map FutexQueue.tids).getD []

theorem queueAt_some {q : FutexQueue} (h : t.findQueue addr = some q) : t.queueAt addr = q.tids := by
  rw [queueAt, h]
  rfl

theorem queueAt_none (h : t.findQueue addr = none) : t.queueAt addr = [] := by
  rw [queueAt, h]
  rfl

theorem Scheduled.findQueue_eq (h : t.Scheduled) (addr : UInt64) :
    t.findQueue addr = if t.queueAt addr = [] then none else some ⟨addr, t.queueAt addr⟩ := by
  cases hq : t.findQueue addr with
  | none => rw [queueAt_none hq, if_pos rfl]
  | some q =>
    have hne := h.nonempty q (lookup_mem hq)
    obtain rfl : q.addr = addr := lookup_key hq
    rw [queueAt_some hq, if_neg hne]

theorem Scheduled.stateOf_queueAt (h : t.Scheduled) (ht : tid ∈ t.queueAt addr) : t.stateOf tid = some .waiting := by
  cases hq : t.findQueue addr with
  | none => simp [queueAt_none hq] at ht
  | some q =>
    rw [queueAt_some hq] at ht
    exact (h.asleep tid).mp (List.mem_flatMap.mpr ⟨q, lookup_mem hq, ht⟩)

section Room

theorem Consistent.room (h : t.Consistent) (hne : tid ≠ t.activeTid) (hr : t.stateOf tid = some .runnable) :
    t.waiters.length < tableRoom := by
  have hawake : ∀ j, t.stateOf j = some .runnable → j ∉ t.waiters := by
    intro j hj
    rw [h.asleep, hj]
    simp
  have hnodup : (tid :: t.activeTid :: t.waiters).Nodup := by
    refine List.nodup_cons.mpr ⟨?_, List.nodup_cons.mpr ⟨hawake _ h.active, h.once⟩⟩
    rw [List.mem_cons]
    rintro (he | hm)
    · exact hne he
    · exact hawake tid hr hm
  have hle := length_le_of_nodup hnodup fun x _ => x.toNat_lt
  simp only [List.length_cons] at hle
  unfold tableRoom
  omega

end Room

section Turns

structure WakesHead (t : ThreadSet) (addr : UInt64) (tid : UInt32) (tids : List UInt32) (t' : ThreadSet) : Prop where
  nextTid : t'.nextTid = t.nextTid
  activeTid : t'.activeTid = t.activeTid
  threads : t'.threads = adjust GThread.tid tid (fun g => { g with state := .runnable }) t.threads
  queues : ∀ a, t'.queueAt a = if a = addr then tids else t.queueAt a

theorem Scheduled.unparkOne_head {tids : List UInt32} (h : t.Scheduled) (hq : t.queueAt addr = tid :: tids) :
    ∃ t', t.unparkOne addr = some (tid, decide (tids ≠ []), t') ∧ WakesHead t addr tid tids t' := by
  have hfind : t.findQueue addr = some ⟨addr, tid :: tids⟩ := by
    rw [h.findQueue_eq, hq, if_neg (List.cons_ne_nil _ _)]
  cases hu : t.unparkOne addr with
  | none =>
    unfold ThreadSet.unparkOne at hu
    simp only [hfind] at hu
    split_ifs at hu
  | some u =>
    obtain ⟨tid', more, t'⟩ := u
    obtain ⟨tids', hfind', rfl, rfl⟩ := unparkOne_cases hu
    rw [hfind] at hfind'
    cases hfind'
    refine ⟨_, rfl, rfl, rfl, rfl, ?_⟩
    intro a
    unfold queueAt findQueue
    by_cases he : tids = []
    · simp only [he, ↓reduceIte, lookup_discard h.addresses]
      by_cases ha : a = addr <;> simp [ha]
    · simp only [he, ↓reduceIte]
      rw [lookup_adjust (by intro; rfl)]
      by_cases ha : a = addr
      · subst ha
        unfold findQueue at hfind
        simp [hfind]
      · simp [ha]

theorem unparkOne_none (hq : t.queueAt addr = []) : t.unparkOne addr = none := by
  unfold queueAt at hq
  unfold unparkOne
  cases hf : t.findQueue addr with
  | none => rfl
  | some q =>
    rw [hf] at hq
    dsimp only
    change q.tids = [] at hq
    rw [hq]

structure SleepsLast (t : ThreadSet) (addr : UInt64) (tid : UInt32) (t' : ThreadSet) : Prop where
  nextTid : t'.nextTid = t.nextTid
  activeTid : t'.activeTid = t.activeTid
  threads : t'.threads = adjust GThread.tid tid (fun g => { g with state := .waiting }) t.threads
  queues : ∀ a, t'.queueAt a = if a = addr then t.queueAt addr ++ [tid] else t.queueAt a

theorem grown_of_lt {α : Type} {old new : List α} (h : old.length < tableRoom) : grown old new = .ok new := if_pos h

theorem queuePush_ok (hroom : t.waiters.length < tableRoom) (hne : ∀ q ∈ t.futicies, q.tids ≠ []) (addr : UInt64)
    (tid : UInt32) : ∃ t', t.queuePush addr tid = .ok t' := by
  cases hq : t.findQueue addr with
  | some q =>
    have hlt : q.tids.length < tableRoom := (length_queue_le (lookup_mem hq)).trans_lt hroom
    refine ⟨t.modifyQueue addr fun _ => q.tids ++ [tid], ?_⟩
    simp only [queuePush, getOrMakeQueue, hq, ok_bind, grown_of_lt hlt]
    rfl
  | none =>
    have hlt : t.futicies.length < tableRoom := (length_futicies_le hne).trans_lt hroom
    have hmake : t.getOrMakeQueue addr = .ok ({ t with futicies := t.futicies ++ [⟨addr, []⟩] }, ⟨addr, []⟩) := by
      simp only [getOrMakeQueue, hq, grown_of_lt hlt, ok_bind]
      rfl
    have hzero : ([] : List UInt32).length < tableRoom := by decide
    let made : ThreadSet := { t with futicies := t.futicies ++ [⟨addr, []⟩] }
    refine ⟨made.modifyQueue addr fun _ => [tid], ?_⟩
    rw [queuePush, hmake, ok_bind]
    change (grown [] ([] ++ [tid]) >>= _) = _
    rw [grown_of_lt hzero]
    rfl

theorem queueAt_queuePush (h : t.queuePush addr tid = .ok t') (a : UInt64) :
    t'.queueAt a = if a = addr then t.queueAt addr ++ [tid] else t.queueAt a := by
  rcases queuePush_cases h with ⟨q, hq, -, rfl⟩ | ⟨hq, -, rfl⟩
  · unfold queueAt findQueue modifyQueue
    rw [lookup_adjust (by intro; rfl)]
    unfold findQueue at hq
    by_cases ha : a = addr <;> simp [ha, hq]
  · unfold queueAt findQueue
    rw [lookup_append]
    unfold findQueue at hq
    by_cases ha : a = addr
    · simp [ha, hq, lookup_cons]
    · simp [ha, lookup_cons, Ne.symm ha]

theorem Consistent.parkOther_last (h : t.Consistent) (addr : UInt64) (hne : tid ≠ t.activeTid)
    (hr : t.stateOf tid = some .runnable) : ∃ t', t.parkOther addr tid = .ok t' ∧ SleepsLast t addr tid t' := by
  obtain ⟨g, hg, -⟩ := Option.map_eq_some_iff.mp hr
  obtain ⟨t₁, hp⟩ := queuePush_ok (h.room hne hr) h.nonempty addr tid
  have hpushed := pushed_queuePush hp
  have hfind : t₁.findThread tid = some g := by
    rw [findThread, hpushed.threads]
    exact hg
  refine ⟨t₁.modifyThread tid fun g => { g with state := .waiting }, ?_, hpushed.nextTid, hpushed.activeTid, ?_,
    fun a => queueAt_queuePush hp a⟩
  · simp only [ThreadSet.parkOther, hp, ok_bind, hfind]
    rfl
  · rw [modifyThread, hpushed.threads]

end Turns

structure Requeued (t : ThreadSet) (src dst : UInt64) (woken moved rest : List UInt32) (t' : ThreadSet) : Prop where
  nextTid : t'.nextTid = t.nextTid
  activeTid : t'.activeTid = t.activeTid
  threads : t'.threads = t.threads.map fun g => if g.tid ∈ woken then { g with state := .runnable } else g
  source : t'.queueAt src = rest
  target : t'.queueAt dst = t.queueAt dst ++ moved
  others : ∀ a, a ≠ src → a ≠ dst → t'.queueAt a = t.queueAt a

theorem Requeued.refl (t : ThreadSet) (src dst : UInt64) : Requeued t src dst [] [] (t.queueAt src) t := by
  refine ⟨rfl, rfl, ?_, rfl, (List.append_nil _).symm, fun _ _ _ => rfl⟩
  simp

theorem WakesHead.andThen {t₁ : ThreadSet} {src dst : UInt64} {tids woken moved rest : List UInt32}
    (hn : (t.threads.map GThread.tid).Nodup) (hsd : src ≠ dst) (h : WakesHead t src tid tids t₁)
    (h' : Requeued t₁ src dst woken moved rest t') : Requeued t src dst (tid :: woken) moved rest t' := by
  refine ⟨h'.nextTid.trans h.nextTid, h'.activeTid.trans h.activeTid, ?_, h'.source, ?_, ?_⟩
  · rw [h'.threads, h.threads, adjust_eq_map hn, List.map_map]
    apply List.map_congr_left
    intro g _
    by_cases hg : g.tid = tid
    · simp [hg]
    · simp [hg]
  · rw [h'.target, h.queues, if_neg (Ne.symm hsd)]
  · intro a h1 h2
    rw [h'.others a h1 h2, h.queues, if_neg h1]

theorem SleepsLast.andThen {t₁ t₂ : ThreadSet} {src dst : UInt64} {tids moved rest : List UInt32}
    (hw : t.stateOf tid = some .waiting) (hsd : src ≠ dst) (h : WakesHead t src tid tids t₁)
    (hs : SleepsLast t₁ dst tid t₂) (h' : Requeued t₂ src dst [] moved rest t') :
    Requeued t src dst [] (tid :: moved) rest t' := by
  have hsame : t₂.threads = t.threads := by
    obtain ⟨g, hg, hgw⟩ := Option.map_eq_some_iff.mp hw
    rw [hs.threads, h.threads, adjust_adjust (by intro; rfl)]
    apply adjust_self hg
    simp only [Function.comp_apply, ← hgw]
  refine ⟨h'.nextTid.trans (hs.nextTid.trans h.nextTid), h'.activeTid.trans (hs.activeTid.trans h.activeTid), ?_,
    h'.source, ?_, ?_⟩
  · rw [h'.threads, hsame]
  · rw [h'.target, hs.queues, if_pos rfl, h.queues, if_neg (Ne.symm hsd), List.append_assoc]
    rfl
  · intro a h1 h2
    rw [h'.others a h1 h2, hs.queues, if_neg h2, h.queues, if_neg h1]

section Loop

variable {t₁ t₂ : ThreadSet} {src dst : UInt64} {n wake : ℕ} {count : ℤ} {tids : List UInt32}

theorem requeueLoop_nil (hq : t.queueAt src = []) : requeueLoop src dst n wake t count = .ok (count, t) := by
  cases n with
  | zero => rfl
  | succ n => simp only [requeueLoop, unparkOne_none hq]

theorem requeueLoop_cons (hu : t.unparkOne src = some (tid, decide (tids ≠ []), t₁))
    (hp : (if 0 < wake then pure t₁ else t₁.parkOther dst tid) = .ok t₂) (hq : t₂.queueAt src = tids) :
    requeueLoop src dst (n + 1) wake t count = requeueLoop src dst n (wake - 1) t₂ (count + 1) := by
  simp only [requeueLoop, hu, hp, ok_bind]
  by_cases he : tids = []
  · rw [requeueLoop_nil (hq.trans he)]
    simp [he]
  · simp [he]

theorem Consistent.requeueLoop_spec (hsd : src ≠ dst) (h : t.Consistent) (wake requeue : ℕ) (count : ℤ) :
    ∃ t', ThreadSet.requeueLoop src dst (wake + requeue) wake t count =
        .ok (count + min (wake + requeue) (t.queueAt src).length, t') ∧
      Requeued t src dst ((t.queueAt src).take wake) (((t.queueAt src).drop wake).take requeue)
        ((t.queueAt src).drop (wake + requeue)) t' := by
  generalize hq : t.queueAt src = tids
  induction tids generalizing t wake requeue count with
  | nil =>
    refine ⟨t, ?_, ?_⟩
    · rw [requeueLoop_nil hq]
      simp
    · simpa [hq] using Requeued.refl t src dst
  | cons tid tids ih =>
    obtain ⟨t₁, hu, hwakes⟩ := h.unparkOne_head hq
    obtain ⟨hk, hactive, hne, hrun⟩ := h.unparkOne hu
    have hq₁ : t₁.queueAt src = tids := by rw [hwakes.queues, if_pos rfl]
    cases wake with
    | succ wake =>
      obtain ⟨t', hl, hreq⟩ := ih hk.1 wake requeue (count + 1) hq₁
      refine ⟨t', ?_, ?_⟩
      · rw [Nat.add_right_comm, requeueLoop_cons hu (if_pos (Nat.succ_pos wake)) hq₁, Nat.succ_sub_one, hl]
        simp only [List.length_cons]
        congr 2
        omega
      · rw [Nat.add_right_comm]
        exact hwakes.andThen h.nodup hsd hreq
    | zero =>
      cases requeue with
      | zero =>
        refine ⟨t, by simp [ThreadSet.requeueLoop], ?_⟩
        simpa [hq] using Requeued.refl t src dst
      | succ requeue =>
        obtain ⟨t₂, hp, hsleeps⟩ := hk.1.parkOther_last dst hne hrun
        have hturn : (if 0 < 0 then pure t₁ else t₁.parkOther dst tid) = .ok t₂ := by rw [if_neg (lt_irrefl 0), hp]
        have hq₂ : t₂.queueAt src = tids := by rw [hsleeps.queues, if_neg hsd, hq₁]
        have hw : t.stateOf tid = some .waiting := (h.toScheduled.unparkOne hu).before
        have hk₂ := hk.1.parkOther hne hrun hp
        obtain ⟨t', hl, hreq⟩ := ih hk₂.1 0 requeue (count + 1) hq₂
        refine ⟨t', ?_, ?_⟩
        · rw [← Nat.add_assoc, requeueLoop_cons hu hturn hq₂, Nat.zero_sub, hl]
          simp only [List.length_cons]
          congr 2
          omega
        · rw [← Nat.add_assoc]
          exact hsleeps.andThen hw hsd hwakes hreq

theorem requeueLoop_wake (src dst dst' : UInt64) (n : ℕ) (t : ThreadSet) (count : ℤ) :
    requeueLoop src dst n n t count = requeueLoop src dst' n n t count := by
  induction n generalizing t count with
  | zero => rfl
  | succ n ih => simp only [requeueLoop, Nat.succ_pos, ↓reduceIte, Nat.add_sub_cancel, ih]

end Loop

theorem futexRequeue_in_order (h : t.Consistent) {src dst : UInt64} (hsd : src ≠ dst) (wake requeue : UInt32) :
    let waiting := t.queueAt src
    let woken := min wake.toNat waiting.length
    let moved := min requeue.toNat (waiting.length - woken)
    (∃ t', t.futexRequeue src dst wake requeue = .ok (↑(woken + moved), t') ∧ t'.Consistent ∧
      t'.nextTid = t.nextTid ∧ t'.activeTid = t.activeTid ∧
      (t'.threads = t.threads.map fun g =>
        if g.tid ∈ waiting.take woken then { g with state := .runnable } else g) ∧
      (∀ tid ∈ (waiting.drop woken).take moved, t'.stateOf tid = some .waiting) ∧
      t'.findQueue src =
        (if waiting.drop (woken + moved) = [] then none else some ⟨src, waiting.drop (woken + moved)⟩) ∧
      t'.findQueue dst =
        (if t.queueAt dst ++ (waiting.drop woken).take moved = [] then none
        else some ⟨dst, t.queueAt dst ++ (waiting.drop woken).take moved⟩) ∧
      ∀ a, a ≠ src → a ≠ dst → t'.findQueue a = t.findQueue a) ∧
    t.futexWake src wake = t.futexRequeue src dst wake 0 := by
  intro waiting woken moved
  obtain ⟨t', hl, hreq⟩ := h.requeueLoop_spec hsd wake.toNat requeue.toNat 0
  have hkept := (h.requeueLoop hl).1
  have hwoken : waiting.take woken = waiting.take wake.toNat := by
    rw [List.take_eq_take_iff]
    omega
  have hdrop : waiting.drop woken = waiting.drop wake.toNat := by
    rw [List.drop_eq_drop_iff]
    omega
  have hmoved : (waiting.drop woken).take moved = (waiting.drop wake.toNat).take requeue.toNat := by
    rw [hdrop, List.take_eq_take_iff, List.length_drop]
    omega
  have hrest : waiting.drop (woken + moved) = waiting.drop (wake.toNat + requeue.toNat) := by
    rw [List.drop_eq_drop_iff]
    omega
  have htotal : ((woken + moved : ℕ) : ℤ) = 0 + ↑(min (wake.toNat + requeue.toNat) waiting.length) := by
    omega
  rw [hwoken, hmoved, hrest, htotal]
  refine ⟨⟨t', hl, hkept, hreq.nextTid, hreq.activeTid, hreq.threads, ?_, ?_, ?_, ?_⟩, ?_⟩
  · intro tid htid
    have hqueued : tid ∈ t'.queueAt dst := by
      rw [hreq.target]
      exact List.mem_append_right _ htid
    exact hkept.stateOf_queueAt hqueued
  · rw [hkept.findQueue_eq, hreq.source]
  · rw [hkept.findQueue_eq, hreq.target]
  · intro a hsrc hdst
    rw [hkept.findQueue_eq, h.findQueue_eq, hreq.others a hsrc hdst]
  · exact requeueLoop_wake src 0 dst wake.toNat t 0

theorem futexRequeue_in_order_two :
    ∃ t t' : ThreadSet, t.queueAt 16 = [3, 2] ∧ t.futexRequeue 16 32 1 1 = .ok (2, t') ∧
      t'.findQueue 16 = none ∧ t'.findQueue 32 = some ⟨32, [2]⟩ := by
  let t : ThreadSet := ⟨4, 1, [⟨1, .runnable, 0, 0, 0, 0⟩, ⟨2, .waiting, 0, 0, 0, 0⟩, ⟨3, .waiting, 0, 0, 0, 0⟩],
    [⟨16, [3, 2]⟩]⟩
  have h : t.Consistent := by decide
  have hne : (16 : UInt64) ≠ 32 := by decide
  obtain ⟨⟨t', hreq, -, -, -, -, -, hsrc, hdst, -⟩, -⟩ := futexRequeue_in_order h hne 1 1
  exact ⟨t, t', rfl, hreq, hsrc, hdst⟩

end ThreadSet

end MiniBox
