import MiniBox.ThreadRoundTrip

namespace MiniBox

open Effects LinearTables Outcomes StreamReaders

namespace ThreadSet

variable {t t' : ThreadSet} {c c' : Context} {tid : UInt32} {addr r ret : UInt64}

theorem storable_new : new.Storable := by
  refine ⟨by simp [new], by simp [new], by simp [new, tableRoom], by simp [new], by simp [new]⟩

theorem Storable.activate (h : t.Storable) (tid : UInt32) : { t with activeTid := tid }.Storable :=
  ⟨h.ordered, h.addresses, h.threads_fit, h.queues_fit, h.waiters_fit⟩

theorem Storable.number (h : t.Storable) (n : UInt32) : { t with nextTid := n }.Storable :=
  ⟨h.ordered, h.addresses, h.threads_fit, h.queues_fit, h.waiters_fit⟩

theorem Storable.insertThread {g : GThread} (h : t.Storable) (hi : t.insertThread g = .ok t') : t'.Storable := by
  obtain ⟨l, hl, hr⟩ := bind_ok hi
  obtain ⟨hlt, rfl⟩ := grown_ok hl
  cases hr
  refine ⟨ordered_place h.ordered, h.addresses, ?_, h.queues_fit, h.waiters_fit⟩
  rw [perm_place.length_eq, List.length_cons]
  omega

theorem Storable.removeThread (h : t.Storable) (tid : UInt32) : (t.removeThread tid).Storable :=
  ⟨h.ordered.sublist (discard_sublist.map _), h.addresses, discard_sublist.length_le.trans h.threads_fit,
    h.queues_fit, h.waiters_fit⟩

theorem Storable.getOrMakeQueue {q : FutexQueue} (h : t.Storable) (hm : t.getOrMakeQueue addr = .ok (t', q)) :
    t'.Storable := by
  rcases getOrMakeQueue_cases hm with ⟨rfl, -⟩ | ⟨hq, -, hroom, rfl⟩
  · exact h
  · refine ⟨h.ordered, nodup_made h.addresses hq [], h.threads_fit, ?_, ?_⟩
    · rw [List.length_append]
      exact hroom
    · intro q' hq'
      rcases List.mem_append.mp hq' with hold | hnew
      · exact h.waiters_fit q' hold
      · rw [List.mem_singleton] at hnew
        simp [hnew]

theorem Storable.queuePush (h : t.Storable) (hp : t.queuePush addr tid = .ok t') : t'.Storable := by
  have hpushed := pushed_queuePush hp
  refine ⟨hpushed.threads ▸ h.ordered, hpushed.addresses h.addresses, hpushed.threads ▸ h.threads_fit, ?_, ?_⟩
  · rcases queuePush_cases hp with ⟨q, hq, hlt, rfl⟩ | ⟨-, hroom, rfl⟩
    · exact (length_adjust t.futicies).trans_le h.queues_fit
    · rw [List.length_append]
      exact hroom
  · rcases queuePush_cases hp with ⟨q, hq, hlt, rfl⟩ | ⟨-, hroom, rfl⟩
    · intro q' hq'
      rcases mem_adjust hq' with hold | ⟨x, -, rfl⟩
      · exact h.waiters_fit q' hold
      · rw [List.length_append]
        exact hlt
    · intro q' hq'
      rcases List.mem_append.mp hq' with hold | hnew
      · exact h.waiters_fit q' hold
      · rw [List.mem_singleton] at hnew
        simp [hnew, tableRoom]

theorem Storable.unparkOne {more : Bool} (h : t.Storable) (hu : t.unparkOne addr = some (tid, more, t')) :
    t'.Storable := by
  have hadd := sublist_unparkOne hu
  obtain ⟨tids, hq, -, rfl⟩ := unparkOne_cases hu
  have hbase : (t.modifyThread tid fun g => { g with state := .runnable }).Storable :=
    h.modifyThread (by intro; rfl)
  refine ⟨hbase.ordered, h.addresses.sublist hadd, hbase.threads_fit, ?_, ?_⟩
  · have hle := hadd.length_le
    rw [List.length_map, List.length_map] at hle
    exact hle.trans h.queues_fit
  · intro q' hq'
    by_cases he : tids = []
    · simp only [he, ↓reduceIte] at hq'
      exact h.waiters_fit q' (discard_sublist.subset hq')
    · simp only [he, ↓reduceIte] at hq'
      rcases mem_adjust hq' with hold | ⟨x, -, rfl⟩
      · exact h.waiters_fit q' hold
      · have hfit := h.waiters_fit _ (lookup_mem hq)
        rw [List.length_cons] at hfit
        exact (Nat.le_succ _).trans hfit

theorem Storable.unparked (h : t.Storable) (addr : UInt64) : (t.unparked addr).Storable := by
  unfold ThreadSet.unparked
  cases hu : t.unparkOne addr with
  | none => exact h
  | some u => exact h.unparkOne hu

theorem Storable.parkOther (h : t.Storable) (hp : t.parkOther addr tid = .ok t') : t'.Storable := by
  obtain ⟨t₁, hpush, -, rfl⟩ := parkOther_cases hp
  exact (h.queuePush hpush).modifyThread (by intro; rfl)

theorem Storable.swapTo (h : t.Storable) (hs : t.swapTo c tid ret = .ok (r, t', c')) : t'.Storable := by
  obtain ⟨nw, rfl, -, -, -⟩ := swapTo_cases hs
  apply Storable.activate
  exact h.modifyThread (by intro; rfl)

theorem Storable.swapToNext (h : t.Storable) (hs : t.swapToNext c ret = .ok (r, t', c')) : t'.Storable := by
  rcases swapToNext_cases hs with ⟨-, hu⟩ | ⟨best, -, -, hs⟩
  · cases hu
    exact h
  · exact h.swapTo hs

theorem Storable.parkMe (h : t.Storable) (hp : t.parkMe c ret addr = .ok (r, t', c')) : t'.Storable := by
  obtain ⟨t₁, h1, h2⟩ := bind_ok hp
  exact (h.parkOther h1).swapToNext h2

theorem Storable.requeueLoop {src dst : UInt64} {n wake : ℕ} {count k : ℤ} (h : t.Storable)
    (hl : requeueLoop src dst n wake t count = .ok (k, t')) : t'.Storable := by
  refine requeueLoop_keeps ?_ h hl
  rintro t tid more t₁ t₂ h hu (rfl | hp)
  · exact h.unparkOne hu
  · exact (h.unparkOne hu).parkOther hp

theorem Storable.step (h : t.Storable) (hs : ThreadStep t c t') : t'.Storable := by
  cases hs with
  | stay => exact h
  | spawn hg hr hi => exact (h.insertThread hi).number _
  | exit h1 hj hsw hne =>
    apply Storable.removeThread
    rcases hj with rfl | ⟨addr, rfl⟩
    · exact h.swapToNext hsw
    · exact (h.unparked addr).swapToNext hsw
  | yield hsw => exact h.swapToNext hsw
  | park hp => exact h.parkMe hp
  | requeue hl => exact h.requeueLoop hl
  | handoff hu hsw => exact (h.unparkOne hu).swapTo hsw
  | address ha =>
    rw [setTidAddress_cases ha]
    exact h.modifyThread (by intro; rfl)

theorem builds_loadThread : Builds loadThread Storable := by
  apply maintains_bind (builds_reading fun _ _ h => h)
  intro raw
  exact builds_updating fun t t' hi h => h.insertThread hi

theorem builds_loadQueue : Builds loadQueue Storable := by
  apply maintains_bind (builds_reading fun _ _ h => h)
  intro addr
  apply maintains_bind (builds_reading fun _ _ h => h)
  intro qn
  apply maintains_bind
  · apply builds_updating
    intro t t' hm h
    cases hq : t.getOrMakeQueue addr with
    | error e =>
      rw [hq] at hm
      cases hm
    | ok u =>
      rw [hq] at hm
      cases hm
      exact h.getOrMakeQueue hq
  · intro _
    apply builds_times
    apply maintains_bind (builds_reading fun _ _ h => h)
    intro tid
    exact builds_updating fun t t' hp h => h.queuePush hp

theorem builds_loadBody : Builds loadBody Storable := by
  apply maintains_bind (builds_reading fun _ _ h => h)
  intro _
  apply maintains_bind (builds_reading fun t n h => h.number n)
  intro _
  apply maintains_bind (builds_reading fun t n h => h.activate n)
  intro _
  apply maintains_bind (builds_reading fun _ _ h => h)
  intro nt
  apply maintains_bind
  · apply builds_updating
    intro t t' ht h
    cases ht
    exact ⟨by simp, h.addresses, by simp, h.queues_fit, h.waiters_fit⟩
  intro _
  apply maintains_bind (builds_times builds_loadThread _)
  intro _
  apply maintains_bind
  · apply builds_updating
    intro t t' ht h
    cases ht
    exact ⟨h.ordered, by simp, h.threads_fit, by simp, by simp⟩
  intro _
  apply maintains_bind (builds_reading fun _ _ h => h)
  intro nf
  apply maintains_bind (builds_times builds_loadQueue _)
  intro _
  exact builds_reading fun _ _ h => h

theorem Storable.load {src src' : ByteStream.Source} {code : ℤ} (h : t.Storable)
    (hl : t.load c src = .ok (code, t', c', src')) : t'.Storable := by
  unfold ThreadSet.load at hl
  by_cases ha : t.activeTid ≠ 1
  · rw [if_pos ha] at hl
    cases hl
    exact h
  · rw [if_neg ha] at hl
    have hb := builds_loadBody.state (t, src) h
    split at hl
    · rename_i hx
      rw [hx] at hb
      cases hl
      exact hb
    · cases hl
    · rename_i hx
      rw [hx] at hb
      split at hl
      · cases hl
      · cases hl
        exact hb

section MainThread

def HasMain (t : ThreadSet) : Prop := 1 ∈ t.threads.map GThread.tid

theorem HasMain.modifyThread (h : t.HasMain) (tid : UInt32) {f : GThread → GThread} (hf : ∀ g, (f g).tid = g.tid) :
    (t.modifyThread tid f).HasMain := by
  unfold HasMain
  rw [tids_modifyThread hf]
  exact h

theorem HasMain.unparkOne {more : Bool} (h : t.HasMain) (hu : t.unparkOne addr = some (tid, more, t')) : t'.HasMain := by
  obtain ⟨tids, -, -, rfl⟩ := unparkOne_cases hu
  exact h.modifyThread tid (f := fun g => { g with state := .runnable }) (by intro; rfl)

theorem HasMain.unparked (h : t.HasMain) (addr : UInt64) : (t.unparked addr).HasMain := by
  unfold ThreadSet.unparked
  cases hu : t.unparkOne addr with
  | none => exact h
  | some u => exact h.unparkOne hu

theorem HasMain.parkOther (h : t.HasMain) (hp : t.parkOther addr tid = .ok t') : t'.HasMain := by
  obtain ⟨t₁, hpush, -, rfl⟩ := parkOther_cases hp
  have h₁ : t₁.HasMain := by
    unfold HasMain
    rw [(pushed_queuePush hpush).threads]
    exact h
  exact h₁.modifyThread tid (by intro; rfl)

theorem HasMain.swapTo (h : t.HasMain) (hs : t.swapTo c tid ret = .ok (r, t', c')) : t'.HasMain := by
  obtain ⟨nw, rfl, -⟩ := swapTo_cases hs
  exact h.modifyThread t.activeTid
    (f := fun old => { old with rax := ret, rsp := c.guestRsp, threadArea := c.threadArea }) (by intro; rfl)

theorem HasMain.swapToNext (h : t.HasMain) (hs : t.swapToNext c ret = .ok (r, t', c')) : t'.HasMain := by
  rcases swapToNext_cases hs with ⟨-, hu⟩ | ⟨best, -, -, hs⟩
  · cases hu
    exact h
  · exact h.swapTo hs

theorem HasMain.requeueLoop {src dst : UInt64} {n wake : ℕ} {count k : ℤ} (h : t.HasMain)
    (hl : requeueLoop src dst n wake t count = .ok (k, t')) : t'.HasMain := by
  refine requeueLoop_keeps ?_ h hl
  rintro t tid more t₁ t₂ h hu (rfl | hp)
  · exact h.unparkOne hu
  · exact (h.unparkOne hu).parkOther hp

theorem HasMain.step (h : t.HasMain) (hs : ThreadStep t c t') : t'.HasMain := by
  cases hs with
  | stay => exact h
  | spawn hg hr hi =>
    obtain ⟨l, hl, hr⟩ := bind_ok hi
    obtain ⟨-, rfl⟩ := grown_ok hl
    cases hr
    unfold HasMain
    rw [(perm_place.map GThread.tid).mem_iff]
    exact List.mem_cons_of_mem _ h
  | @exit t₁ t₂ r c₂ h1 hj hsw hne =>
    have h₂ : t₂.HasMain := by
      rcases hj with rfl | ⟨addr, rfl⟩
      · exact h.swapToNext hsw
      · exact (h.unparked addr).swapToNext hsw
    obtain ⟨g, hg, hg1⟩ := List.mem_map.mp h₂
    have hkept : g ∈ (t₂.removeThread t.activeTid).threads :=
      (List.mem_eraseP_of_neg (by simpa [hg1] using Ne.symm h1)).mpr hg
    exact List.mem_map.mpr ⟨g, hkept, hg1⟩
  | yield hsw => exact h.swapToNext hsw
  | park hp =>
    obtain ⟨t₁, hpark, hsw⟩ := bind_ok hp
    exact (h.parkOther hpark).swapToNext hsw
  | requeue hl => exact h.requeueLoop hl
  | handoff hu hsw => exact (h.unparkOne hu).swapTo hsw
  | address ha =>
    rw [setTidAddress_cases ha]
    exact h.modifyThread _ (by intro; rfl)

theorem hasMain_load {src src' : ByteStream.Source} (hl : t.load c src = .ok (0, t', c', src')) : t'.HasMain := by
  unfold ThreadSet.load at hl
  split_ifs at hl
  · cases hl
  split at hl
  · cases hl
  · cases hl
  · split at hl
    · cases hl
    · rename_i main hmain
      cases hl
      exact isSome_lookup.mp (Option.isSome_of_eq_some hmain)

end MainThread

end ThreadSet

end MiniBox
