import MiniBox.Threads
import MiniBox.Outcomes

namespace MiniBox

open Effects LinearTables Outcomes

namespace ThreadSet

inductive ThreadStep (t : ThreadSet) (c : Context) : ThreadSet → Prop
  | stay : ThreadStep t c t
  | spawn {g : GThread} {t' : ThreadSet} (hg : g.tid = t.nextTid) (hr : g.state = .runnable)
      (hi : t.insertThread g = .ok t') : ThreadStep t c { t' with nextTid := t'.nextTid + 1 }
  | exit {t₁ t₂ : ThreadSet} {r : UInt64} {c₂ : Context} (h1 : t.activeTid ≠ 1)
      (hj : t₁ = t ∨ ∃ addr, t₁ = t.unparked addr) (hs : t₁.swapToNext c (sok 0) = .ok (r, t₂, c₂))
      (hne : t₂.activeTid ≠ t.activeTid) : ThreadStep t c (t₂.removeThread t.activeTid)
  | yield {t' : ThreadSet} {r : UInt64} {c' : Context} (hs : t.swapToNext c (sok 0) = .ok (r, t', c')) :
      ThreadStep t c t'
  | park {t' : ThreadSet} {r addr : UInt64} {c' : Context} (hp : t.parkMe c (sok 0) addr = .ok (r, t', c')) :
      ThreadStep t c t'
  | requeue {t' : ThreadSet} {src dst : UInt64} {n wake : ℕ} {k : ℤ}
      (hl : requeueLoop src dst n wake t 0 = .ok (k, t')) : ThreadStep t c t'
  | handoff {t₁ t' : ThreadSet} {r addr : UInt64} {c' : Context} {tid : UInt32} {more : Bool}
      (hu : t.unparkOne addr = some (tid, more, t₁)) (hs : t₁.swapTo c tid (sok 0) = .ok (r, t', c')) :
      ThreadStep t c t'
  | address {t' : ThreadSet} {addr : UInt64} {tid : UInt32} (ha : t.setTidAddress addr = .ok (tid, t')) :
      ThreadStep t c t'

inductive ThreadMove (t : ThreadSet) (c : Context) : ThreadOp → UInt64 × ThreadSet × Context → Prop
  | stay {op : ThreadOp} {r : UInt64} : ThreadMove t c op (r, t, c)
  | spawn {threadArea guestRsp guestRip childTid parentTid r : UInt64} {t' : ThreadSet}
      (hi : t.insertThread ⟨t.nextTid, .runnable, sok 0, guestRsp - 16, threadArea, childTid⟩ = .ok t') :
      ThreadMove t c (.spawn threadArea guestRsp guestRip childTid parentTid)
        (r, { t' with nextTid := t'.nextTid + 1 }, c)
  | exit {t₁ t₂ : ThreadSet} {r : UInt64} {c₂ : Context} (h1 : t.activeTid ≠ 1)
      (hj : t₁ = t ∨ ∃ addr, t₁ = t.unparked addr) (hs : t₁.swapToNext c (sok 0) = .ok (r, t₂, c₂))
      (hne : t₂.activeTid ≠ t.activeTid) : ThreadMove t c .exit (r, t₂.removeThread t.activeTid, c₂)
  | yield {u : UInt64 × ThreadSet × Context} (hs : t.swapToNext c (sok 0) = .ok u) : ThreadMove t c .yield u
  | wait {addr : UInt64} {compare : UInt32} {u : UInt64 × ThreadSet × Context}
      (hp : t.parkMe c (sok 0) addr = .ok u) : ThreadMove t c (.futexWait addr compare) u
  | lock {addr : UInt64} {u : UInt64 × ThreadSet × Context} (hp : t.parkMe c (sok 0) addr = .ok u) :
      ThreadMove t c (.futexLockPi addr) u
  | requeue {op : ThreadOp} {t' : ThreadSet} {src dst r : UInt64} {n wake : ℕ} {k : ℤ}
      (hl : requeueLoop src dst n wake t 0 = .ok (k, t')) : ThreadMove t c op (r, t', c)
  | handoff {t₁ : ThreadSet} {addr : UInt64} {tid : UInt32} {more : Bool} {u : UInt64 × ThreadSet × Context}
      (hu : t.unparkOne addr = some (tid, more, t₁)) (hs : t₁.swapTo c tid (sok 0) = .ok u) :
      ThreadMove t c (.futexUnlockPi addr) u
  | address {t' : ThreadSet} {addr r : UInt64} {tid : UInt32} (ha : t.setTidAddress addr = .ok (tid, t')) :
      ThreadMove t c (.setTidAddress addr) (r, t', c)

variable {M : Type} {mem : GuestMemory M} {t t' : ThreadSet} {c c' : Context} {tid : UInt32} {r ret : UInt64}

theorem swapTo_cases (h : t.swapTo c tid ret = .ok (r, t', c')) :
    ∃ nw, t' = { (t.modifyThread t.activeTid fun old =>
        { old with rax := ret, rsp := c.guestRsp, threadArea := c.threadArea }) with activeTid := tid } ∧
      t'.findThread tid = some nw ∧ r = nw.rax ∧ c' = ⟨nw.rsp, nw.threadArea⟩ := by
  unfold swapTo at h
  cases ho : t.findThread t.activeTid with
  | none =>
    rw [ho] at h
    cases h
  | some old =>
    simp only [ho] at h
    split at h
    · cases h
    · rename_i nw hn
      simp only [Except.ok.injEq, Prod.mk.injEq] at h
      obtain ⟨rfl, rfl, rfl⟩ := h
      exact ⟨nw, rfl, hn, rfl, rfl⟩

theorem swapToNext_cases {u : UInt64 × ThreadSet × Context} (h : t.swapToNext c ret = .ok u) :
    t.nextRunnable = some t.activeTid ∧ u = (ret, t, c) ∨
      ∃ best, t.nextRunnable = some best ∧ best ≠ t.activeTid ∧ t.swapTo c best ret = .ok u := by
  unfold swapToNext at h
  cases hn : t.nextRunnable with
  | none =>
    rw [hn] at h
    cases h
  | some best =>
    simp only [hn] at h
    by_cases hb : best = t.activeTid
    · rw [if_pos hb] at h
      exact .inl ⟨congrArg some hb, (Except.ok.inj h).symm⟩
    · rw [if_neg hb] at h
      exact .inr ⟨best, rfl, hb, h⟩

theorem requeueLoop_keeps {P : ThreadSet → Prop} {src dst : UInt64} {n wake : ℕ} {count k : ℤ}
    (hturn : ∀ t tid more t₁ t₂, P t → t.unparkOne src = some (tid, more, t₁) →
      t₂ = t₁ ∨ t₁.parkOther dst tid = .ok t₂ → P t₂) (h : P t)
    (hl : requeueLoop src dst n wake t count = .ok (k, t')) : P t' := by
  induction n generalizing wake t count with
  | zero =>
    cases hl
    exact h
  | succ n ih =>
    unfold ThreadSet.requeueLoop at hl
    cases hu : t.unparkOne src with
    | none =>
      rw [hu] at hl
      cases hl
      exact h
    | some u =>
      obtain ⟨tid, more, t₁⟩ := u
      simp only [hu] at hl
      obtain ⟨t₂, hp, hl⟩ := bind_ok hl
      have hcase : t₂ = t₁ ∨ t₁.parkOther dst tid = .ok t₂ := by
        by_cases hw : 0 < wake
        · rw [if_pos hw] at hp
          exact .inl (Except.ok.inj hp).symm
        · rw [if_neg hw] at hp
          exact .inr hp
      have h₂ := hturn t tid more t₁ t₂ h hu hcase
      cases more with
      | false =>
        cases hl
        exact h₂
      | true => exact ih h₂ hl

theorem setTidAddress_cases {addr : UInt64} (h : t.setTidAddress addr = .ok (tid, t')) :
    t' = t.modifyThread t.activeTid fun g => { g with tidAddress := addr } := by
  unfold setTidAddress at h
  cases hf : t.findThread t.activeTid with
  | none =>
    rw [hf] at h
    cases h
  | some g =>
    simp only [hf, Except.ok.injEq, Prod.mk.injEq] at h
    exact h.2.symm

theorem ThreadMove.step {op : ThreadOp} {u : UInt64 × ThreadSet × Context} (h : ThreadMove t c op u) :
    ThreadStep t c u.2.1 := by
  cases h with
  | stay => exact .stay
  | spawn hi => exact .spawn rfl rfl hi
  | exit h1 hj hs hne => exact .exit h1 hj hs hne
  | yield hs => exact .yield hs
  | wait hp => exact .park hp
  | lock hp => exact .park hp
  | requeue hl => exact .requeue hl
  | handoff hu hs => exact .handoff hu hs
  | address ha => exact .address ha

theorem spawn_move {threadArea guestRsp guestRip childTid parentTid : UInt64} :
    Ensures (t.spawn mem threadArea guestRsp guestRip childTid parentTid) fun u =>
      ∀ r, ThreadMove t c (.spawn threadArea guestRsp guestRip childTid parentTid) (r, u.2, c) := by
  unfold spawn
  apply ensures_seq
  intro stackEnd
  apply ensures_seq
  intro stackSize
  apply ensures_seq
  intro rc
  by_cases hrc : rc ≠ 0
  · rw [if_pos hrc]
    exact ensures_pure fun _ => .stay
  · rw [if_neg hrc]
    apply ensures_seq
    intro _
    apply ensures_seq
    intro _
    apply ensures_seq
    intro _
    apply ensures_bind (ensures_lift fun t' ht => ht)
    intro t' ht
    exact ensures_pure fun _ => .spawn ht

theorem clearTid_step (addr : UInt64) :
    Ensures (t.clearTid mem addr) fun t₁ => t₁ = t ∨ ∃ addr, t₁ = t.unparked addr := by
  unfold clearTid
  by_cases hz : addr ≠ 0
  · rw [if_pos hz]
    apply ensures_seq
    intro _
    exact ensures_pure (.inr ⟨addr, rfl⟩)
  · rw [if_neg hz]
    exact ensures_pure (.inl rfl)

theorem exit_move : Ensures (t.exit mem c) (ThreadMove t c .exit) := by
  unfold exit
  by_cases h1 : t.activeTid = 1
  · rw [if_pos h1]
    exact ensures_throw _
  · rw [if_neg h1]
    cases hf : t.findThread t.activeTid with
    | none => exact ensures_throw _
    | some self =>
      dsimp only
      apply ensures_bind (clearTid_step _)
      intro t₁ hj
      apply ensures_bind (ensures_lift fun u hu => hu)
      rintro ⟨r, t₂, c₂⟩ hs
      by_cases hd : t₂.activeTid = t.activeTid
      · rw [if_pos hd]
        exact ensures_throw _
      · rw [if_neg hd]
        exact ensures_pure (.exit h1 hj hs hd)

theorem futexWait_move (addr : UInt64) (compare : UInt32) :
    Ensures (t.futexWait mem c addr compare) (ThreadMove t c (.futexWait addr compare)) := by
  unfold futexWait
  apply ensures_seq
  intro cur
  by_cases hc : cur ≠ compare
  · rw [if_pos hc]
    exact ensures_pure .stay
  · rw [if_neg hc]
    exact ensures_lift fun u hp => .wait hp

theorem futexLockPi_move (addr : UInt64) :
    Ensures (t.futexLockPi mem c addr) (ThreadMove t c (.futexLockPi addr)) := by
  unfold futexLockPi
  apply ensures_seq
  intro atom
  by_cases hz : atom = 0
  · rw [if_pos hz]
    apply ensures_seq
    intro _
    exact ensures_pure .stay
  · rw [if_neg hz]
    apply ensures_seq
    intro _
    exact ensures_lift fun u hp => .lock hp

theorem futexUnlockPi_move (addr : UInt64) :
    Ensures (t.futexUnlockPi mem c addr) (ThreadMove t c (.futexUnlockPi addr)) := by
  unfold futexUnlockPi
  cases hu : t.unparkOne addr with
  | none =>
    apply ensures_seq
    intro _
    exact ensures_pure .stay
  | some u =>
    obtain ⟨tid, more, t₁⟩ := u
    apply ensures_seq
    intro _
    exact ensures_lift fun u hs => .handoff hu hs

end ThreadSet

open ThreadSet

theorem ThreadOp.run_move {M : Type} (mem : GuestMemory M) (t : ThreadSet) (c : Context) (op : ThreadOp) :
    Ensures (op.run mem t c) (ThreadMove t c op) := by
  cases op with
  | spawn threadArea guestRsp guestRip childTid parentTid =>
    apply ensures_bind spawn_move
    rintro ⟨r, t'⟩ ht
    exact ensures_pure (ht _)
  | exit => exact exit_move
  | yield => exact ensures_lift fun u hs => .yield hs
  | futexWait addr compare => exact futexWait_move addr compare
  | futexWake addr count =>
    apply ensures_bind (ensures_lift fun u hu => hu)
    rintro ⟨r, t'⟩ hl
    exact ensures_pure (.requeue hl)
  | futexRequeue src dst wake requeue =>
    apply ensures_bind (ensures_lift fun u hu => hu)
    rintro ⟨r, t'⟩ hl
    exact ensures_pure (.requeue hl)
  | futexLockPi addr => exact futexLockPi_move addr
  | futexUnlockPi addr => exact futexUnlockPi_move addr
  | setTidAddress addr =>
    apply ensures_bind (ensures_lift fun u hu => hu)
    rintro ⟨tid, t'⟩ ha
    exact ensures_pure (.address ha)

theorem ThreadOp.run_step {M : Type} (mem : GuestMemory M) (t : ThreadSet) (c : Context) (op : ThreadOp) :
    Ensures (op.run mem t c) fun u => ThreadStep t c u.2.1 :=
  ensures_mono (op.run_move mem t c) fun _ h => h.step

end MiniBox
