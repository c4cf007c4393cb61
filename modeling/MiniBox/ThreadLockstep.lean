import MiniBox.GuestMemory
import MiniBox.ThreadTwins

namespace MiniBox

open ByteStream Effects Relational

variable {M N : Type} {R : M → N → Prop} {E : M → Prop} {mem : GuestMemory M} {mem' : GuestMemory N}

structure Related (R : M → N → Prop) (E : M → Prop) (mem : GuestMemory M) (mem' : GuestMemory N) : Prop where
  read : ∀ a, Lock R E Eq (mem.read a) (mem'.read a)
  fetch : ∀ a, Lock R E Eq (mem.fetch a) (mem'.fetch a)
  write : ∀ a v, Lock R E Eq (mem.write a v) (mem'.write a v)
  memOp : ∀ op, Lock R E Eq (mem.memOp op) (mem'.memOp op)

section Memory

variable (h : Related R E mem mem')

include h

theorem Related.readBytes (n : ℕ) (a : UInt64) : Lock R E Eq (mem.readBytes n a) (mem'.readBytes n a) := by
  induction n generalizing a with
  | zero => exact lock_pure rfl
  | succ n ih =>
    apply lock_seq (h.read a)
    intro v
    apply lock_seq (ih (a + 1))
    intro vs
    exact lock_pure rfl

theorem Related.writeBytes (a : UInt64) (bytes : List UInt8) :
    Lock R E Eq (mem.writeBytes a bytes) (mem'.writeBytes a bytes) := by
  induction bytes generalizing a with
  | nil => exact lock_pure rfl
  | cons v vs ih =>
    apply lock_seq (h.write a v)
    intro
    exact ih (a + 1)

theorem Related.load32 (a : UInt64) : Lock R E Eq (mem.load32 a) (mem'.load32 a) :=
  lock_seq (h.readBytes 4 a) fun _ => lock_pure rfl

theorem Related.load64 (a : UInt64) : Lock R E Eq (mem.load64 a) (mem'.load64 a) :=
  lock_seq (h.readBytes 8 a) fun _ => lock_pure rfl

theorem Related.store32 (a : UInt64) (v : UInt32) : Lock R E Eq (mem.store32 a v) (mem'.store32 a v) :=
  h.writeBytes a (le32 v)

theorem Related.store64 (a v : UInt64) : Lock R E Eq (mem.store64 a v) (mem'.store64 a v) :=
  h.writeBytes a (le64 v)

end Memory

section Threads

open ThreadSet

variable {t u : ThreadSet} (h : Related R E mem mem') (ht : Twin t u) (c : Context)

include h ht

theorem lock_spawn (threadArea guestRsp guestRip childTid parentTid : UInt64) :
    Lock R E (fun x y => x.1 = y.1 ∧ Twin x.2 y.2)
      (t.spawn mem threadArea guestRsp guestRip childTid parentTid)
      (u.spawn mem' threadArea guestRsp guestRip childTid parentTid) := by
  unfold ThreadSet.spawn
  apply lock_seq (h.load64 _)
  intro stackEnd
  apply lock_seq (h.load64 _)
  intro stackSize
  apply lock_seq (h.memOp _)
  intro rc
  split_ifs
  · exact lock_pure ⟨rfl, ht⟩
  · apply lock_seq (h.store64 _ _)
    intro
    apply lock_seq (h.store64 _ _)
    intro
    rw [ht.nextTid]
    apply lock_seq (h.store32 _ _)
    intro
    apply lock_bind (fun a => ⟨a, Twin.refl a⟩) (lock_lift (ht.insertThread _))
    intro t₁ u₁ h₁
    rw [h₁.nextTid]
    exact lock_pure ⟨rfl, h₁.setNextTid _⟩

theorem lock_clearTid (addr : UInt64) : Lock R E Twin (t.clearTid mem addr) (u.clearTid mem' addr) := by
  unfold ThreadSet.clearTid
  split_ifs
  · apply lock_seq (h.store32 _ _)
    intro
    exact lock_pure (ht.unparked addr)
  · exact lock_pure ht

theorem lock_exit : Lock R E Alike (t.exit mem c) (u.exit mem' c) := by
  unfold ThreadSet.exit
  have haddr := ht.tidAddress t.activeTid
  rw [ht.activeTid]
  split_ifs
  · exact lock_throw _
  · cases hf : t.findThread t.activeTid with
    | none =>
      rw [hf, Option.map_none, Option.map_eq_none_iff] at haddr
      rw [haddr]
      exact lock_throw _
    | some self =>
      rw [hf, Option.map_some, Option.map_eq_some_iff] at haddr
      obtain ⟨self', hf', haddr⟩ := haddr
      rw [hf']
      dsimp only
      rw [haddr]
      apply lock_bind (fun a => ⟨a, Twin.refl a⟩) (lock_clearTid h ht _)
      intro t₁ u₁ h₁
      apply lock_bind (fun a => ⟨a, Alike.refl a⟩) (lock_lift (h₁.swapToNext c _))
      rintro ⟨ret, t₂, c₂⟩ ⟨ret', u₂, c₂'⟩ ⟨hret, h₂, hc⟩
      dsimp only at hret h₂ hc
      subst hret hc
      rw [h₂.activeTid]
      split_ifs with hsame
      · exact lock_throw _
      · exact lock_pure ⟨rfl, h₂.removeThread (Ne.symm hsame), rfl⟩

theorem lock_futexWait (addr : UInt64) (compare : UInt32) :
    Lock R E Alike (t.futexWait mem c addr compare) (u.futexWait mem' c addr compare) := by
  unfold ThreadSet.futexWait
  apply lock_seq (h.load32 addr)
  intro cur
  split_ifs
  · exact lock_pure ⟨rfl, ht, rfl⟩
  · exact lock_lift (ht.parkMe c _ addr)

theorem lock_futexLockPi (addr : UInt64) : Lock R E Alike (t.futexLockPi mem c addr) (u.futexLockPi mem' c addr) := by
  unfold ThreadSet.futexLockPi
  apply lock_seq (h.load32 addr)
  intro atom
  rw [ht.activeTid]
  split_ifs
  · apply lock_seq (h.store32 _ _)
    intro
    exact lock_pure ⟨rfl, ht, rfl⟩
  · apply lock_seq (h.store32 _ _)
    intro
    exact lock_lift (ht.parkMe c _ addr)

theorem lock_futexUnlockPi (addr : UInt64) :
    Lock R E Alike (t.futexUnlockPi mem c addr) (u.futexUnlockPi mem' c addr) := by
  unfold ThreadSet.futexUnlockPi
  rcases ht.unparkOne addr with ⟨h₁, h₂⟩ | ⟨tid, more, t', u', h₁, h₂, h'⟩
  · rw [h₁, h₂]
    apply lock_seq (h.store32 _ _)
    intro
    exact lock_pure ⟨rfl, ht, rfl⟩
  · rw [h₁, h₂]
    apply lock_seq (h.store32 _ _)
    intro
    rw [h'.swapTo]
    exact lock_lift (sameOutcome_refl Alike.refl _)

theorem lock_threadOp (op : ThreadOp) : Lock R E Alike (op.run mem t c) (op.run mem' u c) := by
  have htotal : ∀ a : ℤ × ThreadSet, ∃ b : ℤ × ThreadSet, a.1 = b.1 ∧ Twin a.2 b.2 := fun a => ⟨a, rfl, Twin.refl _⟩
  cases op with
  | spawn threadArea guestRsp guestRip childTid parentTid =>
    apply lock_bind htotal (lock_spawn h ht threadArea guestRsp guestRip childTid parentTid)
    rintro ⟨r, t₁⟩ ⟨r', u₁⟩ ⟨rfl, h₁⟩
    exact lock_pure ⟨rfl, h₁, rfl⟩
  | exit => exact lock_exit h ht c
  | yield => exact lock_lift (ht.swapToNext c _)
  | futexWait addr compare => exact lock_futexWait h ht c addr compare
  | futexWake addr count =>
    apply lock_bind htotal (lock_lift (ht.requeueLoop addr 0 _ _ 0))
    rintro ⟨r, t₁⟩ ⟨r', u₁⟩ ⟨rfl, h₁⟩
    exact lock_pure ⟨rfl, h₁, rfl⟩
  | futexRequeue src dst wake requeue =>
    apply lock_bind htotal (lock_lift (ht.requeueLoop src dst _ _ 0))
    rintro ⟨r, t₁⟩ ⟨r', u₁⟩ ⟨rfl, h₁⟩
    exact lock_pure ⟨rfl, h₁, rfl⟩
  | futexLockPi addr => exact lock_futexLockPi h ht c addr
  | futexUnlockPi addr => exact lock_futexUnlockPi h ht c addr
  | setTidAddress addr =>
    apply lock_bind (fun a => ⟨a, rfl, Twin.refl _⟩) (lock_lift (ht.setTidAddress addr))
    rintro ⟨r, t₁⟩ ⟨r', u₁⟩ ⟨rfl, h₁⟩
    exact lock_pure ⟨rfl, h₁, rfl⟩

end Threads

end MiniBox
