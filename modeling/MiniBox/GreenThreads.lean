import MiniBox.NestedCalls
import MiniBox.ThreadSwitches

/-!
The threads of the guest on the machine. A thread that is switched out inside the dispatcher goes on behind its own
`guest_syscall` when its turn comes, and a new thread starts at its entry, whichever threads ran in between.
-/

namespace MiniBox

open ByteStream WordMemory WordMemory.Regions X86 Effects LinearTables

@[simp] def fieldThreadArea : Part × ℕ := (.context, 0)

/-- The memory of the machine as the host reaches it. The answers of the memory operations are left open, and only
`mprotect` is among those that the thread syscalls make. -/
def machineMemory (protect : MemOp → ℤ) : GuestMemory Memory where
  read a := attempt fun m => .ok (m a, m)
  fetch a := attempt fun m => .ok (m a, m)
  write a v := attempt fun m => .ok ((), Function.update m a v)
  memOp op := attempt fun m => .ok (protect op, m)

structure Frame where
  rip : UInt64
  rsp : UInt64
  rbp : UInt64
  rax : UInt64
  threadArea : UInt64

namespace Wiring

variable (w : Wiring)

structure Parked (m : Memory) (r : Registers) (f : Frame) : Prop where
  word : w.GuestWord r.rsp
  above : w.GuestWord (r.rsp + 8)
  rbp : load m r.rsp = f.rbp
  rip : load m (r.rsp + 8) = f.rip
  rsp : r.rsp + 0x10 = f.rsp
  rax : r.rax = f.rax
  area : r.threadArea = f.threadArea
  code : interopCode f.rip = []

def FramesKept (t : ThreadSet) (m m' : Memory) : Prop := ∀ tid r, tid ≠ t.activeTid → t.saved tid = some r →
  load m' r.rsp = load m r.rsp ∧ load m' (r.rsp + 8) = load m (r.rsp + 8)

def Held (t : ThreadSet) (m : Memory) (frames : UInt32 → Option Frame) : Prop := ∀ tid r, tid ≠ t.activeTid →
  t.saved tid = some r → ∃ f, frames tid = some f ∧ w.Parked m r f

structure InGuest (n : ℕ) (s : State) : Prop where
  gs : s.gsBase = w.addr .tib 0
  context : w.view s.mem tibContext = w.addr .context 0
  host : w.view s.mem fieldHostRsp = w.addr .stack (n + 4)
  room : n + 6 < w.words .stack
  dispatch : interopCode (w.view s.mem fieldDispatch) = []

structure Dispatched (n : ℕ) (protect : MemOp → ℤ) (t : ThreadSet) (op : ThreadOp) (s : State) (r : UInt64)
    (t' : ThreadSet) (s' : State) : Prop where
  run : ∃ m', exec (op.run (machineMemory protect) t ⟨w.view s.mem fieldGuestRsp, w.view s.mem fieldThreadArea⟩) s.mem =
      (.ok (r, t', ⟨w.view s'.mem fieldGuestRsp, w.view s'.mem fieldThreadArea⟩), m') ∧
    ∀ a, w.GuestWord a → load s'.mem a = load m' a
  moves : w.HostMoves (n + 3) s s'
  dispatch : w.view s'.mem fieldDispatch = w.view s.mem fieldDispatch
  rip : s'.rip = mbOrg + 0xc8
  rsp : s'.reg .rsp = w.addr .stack (n + 1)
  rax : s'.reg .rax = r

def SpawnsApart : ThreadOp → Prop
  | .spawn _ guestRsp guestRip _ parentTid => w.GuestWord (guestRsp - 16) ∧ w.GuestWord (guestRsp - 8) ∧
      interopCode guestRip = [] ∧ ∀ x : UInt64, (x - parentTid).toNat < 4 → ¬ (x - (guestRsp - 16)).toNat < 16
  | _ => True

/-- A thread at `guest_syscall` that makes a thread syscall, up to the return of the dispatcher. Guest and host leave
the frames of the other threads alone, and the host also that of this one. -/
structure Called (n : ℕ) (protect : MemOp → ℤ) (t : ThreadSet) (op : ThreadOp) (s s₁ : State) (r : UInt64)
    (t' : ThreadSet) (s₂ : State) : Prop where
  rip : s.rip = mbOrg + 0x80
  push : w.GuestWord (s.reg .rsp - 8)
  ret : w.GuestWord (s.reg .rsp)
  code : interopCode (load s.mem (s.reg .rsp)) = []
  enter : leave interopCode 64 s = .ok s₁
  dispatched : w.Dispatched n protect t op s₁ r t' s₂
  others : FramesKept t s.mem s₂.mem
  own : load s₂.mem (s.reg .rsp - 8) = load s₁.mem (s.reg .rsp - 8) ∧ load s₂.mem (s.reg .rsp) = load s₁.mem (s.reg .rsp)
  spawns : w.SpawnsApart op
  wrap : t'.nextTid ≠ 0

def callFrame (s : State) (rax : UInt64) : Frame :=
  ⟨load s.mem (s.reg .rsp), s.reg .rsp + 8, s.reg .rbp, rax, w.view s.mem fieldThreadArea⟩

def recordFrame (frames : UInt32 → Option Frame) (t : ThreadSet) (s : State) (op : ThreadOp) (t' : ThreadSet) :
    UInt32 → Option Frame :=
  if t'.activeTid ≠ t.activeTid then Function.update frames t.activeTid (op.pending.map (w.callFrame s))
  else match op with
    | .spawn threadArea guestRsp guestRip _ _ =>
      if t'.nextTid ≠ t.nextTid then Function.update frames t.nextTid (some ⟨guestRip, guestRsp, 0, sok 0, threadArea⟩)
      else frames
    | _ => frames

/-- Runs of the threads of a guest. Between two thread syscalls the active one does what it likes, other syscalls and
callbacks included, with the frames of the others left alone. -/
inductive Green (n : ℕ) : State → ThreadSet → (UInt32 → Option Frame) → Prop
  | start {s : State} : w.InGuest n s → Green n s .new fun _ => none
  | guest {s s' : State} {t : ThreadSet} {frames : UInt32 → Option Frame} : Green n s t frames →
      w.InGuest n s' → FramesKept t s.mem s'.mem → Green n s' t frames
  | syscall {protect : MemOp → ℤ} {s s₁ s₂ s' : State} {t t' : ThreadSet} {frames : UInt32 → Option Frame}
      {op : ThreadOp} {r : UInt64} : Green n s t frames → w.Called n protect t op s s₁ r t' s₂ →
      leave interopCode 64 s₂ = .ok s' →
      Green n s' t' (w.recordFrame frames t s op t')

end Wiring

section Memory

variable {protect : MemOp → ℤ}

theorem exec_write (a : UInt64) (v : UInt8) (m : Memory) :
    exec ((machineMemory protect).write a v) m = (.ok (), Function.update m a v) := rfl

theorem exec_writeBytes (a : UInt64) (l : List UInt8) (m : Memory) (hl : l.length ≤ 2 ^ 64) :
    exec ((machineMemory protect).writeBytes a l) m = (.ok (), blit m a l) := by
  induction l generalizing a m with
  | nil => rfl
  | cons v l ih =>
    rw [List.length_cons] at hl
    rw [GuestMemory.writeBytes, exec_bind_ok (exec_write a v m), ih _ _ (by omega), update_eq_blit]
    have hblit := blit_blit m a [v] l (by simp; omega)
    exact congrArg (Prod.mk _) hblit

theorem exec_store64 (a v : UInt64) (m : Memory) :
    exec ((machineMemory protect).store64 a v) m = (.ok (), store m a v) := by
  rw [store_eq_blit]
  exact exec_writeBytes a (le64 v) m (by simp)

theorem exec_readBytes (protect : MemOp → ℤ) (n : ℕ) (a : UInt64) (m : Memory) :
    ∃ l, exec ((machineMemory protect).readBytes n a) m = (.ok l, m) := by
  induction n generalizing a with
  | zero => exact ⟨[], rfl⟩
  | succ n ih =>
    obtain ⟨l, hl⟩ := ih (a + 1)
    have hread : exec ((machineMemory protect).read a) m = (.ok (m a), m) := rfl
    refine ⟨m a :: l, ?_⟩
    rw [GuestMemory.readBytes, exec_bind_ok hread, exec_bind_ok hl]
    rfl

theorem exec_load64 (protect : MemOp → ℤ) (a : UInt64) (m : Memory) :
    ∃ v, exec ((machineMemory protect).load64 a) m = (.ok v, m) := by
  obtain ⟨l, hl⟩ := exec_readBytes protect 8 a m
  refine ⟨UInt64.ofNat (leDigits l), ?_⟩
  rw [GuestMemory.load64, exec_bind_ok hl]
  rfl

theorem exec_store32 (a : UInt64) (v : UInt32) (m : Memory) :
    exec ((machineMemory protect).store32 a v) m = (.ok (), blit m a (le32 v)) :=
  exec_writeBytes a (le32 v) m (by simp)

def spawnedMemory (m : Memory) (guestRsp guestRip parentTid : UInt64) (tid : UInt32) : Memory :=
  blit (store (store m (guestRsp - 16) 0) (guestRsp - 8) guestRip) parentTid (le32 tid)

theorem spawn_memory {t t' : ThreadSet} {c c' : Context} {threadArea guestRsp guestRip childTid parentTid r : UInt64}
    {m m' : Memory} (hrun : exec ((ThreadOp.spawn threadArea guestRsp guestRip childTid parentTid).run
      (machineMemory protect) t c) m = (.ok (r, t', c'), m')) (hnew : t'.nextTid ≠ t.nextTid) :
    m' = spawnedMemory m guestRsp guestRip parentTid t.nextTid := by
  obtain ⟨⟨k, t₁⟩, m₁, hspawn, hret⟩ := exec_bind_cases hrun
  cases hret
  obtain ⟨v₁, hv₁⟩ := exec_load64 protect (threadArea + 96) m
  obtain ⟨v₂, hv₂⟩ := exec_load64 protect (threadArea + 104) m
  have hop : ∀ op, exec ((machineMemory protect).memOp op) m = (.ok (protect op), m) := fun _ => rfl
  unfold ThreadSet.spawn at hspawn
  rw [exec_bind_ok hv₁, exec_bind_ok hv₂, exec_bind_ok (hop _)] at hspawn
  split_ifs at hspawn with hrc
  · cases hspawn
    exact absurd rfl hnew
  · rw [exec_bind_ok (exec_store64 _ _ _), exec_bind_ok (exec_store64 _ _ _), exec_bind_ok (exec_store32 _ _ _)] at hspawn
    obtain ⟨t₂, m₂, hlift, hlast⟩ := exec_bind_cases hspawn
    rw [exec_lift] at hlift
    cases hlast
    exact (Prod.mk.inj hlift).2.symm

theorem load_spawnedMemory (m : Memory) {guestRsp guestRip parentTid : UInt64} (tid : UInt32)
    (hapart : ∀ x : UInt64, (x - parentTid).toNat < 4 → ¬ (x - (guestRsp - 16)).toNat < 16) :
    load (spawnedMemory m guestRsp guestRip parentTid tid) (guestRsp - 16) = 0 ∧
      load (spawnedMemory m guestRsp guestRip parentTid tid) (guestRsp - 8) = guestRip := by
  have h4 : (le32 tid).length = 4 := length_le32 _
  have hshift : ∀ x : UInt64, (x - (guestRsp - 16)).toNat = ((x - (guestRsp - 8)).toNat + 8) % 2 ^ 64 := by
    intro x
    have hx : x - (guestRsp - 16) = x - (guestRsp - 8) + 8 := by grind
    rw [hx]
    exact UInt64.toNat_add _ _
  unfold spawnedMemory
  refine ⟨?_, ?_⟩
  · rw [load_blit_apart, load_store_apart, load_store]
    · intro x h1 h2
      have := hshift x
      omega
    · intro x hx
      have := hapart x (h4 ▸ hx)
      omega
  · rw [load_blit_apart, load_store]
    intro x hx
    have := hapart x (h4 ▸ hx)
    have := hshift x
    omega

end Memory

theorem ThreadSet.saved_new {tid : UInt32} (htid : tid ≠ new.activeTid) : new.saved tid = none := by
  have hne : ¬ 1 = tid := Ne.symm htid
  simp [new, saved, findThread, lookup_cons, hne]

namespace Wiring

variable {w : Wiring} {n : ℕ} {protect : MemOp → ℤ} {s s₁ s₂ s' : State} {t t' : ThreadSet}
  {frames : UInt32 → Option Frame} {op : ThreadOp} {r : UInt64}

theorem Parked.congr {m m' : Memory} {u : Registers} {f : Frame} (h : w.Parked m u f) (hrbp : load m' u.rsp = load m u.rsp)
    (hrip : load m' (u.rsp + 8) = load m (u.rsp + 8)) : w.Parked m' u f :=
  { h with rbp := hrbp.trans h.rbp, rip := hrip.trans h.rip }

theorem Held.kept {m m' : Memory} (h : w.Held t m frames) (hkept : FramesKept t m m') : w.Held t m' frames := by
  intro tid u htid hu
  obtain ⟨f, hf, hparked⟩ := h tid u htid hu
  obtain ⟨hrbp, hrip⟩ := hkept tid u htid hu
  exact ⟨f, hf, hparked.congr hrbp hrip⟩

theorem Held.stay {m : Memory} (h : w.Held t m frames) (hsame : t.SameRegisters t') : w.Held t' m frames := by
  intro tid u htid hu
  rw [hsame.activeTid] at htid
  rw [hsame.saved] at hu
  exact h tid u htid hu

theorem Held.update {m : Memory} {tid : UInt32} {u : Option Registers} {f : Option Frame} (h : w.Held t m frames)
    (hs : t'.saved = Function.update t.saved tid u)
    (hactive : ∀ j, j ≠ t'.activeTid → j ≠ tid → j ≠ t.activeTid)
    (hu : ∀ r, u = some r → ∃ g, f = some g ∧ w.Parked m r g) : w.Held t' m (Function.update frames tid f) := by
  intro j r hj hr
  rw [hs] at hr
  by_cases he : j = tid
  · rw [he, Function.update_self] at hr ⊢
    exact hu r hr
  · rw [Function.update_of_ne he] at hr ⊢
    exact h j r (hactive j hj he) hr

theorem Parked.spawned {m : Memory} {guestRsp guestRip : UInt64} (threadArea : UInt64)
    (hlow : w.GuestWord (guestRsp - 16)) (hhigh : w.GuestWord (guestRsp - 8)) (hcode : interopCode guestRip = [])
    (hrbp : load m (guestRsp - 16) = 0) (hrip : load m (guestRsp - 8) = guestRip) :
    w.Parked m ⟨sok 0, guestRsp - 16, threadArea⟩ ⟨guestRip, guestRsp, 0, sok 0, threadArea⟩ := by
  have hnext : guestRsp - 16 + 8 = guestRsp - 8 := by
    rw [UInt64.sub_eq_add_neg, UInt64.sub_eq_add_neg, UInt64.add_assoc]
    rfl
  refine ⟨hlow, ?_, hrbp, ?_, UInt64.sub_add_cancel _ _, rfl, rfl, hcode⟩
  · rw [hnext]
    exact hhigh
  · rw [hnext]
    exact hrip

theorem InGuest.congr (h : w.InGuest n s) (hgs : s'.gsBase = s.gsBase) (hview : w.view s'.mem = w.view s.mem) :
    w.InGuest n s' := by
  refine ⟨hgs.trans h.gs, ?_, ?_, h.room, ?_⟩
  · rw [hview]
    exact h.context
  · rw [hview]
    exact h.host
  · rw [hview]
    exact h.dispatch

structure Resumes (w : Wiring) (s : State) (f : Frame) : Prop where
  rip : s.rip = f.rip
  rsp : s.reg .rsp = f.rsp
  rbp : s.reg .rbp = f.rbp
  rax : s.reg .rax = f.rax
  area : w.view s.mem fieldThreadArea = f.threadArea

structure Entered (w : Wiring) (n : ℕ) (s s₁ : State) : Prop where
  gs : s₁.gsBase = w.addr .tib 0
  guestRsp : w.view s₁.mem fieldGuestRsp = s.reg .rsp - 8
  area : w.view s₁.mem fieldThreadArea = w.view s.mem fieldThreadArea
  host : w.view s₁.mem fieldHostRsp = w.addr .stack (n + 4)
  mark : w.view s₁.mem (.stack, n + 3) = w.addr .context 0
  dispatch : w.view s₁.mem fieldDispatch = w.view s.mem fieldDispatch
  rbp : load s₁.mem (s.reg .rsp - 8) = s.reg .rbp
  ret : w.GuestWord (s.reg .rsp) → load s₁.mem (s.reg .rsp) = load s.mem (s.reg .rsp)

theorem InGuest.entered (hin : w.InGuest n s) (hrip : s.rip = mbOrg + 0x80) (hpush : w.GuestWord (s.reg .rsp - 8))
    (henter : leave interopCode 64 s = .ok s₁) : w.Entered n s s₁ := by
  have hroom := hin.room
  obtain ⟨u, hu, -, -, hgs, -, hview, hrbp, hload⟩ := enterDispatch hrip hin.gs hin.context hin.host (by omega) hpush
    hin.dispatch
  obtain rfl := Except.ok.inj (henter.symm.trans hu)
  refine ⟨hgs.trans hin.gs, ?_, ?_, ?_, ?_, ?_, hrbp, fun hret => hload _ hret (apart_sub _)⟩
  · rw [hview]
    simp [hostWords]
  · rw [hview]
    simp [hostWords]
  · rw [hview, ← hin.host]
    simp [hostWords]
  · rw [hview]
    simp [hostWords]
  · rw [hview]
    simp [hostWords]

theorem Dispatched.resumes (hd : w.Dispatched n protect t op s₁ r t' s₂) (hentered : w.Entered n s s₁)
    (hin : w.InGuest n s) {f : Frame}
    (hf : w.Parked s₂.mem ⟨r, w.view s₂.mem fieldGuestRsp, w.view s₂.mem fieldThreadArea⟩ f) :
    ∃ s', leave interopCode 64 s₂ = .ok s' ∧ w.InGuest n s' ∧ w.Resumes s' f ∧
      ∀ a, w.GuestWord a → load s'.mem a = load s₂.mem a := by
  have hroom := hin.room
  have hkept := hd.moves.kept
  obtain ⟨s', hout, hrip, hrsp, hrbp, hgs, hregs, hview, hload⟩ := leaveDispatch hd.rip (hd.moves.gs.trans hentered.gs)
    hd.rsp ((hkept.stack (n + 3) le_rfl).trans hentered.mark) (by omega) hf.word hf.above (by rw [hf.rip]; exact hf.code)
  refine ⟨s', hout, ⟨?_, ?_, ?_, hroom, ?_⟩, ⟨?_, ?_, ?_, ?_, ?_⟩, hload⟩
  · rw [hgs, hd.moves.gs, hentered.gs]
  · rw [hview]
    simp [guestWords]
  · rw [hview, ← hentered.host, ← hkept.hostRsp]
    simp [guestWords]
  · have hdispatch : w.view s'.mem fieldDispatch = w.view s₂.mem fieldDispatch := by
      rw [hview]
      simp [guestWords]
    rw [hdispatch, hd.dispatch, hentered.dispatch]
    exact hin.dispatch
  · exact hrip.trans hf.rip
  · exact hrsp.trans hf.rsp
  · exact hrbp.trans hf.rbp
  · rw [hregs .rax (by decide), hd.rax]
    exact hf.rax
  · rw [hview, ← hf.area]
    simp [guestWords]

theorem Called.parked (hcall : w.Called n protect t op s s₁ r t' s₂) (hin : w.InGuest n s) (rax : UInt64) :
    w.Parked s₂.mem ⟨rax, s.reg .rsp - 8, w.view s.mem fieldThreadArea⟩ (w.callFrame s rax) := by
  have hentered := hin.entered hcall.rip hcall.push hcall.enter
  have hret : s.reg .rsp - 8 + 8 = s.reg .rsp := UInt64.sub_add_cancel _ _
  refine ⟨hcall.push, ?_, ?_, ?_, ?_, rfl, rfl, hcall.code⟩
  · rw [hret]
    exact hcall.ret
  · exact hcall.own.1.trans hentered.rbp
  · rw [hret]
    exact hcall.own.2.trans (hentered.ret hcall.ret)
  · show s.reg .rsp - 8 + 0x10 = s.reg .rsp + 8
    rw [← hret, UInt64.add_sub_cancel, UInt64.add_assoc]
    rfl

theorem recordFrame_same (w : Wiring) (frames : UInt32 → Option Frame) (s : State) (op : ThreadOp)
    (hsame : t.SameRegisters t') : w.recordFrame frames t s op t' = frames := by
  have hn : ¬ t'.nextTid ≠ t.nextTid := not_not.mpr hsame.nextTid
  unfold recordFrame
  rw [if_neg (not_not.mpr hsame.activeTid)]
  cases op <;> simp only [if_neg hn]

theorem recordFrame_spawn (w : Wiring) (frames : UInt32 → Option Frame) (s : State)
    {threadArea guestRsp guestRip childTid parentTid : UInt64} (ha : t'.activeTid = t.activeTid)
    (hn : t'.nextTid ≠ t.nextTid) :
    w.recordFrame frames t s (.spawn threadArea guestRsp guestRip childTid parentTid) t' =
      Function.update frames t.nextTid (some ⟨guestRip, guestRsp, 0, sok 0, threadArea⟩) := by
  unfold recordFrame
  rw [if_neg (not_not.mpr ha)]
  exact if_pos hn

theorem Called.leaves (hcall : w.Called n protect t op s s₁ r t' s₂) (hcons : t.Consistent) (hin : w.InGuest n s)
    (hheld : w.Held t s.mem frames) :
    w.Held t' s₂.mem (w.recordFrame frames t s op t') ∧
      ∃ f, w.Parked s₂.mem ⟨r, w.view s₂.mem fieldGuestRsp, w.view s₂.mem fieldThreadArea⟩ f ∧
        (t'.activeTid = t.activeTid → f = w.callFrame s r) ∧
        (t'.activeTid ≠ t.activeTid → frames t'.activeTid = some f) := by
  have hentered := hin.entered hcall.rip hcall.push hcall.enter
  obtain ⟨m', hrun, hguest⟩ := hcall.dispatched.run
  rw [hentered.guestRsp, hentered.area] at hrun
  have hmove := (op.run_move _ _ _).answer _ _ _ hrun
  have hkept := hheld.kept hcall.others
  -- the caller's own frame, if the context is still its own
  have hown : (⟨w.view s₂.mem fieldGuestRsp, w.view s₂.mem fieldThreadArea⟩ : Context) =
      ⟨s.reg .rsp - 8, w.view s.mem fieldThreadArea⟩ → t'.activeTid = t.activeTid →
      ∃ f, w.Parked s₂.mem ⟨r, w.view s₂.mem fieldGuestRsp, w.view s₂.mem fieldThreadArea⟩ f ∧
        (t'.activeTid = t.activeTid → f = w.callFrame s r) ∧
        (t'.activeTid ≠ t.activeTid → frames t'.activeTid = some f) := by
    intro hc ha
    obtain ⟨hrsp, harea⟩ := Context.mk.inj hc
    have hparked := hcall.parked hin r
    rw [← hrsp, ← harea] at hparked
    exact ⟨_, hparked, fun _ => rfl, fun hne => absurd ha hne⟩
  cases hmove.transfer hcons with
  | stay hsame hc =>
    rw [w.recordFrame_same frames s op hsame]
    exact ⟨hkept.stay hsame, hown hc hsame.activeTid⟩
  | @create threadArea guestRsp guestRip childTid parentTid hop ha hn hc hs =>
    subst hop
    obtain ⟨hlow, hhigh, hcode, hapart⟩ := hcall.spawns
    have hne : t'.nextTid ≠ t.nextTid := by
      intro he
      exact ThreadSet.succ_ne_self t.nextTid (hn.symm.trans he)
    obtain rfl := spawn_memory hrun hne
    obtain ⟨hzero, hentry⟩ := load_spawnedMemory s₁.mem t.nextTid hapart
    have hchild := Parked.spawned threadArea hlow hhigh hcode ((hguest _ hlow).trans hzero)
      ((hguest _ hhigh).trans hentry)
    rw [w.recordFrame_spawn frames s ha hne]
    refine ⟨hkept.update hs (fun j hj _ => hj.trans_eq ha) ?_, hown hc ha⟩
    rintro _ ⟨⟩
    exact ⟨_, rfl, hchild⟩
  | switch ha hn hs hb =>
    have hrecord : w.recordFrame frames t s op t' =
        Function.update frames t.activeTid (op.pending.map (w.callFrame s)) := if_pos ha
    obtain ⟨f, hf, hparked⟩ := hkept _ _ ha hb
    rw [hrecord]
    refine ⟨hkept.update hs (fun _ _ hj => hj) ?_, f, hparked, fun he => absurd he ha, fun _ => hf⟩
    intro u hu
    obtain ⟨rax, hrax, rfl⟩ := Option.map_eq_some_iff.mp hu
    rw [hrax]
    exact ⟨_, rfl, hcall.parked hin rax⟩

theorem Called.step (hcall : w.Called n protect t op s s₁ r t' s₂) (hcons : t.Consistent) (hin : w.InGuest n s)
    (hheld : w.Held t s.mem frames) :
    ∃ s', leave interopCode 64 s₂ = .ok s' ∧ t'.Consistent ∧ w.InGuest n s' ∧
      w.Held t' s'.mem (w.recordFrame frames t s op t') ∧
      (t'.activeTid = t.activeTid → w.Resumes s' (w.callFrame s r)) ∧
      (t'.activeTid ≠ t.activeTid → ∃ f, frames t'.activeTid = some f ∧ w.Resumes s' f) := by
  have hentered := hin.entered hcall.rip hcall.push hcall.enter
  obtain ⟨m', hrun, -⟩ := hcall.dispatched.run
  have hmove := (op.run_move _ _ _).answer _ _ _ hrun
  obtain ⟨hheld', f, hf, hstay, hswitch⟩ := hcall.leaves hcons hin hheld
  obtain ⟨s', hout, hin', hresumes, hload⟩ := hcall.dispatched.resumes hentered hin hf
  refine ⟨s', hout, hcons.step hmove.step hcall.wrap, hin', ?_, ?_, fun hne => ⟨f, hswitch hne, hresumes⟩⟩
  · intro tid u htid hu
    obtain ⟨f', hf', hparked⟩ := hheld' tid u htid hu
    exact ⟨f', hf', hparked.congr (hload _ hparked.word) (hload _ hparked.above)⟩
  · intro he
    rw [← hstay he]
    exact hresumes

theorem Green.held (hrun : w.Green n s t frames) : t.Consistent ∧ w.InGuest n s ∧ w.Held t s.mem frames := by
  induction hrun with
  | start hin =>
    refine ⟨ThreadSet.consistent_new, hin, ?_⟩
    intro tid u htid hu
    rw [ThreadSet.saved_new htid] at hu
    cases hu
  | guest _ hin hkept ih => exact ⟨ih.1, hin, ih.2.2.kept hkept⟩
  | syscall _ hcall hout ih =>
    obtain ⟨s', hout', hcons, hin, hheld, -⟩ := hcall.step ih.1 ih.2.1 ih.2.2
    obtain rfl := Except.ok.inj (hout.symm.trans hout')
    exact ⟨hcons, hin, hheld⟩

theorem green_threads (hrun : w.Green n s t frames) (hcall : w.Called n protect t op s s₁ r t' s₂) :
    ∃ s', leave interopCode 64 s₂ = .ok s' ∧ w.Green n s' t' (w.recordFrame frames t s op t') ∧
      (t'.activeTid = t.activeTid → w.Resumes s' (w.callFrame s r)) ∧
      (t'.activeTid ≠ t.activeTid → ∃ f, frames t'.activeTid = some f ∧ w.Resumes s' f) := by
  obtain ⟨hcons, hin, hheld⟩ := hrun.held
  obtain ⟨s', hout, -, -, -, hstay, hswitch⟩ := hcall.step hcons hin hheld
  exact ⟨s', hout, hrun.syscall hcall hout, hstay, hswitch⟩

section Spawning

theorem view_blit {m : Memory} {p : UInt64} {l : List UInt8} (hlow : w.guest.start.toNat ≤ p.toNat)
    (hhigh : p.toNat + l.length ≤ w.guest.start.toNat + w.guest.size.toNat) : w.view (blit m p l) = w.view m := by
  apply view_congr
  intro q x h1 h2
  have hend := w.guest_end
  have hsub : (x - p).toNat = (2 ^ 64 - p.toNat + x.toNat) % 2 ^ 64 := UInt64.toNat_sub _ _
  have hx := x.toNat_lt
  apply blit_outside
  rcases w.guest_apart q with hq | hq
  · omega
  · omega

theorem exists_dispatched {c : Context} {m m' : Memory}
    (hrun : exec (op.run (machineMemory protect) t ⟨w.view s₁.mem fieldGuestRsp, w.view s₁.mem fieldThreadArea⟩) s₁.mem =
      (.ok (r, t', c), m')) (hguest : ∀ a, w.GuestWord a → load m a = load m' a)
    (hrsp : w.view m fieldGuestRsp = c.guestRsp) (harea : w.view m fieldThreadArea = c.threadArea)
    (hkept : Kept (n + 3) (w.view s₁.mem) (w.view m)) (hdispatch : w.view m fieldDispatch = w.view s₁.mem fieldDispatch) :
    ∃ s₂, s₂.mem = m ∧ w.Dispatched n protect t op s₁ r t' s₂ := by
  refine ⟨{ s₁ with
    rip := mbOrg + 0xc8
    mem := m
    reg := Function.update (Function.update s₁.reg .rsp (w.addr .stack (n + 1))) .rax r }, rfl, ?_⟩
  refine ⟨⟨m', ?_, hguest⟩, ⟨rfl, hkept⟩, hdispatch, rfl, ?_, ?_⟩
  · rw [hrun]
    dsimp only
    rw [hrsp, harea]
  · simp
  · simp

theorem exec_spawn (t : ThreadSet) {t₁ : ThreadSet} (c : Context)
    (threadArea guestRsp guestRip childTid parentTid : UInt64) (hok : ∀ op, protect op = 0)
    (hi : t.insertThread ⟨t.nextTid, .runnable, sok 0, guestRsp - 16, threadArea, childTid⟩ = .ok t₁) (m : Memory) :
    exec ((ThreadOp.spawn threadArea guestRsp guestRip childTid parentTid).run (machineMemory protect) t c) m =
      (.ok (reply t.nextTid.toNat, { t₁ with nextTid := t₁.nextTid + 1 }, c),
        spawnedMemory m guestRsp guestRip parentTid t.nextTid) := by
  obtain ⟨v₁, hv₁⟩ := exec_load64 protect (threadArea + 96) m
  obtain ⟨v₂, hv₂⟩ := exec_load64 protect (threadArea + 104) m
  have hop : ∀ op, exec ((machineMemory protect).memOp op) m = (.ok (protect op), m) := fun _ => rfl
  have hspawn : exec (t.spawn (machineMemory protect) threadArea guestRsp guestRip childTid parentTid) m =
      (.ok (t.nextTid.toNat, { t₁ with nextTid := t₁.nextTid + 1 }),
        spawnedMemory m guestRsp guestRip parentTid t.nextTid) := by
    unfold ThreadSet.spawn
    rw [exec_bind_ok hv₁, exec_bind_ok hv₂, exec_bind_ok (hop _), hok, if_neg (not_not.mpr rfl),
      exec_bind_ok (exec_store64 _ _ _), exec_bind_ok (exec_store64 _ _ _), exec_bind_ok (exec_store32 _ _ _), hi]
    rfl
  rw [ThreadOp.run, exec_bind_ok hspawn]
  rfl

def smallThreads : ThreadSet :=
  ⟨3, 1, [⟨1, .runnable, sok 0, 0, 0, 0⟩, ⟨2, .runnable, sok 0, 0x36f00009000 - 16, 0x36f0000b000, 0⟩], []⟩

def smallFrame : Frame := ⟨0x36f00000400, 0x36f00009000, 0, sok 0, 0x36f0000b000⟩

theorem exists_spawned : ∃ s frames, small.Green 10 s smallThreads frames ∧ frames 2 = some smallFrame := by
  obtain ⟨hgs, hcontext, hhost, hroom⟩ := smallGuest_pre (mbOrg + 0x80)
  have hin : small.InGuest 10 (smallGuest (mbOrg + 0x80)) := by
    refine ⟨hgs, hcontext, hhost, hroom, ?_⟩
    have hdispatch : small.view (smallGuest (mbOrg + 0x80)).mem fieldDispatch = 0x400000 := by decide +kernel
    rw [hdispatch]
    decide +kernel
  have hpush : small.GuestWord ((smallGuest (mbOrg + 0x80)).reg .rsp - 8) := by decide +kernel
  obtain ⟨s₁, henter, -⟩ := enterDispatch rfl hin.gs hin.context hin.host (by decide) hpush hin.dispatch
  have hentered := hin.entered rfl hpush henter
  have hok : ∀ op : MemOp, (fun _ => (0 : ℤ)) op = 0 := fun _ => rfl
  have hexec := exec_spawn .new ⟨small.view s₁.mem fieldGuestRsp, small.view s₁.mem fieldThreadArea⟩ 0x36f0000b000
    0x36f00009000 0x36f00000400 0 0x36f0000a000 hok rfl s₁.mem
  have hview : small.view (spawnedMemory s₁.mem 0x36f00009000 0x36f00000400 0x36f0000a000 ThreadSet.new.nextTid) =
      small.view s₁.mem := by
    unfold spawnedMemory
    rw [view_blit (by decide) (by decide), store_eq_blit, view_blit (by decide) (by decide), store_eq_blit,
      view_blit (by decide) (by decide)]
  have hsame : ∀ a : UInt64, a.toNat + 8 ≤ 0x36f00008ff0 →
      load (spawnedMemory s₁.mem 0x36f00009000 0x36f00000400 0x36f0000a000 ThreadSet.new.nextTid) a = load s₁.mem a := by
    intro a ha
    unfold spawnedMemory
    rw [load_blit_apart, load_store_apart (apart_of_lt (ha.trans (by decide)) (by decide)),
      load_store_apart (apart_of_lt ha (by decide))]
    intro x hx hx'
    have h1 : (x - 0x36f0000a000).toNat = (2 ^ 64 - 0x36f0000a000 + x.toNat) % 2 ^ 64 := UInt64.toNat_sub _ _
    have h2 : (x - a).toNat = (2 ^ 64 - a.toNat + x.toNat) % 2 ^ 64 := UInt64.toNat_sub _ _
    have hlen : (le32 ThreadSet.new.nextTid).length = 4 := length_le32 _
    have := x.toNat_lt
    omega
  obtain ⟨s₂, hmem, hdispatched⟩ := exists_dispatched (n := 10) hexec (fun _ _ => rfl) (congrFun hview _)
    (congrFun hview _) (by rw [hview]; exact ⟨rfl, rfl, rfl, fun _ _ => rfl⟩) (congrFun hview _)
  have hcall : small.Called 10 (fun _ => 0) .new (.spawn 0x36f0000b000 0x36f00009000 0x36f00000400 0 0x36f0000a000)
      (smallGuest (mbOrg + 0x80)) s₁ (reply 2) smallThreads s₂ := by
    refine ⟨rfl, hpush, by decide +kernel, by decide +kernel, henter, hdispatched, ?_, ?_, ?_, by decide⟩
    · intro tid u htid hu
      rw [ThreadSet.saved_new htid] at hu
      cases hu
    · rw [hmem]
      exact ⟨hsame _ (by decide), hsame _ (by decide)⟩
    · refine ⟨by decide, by decide, by decide +kernel, ?_⟩
      intro x hx hx'
      have h1 : (x - 0x36f0000a000).toNat = (2 ^ 64 - 0x36f0000a000 + x.toNat) % 2 ^ 64 := UInt64.toNat_sub _ _
      have h2 : (x - (0x36f00009000 - 16)).toNat = (2 ^ 64 - 0x36f00008ff0 + x.toNat) % 2 ^ 64 := UInt64.toNat_sub _ _
      have := x.toNat_lt
      omega
  have hrun : small.Green 10 (smallGuest (mbOrg + 0x80)) .new fun _ => none := .start hin
  obtain ⟨hcons, -, hheld⟩ := hrun.held
  obtain ⟨s', hout, -⟩ := hcall.step hcons hin hheld
  have hrecord : small.recordFrame (fun _ => none) .new (smallGuest (mbOrg + 0x80))
      (.spawn 0x36f0000b000 0x36f00009000 0x36f00000400 0 0x36f0000a000) smallThreads =
        Function.update (fun _ => none) 2 (some smallFrame) := recordFrame_spawn small _ _ rfl (by decide)
  exact ⟨s', _, hrun.syscall hcall hout, (congrFun hrecord 2).trans (Function.update_self _ _ _)⟩

theorem saved_smallThreads {tid : UInt32} {u : Registers} (htid : tid ≠ smallThreads.activeTid)
    (hu : smallThreads.saved tid = some u) : u.rsp = 0x36f00008ff0 := by
  have hne : ¬ 1 = tid := Ne.symm htid
  by_cases h2 : 2 = tid
  · subst h2
    cases hu
    decide
  · simp [smallThreads, ThreadSet.saved, ThreadSet.findThread, lookup_cons, hne, h2] at hu

theorem green_threads_two : ∃ s frames s₁ t' s₂ s', small.Green 10 s smallThreads frames ∧
    small.Called 10 (fun _ => 0) smallThreads .yield s s₁ (sok 0) t' s₂ ∧ leave interopCode 64 s₂ = .ok s' ∧
    small.Resumes s' smallFrame := by
  obtain ⟨s₀, frames, hspawned, hframe⟩ := exists_spawned
  obtain ⟨-, hin₀, -⟩ := hspawned.held
  have hword : small.GuestWord 0x36f00007000 := by decide
  have hlow : small.GuestWord 0x36f00008ff0 := by decide
  have hhigh : small.GuestWord (0x36f00008ff0 + 8) := by decide
  -- the first thread calls `guest_syscall`
  obtain ⟨s, hgs, hmem, hrip, hrsp, -, -⟩ := exists_moved s₀ (mbOrg + 0x80) 0x36f00007000 0 0
    (store s₀.mem 0x36f00007000 0x36f00000200)
  have hview : small.view s.mem = small.view s₀.mem := by
    rw [hmem]
    exact view_store_outside hword.outside
  have hin := hin₀.congr hgs hview
  have hrun : small.Green 10 s smallThreads frames := by
    refine hspawned.guest hin ?_
    intro tid u htid hu
    rw [saved_smallThreads htid hu, hmem, load_store_apart (apart_of_lt (by decide) (by decide)).symm,
      load_store_apart (apart_of_lt (by decide) (by decide)).symm]
    exact ⟨rfl, rfl⟩
  have hpush : small.GuestWord (s.reg .rsp - 8) := by
    rw [hrsp]
    decide
  obtain ⟨s₁, henter, -, -, -, -, -, -, hload⟩ := enterDispatch hrip hin.gs hin.context hin.host (by decide) hpush
    hin.dispatch
  rw [hrsp] at hload
  -- the dispatcher switches to the second one
  obtain ⟨t', ht', hnext, hyield⟩ : ∃ t' : ThreadSet, t'.activeTid = 2 ∧ t'.nextTid = 3 ∧
      exec (ThreadOp.yield.run (machineMemory fun _ => 0) smallThreads
        ⟨small.view s₁.mem fieldGuestRsp, small.view s₁.mem fieldThreadArea⟩) s₁.mem =
          (.ok (sok 0, t', ⟨0x36f00008ff0, 0x36f0000b000⟩), s₁.mem) := ⟨_, rfl, rfl, rfl⟩
  have hview₂ : small.view (store (store s₁.mem (small.addr .context 2) 0x36f00008ff0) (small.addr .context 0)
      0x36f0000b000) =
      Function.update (Function.update (small.view s₁.mem) (.context, 2) 0x36f00008ff0) (.context, 0) 0x36f0000b000 := by
    rw [view_store (by decide), view_store (by decide)]
  have hguest : ∀ a, small.GuestWord a → load (store (store s₁.mem (small.addr .context 2) 0x36f00008ff0)
      (small.addr .context 0) 0x36f0000b000) a = load s₁.mem a := by
    intro a ha
    rw [load_guest ha (by decide), load_guest ha (by decide)]
  obtain ⟨s₂, hmem₂, hdispatched⟩ := exists_dispatched (n := 10) hyield hguest (by rw [hview₂]; rfl)
    (by rw [hview₂]; rfl) (by rw [hview₂]; exact ⟨rfl, rfl, rfl, fun _ _ => rfl⟩) (by rw [hview₂]; rfl)
  have hcall : small.Called 10 (fun _ => 0) smallThreads .yield s s₁ (sok 0) t' s₂ := by
    refine ⟨hrip, hpush, hrsp ▸ hword, ?_, henter, hdispatched, ?_, ?_, trivial, hnext ▸ by decide⟩
    · rw [hrsp, hmem, load_store]
      decide +kernel
    · intro tid u htid hu
      rw [saved_smallThreads htid hu, hmem₂, hguest _ hlow, hguest _ hhigh]
      exact ⟨hload _ hlow (apart_of_lt (by decide) (by decide)).symm,
        hload _ hhigh (apart_of_lt (by decide) (by decide)).symm⟩
    · rw [hmem₂]
      exact ⟨hguest _ hpush, hguest _ (hrsp ▸ hword)⟩
  obtain ⟨s', hout, -, -, hswitch⟩ := green_threads hrun hcall
  obtain ⟨f, hf, hresumes⟩ := hswitch (by rw [ht']; decide)
  rw [ht', hframe] at hf
  cases hf
  exact ⟨s, frames, s₁, t', s₂, s', hrun, hcall, hout, hresumes⟩

end Spawning

end Wiring

end MiniBox
