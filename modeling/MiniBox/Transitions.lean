import MiniBox.InteropCode
import MiniBox.MemoryBlock

namespace MiniBox

open WordMemory WordMemory.Regions X86 Outcomes

inductive Part
  | context
  | tib
  | stack
  deriving DecidableEq

@[simp] def fieldHostRsp : Part × ℕ := (.context, 1)
@[simp] def fieldGuestRsp : Part × ℕ := (.context, 2)
@[simp] def fieldHostRspAlt : Part × ℕ := (.context, 3)
@[simp] def fieldGuestRspAlt : Part × ℕ := (.context, 4)
@[simp] def fieldDispatch : Part × ℕ := (.context, 5)
@[simp] def fieldHostPtr : Part × ℕ := (.context, 6)
@[simp] def fieldSlot (slot : ℕ) : Part × ℕ := (.context, slot + 7)

@[simp] def tibBase : Part × ℕ := (.tib, 1)
@[simp] def tibLimit : Part × ℕ := (.tib, 2)
@[simp] def tibContext : Part × ℕ := (.tib, 3)

structure Wiring extends Regions Part where
  context_words : words .context = 71
  tib_words : words .tib = 4
  stack_pos : 0 < base .stack
  guest : Range
  guest_end : guest.start.toNat + guest.size.toNat ≤ 2 ^ 64
  guest_apart : ∀ p, base p + 8 * words p ≤ guest.start.toNat ∨ guest.start.toNat + guest.size.toNat ≤ base p

namespace Wiring

variable (w : Wiring)

def GuestWord (a : UInt64) : Prop :=
  w.guest.start.toNat ≤ a.toNat ∧ a.toNat + 8 ≤ w.guest.start.toNat + w.guest.size.toNat

instance (a : UInt64) : Decidable (w.GuestWord a) := inferInstanceAs (Decidable (_ ∧ _))

variable {w}

theorem GuestWord.outside {a : UInt64} (h : w.GuestWord a) : w.Outside a := by
  obtain ⟨h1, h2⟩ := h
  have hend := w.guest_end
  refine ⟨h2.trans hend, ?_⟩
  intro p
  rcases w.guest_apart p with hp | hp
  · right
    omega
  · left
    omega

end Wiring

def KeepsRegs (l : List Reg) (s s' : State) : Prop := ∀ r, r ∉ l → s'.reg r = s.reg r

theorem KeepsRegs.trans {l l' : List Reg} {s s' s'' : State} (h : KeepsRegs l s s') (h' : KeepsRegs l' s' s'')
    (hl : ∀ r ∈ l', r ∈ l) : KeepsRegs l s s'' :=
  fun r hr => (h' r fun hr' => hr (hl r hr')).trans (h r hr)

theorem KeepsRegs.mono {l l' : List Reg} {s s' : State} (h : KeepsRegs l s s') (hl : ∀ r ∈ l, r ∈ l') :
    KeepsRegs l' s s' := fun r hr => h r fun hr' => hr (hl r hr')

theorem addr_stack_ne_zero {w : Wiring} {k : ℕ} (h : k < w.words .stack) : w.addr .stack k ≠ 0 := by
  intro h0
  have hk := toNat_addr h
  rw [h0, UInt64.toNat_zero] at hk
  have := w.stack_pos
  omega

structure Wiring.Ready (w : Wiring) (k : ℕ) (s : State) : Prop where
  context : s.reg .r10 = w.addr .context 0
  gs : s.gsBase = w.addr .tib 0
  rsp : s.reg .rsp = w.addr .stack k
  room : k < w.words .stack

section Blocks

variable {w : Wiring} {s : State} {n : ℕ}

def swapStacks (v : Part × ℕ → UInt64) : Part × ℕ → UInt64 :=
  Function.update (Function.update (Function.update v fieldHostRspAlt (v fieldHostRsp)) fieldGuestRspAlt (v fieldGuestRsp))
    fieldGuestRsp (v fieldGuestRspAlt)

def enterWords (w : Wiring) (n : ℕ) (v : Part × ℕ → UInt64) : Part × ℕ → UInt64 :=
  Function.update (Function.update (Function.update (Function.update (Function.update (Function.update v
    (.stack, n + 1) (v tibBase)) (.stack, n) (v tibLimit)) tibLimit 0) tibBase (0 - 1)) tibContext (w.addr .context 0))
    fieldHostRsp (w.addr .stack n)

theorem test_effect {d target : UInt64} {k : ℕ} (hd : w.addr .context 0 + d = w.addr .context k) (hk : k < 71)
    (h : w.Ready n s) :
    ∃ s', execAll s [(.load .rax (contextAt d), 4), (.test .rax .rax, 3), (.je target, 2)] = .ok s' ∧ w.Ready n s' ∧
      s'.rip = (if w.view s.mem (.context, k) = 0 then s.rip + 9 + target else s.rip + 9) ∧ KeepsRegs [.rax] s s' ∧
      s'.mem = s.mem := by
  obtain ⟨hctx, hgs, hrsp, hn⟩ := h
  have hc := w.context_words
  refine ⟨_, rfl, ⟨?_, hgs, ?_, hn⟩, ?_, ?_, rfl⟩
  · simp [State.set, hctx]
  · simp [State.set, hrsp]
  · simp [State.set, State.ea, hctx, hd, UInt64.add_assoc]
    simp (disch := omega) [load_addr]
  · intro r hr
    simp only [List.mem_singleton] at hr
    simp [State.set, hr]

theorem implSwap_effect (h : w.Ready n s) :
    ∃ s', execAll s implSwap = .ok s' ∧ w.Ready n s' ∧ s'.rip = s.rip + 20 ∧ KeepsRegs [.rax] s s' ∧
      w.view s'.mem = swapStacks (w.view s.mem) := by
  obtain ⟨hctx, hgs, hrsp, hn⟩ := h
  have hc := w.context_words
  refine ⟨_, rfl, ⟨?_, hgs, ?_, hn⟩, ?_, ?_, ?_⟩
  · simp [State.set, hctx]
  · simp [State.set, hrsp]
  · simp [State.set, UInt64.add_assoc]
  · intro r hr
    simp only [List.mem_singleton] at hr
    simp [State.set, hr]
  · simp [State.set, State.ea, hctx]
    simp (disch := omega) [load_addr, view_store, Function.update_apply, swapStacks]

theorem implCall_effect (h : w.Ready (n + 2) s) (hguest : w.GuestWord (w.view s.mem fieldGuestRsp - 8)) :
    ∃ s', execAll s implCall = .ok s' ∧ s'.rip = s.reg .r11 ∧ s'.reg .rsp = w.view s.mem fieldGuestRsp - 8 ∧
      s'.gsBase = s.gsBase ∧ KeepsRegs [.rax, .rsp] s s' ∧ w.view s'.mem = enterWords w n (w.view s.mem) ∧
      load s'.mem (s'.reg .rsp) = s.rip + 0x41 := by
  obtain ⟨hctx, hgs, hrsp, hn⟩ := h
  have hc := w.context_words
  have ht := w.tib_words
  have hout : w.Outside (w.view s.mem (.context, 2) - 8) := hguest.outside
  refine ⟨_, rfl, ?_, ?_, rfl, ?_, ?_, ?_⟩
  · simp [State.set, State.pushed]
  · simp [State.set, State.pushed, State.ea, hgs, hctx, hrsp]
    simp (disch := omega) [load_addr, view_store, Function.update_apply]
  · intro r hr
    simp only [List.mem_cons, List.not_mem_nil, or_false, not_or] at hr
    simp [State.set, State.pushed, hr]
  · simp [State.set, State.pushed, State.ea, hgs, hctx, hrsp]
    simp (disch := omega) [load_addr, view_store, Function.update_apply]
    rw [view_store_outside hout]
    simp (disch := omega) [view_store, enterWords]
  · simp [State.set, State.pushed, UInt64.add_assoc]

def backWords (rsp : UInt64) (v : Part × ℕ → UInt64) : Part × ℕ → UInt64 :=
  Function.update (Function.update (Function.update v fieldGuestRsp rsp) fieldHostRsp 0) tibContext 0

def unswapStacks (v : Part × ℕ → UInt64) : Part × ℕ → UInt64 :=
  Function.update (Function.update (Function.update (Function.update v fieldHostRsp (v fieldHostRspAlt)) fieldHostRspAlt 0)
    fieldGuestRsp (v fieldGuestRspAlt)) fieldGuestRspAlt (v fieldGuestRsp)

def leaveWords (n : ℕ) (v : Part × ℕ → UInt64) : Part × ℕ → UInt64 :=
  Function.update (Function.update v tibLimit (v (.stack, n))) tibBase (v (.stack, n + 1))

theorem implBack_effect (hgs : s.gsBase = w.addr .tib 0) (hcontext : w.view s.mem tibContext = w.addr .context 0)
    (hhost : w.view s.mem fieldHostRsp = w.addr .stack n) (hn : n < w.words .stack) :
    ∃ s', execAll s implBack = .ok s' ∧ w.Ready n s' ∧
      s'.rip = (if w.view s.mem fieldHostRspAlt = 0 then s.rip + 71 else s.rip + 45) ∧
      s'.reg .r11 = w.view s.mem fieldHostRspAlt ∧ KeepsRegs [.r10, .r11, .rsp] s s' ∧
      w.view s'.mem = backWords (s.reg .rsp) (w.view s.mem) := by
  have hc := w.context_words
  have ht := w.tib_words
  have hcontext : w.view s.mem (.tib, 3) = w.addr .context 0 := hcontext
  have hhost : w.view s.mem (.context, 1) = w.addr .stack n := hhost
  refine ⟨_, rfl, ⟨?_, hgs, ?_, hn⟩, ?_, ?_, ?_, ?_⟩
  · simp [State.set, State.ea, hgs]
    simp (disch := omega) [load_addr, hcontext]
  · simp [State.set, State.ea, hgs]
    simp (disch := omega) [load_addr, hcontext, view_store, Function.update_apply, hhost]
  · simp [State.set, State.ea, hgs]
    simp (disch := omega) [load_addr, hcontext, view_store, Function.update_apply, UInt64.add_assoc]
    rfl
  · simp [State.set, State.ea, hgs]
    simp (disch := omega) [load_addr, hcontext, view_store, Function.update_apply]
  · intro r hr
    simp only [List.mem_cons, List.not_mem_nil, or_false, not_or] at hr
    simp [State.set, hr]
  · simp [State.set, State.ea, hgs]
    simp (disch := omega) [load_addr, hcontext, view_store, backWords]

theorem implUnswap_effect (h : w.Ready n s) (hr11 : s.reg .r11 = w.view s.mem fieldHostRspAlt) :
    ∃ s', execAll s implUnswap = .ok s' ∧ w.Ready n s' ∧ s'.rip = s.rip + 26 ∧ KeepsRegs [.r11] s s' ∧
      w.view s'.mem = unswapStacks (w.view s.mem) := by
  obtain ⟨hctx, hgs, hrsp, hn⟩ := h
  have hc := w.context_words
  refine ⟨_, rfl, ⟨?_, hgs, ?_, hn⟩, ?_, ?_, ?_⟩
  · simp [State.set, hctx]
  · simp [State.set, hrsp]
  · simp [State.set, UInt64.add_assoc]
  · intro r hr
    simp only [List.mem_singleton] at hr
    simp [State.set, hr]
  · simp [State.set, State.ea, hctx, hr11]
    simp (disch := omega) [load_addr, view_store, Function.update_apply, unswapStacks]

theorem implRet_effect (h : w.Ready n s) (hn : n + 2 < w.words .stack) :
    ∃ s', execAll s implRet = .ok s' ∧ s'.rip = w.view s.mem (.stack, n + 2) ∧ s'.reg .rsp = w.addr .stack (n + 3) ∧
      s'.gsBase = s.gsBase ∧ KeepsRegs [.r10, .rsp] s s' ∧ w.view s'.mem = leaveWords n (w.view s.mem) := by
  obtain ⟨hctx, hgs, hrsp, -⟩ := h
  have ht := w.tib_words
  refine ⟨_, rfl, ?_, ?_, rfl, ?_, ?_⟩
  · simp [State.set, State.ea, hgs, hrsp]
    simp (disch := omega) [load_addr, view_store, Function.update_apply]
  · simp [State.set, hrsp]
  · intro r hr
    simp only [List.mem_cons, List.not_mem_nil, or_false, not_or] at hr
    simp [State.set, hr]
  · simp [State.set, State.ea, hgs, hrsp]
    simp (disch := omega) [load_addr, view_store, Function.update_apply, leaveWords]

theorem load_guest {m : Memory} {a v : UInt64} {p : Part} {k : ℕ} (ha : w.GuestWord a) (hk : k < w.words p) :
    load (store m (w.addr p k) v) a = load m a := by
  apply load_store_apart
  have hout := ha.outside
  have haddr := toNat_addr hk
  have hfits := w.fits p
  rcases hout.2 p with hp | hp
  · exact apart_of_lt (by omega) (by omega)
  · exact (apart_of_lt (by omega) hout.1).symm

def hostWords (w : Wiring) (n : ℕ) (rsp : UInt64) (v : Part × ℕ → UInt64) : Part × ℕ → UInt64 :=
  Function.update (Function.update (Function.update (Function.update (Function.update v
    fieldGuestRsp rsp) tibLimit (v (.stack, n + 1))) tibBase (v (.stack, n + 2))) (.stack, n) (w.addr .context 0))
    tibContext 0

def guestWords (w : Wiring) (v : Part × ℕ → UInt64) : Part × ℕ → UInt64 :=
  Function.update (Function.update (Function.update v tibLimit 0) tibBase (0 - 1)) tibContext (w.addr .context 0)

theorem syscallIn_effect (hgs : s.gsBase = w.addr .tib 0) (hcontext : w.view s.mem tibContext = w.addr .context 0)
    (hhost : w.view s.mem fieldHostRsp = w.addr .stack (n + 4)) (hn : n + 5 < w.words .stack)
    (hguest : w.GuestWord (s.reg .rsp - 8)) :
    ∃ s', execAll s syscallIn = .ok s' ∧ s'.rip = w.view s.mem fieldDispatch ∧ s'.reg .rsp = w.addr .stack n ∧
      s'.gsBase = s.gsBase ∧ KeepsRegs [.rax, .rsp, .r10, .r11] s s' ∧
      w.view s'.mem = Function.update (Function.update (Function.update
        (hostWords w (n + 3) (s.reg .rsp - 8) (w.view s.mem)) (.stack, n + 2) (w.view s.mem fieldHostPtr))
        (.stack, n + 1) (s.reg .rax)) (.stack, n) (s.rip + 0x48) ∧
      load s'.mem (s.reg .rsp - 8) = s.reg .rbp ∧
      ∀ a, w.GuestWord a → WordsApart a (s.reg .rsp - 8) → load s'.mem a = load s.mem a := by
  have hc := w.context_words
  have ht := w.tib_words
  have hout := hguest.outside
  have hcontext : w.view s.mem (.tib, 3) = w.addr .context 0 := hcontext
  have hhost : w.view s.mem (.context, 1) = w.addr .stack (n + 4) := hhost
  refine ⟨_, rfl, ?_, ?_, rfl, ?_, ?_, ?_, ?_⟩
  · simp [State.set, State.pushed, State.ea, hgs]
    simp (disch := omega) [load_addr, view_store_outside hout, hcontext, view_store, Function.update_apply, hhost]
  · simp [State.set, State.pushed, State.ea, hgs]
    simp (disch := omega) [load_addr, view_store_outside hout, hcontext, view_store, Function.update_apply, hhost]
  · intro r hr
    simp only [List.mem_cons, List.not_mem_nil, or_false, not_or] at hr
    simp [State.set, State.pushed, hr]
  · simp [State.set, State.pushed, State.ea, hgs]
    simp (disch := omega) [load_addr, view_store_outside hout, hcontext, view_store, Function.update_apply, hhost,
      hostWords, UInt64.add_assoc]
  · simp [State.set, State.pushed, State.ea, hgs]
    simp (disch := omega) [load_addr, view_store_outside hout, hcontext, view_store, Function.update_apply, hhost,
      load_guest hguest]
  · intro a ha hapart
    simp [State.set, State.pushed, State.ea, hgs]
    simp (disch := omega) [load_addr, view_store_outside hout, hcontext, view_store, Function.update_apply, hhost,
      load_guest ha, load_store_apart hapart]

theorem syscallOut_effect (hgs : s.gsBase = w.addr .tib 0) (hrsp : s.reg .rsp = w.addr .stack (n + 1))
    (hcontext : w.view s.mem (.stack, n + 3) = w.addr .context 0) (hn : n + 3 < w.words .stack)
    (hguest : w.GuestWord (w.view s.mem fieldGuestRsp)) (hguest' : w.GuestWord (w.view s.mem fieldGuestRsp + 8)) :
    ∃ s', execAll s syscallOut = .ok s' ∧ s'.rip = load s.mem (w.view s.mem fieldGuestRsp + 8) ∧
      s'.reg .rsp = w.view s.mem fieldGuestRsp + 0x10 ∧ s'.reg .rbp = load s.mem (w.view s.mem fieldGuestRsp) ∧
      s'.gsBase = s.gsBase ∧ KeepsRegs [.rsp, .rbp, .r10] s s' ∧ w.view s'.mem = guestWords w (w.view s.mem) ∧
      ∀ a, w.GuestWord a → load s'.mem a = load s.mem a := by
  have hc := w.context_words
  have ht := w.tib_words
  have hguest : w.GuestWord (w.view s.mem (.context, 2)) := hguest
  have hguest' : w.GuestWord (w.view s.mem (.context, 2) + 8) := hguest'
  refine ⟨_, rfl, ?_, ?_, ?_, rfl, ?_, ?_, ?_⟩
  · simp [State.set, State.ea, hgs, hrsp]
    simp (disch := omega) [load_addr, hcontext, view_store, Function.update_apply, load_guest hguest']
  · simp [State.set, State.ea, hgs, hrsp]
    simp (disch := omega) [load_addr, hcontext, view_store, Function.update_apply, UInt64.add_assoc]
  · simp [State.set, State.ea, hgs, hrsp]
    simp (disch := omega) [load_addr, hcontext, view_store, Function.update_apply, load_guest hguest]
  · intro r hr
    simp only [List.mem_cons, List.not_mem_nil, or_false, not_or] at hr
    simp [State.set, hr]
  · simp [State.set, State.ea, hgs, hrsp]
    simp (disch := omega) [load_addr, hcontext, view_store, Function.update_apply, guestWords]
  · intro a ha
    simp [State.set, State.ea, hgs, hrsp]
    simp (disch := omega) [load_addr, hcontext, view_store, Function.update_apply, load_guest ha]

theorem extcallIn_effect {slot : ℕ} (hslot : slot < 64) (hrax : s.reg .rax = UInt64.ofNat slot)
    (hgs : s.gsBase = w.addr .tib 0) (hcontext : w.view s.mem tibContext = w.addr .context 0)
    (hhost : w.view s.mem fieldHostRsp = w.addr .stack (n + 2)) (hn : n + 3 < w.words .stack) :
    ∃ s', execAll s extcallIn = .ok s' ∧ s'.rip = w.view s.mem (fieldSlot slot) ∧ s'.reg .rsp = w.addr .stack n ∧
      s'.gsBase = s.gsBase ∧ KeepsRegs [.rsp, .r10, .r11] s s' ∧
      w.view s'.mem = Function.update (hostWords w (n + 1) (s.reg .rsp) (w.view s.mem)) (.stack, n) (s.rip + 0x42) ∧
      ∀ a, w.GuestWord a → load s'.mem a = load s.mem a := by
  have hc := w.context_words
  have ht := w.tib_words
  have hcontext : w.view s.mem (.tib, 3) = w.addr .context 0 := hcontext
  have hhost : w.view s.mem (.context, 1) = w.addr .stack (n + 2) := hhost
  have haddr : w.addr .context 0 + UInt64.ofNat slot * 8 + 0x38 = w.addr .context (slot + 7) := by
    rw [UInt64.add_assoc, ← Nat.zero_add (slot + 7), ← addr_add]
    congr 1
    rw [Nat.mul_add, UInt64.ofNat_add, UInt64.ofNat_mul, UInt64.mul_comm]
    rfl
  refine ⟨_, rfl, ?_, ?_, rfl, ?_, ?_, ?_⟩
  · simp [State.set, State.pushed, State.ea, hgs, hrax]
    simp (disch := omega) [load_addr, hcontext, view_store, Function.update_apply, hhost, haddr]
  · simp [State.set, State.pushed, State.ea, hgs]
    simp (disch := omega) [load_addr, hcontext, view_store, Function.update_apply, hhost]
  · intro r hr
    simp only [List.mem_cons, List.not_mem_nil, or_false, not_or] at hr
    simp [State.set, State.pushed, hr]
  · simp [State.set, State.pushed, State.ea, hgs]
    simp (disch := omega) [load_addr, hcontext, view_store, Function.update_apply, hhost, hostWords, UInt64.add_assoc]
  · intro a ha
    simp [State.set, State.pushed, State.ea, hgs]
    simp (disch := omega) [load_addr, hcontext, view_store, Function.update_apply, hhost, load_guest ha]

theorem extcallOut_effect (hgs : s.gsBase = w.addr .tib 0) (hrsp : s.reg .rsp = w.addr .stack n)
    (hcontext : w.view s.mem (.stack, n) = w.addr .context 0) (hn : n < w.words .stack)
    (hguest : w.GuestWord (w.view s.mem fieldGuestRsp)) :
    ∃ s', execAll s extcallOut = .ok s' ∧ s'.rip = load s.mem (w.view s.mem fieldGuestRsp) ∧
      s'.reg .rsp = w.view s.mem fieldGuestRsp + 8 ∧ s'.gsBase = s.gsBase ∧ KeepsRegs [.rsp, .r10] s s' ∧
      w.view s'.mem = guestWords w (w.view s.mem) := by
  have hc := w.context_words
  have ht := w.tib_words
  have hguest : w.GuestWord (w.view s.mem (.context, 2)) := hguest
  refine ⟨_, rfl, ?_, ?_, rfl, ?_, ?_⟩
  · simp [State.set, State.ea, hgs, hrsp]
    simp (disch := omega) [load_addr, hcontext, view_store, Function.update_apply, load_guest hguest]
  · simp [State.set, State.ea, hgs, hrsp]
    simp (disch := omega) [load_addr, hcontext, view_store, Function.update_apply]
  · intro r hr
    simp only [List.mem_cons, List.not_mem_nil, or_false, not_or] at hr
    simp [State.set, hr]
  · simp [State.set, State.ea, hgs, hrsp]
    simp (disch := omega) [load_addr, hcontext, view_store, Function.update_apply, guestWords]

end Blocks

section Routines

variable {w : Wiring} {s : State} {n : ℕ}

def callStacks (v : Part × ℕ → UInt64) : Part × ℕ → UInt64 := if v fieldHostRsp = 0 then v else swapStacks v

theorem leave_implCall (h : w.Ready (n + 2) s) (hrip : s.rip = mbOrg + 0x227) (hentry : interopCode (s.reg .r11) = [])
    (hguest : w.GuestWord (w.view s.mem fieldGuestRsp - 8)) (fuel : ℕ) :
    ∃ s', leave interopCode (fuel + 13) s = .ok s' ∧ s'.rip = s.reg .r11 ∧
      s'.reg .rsp = w.view s.mem fieldGuestRsp - 8 ∧ s'.gsBase = s.gsBase ∧ KeepsRegs [.rax, .rsp] s s' ∧
      w.view s'.mem = enterWords w n (w.view s.mem) ∧ load s'.mem (s'.reg .rsp) = mbOrg + 0x268 := by
  obtain ⟨s', hexec, hrip', hrsp, hgs, hkeep, hview, hret⟩ := implCall_effect h hguest
  refine ⟨s', ?_, hrip', hrsp, hgs, hkeep, hview, ?_⟩
  · have hrun := leave_block (lists_at hrip (by simp [listings])) (by decide) hexec (fuel + 1)
    rw [leave_out (by rw [hrip']; exact hentry)] at hrun
    exact hrun
  · rw [hret, hrip]
    rfl

def simply (s : State) : State :=
  { (s.set .r11 (s.reg .rdi)).set .r10 (s.reg .rsi) with rip := mbOrg + 0x200 }

theorem leave_callGuestSimple (hrip : s.rip = mbOrg + 0x100) (fuel : ℕ) :
    leave interopCode (fuel + 3) s = leave interopCode fuel (simply s) := by
  have hexec : execAll s callGuestSimple = .ok (simply s) := by
    simp only [callGuestSimple, execAll, exec, ok_bind, State.set, simply, hrip]
    rfl
  exact leave_block (lists_at hrip (by simp [listings])) (by decide) hexec fuel

theorem enterGuest (h : w.Ready (n + 2) s) (hrip : s.rip = mbOrg + 0x200) (hentry : interopCode (s.reg .r11) = [])
    (hdepth : w.view s.mem fieldHostRsp = 0 ∨ w.view s.mem fieldHostRspAlt = 0)
    (hguest : w.GuestWord (callStacks (w.view s.mem) fieldGuestRsp - 8)) :
    ∃ s', leave interopCode 64 s = .ok s' ∧ s'.rip = s.reg .r11 ∧
      s'.reg .rsp = callStacks (w.view s.mem) fieldGuestRsp - 8 ∧ s'.gsBase = s.gsBase ∧ KeepsRegs [.rax, .rsp] s s' ∧
      w.view s'.mem = enterWords w n (callStacks (w.view s.mem)) ∧ load s'.mem (s'.reg .rsp) = mbOrg + 0x268 := by
  obtain ⟨s₁, hexec₁, hready₁, hrip₁, hkeep₁, hmem₁⟩ := test_effect (addr_8 Part.context 0) (by decide) h
  have hrun₁ := leave_block (lists_at (l := implTest) hrip (by simp [listings])) (by decide) hexec₁ 61
  have hr11 : ∀ t, KeepsRegs [.rax] s t → t.reg .r11 = s.reg .r11 := fun t ht => ht .r11 (by decide)
  unfold callStacks at hguest ⊢
  by_cases hidle : w.view s.mem fieldHostRsp = 0
  · rw [if_pos hidle] at hguest ⊢
    have hrip₁ : s₁.rip = mbOrg + 0x227 := by
      rw [hrip₁.trans (if_pos hidle), hrip]
      rfl
    obtain ⟨s', hrun, hrip', hrsp, hgs, hkeep, hview, hret⟩ := leave_implCall hready₁ hrip₁
      (by rw [hr11 s₁ hkeep₁]; exact hentry) (by rw [hmem₁]; exact hguest) 48
    rw [hmem₁] at hrsp hview
    refine ⟨s', hrun₁.trans hrun, hrip'.trans (hr11 s₁ hkeep₁), hrsp, ?_, ?_, hview, hret⟩
    · rw [hgs, hready₁.gs, h.gs]
    · exact (hkeep₁.mono (by decide)).trans hkeep fun r hr => hr
  · rw [if_neg hidle] at hguest ⊢
    have hrip₁ : s₁.rip = mbOrg + 0x209 := by
      rw [hrip₁.trans (if_neg hidle), hrip]
      rfl
    obtain ⟨s₂, hexec₂, hready₂, hrip₂, hkeep₂, hmem₂⟩ := test_effect (addr_18 Part.context 0) (by decide) hready₁
    have hrun₂ := leave_block (lists_at (l := implTestAlt) hrip₁ (by simp [listings])) (by decide) hexec₂ 58
    have halt : w.view s₁.mem (.context, 3) = 0 := by
      rw [hmem₁]
      exact hdepth.resolve_left hidle
    have hrip₂ : s₂.rip = mbOrg + 0x213 := by
      rw [hrip₂, if_pos halt, hrip₁]
      rfl
    obtain ⟨s₃, hexec₃, hready₃, hrip₃, hkeep₃, hview₃⟩ := implSwap_effect hready₂
    have hrun₃ := leave_block (lists_at hrip₂ (by simp [listings])) (by decide) hexec₃ 53
    have hrip₃ : s₃.rip = mbOrg + 0x227 := by
      rw [hrip₃, hrip₂]
      rfl
    have hkeep : KeepsRegs [.rax] s s₃ := (hkeep₁.trans hkeep₂ fun r hr => hr).trans hkeep₃ fun r hr => hr
    rw [hmem₂, hmem₁] at hview₃
    obtain ⟨s', hrun, hrip', hrsp, hgs, hkeep', hview, hret⟩ := leave_implCall hready₃ hrip₃
      (by rw [hr11 s₃ hkeep]; exact hentry) (by rw [hview₃]; exact hguest) 40
    rw [hview₃] at hrsp hview
    refine ⟨s', hrun₁.trans (hrun₂.trans (hrun₃.trans hrun)), hrip'.trans (hr11 s₃ hkeep), hrsp, ?_, ?_, hview, hret⟩
    · rw [hgs, hready₃.gs, h.gs]
    · exact (hkeep.mono (by decide)).trans hkeep' fun r hr => hr

theorem enterGuest_traps (h : w.Ready n s) (hrip : s.rip = mbOrg + 0x200)
    (hhost : w.view s.mem fieldHostRsp ≠ 0) (halt : w.view s.mem fieldHostRspAlt ≠ 0) :
    leave interopCode 64 s = .error .trap := by
  obtain ⟨s₁, hexec₁, hready₁, hrip₁, hkeep₁, hmem₁⟩ := test_effect (addr_8 Part.context 0) (by decide) h
  have hrun₁ := leave_block (lists_at (l := implTest) hrip (by simp [listings])) (by decide) hexec₁ 61
  have hrip₁ : s₁.rip = mbOrg + 0x209 := by
    rw [hrip₁.trans (if_neg hhost), hrip]
    rfl
  obtain ⟨s₂, hexec₂, hready₂, hrip₂, hkeep₂, hmem₂⟩ := test_effect (addr_18 Part.context 0) (by decide) hready₁
  have hrun₂ := leave_block (lists_at (l := implTestAlt) hrip₁ (by simp [listings])) (by decide) hexec₂ 58
  have halt : w.view s₁.mem (.context, 3) ≠ 0 := by
    rw [hmem₁]
    exact halt
  have hrip₂ : s₂.rip = mbOrg + 0x212 := by
    rw [hrip₂, if_neg halt, hrip₁]
    rfl
  have hrun₃ := leave_instr (lists_at (l := [(.int3, 1)]) hrip₂ (by simp [listings])).1 57
  exact hrun₁.trans (hrun₂.trans hrun₃)

def returnWords (n : ℕ) (rsp : UInt64) (v : Part × ℕ → UInt64) : Part × ℕ → UInt64 :=
  leaveWords n (if v fieldHostRspAlt = 0 then backWords rsp v else unswapStacks (backWords rsp v))

theorem leaveGuest (hrip : s.rip = mbOrg + 0x268) (hgs : s.gsBase = w.addr .tib 0)
    (hcontext : w.view s.mem tibContext = w.addr .context 0) (hhost : w.view s.mem fieldHostRsp = w.addr .stack n)
    (hn : n + 2 < w.words .stack) (hret : interopCode (w.view s.mem (.stack, n + 2)) = []) :
    ∃ s', leave interopCode 64 s = .ok s' ∧ s'.rip = w.view s.mem (.stack, n + 2) ∧ s'.reg .rsp = w.addr .stack (n + 3) ∧
      s'.gsBase = s.gsBase ∧ KeepsRegs [.rsp, .r10, .r11] s s' ∧
      w.view s'.mem = returnWords n (s.reg .rsp) (w.view s.mem) := by
  obtain ⟨s₁, hexec₁, hready₁, hrip₁, hr11₁, hkeep₁, hview₁⟩ := implBack_effect hgs hcontext hhost (by omega)
  have hrun₁ := leave_block (lists_at hrip (by simp [listings])) (by decide) hexec₁ 55
  -- the rest of the routine, from the state in which the stacks are those of the caller
  have hlast : ∀ t fuel, w.Ready n t → t.rip = mbOrg + 0x2af → w.view t.mem (.stack, n + 2) = w.view s.mem (.stack, n + 2) →
      ∃ s', leave interopCode (fuel + 6) t = .ok s' ∧ s'.rip = w.view s.mem (.stack, n + 2) ∧
        s'.reg .rsp = w.addr .stack (n + 3) ∧ s'.gsBase = w.addr .tib 0 ∧ KeepsRegs [.rsp, .r10, .r11] t s' ∧
        w.view s'.mem = leaveWords n (w.view t.mem) := by
    intro t fuel hready htrip hsame
    obtain ⟨s', hexec, hrip', hrsp, hgs', hkeep, hview⟩ := implRet_effect hready hn
    have hrun := leave_block (lists_at htrip (by simp [listings])) (by decide) hexec (fuel + 1)
    rw [hsame] at hrip'
    rw [leave_out (by rw [hrip']; exact hret)] at hrun
    exact ⟨s', hrun, hrip', hrsp, hgs'.trans hready.gs, hkeep.mono (by decide), hview⟩
  unfold returnWords
  rw [hgs]
  by_cases halt : w.view s.mem fieldHostRspAlt = 0
  · rw [if_pos halt]
    have hrip₁ : s₁.rip = mbOrg + 0x2af := by
      rw [hrip₁, if_pos halt, hrip]
      rfl
    obtain ⟨s', hrun, hrip', hrsp, hgs', hkeep, hview⟩ := hlast s₁ 49 hready₁ hrip₁ (by
      rw [hview₁]
      simp [backWords])
    rw [hview₁] at hview
    exact ⟨s', hrun₁.trans hrun, hrip', hrsp, hgs', (hkeep₁.mono (by decide)).trans hkeep fun r hr => hr, hview⟩
  · rw [if_neg halt]
    have hrip₁ : s₁.rip = mbOrg + 0x295 := by
      rw [hrip₁, if_neg halt, hrip]
      rfl
    obtain ⟨s₂, hexec₂, hready₂, hrip₂, hkeep₂, hview₂⟩ := implUnswap_effect hready₁ (by
      rw [hr11₁, hview₁]
      simp [backWords])
    have hrun₂ := leave_block (lists_at hrip₁ (by simp [listings])) (by decide) hexec₂ 49
    have hrip₂ : s₂.rip = mbOrg + 0x2af := by
      rw [hrip₂, hrip₁]
      rfl
    rw [hview₁] at hview₂
    obtain ⟨s', hrun, hrip', hrsp, hgs', hkeep, hview⟩ := hlast s₂ 43 hready₂ hrip₂ (by
      rw [hview₂]
      simp [unswapStacks, backWords])
    rw [hview₂] at hview
    refine ⟨s', hrun₁.trans (hrun₂.trans hrun), hrip', hrsp, hgs', ?_, hview⟩
    exact ((hkeep₁.mono (by decide)).trans hkeep₂ (by decide)).trans hkeep fun r hr => hr

theorem enterDispatch (hrip : s.rip = mbOrg + 0x80) (hgs : s.gsBase = w.addr .tib 0)
    (hcontext : w.view s.mem tibContext = w.addr .context 0) (hhost : w.view s.mem fieldHostRsp = w.addr .stack (n + 4))
    (hn : n + 5 < w.words .stack) (hguest : w.GuestWord (s.reg .rsp - 8))
    (hdispatch : interopCode (w.view s.mem fieldDispatch) = []) :
    ∃ s', leave interopCode 64 s = .ok s' ∧ s'.rip = w.view s.mem fieldDispatch ∧ s'.reg .rsp = w.addr .stack n ∧
      s'.gsBase = s.gsBase ∧ KeepsRegs [.rax, .rsp, .r10, .r11] s s' ∧
      w.view s'.mem = Function.update (Function.update (Function.update
        (hostWords w (n + 3) (s.reg .rsp - 8) (w.view s.mem)) (.stack, n + 2) (w.view s.mem fieldHostPtr))
        (.stack, n + 1) (s.reg .rax)) (.stack, n) (mbOrg + 0xc8) ∧
      load s'.mem (s.reg .rsp - 8) = s.reg .rbp ∧
      ∀ a, w.GuestWord a → WordsApart a (s.reg .rsp - 8) → load s'.mem a = load s.mem a := by
  obtain ⟨s', hexec, hrip', hrsp, hgs', hkeep, hview, hrbp⟩ := syscallIn_effect hgs hcontext hhost hn hguest
  have hrun := leave_block (lists_at hrip (by simp [listings])) (by decide) hexec 48
  have hout : leave interopCode 48 s' = .ok s' := leave_out (by rw [hrip']; exact hdispatch) 47
  rw [hrip] at hview
  exact ⟨s', hrun.trans hout, hrip', hrsp, hgs', hkeep, hview, hrbp⟩

theorem leaveDispatch (hrip : s.rip = mbOrg + 0xc8) (hgs : s.gsBase = w.addr .tib 0)
    (hrsp : s.reg .rsp = w.addr .stack (n + 1)) (hcontext : w.view s.mem (.stack, n + 3) = w.addr .context 0)
    (hn : n + 3 < w.words .stack) (hguest : w.GuestWord (w.view s.mem fieldGuestRsp))
    (hguest' : w.GuestWord (w.view s.mem fieldGuestRsp + 8))
    (hret : interopCode (load s.mem (w.view s.mem fieldGuestRsp + 8)) = []) :
    ∃ s', leave interopCode 64 s = .ok s' ∧ s'.rip = load s.mem (w.view s.mem fieldGuestRsp + 8) ∧
      s'.reg .rsp = w.view s.mem fieldGuestRsp + 0x10 ∧ s'.reg .rbp = load s.mem (w.view s.mem fieldGuestRsp) ∧
      s'.gsBase = s.gsBase ∧ KeepsRegs [.rsp, .rbp, .r10] s s' ∧ w.view s'.mem = guestWords w (w.view s.mem) ∧
      ∀ a, w.GuestWord a → load s'.mem a = load s.mem a := by
  obtain ⟨s', hexec, hrip', hrest⟩ := syscallOut_effect hgs hrsp hcontext hn hguest hguest'
  have hrun := leave_block (lists_at hrip (by simp [listings])) (by decide) hexec 55
  have hout : leave interopCode 55 s' = .ok s' := leave_out (by rw [hrip']; exact hret) 54
  exact ⟨s', hrun.trans hout, hrip', hrest⟩

def getCallbackPtr (slot : UInt64) : UInt64 := mbOrg + 0x300 + slot * 16

theorem enterCallback {slot : ℕ} (hslot : slot < 64) (hrip : s.rip = getCallbackPtr (UInt64.ofNat slot))
    (hgs : s.gsBase = w.addr .tib 0) (hcontext : w.view s.mem tibContext = w.addr .context 0)
    (hhost : w.view s.mem fieldHostRsp = w.addr .stack (n + 2)) (hn : n + 3 < w.words .stack)
    (hcallback : interopCode (w.view s.mem (fieldSlot slot)) = []) :
    ∃ s', leave interopCode 64 s = .ok s' ∧ s'.rip = w.view s.mem (fieldSlot slot) ∧ s'.reg .rsp = w.addr .stack n ∧
      s'.gsBase = s.gsBase ∧ KeepsRegs [.rax, .rsp, .r10, .r11] s s' ∧
      w.view s'.mem =
        Function.update (hostWords w (n + 1) (s.reg .rsp) (w.view s.mem)) (.stack, n) (mbOrg + 0x742) ∧
      ∀ a, w.GuestWord a → load s'.mem a = load s.mem a := by
  have hlist := lists_extcallThunk slot hslot
  have hstart : mbOrg + 0x300 + UInt64.ofNat (16 * slot) = s.rip := by
    rw [hrip, getCallbackPtr, UInt64.ofNat_mul, UInt64.mul_comm]
    rfl
  rw [hstart] at hlist
  obtain ⟨s₁, hexec₁, hrip₁, hrax₁, hkeep₁, hgs₁, hmem₁⟩ : ∃ s₁, execAll s (extcallThunk slot) = .ok s₁ ∧
      s₁.rip = mbOrg + 0x700 ∧ s₁.reg .rax = UInt64.ofNat slot ∧ KeepsRegs [.rax] s s₁ ∧ s₁.gsBase = s.gsBase ∧
      s₁.mem = s.mem := by
    have hjump : ∀ i < 64, mbOrg + 0x300 + UInt64.ofNat (16 * i) + 5 +
        (if i < 56 then 5 + UInt64.ofNat (0x3f6 - 16 * i) else 2 + UInt64.ofNat (0x3f9 - 16 * i)) = mbOrg + 0x700 := by
      decide +kernel
    have hjump := hjump slot hslot
    rw [hstart] at hjump
    have hkeep : ∀ r, r ∉ [Reg.rax] → Function.update s.reg .rax (UInt64.ofNat slot) r = s.reg r := by
      intro r hr
      rw [List.mem_singleton] at hr
      exact Function.update_of_ne hr _ _
    have hrax : Function.update s.reg .rax (UInt64.ofNat slot) .rax = UInt64.ofNat slot := Function.update_self _ _ _
    unfold extcallThunk
    by_cases hs : slot < 56
    · rw [if_pos hs, ← UInt64.add_assoc] at hjump
      rw [if_pos hs]
      exact ⟨_, rfl, hjump, hrax, hkeep, rfl, rfl⟩
    · rw [if_neg hs, ← UInt64.add_assoc] at hjump
      rw [if_neg hs]
      exact ⟨_, rfl, hjump, hrax, hkeep, rfl, rfl⟩
  have hrun₁ := leave_block hlist (by
    intro u hu
    rw [extcallThunk, List.dropLast_cons_cons, List.dropLast_singleton, List.mem_singleton] at hu
    rw [hu]
    rfl) hexec₁ 62
  rw [← hgs₁] at hgs
  rw [← hmem₁] at hcontext hhost hcallback ⊢
  obtain ⟨s', hexec, hrip', hrsp, hgs', hkeep, hview, hload⟩ := extcallIn_effect hslot hrax₁ hgs hcontext hhost hn
  have hrun := leave_block (lists_at hrip₁ (by simp [listings])) (by decide) hexec 50
  have hout : leave interopCode 50 s' = .ok s' := leave_out (by rw [hrip']; exact hcallback) 49
  have hrspKeep : s₁.reg .rsp = s.reg .rsp := hkeep₁ .rsp (by decide)
  rw [hrip₁, hrspKeep] at hview
  refine ⟨s', hrun₁.trans (hrun.trans hout), hrip', hrsp, hgs'.trans hgs₁, ?_, hview, hload⟩
  exact (hkeep₁.mono (by decide)).trans hkeep (by decide)

theorem leaveCallback (hrip : s.rip = mbOrg + 0x742) (hgs : s.gsBase = w.addr .tib 0)
    (hrsp : s.reg .rsp = w.addr .stack n) (hcontext : w.view s.mem (.stack, n) = w.addr .context 0)
    (hn : n < w.words .stack) (hguest : w.GuestWord (w.view s.mem fieldGuestRsp))
    (hret : interopCode (load s.mem (w.view s.mem fieldGuestRsp)) = []) :
    ∃ s', leave interopCode 64 s = .ok s' ∧ s'.rip = load s.mem (w.view s.mem fieldGuestRsp) ∧
      s'.reg .rsp = w.view s.mem fieldGuestRsp + 8 ∧ s'.gsBase = s.gsBase ∧ KeepsRegs [.rsp, .r10] s s' ∧
      w.view s'.mem = guestWords w (w.view s.mem) := by
  obtain ⟨s', hexec, hrip', hrest⟩ := extcallOut_effect hgs hrsp hcontext hn hguest
  have hrun := leave_block (lists_at hrip (by simp [listings])) (by decide) hexec 56
  have hout : leave interopCode 56 s' = .ok s' := leave_out (by rw [hrip']; exact hret) 55
  exact ⟨s', hrun.trans hout, hrip', hrest⟩

end Routines

end MiniBox
