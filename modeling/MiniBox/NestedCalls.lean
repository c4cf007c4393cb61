import MiniBox.Transitions

/-!
Calls between host and guest, one inside the other. The host calls a guest entry, the guest calls the dispatcher
and the callbacks of the host, and these call the guest again. What guest and host code do themselves is left
open: a guest changes guest memory only, and a host function leaves the stacks of its callers alone.
-/

namespace MiniBox

open WordMemory WordMemory.Regions X86

structure Kept (k : ℕ) (v v' : Part × ℕ → UInt64) : Prop where
  hostRsp : v' fieldHostRsp = v fieldHostRsp
  hostRspAlt : v' fieldHostRspAlt = v fieldHostRspAlt
  guestRspAlt : v' fieldGuestRspAlt = v fieldGuestRspAlt
  stack : ∀ j, k ≤ j → v' (.stack, j) = v (.stack, j)

theorem Kept.trans {k k' : ℕ} {v v' v'' : Part × ℕ → UInt64} (h : Kept k v v') (h' : Kept k' v' v'') (hk : k' ≤ k) :
    Kept k v v'' :=
  ⟨h'.hostRsp.trans h.hostRsp, h'.hostRspAlt.trans h.hostRspAlt, h'.guestRspAlt.trans h.guestRspAlt,
    fun j hj => (h'.stack j (hk.trans hj)).trans (h.stack j hj)⟩

theorem Kept.update_stack {k j : ℕ} {v v' : Part × ℕ → UInt64} (h : Kept k v v') (hj : j < k) (x : UInt64) :
    Kept k v (Function.update v' (.stack, j) x) := by
  refine ⟨by simpa using h.hostRsp, by simpa using h.hostRspAlt, by simpa using h.guestRspAlt, ?_⟩
  intro i hi
  have hne : i ≠ j := by omega
  simpa [hne] using h.stack i hi

namespace Wiring

variable (w : Wiring)

structure GuestMoves (s s' : State) : Prop where
  gs : s'.gsBase = s.gsBase
  mem : ∀ x : UInt64, ¬ (w.guest.start.toNat ≤ x.toNat ∧ x.toNat < w.guest.start.toNat + w.guest.size.toNat) →
    s'.mem x = s.mem x

structure HostMoves (k : ℕ) (s s' : State) : Prop where
  gs : s'.gsBase = s.gsBase
  kept : Kept k (w.view s.mem) (w.view s'.mem)

/-- Who runs: a call of the guest from the host stack, the guest until it returns with its stack at `top`, or a
host function until it returns to `ret`. -/
inductive Mode
  | callIn (n : ℕ)
  | guest (n : ℕ) (top : UInt64)
  | host (entry keep : ℕ) (ret : UInt64)

inductive Runs : Mode → State → State → Prop
  | callIn {n : ℕ} {s s₁ s₂ s' : State} :
      w.Ready (n + 6) s → s.rip = mbOrg + 0x200 → interopCode (s.reg .r11) = [] →
      interopCode (w.view s.mem (.stack, n + 6)) = [] →
      w.GuestWord (callStacks (w.view s.mem) fieldGuestRsp - 8) → leave interopCode 64 s = .ok s₁ →
      Runs (.guest n (s₁.reg .rsp + 8)) s₁ s₂ → leave interopCode 64 s₂ = .ok s' → Runs (.callIn n) s s'
  | returns {n : ℕ} {top : UInt64} {s s' : State} :
      w.GuestMoves s s' → s'.rip = mbOrg + 0x268 → s'.reg .rsp = top → Runs (.guest n top) s s'
  | syscall {n : ℕ} {top : UInt64} {s s₁ s₂ s₃ s₄ s' : State} :
      w.GuestMoves s s₁ → s₁.rip = mbOrg + 0x80 → w.GuestWord (s₁.reg .rsp - 8) →
      interopCode (w.view s₁.mem fieldDispatch) = [] → leave interopCode 64 s₁ = .ok s₂ →
      Runs (.host n (n + 3) (mbOrg + 0xc8)) s₂ s₃ → w.GuestWord (w.view s₃.mem fieldGuestRsp) →
      w.GuestWord (w.view s₃.mem fieldGuestRsp + 8) →
      interopCode (load s₃.mem (w.view s₃.mem fieldGuestRsp + 8)) = [] → leave interopCode 64 s₃ = .ok s₄ →
      Runs (.guest n top) s₄ s' → Runs (.guest n top) s s'
  | callback {n slot : ℕ} {top : UInt64} {s s₁ s₂ s₃ s₄ s' : State} :
      w.GuestMoves s s₁ → slot < 64 → s₁.rip = getCallbackPtr (UInt64.ofNat slot) →
      interopCode (w.view s₁.mem (fieldSlot slot)) = [] → leave interopCode 64 s₁ = .ok s₂ →
      Runs (.host (n + 2) (n + 3) (mbOrg + 0x742)) s₂ s₃ → w.GuestWord (w.view s₃.mem fieldGuestRsp) →
      interopCode (load s₃.mem (w.view s₃.mem fieldGuestRsp)) = [] → leave interopCode 64 s₃ = .ok s₄ →
      Runs (.guest n top) s₄ s' → Runs (.guest n top) s s'
  | hostReturns {entry keep : ℕ} {ret : UInt64} {s s' : State} :
      w.HostMoves keep s s' → s'.rip = ret → s'.reg .rsp = w.addr .stack (entry + 1) → Runs (.host entry keep ret) s s'
  | hostCalls {entry keep n : ℕ} {ret : UInt64} {s s₁ s₂ s' : State} :
      w.HostMoves keep s s₁ → n + 6 < entry → Runs (.callIn n) s₁ s₂ → Runs (.host entry keep ret) s₂ s' →
      Runs (.host entry keep ret) s s'

def InOrder (v : Part × ℕ → UInt64) : Prop := v fieldHostRsp = 0 → v fieldHostRspAlt = 0

def Pre : Mode → State → Prop
  | .callIn _, s => InOrder (w.view s.mem)
  | .guest n _, s => s.gsBase = w.addr .tib 0 ∧ w.view s.mem tibContext = w.addr .context 0 ∧
      w.view s.mem fieldHostRsp = w.addr .stack (n + 4) ∧ n + 6 < w.words .stack
  | .host entry keep _, s => s.gsBase = w.addr .tib 0 ∧ entry ≤ keep ∧ InOrder (w.view s.mem)

structure CallReturned (n : ℕ) (s s' : State) : Prop where
  rip : s'.rip = w.view s.mem (.stack, n + 6)
  rsp : s'.reg .rsp = w.addr .stack (n + 7)
  gs : s'.gsBase = s.gsBase
  kept : Kept (n + 6) (w.view s.mem) (w.view s'.mem)
  guestRsp : w.view s'.mem fieldGuestRsp = w.view s.mem fieldGuestRsp
  base : w.view s'.mem tibBase = w.view s.mem tibBase
  limit : w.view s'.mem tibLimit = w.view s.mem tibLimit
  context : w.view s'.mem tibContext = 0

structure HostEntered (n entry : ℕ) (back g : UInt64) (s s' : State) : Prop where
  rsp : s'.reg .rsp = w.addr .stack entry
  ret : w.view s'.mem (.stack, entry) = back
  regs : KeepsRegs [.rax, .rsp, .r10, .r11] s s'
  guestRsp : w.view s'.mem fieldGuestRsp = g
  limit : w.view s'.mem tibLimit = w.view s.mem (.stack, n + 4)
  base : w.view s'.mem tibBase = w.view s.mem (.stack, n + 5)
  context : w.view s'.mem tibContext = 0
  gs : s'.gsBase = s.gsBase
  kept : Kept (n + 4) (w.view s.mem) (w.view s'.mem)
  mark : w.view s'.mem (.stack, n + 3) = w.addr .context 0

structure GuestResumed (s s' : State) : Prop where
  base : w.view s'.mem tibBase = 0 - 1
  limit : w.view s'.mem tibLimit = 0
  context : w.view s'.mem tibContext = w.addr .context 0
  gs : s'.gsBase = s.gsBase
  kept : Kept 0 (w.view s.mem) (w.view s'.mem)

def Post : Mode → State → State → Prop
  | .callIn n, s, s' => w.CallReturned n s s'
  | .guest n top, s, s' => s'.gsBase = s.gsBase ∧ Kept (n + 4) (w.view s.mem) (w.view s'.mem) ∧
      w.view s'.mem tibContext = w.addr .context 0 ∧ s'.rip = mbOrg + 0x268 ∧ s'.reg .rsp = top
  | .host entry keep ret, s, s' => s'.gsBase = s.gsBase ∧ Kept keep (w.view s.mem) (w.view s'.mem) ∧ s'.rip = ret ∧
      s'.reg .rsp = w.addr .stack (entry + 1)

variable {w} {n : ℕ} {s s₁ s₂ s' : State}

theorem GuestMoves.view (h : w.GuestMoves s s') : w.view s'.mem = w.view s.mem := by
  apply view_congr
  intro p x h1 h2
  apply h.mem
  rcases w.guest_apart p with hp | hp
  · omega
  · omega

theorem InOrder.kept {k : ℕ} {v v' : Part × ℕ → UInt64} (h : InOrder v) (hk : Kept k v v') : InOrder v' := by
  intro h0
  rw [hk.hostRspAlt]
  apply h
  rw [← hk.hostRsp]
  exact h0

theorem inOrder_of_frame {k : ℕ} {v : Part × ℕ → UInt64} (h : v fieldHostRsp = w.addr .stack k)
    (hk : k < w.words .stack) : InOrder v := by
  intro h0
  exact absurd (h.symm.trans h0) (addr_stack_ne_zero hk)

theorem kept_hostWords (n : ℕ) (rsp : UInt64) (v : Part × ℕ → UInt64) : Kept (n + 1) v (hostWords w n rsp v) := by
  refine ⟨by simp [hostWords], by simp [hostWords], by simp [hostWords], ?_⟩
  intro j hj
  have hne : j ≠ n := by omega
  simp [hostWords, hne]

theorem kept_guestWords (k : ℕ) (v : Part × ℕ → UInt64) : Kept k v (guestWords w v) :=
  ⟨by simp [guestWords], by simp [guestWords], by simp [guestWords], fun j _ => by simp [guestWords]⟩

theorem returnWords_spec {v v' : Part × ℕ → UInt64} (horder : InOrder v) (hdepth : v fieldHostRsp = 0 ∨ v fieldHostRspAlt = 0)
    (hkept : Kept n (enterWords w n (callStacks v)) v') :
    let u := returnWords n (callStacks v fieldGuestRsp) v'
    Kept (n + 2) v u ∧ u fieldGuestRsp = v fieldGuestRsp ∧ u tibBase = v tibBase ∧ u tibLimit = v tibLimit ∧
      u tibContext = 0 := by
  obtain ⟨hhost, halt, hguestAlt, hstack⟩ := hkept
  have h0 := hstack n le_rfl
  have h1 := hstack (n + 1) (by omega)
  have hrest : ∀ j, n + 2 ≤ j → v' (.stack, j) = v (.stack, j) := by
    intro j hj
    rw [hstack j (by omega)]
    have hne : j ≠ n := by omega
    have hne' : j ≠ n + 1 := by omega
    unfold enterWords callStacks
    split <;> simp [hne, hne', swapStacks]
  by_cases hidle : v fieldHostRsp = 0
  · have hzero := horder hidle
    simp only [callStacks, hidle, if_true] at halt hguestAlt h0 h1 ⊢
    simp [enterWords] at halt hguestAlt h0 h1 hidle hzero
    rw [hzero] at halt
    refine ⟨⟨?_, ?_, ?_, ?_⟩, ?_, ?_, ?_, ?_⟩
    all_goals simp +contextual [returnWords, leaveWords, backWords, halt, hguestAlt, h0, h1, hidle, hzero, hrest]
  · have hzero := hdepth.resolve_left hidle
    simp only [callStacks, hidle, if_false] at halt hguestAlt h0 h1 ⊢
    simp [enterWords, swapStacks] at halt hguestAlt h0 h1 hidle hzero
    refine ⟨⟨?_, ?_, ?_, ?_⟩, ?_, ?_, ?_, ?_⟩
    all_goals simp +contextual [returnWords, leaveWords, unswapStacks, backWords, swapStacks, halt, hguestAlt, h0, h1,
      hidle, hzero, hrest]

theorem callIn_step (hready : w.Ready (n + 6) s) (hrip : s.rip = mbOrg + 0x200) (hentry : interopCode (s.reg .r11) = [])
    (hret : interopCode (w.view s.mem (.stack, n + 6)) = []) (horder : InOrder (w.view s.mem))
    (hdepth : w.view s.mem fieldHostRsp = 0 ∨ w.view s.mem fieldHostRspAlt = 0)
    (hguest : w.GuestWord (callStacks (w.view s.mem) fieldGuestRsp - 8)) :
    ∃ s₁, leave interopCode 64 s = .ok s₁ ∧ s₁.rip = s.reg .r11 ∧ KeepsRegs [.rax, .rsp] s s₁ ∧
      load s₁.mem (s₁.reg .rsp) = mbOrg + 0x268 ∧ w.Pre (.guest n (s₁.reg .rsp + 8)) s₁ ∧
      ∀ s₂, w.Post (.guest n (s₁.reg .rsp + 8)) s₁ s₂ →
        ∃ s', leave interopCode 64 s₂ = .ok s' ∧ KeepsRegs [.rsp, .r10, .r11] s₂ s' ∧ w.CallReturned n s s' := by
  obtain ⟨s₁, hin, hrip₁, hrsp₁, hgs₁, hkeep₁, hview₁, hback⟩ := enterGuest (n := n + 4) hready hrip hentry hdepth hguest
  refine ⟨s₁, hin, hrip₁, hkeep₁, hback, ⟨?_, ?_, ?_, hready.room⟩, ?_⟩
  · rw [hgs₁, hready.gs]
  · rw [hview₁]
    simp [enterWords]
  · rw [hview₁]
    simp [enterWords]
  intro s₂ hpost
  obtain ⟨hgs₂, hkept₂, hcontext₂, hrip₂, hrsp₂⟩ := hpost
  rw [hrsp₁, UInt64.sub_add_cancel] at hrsp₂
  rw [hview₁] at hkept₂
  obtain ⟨hkept, hguestRsp, hbase, hlimit, hcontext⟩ := returnWords_spec horder hdepth hkept₂
  have hretWord : w.view s₂.mem (.stack, n + 6) = w.view s.mem (.stack, n + 6) := by
    rw [hkept₂.stack (n + 6) (by omega)]
    unfold enterWords callStacks
    split <;> simp [swapStacks]
  obtain ⟨s', hout, hrip', hrsp', hgs', hkeep', hview'⟩ := leaveGuest (n := n + 4) hrip₂ (by rw [hgs₂, hgs₁, hready.gs])
    hcontext₂ (by rw [hkept₂.hostRsp]; simp [enterWords]) hready.room (by rw [hretWord]; exact hret)
  rw [hrsp₂] at hview'
  rw [← hview'] at hkept hguestRsp hbase hlimit hcontext
  exact ⟨s', hout, hkeep', hrip'.trans hretWord, hrsp', by rw [hgs', hgs₂, hgs₁], hkept, hguestRsp, hbase, hlimit, hcontext⟩

theorem guestResumed (hgs : s'.gsBase = s.gsBase) (hview : w.view s'.mem = guestWords w (w.view s.mem)) :
    w.GuestResumed s s' := by
  refine ⟨?_, ?_, ?_, hgs, ?_⟩
  all_goals rw [hview]
  · simp [guestWords]
  · simp [guestWords]
  · simp [guestWords]
  · exact kept_guestWords 0 _

theorem syscall_step {top : UInt64} (hpre : w.Pre (.guest n top) s) (hrip : s.rip = mbOrg + 0x80)
    (hword : w.GuestWord (s.reg .rsp - 8)) (hdispatch : interopCode (w.view s.mem fieldDispatch) = []) :
    ∃ s₂, leave interopCode 64 s = .ok s₂ ∧ s₂.rip = w.view s.mem fieldDispatch ∧
      w.HostEntered n n (mbOrg + 0xc8) (s.reg .rsp - 8) s s₂ ∧ w.view s₂.mem (.stack, n + 1) = s.reg .rax ∧
      w.view s₂.mem (.stack, n + 2) = w.view s.mem fieldHostPtr ∧ load s₂.mem (s.reg .rsp - 8) = s.reg .rbp ∧
      (∀ a, w.GuestWord a → WordsApart a (s.reg .rsp - 8) → load s₂.mem a = load s.mem a) ∧
      ∀ s₃, w.Post (.host n (n + 3) (mbOrg + 0xc8)) s₂ s₃ → w.GuestWord (w.view s₃.mem fieldGuestRsp) →
        w.GuestWord (w.view s₃.mem fieldGuestRsp + 8) →
        interopCode (load s₃.mem (w.view s₃.mem fieldGuestRsp + 8)) = [] →
        ∃ s₄, leave interopCode 64 s₃ = .ok s₄ ∧ s₄.rip = load s₃.mem (w.view s₃.mem fieldGuestRsp + 8) ∧
          s₄.reg .rsp = w.view s₃.mem fieldGuestRsp + 0x10 ∧ s₄.reg .rbp = load s₃.mem (w.view s₃.mem fieldGuestRsp) ∧
          KeepsRegs [.rsp, .rbp, .r10] s₃ s₄ ∧ w.GuestResumed s₃ s₄ := by
  obtain ⟨hgs, hcontext, hhost, hn⟩ := hpre
  obtain ⟨s₂, hin, hrip₂, hrsp₂, hgs₂, hkeep₂, hview₂, hrbp, hload⟩ := enterDispatch hrip hgs hcontext hhost (by omega)
    hword hdispatch
  have hentered : w.HostEntered n n (mbOrg + 0xc8) (s.reg .rsp - 8) s s₂ := by
    refine ⟨hrsp₂, ?_, hkeep₂, ?_, ?_, ?_, ?_, hgs₂, ?_, ?_⟩
    all_goals rw [hview₂]
    · simp
    · simp [hostWords]
    · simp [hostWords]
    · simp [hostWords]
    · simp [hostWords]
    · exact (((kept_hostWords (n + 3) _ _).update_stack (by omega) _).update_stack (by omega) _).update_stack (by omega) _
    · simp [hostWords]
  refine ⟨s₂, hin, hrip₂, hentered, ?_, ?_, hrbp, hload, ?_⟩
  · rw [hview₂]
    simp
  · rw [hview₂]
    simp
  rintro s₃ ⟨hgs₃, hkept₃, hrip₃, hrsp₃⟩ hguest hguest' hret
  obtain ⟨s₄, hout, hrip₄, hrsp₄, hrbp₄, hgs₄, hkeep₄, hview₄, -⟩ := leaveDispatch hrip₃ (by rw [hgs₃, hgs₂, hgs]) hrsp₃
    (by rw [hkept₃.stack (n + 3) le_rfl, hentered.mark]) (by omega) hguest hguest' hret
  exact ⟨s₄, hout, hrip₄, hrsp₄, hrbp₄, hkeep₄, guestResumed hgs₄ hview₄⟩

theorem callback_step {slot : ℕ} {top : UInt64} (hpre : w.Pre (.guest n top) s) (hslot : slot < 64)
    (hrip : s.rip = getCallbackPtr (UInt64.ofNat slot)) (hcallback : interopCode (w.view s.mem (fieldSlot slot)) = []) :
    ∃ s₂, leave interopCode 64 s = .ok s₂ ∧ s₂.rip = w.view s.mem (fieldSlot slot) ∧
      w.HostEntered n (n + 2) (mbOrg + 0x742) (s.reg .rsp) s s₂ ∧
      (∀ a, w.GuestWord a → load s₂.mem a = load s.mem a) ∧
      ∀ s₃, w.Post (.host (n + 2) (n + 3) (mbOrg + 0x742)) s₂ s₃ → w.GuestWord (w.view s₃.mem fieldGuestRsp) →
        interopCode (load s₃.mem (w.view s₃.mem fieldGuestRsp)) = [] →
        ∃ s₄, leave interopCode 64 s₃ = .ok s₄ ∧ s₄.rip = load s₃.mem (w.view s₃.mem fieldGuestRsp) ∧
          s₄.reg .rsp = w.view s₃.mem fieldGuestRsp + 8 ∧ KeepsRegs [.rsp, .r10] s₃ s₄ ∧ w.GuestResumed s₃ s₄ := by
  obtain ⟨hgs, hcontext, hhost, hn⟩ := hpre
  obtain ⟨s₂, hin, hrip₂, hrsp₂, hgs₂, hkeep₂, hview₂, hload⟩ := enterCallback hslot hrip hgs hcontext hhost (by omega)
    hcallback
  have hentered : w.HostEntered n (n + 2) (mbOrg + 0x742) (s.reg .rsp) s s₂ := by
    refine ⟨hrsp₂, ?_, hkeep₂, ?_, ?_, ?_, ?_, hgs₂, ?_, ?_⟩
    all_goals rw [hview₂]
    · simp
    · simp [hostWords]
    · simp [hostWords]
    · simp [hostWords]
    · simp [hostWords]
    · exact (kept_hostWords (n + 3) _ _).update_stack (by omega) _
    · simp [hostWords]
  refine ⟨s₂, hin, hrip₂, hentered, hload, ?_⟩
  rintro s₃ ⟨hgs₃, hkept₃, hrip₃, hrsp₃⟩ hguest hret
  obtain ⟨s₄, hout, hrip₄, hrsp₄, hgs₄, hkeep₄, hview₄⟩ := leaveCallback hrip₃ (by rw [hgs₃, hgs₂, hgs]) hrsp₃
    (by rw [hkept₃.stack (n + 3) le_rfl, hentered.mark]) (by omega) hguest hret
  exact ⟨s₄, hout, hrip₄, hrsp₄, hkeep₄, guestResumed hgs₄ hview₄⟩

theorem GuestMoves.pre {top : UInt64} (h : w.GuestMoves s s') (hpre : w.Pre (.guest n top) s) :
    w.Pre (.guest n top) s' := by
  obtain ⟨hgs, hcontext, hhost, hn⟩ := hpre
  rw [← h.view] at hcontext hhost
  exact ⟨h.gs.trans hgs, hcontext, hhost, hn⟩

theorem HostEntered.pre {entry : ℕ} {top ret g : UInt64} (h : w.HostEntered n entry ret g s s')
    (hentry : entry ≤ n + 3) (hpre : w.Pre (.guest n top) s) : w.Pre (.host entry (n + 3) ret) s' := by
  obtain ⟨hgs, hcontext, hhost, hn⟩ := hpre
  exact ⟨h.gs.trans hgs, hentry, inOrder_of_frame (h.kept.hostRsp.trans hhost) (by omega)⟩

theorem guest_resumes {entry : ℕ} {top ret g : UInt64} {s₃ s₄ : State} (hpre : w.Pre (.guest n top) s)
    (hmoves : w.GuestMoves s s₁) (hentered : w.HostEntered n entry ret g s₁ s₂)
    (hhost : w.Post (.host entry (n + 3) ret) s₂ s₃) (hresumed : w.GuestResumed s₃ s₄)
    (hrest : w.Pre (.guest n top) s₄ → w.Post (.guest n top) s₄ s') : w.Post (.guest n top) s s' := by
  obtain ⟨hgs, hcontext, hframe, hn⟩ := hpre
  obtain ⟨hgs₃, hkept₃, -⟩ := hhost
  have hkept₄ : Kept (n + 4) (w.view s.mem) (w.view s₄.mem) := by
    rw [← hmoves.view]
    exact (hentered.kept.trans hkept₃ (by omega)).trans hresumed.kept (by omega)
  have hgs₄ : s₄.gsBase = s.gsBase := by rw [hresumed.gs, hgs₃, hentered.gs, hmoves.gs]
  obtain ⟨hgs', hkept', hrest'⟩ := hrest ⟨hgs₄.trans hgs, hresumed.context, hkept₄.hostRsp.trans hframe, hn⟩
  exact ⟨hgs'.trans hgs₄, hkept₄.trans hkept' le_rfl, hrest'⟩

theorem Runs.post {m : Mode} (h : w.Runs m s s') (hpre : w.Pre m s) : w.Post m s s' := by
  induction h with
  | @callIn n s s₁ s₂ s' hready hrip hentry hret hguest hin hrun hout ih =>
    have hdepth : w.view s.mem fieldHostRsp = 0 ∨ w.view s.mem fieldHostRspAlt = 0 := by
      by_contra hcon
      rw [not_or] at hcon
      rw [enterGuest_traps hready hrip hcon.1 hcon.2] at hin
      simp at hin
    obtain ⟨t₁, hin', -, -, -, hpre₁, hafter⟩ := callIn_step hready hrip hentry hret hpre hdepth hguest
    obtain rfl := Except.ok.inj (hin.symm.trans hin')
    obtain ⟨t', hout', -, hreturned⟩ := hafter s₂ (ih hpre₁)
    obtain rfl := Except.ok.inj (hout.symm.trans hout')
    exact hreturned
  | @returns n top s s' hmoves hrip hrsp =>
    refine ⟨hmoves.gs, ?_, ?_, hrip, hrsp⟩
    · rw [hmoves.view]
      exact ⟨rfl, rfl, rfl, fun _ _ => rfl⟩
    · rw [hmoves.view]
      exact hpre.2.1
  | @syscall n top s s₁ s₂ s₃ s₄ s' hmoves hrip hword hdispatch hin hrun hguest hguest' hret hout hrest ih ih' =>
    have hpre₁ := hmoves.pre hpre
    obtain ⟨t₂, hin', -, hentered, -, -, -, -, hafter⟩ := syscall_step hpre₁ hrip hword hdispatch
    obtain rfl := Except.ok.inj (hin.symm.trans hin')
    have hpost := ih (hentered.pre (by omega) hpre₁)
    obtain ⟨t₄, hout', -, -, -, -, hresumed⟩ := hafter s₃ hpost hguest hguest' hret
    obtain rfl := Except.ok.inj (hout.symm.trans hout')
    exact guest_resumes hpre hmoves hentered hpost hresumed ih'
  | @callback n slot top s s₁ s₂ s₃ s₄ s' hmoves hslot hrip hcallback hin hrun hguest hret hout hrest ih ih' =>
    have hpre₁ := hmoves.pre hpre
    obtain ⟨t₂, hin', -, hentered, -, hafter⟩ := callback_step hpre₁ hslot hrip hcallback
    obtain rfl := Except.ok.inj (hin.symm.trans hin')
    have hpost := ih (hentered.pre (by omega) hpre₁)
    obtain ⟨t₄, hout', -, -, -, hresumed⟩ := hafter s₃ hpost hguest hret
    obtain rfl := Except.ok.inj (hout.symm.trans hout')
    exact guest_resumes hpre hmoves hentered hpost hresumed ih'
  | @hostReturns entry keep ret s s' hmoves hrip hrsp => exact ⟨hmoves.gs, hmoves.kept, hrip, hrsp⟩
  | @hostCalls entry keep n ret s s₁ s₂ s' hmoves hn hcall hrest ih ih' =>
    obtain ⟨hgs, hkeep, horder⟩ := hpre
    have hcall := ih (horder.kept hmoves.kept)
    have hkept := hmoves.kept.trans hcall.kept (by omega)
    obtain ⟨hgs', hkept', hrip, hrsp⟩ := ih' ⟨by rw [hcall.gs, hmoves.gs, hgs], hkeep, horder.kept hkept⟩
    exact ⟨by rw [hgs', hcall.gs, hmoves.gs], hkept.trans hkept' le_rfl, hrip, hrsp⟩

theorem exists_moved (s : State) (rip rsp r10 r11 : UInt64) (mem : Memory) : ∃ t : State, t.gsBase = s.gsBase ∧ t.mem = mem ∧
    t.rip = rip ∧ t.reg .rsp = rsp ∧ t.reg .r10 = r10 ∧ t.reg .r11 = r11 :=
  ⟨{ s with rip := rip, mem := mem, reg := fun r => match r with
    | .rsp => rsp
    | .r10 => r10
    | .r11 => r11
    | r => s.reg r }, rfl, rfl, rfl, rfl, rfl, rfl⟩

theorem exists_plain_call (hready : w.Ready (n + 6) s) (hrip : s.rip = mbOrg + 0x200)
    (hentry : interopCode (s.reg .r11) = []) (hret : interopCode (w.view s.mem (.stack, n + 6)) = [])
    (horder : InOrder (w.view s.mem)) (hdepth : w.view s.mem fieldHostRsp = 0 ∨ w.view s.mem fieldHostRspAlt = 0)
    (hguest : w.GuestWord (callStacks (w.view s.mem) fieldGuestRsp - 8)) :
    ∃ s', w.Runs (.callIn n) s s' ∧ w.CallReturned n s s' := by
  obtain ⟨s₁, hin, -, -, -, hpre, hafter⟩ := callIn_step hready hrip hentry hret horder hdepth hguest
  -- the guest returns at once
  obtain ⟨s₂, hgs, hmem, hrip₂, hrsp, -, -⟩ := exists_moved s₁ (mbOrg + 0x268) (s₁.reg .rsp + 8) 0 0 s₁.mem
  have hinner : w.Runs (.guest n (s₁.reg .rsp + 8)) s₁ s₂ := .returns ⟨hgs, fun x _ => by rw [hmem]⟩ hrip₂ hrsp
  obtain ⟨s', hout, -, hreturned⟩ := hafter s₂ (hinner.post hpre)
  exact ⟨s', .callIn hready hrip hentry hret hguest hin hinner hout, hreturned⟩

theorem exists_host_call {m : ℕ} (hmn : m + 6 < n) (hroom : n + 6 < w.words .stack) (hgs : s.gsBase = w.addr .tib 0)
    (hframe : w.view s.mem fieldHostRsp = w.addr .stack (n + 4)) (halt : w.view s.mem fieldHostRspAlt = 0)
    (hguestAlt : w.GuestWord (w.view s.mem fieldGuestRspAlt - 8)) :
    ∃ s₁ s₂, w.HostMoves (n + 3) s s₁ ∧ w.Runs (.callIn m) s₁ s₂ ∧
      w.view s₂.mem fieldGuestRsp = w.view s.mem fieldGuestRsp := by
  obtain ⟨s₁, hgs₁, hmem, hrip, hrsp, hr10, hr11⟩ := exists_moved s (mbOrg + 0x200) (w.addr .stack (m + 6))
    (w.addr .context 0) 0 (store s.mem (w.addr .stack (m + 6)) 0)
  have hview : w.view s₁.mem = Function.update (w.view s.mem) (.stack, m + 6) 0 := by rw [hmem, view_store (by omega)]
  have hkept : Kept (n + 3) (w.view s.mem) (w.view s₁.mem) := by
    rw [hview]
    exact Kept.update_stack ⟨rfl, rfl, rfl, fun _ _ => rfl⟩ (by omega) 0
  have hbusy : w.view s₁.mem fieldHostRsp ≠ 0 := by
    rw [hkept.hostRsp, hframe]
    exact addr_stack_ne_zero (by omega)
  have hstacks : callStacks (w.view s₁.mem) fieldGuestRsp = w.view s.mem fieldGuestRspAlt := by
    unfold callStacks
    rw [if_neg hbusy, ← hkept.guestRspAlt]
    simp [swapStacks]
  have hentry : interopCode (s₁.reg .r11) = [] := by
    rw [hr11]
    decide +kernel
  have hret : interopCode (w.view s₁.mem (.stack, m + 6)) = [] := by
    rw [hview, Function.update_self]
    decide +kernel
  obtain ⟨s₂, hcall, hreturned⟩ := exists_plain_call ⟨hr10, hgs₁.trans hgs, hrsp, by omega⟩ hrip hentry hret
    (fun h => absurd h hbusy) (.inr (hkept.hostRspAlt.trans halt)) (by rw [hstacks]; exact hguestAlt)
  refine ⟨s₁, s₂, ⟨hgs₁, hkept⟩, hcall, ?_⟩
  rw [hreturned.guestRsp, hview]
  simp

theorem exists_nested_run {m : ℕ} (hready : w.Ready (n + 6) s) (hrip : s.rip = mbOrg + 0x200)
    (hentry : interopCode (s.reg .r11) = []) (hmn : m + 6 < n) (hhost : w.view s.mem fieldHostRsp = 0)
    (halt : w.view s.mem fieldHostRspAlt = 0) (hdispatch : interopCode (w.view s.mem fieldDispatch) = [])
    (hguest : w.GuestWord (w.view s.mem fieldGuestRsp - 8)) (hguest' : w.GuestWord (w.view s.mem fieldGuestRsp - 8 - 8))
    (hguestAlt : w.GuestWord (w.view s.mem fieldGuestRspAlt - 8)) (hin : leave interopCode 64 s = .ok s₁) :
    ∃ s₂, w.Runs (.guest n (s₁.reg .rsp + 8)) s₁ s₂ := by
  have hstacks : callStacks (w.view s.mem) = w.view s.mem := if_pos hhost
  obtain ⟨t, ht, hrip₁, hrsp₁, hgs₁, hkeep₁, hview₁, -⟩ := enterGuest (n := n + 4) hready hrip hentry (.inl hhost)
    (by rw [hstacks]; exact hguest)
  obtain rfl := Except.ok.inj (hin.symm.trans ht)
  rw [hstacks] at hrsp₁ hview₁
  have hroom := hready.room
  have hgs₁ := hgs₁.trans hready.gs
  have hpre : w.Pre (.guest n (s₁.reg .rsp + 8)) s₁ :=
    ⟨hgs₁, by rw [hview₁]; simp [enterWords], by rw [hview₁]; simp [enterWords], hroom⟩
  have hfields : w.view s₁.mem fieldDispatch = w.view s.mem fieldDispatch ∧ w.view s₁.mem fieldHostRspAlt = 0 ∧
      w.view s₁.mem fieldGuestRspAlt = w.view s.mem fieldGuestRspAlt := by
    rw [hview₁, ← halt]
    simp [enterWords]
  -- the guest jumps to the syscall routine
  obtain ⟨t₁, hgs, hmem, hriph, hrsph, -, -⟩ := exists_moved s₁ (mbOrg + 0x80) (s₁.reg .rsp) 0 0 s₁.mem
  have hmoves : w.GuestMoves s₁ t₁ := ⟨hgs, fun x _ => by rw [hmem]⟩
  have hword : t₁.reg .rsp - 8 = w.view s.mem fieldGuestRsp - 8 - 8 := by rw [hrsph, hrsp₁]
  have hout : interopCode (w.view t₁.mem fieldDispatch) = [] := by
    rw [hmem, hfields.1]
    exact hdispatch
  obtain ⟨t₂, hin₂, hrip₂, hentered, -, -, -, -, hafter⟩ := syscall_step (hmoves.pre hpre) hriph
    (by rw [hword]; exact hguest') hout
  -- the dispatcher calls the guest
  have hkept : Kept (n + 4) (w.view s₁.mem) (w.view t₂.mem) := by
    rw [← hmem]
    exact hentered.kept
  obtain ⟨t₃, u₃, hmoves₃, hcall, hsame⟩ := exists_host_call hmn hroom (by rw [hentered.gs, hgs, hgs₁])
    (hkept.hostRsp.trans hpre.2.2.1) (hkept.hostRspAlt.trans hfields.2.1)
    (by rw [hkept.guestRspAlt, hfields.2.2]; exact hguestAlt)
  -- it returns, and the guest returns at once
  have hguestRsp : w.view u₃.mem fieldGuestRsp = w.view s.mem fieldGuestRsp - 8 - 8 :=
    hsame.trans (hentered.guestRsp.trans hword)
  obtain ⟨t₄, hgs₄, hmem₄, hrip₄, hrsp₄, -, -⟩ := exists_moved u₃ (mbOrg + 0xc8) (w.addr .stack (n + 1)) 0 0
    (store u₃.mem (w.view s.mem fieldGuestRsp - 8) 0)
  have hview₄ : w.view t₄.mem = w.view u₃.mem := by
    rw [hmem₄]
    exact view_store_outside hguest.outside
  have hrun₂ : w.Runs (.host n (n + 3) (mbOrg + 0xc8)) t₂ t₄ := by
    refine .hostCalls hmoves₃ hmn hcall (.hostReturns ⟨hgs₄, ?_⟩ hrip₄ hrsp₄)
    rw [hview₄]
    exact ⟨rfl, rfl, rfl, fun _ _ => rfl⟩
  have hback : w.view t₄.mem fieldGuestRsp + 8 = w.view s.mem fieldGuestRsp - 8 := by
    rw [hview₄, hguestRsp, UInt64.sub_add_cancel]
  have hg : w.GuestWord (w.view t₄.mem fieldGuestRsp) := by
    rw [hview₄, hguestRsp]
    exact hguest'
  have hg' : w.GuestWord (w.view t₄.mem fieldGuestRsp + 8) := by
    rw [hback]
    exact hguest
  have hret₄ : interopCode (load t₄.mem (w.view t₄.mem fieldGuestRsp + 8)) = [] := by
    rw [hback, hmem₄, load_store]
    decide +kernel
  obtain ⟨t₅, hout₅, -⟩ := hafter t₄ (hrun₂.post (hentered.pre (by omega) (hmoves.pre hpre))) hg hg' hret₄
  obtain ⟨s₂, hgs₂, hmem₂, hrip₂, hrsp₂, -, -⟩ := exists_moved t₅ (mbOrg + 0x268) (s₁.reg .rsp + 8) 0 0 t₅.mem
  exact ⟨s₂, .syscall hmoves hriph (by rw [hword]; exact hguest') hout hin₂ hrun₂ hg hg' hret₄ hout₅
    (.returns ⟨hgs₂, fun x _ => by rw [hmem₂]⟩ hrip₂ hrsp₂)⟩

theorem callIn_returns (hready : w.Ready (n + 6) s) (hrip : s.rip = mbOrg + 0x200) (hentry : interopCode (s.reg .r11) = [])
    (hret : interopCode (w.view s.mem (.stack, n + 6)) = []) (horder : InOrder (w.view s.mem))
    (hdepth : w.view s.mem fieldHostRsp = 0 ∨ w.view s.mem fieldHostRspAlt = 0)
    (hguest : w.GuestWord (callStacks (w.view s.mem) fieldGuestRsp - 8)) :
    ∃ s₁, leave interopCode 64 s = .ok s₁ ∧
      (∀ s₀, s₀.rip = mbOrg + 0x100 → s = simply s₀ → leave interopCode 67 s₀ = .ok s₁) ∧
      s₁.rip = s.reg .r11 ∧ KeepsRegs [.rax, .rsp] s s₁ ∧ load s₁.mem (s₁.reg .rsp) = mbOrg + 0x268 ∧
      ∀ s₂, w.Runs (.guest n (s₁.reg .rsp + 8)) s₁ s₂ →
        ∃ s', leave interopCode 64 s₂ = .ok s' ∧ KeepsRegs [.rsp, .r10, .r11] s₂ s' ∧ w.CallReturned n s s' := by
  obtain ⟨s₁, hin, hrip₁, hkeep, hback, hpre, hafter⟩ := callIn_step hready hrip hentry hret horder hdepth hguest
  refine ⟨s₁, hin, ?_, hrip₁, hkeep, hback, ?_⟩
  · rintro s₀ hrip₀ rfl
    rw [leave_callGuestSimple hrip₀ 64]
    exact hin
  · intro s₂ hrun
    exact hafter s₂ (hrun.post hpre)

def small : Wiring where
  base p := match p with
    | .context => 0x1000
    | .tib => 0x2000
    | .stack => 0x3000
  words p := match p with
    | .context => 71
    | .tib => 4
    | .stack => 64
  fits p := by cases p <;> decide
  apart p p' h := by
    cases p <;> cases p' <;> first | exact absurd rfl h | decide
  context_words := rfl
  tib_words := rfl
  stack_pos := by decide
  guest := ⟨0x36f00000000, 0x10000⟩
  guest_end := by decide
  guest_apart p := by cases p <;> decide

def smallCall : State where
  reg r := match r with
    | .rsp => 0x30d0
    | .rsi | .r10 => 0x1000
    | .rdi | .r11 => 0x36f00000100
    | _ => 0
  rip := mbOrg + 0x200
  zf := false
  gsBase := 0x2000
  mem := store (store (store (fun _ => 0) 0x1010 0x36f00008000) 0x1020 0x36f0000f000) 0x1028 0x400000

theorem callIn_returns_nested : ∃ s₁ s₂ s', leave interopCode 64 smallCall = .ok s₁ ∧
    leave interopCode 67 { smallCall with rip := mbOrg + 0x100 } = .ok s₁ ∧
    small.Runs (.guest 20 (s₁.reg .rsp + 8)) s₁ s₂ ∧ leave interopCode 64 s₂ = .ok s' ∧
    small.CallReturned 20 smallCall s' := by
  have hready : small.Ready (20 + 6) smallCall := ⟨rfl, rfl, rfl, by decide⟩
  have hentry : interopCode (smallCall.reg .r11) = [] := by decide +kernel
  have hhost : small.view smallCall.mem fieldHostRsp = 0 := by decide +kernel
  have halt : small.view smallCall.mem fieldHostRspAlt = 0 := by decide +kernel
  have hguestRsp : small.view smallCall.mem fieldGuestRsp = 0x36f00008000 := by decide +kernel
  have hguestAlt : small.view smallCall.mem fieldGuestRspAlt = 0x36f0000f000 := by decide +kernel
  have hstacks : callStacks (small.view smallCall.mem) = small.view smallCall.mem := if_pos hhost
  have hguest : small.GuestWord (callStacks (small.view smallCall.mem) fieldGuestRsp - 8) := by
    rw [hstacks, hguestRsp]
    decide +kernel
  have hsimply : smallCall = simply { smallCall with rip := mbOrg + 0x100 } := by
    refine congrArg (fun reg => { smallCall with reg := reg }) (funext fun r => ?_)
    cases r <;> rfl
  obtain ⟨s₁, hin, hsimple, -, -, -, hafter⟩ := callIn_returns hready rfl hentry (by decide +kernel)
    (fun _ => halt) (.inl hhost) hguest
  obtain ⟨s₂, hrun⟩ := exists_nested_run (m := 0) hready rfl hentry (by decide) hhost halt (by decide +kernel)
    (by rw [← hstacks]; exact hguest) (by rw [hguestRsp]; decide +kernel) (by rw [hguestAlt]; decide +kernel) hin
  obtain ⟨s', hout, -, hreturned⟩ := hafter s₂ hrun
  exact ⟨s₁, s₂, s', hin, hsimple _ rfl hsimply, hrun, hout, hreturned⟩

theorem callback_returns {slot : ℕ} {top : UInt64} (hpre : w.Pre (.guest n top) s) (hslot : slot < 64)
    (hrip : s.rip = getCallbackPtr (UInt64.ofNat slot)) (hword : w.GuestWord (s.reg .rsp))
    (hcallback : interopCode (w.view s.mem (fieldSlot slot)) = []) (hret : interopCode (load s.mem (s.reg .rsp)) = []) :
    ∃ s₂, leave interopCode 64 s = .ok s₂ ∧ s₂.rip = w.view s.mem (fieldSlot slot) ∧
      w.HostEntered n (n + 2) (mbOrg + 0x742) (s.reg .rsp) s s₂ ∧
      ∀ s₃, w.Runs (.host (n + 2) (n + 3) (mbOrg + 0x742)) s₂ s₃ →
        w.view s₃.mem fieldGuestRsp = w.view s₂.mem fieldGuestRsp →
        load s₃.mem (s.reg .rsp) = load s₂.mem (s.reg .rsp) →
        ∃ s₄, leave interopCode 64 s₃ = .ok s₄ ∧ s₄.rip = load s.mem (s.reg .rsp) ∧
          s₄.reg .rsp = s.reg .rsp + 8 ∧ KeepsRegs [.rsp, .r10] s₃ s₄ ∧ w.GuestResumed s₃ s₄ := by
  obtain ⟨s₂, hin, hrip₂, hentered, hload, hafter⟩ := callback_step hpre hslot hrip hcallback
  refine ⟨s₂, hin, hrip₂, hentered, ?_⟩
  intro s₃ hrun hsame hret₃
  have hframe : w.view s₃.mem fieldGuestRsp = s.reg .rsp := hsame.trans hentered.guestRsp
  have hword₃ : load s₃.mem (s.reg .rsp) = load s.mem (s.reg .rsp) := hret₃.trans (hload _ hword)
  obtain ⟨s₄, hout, hrip₄, hrsp₄, hkeep, hresumed⟩ := hafter s₃ (hrun.post (hentered.pre (by omega) hpre))
    (by rw [hframe]; exact hword) (by rw [hframe, hword₃]; exact hret)
  refine ⟨s₄, hout, ?_, ?_, hkeep, hresumed⟩
  · rw [hrip₄, hframe, hword₃]
  · rw [hrsp₄, hframe]

def smallGuest (rip : UInt64) : State where
  reg r := if r = .rsp then 0x36f00007000 else if r = .rbp then 0x36f00007800 else 7
  rip := rip
  zf := false
  gsBase := 0x2000
  mem := store (store (store (store (store (store (fun _ => 0) 0x1008 0x3070) 0x1028 0x400000) 0x1030 0x500000)
    0x2018 0x1000) 0x36f00007000 0x36f00000200) 0x1230 0x600000

theorem smallGuest_pre (rip : UInt64) : small.Pre (.guest 10 0) (smallGuest rip) := by
  have hcontext : small.view (smallGuest 0).mem tibContext = small.addr .context 0 := by decide +kernel
  have hhost : small.view (smallGuest 0).mem fieldHostRsp = small.addr .stack (10 + 4) := by decide +kernel
  exact ⟨rfl, hcontext, hhost, by decide⟩

theorem callback_returns_small : ∃ s₂ s₃ s₄, leave interopCode 64 (smallGuest (getCallbackPtr 63)) = .ok s₂ ∧
    s₂.rip = 0x600000 ∧ small.Runs (.host 12 13 (mbOrg + 0x742)) s₂ s₃ ∧ leave interopCode 64 s₃ = .ok s₄ ∧
    s₄.rip = 0x36f00000200 ∧ s₄.reg .rsp = 0x36f00007008 := by
  have hload : load (smallGuest (getCallbackPtr 63)).mem 0x36f00007000 = 0x36f00000200 := by decide +kernel
  have hcallback : small.view (smallGuest (getCallbackPtr 63)).mem (fieldSlot 63) = 0x600000 := by decide +kernel
  obtain ⟨s₂, hin, hrip₂, -, hafter⟩ := callback_returns (smallGuest_pre (getCallbackPtr 63)) (by decide : 63 < 64) rfl
    (by decide +kernel) (by rw [hcallback]; decide +kernel) ((congrArg interopCode hload).trans (by decide +kernel))
  obtain ⟨s₃, hgs₃, hmem₃, hrip₃, hrsp₃, -, -⟩ := exists_moved s₂ (mbOrg + 0x742) (small.addr .stack 13) 0 0 s₂.mem
  have hrun : small.Runs (.host 12 13 (mbOrg + 0x742)) s₂ s₃ := by
    refine .hostReturns ⟨hgs₃, ?_⟩ hrip₃ hrsp₃
    rw [hmem₃]
    exact ⟨rfl, rfl, rfl, fun _ _ => rfl⟩
  obtain ⟨s₄, hout, hrip₄, hrsp₄, -⟩ := hafter s₃ hrun (by rw [hmem₃]) (by rw [hmem₃])
  exact ⟨s₂, s₃, s₄, hin, hrip₂.trans hcallback, hrun, hout, hrip₄.trans hload, hrsp₄⟩

end Wiring

end MiniBox
