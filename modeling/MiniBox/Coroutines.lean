import MiniBox.Transitions

/-!
The coroutines of the guest. `co_switch` leaves the stack pointer, the frame pointer and the address behind itself in
the block of the coroutine that goes to sleep and takes those of the other one.
-/

namespace MiniBox

open WordMemory WordMemory.Regions X86 Relation

/-- The instructions of `co_switch`, as they are assembled. -/
def coSwapBytes : List UInt8 :=
  [0x48, 0x89, 0x27, 0x48, 0x89, 0x6f, 0x08, 0x48, 0x8d, 0x05, 0x11, 0x00, 0x00, 0x00, 0x48, 0x89,
   0x47, 0x10, 0x48, 0x8b, 0x26, 0x48, 0x8b, 0x6e, 0x08, 0x48, 0x8b, 0x46, 0x10, 0xff, 0xe0]

@[simp] def prevAt (d : UInt64) : Place := ⟨false, some .rdi, none, d⟩
@[simp] def nextAt (d : UInt64) : Place := ⟨false, some .rsi, none, d⟩

def coSwap : List (Instr × ℕ) :=
  [(.store (prevAt 0) .rsp, 3), (.store (prevAt 8) .rbp, 4), (.lea .rax 17, 7), (.store (prevAt 16) .rax, 4),
   (.load .rsp (nextAt 0), 3), (.load .rbp (nextAt 8), 4), (.load .rax (nextAt 16), 4), (.jumpTo .rax, 2)]

theorem reads_coSwap : ReadsAs coSwapBytes 0 coSwap := by decide +kernel

inductive CoPart (ρ : Type)
  | impl (c : ρ)
  | top (c : ρ)
  deriving DecidableEq

structure CoTable (ρ : Type) extends Regions (CoPart ρ) where
  impl_words : ∀ c, words (.impl c) = 5
  top_words : ∀ c, words (.top c) = 1
  swap : UInt64
  crash : UInt64

namespace CoTable

variable {ρ : Type} (w : CoTable ρ)

def parked (c : ρ) (s : State) : Memory :=
  store (store (store s.mem (w.addr (.impl c) 0) (s.reg .rsp)) (w.addr (.impl c) 1) (s.reg .rbp)) (w.addr (.impl c) 2)
    (w.swap + 31)

structure Parks (c : ρ) (s s' : State) : Prop where
  regs : KeepsRegs [.rax, .rsp, .rbp] s s'
  rax : s'.reg .rax = s'.rip
  mem : s'.mem = w.parked c s
  gs : s'.gsBase = s.gsBase
  zf : s'.zf = s.zf

structure Switches (u u' : ρ × State) : Prop where
  rip : u.2.rip = w.swap
  prev : u.2.reg .rdi = w.addr (.impl u.1) 0
  next : u.2.reg .rsi = w.addr (.impl u'.1) 0
  run : leave (placedCode coSwapBytes w.swap) 9 u.2 = .ok u'.2

/-- The block that `co_create` fills, for a stack that `alloc_thread` has mapped. -/
def coCreate (c : ρ) (stack stackSize entrypoint : UInt64) (m : Memory) : Memory :=
  let m := (List.range 5).foldl (fun m k => store m (w.addr (.impl c) k) 0) m
  let m := store (store m (w.addr (.impl c) 3) stack) (w.addr (.impl c) 4) stackSize
  let p := stack + stackSize - 8
  let m := store m p w.crash
  store (store m (w.addr (.impl c) 0) p) (w.addr (.impl c) 2) entrypoint

/-- The steps while the coroutine `d` sleeps: the active one does anything that leaves the saved words and the top word
of `d` alone, creates another one, or switches to another one. -/
inductive Away (d : ρ) : ρ × State → ρ × State → Prop
  | runs {c : ρ} {s s' : State} : (∀ k < 3, w.view s'.mem (.impl d, k) = w.view s.mem (.impl d, k)) →
      w.view s'.mem (.top d, 0) = w.view s.mem (.top d, 0) → Away d (c, s) (c, s')
  | creates {c e : ρ} {s : State} {stack stackSize entrypoint : UInt64} : e ≠ d →
      stack + stackSize - 8 = w.addr (.top e) 0 →
      Away d (c, s) (c, { s with mem := w.coCreate e stack stackSize entrypoint s.mem })
  | switches {u u' : ρ × State} : w.Switches u u' → u'.1 ≠ d → Away d u u'

variable {w} {c d p q : ρ} {s s₁ s₂ s₃ : State}

theorem coSwap_effect (hrip : s.rip = w.swap) (hprev : s.reg .rdi = w.addr (.impl c) 0)
    (hnext : s.reg .rsi = w.addr (.impl q) 0) :
    ∃ s', execAll s coSwap = .ok s' ∧ w.Parks c s s' ∧ s'.reg .rsp = w.view s'.mem (.impl q, 0) ∧
      s'.reg .rbp = w.view s'.mem (.impl q, 1) ∧ s'.rip = w.view s'.mem (.impl q, 2) := by
  have hq := w.impl_words q
  refine ⟨_, rfl, ⟨?_, rfl, ?_, rfl, rfl⟩, ?_, ?_, ?_⟩
  · intro r hr
    simp only [List.mem_cons, List.not_mem_nil, or_false, not_or] at hr
    simp [State.set, hr]
  · simp [State.set, State.ea, hprev, hrip, UInt64.add_assoc, parked, addr]
  · simp [State.set, State.ea, hprev, hnext]
    simp (disch := omega) [load_addr]
  · simp [State.set, State.ea, hprev, hnext]
    simp (disch := omega) [load_addr]
  · simp [State.set, State.ea, hprev, hnext]
    simp (disch := omega) [load_addr]

theorem lists_coSwap (w : CoTable ρ) : Lists (placedCode coSwapBytes w.swap) w.swap coSwap := by
  have h := lists_placedCode w.swap reads_coSwap (by decide)
  rwa [show UInt64.ofNat 0 = 0 from rfl, UInt64.add_zero] at h

theorem Switches.effect (h : w.Switches (c, s) (q, s₁)) :
    w.Parks c s s₁ ∧ s₁.reg .rsp = w.view s₁.mem (.impl q, 0) ∧ s₁.reg .rbp = w.view s₁.mem (.impl q, 1) ∧
      s₁.rip = w.view s₁.mem (.impl q, 2) := by
  obtain ⟨hrip, hprev, hnext, hrun⟩ := h
  dsimp only at hrip hprev hnext hrun
  obtain ⟨s', hexec, heffect⟩ := coSwap_effect hrip hprev hnext
  have hlists := w.lists_coSwap
  rw [← hrip] at hlists hrun
  have hblock := leave_block hlists (by decide) hexec 1
  rw [leave_one (hblock.symm.trans hrun)]
  exact heffect

def Asleep (w : CoTable ρ) (d : ρ) (m m' : Memory) : Prop :=
  (∀ k < 3, w.view m' (.impl d, k) = w.view m (.impl d, k)) ∧ w.view m' (.top d, 0) = w.view m (.top d, 0)

theorem Asleep.trans {m m' m'' : Memory} (h : w.Asleep d m m') (h' : w.Asleep d m' m'') : w.Asleep d m m'' :=
  ⟨fun k hk => (h'.1 k hk).trans (h.1 k hk), h'.2.trans h.2⟩

variable [DecidableEq ρ]

def parkWords (w : CoTable ρ) (c : ρ) (s : State) (v : CoPart ρ × ℕ → UInt64) : CoPart ρ × ℕ → UInt64 :=
  Function.update (Function.update (Function.update v (.impl c, 0) (s.reg .rsp)) (.impl c, 1) (s.reg .rbp)) (.impl c, 2)
    (w.swap + 31)

theorem view_parked (s : State) : w.view (w.parked c s) = w.parkWords c s (w.view s.mem) := by
  have hc := w.impl_words c
  unfold parked parkWords
  simp (disch := omega) only [view_store]

theorem Switches.view (h : w.Switches (c, s) (q, s₁)) : w.view s₁.mem = w.parkWords c s (w.view s.mem) := by
  rw [h.effect.1.mem, view_parked]

def createWords (w : CoTable ρ) (d : ρ) (stack stackSize entrypoint : UInt64) (v : CoPart ρ × ℕ → UInt64) :
    CoPart ρ × ℕ → UInt64 :=
  let v := (List.range 5).foldl (fun v k => Function.update v (.impl d, k) 0) v
  let v := Function.update (Function.update v (.impl d, 3) stack) (.impl d, 4) stackSize
  let v := Function.update v (.top d, 0) w.crash
  Function.update (Function.update v (.impl d, 0) (stack + stackSize - 8)) (.impl d, 2) entrypoint

theorem view_coCreate (m : Memory) (stack stackSize entrypoint : UInt64)
    (htop : stack + stackSize - 8 = w.addr (.top d) 0) :
    w.view (w.coCreate d stack stackSize entrypoint m) = w.createWords d stack stackSize entrypoint (w.view m) := by
  have himpl := w.impl_words d
  have hword := w.top_words d
  unfold coCreate createWords
  simp only [htop]
  simp (disch := omega) [List.range_succ, view_store]

theorem Switches.asleep {u u' : ρ × State} (h : w.Switches u u') (hu : u.1 ≠ d) : w.Asleep d u.2.mem u'.2.mem := by
  obtain ⟨c, s⟩ := u
  obtain ⟨q, s₁⟩ := u'
  have hview := h.view
  refine ⟨?_, ?_⟩
  · intro k _
    rw [hview]
    simp [parkWords, Ne.symm hu]
  · rw [hview]
    simp [parkWords]

theorem Away.asleep {u u' : ρ × State} (h : w.Away d u u') (hu : u.1 ≠ d) :
    u'.1 ≠ d ∧ w.Asleep d u.2.mem u'.2.mem := by
  cases h with
  | runs himpl htop => exact ⟨hu, himpl, htop⟩
  | @creates c e s stack stackSize entrypoint he htop =>
    refine ⟨hu, ?_, ?_⟩
    · intro k _
      dsimp only
      rw [view_coCreate _ _ _ _ htop]
      simp [createWords, List.range_succ, Ne.symm he]
    · dsimp only
      rw [view_coCreate _ _ _ _ htop]
      simp [createWords, List.range_succ, Ne.symm he]
  | switches hswitch hd => exact ⟨hd, hswitch.asleep hu⟩

theorem away_run {u u' : ρ × State} (h : ReflTransGen (w.Away d) u u') (hu : u.1 ≠ d) :
    u'.1 ≠ d ∧ w.Asleep d u.2.mem u'.2.mem := by
  induction h with
  | refl => exact ⟨hu, fun _ _ => rfl, rfl⟩
  | tail _ hstep ih =>
    obtain ⟨hd, hsleep⟩ := hstep.asleep ih.1
    exact ⟨hd, ih.2.trans hsleep⟩

theorem coroutines_resume (w : CoTable ρ) (d : ρ) :
    (∀ q s s₁ p s₂ s₃, w.Switches (d, s) (q, s₁) → q ≠ d → ReflTransGen (w.Away d) (q, s₁) (p, s₂) →
      w.Switches (p, s₂) (d, s₃) → s₃.rip = w.swap + 31 ∧ s₃.reg .rsp = s.reg .rsp ∧ s₃.reg .rbp = s.reg .rbp ∧
        w.Parks p s₂ s₃) ∧
    ∀ c (s : State) stack stackSize entrypoint p s₂ s₃, c ≠ d → stack + stackSize - 8 = w.addr (.top d) 0 →
      ReflTransGen (w.Away d) (c, { s with mem := w.coCreate d stack stackSize entrypoint s.mem }) (p, s₂) →
      w.Switches (p, s₂) (d, s₃) → s₃.rip = entrypoint ∧ s₃.reg .rsp = stack + stackSize - 8 ∧ s₃.reg .rbp = 0 ∧
        load s₃.mem (s₃.reg .rsp) = w.crash ∧ w.Parks p s₂ s₃ := by
  -- the words that the last switch finds are those from the start of the sleep
  have hwake : ∀ {q p : ρ} {s₁ s₂ s₃ : State}, q ≠ d → ReflTransGen (w.Away d) (q, s₁) (p, s₂) →
      w.Switches (p, s₂) (d, s₃) → s₃.rip = w.view s₁.mem (.impl d, 2) ∧ s₃.reg .rsp = w.view s₁.mem (.impl d, 0) ∧
        s₃.reg .rbp = w.view s₁.mem (.impl d, 1) ∧ w.view s₃.mem (.top d, 0) = w.view s₁.mem (.top d, 0) := by
    intro q p s₁ s₂ s₃ hq hrun hback
    obtain ⟨hp, hsleep⟩ := away_run hrun hq
    obtain ⟨himpl, htop⟩ := hsleep.trans (hback.asleep hp)
    obtain ⟨-, hrsp, hrbp, hrip⟩ := hback.effect
    exact ⟨hrip.trans (himpl 2 (by decide)), hrsp.trans (himpl 0 (by decide)), hrbp.trans (himpl 1 (by decide)), htop⟩
  constructor
  · intro q s s₁ p s₂ s₃ hleave hq hrun hback
    obtain ⟨hrip, hrsp, hrbp, -⟩ := hwake hq hrun hback
    rw [hleave.view] at hrip hrsp hrbp
    refine ⟨?_, ?_, ?_, hback.effect.1⟩
    · simpa [parkWords] using hrip
    · simpa [parkWords] using hrsp
    · simpa [parkWords] using hrbp
  · intro c s stack stackSize entrypoint p s₂ s₃ hc htop hrun hback
    obtain ⟨hrip, hrsp, hrbp, hword⟩ := hwake hc hrun hback
    rw [view_coCreate _ _ _ _ htop] at hrip hrsp hrbp hword
    simp only [createWords, List.range_succ] at hrip hrsp hrbp hword
    refine ⟨?_, ?_, ?_, ?_, hback.effect.1⟩
    · simpa using hrip
    · simpa using hrsp
    · simpa using hrbp
    · have hpos := w.top_words d
      have hsp : s₃.reg .rsp = w.addr (.top d) 0 := by rw [← htop]; simpa using hrsp
      rw [hsp, load_addr (by omega)]
      simpa using hword

theorem exists_switch (hrip : s.rip = w.swap) (hprev : s.reg .rdi = w.addr (.impl c) 0)
    (hnext : s.reg .rsi = w.addr (.impl q) 0)
    (hout : placedCode coSwapBytes w.swap (w.parkWords c s (w.view s.mem) (.impl q, 2)) = []) :
    ∃ s', w.Switches (c, s) (q, s') := by
  obtain ⟨s', hexec, hparks, -, -, hrip'⟩ := coSwap_effect hrip hprev hnext
  have hlists := w.lists_coSwap
  rw [← hrip] at hlists
  have hblock := leave_block hlists (by decide) hexec 1
  rw [hrip, leave_out (by rw [hrip', hparks.mem, view_parked]; exact hout) 0] at hblock
  exact ⟨s', hrip, hprev, hnext, hblock⟩

def two : CoTable Bool where
  base p := match p with
    | .impl false => 0x1000
    | .impl true => 0x1100
    | .top false => 0x2ff8
    | .top true => 0x3ff8
  words p := match p with
    | .impl _ => 5
    | .top _ => 1
  fits p := by rcases p with c | c <;> cases c <;> decide
  apart p p' h := by
    rcases p with c | c <;> rcases p' with c' | c' <;> cases c <;> cases c' <;> first | exact absurd rfl h | decide
  impl_words c := by cases c <;> rfl
  top_words c := by cases c <;> rfl
  swap := 0x5000
  crash := 0x6000

def twoAt (c q : Bool) (rsp rbp : UInt64) (m : Memory) : State where
  reg r := if r = .rdi then two.addr (.impl c) 0 else if r = .rsi then two.addr (.impl q) 0 else if r = .rsp then rsp
    else if r = .rbp then rbp else 0
  rip := 0x5000
  zf := false
  gsBase := 0
  mem := m

theorem coroutines_resume_two : ∃ s₁ s₃ : State,
    two.Switches (false, twoAt false true 0x2f00 0x2f40 (two.coCreate true 0x3000 0x1000 0x7000 fun _ => 0)) (true, s₁) ∧
      s₁.rip = 0x7000 ∧ s₁.reg .rsp = 0x3ff8 ∧ two.Switches (true, twoAt true false 0x3f00 0 s₁.mem) (false, s₃) ∧
      s₃.rip = 0x501f ∧ s₃.reg .rsp = 0x2f00 ∧ s₃.reg .rbp = 0x2f40 := by
  have htop : (0x3000 : UInt64) + 0x1000 - 8 = two.addr (.top true) 0 := by decide
  have hview := view_coCreate (w := two) (d := true) (fun _ => 0) 0x3000 0x1000 0x7000 htop
  obtain ⟨s₁, hthere⟩ := exists_switch (w := two) (c := false) (q := true)
    (s := twoAt false true 0x2f00 0x2f40 (two.coCreate true 0x3000 0x1000 0x7000 fun _ => 0)) rfl rfl rfl (by
      change placedCode coSwapBytes 0x5000 (two.parkWords false _ (two.view (two.coCreate true 0x3000 0x1000 0x7000 fun _ => 0))
        (.impl true, 2)) = []
      rw [hview]
      simp [parkWords, createWords]
      decide)
  have hview₁ := hthere.view
  obtain ⟨s₃, hback⟩ := exists_switch (w := two) (c := true) (q := false) (s := twoAt true false 0x3f00 0 s₁.mem)
    rfl rfl rfl (by
      change placedCode coSwapBytes 0x5000 (two.parkWords true _ (two.view s₁.mem) (.impl false, 2)) = []
      rw [hview₁]
      simp [parkWords, two]
      decide)
  have haway : ReflTransGen (two.Away false) (true, s₁) (true, twoAt true false 0x3f00 0 s₁.mem) :=
    .single (.runs (fun _ _ => rfl) rfl)
  obtain ⟨hrip, hrsp, hrbp, -⟩ := (coroutines_resume two false).1 _ _ _ _ _ _ hthere (by decide) haway hback
  obtain ⟨hrip₁, hrsp₁, -⟩ := (coroutines_resume two true).2 false
    (twoAt false true 0x2f00 0x2f40 fun _ => 0) 0x3000 0x1000 0x7000 false _ _ (by decide) htop .refl hthere
  exact ⟨s₁, s₃, hthere, hrip₁, hrsp₁, hback, hrip, hrsp, hrbp⟩

end CoTable

end MiniBox
