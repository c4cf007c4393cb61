import MiniBox.WordMemory

/-!
A part of the x86-64 instruction set: moves, pushes and pops of 64-bit words, jumps, calls and returns. Code is
a table of bytes beside the memory, and the machine runs until it leaves that table.
-/

namespace MiniBox.X86

open ByteStream WordMemory

inductive Reg
  | rax | rcx | rdx | rbx | rsp | rbp | rsi | rdi | r8 | r9 | r10 | r11 | r12 | r13 | r14 | r15
  deriving DecidableEq, Repr

def Reg.all : List Reg := [.rax, .rcx, .rdx, .rbx, .rsp, .rbp, .rsi, .rdi, .r8, .r9, .r10, .r11, .r12, .r13, .r14, .r15]

structure Place where
  gs : Bool
  base : Option Reg
  index : Option (Reg × ℕ)
  disp : UInt64
  deriving DecidableEq

inductive Operand
  | reg (r : Reg)
  | mem (p : Place)
  deriving DecidableEq

inductive Instr
  | push (r : Reg)
  | pop (r : Reg)
  | move (dst src : Reg)
  | load (dst : Reg) (p : Place)
  | store (p : Place) (src : Reg)
  | exchange (r : Reg) (p : Place)
  | xor (dst src : Reg)
  | sub (dst : Reg) (imm : UInt64)
  | test (r r' : Reg)
  | imm (dst : Reg) (v : UInt64)
  | lea (dst : Reg) (d : UInt64)
  | je (d : UInt64)
  | jump (d : UInt64)
  | jumpTo (r : Reg)
  | call (r : Reg)
  | ret
  | int3
  deriving DecidableEq

section Decoding

structure Rex where
  w : Bool
  r : Bool
  x : Bool
  b : Bool

def rexOf (c : UInt8) : Rex := ⟨c &&& 8 ≠ 0, c &&& 4 ≠ 0, c &&& 2 ≠ 0, c &&& 1 ≠ 0⟩

def regOf (ext : Bool) (field : UInt8) : Reg := Reg.all.getD ((field &&& 7).toNat + if ext then 8 else 0) .rax

def disp8 (c : UInt8) : UInt64 := if c < 128 then c.toUInt64 else c.toUInt64 - 256

def disp32 (l : List UInt8) : UInt64 :=
  let v := UInt64.ofNat (leDigits (l.take 4))
  if v < 0x80000000 then v else v - 0x100000000

def indexOf (rex : Rex) (sib : UInt8) : Option (Reg × ℕ) :=
  if (sib >>> 3) &&& 7 = 4 ∧ rex.x = false then none
  else some (regOf rex.x (sib >>> 3), 2 ^ ((sib >>> 6) &&& 3).toNat)

def operandOf (gs : Bool) (rex : Rex) : List UInt8 → Option (Operand × ℕ)
  | [] => none
  | modrm :: l =>
    let mode := modrm >>> 6
    let rm := modrm &&& 7
    if mode = 3 then some (.reg (regOf rex.b rm), 1)
    else if rm = 4 then
      match l with
      | [] => none
      | sib :: l =>
        if mode = 0 ∧ sib &&& 7 = 5 then some (.mem ⟨gs, none, indexOf rex sib, disp32 l⟩, 6)
        else if mode = 0 then some (.mem ⟨gs, some (regOf rex.b sib), indexOf rex sib, 0⟩, 2)
        else if mode = 1 then some (.mem ⟨gs, some (regOf rex.b sib), indexOf rex sib, disp8 (l.headD 0)⟩, 3)
        else some (.mem ⟨gs, some (regOf rex.b sib), indexOf rex sib, disp32 l⟩, 6)
    else if mode = 0 ∧ rm = 5 then none
    else if mode = 0 then some (.mem ⟨gs, some (regOf rex.b rm), none, 0⟩, 1)
    else if mode = 1 then some (.mem ⟨gs, some (regOf rex.b rm), none, disp8 (l.headD 0)⟩, 2)
    else some (.mem ⟨gs, some (regOf rex.b rm), none, disp32 l⟩, 5)

def fieldOf (l : List UInt8) : UInt8 := (l.headD 0 >>> 3) &&& 7

def decodeOp (gs : Bool) (rex : Rex) : List UInt8 → Option (Instr × ℕ)
  | [] => none
  | op :: l =>
    if op &&& 0xf8 = 0x50 then some (.push (regOf rex.b op), 1)
    else if op &&& 0xf8 = 0x58 then some (.pop (regOf rex.b op), 1)
    else if op &&& 0xf8 = 0xb8 then
      if rex.w then some (.imm (regOf rex.b op) (UInt64.ofNat (leDigits (l.take 8))), 9)
      else some (.imm (regOf rex.b op) (UInt64.ofNat (leDigits (l.take 4))), 5)
    else if op = 0xc3 then some (.ret, 1)
    else if op = 0xcc then some (.int3, 1)
    else if op = 0x74 then some (.je (disp8 (l.headD 0)), 2)
    else if op = 0xeb then some (.jump (disp8 (l.headD 0)), 2)
    else if op = 0xe9 then some (.jump (disp32 l), 5)
    else if op = 0x8d ∧ rex.w ∧ l.headD 0 &&& 0xc7 = 5 then some (.lea (regOf rex.r (fieldOf l)) (disp32 (l.drop 1)), 6)
    else
      match operandOf gs rex l with
      | none => none
      | some (.reg rm, n) =>
        if op = 0xff ∧ fieldOf l = 2 then some (.call rm, n + 1)
        else if op = 0xff ∧ fieldOf l = 4 then some (.jumpTo rm, n + 1)
        else if rex.w = false then none
        else if op = 0x89 then some (.move rm (regOf rex.r (fieldOf l)), n + 1)
        else if op = 0x8b then some (.move (regOf rex.r (fieldOf l)) rm, n + 1)
        else if op = 0x31 then some (.xor rm (regOf rex.r (fieldOf l)), n + 1)
        else if op = 0x85 then some (.test rm (regOf rex.r (fieldOf l)), n + 1)
        else if op = 0x83 ∧ fieldOf l = 5 then some (.sub rm (disp8 (l.getD n 0)), n + 2)
        else none
      | some (.mem p, n) =>
        if rex.w = false then none
        else if op = 0x89 then some (.store p (regOf rex.r (fieldOf l)), n + 1)
        else if op = 0x8b then some (.load (regOf rex.r (fieldOf l)) p, n + 1)
        else if op = 0x87 then some (.exchange (regOf rex.r (fieldOf l)) p, n + 1)
        else none

def decodeRex (gs : Bool) : List UInt8 → Option (Instr × ℕ)
  | [] => none
  | c :: l =>
    if c &&& 0xf0 = 0x40 then (decodeOp gs (rexOf c) l).map fun u => (u.1, u.2 + 1)
    else decodeOp gs (rexOf 0) (c :: l)

def decode : List UInt8 → Option (Instr × ℕ)
  | [] => none
  | c :: l => if c = 0x65 then (decodeRex true l).map fun u => (u.1, u.2 + 1) else decodeRex false (c :: l)

end Decoding

structure State where
  reg : Reg → UInt64
  rip : UInt64
  zf : Bool
  gsBase : UInt64
  mem : Memory

inductive Fault
  | trap
  | unknown
  deriving DecidableEq

namespace State

def set (s : State) (r : Reg) (v : UInt64) : State := { s with reg := Function.update s.reg r v }

def ea (s : State) (p : Place) : UInt64 :=
  (if p.gs then s.gsBase else 0) + (p.base.elim 0 s.reg) + (p.index.elim 0 fun u => s.reg u.1 * UInt64.ofNat u.2) + p.disp

def pushed (s : State) (v : UInt64) : State :=
  { s.set .rsp (s.reg .rsp - 8) with mem := store s.mem (s.reg .rsp - 8) v }

end State

def exec (s : State) : Instr → Except Fault State
  | .push r => .ok (s.pushed (s.reg r))
  | .pop r => .ok ((s.set .rsp (s.reg .rsp + 8)).set r (load s.mem (s.reg .rsp)))
  | .move dst src => .ok (s.set dst (s.reg src))
  | .load dst p => .ok (s.set dst (load s.mem (s.ea p)))
  | .store p src => .ok { s with mem := store s.mem (s.ea p) (s.reg src) }
  | .exchange r p => .ok { s.set r (load s.mem (s.ea p)) with mem := store s.mem (s.ea p) (s.reg r) }
  | .xor dst src => .ok { s.set dst (s.reg dst ^^^ s.reg src) with zf := s.reg dst ^^^ s.reg src = 0 }
  | .sub dst v => .ok { s.set dst (s.reg dst - v) with zf := s.reg dst - v = 0 }
  | .test r r' => .ok { s with zf := s.reg r &&& s.reg r' = 0 }
  | .imm dst v => .ok (s.set dst v)
  | .lea dst d => .ok (s.set dst (s.rip + d))
  | .je d => .ok { s with rip := if s.zf then s.rip + d else s.rip }
  | .jump d => .ok { s with rip := s.rip + d }
  | .jumpTo r => .ok { s with rip := s.reg r }
  | .call r => .ok { s.pushed s.rip with rip := s.reg r }
  | .ret => .ok { s.set .rsp (s.reg .rsp + 8) with rip := load s.mem (s.reg .rsp) }
  | .int3 => .error .trap

abbrev Code := UInt64 → List UInt8

def memCode (start size : ℕ) (m : Memory) : Code := fun a =>
  if start ≤ a.toNat ∧ a.toNat < start + size then bytesAt m a (min 16 (start + size - a.toNat)) else []

def step (code : Code) (s : State) : Except Fault State :=
  match decode (code s.rip) with
  | none => .error .unknown
  | some (i, n) => exec { s with rip := s.rip + UInt64.ofNat n } i

def leave (code : Code) : ℕ → State → Except Fault State
  | 0, _ => .error .unknown
  | n + 1, s => if code s.rip = [] then .ok s else do leave code n (← step code s)

section Listings

def Lists (code : Code) : UInt64 → List (Instr × ℕ) → Prop
  | _, [] => True
  | a, (i, n) :: l => decode (code a) = some (i, n) ∧ Lists code (a + UInt64.ofNat n) l

instance (code : Code) : ∀ a l, Decidable (Lists code a l)
  | _, [] => inferInstanceAs (Decidable True)
  | a, (_, n) :: l =>
    have : Decidable (Lists code (a + UInt64.ofNat n) l) := instDecidableLists code (a + UInt64.ofNat n) l
    inferInstanceAs (Decidable (_ ∧ _))

def execAll (s : State) : List (Instr × ℕ) → Except Fault State
  | [] => .ok s
  | (i, n) :: l => do execAll (← exec { s with rip := s.rip + UInt64.ofNat n } i) l

def Instr.straight : Instr → Bool
  | .je _ | .jump _ | .jumpTo _ | .call _ | .ret | .int3 => false
  | _ => true

theorem exec_straight {i : Instr} {s s' : State} (hi : i.straight = true) (h : exec s i = .ok s') : s'.rip = s.rip := by
  cases i with
  | je _ | jump _ | jumpTo _ | call _ | ret | int3 => cases hi
  | push _ | pop _ | move _ _ | load _ _ | store _ _ | exchange _ _ | xor _ _ | sub _ _ | test _ _ | imm _ _
  | lea _ _ =>
    cases h
    rfl

theorem leave_instr {code : Code} {s : State} {i : Instr} {n : ℕ} (h : decode (code s.rip) = some (i, n)) (fuel : ℕ) :
    leave code (fuel + 1) s = exec { s with rip := s.rip + UInt64.ofNat n } i >>= leave code fuel := by
  have hcode : code s.rip ≠ [] := by
    intro h0
    rw [h0] at h
    cases h
  rw [leave, if_neg hcode, step, h]

theorem leave_listing {code : Code} {l : List (Instr × ℕ)} {s : State} (h : Lists code s.rip l)
    (hl : ∀ u ∈ l.dropLast, u.1.straight = true) (fuel : ℕ) :
    leave code (fuel + l.length) s = execAll s l >>= leave code fuel := by
  induction l generalizing s with
  | nil => rfl
  | cons u l ih =>
    obtain ⟨hi, hrest⟩ := h
    rw [List.length_cons, ← Nat.add_assoc, leave_instr hi, execAll]
    cases hexec : exec { s with rip := s.rip + UInt64.ofNat u.2 } u.1 with
    | error e => rfl
    | ok s' =>
      cases l with
      | nil => rfl
      | cons u' l =>
        have hrip := exec_straight (hl u List.mem_cons_self) hexec
        dsimp only at hrip
        rw [← hrip] at hrest
        exact ih hrest fun v hv => hl v (List.mem_cons_of_mem _ hv)

theorem leave_block {code : Code} {l : List (Instr × ℕ)} {s s' : State} (h : Lists code s.rip l)
    (hl : ∀ u ∈ l.dropLast, u.1.straight = true) (hexec : execAll s l = .ok s') (fuel : ℕ) :
    leave code (fuel + l.length) s = leave code fuel s' := by
  rw [leave_listing h hl, hexec]
  rfl

theorem leave_out {code : Code} {s : State} (h : code s.rip = []) (fuel : ℕ) : leave code (fuel + 1) s = .ok s := if_pos h

theorem leave_one {code : Code} {s s' : State} (h : leave code 1 s = .ok s') : s' = s := by
  rw [leave] at h
  split_ifs at h
  · exact (Except.ok.inj h).symm
  · cases hstep : step code s with
    | error e =>
      rw [hstep] at h
      cases h
    | ok t =>
      rw [hstep] at h
      cases h

def placedCode (l : List UInt8) (base : UInt64) : Code := fun a => l.drop (a - base).toNat

def ReadsAs (l : List UInt8) : ℕ → List (Instr × ℕ) → Prop
  | _, [] => True
  | k, (i, n) :: rest => decode (l.drop k) = some (i, n) ∧ ReadsAs l (k + n) rest

instance (l : List UInt8) : ∀ k rest, Decidable (ReadsAs l k rest)
  | _, [] => inferInstanceAs (Decidable True)
  | k, (_, n) :: rest =>
    have : Decidable (ReadsAs l (k + n) rest) := instDecidableReadsAs l (k + n) rest
    inferInstanceAs (Decidable (_ ∧ _))

theorem placedCode_add (l : List UInt8) (base : UInt64) {k : ℕ} (hk : k < 2 ^ 64) :
    placedCode l base (base + UInt64.ofNat k) = l.drop k := by
  unfold placedCode
  rw [UInt64.add_comm, UInt64.add_sub_cancel,
    UInt64.toNat_ofNat_of_lt' (by rw [show UInt64.size = 2 ^ 64 from rfl]; exact hk)]

theorem lists_placedCode {l : List UInt8} (base : UInt64) {rest : List (Instr × ℕ)} {k : ℕ} (h : ReadsAs l k rest)
    (hk : k + (rest.map Prod.snd).sum < 2 ^ 64) : Lists (placedCode l base) (base + UInt64.ofNat k) rest := by
  induction rest generalizing k with
  | nil => trivial
  | cons u rest ih =>
    rw [List.map_cons, List.sum_cons] at hk
    refine ⟨?_, ?_⟩
    · rw [placedCode_add l base (by omega)]
      exact h.1
    · rw [UInt64.add_assoc, ← UInt64.ofNat_add]
      exact ih h.2 (by omega)

theorem decode_memCode {start size : ℕ} {m : Memory} {a : UInt64} {l : List UInt8} {u : Instr × ℕ} (ha : start ≤ a.toNat)
    (hl : a.toNat + l.length ≤ start + size) (hpos : 0 < l.length) (h16 : l.length ≤ 16) (hbytes : bytesAt m a l.length = l)
    (hdecode : ∀ rest, decode (l ++ rest) = some u) : decode (memCode start size m a) = some u := by
  unfold memCode
  rw [if_pos ⟨ha, by omega⟩]
  obtain ⟨n, hn⟩ : ∃ n, min 16 (start + size - a.toNat) = l.length + n := ⟨_, (Nat.add_sub_of_le (by omega)).symm⟩
  rw [hn, bytesAt_add, hbytes]
  exact hdecode _

end Listings

end MiniBox.X86
