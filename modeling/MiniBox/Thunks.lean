import MiniBox.Transitions
import MiniBox.ElfLoader
import MiniBox.LinearTables

namespace MiniBox

open ByteStream WordMemory X86 LinearTables

def emit8 (u : Memory × UInt64) (v : UInt8) : Memory × UInt64 := (Function.update u.1 u.2 v, u.2 + 1)

def emit64 (u : Memory × UInt64) (v : UInt64) : Memory × UInt64 := (store u.1 u.2 v, u.2 + 8)

def emitThunk (page : Memory) (addr guestEntry c : UInt64) : Memory :=
  let u := emit64 (emit8 (emit8 (page, addr) 0x49) 0xba) c
  let u := emit64 (emit8 (emit8 u 0x49) 0xbb) guestEntry
  let u := emit64 (emit8 (emit8 u 0x48) 0xb8) (mbOrg + 0x200)
  (emit8 (emit8 u 0xff) 0xe0).1

def thunkSize : ℕ := 32

structure Thunks where
  mem : Range
  table : List (UInt64 × UInt64)
  page : Memory
  page_size : mem.size = 4096
  room : table.length * thunkSize ≤ mem.size.toNat

def thunksNew (start : UInt64) (page : Memory) : Thunks := ⟨⟨start, 4096⟩, [], page, rfl, Nat.zero_le _⟩

def thunksGet (t : Thunks) (guestEntry c : UInt64) : UInt64 × Thunks :=
  match lookup Prod.fst guestEntry t.table with
  | some u => (u.2, t)
  | none =>
    if h : (t.table.length + 1) * thunkSize > t.mem.size.toNat then (0, t)
    else
      let addr := t.mem.start + UInt64.ofNat (t.table.length * thunkSize)
      (addr, ⟨t.mem, t.table ++ [(guestEntry, addr)], emitThunk t.page addr guestEntry c, t.page_size, by
        rw [List.length_append]
        exact not_lt.mp h⟩)

def elfProcAddr (e : Elf) (name : List UInt8) : UInt64 := (lookup ExportInfo.name name e.exports).elim 0 ExportInfo.value

inductive AddrRequest
  | procAddr (name : List UInt8)
  | callinAddr (ptr : UInt64)

def hostProcAddr (e : Elf) (t : Thunks) (c : UInt64) (name : List UInt8) : UInt64 × Thunks :=
  let p := elfProcAddr e name
  if p ≠ 0 then thunksGet t p c else (0, t)

def hostCallinAddr (t : Thunks) (c ptr : UInt64) : UInt64 × Thunks := thunksGet t ptr c

def AddrRequest.serve (e : Elf) (t : Thunks) (c : UInt64) : AddrRequest → UInt64 × Thunks
  | .procAddr name => hostProcAddr e t c name
  | .callinAddr ptr => hostCallinAddr t c ptr

def serveAll (e : Elf) (c : UInt64) (t : Thunks) : List AddrRequest → List UInt64 × Thunks
  | [] => ([], t)
  | r :: rs =>
    let u := r.serve e t c
    let v := serveAll e c u.2 rs
    (u.1 :: v.1, v.2)

def Thunks.code (t : Thunks) : Code := memCode t.mem.start.toNat t.mem.size.toNat t.page

section Emission

def thunkBytes (guestEntry c : UInt64) : List UInt8 :=
  [0x49, 0xba] ++ le64 c ++ ([0x49, 0xbb] ++ le64 guestEntry) ++ ([0x48, 0xb8] ++ le64 (mbOrg + 0x200)) ++ [0xff, 0xe0]

theorem length_thunkBytes (guestEntry c : UInt64) : (thunkBytes guestEntry c).length = thunkSize := by
  simp [thunkBytes, thunkSize]

theorem emit8_blit (m : Memory) (p : UInt64) (l : List UInt8) (v : UInt8) (h : l.length < 2 ^ 64) :
    emit8 (blit m p l, p + UInt64.ofNat l.length) v = (blit m p (l ++ [v]), p + UInt64.ofNat (l ++ [v]).length) := by
  unfold emit8
  rw [update_eq_blit, blit_blit m p l [v] (by simpa using h), List.length_append, UInt64.ofNat_add, UInt64.add_assoc]
  rfl

theorem emit64_blit (m : Memory) (p : UInt64) (l : List UInt8) (v : UInt64) (h : l.length + 8 ≤ 2 ^ 64) :
    emit64 (blit m p l, p + UInt64.ofNat l.length) v = (blit m p (l ++ le64 v), p + UInt64.ofNat (l ++ le64 v).length) := by
  unfold emit64
  rw [store_eq_blit, blit_blit m p l (le64 v) (by simpa using h), List.length_append, UInt64.ofNat_add, UInt64.add_assoc,
    length_le64]
  rfl

theorem emitThunk_eq (page : Memory) (addr guestEntry c : UInt64) :
    emitThunk page addr guestEntry c = blit page addr (thunkBytes guestEntry c) := by
  have hstart : (page, addr) = (blit page addr [], addr + UInt64.ofNat ([] : List UInt8).length) := by
    rw [List.length_nil, show UInt64.ofNat 0 = 0 from rfl, UInt64.add_zero]
    rfl
  unfold emitThunk
  simp only [hstart]
  simp (disch := simp) only [emit8_blit, emit64_blit]
  simp [thunkBytes]

end Emission

section Requests

def thunkIndex (es : List UInt64) (e : UInt64) : ℕ := es.eraseDups.idxOf e

def thunkAddr (start : UInt64) (es : List UInt64) (e : UInt64) : UInt64 :=
  if thunkIndex es e < 128 then start + UInt64.ofNat (thunkIndex es e * thunkSize) else 0

theorem eraseDups_snoc (es : List UInt64) (e : UInt64) :
    (es ++ [e]).eraseDups = if e ∈ es then es.eraseDups else es.eraseDups ++ [e] := by
  rw [List.eraseDups_append]
  split_ifs with h
  · simp [List.removeAll, h]
  · simp [List.removeAll, h, List.eraseDups_cons]

theorem thunkIndex_append {es : List UInt64} {e : UInt64} (h : e ∈ es) (es' : List UInt64) :
    thunkIndex (es ++ es') e = thunkIndex es e := by
  unfold thunkIndex
  rw [List.eraseDups_append]
  exact List.idxOf_append_of_mem (List.mem_eraseDups.mpr h)

structure Thunks.Serves (c : UInt64) (es : List UInt64) (t : Thunks) : Prop where
  entries : t.table.map Prod.fst = es.eraseDups.take 128
  ptrs : ∀ k u, t.table[k]? = some u → u.2 = t.mem.start + UInt64.ofNat (k * thunkSize)
  code : ∀ k u, t.table[k]? = some u →
    bytesAt t.page (t.mem.start + UInt64.ofNat (k * thunkSize)) thunkSize = thunkBytes u.1 c

variable {c e : UInt64} {es : List UInt64} {t : Thunks}

theorem serves_new (start : UInt64) (page : Memory) (c : UInt64) : (thunksNew start page).Serves c [] :=
  ⟨rfl, fun k u h => by simp [thunksNew] at h, fun k u h => by simp [thunksNew] at h⟩

namespace Thunks.Serves

theorem length_table (h : t.Serves c es) : t.table.length = min 128 es.eraseDups.length := by
  have := congrArg List.length h.entries
  simpa using this

theorem bytesAt_emit {k n : ℕ} (hk : k < n) (hn : n < 128) (start v : UInt64) (page : Memory) :
    bytesAt (emitThunk page (start + UInt64.ofNat (n * thunkSize)) v c) (start + UInt64.ofNat (k * thunkSize)) thunkSize =
      bytesAt page (start + UInt64.ofNat (k * thunkSize)) thunkSize := by
  rw [emitThunk_eq]
  apply bytesAt_congr
  · intro x hx
    unfold blit
    rw [List.getD_eq_getElem?_getD, List.getElem?_eq_none, Option.getD_none]
    rw [length_thunkBytes]
    unfold thunkSize at hx ⊢
    have hkn : (UInt64.ofNat (k * 32)).toNat = k * 32 :=
      UInt64.toNat_ofNat_of_lt' (by rw [show UInt64.size = 2 ^ 64 from rfl]; omega)
    have hnn : (UInt64.ofNat (n * 32)).toNat = n * 32 :=
      UInt64.toNat_ofNat_of_lt' (by rw [show UInt64.size = 2 ^ 64 from rfl]; omega)
    have h1 : (x - (start + UInt64.ofNat (k * 32))).toNat =
      (2 ^ 64 - (start + UInt64.ofNat (k * 32)).toNat + x.toNat) % 2 ^ 64 := UInt64.toNat_sub _ _
    have h2 : (x - (start + UInt64.ofNat (n * 32))).toNat =
      (2 ^ 64 - (start + UInt64.ofNat (n * 32)).toNat + x.toNat) % 2 ^ 64 := UInt64.toNat_sub _ _
    have h3 : (start + UInt64.ofNat (k * 32)).toNat = (start.toNat + (UInt64.ofNat (k * 32)).toNat) % 2 ^ 64 :=
      UInt64.toNat_add _ _
    have h4 : (start + UInt64.ofNat (n * 32)).toNat = (start.toNat + (UInt64.ofNat (n * 32)).toNat) % 2 ^ 64 :=
      UInt64.toNat_add _ _
    have := x.toNat_lt
    have := start.toNat_lt
    omega
  · decide

theorem bytesAt_emit_self (start v : UInt64) (page : Memory) :
    bytesAt (emitThunk page start v c) start thunkSize = thunkBytes v c := by
  have h := bytesAt_blit page start (thunkBytes v c) (k := 0) (n := thunkSize)
    (by rw [length_thunkBytes, Nat.zero_add]) (by rw [length_thunkBytes]; decide)
  rw [show UInt64.ofNat 0 = 0 from rfl, UInt64.add_zero, List.drop_zero,
    List.take_of_length_le (length_thunkBytes v c).le] at h
  rw [emitThunk_eq, h]

theorem append (h : t.Serves c es) (hshort : es.eraseDups.length < 128) (hfresh : e ∉ es)
    (hroom : (t.table ++ [(e, t.mem.start + UInt64.ofNat (t.table.length * thunkSize))]).length * thunkSize ≤
      t.mem.size.toNat) :
    Serves c (es ++ [e]) ⟨t.mem, t.table ++ [(e, t.mem.start + UInt64.ofNat (t.table.length * thunkSize))],
      emitThunk t.page (t.mem.start + UInt64.ofNat (t.table.length * thunkSize)) e c, t.page_size, hroom⟩ := by
  have hold := h.entries
  rw [List.take_of_length_le hshort.le] at hold
  have hcase : ∀ {k u} {v : UInt64 × UInt64}, (t.table ++ [v])[k]? = some u →
      t.table[k]? = some u ∧ k < t.table.length ∨ k = t.table.length ∧ u = v := by
    intro k u v hk
    rw [List.getElem?_append] at hk
    split_ifs at hk with hlt
    · exact .inl ⟨hk, hlt⟩
    · right
      rw [List.getElem?_singleton] at hk
      split_ifs at hk with h0
      exact ⟨by omega, (Option.some.inj hk).symm⟩
  constructor
  · rw [eraseDups_snoc, if_neg hfresh, List.take_of_length_le (by simp; omega)]
    simp [hold]
  · intro k u hk
    rcases hcase hk with ⟨hk, -⟩ | ⟨rfl, rfl⟩
    · exact h.ptrs k u hk
    · rfl
  · intro k u hk
    dsimp only at hk ⊢
    rcases hcase hk with ⟨hk, hlt⟩ | ⟨rfl, rfl⟩
    · have hlen := h.length_table
      rw [bytesAt_emit hlt (by omega)]
      exact h.code k u hk
    · exact bytesAt_emit_self _ _ _

theorem get (h : t.Serves c es) (e : UInt64) :
    (thunksGet t e c).1 = thunkAddr t.mem.start (es ++ [e]) e ∧ (thunksGet t e c).2.mem = t.mem ∧
      (thunksGet t e c).2.Serves c (es ++ [e]) := by
  have hlength := h.length_table
  have hpage : t.mem.size.toNat = 4096 := by
    rw [t.page_size]
    rfl
  have hindex : ∀ n, thunkIndex (es ++ [e]) e < n ↔ e ∈ (es ++ [e]).eraseDups.take n := fun n =>
    (List.mem_take_iff_idxOf_lt (by simp [List.mem_eraseDups])).symm
  unfold thunksGet
  cases hfound : lookup Prod.fst e t.table with
  | some u =>
    have hfirst : e ∈ es.eraseDups.take 128 := by
      rw [← h.entries, ← isSome_lookup, hfound]
      rfl
    have hmem : e ∈ es := List.mem_eraseDups.mp (List.mem_of_mem_take hfirst)
    have hsame : (es ++ [e]).eraseDups = es.eraseDups := by rw [eraseDups_snoc, if_pos hmem]
    have hplace : (t.table.map Prod.fst).idxOf e = thunkIndex (es ++ [e]) e := by
      unfold thunkIndex
      rw [h.entries, hsame]
      conv_rhs => rw [← List.take_append_drop 128 es.eraseDups]
      rw [List.idxOf_append_of_mem hfirst]
    have hu : t.table[thunkIndex (es ++ [e]) e]? = some u := by
      rw [← hplace, ← lookup_eq_getElem?, hfound]
    refine ⟨?_, rfl, ?_⟩
    · unfold thunkAddr
      rw [if_pos ((hindex 128).mpr (by rw [hsame]; exact hfirst))]
      exact h.ptrs _ u hu
    · exact ⟨by rw [hsame]; exact h.entries, h.ptrs, h.code⟩
  | none =>
    have hfresh : e ∉ es.eraseDups.take 128 := by
      rw [← h.entries]
      exact lookup_eq_none.mp hfound
    dsimp only
    split_ifs with hfull
    · -- all places are taken
      have hlong : 128 ≤ es.eraseDups.length := by
        rw [hpage, hlength] at hfull
        unfold thunkSize at hfull
        omega
      have htake : (es ++ [e]).eraseDups.take 128 = es.eraseDups.take 128 := by
        rw [eraseDups_snoc]
        split_ifs
        · rfl
        · exact List.take_append_of_le_length hlong
      refine ⟨?_, rfl, ?_⟩
      · unfold thunkAddr
        rw [if_neg]
        rw [hindex, htake]
        exact hfresh
      · exact ⟨by rw [htake]; exact h.entries, h.ptrs, h.code⟩
    · have hshort : es.eraseDups.length < 128 := by
        rw [hpage, hlength] at hfull
        unfold thunkSize at hfull
        omega
      have hlen : t.table.length = es.eraseDups.length := by omega
      rw [List.take_of_length_le hshort.le] at hfresh
      have hnew : (es ++ [e]).eraseDups = es.eraseDups ++ [e] := by
        rw [eraseDups_snoc, if_neg fun hmem => hfresh (List.mem_eraseDups.mpr hmem)]
      have hplace : thunkIndex (es ++ [e]) e = t.table.length := by
        unfold thunkIndex
        rw [hnew, List.idxOf_append_of_notMem hfresh, hlen]
        simp
      refine ⟨?_, rfl, ?_⟩
      · unfold thunkAddr
        rw [hplace, if_pos (by omega)]
      · exact h.append hshort (fun hmem => hfresh (List.mem_eraseDups.mpr hmem)) _

def listing (c e : UInt64) : List (Instr × ℕ) :=
  [(.imm .r10 c, 10), (.imm .r11 e, 10), (.imm .rax (mbOrg + 0x200), 10), (.jumpTo .rax, 2)]

theorem decode_imm (c e : UInt64) (l : List UInt8) :
    decode ([0x49, 0xba] ++ le64 c ++ l) = some (.imm .r10 c, 10) ∧
    decode ([0x49, 0xbb] ++ le64 e ++ l) = some (.imm .r11 e, 10) ∧
      decode ([0x48, 0xb8] ++ le64 e ++ l) = some (.imm .rax e, 10) := by
  have h : ∀ v, UInt64.ofNat (leDigits ((le64 v ++ l).take 8)) = v := fun v => by rw [take_le64, leDigits_le64]
  refine ⟨Eq.trans rfl (?_ : some (Instr.imm .r10 (UInt64.ofNat (leDigits ((le64 c ++ l).take 8))), 10) = _),
    Eq.trans rfl (?_ : some (Instr.imm .r11 (UInt64.ofNat (leDigits ((le64 e ++ l).take 8))), 10) = _),
    Eq.trans rfl (?_ : some (Instr.imm .rax (UInt64.ofNat (leDigits ((le64 e ++ l).take 8))), 10) = _)⟩
  · rw [h]
  · rw [h]
  · rw [h]

theorem decode_jumpTo (l : List UInt8) : decode ([0xff, 0xe0] ++ l) = some (.jumpTo .rax, 2) := by
  have hop : decode ([0xff, 0xe0] ++ l) = decodeOp false (rexOf 0) (0xff :: 0xe0 :: l) := rfl
  have hoperand : operandOf false (rexOf 0) (0xe0 :: l) = some (.reg .rax, 1) := rfl
  have hfield : fieldOf (0xe0 :: l) = 4 := by
    rw [fieldOf, List.headD_cons]
    decide
  rw [hop, decodeOp, hoperand, hfield]
  rfl

theorem lists {k : ℕ} {u : UInt64 × UInt64} (h : t.Serves c es) (hend : t.mem.start.toNat + 4096 ≤ 2 ^ 64)
    (hu : t.table[k]? = some u) : Lists t.code (t.mem.start + UInt64.ofNat (k * thunkSize)) (listing c u.1) := by
  have hbytes := h.code k u hu
  have hk : k < 128 := by
    have hlen := h.length_table
    have := (List.getElem?_eq_some_iff.mp hu).1
    omega
  have hpage : t.mem.size.toNat = 4096 := by
    rw [t.page_size]
    rfl
  have hplace : ∀ i, i < 32 → (t.mem.start + UInt64.ofNat (k * thunkSize) + UInt64.ofNat i).toNat =
      t.mem.start.toNat + k * 32 + i := by
    intro i hi
    have h1 : (UInt64.ofNat (k * thunkSize + i)).toNat = k * 32 + i :=
      UInt64.toNat_ofNat_of_lt' (by rw [show UInt64.size = 2 ^ 64 from rfl, thunkSize]; omega)
    rw [UInt64.add_assoc, ← UInt64.ofNat_add, UInt64.toNat_add, h1]
    omega
  -- the bytes of each instruction, wherever the page goes on behind it
  have hpart : ∀ i l (v : Instr × ℕ), i + l.length ≤ 32 → 0 < l.length → l.length ≤ 16 →
      ((thunkBytes u.1 c).drop i).take l.length = l → (∀ rest, decode (l ++ rest) = some v) →
      decode (t.code (t.mem.start + UInt64.ofNat (k * thunkSize) + UInt64.ofNat i)) = some v := by
    intro i l v hi hpos h16 hl hdecode
    have hi' := hplace i (by omega)
    apply decode_memCode (by omega) (by omega) hpos h16 _ hdecode
    rw [bytesAt_part (show i + l.length ≤ thunkSize from hi), hbytes, hl]
  have hsum : ∀ i j : ℕ, t.mem.start + UInt64.ofNat (k * thunkSize) + UInt64.ofNat i + UInt64.ofNat j =
      t.mem.start + UInt64.ofNat (k * thunkSize) + UInt64.ofNat (i + j) := by
    intro i j
    rw [UInt64.add_assoc, ← UInt64.ofNat_add]
  have h0 := hpart 0 ([0x49, 0xba] ++ le64 c) (.imm .r10 c, 10) (by simp) (by simp) (by simp) (by simp [thunkBytes])
    fun rest => (decode_imm c u.1 rest).1
  have h1 := hpart 10 ([0x49, 0xbb] ++ le64 u.1) (.imm .r11 u.1, 10) (by simp) (by simp) (by simp) (by simp [thunkBytes])
    fun rest => (decode_imm c u.1 rest).2.1
  have h2 := hpart 20 ([0x48, 0xb8] ++ le64 (mbOrg + 0x200)) (.imm .rax (mbOrg + 0x200), 10) (by simp) (by simp) (by simp)
    (by simp [thunkBytes, le64]) fun rest => (decode_imm c (mbOrg + 0x200) rest).2.2
  have h3 := hpart 30 [0xff, 0xe0] (.jumpTo .rax, 2) (by simp) (by simp) (by simp) (by simp [thunkBytes, le64])
    decode_jumpTo
  rw [show UInt64.ofNat 0 = 0 from rfl, UInt64.add_zero] at h0
  refine ⟨h0, h1, ?_, ?_, trivial⟩
  · rw [hsum]
    exact h2
  · rw [hsum, hsum]
    exact h3

theorem runs {s : State} (h : t.Serves c es) (hend : t.mem.start.toNat + 4096 ≤ 2 ^ 64)
    (hout : t.code (mbOrg + 0x200) = []) (he : thunkIndex es e < 128) (hmem : e ∈ es)
    (hrip : s.rip = thunkAddr t.mem.start es e) :
    ∃ s', leave t.code 5 s = .ok s' ∧ s'.rip = mbOrg + 0x200 ∧ s'.reg .r10 = c ∧ s'.reg .r11 = e ∧
      KeepsRegs [.rax, .r10, .r11] s s' ∧ s'.mem = s.mem ∧ s'.gsBase = s.gsBase := by
  obtain ⟨u, hu, hue⟩ : ∃ u, t.table[thunkIndex es e]? = some u ∧ u.1 = e := by
    have hlen := h.length_table
    have hin : thunkIndex es e < es.eraseDups.length := List.idxOf_lt_length_of_mem (List.mem_eraseDups.mpr hmem)
    have hlt : thunkIndex es e < t.table.length := by omega
    refine ⟨t.table[thunkIndex es e], List.getElem?_eq_getElem hlt, ?_⟩
    have hentry : (t.table.map Prod.fst)[thunkIndex es e]? = some e := by
      rw [h.entries, List.getElem?_take_of_lt he]
      rw [List.getElem?_eq_getElem hin]
      simp [thunkIndex, List.getElem_idxOf]
    rw [List.getElem?_map, List.getElem?_eq_getElem hlt] at hentry
    exact Option.some.inj hentry
  have hlists := h.lists hend hu
  unfold thunkAddr at hrip
  rw [if_pos he] at hrip
  rw [← hrip, hue] at hlists
  have hblock : ∃ s', execAll s (listing c e) = .ok s' ∧ s'.rip = mbOrg + 0x200 ∧ s'.reg .r10 = c ∧ s'.reg .r11 = e ∧
      KeepsRegs [.rax, .r10, .r11] s s' ∧ s'.mem = s.mem ∧ s'.gsBase = s.gsBase := by
    refine ⟨_, rfl, ?_, ?_, ?_, ?_, rfl, rfl⟩
    · simp [State.set]
    · simp [State.set]
    · simp [State.set]
    · intro r hr
      simp only [List.mem_cons, List.not_mem_nil, or_false, not_or] at hr
      simp [State.set, hr]
  obtain ⟨s', hexec, hrip', hrest⟩ := hblock
  have hstraight : ∀ u ∈ (listing c e).dropLast, u.1.straight = true := by
    simp only [listing, List.dropLast_cons_cons, List.dropLast_singleton, List.forall_mem_cons]
    exact ⟨rfl, rfl, rfl, List.forall_mem_nil _⟩
  have hrun := leave_block hlists hstraight hexec 1
  exact ⟨s', hrun.trans (leave_out (by rw [hrip']; exact hout) 0), hrip', hrest⟩

end Thunks.Serves

def AddrRequest.target (f : Elf) : AddrRequest → Option UInt64
  | .procAddr name => if elfProcAddr f name ≠ 0 then some (elfProcAddr f name) else none
  | .callinAddr ptr => some ptr

theorem serve_eq (f : Elf) (t : Thunks) (c : UInt64) (r : AddrRequest) :
    r.serve f t c = (r.target f).elim (0, t) fun v => thunksGet t v c := by
  cases r with
  | procAddr name =>
    by_cases h : elfProcAddr f name = 0 <;> simp [AddrRequest.serve, hostProcAddr, AddrRequest.target, h]
  | callinAddr ptr => rfl

theorem serveAll_serves (f : Elf) (rs : List AddrRequest) (h : t.Serves c es) :
    (serveAll f c t rs).1 = rs.map (fun r => (r.target f).elim 0 (thunkAddr t.mem.start (es ++ rs.filterMap (·.target f)))) ∧
      (serveAll f c t rs).2.mem = t.mem ∧ (serveAll f c t rs).2.Serves c (es ++ rs.filterMap (·.target f)) := by
  induction rs generalizing t es with
  | nil =>
    rw [List.filterMap_nil, List.append_nil]
    exact ⟨rfl, rfl, h⟩
  | cons r rs ih =>
    rw [List.filterMap_cons]
    unfold serveAll
    rw [serve_eq]
    cases hr : r.target f with
    | none =>
      obtain ⟨h1, h2, h3⟩ := ih h
      refine ⟨?_, h2, h3⟩
      rw [List.map_cons, hr]
      exact congrArg _ h1
    | some v =>
      obtain ⟨hanswer, hmem, hserves⟩ := h.get v
      obtain ⟨h1, h2, h3⟩ := ih hserves
      rw [hmem, List.append_assoc, List.singleton_append] at h1
      rw [List.append_assoc, List.singleton_append] at h3
      refine ⟨?_, h2.trans hmem, h3⟩
      rw [List.map_cons, hr]
      have hkeep : thunkAddr t.mem.start (es ++ v :: rs.filterMap (·.target f)) v = thunkAddr t.mem.start (es ++ [v]) v := by
        unfold thunkAddr
        rw [← List.singleton_append, ← List.append_assoc, thunkIndex_append (by simp)]
      exact congrArg₂ List.cons (hanswer.trans hkeep.symm) h1

/-- Whatever addresses a host asks for, the first 128 entries have one thunk each, at the same address for every
request, and each of them still gets to its entry behind all requests. -/
theorem thunks_serve_all (start : UInt64) (page : Memory) (f : Elf) (c : UInt64) (rs : List AddrRequest)
    (hend : start.toNat + 4096 ≤ 2 ^ 64)
    (hout : mbOrg.toNat + 0x200 < start.toNat ∨ start.toNat + 4096 ≤ mbOrg.toNat + 0x200) :
    (serveAll f c (thunksNew start page) rs).1 =
        rs.map (fun r => (r.target f).elim 0 (thunkAddr start (rs.filterMap (·.target f)))) ∧
      ∀ v ∈ rs.filterMap (·.target f), thunkIndex (rs.filterMap (·.target f)) v < 128 →
        ∀ s : State, s.rip = thunkAddr start (rs.filterMap (·.target f)) v →
          ∃ s', leave (serveAll f c (thunksNew start page) rs).2.code 5 s = .ok s' ∧ s'.rip = mbOrg + 0x200 ∧
            s'.reg .r10 = c ∧ s'.reg .r11 = v ∧ KeepsRegs [.rax, .r10, .r11] s s' ∧ s'.mem = s.mem ∧
            s'.gsBase = s.gsBase := by
  obtain ⟨hanswers, hmem, hserves⟩ := serveAll_serves f rs (serves_new start page c)
  rw [List.nil_append] at hanswers hserves
  refine ⟨hanswers, ?_⟩
  intro v hv hindex s hrip
  have hstart : (serveAll f c (thunksNew start page) rs).2.mem.start = start := by rw [hmem]; rfl
  have hsize : (serveAll f c (thunksNew start page) rs).2.mem.size.toNat = 4096 := by rw [hmem]; rfl
  have hexit : (mbOrg + 0x200).toNat = mbOrg.toNat + 0x200 := rfl
  apply hserves.runs
  · rw [hstart]
    exact hend
  · unfold Thunks.code memCode
    rw [if_neg]
    rw [hstart, hsize, hexit]
    omega
  · exact hindex
  · exact hv
  · rw [hstart]
    exact hrip

theorem thunks_serve_three : ∃ (f : Elf) (t : Thunks),
    serveAll f 0x1000 (thunksNew 0x700000 fun _ => 0)
      [.callinAddr 0x36f00000100, .procAddr (ascii "f"), .procAddr (ascii "g"), .callinAddr 0x36f00000100] =
        ([0x700000, 0x700020, 0, 0x700000], t) ∧
      ∀ s : State, s.rip = 0x700020 → ∃ s', leave t.code 5 s = .ok s' ∧ s'.reg .r11 = 0x36f00000200 := by
  let f : Elf := ⟨[], [⟨ascii "f", 0x36f00000200, 16⟩], 0, fun _ => 0⟩
  obtain ⟨hanswers, hruns⟩ := thunks_serve_all 0x700000 (fun _ => 0) f 0x1000
    [.callinAddr 0x36f00000100, .procAddr (ascii "f"), .procAddr (ascii "g"), .callinAddr 0x36f00000100]
    (by decide) (by decide)
  refine ⟨f, _, Prod.ext (hanswers.trans (by decide +kernel)) rfl, ?_⟩
  intro s hs
  obtain ⟨s', hrun, -, -, hr11, -⟩ := hruns 0x36f00000200 (by decide +kernel) (by decide +kernel) s
    (hs.trans (by decide +kernel))
  exact ⟨s', hrun, hr11⟩

end Requests

end MiniBox
