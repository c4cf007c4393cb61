import MiniBox.BaselineInvariant
import MiniBox.Extents
import MiniBox.LinearTables

/-!
The process around the blocks: the mappings of the kernel, the registry of the fault handler, and any number of blocks
that come and go.
-/

namespace MiniBox

open ByteStream Extents Outcomes LinearTables Relation

inductive ProcessEnd
  | crash (c : Crash)
  | abort (text : String)

inductive Area
  | guest (h : ℕ)
  | mirror (h : ℕ)
  deriving DecidableEq

structure Foreign where
  access : Access
  data : PageData

def Foreign.store (o : Fin 4096) (v : UInt8) (f : Foreign) : Foreign := { f with data := Function.update f.data o v }

/-- The blocks by their pointers, the registry `g_blocks`, the first page of each mirror, and the pages that the kernel
has mapped. -/
structure Process where
  blocks : ℕ → Option Block
  registered : List ℕ
  mirror : ℕ → ℕ
  table : ℕ → Option (Cell Area Foreign)

namespace Process

def empty (others : ℕ → Option Foreign) : Process := ⟨fun _ => none, [], fun _ => 0, fun n => (others n).map .other⟩

def setBlock (p : Process) (h : ℕ) (b : Block) : Process := { p with blocks := Function.update p.blocks h (some b) }

def firstPage (r : Range) : ℕ := r.start.toNat / 4096

def pageNumber (a : UInt64) : ℕ := a.toNat / 4096

def userPages : ℕ := 2 ^ 35

/-- With `MAP_FIXED_NOREPLACE`, for a range that does not start at zero. -/
def palMapHandle (p : Process) (h : ℕ) (r : Range) : Option Process :=
  if r.npages = 0 ∨ userPages < firstPage r + r.npages ∨ ∃ i < r.npages, (p.table (firstPage r + i)).isSome = true then none
  else some { p with table := put (.guest h) (firstPage r) r.npages p.table }

def palUnmap (p : Process) (first count : ℕ) : Process := { p with table := clear first count p.table }

def palProtect (p : Process) (n : ℕ) (prot : Prot) : Option Process :=
  match p.table n with
  | some (.of (.guest h) i) => (p.blocks h).map fun b => p.setBlock h (b.setPage i ((b.pages i).protect prot))
  | some (.of (.mirror _) _) => none
  | some (.other _) => none
  | none => none

def tripguardRegister (p : Process) (h : ℕ) : Except ProcessEnd Process :=
  if p.registered.length < 64 then .ok { p with registered := p.registered ++ [h] }
  else .error (.abort "miniBox: too many blocks registered\n")

def tripguardUnregister (p : Process) (h : ℕ) : Process := { p with registered := fillHole h p.registered }

def mapFailure (r : Range) : String :=
  "miniBox: FATAL failed to map block at " ++ String.ofList (Nat.toDigits 16 r.start.toNat) ++ " (slice busy?)\n"

/-- `mb_block_new`, for a mirror that the kernel places at the page `m`. -/
def addBlock (p : Process) (h : ℕ) (b : Block) (m : ℕ) : Process :=
  { p with
    blocks := Function.update p.blocks h (some b)
    mirror := Function.update p.mirror h m
    table := put (.mirror h) m b.npages p.table }

def activate (p : Process) (h : ℕ) : Except ProcessEnd Process :=
  match p.blocks h with
  | none => .error (.crash .nullDeref)
  | some b =>
    if b.active then .ok p
    else if b.swappedIn then .ok (p.setBlock h { b with active := true })
    else
      match p.palMapHandle h b.addr with
      | none => .error (.abort (mapFailure b.addr))
      | some p => do
        let p ← p.tripguardRegister h
        match { b with swappedIn := true }.refreshAll with
        | .error c => .error (.crash c)
        | .ok b => .ok (p.setBlock h { b with active := true })

def free (p : Process) (h : ℕ) : Process :=
  match p.blocks h with
  | none => p
  | some b =>
    let p := if b.swappedIn then (p.tripguardUnregister h).palUnmap (firstPage b.addr) b.npages else p
    { p.palUnmap (p.mirror h) b.npages with blocks := Function.update p.blocks h none }

/-- The fault handler; the block is the first registered one that contains the address. -/
def trip (p : Process) (a : UInt64) : Except ProcessEnd (Bool × Process) :=
  match p.registered.find? fun h => (p.blocks h).any fun b => b.addr.contains a with
  | none => .ok (false, p)
  | some h =>
    match p.blocks h with
    | none => .error (.crash .nullDeref)
    | some b =>
      if (b.pages (b.pageOf a)).isWritable then
        let page := { (b.pages (b.pageOf a)).maybeSnapshot with dirty := true }
        match (p.setBlock h (b.setPage (b.pageOf a) page)).palProtect (pageNumber a) page.nativeProt with
        | none => .error (.crash .trap)
        | some p => .ok (true, p)
      else .error (.crash .trap)

/-- The store of the hardware, unless it faults. The mirrors are always writable. -/
def store (p : Process) (a : UInt64) (v : UInt8) : Option Process :=
  match p.table (pageNumber a) with
  | none => none
  | some (.of (.guest h) i) => (p.blocks h).bind fun b =>
      if (b.pages i).native.write then some (p.setBlock h (b.setPage i ((b.pages i).store (offsetOf a) v))) else none
  | some (.of (.mirror h) i) => (p.blocks h).map fun b =>
      p.setBlock h (b.setPage i ((b.pages i).store (offsetOf a) v))
  | some (.other f) =>
    if f.access.write then
      some { p with table := Function.update p.table (pageNumber a) (some (.other (f.store (offsetOf a) v))) }
    else none

def write (p : Process) (a : UInt64) (v : UInt8) : Except ProcessEnd Process :=
  match p.store a v with
  | some p => .ok p
  | none => do
    let u ← p.trip a
    match if u.1 then u.2.store a v else none with
    | some p => .ok p
    | none => .error (.crash .segv)

def load (p : Process) (a : UInt64) : Option UInt8 :=
  match p.table (pageNumber a) with
  | none => none
  | some (.of (.guest h) i) => (p.blocks h).bind fun b =>
      if (b.pages i).native.read then some ((b.pages i).data (offsetOf a)) else none
  | some (.of (.mirror h) i) => (p.blocks h).map fun b => (b.pages i).data (offsetOf a)
  | some (.other f) => if f.access.read then some (f.data (offsetOf a)) else none

def code (p : Process) (a : UInt64) : Option UInt8 :=
  match p.table (pageNumber a) with
  | none => none
  | some (.of (.guest h) i) => (p.blocks h).bind fun b =>
      if (b.pages i).native.exec then some ((b.pages i).data (offsetOf a)) else none
  | some (.of (.mirror _) _) => none
  | some (.other f) => if f.access.exec then some (f.data (offsetOf a)) else none

def orFault : Option UInt8 → Except ProcessEnd UInt8
  | none => .error (.crash .segv)
  | some v => .ok v

def read (p : Process) (a : UInt64) : Except ProcessEnd UInt8 := orFault (p.load a)

def fetch (p : Process) (a : UInt64) : Except ProcessEnd UInt8 := orFault (p.code a)

def mem (p : Process) (h : ℕ) (op : MemOp) : Except ProcessEnd (ℤ × Process) :=
  match p.blocks h with
  | none => .error (.crash .nullDeref)
  | some b =>
    match op.run b with
    | .error c => .error (.crash c)
    | .ok (r, b) => .ok (r, p.setBlock h b)

/-- What the hosts and their guests do. A block at address zero would be mapped elsewhere, the host copies into a block
and hides pages only before the seal, nobody writes to a mirror, and other mappings keep off the pages of the blocks. -/
inductive Step : Process → Process → Prop
  | create {p : Process} {h m : ℕ} {addr : Range} {b : Block} : p.blocks h = none → addr.start ≠ 0 →
      Block.new addr = .ok (some b) → (∀ n, m ≤ n ∧ n < m + b.npages → p.table n = none) → m + b.npages ≤ userPages →
      Step p (p.addBlock h b m)
  | activate {p p' : Process} {h : ℕ} : p.activate h = .ok p' → Step p p'
  | deactivate {p : Process} {h : ℕ} {b : Block} : p.blocks h = some b → Step p (p.setBlock h b.deactivate)
  | free {p : Process} (h : ℕ) : Step p (p.free h)
  | write {p p' : Process} {a : UInt64} {v : UInt8} : (∀ h i, p.table (pageNumber a) ≠ some (.of (.mirror h) i)) →
      p.write a v = .ok p' → Step p p'
  | mem {p p' : Process} {h : ℕ} {op : MemOp} {r : ℤ} : op.NoWrap → p.mem h op = .ok (r, p') → Step p p'
  | markInvisible {p : Process} {h : ℕ} {b b' : Block} {addr : Range} {r : ℤ} : p.blocks h = some b →
      b.sealed = false → addr.NoWrap → b.markInvisible addr = .ok (r, b') → Step p (p.setBlock h b')
  | copyFromExternal {p : Process} {h : ℕ} {b b' : Block} {src : List UInt8} {start : UInt64} {r : ℤ} :
      p.blocks h = some b → b.sealed = false → start.toNat + src.length < 2 ^ 64 →
      b.copyFromExternal src start = .ok (r, b') → Step p (p.setBlock h b')
  | sealBlock {p : Process} {h : ℕ} {b b' : Block} : p.blocks h = some b → b.sealBlock = .ok (0, b') →
      Step p (p.setBlock h b')
  | load {p : Process} {h : ℕ} {b b' : Block} {s s' : Source} : p.blocks h = some b →
      b.loadState s = .ok (0, b', s') → Step p (p.setBlock h b')
  | elsewhere {p : Process} {table : ℕ → Option (Cell Area Foreign)} :
      (∀ n k i, table n = some (.of k i) ↔ p.table n = some (.of k i)) → Step p { p with table := table }

def extent (p : Process) : Area → Option (ℕ × ℕ)
  | .guest h => (p.blocks h).bind fun b => if b.swappedIn then some (firstPage b.addr, b.npages) else none
  | .mirror h => (p.blocks h).map fun b => (p.mirror h, b.npages)

structure Sane (p : Process) : Prop where
  nodup : p.registered.Nodup
  room : p.registered.length ≤ 64
  registered : ∀ h, h ∈ p.registered ↔ (p.extent (.guest h)).isSome = true
  lays : Lays p.extent p.table
  low : ∀ k e, p.extent k = some e → e.1 + e.2 ≤ userPages

section Owners

variable {p : Process} {h : ℕ} {b : Block} {a : UInt64}

@[simp] theorem setBlock_self (p : Process) (h : ℕ) (b : Block) : (p.setBlock h b).blocks h = some b := by
  simp [setBlock]

@[simp] theorem setBlock_setBlock (p : Process) (h : ℕ) (b b' : Block) :
    (p.setBlock h b).setBlock h b' = p.setBlock h b' := by
  simp [setBlock]

theorem extent_guest (hb : p.blocks h = some b) :
    p.extent (.guest h) = if b.swappedIn then some (firstPage b.addr, b.npages) else none := by
  simp [extent, hb]

theorem extent_mirror (hb : p.blocks h = some b) : p.extent (.mirror h) = some (p.mirror h, b.npages) := by
  simp [extent, hb]

theorem extent_none (hb : p.blocks h = none) : p.extent (.guest h) = none ∧ p.extent (.mirror h) = none := by
  simp [extent, hb]

theorem guest_some {e : ℕ × ℕ} (he : p.extent (.guest h) = some e) :
    ∃ b, p.blocks h = some b ∧ b.swappedIn = true ∧ e = (firstPage b.addr, b.npages) := by
  obtain ⟨b, hb, he⟩ := Option.bind_eq_some_iff.mp he
  split_ifs at he with hs
  exact ⟨b, hb, hs, (Option.some.inj he).symm⟩

theorem extent_update (p p' : Process) (h : ℕ) (hblocks : ∀ k, k ≠ h → p'.blocks k = p.blocks k)
    (hmirror : ∀ k, k ≠ h → p'.mirror k = p.mirror k) :
    p'.extent = Function.update (Function.update p.extent (.guest h) (p'.extent (.guest h))) (.mirror h)
      (p'.extent (.mirror h)) := by
  funext k
  cases k with
  | guest k =>
    by_cases hk : k = h
    · subst hk
      simp
    · simp [hk, extent, hblocks k hk]
  | mirror k =>
    by_cases hk : k = h
    · subst hk
      simp
    · simp [hk, extent, hblocks k hk, hmirror k hk]

theorem mapped_iff (hlow : firstPage b.addr + b.npages ≤ userPages) :
    b.mapped a = true ↔ b.swappedIn = true ∧ b.addr.start.toNat ≤ a.toNat ∧
      a.toNat < b.addr.start.toNat + b.addr.size.toNat := by
  have hstart := (eq_alignDown_iff _).mp b.span.start_aligned
  have hsize := (eq_alignDown_iff _).mp b.span.size_aligned
  rw [Block.npages, npages_eq] at hlow
  unfold firstPage userPages at hlow
  have hend : b.addr.rangeEnd.toNat = b.addr.start.toNat + b.addr.size.toNat := by
    rw [Range.rangeEnd, UInt64.toNat_add]
    omega
  simp only [Block.mapped, Range.contains, Bool.and_eq_true, decide_eq_true_eq, UInt64.le_iff_toNat_le,
    UInt64.lt_iff_toNat_lt, hend]

theorem Sane.table_mapped (hs : p.Sane) (hb : p.blocks h = some b) (hm : b.mapped a = true) :
    p.table (pageNumber a) = some (.of (.guest h) (b.pageOf a)) := by
  have hswap : b.swappedIn = true := by
    rw [Block.mapped, Bool.and_eq_true] at hm
    exact hm.1
  have hextent : p.extent (.guest h) = some (firstPage b.addr, b.npages) := by rw [extent_guest hb, if_pos hswap]
  have hlt := pageOf_lt hm
  obtain ⟨-, h1, h2⟩ := (mapped_iff (hs.low _ _ hextent)).mp hm
  have hstart := (eq_alignDown_iff _).mp b.span.start_aligned
  rw [hs.lays]
  refine ⟨_, hextent, hlt, ?_⟩
  rw [pageOf_eq h1, pageNumber, firstPage]
  omega

theorem Sane.mapped_of_table (hs : p.Sane) {i : ℕ} (ht : p.table (pageNumber a) = some (.of (.guest h) i)) :
    ∃ b, p.blocks h = some b ∧ b.mapped a = true := by
  obtain ⟨e, he, hi, hn⟩ := (hs.lays _ _ _).mp ht
  have hlow := hs.low _ e he
  obtain ⟨b, hb, hswap, rfl⟩ := guest_some he
  refine ⟨b, hb, (mapped_iff hlow).mpr ⟨hswap, ?_⟩⟩
  have hstart := (eq_alignDown_iff _).mp b.span.start_aligned
  have hsize := (eq_alignDown_iff _).mp b.span.size_aligned
  dsimp only at hi hn
  rw [Block.npages, npages_eq] at hi
  unfold firstPage pageNumber at hn
  omega

theorem Sane.unowned (hs : p.Sane) (hno : ∀ h i, p.table (pageNumber a) ≠ some (.of (.guest h) i)) (h : ℕ) (b : Block)
    (hb : p.blocks h = some b) : b.mapped a = false := by
  by_contra hm
  exact hno h _ (hs.table_mapped hb (Bool.eq_true_of_not_eq_false hm))

theorem Sane.owner_unique (hs : p.Sane) {h' : ℕ} {b' : Block} (hb : p.blocks h = some b) (hm : b.mapped a = true)
    (hb' : p.blocks h' = some b') (hm' : b'.mapped a = true) : h' = h := by
  have heq := (hs.table_mapped hb hm).symm.trans (hs.table_mapped hb' hm')
  simp only [Option.some.injEq, Cell.of.injEq, Area.guest.injEq] at heq
  exact heq.1.symm

theorem Sane.mem_registered (hs : p.Sane) (hb : p.blocks h = some b) : h ∈ p.registered ↔ b.swappedIn = true := by
  rw [hs.registered, extent_guest hb]
  split_ifs with hswap
  · simp [hswap]
  · simp [hswap]

theorem exists_of_any {α : Type} {o : Option α} {q : α → Bool} (hany : o.any q = true) :
    ∃ c, o = some c ∧ q c = true := by
  cases o with
  | none => cases hany
  | some c => exact ⟨c, rfl, hany⟩

theorem Sane.find_owner (hs : p.Sane) (hb : p.blocks h = some b) (hm : b.mapped a = true) :
    p.registered.find? (fun h => (p.blocks h).any fun b => b.addr.contains a) = some h := by
  rw [Block.mapped, Bool.and_eq_true] at hm
  have hmem := (hs.mem_registered hb).mpr hm.1
  cases hfind : p.registered.find? (fun h => (p.blocks h).any fun b => b.addr.contains a) with
  | none =>
    have := List.find?_eq_none.mp hfind h hmem
    simp [hb, hm.2] at this
  | some k =>
    have hany := List.find?_some hfind
    obtain ⟨c, hc, hcontains⟩ := exists_of_any hany
    have hswap := (hs.mem_registered hc).mp (List.mem_of_find?_eq_some hfind)
    rw [hs.owner_unique hb (a := a) (by rw [Block.mapped, hm.1, hm.2]; rfl) hc (by rw [Block.mapped, hswap, hcontains]; rfl)]

theorem Sane.trip_none (hs : p.Sane) (hno : ∀ h i, p.table (pageNumber a) ≠ some (.of (.guest h) i)) :
    p.trip a = .ok (false, p) := by
  have hfind : p.registered.find? (fun h => (p.blocks h).any fun b => b.addr.contains a) = none := by
    rw [List.find?_eq_none]
    intro k hk hany
    obtain ⟨c, hc, hcontains⟩ := exists_of_any hany
    have hm : c.mapped a = true := by rw [Block.mapped, (hs.mem_registered hc).mp hk, hcontains]; rfl
    exact hno k _ (hs.table_mapped hc hm)
  unfold Process.trip
  rw [hfind]

def onBlock (p : Process) (h : ℕ) : Except Crash Block → Except ProcessEnd Process
  | .ok b => .ok (p.setBlock h b)
  | .error c => .error (.crash c)

theorem setPage_setPage (b : Block) (i : ℕ) (q q' : Page) : (b.setPage i q).setPage i q' = b.setPage i q' := by
  simp [Block.setPage, Block.withPages]

theorem store_eq {i : ℕ} (ht : p.table (pageNumber a) = some (.of (.guest h) i)) (hb : p.blocks h = some b) (v : UInt8) :
    p.store a v = if (b.pages i).native.write then
      some (p.setBlock h (b.setPage i ((b.pages i).store (offsetOf a) v))) else none := by
  unfold Process.store
  rw [ht]
  dsimp only
  rw [hb]
  rfl

theorem palProtect_eq {i : ℕ} (ht : p.table (pageNumber a) = some (.of (.guest h) i)) (hb : p.blocks h = some b)
    (prot : Prot) :
    p.palProtect (pageNumber a) prot = some (p.setBlock h (b.setPage i ((b.pages i).protect prot))) := by
  unfold Process.palProtect
  rw [ht]
  dsimp only
  rw [hb]
  rfl

theorem Sane.trip_eq (hs : p.Sane) (hb : p.blocks h = some b) (hm : b.mapped a = true) :
    p.trip a = if (b.pages (b.pageOf a)).isWritable then
      .ok (true, p.setBlock h (b.setPage (b.pageOf a) (b.pages (b.pageOf a)).trip)) else .error (.crash .trap) := by
  unfold Process.trip
  rw [hs.find_owner hb hm]
  dsimp only
  rw [hb]
  dsimp only
  split_ifs with hw
  · rw [palProtect_eq (p := p.setBlock h _) (hs.table_mapped hb hm) (setBlock_self _ _ _)]
    dsimp only
    rw [setBlock_setBlock, setPage_setPage, setPage_pages, Function.update_self]
    rfl
  · rfl

theorem Sane.write_eq (hs : p.Sane) (hb : p.blocks h = some b) (hm : b.mapped a = true) (v : UInt8) :
    p.write a v = p.onBlock h (b.guestWrite a v) := by
  have htable := hs.table_mapped hb hm
  rw [guestWrite_eq, if_pos hm]
  unfold Process.write
  rw [store_eq htable hb]
  cases hw : (b.pages (b.pageOf a)).native.write with
  | true =>
    rw [Bool.true_or, if_pos rfl, if_pos rfl, Page.written, if_pos hw]
    rfl
  | false =>
    rw [if_neg Bool.false_ne_true, hs.trip_eq hb hm, Bool.false_or]
    split_ifs with hwr
    · have hstore := store_eq (p := p.setBlock h (b.setPage (b.pageOf a) (b.pages (b.pageOf a)).trip)) htable
        (setBlock_self _ _ _) v
      rw [setPage_pages, Function.update_self, if_pos (trip_native _ hwr), setBlock_setBlock, setPage_setPage] at hstore
      dsimp only
      rw [ok_bind]
      dsimp only
      rw [if_pos rfl, hstore, Page.written, if_neg (by simp [hw])]
      rfl
    · rfl

theorem Sane.read_eq (hs : p.Sane) (hb : p.blocks h = some b) (hm : b.mapped a = true) :
    p.read a = (b.guestRead a).mapError .crash := by
  unfold Process.read load Block.guestRead
  rw [hs.table_mapped hb hm, hm, Bool.true_and]
  dsimp only
  rw [hb, Option.bind_some]
  split_ifs
  · rfl
  · rfl

theorem Sane.fetch_eq (hs : p.Sane) (hb : p.blocks h = some b) (hm : b.mapped a = true) :
    p.fetch a = (b.guestFetch a).mapError .crash := by
  unfold Process.fetch code Block.guestFetch
  rw [hs.table_mapped hb hm, hm, Bool.true_and]
  dsimp only
  rw [hb, Option.bind_some]
  split_ifs
  · rfl
  · rfl

theorem Sane.write_fault (hs : p.Sane) (hno : ∀ h i, p.table (pageNumber a) ≠ some (.of (.guest h) i)) {v : UInt8}
    (hstore : p.store a v = none) : p.write a v = .error (.crash .segv) := by
  unfold Process.write
  rw [hstore, hs.trip_none hno]
  rfl

theorem Sane.write_other (hs : p.Sane) {f : Foreign} (ht : p.table (pageNumber a) = some (.other f)) (v : UInt8) :
    p.write a v = if f.access.write then
      .ok { p with table := Function.update p.table (pageNumber a) (some (.other (f.store (offsetOf a) v))) }
      else .error (.crash .segv) := by
  have hstore : p.store a v = if f.access.write then
      some { p with table := Function.update p.table (pageNumber a) (some (.other (f.store (offsetOf a) v))) }
      else none := by
    unfold Process.store
    rw [ht]
  by_cases hw : f.access.write = true
  · rw [if_pos hw] at hstore ⊢
    unfold Process.write
    rw [hstore]
  · rw [if_neg hw] at hstore ⊢
    apply hs.write_fault _ hstore
    intro h i hguest
    rw [ht] at hguest
    cases hguest

theorem Sane.write_mirror (hs : p.Sane) {i : ℕ} (ht : p.table (pageNumber a) = some (.of (.mirror h) i)) :
    ∃ b, p.blocks h = some b ∧ i < b.npages ∧ p.read a = .ok ((b.pages i).data (offsetOf a)) ∧
      ∀ v, p.write a v = .ok (p.setBlock h (b.setPage i ((b.pages i).store (offsetOf a) v))) := by
  obtain ⟨e, he, hi, -⟩ := (hs.lays _ _ _).mp ht
  obtain ⟨b, hb, rfl⟩ := Option.map_eq_some_iff.mp he
  refine ⟨b, hb, hi, ?_, ?_⟩
  · unfold Process.read load
    rw [ht]
    dsimp only
    rw [hb]
    rfl
  · intro v
    unfold Process.write Process.store
    rw [ht]
    dsimp only
    rw [hb]
    rfl

end Owners

section Steps

variable {p p' : Process} {h : ℕ} {b b' : Block}

theorem Sane.congr (hs : p.Sane) (hregistered : p'.registered = p.registered)
    (htable : ∀ n k i, p'.table n = some (.of k i) ↔ p.table n = some (.of k i)) (hextent : p'.extent = p.extent) :
    p'.Sane := by
  refine ⟨?_, ?_, ?_, ?_, ?_⟩
  · rw [hregistered]
    exact hs.nodup
  · rw [hregistered]
    exact hs.room
  · rw [hregistered, hextent]
    exact hs.registered
  · rw [hextent]
    exact hs.lays.congr htable
  · rw [hextent]
    exact hs.low

theorem Sane.setBlock (hs : p.Sane) (hb : p.blocks h = some b) (haddr : b'.addr = b.addr)
    (hswap : b'.swappedIn = b.swappedIn) : (p.setBlock h b').Sane := by
  refine hs.congr rfl (fun _ _ _ => Iff.rfl) ?_
  have hn : b'.npages = b.npages := by
    rw [Block.npages, haddr]
    rfl
  rw [extent_update p (p.setBlock h b') h (fun k hk => by simp [Process.setBlock, hk]) (fun _ _ => rfl),
    extent_guest (setBlock_self p h b'), extent_mirror (setBlock_self p h b'), haddr, hswap, hn, ← extent_guest hb]
  rw [Function.update_eq_self, show (p.setBlock h b').mirror h = p.mirror h from rfl, ← extent_mirror hb,
    Function.update_eq_self]

theorem low_update {f : Area → Option (ℕ × ℕ)} (hf : ∀ k e, f k = some e → e.1 + e.2 ≤ userPages) (k : Area)
    {o : Option (ℕ × ℕ)} (ho : ∀ e, o = some e → e.1 + e.2 ≤ userPages) :
    ∀ k' e, Function.update f k o k' = some e → e.1 + e.2 ≤ userPages :=
  (Function.forall_update_iff f fun _ o => ∀ e, o = some e → e.1 + e.2 ≤ userPages).mpr ⟨ho, fun k' _ => hf k'⟩

theorem Sane.create (hs : p.Sane) (hnone : p.blocks h = none) (hswap : b.swappedIn = false) {m : ℕ}
    (hfree : ∀ n, m ≤ n ∧ n < m + b.npages → p.table n = none) (hlow : m + b.npages ≤ userPages) :
    (p.addBlock h b m).Sane := by
  have hself : (p.addBlock h b m).blocks h = some b := Function.update_self _ _ _
  have hextent : (p.addBlock h b m).extent = Function.update p.extent (.mirror h) (some (m, b.npages)) := by
    rw [extent_update p (p.addBlock h b m) h (fun k hk => by simp [addBlock, hk]) (fun k hk => by simp [addBlock, hk]),
      extent_guest hself, extent_mirror hself, hswap, if_neg Bool.false_ne_true, ← (extent_none hnone).1,
      Function.update_eq_self]
    simp [addBlock]
  refine ⟨hs.nodup, hs.room, ?_, ?_, ?_⟩
  · intro k
    rw [hextent, Function.update_of_ne (by simp)]
    exact hs.registered k
  · rw [hextent]
    exact hs.lays.put (extent_none hnone).2 hfree
  · rw [hextent]
    apply low_update hs.low
    rintro e ⟨⟩
    exact hlow

theorem palMapHandle_some {r : Range} {q : Process} (hmap : p.palMapHandle h r = some q) :
    q = { p with table := put (.guest h) (firstPage r) r.npages p.table } ∧ firstPage r + r.npages ≤ userPages ∧
      ∀ n, firstPage r ≤ n ∧ n < firstPage r + r.npages → p.table n = none := by
  unfold palMapHandle at hmap
  split_ifs at hmap with hbusy
  push Not at hbusy
  refine ⟨(Option.some.inj hmap).symm, hbusy.2.1, ?_⟩
  intro n hn
  have hpage := hbusy.2.2 (n - firstPage r) (by omega)
  rw [Nat.add_sub_cancel' hn.1, ne_eq, Bool.not_eq_true, Option.isSome_eq_false_iff, Option.isNone_iff_eq_none] at hpage
  exact hpage

theorem activate_cases (hrun : p.activate h = .ok p') :
    ∃ b b', p.blocks h = some b ∧ b.activate = .ok b' ∧
      (p' = p ∧ b' = b ∨ b'.swappedIn = b.swappedIn ∧ p' = p.setBlock h b' ∨
        b.swappedIn = false ∧ b'.swappedIn = true ∧ p.registered.length < 64 ∧ ∃ q, p.palMapHandle h b.addr = some q ∧
          p' = { q with registered := p.registered ++ [h] }.setBlock h b') := by
  unfold Process.activate at hrun
  cases hb : p.blocks h with
  | none =>
    rw [hb] at hrun
    cases hrun
  | some b =>
    rw [hb] at hrun
    dsimp only at hrun
    refine ⟨b, ?_⟩
    unfold Block.activate
    split_ifs at hrun ⊢ with hactive hswap
    · cases hrun
      exact ⟨b, rfl, rfl, Or.inl ⟨rfl, rfl⟩⟩
    · cases hrun
      exact ⟨_, rfl, rfl, Or.inr (Or.inl ⟨rfl, rfl⟩)⟩
    · cases hmap : p.palMapHandle h b.addr with
      | none =>
        rw [hmap] at hrun
        cases hrun
      | some q =>
        rw [hmap] at hrun
        dsimp only at hrun
        have hq : q.registered = p.registered := by rw [(palMapHandle_some hmap).1]
        unfold tripguardRegister at hrun
        rw [hq, refreshAll_eq] at hrun
        rw [refreshAll_eq, ok_bind]
        split_ifs at hrun with hroom
        · rw [ok_bind] at hrun
          cases hrun
          exact ⟨_, rfl, rfl, Or.inr (Or.inr ⟨Bool.eq_false_iff.mpr hswap, rfl, hroom, q, rfl, rfl⟩)⟩
        · cases hrun

theorem Sane.map (hs : p.Sane) (hb : p.blocks h = some b) (hswap : b.swappedIn = false) (haddr : b'.addr = b.addr)
    (hswap' : b'.swappedIn = true) (hroom : p.registered.length < 64) {q : Process}
    (hmap : p.palMapHandle h b.addr = some q) : ({ q with registered := p.registered ++ [h] }.setBlock h b').Sane := by
  obtain ⟨rfl, hlow, hfree⟩ := palMapHandle_some hmap
  have hnone : p.extent (.guest h) = none := by
    rw [extent_guest hb, hswap]
    rfl
  have hn : b'.npages = b.npages := by
    rw [Block.npages, haddr]
    rfl
  suffices hsane : ∀ q : Process, q.blocks = Function.update p.blocks h (some b') → q.mirror = p.mirror →
      q.registered = p.registered ++ [h] → q.table = put (.guest h) (firstPage b.addr) b.addr.npages p.table → q.Sane from
    hsane _ rfl rfl rfl rfl
  intro q hblocks hmirror hregistered htable
  have hself : q.blocks h = some b' := by rw [hblocks, Function.update_self]
  have hextent : q.extent = Function.update p.extent (.guest h) (some (firstPage b.addr, b.addr.npages)) := by
    rw [extent_update p q h (fun k hk => by rw [hblocks, Function.update_of_ne hk]) (fun _ _ => by rw [hmirror]),
      extent_guest hself, extent_mirror hself, haddr, hswap', if_pos rfl, hn, hmirror, ← extent_mirror hb,
      Function.update_comm (by simp), Function.update_eq_self]
    rfl
  refine ⟨?_, ?_, ?_, ?_, ?_⟩
  · rw [hregistered]
    refine List.nodup_append'.mpr ⟨hs.nodup, List.nodup_singleton h, ?_⟩
    rw [List.disjoint_singleton, hs.registered, hnone]
    simp
  · rw [hregistered, List.length_append]
    exact hroom
  · intro k
    rw [hextent, hregistered, List.mem_append, hs.registered, List.mem_singleton]
    by_cases hk : k = h
    · subst hk
      simp
    · simp [hk]
  · rw [hextent, htable]
    exact hs.lays.put hnone hfree
  · rw [hextent]
    apply low_update hs.low
    rintro e ⟨⟩
    exact hlow

theorem Sane.freed (hs : p.Sane) (h : ℕ) : (p.free h).Sane := by
  unfold Process.free
  cases hb : p.blocks h with
  | none => exact hs
  | some b =>
    have hextent : ∀ q : Process, q.blocks = Function.update p.blocks h none → q.mirror = p.mirror →
        q.extent = Function.update (Function.update p.extent (.guest h) none) (.mirror h) none := by
      intro q hq hm
      have hnone : q.blocks h = none := by rw [hq, Function.update_self]
      rw [extent_update p q h (fun k hk => by rw [hq, Function.update_of_ne hk]) (fun _ _ => by rw [hm]),
        (extent_none hnone).1, (extent_none hnone).2]
    have hmirror : Function.update p.extent (.guest h) none (.mirror h) = some (p.mirror h, b.npages) := by
      rw [Function.update_of_ne (by simp), extent_mirror hb]
    -- the guest mapping goes first, if there is one
    suffices hsane : ∀ q : Process, q.blocks = Function.update p.blocks h none → q.mirror = p.mirror →
        (q.registered.Nodup ∧ q.registered.length ≤ 64 ∧
          ∀ k, k ∈ q.registered ↔ (Function.update p.extent (.guest h) none (.guest k)).isSome = true) →
        (∃ t, Lays (Function.update p.extent (.guest h) none) t ∧ q.table = clear (p.mirror h) b.npages t) → q.Sane by
      dsimp only
      cases hswap : b.swappedIn with
      | false =>
        have hguest : Function.update p.extent (.guest h) none = p.extent := by
          rw [← show p.extent (.guest h) = none by rw [extent_guest hb, hswap]; rfl, Function.update_eq_self]
        rw [hguest] at hsane
        exact hsane _ rfl rfl ⟨hs.nodup, hs.room, hs.registered⟩ ⟨_, hs.lays, rfl⟩
      | true =>
        have hguest : p.extent (.guest h) = some (firstPage b.addr, b.npages) := by rw [extent_guest hb, if_pos hswap]
        have hperm := fillHole_perm h p.registered
        refine hsane _ rfl rfl ⟨hperm.nodup_iff.mpr (hs.nodup.erase h),
          (hperm.length_eq.trans_le List.length_erase_le).trans hs.room, ?_⟩ ⟨_, hs.lays.clear hguest, rfl⟩
        intro k
        change k ∈ fillHole h p.registered ↔ _
        rw [hperm.mem_iff, hs.nodup.mem_erase_iff, hs.registered]
        by_cases hk : k = h
        · subst hk
          simp
        · simp [hk]
    rintro q hblocks hq ⟨hnodup, hroom, hregistered⟩ ⟨t, hlays, htable⟩
    refine ⟨hnodup, hroom, ?_, ?_, ?_⟩
    · intro k
      rw [hextent q hblocks hq, Function.update_of_ne (by simp), hregistered]
    · rw [hextent q hblocks hq, htable]
      exact hlays.clear hmirror
    · rw [hextent q hblocks hq]
      exact low_update (low_update hs.low _ (by simp)) _ (by simp)

theorem mem_ok {op : MemOp} {r : ℤ} (hrun : p.mem h op = .ok (r, p')) :
    ∃ b b', p.blocks h = some b ∧ op.run b = .ok (r, b') ∧ p' = p.setBlock h b' := by
  unfold Process.mem at hrun
  cases hb : p.blocks h with
  | none =>
    rw [hb] at hrun
    cases hrun
  | some b =>
    rw [hb] at hrun
    dsimp only at hrun
    cases hop : op.run b with
    | error c =>
      rw [hop] at hrun
      cases hrun
    | ok u =>
      rw [hop] at hrun
      cases hrun
      exact ⟨b, u.2, rfl, hop, rfl⟩

inductive BlockStep : Block → Block → Prop
  | pre {b b' : Block} : b.sealed = false → PreStep b b' → BlockStep b b'
  | sealed {b b' : Block} : b.sealBlock = .ok (0, b') → BlockStep b b'
  | post {b b' : Block} : b.sealed = true → PostStep b b' → BlockStep b b'

theorem BlockStep.both (hpre : PreStep b b') (hpost : PostStep b b') : BlockStep b b' := by
  cases hs : b.sealed with
  | false => exact .pre hs hpre
  | true => exact .post hs hpost

def Follows (p p' : Process) : Prop :=
  ∀ k b', p'.blocks k = some b' → p.blocks k = none ∧ (∃ addr, Block.new addr = .ok (some b')) ∨
    ∃ b, p.blocks k = some b ∧ (b' = b ∨ BlockStep b b')

theorem Follows.of_eq (hblocks : p'.blocks = p.blocks) : p.Follows p' := by
  intro k c hc
  rw [hblocks] at hc
  exact Or.inr ⟨c, hc, Or.inl rfl⟩

theorem Follows.setBlock {q : Process} (hb : p.blocks h = some b) (hq : q.blocks = p.blocks) (hstep : BlockStep b b') :
    p.Follows (q.setBlock h b') := by
  intro k c hc
  by_cases hk : k = h
  · subst hk
    rw [setBlock_self] at hc
    cases hc
    exact Or.inr ⟨b, hb, Or.inr hstep⟩
  · have hold : (q.setBlock h b').blocks k = p.blocks k := by simp [Process.setBlock, hk, hq]
    exact Or.inr ⟨c, hold.symm.trans hc, Or.inl rfl⟩

theorem Follows.addBlock {addr : Range} (hnone : p.blocks h = none) (hnew : Block.new addr = .ok (some b)) (m : ℕ) :
    p.Follows (p.addBlock h b m) := by
  intro k c hc
  by_cases hk : k = h
  · subst hk
    rw [show (p.addBlock k b m).blocks k = some b from Function.update_self _ _ _] at hc
    cases hc
    exact Or.inl ⟨hnone, addr, hnew⟩
  · rw [show (p.addBlock h b m).blocks k = p.blocks k from Function.update_of_ne hk _ _] at hc
    exact Or.inr ⟨c, hc, Or.inl rfl⟩

theorem free_blocks (p : Process) (h : ℕ) : (p.free h).blocks = Function.update p.blocks h none := by
  unfold Process.free
  cases hb : p.blocks h with
  | none => exact (Function.update_eq_self_iff.mpr hb.symm).symm
  | some b =>
    dsimp only
    split_ifs
    · rfl
    · rfl

theorem Follows.free (p : Process) (h : ℕ) : p.Follows (p.free h) := by
  intro k c hc
  rw [free_blocks] at hc
  by_cases hk : k = h
  · subst hk
    rw [Function.update_self] at hc
    cases hc
  · rw [Function.update_of_ne hk] at hc
    exact Or.inr ⟨c, hc, Or.inl rfl⟩

theorem Sane.activated (hs : p.Sane) (hrun : p.activate h = .ok p') : p'.Sane ∧ p.Follows p' := by
  obtain ⟨b, b', hb, hact, hcases⟩ := activate_cases hrun
  have haddr := (Switch.activate hact).cases.1
  have hblock : BlockStep b b' := .both (.switch (.activate hact)) (.switch (.activate hact))
  rcases hcases with ⟨rfl, rfl⟩ | ⟨hswap, rfl⟩ | ⟨hswap, hswap', hroom, q, hmap, rfl⟩
  · exact ⟨hs, .of_eq rfl⟩
  · exact ⟨hs.setBlock hb haddr hswap, .setBlock hb rfl hblock⟩
  · refine ⟨hs.map hb hswap haddr hswap' hroom hmap, .setBlock hb ?_ hblock⟩
    rw [(palMapHandle_some hmap).1]

theorem Sane.wrote {a : UInt64} {v : UInt8} (hs : p.Sane)
    (hmirror : ∀ h i, p.table (pageNumber a) ≠ some (.of (.mirror h) i)) (hrun : p.write a v = .ok p') :
    p'.Sane ∧ p.Follows p' := by
  cases ht : p.table (pageNumber a) with
  | none =>
    rw [hs.write_fault (by rw [ht]; simp) (by unfold Process.store; rw [ht])] at hrun
    cases hrun
  | some cell =>
    rcases cell with ⟨h | h, i⟩ | f
    · obtain ⟨b, hb, hm⟩ := hs.mapped_of_table ht
      rw [hs.write_eq hb hm] at hrun
      cases hw : b.guestWrite a v with
      | error c =>
        rw [hw] at hrun
        cases hrun
      | ok b' =>
        rw [hw] at hrun
        cases hrun
        have hmoves := guestWrite_moves hw
        exact ⟨hs.setBlock hb hmoves.addr hmoves.swappedIn,
          .setBlock hb rfl (.both (.guest (.write hw)) (.guest (.write hw)))⟩
    · exact absurd ht (hmirror h i)
    · rw [hs.write_other ht] at hrun
      split_ifs at hrun with hw
      cases hrun
      refine ⟨hs.congr rfl ?_ rfl, .of_eq rfl⟩
      intro n k i
      by_cases hn : n = pageNumber a
      · subst hn
        simp [ht]
      · simp [hn]

theorem Step.cases (hs : p.Sane) (hstep : Step p p') : p'.Sane ∧ p.Follows p' := by
  cases hstep with
  | @create h m addr b hnone hstart hnew hfree hlow =>
    refine ⟨hs.create hnone ?_ hfree hlow, .addBlock hnone hnew m⟩
    obtain ⟨-, span, rfl⟩ := Block.new_cases hnew
    rfl
  | activate hrun => exact hs.activated hrun
  | deactivate hb =>
    exact ⟨hs.setBlock hb rfl rfl, .setBlock hb rfl (.both (.switch .deactivate) (.switch .deactivate))⟩
  | free h => exact ⟨hs.freed h, .free p h⟩
  | @write _ a v hmirror hrun => exact hs.wrote hmirror hrun
  | mem hwrap hrun =>
    obtain ⟨b, b', hb, hop, rfl⟩ := mem_ok hrun
    have hmoves := MemOp.moves hop
    exact ⟨hs.setBlock hb hmoves.addr hmoves.swappedIn,
      .setBlock hb rfl (.both (.guest (.mem hwrap hop)) (.guest (.mem hwrap hop)))⟩
  | markInvisible hb hseal hwrap hrun =>
    refine ⟨?_, .setBlock hb rfl (.pre hseal (.markInvisible hwrap hrun))⟩
    rcases markInvisible_cases hrun with rfl | ⟨ps, pc, -, rfl⟩
    · exact hs.setBlock hb rfl rfl
    · exact hs.setBlock hb rfl rfl
  | copyFromExternal hb hseal hwrap hrun =>
    refine ⟨?_, .setBlock hb rfl (.pre hseal (.copyFromExternal hwrap hrun))⟩
    rcases copyFromExternal_cases hrun with rfl | ⟨ps, pc, -, -, f, rfl⟩
    · exact hs.setBlock hb rfl rfl
    · exact hs.setBlock hb rfl rfl
  | @sealBlock h b b' hb hrun =>
    refine ⟨?_, .setBlock hb rfl (.sealed hrun)⟩
    have hseal : b.sealed = false := by
      by_contra hno
      unfold Block.sealBlock at hrun
      rw [if_pos (Bool.eq_true_of_not_eq_false hno)] at hrun
      cases hrun
    obtain ⟨-, haddr, -, hswap, -⟩ := sealBlock_cases hseal hrun
    exact hs.setBlock hb haddr hswap
  | load hb hrun =>
    obtain ⟨hseal, l, rfl, rfl, -⟩ := loadState_done hrun
    exact ⟨hs.setBlock hb rfl rfl, .setBlock hb rfl (.post hseal (.load hrun))⟩
  | elsewhere htable => exact ⟨hs.congr rfl htable rfl, .of_eq rfl⟩

def Grown (b : Block) : Prop := ∃ addr b₀, Block.new addr = .ok (some b₀) ∧ ReflTransGen BlockStep b₀ b

theorem Grown.tracks (hb : Grown b) (hseal : b.sealed = true) : ∃ base, b.Tracks base := by
  obtain ⟨addr, b₀, hnew, hrun⟩ := hb
  have hlife : ∀ b b', BlockStep b b' → (b.Raw ∨ ∃ base, b.Tracks base) → b'.Raw ∨ ∃ base, b'.Tracks base := by
    intro b b' hstep hb
    cases hstep with
    | pre hs hstep =>
      rcases hb with hraw | ⟨base, ht⟩
      · exact Or.inl (hraw.step hstep)
      · rw [ht.isSealed] at hs
        cases hs
    | sealed hstep =>
      rcases hb with hraw | ⟨base, ht⟩
      · exact Or.inr ⟨_, hraw.sealBlock hstep⟩
      · unfold Block.sealBlock at hstep
        rw [if_pos ht.isSealed] at hstep
        cases hstep
    | post hs hstep =>
      rcases hb with hraw | ⟨base, ht⟩
      · rw [hraw.unsealed] at hs
        cases hs
      · exact Or.inr ⟨base, ht.step hstep⟩
  rcases Runs.invariant hlife hrun (Or.inl (raw_new hnew)) with hraw | ht
  · rw [hraw.unsealed] at hseal
    cases hseal
  · exact ht

theorem empty_sane (others : ℕ → Option Foreign) : (empty others).Sane := by
  refine ⟨List.nodup_nil, Nat.zero_le _, ?_, ?_, ?_⟩
  · intro h
    simp [empty, extent]
  · intro n k i
    cases k <;> simp [empty, extent]
  · intro k e he
    cases k <;> simp [empty, extent] at he

theorem run_sane {others : ℕ → Option Foreign} (hrun : ReflTransGen Step (empty others) p) :
    p.Sane ∧ ∀ h b, p.blocks h = some b → Grown b := by
  induction hrun with
  | refl => exact ⟨empty_sane others, fun h b hb => by simp [empty] at hb⟩
  | tail _ hstep ih =>
    obtain ⟨hs, hgrown⟩ := ih
    obtain ⟨hs', hblocks⟩ := hstep.cases hs
    refine ⟨hs', ?_⟩
    intro h b' hb'
    rcases hblocks h b' hb' with ⟨-, addr, hnew⟩ | ⟨b, hb, rfl | hb'⟩
    · exact ⟨addr, b', hnew, .refl⟩
    · exact hgrown h _ hb
    · obtain ⟨addr, b₀, hnew, hold⟩ := hgrown h b hb
      exact ⟨addr, b₀, hnew, hold.tail hb'⟩

end Steps

/-- Any number of hosts in one process: each block gets where it could get alone, and every access reaches the one block
that owns the address, whose dirty tracking catches it. Only the mirrors go around the tracking. -/
theorem blocks_isolated {others : ℕ → Option Foreign} {p : Process} (hrun : ReflTransGen Step (empty others) p) :
    p.Sane ∧
    (∀ h b, p.blocks h = some b → Grown b ∧ (b.sealed = true → ∃ base, b.Tracks base)) ∧
    (∀ h b a v, p.blocks h = some b → b.mapped a = true →
      p.write a v = p.onBlock h (b.guestWrite a v) ∧ p.read a = (b.guestRead a).mapError .crash ∧
        p.fetch a = (b.guestFetch a).mapError .crash ∧ ∀ h' b', p.blocks h' = some b' → b'.mapped a = true → h' = h) ∧
    ∀ a v, (∀ h b, p.blocks h = some b → b.mapped a = false) →
      match p.table (pageNumber a) with
      | none => p.write a v = .error (.crash .segv) ∧ p.read a = .error (.crash .segv) ∧ p.fetch a = .error (.crash .segv)
      | some (.other f) =>
        p.write a v = (if f.access.write then
          .ok { p with table := Function.update p.table (pageNumber a) (some (.other (f.store (offsetOf a) v))) }
          else .error (.crash .segv)) ∧
        p.read a = (if f.access.read then .ok (f.data (offsetOf a)) else .error (.crash .segv)) ∧
        p.fetch a = if f.access.exec then .ok (f.data (offsetOf a)) else .error (.crash .segv)
      | some (.of (.mirror h) i) => ∃ b, p.blocks h = some b ∧ i < b.npages ∧
        p.write a v = .ok (p.setBlock h (b.setPage i
          { b.pages i with data := Function.update (b.pages i).data (offsetOf a) v })) ∧
        p.read a = .ok ((b.pages i).data (offsetOf a)) ∧ p.fetch a = .error (.crash .segv)
      | some (.of (.guest _) _) => False := by
  obtain ⟨hs, hgrown⟩ := run_sane hrun
  refine ⟨hs, fun h b hb => ⟨hgrown h b hb, (hgrown h b hb).tracks⟩, ?_, ?_⟩
  · intro h b a v hb hm
    exact ⟨hs.write_eq hb hm v, hs.read_eq hb hm, hs.fetch_eq hb hm, fun h' b' hb' hm' => hs.owner_unique hb hm hb' hm'⟩
  · intro a v hno
    have hload : p.read a = orFault (p.load a) := rfl
    have hcode : p.fetch a = orFault (p.code a) := rfl
    unfold load at hload
    unfold code at hcode
    cases ht : p.table (pageNumber a) with
    | none =>
      rw [ht] at hload hcode
      exact ⟨hs.write_fault (by rw [ht]; simp) (by unfold Process.store; rw [ht]), hload, hcode⟩
    | some cell =>
      rw [ht] at hload hcode
      rcases cell with ⟨h | h, i⟩ | f
      · obtain ⟨b, hb, hm⟩ := hs.mapped_of_table ht
        rw [hno h b hb] at hm
        cases hm
      · obtain ⟨b, hb, hi, hread, hwrite⟩ := hs.write_mirror ht
        exact ⟨b, hb, hi, hwrite v, hread, hcode⟩
      · refine ⟨hs.write_other ht v, ?_, ?_⟩
        · dsimp only at hload
          rw [hload]
          split_ifs
          · rfl
          · rfl
        · dsimp only at hcode
          rw [hcode]
          split_ifs
          · rfl
          · rfl

def neighbour : Block :=
  ⟨⟨0x36f80000000, 0x1000⟩, ⟨by decide, by decide, by decide, by decide⟩, fun _ => freshPage, false, false, false,
    zeroes 32⟩

theorem new_neighbour : Block.new ⟨0x36f80000000, 0x1000⟩ = .ok (some neighbour) := rfl

def interopOnly (n : ℕ) : Option Foreign := if n = 0x35f00000 then some ⟨⟨true, false, true⟩, zeroes 4096⟩ else none

def readOnly : Cell Area Foreign → Bool
  | .of _ _ => false
  | .other f => !f.access.write

theorem blocks_isolated_two : ∃ (p p' p'' : Process) (b : Block), ReflTransGen Step (empty interopOnly) p ∧
    p.registered = [1, 0] ∧ p.blocks 1 = some b ∧ p.write 0x36f80000010 7 = .ok p' ∧
    p.onBlock 1 (b.guestWrite 0x36f80000010 7) = .ok p' ∧ p.read 0x35f00000080 = .ok 0 ∧
    p.write 0x35f00000080 1 = .error (.crash .segv) ∧ p.read 0x35f00001000 = .error (.crash .segv) ∧
    p.write 0x7f0000001010 7 = .ok p'' ∧ p''.read 0x36f80000010 = .ok 7 := by
  have hrun : passes (do
      let p₁ ← (((empty interopOnly).addBlock 0 smallest 0x7f0000000).addBlock 1 neighbour 0x7f0000001).activate 1
      let p₂ ← p₁.activate 0
      let u ← p₂.mem 1 (.mmapFixed ⟨0x36f80000000, 0x1000⟩ .rw true)
      let p' ← u.2.write 0x36f80000010 7
      let v ← u.2.read 0x35f00000080
      let p'' ← u.2.write 0x7f0000001010 7
      let v' ← p''.read 0x36f80000010
      return decide (u.2.registered = [1, 0] ∧ (u.2.blocks 1).any (fun b => b.mapped 0x36f80000010) = true ∧ v = 0 ∧
        v' = 7 ∧ (u.2.table 0x35f00001).isNone = true ∧ (u.2.table 0x35f00000).any readOnly = true)) = true := by
    decide +kernel
  obtain ⟨p₁, h₁, hrun⟩ := passes_bind hrun
  obtain ⟨p₂, h₂, hrun⟩ := passes_bind hrun
  obtain ⟨⟨r, p⟩, hmem, hrun⟩ := passes_bind hrun
  obtain ⟨p', hwrite, hrun⟩ := passes_bind hrun
  obtain ⟨v, hread, hrun⟩ := passes_bind hrun
  obtain ⟨p'', hmirror, hrun⟩ := passes_bind hrun
  obtain ⟨v', hafter, hrun⟩ := passes_bind hrun
  obtain ⟨hregistered, hmapped, rfl, rfl, hnone, hinterop⟩ := passes_pure hrun
  have hstart : Step (empty interopOnly) ((empty interopOnly).addBlock 0 smallest 0x7f0000000) := by
    refine .create rfl (by decide) new_onePage ?_ (by decide)
    intro n hn
    have hn : n = 0x7f0000000 := by
      have : smallest.npages = 1 := rfl
      omega
    subst hn
    rfl
  have hsecond : Step ((empty interopOnly).addBlock 0 smallest 0x7f0000000)
      (((empty interopOnly).addBlock 0 smallest 0x7f0000000).addBlock 1 neighbour 0x7f0000001) := by
    refine .create rfl (by decide) new_neighbour ?_ (by decide)
    intro n hn
    have hn : n = 0x7f0000001 := by
      have : neighbour.npages = 1 := rfl
      omega
    subst hn
    rfl
  have hwrap : (MemOp.mmapFixed ⟨0x36f80000000, 0x1000⟩ .rw true).NoWrap := show Range.NoWrap _ by decide
  have hsteps : ReflTransGen Step (empty interopOnly) p :=
    ((((ReflTransGen.single hstart).tail hsecond).tail (.activate h₁)).tail (.activate h₂)).tail (.mem hwrap hmem)
  obtain ⟨hs, -, howned, hunowned⟩ := blocks_isolated hsteps
  obtain ⟨b, hb, hm⟩ := exists_of_any hmapped
  obtain ⟨c, hc, hro⟩ := exists_of_any hinterop
  refine ⟨p, p', p'', b, hsteps, hregistered, hb, hwrite, ?_, hread, ?_, ?_, hmirror, hafter⟩
  · rw [← (howned 1 b _ 7 hb hm).1]
    exact hwrite
  · have hcell : p.table (pageNumber 0x35f00000080) = some c := hc
    have hno := hunowned 0x35f00000080 1 (hs.unowned (by rw [hcell]; rintro h i ⟨⟩; cases hro))
    rw [hcell] at hno
    rcases c with _ | f
    · cases hro
    · rw [hno.1, if_neg (by rw [readOnly, Bool.not_eq_true'] at hro; rw [hro]; decide)]
  · have hcell : p.table (pageNumber 0x35f00001000) = none := Option.isNone_iff_eq_none.mp hnone
    have hno := hunowned 0x35f00001000 0 (hs.unowned (by rw [hcell]; simp))
    rw [hcell] at hno
    exact hno.2.1

end Process

end MiniBox
