import MiniBox.BaselineInvariant
import MiniBox.GuestWords
import MiniBox.Host

namespace MiniBox

open ByteStream Effects LinearTables Outcomes

namespace MountedFile

theorem taken_add (n m : ℕ) (f : MountedFile) : f.taken (n + m) = f.taken n ++ (f.advance n).taken m := by
  have hdrop : (f.data.drop f.pos).drop n = f.data.drop (f.pos + min n (f.data.length - f.pos)) := by
    rw [List.drop_drop]
    by_cases hn : n ≤ f.data.length - f.pos
    · rw [Nat.min_eq_left hn]
    · rw [List.drop_eq_nil_of_le (by omega), List.drop_eq_nil_of_le (by omega)]
  unfold taken
  rw [List.take_add, hdrop]
  rfl

theorem advance_add (n m : ℕ) (f : MountedFile) : f.advance (n + m) = (f.advance n).advance m := by
  have hpos : f.pos + min (n + m) (f.data.length - f.pos) =
      f.pos + min n (f.data.length - f.pos) +
        min m (f.data.length - (f.pos + min n (f.data.length - f.pos))) := by
    omega
  simp only [advance, hpos]

theorem advance_zero (f : MountedFile) : f.advance 0 = f := by
  simp only [advance, Nat.zero_min, Nat.add_zero]

theorem overwrite_append (xs ys : List UInt8) (f : MountedFile) :
    f.overwrite (xs ++ ys) = (f.overwrite xs).overwrite ys := by
  have hpos := f.inBounds
  have hfront : (f.data.take f.pos ++ xs).length = f.pos + xs.length := by
    rw [List.length_append, List.length_take]
    omega
  have htake : (f.data.take f.pos ++ xs ++ f.data.drop (f.pos + xs.length)).take (f.pos + xs.length) =
      f.data.take f.pos ++ xs := List.take_left' hfront
  have hdrop : (f.data.take f.pos ++ xs ++ f.data.drop (f.pos + xs.length)).drop (f.pos + xs.length + ys.length) =
      f.data.drop (f.pos + xs.length + ys.length) := by
    rw [← List.drop_drop, List.drop_left' hfront, List.drop_drop]
  simp only [overwrite, MountedFile.mk.injEq, true_and, and_true]
  constructor
  · rw [htake, hdrop, List.length_append, Nat.add_assoc]
    simp only [List.append_assoc]
  · rw [List.length_append, Nat.add_assoc]

theorem overwrite_nil (f : MountedFile) : f.overwrite [] = f := by
  simp only [overwrite, List.append_nil, List.length_nil, Nat.add_zero, List.take_append_drop]

end MountedFile

namespace Fs

variable {fs fs' : Fs} {fd r : ℤ}

theorem byFd_modifyFd {f : MountedFile} {g : MountedFile → MountedFile} (hf : fs.byFd fd = some f)
    (hg : ∀ f, (g f).fd = f.fd) : (fs.modifyFd fd g).byFd fd = some (g f) := by
  unfold byFd modifyFd at *
  rw [lookup_adjust hg, if_pos rfl, hf]
  rfl

theorem modifyFd_modifyFd {g g' : MountedFile → MountedFile} (hg : ∀ f, (g f).fd = f.fd) :
    (fs.modifyFd fd g).modifyFd fd g' = fs.modifyFd fd (g' ∘ g) :=
  congrArg Fs.mk (adjust_adjust hg fs.files)

theorem modifyFd_self {f : MountedFile} {g : MountedFile → MountedFile} (hf : fs.byFd fd = some f) (hg : g f = f) :
    fs.modifyFd fd g = fs := congrArg Fs.mk (adjust_self hf hg)

section Read

theorem readCode_cases (fs : Fs) (fd : ℤ) :
    (∃ r < 0, ∀ n, fs.read fd n = (r, [], fs)) ∨ (∀ n, fs.read fd n = (0, [], fs)) ∨
      ∃ f, fs.byFd fd = some f ∧ f.kind = .regular := by
  unfold read
  cases hf : fs.byFd fd with
  | none => exact Or.inl ⟨-enoent, by decide, fun _ => rfl⟩
  | some f =>
    cases hk : f.kind with
    | empty => exact Or.inr (Or.inl fun n => by simp only [hk])
    | sysout => exact Or.inl ⟨-ebadf, by decide, fun n => by simp only [hk]⟩
    | regular => exact Or.inr (Or.inr ⟨f, rfl, hk⟩)

theorem read_regular {f : MountedFile} (hf : fs.byFd fd = some f) (hk : f.kind = .regular) (n : ℕ) :
    fs.read fd n = (((f.taken n).length : ℤ), f.taken n, fs.modifyFd fd (.advance n)) := by
  unfold read
  simp only [hf, hk]

def Reads (fs : Fs) (fd : ℤ) : Prop := 0 ≤ (fs.read fd 0).1

theorem read_error (h : ¬ fs.Reads fd) : ∃ r < 0, ∀ n, fs.read fd n = (r, [], fs) := by
  unfold Reads at h
  rcases fs.readCode_cases fd with herr | hnone | ⟨f, hf, hk⟩
  · exact herr
  · rw [hnone] at h
    exact absurd le_rfl h
  · rw [read_regular hf hk] at h
    exact absurd (Int.natCast_nonneg _) h

theorem Reads.cases (h : fs.Reads fd) :
    (∀ n, fs.read fd n = (0, [], fs)) ∨ ∃ f, fs.byFd fd = some f ∧ f.kind = .regular := by
  rcases fs.readCode_cases fd with ⟨r, hr, herr⟩ | hrest
  · rw [Reads, herr] at h
    exact absurd hr (not_lt.mpr h)
  · exact hrest

theorem Reads.zero (h : fs.Reads fd) : fs.read fd 0 = (0, [], fs) := by
  rcases h.cases with hnone | ⟨f, hf, hk⟩
  · exact hnone 0
  · rw [read_regular hf hk, modifyFd_self hf f.advance_zero]
    simp [MountedFile.taken]

theorem Reads.next (h : fs.Reads fd) (n : ℕ) : (fs.read fd n).2.2.Reads fd ∧ 0 ≤ (fs.read fd n).1 := by
  rcases h.cases with hnone | ⟨f, hf, hk⟩
  · rw [hnone]
    exact ⟨h, le_rfl⟩
  · have hf' := byFd_modifyFd (g := .advance n) hf fun _ => rfl
    rw [read_regular hf hk]
    refine ⟨?_, Int.natCast_nonneg _⟩
    rw [Reads, read_regular hf' hk]
    exact Int.natCast_nonneg _

theorem Reads.add (h : fs.Reads fd) (n m : ℕ) :
    fs.read fd (n + m) = ((fs.read fd n).1 + ((fs.read fd n).2.2.read fd m).1,
      (fs.read fd n).2.1 ++ ((fs.read fd n).2.2.read fd m).2.1, ((fs.read fd n).2.2.read fd m).2.2) := by
  rcases h.cases with hnone | ⟨f, hf, hk⟩
  · simp only [hnone, Int.add_zero, List.append_nil]
  · have hf' := byFd_modifyFd (g := .advance n) hf fun _ => rfl
    have hadvance : MountedFile.advance (n + m) = .advance m ∘ .advance n := by
      funext f
      exact f.advance_add n m
    simp only [read_regular hf hk, read_regular hf' hk, f.taken_add, hadvance]
    rw [List.length_append, Int.natCast_add, modifyFd_modifyFd (g := .advance n) fun _ => rfl]

theorem Reads.length_le (h : fs.Reads fd) (n : ℕ) : (fs.read fd n).2.1.length ≤ n := by
  rcases h.cases with hnone | ⟨f, hf, hk⟩
  · rw [hnone]
    exact Nat.zero_le n
  · rw [read_regular hf hk]
    exact List.length_take_le _ _

theorem Reads.short (h : fs.Reads fd) {n : ℕ} (hn : (fs.read fd n).2.1.length < n) (m : ℕ) :
    ((fs.read fd n).2.2.read fd m).2.1 = [] := by
  rcases h.cases with hnone | ⟨f, hf, hk⟩
  · rw [hnone, hnone]
  · have hf' := byFd_modifyFd (g := .advance n) hf fun _ => rfl
    rw [read_regular hf hk] at hn ⊢
    simp only [MountedFile.taken, List.length_take, List.length_drop] at hn
    rw [read_regular hf' hk]
    simp only [MountedFile.taken, MountedFile.advance]
    rw [List.drop_eq_nil_of_le (by omega), List.take_nil]

end Read

section Console

abbrev Console := List (List UInt8 × UInt8)

def printed (fs : Fs) (fd : ℤ) (buf : List UInt8) : Console :=
  match fs.byFd fd with
  | none => []
  | some f => if f.kind = .sysout then buf.map fun v => (f.name, v) else []

theorem printed_append (fs : Fs) (fd : ℤ) (xs ys : List UInt8) :
    fs.printed fd (xs ++ ys) = fs.printed fd xs ++ fs.printed fd ys := by
  unfold printed
  cases fs.byFd fd with
  | none => rfl
  | some f =>
    dsimp only
    split_ifs
    · exact List.map_append
    · rfl

theorem printed_nil (fs : Fs) (fd : ℤ) : fs.printed fd [] = [] := by
  unfold printed
  cases fs.byFd fd with
  | none => rfl
  | some f =>
    dsimp only
    split_ifs
    · rfl
    · rfl

end Console

section Write

def Writes (fs : Fs) (fd : ℤ) : Prop := fs.write fd [] = .ok (0, fs)

theorem write_regular {f : MountedFile} (hf : fs.byFd fd = some f) (hk : f.kind = .regular) (hw : f.writable = true)
    (buf : List UInt8) :
    fs.write fd buf = if 2 ^ 64 ≤ f.pos + buf.length then .error .outOfBounds
      else .ok ((buf.length : ℤ), fs.modifyFd fd (.overwrite buf)) := by
  unfold write
  simp only [hf, hk, hw, Bool.not_true, Bool.false_eq_true, ↓reduceIte]

theorem writeCode_cases (fs : Fs) (fd : ℤ) :
    (∃ r < 0, fs.writeCode fd = some r ∧ ∀ buf, fs.write fd buf = .ok (r, fs) ∧ fs.printed fd buf = []) ∨
      (fs.writeCode fd = none ∧ ∀ buf, fs.write fd buf = .ok ((buf.length : ℤ), fs)) ∨
      fs.writeCode fd = none ∧ ∃ f, fs.byFd fd = some f ∧ f.kind = .regular ∧ f.writable = true := by
  cases hf : fs.byFd fd with
  | none =>
    left
    refine ⟨-enoent, by decide, by simp only [writeCode, hf], fun buf => ?_⟩
    simp [write, printed, hf]
  | some f =>
    cases hk : f.kind with
    | empty =>
      left
      refine ⟨-ebadf, by decide, by simp only [writeCode, hf, hk], fun buf => ?_⟩
      simp [write, printed, hf, hk]
    | sysout =>
      right; left
      exact ⟨by simp only [writeCode, hf, hk], fun buf => by simp only [write, hf, hk]⟩
    | regular =>
      by_cases hw : f.writable = true
      · right; right
        exact ⟨by simp only [writeCode, hf, hk, hw, ↓reduceIte], f, rfl, hk, hw⟩
      · left
        refine ⟨-ebadf, by decide, by simp [writeCode, hf, hk, hw], fun buf => ?_⟩
        simp [write, printed, hf, hk, hw]

theorem Writes.cases (h : fs.Writes fd) :
    (∀ buf, fs.write fd buf = .ok ((buf.length : ℤ), fs)) ∨
      ∃ f, fs.byFd fd = some f ∧ f.kind = .regular ∧ f.writable = true := by
  rcases fs.writeCode_cases fd with ⟨r, hr, -, herr⟩ | ⟨-, hcon⟩ | ⟨-, hreg⟩
  · rw [Writes, (herr []).1] at h
    cases h
    exact absurd hr (lt_irrefl 0)
  · exact Or.inl hcon
  · exact Or.inr hreg

theorem Writes.code (h : fs.Writes fd) : fs.writeCode fd = none := by
  rcases fs.writeCode_cases fd with ⟨r, hr, -, herr⟩ | ⟨hcode, -⟩ | ⟨hcode, -⟩
  · rw [Writes, (herr []).1] at h
    cases h
    exact absurd hr (lt_irrefl 0)
  · exact hcode
  · exact hcode

theorem writes_or_dies (h : fs.writeCode fd = none) :
    fs.Writes fd ∨ ∀ buf, fs.write fd buf = .error .outOfBounds := by
  rcases fs.writeCode_cases fd with ⟨r, -, hcode, -⟩ | ⟨-, hcon⟩ | ⟨-, f, hf, hk, hw⟩
  · rw [h] at hcode
    cases hcode
  · exact Or.inl (hcon [])
  · by_cases hpos : 2 ^ 64 ≤ f.pos
    · right
      intro buf
      rw [write_regular hf hk hw, if_pos (by omega)]
    · left
      rw [Writes, write_regular hf hk hw, if_neg (by simpa using hpos), modifyFd_self hf f.overwrite_nil]
      rfl

theorem Writes.next (h : fs.Writes fd) {buf : List UInt8} (hrun : fs.write fd buf = .ok (r, fs')) :
    fs'.Writes fd ∧ 0 ≤ r := by
  rcases h.cases with hcon | ⟨f, hf, hk, hw⟩
  · rw [hcon] at hrun
    cases hrun
    exact ⟨h, Int.natCast_nonneg _⟩
  · have hf' := byFd_modifyFd (g := .overwrite buf) hf fun _ => rfl
    rw [write_regular hf hk hw] at hrun
    split_ifs at hrun with hpos
    cases hrun
    refine ⟨?_, Int.natCast_nonneg _⟩
    have hin : ¬ 2 ^ 64 ≤ (f.overwrite buf).pos + ([] : List UInt8).length := hpos
    rw [Writes, write_regular hf' hk hw, if_neg hin, modifyFd_self hf' (MountedFile.overwrite_nil _)]
    rfl

theorem Writes.append (h : fs.Writes fd) (xs ys : List UInt8) :
    fs.write fd (xs ++ ys) = (fs.write fd xs >>= fun u =>
      u.2.write fd ys >>= fun v => .ok (u.1 + v.1, v.2)) := by
  rcases h.cases with hcon | ⟨f, hf, hk, hw⟩
  · rw [hcon, hcon, ok_bind]
    dsimp only
    rw [hcon, ok_bind, List.length_append, Int.natCast_add]
  · have hf' := byFd_modifyFd (g := .overwrite xs) hf fun _ => rfl
    have hover : MountedFile.overwrite (xs ++ ys) = .overwrite ys ∘ .overwrite xs := by
      funext f
      exact f.overwrite_append xs ys
    rw [write_regular hf hk hw, write_regular hf hk hw]
    by_cases hxs : 2 ^ 64 ≤ f.pos + xs.length
    · rw [if_pos hxs, if_pos (by rw [List.length_append]; omega)]
      rfl
    · rw [if_neg hxs, ok_bind]
      dsimp only
      rw [write_regular hf' hk hw]
      have hpos : (f.overwrite xs).pos = f.pos + xs.length := rfl
      rw [hpos, List.length_append, ← Nat.add_assoc]
      by_cases hys : 2 ^ 64 ≤ f.pos + xs.length + ys.length
      · rw [if_pos hys, if_pos hys]
        rfl
      · rw [if_neg hys, if_neg hys, ok_bind, modifyFd_modifyFd (g := .overwrite xs) fun _ => rfl, hover,
          Int.natCast_add]

end Write

section Prints

theorem printed_regular {f : MountedFile} (hf : fs.byFd fd = some f) (hk : f.kind = .regular) (buf : List UInt8) :
    fs.printed fd buf = [] := by
  simp [printed, hf, hk]

theorem printed_next {buf : List UInt8} (hrun : fs.write fd buf = .ok (r, fs')) (ys : List UInt8) :
    fs'.printed fd ys = fs.printed fd ys := by
  rcases fs.writeCode_cases fd with ⟨r', -, -, herr⟩ | ⟨-, hcon⟩ | ⟨-, f, hf, hk, hw⟩
  · rw [(herr buf).1] at hrun
    cases hrun
    rfl
  · rw [hcon] at hrun
    cases hrun
    rfl
  · have hf' := byFd_modifyFd (g := .overwrite buf) hf fun _ => rfl
    rw [write_regular hf hk hw] at hrun
    split_ifs at hrun
    cases hrun
    rw [printed_regular hf hk, printed_regular hf' hk]

theorem printed_died {buf : List UInt8} {e : Crash} (h : fs.write fd buf = .error e) (ys : List UInt8) :
    fs.printed fd ys = [] := by
  rcases fs.writeCode_cases fd with ⟨r', -, -, herr⟩ | ⟨-, hcon⟩ | ⟨-, f, hf, hk, hw⟩
  · exact (herr ys).2
  · rw [hcon] at h
    cases h
  · exact printed_regular hf hk ys

end Prints

end Fs

structure Iovec where
  base : UInt64
  len : UInt64
  deriving DecidableEq

def Iovec.cells (e : Iovec) : Set UInt64 := Block.cellsFrom e.base e.len.toNat

def buffers (entries : List Iovec) : List Iovec := entries.filter fun e => decide (e.base ≠ 0)

def totalLength (bufs : List Iovec) : ℕ := (bufs.map fun e => e.len.toNat).sum

namespace Block

def word64 (b : Block) (a : UInt64) : UInt64 := UInt64.ofNat (leDigits (b.guestBytes 8 a))

def HasArray (b : Block) : UInt64 → List Iovec → Prop
  | _, [] => True
  | a, e :: entries => (∀ x ∈ cellsFrom a 16, b.CanRead x) ∧ b.word64 a = e.base ∧ b.word64 (a + 8) = e.len ∧
      b.HasArray (a + 16) entries

def gather (b : Block) (bufs : List Iovec) : List UInt8 := bufs.flatMap fun e => b.guestBytes e.len.toNat e.base

end Block

namespace Kernel

section Loop

variable {M : Type} {mem : GuestMemory M} {call : Kernel → UInt64 → UInt64 → Guest M (ℤ × Kernel)} {n : ℕ}
  {a base len : UInt64} {total r : ℤ} {k k' : Kernel} {m m' : M}

theorem exec_iovLoop_null (hbase : exec (mem.load64 a) m = (.ok 0, m)) :
    exec (iovLoop mem call (n + 1) a total k) m = exec (iovLoop mem call n (a + 16) total k) m := by
  rw [iovLoop, exec_bind_ok hbase, if_pos rfl]

theorem exec_iovLoop_entry (hbase : exec (mem.load64 a) m = (.ok base, m)) (hne : base ≠ 0)
    (hlen : exec (mem.load64 (a + 8)) m = (.ok len, m)) (hcall : exec (call k base len) m = (.ok (r, k'), m')) :
    exec (iovLoop mem call (n + 1) a total k) m =
      if r < 0 then (.ok (reply r, k'), m') else exec (iovLoop mem call n (a + 16) (total + r) k') m' := by
  rw [iovLoop, exec_bind_ok hbase, if_neg hne, exec_bind_ok hlen, exec_bind_ok hcall]
  dsimp only
  split_ifs
  · rfl
  · rfl

theorem exec_iovLoop_died {e : Crash} (hbase : exec (mem.load64 a) m = (.ok base, m)) (hne : base ≠ 0)
    (hlen : exec (mem.load64 (a + 8)) m = (.ok len, m)) (hcall : exec (call k base len) m = (.error e, m')) :
    exec (iovLoop mem call (n + 1) a total k) m = (.error e, m') := by
  rw [iovLoop, exec_bind_ok hbase, if_neg hne, exec_bind_ok hlen, exec_bind, hcall]

def Lists (mem : GuestMemory M) (m : M) : UInt64 → List Iovec → Prop
  | _, [] => True
  | a, e :: entries => exec (mem.load64 a) m = (.ok e.base, m) ∧ exec (mem.load64 (a + 8)) m = (.ok e.len, m) ∧
      Lists mem m (a + 16) entries

variable {entries : List Iovec}

theorem exec_iovLoop_refused (h : Lists mem m a entries) (hne : buffers entries ≠ []) (hr : r < 0)
    (hcall : ∀ base len, exec (call k base len) m = (.ok (r, k), m)) (total : ℤ) :
    exec (iovLoop mem call entries.length a total k) m = (.ok (reply r, k), m) := by
  induction entries generalizing a total with
  | nil => exact absurd rfl hne
  | cons e entries ih =>
    obtain ⟨hbase, hlen, hrest⟩ := h
    rw [List.length_cons]
    by_cases he : e.base = 0
    · have hnull : buffers (e :: entries) = buffers entries := by simp [buffers, he]
      rw [he] at hbase
      rw [exec_iovLoop_null hbase]
      exact ih hrest (hnull ▸ hne) total
    · rw [exec_iovLoop_entry hbase he hlen (hcall _ _), if_pos hr]

theorem exec_iovLoop_dies {e : Crash} (h : Lists mem m a entries) (hne : buffers entries ≠ [])
    (hcall : ∀ b ∈ buffers entries, exec (call k b.base b.len) m = (.error e, m)) (total : ℤ) :
    exec (iovLoop mem call entries.length a total k) m = (.error e, m) := by
  induction entries generalizing a total with
  | nil => exact absurd rfl hne
  | cons b entries ih =>
    obtain ⟨hbase, hlen, hrest⟩ := h
    rw [List.length_cons]
    by_cases hb : b.base = 0
    · have hnull : buffers (b :: entries) = buffers entries := by simp [buffers, hb]
      rw [hb] at hbase
      rw [exec_iovLoop_null hbase]
      rw [hnull] at hne hcall
      exact ih hrest hne hcall total
    · have hcons : buffers (b :: entries) = b :: buffers entries := by simp [buffers, hb]
      rw [hcons] at hcall
      exact exec_iovLoop_died hbase hb hlen (hcall b List.mem_cons_self)

end Loop

section Printing

variable {M α β : Type}

def silent (x : Guest M α) : Guest (M × Fs.Console) α :=
  ExceptT.mk fun s => ((exec x s.1).1, (exec x s.1).2, s.2)

def print (out : Fs.Console) : Guest (M × Fs.Console) Unit := ExceptT.mk fun s => (.ok (), s.1, s.2 ++ out)

def withConsole (mem : GuestMemory M) : GuestMemory (M × Fs.Console) where
  read a := silent (mem.read a)
  fetch a := silent (mem.fetch a)
  write a v := silent (mem.write a v)
  memOp op := silent (mem.memOp op)

def printFile (mem : GuestMemory M) (k : Kernel) (fd : ℤ) (base len : UInt64) :
    Guest (M × Fs.Console) (ℤ × Kernel) :=
  match k.fs.writeCode fd with
  | some r => return (r, k)
  | none => do
    let buf ← (withConsole mem).readBytes len.toNat base
    let (r, fs) ← lift (k.fs.write fd buf)
    print (k.fs.printed fd buf)
    return (r, { k with fs })

theorem exec_silent (x : Guest M α) (m : M) (out : Fs.Console) :
    exec (silent x) (m, out) = ((exec x m).1, (exec x m).2, out) := rfl

theorem silent_bind (x : Guest M α) (f : α → Guest M β) : silent (x >>= f) = silent x >>= fun a => silent (f a) := by
  funext s
  change exec (silent (x >>= f)) s = exec (silent x >>= fun a => silent (f a)) s
  obtain ⟨m, out⟩ := s
  rw [exec_bind, exec_silent, exec_silent, exec_bind]
  rcases exec x m with ⟨_ | a, m'⟩
  · rfl
  · rfl

theorem readBytes_withConsole (mem : GuestMemory M) (n : ℕ) (a : UInt64) :
    (withConsole mem).readBytes n a = silent (mem.readBytes n a) := by
  induction n generalizing a with
  | zero => rfl
  | succ n ih =>
    rw [GuestMemory.readBytes, GuestMemory.readBytes, silent_bind]
    congr 1
    funext v
    rw [silent_bind, ih]
    rfl

theorem load64_withConsole (mem : GuestMemory M) (a : UInt64) :
    (withConsole mem).load64 a = silent (mem.load64 a) := by
  rw [GuestMemory.load64, GuestMemory.load64, silent_bind, readBytes_withConsole]
  rfl

def Silences (x : Guest (M × Fs.Console) α) (y : Guest M α) : Prop :=
  ∀ m out, (exec x (m, out)).1 = (exec y m).1 ∧ (exec x (m, out)).2.1 = (exec y m).2

theorem silences_pure (a : α) : Silences (pure a : Guest (M × Fs.Console) α) (pure a) := fun _ _ => ⟨rfl, rfl⟩

theorem silences_lift (x : Except Crash α) : Silences (lift x : Guest (M × Fs.Console) α) (lift x) :=
  fun _ _ => ⟨rfl, rfl⟩

theorem silences_silent (x : Guest M α) : Silences (silent x) x := fun _ _ => ⟨rfl, rfl⟩

theorem silences_print {x : Guest (M × Fs.Console) α} {y : Guest M α} (out : Fs.Console) (h : Silences x y) :
    Silences (print out >>= fun _ => x) y := fun m out' => h m (out' ++ out)

theorem silences_bind {x : Guest (M × Fs.Console) α} {y : Guest M α} {f : α → Guest (M × Fs.Console) β}
    {g : α → Guest M β} (hx : Silences x y) (hf : ∀ a, Silences (f a) (g a)) : Silences (x >>= f) (y >>= g) := by
  intro m out
  have hxy := hx m out
  rw [exec_bind, exec_bind]
  generalize exec x (m, out) = u at hxy
  generalize exec y m = v at hxy
  obtain ⟨r, m', out'⟩ := u
  obtain ⟨r', m''⟩ := v
  obtain ⟨rfl, rfl⟩ := hxy
  cases r with
  | error e => exact ⟨rfl, rfl⟩
  | ok a => exact hf a m' out'

theorem silences_printFile (mem : GuestMemory M) (k : Kernel) (fd : ℤ) (base len : UInt64) :
    Silences (printFile mem k fd base len) (k.writeFile mem fd base len) := by
  unfold printFile writeFile
  cases k.fs.writeCode fd with
  | some r => exact silences_pure _
  | none =>
    rw [readBytes_withConsole]
    apply silences_bind (silences_silent _)
    intro buf
    apply silences_bind (silences_lift _)
    intro u
    exact silences_print _ (silences_pure _)

theorem silences_iovLoop (mem : GuestMemory M) {call : Kernel → UInt64 → UInt64 → Guest (M × Fs.Console) (ℤ × Kernel)}
    {call' : Kernel → UInt64 → UInt64 → Guest M (ℤ × Kernel)}
    (h : ∀ k base len, Silences (call k base len) (call' k base len)) (n : ℕ) (a : UInt64) (total : ℤ) (k : Kernel) :
    Silences (iovLoop (withConsole mem) call n a total k) (iovLoop mem call' n a total k) := by
  induction n generalizing a total k with
  | zero => exact silences_pure _
  | succ n ih =>
    unfold iovLoop
    rw [load64_withConsole]
    apply silences_bind (silences_silent _)
    intro base
    by_cases hb : base = 0
    · rw [if_pos hb, if_pos hb]
      exact ih (a + 16) total k
    · rw [if_neg hb, if_neg hb, load64_withConsole]
      apply silences_bind (silences_silent _)
      intro len
      apply silences_bind (h k base len)
      rintro ⟨r, k'⟩
      dsimp only
      by_cases hr : r < 0
      · rw [if_pos hr, if_pos hr]
        exact silences_pure _
      · rw [if_neg hr, if_neg hr]
        exact ih (a + 16) (total + r) k'

end Printing

end Kernel

namespace Block

variable {b b' : Block} {a : UInt64} {e : Iovec} {entries : List Iovec}

theorem exec_load64 (h : ∀ x ∈ cellsFrom a 8, b.CanRead x) :
    exec (blockMemory.load64 a) b = (.ok (b.word64 a), b) := by
  rw [GuestMemory.load64, exec_bind_ok (exec_readBytes_all h)]
  rfl

theorem cellsFrom_left {x : UInt64} {m n : ℕ} (hx : x ∈ cellsFrom a m) : x ∈ cellsFrom a (m + n) := by
  obtain ⟨i, hi, rfl⟩ := hx
  exact ⟨i, by omega, rfl⟩

theorem cellsFrom_right {x : UInt64} {m n : ℕ} (hx : x ∈ cellsFrom (a + UInt64.ofNat m) n) :
    x ∈ cellsFrom a (m + n) := by
  obtain ⟨i, hi, rfl⟩ := hx
  exact ⟨m + i, by omega, by rw [UInt64.ofNat_add, UInt64.add_assoc]⟩

theorem HasArray.base (h : b.HasArray a (e :: entries)) : exec (blockMemory.load64 a) b = (.ok e.base, b) := by
  rw [exec_load64 fun x hx => h.1 x (cellsFrom_left (n := 8) hx), h.2.1]

theorem HasArray.len (h : b.HasArray a (e :: entries)) : exec (blockMemory.load64 (a + 8)) b = (.ok e.len, b) := by
  have hread : ∀ x ∈ cellsFrom (a + 8) 8, b.CanRead x := fun x hx => h.1 x (cellsFrom_right (m := 8) hx)
  rw [exec_load64 hread, h.2.2.1]

theorem HasArray.kept {S : Set UInt64} (h : b.HasArray a entries) (hs : StoresIn S b b')
    (hout : ∀ x ∈ cellsFrom a (16 * entries.length), x ∉ S) : b'.HasArray a entries := by
  induction entries generalizing a with
  | nil => trivial
  | cons e entries ih =>
    obtain ⟨hread, hbase, hlen, hrest⟩ := h
    have hsize : 16 * (e :: entries).length = 16 + 16 * entries.length := by
      rw [List.length_cons]
      omega
    rw [hsize] at hout
    have hword : ∀ c, (∀ x ∈ cellsFrom c 8, x ∈ cellsFrom a 16) → b'.word64 c = b.word64 c := by
      intro c hc
      unfold word64
      rw [guestBytes_congr]
      intro x hx
      exact hs.bytes x (hout x (cellsFrom_left (hc x hx)))
    refine ⟨fun x hx => hs.canRead x (hread x hx), ?_, ?_, ?_⟩
    · rw [hword a fun x hx => cellsFrom_left (n := 8) hx, hbase]
    · rw [hword (a + 8) fun x hx => cellsFrom_right (m := 8) hx, hlen]
    · exact ih hrest fun x hx => hout x (cellsFrom_right (m := 16) hx)

end Block

def Apart (S T : Set UInt64) : Prop := ∀ x ∈ S, x ∉ T

namespace Block

variable {b b' : Block} {a : UInt64} {e : Iovec} {entries bufs : List Iovec}

def bufferCells (bufs : List Iovec) : Set UInt64 := {x | ∃ e ∈ bufs, x ∈ e.cells}

theorem gather_congr (h : ∀ x ∈ bufferCells bufs, b'.guestByte x = b.guestByte x) : b'.gather bufs = b.gather bufs := by
  unfold gather
  apply List.flatMap_congr
  intro e he
  apply guestBytes_congr
  intro x hx
  exact h x ⟨e, he, hx⟩

theorem scatter_step {xs ys old rest : List UInt8} (hx : xs.length ≤ old.length)
    (hy : xs.length = old.length ∨ ys = []) :
    xs ++ old.drop xs.length ++ (ys ++ rest.drop ys.length) = xs ++ ys ++ (old ++ rest).drop (xs ++ ys).length := by
  rcases hy with hfull | rfl
  · rw [List.length_append, hfull, List.drop_length, List.append_nil, ← List.drop_drop, List.drop_left,
      List.append_assoc]
  · rw [List.append_nil, List.nil_append, List.length_nil, List.drop_zero, List.drop_append_of_le_length hx,
      List.append_assoc]

theorem exec_readFile (k : Kernel) (fd : ℤ) (base len : UInt64)
    (h : ∀ x ∈ cellsFrom base (k.fs.read fd len.toNat).2.1.length, b.CanWrite x) :
    ∃ b', exec (k.readFile blockMemory fd base len) b =
        (.ok ((k.fs.read fd len.toNat).1, { k with fs := (k.fs.read fd len.toNat).2.2 }), b') ∧
      exec (blockMemory.writeBytes base (k.fs.read fd len.toNat).2.1) b = (.ok (), b') ∧
      StoresIn (cellsFrom base (k.fs.read fd len.toNat).2.1.length) b b' := by
  obtain ⟨b', hrun, hstores⟩ := exec_writeBytes_all h
  refine ⟨b', ?_, hrun, hstores⟩
  unfold Kernel.readFile
  exact exec_bind_ok hrun

theorem exec_readv {k : Kernel} {fd : ℤ} (hfd : k.fs.Reads fd) (harray : b.HasArray a entries)
    (hwrite : ∀ x ∈ bufferCells (buffers entries), b.CanWrite x)
    (harr : Apart (cellsFrom a (16 * entries.length)) (bufferCells (buffers entries)))
    (hbufs : (buffers entries).Pairwise fun e e' => Apart e.cells e'.cells) (total : ℤ) :
    ∃ b', exec (Kernel.iovLoop blockMemory (fun k => k.readFile blockMemory fd) entries.length a total k) b =
        (.ok (sok (total + (k.fs.read fd (totalLength (buffers entries))).1),
          { k with fs := (k.fs.read fd (totalLength (buffers entries))).2.2 }), b') ∧
      StoresIn (bufferCells (buffers entries)) b b' ∧
      b'.gather (buffers entries) = (k.fs.read fd (totalLength (buffers entries))).2.1 ++
        (b.gather (buffers entries)).drop (k.fs.read fd (totalLength (buffers entries))).2.1.length := by
  induction entries generalizing a b k total with
  | nil =>
    refine ⟨b, ?_, .refl _ b, ?_⟩
    · have hzero : k.fs.read fd (totalLength (buffers [])) = (0, [], k.fs) := hfd.zero
      rw [hzero, Int.add_zero]
      rfl
    · have hzero : k.fs.read fd (totalLength (buffers [])) = (0, [], k.fs) := hfd.zero
      rw [hzero]
      rfl
  | cons e entries ih =>
    have hsize : 16 * (e :: entries).length = 16 + 16 * entries.length := by
      rw [List.length_cons]
      omega
    have htail : ∀ x ∈ cellsFrom (a + 16) (16 * entries.length), x ∈ cellsFrom a (16 * (e :: entries).length) := by
      intro x hx
      rw [hsize]
      exact cellsFrom_right (m := 16) hx
    by_cases he : e.base = 0
    · have hnull : buffers (e :: entries) = buffers entries := by simp [buffers, he]
      have hbase := harray.base
      rw [he] at hbase
      rw [hnull] at hwrite harr hbufs ⊢
      rw [List.length_cons, Kernel.exec_iovLoop_null hbase]
      exact ih hfd harray.2.2.2 hwrite (fun x hx => harr x (htail x hx)) hbufs total
    · have hcons : buffers (e :: entries) = e :: buffers entries := by simp [buffers, he]
      rw [hcons] at hwrite harr hbufs ⊢
      obtain ⟨hfirst, hbufs⟩ := List.pairwise_cons.mp hbufs
      obtain ⟨hnext, hnn⟩ := hfd.next e.len.toNat
      have hle := hfd.length_le e.len.toNat
      have hin : ∀ x ∈ cellsFrom e.base (k.fs.read fd e.len.toNat).2.1.length, x ∈ e.cells := by
        rintro x ⟨i, hi, rfl⟩
        exact ⟨i, by omega, rfl⟩
      have hothers : ∀ x ∈ bufferCells (buffers entries), x ∉ e.cells := by
        rintro x ⟨e', he', hx⟩ hxe
        exact hfirst e' he' x hxe hx
      obtain ⟨b₁, hcall, hbytes, hstores⟩ :=
        exec_readFile k fd e.base e.len fun x hx => hwrite x ⟨e, List.mem_cons_self, hin x hx⟩
      replace hstores := hstores.mono hin
      have harray' : b₁.HasArray (a + 16) entries :=
        harray.2.2.2.kept hstores fun x hx hxe => harr x (htail x hx) ⟨e, List.mem_cons_self, hxe⟩
      obtain ⟨b', hrun, hrest, hgather⟩ := ih (k := { k with fs := (k.fs.read fd e.len.toNat).2.2 }) hnext harray'
        (fun x ⟨e', he', hx⟩ => hstores.canWrite x (hwrite x ⟨e', List.mem_cons_of_mem _ he', hx⟩))
        (fun x hx ⟨e', he', hxe⟩ => harr x (htail x hx) ⟨e', List.mem_cons_of_mem _ he', hxe⟩) hbufs
        (total + (k.fs.read fd e.len.toNat).1)
      have hadd := hfd.add e.len.toNat (totalLength (buffers entries))
      have hlength : totalLength (e :: buffers entries) = e.len.toNat + totalLength (buffers entries) := rfl
      rw [hlength, hadd]
      refine ⟨b', ?_, ?_, ?_⟩
      · rw [List.length_cons, Kernel.exec_iovLoop_entry harray.base he harray.len hcall, if_neg (not_lt.mpr hnn), hrun,
          Int.add_assoc]
      · refine (hstores.mono ?_).trans (hrest.mono ?_)
        · intro x hx
          exact ⟨e, List.mem_cons_self, hx⟩
        · rintro x ⟨e', he', hx⟩
          exact ⟨e', List.mem_cons_of_mem _ he', hx⟩
      · have hkept : b'.guestBytes e.len.toNat e.base = b₁.guestBytes e.len.toNat e.base :=
          guestBytes_congr fun x hx => hrest.bytes x fun hxo => hothers x hxo hx
        have hold : b₁.gather (buffers entries) = b.gather (buffers entries) :=
          gather_congr fun x hx => hstores.bytes x (hothers x hx)
        have hsplit : ∀ c : Block, c.gather (e :: buffers entries) =
            c.guestBytes e.len.toNat e.base ++ c.gather (buffers entries) := fun c => List.flatMap_cons
        rw [hsplit, hsplit, hkept, guestBytes_store hle e.len.toNat_lt hbytes, hgather, hold]
        apply scatter_step
        · rw [length_guestBytes]
          exact hle
        · rw [length_guestBytes]
          by_cases hshort : (k.fs.read fd e.len.toNat).2.1.length < e.len.toNat
          · exact Or.inr (hfd.short hshort _)
          · exact Or.inl (by omega)

theorem HasArray.lists (h : b.HasArray a entries) : Kernel.Lists blockMemory b a entries := by
  induction entries generalizing a with
  | nil => trivial
  | cons e entries ih => exact ⟨h.base, h.len, ih h.2.2.2⟩

theorem HasArray.lists_console (h : b.HasArray a entries) (out : Fs.Console) :
    Kernel.Lists (Kernel.withConsole blockMemory) (b, out) a entries := by
  induction entries generalizing a with
  | nil => trivial
  | cons e entries ih =>
    refine ⟨?_, ?_, ih h.2.2.2⟩
    · rw [Kernel.load64_withConsole, Kernel.exec_silent, h.base]
    · rw [Kernel.load64_withConsole, Kernel.exec_silent, h.len]

section Writev

variable {k : Kernel} {fd : ℤ} {out : Fs.Console}

theorem exec_readPrinted (hread : ∀ x ∈ e.cells, b.CanRead x) :
    exec ((Kernel.withConsole blockMemory).readBytes e.len.toNat e.base) (b, out) =
      (.ok (b.guestBytes e.len.toNat e.base), b, out) := by
  rw [Kernel.readBytes_withConsole, Kernel.exec_silent, exec_readBytes_all hread]

variable (out) in
theorem exec_printFile_ok {r : ℤ} {fs' : Fs} (hcode : k.fs.writeCode fd = none) (hread : ∀ x ∈ e.cells, b.CanRead x)
    (hrun : k.fs.write fd (b.guestBytes e.len.toNat e.base) = .ok (r, fs')) :
    exec (k.printFile blockMemory fd e.base e.len) (b, out) =
      (.ok (r, { k with fs := fs' }), b, out ++ k.fs.printed fd (b.guestBytes e.len.toNat e.base)) := by
  unfold Kernel.printFile
  simp only [hcode]
  rw [exec_bind_ok (exec_readPrinted hread), hrun]
  rfl

theorem exec_printFile_died {c : Crash} (hcode : k.fs.writeCode fd = none) (hread : ∀ x ∈ e.cells, b.CanRead x)
    (hrun : k.fs.write fd (b.guestBytes e.len.toNat e.base) = .error c) :
    exec (k.printFile blockMemory fd e.base e.len) (b, out) = (.error c, b, out) := by
  unfold Kernel.printFile
  simp only [hcode]
  rw [exec_bind_ok (exec_readPrinted hread), hrun]
  rfl

structure WritesJoined (k : Kernel) (fd : ℤ) (b : Block) (buf : List UInt8) (total : ℤ)
    (res : Fs.Console → Except Crash (UInt64 × Kernel) × Block × Fs.Console) : Prop where
  done : ∀ r fs', k.fs.write fd buf = .ok (r, fs') →
    ∀ out, res out = (.ok (sok (total + r), { k with fs := fs' }), b, out ++ k.fs.printed fd buf)
  died : ∀ c, k.fs.write fd buf = .error c → ∀ out, res out = (.error c, b, out)

theorem exec_writev (hfd : k.fs.Writes fd) (harray : b.HasArray a entries)
    (hread : ∀ x ∈ bufferCells (buffers entries), b.CanRead x) (total : ℤ) :
    WritesJoined k fd b (b.gather (buffers entries)) total fun out =>
      exec (Kernel.iovLoop (Kernel.withConsole blockMemory) (fun k => k.printFile blockMemory fd) entries.length a
        total k) (b, out) := by
  induction entries generalizing a k total with
  | nil =>
    have hnil : k.fs.write fd (b.gather (buffers [])) = .ok (0, k.fs) := hfd
    refine ⟨?_, ?_⟩
    · intro r fs' hrun out
      rw [hnil] at hrun
      cases hrun
      have hprint : k.fs.printed fd (b.gather (buffers [])) = [] := k.fs.printed_nil fd
      rw [hprint, List.append_nil, Int.add_zero]
      rfl
    · intro c hrun
      rw [hnil] at hrun
      cases hrun
  | cons e entries ih =>
    by_cases he : e.base = 0
    · have hnull : buffers (e :: entries) = buffers entries := by simp [buffers, he]
      rw [hnull] at hread ⊢
      have hih := ih hfd harray.2.2.2 hread total
      have hstep : ∀ out, exec (Kernel.iovLoop (Kernel.withConsole blockMemory) (fun k => k.printFile blockMemory fd)
          (e :: entries).length a total k) (b, out) = exec (Kernel.iovLoop (Kernel.withConsole blockMemory)
          (fun k => k.printFile blockMemory fd) entries.length (a + 16) total k) (b, out) := by
        intro out
        have hbase := (harray.lists_console out).1
        rw [he] at hbase
        rw [List.length_cons, Kernel.exec_iovLoop_null hbase]
      simp only [hstep]
      exact hih
    · have hcons : buffers (e :: entries) = e :: buffers entries := by simp [buffers, he]
      have hsplit : b.gather (e :: buffers entries) =
          b.guestBytes e.len.toNat e.base ++ b.gather (buffers entries) := List.flatMap_cons
      rw [hcons] at hread ⊢
      have hreade : ∀ x ∈ e.cells, b.CanRead x := fun x hx => hread x ⟨e, List.mem_cons_self, hx⟩
      rw [hsplit]
      generalize hxs : b.guestBytes e.len.toNat e.base = xs
      generalize b.gather (buffers entries) = ys at ih ⊢
      have happend := hfd.append xs ys
      cases hfirst : k.fs.write fd xs with
      | error c =>
        rw [hfirst] at happend
        refine ⟨?_, ?_⟩
        · intro r fs' hrun
          rw [happend] at hrun
          cases hrun
        · intro c' hrun out
          rw [happend] at hrun
          cases hrun
          obtain ⟨hbase, hlen, -⟩ := harray.lists_console out
          rw [List.length_cons]
          exact Kernel.exec_iovLoop_died hbase he hlen (exec_printFile_died hfd.code hreade (hxs ▸ hfirst))
      | ok u =>
        obtain ⟨r₁, fs₁⟩ := u
        rw [hfirst, ok_bind] at happend
        obtain ⟨hnext, hnn⟩ := hfd.next hfirst
        have hstep : ∀ out, exec (Kernel.iovLoop (Kernel.withConsole blockMemory)
            (fun k => k.printFile blockMemory fd) (e :: entries).length a total k) (b, out) =
            exec (Kernel.iovLoop (Kernel.withConsole blockMemory) (fun k => k.printFile blockMemory fd)
              entries.length (a + 16) (total + r₁) { k with fs := fs₁ }) (b, out ++ k.fs.printed fd xs) := by
          intro out
          obtain ⟨hbase, hlen, -⟩ := harray.lists_console out
          have hcall := exec_printFile_ok out hfd.code hreade (hxs ▸ hfirst)
          rw [List.length_cons, Kernel.exec_iovLoop_entry hbase he hlen hcall, if_neg (not_lt.mpr hnn), hxs]
        have hrest := ih (k := { k with fs := fs₁ }) hnext harray.2.2.2
          (fun x ⟨e', he', hx⟩ => hread x ⟨e', List.mem_cons_of_mem _ he', hx⟩) (total + r₁)
        refine ⟨?_, ?_⟩
        · intro r fs' hrun out
          rw [happend] at hrun
          obtain ⟨v, hv, hrun⟩ := bind_ok hrun
          cases hrun
          rw [hstep, hrest.done v.1 v.2 hv, Int.add_assoc, List.append_assoc, Fs.printed_append]
          rw [show Fs.printed fs₁ fd ys = k.fs.printed fd ys from Fs.printed_next hfirst ys]
        · intro c hrun out
          rw [happend] at hrun
          have hys : fs₁.write fd ys = .error c := by
            cases hv : fs₁.write fd ys with
            | error c' =>
              rw [hv] at hrun
              cases hrun
              rfl
            | ok v =>
              rw [hv] at hrun
              cases hrun
          have hquiet : k.fs.printed fd xs = [] := (Fs.printed_next hfirst xs).symm.trans (Fs.printed_died hys xs)
          rw [hstep, hquiet, List.append_nil, hrest.died c hys]

end Writev

end Block

namespace Kernel

def writevPrinting (mem : GuestMemory Block) (k : Kernel) (s : Syscall) : Guest (Block × Fs.Console) (UInt64 × Kernel) :=
  iovLoop (withConsole mem) (fun k => k.printFile mem (cint s.a1)) s.a3.toNat s.a2 0 k

end Kernel

open Block

theorem reply_of_nonneg {r : ℤ} (h : 0 ≤ r) : reply r = sok (0 + r) := by
  rw [reply, if_neg (not_lt.mpr h), Int.zero_add]

section Syscalls

variable {k : Kernel} {s : Syscall} {b : Block} {entries : List Iovec}

theorem exec_readv_any (harray : b.HasArray s.a2 entries) (hsome : buffers entries ≠ [])
    (harr : Apart (cellsFrom s.a2 (16 * entries.length)) (bufferCells (buffers entries)))
    (hbufs : (buffers entries).Pairwise fun e e' => Apart e.cells e'.cells)
    (hwrite : ∀ x ∈ bufferCells (buffers entries), b.CanWrite x) {u : ℤ × List UInt8 × Fs}
    (hu : k.fs.read (cint s.a1) (totalLength (buffers entries)) = u) :
    ∃ b', exec (Kernel.iovLoop blockMemory (fun k => k.readFile blockMemory (cint s.a1)) entries.length s.a2 0 k) b =
        (.ok (reply u.1, { k with fs := u.2.2 }), b') ∧
      b'.gather (buffers entries) = u.2.1 ++ (b.gather (buffers entries)).drop u.2.1.length ∧
      (∀ x, x ∉ bufferCells (buffers entries) → b'.guestByte x = b.guestByte x) ∧
      (u.1 < 0 → b' = b ∧ u.2.2 = k.fs) := by
  by_cases hfd : k.fs.Reads (cint s.a1)
  · obtain ⟨-, hnn⟩ := hfd.next (totalLength (buffers entries))
    obtain ⟨b', hrun, hstores, hgather⟩ := exec_readv hfd harray hwrite harr hbufs 0
    rw [hu] at hnn hrun hgather
    refine ⟨b', ?_, hgather, hstores.bytes, fun hneg => absurd hneg (not_lt.mpr hnn)⟩
    rw [hrun, reply_of_nonneg hnn]
  · obtain ⟨r, hr, herr⟩ := Fs.read_error hfd
    have hcall : ∀ base len, exec (k.readFile blockMemory (cint s.a1) base len) b = (.ok (r, k), b) := by
      intro base len
      unfold Kernel.readFile
      rw [herr]
      rfl
    rw [herr] at hu
    subst hu
    exact ⟨b, Kernel.exec_iovLoop_refused harray.lists hsome hr hcall 0, rfl, fun _ _ => rfl, fun _ => ⟨rfl, rfl⟩⟩

theorem exec_writevPrinting (hcount : s.a3.toNat = entries.length) (harray : b.HasArray s.a2 entries)
    (hsome : buffers entries ≠ []) (hread : ∀ x ∈ bufferCells (buffers entries), b.CanRead x) (out : Fs.Console) :
    (∀ r fs', k.fs.write (cint s.a1) (b.gather (buffers entries)) = .ok (r, fs') →
      exec (k.writevPrinting blockMemory s) (b, out) = (.ok (reply r, { k with fs := fs' }), b,
        out ++ k.fs.printed (cint s.a1) (b.gather (buffers entries))) ∧
      (r < 0 → fs' = k.fs ∧ k.fs.printed (cint s.a1) (b.gather (buffers entries)) = [])) ∧
    ∀ c, k.fs.write (cint s.a1) (b.gather (buffers entries)) = .error c →
      exec (k.writevPrinting blockMemory s) (b, out) = (.error c, b, out) := by
  have hlists := harray.lists_console out
  unfold Kernel.writevPrinting
  rw [hcount]
  cases hcode : k.fs.writeCode (cint s.a1) with
  | some r =>
    rcases k.fs.writeCode_cases (cint s.a1) with ⟨r', hr, hcode', herr⟩ | ⟨hcode', -⟩ | ⟨hcode', -⟩
    · obtain ⟨hrun, hprint⟩ := herr (b.gather (buffers entries))
      have hcall : ∀ base len, exec (k.printFile blockMemory (cint s.a1) base len) (b, out) = (.ok (r', k), b, out) := by
        intro base len
        unfold Kernel.printFile
        rw [hcode']
        rfl
      rw [hrun, hprint]
      constructor
      · intro r₁ fs' h
        cases h
        refine ⟨?_, fun _ => ⟨rfl, rfl⟩⟩
        rw [Kernel.exec_iovLoop_refused hlists hsome hr hcall, List.append_nil]
      · intro c h
        cases h
    · rw [hcode] at hcode'
      cases hcode'
    · rw [hcode] at hcode'
      cases hcode'
  | none =>
    rcases Fs.writes_or_dies hcode with hfd | hdies
    · have hjoined := exec_writev hfd harray hread 0
      refine ⟨?_, fun c h => hjoined.died c h out⟩
      intro r fs' h
      have hnn := (hfd.next h).2
      rw [reply_of_nonneg hnn]
      exact ⟨hjoined.done r fs' h out, fun hneg => absurd hneg (not_lt.mpr hnn)⟩
    · rw [hdies]
      constructor
      · intro r fs' h
        cases h
      intro c h
      cases h
      apply Kernel.exec_iovLoop_dies hlists hsome
      intro e he
      exact exec_printFile_died hcode (fun x hx => hread x ⟨e, he, hx⟩) (hdies _)

theorem exec_writev_silent (junk : ℕ → UInt8) {r : Except Crash (UInt64 × Kernel)} {b' : Block} {out out' : Fs.Console}
    (h : exec (k.writevPrinting blockMemory s) (b, out) = (r, b', out')) :
    exec (k.fileSyscall blockMemory s junk .writev) b = (r, b') := by
  have hs := Kernel.silences_iovLoop blockMemory
    (fun k => Kernel.silences_printFile blockMemory k (cint s.a1)) s.a3.toNat s.a2 0 k b out
  unfold Kernel.writevPrinting at h
  rw [h] at hs
  exact Prod.ext hs.1.symm hs.2.symm

end Syscalls

theorem vectored_io_plain {k : Kernel} {s : Syscall} {b : Block} {entries : List Iovec} (junk : ℕ → UInt8)
    (hcount : s.a3.toNat = entries.length) (harray : b.HasArray s.a2 entries) (hsome : buffers entries ≠ [])
    (hapart : (cellsFrom s.a2 (16 * entries.length) :: (buffers entries).map Iovec.cells).Pairwise Apart) :
    ((∀ x ∈ bufferCells (buffers entries), b.CanWrite x) →
      let u := k.fs.read (cint s.a1) (totalLength (buffers entries))
      ∃ b', exec (k.fileSyscall blockMemory s junk .readv) b = (.ok (reply u.1, { k with fs := u.2.2 }), b') ∧
        b'.gather (buffers entries) = u.2.1 ++ (b.gather (buffers entries)).drop u.2.1.length ∧
        (∀ x, x ∉ bufferCells (buffers entries) → b'.guestByte x = b.guestByte x) ∧
        (u.1 < 0 → b' = b ∧ u.2.2 = k.fs)) ∧
    ((∀ x ∈ bufferCells (buffers entries), b.CanRead x) → ∀ out,
      let buf := b.gather (buffers entries)
      (∀ r fs', k.fs.write (cint s.a1) buf = .ok (r, fs') →
        exec (k.fileSyscall blockMemory s junk .writev) b = (.ok (reply r, { k with fs := fs' }), b) ∧
        exec (k.writevPrinting blockMemory s) (b, out) =
          (.ok (reply r, { k with fs := fs' }), b, out ++ k.fs.printed (cint s.a1) buf) ∧
        (r < 0 → fs' = k.fs ∧ k.fs.printed (cint s.a1) buf = [])) ∧
      (∀ c, k.fs.write (cint s.a1) buf = .error c →
        exec (k.fileSyscall blockMemory s junk .writev) b = (.error c, b) ∧
        exec (k.writevPrinting blockMemory s) (b, out) = (.error c, b, out))) := by
  obtain ⟨harr, hbufs⟩ := List.pairwise_cons.mp hapart
  constructor
  · intro hwrite u
    have hcells : Apart (cellsFrom s.a2 (16 * entries.length)) (bufferCells (buffers entries)) := by
      rintro x hx ⟨e, he, hxe⟩
      exact harr e.cells (List.mem_map_of_mem he) x hx hxe
    obtain ⟨b', hrun, hrest⟩ := exec_readv_any harray hsome hcells (List.pairwise_map.mp hbufs) hwrite rfl
    refine ⟨b', ?_, hrest⟩
    unfold Kernel.fileSyscall
    rw [hcount]
    exact hrun
  · intro hread out buf
    obtain ⟨hdone, hdied⟩ := exec_writevPrinting (k := k) hcount harray hsome hread out
    constructor
    · intro r fs' hrun
      obtain ⟨hconsole, herror⟩ := hdone r fs' hrun
      exact ⟨exec_writev_silent junk hconsole, hconsole, herror⟩
    · intro c hrun
      have hconsole := hdied c hrun
      exact ⟨exec_writev_silent junk hconsole, hconsole⟩

def vectorPage : Page where
  status := stRW
  dirty := true
  invisible := false
  snap := .zero
  data := fun i => (((le64 0 ++ le64 5 ++ le64 0x36f00000040 ++ le64 2 ++ le64 0x36f00000080 ++ le64 1 ++ List.replicate 16 0 ++
    ascii "hi" ++ List.replicate 62 0 ++ ascii "!")[i.val]?).getD 0)
  native := protToNative .rw

theorem vectored_io_plain_two : ∃ (k k' : Kernel) (s : Syscall) (b b' : Block) (entries : List Iovec),
    entries.length = 3 ∧ (buffers entries).length = 2 ∧
      exec (k.fileSyscall blockMemory s (fun _ => 0) .readv) b = (.ok (3, k'), b') ∧
      b'.gather (buffers entries) = [8, 9, 10] ∧
      ∃ k'', exec (k.fileSyscall blockMemory s (fun _ => 0) .writev) b = (.ok (3, k''), b) ∧
        (k''.fs.byFd 3).map MountedFile.data = some ([7] ++ ascii "hi!") := by
  let k : Kernel := ⟨⟨[⟨ascii "f", 3, .regular, [7, 8, 9, 10], 1, true, by decide⟩]⟩, 0,
    Layout.build onePage ⟨0, 0, 0, 0, 0⟩, ⟨0, 0⟩, ThreadSet.new⟩
  let s : Syscall := ⟨19, 3, 0x36f00000000, 3, 0, 0⟩
  let b : Block := { smallest with pages := fun _ => vectorPage, swappedIn := true, active := true }
  let entries : List Iovec := [⟨0, 5⟩, ⟨0x36f00000040, 2⟩, ⟨0x36f00000080, 1⟩]
  have hbufs : buffers entries = [⟨0x36f00000040, 2⟩, ⟨0x36f00000080, 1⟩] := by decide
  have hread : ∀ {c : UInt64} {n : ℕ}, (∀ i < n, b.mapped (c + UInt64.ofNat i) = true) →
      ∀ x ∈ cellsFrom c n, b.CanRead x ∧ b.CanWrite x := by
    rintro c n h x ⟨i, hi, rfl⟩
    exact ⟨⟨h i hi, rfl⟩, h i hi, Or.inl rfl⟩
  have harray : b.HasArray s.a2 entries :=
    ⟨fun x hx => (hread (by decide +kernel) x hx).1, by decide +kernel, by decide +kernel,
      fun x hx => (hread (by decide +kernel) x hx).1, by decide +kernel, by decide +kernel,
      fun x hx => (hread (by decide +kernel) x hx).1, by decide +kernel, by decide +kernel, trivial⟩
  have haccess : ∀ x ∈ bufferCells (buffers entries), b.CanRead x ∧ b.CanWrite x := by
    rw [hbufs]
    rintro x ⟨e, he, hx⟩
    rcases List.mem_cons.mp he with rfl | he
    · exact hread (by decide +kernel) x hx
    · obtain rfl := List.mem_singleton.mp he
      exact hread (by decide +kernel) x hx
  have hapart : ∀ {c d : UInt64} {m n : ℕ}, (∀ i < m, ∀ j < n, c + UInt64.ofNat i ≠ d + UInt64.ofNat j) →
      Apart (cellsFrom c m) (cellsFrom d n) := by
    rintro c d m n h x ⟨i, hi, rfl⟩ ⟨j, hj, he⟩
    exact h i hi j hj he
  have hall : (cellsFrom s.a2 (16 * entries.length) :: (buffers entries).map Iovec.cells).Pairwise Apart := by
    rw [hbufs]
    refine List.pairwise_cons.mpr ⟨?_, List.pairwise_cons.mpr ⟨?_, List.pairwise_singleton _ _⟩⟩
    · intro S hS
      rcases List.mem_cons.mp hS with rfl | hS
      · exact hapart (by decide +kernel)
      · obtain rfl := List.mem_singleton.mp hS
        exact hapart (by decide +kernel)
    · intro S hS
      obtain rfl := List.mem_singleton.mp hS
      exact hapart (by decide +kernel)
  obtain ⟨hreadv, hwritev⟩ := vectored_io_plain (k := k) (fun _ => 0) rfl harray (by rw [hbufs]; simp) hall
  obtain ⟨b', hrun, hgather, -⟩ := hreadv fun x hx => (haccess x hx).2
  obtain ⟨hwrite, -, -⟩ := (hwritev (fun x hx => (haccess x hx).1) []).1 3
    ⟨[⟨ascii "f", 3, .regular, [7] ++ ascii "hi!", 4, true, by decide⟩]⟩ (by decide +kernel)
  exact ⟨k, _, s, b, b', entries, rfl, by decide, hrun, hgather.trans (by decide +kernel), _, hwrite, by decide⟩

end MiniBox
