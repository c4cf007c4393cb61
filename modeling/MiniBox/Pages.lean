import MiniBox.ByteStream

namespace MiniBox

open ByteStream

inductive Prot
  | none | r | rw | rx | rwx | rwStack
  deriving DecidableEq, Repr

structure Access where
  read : Bool
  write : Bool
  exec : Bool
  deriving DecidableEq, Repr

def protToNative : Prot → Access
  | .none => ⟨false, false, false⟩
  | .r => ⟨true, false, false⟩
  | .rw => ⟨true, true, false⟩
  | .rx => ⟨true, false, true⟩
  | .rwx => ⟨true, true, true⟩
  | .rwStack => ⟨true, true, false⟩

def stFree : UInt8 := 0x00
def stNone : UInt8 := 0x20
def stR : UInt8 := 0x01
def stRW : UInt8 := 0x03
def stRX : UInt8 := 0x05
def stRWX : UInt8 := 0x07
def stRWStack : UInt8 := 0x13

def statusProt (s : UInt8) : Prot :=
  if s = stNone then .none
  else if s = stR then .r
  else if s = stRW then .rw
  else if s = stRX then .rx
  else if s = stRWX then .rwx
  else if s = stRWStack then .rwStack
  else .none

def protStatus : Prot → UInt8
  | .none => stNone
  | .r => stR
  | .rw => stRW
  | .rx => stRX
  | .rwx => stRWX
  | .rwStack => stRWStack

abbrev PageData := Bytes 4096

inductive Snapshot
  | none
  | zero
  | data (bytes : PageData)

def Snapshot.isZero : Snapshot → Bool
  | .zero => true
  | .none => false
  | .data _ => false

structure Page where
  status : UInt8
  dirty : Bool
  invisible : Bool
  snap : Snapshot
  data : PageData
  native : Access

/-- The Linux branch of `mb_page_native_prot`, on the two fields it reads. -/
def nativeProt (status : UInt8) (dirty : Bool) : Prot :=
  if status = stFree then .none
  else if status = stRW ∧ dirty = false then .r
  else if status = stRWX ∧ dirty = false then .rx
  else if status = stRWStack then (if dirty then .rw else .r)
  else statusProt status

namespace Page

def nativeProt (p : Page) : Prot := MiniBox.nativeProt p.status p.dirty

def maybeSnapshot (p : Page) : Page :=
  match p.snap with
  | .none => { p with snap := .data p.data }
  | .zero => p
  | .data _ => p

def release (p : Page) : Page :=
  { p.maybeSnapshot with
    data := zeroes 4096
    dirty := !p.invisible && !p.maybeSnapshot.snap.isZero }

def setStatus (st : UInt8) (p : Page) : Page := { p with status := st }

def protect (prot : Prot) (p : Page) : Page := { p with native := protToNative prot }

def refresh (p : Page) : Page := p.protect p.nativeProt

def isFree (p : Page) : Bool := decide (p.status = stFree)

@[simp] theorem maybeSnapshot_status (p : Page) : p.maybeSnapshot.status = p.status := by
  unfold maybeSnapshot; split <;> rfl

@[simp] theorem maybeSnapshot_dirty (p : Page) : p.maybeSnapshot.dirty = p.dirty := by
  unfold maybeSnapshot; split <;> rfl

@[simp] theorem maybeSnapshot_invisible (p : Page) : p.maybeSnapshot.invisible = p.invisible := by
  unfold maybeSnapshot; split <;> rfl

@[simp] theorem maybeSnapshot_data (p : Page) : p.maybeSnapshot.data = p.data := by
  unfold maybeSnapshot; split <;> rfl

@[simp] theorem maybeSnapshot_native (p : Page) : p.maybeSnapshot.native = p.native := by
  unfold maybeSnapshot; split <;> rfl

end Page

def grants (st : UInt8) : Access :=
  if st = 0x01 then ⟨true, false, false⟩
  else if st = 0x03 ∨ st = 0x13 then ⟨true, true, false⟩
  else if st = 0x05 then ⟨true, false, true⟩
  else if st = 0x07 then ⟨true, true, true⟩
  else ⟨false, false, false⟩

theorem grants_eq (st : UInt8) : grants st = protToNative (statusProt st) := by
  unfold grants statusProt stNone stR stRW stRX stRWX stRWStack
  by_cases h0 : st = 0x20
  · subst h0; rfl
  by_cases h1 : st = 0x03
  · subst h1; rfl
  by_cases h2 : st = 0x13
  · subst h2; rfl
  simp only [h0, h1, h2, or_self, ↓reduceIte]
  split_ifs <;> rfl

theorem native_eq (st : UInt8) (d : Bool) :
    protToNative (nativeProt st d) = { grants st with write := d && (grants st).write } := by
  rw [grants_eq]
  by_cases h0 : st = stFree
  · subst h0; cases d <;> rfl
  by_cases h1 : st = stRW
  · subst h1; cases d <;> rfl
  by_cases h2 : st = stRWX
  · subst h2; cases d <;> rfl
  by_cases h3 : st = stRWStack
  · subst h3; cases d <;> rfl
  have hw : (protToNative (statusProt st)).write = false := by
    simp only [statusProt, h1, h2, h3, ↓reduceIte]
    split_ifs <;> rfl
  simp only [nativeProt, h0, h1, h2, h3, false_and, ↓reduceIte, hw, Bool.and_false]
  exact congrArg (fun w => { protToNative (statusProt st) with write := w }) hw

theorem grants_write (st : UInt8) :
    (grants st).write = true ↔ st = stRW ∨ st = stRWX ∨ st = stRWStack := by
  rw [grants_eq]
  constructor
  · intro h
    by_contra hc
    push Not at hc
    simp only [statusProt, hc.1, hc.2.1, hc.2.2, ↓reduceIte] at h
    split_ifs at h <;> simp [protToNative] at h
  · rintro (rfl | rfl | rfl) <;> rfl

end MiniBox
