import MiniBox.BlockTwins
import MiniBox.KernelLockstep

namespace MiniBox

open Effects Relational

/-- A block under watch: what was written, and whether a byte of an invisible page was
read before it was written. -/
structure Bus where
  block : Block
  written : List UInt64
  careless : Bool

def Bus.noted (m : Bus) (a : UInt64) : Bus :=
  { m with careless := m.careless ||
      ((m.block.pages (m.block.pageOf a)).invisible && decide (a ∉ m.written)) }

def busMemory : GuestMemory Bus where
  read a := attempt fun m => (m.block.guestRead a).map (·, m.noted a)
  fetch a := attempt fun m => (m.block.guestFetch a).map (·, m.noted a)
  write a v := attempt fun m =>
    (m.block.guestWrite a v).map fun b => ((), { m with block := b, written := a :: m.written })
  memOp op := attempt fun m => (op.run m.block).map fun u => (u.1, { m with block := u.2 })

def Host.careful (h : Host) (steps : List GuestStep) : Except Crash Bool := do
  let h ← h.activate
  return !(Runs.final busMemory.next (some h.toKernel, ⟨h.block, [], false⟩) steps).2.careless

def BusTwin (m : Bus) (b : Block) : Prop := m.block.Twin m.written b

def Careless (m : Bus) : Prop := m.careless = true

theorem noted_stay {m : Bus} (a : UInt64) (h : Careless m) : Careless (m.noted a) := by
  unfold Careless Bus.noted at *
  simp [h]

theorem lock_noted {f : Block → Except Crash UInt8} {a : UInt64}
    (h : ∀ (m : Bus) b, BusTwin m b → SameOutcome
      (fun v w => (m.block.pages (m.block.pageOf a)).invisible = false ∨ a ∈ m.written → v = w) (f m.block) (f b)) :
    Lock BusTwin Careless Eq (attempt fun m : Bus => (f m.block).map (·, m.noted a))
      (attempt fun b => (f b).map (·, b)) := by
  apply lock_attempt
  · intro m b hr
    have hsame := h m b hr
    cases hf : f m.block with
    | error e =>
      rw [hf] at hsame
      cases hg : f b with
      | error e' =>
        rw [hg] at hsame
        exact .inr hsame
      | ok w =>
        rw [hg] at hsame
        exact hsame.elim
    | ok v =>
      rw [hf] at hsame
      cases hg : f b with
      | error e' =>
        rw [hg] at hsame
        exact hsame.elim
      | ok w =>
        rw [hg] at hsame
        by_cases hs : (m.block.pages (m.block.pageOf a)).invisible = false ∨ a ∈ m.written
        · exact .inr ⟨hsame hs, hr⟩
        · push Not at hs
          refine .inl ⟨v, _, rfl, ?_⟩
          simp [Careless, Bus.noted, hs.1, hs.2]
  · intro m v m' he hf
    cases hv : f m.block with
    | error e =>
      rw [hv] at hf
      cases hf
    | ok v' =>
      rw [hv] at hf
      cases hf
      exact noted_stay a he

theorem related_bus : Related BusTwin Careless busMemory blockMemory := by
  constructor
  · intro a
    exact lock_noted (f := fun b => b.guestRead a) fun m b hr => Block.Twin.guestRead hr a
  · intro a
    exact lock_noted (f := fun b => b.guestFetch a) fun m b hr => Block.Twin.guestFetch hr a
  · intro a v
    apply lock_attempt
    · intro m b hr
      have hsame := Block.Twin.guestWrite hr a v
      refine .inr ?_
      cases hf : m.block.guestWrite a v <;> cases hg : b.guestWrite a v <;> rw [hf, hg] at hsame
      · exact hsame
      · exact hsame.elim
      · exact hsame.elim
      · exact ⟨rfl, hsame⟩
    · intro m u m' he hf
      cases hw : m.block.guestWrite a v <;> rw [hw] at hf <;> cases hf
      exact he
  · intro op
    apply lock_attempt
    · intro m b hr
      have hsame := Block.Twin.memOp hr op
      refine .inr ?_
      cases hf : op.run m.block <;> cases hg : op.run b <;> rw [hf, hg] at hsame
      · exact hsame
      · exact hsame.elim
      · exact hsame.elim
      · exact hsame
    · intro m u m' he hf
      cases hw : op.run m.block <;> rw [hw] at hf <;> cases hf
      exact he

theorem outputs_careful {k k' : Kernel} {b c : Block} (hk : k.Twin False k') (hb : b.Twin [] c)
    {steps : List GuestStep} (hx : ∀ x ∈ steps, x.noFile = true)
    (hc : (Runs.final busMemory.next (some k, ⟨b, [], false⟩) steps).2.careless = false) :
    Runs.outputs busMemory.next (some k, ⟨b, [], false⟩) steps = Runs.outputs blockMemory.next (some k', c) steps := by
  have hside : Side False BusTwin (some k, (⟨b, [], false⟩ : Bus)) (some k', c) := ⟨.some hk, hb⟩
  apply outputs_related related_bus hside
  · exact fun x hm => .inr (hx x hm)
  · simp [Careless, hc]

end MiniBox
