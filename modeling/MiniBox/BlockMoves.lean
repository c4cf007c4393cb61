import MiniBox.MemoryEdits
import MiniBox.LoadSpecs

namespace MiniBox

open ByteStream IndexLoops Outcomes

inductive PageMove (b : Block) (p : Page) : Page → Prop
  | same : PageMove b p p
  | edit (e : PageEdit) : e ≠ .status stFree → PageMove b p (b.sync (e.apply p))
  | write (o : Fin 4096) (v : UInt8) : b.swappedIn = true →
      (p.native.write = true ∨ p.isWritable = true) → PageMove b p (p.written o v)

structure Moves (b b' : Block) : Prop where
  addr : b'.addr = b.addr
  sealed : b'.sealed = b.sealed
  swappedIn : b'.swappedIn = b.swappedIn
  hash : b'.hash = b.hash
  pages : ∀ i, PageMove b (b.pages i) (b'.pages i)

variable {b b' : Block}

theorem Moves.npages (h : Moves b b') : b'.npages = b.npages := by rw [Block.npages, h.addr]; rfl

theorem Moves.refl (b : Block) : Moves b b := ⟨rfl, rfl, rfl, rfl, fun _ => .same⟩

theorem Settles.moves (h : Settles b b') : Moves b b' := by
  rcases h with rfl | ⟨ps, pc, e, -, he, rfl⟩
  · exact Moves.refl b'
  · refine ⟨rfl, rfl, rfl, rfl, fun i => ?_⟩
    change PageMove b (b.pages i) (mapRange (fun p => b.sync (e.apply p)) ps pc b.pages i)
    by_cases hi : ps ≤ i ∧ i < ps + pc
    · rw [mapRange_mem _ _ _ _ _ hi]
      exact .edit e he
    · rw [mapRange_not_mem _ _ _ _ _ hi]
      exact .same

theorem MemOp.moves {op : MemOp} {r : ℤ} (h : op.run b = .ok (r, b')) : Moves b b' := (MemOp.run_settles h).moves

theorem guestWrite_moves {a : UInt64} {v : UInt8} (h : b.guestWrite a v = .ok b') : Moves b b' := by
  have hm : b.mapped a = true := by
    rw [guestWrite_eq] at h
    split_ifs at h with hm
    exact hm
  obtain ⟨-, hw, rfl⟩ := guestWrite_cases h
  simp only [Block.mapped, Bool.and_eq_true] at hm
  refine ⟨rfl, rfl, rfl, rfl, fun i => ?_⟩
  rw [setPage_pages]
  by_cases hi : i = b.pageOf a
  · subst hi
    rw [Function.update_self]
    exact .write _ _ hm.1 hw
  · rw [Function.update_of_ne hi]
    exact .same

theorem PageMove.invisible {p q : Page} (h : PageMove b p q) : q.invisible = p.invisible := by
  cases h with
  | same => rfl
  | edit e he => rw [sync_invisible, apply_invisible]
  | write o v hs hw =>
    unfold Page.written
    split_ifs
    · rfl
    · exact p.maybeSnapshot_invisible

theorem PageMove.guarded {p q : Page} (h : PageMove b p q) (hg : p.Guarded b.swappedIn) :
    q.Guarded b.swappedIn := by
  cases h with
  | same => exact hg
  | edit e he => exact guarded_sync hg (apply_native e p)
  | write o v hs hw => exact hg.written hs o v

theorem PageMove.tracks {p q : Page} {base : PageData} (h : PageMove b p q) (hg : p.Guarded b.swappedIn)
    (ht : p.Tracks base) : q.Tracks base := by
  cases h with
  | same => exact ht
  | edit e he => exact tracks_sync _ _ (ht.apply e)
  | write o v hs hw => exact ht.written hg o v

inductive GuestMove : Block → Block → Prop
  | mem {b b' : Block} {op : MemOp} {r : ℤ} : op.NoWrap → op.run b = .ok (r, b') → GuestMove b b'
  | write {b b' : Block} {a : UInt64} {v : UInt8} : b.guestWrite a v = .ok b' → GuestMove b b'

theorem GuestMove.moves (h : GuestMove b b') : Moves b b' := by
  cases h with
  | mem hw h => exact MemOp.moves h
  | write h => exact guestWrite_moves h

inductive Switch : Block → Block → Prop
  | activate {b b' : Block} : b.activate = .ok b' → Switch b b'
  | deactivate {b : Block} : Switch b b.deactivate

theorem Switch.cases (h : Switch b b') :
    b'.addr = b.addr ∧ b'.sealed = b.sealed ∧ b'.hash = b.hash ∧
      ((b'.swappedIn = b.swappedIn ∧ b'.pages = b.pages) ∨
        (b'.swappedIn = true ∧ ∀ i, i < b.npages → b'.pages i = (b.pages i).refresh)) := by
  cases h with
  | deactivate => exact ⟨rfl, rfl, rfl, Or.inl ⟨rfl, rfl⟩⟩
  | activate h =>
    unfold Block.activate at h
    split_ifs at h with ha hs
    · cases h
      exact ⟨rfl, rfl, rfl, Or.inl ⟨rfl, rfl⟩⟩
    · cases h
      exact ⟨rfl, rfl, rfl, Or.inl ⟨rfl, rfl⟩⟩
    · rw [refreshAll_eq, ok_bind] at h
      cases h
      refine ⟨rfl, rfl, rfl, Or.inr ⟨rfl, fun i hi => ?_⟩⟩
      exact mapRange_mem _ _ _ _ _ ⟨Nat.zero_le i, by rw [Nat.zero_add]; exact hi⟩

end MiniBox
