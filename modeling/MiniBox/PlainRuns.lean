import MiniBox.PlainRefinement
import MiniBox.BaselineInvariant

namespace MiniBox

open ByteStream IndexLoops Outcomes

def Block.act (b : Block) : Act → Answer × Block
  | .read a => match b.guestRead a with
    | .ok v => (.byte v, b)
    | .error _ => (.fault, b)
  | .write a v => match b.guestWrite a v with
    | .ok b' => (.stored, b')
    | .error _ => (.fault, b)
  | .fetch a => match b.guestFetch a with
    | .ok v => (.byte v, b)
    | .error _ => (.fault, b)
  | .mem op => match op.run b with
    | .ok (r, b') => (.returned r, b')
    | .error _ => (.fault, b)
  | .markInvisible addr => match b.markInvisible addr with
    | .ok (r, b') => (.returned r, b')
    | .error _ => (.fault, b)
  | .sealBlock => match b.sealBlock with
    | .ok (r, b') => (.returned r, b')
    | .error _ => (.fault, b)

variable {b : Block}

section Accesses

variable (h : b.Synced) (a : UInt64)

include h

theorem Block.Synced.mapped : b.mapped a = b.addr.contains a := by rw [Block.mapped, h.swappedIn, Bool.true_and]

theorem Block.Synced.native_eq (i : ℕ) :
    (b.pages i).native = { grants (b.pages i).status with
      write := (b.pages i).dirty && (grants (b.pages i).status).write } := by
  rw [h.native i, Page.nativeProt, MiniBox.native_eq]

theorem guestRead_plain : b.guestRead a =
    if ((Plain.of b).access a).read then .ok ((Plain.of b).byte a) else .error .segv := by
  unfold Block.guestRead Plain.access
  rw [h.mapped, h.native_eq]
  change (if b.addr.contains a && (grants (b.pages (b.pageOf a)).status).read then _ else _) =
    if (if b.addr.contains a then grants (b.pages (b.pageOf a)).status else _ : Access).read then _ else _
  cases b.addr.contains a <;> rfl

theorem guestFetch_plain : b.guestFetch a =
    if ((Plain.of b).access a).exec then .ok ((Plain.of b).byte a) else .error .segv := by
  unfold Block.guestFetch Plain.access
  rw [h.mapped, h.native_eq]
  change (if b.addr.contains a && (grants (b.pages (b.pageOf a)).status).exec then _ else _) =
    if (if b.addr.contains a then grants (b.pages (b.pageOf a)).status else _ : Access).exec then _ else _
  cases b.addr.contains a <;> rfl

end Accesses

theorem written_native {p : Page} (hp : p.native = protToNative p.nativeProt) (o : Fin 4096) (v : UInt8) :
    (p.written o v).native = protToNative (p.written o v).nativeProt := by
  unfold Page.written
  split_ifs
  · exact hp
  · exact refresh_native _

theorem of_setPage (b : Block) (i : ℕ) (o : Fin 4096) (v : UInt8) :
    Plain.of (b.setPage i ((b.pages i).written o v)) =
      { Plain.of b with data := Function.update (Plain.of b).data i (Function.update (b.pages i).data o v) } := by
  obtain ⟨hd, hs⟩ := written_plain (b.pages i) o v
  unfold Plain.of
  rw [Plain.mk.injEq]
  refine ⟨rfl, funext fun j => ?_, funext fun j => ?_, rfl⟩
  · rw [setPage_pages]
    by_cases hj : j = i
    · subst hj
      rw [Function.update_self, hs]
    · rw [Function.update_of_ne hj]
  · rw [setPage_pages]
    by_cases hj : j = i
    · subst hj
      rw [Function.update_self, Function.update_self, hd]
    · rw [Function.update_of_ne hj, Function.update_of_ne hj]

theorem guestWrite_plain (h : b.Synced) (a : UInt64) (v : UInt8) :
    if ((Plain.of b).access a).write then
      ∃ b', b.guestWrite a v = .ok b' ∧ Plain.of b' = (Plain.of b).store a v ∧ b'.Synced
    else ∃ c, b.guestWrite a v = .error c := by
  have hn : ((b.pages (b.pageOf a)).native.write || (b.pages (b.pageOf a)).isWritable) =
      (grants (b.pages (b.pageOf a)).status).write := by
    rw [h.native_eq, isWritable_eq]
    cases (b.pages (b.pageOf a)).dirty <;> simp
  rw [guestWrite_eq, h.mapped, hn]
  change if (if b.addr.contains a then grants (b.pages (b.pageOf a)).status else _ : Access).write then _ else _
  cases b.addr.contains a with
  | false => exact ⟨_, rfl⟩
  | true =>
    cases hw : (grants (b.pages (b.pageOf a)).status).write with
    | false => simp [hw]
    | true =>
      simp only [hw, ↓reduceIte]
      refine ⟨_, rfl, of_setPage b (b.pageOf a) _ v, h.swappedIn, fun i => ?_⟩
      rw [setPage_pages]
      by_cases hi : i = b.pageOf a
      · subst hi
        rw [Function.update_self]
        exact written_native (h.native _) _ v
      · rw [Function.update_of_ne hi]
        exact h.native i

def Implements (b : Block) (m : Plain) : Prop := Plain.of b = m ∧ b.Synced

theorem Agrees.answer {x : Except Crash (ℤ × Block)} {y : ℤ × Plain} (h : Agrees b x y) (hs : b.Synced) :
    ∃ b', x = .ok (y.1, b') ∧ Implements b' y.2 := by
  obtain ⟨b', h1, h2, h3⟩ := h
  exact ⟨b', h1, h2, h3 hs⟩

theorem act_implements (b : Block) (m : Plain) (x : Act) (h : Implements b m) (hw : x.NoWrap) :
    (b.act x).1 = (m.act x).1 ∧ Implements (b.act x).2 (m.act x).2 := by
  obtain ⟨rfl, hs⟩ := h
  cases x with
  | read a =>
    simp only [Block.act, Plain.act, guestRead_plain hs a]
    split_ifs <;> exact ⟨rfl, rfl, hs⟩
  | fetch a =>
    simp only [Block.act, Plain.act, guestFetch_plain hs a]
    split_ifs <;> exact ⟨rfl, rfl, hs⟩
  | write a v =>
    have hp := guestWrite_plain hs a v
    simp only [Block.act, Plain.act]
    split_ifs at hp ⊢
    · obtain ⟨b', h1, h2, h3⟩ := hp
      rw [h1]
      exact ⟨rfl, h2, h3⟩
    · obtain ⟨c, h1⟩ := hp
      rw [h1]
      exact ⟨rfl, rfl, hs⟩
  | mem op =>
    obtain ⟨b', h1, h2⟩ := (mem_agrees op hw).answer hs
    simp only [Block.act, Plain.act, h1]
    exact ⟨trivial, h2⟩
  | markInvisible addr =>
    obtain ⟨b', h1, h2⟩ := (markInvisible_agrees addr hw).answer hs
    simp only [Block.act, Plain.act, h1]
    exact ⟨trivial, h2⟩
  | sealBlock =>
    obtain ⟨b', h1, h2⟩ := (sealBlock_agrees (b := b)).answer hs
    simp only [Block.act, Plain.act, h1]
    exact ⟨trivial, h2⟩

theorem implements_new {addr : Range} {b₀ : Block} (hnew : Block.new addr = .ok (some b))
    (hact : b.activate = .ok b₀) : Implements b₀ (Plain.fresh addr) := by
  obtain ⟨-, span, rfl⟩ := Block.new_cases hnew
  rw [Block.activate, if_neg (by simp), if_neg (by simp), refreshAll_eq, ok_bind] at hact
  cases hact
  refine ⟨?_, rfl, fun i => ?_⟩
  · exact of_mapPages (b := ⟨addr, _, fun _ => freshPage, false, true, false, zeroes 32⟩) 0 _ _
      (fun p => sync_status _ p) fun p => sync_data _ p
  · change (mapRange (fun p : Page => p.refresh) 0 _ (fun _ => freshPage) i).native =
      protToNative (mapRange (fun p : Page => p.refresh) 0 _ (fun _ => freshPage) i).nativeProt
    unfold mapRange
    split_ifs <;> rfl

theorem dirty_tracking_invisible {addr : Range} {b₀ : Block} (hnew : Block.new addr = .ok (some b))
    (hact : b.activate = .ok b₀) (acts : List Act) (hw : ∀ x ∈ acts, x.NoWrap) :
    Runs.outputs Block.act b₀ acts = Runs.outputs Plain.act (Plain.fresh addr) acts :=
  Runs.outputs_eq act_implements (implements_new hnew hact) hw

def stackActs : List Act :=
  [.mem (.mmap ⟨0, 0x1000⟩ .rwStack onePage true), .write 0x36f00000000 7, .sealBlock, .write 0x36f00000001 8,
    .read 0x36f00000000, .fetch 0x36f00000000, .mem (.munmap onePage), .read 0x36f00000000]

theorem dirty_tracking_invisible_onePage : ∃ b₀, smallest.activate = .ok b₀ ∧
    Runs.outputs Block.act b₀ stackActs =
      [.returned 0x36f00000000, .stored, .returned 0, .stored, .byte 7, .fault, .returned 0, .fault] := by
  have hrun : passes (do
      let b₀ ← smallest.activate
      return decide b₀.swappedIn) = true := by decide +kernel
  obtain ⟨b₀, hact, -⟩ := passes_bind hrun
  refine ⟨b₀, hact, ?_⟩
  have hw : ∀ x ∈ stackActs, x.NoWrap := by
    simp only [stackActs, List.forall_mem_cons, Act.NoWrap, MemOp.NoWrap]
    refine ⟨⟨?_, ?_⟩, trivial, trivial, trivial, trivial, trivial, ?_, trivial, by simp⟩ <;> decide
  rw [dirty_tracking_invisible new_onePage hact stackActs hw]
  decide +kernel

end MiniBox
