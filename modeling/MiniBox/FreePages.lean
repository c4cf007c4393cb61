import MiniBox.SaveAndLoad

namespace MiniBox

open ByteStream IndexLoops Outcomes Relation

structure Session where
  block : Block
  saved : List (List UInt8)

def Allocated (b : Block) (start : UInt64) (len : ℕ) : Prop :=
  ∀ ps pc, b.validate (Range.alignExpand ⟨start, UInt64.ofNat len⟩) = some (ps, pc) →
    ∀ i, ps ≤ i → i < ps + pc → (b.pages i).status ≠ stFree

/-- The life of a block. A load takes a state saved before, and `ok` may ask more of it. -/
inductive SessionStep (ok : Block → List UInt8 → Prop) : Session → Session → Prop
  | guest {s : Session} {b' : Block} : GuestMove s.block b' → SessionStep ok s { s with block := b' }
  | switch {s : Session} {b' : Block} : Switch s.block b' → SessionStep ok s { s with block := b' }
  | markInvisible {s : Session} {b' : Block} {addr : Range} {r : ℤ} : s.block.sealed = false → addr.NoWrap →
      s.block.markInvisible addr = .ok (r, b') → SessionStep ok s { s with block := b' }
  | copyFromExternal {s : Session} {b' : Block} {src : List UInt8} {start : UInt64} {r : ℤ} :
      s.block.sealed = false → start.toNat + src.length < 2 ^ 64 → Allocated s.block start src.length →
      s.block.copyFromExternal src start = .ok (r, b') → SessionStep ok s { s with block := b' }
  | sealBlock {s : Session} {b' : Block} {r : ℤ} : s.block.sealBlock = .ok (r, b') →
      SessionStep ok s { s with block := b' }
  | save {s : Session} {b' : Block} {w w' : Sink} {X : List UInt8} : s.block.saveState w = (0, b', w') →
      w'.out = w.out ++ X → SessionStep ok s ⟨b', X :: s.saved⟩
  | load {s : Session} {b' : Block} {X tail : List UInt8} {src src' : Source} {rc : ℤ} : X ∈ s.saved →
      ok s.block X → src.rest = X ++ tail → s.block.loadState src = .ok (rc, b', src') →
      SessionStep ok s { s with block := b' }

def Block.FreeZero (b : Block) : Prop :=
  ∀ i, i < b.npages → (b.pages i).status = stFree → (b.pages i).data = zeroes 4096

def statusIn (X : List UInt8) (i : ℕ) : Option UInt8 := X[68 + i]?

def LeavesZero (b : Block) (X : List UInt8) : Prop :=
  ∀ i, i < b.npages → (b.pages i).invisible = true → statusIn X i = some stFree → (b.pages i).data = zeroes 4096

def Saved (base : ℕ → PageData) (b : Block) (X : List UInt8) : Prop :=
  ∃ s : Block, X = s.stateBytes ∧ Kin s b ∧ s.Tracks base ∧ s.FreeZero

structure Session.Inv (s : Session) : Prop where
  phase : s.block.Raw ∧ s.saved = [] ∨ ∃ base, s.block.Tracks base ∧ ∀ X ∈ s.saved, Saved base s.block X
  zero : s.block.FreeZero

variable {b b' : Block} {base : ℕ → PageData}

theorem written_not_free {p : Page} (hg : p.Guarded b.swappedIn)
    (hw : p.native.write = true ∨ p.isWritable = true) : p.status ≠ stFree := by
  intro hf
  have hgr : (grants p.status).write = true := by
    rcases hw with hw | hw
    · exact hg.grants hw
    · rwa [isWritable_eq] at hw
  rw [hf] at hgr
  cases hgr

theorem written_status (p : Page) (o : Fin 4096) (v : UInt8) : (p.written o v).status = p.status := by
  unfold Page.written
  split_ifs
  · rfl
  · exact p.maybeSnapshot_status

theorem PageMove.freeZero {p q : Page} (h : PageMove b p q) (hg : p.Guarded b.swappedIn)
    (hz : p.status = stFree → p.data = zeroes 4096) (hq : q.status = stFree) : q.data = zeroes 4096 := by
  cases h with
  | same => exact hz hq
  | edit e he =>
    rw [sync_status] at hq
    rw [sync_data]
    cases e with
    | status st => exact absurd (congrArg PageEdit.status hq) he
    | advise => rfl
    | unmap => rfl
  | write o v hs hw =>
    rw [written_status] at hq
    exact absurd hq (written_not_free hg hw)

theorem PageMove.of_free {p q : Page} (h : PageMove b p q) (hg : p.Guarded b.swappedIn)
    (hf : p.status = stFree) (hz : p.data = zeroes 4096) : q.data = zeroes 4096 := by
  cases h with
  | same => exact hz
  | edit e he =>
    rw [sync_data]
    cases e with
    | status st => exact hz
    | advise => rfl
    | unmap => rfl
  | write o v hs hw => exact absurd hf (written_not_free hg hw)

theorem Moves.freeZero (h : Moves b b') (hg : ∀ i, i < b.npages → (b.pages i).Guarded b.swappedIn)
    (hz : b.FreeZero) : b'.FreeZero := by
  intro i hi hf
  rw [h.npages] at hi
  exact (h.pages i).freeZero (hg i hi) (hz i hi) hf

theorem Switch.freeZero (h : Switch b b') (hz : b.FreeZero) : b'.FreeZero := by
  intro i hi hf
  rw [h.npages] at hi
  obtain ⟨n, hn⟩ := h.page i hi
  rw [hn] at hf ⊢
  exact hz i hi hf

theorem Block.FreeZero.congr (hz : b.FreeZero) (hn : b'.npages = b.npages)
    (h : ∀ i, i < b.npages → (b'.pages i).status = (b.pages i).status ∧ (b'.pages i).data = (b.pages i).data) :
    b'.FreeZero := by
  intro i hi hf
  rw [hn] at hi
  obtain ⟨h1, h2⟩ := h i hi
  rw [h2]
  exact hz i hi (h1 ▸ hf)

theorem statusIn_stateBytes (s : Block) (i : ℕ) (hi : i < s.npages) :
    statusIn s.stateBytes i = some (s.pages i).status := by
  have hm : blockMagic.length = 20 := by decide
  have hh : (List.ofFn s.hash).length = 32 := List.length_ofFn
  have hr : (Block.rangeBytes s.addr).length = 16 := by
    rw [Block.rangeBytes, List.length_append, List.length_ofFn, List.length_ofFn]
  have hs : (List.ofFn s.statii).length = s.npages := List.length_ofFn
  rw [statusIn, stateBytes_eq, List.getElem?_append_right (by omega), List.getElem?_append_right (by omega),
    List.getElem?_append_right (by omega), List.getElem?_append_left (by omega), hm, hh, hr,
    show 68 + i - 20 - 32 - 16 = i by omega, List.getElem?_ofFn, dif_pos hi]
  rfl

theorem Saved.kin {X : List UInt8} (h : Saved base b X) (hk : Kin b b') : Saved base b' X := by
  obtain ⟨s, hX, hs, ht, hz⟩ := h
  exact ⟨s, hX, hs.trans hk, ht, hz⟩

theorem Restored.freeZero {s t t' : Block} {X : List UInt8} (hr : Restored s t t') (hk : Kin s t)
    (hX : X = s.stateBytes) (hz : s.FreeZero) (hl : LeavesZero t X) : t'.FreeZero := by
  intro i hi hf
  have hit : i < t.npages := by rwa [Block.npages, hr.addr] at hi
  have his : i < s.npages := hk.npages ▸ hit
  have hst := (hr.status i hit).symm.trans hf
  cases hv : (t.pages i).invisible with
  | true =>
    rw [(hr.hidden i hit hv).1]
    refine hl i hit hv ?_
    rw [hX, statusIn_stateBytes s i his, hst]
  | false =>
    rw [(hr.visible i hit hv).1]
    exact hz i his hst

theorem Session.Inv.guarded {s : Session} (h : s.Inv) (i : ℕ) (hi : i < s.block.npages) :
    (s.block.pages i).Guarded s.block.swappedIn := by
  rcases h.phase with ⟨hr, -⟩ | ⟨base, ht, -⟩
  · exact (hr.raw i hi).guarded
  · exact ht.guarded i hi

theorem Session.Inv.step {s s' : Session} (hI : s.Inv) (h : SessionStep LeavesZero s s') : s'.Inv := by
  cases h with
  | guest h =>
    refine ⟨?_, h.moves.freeZero hI.guarded hI.zero⟩
    rcases hI.phase with ⟨hr, hs⟩ | ⟨base, ht, hs⟩
    · exact Or.inl ⟨hr.moves h.moves, hs⟩
    · exact Or.inr ⟨base, ht.moves h.moves, fun X hX => (hs X hX).kin h.moves.kin⟩
  | switch h =>
    refine ⟨?_, h.freeZero hI.zero⟩
    rcases hI.phase with ⟨hr, hs⟩ | ⟨base, ht, hs⟩
    · exact Or.inl ⟨hr.switch h, hs⟩
    · exact Or.inr ⟨base, ht.switch h, fun X hX => (hs X hX).kin h.kin⟩
  | markInvisible hu hw h =>
    rcases hI.phase with ⟨hr, hs⟩ | ⟨base, ht, -⟩
    · refine ⟨Or.inl ⟨hr.markInvisible h, hs⟩, ?_⟩
      rcases markInvisible_cases h with rfl | ⟨ps, pc, -, rfl⟩
      · exact hI.zero
      · refine hI.zero.congr rfl fun i _ => ?_
        change (mapRange _ ps pc s.block.pages i).status = _ ∧ (mapRange _ ps pc s.block.pages i).data = _
        unfold mapRange
        split_ifs
        · exact ⟨sync_status _ _, sync_data _ _⟩
        · exact ⟨rfl, rfl⟩
    · rw [ht.isSealed] at hu
      cases hu
  | copyFromExternal hu hw ha h =>
    rcases hI.phase with ⟨hr, hs⟩ | ⟨base, ht, -⟩
    · refine ⟨Or.inl ⟨hr.copyFromExternal h, hs⟩, ?_⟩
      rcases copyFromExternal_cases h with rfl | ⟨ps, pc, hv, -, f, rfl⟩
      · exact hI.zero
      · intro i hi hf
        rw [withPages_pages] at hf ⊢
        split_ifs at hf ⊢ with hin
        · exact absurd hf (ha ps pc hv i hin.1 hin.2)
        · exact hI.zero i hi hf
    · rw [ht.isSealed] at hu
      cases hu
  | sealBlock h =>
    rcases hI.phase with ⟨hr, hs⟩ | ⟨base, ht, hs⟩
    · obtain ⟨-, ha, -, -, hp⟩ := sealBlock_cases hr.unsealed h
      refine ⟨Or.inr ⟨_, hr.sealBlock h, by simp [hs]⟩, hI.zero.congr (by rw [Block.npages, ha]; rfl) fun i hi => ?_⟩
      rw [hp i hi, sync_status, sync_data]
      unfold Block.sealPage
      split_ifs <;> exact ⟨rfl, rfl⟩
    · rw [Block.sealBlock, if_pos ht.isSealed] at h
      obtain rfl := block_of_ok h
      exact hI
  | save h hX =>
    obtain ⟨rfl, hsealed, hbytes⟩ := saveState_bytes h
    refine ⟨?_, hI.zero⟩
    rcases hI.phase with ⟨hr, -⟩ | ⟨base, ht, hs⟩
    · rw [hr.unsealed] at hsealed
      cases hsealed
    · refine Or.inr ⟨base, ht, fun Y hY => ?_⟩
      rcases List.mem_cons.mp hY with rfl | hY
      · exact ⟨_, List.append_cancel_left (hX.symm.trans hbytes), .refl _, ht, hI.zero⟩
      · exact hs Y hY
  | load hX hok hsrc h =>
    rcases hI.phase with ⟨-, hs⟩ | ⟨base, ht, hs⟩
    · rw [hs] at hX
      cases hX
    · obtain ⟨u, hXu, hk, hu, hz⟩ := hs _ hX
      obtain ⟨t', src'', hl, -, hr, ht'⟩ := load_saved hk.toCompatible hu ht (hXu ▸ hsrc)
      rw [h] at hl
      cases hl
      exact ⟨Or.inr ⟨base, ht', fun Y hY => (hs Y hY).kin (kin_load ht h)⟩, hr.freeZero hk hXu hz hok⟩

theorem inv_new {addr : Range} (h : Block.new addr = .ok (some b)) : Session.Inv ⟨b, []⟩ := by
  refine ⟨Or.inl ⟨raw_new h, rfl⟩, ?_⟩
  obtain ⟨-, span, rfl⟩ := Block.new_cases h
  exact fun _ _ _ => rfl

theorem free_pages_zero {addr : Range} {s : Session} (hnew : Block.new addr = .ok (some b))
    (hrun : ReflTransGen (SessionStep LeavesZero) ⟨b, []⟩ s) :
    (∀ i, i < s.block.npages → (s.block.pages i).status = stFree → (s.block.pages i).data = zeroes 4096) ∧
    ∀ op r b', op.NoWrap → MemOp.run s.block op = .ok (r, b') → ∀ i, i < s.block.npages →
      (s.block.pages i).status = stFree → (b'.pages i).data = zeroes 4096 := by
  have hI : s.Inv := Runs.invariant (P := Session.Inv) (fun _ _ hs hi => hi.step hs) hrun (inv_new hnew)
  exact ⟨hI.zero, fun op r b' _ h i hi hf =>
    ((MemOp.moves h).pages i).of_free (hI.guarded i hi) hf (hI.zero i hi hf)⟩

theorem session_hidden (ok : Block → List UInt8 → Prop) {b₁ a c d : Block} {r r' : ℤ} {addr : UInt64} {v : UInt8}
    (hhide : smallest.hide = .ok (r, b₁)) (hseal : b₁.sealBlock = .ok (0, a))
    (hmap : (MemOp.mmapFixed onePage .rw true).run a = .ok (r', c)) (hw : c.guestWrite addr v = .ok d) :
    SealedAt (fun i => (b₁.pages i).data) a ∧ ReflTransGen PostStep a d ∧
      ReflTransGen (SessionStep ok) ⟨smallest, []⟩ ⟨d, [a.stateBytes]⟩ := by
  have ha : SealedAt (fun i => (b₁.pages i).data) a := .mk new_onePage (hide_run (by decide) hhide) hseal
  refine ⟨ha, .tail (.single (.guest (.mem noWrap_map hmap))) (.guest (.write hw)), ?_⟩
  obtain ⟨w, hsave⟩ := saveState_accepts (w := Sink.accepting) ha.tracks.isSealed fun _ => rfl
  obtain ⟨b₀, hact, hhide⟩ := hide_ok hhide
  have hb₀ : b₀.sealed = false := (Switch.activate hact).cases.2.1
  have h1 : ReflTransGen (SessionStep ok) ⟨smallest, []⟩ ⟨b₀, []⟩ := .single (.switch (.activate hact))
  have h2 := h1.tail (.markInvisible (s := ⟨b₀, []⟩) hb₀ (by decide : onePage.NoWrap) hhide)
  have h3 := h2.tail (.sealBlock (s := ⟨b₁, []⟩) hseal)
  have h4 := h3.tail (.save (s := ⟨a, []⟩) hsave (saveState_bytes hsave).2.2)
  have h5 := h4.tail (.guest (s := ⟨a, [a.stateBytes]⟩) (.mem noWrap_map hmap))
  exact h5.tail (.guest (s := ⟨c, [a.stateBytes]⟩) (.write hw))

theorem free_pages_zero_onePage : ∃ (t t' : Block) (X : List UInt8), 0 < t.npages ∧
    (t.pages 0).invisible = true ∧ LeavesZero t X ∧
    ReflTransGen (SessionStep LeavesZero) ⟨smallest, []⟩ ⟨t, [X]⟩ ∧
    ReflTransGen (SessionStep LeavesZero) ⟨smallest, []⟩ ⟨t', [X]⟩ ∧ 0 < t'.npages ∧
    (t'.pages 0).status = stFree ∧ (t'.pages 0).data = zeroes 4096 := by
  have hrun : passes (do
      let u₁ ← smallest.hide
      let u₂ ← u₁.2.sealBlock
      let u₃ ← (MemOp.mmapFixed onePage .rw true).run u₂.2
      let d ← u₃.2.guestWrite 0x36f00000000 7
      let u₄ ← (MemOp.munmap onePage).run d
      return decide (u₂.1 = 0 ∧ u₄.2.npages = 1 ∧ (u₂.2.pages 0).status = stFree ∧ (u₄.2.pages 0).invisible = true ∧
        (u₄.2.pages 0).status = stFree)) = true := by decide +kernel
  obtain ⟨⟨_, b₁⟩, hhide, hrun⟩ := passes_bind hrun
  obtain ⟨⟨r, a⟩, hseal, hrun⟩ := passes_bind hrun
  obtain ⟨⟨_, c⟩, hmap, hrun⟩ := passes_bind hrun
  obtain ⟨d, hw, hrun⟩ := passes_bind hrun
  obtain ⟨⟨_, t⟩, hunmap, hrun⟩ := passes_bind hrun
  dsimp only at hrun
  obtain ⟨rfl, hn, hfree, hv, hfree'⟩ := passes_pure hrun
  obtain ⟨ha, hrunD, hlifeD⟩ := session_hidden LeavesZero hhide hseal hmap hw
  have haT := ha.tracks
  obtain ⟨hk, htT⟩ := run_kin haT (hrunD.tail (.guest (.mem noWrap_unmap hunmap)))
  have hsrc : (Source.mk a.stateBytes (fun _ => 4096) 0).rest = a.stateBytes ++ [] := (List.append_nil _).symm
  obtain ⟨t', src', hload, -, hr, -⟩ := load_saved hk.toCompatible haT htT hsrc
  have hlife : ReflTransGen (SessionStep LeavesZero) ⟨smallest, []⟩ ⟨t, [a.stateBytes]⟩ :=
    hlifeD.tail (.guest (s := ⟨d, [a.stateBytes]⟩) (.mem noWrap_unmap hunmap))
  have hleaves : LeavesZero t a.stateBytes := by
    intro i hi _ _
    obtain rfl : i = 0 := by omega
    exact (free_pages_zero new_onePage hlife).1 0 hi hfree'
  have hlife' := hlife.tail (.load (s := ⟨t, [a.stateBytes]⟩) (by simp) hleaves hsrc hload)
  have hn₀ : 0 < t.npages := by omega
  have hn' : 0 < t'.npages := by rwa [Block.npages, hr.addr]
  have hst : (t'.pages 0).status = stFree := by rw [hr.status 0 hn₀, hfree]
  exact ⟨t, t', _, hn₀, hv, hleaves, hlife, hlife', hn', hst, (free_pages_zero new_onePage hlife').1 0 hn' hst⟩

/-- The bytes written to an invisible page after a save stay on it when the load frees it. -/
theorem free_page_keeps_bytes : ∃ s : Session,
    ReflTransGen (SessionStep fun _ _ => True) ⟨smallest, []⟩ s ∧ 0 < s.block.npages ∧
    (s.block.pages 0).status = stFree ∧ (s.block.pages 0).data 0 = 7 := by
  have hrun : passes (do
      let u₁ ← smallest.hide
      let u₂ ← u₁.2.sealBlock
      let u₃ ← (MemOp.mmapFixed onePage .rw true).run u₂.2
      let t ← u₃.2.guestWrite 0x36f00000000 7
      return decide (u₂.1 = 0 ∧ 0 < t.npages ∧ (u₂.2.pages 0).status = stFree ∧ (t.pages 0).invisible = true ∧
        (t.pages 0).data 0 = 7)) = true := by decide +kernel
  obtain ⟨⟨_, b₁⟩, hhide, hrun⟩ := passes_bind hrun
  obtain ⟨⟨r, a⟩, hseal, hrun⟩ := passes_bind hrun
  obtain ⟨⟨_, c⟩, hmap, hrun⟩ := passes_bind hrun
  obtain ⟨t, hw, hrun⟩ := passes_bind hrun
  dsimp only at hrun
  obtain ⟨rfl, hn, hfree, hv, h7⟩ := passes_pure hrun
  obtain ⟨ha, hrunT, hlifeT⟩ := session_hidden (fun _ _ => True) hhide hseal hmap hw
  have haT := ha.tracks
  obtain ⟨hk, htT⟩ := run_kin haT hrunT
  have hsrc : (Source.mk a.stateBytes (fun _ => 4096) 0).rest = a.stateBytes ++ [] := (List.append_nil _).symm
  obtain ⟨t', src', hload, -, hr, -⟩ := load_saved hk.toCompatible haT htT hsrc
  have hlife : ReflTransGen (SessionStep fun _ _ => True) ⟨smallest, []⟩ ⟨t', [a.stateBytes]⟩ :=
    hlifeT.tail (.load (s := ⟨t, [a.stateBytes]⟩) (by simp) trivial hsrc hload)
  have hn' : 0 < t'.npages := by rwa [Block.npages, hr.addr]
  exact ⟨_, hlife, hn', by rw [hr.status 0 hn, hfree], by rw [(hr.hidden 0 hn hv).1, h7]⟩

end MiniBox
