import MiniBox.BlockRoundTrip

namespace MiniBox

open ByteStream IndexLoops Outcomes Relation

structure Kin (s t : Block) : Prop extends Compatible s t where
  hash : t.hash = s.hash

variable {base : ℕ → PageData} {s t t' : Block}

theorem Kin.refl (s : Block) : Kin s s := ⟨.refl s, rfl⟩

theorem Kin.trans {u : Block} (h : Kin s t) (h' : Kin t u) : Kin s u :=
  ⟨h.toCompatible.trans h'.toCompatible, h'.hash.trans h.hash⟩

theorem Moves.kin (h : Moves s t) : Kin s t :=
  ⟨⟨h.addr, fun i _ => (h.pages i).invisible⟩, h.hash⟩

theorem Switch.kin (h : Switch s t) : Kin s t := by
  refine ⟨⟨h.cases.1, fun i hi => ?_⟩, h.cases.2.2.1⟩
  obtain ⟨n, hn⟩ := h.page i (h.npages ▸ hi)
  rw [hn]

theorem kin_load (hs : s.Tracks base) {src src' : Source} (h : s.loadState src = .ok (0, t, src')) : Kin s t := by
  obtain ⟨-, l, rfl, rfl, hc⟩ := loadState_done h
  refine ⟨⟨rfl, fun i hi => ?_⟩, rfl⟩
  change i < l.block.npages at hi
  rw [l.flushed_page hi]
  exact (l.settled_loaded (hs.tracks i hi) (hc i hi)).invisible

theorem PostStep.kin (hs : s.Tracks base) (h : PostStep s t) : Kin s t := by
  cases h with
  | guest h => exact h.moves.kin
  | switch h => exact h.kin
  | load h => exact kin_load hs h

theorem run_kin (hs : s.Tracks base) (h : ReflTransGen PostStep s t) : Kin s t ∧ t.Tracks base :=
  Runs.invariant (P := fun u => Kin s u ∧ u.Tracks base)
    (fun _ _ hstep hi => ⟨hi.1.trans (hstep.kin hi.2), hi.2.step hstep⟩) h ⟨.refl s, hs⟩

theorem Compatible.tracks {base' : ℕ → PageData} (h : Compatible s t) (hs : s.Tracks base)
    (hb : ∀ i, i < t.npages → (t.pages i).invisible = false → base i = base' i) : s.Tracks base' := by
  refine ⟨hs.isSealed, fun i hi => (hs.tracks i hi).rebase fun hv => ?_, hs.guarded⟩
  have hi' : i < t.npages := h.npages ▸ hi
  exact hb i hi' ((h.invisible i hi').trans hv)

theorem block_round_trip {baseA baseB : ℕ → PageData} {a b s s₁ t : Block} (hA : SealedAt baseA a)
    (hB : SealedAt baseB b) (haddr : a.addr = b.addr)
    (hinv : ∀ i, i < a.npages → (a.pages i).invisible = (b.pages i).invisible)
    (hbase : ∀ i, i < a.npages → (a.pages i).invisible = false → baseA i = baseB i)
    (hs : ReflTransGen PostStep a s) (ht : ReflTransGen PostStep b t) {w w₁ : Sink} {X : List UInt8}
    (hsave : s.saveState w = (0, s₁, w₁)) (hX : w₁.out = w.out ++ X) {src : Source} {tail : List UInt8}
    (hsrc : src.rest = X ++ tail) :
    s₁ = s ∧ ∃ t' src', t.loadState src = .ok (0, t', src') ∧ src'.rest = tail ∧ t'.npages = t.npages ∧
      ∀ i, i < t.npages → (t'.pages i).status = (s.pages i).status ∧
        (t'.pages i).invisible = (t.pages i).invisible ∧
        ((t.pages i).invisible = false → (t'.pages i).data = (s.pages i).data ∧
          (t'.pages i).dirty = (s.pages i).dirty ∧ (t'.pages i).baseline = baseB i) ∧
        ((t.pages i).invisible = true → (t'.pages i).data = (t.pages i).data ∧
          (t'.pages i).dirty = (t.pages i).dirty) := by
  obtain ⟨hs₁, -, hbytes⟩ := saveState_bytes hsave
  obtain rfl : X = s.stateBytes := List.append_cancel_left (hX.symm.trans hbytes)
  obtain ⟨kas, hsT⟩ := run_kin hA.tracks hs
  obtain ⟨kbt, htT⟩ := run_kin hB.tracks ht
  have hba : Compatible b a := ⟨haddr, hinv⟩
  have hbs : Compatible b s := hba.trans kas.toCompatible
  have hst : Compatible s t := hbs.symm.trans kbt.toCompatible
  have hsB : s.Tracks baseB := (Compatible.refl s).tracks hsT fun i hi hv =>
    hbase i (kas.npages ▸ hi) ((kas.invisible i hi).symm.trans hv)
  obtain ⟨t', src', hload, hrest, hr, ht'⟩ := load_saved hst hsB htT hsrc
  have hn : t'.npages = t.npages := by rw [Block.npages, hr.addr]; rfl
  refine ⟨hs₁, t', src', hload, hrest, hn, fun i hi => ⟨hr.status i hi, hr.invisible i hi, fun hv => ?_, hr.hidden i hi⟩⟩
  obtain ⟨h1, h2⟩ := hr.visible i hi hv
  exact ⟨h1, h2, (ht'.tracks i (hn ▸ hi)).baseline_eq ((hr.invisible i hi).trans hv)⟩

theorem block_round_trip_onePage : ∃ (base : ℕ → PageData) (a s t : Block) (w : Sink) (t' : Block) (src' : Source),
    SealedAt base a ∧ ReflTransGen PostStep a s ∧ ReflTransGen PostStep a t ∧
    s.saveState Sink.accepting = (0, s, w) ∧ (t.pages 0).status = stFree ∧
    t.loadState ⟨w.out, fun _ => 1, 0⟩ = .ok (0, t', src') ∧ src'.rest = [] ∧
    (t'.pages 0).status = stRW ∧ (t'.pages 0).data 0 = 9 ∧ (t'.pages 0).baseline 0 = 7 := by
  have hrun : passes (do
      let u₁ ← smallest.ready
      let b₁ ← u₁.2.guestWrite 0x36f00000000 7
      let u₂ ← b₁.sealBlock
      let s ← u₂.2.guestWrite 0x36f00000000 9
      let u₃ ← (MemOp.munmap onePage).run u₂.2
      return decide (u₂.1 = 0 ∧ 0 < u₃.2.npages ∧ (b₁.pages 0).data 0 = 7 ∧ (s.pages 0).status = stRW ∧
        (s.pages 0).data 0 = 9 ∧ (u₃.2.pages 0).status = stFree ∧ (u₃.2.pages 0).invisible = false)) = true := by
    decide +kernel
  obtain ⟨⟨_, c⟩, hready, hrun⟩ := passes_bind hrun
  obtain ⟨b₁, hw, hrun⟩ := passes_bind hrun
  obtain ⟨⟨r, a⟩, hseal, hrun⟩ := passes_bind hrun
  obtain ⟨s, hw', hrun⟩ := passes_bind hrun
  obtain ⟨⟨_, t⟩, hunmap, hrun⟩ := passes_bind hrun
  obtain ⟨rfl, hn, h7, hrw, h9, hfree, hv⟩ := passes_pure hrun
  have ha : SealedAt (fun i => (b₁.pages i).data) a := .mk new_onePage
    ((ready_run (by decide) hready).tail (.guest (.write hw))) hseal
  have hs : ReflTransGen PostStep a s := .single (.guest (.write hw'))
  have ht : ReflTransGen PostStep a t := .single (.guest (.mem noWrap_unmap hunmap))
  obtain ⟨w, hsave⟩ := saveState_accepts (w := Sink.accepting) (run_kin ha.tracks hs).2.isSealed fun _ => rfl
  have hsrc : (Source.mk w.out (fun _ => 1) 0).rest = w.out ++ [] := (List.append_nil _).symm
  obtain ⟨-, t', src', hload, hrest, -, hp⟩ := block_round_trip ha ha rfl (fun _ _ => rfl) (fun _ _ _ => rfl)
    hs ht hsave (X := w.out) rfl hsrc
  obtain ⟨hst, -, hvis, -⟩ := hp 0 hn
  obtain ⟨hdata, -, hbase⟩ := hvis hv
  exact ⟨_, a, s, t, w, t', src', ha, hs, ht, hsave, hfree, hload, hrest, hst.trans hrw,
    by rw [hdata, h9], by rw [hbase, h7]⟩

def Block.mergedDirtii (s t : Block) : Bytes s.npages :=
  fun i => if (s.pages i).invisible then (if (t.pages i).dirty then 1 else 0) else s.dirtii i

theorem contents_congr {pages pages' : ℕ → Page} (i n : ℕ)
    (h : ∀ j, i ≤ j → j < i + n → (pages j).carriedBytes = (pages' j).carriedBytes) :
    (Block.contents pages i n).flatten = (Block.contents pages' i n).flatten := by
  induction n generalizing i with
  | zero => rw [contents_zero, contents_zero]
  | succ n ih =>
    rw [contents_succ, contents_succ, h i (by omega) (by omega), ih (i + 1) fun j h1 h2 => h j (by omega) (by omega)]

theorem Restored.stateBytes (hr : Restored s t t') (hk : Kin s t) :
    t'.stateBytes = blockMagic ++ (List.ofFn s.hash ++ (Block.rangeBytes s.addr ++ (List.ofFn s.statii ++
      (List.ofFn (s.mergedDirtii t) ++ (Block.contents s.pages 0 s.npages).flatten)))) := by
  have hn : t'.npages = s.npages := by rw [Block.npages, hr.addr, hk.addr]; rfl
  have hst : List.ofFn t'.statii = List.ofFn s.statii := by
    rw [List.ofFn_congr hn]
    congr 1
    funext i
    exact hr.status i (hk.npages.symm ▸ i.isLt)
  have hdt : List.ofFn t'.dirtii = List.ofFn (s.mergedDirtii t) := by
    rw [List.ofFn_congr hn]
    congr 1
    funext i
    have hi : i.val < t.npages := hk.npages.symm ▸ i.isLt
    have hinv := hk.invisible i hi
    cases hv : (t.pages i).invisible with
    | true => simp [Block.dirtii, Block.mergedDirtii, ← hinv, hv, (hr.hidden i hi hv).2]
    | false => simp [Block.dirtii, Block.mergedDirtii, ← hinv, hv, (hr.visible i hi hv).2]
  have hc : (Block.contents t'.pages 0 s.npages).flatten = (Block.contents s.pages 0 s.npages).flatten := by
    refine contents_congr 0 _ fun j _ hj => ?_
    have hi : j < t.npages := by rw [hk.npages]; omega
    have hinv := (hr.invisible j hi).trans (hk.invisible j hi)
    unfold Page.carriedBytes Page.carried
    rw [hinv]
    cases hv : (s.pages j).invisible with
    | true => simp only [Bool.not_true, Bool.false_and, Bool.false_eq_true, ↓reduceIte]
    | false =>
      obtain ⟨h1, h2⟩ := hr.visible j hi ((hk.invisible j hi).trans hv)
      rw [h1, h2]
  rw [stateBytes_eq, hr.hash, hk.hash, hr.addr, hk.addr, hst, hdt, hn, hc]

theorem mergedDirtii_eq_iff : s.mergedDirtii t = s.dirtii ↔
    ∀ i, i < s.npages → (s.pages i).invisible = true → (t.pages i).dirty = (s.pages i).dirty := by
  constructor
  · intro h i hi hv
    have he := congrFun h ⟨i, hi⟩
    simp only [Block.mergedDirtii, Block.dirtii, hv, ↓reduceIte] at he
    cases ht : (t.pages i).dirty <;> cases hs : (s.pages i).dirty <;> simp [ht, hs] at he ⊢
  · intro h
    funext i
    by_cases hv : (s.pages i).invisible = true
    · simp [Block.mergedDirtii, Block.dirtii, hv, h i i.isLt hv]
    · simp [Block.mergedDirtii, hv]

theorem Restored.resaved (hr : Restored s t t') (hk : Kin s t) :
    (∃ pre post, s.stateBytes = pre ++ (List.ofFn s.dirtii ++ post) ∧
      t'.stateBytes = pre ++ (List.ofFn (s.mergedDirtii t) ++ post)) ∧
    (t'.stateBytes = s.stateBytes ↔
      ∀ i, i < s.npages → (s.pages i).invisible = true → (t.pages i).dirty = (s.pages i).dirty) := by
  constructor
  · refine ⟨blockMagic ++ (List.ofFn s.hash ++ (Block.rangeBytes s.addr ++ List.ofFn s.statii)),
      (Block.contents s.pages 0 s.npages).flatten, ?_, ?_⟩
    · rw [stateBytes_eq]
      simp only [List.append_assoc]
    · rw [hr.stateBytes hk]
      simp only [List.append_assoc]
  · rw [hr.stateBytes hk, stateBytes_eq, List.append_cancel_left_eq, List.append_cancel_left_eq,
      List.append_cancel_left_eq, List.append_cancel_left_eq, List.append_cancel_right_eq,
      List.ofFn_injective.eq_iff, mergedDirtii_eq_iff]

theorem resave_after_load {a s₁ t₁ : Block} (ha : SealedAt base a) (hs : ReflTransGen PostStep a s)
    (ht : ReflTransGen PostStep s t) {w w₁ v v₁ : Sink} {X Y tail : List UInt8} {src src' : Source} {rc : ℤ}
    (hsave : s.saveState w = (0, s₁, w₁)) (hX : w₁.out = w.out ++ X) (hsrc : src.rest = X ++ tail)
    (hload : t.loadState src = .ok (rc, t', src')) (hresave : t'.saveState v = (0, t₁, v₁))
    (hY : v₁.out = v.out ++ Y) :
    (∃ pre post, X = pre ++ (List.ofFn s.dirtii ++ post) ∧ Y = pre ++ (List.ofFn (s.mergedDirtii t) ++ post)) ∧
    (Y = X ↔ ∀ i, i < s.npages → (s.pages i).invisible = true → (t.pages i).dirty = (s.pages i).dirty) := by
  obtain rfl : X = s.stateBytes := List.append_cancel_left (hX.symm.trans (saveState_bytes hsave).2.2)
  obtain rfl : Y = t'.stateBytes := List.append_cancel_left (hY.symm.trans (saveState_bytes hresave).2.2)
  have hsT := (run_kin ha.tracks hs).2
  obtain ⟨hk, htT⟩ := run_kin hsT ht
  obtain ⟨t'', src'', hload', -, hr, -⟩ := load_saved hk.toCompatible hsT htT hsrc
  rw [hload] at hload'
  cases hload'
  exact hr.resaved hk

theorem resave_after_load_onePage : ∃ (base : ℕ → PageData) (a t t' : Block) (w v : Sink) (src' : Source),
    SealedAt base a ∧ ReflTransGen PostStep a t ∧ a.saveState Sink.accepting = (0, a, w) ∧
    t.loadState ⟨w.out, fun _ => 1, 0⟩ = .ok (0, t', src') ∧ t'.saveState Sink.accepting = (0, t', v) ∧
    (t.pages 0).dirty = true ∧ v.out = w.out := by
  have hrun : passes (do
      let u₁ ← smallest.ready
      let u₂ ← u₁.2.sealBlock
      let t ← u₂.2.guestWrite 0x36f00000000 9
      return decide (u₂.1 = 0 ∧ u₂.2.npages = 1 ∧ (u₂.2.pages 0).invisible = false ∧ (t.pages 0).dirty = true)) = true := by
    decide +kernel
  obtain ⟨⟨_, b₁⟩, hready, hrun⟩ := passes_bind hrun
  obtain ⟨⟨r, a⟩, hseal, hrun⟩ := passes_bind hrun
  obtain ⟨t, hw, hrun⟩ := passes_bind hrun
  dsimp only at hrun
  obtain ⟨rfl, hn, hv, hd⟩ := passes_pure hrun
  have ha : SealedAt (fun i => (b₁.pages i).data) a := .mk new_onePage (ready_run (by decide) hready) hseal
  have ht : ReflTransGen PostStep a t := .single (.guest (.write hw))
  have haT := ha.tracks
  obtain ⟨hk, htT⟩ := run_kin haT ht
  obtain ⟨w, hsave⟩ := saveState_accepts (w := Sink.accepting) haT.isSealed fun _ => rfl
  have hwb : w.out = a.stateBytes := (saveState_bytes hsave).2.2
  have hsrc : (Source.mk w.out (fun _ => 1) 0).rest = w.out ++ [] := (List.append_nil _).symm
  obtain ⟨t', src', hload, -, -, ht'⟩ := load_saved hk.toCompatible haT htT (hsrc.trans (by rw [hwb]))
  obtain ⟨v, hresave⟩ := saveState_accepts (w := Sink.accepting) ht'.isSealed fun _ => rfl
  refine ⟨_, a, t, t', w, v, src', ha, ht, hsave, hload, hresave, hd, ?_⟩
  refine (resave_after_load ha .refl ht hsave (X := w.out) rfl hsrc hload hresave (Y := v.out) rfl).2.mpr
    fun i hi hinv => ?_
  obtain rfl : i = 0 := by omega
  simp [hv] at hinv

theorem resave_differs : ∃ (base : ℕ → PageData) (a s t t' : Block) (w v : Sink) (src' : Source),
    SealedAt base a ∧ ReflTransGen PostStep a s ∧ ReflTransGen PostStep s t ∧
    s.saveState Sink.accepting = (0, s, w) ∧ t.loadState ⟨w.out, fun _ => 4096, 0⟩ = .ok (0, t', src') ∧
    t'.saveState Sink.accepting = (0, t', v) ∧ v.out ≠ w.out := by
  have hrun : passes (do
      let u₁ ← smallest.hide
      let u₂ ← u₁.2.sealBlock
      let u₃ ← (MemOp.mmapFixed onePage .rw true).run u₂.2
      let u₄ ← (MemOp.munmap onePage).run u₃.2
      return decide (u₂.1 = 0 ∧ 0 < u₃.2.npages ∧ (u₃.2.pages 0).invisible = true ∧ (u₃.2.pages 0).dirty = true ∧
        (u₄.2.pages 0).dirty = false)) = true := by decide +kernel
  obtain ⟨⟨_, b₁⟩, hhide, hrun⟩ := passes_bind hrun
  obtain ⟨⟨r, a⟩, hseal, hrun⟩ := passes_bind hrun
  obtain ⟨⟨_, s⟩, hmap, hrun⟩ := passes_bind hrun
  obtain ⟨⟨_, t⟩, hunmap, hrun⟩ := passes_bind hrun
  obtain ⟨rfl, hn, hv, hd, hd'⟩ := passes_pure hrun
  have ha : SealedAt (fun i => (b₁.pages i).data) a := .mk new_onePage (hide_run (by decide) hhide) hseal
  have hs : ReflTransGen PostStep a s := .single (.guest (.mem noWrap_map hmap))
  have ht : ReflTransGen PostStep s t := .single (.guest (.mem noWrap_unmap hunmap))
  have hsT := (run_kin ha.tracks hs).2
  obtain ⟨hk, htT⟩ := run_kin hsT ht
  obtain ⟨w, hsave⟩ := saveState_accepts (w := Sink.accepting) hsT.isSealed fun _ => rfl
  have hwb : w.out = s.stateBytes := (saveState_bytes hsave).2.2
  have hsrc : (Source.mk w.out (fun _ => 4096) 0).rest = w.out ++ [] := (List.append_nil _).symm
  obtain ⟨t', src', hload, -, hr, ht'⟩ := load_saved hk.toCompatible hsT htT (hsrc.trans (by rw [hwb]))
  obtain ⟨v, hresave⟩ := saveState_accepts (w := Sink.accepting) ht'.isSealed fun _ => rfl
  have hvb : v.out = t'.stateBytes := (saveState_bytes hresave).2.2
  refine ⟨_, a, s, t, t', w, v, src', ha, hs, ht, hsave, hload, hresave, fun he => ?_⟩
  rw [hvb, hwb] at he
  have hne := (hr.resaved hk).2.mp he 0 hn hv
  rw [hd, hd'] at hne
  cases hne

end MiniBox
