import MiniBox.Runs
import MiniBox.SetupSpecs

namespace MiniBox

open ByteStream IndexLoops Outcomes Relation

inductive PreStep : Block → Block → Prop
  | guest {b b' : Block} : GuestMove b b' → PreStep b b'
  | switch {b b' : Block} : Switch b b' → PreStep b b'
  | markInvisible {b b' : Block} {addr : Range} {r : ℤ} : addr.NoWrap →
      b.markInvisible addr = .ok (r, b') → PreStep b b'
  | copyFromExternal {b b' : Block} {src : List UInt8} {start : UInt64} {r : ℤ} :
      start.toNat + src.length < 2 ^ 64 → b.copyFromExternal src start = .ok (r, b') → PreStep b b'

inductive PostStep : Block → Block → Prop
  | guest {b b' : Block} : GuestMove b b' → PostStep b b'
  | switch {b b' : Block} : Switch b b' → PostStep b b'
  | load {b b' : Block} {s s' : Source} : b.loadState s = .ok (0, b', s') → PostStep b b'

structure Page.Raw (swappedIn : Bool) (p : Page) : Prop where
  snap : p.snap = .zero
  clean : p.dirty = false → p.data = zeroes 4096
  guarded : p.Guarded swappedIn

structure Block.Raw (b : Block) : Prop where
  unsealed : b.sealed = false
  raw : ∀ i, i < b.npages → (b.pages i).Raw b.swappedIn

structure Block.Tracks (base : ℕ → PageData) (b : Block) : Prop where
  isSealed : b.sealed = true
  tracks : ∀ i, i < b.npages → (b.pages i).Tracks (base i)
  guarded : ∀ i, i < b.npages → (b.pages i).Guarded b.swappedIn

variable {b b' : Block} {base : ℕ → PageData}

theorem raw_release {p : Page} (hs : p.snap = .zero) : p.release.snap = .zero := by
  change p.maybeSnapshot.snap = .zero
  rw [Page.maybeSnapshot, hs]
  exact hs

theorem PageMove.raw {p q : Page} (h : PageMove b p q) (hr : p.Raw b.swappedIn) : q.Raw b.swappedIn := by
  refine ⟨?_, ?_, h.guarded hr.guarded⟩
  · cases h with
    | same => exact hr.snap
    | edit e he =>
      rw [sync_snap]
      cases e with
      | status st => exact hr.snap
      | advise => exact raw_release hr.snap
      | unmap => exact raw_release hr.snap
    | write o v hs hw =>
      unfold Page.written
      split_ifs
      · exact hr.snap
      · change p.maybeSnapshot.snap = .zero
        rw [Page.maybeSnapshot, hr.snap]
        exact hr.snap
  · cases h with
    | same => exact hr.clean
    | edit e he =>
      rw [sync_dirty, sync_data]
      cases e with
      | status st => exact hr.clean
      | advise => exact fun _ => rfl
      | unmap => exact fun _ => rfl
    | write o v hs hw =>
      unfold Page.written
      split_ifs with hn
      · intro hd
        have hdirty := hr.guarded.dirty hn
        simp [Page.store, hdirty] at hd
      · intro hd
        simp [Page.store, Page.trip, Page.refresh, Page.protect] at hd

theorem Block.Raw.moves (hr : b.Raw) (h : Moves b b') : b'.Raw := by
  refine ⟨h.sealed.trans hr.unsealed, fun i hi => ?_⟩
  rw [h.swappedIn]
  exact (h.pages i).raw (hr.raw i (h.npages ▸ hi))

theorem Switch.npages (h : Switch b b') : b'.npages = b.npages := by rw [Block.npages, h.cases.1]; rfl

theorem Switch.guarded (h : Switch b b') (i : ℕ) (hi : i < b.npages) (hg : (b.pages i).Guarded b.swappedIn) :
    (b'.pages i).Guarded b'.swappedIn := by
  obtain ⟨-, -, -, ⟨hs, hp⟩ | ⟨hs, hp⟩⟩ := h.cases
  · rw [hs, hp]
    exact hg
  · rw [hs, hp i hi]
    exact Page.guarded_refresh _

theorem Switch.page (h : Switch b b') (i : ℕ) (hi : i < b.npages) :
    ∃ n, b'.pages i = { b.pages i with native := n } := by
  obtain ⟨-, -, -, ⟨-, hp⟩ | ⟨-, hp⟩⟩ := h.cases
  · exact ⟨(b.pages i).native, by rw [hp]⟩
  · exact ⟨_, hp i hi⟩

theorem Block.Raw.switch (hr : b.Raw) (h : Switch b b') : b'.Raw := by
  refine ⟨h.cases.2.1.trans hr.unsealed, fun i hi => ?_⟩
  rw [h.npages] at hi
  have hg := h.guarded i hi (hr.raw i hi).guarded
  obtain ⟨n, hn⟩ := h.page i hi
  rw [hn] at hg ⊢
  exact ⟨(hr.raw i hi).snap, (hr.raw i hi).clean, hg⟩

theorem Block.Raw.markInvisible (hr : b.Raw) {addr : Range} {r : ℤ} (h : b.markInvisible addr = .ok (r, b')) :
    b'.Raw := by
  rcases markInvisible_cases h with rfl | ⟨ps, pc, -, rfl⟩
  · exact hr
  · refine ⟨hr.unsealed, fun i hi => ?_⟩
    have hp := hr.raw i hi
    change (mapRange (fun p => b.sync (Block.hidePage p)) ps pc b.pages i).Raw b.swappedIn
    unfold mapRange
    split_ifs
    · refine ⟨by rw [sync_snap]; exact hp.snap, fun hd => ?_, guarded_sync hp.guarded rfl⟩
      rw [sync_dirty] at hd
      simp [Block.hidePage] at hd
    · exact hp

theorem guarded_soiled {p : Page} {swappedIn : Bool} {d : PageData} (h : p.Guarded swappedIn) :
    ({ p with dirty := true, data := d } : Page).Guarded swappedIn := by
  intro hw
  refine ⟨(h hw).1, ?_⟩
  have hg := h.grants hw
  rw [Page.nativeProt, native_eq]
  simpa using hg

theorem Block.Raw.copyFromExternal (hr : b.Raw) {src : List UInt8} {start : UInt64} {r : ℤ}
    (h : b.copyFromExternal src start = .ok (r, b')) : b'.Raw := by
  rcases copyFromExternal_cases h with rfl | ⟨ps, pc, -, -, f, rfl⟩
  · exact hr
  · refine ⟨hr.unsealed, fun i hi => ?_⟩
    have hp := hr.raw i hi
    rw [withPages_pages, withPages_swappedIn]
    split_ifs
    · exact ⟨hp.snap, fun hd => by simp at hd, guarded_soiled hp.guarded⟩
    · exact hp

theorem Block.Raw.step (hr : b.Raw) (h : PreStep b b') : b'.Raw := by
  cases h with
  | guest h => exact hr.moves h.moves
  | switch h => exact hr.switch h
  | markInvisible hw h => exact hr.markInvisible h
  | copyFromExternal hw h => exact hr.copyFromExternal h

theorem raw_new {addr : Range} (h : Block.new addr = .ok (some b)) : b.Raw := by
  obtain ⟨-, span, rfl⟩ := Block.new_cases h
  exact ⟨rfl, fun _ _ => ⟨rfl, fun _ => rfl, fun hw => by simp [freshPage, protToNative] at hw⟩⟩

theorem Block.Raw.sealBlock (hr : b.Raw) {r : ℤ} (h : b.sealBlock = .ok (r, b')) :
    b'.Tracks fun i => (b.pages i).data := by
  obtain ⟨-, ha, hsealed, hs, hp⟩ := sealBlock_cases hr.unsealed h
  have hn : b'.npages = b.npages := by rw [Block.npages, ha]; rfl
  have hnative : ∀ p, (Block.sealPage p).native = p.native := by
    intro p
    unfold Block.sealPage
    split_ifs <;> rfl
  refine ⟨hsealed, fun i hi => ?_, fun i hi => ?_⟩
  · rw [hn] at hi
    rw [hp i hi]
    apply tracks_sync
    have hraw := hr.raw i hi
    unfold Block.sealPage
    split_ifs with hd
    · exact ⟨fun _ _ => rfl, fun _ => Or.inl ⟨rfl, rfl⟩⟩
    · refine ⟨fun _ _ => rfl, fun hv => Or.inr ?_⟩
      have hclean : (b.pages i).dirty = false := by simpa [hv] using hd
      rw [hraw.snap]
      exact hraw.clean hclean
  · rw [hn] at hi
    rw [hp i hi, hs]
    exact guarded_sync (hr.raw i hi).guarded (hnative _)

theorem Block.Tracks.moves (ht : b.Tracks base) (h : Moves b b') : b'.Tracks base := by
  refine ⟨h.sealed.trans ht.isSealed, fun i hi => ?_, fun i hi => ?_⟩
  · rw [h.npages] at hi
    exact (h.pages i).tracks (ht.guarded i hi) (ht.tracks i hi)
  · rw [h.npages] at hi
    rw [h.swappedIn]
    exact (h.pages i).guarded (ht.guarded i hi)

theorem Block.Tracks.switch (ht : b.Tracks base) (h : Switch b b') : b'.Tracks base := by
  refine ⟨h.cases.2.1.trans ht.isSealed, fun i hi => ?_, fun i hi => ?_⟩
  · rw [h.npages] at hi
    obtain ⟨n, hn⟩ := h.page i hi
    rw [hn]
    exact (ht.tracks i hi).congr rfl rfl rfl rfl
  · rw [h.npages] at hi
    exact h.guarded i hi (ht.guarded i hi)

theorem Block.Tracks.load (ht : b.Tracks base) {s s' : Source} (h : b.loadState s = .ok (0, b', s')) :
    b'.Tracks base := by
  obtain ⟨-, l, rfl, rfl, hc⟩ := loadState_done h
  refine ⟨ht.isSealed, fun i hi => ?_, fun i hi => ?_⟩
  · rw [l.flushed_page hi]
    exact (l.settled_loaded (ht.tracks i hi) (hc i hi)).tracks
  · rw [l.flushed_page hi]
    exact l.settled_guarded (ht.guarded i hi)

theorem Block.Tracks.step (ht : b.Tracks base) (h : PostStep b b') : b'.Tracks base := by
  cases h with
  | guest h => exact ht.moves h.moves
  | switch h => exact ht.switch h
  | load h => exact ht.load h

inductive SealedAt : (ℕ → PageData) → Block → Prop
  | mk {addr : Range} {b₀ b₁ b₂ : Block} : Block.new addr = .ok (some b₀) → ReflTransGen PreStep b₀ b₁ →
      b₁.sealBlock = .ok (0, b₂) → SealedAt (fun i => (b₁.pages i).data) b₂

theorem SealedAt.tracks (h : SealedAt base b) : b.Tracks base := by
  cases h with
  | mk hnew hpre hseal =>
    have hraw := Runs.invariant (P := Block.Raw) (fun _ _ hs hr => hr.step hs) hpre (raw_new hnew)
    exact hraw.sealBlock hseal

theorem SealedAt.run (h : SealedAt base b) (hrun : ReflTransGen PostStep b b') : b'.Tracks base :=
  Runs.invariant (P := Block.Tracks base) (fun _ _ hs ht => ht.step hs) hrun h.tracks

theorem Snapshot.holds_iff {d : PageData} {sn : Snapshot} :
    sn.Holds d ↔ sn = .zero ∧ d = zeroes 4096 ∨ sn = .data d := by
  cases sn <;> simp [Snapshot.Holds]

theorem baseline_invariant {addr : Range} {b b₀ b₁ b₂ b₃ : Block} (hnew : Block.new addr = .ok (some b))
    (hact : b.activate = .ok b₀) (hpre : ReflTransGen PreStep b₀ b₁) (hseal : b₁.sealBlock = .ok (0, b₂))
    (hpost : ReflTransGen PostStep b₂ b₃) (i : ℕ) (hi : i < b₃.npages) :
    ((b₃.pages i).invisible = false →
      ((b₃.pages i).dirty = false → (b₃.pages i).data = (b₁.pages i).data) ∧
      ((b₃.pages i).dirty = true →
        (b₃.pages i).snap = .zero ∧ (b₁.pages i).data = zeroes 4096 ∨
        (b₃.pages i).snap = .data (b₁.pages i).data)) ∧
    ((b₃.pages i).native.write = true → (b₃.pages i).dirty = true) ∧
    ∀ newD s, ((b₃.pages i).load newD s).1 ≠ -einval := by
  have hsealed : SealedAt (fun i => (b₁.pages i).data) b₂ :=
    .mk hnew (ReflTransGen.head (.switch (.activate hact)) hpre) hseal
  have ht := hsealed.run hpost
  have hp := ht.tracks i hi
  refine ⟨fun hv => ⟨hp.clean hv, fun hd => Snapshot.holds_iff.mp (hp.holds hv hd)⟩,
    (ht.guarded i hi).dirty, fun newD s => ?_⟩
  rw [hp.load_code]
  split_ifs <;> decide

def onePage : Range := ⟨0x36f00000000, 0x1000⟩

def smallest : Block :=
  ⟨onePage, ⟨by decide, by decide, by decide, by decide⟩, fun _ => freshPage, false, false, false, zeroes 32⟩

theorem new_onePage : Block.new onePage = .ok (some smallest) := rfl

theorem noWrap_map : (MemOp.mmapFixed onePage .rw true).NoWrap := (by decide : onePage.NoWrap)

theorem noWrap_unmap : (MemOp.munmap onePage).NoWrap := (by decide : onePage.NoWrap)

def Block.ready (b : Block) : Except Crash (ℤ × Block) := do
  let b ← b.activate
  (MemOp.mmapFixed b.addr .rw true).run b

def Block.hide (b : Block) : Except Crash (ℤ × Block) := do
  let b ← b.activate
  b.markInvisible b.addr

theorem ready_ok {b₁ : Block} {r : ℤ} (h : b.ready = .ok (r, b₁)) :
    ∃ b₀, b.activate = .ok b₀ ∧ (MemOp.mmapFixed b.addr .rw true).run b₀ = .ok (r, b₁) := by
  obtain ⟨b₀, hact, hmap⟩ := bind_ok h
  rw [(Switch.activate hact).cases.1] at hmap
  exact ⟨b₀, hact, hmap⟩

theorem hide_ok {b₁ : Block} {r : ℤ} (h : b.hide = .ok (r, b₁)) :
    ∃ b₀, b.activate = .ok b₀ ∧ b₀.markInvisible b.addr = .ok (r, b₁) := by
  obtain ⟨b₀, hact, hhide⟩ := bind_ok h
  rw [(Switch.activate hact).cases.1] at hhide
  exact ⟨b₀, hact, hhide⟩

theorem ready_run {b₁ : Block} {r : ℤ} (hw : b.addr.NoWrap) (h : b.ready = .ok (r, b₁)) : ReflTransGen PreStep b b₁ := by
  obtain ⟨b₀, hact, hmap⟩ := ready_ok h
  have hwrap : (MemOp.mmapFixed b.addr .rw true).NoWrap := hw
  exact .tail (.single (.switch (.activate hact))) (.guest (.mem hwrap hmap))

theorem hide_run {b₁ : Block} {r : ℤ} (hw : b.addr.NoWrap) (h : b.hide = .ok (r, b₁)) : ReflTransGen PreStep b b₁ := by
  obtain ⟨b₀, hact, hhide⟩ := hide_ok h
  exact .tail (.single (.switch (.activate hact))) (.markInvisible hw hhide)

theorem baseline_invariant_onePage : ∃ b b₀ b₁ b₂ b₃ : Block,
    Block.new onePage = .ok (some b) ∧ b.activate = .ok b₀ ∧ ReflTransGen PreStep b₀ b₁ ∧
    b₁.sealBlock = .ok (0, b₂) ∧ ReflTransGen PostStep b₂ b₃ ∧ 0 < b₃.npages ∧
    (b₁.pages 0).data 0 = 7 ∧ (b₃.pages 0).data 0 = 9 ∧ (b₃.pages 0).snap = .data (b₁.pages 0).data := by
  have hrun : passes (do
      let u₁ ← smallest.ready
      let b₁ ← u₁.2.guestWrite 0x36f00000000 7
      let u₂ ← b₁.sealBlock
      let b₃ ← u₂.2.guestWrite 0x36f00000000 9
      return decide (u₂.1 = 0 ∧ 0 < b₃.npages ∧ (b₁.pages 0).data 0 = 7 ∧ (b₃.pages 0).data 0 = 9 ∧
        (b₃.pages 0).invisible = false ∧ (b₃.pages 0).dirty = true)) = true := by decide +kernel
  obtain ⟨⟨_, c⟩, hready, hrun⟩ := passes_bind hrun
  obtain ⟨b₁, hw, hrun⟩ := passes_bind hrun
  obtain ⟨⟨r, b₂⟩, hseal, hrun⟩ := passes_bind hrun
  obtain ⟨b₃, hw', hrun⟩ := passes_bind hrun
  obtain ⟨rfl, hn, h7, h9, hv, hd⟩ := passes_pure hrun
  obtain ⟨b₀, hact, hmap⟩ := ready_ok hready
  have hpre : ReflTransGen PreStep b₀ b₁ := .tail (.single (.guest (.mem noWrap_map hmap))) (.guest (.write hw))
  have hpost : ReflTransGen PostStep b₂ b₃ := .single (.guest (.write hw'))
  refine ⟨smallest, b₀, b₁, b₂, b₃, new_onePage, hact, hpre, hseal, hpost, hn, h7, h9, ?_⟩
  rcases ((baseline_invariant new_onePage hact hpre hseal hpost 0 hn).1 hv).2 hd with ⟨-, hz⟩ | hs
  · rw [hz] at h7
    simp [zeroes] at h7
  · exact hs

end MiniBox
