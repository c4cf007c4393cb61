import MiniBox.BlockState

namespace MiniBox

open ByteStream

def Snapshot.Holds (base : PageData) : Snapshot → Prop
  | .none => False
  | .zero => base = zeroes 4096
  | .data d => d = base

namespace Page

structure Tracks (base : PageData) (p : Page) : Prop where
  clean : p.invisible = false → p.dirty = false → p.data = base
  kept : p.invisible = false → p.snap = .none ∧ p.dirty = false ∨ p.snap.Holds base

def Guarded (swappedIn : Bool) (p : Page) : Prop :=
  p.native.write = true → swappedIn = true ∧ (protToNative p.nativeProt).write = true

def baseline (p : Page) : PageData :=
  match p.snap with
  | .none => p.data
  | .zero => zeroes 4096
  | .data d => d

variable {base : PageData} {p q : Page} {swappedIn : Bool}

theorem Guarded.dirty (h : p.Guarded swappedIn) (hw : p.native.write = true) : p.dirty = true := by
  have h2 := (h hw).2
  rw [nativeProt, native_eq] at h2
  simp only [Bool.and_eq_true] at h2
  exact h2.1

theorem Guarded.grants (h : p.Guarded swappedIn) (hw : p.native.write = true) :
    (grants p.status).write = true := by
  have h2 := (h hw).2
  rw [nativeProt, native_eq] at h2
  simp only [Bool.and_eq_true] at h2
  exact h2.2

theorem Guarded.congr (h : p.Guarded swappedIn) (hn : q.native = p.native)
    (hp : q.nativeProt = p.nativeProt) : q.Guarded swappedIn := by
  unfold Guarded at h ⊢
  rwa [hn, hp]

theorem guarded_refresh (p : Page) : p.refresh.Guarded true := fun h => ⟨rfl, h⟩

theorem Tracks.holds (h : p.Tracks base) (hv : p.invisible = false) (hd : p.dirty = true) :
    p.snap.Holds base := by
  rcases h.kept hv with ⟨-, hc⟩ | hs
  · simp [hd] at hc
  · exact hs

theorem Tracks.congr (h : p.Tracks base) (hi : q.invisible = p.invisible) (hd : q.dirty = p.dirty)
    (hs : q.snap = p.snap) (hb : q.data = p.data) : q.Tracks base :=
  ⟨by rw [hi, hd, hb]; exact h.clean, by rw [hi, hd, hs]; exact h.kept⟩

theorem Tracks.snapshot (h : p.Tracks base) (hv : p.invisible = false) : p.maybeSnapshot.snap.Holds base := by
  unfold maybeSnapshot
  cases hs : p.snap with
  | none =>
    rcases h.kept hv with ⟨-, hc⟩ | hk
    · exact h.clean hv hc
    · rw [hs] at hk
      exact hk.elim
  | zero =>
    simpa [hs] using h.kept hv
  | data d =>
    simpa [hs] using h.kept hv

theorem Tracks.baseline_eq (h : p.Tracks base) (hv : p.invisible = false) : p.baseline = base := by
  unfold baseline
  have hk := h.kept hv
  cases hs : p.snap with
  | none =>
    rcases hk with ⟨-, hc⟩ | hk
    · exact h.clean hv hc
    · rw [hs] at hk
      exact hk.elim
  | zero =>
    have hz : base = zeroes 4096 := by simpa [hs, Snapshot.Holds] using hk
    exact hz.symm
  | data d => simpa [hs, Snapshot.Holds] using hk

theorem Tracks.release (h : p.Tracks base) : p.release.Tracks base := by
  have hi : p.release.invisible = p.invisible := p.maybeSnapshot_invisible
  refine ⟨fun hv hd => ?_, fun hv => Or.inr (h.snapshot (hi ▸ hv))⟩
  rw [hi] at hv
  have hs := h.snapshot hv
  change (!p.invisible && !p.maybeSnapshot.snap.isZero) = false at hd
  change zeroes 4096 = base
  cases hm : p.maybeSnapshot.snap with
  | zero =>
    rw [hm] at hs
    exact hs.symm
  | none => simp [hv, hm, Snapshot.isZero] at hd
  | data d => simp [hv, hm, Snapshot.isZero] at hd

theorem Tracks.apply (h : p.Tracks base) (e : PageEdit) : (e.apply p).Tracks base := by
  cases e with
  | status st => exact h.congr rfl rfl rfl rfl
  | advise => exact h.release
  | unmap => exact h.release.congr rfl rfl rfl rfl

theorem Tracks.written (h : p.Tracks base) (hg : p.Guarded swappedIn) (o : Fin 4096) (v : UInt8) :
    (p.written o v).Tracks base := by
  unfold Page.written
  split_ifs with hn
  · have hd := hg.dirty hn
    exact ⟨fun _ hc => by simp [store, hd] at hc, h.kept⟩
  · refine ⟨fun _ hc => ?_, fun hv => Or.inr (h.snapshot ?_)⟩
    · simp [store, trip, refresh, protect] at hc
    · simpa [store, trip, refresh, protect] using hv

theorem Guarded.written (h : p.Guarded swappedIn) (hs : swappedIn = true) (o : Fin 4096) (v : UInt8) :
    (p.written o v).Guarded swappedIn := by
  unfold Page.written
  split_ifs
  · exact h.congr rfl rfl
  · subst hs
    exact (guarded_refresh _).congr rfl rfl

end Page

theorem guarded_sync {b : Block} {p q : Page} (h : p.Guarded b.swappedIn) (hn : q.native = p.native) :
    (b.sync q).Guarded b.swappedIn := by
  unfold Block.sync
  split_ifs with hs
  · rw [hs]
    exact q.guarded_refresh
  · intro hw
    rw [hn] at hw
    exact absurd (h hw).1 hs

theorem apply_native (e : PageEdit) (p : Page) : (e.apply p).native = p.native := by
  cases e with
  | status st => rfl
  | advise => exact p.maybeSnapshot_native
  | unmap => exact p.maybeSnapshot_native

theorem apply_invisible (e : PageEdit) (p : Page) : (e.apply p).invisible = p.invisible := by
  cases e with
  | status st => rfl
  | advise => exact p.maybeSnapshot_invisible
  | unmap => exact p.maybeSnapshot_invisible

section Sync

variable (b : Block) (p : Page)

@[simp] theorem sync_status : (b.sync p).status = p.status := by unfold Block.sync; split_ifs <;> rfl
@[simp] theorem sync_dirty : (b.sync p).dirty = p.dirty := by unfold Block.sync; split_ifs <;> rfl
@[simp] theorem sync_invisible : (b.sync p).invisible = p.invisible := by unfold Block.sync; split_ifs <;> rfl
@[simp] theorem sync_snap : (b.sync p).snap = p.snap := by unfold Block.sync; split_ifs <;> rfl
@[simp] theorem sync_data : (b.sync p).data = p.data := by unfold Block.sync; split_ifs <;> rfl

theorem tracks_sync {base : PageData} (h : p.Tracks base) : (b.sync p).Tracks base :=
  h.congr (by simp) (by simp) (by simp) (by simp)

end Sync

end MiniBox
