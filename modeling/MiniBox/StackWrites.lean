import MiniBox.BaselineInvariant
import MiniBox.WindowsMoves

namespace MiniBox

open ByteStream IndexLoops Outcomes Relation

theorem winNativeProt_write {st : UInt8} {d : Bool} (h : (protToNative (winNativeProt st d)).write = true) :
    d = true ∨ st = stRWStack := by
  by_contra hc
  push Not at hc
  obtain ⟨hd, hst⟩ := hc
  rw [ne_eq, Bool.not_eq_true] at hd
  subst hd
  unfold winNativeProt statusProt at h
  split_ifs at h <;> simp_all [protToNative]

theorem Page.Tracks.maybeSnapshot {p : Page} {base : PageData} (h : p.Tracks base) : p.maybeSnapshot.Tracks base := by
  refine ⟨?_, fun hv => Or.inr ?_⟩
  · simpa using h.clean
  · rw [Page.maybeSnapshot_invisible] at hv
    exact h.snapshot hv

namespace WinPage

def Guarded (sw : Bool) (p : WinPage) : Prop :=
  p.native.write = true → sw = true ∧ (protToNative p.winProt).write = true

structure Follows (sw : Bool) (base : PageData) (p : WinPage) : Prop where
  settled : ¬ p.Unseen sw → p.toPage.Tracks base
  ready : p.invisible = false → p.status = stRWStack → p.snap.Holds base
  guarded : p.Guarded sw

variable {sw : Bool} {base : PageData} {p q : WinPage}

theorem Guarded.dirty_or (h : p.Guarded sw) (hw : p.native.write = true) : p.dirty = true ∨ p.status = stRWStack :=
  winNativeProt_write (h hw).2

theorem guarded_refresh (p : WinPage) : p.refresh.Guarded true := fun h => ⟨rfl, h⟩

theorem guarded_sync (h : p.Guarded sw) (hn : q.native = p.native) : (q.sync sw).Guarded sw := by
  cases sw with
  | true => exact guarded_refresh q
  | false =>
    intro hw
    change q.native.write = true at hw
    rw [hn] at hw
    cases (h hw).1

theorem Guarded.congr (h : p.Guarded sw) (hn : q.native = p.native) (hs : q.status = p.status) (hd : q.dirty = p.dirty) :
    q.Guarded sw := by
  unfold Guarded winProt at h ⊢
  rwa [hn, hs, hd]

theorem Follows.snapshot (h : p.Follows sw base) (hv : p.invisible = false) : p.toPage.maybeSnapshot.snap.Holds base := by
  by_cases hu : p.Unseen sw
  · have hr := h.ready hv hu.2.2.1
    unfold Page.maybeSnapshot
    cases hs : p.snap with
    | none => rw [hs] at hr; exact hr.elim
    | zero => simpa [hs] using hr
    | data d => simpa [hs] using hr
  · exact (h.settled hu).snapshot hv

theorem Follows.sweep (h : p.Follows true base) : p.sweep.Follows true base := by
  by_cases hm : p.status = stRWStack ∧ p.guard = false
  · obtain ⟨hst, hg⟩ := hm
    have hp : p.sweep = { p with dirty := true } := by
      rw [WinPage.sweep, mark_eq]
      simp [hst, hg]
    rw [hp]
    refine ⟨fun _ => ⟨fun _ hd => ?_, fun hv => Or.inr (h.ready hv hst)⟩, h.ready, fun _ => ⟨rfl, ?_⟩⟩
    · cases hd
    · change (protToNative (winNativeProt p.status true)).write = true
      rw [hst]
      rfl
  · have hp : p.sweep = p := by
      rw [WinPage.sweep, mark_eq]
      have : (!p.guard && decide (p.status = stRWStack)) = false := by
        rw [Bool.eq_false_iff]
        intro hc
        simp only [Bool.and_eq_true, Bool.not_eq_true', decide_eq_true_eq] at hc
        exact hm ⟨hc.2, hc.1⟩
      rw [this, Bool.or_false]
    rwa [hp]

theorem Follows.edit (h : p.Follows sw base) (hu : ¬ p.Unseen sw) (e : PageEdit) :
    ((p.onPage e.apply).sync sw).preCapture.Follows sw base := by
  have hq : ((p.onPage e.apply).sync sw).toPage.Tracks base :=
    ((h.settled hu).apply e).congr (sync_invisible _ _) (sync_dirty _ _) (sync_snap _ _) (sync_data _ _)
  have hg : ((p.onPage e.apply).sync sw).Guarded sw := guarded_sync h.guarded (apply_native e p.toPage)
  generalize (p.onPage e.apply).sync sw = q at hq hg
  unfold preCapture
  split_ifs with hst
  · refine ⟨fun _ => hq.maybeSnapshot, fun hv _ => ?_, ?_⟩
    · exact hq.snapshot (by simpa [onPage] using hv)
    · exact hg.congr (by simp [onPage]) (by simp [onPage]) (by simp [onPage])
  · exact ⟨fun _ => hq, fun _ hs => absurd hs hst, hg⟩

theorem Follows.hide (h : p.Follows sw base) : ((p.onPage Block.hidePage).sync sw).Follows sw base := by
  have hv : ((p.onPage Block.hidePage).sync sw).invisible = true := sync_invisible _ _
  refine ⟨fun _ => ⟨fun hi => ?_, fun hi => ?_⟩, fun hi => ?_, guarded_sync h.guarded rfl⟩
  · rw [hv] at hi; cases hi
  · rw [hv] at hi; cases hi
  · rw [hv] at hi; cases hi

theorem Follows.touch (h : p.Follows true base) : p.touch.Follows true base := by
  refine ⟨fun hu => h.settled fun hp => hu ?_, h.ready, h.guarded⟩
  exact ⟨hp.1, hp.2.1, hp.2.2.1, hp.2.2.2.1, rfl⟩

theorem Follows.store (h : p.Follows true base) (hw : p.native.write = true) (hg : p.guard = false) (o : Fin 4096)
    (v : UInt8) : (p.onPage (Page.store o v)).Follows true base := by
  refine ⟨fun hu => ?_, h.ready, h.guarded⟩
  have hd : p.invisible = false → p.dirty = true := by
    intro hv
    rcases h.guarded.dirty_or hw with hd | hst
    · exact hd
    · by_contra hd
      exact hu ⟨rfl, hv, hst, (show p.dirty = false by simpa using hd), hg⟩
  have ht : p.toPage.Tracks base := h.settled fun hp => by simpa [hd hp.2.1] using hp.2.2.2.1
  refine ⟨fun hv hc => ?_, ht.kept⟩
  have hc' : p.dirty = false := hc
  rw [hd hv] at hc'
  cases hc'

theorem Follows.trip (h : p.Follows true base) : p.trip.Follows true base := by
  have hi : p.trip.invisible = p.invisible := p.toPage.maybeSnapshot_invisible
  refine ⟨fun _ => ⟨fun _ hd => ?_, fun hv => Or.inr (h.snapshot (hi ▸ hv))⟩, fun hv _ => h.snapshot (hi ▸ hv),
    guarded_refresh _⟩
  cases hd

theorem Follows.refresh (h : p.Follows false base) : p.refresh.Follows true base :=
  ⟨fun _ => (h.settled fun hu => by cases hu.1).congr rfl rfl rfl rfl, h.ready, guarded_refresh p⟩

theorem Follows.sealPage (h : p.Follows sw (zeroes 4096)) (hu : ¬ p.Unseen sw) (hs : p.snap = .zero) :
    (p.sealPage.sync sw).Follows sw p.data := by
  by_cases hd : (p.dirty && !p.invisible) = true
  · have hseal : Block.sealPage p.toPage = { p.toPage with dirty := false, snap := .none } := if_pos hd
    have ht : ({ p.toPage with dirty := false, snap := .none } : Page).Tracks p.data :=
      ⟨fun _ _ => rfl, fun _ => Or.inl ⟨rfl, rfl⟩⟩
    have hnative : p.sealPage.native = p.native := by
      rw [WinPage.sealPage, if_pos hd, onPage, hseal]
      unfold preCapture
      split_ifs
      · exact Page.maybeSnapshot_native _
      · rfl
    have hg := guarded_sync h.guarded hnative
    rw [WinPage.sealPage, if_pos hd, onPage, hseal] at hg ⊢
    unfold preCapture at hg ⊢
    split_ifs at hg ⊢ with hst
    · refine ⟨fun _ => ht.maybeSnapshot.congr (sync_invisible _ _) (sync_dirty _ _) (sync_snap _ _) (sync_data _ _),
        fun hv _ => ?_, hg⟩
      rw [sync_snap]
      exact ht.snapshot (by simpa [onPage] using hv)
    · refine ⟨fun _ => ht.congr (sync_invisible _ _) (sync_dirty _ _) (sync_snap _ _) (sync_data _ _),
        fun _ hs => absurd ((sync_status _ _).symm.trans hs) hst, hg⟩
  · have hp : p.sealPage = p := if_neg hd
    have ht := h.settled hu
    have hzero : p.invisible = false → p.data = zeroes 4096 := by
      intro hv
      apply ht.clean hv
      simpa [hv] using hd
    have hholds : p.invisible = false → p.snap.Holds p.data := by
      intro hv
      rw [hs, hzero hv]
      rfl
    rw [hp]
    refine ⟨fun _ => ⟨fun _ _ => sync_data _ _, fun hv => Or.inr ?_⟩, fun hv _ => ?_, guarded_sync h.guarded rfl⟩
    · rw [sync_snap]
      exact hholds ((sync_invisible _ _).symm.trans hv)
    · rw [sync_snap]
      exact hholds ((sync_invisible _ _).symm.trans hv)

end WinPage

namespace WinBlock

variable {b b' : WinBlock} {base : ℕ → PageData}

def Tracks (base : ℕ → PageData) (b : WinBlock) : Prop :=
  ∀ i, i < b.npages → (b.pages i).Follows b.swappedIn (base i)

def Blank (b : WinBlock) : Prop := ∀ i, i < b.npages → (b.pages i).snap = .zero

theorem mapPages_forall {P : ℕ → WinPage → Prop} {ps pc : ℕ} {f : WinPage → WinPage}
    (h : ∀ i, i < b.npages → P i (b.pages i))
    (hf : ∀ i, ps ≤ i → i < ps + pc → i < b.npages → P i (b.pages i) → P i (f (b.pages i))) (i : ℕ) (hi : i < b.npages) :
    P i ((b.mapPages ps pc f).pages i) := by
  change P i (mapRange f ps pc b.pages i)
  by_cases hin : ps ≤ i ∧ i < ps + pc
  · rw [mapRange_mem _ _ _ _ _ hin]
    exact hf i hin.1 hin.2 hi (h i hi)
  · rw [mapRange_not_mem _ _ _ _ _ hin]
    exact h i hi

theorem setPage_forall {P : ℕ → WinPage → Prop} {k : ℕ} {p : WinPage} (h : ∀ i, i < b.npages → P i (b.pages i))
    (hp : k < b.npages → P k (b.pages k) → P k p) (i : ℕ) (hi : i < b.npages) : P i ((b.setPage k p).pages i) := by
  change P i (Function.update b.pages k p i)
  by_cases hk : i = k
  · subst hk
    rw [Function.update_self]
    exact hp hi (h i hi)
  · rw [Function.update_of_ne hk]
    exact h i hi

theorem Tracks.shift (ht : b.Tracks base) (h : Shift b b') : b'.Tracks base := by
  cases h with
  | sample hs =>
    exact mapPages_forall ht fun i _ _ _ hp => by rw [hs] at hp ⊢; exact hp.sweep
  | edit e hb hq =>
    exact mapPages_forall ht fun i h1 h2 _ hp => hp.edit (hq i h1 h2) e
  | hide hu hb => exact mapPages_forall ht fun i _ _ _ hp => hp.hide
  | touch k hs => exact setPage_forall ht fun _ hp => by rw [hs] at hp ⊢; exact hp.touch
  | store k o v hs hw hg => exact setPage_forall ht fun _ hp => by rw [hs] at hp ⊢; exact hp.store hw hg o v
  | trip k hs hw => exact setPage_forall ht fun _ hp => by rw [hs] at hp ⊢; exact hp.trip
  | map active hs =>
    intro i hi
    have hp := ht i hi
    rw [hs] at hp
    have hr : mapRange WinPage.refresh 0 b.npages b.pages i = (b.pages i).refresh :=
      mapRange_mem _ _ _ _ _ ⟨Nat.zero_le i, by rw [Nat.zero_add]; exact hi⟩
    change (mapRange WinPage.refresh 0 b.npages b.pages i).Follows true (base i)
    rw [hr]
    exact hp.refresh
  | flag active => exact ht

theorem maybeSnapshot_zero {p : Page} (h : p.snap = .zero) : p.maybeSnapshot.snap = .zero := by
  rw [Page.maybeSnapshot, h]
  exact h

theorem apply_zero {p : Page} (h : p.snap = .zero) (e : PageEdit) : (e.apply p).snap = .zero := by
  cases e with
  | status st => exact h
  | advise => exact maybeSnapshot_zero h
  | unmap => exact maybeSnapshot_zero h

theorem preCapture_zero {p : WinPage} (h : p.snap = .zero) : p.preCapture.snap = .zero := by
  rw [WinPage.preCapture_of_snap (by simp [h])]
  exact h

theorem Blank.shift (hz : b.Blank) (h : Shift b b') : b'.Blank := by
  cases h with
  | sample hs =>
    refine mapPages_forall (P := fun _ p => p.snap = .zero) hz fun i _ _ _ hp => ?_
    rw [WinPage.sweep, WinPage.mark_eq]
    exact hp
  | edit e hb hq =>
    refine mapPages_forall (P := fun _ p => p.snap = .zero) hz fun i _ _ _ hp => ?_
    apply preCapture_zero
    rw [WinPage.sync_snap]
    exact apply_zero hp e
  | hide hu hb =>
    refine mapPages_forall (P := fun _ p => p.snap = .zero) hz fun i _ _ _ hp => ?_
    rw [WinPage.sync_snap]
    exact hp
  | touch k hs => exact setPage_forall (P := fun _ p => p.snap = .zero) hz fun _ hp => hp
  | store k o v hs hw hg => exact setPage_forall (P := fun _ p => p.snap = .zero) hz fun _ hp => hp
  | trip k hs hw => exact setPage_forall (P := fun _ p => p.snap = .zero) hz fun _ hp => maybeSnapshot_zero hp
  | map active hs => exact mapPages_forall (P := fun _ p => p.snap = .zero) hz fun i _ _ _ hp => hp
  | flag active => exact hz

theorem shift_sealed (h : Shift b b') : b'.sealed = b.sealed := by
  cases h <;> rfl

end WinBlock

theorem Page.load_snap {p : Page} {base : PageData} {s : Source} (h : p.Tracks base) (hv : p.invisible = false) :
    (p.load false s).2.1.snap = p.snap := by
  cases hd : p.dirty with
  | true => rw [Page.load_revert hv hd (h.holds hv hd)]
  | false => rw [Page.load_keep hv hd]

structure LoadPoint (base : ℕ → PageData) (c : WinBlock) (i : ℕ) (runStart : Option ℕ) (runEnd : ℕ) (b : WinBlock) :
    Prop where
  addr : b.addr = c.addr
  sealed : b.sealed = c.sealed
  swappedIn : b.swappedIn = c.swappedIn
  ahead : ∀ j, i ≤ j → b.pages j = c.pages j
  tracks : ∀ j, j < i → (b.pages j).toPage.Tracks (base j)
  ready : ∀ j, j < i → (b.pages j).invisible = false → (b.pages j).status = stRWStack → (b.pages j).snap.Holds (base j)
  guarded : ∀ j, j < i → (∀ r, runStart = some r → r ≤ j → runEnd < j) → (b.pages j).Guarded c.swappedIn
  native : ∀ j r, runStart = some r → r ≤ j → j ≤ runEnd → (b.pages j).native = (c.pages j).native
  run : ∀ r, runStart = some r → r ≤ runEnd ∧ runEnd < i

namespace LoadPoint

variable {base : ℕ → PageData} {c b b' : WinBlock} {i r runEnd : ℕ} {runStart : Option ℕ}

theorem npages (h : LoadPoint base c i runStart runEnd b) : b.npages = c.npages := by
  rw [WinBlock.npages, WinBlock.npages, h.addr]

theorem flush (h : LoadPoint base c i (some r) runEnd b) (hg : ∀ j, j < c.npages → (c.pages j).Guarded c.swappedIn)
    (hi : i ≤ c.npages) (hb : b.refreshRange r (runEnd - r + 1) = .ok b') : LoadPoint base c i none runEnd b' := by
  obtain ⟨hre, hei⟩ := h.run r rfl
  have hlen : r + (runEnd - r + 1) = runEnd + 1 := by omega
  rw [WinBlock.refreshRange_eq _ _ _ (by rw [hlen, h.npages]; omega)] at hb
  cases hb
  have hin : ∀ j, r ≤ j → j ≤ runEnd →
      (b.mapPages r (runEnd - r + 1) (WinPage.sync b.swappedIn)).pages j = (b.pages j).sync b.swappedIn :=
    fun j h1 h2 => mapRange_mem _ _ _ _ _ ⟨h1, by omega⟩
  have hout : ∀ j, ¬ (r ≤ j ∧ j ≤ runEnd) →
      (b.mapPages r (runEnd - r + 1) (WinPage.sync b.swappedIn)).pages j = b.pages j :=
    fun j hj => mapRange_not_mem _ _ _ _ _ (by omega)
  refine ⟨h.addr, h.sealed, h.swappedIn, fun j hj => ?_, fun j hj => ?_, fun j hj => ?_, fun j hj _ => ?_, by simp, by simp⟩
  · rw [hout j (by omega), h.ahead j hj]
  · by_cases hr : r ≤ j ∧ j ≤ runEnd
    · rw [hin j hr.1 hr.2]
      exact (h.tracks j hj).congr (WinPage.sync_invisible _ _) (WinPage.sync_dirty _ _) (WinPage.sync_snap _ _)
        (WinPage.sync_data _ _)
    · rw [hout j hr]
      exact h.tracks j hj
  · by_cases hr : r ≤ j ∧ j ≤ runEnd
    · rw [hin j hr.1 hr.2, WinPage.sync_invisible, WinPage.sync_status, WinPage.sync_snap]
      exact h.ready j hj
    · rw [hout j hr]
      exact h.ready j hj
  · by_cases hr : r ≤ j ∧ j ≤ runEnd
    · rw [hin j hr.1 hr.2, h.swappedIn]
      exact WinPage.guarded_sync (hg j (by omega)) (h.native j r rfl hr.1 hr.2)
    · rw [hout j hr]
      refine h.guarded j hj fun r' hr' hle => ?_
      cases hr'
      omega

structure Body (base : ℕ → PageData) (c : WinBlock) (i : ℕ) (q : WinPage) : Prop where
  tracks : q.toPage.Tracks (base i)
  ready : q.invisible = false → q.status = stRWStack → q.snap.Holds (base i)
  native : q.native = (c.pages i).native

variable {q : WinPage}

theorem setPage_of_ne {j : ℕ} (hj : j ≠ i) : (b.setPage i q).pages j = b.pages j := Function.update_of_ne hj _ _

theorem setPage_tracks (h : LoadPoint base c i runStart runEnd b) (hq : Body base c i q) (j : ℕ) (hj : j < i + 1) :
    ((b.setPage i q).pages j).toPage.Tracks (base j) := by
  by_cases hji : j = i
  · rw [hji, WinBlock.setPage_same]
    exact hq.tracks
  · rw [setPage_of_ne hji]
    exact h.tracks j (by omega)

theorem setPage_ready (h : LoadPoint base c i runStart runEnd b) (hq : Body base c i q) (j : ℕ) (hj : j < i + 1) :
    ((b.setPage i q).pages j).invisible = false → ((b.setPage i q).pages j).status = stRWStack →
      ((b.setPage i q).pages j).snap.Holds (base j) := by
  by_cases hji : j = i
  · rw [hji, WinBlock.setPage_same]
    exact hq.ready
  · rw [setPage_of_ne hji]
    exact h.ready j (by omega)

theorem setPage_ahead (h : LoadPoint base c i runStart runEnd b) (j : ℕ) (hj : i + 1 ≤ j) :
    (b.setPage i q).pages j = c.pages j := by
  rw [setPage_of_ne (by omega), h.ahead j (by omega)]

theorem changed (h : LoadPoint base c i runStart runEnd b) (hq : Body base c i q)
    (hend : ∀ r, runStart = some r → runEnd + 1 = i) :
    LoadPoint base c (i + 1) (some (runStart.getD i)) i (b.setPage i q) := by
  have hr : runStart.getD i ≤ i := by
    cases hs : runStart with
    | none => exact le_refl i
    | some r => exact (Nat.le_of_lt_succ (by have := h.run r hs; have := hend r hs; simp; omega))
  refine ⟨h.addr, h.sealed, h.swappedIn, h.setPage_ahead, h.setPage_tracks hq, h.setPage_ready hq, fun j hj hrun => ?_,
    fun j r hrun hrj hji => ?_, fun r hrun => ?_⟩
  · have hlt : j < runStart.getD i := by
      by_contra hge
      have := hrun _ rfl (by omega)
      omega
    rw [setPage_of_ne (by omega)]
    refine h.guarded j (by omega) fun r hs hle => ?_
    rw [hs] at hlt
    exact absurd hle (Nat.not_le.mpr hlt)
  · by_cases hji' : j = i
    · rw [hji', WinBlock.setPage_same]
      exact hq.native
    · rw [setPage_of_ne hji']
      cases hs : runStart with
      | none =>
        rw [hs] at hrun
        cases hrun
        exact absurd hrj (by simp; omega)
      | some r' =>
        rw [hs] at hrun
        cases hrun
        exact h.native j r' hs hrj (by have := hend r' hs; omega)
  · cases hrun
    exact ⟨hr, Nat.lt_succ_self i⟩

theorem unchanged (h : LoadPoint base c i runStart runEnd b) (hq : Body base c i q) (hg : q.Guarded c.swappedIn) :
    LoadPoint base c (i + 1) runStart runEnd (b.setPage i q) := by
  refine ⟨h.addr, h.sealed, h.swappedIn, h.setPage_ahead, h.setPage_tracks hq, h.setPage_ready hq, fun j hj hrun => ?_,
    fun j r hrun hrj hje => ?_, fun r hrun => ?_⟩
  · by_cases hji : j = i
    · rw [hji, WinBlock.setPage_same]
      exact hg
    · rw [setPage_of_ne hji]
      exact h.guarded j (by omega) hrun
  · have hlt := (h.run r hrun).2
    rw [setPage_of_ne (by omega)]
    exact h.native j r hrun hrj hje
  · have hle := h.run r hrun
    exact ⟨hle.1, hle.2.trans (Nat.lt_succ_self i)⟩

end LoadPoint

namespace WinBlock

variable {b b' c : WinBlock} {base : ℕ → PageData} {statii dirtii : ℕ → UInt8}

theorem body_of_load {p : WinPage} {i : ℕ} {s : Source} (hp : c.pages i = p) (hf : p.Follows c.swappedIn (base i))
    (hu : ¬ p.Unseen c.swappedIn) (hrc : (p.toPage.load (dirtii i != 0) s).1 = 0)
    (hh : p.invisible = false → statii i = stRWStack → dirtii i = 0 → p.snap ≠ .none) :
    LoadPoint.Body base c i { p with toPage := (p.toPage.load (dirtii i != 0) s).2.1.setStatus (statii i) } := by
  have ht := hf.settled hu
  have hl := ht.load hrc
  refine ⟨hl.tracks.congr rfl rfl rfl rfl, fun hv hst => ?_, hl.native.trans (by rw [hp])⟩
  have hv' : p.invisible = false := hl.invisible.symm.trans hv
  have hv'' : (p.toPage.load (dirtii i != 0) s).2.1.invisible = false := hv
  rcases hl.tracks.kept hv'' with ⟨hsnap, hd⟩ | hk
  · exfalso
    rw [hl.dirty hv'] at hd
    have hz : dirtii i = 0 := by simpa using hd
    rw [hd, Page.load_snap ht hv'] at hsnap
    exact hh hv' hst hz hsnap
  · exact hk

theorem LoadPoint_final {runEnd : ℕ} (h : LoadPoint base c c.npages none runEnd b) :
    b.Tracks base ∧ b.sealed = c.sealed := by
  refine ⟨fun i hi => ?_, h.sealed⟩
  rw [h.npages] at hi
  rw [h.swappedIn]
  exact ⟨fun _ => h.tracks i hi, h.ready i hi, h.guarded i hi (by simp)⟩

theorem loadLoop_tracks (ht : c.Tracks base) (hu : ∀ i, i < c.npages → ¬ (c.pages i).Unseen c.swappedIn)
    (hh : ∀ i, i < c.npages → (c.pages i).invisible = false → statii i = stRWStack → dirtii i = 0 →
      (c.pages i).snap ≠ .none) {n i : ℕ} {runStart : Option ℕ} {runEnd : ℕ} {s s' : Source} (hn : i + n = c.npages)
    (hend : ∀ r, runStart = some r → runEnd + 1 = i) (hb : LoadPoint base c i runStart runEnd b)
    (h : loadLoop statii dirtii n i runStart runEnd b s = .ok (0, b', s')) : b'.Tracks base ∧ b'.sealed = c.sealed := by
  have hg : ∀ j, j < c.npages → (c.pages j).Guarded c.swappedIn := fun j hj => (ht j hj).guarded
  induction n generalizing i runStart runEnd b s with
  | zero =>
    obtain rfl : i = c.npages := hn
    cases runStart with
    | none =>
      rw [loadLoop] at h
      cases h
      exact LoadPoint_final hb
    | some r =>
      rw [loadLoop] at h
      obtain ⟨d, hd, h⟩ := bind_ok h
      cases h
      exact LoadPoint_final (hb.flush hg (le_refl _) hd)
  | succ n ih =>
    have hi : i < c.npages := by omega
    have hpage : b.pages i = c.pages i := hb.ahead i (le_refl i)
    rw [loadLoop, hpage] at h
    dsimp only at h
    split_ifs at h with hrc hchanged
    · exact absurd (Prod.mk.inj (Except.ok.inj h)).1 hrc
    · have hq := body_of_load rfl (ht i hi) (hu i hi) (not_not.mp hrc) (hh i hi)
      exact ih (by omega) (fun _ _ => rfl) (hb.changed hq hend) h
    · have hq := body_of_load rfl (ht i hi) (hu i hi) (not_not.mp hrc) (hh i hi)
      have hgq : ({ c.pages i with
          toPage := ((c.pages i).toPage.load (dirtii i != 0) s).2.1.setStatus (statii i) } : WinPage).Guarded
            c.swappedIn := by
        intro hw
        rw [not_not.mp hchanged]
        rw [hq.native] at hw
        exact hg i hi hw
      have hpoint := hb.unchanged hq hgq
      cases runStart with
      | none => exact ih (by omega) (by simp) hpoint h
      | some r =>
        obtain ⟨d, hd, h⟩ := bind_ok h
        exact ih (by omega) (by simp) (hpoint.flush hg hi hd) h

theorem sampled_tracks (ht : b.Tracks base) : b.sampled.Tracks base :=
  Runs.invariant (P := Tracks base) (fun _ _ hs ht => ht.shift hs) sampled_shifts ht

theorem sampled_page (i : ℕ) : ∃ d, b.sampled.pages i = { b.pages i with dirty := d } := by
  unfold sampled
  split_ifs
  · change ∃ d, mapRange WinPage.sweep 0 b.npages b.pages i = _
    unfold mapRange
    split_ifs
    · exact ⟨_, WinPage.mark_eq _ _⟩
    · exact ⟨_, rfl⟩
  · exact ⟨_, rfl⟩

theorem sampled_snap (i : ℕ) : (b.sampled.pages i).snap = (b.pages i).snap := by
  obtain ⟨d, hd⟩ := sampled_page (b := b) i
  rw [hd]

theorem sampled_invisible (i : ℕ) : (b.sampled.pages i).invisible = (b.pages i).invisible := by
  obtain ⟨d, hd⟩ := sampled_page (b := b) i
  rw [hd]

theorem sampled_data (i : ℕ) : (b.sampled.pages i).data = (b.pages i).data := by
  obtain ⟨d, hd⟩ := sampled_page (b := b) i
  rw [hd]

theorem Tracks.load (ht : b.Tracks base) {query : Query} (hq : b.Answers query) {s s' : Source}
    (hh : (WinOp.load s).Heeds b) (h : b.loadState query s = .ok (0, b', s')) :
    b'.Tracks base ∧ b'.sealed = b.sealed := by
  unfold loadState at h
  by_cases hs : b.sealed = true
  swap
  · rw [if_neg hs] at h
    exact absurd (Prod.mk.inj (Except.ok.inj h)).1 (by decide)
  rw [if_pos hs, sampleStacks_eq hq, ok_bind] at h
  cases hl : b.sampled.toBlock.loadHeader s with
  | inl u =>
    rw [hl] at h
    exact absurd (Prod.mk.inj (Except.ok.inj h)).1 (loadHeader_code hl)
  | inr l =>
    rw [hl] at h
    dsimp only at h
    have hc := sampled_tracks ht
    have hpoint : LoadPoint base b.sampled 0 none 0 b.sampled :=
      ⟨rfl, rfl, rfl, fun _ _ => rfl, by simp, by simp, by simp, by simp, by simp⟩
    obtain ⟨htr, hse⟩ := loadLoop_tracks hc (fun i hi => not_unseen_sampled i (sampled_npages (b := b) ▸ hi))
      (fun i hi hv => by
        rw [sampled_snap]
        rw [sampled_invisible] at hv
        exact hh l hl i (sampled_npages (b := b) ▸ hi) hv)
      (Nat.zero_add _) (by simp) hpoint h
    exact ⟨htr, hse.trans sampled_sealed⟩

structure Raw (b : WinBlock) : Prop where
  unsealed : b.sealed = false
  tracks : b.Tracks fun _ => zeroes 4096
  blank : b.Blank

theorem Raw.shifts (hr : b.Raw) (h : ReflTransGen Shift b b') : b'.Raw :=
  Runs.invariant (P := Raw) (fun _ _ hs hr =>
    ⟨(shift_sealed hs).trans hr.unsealed, hr.tracks.shift hs, hr.blank.shift hs⟩) h hr

theorem Tracks.shifts (ht : b.Tracks base) (h : ReflTransGen Shift b b') : b'.Tracks base :=
  Runs.invariant (P := Tracks base) (fun _ _ hs ht => ht.shift hs) h ht

theorem shifts_sealed (h : ReflTransGen Shift b b') : b'.sealed = b.sealed :=
  Runs.invariant (P := fun c => c.sealed = b.sealed) (fun _ _ hs hc => (shift_sealed hs).trans hc) h rfl

theorem sealBlock_of_sealed {query : Query} {r : ℤ} (hs : b.sealed = true) (h : b.sealBlock query = .ok (r, b')) :
    r = -einval ∧ b' = b := by
  rw [sealBlock, if_pos hs] at h
  cases h
  exact ⟨rfl, rfl⟩

theorem Raw.sealBlock (hr : b.Raw) {query : Query} (hq : b.Answers query) {r : ℤ}
    (h : b.sealBlock query = .ok (r, b')) : (b'.Tracks fun i => (b.pages i).data) ∧ b'.sealed = true := by
  have hc := hr.shifts sampled_shifts
  have hn := sampled_npages (b := b)
  rw [WinBlock.sealBlock, if_neg (by simp [hr.unsealed]), sampleStacks_eq hq, ok_bind,
    forRange_eq _ _ _ _ _ _ (by omega), ok_bind] at h
  change ((b.sampled.mapPages 0 b.sampled.npages WinPage.sealPage).refreshRange 0 b.sampled.npages >>= _) = _ at h
  rw [refreshRange_eq (b.sampled.mapPages 0 b.sampled.npages _) _ _ (by rw [Nat.zero_add]; exact le_refl _), ok_bind,
    mapPages_mapPages] at h
  cases h
  refine ⟨fun i hi => ?_, rfl⟩
  have hi' : i < b.sampled.npages := hi
  have hp : (b.sampled.mapPages 0 b.sampled.npages (WinPage.sync b.sampled.swappedIn ∘ WinPage.sealPage)).pages i =
      (b.sampled.pages i).sealPage.sync b.sampled.swappedIn := mapRange_mem _ _ _ _ _ ⟨Nat.zero_le i, by omega⟩
  have hf := (hc.tracks i hi').sealPage (not_unseen_sampled i (hn ▸ hi')) (hc.blank i hi')
  rw [sampled_data] at hf
  change ((b.sampled.mapPages 0 b.sampled.npages
    (WinPage.sync b.sampled.swappedIn ∘ WinPage.sealPage)).pages i).Follows b.sampled.swappedIn _
  rw [hp]
  exact hf

theorem saveState_block {query : Query} (hq : b.Answers query) {w w' : Sink} {r : ℤ}
    (h : b.saveState query w = .ok (r, b', w')) : b' = b.sampled ∨ b' = b ∧ b.sealed = false := by
  unfold saveState at h
  by_cases hs : b.sealed = true
  · rw [if_pos hs, sampleStacks_eq hq, ok_bind] at h
    left
    split at h
    · cases h; rfl
    · cases h; rfl
  · rw [if_neg hs] at h
    cases h
    exact Or.inr ⟨rfl, by simpa using hs⟩

end WinBlock

theorem WinOp.run_shifts {op : WinOp} {b b' : WinBlock} {query : Query} {r : ℤ} (hw : op.NoWrap) (hq : b.Answers query)
    (h : op.run query b = .ok (r, b')) (hh : op.Heeds b) :
    ReflTransGen Shift b b' ∨ (op = .sealBlock ∧ b.sealBlock query = .ok (r, b')) ∨
      ∃ s s', op = .load s ∧ b.loadState query s = .ok (r, b', s') := by
  cases op with
  | mem op => exact Or.inl (runMem_shifts hw hq h hh)
  | markInvisible addr =>
    rcases WinBlock.markInvisible_cases hw h with rfl | ⟨hs, ps, pc, hb, rfl⟩
    · exact Or.inl .refl
    · exact Or.inl (.single (.hide hs hb))
  | sealBlock => exact Or.inr (Or.inl ⟨rfl, h⟩)
  | save w =>
    obtain ⟨u, hu, h⟩ := bind_ok h
    cases h
    rcases WinBlock.saveState_block hq hu with hb | ⟨hb, -⟩
    · rw [hb]
      exact Or.inl WinBlock.sampled_shifts
    · rw [hb]
      exact Or.inl .refl
  | load s =>
    obtain ⟨u, hu, h⟩ := bind_ok h
    cases h
    exact Or.inr (Or.inr ⟨s, u.2.2, rfl, hu⟩)
  | read a =>
    obtain ⟨u, hu, h⟩ := bind_ok h
    cases h
    exact Or.inl (WinBlock.guestRead_shifts hu)
  | write a v =>
    obtain ⟨u, hu, h⟩ := bind_ok h
    cases h
    exact Or.inl (WinBlock.guestWrite_shifts hu)
  | activate =>
    obtain ⟨u, hu, h⟩ := bind_ok h
    cases h
    exact Or.inl (WinBlock.switch_shifts hu)
  | deactivate =>
    cases h
    exact Or.inl (.single (.flag false))

namespace WinBlock

variable {b b' : WinBlock} {base : ℕ → PageData}

theorem Tracks.step (hs : b.sealed = true) (ht : b.Tracks base) (h : HeedingStep b b') :
    b'.sealed = true ∧ b'.Tracks base := by
  obtain ⟨op, query, r, hw, hq, hrun, hacc, hh⟩ := h
  rcases op.run_shifts hw hq hrun hh with hshift | ⟨rfl, hseal⟩ | ⟨s, s', rfl, hload⟩
  · exact ⟨(shifts_sealed hshift).trans hs, ht.shifts hshift⟩
  · obtain ⟨-, rfl⟩ := sealBlock_of_sealed hs hseal
    exact ⟨hs, ht⟩
  · obtain rfl : r = 0 := hacc
    obtain ⟨htr, hse⟩ := ht.load hq hh hload
    exact ⟨hse.trans hs, htr⟩

def Alive (b : WinBlock) : Prop := b.Raw ∨ b.sealed = true ∧ ∃ base, b.Tracks base

theorem Alive.step (ha : b.Alive) (h : HeedingStep b b') : b'.Alive := by
  rcases ha with hr | ⟨hs, base, ht⟩
  · obtain ⟨op, query, r, hw, hq, hrun, hacc, hh⟩ := h
    rcases op.run_shifts hw hq hrun hh with hshift | ⟨rfl, hseal⟩ | ⟨s, s', rfl, hload⟩
    · exact Or.inl (hr.shifts hshift)
    · obtain ⟨ht, hs⟩ := hr.sealBlock hq hseal
      exact Or.inr ⟨hs, _, ht⟩
    · obtain rfl : r = 0 := hacc
      rw [loadState, if_neg (by simp [hr.unsealed])] at hload
      exact absurd (Prod.mk.inj (Except.ok.inj hload)).1 (by decide)
  · obtain ⟨hs', ht'⟩ := ht.step hs h
    exact Or.inr ⟨hs', base, ht'⟩

theorem raw_new {addr : Range} (h : new addr = .ok (some b)) : b.Raw := by
  obtain ⟨o, ho, h⟩ := bind_ok h
  cases o with
  | none => cases h
  | some o =>
  obtain ⟨-, span, rfl⟩ := Block.new_cases ho
  cases h
  refine ⟨rfl, fun i hi => ⟨fun _ => ⟨fun _ _ => rfl, fun _ => Or.inr rfl⟩, fun _ _ => rfl, fun hw => ?_⟩, fun _ _ => rfl⟩
  change freshPage.native.write = true at hw
  exact absurd hw (by decide)

/-- While every call heeds the conditions, no stack write is lost: at a save each visible
page that differs from its content at the seal is dirty and its snapshot has that content. -/
theorem stack_writes_kept {addr : Range} {b b₁ b₂ b₃ b₄ : WinBlock} {query query' : Query} {w w' : Sink} {r : ℤ}
    (hnew : new addr = .ok (some b)) (hpre : ReflTransGen HeedingStep b b₁) (hq : b₁.Answers query)
    (hseal : b₁.sealBlock query = .ok (0, b₂)) (hpost : ReflTransGen HeedingStep b₂ b₃) (hq' : b₃.Answers query')
    (hsave : b₃.saveState query' w = .ok (r, b₄, w')) (i : ℕ) (hi : i < b₄.npages)
    (hv : (b₄.pages i).invisible = false) (hdiff : (b₄.pages i).data ≠ (b₁.pages i).data) :
    (b₄.pages i).dirty = true ∧
      ((b₄.pages i).snap = .zero ∧ (b₁.pages i).data = zeroes 4096 ∨ (b₄.pages i).snap = .data (b₁.pages i).data) := by
  have halive := Runs.invariant (P := Alive) (fun _ _ hs ha => ha.step hs) hpre (Or.inl (raw_new hnew))
  have hraw : b₁.Raw := by
    rcases halive with hr | ⟨hs, -⟩
    · exact hr
    · exact absurd (sealBlock_of_sealed hs hseal).1 (by decide)
  obtain ⟨ht₂, hs₂⟩ := hraw.sealBlock hq hseal
  obtain ⟨hs₃, ht₃⟩ := Runs.invariant
    (P := fun c => c.sealed = true ∧ c.Tracks fun i => (b₁.pages i).data)
    (fun _ _ hstep ht => ht.2.step ht.1 hstep) hpost ⟨hs₂, ht₂⟩
  have hb₄ : b₄ = b₃.sampled := by
    rcases saveState_block hq' hsave with hb | ⟨-, hs⟩
    · exact hb
    · rw [hs₃] at hs
      cases hs
  subst hb₄
  have hn := sampled_npages (b := b₃)
  have hp := (sampled_tracks ht₃ i hi).settled (not_unseen_sampled i (hn ▸ hi))
  have hd : (b₃.sampled.pages i).dirty = true := by
    by_contra hd
    exact hdiff (hp.clean hv (by simpa using hd))
  exact ⟨hd, Snapshot.holds_iff.mp (hp.holds hv hd)⟩

def onePageSpace : AddressSpace onePage where
  room := 1
  beyond := fun _ => ⟨protToNative .none, false⟩
  covers := by decide
  bounded := by decide

def freshStack : WinBlock := ofBlock smallest

theorem new_freshStack : new onePage = .ok (some freshStack) := rfl

theorem answers_onePage {b : WinBlock} (h : b.addr = onePage) : b.Answers onePageSpace.getStackDirty := by
  obtain ⟨addr, span, pages, isSealed, swappedIn, active, hash⟩ := b
  obtain rfl : addr = onePage := h
  exact fun _ => ⟨onePageSpace, onePageSpace.reports_getStackDirty⟩

def readyStack : Except Crash (ℤ × WinBlock) := do
  let b ← freshStack.activate
  b.mmapFixed onePage .rwStack true

theorem winStep_of_heeding {b b' : WinBlock} (h : HeedingStep b b') : WinStep b b' := by
  obtain ⟨op, query, r, hw, hq, hrun, hacc, -⟩ := h
  exact ⟨op, query, r, hw, hq, hrun, hacc⟩

theorem readyStack_run {b : WinBlock} {r : ℤ} (h : readyStack = .ok (r, b)) : ReflTransGen HeedingStep freshStack b := by
  obtain ⟨b₀, hact, hmap⟩ := bind_ok h
  have haddr : b₀.addr = onePage := by
    have hrun : passes (freshStack.activate >>= fun c => pure (decide (c.addr = onePage))) = true := by decide +kernel
    rw [hact] at hrun
    exact passes_pure hrun
  refine .tail (.single ⟨.activate, _, 0, trivial, answers_onePage rfl, ?_, trivial, trivial⟩)
    ⟨.mem (.mmapFixed onePage .rwStack true), _, r, ?_, answers_onePage haddr, hmap, trivial, by simp [WinOp.Heeds]⟩
  · rw [WinOp.run, hact]
    rfl
  · exact (by decide : onePage.NoWrap)

theorem write_heeds {b b' : WinBlock} {a : UInt64} {v : UInt8} (haddr : b.addr = onePage)
    (h : b.guestWrite a v = .ok b') : HeedingStep b b' := by
  refine ⟨.write a v, _, 0, trivial, answers_onePage haddr, ?_, trivial, trivial⟩
  rw [WinOp.run, h]
  rfl

theorem stack_writes_kept_onePage : ∃ b b₁ b₂ b₃ b₄ : WinBlock, ∃ w : Sink,
    new onePage = .ok (some b) ∧ ReflTransGen HeedingStep b b₁ ∧
    b₁.sealBlock onePageSpace.getStackDirty = .ok (0, b₂) ∧ ReflTransGen HeedingStep b₂ b₃ ∧
    b₃.saveState onePageSpace.getStackDirty .accepting = .ok (0, b₄, w) ∧ (b₃.pages 0).dirty = false ∧
    (b₁.pages 0).data 0 = 0 ∧ (b₄.pages 0).data 0 = 9 ∧ (b₄.pages 0).dirty = true := by
  have hrun : passes (do
      let u₁ ← readyStack
      let u₂ ← u₁.2.sealBlock onePageSpace.getStackDirty
      let b₃ ← u₂.2.guestWrite 0x36f00000000 9
      let u₄ ← b₃.saveState onePageSpace.getStackDirty .accepting
      return decide (u₁.2.addr = onePage ∧ u₂.1 = 0 ∧ u₂.2.addr = onePage ∧ b₃.addr = onePage ∧
        u₄.1 = 0 ∧ 0 < u₄.2.1.npages ∧ (u₄.2.1.pages 0).invisible = false ∧ (b₃.pages 0).dirty = false ∧
        (u₁.2.pages 0).data 0 = 0 ∧ (u₄.2.1.pages 0).data 0 = 9)) = true := by decide +kernel
  obtain ⟨⟨r₁, b₁⟩, hready, hrun⟩ := passes_bind hrun
  obtain ⟨⟨r₂, b₂⟩, hseal, hrun⟩ := passes_bind hrun
  obtain ⟨b₃, hwrite, hrun⟩ := passes_bind hrun
  obtain ⟨⟨r₄, b₄, w⟩, hsave, hrun⟩ := passes_bind hrun
  dsimp only at hrun
  obtain ⟨ha₁, rfl, ha₂, ha₃, rfl, hn, hv, hd, h0, h9⟩ := passes_pure hrun
  have hpre := readyStack_run hready
  have hpost : ReflTransGen HeedingStep b₂ b₃ := .single (write_heeds ha₂ hwrite)
  have hdiff : (b₄.pages 0).data ≠ (b₁.pages 0).data := by
    intro he
    rw [he, h0] at h9
    exact absurd h9 (by decide)
  exact ⟨freshStack, b₁, b₂, b₃, b₄, w, new_freshStack, hpre, hseal, hpost, hsave, hd, h0, h9,
    (stack_writes_kept new_freshStack hpre (answers_onePage ha₁) hseal hpost (answers_onePage ha₃) hsave 0 hn hv hdiff).1⟩

/-- Mapping a written stack page anew arms its guard bit again, and the write is forgotten. -/
theorem stack_write_lost : ∃ b b₁ b₂ b₃ b₄ : WinBlock, ∃ w : Sink,
    new onePage = .ok (some b) ∧ ReflTransGen WinStep b b₁ ∧ b₁.Answers onePageSpace.getStackDirty ∧
    b₁.sealBlock onePageSpace.getStackDirty = .ok (0, b₂) ∧ ReflTransGen WinStep b₂ b₃ ∧
    b₃.Answers onePageSpace.getStackDirty ∧
    b₃.saveState onePageSpace.getStackDirty .accepting = .ok (0, b₄, w) ∧ 0 < b₄.npages ∧
    (b₄.pages 0).invisible = false ∧ (b₄.pages 0).data ≠ (b₁.pages 0).data ∧ (b₄.pages 0).dirty = false := by
  have hrun : passes (do
      let u₁ ← readyStack
      let u₂ ← u₁.2.sealBlock onePageSpace.getStackDirty
      let c ← u₂.2.guestWrite 0x36f00000000 9
      let u₃ ← c.mmapFixed onePage .rwStack false
      let u₄ ← u₃.2.saveState onePageSpace.getStackDirty .accepting
      return decide (u₁.2.addr = onePage ∧ u₂.1 = 0 ∧ u₂.2.addr = onePage ∧ c.addr = onePage ∧
        u₃.2.addr = onePage ∧ u₄.1 = 0 ∧ 0 < u₄.2.1.npages ∧ (u₄.2.1.pages 0).invisible = false ∧
        (u₁.2.pages 0).data 0 = 0 ∧ (u₄.2.1.pages 0).data 0 = 9 ∧ (u₄.2.1.pages 0).dirty = false)) = true := by
    decide +kernel
  obtain ⟨⟨r₁, b₁⟩, hready, hrun⟩ := passes_bind hrun
  obtain ⟨⟨r₂, b₂⟩, hseal, hrun⟩ := passes_bind hrun
  obtain ⟨c, hwrite, hrun⟩ := passes_bind hrun
  obtain ⟨⟨r₃, b₃⟩, hmap', hrun⟩ := passes_bind hrun
  obtain ⟨⟨r₄, b₄, w⟩, hsave, hrun⟩ := passes_bind hrun
  dsimp only at hrun
  obtain ⟨ha₁, rfl, ha₂, hac, ha₃, rfl, hn, hv, h0, h9, hd⟩ := passes_pure hrun
  have hwrap : onePage.NoWrap := by decide
  have hpre : ReflTransGen WinStep freshStack b₁ :=
    ReflTransGen.mono (fun _ _ => winStep_of_heeding) _ _ (readyStack_run hready)
  have hpost : ReflTransGen WinStep b₂ b₃ := .tail (.single (winStep_of_heeding (write_heeds ha₂ hwrite)))
    ⟨.mem (.mmapFixed onePage .rwStack false), _, r₃, hwrap, answers_onePage hac, hmap', trivial⟩
  have hdiff : (b₄.pages 0).data ≠ (b₁.pages 0).data := by
    intro he
    rw [he, h0] at h9
    exact absurd h9 (by decide)
  exact ⟨freshStack, b₁, b₂, b₃, b₄, w, new_freshStack, hpre, answers_onePage ha₁, hseal, hpost, answers_onePage ha₃,
    hsave, hn, hv, hdiff, hd⟩

end WinBlock

end MiniBox
