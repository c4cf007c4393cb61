import MiniBox.LoadRuns
import MiniBox.PageBaseline

namespace MiniBox

open ByteStream

namespace Page

variable {base : PageData} {p : Page} {newD : Bool} {s : Source}

def opened (p : Page) : Page := if p.dirty then p else p.maybeSnapshot

@[simp] theorem opened_status (p : Page) : p.opened.status = p.status := by unfold opened; split_ifs <;> simp
@[simp] theorem opened_dirty (p : Page) : p.opened.dirty = p.dirty := by unfold opened; split_ifs <;> simp
@[simp] theorem opened_invisible (p : Page) : p.opened.invisible = p.invisible := by
  unfold opened; split_ifs <;> simp
@[simp] theorem opened_data (p : Page) : p.opened.data = p.data := by unfold opened; split_ifs <;> simp
@[simp] theorem opened_native (p : Page) : p.opened.native = p.native := by unfold opened; split_ifs <;> simp

theorem Tracks.opened (h : p.Tracks base) (hv : p.invisible = false) : p.opened.snap.Holds base := by
  unfold Page.opened
  split_ifs with hd
  · exact h.holds hv hd
  · exact h.snapshot hv

def filled (p : Page) (s : Source) : Page :=
  { p.opened with
    data := overlay p.data 0 (s.rest.take 4096)
    dirty := if 4096 ≤ s.rest.length then true else p.dirty }

theorem load_of_invisible (h : p.invisible = true) : p.load newD s = (0, p, s) := if_pos h

theorem load_take (h : p.invisible = false) :
    (p.load true s).1 = (if 4096 ≤ s.rest.length then 0 else -eio) ∧
      (p.load true s).2.1 = p.filled s ∧ (p.load true s).2.2.rest = s.rest.drop 4096 := by
  have hl : p.load true s = p.opened.loadBytes true s := by
    unfold load opened
    cases hd : p.dirty <;> simp [h]
  rw [hl]
  unfold loadBytes filled
  simp only [rd_fst, rd_buf, decide_eq_true_eq, opened_data]
  split_ifs
  · exact ⟨rfl, rfl, rd_rest _ _⟩
  · exact ⟨rfl, by simp, rd_rest _ _⟩

theorem load_keep (h : p.invisible = false) (hd : p.dirty = false) : p.load false s = (0, p, s) := by
  unfold load
  cases p
  simp_all

theorem load_revert (h : p.invisible = false) (hd : p.dirty = true) (hs : p.snap.Holds base) :
    p.load false s = (0, { p with data := base, dirty := false }, s) := by
  unfold load
  cases hp : p.snap with
  | none =>
    rw [hp] at hs
    exact hs.elim
  | zero =>
    rw [hp] at hs
    simp [h, hd, show base = zeroes 4096 from hs]
  | data d =>
    rw [hp] at hs
    simp [h, hd, show d = base from hs]

theorem Tracks.load_code (h : p.Tracks base) :
    (p.load newD s).1 = if p.invisible = false ∧ newD = true ∧ s.rest.length < 4096 then -eio else 0 := by
  cases hv : p.invisible with
  | true => simp [load_of_invisible hv]
  | false =>
    cases newD with
    | true =>
      rw [(load_take hv).1]
      by_cases hl : 4096 ≤ s.rest.length
      · simp [hl]
      · simp [hl, Nat.lt_of_not_le hl]
    | false =>
      cases hd : p.dirty with
      | true => simp [load_revert hv hd (h.holds hv hd)]
      | false => simp [load_keep hv hd]

structure Loaded (base : PageData) (p : Page) (newD : Bool) (q : Page) : Prop where
  status : q.status = p.status
  native : q.native = p.native
  invisible : q.invisible = p.invisible
  hidden : p.invisible = true → q = p
  dirty : p.invisible = false → q.dirty = newD
  tracks : q.Tracks base

theorem Tracks.load (h : p.Tracks base) (hc : (p.load newD s).1 = 0) :
    Loaded base p newD (p.load newD s).2.1 := by
  cases hv : p.invisible with
  | true =>
    rw [load_of_invisible hv]
    exact ⟨rfl, rfl, rfl, fun _ => rfl, by simp [hv], h⟩
  | false =>
    cases newD with
    | true =>
      rw [h.load_code] at hc
      have hl : 4096 ≤ s.rest.length := by
        by_contra hl
        simp [hv, Nat.lt_of_not_le hl, eio] at hc
      rw [(load_take hv).2.1]
      refine ⟨opened_status p, opened_native p, opened_invisible p, by simp [hv], fun _ => by simp [filled, hl],
        fun _ hd => ?_, fun _ => Or.inr (h.opened hv)⟩
      simp [filled, hl] at hd
    | false =>
      cases hd : p.dirty with
      | true =>
        have hs := h.holds hv hd
        rw [load_revert hv hd hs]
        exact ⟨rfl, rfl, rfl, by simp [hv], fun _ => rfl, fun _ _ => rfl, fun _ => Or.inr hs⟩
      | false =>
        rw [load_keep hv hd]
        exact ⟨rfl, rfl, rfl, fun _ => rfl, fun _ => hd, h⟩

theorem load_native (p : Page) (newD : Bool) (s : Source) : (p.load newD s).2.1.native = p.native := by
  cases hv : p.invisible with
  | true => rw [load_of_invisible hv]
  | false =>
    cases newD with
    | true =>
      rw [(load_take hv).2.1]
      exact p.opened_native
    | false =>
      cases hd : p.dirty with
      | true =>
        unfold load
        cases hs : p.snap <;> simp [hv, hd]
      | false => rw [load_keep hv hd]

theorem load_invisible (p : Page) (newD : Bool) (s : Source) : (p.load newD s).2.1.invisible = p.invisible := by
  cases hv : p.invisible with
  | true => rw [load_of_invisible hv, hv]
  | false =>
    cases newD with
    | true =>
      rw [(load_take hv).2.1]
      exact p.opened_invisible.trans hv
    | false =>
      cases hd : p.dirty with
      | true =>
        unfold load
        cases hs : p.snap <;> simp [hv, hd]
      | false => rw [load_keep hv hd, hv]

structure SettledPage (base : PageData) (p : Page) (newD : Bool) (st : UInt8) (q : Page) : Prop where
  status : q.status = st
  invisible : q.invisible = p.invisible
  hidden : p.invisible = true → q.data = p.data ∧ q.dirty = p.dirty
  dirty : p.invisible = false → q.dirty = newD
  tracks : q.Tracks base

end Page

namespace Pass

open Page

variable (l : Pass) {base : PageData} {i : ℕ}

theorem flushed_page (hi : i < l.block.npages) : (l.flushed l.block.npages).pages i = l.settled i := if_pos hi

theorem settled_loaded (ht : (l.block.pages i).Tracks base) (hc : l.code i = 0) :
    SettledPage base (l.block.pages i) (l.newDirty i) (l.statii i) (l.settled i) := by
  have hl := ht.load hc
  change (l.block.pages i).Loaded base (l.newDirty i) (l.body i) at hl
  have hs : ∃ n, l.settled i = { l.after i with native := n } := by
    unfold settled Block.sync
    split_ifs
    · exact ⟨_, rfl⟩
    · exact ⟨_, rfl⟩
    · exact ⟨_, rfl⟩
  obtain ⟨n, hn⟩ := hs
  rw [hn]
  refine ⟨rfl, hl.invisible, fun h => ?_, hl.dirty, hl.tracks.congr rfl rfl rfl rfl⟩
  have hq := hl.hidden h
  exact ⟨by rw [← hq]; rfl, by rw [← hq]; rfl⟩

theorem settled_guarded (hg : (l.block.pages i).Guarded l.block.swappedIn) :
    (l.settled i).Guarded l.block.swappedIn := by
  have hn : (l.after i).native = (l.block.pages i).native := load_native _ _ _
  unfold settled
  split_ifs with hc
  · exact guarded_sync hg hn
  · exact hg.congr hn (by simpa [changed] using hc)

end Pass

variable {b : Block} {s : Source}

theorem loadHeader_block {l : Pass} (h : b.loadHeader s = .inr l) : l.block = b := by
  unfold Block.loadHeader at h
  simp only at h
  split_ifs at h
  obtain rfl := Sum.inr.inj h
  rfl

theorem loadHeader_code {rc : ℤ} {s' : Source} (h : b.loadHeader s = .inl (rc, s')) : rc ≠ 0 := by
  unfold Block.loadHeader at h
  simp only at h
  split_ifs at h <;> (obtain ⟨rfl, -⟩ := Prod.mk.inj (Sum.inl.inj h); decide)

inductive LoadOutcome (b : Block) (s : Source) : ℤ → Block → Source → Prop
  | header {rc : ℤ} {s' : Source} : b.loadHeader s = .inl (rc, s') → LoadOutcome b s rc b s'
  | done {l : Pass} : b.loadHeader s = .inr l → (∀ j, j < b.npages → l.code j = 0) →
      LoadOutcome b s 0 (l.flushed b.npages) (l.sourceAt b.npages)
  | cut {l : Pass} {m : ℕ} : b.loadHeader s = .inr l → m < b.npages → l.code m ≠ 0 →
      (∀ j, j < m → l.code j = 0) →
      LoadOutcome b s (l.code m) ((l.blockAt m).setPage m (l.body m)) (l.sourceAt (m + 1))

theorem loadState_outcome (b : Block) (s : Source) (hs : b.sealed = true) :
    ∃ rc b' s', b.loadState s = .ok (rc, b', s') ∧ LoadOutcome b s rc b' s' := by
  unfold Block.loadState
  rw [if_pos hs]
  cases hh : b.loadHeader s with
  | inl r => exact ⟨r.1, b, r.2, rfl, .header hh⟩
  | inr l =>
    have hb := loadHeader_block hh
    have h0 : l.block.npages = b.npages := by rw [hb]
    have hz : l.blockAt 0 = b := by
      rw [l.blockAt_of_none rfl, ← hb]
      rfl
    by_cases hc : ∀ j, j < b.npages → l.code j = 0
    · have hok := l.loadLoop_ok (k := 0) b.npages 0 (by omega) (fun j _ hj => hc j (by omega)) (by simp [Pass.runStart])
      rw [hz, Nat.zero_add] at hok
      exact ⟨_, _, _, hok, .done hh hc⟩
    · push Not at hc
      classical
      let m := Nat.find hc
      obtain ⟨hm, hfail⟩ := Nat.find_spec hc
      have hbefore : ∀ j, j < m → l.code j = 0 := by
        intro j hj
        by_contra hne
        exact Nat.find_min hc hj ⟨hj.trans hm, hne⟩
      have hf := l.loadLoop_fail (k := 0) (m := m) b.npages 0 (by omega) (by omega) (by omega) hfail
        (fun j _ hj => hbefore j hj) (by simp [Pass.runStart])
      rw [hz] at hf
      exact ⟨_, _, _, hf, .cut hh hm hfail hbefore⟩

theorem loadState_inv (hs : b.sealed = true) {rc : ℤ} {b' : Block} {s' : Source}
    (h : b.loadState s = .ok (rc, b', s')) : LoadOutcome b s rc b' s' := by
  obtain ⟨rc', c, s'', he, ho⟩ := loadState_outcome b s hs
  rw [h] at he
  cases he
  exact ho

theorem loadState_done {b' : Block} {s' : Source} (h : b.loadState s = .ok (0, b', s')) :
    b.sealed = true ∧ ∃ l : Pass, l.block = b ∧ b' = l.flushed b.npages ∧ ∀ j, j < b.npages → l.code j = 0 := by
  have hs : b.sealed = true := by
    by_contra hs
    unfold Block.loadState at h
    rw [if_neg hs] at h
    cases h
  refine ⟨hs, ?_⟩
  have ho := loadState_inv hs h
  generalize hrc : (0 : ℤ) = rc at ho
  cases ho with
  | header hh => exact absurd hrc.symm (loadHeader_code hh)
  | cut hh hm hfail hc => exact absurd hrc.symm hfail
  | @done l hh hc => exact ⟨l, loadHeader_block hh, rfl, hc⟩

end MiniBox
