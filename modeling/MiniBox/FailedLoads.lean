import MiniBox.SaveAndLoad

namespace MiniBox

open ByteStream IndexLoops Outcomes Relation

namespace Pass

variable (l : Pass)

def takes (j : ℕ) : Bool := !(l.block.pages j).invisible && l.newDirty j

def before (m : ℕ) : ℕ := 4096 * (List.range m).countP l.takes

def CutAt (m : ℕ) : Prop :=
  l.takes m = true ∧ l.source.rest.length < l.before m + 4096 ∧
    ∀ j, j < m → l.takes j = true → l.before j + 4096 ≤ l.source.rest.length

def newProt (j : ℕ) : Prot :=
  nativeProt (l.statii j) (if (l.block.pages j).invisible then (l.block.pages j).dirty else l.newDirty j)

def SafeCut (m : ℕ) : Prop :=
  ((l.block.pages m).dirty = true ∨
    overlay (l.block.pages m).data 0 (l.source.rest.drop (l.before m)) = (l.block.pages m).data) ∧
  ∀ j, j < m → (∀ k, j ≤ k → k < m → l.newProt k ≠ (l.block.pages k).nativeProt) →
    (l.block.pages j).native.write = true → (protToNative (l.newProt j)).write = true

theorem before_succ (m : ℕ) : l.before (m + 1) = l.before m + if l.takes m then 4096 else 0 := by
  unfold before
  rw [List.range_succ, List.countP_append, List.countP_singleton]
  split_ifs <;> omega

theorem load_rest (p : Page) (newD : Bool) (s : Source) :
    (p.load newD s).2.2.rest = s.rest.drop (if !p.invisible && newD then 4096 else 0) := by
  cases hv : p.invisible with
  | true => simp [Page.load_of_invisible hv]
  | false =>
    cases newD with
    | true => exact (Page.load_take hv).2.2
    | false =>
      cases hd : p.dirty with
      | true =>
        unfold Page.load
        cases hs : p.snap <;> simp [hv, hd]
      | false => simp [Page.load_keep hv hd]

theorem sourceAt_rest (m : ℕ) : (l.sourceAt m).rest = l.source.rest.drop (l.before m) := by
  induction m with
  | zero => rfl
  | succ m ih =>
    rw [sourceAt, load_rest, ih, List.drop_drop, before_succ]
    rfl

end Pass

variable {base : ℕ → PageData} {b b' : Block} {l : Pass}

theorem code_ne_zero (ht : l.block.Tracks base) {m : ℕ} (hm : m < l.block.npages) :
    l.code m ≠ 0 ↔ l.takes m = true ∧ l.source.rest.length < l.before m + 4096 := by
  rw [Pass.code, (ht.tracks m hm).load_code, l.sourceAt_rest, List.length_drop]
  unfold Pass.takes
  cases hv : (l.block.pages m).invisible with
  | true => simp
  | false =>
    cases hd : l.newDirty m with
    | false => simp
    | true =>
      by_cases hl : l.source.rest.length - l.before m < 4096
      · simp [hl, eio]
        omega
      · simp [hl]
        omega

theorem cutAt_of_code (ht : l.block.Tracks base) {m : ℕ} (hm : m < l.block.npages) (hfail : l.code m ≠ 0)
    (hc : ∀ j, j < m → l.code j = 0) : l.CutAt m := by
  obtain ⟨h1, h2⟩ := (code_ne_zero ht hm).mp hfail
  refine ⟨h1, h2, fun j hj htk => ?_⟩
  by_contra hlt
  exact (code_ne_zero ht (hj.trans hm)).mpr ⟨htk, by omega⟩ (hc j hj)

theorem after_nativeProt (ht : l.block.Tracks base) {j : ℕ} (hj : j < l.block.npages) (hc : l.code j = 0) :
    (l.after j).nativeProt = l.newProt j := by
  have hl := (ht.tracks j hj).load hc
  change (l.block.pages j).Loaded (base j) (l.newDirty j) (l.body j) at hl
  change nativeProt (l.statii j) (l.body j).dirty = _
  unfold Pass.newProt
  cases hv : (l.block.pages j).invisible with
  | true => rw [hl.hidden hv]; rfl
  | false => rw [hl.dirty hv]; rfl

theorem changed_iff (ht : l.block.Tracks base) {j : ℕ} (hj : j < l.block.npages) (hc : l.code j = 0) :
    l.changed j = true ↔ l.newProt j ≠ (l.block.pages j).nativeProt := by
  rw [Pass.changed, after_nativeProt ht hj hc, decide_eq_true_eq]

section Cut

variable {m : ℕ} (ht : l.block.Tracks base) (hm : m < l.block.npages) (hs : l.SafeCut m)

include ht hm hs

theorem body_of_cut (hcut : l.CutAt m) : (l.body m).Tracks (base m) ∧ (l.body m).Guarded l.block.swappedIn := by
  obtain ⟨htk, hlen, -⟩ := hcut
  simp only [Pass.takes, Bool.and_eq_true, Bool.not_eq_true'] at htk
  obtain ⟨hv, hnew⟩ := htk
  have hp := ht.tracks m hm
  have hrest := l.sourceAt_rest m
  have hlt : ¬ 4096 ≤ (l.sourceAt m).rest.length := by
    rw [hrest, List.length_drop]
    omega
  have hbody : l.body m = (l.block.pages m).filled (l.sourceAt m) := by
    rw [Pass.body, hnew]
    exact (Page.load_take hv).2.1
  have hdirty : (l.body m).dirty = (l.block.pages m).dirty := by rw [hbody, Page.filled, if_neg hlt]
  have hstatus : (l.body m).status = (l.block.pages m).status := by
    rw [hbody]
    exact Page.opened_status _
  refine ⟨⟨fun _ hd => ?_, fun _ => Or.inr ?_⟩, ?_⟩
  · rcases hs.1 with hd' | hover
    · rw [hdirty, hd'] at hd
      cases hd
    · rw [hbody]
      change overlay (l.block.pages m).data 0 ((l.sourceAt m).rest.take 4096) = base m
      rw [List.take_of_length_le (by omega), hrest, hover]
      exact hp.clean hv (hdirty ▸ hd)
  · rw [hbody]
    exact hp.opened hv
  · refine (ht.guarded m hm).congr ?_ ?_
    · rw [hbody]
      exact Page.opened_native _
    · rw [Page.nativeProt, Page.nativeProt, hdirty, hstatus]

theorem pagesAt_of_cut (hc : ∀ j, j < m → l.code j = 0) {i : ℕ} (hi : i < m) :
    (l.pagesAt m i).Tracks (base i) ∧ (l.pagesAt m i).Guarded l.block.swappedIn := by
  have hin := hi.trans hm
  have hg := ht.guarded i hin
  have hsettled := l.settled_loaded (ht.tracks i hin) (hc i hi)
  rw [Pass.pagesAt, if_pos hi]
  by_cases hp : l.pending m i = true
  · rw [if_pos hp]
    have hl := (ht.tracks i hin).load (hc i hi)
    refine ⟨hl.tracks.congr rfl rfl rfl rfl, fun hw => ?_⟩
    have hn : (l.after i).native = (l.block.pages i).native := Page.load_native _ _ _
    rw [hn] at hw
    rw [after_nativeProt ht hin (hc i hi)]
    refine ⟨(hg hw).1, hs.2 i hi (fun k h1 h2 => ?_) hw⟩
    exact (changed_iff ht (h2.trans hm) (hc k h2)).mp ((l.pending_iff hi).mp hp k h1 h2)
  · rw [if_neg hp]
    exact ⟨hsettled.tracks, l.settled_guarded hg⟩

theorem tracks_of_cut (hcut : l.CutAt m) (hc : ∀ j, j < m → l.code j = 0) :
    ((l.blockAt m).setPage m (l.body m)).Tracks base := by
  have hpages : ∀ i, i < l.block.npages →
      (((l.blockAt m).setPage m (l.body m)).pages i).Tracks (base i) ∧
      (((l.blockAt m).setPage m (l.body m)).pages i).Guarded l.block.swappedIn := by
    intro i hi
    rw [setPage_pages]
    by_cases him : i = m
    · subst him
      rw [Function.update_self]
      exact body_of_cut ht hm hs hcut
    · rw [Function.update_of_ne him]
      by_cases hlt : i < m
      · exact pagesAt_of_cut ht hm hs hc hlt
      · have hpage : (l.blockAt m).pages i = l.block.pages i := by
          change l.pagesAt m i = _
          rw [Pass.pagesAt, if_neg hlt]
        rw [hpage]
        exact ⟨ht.tracks i hi, ht.guarded i hi⟩
  exact ⟨ht.isSealed, fun i hi => (hpages i hi).1, fun i hi => (hpages i hi).2⟩

end Cut

theorem blockAt_invisible (l : Pass) (m i : ℕ) :
    (((l.blockAt m).setPage m (l.body m)).pages i).invisible = (l.block.pages i).invisible := by
  have hbody : ∀ j, (l.body j).invisible = (l.block.pages j).invisible := fun j => Page.load_invisible _ _ _
  rw [setPage_pages]
  by_cases him : i = m
  · subst him
    rw [Function.update_self, hbody]
  · rw [Function.update_of_ne him]
    change (l.pagesAt m i).invisible = _
    unfold Pass.pagesAt Pass.settled
    split_ifs
    · exact hbody i
    · rw [sync_invisible]
      exact hbody i
    · exact hbody i
    · rfl

def Harmless (b : Block) (src : Source) : Prop :=
  ∀ l m, b.loadHeader src = .inr l → m < b.npages → l.CutAt m → l.SafeCut m

inductive LoadingStep (ok : Block → Source → Prop) : Block → Block → Prop
  | guest {b b' : Block} : GuestMove b b' → LoadingStep ok b b'
  | switch {b b' : Block} : Switch b b' → LoadingStep ok b b'
  | load {b b' : Block} {src src' : Source} {rc : ℤ} : ok b src → b.loadState src = .ok (rc, b', src') →
      LoadingStep ok b b'

theorem Block.Tracks.harmless (ht : b.Tracks base) {src src' : Source} {rc : ℤ} (hok : Harmless b src)
    (h : b.loadState src = .ok (rc, b', src')) : Kin b b' ∧ b'.Tracks base := by
  have ho := loadState_inv ht.isSealed h
  cases ho with
  | header hh => exact ⟨.refl b, ht⟩
  | done hh hc => exact ⟨kin_load ht h, ht.load h⟩
  | @cut l m hh hm hfail hc =>
    obtain rfl := loadHeader_block hh
    have hcut := cutAt_of_code ht hm hfail hc
    have hsafe := hok l m hh hm hcut
    exact ⟨⟨⟨rfl, fun i _ => blockAt_invisible l m i⟩, rfl⟩, tracks_of_cut ht hm hsafe hcut hc⟩

theorem LoadingStep.kin (h : LoadingStep Harmless b b') (ht : b.Tracks base) : Kin b b' ∧ b'.Tracks base := by
  cases h with
  | guest h => exact ⟨h.moves.kin, ht.moves h.moves⟩
  | switch h => exact ⟨h.kin, ht.switch h⟩
  | load hok h => exact ht.harmless hok h

theorem loading_kin {s t : Block} (hs : s.Tracks base) (h : ReflTransGen (LoadingStep Harmless) s t) :
    Kin s t ∧ t.Tracks base :=
  Runs.invariant (P := fun u => Kin s u ∧ u.Tracks base)
    (fun _ _ hstep hi => ⟨hi.1.trans (hstep.kin hi.2).1, (hstep.kin hi.2).2⟩) h ⟨.refl s, hs⟩

theorem loads_after_failed_loads {a s s₁ t : Block} (ha : SealedAt base a)
    (hs : ReflTransGen (LoadingStep Harmless) a s) (ht : ReflTransGen (LoadingStep Harmless) s t) {w w₁ : Sink}
    {X : List UInt8} (hsave : s.saveState w = (0, s₁, w₁)) (hX : w₁.out = w.out ++ X) :
    (∀ src src' tail t', src.rest = X ++ tail → t.loadState src = .ok (0, t', src') →
      ∀ i, i < t.npages → (t.pages i).invisible = false → (t'.pages i).data = (s.pages i).data ∧
        (t'.pages i).status = (s.pages i).status ∧ (t'.pages i).dirty = (s.pages i).dirty) ∧
    ∀ i, i < t.npages → (t.pages i).native.write = true → (t.pages i).dirty = true := by
  obtain rfl : X = s.stateBytes := List.append_cancel_left (hX.symm.trans (saveState_bytes hsave).2.2)
  have hsT := (loading_kin ha.tracks hs).2
  obtain ⟨hk, htT⟩ := loading_kin hsT ht
  refine ⟨fun src src' tail t' hsrc hload i hi hv => ?_, fun i hi => (htT.guarded i hi).dirty⟩
  obtain ⟨t'', src'', hload', -, hr, -⟩ := load_saved hk.toCompatible hsT htT hsrc
  rw [hload] at hload'
  cases hload'
  obtain ⟨h1, h2⟩ := hr.visible i hi hv
  exact ⟨h1, hr.status i hi, h2⟩

theorem loads_after_failed_loads_onePage : ∃ (base : ℕ → PageData) (a s t t' : Block) (src' src'' : Source),
    SealedAt base a ∧ ReflTransGen (LoadingStep Harmless) a s ∧
    s.loadState ⟨s.stateBytes.take 75, fun _ => 3, 0⟩ = .ok (-eio, t, src') ∧
    ReflTransGen (LoadingStep Harmless) s t ∧ t.loadState ⟨s.stateBytes, fun _ => 3, 0⟩ = .ok (0, t', src'') ∧
    (s.pages 0).data 0 = 9 ∧ (t'.pages 0).data 0 = 9 ∧ (t'.pages 0).dirty = true := by
  have hrun : passes (do
      let u₁ ← smallest.ready
      let u₂ ← u₁.2.sealBlock
      let s ← u₂.2.guestWrite 0x36f00000000 9
      let u₃ ← s.loadState ⟨s.stateBytes.take 75, fun _ => 3, 0⟩
      return decide (u₂.1 = 0 ∧ u₃.1 = -eio ∧ s.npages = 1 ∧ u₃.2.1.npages = 1 ∧ (s.pages 0).dirty = true ∧
        (s.pages 0).data 0 = 9 ∧ (u₃.2.1.pages 0).invisible = false)) = true := by decide +kernel
  obtain ⟨⟨_, b₁⟩, hready, hrun⟩ := passes_bind hrun
  obtain ⟨⟨r, a⟩, hseal, hrun⟩ := passes_bind hrun
  obtain ⟨s, hw, hrun⟩ := passes_bind hrun
  obtain ⟨⟨rc, t, src'⟩, hfail, hrun⟩ := passes_bind hrun
  dsimp only at hrun
  obtain ⟨rfl, rfl, hn, hnt, hd, h9, hv⟩ := passes_pure hrun
  have ha : SealedAt (fun i => (b₁.pages i).data) a := .mk new_onePage (ready_run (by decide) hready) hseal
  have hs : ReflTransGen (LoadingStep Harmless) a s := .single (.guest (.write hw))
  have hharmless : Harmless s ⟨s.stateBytes.take 75, fun _ => 3, 0⟩ := by
    intro l m hh hm _
    obtain rfl : m = 0 := by omega
    rw [Pass.SafeCut, loadHeader_block hh]
    exact ⟨Or.inl hd, by omega⟩
  have ht : ReflTransGen (LoadingStep Harmless) s t := .single (.load hharmless hfail)
  have hsT := (loading_kin ha.tracks hs).2
  obtain ⟨hk, htT⟩ := loading_kin hsT ht
  obtain ⟨w, hsave⟩ := saveState_accepts (w := Sink.accepting) hsT.isSealed fun _ => rfl
  have hsrc : (Source.mk s.stateBytes (fun _ => 3) 0).rest = s.stateBytes ++ [] := (List.append_nil _).symm
  obtain ⟨t', src'', hload, -⟩ := load_saved hk.toCompatible hsT htT hsrc
  obtain ⟨hdata, -, hdirty⟩ := (loads_after_failed_loads ha hs ht hsave (saveState_bytes hsave).2.2).1 _ _ _ _
    hsrc hload 0 (by omega) hv
  exact ⟨_, a, s, t, t', src', src'', ha, hs, hfail, ht, hload, h9, by rw [hdata, h9], by rw [hdirty, hd]⟩

def twoPages : Range := ⟨0x36f00000000, 0x2000⟩

def pair : Block :=
  ⟨twoPages, ⟨by decide, by decide, by decide, by decide⟩, fun _ => freshPage, false, false, false, zeroes 32⟩

theorem new_twoPages : Block.new twoPages = .ok (some pair) := rfl

/-- A load cut in a clean page leaves a byte there that no dirty bit tells of, and the next load of
a state keeps it; a load cut after a page that became clean leaves that page writable. -/
theorem failed_load_corrupts :
    (∃ (base : ℕ → PageData) (a t t' : Block) (src' : Source), SealedAt base a ∧
      ReflTransGen (LoadingStep fun _ _ => True) a t ∧
      t.loadState ⟨a.stateBytes, fun _ => 4096, 0⟩ = .ok (0, t', src') ∧ 0 < t.npages ∧
      (t.pages 0).invisible = false ∧ (a.pages 0).data 0 = 0 ∧ (t'.pages 0).data 0 = 7) ∧
    ∃ (base : ℕ → PageData) (a t : Block), SealedAt base a ∧ ReflTransGen (LoadingStep fun _ _ => True) a t ∧
      0 < t.npages ∧ (t.pages 0).native.write = true ∧ (t.pages 0).dirty = false := by
  constructor
  · have hrun : passes (do
        let u₁ ← smallest.ready
        let u₂ ← u₁.2.sealBlock
        let c ← u₂.2.guestWrite 0x36f00000000 7
        let u₃ ← c.loadState ⟨u₂.2.stateBytes, fun _ => 4096, 0⟩
        let u₄ ← u₃.2.1.loadState ⟨c.stateBytes.take 71, fun _ => 4096, 0⟩
        let u₅ ← u₄.2.1.loadState ⟨u₂.2.stateBytes, fun _ => 4096, 0⟩
        return decide (u₂.1 = 0 ∧ u₅.1 = 0 ∧ 0 < u₄.2.1.npages ∧ (u₄.2.1.pages 0).invisible = false ∧
          (u₂.2.pages 0).data 0 = 0 ∧
          (u₅.2.1.pages 0).data 0 = 7)) = true := by decide +kernel
    obtain ⟨⟨_, b₁⟩, hready, hrun⟩ := passes_bind hrun
    obtain ⟨⟨r, a⟩, hseal, hrun⟩ := passes_bind hrun
    obtain ⟨c, hw, hrun⟩ := passes_bind hrun
    obtain ⟨⟨_, s, _⟩, hrevert, hrun⟩ := passes_bind hrun
    obtain ⟨⟨_, t, _⟩, hfail, hrun⟩ := passes_bind hrun
    obtain ⟨⟨rc, t', src'⟩, hload, hrun⟩ := passes_bind hrun
    obtain ⟨rfl, rfl, hn, hv, h0, h7⟩ := passes_pure hrun
    have ha : SealedAt (fun i => (b₁.pages i).data) a := .mk new_onePage (ready_run (by decide) hready) hseal
    have ht : ReflTransGen (LoadingStep fun _ _ => True) a t :=
      .tail (.tail (.single (.guest (.write hw))) (.load trivial hrevert)) (.load trivial hfail)
    exact ⟨_, a, t, t', src', ha, ht, hload, hn, hv, h0, h7⟩
  · have hrun : passes (do
        let u₁ ← pair.ready
        let u₂ ← u₁.2.sealBlock
        let c ← u₂.2.guestWrite 0x36f00001000 5
        let s ← u₂.2.guestWrite 0x36f00000000 3
        let u₃ ← s.loadState ⟨c.stateBytes.take 72, fun _ => 4096, 0⟩
        return decide (u₂.1 = 0 ∧ 0 < u₃.2.1.npages ∧ (u₃.2.1.pages 0).native.write = true ∧
          (u₃.2.1.pages 0).dirty = false)) = true := by decide +kernel
    obtain ⟨⟨_, b₁⟩, hready, hrun⟩ := passes_bind hrun
    obtain ⟨⟨r, a⟩, hseal, hrun⟩ := passes_bind hrun
    obtain ⟨c, -, hrun⟩ := passes_bind hrun
    obtain ⟨s, hw, hrun⟩ := passes_bind hrun
    obtain ⟨⟨_, t, _⟩, hfail, hrun⟩ := passes_bind hrun
    obtain ⟨rfl, hn, hnative, hd⟩ := passes_pure hrun
    have ha : SealedAt (fun i => (b₁.pages i).data) a := .mk new_twoPages (ready_run (by decide) hready) hseal
    have ht : ReflTransGen (LoadingStep fun _ _ => True) a t :=
      .tail (.single (.guest (.write hw))) (.load trivial hfail)
    exact ⟨_, a, t, ha, ht, hn, hnative, hd⟩

end MiniBox
