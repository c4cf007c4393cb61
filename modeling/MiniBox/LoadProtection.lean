import MiniBox.BlockTwins
import MiniBox.SaveAndLoad

namespace MiniBox

open ByteStream IndexLoops Outcomes Relation

structure ProtectCall where
  start : ℕ
  count : ℕ
  prot : Prot
  deriving DecidableEq

namespace ProtectCall

def covers (c : ProtectCall) (k : ℕ) : Prop := c.start ≤ k ∧ k < c.start + c.count

def perform (c : ProtectCall) (native : ℕ → Access) : ℕ → Access :=
  mapRange (fun _ => protToNative c.prot) c.start c.count native

def performAll (calls : List ProtectCall) (native : ℕ → Access) : ℕ → Access :=
  calls.foldl (fun native c => c.perform native) native

theorem performAll_append (calls calls' : List ProtectCall) (native : ℕ → Access) :
    performAll (calls ++ calls') native = performAll calls' (performAll calls native) := List.foldl_append

end ProtectCall

open ProtectCall

namespace Block

def refreshLoopCalls (stop : ℕ) : ℕ → ℕ → (ℕ → Page) → List ProtectCall
  | 0, _, _ => []
  | fuel + 1, i, pages =>
    if i < stop then
      let prot := (pages i).nativeProt
      let j := runEnd (fun k => (pages k).nativeProt) prot (stop - (i + 1)) (i + 1)
      ⟨i, j - i, prot⟩ :: refreshLoopCalls stop fuel j (mapRange (Page.protect prot) i (j - i) pages)
    else []

def refreshCalls (b : Block) (pstart pcount : ℕ) : List ProtectCall :=
  if b.swappedIn then refreshLoopCalls (pstart + pcount) pcount pstart b.pages else []

/-- The calls of the page loop of `mb_block_load_state`, in the cases of `loadLoop`. -/
def loadLoopCalls (statii dirtii : ℕ → UInt8) : ℕ → ℕ → Option ℕ → ℕ → Block → Source → List ProtectCall
  | 0, _, none, _, _, _ => []
  | 0, _, some r, runEnd, b, _ => b.refreshCalls r (runEnd - r + 1)
  | n + 1, i, runStart, runEnd, b, s =>
    let (rc, q, s') := (b.pages i).load (dirtii i != 0) s
    if rc ≠ 0 then []
    else
      let q := q.setStatus (statii i)
      if q.nativeProt ≠ (b.pages i).nativeProt then
        loadLoopCalls statii dirtii n (i + 1) (some (runStart.getD i)) i (b.setPage i q) s'
      else match runStart with
        | none => loadLoopCalls statii dirtii n (i + 1) none runEnd (b.setPage i q) s'
        | some r =>
          (b.setPage i q).refreshCalls r (runEnd - r + 1) ++
            match (b.setPage i q).refreshRange r (runEnd - r + 1) with
            | .error _ => []
            | .ok b => loadLoopCalls statii dirtii n (i + 1) none runEnd b s'

def loadCalls (b : Block) (s : Source) : List ProtectCall :=
  if b.sealed then
    match b.loadHeader s with
    | .inl _ => []
    | .inr l => loadLoopCalls l.statii l.dirtii b.npages 0 none 0 b l.source
  else []

def natives (b : Block) (k : ℕ) : Access := (b.pages k).native

section Accounting

variable {b b' : Block} {s s' : Source}

theorem refreshLoop_native (stop fuel i : ℕ) (pages : ℕ → Page) :
    (fun k => (refreshLoop stop fuel i pages k).native) =
      performAll (refreshLoopCalls stop fuel i pages) fun k => (pages k).native := by
  induction fuel generalizing i pages with
  | zero => rfl
  | succ fuel ih =>
    unfold refreshLoop refreshLoopCalls
    by_cases hi : i < stop
    · simp only [hi, ↓reduceIte, ih]
      unfold performAll
      rw [List.foldl_cons]
      congr 1
      funext k
      unfold perform mapRange
      split_ifs <;> rfl
    · simp only [hi, ↓reduceIte]
      rfl

theorem refreshRange_native {ps pc : ℕ} (h : b.refreshRange ps pc = .ok b') :
    b'.natives = performAll (b.refreshCalls ps pc) b.natives := by
  unfold refreshRange at h
  unfold refreshCalls
  split_ifs at h ⊢
  · cases h
    exact refreshLoop_native _ _ _ _
  · cases h
    rfl

theorem setPage_natives {k : ℕ} {p : Page} (h : p.native = (b.pages k).native) : (b.setPage k p).natives = b.natives := by
  funext j
  unfold natives
  by_cases hj : j = k
  · subst hj
    rw [← h]
    exact congrArg Page.native (Function.update_self _ _ _)
  · exact congrArg Page.native (Function.update_of_ne hj _ _)

theorem loadLoop_native {statii dirtii : ℕ → UInt8} {rc : ℤ} (n i : ℕ) (r : Option ℕ) (e : ℕ)
    (h : loadLoop statii dirtii n i r e b s = .ok (rc, b', s')) :
    b'.natives = performAll (loadLoopCalls statii dirtii n i r e b s) b.natives := by
  induction n generalizing i r e b s with
  | zero =>
    cases r with
    | none =>
      cases h
      rfl
    | some r =>
      obtain ⟨b₁, hr, h⟩ := bind_ok h
      cases h
      exact refreshRange_native hr
  | succ n ih =>
    unfold loadLoop at h
    unfold loadLoopCalls
    have hbody := (b.pages i).load_native (dirtii i != 0) s
    generalize (b.pages i).load (dirtii i != 0) s = out at h hbody ⊢
    obtain ⟨rc', q, s₁⟩ := out
    dsimp only at h hbody ⊢
    have hset : (b.setPage i (q.setStatus (statii i))).natives = b.natives := setPage_natives hbody
    split_ifs at h ⊢ with hrc hprot
    · cases h
      exact setPage_natives hbody
    · rw [ih _ _ _ h, hset]
    · cases r with
      | none => rw [ih _ _ _ h, hset]
      | some r =>
        obtain ⟨b₁, hr, h⟩ := bind_ok h
        simp only [hr]
        rw [ih _ _ _ h, performAll_append, refreshRange_native hr, hset]

theorem loadState_native {rc : ℤ} (h : b.loadState s = .ok (rc, b', s')) :
    b'.natives = performAll (b.loadCalls s) b.natives := by
  unfold loadState at h
  unfold loadCalls
  split_ifs at h ⊢
  · cases hh : b.loadHeader s with
    | inl r =>
      rw [hh] at h
      cases h
      rfl
    | inr l =>
      rw [hh] at h
      exact loadLoop_native _ _ _ _ h
  · cases h
    rfl

end Accounting

theorem covers_refreshLoopCalls {stop fuel i k : ℕ} {pages : ℕ → Page} {c : ProtectCall}
    (hc : c ∈ refreshLoopCalls stop fuel i pages) (hk : c.covers k) : i ≤ k ∧ k < stop := by
  induction fuel generalizing i pages with
  | zero => simp [refreshLoopCalls] at hc
  | succ fuel ih =>
    unfold refreshLoopCalls at hc
    split_ifs at hc with hi
    · set j := runEnd (fun k => (pages k).nativeProt) (pages i).nativeProt (stop - (i + 1)) (i + 1) with hj
      have hge : i + 1 ≤ j := le_runEnd _ _ _ _
      have hle : j ≤ i + 1 + (stop - (i + 1)) := runEnd_le _ _ _ _
      rcases List.mem_cons.mp hc with rfl | hc
      · obtain ⟨h1, h2⟩ := hk
        dsimp only at h1 h2
        omega
      · have := ih hc
        omega
    · simp at hc

theorem covers_refreshCalls {b : Block} {ps pc k : ℕ} {c : ProtectCall} (hc : c ∈ b.refreshCalls ps pc)
    (hk : c.covers k) : ps ≤ k ∧ k < ps + pc := by
  unfold refreshCalls at hc
  split_ifs at hc
  · exact covers_refreshLoopCalls hc hk
  · simp at hc

end Block

namespace Pass

variable (l : Pass)

theorem covers_flush {b : Block} {i r k : ℕ} {c : ProtectCall} (hr : l.runStart i = some r)
    (hc : c ∈ b.refreshCalls r (i - 1 - r + 1)) (hk : c.covers k) : k < i ∧ l.changed k = true := by
  have hlt := l.runStart_lt hr
  obtain ⟨h1, h2⟩ := Block.covers_refreshCalls hc hk
  have hki : k < i := by omega
  exact ⟨hki, l.changed_of_runStart hr k h1 hki⟩

theorem loadLoopCalls_changed {i k : ℕ} (n e : ℕ) (hn : i + n ≤ l.block.npages)
    (hcode : ∀ j, i ≤ j → j < i + n → l.code j = 0) (he : (l.runStart i).isSome → e = i - 1) {c : ProtectCall}
    (hc : c ∈ Block.loadLoopCalls l.statii l.dirtii n i (l.runStart i) e (l.blockAt i) (l.sourceAt i))
    (hk : c.covers k) : k < i + n ∧ l.changed k = true := by
  induction n generalizing i e with
  | zero =>
    cases hr : l.runStart i with
    | none => simp [hr, Block.loadLoopCalls] at hc
    | some r =>
      rw [hr, Block.loadLoopCalls, he (by simp [hr])] at hc
      exact l.covers_flush hr hc hk
  | succ n ih =>
    have hpage : (l.blockAt i).pages i = l.block.pages i := by simp [blockAt, pagesAt, Block.withPages]
    have hload : (l.block.pages i).load (l.dirtii i != 0) (l.sourceAt i) = (0, l.body i, l.sourceAt (i + 1)) := by
      rw [← hcode i (le_refl i) (by omega)]
      rfl
    have hrest : ∀ j, i + 1 ≤ j → j < i + 1 + n → l.code j = 0 := fun j h1 h2 => hcode j (by omega) (by omega)
    have ih' := fun e' => ih (i := i + 1) e' (by omega) hrest
    rw [Nat.add_right_comm] at ih'
    rw [Block.loadLoopCalls, hpage, hload] at hc
    simp only [ne_eq, not_true_eq_false, ↓reduceIte] at hc
    rw [show (l.body i).setStatus (l.statii i) = l.after i from rfl] at hc
    by_cases hch : l.changed i = true
    · have hne : ¬ (l.after i).nativeProt = (l.block.pages i).nativeProt := by simpa [changed] using hch
      rw [if_pos hne, l.blockAt_setPage hch] at hc
      apply ih' i (fun _ => rfl)
      rwa [runStart, if_pos hch]
    · have hch' : l.changed i = false := by simpa using hch
      have heq : ¬ ¬ (l.after i).nativeProt = (l.block.pages i).nativeProt := by simpa [changed] using hch
      have hnone : l.runStart (i + 1) = none := by simp [runStart, hch']
      rw [if_neg heq] at hc
      cases hr : l.runStart i with
      | none =>
        rw [hr, l.blockAt_of_none hr] at hc
        simp only [l.flushed_setPage hch'] at hc
        apply ih' e (by simp [hnone])
        rwa [hnone]
      | some r =>
        simp only [hr, he (by simp [hr]), l.flush_setPage hr (by omega) hch', List.mem_append] at hc
        rcases hc with hc | hc
        · obtain ⟨hlt, hchanged⟩ := l.covers_flush hr hc hk
          exact ⟨by omega, hchanged⟩
        · apply ih' (i - 1) (by simp [hnone])
          rwa [hnone]

end Pass

theorem nativeProt_ne_rwStack (st : UInt8) (d : Bool) : nativeProt st d ≠ .rwStack := by
  unfold nativeProt statusProt
  split_ifs <;> simp_all

theorem protToNative_injOn {p q : Prot} (hp : p ≠ .rwStack) (hq : q ≠ .rwStack)
    (h : protToNative p = protToNative q) : p = q := by
  cases p <;> cases q <;> simp_all [protToNative]

namespace Pass

variable (l : Pass) {i : ℕ}

theorem settled_exact (hs : l.block.swappedIn = true) (h : (l.block.pages i).Exact) : (l.settled i).Exact := by
  unfold settled
  split_ifs with hc
  · rw [Block.sync, if_pos hs]
    exact Page.Exact.refresh _
  · have hsame : (l.after i).nativeProt = (l.block.pages i).nativeProt := by simpa [changed] using hc
    have hnative : (l.after i).native = (l.block.pages i).native := Page.load_native _ _ _
    rw [Page.Exact, hsame, hnative]
    exact h

theorem settled_native_ne (hs : l.block.swappedIn = true) (h : (l.block.pages i).Exact) (hc : l.changed i = true) :
    (l.settled i).native ≠ (l.block.pages i).native := by
  have hne : (l.after i).nativeProt ≠ (l.block.pages i).nativeProt := by simpa [changed] using hc
  rw [settled, if_pos hc, Block.sync, if_pos hs, h]
  intro he
  exact hne (protToNative_injOn (nativeProt_ne_rwStack _ _) (nativeProt_ne_rwStack _ _) he)

end Pass

theorem Block.Exact.refreshAll {b : Block} (h : b.Exact) : b.refreshAll = .ok b := by
  have hpages : mapRange b.sync 0 b.npages b.pages = b.pages := by
    funext i
    unfold mapRange
    split_ifs with hi
    · have hi' : i < b.npages := by omega
      rw [Block.sync, if_pos h.swappedIn, Page.refresh, Page.protect, ← h.native i hi']
    · rfl
  rw [refreshAll_eq, Block.mapPages, hpages]
  rfl

theorem loadCalls_changed {b : Block} {s : Source} {l : Pass} (hs : b.sealed = true) (hh : b.loadHeader s = .inr l)
    (hcode : ∀ j, j < b.npages → l.code j = 0) {c : ProtectCall} {i : ℕ} (hc : c ∈ b.loadCalls s)
    (hi : c.covers i) : i < b.npages ∧ l.changed i = true := by
  have hb := loadHeader_block hh
  have hstart : l.blockAt 0 = b := by
    rw [l.blockAt_of_none rfl, ← hb]
    rfl
  rw [Block.loadCalls, if_pos hs, hh] at hc
  rw [← Nat.zero_add b.npages]
  refine l.loadLoopCalls_changed (i := 0) b.npages 0 (by rw [hb]; omega) ?_ (by simp [Pass.runStart]) ?_ hi
  · intro j _ hj
    exact hcode j (by omega)
  · rwa [hstart]

theorem load_reprotects_changed {b b' : Block} {s s' : Source} (hsealed : b.sealed = true) (hexact : b.Exact)
    (hload : b.loadState s = .ok (0, b', s')) :
    b'.Exact ∧ b'.refreshAll = .ok b' ∧ b'.natives = performAll (b.loadCalls s) b.natives ∧
      ∀ c ∈ b.loadCalls s, ∀ i, c.covers i → i < b.npages ∧ b'.natives i ≠ b.natives i := by
  have hnative := Block.loadState_native hload
  generalize hrc : (0 : ℤ) = rc at hload
  cases loadState_inv hsealed hload with
  | header hh => exact absurd hrc.symm (loadHeader_code hh)
  | cut _ _ hfail _ => exact absurd hrc.symm hfail
  | @done l hh hcode =>
    have hb := loadHeader_block hh
    have hswapped : l.block.swappedIn = true := hb ▸ hexact.swappedIn
    have hpage : ∀ i, i < b.npages → (l.block.pages i).Exact := hb ▸ hexact.native
    have hflushed : ∀ i, i < b.npages → (l.flushed b.npages).pages i = l.settled i := by
      intro i hi
      exact if_pos hi
    have hnpages : (l.flushed b.npages).npages = b.npages := by
      change l.block.npages = b.npages
      rw [hb]
    have hafter : (l.flushed b.npages).Exact := by
      refine ⟨hswapped, ?_⟩
      intro i hi
      rw [hnpages] at hi
      rw [hflushed i hi]
      exact l.settled_exact hswapped (hpage i hi)
    refine ⟨hafter, hafter.refreshAll, hnative, ?_⟩
    intro c hc i hi
    obtain ⟨hlt, hchanged⟩ := loadCalls_changed hsealed hh hcode hc hi
    refine ⟨hlt, ?_⟩
    rw [Block.natives, Block.natives, hflushed i hlt, ← hb]
    exact l.settled_native_ne hswapped (hpage i hlt) hchanged

theorem load_reprotects_changed_onePage :
    ∃ (t t' : Block) (src src' : Source), t.sealed = true ∧ t.Exact ∧ t.loadState src = .ok (0, t', src') ∧
      t'.Exact ∧ t.natives 0 ≠ t'.natives 0 := by
  have hrun : passes (do
      let u₁ ← smallest.ready
      let u₂ ← u₁.2.sealBlock
      let u₃ ← (MemOp.munmap onePage).run u₂.2
      return decide (u₂.1 = 0 ∧ u₃.2.npages = 1 ∧ u₃.2.swappedIn = true ∧
        (u₃.2.pages 0).native = protToNative (u₃.2.pages 0).nativeProt ∧ (u₂.2.pages 0).status = stRW ∧
        (u₂.2.pages 0).dirty = false ∧ (u₂.2.pages 0).invisible = false ∧ u₃.2.natives 0 = ⟨false, false, false⟩)) = true := by
    decide +kernel
  obtain ⟨⟨_, b₁⟩, hready, hrun⟩ := passes_bind hrun
  obtain ⟨⟨r, a⟩, hseal, hrun⟩ := passes_bind hrun
  obtain ⟨⟨_, t⟩, hunmap, hrun⟩ := passes_bind hrun
  dsimp only at hrun
  obtain ⟨rfl, hn, hswapped, hexact, hrw, hclean, hv, hnone⟩ := passes_pure hrun
  have ha : SealedAt (fun i => (b₁.pages i).data) a := .mk new_onePage (ready_run (by decide) hready) hseal
  have ht : ReflTransGen PostStep a t := .single (.guest (.mem noWrap_unmap hunmap))
  obtain ⟨hk, htT⟩ := run_kin ha.tracks ht
  have hsrc : (Source.mk a.stateBytes (fun _ => 1) 0).rest = a.stateBytes ++ [] := (List.append_nil _).symm
  obtain ⟨t', src', hload, -, hr, -⟩ := load_saved hk.toCompatible ha.tracks htT hsrc
  have hpages : ∀ i, i < t.npages → (t.pages i).Exact := by
    intro i hi
    obtain rfl : i = 0 := by omega
    exact hexact
  have hall := load_reprotects_changed htT.isSealed ⟨hswapped, hpages⟩ hload
  have h0 : 0 < t.npages := by omega
  have h0' : 0 < t'.npages := by
    rw [Block.npages, hr.addr]
    exact h0
  have hdirty := (hr.visible 0 h0 ((hk.invisible 0 h0).trans hv)).2
  have hread : t'.natives 0 = ⟨true, false, false⟩ := by
    rw [Block.natives, hall.1.native 0 h0', Page.nativeProt, hr.status 0 h0, hrw, hdirty, hclean]
    rfl
  refine ⟨t, t', _, src', htT.isSealed, ⟨hswapped, hpages⟩, hload, hall.1, ?_⟩
  rw [hnone, hread]
  decide

end MiniBox
