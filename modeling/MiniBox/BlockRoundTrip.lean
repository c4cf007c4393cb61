import MiniBox.BaselineInvariant

namespace MiniBox

open ByteStream IndexLoops Outcomes Relation

def Block.stateBytes (b : Block) : List UInt8 := b.saveChunks.flatten

theorem saveState_bytes {b b' : Block} {w w' : Sink} (h : b.saveState w = (0, b', w')) :
    b' = b ∧ b.sealed = true ∧ w'.out = w.out ++ b.stateBytes := by
  unfold Block.saveState at h
  split_ifs at h with hs
  · cases hp : w.putAll b.saveChunks with
    | mk t v =>
      rw [hp] at h
      cases t with
      | true =>
        simp only [Prod.mk.injEq, true_and] at h
        exact ⟨h.1.symm, hs, h.2 ▸ putAll_true _ _ _ hp⟩
      | false => simp [eio] at h
  · simp [einval] at h

theorem saveState_accepts {b : Block} {w : Sink} (hs : b.sealed = true) (hw : ∀ k, w.fails k = false) :
    ∃ w', b.saveState w = (0, b, w') := by
  obtain ⟨w', h⟩ := putAll_accepts w b.saveChunks hw
  exact ⟨w', by rw [Block.saveState, if_pos hs, h]⟩

namespace Page

variable {base : PageData} {p q : Page}

def carriedBytes (q : Page) : List UInt8 := if q.carried then List.ofFn q.data else []

theorem load_restores {s : Source} {tail : List UInt8} (hp : p.Tracks base) (hq : q.Tracks base)
    (hi : p.invisible = q.invisible) (hs : s.rest = q.carriedBytes ++ tail) :
    (p.load q.dirty s).1 = 0 ∧ (p.load q.dirty s).2.2.rest = tail ∧
      (p.invisible = false → (p.load q.dirty s).2.1.data = q.data) := by
  cases hv : p.invisible with
  | true =>
    rw [load_of_invisible hv]
    rw [carriedBytes, if_neg (by simp [carried, ← hi, hv]), List.nil_append] at hs
    exact ⟨rfl, hs, by simp⟩
  | false =>
    rw [hv] at hi
    cases hd : q.dirty with
    | true =>
      rw [carriedBytes, if_pos (by simp [carried, ← hi, hd])] at hs
      obtain ⟨h1, h2, h3⟩ := load_take (s := s) hv
      have hlen : (List.ofFn q.data).length = 4096 := List.length_ofFn
      rw [h1, h2, h3, hs]
      refine ⟨if_pos ?_, List.drop_left' hlen, fun _ => ?_⟩
      · rw [List.length_append, hlen]
        omega
      · simp only [filled, hs]
        exact overlay_ofFn _ _ _
    | false =>
      rw [carriedBytes, if_neg (by simp [carried, hd]), List.nil_append] at hs
      have hbase := hq.clean hi.symm hd
      cases hpd : p.dirty with
      | true =>
        rw [load_revert hv hpd (hp.holds hv hpd)]
        exact ⟨rfl, hs, fun _ => hbase.symm⟩
      | false =>
        rw [load_keep hv hpd]
        exact ⟨rfl, hs, fun _ => (hp.clean hv hpd).trans hbase.symm⟩

theorem Tracks.rebase {base' : PageData} (h : p.Tracks base) (hb : p.invisible = false → base = base') :
    p.Tracks base' :=
  ⟨fun hv hd => (h.clean hv hd).trans (hb hv), fun hv => hb hv ▸ h.kept hv⟩

end Page

theorem contents_zero (pages : ℕ → Page) (i : ℕ) : Block.contents pages i 0 = [] := by
  rw [Block.contents, List.range'_zero, List.filter_nil, List.map_nil]

theorem contents_succ (pages : ℕ → Page) (i n : ℕ) :
    (Block.contents pages i (n + 1)).flatten = (pages i).carriedBytes ++ (Block.contents pages (i + 1) n).flatten := by
  unfold Block.contents Page.carriedBytes
  rw [List.range'_succ, List.filter_cons]
  split_ifs
  · rw [List.map_cons, List.flatten_cons]
  · rw [List.nil_append]

structure Pass.Reads (l : Pass) (s : Block) (tail : List UInt8) : Prop where
  statii : ∀ i, i < s.npages → l.statii i = (s.pages i).status
  dirtii : ∀ i, i < s.npages → l.newDirty i = (s.pages i).dirty
  rest : l.source.rest = (Block.contents s.pages 0 s.npages).flatten ++ tail

theorem byteAt_lt {n i : ℕ} (buf : Bytes n) (h : i < n) : Block.byteAt buf i = buf ⟨i, h⟩ := dif_pos h

theorem ofFn_rangeBytes (r : Range) :
    List.ofFn (Fin.append (u64Bytes r.start) (u64Bytes r.size)) = Block.rangeBytes r := List.ofFn_fin_append _ _

theorem rangeOfBytes_append (r : Range) :
    Block.rangeOfBytes (Fin.append (u64Bytes r.start) (u64Bytes r.size)) = r := by
  unfold Block.rangeOfBytes
  simp only [Fin.append_left, Fin.append_right, u64OfBytes_u64Bytes]

theorem stateBytes_eq (b : Block) :
    b.stateBytes = blockMagic ++ (List.ofFn b.hash ++ (Block.rangeBytes b.addr ++ (List.ofFn b.statii ++
      (List.ofFn b.dirtii ++ (Block.contents b.pages 0 b.npages).flatten)))) := by
  unfold Block.stateBytes Block.saveChunks
  simp only [List.cons_append, List.nil_append, List.flatten_cons]

theorem loadHeader_reads {s t : Block} {src : Source} {tail : List UInt8} (ha : t.addr = s.addr)
    (h : src.rest = s.stateBytes ++ tail) : ∃ l, t.loadHeader src = .inr l ∧ l.Reads s tail := by
  have hn : t.npages = s.npages := by rw [Block.npages, ha]; rfl
  rw [stateBytes_eq] at h
  simp only [List.append_assoc] at h
  obtain ⟨a1, a2, a3⟩ := rdMagic_of _ _ _ h
  obtain ⟨b1, -, b3⟩ := rd_ofFn (zeroes 32) _ _ _ a3
  rw [← ofFn_rangeBytes] at b3
  obtain ⟨c1, c2, c3⟩ := rd_ofFn (zeroes 16) _ _ _ b3
  have hr : Block.rangeOfBytes (Fin.append (u64Bytes s.addr.start) (u64Bytes s.addr.size)) = t.addr := by
    rw [rangeOfBytes_append, ha]
  let statii : Bytes t.npages := fun i => (s.pages i).status
  let dirtii : Bytes t.npages := fun i => if (s.pages i).dirty then 1 else 0
  have hst : List.ofFn s.statii = List.ofFn statii := by simp only [statii, hn]; rfl
  have hdt : List.ofFn s.dirtii = List.ofFn dirtii := by simp only [dirtii, hn]; rfl
  rw [hst, hdt] at c3
  obtain ⟨d1, d2, d3⟩ := rd_ofFn (zeroes t.npages) _ _ _ c3
  obtain ⟨e1, e2, e3⟩ := rd_ofFn (zeroes t.npages) _ _ _ d3
  refine ⟨⟨t, Block.byteAt statii, Block.byteAt dirtii, _⟩, ?_, fun i hi => ?_, fun i hi => ?_, e3⟩
  · unfold Block.loadHeader
    simp only [a1, a2, b1, c1, c2, hr, d1, d2, e1, e2, Bool.not_true, Bool.false_eq_true, ↓reduceIte,
      ne_eq, not_true_eq_false]
  · exact byteAt_lt statii (hn ▸ hi)
  · simp only [Pass.newDirty, byteAt_lt dirtii (hn ▸ hi), dirtii]
    cases (s.pages i).dirty <;> rfl

structure Restored (s t t' : Block) : Prop where
  addr : t'.addr = t.addr
  hash : t'.hash = t.hash
  status : ∀ i, i < t.npages → (t'.pages i).status = (s.pages i).status
  invisible : ∀ i, i < t.npages → (t'.pages i).invisible = (t.pages i).invisible
  visible : ∀ i, i < t.npages → (t.pages i).invisible = false →
    (t'.pages i).data = (s.pages i).data ∧ (t'.pages i).dirty = (s.pages i).dirty
  hidden : ∀ i, i < t.npages → (t.pages i).invisible = true →
    (t'.pages i).data = (t.pages i).data ∧ (t'.pages i).dirty = (t.pages i).dirty

structure Compatible (s t : Block) : Prop where
  addr : t.addr = s.addr
  invisible : ∀ i, i < t.npages → (t.pages i).invisible = (s.pages i).invisible

theorem Compatible.npages {s t : Block} (h : Compatible s t) : t.npages = s.npages := by
  rw [Block.npages, h.addr]; rfl

variable {base : ℕ → PageData} {s t : Block}

section Pass

variable {l : Pass} {tail : List UInt8} (hr : l.Reads s tail) (hc : Compatible s l.block)
  (hs : s.Tracks base) (ht : l.block.Tracks base)

include hr hc hs ht

theorem Pass.Reads.sourceAt (k : ℕ) (hk : k ≤ s.npages) :
    (l.sourceAt k).rest = (Block.contents s.pages k (s.npages - k)).flatten ++ tail := by
  induction k with
  | zero => exact hr.rest
  | succ k ih =>
    have hlt : k < l.block.npages := by rw [hc.npages]; omega
    have hrest := ih (by omega)
    rw [show s.npages - k = s.npages - (k + 1) + 1 by omega, contents_succ, List.append_assoc] at hrest
    have hload := Page.load_restores (ht.tracks k hlt) (hs.tracks k (by omega)) (hc.invisible k hlt) hrest
    rw [Pass.sourceAt, hr.dirtii k (by omega)]
    exact hload.2.1

theorem Pass.Reads.page (k : ℕ) (hk : k < s.npages) :
    l.code k = 0 ∧ ((l.block.pages k).invisible = false → (l.body k).data = (s.pages k).data) := by
  have hlt : k < l.block.npages := by rw [hc.npages]; omega
  have hrest := hr.sourceAt hc hs ht k hk.le
  rw [show s.npages - k = s.npages - (k + 1) + 1 by omega, contents_succ, List.append_assoc] at hrest
  have hload := Page.load_restores (ht.tracks k hlt) (hs.tracks k hk) (hc.invisible k hlt) hrest
  unfold Pass.code Pass.body
  rw [hr.dirtii k hk]
  exact ⟨hload.1, hload.2.2⟩

end Pass

theorem settled_data (l : Pass) (i : ℕ) : (l.settled i).data = (l.body i).data := by
  unfold Pass.settled
  split_ifs
  · rw [sync_data]
    rfl
  · rfl

theorem load_saved (hc : Compatible s t) (hs : s.Tracks base) (ht : t.Tracks base) {src : Source}
    {tail : List UInt8} (h : src.rest = s.stateBytes ++ tail) :
    ∃ t' src', t.loadState src = .ok (0, t', src') ∧ src'.rest = tail ∧ Restored s t t' ∧ t'.Tracks base := by
  obtain ⟨l, hl, hr⟩ := loadHeader_reads hc.addr h
  obtain rfl := loadHeader_block hl
  have hpage := hr.page hc hs ht
  have hcode : ∀ j, j < l.block.npages → l.code j = 0 := fun j hj => (hpage j (hc.npages ▸ hj)).1
  obtain ⟨rc, t', src', hload, ho⟩ := loadState_outcome l.block src ht.isSealed
  cases ho with
  | header hh => rw [hl] at hh; cases hh
  | cut hh hm hfail =>
    rw [hl] at hh
    cases hh
    exact absurd (hcode _ hm) hfail
  | done hh =>
    rw [hl] at hh
    cases hh
    refine ⟨_, _, hload, ?_, ⟨rfl, rfl, ?_, ?_, ?_, ?_⟩, ht.load hload⟩
    · rw [hr.sourceAt hc hs ht _ hc.npages.le, hc.npages, Nat.sub_self, contents_zero]
      rfl
    all_goals
      intro i hi
      have hsp := l.settled_loaded (ht.tracks i hi) (hcode i hi)
      have hi' : i < s.npages := hc.npages ▸ hi
      rw [l.flushed_page hi]
    · rw [hsp.status, hr.statii i hi']
    · exact hsp.invisible
    · intro hv
      rw [settled_data]
      exact ⟨(hpage i hi').2 hv, by rw [hsp.dirty hv, hr.dirtii i hi']⟩
    · exact hsp.hidden

theorem Compatible.refl (s : Block) : Compatible s s := ⟨rfl, fun _ _ => rfl⟩

theorem Compatible.trans {u : Block} (h : Compatible s t) (h' : Compatible t u) : Compatible s u :=
  ⟨h'.addr.trans h.addr, fun i hi => (h'.invisible i hi).trans (h.invisible i (h'.npages ▸ hi))⟩

theorem Compatible.symm (h : Compatible s t) : Compatible t s :=
  ⟨h.addr.symm, fun i hi => (h.invisible i (h.npages ▸ hi)).symm⟩

end MiniBox
