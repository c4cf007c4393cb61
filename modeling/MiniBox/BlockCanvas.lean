import MiniBox.LayoutSoundness
import MiniBox.LoaderCalls
import MiniBox.Overlays
import MiniBox.PageBaseline

namespace MiniBox

open ByteStream IndexLoops Outcomes Overlays

namespace Range

variable {β : Type}

def covers (r : Range) (a : ℕ) : Bool := decide (r.start.toNat ≤ a ∧ a < r.start.toNat + r.size.toNat)

theorem covers_iff {r : Range} {a : ℕ} : r.covers a = true ↔ r.start.toNat ≤ a ∧ a < r.start.toNat + r.size.toNat :=
  decide_eq_true_iff

theorem covers_empty {r : Range} (h : r.size = 0) (a : ℕ) : r.covers a = false := by
  rw [covers, h, decide_eq_false_iff_not, UInt64.toNat_zero]
  omega

structure In (r span : Range) : Prop where
  start_le : span.start.toNat ≤ r.start.toNat
  end_le : r.start.toNat + r.size.toNat ≤ span.start.toNat + span.size.toNat

def only (r : Range) (v : β) (a : ℕ) : Option β := if r.covers a then some v else none

theorem only_some {r : Range} {v : β} {a : ℕ} (h : r.covers a = true) : r.only v a = some v := if_pos h

theorem only_none {r : Range} {v : β} {a : ℕ} (h : ¬ r.covers a = true) : r.only v a = none := if_neg h

theorem paint_only_same (r : Range) (v w : β) (g : ℕ → β) : paint (r.only v) (paint (r.only w) g) = paint (r.only v) g := by
  apply paint_paint
  intro a hw
  by_cases h : r.covers a = true
  · rw [only_some h]
    rfl
  · rw [only_none h] at hw
    cases hw

end Range

def written (start : ℕ) (l : List UInt8) (a : ℕ) : Option UInt8 := if start ≤ a then l[a - start]? else none

structure Canvas where
  status : ℕ → UInt8
  hidden : ℕ → Bool
  byte : ℕ → UInt8

namespace Block

variable {b b' : Block} {c : Canvas} {r : Range}

def pageStart (b : Block) (i : ℕ) : ℕ := b.addr.start.toNat + i * 4096

structure Shows (b : Block) (c : Canvas) : Prop where
  status : ∀ i < b.npages, (b.pages i).status = c.status (b.pageStart i)
  hidden : ∀ i < b.npages, (b.pages i).invisible = c.hidden (b.pageStart i)
  byte : ∀ i < b.npages, ∀ k : Fin 4096, (b.pages i).data k = c.byte (b.pageStart i + k)

theorem validate_pages (hn : b.addr.NoWrap) (hw : r.Within b.addr) :
    ∃ ps pc, b.validate r = some (ps, pc) ∧ ps + pc ≤ b.npages ∧
      ∀ i, (ps ≤ i ∧ i < ps + pc) ↔ r.covers (b.pageStart i) = true := by
  refine ⟨_, _, validate_of_within hn hw, hw.bounds b.span (validate_of_within hn hw), ?_⟩
  intro i
  have ha := (eq_alignDown_iff _).mp b.span.start_aligned
  have h1 := hw.start_aligned
  have h2 := hw.size_aligned
  have h3 := hw.start_le
  rw [Range.covers_iff, pageStart]
  omega

theorem bounded_of_within (hn : b.addr.NoWrap) (hw : r.Within b.addr) : b.Bounded r :=
  Range.NoWrap.bounded (hw.end_le.trans_lt hn)

theorem validate_empty (h : r.size = 0) : b.validate r = none := if_pos (.inr (.inr (.inl h)))

section Status

theorem Shows.edit (hs : b.Shows c) {ps pc : ℕ} (st : UInt8)
    (hpages : ∀ i, (ps ≤ i ∧ i < ps + pc) ↔ r.covers (b.pageStart i) = true) :
    (b.edit ps pc (.status st)).Shows { c with status := paint (r.only st) c.status } := by
  have hpage : ∀ i, ((b.edit ps pc (.status st)).pages i).status = ((r.only st) (b.pageStart i)).getD (b.pages i).status ∧
      ((b.edit ps pc (.status st)).pages i).invisible = (b.pages i).invisible ∧
      ((b.edit ps pc (.status st)).pages i).data = (b.pages i).data := by
    intro i
    by_cases hi : ps ≤ i ∧ i < ps + pc
    · rw [edit_page_mem _ hi, Range.only_some ((hpages i).mp hi), sync_status, sync_invisible, sync_data]
      exact ⟨rfl, rfl, rfl⟩
    · rw [edit_page_not_mem _ hi, Range.only_none (mt (hpages i).mpr hi)]
      exact ⟨rfl, rfl, rfl⟩
  refine ⟨?_, ?_, ?_⟩
  · intro i hi
    rw [(hpage i).1, hs.status i hi]
    rfl
  · intro i hi
    rw [(hpage i).2.1, hs.hidden i hi]
    rfl
  · intro i hi k
    rw [(hpage i).2.2, hs.byte i hi k]
    rfl

theorem mmapFixed_shows (hs : b.Shows c) (hn : b.addr.NoWrap) (hw : r.Within b.addr) (prot : Prot) (noReplace : Bool)
    (hfree : noReplace = true → ∀ a, r.covers a = true → c.status a = stFree) :
    ∃ b', b.mmapFixed r prot noReplace = .ok (0, b') ∧ b.SameFrame b' ∧
      b'.Shows { c with status := paint (r.only (protStatus prot)) c.status } := by
  obtain ⟨ps, pc, hv, hle, hpages⟩ := validate_pages hn hw
  have htaken : (noReplace && b.hasTaken ps pc) = false := by
    cases noReplace with
    | false => rfl
    | true =>
      rw [Bool.true_and, hasTaken_eq_false]
      intro p h1 h2
      have hst := hs.status p (by omega)
      rw [hfree rfl _ ((hpages p).mp ⟨h1, h2⟩)] at hst
      rw [isFree, Page.isFree, hst]
      rfl
  refine ⟨b.edit ps pc (.status (protStatus prot)), ?_, ⟨rfl, rfl⟩, hs.edit _ hpages⟩
  rw [mmapFixed_eq r prot noReplace (bounded_of_within hn hw), hv]
  dsimp only
  rw [htaken]
  rfl

theorem mprotect_shows (hs : b.Shows c) (hn : b.addr.NoWrap) (hw : r.Within b.addr) (prot : Prot)
    (htaken : ∀ a, r.covers a = true → c.status a ≠ stFree) :
    ∃ b', b.mprotect r prot = .ok (0, b') ∧ b.SameFrame b' ∧
      b'.Shows { c with status := paint (r.only (protStatus prot)) c.status } := by
  obtain ⟨ps, pc, hv, hle, hpages⟩ := validate_pages hn hw
  have hfree : b.hasFree ps pc = false := by
    rw [hasFree_eq_false]
    intro p h1 h2
    rw [isFree, Page.isFree, decide_eq_false_iff_not, hs.status p (by omega)]
    exact htaken _ ((hpages p).mp ⟨h1, h2⟩)
  refine ⟨b.edit ps pc (.status (protStatus prot)), ?_, ⟨rfl, rfl⟩, hs.edit _ hpages⟩
  rw [mprotect_eq r prot (bounded_of_within hn hw), hv]
  dsimp only
  rw [hfree]
  rfl

end Status

theorem markInvisible_shows (hs : b.Shows c) (hn : b.addr.NoWrap) (hu : b.sealed = false)
    (hw : r.size ≠ 0 → r.Within b.addr) :
    ∃ rc b', b.markInvisible r = .ok (rc, b') ∧ (r.size ≠ 0 → rc = 0) ∧ b.SameFrame b' ∧
      b'.Shows { c with hidden := fun a => r.covers a || c.hidden a } := by
  by_cases hz : r.size = 0
  · refine ⟨-einval, b, ?_, fun hne => absurd hz hne, ⟨rfl, rfl⟩, hs.status, ?_, hs.byte⟩
    · unfold markInvisible
      rw [if_neg (by simp [hu]), validate_empty hz]
    · intro i hi
      simp only [Range.covers_empty hz, Bool.false_or]
      exact hs.hidden i hi
  · obtain ⟨ps, pc, hv, hle, hpages⟩ := validate_pages hn (hw hz)
    have hpage : ∀ i, (mapRange (fun p => b.sync (hidePage p)) ps pc b.pages i).status = (b.pages i).status ∧
        (mapRange (fun p => b.sync (hidePage p)) ps pc b.pages i).invisible =
          (r.covers (b.pageStart i) || (b.pages i).invisible) ∧
        (mapRange (fun p => b.sync (hidePage p)) ps pc b.pages i).data = (b.pages i).data := by
      intro i
      by_cases hi : ps ≤ i ∧ i < ps + pc
      · rw [mapRange_mem _ _ _ _ _ hi, (hpages i).mp hi, sync_status, sync_invisible, sync_data]
        exact ⟨rfl, rfl, rfl⟩
      · rw [mapRange_not_mem _ _ _ _ _ hi, Bool.eq_false_iff.mpr (mt (hpages i).mpr hi)]
        exact ⟨rfl, rfl, rfl⟩
    refine ⟨0, b.mapPages ps pc fun p => b.sync (hidePage p), ?_, fun _ => rfl, ⟨rfl, rfl⟩, ?_, ?_, ?_⟩
    · rw [markInvisible_eq hu (bounded_of_within hn (hw hz)), hv]
    · intro i hi
      exact (hpage i).1.trans (hs.status i hi)
    · intro i hi
      exact (hpage i).2.1.trans (congrArg (r.covers (b.pageStart i) || ·) (hs.hidden i hi))
    · intro i hi k
      exact (congrFun (hpage i).2.2 k).trans (hs.byte i hi k)

section Copies

theorem toNat_alignExpand {r : Range} (h : (r.start.toNat + r.size.toNat + 4095) / 4096 * 4096 < 2 ^ 64) :
    r.alignExpand.start.toNat = r.start.toNat - r.start.toNat % 4096 ∧
      r.alignExpand.start.toNat + r.alignExpand.size.toNat =
        (r.start.toNat + r.size.toNat + 4095) / 4096 * 4096 := by
  have hs : r.alignExpand.start.toNat = r.start.toNat - r.start.toNat % 4096 := toNat_alignDown r.start
  have he : (alignUp r.rangeEnd).toNat = (r.start.toNat + r.size.toNat + 4095) / 4096 * 4096 := by
    rw [toNat_alignUp, toNat_rangeEnd r (by unfold Range.NoWrap; omega)]
    omega
  have hz : r.alignExpand.size.toNat =
      (2 ^ 64 - r.alignExpand.start.toNat + (alignUp r.rangeEnd).toNat) % 2 ^ 64 := UInt64.toNat_sub _ _
  have := r.start.toNat_lt
  omega

theorem alignExpand_within {r span : Range} (hstart : span.start.toNat % 4096 = 0) (hsize : span.size.toNat % 4096 = 0)
    (hn : span.NoWrap) (h : r.In span) (hne : r.alignExpand.size ≠ 0) : r.alignExpand.Within span := by
  obtain ⟨h1, h2⟩ := h
  unfold Range.NoWrap at hn
  have hpos : r.alignExpand.size.toNat ≠ 0 := fun h0 => hne (UInt64.toNat_inj.mp h0)
  obtain ⟨hs, he⟩ := toNat_alignExpand (r := r) (by omega)
  exact ⟨by omega, by omega, by omega, by omega, by omega⟩

theorem copyFromExternal_shows {src : List UInt8} {start : UInt64} (hs : b.Shows c) (hn : b.addr.NoWrap)
    (hne : src ≠ []) (h1 : b.addr.start.toNat ≤ start.toNat)
    (h2 : start.toNat + src.length ≤ b.addr.start.toNat + b.addr.size.toNat) :
    ∃ b', b.copyFromExternal src start = .ok (0, b') ∧ b.SameFrame b' ∧
      b'.Shows { c with byte := paint (written start.toNat src) c.byte } := by
  have hend : b.addr.start.toNat + b.addr.size.toNat < 2 ^ 64 := hn
  have hstart := (eq_alignDown_iff _).mp b.span.start_aligned
  have hsize := (eq_alignDown_iff _).mp b.span.size_aligned
  have hpos : 0 < src.length := List.length_pos_iff.mpr hne
  have hlen : (UInt64.ofNat src.length).toNat = src.length :=
    UInt64.toNat_ofNat_of_lt' (by rw [show UInt64.size = 2 ^ 64 from rfl]; omega)
  have hw : (Range.alignExpand ⟨start, UInt64.ofNat src.length⟩).Within b.addr := by
    apply alignExpand_within hstart hsize hn ⟨h1, by rw [hlen]; exact h2⟩
    intro h0
    obtain ⟨hs, he⟩ := toNat_alignExpand (r := ⟨start, UInt64.ofNat src.length⟩) (by rw [hlen]; dsimp only; omega)
    rw [h0, hlen, UInt64.toNat_zero] at he
    dsimp only at hs he
    omega
  obtain ⟨ps, pc, hv, hle, -⟩ := validate_pages hn hw
  have hoff : (start - b.addr.start).toNat = start.toNat - b.addr.start.toNat :=
    UInt64.toNat_sub_of_le _ _ (UInt64.le_iff_toNat_le.mpr h1)
  have hfit : (start - b.addr.start).toNat + src.length ≤ b.npages * 4096 := by
    rw [hoff, npages, npages_eq]
    omega
  have hsoil : ∀ i, (mapRange soil ps pc b.pages i).status = (b.pages i).status ∧
      (mapRange soil ps pc b.pages i).invisible = (b.pages i).invisible ∧
      (mapRange soil ps pc b.pages i).data = (b.pages i).data := by
    intro i
    by_cases hi : ps ≤ i ∧ i < ps + pc
    · rw [mapRange_mem _ _ _ _ _ hi]
      exact ⟨rfl, rfl, rfl⟩
    · rw [mapRange_not_mem _ _ _ _ _ hi]
      exact ⟨rfl, rfl, rfl⟩
  refine ⟨b.withPages fun i => copyInto (start - b.addr.start).toNat i src (mapRange soil ps pc b.pages i), ?_,
    ⟨rfl, rfl⟩, ?_, ?_, ?_⟩
  · unfold copyFromExternal
    rw [hv]
    simp only [forRange_eq _ _ _ _ _ _ hle, ok_bind]
    rw [mirrorCopy_eq (b.withPages (mapRange soil ps pc b.pages)) hfit]
    rfl
  · intro i hi
    exact (hsoil i).1.trans (hs.status i hi)
  · intro i hi
    exact (hsoil i).2.1.trans (hs.hidden i hi)
  · intro i hi k
    change (if _ then _ else _) = paint (written start.toNat src) c.byte (b.pageStart i + k)
    rw [hoff, congrFun (hsoil i).2.2 k, hs.byte i hi k, paint, written, pageStart]
    have hplace : start.toNat - b.addr.start.toNat ≤ i * 4096 + k ↔ start.toNat ≤ b.addr.start.toNat + i * 4096 + k := by
      omega
    by_cases hk : start.toNat ≤ b.addr.start.toNat + i * 4096 + k
    · rw [if_pos (hplace.mpr hk), if_pos hk]
      congr 2
      omega
    · rw [if_neg (mt hplace.mp hk), if_neg hk]
      rfl

end Copies

end Block

end MiniBox
