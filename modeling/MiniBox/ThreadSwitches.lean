import MiniBox.ThreadTwins
import MiniBox.ThreadRuns

namespace MiniBox

open Effects LinearTables Outcomes

def GThread.registers (g : GThread) : Registers := ⟨g.rax, g.rsp, g.threadArea⟩

def ThreadOp.pending : ThreadOp → Option UInt64
  | .exit => none
  | _ => some (sok 0)

namespace ThreadSet

def saved (t : ThreadSet) (tid : UInt32) : Option Registers := (t.findThread tid).map GThread.registers

def record (owed : UInt32 → Option Registers) (t : ThreadSet) (c : Context) (op : ThreadOp) (t' : ThreadSet) :
    UInt32 → Option Registers :=
  if t'.activeTid ≠ t.activeTid then
    Function.update owed t.activeTid (op.pending.map fun rax => ⟨rax, c.guestRsp, c.threadArea⟩)
  else match op with
    | .spawn threadArea guestRsp _ _ _ =>
      if t'.nextTid ≠ t.nextTid then Function.update owed t.nextTid (some ⟨sok 0, guestRsp - 16, threadArea⟩)
      else owed
    | _ => owed

inductive Traced : ThreadSet → Context → (UInt32 → Option Registers) → Prop
  | new (c : Context) : Traced new c fun _ => none
  | guest {t : ThreadSet} {c : Context} {owed : UInt32 → Option Registers} (h : Traced t c owed) (c' : Context) :
      Traced t c' owed
  | syscall {M : Type} {mem : GuestMemory M} {m m' : M} {t t' : ThreadSet} {c c' : Context} {r : UInt64}
      {owed : UInt32 → Option Registers} (op : ThreadOp) (h : Traced t c owed)
      (hrun : exec (op.run mem t c) m = (.ok (r, t', c'), m')) (hwrap : t'.nextTid ≠ 0) :
      Traced t' c' (record owed t c op t')

variable {t t' : ThreadSet} {c c' : Context} {tid : UInt32} {r ret addr : UInt64} {owed : UInt32 → Option Registers}

section Registers

structure SameRegisters (t t' : ThreadSet) : Prop where
  activeTid : t'.activeTid = t.activeTid
  nextTid : t'.nextTid = t.nextTid
  saved : t'.saved = t.saved

theorem SameRegisters.refl (t : ThreadSet) : SameRegisters t t := ⟨rfl, rfl, rfl⟩

theorem SameRegisters.trans {t₁ : ThreadSet} (h : SameRegisters t t₁) (h' : SameRegisters t₁ t') :
    SameRegisters t t' :=
  ⟨h'.activeTid.trans h.activeTid, h'.nextTid.trans h.nextTid, h'.saved.trans h.saved⟩

theorem saved_of_mem (h : t.Scheduled) {g : GThread} (hg : g ∈ t.threads) : t.saved g.tid = some g.registers := by
  rw [saved, findThread, lookup_of_mem h.nodup hg]
  rfl

theorem saved_modifyThread {f : GThread → GThread} (hf : ∀ g, (f g).tid = g.tid) (j : UInt32) :
    (t.modifyThread tid f).saved j =
      if j = tid then (t.findThread j).map fun g => (f g).registers else t.saved j := by
  unfold saved findThread modifyThread
  rw [lookup_adjust hf]
  by_cases hj : j = tid
  · subst hj
    rw [if_pos rfl, if_pos rfl, Option.map_map]
    rfl
  · rw [if_neg hj, if_neg hj]

theorem sameRegisters_modifyThread {f : GThread → GThread} (hf : ∀ g, (f g).tid = g.tid)
    (hr : ∀ g, (f g).registers = g.registers) : SameRegisters t (t.modifyThread tid f) := by
  refine ⟨rfl, rfl, funext fun j => ?_⟩
  rw [saved_modifyThread hf]
  by_cases hj : j = tid
  · rw [if_pos hj, saved]
    simp only [hr]
  · rw [if_neg hj]

theorem sameRegisters_unparkOne {more : Bool} (h : t.unparkOne addr = some (tid, more, t')) :
    SameRegisters t t' := by
  obtain ⟨tids, -, -, rfl⟩ := unparkOne_cases h
  have hm : SameRegisters t (t.modifyThread tid fun g => { g with state := .runnable }) :=
    sameRegisters_modifyThread (by intro; rfl) (by intro; rfl)
  exact ⟨hm.activeTid, hm.nextTid, hm.saved⟩

theorem sameRegisters_unparked (t : ThreadSet) (addr : UInt64) : SameRegisters t (t.unparked addr) := by
  unfold unparked
  cases hu : t.unparkOne addr with
  | none => exact .refl t
  | some u => exact sameRegisters_unparkOne hu

theorem sameRegisters_parkOther (h : t.parkOther addr tid = .ok t') : SameRegisters t t' := by
  obtain ⟨t₁, hpush, -, rfl⟩ := parkOther_cases h
  have hq := pushed_queuePush hpush
  have hsaved : t₁.saved = t.saved := by
    funext j
    rw [saved, findThread, hq.threads]
    rfl
  have hp : SameRegisters t t₁ := ⟨hq.activeTid, hq.nextTid, hsaved⟩
  exact hp.trans (sameRegisters_modifyThread (by intro; rfl) (by intro; rfl))

theorem sameRegisters_requeueLoop {src dst : UInt64} {n wake : ℕ} {count k : ℤ}
    (h : requeueLoop src dst n wake t count = .ok (k, t')) : SameRegisters t t' := by
  refine requeueLoop_keeps (P := SameRegisters t) ?_ (.refl t) h
  rintro u tid more t₁ t₂ hu h₁ (rfl | hp)
  · exact hu.trans (sameRegisters_unparkOne h₁)
  · exact (hu.trans (sameRegisters_unparkOne h₁)).trans (sameRegisters_parkOther hp)

end Registers

section Switches

inductive Transfer (t : ThreadSet) (c : Context) (op : ThreadOp) (u : UInt64 × ThreadSet × Context) : Prop
  | stay (hs : SameRegisters t u.2.1) (hc : u.2.2 = c)
  | create {threadArea guestRsp guestRip childTid parentTid : UInt64}
      (hop : op = .spawn threadArea guestRsp guestRip childTid parentTid) (ha : u.2.1.activeTid = t.activeTid)
      (hn : u.2.1.nextTid = t.nextTid + 1) (hc : u.2.2 = c)
      (hs : u.2.1.saved = Function.update t.saved t.nextTid (some ⟨sok 0, guestRsp - 16, threadArea⟩))
  | switch (ha : u.2.1.activeTid ≠ t.activeTid) (hn : u.2.1.nextTid = t.nextTid)
      (hs : u.2.1.saved = Function.update t.saved t.activeTid
        (op.pending.map fun rax => ⟨rax, c.guestRsp, c.threadArea⟩))
      (hb : t.saved u.2.1.activeTid = some ⟨u.1, u.2.2.guestRsp, u.2.2.threadArea⟩)

structure Swapped (t : ThreadSet) (c : Context) (ret : UInt64) (u : UInt64 × ThreadSet × Context) : Prop where
  active : u.2.1.activeTid ≠ t.activeTid
  nextTid : u.2.1.nextTid = t.nextTid
  left : u.2.1.saved = Function.update t.saved t.activeTid (some ⟨ret, c.guestRsp, c.threadArea⟩)
  taken : t.saved u.2.1.activeTid = some ⟨u.1, u.2.2.guestRsp, u.2.2.threadArea⟩

variable {u : UInt64 × ThreadSet × Context}

theorem swapped_swapTo (hne : tid ≠ t.activeTid) (h : t.swapTo c tid ret = .ok u) : Swapped t c ret u := by
  obtain ⟨r, t', c'⟩ := u
  have hold : (t.findThread t.activeTid).isSome := by
    cases hf : t.findThread t.activeTid with
    | some g => rfl
    | none =>
      unfold swapTo at h
      rw [hf] at h
      cases h
  obtain ⟨old, hold⟩ := Option.isSome_iff_exists.mp hold
  obtain ⟨nw, rfl, hfind, rfl, rfl⟩ := swapTo_cases h
  have hsaved : ∀ j, (t.modifyThread t.activeTid fun old =>
      { old with rax := ret, rsp := c.guestRsp, threadArea := c.threadArea }).saved j =
        Function.update t.saved t.activeTid (some ⟨ret, c.guestRsp, c.threadArea⟩) j := by
    intro j
    rw [saved_modifyThread (by intro; rfl)]
    by_cases hj : j = t.activeTid
    · subst hj
      rw [if_pos rfl, Function.update_self, hold]
      rfl
    · rw [if_neg hj, Function.update_of_ne hj]
  refine ⟨hne, rfl, funext hsaved, ?_⟩
  have htid := hsaved tid
  rw [Function.update_of_ne hne] at htid
  exact htid.symm.trans (congrArg (Option.map GThread.registers) hfind)

theorem swapToNext_transfer (h : t.swapToNext c ret = .ok u) : u = (ret, t, c) ∨ Swapped t c ret u := by
  rcases swapToNext_cases h with ⟨-, hu⟩ | ⟨best, -, hb, hs⟩
  · exact .inl hu
  · exact .inr (swapped_swapTo hb hs)

theorem Swapped.of_same {t₁ : ThreadSet} (h : SameRegisters t t₁) (hs : Swapped t₁ c ret u) : Swapped t c ret u where
  active := h.activeTid ▸ hs.active
  nextTid := hs.nextTid.trans h.nextTid
  left := by rw [hs.left, h.saved, h.activeTid]
  taken := by rw [← h.saved, hs.taken]

theorem Swapped.transfer {op : ThreadOp} (hop : op.pending = some ret) (h : Swapped t c ret u) :
    Transfer t c op u := by
  refine .switch h.active h.nextTid ?_ h.taken
  rw [hop]
  exact h.left

theorem parkMe_transfer {op : ThreadOp} (hop : op.pending = some ret) (h : t.parkMe c ret addr = .ok u) :
    Transfer t c op u := by
  obtain ⟨t₁, hpark, hs⟩ := bind_ok h
  have hsame := sameRegisters_parkOther hpark
  rcases swapToNext_transfer hs with rfl | hswap
  · exact .stay hsame rfl
  · exact (hswap.of_same hsame).transfer hop

theorem saved_removeThread (h : (t.threads.map GThread.tid).Nodup) :
    (t.removeThread tid).saved = Function.update t.saved tid none := by
  funext j
  unfold saved findThread removeThread
  rw [lookup_discard h]
  by_cases hj : j = tid
  · rw [if_pos hj, hj, Function.update_self]
    rfl
  · rw [if_neg hj, Function.update_of_ne hj]

theorem saved_insertThread {g : GThread} (h : t.Consistent) (hg : g.tid = t.nextTid)
    (hi : t.insertThread g = .ok t') :
    SameRegisters t { t' with threads := t.threads } ∧
      t'.saved = Function.update t.saved t.nextTid (some g.registers) := by
  have hlast : ∀ x ∈ t.threads, ¬ g.tid < x.tid := by
    intro x hx
    rw [hg]
    exact UInt32.lt_asymm (h.below x.tid (List.mem_map_of_mem hx))
  obtain ⟨-, rfl⟩ := insertThread_cases hlast hi
  refine ⟨.refl t, funext fun j => ?_⟩
  unfold saved findThread
  rw [lookup_append]
  by_cases hj : j = t.nextTid
  · have hnone : lookup GThread.tid j t.threads = none := by
      rw [lookup_eq_none, hj]
      intro hmem
      exact UInt32.lt_irrefl _ (h.below _ hmem)
    rw [hnone, hj, Function.update_self]
    simp [lookup_cons, hg]
  · have hne : ¬ g.tid = j := by
      rw [hg]
      exact Ne.symm hj
    rw [Function.update_of_ne hj]
    simp [lookup_cons, hne]

theorem ThreadMove.transfer {op : ThreadOp} (hc : t.Consistent) (h : ThreadMove t c op u) : Transfer t c op u := by
  cases h with
  | stay => exact .stay (.refl t) rfl
  | spawn hi =>
    obtain ⟨hsame, hsaved⟩ := saved_insertThread hc rfl hi
    exact .create rfl hsame.activeTid (congrArg (· + 1) hsame.nextTid) rfl hsaved
  | @exit t₁ t₂ r c₂ h1 hj hs hne =>
    obtain ⟨hsame, hsched⟩ : SameRegisters t t₁ ∧ t₁.Scheduled := by
      rcases hj with rfl | ⟨addr, rfl⟩
      · exact ⟨.refl _, hc.toScheduled⟩
      · exact ⟨sameRegisters_unparked t addr, (hc.unparked addr).1.1.toScheduled⟩
    rcases swapToNext_transfer hs with heq | hswap
    · cases heq
      exact absurd hsame.activeTid hne
    · have hsw := hswap.of_same hsame
      refine .switch hne hsw.nextTid ?_ hsw.taken
      have hnodup := (hsched.swapToNext hs).consistent.nodup
      change (t₂.removeThread t.activeTid).saved = _
      rw [saved_removeThread hnodup, hsw.left, Function.update_idem]
      rfl
  | yield hs =>
    rcases swapToNext_transfer hs with rfl | hswap
    · exact .stay (.refl t) rfl
    · exact hswap.transfer rfl
  | wait hp => exact parkMe_transfer rfl hp
  | lock hp => exact parkMe_transfer rfl hp
  | requeue hl => exact .stay (sameRegisters_requeueLoop hl) rfl
  | handoff hu hs =>
    have hsame := sameRegisters_unparkOne hu
    have hne := (hc.unparkOne hu).2.2.1
    exact ((swapped_swapTo hne hs).of_same hsame).transfer rfl
  | address ha =>
    obtain rfl := setTidAddress_cases ha
    exact .stay (sameRegisters_modifyThread (by intro; rfl) (by intro; rfl)) rfl

end Switches

def Owes (t : ThreadSet) (owed : UInt32 → Option Registers) : Prop :=
  ∀ tid, tid ≠ t.activeTid → t.saved tid = owed tid

theorem Owes.transfer {op : ThreadOp} (h : t.Owes owed) (ht : Transfer t c op (r, t', c')) :
    t'.Owes (record owed t c op t') := by
  intro tid htid
  unfold record
  cases ht with
  | stay hs hc =>
    have hn : ¬ t'.nextTid ≠ t.nextTid := not_not.mpr hs.nextTid
    rw [if_neg (not_not.mpr hs.activeTid), hs.saved, h tid (hs.activeTid ▸ htid)]
    cases op <;> simp only [if_neg hn]
  | create hop ha hn hc hs =>
    subst hop
    have hne : t'.nextTid ≠ t.nextTid := by
      rw [hn]
      exact succ_ne_self t.nextTid
    rw [if_neg (not_not.mpr ha)]
    simp only [if_pos hne]
    rw [hs]
    by_cases hj : tid = t.nextTid
    · rw [hj, Function.update_self, Function.update_self]
    · rw [Function.update_of_ne hj, Function.update_of_ne hj, h tid (ha ▸ htid)]
  | switch ha hn hs hb =>
    rw [if_pos ha, hs]
    by_cases hj : tid = t.activeTid
    · rw [hj, Function.update_self, Function.update_self]
    · rw [Function.update_of_ne hj, Function.update_of_ne hj, h tid hj]

theorem Traced.owes (h : Traced t c owed) : t.Consistent ∧ t.Owes owed := by
  induction h with
  | new c =>
    refine ⟨consistent_new, ?_⟩
    intro tid htid
    have hne : ¬ 1 = tid := Ne.symm htid
    simp [ThreadSet.new, saved, findThread, lookup_cons, hne]
  | guest h c' ih => exact ih
  | syscall op h hrun hwrap ih =>
    obtain ⟨hc, ho⟩ := ih
    have hmove := (op.run_move _ _ _).answer _ _ _ hrun
    exact ⟨hc.step hmove.step hwrap, ho.transfer (hmove.transfer hc)⟩

theorem switch_restores_registers {M : Type} {mem : GuestMemory M} {m m' : M} (h : Traced t c owed) (op : ThreadOp)
    (hrun : exec (op.run mem t c) m = (.ok (r, t', c'), m')) (hwrap : t'.nextTid ≠ 0) :
    (t'.activeTid ≠ t.activeTid → owed t'.activeTid = some ⟨r, c'.guestRsp, c'.threadArea⟩) ∧
      (t'.activeTid = t.activeTid → c' = c) ∧
      (∀ g ∈ t.threads, g.tid ≠ t.activeTid → t'.saved g.tid = some g.registers) ∧
      ∀ g ∈ t'.threads, g.tid ≠ t'.activeTid → record owed t c op t' g.tid = some g.registers := by
  obtain ⟨hc, ho⟩ := h.owes
  have hmove := (op.run_move _ _ _).answer _ _ _ hrun
  have ht := hmove.transfer hc
  have hc' := hc.step hmove.step hwrap
  refine ⟨?_, ?_, ?_, ?_⟩
  · intro hne
    cases ht with
    | stay hs _ => exact absurd hs.activeTid hne
    | create _ ha _ _ _ => exact absurd ha hne
    | switch _ _ _ hb => exact (ho _ hne).symm.trans hb
  · intro he
    cases ht with
    | stay _ hc => exact hc
    | create _ _ _ hc _ => exact hc
    | switch ha _ _ _ => exact absurd he ha
  · intro g hg hne
    have hsaved := saved_of_mem hc.toScheduled hg
    cases ht with
    | stay hs _ =>
      rw [hs.saved]
      exact hsaved
    | create _ _ _ _ hs =>
      have hlt := hc.below g.tid (List.mem_map_of_mem hg)
      rw [hs, Function.update_of_ne (UInt32.ne_of_lt hlt)]
      exact hsaved
    | switch _ _ hs _ =>
      rw [hs, Function.update_of_ne hne]
      exact hsaved
  · intro g hg hne
    rw [← ho.transfer ht g.tid hne]
    exact saved_of_mem hc'.toScheduled hg

def childRuns : ThreadSet where
  nextTid := 3
  activeTid := 2
  threads := [⟨1, .runnable, 0, 0x7000, 0x9000, 0⟩, ⟨2, .runnable, 0, 0x0ff0, 0x3000, 0⟩]
  futicies := []

def mainRuns : ThreadSet where
  nextTid := 3
  activeTid := 1
  threads := [⟨1, .runnable, 0, 0x7000, 0x9000, 0⟩, ⟨2, .runnable, 0, 0x0e00, 0x3000, 0⟩]
  futicies := []

theorem switch_restores_registers_childRuns : ∃ owed, Traced childRuns ⟨0x0e00, 0x3000⟩ owed ∧
    exec (ThreadOp.run zeroMemory childRuns ⟨0x0e00, 0x3000⟩ .yield) () = (.ok (0, mainRuns, ⟨0x7000, 0x9000⟩), ()) ∧
    owed 1 = some ⟨0, 0x7000, 0x9000⟩ := by
  have hspawn : exec (ThreadOp.run zeroMemory new ⟨0x7000, 0x9000⟩ (.spawn 0x3000 0x1000 0x2000 0 0x5000)) () =
      (.ok (2, spawned, ⟨0x7000, 0x9000⟩), ()) := rfl
  have hyield : exec (ThreadOp.run zeroMemory spawned ⟨0x7000, 0x9000⟩ .yield) () =
      (.ok (0, childRuns, ⟨0x0ff0, 0x3000⟩), ()) := rfl
  have hback : exec (ThreadOp.run zeroMemory childRuns ⟨0x0e00, 0x3000⟩ .yield) () =
      (.ok (0, mainRuns, ⟨0x7000, 0x9000⟩), ()) := rfl
  have hrun : Traced childRuns ⟨0x0e00, 0x3000⟩ _ :=
    .guest (.syscall _ (.syscall _ (.new _) hspawn (by decide)) hyield (by decide)) _
  exact ⟨_, hrun, hback, (switch_restores_registers hrun .yield hback (by decide)).1 (by decide)⟩

end ThreadSet

end MiniBox
