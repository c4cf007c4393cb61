import MiniBox.ThreadSteps
import MiniBox.ThreadInvariant
import MiniBox.Relational

namespace MiniBox

open Effects LinearTables Outcomes Relational

structure Registers where
  rax : UInt64
  rsp : UInt64
  threadArea : UInt64

def GThread.withRegisters (r : Registers) (g : GThread) : GThread :=
  { g with rax := r.rax, rsp := r.rsp, threadArea := r.threadArea }

namespace ThreadSet

def stale (t : ThreadSet) (r : Registers) : ThreadSet := t.modifyThread t.activeTid (.withRegisters r)

def Twin (t u : ThreadSet) : Prop := u = t ∨ t.activeTid ∈ t.threads.map GThread.tid ∧ ∃ r, u = t.stale r

variable {t u : ThreadSet} {r : Registers}

theorem Twin.refl (t : ThreadSet) : Twin t t := .inl rfl

theorem tids_stale : (t.stale r).threads.map GThread.tid = t.threads.map GThread.tid :=
  tids_modifyThread (by intro; rfl)

theorem isSome_stale {tid : UInt32} : ((t.stale r).findThread tid).isSome = (t.findThread tid).isSome := by
  rw [Bool.eq_iff_iff, isSome_findThread, isSome_findThread, tids_stale]

theorem modifyThread_stale {tid : UInt32} {f : GThread → GThread} (hf : ∀ g, (f g).tid = g.tid)
    (hc : ∀ g, f (g.withRegisters r) = (f g).withRegisters r) :
    (t.stale r).modifyThread tid f = (t.modifyThread tid f).stale r :=
  congrArg (fun l => { t with threads := l }) (adjust_comm hf (by intro; rfl) hc t.threads)

theorem findQueue_stale (addr : UInt64) : (t.stale r).findQueue addr = t.findQueue addr := rfl

theorem getOrMakeQueue_stale (addr : UInt64) :
    (t.stale r).getOrMakeQueue addr = (t.getOrMakeQueue addr).map fun u => (u.1.stale r, u.2) := by
  unfold getOrMakeQueue
  rw [findQueue_stale]
  cases t.findQueue addr with
  | some q => rfl
  | none =>
    change (grown t.futicies (t.futicies ++ [⟨addr, []⟩]) >>= fun l => .ok ({ t.stale r with futicies := l }, _)) =
      Except.map _ (grown t.futicies (t.futicies ++ [⟨addr, []⟩]) >>= fun l => .ok ({ t with futicies := l }, _))
    cases grown t.futicies (t.futicies ++ [⟨addr, []⟩]) <;> rfl

theorem queuePush_stale (addr : UInt64) (tid : UInt32) :
    (t.stale r).queuePush addr tid = (t.queuePush addr tid).map (stale · r) := by
  unfold queuePush
  rw [getOrMakeQueue_stale]
  cases t.getOrMakeQueue addr with
  | error e => rfl
  | ok u =>
    obtain ⟨t', q⟩ := u
    change (grown q.tids (q.tids ++ [tid]) >>= fun l => .ok ((t'.stale r).modifyQueue addr fun _ => l)) =
      Except.map _ (grown q.tids (q.tids ++ [tid]) >>= fun l => .ok (t'.modifyQueue addr fun _ => l))
    cases grown q.tids (q.tids ++ [tid]) <;> rfl

theorem unparkOne_stale (addr : UInt64) :
    (t.stale r).unparkOne addr = (t.unparkOne addr).map fun u => (u.1, u.2.1, u.2.2.stale r) := by
  unfold unparkOne
  rw [findQueue_stale]
  cases t.findQueue addr with
  | none => rfl
  | some q =>
    obtain ⟨a, tids⟩ := q
    cases tids with
    | nil => rfl
    | cons tid tids =>
      have hcomm : ((t.stale r).modifyQueue addr fun _ => tids).modifyThread tid (fun g => { g with state := .runnable }) =
          (((t.modifyQueue addr fun _ => tids).modifyThread tid fun g => { g with state := .runnable }).stale r) :=
        modifyThread_stale (t := t.modifyQueue addr fun _ => tids) (by intro; rfl) (by intro; rfl)
      simp only [hcomm]
      split_ifs <;> rfl

theorem nextRunnable_stale : (t.stale r).nextRunnable = t.nextRunnable := by
  unfold nextRunnable
  rw [Option.map_or, Option.map_or]
  congr 1
  · exact find?_adjust (by intro; rfl) (by intro; rfl) t.threads
  · exact find?_adjust (by intro; rfl) (by intro; rfl) t.threads

theorem swapTo_stale (c : Context) (tid : UInt32) (ret : UInt64) :
    (t.stale r).swapTo c tid ret = t.swapTo c tid ret := by
  have hover : (t.stale r).modifyThread t.activeTid
        (fun old => { old with rax := ret, rsp := c.guestRsp, threadArea := c.threadArea }) =
      t.modifyThread t.activeTid
        (fun old => { old with rax := ret, rsp := c.guestRsp, threadArea := c.threadArea }) :=
    congrArg (fun l => { t with threads := l }) (adjust_adjust (by intro; rfl) t.threads)
  have hsome : ((t.stale r).findThread t.activeTid).isSome = (t.findThread t.activeTid).isSome := isSome_stale
  have hact : (t.stale r).activeTid = t.activeTid := rfl
  unfold swapTo
  cases h : t.findThread t.activeTid with
  | none =>
    rw [h, Option.isSome_none, Option.isSome_eq_false_iff, Option.isNone_iff_eq_none] at hsome
    simp only [hact, hsome]
  | some g =>
    rw [h, Option.isSome_some, Option.isSome_iff_exists] at hsome
    obtain ⟨g', hg'⟩ := hsome
    simp only [hact, hg', hover]

theorem insertThread_stale {g : GThread} (h : t.activeTid ∈ t.threads.map GThread.tid) :
    (t.stale r).insertThread g = (t.insertThread g).map (stale · r) := by
  have hplace : place GThread.tid g (t.stale r).threads =
      adjust GThread.tid t.activeTid (.withRegisters r) (place GThread.tid g t.threads) :=
    place_adjust (by intro; rfl) h
  unfold insertThread
  rw [hplace]
  simp only [grown, stale, modifyThread, length_adjust]
  split_ifs <;> rfl

section Syscalls

theorem Twin.activeTid (h : Twin t u) : u.activeTid = t.activeTid := by
  rcases h with rfl | ⟨-, r, rfl⟩ <;> rfl

theorem Twin.nextTid (h : Twin t u) : u.nextTid = t.nextTid := by
  rcases h with rfl | ⟨-, r, rfl⟩ <;> rfl

theorem Twin.setNextTid (h : Twin t u) (n : UInt32) : Twin { t with nextTid := n } { u with nextTid := n } := by
  rcases h with rfl | ⟨hm, r, rfl⟩
  · exact .refl _
  · exact .inr ⟨hm, r, rfl⟩

theorem Twin.isSome_findThread (h : Twin t u) (tid : UInt32) :
    (u.findThread tid).isSome = (t.findThread tid).isSome := by
  rcases h with rfl | ⟨-, r, rfl⟩
  · rfl
  · exact isSome_stale

theorem Twin.tidAddress (h : Twin t u) (tid : UInt32) :
    (u.findThread tid).map GThread.tidAddress = (t.findThread tid).map GThread.tidAddress := by
  rcases h with rfl | ⟨-, r, rfl⟩
  · rfl
  · exact find?_adjust (by intro; rfl) (by intro; rfl) t.threads

theorem Twin.modifyThread {tid : UInt32} {f : GThread → GThread} (h : Twin t u) (hf : ∀ g, (f g).tid = g.tid)
    (hc : ∀ r g, f (GThread.withRegisters r g) = (f g).withRegisters r) :
    Twin (t.modifyThread tid f) (u.modifyThread tid f) := by
  rcases h with rfl | ⟨hm, r, rfl⟩
  · exact .refl _
  · refine .inr ⟨?_, r, modifyThread_stale hf (hc r)⟩
    rw [tids_modifyThread hf]
    exact hm

theorem twin_map {x : Except Crash ThreadSet} (h : ∀ t', x = .ok t' → t'.activeTid ∈ t'.threads.map GThread.tid) :
    SameOutcome Twin x (x.map (stale · r)) := by
  cases x with
  | error e => exact rfl
  | ok t' => exact .inr ⟨h t' rfl, r, rfl⟩

theorem Twin.queuePush (h : Twin t u) (addr : UInt64) (tid : UInt32) :
    SameOutcome Twin (t.queuePush addr tid) (u.queuePush addr tid) := by
  rcases h with rfl | ⟨hm, r, rfl⟩
  · exact sameOutcome_refl Twin.refl _
  · rw [queuePush_stale]
    apply twin_map
    intro t' h'
    rcases queuePush_cases h' with ⟨q, -, -, rfl⟩ | ⟨-, -, rfl⟩ <;> exact hm

theorem Twin.unparkOne (h : Twin t u) (addr : UInt64) :
    t.unparkOne addr = none ∧ u.unparkOne addr = none ∨
      ∃ tid more t' u', t.unparkOne addr = some (tid, more, t') ∧ u.unparkOne addr = some (tid, more, u') ∧
        Twin t' u' := by
  cases ht : t.unparkOne addr with
  | none =>
    refine .inl ⟨rfl, ?_⟩
    rcases h with rfl | ⟨hm, r, rfl⟩
    · exact ht
    · rw [unparkOne_stale, ht, Option.map_none]
  | some v =>
    obtain ⟨tid, more, t'⟩ := v
    rcases h with rfl | ⟨hm, r, rfl⟩
    · exact .inr ⟨tid, more, t', t', rfl, ht, .refl _⟩
    · refine .inr ⟨tid, more, t', t'.stale r, rfl, by rw [unparkOne_stale, ht, Option.map_some], .inr ⟨?_, r, rfl⟩⟩
      obtain ⟨tids, -, -, rfl⟩ := unparkOne_cases ht
      have htids : (t.modifyThread tid fun g => { g with state := .runnable }).threads.map GThread.tid =
          t.threads.map GThread.tid := tids_modifyThread (by intro; rfl)
      rw [← htids] at hm
      exact hm

theorem Twin.unparked (h : Twin t u) (addr : UInt64) : Twin (t.unparked addr) (u.unparked addr) := by
  unfold ThreadSet.unparked
  rcases h.unparkOne addr with ⟨ht, hu⟩ | ⟨tid, more, t', u', ht, hu, h'⟩
  · rw [ht, hu]
    exact h
  · rw [ht, hu]
    exact h'

theorem Twin.parkOther (h : Twin t u) (addr : UInt64) (tid : UInt32) :
    SameOutcome Twin (t.parkOther addr tid) (u.parkOther addr tid) := by
  unfold ThreadSet.parkOther
  refine sameOutcome_bind (h.queuePush addr tid) ?_
  intro t₁ u₁ h₁
  have hsome := h₁.isSome_findThread tid
  cases ht : t₁.findThread tid with
  | none =>
    rw [ht, Option.isSome_none, Option.isSome_eq_false_iff, Option.isNone_iff_eq_none] at hsome
    rw [hsome]
    exact rfl
  | some g =>
    rw [ht, Option.isSome_some, Option.isSome_iff_exists] at hsome
    obtain ⟨g', hg'⟩ := hsome
    rw [hg']
    exact h₁.modifyThread (by intro; rfl) (by intros; rfl)

theorem Twin.swapTo (h : Twin t u) (c : Context) (tid : UInt32) (ret : UInt64) :
    u.swapTo c tid ret = t.swapTo c tid ret := by
  rcases h with rfl | ⟨-, r, rfl⟩
  · rfl
  · exact swapTo_stale c tid ret

def Alike (u v : UInt64 × ThreadSet × Context) : Prop := u.1 = v.1 ∧ Twin u.2.1 v.2.1 ∧ u.2.2 = v.2.2

theorem Alike.refl (u : UInt64 × ThreadSet × Context) : Alike u u := ⟨rfl, .refl _, rfl⟩

theorem Twin.swapToNext (h : Twin t u) (c : Context) (ret : UInt64) :
    SameOutcome Alike (t.swapToNext c ret) (u.swapToNext c ret) := by
  have hnext : u.nextRunnable = t.nextRunnable := by
    rcases h with rfl | ⟨-, r, rfl⟩
    · rfl
    · exact nextRunnable_stale
  unfold ThreadSet.swapToNext
  rw [hnext]
  cases t.nextRunnable with
  | none => exact rfl
  | some best =>
    simp only [h.activeTid, h.swapTo]
    split_ifs
    · exact ⟨rfl, h, rfl⟩
    · exact sameOutcome_refl Alike.refl _

theorem Twin.parkMe (h : Twin t u) (c : Context) (ret addr : UInt64) :
    SameOutcome Alike (t.parkMe c ret addr) (u.parkMe c ret addr) := by
  unfold ThreadSet.parkMe
  rw [h.activeTid]
  exact sameOutcome_bind (h.parkOther addr _) fun t₁ u₁ h₁ => h₁.swapToNext c ret

theorem Twin.requeueLoop (h : Twin t u) (src dst : UInt64) (n wake : ℕ) (count : ℤ) :
    SameOutcome (fun x y => x.1 = y.1 ∧ Twin x.2 y.2) (requeueLoop src dst n wake t count)
      (requeueLoop src dst n wake u count) := by
  induction n generalizing t u wake count with
  | zero => exact ⟨rfl, h⟩
  | succ n ih =>
    unfold ThreadSet.requeueLoop
    rcases h.unparkOne src with ⟨ht, hu⟩ | ⟨tid, more, t', u', ht, hu, h'⟩
    · rw [ht, hu]
      exact ⟨rfl, h⟩
    · rw [ht, hu]
      refine sameOutcome_bind (Q := Twin) ?_ ?_
      · split_ifs
        · exact h'
        · exact h'.parkOther dst tid
      · intro t₁ u₁ h₁
        cases more with
        | true => exact ih h₁ (wake - 1) (count + 1)
        | false => exact ⟨rfl, h₁⟩

theorem Twin.insertThread (h : Twin t u) (g : GThread) :
    SameOutcome Twin (t.insertThread g) (u.insertThread g) := by
  rcases h with rfl | ⟨hm, r, rfl⟩
  · exact sameOutcome_refl Twin.refl _
  · rw [insertThread_stale hm]
    apply twin_map
    intro t' h'
    obtain ⟨l, hl, hr⟩ := bind_ok h'
    obtain ⟨-, rfl⟩ := grown_ok hl
    cases hr
    exact (perm_place.map GThread.tid).mem_iff.mpr (List.mem_cons_of_mem _ hm)

theorem Twin.removeThread (h : Twin t u) {tid : UInt32} (hne : tid ≠ t.activeTid) :
    Twin (t.removeThread tid) (u.removeThread tid) := by
  rcases h with rfl | ⟨hm, r, rfl⟩
  · exact .refl _
  · have hkeep : ∀ g, (GThread.withRegisters r g).tid = g.tid := fun _ => rfl
    refine .inr ⟨mem_discard_of_ne hne.symm hm, r, ?_⟩
    exact congrArg (fun l => { t with threads := l }) (discard_adjust_of_ne hkeep hne)

theorem Twin.setTidAddress (h : Twin t u) (addr : UInt64) :
    SameOutcome (fun x y => x.1 = y.1 ∧ Twin x.2 y.2) (t.setTidAddress addr) (u.setTidAddress addr) := by
  have hsome := h.isSome_findThread t.activeTid
  unfold ThreadSet.setTidAddress
  rw [h.activeTid]
  cases ht : t.findThread t.activeTid with
  | none =>
    rw [ht, Option.isSome_none, Option.isSome_eq_false_iff, Option.isNone_iff_eq_none] at hsome
    rw [hsome]
    exact rfl
  | some g =>
    rw [ht, Option.isSome_some, Option.isSome_iff_exists] at hsome
    obtain ⟨g', hg'⟩ := hsome
    rw [hg']
    exact ⟨(lookup_key ht).trans (lookup_key hg').symm, h.modifyThread (by intro; rfl) (by intros; rfl)⟩

end Syscalls

end ThreadSet

end MiniBox
