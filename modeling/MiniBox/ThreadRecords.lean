import MiniBox.ThreadRuns

namespace MiniBox

open ByteStream Effects LinearTables Outcomes StreamReaders

namespace ThreadSet

variable {t u : ThreadSet}

theorem Scheduled.length_threads_le (h : t.Scheduled) : t.threads.length ≤ tableRoom := by
  have hle := length_le_of_nodup h.nodup fun tid htid => UInt32.lt_iff_toNat_lt.mp (h.below tid htid)
  rw [List.length_map] at hle
  have hlt := t.nextTid.toNat_lt
  unfold tableRoom
  omega

theorem Scheduled.length_waiters_le (h : t.Scheduled) : t.waiters.length ≤ tableRoom := by
  have hsub : t.waiters ⊆ t.threads.map GThread.tid := by
    intro tid htid
    obtain ⟨g, hg, rfl, -⟩ := mem_of_stateOf ((h.asleep tid).mp htid)
    exact List.mem_map_of_mem hg
  have hle := (h.once.subperm hsub).length_le
  rw [List.length_map] at hle
  exact hle.trans h.length_threads_le

theorem Scheduled.storable (h : t.Scheduled) : t.Storable where
  ordered := h.sorted.imp UInt32.le_of_lt
  addresses := h.addresses
  threads_fit := h.length_threads_le
  queues_fit := (length_futicies_le h.nonempty).trans h.length_waiters_le
  waiters_fit _ hq := (length_queue_le hq).trans h.length_waiters_le

theorem Scheduled.findMain (h : t.Scheduled) : (t.findThread 1).isSome := by
  obtain ⟨g, hg, hk⟩ := List.mem_map.mp h.main
  have hfound : t.findThread g.tid = some g := lookup_of_mem h.nodup hg
  rw [hk] at hfound
  rw [hfound]
  rfl

theorem save_accepted {c : Context} {w : Sink} (h : t.Scheduled) (ha : t.activeTid = 1) (hw : ∀ k, w.fails k = false) :
    ∃ w', t.save c w = .ok (0, t.parked c, w') ∧ w'.out = w.out ++ (t.parked c).stream := by
  obtain ⟨main, hmain⟩ := Option.isSome_iff_exists.mp h.findMain
  obtain ⟨w', hput⟩ := putAll_accepts w (t.parked c).saveChunks hw
  refine ⟨w', ?_, putAll_true w w' _ hput⟩
  unfold save
  rw [if_neg (not_not.mpr ha), hmain]
  simp only [hput]

theorem thread_set_round_trip {c c' : Context} {w : Sink} (ht : t.Consistent) (hta : t.activeTid = 1)
    (hua : u.activeTid = 1) (hw : ∀ k, w.fails k = false) :
    ∃ (t' : ThreadSet) (w' : Sink) (bytes : List UInt8), t.save c w = .ok (0, t', w') ∧ w'.out = w.out ++ bytes ∧
      t' = t.parked c ∧ ∀ (src : Source) (tail : List UInt8), src.rest = bytes ++ tail →
        ∃ v c'' src', u.load c' src = .ok (0, v, c'', src') ∧ src'.rest = tail ∧ v.nextTid = t.nextTid ∧
          v.activeTid = t.activeTid ∧ v.threads = t'.threads ∧ v.futicies = t.futicies ∧
          c''.guestRsp = c.guestRsp ∧ c''.threadArea = c.threadArea := by
  obtain ⟨w', hsave, hout⟩ := save_accepted (c := c) ht.toScheduled hta hw
  refine ⟨t.parked c, w', (t.parked c).stream, hsave, hout, rfl, fun src tail hsrc => ?_⟩
  obtain ⟨src', hload, hrest⟩ : ∃ src', u.load c' src = .ok (0, t.parked c, c, src') ∧ src'.rest = tail :=
    load_saved ht.storable ht.findMain hua hsrc
  exact ⟨_, _, src', hload, hrest, rfl, rfl, rfl, rfl, rfl, rfl⟩

def childWaits : ThreadSet where
  nextTid := 3
  activeTid := 1
  threads := [⟨1, .runnable, 0, 0, 0, 0⟩, ⟨2, .waiting, 0, 0x0ff0, 0x3000, 0⟩]
  futicies := [⟨0x4000, [2]⟩]

theorem childWaits_consistent : childWaits.Consistent := by
  have hspawn : exec (ThreadOp.run zeroMemory new ⟨0, 0⟩ (.spawn 0x3000 0x1000 0x2000 0 0x5000)) () =
      (.ok (2, spawned, ⟨0, 0⟩), ()) := rfl
  have hyield : exec (ThreadOp.run zeroMemory spawned ⟨0, 0⟩ .yield) () =
      (.ok (0, { spawned with activeTid := 2 }, ⟨0x0ff0, 0x3000⟩), ()) := rfl
  have hwait : exec (ThreadOp.run zeroMemory { spawned with activeTid := 2 } ⟨0x0ff0, 0x3000⟩ (.futexWait 0x4000 0)) () =
      (.ok (0, childWaits, ⟨0, 0⟩), ()) := rfl
  have hreach : Reachable childWaits :=
    .syscall _ (.syscall _ (.syscall _ .new hspawn (by decide)) hyield (by decide)) hwait (by decide)
  exact hreach.sound.1

theorem thread_set_round_trip_childWaits : ∃ (t' : ThreadSet) (w' : Sink) (bytes : List UInt8),
    childWaits.save ⟨0x7000, 0x8000⟩ Sink.accepting = .ok (0, t', w') ∧ w'.out = [] ++ bytes ∧
      ∃ v c'' src', new.load ⟨1, 2⟩ ⟨bytes, fun _ => 3, 0⟩ = .ok (0, v, c'', src') ∧ src'.rest = [] ∧
        v.threads = t'.threads ∧ v.futicies = [⟨0x4000, [2]⟩] := by
  obtain ⟨t', w', bytes, hsave, hout, -, hload⟩ := @thread_set_round_trip childWaits new ⟨0x7000, 0x8000⟩ ⟨1, 2⟩
    Sink.accepting childWaits_consistent rfl rfl fun _ => rfl
  obtain ⟨v, c'', src', hl, hrest, -, -, hthreads, hqueues, -⟩ :=
    hload ⟨bytes, fun _ => 3, 0⟩ [] (List.append_nil bytes).symm
  exact ⟨t', w', bytes, hsave, hout, v, c'', src', hl, hrest, hthreads, hqueues⟩

end ThreadSet

end MiniBox
