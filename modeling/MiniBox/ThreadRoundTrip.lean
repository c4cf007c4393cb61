import MiniBox.ThreadStream
import MiniBox.ThreadSyscalls

namespace MiniBox

open ByteStream Effects LinearTables Outcomes StreamReaders

namespace ThreadSet

structure Storable (t : ThreadSet) : Prop where
  ordered : (t.threads.map GThread.tid).Pairwise (· ≤ ·)
  addresses : (t.futicies.map FutexQueue.addr).Nodup
  threads_fit : t.threads.length ≤ tableRoom
  queues_fit : t.futicies.length ≤ tableRoom
  waiters_fit : ∀ q ∈ t.futicies, q.tids.length ≤ tableRoom

variable {t t' : ThreadSet}

theorem consumes_loadThread {g : GThread} (hmax : ∀ x ∈ t.threads, ¬ g.tid < x.tid)
    (hroom : t.threads.length < tableRoom) :
    Consumes loadThread t g.bytes () { t with threads := t.threads ++ [g] } := by
  obtain ⟨x, hx⟩ := exists_ofFn g.length_bytes
  rw [← List.append_nil g.bytes]
  apply consumes_bind (a := x)
  · rw [← hx]
    exact consumes_readBytes x t
  · apply consumes_updating
    rw [hx, GThread.ofBytes_bytes, insertThread_last hmax, grown, if_pos hroom]
    rfl

theorem consumes_loadTid {done : List FutexQueue} {addr : UInt64} {tids : List UInt32} {tid : UInt32}
    (hnew : addr ∉ done.map FutexQueue.addr) (hroom : tids.length < tableRoom) :
    Consumes (loadTid addr) { t with futicies := done ++ [⟨addr, tids⟩] } (le32 tid) ()
      { t with futicies := done ++ [⟨addr, tids ++ [tid]⟩] } := by
  have hnone : lookup FutexQueue.addr addr done = none := lookup_eq_none.mpr hnew
  have hfound : findQueue { t with futicies := done ++ [⟨addr, tids⟩] } addr = some ⟨addr, tids⟩ := by
    unfold findQueue
    rw [lookup_append, hnone, lookup_cons, if_pos rfl]
    rfl
  rw [← List.append_nil (le32 tid)]
  apply consumes_bind (consumes_readU32 tid _)
  apply consumes_updating
  unfold queuePush getOrMakeQueue
  rw [hfound]
  simp only [ok_bind, grown, hroom, ↓reduceIte, modifyQueue, adjust_append hnone]
  simp [adjust, pure, Except.pure]

theorem consumes_loadQueue {q : FutexQueue} (hnew : q.addr ∉ t.futicies.map FutexQueue.addr)
    (hroom : t.futicies.length < tableRoom) (hfit : q.tids.length ≤ tableRoom) :
    Consumes loadQueue t q.chunks.flatten () { t with futicies := t.futicies ++ [q] } := by
  have hmake : (t.getOrMakeQueue q.addr).map Prod.fst = .ok { t with futicies := t.futicies ++ [⟨q.addr, []⟩] } := by
    unfold getOrMakeQueue findQueue
    rw [lookup_eq_none.mpr hnew]
    simp only [grown, hroom, ↓reduceIte, ok_bind]
    rfl
  rw [flatten_chunks hfit]
  apply consumes_bind (consumes_readU64 q.addr t)
  apply consumes_bind (consumes_readU32 (count32 q.tids) t)
  apply consumes_updating_bind hmake
  rw [toNat_count32 hfit]
  apply consumes_times (fun l : List UInt32 =>
    ThreadSet.mk t.nextTid t.activeTid t.threads (t.futicies ++ [FutexQueue.mk q.addr l])) q.tids
  intro done tid todo hl
  apply consumes_loadTid hnew
  have : done.length < q.tids.length := by simp [hl]
  omega

def stream (t : ThreadSet) : List UInt8 := t.saveChunks.flatten

theorem stream_eq (t : ThreadSet) :
    t.stream = threadMagic ++ (le32 t.nextTid ++ (le32 t.activeTid ++ (le32 (count32 t.threads) ++
      (t.threads.flatMap GThread.bytes ++ (le32 (count32 t.futicies) ++
        (t.futicies.flatMap (fun q => q.chunks.flatten) ++ threadMagic)))))) := by
  have hq : (t.futicies.flatMap FutexQueue.chunks).flatten = t.futicies.flatMap fun q => q.chunks.flatten := by
    rw [List.flatMap_def, List.flatten_flatten, List.map_map, List.flatMap_def]
    rfl
  simp only [stream, saveChunks, List.flatten_append, List.flatten_cons, List.flatten_nil, List.append_nil, hq,
    List.append_assoc, ← List.flatMap_def]

theorem consumes_loadBody (h : t.Storable) (u : ThreadSet) : Consumes loadBody u t.stream () t := by
  rw [stream_eq]
  apply consumes_bind (consumes_expect threadMagic u)
  apply consumes_bind
  · apply consumes_reading
    intro src tail hs
    exact rdU32_of u.nextTid t.nextTid src tail hs
  apply consumes_bind
  · apply consumes_reading
    intro src tail hs
    exact rdU32_of u.activeTid t.activeTid src tail hs
  apply consumes_bind (consumes_readU32 (count32 t.threads) _)
  apply consumes_updating_bind
  · rfl
  rw [toNat_count32 h.threads_fit]
  apply consumes_bind
  · apply consumes_times (fun l : List GThread => ThreadSet.mk t.nextTid t.activeTid l u.futicies) t.threads
    intro done g todo hl
    apply consumes_loadThread (t := ThreadSet.mk t.nextTid t.activeTid done u.futicies)
    · have hord := h.ordered
      rw [hl, List.map_append, List.pairwise_append] at hord
      intro x hx
      exact UInt32.not_lt.mpr (hord.2.2 x.tid (List.mem_map_of_mem hx) g.tid (by simp))
    · have hfit := h.threads_fit
      rw [hl, List.length_append, List.length_cons] at hfit
      change done.length < _
      omega
  apply consumes_updating_bind
  · rfl
  apply consumes_bind (consumes_readU32 (count32 t.futicies) _)
  rw [toNat_count32 h.queues_fit]
  apply consumes_bind
  · apply consumes_times (fun l : List FutexQueue => ThreadSet.mk t.nextTid t.activeTid t.threads l) t.futicies
    intro done q todo hl
    apply consumes_loadQueue (t := ThreadSet.mk t.nextTid t.activeTid t.threads done)
    · have hadd := h.addresses
      rw [hl, List.map_append, List.nodup_append] at hadd
      intro hmem
      exact hadd.2.2 q.addr hmem q.addr (by simp) rfl
    · have hfit := h.queues_fit
      rw [hl, List.length_append, List.length_cons] at hfit
      change done.length < _
      omega
    · exact h.waiters_fit q (by simp [hl])
  exact consumes_expect threadMagic t

theorem Storable.modifyThread (h : t.Storable) {tid : UInt32} {f : GThread → GThread}
    (hf : ∀ g, (f g).tid = g.tid) : (t.modifyThread tid f).Storable where
  ordered := by rw [tids_modifyThread hf]; exact h.ordered
  addresses := h.addresses
  threads_fit := (length_adjust t.threads).trans_le h.threads_fit
  queues_fit := h.queues_fit
  waiters_fit := h.waiters_fit

theorem save_cases {c : Context} {w w' : Sink} (h : t.save c w = .ok (0, t', w')) :
    t.activeTid = 1 ∧ (t.findThread 1).isSome ∧ t' = t.parked c ∧ w'.out = w.out ++ t'.stream := by
  unfold save at h
  by_cases ha : t.activeTid ≠ 1
  · rw [if_pos ha] at h
    cases h
  · rw [if_neg ha] at h
    cases hf : t.findThread 1 with
    | none =>
      rw [hf] at h
      cases h
    | some main =>
      simp only [hf] at h
      cases hp : w.putAll (t.parked c).saveChunks with
      | mk ok w₁ =>
        rw [hp] at h
        cases ok with
        | false => cases h
        | true =>
          cases h
          exact ⟨not_not.mp ha, rfl, rfl, putAll_true w w' _ hp⟩

theorem load_saved {c c' : Context} {u : ThreadSet} {src : Source} {tail : List UInt8} (h : t.Storable)
    (hmain : (t.findThread 1).isSome) (hu : u.activeTid = 1) (hsrc : src.rest = (t.parked c).stream ++ tail) :
    ∃ src', u.load c' src = .ok (0, t.parked c, c, src') ∧ src'.rest = tail := by
  have hs : (t.parked c).Storable := h.modifyThread (by intro; rfl)
  obtain ⟨src', hrun, hrest⟩ := (consumes_loadBody hs u).run src tail hsrc
  obtain ⟨main, hm⟩ := Option.isSome_iff_exists.mp hmain
  have hfound : (t.parked c).findThread 1 = some { main with threadArea := c.threadArea, rsp := c.guestRsp } := by
    unfold findThread at hm
    unfold findThread parked ThreadSet.modifyThread
    rw [lookup_adjust (by intro; rfl), if_pos rfl, hm]
    rfl
  refine ⟨src', ?_, hrest⟩
  unfold load
  rw [if_neg (not_not.mpr hu), hrun]
  simp only [hfound]

end ThreadSet

end MiniBox
