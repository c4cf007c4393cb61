import MiniBox.StreamCuts
import MiniBox.ThreadRecords

namespace MiniBox

open ByteStream Effects LinearTables Outcomes StreamReaders

def FutexQueue.bytes (q : FutexQueue) : List UInt8 := le64 q.addr ++ (le32 (count32 q.tids) ++ q.tids.flatMap le32)

namespace ThreadSet

def sorted (gs : List GThread) : List GThread := gs.foldl (fun l g => place GThread.tid g l) []

def mergeQueue (queues : List FutexQueue) (q : FutexQueue) : List FutexQueue :=
  adjust FutexQueue.addr q.addr (fun p => { p with tids := p.tids ++ q.tids })
    (if q.addr ∈ queues.map FutexQueue.addr then queues else queues ++ [⟨q.addr, []⟩])

def merged (qs : List FutexQueue) : List FutexQueue := qs.foldl mergeQueue []

structure Parts where
  next : List UInt8
  active : List UInt8
  threads : Option (List GThread)
  queues : Option (List FutexQueue)
  complete : Bool

def header (n a nt : UInt32) (gs : List GThread) (rest : List UInt8) : List UInt8 :=
  threadMagic ++ (le32 n ++ (le32 a ++ (le32 nt ++ (gs.flatMap GThread.bytes ++ rest))))

inductive Scan : List UInt8 → Parts → Prop
  | start {bytes : List UInt8} (h : ¬ threadMagic <+: bytes) : Scan bytes ⟨[], [], none, none, false⟩
  | next {p : List UInt8} (h : p.length < 4) : Scan (threadMagic ++ p) ⟨p, [], none, none, false⟩
  | active {n : UInt32} {p : List UInt8} (h : p.length < 4) :
    Scan (threadMagic ++ (le32 n ++ p)) ⟨le32 n, p, none, none, false⟩
  | count {n a : UInt32} {p : List UInt8} (h : p.length < 4) :
    Scan (threadMagic ++ (le32 n ++ (le32 a ++ p))) ⟨le32 n, le32 a, none, none, false⟩
  | threads {n a nt : UInt32} {gs : List GThread} {p : List UInt8} (hlt : gs.length < nt.toNat) (h : p.length < 40) :
    Scan (header n a nt gs p) ⟨le32 n, le32 a, some gs, none, false⟩
  | queueCount {n a nt : UInt32} {gs : List GThread} {p : List UInt8} (hgs : gs.length = nt.toNat) (h : p.length < 4) :
    Scan (header n a nt gs p) ⟨le32 n, le32 a, some gs, some [], false⟩
  | queue {n a nt nf : UInt32} {gs : List GThread} {qs : List FutexQueue} {p : List UInt8} (hgs : gs.length = nt.toNat)
    (hlt : qs.length < nf.toNat) (hfit : ∀ q ∈ qs, q.tids.length ≤ tableRoom) (h : p.length < 12) :
    Scan (header n a nt gs (le32 nf ++ (qs.flatMap FutexQueue.bytes ++ p))) ⟨le32 n, le32 a, some gs, some qs, false⟩
  | tids {n a nt nf qn : UInt32} {gs : List GThread} {qs : List FutexQueue} {addr : UInt64} {tids : List UInt32}
    {p : List UInt8} (hgs : gs.length = nt.toNat) (hlt : qs.length < nf.toNat)
    (hfit : ∀ q ∈ qs, q.tids.length ≤ tableRoom) (ht : tids.length < qn.toNat) (h : p.length < 4) :
    Scan (header n a nt gs (le32 nf ++ (qs.flatMap FutexQueue.bytes ++
      (le64 addr ++ (le32 qn ++ (tids.flatMap le32 ++ p))))))
      ⟨le32 n, le32 a, some gs, some (qs ++ [⟨addr, tids⟩]), false⟩
  | finish {n a nt nf : UInt32} {gs : List GThread} {qs : List FutexQueue} {p : List UInt8} (hgs : gs.length = nt.toNat)
    (hqs : qs.length = nf.toNat) (hfit : ∀ q ∈ qs, q.tids.length ≤ tableRoom) (h : ¬ threadMagic <+: p) :
    Scan (header n a nt gs (le32 nf ++ (qs.flatMap FutexQueue.bytes ++ p))) ⟨le32 n, le32 a, some gs, some qs, false⟩
  | complete {n a nt nf : UInt32} {gs : List GThread} {qs : List FutexQueue} {tail : List UInt8}
    (hgs : gs.length = nt.toNat) (hqs : qs.length = nf.toNat) (hfit : ∀ q ∈ qs, q.tids.length ≤ tableRoom) :
    Scan (header n a nt gs (le32 nf ++ (qs.flatMap FutexQueue.bytes ++ (threadMagic ++ tail))))
      ⟨le32 n, le32 a, some gs, some qs, true⟩

section Totality

theorem word_ofWord (v : UInt32) : (TState.ofWord v).word = v := by
  unfold TState.ofWord
  split_ifs with h1 h2
  · rfl
  · exact h2.symm
  · have hv : v.toNat < 2 := by
      rw [UInt32.not_le] at h1
      exact UInt32.lt_iff_toNat_lt.mp h1
    have h0 : v.toNat ≠ 0 := fun h => h2 (UInt32.toNat_inj.mp h)
    apply UInt32.toNat_inj.mp
    change 1 = v.toNat
    omega

theorem exists_thread {l : List UInt8} (h : 40 ≤ l.length) : ∃ g rest, l = GThread.bytes g ++ rest := by
  obtain ⟨tid, l, rfl⟩ := exists_le32 (l := l) (by omega)
  simp only [List.length_append, length_le32] at h
  obtain ⟨state, l, rfl⟩ := exists_le32 (l := l) (by omega)
  simp only [List.length_append, length_le32] at h
  obtain ⟨rax, l, rfl⟩ := exists_le64 (l := l) (by omega)
  simp only [List.length_append, length_le64] at h
  obtain ⟨rsp, l, rfl⟩ := exists_le64 (l := l) (by omega)
  simp only [List.length_append, length_le64] at h
  obtain ⟨area, l, rfl⟩ := exists_le64 (l := l) (by omega)
  simp only [List.length_append, length_le64] at h
  obtain ⟨addr, l, rfl⟩ := exists_le64 (l := l) (by omega)
  refine ⟨⟨tid, TState.ofWord state, rax, rsp, area, addr⟩, l, ?_⟩
  simp only [GThread.bytes, word_ofWord, List.append_assoc]

def CutQueue (l : List UInt8) : Prop :=
  l.length < 12 ∨ ∃ (addr : UInt64) (qn : UInt32) (tids : List UInt32) (p : List UInt8),
    tids.length < qn.toNat ∧ p.length < 4 ∧ l = le64 addr ++ (le32 qn ++ (tids.flatMap le32 ++ p))

abbrev Fitting := { q : FutexQueue // q.tids.length ≤ tableRoom }

theorem exists_queue (l : List UInt8) :
    (∃ (q : Fitting) (rest : List UInt8), l = q.val.bytes ++ rest) ∨ CutQueue l := by
  by_cases hlen : l.length < 12
  · exact Or.inr (Or.inl hlen)
  obtain ⟨addr, l, rfl⟩ := exists_le64 (l := l) (by omega)
  simp only [List.length_append, length_le64] at hlen
  obtain ⟨qn, l, rfl⟩ := exists_le32 (l := l) (by omega)
  have hword : ∀ l : List UInt8, (∃ x rest, l = le32 x ++ rest) ∨ l.length < 4 := by
    intro l
    by_cases h : l.length < 4
    · exact Or.inr h
    · exact Or.inl (exists_le32 (by omega))
  rcases split_times hword qn.toNat l with ⟨tids, rest, ht, rfl⟩ | ⟨tids, p, ht, hp, rfl⟩
  · have hqn : count32 tids = qn := by
      rw [count32, ht]
      exact UInt32.ofNat_toNat
    have hfit : tids.length ≤ tableRoom := by
      have := qn.toNat_lt
      unfold tableRoom
      omega
    refine Or.inl ⟨⟨⟨addr, tids⟩, hfit⟩, rest, ?_⟩
    simp only [FutexQueue.bytes, hqn, List.append_assoc]
  · exact Or.inr (Or.inr ⟨addr, qn, tids, p, ht, hp, rfl⟩)

theorem exists_scan (bytes : List UInt8) : ∃ r, Scan bytes r := by
  by_cases hm : threadMagic <+: bytes
  swap
  · exact ⟨_, .start hm⟩
  obtain ⟨l, rfl⟩ := hm
  by_cases h4 : l.length < 4
  · exact ⟨_, .next h4⟩
  obtain ⟨n, l, rfl⟩ := exists_le32 (l := l) (by omega)
  by_cases h4 : l.length < 4
  · exact ⟨_, .active h4⟩
  obtain ⟨a, l, rfl⟩ := exists_le32 (l := l) (by omega)
  by_cases h4 : l.length < 4
  · exact ⟨_, .count h4⟩
  obtain ⟨nt, l, rfl⟩ := exists_le32 (l := l) (by omega)
  have hthread : ∀ l : List UInt8, (∃ g rest, l = GThread.bytes g ++ rest) ∨ l.length < 40 := by
    intro l
    by_cases h : l.length < 40
    · exact Or.inr h
    · exact Or.inl (exists_thread (by omega))
  rcases split_times hthread nt.toNat l with ⟨gs, l, hgs, rfl⟩ | ⟨gs, p, hgs, hp, rfl⟩
  swap
  · exact ⟨_, .threads hgs hp⟩
  by_cases h4 : l.length < 4
  · exact ⟨_, .queueCount hgs h4⟩
  obtain ⟨nf, l, rfl⟩ := exists_le32 (l := l) (by omega)
  have hbytes : ∀ qs : List Fitting, qs.flatMap (fun q => q.val.bytes) =
      (qs.map Subtype.val).flatMap FutexQueue.bytes := fun qs => (List.flatMap_map ..).symm
  have hfit : ∀ qs : List Fitting, ∀ q ∈ qs.map Subtype.val, q.tids.length ≤ tableRoom := by
    intro qs q hq
    obtain ⟨q, -, rfl⟩ := List.mem_map.mp hq
    exact q.property
  rcases split_times exists_queue nf.toNat l with ⟨qs, l, hqs, rfl⟩ | ⟨qs, p, hqs, hp, rfl⟩
  · rw [hbytes]
    rw [← List.length_map Subtype.val] at hqs
    by_cases hm : threadMagic <+: l
    · obtain ⟨tail, rfl⟩ := hm
      exact ⟨_, .complete hgs hqs (hfit qs)⟩
    · exact ⟨_, .finish hgs hqs (hfit qs) hm⟩
  · rw [hbytes]
    rw [← List.length_map Subtype.val] at hqs
    rcases hp with hp | ⟨addr, qn, tids, p, ht, hp, rfl⟩
    · exact ⟨_, .queue hgs hqs (hfit qs) hp⟩
    · exact ⟨_, .tids hgs hqs (hfit qs) ht hp⟩

end Totality

section Outcome

variable {D : Prop} {t : ThreadSet} {p : List UInt8}

abbrev loadNext : Reader Crash ThreadSet UInt32 :=
  reading (fun t src => rdU32 t.nextTid src) fun t v => { t with nextTid := v }

abbrev loadActive : Reader Crash ThreadSet UInt32 :=
  reading (fun t src => rdU32 t.activeTid src) fun t v => { t with activeTid := v }

theorem consumes_next (n : UInt32) : Consumes loadNext t (le32 n) n { t with nextTid := n } := by
  apply consumes_reading
  intro src tail hs
  exact rdU32_of t.nextTid n src tail hs

theorem consumes_active (a : UInt32) : Consumes loadActive t (le32 a) a { t with activeTid := a } := by
  apply consumes_reading
  intro src tail hs
  exact rdU32_of t.activeTid a src tail hs

theorem rdU32_short {x : UInt32} {src : Source} (hsrc : src.rest = p) (h : p.length < 4) :
    (rdU32 x src).1 = false ∧ (rdU32 x src).2.1 = patched u32Coding x p := by
  rw [rdU32, rd_fst, rd_buf, hsrc, List.take_of_length_le (by omega)]
  exact ⟨decide_eq_false (by omega), rfl⟩

theorem refuses_next (h : p.length < 4) : Refuses D loadNext t p { t with nextTid := patched u32Coding t.nextTid p } := by
  apply refuses_reading
  intro src hsrc
  exact rdU32_short hsrc h

theorem refuses_active (h : p.length < 4) :
    Refuses D loadActive t p { t with activeTid := patched u32Coding t.activeTid p } := by
  apply refuses_reading
  intro src hsrc
  exact rdU32_short hsrc h

section Threads

theorem length_sorted (gs : List GThread) : (sorted gs).length = gs.length := by
  unfold sorted
  suffices h : ∀ l : List GThread, (gs.foldl (fun l g => place GThread.tid g l) l).length = l.length + gs.length by
    simpa using h []
  induction gs with
  | nil => simp
  | cons g gs ih =>
    intro l
    rw [List.foldl_cons, ih, perm_place.length_eq, List.length_cons, List.length_cons]
    omega

theorem sorted_append (gs : List GThread) (g : GThread) : sorted (gs ++ [g]) = place GThread.tid g (sorted gs) := by
  unfold sorted
  rw [List.foldl_append]
  rfl

theorem consumes_insert {g : GThread} (hroom : t.threads.length < tableRoom) :
    Consumes loadThread t g.bytes () { t with threads := place GThread.tid g t.threads } := by
  obtain ⟨x, hx⟩ := exists_ofFn g.length_bytes
  rw [← List.append_nil g.bytes]
  apply consumes_bind (a := x)
  · rw [← hx]
    exact consumes_readBytes x t
  · apply consumes_updating
    rw [hx, GThread.ofBytes_bytes, insertThread, grown, if_pos hroom]
    rfl

def withThreads (t : ThreadSet) (gs : List GThread) : ThreadSet := { t with threads := sorted gs }

theorem takes_thread {gs : List GThread} {n : ℕ} (hn : gs.length ≤ n) (hroom : n ≤ tableRoom) :
    ∀ done g todo tail, gs = done ++ g :: todo →
      Takes D loadThread (t.withThreads done) (GThread.bytes g ++ tail) () (t.withThreads (done ++ [g])) tail := by
  intro done g todo tail hl
  have hlen : (t.withThreads done).threads.length < tableRoom := by
    have hdone : done.length < gs.length := by simp [hl]
    change (sorted done).length < _
    rw [length_sorted]
    omega
  have hstate : t.withThreads (done ++ [g]) =
      { t.withThreads done with threads := place GThread.tid g (sorted done) } := by
    rw [withThreads, sorted_append]
    rfl
  rw [hstate]
  exact (consumes_insert hlen).takes tail

end Threads

section Queues

def Crowded (queues : List FutexQueue) : Prop := ∃ q ∈ queues, tableRoom < q.tids.length

variable {queues : List FutexQueue} {addr : UInt64} {l : List UInt32}

def made (queues : List FutexQueue) (addr : UInt64) : List FutexQueue :=
  if addr ∈ queues.map FutexQueue.addr then queues else queues ++ [⟨addr, []⟩]

theorem mergeQueue_eq (queues : List FutexQueue) (addr : UInt64) (l : List UInt32) :
    mergeQueue queues ⟨addr, l⟩ =
      adjust FutexQueue.addr addr (fun p => { p with tids := p.tids ++ l }) (made queues addr) := rfl

theorem mergeQueue_nil : mergeQueue queues ⟨addr, []⟩ = made queues addr := by
  rw [mergeQueue_eq]
  simp only [List.append_nil]
  exact adjust_id _

theorem mergeQueue_append (l' : List UInt32) : mergeQueue queues ⟨addr, l ++ l'⟩ =
    adjust FutexQueue.addr addr (fun p => { p with tids := p.tids ++ l' }) (mergeQueue queues ⟨addr, l⟩) := by
  rw [mergeQueue_eq, mergeQueue_eq, adjust_adjust (by intro; rfl)]
  congr 1
  funext p
  simp

theorem exists_made (queues : List FutexQueue) (addr : UInt64) :
    ∃ q, lookup FutexQueue.addr addr (made queues addr) = some q := by
  apply Option.isSome_iff_exists.mp
  rw [isSome_lookup, made]
  split_ifs with h
  · exact h
  · simp

theorem lookup_mergeQueue : ∃ q, lookup FutexQueue.addr addr (mergeQueue queues ⟨addr, l⟩) = some q := by
  obtain ⟨q, hq⟩ := exists_made queues addr
  rw [mergeQueue_eq, lookup_adjust (by intro; rfl), if_pos rfl, hq]
  exact ⟨_, rfl⟩

theorem Crowded.adjust (h : Crowded queues) (addr : UInt64) (l : List UInt32) :
    Crowded (adjust FutexQueue.addr addr (fun p => { p with tids := p.tids ++ l }) queues) := by
  obtain ⟨q, hq, hlen⟩ := h
  have hor : q ∈ LinearTables.adjust FutexQueue.addr addr (fun p => { p with tids := p.tids ++ l }) queues ∨ _ :=
    mem_adjust_or hq
  rcases hor with h | h
  · exact ⟨q, h, hlen⟩
  · refine ⟨_, h, ?_⟩
    rw [List.length_append]
    omega

theorem Crowded.merge (h : Crowded queues) (q : FutexQueue) : Crowded (mergeQueue queues q) := by
  apply Crowded.adjust
  obtain ⟨q', hq', hlen⟩ := h
  refine ⟨q', ?_, hlen⟩
  split_ifs
  · exact hq'
  · exact List.mem_append_left _ hq'

theorem Crowded.merged {qs : List FutexQueue} (h : Crowded (merged qs)) (rest : List FutexQueue) :
    Crowded (ThreadSet.merged (qs ++ rest)) := by
  unfold ThreadSet.merged at h ⊢
  rw [List.foldl_append]
  generalize qs.foldl mergeQueue [] = queues at h
  induction rest generalizing queues with
  | nil => exact h
  | cons q rest ih => exact ih _ (h.merge q)

theorem length_made_le (queues : List FutexQueue) (addr : UInt64) : (made queues addr).length ≤ queues.length + 1 := by
  unfold made
  split_ifs
  · omega
  · simp

theorem length_merged_le (qs : List FutexQueue) : (merged qs).length ≤ qs.length := by
  unfold merged
  suffices h : ∀ queues : List FutexQueue, (qs.foldl mergeQueue queues).length ≤ queues.length + qs.length by
    simpa using h []
  induction qs with
  | nil => simp
  | cons q qs ih =>
    intro queues
    have h := ih (mergeQueue queues q)
    have hlen : (mergeQueue queues q).length ≤ queues.length + 1 := by
      rw [mergeQueue, length_adjust]
      exact length_made_le queues q.addr
    rw [List.foldl_cons, List.length_cons]
    omega

theorem merged_append (qs : List FutexQueue) (q : FutexQueue) : merged (qs ++ [q]) = mergeQueue (merged qs) q := by
  unfold merged
  rw [List.foldl_append]
  rfl

def withQueues (t : ThreadSet) (queues : List FutexQueue) : ThreadSet := { t with futicies := queues }

theorem takes_loadTid {tid : UInt32} (hd : Crowded (mergeQueue queues ⟨addr, l ++ [tid]⟩) → D) (tail : List UInt8) :
    Takes D (loadTid addr) (t.withQueues (mergeQueue queues ⟨addr, l⟩)) (le32 tid ++ tail) ()
      (t.withQueues (mergeQueue queues ⟨addr, l ++ [tid]⟩)) tail := by
  obtain ⟨q, hq⟩ : ∃ q, lookup FutexQueue.addr addr (mergeQueue queues ⟨addr, l⟩) = some q := lookup_mergeQueue
  apply takes_bind ((consumes_readU32 tid _).takes tail)
  have hpush : (t.withQueues (mergeQueue queues ⟨addr, l⟩)).queuePush addr tid =
      (grown q.tids (q.tids ++ [tid])).map fun tids =>
        t.withQueues (adjust FutexQueue.addr addr (fun p => { p with tids := tids }) (mergeQueue queues ⟨addr, l⟩)) := by
    unfold queuePush getOrMakeQueue findQueue withQueues
    simp only [hq, ok_bind]
    cases grown q.tids (q.tids ++ [tid]) <;> rfl
  by_cases hroom : q.tids.length < tableRoom
  · apply takes_updating
    rw [hpush, grown, if_pos hroom, mergeQueue_append]
    exact congrArg (fun queues => Except.ok (t.withQueues queues)) (adjust_congr hq rfl)
  · constructor
    intro src hsrc
    refine Or.inr ⟨hd ?_, ?_⟩
    · rw [mergeQueue_append]
      refine ⟨_, mem_adjust_self hq, ?_⟩
      rw [List.length_append, List.length_singleton]
      omega
    · refine ⟨.nullDeref, (t.withQueues (mergeQueue queues ⟨addr, l⟩), src), ?_⟩
      rw [exec_updating, hpush, grown, if_neg hroom]
      rfl

theorem takes_make (hroom : queues.length < tableRoom) (tail : List UInt8) :
    Takes D (updating fun t => (t.getOrMakeQueue addr).map Prod.fst) (t.withQueues queues) tail ()
      (t.withQueues (mergeQueue queues ⟨addr, []⟩)) tail := by
  apply takes_updating
  rw [mergeQueue_nil, made]
  unfold getOrMakeQueue findQueue withQueues
  by_cases h : addr ∈ queues.map FutexQueue.addr
  · obtain ⟨q, hq⟩ := Option.isSome_iff_exists.mp (isSome_lookup.mpr h)
    rw [if_pos h]
    simp only [hq]
    rfl
  · rw [if_neg h]
    simp only [lookup_eq_none.mpr h, grown, hroom, ↓reduceIte, ok_bind]
    rfl

theorem takes_tids {tids : List UInt32} (hd : Crowded (mergeQueue queues ⟨addr, tids⟩) → D) :
    ∀ done tid todo tail, tids = done ++ tid :: todo →
      Takes D (loadTid addr) (t.withQueues (mergeQueue queues ⟨addr, done⟩)) (le32 tid ++ tail) ()
        (t.withQueues (mergeQueue queues ⟨addr, done ++ [tid]⟩)) tail := by
  intro done tid todo tail hl
  apply takes_loadTid
  intro hc
  apply hd
  have hsplit : tids = (done ++ [tid]) ++ todo := by simp [hl]
  rw [hsplit, mergeQueue_append]
  exact hc.adjust addr todo

theorem takes_loadQueue {q : FutexQueue} (hroom : queues.length < tableRoom) (hfit : q.tids.length ≤ tableRoom)
    (hd : Crowded (mergeQueue queues q) → D) (tail : List UInt8) :
    Takes D loadQueue (t.withQueues queues) (q.bytes ++ tail) () (t.withQueues (mergeQueue queues q)) tail := by
  simp only [FutexQueue.bytes, List.append_assoc]
  apply takes_bind ((consumes_readU64 q.addr _).takes _)
  apply takes_bind ((consumes_readU32 (count32 q.tids) _).takes _)
  apply takes_bind (takes_make hroom _)
  rw [toNat_count32 hfit]
  exact takes_times (fun l => t.withQueues (mergeQueue queues ⟨q.addr, l⟩)) q.tids tail (takes_tids hd)

theorem refuses_loadQueue_head (h : p.length < 12) : Refuses D loadQueue (t.withQueues queues) p (t.withQueues queues) := by
  by_cases h8 : p.length < 8
  · exact refuses_left (refuses_readU64 h8)
  · obtain ⟨addr, p, rfl⟩ := exists_le64 (l := p) (by omega)
    rw [List.length_append, length_le64] at h
    apply refuses_right ((consumes_readU64 addr _).takes _)
    exact refuses_left (refuses_readU32 (by omega))

theorem refuses_loadQueue_tids {qn : UInt32} {tids : List UInt32} (hroom : queues.length < tableRoom)
    (ht : tids.length < qn.toNat) (h : p.length < 4) (hd : Crowded (mergeQueue queues ⟨addr, tids⟩) → D) :
    Refuses D loadQueue (t.withQueues queues) (le64 addr ++ (le32 qn ++ (tids.flatMap le32 ++ p)))
      (t.withQueues (mergeQueue queues ⟨addr, tids⟩)) := by
  apply refuses_right ((consumes_readU64 addr _).takes _)
  apply refuses_right ((consumes_readU32 qn _).takes _)
  apply refuses_right (takes_make hroom _)
  apply refuses_times (fun l => t.withQueues (mergeQueue queues ⟨addr, l⟩)) tids ht (takes_tids hd)
  exact refuses_left (refuses_readU32 h)

theorem takes_queue {qs : List FutexQueue} {n : ℕ} (hn : qs.length ≤ n) (hroom : n ≤ tableRoom)
    (hfit : ∀ q ∈ qs, q.tids.length ≤ tableRoom) (hd : Crowded (merged qs) → D) :
    ∀ done q todo tail, qs = done ++ q :: todo →
      Takes D loadQueue (t.withQueues (merged done)) (FutexQueue.bytes q ++ tail) ()
        (t.withQueues (merged (done ++ [q]))) tail := by
  intro done q todo tail hl
  have hlen : done.length < qs.length := by simp [hl]
  have hle := length_merged_le done
  rw [merged_append]
  apply takes_loadQueue (by omega) (hfit q (by simp [hl]))
  intro hc
  apply hd
  rw [← merged_append] at hc
  have hsplit : qs = (done ++ [q]) ++ todo := by simp [hl]
  rw [hsplit]
  exact hc.merged todo

end Queues

section Body

variable {n a nt nf : UInt32} {gs : List GThread} {qs : List FutexQueue} {rest tail : List UInt8} {u : ThreadSet}

def loadQueues : Reader Crash ThreadSet Unit := do
  updating fun t => .ok { t with futicies := [] }
  let nf ← readU32
  times loadQueue nf.toNat
  expect threadMagic

theorem toNat_le_room (n : UInt32) : n.toNat ≤ tableRoom := by
  have := n.toNat_lt
  unfold tableRoom
  omega

theorem refuses_header (hgs : gs.length = nt.toNat) (h : Refuses D loadQueues ⟨n, a, sorted gs, t.futicies⟩ rest u) :
    Refuses D loadBody t (header n a nt gs rest) u := by
  have hthreads := takes_times (D := D) (fun l => (ThreadSet.mk n a [] t.futicies).withThreads l) gs rest
    (takes_thread hgs.le (toNat_le_room nt))
  rw [hgs] at hthreads
  apply refuses_right ((consumes_expect threadMagic t).takes _)
  apply refuses_right ((consumes_next n).takes _)
  apply refuses_right ((consumes_active a).takes _)
  apply refuses_right ((consumes_readU32 nt _).takes _)
  apply refuses_updating_bind
  · rfl
  exact refuses_right hthreads h

theorem takes_header (hgs : gs.length = nt.toNat)
    (h : Takes D loadQueues ⟨n, a, sorted gs, t.futicies⟩ rest () u tail) :
    Takes D loadBody t (header n a nt gs rest) () u tail := by
  have hthreads := takes_times (D := D) (fun l => (ThreadSet.mk n a [] t.futicies).withThreads l) gs rest
    (takes_thread hgs.le (toNat_le_room nt))
  rw [hgs] at hthreads
  apply takes_bind ((consumes_expect threadMagic t).takes _)
  apply takes_bind ((consumes_next n).takes _)
  apply takes_bind ((consumes_active a).takes _)
  apply takes_bind ((consumes_readU32 nt _).takes _)
  apply takes_updating_bind
  · rfl
  exact takes_bind hthreads h

theorem takes_queues (hqs : qs.length = nf.toNat) (hfit : ∀ q ∈ qs, q.tids.length ≤ tableRoom) (tail : List UInt8) :
    Takes (Crowded (merged qs)) (times loadQueue nf.toNat) (t.withQueues []) (qs.flatMap FutexQueue.bytes ++ tail) ()
      (t.withQueues (merged qs)) tail := by
  rw [← hqs]
  exact takes_times (fun l => t.withQueues (merged l)) qs tail
    (takes_queue hqs.le (toNat_le_room nf) hfit fun h => h)

end Body

namespace Parts

def left (r : Parts) (t : ThreadSet) : ThreadSet :=
  ⟨patched u32Coding t.nextTid r.next, patched u32Coding t.activeTid r.active, (r.threads.map sorted).getD t.threads,
    (r.queues.map merged).getD t.futicies⟩

def Crowded (r : Parts) : Prop := ∃ qs, r.queues = some qs ∧ ThreadSet.Crowded (merged qs)

def Harmless (r : Parts) (t : ThreadSet) : Prop :=
  if r.complete then (r.left t).Consistent ∧ (r.left t).activeTid = 1
  else r.next <+: le32 t.nextTid ∧ r.active <+: le32 t.activeTid ∧
    (∀ gs, r.threads = some gs → sorted gs = t.threads) ∧ (∀ qs, r.queues = some qs → merged qs = t.futicies)

theorem crowded_some {n a : List UInt8} {gs : Option (List GThread)} {qs : List FutexQueue} {done : Bool} :
    ThreadSet.Crowded (merged qs) → Crowded ⟨n, a, gs, some qs, done⟩ := fun h => ⟨qs, rfl, h⟩

end Parts

theorem Scan.refused {bytes : List UInt8} {r : Parts} (h : Scan bytes r) (hc : r.complete = false) :
    Refuses r.Crowded loadBody t bytes (r.left t) := by
  cases h with
  | start hm =>
    have hleft : Parts.left ⟨[], [], none, none, false⟩ t = t := by
      simp only [Parts.left, patched_nil, Option.map_none, Option.getD_none]
    rw [hleft]
    exact refuses_left (refuses_expect hm)
  | next hp =>
    simp only [Parts.left, patched_nil, Option.map_none, Option.getD_none]
    apply refuses_right ((consumes_expect threadMagic t).takes _)
    exact refuses_left (refuses_next hp)
  | active hp =>
    simp only [Parts.left, patched_le32, Option.map_none, Option.getD_none]
    apply refuses_right ((consumes_expect threadMagic t).takes _)
    apply refuses_right ((consumes_next _).takes _)
    exact refuses_left (refuses_active hp)
  | count hp =>
    simp only [Parts.left, patched_le32, Option.map_none, Option.getD_none]
    apply refuses_right ((consumes_expect threadMagic t).takes _)
    apply refuses_right ((consumes_next _).takes _)
    apply refuses_right ((consumes_active _).takes _)
    exact refuses_left (refuses_readU32 hp)
  | @threads n a nt gs p hlt hp =>
    simp only [Parts.left, patched_le32, Option.map_none, Option.map_some, Option.getD_none, Option.getD_some]
    apply refuses_right ((consumes_expect threadMagic t).takes _)
    apply refuses_right ((consumes_next _).takes _)
    apply refuses_right ((consumes_active _).takes _)
    apply refuses_right ((consumes_readU32 _ _).takes _)
    apply refuses_updating_bind
    · rfl
    apply refuses_left
    apply refuses_times (fun l => (ThreadSet.mk n a [] t.futicies).withThreads l) gs hlt
      (takes_thread hlt.le (toNat_le_room nt))
    exact refuses_left (refuses_readBytes hp)
  | queueCount hgs hp =>
    simp only [Parts.left, patched_le32, Option.map_some, Option.getD_some]
    apply refuses_header hgs
    apply refuses_updating_bind
    · rfl
    exact refuses_left (refuses_readU32 hp)
  | @queue n a nt nf gs qs p hgs hlt hfit hp =>
    simp only [Parts.left, patched_le32, Option.map_some, Option.getD_some]
    apply refuses_header hgs
    apply refuses_updating_bind
    · rfl
    apply refuses_right ((consumes_readU32 _ _).takes _)
    apply refuses_left
    apply refuses_times (fun l => (ThreadSet.mk n a (sorted gs) []).withQueues (merged l)) qs hlt
      (takes_queue hlt.le (toNat_le_room nf) hfit Parts.crowded_some)
    exact refuses_loadQueue_head hp
  | @tids n a nt nf qn gs qs addr tids p hgs hlt hfit ht hp =>
    simp only [Parts.left, patched_le32, Option.map_some, Option.getD_some]
    have hle := length_merged_le qs
    have hroom := toNat_le_room nf
    apply refuses_header hgs
    apply refuses_updating_bind
    · rfl
    apply refuses_right ((consumes_readU32 _ _).takes _)
    apply refuses_left
    apply refuses_times (fun l => (ThreadSet.mk n a (sorted gs) []).withQueues (merged l)) qs hlt
    · apply takes_queue hlt.le (toNat_le_room nf) hfit
      intro hc
      exact Parts.crowded_some (hc.merged _)
    · rw [merged_append]
      apply refuses_loadQueue_tids (by omega) ht hp
      intro hc
      rw [← merged_append] at hc
      exact Parts.crowded_some hc
  | @finish n a nt nf gs qs p hgs hqs hfit hm =>
    simp only [Parts.left, patched_le32, Option.map_some, Option.getD_some]
    apply Refuses.mono _ Parts.crowded_some
    apply refuses_header hgs
    apply refuses_updating_bind
    · rfl
    apply refuses_right ((consumes_readU32 _ _).takes _)
    apply refuses_right (takes_queues (t := ThreadSet.mk n a (sorted gs) []) hqs hfit _)
    exact refuses_expect hm
  | complete => cases hc

theorem Scan.accepted {bytes : List UInt8} {r : Parts} (h : Scan bytes r) (hc : r.complete = true) :
    ∃ qs tail, r.queues = some qs ∧ Takes (Crowded (merged qs)) loadBody t bytes () (r.left t) tail := by
  cases h with
  | @complete n a nt nf gs qs tail hgs hqs hfit =>
    refine ⟨qs, tail, rfl, ?_⟩
    simp only [Parts.left, patched_le32, Option.map_some, Option.getD_some]
    apply takes_header hgs
    apply takes_updating_bind
    · rfl
    apply takes_bind ((consumes_readU32 _ _).takes _)
    apply takes_bind (takes_queues (t := ThreadSet.mk n a (sorted gs) []) hqs hfit _)
    exact (consumes_expect threadMagic _).takes tail
  | _ => cases hc

end Outcome

section Safety

variable {t : ThreadSet} {c : Context} {src : Source} {r : Parts}

/-- What is asked of `mb_threads_load`: a failure changes nothing, and a success leaves a
consistent set whose main thread is active. -/
def LoadsSafely (t : ThreadSet) (c : Context) (src : Source) : Prop :=
  ∃ code t' c' src', t.load c src = .ok (code, t', c', src') ∧ (code ≠ 0 → t' = t ∧ c' = c) ∧
    (code = 0 → t'.Consistent ∧ t'.activeTid = 1)

theorem Scan.lengths {bytes : List UInt8} (h : Scan bytes r) : r.next.length ≤ 4 ∧ r.active.length ≤ 4 := by
  cases h <;> simp <;> omega

theorem left_eq_iff (hn : r.next.length ≤ 4) (ha : r.active.length ≤ 4) :
    r.left t = t ↔ r.next <+: le32 t.nextTid ∧ r.active <+: le32 t.activeTid ∧
      (∀ gs, r.threads = some gs → sorted gs = t.threads) ∧
      (∀ qs, r.queues = some qs → merged qs = t.futicies) := by
  obtain ⟨next, active, threads, queues, done⟩ := r
  obtain ⟨nextTid, activeTid, ths, futs⟩ := t
  simp only [Parts.left, ThreadSet.mk.injEq]
  refine and_congr (patched_eq_iff hn) (and_congr (patched_eq_iff ha) (and_congr ?_ ?_))
  · cases threads <;> simp
  · cases queues <;> simp

theorem Storable.not_crowded (h : t.Storable) : ¬ Crowded t.futicies := by
  rintro ⟨q, hq, hlt⟩
  exact absurd (h.waiters_fit q hq) (Nat.not_le.mpr hlt)

theorem load_refused (ha : t.activeTid = 1) {t' : ThreadSet} {src' : Source}
    (h : exec loadBody (t, src) = (.error .refused, (t', src'))) : t.load c src = .ok (-1, t', c, src') := by
  unfold load
  rw [if_neg (not_not.mpr ha), h]

theorem load_died (ha : t.activeTid = 1) (h : Dies loadBody t src) : ∃ e, t.load c src = .error e := by
  obtain ⟨e, s, h⟩ := h
  refine ⟨e, ?_⟩
  unfold load
  rw [if_neg (not_not.mpr ha), h]

theorem not_safe_of_error {e : Crash} (h : t.load c src = .error e) : ¬ t.LoadsSafely c src := by
  rintro ⟨code, t', c', src', hload, -⟩
  rw [h] at hload
  cases hload

theorem safe_of_refused (ht : t.Consistent) (ha : t.activeTid = 1) (h : Scan src.rest r) (hc : r.complete = false) :
    t.LoadsSafely c src ↔ r.Harmless t := by
  obtain ⟨hn, hact⟩ := h.lengths
  unfold Parts.Harmless
  rw [hc, if_neg (by decide), ← left_eq_iff hn hact]
  rcases (h.refused (t := t) hc).run src rfl with ⟨src', hrun⟩ | ⟨⟨qs, hqs, hcrowd⟩, hdies⟩
  · have hload := load_refused (c := c) ha hrun
    constructor
    · rintro ⟨code, t', c', src'', hl, hfail, -⟩
      rw [hload] at hl
      cases hl
      exact (hfail (by decide)).1
    · intro heq
      exact ⟨-1, r.left t, c, src', hload, fun _ => ⟨heq, rfl⟩, fun h0 => absurd h0 (by decide)⟩
  · obtain ⟨e, hload⟩ := load_died (c := c) ha hdies
    constructor
    · intro hsafe
      exact absurd hsafe (not_safe_of_error hload)
    · intro heq
      have hq := ((left_eq_iff hn hact).mp heq).2.2.2 qs hqs
      rw [hq] at hcrowd
      exact absurd hcrowd ht.storable.not_crowded

theorem safe_of_accepted (ha : t.activeTid = 1) (h : Scan src.rest r) (hc : r.complete = true) :
    t.LoadsSafely c src ↔ r.Harmless t := by
  unfold Parts.Harmless
  rw [hc, if_pos rfl]
  obtain ⟨qs, tail, hqs, htakes⟩ := h.accepted (t := t) hc
  rcases htakes.run src rfl with ⟨src', hrun, -⟩ | ⟨hcrowd, hdies⟩
  · cases hm : (r.left t).findThread 1 with
    | none =>
      have hload : t.load c src = .error .nullDeref := by
        unfold load
        rw [if_neg (not_not.mpr ha), hrun]
        simp only [hm]
      constructor
      · intro hsafe
        exact absurd hsafe (not_safe_of_error hload)
      · rintro ⟨hcons, -⟩
        have hmain := hcons.findMain
        rw [hm] at hmain
        cases hmain
    | some main =>
      have hload : t.load c src = .ok (0, r.left t, ⟨main.rsp, main.threadArea⟩, src') := by
        unfold load
        rw [if_neg (not_not.mpr ha), hrun]
        simp only [hm]
      constructor
      · rintro ⟨code, t', c', src'', hl, -, hok⟩
        rw [hload] at hl
        cases hl
        exact hok rfl
      · intro hcons
        exact ⟨0, r.left t, _, src', hload, fun h0 => absurd rfl h0, fun _ => hcons⟩
  · obtain ⟨e, hload⟩ := load_died (c := c) ha hdies
    constructor
    · intro hsafe
      exact absurd hsafe (not_safe_of_error hload)
    · rintro ⟨hcons, -⟩
      have hq : (r.left t).futicies = merged qs := by
        simp only [Parts.left, hqs, Option.map_some, Option.getD_some]
      have hno := hcons.storable.not_crowded
      rw [hq] at hno
      exact absurd hcrowd hno

theorem load_safe_iff (ht : t.Consistent) (ha : t.activeTid = 1) (c : Context) (src : Source) :
    t.LoadsSafely c src ↔ ∃ r, Scan src.rest r ∧ r.Harmless t := by
  have hiff : ∀ r, Scan src.rest r → (t.LoadsSafely c src ↔ r.Harmless t) := by
    intro r h
    cases hc : r.complete with
    | false => exact safe_of_refused ht ha h hc
    | true => exact safe_of_accepted ha h hc
  constructor
  · intro hsafe
    obtain ⟨r, h⟩ := exists_scan src.rest
    exact ⟨r, h, (hiff r h).mp hsafe⟩
  · rintro ⟨r, h, hr⟩
    exact (hiff r h).mpr hr

theorem load_safe_childWaits : childWaits.LoadsSafely ⟨0, 0⟩ ⟨childWaits.stream, fun _ => 1, 0⟩ ∧
    new.LoadsSafely ⟨0, 0⟩ ⟨childWaits.stream, fun _ => 1, 0⟩ := by
  have hscan : Scan (header 3 1 2 childWaits.threads (le32 1 ++ (childWaits.futicies.flatMap FutexQueue.bytes ++
      (threadMagic ++ [])))) ⟨le32 3, le32 1, some childWaits.threads, some childWaits.futicies, true⟩ :=
    .complete rfl rfl (by decide)
  have hsafe : ∀ t : ThreadSet, t.Consistent → t.activeTid = 1 →
      t.LoadsSafely ⟨0, 0⟩ ⟨childWaits.stream, fun _ => 1, 0⟩ := by
    intro t ht ha
    have hset : Parts.left ⟨le32 3, le32 1, some childWaits.threads, some childWaits.futicies, true⟩ t = childWaits := by
      simp only [Parts.left, patched_le32]
      rfl
    refine (load_safe_iff ht ha _ _).mpr ⟨_, hscan, ?_⟩
    rw [Parts.Harmless, if_pos rfl, hset]
    exact ⟨childWaits_consistent, rfl⟩
  exact ⟨hsafe childWaits childWaits_consistent rfl, hsafe new consistent_new rfl⟩

theorem load_damages : ∃ (t' : ThreadSet) (src' : Source), new.Consistent ∧
    new.load ⟨0, 0⟩ ⟨threadMagic ++ le32 7, fun _ => 1, 0⟩ = .ok (-1, t', ⟨0, 0⟩, src') ∧
    new.nextTid = 2 ∧ t'.nextTid = 7 ∧ ¬ new.LoadsSafely ⟨0, 0⟩ ⟨threadMagic ++ le32 7, fun _ => 1, 0⟩ := by
  have hscan : Scan (threadMagic ++ le32 7) ⟨le32 7, [], none, none, false⟩ :=
    Scan.active (n := 7) (p := []) (by decide)
  obtain ⟨src', hrun⟩ : ∃ src', exec loadBody (new, ⟨threadMagic ++ le32 7, fun _ => 1, 0⟩) =
      (.error .refused, (Parts.left ⟨le32 7, [], none, none, false⟩ new, src')) := by
    rcases (hscan.refused rfl).run ⟨threadMagic ++ le32 7, fun _ => 1, 0⟩ rfl with h | ⟨⟨qs, hqs, -⟩, -⟩
    · exact h
    · cases hqs
  refine ⟨_, src', consistent_new, load_refused rfl hrun, rfl, patched_le32 _ 7, ?_⟩
  rintro ⟨code, t', c', src'', hload, hfail, -⟩
  rw [load_refused rfl hrun] at hload
  cases hload
  have hnext := congrArg nextTid (hfail (by decide)).1
  have h7 : (Parts.left ⟨le32 7, [], none, none, false⟩ new).nextTid = 7 := patched_le32 _ 7
  rw [h7] at hnext
  exact absurd hnext (by decide)

end Safety

end ThreadSet

end MiniBox
