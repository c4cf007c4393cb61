import MiniBox.Threads
import MiniBox.StreamReaders
import MiniBox.BlockState

namespace MiniBox

open ByteStream Effects LinearTables StreamReaders

def threadMagic : List UInt8 := ascii "GuestThreadSet"

def TState.word : TState → UInt32
  | .runnable => 0
  | .waiting => 1
  | .other v _ => v

def TState.ofWord (v : UInt32) : TState :=
  if h : 2 ≤ v then .other v h else if v = 0 then .runnable else .waiting

namespace GThread

def bytes (g : GThread) : List UInt8 :=
  le32 g.tid ++ (le32 g.state.word ++ (le64 g.rax ++ (le64 g.rsp ++ (le64 g.threadArea ++ le64 g.tidAddress))))

def ofBytes (raw : List UInt8) : GThread where
  tid := UInt32.ofNat (leDigits (raw.take 4))
  state := TState.ofWord (UInt32.ofNat (leDigits ((raw.drop 4).take 4)))
  rax := UInt64.ofNat (leDigits ((raw.drop 8).take 8))
  rsp := UInt64.ofNat (leDigits ((raw.drop 16).take 8))
  threadArea := UInt64.ofNat (leDigits ((raw.drop 24).take 8))
  tidAddress := UInt64.ofNat (leDigits ((raw.drop 32).take 8))

end GThread

def count32 {α : Type} (l : List α) : UInt32 := UInt32.ofNat l.length

def FutexQueue.chunks (q : FutexQueue) : List (List UInt8) :=
  [le64 q.addr, le32 (count32 q.tids)] ++
    if count32 q.tids ≠ 0 then [(q.tids.take (count32 q.tids).toNat).flatMap le32] else []

namespace ThreadSet

def saveChunks (t : ThreadSet) : List (List UInt8) :=
  [threadMagic, le32 t.nextTid, le32 t.activeTid, le32 (count32 t.threads)] ++ t.threads.map GThread.bytes ++
    [le32 (count32 t.futicies)] ++ t.futicies.flatMap FutexQueue.chunks ++ [threadMagic]

def parked (t : ThreadSet) (c : Context) : ThreadSet :=
  t.modifyThread 1 fun main => { main with threadArea := c.threadArea, rsp := c.guestRsp }

def save (t : ThreadSet) (c : Context) (w : Sink) : Except Crash (ℤ × ThreadSet × Sink) :=
  if t.activeTid ≠ 1 then .ok (-1, t, w)
  else match t.findThread 1 with
    | none => .error .nullDeref
    | some _ =>
      match w.putAll (t.parked c).saveChunks with
      | (true, w') => .ok (0, t.parked c, w')
      | (false, w') => .ok (-1, t.parked c, w')

def loadThread : Reader Crash ThreadSet Unit := do
  let raw ← readBytes 40
  updating fun t => t.insertThread (GThread.ofBytes (List.ofFn raw))

def loadTid (addr : UInt64) : Reader Crash ThreadSet Unit := do
  let tid ← readU32
  updating fun t => t.queuePush addr tid

def loadQueue : Reader Crash ThreadSet Unit := do
  let addr ← readU64
  let qn ← readU32
  updating fun t => (t.getOrMakeQueue addr).map Prod.fst
  times (loadTid addr) qn.toNat

def loadBody : Reader Crash ThreadSet Unit := do
  expect threadMagic
  let _ ← reading (fun t src => rdU32 t.nextTid src) fun t v => { t with nextTid := v }
  let _ ← reading (fun t src => rdU32 t.activeTid src) fun t v => { t with activeTid := v }
  let nt ← readU32
  updating fun t => .ok { t with threads := [] }
  times loadThread nt.toNat
  updating fun t => .ok { t with futicies := [] }
  let nf ← readU32
  times loadQueue nf.toNat
  expect threadMagic

def load (t : ThreadSet) (c : Context) (src : Source) : Except Crash (ℤ × ThreadSet × Context × Source) :=
  if t.activeTid ≠ 1 then .ok (-1, t, c, src)
  else match exec loadBody (t, src) with
    | (.error .refused, (t', src')) => .ok (-1, t', c, src')
    | (.error (.died e), _) => .error e
    | (.ok _, (t', src')) =>
      match t'.findThread 1 with
      | none => .error .nullDeref
      | some main => .ok (0, t', ⟨main.rsp, main.threadArea⟩, src')

end ThreadSet

theorem TState.ofWord_word (s : TState) : TState.ofWord s.word = s := by
  cases s with
  | runnable => rfl
  | waiting => rfl
  | other v h => simp [TState.word, TState.ofWord, h]

@[simp] theorem GThread.length_bytes (g : GThread) : g.bytes.length = 40 := by
  simp [GThread.bytes]

theorem GThread.ofBytes_bytes (g : GThread) : GThread.ofBytes g.bytes = g := by
  have h1 := drop_le32 g.tid
    (le32 g.state.word ++ (le64 g.rax ++ (le64 g.rsp ++ (le64 g.threadArea ++ le64 g.tidAddress))))
  have hlast : (le64 g.tidAddress).take 8 = le64 g.tidAddress := List.take_of_length_le (by simp)
  have h4 := h1 0
  have h8 := (h1 4).trans (drop_le32 _ _ 0)
  have h16 := (h1 12).trans ((drop_le32 _ _ 8).trans (drop_le64 _ _ 0))
  have h24 := (h1 20).trans ((drop_le32 _ _ 16).trans ((drop_le64 _ _ 8).trans (drop_le64 _ _ 0)))
  have h32 := (h1 28).trans ((drop_le32 _ _ 24).trans ((drop_le64 _ _ 16).trans
    ((drop_le64 _ _ 8).trans (drop_le64 _ _ 0))))
  simp only [Nat.reduceAdd, List.drop_zero] at h4 h8 h16 h24 h32
  simp only [GThread.ofBytes, GThread.bytes, h4, h8, h16, h24, h32, take_le32, take_le64, hlast, leDigits_le32,
    leDigits_le64, TState.ofWord_word]

theorem toNat_count32 {α : Type} {l : List α} (h : l.length ≤ tableRoom) : (count32 l).toNat = l.length := by
  rw [count32, UInt32.toNat_ofNat', Nat.mod_eq_of_lt]
  simp only [tableRoom] at h
  omega

theorem flatten_chunks {q : FutexQueue} (h : q.tids.length ≤ tableRoom) :
    q.chunks.flatten = le64 q.addr ++ (le32 (count32 q.tids) ++ q.tids.flatMap le32) := by
  have hn := toNat_count32 h
  by_cases hz : count32 q.tids = 0
  · have hnil : q.tids = [] := by
      rw [hz] at hn
      exact List.eq_nil_of_length_eq_zero hn.symm
    simp [FutexQueue.chunks, hnil]
  · simp [FutexQueue.chunks, hz, hn]

end MiniBox
