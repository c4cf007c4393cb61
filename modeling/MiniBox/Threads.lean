import MiniBox.GuestMemory
import MiniBox.LinearTables

/-! Guest green threads: the thread set, its futex queues and the syscalls of `threading.c`. -/

namespace MiniBox

open Effects LinearTables

def eagain : ℤ := 11

def futexWaiters : UInt32 := 0x80000000

/-- The field `state`; a loaded state can hold any word there. -/
inductive TState
  | runnable
  | waiting
  | other (v : UInt32) (h : 2 ≤ v)
  deriving DecidableEq

structure GThread where
  tid : UInt32
  state : TState
  rax : UInt64
  rsp : UInt64
  threadArea : UInt64
  tidAddress : UInt64
  deriving DecidableEq

structure FutexQueue where
  addr : UInt64
  tids : List UInt32
  deriving DecidableEq

structure Context where
  guestRsp : UInt64
  threadArea : UInt64
  deriving DecidableEq

structure ThreadSet where
  nextTid : UInt32
  activeTid : UInt32
  threads : List GThread
  futicies : List FutexQueue
  deriving DecidableEq

/-- The entries that `realloc` can serve in one array of the host. Beyond them it
returns a null pointer, and the store that follows is the end of the process. -/
def tableRoom : ℕ := 2 ^ 32 - 1

def grown {α : Type} (old new : List α) : Except Crash (List α) :=
  if old.length < tableRoom then .ok new else .error .nullDeref

namespace ThreadSet

def findThread (t : ThreadSet) (tid : UInt32) : Option GThread := lookup GThread.tid tid t.threads

def modifyThread (t : ThreadSet) (tid : UInt32) (f : GThread → GThread) : ThreadSet :=
  { t with threads := adjust GThread.tid tid f t.threads }

def insertThread (t : ThreadSet) (g : GThread) : Except Crash ThreadSet := do
  let threads ← grown t.threads (place GThread.tid g t.threads)
  return { t with threads }

def removeThread (t : ThreadSet) (tid : UInt32) : ThreadSet :=
  { t with threads := discard GThread.tid tid t.threads }

def findQueue (t : ThreadSet) (addr : UInt64) : Option FutexQueue := lookup FutexQueue.addr addr t.futicies

def modifyQueue (t : ThreadSet) (addr : UInt64) (f : List UInt32 → List UInt32) : ThreadSet :=
  { t with futicies := adjust FutexQueue.addr addr (fun q => { q with tids := f q.tids }) t.futicies }

def getOrMakeQueue (t : ThreadSet) (addr : UInt64) : Except Crash (ThreadSet × FutexQueue) :=
  match t.findQueue addr with
  | some q => .ok (t, q)
  | none => do
    let futicies ← grown t.futicies (t.futicies ++ [⟨addr, []⟩])
    return ({ t with futicies }, ⟨addr, []⟩)

def queuePush (t : ThreadSet) (addr : UInt64) (tid : UInt32) : Except Crash ThreadSet := do
  let (t, q) ← t.getOrMakeQueue addr
  let tids ← grown q.tids (q.tids ++ [tid])
  return t.modifyQueue addr fun _ => tids

def removeQueue (t : ThreadSet) (addr : UInt64) : ThreadSet :=
  { t with futicies := discard FutexQueue.addr addr t.futicies }

def unparkOne (t : ThreadSet) (addr : UInt64) : Option (UInt32 × Bool × ThreadSet) :=
  match t.findQueue addr with
  | none => none
  | some q =>
    match q.tids with
    | [] => none
    | tid :: tids =>
      let t := (t.modifyQueue addr fun _ => tids).modifyThread tid fun g => { g with state := .runnable }
      if tids = [] then some (tid, false, t.removeQueue addr) else some (tid, true, t)

def unparked (t : ThreadSet) (addr : UInt64) : ThreadSet :=
  match t.unparkOne addr with
  | none => t
  | some (_, _, t) => t

def new : ThreadSet := ⟨2, 1, [⟨1, .runnable, sok 0, 0, 0, 0⟩], []⟩

def swapTo (t : ThreadSet) (c : Context) (tid : UInt32) (ret : UInt64) :
    Except Crash (UInt64 × ThreadSet × Context) :=
  match t.findThread t.activeTid with
  | none => .error .nullDeref
  | some _ =>
    let t := t.modifyThread t.activeTid fun old =>
      { old with rax := ret, rsp := c.guestRsp, threadArea := c.threadArea }
    match t.findThread tid with
    | none => .error .nullDeref
    | some nw => .ok (nw.rax, { t with activeTid := tid }, ⟨nw.rsp, nw.threadArea⟩)

def nextRunnable (t : ThreadSet) : Option UInt32 :=
  ((t.threads.find? fun g => decide (t.activeTid < g.tid) && decide (g.state = .runnable)).or
    (t.threads.find? fun g => decide (g.state = .runnable))).map GThread.tid

def swapToNext (t : ThreadSet) (c : Context) (ret : UInt64) : Except Crash (UInt64 × ThreadSet × Context) :=
  match t.nextRunnable with
  | none => .error .trap
  | some best => if best = t.activeTid then .ok (ret, t, c) else t.swapTo c best ret

def parkOther (t : ThreadSet) (addr : UInt64) (tid : UInt32) : Except Crash ThreadSet := do
  let t ← t.queuePush addr tid
  match t.findThread tid with
  | none => .error .nullDeref
  | some _ => return t.modifyThread tid fun g => { g with state := .waiting }

def parkMe (t : ThreadSet) (c : Context) (ret addr : UInt64) : Except Crash (UInt64 × ThreadSet × Context) := do
  let t ← t.parkOther addr t.activeTid
  t.swapToNext c ret

def requeueLoop (src dst : UInt64) : ℕ → ℕ → ThreadSet → ℤ → Except Crash (ℤ × ThreadSet)
  | 0, _, t, count => .ok (count, t)
  | n + 1, wake, t, count =>
    match t.unparkOne src with
    | none => .ok (count, t)
    | some (tid, more, t) => do
      let t ← (if 0 < wake then pure t else t.parkOther dst tid)
      if more then requeueLoop src dst n (wake - 1) t (count + 1) else .ok (count + 1, t)

def futexRequeue (t : ThreadSet) (src dst : UInt64) (wake requeue : UInt32) : Except Crash (ℤ × ThreadSet) :=
  requeueLoop src dst (wake.toNat + requeue.toNat) wake.toNat t 0

def futexWake (t : ThreadSet) (addr : UInt64) (count : UInt32) : Except Crash (ℤ × ThreadSet) :=
  t.futexRequeue addr 0 count 0

def setTidAddress (t : ThreadSet) (addr : UInt64) : Except Crash (UInt32 × ThreadSet) :=
  match t.findThread t.activeTid with
  | none => .error .nullDeref
  | some g => .ok (g.tid, t.modifyThread t.activeTid fun g => { g with tidAddress := addr })

def getTid (t : ThreadSet) : UInt32 := t.activeTid

def yield (t : ThreadSet) (c : Context) : Except Crash (UInt64 × ThreadSet × Context) := t.swapToNext c (sok 0)

section Memory

variable {M : Type} (mem : GuestMemory M) (t : ThreadSet) (c : Context)

/-- The words 12 and 13 of a musl pthread struct are the end and the size of its stack. -/
def spawn (threadArea guestRsp guestRip childTid parentTid : UInt64) : Guest M (ℤ × ThreadSet) := do
  let tid := t.nextTid
  let stackEnd ← mem.load64 (threadArea + 96)
  let stackSize ← mem.load64 (threadArea + 104)
  let stack : Range := ⟨stackEnd - stackSize, stackSize⟩
  let rc ← mem.memOp (.mprotect stack.alignExpand .rwStack)
  if rc ≠ 0 then return (rc, t)
  -- the frame that the child's first `pop rbp; ret` takes apart
  mem.store64 (guestRsp - 16) 0
  mem.store64 (guestRsp - 8) guestRip
  mem.store32 parentTid tid
  let t ← lift (t.insertThread ⟨tid, .runnable, sok 0, guestRsp - 16, threadArea, childTid⟩)
  return (tid.toNat, { t with nextTid := t.nextTid + 1 })

def clearTid (addr : UInt64) : Guest M ThreadSet :=
  if addr ≠ 0 then do
    mem.store32 addr 0
    return t.unparked addr
  else return t

def exit : Guest M (UInt64 × ThreadSet × Context) :=
  if t.activeTid = 1 then throw .trap
  else match t.findThread t.activeTid with
    | none => throw .nullDeref
    | some self => do
      let t₁ ← t.clearTid mem self.tidAddress
      let (ret, t₂, c₂) ← lift (t₁.swapToNext c (sok 0))
      if t₂.activeTid = t.activeTid then throw .trap
      else return (ret, t₂.removeThread t.activeTid, c₂)

def futexWait (addr : UInt64) (compare : UInt32) : Guest M (UInt64 × ThreadSet × Context) := do
  let cur ← mem.load32 addr
  if cur ≠ compare then return (serr eagain, t, c)
  lift (t.parkMe c (sok 0) addr)

def futexLockPi (addr : UInt64) : Guest M (UInt64 × ThreadSet × Context) := do
  let atom ← mem.load32 addr
  if atom = 0 then
    mem.store32 addr t.activeTid
    return (sok 0, t, c)
  mem.store32 addr (atom ||| futexWaiters)
  lift (t.parkMe c (sok 0) addr)

/-- A fair handoff: the lock and the processor go to the first waiter. -/
def futexUnlockPi (addr : UInt64) : Guest M (UInt64 × ThreadSet × Context) :=
  match t.unparkOne addr with
  | some (tid, more, t) => do
    mem.store32 addr (if more then tid ||| futexWaiters else tid)
    lift (t.swapTo c tid (sok 0))
  | none => do
    mem.store32 addr 0
    return (sok 0, t, c)

end Memory

end ThreadSet

inductive ThreadOp
  | spawn (threadArea guestRsp guestRip childTid parentTid : UInt64)
  | exit
  | yield
  | futexWait (addr : UInt64) (compare : UInt32)
  | futexWake (addr : UInt64) (count : UInt32)
  | futexRequeue (src dst : UInt64) (wake requeue : UInt32)
  | futexLockPi (addr : UInt64)
  | futexUnlockPi (addr : UInt64)
  | setTidAddress (addr : UInt64)

def ThreadOp.run {M : Type} (mem : GuestMemory M) (t : ThreadSet) (c : Context) :
    ThreadOp → Guest M (UInt64 × ThreadSet × Context)
  | .spawn threadArea guestRsp guestRip childTid parentTid => do
    let (r, t) ← t.spawn mem threadArea guestRsp guestRip childTid parentTid
    return (reply r, t, c)
  | .exit => t.exit mem c
  | .yield => lift (t.yield c)
  | .futexWait addr compare => t.futexWait mem c addr compare
  | .futexWake addr count => do
    let (r, t) ← lift (t.futexWake addr count)
    return (sok r, t, c)
  | .futexRequeue src dst wake requeue => do
    let (r, t) ← lift (t.futexRequeue src dst wake requeue)
    return (sok r, t, c)
  | .futexLockPi addr => t.futexLockPi mem c addr
  | .futexUnlockPi addr => t.futexUnlockPi mem c addr
  | .setTidAddress addr => do
    let (tid, t) ← lift (t.setTidAddress addr)
    return (sok tid.toNat, t, c)

end MiniBox
