import RtThread.Kernel.Scheduler
import RtThread.Mem.MemPool

/-!
# Priority queues

`prio_queue.c`. The items are blocks of a memory pool, linked into one list for each priority, and a bitmap has the priorities whose list is not empty. A push takes a block of the pool, for which it may have to wait, copies the data with interrupts enabled, and links the item; a pop unlinks an item, or waits for one, copies with interrupts enabled, and gives the block back to the pool.
-/

namespace RtThread

open Function

def rtPrioQueuePrioMax : Nat := 32

/-- `struct rt_prio_queue` with its items; an item is named by the block that it lies in. -/
structure PrioQueue where
  bitmap : BitVec 32
  head : Nat → Option Nat
  tail : Nat → Option Nat
  next : Nat → Option Nat
  data : Nat → List UInt8

namespace PrioQueue

/-- The copying of a push, with `item->next = RT_NULL`. -/
def fill (que : PrioQueue) (item : Nat) (data : List UInt8) : PrioQueue :=
  { que with
    data := update que.data item data
    next := update que.next item none }

def doPush (que : PrioQueue) (prio item : Nat) : Option PrioQueue :=
  match que.head prio with
  | none =>
    some { que with
      head := update que.head prio (some item)
      bitmap := que.bitmap ||| 1#32 <<< prio
      tail := update que.tail prio (some item) }
  | some _ =>
    match que.tail prio with
    | none => none
    | some last =>
      some { que with
        next := update que.next last (some item)
        tail := update que.tail prio (some item) }

def doPop (que : PrioQueue) : Option (Option Nat × PrioQueue) :=
  let ffs := rtFfs que.bitmap
  if ffs = 0 then some (none, que)
  else
    let ffs := ffs - 1
    match que.head ffs with
    | none => none
    | some item =>
      some (some item, { que with
        head := update que.head ffs (que.next item)
        bitmap := if que.next item = none then que.bitmap &&& ~~~(1#32 <<< ffs) else que.bitmap })

end PrioQueue

inductive PqCall
  /-- `rt_prio_queue_push` waits in `rt_mp_alloc`, has got a block, and has filled it. -/
  | alloc (prio : Nat) (data : List UInt8) (time : Int) (beforeSleep : BitVec 32)
  | allocated (prio item : Nat) (data : List UInt8)
  | filled (prio item : Nat) (data : List UInt8)
  /-- `rt_prio_queue_pop` waits, has unlinked an item, and has copied its data. -/
  | wait (timeout : Int)
  | unlinked (item : Nat)
  | copied (item : Nat) (data : List UInt8)
  deriving DecidableEq

structure PqState where
  queue : PrioQueue
  itemSz : Nat
  suspendedPopList : List ThreadId
  pool : MemPool
  call : Caller → Option PqCall

namespace PqState

def setCall (s : PqState) (c : Caller) (call : Option PqCall) : PqState :=
  { s with call := update s.call c call }

/-- `rt_thread_resume` on the first thread that waits for an item, if there is one. -/
def resumePop (s : PqState) : PqState :=
  match s.suspendedPopList with
  | [] => s
  | t :: rest =>
    { s with
      suspendedPopList := rest
      pool := s.pool.setThread t fun thread => { thread with timer := false } }

def suspendPop (s : PqState) (t : ThreadId) (timeout : Int) (timer : Bool) : PqState :=
  { s with
    suspendedPopList := s.suspendedPopList ++ [t]
    pool := s.pool.setThread t fun thread => { thread with error := .eok, timer } }.setCall (.thread t) (some (.wait timeout))

end PqState

/-! ## The priority queue as a state machine -/

inductive PqOp
  | push (c : Caller) (prio : Nat) (data : List UInt8) (timeout : Int)
  | pop (c : Caller) (timeout : Int)
  /-- A caller that is not suspended goes on in its call. -/
  | resume (c : Caller)
  | timeout (t : ThreadId)
  | tick
  deriving DecidableEq

inductive PqEvent
  /-- The item is linked, and its push returns `RT_EOK`. -/
  | pushed (c : Caller) (prio : Nat) (data : List UInt8)
  | unlinked (c : Caller)
  /-- `rt_prio_queue_pop` returns `RT_EOK`. -/
  | popped (c : Caller) (data : List UInt8)
  /-- `rt_prio_queue_pop` returns an error. -/
  | failed (c : Caller) (result : IpcErr)
  /-- The timer of a thread that waits for an item has expired. -/
  | late (t : ThreadId)
  /-- `rt_prio_queue_push` returns `-RT_ERROR`: there is no such priority. -/
  | refused (c : Caller)
  /-- `-RT_ENOMEM` -/
  | noMemory (c : Caller)
  /-- The timer of a thread that waits in `rt_mp_alloc` has expired. -/
  | expired (t : ThreadId)
  deriving DecidableEq

def PqState.Waiting (s : PqState) : Caller → Prop
  | .thread t => t ∈ s.suspendedPopList ∨ t ∈ s.pool.suspendThread
  | .interrupt _ => False

instance PqState.decidableWaiting (s : PqState) (c : Caller) : Decidable (s.Waiting c) := by
  induction c using Caller.casesOn <;> dsimp only [PqState.Waiting] <;> infer_instance

/-- What `rt_prio_queue_push` does with the outcome of a critical section of `rt_mp_alloc`. -/
def PqState.allocates (s : PqState) (c : Caller) (prio : Nat) (data : List UInt8) :
    MpResult × MemPool → PqState × List PqEvent
  | (.block item, pool) => ({ s with pool }.setCall c (some (.allocated prio item data)), [])
  | (.null, pool) => ({ s with pool }.setCall c none, [.noMemory c])
  | (.wait time beforeSleep, pool) => ({ s with pool }.setCall c (some (.alloc prio data time beforeSleep)), [])

/-- `rt_prio_queue_push` up to the first time that `rt_mp_alloc` enables interrupts. -/
def rtPrioQueuePush (s : PqState) (c : Caller) (prio : Nat) (data : List UInt8) (timeout : Int) :
    Option (PqState × List PqEvent) :=
  if rtPrioQueuePrioMax ≤ prio then some (s, [.refused c])
  else (rtMpAlloc s.pool c timeout).map (s.allocates c prio data)

def pushLink (s : PqState) (c : Caller) (prio item : Nat) (data : List UInt8) : Option (PqState × List PqEvent) :=
  (s.queue.doPush prio item).map fun queue => ({ s with queue }.resumePop.setCall c none, [.pushed c prio data])

/-- `rt_prio_queue_pop` from the test of its loop on, up to the copying. -/
def popLoop (s : PqState) (c : Caller) (timeout : Int) : Option (PqState × List PqEvent) :=
  match s.queue.doPop with
  | none => none
  | some (some item, queue) => some ({ s with queue }.setCall c (some (.unlinked item)), [.unlinked c])
  | some (none, _) =>
    if timeout = 0 then some (s.setCall c none, [.failed c .etimeout])
    else
      match c with
      | .interrupt _ => none
      | .thread t => (timeoutTimer timeout).map fun timer => (s.suspendPop t timeout timer, [])

/-- The end of `rt_prio_queue_pop`. -/
def popReturn (s : PqState) (c : Caller) (item : Nat) (data : List UInt8) : Option (PqState × List PqEvent) :=
  (rtMpFree s.pool item).map fun pool => ({ s with pool }.setCall c none, [.popped c data])

/-- A caller goes on in its call; a thread that has waited for an item looks at its error code first. -/
def resumeCall (s : PqState) (c : Caller) : PqCall → Option (PqState × List PqEvent)
  | .alloc prio data time beforeSleep =>
    match c with
    | .interrupt _ => none
    | .thread t => (rtMpAllocResume s.pool t time beforeSleep).map (s.allocates c prio data)
  | .allocated prio item data =>
    some ({ s with queue := s.queue.fill item data }.setCall c (some (.filled prio item data)), [])
  | .filled prio item data => pushLink s c prio item data
  | .wait timeout =>
    match c with
    | .interrupt _ => none
    | .thread t =>
      if (s.pool.thread t).error ≠ .eok then some (s.setCall c none, [.failed c (s.pool.thread t).error])
      else popLoop s c timeout
  | .unlinked item => some (s.setCall c (some (.copied item (s.queue.data item))), [])
  | .copied item data => popReturn s c item data

def stepPq (s : PqState) : PqOp → Option (PqState × List PqEvent)
  | .push c prio data timeout =>
    -- the caller has `item_sz` bytes to copy
    if s.call c = none ∧ data.length = s.itemSz then rtPrioQueuePush s c prio data timeout else none
  | .pop c timeout => if s.call c = none then popLoop s c timeout else none
  | .resume c => if s.Waiting c then none else (s.call c).bind (resumeCall s c)
  | .timeout t =>
    if t ∈ s.suspendedPopList then
      if (s.pool.thread t).timer then
        some ({ s with
          suspendedPopList := s.suspendedPopList.erase t
          pool := s.pool.setThread t fun thread => { thread with error := .etimeout, timer := false } }, [.late t])
      else none
    else (s.pool.threadTimeout t).map fun pool => ({ s with pool }, [.expired t])
  | .tick => some ({ s with pool := { s.pool with tick := s.pool.tick + 1 } }, [])

/-- `rt_prio_queue_init`, with a pool of `itemNr` blocks on memory with any contents. -/
def PqState.init (word : Nat → BlockWord) (data : Nat → List UInt8) (itemNr itemSz : Nat) (priority : ThreadId → Nat) :
    PqState where
  queue := ⟨0, fun _ => none, fun _ => none, fun _ => none, data⟩
  itemSz := itemSz
  suspendedPopList := []
  pool := .init word itemNr priority
  call _ := none

abbrev PqRun (word : Nat → BlockWord) (data : Nat → List UInt8) (itemNr itemSz : Nat) (priority : ThreadId → Nat) :
    List PqEvent → PqState → Prop :=
  Transition.Run stepPq (fun _ _ => True) (.init word data itemNr itemSz priority)

theorem exists_pqRun (itemNr itemSz : Nat) (ops : List PqOp) (found : List PqEvent → PqState → Bool)
    (h : ((Transition.exec stepPq (fun _ _ => True) (.init (fun _ => .pool) (fun _ => []) itemNr itemSz fun _ => 0) ops).any
      fun r => found r.1 r.2) = true) :
    ∃ trace s, PqRun (fun _ => .pool) (fun _ => []) itemNr itemSz (fun _ => 0) trace s ∧ found trace s = true :=
  Transition.exists_run_of_exec ops found h

end RtThread
