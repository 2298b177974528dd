import RtThread.Ipc.WaitList
import RtThread.Lib.Linked
import RtThread.Lib.Transition

/-!
# Memory pools

`mempool.c`. A pool is an array of blocks of one size. Each block starts with a word: the blocks that are free are linked through it, and in a block that has been handed out it points to the pool. A block is named by its number. A caller that finds no free block waits in the list of the pool, and competes for the block again once it has been woken up.
-/

namespace RtThread

open Function

inductive BlockWord
  | next (block : Option Nat)
  | pool
  deriving DecidableEq

/-- `struct rt_mempool` with the first words of its blocks, and what its callers share. -/
structure MemPool where
  word : Nat → BlockWord
  blockList : Option Nat
  blockTotalCount : Nat
  blockFreeCount : Nat
  suspendThread : List ThreadId
  suspendThreadCount : Nat
  thread : ThreadId → Waiter
  tick : BitVec 32

namespace MemPool

def setThread (s : MemPool) (t : ThreadId) (f : Waiter → Waiter) : MemPool :=
  { s with thread := update s.thread t (f (s.thread t)) }

/-- "initialize free block list" -/
def initBlockList (word : Nat → BlockWord) (blockTotalCount : Nat) : Nat → BlockWord :=
  (List.range blockTotalCount).foldl (fun word offset => update word offset (.next (some (offset + 1)))) word

/-- The part that `rt_mp_init` and `rt_mp_create` have in common, on memory with any contents. -/
def init (word : Nat → BlockWord) (blockTotalCount : Nat) (priority : ThreadId → Nat) : MemPool where
  word :=
    let word := initBlockList word blockTotalCount
    -- without any block, `offset - 1` is the block before the pool
    if blockTotalCount = 0 then word else update word (blockTotalCount - 1) (.next none)
  blockList := some 0
  blockTotalCount := blockTotalCount
  blockFreeCount := blockTotalCount
  suspendThread := []
  suspendThreadCount := 0
  thread t := ⟨.eok, priority t, false⟩
  tick := 0

/-- "need suspend thread": the list grows at its front. -/
def suspend (s : MemPool) (t : ThreadId) (timer : Bool) : MemPool :=
  { s with
    suspendThread := t :: s.suspendThread
    suspendThreadCount := s.suspendThreadCount + 1 }.setThread t fun thread => { thread with error := .eok, timer }

/-- `rt_thread_resume` on the first thread of the list; there has to be one. -/
def resumeFirst (s : MemPool) (code : IpcErr) : Option MemPool :=
  match s.suspendThread with
  | [] => none
  | t :: rest =>
    some ({ s with
      suspendThread := rest
      suspendThreadCount := s.suspendThreadCount - 1 }.setThread t fun thread => { thread with error := code, timer := false })

/-- "get block from block list" -/
def take (s : MemPool) (block : Nat) (next : Option Nat) : MemPool :=
  { s with
    blockFreeCount := s.blockFreeCount - 1
    blockList := next
    word := update s.word block .pool }

/-- "link the block into the block list" -/
def put (s : MemPool) (block : Nat) : MemPool :=
  { s with
    blockFreeCount := s.blockFreeCount + 1
    word := update s.word block (.next s.blockList)
    blockList := some block }

end MemPool

/-- Where a call of `rt_mp_alloc` has come to at the end of a critical section. -/
inductive MpResult
  | block (block : Nat)
  | null
  /-- "need suspend thread": the waiting time, and `before_sleep`. -/
  | wait (time : Int) (beforeSleep : BitVec 32)
  deriving DecidableEq

/-- `rt_mp_alloc`, up to the first time that it enables interrupts. -/
def rtMpAlloc (s : MemPool) (c : Caller) (time : Int) : Option (MpResult × MemPool) :=
  if s.blockFreeCount = 0 then
    match c with
    | .interrupt _ => if time = 0 then some (.null, s) else none
    | .thread t =>
      if time = 0 then some (.null, s.setThread t fun thread => { thread with error := .etimeout })
      else
        (timeoutTimer time).map fun timer => (.wait time s.tick, s.suspend t timer)
  else
    match s.blockList with
    | none => none
    | some block =>
      match s.word block with
      | .pool => none
      | .next next => some (.block block, s.take block next)

/-- A waiting thread goes on behind `rt_schedule`. -/
def rtMpAllocResume (s : MemPool) (t : ThreadId) (time : Int) (beforeSleep : BitVec 32) : Option (MpResult × MemPool) :=
  if (s.thread t).error ≠ .eok then some (.null, s)
  else rtMpAlloc s (.thread t) (recalculateTimeout time beforeSleep s.tick)

/-- `rt_mp_free`; a block that does not point to the pool is not one of its blocks. -/
def rtMpFree (s : MemPool) (block : Nat) : Option MemPool :=
  if s.word block = .pool then
    if 0 < (s.put block).suspendThreadCount then (s.put block).resumeFirst .eok else some (s.put block)
  else none

/-- `rt_thread_timeout` on a thread that waits in the list. -/
def MemPool.threadTimeout (s : MemPool) (t : ThreadId) : Option MemPool :=
  if t ∈ s.suspendThread ∧ (s.thread t).timer then
    some ({ s with suspendThread := s.suspendThread.erase t }.setThread t fun thread =>
      { thread with error := .etimeout, timer := false })
  else none

/-! ## The memory pool as a state machine -/

inductive MpCall
  /-- `rt_mp_alloc` -/
  | wait (time : Int) (beforeSleep : BitVec 32)
  /-- `rt_mp_delete` or `rt_mp_detach`, before the test of its loop, and after it has found a thread in the list. -/
  | delete
  | wakeup
  deriving DecidableEq

structure MpState where
  pool : MemPool
  call : Caller → Option MpCall
  deleted : Bool

def MpState.setCall (s : MpState) (c : Caller) (call : Option MpCall) : MpState :=
  { s with call := update s.call c call }

inductive MpOp
  | alloc (c : Caller) (time : Int)
  | free (block : Nat)
  | delete (t : ThreadId)
  /-- A caller that is not suspended goes on in its call. -/
  | resume (c : Caller)
  | timeout (t : ThreadId)
  | tick
  deriving DecidableEq

inductive MpEvent
  | allocated (c : Caller) (block : Nat)
  | failed (c : Caller)
  | freed (block : Nat)
  | expired (t : ThreadId)
  | deleted
  deriving DecidableEq

def MpState.Waiting (s : MpState) : Caller → Prop
  | .thread t => t ∈ s.pool.suspendThread
  | .interrupt _ => False

instance MpState.decidableWaiting (s : MpState) (c : Caller) : Decidable (s.Waiting c) := by
  induction c using Caller.casesOn <;> dsimp only [MpState.Waiting] <;> infer_instance

/-- What a caller does with the outcome of a critical section of `rt_mp_alloc`. -/
def MpState.allocates (s : MpState) (c : Caller) : MpResult × MemPool → MpState × List MpEvent
  | (.block block, pool) => ({ s with pool }.setCall c none, [.allocated c block])
  | (.null, pool) => ({ s with pool }.setCall c none, [.failed c])
  | (.wait time beforeSleep, pool) => ({ s with pool }.setCall c (some (.wait time beforeSleep)), [])

def stepMp (s : MpState) : MpOp → Option (MpState × List MpEvent)
  | .alloc c time =>
    if s.deleted = false ∧ s.call c = none then (rtMpAlloc s.pool c time).map (s.allocates c) else none
  | .free block =>
    -- a caller gives back a block of the pool
    if s.deleted = false ∧ block < s.pool.blockTotalCount then
      (rtMpFree s.pool block).map fun pool => ({ s with pool }, [.freed block])
    else none
  | .delete t =>
    if s.deleted = false ∧ s.call (.thread t) = none then some (s.setCall (.thread t) (some .delete), []) else none
  | .resume c =>
    if s.Waiting c then none
    else
      match c, s.call c with
      | .thread t, some (.wait time beforeSleep) =>
        -- a thread that has been woken up by a deletion does not look at the pool again
        if s.deleted = false ∨ (s.pool.thread t).error ≠ .eok then
          (rtMpAllocResume s.pool t time beforeSleep).map (s.allocates c)
        else none
      | _, some .delete =>
        if s.deleted then none
        else if s.pool.suspendThread = [] then some ({ s with deleted := true }.setCall c none, [.deleted])
        else some (s.setCall c (some .wakeup), [])
      | _, some .wakeup =>
        if s.deleted then none
        else (s.pool.resumeFirst .error).map fun pool => ({ s with pool }.setCall c (some .delete), [])
      | _, _ => none
  | .timeout t => (s.pool.threadTimeout t).map fun pool => ({ s with pool }, [.expired t])
  | .tick => some ({ s with pool := { s.pool with tick := s.pool.tick + 1 } }, [])

def MpState.init (word : Nat → BlockWord) (blockTotalCount : Nat) (priority : ThreadId → Nat) : MpState where
  pool := .init word blockTotalCount priority
  call _ := none
  deleted := false

abbrev MpRun (word : Nat → BlockWord) (blockTotalCount : Nat) (priority : ThreadId → Nat) :
    List MpEvent → MpState → Prop :=
  Transition.Run stepMp (fun _ _ => True) (.init word blockTotalCount priority)

theorem exists_mpRun (blockTotalCount : Nat) (ops : List MpOp) (found : List MpEvent → MpState → Bool)
    (h : ((Transition.exec stepMp (fun _ _ => True) (.init (fun _ => .pool) blockTotalCount fun _ => 0) ops).any
      fun r => found r.1 r.2) = true) :
    ∃ trace s, MpRun (fun _ => .pool) blockTotalCount (fun _ => 0) trace s ∧ found trace s = true :=
  Transition.exists_run_of_exec ops found h

end RtThread
