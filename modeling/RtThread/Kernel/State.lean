import Mathlib

/-!
# The kernel's state

The data of the uniprocessor kernel that the scheduler, the threads, the semaphores and the mutexes share: `struct rt_thread`, the ready lists with their bitmap, the defunct list, the suspend lists of the IPC objects, and the scheduler's globals.

A thread has one list node, `tlist`, so the lists it can be in are one family of lists of threads, indexed by their head. Removing a node takes it out of whichever list it is in. The build is the one without `RT_USING_SMP`, `RT_USING_SIGNALS` and hooks; `RT_THREAD_PRIORITY_MAX` stays a parameter, so both layouts of the ready bitmap are covered.
-/

namespace RtThread

open Function

abbrev ThreadId := Nat
abbrev SemId := Nat
abbrev MutexId := Nat

/-- `RT_THREAD_PRIORITY_MAX`; "Maximum priority level, 256". -/
structure Config where
  priorityMax : Nat
  priorityMax_le : priorityMax ≤ 256

def Config.Large (cfg : Config) : Prop := 32 < cfg.priorityMax

instance (cfg : Config) : Decidable cfg.Large := inferInstanceAs (Decidable (32 < cfg.priorityMax))

/-- The low nibble of `rt_thread.stat`. -/
inductive ThreadStat
  | init | ready | suspend | close
  deriving DecidableEq

inductive RtErr
  | eok | error | etimeout | eintr
  deriving DecidableEq

/-- `RT_IPC_FLAG_FIFO` and `RT_IPC_FLAG_PRIO`. -/
inductive IpcFlag
  | fifo | prio
  deriving DecidableEq

inductive IpcObject
  | sem (s : SemId)
  | mutex (m : MutexId)
  deriving DecidableEq

/-- The list heads a thread's `tlist` can be linked under: `rt_thread_priority_table[p]`, `rt_thread_defunct`, and the `suspend_thread` list of an IPC object. -/
inductive Head
  | ready (priority : Nat)
  | defunct
  | suspend (object : IpcObject)
  deriving DecidableEq

structure Thread where
  /-- `type` still says `RT_Object_Class_Thread`; `rt_object_detach` clears it. -/
  isThread : Bool
  /-- `type` has `RT_Object_Class_Static`. -/
  isStatic : Bool
  error : RtErr
  stat : ThreadStat
  currentPriority : Nat
  initPriority : Nat
  number : Nat
  highMask : BitVec 8
  numberMask : BitVec 32
  /-- `thread_timer` is started. -/
  timer : Bool
  /-- `cleanup` is not `RT_NULL`. -/
  cleanup : Bool
  deriving DecidableEq

structure Sem where
  value : Nat
  flag : IpcFlag
  deriving DecidableEq

structure Mutex where
  value : Nat
  originalPriority : Nat
  hold : Nat
  owner : Option ThreadId
  flag : IpcFlag
  deriving DecidableEq

/-- Where a thread that gave up the processor inside a kernel call goes on when it runs again. -/
inductive Call
  | semTake (s : SemId)
  | mutexTake (m : MutexId) (time : Int)
  | sleep
  deriving DecidableEq

structure Kernel where
  thread : ThreadId → Thread
  tlist : Head → List ThreadId
  /-- `rt_thread_ready_priority_group` -/
  group : BitVec 32
  /-- `rt_thread_ready_table` -/
  readyTable : Nat → BitVec 8
  /-- `rt_current_thread` -/
  current : Option ThreadId
  /-- `rt_scheduler_lock_nest` -/
  lockNest : Nat
  /-- `rt_interrupt_nest` -/
  interruptNest : Nat
  sem : SemId → Sem
  mutex : MutexId → Mutex
  /-- The call a thread is in, between the `rt_schedule` that took the processor from it and the return. -/
  call : ThreadId → Option Call

/-! ## Threads and lists -/

def Kernel.setThread (k : Kernel) (t : ThreadId) (f : Thread → Thread) : Kernel :=
  { k with thread := update k.thread t (f (k.thread t)) }

def Kernel.setCall (k : Kernel) (t : ThreadId) (c : Option Call) : Kernel :=
  { k with call := update k.call t c }

def Kernel.setSem (k : Kernel) (s : SemId) (f : Sem → Sem) : Kernel :=
  { k with sem := update k.sem s (f (k.sem s)) }

def Kernel.setMutex (k : Kernel) (m : MutexId) (f : Mutex → Mutex) : Kernel :=
  { k with mutex := update k.mutex m (f (k.mutex m)) }

/-- `rt_list_remove(&thread->tlist)` -/
def rtListRemove (k : Kernel) (t : ThreadId) : Kernel :=
  { k with tlist := fun h => (k.tlist h).erase t }

/-- `rt_list_insert_before(head, &thread->tlist)`: the thread becomes the last of the list. -/
def rtListInsertBefore (k : Kernel) (h : Head) (t : ThreadId) : Kernel :=
  { k with tlist := update k.tlist h (k.tlist h ++ [t]) }

/-- `rt_list_insert_after(head, &thread->tlist)`: the thread becomes the first of the list. -/
def rtListInsertAfter (k : Kernel) (h : Head) (t : ThreadId) : Kernel :=
  { k with tlist := update k.tlist h (t :: k.tlist h) }

/-- Set `current_priority` and recalculate the priority attributes from it. -/
def Thread.setPriority (cfg : Config) (priority : Nat) (thread : Thread) : Thread :=
  if cfg.Large then
    { thread with
      currentPriority := priority
      number := priority >>> 3
      numberMask := 1#32 <<< (priority >>> 3)
      highMask := 1#8 <<< (priority &&& 7) }
  else
    { thread with
      currentPriority := priority
      numberMask := 1#32 <<< priority }

/-! ## Start of the system -/

/-- What the application creates: the threads by `rt_thread_init` or `rt_thread_create`, the semaphores and mutexes by their `init` functions. -/
structure Setup (cfg : Config) where
  priority : ThreadId → Nat
  /-- `RT_ASSERT(priority < RT_THREAD_PRIORITY_MAX)` -/
  priority_lt : ∀ t, priority t < cfg.priorityMax
  isStatic : ThreadId → Bool
  cleanup : ThreadId → Bool
  semValue : SemId → Nat
  semFlag : SemId → IpcFlag
  mutexFlag : MutexId → IpcFlag

def rtThreadInit (priority : Nat) (isStatic cleanup : Bool) : Thread where
  isThread := true
  isStatic := isStatic
  error := .eok
  stat := .init
  currentPriority := priority
  initPriority := priority
  number := 0
  highMask := 0
  numberMask := 0
  timer := false
  cleanup := cleanup

def rtSemInit (value : Nat) (flag : IpcFlag) : Sem where
  value := value % 65536
  flag := flag

def rtMutexInit (flag : IpcFlag) : Mutex where
  value := 1
  originalPriority := 0xFF
  hold := 0
  owner := none
  flag := flag

/-- The state before the scheduler starts: `rt_system_scheduler_init` and the objects the application has created. -/
def Kernel.boot {cfg : Config} (setup : Setup cfg) : Kernel where
  thread t := rtThreadInit (setup.priority t) (setup.isStatic t) (setup.cleanup t)
  tlist _ := []
  group := 0
  readyTable _ := 0
  current := none
  lockNest := 0
  interruptNest := 0
  sem s := rtSemInit (setup.semValue s) (setup.semFlag s)
  mutex m := rtMutexInit (setup.mutexFlag m)
  call _ := none

end RtThread
