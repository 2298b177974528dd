import RtThread.Ipc.WaitList
import RtThread.Lib.Transition

/-!
# Read-write locks

`pthread_rwlock.c` over `pthread_cond.c`: a mutex around the counters, and a condition for each side that is a counting semaphore. A thread stops at each operation on the mutex and the semaphores, and runs from one to the next without being disturbed.
-/

namespace RtThread

inductive RwSide
  | reader | writer
  deriving DecidableEq

/-- `timed` for the calls with a time limit. -/
inductive RwCall
  | rdlock (timed : Bool)
  | tryrdlock
  | wrlock (timed : Bool)
  | trywrlock
  | unlock
  deriving DecidableEq

/-- `pthread_rwlock_rdlock` and `pthread_rwlock_timedrdlock`, or the same for writers. -/
def RwSide.call : RwSide → Bool → RwCall
  | .reader => .rdlock
  | .writer => .wrlock

inductive RwPhase
  | out
  /-- Before and behind `pthread_mutex_lock` of a call. -/
  | locking (call : RwCall)
  | locked (call : RwCall)
  /-- Before `pthread_cond_signal` and `pthread_cond_broadcast` of an unlock. -/
  | signal
  | broadcast
  /-- In the wait for a condition: before `pthread_mutex_unlock`, before and in `rt_sem_take`. -/
  | waiting (side : RwSide) (timed : Bool)
  | taking (side : RwSide) (timed : Bool)
  | suspended (side : RwSide) (timed : Bool)
  /-- Before and behind the `pthread_mutex_lock` that ends the wait; `ok` unless the time has run out. -/
  | relocking (side : RwSide) (timed ok : Bool)
  | relocked (side : RwSide) (timed ok : Bool)
  /-- Before the last `pthread_mutex_unlock`. -/
  | leaving
  deriving DecidableEq

/-- The semaphore of a condition: its value has 16 bits, and its threads wait in the order in which they came. -/
structure CondSem where
  value : Nat
  suspendThread : List ThreadId
  deriving DecidableEq

/-- `struct pthread_rwlock` and the threads that use it; `owner` has the mutex, `readers` and `writers` hold the lock, each as often as it has
locked it. The counters are those of fewer than 2^31 holders and waiting threads: they are an `int` each. -/
structure RwLock where
  owner : Option ThreadId
  cond : RwSide → CondSem
  /-- `rw_nwaitreaders` and `rw_nwaitwriters` -/
  nwait : RwSide → Nat
  refcount : Int
  phase : ThreadId → RwPhase
  readers : List ThreadId
  writers : List ThreadId

def RwPhase.wake : RwPhase → RwPhase
  | suspended side timed => relocking side timed true
  | phase => phase

/-- `rt_sem_release`, with the thread that is resumed. -/
def CondSem.release (sem : CondSem) : Option ThreadId × CondSem :=
  match sem.suspendThread with
  | [] => (none, { sem with value := (sem.value + 1) % 65536 })
  | t :: rest => (some t, { sem with suspendThread := rest })

/-- The loop of `pthread_cond_broadcast` for a semaphore with these waiting threads: it releases the semaphore until it can take it, and releases it
again. The threads that are resumed stand first. -/
def condBroadcast (value : Nat) : List ThreadId → List ThreadId × CondSem
  | [] => ([], ⟨if value = 0 then 1 else value, []⟩)
  | t :: rest =>
    if value = 0 then
      let r := condBroadcast 0 rest
      (t :: r.1, r.2)
    else ([t], ⟨value - 1, rest⟩)

namespace RwLock

def setPhase (s : RwLock) (t : ThreadId) (phase : RwPhase) : RwLock := { s with phase := Function.update s.phase t phase }

def setCond (s : RwLock) (side : RwSide) (sem : CondSem) : RwLock := { s with cond := Function.update s.cond side sem }

def setNwait (s : RwLock) (side : RwSide) (n : Nat) : RwLock := { s with nwait := Function.update s.nwait side n }

def resume (s : RwLock) (woken : List ThreadId) : RwLock :=
  { s with phase := fun t => if t ∈ woken then (s.phase t).wake else s.phase t }

/-- "another reader has a read lock" -/
def holdRead (s : RwLock) (t : ThreadId) : RwLock := { s with refcount := s.refcount + 1, readers := t :: s.readers }.setPhase t .leaving

def holdWrite (s : RwLock) (t : ThreadId) : RwLock := { s with refcount := -1, writers := t :: s.writers }.setPhase t .leaving

/-- `rw_refcount` when `t` unlocks. -/
def drop (s : RwLock) (t : ThreadId) : RwLock :=
  if s.refcount > 0 then { s with refcount := s.refcount - 1, readers := s.readers.erase t }
  else if s.refcount = -1 then { s with refcount := 0, writers := s.writers.erase t }
  else s

/-- From `pthread_mutex_lock` of a call on. -/
def run (s : RwLock) (t : ThreadId) : RwCall → RwLock
  | .rdlock timed =>
    -- "give preference to waiting writers"
    if s.refcount < 0 ∨ s.nwait .writer > 0 then (s.setNwait .reader (s.nwait .reader + 1)).setPhase t (.waiting .reader timed)
    else s.holdRead t
  | .tryrdlock => if s.refcount < 0 ∨ s.nwait .writer > 0 then s.setPhase t .leaving else s.holdRead t
  | .wrlock timed =>
    if s.refcount ≠ 0 then (s.setNwait .writer (s.nwait .writer + 1)).setPhase t (.waiting .writer timed)
    else s.holdWrite t
  | .trywrlock => if s.refcount ≠ 0 then s.setPhase t .leaving else s.holdWrite t
  | .unlock =>
    let s := s.drop t
    -- "give preference to waiting writers over waiting readers"
    if s.nwait .writer > 0 then
      if s.refcount = 0 then s.setPhase t .signal else s.setPhase t .leaving
    else if s.nwait .reader > 0 then s.setPhase t .broadcast
    else s.setPhase t .leaving

def init : RwLock := ⟨none, fun _ => ⟨0, []⟩, fun _ => 0, 0, fun _ => .out, [], []⟩

end RwLock

inductive RwOp
  | call (t : ThreadId) (call : RwCall)
  /-- `pthread_mutex_lock`; any thread that comes to it may get a free mutex. -/
  | lock (t : ThreadId)
  | run (t : ThreadId)
  | wake (t : ThreadId)
  /-- `pthread_mutex_unlock` -/
  | release (t : ThreadId)
  /-- `rt_sem_take`; with no ticks to wait, `timeout` comes next. -/
  | take (t : ThreadId)
  | timeout (t : ThreadId)
  deriving DecidableEq

def RwOp.thread : RwOp → ThreadId
  | call t _ | lock t | run t | wake t | release t | take t | timeout t => t

def RwLock.next (s : RwLock) : RwOp → Option RwLock
  | .call t call =>
    match s.phase t with
    | .out => some (s.setPhase t (.locking call))
    | _ => none
  | .lock t =>
    if s.owner = none then
      match s.phase t with
      | .locking call => some ({ s with owner := some t }.setPhase t (.locked call))
      | .relocking side timed ok => some ({ s with owner := some t }.setPhase t (.relocked side timed ok))
      | _ => none
    else none
  | .run t =>
    match s.phase t with
    | .locked call => some (s.run t call)
    | .relocked side timed ok =>
      some ((s.setNwait side (s.nwait side - 1)).setPhase t (if ok = true then .locked (side.call timed) else .leaving))
    | _ => none
  | .wake t =>
    match s.phase t with
    | .signal =>
      let r := (s.cond .writer).release
      some (((s.setCond .writer r.2).resume r.1.toList).setPhase t .leaving)
    | .broadcast =>
      let r := condBroadcast (s.cond .reader).value (s.cond .reader).suspendThread
      some (((s.setCond .reader r.2).resume r.1).setPhase t .leaving)
    | _ => none
  | .release t =>
    match s.phase t with
    | .waiting side timed => some ({ s with owner := none }.setPhase t (.taking side timed))
    | .leaving => some ({ s with owner := none }.setPhase t .out)
    | _ => none
  | .take t =>
    match s.phase t with
    | .taking side timed =>
      let sem := s.cond side
      if 0 < sem.value then some ((s.setCond side { sem with value := sem.value - 1 }).setPhase t (.relocking side timed true))
      else some ((s.setCond side { sem with suspendThread := sem.suspendThread ++ [t] }).setPhase t (.suspended side timed))
    | _ => none
  | .timeout t =>
    match s.phase t with
    | .suspended side true =>
      let sem := s.cond side
      some ((s.setCond side { sem with suspendThread := sem.suspendThread.erase t }).setPhase t (.relocking side true false))
    | _ => none

def stepRwLock (s : RwLock) (op : RwOp) : Option (RwLock × List RwOp) := (s.next op).map fun s => (s, [op])

def UnlocksOwn (s : RwLock) : RwOp → Prop
  | .call t .unlock => t ∈ s.readers ∨ t ∈ s.writers
  | _ => True

instance (s : RwLock) (op : RwOp) : Decidable (UnlocksOwn s op) := by
  unfold UnlocksOwn
  split <;> infer_instance

def RwLock.Quiet (s : RwLock) : Prop := ∀ t, s.phase t = .out ∨ ∃ side timed, s.phase t = .suspended side timed

end RtThread
