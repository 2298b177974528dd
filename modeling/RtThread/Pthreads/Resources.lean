import RtThread.Kernel.State
import RtThread.Lib.Transition

/-!
# What a pthread owns

`pthread_create`, `pthread_exit`, `pthread_join` and `pthread_detach` of `pthread.c`, with `rt_thread_exit` and `rt_thread_detach` of `thread.c` and the idle thread that cleans up. Next to each thread stands what was allocated for it and what has been freed of it. A join or a detach is taken apart where other threads may run.
-/

namespace RtThread

/-- What is allocated for a thread: `ptd`, `ptd->tid`, the stack, `ptd->tls` and `ptd->joinable_sem`. -/
inductive PthreadResource
  | ptd
  | tid
  | stack
  | tls
  | sem
  deriving DecidableEq

inductive DetachState
  | joinable
  | detached
  deriving DecidableEq

/-- How far a thread is in `pthread_exit`. -/
inductive ExitPhase
  | no
  /-- Before `rt_sem_release`, before `rt_thread_detach`. -/
  | releasing
  | detaching
  | ended
  deriving DecidableEq

inductive ReleasePhase
  | unclaimed
  /-- In the `rt_sem_take` of `pthread_join`. -/
  | waiting
  /-- In `pthread_detach`: before the tests, before the change to detached, before `rt_sem_delete`, before `rt_thread_detach`, before the memory is freed. -/
  | entered
  | changing
  | closing
  | detaching
  | freeing
  | ended
  deriving DecidableEq

/-- `struct _pthread_data` and its `struct rt_thread`. -/
structure Pthread where
  detachstate : DetachState
  /-- `attr.stack_base` is the caller's, `stack_addr` is set. -/
  stackBase : Bool
  stackAddr : Bool
  tls : Bool
  joinableSem : Bool
  value : Nat
  /-- The thread is `RT_THREAD_CLOSE`. -/
  closed : Bool
  /-- The object's type is that of a static thread; else it has been set to 0. -/
  isThread : Bool
  cleanup : Bool
  exit : ExitPhase
  call : ReleasePhase
  allocated : List PthreadResource
  released : List PthreadResource

namespace Pthread

def create (detachstate : DetachState) (stackBase : Bool) : Pthread where
  detachstate := detachstate
  stackBase := stackBase
  stackAddr := true
  tls := false
  joinableSem := detachstate = .joinable
  value := 0
  closed := false
  isThread := true
  cleanup := true
  exit := .no
  call := .unclaimed
  allocated := [.ptd, .tid] ++ (if stackBase then [] else [.stack]) ++ if detachstate = .joinable then [.sem] else []
  released := []

def Usable (p : Pthread) (r : PthreadResource) : Prop := r ∈ p.allocated ∧ r ∉ p.released

instance decidableUsable (p : Pthread) (r : PthreadResource) : Decidable (p.Usable r) := inferInstanceAs (Decidable (_ ∧ _))

def free (p : Pthread) (rs : List PthreadResource) : Pthread := { p with released := rs ++ p.released }

/-- `pthread_setspecific` allocates the area of the keys at the first use. -/
def setspecific (p : Pthread) : Pthread := if p.tls then p else { p with tls := true, allocated := .tls :: p.allocated }

/-- `rt_sem_release (ptd->joinable_sem)` -/
def semRelease (p : Pthread) : Pthread :=
  if p.call = .waiting then { p with call := .entered } else { p with value := p.value + 1 }

/-- `_pthread_cleanup`, where `pthread_detach` of a detached thread returns `EINVAL`. -/
def pthreadCleanup (p : Pthread) : Pthread :=
  match p.detachstate with
  | .joinable => { p with cleanup := false }.semRelease
  | .detached => { p with cleanup := false }

/-- What `pthread_detach` frees in the end, the last first. -/
def owned (p : Pthread) : List PthreadResource :=
  [.ptd, .tid] ++ (if p.tls then [.tls] else []) ++ if p.stackBase then [] else [.stack]

def semaphore (p : Pthread) : List PthreadResource := if p.joinableSem then [.sem] else []

end Pthread

/-- Whether `RT_DEBUG` is defined, without which assertions test nothing; the threads; `rt_thread_defunct`, the latest first; the thread that the idle thread has taken from it and is to free; whether something was used or freed that is not there, or an assertion has failed. -/
structure PthreadSystem where
  debug : Bool
  thread : ThreadId → Option Pthread
  defunct : List ThreadId
  reaping : Option ThreadId
  fault : Bool

namespace PthreadSystem

def init (debug : Bool) : PthreadSystem := ⟨debug, fun _ => none, [], none, false⟩

def set (s : PthreadSystem) (t : ThreadId) (p : Pthread) : PthreadSystem := { s with thread := Function.update s.thread t (some p) }

def fail (s : PthreadSystem) : PthreadSystem := { s with fault := true }

def access (s : PthreadSystem) (p : Pthread) (rs : List PthreadResource) (next : PthreadSystem) : PthreadSystem :=
  if ∀ r ∈ rs, p.Usable r then next else s.fail

/-- `rt_list_insert_after (&rt_thread_defunct, &(thread->tlist))`: a thread that is linked already would close the list on itself. -/
def insertDefunct (s : PthreadSystem) (t : ThreadId) : PthreadSystem :=
  if t ∈ s.defunct then s.fail else { s with defunct := t :: s.defunct }

def threadExit (s : PthreadSystem) (t : ThreadId) (p : Pthread) : PthreadSystem :=
  let p := { p with closed := true }
  if p.isThread ∧ p.cleanup = false then s.set t { p with isThread := false } else (s.set t p).insertDefunct t

/-- `rt_thread_detach`. It asserts that the object is a thread, and `rt_timer_detach` that `thread_timer` is a timer, which it is until the thread is closed. -/
def threadDetach (s : PthreadSystem) (t : ThreadId) (p : Pthread) : PthreadSystem :=
  if s.debug = true ∧ (p.isThread = false ∨ p.closed = true) then s.fail
  else
    let p := { p with closed := true, isThread := false }
    -- `rt_schedule_remove_thread` takes it out of whatever list it is in
    let s := { s with defunct := s.defunct.erase t }
    if p.cleanup then (s.set t p).insertDefunct t else s.set t p

/-- `pthread_exit`, from one piece to the next. -/
def pthreadExit (s : PthreadSystem) (t : ThreadId) (p : Pthread) : Option PthreadSystem :=
  match p.exit with
  | .no =>
    let tls := if p.tls then [.tls] else []
    some (s.access p ([.tid, .ptd] ++ tls) (s.set t { p.free tls with tls := false, exit := .releasing }))
  | .releasing =>
    match p.detachstate with
    | .joinable => some (s.access p [.ptd, .sem] (s.set t { p.semRelease with exit := .detaching }))
    | .detached => some (s.access p [.ptd] (s.set t { p with exit := .detaching }))
  | .detaching => some (s.access p [.ptd, .tid] (s.threadDetach t { p with exit := .ended }))
  | .ended => none

/-- `pthread_join` up to its `rt_sem_take`. -/
def pthreadJoin (s : PthreadSystem) (t : ThreadId) (p : Pthread) : PthreadSystem :=
  match p.detachstate with
  | .detached => s.access p [.tid, .ptd] (s.set t { p with call := .ended })
  | .joinable =>
    s.access p [.tid, .ptd, .sem]
      (if 0 < p.value then s.set t { p with value := p.value - 1, call := .entered } else s.set t { p with call := .waiting })

/-- `pthread_detach`, from one piece to the next. -/
def pthreadDetach (s : PthreadSystem) (t : ThreadId) (p : Pthread) : Option PthreadSystem :=
  match p.call with
  | .entered =>
    some (s.access p [.tid, .ptd] (s.set t { p with
      call := if p.detachstate = .detached then .ended else if p.closed then .closing else .changing }))
  | .changing =>
    some (s.access p [.ptd, .sem] (s.set t { p.free [.sem] with
      detachstate := .detached, joinableSem := false, call := .ended }))
  | .closing => some (s.access p (.ptd :: p.semaphore) (s.set t { p.free p.semaphore with call := .detaching }))
  | .detaching => some (s.access p [.ptd, .tid] (s.threadDetach t { p with call := .freeing }))
  | .freeing => some (s.access p p.owned (s.set t { p.free p.owned with stackAddr := false, call := .ended }))
  | _ => none

/-- `rt_thread_idle_excute` for one thread, up to `rt_exit_critical`. -/
def idle (s : PthreadSystem) (t : ThreadId) (p : Pthread) : PthreadSystem :=
  let used : List PthreadResource := if p.cleanup then [.tid, .ptd] ++ p.semaphore else [.tid]
  let cleaned := s.set t (if p.cleanup then p.pthreadCleanup else p)
  -- "if it's a system object, not delete it"
  s.access p used { cleaned with defunct := s.defunct.tail, reaping := if p.isThread then none else some t }

/-- The rest of it: `RT_KERNEL_FREE (thread->stack_addr)`, even of a stack that the caller has given, and `rt_object_delete`. -/
def idleFree (s : PthreadSystem) (t : ThreadId) (p : Pthread) : PthreadSystem :=
  let freed : List PthreadResource := if p.stackAddr then [.tid, .stack] else [.tid]
  s.access p freed { s.set t (p.free freed) with reaping := none }

end PthreadSystem

inductive PthreadOp
  | create (t : ThreadId) (detachstate : DetachState) (stackBase : Bool)
  /-- A thread asks for the area of its keys, returns from its start routine, goes on in `pthread_exit`. -/
  | setspecific (t : ThreadId)
  | ret (t : ThreadId)
  | exit (t : ThreadId)
  | idle
  | idleFree
  | join (self t : ThreadId)
  | detach (t : ThreadId)
  /-- The call for the thread goes on in `pthread_detach`. -/
  | go (t : ThreadId)
  deriving DecidableEq

namespace PthreadSystem

def next (s : PthreadSystem) : PthreadOp → Option PthreadSystem
  | .create t detachstate stackBase =>
    match s.thread t with
    | none => some (s.set t (.create detachstate stackBase))
    | some _ => none
  | .setspecific t =>
    match s.thread t with
    | some p => if p.closed = false ∧ p.exit = .no then some (s.access p [.tid, .ptd] (s.set t p.setspecific)) else none
    | none => none
  | .ret t =>
    match s.thread t with
    | some p => if p.closed = false ∧ p.exit = .no then some (s.access p [.tid, .ptd] (s.threadExit t p)) else none
    | none => none
  | .exit t =>
    match s.thread t with
    | some p => if p.closed = false then s.pthreadExit t p else none
    | none => none
  | .idle =>
    match s.reaping, s.defunct with
    | none, t :: _ => (s.thread t).map (s.idle t)
    | _, _ => none
  | .idleFree =>
    match s.reaping with
    | some t => (s.thread t).map (s.idleFree t)
    | none => none
  | .join self t =>
    match s.thread t with
    -- `EDEADLK`
    | some p => if p.call = .unclaimed then some (if self = t then s else s.pthreadJoin t p) else none
    | none => none
  | .detach t =>
    match s.thread t with
    | some p => if p.call = .unclaimed then some (s.set t { p with call := .entered }) else none
    | none => none
  | .go t =>
    match s.thread t with
    | some p => s.pthreadDetach t p
    | none => none

def step (s : PthreadSystem) (op : PthreadOp) : Option (PthreadSystem × List PthreadOp) :=
  if s.fault then none else (s.next op).map fun s => (s, [op])

def Settled (s : PthreadSystem) (t : ThreadId) (p : Pthread) : Prop :=
  t ∉ s.defunct ∧ s.reaping ≠ some t ∧ (p.call = .unclaimed ∨ p.call = .waiting ∨ p.call = .ended)

instance decidableSettled (s : PthreadSystem) (t : ThreadId) (p : Pthread) : Decidable (s.Settled t p) :=
  inferInstanceAs (Decidable (_ ∧ _ ∧ _))

end PthreadSystem

abbrev PthreadRun (debug : Bool) (ok : PthreadSystem → PthreadOp → Prop) : List PthreadOp → PthreadSystem → Prop :=
  Transition.Run PthreadSystem.step ok (.init debug)

def Pthread.Finished (p : Pthread) : Prop := p.closed ∧ (p.detachstate = .joinable → p.call ≠ .unclaimed)

instance Pthread.decidableFinished (p : Pthread) : Decidable p.Finished := inferInstanceAs (Decidable (_ ∧ _))

structure ResourcesRight (s : PthreadSystem) : Prop where
  /-- Nothing is used that has been freed, and no assertion fails. -/
  sound : s.fault = false
  once : ∀ t p, s.thread t = some p → ∀ r, p.released.count r ≤ p.allocated.count r
  after : ∀ t p, s.thread t = some p → p.released ≠ [] → p.Finished
  all : ∀ t p, s.thread t = some p → p.Finished → s.Settled t p → ∀ r, p.released.count r = p.allocated.count r

/-- The conditions under which the resources are freed as they should be: threads are created joinable and end by returning; `pthread_detach` finds a thread that has ended, the idle thread has cleaned it up before its semaphore is deleted, and no assertion looks at its timer, which is none any more. -/
def ResourcesSafe (s : PthreadSystem) : PthreadOp → Prop
  | .create _ detachstate _ => detachstate = .joinable
  | .exit _ => False
  | .go t => ∀ p ∈ s.thread t, (p.call = .entered → p.closed) ∧ (p.call = .closing → p.cleanup = false) ∧ (p.call = .detaching → s.debug = false)
  | _ => True

instance ResourcesSafe.decidable (s : PthreadSystem) (op : PthreadOp) : Decidable (ResourcesSafe s op) := by
  cases op <;> unfold ResourcesSafe <;> infer_instance

end RtThread
