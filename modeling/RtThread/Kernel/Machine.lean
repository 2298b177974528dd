import RtThread.Kernel.Ipc
import RtThread.Lib.Transition

/-!
# The kernel as a state machine

One step is one kernel call up to the point where the processor changes hands: a call made by the running thread or by an interrupt handler, the expiry of a thread's timer, or the return of a call in which the running thread had blocked. Which thread runs is decided by `rt_schedule` alone.
-/

namespace RtThread

inductive Op
  | startup (t : ThreadId)
  | schedulerStart
  | schedule
  | suspend (t : ThreadId)
  | resume (t : ThreadId)
  | timeout (t : ThreadId)
  | changePriority (t : ThreadId) (priority : Nat)
  | exit
  | detach (t : ThreadId)
  | delete (t : ThreadId)
  | sleep (tick : Nat)
  | enterCritical
  | exitCritical
  | interruptEnter
  | interruptLeave
  | semTake (s : SemId) (time : Int)
  | semRelease (s : SemId)
  | semReset (s : SemId) (value : Nat)
  | mutexTake (m : MutexId) (time : Int)
  | mutexRelease (m : MutexId)
  /-- The running thread returns from the call it had blocked in. -/
  | finish
  deriving DecidableEq

inductive Event
  /-- A take returns; no thread when an interrupt handler made it. -/
  | semTake (s : SemId) (t : Option ThreadId) (result : RtErr)
  | semRelease (s : SemId) (woken : Option ThreadId)
  | semReset (s : SemId) (value : Nat)
  | mutexTake (m : MutexId) (t : ThreadId) (result : RtErr)
  /-- A release returns; `next` is the waiter the mutex is handed to. -/
  | mutexRelease (m : MutexId) (t : ThreadId) (result : RtErr) (next : Option ThreadId)
  deriving DecidableEq

/-- The running thread is executing its own code and may make a kernel call. A thread that has been suspended executes nothing until it is ready again: the idle thread is always there to take over. Only with the scheduler locked does `rt_schedule` come back to a suspended thread, which then goes on in the call it blocked in. -/
def AtCall (k : Kernel) (self : ThreadId) : Prop :=
  k.interruptNest = 0 ∧ k.call self = none ∧ (k.thread self).stat = .ready

instance (k : Kernel) (self : ThreadId) : Decidable (AtCall k self) :=
  inferInstanceAs (Decidable (_ ∧ _ ∧ _))

def takeEvents (event : RtErr → Event) : Option RtErr × Kernel → Kernel × List Event
  | (some result, k) => (k, [event result])
  | (none, k) => (k, [])

def nextOwner (k : Kernel) (m : MutexId) (self : ThreadId) : Option ThreadId :=
  if (k.mutex m).owner = some self ∧ ((k.mutex m).hold + 255) % 256 = 0 then (k.tlist (.suspend (.mutex m))).head?
  else none

/-- The running thread `self` goes on in the call it had blocked in. -/
def finish (cfg : Config) (k : Kernel) (self : ThreadId) : Option (Kernel × List Event) :=
  match k.call self with
  | none => none
  | some .sleep => some (rtThreadSleepReturn k self, [])
  | some (.semTake s) =>
    let (result, k) := rtSemTakeReturn k self
    some (k, [.semTake s (some self) result])
  | some (.mutexTake m time) =>
    (rtMutexTakeReturn cfg k m self time).map (takeEvents (.mutexTake m self))

/-- A step while `self` is the running thread. -/
def stepRunning (cfg : Config) (k : Kernel) (self : ThreadId) : Op → Option (Kernel × List Event)
  | .startup t => (rtThreadStartup cfg k t).map (·, [])
  | .schedulerStart => none
  | .schedule => some (rtSchedule cfg k, [])
  | .suspend t =>
    -- RT_ASSERT(thread == rt_thread_self())
    if (k.thread t).isThread ∧ ((k.thread t).stat = .ready → t = self) then some ((rtThreadSuspend cfg k t).2, [])
    else none
  | .resume t => if (k.thread t).isThread then some ((rtThreadResume cfg k t).2, []) else none
  | .timeout t => (rtThreadTimeout cfg k t).map (·, [])
  | .changePriority t priority =>
    if (k.thread t).isThread ∧ priority < cfg.priorityMax then some (rtThreadChangePriority cfg k t priority, [])
    else none
  | .exit => if k.interruptNest = 0 ∧ k.call self = none then some (rtThreadExit cfg k self, []) else none
  | .detach t => (rtThreadDetach cfg k t).map (·, [])
  | .delete t => (rtThreadDelete cfg k t).map (·, [])
  | .sleep tick => if AtCall k self then (rtThreadSleep cfg k self tick).map (·, []) else none
  | .enterCritical => some (rtEnterCritical k, [])
  | .exitCritical => some (rtExitCritical cfg k, [])
  | .interruptEnter => some ({ k with interruptNest := k.interruptNest + 1 }, [])
  | .interruptLeave =>
    if 0 < k.interruptNest then some ({ k with interruptNest := k.interruptNest - 1 }, []) else none
  | .semTake s time =>
    if k.interruptNest ≠ 0 ∨ AtCall k self then
      (rtSemTake cfg k s time).map (takeEvents (.semTake s (threadContext k)))
    else none
  | .semRelease s => some (rtSemRelease cfg k s, [.semRelease s (k.tlist (.suspend (.sem s))).head?])
  | .semReset s value => some (rtSemReset cfg k s value, [.semReset s value])
  | .mutexTake m time =>
    if AtCall k self then (rtMutexTake cfg k m time).map (takeEvents (.mutexTake m self)) else none
  | .mutexRelease m =>
    if AtCall k self then
      (rtMutexRelease cfg k m).map fun r => (r.2, [.mutexRelease m self r.1 (nextOwner k m self)])
    else none
  | .finish => if k.interruptNest = 0 ∧ ((k.thread self).stat = .ready ∨ k.lockNest ≠ 0) then finish cfg k self else none

/-- One step. Before `rt_system_scheduler_start` there is no running thread, and threads can only be started. -/
def step (cfg : Config) (k : Kernel) (op : Op) : Option (Kernel × List Event) :=
  match k.current, op with
  | some self, op => stepRunning cfg k self op
  | none, .startup t => (rtThreadStartup cfg k t).map (·, [])
  | none, .schedulerStart => (rtSystemSchedulerStart cfg k).map (·, [])
  | none, _ => none

/-- The runs of the kernel from boot, all of whose steps meet `ok`. -/
abbrev KernelRun {cfg : Config} (ok : Kernel → Op → Prop) (setup : Setup cfg) : List Event → Kernel → Prop :=
  Transition.Run (step cfg) ok (Kernel.boot setup)

/-- A system of 32 priorities. The threads have the given priorities, and the lowest one beyond them; semaphores are empty, and waiters queue in order of arrival. -/
def Setup.ofPriorities (priorities : List Nat) : Setup ⟨32, by decide⟩ where
  priority t := min (priorities.getD t 31) 31
  priority_lt t := by dsimp only; omega
  isStatic _ := true
  cleanup _ := false
  semValue _ := 0
  semFlag _ := .fifo
  mutexFlag _ := .fifo

theorem exists_kernelRun {cfg : Config} (setup : Setup cfg) (ok : Kernel → Op → Prop)
    [∀ k op, Decidable (ok k op)] (ops : List Op) (found : List Event → Kernel → Bool)
    (h : ((Transition.exec (step cfg) ok (Kernel.boot setup) ops).any fun r => found r.1 r.2) = true) :
    ∃ trace k, KernelRun ok setup trace k ∧ found trace k = true :=
  Transition.exists_run_of_exec ops found h

end RtThread
