import RtThread.Kernel.Scheduler

/-!
# Thread management

`thread.c`. A function whose `RT_ASSERT` can fail gives `none` there: the assertion handler never returns. The built-in timer of a thread is modelled by whether it is started; when it expires is left open.
-/

namespace RtThread

/-- `RT_TICK_MAX / 2` -/
def rtTickHalf : Nat := 0xFFFFFFFF / 2

/-- `rt_timer_control(SET_TIME)` and `rt_timer_start` on the thread's own timer, whose `init_tick` must be below `RT_TICK_MAX / 2`. -/
def rtThreadTimerStart (k : Kernel) (t : ThreadId) (tick : Nat) : Option Kernel :=
  if tick < rtTickHalf then some (k.setThread t fun thread => { thread with timer := true }) else none

/-- `rt_timer_stop` on the thread's own timer. -/
def rtThreadTimerStop (k : Kernel) (t : ThreadId) : Kernel :=
  k.setThread t fun thread => { thread with timer := false }

/-- `rt_thread_suspend`, without its assertion that the thread is the running one: the callers below suspend only the running thread. -/
def rtThreadSuspend (cfg : Config) (k : Kernel) (t : ThreadId) : RtErr × Kernel :=
  if (k.thread t).stat ≠ .ready then (.error, k)
  else
    let k := k.setThread t fun thread => { thread with stat := .suspend }
    let k := rtScheduleRemoveThread cfg k t
    (.eok, rtThreadTimerStop k t)

def rtThreadResume (cfg : Config) (k : Kernel) (t : ThreadId) : RtErr × Kernel :=
  if (k.thread t).stat ≠ .suspend then (.error, k)
  else
    let k := rtListRemove k t
    let k := rtThreadTimerStop k t
    (.eok, rtScheduleInsertThread cfg k t)

/-- `rt_thread_startup`; a thread without `RT_THREAD_INIT` fails the assertion. -/
def rtThreadStartup (cfg : Config) (k : Kernel) (t : ThreadId) : Option Kernel :=
  if (k.thread t).stat = .init ∧ (k.thread t).isThread then
    let k := k.setThread t fun thread =>
      { thread.setPriority cfg thread.initPriority with stat := .suspend }
    let k := (rtThreadResume cfg k t).2
    if k.current ≠ none then some (rtSchedule cfg k) else some k
  else none

/-- `rt_thread_control` with `RT_THREAD_CTRL_CHANGE_PRIORITY`. -/
def rtThreadChangePriority (cfg : Config) (k : Kernel) (t : ThreadId) (priority : Nat) : Kernel :=
  if (k.thread t).stat = .ready then
    let k := rtScheduleRemoveThread cfg k t
    let k := k.setThread t (Thread.setPriority cfg priority)
    rtScheduleInsertThread cfg k t
  else k.setThread t (Thread.setPriority cfg priority)

/-- The timer of a thread expires: `rt_timer_check` unlinks it and calls `rt_thread_timeout`. -/
def rtThreadTimeout (cfg : Config) (k : Kernel) (t : ThreadId) : Option Kernel :=
  if (k.thread t).timer ∧ (k.thread t).stat = .suspend ∧ (k.thread t).isThread then
    let k := k.setThread t fun thread => { thread with timer := false, error := .etimeout }
    let k := rtListRemove k t
    let k := rtScheduleInsertThread cfg k t
    some (rtSchedule cfg k)
  else none

def rtObjectDetach (k : Kernel) (t : ThreadId) : Kernel :=
  k.setThread t fun thread => { thread with isThread := false, isStatic := false }

/-- `rt_thread_exit` by the running thread `t`. -/
def rtThreadExit (cfg : Config) (k : Kernel) (t : ThreadId) : Kernel :=
  let k := rtScheduleRemoveThread cfg k t
  let k := k.setThread t fun thread => { thread with stat := .close, timer := false }
  let k :=
    if (k.thread t).isStatic ∧ ¬ (k.thread t).cleanup then rtObjectDetach k t
    else rtListInsertAfter k .defunct t
  rtSchedule cfg k

/-- What `rt_thread_detach` and `rt_thread_delete` share: off the ready list, timer detached, closed. -/
def rtThreadClose (cfg : Config) (k : Kernel) (t : ThreadId) : Kernel :=
  let k := if (k.thread t).stat ≠ .init then rtScheduleRemoveThread cfg k t else k
  k.setThread t fun thread => { thread with stat := .close, timer := false }

def rtThreadDetach (cfg : Config) (k : Kernel) (t : ThreadId) : Option Kernel :=
  if (k.thread t).isThread ∧ (k.thread t).isStatic then
    let k := rtThreadClose cfg k t
    let k := rtObjectDetach k t
    if (k.thread t).cleanup then some (rtListInsertAfter k .defunct t) else some k
  else none

def rtThreadDelete (cfg : Config) (k : Kernel) (t : ThreadId) : Option Kernel :=
  if (k.thread t).isThread ∧ ¬ (k.thread t).isStatic then
    let k := rtThreadClose cfg k t
    some (rtListInsertAfter k .defunct t)
  else none

/-- `rt_thread_sleep` by the running thread `t`, up to its `rt_schedule`. -/
def rtThreadSleep (cfg : Config) (k : Kernel) (t : ThreadId) (tick : Nat) : Option Kernel :=
  let k := (rtThreadSuspend cfg k t).2
  match rtThreadTimerStart k t tick with
  | none => none
  | some k => some (rtSchedule cfg (k.setCall t (some .sleep)))

/-- The rest of `rt_thread_sleep`: "clear error number of this thread to RT_EOK". -/
def rtThreadSleepReturn (k : Kernel) (t : ThreadId) : Kernel :=
  let k := k.setCall t none
  if (k.thread t).error = .etimeout then k.setThread t fun thread => { thread with error := .eok } else k

end RtThread
