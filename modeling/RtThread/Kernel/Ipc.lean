import RtThread.Kernel.Thread

/-!
# Semaphores and mutexes

The semaphore and mutex part of `ipc.c`. A call that blocks is cut at its `rt_schedule`: the first part leaves the call in `Kernel.call`, and the second part runs when the thread has the processor again. The first part gives `none` as its result when the thread has blocked.
-/

namespace RtThread

/-- The search of `rt_ipc_list_suspend` under `RT_IPC_FLAG_PRIO`: before the first thread of lower priority, else at the end. -/
def insertByPriority (priority : ThreadId → Nat) (t : ThreadId) : List ThreadId → List ThreadId
  | [] => [t]
  | s :: rest => if priority t < priority s then t :: s :: rest else s :: insertByPriority priority t rest

def rtIpcListSuspend (cfg : Config) (k : Kernel) (o : IpcObject) (t : ThreadId) (flag : IpcFlag) : Kernel :=
  let k := (rtThreadSuspend cfg k t).2
  match flag with
  | .fifo => rtListInsertBefore k (.suspend o) t
  | .prio =>
    let waiters := insertByPriority (fun u => (k.thread u).currentPriority) t (k.tlist (.suspend o))
    { k with tlist := Function.update k.tlist (.suspend o) waiters }

/-- `rt_ipc_list_resume`; the callers have tested that the list is not empty. -/
def rtIpcListResume (cfg : Config) (k : Kernel) (o : IpcObject) : Kernel :=
  match k.tlist (.suspend o) with
  | [] => k
  | t :: _ => (rtThreadResume cfg k t).2

/-- The loop of `rt_ipc_list_resume_all`, for at most the given number of rounds. -/
def rtIpcListResumeRounds (cfg : Config) (o : IpcObject) : Nat → Kernel → Kernel
  | 0, k => k
  | n + 1, k =>
    match k.tlist (.suspend o) with
    | [] => k
    | t :: _ =>
      let k := k.setThread t fun thread => { thread with error := .error }
      rtIpcListResumeRounds cfg o n (rtThreadResume cfg k t).2

/-- `rt_ipc_list_resume_all`: every round takes the first thread out of the list. -/
def rtIpcListResumeAll (cfg : Config) (k : Kernel) (o : IpcObject) : Kernel :=
  rtIpcListResumeRounds cfg o (k.tlist (.suspend o)).length k

/-- `RT_DEBUG_IN_THREAD_CONTEXT`, with the running thread. -/
def threadContext (k : Kernel) : Option ThreadId :=
  if k.interruptNest = 0 then k.current else none

/-- The end of a blocking take by thread `t`, from `rt_ipc_list_suspend` to `rt_schedule`. -/
def blockOn (cfg : Config) (k : Kernel) (o : IpcObject) (t : ThreadId) (flag : IpcFlag) (time : Int) (call : Call) :
    Option Kernel :=
  let k := rtIpcListSuspend cfg k o t flag
  let timed := if 0 < time then rtThreadTimerStart k t time.toNat else some k
  match timed with
  | none => none
  | some k => some (rtSchedule cfg (k.setCall t (some call)))

/-! ## Semaphores -/

def rtSemTake (cfg : Config) (k : Kernel) (s : SemId) (time : Int) : Option (Option RtErr × Kernel) :=
  if 0 < (k.sem s).value then
    some (some .eok, k.setSem s fun sem => { sem with value := sem.value - 1 })
  else if time = 0 then some (some .etimeout, k)
  else
    match threadContext k with
    | none => none
    | some t =>
      let k := k.setThread t fun thread => { thread with error := .eok }
      (blockOn cfg k (.sem s) t (k.sem s).flag time (.semTake s)).map fun k => (none, k)

/-- The rest of a blocked `rt_sem_take`. -/
def rtSemTakeReturn (k : Kernel) (t : ThreadId) : RtErr × Kernel :=
  ((k.thread t).error, k.setCall t none)

def rtSemRelease (cfg : Config) (k : Kernel) (s : SemId) : Kernel :=
  if k.tlist (.suspend (.sem s)) ≠ [] then
    rtSchedule cfg (rtIpcListResume cfg k (.sem s))
  else k.setSem s fun sem => { sem with value := (sem.value + 1) % 65536 }

/-- `rt_sem_control` with `RT_IPC_CMD_RESET`. -/
def rtSemReset (cfg : Config) (k : Kernel) (s : SemId) (value : Nat) : Kernel :=
  let k := rtIpcListResumeAll cfg k (.sem s)
  let k := k.setSem s fun sem => { sem with value := value % 65536 }
  rtSchedule cfg k

/-! ## Mutexes -/

/-- `rt_mutex_take` from `__again` on. -/
def rtMutexTakeAgain (cfg : Config) (k : Kernel) (m : MutexId) (t : ThreadId) (time : Int) :
    Option (Option RtErr × Kernel) :=
  let mutex := k.mutex m
  if 0 < mutex.value then
    some (some .eok, k.setMutex m fun mutex =>
      { mutex with
        value := mutex.value - 1
        owner := some t
        originalPriority := (k.thread t).currentPriority
        hold := (mutex.hold + 1) % 256 })
  else if time = 0 then
    some (some .etimeout, k.setThread t fun thread => { thread with error := .etimeout })
  else
    match mutex.owner with
    | none => none
    | some owner =>
      let boost := (k.thread t).currentPriority < (k.thread owner).currentPriority
      -- the assertion of rt_thread_control
      if boost ∧ ¬ (k.thread owner).isThread then none
      else
        let k := if boost then rtThreadChangePriority cfg k owner (k.thread t).currentPriority else k
        (blockOn cfg k (.mutex m) t mutex.flag time (.mutexTake m time)).map fun k => (none, k)

def rtMutexTake (cfg : Config) (k : Kernel) (m : MutexId) (time : Int) : Option (Option RtErr × Kernel) :=
  match threadContext k with
  | none => none
  | some t =>
    let k := k.setThread t fun thread => { thread with error := .eok }
    if (k.mutex m).owner = some t then
      some (some .eok, k.setMutex m fun mutex => { mutex with hold := (mutex.hold + 1) % 256 })
    else rtMutexTakeAgain cfg k m t time

/-- The rest of a blocked `rt_mutex_take`; only a signal sends it back to `__again`. -/
def rtMutexTakeReturn (cfg : Config) (k : Kernel) (m : MutexId) (t : ThreadId) (time : Int) :
    Option (Option RtErr × Kernel) :=
  if (k.thread t).error = .eintr then rtMutexTakeAgain cfg (k.setCall t none) m t time
  else some (some (k.thread t).error, k.setCall t none)

/-- The hand-off of `rt_mutex_release`: the first waiter becomes the owner and is resumed. -/
def rtMutexHandOff (cfg : Config) (k : Kernel) (m : MutexId) (t : ThreadId) : Kernel :=
  let k := k.setMutex m fun mutex =>
    { mutex with
      owner := some t
      originalPriority := (k.thread t).currentPriority
      hold := (mutex.hold + 1) % 256 }
  rtSchedule cfg (rtIpcListResume cfg k (.mutex m))

/-- "change the owner thread to original priority" -/
def rtMutexRestorePriority (cfg : Config) (k : Kernel) (m : MutexId) (t : ThreadId) : Kernel :=
  if (k.mutex m).originalPriority ≠ (k.thread t).currentPriority then
    rtThreadChangePriority cfg k t (k.mutex m).originalPriority
  else k

def rtMutexRelease (cfg : Config) (k : Kernel) (m : MutexId) : Option (RtErr × Kernel) :=
  match threadContext k with
  | none => none
  | some t =>
    if (k.mutex m).owner ≠ some t then
      some (.error, k.setThread t fun thread => { thread with error := .error })
    else
      let k := k.setMutex m fun mutex => { mutex with hold := (mutex.hold + 255) % 256 }
      if (k.mutex m).hold = 0 then
        let k := rtMutexRestorePriority cfg k m t
        match k.tlist (.suspend (.mutex m)) with
        | waiter :: _ => some (.eok, rtMutexHandOff cfg k m waiter)
        | [] =>
          some (.eok, k.setMutex m fun mutex =>
            { mutex with
              value := (mutex.value + 1) % 65536
              owner := none
              originalPriority := 0xFF })
      else some (.eok, k)

end RtThread
