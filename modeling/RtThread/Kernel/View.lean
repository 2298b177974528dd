import RtThread.Kernel.ReadyQueue

/-!
# The kernel without its ready queue

What a thread can tell of the kernel: the threads, who waits for what, the semaphores and mutexes, and the calls in progress. Which ready thread has the processor is left out, so scheduling is invisible. `ViewStep` lists everything that a step can do here; the invariants of the semaphores and mutexes are proved from that list and never look into the scheduler.
-/

namespace RtThread

open Function

variable {cfg : Config} {k k' : Kernel} {t u : ThreadId}

@[ext] structure View where
  thread : ThreadId → Thread
  /-- The threads suspended on an object, first waiter first. -/
  waiters : IpcObject → List ThreadId
  sem : SemId → Sem
  mutex : MutexId → Mutex
  call : ThreadId → Option Call
  /-- With the scheduler locked a blocked call goes on without having been woken. -/
  lockNest : Nat

def Kernel.view (k : Kernel) : View where
  thread := k.thread
  waiters o := k.tlist (.suspend o)
  sem := k.sem
  mutex := k.mutex
  call := k.call
  lockNest := k.lockNest

namespace View

def setThread (v : View) (t : ThreadId) (f : Thread → Thread) : View :=
  { v with thread := update v.thread t (f (v.thread t)) }

def setCall (v : View) (t : ThreadId) (c : Option Call) : View :=
  { v with call := update v.call t c }

def setSem (v : View) (s : SemId) (f : Sem → Sem) : View :=
  { v with sem := update v.sem s (f (v.sem s)) }

def setMutex (v : View) (m : MutexId) (f : Mutex → Mutex) : View :=
  { v with mutex := update v.mutex m (f (v.mutex m)) }

def unlink (v : View) (t : ThreadId) : View :=
  { v with waiters := fun o => (v.waiters o).erase t }

/-- A thread becomes ready; `f` is what else happens to it. -/
def wake (v : View) (t : ThreadId) (f : Thread → Thread) : View :=
  (v.unlink t).setThread t fun thread => { f thread with stat := .ready, timer := false }

/-- All waiters of an object become ready, with `RT_ERROR`. -/
def wakeAll (v : View) (o : IpcObject) : View :=
  { v with
    thread := fun t =>
      if t ∈ v.waiters o then { v.thread t with error := .error, stat := .ready, timer := false } else v.thread t
    waiters := update v.waiters o [] }

def joined (v : View) (o : IpcObject) (t : ThreadId) : IpcFlag → List ThreadId
  | .fifo => v.waiters o ++ [t]
  | .prio => insertByPriority (fun u => (v.thread u).currentPriority) t (v.waiters o)

def block (v : View) (o : IpcObject) (t : ThreadId) (flag : IpcFlag) (time : Int) (call : Call) : View :=
  { v with
    thread := update v.thread t { v.thread t with stat := .suspend, timer := decide (0 < time) }
    waiters := update v.waiters o (v.joined o t flag)
    call := update v.call t (some call) }

def close (v : View) (t : ThreadId) (isThread isStatic : Bool) : View :=
  (v.unlink t).setThread t fun thread =>
    { thread with stat := .close, timer := false, isThread := isThread, isStatic := isStatic }

def own (v : View) (m : MutexId) (t : ThreadId) (value : Nat) : View :=
  v.setMutex m fun mutex =>
    { mutex with
      value := value
      owner := some t
      originalPriority := (v.thread t).currentPriority
      hold := (mutex.hold + 1) % 256 }

def inherit (cfg : Config) (v : View) (owner : ThreadId) (priority : Nat) : View :=
  if priority < (v.thread owner).currentPriority then v.setThread owner (Thread.setPriority cfg priority) else v

def restore (cfg : Config) (v : View) (m : MutexId) (t : ThreadId) : View :=
  if (v.mutex m).originalPriority ≠ (v.thread t).currentPriority then
    v.setThread t (Thread.setPriority cfg (v.mutex m).originalPriority)
  else v

def letGo (cfg : Config) (v : View) (m : MutexId) (t : ThreadId) : View :=
  (v.setMutex m fun mutex => { mutex with hold := 0 }).restore cfg m t

def free (v : View) (m : MutexId) : View :=
  v.setMutex m fun mutex =>
    { mutex with
      value := (mutex.value + 1) % 65536
      owner := none
      originalPriority := 0xFF }

def AtCall (v : View) (t : ThreadId) : Prop := (v.thread t).stat = .ready ∧ v.call t = none

def clearError (v : View) (t : ThreadId) : View := v.setThread t fun thread => { thread with error := .eok }

@[simp] theorem setThread_self (v : View) (t : ThreadId) (f : Thread → Thread) :
    (v.setThread t f).thread t = f (v.thread t) := update_self ..

theorem setThread_ne (v : View) (f : Thread → Thread) (h : u ≠ t) : (v.setThread t f).thread u = v.thread u :=
  update_of_ne h ..

@[simp] theorem setCall_self (v : View) (t : ThreadId) (c : Option Call) : (v.setCall t c).call t = c :=
  update_self ..

theorem setCall_ne (v : View) (c : Option Call) (h : u ≠ t) : (v.setCall t c).call u = v.call u :=
  update_of_ne h ..

@[simp] theorem setSem_self (v : View) (s : SemId) (f : Sem → Sem) : (v.setSem s f).sem s = f (v.sem s) :=
  update_self ..

theorem setSem_ne (v : View) (f : Sem → Sem) {s s' : SemId} (h : s' ≠ s) : (v.setSem s f).sem s' = v.sem s' :=
  update_of_ne h ..

@[simp] theorem setMutex_self (v : View) (m : MutexId) (f : Mutex → Mutex) :
    (v.setMutex m f).mutex m = f (v.mutex m) := update_self ..

theorem setMutex_ne (v : View) (f : Mutex → Mutex) {m m' : MutexId} (h : m' ≠ m) :
    (v.setMutex m f).mutex m' = v.mutex m' := update_of_ne h ..

theorem setMutex_congr {v : View} {m : MutexId} {f g : Mutex → Mutex} (h : f (v.mutex m) = g (v.mutex m)) :
    v.setMutex m f = v.setMutex m g := by
  rw [setMutex, h, setMutex]

@[simp] theorem wake_mutex (v : View) (t : ThreadId) (f : Thread → Thread) : (v.wake t f).mutex = v.mutex := rfl

theorem own_mutex_self (v : View) (m : MutexId) (t : ThreadId) (value : Nat) :
    (v.own m t value).mutex m = { v.mutex m with
      value := value, owner := some t, originalPriority := (v.thread t).currentPriority
      hold := ((v.mutex m).hold + 1) % 256 } :=
  v.setMutex_self ..

theorem own_mutex_ne (v : View) {m m' : MutexId} (h : m' ≠ m) (t : ThreadId) (value : Nat) :
    (v.own m t value).mutex m' = v.mutex m' :=
  v.setMutex_ne _ h

theorem free_mutex_self (v : View) (m : MutexId) :
    (v.free m).mutex m = { v.mutex m with
      value := ((v.mutex m).value + 1) % 65536, owner := none, originalPriority := 0xFF } :=
  v.setMutex_self ..

theorem free_mutex_ne (v : View) {m m' : MutexId} (h : m' ≠ m) : (v.free m).mutex m' = v.mutex m' :=
  v.setMutex_ne _ h

theorem unlink_of_not_mem {v : View} {t : ThreadId} (h : ∀ o, t ∉ v.waiters o) : v.unlink t = v :=
  View.ext rfl (funext fun o => List.erase_of_not_mem (h o)) rfl rfl rfl rfl

theorem setThread_congr {v : View} {t : ThreadId} {f g : Thread → Thread} (h : f (v.thread t) = g (v.thread t)) :
    v.setThread t f = v.setThread t g := by
  rw [setThread, h, setThread]

theorem setThread_same {v : View} {t : ThreadId} {f : Thread → Thread} (h : f (v.thread t) = v.thread t) :
    v.setThread t f = v := by
  rw [setThread, h, update_eq_self]

theorem setThread_setThread (v : View) (t : ThreadId) (f g : Thread → Thread) :
    (v.setThread t f).setThread t g = v.setThread t fun thread => g (f thread) := by
  simp only [setThread, update_self, update_idem]

theorem wakeAll_waiters_ne (v : View) {o o' : IpcObject} (ho : o' ≠ o) : (v.wakeAll o).waiters o' = v.waiters o' :=
  update_of_ne ho ..

theorem block_waiters_self (v : View) (o : IpcObject) (t : ThreadId) (flag : IpcFlag) (time : Int) (call : Call) :
    (v.block o t flag time call).waiters o = v.joined o t flag :=
  update_self ..

theorem block_waiters_ne (v : View) {o o' : IpcObject} (ho : o' ≠ o) (t : ThreadId) (flag : IpcFlag) (time : Int)
    (call : Call) : (v.block o t flag time call).waiters o' = v.waiters o' :=
  update_of_ne ho ..

theorem inherit_mutex (cfg : Config) (v : View) (owner : ThreadId) (priority : Nat) :
    (v.inherit cfg owner priority).mutex = v.mutex := by
  unfold inherit
  split_ifs <;> rfl

theorem inherit_sem (cfg : Config) (v : View) (owner : ThreadId) (priority : Nat) :
    (v.inherit cfg owner priority).sem = v.sem := by
  unfold inherit
  split_ifs <;> rfl

theorem letGo_sem (cfg : Config) (v : View) (m : MutexId) (t : ThreadId) : (v.letGo cfg m t).sem = v.sem := by
  unfold letGo restore
  split_ifs <;> rfl

theorem inherit_call (cfg : Config) (v : View) (owner : ThreadId) (priority : Nat) :
    (v.inherit cfg owner priority).call = v.call := by
  unfold inherit
  split_ifs <;> rfl

theorem inherit_error (cfg : Config) (v : View) (owner u : ThreadId) (priority : Nat) :
    ((v.inherit cfg owner priority).thread u).error = (v.thread u).error := by
  unfold inherit
  split_ifs
  · by_cases hu : u = owner
    · subst hu
      rw [setThread_self, Thread.setPriority_error]
    · rw [v.setThread_ne _ hu]
  · rfl

theorem inherit_lockNest (cfg : Config) (v : View) (owner : ThreadId) (priority : Nat) :
    (v.inherit cfg owner priority).lockNest = v.lockNest := by
  unfold inherit
  split_ifs <;> rfl

theorem letGo_lockNest (cfg : Config) (v : View) (m : MutexId) (t : ThreadId) :
    (v.letGo cfg m t).lockNest = v.lockNest := by
  unfold letGo restore
  split_ifs <;> rfl

theorem inherit_waiters (cfg : Config) (v : View) (owner : ThreadId) (priority : Nat) :
    (v.inherit cfg owner priority).waiters = v.waiters := by
  unfold inherit
  split_ifs <;> rfl

theorem restore_waiters (cfg : Config) (v : View) (m : MutexId) (t : ThreadId) :
    (v.restore cfg m t).waiters = v.waiters := by
  unfold restore
  split_ifs <;> rfl

theorem restore_mutex (cfg : Config) (v : View) (m : MutexId) (t : ThreadId) :
    (v.restore cfg m t).mutex = v.mutex := by
  unfold restore
  split_ifs <;> rfl

theorem setPriority_currentPriority (cfg : Config) (v : View) (t u : ThreadId) (priority : Nat) :
    ((v.setThread t (Thread.setPriority cfg priority)).thread u).currentPriority =
      if u = t then priority else (v.thread u).currentPriority := by
  split_ifs with hu
  · subst hu
    rw [setThread_self, Thread.setPriority_currentPriority]
  · rw [v.setThread_ne _ hu]

theorem setPriority_stat (cfg : Config) (v : View) (t u : ThreadId) (priority : Nat) :
    ((v.setThread t (Thread.setPriority cfg priority)).thread u).stat = (v.thread u).stat := by
  by_cases hu : u = t
  · subst hu
    rw [setThread_self, Thread.setPriority_stat]
  · rw [v.setThread_ne _ hu]

theorem inherit_stat (cfg : Config) (v : View) (owner u : ThreadId) (priority : Nat) :
    ((v.inherit cfg owner priority).thread u).stat = (v.thread u).stat := by
  unfold inherit
  split_ifs
  · exact v.setPriority_stat cfg owner u priority
  · rfl

theorem letGo_stat (cfg : Config) (v : View) (m : MutexId) (t u : ThreadId) :
    ((v.letGo cfg m t).thread u).stat = (v.thread u).stat := by
  unfold letGo restore
  split_ifs
  · exact setPriority_stat ..
  · rfl

theorem restore_currentPriority (cfg : Config) (v : View) (m : MutexId) (t u : ThreadId) :
    ((v.restore cfg m t).thread u).currentPriority =
      if u = t then (v.mutex m).originalPriority else (v.thread u).currentPriority := by
  unfold restore
  split_ifs with hdiffers hu hu
  · rw [setPriority_currentPriority, if_pos hu]
  · rw [setPriority_currentPriority, if_neg hu]
  · rw [hu, not_not.1 hdiffers]
  · rfl

theorem letGo_currentPriority (cfg : Config) (v : View) (m : MutexId) (t u : ThreadId) :
    ((v.letGo cfg m t).thread u).currentPriority =
      if u = t then (v.mutex m).originalPriority else (v.thread u).currentPriority := by
  rw [letGo, restore_currentPriority, setMutex_self]
  rfl

theorem letGo_mutex (cfg : Config) (v : View) (m : MutexId) (t : ThreadId) :
    (v.letGo cfg m t).mutex = update v.mutex m { v.mutex m with hold := 0 } := by
  rw [letGo, restore_mutex]
  rfl

theorem letGo_waiters (cfg : Config) (v : View) (m : MutexId) (t : ThreadId) :
    (v.letGo cfg m t).waiters = v.waiters := by
  rw [letGo, restore_waiters]
  rfl

theorem inherit_currentPriority (cfg : Config) (v : View) (owner u : ThreadId) (priority : Nat) :
    ((v.inherit cfg owner priority).thread u).currentPriority =
      if u = owner then min priority (v.thread u).currentPriority else (v.thread u).currentPriority := by
  unfold inherit
  split_ifs with hlt hu hu
  · rw [setPriority_currentPriority, if_pos hu, hu, min_eq_left hlt.le]
  · rw [setPriority_currentPriority, if_neg hu]
  · rw [hu, min_eq_right (not_lt.1 hlt)]
  · rfl

end View

def Op.Silent : Op → Prop
  | .schedulerStart | .schedule | .interruptEnter | .interruptLeave => True
  | _ => False

/-- What a step can do, and when; `self` has the processor. -/
inductive ViewStep (cfg : Config) (self : Option ThreadId) (v : View) : Op → List Event → View → Prop
  | silent (op : Op) (hop : op.Silent) : ViewStep cfg self v op [] v
  | enterCritical : ViewStep cfg self v .enterCritical [] { v with lockNest := v.lockNest + 1 }
  | exitCritical : ViewStep cfg self v .exitCritical [] { v with lockNest := v.lockNest - 1 }
  | startup (t : ThreadId) (hstat : (v.thread t).stat = .init) :
      ViewStep cfg self v (.startup t) []
        (v.wake t fun thread => thread.setPriority cfg thread.initPriority)
  | suspend (t : ThreadId) (hstat : (v.thread t).stat = .ready) :
      ViewStep cfg self v (.suspend t) [] (v.setThread t fun thread => { thread with stat := .suspend, timer := false })
  | suspendFails (t : ThreadId) (hstat : (v.thread t).stat ≠ .ready) : ViewStep cfg self v (.suspend t) [] v
  | resume (t : ThreadId) (hstat : (v.thread t).stat = .suspend) : ViewStep cfg self v (.resume t) [] (v.wake t id)
  | resumeFails (t : ThreadId) (hstat : (v.thread t).stat ≠ .suspend) : ViewStep cfg self v (.resume t) [] v
  | timeout (t : ThreadId) (hstat : (v.thread t).stat = .suspend) (htimer : (v.thread t).timer) :
      ViewStep cfg self v (.timeout t) [] (v.wake t fun thread => { thread with error := .etimeout })
  | changePriority (t : ThreadId) (priority : Nat) (hlt : priority < cfg.priorityMax) :
      ViewStep cfg self v (.changePriority t priority) [] (v.setThread t (Thread.setPriority cfg priority))
  | close (op : Op) (t : ThreadId) (isThread isStatic : Bool) (hop : op = .exit ∨ op = .detach t ∨ op = .delete t)
      (hcall : op = .exit → v.call t = none) : ViewStep cfg self v op [] (v.close t isThread isStatic)
  | sleep (t : ThreadId) (tick : Nat) (hcall : v.AtCall t) :
      ViewStep cfg self v (.sleep tick) []
        ((v.setThread t fun thread => { thread with stat := .suspend, timer := true }).setCall t (some .sleep))
  | sleepReturn (t : ThreadId) (hcall : v.call t = some .sleep)
      (hready : (v.thread t).stat = .ready ∨ v.lockNest ≠ 0) :
      ViewStep cfg self v .finish []
        ((v.setThread t fun thread =>
          { thread with error := if thread.error = .etimeout then .eok else thread.error }).setCall t none)
  | semTake (s : SemId) (time : Int) (t : Option ThreadId) (hcall : ∀ u, t = some u → v.AtCall u)
      (hvalue : 0 < (v.sem s).value) :
      ViewStep cfg self v (.semTake s time) [.semTake s t .eok]
        (v.setSem s fun sem => { sem with value := sem.value - 1 })
  | semTakeFails (s : SemId) (t : Option ThreadId) (hcall : ∀ u, t = some u → v.AtCall u)
      (hvalue : (v.sem s).value = 0) :
      ViewStep cfg self v (.semTake s 0) [.semTake s t .etimeout] v
  | semTakeBlocks (s : SemId) (time : Int) (t : ThreadId) (hcall : v.AtCall t) (hvalue : (v.sem s).value = 0)
      (htime : time ≠ 0) :
      ViewStep cfg self v (.semTake s time) []
        ((v.clearError t).block (.sem s) t (v.sem s).flag time (.semTake s))
  | semTakeReturns (s : SemId) (t : ThreadId) (hcall : v.call t = some (.semTake s))
      (hready : (v.thread t).stat = .ready ∨ v.lockNest ≠ 0) :
      ViewStep cfg self v .finish [.semTake s (some t) (v.thread t).error] (v.setCall t none)
  | semReleaseWakes (s : SemId) (t : ThreadId) (rest : List ThreadId) (hwaiters : v.waiters (.sem s) = t :: rest) :
      ViewStep cfg self v (.semRelease s) [.semRelease s (some t)] (v.wake t id)
  | semReleaseCounts (s : SemId) (hwaiters : v.waiters (.sem s) = []) :
      ViewStep cfg self v (.semRelease s) [.semRelease s none]
        (v.setSem s fun sem => { sem with value := (sem.value + 1) % 65536 })
  | semReset (s : SemId) (value : Nat) :
      ViewStep cfg self v (.semReset s value) [.semReset s value]
        ((v.wakeAll (.sem s)).setSem s fun sem => { sem with value := value % 65536 })
  | mutexTakeNested (m : MutexId) (time : Int) (t : ThreadId) (hcall : v.AtCall t)
      (howner : (v.mutex m).owner = some t)
      (hself : self = some t) :
      ViewStep cfg self v (.mutexTake m time) [.mutexTake m t .eok]
        ((v.clearError t).setMutex m fun mutex => { mutex with hold := (mutex.hold + 1) % 256 })
  | mutexTake (m : MutexId) (time : Int) (t : ThreadId) (hcall : v.AtCall t) (howner : (v.mutex m).owner ≠ some t)
      (hvalue : 0 < (v.mutex m).value)
      (hself : self = some t) :
      ViewStep cfg self v (.mutexTake m time) [.mutexTake m t .eok]
        ((v.clearError t).own m t ((v.mutex m).value - 1))
  | mutexTakeFails (m : MutexId) (t : ThreadId) (hcall : v.AtCall t) (howner : (v.mutex m).owner ≠ some t)
      (hvalue : (v.mutex m).value = 0)
      (hself : self = some t) :
      ViewStep cfg self v (.mutexTake m 0) [.mutexTake m t .etimeout]
        (v.setThread t fun thread => { thread with error := .etimeout })
  | mutexTakeBlocks (m : MutexId) (time : Int) (t owner : ThreadId) (hcall : v.AtCall t) (hne : owner ≠ t)
      (howner : (v.mutex m).owner = some owner) (hvalue : (v.mutex m).value = 0) (htime : time ≠ 0)
      (hself : self = some t) :
      ViewStep cfg self v (.mutexTake m time) []
        (((v.clearError t).inherit cfg owner (v.thread t).currentPriority).block (.mutex m) t (v.mutex m).flag time
          (.mutexTake m time))
  | mutexTakeReturns (m : MutexId) (time : Int) (t : ThreadId) (hcall : v.call t = some (.mutexTake m time))
      (hready : (v.thread t).stat = .ready ∨ v.lockNest ≠ 0) :
      ViewStep cfg self v .finish [.mutexTake m t (v.thread t).error] (v.setCall t none)
  | mutexReleaseFails (m : MutexId) (t : ThreadId) (hcall : v.AtCall t) (howner : (v.mutex m).owner ≠ some t)
      (hself : self = some t) :
      ViewStep cfg self v (.mutexRelease m) [.mutexRelease m t .error none]
        (v.setThread t fun thread => { thread with error := .error })
  | mutexReleaseNested (m : MutexId) (t : ThreadId) (hcall : v.AtCall t) (howner : (v.mutex m).owner = some t)
      (hhold : ((v.mutex m).hold + 255) % 256 ≠ 0)
      (hself : self = some t) :
      ViewStep cfg self v (.mutexRelease m) [.mutexRelease m t .eok none]
        (v.setMutex m fun mutex => { mutex with hold := (mutex.hold + 255) % 256 })
  | mutexReleaseHandOff (m : MutexId) (t next : ThreadId) (rest : List ThreadId) (hcall : v.AtCall t)
      (howner : (v.mutex m).owner = some t) (hhold : ((v.mutex m).hold + 255) % 256 = 0)
      (hwaiters : v.waiters (.mutex m) = next :: rest)
      (hself : self = some t) :
      ViewStep cfg self v (.mutexRelease m) [.mutexRelease m t .eok (some next)]
        (((v.letGo cfg m t).own m next (v.mutex m).value).wake next id)
  | mutexReleaseFree (m : MutexId) (t : ThreadId) (hcall : v.AtCall t)
      (howner : (v.mutex m).owner = some t) (hhold : ((v.mutex m).hold + 255) % 256 = 0)
      (hwaiters : v.waiters (.mutex m) = [])
      (hself : self = some t) :
      ViewStep cfg self v (.mutexRelease m) [.mutexRelease m t .eok none] ((v.letGo cfg m t).free m)

theorem ViewStep.lockNest_zero {self : Option ThreadId} {v v' : View} {op : Op} {events : List Event}
    (h : ViewStep cfg self v op events v')
    (hop : op ≠ .enterCritical) (hlock : v.lockNest = 0) : v'.lockNest = 0 := by
  cases h with
  | enterCritical => exact absurd rfl hop
  | exitCritical => exact (congrArg (· - 1) hlock).trans (Nat.zero_sub 1)
  | mutexTakeBlocks m time t owner => exact (View.inherit_lockNest ..).trans hlock
  | mutexReleaseHandOff m t => exact (View.letGo_lockNest ..).trans hlock
  | mutexReleaseFree m t => exact (View.letGo_lockNest ..).trans hlock
  | _ => exact hlock

end RtThread
