import RtThread.Ipc.WaitList
import RtThread.Lib.Transition

/-!
# Signals

`signal.c`, for threads that wait on one IPC object. A signal that is not masked takes a suspended thread off the list it waits in. Any other thread runs the handler on top of what it is doing. What the call that had blocked sees of this is `thread->error`.

The steps are the sections between two points at which an interrupt can come in. Which thread goes on is left open, and so is the caller of `rt_thread_kill`, which may be an interrupt handler. Signal handlers make no calls that block.
-/

namespace RtThread

open Function

inductive SigFrame
  /-- `rt_thread_handle_sig(cleanState)` is called. -/
  | handle (cleanState : Bool)
  /-- `rt_thread_handle_sig` has called the handler of a signal. -/
  | handler (cleanState : Bool) (signo : Nat)
  /-- The rest of `_signal_entry`. -/
  | leave
  deriving DecidableEq

inductive SigPoint
  | own
  /-- It has suspended itself and has yet to enter `rt_schedule`. -/
  | suspending
  /-- `rt_schedule` has switched to another thread. -/
  | switched
  /-- `rt_schedule` has returned, but for the signals that are handled at its end. -/
  | returned
  /-- `rt_mutex_take` at `__again`, and behind it: "mutex is available" up to the `hold`, and "mutex is unavailable". -/
  | again | decrease | setOwner | setPriority | increase | boost | wait
  deriving DecidableEq

/-- What signals and blocking calls use of `struct rt_thread`. -/
structure SigThread extends Waiter where
  /-- The status is `RT_THREAD_SUSPEND`; else the thread is ready. -/
  suspended : Bool
  /-- `RT_THREAD_STAT_SIGNAL` -/
  statSignal : Bool
  /-- `RT_THREAD_STAT_SIGNAL_WAIT` -/
  statSignalWait : Bool
  sigPending : BitVec 32
  sigMask : BitVec 32
  /-- The `si_signo` of the nodes of `si_list`. -/
  siList : List Nat
  frames : List SigFrame
  point : SigPoint
  time : Int
  deriving DecidableEq

def sigMask (signo : Nat) : BitVec 32 := 1#32 <<< signo

/-- The loop of `rt_thread_handle_sig` up to the call of a handler, or to its end. -/
def handleSigLoop (cleanState : Bool) (thread : SigThread) : SigThread :=
  match thread.siList with
  | signo :: siList =>
    if thread.sigPending &&& thread.sigMask ≠ 0 then
      { thread with siList, frames := .handler cleanState signo :: thread.frames }
    else { thread with statSignal := thread.statSignal && !cleanState }
  | [] => { thread with statSignal := thread.statSignal && !cleanState }

def rtThreadHandleSig (cleanState : Bool) (thread : SigThread) : SigThread :=
  if thread.sigPending &&& thread.sigMask ≠ 0 ∧ thread.statSignalWait = false then handleSigLoop cleanState thread
  else thread

def handlerReturned (signo : Nat) (thread : SigThread) : SigThread :=
  { thread with sigPending := thread.sigPending &&& ~~~sigMask signo, error := .eintr }

def SigThread.goOn (thread : SigThread) : Option SigThread :=
  match thread.frames with
  | [] => none
  | .handle cleanState :: frames => some (rtThreadHandleSig cleanState { thread with frames })
  | .handler cleanState signo :: frames => some (handleSigLoop cleanState (handlerReturned signo { thread with frames }))
  | .leave :: frames => some { thread with frames, statSignal := false }

/-- How far an `rt_thread_kill` has got: it has yet to allocate the info node, to make the test of `_signal_deliver`, and to do the rest of it. -/
inductive KillStage
  | info (sig : Nat) | test | deliver
  deriving DecidableEq

/-- The threads, the suspend list of the object, and the calls of `rt_thread_kill` under way. -/
structure SigKernel where
  thread : ThreadId → SigThread
  suspendThread : List ThreadId
  kills : List (ThreadId × KillStage)

namespace SigKernel

def setThread (k : SigKernel) (t : ThreadId) (f : SigThread → SigThread) : SigKernel :=
  { k with thread := update k.thread t (f (k.thread t)) }

/-- `rt_thread_resume` on a suspended thread. -/
def resume (k : SigKernel) (t : ThreadId) : SigKernel :=
  { k with suspendThread := k.suspendThread.erase t }.setThread t fun thread => { thread with suspended := false, timer := false }

/-- `rt_ipc_list_suspend` with the waiting time; the timer as far as it is started. -/
def suspend (k : SigKernel) (flag : IpcFlag) (t : ThreadId) (time : Int) (timer : Bool) : SigKernel :=
  { k with suspendThread :=
      ipcListSuspend flag (fun u => (k.thread u).currentPriority) t k.suspendThread }.setThread t
    fun thread => { thread with suspended := true, timer, point := .suspending, time }

@[simp] theorem setThread_self (k : SigKernel) (t : ThreadId) (f : SigThread → SigThread) :
    (k.setThread t f).thread t = f (k.thread t) :=
  update_self ..

theorem setThread_of_ne {t u : ThreadId} (h : u ≠ t) (k : SigKernel) (f : SigThread → SigThread) :
    (k.setThread t f).thread u = k.thread u :=
  update_of_ne h ..

@[simp] theorem resume_self (k : SigKernel) (t : ThreadId) :
    (k.resume t).thread t = { k.thread t with suspended := false, timer := false } :=
  update_self ..

theorem resume_of_ne {t u : ThreadId} (h : u ≠ t) (k : SigKernel) : (k.resume t).thread u = k.thread u :=
  update_of_ne h ..

@[simp] theorem suspend_self (k : SigKernel) (flag : IpcFlag) (t : ThreadId) (time : Int) (timer : Bool) :
    (k.suspend flag t time timer).thread t =
      { k.thread t with suspended := true, timer, point := .suspending, time } :=
  update_self ..

theorem suspend_of_ne {t u : ThreadId} (h : u ≠ t) (k : SigKernel) (flag : IpcFlag) (time : Int) (timer : Bool) :
    (k.suspend flag t time timer).thread u = k.thread u :=
  update_of_ne h ..

def setKill (k : SigKernel) (tid : ThreadId) (stage : KillStage) (next : Option KillStage) : SigKernel :=
  { k with kills := (next.map (tid, ·)).toList ++ k.kills.erase (tid, stage) }

end SigKernel

/-- `rt_thread_kill` up to the allocation of the info node. `found` is whether "update sig info" comes to a node for the signal; that walk reads the list as it stands at each node, and is left open. -/
def rtThreadKill (k : SigKernel) (tid : ThreadId) (sig : Nat) (found : Bool) : SigKernel :=
  if 32 ≤ sig then k
  else if (k.thread tid).sigPending &&& sigMask sig ≠ 0 then
    -- "whether already emits this signal?"
    if found then k else { k with kills := (tid, .info sig) :: k.kills }
  else { k with kills := (tid, .info sig) :: k.kills }.setThread tid fun thread =>
    { thread with sigPending := thread.sigPending ||| sigMask sig }

def killInfo (k : SigKernel) (tid : ThreadId) (sig : Nat) (allocated : Bool) : SigKernel :=
  (k.setKill tid (.info sig) (some .test)).setThread tid fun thread =>
    { thread with siList := if allocated then thread.siList ++ [sig] else thread.siList }

/-- "thread is not interested in pended signals" -/
def signalDeliverTest (k : SigKernel) (tid : ThreadId) : SigKernel :=
  k.setKill tid .test (if (k.thread tid).sigPending &&& (k.thread tid).sigMask = 0 then none else some .deliver)

/-- `_signal_deliver` behind its test; `self` says that `tid == rt_thread_self()`. -/
def signalDeliver (k : SigKernel) (tid : ThreadId) (self : Bool) : SigKernel :=
  let k := k.setKill tid .deliver none
  if (k.thread tid).suspended then (k.resume tid).setThread tid fun thread => { thread with statSignal := true }
  else if self then
    k.setThread tid fun thread => { thread with statSignal := true, frames := .handle true :: thread.frames }
  else if (k.thread tid).statSignal = false then
    k.setThread tid fun thread => { thread with statSignal := true, frames := .handle false :: .leave :: thread.frames }
  else k

def rtSignalMask (k : SigKernel) (t : ThreadId) (signo : Nat) : SigKernel :=
  k.setThread t fun thread => { thread with sigMask := thread.sigMask &&& ~~~sigMask signo }

/-- `rt_signal_unmask` up to its `_signal_deliver`. -/
def rtSignalUnmask (k : SigKernel) (t : ThreadId) (signo : Nat) : SigKernel :=
  let k := k.setThread t fun thread => { thread with sigMask := thread.sigMask ||| sigMask signo }
  if (k.thread t).sigMask &&& (k.thread t).sigPending = 0 then k else { k with kills := (t, .test) :: k.kills }

/-- `rt_thread_init`: no signal is pending, and all are masked. -/
def SigKernel.init (priority : ThreadId → Nat) : SigKernel where
  thread t :=
    { error := .eok
      currentPriority := priority t
      timer := false
      suspended := false
      statSignal := false
      statSignalWait := false
      sigPending := 0
      sigMask := 0
      siList := []
      frames := []
      point := .own
      time := 0 }
  suspendThread := []
  kills := []

/-! ## Steps -/

inductive SigOp
  | kill (tid : ThreadId) (sig : Nat) (found : Bool)
  | killInfo (tid : ThreadId) (sig : Nat) (allocated : Bool)
  | deliverTest (tid : ThreadId)
  | deliver (tid : ThreadId) (self : Bool)
  | mask (t : ThreadId) (signo : Nat)
  | unmask (t : ThreadId) (signo : Nat)
  /-- The timer of a suspended thread expires: `rt_thread_timeout`. -/
  | timeout (t : ThreadId)
  /-- A thread that has suspended itself enters `rt_schedule`, which switches to another thread unless the thread is ready again. -/
  | schedule (t : ThreadId) (switch : Bool)
  /-- A thread executes what it has to before its own code, or comes back from `rt_schedule`. -/
  | goOn (t : ThreadId)
  deriving DecidableEq

def SigOp.target : SigOp → ThreadId
  | .kill t _ _ | .killInfo t _ _ | .deliverTest t | .deliver t _ | .mask t _ | .unmask t _ | .timeout t | .schedule t _
  | .goOn t => t

def SigThread.InCode (thread : SigThread) : Prop :=
  match thread.frames with
  | [] => thread.point = .own
  | .handler _ _ :: _ => True
  | _ => False

instance SigThread.decidableInCode (thread : SigThread) : Decidable thread.InCode := by
  unfold InCode
  split <;> infer_instance

def stepSig (k : SigKernel) : SigOp → Option SigKernel
  | .kill tid sig found => some (rtThreadKill k tid sig found)
  | .killInfo tid sig allocated => if (tid, .info sig) ∈ k.kills then some (killInfo k tid sig allocated) else none
  | .deliverTest tid => if (tid, .test) ∈ k.kills then some (signalDeliverTest k tid) else none
  | .deliver tid self => if (tid, .deliver) ∈ k.kills then some (signalDeliver k tid self) else none
  | .mask t signo => if (k.thread t).InCode ∧ signo < 32 then some (rtSignalMask k t signo) else none
  | .unmask t signo => if (k.thread t).InCode ∧ signo < 32 then some (rtSignalUnmask k t signo) else none
  | .timeout t =>
    if (k.thread t).suspended ∧ (k.thread t).timer then
      some ((k.resume t).setThread t fun thread => { thread with error := .etimeout })
    else none
  | .schedule t switch =>
    if (k.thread t).point = .suspending ∧ (k.thread t).frames = [] ∧ ((k.thread t).suspended → switch) then
      some (k.setThread t fun thread => { thread with point := if switch then .switched else .returned })
    else none
  | .goOn t =>
    if (k.thread t).suspended then none
    else if (k.thread t).point = .switched ∧ (k.thread t).frames = [] then
      some (k.setThread t fun thread => { thread with point := .returned, frames := [.handle true] })
    else (k.thread t).goOn.map fun thread => k.setThread t fun _ => thread

end RtThread
