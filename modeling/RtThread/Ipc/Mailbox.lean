import RtThread.Ipc.WaitList
import RtThread.Lib.Ring
import RtThread.Lib.Transition

/-!
# Mailboxes

The mailbox part of `ipc.c`. A sender waits while the mailbox is full and a receiver while it is empty; a thread that is woken looks again and may have to go back to sleep for what is left of its timeout, because another thread has been faster. The calls are cut at `rt_schedule`: each step is a critical section. An interrupt handler makes calls that do not wait.
-/

namespace RtThread

structure Mailbox where
  msgPool : Nat → Nat
  size : Nat
  entry : Nat
  inOffset : Nat
  outOffset : Nat

inductive MbCall
  | send (value : Nat) (timeout : Int) (start : BitVec 32)
  | recv (timeout : Int) (start : BitVec 32)
  deriving DecidableEq

structure MbState where
  mb : Mailbox
  flag : IpcFlag
  /-- `suspend_thread` -/
  receivers : List ThreadId
  /-- `suspend_sender_thread` -/
  senders : List ThreadId
  thread : ThreadId → Waiter
  call : ThreadId → Option MbCall
  tick : BitVec 32

namespace MbState

def setThread (s : MbState) (t : ThreadId) (f : Waiter → Waiter) : MbState :=
  { s with thread := Function.update s.thread t (f (s.thread t)) }

def setCall (s : MbState) (t : ThreadId) (c : Option MbCall) : MbState :=
  { s with call := Function.update s.call t c }

/-- `rt_ipc_list_resume` on the senders and on the receivers: the first of the list, if there is one. -/
def resumeSender (s : MbState) : MbState :=
  match s.senders with
  | [] => s
  | t :: rest => { s with senders := rest }.setThread t fun thread => { thread with timer := false }

def resumeReceiver (s : MbState) : MbState :=
  match s.receivers with
  | [] => s
  | t :: rest => { s with receivers := rest }.setThread t fun thread => { thread with timer := false }

/-- `rt_ipc_list_suspend` and the timer, on the senders and on the receivers. -/
def suspendSender (s : MbState) (t : ThreadId) (value : Nat) (timeout : Int) (timer : Bool) : MbState :=
  let senders := ipcListSuspend s.flag (fun u => (s.thread u).currentPriority) t s.senders
  ({ s with senders }.setThread t fun thread => { thread with timer }).setCall t (some (.send value timeout s.tick))

def suspendReceiver (s : MbState) (t : ThreadId) (timeout : Int) (timer : Bool) : MbState :=
  let receivers := ipcListSuspend s.flag (fun u => (s.thread u).currentPriority) t s.receivers
  ({ s with receivers }.setThread t fun thread => { thread with timer }).setCall t (some (.recv timeout s.tick))

end MbState

/-- "set ptr", the input offset and the entry; the fields have 16 bits. -/
def Mailbox.put (mb : Mailbox) (value : Nat) : Mailbox :=
  let inOffset := (mb.inOffset + 1) % 65536
  { mb with
    msgPool := Function.update mb.msgPool mb.inOffset value
    inOffset := if mb.size ≤ inOffset then 0 else inOffset
    entry := (mb.entry + 1) % 65536 }

/-- "increase output offset" and "decrease message entry"; the mailbox is not empty. -/
def Mailbox.take (mb : Mailbox) : Mailbox :=
  let outOffset := (mb.outOffset + 1) % 65536
  { mb with
    outOffset := if mb.size ≤ outOffset then 0 else outOffset
    entry := mb.entry - 1 }

/-- `rt_mb_send_wait` from the test of its loop on, by a thread or an interrupt handler. -/
def mbSendLoop (s : MbState) (caller : Option ThreadId) (value : Nat) (timeout : Int) : Option (Option IpcErr × MbState) :=
  if s.mb.entry = s.mb.size then
    match caller with
    | none => none
    | some t =>
      let s := s.setThread t fun thread => { thread with error := .eok }
      if timeout = 0 then some (some .efull, s)
      else (timeoutTimer timeout).map fun timer => (none, s.suspendSender t value timeout timer)
  else some (some .eok, { s with mb := s.mb.put value }.resumeReceiver)

def rtMbSendWait (s : MbState) (caller : Option ThreadId) (value : Nat) (timeout : Int) : Option (Option IpcErr × MbState) :=
  if s.mb.entry = s.mb.size ∧ timeout = 0 then some (some .efull, s) else mbSendLoop s caller value timeout

/-- `rt_mb_recv` from the test of its loop on, with the mail it has received. -/
def mbRecvLoop (s : MbState) (caller : Option ThreadId) (timeout : Int) :
    Option (Option (IpcErr × Option Nat) × MbState) :=
  if s.mb.entry = 0 then
    match caller with
    | none => none
    | some t =>
      if timeout = 0 then
        some (some (.etimeout, none), s.setThread t fun thread => { thread with error := .etimeout })
      else
        (timeoutTimer timeout).map fun timer =>
          (none, (s.setThread t fun thread => { thread with error := .eok }).suspendReceiver t timeout timer)
  else some (some (.eok, some (s.mb.msgPool s.mb.outOffset)), { s with mb := s.mb.take }.resumeSender)

def rtMbRecv (s : MbState) (caller : Option ThreadId) (timeout : Int) : Option (Option (IpcErr × Option Nat) × MbState) :=
  if s.mb.entry = 0 ∧ timeout = 0 then some (some (.etimeout, none), s) else mbRecvLoop s caller timeout

/-! ## The mailbox as a state machine -/

inductive MbOp
  /-- `rt_mb_send` is `rt_mb_send_wait` without a timeout. -/
  | send (caller : Option ThreadId) (value : Nat) (timeout : Int)
  | recv (caller : Option ThreadId) (timeout : Int)
  /-- A thread that is not suspended any more goes on in its call. -/
  | resume (t : ThreadId)
  /-- The timer of a waiting thread expires: `rt_thread_timeout`. -/
  | timeout (t : ThreadId)
  | tick
  | changePriority (t : ThreadId) (priority : Nat)
  deriving DecidableEq

inductive MbEvent
  | send (caller : Option ThreadId) (value : Nat) (result : IpcErr)
  | recv (caller : Option ThreadId) (result : IpcErr) (value : Option Nat)
  deriving DecidableEq

def MbState.Waiting (s : MbState) (t : ThreadId) : Prop := t ∈ s.senders ∨ t ∈ s.receivers

instance MbState.decidableWaiting (s : MbState) (t : ThreadId) : Decidable (s.Waiting t) := inferInstanceAs (Decidable (_ ∨ _))

def sendEvents (caller : Option ThreadId) (value : Nat) (r : Option IpcErr × MbState) : MbState × List MbEvent :=
  (r.2, match r.1 with
    | none => []
    | some result => [.send caller value result])

def recvEvents (caller : Option ThreadId) (r : Option (IpcErr × Option Nat) × MbState) : MbState × List MbEvent :=
  (r.2, match r.1 with
    | none => []
    | some result => [.recv caller result.1 result.2])

def MbState.Free (s : MbState) : Option ThreadId → Prop
  | none => True
  | some t => s.call t = none

instance MbState.decidableFree (s : MbState) (caller : Option ThreadId) : Decidable (s.Free caller) := by
  induction caller using Option.casesOn <;> dsimp only [MbState.Free] <;> infer_instance

def stepMb (s : MbState) : MbOp → Option (MbState × List MbEvent)
  | .send caller value timeout =>
    if s.Free caller then (rtMbSendWait s caller value timeout).map (sendEvents caller value) else none
  | .recv caller timeout => if s.Free caller then (rtMbRecv s caller timeout).map (recvEvents caller) else none
  | .resume t =>
    if s.Waiting t then none
    else
      match s.call t with
      | none => none
      | some (.send value timeout start) =>
        let s := s.setCall t none
        if (s.thread t).error ≠ .eok then some (sendEvents (some t) value (some (s.thread t).error, s))
        else (mbSendLoop s (some t) value (recalculateTimeout timeout start s.tick)).map (sendEvents (some t) value)
      | some (.recv timeout start) =>
        let s := s.setCall t none
        if (s.thread t).error ≠ .eok then some (recvEvents (some t) (some ((s.thread t).error, none), s))
        else (mbRecvLoop s (some t) (recalculateTimeout timeout start s.tick)).map (recvEvents (some t))
  | .timeout t =>
    if s.Waiting t ∧ (s.thread t).timer then
      some ({ s with senders := s.senders.erase t, receivers := s.receivers.erase t }.setThread t fun thread =>
        { thread with timer := false, error := .etimeout }, [])
    else none
  | .tick => some ({ s with tick := s.tick + 1 }, [])
  | .changePriority t priority => some (s.setThread t fun thread => { thread with currentPriority := priority }, [])

/-- `rt_mb_init`, where the size is stored in 16 bits, and threads of given priorities. -/
def MbState.init (msgPool : Nat → Nat) (size : Nat) (flag : IpcFlag) (priority : ThreadId → Nat) : MbState where
  mb := ⟨msgPool, size % 65536, 0, 0, 0⟩
  flag := flag
  receivers := []
  senders := []
  thread t := ⟨.eok, priority t, false⟩
  call _ := none
  tick := 0

abbrev MbRun (msgPool : Nat → Nat) (size : Nat) (flag : IpcFlag) (priority : ThreadId → Nat) :
    List MbEvent → MbState → Prop :=
  Transition.Run stepMb (fun _ _ => True) (.init msgPool size flag priority)

theorem exists_mbRun (size : Nat) (flag : IpcFlag) (priority : ThreadId → Nat) (ops : List MbOp)
    (found : List MbEvent → MbState → Bool)
    (h : ((Transition.exec stepMb (fun _ _ => True) (.init (fun _ => 0) size flag priority) ops).any
      fun r => found r.1 r.2) = true) :
    ∃ trace s, MbRun (fun _ => 0) size flag priority trace s ∧ found trace s = true :=
  Transition.exists_run_of_exec ops found h

end RtThread
