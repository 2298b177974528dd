import RtThread.Ipc.WaitList
import RtThread.Lib.Linked
import RtThread.Lib.Transition

/-!
# Message queues

The message queue part of `ipc.c`. The slots of the pool are linked into a free list and into the queue. A sender takes a slot off the free list, copies its message with interrupts enabled, and links the slot into the queue; a receiver unlinks a slot, copies with interrupts enabled, and puts the slot on the free list. In between a slot is in neither list. Each step is a critical section, or the copying between two of them; any thread or interrupt handler may come in between.
-/

namespace RtThread

open Function

/-- `struct rt_messagequeue`: a slot of `msg_pool` is named by its number; it is a header with the pointer to the next slot, and `msg_size` bytes. -/
structure MessageQueue where
  msgSize : Nat
  maxMsgs : Nat
  entry : Nat
  /-- `msg_queue_head`, `msg_queue_tail`, `msg_queue_free` -/
  head : Option Nat
  tail : Option Nat
  free : Option Nat
  next : Nat → Option Nat
  bytes : Nat → Nat → UInt8

inductive MqCall
  /-- `rt_mq_send`, or `rt_mq_urgent`, has taken a slot, and then has copied its message. -/
  | taken (urgent : Bool) (msg : Nat) (buffer : List UInt8)
  | filled (urgent : Bool) (msg : Nat) (buffer : List UInt8)
  /-- `rt_mq_recv` has blocked, or has unlinked a slot, and then has copied its message. -/
  | wait (size : Nat) (timeout : Int) (start : BitVec 32)
  | unlinked (size msg : Nat)
  | copied (size msg : Nat) (buffer : List UInt8)
  deriving DecidableEq

structure MqState where
  mq : MessageQueue
  flag : IpcFlag
  suspendThread : List ThreadId
  thread : ThreadId → Waiter
  call : Caller → Option MqCall
  tick : BitVec 32

namespace MqState

def setThread (s : MqState) (t : ThreadId) (f : Waiter → Waiter) : MqState :=
  { s with thread := update s.thread t (f (s.thread t)) }

def setCall (s : MqState) (c : Caller) (call : Option MqCall) : MqState :=
  { s with call := update s.call c call }

/-- `rt_ipc_list_resume` on the receivers, if there is one. -/
def resume (s : MqState) : MqState :=
  match s.suspendThread with
  | [] => s
  | t :: rest => { s with suspendThread := rest }.setThread t fun thread => { thread with timer := false }

/-- `rt_ipc_list_suspend` and the timer. -/
def suspend (s : MqState) (t : ThreadId) (size : Nat) (timeout : Int) (timer : Bool) : MqState :=
  let suspendThread := ipcListSuspend s.flag (fun u => (s.thread u).currentPriority) t s.suspendThread
  ({ s with suspendThread }.setThread t fun thread => { thread with timer }).setCall (.thread t) (some (.wait size timeout s.tick))

def resumeAll (s : MqState) : MqState :=
  s.suspendThread.foldl (fun s t => s.setThread t fun thread => { thread with timer := false, error := .error })
    { s with suspendThread := [] }

end MqState

namespace MessageQueue

/-- "put message to free list" -/
def release (mq : MessageQueue) (msg : Nat) : MessageQueue :=
  { mq with
    next := update mq.next msg mq.free
    free := some msg }

/-- The copying of a sender; `rt_mq_send` also ends the list here. -/
def copyIn (mq : MessageQueue) (urgent : Bool) (msg : Nat) (buffer : List UInt8) : MessageQueue :=
  { mq with
    next := if urgent then mq.next else update mq.next msg none
    bytes := update mq.bytes msg fun i => (buffer[i]?).getD (mq.bytes msg i) }

/-- "link msg to message queue"; `entry` has 16 bits. -/
def linkTail (mq : MessageQueue) (msg : Nat) : MessageQueue :=
  { mq with
    next := match mq.tail with
      | none => mq.next
      | some tail => update mq.next tail (some msg)
    tail := some msg
    head := if mq.head = none then some msg else mq.head
    entry := (mq.entry + 1) % 65536 }

/-- "link msg to the beginning of message queue" -/
def linkHead (mq : MessageQueue) (msg : Nat) : MessageQueue :=
  { mq with
    next := update mq.next msg mq.head
    head := some msg
    tail := if mq.tail = none then some msg else mq.tail
    entry := (mq.entry + 1) % 65536 }

/-- "move message queue head" and "reach queue tail, set to NULL" -/
def dropHead (mq : MessageQueue) (msg : Nat) : MessageQueue :=
  { mq with
    head := mq.next msg
    tail := if mq.tail = some msg then none else mq.tail }

def copyOut (mq : MessageQueue) (msg size : Nat) : List UInt8 :=
  (List.range (if mq.msgSize < size then mq.msgSize else size)).map (mq.bytes msg)

/-- "release all message in the queue", for as many rounds as `fuel` -/
def releaseAll (fuel : Nat) (mq : MessageQueue) : Option MessageQueue :=
  match mq.head with
  | none => some mq
  | some msg =>
    match fuel with
    | 0 => none
    | fuel + 1 => releaseAll fuel ((mq.dropHead msg).release msg)

end MessageQueue

/-- `rt_mq_send` and `rt_mq_urgent` up to the copying; "message queue is full" -/
def mqSend (urgent : Bool) (s : MqState) (c : Caller) (buffer : List UInt8) : Option (Option IpcErr × MqState) :=
  if buffer = [] then none
  else if s.mq.msgSize < buffer.length then some (some .error, s)
  else
    match s.mq.free with
    | none => some (some .efull, s)
    | some msg => some (none, { s with mq := { s.mq with free := s.mq.next msg } }.setCall c (some (.taken urgent msg buffer)))

def rtMqSend : MqState → Caller → List UInt8 → Option (Option IpcErr × MqState) := mqSend false

def rtMqUrgent : MqState → Caller → List UInt8 → Option (Option IpcErr × MqState) := mqSend true

/-- `rt_mq_recv` from the test of its loop on, up to the copying. -/
def mqRecvLoop (s : MqState) (c : Caller) (size : Nat) (timeout : Int) : Option (Option IpcErr × MqState) :=
  if s.mq.entry = 0 then
    match c with
    | .interrupt _ => none
    | .thread t =>
      if timeout = 0 then some (some .etimeout, s.setThread t fun thread => { thread with error := .etimeout })
      else
        (timeoutTimer timeout).map fun timer =>
          (none, (s.setThread t fun thread => { thread with error := .eok }).suspend t size timeout timer)
  else
    match s.mq.head with
    | none => none
    | some msg =>
      some (none, { s with mq := { s.mq.dropHead msg with entry := s.mq.entry - 1 } }.setCall c (some (.unlinked size msg)))

def rtMqRecv (s : MqState) (c : Caller) (size : Nat) (timeout : Int) : Option (Option IpcErr × MqState) :=
  if size = 0 then none
  else if s.mq.entry = 0 ∧ timeout = 0 then some (some .etimeout, s)
  else mqRecvLoop s c size timeout

/-- `rt_mq_control` with `RT_IPC_CMD_RESET` -/
def rtMqReset (s : MqState) : Option MqState :=
  (s.mq.releaseAll s.mq.maxMsgs).map fun mq => { s.resumeAll with mq := { mq with entry := 0 } }

/-! ## The message queue as a state machine -/

inductive MqOp
  | send (c : Caller) (buffer : List UInt8)
  | urgent (c : Caller) (buffer : List UInt8)
  | recv (c : Caller) (size : Nat) (timeout : Int)
  /-- A caller that is not suspended goes on in its call. -/
  | resume (c : Caller)
  /-- The timer of a waiting thread expires: `rt_thread_timeout`. -/
  | timeout (t : ThreadId)
  | reset
  | tick
  | changePriority (t : ThreadId) (priority : Nat)
  deriving DecidableEq

inductive MqEvent
  /-- A message has been linked into the queue, and its send returns. -/
  | sent (c : Caller) (urgent : Bool) (buffer : List UInt8)
  | unlinked (c : Caller)
  /-- `rt_mq_recv` returns with `RT_EOK`, having copied into a buffer of `size` bytes. -/
  | received (c : Caller) (size : Nat) (buffer : List UInt8)
  | failed (c : Caller) (result : IpcErr)
  | reset
  deriving DecidableEq

def MqState.Waiting (s : MqState) : Caller → Prop
  | .thread t => t ∈ s.suspendThread
  | .interrupt _ => False

instance MqState.decidableWaiting (s : MqState) (c : Caller) : Decidable (s.Waiting c) := by
  induction c using Caller.casesOn <;> dsimp only [MqState.Waiting] <;> infer_instance

def MqState.error (s : MqState) : Caller → IpcErr
  | .thread t => (s.thread t).error
  | .interrupt _ => .eok

def mqEvents (c : Caller) (events : List MqEvent) (r : Option IpcErr × MqState) : MqState × List MqEvent :=
  (r.2, match r.1 with
    | none => events
    | some result => [.failed c result])

/-- What `rt_mq_recv` shows up to its copying: it has unlinked a message or waits. -/
def recvShows (c : Caller) (s : MqState) : List MqEvent :=
  match s.call c with
  | some (.unlinked _ _) => [.unlinked c]
  | _ => []

def stepMq (s : MqState) : MqOp → Option (MqState × List MqEvent)
  | .send c buffer => if s.call c = none then (rtMqSend s c buffer).map (mqEvents c []) else none
  | .urgent c buffer => if s.call c = none then (rtMqUrgent s c buffer).map (mqEvents c []) else none
  | .recv c size timeout =>
    if s.call c = none then (rtMqRecv s c size timeout).map fun r => mqEvents c (recvShows c r.2) r else none
  | .resume c =>
    if s.Waiting c then none
    else
      match s.call c with
      | none => none
      | some (.taken urgent msg buffer) =>
        some ({ s with mq := s.mq.copyIn urgent msg buffer }.setCall c (some (.filled urgent msg buffer)), [])
      | some (.filled urgent msg buffer) =>
        let mq := if urgent then s.mq.linkHead msg else s.mq.linkTail msg
        some (({ s with mq }.setCall c none).resume, [.sent c urgent buffer])
      | some (.wait size timeout start) =>
        let s := s.setCall c none
        if s.error c ≠ .eok then some (s, [.failed c (s.error c)])
        else
          (mqRecvLoop s c size (recalculateTimeout timeout start s.tick)).map fun r => mqEvents c (recvShows c r.2) r
      | some (.unlinked size msg) => some (s.setCall c (some (.copied size msg (s.mq.copyOut msg size))), [])
      | some (.copied size msg buffer) =>
        some ({ s with mq := s.mq.release msg }.setCall c none, [.received c size buffer])
  | .timeout t =>
    if t ∈ s.suspendThread ∧ (s.thread t).timer then
      some ({ s with suspendThread := s.suspendThread.erase t }.setThread t fun thread =>
        { thread with timer := false, error := .etimeout }, [])
    else none
  | .reset => (rtMqReset s).map fun s => (s, [.reset])
  | .tick => some ({ s with tick := s.tick + 1 }, [])
  | .changePriority t priority => some (s.setThread t fun thread => { thread with currentPriority := priority }, [])

/-- `rt_mq_create`: the size is aligned, sizes have 16 bits, and one slot after the other is put on the free list. -/
def mqCreate (bytes : Nat → Nat → UInt8) (msgSize maxMsgs : Nat) : MessageQueue :=
  (List.range (maxMsgs % 65536)).foldl MessageQueue.release
    { msgSize := (msgSize + 3) / 4 * 4 % 65536, maxMsgs := maxMsgs % 65536, entry := 0, head := none, tail := none,
      free := none, next := fun _ => none, bytes }

def MqState.init (bytes : Nat → Nat → UInt8) (msgSize maxMsgs : Nat) (flag : IpcFlag) (priority : ThreadId → Nat) :
    MqState where
  mq := mqCreate bytes msgSize maxMsgs
  flag := flag
  suspendThread := []
  thread t := ⟨.eok, priority t, false⟩
  call _ := none
  tick := 0

abbrev MqRun (bytes : Nat → Nat → UInt8) (msgSize maxMsgs : Nat) (flag : IpcFlag) (priority : ThreadId → Nat) :
    List MqEvent → MqState → Prop :=
  Transition.Run stepMq (fun _ _ => True) (.init bytes msgSize maxMsgs flag priority)

end RtThread
