import RtThread.Ipc.WaitList
import RtThread.Lib.Ring
import RtThread.Lib.Transition

/-!
# Data queues

`dataqueue.c`. The indices run freely in 16 bits: their difference is the number of items, and an index modulo the size is a cell. A push waits while the queue is full and a pop while it is empty; neither keeps account of the time it has waited. A pop wakes a push only when no more items than the low water mark are left.
-/

namespace RtThread

structure DataItem where
  dataPtr : Nat
  dataSize : Nat
  deriving DecidableEq

/-- `struct rt_data_queue`; all numbers have 16 bits. -/
structure DataQueue where
  size : Nat
  lwm : Nat
  getIndex : Nat
  putIndex : Nat
  queue : Nat → DataItem

inductive DqCall
  | push (item : DataItem) (timeout : Int)
  | pop (timeout : Int)
  deriving DecidableEq

structure DqState where
  dq : DataQueue
  /-- `suspended_push_list` and `suspended_pop_list` -/
  pushers : List ThreadId
  poppers : List ThreadId
  thread : ThreadId → Waiter
  call : ThreadId → Option DqCall

namespace DqState

def setThread (s : DqState) (t : ThreadId) (f : Waiter → Waiter) : DqState :=
  { s with thread := Function.update s.thread t (f (s.thread t)) }

def setCall (s : DqState) (t : ThreadId) (c : Option DqCall) : DqState :=
  { s with call := Function.update s.call t c }

/-- "there is at least one thread in suspended list": the first one is resumed. -/
def resumePusher (s : DqState) : DqState :=
  match s.pushers with
  | [] => s
  | t :: rest => { s with pushers := rest }.setThread t fun thread => { thread with timer := false }

def resumePopper (s : DqState) : DqState :=
  match s.poppers with
  | [] => s
  | t :: rest => { s with poppers := rest }.setThread t fun thread => { thread with timer := false }

end DqState

/-- `queue->put_index - queue->get_index`, as an `int`. -/
def DataQueue.difference (dq : DataQueue) : Int := (dq.putIndex : Int) - (dq.getIndex : Int)

def DataQueue.put (dq : DataQueue) (item : DataItem) : DataQueue :=
  { dq with
    queue := Function.update dq.queue (dq.putIndex % dq.size) item
    putIndex := (dq.putIndex + 1) % 65536 }

def DataQueue.front (dq : DataQueue) : DataItem := dq.queue (dq.getIndex % dq.size)

def DataQueue.take (dq : DataQueue) : DataQueue := { dq with getIndex := (dq.getIndex + 1) % 65536 }

inductive DqEvent
  | pushed (caller : Option ThreadId) (item : DataItem)
  /-- A push has found the queue full: it waits, or returns with `-RT_ETIMEOUT` if its timeout is zero. -/
  | full (caller : Option ThreadId) (item : DataItem)
  | popped (caller : Option ThreadId) (item : DataItem)
  | empty (caller : Option ThreadId)
  /-- What `rt_data_queue_peak` reports, if not `-RT_EEMPTY`. -/
  | peaked (item : Option DataItem)
  | failed (caller : Option ThreadId) (result : IpcErr)
  deriving DecidableEq

/-- `rt_data_queue_push` from the test of its loop on. -/
def rtDataQueuePush (s : DqState) (caller : Option ThreadId) (item : DataItem) (timeout : Int) :
    Option (DqState × List DqEvent) :=
  if s.dq.difference = s.dq.size then
    if timeout = 0 then some (s, [.full caller item])
    else
      match caller with
      | none => none
      | some t =>
        (timeoutTimer timeout).map fun timer =>
          (({ s with pushers := s.pushers ++ [t] }.setThread t fun thread =>
            { thread with error := .eok, timer }).setCall t (some (.push item timeout)), [.full caller item])
  else some ({ s with dq := s.dq.put item }.resumePopper, [.pushed caller item])

/-- `rt_data_queue_pop` from the test of its loop on. -/
def rtDataQueuePop (s : DqState) (caller : Option ThreadId) (timeout : Int) : Option (DqState × List DqEvent) :=
  if s.dq.getIndex = s.dq.putIndex then
    if timeout = 0 then some (s, [.empty caller])
    else
      match caller with
      | none => none
      | some t =>
        (timeoutTimer timeout).map fun timer =>
          (({ s with poppers := s.poppers ++ [t] }.setThread t fun thread =>
            { thread with error := .eok, timer }).setCall t (some (.pop timeout)), [.empty caller])
  else
    let taken := { s with dq := s.dq.take }
    some (if s.dq.take.difference ≤ s.dq.lwm then taken.resumePusher else taken, [.popped caller s.dq.front])

def rtDataQueuePeak (s : DqState) : Option DataItem :=
  if s.dq.getIndex = s.dq.putIndex then none else some s.dq.front

/-! ## The data queue as a state machine -/

inductive DqOp
  | push (caller : Option ThreadId) (item : DataItem) (timeout : Int)
  | pop (caller : Option ThreadId) (timeout : Int)
  | peak
  /-- A thread that is not suspended any more goes on in its call. -/
  | resume (t : ThreadId)
  /-- The timer of a waiting thread expires: `rt_thread_timeout`. -/
  | timeout (t : ThreadId)
  deriving DecidableEq

def DqState.Waiting (s : DqState) (t : ThreadId) : Prop := t ∈ s.pushers ∨ t ∈ s.poppers

instance DqState.decidableWaiting (s : DqState) (t : ThreadId) : Decidable (s.Waiting t) := inferInstanceAs (Decidable (_ ∨ _))

def DqState.Free (s : DqState) : Option ThreadId → Prop
  | none => True
  | some t => s.call t = none

instance DqState.decidableFree (s : DqState) (caller : Option ThreadId) : Decidable (s.Free caller) := by
  cases caller <;> unfold DqState.Free <;> infer_instance

def stepDq (s : DqState) : DqOp → Option (DqState × List DqEvent)
  | .push caller item timeout => if s.Free caller then rtDataQueuePush s caller item timeout else none
  | .pop caller timeout => if s.Free caller then rtDataQueuePop s caller timeout else none
  | .peak => some (s, [.peaked (rtDataQueuePeak s)])
  | .resume t =>
    if s.Waiting t then none
    else
      match s.call t with
      | none => none
      | some call =>
        let s := s.setCall t none
        if (s.thread t).error ≠ .eok then some (s, [.failed (some t) (s.thread t).error])
        else
          match call with
          | .push item timeout => rtDataQueuePush s (some t) item timeout
          | .pop timeout => rtDataQueuePop s (some t) timeout
  | .timeout t =>
    if s.Waiting t ∧ (s.thread t).timer then
      some ({ s with pushers := s.pushers.erase t, poppers := s.poppers.erase t }.setThread t fun thread =>
        { thread with timer := false, error := .etimeout }, [])
    else none

def DqState.init (queue : Nat → DataItem) (size lwm : Nat) : DqState where
  dq := ⟨size % 65536, lwm % 65536, 0, 0, queue⟩
  pushers := []
  poppers := []
  thread _ := ⟨.eok, 0, false⟩
  call _ := none

/-! ## A bounded queue -/

/-- What an event means for a queue of items with room for `size`. -/
def acceptItem (size : Nat) (q : List DataItem) : DqEvent → Option (List DataItem)
  | .pushed _ item => if q.length < size then some (q ++ [item]) else none
  | .full _ _ => if q.length = size then some q else none
  | .popped _ item => if q.head? = some item then some q.tail else none
  | .empty _ => if q = [] then some q else none
  | .peaked item => if q.head? = item then some q else none
  | .failed _ _ => some q

def stepItems (size : Nat) (q : List DataItem) : Option DqEvent → Option (List DataItem × List DqEvent)
  | none => some (q, [])
  | some event => (acceptItem size q event).map fun q' => (q', [event])

end RtThread
