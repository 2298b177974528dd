import RtThread.Kernel.Calls

/-!
# Threads waiting on an IPC object

Events, mailboxes, message queues and data queues keep the threads that wait for them in suspend lists. A thread blocks in a call of one of them at a time, and which of the ready threads runs next is left open here: between two critical sections any thread may go on, an interrupt handler may make a call, or the timer of a waiting thread may expire.
-/

namespace RtThread

inductive IpcErr
  | eok | error | etimeout | efull | eempty | eintr
  deriving DecidableEq

inductive Caller
  | thread (t : ThreadId)
  | interrupt (n : Nat)
  deriving DecidableEq

/-- What the blocking calls use of `struct rt_thread`. -/
structure Waiter where
  error : IpcErr
  currentPriority : Nat
  /-- `thread_timer` is started. -/
  timer : Bool
  deriving DecidableEq

/-- The list part of `rt_ipc_list_suspend`. -/
def ipcListSuspend (flag : IpcFlag) (priority : ThreadId → Nat) (t : ThreadId) (list : List ThreadId) : List ThreadId :=
  match flag with
  | .fifo => list ++ [t]
  | .prio => insertByPriority priority t list

theorem ipcListSuspend_perm (flag : IpcFlag) (priority : ThreadId → Nat) (t : ThreadId) (list : List ThreadId) :
    (ipcListSuspend flag priority t list).Perm (t :: list) := by
  cases flag with
  | fifo => exact List.perm_append_singleton t list
  | prio => exact insertByPriority_perm priority t list

/-- "if there is a waiting timeout, active thread timer": whether the timer is started, with the assertion of `rt_timer_start`. -/
def timeoutTimer (timeout : Int) : Option Bool :=
  if 0 < timeout then if timeout.toNat < rtTickHalf then some true else none else some false

/-- "if it's not waiting forever and then re-calculate timeout tick": in 32-bit words, the difference read as signed. -/
def recalculateTimeout (timeout : Int) (start now : BitVec 32) : Int :=
  if 0 < timeout then
    let remaining := (BitVec.ofInt 32 timeout - (now - start)).toInt
    if remaining < 0 then 0 else remaining
  else timeout

end RtThread
