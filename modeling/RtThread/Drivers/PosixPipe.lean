import RtThread.Drivers.Pipe
import RtThread.Kernel.State
import RtThread.Lib.Traces

/-!
# Pipes between descriptors

`pipe_fops_open`, `_close`, `_read` and `_write` of `pipe.c`, with the two wait queues as `waitqueue.c` has them. A step is what a thread does under the lock of the pipe or in one critical section of a wait queue; the tests of `writers` and `readers` before the lock is taken are steps of their own.

All waiters wait for ever. Polling is left out.
-/

namespace RtThread

/-- `fd->flags & O_ACCMODE` -/
inductive PosixAccess
  | rdonly | wronly | rdwr
  deriving DecidableEq

def PosixAccess.reads : PosixAccess → Bool
  | .wronly => false
  | _ => true

def PosixAccess.writes : PosixAccess → Bool
  | .rdonly => false
  | _ => true

structure PosixFd where
  access : PosixAccess
  nonblock : Bool
  deriving DecidableEq

inductive ReadPoint
  /-- Before `rt_mutex_take`. -/
  | take
  | wakeWriter (data : List UInt8)
  | out (data : List UInt8)
  | emptied
  /-- In `rt_wqueue_wait`. -/
  | checked
  | wait
  deriving DecidableEq

inductive WritePoint
  | take
  | full
  | checked
  | wait
  /-- Behind the loop, with what the call is going to return. -/
  | wake (ret : Int)
  deriving DecidableEq

/-- `pipe_fops_close` behind its counting, with the lock. -/
inductive ClosePoint
  | wakeReaders | wakeWriters | out
  deriving DecidableEq

inductive PosixCall
  | read (count : Nat) (nonblock : Bool) (point : ReadPoint)
  | write (buffer : List UInt8) (nonblock : Bool) (ret : Nat) (wakeup : Bool) (point : WritePoint)
  | close (point : ClosePoint)
  deriving DecidableEq

/-- `rt_wqueue_t`, with the threads that its nodes stand for. -/
structure PipeQueue where
  flag : Bool
  waitingList : List ThreadId

def PipeQueue.wakeup (q : PipeQueue) : PipeQueue := ⟨true, q.waitingList.drop 1⟩

/-- `struct rt_pipe_device` as the descriptors use it; `readers`, `writers` and `refCount` are `rt_uint8_t`. -/
structure PosixPipe where
  fifo : Option RingBuffer
  readers : Nat
  writers : Nat
  refCount : Nat
  lock : Option ThreadId
  readerQueue : PipeQueue
  writerQueue : PipeQueue
  fds : List (Nat × PosixFd)
  call : ThreadId → Option PosixCall

inductive PosixEvent
  | put (t : ThreadId) (bytes : List UInt8)
  | got (t : ThreadId) (bytes : List UInt8)
  /-- A read returns 0; what the buffer holds, and how many writers are open. -/
  | eof (t : ThreadId) (buffered : List UInt8) (writers : Nat)
  | returned (t : ThreadId) (ret : Int)
  deriving DecidableEq

def eagain : Int := 11

def epipe : Int := 32

namespace PosixPipe

/-- An `rt_uint8_t` counter goes up and down. -/
def countUp (n : Nat) : Nat := (n + 1) % 256

def countDown (n : Nat) : Nat := (n + 255) % 256

def setCall (s : PosixPipe) (t : ThreadId) (call : Option PosixCall) : PosixPipe :=
  { s with call := Function.update s.call t call }

def contents (s : PosixPipe) : List UInt8 := (s.fifo.map RingBuffer.contents).getD []

def openWriters (s : PosixPipe) : Nat := s.fds.countP fun entry => entry.2.access.writes

def readEnd (s : PosixPipe) (t : ThreadId) : PosixPipe × List PosixEvent :=
  (s.setCall t none, [.eof t s.contents s.openWriters])

/-- `pipe_fops_open`, with the memory that `rt_ringbuffer_create` gets. -/
def openFd (s : PosixPipe) (bufsz n : Nat) (fd : PosixFd) (pool : Option (Nat → UInt8)) : PosixPipe :=
  { s with
    fifo := if s.refCount = 0 then pool.bind fun pool => rtRingbufferInit pool (bufsz / 4 * 4) else s.fifo
    readers := if fd.access.reads then countUp s.readers else s.readers
    writers := if fd.access.writes then countUp s.writers else s.writers
    refCount := countUp s.refCount
    fds := s.fds ++ [(n, fd)] }

/-- `pipe_fops_close` up to its wake-ups. -/
def closeFd (s : PosixPipe) (t : ThreadId) (n : Nat) (fd : PosixFd) : PosixPipe :=
  { s with
    readers := if fd.access.reads then countDown s.readers else s.readers
    writers := if fd.access.writes then countDown s.writers else s.writers
    lock := some t
    fds := s.fds.erase (n, fd) }.setCall t (some (.close .wakeReaders))

/-- `pipe_fops_close` goes on. -/
def closeGo (s : PosixPipe) (t : ThreadId) : ClosePoint → PosixPipe × List PosixEvent
  | .wakeReaders =>
    ({ s with readerQueue := if s.writers = 0 then s.readerQueue.wakeup else s.readerQueue }.setCall t (some (.close .wakeWriters)), [])
  | .wakeWriters =>
    ({ s with writerQueue := if s.readers = 0 then s.writerQueue.wakeup else s.writerQueue }.setCall t (some (.close .out)), [])
  | .out =>
    ({ s with fifo := if s.refCount = 1 then none else s.fifo, refCount := countDown s.refCount, lock := none }.setCall t none, [.returned t 0])

/-- `pipe_fops_read` goes on. -/
def readGo (s : PosixPipe) (t : ThreadId) (count : Nat) (nonblock : Bool) : ReadPoint → Option (PosixPipe × List PosixEvent)
  | .take =>
    if s.lock ≠ none then none
    else if s.writers = 0 then some (s.readEnd t)
    else s.fifo.map fun fifo =>
      let get := rtRingbufferGet fifo (count % 65536)
      if get.1 ≠ [] then
        ({ s with fifo := some get.2, lock := some t }.setCall t (some (.read count nonblock (.wakeWriter get.1))), [.got t get.1])
      else if nonblock then ({ s with fifo := some get.2 }.setCall t none, [.returned t (-eagain)])
      else ({ s with fifo := some get.2 }.setCall t (some (.read count nonblock .emptied)), [])
  | .wakeWriter data =>
    some ({ s with writerQueue := s.writerQueue.wakeup }.setCall t (some (.read count nonblock (.out data))), [])
  | .out data => some ({ s with lock := none }.setCall t none, [.returned t data.length])
  | .emptied => some ({ s with writerQueue := s.writerQueue.wakeup }.setCall t (some (.read count nonblock .checked)), [])
  | .checked =>
    if s.readerQueue.flag then
      some ({ s with readerQueue := ⟨false, s.readerQueue.waitingList⟩ }.setCall t (some (.read count nonblock .take)), [])
    else
      some ({ s with readerQueue := ⟨s.readerQueue.flag, s.readerQueue.waitingList ++ [t]⟩ }.setCall t
        (some (.read count nonblock .wait)), [])
  | .wait =>
    if t ∈ s.readerQueue.waitingList then none
    else some ({ s with readerQueue := ⟨false, s.readerQueue.waitingList⟩ }.setCall t (some (.read count nonblock .take)), [])

/-- `pipe_fops_write` goes on. -/
def writeGo (s : PosixPipe) (t : ThreadId) (buffer : List UInt8) (nonblock : Bool) (ret : Nat) (wakeup : Bool) :
    WritePoint → Option (PosixPipe × List PosixEvent)
  | .take =>
    if s.lock ≠ none then none
    else if s.readers = 0 then
      some (s.setCall t (some (.write buffer nonblock ret wakeup (.wake (if ret = 0 then -epipe else ret)))), [])
    else s.fifo.map fun fifo =>
      let put := rtRingbufferPut fifo ((buffer.drop ret).take ((buffer.length - ret) % 65536))
      let point :=
        if ret + put.1 = buffer.length then .wake (ret + put.1 : Nat)
        else if nonblock then .wake (if ret + put.1 = 0 then -eagain else (ret + put.1 : Nat))
        else .full
      ({ s with fifo := some put.2 }.setCall t (some (.write buffer nonblock (ret + put.1) true point)),
        [.put t (((buffer.drop ret).take ((buffer.length - ret) % 65536)).take put.1)])
  | .full =>
    some ({ s with readerQueue := s.readerQueue.wakeup }.setCall t (some (.write buffer nonblock ret wakeup .checked)), [])
  | .checked =>
    if s.writerQueue.flag then
      some ({ s with writerQueue := ⟨false, s.writerQueue.waitingList⟩ }.setCall t
        (some (.write buffer nonblock ret wakeup .take)), [])
    else
      some ({ s with writerQueue := ⟨s.writerQueue.flag, s.writerQueue.waitingList ++ [t]⟩ }.setCall t
        (some (.write buffer nonblock ret wakeup .wait)), [])
  | .wait =>
    if t ∈ s.writerQueue.waitingList then none
    else some ({ s with writerQueue := ⟨false, s.writerQueue.waitingList⟩ }.setCall t
      (some (.write buffer nonblock ret wakeup .take)), [])
  | .wake result =>
    some ({ s with readerQueue := if wakeup then s.readerQueue.wakeup else s.readerQueue }.setCall t none, [.returned t result])

/-- `pipe_fops_read` up to `rt_mutex_take`. -/
def readCall (s : PosixPipe) (t : ThreadId) (fd : PosixFd) (count : Nat) : PosixPipe × List PosixEvent :=
  if s.writers = 0 then s.readEnd t else (s.setCall t (some (.read count fd.nonblock .take)), [])

/-- `pipe_fops_write` up to `rt_mutex_take`. -/
def writeCall (s : PosixPipe) (t : ThreadId) (fd : PosixFd) (buffer : List UInt8) : PosixPipe × List PosixEvent :=
  if s.readers = 0 then (s, [.returned t (-epipe)])
  else if buffer = [] then (s, [.returned t 0])
  else (s.setCall t (some (.write buffer fd.nonblock 0 false .take)), [])

end PosixPipe

inductive PosixOp
  | openFd (n : Nat) (fd : PosixFd) (pool : Option (Nat → UInt8))
  | closeFd (t : ThreadId) (n : Nat) (fd : PosixFd)
  | read (t : ThreadId) (n : Nat) (fd : PosixFd) (count : Nat)
  | write (t : ThreadId) (n : Nat) (fd : PosixFd) (buffer : List UInt8)
  | go (t : ThreadId)

def stepPosix (bufsz : Nat) (s : PosixPipe) : PosixOp → Option (PosixPipe × List PosixEvent)
  | .openFd n fd pool => if s.lock = none ∧ n ∉ s.fds.map Prod.fst then some (s.openFd bufsz n fd pool, []) else none
  | .closeFd t n fd => if s.lock = none ∧ s.call t = none ∧ (n, fd) ∈ s.fds then some (s.closeFd t n fd, []) else none
  | .read t n fd count =>
    if s.call t = none ∧ (n, fd) ∈ s.fds ∧ fd.access.reads = true then some (s.readCall t fd count) else none
  | .write t n fd buffer =>
    if s.call t = none ∧ (n, fd) ∈ s.fds ∧ fd.access.writes = true then some (s.writeCall t fd buffer) else none
  | .go t =>
    match s.call t with
    | none => none
    | some (.read count nonblock point) => s.readGo t count nonblock point
    | some (.write buffer nonblock ret wakeup point) => s.writeGo t buffer nonblock ret wakeup point
    | some (.close point) => some (s.closeGo t point)

/-- `rt_pipe_create` -/
def PosixPipe.init : PosixPipe := ⟨none, 0, 0, 0, none, ⟨false, []⟩, ⟨false, []⟩, [], fun _ => none⟩

end RtThread
