import RtThread.Drivers.RingBuffer

/-!
# The kernel's pipe device

`rt_pipe_read` and `rt_pipe_write` hold the mutex of the pipe while they move bytes in a loop, until nothing is left to move or the ring buffer does not move any. The counts are `rt_size_t`, but the ring buffer takes its length as 16 bits, so each turn asks for what is left modulo 65536.
-/

namespace RtThread

open Ring

/-- The call that holds the lock, with what it has moved, and with the space or the data that the buffer had when it took the lock. -/
inductive PipeCall
  | write (buffer : List UInt8) (writeBytes : Nat) (space : Nat)
  | read (count : Nat) (pbuf : List UInt8) (data : Nat)
  deriving DecidableEq

/-- `struct rt_pipe_device` -/
structure Pipe where
  fifo : RingBuffer
  lock : Option PipeCall

inductive PipeOp
  /-- `rt_pipe_write` and `rt_pipe_read` are called. -/
  | write (buffer : List UInt8)
  | read (count : Nat)
  /-- One turn of the loop of the call that holds the lock. -/
  | turn
  deriving DecidableEq

inductive PipeEvent
  | write (buffer : List UInt8) (writeBytes : Nat) (space : Nat)
  | read (count : Nat) (pbuf : List UInt8) (data : Nat)
  deriving DecidableEq

/-- A turn of the loop of `rt_pipe_write`; its last turn gives up the lock. -/
def pipeWriteTurn (fifo : RingBuffer) (buffer : List UInt8) (writeBytes space : Nat) : Pipe × List PipeEvent :=
  if writeBytes < buffer.length then
    let length := (buffer.length - writeBytes) % 65536
    let put := rtRingbufferPut fifo ((buffer.drop writeBytes).take length)
    if put.1 = 0 then (⟨put.2, none⟩, [.write buffer writeBytes space])
    else (⟨put.2, some (.write buffer (writeBytes + put.1) space)⟩, [])
  else (⟨fifo, none⟩, [.write buffer writeBytes space])

/-- The same for `rt_pipe_read`. -/
def pipeReadTurn (fifo : RingBuffer) (count : Nat) (pbuf : List UInt8) (data : Nat) : Pipe × List PipeEvent :=
  if pbuf.length < count then
    let length := (count - pbuf.length) % 65536
    let get := rtRingbufferGet fifo length
    if get.1.length = 0 then (⟨get.2, none⟩, [.read count pbuf data])
    else (⟨get.2, some (.read count (pbuf ++ get.1) data)⟩, [])
  else (⟨fifo, none⟩, [.read count pbuf data])

/-- A call for no bytes returns at once; another one waits until the lock is free. -/
def stepPipe (s : Pipe) : PipeOp → Option (Pipe × List PipeEvent)
  | .write buffer =>
    let space := rtRingbufferSpaceLen s.fifo
    if buffer.length = 0 then some (s, [.write buffer 0 space])
    else if s.lock = none then some ({ s with lock := some (.write buffer 0 space) }, [])
    else none
  | .read count =>
    let data := rtRingbufferDataLen s.fifo
    if count = 0 then some (s, [.read count [] data])
    else if s.lock = none then some ({ s with lock := some (.read count [] data) }, [])
    else none
  | .turn =>
    match s.lock with
    | none => none
    | some (.write buffer writeBytes space) => some (pipeWriteTurn s.fifo buffer writeBytes space)
    | some (.read count pbuf data) => some (pipeReadTurn s.fifo count pbuf data)

/-- `rt_pipe_open` creates the buffer: `rt_ringbuffer_create`, when there is memory. -/
def rtPipeOpen (pool : Nat → UInt8) (bufsz : Nat) : Option Pipe :=
  (rtRingbufferInit pool (bufsz / 4 * 4)).map fun fifo => ⟨fifo, none⟩

/-! ## What the calls move -/

def accepted (trace : List PipeEvent) : List UInt8 :=
  trace.flatMap fun
    | .write buffer writeBytes _ => buffer.take writeBytes
    | .read _ _ _ => []

def received (trace : List PipeEvent) : List UInt8 :=
  trace.flatMap fun
    | .write _ _ _ => []
    | .read _ pbuf _ => pbuf

/-- A call that has asked for `count` where `available` is possible has moved the least of `available` and the last 16 bits of the count. -/
def Moved (count available moved : Nat) : Prop := moved = min (count % 65536) available

theorem moved_eq_min_iff {count available moved : Nat} (h : Moved count available moved) :
    moved = min count available ↔ count < 65536 ∨ available ≤ count % 65536 := by
  unfold Moved at h
  omega

theorem Moved.exhausted {count available moved : Nat} (h : Moved count available moved) :
    available = moved ∨ (count - moved) % 65536 = 0 := by
  unfold Moved at h
  omega

variable {s s' : Pipe} {op : PipeOp} {trace events : List PipeEvent} {capacity : Nat} {q : List UInt8}

theorem accepted_append (trace trace' : List PipeEvent) : accepted (trace ++ trace') = accepted trace ++ accepted trace' :=
  List.flatMap_append

theorem received_append (trace trace' : List PipeEvent) : received (trace ++ trace') = received trace ++ received trace' :=
  List.flatMap_append

/-- Where the call that holds the lock is, when the buffer stands for `q`: it has not moved any byte, or all it can. -/
inductive CallInv (capacity : Nat) (trace : List PipeEvent) (q : List UInt8) : Option PipeCall → Prop
  | idle (h : accepted trace = received trace ++ q) : CallInv capacity trace q none
  | write (q₀ buffer : List UInt8) (writeBytes space : Nat) (hne : buffer.length ≠ 0)
      (h : accepted trace = received trace ++ q₀)
      (hq : q = q₀ ++ buffer.take writeBytes) (hspace : space = capacity - q₀.length) (hle : q₀.length ≤ capacity)
      (hmoved : writeBytes = 0 ∨ Moved buffer.length space writeBytes) :
      CallInv capacity trace q (some (.write buffer writeBytes space))
  | read (count : Nat) (pbuf : List UInt8) (data : Nat) (hne : count ≠ 0)
      (h : accepted trace = received trace ++ (pbuf ++ q)) (hdata : data = (pbuf ++ q).length) (hmoved : pbuf.length = 0 ∨ Moved count data pbuf.length) :
      CallInv capacity trace q (some (.read count pbuf data))

/-- A call that has returned has moved what `Moved` says. -/
def Returned : PipeEvent → Prop
  | .write buffer writeBytes space => Moved buffer.length space writeBytes
  | .read count pbuf data => Moved count data pbuf.length

structure PipeInv (capacity : Nat) (trace : List PipeEvent) (s : Pipe) : Prop where
  fifo : ∃ q, s.fifo.Represents capacity q ∧ CallInv capacity trace q s.lock
  returned : ∀ e ∈ trace, Returned e

theorem RingBuffer.Represents.put {rb : RingBuffer} (h : rb.Represents capacity q) (ptr : List UInt8) :
    (rtRingbufferPut rb ptr).1 = min ptr.length (capacity - q.length) ∧
      (rtRingbufferPut rb ptr).2.Represents capacity (q ++ ptr.take (rtRingbufferPut rb ptr).1) := by
  obtain ⟨hinv, rfl, rfl⟩ := h
  obtain ⟨hlength, hinv', hsize, hcontents⟩ := hinv.put ptr
  have hmin : (rtRingbufferPut rb ptr).1 = min ptr.length (rb.bufferSize - rb.contents.length) := by
    rw [hlength, List.length_take, Nat.min_comm]
  refine ⟨hmin, hinv'.represents hsize ?_⟩
  rw [hcontents, hmin, Nat.min_comm, ← List.take_eq_take_min]

theorem RingBuffer.Represents.get {rb : RingBuffer} (h : rb.Represents capacity q) (length : Nat) :
    (rtRingbufferGet rb length).1 = q.take length ∧ (rtRingbufferGet rb length).2.Represents capacity (q.drop length) := by
  obtain ⟨hinv, rfl, rfl⟩ := h
  obtain ⟨hbytes, hinv', hsize, hcontents⟩ := hinv.get length
  exact ⟨hbytes, hinv'.represents hsize hcontents⟩

theorem CallInv.append {lock : Option PipeCall} (h : CallInv capacity trace q lock) (haccepted : accepted events = [])
    (hreceived : received events = []) : CallInv capacity (trace ++ events) q lock := by
  have ha : accepted (trace ++ events) = accepted trace := by
    rw [accepted_append, haccepted, List.append_nil]
  have hr : received (trace ++ events) = received trace := by
    rw [received_append, hreceived, List.append_nil]
  cases h with
  | idle h => exact .idle (by rw [ha, hr, h])
  | write q₀ buffer writeBytes space hne h hq hspace hle hmoved =>
    exact .write q₀ buffer writeBytes space hne (by rw [ha, hr, h]) hq hspace hle hmoved
  | read count pbuf data hne h hdata hmoved => exact .read count pbuf data hne (by rw [ha, hr, h]) hdata hmoved

theorem moved_turn {count available moved n : Nat} (hmoved : moved = 0 ∨ Moved count available moved) (hlt : moved < count)
    (hle : moved ≤ available) (hn : n = min ((count - moved) % 65536) (available - moved)) :
    (n = 0 → Moved count available moved) ∧ (n ≠ 0 → Moved count available (moved + n)) := by
  unfold Moved at hmoved ⊢
  omega

theorem CallInv.write_returned {buffer : List UInt8} {writeBytes space : Nat}
    (h : CallInv capacity trace q (some (.write buffer writeBytes space))) :
    CallInv capacity (trace ++ [.write buffer writeBytes space]) q none := by
  cases h with
  | write q₀ _ _ _ _ h hq =>
    apply CallInv.idle
    rw [accepted_append, received_append, h, hq]
    simp [accepted, received]

theorem CallInv.read_returned {count data : Nat} {pbuf : List UInt8}
    (h : CallInv capacity trace q (some (.read count pbuf data))) :
    CallInv capacity (trace ++ [.read count pbuf data]) q none := by
  cases h with
  | read _ _ _ _ h =>
    apply CallInv.idle
    rw [accepted_append, received_append, h]
    simp [accepted, received]

theorem pipeWriteTurn_inv {fifo : RingBuffer} {buffer : List UInt8} {writeBytes space : Nat}
    (hfifo : fifo.Represents capacity q) (h : CallInv capacity trace q (some (.write buffer writeBytes space))) :
    (∃ q', (pipeWriteTurn fifo buffer writeBytes space).1.fifo.Represents capacity q' ∧
      CallInv capacity (trace ++ (pipeWriteTurn fifo buffer writeBytes space).2) q'
        (pipeWriteTurn fifo buffer writeBytes space).1.lock) ∧
    ∀ e ∈ (pipeWriteTurn fifo buffer writeBytes space).2, Returned e := by
  have hreturned := h.write_returned
  cases h with
  | write q₀ _ _ _ hne h hq hspace hle hmoved =>
    have hcapacity : q.length ≤ capacity := by
      obtain ⟨hinv, hsize, -⟩ := hfifo
      exact hsize ▸ hinv.count
    unfold pipeWriteTurn
    split_ifs with hlt
    · have hlength : q.length = q₀.length + writeBytes := by
        rw [hq, List.length_append, List.length_take]
        omega
      obtain ⟨hput, hfifo'⟩ := hfifo.put ((buffer.drop writeBytes).take ((buffer.length - writeBytes) % 65536))
      have hn : (rtRingbufferPut fifo ((buffer.drop writeBytes).take ((buffer.length - writeBytes) % 65536))).1 =
          min ((buffer.length - writeBytes) % 65536) (space - writeBytes) := by
        rw [hput, List.length_take, List.length_drop]
        omega
      obtain ⟨hlast, hmore⟩ := moved_turn hmoved hlt (by omega) hn
      dsimp only
      split_ifs with hzero
      · rw [hzero, List.take_zero, List.append_nil] at hfifo'
        refine ⟨⟨q, hfifo', hreturned⟩, fun e he => ?_⟩
        rw [List.mem_singleton.1 he]
        exact hlast hzero
      · refine ⟨⟨_, hfifo', ?_⟩, fun e he => by cases he⟩
        rw [List.append_nil]
        refine .write q₀ buffer _ space hne h ?_ hspace hle (.inr (hmore hzero))
        rw [hq, List.append_assoc, List.take_take, Nat.min_eq_left (by omega), ← List.take_add]
    · refine ⟨⟨q, hfifo, hreturned⟩, fun e he => ?_⟩
      rw [List.mem_singleton.1 he]
      exact hmoved.resolve_left (by omega)

theorem pipeReadTurn_inv {fifo : RingBuffer} {count data : Nat} {pbuf : List UInt8}
    (hfifo : fifo.Represents capacity q) (h : CallInv capacity trace q (some (.read count pbuf data))) :
    (∃ q', (pipeReadTurn fifo count pbuf data).1.fifo.Represents capacity q' ∧
      CallInv capacity (trace ++ (pipeReadTurn fifo count pbuf data).2) q' (pipeReadTurn fifo count pbuf data).1.lock) ∧
    ∀ e ∈ (pipeReadTurn fifo count pbuf data).2, Returned e := by
  have hreturned := h.read_returned
  cases h with
  | read _ _ _ hne h hdata hmoved =>
    unfold pipeReadTurn
    split_ifs with hlt
    · rw [List.length_append] at hdata
      obtain ⟨hget, hfifo'⟩ := hfifo.get ((count - pbuf.length) % 65536)
      have hn : (rtRingbufferGet fifo ((count - pbuf.length) % 65536)).1.length =
          min ((count - pbuf.length) % 65536) (data - pbuf.length) := by
        rw [hget, List.length_take]
        omega
      obtain ⟨hlast, hmore⟩ := moved_turn hmoved hlt (by omega) hn
      dsimp only
      split_ifs with hzero
      · have hdrop : q.drop ((count - pbuf.length) % 65536) = q := by
          have htake : q.take ((count - pbuf.length) % 65536) = [] := List.eq_nil_of_length_eq_zero (hget ▸ hzero)
          have hsplit := List.take_append_drop ((count - pbuf.length) % 65536) q
          rwa [htake, List.nil_append] at hsplit
        rw [hdrop] at hfifo'
        refine ⟨⟨q, hfifo', hreturned⟩, fun e he => ?_⟩
        rw [List.mem_singleton.1 he]
        exact hlast hzero
      · refine ⟨⟨_, hfifo', ?_⟩, fun e he => by cases he⟩
        rw [List.append_nil]
        refine .read count _ data hne ?_ ?_ (.inr ?_)
        · rw [h, hget, List.append_assoc, List.take_append_drop]
        · rw [hget, List.append_assoc, List.take_append_drop, List.length_append, hdata]
        · rw [List.length_append]
          exact hmore hzero
    · refine ⟨⟨q, hfifo, hreturned⟩, fun e he => ?_⟩
      rw [List.mem_singleton.1 he]
      exact hmoved.resolve_left (by omega)

/-! ## Runs -/

theorem PipeInv.quiet {lock : Option PipeCall} (h : PipeInv capacity trace s)
    (hlock : ∀ q, s.fifo.Represents capacity q → CallInv capacity trace q s.lock → CallInv capacity trace q lock)
    (haccepted : accepted events = []) (hreceived : received events = []) (hreturned : ∀ e ∈ events, Returned e) :
    PipeInv capacity (trace ++ events) ⟨s.fifo, lock⟩ := by
  obtain ⟨⟨q, hfifo, hcall⟩, hall⟩ := h
  refine ⟨⟨q, hfifo, (hlock q hfifo hcall).append haccepted hreceived⟩, fun e he => ?_⟩
  exact (List.mem_append.1 he).elim (hall e) (hreturned e)

theorem PipeInv.step (h : PipeInv capacity trace s) (hs : stepPipe s op = some (s', events)) :
    PipeInv capacity (trace ++ events) s' := by
  cases op with
  | write buffer =>
    simp only [stepPipe] at hs
    split_ifs at hs with hzero hlock
    · cases hs
      refine h.quiet (fun _ _ hcall => hcall) (by simp [accepted]) (by simp [received]) fun e he => ?_
      rw [List.mem_singleton.1 he]
      unfold Returned Moved
      omega
    · cases hs
      refine h.quiet (fun q hfifo hcall => ?_) rfl rfl fun e he => by cases he
      rw [hlock] at hcall
      obtain ⟨hinv, hsize, hcontents⟩ := hfifo
      cases hcall with
      | idle hidle =>
        refine .write q buffer 0 _ hzero hidle (by simp) ?_ (hsize ▸ hinv.count) (.inl rfl)
        rw [hinv.spaceLen, hsize]
  | read count =>
    simp only [stepPipe] at hs
    split_ifs at hs with hzero hlock
    · cases hs
      refine h.quiet (fun _ _ hcall => hcall) (by simp [accepted]) (by simp [received]) fun e he => ?_
      rw [List.mem_singleton.1 he]
      unfold Returned Moved
      simp [hzero]
    · cases hs
      refine h.quiet (fun q hfifo hcall => ?_) rfl rfl fun e he => by cases he
      rw [hlock] at hcall
      obtain ⟨hinv, -, -⟩ := hfifo
      cases hcall with
      | idle hidle => exact .read count [] _ hzero hidle hinv.dataLen (.inl rfl)
  | turn =>
    obtain ⟨fifo, lock⟩ := s
    obtain ⟨⟨q, hfifo, hcall⟩, hall⟩ := h
    cases lock with
    | none => cases hs
    | some call =>
      cases call with
      | write buffer writeBytes space =>
        have hs' := Option.some.inj hs
        obtain ⟨hinv, hreturned⟩ := pipeWriteTurn_inv hfifo hcall
        rw [hs'] at hinv hreturned
        exact ⟨hinv, fun e he => (List.mem_append.1 he).elim (hall e) (hreturned e)⟩
      | read count pbuf data =>
        have hs' := Option.some.inj hs
        obtain ⟨hinv, hreturned⟩ := pipeReadTurn_inv hfifo hcall
        rw [hs'] at hinv hreturned
        exact ⟨hinv, fun e he => (List.mem_append.1 he).elim (hall e) (hreturned e)⟩

def Pipe.Started (s : Pipe) : Prop :=
  match s.lock with
  | none => False
  | some (.write _ writeBytes _) => writeBytes ≠ 0
  | some (.read _ pbuf _) => pbuf.length ≠ 0

theorem turn_started {call : PipeCall} (hlock : s.lock = some call) :
    ∃ s' events, stepPipe s .turn = some (s', events) ∧ (s'.lock = none ∨ s'.Started) := by
  obtain ⟨fifo, lock⟩ := s
  cases hlock
  cases call with
  | write buffer writeBytes space =>
    refine ⟨(pipeWriteTurn fifo buffer writeBytes space).1, (pipeWriteTurn fifo buffer writeBytes space).2, rfl, ?_⟩
    unfold pipeWriteTurn
    dsimp only
    split_ifs with hlt hzero
    · exact .inl rfl
    · exact .inr (by simp only [Pipe.Started]; omega)
    · exact .inl rfl
  | read count pbuf data =>
    refine ⟨(pipeReadTurn fifo count pbuf data).1, (pipeReadTurn fifo count pbuf data).2, rfl, ?_⟩
    unfold pipeReadTurn
    dsimp only
    split_ifs with hlt hzero
    · exact .inl rfl
    · exact .inr (by simp only [Pipe.Started, List.length_append]; omega)
    · exact .inl rfl

theorem PipeInv.turn_last (h : PipeInv capacity trace s) (hstarted : s.Started) :
    ∃ s' events, stepPipe s .turn = some (s', events) ∧ s'.lock = none := by
  obtain ⟨fifo, lock⟩ := s
  obtain ⟨⟨q, hfifo, hcall⟩, -⟩ := h
  change fifo.Represents capacity q at hfifo
  cases hcall with
  | idle => exact hstarted.elim
  | write q₀ buffer writeBytes space hne h hq hspace hle hmoved =>
    refine ⟨(pipeWriteTurn fifo buffer writeBytes space).1, (pipeWriteTurn fifo buffer writeBytes space).2, rfl, ?_⟩
    unfold pipeWriteTurn
    split_ifs with hlt
    · have hcapacity : q.length ≤ capacity := by
        obtain ⟨hinv, hsize, -⟩ := hfifo
        exact hsize ▸ hinv.count
      have hlength : q.length = q₀.length + writeBytes := by
        rw [hq, List.length_append, List.length_take]
        omega
      have hexhausted := (hmoved.resolve_left hstarted).exhausted
      have hput := (hfifo.put ((buffer.drop writeBytes).take ((buffer.length - writeBytes) % 65536))).1
      rw [List.length_take, List.length_drop] at hput
      dsimp only
      rw [if_pos (by omega)]
    · rfl
  | read count pbuf data hne h hdata hmoved =>
    refine ⟨(pipeReadTurn fifo count pbuf data).1, (pipeReadTurn fifo count pbuf data).2, rfl, ?_⟩
    unfold pipeReadTurn
    split_ifs with hlt
    · have hexhausted := (hmoved.resolve_left hstarted).exhausted
      have hget := congrArg List.length (hfifo.get ((count - pbuf.length) % 65536)).1
      rw [List.length_take] at hget
      rw [List.length_append] at hdata
      dsimp only
      rw [if_pos (by omega)]
    · rfl

structure PipeTransfer (trace : List PipeEvent) (s : Pipe) : Prop where
  fifo : received trace <+: accepted trace
  /-- A write has accepted as many bytes as there was space for, exactly when its count has 16 bits or the last 16 bits of it cover the space. -/
  write : ∀ buffer writeBytes space, .write buffer writeBytes space ∈ trace →
    (writeBytes = min buffer.length space ↔ buffer.length < 65536 ∨ space ≤ buffer.length % 65536)
  read : ∀ count pbuf data, .read count pbuf data ∈ trace →
    (pbuf.length = min count data ↔ count < 65536 ∨ data ≤ count % 65536)
  /-- A call that has the lock returns after two turns at most. -/
  returns : s.lock ≠ none → ∃ turns events s', turns ≤ 2 ∧
    Transition.exec stepPipe (fun _ _ => True) s (List.replicate turns .turn) = some (events, s') ∧ s'.lock = none

theorem PipeInv.returns (h : PipeInv capacity trace s) (hlock : s.lock ≠ none) : ∃ turns events s', turns ≤ 2 ∧
    Transition.exec stepPipe (fun _ _ => True) s (List.replicate turns .turn) = some (events, s') ∧ s'.lock = none := by
  obtain ⟨call, hcall⟩ := Option.ne_none_iff_exists'.1 hlock
  obtain ⟨s₁, events₁, hs₁, hend | hstarted⟩ := turn_started hcall
  · refine ⟨1, events₁, s₁, by omega, ?_, hend⟩
    simp [Transition.exec, hs₁]
  · obtain ⟨s₂, events₂, hs₂, hend⟩ := (h.step hs₁).turn_last hstarted
    refine ⟨2, events₁ ++ events₂, s₂, le_rfl, ?_, hend⟩
    simp [Transition.exec, hs₁, hs₂]

theorem PipeInv.transfer (h : PipeInv capacity trace s) : PipeTransfer trace s := by
  refine ⟨?_, fun buffer writeBytes space he => ?_, fun count pbuf data he => ?_, h.returns⟩
  · obtain ⟨q, -, hcall⟩ := h.fifo
    generalize s.lock = lock at hcall
    cases hcall with
    | idle h => exact ⟨q, h.symm⟩
    | write q₀ _ _ _ _ h => exact ⟨q₀, h.symm⟩
    | read _ pbuf _ _ h => exact ⟨pbuf ++ q, h.symm⟩
  · exact moved_eq_min_iff (h.returned _ he)
  · exact moved_eq_min_iff (h.returned _ he)

variable {pool : Nat → UInt8} {bufsz : Nat} {s₀ : Pipe}

theorem PipeInv.start (hopen : rtPipeOpen pool bufsz = some s₀) : PipeInv (bufsz / 4 * 4) [] s₀ := by
  unfold rtPipeOpen at hopen
  obtain ⟨fifo, hinit, rfl⟩ := Option.map_eq_some_iff.1 hopen
  have hfifo := rtRingbufferInit_represents hinit
  rw [Nat.mul_div_cancel _ (by decide : 0 < 4)] at hfifo
  exact ⟨⟨[], hfifo, .idle rfl⟩, fun e he => by cases he⟩

/-- In every run of a pipe, with a buffer of any size that can be opened. -/
theorem pipeTransfer_of_run (hopen : rtPipeOpen pool bufsz = some s₀)
    (hrun : Transition.Run stepPipe (fun _ _ => True) s₀ trace s) : PipeTransfer trace s := by
  have hinv : PipeInv (bufsz / 4 * 4) trace s :=
    hrun.invariant (I := PipeInv (bufsz / 4 * 4)) (.start hopen) fun _ _ _ _ _ h _ hs => h.step hs
  exact hinv.transfer

theorem exists_pipeRun (s₀ : Pipe) (ops : List PipeOp) (found : List PipeEvent → Pipe → Bool)
    (h : ((Transition.exec stepPipe (fun _ _ => True) s₀ ops).any fun r => found r.1 r.2) = true) :
    ∃ trace s, Transition.Run stepPipe (fun _ _ => True) s₀ trace s ∧ found trace s = true :=
  Transition.exists_run_of_exec ops found h

/-- A write that is cut, and two reads that take what is there. -/
theorem pipeTransfer_of_run_cut : ∃ s₀ trace s, rtPipeOpen (fun _ => 0) 4 = some s₀ ∧
    Transition.Run stepPipe (fun _ _ => True) s₀ trace s ∧
    trace = [.write [1, 2, 3, 4, 5] 4 4, .read 3 [1, 2, 3] 4, .read 3 [4] 1] ∧ PipeTransfer trace s := by
  have hopen : rtPipeOpen (fun _ => 0) 4 = some ⟨⟨fun _ => 0, false, 0, false, 0, 4⟩, none⟩ := rfl
  obtain ⟨trace, s, hrun, hfound⟩ := exists_pipeRun ⟨⟨fun _ => 0, false, 0, false, 0, 4⟩, none⟩
    [.write [1, 2, 3, 4, 5], .turn, .turn, .read 3, .turn, .turn, .read 3, .turn, .turn]
    (fun trace _ => decide (trace = [.write [1, 2, 3, 4, 5] 4 4, .read 3 [1, 2, 3] 4, .read 3 [4] 1])) (by decide +kernel)
  exact ⟨_, trace, s, hopen, hrun, of_decide_eq_true hfound, pipeTransfer_of_run hopen hrun⟩

/-- A write of 65536 bytes to an empty pipe accepts none of them, and a read of as many gets none of those in a full one. -/
theorem pipeTransfer_fails : ∃ s₀, rtPipeOpen (fun _ => 0) 4 = some s₀ ∧
    (∃ s, Transition.Run stepPipe (fun _ _ => True) s₀ [.write (List.replicate 65536 7) 0 4] s) ∧
    ∃ s, Transition.Run stepPipe (fun _ _ => True) s₀ [.write [1, 2, 3, 4] 4 4, .read 65536 [] 4] s := by
  refine ⟨⟨⟨fun _ => 0, false, 0, false, 0, 4⟩, none⟩, rfl, ?_, ?_⟩
  · have hlength : (List.replicate 65536 (7 : UInt8)).length = 65536 := List.length_replicate
    generalize List.replicate 65536 (7 : UInt8) = buffer at hlength
    have hwrite : stepPipe ⟨⟨fun _ => 0, false, 0, false, 0, 4⟩, none⟩ (.write buffer) =
        some (⟨⟨fun _ => 0, false, 0, false, 0, 4⟩, some (.write buffer 0 4)⟩, []) := by
      simp only [stepPipe, if_neg (show ¬ buffer.length = 0 by omega), if_true]
      rfl
    have hturn : stepPipe ⟨⟨fun _ => 0, false, 0, false, 0, 4⟩, some (.write buffer 0 4)⟩ .turn =
        some (⟨⟨fun _ => 0, false, 0, false, 0, 4⟩, none⟩, [.write buffer 0 4]) := by
      simp only [stepPipe, pipeWriteTurn, hlength]
      rfl
    exact ⟨_, (Transition.Run.start.next trivial hwrite).next trivial hturn⟩
  · obtain ⟨trace, s, hrun, hfound⟩ := exists_pipeRun ⟨⟨fun _ => 0, false, 0, false, 0, 4⟩, none⟩
      [.write [1, 2, 3, 4], .turn, .turn, .read 65536, .turn]
      (fun trace _ => decide (trace = [.write [1, 2, 3, 4] 4 4, .read 65536 [] 4])) (by decide +kernel)
    exact ⟨s, of_decide_eq_true hfound ▸ hrun⟩

end RtThread
