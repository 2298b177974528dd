import RtThread.Drivers.Device
import RtThread.Drivers.RingBuffer

/-!
# The buffer of a pipe device

`rt_pipe_open` creates the buffer of a pipe where there is none, and `rt_pipe_close` destroys it when the reference count is one. `rt_device_close` has taken the last reference off before it calls `rt_pipe_close`: the buffer outlives every session.
-/

namespace RtThread

/-- `pipe->fifo`; it dangles where `rt_ringbuffer_create` has freed it for want of a pool. -/
inductive PipeFifo
  | null
  | dangling
  | ring (rb : RingBuffer)

/-- What `rt_malloc` has for `rt_ringbuffer_create`. -/
inductive PipeMemory
  | noHeader
  | noPool
  | pool (cells : Nat → UInt8)

/-- `rt_ringbuffer_create`; nothing where an assertion fails. -/
def rtRingbufferCreate (memory : PipeMemory) (size : Nat) : Option PipeFifo :=
  if size = 0 then none
  else
    match memory with
    | .noHeader => some .null
    | .noPool => some .dangling
    | .pool cells => (rtRingbufferInit cells (size / 4 * 4)).map .ring

/-- `rt_pipe_open`, where `created` is what it creates, and `rt_pipe_close`. -/
def pipeDriver (created : PipeFifo) : Driver PipeFifo where
  deviceInit := none
  deviceOpen := some fun dev _ => (rtEok, match dev.user with | .null => { dev with user := created } | _ => dev)
  deviceClose := some fun dev => (rtEok, if dev.refCount = 1 then { dev with user := .null } else dev)

/-- A device is read and written through its buffer, a turn of the loop at a time. -/
inductive PipeDeviceOp
  | open (oflag : BitVec 16) (memory : PipeMemory)
  | close
  | write (ptr : List UInt8)
  | read (length : Nat)

/-- A call of `rt_device_open` with the buffer it leaves, and whether there was no reference; a call of `rt_device_close`, whether the last reference has gone, and whether the buffer. -/
inductive PipeDeviceEvent
  | opened (first : Bool) (fifo : PipeFifo)
  | closed (last : Bool) (fifo : PipeFifo)

/-- What `rt_pipe_open` creates, if it does. -/
def pipeCreates (bufsz : Nat) (dev : Device PipeFifo) (memory : PipeMemory) : Option PipeFifo :=
  match dev.user with
  | .null => rtRingbufferCreate memory bufsz
  | fifo => some fifo

/-- Without a reference `rt_device_read` and `rt_device_write` do not call the driver; the buffer is asserted. -/
def stepPipeDevice (bufsz : Nat) (dev : Device PipeFifo) : PipeDeviceOp → Option (Device PipeFifo × List PipeDeviceEvent)
  | .open oflag memory =>
    (pipeCreates bufsz dev memory).bind fun created =>
      (dev.rtDeviceOpen (pipeDriver created) oflag).map fun r => (r.2, [.opened (decide (dev.refCount = 0)) r.2.user])
  | .close =>
    let r := dev.rtDeviceClose (pipeDriver .null)
    some (r.2.2, [.closed (decide (dev.refCount = 1)) r.2.2.user])
  | .write ptr =>
    if dev.refCount = 0 then some (dev, [])
    else
      match dev.user with
      | .ring rb => some ({ dev with user := .ring (rtRingbufferPut rb ptr).2 }, [])
      | _ => none
  | .read length =>
    if dev.refCount = 0 then some (dev, [])
    else
      match dev.user with
      | .ring rb => some ({ dev with user := .ring (rtRingbufferGet rb length).2 }, [])
      | _ => none

/-- `RT_DEVICE_FLAG_RDWR | RT_DEVICE_FLAG_REMOVABLE` -/
def rtPipeFlags : BitVec 16 := 0x003 ||| 0x004

/-- A run of a pipe device from `rt_pipe_create` on. -/
abbrev PipeDeviceRun (ok : Device PipeFifo → PipeDeviceOp → Prop) (bufsz : Nat) : List PipeDeviceEvent → Device PipeFifo → Prop :=
  Transition.Run (stepPipeDevice bufsz) ok ⟨rtPipeFlags, 0, 0, .null⟩

def FifoLives (dev : Device PipeFifo) : Prop :=
  if dev.refCount = 0 then dev.user = .null else ∃ rb, dev.user = .ring rb

def PipeDeviceEvent.Proper : PipeDeviceEvent → Prop
  | .opened first fifo => first = true → ∃ rb, fifo = .ring rb ∧ rb.contents = []
  | .closed last fifo => last = true → fifo = .null

/-- There is memory for a buffer that is to be created, and no close takes the last reference. -/
def KeepsReference (dev : Device PipeFifo) : PipeDeviceOp → Prop
  | .open _ memory => dev.user = .null → ∃ cells, memory = .pool cells
  | .close => dev.refCount ≠ 1
  | .write _ | .read _ => True

instance (memory : PipeMemory) : Decidable (∃ cells, memory = .pool cells) :=
  match memory with
  | .pool cells => isTrue ⟨cells, rfl⟩
  | .noHeader | .noPool => isFalse nofun

instance (fifo : PipeFifo) : Decidable (fifo = .null) :=
  match fifo with
  | .null => isTrue rfl
  | .dangling | .ring _ => isFalse nofun

instance (dev : Device PipeFifo) (op : PipeDeviceOp) : Decidable (KeepsReference dev op) :=
  match op with
  | .open _ memory => inferInstanceAs (Decidable (dev.user = .null → ∃ cells, memory = .pool cells))
  | .close => inferInstanceAs (Decidable (dev.refCount ≠ 1))
  | .write _ | .read _ => isTrue trivial

/-! ## What a step does -/

variable {dev dev' : Device PipeFifo} {created : PipeFifo} {oflag : BitVec 16} {op : PipeDeviceOp} {bufsz : Nat}
  {trace events : List PipeDeviceEvent} {r : Int × Device PipeFifo}

theorem activated_standalone (flag : BitVec 16) :
    (flag ||| rtDeviceFlagActivated) &&& rtDeviceFlagStandalone = flag &&& rtDeviceFlagStandalone := by
  have hnone : rtDeviceFlagActivated &&& rtDeviceFlagStandalone = 0#16 := by decide
  rw [BitVec.and_comm, BitVec.and_or_distrib_left, BitVec.and_comm _ rtDeviceFlagActivated, hnone, BitVec.or_zero, BitVec.and_comm]

theorem pipe_rtDeviceOpen (hflag : dev.flag &&& rtDeviceFlagStandalone = 0)
    (hopen : dev.rtDeviceOpen (pipeDriver created) oflag = some r) :
    dev.refCount + 1 ≠ 0 ∧ r.2.refCount = dev.refCount + 1 ∧ r.2.flag &&& rtDeviceFlagStandalone = 0 ∧
      r.2.user = match dev.user with | .null => created | fifo => fifo := by
  have hactivate : ∃ flag, flag &&& rtDeviceFlagStandalone = 0 ∧ dev.activate (pipeDriver created) = (rtEok, { dev with flag := flag }) := by
    unfold Device.activate
    by_cases hzero : dev.flag &&& rtDeviceFlagActivated = 0
    · rw [if_pos hzero]
      exact ⟨dev.flag ||| rtDeviceFlagActivated, (activated_standalone dev.flag).trans hflag, rfl⟩
    · rw [if_neg hzero]
      exact ⟨dev.flag, hflag, rfl⟩
  obtain ⟨flag, hstandalone, hactivate⟩ := hactivate
  have hnotbusy : ¬(flag &&& rtDeviceFlagStandalone ≠ 0 ∧ dev.openFlag &&& rtDeviceOflagOpen ≠ 0) := fun hbusy => hbusy.1 hstandalone
  rw [Device.rtDeviceOpen, hactivate] at hopen
  dsimp only at hopen
  rw [if_neg (by decide), if_neg hnotbusy] at hopen
  have hok : Device.Succeeded (({ dev with flag := flag } : Device PipeFifo).callOpen (pipeDriver created) oflag).1 := Or.inl rfl
  rw [if_pos hok] at hopen
  have href := Device.callOpen_refCount ({ dev with flag := flag } : Device PipeFifo) (pipeDriver created) oflag
  by_cases hwraps : (({ dev with flag := flag } : Device PipeFifo).callOpen (pipeDriver created) oflag).2.refCount + 1 = 0
  · rw [if_pos hwraps] at hopen
    cases hopen
  · rw [if_neg hwraps] at hopen
    obtain rfl := Option.some.inj hopen
    rw [href] at hwraps ⊢
    refine ⟨hwraps, rfl, ?_, ?_⟩
    · show (Device.callOpen _ _ _).2.flag &&& _ = 0
      cases huser : dev.user with
      | null => simpa [Device.callOpen, pipeDriver, Device.after, huser] using hstandalone
      | dangling => simpa [Device.callOpen, pipeDriver, Device.after, huser] using hstandalone
      | ring rb => simpa [Device.callOpen, pipeDriver, Device.after, huser] using hstandalone
    · show (Device.callOpen _ _ _).2.user = _
      cases dev.user <;> simp [Device.callOpen, pipeDriver, Device.after]

theorem pipe_rtDeviceClose (dev : Device PipeFifo) (created : PipeFifo) :
    (dev.rtDeviceClose (pipeDriver created)).2.2.user = dev.user ∧ (dev.rtDeviceClose (pipeDriver created)).2.2.flag = dev.flag ∧
      (dev.rtDeviceClose (pipeDriver created)).2.2.refCount = if dev.refCount = 0 then 0 else dev.refCount - 1 := by
  rw [Device.rtDeviceClose]
  by_cases hzero : dev.refCount = 0
  · rw [if_pos hzero, if_pos hzero]
    exact ⟨rfl, rfl, hzero⟩
  rw [if_neg hzero, if_neg hzero]
  dsimp only
  by_cases hmore : dev.refCount - 1 ≠ 0
  · rw [if_pos hmore]
    exact ⟨rfl, rfl, rfl⟩
  · rw [if_neg hmore]
    have hkept : ¬dev.refCount - 1#8 = 1#8 := by
      rw [show dev.refCount - 1#8 = 0 from not_not.mp hmore]
      decide
    simp [pipeDriver, Device.after, hkept, Device.Succeeded]

theorem rtRingbufferCreate_contents {cells : Nat → UInt8} {size : Nat} (h : rtRingbufferCreate (.pool cells) size = some created) :
    ∃ rb, created = .ring rb ∧ rb.contents = [] := by
  rw [rtRingbufferCreate] at h
  by_cases hzero : size = 0
  · rw [if_pos hzero] at h
    cases h
  · rw [if_neg hzero] at h
    obtain ⟨rb, hinit, rfl⟩ := Option.map_eq_some_iff.mp h
    exact ⟨rb, rfl, (rtRingbufferInit_represents hinit).2.2⟩

theorem rtRingbufferCreate_ring {memory : PipeMemory} {size : Nat} (h : rtRingbufferCreate memory size = some created) :
    (∃ rb, created = .ring rb) ↔ ∃ cells, memory = .pool cells := by
  cases memory with
  | pool cells =>
    obtain ⟨rb, rfl, -⟩ := rtRingbufferCreate_contents h
    exact iff_of_true ⟨rb, rfl⟩ ⟨cells, rfl⟩
  | noHeader =>
    rw [rtRingbufferCreate] at h
    by_cases hzero : size = 0
    · rw [if_pos hzero] at h
      cases h
    · rw [if_neg hzero] at h
      obtain rfl := Option.some.inj h
      exact iff_of_false nofun nofun
  | noPool =>
    rw [rtRingbufferCreate] at h
    by_cases hzero : size = 0
    · rw [if_pos hzero] at h
      cases h
    · rw [if_neg hzero] at h
      obtain rfl := Option.some.inj h
      exact iff_of_false nofun nofun

/-! ## The sessions of a pipe -/

structure PipeSessions (trace : List PipeDeviceEvent) (dev : Device PipeFifo) : Prop where
  lives : FifoLives dev
  standalone : dev.flag &&& rtDeviceFlagStandalone = 0
  proper : ∀ e ∈ trace, e.Proper

theorem FifoLives.ring (h : FifoLives dev) (hne : dev.refCount ≠ 0) : ∃ rb, dev.user = .ring rb := by
  rwa [FifoLives, if_neg hne] at h

theorem fifoLives_of_ring {rb : RingBuffer} (hne : dev.refCount ≠ 0) (huser : dev.user = .ring rb) : FifoLives dev := by
  rw [FifoLives, if_neg hne]
  exact ⟨rb, huser⟩

theorem PipeSessions.open (h : PipeSessions trace dev) {memory : PipeMemory}
    (hs : stepPipeDevice bufsz dev (.open oflag memory) = some (dev', events)) :
    (FifoLives dev' ↔ KeepsReference dev (.open oflag memory)) ∧ dev'.flag &&& rtDeviceFlagStandalone = 0 ∧
      (KeepsReference dev (.open oflag memory) → ∀ e ∈ events, e.Proper) := by
  obtain ⟨created, hcreates, hmap⟩ := Option.bind_eq_some_iff.mp hs
  obtain ⟨r, hopen, heq⟩ := Option.map_eq_some_iff.mp hmap
  obtain ⟨rfl, rfl⟩ := Prod.mk.inj heq
  obtain ⟨hwraps, href, hstandalone, huser⟩ := pipe_rtDeviceOpen h.standalone hopen
  have hne : r.2.refCount ≠ 0 := by rwa [href]
  have hlives : FifoLives r.2 ↔ ∃ rb, r.2.user = .ring rb := by rw [FifoLives, if_neg hne]
  rw [hlives, KeepsReference]
  cases hbefore : dev.user with
  | null =>
    rw [hbefore] at huser
    rw [pipeCreates, hbefore] at hcreates
    have hring := rtRingbufferCreate_ring hcreates
    rw [huser]
    refine ⟨hring.trans ⟨fun hpool _ => hpool, fun hpool => hpool rfl⟩, hstandalone, fun hkeeps e he => ?_⟩
    obtain ⟨cells, rfl⟩ := hkeeps rfl
    rw [List.mem_singleton.mp he]
    exact fun _ => rtRingbufferCreate_contents hcreates
  | dangling =>
    have hlive := h.lives
    rw [FifoLives, hbefore] at hlive
    split at hlive
    · cases hlive
    · obtain ⟨rb, hrb⟩ := hlive
      cases hrb
  | ring rb =>
    rw [hbefore] at huser
    have hpositive : dev.refCount ≠ 0 := by
      intro hzero
      have hlive := h.lives
      rw [FifoLives, if_pos hzero, hbefore] at hlive
      cases hlive
    refine ⟨iff_of_true ⟨rb, huser⟩ nofun, hstandalone, fun _ e he => ?_⟩
    rw [List.mem_singleton.mp he]
    exact fun hfirst => absurd (of_decide_eq_true hfirst) hpositive

theorem PipeSessions.close (h : PipeSessions trace dev) (hs : stepPipeDevice bufsz dev .close = some (dev', events)) :
    (FifoLives dev' ↔ KeepsReference dev .close) ∧ dev'.flag &&& rtDeviceFlagStandalone = 0 ∧
      (KeepsReference dev .close → ∀ e ∈ events, e.Proper) := by
  obtain ⟨rfl, rfl⟩ := Prod.mk.inj (Option.some.inj hs)
  obtain ⟨huser, hflag, href⟩ := pipe_rtDeviceClose dev .null
  refine ⟨?_, hflag ▸ h.standalone, fun hkeeps e he => ?_⟩
  · by_cases hzero : dev.refCount = 0
    · rw [if_pos hzero] at href
      have hlive := h.lives
      rw [FifoLives, if_pos hzero] at hlive
      rw [FifoLives, if_pos href, huser, KeepsReference, hzero]
      exact iff_of_true hlive (by decide)
    · rw [if_neg hzero] at href
      obtain ⟨rb, hrb⟩ := h.lives.ring hzero
      rw [FifoLives, huser, hrb, href, KeepsReference]
      by_cases hlast : dev.refCount = 1
      · rw [hlast]
        exact iff_of_false nofun fun hne => hne rfl
      · have hmore : dev.refCount - 1 ≠ 0 := fun hone => hlast (by rw [BitVec.sub_eq_iff_eq_add] at hone; exact hone)
        rw [if_neg hmore]
        exact iff_of_true ⟨rb, rfl⟩ hlast
  · rw [List.mem_singleton.mp he]
    exact fun hlast => absurd (of_decide_eq_true hlast) hkeeps

theorem PipeSessions.io (h : PipeSessions trace dev) (move : RingBuffer → RingBuffer)
    (hs : (if dev.refCount = 0 then some (dev, []) else
      match dev.user with
      | .ring rb => some ({ dev with user := .ring (move rb) }, [])
      | _ => none) = some (dev', events)) :
    FifoLives dev' ∧ dev'.flag &&& rtDeviceFlagStandalone = 0 ∧ ∀ e ∈ events, e.Proper := by
  by_cases hzero : dev.refCount = 0
  · rw [if_pos hzero] at hs
    obtain ⟨rfl, rfl⟩ := Prod.mk.inj (Option.some.inj hs)
    exact ⟨h.lives, h.standalone, fun e he => absurd he List.not_mem_nil⟩
  · rw [if_neg hzero] at hs
    obtain ⟨rb, hrb⟩ := h.lives.ring hzero
    rw [hrb] at hs
    obtain ⟨rfl, rfl⟩ := Prod.mk.inj (Option.some.inj hs)
    exact ⟨fifoLives_of_ring hzero rfl, h.standalone, fun e he => absurd he List.not_mem_nil⟩

theorem PipeSessions.step (h : PipeSessions trace dev) (hs : stepPipeDevice bufsz dev op = some (dev', events)) :
    (FifoLives dev' ↔ KeepsReference dev op) ∧ dev'.flag &&& rtDeviceFlagStandalone = 0 ∧
      (KeepsReference dev op → ∀ e ∈ events, e.Proper) := by
  cases op with
  | «open» oflag memory => exact h.open hs
  | close => exact h.close hs
  | write ptr =>
    obtain ⟨hlives, hstandalone, hproper⟩ := h.io (fun rb => (rtRingbufferPut rb ptr).2) hs
    exact ⟨iff_of_true hlives trivial, hstandalone, fun _ => hproper⟩
  | read length =>
    obtain ⟨hlives, hstandalone, hproper⟩ := h.io (fun rb => (rtRingbufferGet rb length).2) hs
    exact ⟨iff_of_true hlives trivial, hstandalone, fun _ => hproper⟩

theorem pipeSessions_of_run (hrun : PipeDeviceRun KeepsReference bufsz trace dev) : PipeSessions trace dev := by
  have hstart : PipeSessions [] ⟨rtPipeFlags, 0, 0, .null⟩ := ⟨rfl, by decide, fun e he => absurd he List.not_mem_nil⟩
  refine hrun.invariant (I := PipeSessions) hstart fun trace dev op dev' events h hkeeps hs => ?_
  obtain ⟨hlives, hstandalone, hproper⟩ := h.step hs
  refine ⟨hlives.mpr hkeeps, hstandalone, fun e he => ?_⟩
  rcases List.mem_append.mp he with he | he
  · exact h.proper e he
  · exact hproper hkeeps e he

/-- While no close takes the last reference and there is memory for the buffer, it exists exactly while there is a reference, and every session begins with an empty one; and any other step ends that. -/
theorem pipeFifo_lives (hrun : PipeDeviceRun KeepsReference bufsz trace dev) :
    FifoLives dev ∧ (∀ e ∈ trace, e.Proper) ∧
      ∀ op dev' events, stepPipeDevice bufsz dev op = some (dev', events) → (FifoLives dev' ↔ KeepsReference dev op) := by
  have h := pipeSessions_of_run hrun
  exact ⟨h.lives, h.proper, fun op dev' events hs => (h.step hs).1⟩

theorem exists_pipeDeviceRun (ok : Device PipeFifo → PipeDeviceOp → Prop) [∀ dev op, Decidable (ok dev op)] (bufsz : Nat) (ops : List PipeDeviceOp)
    (found : List PipeDeviceEvent → Device PipeFifo → Bool)
    (h : ((Transition.exec (stepPipeDevice bufsz) ok ⟨rtPipeFlags, 0, 0, .null⟩ ops).any fun r => found r.1 r.2) = true) :
    ∃ trace dev, PipeDeviceRun ok bufsz trace dev ∧ found trace dev = true :=
  Transition.exists_run_of_exec ops found h

/-- A pipe is opened twice and closed once. -/
theorem pipeFifo_lives_twice : ∃ trace dev, PipeDeviceRun KeepsReference 8 trace dev ∧ dev.refCount = 1 ∧ FifoLives dev := by
  obtain ⟨trace, dev, hrun, hfound⟩ := exists_pipeDeviceRun KeepsReference 8
    [.open 0 (.pool fun _ => 0), .open 0 .noHeader, .close] (fun _ dev => decide (dev.refCount = 1)) (by decide +kernel)
  exact ⟨trace, dev, hrun, of_decide_eq_true hfound, (pipeFifo_lives hrun).1⟩

def PipeDeviceEvent.contents : PipeDeviceEvent → Option (List UInt8)
  | .opened true (.ring rb) => some rb.contents
  | _ => none

/-- A byte is written, the pipe is closed and opened again: the buffer has outlived the session, and its byte is in the next. -/
theorem pipeFifo_lives_fails :
    (∃ trace dev, PipeDeviceRun (fun _ _ => True) 8 trace dev ∧ dev.refCount = 0 ∧ ¬FifoLives dev) ∧
    ∃ trace dev, PipeDeviceRun (fun _ _ => True) 8 trace dev ∧ ∃ e ∈ trace, e.contents = some [1] ∧ ¬e.Proper := by
  constructor
  · obtain ⟨trace, dev, hrun, hfound⟩ := exists_pipeDeviceRun (fun _ _ => True) 8 [.open 0 (.pool fun _ => 0), .close]
      (fun _ dev => decide (dev.refCount = 0 ∧ dev.user ≠ .null)) (by decide +kernel)
    obtain ⟨hzero, hleft⟩ := of_decide_eq_true hfound
    refine ⟨trace, dev, hrun, hzero, fun hlives => hleft ?_⟩
    rwa [FifoLives, if_pos hzero] at hlives
  · obtain ⟨trace, dev, hrun, hfound⟩ := exists_pipeDeviceRun (fun _ _ => True) 8
      [.open 0 (.pool fun _ => 0), .write [1], .close, .open 0 .noHeader]
      (fun trace _ => decide (∃ e ∈ trace, e.contents = some [1])) (by decide +kernel)
    obtain ⟨e, hmem, hcontents⟩ := of_decide_eq_true hfound
    refine ⟨trace, dev, hrun, e, hmem, hcontents, fun hproper => ?_⟩
    cases e with
    | closed last fifo => cases hcontents
    | opened first fifo =>
      cases first <;> cases fifo <;> try cases hcontents
      obtain ⟨rb, hrb, hempty⟩ := hproper rfl
      cases hrb
      rw [PipeDeviceEvent.contents, hempty] at hcontents
      cases hcontents

end RtThread
