import RtThread.Ipc.WaitList
import RtThread.Lib.Transition

/-!
# Events

The event part of `ipc.c`: `rt_event_send` walks all the threads that wait, and those whose condition holds are woken in the order of the list, taking with `RT_EVENT_FLAG_CLEAR` the bits of the threads behind them. A call of `rt_event_recv` that blocks is cut at its `rt_schedule`.
-/

namespace RtThread

open Function

/-- `RT_EVENT_FLAG_AND`, `RT_EVENT_FLAG_OR` and `RT_EVENT_FLAG_CLEAR` -/
def eventFlagAnd : BitVec 8 := 0x01
def eventFlagOr : BitVec 8 := 0x02
def eventFlagClear : BitVec 8 := 0x04

structure EventThread extends Waiter where
  eventSet : BitVec 32
  eventInfo : BitVec 8
  deriving DecidableEq

structure EventState where
  set : BitVec 32
  flag : IpcFlag
  suspendThread : List ThreadId
  thread : ThreadId → EventThread
  /-- The `set` and `option` of the `rt_event_recv` that a thread has blocked in. -/
  call : ThreadId → Option (BitVec 32 × BitVec 8)

namespace EventState

def setThread (s : EventState) (t : ThreadId) (f : EventThread → EventThread) : EventState :=
  { s with thread := update s.thread t (f (s.thread t)) }

def setCall (s : EventState) (t : ThreadId) (c : Option (BitVec 32 × BitVec 8)) : EventState :=
  { s with call := update s.call t c }

def resume (s : EventState) (t : ThreadId) : EventState :=
  { s with suspendThread := s.suspendThread.erase t }.setThread t fun thread => { thread with timer := false }

end EventState

/-- The test of `rt_event_send` on a waiting thread: the event set it has received, if it has. -/
def eventReceived (eventInfo : BitVec 8) (eventSet set : BitVec 32) : Option (BitVec 32) :=
  if eventInfo &&& eventFlagAnd ≠ 0 then
    if eventSet &&& set = eventSet then some eventSet else none
  else if eventInfo &&& eventFlagOr ≠ 0 then
    if eventSet &&& set ≠ 0 then some (eventSet &&& set) else none
  else none

/-- What `rt_event_send` does with one thread of the list. -/
def eventVisit (s : EventState) (t : ThreadId) : EventState :=
  match eventReceived (s.thread t).eventInfo (s.thread t).eventSet s.set with
  | none => s
  | some received =>
    let s := s.setThread t fun thread => { thread with eventSet := received }
    let s := if (s.thread t).eventInfo &&& eventFlagClear ≠ 0 then { s with set := s.set &&& ~~~received } else s
    s.resume t

def rtEventSend (s : EventState) (set : BitVec 32) : IpcErr × EventState :=
  if set = 0 then (.error, s)
  else (.eok, s.suspendThread.foldl eventVisit { s with set := s.set ||| set })

/-- The test of `rt_event_recv`; "either RT_EVENT_FLAG_AND or RT_EVENT_FLAG_OR should be set". -/
def eventAvailable (option : BitVec 8) (set held : BitVec 32) : Option Bool :=
  if option &&& eventFlagAnd ≠ 0 then some (held &&& set = set)
  else if option &&& eventFlagOr ≠ 0 then some (held &&& set ≠ 0)
  else none

/-- `rt_event_recv` by thread `t` up to its end or its `rt_schedule`, with what it returns and reports. -/
def rtEventRecv (s : EventState) (t : ThreadId) (set : BitVec 32) (option : BitVec 8) (timeout : Int) :
    Option (Option (IpcErr × Option (BitVec 32)) × EventState) :=
  if set = 0 then some (some (.error, none), s)
  else
    let s := s.setThread t fun thread => { thread with error := .eok }
    match eventAvailable option set s.set with
    | none => none
    | some true =>
      some (some (.eok, some (s.set &&& set)),
        if option &&& eventFlagClear ≠ 0 then { s with set := s.set &&& ~~~set } else s)
    | some false =>
      if timeout = 0 then
        some (some (.etimeout, none), s.setThread t fun thread => { thread with error := .etimeout })
      else
        (timeoutTimer timeout).map fun timer =>
          let s := s.setThread t fun thread => { thread with eventSet := set, eventInfo := option, timer }
          let waiters := ipcListSuspend s.flag (fun u => (s.thread u).currentPriority) t s.suspendThread
          (none, { s with suspendThread := waiters }.setCall t (some (set, option)))

/-- The rest of a blocked `rt_event_recv`. -/
def rtEventRecvReturn (s : EventState) (t : ThreadId) : (IpcErr × Option (BitVec 32)) × EventState :=
  let s := s.setCall t none
  if (s.thread t).error ≠ .eok then (((s.thread t).error, none), s)
  else (((s.thread t).error, some (s.thread t).eventSet), s)

/-- `rt_event_control` with `RT_IPC_CMD_RESET` -/
def rtEventReset (s : EventState) : EventState :=
  let resumed := s.suspendThread.foldl (fun s t => (s.setThread t fun thread => { thread with error := .error }).resume t) s
  { resumed with set := 0 }

/-- `rt_thread_timeout` of a thread that waits. -/
def eventTimeout (s : EventState) (t : ThreadId) : EventState :=
  { s with suspendThread := s.suspendThread.erase t }.setThread t fun thread =>
    { thread with timer := false, error := .etimeout }

/-! ## The event as a state machine -/

inductive EventOp
  | send (set : BitVec 32)
  | recv (t : ThreadId) (set : BitVec 32) (option : BitVec 8) (timeout : Int)
  /-- A thread that is not suspended any more goes on in its `rt_event_recv`. -/
  | finish (t : ThreadId)
  | timeout (t : ThreadId)
  | reset
  | changePriority (t : ThreadId) (priority : Nat)
  deriving DecidableEq

inductive EventEvent
  | send (set : BitVec 32) (result : IpcErr)
  /-- `rt_event_recv` returns, having reported `recved`. -/
  | recv (t : ThreadId) (set : BitVec 32) (option : BitVec 8) (result : IpcErr) (recved : Option (BitVec 32))
  deriving DecidableEq

def EventState.Waiting (s : EventState) (t : ThreadId) : Prop := t ∈ s.suspendThread

instance EventState.decidableWaiting (s : EventState) (t : ThreadId) : Decidable (s.Waiting t) := inferInstanceAs (Decidable (_ ∈ _))

def stepEvent (s : EventState) : EventOp → Option (EventState × List EventEvent)
  | .send set => some ((rtEventSend s set).2, [.send set (rtEventSend s set).1])
  | .recv t set option timeout =>
    if s.call t = none then
      (rtEventRecv s t set option timeout).map fun r =>
        (r.2, match r.1 with
          | none => []
          | some result => [.recv t set option result.1 result.2])
    else none
  | .finish t =>
    match s.call t with
    | none => none
    | some (set, option) =>
      if s.Waiting t then none
      else
        let r := rtEventRecvReturn s t
        some (r.2, [.recv t set option r.1.1 r.1.2])
  | .timeout t => if s.Waiting t ∧ (s.thread t).timer then some (eventTimeout s t, []) else none
  | .reset => some (rtEventReset s, [])
  | .changePriority t priority => some (s.setThread t fun thread => { thread with currentPriority := priority }, [])

/-- `rt_event_init`, and threads of given priorities. -/
def EventState.init (flag : IpcFlag) (priority : ThreadId → Nat) : EventState where
  set := 0
  flag := flag
  suspendThread := []
  thread t := ⟨⟨.eok, priority t, false⟩, 0, 0⟩
  call _ := none

abbrev EventRun (flag : IpcFlag) (priority : ThreadId → Nat) : List EventEvent → EventState → Prop :=
  Transition.Run stepEvent (fun _ _ => True) (.init flag priority)

variable {s s' : EventState} {t u : ThreadId} {set held received : BitVec 32} {option : BitVec 8} {flag : IpcFlag}
  {priority : ThreadId → Nat} {trace events : List EventEvent} {op : EventOp}

/-! ## What a receiver waits for -/

def Satisfied (option : BitVec 8) (set held : BitVec 32) : Prop :=
  if option &&& eventFlagAnd ≠ 0 then set &&& held = set else set &&& held ≠ 0

def WaitsFor (option : BitVec 8) : Prop := option &&& eventFlagAnd ≠ 0 ∨ option &&& eventFlagOr ≠ 0

theorem Satisfied.of_clear {cleared : BitVec 32} (h : Satisfied option set (held &&& ~~~cleared)) :
    Satisfied option set held := by
  unfold Satisfied at h ⊢
  split_ifs at h ⊢
  · calc set &&& held = (set &&& (held &&& ~~~cleared)) &&& held := by rw [h]
      _ = set &&& (held &&& ~~~cleared) := by rw [BitVec.and_assoc, BitVec.and_comm _ held, ← BitVec.and_assoc held, BitVec.and_self]
      _ = set := h
  · rintro hnone
    rw [← BitVec.and_assoc, hnone] at h
    exact h BitVec.zero_and

theorem eventReceived_eq_none (hoption : WaitsFor option) (h : eventReceived option set held = none) :
    ¬ Satisfied option set held := by
  unfold eventReceived at h
  unfold Satisfied
  split_ifs at h ⊢ with hand hsub hor hsome
  · exact hsub
  · exact hsome
  · exact fun _ => hor (hoption.resolve_left hand)

theorem eventReceived_eq_some (h : eventReceived option set held = some received) : Satisfied option set received := by
  unfold eventReceived at h
  unfold Satisfied
  split_ifs at h ⊢ with hand hsub hor hsome
  · cases h
    exact BitVec.and_self
  · cases h
    rwa [← BitVec.and_assoc, BitVec.and_self]

/-! ## The invariant -/

/-- A thread that waits does so with what its call has asked for; a thread that has been woken without an error has received what it waited for. -/
structure EventThreads (s : EventState) : Prop where
  nodup : s.suspendThread.Nodup
  waiting : ∀ t, s.Waiting t → s.call t = some ((s.thread t).eventSet, (s.thread t).eventInfo) ∧
    WaitsFor (s.thread t).eventInfo ∧ (s.thread t).error = .eok
  woken : ∀ t set option, s.call t = some (set, option) → ¬ s.Waiting t → (s.thread t).error = .eok →
    Satisfied option set (s.thread t).eventSet

/-- The condition of thread `t` does not hold. -/
def Unsatisfied (s : EventState) (t : ThreadId) : Prop :=
  ¬ Satisfied (s.thread t).eventInfo (s.thread t).eventSet s.set

structure EventInv (s : EventState) : Prop where
  threads : EventThreads s
  unsatisfied : ∀ t, s.Waiting t → Unsatisfied s t

@[simp] theorem EventState.resume_suspendThread : (s.resume t).suspendThread = s.suspendThread.erase t := rfl

@[simp] theorem EventState.resume_set : (s.resume t).set = s.set := rfl

@[simp] theorem EventState.resume_call : (s.resume t).call = s.call := rfl

@[simp] theorem EventState.setThread_self (f : EventThread → EventThread) : (s.setThread t f).thread t = f (s.thread t) :=
  update_self ..

theorem EventState.setThread_other (f : EventThread → EventThread) (hu : u ≠ t) : (s.setThread t f).thread u = s.thread u :=
  update_of_ne hu ..

/-- A waiting thread `t` leaves the list; the other threads are as they were. -/
structure Leaves (s s' : EventState) (t : ThreadId) : Prop where
  waiting : s.Waiting t
  suspendThread : s'.suspendThread = s.suspendThread.erase t
  call : s'.call = s.call
  thread : ∀ u, u ≠ t → s'.thread u = s.thread u

theorem EventThreads.leave (h : EventThreads s) (hleaves : Leaves s s' t)
    (hwoken : (s'.thread t).error = .eok → Satisfied (s.thread t).eventInfo (s.thread t).eventSet (s'.thread t).eventSet) :
    EventThreads s' := by
  have hmem : ∀ u, s'.Waiting u ↔ u ≠ t ∧ s.Waiting u := fun u => by
    rw [EventState.Waiting, hleaves.suspendThread, h.nodup.mem_erase_iff, EventState.Waiting]
  refine ⟨hleaves.suspendThread ▸ h.nodup.erase t, fun u hu => ?_, fun u set option hcall hu herror => ?_⟩
  · obtain ⟨hne, hu⟩ := (hmem u).1 hu
    rw [hleaves.call, hleaves.thread u hne]
    exact h.waiting u hu
  · rw [hleaves.call] at hcall
    by_cases hut : u = t
    · subst hut
      rw [(h.waiting u hleaves.waiting).1] at hcall
      cases hcall
      exact hwoken herror
    · rw [hleaves.thread u hut] at herror ⊢
      exact h.woken u set option hcall (fun hwait => hu ((hmem u).2 ⟨hut, hwait⟩)) herror

theorem Leaves.unsatisfied (hleaves : Leaves s s' t) (hset : ∃ cleared, s'.set = s.set &&& ~~~cleared ∨ s'.set = s.set)
    (hne : u ≠ t) (hu : Unsatisfied s u) : Unsatisfied s' u := by
  rw [Unsatisfied, hleaves.thread u hne]
  obtain ⟨cleared, hset | hset⟩ := hset
  · rw [hset]
    exact fun hsat => hu hsat.of_clear
  · rw [hset]
    exact hu

/-! ## The walk of `rt_event_send` -/

theorem eventVisit_cases (h : EventThreads s) (ht : s.Waiting t) :
    eventVisit s t = s ∧ Unsatisfied s t ∨
      EventThreads (eventVisit s t) ∧ Leaves s (eventVisit s t) t ∧
        ∃ cleared, (eventVisit s t).set = s.set &&& ~~~cleared ∨ (eventVisit s t).set = s.set := by
  unfold eventVisit
  cases hreceived : eventReceived (s.thread t).eventInfo (s.thread t).eventSet s.set with
  | none => exact .inl ⟨rfl, eventReceived_eq_none (h.waiting t ht).2.1 hreceived⟩
  | some received =>
    refine .inr ?_
    dsimp only
    rw [EventState.setThread_self]
    have hsat := eventReceived_eq_some hreceived
    split_ifs with hclear
    · have hleaves : Leaves s (EventState.resume { s.setThread t fun thread => { thread with eventSet := received } with
          set := s.set &&& ~~~received } t) t :=
        ⟨ht, rfl, rfl, fun u hu => by simp [EventState.resume, EventState.setThread, update_of_ne hu]⟩
      refine ⟨h.leave hleaves fun _ => ?_, hleaves, received, .inl rfl⟩
      simpa [EventState.resume, EventState.setThread] using hsat
    · have hleaves : Leaves s ((s.setThread t fun thread => { thread with eventSet := received }).resume t) t :=
        ⟨ht, rfl, rfl, fun u hu => by simp [EventState.resume, EventState.setThread, update_of_ne hu]⟩
      refine ⟨h.leave hleaves fun _ => ?_, hleaves, received, .inr rfl⟩
      simpa [EventState.resume, EventState.setThread] using hsat

theorem eventWalk (h : EventThreads s) {rest : List ThreadId} (hnodup : rest.Nodup) (hrest : ∀ t ∈ rest, s.Waiting t)
    (hvisited : ∀ t, s.Waiting t → t ∉ rest → Unsatisfied s t) : EventInv (rest.foldl eventVisit s) := by
  induction rest generalizing s with
  | nil => exact ⟨h, fun t ht => hvisited t ht List.not_mem_nil⟩
  | cons t rest ih =>
    obtain ⟨ht, hnodup⟩ := List.nodup_cons.1 hnodup
    rw [List.foldl_cons]
    rcases eventVisit_cases h (hrest t (List.mem_cons_self ..)) with ⟨hsame, hunsat⟩ | ⟨hthreads, hleaves, hset⟩
    · rw [hsame]
      refine ih h hnodup (fun u hu => hrest u (List.mem_cons_of_mem t hu)) fun u hu hnot => ?_
      by_cases hut : u = t
      · exact hut ▸ hunsat
      · exact hvisited u hu (by simp [hut, hnot])
    · have hmem : ∀ u, (eventVisit s t).Waiting u ↔ u ≠ t ∧ s.Waiting u := fun u => by
        rw [EventState.Waiting, hleaves.suspendThread, h.nodup.mem_erase_iff, EventState.Waiting]
      refine ih hthreads hnodup (fun u hu => (hmem u).2 ⟨fun heq => ht (heq ▸ hu), hrest u (List.mem_cons_of_mem t hu)⟩)
        fun u hu hnot => ?_
      obtain ⟨hne, hu⟩ := (hmem u).1 hu
      exact hleaves.unsatisfied hset hne (hvisited u hu (by simp [hne, hnot]))

theorem EventInv.send (h : EventInv s) (set : BitVec 32) : EventInv (rtEventSend s set).2 := by
  unfold rtEventSend
  split_ifs
  · exact h
  · have hthreads : EventThreads { s with set := s.set ||| set } :=
      ⟨h.threads.nodup, h.threads.waiting, h.threads.woken⟩
    exact eventWalk hthreads h.threads.nodup (fun _ ht => ht) fun t ht hnot => absurd ht hnot

/-! ## The other calls -/

theorem EventThreads.resumeAll (h : EventThreads s) {rest : List ThreadId} (hnodup : rest.Nodup)
    (hrest : ∀ t ∈ rest, s.Waiting t) (honly : ∀ t, s.Waiting t → t ∈ rest) :
    EventThreads (rest.foldl (fun s t => (s.setThread t fun thread => { thread with error := .error }).resume t) s) ∧
      (rest.foldl (fun s t => (s.setThread t fun thread => { thread with error := .error }).resume t) s).suspendThread = [] := by
  induction rest generalizing s with
  | nil => exact ⟨h, List.eq_nil_iff_forall_not_mem.2 fun t ht => List.not_mem_nil (honly t ht)⟩
  | cons t rest ih =>
    obtain ⟨ht, hnodup⟩ := List.nodup_cons.1 hnodup
    rw [List.foldl_cons]
    have hleaves : Leaves s ((s.setThread t fun thread => { thread with error := .error }).resume t) t :=
      ⟨hrest t (List.mem_cons_self ..), rfl, rfl, fun u hu => by
        simp [EventState.resume, EventState.setThread, update_of_ne hu]⟩
    have hmem : ∀ u, EventState.Waiting ((s.setThread t fun thread => { thread with error := .error }).resume t) u ↔
        u ≠ t ∧ s.Waiting u := fun u => by
      rw [EventState.Waiting, hleaves.suspendThread, h.nodup.mem_erase_iff, EventState.Waiting]
    refine ih (h.leave hleaves fun herror => ?_) hnodup (fun u hu => ?_) fun u hu => ?_
    · simp [EventState.resume, EventState.setThread] at herror
    · exact (hmem u).2 ⟨fun heq => ht (heq ▸ hu), hrest u (List.mem_cons_of_mem t hu)⟩
    · obtain ⟨hne, hu⟩ := (hmem u).1 hu
      exact (List.mem_cons.1 (honly u hu)).resolve_left hne

theorem EventInv.reset (h : EventInv s) : EventInv (rtEventReset s) := by
  obtain ⟨hthreads, hnone⟩ := h.threads.resumeAll h.threads.nodup (fun _ ht => ht) fun _ ht => ht
  refine ⟨⟨hthreads.nodup, hthreads.waiting, hthreads.woken⟩, fun t ht => ?_⟩
  rw [EventState.Waiting, rtEventReset, hnone] at ht
  cases ht

theorem EventInv.timeout (h : EventInv s) (ht : s.Waiting t) : EventInv (eventTimeout s t) := by
  have hleaves : Leaves s (eventTimeout s t) t :=
    ⟨ht, rfl, rfl, fun u hu => EventState.setThread_other _ hu⟩
  refine ⟨h.threads.leave hleaves fun herror => ?_, fun u hu => ?_⟩
  · simp [eventTimeout, EventState.setThread] at herror
  · obtain ⟨hne, hu⟩ := h.threads.nodup.mem_erase_iff.1 hu
    exact hleaves.unsatisfied ⟨0, .inr rfl⟩ hne (h.unsatisfied u hu)

theorem EventInv.setFree (h : EventInv s) (hcall : s.call t = none) {f : EventThread → EventThread} :
    EventInv (s.setThread t f) := by
  have hne : ∀ u, s.call u ≠ none → (s.setThread t f).thread u = s.thread u := fun u hu =>
    EventState.setThread_other f fun heq => hu (heq ▸ hcall)
  have hwait : ∀ u, s.Waiting u → (s.setThread t f).thread u = s.thread u := fun u hu =>
    hne u (by rw [(h.threads.waiting u hu).1]; exact Option.some_ne_none _)
  refine ⟨⟨h.threads.nodup, fun u hu => ?_, fun u set option hc hu => ?_⟩, fun u hu => ?_⟩
  · rw [hwait u hu]
    exact h.threads.waiting u hu
  · rw [hne u (by rw [show s.call u = _ from hc]; exact Option.some_ne_none _)]
    exact h.threads.woken u set option hc hu
  · rw [Unsatisfied, hwait u hu]
    exact h.unsatisfied u hu

theorem EventInv.clear (h : EventInv s) (cleared : BitVec 32) : EventInv { s with set := s.set &&& ~~~cleared } :=
  ⟨⟨h.threads.nodup, h.threads.waiting, h.threads.woken⟩, fun t ht hsat => h.unsatisfied t ht hsat.of_clear⟩

theorem EventInv.suspend (h : EventInv s) (hcall : s.call t = none) (herror : (s.thread t).error = .eok)
    (hoption : WaitsFor option) (hunsat : ¬ Satisfied option set s.set) (timer : Bool) {waiters : List ThreadId}
    (hwaiters : waiters.Perm (t :: s.suspendThread)) :
    EventInv ({ s.setThread t fun thread => { thread with eventSet := set, eventInfo := option, timer } with
      suspendThread := waiters }.setCall t (some (set, option))) := by
  have hnot : t ∉ s.suspendThread := fun ht => by
    rw [(h.threads.waiting t ht).1] at hcall
    cases hcall
  have hmem : ∀ u, u ∈ waiters ↔ u = t ∨ s.Waiting u := fun u => by
    rw [hwaiters.mem_iff, List.mem_cons, EventState.Waiting]
  refine ⟨⟨hwaiters.nodup_iff.2 (List.nodup_cons.2 ⟨hnot, h.threads.nodup⟩), fun u hu => ?_, fun u set' option' hc hu => ?_⟩,
    fun u hu => ?_⟩
  · by_cases hut : u = t
    · subst hut
      simp [EventState.setCall, EventState.setThread, hoption, herror]
    · have hu := ((hmem u).1 hu).resolve_left hut
      simpa [EventState.setCall, EventState.setThread, update_of_ne hut] using h.threads.waiting u hu
  · have hut : u ≠ t := fun heq => hu ((hmem u).2 (.inl heq))
    have hfree : ¬ s.Waiting u := fun hwait => hu ((hmem u).2 (.inr hwait))
    simp only [EventState.setCall, EventState.setThread, update_of_ne hut] at hc ⊢
    exact h.threads.woken u set' option' hc hfree
  · by_cases hut : u = t
    · subst hut
      simpa [Unsatisfied, EventState.setCall, EventState.setThread] using hunsat
    · have hu := ((hmem u).1 hu).resolve_left hut
      simpa [Unsatisfied, EventState.setCall, EventState.setThread, update_of_ne hut] using h.unsatisfied u hu

/-- What `rt_event_recv` reports with `RT_EOK` satisfies the condition of the call. -/
def Reports (option : BitVec 8) (set : BitVec 32) (result : IpcErr × Option (BitVec 32)) : Prop :=
  result.1 = .eok → ∃ recved, result.2 = some recved ∧ Satisfied option set recved

theorem eventAvailable_eq_true (h : eventAvailable option set held = some true) : Satisfied option set (held &&& set) := by
  unfold eventAvailable at h
  unfold Satisfied
  split_ifs at h ⊢ with hand hor
  · have hsub : held &&& set = set := by simpa using h
    rw [hsub, BitVec.and_self]
  · have hsome : held &&& set ≠ 0 := by simpa using h
    rwa [BitVec.and_comm held, ← BitVec.and_assoc, BitVec.and_self, BitVec.and_comm set]

theorem eventAvailable_eq_false (h : eventAvailable option set held = some false) :
    WaitsFor option ∧ ¬ Satisfied option set held := by
  unfold eventAvailable at h
  unfold Satisfied WaitsFor
  rw [BitVec.and_comm held] at h
  split_ifs at h ⊢ with hand hor
  · exact ⟨.inl hand, by simpa using h⟩
  · exact ⟨.inr hor, by simpa using h⟩

theorem EventInv.recv (h : EventInv s) (hcall : s.call t = none) {timeout : Int}
    {r : Option (IpcErr × Option (BitVec 32)) × EventState} (hrecv : rtEventRecv s t set option timeout = some r) :
    EventInv r.2 ∧ ∀ result, r.1 = some result → Reports option set result := by
  unfold rtEventRecv at hrecv
  have hreset : EventInv (s.setThread t fun thread => { thread with error := .eok }) := h.setFree hcall
  by_cases hzero : set = 0
  · rw [if_pos hzero] at hrecv
    cases hrecv
    refine ⟨h, fun result hresult => ?_⟩
    cases hresult
    exact fun hok => by cases hok
  · rw [if_neg hzero] at hrecv
    dsimp only at hrecv
    split at hrecv
    · cases hrecv
    · rename_i havailable
      cases hrecv
      refine ⟨?_, fun result hresult => ?_⟩
      · dsimp only
        split_ifs
        · exact hreset.clear set
        · exact hreset
      · cases hresult
        exact fun _ => ⟨_, rfl, eventAvailable_eq_true havailable⟩
    · rename_i havailable
      split_ifs at hrecv with htimeout
      · cases hrecv
        have htimedOut := hreset.setFree (t := t) hcall (f := fun thread => { thread with error := .etimeout })
        refine ⟨htimedOut, fun result hresult => ?_⟩
        cases hresult
        exact fun hok => by cases hok
      · obtain ⟨timer, -, rfl⟩ := Option.map_eq_some_iff.1 hrecv
        obtain ⟨hoption, hunsat⟩ := eventAvailable_eq_false havailable
        refine ⟨hreset.suspend hcall (by simp) hoption hunsat timer (ipcListSuspend_perm ..), fun result hresult => ?_⟩
        cases hresult

theorem EventInv.finish (h : EventInv s) (hcall : s.call t = some (set, option)) (ht : ¬ s.Waiting t) :
    EventInv (rtEventRecvReturn s t).2 ∧ Reports option set (rtEventRecvReturn s t).1 := by
  have hstate : (rtEventRecvReturn s t).2 = s.setCall t none := by
    unfold rtEventRecvReturn
    dsimp only
    split_ifs <;> rfl
  refine ⟨hstate ▸ ⟨⟨h.threads.nodup, fun u hu => ?_, fun u set' option' hc hu => ?_⟩, h.unsatisfied⟩, ?_⟩
  · have hut : u ≠ t := fun heq => ht (heq ▸ hu)
    simpa [EventState.setCall, update_of_ne hut] using h.threads.waiting u hu
  · by_cases hut : u = t
    · subst hut
      simp [EventState.setCall] at hc
    · simp only [EventState.setCall, update_of_ne hut] at hc
      exact h.threads.woken u set' option' hc hu
  · unfold rtEventRecvReturn
    dsimp only
    split_ifs with herror
    · exact fun hok => absurd hok herror
    · exact fun hok => ⟨_, rfl, h.threads.woken t set option hcall ht hok⟩

theorem EventInv.changePriority (h : EventInv s) (p : Nat) :
    EventInv (s.setThread t fun thread => { thread with currentPriority := p }) := by
  have hthread : ∀ u, ((s.setThread t fun thread => { thread with currentPriority := p }).thread u).eventSet =
        (s.thread u).eventSet ∧
      ((s.setThread t fun thread => { thread with currentPriority := p }).thread u).eventInfo = (s.thread u).eventInfo ∧
      ((s.setThread t fun thread => { thread with currentPriority := p }).thread u).error = (s.thread u).error := by
    intro u
    by_cases hut : u = t
    · subst hut
      simp
    · simp [EventState.setThread_other _ hut]
  refine ⟨⟨h.threads.nodup, fun u hu => ?_, fun u set option hc hu herror => ?_⟩, fun u hu => ?_⟩
  · rw [(hthread u).1, (hthread u).2.1, (hthread u).2.2]
    exact h.threads.waiting u hu
  · rw [(hthread u).2.2] at herror
    rw [(hthread u).1]
    exact h.threads.woken u set option hc hu herror
  · rw [Unsatisfied, (hthread u).1, (hthread u).2.1]
    exact h.unsatisfied u hu

def ReportsIn (trace : List EventEvent) : Prop :=
  ∀ t set option result recved, .recv t set option result recved ∈ trace → Reports option set (result, recved)

theorem EventInv.step (h : EventInv s) (hs : stepEvent s op = some (s', events)) : EventInv s' ∧ ReportsIn events := by
  cases op with
  | send set =>
    cases hs
    exact ⟨h.send set, fun t set option result recved hmem => by simp at hmem⟩
  | recv t set option timeout =>
    simp only [stepEvent] at hs
    split_ifs at hs with hcall
    obtain ⟨r, hrecv, heq⟩ := Option.map_eq_some_iff.1 hs
    obtain ⟨hinv, hreports⟩ := h.recv hcall hrecv
    cases heq
    refine ⟨hinv, fun u set' option' result recved hmem => ?_⟩
    cases hr : r.1 with
    | none => simp [hr] at hmem
    | some res =>
      simp only [hr, List.mem_singleton] at hmem
      cases hmem
      exact hreports res hr
  | finish t =>
    simp only [stepEvent] at hs
    cases hcall : s.call t with
    | none => simp [hcall] at hs
    | some c =>
      simp only [hcall] at hs
      split_ifs at hs with ht
      obtain ⟨hinv, hreports⟩ := h.finish hcall ht
      cases hs
      refine ⟨hinv, fun u set' option' result recved hmem => ?_⟩
      cases List.mem_singleton.1 hmem
      exact hreports
  | timeout t =>
    simp only [stepEvent] at hs
    split_ifs at hs with ht
    cases hs
    exact ⟨h.timeout ht.1, fun _ _ _ _ _ hmem => by cases hmem⟩
  | reset =>
    cases hs
    exact ⟨h.reset, fun _ _ _ _ _ hmem => by cases hmem⟩
  | changePriority t p =>
    cases hs
    exact ⟨h.changePriority p, fun _ _ _ _ _ hmem => by cases hmem⟩

theorem EventInv.init (flag : IpcFlag) (priority : ThreadId → Nat) : EventInv (.init flag priority) :=
  ⟨⟨List.nodup_nil, fun _ ht => (List.not_mem_nil ht).elim, fun _ _ _ hc => (Option.some_ne_none _ hc.symm).elim⟩,
    fun _ ht => (List.not_mem_nil ht).elim⟩

structure EventDelivered (trace : List EventEvent) (s : EventState) : Prop where
  waiting : ∀ t ∈ s.suspendThread, ∃ set option, s.call t = some (set, option) ∧ WaitsFor option ∧
    ¬ Satisfied option set s.set
  /-- A receive that returns `RT_EOK` has reported a set that satisfies what it waited for. -/
  reported : ∀ t set option recved, .recv t set option .eok recved ∈ trace →
    ∃ received, recved = some received ∧ Satisfied option set received

/-- Whenever an operation has ended, in every run. -/
theorem eventDelivered_of_run (hrun : EventRun flag priority trace s) : EventDelivered trace s := by
  have hinv : EventInv s ∧ ReportsIn trace := by
    refine hrun.invariant (I := fun trace s => EventInv s ∧ ReportsIn trace)
      ⟨.init flag priority, fun _ _ _ _ _ hmem => by cases hmem⟩ ?_
    intro trace s op s' events h _ hs
    obtain ⟨hinv, hreports⟩ := h.1.step hs
    refine ⟨hinv, fun t set option result recved hmem => ?_⟩
    exact (List.mem_append.1 hmem).elim (h.2 t set option result recved) (hreports t set option result recved)
  refine ⟨fun t ht => ?_, fun t set option recved hmem => hinv.2 t set option .eok recved hmem rfl⟩
  obtain ⟨hcall, hoption, -⟩ := hinv.1.threads.waiting t ht
  exact ⟨_, _, hcall, hoption, hinv.1.unsatisfied t ht⟩

/-- One send wakes an AND receiver that clears its bits, so that the OR receiver behind it still waits, and a third receiver is woken. -/
theorem eventDelivered_of_run_cleared : ∃ trace s, EventRun .fifo (fun _ => 0) trace s ∧ s.suspendThread = [1] ∧ s.set = 4 ∧
    trace = [.send 7 .eok, .recv 0 3 5 .eok (some 3), .recv 2 12 2 .eok (some 4)] ∧ EventDelivered trace s := by
  obtain ⟨trace, s, hrun, hfound⟩ := @Transition.exists_run_of_exec _ _ _ stepEvent (fun _ _ => True) (.init .fifo fun _ => 0) _
    [.recv 0 3 5 (-1), .recv 1 3 2 10, .recv 2 12 2 5, .send 7, .finish 0, .finish 2]
    (fun trace s => decide (s.suspendThread = [1] ∧ s.set = 4 ∧
      trace = [.send 7 .eok, .recv 0 3 5 .eok (some 3), .recv 2 12 2 .eok (some 4)])) (by decide +kernel)
  obtain ⟨hlist, hset, htrace⟩ := of_decide_eq_true hfound
  exact ⟨trace, s, hrun, hlist, hset, htrace, eventDelivered_of_run hrun⟩

/-! ## Receiving after the sends, and blocking before them -/

section

variable {sets : List (BitVec 32)} {timeout : Int} {timer : Bool}

/-- `rt_event_send` of one set after the other. -/
def rtEventSends (s : EventState) (sets : List (BitVec 32)) : EventState := sets.foldl (fun s set => (rtEventSend s set).2) s

def sentSet (held : BitVec 32) (sets : List (BitVec 32)) : BitVec 32 := sets.foldl (· ||| ·) held

structure FirstSatisfied (option : BitVec 8) (set held : BitVec 32) (sets : List (BitVec 32)) : Prop where
  before : ∀ n < sets.length, ¬ Satisfied option set (sentSet held (sets.take n))
  last : Satisfied option set (sentSet held sets)

theorem rtEventSend_alone (h : s.suspendThread = []) : (rtEventSend s set).2 = { s with set := s.set ||| set } := by
  unfold rtEventSend
  split_ifs with hset
  · subst hset
    exact congrArg (fun set => { s with set := set }) BitVec.or_zero.symm
  · rw [h]
    rfl

theorem rtEventSends_alone (h : s.suspendThread = []) : rtEventSends s sets = { s with set := sentSet s.set sets } := by
  induction sets generalizing s with
  | nil => rfl
  | cons set sets ih =>
    change rtEventSends (rtEventSend s set).2 sets = _
    rw [rtEventSend_alone h, ih (by exact h)]
    rfl

/-- The only receiver waits for `set`. -/
structure WaitsAlone (s : EventState) (t : ThreadId) (set : BitVec 32) (option : BitVec 8) : Prop where
  waiters : s.suspendThread = [t]
  eventSet : (s.thread t).eventSet = set
  eventInfo : (s.thread t).eventInfo = option
  error : (s.thread t).error = .eok

theorem tests_of_satisfied (hoption : WaitsFor option) (h : Satisfied option set held) :
    eventAvailable option set held = some true ∧ eventReceived option set held = some (held &&& set) := by
  unfold eventAvailable eventReceived
  unfold Satisfied at h
  by_cases hand : option &&& eventFlagAnd ≠ 0
  · rw [if_pos hand] at h
    simp only [if_pos hand, BitVec.and_comm held, h, decide_true, if_true, and_self]
  · rw [if_neg hand] at h
    simp only [if_neg hand, if_pos (hoption.resolve_left hand), BitVec.and_comm held, if_pos h, decide_eq_true h, and_self]

theorem tests_of_not_satisfied (hoption : WaitsFor option) (h : ¬ Satisfied option set held) :
    eventAvailable option set held = some false ∧ eventReceived option set held = none := by
  unfold eventAvailable eventReceived
  unfold Satisfied at h
  by_cases hand : option &&& eventFlagAnd ≠ 0
  · rw [if_pos hand] at h
    simp only [if_pos hand, BitVec.and_comm held, if_neg h, decide_eq_false h, and_self]
  · rw [if_neg hand] at h
    simp only [if_neg hand, if_pos (hoption.resolve_left hand), BitVec.and_comm held, if_neg h, decide_eq_false h, and_self]

theorem clear_received (held set : BitVec 32) : held &&& ~~~(held &&& set) = held &&& ~~~set := by
  ext i hi
  simp only [BitVec.getElem_and, BitVec.getElem_not]
  cases held[i] <;> cases set[i] <;> rfl

def heldAfterRecv (option : BitVec 8) (set held : BitVec 32) : BitVec 32 :=
  if option &&& eventFlagClear ≠ 0 then held &&& ~~~set else held

theorem WaitsAlone.send (h : WaitsAlone s t set option) {more : BitVec 32} (hmore : more ≠ 0) :
    (rtEventSend s more).2 = eventVisit { s with set := s.set ||| more } t := by
  unfold rtEventSend
  rw [if_neg hmore]
  exact congrArg (List.foldl eventVisit { s with set := s.set ||| more }) h.waiters

theorem WaitsAlone.send_more (h : WaitsAlone s t set option) (hoption : WaitsFor option) {more : BitVec 32}
    (hunsat : ¬ Satisfied option set (s.set ||| more)) : (rtEventSend s more).2 = { s with set := s.set ||| more } := by
  by_cases hmore : more = 0
  · subst hmore
    exact congrArg (fun set => { s with set := set }) BitVec.or_zero.symm
  · rw [h.send hmore]
    unfold eventVisit
    change (match eventReceived (s.thread t).eventInfo (s.thread t).eventSet (s.set ||| more) with | none => _ | some received => _) = _
    rw [h.eventInfo, h.eventSet, (tests_of_not_satisfied hoption hunsat).2]

theorem WaitsAlone.send_last (h : WaitsAlone s t set option) (hoption : WaitsFor option) {more : BitVec 32}
    (hunsat : ¬ Satisfied option set s.set) (hsat : Satisfied option set (s.set ||| more)) :
    let s' := (rtEventSend s more).2
    s'.suspendThread = [] ∧ s'.set = heldAfterRecv option set (s.set ||| more) ∧ (s'.thread t).eventSet = (s.set ||| more) &&& set ∧
      (s'.thread t).error = .eok := by
  have hmore : more ≠ 0 := by
    rintro rfl
    exact hunsat ((congrArg (Satisfied option set) BitVec.or_zero).mp hsat)
  dsimp only
  rw [h.send hmore]
  unfold eventVisit heldAfterRecv
  simp only [h.eventInfo, h.eventSet, (tests_of_satisfied hoption hsat).2, EventState.setThread_self]
  split_ifs with hclear
  · simp [EventState.resume, EventState.setThread, h.waiters, h.error, clear_received]
  · simp [EventState.resume, EventState.setThread, h.waiters, h.error]

theorem FirstSatisfied.tail {first : BitVec 32} (h : FirstSatisfied option set held (first :: sets)) :
    FirstSatisfied option set (held ||| first) sets :=
  ⟨fun n hn => h.before (n + 1) (Nat.succ_lt_succ hn), h.last⟩

theorem WaitsAlone.sends (hoption : WaitsFor option) (hsets : sets ≠ []) :
    ∀ {s : EventState}, WaitsAlone s t set option → FirstSatisfied option set s.set sets →
      let s' := rtEventSends s sets
      s'.suspendThread = [] ∧ s'.set = heldAfterRecv option set (sentSet s.set sets) ∧
        (s'.thread t).eventSet = sentSet s.set sets &&& set ∧ (s'.thread t).error = .eok := by
  induction sets with
  | nil => exact absurd rfl hsets
  | cons more sets ih =>
    intro s h hfirst
    have hunsat : ¬ Satisfied option set s.set := hfirst.before 0 (Nat.succ_pos _)
    by_cases hnil : sets = []
    · subst hnil
      exact h.send_last hoption hunsat hfirst.last
    · have hmore : ¬ Satisfied option set (s.set ||| more) := hfirst.tail.before 0 (List.length_pos_iff.2 hnil)
      have hwaits : WaitsAlone { s with set := s.set ||| more } t set option := ⟨h.waiters, h.eventSet, h.eventInfo, h.error⟩
      have hrest : rtEventSends s (more :: sets) = rtEventSends { s with set := s.set ||| more } sets :=
        congrArg (fun s => rtEventSends s sets) (h.send_more hoption hmore)
      rw [hrest]
      exact ih hnil hwaits hfirst.tail

@[simp] theorem EventState.setThread_set (f : EventThread → EventThread) : (s.setThread t f).set = s.set := rfl

theorem rtEventRecv_fast (hset : set ≠ 0) (hoption : WaitsFor option) (hsat : Satisfied option set s.set) :
    ∃ s', (∀ timeout, rtEventRecv s t set option timeout = some (some (.eok, some (s.set &&& set)), s')) ∧
      s'.set = heldAfterRecv option set s.set := by
  have havailable := (tests_of_satisfied hoption hsat).1
  unfold rtEventRecv heldAfterRecv
  simp only [if_neg hset, EventState.setThread_set, havailable]
  refine ⟨_, fun _ => rfl, ?_⟩
  split_ifs <;> rfl

theorem rtEventRecv_slow (hset : set ≠ 0) (hoption : WaitsFor option) (hunsat : ¬ Satisfied option set s.set)
    (halone : s.suspendThread = []) (htimeout : timeout ≠ 0) (htimer : timeoutTimer timeout = some timer) :
    ∃ s', rtEventRecv s t set option timeout = some (none, s') ∧ WaitsAlone s' t set option ∧ s'.set = s.set := by
  have havailable := (tests_of_not_satisfied hoption hunsat).1
  unfold rtEventRecv
  simp only [if_neg hset, EventState.setThread_set, havailable, if_neg htimeout, htimer]
  refine ⟨_, rfl, ⟨?_, ?_, ?_, ?_⟩, rfl⟩
  · change ipcListSuspend s.flag _ t s.suspendThread = [t]
    rw [halone]
    cases s.flag <;> rfl
  all_goals simp [EventState.setCall, EventState.setThread]

theorem FirstSatisfied.ne_zero (h : FirstSatisfied option set held sets) (hsets : sets ≠ []) : set ≠ 0 := by
  rintro rfl
  have hbefore := h.before 0 (List.length_pos_iff.2 hsets)
  have hlast := h.last
  unfold Satisfied at hbefore hlast
  split_ifs at hbefore hlast
  · exact hbefore BitVec.zero_and
  · exact hlast BitVec.zero_and

/-- A receive after the sends, with any timeout, and one that has blocked before them: both receive the same and leave the same. -/
theorem eventRecv_fast_eq_slow (halone : s.suspendThread = []) (hoption : WaitsFor option) (hsets : sets ≠ [])
    (hfirst : FirstSatisfied option set s.set sets) (htimeout : timeout ≠ 0) (htimer : timeoutTimer timeout = some timer) :
    ∃ blocked fast recved, rtEventRecv s t set option timeout = some (none, blocked) ∧
      (∀ timeout, rtEventRecv (rtEventSends s sets) t set option timeout = some (some (.eok, some recved), fast)) ∧
      ¬ (rtEventSends blocked sets).Waiting t ∧
      (rtEventRecvReturn (rtEventSends blocked sets) t).1 = (.eok, some recved) ∧
      (rtEventRecvReturn (rtEventSends blocked sets) t).2.set = fast.set := by
  have hset := hfirst.ne_zero hsets
  have hunsat : ¬ Satisfied option set s.set := hfirst.before 0 (List.length_pos_iff.2 hsets)
  obtain ⟨blocked, hblocked, hwaits, hheld⟩ := rtEventRecv_slow (t := t) hset hoption hunsat halone htimeout htimer
  have hsent : (rtEventSends s sets).set = sentSet s.set sets := by rw [rtEventSends_alone halone]
  obtain ⟨fast, hfast, hfastSet⟩ := rtEventRecv_fast (t := t) hset hoption (s := rtEventSends s sets)
    (hsent.symm ▸ hfirst.last)
  rw [← hheld] at hfirst hsent
  obtain ⟨hnone, hslowSet, hrecved, herror⟩ := WaitsAlone.sends hoption hsets hwaits hfirst
  refine ⟨blocked, fast, _, hblocked, hfast, ?_, ?_, ?_⟩
  · rw [EventState.Waiting, hnone]
    exact List.not_mem_nil
  · rw [hsent, ← hrecved, ← herror]
    unfold rtEventRecvReturn
    exact congrArg Prod.fst (if_neg (not_not.2 herror))
  · rw [hfastSet, hsent, ← hslowSet]
    unfold rtEventRecvReturn
    exact congrArg (fun r : (IpcErr × Option (BitVec 32)) × EventState => r.2.set) (if_neg (not_not.2 herror))

/-- An AND receiver that clears: the first two sends do not satisfy it, and the third brings a bit it does not wait for. -/
theorem eventRecv_fast_eq_slow_and :
    let s : EventState := { EventState.init .fifo (fun _ => 3) with set := 0x10 }
    ∃ blocked fast recved, rtEventRecv s 1 0x07 0x05 10 = some (none, blocked) ∧
      (∀ timeout, rtEventRecv (rtEventSends s [0x01, 0x02, 0x0C]) 1 0x07 0x05 timeout = some (some (.eok, some recved), fast)) ∧
      ¬ (rtEventSends blocked [0x01, 0x02, 0x0C]).Waiting 1 ∧
      (rtEventRecvReturn (rtEventSends blocked [0x01, 0x02, 0x0C]) 1).1 = (.eok, some recved) ∧
      (rtEventRecvReturn (rtEventSends blocked [0x01, 0x02, 0x0C]) 1).2.set = fast.set :=
  eventRecv_fast_eq_slow rfl (.inl (by decide)) (by decide)
    ⟨fun n hn => by
      rcases n with _ | _ | _ | n
      · exact (show ¬ ((0x07 : BitVec 32) &&& 0x10 = 0x07) by decide)
      · exact (show ¬ ((0x07 : BitVec 32) &&& 0x11 = 0x07) by decide)
      · exact (show ¬ ((0x07 : BitVec 32) &&& 0x13 = 0x07) by decide)
      · exact absurd hn (by simp),
      (show (0x07 : BitVec 32) &&& 0x1F = 0x07 by decide)⟩ (by decide) (show timeoutTimer 10 = some true by decide)

end

end RtThread
