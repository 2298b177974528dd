import RtThread.Kernel.State
import RtThread.Lib.Transition

/-!
# Finished threads

A thread ends by `rt_thread_exit`, or another thread ends it by `rt_thread_detach` or `rt_thread_delete`. It then waits in `rt_thread_defunct` for the idle thread, which calls its cleanup function and frees its memory. What the idle thread frees it decides by the type of the object: an object that is not static comes from the heap. But `rt_object_detach` sets the type to zero.

The types tell nothing about where the memory comes from once a thread has ended, so each thread here also carries how it was made.

`rt_thread_detach` and `rt_thread_delete` enable interrupts between their parts. A thread that ends itself is out of the ready lists by then: when it is preempted it does not run again, and its end stays unfinished.
-/

namespace RtThread.Finished

/-- How a thread was made: by `rt_thread_init` or `rt_thread_create`. -/
inductive ThreadMemory
  | static | heap
  deriving DecidableEq

structure ThreadObject where
  type : BitVec 8
  /-- `cleanup` is not `RT_NULL`. -/
  cleanup : Bool
  /-- `RT_THREAD_INIT`, `RT_THREAD_CLOSE`, or in between. -/
  stat : ThreadStat
  memory : ThreadMemory
  deriving DecidableEq

def classThread : BitVec 8 := 0

def classStatic : BitVec 8 := 0x80

def rtObjectIsSystemobject (o : ThreadObject) : Bool := decide (o.type &&& classStatic ≠ 0)

def rtObjectGetType (o : ThreadObject) : BitVec 8 := o.type &&& ~~~classStatic

inductive EndCall
  | detach | delete
  deriving DecidableEq

/-- Where `rt_thread_idle_excute` is. -/
inductive IdleAt
  | test
  /-- It has found a defunct thread and disables the interrupts. -/
  | locked
  | freeStack (t : ThreadId)
  | deleteObject (t : ThreadId)
  deriving DecidableEq

structure ReaperState where
  thread : ThreadId → Option ThreadObject
  objectList : List ThreadId
  defunct : List ThreadId
  call : ThreadId → Option EndCall
  /-- Threads that are in no ready list, by a call that has not come further. -/
  lost : List ThreadId
  idle : IdleAt

inductive ReaperOp
  | init (t : ThreadId)
  | create (t : ThreadId)
  | startup (t : ThreadId)
  | setCleanup (t : ThreadId) (cleanup : Bool)
  | exit (t : ThreadId)
  | detach (t : ThreadId)
  | delete (t : ThreadId)
  /-- The call that has closed the thread goes on to its end. -/
  | finish (t : ThreadId)
  /-- The caller that ends the thread does not go on: it is the thread itself and has been preempted, or it has been ended. -/
  | abandon (t : ThreadId)
  | idle
  deriving DecidableEq

inductive ReaperEvent
  /-- A call that ends the thread is under way. -/
  | began (t : ThreadId)
  | ended (t : ThreadId)
  | cleanup (t : ThreadId)
  /-- `RT_KERNEL_FREE` for the stack. -/
  | freeStack (t : ThreadId)
  /-- `RT_KERNEL_FREE` for the object. -/
  | freeObject (t : ThreadId)
  deriving DecidableEq

def ReaperEvent.thread : ReaperEvent → ThreadId
  | .began t | .ended t | .cleanup t | .freeStack t | .freeObject t => t

def ReaperState.setObject (s : ReaperState) (t : ThreadId) (o : ThreadObject) : ReaperState :=
  { s with thread := Function.update s.thread t (some o) }

/-- `rt_object_init` and `rt_object_allocate`, with `_rt_thread_init`. -/
def ReaperState.make (s : ReaperState) (t : ThreadId) (type : BitVec 8) (memory : ThreadMemory) : ReaperState :=
  { s.setObject t ⟨type, false, .init, memory⟩ with objectList := t :: s.objectList }

/-- `rt_object_detach`, and the same part of `rt_object_delete`. -/
def ReaperState.detach (s : ReaperState) (t : ThreadId) (o : ThreadObject) : ReaperState :=
  { s.setObject t { o with type := 0 } with objectList := s.objectList.erase t }

/-- The thread is closed: `rt_schedule_remove_thread`, `rt_timer_detach` and the status. -/
def ReaperState.close (s : ReaperState) (t : ThreadId) (o : ThreadObject) : ReaperState :=
  s.setObject t { o with stat := .close }

def ReaperState.bury (s : ReaperState) (t : ThreadId) : ReaperState := { s with defunct := t :: s.defunct }

def rtThreadExit (s : ReaperState) (t : ThreadId) (o : ThreadObject) : ReaperState :=
  if rtObjectIsSystemobject o ∧ o.cleanup = false then (s.close t o).detach t { o with stat := .close }
  else (s.close t o).bury t

/-- The last critical section of `rt_thread_detach` and `rt_thread_delete`. -/
def ReaperState.endCall (s : ReaperState) (t : ThreadId) (o : ThreadObject) (call : EndCall) : ReaperState :=
  let s := { s with call := Function.update s.call t none }
  match call with
  | .detach => if o.cleanup then s.bury t else s
  | .delete => s.bury t

/-- A step of `rt_thread_idle_excute`; nothing where the assertion of `rt_object_delete` fails. -/
def rtThreadIdleExcute (s : ReaperState) : Option (ReaperState × List ReaperEvent) :=
  match s.idle with
  | .test => some ({ s with idle := if s.defunct = [] then .test else .locked }, [])
  | .locked =>
    match s.defunct with
    | [] => some ({ s with idle := .test }, [])
    | t :: rest =>
      (s.thread t).map fun o =>
        ({ s with defunct := rest, idle := if rtObjectIsSystemobject o then .test else .freeStack t },
          if o.cleanup then [.cleanup t] else [])
  | .freeStack t => some ({ s with idle := .deleteObject t }, [.freeStack t])
  | .deleteObject t =>
    (s.thread t).bind fun o =>
      if rtObjectIsSystemobject o then none else some ({ s.detach t o with idle := .test }, [.freeObject t])

def stepReaper (s : ReaperState) : ReaperOp → Option (ReaperState × List ReaperEvent)
  | .init t => if s.thread t = none then some (s.make t (classThread ||| classStatic) .static, []) else none
  | .create t => if s.thread t = none then some (s.make t classThread .heap, []) else none
  | .startup t =>
    (s.thread t).bind fun o => if o.stat = .init then some (s.setObject t { o with stat := .ready }, []) else none
  | .setCleanup t cleanup =>
    (s.thread t).bind fun o => if o.stat ≠ .close then some (s.setObject t { o with cleanup }, []) else none
  | .exit t =>
    (s.thread t).bind fun o => if o.stat = .ready ∧ t ∉ s.lost then some (rtThreadExit s t o, [.began t, .ended t]) else none
  | .detach t =>
    (s.thread t).bind fun o =>
      if o.stat ≠ .close ∧ rtObjectGetType o = classThread ∧ rtObjectIsSystemobject o then
        some ({ (s.close t o).detach t { o with stat := .close } with call := Function.update s.call t (some .detach) },
          [.began t])
      else none
  | .delete t =>
    (s.thread t).bind fun o =>
      if o.stat ≠ .close ∧ rtObjectGetType o = classThread ∧ ¬ rtObjectIsSystemobject o then
        some ({ s.close t o with call := Function.update s.call t (some .delete) }, [.began t])
      else none
  | .finish t =>
    (s.thread t).bind fun o => (s.call t).map fun call => (s.endCall t o call, [.ended t])
  | .abandon t =>
    if s.call t ≠ none then some ({ s with call := Function.update s.call t none }, [])
    else
      -- behind `rt_schedule_remove_thread`
      (s.thread t).bind fun o => if o.stat = .ready then some ({ s with lost := t :: s.lost }, [.began t]) else none
  | .idle => rtThreadIdleExcute s

def ReaperState.boot : ReaperState := ⟨fun _ => none, [], [], fun _ => none, [], .test⟩

/-- No thread that has been made by `rt_thread_init` and has a cleanup function ends, and no call that ends a thread is left half done. -/
def EndsClean (s : ReaperState) : ReaperOp → Prop
  | .exit t | .detach t => ∀ o ∈ s.thread t, o.memory = .static → o.cleanup = false
  | .abandon _ => False
  | _ => True

instance (s : ReaperState) (op : ReaperOp) : Decidable (EndsClean s op) := by
  unfold EndsClean
  split <;> infer_instance

inductive Phase
  | unmade | alive | ending
  /-- In `rt_thread_defunct`. -/
  | defunct
  | stack | object
  | freed
  | gone
  deriving DecidableEq

def Phase.Ended (p : Phase) : Prop := p = .defunct ∨ p = .stack ∨ p = .object ∨ p = .freed ∨ p = .gone

structure ObjectOk (s : ReaperState) (t : ThreadId) (p : Phase) (o : ThreadObject) : Prop where
  made : p ≠ .unmade
  closed : o.stat = .close ↔ p ≠ .alive
  heap : o.memory = .heap → o.type = classThread ∧ p ≠ .gone ∧ (p = .ending → s.call t = some .delete)
  static : o.memory = .static → (p = .alive ∨ p = .ending ∨ p = .gone) ∧ (p = .alive → o.type = classThread ||| classStatic) ∧
    (p = .ending → s.call t = some .detach ∧ o.cleanup = false)

structure PhaseOk (trace : List ReaperEvent) (s : ReaperState) (t : ThreadId) (p : Phase) : Prop where
  unmade : s.thread t = none ↔ p = .unmade
  call : s.call t ≠ none ↔ p = .ending
  defunct : t ∈ s.defunct ↔ p = .defunct
  stack : s.idle = .freeStack t ↔ p = .stack
  object : s.idle = .deleteObject t ↔ p = .object
  stackFrees : trace.count (.freeStack t) = if p = .object ∨ p = .freed then 1 else 0
  objectFrees : trace.count (.freeObject t) = if p = .freed then 1 else 0
  began : .began t ∈ trace ↔ p ≠ .unmade ∧ p ≠ .alive
  ended : .ended t ∈ trace ↔ p.Ended
  listed : t ∈ s.objectList → p ≠ .unmade ∧ p ≠ .freed ∧ p ≠ .gone
  detached : s.call t = some .detach → t ∉ s.objectList
  objectOk : ∀ o, s.thread t = some o → ObjectOk s t p o

structure ReaperInv (trace : List ReaperEvent) (s : ReaperState) (phase : ThreadId → Phase) : Prop where
  objectList : s.objectList.Nodup
  defunct : s.defunct.Nodup
  thread : ∀ t, PhaseOk trace s t (phase t)

variable {trace events : List ReaperEvent} {s s' : ReaperState} {op : ReaperOp} {t x : ThreadId} {p : Phase}
  {phase : ThreadId → Phase} {o : ThreadObject} {rest : List ThreadId}

theorem isSystem_static (h : o.type = classThread ||| classStatic) : rtObjectIsSystemobject o = true := by
  rw [rtObjectIsSystemobject, h]
  decide

theorem not_isSystem_heap (h : o.type = classThread) : rtObjectIsSystemobject o = false := by
  rw [rtObjectIsSystemobject, h]
  decide

theorem PhaseOk.frame (h : PhaseOk trace s x p) (hthread : s'.thread x = s.thread x) (hcall : s'.call x = s.call x)
    (hdefunct : x ∈ s'.defunct ↔ x ∈ s.defunct) (hlisted : x ∈ s'.objectList → x ∈ s.objectList)
    (hstack : s'.idle = .freeStack x ↔ s.idle = .freeStack x)
    (hobject : s'.idle = .deleteObject x ↔ s.idle = .deleteObject x) (hevents : ∀ e ∈ events, e.thread ≠ x) :
    PhaseOk (trace ++ events) s' x p := by
  have hcount : ∀ e : ReaperEvent, e.thread = x → (trace ++ events).count e = trace.count e := by
    intro e he
    have hnot : e ∉ events := fun hmem => hevents e hmem he
    rw [List.count_append, List.count_eq_zero.2 hnot, Nat.add_zero]
  have hmem : ∀ e : ReaperEvent, e.thread = x → (e ∈ trace ++ events ↔ e ∈ trace) := by
    intro e he
    rw [List.mem_append]
    exact or_iff_left fun hlate => hevents e hlate he
  refine ⟨hthread ▸ h.unmade, hcall ▸ h.call, hdefunct.trans h.defunct, hstack.trans h.stack, hobject.trans h.object,
    (hcount _ rfl).trans h.stackFrees, (hcount _ rfl).trans h.objectFrees, (hmem _ rfl).trans h.began,
    (hmem _ rfl).trans h.ended, fun hx => h.listed (hlisted hx), fun hdetach hx => h.detached (hcall ▸ hdetach) (hlisted hx), fun o ho => ?_⟩
  obtain ⟨hmade, hclosed, hheap, hstatic⟩ := h.objectOk o (hthread ▸ ho)
  exact ⟨hmade, hclosed, hcall ▸ hheap, hcall ▸ hstatic⟩

theorem ReaperInv.move (h : ReaperInv trace s phase) (t : ThreadId) (p : Phase)
    (hlist : s'.objectList.Nodup) (hdefunct : s'.defunct.Nodup)
    (hthread : ∀ x ≠ t, s'.thread x = s.thread x) (hcall : ∀ x ≠ t, s'.call x = s.call x)
    (hmem : ∀ x ≠ t, (x ∈ s'.defunct ↔ x ∈ s.defunct)) (hlisted : ∀ x ≠ t, x ∈ s'.objectList → x ∈ s.objectList)
    (hidle : ∀ x ≠ t, (s'.idle = .freeStack x ↔ s.idle = .freeStack x) ∧
      (s'.idle = .deleteObject x ↔ s.idle = .deleteObject x))
    (hevents : ∀ e ∈ events, e.thread = t) (ht : PhaseOk (trace ++ events) s' t p) :
    ReaperInv (trace ++ events) s' (Function.update phase t p) := by
  refine ⟨hlist, hdefunct, fun x => ?_⟩
  by_cases hx : x = t
  · subst hx
    rwa [Function.update_self]
  · rw [Function.update_of_ne hx]
    exact (h.thread x).frame (hthread x hx) (hcall x hx) (hmem x hx) (hlisted x hx) (hidle x hx).1 (hidle x hx).2
      fun e he heq => hx (heq.symm.trans (hevents e he))

theorem ReaperInv.boot : ReaperInv [] .boot fun _ => .unmade := by
  refine ⟨List.nodup_nil, List.nodup_nil, fun t => ?_⟩
  constructor
  all_goals simp [ReaperState.boot, Phase.Ended]

/-! ## A thread is made -/

@[simp] theorem setObject_self : (s.setObject t o).thread t = some o := Function.update_self ..

theorem setObject_other (hx : x ≠ t) : (s.setObject t o).thread x = s.thread x := Function.update_of_ne hx ..

@[simp] theorem setObject_defunct : (s.setObject t o).defunct = s.defunct := rfl

@[simp] theorem setObject_objectList : (s.setObject t o).objectList = s.objectList := rfl

@[simp] theorem setObject_call : (s.setObject t o).call = s.call := rfl

@[simp] theorem setObject_idle : (s.setObject t o).idle = s.idle := rfl

theorem ReaperInv.phase_of_none (h : ReaperInv trace s phase) (ht : s.thread t = none) : phase t = .unmade :=
  (h.thread t).unmade.1 ht

theorem ReaperInv.make {type : BitVec 8} {memory : ThreadMemory} (h : ReaperInv trace s phase) (ht : s.thread t = none)
    (hheap : memory = .heap → type = classThread) (hstatic : memory = .static → type = classThread ||| classStatic) :
    ReaperInv (trace ++ []) (s.make t type memory) (Function.update phase t .alive) := by
  have hok := h.thread t
  rw [h.phase_of_none ht] at hok
  have hlisted : t ∉ s.objectList := fun hmem => (hok.listed hmem).1 rfl
  have hcall : s.call t = none := by
    by_contra hne
    cases hok.call.1 hne
  refine h.move t .alive (List.nodup_cons.2 ⟨hlisted, h.objectList⟩) h.defunct (fun x hx => setObject_other hx)
    (fun _ _ => rfl) (fun _ _ => Iff.rfl) (fun x hx hmem => ?_) (fun _ _ => ⟨Iff.rfl, Iff.rfl⟩) (by simp) ?_
  · exact (List.mem_cons.1 hmem).resolve_left hx
  · rw [List.append_nil]
    refine ⟨?_, ?_, ?_, ?_, ?_, ?_, ?_, ?_, ?_, fun _ => by decide, ?_, fun o ho => ?_⟩
    · simp [ReaperState.make]
    · simp [ReaperState.make, hcall]
    · simpa [ReaperState.make] using hok.defunct
    · simpa [ReaperState.make] using hok.stack
    · simpa [ReaperState.make] using hok.object
    · simpa using hok.stackFrees
    · simpa using hok.objectFrees
    · simpa using hok.began
    · simpa [Phase.Ended] using hok.ended
    · simp [ReaperState.make, hcall]
    · obtain rfl : (⟨type, false, .init, memory⟩ : ThreadObject) = o := by simpa [ReaperState.make] using ho
      exact ⟨by decide, by simp, fun hm => ⟨hheap hm, by decide, by simp⟩, fun hm => ⟨.inl rfl, fun _ => hstatic hm, by simp⟩⟩

theorem ReaperInv.setAlive {o' : ThreadObject} (h : ReaperInv trace s phase) (ht : s.thread t = some o)
    (hstat : o.stat ≠ .close) (hstat' : o'.stat ≠ .close) (htype : o'.type = o.type) (hmemory : o'.memory = o.memory) :
    ReaperInv (trace ++ []) (s.setObject t o') phase := by
  have hok := h.thread t
  have hobject := hok.objectOk o ht
  have halive : phase t = .alive := by
    by_contra hne
    exact hstat (hobject.closed.2 hne)
  rw [halive] at hok hobject
  rw [← Function.update_eq_self t phase, halive]
  refine h.move t .alive h.objectList h.defunct (fun x hx => setObject_other hx) (fun _ _ => rfl) (fun _ _ => Iff.rfl)
    (fun _ _ => id) (fun _ _ => ⟨Iff.rfl, Iff.rfl⟩) (by simp) ?_
  rw [List.append_nil]
  refine ⟨by simp, hok.call, hok.defunct, hok.stack, hok.object, hok.stackFrees, hok.objectFrees, hok.began, hok.ended,
    hok.listed, hok.detached, fun o'' ho => ?_⟩
  obtain rfl : o' = o'' := by simpa using ho
  refine ⟨by decide, by simp [hstat'], fun hheap => ?_, fun hstatic => ?_⟩
  · exact ⟨htype.trans (hobject.heap (hmemory ▸ hheap)).1, by decide, by simp⟩
  · exact ⟨.inl rfl, fun _ => htype.trans ((hobject.static (hmemory ▸ hstatic)).2.1 rfl), by simp⟩

/-! ## A thread ends -/

theorem ReaperInv.phase_alive (h : ReaperInv trace s phase) (ht : s.thread t = some o) (hstat : o.stat ≠ .close) :
    phase t = .alive := by
  by_contra hne
  exact hstat (((h.thread t).objectOk o ht).closed.2 hne)

theorem ReaperInv.memory_alive (h : ReaperInv trace s phase) (ht : s.thread t = some o) (hstat : o.stat ≠ .close) :
    rtObjectIsSystemobject o = true ↔ o.memory = .static := by
  have hobject := (h.thread t).objectOk o ht
  rw [h.phase_alive ht hstat] at hobject
  cases hmemory : o.memory with
  | static => exact iff_of_true (isSystem_static ((hobject.static hmemory).2.1 rfl)) rfl
  | heap =>
    rw [not_isSystem_heap (hobject.heap hmemory).1]
    simp

theorem ReaperInv.bury (h : ReaperInv trace s phase) (o' : ThreadObject) (hp : phase t = .alive ∨ phase t = .ending)
    (hmemory : o'.memory = .heap) (htype : o'.type = classThread) (hclosed : o'.stat = .close)
    (hthread : s'.thread = Function.update s.thread t (some o')) (hcall : s'.call = Function.update s.call t none)
    (hdefunct : s'.defunct = t :: s.defunct) (hlist : s'.objectList = s.objectList) (hidle : s'.idle = s.idle)
    (hevents : phase t = .alive ∧ events = [.began t, .ended t] ∨ phase t = .ending ∧ events = [.ended t]) :
    ReaperInv (trace ++ events) s' (Function.update phase t .defunct) := by
  have hok := h.thread t
  have hbegan := hok.began
  have hnot : t ∉ s.defunct := by
    intro hmem
    have hp' := hok.defunct.1 hmem
    rcases hp with hp | hp <;> cases hp.symm.trans hp'
  have hidles : s.idle ≠ .freeStack t ∧ s.idle ≠ .deleteObject t := by
    refine ⟨fun hs => ?_, fun hs => ?_⟩
    · have hp' := hok.stack.1 hs
      rcases hp with hp | hp <;> cases hp.symm.trans hp'
    · have hp' := hok.object.1 hs
      rcases hp with hp | hp <;> cases hp.symm.trans hp'
  have hfrees : trace.count (.freeStack t) = 0 ∧ trace.count (.freeObject t) = 0 := by
    have hstack := hok.stackFrees
    have hobject := hok.objectFrees
    rcases hp with hp | hp <;> simpa [hp] using And.intro hstack hobject
  refine h.move t .defunct (hlist ▸ h.objectList) ?_ (fun x hx => ?_) (fun x hx => ?_) (fun x hx => ?_) (fun x _ => ?_)
    (fun x _ => by rw [hidle]; exact ⟨Iff.rfl, Iff.rfl⟩)
    (by rcases hevents with ⟨-, rfl⟩ | ⟨-, rfl⟩ <;> simp [ReaperEvent.thread]) ?_
  · rw [hdefunct]
    exact List.nodup_cons.2 ⟨hnot, h.defunct⟩
  · rw [hthread, Function.update_of_ne hx]
  · rw [hcall, Function.update_of_ne hx]
  · rw [hdefunct, List.mem_cons, or_iff_right hx]
  · rw [hlist]
    exact id
  · refine ⟨?_, ?_, ?_, ?_, ?_, ?_, ?_, ?_, ?_, fun _ => by decide, by simp [hcall], fun o ho => ?_⟩
    · simp [hthread]
    · simp [hcall]
    · simp [hdefunct]
    · simpa [hidle] using hidles.1
    · simpa [hidle] using hidles.2
    · rcases hevents with ⟨-, rfl⟩ | ⟨-, rfl⟩ <;> simpa using hfrees.1
    · rcases hevents with ⟨-, rfl⟩ | ⟨-, rfl⟩ <;> simpa using hfrees.2
    · rcases hevents with ⟨-, rfl⟩ | ⟨hp, rfl⟩
      · simp
      · simp [hp] at hbegan
        simp [hbegan]
    · rcases hevents with ⟨-, rfl⟩ | ⟨-, rfl⟩ <;> simp [Phase.Ended]
    · obtain rfl : o' = o := by simpa [hthread] using ho
      refine ⟨by decide, by simp [hclosed], fun _ => ⟨htype, by decide, by simp⟩, fun hstatic => ?_⟩
      rw [hmemory] at hstatic
      cases hstatic

theorem ReaperInv.leave (h : ReaperInv trace s phase) (o' : ThreadObject) (p : Phase)
    (hp : phase t = .alive ∨ phase t = .ending) (hp' : p = .ending ∨ p = .gone)
    (hmoves : ∀ e ∈ events, e = .began t ∨ e = .ended t) (hends : .ended t ∈ events ↔ p = .gone)
    (hbegins : phase t = .alive → .began t ∈ events)
    (hmemory : o'.memory = .static) (hclosed : o'.stat = .close) (hclean : o'.cleanup = false)
    (hthread : s'.thread = Function.update s.thread t (some o'))
    (hcall : s'.call = Function.update s.call t (if p = .ending then some .detach else none))
    (hdefunct : s'.defunct = s.defunct) (hlist : s'.objectList = s.objectList.erase t) (hidle : s'.idle = s.idle) :
    ReaperInv (trace ++ events) s' (Function.update phase t p) := by
  have hok := h.thread t
  have hcount : ∀ e : ReaperEvent, e ≠ .began t → e ≠ .ended t → events.count e = 0 := fun e hb he =>
    List.count_eq_zero.2 fun hmem => (hmoves e hmem).elim hb he
  have hended : .ended t ∈ trace ++ events ↔ p.Ended := by
    rw [List.mem_append, hok.ended, hends]
    rcases hp' with rfl | rfl <;> rcases hp with hp | hp <;> simp [hp, Phase.Ended]
  have hbegan : .began t ∈ trace ++ events ↔ p ≠ .unmade ∧ p ≠ .alive := by
    refine iff_of_true ?_ ?_
    · rw [List.mem_append, hok.began]
      rcases hp with hp | hp
      · exact .inr (hbegins hp)
      · exact .inl (by simp [hp])
    · rcases hp' with rfl | rfl <;> decide
  refine h.move t p (hlist ▸ h.objectList.erase t) (hdefunct ▸ h.defunct) (fun x hx => ?_) (fun x hx => ?_) (fun x hx => ?_)
    (fun x hx => ?_) (fun x _ => by rw [hidle]; exact ⟨Iff.rfl, Iff.rfl⟩) (fun e he => by rcases hmoves e he with rfl | rfl <;> rfl) ?_
  · rw [hthread, Function.update_of_ne hx]
  · rw [hcall, Function.update_of_ne hx]
  · rw [hdefunct]
  · rw [hlist]
    exact List.mem_of_mem_erase
  · have hunlisted : t ∉ s'.objectList := by
      rw [hlist]
      exact h.objectList.not_mem_erase
    refine ⟨?_, ?_, ?_, ?_, ?_, ?_, ?_, hbegan, hended, fun hmem => absurd hmem hunlisted, fun _ => hunlisted, fun o ho => ?_⟩
    · rcases hp' with rfl | rfl <;> simp [hthread]
    · rcases hp' with rfl | rfl <;> simp [hcall]
    · rw [hdefunct, hok.defunct]
      rcases hp' with rfl | rfl <;> rcases hp with hp | hp <;> simp [hp]
    · rw [hidle, hok.stack]
      rcases hp' with rfl | rfl <;> rcases hp with hp | hp <;> simp [hp]
    · rw [hidle, hok.object]
      rcases hp' with rfl | rfl <;> rcases hp with hp | hp <;> simp [hp]
    · rw [List.count_append, hok.stackFrees, hcount _ (by simp) (by simp)]
      rcases hp' with rfl | rfl <;> rcases hp with hp | hp <;> simp [hp]
    · rw [List.count_append, hok.objectFrees, hcount _ (by simp) (by simp)]
      rcases hp' with rfl | rfl <;> rcases hp with hp | hp <;> simp [hp]
    · obtain rfl : o' = o := by simpa [hthread] using ho
      refine ⟨?_, ?_, fun hheap => ?_, fun _ => ⟨?_, ?_, fun hending => ⟨?_, hclean⟩⟩⟩
      · rcases hp' with rfl | rfl <;> decide
      · rcases hp' with rfl | rfl <;> simp [hclosed]
      · rw [hmemory] at hheap
        cases hheap
      · exact .inr hp'
      · rcases hp' with rfl | rfl <;> simp
      · simp [hcall, hending]

theorem ReaperInv.delete (h : ReaperInv trace s phase) (ht : s.thread t = some o) (hstat : o.stat ≠ .close)
    (hheap : o.memory = .heap) : ReaperInv (trace ++ [.began t])
      { s.close t o with call := Function.update s.call t (some .delete) } (Function.update phase t .ending) := by
  have hok := h.thread t
  have hobject := hok.objectOk o ht
  rw [h.phase_alive ht hstat] at hok hobject
  refine h.move t .ending h.objectList h.defunct (fun x hx => setObject_other hx) (fun x hx => Function.update_of_ne hx ..)
    (fun _ _ => Iff.rfl) (fun _ _ => id) (fun _ _ => ⟨Iff.rfl, Iff.rfl⟩) (by simp [ReaperEvent.thread]) ?_
  refine ⟨by simp [ReaperState.close], by simp, ?_, ?_, ?_, ?_, ?_, by simp, ?_, fun _ => by decide, by simp, fun o' ho => ?_⟩
  · simpa [ReaperState.close] using hok.defunct
  · simpa [ReaperState.close] using hok.stack
  · simpa [ReaperState.close] using hok.object
  · simpa using hok.stackFrees
  · simpa using hok.objectFrees
  · simpa [Phase.Ended] using hok.ended
  · obtain rfl : ({ o with stat := .close } : ThreadObject) = o' := by simpa [ReaperState.close] using ho
    refine ⟨by decide, by simp, fun _ => ⟨(hobject.heap hheap).1, by decide, by simp⟩, fun hstatic => ?_⟩
    cases hheap.symm.trans hstatic

theorem ReaperInv.call_alive (h : ReaperInv trace s phase) (ht : s.thread t = some o) (hstat : o.stat ≠ .close) :
    s.call t = none := by
  by_contra hne
  have hp := (h.thread t).call.1 hne
  rw [h.phase_alive ht hstat] at hp
  cases hp

theorem ReaperInv.exit (h : ReaperInv trace s phase) (ht : s.thread t = some o) (hstat : o.stat ≠ .close)
    (hok : o.memory = .static → o.cleanup = false) :
    ∃ phase', ReaperInv (trace ++ [.began t, .ended t]) (rtThreadExit s t o) phase' := by
  have halive := h.phase_alive ht hstat
  have hcall := h.call_alive ht hstat
  have hsystem := h.memory_alive ht hstat
  have hsame : s.call = Function.update s.call t none := by rw [← hcall, Function.update_eq_self]
  rw [rtThreadExit]
  cases hmemory : o.memory with
  | static =>
    rw [if_pos ⟨hsystem.2 hmemory, hok hmemory⟩]
    refine ⟨_, h.leave { o with stat := .close, type := 0 } .gone (.inl halive) (.inr rfl) (by simp) (by simp) (by simp)
      hmemory rfl (hok hmemory) ?_ hsame rfl rfl rfl⟩
    simp [ReaperState.detach, ReaperState.close, ReaperState.setObject, hmemory]
  | heap =>
    have hno : ¬ (rtObjectIsSystemobject o = true ∧ o.cleanup = false) := by
      rintro ⟨hyes, -⟩
      cases hmemory.symm.trans (hsystem.1 hyes)
    rw [if_neg hno]
    have htype := ((h.thread t).objectOk o ht).heap hmemory
    exact ⟨_, h.bury { o with stat := .close } (.inl halive) hmemory htype.1 rfl rfl hsame rfl rfl rfl
      (.inl ⟨halive, rfl⟩)⟩

theorem ReaperInv.detach (h : ReaperInv trace s phase) (ht : s.thread t = some o) (hstat : o.stat ≠ .close)
    (hsystem : rtObjectIsSystemobject o = true) (hok : o.memory = .static → o.cleanup = false) :
    ReaperInv (trace ++ [.began t])
      { (s.close t o).detach t { o with stat := .close } with call := Function.update s.call t (some .detach) }
      (Function.update phase t .ending) := by
  have hmemory := (h.memory_alive ht hstat).1 hsystem
  refine h.leave { o with stat := .close, type := 0 } .ending (.inl (h.phase_alive ht hstat)) (.inl rfl) (by simp) (by simp)
    (by simp) hmemory rfl (hok hmemory) ?_ ?_ rfl rfl rfl
  · simp [ReaperState.detach, ReaperState.close, ReaperState.setObject]
  · simp

theorem ReaperInv.endCall {call : EndCall} (h : ReaperInv trace s phase) (ht : s.thread t = some o)
    (hcall : s.call t = some call) : ∃ phase', ReaperInv (trace ++ [.ended t]) (s.endCall t o call) phase' := by
  have hne : s.call t ≠ none := by
    rw [hcall]
    exact Option.some_ne_none call
  have hending := (h.thread t).call.1 hne
  have hobject := (h.thread t).objectOk o ht
  have hclosed := hobject.closed.2 (by rw [hending]; decide)
  have hsame : s.thread = Function.update s.thread t (some o) := by rw [← ht, Function.update_eq_self]
  cases hmemory : o.memory with
  | static =>
    obtain ⟨hdetach, hclean⟩ := (hobject.static hmemory).2.2 hending
    obtain rfl : .detach = call := Option.some.inj (hdetach.symm.trans hcall)
    have hend : s.endCall t o .detach = { s with call := Function.update s.call t none } := by
      simp [ReaperState.endCall, hclean]
    have hunlisted : s.objectList.erase t = s.objectList := List.erase_of_not_mem ((h.thread t).detached hdetach)
    rw [hend]
    exact ⟨_, h.leave o .gone (.inr hending) (.inr rfl) (by simp) (by simp) (by simp [hending]) hmemory hclosed hclean hsame
      rfl rfl hunlisted.symm rfl⟩
  | heap =>
    have hdelete := (hobject.heap hmemory).2.2 hending
    obtain rfl : .delete = call := Option.some.inj (hdelete.symm.trans hcall)
    exact ⟨_, h.bury o (.inr hending) hmemory (hobject.heap hmemory).1 hclosed hsame rfl rfl rfl rfl
      (.inr ⟨hending, rfl⟩)⟩

/-! ## The idle thread -/

def IdleAt.Free (i : IdleAt) : Prop := i = .test ∨ i = .locked

theorem ReaperInv.look {i : IdleAt} (h : ReaperInv trace s phase) (hbefore : s.idle.Free) (hafter : i.Free) :
    ReaperInv (trace ++ []) { s with idle := i } phase := by
  have hfree : ∀ {i : IdleAt}, i.Free → ∀ x, i ≠ .freeStack x ∧ i ≠ .deleteObject x := by
    rintro i (rfl | rfl) x <;> exact ⟨IdleAt.noConfusion, IdleAt.noConfusion⟩
  refine ⟨h.objectList, h.defunct, fun x => ?_⟩
  obtain ⟨hstack, hobject⟩ := hfree hbefore x
  obtain ⟨hstack', hobject'⟩ := hfree hafter x
  exact (h.thread x).frame rfl rfl Iff.rfl id (iff_of_false hstack' hstack) (iff_of_false hobject' hobject) (by simp)

theorem ReaperInv.heap_of_phase (h : ReaperInv trace s phase)
    (hp : phase t = .defunct ∨ phase t = .stack ∨ phase t = .object ∨ phase t = .freed) :
    ∃ o, s.thread t = some o ∧ o.memory = .heap ∧ o.type = classThread ∧ o.stat = .close := by
  have hok := h.thread t
  cases ht : s.thread t with
  | none =>
    rw [hok.unmade.1 ht] at hp
    simp at hp
  | some o =>
    have hobject := hok.objectOk o ht
    refine ⟨o, rfl, ?_⟩
    cases hmemory : o.memory with
    | static =>
      have hstatic := (hobject.static hmemory).1
      rcases hp with hp | hp | hp | hp <;> simp [hp] at hstatic
    | heap =>
      refine ⟨rfl, (hobject.heap hmemory).1, hobject.closed.2 ?_⟩
      rcases hp with hp | hp | hp | hp <;> simp [hp]

theorem ReaperInv.handle {i : IdleAt} (h : ReaperInv trace s phase) (ht : s.thread t = some o) (hheap : o.memory = .heap)
    (htype : o.type = classThread) (hclosed : o.stat = .close)
    (hp : p = .stack ∧ phase t = .defunct ∨ p = .object ∧ phase t = .stack)
    (hi : p = .stack ∧ i = .freeStack t ∨ p = .object ∧ i = .deleteObject t)
    (hdefunct : s'.defunct = s.defunct.erase t) (hthread : s'.thread = s.thread) (hcall : s'.call = s.call)
    (hlist : s'.objectList = s.objectList) (hidle : s'.idle = i)
    (hbefore : ∀ x ≠ t, s.idle ≠ .freeStack x ∧ s.idle ≠ .deleteObject x)
    (hstack : events.count (.freeStack t) = if p = .object then 1 else 0)
    (hevents : ∀ e ∈ events, e.thread = t ∧ e ≠ .freeObject t ∧ e ≠ .began t ∧ e ≠ .ended t) :
    ReaperInv (trace ++ events) s' (Function.update phase t p) := by
  have hok := h.thread t
  have hafter : ∀ x ≠ t, s'.idle ≠ .freeStack x ∧ s'.idle ≠ .deleteObject x := by
    intro x hx
    rw [hidle]
    rcases hi with ⟨-, rfl⟩ | ⟨-, rfl⟩ <;> simp [hx.symm]
  refine h.move t p (hlist ▸ h.objectList) (hdefunct ▸ h.defunct.erase t) (fun x _ => by rw [hthread])
    (fun x _ => by rw [hcall]) (fun x hx => ?_) (fun x _ => by rw [hlist]; exact id) (fun x hx => ?_)
    (fun e he => (hevents e he).1) ?_
  · rw [hdefunct, List.mem_erase_of_ne hx]
  · exact ⟨iff_of_false (hafter x hx).1 (hbefore x hx).1, iff_of_false (hafter x hx).2 (hbefore x hx).2⟩
  · have hfrees : events.count (.freeObject t) = 0 := List.count_eq_zero.2 fun hmem => (hevents _ hmem).2.1 rfl
    have hbegan : .began t ∈ trace ++ events ↔ .began t ∈ trace := by
      rw [List.mem_append]
      exact or_iff_left fun hmem => (hevents _ hmem).2.2.1 rfl
    have hended : .ended t ∈ trace ++ events ↔ .ended t ∈ trace := by
      rw [List.mem_append]
      exact or_iff_left fun hmem => (hevents _ hmem).2.2.2 rfl
    have hnot : t ∉ s'.defunct := by
      rw [hdefunct]
      exact h.defunct.not_mem_erase
    refine ⟨?_, ?_, ?_, ?_, ?_, ?_, ?_, ?_, ?_, fun _ => ?_, fun hdetach => ?_, fun o' ho => ?_⟩
    · rcases hp with ⟨rfl, -⟩ | ⟨rfl, -⟩ <;> simp [hthread, ht]
    · rw [hcall, hok.call]
      rcases hp with ⟨rfl, hp⟩ | ⟨rfl, hp⟩ <;> simp [hp]
    · refine iff_of_false hnot ?_
      rcases hp with ⟨rfl, -⟩ | ⟨rfl, -⟩ <;> simp
    · rw [hidle]
      rcases hi with ⟨rfl, rfl⟩ | ⟨rfl, rfl⟩ <;> simp
    · rw [hidle]
      rcases hi with ⟨rfl, rfl⟩ | ⟨rfl, rfl⟩ <;> simp
    · rw [List.count_append, hok.stackFrees, hstack]
      rcases hp with ⟨rfl, hp⟩ | ⟨rfl, hp⟩ <;> simp [hp]
    · rw [List.count_append, hok.objectFrees, hfrees]
      rcases hp with ⟨rfl, hp⟩ | ⟨rfl, hp⟩ <;> simp [hp]
    · rw [hbegan, hok.began]
      rcases hp with ⟨rfl, hp⟩ | ⟨rfl, hp⟩ <;> simp [hp]
    · rw [hended, hok.ended]
      rcases hp with ⟨rfl, hp⟩ | ⟨rfl, hp⟩ <;> simp [hp, Phase.Ended]
    · rcases hp with ⟨rfl, -⟩ | ⟨rfl, -⟩ <;> decide
    · rw [hlist]
      exact hok.detached (hcall ▸ hdetach)
    · obtain rfl : o = o' := by simpa [hthread, ht] using ho
      refine ⟨?_, ?_, fun _ => ⟨htype, ?_, ?_⟩, fun hstatic => ?_⟩
      · rcases hp with ⟨rfl, -⟩ | ⟨rfl, -⟩ <;> decide
      · rcases hp with ⟨rfl, -⟩ | ⟨rfl, -⟩ <;> simp [hclosed]
      · rcases hp with ⟨rfl, -⟩ | ⟨rfl, -⟩ <;> decide
      · rcases hp with ⟨rfl, -⟩ | ⟨rfl, -⟩ <;> simp
      · cases hheap.symm.trans hstatic

theorem ReaperInv.deleteObject (h : ReaperInv trace s phase) (hidle : s.idle = .deleteObject t)
    (hheap : o.memory = .heap) (hclosed : o.stat = .close) :
    ReaperInv (trace ++ [.freeObject t]) { s.detach t o with idle := .test } (Function.update phase t .freed) := by
  have hok := h.thread t
  have hp := hok.object.1 hidle
  refine h.move t .freed (h.objectList.erase t) h.defunct (fun x hx => setObject_other hx) (fun _ _ => rfl)
    (fun _ _ => Iff.rfl) (fun _ _ => List.mem_of_mem_erase) (fun x hx => ?_) (by simp [ReaperEvent.thread]) ?_
  · rw [hidle]
    simp [hx.symm]
  · have hunlisted : t ∉ s.objectList.erase t := h.objectList.not_mem_erase
    refine ⟨by simp [ReaperState.detach], ?_, ?_, by simp, by simp, ?_, ?_, ?_, ?_, fun hmem => absurd hmem hunlisted,
      fun _ => hunlisted, fun o' ho => ?_⟩
    · have hcall := hok.call
      rw [hp] at hcall
      simpa [ReaperState.detach] using hcall
    · have hdefunct := hok.defunct
      rw [hp] at hdefunct
      simpa [ReaperState.detach] using hdefunct
    · rw [List.count_append, hok.stackFrees, hp]
      simp
    · rw [List.count_append, hok.objectFrees, hp]
      simp
    · rw [List.mem_append, hok.began, hp]
      simp
    · rw [List.mem_append, hok.ended, hp]
      simp [Phase.Ended]
    · obtain rfl : ({ o with type := 0 } : ThreadObject) = o' := by simpa [ReaperState.detach] using ho
      refine ⟨by decide, by simp [hclosed], fun _ => ⟨rfl, by decide, by simp⟩, fun hstatic => ?_⟩
      cases hheap.symm.trans hstatic

def ReaperState.rank (s : ReaperState) : Nat :=
  match s.idle with
  | .test => 4 * s.defunct.length
  | .locked => max 1 (4 * s.defunct.length - 1)
  | .freeStack _ => 4 * s.defunct.length + 2
  | .deleteObject _ => 4 * s.defunct.length + 1

theorem ReaperInv.idle (h : ReaperInv trace s phase) :
    ∃ s' events phase', rtThreadIdleExcute s = some (s', events) ∧ ReaperInv (trace ++ events) s' phase' ∧
      (s.idle = .test ∧ s.defunct = [] ∨ s'.rank < s.rank) := by
  rw [rtThreadIdleExcute]
  cases hidle : s.idle with
  | test =>
    refine ⟨_, _, _, rfl, h.look (.inl hidle) ?_, ?_⟩
    · split_ifs
      · exact .inl rfl
      · exact .inr rfl
    · by_cases hempty : s.defunct = []
      · exact .inl ⟨rfl, hempty⟩
      · refine .inr ?_
        have hpos := List.length_pos_iff.2 hempty
        rw [if_neg hempty]
        simp only [ReaperState.rank, hidle]
        omega
  | locked =>
    cases hdefunct : s.defunct with
    | nil =>
      refine ⟨{ s with idle := .test }, [], phase, by rw [hdefunct], h.look (.inr hidle) (.inl rfl), .inr ?_⟩
      simp [ReaperState.rank, hidle, hdefunct]
    | cons t rest =>
      have hp : phase t = .defunct := (h.thread t).defunct.1 (hdefunct ▸ List.mem_cons_self)
      obtain ⟨o, ht, hheap, htype, hclosed⟩ := h.heap_of_phase (.inl hp)
      have hsystem := not_isSystem_heap htype
      refine ⟨_, _, Function.update phase t .stack, by dsimp only; rw [ht]; rfl, ?_, .inr ?_⟩
      · refine h.handle ht hheap htype hclosed (.inl ⟨rfl, hp⟩) (.inl ⟨rfl, rfl⟩) ?_ rfl rfl rfl (by simp [hsystem])
          (by simp [hidle]) ?_ ?_
        · rw [hdefunct, List.erase_cons_head]
        · cases o.cleanup <;> simp
        · cases o.cleanup <;> simp [ReaperEvent.thread]
      · simp only [ReaperState.rank, hidle, hdefunct, hsystem, List.length_cons]
        simp only [Bool.false_eq_true, if_false]
        omega
  | freeStack t =>
    have hp : phase t = .stack := (h.thread t).stack.1 hidle
    obtain ⟨o, ht, hheap, htype, hclosed⟩ := h.heap_of_phase (.inr (.inl hp))
    have hnot : t ∉ s.defunct := by
      rw [(h.thread t).defunct, hp]
      decide
    refine ⟨_, _, Function.update phase t .object, rfl, ?_, .inr ?_⟩
    · refine h.handle ht hheap htype hclosed (.inr ⟨rfl, hp⟩) (.inr ⟨rfl, rfl⟩) (List.erase_of_not_mem hnot).symm rfl rfl
        rfl rfl (fun x hx => ?_) (by simp) (by simp [ReaperEvent.thread])
      rw [hidle]
      simp [hx.symm]
    · simp [ReaperState.rank, hidle]
  | deleteObject t =>
    have hp : phase t = .object := (h.thread t).object.1 hidle
    obtain ⟨o, ht, hheap, htype, hclosed⟩ := h.heap_of_phase (.inr (.inr (.inl hp)))
    have hsystem := not_isSystem_heap htype
    refine ⟨_, _, Function.update phase t .freed, ?_, h.deleteObject hidle hheap hclosed, .inr ?_⟩
    · dsimp only
      rw [ht]
      simp [hsystem]
    · simp [ReaperState.rank, hidle, ReaperState.detach]

/-! ## Every run -/

theorem ReaperInv.step (h : ReaperInv trace s phase) (hok : EndsClean s op) (hs : stepReaper s op = some (s', events)) :
    ∃ phase', ReaperInv (trace ++ events) s' phase' := by
  cases op with
  | init t =>
    simp only [stepReaper] at hs
    split_ifs at hs with ht
    cases hs
    exact ⟨_, h.make ht (fun hno => (by cases hno)) fun _ => rfl⟩
  | create t =>
    simp only [stepReaper] at hs
    split_ifs at hs with ht
    cases hs
    exact ⟨_, h.make ht (fun _ => rfl) fun hno => (by cases hno)⟩
  | startup t =>
    obtain ⟨o, ht, hstep⟩ := Option.bind_eq_some_iff.1 hs
    split_ifs at hstep with hinit
    cases hstep
    exact ⟨_, h.setAlive ht (by rw [hinit]; decide) (by simp) rfl rfl⟩
  | setCleanup t cleanup =>
    obtain ⟨o, ht, hstep⟩ := Option.bind_eq_some_iff.1 hs
    split_ifs at hstep with hstat
    cases hstep
    exact ⟨_, h.setAlive ht hstat hstat rfl rfl⟩
  | exit t =>
    obtain ⟨o, ht, hstep⟩ := Option.bind_eq_some_iff.1 hs
    split_ifs at hstep with hready
    cases hstep
    exact h.exit ht (by rw [hready.1]; decide) (hok o ht)
  | detach t =>
    obtain ⟨o, ht, hstep⟩ := Option.bind_eq_some_iff.1 hs
    split_ifs at hstep with hguard
    cases hstep
    exact ⟨_, h.detach ht hguard.1 hguard.2.2 (hok o ht)⟩
  | delete t =>
    obtain ⟨o, ht, hstep⟩ := Option.bind_eq_some_iff.1 hs
    split_ifs at hstep with hguard
    cases hstep
    have hheap : o.memory = .heap := by
      cases hmemory : o.memory with
      | static => exact absurd ((h.memory_alive ht hguard.1).2 hmemory) hguard.2.2
      | heap => rfl
    exact ⟨_, h.delete ht hguard.1 hheap⟩
  | finish t =>
    obtain ⟨o, ht, hstep⟩ := Option.bind_eq_some_iff.1 hs
    obtain ⟨call, hcall, heq⟩ := Option.map_eq_some_iff.1 hstep
    cases heq
    exact h.endCall ht hcall
  | abandon t => exact absurd hok id
  | idle =>
    obtain ⟨s₁, events₁, phase', hidle, hinv, -⟩ := h.idle
    obtain ⟨rfl, rfl⟩ := Prod.mk.inj (Option.some.inj (hidle.symm.trans hs))
    exact ⟨phase', hinv⟩

end RtThread.Finished
