import RtThread.Kernel.Waiting

/-!
# Semaphores neither lose nor invent permits

A permit goes through the counter or straight from a release to the first waiter. The ledger of a semaphore counts both, from what the calls have shown.
-/

namespace RtThread

variable {cfg : Config} {k k' : Kernel} {v v' : View} {s : SemId} {t : ThreadId}

/-- What has happened to a semaphore since it was initialised or last reset. -/
structure SemLedger where
  initial : Nat
  released : Nat
  /-- Takes that have succeeded, a permit handed to a waiter counting from the release on. -/
  taken : Nat
  /-- The threads that were handed a permit and have not returned from their take. -/
  pending : List ThreadId
  deriving DecidableEq

def SemLedger.count (s : SemId) (l : SemLedger) : Event → SemLedger
  | .semTake s' t .eok => if s' = s ∧ ∀ u ∈ t, u ∉ l.pending then { l with taken := l.taken + 1 } else l
  | .semRelease s' woken =>
    if s' = s then { l with released := l.released + 1, taken := l.taken + woken.toList.length } else l
  | .semReset s' value => if s' = s then { l with initial := value, released := 0, taken := 0 } else l
  | _ => l

def SemLedger.record (s : SemId) (l : SemLedger) (event : Event) : SemLedger :=
  { l.count s event with pending := pendingAfter (.sem s) l.pending event }

def semLedger {cfg : Config} (setup : Setup cfg) (s : SemId) (trace : List Event) : SemLedger :=
  trace.foldl (SemLedger.record s) ⟨setup.semValue s, 0, 0, []⟩

theorem SemLedger.foldl_pending (s : SemId) (l : SemLedger) (events : List Event) :
    (events.foldl (SemLedger.record s) l).pending = events.foldl (pendingAfter (.sem s)) l.pending := by
  induction events generalizing l with
  | nil => rfl
  | cons event rest ih => exact ih (l.record s event)

def SemUse (k : Kernel) (op : Op) : Prop :=
  WaitUse k op ∧
  match op with
  | .semRelease s => k.tlist (.suspend (.sem s)) = [] → (k.sem s).value < 65535
  | .semReset _ value => value ≤ 65535
  | _ => True

instance (k : Kernel) (op : Op) : Decidable (SemUse k op) := by
  induction op using Op.casesOn <;> dsimp only [SemUse] <;> infer_instance

/-! ## The counter -/

variable {l : SemLedger}

structure SemInv (s : SemId) (l : SemLedger) (v : View) : Prop where
  noWaiters : 0 < (v.sem s).value → v.waiters (.sem s) = []
  value_le : (v.sem s).value ≤ 65535
  balance : l.taken + (v.sem s).value = l.initial + l.released

theorem SemInv.keep {l' : SemLedger} (h : SemInv s l v) (hsem : v'.sem s = v.sem s)
    (hwaiters : 0 < (v.sem s).value → v.waiters (.sem s) = [] → v'.waiters (.sem s) = [])
    (hinitial : l'.initial = l.initial) (hreleased : l'.released = l.released) (htaken : l'.taken = l.taken) :
    SemInv s l' v' where
  noWaiters hvalue := by
    rw [hsem] at hvalue
    exact hwaiters hvalue (h.noWaiters hvalue)
  value_le := hsem ▸ h.value_le
  balance := by
    rw [hsem, hinitial, hreleased, htaken]
    exact h.balance

theorem SemInv.unlink (h : SemInv s l v) (t : ThreadId) : SemInv s l (v.unlink t) :=
  h.keep rfl (fun _ hnil => by
    change (v.waiters (.sem s)).erase t = []
    rw [hnil]
    rfl) rfl rfl rfl

theorem SemInv.count {l' : SemLedger} {f : Sem → Sem} (hwaiters : v.waiters (.sem s) = [])
    (hvalue : (f (v.sem s)).value ≤ 65535) (hbalance : l'.taken + (f (v.sem s)).value = l'.initial + l'.released) :
    SemInv s l' (v.setSem s f) where
  noWaiters _ := hwaiters
  value_le := by
    rw [View.setSem_self]
    exact hvalue
  balance := by
    rw [View.setSem_self]
    exact hbalance

theorem SemLedger.count_other {s' : SemId} (hs : s' ≠ s) (l : SemLedger) :
    (∀ t result, l.count s (.semTake s' t result) = l) ∧ (∀ woken, l.count s (.semRelease s' woken) = l) ∧
      ∀ value, l.count s (.semReset s' value) = l := by
  refine ⟨fun t result => ?_, fun woken => ?_, fun value => ?_⟩
  · cases result <;> simp [SemLedger.count, hs]
  · simp [SemLedger.count, hs]
  · simp [SemLedger.count, hs]

theorem SemLedger.count_take {t : Option ThreadId} (ht : ∀ u ∈ t, u ∉ l.pending) :
    l.count s (.semTake s t .eok) = { l with taken := l.taken + 1 } :=
  if_pos ⟨rfl, ht⟩

theorem SemLedger.count_return {result : RtErr} (ht : result = .eok → t ∈ l.pending) :
    l.count s (.semTake s (some t) result) = l := by
  cases result with
  | eok => exact if_neg fun hboth => hboth.2 t rfl (ht rfl)
  | _ => rfl

theorem SemInv.record {event : Event} (h : SemInv s (l.count s event) v) :
    SemInv s ([event].foldl (SemLedger.record s) l) v :=
  ⟨h.noWaiters, h.value_le, h.balance⟩

theorem SemInv.step {op : Op} {events : List Event} (hk : KernelInv cfg k) (hlock : k.lockNest = 0)
    (hwait : WaitInv (.sem s) l.pending k.view) (h : SemInv s l k.view) (hok : SemUse k op)
    (hstep : ViewStep cfg k.current k.view op events v') : SemInv s (events.foldl (SemLedger.record s) l) v' := by
  have hother {s' : SemId} (hs : s' ≠ s) (f : Sem → Sem) : SemInv s l (k.view.setSem s' f) :=
    h.keep (k.view.setSem_ne f (Ne.symm hs)) (fun _ hnil => hnil) rfl rfl rfl
  have hbalance := h.balance
  have hle := h.value_le
  have hthread {w : View} (hw : SemInv s l w) (t : ThreadId) (f : Thread → Thread) : SemInv s l (w.setThread t f) :=
    ⟨hw.noWaiters, hw.value_le, hw.balance⟩
  have hidle {t : ThreadId} (hcall : k.view.AtCall t) : t ∉ l.pending :=
    fun hmem => k.view.taking_none hcall.2 _ (hwait.handed t hmem).1
  cases hstep with
  | startup t => exact hthread (h.unlink t) t _
  | resume t => exact hthread (h.unlink t) t _
  | timeout t => exact hthread (h.unlink t) t _
  | close op t => exact hthread (h.unlink t) t _
  | semTake s' time t hcall hvalue =>
    refine SemInv.record ?_
    by_cases hs : s' = s
    · subst hs
      rw [SemLedger.count_take fun u hu => hidle (hcall u hu)]
      refine SemInv.count (h.noWaiters hvalue) ?_ ?_ <;> dsimp only <;> omega
    · rw [(SemLedger.count_other hs l).1]
      exact hother hs _
  | semTakeFails s' t => exact SemInv.record h
  | semTakeBlocks s' time t hcall hvalue =>
    refine h.keep rfl (fun hpos hnil => ?_) rfl rfl rfl
    by_cases hs : s' = s
    · subst hs
      omega
    · rw [View.block_waiters_ne _ (by simpa using Ne.symm hs)]
      exact hnil
  | semTakeReturns s' t hcall hready =>
    refine SemInv.record ?_
    by_cases hs : s' = s
    · subst hs
      have hnot : t ∉ k.view.waiters (.sem s') := by
        intro hmem
        rw [show (k.view.thread t).stat = .suspend from hk.lists.suspend _ t hmem] at hready
        exact hready.elim (by simp) fun hlocked => hlocked hlock
      rw [SemLedger.count_return ((hwait.woken t (View.taking_of_call hcall) hnot).2).2]
      exact ⟨h.noWaiters, h.value_le, h.balance⟩
    · rw [(SemLedger.count_other hs l).1]
      exact ⟨h.noWaiters, h.value_le, h.balance⟩
  | semReleaseWakes s' t rest hwaiters =>
    have hwoken := hthread (h.unlink t) t fun thread => { thread with stat := .ready, timer := false }
    refine SemInv.record ?_
    by_cases hs : s' = s
    · subst hs
      have hcount : l.count s' (.semRelease s' (some t)) =
          { l with released := l.released + 1, taken := l.taken + 1 } := if_pos rfl
      rw [hcount]
      refine ⟨hwoken.noWaiters, hwoken.value_le, ?_⟩
      change l.taken + 1 + (k.view.sem s').value = l.initial + (l.released + 1)
      omega
    · rw [(SemLedger.count_other hs l).2.1]
      exact hwoken
  | semReleaseCounts s' hwaiters =>
    refine SemInv.record ?_
    by_cases hs : s' = s
    · subst hs
      have hlt : (k.view.sem s').value < 65535 := hok.2 hwaiters
      have hcount : l.count s' (.semRelease s' none) = { l with released := l.released + 1 } := if_pos rfl
      rw [hcount]
      refine SemInv.count hwaiters ?_ ?_ <;> dsimp only <;> omega
    · rw [(SemLedger.count_other hs l).2.1]
      exact hother hs _
  | semReset s' value =>
    have hvalue : value ≤ 65535 := hok.2
    refine SemInv.record ?_
    by_cases hs : s' = s
    · subst hs
      have hcount : l.count s' (.semReset s' value) = { l with initial := value, released := 0, taken := 0 } :=
        if_pos rfl
      rw [hcount]
      refine SemInv.count (Function.update_self ..) ?_ ?_ <;> dsimp only <;> omega
    · rw [(SemLedger.count_other hs l).2.2]
      refine h.keep (View.setSem_ne _ _ (Ne.symm hs)) (fun _ hnil => ?_) rfl rfl rfl
      exact (View.wakeAll_waiters_ne _ (by simpa using Ne.symm hs)).trans hnil
  | mutexTakeBlocks m time t owner =>
    have hsem := View.inherit_sem cfg (k.view.clearError t) owner (k.view.thread t).currentPriority
    have hwaiters := View.inherit_waiters cfg (k.view.clearError t) owner (k.view.thread t).currentPriority
    refine h.keep (congrFun hsem s) (fun _ hnil => ?_) rfl rfl rfl
    rw [View.block_waiters_ne _ (by simp), hwaiters]
    exact hnil
  | mutexReleaseHandOff m t next =>
    have hlet : SemInv s l (k.view.letGo cfg m t) :=
      h.keep (congrFun (View.letGo_sem ..) s) (fun _ hnil => (congrFun (View.letGo_waiters ..) _).trans hnil) rfl rfl rfl
    have howned : SemInv s l ((k.view.letGo cfg m t).own m next (k.view.mutex m).value) :=
      ⟨hlet.noWaiters, hlet.value_le, hlet.balance⟩
    exact SemInv.record (hthread (howned.unlink next) next _)
  | mutexReleaseFree m t =>
    refine SemInv.record (h.keep (congrFun (View.letGo_sem ..) s) (fun _ hnil => ?_) rfl rfl rfl)
    exact (congrFun (View.letGo_waiters ..) _).trans hnil
  | _ => exact ⟨h.noWaiters, h.value_le, h.balance⟩

/-! ## Every run -/

variable {setup : Setup cfg} {trace : List Event}

theorem semLedger_pending (setup : Setup cfg) (s : SemId) (trace : List Event) :
    (semLedger setup s trace).pending = pendingThreads (.sem s) trace :=
  SemLedger.foldl_pending s _ trace

theorem KernelRun.semInv (hrun : KernelRun SemUse setup trace k) (hvalue : ∀ s, setup.semValue s ≤ 65535)
    (s : SemId) : Waiting trace k.view ∧ SemInv s (semLedger setup s trace) k.view := by
  refine hrun.wait_invariant (I := fun trace v => SemInv s (semLedger setup s trace) v) (fun _ _ hok => hok.1) ?_ ?_
  · have hcounter : ((Kernel.boot setup).view.sem s).value = setup.semValue s :=
      Nat.mod_eq_of_lt (Nat.lt_succ_of_le (hvalue s))
    refine ⟨fun _ => rfl, ?_, ?_⟩
    · rw [hcounter]
      exact hvalue s
    · rw [hcounter]
      exact Nat.zero_add _
  · intro trace k op events v' hk hwait hinv hok hstep
    have hpending := hwait.2 (.sem s)
    rw [← semLedger_pending setup] at hpending
    have hnext := SemInv.step hk hwait.1 hpending hinv hok hstep
    unfold semLedger at hnext ⊢
    rwa [List.foldl_append]

def WakesOne (s : SemId) (k k' : Kernel) (events : List Event) : Prop :=
  ∃ t rest, k.tlist (.suspend (.sem s)) = t :: rest ∧ k'.tlist (.suspend (.sem s)) = rest ∧
    (k'.thread t).stat = .ready ∧ (∀ u, u ≠ t → (k'.thread u).stat = (k.thread u).stat) ∧
    (k'.sem s).value = (k.sem s).value ∧ events = [.semRelease s (some t)]

def CountsOne (s : SemId) (k k' : Kernel) (events : List Event) : Prop :=
  k.tlist (.suspend (.sem s)) = [] ∧ (∀ u, (k'.thread u).stat = (k.thread u).stat) ∧
    (k'.sem s).value = (k.sem s).value + 1 ∧ events = [.semRelease s none]

theorem KernelInv.semRelease (hk : KernelInv cfg k) {events : List Event} (hok : SemUse k (.semRelease s))
    (hstep : RtThread.step cfg k (.semRelease s) = some (k', events)) :
    WakesOne s k k' events ∨ CountsOne s k k' events := by
  obtain ⟨v', hv', -, rfl⟩ := (hk.step hstep).view
  generalize hv : k'.view = v' at hv'
  have hthread (u : ThreadId) : k'.thread u = v'.thread u := congrFun (congrArg View.thread hv) u
  have hsem : k'.sem s = v'.sem s := congrFun (congrArg View.sem hv) s
  have hlist : k'.tlist (.suspend (.sem s)) = v'.waiters (.sem s) := congrFun (congrArg View.waiters hv) (.sem s)
  cases hv' with
  | silent _ hop => exact hop.elim
  | close _ t _ _ hop => simp at hop
  | semReleaseWakes _ t rest hwaiters =>
    refine .inl ⟨t, rest, hwaiters, ?_, ?_, fun u hu => ?_, ?_, rfl⟩
    · rw [hlist]
      change (k.view.waiters (.sem s)).erase t = rest
      rw [hwaiters, List.erase_cons_head]
    · rw [hthread, View.wake, View.setThread_self]
    · rw [hthread, View.wake, View.setThread_ne _ _ hu]
      rfl
    · rw [hsem]
      rfl
  | semReleaseCounts _ hwaiters =>
    refine .inr ⟨hwaiters, fun u => ?_, ?_, rfl⟩
    · rw [hthread]
      rfl
    · have hlt : (k.sem s).value + 1 < 65536 := Nat.succ_lt_succ (hok.2 hwaiters)
      rw [hsem, View.setSem_self]
      exact Nat.mod_eq_of_lt hlt

theorem WaitInv.sem_return {pending : List ThreadId} (h : WaitInv (.sem s) pending k.view) (hk : KernelInv cfg k)
    (ht : t ∈ pending) {op : Op} {events : List Event} {result : RtErr}
    (hstep : RtThread.step cfg k op = some (k', events)) (hevent : .semTake s (some t) result ∈ events) :
    result = .eok := by
  obtain ⟨htaking, hnot⟩ := h.handed t ht
  obtain ⟨v', hv', -⟩ := (hk.step hstep).view
  cases hv' <;> simp only [List.mem_singleton, List.not_mem_nil, reduceCtorEq, Event.semTake.injEq] at hevent
  case semTake => exact hevent.2.2
  case semTakeFails hcall _ => exact absurd htaking (View.taking_none (hcall t hevent.2.1.symm).2 _)
  case semTakeReturns u hu _ =>
    obtain ⟨-, htu, rfl⟩ := hevent
    obtain rfl := Option.some.inj htu
    exact ((h.woken t htaking hnot).2).1 ht

structure SemConserved {cfg : Config} (setup : Setup cfg) (s : SemId) (trace : List Event) (k : Kernel) : Prop where
  noWaiters : 0 < (k.sem s).value → k.tlist (.suspend (.sem s)) = []
  /-- Since the last reset, the successful takes and the counter make up the initial value and the releases. -/
  balance : (semLedger setup s trace).taken + (k.sem s).value =
    (semLedger setup s trace).initial + (semLedger setup s trace).released
  /-- A release wakes exactly one waiter or raises the counter by one. -/
  release : ∀ k' events, SemUse k (.semRelease s) → step cfg k (.semRelease s) = some (k', events) →
    WakesOne s k k' events ∨ CountsOne s k k' events
  /-- A thread that has been handed a permit is ready, in its take, and returns from it with `RT_EOK`. -/
  pending : ∀ t ∈ (semLedger setup s trace).pending, (k.thread t).stat = .ready ∧ k.view.taking t = some (.sem s) ∧
    ∀ op k' events result, step cfg k op = some (k', events) → .semTake s (some t) result ∈ events → result = .eok

theorem semConserved_of_run (hvalue : ∀ s, setup.semValue s ≤ 65535) (hrun : KernelRun SemUse setup trace k)
    (s : SemId) : SemConserved setup s trace k := by
  obtain ⟨hwaiting, hinv⟩ := hrun.semInv hvalue s
  have hwait := hwaiting.2 (.sem s)
  refine ⟨hinv.noWaiters, hinv.balance, fun k' events hok hstep => hrun.inv.semRelease hok hstep, fun t ht => ?_⟩
  rw [semLedger_pending] at ht
  obtain ⟨htaking, hnot⟩ := hwait.handed t ht
  exact ⟨(hwait.woken t htaking hnot).1, htaking, fun op k' events result hstep hevent =>
    hwait.sem_return hrun.inv ht hstep hevent⟩

/-- A thread waits and its timer expires; it waits again and a release hands it a permit; another release is counted. -/
theorem semConserved_of_run_handOff : ∃ trace k, KernelRun SemUse (.ofPriorities [31, 20]) trace k ∧
    (semLedger (.ofPriorities [31, 20]) 0 trace).pending = [] ∧ (semLedger (.ofPriorities [31, 20]) 0 trace).taken = 1 ∧
    (k.sem 0).value = 1 ∧ SemConserved (.ofPriorities [31, 20]) 0 trace k := by
  obtain ⟨trace, k, hrun, hfound⟩ := exists_kernelRun (.ofPriorities [31, 20]) SemUse
    [.startup 0, .startup 1, .schedulerStart, .semTake 0 10, .timeout 1, .finish, .semTake 0 (-1), .semRelease 0, .finish,
      .semRelease 0]
    (fun trace k => decide ((semLedger (.ofPriorities [31, 20]) 0 trace).pending = [] ∧
      (semLedger (.ofPriorities [31, 20]) 0 trace).taken = 1 ∧ (k.sem 0).value = 1)) (by decide +kernel)
  obtain ⟨hpending, htaken, hcounter⟩ := of_decide_eq_true hfound
  exact ⟨trace, k, hrun, hpending, htaken, hcounter, semConserved_of_run (fun _ => Nat.zero_le _) hrun 0⟩

/-! ## The width of the counter -/

inductive SemMoves (s : SemId) (value value' : Nat) (waiters : List ThreadId) : Op → List Event → Prop
  | stays {op : Op} {events : List Event} (hop : op = .semRelease s → waiters ≠ []) (hvalue : value' = value) :
      SemMoves s value value' waiters op events
  | takes {time : Int} {t : Option ThreadId} (hvalue : value' + 1 = value) :
      SemMoves s value value' waiters (.semTake s time) [.semTake s t .eok]
  | counts (hwaiters : waiters = []) (hvalue : value' = (value + 1) % 65536) :
      SemMoves s value value' waiters (.semRelease s) [.semRelease s none]
  | resets {reset : Nat} (hvalue : value' = reset % 65536) :
      SemMoves s value value' waiters (.semReset s reset) [.semReset s reset]

theorem ViewStep.semMoves {self : Option ThreadId} {op : Op} {events : List Event} (hstep : ViewStep cfg self v op events v') (s : SemId) :
    SemMoves s (v.sem s).value (v'.sem s).value (v.waiters (.sem s)) op events := by
  have hother {s' : SemId} (hs : s' ≠ s) (w : View) (f : Sem → Sem) : ((w.setSem s' f).sem s).value = (w.sem s).value := by
    rw [View.setSem_ne _ _ (Ne.symm hs)]
  cases hstep with
  | silent op hop =>
    refine .stays (fun heq => ?_) rfl
    rw [heq] at hop
    exact hop.elim
  | close op t isThread isStatic hop =>
    refine .stays (fun heq => ?_) rfl
    rw [heq] at hop
    simp at hop
  | semTake s' time t hcall hvalue =>
    by_cases hs : s' = s
    · subst hs
      refine .takes ?_
      rw [View.setSem_self]
      exact Nat.sub_add_cancel hvalue
    · exact .stays (fun heq => nomatch heq) (hother hs _ _)
  | semReleaseWakes s' t rest hwaiters =>
    refine .stays (fun heq => ?_) rfl
    rw [← Op.semRelease.inj heq, hwaiters]
    exact List.cons_ne_nil t rest
  | semReleaseCounts s' hwaiters =>
    by_cases hs : s' = s
    · subst hs
      exact .counts hwaiters (by rw [View.setSem_self])
    · exact .stays (fun heq => absurd (Op.semRelease.inj heq) hs) (hother hs _ _)
  | semReset s' value =>
    by_cases hs : s' = s
    · subst hs
      exact .resets (by rw [View.setSem_self])
    · exact .stays (fun heq => nomatch heq) (hother hs _ _)
  | mutexTakeBlocks m time t owner =>
    refine .stays (fun heq => nomatch heq) ?_
    exact congrArg Sem.value (congrFun (View.inherit_sem cfg (v.clearError t) owner (v.thread t).currentPriority) s)
  | mutexReleaseHandOff m t next =>
    refine .stays (fun heq => nomatch heq) ?_
    exact congrArg Sem.value (congrFun (View.letGo_sem cfg v m t) s)
  | mutexReleaseFree m t =>
    refine .stays (fun heq => nomatch heq) ?_
    exact congrArg Sem.value (congrFun (View.letGo_sem cfg v m t) s)
  | _ => exact .stays (fun heq => nomatch heq) rfl

theorem KernelRun.semValue_lt {ok : Kernel → Op → Prop} (hrun : KernelRun ok setup trace k) (s : SemId) : (k.sem s).value < 65536 := by
  refine hrun.view_invariant (I := fun _ v => (v.sem s).value < 65536) (Nat.mod_lt _ (by decide)) ?_
  intro trace k op events v' _ hlt _ hstep
  cases hstep.semMoves s with
  | stays _ hvalue => omega
  | takes hvalue => omega
  | counts _ hvalue => omega
  | resets hvalue => omega

/-- `rt_sem_release` returns `RT_EOK` at its only end. -/
def semReleaseResult : RtErr := .eok

/-- Permits are not lost in the counter: a release without waiters raises it, or fails and leaves it; besides that a take lowers it by the permit it takes, and a reset sets it. -/
def CounterKept (s : SemId) (k k' : Kernel) (events : List Event) : Op → Prop
  | .semRelease s' =>
    if s' = s ∧ k.tlist (.suspend (.sem s)) = [] then
      (k.sem s).value < (k'.sem s).value ∨ semReleaseResult ≠ .eok ∧ (k'.sem s).value = (k.sem s).value
    else (k'.sem s).value = (k.sem s).value
  | .semTake s' _ =>
    (k'.sem s).value = (k.sem s).value ∨ s' = s ∧ (∃ t, events = [.semTake s t .eok]) ∧ (k'.sem s).value + 1 = (k.sem s).value
  | .semReset s' _ => s' = s ∨ (k'.sem s).value = (k.sem s).value
  | _ => (k'.sem s).value = (k.sem s).value

def Overflows (s : SemId) (k : Kernel) (op : Op) : Prop :=
  op = .semRelease s ∧ k.tlist (.suspend (.sem s)) = [] ∧ (k.sem s).value = 65535

/-- For every step that a run can take. -/
theorem semField_of_run {ok : Kernel → Op → Prop} {op : Op} {events : List Event} (hrun : KernelRun ok setup trace k) (s : SemId)
    (hstep : step cfg k op = some (k', events)) : CounterKept s k k' events op ↔ ¬ Overflows s k op := by
  have hlt := hrun.semValue_lt s
  obtain ⟨v', hv', -, rfl⟩ := (hrun.inv.step hstep).view
  have hmoves : SemMoves s (k.sem s).value (k'.sem s).value (k.tlist (.suspend (.sem s))) op events := hv'.semMoves s
  unfold Overflows
  cases hmoves with
  | stays hop hvalue =>
    refine iff_of_true ?_ fun hover => hop hover.1 hover.2.1
    cases op with
    | semRelease s' =>
      rw [CounterKept, if_neg]
      · exact hvalue
      · rintro ⟨rfl, hnone⟩
        exact hop rfl hnone
    | semTake => exact .inl hvalue
    | semReset => exact .inr hvalue
    | _ => exact hvalue
  | @takes time t hvalue => exact iff_of_true (.inr ⟨rfl, ⟨t, rfl⟩, hvalue⟩) fun hover => nomatch hover.1
  | resets hvalue => exact iff_of_true (.inl rfl) fun hover => nomatch hover.1
  | counts hwaiters hvalue =>
    rw [CounterKept, if_pos ⟨rfl, hwaiters⟩]
    constructor
    · rintro (hraised | ⟨hfails, -⟩) ⟨-, -, hlimit⟩
      · omega
      · exact hfails rfl
    · intro hfits
      have hne : (k.sem s).value ≠ 65535 := fun hlimit => hfits ⟨rfl, hwaiters, hlimit⟩
      exact .inl (by omega)

/-- The last permit that the counter holds is taken back by a reset, and a release counts one. -/
theorem semField_of_run_reset : ∃ trace k k' events, KernelRun (fun _ _ => True) (.ofPriorities [31]) trace k ∧ (k.sem 0).value = 65534 ∧
    step ⟨32, by decide⟩ k (.semRelease 0) = some (k', events) ∧ (CounterKept 0 k k' events (.semRelease 0) ↔ ¬ Overflows 0 k (.semRelease 0)) := by
  obtain ⟨trace, k, hrun, hfound⟩ := exists_kernelRun (.ofPriorities [31]) (fun _ _ => True)
    [.startup 0, .schedulerStart, .semReset 0 131070]
    (fun _ k => decide ((k.sem 0).value = 65534 ∧ (step ⟨32, by decide⟩ k (.semRelease 0)).isSome)) (by decide +kernel)
  obtain ⟨hvalue, hsome⟩ := of_decide_eq_true hfound
  obtain ⟨⟨k', events⟩, hstep⟩ := Option.isSome_iff_exists.1 hsome
  exact ⟨trace, k, k', events, hrun, hvalue, hstep, semField_of_run hrun 0 hstep⟩

/-- All the permits that the counter holds are lost with one more release. -/
theorem semField_lost : ∃ trace k k' events, KernelRun (fun _ _ => True) (.ofPriorities [31]) trace k ∧ (k.sem 0).value = 65535 ∧
    step ⟨32, by decide⟩ k (.semRelease 0) = some (k', events) ∧ (k'.sem 0).value = 0 ∧ ¬ CounterKept 0 k k' events (.semRelease 0) := by
  obtain ⟨trace, k, hrun, hfound⟩ := exists_kernelRun (.ofPriorities [31]) (fun _ _ => True)
    [.startup 0, .schedulerStart, .semReset 0 65534, .semRelease 0]
    (fun _ k => decide ((k.sem 0).value = 65535 ∧ k.tlist (.suspend (.sem 0)) = [] ∧
      ((step ⟨32, by decide⟩ k (.semRelease 0)).map fun r => (r.1.sem 0).value) = some 0)) (by decide +kernel)
  obtain ⟨hvalue, hnone, hmap⟩ := of_decide_eq_true hfound
  obtain ⟨⟨k', events⟩, hstep, hzero⟩ := Option.map_eq_some_iff.1 hmap
  refine ⟨trace, k, k', events, hrun, hvalue, hstep, hzero, ?_⟩
  rw [CounterKept, if_pos ⟨rfl, hnone⟩, hvalue, hzero]
  rintro (hraised | ⟨hfails, -⟩)
  · cases hraised
  · exact hfails rfl

end RtThread
