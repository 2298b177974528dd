import RtThread.Lib.Transition

/-!
# Work queues

`workqueue.c`. A worker thread looks whether the list is empty, suspends itself if it is, and then takes the first work item in a critical section and runs its function. `rt_workqueue_dowork` appends an item in one critical section and resumes the worker behind it if the worker has no current item. Items are cancelled at any time.

The calls and the worker alternate between their critical sections. The worker does not look at the list again after it has been resumed, and it takes what the header points to, which is the header itself where the list is empty.
-/

namespace RtThread

abbrev WorkId := Nat

/-- What `work_list.next` points into. -/
inductive WorkNode
  | work (w : WorkId)
  | head
  deriving DecidableEq

structure WorkQueue where
  workList : List WorkId
  workCurrent : Option WorkNode

/-- Where `_workqueue_thread_entry` is. -/
inductive WorkerAt
  | isempty
  | suspend
  | schedule
  /-- "we have work to do with" -/
  | dequeue
  | work
  | completion
  deriving DecidableEq

structure WorkqueueState where
  queue : WorkQueue
  worker : WorkerAt
  /-- The status of the worker: `RT_THREAD_SUSPEND` or `RT_THREAD_READY`. -/
  suspended : Bool
  /-- How many calls have appended an item and have yet to resume the worker. -/
  resumers : Nat

inductive WorkOp
  | dowork (w : WorkId)
  | criticalWork (w : WorkId)
  /-- Such a call goes on to `rt_thread_resume`. -/
  | resume
  | cancelWork (w : WorkId)
  | cancelAllWork
  | proceed
  /-- The function of the item waits for something, and goes on. -/
  | block
  | unblock
  deriving DecidableEq

inductive WorkEvent
  | queued (w : WorkId)
  /-- `-RT_EBUSY` -/
  | busy (w : WorkId)
  | cancelled (w : WorkId)
  /-- The worker has taken a node out of the list and runs its function. -/
  | started (node : WorkNode)
  | finished
  deriving DecidableEq

/-- The critical section of `rt_workqueue_dowork`, and whether it is followed by `rt_thread_resume`; nothing for `-RT_EBUSY`. -/
def rtWorkqueueDowork (queue : WorkQueue) (work : WorkId) : Option (WorkQueue × Bool) :=
  if queue.workCurrent = some (.work work) then none
  else some ({ queue with workList := queue.workList.erase work ++ [work] }, queue.workCurrent.isNone)

/-- `rt_workqueue_critical_work` is the same. -/
def rtWorkqueueCriticalWork (queue : WorkQueue) (work : WorkId) : Option (WorkQueue × Bool) :=
  rtWorkqueueDowork queue work

/-- `rt_workqueue_cancel_work`; nothing for `-RT_EBUSY`. -/
def rtWorkqueueCancelWork (queue : WorkQueue) (work : WorkId) : Option WorkQueue :=
  if queue.workCurrent = some (.work work) then none else some { queue with workList := queue.workList.erase work }

def rtWorkqueueCancelAllWork (queue : WorkQueue) : WorkQueue := { queue with workList := [] }

def WorkQueue.dequeue (queue : WorkQueue) : WorkNode × WorkQueue :=
  match queue.workList with
  | [] => (.head, { queue with workCurrent := some .head })
  | w :: rest => (.work w, ⟨rest, some (.work w)⟩)

def WorkqueueState.submit (s : WorkqueueState) (work : WorkId) : Option (WorkQueue × Bool) → WorkqueueState × List WorkEvent
  | none => (s, [.busy work])
  | some (queue, resumes) =>
    ({ s with queue, resumers := if resumes then s.resumers + 1 else s.resumers }, [.queued work])

/-- `_workqueue_thread_entry`. The completion semaphore has no effect on the list. -/
def WorkqueueState.proceed (s : WorkqueueState) : WorkqueueState × List WorkEvent :=
  match s.worker with
  | .isempty => ({ s with worker := if s.queue.workList = [] then .suspend else .dequeue }, [])
  | .suspend => ({ s with worker := .schedule, suspended := true }, [])
  | .schedule => ({ s with worker := .dequeue }, [])
  | .dequeue => ({ s with queue := s.queue.dequeue.2, worker := .work }, [.started s.queue.dequeue.1])
  | .work => ({ s with queue := { s.queue with workCurrent := none }, worker := .completion }, [.finished])
  | .completion => ({ s with worker := .isempty }, [])

def stepWorkqueue (s : WorkqueueState) : WorkOp → Option (WorkqueueState × List WorkEvent)
  | .dowork w => some (s.submit w (rtWorkqueueDowork s.queue w))
  | .criticalWork w => some (s.submit w (rtWorkqueueCriticalWork s.queue w))
  | .resume => if 0 < s.resumers then some ({ s with suspended := false, resumers := s.resumers - 1 }, []) else none
  | .cancelWork w =>
    match rtWorkqueueCancelWork s.queue w with
    | none => some (s, [.busy w])
    | some queue => some ({ s with queue }, [.cancelled w])
  | .cancelAllWork => some ({ s with queue := rtWorkqueueCancelAllWork s.queue }, s.queue.workList.map .cancelled)
  | .proceed => if s.suspended then none else some s.proceed
  | .block => if s.worker = .work then some ({ s with suspended := true }, []) else none
  | .unblock => if s.worker = .work then some ({ s with suspended := false }, []) else none

def WorkqueueState.create : WorkqueueState := ⟨⟨[], none⟩, .isempty, false, 0⟩

/-! ## What the trace tells -/

def QueuedBy (trace : List WorkEvent) (w : WorkId) : Bool :=
  trace.foldl (fun queued e =>
    match e with
    | .queued w' => queued || decide (w = w')
    | .cancelled w' => queued && decide (w ≠ w')
    | .started node => queued && decide (node ≠ .work w)
    | _ => queued) false

def StartsQueued (trace : List WorkEvent) : Prop :=
  ∀ before node after, trace = before ++ .started node :: after → ∃ w, node = .work w ∧ QueuedBy before w

def WorkqueueState.TakesNext (s : WorkqueueState) : Prop := s.worker = .dequeue ∨ s.worker = .schedule ∧ s.suspended = false

instance (s : WorkqueueState) : Decidable s.TakesNext := inferInstanceAs (Decidable (_ ∨ _))

def WorkqueueState.Sleeps (s : WorkqueueState) : Prop := s.worker = .schedule ∧ s.suspended

instance (s : WorkqueueState) : Decidable s.Sleeps := inferInstanceAs (Decidable (_ ∧ _))

/-- The worker suspends itself only where the list is empty or it will be resumed, and is resumed only where the list is not empty; and no call cancels the last item when the worker is about to take one. -/
def WorkKept (s : WorkqueueState) : WorkOp → Prop
  | .proceed => s.worker = .suspend → s.queue.workList = [] ∨ 0 < s.resumers
  | .resume => s.Sleeps → s.queue.workList ≠ []
  | .cancelWork w => s.TakesNext → s.queue.workList ≠ [w]
  | .cancelAllWork => ¬ s.TakesNext
  | _ => True

instance (s : WorkqueueState) (op : WorkOp) : Decidable (WorkKept s op) := by
  unfold WorkKept
  split <;> infer_instance

abbrev WorkqueueRun (ok : WorkqueueState → WorkOp → Prop) : List WorkEvent → WorkqueueState → Prop :=
  Transition.Run stepWorkqueue ok .create

theorem exists_workqueueRun (ok : WorkqueueState → WorkOp → Prop) [∀ s op, Decidable (ok s op)] (ops : List WorkOp)
    (found : List WorkEvent → WorkqueueState → Bool)
    (h : ((Transition.exec stepWorkqueue ok .create ops).any fun r => found r.1 r.2) = true) :
    ∃ trace s, WorkqueueRun ok trace s ∧ found trace s = true :=
  Transition.exists_run_of_exec ops found h

/-! ## The invariant -/

variable {trace events : List WorkEvent} {s s' : WorkqueueState} {op : WorkOp} {w x : WorkId} {node : WorkNode}
  {queue : WorkQueue}

theorem queuedBy_append (trace : List WorkEvent) (e : WorkEvent) (w : WorkId) :
    QueuedBy (trace ++ [e]) w =
      match e with
      | .queued w' => QueuedBy trace w || decide (w = w')
      | .cancelled w' => QueuedBy trace w && decide (w ≠ w')
      | .started node => QueuedBy trace w && decide (node ≠ .work w)
      | _ => QueuedBy trace w := by
  rw [QueuedBy, List.foldl_append, List.foldl_cons, List.foldl_nil]
  rfl

theorem queuedBy_cancelled (trace : List WorkEvent) (items : List WorkId) (w : WorkId) :
    QueuedBy (trace ++ items.map .cancelled) w = (QueuedBy trace w && decide (w ∉ items)) := by
  induction items generalizing trace with
  | nil => simp
  | cons x items ih =>
    have hhead := queuedBy_append trace (.cancelled x) w
    dsimp only at hhead
    rw [List.map_cons, List.append_cons, ih, hhead, Bool.and_assoc, ← Bool.decide_and]
    congr 2
    simp [not_or]

structure ListedInv (trace : List WorkEvent) (list : List WorkId) : Prop where
  nodup : list.Nodup
  listed : ∀ w, w ∈ list ↔ QueuedBy trace w

theorem ListedInv.quiet {e : WorkEvent} {list : List WorkId} (h : ListedInv trace list)
    (he : ∀ w, QueuedBy (trace ++ [e]) w = QueuedBy trace w) : ListedInv (trace ++ [e]) list :=
  ⟨h.nodup, fun w => by rw [he]; exact h.listed w⟩

theorem ListedInv.appended {list : List WorkId} (h : ListedInv trace list) (w : WorkId) :
    ListedInv (trace ++ [.queued w]) (list.erase w ++ [w]) := by
  refine ⟨?_, fun x => ?_⟩
  · refine List.nodup_append.2 ⟨h.nodup.erase w, by simp, fun a ha b hb => ?_⟩
    rw [List.mem_singleton.1 hb]
    exact (h.nodup.mem_erase_iff.1 ha).1
  · rw [queuedBy_append, List.mem_append, h.nodup.mem_erase_iff, List.mem_singleton, h.listed, Bool.or_eq_true,
      decide_eq_true_iff]
    by_cases hx : x = w <;> simp [hx]

theorem ListedInv.cancel {list : List WorkId} (h : ListedInv trace list) (w : WorkId) :
    ListedInv (trace ++ [.cancelled w]) (list.erase w) := by
  refine ⟨h.nodup.erase w, fun x => ?_⟩
  rw [queuedBy_append, h.nodup.mem_erase_iff, h.listed, Bool.and_eq_true, decide_eq_true_iff]
  exact And.comm

theorem ListedInv.cancelAll {list : List WorkId} (h : ListedInv trace list) :
    ListedInv (trace ++ list.map .cancelled) [] := by
  refine ⟨List.nodup_nil, fun x => ?_⟩
  rw [queuedBy_cancelled, Bool.and_eq_true, decide_eq_true_iff, ← h.listed]
  simp

theorem ListedInv.start {rest : List WorkId} (h : ListedInv trace (w :: rest)) :
    ListedInv (trace ++ [.started (.work w)]) rest := by
  obtain ⟨hnot, hrest⟩ := List.nodup_cons.1 h.nodup
  refine ⟨hrest, fun x => ?_⟩
  rw [queuedBy_append, Bool.and_eq_true, decide_eq_true_iff, ← h.listed, List.mem_cons]
  constructor
  · intro hx
    refine ⟨.inr hx, fun heq => hnot ?_⟩
    rwa [WorkNode.work.inj heq]
  · rintro ⟨hx, hne⟩
    exact hx.resolve_left fun heq => hne (by rw [heq])

theorem StartsQueued.append (h : StartsQueued trace)
    (hevents : ∀ before node after, events = before ++ .started node :: after →
      ∃ w, node = .work w ∧ QueuedBy (trace ++ before) w) : StartsQueued (trace ++ events) := by
  intro before node after heq
  rcases List.append_eq_append_iff.1 heq with ⟨later, hbefore, hevent⟩ | ⟨later, htrace, hevent⟩
  · obtain ⟨w, hw⟩ := hevents later node after hevent
    rw [hbefore]
    exact ⟨w, hw⟩
  · cases later with
    | nil =>
      rw [List.append_nil] at htrace
      obtain ⟨w, hw⟩ := hevents [] node after hevent.symm
      rw [List.append_nil, htrace] at hw
      exact ⟨w, hw⟩
    | cons e later =>
      obtain ⟨rfl, -⟩ := List.cons.inj hevent
      exact h before node later htrace

structure WorkqueueInv (trace : List WorkEvent) (s : WorkqueueState) : Prop where
  listed : ListedInv trace s.queue.workList
  starts : StartsQueued trace
  idle : s.worker ≠ .work → s.queue.workCurrent = none
  takes : s.TakesNext → s.queue.workList ≠ []
  sleeps : s.Sleeps → s.queue.workList = [] ∨ 0 < s.resumers

theorem WorkqueueInv.create : WorkqueueInv [] .create where
  listed := ⟨List.nodup_nil, fun w => by simp [WorkqueueState.create, QueuedBy]⟩
  starts before node after heq := by simp at heq
  idle _ := rfl
  takes h := by simp [WorkqueueState.TakesNext, WorkqueueState.create] at h
  sleeps _ := .inl rfl

theorem StartsQueued.quiet (h : StartsQueued trace) (hevents : ∀ node, .started node ∉ events) :
    StartsQueued (trace ++ events) := by
  apply h.append
  intro before node after heq
  refine absurd ?_ (hevents node)
  rw [heq]
  exact List.mem_append_right before List.mem_cons_self

theorem StartsQueued.one {e : WorkEvent} (h : StartsQueued trace) (he : ∀ node, e ≠ .started node) :
    StartsQueued (trace ++ [e]) := by
  apply h.quiet
  intro node hmem
  exact he node (List.mem_singleton.1 hmem).symm

theorem starting_append {before after : List WorkEvent} {e : WorkEvent} (heq : [e] = before ++ .started node :: after) :
    before = [] ∧ e = .started node := by
  cases before with
  | nil => exact ⟨rfl, (List.cons.inj heq).1⟩
  | cons b before =>
    have hlength := congrArg List.length heq
    simp at hlength

theorem WorkqueueInv.submit (h : WorkqueueInv trace s) (w : WorkId) :
    WorkqueueInv (trace ++ (s.submit w (rtWorkqueueDowork s.queue w)).2) (s.submit w (rtWorkqueueDowork s.queue w)).1 := by
  rw [rtWorkqueueDowork]
  split_ifs with hbusy
  · exact ⟨h.listed.quiet fun x => queuedBy_append .., h.starts.one (fun _ => WorkEvent.noConfusion), h.idle, h.takes, h.sleeps⟩
  · refine ⟨h.listed.appended w, h.starts.one (fun _ => WorkEvent.noConfusion), h.idle, fun _ => ?_, fun hsleeps => .inr ?_⟩
    · exact List.append_ne_nil_of_right_ne_nil _ (List.cons_ne_nil w [])
    · have hschedule : s.worker = .schedule := hsleeps.1
      have hnone : s.queue.workCurrent = none := by
        apply h.idle
        rw [hschedule]
        exact WorkerAt.noConfusion
      change 0 < if s.queue.workCurrent.isNone then s.resumers + 1 else s.resumers
      rw [hnone]
      exact Nat.succ_pos _

theorem WorkqueueInv.resume (h : WorkqueueInv trace s) (hok : s.Sleeps → s.queue.workList ≠ []) :
    WorkqueueInv (trace ++ []) { s with suspended := false, resumers := s.resumers - 1 } := by
  rw [List.append_nil]
  refine ⟨h.listed, h.starts, h.idle, fun htakes => ?_, fun hsleeps => (by cases hsleeps.2)⟩
  rcases htakes with hdequeue | ⟨hschedule, -⟩
  · exact h.takes (.inl hdequeue)
  · cases hsuspended : s.suspended with
    | true => exact hok ⟨hschedule, hsuspended⟩
    | false => exact h.takes (.inr ⟨hschedule, hsuspended⟩)

theorem WorkqueueInv.cancel (h : WorkqueueInv trace s) (hok : s.TakesNext → s.queue.workList ≠ [w]) :
    WorkqueueInv (trace ++ [.cancelled w]) { s with queue := { s.queue with workList := s.queue.workList.erase w } } := by
  refine ⟨h.listed.cancel w, h.starts.one (fun _ => WorkEvent.noConfusion), h.idle, fun htakes hempty => ?_, fun hsleeps => ?_⟩
  · have htakes' : s.TakesNext := htakes
    rcases List.erase_eq_nil_iff.1 hempty with hnil | hone
    · exact h.takes htakes' hnil
    · exact hok htakes' hone
  · refine (h.sleeps hsleeps).imp (fun hempty => ?_) id
    change s.queue.workList.erase w = []
    rw [hempty, List.erase_nil]

theorem WorkqueueInv.goTo {worker : WorkerAt} (h : WorkqueueInv trace s) (hidle : s.queue.workCurrent = none)
    (hwaits : worker ≠ .schedule) (htakes : worker = .dequeue → s.queue.workList ≠ []) :
    WorkqueueInv trace { s with worker } := by
  refine ⟨h.listed, h.starts, fun _ => hidle, fun htakes' => ?_, fun hsleeps => absurd hsleeps.1 hwaits⟩
  exact htakes'.elim htakes fun hschedule => absurd hschedule.1 hwaits

theorem WorkqueueInv.dequeue (h : WorkqueueInv trace s) (hne : s.queue.workList ≠ []) :
    WorkqueueInv (trace ++ [.started s.queue.dequeue.1]) { s with queue := s.queue.dequeue.2, worker := .work } := by
  have hdequeue : ∃ w rest, s.queue.workList = w :: rest ∧ s.queue.dequeue = (.work w, ⟨rest, some (.work w)⟩) := by
    rw [WorkQueue.dequeue]
    cases hlist : s.queue.workList with
    | nil => exact absurd hlist hne
    | cons w rest => exact ⟨w, rest, rfl, rfl⟩
  obtain ⟨w, rest, hlist, heq⟩ := hdequeue
  have hlisted := h.listed
  rw [hlist] at hlisted
  rw [heq]
  refine ⟨hlisted.start, h.starts.append ?_, fun hwork => absurd rfl hwork, fun htakes => ?_, fun hsleeps => ?_⟩
  · intro before node after hevent
    obtain ⟨rfl, hnode⟩ := starting_append hevent
    refine ⟨w, (WorkEvent.started.inj hnode).symm, ?_⟩
    rw [List.append_nil]
    exact (hlisted.listed w).1 List.mem_cons_self
  · rcases htakes with hno | ⟨hno, -⟩
    · cases hno
    · cases hno
  · cases hsleeps.1

theorem WorkqueueInv.proceed (h : WorkqueueInv trace s)
    (hok : s.worker = .suspend → s.queue.workList = [] ∨ 0 < s.resumers) (hready : s.suspended = false) :
    WorkqueueInv (trace ++ s.proceed.2) s.proceed.1 := by
  have hidle := h.idle
  rw [WorkqueueState.proceed]
  cases hworker : s.worker with
  | isempty =>
    rw [List.append_nil]
    apply h.goTo (hidle (by rw [hworker]; exact WorkerAt.noConfusion))
    · split_ifs <;> exact WorkerAt.noConfusion
    · intro hdequeue hempty
      rw [if_pos hempty] at hdequeue
      cases hdequeue
  | suspend =>
    rw [List.append_nil]
    refine ⟨h.listed, h.starts, fun _ => hidle (by rw [hworker]; exact WorkerAt.noConfusion), fun htakes => ?_,
      fun _ => hok hworker⟩
    rcases htakes with hno | ⟨-, hno⟩
    · cases hno
    · cases hno
  | schedule =>
    rw [List.append_nil]
    apply h.goTo (hidle (by rw [hworker]; exact WorkerAt.noConfusion)) WorkerAt.noConfusion
    intro _
    exact h.takes (.inr ⟨hworker, hready⟩)
  | dequeue => exact h.dequeue (h.takes (.inl hworker))
  | work =>
    refine ⟨h.listed.quiet fun x => queuedBy_append .., h.starts.one (fun _ => WorkEvent.noConfusion), fun _ => rfl, fun htakes => ?_,
      fun hsleeps => ?_⟩
    · rcases htakes with hno | ⟨hno, -⟩
      · cases hno
      · cases hno
    · cases hsleeps.1
  | completion =>
    rw [List.append_nil]
    apply h.goTo (hidle (by rw [hworker]; exact WorkerAt.noConfusion)) WorkerAt.noConfusion
    intro hno
    cases hno

theorem WorkqueueInv.block {suspended : Bool} (h : WorkqueueInv trace s) (hwork : s.worker = .work) :
    WorkqueueInv (trace ++ []) { s with suspended } := by
  rw [List.append_nil]
  refine ⟨h.listed, h.starts, h.idle, fun htakes => ?_, fun hsleeps => ?_⟩
  · rcases htakes with hno | ⟨hno, -⟩
    · cases hwork.symm.trans hno
    · cases hwork.symm.trans hno
  · cases hwork.symm.trans hsleeps.1

theorem WorkqueueInv.step (h : WorkqueueInv trace s) (hok : WorkKept s op)
    (hs : stepWorkqueue s op = some (s', events)) : WorkqueueInv (trace ++ events) s' := by
  cases op with
  | dowork w =>
    have heq : s.submit w (rtWorkqueueDowork s.queue w) = (s', events) := Option.some.inj hs
    have hsubmit := h.submit w
    rwa [heq] at hsubmit
  | criticalWork w =>
    have heq : s.submit w (rtWorkqueueDowork s.queue w) = (s', events) := Option.some.inj hs
    have hsubmit := h.submit w
    rwa [heq] at hsubmit
  | resume =>
    simp only [stepWorkqueue] at hs
    split_ifs at hs
    cases hs
    exact h.resume hok
  | cancelWork w =>
    simp only [stepWorkqueue, rtWorkqueueCancelWork] at hs
    split_ifs at hs
    · cases hs
      exact ⟨h.listed.quiet fun x => queuedBy_append .., h.starts.one (fun _ => WorkEvent.noConfusion), h.idle, h.takes, h.sleeps⟩
    · cases hs
      exact h.cancel hok
  | cancelAllWork =>
    cases hs
    exact ⟨h.listed.cancelAll, h.starts.quiet (by simp), h.idle, fun htakes => absurd htakes hok, fun _ => .inl rfl⟩
  | proceed =>
    simp only [stepWorkqueue] at hs
    split_ifs at hs with hsuspended
    have heq : s.proceed = (s', events) := Option.some.inj hs
    have hproceed := h.proceed hok (Bool.not_eq_true _ ▸ hsuspended)
    rwa [heq] at hproceed
  | block =>
    simp only [stepWorkqueue] at hs
    split_ifs at hs with hwork
    cases hs
    exact h.block hwork
  | unblock =>
    simp only [stepWorkqueue] at hs
    split_ifs at hs with hwork
    cases hs
    exact h.block hwork

/-! ## Every run -/

theorem workqueueInv_of_run (hrun : WorkqueueRun WorkKept trace s) : WorkqueueInv trace s :=
  hrun.invariant .create fun _ _ _ _ _ h hok hs => h.step hok hs

structure WorkqueueProgress (trace : List WorkEvent) (s : WorkqueueState) : Prop where
  /-- Where it has suspended itself and the list is not empty, a call that has appended an item is about to resume it. -/
  awake : s.Sleeps → s.queue.workList ≠ [] → 0 < s.resumers
  resumed : 0 < s.resumers → ∃ s', stepWorkqueue s .resume = some (s', []) ∧ s'.suspended = false
  /-- It runs what has been queued, and not been cancelled since. -/
  starts : StartsQueued trace

/-- In every run in which the worker suspends itself only where the list is empty or it will be resumed, it is resumed only where the list is not empty, and no call cancels the last item when the worker is about to take one. -/
theorem workqueueProgress_of_run (hrun : WorkqueueRun WorkKept trace s) : WorkqueueProgress trace s := by
  have hinv := workqueueInv_of_run hrun
  refine ⟨fun hsleeps hne => (hinv.sleeps hsleeps).resolve_left hne, fun hpos => ?_, hinv.starts⟩
  rw [stepWorkqueue, if_pos hpos]
  exact ⟨_, rfl, rfl⟩

/-- The worker sleeps; of two items the second is cancelled before the worker is resumed, and it sleeps again after the first. -/
theorem workqueueProgress_of_run_cancelled : ∃ trace s, WorkqueueRun WorkKept trace s ∧
    trace = [.queued 0, .queued 1, .cancelled 1, .started (.work 0), .busy 0, .queued 1, .finished, .started (.work 1)] ∧
      s.resumers = 1 ∧ WorkqueueProgress trace s := by
  obtain ⟨trace, s, hrun, hfound⟩ := exists_workqueueRun WorkKept
    [.proceed, .proceed, .dowork 0, .dowork 1, .cancelWork 1, .resume, .proceed, .proceed, .dowork 0, .criticalWork 1,
      .proceed, .proceed, .proceed, .proceed]
    (fun trace s => decide (trace = [.queued 0, .queued 1, .cancelled 1, .started (.work 0), .busy 0, .queued 1,
      .finished, .started (.work 1)] ∧ s.resumers = 1)) (by decide +kernel)
  obtain ⟨htrace, hresumers⟩ := of_decide_eq_true hfound
  exact ⟨trace, s, hrun, htrace, hresumers, workqueueProgress_of_run hrun⟩

/-- An item is appended between the worker's look at the list and its suspension. An item is cancelled before the worker is resumed for it or takes it, or the worker is resumed for an item that it has run: it runs the header of the list. -/
theorem workqueueProgress_fails :
    (∃ trace s, WorkqueueRun (fun _ _ => True) trace s ∧ s.Sleeps ∧ s.queue.workList = [0] ∧ s.resumers = 0) ∧
    (∃ trace s, WorkqueueRun (fun _ _ => True) trace s ∧ trace = [.queued 0, .cancelled 0, .started .head]) ∧
    ∃ trace s, WorkqueueRun (fun _ _ => True) trace s ∧ trace = [.queued 0, .queued 1, .started (.work 0), .finished,
      .started (.work 1), .finished, .started .head] := by
  refine ⟨?_, ?_, ?_⟩
  · obtain ⟨trace, s, hrun, hfound⟩ := exists_workqueueRun (fun _ _ => True) [.proceed, .dowork 0, .resume, .proceed]
      (fun _ s => decide (s.Sleeps ∧ s.queue.workList = [0] ∧ s.resumers = 0)) (by decide +kernel)
    exact ⟨trace, s, hrun, of_decide_eq_true hfound⟩
  · obtain ⟨trace, s, hrun, hfound⟩ := exists_workqueueRun (fun _ _ => True)
      [.proceed, .proceed, .dowork 0, .cancelWork 0, .resume, .proceed, .proceed]
      (fun trace _ => decide (trace = [.queued 0, .cancelled 0, .started .head])) (by decide +kernel)
    exact ⟨trace, s, hrun, of_decide_eq_true hfound⟩
  · obtain ⟨trace, s, hrun, hfound⟩ := exists_workqueueRun (fun _ _ => True)
      [.proceed, .proceed, .dowork 0, .dowork 1, .resume, .proceed, .proceed, .proceed, .proceed, .proceed, .proceed,
        .proceed, .proceed, .proceed, .proceed, .resume, .proceed, .proceed]
      (fun trace _ => decide (trace = [.queued 0, .queued 1, .started (.work 0), .finished, .started (.work 1),
        .finished, .started .head])) (by decide +kernel)
    exact ⟨trace, s, hrun, of_decide_eq_true hfound⟩

end RtThread
