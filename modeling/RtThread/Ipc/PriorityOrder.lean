import RtThread.Ipc.MessageQueue
import RtThread.Ipc.Event
import RtThread.Ipc.Wakeups
import RtThread.Kernel.PriorityOrder

/-!
# Waiting by priority

The suspend lists of events, mailboxes and message queues are kept by the same two functions as those of semaphores and mutexes: `rt_ipc_list_suspend` finds the place of a thread, and `rt_ipc_list_resume` takes the first. With `RT_IPC_FLAG_PRIO` the lists of all five objects are in order as long as the priority of no thread that waits in them is changed.
-/

namespace RtThread

open Function Arrivals

variable {kind : IpcFlag} {t u : ThreadId} {waiters : List ThreadId} {rank : ThreadId → Nat}

theorem change_ipcListSuspend (hkind : kind = .prio) (hnew : t ∉ waiters) :
    Change rank waiters (ipcListSuspend kind rank t waiters) := by
  rw [hkind]
  exact change_insertByPriority hnew

/-! ## Events -/

section Events

variable {s s' : EventState} {op : EventOp} {events trace : List EventEvent} {set : BitVec 32} {option : BitVec 8}

def EventState.priority (s : EventState) (t : ThreadId) : Nat := (s.thread t).currentPriority

/-- A send serves the threads whose condition holds once its bits have been added. -/
def eventQueues : Queues EventState EventOp EventEvent Unit ThreadId Nat where
  list s _ := s.suspendThread
  rank := EventState.priority
  Serves _ op _ _ := ∃ set, op = .send set ∧ set ≠ 0
  Able s op t := ∃ set, op = .send set ∧ Satisfied (s.thread t).eventInfo (s.thread t).eventSet (s.set ||| set)

def EventKeepsPriority (s : EventState) : EventOp → Prop
  | .changePriority t priority => s.Waiting t → priority = (s.thread t).currentPriority
  | _ => True

structure EventThins (s s' : EventState) : Prop where
  list : s'.suspendThread.Sublist s.suspendThread
  priority : s'.priority = s.priority
  flag : s'.flag = s.flag

theorem EventThins.trans {s'' : EventState} (h : EventThins s s') (h' : EventThins s' s'') : EventThins s s'' :=
  ⟨h'.list.trans h.list, h'.priority.trans h.priority, h'.flag.trans h.flag⟩

theorem EventThins.refl (s : EventState) : EventThins s s := ⟨.refl _, rfl, rfl⟩

theorem EventThins.keeps (h : EventThins s s') : Keeps s.priority s'.priority s.suspendThread s'.suspendThread :=
  ⟨fun u _ _ => congrFun h.priority u, .leave h.list⟩

theorem EventState.priority_setThread {f : EventThread → EventThread}
    (hf : (f (s.thread t)).currentPriority = (s.thread t).currentPriority) : (s.setThread t f).priority = s.priority := by
  funext u
  unfold EventState.priority
  by_cases hu : u = t
  · rw [hu, EventState.setThread_self, hf]
  · rw [EventState.setThread_other f hu]

theorem eventThins_setThread {f : EventThread → EventThread}
    (hf : (f (s.thread t)).currentPriority = (s.thread t).currentPriority) : EventThins s (s.setThread t f) :=
  ⟨.refl _, EventState.priority_setThread hf, rfl⟩

theorem eventThins_resume : EventThins s (s.resume t) :=
  ⟨List.erase_sublist, EventState.priority_setThread (s := { s with suspendThread := s.suspendThread.erase t }) rfl, rfl⟩

theorem eventThins_setBits (s : EventState) (bits : BitVec 32) : EventThins s { s with set := bits } := ⟨.refl _, rfl, rfl⟩

theorem eventThins_visit : EventThins s (eventVisit s t) := by
  unfold eventVisit
  split
  · exact .refl s
  · rename_i received _
    dsimp only
    have hset : EventThins s (s.setThread t fun thread => { thread with eventSet := received }) := eventThins_setThread rfl
    split_ifs
    · exact (hset.trans (eventThins_setBits _ _)).trans eventThins_resume
    · exact hset.trans eventThins_resume

theorem eventThins_foldl {visit : EventState → ThreadId → EventState} (hvisit : ∀ s t, EventThins s (visit s t))
    (rest : List ThreadId) : EventThins s (rest.foldl visit s) := by
  induction rest generalizing s with
  | nil => exact .refl s
  | cons t rest ih => exact (hvisit s t).trans ih

theorem satisfied_of_eventReceived {held received : BitVec 32} (h : eventReceived option set held = some received) :
    Satisfied option set held := by
  unfold eventReceived at h
  unfold Satisfied
  split_ifs at h ⊢ with hand hsub hor hsome
  · exact hsub
  · exact hsome

theorem eventVisit_of_unsatisfied (h : Unsatisfied s t) : eventVisit s t = s := by
  unfold eventVisit
  split
  · rfl
  · rename_i received hreceived
    exact absurd (satisfied_of_eventReceived hreceived) h

theorem eventWalk_first {before behind : List ThreadId} (h : EventThreads s) (ht : s.Waiting t) (hsat : ¬ Unsatisfied s t)
    (hbefore : ∀ u ∈ before, Unsatisfied s u) : ¬ ((before ++ t :: behind).foldl eventVisit s).Waiting t := by
  have hpassed : before.foldl eventVisit s = s := by
    clear ht hsat
    induction before with
    | nil => rfl
    | cons u before ih =>
      rw [List.foldl_cons, eventVisit_of_unsatisfied (hbefore u (List.mem_cons_self ..))]
      exact ih fun w hw => hbefore w (List.mem_cons_of_mem u hw)
  rw [List.foldl_append, hpassed, List.foldl_cons]
  intro hstays
  have hlist := (eventThins_foldl (s := eventVisit s t) (fun _ _ => eventThins_visit) behind).list.subset hstays
  rcases eventVisit_cases h ht with ⟨-, hunsat⟩ | ⟨-, hleaves, -⟩
  · exact hsat hunsat
  · rw [hleaves.suspendThread] at hlist
    exact (h.nodup.mem_erase_iff.1 hlist).1 rfl

theorem EventInv.not_waiting (h : EventInv s) (hcall : s.call t = none) : ¬ s.Waiting t := by
  intro ht
  rw [(h.threads.waiting t ht).1] at hcall
  cases hcall

theorem eventKeeps_recv (h : EventInv s) (hcall : s.call t = none) (hflag : s.flag = .prio) {timeout : Int}
    {r : Option (IpcErr × Option (BitVec 32)) × EventState} (hrecv : rtEventRecv s t set option timeout = some r) :
    Keeps s.priority r.2.priority s.suspendThread r.2.suspendThread ∧ r.2.flag = s.flag := by
  unfold rtEventRecv at hrecv
  have hreset : EventThins s (s.setThread t fun thread => { thread with error := .eok }) := eventThins_setThread rfl
  by_cases hzero : set = 0
  · rw [if_pos hzero] at hrecv
    cases hrecv
    exact ⟨(EventThins.refl s).keeps, rfl⟩
  · rw [if_neg hzero] at hrecv
    dsimp only at hrecv
    split at hrecv
    · cases hrecv
    · cases hrecv
      dsimp only
      split_ifs
      · exact ⟨(hreset.trans (eventThins_setBits _ _)).keeps, rfl⟩
      · exact ⟨hreset.keeps, rfl⟩
    · split_ifs at hrecv
      · cases hrecv
        have hfailed : EventThins (s.setThread t fun thread => { thread with error := .eok })
            ((s.setThread t fun thread => { thread with error := .eok }).setThread t fun thread =>
              { thread with error := .etimeout }) := eventThins_setThread rfl
        exact ⟨(hreset.trans hfailed).keeps, rfl⟩
      · obtain ⟨timer, -, rfl⟩ := Option.map_eq_some_iff.1 hrecv
        set s₁ := (s.setThread t fun thread => { thread with error := .eok }).setThread t fun thread =>
          { thread with eventSet := set, eventInfo := option, timer } with hs₁
        have hset : EventThins s s₁ := hreset.trans (eventThins_setThread rfl)
        have hjoin : Change s₁.priority s.suspendThread (ipcListSuspend s.flag s₁.priority t s.suspendThread) :=
          change_ipcListSuspend hflag (h.not_waiting hcall)
        exact ⟨⟨fun u _ _ => congrFun hset.priority u, hjoin⟩, rfl⟩

theorem eventKeeps_step (h : EventInv s) (hok : EventKeepsPriority s op) (hflag : s.flag = .prio)
    (hs : stepEvent s op = some (s', events)) :
    Keeps s.priority s'.priority s.suspendThread s'.suspendThread ∧ s'.flag = s.flag := by
  cases op with
  | send set =>
    cases hs
    have hsend : EventThins s (rtEventSend s set).2 := by
      unfold rtEventSend
      split_ifs
      · exact .refl s
      · have hset : EventThins s { s with set := s.set ||| set } := ⟨.refl _, rfl, rfl⟩
        exact hset.trans (eventThins_foldl (fun _ _ => eventThins_visit) s.suspendThread)
    exact ⟨hsend.keeps, hsend.flag⟩
  | recv t set option timeout =>
    simp only [stepEvent] at hs
    split_ifs at hs with hcall
    obtain ⟨r, hrecv, heq⟩ := Option.map_eq_some_iff.1 hs
    cases heq
    exact eventKeeps_recv h hcall hflag hrecv
  | finish t =>
    simp only [stepEvent] at hs
    split at hs
    · cases hs
    · split_ifs at hs
      cases hs
      have hsame : EventThins s (rtEventRecvReturn s t).2 := by
        unfold rtEventRecvReturn
        dsimp only
        split_ifs <;> exact ⟨.refl _, rfl, rfl⟩
      exact ⟨hsame.keeps, hsame.flag⟩
  | timeout t =>
    simp only [stepEvent] at hs
    split_ifs at hs
    cases hs
    have hleave : EventThins s (eventTimeout s t) := ⟨List.erase_sublist,
      EventState.priority_setThread (s := { s with suspendThread := s.suspendThread.erase t }) rfl, rfl⟩
    exact ⟨hleave.keeps, rfl⟩
  | reset =>
    cases hs
    have hvisit : ∀ (s : EventState) (t : ThreadId),
        EventThins s ((s.setThread t fun thread => { thread with error := .error }).resume t) := fun s t =>
      EventThins.trans (eventThins_setThread rfl) eventThins_resume
    have hthins := eventThins_foldl (s := s) hvisit s.suspendThread
    exact ⟨⟨fun u _ _ => congrFun hthins.priority u, .leave hthins.list⟩, hthins.flag⟩
  | changePriority t p =>
    cases hs
    refine ⟨⟨fun u hu _ => ?_, .leave (.refl _)⟩, rfl⟩
    by_cases hut : u = t
    · subst hut
      have hsame : p = (s.thread u).currentPriority := hok hu
      exact congrFun (EventState.priority_setThread (f := fun thread => { thread with currentPriority := p }) hsame) u
    · exact congrArg (fun thread => thread.currentPriority) (EventState.setThread_other _ hut)

theorem eventQueues_inOrder {arrivals : Unit → List ThreadId} (hkind : kind = .prio)
    (hrun : RecordedRun eventQueues stepEvent EventKeepsPriority (.init kind rank) trace s arrivals) :
    eventQueues.InOrder stepEvent s (arrivals ()) () := by
  have hinv {trace : List EventEvent} {s : EventState}
      (hrun : Transition.Run stepEvent EventKeepsPriority (.init kind rank) trace s) : EventInv s ∧ s.flag = .prio := by
    refine hrun.state_invariant (I := fun s => EventInv s ∧ s.flag = .prio) ⟨.init kind rank, hkind⟩ ?_
    intro s op s' events h hok hs
    exact ⟨(h.1.step hs).1, (eventKeeps_step h.1 hok h.2 hs).2.trans h.2⟩
  have hordered : Ordered s.priority (arrivals ()) s.suspendThread :=
    hrun.ordered (i := ()) rfl fun trace s op s' events hbefore hok hs =>
      (eventKeeps_step (hinv hbefore).1 hok (hinv hbefore).2 hs).1
  refine ⟨hordered, ?_⟩
  rintro op s' events hs ⟨set, rfl, hset⟩
  cases hs
  refine hordered.servesLowest fun before t behind hlist hbefore hable => ?_
  obtain ⟨set', hset', hsat⟩ := hable
  cases hset'
  have hsend : (rtEventSend s set).2 = s.suspendThread.foldl eventVisit { s with set := s.set ||| set } := by
    rw [rtEventSend, if_neg hset]
  have hthreads := (hinv hrun.run).1.threads
  have hthreads' : EventThreads { s with set := s.set ||| set } := ⟨hthreads.nodup, hthreads.waiting, hthreads.woken⟩
  have hwait : s.Waiting t := by
    rw [EventState.Waiting, hlist]
    simp
  have hgone : ¬ ((before ++ t :: behind).foldl eventVisit { s with set := s.set ||| set }).Waiting t :=
    eventWalk_first hthreads' hwait (fun hunsat => hunsat hsat) fun u hu hsatu => hbefore u hu ⟨set, rfl, hsatu⟩
  rw [← hlist] at hgone
  rw [hsend]
  exact hgone

end Events

/-! ## Mailboxes -/

section Mailboxes

variable {s s' : MbState} {op : MbOp} {events trace : List MbEvent} {caller : Option ThreadId} {value size : Nat}
  {timeout : Int} {pool : Nat → Nat}

def MbState.priority (s : MbState) (t : ThreadId) : Nat := (s.thread t).currentPriority

inductive MbList
  | senders | receivers
  deriving DecidableEq

def MbState.list (s : MbState) : MbList → List ThreadId
  | .senders => s.senders
  | .receivers => s.receivers

/-- A send that succeeds serves the receivers, and a receive that succeeds serves the senders. -/
def mbServes (events : List MbEvent) : MbList → Prop
  | .senders => ∃ caller value, .recv caller .eok value ∈ events
  | .receivers => ∃ caller value, .send caller value .eok ∈ events

def mbQueues : Queues MbState MbOp MbEvent MbList ThreadId Nat where
  list := MbState.list
  rank := MbState.priority
  Serves _ _ events i := mbServes events i
  Able _ _ _ := True

def MbKeepsPriority (s : MbState) : MbOp → Prop
  | .changePriority t priority => s.Waiting t → priority = (s.thread t).currentPriority
  | _ => True

structure MbLists (s s' : MbState) (events : List MbEvent) : Prop where
  keeps : ∀ i, Keeps s.priority s'.priority (s.list i) (s'.list i)
  serves : ∀ i, mbServes events i → s'.list i = (s.list i).tail
  flag : s'.flag = s.flag

theorem MbState.priority_setThread {f : Waiter → Waiter}
    (hf : (f (s.thread t)).currentPriority = (s.thread t).currentPriority) : (s.setThread t f).priority = s.priority := by
  funext u
  unfold MbState.priority
  by_cases hu : u = t
  · rw [hu, MbState.setThread_same, hf]
  · rw [MbState.setThread_ne f hu]

theorem mbLists_leave (hlist : ∀ i, (s'.list i).Sublist (s.list i)) (hpriority : s'.priority = s.priority)
    (hflag : s'.flag = s.flag) (hevents : ∀ i, ¬ mbServes events i) : MbLists s s' events :=
  ⟨fun i => ⟨fun u _ _ => congrFun hpriority u, .leave (hlist i)⟩, fun i hi => absurd hi (hevents i), hflag⟩

theorem mbServes_nil (i : MbList) : ¬ mbServes [] i := by
  cases i <;> simp [mbServes]

theorem mbServes_send {result : IpcErr} {i : MbList} (h : mbServes [.send caller value result] i) :
    i = .receivers ∧ result = .eok := by
  cases i with
  | senders => simp [mbServes] at h
  | receivers =>
    obtain ⟨_, _, hmem⟩ := h
    cases List.mem_singleton.1 hmem
    exact ⟨rfl, rfl⟩

theorem mbServes_recv {result : IpcErr} {mail : Option Nat} {i : MbList} (h : mbServes [.recv caller result mail] i) :
    i = .senders ∧ result = .eok := by
  cases i with
  | senders =>
    obtain ⟨_, _, hmem⟩ := h
    cases List.mem_singleton.1 hmem
    exact ⟨rfl, rfl⟩
  | receivers => simp [mbServes] at h

theorem MbState.resumeReceiver_priority : s.resumeReceiver.priority = s.priority := by
  unfold MbState.resumeReceiver
  split
  · rfl
  · rename_i t rest _
    exact MbState.priority_setThread (s := { s with receivers := rest }) rfl

theorem MbState.resumeSender_priority : s.resumeSender.priority = s.priority := by
  unfold MbState.resumeSender
  split
  · rfl
  · rename_i t rest _
    exact MbState.priority_setThread (s := { s with senders := rest }) rfl

theorem MbState.suspendSender_priority {timer : Bool} : (s.suspendSender t value timeout timer).priority = s.priority :=
  MbState.priority_setThread (s := { s with senders := ipcListSuspend s.flag s.priority t s.senders })
    (f := fun thread => { thread with timer }) rfl

theorem MbState.suspendReceiver_priority {timer : Bool} : (s.suspendReceiver t timeout timer).priority = s.priority :=
  MbState.priority_setThread (s := { s with receivers := ipcListSuspend s.flag s.priority t s.receivers })
    (f := fun thread => { thread with timer }) rfl

theorem MbLists.of_setCall {c : Option MbCall} (h : MbLists (s.setCall t c) s' events) : MbLists s s' events := by
  have hlist : (s.setCall t c).list = s.list := by
    funext i
    cases i <;> rfl
  refine ⟨fun i => ?_, fun i hi => ?_, h.flag⟩
  · exact hlist ▸ h.keeps i
  · exact hlist ▸ h.serves i hi

theorem MbState.resumeReceiver_flag : s.resumeReceiver.flag = s.flag := by
  unfold MbState.resumeReceiver
  split <;> rfl

theorem MbState.resumeSender_flag : s.resumeSender.flag = s.flag := by
  unfold MbState.resumeSender
  split <;> rfl

theorem mbLists_sendLoop {r : Option IpcErr × MbState} (hflag : s.flag = .prio)
    (hnot : ∀ t, caller = some t → ¬ s.Waiting t) (hs : mbSendLoop s caller value timeout = some r) :
    MbLists s r.2 (sendEvents caller value r).2 := by
  unfold mbSendLoop at hs
  by_cases hfull : s.mb.entry = s.mb.size
  · rw [if_pos hfull] at hs
    cases caller with
    | none => cases hs
    | some t =>
      have hreset : (s.setThread t fun thread => { thread with error := .eok }).priority = s.priority :=
        MbState.priority_setThread rfl
      dsimp only at hs
      split_ifs at hs
      · cases hs
        refine mbLists_leave (fun i => ?_) hreset rfl fun i hi => nomatch (mbServes_send hi).2
        cases i <;> exact .refl _
      · obtain ⟨timer, -, rfl⟩ := Option.map_eq_some_iff.1 hs
        set s₁ := s.setThread t fun thread => { thread with error := .eok } with hs₁
        have hpriority : (s₁.suspendSender t value timeout timer).priority = s.priority :=
          MbState.suspendSender_priority.trans hreset
        refine ⟨fun i => ⟨fun u _ _ => congrFun hpriority u, ?_⟩, fun i hi => absurd hi (mbServes_nil i), rfl⟩
        rw [hpriority, ← hreset]
        cases i with
        | senders => exact change_ipcListSuspend hflag fun ht => hnot t rfl (.inl ht)
        | receivers => exact .leave (.refl _)
  · rw [if_neg hfull] at hs
    cases hs
    have hpriority : { s with mb := s.mb.put value }.resumeReceiver.priority = s.priority := MbState.resumeReceiver_priority
    refine ⟨fun i => ⟨fun u _ _ => congrFun hpriority u, .leave ?_⟩, fun i hi => ?_, MbState.resumeReceiver_flag⟩
    · cases i with
      | senders =>
        rw [MbState.list, MbState.resumeReceiver_senders]
        exact .refl _
      | receivers =>
        rw [MbState.list, MbState.resumeReceiver_receivers]
        exact List.tail_sublist _
    · obtain rfl := (mbServes_send hi).1
      exact MbState.resumeReceiver_receivers

theorem mbLists_recvLoop {r : Option (IpcErr × Option Nat) × MbState} (hflag : s.flag = .prio)
    (hnot : ∀ t, caller = some t → ¬ s.Waiting t) (hs : mbRecvLoop s caller timeout = some r) :
    MbLists s r.2 (recvEvents caller r).2 := by
  unfold mbRecvLoop at hs
  by_cases hempty : s.mb.entry = 0
  · rw [if_pos hempty] at hs
    cases caller with
    | none => cases hs
    | some t =>
      dsimp only at hs
      split_ifs at hs
      · cases hs
        have hfailed : (s.setThread t fun thread => { thread with error := .etimeout }).priority = s.priority :=
          MbState.priority_setThread rfl
        refine mbLists_leave (fun i => ?_) hfailed rfl fun i hi => nomatch (mbServes_recv hi).2
        cases i <;> exact .refl _
      · obtain ⟨timer, -, rfl⟩ := Option.map_eq_some_iff.1 hs
        set s₁ := s.setThread t fun thread => { thread with error := .eok } with hs₁
        have hreset : s₁.priority = s.priority := MbState.priority_setThread rfl
        have hpriority : (s₁.suspendReceiver t timeout timer).priority = s.priority :=
          MbState.suspendReceiver_priority.trans hreset
        refine ⟨fun i => ⟨fun u _ _ => congrFun hpriority u, ?_⟩, fun i hi => absurd hi (mbServes_nil i), rfl⟩
        rw [hpriority, ← hreset]
        cases i with
        | senders => exact .leave (.refl _)
        | receivers => exact change_ipcListSuspend hflag fun ht => hnot t rfl (.inr ht)
  · rw [if_neg hempty] at hs
    cases hs
    have hpriority : { s with mb := s.mb.take }.resumeSender.priority = s.priority := MbState.resumeSender_priority
    refine ⟨fun i => ⟨fun u _ _ => congrFun hpriority u, .leave ?_⟩, fun i hi => ?_, MbState.resumeSender_flag⟩
    · cases i with
      | senders =>
        rw [MbState.list, MbState.resumeSender_senders]
        exact List.tail_sublist _
      | receivers =>
        rw [MbState.list, MbState.resumeSender_receivers]
        exact .refl _
    · obtain rfl := (mbServes_recv hi).1
      exact MbState.resumeSender_senders

theorem MbThreads.not_waiting_caller (h : MbThreads s) (hfree : s.Free caller) :
    ∀ t, caller = some t → ¬ s.Waiting t := by
  rintro t rfl
  exact h.not_waiting hfree

theorem mbLists_step (h : MbThreads s) (hok : MbKeepsPriority s op) (hflag : s.flag = .prio)
    (hs : stepMb s op = some (s', events)) : MbLists s s' events := by
  cases op with
  | send caller value timeout =>
    simp only [stepMb] at hs
    split_ifs at hs with hfree
    obtain ⟨r, hsend, heq⟩ := Option.map_eq_some_iff.1 hs
    cases heq
    unfold rtMbSendWait at hsend
    split_ifs at hsend
    · cases hsend
      exact mbLists_leave (fun _ => .refl _) rfl rfl fun i hi => by cases (mbServes_send hi).2
    · exact mbLists_sendLoop hflag (h.not_waiting_caller hfree) hsend
  | recv caller timeout =>
    simp only [stepMb] at hs
    split_ifs at hs with hfree
    obtain ⟨r, hrecv, heq⟩ := Option.map_eq_some_iff.1 hs
    cases heq
    unfold rtMbRecv at hrecv
    split_ifs at hrecv
    · cases hrecv
      exact mbLists_leave (fun _ => .refl _) rfl rfl fun i hi => by cases (mbServes_recv hi).2
    · exact mbLists_recvLoop hflag (h.not_waiting_caller hfree) hrecv
  | resume t =>
    simp only [stepMb] at hs
    by_cases hwait : s.Waiting t
    · rw [if_pos hwait] at hs
      cases hs
    rw [if_neg hwait] at hs
    have hnot : ∀ u, some t = some u → ¬ (s.setCall t none).Waiting u := by
      rintro u ⟨⟩
      exact hwait
    split at hs
    · cases hs
    · split_ifs at hs with herror
      · cases hs
        refine mbLists_leave (fun i => ?_) rfl rfl fun i hi => herror (mbServes_send hi).2
        cases i <;> exact .refl _
      · obtain ⟨r, hsend, heq⟩ := Option.map_eq_some_iff.1 hs
        cases heq
        exact (mbLists_sendLoop (s := s.setCall t none) hflag hnot hsend).of_setCall
    · split_ifs at hs with herror
      · cases hs
        refine mbLists_leave (fun i => ?_) rfl rfl fun i hi => herror (mbServes_recv hi).2
        cases i <;> exact .refl _
      · obtain ⟨r, hrecv, heq⟩ := Option.map_eq_some_iff.1 hs
        cases heq
        exact (mbLists_recvLoop (s := s.setCall t none) hflag hnot hrecv).of_setCall
  | timeout t =>
    simp only [stepMb] at hs
    split_ifs at hs
    cases hs
    refine mbLists_leave (fun i => ?_) (MbState.priority_setThread
      (s := { s with senders := s.senders.erase t, receivers := s.receivers.erase t }) rfl) rfl mbServes_nil
    cases i <;> exact List.erase_sublist
  | tick =>
    cases hs
    refine mbLists_leave (fun i => ?_) rfl rfl mbServes_nil
    cases i <;> exact .refl _
  | changePriority t p =>
    cases hs
    refine ⟨fun i => ⟨fun u hu _ => ?_, .leave ?_⟩, fun i hi => absurd hi (mbServes_nil i), rfl⟩
    · by_cases hut : u = t
      · subst hut
        have hwait : s.Waiting u := by
          cases i with
          | senders => exact .inl hu
          | receivers => exact .inr hu
        have hsame : p = (s.thread u).currentPriority := hok hwait
        exact congrFun (MbState.priority_setThread (f := fun thread => { thread with currentPriority := p }) hsame) u
      · exact congrArg Waiter.currentPriority (MbState.setThread_ne _ hut)
    · cases i <;> exact .refl _

theorem mbServes_tail {i : MbList} (h : MbThreads s) (hflag : s.flag = .prio) (hs : stepMb s op = some (s', events))
    (hserves : mbServes events i) : s'.list i = (s.list i).tail := by
  refine (mbLists_step h ?_ hflag hs).serves i hserves
  cases op with
  | changePriority t p =>
    cases hs
    exact absurd hserves (mbServes_nil i)
  | _ => trivial

theorem mbQueues_inOrder {arrivals : MbList → List ThreadId} (hkind : kind = .prio)
    (hrun : RecordedRun mbQueues stepMb MbKeepsPriority (.init pool size kind rank) trace s arrivals) (i : MbList) :
    mbQueues.InOrder stepMb s (arrivals i) i := by
  have hinv {trace : List MbEvent} {s : MbState}
      (hrun : Transition.Run stepMb MbKeepsPriority (.init pool size kind rank) trace s) :
      WakeInv s 0 0 ∧ s.flag = .prio := by
    have hstart : WakeInv (MbState.init pool size kind rank) 0 0 :=
      wakeInv_of_run (.start : MbRun pool size kind rank [] _)
    refine hrun.state_invariant (I := fun s => WakeInv s 0 0 ∧ s.flag = .prio) ⟨hstart, hkind⟩ ?_
    intro s op s' events h hok hs
    exact ⟨wakeInv_step h.1 hs, (mbLists_step h.1.threads hok h.2 hs).flag.trans h.2⟩
  have hordered : Ordered s.priority (arrivals i) (s.list i) := by
    refine hrun.ordered ?_ fun trace s op s' events hbefore hok hs =>
      (mbLists_step (hinv hbefore).1.threads hok (hinv hbefore).2 hs).keeps i
    cases i <;> rfl
  refine ⟨hordered, fun op s' events hs hserves => ?_⟩
  have htail : mbQueues.list s' i = (s.list i).tail := mbServes_tail (hinv hrun.run).1.threads (hinv hrun.run).2 hs hserves
  rw [htail]
  exact hordered.servesLowest_tail

end Mailboxes

/-! ## Message queues -/

section MessageQueues

variable {s s' : MqState} {op : MqOp} {events trace : List MqEvent} {c : Caller} {buffer : List UInt8}
  {size msgSize maxMsgs : Nat} {timeout : Int} {urgent : Bool} {bytes : Nat → Nat → UInt8}

def MqState.priority (s : MqState) (t : ThreadId) : Nat := (s.thread t).currentPriority

def mqQueues : Queues MqState MqOp MqEvent Unit ThreadId Nat where
  list s _ := s.suspendThread
  rank := MqState.priority
  Serves _ _ events _ := ∃ c urgent buffer, .sent c urgent buffer ∈ events
  Able _ _ _ := True

def MqKeepsPriority (s : MqState) : MqOp → Prop
  | .changePriority t priority => t ∈ s.suspendThread → priority = (s.thread t).currentPriority
  | _ => True

def MqState.Listed (s : MqState) : Prop := ∀ t ∈ s.suspendThread, s.call (.thread t) ≠ none

structure MqLists (s s' : MqState) (events : List MqEvent) : Prop where
  keeps : Keeps s.priority s'.priority s.suspendThread s'.suspendThread
  serves : (∃ c urgent buffer, .sent c urgent buffer ∈ events) → s'.suspendThread = s.suspendThread.tail
  flag : s'.flag = s.flag
  listed : s'.Listed

theorem MqState.setThread_same (f : Waiter → Waiter) : (s.setThread t f).thread t = f (s.thread t) :=
  update_self ..

theorem MqState.setThread_ne (f : Waiter → Waiter) (hne : u ≠ t) : (s.setThread t f).thread u = s.thread u :=
  update_of_ne hne ..

theorem MqState.priority_setThread {f : Waiter → Waiter}
    (hf : (f (s.thread t)).currentPriority = (s.thread t).currentPriority) : (s.setThread t f).priority = s.priority := by
  funext u
  unfold MqState.priority
  by_cases hu : u = t
  · rw [hu, MqState.setThread_same, hf]
  · rw [MqState.setThread_ne f hu]

theorem mqLists_leave (hlist : s'.suspendThread.Sublist s.suspendThread) (hpriority : s'.priority = s.priority)
    (hflag : s'.flag = s.flag) (hlisted : s'.Listed) (hevents : ∀ c urgent buffer, .sent c urgent buffer ∉ events) :
    MqLists s s' events :=
  ⟨⟨fun u _ _ => congrFun hpriority u, .leave hlist⟩, fun ⟨c, urgent, buffer, hmem⟩ => absurd hmem (hevents c urgent buffer),
    hflag, hlisted⟩

theorem MqState.Listed.setCall (h : s.Listed) (hnot : ¬ s.Waiting c) (call : Option MqCall) : (s.setCall c call).Listed := by
  intro t ht
  have hne : Caller.thread t ≠ c := by
    rintro rfl
    exact hnot ht
  rw [show (s.setCall c call).call (.thread t) = s.call (.thread t) from update_of_ne hne ..]
  exact h t ht

theorem MqState.Listed.not_waiting (h : s.Listed) (hcall : s.call c = none) : ¬ s.Waiting c := by
  cases c with
  | thread t => exact fun ht => h t ht hcall
  | interrupt n => exact id

theorem not_sent_mqEvents {c' : Caller} {urgent' : Bool} {buffer' : List UInt8} {shown : List MqEvent}
    {r : Option IpcErr × MqState} (hshown : .sent c' urgent' buffer' ∉ shown) :
    .sent c' urgent' buffer' ∉ (mqEvents c shown r).2 := by
  unfold mqEvents
  split
  · exact hshown
  · simp

theorem not_sent_recvShows {c' : Caller} : .sent c' urgent buffer ∉ recvShows c s := by
  unfold recvShows
  split <;> simp

theorem mqLists_send (h : s.Listed) (hcall : s.call c = none) {r : Option IpcErr × MqState}
    (hs : mqSend urgent s c buffer = some r) : MqLists s r.2 (mqEvents c [] r).2 := by
  have hevents : ∀ c' urgent' buffer', .sent c' urgent' buffer' ∉ (mqEvents c [] r).2 := fun _ _ _ =>
    not_sent_mqEvents List.not_mem_nil
  unfold mqSend at hs
  split_ifs at hs
  · cases hs
    exact mqLists_leave (.refl _) rfl rfl h hevents
  · split at hs
    · cases hs
      exact mqLists_leave (.refl _) rfl rfl h hevents
    · rename_i msg hfree
      cases hs
      have hlisted : MqState.Listed { s with mq := { s.mq with free := s.mq.next msg } } := h
      exact mqLists_leave (.refl _) rfl rfl (hlisted.setCall (h.not_waiting hcall) _) hevents

theorem MqState.suspend_priority {timer : Bool} : (s.suspend t size timeout timer).priority = s.priority :=
  MqState.priority_setThread (s := { s with suspendThread := ipcListSuspend s.flag s.priority t s.suspendThread })
    (f := fun thread => { thread with timer }) rfl

theorem MqState.Listed.suspend {timer : Bool} (h : s.Listed) : (s.suspend t size timeout timer).Listed := by
  intro u hu
  by_cases hut : u = t
  · subst hut
    rw [show (s.suspend u size timeout timer).call (.thread u) = some (.wait size timeout s.tick) from
      update_self ..]
    exact Option.some_ne_none _
  · have hne : Caller.thread u ≠ Caller.thread t := fun heq => hut (Caller.thread.inj heq)
    rw [show (s.suspend t size timeout timer).call (.thread u) = s.call (.thread u) from update_of_ne hne ..]
    have hmem := (ipcListSuspend_perm s.flag s.priority t s.suspendThread).subset hu
    exact h u ((List.mem_cons.1 hmem).resolve_left hut)

theorem mqLists_recvLoop (h : s.Listed) (hflag : s.flag = .prio) (hnot : ¬ s.Waiting c) {r : Option IpcErr × MqState}
    (hs : mqRecvLoop s c size timeout = some r) : MqLists s r.2 (mqEvents c (recvShows c r.2) r).2 := by
  have hevents : ∀ c' urgent' buffer', .sent c' urgent' buffer' ∉ (mqEvents c (recvShows c r.2) r).2 := fun _ _ _ =>
    not_sent_mqEvents not_sent_recvShows
  unfold mqRecvLoop at hs
  by_cases hempty : s.mq.entry = 0
  · rw [if_pos hempty] at hs
    cases c with
    | interrupt n => cases hs
    | thread t =>
      dsimp only at hs
      split_ifs at hs
      · cases hs
        have hfailed : (s.setThread t fun thread => { thread with error := .etimeout }).priority = s.priority :=
          MqState.priority_setThread rfl
        exact mqLists_leave (.refl _) hfailed rfl h hevents
      · obtain ⟨timer, -, rfl⟩ := Option.map_eq_some_iff.1 hs
        set s₁ := s.setThread t fun thread => { thread with error := .eok } with hs₁
        have hreset : s₁.priority = s.priority := MqState.priority_setThread rfl
        have hlisted : s₁.Listed := h
        have hpriority : (s₁.suspend t size timeout timer).priority = s.priority := MqState.suspend_priority.trans hreset
        refine ⟨⟨fun u _ _ => congrFun hpriority u, ?_⟩, fun ⟨c, urgent, buffer, hmem⟩ => absurd hmem (hevents _ _ _), rfl,
          hlisted.suspend⟩
        rw [hpriority, ← hreset]
        exact change_ipcListSuspend hflag hnot
  · rw [if_neg hempty] at hs
    split at hs
    · cases hs
    · rename_i msg hhead
      cases hs
      have hlisted : MqState.Listed { s with mq := { s.mq.dropHead msg with entry := s.mq.entry - 1 } } := h
      exact mqLists_leave (.refl _) rfl rfl (hlisted.setCall hnot _) hevents

theorem MqState.resume_suspendThread : s.resume.suspendThread = s.suspendThread.tail := by
  unfold MqState.resume
  split <;> simp_all [MqState.setThread]

theorem MqState.resume_priority : s.resume.priority = s.priority := by
  unfold MqState.resume
  split
  · rfl
  · rename_i t rest _
    exact MqState.priority_setThread (s := { s with suspendThread := rest }) rfl

theorem MqState.resume_flag : s.resume.flag = s.flag := by
  unfold MqState.resume
  split <;> rfl

theorem MqState.Listed.resume (h : s.Listed) : s.resume.Listed := by
  intro t ht
  rw [MqState.resume_suspendThread] at ht
  have hcall : s.resume.call = s.call := by
    unfold MqState.resume
    split <;> rfl
  rw [hcall]
  exact h t (List.mem_of_mem_tail ht)

theorem mqLists_reset {s' : MqState} (hs : rtMqReset s = some s') : MqLists s s' [.reset] := by
  obtain ⟨mq, -, rfl⟩ := Option.map_eq_some_iff.1 hs
  have hwalk : ∀ (rest : List ThreadId) (s : MqState), s.suspendThread = [] →
      let s' := rest.foldl (fun s t => s.setThread t fun thread => { thread with timer := false, error := .error }) s
      s'.suspendThread = [] ∧ s'.priority = s.priority ∧ s'.flag = s.flag := by
    intro rest
    induction rest with
    | nil => exact fun s hnone => ⟨hnone, rfl, rfl⟩
    | cons t rest ih =>
      intro s hnone
      obtain ⟨hlist, hpriority, hflag⟩ := ih (s.setThread t fun thread => { thread with timer := false, error := .error }) hnone
      exact ⟨hlist, hpriority.trans (MqState.priority_setThread rfl), hflag⟩
  obtain ⟨hlist, hpriority, hflag⟩ := hwalk s.suspendThread { s with suspendThread := [] } rfl
  have hnone : s.resumeAll.suspendThread = [] := hlist
  refine mqLists_leave ?_ hpriority hflag (fun t ht => ?_) (by simp)
  · rw [show MqState.suspendThread { s.resumeAll with mq := { mq with entry := 0 } } = [] from hnone]
    exact List.nil_sublist _
  · rw [show MqState.suspendThread { s.resumeAll with mq := { mq with entry := 0 } } = [] from hnone] at ht
    cases ht

theorem mqLists_step (h : s.Listed) (hok : MqKeepsPriority s op) (hflag : s.flag = .prio)
    (hs : stepMq s op = some (s', events)) : MqLists s s' events := by
  cases op with
  | send c buffer =>
    simp only [stepMq] at hs
    split_ifs at hs with hcall
    obtain ⟨r, hsend, heq⟩ := Option.map_eq_some_iff.1 hs
    cases heq
    exact mqLists_send h hcall hsend
  | urgent c buffer =>
    simp only [stepMq] at hs
    split_ifs at hs with hcall
    obtain ⟨r, hsend, heq⟩ := Option.map_eq_some_iff.1 hs
    cases heq
    exact mqLists_send h hcall hsend
  | recv c size timeout =>
    simp only [stepMq] at hs
    split_ifs at hs with hcall
    obtain ⟨r, hrecv, heq⟩ := Option.map_eq_some_iff.1 hs
    cases heq
    unfold rtMqRecv at hrecv
    split_ifs at hrecv
    · cases hrecv
      exact mqLists_leave (.refl _) rfl rfl h (by simp)
    · exact mqLists_recvLoop h hflag (h.not_waiting hcall) hrecv
  | resume c =>
    simp only [stepMq] at hs
    by_cases hwait : s.Waiting c
    · rw [if_pos hwait] at hs
      cases hs
    rw [if_neg hwait] at hs
    split at hs
    · cases hs
    · rename_i urgent msg buffer hcall
      cases hs
      have hlisted : MqState.Listed { s with mq := s.mq.copyIn urgent msg buffer } := h
      exact mqLists_leave (.refl _) rfl rfl (hlisted.setCall hwait _) (by simp)
    · rename_i urgent msg buffer hcall
      cases hs
      have hlisted : MqState.Listed { s with mq := if urgent then s.mq.linkHead msg else s.mq.linkTail msg } := h
      refine ⟨⟨fun u _ _ => congrFun MqState.resume_priority u, .leave ?_⟩, fun _ => MqState.resume_suspendThread,
        MqState.resume_flag, (hlisted.setCall hwait none).resume⟩
      rw [MqState.resume_suspendThread]
      exact List.tail_sublist _
    · rename_i size timeout start hcall
      have hlisted : (s.setCall c none).Listed := h.setCall hwait none
      split_ifs at hs
      · cases hs
        exact mqLists_leave (.refl _) rfl rfl hlisted (by simp)
      · obtain ⟨r, hrecv, heq⟩ := Option.map_eq_some_iff.1 hs
        cases heq
        have hnot : ¬ (s.setCall c none).Waiting c := by
          cases c <;> exact hwait
        have hlists := mqLists_recvLoop hlisted hflag hnot hrecv
        exact ⟨hlists.keeps, hlists.serves, hlists.flag, hlists.listed⟩
    · cases hs
      exact mqLists_leave (.refl _) rfl rfl (h.setCall hwait _) (by simp)
    · rename_i size msg buffer hcall
      cases hs
      have hlisted : MqState.Listed { s with mq := s.mq.release msg } := h
      exact mqLists_leave (.refl _) rfl rfl (hlisted.setCall hwait none) (by simp)
  | timeout t =>
    simp only [stepMq] at hs
    split_ifs at hs
    cases hs
    exact mqLists_leave List.erase_sublist
      (MqState.priority_setThread (s := { s with suspendThread := s.suspendThread.erase t }) rfl) rfl
      (fun u hu => h u (List.mem_of_mem_erase hu)) (by simp)
  | reset =>
    simp only [stepMq] at hs
    obtain ⟨s₁, hreset, heq⟩ := Option.map_eq_some_iff.1 hs
    cases heq
    exact mqLists_reset hreset
  | tick =>
    cases hs
    exact mqLists_leave (.refl _) rfl rfl h (by simp)
  | changePriority t p =>
    cases hs
    refine ⟨⟨fun u hu _ => ?_, .leave (.refl _)⟩, fun hsent => by simp at hsent, rfl, h⟩
    by_cases hut : u = t
    · subst hut
      have hsame : p = (s.thread u).currentPriority := hok hu
      exact congrFun (MqState.priority_setThread (f := fun thread => { thread with currentPriority := p }) hsame) u
    · exact congrArg Waiter.currentPriority (MqState.setThread_ne _ hut)

theorem mqQueues_inOrder {arrivals : Unit → List ThreadId} (hkind : kind = .prio)
    (hrun : RecordedRun mqQueues stepMq MqKeepsPriority (.init bytes msgSize maxMsgs kind rank) trace s arrivals) :
    mqQueues.InOrder stepMq s (arrivals ()) () := by
  have hinv {trace : List MqEvent} {s : MqState}
      (hrun : Transition.Run stepMq MqKeepsPriority (.init bytes msgSize maxMsgs kind rank) trace s) :
      s.Listed ∧ s.flag = .prio := by
    refine hrun.state_invariant (I := fun s => s.Listed ∧ s.flag = .prio) ⟨fun t ht => (List.not_mem_nil ht).elim, hkind⟩ ?_
    intro s op s' events h hok hs
    have hlists := mqLists_step h.1 hok h.2 hs
    exact ⟨hlists.listed, hlists.flag.trans h.2⟩
  have hordered : Ordered s.priority (arrivals ()) s.suspendThread :=
    hrun.ordered (i := ()) rfl fun trace s op s' events hbefore hok hs =>
      (mqLists_step (hinv hbefore).1 hok (hinv hbefore).2 hs).keeps
  refine ⟨hordered, fun op s' events hs hserves => ?_⟩
  have hok : MqKeepsPriority s op := by
    cases op with
    | changePriority t p =>
      cases hs
      obtain ⟨_, _, _, hmem⟩ := hserves
      cases hmem
    | _ => trivial
  have htail : mqQueues.list s' () = s.suspendThread.tail :=
    (mqLists_step (hinv hrun.run).1 hok (hinv hrun.run).2 hs).serves hserves
  rw [htail]
  exact hordered.servesLowest_tail

end MessageQueues

/-! ## Every object -/

/-- In every run that meets the condition, the suspend lists of all objects created with `RT_IPC_FLAG_PRIO` are in order of priority, and of arrival among equals, and a release wakes a waiter of the highest priority. -/
theorem waitsByPriority_of_run (priority : ThreadId → Nat) :
    (∀ (cfg : Config) (setup : Setup cfg) trace k arrivals o,
      RecordedRun kernelQueues (step cfg) KeepsPriority (Kernel.boot setup) trace k arrivals → setup.flag o = .prio →
        kernelQueues.InOrder (step cfg) k (arrivals o) o) ∧
    (∀ trace s arrivals,
      RecordedRun eventQueues stepEvent EventKeepsPriority (.init .prio priority) trace s arrivals →
        eventQueues.InOrder stepEvent s (arrivals ()) ()) ∧
    (∀ msgPool size trace s arrivals i,
      RecordedRun mbQueues stepMb MbKeepsPriority (.init msgPool size .prio priority) trace s arrivals →
        mbQueues.InOrder stepMb s (arrivals i) i) ∧
    ∀ bytes msgSize maxMsgs trace s arrivals,
      RecordedRun mqQueues stepMq MqKeepsPriority (.init bytes msgSize maxMsgs .prio priority) trace s arrivals →
        mqQueues.InOrder stepMq s (arrivals ()) () :=
  ⟨fun _ _ _ _ _ _ hrun hflag => kernelQueues_inOrder hrun hflag, fun _ _ _ hrun => eventQueues_inOrder rfl hrun,
    fun _ _ _ _ _ i hrun => mbQueues_inOrder rfl hrun i, fun _ _ _ _ _ _ hrun => mqQueues_inOrder rfl hrun⟩

def Setup.queuesByPriority {cfg : Config} (setup : Setup cfg) : Setup cfg :=
  { setup with semFlag := fun _ => .prio, mutexFlag := fun _ => .prio }

theorem priorityMax_le : 32 ≤ 256 := by decide

def Setup.byPriority (priorities : List Nat) : Setup ⟨32, by decide⟩ :=
  @Setup.queuesByPriority ⟨32, priorityMax_le⟩ (Setup.ofPriorities priorities)

def KeepsSuspended (k : Kernel) : Op → Prop
  | .changePriority t _ => (k.thread t).stat ≠ .suspend
  | .mutexTake m _ => ∀ owner ∈ (k.mutex m).owner, (k.thread owner).stat ≠ .suspend
  | _ => True

instance (k : Kernel) (op : Op) : Decidable (KeepsSuspended k op) := by
  induction op using Op.casesOn <;> dsimp only [KeepsSuspended] <;> infer_instance

theorem KernelInv.keepsPriority {cfg : Config} {k : Kernel} {op : Op} (h : KernelInv cfg k) (hok : KeepsSuspended k op) :
    KeepsPriority k op := by
  have hnot {t : ThreadId} (hstat : (k.thread t).stat ≠ .suspend) : ¬ k.WaitsByPriority t := fun ⟨o, _, hmem⟩ =>
    h.lists.not_suspend hstat o hmem
  cases op with
  | changePriority t priority => exact fun hwaits => absurd hwaits (hnot hok)
  | mutexTake m time => exact fun t owner _ howner _ _ _ => hnot (hok owner howner)
  | _ => trivial

/-- Two threads of one priority have passed one of a lower priority, and the owner of a mutex has been boosted while it is ready. -/
theorem waitsByPriority_of_run_boosted : ∃ trace k arrivals,
    RecordedRun kernelQueues (step ⟨32, by decide⟩) KeepsPriority (Kernel.boot (Setup.byPriority [5, 8, 5, 31, 7])) trace k
      arrivals ∧ k.tlist (.suspend (.sem 0)) = [0, 2, 1] ∧ (k.thread 3).currentPriority = 7 ∧
    kernelQueues.InOrder (step ⟨32, by decide⟩) k (arrivals (.sem 0)) (.sem 0) := by
  obtain ⟨trace, k, hrun, hfound⟩ := exists_kernelRun (Setup.byPriority [5, 8, 5, 31, 7]) KeepsSuspended
    [.startup 1, .startup 3, .schedulerStart, .semTake 0 (-1), .startup 0, .semTake 0 (-1), .startup 2, .semTake 0 (-1),
      .mutexTake 0 (-1), .startup 4, .mutexTake 0 (-1)]
    (fun _ k => decide (k.tlist (.suspend (.sem 0)) = [0, 2, 1] ∧ (k.thread 3).currentPriority = 7)) (by decide +kernel)
  obtain ⟨hlist, hboosted⟩ := of_decide_eq_true hfound
  have hkeeps := hrun.mono fun trace k op hbefore hok => (KernelRun.inv hbefore).keepsPriority hok
  obtain ⟨arrivals, hrecorded⟩ := exists_recordedRun kernelQueues hkeeps
  exact ⟨trace, k, arrivals, hrecorded, hlist, hboosted, (waitsByPriority_of_run fun _ => 0).1 _ _ _ _ _ (.sem 0) hrecorded rfl⟩

/-- The second waiter of a semaphore gets a higher priority, by a control call, or because it owns a mutex that a thread of a higher priority waits for. It stays behind the first, which the release wakes. -/
theorem waitsByPriority_fails :
    (∃ trace k, KernelRun (fun _ _ => True) (Setup.byPriority [31, 20, 25]) trace k ∧
      k.tlist (.suspend (.sem 0)) = [1, 2] ∧ (k.thread 1).currentPriority = 20 ∧ (k.thread 2).currentPriority = 5 ∧
      (step ⟨32, by decide⟩ k (.semRelease 0)).map Prod.snd = some [.semRelease 0 (some 1)]) ∧
    ∃ trace k, KernelRun (fun _ _ => True) (Setup.byPriority [31, 20, 25, 5]) trace k ∧
      k.tlist (.suspend (.sem 0)) = [1, 2] ∧ (k.thread 1).currentPriority = 20 ∧ (k.thread 2).currentPriority = 5 ∧
      (step ⟨32, by decide⟩ k (.semRelease 0)).map Prod.snd = some [.semRelease 0 (some 1)] := by
  constructor
  · obtain ⟨trace, k, hrun, hfound⟩ := exists_kernelRun (Setup.byPriority [31, 20, 25]) (fun _ _ => True)
      [.startup 0, .startup 1, .startup 2, .schedulerStart, .semTake 0 (-1), .semTake 0 (-1), .changePriority 2 5]
      (fun _ k => decide (k.tlist (.suspend (.sem 0)) = [1, 2] ∧ (k.thread 1).currentPriority = 20 ∧
        (k.thread 2).currentPriority = 5 ∧
        (step ⟨32, by decide⟩ k (.semRelease 0)).map Prod.snd = some [.semRelease 0 (some 1)])) (by decide +kernel)
    exact ⟨trace, k, hrun, of_decide_eq_true hfound⟩
  · obtain ⟨trace, k, hrun, hfound⟩ := exists_kernelRun (Setup.byPriority [31, 20, 25, 5]) (fun _ _ => True)
      [.startup 0, .startup 1, .startup 2, .schedulerStart, .semTake 0 (-1), .mutexTake 0 (-1), .semTake 0 (-1), .startup 3,
        .mutexTake 0 (-1)]
      (fun _ k => decide (k.tlist (.suspend (.sem 0)) = [1, 2] ∧ (k.thread 1).currentPriority = 20 ∧
        (k.thread 2).currentPriority = 5 ∧
        (step ⟨32, by decide⟩ k (.semRelease 0)).map Prod.snd = some [.semRelease 0 (some 1)])) (by decide +kernel)
    exact ⟨trace, k, hrun, of_decide_eq_true hfound⟩

end RtThread
