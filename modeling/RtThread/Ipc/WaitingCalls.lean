import RtThread.Drivers.DataQueue
import RtThread.Ipc.Mailbox
import RtThread.Ipc.MessageQueue
import RtThread.Ipc.Timeouts
import RtThread.Vbus.PrioQueue

/-!
# Waiting in the components

The calls of mailboxes, message queues, memory pools, data queues and priority queues wait in the loops whose timeouts have been followed. For each call it is shown what its component has of it, and that its steps, when it is made and when its thread goes on behind `rt_schedule`, are those of its loop.
-/

namespace RtThread

open Function

/-! ## The loops of the components -/

/-- What a component has of one of its calls: the timeout and the tick that it has kept, while it waits or is to go on behind `rt_schedule`, and the state of its thread. -/
structure CallView where
  kept : Option (Int × BitVec 32)
  tick : BitVec 32
  waiting : Prop
  waiter : Waiter

namespace CallView

def Keeps (v : CallView) (f : TimedLoop) (c : TimedCall) : Prop :=
  ∃ start, v.kept = some (c.timeout, start) ∧ (f.recalculates → start = c.start ∧ v.tick = c.tick)

def Shows (v : CallView) (f : TimedLoop) (c : TimedCall) : Prop :=
  match c.pc with
  | .test => False
  | .suspended => v.Keeps f c ∧ v.waiting ∧ v.waiter.timer = c.deadline.isSome
  | .ready code => v.Keeps f c ∧ ¬ v.waiting ∧ v.waiter.error = code
  | .returned _ => v.kept = none

end CallView

namespace TimedLoop

/-- A test of the loop takes the call to what the component has of it. -/
def Tests (f : TimedLoop) (c : TimedCall) (v : CallView) (result : IpcErr) : Prop :=
  ∃ met c', c.tested f met = some c' ∧ v.Shows f c' ∧ ∀ r, c'.pc = .returned r → r = result

/-- What a component does for one of its calls, when it is made and when its thread goes on, are the steps of the loop. -/
structure Follows {σ ε : Type} (f : TimedLoop) (view : σ → CallView) (call : Int → σ → Option (σ × List ε))
    (resume : σ → Option (σ × List ε)) (result : σ → List ε → IpcErr) : Prop where
  called : ∀ (T : Nat) tick s s' events, 0 < T → (f.recalculates → (view s).tick = tick) → call T s = some (s', events) →
    f.Tests (.begin T tick) (view s') (result s' events)
  resumed : ∀ s c s' events, (view s).Shows f c → (view s).kept ≠ none → resume s = some (s', events) →
    ∃ code, c.pc = .ready code ∧ (code = .eok → f.Tests (c.proceeds f code) (view s') (result s' events)) ∧
      (code ≠ .eok → (view s').kept = none ∧ result s' events = code)

end TimedLoop

def MbCall.kept (receives : Bool) : MbCall → Option (Int × BitVec 32)
  | .send _ timeout start => if receives then none else some (timeout, start)
  | .recv timeout start => if receives then some (timeout, start) else none

def MbState.view (t : ThreadId) (receives : Bool) (s : MbState) : CallView :=
  ⟨(s.call t).bind (MbCall.kept receives), s.tick, s.Waiting t, s.thread t⟩

def mbResult : List MbEvent → IpcErr
  | .send _ _ result :: _ | .recv _ result _ :: _ => result
  | [] => .eok

def MqCall.kept : MqCall → Option (Int × BitVec 32)
  | .wait _ timeout start => some (timeout, start)
  | _ => none

def MqState.view (t : ThreadId) (s : MqState) : CallView :=
  ⟨(s.call (.thread t)).bind MqCall.kept, s.tick, s.Waiting (.thread t), s.thread t⟩

def mqResult : List MqEvent → IpcErr
  | .failed _ result :: _ => result
  | _ => .eok

def MpCall.kept : MpCall → Option (Int × BitVec 32)
  | .wait time beforeSleep => some (time, beforeSleep)
  | _ => none

def MpState.view (t : ThreadId) (s : MpState) : CallView :=
  ⟨(s.call (.thread t)).bind MpCall.kept, s.pool.tick, s.Waiting (.thread t), s.pool.thread t⟩

/-- `rt_mp_alloc` returns `RT_NULL`, and its error is that of the thread. -/
def mpResult (t : ThreadId) (s : MpState) : List MpEvent → IpcErr
  | .failed _ :: _ => (s.pool.thread t).error
  | _ => .eok

def DqCall.kept (pops : Bool) : DqCall → Option (Int × BitVec 32)
  | .push _ timeout => if pops then none else some (timeout, 0)
  | .pop timeout => if pops then some (timeout, 0) else none

def DqState.view (t : ThreadId) (pops : Bool) (s : DqState) : CallView :=
  ⟨(s.call t).bind (DqCall.kept pops), 0, s.Waiting t, s.thread t⟩

def dqResult : List DqEvent → IpcErr
  | .failed _ result :: _ => result
  | .full _ _ :: _ | .empty _ :: _ => .etimeout
  | _ => .eok

def PqCall.kept : PqCall → Option (Int × BitVec 32)
  | .wait timeout => some (timeout, 0)
  | _ => none

def PqState.view (t : ThreadId) (s : PqState) : CallView :=
  ⟨(s.call (.thread t)).bind PqCall.kept, 0, s.Waiting (.thread t), s.pool.thread t⟩

def pqResult : List PqEvent → IpcErr
  | .failed _ result :: _ => result
  | _ => .eok

/-- The seven calls. -/
inductive WaitingCall
  | mbSend (value : Nat)
  | mbRecv
  | mqRecv (size : Nat)
  | mpAlloc
  | dataQueuePush (item : DataItem)
  | dataQueuePop
  | prioQueuePop

namespace WaitingCall

def loop : WaitingCall → TimedLoop
  | mbSend _ => .rtMbSendWait
  | mbRecv => .rtMbRecv
  | mqRecv _ => .rtMqRecv
  | mpAlloc => .rtMpAlloc
  | dataQueuePush _ => .rtDataQueuePush
  | dataQueuePop => .rtDataQueuePop
  | prioQueuePop => .rtPrioQueuePop

def Follows (t : ThreadId) (call : WaitingCall) : Prop :=
  match call with
  | mbSend value => call.loop.Follows (MbState.view t false) (fun T s => stepMb s (.send (some t) value T))
      (fun s => stepMb s (.resume t)) fun _ => mbResult
  | mbRecv => call.loop.Follows (MbState.view t true) (fun T s => stepMb s (.recv (some t) T))
      (fun s => stepMb s (.resume t)) fun _ => mbResult
  | mqRecv size => call.loop.Follows (MqState.view t) (fun T s => stepMq s (.recv (.thread t) size T))
      (fun s => stepMq s (.resume (.thread t))) fun _ => mqResult
  | mpAlloc => call.loop.Follows (MpState.view t) (fun T s => stepMp s (.alloc (.thread t) T))
      (fun s => stepMp s (.resume (.thread t))) (mpResult t)
  | dataQueuePush item => call.loop.Follows (DqState.view t false) (fun T s => stepDq s (.push (some t) item T))
      (fun s => stepDq s (.resume t)) fun _ => dqResult
  | dataQueuePop => call.loop.Follows (DqState.view t true) (fun T s => stepDq s (.pop (some t) T))
      (fun s => stepDq s (.resume t)) fun _ => dqResult
  | prioQueuePop => call.loop.Follows (PqState.view t) (fun T s => stepPq s (.pop (.thread t) T))
      (fun s => stepPq s (.resume (.thread t))) fun _ => pqResult

end WaitingCall

section Components

variable {f : TimedLoop} {c : TimedCall} {v v' : CallView} {result : IpcErr} {t : ThreadId} {timeout : Int} {start : BitVec 32}

theorem CallView.Shows.resume {α : Type} {r : α} {failed next : Option α} (h : v.Shows f c) (hkept : v.kept = some (timeout, start))
    (hwait : ¬ v.waiting) (hs : (if v.waiter.error ≠ .eok then failed else next) = some r)
    (hfail : failed = some r → v'.kept = none ∧ result = v.waiter.error)
    (htests : next = some r → ∀ c' : TimedCall, c'.timeout = f.again timeout start v.tick →
      (f.recalculates → v.tick = c'.tick) → f.Tests c' v' result) :
    ∃ code, c.pc = .ready code ∧ (code = .eok → f.Tests (c.proceeds f code) v' result) ∧
      (code ≠ .eok → v'.kept = none ∧ result = code) := by
  unfold CallView.Shows at h
  split at h
  · exact h.elim
  · exact absurd h.2.1 hwait
  · obtain ⟨⟨start', hkept', hsame⟩, -, rfl⟩ := h
    cases hkept.symm.trans hkept'
    refine ⟨_, by assumption, fun heok => ?_, fun hcode => hfail ((if_pos hcode).symm.trans hs)⟩
    rw [heok]
    refine htests ((if_neg (not_not.2 heok)).symm.trans hs) _ ?_ fun hrecalculates => (hsame hrecalculates).2
    change f.again c.timeout c.start c.tick = f.again c.timeout start v.tick
    unfold TimedLoop.again
    split_ifs with hrecalculates
    · rw [(hsame hrecalculates).1, (hsame hrecalculates).2]
    · rfl
  · cases hkept.symm.trans h

theorem TimedLoop.Tests.met (hkept : v.kept = none) (hresult : result = .eok) : f.Tests c v result :=
  ⟨true, { c with pc := .returned .eok }, rfl, hkept, fun r hr => by cases hr; exact hresult.symm⟩

theorem TimedLoop.Tests.refused (hzero : c.timeout = 0) (hkept : v.kept = none) (hresult : result = f.noWaiting) : f.Tests c v result := by
  refine ⟨false, { c with pc := .returned f.noWaiting }, ?_, hkept, fun r hr => by cases hr; exact hresult.symm⟩
  rw [TimedCall.tested, if_neg Bool.false_ne_true, TimedLoop.refused, if_pos hzero]
  rfl

theorem TimedLoop.Tests.waits {timer : Bool} (start : BitVec 32) (hzero : c.timeout ≠ 0) (htimer : timeoutTimer c.timeout = some timer)
    (hkept : v.kept = some (c.timeout, start)) (hstart : f.recalculates → start = c.tick ∧ v.tick = c.tick) (hwaiting : v.waiting)
    (hwaiter : v.waiter.timer = timer) : f.Tests c v result := by
  refine ⟨false, { c with
    start := c.tick
    deadline := if timer then some (c.tick + BitVec.ofInt 32 c.timeout) else none
    pc := .suspended
    elapsed := 0 }, ?_, ⟨⟨start, hkept, hstart⟩, hwaiting, ?_⟩, fun r hr => by cases hr⟩
  · rw [TimedCall.tested, if_neg Bool.false_ne_true, TimedLoop.refused, if_neg hzero, htimer]
    rfl
  · rw [hwaiter]
    cases timer <;> rfl

theorem mbSendLoop_tests {s s' : MbState} {value : Nat} {events : List MbEvent} (hnone : s.call t = none) (htimeout : c.timeout = timeout)
    (htick : s.tick = c.tick) (hs : (mbSendLoop s (some t) value timeout).map (sendEvents (some t) value) = some (s', events)) :
    TimedLoop.rtMbSendWait.Tests c (s'.view t false) (mbResult events) := by
  subst htimeout
  rw [mbSendLoop] at hs
  split_ifs at hs with hfull hzero
  · cases hs
    exact .refused hzero (by simp [MbState.view, MbState.setThread, hnone]) rfl
  · dsimp only at hs
    rw [Option.map_map] at hs
    obtain ⟨timer, htimer, hs⟩ := Option.map_eq_some_iff.1 hs
    cases hs
    refine .waits s.tick hzero htimer ?_ ?_ ?_ ?_ <;>
      simp [MbState.view, MbCall.kept, MbState.suspendSender, MbState.setThread, MbState.setCall, MbState.Waiting, htick,
        (ipcListSuspend_perm _ _ _ _).mem_iff]
  · cases hs
    refine .met ?_ rfl
    simp only [MbState.resumeReceiver, MbState.view]
    split <;> simp [MbState.setThread, hnone]

theorem mbRecvLoop_tests {s s' : MbState} {events : List MbEvent} (hnone : s.call t = none) (htimeout : c.timeout = timeout)
    (htick : s.tick = c.tick) (hs : (mbRecvLoop s (some t) timeout).map (recvEvents (some t)) = some (s', events)) :
    TimedLoop.rtMbRecv.Tests c (s'.view t true) (mbResult events) := by
  subst htimeout
  rw [mbRecvLoop] at hs
  split_ifs at hs with hempty hzero
  · cases hs
    exact .refused hzero (by simp [MbState.view, MbState.setThread, hnone]) rfl
  · rw [Option.map_map] at hs
    obtain ⟨timer, htimer, hs⟩ := Option.map_eq_some_iff.1 hs
    cases hs
    refine .waits s.tick hzero htimer ?_ ?_ ?_ ?_ <;>
      simp [MbState.view, MbCall.kept, MbState.suspendReceiver, MbState.setThread, MbState.setCall, MbState.Waiting, htick,
        (ipcListSuspend_perm _ _ _ _).mem_iff]
  · cases hs
    refine .met ?_ rfl
    simp only [MbState.resumeSender, MbState.view]
    split <;> simp [MbState.setThread, hnone]

theorem rtMbSendWait_follows (t : ThreadId) (value : Nat) : WaitingCall.Follows t (.mbSend value) where
  called T tick s s' events hpos htick hs := by
    rw [stepMb] at hs
    split_ifs at hs with hfree
    rw [rtMbSendWait, if_neg fun hboth => hpos.ne' (Int.natCast_eq_zero.1 hboth.2)] at hs
    exact mbSendLoop_tests hfree rfl (htick rfl) hs
  resumed s c s' events h hkept hs := by
    rw [stepMb] at hs
    split_ifs at hs with hwait
    rcases hcall : s.call t with _ | ⟨value, timeout, start⟩ | ⟨timeout, start⟩ <;> have hview := congrArg (Option.bind · (MbCall.kept false)) hcall
    · exact absurd hview hkept
    · rw [hcall] at hs
      refine h.resume hview hwait hs (fun hs => ?_) fun hs c' htimeout htick =>
        mbSendLoop_tests (s := s.setCall t none) (update_self ..) htimeout (htick rfl) hs
      cases hs
      exact ⟨by simp [MbState.view, MbState.setCall], rfl⟩
    · exact absurd hview hkept

theorem rtMbRecv_follows (t : ThreadId) : WaitingCall.Follows t .mbRecv where
  called T tick s s' events hpos htick hs := by
    rw [stepMb] at hs
    split_ifs at hs with hfree
    rw [rtMbRecv, if_neg fun hboth => hpos.ne' (Int.natCast_eq_zero.1 hboth.2)] at hs
    exact mbRecvLoop_tests hfree rfl (htick rfl) hs
  resumed s c s' events h hkept hs := by
    rw [stepMb] at hs
    split_ifs at hs with hwait
    rcases hcall : s.call t with _ | ⟨value, timeout, start⟩ | ⟨timeout, start⟩ <;> have hview := congrArg (Option.bind · (MbCall.kept true)) hcall
    · exact absurd hview hkept
    · exact absurd hview hkept
    · rw [hcall] at hs
      refine h.resume hview hwait hs (fun hs => ?_) fun hs c' htimeout htick =>
        mbRecvLoop_tests (s := s.setCall t none) (update_self ..) htimeout (htick rfl) hs
      cases hs
      exact ⟨by simp [MbState.view, MbState.setCall], rfl⟩

theorem mqRecvLoop_tests {s s' : MqState} {size : Nat} {events : List MqEvent} (hnone : s.call (.thread t) = none)
    (htimeout : c.timeout = timeout) (htick : s.tick = c.tick)
    (hs : ((mqRecvLoop s (.thread t) size timeout).map fun r => mqEvents (.thread t) (recvShows (.thread t) r.2) r) = some (s', events)) :
    TimedLoop.rtMqRecv.Tests c (s'.view t) (mqResult events) := by
  subst htimeout
  rw [mqRecvLoop] at hs
  split_ifs at hs with hempty hzero
  · cases hs
    exact .refused hzero (by simp [MqState.view, MqState.setThread, hnone]) rfl
  · rw [Option.map_map] at hs
    obtain ⟨timer, htimer, hs⟩ := Option.map_eq_some_iff.1 hs
    cases hs
    refine .waits s.tick hzero htimer ?_ ?_ ?_ ?_ <;>
      simp [MqState.view, MqCall.kept, MqState.suspend, MqState.setThread, MqState.setCall, MqState.Waiting, htick,
        (ipcListSuspend_perm _ _ _ _).mem_iff]
  · split at hs <;> cases hs
    refine .met ?_ ?_ <;> simp [MqState.view, MqCall.kept, MqState.setCall, recvShows, mqResult]

theorem rtMqRecv_follows (t : ThreadId) (size : Nat) : WaitingCall.Follows t (.mqRecv size) where
  called T tick s s' events hpos htick hs := by
    rw [stepMq] at hs
    split_ifs at hs with hfree
    have hfast : ¬ (s.mq.entry = 0 ∧ (T : Int) = 0) := fun hboth => hpos.ne' (Int.natCast_eq_zero.1 hboth.2)
    rw [rtMqRecv, if_neg hfast] at hs
    split_ifs at hs
    · cases hs
    · exact mqRecvLoop_tests hfree rfl (htick rfl) hs
  resumed s c s' events h hkept hs := by
    rw [stepMq] at hs
    split_ifs at hs with hwait
    cases hcall : s.call (.thread t) with
    | none => exact absurd (congrArg (Option.bind · MqCall.kept) hcall) hkept
    | some call =>
      cases call with
      | wait size timeout start =>
        rw [hcall] at hs
        refine h.resume (congrArg (Option.bind · MqCall.kept) hcall) hwait hs (fun hs => ?_) fun hs c' htimeout htick =>
          mqRecvLoop_tests (s := s.setCall (.thread t) none) (update_self ..) htimeout (htick rfl) hs
        cases hs
        exact ⟨by simp [MqState.view, MqState.setCall], rfl⟩
      | _ => exact absurd (congrArg (Option.bind · MqCall.kept) hcall) hkept

theorem rtMpAlloc_tests {s s' : MpState} {events : List MpEvent} (htimeout : c.timeout = timeout) (htick : s.pool.tick = c.tick)
    (hs : (rtMpAlloc s.pool (.thread t) timeout).map (s.allocates (.thread t)) = some (s', events)) :
    TimedLoop.rtMpAlloc.Tests c (s'.view t) (mpResult t s' events) := by
  subst htimeout
  rw [rtMpAlloc] at hs
  split_ifs at hs with hnone hzero
  · cases hs
    refine .refused hzero ?_ ?_ <;> simp [MpState.view, MpState.setCall, mpResult, MemPool.setThread, TimedLoop.rtMpAlloc]
  · rw [Option.map_map] at hs
    obtain ⟨timer, htimer, hs⟩ := Option.map_eq_some_iff.1 hs
    cases hs
    refine .waits s.pool.tick hzero htimer ?_ ?_ ?_ ?_ <;>
      simp [MpState.view, MpCall.kept, MpState.setCall, MpState.Waiting, MemPool.suspend, MemPool.setThread, htick]
  · repeat' split at hs
    all_goals cases hs
    exact .met (by simp [MpState.view, MpState.setCall]) rfl

theorem rtMpAlloc_follows (t : ThreadId) : WaitingCall.Follows t .mpAlloc where
  called T tick s s' events hpos htick hs := by
    rw [stepMp] at hs
    split_ifs at hs
    exact rtMpAlloc_tests rfl (htick rfl) hs
  resumed s c s' events h hkept hs := by
    rw [stepMp.eq_def] at hs
    dsimp only at hs
    by_cases hwait : s.Waiting (.thread t)
    · rw [if_pos hwait] at hs
      cases hs
    rw [if_neg hwait] at hs
    cases hcall : s.call (.thread t) with
    | none => exact absurd (congrArg (Option.bind · MpCall.kept) hcall) hkept
    | some call =>
      cases call with
      | wait time beforeSleep =>
        rw [hcall] at hs
        dsimp only at hs
        split_ifs at hs
        rw [rtMpAllocResume, apply_ite (Option.map (s.allocates (.thread t)))] at hs
        refine h.resume (congrArg (Option.bind · MpCall.kept) hcall) hwait hs (fun hs => ?_) fun hs c' htimeout htick =>
          rtMpAlloc_tests htimeout (htick rfl) hs
        cases hs
        exact ⟨by simp [MpState.view, MpState.setCall], rfl⟩
      | _ => exact absurd (congrArg (Option.bind · MpCall.kept) hcall) hkept

theorem rtDataQueuePush_tests {s s' : DqState} {item : DataItem} {events : List DqEvent} (hnone : s.call t = none)
    (htimeout : c.timeout = timeout) (hs : rtDataQueuePush s (some t) item timeout = some (s', events)) :
    TimedLoop.rtDataQueuePush.Tests c (s'.view t false) (dqResult events) := by
  subst htimeout
  rw [rtDataQueuePush] at hs
  split_ifs at hs with hfull hzero
  · cases hs
    exact .refused hzero (by simp [DqState.view, hnone]) rfl
  · obtain ⟨timer, htimer, hs⟩ := Option.map_eq_some_iff.1 hs
    cases hs
    refine .waits 0 hzero htimer ?_ (fun hno => absurd hno Bool.false_ne_true) ?_ ?_ <;>
      simp [DqState.view, DqCall.kept, DqState.setThread, DqState.setCall, DqState.Waiting]
  · cases hs
    refine .met ?_ rfl
    simp only [DqState.resumePopper, DqState.view]
    split <;> simp [DqState.setThread, hnone]

theorem rtDataQueuePop_tests {s s' : DqState} {events : List DqEvent} (hnone : s.call t = none)
    (htimeout : c.timeout = timeout) (hs : rtDataQueuePop s (some t) timeout = some (s', events)) :
    TimedLoop.rtDataQueuePop.Tests c (s'.view t true) (dqResult events) := by
  subst htimeout
  rw [rtDataQueuePop] at hs
  split_ifs at hs with hempty hzero
  · cases hs
    exact .refused hzero (by simp [DqState.view, hnone]) rfl
  · obtain ⟨timer, htimer, hs⟩ := Option.map_eq_some_iff.1 hs
    cases hs
    refine .waits 0 hzero htimer ?_ (fun hno => absurd hno Bool.false_ne_true) ?_ ?_ <;>
      simp [DqState.view, DqCall.kept, DqState.setThread, DqState.setCall, DqState.Waiting]
  all_goals
    cases hs
    refine .met ?_ rfl
    simp only [DqState.resumePusher, DqState.view]
    repeat' split
    all_goals simp [DqState.setThread, hnone]

theorem rtDataQueuePush_follows (t : ThreadId) (item : DataItem) : WaitingCall.Follows t (.dataQueuePush item) where
  called T tick s s' events hpos htick hs := by
    rw [stepDq] at hs
    split_ifs at hs with hfree
    exact rtDataQueuePush_tests hfree rfl hs
  resumed s c s' events h hkept hs := by
    rw [stepDq] at hs
    split_ifs at hs with hwait
    rcases hcall : s.call t with _ | ⟨item, timeout⟩ | ⟨timeout⟩ <;> have hview := congrArg (Option.bind · (DqCall.kept false)) hcall
    · exact absurd hview hkept
    · rw [hcall] at hs
      refine h.resume hview hwait hs (fun hs => ?_) fun hs c' htimeout htick =>
        rtDataQueuePush_tests (s := s.setCall t none) (update_self ..) htimeout hs
      cases hs
      exact ⟨by simp [DqState.view, DqState.setCall], rfl⟩
    · exact absurd hview hkept

theorem rtDataQueuePop_follows (t : ThreadId) : WaitingCall.Follows t .dataQueuePop where
  called T tick s s' events hpos htick hs := by
    rw [stepDq] at hs
    split_ifs at hs with hfree
    exact rtDataQueuePop_tests hfree rfl hs
  resumed s c s' events h hkept hs := by
    rw [stepDq] at hs
    split_ifs at hs with hwait
    rcases hcall : s.call t with _ | ⟨item, timeout⟩ | ⟨timeout⟩ <;> have hview := congrArg (Option.bind · (DqCall.kept true)) hcall
    · exact absurd hview hkept
    · exact absurd hview hkept
    · rw [hcall] at hs
      refine h.resume hview hwait hs (fun hs => ?_) fun hs c' htimeout htick =>
        rtDataQueuePop_tests (s := s.setCall t none) (update_self ..) htimeout hs
      cases hs
      exact ⟨by simp [DqState.view, DqState.setCall], rfl⟩

theorem popLoop_tests {s s' : PqState} {events : List PqEvent} (htimeout : c.timeout = timeout)
    (hs : popLoop s (.thread t) timeout = some (s', events)) : TimedLoop.rtPrioQueuePop.Tests c (s'.view t) (pqResult events) := by
  subst htimeout
  rw [popLoop] at hs
  split at hs
  · cases hs
  · cases hs
    exact .met (by simp [PqState.view, PqCall.kept, PqState.setCall]) rfl
  · split_ifs at hs with hzero
    · cases hs
      exact .refused hzero (by simp [PqState.view, PqState.setCall]) rfl
    · obtain ⟨timer, htimer, hs⟩ := Option.map_eq_some_iff.1 hs
      cases hs
      refine .waits 0 hzero htimer ?_ (fun hno => absurd hno Bool.false_ne_true) ?_ ?_ <;>
        simp [PqState.view, PqCall.kept, PqState.suspendPop, MemPool.setThread, PqState.setCall, PqState.Waiting]

theorem rtPrioQueuePop_follows (t : ThreadId) : WaitingCall.Follows t .prioQueuePop where
  called T tick s s' events hpos htick hs := by
    rw [stepPq] at hs
    split_ifs at hs
    exact popLoop_tests rfl hs
  resumed s c s' events h hkept hs := by
    rw [stepPq] at hs
    split_ifs at hs with hwait
    obtain ⟨call, hcall, hs⟩ := Option.bind_eq_some_iff.1 hs
    cases call with
    | wait timeout =>
      rw [resumeCall] at hs
      refine h.resume (congrArg (Option.bind · PqCall.kept) hcall) hwait hs (fun hs => ?_) fun hs c' htimeout htick => popLoop_tests htimeout hs
      cases hs
      exact ⟨by simp [PqState.view, PqState.setCall], rfl⟩
    | _ => exact absurd (congrArg (Option.bind · PqCall.kept) hcall) hkept

end Components

/-! ## The bound -/

/-- Each of the calls waits in its loop; and in every run in which the loop does not start its timer anew for ticks that have passed, the call waits within its timeout. -/
theorem waitsBounded_of_run (t : ThreadId) (call : WaitingCall) : call.Follows t ∧ ∀ T tick₀ trace s, 0 < T → T < 2 ^ 31 →
    TimedRun call.loop T tick₀ (WithinTimeout call.loop) trace s → WaitsBounded T s := by
  refine ⟨?_, fun _ _ _ _ hpos hlt hrun => hrun.bounded hpos hlt⟩
  cases call with
  | mbSend value => exact rtMbSendWait_follows t value
  | mbRecv => exact rtMbRecv_follows t
  | mqRecv size => exact rtMqRecv_follows t size
  | mpAlloc => exact rtMpAlloc_follows t
  | dataQueuePush item => exact rtDataQueuePush_follows t item
  | dataQueuePop => exact rtDataQueuePop_follows t
  | prioQueuePop => exact rtPrioQueuePop_follows t

theorem exists_timedRun (f : TimedLoop) (T : Nat) (ok : TimedCall → TimedOp → Prop) [∀ s op, Decidable (ok s op)]
    (ops : List TimedOp) (found : TimedCall → Bool)
    (h : ((Transition.exec (stepTimed f) ok (.begin T 0) ops).any fun r => found r.2) = true) :
    ∃ trace s, TimedRun f T 0 ok trace s ∧ found s = true :=
  Transition.exists_run_of_exec ops (fun _ => found) h

/-- A receiver is woken after four ticks, goes on after one more, finds the mailbox empty again, and waits for the other five. -/
theorem waitsBounded_of_run_expired :
    ∃ trace s, TimedRun .rtMbRecv 10 0 (WithinTimeout .rtMbRecv) trace s ∧ s.pc = .returned .etimeout ∧ WaitsBounded 10 s := by
  obtain ⟨trace, s, hrun, hfound⟩ := exists_timedRun .rtMbRecv 10 (WithinTimeout .rtMbRecv)
    ([.test false] ++ List.replicate 4 .tick ++ [.wake .eok, .tick, .proceed, .test false] ++ List.replicate 5 .tick ++
      [.proceed]) (fun s => decide (s.pc = .returned .etimeout)) (by decide +kernel)
  exact ⟨trace, s, hrun, of_decide_eq_true hfound, (waitsBounded_of_run 0 .mbRecv).2 _ _ _ _ (by decide) (by decide) hrun⟩

/-- A loop that does not recalculate waits nine ticks twice, and a sender that has no time left returns with `-RT_EFULL`. -/
theorem waitsBounded_fails :
    (∀ f ∈ TimedLoop.all, f.recalculates = false → ∃ trace s, TimedRun f 10 0 (fun _ _ => True) trace s ∧ s.spent = 18) ∧
    ∃ trace s, TimedRun .rtMbSendWait 2 0 (fun _ _ => True) trace s ∧ s.pc = .returned .efull := by
  constructor
  · intro f hf hnot
    have hexec : ∀ f ∈ TimedLoop.all, f.recalculates = false →
        ((Transition.exec (stepTimed f) (fun _ _ => True) (.begin 10 0)
          ([.test false] ++ List.replicate 9 .tick ++ [.wake .eok, .proceed, .test false] ++ List.replicate 9 .tick)).any
            fun r => decide (r.2.spent = 18)) = true := by decide +kernel
    obtain ⟨trace, s, hrun, hfound⟩ := exists_timedRun f 10 (fun _ _ => True) _ (fun s => decide (s.spent = 18)) (hexec f hf hnot)
    exact ⟨trace, s, hrun, of_decide_eq_true hfound⟩
  · obtain ⟨trace, s, hrun, hfound⟩ := exists_timedRun .rtMbSendWait 2 (fun _ _ => True)
      [.test false, .tick, .wake .eok, .tick, .proceed, .test false] (fun s => decide (s.pc = .returned .efull))
      (by decide +kernel)
    exact ⟨trace, s, hrun, of_decide_eq_true hfound⟩

end RtThread
