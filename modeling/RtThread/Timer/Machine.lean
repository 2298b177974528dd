import RtThread.Lib.Transition
import RtThread.Timer.Rows

/-!
# The timers at work

The tick interrupt runs `rt_timer_check` and the timer thread runs `rt_soft_timer_check`. Each is a loop that stops twice for code that is not its own: before it takes up the next timer and while a timeout function runs. In between, threads, interrupts and the timeout functions start, stop and control timers. The tick interrupt runs to its end before the timer thread goes on.

`rt_soft_timer_check` reads the next node of its walk before it runs the timeout function and goes on from the node it has read.
-/

namespace RtThread

/-- Where `rt_timer_check` is. -/
inductive HardCheck
  | idle
  | loop (currentTick : BitVec 32)
  | callback (t : TimerId)
  deriving DecidableEq

/-- Where `rt_soft_timer_check` is, with its `n`; `none` is the head of the list. -/
inductive SoftCheck
  | idle
  | loop (currentTick : BitVec 32) (n : Option TimerId)
  | callback (t : TimerId) (n : Option TimerId)
  deriving DecidableEq

structure TimerSystem where
  timers : Timers
  hard : HardCheck
  soft : SoftCheck

inductive TimerOp
  | tick
  | start (t : TimerId)
  | stop (t : TimerId)
  | control (t : TimerId) (cmd : TimerCtrl)
  /-- `rt_timer_check` is entered. -/
  | check
  | checkNext
  | checkReturn
  /-- The same for `rt_soft_timer_check`. -/
  | softCheck
  | softNext
  | softReturn
  deriving DecidableEq

inductive TimerEvent
  /-- `rt_timer_start` is called. -/
  | start (t : TimerId)
  /-- `rt_timer_stop` is called and returns. -/
  | stop (t : TimerId) (result : RtErr)
  | fire (t : TimerId)
  | rearm (t : TimerId)
  deriving DecidableEq

/-- A check goes on after the timeout function of `t`. -/
def returnTimer (cfg : TimerConfig) (s : Timers) (t : TimerId) : Option (Timers × List TimerEvent) :=
  (timerExit cfg s t).map fun s' =>
    (s', if (s.timer t).periodic ∧ (s.timer t).activated then [.rearm t] else [])

def stepTimer (cfg : TimerConfig) (s : TimerSystem) : TimerOp → Option (TimerSystem × List TimerEvent)
  | .tick => some ({ s with timers := { s.timers with tick := s.timers.tick + 1 } }, [])
  | .start t => (rtTimerStart cfg s.timers t).map fun timers => ({ s with timers }, [.start t])
  | .stop t => some ({ s with timers := (rtTimerStop s.timers t).2 }, [.stop t (rtTimerStop s.timers t).1])
  | .control t cmd => some ({ s with timers := (rtTimerControl s.timers t cmd).2 }, [])
  | .check => if s.hard = .idle then some ({ s with hard := .loop s.timers.tick }, []) else none
  | .checkNext =>
    match s.hard, s.timers.lastRow cfg .hard with
    | .loop _, [] => some ({ s with hard := .idle }, [])
    | .loop currentTick, t :: _ =>
      if s.timers.Due currentTick t then
        some ({ s with timers := timerRemove s.timers t, hard := .callback t }, [.fire t])
      else some ({ s with hard := .idle }, [])
    | _, _ => none
  | .checkReturn =>
    match s.hard with
    | .callback t => (returnTimer cfg s.timers t).map fun r => ({ s with timers := r.1, hard := .loop r.1.tick }, r.2)
    | _ => none
  | .softCheck =>
    if s.hard = .idle ∧ s.soft = .idle then
      some ({ s with soft := .loop s.timers.tick (s.timers.lastRow cfg .soft).head? }, [])
    else none
  | .softNext =>
    match s.hard, s.soft with
    | .idle, .loop _ none => some ({ s with soft := .idle }, [])
    | .idle, .loop currentTick (some t) =>
      if s.timers.Due currentTick t then
        let n := nodeNext (s.timers.lastRow cfg .soft) t
        some ({ s with timers := timerRemove s.timers t, soft := .callback t n }, [.fire t])
      else some ({ s with soft := .idle }, [])
    | _, _ => none
  | .softReturn =>
    match s.hard, s.soft with
    | .idle, .callback t n =>
      (returnTimer cfg s.timers t).map fun r => ({ s with timers := r.1, soft := .loop r.1.tick n }, r.2)
    | _, _ => none

def TimerSystem.boot (setup : TimerSetup) : TimerSystem := ⟨.boot setup, .idle, .idle⟩

/-- The timeout function of `t` is running. -/
def TimerSystem.Running (s : TimerSystem) (t : TimerId) : Prop := s.hard = .callback t ∨ ∃ n, s.soft = .callback t n

def TimerSystem.returning (s : TimerSystem) : TimerOp → Option TimerId
  | .checkReturn =>
    match s.hard with
    | .callback t => some t
    | _ => none
  | .softReturn =>
    match s.soft with
    | .callback t _ => some t
    | _ => none
  | _ => none

/-- The timer that `rt_soft_timer_check` goes on to and finds due. -/
def TimerSystem.walksTo (s : TimerSystem) : TimerOp → Option TimerId
  | .softNext =>
    match s.soft with
    | .loop currentTick (some t) => if s.timers.Due currentTick t then some t else none
    | _ => none
  | _ => none

def ReturnsStopped (cfg : TimerConfig) (s : TimerSystem) (op : TimerOp) : Prop :=
  ∀ t ∈ s.returning op, (s.timers.timer t).periodic ∨ ¬ s.timers.Linked cfg t

instance (cfg : TimerConfig) (s : TimerSystem) (op : TimerOp) : Decidable (ReturnsStopped cfg s op) := by
  unfold ReturnsStopped
  infer_instance

/-- The node that `rt_soft_timer_check` goes on to is linked, or its deadline is not reached. -/
def WalksLinked (cfg : TimerConfig) (s : TimerSystem) (op : TimerOp) : Prop :=
  ∀ t ∈ s.walksTo op, s.timers.Linked cfg t

instance (cfg : TimerConfig) (s : TimerSystem) (op : TimerOp) : Decidable (WalksLinked cfg s op) := by
  unfold WalksLinked
  infer_instance

/-- The runs of the timers, each step of which meets `ok`. -/
abbrev TimerRun (cfg : TimerConfig) (setup : TimerSetup) (ok : TimerSystem → TimerOp → Prop) :
    List TimerEvent → TimerSystem → Prop :=
  Transition.Run (stepTimer cfg) ok (.boot setup)

theorem exists_timerRun (cfg : TimerConfig) (setup : TimerSetup) (ok : TimerSystem → TimerOp → Prop)
    [∀ s op, Decidable (ok s op)] (ops : List TimerOp) (found : List TimerEvent → TimerSystem → Bool)
    (h : ((Transition.exec (stepTimer cfg) ok (.boot setup) ops).any fun r => found r.1 r.2) = true) :
    ∃ trace s, TimerRun cfg setup ok trace s ∧ found trace s = true :=
  Transition.exists_run_of_exec ops found h

def twoRows : TimerConfig := ⟨2, by decide, 3⟩

def oneTick (periodic : Bool) (list : TimerList) (tick : BitVec 32) : TimerSetup :=
  ⟨fun _ => periodic, fun _ => list, fun _ => 1, tick⟩

/-! ## What a step can do -/

inductive Effect (cfg : TimerConfig) (s : TimerSystem) (op : TimerOp) (s' : TimerSystem) : List TimerEvent → Prop
  | quiet (htimer : s'.timers.timer = s.timers.timer) (hrow : s'.timers.row = s.timers.row)
      (hrunning : ∀ x, s.Running x → s'.Running x) : Effect cfg s op s' []
  | start {t : TimerId} (hop : op = .start t) (hstart : rtTimerStart cfg s.timers t = some s'.timers)
      (hrunning : ∀ x, s.Running x → s'.Running x) : Effect cfg s op s' [.start t]
  | stop {t : TimerId} (hop : op = .stop t) (hstop : s'.timers = (rtTimerStop s.timers t).2)
      (hrunning : ∀ x, s.Running x → s'.Running x) : Effect cfg s op s' [.stop t (rtTimerStop s.timers t).1]
  | control {t : TimerId} {cmd : TimerCtrl} (hcontrol : s'.timers = (rtTimerControl s.timers t cmd).2)
      (hrunning : ∀ x, s.Running x → s'.Running x) : Effect cfg s op s' []
  /-- A timer is taken out of the list and its timeout function is called. -/
  | fire {t : TimerId} (hfrom : s.timers.Linked cfg t ∨ t ∈ s.walksTo op) (hfire : s'.timers = timerRemove s.timers t)
      (hrunning : ∀ x, x = t ∨ s.Running x → s'.Running x) : Effect cfg s op s' [.fire t]
  | exit {t : TimerId} {events : List TimerEvent} (hreturning : t ∈ s.returning op) (hexit : returnTimer cfg s.timers t = some (s'.timers, events))
      (hrunning : ∀ x ≠ t, s.Running x → s'.Running x) : Effect cfg s op s' events

variable {cfg : TimerConfig} {s s' : TimerSystem} {op : TimerOp} {events : List TimerEvent}

theorem stepTimer_effect (hs : stepTimer cfg s op = some (s', events)) : Effect cfg s op s' events := by
  obtain ⟨timers, hard, soft⟩ := s
  cases op with
  | tick =>
    cases hs
    exact .quiet rfl rfl fun _ => id
  | start t =>
    obtain ⟨timers', hstart, heq⟩ := Option.map_eq_some_iff.1 hs
    cases heq
    exact .start rfl hstart fun _ => id
  | stop t =>
    cases hs
    exact .stop rfl rfl fun _ => id
  | control t cmd =>
    cases hs
    exact .control rfl fun _ => id
  | check =>
    simp only [stepTimer] at hs
    split_ifs at hs with hidle
    cases hs
    subst hidle
    exact .quiet rfl rfl fun x hx => .inr (hx.resolve_left (by simp))
  | checkNext =>
    cases hard with
    | idle => cases hs
    | callback t => cases hs
    | loop currentTick =>
      have hstays : ∀ x hard', TimerSystem.Running ⟨timers, .loop currentTick, soft⟩ x →
          TimerSystem.Running ⟨s'.timers, hard', soft⟩ x := fun x hard' hx => .inr (hx.resolve_left (by simp))
      cases hrow : timers.lastRow cfg .hard with
      | nil =>
        simp only [stepTimer, hrow] at hs
        cases hs
        exact .quiet rfl rfl fun x => hstays x _
      | cons t rest =>
        simp only [stepTimer, hrow] at hs
        split_ifs at hs with hdue
        · cases hs
          refine .fire (t := t) (.inl ⟨.hard, hrow ▸ List.mem_cons_self ..⟩) rfl fun x hx => ?_
          rcases hx with rfl | hx
          · exact .inl rfl
          · exact hstays x _ hx
        · cases hs
          exact .quiet rfl rfl fun x => hstays x _
  | checkReturn =>
    cases hard with
    | idle => cases hs
    | loop currentTick => cases hs
    | callback t =>
      obtain ⟨⟨timers', events'⟩, hreturn, heq⟩ := Option.map_eq_some_iff.1 hs
      cases heq
      refine .exit (t := t) rfl hreturn fun x hne hx => .inr (hx.resolve_left fun heq => hne ?_)
      exact (HardCheck.callback.inj heq).symm
  | softCheck =>
    simp only [stepTimer] at hs
    split_ifs at hs with hidle
    cases hs
    refine .quiet rfl rfl fun x hx => .inl (hx.resolve_right ?_)
    rintro ⟨n, hn⟩
    rw [hidle.2] at hn
    cases hn
  | softNext =>
    cases hard with
    | loop currentTick => cases hs
    | callback t => cases hs
    | idle =>
      cases soft with
      | idle => cases hs
      | callback t n => cases hs
      | loop currentTick n =>
        have hnone : ∀ x, ¬ TimerSystem.Running ⟨timers, .idle, .loop currentTick n⟩ x := by simp [TimerSystem.Running]
        cases n with
        | none =>
          cases hs
          exact .quiet rfl rfl fun x hx => absurd hx (hnone x)
        | some t =>
          simp only [stepTimer] at hs
          split_ifs at hs with hdue
          · cases hs
            refine .fire (t := t) (.inr (by simp [TimerSystem.walksTo, hdue])) rfl fun x hx => ?_
            rcases hx with rfl | hx
            · exact .inr ⟨_, rfl⟩
            · exact absurd hx (hnone x)
          · cases hs
            exact .quiet rfl rfl fun x hx => absurd hx (hnone x)
  | softReturn =>
    cases hard with
    | loop currentTick => cases hs
    | callback t => cases hs
    | idle =>
      cases soft with
      | idle => cases hs
      | loop currentTick n => cases hs
      | callback t n =>
        obtain ⟨⟨timers', events'⟩, hreturn, heq⟩ := Option.map_eq_some_iff.1 hs
        cases heq
        refine .exit (t := t) rfl hreturn fun x hne hx => ?_
        rcases hx with hx | ⟨m, hx⟩
        · cases hx
        · exact absurd (SoftCheck.callback.inj hx).1.symm hne

end RtThread
