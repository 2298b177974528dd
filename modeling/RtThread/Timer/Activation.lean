import RtThread.Timer.Machine

/-!
# The activation flag

A timer that is linked is activated. A timer that is activated is linked, or its timeout function runs: the flag stays set while the function runs, which is how a check sees that the function has stopped its own timer. When the function returns, a one-shot timer loses its flag even if the function has started it again; it then stays linked and can no longer be stopped. `rt_soft_timer_check` goes on to the node it has read before the timeout function ran, also if that timer has been stopped since.
-/

namespace RtThread

variable {cfg : TimerConfig} {setup : TimerSetup} {timers timers' : Timers} {s s' : TimerSystem} {op : TimerOp}
  {t x : TimerId} {trace events : List TimerEvent}

theorem rtTimerStart_cleared :
    rtTimerStart cfg (timers.setTimer t fun timer => { timer with activated := false }) t = rtTimerStart cfg timers t := by
  have hstop : startStop (timers.setTimer t fun timer => { timer with activated := false }) t = startStop timers t := by
    simp [startStop, timerRemove, Timers.setTimer]
  rw [rtTimerStart, rtTimerStart, hstop]

theorem returnTimer_cases (h : returnTimer cfg timers t = some (timers', events)) :
    ((timers.timer t).periodic ∧ (timers.timer t).activated) ∧ events = [.rearm t] ∧
        rtTimerStart cfg timers t = some timers' ∨
      ¬ ((timers.timer t).periodic ∧ (timers.timer t).activated) ∧ events = [] ∧
        timers' = timers.setTimer t fun timer => { timer with activated := false } := by
  obtain ⟨timers₁, hexit, heq⟩ := Option.map_eq_some_iff.1 h
  cases heq
  rw [timerExit] at hexit
  split_ifs at hexit with hagain
  · rw [rtTimerStart_cleared] at hexit
    exact .inl ⟨hagain, if_pos hagain, hexit⟩
  · exact .inr ⟨hagain, if_neg hagain, (Option.some.inj hexit).symm⟩

theorem rtTimerControl_row (timers : Timers) (t : TimerId) (cmd : TimerCtrl) :
    (rtTimerControl timers t cmd).2.row = timers.row := by
  cases cmd <;> rfl

theorem rtTimerControl_timer (timers : Timers) (t x : TimerId) (cmd : TimerCtrl) :
    ((rtTimerControl timers t cmd).2.timer x).activated = (timers.timer x).activated ∧
      ((rtTimerControl timers t cmd).2.timer x).list = (timers.timer x).list ∧
      ((rtTimerControl timers t cmd).2.timer x).timeoutTick = (timers.timer x).timeoutTick := by
  by_cases hx : x = t
  · subst hx
    cases cmd <;> simp [rtTimerControl]
  · cases cmd <;> simp [rtTimerControl, setTimer_other _ hx]

theorem TimersInv.congr (h : TimersInv cfg timers) (hrow : timers'.row = timers.row)
    (hactivated : ∀ x, (timers'.timer x).activated = (timers.timer x).activated)
    (hlist : ∀ x, (timers'.timer x).list = (timers.timer x).list) : TimersInv cfg timers' where
  rows := hrow ▸ h.rows
  list list x hx := by
    rw [Timers.lastRow, hrow] at hx
    rw [hlist]
    exact h.list list x hx
  activated x hx := by
    rw [hactivated]
    obtain ⟨list, hx⟩ := hx
    rw [Timers.lastRow, hrow] at hx
    exact h.activated x ⟨list, hx⟩

structure SystemInv (cfg : TimerConfig) (s : TimerSystem) : Prop where
  timers : TimersInv cfg s.timers
  linked : ∀ t, (s.timers.timer t).activated → s.timers.Linked cfg t ∨ s.Running t

theorem SystemInv.boot (setup : TimerSetup) : SystemInv cfg (.boot setup) := ⟨.boot setup, fun _ h => by cases h⟩

theorem SystemInv.unlink (h : SystemInv cfg s) (hunlink : Unlinks cfg t s.timers s'.timers)
    (hrunning : ∀ x, s.Running x → s'.Running x) : SystemInv cfg s' := by
  obtain ⟨hinv, hlinked, hcleared, hother⟩ := hunlink
  refine ⟨hinv, fun x hx => ?_⟩
  have hne : x ≠ t := by
    rintro rfl
    rw [hcleared] at hx
    cases hx
  rw [hother x hne] at hx
  exact (h.linked x hx).imp (fun hlink => (hlinked x).2 ⟨hne, hlink⟩) (hrunning x)

theorem SystemInv.start (h : SystemInv cfg s) (hstart : rtTimerStart cfg s.timers t = some s'.timers)
    (hrunning : ∀ x ≠ t, s.Running x → s'.Running x) : SystemInv cfg s' := by
  refine ⟨h.timers.start hstart, fun x hx => ?_⟩
  by_cases hxt : x = t
  · exact .inl ((h.timers.linked_start hstart).2 (.inl hxt))
  · rw [rtTimerStart_timer hstart, Function.update_of_ne hxt] at hx
    exact (h.linked x hx).imp (fun hlink => (h.timers.linked_start hstart).2 (.inr hlink)) (hrunning x hxt)

theorem linked_congr (hrow : timers'.row = timers.row) : timers'.Linked cfg x ↔ timers.Linked cfg x := by
  simp only [Timers.Linked, Timers.lastRow, hrow]

theorem SystemInv.step (h : SystemInv cfg s) (hok : ReturnsStopped cfg s op)
    (hs : stepTimer cfg s op = some (s', events)) : SystemInv cfg s' := by
  cases stepTimer_effect hs with
  | quiet htimer hrow hrunning =>
    refine ⟨h.timers.congr hrow (fun x => by rw [htimer]) fun x => by rw [htimer], fun x hx => ?_⟩
    rw [htimer] at hx
    exact (h.linked x hx).imp (linked_congr hrow).2 (hrunning x)
  | start _ hstart hrunning => exact h.start hstart fun x _ => hrunning x
  | stop _ hstop hrunning => exact h.unlink (hstop ▸ h.timers.stop _) hrunning
  | @control t cmd hcontrol hrunning =>
    have htimer := fun x => rtTimerControl_timer s.timers t x cmd
    have hrow := rtTimerControl_row s.timers t cmd
    rw [← hcontrol] at htimer hrow
    refine ⟨h.timers.congr hrow (fun x => (htimer x).1) fun x => (htimer x).2.1, fun x hx => ?_⟩
    rw [(htimer x).1] at hx
    exact (h.linked x hx).imp (linked_congr hrow).2 (hrunning x)
  | @fire t _ hfire hrunning =>
    refine ⟨by rw [hfire]; exact h.timers.remove t, fun x hx => ?_⟩
    rw [hfire] at hx ⊢
    by_cases hxt : x = t
    · exact .inr (hrunning x (.inl hxt))
    · exact (h.linked x hx).imp (fun hlink => h.timers.linked_timerRemove.2 ⟨hxt, hlink⟩) fun hrun => hrunning x (.inr hrun)
  | @exit t _ hreturning hexit hrunning =>
    rcases returnTimer_cases hexit with ⟨-, -, hstart⟩ | ⟨hnot, -, hcleared⟩
    · exact h.start hstart hrunning
    · -- a timer that is linked is activated, so here it is a one-shot, which the condition excludes
      have hunlinked : ¬ s.timers.Linked cfg t := fun hlink =>
        (hok t hreturning).elim (fun hperiodic => hnot ⟨hperiodic, h.timers.activated t hlink⟩) fun hno => hno hlink
      refine ⟨hcleared ▸ h.timers.setTimer rfl fun hlink => absurd hlink hunlinked, fun x hx => ?_⟩
      rw [hcleared] at hx ⊢
      have hne : x ≠ t := by
        rintro rfl
        rw [setTimer_self] at hx
        cases hx
      rw [setTimer_other _ hne] at hx
      exact (h.linked x hx).imp id (hrunning x hne)

theorem systemInv_of_run {ok : TimerSystem → TimerOp → Prop} (hok : ∀ s op, ok s op → ReturnsStopped cfg s op)
    (hrun : TimerRun cfg setup ok trace s) : SystemInv cfg s :=
  hrun.state_invariant (.boot setup) fun _ _ _ _ h hstep hs => h.step (hok _ _ hstep) hs

theorem SystemInv.activated_iff (h : SystemInv cfg s) (ht : ¬ s.Running t) :
    (s.timers.timer t).activated ↔ s.timers.Linked cfg t :=
  ⟨fun hactivated => (h.linked t hactivated).resolve_right ht, h.timers.activated t⟩

/-! ## Stopping a timer -/

def FlagKept (cfg : TimerConfig) (s : TimerSystem) (op : TimerOp) : Prop := ReturnsStopped cfg s op ∧ WalksLinked cfg s op

instance (cfg : TimerConfig) (s : TimerSystem) (op : TimerOp) : Decidable (FlagKept cfg s op) :=
  inferInstanceAs (Decidable (_ ∧ _))

abbrev TimerContinuation (cfg : TimerConfig) (s : TimerSystem) : List TimerEvent → TimerSystem → Prop :=
  Transition.Run (stepTimer cfg) (FlagKept cfg) s

/-- The timer can fire without `rt_timer_start` being called for it again. -/
def WillFire (cfg : TimerConfig) (s : TimerSystem) (t : TimerId) : Prop :=
  ∃ trace s', TimerContinuation cfg s trace s' ∧ .start t ∉ trace ∧ .fire t ∈ trace

/-- Neither linked nor activated: nothing but `rt_timer_start` makes it fire. -/
structure Stopped (cfg : TimerConfig) (s : TimerSystem) (t : TimerId) : Prop where
  inv : SystemInv cfg s
  unlinked : ¬ s.timers.Linked cfg t
  deactivated : (s.timers.timer t).activated = false

theorem Stopped.step (h : Stopped cfg s t) (hok : FlagKept cfg s op) (hs : stepTimer cfg s op = some (s', events))
    (hstart : .start t ∉ events) : Stopped cfg s' t ∧ .fire t ∉ events := by
  have hinv := h.inv.step hok.1 hs
  cases stepTimer_effect hs with
  | quiet htimer hrow _ =>
    refine ⟨⟨hinv, fun hlink => h.unlinked ((linked_congr hrow).1 hlink), ?_⟩, List.not_mem_nil⟩
    rw [htimer]
    exact h.deactivated
  | @start y _ hstarted _ =>
    have hne : t ≠ y := fun heq => hstart (heq ▸ List.mem_singleton.2 rfl)
    refine ⟨⟨hinv, fun hlink => ?_, ?_⟩, by simp⟩
    · exact (((h.inv.timers.linked_start hstarted).1 hlink).resolve_left hne).elim fun list hmem => h.unlinked ⟨list, hmem⟩
    · rw [rtTimerStart_timer hstarted, Function.update_of_ne hne]
      exact h.deactivated
  | @stop y _ hstop _ =>
    obtain ⟨-, hlinked, hcleared, hother⟩ := h.inv.timers.stop y
    rw [← hstop] at hlinked hcleared hother
    refine ⟨⟨hinv, fun hlink => h.unlinked ((hlinked t).1 hlink).2, ?_⟩, by simp⟩
    by_cases hty : t = y
    · rw [hty, hcleared]
    · rw [hother t hty, h.deactivated]
  | @control y cmd hcontrol _ =>
    have htimer := (rtTimerControl_timer s.timers y t cmd).1
    have hrow := rtTimerControl_row s.timers y cmd
    rw [← hcontrol] at htimer hrow
    exact ⟨⟨hinv, fun hlink => h.unlinked ((linked_congr hrow).1 hlink), htimer.trans h.deactivated⟩, List.not_mem_nil⟩
  | @fire y hfrom hfire _ =>
    have hlink : s.timers.Linked cfg y := hfrom.elim id (hok.2 y)
    have hne : t ≠ y := fun heq => h.unlinked (heq ▸ hlink)
    refine ⟨⟨hinv, fun hlink => ?_, ?_⟩, by simpa using hne⟩
    · rw [hfire] at hlink
      exact h.unlinked (h.inv.timers.linked_timerRemove.1 hlink).2
    · rw [hfire]
      exact h.deactivated
  | @exit y _ _ hexit _ =>
    rcases returnTimer_cases hexit with ⟨⟨-, hactivated⟩, rfl, hstarted⟩ | ⟨-, rfl, hcleared⟩
    · have hne : t ≠ y := by
        rintro rfl
        rw [h.deactivated] at hactivated
        cases hactivated
      refine ⟨⟨hinv, fun hlink => ?_, ?_⟩, by simp⟩
      · exact h.unlinked (((h.inv.timers.linked_start hstarted).1 hlink).resolve_left hne)
      · rw [rtTimerStart_timer hstarted, Function.update_of_ne hne]
        exact h.deactivated
    · refine ⟨⟨hinv, fun hlink => ?_, ?_⟩, List.not_mem_nil⟩
      · rw [hcleared] at hlink
        exact h.unlinked hlink
      · rw [hcleared]
        by_cases hty : t = y
        · rw [hty, setTimer_self]
        · rw [setTimer_other _ hty, h.deactivated]

theorem Stopped.run (h : Stopped cfg s t) (hrun : TimerContinuation cfg s trace s') (hstart : .start t ∉ trace) :
    .fire t ∉ trace := by
  have hkeeps : .start t ∉ trace → Stopped cfg s' t ∧ .fire t ∉ trace := by
    refine hrun.invariant (I := fun trace s => .start t ∉ trace → Stopped cfg s t ∧ .fire t ∉ trace)
      (fun _ => ⟨h, List.not_mem_nil⟩) ?_
    intro trace s op s' events ih hok hs hnot
    rw [List.mem_append, not_or] at hnot ⊢
    obtain ⟨hstopped, hsilent⟩ := ih hnot.1
    obtain ⟨hstopped', hsilent'⟩ := hstopped.step hok hs hnot.2
    exact ⟨hstopped', hsilent, hsilent'⟩
  exact (hkeeps hstart).2

structure ActivationFlag (cfg : TimerConfig) (s : TimerSystem) : Prop where
  activated_iff : ∀ t, ¬ s.Running t → ((s.timers.timer t).activated ↔ s.timers.Linked cfg t)
  activated : ∀ t, s.timers.Linked cfg t → (s.timers.timer t).activated
  /-- `rt_timer_stop` succeeds for a timer that will still fire. -/
  stop : ∀ t, WillFire cfg s t → (rtTimerStop s.timers t).1 = .eok
  /-- After `rt_timer_stop` the timer does not fire until it is started again. -/
  silent : ∀ t s₁ events, stepTimer cfg s (.stop t) = some (s₁, events) →
    ∀ trace s₂, TimerContinuation cfg s₁ trace s₂ → .start t ∉ trace → .fire t ∉ trace

/-- In every run in which no timeout function returns with its one-shot timer started again, and the walk of `rt_soft_timer_check` never goes on to a timer that is due and not linked. -/
theorem activationFlag_of_run (hrun : TimerRun cfg setup (FlagKept cfg) trace s) : ActivationFlag cfg s := by
  have hinv := systemInv_of_run (fun _ _ => And.left) hrun
  refine ⟨fun t => hinv.activated_iff, hinv.timers.activated, fun t hfires => ?_, fun t s₁ events hs trace s₂ hrun' => ?_⟩
  · cases hactivated : (s.timers.timer t).activated with
    | true => rw [rtTimerStop_activated hactivated]
    | false =>
      obtain ⟨trace', s', hrun', hstart, hfire⟩ := hfires
      have hstopped : Stopped cfg s t := by
        refine ⟨hinv, fun hlink => ?_, hactivated⟩
        rw [hinv.timers.activated t hlink] at hactivated
        cases hactivated
      exact absurd hfire (hstopped.run hrun' hstart)
  · obtain ⟨hinv', hlinked, hcleared, -⟩ := hinv.timers.stop t
    cases hs
    have hstopped : Stopped cfg { s with timers := (rtTimerStop s.timers t).2 } t := by
      refine ⟨hinv.unlink (hinv.timers.stop t) fun _ => id, fun hlink => ?_, hcleared⟩
      exact ((hlinked t).1 hlink).1 rfl
    exact hstopped.run hrun'

/-- Of two periodic timers that are due, the timeout function of one stops its own timer and the other is started again. -/
theorem activationFlag_of_run_periodic : ∃ trace s, TimerRun twoRows (oneTick true .hard 0) (FlagKept twoRows) trace s ∧
    trace = [.start 0, .start 1, .fire 0, .stop 0 .eok, .fire 1, .rearm 1] ∧
      (s.timers.timer 0).activated = false ∧ (s.timers.timer 1).activated ∧ ActivationFlag twoRows s := by
  obtain ⟨trace, s, hrun, hfound⟩ := exists_timerRun twoRows (oneTick true .hard 0) (FlagKept twoRows)
    [.start 0, .start 1, .tick, .check, .checkNext, .stop 0, .checkReturn, .checkNext, .checkReturn, .checkNext]
    (fun trace s => decide (trace = [.start 0, .start 1, .fire 0, .stop 0 .eok, .fire 1, .rearm 1] ∧
      (s.timers.timer 0).activated = false ∧ (s.timers.timer 1).activated)) (by decide +kernel)
  obtain ⟨htrace, hzero, hone⟩ := of_decide_eq_true hfound
  exact ⟨trace, s, hrun, htrace, hzero, hone, activationFlag_of_run hrun⟩

/-- A one-shot timer whose timeout function starts it again is linked but not activated after the check, so that `rt_timer_stop` fails and it fires. And a soft timer that is stopped by the timeout function before it in the list fires although `rt_timer_stop` has succeeded. -/
theorem activationFlag_fails :
    (∃ trace s, TimerRun twoRows (oneTick false .hard 0) (fun _ _ => True) trace s ∧
      trace = [.start 0, .fire 0, .start 0] ∧ s.hard = .idle ∧ s.soft = .idle ∧
      s.timers.Linked twoRows 0 ∧ (s.timers.timer 0).activated = false) ∧
    (∃ trace s, TimerRun twoRows (oneTick false .hard 0) (fun _ _ => True) trace s ∧
      trace = [.start 0, .fire 0, .start 0, .stop 0 .error, .fire 0]) ∧
    ∃ trace s, TimerRun twoRows (oneTick false .soft 0) (ReturnsStopped twoRows) trace s ∧
      trace = [.start 0, .start 1, .fire 0, .stop 1 .eok, .fire 1] := by
  refine ⟨?_, ?_, ?_⟩
  · obtain ⟨trace, s, hrun, hfound⟩ := exists_timerRun twoRows (oneTick false .hard 0) (fun _ _ => True)
      [.start 0, .tick, .check, .checkNext, .start 0, .checkReturn, .checkNext]
      (fun trace s => decide (trace = [.start 0, .fire 0, .start 0] ∧ s.hard = .idle ∧ s.soft = .idle ∧
        s.timers.Linked twoRows 0 ∧ (s.timers.timer 0).activated = false)) (by decide +kernel)
    exact ⟨trace, s, hrun, of_decide_eq_true hfound⟩
  · obtain ⟨trace, s, hrun, hfound⟩ := exists_timerRun twoRows (oneTick false .hard 0) (fun _ _ => True)
      [.start 0, .tick, .check, .checkNext, .start 0, .checkReturn, .checkNext, .stop 0, .tick, .check, .checkNext]
      (fun trace _ => decide (trace = [.start 0, .fire 0, .start 0, .stop 0 .error, .fire 0])) (by decide +kernel)
    exact ⟨trace, s, hrun, of_decide_eq_true hfound⟩
  · obtain ⟨trace, s, hrun, hfound⟩ := exists_timerRun twoRows (oneTick false .soft 0) (ReturnsStopped twoRows)
      [.start 0, .start 1, .tick, .softCheck, .softNext, .stop 1, .softReturn, .softNext]
      (fun trace _ => decide (trace = [.start 0, .start 1, .fire 0, .stop 1 .eok, .fire 1])) (by decide +kernel)
    exact ⟨trace, s, hrun, of_decide_eq_true hfound⟩

end RtThread
