import RtThread.Timer.Check

/-!
# The end of `rt_timer_check`

`rt_timer_check` takes the first timer of the list as long as it is due, and starts a periodic timer again into the list that it is working off. It ends when every timer that it starts again is then ahead of the tick, which the period decides: `rt_timer_start` asserts that it is less than half the range of the tick and nothing asks for one tick or more.

Here the timeout functions are not fixed: between the call of one and its return the system may stop and control any timers. They start none.
-/

namespace RtThread

open Function

variable {cfg : TimerConfig} {setup : TimerSetup} {timers timers' : Timers} {s s' : TimerSystem} {op : TimerOp}
  {t x : TimerId} {trace events : List TimerEvent} {tick : BitVec 32} {soft : SoftCheck} {n : Nat}

def Timer.HasPeriod (timer : Timer) : Prop := 0 < timer.initTick ∧ timer.initTick < halfTick

def Timer.Sound (timer : Timer) : Prop := timer.periodic → timer.HasPeriod

/-- The steps of `rt_timer_check`. -/
def TimerOp.OfCheck (op : TimerOp) : Prop := op = .checkNext ∨ op = .checkReturn

/-- What happens while `rt_timer_check` runs: its own steps, and those of the timeout function that it has called, which may stop timers and control them, but leaves no timer periodic without a proper period that was not so before. -/
def DuringCheck (s : TimerSystem) (op : TimerOp) : Prop :=
  op.OfCheck ∨ (∃ t, s.hard = .callback t) ∧
    ((∃ t, op = .stop t) ∨
      ∃ t cmd, op = .control t cmd ∧ ((s.timers.timer t).Sound → ((rtTimerControl s.timers t cmd).2.timer t).Sound))

/-- `rt_timer_check` entered with these timers ends, whatever the timeout functions do: it takes up a bounded number of timers and is never stuck. -/
def CheckEnds (cfg : TimerConfig) (timers : Timers) (soft : SoftCheck) : Prop :=
  ∃ n, ∀ trace s, Transition.Run (stepTimer cfg) DuringCheck ⟨timers, .loop timers.tick, soft⟩ trace s →
    (firings trace).length ≤ n ∧ (s.hard = .idle ∨ ∃ op, op.OfCheck ∧ (stepTimer cfg s op).isSome)

theorem firings_append (trace events : List TimerEvent) : firings (trace ++ events) = firings trace ++ firings events :=
  List.filterMap_append ..

/-! ## The timers that are due -/

theorem mem_dueTimers : x ∈ dueTimers cfg timers ↔ x ∈ timers.lastRow cfg .hard ∧ timers.Due timers.tick x := by
  rw [dueTimers, List.mem_filter, decide_eq_true_iff]

theorem LinksInv.dueTimers_nodup (h : LinksInv cfg timers) : (dueTimers cfg timers).Nodup :=
  ((h.rows .hard).nodup cfg.last).filter _

theorem LinksInv.dueTimers_le (h : LinksInv cfg timers') (hsub : dueTimers cfg timers' ⊆ dueTimers cfg timers) :
    (dueTimers cfg timers').length ≤ (dueTimers cfg timers).length :=
  (List.subperm_of_subset h.dueTimers_nodup hsub).length_le

theorem LinksInv.mem_dueTimers_remove (h : LinksInv cfg timers) :
    x ∈ dueTimers cfg (timerRemove timers t) ↔ x ≠ t ∧ x ∈ dueTimers cfg timers := by
  rw [mem_dueTimers, mem_dueTimers, h.mem_lastRow_timerRemove, and_assoc]
  rfl

theorem LinksInv.dueTimers_remove (h : LinksInv cfg timers) (ht : t ∈ dueTimers cfg timers) :
    (dueTimers cfg (timerRemove timers t)).length + 1 ≤ (dueTimers cfg timers).length := by
  have hnodup : (t :: dueTimers cfg (timerRemove timers t)).Nodup :=
    List.nodup_cons.2 ⟨fun hin => (h.mem_dueTimers_remove.1 hin).1 rfl, (h.remove t).dueTimers_nodup⟩
  refine (List.subperm_of_subset hnodup fun x hx => ?_).length_le
  rcases List.mem_cons.1 hx with rfl | hx
  · exact ht
  · exact (h.mem_dueTimers_remove.1 hx).2

theorem LinksInv.dueTimers_start (h : LinksInv cfg timers) (hstart : rtTimerStart cfg timers t = some timers')
    (hperiod : (timers.timer t).HasPeriod) : dueTimers cfg timers' ⊆ dueTimers cfg timers := by
  intro x hx
  obtain ⟨hrow, hdue⟩ := mem_dueTimers.1 hx
  rw [Timers.Due, rtTimerStart_timer hstart, rtTimerStart_tick hstart] at hdue
  rcases (h.mem_lastRow_start hstart).1 hrow with ⟨rfl, -⟩ | ⟨hne, hrow⟩
  · rw [update_self] at hdue
    exact absurd hdue (not_due_started hperiod.1 hperiod.2)
  · rw [update_of_ne hne] at hdue
    exact mem_dueTimers.2 ⟨hrow, hdue⟩

/-! ## Periods that let the check end -/

/-- The check works its due timers off: each of those left, and the one whose timeout function runs, is one-shot or has a proper period. -/
structure CheckDraining (cfg : TimerConfig) (n : Nat) (trace : List TimerEvent) (s : TimerSystem) : Prop where
  links : LinksInv cfg s.timers
  currentTick : ∀ currentTick, s.hard = .loop currentTick → currentTick = s.timers.tick
  sound : ∀ x, x ∈ dueTimers cfg s.timers ∨ s.hard = .callback x → (s.timers.timer x).Sound
  rounds : (firings trace).length + (dueTimers cfg s.timers).length ≤ n

variable (cfg) in
theorem rtTimerStart_isSome (hperiod : (timers.timer t).HasPeriod) : ∃ timers', rtTimerStart cfg timers t = some timers' := by
  refine ⟨_, if_pos ?_⟩
  rw [startStop, setTimer_self]
  exact hperiod.2

variable (cfg) in
theorem returnTimer_isSome (hsound : (timers.timer t).Sound) : ∃ r, returnTimer cfg timers t = some r := by
  by_cases hagain : (timers.timer t).periodic ∧ (timers.timer t).activated
  · obtain ⟨timers', hstart⟩ := rtTimerStart_isSome cfg (hsound hagain.1)
    have hexit : timerExit cfg timers t = some timers' := by
      rw [timerExit, if_pos hagain, rtTimerStart_cleared, hstart]
    exact ⟨_, by rw [returnTimer, hexit, Option.map_some]⟩
  · have hexit : timerExit cfg timers t = some (timers.setTimer t fun timer => { timer with activated := false }) := by
      rw [timerExit, if_neg hagain]
    exact ⟨_, by rw [returnTimer, hexit, Option.map_some]⟩

theorem CheckDraining.goes_on (h : CheckDraining cfg n trace s) : s.hard = .idle ∨ ∃ op, op.OfCheck ∧ (stepTimer cfg s op).isSome := by
  obtain ⟨timers, hard, soft⟩ := s
  cases hard with
  | idle => exact .inl rfl
  | loop currentTick =>
    refine .inr ⟨.checkNext, .inl rfl, ?_⟩
    cases hrow : timers.lastRow cfg .hard with
    | nil => simp only [stepTimer, hrow, Option.isSome_some]
    | cons t rest =>
      simp only [stepTimer, hrow]
      split_ifs <;> rfl
  | callback t =>
    obtain ⟨r, hreturn⟩ := returnTimer_isSome cfg (h.sound t (.inr rfl))
    have hreturn : returnTimer cfg timers t = some r := hreturn
    exact .inr ⟨.checkReturn, .inr rfl, by simp only [stepTimer, hreturn, Option.map_some, Option.isSome_some]⟩

theorem CheckDraining.quiet (h : CheckDraining cfg n trace s) (hlinks : LinksInv cfg s'.timers)
    (hcurrent : ∀ currentTick, s'.hard = .loop currentTick → currentTick = s'.timers.tick)
    (hsub : dueTimers cfg s'.timers ⊆ dueTimers cfg s.timers)
    (hsound : ∀ x, x ∈ dueTimers cfg s'.timers ∨ s'.hard = .callback x → (s.timers.timer x).Sound →
      (s'.timers.timer x).Sound)
    (hcallback : ∀ x, s'.hard = .callback x → s.hard = .callback x) (hevents : firings events = []) :
    CheckDraining cfg n (trace ++ events) s' := by
  refine ⟨hlinks, hcurrent, fun x hx => hsound x hx (h.sound x (hx.imp (fun hx => hsub hx) (hcallback x))), ?_⟩
  rw [firings_append, hevents, List.append_nil]
  have hfewer := hlinks.dueTimers_le hsub
  have hrounds := h.rounds
  omega

theorem CheckDraining.checkNext (h : CheckDraining cfg n trace s) (hs : stepTimer cfg s .checkNext = some (s', events)) :
    CheckDraining cfg n (trace ++ events) s' := by
  obtain ⟨timers, hard, soft⟩ := s
  cases hard with
  | idle => cases hs
  | callback t => cases hs
  | loop currentTick =>
    obtain rfl : currentTick = timers.tick := h.currentTick currentTick rfl
    cases hrow : timers.lastRow cfg .hard with
    | nil =>
      simp only [stepTimer, hrow] at hs
      cases hs
      exact h.quiet h.links (fun _ hno => by cases hno) (fun _ => id) (fun _ _ => id) (fun _ hno => by cases hno) rfl
    | cons t rest =>
      simp only [stepTimer, hrow] at hs
      split_ifs at hs with hdue
      · cases hs
        have ht : t ∈ dueTimers cfg timers := mem_dueTimers.2 ⟨hrow ▸ List.mem_cons_self .., hdue⟩
        refine ⟨h.links.remove t, (fun _ hno => by cases hno), fun x hx => ?_, ?_⟩
        · rcases hx with hx | hx
          · exact h.sound x (.inl (h.links.mem_dueTimers_remove.1 hx).2)
          · cases hx
            exact h.sound t (.inl ht)
        · have hfewer : (dueTimers cfg (timerRemove timers t)).length + 1 ≤ (dueTimers cfg timers).length :=
            h.links.dueTimers_remove ht
          have hrounds : (firings trace).length + (dueTimers cfg timers).length ≤ n := h.rounds
          have hfired : (firings [TimerEvent.fire t]).length = 1 := rfl
          rw [firings_append, List.length_append, hfired]
          change _ + 1 + (dueTimers cfg (timerRemove timers t)).length ≤ n
          omega
      · cases hs
        exact h.quiet h.links (fun _ hno => by cases hno) (fun _ => id) (fun _ _ => id) (fun _ hno => by cases hno) rfl

theorem CheckDraining.checkReturn (h : CheckDraining cfg n trace s) (hs : stepTimer cfg s .checkReturn = some (s', events)) :
    CheckDraining cfg n (trace ++ events) s' := by
  obtain ⟨timers, hard, soft⟩ := s
  cases hard with
  | idle => cases hs
  | loop currentTick => cases hs
  | callback t =>
    obtain ⟨⟨timers', events'⟩, hreturn, heq⟩ := Option.map_eq_some_iff.1 hs
    cases heq
    have hcurrent : ∀ currentTick, HardCheck.loop timers'.tick = .loop currentTick → currentTick = timers'.tick :=
      fun _ heq => (HardCheck.loop.inj heq).symm
    rcases returnTimer_cases hreturn with ⟨⟨hperiodic, -⟩, rfl, hstart⟩ | ⟨-, rfl, rfl⟩
    · refine h.quiet (h.links.start hstart) hcurrent (h.links.dueTimers_start hstart (h.sound t (.inr rfl) hperiodic))
        (fun x _ hsound => ?_) nofun rfl
      change (timers'.timer x).Sound
      rw [rtTimerStart_timer hstart]
      by_cases hxt : x = t
      · rw [hxt, update_self]
        exact h.sound t (.inr rfl)
      · rw [update_of_ne hxt]
        exact hsound
    · have hlist : ∀ x, ((timers.setTimer t fun timer => { timer with activated := false }).timer x).list =
          (timers.timer x).list := setTimer_list rfl
      have htimer : ∀ x, ((timers.setTimer t fun timer => { timer with activated := false }).timer x).timeoutTick =
          (timers.timer x).timeoutTick ∧ ((timers.timer x).Sound →
            ((timers.setTimer t fun timer => { timer with activated := false }).timer x).Sound) := by
        intro x
        by_cases hxt : x = t
        · rw [hxt, setTimer_self]
          exact ⟨rfl, id⟩
        · rw [setTimer_other _ hxt]
          exact ⟨rfl, id⟩
      refine h.quiet (h.links.congr rfl hlist) hcurrent (fun x hx => ?_) (fun x _ => (htimer x).2) nofun rfl
      obtain ⟨hrow, hdue⟩ := mem_dueTimers.1 hx
      rw [Timers.Due, (htimer x).1] at hdue
      exact mem_dueTimers.2 ⟨hrow, hdue⟩

theorem rtTimerStop_timer (timers : Timers) (t x : TimerId) :
    (∃ activated, (rtTimerStop timers t).2.timer x = { timers.timer x with activated }) ∧
      (rtTimerStop timers t).2.tick = timers.tick := by
  cases hactivated : (timers.timer t).activated with
  | true =>
    rw [rtTimerStop_activated hactivated]
    refine ⟨?_, rfl⟩
    by_cases hxt : x = t
    · subst hxt
      refine ⟨false, ?_⟩
      rw [startStop, setTimer_self, timerRemove_timer]
    · refine ⟨(timers.timer x).activated, ?_⟩
      rw [startStop, setTimer_other _ hxt, timerRemove_timer]
  | false =>
    rw [rtTimerStop_deactivated hactivated]
    exact ⟨⟨_, rfl⟩, rfl⟩

theorem CheckDraining.stop (h : CheckDraining cfg n trace s) (hcallback : ∀ currentTick, s.hard ≠ .loop currentTick) (t : TimerId)
    (hs : stepTimer cfg s (.stop t) = some (s', events)) : CheckDraining cfg n (trace ++ events) s' := by
  cases hs
  obtain ⟨hlinks, hmem, hdeadline⟩ := h.links.stop t
  refine h.quiet hlinks (fun currentTick heq => absurd heq (hcallback currentTick)) (fun x hx => ?_) (fun x _ hsound => ?_)
    (fun _ => id) rfl
  · obtain ⟨hrow, hdue⟩ := mem_dueTimers.1 hx
    have htick : (rtTimerStop s.timers t).2.tick = s.timers.tick := (rtTimerStop_timer s.timers t x).2
    refine mem_dueTimers.2 ⟨hmem .hard x hrow, ?_⟩
    rwa [Timers.Due, hdeadline, htick] at hdue
  · obtain ⟨⟨activated, htimer⟩, -⟩ := rtTimerStop_timer s.timers t x
    change ((rtTimerStop s.timers t).2.timer x).Sound
    rw [htimer]
    exact hsound

theorem CheckDraining.control {cmd : TimerCtrl} (h : CheckDraining cfg n trace s) (hcallback : ∀ currentTick, s.hard ≠ .loop currentTick)
    (hkeeps : (s.timers.timer t).Sound → ((rtTimerControl s.timers t cmd).2.timer t).Sound)
    (hs : stepTimer cfg s (.control t cmd) = some (s', events)) : CheckDraining cfg n (trace ++ events) s' := by
  cases hs
  have htimer := fun x => rtTimerControl_timer s.timers t x cmd
  have hrow := rtTimerControl_row s.timers t cmd
  refine h.quiet (h.links.congr hrow fun x => (htimer x).2.1) (fun currentTick heq => absurd heq (hcallback currentTick))
    (fun x hx => ?_) (fun x _ hsound => ?_) (fun _ => id) rfl
  · obtain ⟨hmem, hdue⟩ := mem_dueTimers.1 hx
    have htick : (rtTimerControl s.timers t cmd).2.tick = s.timers.tick := by cases cmd <;> rfl
    rw [Timers.Due, (htimer x).2.2, htick] at hdue
    rw [Timers.lastRow, hrow] at hmem
    exact mem_dueTimers.2 ⟨hmem, hdue⟩
  · change ((rtTimerControl s.timers t cmd).2.timer x).Sound
    by_cases hxt : x = t
    · subst hxt
      exact hkeeps hsound
    · have hother : (rtTimerControl s.timers t cmd).2.timer x = s.timers.timer x := by
        cases cmd <;> simp [rtTimerControl, setTimer_other _ hxt]
      rw [hother]
      exact hsound

theorem CheckDraining.step (h : CheckDraining cfg n trace s) (hok : DuringCheck s op) (hs : stepTimer cfg s op = some (s', events)) :
    CheckDraining cfg n (trace ++ events) s' := by
  rcases hok with (rfl | rfl) | ⟨⟨y, hy⟩, ⟨t, rfl⟩ | ⟨t, cmd, rfl, hkeeps⟩⟩
  · exact h.checkNext hs
  · exact h.checkReturn hs
  · exact h.stop (fun currentTick heq => by rw [hy] at heq; cases heq) t hs
  · exact h.control (fun currentTick heq => by rw [hy] at heq; cases heq) hkeeps hs

theorem LinksInv.checkEnds (h : LinksInv cfg timers) (hsound : ∀ x ∈ dueTimers cfg timers, (timers.timer x).Sound) :
    CheckEnds cfg timers soft := by
  refine ⟨(dueTimers cfg timers).length, fun trace s hrun => ?_⟩
  have hstart : CheckDraining cfg (dueTimers cfg timers).length [] ⟨timers, .loop timers.tick, soft⟩ :=
    ⟨h, fun _ heq => (HardCheck.loop.inj heq).symm, fun x hx => hsound x (hx.resolve_right nofun), by simp [firings]⟩
  have hdraining : CheckDraining cfg _ trace s := hrun.invariant hstart fun _ _ _ _ _ h hok hs => h.step hok hs
  have hrounds := hdraining.rounds
  exact ⟨by omega, hdraining.goes_on⟩

/-! ## Periods that keep it from ending -/

abbrev CheckRun (cfg : TimerConfig) (s : TimerSystem) : List TimerEvent → TimerSystem → Prop :=
  Transition.Run (stepTimer cfg) DuringCheck s

abbrev SilentRun (cfg : TimerConfig) (s : TimerSystem) : List TimerEvent → TimerSystem → Prop :=
  Transition.Run (stepTimer cfg) (fun _ op => op.OfCheck) s

theorem TimersInv.checkRun_stop (h : TimersInv cfg timers) (y : TimerId) (soft : SoftCheck) (stopped : List TimerId) :
    ∃ trace timers', CheckRun cfg ⟨timers, .callback y, soft⟩ trace ⟨timers', .callback y, soft⟩ ∧ TimersInv cfg timers' ∧
      timers'.tick = timers.tick ∧ (∀ x, timers'.Linked cfg x ↔ x ∉ stopped ∧ timers.Linked cfg x) ∧
      (∀ x ∉ stopped, timers'.timer x = timers.timer x) ∧ ∀ x ∈ stopped, (timers'.timer x).activated = false := by
  induction stopped generalizing timers with
  | nil => exact ⟨[], timers, .start, h, rfl, fun x => by simp, fun _ _ => rfl, nofun⟩
  | cons t rest ih =>
    obtain ⟨hinv, hlinked, hcleared, hother⟩ := h.stop t
    obtain ⟨trace, timers', hrun, hinv', htick, hlinked', hother', hcleared'⟩ := ih hinv
    have hstep : stepTimer cfg ⟨timers, .callback y, soft⟩ (.stop t) =
        some (⟨(rtTimerStop timers t).2, .callback y, soft⟩, [.stop t (rtTimerStop timers t).1]) := rfl
    have hok : DuringCheck ⟨timers, .callback y, soft⟩ (.stop t) := .inr ⟨⟨y, rfl⟩, .inl ⟨t, rfl⟩⟩
    refine ⟨_, timers', (Transition.Run.start.next hok hstep).trans hrun, hinv', ?_, fun x => ?_, fun x hx => ?_, fun x hx => ?_⟩
    · rw [htick, (rtTimerStop_timer timers t t).2]
    · rw [hlinked', hlinked, List.mem_cons, not_or]
      tauto
    · rw [List.mem_cons, not_or] at hx
      rw [hother' x hx.2, hother x hx.1]
    · by_cases hrest : x ∈ rest
      · exact hcleared' x hrest
      · rw [hother' x hrest, (List.mem_cons.1 hx).resolve_right hrest, hcleared]

/-- The timeout function of a periodic timer runs and no other hard timer is left in the list. -/
structure Alone (cfg : TimerConfig) (timers : Timers) (t : TimerId) : Prop where
  inv : TimersInv cfg timers
  row : timers.lastRow cfg .hard = []
  list : (timers.timer t).list = .hard
  periodic : (timers.timer t).periodic
  activated : (timers.timer t).activated

theorem checkRun_only (hinv : TimersInv cfg timers) (hrow : ∀ x, x ∈ timers.lastRow cfg .hard ↔ x = t)
    (hdue : timers.Due timers.tick t) (hperiodic : (timers.timer t).periodic) (soft : SoftCheck) :
    stepTimer cfg ⟨timers, .loop timers.tick, soft⟩ .checkNext = some (⟨timerRemove timers t, .callback t, soft⟩, [.fire t]) ∧
      Alone cfg (timerRemove timers t) t := by
  have hsingle : timers.lastRow cfg .hard = [t] := by
    refine List.perm_singleton.1 ((List.perm_ext_iff_of_nodup ((hinv.rows .hard).nodup cfg.last) (List.nodup_singleton t)).2 ?_)
    intro x
    rw [List.mem_singleton]
    exact hrow x
  have ht : t ∈ timers.lastRow cfg .hard := (hrow t).2 rfl
  refine ⟨by simp only [stepTimer, hsingle, if_pos hdue], hinv.remove t, ?_, hinv.list .hard t ht, hperiodic,
    hinv.activated t ⟨_, ht⟩⟩
  rw [List.eq_nil_iff_forall_not_mem]
  intro x hx
  obtain ⟨hne, hx⟩ := hinv.mem_lastRow_timerRemove.1 hx
  exact hne ((hrow x).1 hx)

theorem Alone.again (h : Alone cfg timers t) (hzero : (timers.timer t).initTick = 0) (soft : SoftCheck) :
    ∃ timers', SilentRun cfg ⟨timers, .callback t, soft⟩ [.rearm t, .fire t] ⟨timers', .callback t, soft⟩ ∧
      Alone cfg timers' t ∧ (timers'.timer t).initTick = 0 := by
  obtain ⟨timers₁, hstart⟩ : ∃ timers₁, rtTimerStart cfg timers t = some timers₁ := by
    refine ⟨_, if_pos ?_⟩
    rw [startStop, setTimer_self]
    change (timers.timer t).initTick < halfTick
    rw [hzero]
    decide
  have hreturn : stepTimer cfg ⟨timers, .callback t, soft⟩ .checkReturn =
      some (⟨timers₁, .loop timers₁.tick, soft⟩, [.rearm t]) := by
    have hagain : (timers.timer t).periodic ∧ (timers.timer t).activated := ⟨h.periodic, h.activated⟩
    have hexit : timerExit cfg timers t = some timers₁ := by
      rw [timerExit, if_pos hagain, rtTimerStart_cleared, hstart]
    simp only [stepTimer, returnTimer, hexit, Option.map_some, if_pos hagain]
  have htimer : timers₁.timer t = (timers.timer t).started timers.tick := by
    rw [rtTimerStart_timer hstart, update_self]
  have hrow : ∀ x, x ∈ timers₁.lastRow cfg .hard ↔ x = t := by
    intro x
    rw [h.inv.mem_lastRow_start hstart, h.row, h.list]
    simp
  have hdue : timers₁.Due timers₁.tick t := by
    rw [Timers.Due, htimer, rtTimerStart_tick hstart, Timer.started, hzero]
    simp [halfTick]
  obtain ⟨hnext, halone⟩ := checkRun_only (h.inv.start hstart) hrow hdue (by rw [htimer]; exact h.periodic) soft
  refine ⟨_, (Transition.Run.start.next (.inr rfl) hreturn).next (.inl rfl) hnext, halone, ?_⟩
  change (timers₁.timer t).initTick = 0
  rw [htimer]
  exact hzero

theorem Alone.forever (h : Alone cfg timers t) (hzero : (timers.timer t).initTick = 0) (soft : SoftCheck) (n : Nat) :
    ∃ trace timers', SilentRun cfg ⟨timers, .callback t, soft⟩ trace ⟨timers', .callback t, soft⟩ ∧
      (firings trace).length = n := by
  induction n generalizing timers with
  | zero => exact ⟨[], timers, .start, rfl⟩
  | succ n ih =>
    obtain ⟨timers₁, hagain, halone, hzero₁⟩ := h.again hzero soft
    obtain ⟨trace, timers', hrun, hlength⟩ := ih halone hzero₁
    refine ⟨_, timers', hagain.trans hrun, ?_⟩
    have hfired : (firings [TimerEvent.rearm t, .fire t]).length = 1 := rfl
    rw [firings_append, List.length_append, hfired, hlength, Nat.add_comm]

theorem Alone.stuck (h : Alone cfg timers t) (hlong : ¬ (timers.timer t).initTick < halfTick) (hop : op.OfCheck) :
    stepTimer cfg ⟨timers, .callback t, soft⟩ op = none := by
  rcases hop with rfl | rfl
  · rfl
  · have hagain : (timers.timer t).periodic ∧ (timers.timer t).activated := ⟨h.periodic, h.activated⟩
    have hexit : timerExit cfg timers t = none := by
      rw [timerExit, if_pos hagain, rtTimerStart_cleared, rtTimerStart]
      refine if_neg ?_
      rw [startStop, setTimer_self]
      exact hlong
    simp only [stepTimer, returnTimer, hexit, Option.map_none]

theorem Alone.not_checkEnds (h : Alone cfg timers' t) (hperiod : ¬ (timers'.timer t).HasPeriod)
    (hrun : CheckRun cfg ⟨timers, .loop timers.tick, soft⟩ trace ⟨timers', .callback t, soft⟩) :
    ¬ CheckEnds cfg timers soft := by
  rintro ⟨n, hends⟩
  by_cases hlong : (timers'.timer t).initTick < halfTick
  · have hzero : (timers'.timer t).initTick = 0 := by
      by_contra hne
      refine hperiod ⟨?_, hlong⟩
      bv_omega
    obtain ⟨trace', timers'', hmore, hlength⟩ := h.forever hzero soft (n + 1)
    have hbound := (hends _ _ (hrun.trans (hmore.mono fun _ _ _ _ => .inl))).1
    rw [firings_append, List.length_append] at hbound
    omega
  · rcases (hends _ _ hrun).2 with hidle | ⟨op, hop, hsome⟩
    · cases hidle
    · rw [h.stuck hlong hop] at hsome
      cases hsome

theorem TimersInv.mem_hard (h : TimersInv cfg timers) :
    x ∈ timers.lastRow cfg .hard ↔ timers.Linked cfg x ∧ (timers.timer x).list = .hard := by
  constructor
  · intro hx
    exact ⟨⟨.hard, hx⟩, h.list .hard x hx⟩
  · rintro ⟨hlinked, hlist⟩
    rw [h.linked_iff, hlist] at hlinked
    exact hlinked

/-- When the first timer is due and a due timer is periodic without a proper period, the first timeout function can stop all the other timers. -/
theorem TimersInv.not_checkEnds {a : TimerId} {rest : List TimerId} (h : TimersInv cfg timers)
    (hrow : timers.lastRow cfg .hard = a :: rest) (ha : timers.Due timers.tick a) (ht : t ∈ dueTimers cfg timers)
    (hsound : ¬ (timers.timer t).Sound) (soft : SoftCheck) : ¬ CheckEnds cfg timers soft := by
  rw [Timer.Sound, Classical.not_imp] at hsound
  obtain ⟨hperiodic, hperiod⟩ := hsound
  obtain ⟨htrow, htdue⟩ := mem_dueTimers.1 ht
  have htlinked : timers.Linked cfg t := ⟨.hard, htrow⟩
  have hfirst : stepTimer cfg ⟨timers, .loop timers.tick, soft⟩ .checkNext =
      some (⟨timerRemove timers a, .callback a, soft⟩, [.fire a]) := by
    simp only [stepTimer, hrow, if_pos ha]
  obtain ⟨trace, timers₁, hstops, hinv, htick, hlinked, hother, hcleared⟩ :=
    (h.remove a).checkRun_stop a soft ((a :: rest).filter (· ≠ t))
  have hrun := (Transition.Run.start.next (.inl (.inl rfl)) hfirst).trans hstops
  have htimer : timers₁.timer t = timers.timer t := hother t (by simp)
  have hmem : ∀ x, x ∈ timers₁.lastRow cfg .hard ↔ x = t ∧ a ≠ t := by
    intro x
    rw [hinv.mem_hard, hlinked, h.linked_timerRemove]
    constructor
    · rintro ⟨⟨hkept, hne, hlink⟩, hlist⟩
      rw [hother x hkept] at hlist
      have hx : x ∈ a :: rest := hrow ▸ h.mem_hard.2 ⟨hlink, hlist⟩
      have hxt : x = t := by
        by_contra hxt
        exact hkept (List.mem_filter.2 ⟨hx, by simpa using hxt⟩)
      exact ⟨hxt, fun hat => hne (hxt.trans hat.symm)⟩
    · rintro ⟨rfl, hne⟩
      refine ⟨⟨by simp, Ne.symm hne, htlinked⟩, ?_⟩
      rw [htimer]
      exact h.list .hard x htrow
  by_cases hat : a = t
  · -- its own timeout function runs, and no hard timer is left
    subst hat
    have halone : Alone cfg timers₁ a := by
      refine ⟨hinv, ?_, ?_, ?_, ?_⟩
      · rw [List.eq_nil_iff_forall_not_mem]
        exact fun x hx => ((hmem x).1 hx).2 rfl
      · rw [htimer]
        exact h.list .hard a htrow
      · rw [htimer]
        exact hperiodic
      · rw [htimer]
        exact h.activated a htlinked
    exact halone.not_checkEnds (htimer ▸ hperiod) hrun
  · -- the function of the first timer returns, stopped, and the check takes up the timer that is left
    have hstopped : (timers₁.timer a).activated = false :=
      hcleared a (List.mem_filter.2 ⟨List.mem_cons_self .., by simpa using hat⟩)
    have hreturn : stepTimer cfg ⟨timers₁, .callback a, soft⟩ .checkReturn =
        some (⟨timers₁.setTimer a fun timer => { timer with activated := false }, .loop timers₁.tick, soft⟩, []) := by
      simp [stepTimer, returnTimer, timerExit, hstopped]
    have hta : t ≠ a := Ne.symm hat
    have hunlinked : ¬ timers₁.Linked cfg a := fun hlink => by
      rw [hinv.activated a hlink] at hstopped
      cases hstopped
    have htimer₂ : (timers₁.setTimer a fun timer => { timer with activated := false }).timer t = timers.timer t := by
      rw [setTimer_other _ hta, htimer]
    have hdue : (timers₁.setTimer a fun timer => { timer with activated := false }).Due timers₁.tick t := by
      rw [Timers.Due, htimer₂, htick]
      exact htdue
    obtain ⟨hnext, halone⟩ := checkRun_only (hinv.setTimer rfl fun hlink => absurd hlink hunlinked)
      (fun x => (hmem x).trans (and_iff_left hat)) hdue (by rw [htimer₂]; exact hperiodic) soft
    refine halone.not_checkEnds ?_ ((hrun.next (.inl (.inr rfl)) hreturn).next (.inl (.inl rfl)) hnext)
    rw [timerRemove_timer, htimer₂]
    exact hperiod

/-- The first timer of the list is not due: `rt_timer_check` has nothing to do. -/
def NothingDue (cfg : TimerConfig) (timers : Timers) : Prop :=
  ∀ t ∈ (timers.lastRow cfg .hard).head?, ¬ timers.Due timers.tick t

theorem checkEnds_of_nothingDue (h : NothingDue cfg timers) : CheckEnds cfg timers soft := by
  have hnext : stepTimer cfg ⟨timers, .loop timers.tick, soft⟩ .checkNext = some (⟨timers, .idle, soft⟩, []) := by
    cases hrow : timers.lastRow cfg .hard with
    | nil => simp only [stepTimer, hrow]
    | cons t rest =>
      have hdue : ¬ timers.Due timers.tick t := h t (by rw [hrow]; rfl)
      simp only [stepTimer, hrow, if_neg hdue]
  refine ⟨0, fun trace s hrun => ?_⟩
  have hstays : trace = [] ∧ (s = ⟨timers, .loop timers.tick, soft⟩ ∨ s = ⟨timers, .idle, soft⟩) := by
    refine hrun.invariant (I := fun trace s => trace = [] ∧ (s = ⟨timers, .loop timers.tick, soft⟩ ∨ s = ⟨timers, .idle, soft⟩))
      ⟨rfl, .inl rfl⟩ ?_
    rintro _ s op s' events ⟨rfl, hs⟩ hok hstep
    have hop : op.OfCheck := by
      refine hok.resolve_right ?_
      rintro ⟨⟨t, ht⟩, -⟩
      rcases hs with rfl | rfl <;> cases ht
    rcases hs with rfl | rfl <;> rcases hop with rfl | rfl
    · rw [hnext] at hstep
      cases hstep
      exact ⟨rfl, .inr rfl⟩
    all_goals cases hstep
  obtain ⟨rfl, rfl | rfl⟩ := hstays
  · exact ⟨Nat.le_refl 0, .inr ⟨.checkNext, .inl rfl, by rw [hnext]; rfl⟩⟩
  · exact ⟨Nat.le_refl 0, .inl rfl⟩

/-- In a state that the timers reach, in particular in one that starting, stopping and controlling timers builds, and at every tick. -/
theorem checkEnds_iff (hrun : TimerRun cfg setup (ReturnsStopped cfg) trace s) (tick : BitVec 32) :
    CheckEnds cfg { s.timers with tick } s.soft ↔
      NothingDue cfg { s.timers with tick } ∨
        ∀ t ∈ dueTimers cfg { s.timers with tick }, (s.timers.timer t).periodic →
          0 < (s.timers.timer t).initTick ∧ (s.timers.timer t).initTick < halfTick := by
  have hinv : TimersInv cfg { s.timers with tick } :=
    (systemInv_of_run (fun _ _ => id) hrun).timers.congr rfl (fun _ => rfl) fun _ => rfl
  constructor
  · intro hends
    by_contra hnot
    rw [not_or, NothingDue] at hnot
    push Not at hnot
    obtain ⟨⟨a, ha, hadue⟩, t, ht, hperiodic, hperiod⟩ := hnot
    obtain ⟨rest, hrow⟩ := List.head?_eq_some_iff.1 ha
    refine hinv.not_checkEnds hrow hadue ht (fun hsound => ?_) s.soft hends
    have hproper := hsound hperiodic
    exact hperiod hproper.1 hproper.2
  · rintro (hnothing | hsound)
    · exact checkEnds_of_nothingDue hnothing
    · exact hinv.links.checkEnds hsound

/-- Two periodic timers of one tick, both due. -/
theorem checkEnds_iff_periodic : ∃ trace s, TimerRun twoRows (oneTick true .hard 0) (ReturnsStopped twoRows) trace s ∧
    dueTimers twoRows { s.timers with tick := 1 } = [0, 1] ∧ CheckEnds twoRows { s.timers with tick := 1 } s.soft := by
  obtain ⟨trace, s, hrun, hfound⟩ := exists_timerRun twoRows (oneTick true .hard 0) (ReturnsStopped twoRows)
    [.start 0, .start 1] (fun _ s => decide (dueTimers twoRows { s.timers with tick := 1 } = [0, 1] ∧
      ∀ t ∈ dueTimers twoRows { s.timers with tick := 1 }, (s.timers.timer t).periodic →
        0 < (s.timers.timer t).initTick ∧ (s.timers.timer t).initTick < halfTick)) (by decide +kernel)
  obtain ⟨hdue, hperiods⟩ := of_decide_eq_true hfound
  exact ⟨trace, s, hrun, hdue, (checkEnds_iff hrun 1).2 (.inr hperiods)⟩

/-- A periodic timer that is created with a time of 0 and started: with a timeout function that does nothing, `rt_timer_check` takes it up without end. -/
theorem checkEnds_fails : ∃ trace s, TimerRun twoRows ⟨fun _ => true, fun _ => .hard, fun _ => 0, 0⟩ (ReturnsStopped twoRows) trace s ∧
    trace = [.start 0] ∧ ∀ n, ∃ trace' s', SilentRun twoRows ⟨s.timers, .loop s.timers.tick, s.soft⟩ trace' s' ∧
      n < (firings trace').length := by
  obtain ⟨trace, s, hrun, hfound⟩ := exists_timerRun twoRows ⟨fun _ => true, fun _ => .hard, fun _ => 0, 0⟩
    (ReturnsStopped twoRows) [.start 0] (fun trace s => decide (trace = [.start 0] ∧ s.timers.lastRow twoRows .hard = [0] ∧
      s.timers.Due s.timers.tick 0 ∧ (s.timers.timer 0).periodic ∧ (s.timers.timer 0).initTick = 0)) (by decide +kernel)
  obtain ⟨htrace, hrow, hdue, hperiodic, hzero⟩ := of_decide_eq_true hfound
  refine ⟨trace, s, hrun, htrace, fun n => ?_⟩
  have hinv := (systemInv_of_run (fun _ _ => id) hrun).timers
  obtain ⟨hnext, halone⟩ := checkRun_only hinv (by simp [hrow]) hdue hperiodic s.soft
  obtain ⟨trace', timers', hforever, hlength⟩ := halone.forever hzero s.soft n
  refine ⟨_, _, (Transition.Run.start.next (.inl rfl) hnext).trans hforever, ?_⟩
  have hfired : (firings [TimerEvent.fire 0]).length = 1 := rfl
  rw [List.nil_append, firings_append, List.length_append, hfired, hlength]
  omega

end RtThread
