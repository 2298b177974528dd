import RtThread.Timer.Order

/-!
# One call of `rt_timer_check`

The whole loop, with timeout functions that call `rt_timer_start` and `rt_timer_stop`. The functions are a parameter: what the function of a timer does may depend on the timers and on the application's own state, which it may change. The loop logs the timers it has fired with the calls their functions have made.

Under the condition that deadlines lie in a window, a timer that is started for one tick or more is not due, so that the due timers get fewer with every round, and a timer that the earlier timeout functions have not touched is fired when it is due.
-/

namespace RtThread

open Function

inductive TimerCall
  | start (t : TimerId)
  | stop (t : TimerId)
  deriving DecidableEq

def TimerCall.timer : TimerCall → TimerId
  | .start t => t
  | .stop t => t

def TimerCall.perform (cfg : TimerConfig) (s : Timers) : TimerCall → Option Timers
  | .start t => rtTimerStart cfg s t
  | .stop t => some (rtTimerStop s t).2

def performAll (cfg : TimerConfig) : Timers → List TimerCall → Option Timers
  | s, [] => some s
  | s, call :: rest => (call.perform cfg s).bind fun s => performAll cfg s rest

abbrev FireLog := List (TimerId × List TimerCall)

variable {W : Type*}

/-- The loop of `rt_timer_check`. -/
def timerCheckLoop (cfg : TimerConfig) (timeoutFunc : TimerId → W → Timers → List TimerCall × W) :
    Nat → BitVec 32 → Timers → W → Option (FireLog × Timers × W)
  | 0, _, _, _ => none
  | fuel + 1, currentTick, s, w =>
    match s.lastRow cfg .hard with
    | [] => some ([], s, w)
    | t :: _ =>
      if s.Due currentTick t then
        let s := timerRemove s t
        let called := timeoutFunc t w s
        (performAll cfg s called.1).bind fun s =>
          (timerExit cfg s t).bind fun s =>
            (timerCheckLoop cfg timeoutFunc fuel s.tick s called.2).map fun r => ((t, called.1) :: r.1, r.2)
      else some ([], s, w)

/-- `rt_timer_check` with a bound on the rounds of its loop. -/
def rtTimerCheck (cfg : TimerConfig) (timeoutFunc : TimerId → W → Timers → List TimerCall × W) (fuel : Nat) (s : Timers)
    (w : W) : Option (FireLog × Timers × W) :=
  timerCheckLoop cfg timeoutFunc fuel s.tick s w

variable {cfg : TimerConfig} {s s' s₁ s₂ : Timers} {base : BitVec 32} {t x : TimerId} {list : TimerList}
  {T U : TimerId → Prop} {log : FireLog}

/-! ## What a round moves -/

/-- Starting `t` now asserts nothing that fails, and a hard timer gets a deadline after the current tick, in the window. -/
def CanStart (s : Timers) (base : BitVec 32) (t : TimerId) : Prop :=
  (s.timer t).initTick < halfTick ∧
    ((s.timer t).list = .hard → 0 < (s.timer t).initTick ∧ s.tick + (s.timer t).initTick - base < halfTick)

instance (s : Timers) (base : BitVec 32) (t : TimerId) : Decidable (CanStart s base t) :=
  inferInstanceAs (Decidable (_ ∧ (_ → _)))

/-- Of the timers only those in `T` are touched; what is touched and linked as a hard timer is not due. -/
structure Moves (cfg : TimerConfig) (T : TimerId → Prop) (s s' : Timers) : Prop where
  tick : s'.tick = s.tick
  initTick : ∀ x, (s'.timer x).initTick = (s.timer x).initTick
  periodic : ∀ x, (s'.timer x).periodic = (s.timer x).periodic
  list : ∀ x, (s'.timer x).list = (s.timer x).list
  timer : ∀ x, ¬ T x → s'.timer x = s.timer x
  row : ∀ x, ¬ T x → ∀ list, x ∈ s'.lastRow cfg list ↔ x ∈ s.lastRow cfg list
  fresh : ∀ x, T x → x ∈ s'.lastRow cfg .hard → ¬ s'.Due s'.tick x

theorem Moves.refl (s : Timers) : Moves cfg (fun _ => False) s s :=
  ⟨rfl, fun _ => rfl, fun _ => rfl, fun _ => rfl, fun _ _ => rfl, fun _ _ _ => Iff.rfl, fun _ h => h.elim⟩

theorem Moves.trans (h₁ : Moves cfg T s s₁) (h₂ : Moves cfg U s₁ s₂) : Moves cfg (fun x => T x ∨ U x) s s₂ where
  tick := h₂.tick.trans h₁.tick
  initTick x := (h₂.initTick x).trans (h₁.initTick x)
  periodic x := (h₂.periodic x).trans (h₁.periodic x)
  list x := (h₂.list x).trans (h₁.list x)
  timer x hx := (h₂.timer x fun h => hx (.inr h)).trans (h₁.timer x fun h => hx (.inl h))
  row x hx list := (h₂.row x (fun h => hx (.inr h)) list).trans (h₁.row x (fun h => hx (.inl h)) list)
  fresh x hx hmem := by
    by_cases hU : U x
    · exact h₂.fresh x hU hmem
    · rw [Timers.Due, h₂.tick, h₂.timer x hU]
      exact h₁.fresh x (hx.resolve_right hU) ((h₂.row x hU .hard).1 hmem)

theorem CanStart.congr (h : CanStart s base t) (hmoves : Moves cfg T s s') : CanStart s' base t := by
  rw [CanStart, hmoves.initTick, hmoves.list, hmoves.tick]
  exact h

structure CheckReady (cfg : TimerConfig) (base : BitVec 32) (s : Timers) : Prop where
  inv : TimersInv cfg s
  ordered : ∃ inserted, (∀ x, s.Linked cfg x → x ∈ inserted) ∧ Ordered cfg inserted s .hard
  window : Window cfg s .hard base
  tick : s.tick - base < halfTick
  periodic : ∀ t ∈ s.lastRow cfg .hard, (s.timer t).periodic → CanStart s base t

theorem CheckReady.due_iff (h : CheckReady cfg base s) (ht : t ∈ s.lastRow cfg .hard) :
    s.Due s.tick t ↔ (s.timer t).timeoutTick - base ≤ s.tick - base :=
  sub_lt_halfTick_iff (h.window t ht) h.tick

theorem CheckReady.none_due {rest : List TimerId} (h : CheckReady cfg base s) (hrow : s.lastRow cfg .hard = t :: rest)
    (ht : ¬ s.Due s.tick t) : ∀ x ∈ s.lastRow cfg .hard, ¬ s.Due s.tick x := by
  intro x hx hdue
  have hmem : t ∈ s.lastRow cfg .hard := hrow ▸ List.mem_cons_self ..
  obtain ⟨inserted, -, hordered⟩ := h.ordered
  have hsorted := hordered.sorted
  rw [hrow] at hx hsorted
  rcases List.mem_cons.1 hx with rfl | hx
  · exact ht hdue
  · have hxrow : x ∈ s.lastRow cfg .hard := hrow ▸ List.mem_cons_of_mem _ hx
    have hbefore := ((List.pairwise_cons.1 hsorted).1 x hx).1
    rw [Timers.NotAfter, sub_lt_halfTick_iff (h.window t hmem) (h.window x hxrow)] at hbefore
    exact ht ((h.due_iff hmem).2 (BitVec.le_trans hbefore ((h.due_iff hxrow).1 hdue)))

/-! ## The operations -/

theorem moves_unlink (hinv : TimersInv cfg s) (t : TimerId) (f : Timer → Timer)
    (hinit : (f (s.timer t)).initTick = (s.timer t).initTick) (hperiodic : (f (s.timer t)).periodic = (s.timer t).periodic)
    (hlist : (f (s.timer t)).list = (s.timer t).list) : Moves cfg (· = t) s ((timerRemove s t).setTimer t f) := by
  have hfield : ∀ {β : Type} (p : Timer → β), p (f (s.timer t)) = p (s.timer t) →
      ∀ x, p (((timerRemove s t).setTimer t f).timer x) = p (s.timer x) := by
    intro β p hp x
    by_cases hx : x = t
    · rw [hx, setTimer_self, timerRemove_timer, hp]
    · rw [setTimer_other _ hx, timerRemove_timer]
  refine ⟨rfl, hfield _ hinit, hfield _ hperiodic, hfield _ hlist, fun x hx => setTimer_other _ hx, fun x hx list => ?_,
    fun x hx hmem => ?_⟩
  · rw [setTimer_lastRow, hinv.mem_lastRow_timerRemove, and_iff_right hx]
  · exact absurd hx (hinv.mem_lastRow_timerRemove.1 hmem).1

theorem moves_remove (hinv : TimersInv cfg s) (t : TimerId) : Moves cfg (· = t) s (timerRemove s t) := by
  have hsame : (timerRemove s t).setTimer t id = timerRemove s t := by simp [Timers.setTimer, timerRemove]
  exact hsame ▸ moves_unlink hinv t id rfl rfl rfl

theorem moves_stop (hinv : TimersInv cfg s) (t : TimerId) : Moves cfg (· = t) s (rtTimerStop s t).2 := by
  cases hactivated : (s.timer t).activated with
  | true =>
    rw [rtTimerStop_activated hactivated]
    exact moves_unlink hinv t (fun timer => { timer with activated := false }) rfl rfl rfl
  | false =>
    rw [rtTimerStop_deactivated hactivated]
    have h : Moves cfg _ s s := .refl s
    refine ⟨h.tick, h.initTick, h.periodic, h.list, fun _ _ => rfl, fun _ _ _ => Iff.rfl, fun x hx hmem => ?_⟩
    subst hx
    rw [hinv.activated x ⟨_, hmem⟩] at hactivated
    cases hactivated

theorem moves_clear (ht : ¬ s.Linked cfg t) :
    Moves cfg (· = t) s (s.setTimer t fun timer => { timer with activated := false }) := by
  refine ⟨rfl, fun x => ?_, fun x => ?_, fun x => ?_, fun x hx => setTimer_other _ hx, fun _ _ _ => Iff.rfl,
    fun x hx hmem => absurd ⟨_, hmem⟩ (hx ▸ ht)⟩
  all_goals
    by_cases hx : x = t
    · rw [hx, setTimer_self]
    · rw [setTimer_other _ hx]

theorem not_due_started {tick init : BitVec 32} (hpos : 0 < init) (hhalf : init < halfTick) :
    ¬ tick - (tick + init) < halfTick := by
  have heq : halfTick = 0x7FFFFFFF#32 := by decide
  rw [heq] at hhalf ⊢
  bv_omega

theorem moves_start (hinv : TimersInv cfg s) (hstart : rtTimerStart cfg s t = some s') (hcan : CanStart s base t) :
    Moves cfg (· = t) s s' := by
  have htimer := rtTimerStart_timer hstart
  have hfield : ∀ {β : Type} (p : Timer → β), (∀ timer tick, p (Timer.started timer tick) = p timer) →
      ∀ x, p (s'.timer x) = p (s.timer x) := by
    intro β p hp x
    rw [htimer]
    by_cases hx : x = t
    · rw [hx, update_self, hp]
    · rw [update_of_ne hx]
  refine ⟨rtTimerStart_tick hstart, hfield _ fun _ _ => rfl, hfield _ fun _ _ => rfl, hfield _ fun _ _ => rfl,
    fun x hx => ?_, fun x hx list => ?_, fun x hx hmem => ?_⟩
  · rw [htimer, update_of_ne hx]
  · rw [hinv.mem_lastRow_start hstart]
    simp [hx]
  · subst hx
    have hlist : .hard = (s.timer x).list := by
      rcases (hinv.mem_lastRow_start hstart).1 hmem with ⟨-, hlist⟩ | ⟨hne, -⟩
      · exact hlist
      · exact absurd rfl hne
    rw [Timers.Due, htimer, update_self, rtTimerStart_tick hstart]
    exact not_due_started (hcan.2 hlist.symm).1 hcan.1

/-! ## Every operation keeps the timers ready -/

theorem CheckReady.shrink (h : CheckReady cfg base s) (hmoves : Moves cfg T s s') (hinv : TimersInv cfg s')
    (hlinked : ∀ x, s'.Linked cfg x → s.Linked cfg x) (hgone : ∀ x, T x → x ∉ s'.lastRow cfg .hard)
    (hordered : ∀ inserted, Ordered cfg inserted s .hard → Ordered cfg inserted s' .hard) : CheckReady cfg base s' := by
  have hkept : ∀ x ∈ s'.lastRow cfg .hard, s'.timer x = s.timer x ∧ x ∈ s.lastRow cfg .hard := fun x hx => by
    have hnot : ¬ T x := fun hT => hgone x hT hx
    exact ⟨hmoves.timer x hnot, (hmoves.row x hnot .hard).1 hx⟩
  obtain ⟨inserted, hmem, hord⟩ := h.ordered
  refine ⟨hinv, ⟨inserted, fun x hx => hmem x (hlinked x hx), hordered inserted hord⟩, fun x hx => ?_, ?_, fun x hx hp => ?_⟩
  · rw [(hkept x hx).1]
    exact h.window x (hkept x hx).2
  · rw [hmoves.tick]
    exact h.tick
  · rw [(hkept x hx).1] at hp
    exact (h.periodic x (hkept x hx).2 hp).congr hmoves

theorem CheckReady.remove (h : CheckReady cfg base s) (t : TimerId) : CheckReady cfg base (timerRemove s t) := by
  refine h.shrink (moves_remove h.inv t) (h.inv.remove t) (fun x hx => (h.inv.linked_timerRemove.1 hx).2)
    (fun x hx hmem => ?_) fun _ hord => hord.remove t
  exact (h.inv.mem_lastRow_timerRemove.1 hmem).1 hx

theorem CheckReady.stop (h : CheckReady cfg base s) (t : TimerId) : CheckReady cfg base (rtTimerStop s t).2 := by
  obtain ⟨hinv, hlinked, -⟩ := h.inv.stop t
  refine h.shrink (moves_stop h.inv t) hinv (fun x hx => ((hlinked x).1 hx).2) (fun x hx hmem => ?_)
    fun _ hord => hord.stop h.inv.links t
  exact ((hlinked x).1 ⟨_, hmem⟩).1 hx

theorem CheckReady.clear (h : CheckReady cfg base s) (ht : ¬ s.Linked cfg t) :
    CheckReady cfg base (s.setTimer t fun timer => { timer with activated := false }) := by
  refine h.shrink (moves_clear ht) (h.inv.setTimer rfl fun hlink => absurd hlink ht) (fun _ hx => hx)
    (fun x hx hmem => ht (hx ▸ ⟨_, hmem⟩)) fun _ hord => hord.congr rfl fun x hx => ?_
  have hne : x ≠ t := fun heq => ht (heq ▸ hx)
  rw [setTimer_other _ hne]

theorem CheckReady.start (h : CheckReady cfg base s) (hcan : CanStart s base t) :
    ∃ s', rtTimerStart cfg s t = some s' ∧ CheckReady cfg base s' := by
  obtain ⟨s', hstart⟩ : ∃ s', rtTimerStart cfg s t = some s' := by
    refine ⟨_, if_pos ?_⟩
    rw [startStop, setTimer_self]
    exact hcan.1
  have hmoves := moves_start h.inv hstart hcan
  have hwindow : Window cfg s' .hard base := by
    intro x hx
    rw [rtTimerStart_timer hstart]
    rcases (h.inv.mem_lastRow_start hstart).1 hx with ⟨rfl, hlist⟩ | ⟨hne, hx⟩
    · rw [update_self]
      exact (hcan.2 hlist.symm).2
    · rw [update_of_ne hne]
      exact h.window x hx
  obtain ⟨inserted, hmem, hord⟩ := h.ordered
  refine ⟨s', hstart, h.inv.start hstart, ⟨inserted ++ [t], fun x hx => ?_, ?_⟩, hwindow, ?_, fun x hx hp => ?_⟩
  · rw [List.mem_append, List.mem_singleton]
    exact ((h.inv.linked_start hstart).1 hx).symm.imp (hmem x) id
  · exact hord.start h.inv.links hmem hstart ⟨base, hwindow⟩
  · rw [hmoves.tick]
    exact h.tick
  · rcases (h.inv.mem_lastRow_start hstart).1 hx with ⟨rfl, -⟩ | ⟨-, hx⟩
    · exact hcan.congr hmoves
    · rw [hmoves.periodic] at hp
      exact (h.periodic x hx hp).congr hmoves

/-! ## A round of the loop -/

/-- One of the calls is for timer `x`. -/
def Touches (calls : List TimerCall) (x : TimerId) : Prop := ∃ call ∈ calls, call.timer = x

def CallsCanStart (s : Timers) (base : BitVec 32) (calls : List TimerCall) : Prop :=
  ∀ x, .start x ∈ calls → CanStart s base x

theorem CheckReady.perform (h : CheckReady cfg base s) {call : TimerCall} (hcan : ∀ x, call = .start x → CanStart s base x) :
    ∃ s', call.perform cfg s = some s' ∧ CheckReady cfg base s' ∧ Moves cfg (· = call.timer) s s' := by
  cases call with
  | start t =>
    obtain ⟨s', hstart, hready⟩ := h.start (hcan t rfl)
    exact ⟨s', hstart, hready, moves_start h.inv hstart (hcan t rfl)⟩
  | stop t => exact ⟨_, rfl, h.stop t, moves_stop h.inv t⟩

theorem CheckReady.performAll {calls : List TimerCall} (h : CheckReady cfg base s) (hcan : CallsCanStart s base calls) :
    ∃ s', performAll cfg s calls = some s' ∧ CheckReady cfg base s' ∧ Moves cfg (Touches calls) s s' := by
  induction calls generalizing s with
  | nil =>
    have hnone : Touches [] = fun _ => False := by
      funext x
      simp [Touches]
    exact ⟨s, rfl, h, hnone ▸ .refl s⟩
  | cons call rest ih =>
    obtain ⟨s₁, hcall, hready₁, hmoves₁⟩ := h.perform fun x hx => hcan x (hx ▸ List.mem_cons_self ..)
    have hcan₁ : CallsCanStart s₁ base rest := fun x hx => (hcan x (List.mem_cons_of_mem _ hx)).congr hmoves₁
    obtain ⟨s₂, hrest, hready₂, hmoves₂⟩ := ih hready₁ hcan₁
    have htouches : Touches (call :: rest) = fun x => x = call.timer ∨ Touches rest x := by
      funext x
      simp [Touches, eq_comm]
    refine ⟨s₂, ?_, hready₂, htouches ▸ hmoves₁.trans hmoves₂⟩
    rw [RtThread.performAll, hcall, Option.bind_some, hrest]

/-- What a fired timer is left as: a periodic timer is started again at the current tick, a one-shot is out of the list. -/
def Rearmed (cfg : TimerConfig) (s s' : Timers) (t : TimerId) : Prop :=
  if (s.timer t).periodic then
    t ∈ s'.lastRow cfg .hard ∧ (s'.timer t).activated ∧ (s'.timer t).timeoutTick = s.tick + (s.timer t).initTick
  else ¬ s'.Linked cfg t ∧ (s'.timer t).activated = false

theorem CheckReady.round {calls : List TimerCall} (h : CheckReady cfg base s) (ht : t ∈ s.lastRow cfg .hard)
    (hother : ¬ Touches calls t) (hcan : CallsCanStart s base calls) :
    ∃ s₁ s₂, RtThread.performAll cfg (timerRemove s t) calls = some s₁ ∧ timerExit cfg s₁ t = some s₂ ∧
      CheckReady cfg base s₂ ∧ Moves cfg (fun x => x = t ∨ Touches calls x) s s₂ ∧ Rearmed cfg s s₂ t := by
  have hremoved : Moves cfg _ s _ := moves_remove h.inv t
  obtain ⟨s₁, hcalls, hready₁, hmoves₁⟩ := (h.remove t).performAll fun x hx => (hcan x hx).congr hremoved
  have hmoved := hremoved.trans hmoves₁
  have htimer : s₁.timer t = s.timer t := hmoves₁.timer t hother
  have hunlinked : ¬ s₁.Linked cfg t := by
    rintro ⟨list, hmem⟩
    exact (h.inv.mem_lastRow_timerRemove.1 ((hmoves₁.row t hother list).1 hmem)).1 rfl
  have hactivated := h.inv.activated t ⟨_, ht⟩
  have hsame : (fun x => (x = t ∨ Touches calls x) ∨ x = t) = fun x => x = t ∨ Touches calls x := by
    funext x
    simp [or_comm]
  cases hperiodic : (s.timer t).periodic with
  | true =>
    have hcan₁ : CanStart s₁ base t := (h.periodic t ht hperiodic).congr hmoved
    obtain ⟨s₂, hstart, hready₂⟩ := hready₁.start hcan₁
    refine ⟨s₁, s₂, hcalls, ?_, hready₂, hsame ▸ hmoved.trans (moves_start hready₁.inv hstart hcan₁), ?_⟩
    · rw [timerExit, htimer, if_pos ⟨hperiodic, hactivated⟩, rtTimerStart_cleared, hstart]
    · rw [Rearmed, if_pos hperiodic, rtTimerStart_timer hstart, update_self, htimer]
      refine ⟨(hready₁.inv.mem_lastRow_start hstart).2 (.inl ⟨rfl, ?_⟩), rfl, ?_⟩
      · rw [htimer, h.inv.list _ t ht]
      · rw [Timer.started, hmoved.tick]
  | false =>
    refine ⟨s₁, _, hcalls, ?_, hready₁.clear hunlinked, hsame ▸ hmoved.trans (moves_clear hunlinked), ?_⟩
    · rw [timerExit, htimer, if_neg (by simp [hperiodic])]
    · rw [Rearmed, if_neg (by simp [hperiodic]), setTimer_self]
      exact ⟨hunlinked, rfl⟩

/-! ## The whole call -/

/-- A timeout function in the log has touched `x`. -/
def TouchedIn (log : FireLog) (x : TimerId) : Prop := ∃ entry ∈ log, Touches entry.2 x

def fired (log : FireLog) : List TimerId := log.map Prod.fst

/-- What one call of `rt_timer_check` does. -/
structure Checked (cfg : TimerConfig) (s : Timers) (log : FireLog) (s' : Timers) : Prop where
  nodup : (fired log).Nodup
  ordered : (fired log).Pairwise s.NotAfter
  due : ∀ t ∈ fired log, t ∈ s.lastRow cfg .hard ∧ s.Due s.tick t
  /-- No timer fires that an earlier timeout function has touched. -/
  untouched : ∀ before t calls after, log = before ++ (t, calls) :: after → ¬ TouchedIn before t
  /-- Every timer fires that is due, unless a timeout function has touched it. -/
  complete : ∀ t ∈ s.lastRow cfg .hard, s.Due s.tick t → t ∈ fired log ∨ TouchedIn log t
  /-- What a fired timer is left as, unless a later timeout function has touched it. -/
  rearmed : ∀ before t calls after, log = before ++ (t, calls) :: after → ¬ TouchedIn after t → Rearmed cfg s s' t
  /-- A timer that is neither fired nor touched stays as it is. -/
  others : ∀ t, t ∉ fired log → ¬ TouchedIn log t →
    s'.timer t = s.timer t ∧ ∀ list, t ∈ s'.lastRow cfg list ↔ t ∈ s.lastRow cfg list

theorem Checked.nil (hnone : ∀ x ∈ s.lastRow cfg .hard, ¬ s.Due s.tick x) : Checked cfg s [] s where
  nodup := List.nodup_nil
  ordered := List.Pairwise.nil
  due _ ht := by cases ht
  untouched _ _ _ _ heq := by simp at heq
  complete t ht hdue := absurd hdue (hnone t ht)
  rearmed _ _ _ _ heq := by simp at heq
  others _ _ _ := ⟨rfl, fun _ => Iff.rfl⟩

theorem Checked.cons {calls : List TimerCall} {rest : List TimerId} (h : CheckReady cfg base s)
    (hrow : s.lastRow cfg .hard = t :: rest) (hdue : s.Due s.tick t)
    (hmoves : Moves cfg (fun x => x = t ∨ Touches calls x) s s₁) (hrearmed : Rearmed cfg s s₁ t)
    (hchecked : Checked cfg s₁ log s') : Checked cfg s ((t, calls) :: log) s' := by
  have hmem : t ∈ s.lastRow cfg .hard := hrow ▸ List.mem_cons_self ..
  -- what fires later has not been touched in this round
  have hlater : ∀ x ∈ fired log, ¬ (x = t ∨ Touches calls x) ∧ x ∈ s.lastRow cfg .hard ∧ s.Due s.tick x := by
    intro x hx
    obtain ⟨hxrow, hxdue⟩ := hchecked.due x hx
    have hnot : ¬ (x = t ∨ Touches calls x) := fun hT => hmoves.fresh x hT hxrow hxdue
    rw [Timers.Due, hmoves.tick, hmoves.timer x hnot] at hxdue
    exact ⟨hnot, (hmoves.row x hnot .hard).1 hxrow, hxdue⟩
  have hnotAfter : ∀ x ∈ fired log, ∀ y ∈ fired log, s₁.NotAfter x y → s.NotAfter x y := by
    intro x hx y hy hxy
    rwa [Timers.NotAfter, hmoves.timer x (hlater x hx).1, hmoves.timer y (hlater y hy).1] at hxy
  refine ⟨?_, ?_, fun x hx => ?_, fun before x calls' after heq => ?_, fun x hx hxdue => ?_,
    fun before x calls' after heq hafter => ?_, fun x hx hxlog => ?_⟩
  · exact List.nodup_cons.2 ⟨fun hin => (hlater t hin).1 (.inl rfl), hchecked.nodup⟩
  · refine List.pairwise_cons.2 ⟨fun x hx => ?_, hchecked.ordered.imp_of_mem fun hx hy => hnotAfter _ hx _ hy⟩
    obtain ⟨inserted, -, hordered⟩ := h.ordered
    have hsorted := hordered.sorted
    rw [hrow] at hsorted
    have hxrow := (hlater x hx).2.1
    rw [hrow] at hxrow
    have hxrest := (List.mem_cons.1 hxrow).resolve_left fun heq => (hlater x hx).1 (.inl heq)
    exact ((List.pairwise_cons.1 hsorted).1 x hxrest).1
  · rcases List.mem_cons.1 hx with rfl | hx
    · exact ⟨hmem, hdue⟩
    · exact (hlater x hx).2
  · cases before with
    | nil => simp [TouchedIn]
    | cons entry before =>
      obtain ⟨rfl, rfl⟩ := List.cons.inj heq
      rintro ⟨entry, hin, htouch⟩
      rcases List.mem_cons.1 hin with rfl | hin
      · exact (hlater x (List.mem_map.2 ⟨(x, calls'), by simp, rfl⟩)).1 (.inr htouch)
      · exact hchecked.untouched before x calls' after rfl ⟨entry, hin, htouch⟩
  · by_cases hT : x = t ∨ Touches calls x
    · rcases hT with rfl | htouch
      · exact .inl (List.mem_cons_self ..)
      · exact .inr ⟨_, List.mem_cons_self .., htouch⟩
    · have hxdue₁ : s₁.Due s₁.tick x := by
        rw [Timers.Due, hmoves.tick, hmoves.timer x hT]
        exact hxdue
      refine (hchecked.complete x ((hmoves.row x hT .hard).2 hx) hxdue₁).imp (List.mem_cons_of_mem _) ?_
      rintro ⟨entry, hin, htouch⟩
      exact ⟨entry, List.mem_cons_of_mem _ hin, htouch⟩
  · cases before with
    | nil =>
      obtain ⟨heq, rfl⟩ := List.cons.inj heq
      cases heq
      have hnot : t ∉ fired log := fun hin => (hlater t hin).1 (.inl rfl)
      obtain ⟨htimer, hrows⟩ := hchecked.others t hnot hafter
      simp only [Rearmed, Timers.Linked, htimer, hrows] at hrearmed ⊢
      exact hrearmed
    | cons entry before =>
      obtain ⟨-, rfl⟩ := List.cons.inj heq
      have hlast := hchecked.rearmed before x calls' after rfl hafter
      have hnot := (hlater x (List.mem_map.2 ⟨(x, calls'), by simp, rfl⟩)).1
      rwa [Rearmed, hmoves.timer x hnot, hmoves.tick] at hlast
  · have hnot : ¬ (x = t ∨ Touches calls x) := by
      rintro (rfl | htouch)
      · exact hx (List.mem_cons_self ..)
      · exact hxlog ⟨_, List.mem_cons_self .., htouch⟩
    have hlog : ¬ TouchedIn log x := by
      rintro ⟨entry, hin, htouch⟩
      exact hxlog ⟨entry, List.mem_cons_of_mem _ hin, htouch⟩
    obtain ⟨htimer, hrows⟩ := hchecked.others x (fun hin => hx (List.mem_cons_of_mem _ hin)) hlog
    exact ⟨htimer.trans (hmoves.timer x hnot), fun list => (hrows list).trans (hmoves.row x hnot list)⟩

def dueTimers (cfg : TimerConfig) (s : Timers) : List TimerId :=
  (s.lastRow cfg .hard).filter fun t => s.Due s.tick t

theorem CheckReady.dueTimers_lt {calls : List TimerCall} (hready : CheckReady cfg base s₁)
    (ht : t ∈ s.lastRow cfg .hard) (hdue : s.Due s.tick t) (hmoves : Moves cfg (fun x => x = t ∨ Touches calls x) s s₁) :
    (dueTimers cfg s₁).length < (dueTimers cfg s).length := by
  have hstill : ∀ x ∈ dueTimers cfg s₁, x ≠ t ∧ x ∈ dueTimers cfg s := by
    intro x hx
    obtain ⟨hrow, hxdue⟩ := List.mem_filter.1 hx
    have hxdue := of_decide_eq_true hxdue
    have hnot : ¬ (x = t ∨ Touches calls x) := fun hT => hmoves.fresh x hT hrow hxdue
    rw [Timers.Due, hmoves.tick, hmoves.timer x hnot] at hxdue
    exact ⟨fun heq => hnot (.inl heq), List.mem_filter.2 ⟨(hmoves.row x hnot .hard).1 hrow, decide_eq_true hxdue⟩⟩
  have hnodup : (t :: dueTimers cfg s₁).Nodup :=
    List.nodup_cons.2 ⟨fun hin => (hstill t hin).1 rfl, ((hready.inv.rows .hard).nodup cfg.last).filter _⟩
  refine (List.subperm_of_subset hnodup fun x hx => ?_).length_le
  rcases List.mem_cons.1 hx with rfl | hx
  · exact List.mem_filter.2 ⟨ht, decide_eq_true hdue⟩
  · exact (hstill x hx).2

def TouchesOthers (timeoutFunc : TimerId → W → Timers → List TimerCall × W) (s : Timers) (base : BitVec 32) : Prop :=
  ∀ t w s', ¬ Touches (timeoutFunc t w s').1 t ∧ CallsCanStart s base (timeoutFunc t w s').1

variable {timeoutFunc : TimerId → W → Timers → List TimerCall × W}

theorem CheckReady.timerCheckLoop (h : CheckReady cfg base s) (hothers : TouchesOthers timeoutFunc s base) {fuel : Nat}
    (hfuel : (dueTimers cfg s).length < fuel) (w : W) :
    ∃ log s' w', timerCheckLoop cfg timeoutFunc fuel s.tick s w = some (log, s', w') ∧ Checked cfg s log s' := by
  induction fuel generalizing s w with
  | zero => omega
  | succ fuel ih =>
    rw [RtThread.timerCheckLoop]
    cases hrow : s.lastRow cfg .hard with
    | nil => exact ⟨[], s, w, rfl, .nil (by simp [hrow])⟩
    | cons t rest =>
      have ht : t ∈ s.lastRow cfg .hard := hrow ▸ List.mem_cons_self ..
      by_cases hdue : s.Due s.tick t
      · obtain ⟨hother, hcan⟩ := hothers t w (timerRemove s t)
        obtain ⟨s₁, s₂, hcalls, hexit, hready, hmoves, hrearmed⟩ := h.round ht hother hcan
        have hothers₂ : TouchesOthers timeoutFunc s₂ base := fun t w s' =>
          ⟨(hothers t w s').1, fun x hx => ((hothers t w s').2 x hx).congr hmoves⟩
        have hfewer := hready.dueTimers_lt ht hdue hmoves
        obtain ⟨log, s', w', hloop, hchecked⟩ := ih hready hothers₂ (by omega) (timeoutFunc t w (timerRemove s t)).2
        refine ⟨_, s', w', ?_, .cons h hrow hdue hmoves hrearmed hchecked⟩
        simp only [if_pos hdue, hcalls, Option.bind_some, hexit, hloop, Option.map_some]
      · exact ⟨[], s, w, if_neg hdue, .nil (h.none_due hrow hdue)⟩

/-- Where the deadlines of the hard timers lie in a window with the current tick, also when they are started again, and timeout functions touch only other timers, one call of `rt_timer_check` fires the due timers. -/
theorem rtTimerCheck_of_run {setup : TimerSetup} {trace : List TimerEvent} {sys : TimerSystem}
    (hrun : TimerRun cfg setup (OrderKept cfg) trace sys) (hwindow : Window cfg sys.timers .hard base)
    (htick : sys.timers.tick - base < halfTick)
    (hperiodic : ∀ t ∈ sys.timers.lastRow cfg .hard, (sys.timers.timer t).periodic → CanStart sys.timers base t)
    (hothers : TouchesOthers timeoutFunc sys.timers base) {fuel : Nat}
    (hfuel : (sys.timers.lastRow cfg .hard).length < fuel) (w : W) :
    ∃ log s' w', rtTimerCheck cfg timeoutFunc fuel sys.timers w = some (log, s', w') ∧ Checked cfg sys.timers log s' := by
  have hinv := orderInv_of_run hrun
  have hready : CheckReady cfg base sys.timers :=
    ⟨hinv.system.timers, ⟨_, hinv.inserted, hinv.ordered .hard ⟨base, hwindow⟩⟩, hwindow, htick, hperiodic⟩
  have hdue : (dueTimers cfg sys.timers).length ≤ (sys.timers.lastRow cfg .hard).length := List.length_filter_le ..
  exact hready.timerCheckLoop hothers (by omega) w

def firstCalls (calls : List TimerCall) (t : TimerId) (count : Nat) (_ : Timers) : List TimerCall × Nat :=
  (if t = 0 then calls else [], count + 1)

/-- Of three periodic timers that are due, across the wrap of the tick, the function of the first stops the second and starts a fourth. The ones that have fired are started again. -/
theorem rtTimerCheck_of_run_touched : ∃ trace sys log s', TimerRun twoRows (oneTick true .hard 0xFFFFFFFE) (OrderKept twoRows) trace sys ∧
    rtTimerCheck twoRows (firstCalls [.stop 1, .start 3]) 5 sys.timers 0 = some (log, s', 2) ∧
      fired log = [0, 2] ∧ s'.lastRow twoRows .hard = [3, 0, 2] ∧ Checked twoRows sys.timers log s' := by
  obtain ⟨trace, sys, hrun, hfound⟩ := exists_timerRun twoRows (oneTick true .hard 0xFFFFFFFE)
    (fun s op => (Window twoRows s.timers .hard 0xFFFFFFFF ∧ Window twoRows s.timers .soft 0xFFFFFFFF) ∧
      ReturnsStopped twoRows s op) [.start 0, .start 1, .start 2, .tick]
    (fun _ s => decide (Window twoRows s.timers .hard 0xFFFFFFFF ∧ s.timers.tick - 0xFFFFFFFF < halfTick ∧
      (∀ t ∈ s.timers.lastRow twoRows .hard, CanStart s.timers 0xFFFFFFFF t) ∧ CanStart s.timers 0xFFFFFFFF 3 ∧
      (s.timers.lastRow twoRows .hard).length < 5 ∧
      (rtTimerCheck twoRows (firstCalls [.stop 1, .start 3]) 5 s.timers 0).any
        fun r => fired r.1 = [0, 2] ∧ r.2.1.lastRow twoRows .hard = [3, 0, 2] ∧ r.2.2 = 2)) (by decide +kernel)
  obtain ⟨hwindow, htick, hlinked, hthree, hfuel, hresult⟩ := of_decide_eq_true hfound
  have hkept : TimerRun twoRows _ (OrderKept twoRows) trace sys :=
    hrun.mono fun _ s _ _ h => ⟨.of_window h.1.1 h.1.2, h.2⟩
  have hothers : TouchesOthers (firstCalls [.stop 1, .start 3]) sys.timers 0xFFFFFFFF := by
    intro t w s
    by_cases ht : t = 0
    · simpa [firstCalls, ht, Touches, TimerCall.timer, CallsCanStart] using hthree
    · simp [firstCalls, ht, Touches, CallsCanStart]
  obtain ⟨log, s', w', hcheck, hchecked⟩ :=
    rtTimerCheck_of_run hkept hwindow htick (fun t ht _ => hlinked t ht) hothers hfuel 0
  rw [hcheck] at hresult
  obtain ⟨hfired, hlast, rfl⟩ := by simpa using hresult
  exact ⟨trace, sys, log, s', hkept, hcheck, hfired, hlast, hchecked⟩

/-- A timer that is due does not fire when an earlier timeout function stops it. -/
theorem rtTimerCheck_due_stopped : ∃ trace sys log s' count,
    TimerRun twoRows (oneTick false .hard 0) (OrderKept twoRows) trace sys ∧
    sys.timers.lastRow twoRows .hard = [0, 1] ∧ sys.timers.Due sys.timers.tick 1 ∧
      rtTimerCheck twoRows (firstCalls [.stop 1]) 3 sys.timers 0 = some (log, s', count) ∧ fired log = [0] := by
  obtain ⟨trace, sys, hrun, hfound⟩ := exists_timerRun twoRows (oneTick false .hard 0)
    (fun s op => (Window twoRows s.timers .hard 0 ∧ Window twoRows s.timers .soft 0) ∧ ReturnsStopped twoRows s op)
    [.start 0, .start 1, .tick]
    (fun _ s => decide (s.timers.lastRow twoRows .hard = [0, 1] ∧ s.timers.Due s.timers.tick 1 ∧
      (rtTimerCheck twoRows (firstCalls [.stop 1]) 3 s.timers 0).any fun r => fired r.1 = [0])) (by decide +kernel)
  obtain ⟨hrow, hdue, hresult⟩ := of_decide_eq_true hfound
  obtain ⟨⟨log, s', count⟩, hcheck, hfired⟩ := (Option.any_eq_true ..).1 hresult
  have hkept : TimerRun twoRows _ (OrderKept twoRows) trace sys :=
    hrun.mono fun _ s _ _ h => ⟨.of_window h.1.1 h.1.2, h.2⟩
  exact ⟨trace, sys, log, s', count, hkept, hrow, hdue, hcheck, of_decide_eq_true hfired⟩

/-! ## The call as steps of the system -/

def firings (trace : List TimerEvent) : List TimerId :=
  trace.filterMap fun
    | .fire t => some t
    | .start _ => none
    | .stop .. => none
    | .rearm _ => none

/-- The calls of a timeout function are steps of the system. -/
theorem run_of_performAll (hard : HardCheck) (soft : SoftCheck) {calls : List TimerCall}
    (hcalls : performAll cfg s calls = some s') :
    ∃ trace, Transition.Run (stepTimer cfg) (fun _ _ => True) ⟨s, hard, soft⟩ trace ⟨s', hard, soft⟩ ∧
      ∀ t, .fire t ∉ trace := by
  induction calls generalizing s with
  | nil =>
    cases hcalls
    exact ⟨[], .start, fun _ => List.not_mem_nil⟩
  | cons call rest ih =>
    obtain ⟨s₁, hcall, hrest⟩ := Option.bind_eq_some_iff.1 hcalls
    obtain ⟨trace, hrun, hsilent⟩ := ih hrest
    cases call with
    | start t =>
      have hstep : stepTimer cfg ⟨s, hard, soft⟩ (.start t) = some (⟨s₁, hard, soft⟩, [.start t]) := by
        rw [stepTimer, show rtTimerStart cfg s t = some s₁ from hcall, Option.map_some]
      refine ⟨_, (Transition.Run.start.next trivial hstep).trans hrun, fun x => ?_⟩
      simpa using hsilent x
    | stop t =>
      have hstep : stepTimer cfg ⟨s, hard, soft⟩ (.stop t) = some (⟨s₁, hard, soft⟩, [.stop t (rtTimerStop s t).1]) := by
        rw [stepTimer, ← Option.some.inj hcall]
      refine ⟨_, (Transition.Run.start.next trivial hstep).trans hrun, fun x => ?_⟩
      simpa using hsilent x

theorem firings_eq_nil {trace : List TimerEvent} (h : ∀ t, .fire t ∉ trace) : firings trace = [] := by
  refine List.filterMap_eq_nil_iff.2 fun e he => ?_
  cases e with
  | fire t => exact absurd he (h t)
  | start t => rfl
  | stop t r => rfl
  | rearm t => rfl

/-- The loop is a run of the system, from where `rt_timer_check` has been entered to where it is left, that fires the timers of the log. -/
theorem run_of_timerCheckLoop {fuel : Nat} {currentTick : BitVec 32} {w w' : W} {soft : SoftCheck}
    (hloop : timerCheckLoop cfg timeoutFunc fuel currentTick s w = some (log, s', w')) :
    ∃ trace, Transition.Run (stepTimer cfg) (fun _ _ => True) ⟨s, .loop currentTick, soft⟩ trace ⟨s', .idle, soft⟩ ∧
      firings trace = fired log := by
  induction fuel generalizing currentTick s w log with
  | zero => cases hloop
  | succ fuel ih =>
    rw [timerCheckLoop] at hloop
    cases hrow : s.lastRow cfg .hard with
    | nil =>
      rw [hrow] at hloop
      have hstep : stepTimer cfg ⟨s, .loop currentTick, soft⟩ .checkNext = some (⟨s, .idle, soft⟩, []) := by
        simp only [stepTimer, hrow]
      cases hloop
      exact ⟨_, Transition.Run.start.next trivial hstep, rfl⟩
    | cons t rest =>
      simp only [hrow] at hloop
      split_ifs at hloop with hdue
      · obtain ⟨s₁, hcalls, hloop⟩ := Option.bind_eq_some_iff.1 hloop
        obtain ⟨s₂, hexit, hloop⟩ := Option.bind_eq_some_iff.1 hloop
        obtain ⟨⟨log', s'', w''⟩, hrest, heq⟩ := Option.map_eq_some_iff.1 hloop
        cases heq
        have hfire : stepTimer cfg ⟨s, .loop currentTick, soft⟩ .checkNext =
            some (⟨timerRemove s t, .callback t, soft⟩, [.fire t]) := by
          simp only [stepTimer, hrow, if_pos hdue]
        obtain ⟨events, hreturned, hsilent⟩ : ∃ events, returnTimer cfg s₁ t = some (s₂, events) ∧
            ∀ x, .fire x ∉ events := by
          refine ⟨_, by rw [returnTimer, hexit, Option.map_some], fun x => ?_⟩
          split_ifs <;> simp
        have hreturn : stepTimer cfg ⟨s₁, .callback t, soft⟩ .checkReturn =
            some (⟨s₂, .loop s₂.tick, soft⟩, events) := by
          simp only [stepTimer, hreturned, Option.map_some]
        obtain ⟨trace₁, hrun₁, hsilent₁⟩ := run_of_performAll (.callback t) soft hcalls
        obtain ⟨trace₂, hrun₂, hfirings⟩ := ih hrest
        refine ⟨_, (((Transition.Run.start.next trivial hfire).trans hrun₁).next trivial hreturn).trans hrun₂, ?_⟩
        have happend : ∀ l l', firings (l ++ l') = firings l ++ firings l' := fun l l' => List.filterMap_append ..
        rw [happend, happend, happend, firings_eq_nil hsilent₁, firings_eq_nil hsilent, hfirings]
        rfl
      · have hstep : stepTimer cfg ⟨s, .loop currentTick, soft⟩ .checkNext = some (⟨s, .idle, soft⟩, []) := by
          simp only [stepTimer, hrow, if_neg hdue]
        cases hloop
        exact ⟨_, Transition.Run.start.next trivial hstep, rfl⟩

theorem run_of_timerCheckLoop_stopped : ∃ s s' trace, Transition.Run (stepTimer twoRows) (fun _ _ => True) ⟨s, .loop s.tick, .idle⟩ trace
    ⟨s', .idle, .idle⟩ ∧ firings trace = [0] := by
  obtain ⟨-, sys, -, hfound⟩ := exists_timerRun twoRows (oneTick false .hard 0) (fun _ _ => True) [.start 0, .start 1, .tick]
    (fun _ s => (timerCheckLoop twoRows (firstCalls [.stop 1]) 3 s.timers.tick s.timers 0).any fun r => fired r.1 = [0]) (by decide +kernel)
  obtain ⟨⟨log, s', w'⟩, hloop, hfired⟩ := (Option.any_eq_true ..).1 hfound
  obtain hrun := of_decide_eq_true hfired ▸ run_of_timerCheckLoop hloop
  exact ⟨sys.timers, s', hrun⟩

end RtThread
