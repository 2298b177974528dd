import RtThread.Timer.Activation

/-!
# The walk of `rt_soft_timer_check`

The loop releases the scheduler around every timeout function and goes on from the node it has read before. It is watched here with what a reader of the trace would write down: the deadline of every timer that has been started and not stopped since, and how often the loop has gone round since `rt_soft_timer_check` was entered.

A round either ends the check or calls a timeout function. Of the timers that were linked at the start each can be called once. A timer that is started during the check can be called once more for each time it is started, if its deadline is reached before the walk gets to it.
-/

namespace RtThread

open Function

structure SoftWatch where
  system : TimerSystem
  /-- The deadline of a timer since it was started last, if it has not been stopped or fired since. -/
  deadline : TimerId → Option (BitVec 32)
  /-- The rounds of the loop since the check was entered. -/
  rounds : Nat
  entered : Nat
  /-- Those of them that have not been started, stopped or fired since. -/
  pending : List TimerId
  armed : List TimerId
  /-- How often the walk has since gone on to one of these and found it due. -/
  again : Nat

def SoftWatch.note (timers : Timers) (w : SoftWatch) : TimerEvent → SoftWatch
  | .start t | .rearm t =>
    { w with
      deadline := update w.deadline t (some (timers.timer t).timeoutTick)
      pending := w.pending.erase t
      armed := t :: w.armed }
  | .stop t _ | .fire t =>
    { w with
      deadline := update w.deadline t none
      pending := w.pending.erase t }

/-- The walk goes on to a timer that has been started since the check was entered, and finds it due. -/
def SoftWatch.WalksAgain (w : SoftWatch) (op : TimerOp) : Prop := ∃ t ∈ w.system.walksTo op, t ∈ w.armed

instance (w : SoftWatch) (op : TimerOp) : Decidable (w.WalksAgain op) :=
  inferInstanceAs (Decidable (∃ t ∈ w.system.walksTo op, t ∈ w.armed))

def SoftWatch.follow (cfg : TimerConfig) (w : SoftWatch) (op : TimerOp) (system : TimerSystem)
    (events : List TimerEvent) : SoftWatch :=
  let noted := events.foldl (SoftWatch.note system.timers) { w with system }
  match op with
  | .softCheck =>
    { noted with
      rounds := 0
      entered := (system.timers.lastRow cfg .soft).length
      pending := system.timers.lastRow cfg .soft
      armed := []
      again := 0 }
  | .softNext => { noted with rounds := w.rounds + 1, again := if w.WalksAgain op then w.again + 1 else w.again }
  | _ => noted

def stepWatch (cfg : TimerConfig) (w : SoftWatch) (op : TimerOp) : Option (SoftWatch × List TimerEvent) :=
  (stepTimer cfg w.system op).map fun r => (w.follow cfg op r.1 r.2, r.2)

def SoftWatch.boot (setup : TimerSetup) : SoftWatch := ⟨.boot setup, fun _ => none, 0, 0, [], [], 0⟩

/-- `rt_timer_stop` is not called for a timer that is linked without `RT_TIMER_FLAG_ACTIVATED`. -/
def StopsActivated (cfg : TimerConfig) (s : TimerSystem) : TimerOp → Prop
  | .stop t => s.timers.Linked cfg t → (s.timers.timer t).activated
  | _ => True

instance (cfg : TimerConfig) (s : TimerSystem) (op : TimerOp) : Decidable (StopsActivated cfg s op) := by
  unfold StopsActivated
  split <;> infer_instance

/-- The walk goes on to linked timers only, or to timers that are not due, and at most `n` times in a check to a due timer that has been started since the check was entered. -/
def WalkOk (cfg : TimerConfig) (n : Nat) (w : SoftWatch) (op : TimerOp) : Prop :=
  WalksLinked cfg w.system op ∧ StopsActivated cfg w.system op ∧ (w.WalksAgain op → w.again < n)

instance (cfg : TimerConfig) (n : Nat) (w : SoftWatch) (op : TimerOp) : Decidable (WalkOk cfg n w op) :=
  inferInstanceAs (Decidable (_ ∧ _ ∧ _))

/-! ## What an event keeps -/

variable {cfg : TimerConfig} {setup : TimerSetup} {timers timers' : Timers} {w w' : SoftWatch} {s s' : TimerSystem}
  {op : TimerOp} {t x : TimerId} {trace events : List TimerEvent} {n : Nat}

structure Noted (cfg : TimerConfig) (timers : Timers) (w : SoftWatch) : Prop where
  links : LinksInv cfg timers
  deadline : ∀ t, timers.Linked cfg t → w.deadline t = some (timers.timer t).timeoutTick

/-- The soft timers that are linked have been linked when the check was entered, or have been started since. -/
def Known (cfg : TimerConfig) (timers : Timers) (w : SoftWatch) : Prop :=
  ∀ t ∈ timers.lastRow cfg .soft, t ∈ w.pending ∨ t ∈ w.armed

theorem walks_linked {list : TimerList} (hlinked : t ∈ timers.lastRow cfg list) : timers.Linked cfg t := ⟨list, hlinked⟩

structure NotesFollow (cfg : TimerConfig) (w w₁ : SoftWatch) (timers timers' : Timers) : Prop where
  noted : Noted cfg timers' w₁
  known : Known cfg timers w → Known cfg timers' w₁
  pending : w₁.pending.length ≤ w.pending.length
  list : ∀ t, (timers'.timer t).list = (timers.timer t).list

theorem follows_same (h : Noted cfg timers w) (hrow : timers'.row = timers.row)
    (hlist : ∀ t, (timers'.timer t).list = (timers.timer t).list)
    (hdeadline : ∀ t, (timers'.timer t).timeoutTick = (timers.timer t).timeoutTick) :
    NotesFollow cfg w w timers timers' := by
  refine ⟨⟨h.links.congr hrow hlist, fun t ht => ?_⟩, fun hknown t ht => ?_, le_rfl, hlist⟩
  · rw [hdeadline]
    exact h.deadline t ((linked_congr hrow).1 ht)
  · rw [Timers.lastRow, hrow] at ht
    exact hknown t ht

theorem follows_start (h : Noted cfg timers w) (hstart : rtTimerStart cfg timers t = some timers') :
    NotesFollow cfg w (w.note timers' (.start t)) timers timers' := by
  have htimer := rtTimerStart_timer hstart
  refine ⟨⟨h.links.start hstart, fun x hx => ?_⟩, fun hknown x hx => ?_, List.length_erase_le, fun x => ?_⟩
  · by_cases hxt : x = t
    · rw [hxt]
      exact update_self ..
    · have hold := ((h.links.linked_start hstart).1 hx).resolve_left hxt
      rw [htimer, update_of_ne hxt]
      exact (update_of_ne hxt ..).trans (h.deadline x hold)
  · by_cases hxt : x = t
    · rw [hxt]
      exact .inr List.mem_cons_self
    · rcases (h.links.mem_lastRow_start hstart).1 hx with ⟨heq, -⟩ | ⟨-, hold⟩
      · exact absurd heq hxt
      · exact (hknown x hold).imp (List.mem_erase_of_ne hxt).2 (List.mem_cons_of_mem t)
  · rw [htimer]
    by_cases hxt : x = t
    · rw [hxt, update_self]
      rfl
    · rw [update_of_ne hxt]

theorem follows_unlink (h : Noted cfg timers w)
    (hrow : ∀ list x, x ∈ timers'.lastRow cfg list → x ≠ t ∧ x ∈ timers.lastRow cfg list)
    (hlinks : LinksInv cfg timers') (hlist : ∀ x, (timers'.timer x).list = (timers.timer x).list)
    (hdeadline : ∀ x, (timers'.timer x).timeoutTick = (timers.timer x).timeoutTick) :
    NotesFollow cfg w (w.note timers' (.fire t)) timers timers' := by
  refine ⟨⟨hlinks, fun x hx => ?_⟩, fun hknown x hx => ?_, List.length_erase_le, hlist⟩
  · obtain ⟨list, hmem⟩ := hx
    obtain ⟨hxt, hold⟩ := hrow list x hmem
    rw [hdeadline]
    exact (update_of_ne hxt ..).trans (h.deadline x ⟨list, hold⟩)
  · obtain ⟨hxt, hold⟩ := hrow .soft x hx
    exact (hknown x hold).imp (List.mem_erase_of_ne hxt).2 id

theorem follows_remove (h : Noted cfg timers w) (t : TimerId) :
    NotesFollow cfg w (w.note (timerRemove timers t) (.fire t)) timers (timerRemove timers t) :=
  follows_unlink h (fun _ _ hx => h.links.mem_lastRow_timerRemove.1 hx) (h.links.remove t) (fun _ => rfl) fun _ => rfl

theorem follows_stop (h : Noted cfg timers w) (hok : timers.Linked cfg t → (timers.timer t).activated) :
    NotesFollow cfg w (w.note (rtTimerStop timers t).2 (.fire t)) timers (rtTimerStop timers t).2 := by
  cases hactivated : (timers.timer t).activated with
  | true =>
    rw [rtTimerStop_activated hactivated]
    have hlist (x : TimerId) : ((startStop timers t).timer x).list = (timers.timer x).list :=
      setTimer_list (s := timerRemove timers t) rfl x
    refine follows_unlink h (fun _ _ hx => h.links.mem_lastRow_timerRemove.1 hx) ?_ hlist fun x => ?_
    · exact (h.links.remove t).congr rfl hlist
    · by_cases hxt : x = t
      · rw [hxt, startStop, setTimer_self]
        rfl
      · rw [startStop, setTimer_other _ hxt]
        rfl
  | false =>
    rw [rtTimerStop_deactivated hactivated]
    refine follows_unlink h (fun list x hx => ⟨?_, hx⟩) h.links (fun _ => rfl) fun _ => rfl
    rintro rfl
    rw [hok (walks_linked hx)] at hactivated
    cases hactivated

theorem follows_step (h : Noted cfg s.timers w) (hlinked : WalksLinked cfg s op) (hstops : StopsActivated cfg s op)
    (hs : stepTimer cfg s op = some (s', events)) :
    NotesFollow cfg { w with system := s' } (events.foldl (SoftWatch.note s'.timers) { w with system := s' })
      s.timers s'.timers := by
  have h' : Noted cfg s.timers { w with system := s' } := ⟨h.links, h.deadline⟩
  cases stepTimer_effect hs with
  | quiet htimer hrow _ => exact follows_same h' hrow (fun t => by rw [htimer]) fun t => by rw [htimer]
  | start _ hstart _ => exact follows_start h' hstart
  | stop hop hstop _ =>
    subst hop
    rw [hstop]
    exact follows_stop h' hstops
  | control hcontrol _ =>
    rw [hcontrol]
    exact follows_same h' (rtTimerControl_row ..) (fun t => (rtTimerControl_timer s.timers _ t _).2.1) fun t =>
      (rtTimerControl_timer s.timers _ t _).2.2
  | fire _ hfire _ =>
    rw [hfire]
    exact follows_remove h' _
  | @exit t _ _ hexit _ =>
    rcases returnTimer_cases hexit with ⟨-, rfl, hstart⟩ | ⟨-, rfl, hcleared⟩
    · exact follows_start h' hstart
    · rw [hcleared]
      refine follows_same h' rfl (setTimer_list rfl) fun x => ?_
      by_cases hxt : x = t
      · rw [hxt, setTimer_self]
      · rw [setTimer_other _ hxt]

@[simp] theorem note_rounds (timers : Timers) (w : SoftWatch) (e : TimerEvent) : (w.note timers e).rounds = w.rounds := by
  cases e <;> rfl

@[simp] theorem note_entered (timers : Timers) (w : SoftWatch) (e : TimerEvent) :
    (w.note timers e).entered = w.entered := by
  cases e <;> rfl

@[simp] theorem note_again (timers : Timers) (w : SoftWatch) (e : TimerEvent) : (w.note timers e).again = w.again := by
  cases e <;> rfl

@[simp] theorem note_system (timers : Timers) (w : SoftWatch) (e : TimerEvent) : (w.note timers e).system = w.system := by
  cases e <;> rfl

theorem foldl_note (timers : Timers) (w : SoftWatch) (events : List TimerEvent) :
    (events.foldl (SoftWatch.note timers) w).rounds = w.rounds ∧
      (events.foldl (SoftWatch.note timers) w).entered = w.entered ∧
      (events.foldl (SoftWatch.note timers) w).again = w.again ∧
      (events.foldl (SoftWatch.note timers) w).system = w.system := by
  induction events generalizing w with
  | nil => exact ⟨rfl, rfl, rfl, rfl⟩
  | cons e events ih =>
    have hrest := ih (w.note timers e)
    simpa only [List.foldl_cons, note_rounds, note_entered, note_again, note_system] using hrest

/-! ## The rounds of the loop -/

def SoftCheck.cursor : SoftCheck → Option TimerId
  | .idle => none
  | .loop _ n => n
  | .callback _ n => n

structure SoftInv (cfg : TimerConfig) (n : Nat) (w : SoftWatch) : Prop where
  noted : Noted cfg w.system.timers w
  again : w.again ≤ n
  rounds : w.rounds ≤ w.entered + w.again + 1
  known : w.system.soft ≠ .idle → Known cfg w.system.timers w
  /-- A round uses up a timer that has been linked from the start, or the walk has come to one that has been started since. -/
  pending : w.system.soft ≠ .idle → w.rounds + w.pending.length ≤ w.entered + w.again
  cursor : ∀ t, w.system.soft.cursor = some t → (w.system.timers.timer t).list = .soft

theorem SoftInv.boot (setup : TimerSetup) : SoftInv cfg n (.boot setup) where
  noted := ⟨.boot setup, fun _ ⟨_, ht⟩ => by cases ht⟩
  again := Nat.zero_le n
  rounds := Nat.zero_le _
  known h := absurd rfl h
  pending h := absurd rfl h
  cursor _ ht := by cases ht

theorem stepTimer_soft (hs : stepTimer cfg s op = some (s', events)) (hcheck : op ≠ .softCheck) (hnext : op ≠ .softNext)
    (hreturn : op ≠ .softReturn) : s'.soft = s.soft := by
  cases op with
  | softCheck => exact absurd rfl hcheck
  | softNext => exact absurd rfl hnext
  | softReturn => exact absurd rfl hreturn
  | tick => cases hs; rfl
  | stop t => cases hs; rfl
  | control t cmd => cases hs; rfl
  | start t =>
    obtain ⟨_, -, heq⟩ := Option.map_eq_some_iff.1 hs
    cases heq
    rfl
  | check =>
    simp only [stepTimer] at hs
    split_ifs at hs
    cases hs
    rfl
  | checkNext =>
    simp only [stepTimer] at hs
    split at hs
    · cases hs
      rfl
    · split_ifs at hs <;> cases hs <;> rfl
    · cases hs
  | checkReturn =>
    simp only [stepTimer] at hs
    split at hs
    · obtain ⟨_, -, heq⟩ := Option.map_eq_some_iff.1 hs
      cases heq
      rfl
    · cases hs

theorem nodeNext_soft (h : LinksInv cfg timers) (ht : (timers.timer t).list = .soft)
    (hnext : nodeNext (timers.lastRow cfg .soft) t = some x) : (timers.timer x).list = .soft := by
  unfold nodeNext at hnext
  split_ifs at hnext with hmem
  · exact h.list .soft x (SkipList.after_subset _ _ (List.mem_of_head? hnext))
  · exact Option.some.inj hnext ▸ ht

theorem SoftInv.walk_mem (h : SoftInv cfg n w) (hlinked : WalksLinked cfg w.system .softNext)
    (ht : w.system.walksTo .softNext = some t) (hcursor : w.system.soft.cursor = some t) :
    t ∈ w.system.timers.lastRow cfg .soft := by
  have hlist := h.cursor t hcursor
  have hmem := h.noted.links.linked_iff.1 (hlinked t ht)
  rwa [hlist] at hmem

theorem SoftInv.round (h : SoftInv cfg n w) (hok : WalkOk cfg n w .softNext)
    (ht : w.system.walksTo .softNext = some t) (hcursor : w.system.soft.cursor = some t) :
    (if w.WalksAgain .softNext then w.again + 1 else w.again) ≤ n ∧
      w.rounds + 1 + (w.pending.erase t).length ≤ w.entered + if w.WalksAgain .softNext then w.again + 1 else w.again := by
  have hbusy : w.system.soft ≠ .idle := by
    intro hidle
    rw [hidle] at hcursor
    cases hcursor
  have hpending := h.pending hbusy
  have hmem := h.walk_mem hok.1 ht hcursor
  split_ifs with hagain
  · have hlt := hok.2.2 hagain
    have hle : (w.pending.erase t).length ≤ w.pending.length := List.length_erase_le
    omega
  · have hold : t ∈ w.pending := (h.known hbusy t hmem).resolve_right fun harmed => hagain ⟨t, ht, harmed⟩
    have hlength := List.length_erase_of_mem hold
    have hpos := List.length_pos_of_mem hold
    have hle := h.again
    omega

theorem SoftInv.other (h : SoftInv cfg n w) (hok : WalkOk cfg n w op)
    (hstep : stepTimer cfg w.system op = some (s', events)) (hcheck : op ≠ .softCheck) (hnext : op ≠ .softNext)
    (hcursor : ∀ t, s'.soft.cursor = some t → w.system.soft.cursor = some t)
    (hbusy : s'.soft ≠ .idle → w.system.soft ≠ .idle) : SoftInv cfg n (w.follow cfg op s' events) := by
  have hfollows := follows_step h.noted hok.1 hok.2.1 hstep
  obtain ⟨hrounds, hentered, hagain, hsystem⟩ := foldl_note s'.timers { w with system := s' } events
  have hfollow : w.follow cfg op s' events = events.foldl (SoftWatch.note s'.timers) { w with system := s' } := by
    cases op with
    | softCheck => exact absurd rfl hcheck
    | softNext => exact absurd rfl hnext
    | _ => rfl
  rw [hfollow]
  refine ⟨?_, ?_, ?_, fun hidle => ?_, fun hidle => ?_, fun t ht => ?_⟩
  · rw [hsystem]
    exact hfollows.noted
  · rw [hagain]
    exact h.again
  · rw [hrounds, hentered, hagain]
    exact h.rounds
  · rw [hsystem] at hidle ⊢
    exact hfollows.known (h.known (hbusy hidle))
  · rw [hsystem] at hidle
    rw [hrounds, hentered, hagain]
    exact (Nat.add_le_add_left hfollows.pending _).trans (h.pending (hbusy hidle))
  · rw [hsystem] at ht ⊢
    rw [hfollows.list]
    exact h.cursor t (hcursor t ht)

theorem SoftInv.last (h : SoftInv cfg n w) (hbusy : w.system.soft ≠ .idle) (hno : w.system.walksTo .softNext = none) :
    SoftInv cfg n (w.follow cfg .softNext { w.system with soft := .idle } []) := by
  have hagain : ¬ w.WalksAgain .softNext := by
    rintro ⟨t, ht, -⟩
    rw [hno] at ht
    cases ht
  have hpending := h.pending hbusy
  have hfollow : w.follow cfg .softNext { w.system with soft := .idle } [] =
      { w with system := { w.system with soft := .idle }, rounds := w.rounds + 1 } := by
    simp only [SoftWatch.follow, if_neg hagain, List.foldl_nil]
  rw [hfollow]
  refine ⟨⟨h.noted.links, h.noted.deadline⟩, h.again, ?_, fun hidle => absurd rfl hidle, fun hidle => absurd rfl hidle,
    fun t ht => by cases ht⟩
  dsimp only
  omega

theorem SoftInv.fire {currentTick : BitVec 32} (h : SoftInv cfg n w) (hok : WalkOk cfg n w .softNext)
    (hstep : stepTimer cfg w.system .softNext =
      some ({ w.system with
        timers := timerRemove w.system.timers t
        soft := .callback t (nodeNext (w.system.timers.lastRow cfg .soft) t) }, [.fire t]))
    (hsoft : w.system.soft = .loop currentTick (some t)) (hdue : w.system.timers.Due currentTick t) :
    SoftInv cfg n (w.follow cfg .softNext { w.system with
      timers := timerRemove w.system.timers t
      soft := .callback t (nodeNext (w.system.timers.lastRow cfg .soft) t) } [.fire t]) := by
  have hcursor : w.system.soft.cursor = some t := by
    rw [hsoft]
    rfl
  have hbusy : w.system.soft ≠ .idle := by
    rw [hsoft]
    exact SoftCheck.noConfusion
  have hfollows := follows_step h.noted hok.1 hok.2.1 hstep
  obtain ⟨hle, hround⟩ := h.round hok (by simp [TimerSystem.walksTo, hsoft, hdue]) hcursor
  refine ⟨⟨hfollows.noted.links, hfollows.noted.deadline⟩, hle, ?_, fun _ => ?_, fun _ => hround, fun x hx => ?_⟩
  · change w.rounds + 1 ≤ w.entered + (if w.WalksAgain .softNext then w.again + 1 else w.again) + 1
    omega
  · exact hfollows.known (h.known hbusy)
  · have hx' : nodeNext (w.system.timers.lastRow cfg .soft) t = some x := hx
    change (w.system.timers.timer x).list = .soft
    exact nodeNext_soft h.noted.links (h.cursor t hcursor) hx'

theorem SoftInv.step (h : SoftInv cfg n w) (hok : WalkOk cfg n w op) (hs : stepWatch cfg w op = some (w', events)) :
    SoftInv cfg n w' := by
  obtain ⟨⟨s', events'⟩, hstep, heq⟩ := Option.map_eq_some_iff.1 hs
  cases heq
  by_cases hcheck : op = .softCheck
  · subst hcheck
    simp only [stepTimer] at hstep
    split_ifs at hstep with hidle
    cases hstep
    refine ⟨⟨h.noted.links, h.noted.deadline⟩, Nat.zero_le n, Nat.zero_le _, fun _ t ht => .inl ht, fun _ => ?_,
      fun t ht => ?_⟩
    · simp [SoftWatch.follow]
    · exact h.noted.links.list .soft t (List.mem_of_head? ht)
  · by_cases hnext : op = .softNext
    · subst hnext
      have hkeep := hstep
      simp only [stepTimer] at hkeep
      split at hkeep
      · rename_i hsoft
        cases hkeep
        exact h.last (by rw [hsoft]; exact SoftCheck.noConfusion) (by simp [TimerSystem.walksTo, hsoft])
      · rename_i currentTick t hhard hsoft
        have hbusy : w.system.soft ≠ .idle := by
          rw [hsoft]
          exact SoftCheck.noConfusion
        split_ifs at hkeep with hdue
        · cases hkeep
          exact h.fire hok hstep hsoft hdue
        · cases hkeep
          exact h.last hbusy (by simp [TimerSystem.walksTo, hsoft, hdue])
      · cases hkeep
    · by_cases hreturn : op = .softReturn
      · subst hreturn
        have hkeep := hstep
        simp only [stepTimer] at hkeep
        split at hkeep
        · rename_i t m _ hsoft
          obtain ⟨r, -, heq⟩ := Option.map_eq_some_iff.1 hkeep
          cases heq
          refine h.other hok hstep hcheck hnext (fun x hx => ?_) fun _ hidle => ?_
          · rw [hsoft]
            exact hx
          · rw [hsoft] at hidle
            cases hidle
        · cases hkeep
      · have hsoft := stepTimer_soft hstep hcheck hnext hreturn
        exact h.other hok hstep hcheck hnext (fun t ht => hsoft ▸ ht) fun hidle => hsoft ▸ hidle

/-! ## The check over whole runs -/

abbrev SoftRun (cfg : TimerConfig) (setup : TimerSetup) (ok : SoftWatch → TimerOp → Prop) :
    List TimerEvent → SoftWatch → Prop :=
  Transition.Run (stepWatch cfg) ok (.boot setup)

theorem exists_softRun (cfg : TimerConfig) (setup : TimerSetup) (ok : SoftWatch → TimerOp → Prop)
    [∀ w op, Decidable (ok w op)] (ops : List TimerOp) (found : List TimerEvent → SoftWatch → Bool)
    (h : ((Transition.exec (stepWatch cfg) ok (.boot setup) ops).any fun r => found r.1 r.2) = true) :
    ∃ trace w, SoftRun cfg setup ok trace w ∧ found trace w = true :=
  Transition.exists_run_of_exec ops found h

theorem softInv_of_run (hrun : SoftRun cfg setup (WalkOk cfg n) trace w) : SoftInv cfg n w :=
  hrun.state_invariant (.boot setup) fun _ _ _ _ h hok hs => h.step hok hs

theorem stepTimer_fires (hs : stepTimer cfg s .softNext = some (s', events)) (ht : .fire t ∈ events) :
    ∃ currentTick, s.soft = .loop currentTick (some t) ∧ s.timers.Due currentTick t := by
  simp only [stepTimer] at hs
  split at hs
  · cases hs
    cases ht
  · rename_i currentTick x _ hsoft
    split_ifs at hs with hdue
    · cases hs
      obtain rfl : t = x := by simpa using ht
      exact ⟨currentTick, hsoft, hdue⟩
    · cases hs
      cases ht
  · cases hs

/-- What `rt_soft_timer_check` keeps, and what it does next. -/
structure SoftTimers (cfg : TimerConfig) (n : Nat) (w : SoftWatch) : Prop where
  wellFormed : LinksInv cfg w.system.timers
  /-- A timeout function is called only if its timer has not been stopped since it was started last, and the deadline it was given then is reached. -/
  fires : ∀ w' events t, WalkOk cfg n w .softNext → stepWatch cfg w .softNext = some (w', events) → .fire t ∈ events →
    ∃ deadline currentTick, w.deadline t = some deadline ∧ w.system.soft = .loop currentTick (some t) ∧
      currentTick - deadline < halfTick
  /-- The loop can go round whenever no timeout function runs. -/
  proceeds : w.system.hard = .idle → ∀ currentTick m, w.system.soft = .loop currentTick m →
    (stepWatch cfg w .softNext).isSome
  /-- It has gone round at most once for each timer that was linked at the start, `n` times more, and once to end. -/
  rounds : w.rounds ≤ w.entered + n + 1

/-- In every run in which the walk goes on to linked timers only or to timers that are not due, no timer is stopped that is linked without its flag, and each check comes at most `n` times to a due timer that has been started since the check was entered. -/
theorem softTimers_of_run (hrun : SoftRun cfg setup (WalkOk cfg n) trace w) : SoftTimers cfg n w := by
  have hinv := softInv_of_run hrun
  refine ⟨hinv.noted.links, fun w' events t hok hs ht => ?_, fun hhard currentTick m hsoft => ?_, ?_⟩
  · obtain ⟨⟨s', events'⟩, hstep, heq⟩ := Option.map_eq_some_iff.1 hs
    cases heq
    obtain ⟨currentTick, hsoft, hdue⟩ := stepTimer_fires hstep ht
    have hlinked : w.system.timers.Linked cfg t := hok.1 t (by simp [TimerSystem.walksTo, hsoft, hdue])
    exact ⟨_, currentTick, hinv.noted.deadline t hlinked, hsoft, hdue⟩
  · rw [stepWatch, Option.isSome_map, stepTimer, hhard, hsoft]
    cases m with
    | none => rfl
    | some t =>
      dsimp only
      split_ifs <;> rfl
  · have hrounds := hinv.rounds
    have hagain := hinv.again
    omega

/-- The timeout function of the first of two timers starts its own timer again, and the check ends after the second. -/
theorem softTimers_of_run_started :
    ∃ trace w, SoftRun twoRows (oneTick false .soft 0) (WalkOk twoRows 0) trace w ∧
      trace = [.start 0, .start 1, .fire 0, .start 0, .fire 1] ∧ w.system.soft = .idle ∧ w.rounds = 3 ∧
      SoftTimers twoRows 0 w := by
  obtain ⟨trace, w, hrun, hfound⟩ := exists_softRun twoRows (oneTick false .soft 0) (WalkOk twoRows 0)
    [.start 0, .start 1, .tick, .softCheck, .softNext, .start 0, .softReturn, .softNext, .softReturn, .softNext]
    (fun trace w => decide (trace = [.start 0, .start 1, .fire 0, .start 0, .fire 1] ∧ w.system.soft = .idle ∧
      w.rounds = 3)) (by decide +kernel)
  obtain ⟨htrace, hidle, hrounds⟩ := of_decide_eq_true hfound
  exact ⟨trace, w, hrun, htrace, hidle, hrounds, softTimers_of_run hrun⟩

/-! ## A timer that is stopped while the check has saved its node -/

/-- The check stands before a timer that is in no list and due, so that its node leads back to itself. -/
structure Trapped (cfg : TimerConfig) (t : TimerId) (w : SoftWatch) : Prop where
  hard : w.system.hard = .idle
  soft : w.system.soft = .loop w.system.timers.tick (some t)
  due : w.system.timers.Due w.system.timers.tick t
  oneShot : (w.system.timers.timer t).periodic = false
  unlinked : t ∉ w.system.timers.lastRow cfg .soft

theorem Trapped.again {ok : SoftWatch → TimerOp → Prop} {w₀ : SoftWatch} (h : Trapped cfg t w)
    (hok : ∀ w op, ok w op) (hrun : Transition.Run (stepWatch cfg) ok w₀ trace w) :
    ∃ w', Transition.Run (stepWatch cfg) ok w₀ (trace ++ [.fire t]) w' ∧ Trapped cfg t w' ∧
      w'.rounds = w.rounds + 1 ∧ w'.entered = w.entered := by
  have hnode : nodeNext (w.system.timers.lastRow cfg .soft) t = some t := if_neg h.unlinked
  let called : TimerSystem := ⟨timerRemove w.system.timers t, .idle, .callback t (some t)⟩
  let cleared : Timers := called.timers.setTimer t fun timer => { timer with activated := false }
  let returned : TimerSystem := ⟨cleared, .idle, .loop cleared.tick (some t)⟩
  have hnext : stepWatch cfg w .softNext = some (w.follow cfg .softNext called [.fire t], [.fire t]) := by
    rw [stepWatch, stepTimer, h.hard, h.soft]
    dsimp only
    rw [if_pos h.due, hnode]
    rfl
  have hexit : returnTimer cfg called.timers t = some (cleared, []) := by
    have honce : (called.timers.timer t).periodic = false := h.oneShot
    simp [returnTimer, timerExit, honce, cleared]
  have hreturn : stepWatch cfg (w.follow cfg .softNext called [.fire t]) .softReturn =
      some ((w.follow cfg .softNext called [.fire t]).follow cfg .softReturn returned [], []) := by
    have hstep : stepTimer cfg called .softReturn = some (returned, []) := by
      rw [stepTimer]
      exact congrArg (Option.map _) hexit
    exact congrArg (Option.map _) hstep
  have hrun' := (hrun.next (hok w .softNext) hnext).next (hok _ .softReturn) hreturn
  rw [List.append_nil] at hrun'
  refine ⟨_, hrun', ⟨rfl, rfl, ?_, ?_, fun hmem => h.unlinked (List.mem_of_mem_erase hmem)⟩, rfl, rfl⟩
  · change cleared.tick - (cleared.timer t).timeoutTick < halfTick
    rw [setTimer_self]
    exact h.due
  · change (cleared.timer t).periodic = false
    rw [setTimer_self]
    exact h.oneShot

/-- The check calls the function of a timer that another one has stopped again and again. A one-shot timer that its own function has started is stopped in vain. And two periodic timers of no time keep each other due. -/
theorem softTimers_fails :
    (∀ k, ∃ trace w, SoftRun twoRows (oneTick false .soft 0) (fun _ _ => True) trace w ∧
      trace = [.start 0, .start 1, .fire 0, .stop 1 .eok] ++ List.replicate k (.fire 1) ∧ w.entered = 2 ∧
      k ≤ w.rounds) ∧
    (∃ trace w, SoftRun twoRows (oneTick false .soft 0) (fun _ _ => True) trace w ∧
      trace = [.start 0, .fire 0, .start 0, .stop 0 .error, .fire 0]) ∧
    ∃ trace w, SoftRun twoRows ⟨fun _ => true, fun _ => .soft, fun _ => 0, 0⟩ (fun _ _ => True) trace w ∧
      trace = [.start 0, .start 1, .fire 0, .rearm 0, .fire 1, .rearm 1, .fire 0, .rearm 0, .fire 1, .rearm 1] ∧
      w.rounds = 4 ∧ w.entered = 2 ∧ w.system.timers.tick = 0 := by
  refine ⟨fun k => ?_, ?_, ?_⟩
  · suffices hloop : ∃ trace w, SoftRun twoRows (oneTick false .soft 0) (fun _ _ => True) trace w ∧
        trace = [.start 0, .start 1, .fire 0, .stop 1 .eok] ++ List.replicate k (.fire 1) ∧ Trapped twoRows 1 w ∧
        w.entered = 2 ∧ k ≤ w.rounds by
      obtain ⟨trace, w, hrun, htrace, -, hrest⟩ := hloop
      exact ⟨trace, w, hrun, htrace, hrest⟩
    induction k with
    | zero =>
      obtain ⟨trace, w, hrun, hfound⟩ := exists_softRun twoRows (oneTick false .soft 0) (fun _ _ => True)
        [.start 0, .start 1, .tick, .softCheck, .softNext, .stop 1, .softReturn]
        (fun trace w => decide (trace = [.start 0, .start 1, .fire 0, .stop 1 .eok] ∧ w.system.hard = .idle ∧
          w.system.soft = .loop w.system.timers.tick (some 1) ∧ w.system.timers.Due w.system.timers.tick 1 ∧
          (w.system.timers.timer 1).periodic = false ∧ 1 ∉ w.system.timers.lastRow twoRows .soft ∧ w.entered = 2))
        (by decide +kernel)
      obtain ⟨htrace, hhard, hsoft, hdue, honce, hunlinked, hentered⟩ := of_decide_eq_true hfound
      exact ⟨trace, w, hrun, by simpa using htrace, ⟨hhard, hsoft, hdue, honce, hunlinked⟩, hentered, Nat.zero_le _⟩
    | succ k ih =>
      obtain ⟨trace, w, hrun, htrace, htrapped, hentered, hrounds⟩ := ih
      obtain ⟨w', hrun', htrapped', hrounds', hentered'⟩ := htrapped.again (fun _ _ => trivial) hrun
      refine ⟨_, w', hrun', ?_, htrapped', hentered'.trans hentered, by omega⟩
      rw [htrace, List.replicate_succ', List.append_assoc]
  · obtain ⟨trace, w, hrun, hfound⟩ := exists_softRun twoRows (oneTick false .soft 0) (fun _ _ => True)
      [.start 0, .tick, .softCheck, .softNext, .start 0, .softReturn, .softNext, .stop 0, .tick, .softCheck, .softNext]
      (fun trace _ => decide (trace = [.start 0, .fire 0, .start 0, .stop 0 .error, .fire 0])) (by decide +kernel)
    exact ⟨trace, w, hrun, of_decide_eq_true hfound⟩
  · obtain ⟨trace, w, hrun, hfound⟩ := exists_softRun twoRows ⟨fun _ => true, fun _ => .soft, fun _ => 0, 0⟩ (fun _ _ => True)
      [.start 0, .start 1, .softCheck, .softNext, .softReturn, .softNext, .softReturn, .softNext, .softReturn,
        .softNext, .softReturn]
      (fun trace w => decide (trace = [.start 0, .start 1, .fire 0, .rearm 0, .fire 1, .rearm 1, .fire 0, .rearm 0,
        .fire 1, .rearm 1] ∧ w.rounds = 4 ∧ w.entered = 2 ∧ w.system.timers.tick = 0)) (by decide +kernel)
    exact ⟨trace, w, hrun, of_decide_eq_true hfound⟩

end RtThread
