import RtThread.Timer.Activation

/-!
# The order of the timer lists

Deadlines are compared by subtraction, which orders them as long as those that are pending lie in a window of half the range of the tick: there the modular order is the order of the distances from the start of the window, wherever the tick wraps. Under this condition a new timer is inserted behind the timers whose deadlines are not after its own, in the last row and in the rows above that it enters.

Timers with equal deadlines stand in the order in which they were inserted last, which the events of the run tell.
-/

namespace RtThread

open Function SkipList

variable {cfg : TimerConfig} {setup : TimerSetup} {timers timers' : Timers} {s s' : TimerSystem} {op : TimerOp}
  {t x y : TimerId} {list : TimerList} {trace events : List TimerEvent} {inserted : List TimerId}

/-! ## Ticks in a window -/

theorem sub_lt_halfTick_iff {base a b : BitVec 32} (ha : a - base < halfTick) (hb : b - base < halfTick) :
    b - a < halfTick ↔ a - base ≤ b - base := by
  have hhalf : halfTick = 0x7FFFFFFF#32 := by decide
  rw [hhalf] at ha hb ⊢
  bv_omega

theorem sub_not_lt_halfTick_iff {base a b : BitVec 32} (ha : a - base < halfTick) (hb : b - base < halfTick) :
    (a - b = 0 ∨ ¬ a - b < halfTick) ↔ a - base ≤ b - base := by
  have hhalf : halfTick = 0x7FFFFFFF#32 := by decide
  rw [hhalf] at ha hb ⊢
  bv_omega

/-- The deadlines pending in a list lie in the half of the range of the tick that starts at `base`. -/
def Window (cfg : TimerConfig) (s : Timers) (list : TimerList) (base : BitVec 32) : Prop :=
  ∀ t ∈ s.lastRow cfg list, (s.timer t).timeoutTick - base < halfTick

instance (cfg : TimerConfig) (s : Timers) (list : TimerList) (base : BitVec 32) : Decidable (Window cfg s list base) :=
  inferInstanceAs (Decidable (∀ _ ∈ _, _))

def Windowed (cfg : TimerConfig) (s : Timers) : Prop := ∀ list, ∃ base, Window cfg s list base

theorem Windowed.of_window {base : BitVec 32} (hhard : Window cfg timers .hard base)
    (hsoft : Window cfg timers .soft base) : Windowed cfg timers := by
  intro list
  cases list with
  | hard => exact ⟨base, hhard⟩
  | soft => exact ⟨base, hsoft⟩

/-- The deadline of `y` is that of `x` or ahead of it. -/
def Timers.NotAfter (s : Timers) (x y : TimerId) : Prop :=
  (s.timer y).timeoutTick - (s.timer x).timeoutTick < halfTick

/-! ## The order of insertion -/

def insertions (trace : List TimerEvent) : List TimerId :=
  trace.filterMap fun
    | .start t => some t
    | .rearm t => some t
    | .stop .. => none
    | .fire _ => none

/-- The last insertion of `x` was before the last insertion of `y`. -/
def InsertedBefore (inserted : List TimerId) (x y : TimerId) : Prop :=
  ∃ pre post, inserted = pre ++ y :: post ∧ x ∈ pre ∧ x ∉ post ∧ y ∉ post

theorem InsertedBefore.append (h : InsertedBefore inserted x y) (hx : x ≠ t) (hy : y ≠ t) :
    InsertedBefore (inserted ++ [t]) x y := by
  obtain ⟨pre, post, rfl, hmem, hxpost, hypost⟩ := h
  refine ⟨pre, post ++ [t], by simp, hmem, ?_, ?_⟩
  · simpa [hxpost] using hx
  · simpa [hypost] using hy

theorem InsertedBefore.last (hx : x ∈ inserted) : InsertedBefore (inserted ++ [t]) x t :=
  ⟨inserted, [], rfl, hx, List.not_mem_nil, List.not_mem_nil⟩

/-! ## Ordered lists -/

/-- Every row of the list is a sublist of the row below it, and the last row is in order. -/
structure Ordered (cfg : TimerConfig) (inserted : List TimerId) (s : Timers) (list : TimerList) : Prop where
  sublist : ∀ i < cfg.last, (s.row list i).Sublist (s.row list (i + 1))
  sorted : (s.lastRow cfg list).Pairwise fun x y =>
    s.NotAfter x y ∧ ((s.timer x).timeoutTick = (s.timer y).timeoutTick → InsertedBefore inserted x y)

theorem sublist_last {rows : Nat → List TimerId} (h : ∀ i < cfg.last, (rows i).Sublist (rows (i + 1))) {i : Nat}
    (hi : i ≤ cfg.last) : (rows i).Sublist (rows cfg.last) := by
  induction hi using Nat.decreasingInduction with
  | self => exact List.Sublist.refl _
  | of_succ i hi ih => exact (h i hi).trans ih

theorem Ordered.congr (h : Ordered cfg inserted timers list) (hrow : timers'.row = timers.row)
    (htimeout : ∀ x, timers.Linked cfg x → (timers'.timer x).timeoutTick = (timers.timer x).timeoutTick) :
    Ordered cfg inserted timers' list := by
  refine ⟨hrow ▸ h.sublist, ?_⟩
  rw [Timers.lastRow, hrow]
  refine h.sorted.imp_of_mem fun {x y} hx hy hxy => ?_
  rw [Timers.NotAfter, htimeout x ⟨list, hx⟩, htimeout y ⟨list, hy⟩]
  exact hxy

theorem Ordered.remove (h : Ordered cfg inserted timers list) (t : TimerId) :
    Ordered cfg inserted (timerRemove timers t) list where
  sublist i hi := (h.sublist i hi).erase t
  sorted := h.sorted.sublist List.erase_sublist

theorem searchesPast_iff (hstart : rtTimerStart cfg timers t = some timers') (hx : x ≠ t) :
    searchesPast (startTimeout (startStop timers t) t) t x = true ↔
      (timers'.timer x).timeoutTick - (timers'.timer t).timeoutTick = 0 ∨
        ¬ (timers'.timer x).timeoutTick - (timers'.timer t).timeoutTick < halfTick := by
  have hother : (startTimeout (startStop timers t) t).timer x = timers.timer x := by
    rw [startTimeout, setTimer_other _ hx, startStop, setTimer_other _ hx, timerRemove_timer]
  have hself : ((startTimeout (startStop timers t) t).timer t).timeoutTick = timers.tick + (timers.timer t).initTick := by
    simp [startTimeout, startStop]
  rw [rtTimerStart_timer hstart, update_of_ne hx, update_self, searchesPast, decide_eq_true_iff, hother,
    hself]
  rfl

theorem insertRows_place {rows : Nat → List TimerId} {le : TimerId → Bool} (hrows : RowsInv cfg rows)
    (hsub : ∀ i < cfg.last, (rows i).Sublist (rows (i + 1))) (hdiv : Divided le (rows cfg.last)) (t : TimerId)
    (randomNr : BitVec 32) : ∃ lo ≤ cfg.last, ∀ i, insertRows cfg (rowHead le rows) t randomNr rows i =
      if lo ≤ i ∧ i ≤ cfg.last then place le t (rows i) else rows i := by
  obtain ⟨lo, hlo, heq⟩ := insertRows_eq cfg (rowHead le rows) t randomNr rows
  refine ⟨lo, hlo, fun i => ?_⟩
  rw [heq]
  split_ifs with hin
  · have hdivided : ∀ j ≤ i, Divided le (rows j) := fun j hj => hdiv.sublist (sublist_last hsub (by omega))
    rw [rowHead_eq (fun j _ => hrows.nodup j) hdivided fun j hj => hsub j (by omega)]
    exact insertAfter_eq (hrows.nodup i) (hdivided i (Nat.le_refl i)) t
  · rfl

theorem insertRows_sublist {rows : Nat → List TimerId} {le : TimerId → Bool} (hrows : RowsInv cfg rows)
    (hsub : ∀ i < cfg.last, (rows i).Sublist (rows (i + 1))) (hdiv : Divided le (rows cfg.last)) (t : TimerId)
    (randomNr : BitVec 32) {i : Nat} (hi : i < cfg.last) :
    (insertRows cfg (rowHead le rows) t randomNr rows i).Sublist
      (insertRows cfg (rowHead le rows) t randomNr rows (i + 1)) := by
  obtain ⟨lo, -, heq⟩ := insertRows_place hrows hsub hdiv t randomNr
  rw [heq, heq]
  by_cases hnext : lo ≤ i + 1
  · rw [if_pos (⟨hnext, hi⟩ : lo ≤ i + 1 ∧ i + 1 ≤ cfg.last)]
    split_ifs
    · exact place_sublist (hsub i hi) t
    · exact sublist_place (hdiv.sublist (sublist_last hsub hi)) (hsub i hi) t
  · rw [if_neg (by omega), if_neg (by omega)]
    exact hsub i hi

theorem Ordered.start (h : Ordered cfg inserted timers list) (hinv : LinksInv cfg timers)
    (hinserted : ∀ x, timers.Linked cfg x → x ∈ inserted) (hstart : rtTimerStart cfg timers t = some timers')
    (hwindow : ∃ base, Window cfg timers' list base) : Ordered cfg (inserted ++ [t]) timers' list := by
  have hremoved := hinv.remove t
  have hordered := h.remove t
  have htimer : ∀ x ≠ t, timers'.timer x = timers.timer x := fun x hx => by
    rw [rtTimerStart_timer hstart, update_of_ne hx]
  -- what the removal leaves is in order for the new state
  have hsorted : ((timerRemove timers t).lastRow cfg list).Pairwise fun x y => timers'.NotAfter x y ∧
      ((timers'.timer x).timeoutTick = (timers'.timer y).timeoutTick → InsertedBefore (inserted ++ [t]) x y) := by
    refine hordered.sorted.imp_of_mem fun {x y} hx hy hxy => ?_
    have hxt := (hinv.mem_lastRow_timerRemove.1 hx).1
    have hyt := (hinv.mem_lastRow_timerRemove.1 hy).1
    rw [Timers.NotAfter, htimer x hxt, htimer y hyt]
    exact ⟨hxy.1, fun heq => (hxy.2 heq).append hxt hyt⟩
  have hrow := rtTimerStart_row hstart
  by_cases hlist : list = (timers.timer t).list
  swap
  · refine ⟨?_, ?_⟩
    · rw [hrow, update_of_ne hlist]
      exact hordered.sublist
    · rw [Timers.lastRow, hrow, update_of_ne hlist]
      exact hsorted
  rw [← hlist] at hrow
  generalize hle : searchesPast (startTimeout (startStop timers t) t) t = le at hrow
  obtain ⟨base, hbase⟩ := hwindow
  have hmem : ∀ x, x ∈ timers'.lastRow cfg list ↔ x = t ∨ x ∈ (timerRemove timers t).lastRow cfg list := fun x => by
    rw [hinv.mem_lastRow_start hstart, hinv.mem_lastRow_timerRemove]
    simp [← hlist]
  have ht := hbase t ((hmem t).2 (.inl rfl))
  have hin : ∀ x ∈ (timerRemove timers t).lastRow cfg list, (timers'.timer x).timeoutTick - base < halfTick := fun x hx =>
    hbase x ((hmem x).2 (.inr hx))
  have hpast : ∀ x ∈ (timerRemove timers t).lastRow cfg list, (le x = true ↔
      (timers'.timer x).timeoutTick - base ≤ (timers'.timer t).timeoutTick - base) := by
    intro x hx
    rw [← hle, searchesPast_iff hstart (hinv.mem_lastRow_timerRemove.1 hx).1]
    exact sub_not_lt_halfTick_iff (hin x hx) ht
  have hdivided : Divided le ((timerRemove timers t).lastRow cfg list) := by
    refine hsorted.imp_of_mem fun {x y} hx hy hxy hley => ?_
    have hbefore := (sub_lt_halfTick_iff (hin x hx) (hin y hy)).1 hxy.1
    exact (hpast x hx).2 (BitVec.le_trans hbefore ((hpast y hy).1 hley))
  refine ⟨fun i hi => ?_, ?_⟩
  · rw [hrow, update_self]
    exact insertRows_sublist (hremoved.rows _) hordered.sublist hdivided t _ hi
  · obtain ⟨lo, hlo, heq⟩ := insertRows_place (hremoved.rows _) hordered.sublist hdivided t (timers.randomNr + 1)
    rw [Timers.lastRow, hrow, update_self, heq, if_pos ⟨hlo, Nat.le_refl _⟩]
    refine pairwise_place hdivided hsorted (fun x hx hlex => ⟨?_, fun _ => ?_⟩) fun x hx hlex => ⟨?_, fun heq => ?_⟩
    · exact (sub_lt_halfTick_iff (hin x hx) ht).2 ((hpast x hx).1 hlex)
    · exact .last (hinserted x ⟨_, (hinv.mem_lastRow_timerRemove.1 hx).2⟩)
    · refine (sub_lt_halfTick_iff ht (hin x hx)).2 ?_
      have hnot := (hpast x hx).not.1 (by simp [hlex])
      exact BitVec.le_of_lt (BitVec.not_le.1 hnot)
    · -- a timer with the same deadline is in front
      have hlex' := (hpast x hx).2 (by rw [heq]; exact BitVec.le_refl _)
      rw [hlex'] at hlex
      cases hlex

theorem Ordered.stop (h : Ordered cfg inserted timers list) (hinv : LinksInv cfg timers) (t : TimerId) :
    Ordered cfg inserted (rtTimerStop timers t).2 list := by
  cases hactivated : (timers.timer t).activated with
  | true =>
    rw [rtTimerStop_activated hactivated]
    refine (h.remove t).congr rfl fun x hx => ?_
    rw [startStop, setTimer_other _ (hinv.linked_timerRemove.1 hx).1]
  | false =>
    rw [rtTimerStop_deactivated hactivated]
    exact h

/-! ## Every run -/

/-- The condition on the steps of a run: the deadlines lie in a window, and no timeout function returns with its one-shot timer started again. -/
def OrderKept (cfg : TimerConfig) (s : TimerSystem) (op : TimerOp) : Prop :=
  Windowed cfg s.timers ∧ ReturnsStopped cfg s op

structure OrderInv (cfg : TimerConfig) (trace : List TimerEvent) (s : TimerSystem) : Prop where
  system : SystemInv cfg s
  inserted : ∀ x, s.timers.Linked cfg x → x ∈ insertions trace
  ordered : ∀ list, (∃ base, Window cfg s.timers list base) → Ordered cfg (insertions trace) s.timers list

theorem OrderInv.boot (setup : TimerSetup) : OrderInv cfg [] (.boot setup) where
  system := .boot setup
  inserted _ hx := by obtain ⟨_, hx⟩ := hx; cases hx
  ordered _ _ := ⟨fun _ _ => List.Sublist.refl _, List.Pairwise.nil⟩

structure RowsOrder (cfg : TimerConfig) (trace : List TimerEvent) (s : Timers) : Prop where
  links : LinksInv cfg s
  inserted : ∀ x, s.Linked cfg x → x ∈ insertions trace
  ordered : ∀ list, (∃ base, Window cfg s list base) → Ordered cfg (insertions trace) s list

theorem OrderInv.rows (h : OrderInv cfg trace s) : RowsOrder cfg trace s.timers :=
  ⟨h.system.timers.links, h.inserted, h.ordered⟩

theorem RowsOrder.start (h : RowsOrder cfg trace timers)
    (hordered : ∀ list, Ordered cfg (insertions trace) timers list) (hevents : insertions events = [t])
    (hstart : rtTimerStart cfg timers t = some timers') : RowsOrder cfg (trace ++ events) timers' := by
  have happend : insertions (trace ++ events) = insertions trace ++ [t] := by
    rw [insertions, List.filterMap_append, ← insertions, ← insertions, hevents]
  refine ⟨h.links.start hstart, fun x hx => ?_, fun list hwindow => ?_⟩
  · rw [happend, List.mem_append, List.mem_singleton]
    exact ((h.links.linked_start hstart).1 hx).symm.imp (h.inserted x) id
  · rw [happend]
    exact (hordered list).start h.links h.inserted hstart hwindow

theorem RowsOrder.keep (h : RowsOrder cfg trace timers) (hlinks : LinksInv cfg timers')
    (hevents : insertions events = []) (hlinked : ∀ x, timers'.Linked cfg x → timers.Linked cfg x)
    (hordered : ∀ list, Ordered cfg (insertions trace) timers' list) : RowsOrder cfg (trace ++ events) timers' := by
  have happend : insertions (trace ++ events) = insertions trace := by
    rw [insertions, List.filterMap_append, ← insertions, ← insertions, hevents, List.append_nil]
  refine ⟨hlinks, fun x hx => ?_, fun list _ => ?_⟩
  · rw [happend]
    exact h.inserted x (hlinked x hx)
  · rw [happend]
    exact hordered list

theorem LinksInv.stop (h : LinksInv cfg timers) (t : TimerId) : LinksInv cfg (rtTimerStop timers t).2 ∧
    (∀ list x, x ∈ (rtTimerStop timers t).2.lastRow cfg list → x ∈ timers.lastRow cfg list) ∧
    ∀ x, ((rtTimerStop timers t).2.timer x).timeoutTick = (timers.timer x).timeoutTick := by
  cases hactivated : (timers.timer t).activated with
  | true =>
    rw [rtTimerStop_activated hactivated]
    have hlist : ∀ x, ((startStop timers t).timer x).list = (timers.timer x).list :=
      setTimer_list (s := timerRemove timers t) rfl
    refine ⟨(h.remove t).congr rfl hlist, fun list x hx => (h.mem_lastRow_timerRemove.1 hx).2, fun x => ?_⟩
    by_cases hxt : x = t
    · rw [hxt, startStop, setTimer_self]
      rfl
    · rw [startStop, setTimer_other _ hxt]
      rfl
  | false =>
    rw [rtTimerStop_deactivated hactivated]
    exact ⟨h, fun _ _ => id, fun _ => rfl⟩

theorem RowsOrder.step (h : RowsOrder cfg trace s.timers) (hwindowed : Windowed cfg s.timers)
    (hs : stepTimer cfg s op = some (s', events)) : RowsOrder cfg (trace ++ events) s'.timers := by
  have hordered := fun list => h.ordered list (hwindowed list)
  have hinv := h.links
  cases stepTimer_effect hs with
  | quiet htimer hrow _ =>
    exact h.keep (hinv.congr hrow fun x => by rw [htimer]) rfl (fun x => (linked_congr hrow).1) fun list =>
      (hordered list).congr hrow fun x _ => by rw [htimer]
  | start _ hstart _ => exact h.start hordered rfl hstart
  | @stop t _ hstop _ =>
    rw [hstop]
    obtain ⟨hlinks, hmem, -⟩ := hinv.stop t
    refine h.keep hlinks rfl (fun x hx => ?_) fun list => (hordered list).stop hinv t
    obtain ⟨list, hx⟩ := hx
    exact ⟨list, hmem list x hx⟩
  | @control t cmd hcontrol _ =>
    have htimer := fun x => (rtTimerControl_timer s.timers t x cmd).2
    have hrow := rtTimerControl_row s.timers t cmd
    rw [← hcontrol] at hrow htimer
    exact h.keep (hinv.congr hrow fun x => (htimer x).1) rfl (fun x => (linked_congr hrow).1) fun list =>
      (hordered list).congr hrow fun x _ => (htimer x).2
  | @fire t _ hfire _ =>
    rw [hfire]
    exact h.keep (hinv.remove t) rfl (fun x hx => (hinv.linked_timerRemove.1 hx).2) fun list => (hordered list).remove t
  | @exit t _ _ hexit _ =>
    rcases returnTimer_cases hexit with ⟨-, rfl, hstart⟩ | ⟨-, rfl, hcleared⟩
    · exact h.start hordered rfl hstart
    · rw [hcleared]
      refine h.keep (hinv.congr rfl (setTimer_list rfl)) rfl (fun x hx => hx) fun list =>
        (hordered list).congr rfl fun x _ => ?_
      by_cases hx : x = t
      · rw [hx, setTimer_self]
      · rw [setTimer_other _ hx]

theorem OrderInv.step (h : OrderInv cfg trace s) (hok : OrderKept cfg s op)
    (hs : stepTimer cfg s op = some (s', events)) : OrderInv cfg (trace ++ events) s' := by
  have hrows := h.rows.step hok.1 hs
  exact ⟨h.system.step hok.2 hs, hrows.inserted, hrows.ordered⟩

theorem orderInv_of_run (hrun : TimerRun cfg setup (OrderKept cfg) trace s) : OrderInv cfg trace s :=
  hrun.invariant (.boot setup) fun _ _ _ _ _ h hok hs => h.step hok hs

structure TimerOrder (cfg : TimerConfig) (trace : List TimerEvent) (s : TimerSystem) : Prop where
  sorted : ∀ list, ∀ i ≤ cfg.last, (s.timers.row list i).Pairwise s.timers.NotAfter
  sublist : ∀ list, ∀ i < cfg.last, (s.timers.row list i).Sublist (s.timers.row list (i + 1))
  /-- The last row holds the activated timers of its list. -/
  lastRow : ∀ list t, ¬ s.Running t →
    (t ∈ s.timers.lastRow cfg list ↔ (s.timers.timer t).activated ∧ (s.timers.timer t).list = list)
  activated : ∀ t, s.timers.Linked cfg t → (s.timers.timer t).activated
  /-- Timers with equal deadlines stand in the order of their insertion. -/
  ties : ∀ list, ∀ i ≤ cfg.last, (s.timers.row list i).Pairwise fun x y =>
    (s.timers.timer x).timeoutTick = (s.timers.timer y).timeoutTick → InsertedBefore (insertions trace) x y

/-- In every run the lists are in order as long as the pending deadlines lie in a window and no timeout function returns with its one-shot timer started again. -/
theorem timerOrder_of_run (hrun : TimerRun cfg setup (OrderKept cfg) trace s) (hwindow : Windowed cfg s.timers) :
    TimerOrder cfg trace s := by
  have h := orderInv_of_run hrun
  have hordered := fun list => h.ordered list (hwindow list)
  have hsub : ∀ list, ∀ i ≤ cfg.last, (s.timers.row list i).Sublist (s.timers.lastRow cfg list) := fun list i hi =>
    sublist_last (hordered list).sublist hi
  refine ⟨fun list i hi => ?_, fun list => (hordered list).sublist, fun list t ht => ?_, h.system.timers.activated, fun list i hi => ?_⟩
  · exact ((hordered list).sorted.sublist (hsub list i hi)).imp And.left
  · rw [h.system.activated_iff ht, h.system.timers.linked_iff]
    constructor
    · intro hmem
      have hlist := h.system.timers.list list t hmem
      exact ⟨hlist ▸ hmem, hlist⟩
    · rintro ⟨hmem, rfl⟩
      exact hmem
  · exact ((hordered list).sorted.sublist (hsub list i hi)).imp And.right

/-- Two one-shot timers are started in turn at a tick just before it wraps; they have the same deadline, after the wrap. A third is started earlier and has an earlier deadline. -/
theorem timerOrder_of_run_wrap : ∃ trace s, TimerRun twoRows (oneTick false .hard 0xFFFFFFFE) (OrderKept twoRows) trace s ∧
    s.timers.lastRow twoRows .hard = [2, 0, 1] ∧ (s.timers.timer 1).timeoutTick = 0 ∧ TimerOrder twoRows trace s := by
  obtain ⟨trace, s, hrun, hfound⟩ := exists_timerRun twoRows (oneTick false .hard 0xFFFFFFFE)
    (fun s op => (Window twoRows s.timers .hard 0xFFFFFFFF ∧ Window twoRows s.timers .soft 0xFFFFFFFF) ∧
      ReturnsStopped twoRows s op) [.start 2, .tick, .start 0, .start 1]
    (fun _ s => decide (Window twoRows s.timers .hard 0xFFFFFFFF ∧ Window twoRows s.timers .soft 0xFFFFFFFF ∧
      s.timers.lastRow twoRows .hard = [2, 0, 1] ∧ (s.timers.timer 1).timeoutTick = 0)) (by decide +kernel)
  obtain ⟨hhard, hsoft, hrow, htimeout⟩ := of_decide_eq_true hfound
  have hkept : TimerRun twoRows _ (OrderKept twoRows) trace s :=
    hrun.mono fun _ s _ _ h => ⟨.of_window h.1.1 h.1.2, h.2⟩
  exact ⟨trace, s, hkept, hrow, htimeout, timerOrder_of_run hkept (.of_window hhard hsoft)⟩

/-- A one-shot timer whose timeout function starts it again is in the last row and not activated when the check has ended. -/
theorem timerOrder_fails : ∃ trace s, TimerRun twoRows (oneTick false .hard 0) (fun s _ => Windowed twoRows s.timers) trace s ∧
    Windowed twoRows s.timers ∧ s.hard = .idle ∧ s.soft = .idle ∧ s.timers.lastRow twoRows .hard = [0] ∧
      (s.timers.timer 0).activated = false := by
  obtain ⟨trace, s, hrun, hfound⟩ := exists_timerRun twoRows (oneTick false .hard 0)
    (fun s _ => Window twoRows s.timers .hard 0 ∧ Window twoRows s.timers .soft 0)
    [.start 0, .tick, .check, .checkNext, .start 0, .checkReturn, .checkNext]
    (fun _ s => decide ((Window twoRows s.timers .hard 0 ∧ Window twoRows s.timers .soft 0) ∧ s.hard = .idle ∧
      s.soft = .idle ∧ s.timers.lastRow twoRows .hard = [0] ∧ (s.timers.timer 0).activated = false)) (by decide +kernel)
  obtain ⟨hfinal, hrest⟩ := of_decide_eq_true hfound
  exact ⟨trace, s, hrun.mono fun _ s _ _ h => .of_window h.1 h.2, .of_window hfinal.1 hfinal.2, hrest⟩

end RtThread
