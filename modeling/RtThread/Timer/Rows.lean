import RtThread.Timer.Timers

/-!
# The rows of the timer lists

Whatever the deadlines are, no row holds a timer twice, every row is part of the row below it, and a timer is only linked in the list it belongs to and only while it is activated. Starting a timer unlinks it and links it again, so that the last row gains no other timer; stopping it unlinks it from every row.
-/

namespace RtThread

open Function SkipList

variable {cfg : TimerConfig} {s s' : Timers} {t x : TimerId} {list : TimerList} {rows : Nat → List TimerId}

@[simp] theorem setTimer_row (f : Timer → Timer) : (s.setTimer t f).row = s.row := rfl

@[simp] theorem setTimer_tick (f : Timer → Timer) : (s.setTimer t f).tick = s.tick := rfl

@[simp] theorem setTimer_lastRow (f : Timer → Timer) : (s.setTimer t f).lastRow cfg = s.lastRow cfg := rfl

@[simp] theorem setTimer_linked (f : Timer → Timer) : (s.setTimer t f).Linked cfg x ↔ s.Linked cfg x := Iff.rfl

@[simp] theorem setTimer_self (f : Timer → Timer) : (s.setTimer t f).timer t = f (s.timer t) :=
  update_self ..

theorem setTimer_other (f : Timer → Timer) (hx : x ≠ t) : (s.setTimer t f).timer x = s.timer x :=
  update_of_ne hx ..

@[simp] theorem timerRemove_timer : (timerRemove s t).timer = s.timer := rfl

@[simp] theorem timerRemove_tick : (timerRemove s t).tick = s.tick := rfl

structure RowsInv (cfg : TimerConfig) (rows : Nat → List TimerId) : Prop where
  nodup : ∀ i, (rows i).Nodup
  subset : ∀ i < cfg.last, rows i ⊆ rows (i + 1)

theorem RowsInv.subset_last (h : RowsInv cfg rows) {i : Nat} (hi : i ≤ cfg.last) : rows i ⊆ rows cfg.last := by
  induction hi using Nat.decreasingInduction with
  | self => exact List.Subset.refl _
  | of_succ i hi ih => exact List.Subset.trans (h.subset i hi) ih

theorem RowsInv.erase (h : RowsInv cfg rows) (t : TimerId) : RowsInv cfg fun i => (rows i).erase t := by
  refine ⟨fun i => (h.nodup i).erase t, fun i hi x hx => ?_⟩
  obtain ⟨hne, hmem⟩ := (h.nodup i).mem_erase_iff.1 hx
  exact (h.nodup (i + 1)).mem_erase_iff.2 ⟨hne, h.subset i hi hmem⟩

/-! ## Insertion -/

theorem insertUpper_eq (mask : BitVec 32) (heads : Nat → Option TimerId) (t : TimerId) (lvl : Nat) (tstNr : BitVec 32)
    (rows : Nat → List TimerId) : ∃ lo ≤ lvl, ∀ i, insertUpper mask heads t lvl tstNr rows i =
      if lo ≤ i ∧ i < lvl then insertAfter t (heads i) (rows i) else rows i := by
  induction lvl generalizing tstNr rows with
  | zero => exact ⟨0, Nat.le_refl 0, fun i => by rw [if_neg (by omega), insertUpper]⟩
  | succ lvl ih =>
    rw [insertUpper]
    split_ifs
    · obtain ⟨lo, hlo, heq⟩ := ih (tstNr >>> ((mask + 1) >>> 1))
        (update rows lvl (insertAfter t (heads lvl) (rows lvl)))
      refine ⟨lo, by omega, fun i => ?_⟩
      rw [heq]
      by_cases hi : i = lvl
      · subst hi
        rw [if_neg (by omega), if_pos (by omega), update_self]
      · rw [update_of_ne hi]
        exact ite_congr (propext (by omega)) (fun _ => rfl) fun _ => rfl
    · exact ⟨lvl + 1, Nat.le_refl _, fun i => by rw [if_neg (by omega)]⟩

theorem insertRows_eq (cfg : TimerConfig) (heads : Nat → Option TimerId) (t : TimerId) (randomNr : BitVec 32)
    (rows : Nat → List TimerId) : ∃ lo ≤ cfg.last, ∀ i, insertRows cfg heads t randomNr rows i =
      if lo ≤ i ∧ i ≤ cfg.last then insertAfter t (heads i) (rows i) else rows i := by
  obtain ⟨lo, hlo, heq⟩ := insertUpper_eq cfg.skipListMask heads t cfg.last randomNr
    (update rows cfg.last (insertAfter t (heads cfg.last) (rows cfg.last)))
  refine ⟨lo, hlo, fun i => ?_⟩
  rw [insertRows, heq]
  by_cases hi : i = cfg.last
  · subst hi
    rw [if_neg (by omega), if_pos (by omega), update_self]
  · rw [update_of_ne hi]
    exact ite_congr (propext (by omega)) (fun _ => rfl) fun _ => rfl

theorem RowsInv.insert (h : RowsInv cfg rows) (ht : t ∉ rows cfg.last) (le : TimerId → Bool) (randomNr : BitVec 32) :
    RowsInv cfg (insertRows cfg (rowHead le rows) t randomNr rows) ∧
      (insertRows cfg (rowHead le rows) t randomNr rows cfg.last).Perm (t :: rows cfg.last) := by
  obtain ⟨lo, hlo, heq⟩ := insertRows_eq cfg (rowHead le rows) t randomNr rows
  have hperm : ∀ i ≤ cfg.last, (insertAfter t (rowHead le rows i) (rows i)).Perm (t :: rows i) := fun i hi =>
    insertAfter_perm fun y hy => rowHead_mem (fun j hj => h.subset j (by omega)) hy
  refine ⟨⟨fun i => ?_, fun i hi => ?_⟩, ?_⟩
  · rw [heq]
    split_ifs with hin
    · refine (hperm i hin.2).nodup_iff.2 (List.nodup_cons.2 ⟨fun hmem => ht ?_, h.nodup i⟩)
      exact h.subset_last hin.2 hmem
    · exact h.nodup i
  · rw [heq, heq]
    intro x hx
    by_cases hnext : lo ≤ i + 1
    · rw [if_pos ⟨hnext, by omega⟩]
      refine (hperm (i + 1) (by omega)).mem_iff.2 ?_
      split_ifs at hx with hin
      · rcases List.mem_cons.1 ((hperm i hin.2).mem_iff.1 hx) with rfl | hx
        · exact List.mem_cons_self ..
        · exact List.mem_cons_of_mem _ (h.subset i hi hx)
      · exact List.mem_cons_of_mem _ (h.subset i hi hx)
    · rw [if_neg (by omega)] at hx ⊢
      exact h.subset i hi hx
  · rw [heq, if_pos ⟨hlo, Nat.le_refl _⟩]
    exact hperm cfg.last (Nat.le_refl _)

/-! ## What the operations keep -/

structure LinksInv (cfg : TimerConfig) (s : Timers) : Prop where
  rows : ∀ list, RowsInv cfg (s.row list)
  list : ∀ list, ∀ t ∈ s.lastRow cfg list, (s.timer t).list = list

theorem LinksInv.boot (setup : TimerSetup) : LinksInv cfg (.boot setup) where
  rows _ := ⟨fun _ => List.nodup_nil, fun _ _ => List.Subset.refl _⟩
  list _ _ ht := by cases ht

theorem LinksInv.linked_iff (h : LinksInv cfg s) : s.Linked cfg t ↔ t ∈ s.lastRow cfg (s.timer t).list := by
  constructor
  · rintro ⟨list, hmem⟩
    rwa [h.list list t hmem]
  · exact fun hmem => ⟨_, hmem⟩

theorem LinksInv.mem_lastRow_timerRemove (h : LinksInv cfg s) :
    x ∈ (timerRemove s t).lastRow cfg list ↔ x ≠ t ∧ x ∈ s.lastRow cfg list :=
  ((h.rows list).nodup cfg.last).mem_erase_iff

theorem LinksInv.linked_timerRemove (h : LinksInv cfg s) :
    (timerRemove s t).Linked cfg x ↔ x ≠ t ∧ s.Linked cfg x := by
  simp only [Timers.Linked, h.mem_lastRow_timerRemove, exists_and_left]

theorem LinksInv.remove (h : LinksInv cfg s) (t : TimerId) : LinksInv cfg (timerRemove s t) where
  rows list := (h.rows list).erase t
  list list x hx := h.list list x (h.mem_lastRow_timerRemove.1 hx).2

theorem LinksInv.congr (h : LinksInv cfg s) (hrow : s'.row = s.row) (hlist : ∀ x, (s'.timer x).list = (s.timer x).list) :
    LinksInv cfg s' where
  rows := hrow ▸ h.rows
  list list x hx := by
    rw [Timers.lastRow, hrow] at hx
    rw [hlist]
    exact h.list list x hx

theorem setTimer_list {f : Timer → Timer} (hlist : (f (s.timer t)).list = (s.timer t).list) (x : TimerId) :
    ((s.setTimer t f).timer x).list = (s.timer x).list := by
  by_cases hxt : x = t
  · rw [hxt, setTimer_self, hlist]
  · rw [setTimer_other f hxt]

structure TimersInv (cfg : TimerConfig) (s : Timers) : Prop where
  rows : ∀ list, RowsInv cfg (s.row list)
  list : ∀ list, ∀ t ∈ s.lastRow cfg list, (s.timer t).list = list
  activated : ∀ t, s.Linked cfg t → (s.timer t).activated

theorem TimersInv.links (h : TimersInv cfg s) : LinksInv cfg s := ⟨h.rows, h.list⟩

theorem LinksInv.timers (h : LinksInv cfg s) (hactivated : ∀ t, s.Linked cfg t → (s.timer t).activated) :
    TimersInv cfg s :=
  ⟨h.rows, h.list, hactivated⟩

theorem TimersInv.boot (setup : TimerSetup) : TimersInv cfg (.boot setup) :=
  (LinksInv.boot setup).timers fun _ ⟨_, ht⟩ => by cases ht

theorem TimersInv.linked_iff (h : TimersInv cfg s) : s.Linked cfg t ↔ t ∈ s.lastRow cfg (s.timer t).list :=
  h.links.linked_iff

theorem TimersInv.mem_lastRow_timerRemove (h : TimersInv cfg s) :
    x ∈ (timerRemove s t).lastRow cfg list ↔ x ≠ t ∧ x ∈ s.lastRow cfg list :=
  h.links.mem_lastRow_timerRemove

theorem TimersInv.linked_timerRemove (h : TimersInv cfg s) :
    (timerRemove s t).Linked cfg x ↔ x ≠ t ∧ s.Linked cfg x :=
  h.links.linked_timerRemove

theorem TimersInv.remove (h : TimersInv cfg s) (t : TimerId) : TimersInv cfg (timerRemove s t) :=
  (h.links.remove t).timers fun x hx => h.activated x (h.linked_timerRemove.1 hx).2

theorem TimersInv.setTimer (h : TimersInv cfg s) {f : Timer → Timer} (hlist : (f (s.timer t)).list = (s.timer t).list)
    (hactivated : s.Linked cfg t → (f (s.timer t)).activated) : TimersInv cfg (s.setTimer t f) := by
  have hlinks : LinksInv cfg (s.setTimer t f) := h.links.congr rfl (setTimer_list hlist)
  refine hlinks.timers fun x hx => ?_
  by_cases hxt : x = t
  · subst hxt
    rw [setTimer_self]
    exact hactivated hx
  · rw [setTimer_other f hxt]
    exact h.activated x hx

def Unlinks (cfg : TimerConfig) (t : TimerId) (s s' : Timers) : Prop :=
  TimersInv cfg s' ∧ (∀ x, s'.Linked cfg x ↔ x ≠ t ∧ s.Linked cfg x) ∧
    (s'.timer t).activated = false ∧ ∀ x, x ≠ t → s'.timer x = s.timer x

theorem TimersInv.unlink (h : TimersInv cfg s) (t : TimerId) : Unlinks cfg t s (startStop s t) := by
  have hlinked : ∀ x, (timerRemove s t).Linked cfg x ↔ x ≠ t ∧ s.Linked cfg x := fun x => h.linked_timerRemove
  refine ⟨(h.remove t).setTimer rfl fun hmem => absurd rfl ((hlinked t).1 hmem).1, hlinked, ?_, ?_⟩
  · rw [startStop, setTimer_self]
  · exact fun x hx => setTimer_other _ hx

theorem rtTimerStop_activated (ht : (s.timer t).activated) : rtTimerStop s t = (.eok, startStop s t) := if_pos ht

theorem rtTimerStop_deactivated (ht : (s.timer t).activated = false) : rtTimerStop s t = (.error, s) := by
  rw [rtTimerStop, if_neg (by simp [ht])]

theorem TimersInv.stop (h : TimersInv cfg s) (t : TimerId) : Unlinks cfg t s (rtTimerStop s t).2 := by
  cases ht : (s.timer t).activated with
  | true =>
    rw [rtTimerStop_activated ht]
    exact h.unlink t
  | false =>
    rw [rtTimerStop_deactivated ht]
    refine ⟨h, fun x => ⟨fun hx => ⟨?_, hx⟩, And.right⟩, ht, fun _ _ => rfl⟩
    rintro rfl
    rw [h.activated x hx] at ht
    cases ht

theorem rtTimerStart_eq_some (hstart : rtTimerStart cfg s t = some s') :
    (s.timer t).initTick < halfTick ∧ s' = startInsert cfg (startTimeout (startStop s t) t) t := by
  rw [rtTimerStart] at hstart
  split_ifs at hstart with hinit
  · refine ⟨?_, (Option.some.inj hstart).symm⟩
    rwa [startStop, setTimer_self] at hinit

/-- The timer that `rt_timer_start` leaves. -/
def Timer.started (timer : Timer) (tick : BitVec 32) : Timer :=
  { timer with activated := true, timeoutTick := tick + timer.initTick }

theorem rtTimerStart_timer (hstart : rtTimerStart cfg s t = some s') :
    s'.timer = update s.timer t ((s.timer t).started s.tick) := by
  obtain ⟨-, rfl⟩ := rtTimerStart_eq_some hstart
  funext x
  by_cases hx : x = t
  · subst hx
    simp [startInsert, startTimeout, startStop, Timer.started, Timers.setTimer, timerRemove]
  · simp [startInsert, startTimeout, startStop, Timers.setTimer, timerRemove, update_of_ne hx]

theorem rtTimerStart_tick (hstart : rtTimerStart cfg s t = some s') : s'.tick = s.tick := by
  obtain ⟨-, rfl⟩ := rtTimerStart_eq_some hstart
  rfl

theorem rtTimerStart_row (hstart : rtTimerStart cfg s t = some s') :
    s'.row = update (timerRemove s t).row (s.timer t).list
      (insertRows cfg (rowHead (searchesPast (startTimeout (startStop s t) t) t) ((timerRemove s t).row (s.timer t).list))
        t (s.randomNr + 1) ((timerRemove s t).row (s.timer t).list)) := by
  obtain ⟨-, rfl⟩ := rtTimerStart_eq_some hstart
  simp [startInsert, startTimeout, startStop, Timers.setTimer, timerRemove]

theorem LinksInv.mem_lastRow_start (h : LinksInv cfg s) (hstart : rtTimerStart cfg s t = some s') :
    x ∈ s'.lastRow cfg list ↔ x = t ∧ list = (s.timer t).list ∨ x ≠ t ∧ x ∈ s.lastRow cfg list := by
  have hremoved := h.remove t
  have hnot : t ∉ (timerRemove s t).lastRow cfg (s.timer t).list := fun hmem =>
    (h.mem_lastRow_timerRemove.1 hmem).1 rfl
  rw [Timers.lastRow, rtTimerStart_row hstart]
  by_cases hl : list = (s.timer t).list
  · subst hl
    rw [update_self, ((hremoved.rows _).insert hnot _ _).2.mem_iff, List.mem_cons]
    have hmem : x ∈ (timerRemove s t).row (s.timer t).list cfg.last ↔ x ≠ t ∧ x ∈ s.lastRow cfg (s.timer t).list :=
      h.mem_lastRow_timerRemove
    simp only [hmem, and_true]
  · rw [update_of_ne hl]
    have hmem : x ∈ (timerRemove s t).row list cfg.last ↔ x ≠ t ∧ x ∈ s.lastRow cfg list := h.mem_lastRow_timerRemove
    simp only [hmem, hl, and_false, false_or]

theorem LinksInv.linked_start (h : LinksInv cfg s) (hstart : rtTimerStart cfg s t = some s') :
    s'.Linked cfg x ↔ x = t ∨ s.Linked cfg x := by
  constructor
  · rintro ⟨list, hx⟩
    rcases (h.mem_lastRow_start hstart).1 hx with ⟨hx, -⟩ | ⟨-, hx⟩
    · exact .inl hx
    · exact .inr ⟨list, hx⟩
  · intro hx
    by_cases hxt : x = t
    · exact ⟨_, (h.mem_lastRow_start hstart).2 (.inl ⟨hxt, rfl⟩)⟩
    · obtain ⟨list, hx⟩ := hx.resolve_left hxt
      exact ⟨list, (h.mem_lastRow_start hstart).2 (.inr ⟨hxt, hx⟩)⟩

theorem LinksInv.start (h : LinksInv cfg s) (hstart : rtTimerStart cfg s t = some s') : LinksInv cfg s' := by
  have hremoved := h.remove t
  refine ⟨fun list => ?_, fun list x hx => ?_⟩
  · rw [rtTimerStart_row hstart]
    by_cases hl : list = (s.timer t).list
    · subst hl
      rw [update_self]
      exact ((hremoved.rows _).insert (fun hmem => (h.mem_lastRow_timerRemove.1 hmem).1 rfl) _ _).1
    · rw [update_of_ne hl]
      exact hremoved.rows list
  · rw [rtTimerStart_timer hstart]
    rcases (h.mem_lastRow_start hstart).1 hx with ⟨rfl, rfl⟩ | ⟨hne, hx⟩
    · rw [update_self]
      rfl
    · rw [update_of_ne hne]
      exact h.list list x hx

theorem TimersInv.mem_lastRow_start (h : TimersInv cfg s) (hstart : rtTimerStart cfg s t = some s') :
    x ∈ s'.lastRow cfg list ↔ x = t ∧ list = (s.timer t).list ∨ x ≠ t ∧ x ∈ s.lastRow cfg list :=
  h.links.mem_lastRow_start hstart

theorem TimersInv.linked_start (h : TimersInv cfg s) (hstart : rtTimerStart cfg s t = some s') :
    s'.Linked cfg x ↔ x = t ∨ s.Linked cfg x :=
  h.links.linked_start hstart

theorem TimersInv.start (h : TimersInv cfg s) (hstart : rtTimerStart cfg s t = some s') : TimersInv cfg s' := by
  refine (h.links.start hstart).timers fun x hx => ?_
  rw [rtTimerStart_timer hstart]
  by_cases hxt : x = t
  · subst hxt
    rw [update_self]
    rfl
  · rw [update_of_ne hxt]
    exact h.activated x (((h.linked_start hstart).1 hx).resolve_left hxt)

end RtThread
