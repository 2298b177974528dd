import RtThread.Lib.SkipList
import RtThread.Kernel.State

/-!
# Timers

The timers of `timer.c` in their two skip lists, `rt_timer_list` for the hard timers and `rt_soft_timer_list` for the soft ones. Ticks are 32-bit words and are compared by subtraction, so a deadline is ahead of another when it is less than half the range of the tick beyond it.

A timer has a node for each row. Removing a node takes it out of whichever list it is in. The rows above the last only speed up the search; the first timer is always in the last row.
-/

namespace RtThread

open Function SkipList

abbrev TimerId := Nat

structure TimerConfig where
  /-- `RT_TIMER_SKIP_LIST_LEVEL` -/
  skipListLevel : Nat
  level_pos : 0 < skipListLevel
  /-- `RT_TIMER_SKIP_LIST_MASK` -/
  skipListMask : BitVec 32

def TimerConfig.last (cfg : TimerConfig) : Nat := cfg.skipListLevel - 1

/-- `RT_TICK_MAX / 2` -/
def halfTick : BitVec 32 := 0xFFFFFFFF#32 / 2#32

/-- `rt_timer_list` and `rt_soft_timer_list`. -/
inductive TimerList
  | hard | soft
  deriving DecidableEq

structure Timer where
  /-- `RT_TIMER_FLAG_ACTIVATED` -/
  activated : Bool
  /-- `RT_TIMER_FLAG_PERIODIC` -/
  periodic : Bool
  /-- `RT_TIMER_FLAG_SOFT_TIMER`, as the list the timer goes to. -/
  list : TimerList
  initTick : BitVec 32
  timeoutTick : BitVec 32
  deriving DecidableEq

structure Timers where
  timer : TimerId → Timer
  row : TimerList → Nat → List TimerId
  /-- `rt_tick` -/
  tick : BitVec 32
  /-- The insert counter of `rt_timer_start`. -/
  randomNr : BitVec 32

def Timers.setTimer (s : Timers) (t : TimerId) (f : Timer → Timer) : Timers :=
  { s with timer := update s.timer t (f (s.timer t)) }

def Timers.lastRow (cfg : TimerConfig) (s : Timers) (list : TimerList) : List TimerId := s.row list cfg.last

def Timers.Linked (cfg : TimerConfig) (s : Timers) (t : TimerId) : Prop := ∃ list, t ∈ s.lastRow cfg list

instance (cfg : TimerConfig) (s : Timers) (t : TimerId) : Decidable (s.Linked cfg t) :=
  decidable_of_iff (t ∈ s.lastRow cfg .hard ∨ t ∈ s.lastRow cfg .soft)
    ⟨fun h => h.elim (⟨.hard, ·⟩) (⟨.soft, ·⟩), fun ⟨list, h⟩ => by cases list <;> simp [h]⟩

def timerRemove (s : Timers) (t : TimerId) : Timers :=
  { s with row := fun list i => (s.row list i).erase t }

/-- The search of `rt_timer_start` for `t` goes on past timer `p`: the deadlines are equal, or `p`'s is not ahead. -/
def searchesPast (s : Timers) (t p : TimerId) : Bool :=
  let delta := (s.timer p).timeoutTick - (s.timer t).timeoutTick
  decide (delta = 0 ∨ ¬ delta < halfTick)

/-- Insertion above the last row, in row `lvl - 1` and up as long as the bits tested are zero. -/
def insertUpper (mask : BitVec 32) (rowHead : Nat → Option TimerId) (t : TimerId) :
    Nat → BitVec 32 → (Nat → List TimerId) → Nat → List TimerId
  | 0, _, rows => rows
  | lvl + 1, tstNr, rows =>
    if tstNr &&& mask = 0 then
      insertUpper mask rowHead t lvl (tstNr >>> ((mask + 1) >>> 1))
        (update rows lvl (insertAfter t (rowHead lvl) (rows lvl)))
    else rows

/-- The rows of a list with `t` inserted, at the height that the insert counter gives it. -/
def insertRows (cfg : TimerConfig) (rowHead : Nat → Option TimerId) (t : TimerId) (randomNr : BitVec 32)
    (rows : Nat → List TimerId) : Nat → List TimerId :=
  insertUpper cfg.skipListMask rowHead t cfg.last randomNr
    (update rows cfg.last (insertAfter t (rowHead cfg.last) (rows cfg.last)))

/-- The first critical section of `rt_timer_start`: "stop timer firstly". -/
def startStop (s : Timers) (t : TimerId) : Timers :=
  (timerRemove s t).setTimer t fun timer => { timer with activated := false }

/-- The deadline: "the max timeout tick shall not great than RT_TICK_MAX/2". -/
def startTimeout (s : Timers) (t : TimerId) : Timers :=
  s.setTimer t fun timer => { timer with timeoutTick := s.tick + timer.initTick }

def startInsert (cfg : TimerConfig) (s : Timers) (t : TimerId) : Timers :=
  let list := (s.timer t).list
  let heads := rowHead (searchesPast s t) (s.row list)
  let randomNr := s.randomNr + 1
  let rows := insertRows cfg heads t randomNr (s.row list)
  { s with row := update s.row list rows, randomNr }.setTimer t fun timer => { timer with activated := true }

/-- `rt_timer_start`; nothing where its assertion on `init_tick` fails. -/
def rtTimerStart (cfg : TimerConfig) (s : Timers) (t : TimerId) : Option Timers :=
  let s := startStop s t
  if (s.timer t).initTick < halfTick then some (startInsert cfg (startTimeout s t) t) else none

def rtTimerStop (s : Timers) (t : TimerId) : RtErr × Timers :=
  if (s.timer t).activated then
    (.eok, (timerRemove s t).setTimer t fun timer => { timer with activated := false })
  else (.error, s)

/-- The commands of `rt_timer_control`; another command does nothing. -/
inductive TimerCtrl
  | setTime (time : BitVec 32)
  | getTime
  | setOneshot
  | setPeriodic
  | other
  deriving DecidableEq

/-- `rt_timer_control`, with what it stores through `arg`. -/
def rtTimerControl (s : Timers) (t : TimerId) : TimerCtrl → Option (BitVec 32) × Timers
  | .getTime => (some (s.timer t).initTick, s)
  | .setTime time => (none, s.setTimer t fun timer => { timer with initTick := time })
  | .setOneshot => (none, s.setTimer t fun timer => { timer with periodic := false })
  | .setPeriodic => (none, s.setTimer t fun timer => { timer with periodic := true })
  | .other => (none, s)

/-- The deadline of `t` is reached: "the new tick shall less than the half duration of tick max". -/
def Timers.Due (s : Timers) (currentTick : BitVec 32) (t : TimerId) : Prop :=
  currentTick - (s.timer t).timeoutTick < halfTick

instance (s : Timers) (currentTick : BitVec 32) (t : TimerId) : Decidable (s.Due currentTick t) :=
  inferInstanceAs (Decidable (_ < _))

/-- What the checks do when the timeout function of `t` has returned: a periodic timer that is still activated is started again. -/
def timerExit (cfg : TimerConfig) (s : Timers) (t : TimerId) : Option Timers :=
  let cleared := s.setTimer t fun timer => { timer with activated := false }
  if (s.timer t).periodic ∧ (s.timer t).activated then rtTimerStart cfg cleared t else some cleared

/-- `row[last].next` of a timer's node; the node of a timer that is not linked points to itself. -/
def nodeNext (row : List TimerId) (t : TimerId) : Option TimerId :=
  if t ∈ row then (after row (some t)).head? else some t

/-- What the application creates by `rt_timer_init`, at some tick. -/
structure TimerSetup where
  periodic : TimerId → Bool
  list : TimerId → TimerList
  time : TimerId → BitVec 32
  tick : BitVec 32

def timerInit (time : BitVec 32) (periodic : Bool) (list : TimerList) : Timer where
  activated := false
  periodic := periodic
  list := list
  initTick := time
  timeoutTick := 0

/-- No timer is started yet: `rt_system_timer_init`, `rt_system_timer_thread_init` and the timers. -/
def Timers.boot (setup : TimerSetup) : Timers where
  timer t := timerInit (setup.time t) (setup.periodic t) (setup.list t)
  row _ _ := []
  tick := setup.tick
  randomNr := 0

end RtThread
