import RtThread.Kernel.State

/-!
# The scheduler

`kservice.c`'s find-first-set and `scheduler.c` for one processor. The running thread is in no ready list: `rt_schedule` takes a thread out of its list when it switches to it and puts the thread it switches from back.
-/

namespace RtThread

def lowestBitBitmap : List Nat := [
  /- 00 -/ 0, 0, 1, 0, 2, 0, 1, 0, 3, 0, 1, 0, 2, 0, 1, 0,
  /- 10 -/ 4, 0, 1, 0, 2, 0, 1, 0, 3, 0, 1, 0, 2, 0, 1, 0,
  /- 20 -/ 5, 0, 1, 0, 2, 0, 1, 0, 3, 0, 1, 0, 2, 0, 1, 0,
  /- 30 -/ 4, 0, 1, 0, 2, 0, 1, 0, 3, 0, 1, 0, 2, 0, 1, 0,
  /- 40 -/ 6, 0, 1, 0, 2, 0, 1, 0, 3, 0, 1, 0, 2, 0, 1, 0,
  /- 50 -/ 4, 0, 1, 0, 2, 0, 1, 0, 3, 0, 1, 0, 2, 0, 1, 0,
  /- 60 -/ 5, 0, 1, 0, 2, 0, 1, 0, 3, 0, 1, 0, 2, 0, 1, 0,
  /- 70 -/ 4, 0, 1, 0, 2, 0, 1, 0, 3, 0, 1, 0, 2, 0, 1, 0,
  /- 80 -/ 7, 0, 1, 0, 2, 0, 1, 0, 3, 0, 1, 0, 2, 0, 1, 0,
  /- 90 -/ 4, 0, 1, 0, 2, 0, 1, 0, 3, 0, 1, 0, 2, 0, 1, 0,
  /- A0 -/ 5, 0, 1, 0, 2, 0, 1, 0, 3, 0, 1, 0, 2, 0, 1, 0,
  /- B0 -/ 4, 0, 1, 0, 2, 0, 1, 0, 3, 0, 1, 0, 2, 0, 1, 0,
  /- C0 -/ 6, 0, 1, 0, 2, 0, 1, 0, 3, 0, 1, 0, 2, 0, 1, 0,
  /- D0 -/ 4, 0, 1, 0, 2, 0, 1, 0, 3, 0, 1, 0, 2, 0, 1, 0,
  /- E0 -/ 5, 0, 1, 0, 2, 0, 1, 0, 3, 0, 1, 0, 2, 0, 1, 0,
  /- F0 -/ 4, 0, 1, 0, 2, 0, 1, 0, 3, 0, 1, 0, 2, 0, 1, 0]

def lowestBit (byte : BitVec 8) : Nat := lowestBitBitmap.getD byte.toNat 0

def rtFfs (value : BitVec 32) : Nat :=
  if value = 0 then 0
  else if value.extractLsb' 0 8 ≠ 0 then lowestBit (value.extractLsb' 0 8) + 1
  else if value.extractLsb' 8 8 ≠ 0 then lowestBit (value.extractLsb' 8 8) + 9
  else if value.extractLsb' 16 8 ≠ 0 then lowestBit (value.extractLsb' 16 8) + 17
  else lowestBit (value.extractLsb' 24 8) + 25

/-- The first half of `_get_highest_priority_thread`. -/
def highestReadyPriority (cfg : Config) (k : Kernel) : Nat :=
  if cfg.Large then
    let number := rtFfs k.group - 1
    (number <<< 3) + rtFfs ((k.readyTable number).setWidth 32) - 1
  else
    rtFfs k.group - 1

/-- `_get_highest_priority_thread`: the thread, and the priority whose list it heads. -/
def getHighestPriorityThread (cfg : Config) (k : Kernel) : Option ThreadId × Nat :=
  let highestReadyPriority := highestReadyPriority cfg k
  ((k.tlist (.ready highestReadyPriority)).head?, highestReadyPriority)

def rtScheduleInsertThread (cfg : Config) (k : Kernel) (t : ThreadId) : Kernel :=
  let k := k.setThread t fun thread => { thread with stat := .ready }
  if k.current = some t then k
  else
    let thread := k.thread t
    let k := rtListInsertBefore k (.ready thread.currentPriority) t
    let k :=
      if cfg.Large then
        { k with
          readyTable := Function.update k.readyTable thread.number (k.readyTable thread.number ||| thread.highMask) }
      else k
    { k with group := k.group ||| thread.numberMask }

def rtScheduleRemoveThread (cfg : Config) (k : Kernel) (t : ThreadId) : Kernel :=
  let k := rtListRemove k t
  let thread := k.thread t
  if k.tlist (.ready thread.currentPriority) = [] then
    if cfg.Large then
      let k := { k with
        readyTable := Function.update k.readyTable thread.number (k.readyTable thread.number &&& ~~~thread.highMask) }
      if k.readyTable thread.number = 0 then { k with group := k.group &&& ~~~thread.numberMask } else k
    else { k with group := k.group &&& ~~~thread.numberMask }
  else k

/-- `rt_schedule`. Every caller has a running thread, so the case without one does not arise; nor does an empty list under a set bit. -/
def rtSchedule (cfg : Config) (k : Kernel) : Kernel :=
  match k.current with
  | none => k
  | some current =>
    if k.lockNest = 0 ∧ k.group ≠ 0 then
      match getHighestPriorityThread cfg k with
      | (none, _) => k
      | (some highest, highestReadyPriority) =>
        let ready := (k.thread current).stat = .ready
        let stays := ready ∧ (k.thread current).currentPriority < highestReadyPriority
        let toThread := if stays then current else highest
        if toThread ≠ current then
          let fromThread := current
          let k := { k with current := some toThread }
          let k := if ready ∧ ¬ stays then rtScheduleInsertThread cfg k fromThread else k
          rtScheduleRemoveThread cfg k toThread
        else rtScheduleRemoveThread cfg k current
    else k

def rtSystemSchedulerStart (cfg : Config) (k : Kernel) : Option Kernel :=
  match getHighestPriorityThread cfg k with
  | (none, _) => none
  | (some toThread, _) => some (rtScheduleRemoveThread cfg { k with current := some toThread } toThread)

def rtEnterCritical (k : Kernel) : Kernel :=
  { k with lockNest := k.lockNest + 1 }

def rtExitCritical (cfg : Config) (k : Kernel) : Kernel :=
  let k := { k with lockNest := k.lockNest - 1 }
  if k.lockNest = 0 then rtSchedule cfg k else k

end RtThread
