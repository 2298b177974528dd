import RtThread.Ipc.WaitList
import RtThread.Lib.Transition

/-!
# Water mark queues

`watermark_queue.h`. Producers raise the level and are suspended while it is above the high mark; a consumer that lowers the level to the low mark wakes all of them. A decrement looks at the level once before it disables interrupts, and does not look again.
-/

namespace RtThread

open Function

/-- The marks, as `rt_wm_que_set_mark` takes them. -/
structure WmMarks where
  low : Nat
  high : Nat
  low_le_high : low ≤ high
  high_lt : high < 2 ^ 32

/-- `struct rt_watermark_queue`; `level` is an `unsigned int`. -/
structure WatermarkQueue where
  level : Nat
  mark : WmMarks
  suspendedThreads : List ThreadId

inductive WmCall
  /-- `rt_wm_que_inc` waits for the level to fall. -/
  | inc (timeout : Int)
  /-- `rt_wm_que_dec` has found the level above zero. -/
  | dec
  deriving DecidableEq

structure WmState where
  que : WatermarkQueue
  thread : ThreadId → Waiter
  call : Caller → Option WmCall

inductive WmEvent
  | increased (c : Caller) (level : Nat)
  | decreased (c : Caller) (level : Nat)
  | skipped (c : Caller)
  | failed (c : Caller) (result : IpcErr)
  deriving DecidableEq

namespace WmState

def setThread (s : WmState) (t : ThreadId) (f : Waiter → Waiter) : WmState :=
  { s with thread := update s.thread t (f (s.thread t)) }

def setCall (s : WmState) (c : Caller) (call : Option WmCall) : WmState :=
  { s with call := update s.call c call }

def setLevel (s : WmState) (level : Nat) : WmState := { s with que := { s.que with level } }

def suspend (s : WmState) (t : ThreadId) (timeout : Int) (timer : Bool) : WmState :=
  ({ s with que := { s.que with suspendedThreads := t :: s.que.suspendedThreads } }.setThread t fun thread =>
    { thread with error := .eok, timer }).setCall (.thread t) (some (.inc timeout))

/-- "it's safe to resume all the threads" -/
def resumeAll (s : WmState) : WmState :=
  s.que.suspendedThreads.foldl (fun s t => s.setThread t fun thread => { thread with timer := false })
    { s with que := { s.que with suspendedThreads := [] } }

end WmState

/-- `wg->level++`, which stays at the greatest number. -/
def wmLevelInc (level : Nat) : Nat :=
  let level := (level + 1) % 2 ^ 32
  if level = 0 then 2 ^ 32 - 1 else level

def wmLevelDec (level : Nat) : Nat := (level + (2 ^ 32 - 1)) % 2 ^ 32

/-- `rt_wm_que_inc` from the test of its loop on. -/
def wmIncLoop (s : WmState) (c : Caller) (timeout : Int) : Option (WmState × List WmEvent) :=
  if s.que.mark.high < s.que.level then
    if timeout = 0 then some (s.setCall c none, [.failed c .efull])
    else
      match c with
      | .interrupt _ => none
      | .thread t => (timeoutTimer timeout).map fun timer => (s.suspend t timeout timer, [])
  else some ((s.setLevel (wmLevelInc s.que.level)).setCall c none, [.increased c s.que.level])

/-- "Assert as early as possible." -/
def rtWmQueInc (s : WmState) (c : Caller) (timeout : Int) : Option (WmState × List WmEvent) :=
  match c with
  | .interrupt _ => if timeout = 0 then wmIncLoop s c timeout else none
  | .thread _ => wmIncLoop s c timeout

/-- `rt_wm_que_dec` up to its critical section. -/
def rtWmQueDec (s : WmState) (c : Caller) : WmState × List WmEvent :=
  if s.que.level = 0 then (s, [.skipped c]) else (s.setCall c (some .dec), [])

def WmState.lower (s : WmState) (c : Caller) : WmState := (s.setLevel (wmLevelDec s.que.level)).setCall c none

/-- The critical section of `rt_wm_que_dec`. -/
def wmDecrement (s : WmState) (c : Caller) : WmState × List WmEvent :=
  (if (s.lower c).que.level = s.que.mark.low then (s.lower c).resumeAll else s.lower c, [.decreased c s.que.level])

/-! ## The water mark queue as a state machine -/

inductive WmOp
  | inc (c : Caller) (timeout : Int)
  | dec (c : Caller)
  /-- A caller that is not suspended goes on in its call. -/
  | resume (c : Caller)
  /-- The timer of a waiting thread expires: `rt_thread_timeout`. -/
  | timeout (t : ThreadId)
  deriving DecidableEq

def WmState.Waiting (s : WmState) : Caller → Prop
  | .thread t => t ∈ s.que.suspendedThreads
  | .interrupt _ => False

instance WmState.decidableWaiting (s : WmState) (c : Caller) : Decidable (s.Waiting c) := by
  induction c using Caller.casesOn <;> dsimp only [WmState.Waiting] <;> infer_instance

def WmState.error (s : WmState) : Caller → IpcErr
  | .thread t => (s.thread t).error
  | .interrupt _ => .eok

def stepWm (s : WmState) : WmOp → Option (WmState × List WmEvent)
  | .inc c timeout => if s.call c = none then rtWmQueInc s c timeout else none
  | .dec c => if s.call c = none then some (rtWmQueDec s c) else none
  | .resume c =>
    if s.Waiting c then none
    else
      match s.call c with
      | none => none
      | some (.inc timeout) =>
        if s.error c ≠ .eok then some (s.setCall c none, [.failed c (s.error c)]) else wmIncLoop s c timeout
      | some .dec => some (wmDecrement s c)
  | .timeout t =>
    if t ∈ s.que.suspendedThreads ∧ (s.thread t).timer then
      some ({ s with que := { s.que with suspendedThreads := s.que.suspendedThreads.erase t } }.setThread t fun thread =>
        { thread with error := .etimeout, timer := false }, [])
    else none

def WmState.init (mark : WmMarks) (priority : ThreadId → Nat) : WmState where
  que := ⟨0, mark, []⟩
  thread t := ⟨.eok, priority t, false⟩
  call _ := none

abbrev WmRun (mark : WmMarks) (priority : ThreadId → Nat) : List WmEvent → WmState → Prop :=
  Transition.Run stepWm (fun _ _ => True) (.init mark priority)

/-! ## The level -/

variable {mark : WmMarks} {priority : ThreadId → Nat} {s s' : WmState} {op : WmOp} {trace events : List WmEvent} {c : Caller}
  {timeout : Int} {t : ThreadId}

def WmEvent.isIncrease : WmEvent → Bool
  | .increased _ _ => true
  | _ => false

def WmEvent.raises : WmEvent → Bool
  | .increased _ level => level + 1 < 2 ^ 32
  | _ => false

def WmEvent.isDecrease : WmEvent → Bool
  | .decreased _ _ => true
  | _ => false

def WmEvent.isLate : WmEvent → Bool
  | .decreased _ level => level = 0
  | _ => false

theorem wmLevelInc_eq {level : Nat} (hlt : level < 2 ^ 32) :
    wmLevelInc level = if level + 1 < 2 ^ 32 then level + 1 else level := by
  unfold wmLevelInc
  by_cases hmax : level + 1 < 2 ^ 32
  · rw [Nat.mod_eq_of_lt hmax, if_neg (Nat.succ_ne_zero level), if_pos hmax]
  · obtain rfl : level = 2 ^ 32 - 1 := by omega
    rfl

theorem wmLevelDec_eq {level : Nat} (hlt : level < 2 ^ 32) :
    wmLevelDec level = if level = 0 then 2 ^ 32 - 1 else level - 1 := by
  unfold wmLevelDec
  split <;> omega

/-- What a call does in the state it finds. -/
structure WmCallsRight (s : WmState) : Prop where
  /-- Up to the high mark an increment is done at once. -/
  increments : ∀ c timeout, s.call c = none → (timeout = 0 ∨ ∃ t, c = .thread t) → s.que.level ≤ s.que.mark.high →
    ∃ s', stepWm s (.inc c timeout) = some (s', [.increased c s.que.level]) ∧ s'.call c = none ∧
      s'.que.suspendedThreads = s.que.suspendedThreads ∧
      s'.que.level = if s.que.level + 1 < 2 ^ 32 then s.que.level + 1 else s.que.level
  /-- A thread that has been woken goes on with the same test. -/
  continues : ∀ t timeout, s.call (.thread t) = some (.inc timeout) → t ∉ s.que.suspendedThreads → (s.thread t).error = .eok →
    s.que.level ≤ s.que.mark.high →
    ∃ s', stepWm s (.resume (.thread t)) = some (s', [.increased (.thread t) s.que.level]) ∧ s'.call (.thread t) = none
  skips : ∀ c, s.call c = none → s.que.level = 0 → stepWm s (.dec c) = some (s, [.skipped c])
  begins : ∀ c, s.call c = none → 0 < s.que.level →
    ∃ s', stepWm s (.dec c) = some (s', []) ∧ s'.call c = some .dec ∧ s'.que = s.que
  /-- A decrement at its critical section lowers the level by one; at the low mark it wakes every thread that waits. -/
  lowers : ∀ c, s.call c = some .dec → 0 < s.que.level →
    ∃ s', stepWm s (.resume c) = some (s', [.decreased c s.que.level]) ∧ s'.call c = none ∧
      s'.que.level = s.que.level - 1 ∧
      if s.que.level - 1 = s.que.mark.low then
        s'.que.suspendedThreads = [] ∧ ∀ t ∈ s.que.suspendedThreads, (s'.thread t).timer = false
      else s'.que.suspendedThreads = s.que.suspendedThreads ∧ s'.thread = s.thread

/-- Each critical section on the level counts; a late decrement goes round the range of the level once. -/
structure WmInv (trace : List WmEvent) (s : WmState) : Prop where
  lt : s.que.level < 2 ^ 32
  level : s.que.level + trace.countP WmEvent.isDecrease = trace.countP WmEvent.raises + 2 ^ 32 * trace.countP WmEvent.isLate
  waits : s.que.suspendedThreads ≠ [] → s.que.mark.low < s.que.level
  calls : ∀ t ∈ s.que.suspendedThreads, ∃ timeout, s.call (.thread t) = some (.inc timeout)

/-- A caller that does not wait changes its own call only. -/
theorem WmInv.calls_setCall (h : WmInv trace s) (hwait : ¬ s.Waiting c) (call : Option WmCall) :
    ∀ t ∈ s.que.suspendedThreads, ∃ timeout, (s.setCall c call).call (.thread t) = some (.inc timeout) := by
  intro t ht
  obtain ⟨timeout, hcall⟩ := h.calls t ht
  have hne : Caller.thread t ≠ c := by
    rintro rfl
    exact hwait ht
  exact ⟨timeout, (update_of_ne hne ..).trans hcall⟩

theorem WmInv.not_waiting (h : WmInv trace s) (hcall : ∀ timeout, s.call c ≠ some (.inc timeout)) : ¬ s.Waiting c := by
  intro hwait
  cases c with
  | thread t =>
    obtain ⟨timeout, hinc⟩ := h.calls t hwait
    exact hcall timeout hinc
  | interrupt n => exact hwait

theorem WmInv.sameLevel (h : WmInv trace s) (hlevel : s'.que.level = s.que.level) (hmark : s'.que.mark = s.que.mark)
    (hwaits : s'.que.suspendedThreads ≠ [] → s.que.suspendedThreads ≠ [])
    (hdecrease : events.countP WmEvent.isDecrease = 0) (hraises : events.countP WmEvent.raises = 0)
    (hlate : events.countP WmEvent.isLate = 0)
    (hcalls : ∀ t ∈ s'.que.suspendedThreads, ∃ timeout, s'.call (.thread t) = some (.inc timeout)) :
    WmInv (trace ++ events) s' := by
  refine ⟨hlevel ▸ h.lt, ?_, fun hne => ?_, hcalls⟩
  · have hold := h.level
    rw [List.countP_append, List.countP_append, List.countP_append]
    omega
  · rw [hlevel, hmark]
    exact h.waits (hwaits hne)

theorem WmInv.incLoop (h : WmInv trace s) (hwait : ¬ s.Waiting c) (hs : wmIncLoop s c timeout = some (s', events)) :
    WmInv (trace ++ events) s' := by
  unfold wmIncLoop at hs
  by_cases hhigh : s.que.mark.high < s.que.level
  · rw [if_pos hhigh] at hs
    split at hs
    · cases hs
      exact h.sameLevel rfl rfl id rfl rfl rfl (h.calls_setCall hwait none)
    · cases c with
      | interrupt n => cases hs
      | thread t =>
        obtain ⟨timer, -, heq⟩ := Option.map_eq_some_iff.1 hs
        cases heq
        rw [List.append_nil]
        refine ⟨h.lt, h.level, fun _ => Nat.lt_of_le_of_lt s.que.mark.low_le_high hhigh, fun u hu => ?_⟩
        rcases List.mem_cons.1 hu with rfl | hu
        · exact ⟨timeout, update_self ..⟩
        · exact h.calls_setCall hwait _ u hu
  · rw [if_neg hhigh] at hs
    cases hs
    have hlevel : ((s.setLevel (wmLevelInc s.que.level)).setCall c none).que.level =
      if s.que.level + 1 < 2 ^ 32 then s.que.level + 1 else s.que.level := wmLevelInc_eq h.lt
    have hold := h.level
    have hlt := h.lt
    refine ⟨?_, ?_, fun hne => ?_, h.calls_setCall hwait none⟩
    · rw [hlevel]
      split <;> omega
    · rw [hlevel, List.countP_append, List.countP_append, List.countP_append]
      simp only [List.countP_singleton, WmEvent.isDecrease, WmEvent.raises, WmEvent.isLate, decide_eq_true_eq]
      split <;> simp <;> omega
    · have hlow : s.que.mark.low < s.que.level := h.waits hne
      show s.que.mark.low < ((s.setLevel (wmLevelInc s.que.level)).setCall c none).que.level
      rw [hlevel]
      split <;> omega

theorem WmState.resumeAll_que : s.resumeAll.que = { s.que with suspendedThreads := [] } := by
  have hloop : ∀ (l : List ThreadId) (s : WmState),
      (l.foldl (fun s t => s.setThread t fun thread => { thread with timer := false }) s).que = s.que := by
    intro l
    induction l with
    | nil => exact fun _ => rfl
    | cons t l ih => exact fun s => ih _
  exact hloop _ _

theorem WmState.resumeAll_call : s.resumeAll.call = s.call := by
  have hloop : ∀ (l : List ThreadId) (s : WmState),
      (l.foldl (fun s t => s.setThread t fun thread => { thread with timer := false }) s).call = s.call := by
    intro l
    induction l with
    | nil => exact fun _ => rfl
    | cons t l ih => exact fun s => ih _
  exact hloop _ _

theorem WmState.resumeAll_timer (ht : t ∈ s.que.suspendedThreads) : (s.resumeAll.thread t).timer = false := by
  have hloop : ∀ (l : List ThreadId) (s : WmState), t ∈ l ∨ (s.thread t).timer = false →
      ((l.foldl (fun s t => s.setThread t fun thread => { thread with timer := false }) s).thread t).timer = false := by
    intro l
    induction l with
    | nil => exact fun _ hor => hor.resolve_left List.not_mem_nil
    | cons u l ih =>
      intro s hor
      refine ih _ ?_
      by_cases heq : t = u
      · subst heq
        refine .inr ?_
        simp only [WmState.setThread, update_self]
      · have hkeep : (s.setThread u fun thread => { thread with timer := false }).thread t = s.thread t := update_of_ne heq ..
        rw [hkeep]
        exact hor.imp_left fun hmem => (List.mem_cons.1 hmem).resolve_left heq
  exact hloop _ _ (.inl ht)

theorem WmState.lower_que : (s.lower c).que = { s.que with level := wmLevelDec s.que.level } := rfl

theorem WmState.setLevel_call (level : Nat) : (s.setLevel level).call = s.call := rfl

theorem WmState.setLevel_thread (level : Nat) : (s.setLevel level).thread = s.thread := rfl

theorem WmState.setCall_call (call : Option WmCall) : (s.setCall c call).call = update s.call c call := rfl

theorem WmState.setCall_thread (call : Option WmCall) : (s.setCall c call).thread = s.thread := rfl

theorem WmState.lower_call : (s.lower c).call = update s.call c none := by
  rw [WmState.lower, WmState.setCall_call, WmState.setLevel_call]

theorem WmState.lower_thread : (s.lower c).thread = s.thread := by
  rw [WmState.lower, WmState.setCall_thread, WmState.setLevel_thread]

/-- Inside its critical section a decrement changes the call of its own caller only. -/
theorem wmDecrement_calls : (wmDecrement s c).1.call = update s.call c none ∧
    ∀ t ∈ (wmDecrement s c).1.que.suspendedThreads, t ∈ s.que.suspendedThreads := by
  by_cases hlow : (s.lower c).que.level = s.que.mark.low
  · rw [wmDecrement, if_pos hlow, WmState.resumeAll_call, WmState.resumeAll_que]
    exact ⟨WmState.lower_call, fun _ ht => absurd ht List.not_mem_nil⟩
  · rw [wmDecrement, if_neg hlow, WmState.lower_que]
    exact ⟨WmState.lower_call, fun _ ht => ht⟩

theorem WmInv.decrement (h : WmInv trace s) (hwait : ¬ s.Waiting c) : WmInv (trace ++ (wmDecrement s c).2) (wmDecrement s c).1 := by
  have hlevel : (wmDecrement s c).1.que.level = if s.que.level = 0 then 2 ^ 32 - 1 else s.que.level - 1 := by
    rw [← wmLevelDec_eq h.lt]
    by_cases hlow : (s.lower c).que.level = s.que.mark.low
    · rw [wmDecrement, if_pos hlow, WmState.resumeAll_que]
      rfl
    · rw [wmDecrement, if_neg hlow]
      rfl
  have hold := h.level
  have hlt := h.lt
  refine ⟨?_, ?_, fun hne => ?_, fun t ht => ?_⟩
  · rw [hlevel]
    split <;> omega
  · rw [hlevel, List.countP_append, List.countP_append, List.countP_append]
    by_cases hzero : s.que.level = 0
    · simp [wmDecrement, WmEvent.isDecrease, WmEvent.raises, WmEvent.isLate, hzero]
      omega
    · simp [wmDecrement, WmEvent.isDecrease, WmEvent.raises, WmEvent.isLate, hzero]
      omega
  · by_cases hlow : (s.lower c).que.level = s.que.mark.low
    · rw [wmDecrement, if_pos hlow, WmState.resumeAll_que] at hne
      exact absurd rfl hne
    · rw [wmDecrement, if_neg hlow, WmState.lower_que] at hne
      have hwait : s.que.mark.low < s.que.level := h.waits hne
      rw [WmState.lower_que, wmLevelDec_eq hlt, if_neg (by omega)] at hlow
      rw [wmDecrement, if_neg (by rw [WmState.lower_que, wmLevelDec_eq hlt, if_neg (by omega)]; exact hlow),
        WmState.lower_que, wmLevelDec_eq hlt, if_neg (by omega)]
      dsimp only at hlow ⊢
      omega
  · rw [wmDecrement_calls.1]
    exact h.calls_setCall hwait none t (wmDecrement_calls.2 t ht)

theorem WmInv.step (h : WmInv trace s) (hs : stepWm s op = some (s', events)) : WmInv (trace ++ events) s' := by
  cases op with
  | inc c timeout =>
    simp only [stepWm] at hs
    split at hs
    · rename_i hcall
      have hwait : ¬ s.Waiting c := h.not_waiting (by simp [hcall])
      cases c with
      | interrupt n =>
        simp only [rtWmQueInc] at hs
        split at hs
        · exact h.incLoop hwait hs
        · cases hs
      | thread t => exact h.incLoop hwait hs
    · cases hs
  | dec c =>
    simp only [stepWm, rtWmQueDec] at hs
    split at hs
    · rename_i hcall
      have hwait : ¬ s.Waiting c := h.not_waiting (by simp [hcall])
      split at hs
      · cases hs
        exact h.sameLevel rfl rfl id rfl rfl rfl h.calls
      · cases hs
        exact h.sameLevel rfl rfl id rfl rfl rfl (h.calls_setCall hwait _)
    · cases hs
  | resume c =>
    simp only [stepWm] at hs
    split at hs
    · cases hs
    · rename_i hwait
      split at hs
      · cases hs
      · split at hs
        · cases hs
          exact h.sameLevel rfl rfl id rfl rfl rfl (h.calls_setCall hwait none)
        · exact h.incLoop hwait hs
      · have hstep := h.decrement hwait
        rwa [Option.some.inj hs] at hstep
  | timeout t =>
    simp only [stepWm] at hs
    split at hs
    · rename_i hwait
      cases hs
      exact h.sameLevel rfl rfl (fun _ => List.ne_nil_of_mem hwait.1) rfl rfl rfl
        fun u hu => h.calls u (List.mem_of_mem_erase hu)
    · cases hs

theorem wmInv_of_run (hrun : WmRun mark priority trace s) : WmInv trace s := by
  refine hrun.invariant (I := WmInv) ⟨Nat.two_pow_pos 32, rfl, fun hne => absurd rfl hne, fun _ ht => absurd ht List.not_mem_nil⟩ ?_
  intro trace s op s' events h _ hs
  exact h.step hs

theorem wmIncLoop_room (hroom : s.que.level ≤ s.que.mark.high) : wmIncLoop s c timeout =
    some ((s.setLevel (wmLevelInc s.que.level)).setCall c none, [.increased c s.que.level]) := by
  unfold wmIncLoop
  rw [if_neg (Nat.not_lt.2 hroom)]

theorem WmInv.callsRight (h : WmInv trace s) : WmCallsRight s where
  increments c timeout hcall hthread hroom := by
    have hinc : rtWmQueInc s c timeout = wmIncLoop s c timeout := by
      cases c with
      | thread t => rfl
      | interrupt n => exact if_pos (hthread.resolve_right fun ⟨t, heq⟩ => Caller.noConfusion heq)
    exact ⟨_, (if_pos hcall).trans (hinc.trans (wmIncLoop_room hroom)), update_self .., rfl, wmLevelInc_eq h.lt⟩
  continues t timeout hcall hwait herror hroom := by
    have hstep : stepWm s (.resume (.thread t)) = wmIncLoop s (.thread t) timeout := by
      have hawake : ¬ s.Waiting (.thread t) := hwait
      simp only [stepWm]
      rw [if_neg hawake, hcall]
      exact if_neg (not_not.2 herror)
    exact ⟨_, hstep.trans (wmIncLoop_room hroom), update_self ..⟩
  skips c hcall hzero := by rw [stepWm, if_pos hcall, rtWmQueDec, if_pos hzero]
  begins c hcall hpos :=
    ⟨s.setCall c (some .dec), by rw [stepWm, if_pos hcall, rtWmQueDec, if_neg hpos.ne'], update_self .., rfl⟩
  lowers c hcall hpos := by
    have hwait : ¬ s.Waiting c := h.not_waiting (by simp [hcall])
    have hstep : stepWm s (.resume c) = some (wmDecrement s c) := by
      simp only [stepWm]
      rw [if_neg hwait, hcall]
    have hlevel : (s.lower c).que.level = s.que.level - 1 := by
      rw [WmState.lower_que, wmLevelDec_eq h.lt, if_neg hpos.ne']
    have hdone : (s.lower c).call c = none := by rw [WmState.lower_call, update_self]
    by_cases hlow : s.que.level - 1 = s.que.mark.low
    · rw [wmDecrement, if_pos (hlevel.trans hlow)] at hstep
      refine ⟨_, hstep, ?_, ?_, ?_⟩
      · rw [WmState.resumeAll_call, hdone]
      · rw [WmState.resumeAll_que, hlevel]
      · rw [if_pos hlow, WmState.resumeAll_que]
        refine ⟨rfl, fun t ht => WmState.resumeAll_timer ?_⟩
        rwa [WmState.lower_que]
    · rw [wmDecrement, if_neg (hlevel ▸ hlow)] at hstep
      refine ⟨_, hstep, hdone, hlevel, ?_⟩
      rw [if_neg hlow, WmState.lower_que]
      exact ⟨rfl, WmState.lower_thread⟩

/-- The level is the number of increments, apart from those at the greatest number, less the number of decrements, in exactly the runs in which no decrement finds zero in its critical section. In every run no thread waits once the level has come down to the low mark, and the calls do what they are for. -/
theorem wmLevel_of_run (hrun : WmRun mark priority trace s) :
    ((∀ c, .decreased c 0 ∉ trace) ↔ s.que.level + trace.countP WmEvent.isDecrease = trace.countP WmEvent.raises) ∧
      (s.que.level ≤ s.que.mark.low → s.que.suspendedThreads = []) ∧ WmCallsRight s := by
  have h := wmInv_of_run hrun
  have hlate : trace.countP WmEvent.isLate = 0 ↔ ∀ c, .decreased c 0 ∉ trace := by
    rw [List.countP_eq_zero]
    constructor
    · intro hall c hc
      exact hall _ hc rfl
    · intro hnone e he
      cases e with
      | decreased c level =>
        intro hzero
        obtain rfl : level = 0 := of_decide_eq_true hzero
        exact hnone c he
      | _ => exact Bool.false_ne_true
  have hlevel := h.level
  constructor
  · rw [← hlate]
    constructor <;> intro heq <;> omega
  · refine ⟨fun hle => ?_, h.callsRight⟩
    by_contra hne
    exact absurd (h.waits hne) (Nat.not_lt.2 hle)

/-- A thread waits, and the decrement that brings the level to the low mark is at its critical section: it wakes the thread. -/
theorem wmLevel_of_wakeup : ∃ trace s s', WmRun ⟨0, 0, Nat.le_refl 0, by decide⟩ (fun _ => 0) trace s ∧
    ((∀ c, .decreased c 0 ∉ trace) ↔ s.que.level + trace.countP WmEvent.isDecrease = trace.countP WmEvent.raises) ∧
    s.que.suspendedThreads = [1] ∧ stepWm s (.resume (.interrupt 0)) = some (s', [.decreased (.interrupt 0) 1]) ∧
      s'.que.suspendedThreads = [] ∧ (s'.thread 1).timer = false := by
  obtain ⟨trace, s, hrun, hfound⟩ := @Transition.exists_run_of_exec _ _ _ stepWm (fun _ _ => True)
    (.init ⟨0, 0, Nat.le_refl 0, by decide⟩ fun _ => 0) _
    [.inc (.thread 0) 5, .inc (.thread 1) 5, .dec (.interrupt 0)]
    (fun _ s => decide (s.que.suspendedThreads = [1] ∧ s.que.level = 1 ∧ s.que.mark.low = 0 ∧
      s.call (.interrupt 0) = some .dec)) (by decide)
  obtain ⟨hwaiting, hone, hlow, hcall⟩ := of_decide_eq_true hfound
  obtain ⟨hlevel, -, hcalls⟩ := wmLevel_of_run hrun
  obtain ⟨s', hs, -, -, hwake⟩ := hcalls.lowers (.interrupt 0) hcall (by omega)
  rw [if_pos (by omega), hwaiting] at hwake
  exact ⟨trace, s, s', hrun, hlevel, hwaiting, hone ▸ hs, hwake.1, hwake.2 1 (List.mem_singleton_self 1)⟩

theorem WmState.setCall_none (hcall : s.call c = none) : s.setCall c none = s := by
  have hupdate : update s.call c none = s.call := by
    rw [← hcall]
    exact update_eq_self ..
  rw [WmState.setCall, hupdate]

theorem stepWm_increment (hcall : s.call (.interrupt 0) = none) (hroom : ¬ s.que.mark.high < s.que.level) :
    stepWm s (.inc (.interrupt 0) 0) =
      some (s.setLevel (wmLevelInc s.que.level), [.increased (.interrupt 0) s.que.level]) := by
  have hkeep : (s.setLevel (wmLevelInc s.que.level)).call (.interrupt 0) = none := hcall
  rw [stepWm, if_pos hcall, rtWmQueInc, if_pos rfl, wmIncLoop, if_neg hroom, WmState.setCall_none hkeep]

theorem wmRun_increments (priority : ThreadId → Nat) (n : Nat) (hn : n < 2 ^ 32) :
    WmRun ⟨0, 2 ^ 32 - 1, by decide, by decide⟩ priority ((List.range n).map fun level => .increased (.interrupt 0) level)
      ((WmState.init ⟨0, 2 ^ 32 - 1, by decide, by decide⟩ priority).setLevel n) := by
  induction n with
  | zero => exact .start
  | succ n ih =>
    rw [List.range_succ, List.map_append]
    have hroom : ¬ 2 ^ 32 - 1 < n := by omega
    have hinc : wmLevelInc n = n + 1 := by rw [wmLevelInc_eq (by omega), if_pos hn]
    refine (ih (by omega)).next trivial ((stepWm_increment rfl hroom).trans ?_)
    simp only [WmState.setLevel, hinc, List.map_singleton]

/-- The increment at the greatest number leaves the level there; and of two decrements that have both found one, the second takes the level below zero. -/
theorem wmLevel_fails :
    (∃ trace s, WmRun ⟨0, 2 ^ 32 - 1, by decide, by decide⟩ (fun _ => 0) trace s ∧
      s.que.level + trace.countP WmEvent.isDecrease ≠ trace.countP WmEvent.isIncrease) ∧
    ∃ trace s, WmRun ⟨0, 0, Nat.le_refl 0, by decide⟩ (fun _ => 0) trace s ∧ s.que.level = 2 ^ 32 - 1 ∧
      s.que.level + trace.countP WmEvent.isDecrease ≠ trace.countP WmEvent.isIncrease := by
  constructor
  · have hmax := wmRun_increments (fun _ => 0) (2 ^ 32 - 1) (by decide)
    have hlast := hmax.next trivial (stepWm_increment rfl (Nat.lt_irrefl _))
    refine ⟨_, _, hlast, ?_⟩
    have hdecrease : ((List.range (2 ^ 32 - 1)).map fun level => WmEvent.increased (.interrupt 0) level).countP WmEvent.isDecrease = 0 := by
      rw [List.countP_map, List.countP_eq_zero]
      exact fun _ _ => Bool.false_ne_true
    have hincrease : ((List.range (2 ^ 32 - 1)).map fun level => WmEvent.increased (.interrupt 0) level).countP WmEvent.isIncrease =
        2 ^ 32 - 1 := by
      rw [List.countP_map]
      exact (List.countP_eq_length.2 fun _ _ => rfl).trans List.length_range
    rw [List.countP_append, List.countP_append, hdecrease, hincrease]
    decide
  · obtain ⟨trace, s, hrun, hfound⟩ := @Transition.exists_run_of_exec _ _ _ stepWm (fun _ _ => True)
      (.init ⟨0, 0, Nat.le_refl 0, by decide⟩ fun _ => 0) _
      [.inc (.thread 0) 0, .dec (.thread 1), .dec (.interrupt 0), .resume (.interrupt 0), .resume (.thread 1)]
      (fun trace s => decide (s.que.level = 2 ^ 32 - 1 ∧
        s.que.level + trace.countP WmEvent.isDecrease ≠ trace.countP WmEvent.isIncrease)) (by decide)
    obtain ⟨hlevel, hne⟩ := of_decide_eq_true hfound
    exact ⟨trace, s, hrun, hlevel, hne⟩

end RtThread
