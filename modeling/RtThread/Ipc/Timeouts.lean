import RtThread.Ipc.WaitList
import RtThread.Lib.Transition
import RtThread.Timer.Timers

/-!
# Timeouts of the waiting loops

A call that waits for a mail, a message, a block, a cell or an item tests its condition in a loop. It suspends the thread with a timeout, and when the thread goes on it tests again, because another thread may have been faster. The loops of `ipc.c` and `mempool.c` subtract the ticks that have passed from the timeout first; those of `dataqueue.c` and `prio_queue.c` do not.

The call is followed alone here: whether its condition is met at a test, who wakes the thread, and how long the thread is ready before it goes on is left open.
-/

namespace RtThread

structure TimedLoop where
  /-- "if it's not waiting forever and then re-calculate timeout tick" -/
  recalculates : Bool
  /-- What the call returns where the timeout is zero: "no waiting, return timeout". -/
  noWaiting : IpcErr
  deriving DecidableEq

namespace TimedLoop

def rtMbSendWait : TimedLoop := ⟨true, .efull⟩

def rtMbRecv : TimedLoop := ⟨true, .etimeout⟩

def rtMqRecv : TimedLoop := ⟨true, .etimeout⟩

/-- It returns `RT_NULL`, and the error is the `errno` of the thread. -/
def rtMpAlloc : TimedLoop := ⟨true, .etimeout⟩

def rtDataQueuePush : TimedLoop := ⟨false, .etimeout⟩

def rtDataQueuePop : TimedLoop := ⟨false, .etimeout⟩

def rtPrioQueuePop : TimedLoop := ⟨false, .etimeout⟩

def all : List TimedLoop :=
  [rtMbSendWait, rtMbRecv, rtMqRecv, rtMpAlloc, rtDataQueuePush, rtDataQueuePop, rtPrioQueuePop]

def refused (f : TimedLoop) (timeout : Int) : Option (IpcErr ⊕ Bool) :=
  if timeout = 0 then some (.inl f.noWaiting) else (timeoutTimer timeout).map .inr

def again (f : TimedLoop) (timeout : Int) (start now : BitVec 32) : Int :=
  if f.recalculates then recalculateTimeout timeout start now else timeout

end TimedLoop

inductive TimedAt
  | test
  | suspended
  | ready (code : IpcErr)
  | returned (result : IpcErr)
  deriving DecidableEq

structure TimedCall where
  timeout : Int
  /-- `tick_delta` or `before_sleep`: the tick when the thread has been suspended. -/
  start : BitVec 32
  tick : BitVec 32
  /-- `timeout_tick` of the thread timer, while that is started. -/
  deadline : Option (BitVec 32)
  pc : TimedAt
  /-- The ticks that the thread timer has consumed in this call. -/
  spent : Nat
  /-- The ticks since the thread has been suspended the last time. -/
  elapsed : Nat
  deriving DecidableEq

inductive TimedOp
  | test (met : Bool)
  /-- Somebody resumes the thread, and has set its error code. -/
  | wake (code : IpcErr)
  /-- The thread goes on behind `rt_schedule`. -/
  | proceed
  | tick
  deriving DecidableEq

/-- The codes with which a thread is resumed by others: it may try again, the object is deleted, or a signal is delivered. -/
def wakeErrors : List IpcErr := [.eok, .error, .eintr]

namespace TimedCall

def tested (f : TimedLoop) (s : TimedCall) (met : Bool) : Option TimedCall :=
  if met then some { s with pc := .returned .eok }
  else
    (f.refused s.timeout).map fun r =>
      match r with
      | .inl result => { s with pc := .returned result }
      | .inr timer =>
        { s with
          start := s.tick
          deadline := if timer then some (s.tick + BitVec.ofInt 32 s.timeout) else none
          pc := .suspended
          elapsed := 0 }

/-- The thread goes on behind `rt_schedule`. -/
def proceeds (f : TimedLoop) (s : TimedCall) : IpcErr → TimedCall
  | .eok => { s with timeout := f.again s.timeout s.start s.tick, pc := .test }
  | code => { s with pc := .returned code }

/-- A tick: `rt_timer_check` runs the thread timer if that is due. -/
def ticked (s : TimedCall) : TimedCall :=
  let next := { s with tick := s.tick + 1, elapsed := s.elapsed + 1 }
  match s.deadline with
  | none => next
  | some deadline =>
    -- `rt_thread_timeout`
    if s.tick + 1 - deadline < halfTick then { next with deadline := none, pc := .ready .etimeout, spent := s.spent + 1 }
    else { next with spent := s.spent + 1 }

end TimedCall

def stepTimed (f : TimedLoop) (s : TimedCall) : TimedOp → Option (TimedCall × List Unit)
  | .test met => if s.pc = .test then (s.tested f met).map fun s => (s, []) else none
  | .wake code =>
    if s.pc = .suspended ∧ code ∈ wakeErrors then some ({ s with deadline := none, pc := .ready code }, []) else none
  | .proceed =>
    match s.pc with
    | .ready code => some (s.proceeds f code, [])
    | _ => none
  | .tick => some (s.ticked, [])

def TimedCall.begin (timeout : Nat) (tick : BitVec 32) : TimedCall := ⟨timeout, 0, tick, none, .test, 0, 0⟩

abbrev TimedRun (f : TimedLoop) (timeout : Nat) (tick : BitVec 32) (ok : TimedCall → TimedOp → Prop) :
    List Unit → TimedCall → Prop :=
  Transition.Run (stepTimed f) ok (.begin timeout tick)

structure WaitsBounded (timeout : Nat) (s : TimedCall) : Prop where
  spent_le : s.spent ≤ timeout
  /-- When the timeout is used up, the call returns with a timeout error. -/
  expires : s.spent = timeout → s.pc = .ready .etimeout ∨ s.pc = .returned .etimeout
  /-- The call returns because its condition is met, with a timeout error, or with the error with which it was resumed. -/
  result : ∀ result, s.pc = .returned result → result = .etimeout ∨ result ∈ wakeErrors

/-- A loop that does not subtract the ticks does not suspend the thread again after some have passed; where the remaining timeout is zero the loop has a timeout error to return; and the thread is not ready for so long that the subtraction wraps around. -/
def WithinTimeout (f : TimedLoop) (s : TimedCall) : TimedOp → Prop
  | .test false => (f.recalculates = false → s.spent = 0) ∧ (s.timeout = 0 → f.noWaiting = .etimeout)
  | .proceed => f.recalculates → s.pc = .ready .eok → (s.elapsed : Int) ≤ s.timeout + 2 ^ 31
  | _ => True

instance (f : TimedLoop) (s : TimedCall) (op : TimedOp) : Decidable (WithinTimeout f s op) := by
  unfold WithinTimeout
  split <;> infer_instance

variable {f : TimedLoop} {T : Nat} {tick₀ : BitVec 32} {s s' : TimedCall} {op : TimedOp} {trace events : List Unit}

/-! ## The arithmetic of ticks -/

theorem due_iff {tick : BitVec 32} {left : Nat} (hpos : 0 < left) (hlt : left < 2 ^ 31) :
    tick + 1 - (tick + BitVec.ofNat 32 left) < halfTick ↔ left = 1 := by
  rw [add_sub_add_left_eq_sub, BitVec.lt_def, BitVec.toNat_sub, BitVec.toNat_ofNat]
  rw [Nat.mod_eq_of_lt (show left < 2 ^ 32 by omega)]
  have hhalf : halfTick.toNat = 2 ^ 31 - 1 := rfl
  have hone : (1 : BitVec 32).toNat = 1 := rfl
  rw [hhalf, hone]
  omega

theorem deadline_next (tick : BitVec 32) {left : Nat} (hpos : 0 < left) :
    tick + BitVec.ofNat 32 left = tick + 1 + BitVec.ofNat 32 (left - 1) := by
  obtain ⟨n, rfl⟩ : ∃ n, left = n + 1 := ⟨left - 1, by omega⟩
  rw [Nat.add_sub_cancel, BitVec.add_assoc, BitVec.ofNat_add, BitVec.add_comm (BitVec.ofNat 32 n)]
  rfl

theorem recalculateTimeout_eq {timeout : Int} {start : BitVec 32} {elapsed : Nat} (hpos : 0 < timeout)
    (hlt : timeout < 2 ^ 31) (hwrap : (elapsed : Int) ≤ timeout + 2 ^ 31) :
    recalculateTimeout timeout start (start + BitVec.ofNat 32 elapsed) = max 0 (timeout - elapsed) := by
  have hremaining : (BitVec.ofInt 32 timeout - (start + BitVec.ofNat 32 elapsed - start)).toInt = timeout - elapsed := by
    rw [add_sub_cancel_left, BitVec.toInt_sub, BitVec.toInt_ofInt, BitVec.toInt_ofNat', Int.bmod_sub_bmod, Int.sub_bmod_bmod]
    apply Int.bmod_eq_of_le <;> omega
  rw [recalculateTimeout, if_pos hpos, hremaining]
  dsimp only
  split <;> omega

/-! ## The invariant -/

structure Tries (f : TimedLoop) (T : Nat) (s : TimedCall) : Prop where
  spent_lt : s.spent < T
  nonneg : 0 ≤ s.timeout
  lt : s.timeout < 2 ^ 31
  left : f.recalculates → s.spent + s.timeout ≤ T
  whole : f.recalculates = false → s.timeout = T

/-- The loop has suspended the thread, and no more than the timeout is consumed when that has passed. -/
structure Armed (f : TimedLoop) (T : Nat) (s : TimedCall) : Prop where
  spent_lt : s.spent < T
  pos : 0 < s.timeout
  lt : s.timeout < 2 ^ 31
  left : s.spent + s.timeout ≤ T + s.elapsed
  tick : s.tick = s.start + BitVec.ofNat 32 s.elapsed
  whole : f.recalculates = false → s.timeout = T

/-- The call returns with this result, or the thread has been resumed with it. -/
structure Ends (T : Nat) (s : TimedCall) (code : IpcErr) : Prop where
  spent_le : s.spent ≤ T
  expires : s.spent = T → code = .etimeout
  code : code = .etimeout ∨ code ∈ wakeErrors

structure TimedInv (f : TimedLoop) (T : Nat) (s : TimedCall) : Prop where
  test : s.pc = .test → Tries f T s
  suspended : s.pc = .suspended → Armed f T s ∧ s.elapsed < s.timeout.toNat ∧
    s.deadline = some (s.tick + BitVec.ofNat 32 (s.timeout.toNat - s.elapsed))
  ready : ∀ code, s.pc = .ready code → Ends T s code ∧ (code = .eok → Armed f T s)
  returned : ∀ result, s.pc = .returned result → Ends T s result
  stopped : s.pc ≠ .suspended → s.deadline = none

theorem TimedInv.bounded (h : TimedInv f T s) : WaitsBounded T s := by
  have hspent : s.spent ≤ T ∧ (s.spent = T → s.pc = .ready .etimeout ∨ s.pc = .returned .etimeout) := by
    cases hpc : s.pc with
    | test =>
      have hlt := (h.test hpc).spent_lt
      exact ⟨hlt.le, fun heq => absurd heq hlt.ne⟩
    | suspended =>
      have hlt := (h.suspended hpc).1.spent_lt
      exact ⟨hlt.le, fun heq => absurd heq hlt.ne⟩
    | ready code =>
      have hends := (h.ready code hpc).1
      exact ⟨hends.spent_le, fun heq => .inl (by rw [hends.expires heq])⟩
    | returned result =>
      have hends := h.returned result hpc
      exact ⟨hends.spent_le, fun heq => .inr (by rw [hends.expires heq])⟩
  exact ⟨hspent.1, hspent.2, fun result hpc => (h.returned result hpc).code⟩

theorem timedInv_begin (hpos : 0 < T) (hlt : T < 2 ^ 31) : TimedInv f T (.begin T tick₀) where
  test _ := by
    refine ⟨hpos, Int.natCast_nonneg T, ?_, fun _ => ?_, fun _ => rfl⟩
    · change (T : Int) < 2 ^ 31
      omega
    · change ((0 : Nat) : Int) + (T : Int) ≤ T
      omega
  suspended hpc := by cases hpc
  ready code hpc := by cases hpc
  returned result hpc := by cases hpc
  stopped _ := rfl

/-! ## The steps -/

theorem TimedInv.return {result : IpcErr} (h : TimedInv f T s) (hpc : s.pc = .test)
    (hresult : result = .etimeout ∨ result ∈ wakeErrors) : TimedInv f T { s with pc := .returned result } := by
  have htries := h.test hpc
  have hstopped := h.stopped (by rw [hpc]; exact TimedAt.noConfusion)
  refine ⟨TimedAt.noConfusion, TimedAt.noConfusion, fun _ => TimedAt.noConfusion, fun _ heq => ?_, fun _ => hstopped⟩
  obtain rfl := TimedAt.returned.inj heq
  exact ⟨htries.spent_lt.le, fun heq => absurd heq htries.spent_lt.ne, hresult⟩

theorem TimedInv.suspend (h : TimedInv f T s) (hpc : s.pc = .test) (hpos : 0 < s.timeout)
    (hok : f.recalculates = false → s.spent = 0) :
    TimedInv f T { s with
      start := s.tick
      deadline := some (s.tick + BitVec.ofInt 32 s.timeout)
      pc := .suspended
      elapsed := 0 } := by
  have htries := h.test hpc
  have hword : BitVec.ofInt 32 s.timeout = BitVec.ofNat 32 s.timeout.toNat := by
    conv_lhs => rw [← Int.toNat_of_nonneg htries.nonneg]
    rfl
  refine ⟨TimedAt.noConfusion, fun _ => ⟨?_, ?_, ?_⟩, fun _ => TimedAt.noConfusion, fun _ => TimedAt.noConfusion,
    fun hno => absurd rfl hno⟩
  · refine ⟨htries.spent_lt, hpos, htries.lt, ?_, ?_, htries.whole⟩
    · change (s.spent : Int) + s.timeout ≤ T + ((0 : Nat) : Int)
      cases hrecalculates : f.recalculates with
      | true =>
        have hleft := htries.left hrecalculates
        omega
      | false =>
        have hwhole := htries.whole hrecalculates
        have hspent := hok hrecalculates
        omega
    · exact (BitVec.add_zero s.tick).symm
  · change 0 < s.timeout.toNat
    omega
  · rw [hword]
    rfl

theorem TimedInv.tested {met : Bool} (h : TimedInv f T s) (hpc : s.pc = .test) (hok : WithinTimeout f s (.test met))
    (hs : s.tested f met = some s') : TimedInv f T s' := by
  have htries := h.test hpc
  cases met with
  | true =>
    obtain rfl := Option.some.inj hs
    exact h.return hpc (.inr (by decide))
  | false =>
    rw [TimedCall.tested, if_neg Bool.false_ne_true, TimedLoop.refused] at hs
    by_cases hzero : s.timeout = 0
    · rw [if_pos hzero] at hs
      obtain rfl := Option.some.inj hs
      exact h.return hpc (.inl (hok.2 hzero))
    · have hpos : 0 < s.timeout := lt_of_le_of_ne htries.nonneg (Ne.symm hzero)
      rw [if_neg hzero, timeoutTimer, if_pos hpos] at hs
      split at hs
      · obtain rfl := Option.some.inj hs
        exact h.suspend hpc hpos hok.1
      · cases hs

theorem TimedInv.wake {code : IpcErr} (h : TimedInv f T s) (hpc : s.pc = .suspended) (hcode : code ∈ wakeErrors) :
    TimedInv f T { s with deadline := none, pc := .ready code } := by
  have harmed := (h.suspended hpc).1
  refine ⟨TimedAt.noConfusion, TimedAt.noConfusion, fun _ heq => ?_, fun _ => TimedAt.noConfusion, fun _ => rfl⟩
  obtain rfl := TimedAt.ready.inj heq
  refine ⟨⟨harmed.spent_lt.le, fun heq => absurd heq harmed.spent_lt.ne, .inr hcode⟩, fun _ => ?_⟩
  exact ⟨harmed.spent_lt, harmed.pos, harmed.lt, harmed.left, harmed.tick, harmed.whole⟩

theorem Armed.again (h : Armed f T s) (hok : f.recalculates → (s.elapsed : Int) ≤ s.timeout + 2 ^ 31) :
    Tries f T { s with timeout := f.again s.timeout s.start s.tick, pc := .test } := by
  cases hrecalculates : f.recalculates with
  | true =>
    have hagain : f.again s.timeout s.start s.tick = max 0 (s.timeout - s.elapsed) := by
      rw [TimedLoop.again, if_pos hrecalculates, h.tick]
      exact recalculateTimeout_eq h.pos h.lt (hok hrecalculates)
    rw [hagain]
    have hlt := h.lt
    have hleft := h.left
    have hspent := h.spent_lt
    refine ⟨hspent, ?_, ?_, fun _ => ?_, fun hno => absurd (hrecalculates.symm.trans hno) Bool.noConfusion⟩
    · exact le_max_left 0 _
    · change max 0 (s.timeout - s.elapsed) < 2 ^ 31
      omega
    · change (s.spent : Int) + max 0 (s.timeout - s.elapsed) ≤ T
      omega
  | false =>
    have hagain : f.again s.timeout s.start s.tick = s.timeout := by
      rw [TimedLoop.again, hrecalculates, if_neg Bool.false_ne_true]
    rw [hagain]
    exact ⟨h.spent_lt, h.pos.le, h.lt, fun hno => absurd (hno.symm.trans hrecalculates) Bool.noConfusion, fun _ => h.whole hrecalculates⟩

theorem TimedInv.proceeds {code : IpcErr} (h : TimedInv f T s) (hpc : s.pc = .ready code)
    (hok : WithinTimeout f s .proceed) : TimedInv f T (s.proceeds f code) := by
  have hstopped := h.stopped (by rw [hpc]; exact TimedAt.noConfusion)
  obtain ⟨hends, harmed⟩ := h.ready code hpc
  by_cases heok : code = .eok
  · subst heok
    refine ⟨fun _ => ?_, TimedAt.noConfusion, fun _ => TimedAt.noConfusion, fun _ => TimedAt.noConfusion, fun _ => hstopped⟩
    exact (harmed rfl).again fun hrecalculates => hok hrecalculates hpc
  · have hreturns : s.proceeds f code = { s with pc := .returned code } := by
      cases code with
      | eok => exact absurd rfl heok
      | _ => rfl
    rw [hreturns]
    refine ⟨TimedAt.noConfusion, TimedAt.noConfusion, fun _ => TimedAt.noConfusion, fun _ heq => ?_, fun _ => hstopped⟩
    obtain rfl := TimedAt.returned.inj heq
    exact ⟨hends.spent_le, hends.expires, hends.code⟩

theorem Armed.ticked {pc : TimedAt} {deadline : Option (BitVec 32)} (h : Armed f T s) {spent : Nat} (hlt : spent < T)
    (hspent : spent ≤ s.spent + 1) :
    Armed f T { s with tick := s.tick + 1, deadline, pc, spent, elapsed := s.elapsed + 1 } := by
  have hleft := h.left
  refine ⟨hlt, h.pos, h.lt, ?_, ?_, h.whole⟩
  · change (spent : Int) + s.timeout ≤ T + ((s.elapsed + 1 : Nat) : Int)
    omega
  · change s.tick + 1 = s.start + BitVec.ofNat 32 (s.elapsed + 1)
    rw [h.tick, BitVec.add_assoc, BitVec.ofNat_add]
    rfl

theorem TimedInv.ticked_suspended (h : TimedInv f T s) (hpc : s.pc = .suspended) : TimedInv f T s.ticked := by
  obtain ⟨harmed, helapsed, hdeadline⟩ := h.suspended hpc
  have hpos := harmed.pos
  have hlt := harmed.lt
  have hleft := harmed.left
  have hspent := harmed.spent_lt
  rw [TimedCall.ticked, hdeadline]
  dsimp only
  by_cases hlast : s.timeout.toNat - s.elapsed = 1
  · rw [if_pos ((due_iff (by omega) (by omega)).2 hlast)]
    refine ⟨TimedAt.noConfusion, TimedAt.noConfusion, fun _ heq => ?_, fun _ => TimedAt.noConfusion, fun _ => rfl⟩
    obtain rfl := TimedAt.ready.inj heq
    exact ⟨⟨hspent, fun _ => rfl, .inl rfl⟩, fun hno => by cases hno⟩
  · rw [if_neg fun hdue => hlast ((due_iff (by omega) (by omega)).1 hdue)]
    refine ⟨fun hno => absurd (hpc.symm.trans hno) TimedAt.noConfusion, fun _ => ⟨?_, ?_, ?_⟩,
      fun _ hno => absurd (hpc.symm.trans hno) TimedAt.noConfusion,
      fun _ hno => absurd (hpc.symm.trans hno) TimedAt.noConfusion, fun hno => hno.elim hpc⟩
    · exact harmed.ticked (by omega) le_rfl
    · change s.elapsed + 1 < s.timeout.toNat
      omega
    · change some (s.tick + BitVec.ofNat 32 (s.timeout.toNat - s.elapsed)) =
        some (s.tick + 1 + BitVec.ofNat 32 (s.timeout.toNat - (s.elapsed + 1)))
      rw [deadline_next s.tick (by omega), Nat.sub_sub]

theorem TimedInv.ticked_other (h : TimedInv f T s) (hpc : s.pc ≠ .suspended) : TimedInv f T s.ticked := by
  have hstopped := h.stopped hpc
  have hticked : s.ticked = { s with tick := s.tick + 1, elapsed := s.elapsed + 1 } := by
    rw [TimedCall.ticked, hstopped]
  rw [hticked]
  refine ⟨fun htest => ?_, fun hno => absurd hno hpc, fun code hready => ?_, fun result hreturned => ?_, fun _ => hstopped⟩
  · have htries := h.test htest
    exact ⟨htries.spent_lt, htries.nonneg, htries.lt, htries.left, htries.whole⟩
  · obtain ⟨hends, harmed⟩ := h.ready code hready
    refine ⟨⟨hends.spent_le, hends.expires, hends.code⟩, fun heok => ?_⟩
    exact (harmed heok).ticked (harmed heok).spent_lt (Nat.le_succ s.spent)
  · have hends := h.returned result hreturned
    exact ⟨hends.spent_le, hends.expires, hends.code⟩

theorem TimedInv.step (h : TimedInv f T s) (hok : WithinTimeout f s op) (hs : stepTimed f s op = some (s', events)) :
    TimedInv f T s' := by
  cases op with
  | test met =>
    rw [stepTimed] at hs
    split at hs
    · rename_i hpc
      obtain ⟨next, hnext, heq⟩ := Option.map_eq_some_iff.1 hs
      obtain ⟨rfl, -⟩ := Prod.mk.inj heq
      exact h.tested hpc hok hnext
    · cases hs
  | wake code =>
    rw [stepTimed] at hs
    split at hs
    · rename_i hwake
      obtain ⟨rfl, -⟩ := Prod.mk.inj (Option.some.inj hs)
      exact h.wake hwake.1 hwake.2
    · cases hs
  | proceed =>
    rw [stepTimed] at hs
    split at hs
    · rename_i code hpc
      obtain ⟨rfl, -⟩ := Prod.mk.inj (Option.some.inj hs)
      exact h.proceeds hpc hok
    · cases hs
  | tick =>
    obtain ⟨rfl, -⟩ := Prod.mk.inj (Option.some.inj hs)
    by_cases hpc : s.pc = .suspended
    · exact h.ticked_suspended hpc
    · exact h.ticked_other hpc

/-- In every run in which no loop starts its timer anew for ticks that have passed, a call waits within its timeout. -/
theorem TimedRun.bounded (hpos : 0 < T) (hlt : T < 2 ^ 31) (hrun : TimedRun f T tick₀ (WithinTimeout f) trace s) : WaitsBounded T s := by
  have hinv : TimedInv f T s :=
    hrun.state_invariant (timedInv_begin hpos hlt) fun _ _ _ _ h hok hs => h.step hok hs
  exact hinv.bounded

end RtThread
