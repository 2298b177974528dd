import RtThread.Ipc.WaitList
import RtThread.Lib.Transition

/-!
# Wait queues

`waitqueue.c`. A thread checks its condition and then calls `rt_wqueue_wait`; a wake-up sets the flag of the queue and takes out the first node whose wake function agrees. A thread that finds the flag set does not suspend. Every thread that comes back clears the flag, whoever it was set for.
-/

namespace RtThread

open Function

/-- `rt_wqueue_wait` has its node on the stack of the thread; other nodes, such as those of a poll, come from `rt_wqueue_add`. -/
inductive WqNodeId
  | stack (t : ThreadId)
  | other (n : Nat)
  deriving DecidableEq

/-- `struct rt_wqueue_node`, with its wake function on the keys. -/
structure WqNode where
  pollingThread : ThreadId
  wakeup : Nat → Int

/-- A call of `rt_wqueue_wait` that has not returned. -/
inductive WqCall
  /-- The condition was false; whether a wake-up has come since. -/
  | checked (tick : Int) (wokenUp : Bool)
  /-- Behind `rt_schedule`. -/
  | wait
  /-- Before `rt_wqueue_remove`. -/
  | leave
  deriving DecidableEq

structure WqState where
  flag : Bool
  waitingList : List WqNodeId
  node : WqNodeId → WqNode
  suspended : ThreadId → Bool
  timer : ThreadId → Bool
  call : ThreadId → Option WqCall
  tickPerSecond : Int

inductive WqEvent
  /-- A thread suspends; whether a wake-up has come since it checked its condition. -/
  | suspended (t : ThreadId) (wokenUp : Bool)
  /-- "already wakeup" -/
  | already (t : ThreadId)
  | returned (t : ThreadId)
  | wakeup (key : Nat)
  deriving DecidableEq

/-- `rt_tick_from_millisecond`, in 32-bit words. -/
def rtTickFromMillisecond (tickPerSecond ms : Int) : Int :=
  if ms < 0 then -1 else (BitVec.ofInt 32 (tickPerSecond * ms + 999)).toInt.tdiv 1000

/-- `rt_timer_start` unless the thread waits for ever. -/
def wqTimer (tick : Int) : Option Bool :=
  if tick = -1 then some false else if 0 ≤ tick ∧ tick.toNat < rtTickHalf then some true else none

def wqueueDefaultWake : Nat → Int := fun _ => 0

namespace WqState

def setCall (s : WqState) (t : ThreadId) (call : Option WqCall) : WqState :=
  { s with call := update s.call t call }

/-- `rt_thread_resume`, which does nothing to a thread that is not suspended. -/
def resumeThread (s : WqState) (t : ThreadId) : WqState :=
  { s with
    suspended := update s.suspended t false
    timer := if s.suspended t then update s.timer t false else s.timer }

def rtWqueueAdd (s : WqState) (id : WqNodeId) (node : WqNode) : WqState :=
  { s with
    waitingList := s.waitingList ++ [id]
    node := update s.node id node }

def rtWqueueRemove (s : WqState) (id : WqNodeId) : WqState := { s with waitingList := s.waitingList.erase id }

def noteWakeup (s : WqState) : WqState :=
  { s with call := fun t =>
      match s.call t with
      | some (.checked tick _) => some (.checked tick true)
      | call => call }

end WqState

def rtWqueueWakeup (s : WqState) (key : Nat) : WqState :=
  let s := { s.noteWakeup with flag := true }
  match s.waitingList.find? fun id => (s.node id).wakeup key = 0 with
  | none => s
  | some id => (s.resumeThread (s.node id).pollingThread).rtWqueueRemove id

/-- `rt_wqueue_wait` up to its first critical section. -/
def rtWqueueWait (s : WqState) (t : ThreadId) (condition : Bool) (msec : Int) : WqState × List WqEvent :=
  let tick := rtTickFromMillisecond s.tickPerSecond msec
  if condition ∨ tick = 0 then (s, [.returned t]) else (s.setCall t (some (.checked tick false)), [])

/-- The first critical section of `rt_wqueue_wait`. -/
def wqueueEnter (s : WqState) (t : ThreadId) (tick : Int) (wokenUp : Bool) : Option (WqState × List WqEvent) :=
  if s.flag then some ({ s with flag := false }.setCall t (some .leave), [.already t])
  else
    (wqTimer tick).map fun timer =>
      ({ s.rtWqueueAdd (.stack t) ⟨t, wqueueDefaultWake⟩ with
        suspended := update s.suspended t true
        timer := update s.timer t timer }.setCall t (some .wait), [.suspended t wokenUp])

/-! ## The wait queue as a state machine -/

inductive WqOp
  /-- A thread has evaluated its condition and calls `rt_wqueue_wait`. -/
  | wait (t : ThreadId) (condition : Bool) (msec : Int)
  | wakeup (key : Nat)
  | add (n : Nat) (node : WqNode)
  | remove (n : Nat)
  /-- A thread that is not suspended goes on in its call. -/
  | resume (t : ThreadId)
  /-- `rt_thread_timeout`; the node stays in the list. -/
  | timeout (t : ThreadId)

def stepWq (s : WqState) : WqOp → Option (WqState × List WqEvent)
  | .wait t condition msec => if s.call t = none ∧ s.suspended t = false then some (rtWqueueWait s t condition msec) else none
  | .wakeup key => some (rtWqueueWakeup s key, [.wakeup key])
  | .add n node => if .other n ∈ s.waitingList then none else some (s.rtWqueueAdd (.other n) node, [])
  | .remove n => some (s.rtWqueueRemove (.other n), [])
  | .resume t =>
    if s.suspended t then none
    else
      match s.call t with
      | none => none
      | some (.checked tick wokenUp) => wqueueEnter s t tick wokenUp
      | some .wait => some ({ s with flag := false }.setCall t (some .leave), [])
      | some .leave => some ((s.rtWqueueRemove (.stack t)).setCall t none, [.returned t])
  | .timeout t =>
    if s.suspended t ∧ s.timer t then
      some ({ s with suspended := update s.suspended t false, timer := update s.timer t false }, [])
    else none

def WqState.init (tickPerSecond : Int) : WqState where
  flag := false
  waitingList := []
  node _ := ⟨0, wqueueDefaultWake⟩
  suspended _ := false
  timer _ := false
  call _ := none
  tickPerSecond := tickPerSecond

def WqState.Clears (s : WqState) : WqOp → ThreadId → Prop
  | .resume t, u => t = u ∧ s.suspended t = false ∧ (s.call t = some .wait ∨ s.flag = true ∧ ∃ tick wokenUp, s.call t = some (.checked tick wokenUp))
  | _, _ => False

/-- No thread takes the flag away from another one that a wake-up has come for since its check, and that has not gone on yet. -/
def NotTaken (s : WqState) (op : WqOp) : Prop := ∀ t u tick, s.Clears op t → s.call u = some (.checked tick true) → u = t

abbrev WqRun (ok : WqState → WqOp → Prop) (tickPerSecond : Int) : List WqEvent → WqState → Prop :=
  Transition.Run stepWq ok (.init tickPerSecond)

/-! ## Wake-ups that come before the suspension -/

variable {s s' : WqState} {op : WqOp} {trace events : List WqEvent} {t u : ThreadId} {tick : Int} {wokenUp : Bool} {key : Nat}
  {tickPerSecond : Int} {ok : WqState → WqOp → Prop} {id : WqNodeId}

/-- A thread that a wake-up has come for since its check does not suspend when it goes on. -/
def WqState.Heeds (s : WqState) : Prop :=
  ∀ t tick, s.call t = some (.checked tick true) → ∃ s', stepWq s (.resume t) = some (s', [.already t]) ∧ s'.suspended t = false

def WqState.ChecksRun (s : WqState) : Prop := ∀ t tick wokenUp, s.call t = some (.checked tick wokenUp) → s.suspended t = false

theorem WqState.heeds_iff (hrun : s.ChecksRun) : s.Heeds ↔ ∀ t tick, s.call t = some (.checked tick true) → s.flag = true := by
  constructor
  · intro h t tick hcall
    obtain ⟨s', hstep, -⟩ := h t tick hcall
    have hsuspended := hrun t tick true hcall
    by_contra hflag
    rw [stepWq, hsuspended, hcall] at hstep
    simp only [wqueueEnter, if_neg hflag] at hstep
    obtain ⟨timer, -, heq⟩ := Option.map_eq_some_iff.1 hstep
    cases heq
  · intro h t tick hcall
    have hsuspended := hrun t tick true hcall
    refine ⟨{ s with flag := false }.setCall t (some .leave), ?_, hsuspended⟩
    rw [stepWq, hsuspended, hcall]
    simp only [wqueueEnter, if_pos (h t tick hcall)]
    rfl

theorem rtWqueueWakeup_spec : (rtWqueueWakeup s key).flag = true ∧ (rtWqueueWakeup s key).call = s.noteWakeup.call ∧
    ∀ t, (rtWqueueWakeup s key).suspended t = true → s.suspended t = true := by
  unfold rtWqueueWakeup
  dsimp only
  split
  · exact ⟨rfl, rfl, fun _ h => h⟩
  · rename_i id _
    refine ⟨rfl, rfl, fun t ht => ?_⟩
    have hsuspended : update s.suspended (s.node id).pollingThread false t = true := ht
    by_cases heq : t = (s.node id).pollingThread
    · subst heq
      rw [update_self] at hsuspended
      cases hsuspended
    · rwa [update_of_ne heq] at hsuspended

theorem noteWakeup_checked (hcall : s.noteWakeup.call t = some (.checked tick wokenUp)) :
    ∃ before, s.call t = some (.checked tick before) := by
  simp only [WqState.noteWakeup] at hcall
  split at hcall
  · rename_i tick' before heq
    cases hcall
    exact ⟨before, heq⟩
  · exact ⟨wokenUp, hcall⟩

/-- What a step of another kind than a wake-up changes: at most one thread goes on, and only a thread that goes on clears the flag. -/
inductive Goes (s s' : WqState) : WqOp → Prop
  | wakeup {key : Nat} (heq : s' = rtWqueueWakeup s key) : Goes s s' (.wakeup key)
  | clear {t : ThreadId} (hclears : s.Clears (.resume t) t) (hflag : s'.flag = false) (hself : s'.call t = some .leave)
      (hothers : ∀ u ≠ t, s'.call u = s.call u) (hsuspended : s'.suspended = s.suspended) : Goes s s' (.resume t)
  | go {op : WqOp} {t : ThreadId} (hclears : ∀ u, ¬ s.Clears op u) (hflag : s'.flag = s.flag)
      (hself : ∀ tick wokenUp, s'.call t = some (.checked tick wokenUp) → wokenUp = false ∧ s'.suspended t = false)
      (hothers : ∀ u ≠ t, s'.call u = s.call u ∧ (s'.suspended u = true → s.suspended u = true)) : Goes s s' op
  | stay {op : WqOp} (hclears : ∀ u, ¬ s.Clears op u) (hflag : s'.flag = s.flag) (hcall : s'.call = s.call)
      (hsuspended : ∀ u, s'.suspended u = true → s.suspended u = true) : Goes s s' op

theorem WqState.setCall_self {call : Option WqCall} : (s.setCall t call).call t = call := update_self ..

theorem WqState.setCall_ne {call : Option WqCall} (hu : u ≠ t) : (s.setCall t call).call u = s.call u :=
  update_of_ne hu ..

theorem stepWq_goes (hs : stepWq s op = some (s', events)) : Goes s s' op := by
  cases op with
  | wait t condition msec =>
    simp only [stepWq] at hs
    split at hs
    · rename_i hguard
      have hpair := Option.some.inj hs
      simp only [rtWqueueWait] at hpair
      split at hpair
      · cases hpair
        exact .stay (fun _ => id) rfl rfl fun _ h => h
      · cases hpair
        refine .go (t := t) (fun _ => id) rfl ?_ fun u hu => ⟨WqState.setCall_ne hu, fun h => h⟩
        intro tick wokenUp hcall
        rw [WqState.setCall_self] at hcall
        cases hcall
        exact ⟨rfl, hguard.2⟩
    · cases hs
  | wakeup key =>
    cases hs
    exact .wakeup rfl
  | add n node =>
    simp only [stepWq] at hs
    split at hs
    · cases hs
    · cases hs
      exact .stay (fun _ => id) rfl rfl fun _ h => h
  | remove n =>
    cases hs
    exact .stay (fun _ => id) rfl rfl fun _ h => h
  | resume t =>
    simp only [stepWq] at hs
    split at hs
    · cases hs
    · rename_i hsuspended
      have hruns : s.suspended t = false := Bool.eq_false_iff.2 hsuspended
      split at hs
      · cases hs
      · rename_i tick wokenUp hcall
        unfold wqueueEnter at hs
        by_cases hflag : s.flag
        · rw [if_pos hflag] at hs
          cases hs
          exact .clear ⟨rfl, hruns, .inr ⟨hflag, tick, wokenUp, hcall⟩⟩ rfl WqState.setCall_self
            (fun u hu => WqState.setCall_ne hu) rfl
        · rw [if_neg hflag] at hs
          obtain ⟨timer, -, heq⟩ := Option.map_eq_some_iff.1 hs
          cases heq
          refine .go (t := t) ?_ rfl ?_ fun u hu => ⟨WqState.setCall_ne hu, fun h => ?_⟩
          · rintro u ⟨-, -, hwait | ⟨hset, -⟩⟩
            · rw [hcall] at hwait
              cases hwait
            · exact hflag hset
          · intro tick' wokenUp' hcall'
            rw [WqState.setCall_self] at hcall'
            cases hcall'
          · have hkeep : update s.suspended t true u = true := h
            rwa [update_of_ne hu] at hkeep
      · rename_i hcall
        cases hs
        exact .clear ⟨rfl, hruns, .inl hcall⟩ rfl WqState.setCall_self (fun u hu => WqState.setCall_ne hu) rfl
      · rename_i hcall
        cases hs
        refine .go (t := t) ?_ rfl ?_ fun u hu => ⟨WqState.setCall_ne hu, fun h => h⟩
        · rintro u ⟨-, -, hwait | ⟨-, tick, wokenUp, hchecked⟩⟩
          · rw [hcall] at hwait
            cases hwait
          · rw [hcall] at hchecked
            cases hchecked
        · intro tick wokenUp hcall'
          rw [WqState.setCall_self] at hcall'
          cases hcall'
  | timeout t =>
    simp only [stepWq] at hs
    split at hs
    · cases hs
      refine .stay (fun _ => id) rfl rfl fun u hu => ?_
      have hkeep : update s.suspended t false u = true := hu
      by_cases heq : u = t
      · subst heq
        rw [update_self] at hkeep
        cases hkeep
      · rwa [update_of_ne heq] at hkeep
    · cases hs

theorem WqState.ChecksRun.step (h : s.ChecksRun) (hs : stepWq s op = some (s', events)) : s'.ChecksRun := by
  intro u tick wokenUp hcall
  cases stepWq_goes hs with
  | @wakeup key heq =>
    subst heq
    have hwakeup : (rtWqueueWakeup s key).flag = true ∧ (rtWqueueWakeup s key).call = s.noteWakeup.call ∧
        ∀ t, (rtWqueueWakeup s key).suspended t = true → s.suspended t = true := rtWqueueWakeup_spec
    obtain ⟨-, hkeep, hsuspended⟩ := hwakeup
    rw [hkeep] at hcall
    obtain ⟨before, hbefore⟩ := noteWakeup_checked hcall
    by_contra hne
    have hold := hsuspended u (by simpa using hne)
    rw [h u tick before hbefore] at hold
    cases hold
  | @clear t hclears hflag hself hothers hsuspended =>
    by_cases hu : u = t
    · subst hu
      rw [hself] at hcall
      cases hcall
    · rw [hothers u hu] at hcall
      rw [hsuspended]
      exact h u tick wokenUp hcall
  | @go _ t hclears hflag hself hothers =>
    by_cases hu : u = t
    · subst hu
      exact (hself tick wokenUp hcall).2
    · obtain ⟨hkeep, hsuspended⟩ := hothers u hu
      rw [hkeep] at hcall
      by_contra hne
      have hold := hsuspended (by simpa using hne)
      rw [h u tick wokenUp hcall] at hold
      cases hold
  | stay hclears hflag hkeep hsuspended =>
    rw [hkeep] at hcall
    by_contra hne
    have hold := hsuspended u (by simpa using hne)
    rw [h u tick wokenUp hcall] at hold
    cases hold

/-- A step keeps the flag for the threads that a wake-up has come for in exactly the case that it does not take it from one of them. -/
theorem WqState.Heeds.step_iff (h : s.Heeds) (hrun : s.ChecksRun) (hs : stepWq s op = some (s', events)) :
    NotTaken s op ↔ s'.Heeds := by
  rw [WqState.heeds_iff hrun] at h
  rw [WqState.heeds_iff (hrun.step hs)]
  cases stepWq_goes hs with
  | @wakeup key heq =>
    subst heq
    exact ⟨fun _ _ _ _ => rtWqueueWakeup_spec.1, fun _ _ _ _ hclears => hclears.elim⟩
  | @clear t hclears hflag hself hothers hsuspended =>
    constructor
    · intro hnot u tick hcall
      by_cases hu : u = t
      · subst hu
        rw [hself] at hcall
        cases hcall
      · rw [hothers u hu] at hcall
        exact absurd (hnot t u tick hclears hcall) hu
    · intro hall t' u tick hclears' hcall
      obtain rfl : t = t' := hclears'.1
      by_contra hu
      have hset := hall u tick (by rw [hothers u hu]; exact hcall)
      rw [hflag] at hset
      cases hset
  | @go _ t hclears hflag hself hothers =>
    refine ⟨fun _ u tick hcall => ?_, fun _ t' u tick hclears' => absurd hclears' (hclears t')⟩
    by_cases hu : u = t
    · subst hu
      exact absurd (hself tick true hcall).1 Bool.noConfusion
    · rw [(hothers u hu).1] at hcall
      rw [hflag]
      exact h u tick hcall
  | stay hclears hflag hkeep hsuspended =>
    refine ⟨fun _ u tick hcall => ?_, fun _ t' u tick hclears' => absurd hclears' (hclears t')⟩
    rw [hkeep] at hcall
    rw [hflag]
    exact h u tick hcall

theorem WqState.Heeds.not_suspended (h : s.Heeds) (hs : stepWq s op = some (s', events)) : ∀ t, .suspended t true ∉ events := by
  intro t ht
  cases op with
  | resume u =>
    have hstep := hs
    simp only [stepWq] at hs
    split at hs
    · cases hs
    · split at hs
      · cases hs
      · rename_i tick wokenUp hcall
        unfold wqueueEnter at hs
        split at hs
        · cases hs
          simp at ht
        · obtain ⟨timer, -, heq⟩ := Option.map_eq_some_iff.1 hs
          cases heq
          obtain ⟨rfl, rfl⟩ : t = u ∧ true = wokenUp := by simpa using ht
          obtain ⟨s'', hstep', -⟩ := h t tick hcall
          have hsame := hstep.symm.trans hstep'
          simp at hsame
      · cases hs
        simp at ht
      · cases hs
        simp at ht
  | wait u condition msec =>
    simp only [stepWq] at hs
    split at hs
    · have hpair := Option.some.inj hs
      simp only [rtWqueueWait] at hpair
      split at hpair <;> cases hpair <;> simp at ht
    · cases hs
  | wakeup key =>
    cases hs
    simp at ht
  | add n node =>
    simp only [stepWq] at hs
    split at hs
    · cases hs
    · cases hs
      simp at ht
  | remove n =>
    cases hs
    simp at ht
  | timeout u =>
    simp only [stepWq] at hs
    split at hs
    · cases hs
      simp at ht
    · cases hs

/-! ## What holds in every run -/

/-- In a run in which no thread takes the flag from another one that a wake-up has come for, no thread suspends after such a wake-up; and a step takes it in exactly the case that a thread would suspend in the state behind it. -/
theorem wqueue_of_run (hrun : WqRun NotTaken tickPerSecond trace s) :
    s.Heeds ∧ (∀ t, .suspended t true ∉ trace) ∧
      ∀ op s' events, stepWq s op = some (s', events) → (NotTaken s op ↔ s'.Heeds) := by
  have hinv : s.ChecksRun ∧ s.Heeds ∧ ∀ t, .suspended t true ∉ trace := by
    refine hrun.invariant (I := fun trace s => s.ChecksRun ∧ s.Heeds ∧ ∀ t, .suspended t true ∉ trace) ?_ ?_
    · exact ⟨fun _ _ _ _ => rfl, fun t tick hcall => absurd hcall.symm (Option.some_ne_none _), fun _ => List.not_mem_nil⟩
    · intro trace s op s' events ⟨hchecks, hheeds, hnone⟩ hok hs
      refine ⟨hchecks.step hs, (hheeds.step_iff hchecks hs).1 hok, fun t ht => ?_⟩
      rcases List.mem_append.1 ht with ht | ht
      · exact hnone t ht
      · exact hheeds.not_suspended hs t ht
  exact ⟨hinv.2.1, hinv.2.2, fun op s' events hs => hinv.2.1.step_iff hinv.1 hs⟩

/-- A wake-up comes between the check and the suspension, and the thread does not suspend. -/
theorem wqueue_of_wakeup : ∃ trace s, WqRun NotTaken 1000 trace s ∧ .already 0 ∈ trace ∧
    s.Heeds ∧ (∀ t, .suspended t true ∉ trace) ∧
      ∀ op s' events, stepWq s op = some (s', events) → (NotTaken s op ↔ s'.Heeds) := by
  have hwait : WqRun NotTaken 1000 _ _ := .next .start (a := WqOp.wait 0 false (-1)) (fun _ _ _ h => h.elim) rfl
  have hwakeup : WqRun NotTaken 1000 _ _ := .next hwait (a := WqOp.wakeup 7) (fun _ _ _ h => h.elim) rfl
  have halready : WqRun NotTaken 1000 _ _ :=
    .next hwakeup (a := WqOp.resume 0) (fun t u tick hclears hcall => by
      obtain rfl : 0 = t := hclears.1
      by_contra hu
      have hnone : (rtWqueueWakeup ((WqState.init 1000).setCall 0 (some (.checked (-1) false))) 7).call u = none := by
        simp [rtWqueueWakeup, WqState.noteWakeup, WqState.setCall, WqState.init, hu]
      exact Option.some_ne_none _ (hcall.symm.trans hnone)) rfl
  exact ⟨_, _, halready, by decide, wqueue_of_run halready⟩

/-- Thread 0 is suspended and thread 1 has checked its condition. A wake-up comes; thread 0 runs first and clears the flag, and thread 1 suspends for ever. -/
theorem wqueue_fails : ∃ trace s, WqRun (fun _ _ => True) 1000 trace s ∧ .suspended 1 true ∈ trace ∧
    s.suspended 1 = true ∧ s.timer 1 = false ∧ .stack 1 ∈ s.waitingList := by
  obtain ⟨trace, s, hrun, hfound⟩ := @Transition.exists_run_of_exec _ _ _ stepWq (fun _ _ => True) (.init 1000) _
    [.wait 0 false (-1), .resume 0, .wait 1 false (-1), .wakeup 7, .resume 0, .resume 1]
    (fun trace s => decide (.suspended 1 true ∈ trace ∧ s.suspended 1 = true ∧ s.timer 1 = false ∧ .stack 1 ∈ s.waitingList))
    (by decide)
  exact ⟨trace, s, hrun, of_decide_eq_true hfound⟩

end RtThread
