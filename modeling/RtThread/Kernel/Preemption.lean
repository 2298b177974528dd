import RtThread.Kernel.Inheritance

/-!
# Preemption by priority

The running thread has the highest priority of the ready threads, except between a call that leaves the rescheduling to its caller and the next `rt_schedule`. `rt_thread_resume` and a change of priority are such calls by design; the release of a mutex that nobody waits for is one where it gives up an inherited priority.
-/

namespace RtThread

open Function

variable {cfg : Config} {k k' : Kernel} {v v' : View} {self t : ThreadId} {op : Op} {events : List Event}

/-- The call makes a thread ready that outranks the running one, raises a ready thread above it, or lowers the running thread. -/
def Disturbs (k : Kernel) : Op → Prop
  | .resume t =>
    ∃ self ∈ k.current, (k.thread t).stat = .suspend ∧
      (k.thread t).currentPriority < (k.thread self).currentPriority
  | .changePriority t priority =>
    ∃ self ∈ k.current,
      if t = self then (k.thread self).currentPriority < priority
      else (k.thread t).stat = .ready ∧ priority < (k.thread self).currentPriority
  | .mutexRelease m =>
    ∃ self ∈ k.current, ReleasesLast k m self ∧ (k.thread self).currentPriority < (k.mutex m).originalPriority
  | _ => False

instance (k : Kernel) (op : Op) : Decidable (Disturbs k op) := by
  induction op using Op.casesOn <;> dsimp only [Disturbs] <;> infer_instance

def owes (k : Kernel) (owed : Bool) (op : Op) : Bool :=
  !decide (Reschedules k op) && (owed || decide (Disturbs k op))

def stepOwing (cfg : Config) (s : Kernel × Bool) (op : Op) : Option ((Kernel × Bool) × List Event) :=
  (step cfg s.1 op).map fun r => ((r.1, owes s.1 s.2 op), r.2)

abbrev OwingRun {cfg : Config} (ok : Kernel × Bool → Op → Prop) (setup : Setup cfg) :
    List Event → Kernel × Bool → Prop :=
  Transition.Run (stepOwing cfg) ok (Kernel.boot setup, false)

/-- No ready thread has a higher priority than `self`. -/
def View.Highest (v : View) (self : ThreadId) : Prop :=
  ∀ t, (v.thread t).stat = .ready → v.priority self ≤ v.priority t

/-- The thread `runner` does not lose priority; the others gain none and do not become ready. -/
structure KeepsRank (runner : ThreadId) (v v' : View) : Prop where
  running : v'.priority runner ≤ v.priority runner
  others : ∀ t, t ≠ runner → (v'.thread t).stat = .ready → (v.thread t).stat = .ready ∧ v.priority t ≤ v'.priority t

theorem KeepsRank.highest (h : KeepsRank self v v') (hv : v.Highest self) : v'.Highest self := by
  intro t hstat
  by_cases ht : t = self
  · rw [ht]
  · obtain ⟨hready, hle⟩ := h.others t ht hstat
    exact h.running.trans ((hv t hready).trans hle)

theorem KeepsRank.setThread {f : Thread → Thread} (hpriority : (f (v.thread t)).currentPriority = (v.thread t).currentPriority)
    (hstat : (f (v.thread t)).stat = .ready → (v.thread t).stat = .ready) : KeepsRank self v (v.setThread t f) := by
  have hsame := View.priority_setThread hpriority
  refine ⟨by rw [hsame], fun u _ hready => ⟨?_, by rw [hsame]⟩⟩
  by_cases hu : u = t
  · subst hu
    rw [View.setThread_self] at hready
    exact hstat hready
  · rwa [v.setThread_ne f hu] at hready

theorem KeepsRank.clearError (v : View) (t : ThreadId) : KeepsRank self v (v.clearError t) :=
  .setThread rfl id

theorem ViewStep.highest (h : ViewStep cfg k.current k.view op events v') (hcur : k.current = some self)
    (hresched : ¬ Reschedules k op) (hdisturbs : ¬ Disturbs k op) (hlock : v'.lockNest = 0)
    (hv : k.view.Highest self) : v'.Highest self := by
  cases h with
  | silent op hop => exact hv
  | enterCritical => exact absurd hlock (Nat.succ_ne_zero _)
  | exitCritical => exact absurd (Nat.sub_eq_zero_iff_le.1 hlock) hresched
  | startup t => exact absurd trivial hresched
  | suspend t => exact (KeepsRank.setThread rfl (by simp)).highest hv
  | resume t hstat =>
    intro u hready
    have hpriority : (k.view.wake t id).priority = k.view.priority := View.wake_priority rfl
    rw [hpriority]
    by_cases hu : u = t
    · subst hu
      exact not_lt.1 fun hlt => hdisturbs ⟨self, hcur, hstat, hlt⟩
    · exact hv u (by rwa [show (k.view.wake t id).thread u = _ from (k.view.unlink t).setThread_ne _ hu] at hready)
  | timeout t => exact absurd trivial hresched
  | changePriority t priority =>
    intro u hready
    rw [View.priority_setPriority, update_apply, update_apply]
    have hstat : (k.view.thread u).stat = .ready := by
      by_cases hu : u = t
      · subst hu
        rwa [View.setThread_self, Thread.setPriority_stat] at hready
      · rwa [k.view.setThread_ne _ hu] at hready
    have hle := hv u hstat
    by_cases hself : self = t
    · have hkept : priority ≤ k.view.priority self :=
        not_lt.1 fun hlt => hdisturbs ⟨self, hcur, by rw [if_pos hself.symm]; exact hlt⟩
      rw [if_pos hself]
      split_ifs
      · exact le_refl _
      · exact hkept.trans hle
    · rw [if_neg hself]
      split_ifs with hu
      · subst hu
        exact not_lt.1 fun hlt => hdisturbs ⟨self, hcur, by rw [if_neg (Ne.symm hself)]; exact ⟨hstat, hlt⟩⟩
      · exact hle
  | close op t isThread isStatic hop =>
    exact (KeepsRank.setThread (v := k.view.unlink t) rfl (by simp)).highest hv
  | sleep t => exact absurd trivial hresched
  | sleepReturn t =>
    have hkeeps : KeepsRank self k.view (k.view.setThread t fun thread =>
        { thread with error := if thread.error = .etimeout then .eok else thread.error }) := .setThread rfl id
    exact hkeeps.highest hv
  | semTakeBlocks s time t hcall hvalue htime => exact absurd ⟨hvalue, htime⟩ hresched
  | semReleaseWakes s t rest hwaiters =>
    refine absurd (fun hnil => ?_) hresched
    exact List.cons_ne_nil t rest (hwaiters.symm.trans hnil)
  | semReset s value => exact absurd trivial hresched
  | mutexTakeNested m time t => exact (KeepsRank.clearError k.view t).highest hv
  | mutexTake m time t => exact (KeepsRank.clearError k.view t).highest hv
  | mutexTakeFails m t => exact (KeepsRank.setThread rfl id).highest hv
  | mutexTakeBlocks m time t owner hcall hne howner hvalue htime hself =>
    refine absurd ⟨?_, hvalue, htime⟩ hresched
    rw [hself]
    exact fun hown => hne (Option.some.inj (howner.symm.trans hown))
  | mutexReleaseFails m t => exact (KeepsRank.setThread rfl id).highest hv
  | mutexReleaseHandOff m t next rest hcall howner hlast hwaiters hself =>
    refine absurd ⟨howner.trans hself.symm, hlast, fun hnil => ?_⟩ hresched
    exact List.cons_ne_nil next rest (hwaiters.symm.trans hnil)
  | mutexReleaseFree m t hcall howner hlast hwaiters hself =>
    obtain rfl : t = self := Option.some.inj (hself.symm.trans hcur)
    have hpriority := View.letGo_priority cfg k.view m t
    have hkept : k.view.original m ≤ k.view.priority t :=
      not_lt.1 fun hlt => hdisturbs ⟨t, hcur, ⟨hcur, howner, hlast⟩, hlt⟩
    have hkeeps : KeepsRank t k.view (k.view.letGo cfg m t) := by
      refine ⟨?_, fun u hu hready => ⟨?_, ?_⟩⟩
      · rw [hpriority, update_self]
        exact hkept
      · rwa [View.letGo_stat] at hready
      · rw [hpriority, update_of_ne hu]
    exact hkeeps.highest hv
  | _ => exact hv

/-! ## Every run -/

structure OwingInv (cfg : Config) (s : Kernel × Bool) : Prop where
  kernel : KernelInv cfg s.1
  highest : s.2 = false → s.1.lockNest = 0 → s.1.Highest

theorem ViewStep.unlocked_before (h : ViewStep cfg k.current k.view op events v') (hresched : ¬ Reschedules k op)
    (hlock : v'.lockNest = 0) : k.lockNest = 0 := by
  cases h with
  | enterCritical => exact absurd hlock (Nat.succ_ne_zero _)
  | exitCritical => exact absurd (Nat.sub_eq_zero_iff_le.1 hlock) hresched
  | mutexTakeBlocks m time t owner => exact (View.inherit_lockNest ..).symm.trans hlock
  | mutexReleaseHandOff m t => exact (View.letGo_lockNest ..).symm.trans hlock
  | mutexReleaseFree m t => exact (View.letGo_lockNest ..).symm.trans hlock
  | _ => exact hlock

theorem OwingInv.step {s s' : Kernel × Bool} (h : OwingInv cfg s) (hs : stepOwing cfg s op = some (s', events)) :
    OwingInv cfg s' := by
  obtain ⟨⟨k', events'⟩, hk, heq⟩ := Option.map_eq_some_iff.1 hs
  obtain ⟨rfl, rfl⟩ := Prod.mk.inj heq
  have hfollows := h.kernel.step hk
  refine ⟨h.kernel.step_inv hk, fun howed hlock => ?_⟩
  dsimp only at howed hlock ⊢
  by_cases hresched : Reschedules s.1 op
  · exact hfollows.highest hresched hlock
  · unfold owes at howed
    rw [decide_eq_false hresched, Bool.not_false, Bool.true_and, Bool.or_eq_false_iff, decide_eq_false_iff_not] at howed
    obtain ⟨v', hv', hreaches⟩ := hfollows.view
    have hlock' : v'.lockNest = 0 := by rw [← hreaches.view]; exact hlock
    have hbefore := h.highest howed.1 (hv'.unlocked_before hresched hlock')
    intro self hself t hstat
    have hcur := (hfollows.current hresched).symm.trans hself
    have htop := hv'.highest hcur hresched howed.2 hlock' (hbefore self hcur)
    rw [← hreaches.view] at htop
    exact htop t hstat

variable {setup : Setup cfg} {trace : List Event}

variable {ok : Kernel × Bool → Op → Prop}

/-- With the scheduler unlocked and no rescheduling owed, no ready thread has a higher priority than the running one. -/
theorem running_highest_of_run (hrun : OwingRun ok setup trace (k, false)) (hlock : k.lockNest = 0)
    (hself : k.current = some self) (t : ThreadId) (hstat : (k.thread t).stat = .ready) :
    (k.thread self).currentPriority ≤ (k.thread t).currentPriority := by
  have hinv : OwingInv cfg (k, false) := by
    refine hrun.state_invariant (I := OwingInv cfg) ⟨.boot setup, ?_⟩ fun _ _ _ _ h _ => h.step
    exact fun _ _ self hcur => absurd hcur (Option.some_ne_none self).symm
  exact hinv.highest rfl hlock self hself t hstat

/-- The running thread raises a ready thread above itself and then calls `rt_schedule`. -/
theorem running_highest_of_run_rescheduled : ∃ trace k,
    OwingRun (fun _ _ => True) (.ofPriorities [31, 20, 25]) trace (k, false) ∧ k.lockNest = 0 ∧ k.current = some 2 ∧
      (k.thread 1).stat = .ready ∧ (k.thread 2).currentPriority ≤ (k.thread 1).currentPriority := by
  obtain ⟨trace, ⟨k, owed⟩, hrun, hfound⟩ := @Transition.exists_run_of_exec _ _ _ (stepOwing ⟨32, by decide⟩) (fun _ _ => True)
    (Kernel.boot (.ofPriorities [31, 20, 25]), false) _
    [.startup 0, .startup 1, .schedulerStart, .startup 2, .changePriority 2 5, .schedule]
    (fun _ s => decide (s.2 = false ∧ s.1.lockNest = 0 ∧ s.1.current = some 2 ∧ (s.1.thread 1).stat = .ready))
    (by decide +kernel)
  obtain ⟨rfl, hlock, hcur, hstat⟩ := of_decide_eq_true hfound
  exact ⟨trace, k, hrun, hlock, hcur, hstat, running_highest_of_run hrun hlock hcur 1 hstat⟩

/-- Before that call the running thread is at priority 20 and a ready thread at 5. -/
theorem running_below_ready : ∃ trace k, KernelRun (fun _ _ => True) (.ofPriorities [31, 20, 25]) trace k ∧
    k.lockNest = 0 ∧ k.interruptNest = 0 ∧ k.current = some 1 ∧ k.call 1 = none ∧ (k.thread 1).stat = .ready ∧
      (k.thread 2).stat = .ready ∧ ¬ (k.thread 1).currentPriority ≤ (k.thread 2).currentPriority := by
  obtain ⟨trace, k, hrun, hfound⟩ := exists_kernelRun (.ofPriorities [31, 20, 25]) (fun _ _ => True)
    [.startup 0, .startup 1, .schedulerStart, .startup 2, .changePriority 2 5]
    (fun _ k => decide (k.lockNest = 0 ∧ k.interruptNest = 0 ∧ k.current = some 1 ∧ k.call 1 = none ∧
      (k.thread 1).stat = .ready ∧ (k.thread 2).stat = .ready ∧
      ¬ (k.thread 1).currentPriority ≤ (k.thread 2).currentPriority)) (by decide +kernel)
  exact ⟨trace, k, hrun, of_decide_eq_true hfound⟩

end RtThread
