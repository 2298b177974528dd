import RtThread.Kernel.Calls

/-!
# Every step is a step of the view

The semaphore and mutex calls, and the step function as a whole. A run of the kernel therefore keeps the ready queue in order and is, seen without the ready queue, a run of `ViewStep`.
-/

namespace RtThread

variable {cfg : Config} {k k' : Kernel} {v : View} {t self : ThreadId} {events : List Event}

/-- The call ends in `rt_schedule`. -/
def Reschedules (k : Kernel) : Op → Prop
  | .schedulerStart | .schedule | .startup _ | .timeout _ | .exit | .sleep _ | .semReset _ _ => True
  | .exitCritical => k.lockNest ≤ 1
  | .semTake s time => (k.sem s).value = 0 ∧ time ≠ 0
  | .semRelease s => k.tlist (.suspend (.sem s)) ≠ []
  | .mutexTake m time => (k.mutex m).owner ≠ k.current ∧ (k.mutex m).value = 0 ∧ time ≠ 0
  | .mutexRelease m =>
    (k.mutex m).owner = k.current ∧ ((k.mutex m).hold + 255) % 256 = 0 ∧ k.tlist (.suspend (.mutex m)) ≠ []
  | _ => False

instance (k : Kernel) (op : Op) : Decidable (Reschedules k op) := by
  cases op <;> unfold Reschedules <;> infer_instance

/-- A call does to the view what `ViewStep` allows the operation, and keeps the ready queue in order. The processor changes hands only in `rt_schedule`. -/
structure Follows (cfg : Config) (k : Kernel) (op : Op) (events : List Event) (k' : Kernel) : Prop where
  view : ∃ v', ViewStep cfg k.current k.view op events v' ∧ Reaches cfg k' v'
  highest : Reschedules k op → k'.lockNest = 0 → k'.Highest
  current : ¬ Reschedules k op → k'.current = k.current

variable {op : Op} {v' : View}

theorem Follows.settled (hstep : ViewStep cfg k.current k.view op events v') (h : Settles cfg k' v')
    (hop : Reschedules k op) : Follows cfg k op events k' :=
  ⟨⟨v', hstep, h.toReaches⟩, fun _ => h.highest, fun hnot => absurd hop hnot⟩

theorem Follows.kept (hstep : ViewStep cfg k.current k.view op events v') (h : Reaches cfg k' v')
    (hop : ¬ Reschedules k op) (hcur : k'.current = k.current) : Follows cfg k op events k' :=
  ⟨⟨v', hstep, h⟩, fun hyes => absurd hyes hop, fun _ => hcur⟩

theorem AtCall.view (h : AtCall k t) : k.view.AtCall t := ⟨h.2.2, h.2.1⟩

theorem threadContext_some (h : threadContext k = some t) : k.interruptNest = 0 ∧ k.current = some t := by
  unfold threadContext at h
  split_ifs at h with hnest
  exact ⟨hnest, h⟩

/-! ## Semaphores -/

theorem SchedInv.semTake (h : SchedInv cfg k) {s : SemId} {time : Int} {r : Option RtErr × Kernel}
    (hcur : k.current = some self) (hcall : k.interruptNest ≠ 0 ∨ AtCall k self)
    (hk : rtSemTake cfg k s time = some r) :
    Follows cfg k (.semTake s time) (takeEvents (.semTake s (threadContext k)) r).2
      (takeEvents (.semTake s (threadContext k)) r).1 := by
  have hcaller (t : ThreadId) (hcontext : threadContext k = some t) : k.current = some t ∧ AtCall k t := by
    obtain ⟨hnest, hself⟩ := threadContext_some hcontext
    obtain rfl : t = self := Option.some.inj (hself.symm.trans hcur)
    exact ⟨hself, hcall.resolve_left (not_not.2 hnest)⟩
  unfold rtSemTake at hk
  split_ifs at hk with hvalue htime
  · obtain rfl := Option.some.inj hk
    have htaken := h.reaches.setSem s fun sem => { sem with value := sem.value - 1 }
    exact .kept (.semTake s time _ (fun t ht => (hcaller t ht).2.view) hvalue) htaken (fun hop => hvalue.ne' hop.1) rfl
  · obtain rfl := Option.some.inj hk
    subst htime
    exact .kept (.semTakeFails s _ (fun t ht => (hcaller t ht).2.view) (Nat.eq_zero_of_not_pos hvalue)) h.reaches
      (fun hop => hop.2 rfl) rfl
  · split at hk
    · cases hk
    · rename_i t hcontext
      obtain ⟨hcur, hat⟩ := hcaller t hcontext
      obtain ⟨k', hblock, rfl⟩ := Option.map_eq_some_iff.1 hk
      have hclear := h.reaches.setError t .eok (by decide)
      have hstat := hat.2.2
      exact .settled (.semTakeBlocks s time t hat.view (Nat.eq_zero_of_not_pos hvalue) htime)
        (hclear.blockOn hcur (by simpa using hstat) hblock) ⟨Nat.eq_zero_of_not_pos hvalue, htime⟩

theorem SchedInv.semRelease (h : SchedInv cfg k) (s : SemId) :
    Follows cfg k (.semRelease s) [.semRelease s (k.tlist (.suspend (.sem s))).head?] (rtSemRelease cfg k s) := by
  unfold rtSemRelease rtIpcListResume
  cases hwaiters : k.tlist (.suspend (.sem s)) with
  | nil =>
    rw [if_neg (by simp)]
    exact .kept (.semReleaseCounts s hwaiters) (h.reaches.setSem s _) (fun hop => hop hwaiters) rfl
  | cons t rest =>
    rw [if_pos (by simp)]
    have hstat := h.lists.suspend _ t (by rw [hwaiters]; exact List.mem_cons_self)
    exact .settled (.semReleaseWakes s t rest hwaiters) (h.reaches.resume hstat).schedule
      (by rw [Reschedules, hwaiters]; exact List.cons_ne_nil t rest)

theorem SchedInv.semReset (h : SchedInv cfg k) (s : SemId) (value : Nat) :
    Follows cfg k (.semReset s value) [.semReset s value] (rtSemReset cfg k s value) :=
  .settled (.semReset s value) ((h.reaches.resumeRounds rfl).setSem s _).schedule trivial

/-! ## Mutexes -/

def View.Saved (cfg : Config) (v : View) : Prop :=
  ∀ m, (v.mutex m).owner ≠ none → (v.mutex m).originalPriority < cfg.priorityMax

theorem Reaches.inherit (h : Reaches cfg k v) (owner : ThreadId) {priority : Nat} (hlt : priority < cfg.priorityMax) :
    Reaches cfg (if priority < (k.thread owner).currentPriority then rtThreadChangePriority cfg k owner priority else k)
      (v.inherit cfg owner priority) := by
  have hthread : k.thread owner = v.thread owner := congrFun (congrArg View.thread h.view) owner
  unfold View.inherit
  rw [hthread]
  split_ifs
  · exact h.changePriority owner hlt
  · exact h

theorem rtThreadChangePriority_local (cfg : Config) (k : Kernel) (t : ThreadId) (priority : Nat) :
    Local t k (rtThreadChangePriority cfg k t priority) := by
  unfold rtThreadChangePriority
  split_ifs
  · exact ((rtScheduleRemoveThread_local cfg k t).trans (Kernel.setThread_local _ t _)).trans
      (rtScheduleInsertThread_local cfg _ t)
  · exact k.setThread_local t _

theorem rtMutexRestorePriority_current (cfg : Config) (k : Kernel) (m : MutexId) (t : ThreadId) :
    (rtMutexRestorePriority cfg k m t).current = k.current := by
  unfold rtMutexRestorePriority
  split_ifs
  · exact (rtThreadChangePriority_local cfg k t _).current
  · rfl

theorem SchedInv.mutexTakeAgain {k₁ : Kernel} (h : Reaches cfg k₁ (k.view.clearError t)) {m : MutexId} {time : Int}
    {r : Option RtErr × Kernel} (hself : k.current = some t) (hcur : k₁.current = some t) (hat : AtCall k t)
    (howner : (k.mutex m).owner ≠ some t)
    (hk : rtMutexTakeAgain cfg k₁ m t time = some r) :
    Follows cfg k (.mutexTake m time) (takeEvents (.mutexTake m t) r).2 (takeEvents (.mutexTake m t) r).1 := by
  have hmutex : k₁.mutex m = k.view.mutex m := congrFun (congrArg View.mutex h.view) m
  have hsame : k₁.thread t = { k.thread t with error := .eok } :=
    (congrFun (congrArg View.thread h.view) t).trans (View.setThread_self ..)
  unfold rtMutexTakeAgain at hk
  rw [hmutex] at hk
  dsimp only at hk
  split_ifs at hk with hvalue htime
  · obtain rfl := Option.some.inj hk
    have howned := h.setMutex m fun mutex =>
      { mutex with
        value := mutex.value - 1
        owner := some t
        originalPriority := (k₁.thread t).currentPriority
        hold := (mutex.hold + 1) % 256 }
    refine .kept (.mutexTake m time t hat.view howner hvalue hself) ⟨howned.inv, howned.view.trans ?_⟩
      (fun hop => hvalue.ne' hop.2.1) (hcur.trans hself.symm)
    rw [hsame]
    unfold View.own View.setMutex
    rw [View.clearError, View.setThread_self]
    rfl
  · obtain rfl := Option.some.inj hk
    subst htime
    have hfail := h.setError t .etimeout (by decide)
    rw [View.clearError, View.setThread_setThread] at hfail
    exact .kept (.mutexTakeFails m t hat.view howner (Nat.eq_zero_of_not_pos hvalue) hself) hfail
      (fun hop => hop.2.2 rfl) (hcur.trans hself.symm)
  · split at hk
    · cases hk
    · rename_i owner hown
      have hne : owner ≠ t := fun heq => howner (heq ▸ hown)
      rw [ite_eq_iff] at hk
      obtain ⟨-, hcontra⟩ | ⟨-, hk⟩ := hk
      · cases hcontra
      obtain ⟨k', hblock, rfl⟩ := Option.map_eq_some_iff.1 hk
      have hlt := (h.inv.lists.thread t).current_lt
      have hboost := h.inherit owner hlt
      have hkept : (if (k₁.thread t).currentPriority < (k₁.thread owner).currentPriority then
            rtThreadChangePriority cfg k₁ owner (k₁.thread t).currentPriority else k₁).thread t = k₁.thread t ∧
          (if (k₁.thread t).currentPriority < (k₁.thread owner).currentPriority then
            rtThreadChangePriority cfg k₁ owner (k₁.thread t).currentPriority else k₁).current = k₁.current := by
        split_ifs
        · have hlocal := rtThreadChangePriority_local cfg k₁ owner (k₁.thread t).currentPriority
          exact ⟨hlocal.thread t hne.symm, hlocal.current⟩
        · exact ⟨rfl, rfl⟩
      have hready : (k₁.thread t).stat = .ready := by rw [hsame]; exact hat.2.2
      have hblocked := hboost.blockOn (hkept.2.trans hcur) (by rw [hkept.1]; exact hready) hblock
      rw [hsame] at hblocked
      refine .settled (.mutexTakeBlocks m time t owner hat.view hne hown (Nat.eq_zero_of_not_pos hvalue) htime hself)
        hblocked ⟨?_, Nat.eq_zero_of_not_pos hvalue, htime⟩
      rw [hself]
      exact howner

theorem SchedInv.mutexTake (h : SchedInv cfg k) {m : MutexId} {time : Int} {r : Option RtErr × Kernel}
    (hcur : k.current = some t) (hat : AtCall k t) (hk : rtMutexTake cfg k m time = some r) :
    Follows cfg k (.mutexTake m time) (takeEvents (.mutexTake m t) r).2 (takeEvents (.mutexTake m t) r).1 := by
  have hclear := h.reaches.setError t .eok (by decide)
  have hcontext : threadContext k = some t := by
    rw [threadContext, if_pos hat.1, hcur]
  unfold rtMutexTake at hk
  rw [hcontext] at hk
  dsimp only at hk
  split_ifs at hk with howner
  · obtain rfl := Option.some.inj hk
    have hnested := hclear.setMutex m fun mutex => { mutex with hold := (mutex.hold + 1) % 256 }
    exact .kept (.mutexTakeNested m time t hat.view howner hcur) hnested (fun hop => hop.1 (howner.trans hcur.symm)) rfl
  · exact SchedInv.mutexTakeAgain hclear hcur hcur hat howner hk

theorem SchedInv.mutexTakeReturn (h : SchedInv cfg k) {m : MutexId} {time : Int} {r : Option RtErr × Kernel}
    (hcall : k.call t = some (.mutexTake m time)) (hready : (k.thread t).stat = .ready ∨ k.lockNest ≠ 0)
    (hk : rtMutexTakeReturn cfg k m t time = some r) :
    Follows cfg k .finish (takeEvents (.mutexTake m t) r).2 (takeEvents (.mutexTake m t) r).1 := by
  unfold rtMutexTakeReturn at hk
  rw [if_neg (h.lists.thread t).error_ne] at hk
  obtain rfl := Option.some.inj hk
  have hreturn := h.reaches.setCall t none
  exact .kept (.mutexTakeReturns m time t hcall hready) hreturn id rfl

theorem Reaches.restorePriority (h : Reaches cfg k v) (m : MutexId) (t : ThreadId)
    (hsaved : (v.mutex m).originalPriority < cfg.priorityMax) :
    Reaches cfg (rtMutexRestorePriority cfg k m t) (v.restore cfg m t) := by
  have hmutex : k.mutex m = v.mutex m := congrFun (congrArg View.mutex h.view) m
  have hthread : k.thread t = v.thread t := congrFun (congrArg View.thread h.view) t
  unfold rtMutexRestorePriority View.restore
  rw [hmutex, hthread]
  split_ifs
  · exact h.changePriority t hsaved
  · exact h

theorem Reaches.handOff (h : Reaches cfg k v) {m : MutexId} {next : ThreadId} {rest : List ThreadId}
    (hwaiters : v.waiters (.mutex m) = next :: rest) :
    Settles cfg (rtMutexHandOff cfg k m next) ((v.own m next (v.mutex m).value).wake next id) := by
  have hlist : k.tlist (.suspend (.mutex m)) = next :: rest := by
    rw [← hwaiters, ← h.view]
    rfl
  have hthread : k.thread next = v.thread next := congrFun (congrArg View.thread h.view) next
  have howned := h.setMutex m fun mutex =>
    { mutex with
      owner := some next
      originalPriority := (k.thread next).currentPriority
      hold := (mutex.hold + 1) % 256 }
  have hstat := h.inv.lists.suspend (.mutex m) next (by rw [hlist]; exact List.mem_cons_self)
  have hwoken := (howned.resume hstat).schedule
  rw [hthread] at hwoken
  unfold rtMutexHandOff rtIpcListResume
  dsimp only [Kernel.setMutex]
  rw [hlist, hthread]
  exact hwoken

theorem SchedInv.mutexRelease (h : SchedInv cfg k) (hsaved : k.view.Saved cfg) {m : MutexId} {r : RtErr × Kernel}
    (hcur : k.current = some t) (hat : AtCall k t) (hk : rtMutexRelease cfg k m = some r) :
    Follows cfg k (.mutexRelease m) [.mutexRelease m t r.1 (nextOwner k m t)] r.2 := by
  have hcontext : threadContext k = some t := by
    rw [threadContext, if_pos hat.1, hcur]
  unfold rtMutexRelease at hk
  rw [hcontext] at hk
  unfold nextOwner
  dsimp only at hk
  rw [Kernel.setMutex_self] at hk
  split_ifs at hk with howner hhold
  · obtain rfl := Option.some.inj hk
    rw [if_neg fun hboth => howner hboth.1]
    have hfail := h.reaches.setError t .error (by decide)
    exact .kept (.mutexReleaseFails m t hat.view howner hcur) hfail (fun hop => howner (hop.1.trans hcur)) rfl
  · rw [not_not] at howner
    rw [if_pos ⟨howner, hhold⟩]
    have hzero : (k.view.setMutex m fun mutex => { mutex with hold := (mutex.hold + 255) % 256 }) =
        k.view.setMutex m fun mutex => { mutex with hold := 0 } :=
      View.setMutex_congr (congrArg (fun hold => { k.view.mutex m with hold := hold }) hhold)
    have hpriority := hsaved m (howner ▸ Option.some_ne_none t)
    have hreleased := h.reaches.setMutex m fun mutex => { mutex with hold := (mutex.hold + 255) % 256 }
    have hlet := hreleased.restorePriority m t (by rw [View.setMutex_self]; exact hpriority)
    rw [hzero] at hlet
    change Reaches cfg _ (k.view.letGo cfg m t) at hlet
    have hlist : (rtMutexRestorePriority cfg (k.setMutex m fun mutex =>
        { mutex with hold := (mutex.hold + 255) % 256 }) m t).tlist (.suspend (.mutex m)) =
        k.tlist (.suspend (.mutex m)) := by
      have hwaiters := congrFun (congrArg View.waiters hlet.view) (.mutex m)
      rw [View.letGo, View.restore_waiters] at hwaiters
      exact hwaiters
    rw [hlist] at hk
    cases hwaiters : k.tlist (.suspend (.mutex m)) with
    | nil =>
      rw [hwaiters] at hk
      obtain rfl := Option.some.inj hk
      have hfree := hlet.setMutex m fun mutex =>
        { mutex with value := (mutex.value + 1) % 65536, owner := none, originalPriority := 0xFF }
      refine .kept (.mutexReleaseFree m t hat.view howner hhold hwaiters hcur) hfree (fun hop => hop.2.2 hwaiters) ?_
      exact rtMutexRestorePriority_current cfg _ m t
    | cons next rest =>
      rw [hwaiters] at hk
      obtain rfl := Option.some.inj hk
      have hwaiting : (k.view.letGo cfg m t).waiters (.mutex m) = next :: rest := by
        rw [View.letGo, View.restore_waiters]
        exact hwaiters
      have hvalue : ((k.view.letGo cfg m t).mutex m).value = (k.view.mutex m).value := by
        rw [View.letGo, View.restore_mutex, View.setMutex_self]
      have hhanded := hlet.handOff hwaiting
      rw [hvalue] at hhanded
      refine .settled (.mutexReleaseHandOff m t next rest hat.view howner hhold hwaiters hcur) hhanded
        ⟨howner.trans hcur.symm, hhold, ?_⟩
      rw [hwaiters]
      exact List.cons_ne_nil next rest
  · rw [not_not] at howner
    obtain rfl := Option.some.inj hk
    rw [if_neg fun hboth => hhold hboth.2]
    have hnested := h.reaches.setMutex m fun mutex => { mutex with hold := (mutex.hold + 255) % 256 }
    exact .kept (.mutexReleaseNested m t hat.view howner hhold hcur) hnested (fun hop => hhold hop.2.1) rfl

/-! ## The step function -/

structure KernelInv (cfg : Config) (k : Kernel) : Prop extends SchedInv cfg k where
  saved : k.view.Saved cfg

theorem SchedInv.schedulerStart (h : SchedInv cfg k) (hcur : k.current = none)
    (hk : rtSystemSchedulerStart cfg k = some k') : Follows cfg k .schedulerStart [] k' := by
  unfold rtSystemSchedulerStart at hk
  split at hk
  · cases hk
  · rename_i next priority hhighest
    obtain rfl := Option.some.inj hk
    have hmem : next ∈ k.tlist (.ready (highestReadyPriority cfg k)) :=
      List.mem_of_mem_head? (congrArg Prod.fst hhighest)
    have hready := h.lists.ready _ next hmem
    have hlists := h.lists.setCurrent (some next)
    have hcomplete (t : ThreadId) (ht : (k.thread t).stat = .ready) :
        t ∈ k.tlist (.ready (k.thread t).currentPriority) := h.complete t ht (by simp [hcur])
    refine .settled (.silent _ trivial) ⟨⟨SchedInv.dispatch hlists hcomplete rfl, ?_⟩, fun _ self hself t ht => ?_⟩ trivial
    · rw [rtScheduleRemoveThread_view]
      exact View.unlink_of_not_mem (hlists.not_suspend (by simp [hready.1]))
    · rw [rtScheduleRemoveThread_thread] at ht ⊢
      obtain rfl : next = self := Option.some.inj ((rtScheduleRemoveThread_local cfg _ next).current.symm.trans hself)
      have hgroup : k.group ≠ 0 := fun hzero => by
        have hempty := h.lists.group_eq_zero_iff.1 hzero
        exact (Set.eq_empty_iff_forall_notMem.1 hempty _) (List.ne_nil_of_mem hmem)
      have hleast := h.lists.highest_isLeast hgroup
      rw [← hready.2] at hleast
      exact hleast.2 (List.ne_nil_of_mem (hcomplete t ht))

theorem SchedInv.startup (h : SchedInv cfg k) (hk : rtThreadStartup cfg k t = some k') :
    Follows cfg k (.startup t) [] k' :=
  have ⟨hstat, hreaches⟩ := h.reaches.startup hk
  .settled (.startup t hstat) hreaches trivial

theorem SchedInv.finish (h : SchedInv cfg k) (hready : (k.thread self).stat = .ready ∨ k.lockNest ≠ 0)
    (hk : finish cfg k self = some (k', events)) :
    Follows cfg k .finish events k' := by
  unfold RtThread.finish at hk
  split at hk
  · cases hk
  · rename_i hcall
    obtain ⟨rfl, rfl⟩ := Prod.mk.inj (Option.some.inj hk)
    refine .kept (.sleepReturn self hcall hready) (h.reaches.sleepReturn self) id ?_
    unfold rtThreadSleepReturn
    dsimp only
    split_ifs <;> rfl
  · rename_i s hcall
    obtain ⟨rfl, rfl⟩ := Prod.mk.inj (Option.some.inj hk)
    exact .kept (.semTakeReturns s self hcall hready) (h.reaches.setCall self none) id rfl
  · rename_i m time hcall
    obtain ⟨r, hr, heq⟩ := Option.map_eq_some_iff.1 hk
    have hreturn := h.mutexTakeReturn hcall hready hr
    rwa [heq] at hreturn

theorem KernelInv.stepRunning (h : KernelInv cfg k) (hcur : k.current = some self) {op : Op}
    (hk : stepRunning cfg k self op = some (k', events)) : Follows cfg k op events k' := by
  have hsched := h.toSchedInv
  cases op with
  | schedulerStart => cases hk
  | startup t =>
    obtain ⟨k₁, hk₁, heq⟩ := Option.map_eq_some_iff.1 hk
    obtain ⟨rfl, rfl⟩ := Prod.mk.inj heq
    exact hsched.startup hk₁
  | schedule =>
    obtain ⟨rfl, rfl⟩ := Prod.mk.inj (Option.some.inj hk)
    exact .settled (.silent _ trivial) hsched.reaches.schedule trivial
  | suspend t =>
    unfold RtThread.stepRunning at hk
    dsimp only at hk
    split_ifs at hk with hself
    obtain ⟨rfl, rfl⟩ := Prod.mk.inj (Option.some.inj hk)
    by_cases hstat : (k.thread t).stat = .ready
    · obtain ⟨hsuspended, -, hcur'⟩ := hsched.reaches.suspend hstat (hself.2 hstat ▸ hcur)
      exact .kept (.suspend t hstat) hsuspended id hcur'
    · unfold rtThreadSuspend
      rw [if_pos hstat]
      exact .kept (.suspendFails t hstat) hsched.reaches id rfl
  | resume t =>
    unfold RtThread.stepRunning at hk
    dsimp only at hk
    split_ifs at hk with htype
    obtain ⟨rfl, rfl⟩ := Prod.mk.inj (Option.some.inj hk)
    by_cases hstat : (k.thread t).stat = .suspend
    · exact .kept (.resume t hstat) (hsched.reaches.resume hstat) id (rtThreadResume_current cfg k t)
    · unfold rtThreadResume
      rw [if_pos hstat]
      exact .kept (.resumeFails t hstat) hsched.reaches id rfl
  | timeout t =>
    obtain ⟨k₁, hk₁, heq⟩ := Option.map_eq_some_iff.1 hk
    obtain ⟨rfl, rfl⟩ := Prod.mk.inj heq
    obtain ⟨hstat, htimer, hreaches⟩ := hsched.reaches.timeout hk₁
    exact .settled (.timeout t hstat htimer) hreaches trivial
  | changePriority t priority =>
    unfold RtThread.stepRunning at hk
    dsimp only at hk
    split_ifs at hk with hlt
    obtain ⟨rfl, rfl⟩ := Prod.mk.inj (Option.some.inj hk)
    exact .kept (.changePriority t priority hlt.2) (hsched.reaches.changePriority t hlt.2) id
      (rtThreadChangePriority_local cfg k t priority).current
  | exit =>
    unfold RtThread.stepRunning at hk
    dsimp only at hk
    split_ifs at hk with hcall
    obtain ⟨rfl, rfl⟩ := Prod.mk.inj (Option.some.inj hk)
    obtain ⟨isThread, isStatic, hreaches⟩ := hsched.reaches.exit self
    exact .settled (.close _ self isThread isStatic (.inl rfl) fun _ => hcall.2) hreaches trivial
  | detach t =>
    obtain ⟨k₁, hk₁, heq⟩ := Option.map_eq_some_iff.1 hk
    obtain ⟨rfl, rfl⟩ := Prod.mk.inj heq
    exact .kept (.close _ t false false (.inr (.inl rfl)) (by simp)) (hsched.reaches.detach hk₁) id
      (rtThreadDetach_current hk₁)
  | delete t =>
    obtain ⟨k₁, hk₁, heq⟩ := Option.map_eq_some_iff.1 hk
    obtain ⟨rfl, rfl⟩ := Prod.mk.inj heq
    obtain ⟨isThread, isStatic, hreaches⟩ := hsched.reaches.delete hk₁
    exact .kept (.close _ t isThread isStatic (.inr (.inr rfl)) (by simp)) hreaches id (rtThreadDelete_current hk₁)
  | sleep tick =>
    unfold RtThread.stepRunning at hk
    dsimp only at hk
    split_ifs at hk with hat
    obtain ⟨k₁, hk₁, heq⟩ := Option.map_eq_some_iff.1 hk
    obtain ⟨rfl, rfl⟩ := Prod.mk.inj heq
    exact .settled (.sleep self tick hat.view) (hsched.reaches.sleep hcur hat.2.2 hk₁) trivial
  | enterCritical =>
    obtain ⟨rfl, rfl⟩ := Prod.mk.inj (Option.some.inj hk)
    exact .kept .enterCritical ⟨hsched.congr rfl rfl rfl rfl rfl, rfl⟩ id rfl
  | exitCritical =>
    obtain ⟨rfl, rfl⟩ := Prod.mk.inj (Option.some.inj hk)
    have hunlocked : SchedInv cfg { k with lockNest := k.lockNest - 1 } := hsched.congr rfl rfl rfl rfl rfl
    unfold rtExitCritical
    dsimp only
    split_ifs with hlast
    · exact .settled .exitCritical hunlocked.reaches.schedule (Nat.sub_eq_zero_iff_le.1 hlast)
    · exact .kept .exitCritical hunlocked.reaches (fun hop => hlast (Nat.sub_eq_zero_iff_le.2 hop)) rfl
  | interruptEnter =>
    obtain ⟨rfl, rfl⟩ := Prod.mk.inj (Option.some.inj hk)
    exact .kept (.silent _ trivial) ⟨hsched.congr rfl rfl rfl rfl rfl, rfl⟩ id rfl
  | interruptLeave =>
    unfold RtThread.stepRunning at hk
    dsimp only at hk
    split_ifs at hk with hnest
    obtain ⟨rfl, rfl⟩ := Prod.mk.inj (Option.some.inj hk)
    exact .kept (.silent _ trivial) ⟨hsched.congr rfl rfl rfl rfl rfl, rfl⟩ id rfl
  | semTake s time =>
    unfold RtThread.stepRunning at hk
    dsimp only at hk
    split_ifs at hk with hcall
    obtain ⟨r, hr, heq⟩ := Option.map_eq_some_iff.1 hk
    have htake := hsched.semTake hcur hcall hr
    rwa [heq] at htake
  | semRelease s =>
    obtain ⟨rfl, rfl⟩ := Prod.mk.inj (Option.some.inj hk)
    exact hsched.semRelease s
  | semReset s value =>
    obtain ⟨rfl, rfl⟩ := Prod.mk.inj (Option.some.inj hk)
    exact hsched.semReset s value
  | mutexTake m time =>
    unfold RtThread.stepRunning at hk
    dsimp only at hk
    split_ifs at hk with hat
    obtain ⟨r, hr, heq⟩ := Option.map_eq_some_iff.1 hk
    have htake := hsched.mutexTake hcur hat hr
    rwa [heq] at htake
  | mutexRelease m =>
    unfold RtThread.stepRunning at hk
    dsimp only at hk
    split_ifs at hk with hat
    obtain ⟨r, hr, heq⟩ := Option.map_eq_some_iff.1 hk
    obtain ⟨rfl, rfl⟩ := Prod.mk.inj heq
    exact hsched.mutexRelease h.saved hcur hat hr
  | finish =>
    unfold RtThread.stepRunning at hk
    dsimp only at hk
    split_ifs at hk with hready
    exact hsched.finish hready.2 hk

theorem KernelInv.step (h : KernelInv cfg k) {op : Op} (hk : step cfg k op = some (k', events)) :
    Follows cfg k op events k' := by
  unfold RtThread.step at hk
  split at hk
  · rename_i hcur
    exact h.stepRunning hcur hk
  · obtain ⟨k₁, hk₁, heq⟩ := Option.map_eq_some_iff.1 hk
    obtain ⟨rfl, rfl⟩ := Prod.mk.inj heq
    exact h.toSchedInv.startup hk₁
  · rename_i hcur
    obtain ⟨k₁, hk₁, heq⟩ := Option.map_eq_some_iff.1 hk
    obtain ⟨rfl, rfl⟩ := Prod.mk.inj heq
    exact h.toSchedInv.schedulerStart hcur hk₁
  · cases hk

/-! ## Runs -/

theorem ViewStep.saved {self : Option ThreadId} {op : Op} {v' : View} (h : ViewStep cfg self v op events v')
    (hlt : ∀ t, (v.thread t).currentPriority < cfg.priorityMax) (hsaved : v.Saved cfg) : v'.Saved cfg := by
  have hupdate {w : View} (m : MutexId) {f : Mutex → Mutex} (hw : ∀ m', m' ≠ m → w.mutex m' = v.mutex m')
      (hf : (f (w.mutex m)).owner ≠ none → (f (w.mutex m)).originalPriority < cfg.priorityMax) :
      (w.setMutex m f).Saved cfg := by
    intro m'
    by_cases hm : m' = m
    · subst hm
      rw [View.setMutex_self]
      exact hf
    · rw [View.setMutex_ne _ _ hm, hw m' hm]
      exact hsaved m'
  have hlet (m : MutexId) (t : ThreadId) (m' : MutexId) (hm : m' ≠ m) : (v.letGo cfg m t).mutex m' = v.mutex m' := by
    rw [View.letGo_mutex, Function.update_of_ne hm]
  cases h with
  | mutexTakeNested m => exact hupdate m (fun _ _ => rfl) (hsaved m)
  | mutexTake m time t =>
    refine hupdate m (fun _ _ => rfl) fun _ => ?_
    rw [View.clearError, View.setThread_self]
    exact hlt t
  | mutexTakeBlocks m time t owner =>
    have hmutex := View.inherit_mutex cfg (v.clearError t) owner (v.thread t).currentPriority
    unfold View.Saved View.block
    rw [hmutex]
    exact hsaved
  | mutexReleaseNested m => exact hupdate m (fun _ _ => rfl) (hsaved m)
  | mutexReleaseHandOff m t next rest hcall howner =>
    change ((v.letGo cfg m t).own m next (v.mutex m).value).Saved cfg
    refine hupdate m (hlet m t) fun _ => ?_
    change ((v.letGo cfg m t).thread next).currentPriority < cfg.priorityMax
    rw [View.letGo_currentPriority]
    split_ifs
    · exact hsaved m (howner ▸ Option.some_ne_none t)
    · exact hlt next
  | mutexReleaseFree m t => exact hupdate m (hlet m t) fun hfree => absurd rfl hfree
  | _ => exact hsaved

theorem KernelInv.boot (setup : Setup cfg) : KernelInv cfg (Kernel.boot setup) where
  lists := {
    thread t := ⟨setup.priority_lt t, setup.priority_lt t, .inr ⟨rfl, rfl, rfl⟩, by simp [Kernel.boot, rtThreadInit],
      by simp [Kernel.boot, rtThreadInit]⟩
    ready := by simp [Kernel.boot]
    defunct := by simp [Kernel.boot]
    suspend := by simp [Kernel.boot]
    suspend_unique := by simp [Kernel.boot]
    nodup := by simp [Kernel.boot]
    bitmap := by
      have hempty : readySet (Kernel.boot setup) = ∅ := Set.eq_empty_of_forall_notMem fun p hp => hp rfl
      unfold ReadyBitmap
      rw [hempty]
      split_ifs
      · exact Bitmap.TwoLevel.empty
      · exact Bitmap.Flat.empty }
  complete := by simp [Kernel.boot, rtThreadInit]
  running := by simp [Kernel.boot]
  saved m hm := absurd rfl hm

theorem KernelInv.step_inv (h : KernelInv cfg k) {op : Op} (hk : RtThread.step cfg k op = some (k', events)) :
    KernelInv cfg k' := by
  obtain ⟨v', hv', hreaches⟩ := (h.step hk).view
  refine ⟨hreaches.inv, ?_⟩
  rw [hreaches.view]
  exact hv'.saved (fun t => (h.lists.thread t).current_lt) h.saved

variable {setup : Setup cfg} {ok : Kernel → Op → Prop} {trace : List Event}

theorem KernelRun.inv (h : KernelRun ok setup trace k) : KernelInv cfg k :=
  h.state_invariant (.boot setup) fun _ _ _ _ hinv _ => hinv.step_inv

theorem KernelRun.view_invariant {I : List Event → View → Prop} (h : KernelRun ok setup trace k)
    (hboot : I [] (Kernel.boot setup).view)
    (hstep : ∀ trace k op events v', KernelInv cfg k → I trace k.view → ok k op →
      ViewStep cfg k.current k.view op events v' → I (trace ++ events) v') : I trace k.view := by
  have hboth : KernelInv cfg k ∧ I trace k.view := by
    refine h.invariant (I := fun trace k => KernelInv cfg k ∧ I trace k.view) ⟨.boot setup, hboot⟩ ?_
    intro trace k op k' events hinv hok hk
    obtain ⟨v', hv', hreaches⟩ := (hinv.1.step hk).view
    refine ⟨hinv.1.step_inv hk, ?_⟩
    rw [hreaches.view]
    exact hstep trace k op events v' hinv.1 hinv.2 hok hv'
  exact hboth.2

end RtThread
