import RtThread.Vbus.PrioQueueOrder

/-!
# Runs of a priority queue

In every run the queue shows what the abstract queue shows. A pop that has unlinked an item returns it, unless the pool counts a thread that no longer waits for a block: then giving the block back fails.
-/

namespace RtThread

open Function

variable {s s' : PqState} {op : PqOp} {trace events : List PqEvent} {c : Caller} {prio item : Nat} {data : List UInt8}
  {timeout : Int} {t : ThreadId} {word : Nat → BlockWord} {contents : Nat → List UInt8} {itemNr itemSz : Nat}
  {priority : ThreadId → Nat} {expired : Nat} {pool : MemPool} {result : MpResult} {call : Option PqCall}

/-! ## Waiting threads -/

def PqEvent.isExpired : PqEvent → Bool
  | .expired _ => true
  | _ => false

/-- Who waits in a list is in the call that put it there, and so many threads more are counted in the pool than wait. -/
structure PqThreads (s : PqState) (expired : Nat) : Prop where
  pops : ∀ t ∈ s.suspendedPopList, ∃ timeout, s.call (.thread t) = some (.wait timeout)
  pushes : ∀ t ∈ s.pool.suspendThread, ∃ prio data time beforeSleep,
    s.call (.thread t) = some (.alloc prio data time beforeSleep)
  count : s.pool.Counted expired

theorem PqThreads.not_waiting (h : PqThreads s expired) {call : PqCall} (hcall : s.call c = some call)
    (hwait : ∀ timeout, call ≠ .wait timeout) (halloc : ∀ prio data time beforeSleep, call ≠ .alloc prio data time beforeSleep) :
    ¬ s.Waiting c := by
  intro hwaiting
  cases c with
  | interrupt n => exact hwaiting
  | thread t =>
    rcases hwaiting with ht | ht
    · obtain ⟨timeout, heq⟩ := h.pops t ht
      exact hwait timeout (Option.some.inj (hcall.symm.trans heq))
    · obtain ⟨prio, data, time, beforeSleep, heq⟩ := h.pushes t ht
      exact halloc prio data time beforeSleep (Option.some.inj (hcall.symm.trans heq))

theorem PqThreads.not_waiting_of_none (h : PqThreads s expired) (hcall : s.call c = none) : ¬ s.Waiting c := by
  intro hwaiting
  cases c with
  | interrupt n => exact hwaiting
  | thread t =>
    rcases hwaiting with ht | ht
    · obtain ⟨timeout, heq⟩ := h.pops t ht
      exact Option.some_ne_none _ (heq.symm.trans hcall)
    · obtain ⟨prio, data, time, beforeSleep, heq⟩ := h.pushes t ht
      exact Option.some_ne_none _ (heq.symm.trans hcall)

theorem PqThreads.goesOn (h : PqThreads s expired) (hc : ¬ s.Waiting c) (hpops : ∀ t ∈ s'.suspendedPopList, t ∈ s.suspendedPopList)
    (hpushes : ∀ t ∈ s'.pool.suspendThread, t ∈ s.pool.suspendThread) (hcount : s'.pool.Counted expired)
    (hcalls : ∀ c' ≠ c, s'.call c' = s.call c') : PqThreads s' expired := by
  refine ⟨fun t ht => ?_, fun t ht => ?_, hcount⟩
  · have hne : Caller.thread t ≠ c := by
      rintro rfl
      exact hc (.inl (hpops t ht))
    rw [hcalls _ hne]
    exact h.pops t (hpops t ht)
  · have hne : Caller.thread t ≠ c := by
      rintro rfl
      exact hc (.inr (hpushes t ht))
    rw [hcalls _ hne]
    exact h.pushes t (hpushes t ht)

theorem PqState.setCall_others : ∀ c' ≠ c, (s.setCall c call).call c' = s.call c' :=
  fun _ hc => update_of_ne hc ..

theorem PqThreads.allocates (h : PqThreads s expired) (hc : ¬ s.Waiting c) (heffect : AllocEffect s.pool c result pool)
    (prio : Nat) (data : List UInt8) : PqThreads (s.allocates c prio data (result, pool)).1 expired := by
  have hcount := h.count.alloc heffect
  cases heffect with
  | block _ _ _ => exact h.goesOn hc (fun _ ht => ht) (fun _ ht => ht) hcount PqState.setCall_others
  | null _ hlist _ =>
    refine h.goesOn hc (fun _ ht => ht) (fun t ht => ?_) hcount PqState.setCall_others
    rw [← hlist]
    exact ht
  | @wait t time timer heq _ =>
    subst heq
    obtain ⟨hpop, hpush⟩ := not_or.1 hc
    refine ⟨fun u hu => ?_, fun u hu => ?_, hcount⟩
    · have hne : Caller.thread u ≠ .thread t := by
        rintro heq
        cases heq
        exact hpop hu
      obtain ⟨timeout, heq⟩ := h.pops u hu
      exact ⟨timeout, (PqState.setCall_others _ hne).trans heq⟩
    · rcases List.mem_cons.1 hu with rfl | hmem
      · exact ⟨prio, data, time, s.pool.tick, update_self ..⟩
      · have hne : Caller.thread u ≠ .thread t := by
          rintro heq
          cases heq
          exact hpush hmem
        obtain ⟨prio', data', time', beforeSleep, heq⟩ := h.pushes u hmem
        exact ⟨prio', data', time', beforeSleep, (PqState.setCall_others _ hne).trans heq⟩

theorem PqState.resumePop_list : ∀ t ∈ s.resumePop.suspendedPopList, t ∈ s.suspendedPopList := by
  intro t ht
  unfold PqState.resumePop at ht
  split at ht
  · exact ht
  · rename_i first rest hlist
    rw [hlist]
    exact List.mem_cons_of_mem first ht

@[simp] theorem PqState.resumePop_suspendThread : s.resumePop.pool.suspendThread = s.pool.suspendThread := by
  unfold PqState.resumePop
  split <;> rfl

@[simp] theorem PqState.resumePop_suspendThreadCount : s.resumePop.pool.suspendThreadCount = s.pool.suspendThreadCount := by
  unfold PqState.resumePop
  split <;> rfl

theorem PqThreads.popLoop (h : PqThreads s expired) (hc : ¬ s.Waiting c) (hs : popLoop s c timeout = some (s', events)) :
    PqThreads s' expired ∧ events.countP PqEvent.isExpired = 0 := by
  unfold RtThread.popLoop at hs
  split at hs
  · cases hs
  · cases hs
    exact ⟨h.goesOn hc (fun _ ht => ht) (fun _ ht => ht) h.count PqState.setCall_others, rfl⟩
  · split at hs
    · cases hs
      exact ⟨h.goesOn hc (fun _ ht => ht) (fun _ ht => ht) h.count PqState.setCall_others, rfl⟩
    · cases c with
      | interrupt n => cases hs
      | thread t =>
        obtain ⟨timer, -, heq⟩ := Option.map_eq_some_iff.1 hs
        cases heq
        obtain ⟨hpop, hpush⟩ := not_or.1 hc
        refine ⟨⟨fun u hu => ?_, fun u hu => ?_, h.count⟩, rfl⟩
        · rcases List.mem_append.1 hu with hmem | hmem
          · have hne : Caller.thread u ≠ .thread t := by
              rintro heq
              cases heq
              exact hpop hmem
            obtain ⟨timeout', heq⟩ := h.pops u hmem
            exact ⟨timeout', (update_of_ne hne ..).trans heq⟩
          · rw [List.mem_singleton] at hmem
            subst hmem
            exact ⟨timeout, update_self ..⟩
        · have hne : Caller.thread u ≠ .thread t := by
            rintro heq
            cases heq
            exact hpush hu
          obtain ⟨prio, data, time, beforeSleep, heq⟩ := h.pushes u hu
          exact ⟨prio, data, time, beforeSleep, (update_of_ne hne ..).trans heq⟩

theorem MemPool.resumeFirst_list {s s' : MemPool} {code : IpcErr} (hs : s.resumeFirst code = some s') :
    ∀ t ∈ s'.suspendThread, t ∈ s.suspendThread := by
  obtain ⟨first, rest, hlist, rfl⟩ := MemPool.resumeFirst_cases hs
  intro t ht
  rw [hlist]
  exact List.mem_cons_of_mem first ht

theorem rtMpFree_list {s s' : MemPool} {block : Nat} (hs : rtMpFree s block = some s') :
    ∀ t ∈ s'.suspendThread, t ∈ s.suspendThread := by
  obtain ⟨-, ⟨-, rfl⟩ | ⟨-, hresume⟩⟩ := rtMpFree_cases hs
  · exact fun _ ht => ht
  · exact MemPool.resumeFirst_list (s := s.put block) hresume

theorem PqThreads.step (h : PqThreads s expired) (hs : stepPq s op = some (s', events)) :
    PqThreads s' (expired + events.countP PqEvent.isExpired) := by
  have hallocates : ∀ c prio data result pool, ¬ s.Waiting c → AllocEffect s.pool c result pool →
      s.allocates c prio data (result, pool) = (s', events) → PqThreads s' (expired + events.countP PqEvent.isExpired) := by
    intro c prio data result pool hc heffect heq
    have hthreads := h.allocates hc heffect prio data
    rw [heq] at hthreads
    cases heffect <;> cases heq <;> exact hthreads
  cases op with
  | push c prio data timeout =>
    simp only [stepPq] at hs
    split at hs
    · rename_i hguard
      unfold rtPrioQueuePush at hs
      split at hs
      · cases hs
        exact h
      · obtain ⟨⟨result, pool⟩, halloc, heq⟩ := Option.map_eq_some_iff.1 hs
        exact hallocates c prio data result pool (h.not_waiting_of_none hguard.1) (rtMpAlloc_effect halloc) heq
    · cases hs
  | pop c timeout =>
    simp only [stepPq] at hs
    split at hs
    · rename_i hcall
      obtain ⟨hthreads, hzero⟩ := h.popLoop (h.not_waiting_of_none hcall) hs
      rwa [hzero]
    · cases hs
  | resume c =>
    simp only [stepPq] at hs
    split at hs
    · cases hs
    · rename_i hc
      obtain ⟨call, hcall, hs⟩ := Option.bind_eq_some_iff.1 hs
      cases call with
      | alloc prio data time beforeSleep =>
        cases c with
        | interrupt n => cases hs
        | thread t =>
          obtain ⟨⟨result, pool⟩, halloc, heq⟩ := Option.map_eq_some_iff.1 hs
          exact hallocates (.thread t) prio data result pool hc (rtMpAllocResume_effect halloc) heq
      | allocated prio item data =>
        cases hs
        exact h.goesOn hc (fun _ ht => ht) (fun _ ht => ht) h.count PqState.setCall_others
      | filled prio item data =>
        obtain ⟨que', hpush, heq⟩ := Option.map_eq_some_iff.1 hs
        cases heq
        refine h.goesOn hc PqState.resumePop_list (fun t ht => ?_) ?_ fun c' hne => ?_
        · simpa [PqState.setCall] using ht
        · simpa [PqState.setCall, MemPool.Counted] using h.count
        · exact (PqState.setCall_others c' hne).trans (by simp)
      | wait timeout =>
        cases c with
        | interrupt n => cases hs
        | thread t =>
          simp only [resumeCall] at hs
          split at hs
          · cases hs
            exact h.goesOn hc (fun _ ht => ht) (fun _ ht => ht) h.count PqState.setCall_others
          · obtain ⟨hthreads, hzero⟩ := h.popLoop hc hs
            rwa [hzero]
      | unlinked item =>
        cases hs
        exact h.goesOn hc (fun _ ht => ht) (fun _ ht => ht) h.count PqState.setCall_others
      | copied item data =>
        obtain ⟨pool', hfree, heq⟩ := Option.map_eq_some_iff.1 hs
        cases heq
        exact h.goesOn hc (fun _ ht => ht) (rtMpFree_list hfree) (h.count.free hfree) PqState.setCall_others
  | timeout t =>
    simp only [stepPq] at hs
    split at hs
    · split at hs
      · cases hs
        exact ⟨fun u hu => h.pops u (List.mem_of_mem_erase hu), h.pushes, h.count⟩
      · cases hs
    · obtain ⟨pool', htimeout, heq⟩ := Option.map_eq_some_iff.1 hs
      cases heq
      refine ⟨h.pops, fun u hu => h.pushes u ?_, h.count.threadTimeout htimeout⟩
      obtain ⟨-, rfl⟩ := MemPool.threadTimeout_cases htimeout
      exact List.mem_of_mem_erase hu
  | tick =>
    cases hs
    exact ⟨h.pops, h.pushes, h.count⟩

theorem pqThreads_init : PqThreads (.init word contents itemNr itemSz priority) 0 :=
  ⟨fun _ ht => absurd ht List.not_mem_nil, fun _ ht => absurd ht List.not_mem_nil, rfl⟩

theorem pqThreads_of_run (hrun : PqRun word contents itemNr itemSz priority trace s) :
    PqThreads s (trace.countP PqEvent.isExpired) := by
  refine hrun.invariant (I := fun trace s => PqThreads s (trace.countP PqEvent.isExpired)) ?_ ?_
  · exact pqThreads_init
  · intro trace s op s' events h _ hs
    rw [List.countP_append]
    exact h.step hs

/-! ## The abstract queue in every run -/

theorem PqThreads.not_pushing (h : PqThreads s expired) (ht : t ∈ s.pool.suspendThread) :
    s.call (.thread t) ≠ some (.wait timeout) := by
  obtain ⟨prio, data, time, beforeSleep, heq⟩ := h.pushes t ht
  rw [heq]
  exact fun h => PqCall.noConfusion (Option.some.inj h)

theorem PqState.ne_of_not_waiting (hc : ¬ s.Waiting c) : ∀ t ∈ s.suspendedPopList, .thread t ≠ c := by
  rintro t ht rfl
  exact hc (.inl ht)

theorem rtMpAlloc_thread {time : Int} (hs : rtMpAlloc pool c time = some (result, pool')) (ht : .thread t ≠ c) :
    pool'.thread t = pool.thread t := by
  have hset : ∀ u (thread : Waiter), c = .thread u → update pool.thread u thread t = pool.thread t := by
    rintro u thread rfl
    exact update_of_ne (fun heq => ht (congrArg Caller.thread heq)) ..
  unfold rtMpAlloc at hs
  split at hs
  · cases c with
    | interrupt n =>
      dsimp only at hs
      split at hs <;> cases hs
      rfl
    | thread u =>
      dsimp only at hs
      split at hs
      · cases hs
        exact hset u _ rfl
      · obtain ⟨timer, -, heq⟩ := Option.map_eq_some_iff.1 hs
        cases heq
        exact hset u _ rfl
  · split at hs
    · cases hs
    · split at hs <;> cases hs
      rfl

theorem rtMpAllocResume_thread {time : Int} {u : ThreadId} {beforeSleep : BitVec 32}
    (hs : rtMpAllocResume pool u time beforeSleep = some (result, pool')) (ht : Caller.thread t ≠ .thread u) :
    pool'.thread t = pool.thread t := by
  unfold rtMpAllocResume at hs
  split at hs
  · cases hs
    rfl
  · exact rtMpAlloc_thread hs ht

theorem rtMpFree_thread {block : Nat} (hs : rtMpFree pool block = some pool') (ht : t ∉ pool.suspendThread) :
    pool'.thread t = pool.thread t := by
  obtain ⟨-, ⟨-, rfl⟩ | ⟨-, hresume⟩⟩ := rtMpFree_cases hs
  · rfl
  · obtain ⟨first, rest, hlist, rfl⟩ := MemPool.resumeFirst_cases hresume
    have hput : (pool.put block).suspendThread = pool.suspendThread := rfl
    rw [hput] at hlist
    exact update_of_ne (fun heq => ht (by rw [hlist, heq]; exact List.mem_cons_self ..)) ..

theorem PqState.resumePop_sublist : s.resumePop.suspendedPopList.Sublist s.suspendedPopList := by
  unfold PqState.resumePop
  split
  · exact .refl _
  · rename_i first rest hlist
    rw [hlist]
    exact List.sublist_cons_self first rest

theorem PqState.resumePop_error (t : ThreadId) : (s.resumePop.pool.thread t).error = (s.pool.thread t).error := by
  unfold PqState.resumePop
  split
  · rfl
  · rename_i first rest hlist
    by_cases hfirst : t = first
    · subst hfirst
      simp only [MemPool.setThread, update_self]
    · exact congrArg Waiter.error (update_of_ne hfirst ..)

variable {a a' : AbstractPq}

/-- `c` goes on in a call that does not wait for an item, and the abstract pops stay. -/
theorem PqWaits.setCall (h : PqWaits s a) (hc : ∀ t ∈ s.suspendedPopList, .thread t ≠ c)
    (hlist : s'.suspendedPopList.Sublist s.suspendedPopList) (hcall : ∀ timeout, call ≠ some (.wait timeout))
    (herror : ∀ t, .thread t ≠ c → (s'.pool.thread t).error = (s.pool.thread t).error) (hpop : a'.pop = a.pop)
    (hcalls : s'.call = s.call) : PqWaits (s'.setCall c call) a' :=
  h.goesOn hc hlist (fun c' _ => congrFun hpop c') (fun timeout => by simpa [PqState.setCall] using hcall timeout)
    (fun c' hne => (PqState.setCall_others c' hne).trans (congrFun hcalls c')) fun t _ ht _ => herror t ht

theorem PqWaits.allocates (h : PqWaits s a) (hc : ∀ t ∈ s.suspendedPopList, .thread t ≠ c)
    (heffect : AllocEffect s.pool c result pool) (hthread : ∀ t, .thread t ≠ c → pool.thread t = s.pool.thread t)
    (prio : Nat) (data : List UInt8) : PqWaits (s.allocates c prio data (result, pool)).1 a := by
  have herror : ∀ t, .thread t ≠ c → (pool.thread t).error = (s.pool.thread t).error :=
    fun t ht => congrArg Waiter.error (hthread t ht)
  cases heffect <;> exact h.setCall hc (.refl _) (by simp) herror rfl rfl

theorem PqWaits.timesOut (h : PqWaits s a) (ht : t ∈ s.suspendedPopList) :
    PqWaits { s with
      suspendedPopList := s.suspendedPopList.erase t
      pool := s.pool.setThread t fun thread => { thread with error := .etimeout, timer := false } }
      { a with pop := update a.pop (.thread t) .late } := by
  have hcall : ∀ {u : ThreadId}, u ≠ t → Caller.thread u ≠ .thread t := fun hne heq => hne (Caller.thread.inj heq)
  refine ⟨h.nodup.erase t, fun u hu => ?_, fun u time hwait hne => ?_⟩
  · obtain ⟨hut, hmem⟩ := h.nodup.mem_erase_iff.1 hu
    exact (update_of_ne (hcall hut) ..).trans (h.asleep u hmem)
  · by_cases hut : u = t
    · subst hut
      exact ⟨by simp only [MemPool.setThread, update_self], update_self ..⟩
    · have hkeep : (s.pool.setThread t fun thread => { thread with error := .etimeout, timer := false }).thread u =
        s.pool.thread u := update_of_ne hut ..
      rw [hkeep] at hne ⊢
      obtain ⟨herror, hlate⟩ := h.late u time hwait hne
      exact ⟨herror, (update_of_ne (hcall hut) ..).trans hlate⟩

theorem PqRel.step {a : AbstractPq} {lists : Nat → List Nat} {place : Nat → Option Place} (h : PqRel s a lists place)
    (hw : PqWaits s a) (hthreads : PqThreads s expired) (hs : stepPq s op = some (s', events)) :
    ∃ op' a' lists' place', stepAbstractPq a op' = some (a', events) ∧ PqRel s' a' lists' place' ∧ PqWaits s' a' := by
  -- `rt_mp_alloc` fails, waits, or brings a block
  have hallocates : ∀ c prio data result pool, ¬ s.Waiting c → (∀ m, (c, m) ∉ a.taken) → prio < 32 →
      AllocEffect s.pool c result pool → (∀ t, .thread t ≠ c → pool.thread t = s.pool.thread t) →
      s.allocates c prio data (result, pool) = (s', events) →
      ∃ op' a' lists' place', stepAbstractPq a op' = some (a', events) ∧ PqRel s' a' lists' place' ∧ PqWaits s' a' := by
    intro c prio data result pool hc hidle hprio heffect hthread heq
    obtain ⟨place', hrel⟩ := h.allocates hidle hprio heffect data
    have hother : ∀ e ∈ events, e.ofQueue = false := by
      cases heffect <;> cases heq <;> simp [PqEvent.ofQueue]
    have hwaits := hw.allocates (PqState.ne_of_not_waiting hc) heffect hthread prio data
    rw [heq] at hrel hwaits
    exact ⟨.other events, a, lists, place', if_pos hother, hrel, hwaits⟩
  cases op with
  | push c prio data timeout =>
    simp only [stepPq] at hs
    split at hs
    · rename_i hguard
      unfold rtPrioQueuePush at hs
      by_cases hprio : rtPrioQueuePrioMax ≤ prio
      · rw [if_pos hprio] at hs
        cases hs
        exact ⟨.other [.refused c], a, lists, place, rfl, h, hw⟩
      · rw [if_neg hprio] at hs
        obtain ⟨⟨result, pool⟩, halloc, heq⟩ := Option.map_eq_some_iff.1 hs
        exact hallocates c prio data result pool (hthreads.not_waiting_of_none hguard.1) (h.idle hguard.1)
          (Nat.lt_of_not_le hprio) (rtMpAlloc_effect halloc) (fun _ ht => rtMpAlloc_thread halloc ht) heq
    · cases hs
  | pop c timeout =>
    simp only [stepPq] at hs
    split at hs
    · rename_i hcall
      exact h.popLoop hw (PqState.ne_of_not_waiting (hthreads.not_waiting_of_none hcall)) (h.idle hcall) hs
    · cases hs
  | resume c =>
    simp only [stepPq] at hs
    split at hs
    · cases hs
    · rename_i hwaiting
      obtain ⟨call, hcall, hs⟩ := Option.bind_eq_some_iff.1 hs
      have hc := PqState.ne_of_not_waiting hwaiting
      have hfits := h.calls c
      rw [hcall] at hfits
      cases call with
      | alloc prio data time beforeSleep =>
        cases c with
        | interrupt n => cases hs
        | thread t =>
          obtain ⟨⟨result, pool⟩, halloc, heq⟩ := Option.map_eq_some_iff.1 hs
          exact hallocates (.thread t) prio data result pool hwaiting hfits.takes (hfits.prio prio rfl)
            (rtMpAllocResume_effect halloc) (fun _ ht => rtMpAllocResume_thread halloc ht) heq
      | allocated prio item data =>
        cases hs
        exact ⟨.other [], a, lists, place, rfl, h.fill hcall, hw.setCall hc (.refl _) (by simp) (fun _ _ => rfl) rfl rfl⟩
      | filled prio item data =>
        obtain ⟨s'', lists', place', hlink, hrel⟩ := h.pushLink hcall
        obtain ⟨rfl, rfl⟩ := Prod.mk.inj (Option.some.inj (hlink.symm.trans hs))
        refine ⟨.push c prio data, _, lists', place', rfl, hrel, ?_⟩
        obtain ⟨que', -, heq⟩ := Option.map_eq_some_iff.1 hlink
        cases heq
        exact hw.setCall hc PqState.resumePop_sublist (by simp) (fun t _ => PqState.resumePop_error t) rfl PqState.resumePop_call
      | wait timeout =>
        cases c with
        | interrupt n => cases hs
        | thread t =>
          simp only [resumeCall] at hs
          split at hs
          · cases hs
            rename_i hne
            obtain ⟨herror, hlate⟩ := hw.late t timeout hcall hne
            rw [herror]
            refine ⟨.fail (.thread t), _, lists, place, if_pos (.inr hlate), ?_, ?_⟩
            · exact h.frame rfl rfl rfl (fun b hb => hb) (callFits_setCall (callFits_none hfits.takes) fun c' _ => h.calls c')
            · exact hw.goesOn hc (.refl _) (fun c' hne => update_of_ne hne ..) (fun _ => by simp [PqState.setCall])
                (fun c' hne => update_of_ne hne ..) fun _ _ _ _ => rfl
          · exact h.popLoop hw hc hfits.takes hs
      | unlinked item =>
        cases hs
        exact ⟨.other [], a, lists, place, rfl, h.copy hcall, hw.setCall hc (.refl _) (by simp) (fun _ _ => rfl) rfl rfl⟩
      | copied item data =>
        obtain ⟨op', a', place', hstep, hrel, hpop⟩ := h.popReturn hcall hs
        refine ⟨op', a', lists, place', hstep, hrel, ?_⟩
        obtain ⟨pool, hfree, heq⟩ := Option.map_eq_some_iff.1 hs
        cases heq
        refine hw.goesOn hc (.refl _) (fun c' _ => congrFun hpop c') (fun _ => by simp [PqState.setCall])
          (fun c' hne => update_of_ne hne ..) fun t time _ hwait => ?_
        exact congrArg Waiter.error (rtMpFree_thread hfree fun ht => hthreads.not_pushing ht hwait)
  | timeout t =>
    simp only [stepPq] at hs
    split at hs
    · split at hs
      · cases hs
        rename_i ht _
        exact ⟨.late t, _, lists, place, if_pos (hw.asleep t ht), h.frame rfl rfl rfl (fun b hb => hb) h.calls, hw.timesOut ht⟩
      · cases hs
    · obtain ⟨pool, htimeout, heq⟩ := Option.map_eq_some_iff.1 hs
      cases heq
      obtain ⟨ht, rfl⟩ := MemPool.threadTimeout_cases htimeout
      refine ⟨.other [.expired t], a, lists, place, rfl, h.frame rfl rfl rfl (fun b hb => hb) h.calls, ?_⟩
      refine ⟨hw.nodup, hw.asleep, fun u time hwait => ?_⟩
      have hne : u ≠ t := by
        rintro rfl
        exact hthreads.not_pushing ht hwait
      have hkeep : update s.pool.thread t { s.pool.thread t with error := .etimeout, timer := false } u = s.pool.thread u :=
        update_of_ne hne ..
      simp only [MemPool.setThread, hkeep]
      exact hw.late u time hwait
  | tick =>
    cases hs
    exact ⟨.other [], a, lists, place, rfl, h.frame rfl rfl rfl (fun b hb => hb) h.calls, hw.nodup, hw.asleep, hw.late⟩

theorem pqRel_init : PqRel (.init word contents itemNr itemSz priority) .empty (fun _ => []) fun _ => none := by
  refine ⟨⟨fun _ => rfl, fun _ hne => absurd rfl hne, ?_⟩, fun _ => List.nodup_nil, fun _ _ hb => absurd hb List.not_mem_nil,
    fun _ _ hb => absurd hb.symm (Option.some_ne_none _), fun _ => rfl, List.nodup_nil,
    fun _ => callFits_none fun _ => List.not_mem_nil⟩
  have hempty : {p : Nat | ([] : List Nat) ≠ []} = ∅ := by simp
  rw [hempty]
  exact Bitmap.Flat.empty

theorem pqRel_of_run (hrun : PqRun word contents itemNr itemSz priority trace s) :
    ∃ a, AbstractPqRun trace a ∧ ∃ lists place, PqRel s a lists place := by
  obtain ⟨a, habstract, lists, place, hrel, -⟩ := hrun.refines
    (R := fun s a => ∃ lists place, PqRel s a lists place ∧ PqWaits s a ∧ ∃ expired, PqThreads s expired)
    ⟨_, _, pqRel_init, ⟨List.nodup_nil, fun _ ht => absurd ht List.not_mem_nil, fun _ _ hwait => Option.noConfusion rfl (heq_of_eq hwait)⟩,
      0, pqThreads_init⟩ fun s a op s' events ⟨lists, place, h, hw, expired, hthreads⟩ _ hs => by
      obtain ⟨op', a', lists', place', hstep, hrel, hwaits⟩ := h.step hw hthreads hs
      exact ⟨op', a', hstep, lists', place', hrel, hwaits, _, hthreads.step hs⟩
  exact ⟨a, habstract, lists, place, hrel⟩

/-! ## What holds in every run -/

/-- The list of each priority has the items of that priority that wait in the abstract queue, its bit says whether there are any, and an item that has been taken is in the hands of the pop that took it. -/
structure PqState.Represents (s : PqState) (a : AbstractPq) : Prop where
  lists : ∀ prio, ∃ items, LinkedFrom s.queue.next (s.queue.head prio) items ∧
    items.map s.queue.data = (a.waiting.filter fun i => i.prio = prio).map PqItem.data
  bitmap : ∀ prio < rtPrioQueuePrioMax, s.queue.bitmap.getLsbD prio = true ↔ s.queue.head prio ≠ none
  taken : ∀ c m, (c, m) ∈ a.taken → (∃ item, s.call c = some (.unlinked item) ∧ s.queue.data item = m.data) ∨
    ∃ item, s.call c = some (.copied item m.data)

/-- A pop that looks while an item waits unlinks one, and a push that has filled its item links it. -/
structure PqState.Serves (s : PqState) (a : AbstractPq) : Prop where
  takes : ∀ c timeout, s.call c = none → a.waiting ≠ [] → ∃ s', stepPq s (.pop c timeout) = some (s', [.unlinked c])
  retakes : ∀ t timeout, s.call (.thread t) = some (.wait timeout) → ¬ s.Waiting (.thread t) → (s.pool.thread t).error = .eok →
    a.waiting ≠ [] → ∃ s', stepPq s (.resume (.thread t)) = some (s', [.unlinked (.thread t)])
  links : ∀ c prio item data, s.call c = some (.filled prio item data) →
    ∃ s', stepPq s (.resume c) = some (s', [.pushed c prio data])

/-- A pop that has unlinked an item goes on and returns the data of the item. -/
structure PqState.PopsReturn (s : PqState) : Prop where
  copies : ∀ c item, s.call c = some (.unlinked item) →
    stepPq s (.resume c) = some (s.setCall c (some (.copied item (s.queue.data item))), [])
  returns : ∀ c item data, s.call c = some (.copied item data) → ∃ s', stepPq s (.resume c) = some (s', [.popped c data])

theorem PqRel.represents {a : AbstractPq} {lists : Nat → List Nat} {place : Nat → Option Place} (h : PqRel s a lists place) :
    s.Represents a := by
  refine ⟨fun p => ⟨lists p, h.order.linked p, h.data p⟩, fun p hp => ?_, fun c m hm => ?_⟩
  · rw [h.order.bitmap.bit p hp, Ne, (h.order.linked p).eq_none_iff]
    rfl
  · have htakes := (h.calls c).takes
    generalize hcall : s.call c = call at htakes
    rcases call with _ | call
    · exact absurd hm (htakes m)
    · cases call with
      | unlinked item =>
        obtain ⟨m', hm', hdata⟩ := htakes
        obtain rfl := (hm' m).1 hm
        exact .inl ⟨item, rfl, hdata⟩
      | copied item data =>
        obtain ⟨m', hm', rfl⟩ := htakes
        obtain rfl := (hm' m).1 hm
        exact .inr ⟨item, rfl⟩
      | alloc prio data time beforeSleep => exact absurd hm (htakes m)
      | allocated prio item data => exact absurd hm (htakes m)
      | filled prio item data => exact absurd hm (htakes m)
      | wait timeout => exact absurd hm (htakes m)

theorem PqRel.popLoop_takes {a : AbstractPq} {lists : Nat → List Nat} {place : Nat → Option Place} (h : PqRel s a lists place)
    (hne : a.waiting ≠ []) (c : Caller) (timeout : Int) : ∃ s', RtThread.popLoop s c timeout = some (s', [.unlinked c]) := by
  rcases h.order.doPop with ⟨-, hempty⟩ | ⟨p, item, rest, que', -, -, hpop, -⟩
  · exact absurd (h.waiting_eq_nil hempty) hne
  · exact ⟨{ s with queue := que' }.setCall c (some (.unlinked item)), by simp only [RtThread.popLoop, hpop]⟩

theorem PqRel.serves {a : AbstractPq} {lists : Nat → List Nat} {place : Nat → Option Place} (h : PqRel s a lists place)
    (hthreads : PqThreads s expired) : s.Serves a := by
  refine ⟨fun c timeout hcall hne => ?_, fun t timeout hcall hwait herror hne => ?_, fun c prio item data hcall => ?_⟩
  · rw [stepPq, if_pos hcall]
    exact h.popLoop_takes hne c timeout
  · rw [stepPq, if_neg hwait, hcall]
    obtain ⟨s', hs⟩ := h.popLoop_takes hne (.thread t) timeout
    exact ⟨s', (if_neg (not_not.2 herror)).trans hs⟩
  · have hwait := hthreads.not_waiting hcall (fun _ => PqCall.noConfusion) fun _ _ _ _ => PqCall.noConfusion
    obtain ⟨s', lists', place', hs, -⟩ := h.pushLink hcall
    rw [stepPq, if_neg hwait, hcall]
    exact ⟨s', hs⟩

theorem MemPool.Counted.exists_free {s : MemPool} {block : Nat} (h : s.Counted 0) (hword : s.word block = .pool) :
    ∃ s', rtMpFree s block = some s' := by
  rw [rtMpFree, if_pos hword]
  split
  · rename_i hpos
    have hcount : s.suspendThreadCount = s.suspendThread.length + 0 := h
    cases hlist : s.suspendThread with
    | nil =>
      rw [hlist, List.length_nil] at hcount
      exact absurd hpos (by rw [show (s.put block).suspendThreadCount = s.suspendThreadCount from rfl, hcount]; omega)
    | cons t rest =>
      have hput : (s.put block).suspendThread = t :: rest := hlist
      exact ⟨_, by rw [MemPool.resumeFirst, hput]⟩
  · exact ⟨_, rfl⟩

theorem PqRel.popsReturn {a : AbstractPq} {lists : Nat → List Nat} {place : Nat → Option Place} (h : PqRel s a lists place)
    (hthreads : PqThreads s 0) : s.PopsReturn := by
  constructor
  · intro c item hcall
    have hwait := hthreads.not_waiting hcall (fun _ => PqCall.noConfusion) fun _ _ _ _ => PqCall.noConfusion
    rw [stepPq, if_neg hwait, hcall]
    rfl
  · intro c item data hcall
    have hwait := hthreads.not_waiting hcall (fun _ => PqCall.noConfusion) fun _ _ _ _ => PqCall.noConfusion
    have hheld : place item = some (.held c) := (h.calls c).held item (by rw [hcall]; rfl)
    obtain ⟨pool, hfree⟩ := hthreads.count.exists_free (h.word item _ hheld)
    rw [stepPq, if_neg hwait, hcall]
    exact ⟨{ s with pool }.setCall c none, by simp [resumeCall, RtThread.popReturn, hfree]⟩

theorem countP_pqExpired_eq_zero (h : ∀ t, .expired t ∉ trace) : trace.countP PqEvent.isExpired = 0 := by
  rw [List.countP_eq_zero]
  intro e he hexpired
  cases e with
  | expired t => exact h t he
  | _ => exact Bool.false_ne_true hexpired

/-- In every run the queue shows what the abstract queue shows, and serves its callers; and as long as no thread has given up waiting for a block, every pop that has unlinked an item returns it. -/
theorem prioQueue_of_run (hrun : PqRun word contents itemNr itemSz priority trace s) :
    (∃ a, AbstractPqRun trace a ∧ a.EachOnce ∧ s.Represents a ∧ s.Serves a) ∧ ((∀ t, .expired t ∉ trace) → s.PopsReturn) := by
  obtain ⟨a, habstract, lists, place, hrel⟩ := pqRel_of_run hrun
  have hthreads := pqThreads_of_run hrun
  refine ⟨⟨a, habstract, eachOnce_of_run habstract, hrel.represents, hrel.serves hthreads⟩, fun hnone => ?_⟩
  rw [countP_pqExpired_eq_zero hnone] at hthreads
  exact hrel.popsReturn hthreads

/-- Two pushes, and the second item, which is more urgent, has been unlinked. -/
theorem prioQueue_of_two : ∃ trace s, PqRun (fun _ => .pool) (fun _ => []) 2 1 (fun _ => 0) trace s ∧
    s.call (.thread 0) = some (.copied 1 [8]) ∧
    (∃ a, AbstractPqRun trace a ∧ a.EachOnce ∧ s.Represents a ∧ s.Serves a) ∧ ((∀ t, .expired t ∉ trace) → s.PopsReturn) := by
  obtain ⟨trace, s, hrun, hfound⟩ := exists_pqRun 2 1
    [.push (.thread 0) 5 [7] 0, .resume (.thread 0), .resume (.thread 0), .push (.interrupt 0) 3 [8] 0,
      .resume (.interrupt 0), .resume (.interrupt 0), .pop (.thread 0) 0, .resume (.thread 0)]
    (fun _ s => decide (s.call (.thread 0) = some (.copied 1 [8]))) (by decide)
  exact ⟨trace, s, hrun, of_decide_eq_true hfound, prioQueue_of_run hrun⟩

/-- A push has given up waiting for the only block. The pop of the item that lies in the block cannot give it back, and never returns. -/
theorem prioQueue_fails : ∃ trace s, PqRun (fun _ => .pool) (fun _ => []) 1 1 (fun _ => 0) trace s ∧
    (∃ c item data, s.call c = some (.copied item data) ∧ ¬ s.Waiting c ∧ stepPq s (.resume c) = none) ∧ ¬ s.PopsReturn := by
  obtain ⟨trace, s, hrun, hfound⟩ := exists_pqRun 1 1
    [.push (.thread 0) 5 [7] 0, .resume (.thread 0), .resume (.thread 0), .push (.thread 1) 5 [8] 10, .timeout 1,
      .resume (.thread 1), .pop (.thread 2) 0, .resume (.thread 2)]
    (fun _ s => decide (s.call (.thread 2) = some (.copied 0 [7]) ∧ ¬ s.Waiting (.thread 2)) &&
      (stepPq s (.resume (.thread 2))).isNone) (by decide)
  obtain ⟨hcall, hstep⟩ := Bool.and_eq_true_iff.1 hfound
  obtain ⟨hcall, hwait⟩ := of_decide_eq_true hcall
  have hnone := Option.isNone_iff_eq_none.1 hstep
  refine ⟨trace, s, hrun, ⟨.thread 2, 0, [7], hcall, hwait, hnone⟩, fun hreturn => ?_⟩
  obtain ⟨s', hs'⟩ := hreturn.returns _ _ _ hcall
  rw [hnone] at hs'
  exact Option.some_ne_none _ hs'.symm

end RtThread
