import RtThread.Kernel.Refinement

/-!
# Threads that wait for an object

A thread that blocks on a semaphore or a mutex is in its suspend list until a release hands it what it waits for, its timer expires or the object is reset. Then it is ready, still inside its take, and its error number says which of these it was. Who has been handed something and has not returned from the take can be read off what the calls have shown.
-/

namespace RtThread

open Function

variable {cfg : Config} {k k' : Kernel} {v v' : View} {o : IpcObject} {t : ThreadId} {pending : List ThreadId}

def Call.object : Call → Option IpcObject
  | .semTake s => some (.sem s)
  | .mutexTake m _ => some (.mutex m)
  | .sleep => none

def View.taking (v : View) (t : ThreadId) : Option IpcObject := (v.call t).bind Call.object

def pendingAfter (o : IpcObject) (pending : List ThreadId) : Event → List ThreadId
  | .semRelease s (some t) => if o = .sem s then t :: pending else pending
  | .semTake s (some t) .eok => if o = .sem s then pending.erase t else pending
  | .mutexRelease m _ _ (some t) => if o = .mutex m then t :: pending else pending
  | .mutexTake m t .eok => if o = .mutex m then pending.erase t else pending
  | _ => pending

/-- Blocked threads are woken by their object or their timer only, and nobody blocks with the scheduler locked. -/
def WaitUse (k : Kernel) : Op → Prop
  | .suspend t | .resume t | .detach t | .delete t => k.call t = none
  | .enterCritical => False
  | _ => True

instance (k : Kernel) (op : Op) : Decidable (WaitUse k op) := by
  induction op using Op.casesOn <;> dsimp only [WaitUse] <;> infer_instance

/-! ## The invariant -/

structure WaitInv (o : IpcObject) (pending : List ThreadId) (v : View) : Prop where
  waiting : ∀ t ∈ v.waiters o, v.taking t = some o ∧ (v.thread t).error = .eok
  /-- A thread that has been woken has a clear error number if it was handed the object, and only then. -/
  woken : ∀ t, v.taking t = some o → t ∉ v.waiters o →
    (v.thread t).stat = .ready ∧ (t ∈ pending ↔ (v.thread t).error = .eok)
  handed : ∀ t ∈ pending, v.taking t = some o ∧ t ∉ v.waiters o
  nodup : pending.Nodup

structure WaitFrame (o : IpcObject) (v v' : View) : Prop where
  waiters : v'.waiters o = v.waiters o
  taking : ∀ t, v'.taking t = some o ↔ v.taking t = some o
  thread : ∀ t, v.taking t = some o → (v'.thread t).error = (v.thread t).error ∧
    ((v.thread t).stat = .ready → (v'.thread t).stat = .ready)

theorem WaitInv.frame (h : WaitInv o pending v) (hframe : WaitFrame o v v') : WaitInv o pending v' where
  waiting t ht := by
    obtain ⟨htaking, herror⟩ := h.waiting t (hframe.waiters ▸ ht)
    exact ⟨(hframe.taking t).2 htaking, (hframe.thread t htaking).1.trans herror⟩
  woken t htaking ht := by
    have htaking := (hframe.taking t).1 htaking
    obtain ⟨hstat, hpending⟩ := h.woken t htaking (hframe.waiters ▸ ht)
    obtain ⟨herror, hready⟩ := hframe.thread t htaking
    exact ⟨hready hstat, by rw [hpending, herror]⟩
  handed t ht := by
    rw [hframe.taking, hframe.waiters]
    exact h.handed t ht
  nodup := h.nodup

theorem WaitInv.not_taking (h : WaitInv o pending v) (hstat : (v.thread t).stat ≠ .ready) (hnot : t ∉ v.waiters o) :
    v.taking t ≠ some o :=
  fun htaking => hstat (h.woken t htaking hnot).1

theorem View.taking_none (h : v.call t = none) (o : IpcObject) : v.taking t ≠ some o := by
  rw [View.taking, h]
  exact (Option.some_ne_none _).symm

theorem View.taking_of_call {c : Call} (h : v.call t = some c) : v.taking t = c.object := by
  rw [View.taking, h]
  rfl

namespace WaitFrame

theorem refl (o : IpcObject) (v : View) : WaitFrame o v v :=
  ⟨rfl, fun _ => Iff.rfl, fun _ _ => ⟨rfl, id⟩⟩

theorem trans {v'' : View} (h : WaitFrame o v v') (h' : WaitFrame o v' v'') : WaitFrame o v v'' where
  waiters := h'.waiters.trans h.waiters
  taking t := (h'.taking t).trans (h.taking t)
  thread t htaking := by
    obtain ⟨herror, hready⟩ := h.thread t htaking
    obtain ⟨herror', hready'⟩ := h'.thread t ((h.taking t).2 htaking)
    exact ⟨herror'.trans herror, fun hstat => hready' (hready hstat)⟩

theorem setThread (f : Thread → Thread) (htaking : v.taking t ≠ some o) : WaitFrame o v (v.setThread t f) where
  waiters := rfl
  taking _ := Iff.rfl
  thread u hu := by
    have hne : u ≠ t := fun heq => htaking (heq ▸ hu)
    rw [v.setThread_ne f hne]
    exact ⟨rfl, id⟩

theorem setPriority (cfg : Config) (v : View) (t : ThreadId) (priority : Nat) :
    WaitFrame o v (v.setThread t (Thread.setPriority cfg priority)) where
  waiters := rfl
  taking _ := Iff.rfl
  thread u _ := by
    by_cases hu : u = t
    · subst hu
      rw [View.setThread_self, Thread.setPriority_error, Thread.setPriority_stat]
      exact ⟨rfl, id⟩
    · rw [v.setThread_ne _ hu]
      exact ⟨rfl, id⟩

theorem setCall (c : Option Call) (htaking : v.taking t ≠ some o) (hc : c.bind Call.object ≠ some o) :
    WaitFrame o v (v.setCall t c) where
  waiters := rfl
  taking u := by
    by_cases hu : u = t
    · subst hu
      unfold View.taking at htaking ⊢
      rw [View.setCall_self]
      exact iff_of_false hc htaking
    · unfold View.taking
      rw [v.setCall_ne c hu]
  thread _ _ := ⟨rfl, id⟩

theorem setSem (v : View) (s : SemId) (f : Sem → Sem) : WaitFrame o v (v.setSem s f) :=
  ⟨rfl, fun _ => Iff.rfl, fun _ _ => ⟨rfl, id⟩⟩

theorem setMutex (v : View) (m : MutexId) (f : Mutex → Mutex) : WaitFrame o v (v.setMutex m f) :=
  ⟨rfl, fun _ => Iff.rfl, fun _ _ => ⟨rfl, id⟩⟩

theorem unlink (hnot : t ∉ v.waiters o) : WaitFrame o v (v.unlink t) :=
  ⟨List.erase_of_not_mem hnot, fun _ => Iff.rfl, fun _ _ => ⟨rfl, id⟩⟩

theorem wake (f : Thread → Thread) (htaking : v.taking t ≠ some o) (hnot : t ∉ v.waiters o) :
    WaitFrame o v (v.wake t f) :=
  (unlink hnot).trans (setThread _ htaking)

theorem wakeAll {o' : IpcObject} (ho : o ≠ o') (htaking : ∀ t ∈ v.waiters o', v.taking t ≠ some o) :
    WaitFrame o v (v.wakeAll o') where
  waiters := update_of_ne ho ..
  taking _ := Iff.rfl
  thread t ht := by
    unfold View.wakeAll
    dsimp only
    rw [if_neg fun hmem => htaking t hmem ht]
    exact ⟨rfl, id⟩

theorem block {o' : IpcObject} {call : Call} (flag : IpcFlag) (time : Int) (ho : o ≠ o')
    (htaking : v.taking t ≠ some o) (hc : call.object ≠ some o) : WaitFrame o v (v.block o' t flag time call) where
  waiters := update_of_ne ho ..
  taking := (setCall (some call) htaking hc).taking
  thread := (setThread (fun thread => { thread with stat := .suspend, timer := decide (0 < time) }) htaking).thread

theorem inherit (cfg : Config) (v : View) (owner : ThreadId) (priority : Nat) :
    WaitFrame o v (v.inherit cfg owner priority) := by
  unfold View.inherit
  split_ifs
  · exact setPriority cfg v owner priority
  · exact refl o v

theorem letGo (cfg : Config) (v : View) (m : MutexId) (t : ThreadId) : WaitFrame o v (v.letGo cfg m t) := by
  unfold View.letGo View.restore
  split_ifs
  · exact (setMutex v m _).trans (setPriority cfg _ t _)
  · exact setMutex v m _

end WaitFrame

/-! ## What the calls do to their own object -/

theorem WaitInv.wake (h : WaitInv o pending v) (f : Thread → Thread) (handed : List ThreadId)
    (hmem : t ∈ v.waiters o) (hnodup : (v.waiters o).Nodup) (hself : t ∈ handed ↔ (f (v.thread t)).error = .eok)
    (hothers : ∀ u, u ≠ t → (u ∈ handed ↔ u ∈ pending)) (hhanded : handed.Nodup) :
    WaitInv o handed (v.wake t f) := by
  have hwaiters (u : ThreadId) : u ∈ (v.wake t f).waiters o ↔ u ≠ t ∧ u ∈ v.waiters o := hnodup.mem_erase_iff
  have hother (u : ThreadId) (hu : u ≠ t) : (v.wake t f).thread u = v.thread u := (v.unlink t).setThread_ne _ hu
  have htaking (u : ThreadId) : (v.wake t f).taking u = v.taking u := rfl
  refine ⟨fun u hu => ?_, fun u hu hnot => ?_, fun u hu => ?_, hhanded⟩
  · rw [hwaiters] at hu
    rw [hother u hu.1]
    exact h.waiting u hu.2
  · by_cases hut : u = t
    · subst hut
      unfold View.wake
      rw [View.setThread_self]
      exact ⟨rfl, hself⟩
    · rw [hwaiters, not_and] at hnot
      rw [hother u hut, hothers u hut]
      exact h.woken u hu (hnot hut)
  · rw [hwaiters, not_and, htaking]
    by_cases hut : u = t
    · subst hut
      exact ⟨(h.waiting u hmem).1, fun hne => absurd rfl hne⟩
    · obtain ⟨hin, hnot⟩ := h.handed u ((hothers u hut).1 hu)
      exact ⟨hin, fun _ => hnot⟩

theorem WaitInv.timeout (h : WaitInv o pending v) (hmem : t ∈ v.waiters o) (hnodup : (v.waiters o).Nodup) :
    WaitInv o pending (v.wake t fun thread => { thread with error := .etimeout }) := by
  have hnot : t ∉ pending := fun hpending => (h.handed t hpending).2 hmem
  exact h.wake _ pending hmem hnodup (iff_of_false hnot (by simp)) (fun _ _ => Iff.rfl) h.nodup

theorem WaitInv.handOff (h : WaitInv o pending v) (hmem : t ∈ v.waiters o) (hnodup : (v.waiters o).Nodup) :
    WaitInv o (t :: pending) (v.wake t id) := by
  have hnot : t ∉ pending := fun hpending => (h.handed t hpending).2 hmem
  exact h.wake id (t :: pending) hmem hnodup (iff_of_true List.mem_cons_self (h.waiting t hmem).2)
    (fun u hu => by simp [hu]) (List.nodup_cons.2 ⟨hnot, h.nodup⟩)

theorem WaitInv.wakeAll (h : WaitInv o pending v) : WaitInv o pending (v.wakeAll o) := by
  have hnone : (v.wakeAll o).waiters o = [] := update_self ..
  refine ⟨fun t ht => ?_, fun t htaking _ => ?_, fun t ht => ?_, h.nodup⟩
  · rw [hnone] at ht
    cases ht
  · unfold View.wakeAll
    dsimp only
    split_ifs with hmem
    · exact ⟨rfl, iff_of_false (fun hpending => (h.handed t hpending).2 hmem) (by simp)⟩
    · exact h.woken t htaking hmem
  · rw [hnone]
    exact ⟨(h.handed t ht).1, List.not_mem_nil⟩

theorem WaitInv.block (h : WaitInv o pending v) {flag : IpcFlag} {time : Int} {call : Call} (hcall : v.call t = none)
    (herror : (v.thread t).error = .eok) (hobject : call.object = some o) :
    WaitInv o pending (v.block o t flag time call) := by
  generalize hv' : v.block o t flag time call = v'
  have hwaiters (u : ThreadId) : u ∈ v'.waiters o ↔ u = t ∨ u ∈ v.waiters o := by
    rw [← hv', View.block]
    dsimp only
    rw [update_self, (View.joined_perm ..).mem_iff, List.mem_cons]
  have hself : v'.taking t = some o ∧ (v'.thread t).error = .eok := by
    rw [← hv']
    unfold View.block View.taking
    dsimp only
    rw [update_self, update_self]
    exact ⟨hobject, herror⟩
  have hother (u : ThreadId) (hu : u ≠ t) : v'.taking u = v.taking u ∧ v'.thread u = v.thread u := by
    rw [← hv']
    unfold View.block View.taking
    simp [hu]
  refine ⟨fun u hu => ?_, fun u hu hnot => ?_, fun u hu => ?_, h.nodup⟩
  · by_cases hut : u = t
    · subst hut
      exact hself
    · rw [(hother u hut).1, (hother u hut).2]
      exact h.waiting u (((hwaiters u).1 hu).resolve_left hut)
  · rw [hwaiters, not_or] at hnot
    rw [(hother u hnot.1).1] at hu
    rw [(hother u hnot.1).2]
    exact h.woken u hu hnot.2
  · obtain ⟨hin, hnot⟩ := h.handed u hu
    have hut : u ≠ t := by
      rintro rfl
      exact v.taking_none hcall o hin
    rw [(hother u hut).1, hwaiters, not_or]
    exact ⟨hin, hut, hnot⟩

theorem WaitInv.return (h : WaitInv o pending v) (hnot : t ∉ v.waiters o) :
    WaitInv o (pending.erase t) (v.setCall t none) := by
  have hother (u : ThreadId) (hu : u ≠ t) : (v.setCall t none).taking u = v.taking u := by
    unfold View.taking
    rw [v.setCall_ne none hu]
  refine ⟨fun u hu => ?_, fun u hu hnotu => ?_, fun u hu => ?_, h.nodup.erase t⟩
  · have hne : u ≠ t := fun heq => hnot (heq ▸ hu)
    rw [hother u hne]
    exact h.waiting u hu
  · have hne : u ≠ t := by
      rintro rfl
      exact View.taking_none (v.setCall_self u none) o hu
    rw [hother u hne] at hu
    rw [h.nodup.mem_erase_iff, and_iff_right hne]
    exact h.woken u hu hnotu
  · obtain ⟨hne, hmem⟩ := h.nodup.mem_erase_iff.1 hu
    rw [hother u hne]
    exact h.handed u hmem

theorem WaitInv.not_pending (h : WaitInv o pending v) (htaking : v.taking t = some o) (hnot : t ∉ v.waiters o)
    (herror : (v.thread t).error ≠ .eok) : t ∉ pending :=
  fun hmem => herror (((h.woken t htaking hnot).2).1 hmem)

/-! ## Every step -/

theorem pendingAfter_error (o : IpcObject) (pending : List ThreadId) {result : RtErr} (hresult : result ≠ .eok) :
    (∀ s t, pendingAfter o pending (.semTake s t result) = pending) ∧
      ∀ m t, pendingAfter o pending (.mutexTake m t result) = pending := by
  refine ⟨fun s t => ?_, fun m t => ?_⟩
  · cases t <;> cases result <;> first | rfl | exact absurd rfl hresult
  · cases result <;> first | rfl | exact absurd rfl hresult

private theorem WaitInv.return_step {o' : IpcObject} {after : List ThreadId} (h : WaitInv o pending v)
    (htaking : v.taking t = some o') (hnot : t ∉ v.waiters o')
    (hafter : after = if o = o' ∧ (v.thread t).error = .eok then pending.erase t else pending) :
    WaitInv o after (v.setCall t none) := by
  by_cases ho : o = o'
  · subst ho
    have hreturn := h.return hnot
    split_ifs at hafter with hresult
    · rwa [hafter]
    · rw [List.erase_of_not_mem (h.not_pending htaking hnot fun herror => hresult ⟨rfl, herror⟩)] at hreturn
      rwa [hafter]
  · rw [if_neg fun hboth => ho hboth.1] at hafter
    rw [hafter]
    refine h.frame (.setCall none ?_ (by simp))
    rw [htaking]
    exact fun heq => ho (Option.some.inj heq).symm

theorem WaitInv.step {pend : IpcObject → List ThreadId} {op : Op} {events : List Event} (hk : KernelInv cfg k)
    (hlock : k.lockNest = 0) (h : ∀ o, WaitInv o (pend o) k.view) (hok : WaitUse k op)
    (hstep : ViewStep cfg k.current k.view op events v') (o : IpcObject) :
    WaitInv o (events.foldl (pendingAfter o) (pend o)) v' := by
  have ho := h o
  have hnodup (o : IpcObject) : (k.view.waiters o).Nodup := hk.lists.nodup _
  have hwaiting {o : IpcObject} {t : ThreadId} (ht : t ∈ k.view.waiters o) : (k.view.thread t).stat = .suspend :=
    hk.lists.suspend o t ht
  have hunlisted {t : ThreadId} (htaking : k.view.taking t ≠ some o) : t ∉ k.view.waiters o :=
    fun hmem => htaking (ho.waiting t hmem).1
  have hfree {t : ThreadId} (hcall : k.view.call t = none) : k.view.taking t ≠ some o := k.view.taking_none hcall o
  have hnotPending {t : ThreadId} (hcall : k.view.call t = none) : (pend o).erase t = pend o :=
    List.erase_of_not_mem fun hmem => hfree hcall (ho.handed t hmem).1
  have hready {t : ThreadId} (hready : (k.view.thread t).stat = .ready ∨ k.view.lockNest ≠ 0) (o : IpcObject) :
      t ∉ k.view.waiters o := by
    intro hmem
    rw [hwaiting hmem] at hready
    exact hready.elim (by simp) fun hlocked => hlocked hlock
  -- the waiters of another object are in no take of `o`
  have hother {o' : IpcObject} (hne : o' ≠ o) {t : ThreadId} (hmem : t ∈ k.view.waiters o') :
      k.view.taking t ≠ some o := by
    rw [((h o').waiting t hmem).1]
    exact fun heq => hne (Option.some.inj heq)
  have hclear {t : ThreadId} (hcall : k.view.call t = none) :
      WaitFrame o k.view (k.view.clearError t) := .setThread _ (hfree hcall)
  cases hstep with
  | silent => exact ho
  | enterCritical => exact hok.elim
  | exitCritical => exact ho.frame ⟨rfl, fun _ => Iff.rfl, fun _ _ => ⟨rfl, id⟩⟩
  | startup t hstat =>
    have hnot : t ∉ k.view.waiters o := fun hmem => by simp [hwaiting hmem] at hstat
    exact ho.frame (.wake _ (ho.not_taking (by simp [hstat]) hnot) hnot)
  | suspend t => exact ho.frame (.setThread _ (hfree hok))
  | suspendFails => exact ho
  | resume t => exact ho.frame (.wake _ (hfree hok) (hunlisted (hfree hok)))
  | resumeFails => exact ho
  | timeout t hstat =>
    by_cases hmem : t ∈ k.view.waiters o
    · exact ho.timeout hmem (hnodup o)
    · exact ho.frame (.wake _ (ho.not_taking (by simp [hstat]) hmem) hmem)
  | changePriority t priority => exact ho.frame (.setPriority cfg _ t priority)
  | close op t isThread isStatic hop hexit =>
    have hcall : k.view.call t = none := by
      rcases hop with rfl | rfl | rfl
      · exact hexit rfl
      · exact hok
      · exact hok
    exact ho.frame ((WaitFrame.unlink (hunlisted (hfree hcall))).trans (.setThread _ (hfree hcall)))
  | sleep t tick hcall =>
    exact ho.frame ((WaitFrame.setThread _ (hfree hcall.2)).trans (.setCall _ (hfree hcall.2) (by simp [Call.object])))
  | sleepReturn t hcall =>
    have hne : k.view.taking t ≠ some o := by simp [View.taking_of_call hcall, Call.object]
    exact ho.frame ((WaitFrame.setThread _ hne).trans (.setCall none hne (by simp)))
  | semTake s time t hcall hvalue =>
    have hafter : [Event.semTake s t .eok].foldl (pendingAfter o) (pend o) = pend o := by
      cases t with
      | none => rfl
      | some u => simp [pendingAfter, hnotPending (hcall u rfl).2]
    rw [hafter]
    exact ho.frame (.setSem _ s _)
  | semTakeFails s t =>
    rw [List.foldl_cons, (pendingAfter_error o (pend o) (by simp)).1]
    exact ho
  | semTakeBlocks s time t hcall hvalue =>
    by_cases hs : o = .sem s
    · subst hs
      exact (ho.frame (hclear hcall.2)).block hcall.2 (by simp [View.clearError]) rfl
    · exact ho.frame ((hclear hcall.2).trans (.block _ time hs (hfree hcall.2) (by simpa [Call.object] using Ne.symm hs)))
  | semTakeReturns s t hcall hstat =>
    refine ho.return_step (View.taking_of_call hcall) (hready hstat (.sem s)) ?_
    cases (k.view.thread t).error <;> simp [pendingAfter]
  | semReleaseWakes s t rest hwaiters =>
    have hmem : t ∈ k.view.waiters (.sem s) := by simp [hwaiters]
    by_cases hs : o = .sem s
    · subst hs
      have hhanded := ho.handOff hmem (hnodup _)
      simpa [pendingAfter] using hhanded
    · have htaking := hother (Ne.symm hs) hmem
      simpa [pendingAfter, hs] using ho.frame (.wake id htaking (hunlisted htaking))
  | semReleaseCounts s hwaiters => exact ho.frame (.setSem _ s _)
  | semReset s value =>
    by_cases hs : o = .sem s
    · subst hs
      exact ho.wakeAll.frame (.setSem _ s _)
    · exact ho.frame ((WaitFrame.wakeAll hs fun t hmem => hother (Ne.symm hs) hmem).trans (.setSem _ s _))
  | mutexTakeNested m time t hcall =>
    have hafter : [Event.mutexTake m t .eok].foldl (pendingAfter o) (pend o) = pend o := by
      simp [pendingAfter, hnotPending hcall.2]
    rw [hafter]
    exact ho.frame ((hclear hcall.2).trans (.setMutex _ m _))
  | mutexTake m time t hcall =>
    have hafter : [Event.mutexTake m t .eok].foldl (pendingAfter o) (pend o) = pend o := by
      simp [pendingAfter, hnotPending hcall.2]
    rw [hafter]
    exact ho.frame ((hclear hcall.2).trans (.setMutex _ m _))
  | mutexTakeFails m t hcall => exact ho.frame (.setThread _ (hfree hcall.2))
  | mutexTakeBlocks m time t owner hcall hne =>
    have hboost := (hclear hcall.2).trans (.inherit cfg _ owner (k.view.thread t).currentPriority)
    have hcall' : ((k.view.clearError t).inherit cfg owner (k.view.thread t).currentPriority).call t = none := by
      rw [View.inherit_call]
      exact hcall.2
    by_cases hm : o = .mutex m
    · subst hm
      refine (ho.frame hboost).block hcall' ?_ rfl
      rw [View.inherit_error, View.clearError, View.setThread_self]
    · refine ho.frame (hboost.trans (.block _ time hm (View.taking_none hcall' o) ?_))
      simpa [Call.object] using Ne.symm hm
  | mutexTakeReturns m time t hcall hstat =>
    refine ho.return_step (View.taking_of_call hcall) (hready hstat (.mutex m)) ?_
    cases (k.view.thread t).error <;> simp [pendingAfter]
  | mutexReleaseFails m t hcall => exact ho.frame (.setThread _ (hfree hcall.2))
  | mutexReleaseNested m => exact ho.frame (.setMutex _ m _)
  | mutexReleaseHandOff m t next rest hcall howner hhold hwaiters =>
    have hmem : next ∈ k.view.waiters (.mutex m) := by simp [hwaiters]
    have howned : WaitFrame o k.view ((k.view.letGo cfg m t).own m next (k.view.mutex m).value) :=
      (WaitFrame.letGo cfg k.view m t).trans (.setMutex _ m _)
    by_cases hm : o = .mutex m
    · subst hm
      have hhanded := (ho.frame howned).handOff (by rwa [howned.waiters]) (by rw [howned.waiters]; exact hnodup _)
      simpa [pendingAfter] using hhanded
    · have htaking := hother (Ne.symm hm) hmem
      have hwoken := howned.trans (.wake id (by rwa [ne_eq, howned.taking]) (by rw [howned.waiters]; exact hunlisted htaking))
      simpa [pendingAfter, hm] using ho.frame hwoken
  | mutexReleaseFree m t =>
    exact ho.frame ((WaitFrame.letGo cfg k.view m t).trans (.setMutex _ m _))

/-! ## Every run -/

variable {setup : Setup cfg} {trace : List Event} {ok : Kernel → Op → Prop}

def pendingThreads (o : IpcObject) (trace : List Event) : List ThreadId := trace.foldl (pendingAfter o) []

def Waiting (trace : List Event) (v : View) : Prop :=
  v.lockNest = 0 ∧ ∀ o, WaitInv o (pendingThreads o trace) v

theorem Waiting.boot (setup : Setup cfg) : Waiting [] (Kernel.boot setup).view :=
  ⟨rfl, fun o => ⟨fun _ ht => absurd ht List.not_mem_nil, fun _ htaking => absurd htaking (View.taking_none rfl o),
    fun _ ht => absurd ht List.not_mem_nil, List.nodup_nil⟩⟩

theorem Waiting.step {op : Op} {events : List Event} (h : Waiting trace k.view) (hk : KernelInv cfg k)
    (hok : WaitUse k op) (hstep : ViewStep cfg k.current k.view op events v') : Waiting (trace ++ events) v' := by
  refine ⟨hstep.lockNest_zero (fun hop => by rw [hop] at hok; exact hok) h.1, fun o => ?_⟩
  unfold pendingThreads
  rw [List.foldl_append]
  exact WaitInv.step hk h.1 h.2 hok hstep o

theorem KernelRun.wait_invariant {I : List Event → View → Prop} (hrun : KernelRun ok setup trace k)
    (hok : ∀ k op, ok k op → WaitUse k op) (hboot : I [] (Kernel.boot setup).view)
    (hstep : ∀ trace k op events v', KernelInv cfg k → Waiting trace k.view → I trace k.view → ok k op →
      ViewStep cfg k.current k.view op events v' → I (trace ++ events) v') : Waiting trace k.view ∧ I trace k.view :=
  hrun.view_invariant (I := fun trace v => Waiting trace v ∧ I trace v) ⟨.boot setup, hboot⟩
    fun trace k op events v' hk hinv hop hv =>
      ⟨hinv.1.step hk (hok k op hop) hv, hstep trace k op events v' hk hinv.1 hinv.2 hop hv⟩

end RtThread
