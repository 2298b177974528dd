import RtThread.Kernel.Waiting

/-!
# Mutexes have one owner

A mutex is free with value 1, or it has value 0 and an owner. A waiter becomes the owner by the release of the owner before, and from then on counts as having taken the mutex once. `hold` counts the takes of the owner, in 8 bits and without a check.
-/

namespace RtThread

open Function

variable {cfg : Config} {k k' : Kernel} {v v' : View} {m : MutexId} {t : ThreadId}

/-- The owner and the value agree, nobody waits for a free mutex, and only the owner can be about to return with it. -/
structure OwnerInv (m : MutexId) (pending : List ThreadId) (v : View) : Prop where
  free : (v.mutex m).owner = none → (v.mutex m).value = 1 ∧ v.waiters (.mutex m) = []
  owned : (v.mutex m).owner ≠ none → (v.mutex m).value = 0
  pending_owner : ∀ t ∈ pending, (v.mutex m).owner = some t

theorem OwnerInv.keep {pending : List ThreadId} (h : OwnerInv m pending v)
    (howner : (v'.mutex m).owner = (v.mutex m).owner) (hvalue : (v'.mutex m).value = (v.mutex m).value)
    (hwaiters : (v.mutex m).owner = none → v.waiters (.mutex m) = [] → v'.waiters (.mutex m) = []) :
    OwnerInv m pending v' where
  free hfree := by
    rw [howner] at hfree
    rw [hvalue]
    exact ⟨(h.free hfree).1, hwaiters hfree (h.free hfree).2⟩
  owned hown := by
    rw [howner] at hown
    rw [hvalue]
    exact h.owned hown
  pending_owner t ht := by
    rw [howner]
    exact h.pending_owner t ht

theorem OwnerInv.erase {pending : List ThreadId} (h : OwnerInv m pending v) (t : ThreadId) :
    OwnerInv m (pending.erase t) v :=
  ⟨h.free, h.owned, fun u hu => h.pending_owner u (List.mem_of_mem_erase hu)⟩

theorem OwnerInv.pending_nil {pending : List ThreadId} (h : OwnerInv m pending v)
    (hwait : WaitInv (.mutex m) pending v) (hcall : v.AtCall t)
    (howner : (v.mutex m).owner = some t ∨ (v.mutex m).owner = none) : pending = [] := by
  refine List.eq_nil_iff_forall_not_mem.2 fun u hu => ?_
  have hu' := h.pending_owner u hu
  rcases howner with howner | howner
  · obtain rfl : u = t := Option.some.inj (hu'.symm.trans howner)
    exact v.taking_none hcall.2 _ (hwait.handed u hu).1
  · exact Option.some_ne_none u (hu'.symm.trans howner)

theorem OwnerInv.after_take {pending : List ThreadId} (h : OwnerInv m pending v) (m' : MutexId) (t : ThreadId)
    (result : RtErr) : OwnerInv m (pendingAfter (.mutex m) pending (.mutexTake m' t result)) v := by
  cases result with
  | eok =>
    dsimp only [pendingAfter]
    split_ifs
    · exact h.erase t
    · exact h
  | _ => exact h

theorem OwnerInv.letGo {pending : List ThreadId} (h : OwnerInv m pending v) (cfg : Config) (m' : MutexId) (t : ThreadId) :
    OwnerInv m pending (v.letGo cfg m' t) := by
  refine h.keep ?_ ?_ fun _ hnil => by rwa [View.letGo_waiters]
  all_goals
    rw [View.letGo_mutex]
    by_cases hm : m = m'
    · subst hm
      rw [update_self]
    · rw [update_of_ne hm]

theorem OwnerInv.step {pending : List ThreadId} {op : Op} {events : List Event}
    (hwait : WaitInv (.mutex m) pending k.view) (h : OwnerInv m pending k.view)
    (hstep : ViewStep cfg k.current k.view op events v') :
    OwnerInv m (events.foldl (pendingAfter (.mutex m)) pending) v' := by
  have hunlink {pending : List ThreadId} {w : View} (hw : OwnerInv m pending w) (t : ThreadId) :
      OwnerInv m pending (w.unlink t) :=
    hw.keep rfl rfl fun _ hnil => by
      change (w.waiters (.mutex m)).erase t = []
      rw [hnil]
      rfl
  have hthread {pending : List ThreadId} {w : View} (hw : OwnerInv m pending w) (t : ThreadId) (f : Thread → Thread) :
      OwnerInv m pending (w.setThread t f) := ⟨hw.free, hw.owned, hw.pending_owner⟩
  have hother {w : View} {m' : MutexId} (hw : OwnerInv m pending w) (hm : m' ≠ m) (f : Mutex → Mutex) :
      OwnerInv m pending (w.setMutex m' f) :=
    hw.keep (by rw [View.setMutex_ne _ _ hm.symm]) (by rw [View.setMutex_ne _ _ hm.symm]) fun _ hnil => hnil
  have hhold {w : View} (hw : OwnerInv m pending w) (m' : MutexId) (hold : Mutex → Nat) :
      OwnerInv m pending (w.setMutex m' fun mutex => { mutex with hold := hold mutex }) := by
    by_cases hm : m' = m
    · subst hm
      exact hw.keep (by rw [View.setMutex_self]) (by rw [View.setMutex_self]) fun _ hnil => hnil
    · exact hother hw hm _
  cases hstep with
  | startup t => exact hthread (hunlink h t) t _
  | resume t => exact hthread (hunlink h t) t _
  | timeout t => exact hthread (hunlink h t) t _
  | close op t => exact hthread (hunlink h t) t _
  | semTake s time t =>
    have hafter : pendingAfter (.mutex m) pending (.semTake s t .eok) = pending := by cases t <;> rfl
    rw [List.foldl_cons, List.foldl_nil, hafter]
    exact ⟨h.free, h.owned, h.pending_owner⟩
  | semTakeFails s t =>
    have hafter : pendingAfter (.mutex m) pending (.semTake s t .etimeout) = pending := by cases t <;> rfl
    rw [List.foldl_cons, List.foldl_nil, hafter]
    exact h
  | semTakeBlocks s time t =>
    exact h.keep rfl rfl fun _ hnil => (View.block_waiters_ne _ (by simp) ..).trans hnil
  | semTakeReturns s t =>
    have hafter (result : RtErr) : pendingAfter (.mutex m) pending (.semTake s (some t) result) = pending := by
      cases result <;> rfl
    rw [List.foldl_cons, List.foldl_nil, hafter]
    exact ⟨h.free, h.owned, h.pending_owner⟩
  | semReleaseWakes s t => exact hthread (hunlink h t) t _
  | semReset s value =>
    exact h.keep rfl rfl fun _ hnil => (View.wakeAll_waiters_ne _ (show .mutex m ≠ .sem s by simp)).trans hnil
  | mutexTakeNested m' time t => exact (hhold (hthread h t _) m' _).after_take m' t .eok
  | mutexTake m' time t hcall howner hvalue =>
    by_cases hm : m' = m
    · subst hm
      have hfree : (k.view.mutex m').owner = none := by
        by_contra hown
        rw [h.owned hown] at hvalue
        exact absurd hvalue (lt_irrefl 0)
      have hpending := h.pending_nil hwait hcall (.inr hfree)
      subst hpending
      refine OwnerInv.after_take ⟨fun hnone => ?_, fun _ => ?_, fun u hu => absurd hu List.not_mem_nil⟩ m' t .eok
      · rw [View.own_mutex_self] at hnone
        cases hnone
      · rw [View.own_mutex_self]
        exact congrArg (· - 1) (h.free hfree).1
    · exact (hother (hthread h t _) hm _).after_take m' t .eok
  | mutexTakeFails m' t => exact (hthread h t _).after_take m' t .etimeout
  | mutexTakeBlocks m' time t owner hcall hne howner =>
    have hmutex := View.inherit_mutex cfg (k.view.clearError t) owner (k.view.thread t).currentPriority
    have hwaiters := View.inherit_waiters cfg (k.view.clearError t) owner (k.view.thread t).currentPriority
    refine h.keep (congrArg Mutex.owner (congrFun hmutex m)) (congrArg Mutex.value (congrFun hmutex m)) fun hnone hnil => ?_
    have hm : m ≠ m' := by
      rintro rfl
      rw [howner] at hnone
      cases hnone
    rw [View.block_waiters_ne _ (by simpa using hm), hwaiters]
    exact hnil
  | mutexTakeReturns m' time t =>
    have hreturned : OwnerInv m pending (k.view.setCall t none) := ⟨h.free, h.owned, h.pending_owner⟩
    exact hreturned.after_take m' t _
  | mutexReleaseFails m' t => exact hthread h t _
  | mutexReleaseNested m' t => exact hhold h m' _
  | mutexReleaseHandOff m' t next rest hcall howner hlast hwaiters =>
    have hlet := h.letGo cfg m' t
    dsimp only [List.foldl_cons, List.foldl_nil, pendingAfter]
    by_cases hm : m' = m
    · subst hm
      rw [if_pos rfl]
      have hpending := h.pending_nil hwait hcall (.inl howner)
      subst hpending
      refine hthread (hunlink ⟨fun hnone => ?_, fun _ => ?_, fun u hu => ?_⟩ next) next _
      · rw [View.own_mutex_self] at hnone
        cases hnone
      · rw [View.own_mutex_self]
        exact h.owned (by rw [howner]; exact Option.some_ne_none t)
      · obtain rfl := List.mem_singleton.1 hu
        rw [View.own_mutex_self]
    · rw [if_neg (by simpa using Ne.symm hm)]
      exact hthread (hunlink (hother hlet hm _) next) next _
  | mutexReleaseFree m' t hcall howner hlast hwaiters =>
    have hlet := h.letGo cfg m' t
    by_cases hm : m' = m
    · subst hm
      have hpending := h.pending_nil hwait hcall (.inl howner)
      subst hpending
      refine ⟨fun _ => ⟨?_, ?_⟩, fun hown => ?_, fun u hu => absurd hu List.not_mem_nil⟩
      · rw [View.free_mutex_self]
        have hvalue := hlet.owned (by rw [View.letGo_mutex, update_self]; simp [howner])
        dsimp only
        rw [hvalue]
      · exact (congrFun (View.letGo_waiters ..) _).trans hwaiters
      · rw [View.free_mutex_self] at hown
        exact absurd rfl hown
    · exact hother hlet hm _
  | _ => exact ⟨h.free, h.owned, h.pending_owner⟩

/-! ## Nested takes -/

structure MutexLedger where
  /-- The takes a thread has made and not released. The take of a waiter counts from the release that hands it the mutex. -/
  takes : ThreadId → Nat
  /-- The threads that were handed the mutex and have not returned from their take. -/
  pending : List ThreadId

def MutexLedger.count (m : MutexId) (l : MutexLedger) : Event → ThreadId → Nat
  | .mutexTake m' t .eok =>
    if m' = m ∧ t ∉ l.pending then update l.takes t (l.takes t + 1) else l.takes
  | .mutexRelease m' t .eok next =>
    if m' = m then
      let released := update l.takes t (l.takes t - 1)
      match next with
      | some next => update released next (released next + 1)
      | none => released
    else l.takes
  | _ => l.takes

def MutexLedger.record (m : MutexId) (l : MutexLedger) (event : Event) : MutexLedger where
  takes := l.count m event
  pending := pendingAfter (.mutex m) l.pending event

def mutexLedger (m : MutexId) (trace : List Event) : MutexLedger :=
  trace.foldl (MutexLedger.record m) ⟨fun _ => 0, []⟩

theorem MutexLedger.foldl_pending (m : MutexId) (l : MutexLedger) (events : List Event) :
    (events.foldl (MutexLedger.record m) l).pending = events.foldl (pendingAfter (.mutex m)) l.pending := by
  induction events generalizing l with
  | nil => rfl
  | cons event rest ih => exact ih (l.record m event)

/-- `hold` counts the owner's takes, and nobody else has any. -/
structure HoldInv (m : MutexId) (takes : ThreadId → Nat) (v : View) : Prop where
  takes_eq : ∀ t, takes t = if (v.mutex m).owner = some t then (v.mutex m).hold else 0
  hold_pos : (v.mutex m).owner ≠ none → 0 < (v.mutex m).hold
  hold_zero : (v.mutex m).owner = none → (v.mutex m).hold = 0
  hold_le : (v.mutex m).hold ≤ 255

theorem HoldInv.congr {takes : ThreadId → Nat} (h : HoldInv m takes v)
    (howner : (v'.mutex m).owner = (v.mutex m).owner) (hhold : (v'.mutex m).hold = (v.mutex m).hold) :
    HoldInv m takes v' where
  takes_eq t := by
    rw [howner, hhold]
    exact h.takes_eq t
  hold_pos := by
    rw [howner, hhold]
    exact h.hold_pos
  hold_zero := by
    rw [howner, hhold]
    exact h.hold_zero
  hold_le := hhold ▸ h.hold_le

theorem HoldInv.of_owner {takes : ThreadId → Nat} {hold : Nat} (howner : (v.mutex m).owner = some t)
    (hhold : (v.mutex m).hold = hold) (hself : takes t = hold) (hothers : ∀ u, u ≠ t → takes u = 0) (hpos : 0 < hold)
    (hle : hold ≤ 255) : HoldInv m takes v where
  takes_eq u := by
    rw [howner, hhold]
    by_cases hu : u = t
    · rw [if_pos (by rw [hu]), hu, hself]
    · rw [if_neg fun heq => hu (Option.some.inj heq).symm, hothers u hu]
  hold_pos _ := hhold ▸ hpos
  hold_zero hnone := by
    rw [howner] at hnone
    cases hnone
  hold_le := hhold ▸ hle

/-- Mutexes are used as documented, and no owner takes its mutex again while `hold` is at its greatest value. -/
def MutexUse (k : Kernel) (op : Op) : Prop :=
  WaitUse k op ∧
  match op with
  | .mutexTake m _ => k.current ≠ none → (k.mutex m).owner = k.current → (k.mutex m).hold < 255
  | _ => True

instance (k : Kernel) (op : Op) : Decidable (MutexUse k op) := by
  induction op using Op.casesOn <;> dsimp only [MutexUse] <;> infer_instance

theorem HoldInv.step {l : MutexLedger} {op : Op} {events : List Event} (hk : KernelInv cfg k)
    (hlock : k.lockNest = 0) (hwait : WaitInv (.mutex m) l.pending k.view) (howned : OwnerInv m l.pending k.view)
    (h : HoldInv m l.takes k.view) (hok : MutexUse k op) (hstep : ViewStep cfg k.current k.view op events v') :
    HoldInv m (events.foldl (MutexLedger.record m) l).takes v' := by
  have hidle {t : ThreadId} (hcall : k.view.AtCall t) : t ∉ l.pending :=
    fun hmem => k.view.taking_none hcall.2 _ (hwait.handed t hmem).1
  have hothers {t : ThreadId} (howner : (k.view.mutex m).owner = some t) (u : ThreadId) (hu : u ≠ t) :
      l.takes u = 0 := by
    rw [h.takes_eq, howner, if_neg fun heq => hu (Option.some.inj heq).symm]
  have hself {t : ThreadId} (howner : (k.view.mutex m).owner = some t) : l.takes t = (k.view.mutex m).hold := by
    rw [h.takes_eq, if_pos howner]
  have hpos {t : ThreadId} (howner : (k.view.mutex m).owner = some t) : 0 < (k.view.mutex m).hold :=
    h.hold_pos (by rw [howner]; exact Option.some_ne_none t)
  have hle := h.hold_le
  have hkeep {w : View} (hm : w.mutex m = k.view.mutex m) : HoldInv m l.takes w :=
    h.congr (by rw [hm]) (by rw [hm])
  have hlet {m' : MutexId} (hm : m' ≠ m) (t : ThreadId) : (k.view.letGo cfg m' t).mutex m = k.view.mutex m := by
    rw [View.letGo_mutex, update_of_ne (Ne.symm hm)]
  cases hstep with
  | semTake s time t => exact hkeep rfl
  | semTakeFails s t => exact hkeep rfl
  | semTakeReturns s t => exact hkeep rfl
  | mutexTakeNested m' time t hcall howner hcur =>
    dsimp only [List.foldl_cons, List.foldl_nil, MutexLedger.record, MutexLedger.count]
    by_cases hm : m' = m
    · subst hm
      have hlt : (k.view.mutex m').hold < 255 := hok.2 (by simp [hcur]) (by rw [hcur]; exact howner)
      rw [if_pos ⟨rfl, hidle hcall⟩]
      refine .of_owner (t := t) ?_ ?_ ?_ ?_ (Nat.succ_pos (k.view.mutex m').hold) hlt
      · rw [View.setMutex_self]
        exact howner
      · rw [View.setMutex_self]
        exact Nat.mod_eq_of_lt (show (k.view.mutex m').hold + 1 < 256 by omega)
      · rw [update_self, hself howner]
      · intro u hu
        rw [update_of_ne hu]
        exact hothers howner u hu
    · rw [if_neg fun hboth => hm hboth.1]
      exact hkeep (View.setMutex_ne _ _ (Ne.symm hm))
  | mutexTake m' time t hcall howner hvalue =>
    dsimp only [List.foldl_cons, List.foldl_nil, MutexLedger.record, MutexLedger.count]
    by_cases hm : m' = m
    · subst hm
      have hfree : (k.view.mutex m').owner = none := by
        by_contra hown
        rw [howned.owned hown] at hvalue
        exact absurd hvalue (lt_irrefl 0)
      have htakes (u : ThreadId) : l.takes u = 0 := by
        rw [h.takes_eq, hfree, if_neg (by simp)]
      have hzero : ((k.view.clearError t).mutex m').hold = 0 := h.hold_zero hfree
      rw [if_pos ⟨rfl, hidle hcall⟩]
      refine .of_owner (t := t) ?_ ?_ ?_ (fun u hu => ?_) Nat.one_pos (by omega)
      · rw [View.own_mutex_self]
      · rw [View.own_mutex_self]
        dsimp only
        rw [hzero]
      · rw [update_self, htakes]
      · rw [update_of_ne hu, htakes]
    · rw [if_neg fun hboth => hm hboth.1]
      exact hkeep (View.setMutex_ne _ _ (Ne.symm hm))
  | mutexTakeFails m' t => exact hkeep rfl
  | mutexTakeBlocks m' time t owner => exact hkeep (congrFun (View.inherit_mutex ..) m)
  | mutexTakeReturns m' time t hcall hready =>
    rw [List.foldl_cons, List.foldl_nil]
    have hsame : l.count m (.mutexTake m' t (k.view.thread t).error) = l.takes := by
      cases herror : (k.view.thread t).error with
      | eok =>
        dsimp only [MutexLedger.count]
        rw [if_neg]
        rintro ⟨rfl, hnot⟩
        refine hnot (((hwait.woken t (View.taking_of_call hcall) fun hmem => ?_).2).2 herror)
        rw [show (k.view.thread t).stat = .suspend from hk.lists.suspend _ t hmem] at hready
        exact hready.elim (by simp) fun hlocked => hlocked hlock
      | _ => rfl
    dsimp only [MutexLedger.record]
    rw [hsame]
    exact hkeep rfl
  | mutexReleaseFails m' t => exact hkeep rfl
  | mutexReleaseNested m' t hcall howner hnested =>
    dsimp only [List.foldl_cons, List.foldl_nil, MutexLedger.record, MutexLedger.count]
    by_cases hm : m' = m
    · subst hm
      have hlt := hpos howner
      rw [if_pos rfl]
      refine .of_owner (t := t) ?_ (Eq.trans ?_ (show ((k.view.mutex m').hold + 255) % 256 = (k.view.mutex m').hold - 1 by omega))
        ?_ (fun u hu => ?_) (by omega) (by omega)
      · rw [View.setMutex_self]
        exact howner
      · rw [View.setMutex_self]
      · rw [update_self, hself howner]
      · rw [update_of_ne hu]
        exact hothers howner u hu
    · rw [if_neg hm]
      exact hkeep (View.setMutex_ne _ _ (Ne.symm hm))
  | mutexReleaseHandOff m' t next rest hcall howner hlast hwaiters =>
    dsimp only [List.foldl_cons, List.foldl_nil, MutexLedger.record, MutexLedger.count]
    by_cases hm : m' = m
    · subst hm
      have hlt := hpos howner
      have hne : next ≠ t := by
        rintro rfl
        have hsuspend := hk.lists.suspend (.mutex m') next (by rw [show k.tlist _ = _ from hwaiters]; exact List.mem_cons_self)
        have hready : (k.thread next).stat = .ready := hcall.1
        rw [hsuspend] at hready
        cases hready
      have hone : (k.view.mutex m').hold = 1 := by omega
      rw [if_pos rfl]
      refine .of_owner (t := next) ?_ ?_ ?_ (fun u hu => ?_) Nat.one_pos (by omega)
      · rw [View.wake_mutex, View.own_mutex_self]
      · rw [View.wake_mutex, View.own_mutex_self, View.letGo_mutex, update_self]
        rfl
      · rw [update_self, update_of_ne hne, hothers howner next hne]
      · rw [update_of_ne hu]
        by_cases hut : u = t
        · rw [hut, update_self, hself howner, hone]
        · rw [update_of_ne hut, hothers howner u hut]
    · rw [if_neg hm]
      exact hkeep ((View.own_mutex_ne _ (Ne.symm hm) ..).trans (hlet hm t))
  | mutexReleaseFree m' t hcall howner hlast hwaiters =>
    dsimp only [List.foldl_cons, List.foldl_nil, MutexLedger.record, MutexLedger.count]
    by_cases hm : m' = m
    · subst hm
      have hlt := hpos howner
      have hone : (k.view.mutex m').hold = 1 := by omega
      have howner' : (((k.view.letGo cfg m' t).free m').mutex m').owner = none :=
        congrArg Mutex.owner (View.free_mutex_self ..)
      have hhold' : (((k.view.letGo cfg m' t).free m').mutex m').hold = 0 := by
        rw [View.free_mutex_self]
        dsimp only
        rw [View.letGo_mutex, update_self]
      rw [if_pos rfl]
      refine ⟨fun u => ?_, fun hown => absurd howner' hown, fun _ => hhold', by omega⟩
      rw [howner', if_neg (by simp)]
      by_cases hut : u = t
      · rw [hut, update_self, hself howner, hone]
      · rw [update_of_ne hut, hothers howner u hut]
    · rw [if_neg hm]
      exact hkeep ((View.free_mutex_ne _ (Ne.symm hm)).trans (hlet hm t))
  | _ => exact hkeep rfl

/-! ## Every run -/

variable {setup : Setup cfg} {trace : List Event}

theorem mutexLedger_pending (m : MutexId) (trace : List Event) :
    (mutexLedger m trace).pending = pendingThreads (.mutex m) trace :=
  MutexLedger.foldl_pending m _ trace

theorem OwnerInv.boot (setup : Setup cfg) (m : MutexId) : OwnerInv m [] (Kernel.boot setup).view :=
  ⟨fun _ => ⟨rfl, rfl⟩, fun hown => absurd rfl hown, fun _ ht => absurd ht List.not_mem_nil⟩

theorem KernelRun.holdInv (hrun : KernelRun MutexUse setup trace k) (m : MutexId) :
    Waiting trace k.view ∧ OwnerInv m (pendingThreads (.mutex m) trace) k.view ∧
      HoldInv m (mutexLedger m trace).takes k.view := by
  refine hrun.wait_invariant (I := fun trace v => OwnerInv m (pendingThreads (.mutex m) trace) v ∧
    HoldInv m (mutexLedger m trace).takes v) (fun _ _ hok => hok.1) ⟨.boot setup m, ?_⟩ ?_
  · exact ⟨fun _ => rfl, fun hown => absurd rfl hown, fun _ => rfl, Nat.zero_le _⟩
  · intro trace k op events v' hk hwait hinv hok hstep
    have howned := hinv.1.step (hwait.2 (.mutex m)) hstep
    have hhold : HoldInv m (events.foldl (MutexLedger.record m) (mutexLedger m trace)).takes v' := by
      refine HoldInv.step hk hwait.1 ?_ ?_ hinv.2 hok hstep
      · rw [mutexLedger_pending]
        exact hwait.2 (.mutex m)
      · rw [mutexLedger_pending]
        exact hinv.1
    unfold pendingThreads mutexLedger at *
    rw [List.foldl_append, List.foldl_append]
    exact ⟨howned, hhold⟩

structure MutexOwnership (cfg : Config) (m : MutexId) (trace : List Event) (k : Kernel) : Prop where
  value_iff : (k.mutex m).value = 0 ↔ (k.mutex m).owner ≠ none
  hold_iff : (k.mutex m).owner ≠ none ↔ 0 < (k.mutex m).hold
  /-- `hold` is the number of takes the owner has made and not released. -/
  hold_eq : ∀ t, (k.mutex m).owner = some t → (k.mutex m).hold = (mutexLedger m trace).takes t
  /-- No take succeeds while another thread has unreleased takes. -/
  exclusive : ∀ op k' events t, step cfg k op = some (k', events) → .mutexTake m t .eok ∈ events →
    ∀ u, u ≠ t → (mutexLedger m trace).takes u = 0

theorem OwnerInv.take_owner {pending : List ThreadId} (hk : KernelInv cfg k) (hlock : k.lockNest = 0)
    (hwait : WaitInv (.mutex m) pending k.view) (h : OwnerInv m pending k.view) {op : Op} {events : List Event}
    (hstep : RtThread.step cfg k op = some (k', events)) (hevent : .mutexTake m t .eok ∈ events) :
    (k.mutex m).owner = some t ∨ (k.mutex m).owner = none := by
  obtain ⟨v', hv', -⟩ := (hk.step hstep).view
  cases hv' <;> simp only [List.mem_singleton, List.not_mem_nil, reduceCtorEq, Event.mutexTake.injEq] at hevent
  case mutexTakeNested howner _ =>
    obtain ⟨rfl, rfl, -⟩ := hevent
    exact .inl howner
  case mutexTake hvalue _ =>
    obtain ⟨rfl, rfl, -⟩ := hevent
    refine .inr (by_contra fun hown => ?_)
    rw [h.owned hown] at hvalue
    exact absurd hvalue (lt_irrefl 0)
  case mutexTakeReturns hcall hready =>
    obtain ⟨rfl, rfl, herror⟩ := hevent
    refine .inl (h.pending_owner t (((hwait.woken t (View.taking_of_call hcall) fun hmem => ?_).2).2 herror.symm))
    rw [show (k.view.thread t).stat = .suspend from hk.lists.suspend _ t hmem] at hready
    exact hready.elim (by simp) fun hlocked => hlocked hlock
  all_goals exact absurd hevent.2.2 (by decide)

theorem mutexOwnership_of_run (hrun : KernelRun MutexUse setup trace k) (m : MutexId) :
    MutexOwnership cfg m trace k := by
  obtain ⟨hwait, howned, hhold⟩ := hrun.holdInv m
  refine ⟨⟨fun hvalue hnone => ?_, howned.owned⟩, ⟨hhold.hold_pos, fun hpos hnone => ?_⟩, fun t howner => ?_, ?_⟩
  · have hone : (k.mutex m).value = 1 := (howned.free hnone).1
    omega
  · have hzero : (k.mutex m).hold = 0 := hhold.hold_zero hnone
    omega
  · have htakes := hhold.takes_eq t
    rw [if_pos (show (k.view.mutex m).owner = some t from howner)] at htakes
    exact htakes.symm
  · intro op k' events t hstep hevent u hu
    rw [hhold.takes_eq u]
    refine if_neg fun howner => ?_
    rcases howned.take_owner hrun.inv hwait.1 (hwait.2 (.mutex m)) hstep hevent with hself | hnone
    · exact hu (Option.some.inj (howner.symm.trans hself))
    · exact Option.some_ne_none u (howner.symm.trans hnone)

/-- A nested take, a waiter that times out, and a hand-off to it at its second try. -/
theorem mutexOwnership_of_run_handOff : ∃ trace k, KernelRun MutexUse (.ofPriorities [31, 20, 10]) trace k ∧
    (k.mutex 0).owner = some 2 ∧ (mutexLedger 0 trace).takes 2 = 1 ∧ MutexOwnership ⟨32, by decide⟩ 0 trace k := by
  obtain ⟨trace, k, hrun, hfound⟩ := exists_kernelRun (.ofPriorities [31, 20, 10]) MutexUse
    [.startup 0, .startup 1, .schedulerStart, .mutexTake 0 (-1), .mutexTake 0 (-1), .startup 2, .mutexTake 0 5,
      .timeout 2, .finish, .mutexTake 0 (-1), .mutexRelease 0, .mutexRelease 0]
    (fun trace k => decide ((k.mutex 0).owner = some 2 ∧ (mutexLedger 0 trace).takes 2 = 1)) (by decide +kernel)
  obtain ⟨howner, htakes⟩ := of_decide_eq_true hfound
  exact ⟨trace, k, hrun, howner, htakes, mutexOwnership_of_run hrun 0⟩

/-- After 257 nested takes `hold` is one, so that a single release frees the mutex; another thread takes it while 256 takes are not released. -/
theorem hold_wraps : ∃ trace k, KernelRun WaitUse (.ofPriorities [31, 20]) trace k ∧ k.current = some 0 ∧
    (mutexLedger 0 trace).takes 1 = 256 ∧
    (step ⟨32, by decide⟩ k (.mutexTake 0 0)).map Prod.snd = some [.mutexTake 0 0 .eok] := by
  obtain ⟨trace, k, hrun, hfound⟩ := exists_kernelRun (.ofPriorities [31, 20]) WaitUse
    ([.startup 0, .startup 1, .schedulerStart] ++ List.replicate 257 (.mutexTake 0 0) ++ [.mutexRelease 0, .sleep 10])
    (fun trace k => decide (k.current = some 0 ∧ (mutexLedger 0 trace).takes 1 = 256 ∧
      (step ⟨32, by decide⟩ k (.mutexTake 0 0)).map Prod.snd = some [.mutexTake 0 0 .eok])) (by decide +kernel)
  exact ⟨trace, k, hrun, of_decide_eq_true hfound⟩

end RtThread
