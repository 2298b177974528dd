import RtThread.Kernel.Mutex

/-!
# Priority inheritance

A thread that blocks on a mutex lends its priority to the owner, at that moment and one step deep; the mutex saves the priority its owner had when it became the owner, and the last release brings it back. Both directions have gaps, and each is closed by a condition on the state before the step: this module finds the conditions.
-/

namespace RtThread

open Function

variable {cfg : Config} {k k' : Kernel} {v v' : View} {m : MutexId} {t : ThreadId} {self : Option ThreadId} {op : Op}
  {events : List Event}

namespace View

/-- `current_priority` of each thread. -/
def priority (v : View) (t : ThreadId) : Nat := (v.thread t).currentPriority

/-- `init_priority` of each thread. -/
def initial (v : View) (t : ThreadId) : Nat := (v.thread t).initPriority

/-- `owner` of each mutex. -/
def owner (v : View) (m : MutexId) : Option ThreadId := (v.mutex m).owner

/-- `original_priority` of each mutex. -/
def original (v : View) (m : MutexId) : Nat := (v.mutex m).originalPriority

theorem priority_setThread {f : Thread → Thread} (h : (f (v.thread t)).currentPriority = (v.thread t).currentPriority) :
    (v.setThread t f).priority = v.priority := by
  funext u
  by_cases hu : u = t
  · subst hu
    exact (congrArg Thread.currentPriority (v.setThread_self u f)).trans h
  · exact congrArg Thread.currentPriority (v.setThread_ne f hu)

theorem initial_setThread {f : Thread → Thread} (h : (f (v.thread t)).initPriority = (v.thread t).initPriority) :
    (v.setThread t f).initial = v.initial := by
  funext u
  by_cases hu : u = t
  · subst hu
    exact (congrArg Thread.initPriority (v.setThread_self u f)).trans h
  · exact congrArg Thread.initPriority (v.setThread_ne f hu)

theorem priority_setPriority (cfg : Config) (v : View) (t : ThreadId) (priority : Nat) :
    (v.setThread t (Thread.setPriority cfg priority)).priority = update v.priority t priority := by
  funext u
  rw [View.priority, setPriority_currentPriority, update_apply]
  rfl

theorem owner_setMutex {f : Mutex → Mutex} (h : (f (v.mutex m)).owner = (v.mutex m).owner) :
    (v.setMutex m f).owner = v.owner := by
  funext m'
  by_cases hm : m' = m
  · subst hm
    exact (congrArg Mutex.owner (v.setMutex_self m' f)).trans h
  · exact congrArg Mutex.owner (v.setMutex_ne f hm)

theorem original_setMutex {f : Mutex → Mutex} (h : (f (v.mutex m)).originalPriority = (v.mutex m).originalPriority) :
    (v.setMutex m f).original = v.original := by
  funext m'
  by_cases hm : m' = m
  · subst hm
    exact (congrArg Mutex.originalPriority (v.setMutex_self m' f)).trans h
  · exact congrArg Mutex.originalPriority (v.setMutex_ne f hm)

end View

structure InheritFrame (v v' : View) : Prop where
  priority : v'.priority = v.priority
  owner : v'.owner = v.owner
  original : v'.original = v.original
  waiters : ∀ m u, u ∈ v'.waiters (.mutex m) → u ∈ v.waiters (.mutex m)

inductive InheritStep (self : Option ThreadId) (v : View) : Op → View → Prop
  | same (op : Op) {v' : View} (hframe : InheritFrame v v') : InheritStep self v op v'
  | changePriority (t : ThreadId) (priority : Nat) {v' : View} (howner : v'.owner = v.owner) :
      InheritStep self v (.changePriority t priority) v'
  | startup (t : ThreadId) {v' : View} (hstat : (v.thread t).stat = .init)
      (hpriority : v'.priority = update v.priority t (v.initial t)) (howner : v'.owner = v.owner)
      (horiginal : v'.original = v.original) (hwaiters : ∀ m u, u ∈ v'.waiters (.mutex m) → u ∈ v.waiters (.mutex m)) :
      InheritStep self v (.startup t) v'
  | take (m : MutexId) (time : Int) (t : ThreadId) {v' : View} (hself : self = some t)
      (hstat : (v.thread t).stat = .ready) (hvalue : 0 < (v.mutex m).value)
      (hpriority : v'.priority = v.priority) (howner : v'.owner = update v.owner m (some t))
      (horiginal : v'.original = update v.original m (v.priority t)) (hwaiters : v'.waiters = v.waiters) :
      InheritStep self v (.mutexTake m time) v'
  | block (m : MutexId) (time : Int) (t owner : ThreadId) {v' : View} (hself : self = some t)
      (hstat : (v.thread t).stat = .ready) (hne : owner ≠ t) (htime : time ≠ 0) (hown : v.owner m = some owner)
      (hpriority : v'.priority = update v.priority owner (min (v.priority t) (v.priority owner)))
      (howner : v'.owner = v.owner) (horiginal : v'.original = v.original)
      (hwaiters : ∀ m' u, u ∈ v'.waiters (.mutex m') ↔ u ∈ v.waiters (.mutex m') ∨ (u = t ∧ m' = m)) :
      InheritStep self v (.mutexTake m time) v'
  | release (m : MutexId) (t : ThreadId) {v' : View} (hself : self = some t) (hstat : (v.thread t).stat = .ready)
      (hown : v.owner m = some t) (hlast : ((v.mutex m).hold + 255) % 256 = 0)
      (hpriority : v'.priority = update v.priority t (v.original m))
      (howner : v'.owner = update v.owner m (v.waiters (.mutex m)).head?)
      (horiginal : ∀ m', m' ≠ m → v'.original m' = v.original m')
      (hsaved : ∀ next ∈ (v.waiters (.mutex m)).head?, v'.original m = v'.priority next)
      (hwaiters : ∀ m' u, u ∈ v'.waiters (.mutex m') → u ∈ v.waiters (.mutex m'))
      (hgone : ∀ next ∈ (v.waiters (.mutex m)).head?, next ∉ v'.waiters (.mutex m)) :
      InheritStep self v (.mutexRelease m) v'

theorem InheritFrame.trans {v'' : View} (h : InheritFrame v v') (h' : InheritFrame v' v'') : InheritFrame v v'' :=
  ⟨h'.priority.trans h.priority, h'.owner.trans h.owner, h'.original.trans h.original,
    fun m u hu => h.waiters m u (h'.waiters m u hu)⟩

theorem InheritFrame.setThread {f : Thread → Thread} (h : (f (v.thread t)).currentPriority = (v.thread t).currentPriority) :
    InheritFrame v (v.setThread t f) :=
  ⟨View.priority_setThread h, rfl, rfl, fun _ _ => id⟩

theorem InheritFrame.unlink (v : View) (t : ThreadId) : InheritFrame v (v.unlink t) :=
  ⟨rfl, rfl, rfl, fun _ _ => List.mem_of_mem_erase⟩

theorem InheritFrame.setCall (v : View) (t : ThreadId) (c : Option Call) : InheritFrame v (v.setCall t c) :=
  ⟨rfl, rfl, rfl, fun _ _ => id⟩

theorem InheritFrame.wakeAll (v : View) (s : SemId) : InheritFrame v (v.wakeAll (.sem s)) := by
  refine ⟨funext fun u => ?_, rfl, rfl, fun m u hu => ?_⟩
  · unfold View.priority View.wakeAll
    dsimp only
    split_ifs <;> rfl
  · rwa [View.wakeAll_waiters_ne _ (by simp)] at hu

theorem View.block_priority (v : View) (o : IpcObject) (t : ThreadId) (flag : IpcFlag) (time : Int) (call : Call) :
    (v.block o t flag time call).priority = v.priority :=
  View.priority_setThread (f := fun thread => { thread with stat := .suspend, timer := decide (0 < time) }) rfl

theorem InheritFrame.block (v : View) (s : SemId) (t : ThreadId) (flag : IpcFlag) (time : Int) (call : Call) :
    InheritFrame v (v.block (.sem s) t flag time call) := by
  refine ⟨v.block_priority _ t flag time call, rfl, rfl, fun m u hu => ?_⟩
  rwa [View.block_waiters_ne _ (by simp)] at hu

theorem InheritFrame.hold (v : View) (m : MutexId) (hold : Mutex → Nat) :
    InheritFrame v (v.setMutex m fun mutex => { mutex with hold := hold mutex }) :=
  ⟨rfl, View.owner_setMutex rfl, View.original_setMutex rfl, fun _ _ => id⟩

theorem View.letGo_priority (cfg : Config) (v : View) (m : MutexId) (t : ThreadId) :
    (v.letGo cfg m t).priority = update v.priority t (v.original m) := by
  funext u
  rw [View.priority, View.letGo_currentPriority, update_apply]
  rfl

theorem View.letGo_owner (cfg : Config) (v : View) (m : MutexId) (t : ThreadId) :
    (v.letGo cfg m t).owner = v.owner := by
  funext m'
  rw [View.owner, View.letGo_mutex, update_apply]
  split_ifs with hm
  · rw [hm]
    rfl
  · rfl

theorem View.letGo_original (cfg : Config) (v : View) (m : MutexId) (t : ThreadId) :
    (v.letGo cfg m t).original = v.original := by
  funext m'
  rw [View.original, View.letGo_mutex, update_apply]
  split_ifs with hm
  · rw [hm]
    rfl
  · rfl

theorem View.own_owner (v : View) (m : MutexId) (t : ThreadId) (value : Nat) :
    (v.own m t value).owner = update v.owner m (some t) := by
  funext m'
  by_cases hm : m' = m
  · subst hm
    rw [View.owner, View.own_mutex_self, update_self]
  · rw [View.owner, View.own_mutex_ne _ hm, update_of_ne hm]
    rfl

theorem View.own_original (v : View) (m : MutexId) (t : ThreadId) (value : Nat) :
    (v.own m t value).original = update v.original m (v.priority t) := by
  funext m'
  by_cases hm : m' = m
  · subst hm
    rw [View.original, View.own_mutex_self, update_self]
    rfl
  · rw [View.original, View.own_mutex_ne _ hm, update_of_ne hm]
    rfl

theorem View.wake_priority {f : Thread → Thread} (h : (f (v.thread t)).currentPriority = (v.thread t).currentPriority) :
    (v.wake t f).priority = v.priority :=
  View.priority_setThread (v := v.unlink t) h

private theorem ViewStep.inherit_release (hstat : (v.thread t).stat = .ready) (hown : v.owner m = some t)
    (hlast : ((v.mutex m).hold + 255) % 256 = 0) (hself : self = some t)
    (hpriority : v'.priority = (v.letGo cfg m t).priority)
    (howner : v'.owner = update v.owner m (v.waiters (.mutex m)).head?)
    (horiginal : ∀ m', m' ≠ m → v'.original m' = v.original m')
    (hsaved : ∀ next ∈ (v.waiters (.mutex m)).head?, v'.original m = (v.letGo cfg m t).priority next)
    (hwaiters : ∀ m' u, u ∈ v'.waiters (.mutex m') → u ∈ v.waiters (.mutex m'))
    (hgone : ∀ next ∈ (v.waiters (.mutex m)).head?, next ∉ v'.waiters (.mutex m)) :
    InheritStep self v (.mutexRelease m) v' := by
  refine .release m t hself hstat hown hlast ?_ howner horiginal (fun next hnext => ?_) hwaiters hgone
  · rw [hpriority, View.letGo_priority]
  · rw [hpriority, hsaved next hnext]

theorem ViewStep.inherit (h : ViewStep cfg self v op events v') (hnodup : ∀ o, (v.waiters o).Nodup) :
    InheritStep self v op v' := by
  cases h with
  | startup t hstat =>
    refine .startup t hstat ?_ rfl rfl fun _ _ => List.mem_of_mem_erase
    funext u
    rw [update_apply]
    split_ifs with hu
    · subst hu
      unfold View.wake
      rw [View.priority, View.setThread_self]
      exact Thread.setPriority_currentPriority ..
    · exact congrArg Thread.currentPriority ((v.unlink t).setThread_ne _ hu)
  | suspend t => exact .same _ (.setThread rfl)
  | resume t => exact .same _ ((InheritFrame.unlink v t).trans (.setThread rfl))
  | timeout t => exact .same _ ((InheritFrame.unlink v t).trans (.setThread rfl))
  | changePriority t priority => exact .changePriority t priority rfl
  | close op t => exact .same _ ((InheritFrame.unlink v t).trans (.setThread rfl))
  | sleep t => exact .same _ ((InheritFrame.setThread rfl).trans (.setCall _ t _))
  | sleepReturn t => exact .same _ ((InheritFrame.setThread rfl).trans (.setCall _ t _))
  | semTakeBlocks s time t => exact .same _ ((InheritFrame.setThread rfl).trans (.block _ s t _ time _))
  | semReleaseWakes s t => exact .same _ ((InheritFrame.unlink v t).trans (.setThread rfl))
  | semReset s value => exact .same _ ((InheritFrame.wakeAll v s).trans ⟨rfl, rfl, rfl, fun _ _ => id⟩)
  | mutexTakeNested m time t => exact .same _ ((InheritFrame.setThread rfl).trans (.hold _ m _))
  | mutexTake m time t hcall howner hvalue hself =>
    have hclear : (v.clearError t).priority = v.priority := View.priority_setThread rfl
    refine .take m time t hself hcall.1 hvalue hclear (View.own_owner ..) ?_ rfl
    rw [View.own_original, hclear]
    rfl
  | mutexTakeFails m t => exact .same _ (.setThread rfl)
  | mutexTakeBlocks m time t owner hcall hne howner hvalue htime hself =>
    have hclear : (v.clearError t).priority = v.priority := View.priority_setThread rfl
    have hmutex := View.inherit_mutex cfg (v.clearError t) owner (v.priority t)
    have hwaiting := View.inherit_waiters cfg (v.clearError t) owner (v.priority t)
    refine .block m time t owner hself hcall.1 hne htime howner ?_ ?_ ?_ fun m' u => ?_
    · rw [View.block_priority]
      funext u
      rw [View.priority, View.inherit_currentPriority, update_apply]
      split_ifs with hu
      · rw [hu]
        exact congrArg (min (v.priority t)) (congrFun hclear owner)
      · exact congrFun hclear u
    · exact funext fun m' => congrArg Mutex.owner (congrFun hmutex m')
    · exact funext fun m' => congrArg Mutex.originalPriority (congrFun hmutex m')
    · by_cases hm : m' = m
      · subst hm
        rw [View.block_waiters_self, (View.joined_perm ..).mem_iff, List.mem_cons]
        unfold View.priority at hwaiting
        rw [hwaiting]
        simp [View.clearError, View.setThread, or_comm]
      · rw [View.block_waiters_ne _ (by simpa using hm)]
        unfold View.priority at hwaiting
        rw [hwaiting]
        simp [View.clearError, View.setThread, hm]
  | mutexReleaseFails m t => exact .same _ (.setThread rfl)
  | mutexReleaseNested m t => exact .same _ (.hold v m _)
  | mutexReleaseHandOff m t next rest hcall howner hlast hwaiters hself =>
    have hpriority : (((v.letGo cfg m t).own m next (v.mutex m).value).wake next id).priority =
        (v.letGo cfg m t).priority := View.wake_priority rfl
    have hmem {o : IpcObject} {u : ThreadId}
        (hu : u ∈ (((v.letGo cfg m t).own m next (v.mutex m).value).wake next id).waiters o) :
        u ∈ (v.waiters o).erase next := by
      change u ∈ ((v.letGo cfg m t).waiters o).erase next at hu
      rwa [View.letGo_waiters] at hu
    refine ViewStep.inherit_release hcall.1 howner hlast hself hpriority ?_ (fun m' hm => ?_)
      (fun n hn => ?_) (fun m' u hu => List.mem_of_mem_erase (hmem hu)) (fun n hn hu => ?_)
    · change ((v.letGo cfg m t).own m next (v.mutex m).value).owner = _
      rw [View.own_owner, View.letGo_owner, hwaiters]
      rfl
    · change ((v.letGo cfg m t).own m next (v.mutex m).value).original m' = _
      rw [View.own_original, update_of_ne hm, View.letGo_original]
    · rw [hwaiters] at hn
      obtain rfl := Option.some.inj hn
      change ((v.letGo cfg m t).own m next (v.mutex m).value).original m = _
      rw [View.own_original, update_self]
    · rw [hwaiters] at hn
      obtain rfl := Option.some.inj hn
      exact (hnodup _).not_mem_erase (hmem hu)
  | mutexReleaseFree m t hcall howner hlast hwaiters hself =>
    have hmutex {m' : MutexId} (hm : m' ≠ m) : ((v.letGo cfg m t).free m).mutex m' = v.mutex m' := by
      rw [View.free_mutex_ne _ hm, View.letGo_mutex, update_of_ne hm]
    refine ViewStep.inherit_release hcall.1 howner hlast hself rfl ?_ (fun m' hm => ?_)
      (fun n hn => ?_) (fun m' u hu => ?_) (fun n hn hu => ?_)
    · rw [hwaiters]
      funext m'
      by_cases hm : m' = m
      · subst hm
        rw [View.owner, View.free_mutex_self, update_self]
        rfl
      · rw [View.owner, hmutex hm, update_of_ne hm]
        rfl
    · exact congrArg Mutex.originalPriority (hmutex hm)
    · rw [hwaiters] at hn
      cases hn
    · change u ∈ (v.letGo cfg m t).waiters (.mutex m') at hu
      rwa [View.letGo_waiters] at hu
    · rw [hwaiters] at hn
      cases hn
  | _ => exact .same _ ⟨rfl, rfl, rfl, fun _ _ => id⟩

/-! ## The owner's priority while others wait -/

def View.Inherits (v : View) : Prop :=
  ∀ m t, v.owner m = some t → ∀ u ∈ v.waiters (.mutex m), v.priority t ≤ v.priority u

def View.OwnersStarted (v : View) : Prop := ∀ m t, v.owner m = some t → (v.thread t).stat ≠ .init

/-- The running thread lends its priority to an owner that itself waits for the mutex `m'` only if the owner of `m'` already has that priority: inheritance goes one step deep. -/
def LendsOneStep (k : Kernel) (m m' : MutexId) : Prop :=
  ∀ t ∈ k.current, ∀ owner ∈ (k.mutex m).owner,
    (k.thread t).currentPriority < (k.thread owner).currentPriority →
    ∀ next ∈ (k.mutex m').owner, owner ∈ k.tlist (.suspend (.mutex m')) →
      (k.thread next).currentPriority ≤ (k.thread t).currentPriority

def ReleasesLast (k : Kernel) (m : MutexId) (t : ThreadId) : Prop :=
  k.current = some t ∧ (k.mutex m).owner = some t ∧ ((k.mutex m).hold + 255) % 256 = 0

instance (k : Kernel) (m : MutexId) (t : ThreadId) : Decidable (ReleasesLast k m t) :=
  inferInstanceAs (Decidable (_ ∧ _ ∧ _))

def HandsToHighest (k : Kernel) (m : MutexId) : Prop :=
  ∀ t ∈ k.current, ReleasesLast k m t → ∀ next ∈ (k.tlist (.suspend (.mutex m))).head?,
    ∀ u ∈ k.tlist (.suspend (.mutex m)), (k.thread next).currentPriority ≤ (k.thread u).currentPriority

/-- The priority that the last release of `m` brings back is enough for the waiters of `m'`, another mutex of the thread. -/
def KeepsInherited (k : Kernel) (m m' : MutexId) : Prop :=
  ∀ t ∈ k.current, ReleasesLast k m t → m' ≠ m → (k.mutex m').owner = some t →
    ∀ u ∈ k.tlist (.suspend (.mutex m')), (k.mutex m).originalPriority ≤ (k.thread u).currentPriority

instance (k : Kernel) (m m' : MutexId) : Decidable (LendsOneStep k m m') := by
  unfold LendsOneStep; infer_instance

instance (k : Kernel) (m : MutexId) : Decidable (HandsToHighest k m) := by
  unfold HandsToHighest; infer_instance

instance (k : Kernel) (m m' : MutexId) : Decidable (KeepsInherited k m m') := by
  unfold KeepsInherited; infer_instance

def PriorityUse (k : Kernel) (op : Op) : Prop :=
  WaitUse k op ∧
  match op with
  | .changePriority _ _ => False
  | _ => True

instance (k : Kernel) (op : Op) : Decidable (PriorityUse k op) := by
  induction op using Op.casesOn <;> dsimp only [PriorityUse] <;> infer_instance

def InheritUse (k : Kernel) (op : Op) : Prop :=
  PriorityUse k op ∧
  match op with
  | .mutexTake m time => time ≠ 0 → ∀ m', LendsOneStep k m m'
  | .mutexRelease m => HandsToHighest k m ∧ ∀ m', KeepsInherited k m m'
  | _ => True

theorem PriorityUse.no_change (h : PriorityUse k op) (t : ThreadId) (priority : Nat) :
    op ≠ .changePriority t priority := by
  rintro rfl
  exact h.2

theorem View.init_setThread {u : ThreadId} {f : Thread → Thread}
    (hf : (f (v.thread t)).stat = .init → (v.thread t).stat = .init) (hinit : ((v.setThread t f).thread u).stat = .init) :
    (v.thread u).stat = .init := by
  by_cases hu : u = t
  · subst hu
    rw [View.setThread_self] at hinit
    exact hf hinit
  · rwa [v.setThread_ne f hu] at hinit

theorem View.init_clearError {u : ThreadId} (hinit : ((v.clearError t).thread u).stat = .init) :
    (v.thread u).stat = .init :=
  View.init_setThread (f := fun thread => { thread with error := .eok }) id hinit

theorem ViewStep.init_of_init {u : ThreadId} (h : ViewStep cfg self v op events v')
    (hinit : (v'.thread u).stat = .init) : (v.thread u).stat = .init := by
  cases h with
  | startup t => exact View.init_setThread (v := v.unlink t) (by simp) hinit
  | suspend t => exact View.init_setThread (by simp) hinit
  | resume t => exact View.init_setThread (v := v.unlink t) (by simp) hinit
  | timeout t => exact View.init_setThread (v := v.unlink t) (by simp) hinit
  | changePriority t priority => rwa [View.setPriority_stat] at hinit
  | close op t => exact View.init_setThread (v := v.unlink t) (by simp) hinit
  | sleep t =>
    exact View.init_setThread (f := fun thread => { thread with stat := .suspend, timer := true }) (by simp) hinit
  | sleepReturn t =>
    exact View.init_setThread (f := fun thread =>
      { thread with error := if thread.error = .etimeout then .eok else thread.error }) id hinit
  | semTakeBlocks s time t =>
    exact View.init_clearError (View.init_setThread (v := v.clearError t)
      (f := fun thread => { thread with stat := .suspend, timer := decide (0 < time) }) (by simp) hinit)
  | semReleaseWakes s t => exact View.init_setThread (v := v.unlink t) (by simp) hinit
  | semReset s value =>
    unfold View.setSem View.wakeAll at hinit
    dsimp only at hinit
    split_ifs at hinit
    exact hinit
  | mutexTakeNested m time t => exact View.init_clearError (t := t) hinit
  | mutexTake m time t => exact View.init_clearError (t := t) hinit
  | mutexTakeFails m t => exact View.init_setThread id hinit
  | mutexTakeBlocks m time t owner =>
    have hinherit := View.init_setThread
      (f := fun thread => { thread with stat := .suspend, timer := decide (0 < time) }) (by simp) hinit
    rw [View.inherit_stat] at hinherit
    exact View.init_clearError hinherit
  | mutexReleaseFails m t => exact View.init_setThread id hinit
  | mutexReleaseHandOff m t next =>
    have hlet := View.init_setThread (v := ((v.letGo cfg m t).own m next _).unlink next) (by simp) hinit
    exact (View.letGo_stat cfg v m t u).symm.trans hlet
  | mutexReleaseFree m t => exact (View.letGo_stat cfg v m t u).symm.trans hinit
  | _ => exact hinit

theorem InheritStep.ownersStarted (h : InheritStep self k.view op v') (hk : KernelInv cfg k)
    (hinit : ∀ t, (v'.thread t).stat = .init → (k.thread t).stat = .init) (hstarted : k.view.OwnersStarted)
    (hop : ∀ t priority, op ≠ .changePriority t priority) : v'.OwnersStarted := by
  intro m' u hown hstat
  have hstat := hinit u hstat
  cases h with
  | same op hframe => exact hstarted m' u (by rwa [hframe.owner] at hown) hstat
  | changePriority t priority => exact hop t priority rfl
  | startup t _ _ howner => exact hstarted m' u (by rwa [howner] at hown) hstat
  | take m time t _ hready _ _ howner =>
    rw [howner, update_apply] at hown
    split_ifs at hown
    · obtain rfl := Option.some.inj hown
      rw [show (k.thread t).stat = .ready from hready] at hstat
      cases hstat
    · exact hstarted m' u hown hstat
  | block m time t owner _ _ _ _ _ _ howner => exact hstarted m' u (by rwa [howner] at hown) hstat
  | release m t _ _ _ _ _ howner =>
    rw [howner, update_apply] at hown
    split_ifs at hown
    · rw [hk.lists.suspend (.mutex m) u (List.mem_of_mem_head? hown)] at hstat
      cases hstat
    · exact hstarted m' u hown hstat

theorem InheritStep.inherits {pending : MutexId → List ThreadId} (h : InheritStep k.current k.view op v')
    (hk : KernelInv cfg k) (howned : ∀ m, OwnerInv m (pending m) k.view) (hstarted : k.view.OwnersStarted)
    (hinherits : k.view.Inherits) (hok : InheritUse k op) : v'.Inherits := by
  have hwaiting {m : MutexId} {u : ThreadId} (hu : u ∈ k.view.waiters (.mutex m)) : (k.view.thread u).stat = .suspend :=
    hk.lists.suspend (.mutex m) u hu
  intro m' o hown u hu
  cases h with
  | same op hframe =>
    rw [hframe.priority]
    exact hinherits m' o (by rwa [hframe.owner] at hown) u (hframe.waiters m' u hu)
  | changePriority t priority => exact hok.1.2.elim
  | startup t hstat hpriority howner _ hwaiters =>
    rw [howner] at hown
    have hu := hwaiters m' u hu
    have hot : o ≠ t := fun heq => hstarted m' o hown (heq ▸ hstat)
    have hut : u ≠ t := by
      rintro rfl
      rw [hwaiting hu] at hstat
      cases hstat
    rw [hpriority, update_of_ne hot, update_of_ne hut]
    exact hinherits m' o hown u hu
  | take m time t _ _ hvalue hpriority howner _ hwaiters =>
    rw [hwaiters] at hu
    rw [howner, update_apply] at hown
    rw [hpriority]
    split_ifs at hown with hm
    · -- nobody waits for a free mutex
      subst hm
      have hfree : k.view.owner m' = none := by
        by_contra hown'
        rw [(howned m').owned hown'] at hvalue
        exact absurd hvalue (lt_irrefl 0)
      rw [((howned m').free hfree).2] at hu
      cases hu
    · exact hinherits m' o hown u hu
  | block m time t owner hself _ hne htime howns hpriority howner _ hwaiters =>
    rw [howner] at hown
    rw [hpriority]
    have hlower : update k.view.priority owner (min (k.view.priority t) (k.view.priority owner)) o ≤
        k.view.priority o := by
      rw [update_apply]
      split_ifs with ho
      · rw [ho]
        exact min_le_right _ _
      · exact le_refl _
    rcases (hwaiters m' u).1 hu with hold | ⟨rfl, rfl⟩
    · have hle := hinherits m' o hown u hold
      by_cases huo : u = owner
      · subst huo
        by_cases hou : o = u
        · rw [hou]
        · rw [update_of_ne hou, update_self]
          refine le_min ?_ hle
          by_cases hlt : k.view.priority t < k.view.priority u
          · exact hok.2 htime m' t hself u howns hlt o hown hold
          · exact hle.trans (not_lt.1 hlt)
      · rw [update_of_ne huo]
        exact hlower.trans hle
    · obtain rfl : o = owner := Option.some.inj (hown.symm.trans howns)
      rw [update_self, update_of_ne (Ne.symm hne)]
      exact min_le_left _ _
  | release m t hself hready howns hlast hpriority howner _ _ hwaiters hgone =>
    have hold := hwaiters m' u hu
    have hut : u ≠ t := by
      rintro rfl
      rw [hwaiting hold] at hready
      cases hready
    obtain ⟨hfirst, hothers⟩ := hok.2
    have hreleases : ReleasesLast k m t := ⟨hself, howns, hlast⟩
    rw [howner, update_apply] at hown
    rw [hpriority, update_of_ne hut, update_apply]
    split_ifs at hown with hm
    · -- the waiter that the mutex is handed to
      subst hm
      have hot : o ≠ t := by
        rintro rfl
        rw [hwaiting (List.mem_of_mem_head? hown)] at hready
        cases hready
      rw [if_neg hot]
      exact hfirst t hself hreleases o hown u hold
    · split_ifs with hot
      · exact hothers m' t hself hreleases hm (hot ▸ hown) u hold
      · exact hinherits m' o hown u hold

variable {setup : Setup cfg} {trace : List Event}

theorem KernelRun.inherits (hrun : KernelRun InheritUse setup trace k) : k.view.Inherits := by
  suffices hall : (∀ m, OwnerInv m (pendingThreads (.mutex m) trace) k.view) ∧ k.view.OwnersStarted ∧ k.view.Inherits
    from hall.2.2
  refine (hrun.wait_invariant (I := fun trace v =>
    (∀ m, OwnerInv m (pendingThreads (.mutex m) trace) v) ∧ v.OwnersStarted ∧ v.Inherits)
    (fun _ _ hok => hok.1.1) ⟨.boot setup, ?_, ?_⟩ ?_).2
  · exact fun m t hown => absurd hown.symm (Option.some_ne_none t)
  · exact fun m t hown => absurd hown.symm (Option.some_ne_none t)
  · intro trace k op events v' hk hwait hinv hok hstep
    have hinherit := hstep.inherit fun o => hk.lists.nodup _
    refine ⟨fun m => ?_, ?_, ?_⟩
    · unfold pendingThreads
      rw [List.foldl_append]
      exact (hinv.1 m).step (hwait.2 (.mutex m)) hstep
    · exact hinherit.ownersStarted hk (fun t => hstep.init_of_init) hinv.2.1 hok.1.no_change
    · exact hinherit.inherits hk hinv.1 hinv.2.1 hinv.2.2 hok

/-- In every state of a run that reaches no gap, the owner of a mutex runs at least at the priority of each thread suspended on it. -/
theorem owner_priority_of_run (hrun : KernelRun InheritUse setup trace k) (m : MutexId) (owner : ThreadId)
    (howner : (k.mutex m).owner = some owner) (u : ThreadId) (hu : u ∈ k.tlist (.suspend (.mutex m))) :
    (k.thread owner).currentPriority ≤ (k.thread u).currentPriority :=
  hrun.inherits m owner howner u hu

/-- Only the first `n` mutexes are taken. -/
def Op.MutexBelow (n : Nat) : Op → Prop
  | .mutexTake m _ => m < n
  | _ => True

instance (n : Nat) (op : Op) : Decidable (op.MutexBelow n) := by
  induction op using Op.casesOn <;> dsimp only [Op.MutexBelow] <;> infer_instance

theorem InheritStep.owner_none (h : InheritStep self v op v') {n : Nat} (hop : op.MutexBelow n)
    (hnone : ∀ m, n ≤ m → v.owner m = none) : ∀ m, n ≤ m → v'.owner m = none := by
  intro m' hm'
  cases h with
  | same op hframe => rw [hframe.owner, hnone m' hm']
  | changePriority t priority howner => rw [howner, hnone m' hm']
  | startup t _ _ howner => rw [howner, hnone m' hm']
  | take m time t _ _ _ _ howner =>
    have hm : m < n := hop
    rw [howner, update_of_ne (hm.trans_le hm').ne', hnone m' hm']
  | block m time t owner _ _ _ _ _ _ howner => rw [howner, hnone m' hm']
  | release m t _ _ hown _ _ howner =>
    have hm : m' ≠ m := by
      rintro rfl
      rw [hnone m' hm'] at hown
      cases hown
    rw [howner, update_of_ne hm, hnone m' hm']

theorem KernelRun.owner_none {ok : Kernel → Op → Prop} {n : Nat} (hrun : KernelRun ok setup trace k)
    (hok : ∀ k op, ok k op → op.MutexBelow n) : ∀ m, n ≤ m → (k.mutex m).owner = none := by
  refine hrun.view_invariant (I := fun _ v => ∀ m, n ≤ m → v.owner m = none) (fun _ _ => rfl) ?_
  intro trace k op events v' hk hnone hop hstep
  exact (hstep.inherit fun o => hk.lists.nodup _).owner_none (hok k op hop) hnone

/-- `InheritUse` where only the first `n` mutexes are used. -/
def InheritUseBelow (n : Nat) (k : Kernel) (op : Op) : Prop :=
  PriorityUse k op ∧ op.MutexBelow n ∧
  match op with
  | .mutexTake m _ => ∀ m' < n, LendsOneStep k m m'
  | .mutexRelease m => HandsToHighest k m ∧ ∀ m' < n, KeepsInherited k m m'
  | _ => True

instance (n : Nat) (k : Kernel) (op : Op) : Decidable (InheritUseBelow n k op) := by
  induction op using Op.casesOn <;> dsimp only [InheritUseBelow] <;> infer_instance

theorem InheritUseBelow.inheritUse {n : Nat} (hnone : ∀ m, n ≤ m → (k.mutex m).owner = none)
    (h : InheritUseBelow n k op) : InheritUse k op := by
  refine ⟨h.1, ?_⟩
  cases op with
  | mutexTake m time =>
    intro _ m'
    by_cases hm' : m' < n
    · exact h.2.2 m' hm'
    · intro t _ owner _ _ next hnext
      rw [hnone m' (not_lt.1 hm')] at hnext
      cases hnext
  | mutexRelease m =>
    refine ⟨h.2.2.1, fun m' => ?_⟩
    by_cases hm' : m' < n
    · exact h.2.2.2 m' hm'
    · intro t _ _ _ hown
      rw [hnone m' (not_lt.1 hm')] at hown
      cases hown
  | _ => trivial

/-- A thread of priority 10 waits for a mutex of a thread of priority 20, which has released another mutex before. -/
theorem owner_priority_of_run_boosted : ∃ trace k, KernelRun InheritUse (.ofPriorities [31, 20, 10]) trace k ∧
    (k.mutex 0).owner = some 1 ∧ 2 ∈ k.tlist (.suspend (.mutex 0)) ∧ (k.thread 2).currentPriority = 10 ∧
    (k.thread 1).currentPriority ≤ (k.thread 2).currentPriority := by
  obtain ⟨trace, k, hrun, hfound⟩ := exists_kernelRun (.ofPriorities [31, 20, 10]) (InheritUseBelow 2)
    [.startup 0, .startup 1, .schedulerStart, .mutexTake 0 (-1), .mutexTake 1 (-1), .mutexRelease 1, .startup 2,
      .mutexTake 0 (-1)]
    (fun _ k => decide ((k.mutex 0).owner = some 1 ∧ 2 ∈ k.tlist (.suspend (.mutex 0)) ∧
      (k.thread 2).currentPriority = 10)) (by decide +kernel)
  obtain ⟨howner, hwaits, hpriority⟩ := of_decide_eq_true hfound
  have hrun := hrun.mono fun trace k op hbefore hop =>
    hop.inheritUse (KernelRun.owner_none hbefore fun _ _ hok => hok.2.1)
  exact ⟨trace, k, hrun, howner, hwaits, hpriority, owner_priority_of_run hrun 0 1 howner 2 hwaits⟩

/-- Threads of priority 15 and 5 have queued up for a mutex in this order: the release hands it to the first, and the second waits for a thread of lower priority. -/
theorem owner_below_waiter : ∃ trace k, KernelRun PriorityUse (.ofPriorities [31, 20, 15, 5]) trace k ∧
    (k.mutex 0).owner = some 2 ∧ 3 ∈ k.tlist (.suspend (.mutex 0)) ∧
    ¬ (k.thread 2).currentPriority ≤ (k.thread 3).currentPriority := by
  obtain ⟨trace, k, hrun, hfound⟩ := exists_kernelRun (.ofPriorities [31, 20, 15, 5]) PriorityUse
    [.startup 0, .startup 1, .schedulerStart, .mutexTake 0 (-1), .startup 2, .mutexTake 0 (-1), .startup 3,
      .mutexTake 0 (-1), .mutexRelease 0]
    (fun _ k => decide ((k.mutex 0).owner = some 2 ∧ 3 ∈ k.tlist (.suspend (.mutex 0)) ∧
      ¬ (k.thread 2).currentPriority ≤ (k.thread 3).currentPriority)) (by decide +kernel)
  exact ⟨trace, k, hrun, of_decide_eq_true hfound⟩

/-! ## The owner's priority afterwards -/

def View.Restored (v : View) : Prop :=
  ∀ t, (∀ m, v.owner m ≠ some t) → v.priority t = v.initial t

/-- The mutex that a thread releases as the last one it owns has saved the initial priority of the thread. -/
def RestoresInitial (k : Kernel) (m : MutexId) : Prop :=
  ∀ t, ReleasesLast k m t → (∀ m', m' ≠ m → (k.mutex m').owner ≠ some t) →
    (k.mutex m).originalPriority = (k.thread t).initPriority

/-- The last of the mutexes of a thread is released at the priority it was taken at, before any inheritance. -/
def RestoreUse (k : Kernel) (op : Op) : Prop :=
  PriorityUse k op ∧
  match op with
  | .mutexRelease m => RestoresInitial k m
  | _ => True

theorem View.initial_setPriority (cfg : Config) (v : View) (t : ThreadId) (priority : Nat) :
    (v.setThread t (Thread.setPriority cfg priority)).initial = v.initial :=
  View.initial_setThread (Thread.setPriority_initPriority ..)

theorem View.initial_inherit (cfg : Config) (v : View) (owner : ThreadId) (priority : Nat) :
    (v.inherit cfg owner priority).initial = v.initial := by
  unfold View.inherit
  split_ifs
  · exact v.initial_setPriority cfg owner priority
  · rfl

theorem View.initial_letGo (cfg : Config) (v : View) (m : MutexId) (t : ThreadId) :
    (v.letGo cfg m t).initial = v.initial := by
  unfold View.letGo View.restore
  split_ifs
  · exact (v.setMutex m fun mutex => { mutex with hold := 0 }).initial_setPriority cfg t _
  · rfl

theorem View.initial_clearError (v : View) (t : ThreadId) : (v.clearError t).initial = v.initial :=
  View.initial_setThread rfl

theorem ViewStep.initial (h : ViewStep cfg self v op events v') : v'.initial = v.initial := by
  cases h with
  | startup t => exact View.initial_setThread (v := v.unlink t) (Thread.setPriority_initPriority ..)
  | suspend t => exact View.initial_setThread rfl
  | resume t => exact View.initial_setThread (v := v.unlink t) rfl
  | timeout t => exact View.initial_setThread (v := v.unlink t) rfl
  | changePriority t priority => exact v.initial_setPriority cfg t priority
  | close op t => exact View.initial_setThread (v := v.unlink t) rfl
  | sleep t =>
    exact View.initial_setThread (f := fun thread => { thread with stat := .suspend, timer := true }) rfl
  | sleepReturn t =>
    exact View.initial_setThread (f := fun thread =>
      { thread with error := if thread.error = .etimeout then .eok else thread.error }) rfl
  | semTakeBlocks s time t =>
    exact (View.initial_setThread (v := v.clearError t)
      (f := fun thread => { thread with stat := .suspend, timer := decide (0 < time) }) rfl).trans
      (v.initial_clearError t)
  | semReleaseWakes s t => exact View.initial_setThread (v := v.unlink t) rfl
  | semReset s value =>
    funext u
    unfold View.initial View.setSem View.wakeAll
    dsimp only
    split_ifs <;> rfl
  | mutexTakeNested m time t => exact v.initial_clearError t
  | mutexTake m time t => exact v.initial_clearError t
  | mutexTakeFails m t => exact View.initial_setThread rfl
  | mutexTakeBlocks m time t owner =>
    refine (View.initial_setThread (f := fun thread => { thread with stat := .suspend, timer := decide (0 < time) })
      rfl).trans ?_
    exact (View.initial_inherit ..).trans (v.initial_clearError t)
  | mutexReleaseFails m t => exact View.initial_setThread rfl
  | mutexReleaseHandOff m t next =>
    refine (View.initial_setThread (v := ((v.letGo cfg m t).own m next (v.mutex m).value).unlink next) rfl).trans ?_
    exact v.initial_letGo cfg m t
  | mutexReleaseFree m t => exact v.initial_letGo cfg m t
  | _ => rfl

theorem InheritStep.restored {pending : MutexId → List ThreadId} (h : InheritStep k.current k.view op v')
    (howned : ∀ m, OwnerInv m (pending m) k.view) (hinitial : v'.initial = k.view.initial)
    (hrestored : k.view.Restored) (hok : RestoreUse k op) : v'.Restored := by
  intro u hnone
  rw [hinitial]
  cases h with
  | same op hframe =>
    rw [hframe.owner] at hnone
    rw [hframe.priority]
    exact hrestored u hnone
  | changePriority t priority => exact hok.1.2.elim
  | startup t _ hpriority howner =>
    rw [howner] at hnone
    rw [hpriority, update_apply]
    split_ifs with hu
    · rw [hu]
    · exact hrestored u hnone
  | take m time t _ _ hvalue hpriority howner =>
    rw [hpriority]
    refine hrestored u fun m' hown => ?_
    by_cases hm : m' = m
    · subst hm
      rw [(howned m').owned (by rw [show (k.view.mutex m').owner = _ from hown]; simp)] at hvalue
      exact absurd hvalue (lt_irrefl 0)
    · have hnone := hnone m'
      rw [howner, update_of_ne hm] at hnone
      exact hnone hown
  | block m time t owner _ _ _ _ hown hpriority howner =>
    rw [howner] at hnone
    have hne : u ≠ owner := by
      rintro rfl
      exact hnone m hown
    rw [hpriority, update_of_ne hne]
    exact hrestored u hnone
  | release m t hself _ hown hlast hpriority howner =>
    have hothers (m' : MutexId) (hm : m' ≠ m) : k.view.owner m' ≠ some u := by
      have hnone := hnone m'
      rwa [howner, update_of_ne hm] at hnone
    rw [hpriority, update_apply]
    split_ifs with hut
    · subst hut
      exact hok.2 u ⟨hself, hown, hlast⟩ hothers
    · refine hrestored u fun m' hown' => ?_
      by_cases hm : m' = m
      · subst hm
        exact hut (Option.some.inj (hown'.symm.trans hown))
      · exact hothers m' hm hown'

theorem KernelRun.restored (hrun : KernelRun RestoreUse setup trace k) : k.view.Restored := by
  suffices hall : (∀ m, OwnerInv m (pendingThreads (.mutex m) trace) k.view) ∧ k.view.Restored from hall.2
  refine (hrun.wait_invariant (I := fun trace v =>
    (∀ m, OwnerInv m (pendingThreads (.mutex m) trace) v) ∧ v.Restored)
    (fun _ _ hok => hok.1.1) ⟨.boot setup, fun t _ => rfl⟩ ?_).2
  intro trace k op events v' hk hwait hinv hok hstep
  refine ⟨fun m => ?_, ?_⟩
  · unfold pendingThreads
    rw [List.foldl_append]
    exact (hinv.1 m).step (hwait.2 (.mutex m)) hstep
  · exact (hstep.inherit fun o => hk.lists.nodup _).restored hinv.1 hstep.initial hinv.2 hok

/-- In every state of a run in which each thread releases last a mutex it took at its initial priority, a thread without mutexes is at its initial priority. -/
theorem priority_restored_of_run (hrun : KernelRun RestoreUse setup trace k) (t : ThreadId)
    (hnone : ∀ m, (k.mutex m).owner ≠ some t) : (k.thread t).currentPriority = (k.thread t).initPriority :=
  hrun.restored t hnone

/-- `RestoreUse` where only the first `n` mutexes are used, and each release brings back the initial priority. -/
def RestoreUseBelow (n : Nat) (k : Kernel) (op : Op) : Prop :=
  PriorityUse k op ∧ op.MutexBelow n ∧
  match op with
  | .mutexRelease m => ∀ t ∈ k.current, ReleasesLast k m t → (k.mutex m).originalPriority = (k.thread t).initPriority
  | _ => True

instance (n : Nat) (k : Kernel) (op : Op) : Decidable (RestoreUseBelow n k op) := by
  induction op using Op.casesOn <;> dsimp only [RestoreUseBelow] <;> infer_instance

theorem RestoreUseBelow.restoreUse {n : Nat} (h : RestoreUseBelow n k op) : RestoreUse k op := by
  refine ⟨h.1, ?_⟩
  cases op with
  | mutexRelease m => exact fun t hlast _ => h.2.2 t hlast.1 hlast
  | _ => trivial

/-- A thread of priority 20 has inherited priority 10 through a mutex and is back at 20 after the release. -/
theorem priority_restored_of_run_unboosted : ∃ trace k, KernelRun RestoreUse (.ofPriorities [31, 20, 10]) trace k ∧
    (∀ m, (k.mutex m).owner ≠ some 1) ∧ (k.thread 1).initPriority = 20 ∧
    (k.thread 1).currentPriority = (k.thread 1).initPriority := by
  obtain ⟨trace, k, hrun, hfound⟩ := exists_kernelRun (.ofPriorities [31, 20, 10]) (RestoreUseBelow 1)
    [.startup 0, .startup 1, .schedulerStart, .mutexTake 0 (-1), .startup 2, .mutexTake 0 (-1), .mutexRelease 0]
    (fun _ k => decide ((k.mutex 0).owner = some 2 ∧ (k.thread 1).initPriority = 20)) (by decide +kernel)
  obtain ⟨howner, hinitial⟩ := of_decide_eq_true hfound
  have hnone (m : MutexId) : (k.mutex m).owner ≠ some 1 := by
    by_cases hm : m < 1
    · rw [Nat.lt_one_iff.1 hm, howner]
      decide
    · rw [hrun.owner_none (fun _ _ hok => hok.2.1) m (not_lt.1 hm)]
      exact (Option.some_ne_none 1).symm
  have hrun := hrun.mono fun _ _ _ _ hop => hop.restoreUse
  exact ⟨trace, k, hrun, hnone, hinitial, priority_restored_of_run hrun 1 hnone⟩

/-- A thread of priority 20 takes a second mutex while it has inherited priority 5 through the first, and releases the first before the second: it keeps priority 5 with no mutex left. -/
theorem inherited_priority_kept : ∃ trace k, KernelRun PriorityUse (.ofPriorities [31, 20, 5]) trace k ∧
    (∀ m, (k.mutex m).owner ≠ some 1) ∧ (k.thread 1).currentPriority = 5 ∧ (k.thread 1).initPriority = 20 := by
  obtain ⟨trace, k, hrun, hfound⟩ := exists_kernelRun (.ofPriorities [31, 20, 5])
    (fun k op => PriorityUse k op ∧ op.MutexBelow 2)
    [.startup 0, .startup 1, .schedulerStart, .mutexTake 0 (-1), .startup 2, .mutexTake 0 (-1), .mutexTake 1 (-1),
      .mutexRelease 0, .finish, .mutexRelease 0, .sleep 10, .mutexRelease 1]
    (fun _ k => decide ((∀ m < (2 : Nat), (k.mutex m).owner ≠ some 1) ∧ (k.thread 1).currentPriority = 5 ∧
      (k.thread 1).initPriority = 20)) (by decide +kernel)
  obtain ⟨hbelow, hpriority⟩ := of_decide_eq_true hfound
  refine ⟨trace, k, hrun.mono fun _ _ _ _ hop => hop.1, fun m => ?_, hpriority⟩
  by_cases hm : m < 2
  · exact hbelow m hm
  · rw [hrun.owner_none (fun _ _ hok => hok.2) m (not_lt.1 hm)]
    exact (Option.some_ne_none 1).symm

end RtThread
