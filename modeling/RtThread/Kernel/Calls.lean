import RtThread.Kernel.View

/-!
# Every kernel call keeps the ready queue in order

One lemma for each function of the kernel: the ready queue stays in order, and the rest of the state changes as the function's `View` says. Together they take every step of the kernel to a `ViewStep`.
-/

namespace RtThread

open Function

variable {cfg : Config} {k k' : Kernel} {v : View} {t u : ThreadId}

/-- The ready queue is in order, and the rest of the kernel is as in `v`. -/
structure Reaches (cfg : Config) (k : Kernel) (v : View) : Prop where
  inv : SchedInv cfg k
  view : k.view = v

theorem SchedInv.reaches (h : SchedInv cfg k) : Reaches cfg k k.view := ⟨h, rfl⟩

@[simp] theorem Kernel.setThread_view (k : Kernel) (t : ThreadId) (f : Thread → Thread) :
    (k.setThread t f).view = k.view.setThread t f := rfl

@[simp] theorem rtListRemove_view (k : Kernel) (t : ThreadId) : (rtListRemove k t).view = k.view.unlink t := rfl

@[simp] theorem rtThreadTimerStop_view (k : Kernel) (t : ThreadId) :
    (rtThreadTimerStop k t).view = k.view.setThread t fun thread => { thread with timer := false } := rfl

/-- Besides, `rt_schedule` has just decided who has the processor. -/
structure Settles (cfg : Config) (k : Kernel) (v : View) : Prop extends Reaches cfg k v where
  highest : k.lockNest = 0 → k.Highest

theorem Reaches.schedule (h : Reaches cfg k v) : Settles cfg (rtSchedule cfg k) v := by
  have hk := h.inv.schedules
  refine ⟨⟨h.inv.of_schedules hk, ?_⟩, h.inv.highest hk⟩
  rw [← h.view]
  exact View.ext hk.thread (funext fun _ => h.inv.schedule_tlist hk (by simp)) hk.objects.sem hk.objects.mutex
    hk.objects.call hk.objects.lockNest

/-! ## Changes the ready queue cannot see -/

theorem SchedInv.congr (h : SchedInv cfg k) (hthread : k'.thread = k.thread) (htlist : k'.tlist = k.tlist)
    (hgroup : k'.group = k.group) (htable : k'.readyTable = k.readyTable) (hcur : k'.current = k.current) :
    SchedInv cfg k' := by
  obtain ⟨⟨hok, hready, hdefunct, hsuspend, hunique, hnodup, hbitmap⟩, hcomplete, hrunning⟩ := h
  have hbitmap' : ReadyBitmap cfg k' := hbitmap.congr hgroup htable fun p => congrFun htlist (.ready p)
  rw [← hthread] at hok hready hdefunct hsuspend hcomplete
  rw [← htlist] at hready hdefunct hsuspend hunique hnodup hcomplete hrunning
  rw [← hcur] at hcomplete hrunning
  exact ⟨⟨hok, hready, hdefunct, hsuspend, hunique, hnodup, hbitmap'⟩, hcomplete, hrunning⟩

theorem Reaches.setCall (h : Reaches cfg k v) (t : ThreadId) (c : Option Call) :
    Reaches cfg (k.setCall t c) (v.setCall t c) :=
  ⟨h.inv.congr rfl rfl rfl rfl rfl, by rw [← h.view]; rfl⟩

theorem Reaches.setSem (h : Reaches cfg k v) (s : SemId) (f : Sem → Sem) :
    Reaches cfg (k.setSem s f) (v.setSem s f) :=
  ⟨h.inv.congr rfl rfl rfl rfl rfl, by rw [← h.view]; rfl⟩

theorem Reaches.setMutex (h : Reaches cfg k v) (m : MutexId) (f : Mutex → Mutex) :
    Reaches cfg (k.setMutex m f) (v.setMutex m f) :=
  ⟨h.inv.congr rfl rfl rfl rfl rfl, by rw [← h.view]; rfl⟩

theorem Reaches.setThread (h : Reaches cfg k v) (t : ThreadId) {f : Thread → Thread}
    (hok : ThreadOk cfg (f (k.thread t))) (hstat : (f (k.thread t)).stat = (k.thread t).stat)
    (hpriority : (f (k.thread t)).currentPriority = (k.thread t).currentPriority) :
    Reaches cfg (k.setThread t f) (v.setThread t f) := by
  refine ⟨h.inv.of_local (k.setThread_local t f)
    (h.inv.lists.setThread hok (fun _ _ => hstat) fun _ _ => hpriority) (fun hready hcur => ?_) (h.inv.running t),
    by rw [← h.view]; rfl⟩
  rw [Kernel.setThread_self] at hready ⊢
  rw [hpriority]
  exact h.inv.complete t (hstat ▸ hready) hcur

theorem Reaches.setError (h : Reaches cfg k v) (t : ThreadId) (err : RtErr) (herr : err ≠ .eintr) :
    Reaches cfg (k.setThread t fun thread => { thread with error := err })
      (v.setThread t fun thread => { thread with error := err }) :=
  h.setThread t ((h.inv.lists.thread t).congr rfl rfl rfl rfl rfl herr (h.inv.lists.thread t).scheduled) rfl rfl

theorem Reaches.setTimer (h : Reaches cfg k v) (t : ThreadId) (timer : Bool) :
    Reaches cfg (k.setThread t fun thread => { thread with timer := timer })
      (v.setThread t fun thread => { thread with timer := timer }) :=
  h.setThread t ((h.inv.lists.thread t).congr rfl rfl rfl rfl rfl (h.inv.lists.thread t).error_ne
    (h.inv.lists.thread t).scheduled) rfl rfl

/-! ## Threads -/

theorem rtScheduleInsertThread_view (cfg : Config) (k : Kernel) (t : ThreadId) :
    (rtScheduleInsertThread cfg k t).view = k.view.setThread t fun thread => { thread with stat := .ready } := by
  have hwaiters (o : IpcObject) : (rtScheduleInsertThread cfg k t).tlist (.suspend o) = k.tlist (.suspend o) := by
    rw [rtScheduleInsertThread_tlist, if_neg (by simp)]
  obtain ⟨group, table, hshape⟩ := rtScheduleInsertThread_shape cfg k t
  refine View.ext ?_ (funext hwaiters) ?_ ?_ ?_ ?_ <;> simp only [Kernel.view, hshape] <;> rfl

theorem rtScheduleRemoveThread_view (cfg : Config) (k : Kernel) (t : ThreadId) :
    (rtScheduleRemoveThread cfg k t).view = k.view.unlink t := by
  obtain ⟨group, table, hshape⟩ := rtScheduleRemoveThread_shape cfg k t
  rw [hshape]
  rfl

theorem SchedInv.makeReady (h : SchedInv cfg k) (hlocal : Local t k k') (hlists : ListsInv cfg k')
    (hun : Unlinked k' t) (hindexed : (k'.thread t).Indexed cfg) : SchedInv cfg (rtScheduleInsertThread cfg k' t) := by
  refine h.of_local (hlocal.trans (rtScheduleInsertThread_local cfg k' t)) (hlists.insertThread hun hindexed)
    (fun _ hcur => ?_) (fun hcur p => ?_)
  · rw [rtScheduleInsertThread_self, rtScheduleInsertThread_tlist, hlocal.current]
    simp [hcur]
  · rw [rtScheduleInsertThread_tlist, hlocal.current, if_neg fun hne => hne.1 hcur]
    exact hun (.ready p)

theorem Reaches.makeReady (h : Reaches cfg k v) (hstat : (k.thread t).stat ≠ .ready) {f : Thread → Thread}
    (hok : ThreadOk cfg (f (k.thread t))) (hsuspend : (f (k.thread t)).stat = .suspend) :
    Reaches cfg (rtScheduleInsertThread cfg ((rtListRemove k t).setThread t f) t)
      ((v.unlink t).setThread t fun thread => { f thread with stat := .ready }) := by
  have hun : Unlinked (rtListRemove k t) t := h.inv.lists.unlinked_erase t
  refine ⟨h.inv.makeReady ((rtListRemove_local k t).trans (Kernel.setThread_local _ t f))
    ((h.inv.lists.listRemove hstat).setUnlinked hun hok) hun ?_, ?_⟩
  · rw [Kernel.setThread_self]
    exact hok.scheduled (.inr hsuspend)
  · rw [rtScheduleInsertThread_view, Kernel.setThread_view, rtListRemove_view, h.view, View.setThread_setThread]

theorem Reaches.resume (h : Reaches cfg k v) (hstat : (k.thread t).stat = .suspend) :
    Reaches cfg (rtThreadResume cfg k t).2 (v.wake t id) := by
  have hok := h.inv.lists.thread t
  unfold rtThreadResume
  rw [if_neg (by simp [hstat])]
  exact h.makeReady (by simp [hstat]) (hok.congr rfl rfl rfl rfl rfl hok.error_ne hok.scheduled) hstat

theorem rtThreadResume_current (cfg : Config) (k : Kernel) (t : ThreadId) :
    (rtThreadResume cfg k t).2.current = k.current := by
  unfold rtThreadResume
  split_ifs
  · rfl
  · exact (rtScheduleInsertThread_local cfg _ t).current

theorem Reaches.timeout (h : Reaches cfg k v) (hk : rtThreadTimeout cfg k t = some k') :
    (v.thread t).stat = .suspend ∧ (v.thread t).timer ∧
      Settles cfg k' (v.wake t fun thread => { thread with error := .etimeout }) := by
  unfold rtThreadTimeout at hk
  split_ifs at hk with hpre
  obtain rfl := Option.some.inj hk
  obtain ⟨htimer, hstat, -⟩ := hpre
  have hok := h.inv.lists.thread t
  rw [← h.view]
  refine ⟨hstat, htimer, Reaches.schedule ?_⟩
  have hlate : ThreadOk cfg { k.thread t with timer := false, error := .etimeout } :=
    hok.congr rfl rfl rfl rfl rfl (by simp) hok.scheduled
  exact h.inv.reaches.makeReady (f := fun thread => { thread with timer := false, error := .etimeout })
    (by simp [hstat]) hlate hstat

theorem Reaches.startup (h : Reaches cfg k v) (hk : rtThreadStartup cfg k t = some k') :
    (v.thread t).stat = .init ∧
      Settles cfg k' (v.wake t fun thread => thread.setPriority cfg thread.initPriority) := by
  unfold rtThreadStartup at hk
  split_ifs at hk with hinit
  have hok := (h.inv.lists.thread t).setPriority (h.inv.lists.thread t).init_lt
  have hready := h.makeReady (t := t) (by simp [hinit.1])
    (f := fun thread => { thread.setPriority cfg thread.initPriority with stat := .suspend, timer := false })
    (hok.congr rfl rfl rfl rfl rfl hok.error_ne fun _ => Thread.setPriority_indexed ..) rfl
  have hresume : (rtThreadResume cfg (k.setThread t fun thread =>
      { thread.setPriority cfg thread.initPriority with stat := .suspend }) t).2 =
      rtScheduleInsertThread cfg ((rtListRemove k t).setThread t fun thread =>
        { thread.setPriority cfg thread.initPriority with stat := .suspend, timer := false }) t := by
    unfold rtThreadResume
    rw [if_neg (by simp)]
    simp only [rtThreadTimerStop, rtListRemove, Kernel.setThread, update_self, update_idem]
  dsimp only at hk
  rw [hresume] at hk
  refine ⟨by rw [← h.view]; exact hinit.1, ?_⟩
  split_ifs at hk with hcur <;> obtain rfl := Option.some.inj hk
  · exact hready.schedule
  · exact ⟨hready, fun _ self hself => absurd (hself ▸ Option.some_ne_none self) hcur⟩

theorem Reaches.suspend (h : Reaches cfg k v) (hstat : (k.thread t).stat = .ready) (hcur : k.current = some t) :
    Reaches cfg (rtThreadSuspend cfg k t).2
        (v.setThread t fun thread => { thread with stat := .suspend, timer := false }) ∧
      Unlinked (rtThreadSuspend cfg k t).2 t ∧ (rtThreadSuspend cfg k t).2.current = k.current := by
  have hok := h.inv.lists.thread t
  have hindexed := hok.scheduled (.inl hstat)
  have hun := h.inv.running_unlinked hcur hstat
  unfold rtThreadSuspend
  rw [if_neg (by simp [hstat])]
  dsimp only
  generalize hk₁ : k.setThread t (fun thread => { thread with stat := .suspend }) = k₁
  have hlists₁ : ListsInv cfg k₁ := by
    rw [← hk₁]
    exact h.inv.lists.setUnlinked hun (hok.congr rfl rfl rfl rfl rfl hok.error_ne fun _ => hindexed)
  have hlists₂ := hlists₁.removeThread t
  have hun₂ : Unlinked (rtScheduleRemoveThread cfg k₁ t) t := fun head => by
    rw [rtScheduleRemoveThread_tlist]
    exact hlists₁.unlinked_erase t head
  have hok₂ := hlists₂.thread t
  have hlists₃ : ListsInv cfg (rtThreadTimerStop (rtScheduleRemoveThread cfg k₁ t) t) :=
    hlists₂.setUnlinked hun₂ (hok₂.congr rfl rfl rfl rfl rfl hok₂.error_ne hok₂.scheduled)
  have hlocal : Local t k (rtThreadTimerStop (rtScheduleRemoveThread cfg k₁ t) t) := by
    rw [← hk₁]
    exact ((k.setThread_local t _).trans (rtScheduleRemoveThread_local cfg _ t)).trans (Kernel.setThread_local _ t _)
  refine ⟨⟨h.inv.of_local hlocal hlists₃ (fun _ hne => absurd hcur hne) fun _ p => hun₂ (.ready p), ?_⟩, hun₂,
    hlocal.current⟩
  have hun₁ : k₁.view.unlink t = k₁.view := by
    rw [← hk₁]
    exact View.unlink_of_not_mem fun o => hun (.suspend o)
  rw [rtThreadTimerStop_view, rtScheduleRemoveThread_view, hun₁, ← hk₁, Kernel.setThread_view, h.view,
    View.setThread_setThread]

theorem Reaches.changePriority (h : Reaches cfg k v) (t : ThreadId) {priority : Nat}
    (hlt : priority < cfg.priorityMax) :
    Reaches cfg (rtThreadChangePriority cfg k t priority) (v.setThread t (Thread.setPriority cfg priority)) := by
  have hok := h.inv.lists.thread t
  unfold rtThreadChangePriority
  split_ifs with hstat
  · dsimp only
    have hlists := h.inv.lists.removeThread t
    have hun : Unlinked (rtScheduleRemoveThread cfg k t) t := fun head => by
      rw [rtScheduleRemoveThread_tlist]
      exact h.inv.lists.unlinked_erase t head
    have hself : (rtScheduleRemoveThread cfg k t).thread t = k.thread t := by rw [rtScheduleRemoveThread_thread]
    have hlocal := (rtScheduleRemoveThread_local cfg k t).trans
      (Kernel.setThread_local _ t (Thread.setPriority cfg priority))
    refine ⟨h.inv.makeReady hlocal (hlists.setUnlinked hun ((hlists.thread t).setPriority hlt)) hun ?_, ?_⟩
    · rw [Kernel.setThread_self]
      exact Thread.setPriority_indexed cfg priority _
    · have hnot : k.view.unlink t = k.view :=
        View.unlink_of_not_mem (h.inv.lists.not_suspend (by simp [hstat]))
      rw [rtScheduleInsertThread_view, Kernel.setThread_view, rtScheduleRemoveThread_view, hnot, ← h.view,
        View.setThread_setThread]
      -- the status was ready before
      unfold View.setThread
      have hready : { (k.thread t).setPriority cfg priority with stat := .ready } = (k.thread t).setPriority cfg priority := by
        obtain ⟨_, _, _, hshape⟩ := (k.thread t).setPriority_shape cfg priority
        rw [hshape, hstat]
      exact congrArg (fun th => { k.view with thread := update k.thread t th }) hready
  · refine ⟨h.inv.of_local (k.setThread_local t _) ?_ (fun hready => ?_) (h.inv.running t), by rw [← h.view]; rfl⟩
    · refine h.inv.lists.setThread (hok.setPriority hlt) (fun _ _ => Thread.setPriority_stat ..) fun p hmem => ?_
      exact absurd hmem (h.inv.lists.not_ready hstat p)
    · rw [Kernel.setThread_self, Thread.setPriority_stat] at hready
      exact absurd hready hstat

theorem SchedInv.closed (h : SchedInv cfg k) (hlocal : Local t k k') (hlists : ListsInv cfg k') (hun : Unlinked k' t)
    (hclose : (k'.thread t).stat = .close) : SchedInv cfg k' :=
  h.of_local hlocal hlists (fun hready => absurd (hclose.symm.trans hready) (by decide)) fun _ p => hun (.ready p)

theorem Reaches.defunct (h : Reaches cfg k v) (hun : Unlinked k t) (hclose : (k.thread t).stat = .close) :
    Reaches cfg (rtListInsertAfter k .defunct t) v := by
  have hlocal : Local t k (rtListInsertAfter k .defunct t) := link_local (List.Perm.refl _)
  have hkeep (head : Head) (hne : head ≠ .defunct) : (rtListInsertAfter k .defunct t).tlist head = k.tlist head :=
    update_of_ne hne _ _
  refine ⟨h.inv.of_local hlocal (h.inv.lists.link hun (List.Perm.refl _) hclose)
    (fun hready => absurd (hclose.symm.trans hready) (by decide)) (fun _ p => ?_), ?_⟩
  · rw [hkeep _ (by simp)]
    exact hun (.ready p)
  · rw [← h.view]
    exact View.ext rfl (funext fun o => hkeep (.suspend o) (by simp)) rfl rfl rfl rfl

theorem Reaches.closing (h : Reaches cfg k v) (t : ThreadId) :
    let k' := (rtScheduleRemoveThread cfg k t).setThread t fun thread => { thread with stat := .close, timer := false }
    Reaches cfg k' ((v.unlink t).setThread t fun thread => { thread with stat := .close, timer := false }) ∧
      Unlinked k' t := by
  have hun : Unlinked (rtScheduleRemoveThread cfg k t) t := fun head => by
    rw [rtScheduleRemoveThread_tlist]
    exact h.inv.lists.unlinked_erase t head
  have hlists := h.inv.lists.removeThread t
  have hok := hlists.thread t
  have hclosed : ThreadOk cfg { (rtScheduleRemoveThread cfg k t).thread t with stat := .close, timer := false } :=
    hok.congr rfl rfl rfl rfl rfl hok.error_ne (by simp)
  refine ⟨⟨h.inv.closed ((rtScheduleRemoveThread_local cfg k t).trans (Kernel.setThread_local _ t _))
    (hlists.setUnlinked hun hclosed) hun (by simp), ?_⟩, hun⟩
  rw [Kernel.setThread_view, rtScheduleRemoveThread_view, h.view]

theorem Reaches.threadClose (h : Reaches cfg k v) (t : ThreadId) :
    Reaches cfg (rtThreadClose cfg k t)
        ((v.unlink t).setThread t fun thread => { thread with stat := .close, timer := false }) ∧
      Unlinked (rtThreadClose cfg k t) t := by
  unfold rtThreadClose
  dsimp only
  split_ifs with hinit
  · exact h.closing t
  · have hun := h.inv.lists.unlinked_of_init (not_not.1 hinit)
    have hok := h.inv.lists.thread t
    have hclosed : ThreadOk cfg { k.thread t with stat := .close, timer := false } :=
      hok.congr rfl rfl rfl rfl rfl hok.error_ne (by simp)
    refine ⟨⟨h.inv.closed (k.setThread_local t _) (h.inv.lists.setUnlinked hun hclosed) hun (by simp), ?_⟩, hun⟩
    rw [Kernel.setThread_view, h.view, View.unlink_of_not_mem]
    rw [← h.view]
    exact fun o => hun (.suspend o)

theorem Reaches.objectDetach (h : Reaches cfg k v) (t : ThreadId) :
    Reaches cfg (rtObjectDetach k t) (v.setThread t fun thread => { thread with isThread := false, isStatic := false }) :=
  h.setThread t ((h.inv.lists.thread t).congr rfl rfl rfl rfl rfl (h.inv.lists.thread t).error_ne
    (h.inv.lists.thread t).scheduled) rfl rfl

theorem View.close_detached (v : View) (t : ThreadId) :
    (((v.unlink t).setThread t fun thread => { thread with stat := .close, timer := false }).setThread t
      fun thread => { thread with isThread := false, isStatic := false }) = v.close t false false :=
  View.setThread_setThread ..

theorem Reaches.exit (h : Reaches cfg k v) (t : ThreadId) :
    ∃ isThread isStatic, Settles cfg (rtThreadExit cfg k t) (v.close t isThread isStatic) := by
  obtain ⟨hclosed, hun⟩ := h.closing t
  unfold rtThreadExit
  dsimp only
  split_ifs
  · refine ⟨false, false, Reaches.schedule ?_⟩
    rw [← View.close_detached]
    exact hclosed.objectDetach t
  · exact ⟨_, _, (hclosed.defunct hun (by simp)).schedule⟩

theorem Reaches.detach (h : Reaches cfg k v) (hk : rtThreadDetach cfg k t = some k') :
    Reaches cfg k' (v.close t false false) := by
  obtain ⟨hclosed, hun⟩ := h.threadClose t
  have hclose : ((rtThreadClose cfg k t).thread t).stat = .close := by simp [rtThreadClose]
  have hdetached := hclosed.objectDetach t
  rw [View.close_detached] at hdetached
  unfold rtThreadDetach at hk
  dsimp only at hk
  split_ifs at hk <;> obtain rfl := Option.some.inj hk
  · exact hdetached.defunct hun (by simpa [rtObjectDetach] using hclose)
  · exact hdetached

theorem rtThreadClose_current (cfg : Config) (k : Kernel) (t : ThreadId) :
    (rtThreadClose cfg k t).current = k.current := by
  unfold rtThreadClose
  dsimp only
  split_ifs
  · exact (rtScheduleRemoveThread_local cfg k t).current
  · rfl

theorem rtThreadDetach_current (hk : rtThreadDetach cfg k t = some k') : k'.current = k.current := by
  unfold rtThreadDetach at hk
  dsimp only at hk
  split_ifs at hk <;> obtain rfl := Option.some.inj hk
  · exact rtThreadClose_current cfg k t
  · exact rtThreadClose_current cfg k t

theorem rtThreadDelete_current (hk : rtThreadDelete cfg k t = some k') : k'.current = k.current := by
  unfold rtThreadDelete at hk
  dsimp only at hk
  split_ifs at hk
  obtain rfl := Option.some.inj hk
  exact rtThreadClose_current cfg k t

theorem Reaches.delete (h : Reaches cfg k v) (hk : rtThreadDelete cfg k t = some k') :
    ∃ isThread isStatic, Reaches cfg k' (v.close t isThread isStatic) := by
  obtain ⟨hclosed, hun⟩ := h.threadClose t
  unfold rtThreadDelete at hk
  dsimp only at hk
  split_ifs at hk
  obtain rfl := Option.some.inj hk
  exact ⟨_, _, hclosed.defunct hun (by simp [rtThreadClose])⟩

theorem Reaches.timerStart (h : Reaches cfg k v) {tick : Nat} (hk : rtThreadTimerStart k t tick = some k') :
    Reaches cfg k' (v.setThread t fun thread => { thread with timer := true }) := by
  unfold rtThreadTimerStart at hk
  split_ifs at hk
  obtain rfl := Option.some.inj hk
  exact h.setTimer t true

theorem Reaches.sleep (h : Reaches cfg k v) {tick : Nat} (hcur : k.current = some t)
    (hstat : (k.thread t).stat = .ready) (hk : rtThreadSleep cfg k t tick = some k') :
    Settles cfg k' ((v.setThread t fun thread => { thread with stat := .suspend, timer := true }).setCall t
      (some .sleep)) := by
  obtain ⟨hsuspended, -⟩ := h.suspend hstat hcur
  unfold rtThreadSleep at hk
  dsimp only at hk
  split at hk
  · cases hk
  · rename_i hstart
    obtain rfl := Option.some.inj hk
    have htimed := hsuspended.timerStart hstart
    rw [View.setThread_setThread] at htimed
    exact (htimed.setCall t (some .sleep)).schedule

theorem Reaches.sleepReturn (h : Reaches cfg k v) (t : ThreadId) :
    Reaches cfg (rtThreadSleepReturn k t) ((v.setThread t fun thread =>
      { thread with error := if thread.error = .etimeout then .eok else thread.error }).setCall t none) := by
  have hreturn := h.setCall t none
  unfold rtThreadSleepReturn
  dsimp only
  have hthread : (k.setCall t none).thread t = v.thread t := congrFun (congrArg View.thread h.view) t
  split_ifs with htimeout <;> rw [hthread] at htimeout
  · have hcleared := hreturn.setError t .eok (by decide)
    rwa [View.setThread_congr (g := fun thread => { thread with error := .eok }) (by rw [if_pos htimeout])]
  · rwa [View.setThread_same (by rw [if_neg htimeout])]

/-! ## Suspend lists -/

theorem insertByPriority_perm (priority : ThreadId → Nat) (t : ThreadId) (waiters : List ThreadId) :
    (insertByPriority priority t waiters).Perm (t :: waiters) := by
  induction waiters with
  | nil => exact List.Perm.refl _
  | cons s rest ih =>
    rw [insertByPriority]
    split_ifs
    · exact List.Perm.refl _
    · exact (ih.cons s).trans (List.Perm.swap t s rest)

theorem View.joined_perm (v : View) (o : IpcObject) (t : ThreadId) (flag : IpcFlag) :
    (v.joined o t flag).Perm (t :: v.waiters o) := by
  cases flag with
  | fifo => exact List.perm_append_singleton t _
  | prio => exact insertByPriority_perm _ t _

theorem View.joined_setThread (v : View) (o : IpcObject) (t u : ThreadId) (flag : IpcFlag) {f : Thread → Thread}
    (hpriority : (f (v.thread u)).currentPriority = (v.thread u).currentPriority) :
    (v.setThread u f).joined o t flag = v.joined o t flag := by
  have hsame : (fun w => ((v.setThread u f).thread w).currentPriority) = fun w => (v.thread w).currentPriority := by
    funext w
    by_cases hw : w = u
    · subst hw
      rw [View.setThread_self, hpriority]
    · rw [v.setThread_ne f hw]
  cases flag with
  | fifo => rfl
  | prio => exact congrArg (fun p => insertByPriority p t (v.waiters o)) hsame

theorem rtIpcListSuspend_eq (cfg : Config) (k : Kernel) (o : IpcObject) (t : ThreadId) (flag : IpcFlag) :
    rtIpcListSuspend cfg k o t flag = { (rtThreadSuspend cfg k t).2 with
      tlist := update (rtThreadSuspend cfg k t).2.tlist (.suspend o)
        ((rtThreadSuspend cfg k t).2.view.joined o t flag) } := by
  cases flag <;> rfl

theorem Kernel.relink_view (k : Kernel) (o : IpcObject) (xs : List ThreadId) :
    ({ k with tlist := update k.tlist (.suspend o) xs } : Kernel).view =
      { k.view with waiters := update k.view.waiters o xs } := by
  refine View.ext rfl (funext fun o' => ?_) rfl rfl rfl rfl
  by_cases ho : o' = o
  · subst ho
    simp [Kernel.view]
  · simp [Kernel.view, ho]

theorem Reaches.listSuspend (h : Reaches cfg k v) (o : IpcObject) (flag : IpcFlag) (hcur : k.current = some t)
    (hstat : (k.thread t).stat = .ready) :
    Reaches cfg (rtIpcListSuspend cfg k o t flag)
      { v.setThread t (fun thread => { thread with stat := .suspend, timer := false }) with
        waiters := update v.waiters o (v.joined o t flag) } := by
  obtain ⟨hsuspended, hun, hcur'⟩ := h.suspend hstat hcur
  rw [rtIpcListSuspend_eq]
  generalize (rtThreadSuspend cfg k t).2 = k₁ at hsuspended hun hcur'
  have hstat₁ : (k₁.thread t).stat = .suspend := by
    have hthread := congrFun (congrArg View.thread hsuspended.view) t
    rw [show k₁.thread t = _ from hthread, View.setThread_self]
  have hperm := k₁.view.joined_perm o t flag
  have hlocal := link_local (k := k₁) (h := .suspend o) hperm
  refine ⟨hsuspended.inv.of_local hlocal (hsuspended.inv.lists.link hun hperm hstat₁)
    (fun hready => absurd (hstat₁.symm.trans hready) (by decide)) (fun _ p => ?_), ?_⟩
  · dsimp only
    rw [update_of_ne (by simp)]
    exact hun (.ready p)
  · have hjoined := v.joined_setThread o t t flag
      (f := fun thread => { thread with stat := .suspend, timer := false }) rfl
    rw [Kernel.relink_view, hsuspended.view, hjoined]
    rfl

theorem Reaches.blockOn (h : Reaches cfg k v) {o : IpcObject} {flag : IpcFlag} {time : Int} {call : Call}
    (hcur : k.current = some t) (hstat : (k.thread t).stat = .ready)
    (hk : blockOn cfg k o t flag time call = some k') : Settles cfg k' (v.block o t flag time call) := by
  have hwaiting := h.listSuspend o flag hcur hstat
  unfold RtThread.blockOn at hk
  dsimp only at hk
  by_cases htime : 0 < time
  · rw [if_pos htime] at hk
    split at hk
    · cases hk
    · rename_i hstart
      obtain rfl := Option.some.inj hk
      have htimed := ((hwaiting.timerStart hstart).setCall t (some call)).schedule
      unfold View.block
      rw [decide_eq_true htime]
      simpa only [View.setThread, View.setCall, update_self, update_idem] using htimed
  · rw [if_neg htime] at hk
    obtain rfl := Option.some.inj hk
    unfold View.block
    rw [decide_eq_false htime]
    exact (hwaiting.setCall t (some call)).schedule

theorem View.wakeAll_cons {v : View} {o : IpcObject} {rest : List ThreadId} (hwaiters : v.waiters o = t :: rest)
    (hnodup : (v.waiters o).Nodup) (hunique : ∀ o', t ∈ v.waiters o' → o' = o) :
    ((v.setThread t fun thread => { thread with error := .error }).wake t id).wakeAll o = v.wakeAll o := by
  rw [hwaiters, List.nodup_cons] at hnodup
  unfold View.wakeAll View.wake View.unlink View.setThread
  refine View.ext (funext fun u => ?_) (funext fun o' => ?_) rfl rfl rfl rfl
  · by_cases hu : u = t
    · subst hu
      simp [hwaiters, hnodup.1]
    · simp [hwaiters, hu]
  · by_cases ho : o' = o
    · subst ho
      simp
    · simp only [update_of_ne ho]
      exact List.erase_of_not_mem fun hmem => ho (hunique o' hmem)

theorem Reaches.resumeRounds {o : IpcObject} {n : Nat} (h : Reaches cfg k v) (hn : (v.waiters o).length = n) :
    Reaches cfg (rtIpcListResumeRounds cfg o n k) (v.wakeAll o) := by
  induction n generalizing k v with
  | zero =>
    have hnil : v.waiters o = [] := List.length_eq_zero_iff.1 hn
    have hsame : v.wakeAll o = v := by
      unfold View.wakeAll
      refine View.ext (funext fun u => by simp [hnil]) ?_ rfl rfl rfl rfl
      exact Function.update_eq_self_iff.2 hnil.symm
    rw [hsame]
    exact h
  | succ n ih =>
    obtain ⟨t, rest, hwaiters⟩ := List.exists_cons_of_length_eq_add_one hn
    have hlist : k.tlist (.suspend o) = t :: rest := by
      rw [← hwaiters, ← h.view]
      rfl
    have hsuspend := h.inv.lists.suspend o t (by simp [hlist])
    have hwoken := (h.setError t .error (by decide)).resume (t := t) (by simpa using hsuspend)
    rw [rtIpcListResumeRounds, hlist]
    dsimp only
    have hnext := ih hwoken (by simp [View.wake, View.unlink, View.setThread, hwaiters] at hn ⊢; exact hn)
    rwa [View.wakeAll_cons hwaiters] at hnext
    · rw [hwaiters, ← hlist]
      exact h.inv.lists.nodup _
    · intro o' hmem
      rw [← h.view] at hmem
      exact h.inv.lists.suspend_unique o' o t hmem (by simp [hlist])

end RtThread
