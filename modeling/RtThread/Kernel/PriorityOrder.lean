import RtThread.Kernel.Inheritance
import RtThread.Lib.Arrivals

/-!
# Semaphores and mutexes that wake by priority

A thread that blocks on an object with `RT_IPC_FLAG_PRIO` joins the suspend list behind the threads of its priority or a higher one. When the priority of a ready thread changes, `rt_thread_control` queues it again; a suspended thread keeps its place. So the order lasts as long as no thread that waits by priority gets another priority, from a control call or from a mutex it owns.
-/

namespace RtThread

open Arrivals

variable {cfg : Config} {k k' : Kernel} {v v' v₁ : View} {o o' : IpcObject} {t u : ThreadId} {op : Op}
  {events trace : List Event} {list : List ThreadId} {priority : ThreadId → Nat}

def Setup.flag (setup : Setup cfg) : IpcObject → IpcFlag
  | .sem s => setup.semFlag s
  | .mutex m => setup.mutexFlag m

def View.flag (v : View) : IpcObject → IpcFlag
  | .sem s => (v.sem s).flag
  | .mutex m => (v.mutex m).flag

/-- The thread is suspended on an object with `RT_IPC_FLAG_PRIO`. -/
def Kernel.WaitsByPriority (k : Kernel) (t : ThreadId) : Prop := ∃ o, k.view.flag o = .prio ∧ t ∈ k.tlist (.suspend o)

/-- No thread that waits by priority gets another priority: not by a control call, and not as the owner of a mutex that the running thread is about to wait for. -/
def KeepsPriority (k : Kernel) : Op → Prop
  | .changePriority t priority => k.WaitsByPriority t → priority = (k.thread t).currentPriority
  | .mutexTake m time => ∀ t owner, threadContext k = some t → (k.mutex m).owner = some owner → (k.mutex m).value = 0 →
    time ≠ 0 → (k.thread t).currentPriority < (k.thread owner).currentPriority → ¬ k.WaitsByPriority owner
  | _ => True

def Kernel.Releases (k : Kernel) (op : Op) : IpcObject → Prop
  | .sem s => op = .semRelease s
  | .mutex m => op = .mutexRelease m ∧ (k.mutex m).owner = k.current ∧ ((k.mutex m).hold + 255) % 256 = 0

def kernelQueues : Queues Kernel Op Event IpcObject ThreadId Nat where
  list k o := k.tlist (.suspend o)
  rank k t := (k.thread t).currentPriority
  Serves k op _ o := k.Releases op o
  Able _ _ _ := True

/-! ## Joining -/

theorem insertByPriority_split (priority : ThreadId → Nat) (t : ThreadId) (list : List ThreadId) :
    ∃ before behind, list = before ++ behind ∧ insertByPriority priority t list = before ++ t :: behind ∧
      (∀ u ∈ before, priority u ≤ priority t) ∧ ∀ u ∈ behind.head?, priority t < priority u := by
  induction list with
  | nil => exact ⟨[], [], rfl, rfl, by simp, by simp⟩
  | cons s rest ih =>
    rw [insertByPriority]
    split_ifs with hlt
    · exact ⟨[], s :: rest, rfl, rfl, by simp, by simpa using hlt⟩
    · obtain ⟨before, behind, hlist, hjoin, hbefore, hbehind⟩ := ih
      refine ⟨s :: before, behind, by rw [hlist, List.cons_append], by rw [hjoin, List.cons_append], ?_, hbehind⟩
      intro u hu
      rcases List.mem_cons.1 hu with rfl | hu
      · exact Nat.le_of_not_lt hlt
      · exact hbefore u hu

theorem change_insertByPriority (hnew : t ∉ list) : Change priority list (insertByPriority priority t list) := by
  obtain ⟨before, behind, hlist, hjoin, hbefore, hbehind⟩ := insertByPriority_split priority t list
  rw [hjoin]
  exact .join hlist hnew hbefore hbehind

theorem keeps_insertByPriority (hnew : t ∉ list) : Keeps priority priority list (insertByPriority priority t list) :=
  ⟨fun _ _ _ => rfl, change_insertByPriority hnew⟩

/-! ## The steps -/

abbrev KeepsQueue (o : IpcObject) (v v' : View) : Prop := Keeps v.priority v'.priority (v.waiters o) (v'.waiters o)

structure QueueFrame (o : IpcObject) (v v' : View) : Prop where
  waiters : v'.waiters o = v.waiters o
  priority : ∀ u ∈ v.waiters o, v'.priority u = v.priority u

namespace QueueFrame

theorem keeps (h : QueueFrame o v v') : KeepsQueue o v v' :=
  ⟨fun u hu _ => h.priority u hu, .leave (h.waiters ▸ .refl _)⟩

theorem before (h : QueueFrame o v v₁) (hkeeps : KeepsQueue o v₁ v') : KeepsQueue o v v' := by
  obtain ⟨hstays, hchange⟩ := hkeeps
  rw [h.waiters] at hstays hchange
  exact ⟨fun u hu hu' => (hstays u hu hu').trans (h.priority u hu), hchange⟩

theorem trans (h : QueueFrame o v v₁) (h' : QueueFrame o v₁ v') : QueueFrame o v v' :=
  ⟨h'.waiters.trans h.waiters, fun u hu => (h'.priority u (h.waiters ▸ hu)).trans (h.priority u hu)⟩

theorem refl (o : IpcObject) (v : View) : QueueFrame o v v := ⟨rfl, fun _ _ => rfl⟩

theorem setThread {f : Thread → Thread} (h : (f (v.thread t)).currentPriority = (v.thread t).currentPriority) :
    QueueFrame o v (v.setThread t f) :=
  ⟨rfl, fun u _ => congrFun (View.priority_setThread h) u⟩

theorem setOther (f : Thread → Thread) (hnot : t ∉ v.waiters o) : QueueFrame o v (v.setThread t f) :=
  ⟨rfl, fun _ hu => congrArg Thread.currentPriority (v.setThread_ne f fun heq => hnot (heq ▸ hu))⟩

theorem inherit (cfg : Config) (v : View) {owner : ThreadId} {p : Nat}
    (hnot : p < v.priority owner → owner ∉ v.waiters o) : QueueFrame o v (v.inherit cfg owner p) := by
  unfold View.inherit
  split_ifs with hlt
  · exact setOther _ (hnot hlt)
  · exact refl o v

theorem letGo (cfg : Config) (m : MutexId) (hnot : t ∉ v.waiters o) : QueueFrame o v (v.letGo cfg m t) := by
  refine ⟨congrFun (View.letGo_waiters ..) o, fun u hu => ?_⟩
  rw [View.letGo_priority, Function.update_of_ne fun heq : u = t => hnot (heq ▸ hu)]

end QueueFrame

theorem keepsQueue_leave {f : Thread → Thread} (hnodup : (v.waiters o).Nodup) :
    KeepsQueue o v ((v.unlink t).setThread t f) := by
  refine ⟨fun u _ hu => ?_, .leave List.erase_sublist⟩
  have hne : u ≠ t := (hnodup.mem_erase_iff.1 hu).1
  exact congrArg Thread.currentPriority ((v.unlink t).setThread_ne f hne)

theorem keepsQueue_wakeAll (v : View) (o o' : IpcObject) : KeepsQueue o v (v.wakeAll o') := by
  refine ⟨fun u _ _ => ?_, .leave ?_⟩
  · unfold View.priority View.wakeAll
    dsimp only
    split_ifs <;> rfl
  · by_cases ho : o = o'
    · subst ho
      rw [show (v.wakeAll o).waiters o = [] from Function.update_self ..]
      exact List.nil_sublist _
    · rw [v.wakeAll_waiters_ne ho]

theorem keepsQueue_block {flag : IpcFlag} {time : Int} {call : Call} (hflag : o = o' → flag = .prio)
    (hnot : t ∉ v.waiters o) : KeepsQueue o v (v.block o' t flag time call) := by
  unfold KeepsQueue
  rw [View.block_priority]
  by_cases ho : o = o'
  · subst ho
    rw [View.block_waiters_self, hflag rfl]
    exact keeps_insertByPriority hnot
  · rw [View.block_waiters_ne _ ho]
    exact ⟨fun _ _ _ => rfl, .leave (.refl _)⟩

theorem ViewStep.keepsQueue (hk : KernelInv cfg k) (hok : KeepsPriority k op)
    (hstep : ViewStep cfg k.current k.view op events v') (hcontext : ∀ m time, op = .mutexTake m time → k.interruptNest = 0)
    (hflag : k.view.flag o = .prio) : KeepsQueue o k.view v' := by
  have hnodup : (k.view.waiters o).Nodup := hk.lists.nodup _
  have hnot {t : ThreadId} (hstat : (k.view.thread t).stat ≠ .suspend) : t ∉ k.view.waiters o :=
    hk.lists.not_suspend hstat o
  have hready {t : ThreadId} (hcall : k.view.AtCall t) : t ∉ k.view.waiters o := hnot (by simp [hcall.1])
  have hclear (t : ThreadId) : QueueFrame o k.view (k.view.clearError t) := .setThread rfl
  cases hstep with
  | startup t => exact keepsQueue_leave hnodup
  | suspend t => exact (QueueFrame.setThread rfl).keeps
  | resume t => exact keepsQueue_leave hnodup
  | timeout t => exact keepsQueue_leave hnodup
  | changePriority t p =>
    by_cases hmem : t ∈ k.view.waiters o
    · have hsame : p = (k.view.thread t).currentPriority := hok ⟨o, hflag, hmem⟩
      exact (QueueFrame.setThread (by rw [Thread.setPriority_currentPriority, hsame])).keeps
    · exact (QueueFrame.setOther _ hmem).keeps
  | close op t => exact keepsQueue_leave hnodup
  | sleep t =>
    have hframe : QueueFrame o k.view (k.view.setThread t fun thread => { thread with stat := .suspend, timer := true }) :=
      .setThread rfl
    exact hframe.keeps
  | sleepReturn t =>
    have hframe : QueueFrame o k.view (k.view.setThread t fun thread =>
        { thread with error := if thread.error = .etimeout then .eok else thread.error }) := .setThread rfl
    exact hframe.keeps
  | semTakeBlocks s time t hcall =>
    refine (hclear t).before (keepsQueue_block (fun ho => ?_) (hready hcall))
    rw [ho] at hflag
    exact hflag
  | semReleaseWakes s t => exact keepsQueue_leave hnodup
  | semReset s value => exact keepsQueue_wakeAll k.view o (.sem s)
  | mutexTakeNested m time t => exact (hclear t).keeps
  | mutexTake m time t => exact (hclear t).keeps
  | mutexTakeFails m t => exact (QueueFrame.setThread rfl).keeps
  | mutexTakeBlocks m time t owner hcall hne howner hvalue htime hself =>
    have hcontext : threadContext k = some t := by rw [threadContext, if_pos (hcontext m time rfl), hself]
    have hboost : QueueFrame o (k.view.clearError t) ((k.view.clearError t).inherit cfg owner (k.view.priority t)) := by
      refine .inherit cfg _ fun hlt hmem => ?_
      rw [show (k.view.clearError t).priority = k.view.priority from View.priority_setThread rfl] at hlt
      exact hok t owner hcontext howner hvalue htime hlt ⟨o, hflag, hmem⟩
    refine ((hclear t).trans hboost).before (keepsQueue_block (fun ho => ?_) ?_)
    · rw [ho] at hflag
      exact hflag
    · rw [View.inherit_waiters]
      exact hready hcall
  | mutexReleaseFails m t => exact (QueueFrame.setThread rfl).keeps
  | mutexReleaseHandOff m t next rest hcall =>
    have hframe : QueueFrame o k.view ((k.view.letGo cfg m t).own m next (k.view.mutex m).value) :=
      ⟨(QueueFrame.letGo cfg m (hready hcall)).waiters, (QueueFrame.letGo cfg m (hready hcall)).priority⟩
    refine hframe.before (keepsQueue_leave ?_)
    rw [hframe.waiters]
    exact hnodup
  | mutexReleaseFree m t hcall =>
    have hframe := QueueFrame.letGo cfg m (hready hcall)
    exact QueueFrame.keeps ⟨hframe.waiters, hframe.priority⟩
  | _ => exact (QueueFrame.refl o k.view).keeps

/-! ## The flags -/

namespace View

theorem flag_setSem (v : View) (s : SemId) {f : Sem → Sem} (h : (f (v.sem s)).flag = (v.sem s).flag) :
    (v.setSem s f).flag = v.flag := by
  funext o
  cases o with
  | sem s' =>
    by_cases hs : s' = s
    · subst hs
      exact (congrArg Sem.flag (v.setSem_self s' f)).trans h
    · exact congrArg Sem.flag (v.setSem_ne f hs)
  | mutex m => rfl

theorem flag_setMutex (v : View) (m : MutexId) {f : Mutex → Mutex} (h : (f (v.mutex m)).flag = (v.mutex m).flag) :
    (v.setMutex m f).flag = v.flag := by
  funext o
  cases o with
  | sem s => rfl
  | mutex m' =>
    by_cases hm : m' = m
    · subst hm
      exact (congrArg Mutex.flag (v.setMutex_self m' f)).trans h
    · exact congrArg Mutex.flag (v.setMutex_ne f hm)

theorem flag_congr (hsem : v'.sem = v.sem) (hmutex : v'.mutex = v.mutex) : v'.flag = v.flag := by
  funext o
  cases o with
  | sem s => rw [View.flag, View.flag, hsem]
  | mutex m => rw [View.flag, View.flag, hmutex]

theorem flag_letGo (cfg : Config) (v : View) (m : MutexId) (t : ThreadId) : (v.letGo cfg m t).flag = v.flag := by
  have hrestore : (v.letGo cfg m t).flag = (v.setMutex m fun mutex => { mutex with hold := 0 }).flag := by
    unfold letGo restore
    split_ifs <;> rfl
  exact hrestore.trans (flag_setMutex v m rfl)

end View

theorem ViewStep.flag {self : Option ThreadId} (h : ViewStep cfg self v op events v') : v'.flag = v.flag := by
  cases h with
  | semTake s => exact View.flag_setSem v s rfl
  | semReleaseCounts s => exact View.flag_setSem v s rfl
  | semReset s value => exact View.flag_setSem (v.wakeAll (.sem s)) s rfl
  | mutexTakeNested m time t => exact View.flag_setMutex (v.clearError t) m rfl
  | mutexTake m time t => exact View.flag_setMutex (v.clearError t) m rfl
  | mutexTakeBlocks m time t owner =>
    exact View.flag_congr (View.inherit_sem cfg (v.clearError t) owner _) (View.inherit_mutex cfg (v.clearError t) owner _)
  | mutexReleaseNested m => exact View.flag_setMutex v m rfl
  | mutexReleaseHandOff m t next =>
    have hown : ((v.letGo cfg m t).own m next (v.mutex m).value).flag = (v.letGo cfg m t).flag := View.flag_setMutex _ m rfl
    exact hown.trans (View.flag_letGo cfg v m t)
  | mutexReleaseFree m t =>
    have hfree : ((v.letGo cfg m t).free m).flag = (v.letGo cfg m t).flag := View.flag_setMutex _ m rfl
    exact hfree.trans (View.flag_letGo cfg v m t)
  | _ => rfl

/-! ## Every run -/

variable {setup : Setup cfg} {ok : Kernel → Op → Prop} {arrivals : IpcObject → List ThreadId}

theorem KernelRun.flag (hrun : KernelRun ok setup trace k) : k.view.flag = setup.flag := by
  refine hrun.view_invariant (I := fun _ v => v.flag = setup.flag) ?_ fun _ _ _ _ _ _ h _ hstep => hstep.flag.trans h
  funext o
  cases o <;> rfl

theorem interruptNest_of_mutexTake {m : MutexId} {time : Int} (h : step cfg k (.mutexTake m time) = some (k', events)) :
    k.interruptNest = 0 := by
  unfold step at h
  split at h
  · rename_i self
    simp only [stepRunning] at h
    split_ifs at h with hcall
    exact hcall.1
  all_goals simp_all

theorem keepsQueue_of_step (hk : KernelInv cfg k) (hok : KeepsPriority k op) (hstep : step cfg k op = some (k', events))
    (hflag : k.view.flag o = .prio) : KeepsQueue o k.view k'.view := by
  obtain ⟨v', hv, hreaches⟩ := (hk.step hstep).view
  rw [hreaches.view]
  exact hv.keepsQueue hk hok (fun m time hop => interruptNest_of_mutexTake (hop ▸ hstep)) hflag

theorem wakesFirst_of_step (hk : KernelInv cfg k) (hstep : step cfg k op = some (k', events)) (hreleases : k.Releases op o) :
    k'.tlist (.suspend o) = (k.tlist (.suspend o)).tail := by
  obtain ⟨v', hv, hreaches⟩ := (hk.step hstep).view
  have hwaiters : k'.tlist (.suspend o) = v'.waiters o := by rw [← hreaches.view]; rfl
  rw [hwaiters]
  change v'.waiters o = (k.view.waiters o).tail
  have hnext {t : ThreadId} {rest : List ThreadId} (hlist : k.view.waiters o = t :: rest) :
      (k.view.waiters o).erase t = (k.view.waiters o).tail := by rw [hlist, List.erase_cons_head, List.tail_cons]
  cases o with
  | sem s =>
    obtain rfl : op = .semRelease s := hreleases
    cases hv with
    | silent _ hop => exact hop.elim
    | close _ t _ _ hop => simp at hop
    | semReleaseWakes _ t rest hlist => exact hnext hlist
    | semReleaseCounts _ hnone => exact hnone.trans (congrArg List.tail hnone).symm
  | mutex m =>
    obtain ⟨rfl, howner, hhold⟩ := hreleases
    cases hv with
    | silent _ hop => exact hop.elim
    | close _ t _ _ hop => simp at hop
    | mutexReleaseFails _ t _ hnot hself => exact absurd (howner.trans hself) hnot
    | mutexReleaseNested _ t _ _ hmore => exact absurd hhold hmore
    | mutexReleaseHandOff _ t next rest _ _ _ hlist =>
      have hsame : (k.view.letGo cfg m t).waiters = k.view.waiters := View.letGo_waiters ..
      exact (congrArg (·.erase next) (congrFun hsame (.mutex m))).trans (hnext hlist)
    | mutexReleaseFree _ t _ _ _ hnone =>
      have hsame : (k.view.letGo cfg m t).waiters = k.view.waiters := View.letGo_waiters ..
      exact (congrFun hsame (.mutex m)).trans (hnone.trans (congrArg List.tail hnone).symm)

theorem kernelQueues_inOrder (hrun : RecordedRun kernelQueues (step cfg) KeepsPriority (Kernel.boot setup) trace k arrivals)
    (hflag : setup.flag o = .prio) : kernelQueues.InOrder (step cfg) k (arrivals o) o := by
  have hordered : Ordered (kernelQueues.rank k) (arrivals o) (kernelQueues.list k o) := by
    refine hrun.ordered rfl fun trace k op k' events hbefore hok hstep => ?_
    have hprio : k.view.flag o = .prio := (congrFun (KernelRun.flag hbefore) o).trans hflag
    exact keepsQueue_of_step (KernelRun.inv hbefore) hok hstep hprio
  refine ⟨hordered, fun op k' events hstep hserves => ?_⟩
  have htail : kernelQueues.list k' o = (kernelQueues.list k o).tail := wakesFirst_of_step (KernelRun.inv hrun.run) hstep hserves
  rw [htail]
  exact hordered.servesLowest_tail

end RtThread
