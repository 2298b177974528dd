import RtThread.Signal.Signals

/-!
# What signals do to a thread that waits

A step moves one thread. A thread that is suspended has nothing to execute before its own code, and
is in the list. A thread that no handler runs in keeps its error code.
-/

namespace RtThread

open Function

variable {k k' : SigKernel} {op : SigOp} {thread thread' : SigThread} {cleanState : Bool}

/-- `rt_thread_handle_sig` runs a handler. -/
def SigThread.Handles (thread : SigThread) : Prop :=
  thread.sigPending &&& thread.sigMask ≠ 0 ∧ thread.statSignalWait = false ∧ thread.siList ≠ []

instance SigThread.decidableHandles (thread : SigThread) : Decidable thread.Handles :=
  inferInstanceAs (Decidable (_ ∧ _ ∧ _))

theorem handleSigLoop_cases (cleanState : Bool) (thread : SigThread) :
    (∃ signo siList, handleSigLoop cleanState thread =
      { thread with siList, frames := .handler cleanState signo :: thread.frames }) ∨
    ∃ statSignal, handleSigLoop cleanState thread = { thread with statSignal } := by
  unfold handleSigLoop
  split
  · split_ifs
    · exact .inl ⟨_, _, rfl⟩
    · exact .inr ⟨_, rfl⟩
  · exact .inr ⟨_, rfl⟩

theorem handleSig_of_handles (cleanState : Bool) (h : thread.Handles) :
    ∃ signo siList, rtThreadHandleSig cleanState thread =
      { thread with siList, frames := .handler cleanState signo :: thread.frames } := by
  obtain ⟨hpending, hwait, hlist⟩ := h
  rw [rtThreadHandleSig, if_pos ⟨hpending, hwait⟩, handleSigLoop]
  split
  · rw [if_pos hpending]
    exact ⟨_, _, rfl⟩
  · rename_i hnil
    exact absurd hnil hlist

theorem handleSig_of_not_handles (cleanState : Bool) (h : ¬ thread.Handles) :
    ∃ statSignal, rtThreadHandleSig cleanState thread = { thread with statSignal } := by
  unfold rtThreadHandleSig
  split_ifs with hpending
  · unfold handleSigLoop
    split
    · rename_i hlist
      exact absurd ⟨hpending.1, hpending.2, by rw [hlist]; exact List.cons_ne_nil _ _⟩ h
    · exact ⟨_, rfl⟩
  · exact ⟨thread.statSignal, rfl⟩

inductive SigMove (thread : SigThread) : SigOp → SigThread → Prop
  | signals {op : SigOp} (statSignal : Bool) (sigPending sigMask : BitVec 32) (siList : List Nat) :
      SigMove thread op { thread with statSignal, sigPending, sigMask, siList }
  | push {op : SigOp} (frames : List SigFrame) (hready : thread.suspended = false)
      (hframes : frames = [.handle true] ∨ frames = [.handle false, .leave]) :
      SigMove thread op { thread with statSignal := true, frames := frames ++ thread.frames }
  | wake {op : SigOp} (hsuspended : thread.suspended = true) :
      SigMove thread op { thread with suspended := false, timer := false, statSignal := true }
  | expire {op : SigOp} (hsuspended : thread.suspended = true) :
      SigMove thread op { thread with suspended := false, timer := false, error := .etimeout }
  | schedule {t : ThreadId} {switch : Bool} (hpoint : thread.point = .suspending)
      (hframes : thread.frames = []) (hswitch : thread.suspended → switch) :
      SigMove thread (.schedule t switch)
        { thread with point := if switch then .switched else .returned }
  | back {t : ThreadId} (hready : thread.suspended = false) (hpoint : thread.point = .switched)
      (hframes : thread.frames = []) :
      SigMove thread (.goOn t) { thread with point := .returned, frames := [.handle true] }
  | goOn {t : ThreadId} {thread' : SigThread} (hready : thread.suspended = false)
      (hgoOn : thread.goOn = some thread') : SigMove thread (.goOn t) thread'

structure SigEffect (k k' : SigKernel) (op : SigOp) (thread' : SigThread) : Prop where
  move : SigMove (k.thread op.target) op thread'
  thread : k'.thread = update k.thread op.target thread'
  list : k'.suspendThread = if (k.thread op.target).suspended = true ∧ thread'.suspended = false then
    k.suspendThread.erase op.target else k.suspendThread

theorem SigEffect.signals (statSignal : Bool) (sigPending sigMask : BitVec 32) (siList : List Nat)
    (hthread : k'.thread = update k.thread op.target
      { k.thread op.target with statSignal, sigPending, sigMask, siList })
    (hlist : k'.suspendThread = k.suspendThread) :
    SigEffect k k' op { k.thread op.target with statSignal, sigPending, sigMask, siList } := by
  refine ⟨.signals statSignal sigPending sigMask siList, hthread, ?_⟩
  rw [hlist, if_neg]
  rintro ⟨hsuspended, hready⟩
  exact absurd (hsuspended.symm.trans hready) (by decide)

theorem SigEffect.same (hthread : k'.thread = k.thread) (hlist : k'.suspendThread = k.suspendThread) :
    SigEffect k k' op (k.thread op.target) := by
  refine .signals (k.thread op.target).statSignal (k.thread op.target).sigPending
    (k.thread op.target).sigMask (k.thread op.target).siList ?_ hlist
  rw [hthread, update_eq_self]

theorem sigEffect_deliver (tid : ThreadId) (self : Bool) :
    ∃ thread', SigEffect k (signalDeliver k tid self) (.deliver tid self) thread' := by
  unfold signalDeliver
  by_cases hsuspended : (k.thread tid).suspended = true
  · refine ⟨_, .wake hsuspended, ?_, ?_⟩
    · simp [SigKernel.setKill, SigKernel.resume, SigKernel.setThread, hsuspended, SigOp.target]
    · simp [SigKernel.setKill, SigKernel.resume, SigKernel.setThread, hsuspended, SigOp.target]
  · have hready : (k.thread tid).suspended = false := by simpa using hsuspended
    cases self with
    | true =>
      refine ⟨_, .push [.handle true] hready (.inl rfl), ?_, ?_⟩
      · simp [SigKernel.setKill, SigKernel.setThread, hready, SigOp.target]
      · simp [SigKernel.setKill, SigKernel.setThread, hready, SigOp.target]
    | false =>
      cases hsignal : (k.thread tid).statSignal with
      | true =>
        refine ⟨_, SigEffect.same ?_ ?_⟩
        · simp [SigKernel.setKill, hready, hsignal]
        · simp [SigKernel.setKill, hready, hsignal]
      | false =>
        refine ⟨_, .push [.handle false, .leave] hready (.inr rfl), ?_, ?_⟩
        · simp [SigKernel.setKill, SigKernel.setThread, hready, hsignal, SigOp.target]
        · simp [SigKernel.setKill, SigKernel.setThread, hready, hsignal, SigOp.target]

theorem sigEffect_of_step (h : stepSig k op = some k') : ∃ thread', SigEffect k k' op thread' := by
  cases op with
  | kill tid sig found =>
    cases h
    unfold rtThreadKill
    split_ifs
    · exact ⟨_, .same rfl rfl⟩
    · exact ⟨_, .same rfl rfl⟩
    · exact ⟨_, .same rfl rfl⟩
    · exact ⟨_, .signals _ _ _ _ rfl rfl⟩
  | killInfo tid sig allocated =>
    rw [stepSig] at h
    split_ifs at h
    cases h
    exact ⟨_, .signals _ _ _ _ rfl rfl⟩
  | deliverTest tid =>
    rw [stepSig] at h
    split_ifs at h
    cases h
    exact ⟨_, .same rfl rfl⟩
  | deliver tid self =>
    rw [stepSig] at h
    split_ifs at h
    cases h
    exact sigEffect_deliver tid self
  | mask t signo =>
    rw [stepSig] at h
    split_ifs at h
    cases h
    exact ⟨_, .signals _ _ _ _ rfl rfl⟩
  | unmask t signo =>
    rw [stepSig] at h
    split_ifs at h
    cases h
    unfold rtSignalUnmask
    dsimp only
    split_ifs
    · exact ⟨_, .signals _ _ _ _ rfl rfl⟩
    · exact ⟨_, .signals _ _ _ _ rfl rfl⟩
  | timeout t =>
    rw [stepSig] at h
    split_ifs at h with hwaits
    cases h
    refine ⟨_, .expire hwaits.1, ?_, ?_⟩
    · simp [SigKernel.resume, SigKernel.setThread, SigOp.target]
    · simp [SigKernel.resume, SigKernel.setThread, SigOp.target, hwaits.1]
  | schedule t switch =>
    rw [stepSig] at h
    split at h
    · rename_i hpoint
      cases h
      refine ⟨_, .schedule hpoint.1 hpoint.2.1 hpoint.2.2, rfl, ?_⟩
      simp [SigKernel.setThread, SigOp.target]
    · cases h
  | goOn t =>
    rw [stepSig] at h
    split_ifs at h with hsuspended hback
    · cases h
      have hready : (k.thread t).suspended = false := by simpa using hsuspended
      refine ⟨_, .back hready hback.1 hback.2, rfl, ?_⟩
      simp [SigKernel.setThread, SigOp.target]
    · obtain ⟨thread', hgoOn, heq⟩ := Option.map_eq_some_iff.1 h
      cases heq
      have hready : (k.thread t).suspended = false := by simpa using hsuspended
      refine ⟨_, .goOn hready hgoOn, rfl, ?_⟩
      simp [SigKernel.setThread, SigOp.target, hready]

/-! ## Waiting -/

structure SigKernel.Waits (k : SigKernel) : Prop where
  nodup : k.suspendThread.Nodup
  listed : ∀ t, t ∈ k.suspendThread ↔ (k.thread t).suspended = true
  point : ∀ t, (k.thread t).suspended = true →
    (k.thread t).point = .suspending ∨ (k.thread t).point = .switched
  frames : ∀ t, (k.thread t).suspended = true → (k.thread t).frames = []

theorem SigThread.goOn_cases (h : thread.goOn = some thread') :
    (∃ cleanState frames, thread.frames = .handle cleanState :: frames ∧
      thread' = rtThreadHandleSig cleanState { thread with frames }) ∨
    (∃ cleanState signo frames, thread.frames = .handler cleanState signo :: frames ∧
      thread' = handleSigLoop cleanState (handlerReturned signo { thread with frames })) ∨
    ∃ frames, thread.frames = .leave :: frames ∧ thread' = { thread with frames, statSignal := false } := by
  unfold SigThread.goOn at h
  split at h
  · cases h
  · rename_i cleanState frames hframes
    cases h
    exact .inl ⟨cleanState, frames, hframes, rfl⟩
  · rename_i cleanState signo frames hframes
    cases h
    exact .inr (.inl ⟨cleanState, signo, frames, hframes, rfl⟩)
  · rename_i frames hframes
    cases h
    exact .inr (.inr ⟨frames, hframes, rfl⟩)

theorem SigThread.goOn_same (h : thread.goOn = some thread') :
    thread'.suspended = thread.suspended ∧ thread'.point = thread.point ∧ thread'.time = thread.time ∧
      thread'.currentPriority = thread.currentPriority := by
  have hloop (cleanState : Bool) (th : SigThread) :
      (handleSigLoop cleanState th).suspended = th.suspended ∧
        (handleSigLoop cleanState th).point = th.point ∧ (handleSigLoop cleanState th).time = th.time ∧
        (handleSigLoop cleanState th).currentPriority = th.currentPriority := by
    obtain ⟨signo, siList, heq⟩ | ⟨statSignal, heq⟩ := handleSigLoop_cases cleanState th
    · rw [heq]
      exact ⟨rfl, rfl, rfl, rfl⟩
    · rw [heq]
      exact ⟨rfl, rfl, rfl, rfl⟩
  obtain ⟨cleanState, frames, -, rfl⟩ | ⟨cleanState, signo, frames, -, rfl⟩ | ⟨frames, -, rfl⟩ :=
    SigThread.goOn_cases h
  · unfold rtThreadHandleSig
    split_ifs
    · exact hloop cleanState _
    · exact ⟨rfl, rfl, rfl, rfl⟩
  · exact hloop cleanState _
  · exact ⟨rfl, rfl, rfl, rfl⟩

theorem SigMove.suspended (h : SigMove thread op thread') (hsuspended : thread'.suspended = true) :
    thread.suspended = true := by
  cases h with
  | signals => exact hsuspended
  | push _ hready => exact absurd (hready.symm.trans hsuspended) (by decide)
  | wake h => exact h
  | expire h => exact h
  | schedule => exact hsuspended
  | back hready => exact absurd (hready.symm.trans hsuspended) (by decide)
  | goOn hready hgoOn => exact (SigThread.goOn_same hgoOn).1 ▸ hsuspended

theorem SigMove.waiting (h : SigMove thread op thread') (hsuspended : thread'.suspended = true)
    (hpoint : thread.point = .suspending ∨ thread.point = .switched) (hframes : thread.frames = []) :
    (thread'.point = .suspending ∨ thread'.point = .switched) ∧ thread'.frames = [] := by
  cases h with
  | signals => exact ⟨hpoint, hframes⟩
  | push _ hready => exact absurd (hready.symm.trans hsuspended) (by decide)
  | wake => cases hsuspended
  | expire => cases hsuspended
  | schedule _ _ hswitch => exact ⟨.inr (if_pos (hswitch hsuspended)), hframes⟩
  | back hready => exact absurd (hready.symm.trans hsuspended) (by decide)
  | goOn hready hgoOn =>
    have := (SigThread.goOn_same hgoOn).1
    exact absurd (hready.symm.trans (this ▸ hsuspended)) (by decide)

theorem SigMove.error_of_suspended (h : SigMove thread op thread') (hsuspended : thread'.suspended = true) :
    thread'.error = thread.error := by
  cases h with
  | signals => rfl
  | push => rfl
  | wake => rfl
  | expire => cases hsuspended
  | schedule => rfl
  | back => rfl
  | goOn hready hgoOn =>
    have := (SigThread.goOn_same hgoOn).1
    exact absurd (hready.symm.trans (this ▸ hsuspended)) (by decide)

def SigPoint.Blocked (point : SigPoint) : Prop := point = .suspending ∨ point = .switched ∨ point = .returned

instance SigPoint.decidableBlocked (point : SigPoint) : Decidable point.Blocked :=
  inferInstanceAs (Decidable (_ ∨ _ ∨ _))

theorem SigMove.point (h : SigMove thread op thread') :
    thread'.point = thread.point ∨ thread.point.Blocked ∧ thread'.point.Blocked := by
  cases h with
  | signals => exact .inl rfl
  | push => exact .inl rfl
  | wake => exact .inl rfl
  | expire => exact .inl rfl
  | @schedule t switch hpoint =>
    refine .inr ⟨.inl hpoint, ?_⟩
    cases switch with
    | true => exact .inr (.inl rfl)
    | false => exact .inr (.inr rfl)
  | back _ hpoint => exact .inr ⟨.inr (.inl hpoint), .inr (.inr rfl)⟩
  | goOn _ hgoOn => exact .inl (SigThread.goOn_same hgoOn).2.1

theorem SigMove.point_iff {point : SigPoint} (h : SigMove thread op thread') (hpoint : ¬ point.Blocked) :
    thread'.point = point ↔ thread.point = point := by
  rcases h.point with heq | ⟨hbefore, hafter⟩
  · rw [heq]
  · constructor
    · intro heq
      exact absurd (heq ▸ hafter) hpoint
    · intro heq
      exact absurd (heq ▸ hbefore) hpoint

namespace SigKernel.Waits

variable {flag : IpcFlag} {t u : ThreadId} {time : Int} {timer : Bool}

theorem init (priority : ThreadId → Nat) : (SigKernel.init priority).Waits := by
  refine ⟨List.nodup_nil, fun t => ⟨fun h => ?_, fun h => ?_⟩, fun t h => ?_, fun t h => ?_⟩
  · cases h
  · cases h
  · cases h
  · cases h

theorem setThread {f : SigThread → SigThread} (hk : k.Waits)
    (hsuspended : (f (k.thread t)).suspended = (k.thread t).suspended)
    (hsame : (k.thread t).suspended = true →
      (f (k.thread t)).point = (k.thread t).point ∧ (f (k.thread t)).frames = (k.thread t).frames) :
    (k.setThread t f).Waits := by
  refine ⟨hk.nodup, fun u => ?_, fun u h => ?_, fun u h => ?_⟩
  · by_cases heq : u = t
    · rw [heq, SigKernel.setThread_self, hsuspended]
      exact hk.listed t
    · rw [SigKernel.setThread_of_ne heq]
      exact hk.listed u
  · by_cases heq : u = t
    · rw [heq, SigKernel.setThread_self] at h ⊢
      rw [(hsame (hsuspended ▸ h)).1]
      exact hk.point t (hsuspended ▸ h)
    · rw [SigKernel.setThread_of_ne heq] at h ⊢
      exact hk.point u h
  · by_cases heq : u = t
    · rw [heq, SigKernel.setThread_self] at h ⊢
      rw [(hsame (hsuspended ▸ h)).2]
      exact hk.frames t (hsuspended ▸ h)
    · rw [SigKernel.setThread_of_ne heq] at h ⊢
      exact hk.frames u h

theorem effect (hk : k.Waits) (h : SigEffect k k' op thread') : k'.Waits := by
  obtain ⟨hmove, hthread, hlist⟩ := h
  have hstill : ∀ t, (k'.thread t).suspended = true → (k.thread t).suspended = true := by
    intro t hsuspended
    rw [hthread] at hsuspended
    by_cases htarget : t = op.target
    · rw [htarget, update_self] at hsuspended
      exact htarget ▸ hmove.suspended hsuspended
    · rwa [update_of_ne htarget] at hsuspended
  have hwaiting : ∀ t, (k'.thread t).suspended = true →
      ((k'.thread t).point = .suspending ∨ (k'.thread t).point = .switched) ∧ (k'.thread t).frames = [] := by
    intro t hsuspended
    have hbefore := hstill t hsuspended
    by_cases htarget : t = op.target
    · rw [htarget] at hsuspended hbefore ⊢
      rw [hthread, update_self] at hsuspended ⊢
      exact hmove.waiting hsuspended (hk.point _ hbefore) (hk.frames _ hbefore)
    · rw [hthread, update_of_ne htarget]
      exact ⟨hk.point t hbefore, hk.frames t hbefore⟩
  refine ⟨?_, fun t => ?_, fun t h => (hwaiting t h).1, fun t h => (hwaiting t h).2⟩
  · rw [hlist]
    split_ifs
    · exact hk.nodup.erase _
    · exact hk.nodup
  · rw [hlist, hthread]
    by_cases htarget : t = op.target
    · rw [htarget, update_self]
      split_ifs with hleaves
      · rw [hleaves.2]
        exact ⟨fun h => absurd h (hk.nodup.not_mem_erase), fun h => absurd h (by decide)⟩
      · rw [hk.listed]
        refine ⟨fun h => ?_, hmove.suspended⟩
        by_contra hready
        exact hleaves ⟨h, by simpa using hready⟩
    · rw [update_of_ne htarget]
      split_ifs
      · exact (List.mem_erase_of_ne htarget).trans (hk.listed t)
      · exact hk.listed t

theorem suspend (hk : k.Waits) (hready : (k.thread t).suspended = false)
    (hframes : (k.thread t).frames = []) : (k.suspend flag t time timer).Waits := by
  have hperm := ipcListSuspend_perm flag (fun u => (k.thread u).currentPriority) t k.suspendThread
  have hnot : t ∉ k.suspendThread := by
    rw [hk.listed, hready]
    decide
  refine ⟨hperm.nodup_iff.2 (List.nodup_cons.2 ⟨hnot, hk.nodup⟩), fun u => ?_, fun u h => ?_, fun u h => ?_⟩
  · refine hperm.mem_iff.trans ?_
    by_cases heq : u = t
    · simp [heq]
    · rw [SigKernel.suspend_of_ne heq, ← hk.listed, List.mem_cons, or_iff_right heq]
  · by_cases heq : u = t
    · rw [heq, SigKernel.suspend_self]
      exact .inl rfl
    · rw [SigKernel.suspend_of_ne heq] at h ⊢
      exact hk.point u h
  · by_cases heq : u = t
    · rw [heq, SigKernel.suspend_self]
      exact hframes
    · rw [SigKernel.suspend_of_ne heq] at h ⊢
      exact hk.frames u h

theorem resume (hk : k.Waits) : (k.resume t).Waits := by
  have hne : ∀ u, ((k.resume t).thread u).suspended = true → u ≠ t := by
    rintro u h rfl
    rw [SigKernel.resume_self] at h
    cases h
  refine ⟨hk.nodup.erase t, fun u => ?_, fun u h => ?_, fun u h => ?_⟩
  · by_cases heq : u = t
    · rw [heq, SigKernel.resume_self]
      exact ⟨fun h => absurd h hk.nodup.not_mem_erase, fun h => nomatch h⟩
    · rw [SigKernel.resume_of_ne heq, ← hk.listed]
      exact List.mem_erase_of_ne heq
  · have heq := hne u h
    rw [SigKernel.resume_of_ne heq] at h ⊢
    exact hk.point u h
  · have heq := hne u h
    rw [SigKernel.resume_of_ne heq] at h ⊢
    exact hk.frames u h

end SigKernel.Waits

/-! ## The error code -/

structure SigThread.Calm (thread : SigThread) : Prop where
  error : thread.error = .eok
  frames : ∀ cleanState signo, .handler cleanState signo ∉ thread.frames

theorem SigMove.calm (h : SigMove thread op thread') (hready : thread.suspended = false) (hcalm : thread.Calm)
    (hquiet : ∀ t cleanState frames, op = .goOn t → thread.frames = .handle cleanState :: frames → ¬ thread.Handles) :
    thread'.suspended = false ∧ thread'.Calm := by
  cases h with
  | signals => exact ⟨hready, hcalm.error, hcalm.frames⟩
  | push frames _ hframes =>
    refine ⟨hready, hcalm.error, fun cleanState signo hmem => ?_⟩
    rcases List.mem_append.1 hmem with hmem | hmem
    · rcases hframes with rfl | rfl <;> simp at hmem
    · exact hcalm.frames cleanState signo hmem
  | wake hsuspended => exact absurd (hready.symm.trans hsuspended) (by decide)
  | expire hsuspended => exact absurd (hready.symm.trans hsuspended) (by decide)
  | schedule => exact ⟨hready, hcalm.error, hcalm.frames⟩
  | back => exact ⟨hready, hcalm.error, fun cleanState signo hmem => by simp at hmem⟩
  | @goOn t thread' _ hgoOn =>
    refine ⟨(SigThread.goOn_same hgoOn).1.trans hready, ?_⟩
    obtain ⟨cleanState, frames, hframes, rfl⟩ | ⟨cleanState, signo, frames, hframes, rfl⟩ | ⟨frames, hframes, rfl⟩ :=
      SigThread.goOn_cases hgoOn
    · have hnot : ¬ SigThread.Handles { thread with frames } := hquiet t cleanState frames rfl hframes
      obtain ⟨statSignal, heq⟩ := handleSig_of_not_handles cleanState hnot
      rw [heq]
      exact ⟨hcalm.error, fun c signo hmem => hcalm.frames c signo (hframes ▸ List.mem_cons_of_mem _ hmem)⟩
    · exact absurd (hframes ▸ List.mem_cons_self ..) (hcalm.frames cleanState signo)
    · exact ⟨hcalm.error, fun c signo hmem => hcalm.frames c signo (hframes ▸ List.mem_cons_of_mem _ hmem)⟩

end RtThread
