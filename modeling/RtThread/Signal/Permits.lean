import RtThread.Signal.Moves

/-!
# A semaphore and signals

`rt_sem_release` takes the first waiter off the list and leaves it to `rt_sem_take` to see, in
`thread->error`, that it has got the permit. A signal that is handled before the thread goes on
writes its own code there, and then the permit is lost. The other way round, a waiter that a signal
takes off the list finds no error, and goes on as if it had a permit, when there is no signal left
to handle or `rt_schedule` does not switch.
-/

namespace RtThread

/-- A semaphore with the threads it has been handed to and that have not returned yet. -/
structure SigSem extends SigKernel where
  value : Nat
  flag : IpcFlag
  handed : List ThreadId

inductive SigSemOp
  | take (caller : Option ThreadId) (time : Int)
  | release
  /-- A thread goes on behind the `rt_schedule` of its `rt_sem_take`. -/
  | finish (t : ThreadId)
  | sig (op : SigOp)
  deriving DecidableEq

inductive SigSemEvent
  /-- A take has returned; `handed` says that a release has dequeued its thread. -/
  | take (caller : Option ThreadId) (result : IpcErr) (handed : Bool)
  | release
  deriving DecidableEq

namespace SigSem

def Free (s : SigSem) : Option ThreadId → Prop
  | none => True
  | some t => (s.thread t).point = .own ∧ (s.thread t).frames = []

instance decidableFree (s : SigSem) (caller : Option ThreadId) : Decidable (s.Free caller) := by
  induction caller using Option.casesOn <;> dsimp only [Free] <;> infer_instance

/-- `rt_sem_take` up to its `rt_schedule`. -/
def rtSemTake (s : SigSem) (caller : Option ThreadId) (time : Int) : Option (Option IpcErr × SigSem) :=
  if 0 < s.value then some (some .eok, { s with value := s.value - 1 })
  else if time = 0 then some (some .etimeout, s)
  else
    match caller with
    | none => none
    | some t =>
      (timeoutTimer time).map fun timer =>
        (none, { s with
          toSigKernel := (s.setThread t fun thread => { thread with error := .eok }).suspend s.flag t time timer })

def rtSemRelease (s : SigSem) : SigSem :=
  match s.suspendThread with
  | t :: _ => { s with toSigKernel := s.resume t, handed := t :: s.handed }
  | [] => { s with value := (s.value + 1) % 65536 }

end SigSem

def stepSigSem (s : SigSem) : SigSemOp → Option (SigSem × List SigSemEvent)
  | .take caller time =>
    if s.Free caller then
      (s.rtSemTake caller time).map fun r => (r.2, r.1.toList.map fun result => .take caller result false)
    else none
  | .release => some (s.rtSemRelease, [.release])
  | .finish t =>
    if (s.thread t).point = .returned ∧ (s.thread t).frames = [] then
      some ({ s with
        toSigKernel := s.setThread t fun thread => { thread with point := .own }
        handed := s.handed.erase t }, [.take (some t) (s.thread t).error (decide (t ∈ s.handed))])
    else none
  | .sig op => (stepSig s.toSigKernel op).map fun k => ({ s with toSigKernel := k }, [])

def SigSem.init (value : Nat) (flag : IpcFlag) (priority : ThreadId → Nat) : SigSem where
  toSigKernel := .init priority
  value := value % 65536
  flag := flag
  handed := []

abbrev SigSemRun (ok : SigSem → SigSemOp → Prop) (value : Nat) (flag : IpcFlag) (priority : ThreadId → Nat) :
    List SigSemEvent → SigSem → Prop :=
  Transition.Run stepSigSem ok (.init value flag priority)

theorem exists_sigSemRun (ok : SigSem → SigSemOp → Prop) [∀ s op, Decidable (ok s op)] (value : Nat)
    (ops : List SigSemOp) (found : List SigSemEvent → SigSem → Bool)
    (h : ((Transition.exec stepSigSem ok (.init value .fifo fun _ => 10) ops).any fun r => found r.1 r.2) = true) :
    ∃ trace s, SigSemRun ok value .fifo (fun _ => 10) trace s ∧ found trace s = true :=
  Transition.exists_run_of_exec ops found h

/-! ## Permits -/

variable {s s' : SigSem} {op : SigSemOp} {trace events : List SigSemEvent} {t : ThreadId}
  {value : Nat} {flag : IpcFlag} {priority : ThreadId → Nat}

def SigSemEvent.succeeds : SigSemEvent → Bool
  | .take _ .eok _ => true
  | _ => false

structure PermitsKept (value : Nat) (trace : List SigSemEvent) (s : SigSem) : Prop where
  /-- A waiter that a release has dequeued returns `RT_EOK`. -/
  returns : ∀ caller result, .take caller result true ∈ trace → result = .eok
  ready : ∀ t ∈ s.handed, (s.thread t).suspended = false
  /-- The takes that have succeeded, or are going to, and the value make up for the releases. -/
  permits : trace.countP (·.succeeds) + s.handed.length + s.value = value % 65536 + trace.count .release

/-- A thread has been taken off the list by a signal, and no handler has returned in it yet. -/
def SigSem.Interrupted (s : SigSem) (t : ThreadId) : Prop :=
  (s.thread t).point ≠ .own ∧ (s.thread t).suspended = false ∧ t ∉ s.handed ∧ (s.thread t).error = .eok

instance SigSem.decidableInterrupted (s : SigSem) (t : ThreadId) : Decidable (s.Interrupted t) :=
  inferInstanceAs (Decidable (_ ∧ _ ∧ _ ∧ _))

/-- A thread calls `rt_thread_handle_sig`: if it has been dequeued by a release there is no signal to handle, and if it has been interrupted and this is the call at the end of its `rt_schedule` there is one. -/
def SigSem.HandlesWell (s : SigSem) (t : ThreadId) : Prop :=
  match (s.thread t).frames with
  | .handle _ :: frames =>
    (t ∈ s.handed → ¬ (s.thread t).Handles) ∧
      (s.Interrupted t → (s.thread t).point = .returned → frames = [] → (s.thread t).Handles)
  | _ => True

instance SigSem.decidableHandlesWell (s : SigSem) (t : ThreadId) : Decidable (s.HandlesWell t) := by
  unfold SigSem.HandlesWell
  split <;> infer_instance

/-- The value does not overflow, `rt_schedule` switches after an interruption, and signals are handled exactly where they should be. -/
def PermitsSafe (s : SigSem) : SigSemOp → Prop
  | .release => s.suspendThread = [] → s.value < 65535
  | .sig (.schedule t false) => ¬ s.Interrupted t
  | .sig (.goOn t) => s.HandlesWell t
  | _ => True

instance PermitsSafe.decidable (s : SigSem) (op : SigSemOp) : Decidable (PermitsSafe s op) := by
  unfold PermitsSafe
  split <;> infer_instance

def SigThread.Reports (thread : SigThread) : Prop :=
  thread.error ≠ .eok ∨ (∃ cleanState signo, .handler cleanState signo ∈ thread.frames) ∨
    ∃ frames, thread.frames = frames ++ [.handle true]

structure PermitInv (s : SigSem) : Prop where
  waits : s.Waits
  nodup : s.handed.Nodup
  waiting : ∀ t, (s.thread t).suspended = true → (s.thread t).error = .eok
  handed : ∀ t ∈ s.handed, (s.thread t).point ≠ .own ∧ (s.thread t).suspended = false ∧ (s.thread t).Calm
  reports : ∀ t, (s.thread t).point = .returned → t ∉ s.handed → (s.thread t).Reports

namespace PermitInv

theorem init (value : Nat) (flag : IpcFlag) (priority : ThreadId → Nat) :
    PermitInv (.init value flag priority) := by
  refine ⟨.init priority, List.nodup_nil, fun t h => ?_, fun t h => ?_, fun t h => ?_⟩
  · cases h
  · cases h
  · cases h

theorem ready_of_own (h : PermitInv s) (hown : (s.thread t).point = .own) : (s.thread t).suspended = false := by
  by_contra hsuspended
  rcases h.waits.point t (by simpa using hsuspended) with hpoint | hpoint
  · rw [hown] at hpoint
    cases hpoint
  · rw [hown] at hpoint
    cases hpoint

theorem block (h : PermitInv s) (hown : (s.thread t).point = .own) (hframes : (s.thread t).frames = [])
    (time : Int) (timer : Bool) :
    PermitInv { s with
      toSigKernel := (s.setThread t fun thread => { thread with error := .eok }).suspend s.flag t time timer } := by
  have hready := h.ready_of_own hown
  have hnot : t ∉ s.handed := fun hmem => (h.handed t hmem).1 hown
  refine ⟨?_, h.nodup, fun u hu => ?_, fun u hu => ?_, fun u hu hnothanded => ?_⟩
  · refine SigKernel.Waits.suspend (h.waits.setThread rfl fun _ => ⟨rfl, rfl⟩) ?_ ?_
    · simpa using hready
    · simpa using hframes
  · by_cases heq : u = t
    · simp [heq]
    · simp only [SigKernel.suspend_of_ne heq, SigKernel.setThread_of_ne heq] at hu ⊢
      exact h.waiting u hu
  · have heq : u ≠ t := fun heq => hnot (heq ▸ hu)
    simp only [SigKernel.suspend_of_ne heq, SigKernel.setThread_of_ne heq]
    exact h.handed u hu
  · by_cases heq : u = t
    · simp [heq] at hu
    · simp only [SigKernel.suspend_of_ne heq, SigKernel.setThread_of_ne heq] at hu ⊢
      exact h.reports u hu hnothanded

theorem handOff {rest : List ThreadId} (h : PermitInv s) (hlist : s.suspendThread = t :: rest) :
    PermitInv { s with toSigKernel := s.resume t, handed := t :: s.handed } := by
  have hsuspended : (s.thread t).suspended = true := (h.waits.listed t).1 (hlist ▸ List.mem_cons_self ..)
  have hnot : t ∉ s.handed := fun hmem => by
    have := (h.handed t hmem).2.1
    rw [hsuspended] at this
    cases this
  refine ⟨h.waits.resume, List.nodup_cons.2 ⟨hnot, h.nodup⟩, fun u hu => ?_, fun u hu => ?_, fun u hu hnothanded => ?_⟩
  · by_cases heq : u = t
    · simp [heq] at hu
    · simp only [SigKernel.resume_of_ne heq] at hu ⊢
      exact h.waiting u hu
  · rcases List.mem_cons.1 hu with rfl | hu
    · simp only [SigKernel.resume_self]
      refine ⟨fun hown => ?_, trivial, h.waiting u hsuspended, fun cleanState signo hmem => ?_⟩
      · have := h.ready_of_own hown
        rw [hsuspended] at this
        cases this
      · rw [h.waits.frames u hsuspended] at hmem
        cases hmem
    · have heq : u ≠ t := fun heq => hnot (heq ▸ hu)
      simp only [SigKernel.resume_of_ne heq]
      exact h.handed u hu
  · have heq : u ≠ t := fun heq => hnothanded (heq ▸ List.mem_cons_self ..)
    simp only [SigKernel.resume_of_ne heq] at hu ⊢
    exact h.reports u hu fun hmem => hnothanded (List.mem_cons_of_mem _ hmem)

theorem finish (h : PermitInv s) (hpoint : (s.thread t).point = .returned) :
    PermitInv { s with
      toSigKernel := s.setThread t fun thread => { thread with point := .own }
      handed := s.handed.erase t } := by
  have hwaits : (s.setThread t fun thread => { thread with point := .own }).Waits := by
    refine h.waits.setThread rfl fun hsuspended => ?_
    rcases h.waits.point t hsuspended with hother | hother
    · rw [hpoint] at hother
      cases hother
    · rw [hpoint] at hother
      cases hother
  refine ⟨hwaits, h.nodup.erase t, fun u hu => ?_, fun u hu => ?_, fun u hu hnothanded => ?_⟩
  · by_cases heq : u = t
    · rw [heq] at hu ⊢
      simp only [SigKernel.setThread_self] at hu ⊢
      exact h.waiting t hu
    · simp only [SigKernel.setThread_of_ne heq] at hu ⊢
      exact h.waiting u hu
  · have heq : u ≠ t := fun heq => h.nodup.not_mem_erase (heq ▸ hu)
    simp only [SigKernel.setThread_of_ne heq]
    exact h.handed u (List.mem_of_mem_erase hu)
  · by_cases heq : u = t
    · simp [heq] at hu
    · simp only [SigKernel.setThread_of_ne heq] at hu ⊢
      exact h.reports u hu fun hmem => hnothanded ((List.mem_erase_of_ne heq).2 hmem)

theorem reports_of_goOn {thread' : SigThread} (h : PermitInv s) (hwell : s.HandlesWell t)
    (hready : (s.thread t).suspended = false) (hgoOn : (s.thread t).goOn = some thread')
    (hpoint : (s.thread t).point = .returned) (hnothanded : t ∉ s.handed) : thread'.Reports := by
  have hbefore := h.reports t hpoint hnothanded
  obtain ⟨cleanState, frames, hframes, rfl⟩ | ⟨cleanState, signo, frames, hframes, rfl⟩ | ⟨frames, hframes, rfl⟩ :=
    SigThread.goOn_cases hgoOn
  · rw [SigSem.HandlesWell, hframes] at hwell
    rw [SigThread.Reports, hframes] at hbefore
    by_cases hhandles : SigThread.Handles { s.thread t with frames }
    · obtain ⟨signo, siList, heq⟩ := handleSig_of_handles cleanState hhandles
      rw [heq]
      exact .inr (.inl ⟨cleanState, signo, List.mem_cons_self ..⟩)
    · obtain ⟨statSignal, heq⟩ := handleSig_of_not_handles cleanState hhandles
      rw [heq]
      rcases hbefore with herror | ⟨c, signo, hmem⟩ | ⟨before, hlast⟩
      · exact .inl herror
      · exact .inr (.inl ⟨c, signo, by simpa using hmem⟩)
      · cases before with
        | nil =>
          -- the call at the end of `rt_schedule`
          obtain ⟨-, rfl⟩ := List.cons.inj hlast
          refine .inl fun herror => hhandles (hwell.2 ⟨?_, hready, hnothanded, herror⟩ hpoint rfl)
          rw [hpoint]
          decide
        | cons frame before => exact .inr (.inr ⟨before, (List.cons.inj hlast).2⟩)
  · refine .inl fun herror => ?_
    obtain ⟨signo', siList, heq⟩ | ⟨statSignal, heq⟩ :=
      handleSigLoop_cases cleanState (handlerReturned signo { s.thread t with frames })
    · rw [heq] at herror
      exact nomatch herror
    · rw [heq] at herror
      exact nomatch herror
  · rw [SigThread.Reports, hframes] at hbefore
    rcases hbefore with herror | ⟨c, signo, hmem⟩ | ⟨before, hlast⟩
    · exact .inl herror
    · exact .inr (.inl ⟨c, signo, by simpa using hmem⟩)
    · cases before with
      | nil => exact nomatch (List.cons.inj hlast).1
      | cons frame before => exact .inr (.inr ⟨before, (List.cons.inj hlast).2⟩)

theorem reports_of_move {thread' : SigThread} {sop : SigOp} (h : PermitInv s) (hsafe : PermitsSafe s (.sig sop))
    (hmove : SigMove (s.thread sop.target) sop thread') (hreturned : thread'.point = .returned)
    (hnothanded : sop.target ∉ s.handed) : thread'.Reports := by
  cases hmove with
  | signals => exact h.reports _ hreturned hnothanded
  | push frames hready hframes =>
    rcases h.reports _ hreturned hnothanded with herror | ⟨cleanState, signo, hmem⟩ | ⟨before, hlast⟩
    · exact .inl herror
    · exact .inr (.inl ⟨cleanState, signo, List.mem_append_right _ hmem⟩)
    · exact .inr (.inr ⟨frames ++ before, by rw [hlast, List.append_assoc]⟩)
  | wake hsuspended =>
    rcases h.waits.point _ hsuspended with hpoint | hpoint
    · exact nomatch hpoint.symm.trans hreturned
    · exact nomatch hpoint.symm.trans hreturned
  | expire => exact .inl fun herror => nomatch herror
  | @schedule t switch hpoint hframes hswitch =>
    cases switch with
    | true => cases hreturned
    | false =>
      have hready : (s.thread t).suspended = false := by
        by_contra hsuspended
        exact nomatch hswitch (Bool.eq_true_of_not_eq_false hsuspended)
      refine .inl fun herror => hsafe ⟨fun hown => ?_, hready, hnothanded, herror⟩
      exact nomatch hown.symm.trans hpoint
  | back => exact .inr (.inr ⟨[], rfl⟩)
  | goOn hready hgoOn =>
    exact h.reports_of_goOn hsafe hready hgoOn ((SigThread.goOn_same hgoOn).2.1.symm.trans hreturned) hnothanded

theorem sig {sop : SigOp} {k : SigKernel} (h : PermitInv s) (hsafe : PermitsSafe s (.sig sop))
    (hstep : stepSig s.toSigKernel sop = some k) : PermitInv { s with toSigKernel := k } := by
  obtain ⟨thread', heffect⟩ := sigEffect_of_step hstep
  have hthread := heffect.thread
  have hstill : ∀ t, t ≠ sop.target → k.thread t = s.thread t := fun t hne => by
    rw [hthread, Function.update_of_ne hne]
  have htarget : k.thread sop.target = thread' := by
    rw [hthread, Function.update_self]
  refine ⟨h.waits.effect heffect, h.nodup, fun t ht => ?_, fun t ht => ?_, fun t ht hnothanded => ?_⟩
  · by_cases heq : t = sop.target
    · rw [heq] at ht ⊢
      simp only [htarget] at ht ⊢
      exact (heffect.move.error_of_suspended ht).trans (h.waiting _ (heffect.move.suspended ht))
    · simp only [hstill t heq] at ht ⊢
      exact h.waiting t ht
  · obtain ⟨hpoint, hready, hcalm⟩ := h.handed t ht
    by_cases heq : t = sop.target
    · rw [heq] at ht hpoint hready hcalm ⊢
      simp only [htarget]
      have hkept := heffect.move.calm hready hcalm fun u cleanState frames hop hframes => by
        subst hop
        have hwell : s.HandlesWell u := hsafe
        rw [SigSem.HandlesWell, show (s.thread u).frames = _ from hframes] at hwell
        exact hwell.1 ht
      exact ⟨fun hown => hpoint ((heffect.move.point_iff (by decide)).1 hown), hkept.1, hkept.2⟩
    · simp only [hstill t heq]
      exact ⟨hpoint, hready, hcalm⟩
  · by_cases heq : t = sop.target
    · rw [heq] at ht hnothanded ⊢
      simp only [htarget] at ht ⊢
      exact h.reports_of_move hsafe heffect.move ht hnothanded
    · simp only [hstill t heq] at ht ⊢
      exact h.reports t ht hnothanded

end PermitInv

theorem SigSemEvent.succeeds_eq_false {result : IpcErr} (h : result ≠ .eok) (caller : Option ThreadId) (handed : Bool) :
    (SigSemEvent.take caller result handed).succeeds = false := by
  cases result with
  | eok => exact absurd rfl h
  | _ => rfl

structure PermitStep (s s' : SigSem) (events : List SigSemEvent) : Prop where
  inv : PermitInv s'
  returns : ∀ caller result, .take caller result true ∈ events → result = .eok
  permits : events.countP (·.succeeds) + s'.handed.length + s'.value =
    s.handed.length + s.value + events.count .release

namespace PermitInv

theorem stepTake {caller : Option ThreadId} {time : Int} (h : PermitInv s)
    (hstep : stepSigSem s (.take caller time) = some (s', events)) : PermitStep s s' events := by
  rw [stepSigSem] at hstep
  split_ifs at hstep with hfree
  obtain ⟨r, hr, heq⟩ := Option.map_eq_some_iff.1 hstep
  cases heq
  unfold SigSem.rtSemTake at hr
  split_ifs at hr with hvalue htime
  · cases hr
    refine ⟨⟨h.waits, h.nodup, h.waiting, h.handed, h.reports⟩, fun _ _ hmem => ?_, ?_⟩
    · simp at hmem
    · simp [SigSemEvent.succeeds]
      omega
  · cases hr
    refine ⟨h, fun _ _ hmem => ?_, ?_⟩
    · simp at hmem
    · simp [SigSemEvent.succeeds]
  · cases caller with
    | none => cases hr
    | some t =>
      obtain ⟨timer, -, heq⟩ := Option.map_eq_some_iff.1 hr
      cases heq
      exact ⟨h.block hfree.1 hfree.2 time timer, fun _ _ hmem => absurd hmem List.not_mem_nil, by simp⟩

theorem stepRelease (h : PermitInv s) (hsafe : PermitsSafe s .release) :
    PermitStep s s.rtSemRelease [.release] := by
  have hreturns : ∀ caller result, SigSemEvent.take caller result true ∈ [SigSemEvent.release] → result = .eok := by
    intro caller result hmem
    simp at hmem
  unfold SigSem.rtSemRelease
  cases hlist : s.suspendThread with
  | nil =>
    refine ⟨⟨h.waits, h.nodup, h.waiting, h.handed, h.reports⟩, hreturns, ?_⟩
    have hvalue := hsafe hlist
    simp only [List.countP_singleton, List.count_singleton, SigSemEvent.succeeds]
    rw [Nat.mod_eq_of_lt (by omega)]
    simp
    omega
  | cons t rest =>
    refine ⟨h.handOff hlist, hreturns, ?_⟩
    simp only [List.countP_singleton, List.count_singleton, SigSemEvent.succeeds, List.length_cons]
    simp
    omega

theorem stepFinish (h : PermitInv s) (hstep : stepSigSem s (.finish t) = some (s', events)) :
    PermitStep s s' events := by
  rw [stepSigSem] at hstep
  split_ifs at hstep with hpoint
  cases hstep
  by_cases hmem : t ∈ s.handed
  · have herror := (h.handed t hmem).2.2.error
    have hlength := List.length_erase_of_mem hmem
    have hpos := List.length_pos_of_mem hmem
    refine ⟨h.finish hpoint.1, fun caller result hevent => ?_, ?_⟩
    · rw [List.mem_singleton, SigSemEvent.take.injEq] at hevent
      exact hevent.2.1.trans herror
    · rw [herror, List.countP_singleton, List.count_singleton, hlength]
      simp [SigSemEvent.succeeds]
      omega
  · have herror : (s.thread t).error ≠ .eok := by
      rcases h.reports t hpoint.1 hmem with herror | ⟨c, signo, hframe⟩ | ⟨frames, hframes⟩
      · exact herror
      · rw [hpoint.2] at hframe
        cases hframe
      · rw [hpoint.2] at hframes
        exact absurd hframes.symm (List.append_ne_nil_of_right_ne_nil _ (List.cons_ne_nil _ _))
    refine ⟨h.finish hpoint.1, fun caller result hevent => ?_, ?_⟩
    · rw [List.mem_singleton, SigSemEvent.take.injEq, eq_comm (a := true), decide_eq_true_iff] at hevent
      exact absurd hevent.2.2 hmem
    · rw [List.countP_singleton, List.count_singleton, SigSemEvent.succeeds_eq_false herror, List.erase_of_not_mem hmem]
      simp

theorem step (h : PermitInv s) (hsafe : PermitsSafe s op) (hstep : stepSigSem s op = some (s', events)) :
    PermitStep s s' events := by
  cases op with
  | take caller time => exact h.stepTake hstep
  | release =>
    cases hstep
    exact h.stepRelease hsafe
  | finish t => exact h.stepFinish hstep
  | sig sop =>
    obtain ⟨k, hk, heq⟩ := Option.map_eq_some_iff.1 hstep
    cases heq
    exact ⟨h.sig hsafe hk, fun _ _ hmem => absurd hmem List.not_mem_nil, by simp⟩

end PermitInv

/-- A waiter that a release has dequeued returns `RT_EOK`, and no permit is lost. -/
theorem permitsKept_of_run (hrun : SigSemRun PermitsSafe value flag priority trace s) : PermitsKept value trace s := by
  have hinv : PermitInv s ∧ PermitsKept value trace s := by
    refine hrun.invariant (I := fun trace s => PermitInv s ∧ PermitsKept value trace s) ?_ ?_
    · refine ⟨.init value flag priority, fun _ _ hmem => absurd hmem List.not_mem_nil,
        fun t ht => absurd ht List.not_mem_nil, ?_⟩
      simp [SigSem.init]
    · intro trace s op s' events ⟨hinv, hkept⟩ hsafe hstep
      have hnext := hinv.step hsafe hstep
      refine ⟨hnext.inv, fun caller result hmem => ?_, fun t ht => (hnext.inv.handed t ht).2.1, ?_⟩
      · rcases List.mem_append.1 hmem with hmem | hmem
        · exact hkept.returns caller result hmem
        · exact hnext.returns caller result hmem
      · have hpermits := hkept.permits
        have hstep := hnext.permits
        rw [List.countP_append, List.count_append]
        omega
  exact hinv.2

/-- A wait is interrupted, and the next one gets a permit. -/
theorem permitsKept_of_run_interrupted :
    ∃ trace s, SigSemRun PermitsSafe 0 .fifo (fun _ => 10) trace s ∧
      trace = [.take (some 0) .eintr false, .release, .take (some 0) .eok true] ∧ PermitsKept 0 trace s := by
  obtain ⟨trace, s, hrun, hfound⟩ := exists_sigSemRun PermitsSafe 0
    [.sig (.unmask 0 5), .take (some 0) (-1), .sig (.schedule 0 true), .sig (.kill 0 5 false), .sig (.killInfo 0 5 true),
      .sig (.deliverTest 0), .sig (.deliver 0 false), .sig (.goOn 0), .sig (.goOn 0), .sig (.goOn 0), .finish 0,
      .take (some 0) (-1), .sig (.schedule 0 true), .release, .sig (.goOn 0), .sig (.goOn 0), .finish 0]
    (fun trace _ => decide (trace = [.take (some 0) .eintr false, .release, .take (some 0) .eok true])) (by decide +kernel)
  exact ⟨trace, s, hrun, of_decide_eq_true hfound, permitsKept_of_run hrun⟩

/-- A waiter that a release has dequeued is sent a signal and returns `-RT_EINTR`. One that is interrupted without an info node, or before it enters `rt_schedule`, returns `RT_EOK` though nobody has released. And the value overflows. -/
theorem permitsKept_fails :
    (∃ trace s, SigSemRun (fun _ _ => True) 0 .fifo (fun _ => 10) trace s ∧
      trace = [.release, .take (some 0) .eintr true] ∧ s.value = 0 ∧ s.handed = [] ∧ ¬ PermitsKept 0 trace s) ∧
    (∃ trace s, SigSemRun (fun _ _ => True) 0 .fifo (fun _ => 10) trace s ∧
      trace = [.take (some 0) .eok false] ∧ s.kills = [] ∧ (s.thread 0).siList = [] ∧ ¬ PermitsKept 0 trace s) ∧
    (∃ trace s, SigSemRun (fun _ _ => True) 0 .fifo (fun _ => 10) trace s ∧
      trace = [.take (some 0) .eok false] ∧ (s.thread 0).siList = [5] ∧ ¬ PermitsKept 0 trace s) ∧
    ∃ trace s, SigSemRun (fun _ _ => True) 65535 .fifo (fun _ => 10) trace s ∧
      trace = [.release] ∧ s.value = 0 ∧ s.handed = [] ∧ ¬ PermitsKept 65535 trace s := by
  refine ⟨?_, ?_, ?_, ?_⟩
  · obtain ⟨trace, s, hrun, hfound⟩ := exists_sigSemRun (fun _ _ => True) 0
      [.sig (.unmask 0 5), .take (some 0) (-1), .sig (.schedule 0 true), .release, .sig (.kill 0 5 false),
        .sig (.killInfo 0 5 true), .sig (.deliverTest 0), .sig (.deliver 0 false), .sig (.goOn 0), .sig (.goOn 0),
        .sig (.goOn 0), .sig (.goOn 0), .sig (.goOn 0), .finish 0]
      (fun trace s => decide (trace = [.release, .take (some 0) .eintr true] ∧ s.value = 0 ∧ s.handed = []))
      (by decide +kernel)
    obtain ⟨rfl, hvalue, hhanded⟩ := of_decide_eq_true hfound
    exact ⟨_, s, hrun, rfl, hvalue, hhanded, fun h => nomatch h.returns (some 0) .eintr (by simp)⟩
  · obtain ⟨trace, s, hrun, hfound⟩ := exists_sigSemRun (fun _ _ => True) 0
      [.sig (.unmask 0 5), .take (some 0) (-1), .sig (.schedule 0 true), .sig (.kill 0 5 false), .sig (.killInfo 0 5 false),
        .sig (.deliverTest 0), .sig (.deliver 0 false), .sig (.goOn 0), .sig (.goOn 0), .finish 0]
      (fun trace s => decide (trace = [.take (some 0) .eok false] ∧ s.kills = [] ∧ (s.thread 0).siList = []))
      (by decide +kernel)
    obtain ⟨rfl, hkills, hlist⟩ := of_decide_eq_true hfound
    refine ⟨_, s, hrun, rfl, hkills, hlist, fun h => ?_⟩
    have hpermits := h.permits
    simp [SigSemEvent.succeeds] at hpermits
  · obtain ⟨trace, s, hrun, hfound⟩ := exists_sigSemRun (fun _ _ => True) 0
      [.sig (.unmask 0 5), .take (some 0) (-1), .sig (.kill 0 5 false), .sig (.killInfo 0 5 true), .sig (.deliverTest 0),
        .sig (.deliver 0 false), .sig (.schedule 0 false), .finish 0]
      (fun trace s => decide (trace = [.take (some 0) .eok false] ∧ (s.thread 0).siList = [5])) (by decide +kernel)
    obtain ⟨rfl, hlist⟩ := of_decide_eq_true hfound
    refine ⟨_, s, hrun, rfl, hlist, fun h => ?_⟩
    have hpermits := h.permits
    simp [SigSemEvent.succeeds] at hpermits
  · obtain ⟨trace, s, hrun, hfound⟩ := exists_sigSemRun (fun _ _ => True) 65535 [.release]
      (fun trace s => decide (trace = [.release] ∧ s.value = 0 ∧ s.handed = [])) (by decide +kernel)
    obtain ⟨rfl, hvalue, hhanded⟩ := of_decide_eq_true hfound
    refine ⟨_, s, hrun, rfl, hvalue, hhanded, fun h => ?_⟩
    have hpermits := h.permits
    rw [hvalue, hhanded] at hpermits
    exact absurd hpermits (by decide)

end RtThread
