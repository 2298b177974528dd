import RtThread.Ipc.WaitList
import RtThread.Lib.Transition

/-!
# Completions

`completion.c`. A done marks the completion and wakes the thread that waits for it; a wait that finds the mark, or is woken up, takes the mark away. A done looks at the mark once before it disables interrupts. A thread whose timer has expired also takes the mark away, when it runs again.
-/

namespace RtThread

open Function

/-- `struct rt_completion`; the flag says `RT_COMPLETED`. -/
structure Completion where
  flag : Bool
  suspendedList : List ThreadId

inductive CmCall
  /-- `rt_completion_wait` behind `rt_schedule`. -/
  | wait
  /-- `rt_completion_done` has found the flag uncompleted. -/
  | done
  deriving DecidableEq

structure CmState where
  completion : Completion
  thread : ThreadId → Waiter
  call : Caller → Option CmCall

inductive CmEvent
  /-- `rt_completion_done` has set the flag, or found it set. -/
  | done (c : Caller)
  /-- `rt_completion_wait` returns. -/
  | returned (c : Caller) (result : IpcErr)
  deriving DecidableEq

namespace CmState

def setThread (s : CmState) (t : ThreadId) (f : Waiter → Waiter) : CmState :=
  { s with thread := update s.thread t (f (s.thread t)) }

def setCall (s : CmState) (c : Caller) (call : Option CmCall) : CmState :=
  { s with call := update s.call c call }

def setFlag (s : CmState) (flag : Bool) : CmState := { s with completion := { s.completion with flag } }

def suspend (s : CmState) (t : ThreadId) (timer : Bool) : CmState :=
  ({ s with completion := { s.completion with suspendedList := s.completion.suspendedList ++ [t] } }.setThread t fun thread =>
    { thread with error := .eok, timer }).setCall (.thread t) (some .wait)

/-- "there is one thread in suspended list" -/
def resumeFirst (s : CmState) : CmState :=
  match s.completion.suspendedList with
  | [] => s
  | t :: rest =>
    { s with completion := { s.completion with suspendedList := rest } }.setThread t fun thread => { thread with timer := false }

def error (s : CmState) : Caller → IpcErr
  | .thread t => (s.thread t).error
  | .interrupt _ => .eok

def Waiting (s : CmState) : Caller → Prop
  | .thread t => t ∈ s.completion.suspendedList
  | .interrupt _ => False

instance decidableWaiting (s : CmState) (c : Caller) : Decidable (s.Waiting c) := by
  cases c <;> unfold Waiting <;> infer_instance

end CmState

/-- `rt_completion_wait` up to `rt_schedule`; "only one thread can suspend on complete". -/
def rtCompletionWait (s : CmState) (c : Caller) (timeout : Int) : Option (CmState × List CmEvent) :=
  if s.completion.flag then some (s.setFlag false, [.returned c .eok])
  else if s.completion.suspendedList ≠ [] then none
  else if timeout = 0 then some (s, [.returned c .etimeout])
  else
    match c with
    | .interrupt _ => none
    | .thread t => (timeoutTimer timeout).map fun timer => (s.suspend t timer, [])

/-- "thread is waked up" -/
def completionWaked (s : CmState) (c : Caller) : CmState × List CmEvent :=
  ((s.setFlag false).setCall c none, [.returned c (s.error c)])

/-- `rt_completion_done` up to its critical section. -/
def rtCompletionDone (s : CmState) (c : Caller) : CmState × List CmEvent :=
  if s.completion.flag then (s, [.done c]) else (s.setCall c (some .done), [])

/-- The critical section of `rt_completion_done`. -/
def completionComplete (s : CmState) (c : Caller) : CmState × List CmEvent :=
  ((s.setFlag true).resumeFirst.setCall c none, [.done c])

/-! ## The completion as a state machine -/

inductive CmOp
  | wait (c : Caller) (timeout : Int)
  | done (c : Caller)
  /-- A caller that is not suspended goes on in its call. -/
  | resume (c : Caller)
  /-- The timer of a waiting thread expires: `rt_thread_timeout`. -/
  | timeout (t : ThreadId)
  deriving DecidableEq

def stepCm (s : CmState) : CmOp → Option (CmState × List CmEvent)
  | .wait c timeout => if s.call c = none then rtCompletionWait s c timeout else none
  | .done c => if s.call c = none then some (rtCompletionDone s c) else none
  | .resume c =>
    if s.Waiting c then none
    else
      match s.call c with
      | none => none
      | some .wait => some (completionWaked s c)
      | some .done => some (completionComplete s c)
  | .timeout t =>
    if t ∈ s.completion.suspendedList ∧ (s.thread t).timer then
      some ({ s with completion := { s.completion with suspendedList := s.completion.suspendedList.erase t } }.setThread t
        fun thread => { thread with error := .etimeout, timer := false }, [])
    else none

def CmState.init (priority : ThreadId → Nat) : CmState where
  completion := ⟨false, []⟩
  thread t := ⟨.eok, priority t, false⟩
  call _ := none

def OneWaits (s : CmState) : CmOp → Prop
  | .wait _ _ => ∀ c, s.call c ≠ some .wait
  | _ => True

/-- No done sets the flag between the expiry of a timer and the return of the thread that had waited. -/
def NoneExpired (s : CmState) : CmOp → Prop
  | .resume c => s.call c = some .done → ∀ t, s.call (.thread t) = some .wait → t ∉ s.completion.suspendedList →
    (s.thread t).error = .eok
  | _ => True

abbrev CmRun (ok : CmState → CmOp → Prop) (priority : ThreadId → Nat) : List CmEvent → CmState → Prop :=
  Transition.Run stepCm (fun s op => OneWaits s op ∧ ok s op) (.init priority)

/-! ## The ledger of dones -/

/-- The dones that no wait has consumed, and the waits that have returned `RT_EOK`, each with the dones that it has consumed. -/
structure DoneLedger where
  count : Nat
  pending : List Nat
  served : List (Caller × List Nat)
  deriving DecidableEq

/-- A wait that returns `RT_EOK` consumes what is pending, and there has to be something; any other wait returns where nothing is pending. -/
def DoneLedger.after (d : DoneLedger) : CmEvent → Option DoneLedger
  | .done _ => some { d with count := d.count + 1, pending := d.pending ++ [d.count] }
  | .returned c .eok =>
    if d.pending = [] then none else some { d with pending := [], served := d.served ++ [(c, d.pending)] }
  | .returned _ _ => if d.pending = [] then some d else none

def doneLedger (trace : List CmEvent) : Option DoneLedger := trace.foldlM DoneLedger.after ⟨0, [], []⟩

variable {s s' : CmState} {op : CmOp} {trace events : List CmEvent} {c c' : Caller} {t : ThreadId} {timeout : Int}
  {priority : ThreadId → Nat} {d d' : DoneLedger} {e : CmEvent} {ok : CmState → CmOp → Prop}

theorem doneLedger_append (h : doneLedger trace = some d) : doneLedger (trace ++ [e]) = d.after e := by
  have hd : List.foldlM DoneLedger.after ⟨0, [], []⟩ trace = some d := h
  rw [doneLedger, List.foldlM_append, hd]
  simp

def DoneLedger.EachOnce (d : DoneLedger) : Prop := d.served.flatMap Prod.snd ++ d.pending = List.range d.count

theorem DoneLedger.EachOnce.after (h : d.EachOnce) (he : d.after e = some d') : d'.EachOnce := by
  rw [DoneLedger.EachOnce] at h ⊢
  cases e with
  | done c =>
    cases he
    rw [List.range_succ, ← h, List.append_assoc]
  | returned c result =>
    cases result with
    | eok =>
      simp only [DoneLedger.after] at he
      split at he
      · cases he
      · cases he
        simpa using h
    | _ =>
      simp only [DoneLedger.after] at he
      split at he
      · cases he
        exact h
      · cases he

/-! ## What one step does -/

/-- A done is pending: the next wait returns at once, and a thread that is in a wait has been woken up and returns `RT_EOK`. -/
structure CmState.Pending (s : CmState) : Prop where
  next : ∀ c timeout, s.call c = none → ∃ s', stepCm s (.wait c timeout) = some (s', [.returned c .eok])
  woken : ∀ c, s.call c = some .wait → ∃ s', stepCm s (.resume c) = some (s', [.returned c .eok])

/-- The flag says whether a done is pending; a thread in a wait is in the list, or has been woken up by a pending done, or its timer has expired. -/
structure CmInv (s : CmState) (d : DoneLedger) : Prop where
  flag : s.completion.flag = true ↔ d.pending ≠ []
  listed : ∀ t ∈ s.completion.suspendedList,
    s.call (.thread t) = some .wait ∧ (s.thread t).error = .eok ∧ s.completion.flag = false
  threads : ∀ n, s.call (.interrupt n) ≠ some .wait
  woken : ∀ c, s.call c = some .wait → ¬ s.Waiting c → (s.completion.flag = true ↔ s.error c = .eok)
  one : ∀ c c', s.call c = some .wait → s.call c' = some .wait → c = c'
  nodup : s.completion.suspendedList.Nodup

theorem CmInv.pending (h : CmInv s d) (hpending : d.pending ≠ []) : s.Pending := by
  have hflag := h.flag.2 hpending
  constructor
  · intro c timeout hcall
    exact ⟨s.setFlag false, by rw [stepCm, if_pos hcall]; unfold rtCompletionWait; rw [if_pos hflag]⟩
  · intro c hcall
    have hwait : ¬ s.Waiting c := by
      intro hwaiting
      cases c with
      | interrupt n => exact hwaiting
      | thread t =>
        have hclear := (h.listed t hwaiting).2.2
        rw [hflag] at hclear
        cases hclear
    have herror := (h.woken c hcall hwait).1 hflag
    exact ⟨(s.setFlag false).setCall c none, by rw [stepCm, if_neg hwait, hcall]; simp only [completionWaked, herror]⟩

def DoneLedger.Moves (d : DoneLedger) (events : List CmEvent) (d' : DoneLedger) : Prop :=
  events = [] ∧ d' = d ∨ ∃ e, events = [e] ∧ d.after e = some d'

theorem CmInv.list_eq_nil (h : CmInv s d) (hflag : s.completion.flag = true) : s.completion.suspendedList = [] := by
  refine List.eq_nil_iff_forall_not_mem.2 fun t ht => ?_
  have hclear := (h.listed t ht).2.2
  rw [hflag] at hclear
  cases hclear

theorem CmInv.no_pending (h : CmInv s d) (hflag : s.completion.flag = false) : d.pending = [] := by
  by_contra hpending
  have hset := h.flag.2 hpending
  rw [hflag] at hset
  cases hset

theorem DoneLedger.after_eok (hpending : d.pending ≠ []) :
    d.after (.returned c .eok) = some { d with pending := [], served := d.served ++ [(c, d.pending)] } := if_neg hpending

theorem DoneLedger.after_failed {result : IpcErr} (hresult : result ≠ .eok) (hpending : d.pending = []) :
    d.after (.returned c result) = some d := by
  cases result with
  | eok => exact absurd rfl hresult
  | _ => exact if_pos hpending

theorem CmInv.wait (h : CmInv s d) (hcall : s.call c = none) (hone : ∀ c, s.call c ≠ some .wait)
    (hs : rtCompletionWait s c timeout = some (s', events)) : ∃ d', d.Moves events d' ∧ CmInv s' d' := by
  unfold rtCompletionWait at hs
  by_cases hflag : s.completion.flag
  · rw [if_pos hflag] at hs
    cases hs
    have hempty := h.list_eq_nil hflag
    refine ⟨_, .inr ⟨_, rfl, DoneLedger.after_eok (h.flag.1 hflag)⟩, ?_, ?_, h.threads, ?_, h.one, h.nodup⟩
    · simp [CmState.setFlag]
    · intro t ht
      have hmem : t ∈ s.completion.suspendedList := ht
      rw [hempty] at hmem
      exact absurd hmem List.not_mem_nil
    · exact fun c' hwait => absurd hwait (hone c')
  · rw [if_neg hflag] at hs
    have hclear : s.completion.flag = false := Bool.eq_false_iff.2 hflag
    split at hs
    · cases hs
    · rename_i hempty
      have hnil : s.completion.suspendedList = [] := not_not.1 hempty
      split at hs
      · cases hs
        exact ⟨d, .inr ⟨_, rfl, DoneLedger.after_failed IpcErr.noConfusion (h.no_pending hclear)⟩, h⟩
      · cases c with
        | interrupt n => cases hs
        | thread t =>
          obtain ⟨timer, -, heq⟩ := Option.map_eq_some_iff.1 hs
          cases heq
          have hlist : (s.suspend t timer).completion.suspendedList = [t] := by
            simp [CmState.suspend, CmState.setCall, CmState.setThread, hnil]
          have hself : (s.suspend t timer).call (.thread t) = some .wait := update_self ..
          have hothers : ∀ c ≠ .thread t, (s.suspend t timer).call c = s.call c := fun c hc => update_of_ne hc ..
          refine ⟨d, .inl ⟨rfl, rfl⟩, h.flag, ?_, ?_, ?_, ?_, by rw [hlist]; exact List.nodup_singleton t⟩
          · intro u hu
            rw [hlist, List.mem_singleton] at hu
            subst hu
            exact ⟨hself, by simp [CmState.suspend, CmState.setCall, CmState.setThread], hclear⟩
          · intro n
            rw [hothers _ Caller.noConfusion]
            exact h.threads n
          · intro c' hcall' hwait
            by_cases hc : c' = .thread t
            · subst hc
              refine absurd ?_ hwait
              show t ∈ (s.suspend t timer).completion.suspendedList
              rw [hlist]
              exact List.mem_singleton_self t
            · rw [hothers c' hc] at hcall'
              exact absurd hcall' (hone c')
          · intro c₁ c₂ h₁ h₂
            have hwho : ∀ c', (s.suspend t timer).call c' = some .wait → c' = .thread t := by
              intro c' hcall'
              by_contra hc
              rw [hothers c' hc] at hcall'
              exact hone c' hcall'
            rw [hwho c₁ h₁, hwho c₂ h₂]

theorem CmInv.setCall (h : CmInv s d) {call : Option CmCall} (hold : s.call c ≠ some .wait) (hnew : call ≠ some .wait) :
    CmInv (s.setCall c call) d := by
  have hwait : ∀ c', (s.setCall c call).call c' = some .wait → s.call c' = some .wait := by
    intro c' hcall
    by_cases hc : c' = c
    · subst hc
      rw [show (s.setCall c' call).call c' = call from update_self ..] at hcall
      exact absurd hcall hnew
    · rwa [show (s.setCall c call).call c' = s.call c' from update_of_ne hc ..] at hcall
  refine ⟨h.flag, ?_, fun n hn => h.threads n (hwait _ hn), fun c' hcall hwaiting => h.woken c' (hwait c' hcall) hwaiting,
    fun c₁ c₂ h₁ h₂ => h.one c₁ c₂ (hwait c₁ h₁) (hwait c₂ h₂), h.nodup⟩
  intro t ht
  obtain ⟨hcall, hrest⟩ := h.listed t ht
  have hne : Caller.thread t ≠ c := by
    rintro rfl
    exact hold hcall
  exact ⟨(update_of_ne hne ..).trans hcall, hrest⟩

theorem CmInv.waked (h : CmInv s d) (hcall : s.call c = some .wait) (hwait : ¬ s.Waiting c) :
    ∃ d', d.Moves (completionWaked s c).2 d' ∧ CmInv (completionWaked s c).1 d' := by
  have hself : (completionWaked s c).1.call c = none := update_self ..
  have hothers : ∀ c' ≠ c, (completionWaked s c).1.call c' = s.call c' := fun c' hc => update_of_ne hc ..
  have hnone : ∀ c', (completionWaked s c).1.call c' ≠ some .wait := by
    intro c' hcall'
    by_cases hc : c' = c
    · subst hc
      rw [hself] at hcall'
      exact Option.some_ne_none _ hcall'.symm
    · rw [hothers c' hc] at hcall'
      exact hc (h.one c' c hcall' hcall)
  have hempty : s.completion.suspendedList = [] := by
    refine List.eq_nil_iff_forall_not_mem.2 fun t ht => hwait ?_
    rw [← h.one _ _ (h.listed t ht).1 hcall]
    exact ht
  have hkeeps : ∀ d', d'.pending = [] → CmInv (completionWaked s c).1 d' := by
    intro d' hpending
    refine ⟨?_, ?_, fun n => hnone _, fun c' hc => absurd hc (hnone c'), fun c₁ _ h₁ => absurd h₁ (hnone c₁), h.nodup⟩
    · simp [completionWaked, CmState.setCall, CmState.setFlag, hpending]
    · intro t ht
      have hmem : t ∈ s.completion.suspendedList := ht
      rw [hempty] at hmem
      exact absurd hmem List.not_mem_nil
  by_cases herror : s.error c = .eok
  · refine ⟨{ d with pending := [], served := d.served ++ [(c, d.pending)] }, .inr ⟨_, rfl, ?_⟩, hkeeps _ rfl⟩
    rw [herror]
    exact DoneLedger.after_eok (h.flag.1 ((h.woken c hcall hwait).2 herror))
  · have hclear : s.completion.flag = false := Bool.eq_false_iff.2 fun hflag => herror ((h.woken c hcall hwait).1 hflag)
    exact ⟨d, .inr ⟨_, rfl, DoneLedger.after_failed herror (h.no_pending hclear)⟩, hkeeps d (h.no_pending hclear)⟩

@[simp] theorem CmState.resumeFirst_call : s.resumeFirst.call = s.call := by
  unfold CmState.resumeFirst
  split <;> rfl

theorem CmInv.complete (h : CmInv s d) (hcall : s.call c = some .done)
    (hnone : ∀ t, s.call (.thread t) = some .wait → t ∉ s.completion.suspendedList → (s.thread t).error = .eok) :
    CmInv (completionComplete s c).1 { d with count := d.count + 1, pending := d.pending ++ [d.count] } := by
  have hdone : s.call c ≠ some .wait := by
    rw [hcall]
    exact fun heq => CmCall.noConfusion (Option.some.inj heq)
  have herror : ∀ t, s.call (.thread t) = some .wait → (s.thread t).error = .eok := by
    intro t ht
    by_cases hmem : t ∈ s.completion.suspendedList
    · exact (h.listed t hmem).2.1
    · exact hnone t ht hmem
  have hset : CmInv ((s.setFlag true).resumeFirst) { d with count := d.count + 1, pending := d.pending ++ [d.count] } := by
    have hnil : ((s.setFlag true).resumeFirst).completion = ⟨true, []⟩ := by
      unfold CmState.resumeFirst CmState.setFlag
      split
      · rename_i hlist
        exact congrArg (Completion.mk true) hlist
      · rename_i t rest hlist
        have hlist' : s.completion.suspendedList = t :: rest := hlist
        have hrest : rest = [] := by
          refine List.eq_nil_iff_forall_not_mem.2 fun u hu => ?_
          have hnodup := h.nodup
          rw [hlist'] at hnodup
          have hu' := (h.listed u (hlist' ▸ List.mem_cons_of_mem t hu)).1
          have ht' := (h.listed t (hlist' ▸ List.mem_cons_self ..)).1
          obtain rfl := Caller.thread.inj (h.one _ _ hu' ht')
          exact (List.nodup_cons.1 hnodup).1 hu
        subst hrest
        rfl
    have hkeep : ((s.setFlag true).resumeFirst).call = s.call := CmState.resumeFirst_call
    have hthread : ∀ t, (((s.setFlag true).resumeFirst).thread t).error = (s.thread t).error := by
      intro t
      unfold CmState.resumeFirst
      split
      · rfl
      · rename_i u rest hlist
        by_cases htu : t = u
        · subst htu
          simp [CmState.setThread, CmState.setFlag]
        · simp [CmState.setThread, CmState.setFlag, htu]
    refine ⟨?_, ?_, ?_, ?_, ?_, ?_⟩
    · simp [hnil]
    · intro t ht
      rw [hnil] at ht
      exact absurd ht List.not_mem_nil
    · rw [hkeep]
      exact h.threads
    · intro c' hcall' _
      rw [hkeep] at hcall'
      cases c' with
      | interrupt n => exact absurd hcall' (h.threads n)
      | thread t => simp only [hnil, CmState.error, hthread t, herror t hcall']
    · rw [hkeep]
      exact h.one
    · rw [hnil]
      exact List.nodup_nil
  refine hset.setCall ?_ (Option.some_ne_none _).symm
  rw [CmState.resumeFirst_call]
  exact hdone

theorem CmInv.expire (h : CmInv s d) (ht : t ∈ s.completion.suspendedList) :
    CmInv ({ s with completion := { s.completion with suspendedList := s.completion.suspendedList.erase t } }.setThread t
      fun thread => { thread with error := .etimeout, timer := false }) d := by
  obtain ⟨hcall, -, hclear⟩ := h.listed t ht
  have hothers : ∀ u, u ≠ t → update s.thread t { s.thread t with error := .etimeout, timer := false } u = s.thread u :=
    fun u hu => update_of_ne hu ..
  refine ⟨h.flag, ?_, h.threads, ?_, h.one, h.nodup.erase t⟩
  · intro u hu
    obtain ⟨hne, hmem⟩ := h.nodup.mem_erase_iff.1 hu
    obtain ⟨hcall', herror, hclear'⟩ := h.listed u hmem
    refine ⟨hcall', ?_, hclear'⟩
    show (update s.thread t { s.thread t with error := .etimeout, timer := false } u).error = .eok
    rw [hothers u hne]
    exact herror
  · intro c hc _
    obtain rfl := h.one _ _ hcall hc
    show s.completion.flag = true ↔ (update s.thread t { s.thread t with error := .etimeout, timer := false } t).error = .eok
    simp [hclear]

theorem CmInv.step (h : CmInv s d) (hone : OneWaits s op) (hnone : NoneExpired s op) (hs : stepCm s op = some (s', events)) :
    ∃ d', d.Moves events d' ∧ CmInv s' d' := by
  cases op with
  | wait c timeout =>
    simp only [stepCm] at hs
    split at hs
    · rename_i hcall
      exact h.wait hcall hone hs
    · cases hs
  | done c =>
    simp only [stepCm, rtCompletionDone] at hs
    split at hs
    · rename_i hcall
      split at hs
      · rename_i hflag
        cases hs
        refine ⟨_, .inr ⟨_, rfl, rfl⟩, ?_, h.listed, h.threads, h.woken, h.one, h.nodup⟩
        simp [hflag]
      · cases hs
        refine ⟨d, .inl ⟨rfl, rfl⟩, h.setCall ?_ fun heq => CmCall.noConfusion (Option.some.inj heq)⟩
        rw [hcall]
        exact (Option.some_ne_none _).symm
    · cases hs
  | resume c =>
    simp only [stepCm] at hs
    split at hs
    · cases hs
    · rename_i hwait
      split at hs
      · cases hs
      · rename_i hcall
        cases hs
        exact h.waked hcall hwait
      · rename_i hcall
        cases hs
        exact ⟨_, .inr ⟨_, rfl, rfl⟩, h.complete hcall (hnone hcall)⟩
  | timeout t =>
    simp only [stepCm] at hs
    split at hs
    · rename_i ht
      cases hs
      exact ⟨d, .inl ⟨rfl, rfl⟩, h.expire ht.1⟩
    · cases hs

/-! ## What holds in every run -/

/-- No done is lost, and none serves two waits, in a run in which no done comes between the expiry of a timer and the return of the thread that had waited. -/
theorem completion_of_run (hrun : CmRun NoneExpired priority trace s) :
    ∃ d, doneLedger trace = some d ∧ d.EachOnce ∧ (d.pending ≠ [] → s.Pending) := by
  have hinv : ∃ d, doneLedger trace = some d ∧ d.EachOnce ∧ CmInv s d := by
    refine hrun.invariant (I := fun trace s => ∃ d, doneLedger trace = some d ∧ d.EachOnce ∧ CmInv s d) ?_ ?_
    · refine ⟨⟨0, [], []⟩, rfl, rfl, ?_, fun t ht => absurd ht List.not_mem_nil, fun _ => (Option.some_ne_none _).symm,
        fun _ h => absurd h.symm (Option.some_ne_none _), fun _ _ h => absurd h.symm (Option.some_ne_none _), List.nodup_nil⟩
      simp [CmState.init]
    · intro trace s op s' events ⟨d, hledger, honce, h⟩ hok hs
      obtain ⟨d', hmoves, hinv⟩ := h.step hok.1 hok.2 hs
      rcases hmoves with ⟨rfl, rfl⟩ | ⟨e, rfl, he⟩
      · exact ⟨d', by rw [List.append_nil]; exact hledger, honce, hinv⟩
      · exact ⟨d', (doneLedger_append hledger).trans he, honce.after he, hinv⟩
  obtain ⟨d, hledger, honce, h⟩ := hinv
  exact ⟨d, hledger, honce, h.pending⟩

/-- A done comes before the wait. -/
theorem completion_of_done : ∃ trace s, CmRun NoneExpired (fun _ => 0) trace s ∧ .returned (.thread 0) .eok ∈ trace ∧
    ∃ d, doneLedger trace = some d ∧ d.EachOnce ∧ (d.pending ≠ [] → s.Pending) := by
  have htest : CmRun NoneExpired (fun _ => 0) _ _ := .next .start (a := CmOp.done (.interrupt 0)) ⟨trivial, trivial⟩ rfl
  have hset : CmRun NoneExpired (fun _ => 0) _ _ :=
    .next htest (a := CmOp.resume (.interrupt 0)) ⟨trivial, fun _ t ht => by simp [CmState.setCall, CmState.init] at ht⟩ rfl
  have hwait : CmRun NoneExpired (fun _ => 0) _ _ :=
    .next hset (a := CmOp.wait (.thread 0) 0) ⟨fun c hc => by
      simp [CmState.setCall, CmState.init, CmState.setFlag, CmState.resumeFirst] at hc, trivial⟩ rfl
  exact ⟨_, _, hwait, by decide, completion_of_run hwait⟩

/-- The timer of the waiting thread expires, then a done comes, then the thread runs: the done has served no wait, and the next wait does not find it. -/
theorem completion_fails : ∃ trace s, CmRun (fun _ _ => True) (fun _ => 0) trace s ∧ .done (.interrupt 0) ∈ trace ∧
    (∀ c, .returned c .eok ∉ trace) ∧ (∃ s', stepCm s (.wait (.thread 1) 0) = some (s', [.returned (.thread 1) .etimeout])) ∧
    ¬ ∃ d, doneLedger trace = some d ∧ d.EachOnce ∧ (d.pending ≠ [] → s.Pending) := by
  have hrun : CmRun (fun _ _ => True) (fun _ => 0) _ _ :=
    ((((Transition.Run.start.next (a := CmOp.wait (.thread 0) 5) ⟨fun _ => (Option.some_ne_none _).symm, trivial⟩ rfl).next
      (a := CmOp.timeout 0) ⟨trivial, trivial⟩ rfl).next (a := CmOp.done (.interrupt 0)) ⟨trivial, trivial⟩ rfl).next
      (a := CmOp.resume (.interrupt 0)) ⟨trivial, trivial⟩ rfl).next (a := CmOp.resume (.thread 0)) ⟨trivial, trivial⟩ rfl
  have hlost : CmRun (fun _ _ => True) (fun _ => 0) [.done (.interrupt 0), .returned (.thread 0) .etimeout] _ := hrun
  refine ⟨_, _, hlost, by decide, ?_, ⟨_, rfl⟩, ?_⟩
  · intro c hc
    simp at hc
  · rintro ⟨d, hd, -⟩
    cases hd

end RtThread
