import RtThread.Pthreads.RwLock

/-!
# Barriers

`pthread_barrier.c` over `pthread_cond.c`. The counter of a barrier counts down the threads of a round and is never set again; a thread that waits gives up the mutex and then takes the semaphore of the condition, and may be stopped in between.
-/

namespace RtThread

inductive BarrierPhase
  | out
  /-- Before and behind `pthread_mutex_lock`. -/
  | locking
  | locked
  /-- In `pthread_cond_wait`: before `pthread_mutex_unlock`, before and in `rt_sem_take`, before the `pthread_mutex_lock` that ends it. -/
  | waiting
  | taking
  | suspended
  | relocking
  /-- Before the last `pthread_mutex_unlock`. -/
  | leaving
  deriving DecidableEq

/-- `struct pthread_barrier` and the threads that use it, with the number of times each has called and left `pthread_barrier_wait`. -/
structure Barrier where
  count : Int
  sem : CondSem
  owner : Option ThreadId
  phase : ThreadId → BarrierPhase
  entries : ThreadId → Nat
  returns : ThreadId → Nat

namespace Barrier

def setPhase (s : Barrier) (t : ThreadId) (phase : BarrierPhase) : Barrier := { s with phase := Function.update s.phase t phase }

def resume (s : Barrier) (woken : List ThreadId) : Barrier :=
  { s with phase := fun t => if t ∈ woken then .relocking else s.phase t }

/-- The unsigned count is put into an `int`. -/
def intCount (n : Nat) : Int := if n % 4294967296 < 2147483648 then (n % 4294967296 : Nat) else (n % 4294967296 : Nat) - 4294967296

def init (n : Nat) : Barrier := ⟨intCount n, ⟨0, []⟩, none, fun _ => .out, fun _ => 0, fun _ => 0⟩

/-- `pthread_barrier_wait` between its `pthread_mutex_lock` and what follows. -/
def run (s : Barrier) (t : ThreadId) : Barrier :=
  if s.count = 0 then s.setPhase t .leaving
  else
    let s := { s with count := s.count - 1 }
    if s.count = 0 then
      -- "broadcast condition"
      let r := condBroadcast s.sem.value s.sem.suspendThread
      ({ s with sem := r.2 }.resume r.1).setPhase t .leaving
    else s.setPhase t .waiting

end Barrier

inductive BarrierOp
  | call (t : ThreadId)
  | lock (t : ThreadId)
  | run (t : ThreadId)
  | unlock (t : ThreadId)
  | take (t : ThreadId)
  deriving DecidableEq

def Barrier.next (n : Nat) (s : Barrier) : BarrierOp → Option Barrier
  | .call t =>
    if t < n ∧ s.phase t = .out then some ({ s with entries := Function.update s.entries t (s.entries t + 1) }.setPhase t .locking)
    else none
  | .lock t =>
    if s.owner = none then
      match s.phase t with
      | .locking => some ({ s with owner := some t }.setPhase t .locked)
      | .relocking => some ({ s with owner := some t }.setPhase t .leaving)
      | _ => none
    else none
  | .run t =>
    match s.phase t with
    | .locked => some (s.run t)
    | _ => none
  | .unlock t =>
    match s.phase t with
    | .waiting => some ({ s with owner := none }.setPhase t .taking)
    | .leaving => some ({ s with owner := none, returns := Function.update s.returns t (s.returns t + 1) }.setPhase t .out)
    | _ => none
  | .take t =>
    match s.phase t with
    | .taking =>
      if 0 < s.sem.value then some ({ s with sem := { s.sem with value := s.sem.value - 1 } }.setPhase t .relocking)
      else some ({ s with sem := { s.sem with suspendThread := s.sem.suspendThread ++ [t] } }.setPhase t .suspended)
    | _ => none

def stepBarrier (n : Nat) (s : Barrier) (op : BarrierOp) : Option (Barrier × List BarrierOp) := (s.next n op).map fun s => (s, [op])

abbrev BarrierRun (ok : Barrier → BarrierOp → Prop) (n : Nat) : List BarrierOp → Barrier → Prop :=
  Transition.Run (stepBarrier n) ok (.init n)

/-- No thread runs inside `pthread_barrier_wait`. -/
def Barrier.Quiet (n : Nat) (s : Barrier) : Prop := ∀ t < n, s.phase t = .out ∨ s.phase t = .suspended

instance Barrier.decidableQuiet (n : Nat) (s : Barrier) : Decidable (s.Quiet n) := inferInstanceAs (Decidable (∀ t < n, _))

/-- What a barrier of `n` threads is for. -/
structure BarrierRight (n : Nat) (s : Barrier) : Prop where
  /-- No thread leaves its wait of a round before all have called theirs. -/
  holds : ∀ t < n, ∀ t' < n, s.returns t ≤ s.entries t'
  /-- When all have called their wait of a round, none is left in it. -/
  releases : s.Quiet n → ∀ k, (∀ t < n, k ≤ s.entries t) → ∀ t < n, k ≤ s.returns t
  /-- When all have left it, the barrier is as it was at first. -/
  ready : ∀ k, (∀ t < n, s.entries t = k ∧ s.returns t = k) → s.count = n ∧ s.sem = ⟨0, []⟩ ∧ s.owner = none

/-- The conditions under which a barrier does what it is for: nobody comes a second time; when the last thread counts the barrier down, at most one thread has given up the mutex and not reached `rt_sem_take`; and some thread is still inside. -/
def BarrierSafe (n : Nat) (s : Barrier) : BarrierOp → Prop
  | .call t => s.entries t = 0
  | .run t => s.phase t = .locked → s.count = 1 → ∀ t < n, ∀ t' < n, s.phase t = .taking → s.phase t' = .taking → t = t'
  | .unlock t => s.phase t = .leaving → ∃ t' < n, t' ≠ t ∧ s.returns t' < s.entries t'
  | _ => True

instance BarrierSafe.decidable (n : Nat) (s : Barrier) (op : BarrierOp) : Decidable (BarrierSafe n s op) := by
  cases op <;> unfold BarrierSafe <;> infer_instance

end RtThread
