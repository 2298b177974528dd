import RtThread.Mem.PoolBlocks

/-!
# The threads that wait for a block

Suspending counts a thread and resuming counts it off, but a thread that the timer takes out of the list is never counted off. The count is the length of the list and the number of timers that have expired.
-/

namespace RtThread

variable {s s' : MemPool} {c : Caller} {t : ThreadId} {word : Nat → BlockWord} {total : Nat} {priority : ThreadId → Nat}
  {result : MpResult} {m m' : MpState} {op : MpOp} {trace events : List MpEvent} {expired : Nat} {code : IpcErr}

def MpEvent.isExpired : MpEvent → Bool
  | .expired _ => true
  | _ => false

/-- A thread is suspended in `rt_mp_alloc`. -/
def MpState.Suspended (m : MpState) (t : ThreadId) : Prop :=
  t ∈ m.pool.suspendThread ∧ ∃ time beforeSleep, m.call (.thread t) = some (.wait time beforeSleep)

/-- Wherever `rt_mp_free` looks for a thread to resume, it finds one that is suspended. -/
def MpState.DequeuesSuspended (m : MpState) : Prop :=
  0 < m.pool.suspendThreadCount → ∃ t rest, m.pool.suspendThread = t :: rest ∧ m.Suspended t

def MemPool.Counted (s : MemPool) (expired : Nat) : Prop := s.suspendThreadCount = s.suspendThread.length + expired

theorem MemPool.Counted.alloc (h : s.Counted expired) (heffect : AllocEffect s c result s') : s'.Counted expired := by
  cases heffect with
  | block _ _ _ => exact h
  | null _ hlist hcount =>
    rw [MemPool.Counted, hlist, hcount]
    exact h
  | wait _ _ =>
    have hcount : s.suspendThreadCount = s.suspendThread.length + expired := h
    show s.suspendThreadCount + 1 = s.suspendThread.length + 1 + expired
    omega

theorem MemPool.Counted.resumeFirst (h : s.Counted expired) (hs : s.resumeFirst code = some s') : s'.Counted expired := by
  obtain ⟨t, rest, hlist, rfl⟩ := MemPool.resumeFirst_cases hs
  have hcount : s.suspendThreadCount = s.suspendThread.length + expired := h
  rw [hlist, List.length_cons] at hcount
  show s.suspendThreadCount - 1 = rest.length + expired
  omega

theorem MemPool.Counted.free {block : Nat} (h : s.Counted expired) (hs : rtMpFree s block = some s') :
    s'.Counted expired := by
  obtain ⟨-, ⟨-, rfl⟩ | ⟨-, hresume⟩⟩ := rtMpFree_cases hs
  · exact h
  · exact MemPool.Counted.resumeFirst (s := s.put block) h hresume

theorem MemPool.Counted.threadTimeout (h : s.Counted expired) (hs : s.threadTimeout t = some s') :
    s'.Counted (expired + 1) := by
  obtain ⟨ht, rfl⟩ := MemPool.threadTimeout_cases hs
  have hcount : s.suspendThreadCount = s.suspendThread.length + expired := h
  have hlength := List.length_erase_of_mem ht
  have hpos := List.length_pos_of_mem ht
  show s.suspendThreadCount = (s.suspendThread.erase t).length + (expired + 1)
  omega

structure PoolWaiters (m : MpState) (expired : Nat) : Prop where
  count : m.pool.Counted expired
  nodup : m.pool.suspendThread.Nodup
  waits : ∀ t ∈ m.pool.suspendThread, m.Suspended t

theorem PoolWaiters.congr (h : PoolWaiters m expired) (hlist : m'.pool.suspendThread = m.pool.suspendThread)
    (hcount : m'.pool.suspendThreadCount = m.pool.suspendThreadCount)
    (hcall : ∀ t ∈ m.pool.suspendThread, m'.call (.thread t) = m.call (.thread t)) : PoolWaiters m' expired := by
  refine ⟨by rw [MemPool.Counted, hcount, hlist]; exact h.count, hlist ▸ h.nodup, ?_⟩
  intro t ht
  rw [hlist] at ht
  refine ⟨hlist ▸ ht, ?_⟩
  rw [hcall t ht]
  exact (h.waits t ht).2

theorem MpState.setCall_of_not_waiting (hc : ¬ m.Waiting c) (call : Option MpCall) :
    ∀ t ∈ m.pool.suspendThread, (m.setCall c call).call (.thread t) = m.call (.thread t) := by
  intro t ht
  refine Function.update_of_ne (fun heq => hc ?_) ..
  rw [← heq]
  exact ht

theorem PoolWaiters.not_waiting (h : PoolWaiters m expired) (hc : m.call c = none) : ¬ m.Waiting c := by
  intro hwait
  cases c with
  | interrupt n => exact hwait
  | thread t =>
    obtain ⟨-, time, beforeSleep, hcall⟩ := h.waits t hwait
    exact Option.some_ne_none _ (hcall.symm.trans hc)

theorem PoolWaiters.resumeFirst (h : PoolWaiters m expired) (hs : m.pool.resumeFirst code = some s) :
    PoolWaiters { m with pool := s } expired := by
  have hcount := h.count.resumeFirst hs
  obtain ⟨t, rest, hlist, rfl⟩ := MemPool.resumeFirst_cases hs
  have hnodup := h.nodup
  rw [hlist] at hnodup
  refine ⟨hcount, (List.nodup_cons.1 hnodup).2, fun u hu => ⟨hu, (h.waits u ?_).2⟩⟩
  rw [hlist]
  exact List.mem_cons_of_mem t hu

theorem PoolWaiters.threadTimeout (h : PoolWaiters m expired) (hs : m.pool.threadTimeout t = some s) :
    PoolWaiters { m with pool := s } (expired + 1) := by
  have hcount := h.count.threadTimeout hs
  obtain ⟨-, rfl⟩ := MemPool.threadTimeout_cases hs
  exact ⟨hcount, h.nodup.erase t, fun u hu => ⟨hu, (h.waits u (List.mem_of_mem_erase hu)).2⟩⟩

theorem PoolWaiters.allocates (h : PoolWaiters m expired) (hc : ¬ m.Waiting c) (heffect : AllocEffect m.pool c result s) :
    PoolWaiters (m.allocates c (result, s)).1 expired := by
  have hcall := MpState.setCall_of_not_waiting hc
  have hcounted := h.count.alloc heffect
  cases heffect with
  | block _ _ _ => exact h.congr rfl rfl (hcall none)
  | null hsame hlist hcount => exact h.congr hlist hcount (hcall none)
  | @wait t time timer heq hempty =>
    subst heq
    have hnot : t ∉ m.pool.suspendThread := hc
    refine ⟨hcounted, List.nodup_cons.2 ⟨hnot, h.nodup⟩, fun u hu => ⟨hu, ?_⟩⟩
    by_cases heq : u = t
    · subst heq
      exact ⟨time, m.pool.tick, Function.update_self ..⟩
    · have hmem : u ∈ m.pool.suspendThread := (List.mem_cons.1 hu).resolve_left heq
      obtain ⟨time', beforeSleep', hwait⟩ := (h.waits u hmem).2
      exact ⟨time', beforeSleep', (hcall (some (.wait time m.pool.tick)) u hmem).trans hwait⟩

theorem PoolWaiters.free {block : Nat} (h : PoolWaiters m expired) (hs : rtMpFree m.pool block = some s) :
    PoolWaiters { m with pool := s } expired := by
  have hput : PoolWaiters { m with pool := m.pool.put block } expired := h.congr rfl rfl fun _ _ => rfl
  obtain ⟨-, ⟨-, rfl⟩ | ⟨-, hresume⟩⟩ := rtMpFree_cases hs
  · exact hput
  · exact hput.resumeFirst hresume

theorem stepMp_waiters (h : PoolWaiters m expired) (hs : stepMp m op = some (m', events)) :
    PoolWaiters m' (expired + events.countP MpEvent.isExpired) := by
  cases op with
  | alloc c time =>
    simp only [stepMp] at hs
    split at hs
    · rename_i hguard
      obtain ⟨⟨result, pool⟩, halloc, heq⟩ := Option.map_eq_some_iff.1 hs
      have heffect := rtMpAlloc_effect halloc
      have hwaiters := h.allocates (h.not_waiting hguard.2) heffect
      rw [heq] at hwaiters
      cases heffect <;> cases heq <;> exact hwaiters
    · cases hs
  | free block =>
    simp only [stepMp] at hs
    split at hs
    · obtain ⟨pool, hfree, heq⟩ := Option.map_eq_some_iff.1 hs
      cases heq
      exact h.free hfree
    · cases hs
  | delete t =>
    simp only [stepMp] at hs
    split at hs
    · rename_i hguard
      cases hs
      exact h.congr rfl rfl (MpState.setCall_of_not_waiting (h.not_waiting hguard.2) _)
    · cases hs
  | resume c =>
    simp only [stepMp] at hs
    split at hs
    · cases hs
    · rename_i hwait
      have hcall := MpState.setCall_of_not_waiting hwait
      split at hs
      · split at hs
        · obtain ⟨⟨result, pool⟩, halloc, heq⟩ := Option.map_eq_some_iff.1 hs
          have heffect := rtMpAllocResume_effect halloc
          have hwaiters := h.allocates hwait heffect
          rw [heq] at hwaiters
          cases heffect <;> cases heq <;> exact hwaiters
        · cases hs
      · split at hs
        · cases hs
        · split at hs
          · cases hs
            exact h.congr rfl rfl (hcall none)
          · cases hs
            exact h.congr rfl rfl (hcall (some .wakeup))
      · split at hs
        · cases hs
        · obtain ⟨pool, hresume, heq⟩ := Option.map_eq_some_iff.1 hs
          cases heq
          have hmarked : PoolWaiters (m.setCall _ (some .delete)) expired := h.congr rfl rfl (hcall (some .delete))
          exact hmarked.resumeFirst hresume
      · cases hs
  | timeout t =>
    obtain ⟨pool, htimeout, heq⟩ := Option.map_eq_some_iff.1 hs
    cases heq
    exact h.threadTimeout htimeout
  | tick =>
    cases hs
    exact h.congr rfl rfl fun _ _ => rfl

theorem poolWaiters_of_run (hrun : MpRun word total priority trace m) :
    PoolWaiters m (trace.countP MpEvent.isExpired) := by
  refine hrun.invariant (I := fun trace m => PoolWaiters m (trace.countP MpEvent.isExpired)) ?_ ?_
  · exact ⟨rfl, List.nodup_nil, fun t ht => absurd ht List.not_mem_nil⟩
  · intro trace m op m' events h _ hs
    rw [List.countP_append]
    exact stepMp_waiters h hs

theorem countP_isExpired_eq_zero : trace.countP MpEvent.isExpired = 0 ↔ ∀ t, .expired t ∉ trace := by
  rw [List.countP_eq_zero]
  constructor
  · intro h t ht
    exact h _ ht rfl
  · intro h e he hexpired
    cases e with
    | expired t => exact h t he
    | _ => exact Bool.false_ne_true hexpired

/-- The count is the length of the list in exactly the runs in which no timer of a waiting thread has expired, and then a thread that `rt_mp_free` dequeues is one that waits for a block. -/
theorem suspendThreadCount_of_run (hrun : MpRun word total priority trace m) :
    (m.pool.suspendThreadCount = m.pool.suspendThread.length ↔ ∀ t, .expired t ∉ trace) ∧
      ((∀ t, .expired t ∉ trace) → m.DequeuesSuspended) := by
  have h := poolWaiters_of_run hrun
  have hcount : m.pool.suspendThreadCount = m.pool.suspendThread.length + trace.countP MpEvent.isExpired := h.count
  rw [← countP_isExpired_eq_zero]
  refine ⟨by omega, fun hzero hpos => ?_⟩
  rw [hzero] at hcount
  cases hlist : m.pool.suspendThread with
  | nil =>
    rw [hlist, List.length_nil] at hcount
    omega
  | cons t rest => exact ⟨t, rest, rfl, h.waits t (hlist ▸ List.mem_cons_self ..)⟩

theorem suspendThreadCount_of_waiting : ∃ trace m, MpRun (fun _ => .pool) 1 (fun _ => 0) trace m ∧
    m.pool.suspendThread = [1] ∧ (m.pool.suspendThreadCount = m.pool.suspendThread.length ↔ ∀ t, .expired t ∉ trace) ∧
      ((∀ t, .expired t ∉ trace) → m.DequeuesSuspended) := by
  obtain ⟨trace, m, hrun, hlist⟩ := exists_mpRun 1 [.alloc (.thread 0) 0, .alloc (.thread 1) 5]
    (fun _ m => decide (m.pool.suspendThread = [1])) (by decide)
  exact ⟨trace, m, hrun, of_decide_eq_true hlist, suspendThreadCount_of_run hrun⟩

/-- A thread gives up waiting for the only block; the pool counts it on, and when the block comes back there is no thread to resume. -/
theorem suspendThreadCount_fails : ∃ trace m, MpRun (fun _ => .pool) 1 (fun _ => 0) trace m ∧
    m.pool.suspendThreadCount ≠ m.pool.suspendThread.length ∧ ¬ m.DequeuesSuspended ∧ rtMpFree m.pool 0 = none := by
  obtain ⟨trace, m, hrun, hfound⟩ := exists_mpRun 1
    [.alloc (.thread 0) 0, .alloc (.thread 1) 5, .timeout 1, .resume (.thread 1)]
    (fun _ m => decide (m.pool.suspendThreadCount = 1 ∧ m.pool.suspendThread = [] ∧ m.pool.word 0 = .pool)) (by decide)
  obtain ⟨hcount, hlist, hword⟩ := of_decide_eq_true hfound
  refine ⟨trace, m, hrun, ?_, ?_, ?_⟩
  · rw [hcount, hlist]
    exact Nat.one_ne_zero
  · intro hdequeues
    obtain ⟨t, rest, hcons, -⟩ := hdequeues (by rw [hcount]; exact Nat.one_pos)
    rw [hlist] at hcons
    exact List.cons_ne_nil t rest hcons.symm
  · have hpos : 0 < (m.pool.put 0).suspendThreadCount := by
      show 0 < m.pool.suspendThreadCount
      omega
    have hempty : (m.pool.put 0).suspendThread = [] := hlist
    rw [rtMpFree, if_pos hword, if_pos hpos, MemPool.resumeFirst, hempty]

end RtThread
