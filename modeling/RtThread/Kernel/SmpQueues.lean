import RtThread.Kernel.ReadyQueue
import RtThread.Lib.Transition

/-!
# The ready queues of several processors

With `RT_USING_SMP` there is one ready queue for the threads that any processor may run, and one more in every `struct rt_cpu` for the threads bound to it. Each has its lists and its own two-level bitmap, and a processor takes the best of its own queue and of the common one.

`rt_schedule_remove_thread` looks into the table of the common queue also for a thread that is bound to a processor. What the bitmaps say can be relied on as long as that look gives the answer that the processor's own table would have given.
-/

namespace RtThread.Smp

open Bitmap

structure SmpConfig extends Config where
  /-- `RT_CPUS_NR` -/
  cpusNr : Nat

/-- The ready queue of all processors, or that of one `struct rt_cpu`. -/
inductive QueueId
  | global
  | cpu (cpu : Nat)
  deriving DecidableEq

structure ReadyQueue where
  /-- `priority_table`, `rt_thread_priority_table` -/
  priorityTable : Nat → List ThreadId
  /-- `priority_group`, `rt_thread_ready_priority_group` -/
  priorityGroup : BitVec 32
  /-- `ready_table`, `rt_thread_ready_table` -/
  readyTable : Nat → BitVec 8

structure SmpThread extends Thread where
  /-- `RT_CPUS_NR` for a thread that is not bound. -/
  bindCpu : Nat
  /-- `none` is `RT_CPU_DETACHED`. -/
  oncpu : Option Nat
  deriving DecidableEq

structure SmpKernel where
  thread : ThreadId → SmpThread
  queue : QueueId → ReadyQueue
  /-- `current_thread` of each `struct rt_cpu`. -/
  currentThread : Nat → ThreadId

def SmpConfig.cpuMask (cfg : SmpConfig) : BitVec 32 := 1#32 <<< cfg.cpusNr - 1#32

def SmpKernel.setThread (s : SmpKernel) (t : ThreadId) (f : SmpThread → SmpThread) : SmpKernel :=
  { s with thread := Function.update s.thread t (f (s.thread t)) }

def SmpKernel.setQueue (s : SmpKernel) (id : QueueId) (f : ReadyQueue → ReadyQueue) : SmpKernel :=
  { s with queue := Function.update s.queue id (f (s.queue id)) }

def home (cfg : SmpConfig) (thread : SmpThread) : QueueId :=
  if thread.bindCpu = cfg.cpusNr then .global else .cpu thread.bindCpu

def ReadyQueue.insert (cfg : SmpConfig) (queue : ReadyQueue) (thread : SmpThread) (t : ThreadId) : ReadyQueue where
  priorityTable := Function.update queue.priorityTable thread.currentPriority
    (queue.priorityTable thread.currentPriority ++ [t])
  priorityGroup := queue.priorityGroup ||| thread.numberMask
  readyTable := if cfg.Large then
      Function.update queue.readyTable thread.number (queue.readyTable thread.number ||| thread.highMask)
    else queue.readyTable

/-- The bits of a thread are cleared; that of its group when the byte `tested` is zero. -/
def ReadyQueue.clear (cfg : SmpConfig) (queue : ReadyQueue) (thread : SmpThread) (tested : BitVec 8) : ReadyQueue where
  priorityTable := queue.priorityTable
  priorityGroup := if cfg.Large ∧ tested ≠ 0 then queue.priorityGroup else queue.priorityGroup &&& ~~~thread.numberMask
  readyTable := if cfg.Large then
      Function.update queue.readyTable thread.number (queue.readyTable thread.number &&& ~~~thread.highMask)
    else queue.readyTable

/-- `rt_schedule_insert_thread` on processor `cpuId`, with the processors that `rt_hw_ipi_send` interrupts. -/
def rtScheduleInsertThread (cfg : SmpConfig) (s : SmpKernel) (cpuId : Nat) (t : ThreadId) : SmpKernel × Option (BitVec 32) :=
  let s := s.setThread t fun thread => { thread with stat := .ready }
  let thread := s.thread t
  if thread.oncpu ≠ none then (s, none)
  else if thread.bindCpu = cfg.cpusNr then
    (s.setQueue .global fun queue => queue.insert cfg thread t, some (cfg.cpuMask ^^^ 1#32 <<< cpuId))
  else
    (s.setQueue (.cpu thread.bindCpu) fun queue => queue.insert cfg thread t,
      if cpuId ≠ thread.bindCpu then some (1#32 <<< thread.bindCpu) else none)

/-- `rt_list_remove(&(thread->tlist))`: the node is taken out of whichever list it is in. -/
def rtListRemove (s : SmpKernel) (t : ThreadId) : SmpKernel :=
  { s with queue := fun id => { s.queue id with priorityTable := fun p => ((s.queue id).priorityTable p).erase t } }

def rtScheduleRemoveThread (cfg : SmpConfig) (s : SmpKernel) (t : ThreadId) : SmpKernel :=
  let s := rtListRemove s t
  let thread := s.thread t
  if thread.bindCpu = cfg.cpusNr then
    if (s.queue .global).priorityTable thread.currentPriority = [] then
      let tested := (s.queue .global).readyTable thread.number &&& ~~~thread.highMask
      s.setQueue .global fun queue => queue.clear cfg thread tested
    else s
  else
    if (s.queue (.cpu thread.bindCpu)).priorityTable thread.currentPriority = [] then
      -- the table that is tested is `rt_thread_ready_table` here too
      let tested := (s.queue .global).readyTable thread.number
      s.setQueue (.cpu thread.bindCpu) fun queue => queue.clear cfg thread tested
    else s

/-- The best priority of a queue, as a `rt_ubase_t`. `outside` is the byte that is read where the index is not one of the table: an empty group has number `0 - 1`. -/
def highestReadyPriority (cfg : SmpConfig) (queue : ReadyQueue) (outside : BitVec 8) : BitVec 32 :=
  if cfg.Large then
    let number := BitVec.ofNat 32 (rtFfs queue.priorityGroup) - 1#32
    let byte := if number < 32#32 then queue.readyTable number.toNat else outside
    (number <<< 3) + BitVec.ofNat 32 (rtFfs (byte.setWidth 32)) - 1#32
  else BitVec.ofNat 32 (rtFfs queue.priorityGroup) - 1#32

/-- `_get_highest_priority_thread` on processor `cpu`, with `*highest_prio`. -/
def getHighestPriorityThread (cfg : SmpConfig) (s : SmpKernel) (cpu : Nat) (outside : QueueId → BitVec 8) :
    Option ThreadId × Nat :=
  if cfg.Large ∧ (s.queue .global).priorityGroup = 0 ∧ (s.queue (.cpu cpu)).priorityGroup = 0 then
    (some (s.currentThread cpu), (s.thread (s.currentThread cpu)).currentPriority)
  else
    let highest := highestReadyPriority cfg (s.queue .global) (outside .global)
    let localHighest := highestReadyPriority cfg (s.queue (.cpu cpu)) (outside (.cpu cpu))
    if highest < localHighest then (((s.queue .global).priorityTable highest.toNat).head?, highest.toNat)
    else (((s.queue (.cpu cpu)).priorityTable localHighest.toNat).head?, localHighest.toNat)

/-! ## Steps -/

/-- The thread is in its ready queue. A thread is in no other list of the ready queues, see `QueuesInv`. -/
def SmpKernel.Queued (cfg : SmpConfig) (s : SmpKernel) (t : ThreadId) : Prop :=
  t ∈ (s.queue (home cfg (s.thread t))).priorityTable (s.thread t).currentPriority

instance (cfg : SmpConfig) (s : SmpKernel) (t : ThreadId) : Decidable (s.Queued cfg t) := inferInstanceAs (Decidable (_ ∈ _))

inductive SmpOp
  | insert (cpuId : Nat) (t : ThreadId)
  | remove (t : ThreadId)
  /-- `rt_thread_control` gives the thread another priority. -/
  | setPriority (t : ThreadId) (priority : Nat)
  /-- `rt_schedule` gives a processor to the thread, or takes it away. -/
  | setOncpu (t : ThreadId) (oncpu : Option Nat)
  | setCurrent (cpu : Nat) (t : ThreadId)
  deriving DecidableEq

inductive SmpEvent
  /-- `rt_hw_ipi_send(RT_SCHEDULE_IPI_IRQ, mask)` -/
  | ipi (mask : BitVec 32)
  deriving DecidableEq

/-- All callers see to it that a thread is inserted, and gets another priority, while it is in no list. -/
def stepSmp (cfg : SmpConfig) (s : SmpKernel) : SmpOp → Option (SmpKernel × List SmpEvent)
  | .insert cpuId t =>
    if s.Queued cfg t then none
    else
      let inserted := rtScheduleInsertThread cfg s cpuId t
      some (inserted.1, inserted.2.toList.map .ipi)
  | .remove t => some (rtScheduleRemoveThread cfg s t, [])
  | .setPriority t priority =>
    if s.Queued cfg t ∨ cfg.priorityMax ≤ priority then none
    else some (s.setThread t fun thread =>
      { thread with toThread := thread.toThread.setPriority cfg.toConfig priority }, [])
  | .setOncpu t oncpu => some (s.setThread t fun thread => { thread with oncpu := oncpu }, [])
  | .setCurrent cpu t => some ({ s with currentThread := Function.update s.currentThread cpu t }, [])

/-- The threads as `rt_thread_control(RT_THREAD_CTRL_BIND_CPU)` and `rt_thread_startup` leave them. -/
structure SmpSetup (cfg : SmpConfig) where
  priority : ThreadId → Nat
  priority_lt : ∀ t, priority t < cfg.priorityMax
  bindCpu : ThreadId → Nat
  bindCpu_le : ∀ t, bindCpu t ≤ cfg.cpusNr
  currentThread : Nat → ThreadId

def ReadyQueue.empty : ReadyQueue := ⟨fun _ => [], 0, fun _ => 0⟩

/-- `rt_system_scheduler_init` -/
def SmpKernel.boot {cfg : SmpConfig} (setup : SmpSetup cfg) : SmpKernel where
  thread t :=
    { toThread := { (rtThreadInit (setup.priority t) false false).setPriority cfg.toConfig (setup.priority t) with
        stat := .suspend }
      bindCpu := setup.bindCpu t
      oncpu := none }
  queue _ := .empty
  currentThread := setup.currentThread

/-! ## What the bitmaps say -/

variable {cfg : SmpConfig} {s s' : SmpKernel} {queue : ReadyQueue} {thread : SmpThread} {t u : ThreadId} {id : QueueId}
  {tested : BitVec 8} {S : Set Nat}

def ReadyQueue.readySet (queue : ReadyQueue) : Set Nat := { p | queue.priorityTable p ≠ [] }

/-- The bits of the group and of the table are those of the priorities in `S`. -/
def ReadyQueue.Marks (cfg : SmpConfig) (queue : ReadyQueue) (S : Set Nat) : Prop :=
  if cfg.Large then TwoLevel queue.priorityGroup queue.readyTable S else Flat queue.priorityGroup S

theorem marks_empty : ReadyQueue.empty.Marks cfg ∅ := by
  unfold ReadyQueue.Marks
  split_ifs
  · exact .empty
  · exact .empty

theorem marks_insert (h : queue.Marks cfg S) (hindexed : thread.Indexed cfg.toConfig)
    (hlt : thread.currentPriority < cfg.priorityMax) :
    (queue.insert cfg thread t).Marks cfg (insert thread.currentPriority S) := by
  unfold ReadyQueue.Marks at h ⊢
  unfold Thread.Indexed at hindexed
  unfold ReadyQueue.insert
  have hmax := cfg.priorityMax_le
  by_cases hlarge : cfg.Large
  · simp only [if_pos hlarge] at h hindexed ⊢
    obtain ⟨hnumber, hmask, hhigh⟩ := hindexed
    rw [hnumber, hmask, hhigh]
    exact h.insert (by omega)
  · simp only [if_neg hlarge] at h hindexed ⊢
    rw [hindexed]
    unfold Config.Large at hlarge
    exact h.insert (by omega)

/-- The byte that is tested is zero when that of the queue is zero without the thread, or the byte of the queue has been zero before. -/
def Agrees (queue : ReadyQueue) (thread : SmpThread) (tested : BitVec 8) : Prop :=
  (tested = 0 ↔ queue.readyTable thread.number &&& ~~~thread.highMask = 0) ∨ queue.readyTable thread.number = 0

instance (queue : ReadyQueue) (thread : SmpThread) (tested : BitVec 8) : Decidable (Agrees queue thread tested) :=
  inferInstanceAs (Decidable (_ ∨ _))

theorem marks_clear (h : queue.Marks cfg S) (hindexed : thread.Indexed cfg.toConfig)
    (htested : cfg.Large → Agrees queue thread tested) :
    (queue.clear cfg thread tested).Marks cfg (S \ {thread.currentPriority}) := by
  unfold ReadyQueue.Marks at h ⊢
  unfold Thread.Indexed at hindexed
  unfold ReadyQueue.clear
  by_cases hlarge : cfg.Large
  · simp only [if_pos hlarge] at h hindexed ⊢
    obtain ⟨hnumber, hmask, hhigh⟩ := hindexed
    have herase := h.erase thread.currentPriority
    rw [← hmask, ← hnumber, ← hhigh] at herase
    rcases htested hlarge with heq | hzero
    · by_cases ht : tested = 0
      · simpa only [if_pos (heq.1 ht), ht, ne_eq, not_true_eq_false, and_false, if_false] using herase
      · simpa only [if_neg fun hcleared => ht (heq.2 hcleared), ht, ne_eq, not_false_eq_true, and_true, if_pos hlarge]
          using herase
    · -- nothing is marked in the byte, so nothing changes
      have hbyte : queue.readyTable (thread.currentPriority / 8) = 0 := hnumber ▸ hzero
      have hnone : thread.currentPriority ∉ S := by
        intro hmem
        have hset := (h.bit _ (h.lt _ hmem)).2 hmem
        rw [hbyte] at hset
        simp at hset
      have hgroup : queue.priorityGroup &&& ~~~thread.numberMask = queue.priorityGroup := by
        rw [hmask]
        exact h.group_clear hbyte
      have htable : queue.readyTable thread.number &&& ~~~thread.highMask = queue.readyTable thread.number := by
        simp [hzero]
      rw [hgroup, ite_self, htable, Function.update_eq_self, Set.sdiff_singleton_eq_self hnone]
      exact h
  · simp only [if_neg hlarge] at h hindexed ⊢
    rw [hindexed]
    simpa only [hlarge, false_and, if_false] using h.erase thread.currentPriority

/-! ## The best priority of a queue -/

theorem rtFfs_le {v : BitVec 32} : rtFfs v ≤ 32 := by
  by_cases hv : v = 0
  · rw [hv]
    decide
  · have hlt := BitVec.lt_of_getLsbD (rtFfs_isLowest hv).1
    omega

theorem rtFfs_byte_le (byte : BitVec 8) : rtFfs (byte.setWidth 32) ≤ 8 := by
  by_cases hbyte : byte = 0
  · rw [hbyte]
    decide
  · have hlt := BitVec.lt_of_getLsbD (rtFfs_byte_isLowest hbyte).1
    omega

theorem marks_eq_zero_iff (h : queue.Marks cfg S) : queue.priorityGroup = 0 ↔ S = ∅ := by
  unfold ReadyQueue.Marks at h
  split_ifs at h
  · exact h.eq_zero_iff
  · exact h.eq_zero_iff

theorem ubase_index {n m : Nat} (hn : 0 < n) (hn32 : n ≤ 32) (hm : 0 < m) (hm8 : m ≤ 8) :
    (((BitVec.ofNat 32 n - 1#32) <<< 3) + BitVec.ofNat 32 m - 1#32).toNat = 8 * (n - 1) + (m - 1) := by
  have hnumber : (BitVec.ofNat 32 n - 1#32).toNat = n - 1 := by
    bv_omega
  have hshift : ((BitVec.ofNat 32 n - 1#32) <<< 3).toNat = 8 * (n - 1) := by
    rw [BitVec.toNat_shiftLeft, hnumber, Nat.shiftLeft_eq]
    omega
  bv_omega

theorem highestReadyPriority_isLeast (h : queue.Marks cfg S) (hne : S ≠ ∅) (outside : BitVec 8) :
    IsLeast S (highestReadyPriority cfg queue outside).toNat := by
  have hgroup : queue.priorityGroup ≠ 0 := fun hzero => hne ((marks_eq_zero_iff h).1 hzero)
  have hlow := rtFfs_isLowest hgroup
  have hpos := rtFfs_pos hgroup
  have hle : rtFfs queue.priorityGroup ≤ 32 := rtFfs_le
  have hnumber : (BitVec.ofNat 32 (rtFfs queue.priorityGroup) - 1#32).toNat = rtFfs queue.priorityGroup - 1 := by
    generalize rtFfs queue.priorityGroup = n at hpos hle ⊢
    bv_omega
  unfold ReadyQueue.Marks at h
  unfold highestReadyPriority
  split_ifs at h ⊢ with hlarge
  · have hlt : rtFfs queue.priorityGroup - 1 < 32 := BitVec.lt_of_getLsbD hlow.1
    have hbyte : queue.readyTable (rtFfs queue.priorityGroup - 1) ≠ 0 := (h.group _ hlt).1 hlow.1
    have hleast := h.isLeast hlow (rtFfs_byte_isLowest hbyte)
    have hinside : BitVec.ofNat 32 (rtFfs queue.priorityGroup) - 1#32 < 32#32 := by
      rw [BitVec.lt_def, hnumber]
      exact hlt
    simp only [if_pos hinside, hnumber]
    have hle' := rtFfs_byte_le (queue.readyTable (rtFfs queue.priorityGroup - 1))
    have hpos' := rtFfs_pos (byte_setWidth_ne_zero hbyte)
    generalize rtFfs ((queue.readyTable (rtFfs queue.priorityGroup - 1)).setWidth 32) = m at hleast hle' hpos' ⊢
    rw [ubase_index hpos hle hpos' hle']
    exact hleast
  · rw [hnumber]
    exact h.isLeast hlow

theorem highestReadyPriority_empty (h : queue.priorityGroup = 0) (outside : BitVec 8) :
    256 ≤ (highestReadyPriority cfg queue outside).toNat := by
  have hffs : rtFfs queue.priorityGroup = 0 := by
    rw [h]
    decide
  unfold highestReadyPriority
  rw [hffs]
  split_ifs with hlarge
  · have hle := rtFfs_byte_le outside
    have hnumber : ¬ BitVec.ofNat 32 0 - 1#32 < 32#32 := by decide
    simp only [if_neg hnumber]
    generalize rtFfs (outside.setWidth 32) = n at hle
    have hshift : (BitVec.ofNat 32 0 - 1#32) <<< 3 = 0xFFFFFFF8#32 := by decide
    rw [hshift]
    bv_omega
  · decide

/-! ## The queues -/

structure QueuesInv (cfg : SmpConfig) (s : SmpKernel) : Prop where
  indexed : ∀ t, (s.thread t).Indexed cfg.toConfig
  priority_lt : ∀ t, (s.thread t).currentPriority < cfg.priorityMax
  mem : ∀ id p t, t ∈ (s.queue id).priorityTable p → id = home cfg (s.thread t) ∧ p = (s.thread t).currentPriority
  nodup : ∀ id p, ((s.queue id).priorityTable p).Nodup
  marks : ∀ id, (s.queue id).Marks cfg (s.queue id).readySet

theorem QueuesInv.boot (setup : SmpSetup cfg) : QueuesInv cfg (.boot setup) where
  indexed t := (rtThreadInit (setup.priority t) false false).setPriority_indexed cfg.toConfig (setup.priority t)
  priority_lt t := by
    have hpriority := (rtThreadInit (setup.priority t) false false).setPriority_currentPriority cfg.toConfig (setup.priority t)
    exact hpriority.symm ▸ setup.priority_lt t
  mem id p t hmem := by cases hmem
  nodup id p := List.nodup_nil
  marks id := by
    have hempty : ReadyQueue.empty.readySet = ∅ := by
      ext p
      simp [ReadyQueue.readySet, ReadyQueue.empty]
    change ReadyQueue.empty.Marks cfg ReadyQueue.empty.readySet
    rw [hempty]
    exact marks_empty

theorem QueuesInv.setThread (h : QueuesInv cfg s) {f : SmpThread → SmpThread}
    (hindexed : (f (s.thread t)).Indexed cfg.toConfig) (hlt : (f (s.thread t)).currentPriority < cfg.priorityMax)
    (hhome : (f (s.thread t)).bindCpu = (s.thread t).bindCpu)
    (hpriority : s.Queued cfg t → (f (s.thread t)).currentPriority = (s.thread t).currentPriority) :
    QueuesInv cfg (s.setThread t f) := by
  have hself : (s.setThread t f).thread t = f (s.thread t) := Function.update_self ..
  have hother (u : ThreadId) (hu : u ≠ t) : (s.setThread t f).thread u = s.thread u := Function.update_of_ne hu ..
  refine ⟨fun u => ?_, fun u => ?_, fun id p u hmem => ?_, h.nodup, h.marks⟩
  · by_cases hu : u = t
    · rwa [hu, hself]
    · rw [hother u hu]
      exact h.indexed u
  · by_cases hu : u = t
    · rwa [hu, hself]
    · rw [hother u hu]
      exact h.priority_lt u
  · obtain ⟨hid, hp⟩ := h.mem id p u hmem
    by_cases hu : u = t
    · subst hu
      have hqueued : s.Queued cfg u := by
        rw [SmpKernel.Queued, ← hid, ← hp]
        exact hmem
      rw [hself, home, hhome, hpriority hqueued]
      exact ⟨hid, hp⟩
    · rw [hother u hu]
      exact ⟨hid, hp⟩

/-! ## `rt_schedule_insert_thread` -/

theorem readySet_insert (queue : ReadyQueue) (thread : SmpThread) (t : ThreadId) :
    (queue.insert cfg thread t).readySet = insert thread.currentPriority queue.readySet := by
  ext p
  unfold ReadyQueue.readySet ReadyQueue.insert
  by_cases hp : p = thread.currentPriority
  · simp [hp]
  · simp [hp]

theorem rtScheduleInsertThread_eq (cfg : SmpConfig) (s : SmpKernel) (cpuId : Nat) (t : ThreadId) :
    (rtScheduleInsertThread cfg s cpuId t).1 =
      let ready := s.setThread t fun thread => { thread with stat := .ready }
      if (s.thread t).oncpu = none then
        ready.setQueue (home cfg (s.thread t)) fun queue => queue.insert cfg (ready.thread t) t
      else ready := by
  unfold rtScheduleInsertThread home
  have hself : (s.setThread t fun thread => { thread with stat := .ready }).thread t =
      { s.thread t with stat := .ready } := Function.update_self ..
  dsimp only
  rw [hself]
  dsimp only
  by_cases honcpu : (s.thread t).oncpu = none
  · rw [if_neg (not_not.2 honcpu), if_pos honcpu]
    split_ifs <;> rfl
  · rw [if_pos honcpu, if_neg honcpu]

theorem QueuesInv.link (h : QueuesInv cfg s) (hun : ¬ s.Queued cfg t) :
    QueuesInv cfg (s.setQueue (home cfg (s.thread t)) fun queue => queue.insert cfg (s.thread t) t) := by
  have hself : (s.setQueue (home cfg (s.thread t)) fun queue => queue.insert cfg (s.thread t) t).queue
      (home cfg (s.thread t)) = (s.queue (home cfg (s.thread t))).insert cfg (s.thread t) t := Function.update_self ..
  have hother (id : QueueId) (hid : id ≠ home cfg (s.thread t)) :
      (s.setQueue (home cfg (s.thread t)) fun queue => queue.insert cfg (s.thread t) t).queue id = s.queue id :=
    Function.update_of_ne hid ..
  have hlist (p : Nat) : ((s.queue (home cfg (s.thread t))).insert cfg (s.thread t) t).priorityTable p =
      if p = (s.thread t).currentPriority then (s.queue (home cfg (s.thread t))).priorityTable p ++ [t]
      else (s.queue (home cfg (s.thread t))).priorityTable p := by
    by_cases hp : p = (s.thread t).currentPriority
    · rw [if_pos hp, hp]
      exact Function.update_self ..
    · rw [if_neg hp]
      exact Function.update_of_ne hp ..
  refine ⟨h.indexed, h.priority_lt, fun id p u hmem => ?_, fun id p => ?_, fun id => ?_⟩
  · by_cases hid : id = home cfg (s.thread t)
    · subst hid
      rw [hself, hlist] at hmem
      split_ifs at hmem with hp
      · rcases List.mem_append.1 hmem with hold | hnew
        · exact h.mem _ p u hold
        · rw [List.mem_singleton.1 hnew]
          exact ⟨rfl, hp⟩
      · exact h.mem _ p u hmem
    · rw [hother id hid] at hmem
      exact h.mem id p u hmem
  · by_cases hid : id = home cfg (s.thread t)
    · subst hid
      rw [hself, hlist]
      split_ifs with hp
      · rw [List.nodup_append]
        refine ⟨h.nodup _ p, by simp, fun u hu v hv heq => ?_⟩
        rw [List.mem_singleton.1 hv] at heq
        subst heq
        apply hun
        rw [SmpKernel.Queued, ← hp]
        exact hu
      · exact h.nodup _ p
    · rw [hother id hid]
      exact h.nodup id p
  · by_cases hid : id = home cfg (s.thread t)
    · subst hid
      rw [hself, readySet_insert]
      exact marks_insert (h.marks _) (h.indexed t) (h.priority_lt t)
    · rw [hother id hid]
      exact h.marks id

theorem QueuesInv.insert (h : QueuesInv cfg s) (hun : ¬ s.Queued cfg t) (cpuId : Nat) :
    QueuesInv cfg (rtScheduleInsertThread cfg s cpuId t).1 := by
  have hready : QueuesInv cfg (s.setThread t fun thread => { thread with stat := .ready }) :=
    h.setThread (h.indexed t) (h.priority_lt t) rfl fun _ => rfl
  have hself : (s.setThread t fun thread => { thread with stat := .ready }).thread t =
      { s.thread t with stat := .ready } := Function.update_self ..
  have hhome : home cfg ((s.setThread t fun thread => { thread with stat := .ready }).thread t) =
      home cfg (s.thread t) := by
    rw [hself]
    rfl
  have hun' : ¬ (s.setThread t fun thread => { thread with stat := .ready }).Queued cfg t := by
    rw [SmpKernel.Queued, hhome, hself]
    exact hun
  rw [rtScheduleInsertThread_eq]
  dsimp only
  split_ifs with honcpu
  · have hlink := hready.link hun'
    rwa [hhome] at hlink
  · exact hready

/-! ## `rt_schedule_remove_thread` -/

/-- The byte that decides about the group when `t` is removed. -/
def testedByte (cfg : SmpConfig) (s : SmpKernel) (t : ThreadId) : BitVec 8 :=
  if (s.thread t).bindCpu = cfg.cpusNr then
    (s.queue .global).readyTable (s.thread t).number &&& ~~~(s.thread t).highMask
  else (s.queue .global).readyTable (s.thread t).number

/-- The list of `t` has no other thread. -/
def SmpKernel.Empties (cfg : SmpConfig) (s : SmpKernel) (t : ThreadId) : Prop :=
  ((s.queue (home cfg (s.thread t))).priorityTable (s.thread t).currentPriority).erase t = []

instance (cfg : SmpConfig) (s : SmpKernel) (t : ThreadId) : Decidable (s.Empties cfg t) :=
  inferInstanceAs (Decidable (_ = []))

theorem rtScheduleRemoveThread_eq (cfg : SmpConfig) (s : SmpKernel) (t : ThreadId) :
    rtScheduleRemoveThread cfg s t =
      if s.Empties cfg t then
        (rtListRemove s t).setQueue (home cfg (s.thread t)) fun queue =>
          queue.clear cfg (s.thread t) (testedByte cfg s t)
      else rtListRemove s t := by
  unfold rtScheduleRemoveThread SmpKernel.Empties testedByte home
  dsimp only [rtListRemove]
  by_cases hbound : (s.thread t).bindCpu = cfg.cpusNr
  · simp only [if_pos hbound]
  · simp only [if_neg hbound]

theorem QueuesInv.readySet_remove (h : QueuesInv cfg s) (t : ThreadId) (id : QueueId) :
    ((rtListRemove s t).queue id).readySet =
      if id = home cfg (s.thread t) ∧ s.Empties cfg t then (s.queue id).readySet \ {(s.thread t).currentPriority}
      else (s.queue id).readySet := by
  have hother (p : Nat) (hp : ¬ (id = home cfg (s.thread t) ∧ p = (s.thread t).currentPriority)) :
      ((s.queue id).priorityTable p).erase t = (s.queue id).priorityTable p :=
    List.erase_of_not_mem fun hmem => hp (h.mem id p t hmem)
  ext p
  change ((s.queue id).priorityTable p).erase t ≠ [] ↔ _
  by_cases hp : id = home cfg (s.thread t) ∧ p = (s.thread t).currentPriority
  · obtain ⟨rfl, rfl⟩ := hp
    split_ifs with hempty
    · have hnil := hempty.2
      unfold SmpKernel.Empties at hnil
      simp [hnil]
    · have hnil : ((s.queue (home cfg (s.thread t))).priorityTable (s.thread t).currentPriority).erase t ≠ [] :=
        fun hnil => hempty ⟨rfl, hnil⟩
      refine iff_of_true hnil fun hold => hnil ?_
      rw [hold]
      rfl
  · rw [hother p hp]
    split_ifs with hempty
    · have hne : p ≠ (s.thread t).currentPriority := fun heq => hp ⟨hempty.1, heq⟩
      simp [ReadyQueue.readySet, hne]
    · rfl

/-- A thread that is bound to a processor leaves no other thread in its list: the byte of the common table is zero exactly when the processor's own byte is zero without the thread, if that was not zero before. -/
def GroupAgrees (cfg : SmpConfig) (s : SmpKernel) : SmpOp → Prop
  | .remove t => cfg.Large → (s.thread t).bindCpu ≠ cfg.cpusNr → s.Empties cfg t →
      Agrees (s.queue (.cpu (s.thread t).bindCpu)) (s.thread t) ((s.queue .global).readyTable (s.thread t).number)
  | _ => True

instance (cfg : SmpConfig) (s : SmpKernel) (op : SmpOp) : Decidable (GroupAgrees cfg s op) := by
  unfold GroupAgrees
  split <;> infer_instance

theorem GroupAgrees.agrees (h : GroupAgrees cfg s (.remove t)) (hlarge : cfg.Large) (hempty : s.Empties cfg t) :
    Agrees (s.queue (home cfg (s.thread t))) (s.thread t) (testedByte cfg s t) := by
  unfold testedByte home
  by_cases hbound : (s.thread t).bindCpu = cfg.cpusNr
  · simp only [if_pos hbound]
    exact .inl Iff.rfl
  · simp only [if_neg hbound]
    exact h hlarge hbound hempty

theorem QueuesInv.remove (h : QueuesInv cfg s) (hok : GroupAgrees cfg s (.remove t)) :
    QueuesInv cfg (rtScheduleRemoveThread cfg s t) := by
  have hmarks (id : QueueId) : (rtScheduleRemoveThread cfg s t).queue id =
      if id = home cfg (s.thread t) ∧ s.Empties cfg t then
        ((rtListRemove s t).queue id).clear cfg (s.thread t) (testedByte cfg s t)
      else (rtListRemove s t).queue id := by
    rw [rtScheduleRemoveThread_eq]
    by_cases hempty : s.Empties cfg t
    · rw [if_pos hempty]
      by_cases hid : id = home cfg (s.thread t)
      · rw [if_pos ⟨hid, hempty⟩, hid]
        exact Function.update_self ..
      · rw [if_neg fun hc => hid hc.1]
        exact Function.update_of_ne hid ..
    · rw [if_neg hempty, if_neg fun hc => hempty hc.2]
  have hthread : (rtScheduleRemoveThread cfg s t).thread = s.thread := by
    rw [rtScheduleRemoveThread_eq]
    split_ifs <;> rfl
  have hlist (id : QueueId) (p : Nat) : ((rtScheduleRemoveThread cfg s t).queue id).priorityTable p =
      ((s.queue id).priorityTable p).erase t := by
    rw [hmarks]
    split_ifs <;> rfl
  refine ⟨fun u => ?_, fun u => ?_, fun id p u hmem => ?_, fun id p => ?_, fun id => ?_⟩
  · rw [hthread]
    exact h.indexed u
  · rw [hthread]
    exact h.priority_lt u
  · rw [hlist] at hmem
    rw [hthread]
    exact h.mem id p u (List.mem_of_mem_erase hmem)
  · rw [hlist]
    exact (h.nodup id p).erase t
  · have hset : ((rtScheduleRemoveThread cfg s t).queue id).readySet = ((rtListRemove s t).queue id).readySet := by
      ext p
      change ((rtScheduleRemoveThread cfg s t).queue id).priorityTable p ≠ [] ↔ _
      rw [hlist]
      rfl
    rw [hset, h.readySet_remove, hmarks]
    split_ifs with hid
    · obtain ⟨rfl, hempty⟩ := hid
      have hqueue : ((rtListRemove s t).queue (home cfg (s.thread t))).Marks cfg _ := h.marks (home cfg (s.thread t))
      exact marks_clear hqueue (h.indexed t) fun hlarge => hok.agrees hlarge hempty
    · exact h.marks id

/-! ## Runs -/

theorem QueuesInv.step {op : SmpOp} {events : List SmpEvent} (h : QueuesInv cfg s) (hok : GroupAgrees cfg s op)
    (hs : stepSmp cfg s op = some (s', events)) : QueuesInv cfg s' := by
  cases op with
  | insert cpuId t =>
    simp only [stepSmp] at hs
    split_ifs at hs with hqueued
    cases hs
    exact h.insert hqueued cpuId
  | remove t =>
    cases hs
    exact h.remove hok
  | setPriority t priority =>
    simp only [stepSmp] at hs
    split_ifs at hs with hno
    cases hs
    rw [not_or, not_le] at hno
    refine h.setThread ((s.thread t).toThread.setPriority_indexed cfg.toConfig priority) ?_ rfl fun hqueued => absurd hqueued hno.1
    have hpriority := (s.thread t).toThread.setPriority_currentPriority cfg.toConfig priority
    exact hpriority.symm ▸ hno.2
  | setOncpu t oncpu =>
    cases hs
    exact h.setThread (h.indexed t) (h.priority_lt t) rfl fun _ => rfl
  | setCurrent cpu t =>
    cases hs
    exact ⟨h.indexed, h.priority_lt, h.mem, h.nodup, h.marks⟩

/-- The queues can be relied on: every bitmap names the lists that are not empty, and every processor finds the first thread of the best priority of its own and the common queue. -/
structure QueuesExact (cfg : SmpConfig) (s : SmpKernel) : Prop where
  group : ∀ id, ¬ cfg.Large → ∀ p < 32,
    ((s.queue id).priorityGroup.getLsbD p = true ↔ (s.queue id).priorityTable p ≠ [])
  table : ∀ id, cfg.Large → ∀ p < 256,
    (((s.queue id).readyTable (p / 8)).getLsbD (p % 8) = true ↔ (s.queue id).priorityTable p ≠ [])
  groups : ∀ id, cfg.Large → ∀ n < 32,
    ((s.queue id).priorityGroup.getLsbD n = true ↔ ∃ p, p / 8 = n ∧ (s.queue id).priorityTable p ≠ [])
  highest : ∀ cpu outside, (∃ p, (s.queue .global).priorityTable p ≠ [] ∨ (s.queue (.cpu cpu)).priorityTable p ≠ []) →
    ∃ t p id, getHighestPriorityThread cfg s cpu outside = (some t, p) ∧ (id = .global ∨ id = .cpu cpu) ∧
      ((s.queue id).priorityTable p).head? = some t ∧
      ∀ q, (s.queue .global).priorityTable q ≠ [] ∨ (s.queue (.cpu cpu)).priorityTable q ≠ [] → p ≤ q

theorem QueuesInv.readySet_lt (h : QueuesInv cfg s) {id : QueueId} {p : Nat} (hp : p ∈ (s.queue id).readySet) :
    p < 256 := by
  obtain ⟨t, rest, hlist⟩ := List.exists_cons_of_ne_nil hp
  have hmem : t ∈ (s.queue id).priorityTable p := by
    rw [hlist]
    exact List.mem_cons_self
  rw [(h.mem id p t hmem).2]
  exact lt_of_lt_of_le (h.priority_lt t) cfg.priorityMax_le

theorem QueuesInv.best (h : QueuesInv cfg s) (id : QueueId) (outside : BitVec 8) :
    (s.queue id).readySet = ∅ ∧ 256 ≤ (highestReadyPriority cfg (s.queue id) outside).toNat ∨
      IsLeast (s.queue id).readySet (highestReadyPriority cfg (s.queue id) outside).toNat := by
  by_cases hempty : (s.queue id).readySet = ∅
  · exact .inl ⟨hempty, highestReadyPriority_empty ((marks_eq_zero_iff (h.marks id)).2 hempty) outside⟩
  · exact .inr (highestReadyPriority_isLeast (h.marks id) hempty outside)

theorem QueuesInv.best_of_le (h : QueuesInv cfg s) {id id' : QueueId} {out out' : BitVec 8}
    (hne : (s.queue id).readySet ≠ ∅ ∨ (s.queue id').readySet ≠ ∅)
    (hle : (highestReadyPriority cfg (s.queue id) out).toNat ≤ (highestReadyPriority cfg (s.queue id') out').toNat) :
    IsLeast ((s.queue id).readySet ∪ (s.queue id').readySet) (highestReadyPriority cfg (s.queue id) out).toNat ∧
      (highestReadyPriority cfg (s.queue id) out).toNat ∈ (s.queue id).readySet := by
  have hbest' := h.best id' out'
  rcases h.best id out with ⟨hempty, hlarge⟩ | hleast
  · rcases hbest' with ⟨hempty', -⟩ | hleast'
    · exact absurd hempty (hne.resolve_right (not_not.2 hempty'))
    · have hlt := h.readySet_lt hleast'.1
      omega
  · refine ⟨⟨.inl hleast.1, fun p hp => ?_⟩, hleast.1⟩
    rcases hp with hp | hp
    · exact hleast.2 hp
    · rcases hbest' with ⟨hempty', -⟩ | hleast'
      · rw [hempty'] at hp
        exact hp.elim
      · exact hle.trans (hleast'.2 hp)

theorem QueuesInv.highest (h : QueuesInv cfg s) (cpu : Nat) (outside : QueueId → BitVec 8)
    (hne : ∃ p, (s.queue .global).priorityTable p ≠ [] ∨ (s.queue (.cpu cpu)).priorityTable p ≠ []) :
    ∃ t p id, getHighestPriorityThread cfg s cpu outside = (some t, p) ∧ (id = .global ∨ id = .cpu cpu) ∧
      ((s.queue id).priorityTable p).head? = some t ∧
      ∀ q, (s.queue .global).priorityTable q ≠ [] ∨ (s.queue (.cpu cpu)).priorityTable q ≠ [] → p ≤ q := by
  obtain ⟨r, hr⟩ := hne
  have hsets : (s.queue .global).readySet ≠ ∅ ∨ (s.queue (.cpu cpu)).readySet ≠ ∅ := by
    rcases hr with hr | hr
    · exact .inl (Set.nonempty_iff_ne_empty.1 ⟨r, hr⟩)
    · exact .inr (Set.nonempty_iff_ne_empty.1 ⟨r, hr⟩)
  have hguard : ¬ (cfg.Large ∧ (s.queue .global).priorityGroup = 0 ∧ (s.queue (.cpu cpu)).priorityGroup = 0) := by
    rintro ⟨-, hglobal, hlocal⟩
    rw [marks_eq_zero_iff (h.marks _)] at hglobal hlocal
    exact hsets.elim (absurd hglobal) (absurd hlocal)
  unfold getHighestPriorityThread
  rw [if_neg hguard]
  dsimp only
  split_ifs with hlt
  · rw [BitVec.lt_def] at hlt
    obtain ⟨hleast, hmem⟩ := h.best_of_le hsets hlt.le
    obtain ⟨t, rest, hlist⟩ := List.exists_cons_of_ne_nil hmem
    have hhead := congrArg List.head? hlist
    exact ⟨t, _, .global, by rw [hhead]; rfl, .inl rfl, hhead, fun q hq => hleast.2 hq⟩
  · rw [BitVec.lt_def, not_lt] at hlt
    obtain ⟨hleast, hmem⟩ := h.best_of_le hsets.symm hlt
    obtain ⟨t, rest, hlist⟩ := List.exists_cons_of_ne_nil hmem
    have hhead := congrArg List.head? hlist
    exact ⟨t, _, .cpu cpu, by rw [hhead]; rfl, .inr rfl, hhead, fun q hq => hleast.2 hq.symm⟩

theorem QueuesInv.exact (h : QueuesInv cfg s) : QueuesExact cfg s := by
  refine ⟨fun id hsmall p hp => ?_, fun id hlarge p hp => ?_, fun id hlarge n hn => ?_, h.highest⟩
  · have hflat := h.marks id
    rw [ReadyQueue.Marks, if_neg hsmall] at hflat
    exact hflat.bit p hp
  · have hlevels := h.marks id
    rw [ReadyQueue.Marks, if_pos hlarge] at hlevels
    exact hlevels.bit p (by omega)
  · have hlevels := h.marks id
    rw [ReadyQueue.Marks, if_pos hlarge] at hlevels
    rw [hlevels.group n hn, ne_eq, hlevels.table_eq_zero_iff hn]
    constructor
    · intro hsome
      push Not at hsome
      obtain ⟨j, hj, hmem⟩ := hsome
      exact ⟨8 * n + j, by omega, hmem⟩
    · rintro ⟨p, rfl, hmem⟩ hnone
      refine hnone (p % 8) (by omega) ?_
      rw [show 8 * (p / 8) + p % 8 = p by omega]
      exact hmem

/-- The runs of the ready queues, each step of which meets `ok`. -/
abbrev SmpRun (cfg : SmpConfig) (setup : SmpSetup cfg) (ok : SmpKernel → SmpOp → Prop) :
    List SmpEvent → SmpKernel → Prop :=
  Transition.Run (stepSmp cfg) ok (.boot setup)

variable {setup : SmpSetup cfg} {trace : List SmpEvent}

/-- In every run in which the table of the common queue answers for that of the processor whenever the last thread of a priority that is bound to a processor is removed. -/
theorem queuesExact_of_run (hrun : SmpRun cfg setup (GroupAgrees cfg) trace s) : QueuesExact cfg s :=
  (hrun.state_invariant (I := QueuesInv cfg) (.boot setup) fun _ _ _ _ h hok hs => h.step hok hs).exact

theorem exists_smpRun (setup : SmpSetup cfg) (ok : SmpKernel → SmpOp → Prop) [∀ s op, Decidable (ok s op)]
    (ops : List SmpOp) (found : List SmpEvent → SmpKernel → Bool)
    (h : ((Transition.exec (stepSmp cfg) ok (.boot setup) ops).any fun r => found r.1 r.2) = true) :
    ∃ trace s, SmpRun cfg setup ok trace s ∧ found trace s = true :=
  Transition.exists_run_of_exec ops found h

def twoCpus : SmpConfig := ⟨⟨64, by decide⟩, 2⟩

/-- Threads 0 and 1 are bound to processor 0, with the priorities 3 and 4; all others are not bound and have priority 5. -/
def boundPair : SmpSetup twoCpus where
  priority t := if t = 0 then 3 else if t = 1 then 4 else 5
  priority_lt t := by
    change _ < 64
    split_ifs <;> omega
  bindCpu t := if t < 2 then 0 else 2
  bindCpu_le t := by
    change _ ≤ 2
    split_ifs <;> omega
  currentThread cpu := 8 + cpu

/-- A bound thread is removed while the common queue is empty and its own processor has no other thread. -/
theorem queuesExact_of_run_bound : ∃ trace s, SmpRun twoCpus boundPair (GroupAgrees twoCpus) trace s ∧
    trace = [.ipi 1, .ipi 2] ∧ getHighestPriorityThread twoCpus s 0 (fun _ => 0xFF) = (some 2, 5) ∧
      QueuesExact twoCpus s := by
  obtain ⟨trace, s, hrun, hfound⟩ := exists_smpRun boundPair (GroupAgrees twoCpus)
    [.insert 1 0, .remove 0, .insert 0 2] (fun trace s => decide (trace = [.ipi 1, .ipi 2] ∧
      getHighestPriorityThread twoCpus s 0 (fun _ => 0xFF) = (some 2, 5))) (by decide +kernel)
  obtain ⟨htrace, hhighest⟩ := of_decide_eq_true hfound
  exact ⟨trace, s, hrun, htrace, hhighest, queuesExact_of_run hrun⟩

/-- The common queue is empty: with one of the two bound threads the group of the other is cleared, and the processor stays with the thread it has. The common queue has a thread of the same group: the group of the processor stays set when its last thread is gone. -/
theorem queuesExact_fails :
    (∃ trace s, SmpRun twoCpus boundPair (fun _ _ => True) trace s ∧ trace = [] ∧
      (s.queue (.cpu 0)).priorityTable 4 = [1] ∧ (s.queue (.cpu 0)).priorityGroup = 0 ∧
      getHighestPriorityThread twoCpus s 0 (fun _ => 0) = (some 8, 5) ∧ ¬ QueuesExact twoCpus s) ∧
    ∃ trace s, SmpRun twoCpus boundPair (fun _ _ => True) trace s ∧ trace = [.ipi 2] ∧
      (∀ p ∈ List.range 64, (s.queue (.cpu 0)).priorityTable p = []) ∧ (s.queue (.cpu 0)).priorityGroup = 1 := by
  constructor
  · obtain ⟨trace, s, hrun, hfound⟩ := exists_smpRun boundPair (fun _ _ => True)
      [.insert 0 0, .insert 0 1, .remove 0] (fun trace s => decide (trace = [] ∧
        (s.queue (.cpu 0)).priorityTable 4 = [1] ∧ (s.queue (.cpu 0)).priorityGroup = 0 ∧
        getHighestPriorityThread twoCpus s 0 (fun _ => 0) = (some 8, 5))) (by decide +kernel)
    obtain ⟨htrace, hlist, hgroup, hhighest⟩ := of_decide_eq_true hfound
    refine ⟨trace, s, hrun, htrace, hlist, hgroup, hhighest, fun hexact => ?_⟩
    have hbit := (hexact.groups (.cpu 0) (by decide) 0 (by decide)).2 ⟨4, by decide, by rw [hlist]; decide⟩
    rw [hgroup] at hbit
    simp at hbit
  · obtain ⟨trace, s, hrun, hfound⟩ := exists_smpRun boundPair (fun _ _ => True)
      [.insert 0 0, .insert 0 2, .remove 0] (fun trace s => decide (trace = [.ipi 2] ∧
        (∀ p ∈ List.range 64, (s.queue (.cpu 0)).priorityTable p = []) ∧ (s.queue (.cpu 0)).priorityGroup = 1)) (by decide +kernel)
    exact ⟨trace, s, hrun, of_decide_eq_true hfound⟩

end RtThread.Smp
