import RtThread.Kernel.Refinement

/-!
# The ready lists and their bitmap

What the invariant says of the ready queue in every state the kernel can reach, in the terms of `scheduler.c`.
-/

namespace RtThread

variable {cfg : Config} {k : Kernel} {t : ThreadId}

/-- The ready queue in order. The running thread is ready without being queued: `rt_schedule` takes it out of its list when it switches to it. -/
structure ReadyLists (cfg : Config) (k : Kernel) : Prop where
  /-- At most 32 priorities: the bit of a priority is set iff its list is not empty. -/
  bit : ¬ cfg.Large → ∀ p < 32, k.group.getLsbD p = true ↔ k.tlist (.ready p) ≠ []
  /-- More than 32: the bits of a priority in the group and in its byte of the table are both set iff its list is not empty. -/
  bits : cfg.Large → ∀ p < 256, (k.group.getLsbD (p / 8) = true ∧ (k.readyTable (p / 8)).getLsbD (p % 8) = true) ↔
    k.tlist (.ready p) ≠ []
  /-- The group bit of a byte is set iff the byte is not zero. -/
  groupBit : cfg.Large → ∀ n < 32, k.group.getLsbD n = true ↔ k.readyTable n ≠ 0
  /-- A ready thread that is not running is linked exactly once, in the list of its current priority. -/
  linked : ∀ t, (k.thread t).stat = .ready → k.current ≠ some t →
    ∀ head, (k.tlist head).count t = if head = .ready (k.thread t).currentPriority then 1 else 0
  running : ∀ t, k.current = some t → ∀ p, t ∉ k.tlist (.ready p)
  onlyReady : ∀ t p, t ∈ k.tlist (.ready p) → (k.thread t).stat = .ready

theorem ListsInv.linked_once (h : ListsInv cfg k) (hstat : (k.thread t).stat = .ready)
    (hmem : t ∈ k.tlist (.ready (k.thread t).currentPriority)) (head : Head) :
    (k.tlist head).count t = if head = .ready (k.thread t).currentPriority then 1 else 0 := by
  split_ifs with hhead
  · rw [hhead]
    rw [(h.nodup _).count, if_pos hmem]
  · refine List.count_eq_zero_of_not_mem fun hother => ?_
    rcases head with p | _ | o
    · exact hhead (congrArg Head.ready (h.ready p t hother).2.symm)
    · exact h.not_defunct (by simp [hstat]) hother
    · exact h.not_suspend (by simp [hstat]) o hother

theorem SchedInv.readyLists (h : SchedInv cfg k) : ReadyLists cfg k := by
  have hbitmap := h.lists.bitmap
  unfold ReadyBitmap at hbitmap
  constructor
  · intro hsmall p hp
    rw [if_neg hsmall] at hbitmap
    exact hbitmap.bit p hp
  · intro hlarge p hp
    rw [if_pos hlarge] at hbitmap
    exact hbitmap.both_iff hp
  · intro hlarge n hn
    rw [if_pos hlarge] at hbitmap
    exact hbitmap.group n hn
  · exact fun t hstat hcur head => h.lists.linked_once hstat (h.complete t hstat hcur) head
  · exact h.running
  · exact fun t p hmem => (h.lists.ready p t hmem).1

/-- In every state of every run the ready lists, the bitmap and the status of the threads agree, in both layouts. -/
theorem readyLists_of_run {setup : Setup cfg} {ok : Kernel → Op → Prop} {trace : List Event}
    (hrun : KernelRun ok setup trace k) : ReadyLists cfg k :=
  hrun.inv.readyLists

/-- An idle thread and a thread of higher priority; the idle thread starts it and is preempted. -/
theorem readyLists_of_run_preempted : ∃ trace k, KernelRun (fun _ _ => True) (.ofPriorities [31, 20]) trace k ∧
    k.current = some 1 ∧ (k.thread 0).stat = .ready ∧ ReadyLists ⟨32, by decide⟩ k := by
  obtain ⟨trace, k, hrun, hfound⟩ := exists_kernelRun (.ofPriorities [31, 20]) (fun _ _ => True) [.startup 0, .schedulerStart, .startup 1]
    (fun _ k => decide (k.current = some 1 ∧ (k.thread 0).stat = .ready)) (by decide +kernel)
  obtain ⟨hcur, hstat⟩ := of_decide_eq_true hfound
  exact ⟨trace, k, hrun, hcur, hstat, readyLists_of_run hrun⟩

/-- The running thread has the status of a ready thread and is in no ready list. -/
theorem running_ready_unlinked : ∃ trace k, KernelRun (fun _ _ => True) (.ofPriorities [31]) trace k ∧
    (k.thread 0).stat = .ready ∧ 0 ∉ k.tlist (.ready (k.thread 0).currentPriority) := by
  obtain ⟨trace, k, hrun, hfound⟩ := exists_kernelRun (.ofPriorities [31]) (fun _ _ => True) [.startup 0, .schedulerStart]
    (fun _ k => decide ((k.thread 0).stat = .ready ∧ 0 ∉ k.tlist (.ready (k.thread 0).currentPriority)))
    (by decide +kernel)
  exact ⟨trace, k, hrun, of_decide_eq_true hfound⟩

end RtThread
