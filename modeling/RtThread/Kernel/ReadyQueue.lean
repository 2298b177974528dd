import RtThread.Kernel.Lists

/-!
# The ready queue

Every ready thread other than the running one is in the ready list of its priority, and the running thread is in none. `rt_schedule` picks a thread of the least priority number whose list is not empty; what it can do to the state is listed once, in `Schedules`.
-/

namespace RtThread

open Bitmap

variable {cfg : Config} {k k' : Kernel} {t : ThreadId}

structure SchedInv (cfg : Config) (k : Kernel) : Prop where
  lists : ListsInv cfg k
  complete : ∀ t, (k.thread t).stat = .ready → k.current ≠ some t → t ∈ k.tlist (.ready (k.thread t).currentPriority)
  running : ∀ t, k.current = some t → ∀ p, t ∉ k.tlist (.ready p)

theorem SchedInv.of_local (h : SchedInv cfg k) (hlocal : Local t k k') (hlists : ListsInv cfg k')
    (hself : (k'.thread t).stat = .ready → k.current ≠ some t →
      t ∈ k'.tlist (.ready (k'.thread t).currentPriority))
    (hrunning : k.current = some t → ∀ p, t ∉ k'.tlist (.ready p)) : SchedInv cfg k' where
  lists := hlists
  complete u hstat hcur := by
    rw [hlocal.current] at hcur
    by_cases hut : u = t
    · subst hut
      exact hself hstat hcur
    · rw [hlocal.thread u hut] at hstat ⊢
      exact (hlocal.mem u hut _).2 (h.complete u hstat hcur)
  running u hcur p := by
    rw [hlocal.current] at hcur
    by_cases hut : u = t
    · subst hut
      exact hrunning hcur p
    · rw [hlocal.mem u hut]
      exact h.running u hcur p

theorem SchedInv.running_unlinked (h : SchedInv cfg k) (hcur : k.current = some t)
    (hstat : (k.thread t).stat = .ready) : Unlinked k t := by
  rintro (p | _ | o)
  · exact h.running t hcur p
  · exact h.lists.not_defunct (by simp [hstat])
  · exact h.lists.not_suspend (by simp [hstat]) o

/-! ## Find first set -/

theorem lowestBit_isLowest : ∀ byte : BitVec 8, byte ≠ 0 → IsLowest byte (lowestBit byte) := by
  unfold IsLowest
  decide +kernel

theorem isLowest_of_byte {v : BitVec 32} {offset i : Nat} (hi : IsLowest (v.extractLsb' offset 8) i)
    (hbelow : ∀ j < offset, v.getLsbD j = false) : IsLowest v (offset + i) := by
  have hi8 : i < 8 := BitVec.lt_of_getLsbD hi.1
  have hbyte (j : Nat) (hj : j < 8) : (v.extractLsb' offset 8).getLsbD j = v.getLsbD (offset + j) := by
    simp [hj]
  refine ⟨by rw [← hbyte i hi8]; exact hi.1, fun j hj => ?_⟩
  by_cases hlow : j < offset
  · exact hbelow j hlow
  · have hclear := hi.2 (j - offset) (by omega)
    rwa [hbyte _ (by omega), show offset + (j - offset) = j by omega] at hclear

theorem below_of_byte_eq_zero {v : BitVec 32} {offset : Nat} (hzero : v.extractLsb' offset 8 = 0)
    (hbelow : ∀ j < offset, v.getLsbD j = false) : ∀ j < offset + 8, v.getLsbD j = false := by
  intro j hj
  by_cases hlow : j < offset
  · exact hbelow j hlow
  · have hclear := Bitmap.eq_zero_iff.1 hzero (j - offset) (by omega)
    rwa [BitVec.getLsbD_extractLsb', show offset + (j - offset) = j by omega,
      decide_eq_true (show j - offset < 8 by omega), Bool.true_and] at hclear

theorem rtFfs_isLowest {v : BitVec 32} (hv : v ≠ 0) : IsLowest v (rtFfs v - 1) := by
  have h0 : ∀ j < 0, v.getLsbD j = false := fun j hj => absurd hj (Nat.not_lt_zero j)
  unfold rtFfs
  rw [if_neg hv]
  split_ifs with hbyte0 hbyte1 hbyte2
  · simpa using isLowest_of_byte (lowestBit_isLowest _ hbyte0) h0
  · have h8 := below_of_byte_eq_zero (not_not.1 hbyte0) h0
    simpa [Nat.add_comm] using isLowest_of_byte (lowestBit_isLowest _ hbyte1) h8
  · have h16 := below_of_byte_eq_zero (not_not.1 hbyte1) (below_of_byte_eq_zero (not_not.1 hbyte0) h0)
    simpa [Nat.add_comm] using isLowest_of_byte (lowestBit_isLowest _ hbyte2) h16
  · have h24 := below_of_byte_eq_zero (not_not.1 hbyte2)
      (below_of_byte_eq_zero (not_not.1 hbyte1) (below_of_byte_eq_zero (not_not.1 hbyte0) h0))
    have hbyte3 : v.extractLsb' 24 8 ≠ 0 := by
      intro hzero
      exact hv (Bitmap.eq_zero_iff.2 (below_of_byte_eq_zero hzero h24))
    simpa [Nat.add_comm] using isLowest_of_byte (lowestBit_isLowest _ hbyte3) h24

theorem rtFfs_pos {v : BitVec 32} (hv : v ≠ 0) : 0 < rtFfs v := by
  unfold rtFfs
  rw [if_neg hv]
  split_ifs <;> omega

theorem byte_getLsbD_setWidth (byte : BitVec 8) {i : Nat} (hi : i < 32) :
    (byte.setWidth 32).getLsbD i = byte.getLsbD i := by
  simp [hi]

theorem byte_setWidth_ne_zero {byte : BitVec 8} (hbyte : byte ≠ 0) : byte.setWidth 32 ≠ 0 := by
  intro hzero
  refine hbyte (Bitmap.eq_zero_iff.2 fun i hi => ?_)
  rw [← byte_getLsbD_setWidth byte (by omega)]
  exact Bitmap.eq_zero_iff.1 hzero i (by omega)

theorem rtFfs_byte_isLowest {byte : BitVec 8} (hbyte : byte ≠ 0) :
    IsLowest byte (rtFfs (byte.setWidth 32) - 1) := by
  obtain ⟨hset, hclear⟩ := rtFfs_isLowest (byte_setWidth_ne_zero hbyte)
  have hlt := BitVec.lt_of_getLsbD hset
  refine ⟨by rwa [← byte_getLsbD_setWidth byte hlt], fun j hj => ?_⟩
  rw [← byte_getLsbD_setWidth byte (by omega)]
  exact hclear j hj

/-! ## The highest ready priority -/

theorem ListsInv.group_eq_zero_iff (h : ListsInv cfg k) : k.group = 0 ↔ readySet k = ∅ := by
  have hbitmap := h.bitmap
  unfold ReadyBitmap at hbitmap
  split_ifs at hbitmap
  · exact hbitmap.eq_zero_iff
  · exact hbitmap.eq_zero_iff

theorem ListsInv.highest_isLeast (h : ListsInv cfg k) (hgroup : k.group ≠ 0) :
    IsLeast (readySet k) (highestReadyPriority cfg k) := by
  have hbitmap := h.bitmap
  unfold ReadyBitmap at hbitmap
  unfold highestReadyPriority
  split_ifs at hbitmap ⊢ with hlarge
  · have hlow := rtFfs_isLowest hgroup
    have hbyte : k.readyTable (rtFfs k.group - 1) ≠ 0 :=
      (hbitmap.group _ (BitVec.lt_of_getLsbD hlow.1)).1 hlow.1
    have hleast := hbitmap.isLeast hlow (rtFfs_byte_isLowest hbyte)
    have hpos := rtFfs_pos (byte_setWidth_ne_zero hbyte)
    dsimp only
    rw [Nat.shiftLeft_eq, Nat.mul_comm, Nat.add_sub_assoc (by omega)]
    exact hleast
  · exact hbitmap.isLeast (rtFfs_isLowest hgroup)

theorem ListsInv.highest_thread (h : ListsInv cfg k) (hgroup : k.group ≠ 0) :
    ∃ next, getHighestPriorityThread cfg k = (some next, (k.thread next).currentPriority) ∧
      next ∈ k.tlist (.ready (k.thread next).currentPriority) ∧ IsLeast (readySet k) (k.thread next).currentPriority := by
  have hleast := h.highest_isLeast hgroup
  obtain ⟨next, rest, hlist⟩ := List.exists_cons_of_ne_nil hleast.1
  have hmem : next ∈ k.tlist (.ready (highestReadyPriority cfg k)) := by simp [hlist]
  have hpriority := (h.ready _ next hmem).2
  refine ⟨next, ?_, ?_, ?_⟩
  · simp [getHighestPriorityThread, hlist, hpriority]
  · rwa [hpriority]
  · rwa [hpriority]

/-! ## What `rt_schedule` can do -/

/-- The four outcomes of `rt_schedule`: it does nothing, or the running thread outranks every ready one and stays, or it gives the processor to the first thread of the highest ready priority, going back to its own ready list if it is still ready. -/
inductive Schedules (cfg : Config) (k : Kernel) : Kernel → Prop
  | nothing (h : k.current = none ∨ k.lockNest ≠ 0 ∨ readySet k = ∅) : Schedules cfg k k
  | stays (self : ThreadId) (hcur : k.current = some self) (hstat : (k.thread self).stat = .ready)
      (hleast : ∀ p ∈ readySet k, (k.thread self).currentPriority < p) :
      Schedules cfg k (rtScheduleRemoveThread cfg k self)
  | leaves (self next : ThreadId) (hcur : k.current = some self) (hstat : (k.thread self).stat ≠ .ready)
      (hnext : next ∈ k.tlist (.ready (k.thread next).currentPriority))
      (hleast : IsLeast (readySet k) (k.thread next).currentPriority) :
      Schedules cfg k (rtScheduleRemoveThread cfg { k with current := some next } next)
  | preempted (self next : ThreadId) (hcur : k.current = some self) (hstat : (k.thread self).stat = .ready)
      (hne : next ≠ self) (hnext : next ∈ k.tlist (.ready (k.thread next).currentPriority))
      (hleast : IsLeast (readySet k) (k.thread next).currentPriority)
      (hle : (k.thread next).currentPriority ≤ (k.thread self).currentPriority) :
      Schedules cfg k
        (rtScheduleRemoveThread cfg (rtScheduleInsertThread cfg { k with current := some next } self) next)

theorem SchedInv.schedules (h : SchedInv cfg k) : Schedules cfg k (rtSchedule cfg k) := by
  unfold rtSchedule
  cases hcur : k.current with
  | none => exact .nothing (.inl hcur)
  | some self =>
    dsimp only
    split_ifs with hrun
    · obtain ⟨next, heq, hnext, hleast⟩ := h.lists.highest_thread hrun.2
      have hne : next ≠ self := fun heq => h.running self hcur _ (heq ▸ hnext)
      rw [heq]
      dsimp only
      by_cases hstat : (k.thread self).stat = .ready
      · by_cases hlt : (k.thread self).currentPriority < (k.thread next).currentPriority
        · simp only [hstat, hlt, and_self, if_true, ne_eq, not_true_eq_false, if_false]
          exact .stays self hcur hstat fun p hp => lt_of_lt_of_le hlt (hleast.2 hp)
        · simp only [hstat, hlt, and_false, if_false, ne_eq, hne, not_false_eq_true, if_true, and_self]
          exact .preempted self next hcur hstat hne hnext hleast (not_lt.1 hlt)
      · simp only [hstat, false_and, if_false, ne_eq, hne, not_false_eq_true, if_true]
        exact .leaves self next hcur hstat hnext hleast
    · refine .nothing (.inr ?_)
      rw [not_and_or, not_not, h.lists.group_eq_zero_iff] at hrun
      exact hrun

theorem Schedules.objects (h : Schedules cfg k k') : SameObjects k k' := by
  cases h with
  | nothing => exact .refl k
  | stays self => exact (rtScheduleRemoveThread_local cfg k self).objects
  | leaves self next =>
    have hremove := (rtScheduleRemoveThread_local cfg { k with current := some next } next).objects
    exact ⟨hremove.sem, hremove.mutex, hremove.call, hremove.lockNest, hremove.interruptNest⟩
  | preempted self next =>
    have hinsert := (rtScheduleInsertThread_local cfg { k with current := some next } self).objects
    have hboth := hinsert.trans (rtScheduleRemoveThread_local cfg _ next).objects
    exact ⟨hboth.sem, hboth.mutex, hboth.call, hboth.lockNest, hboth.interruptNest⟩

theorem Schedules.thread (h : Schedules cfg k k') : k'.thread = k.thread := by
  cases h with
  | nothing => rfl
  | stays => simp
  | leaves => simp
  | preempted self next hcur hstat =>
    funext u
    rw [rtScheduleRemoveThread_thread]
    by_cases hu : u = self
    · subst hu
      rw [rtScheduleInsertThread_self, ← hstat]
    · rw [(rtScheduleInsertThread_local cfg _ self).thread u hu]

theorem SchedInv.schedule_tlist (h : SchedInv cfg k) (hk : Schedules cfg k k') {head : Head}
    (hhead : ∀ p, head ≠ .ready p) : k'.tlist head = k.tlist head := by
  have hkeep (u : ThreadId) (hu : (k.thread u).stat = .ready) : (k.tlist head).erase u = k.tlist head := by
    refine List.erase_of_not_mem ?_
    rcases head with p | _ | o
    · exact absurd rfl (hhead p)
    · exact h.lists.not_defunct (by simp [hu])
    · exact h.lists.not_suspend (by simp [hu]) o
  cases hk with
  | nothing => rfl
  | stays self hcur hstat => rw [rtScheduleRemoveThread_tlist, hkeep self hstat]
  | leaves self next _ _ hnext =>
    rw [rtScheduleRemoveThread_tlist]
    exact hkeep next (h.lists.ready _ next hnext).1
  | preempted self next _ _ _ hnext =>
    rw [rtScheduleRemoveThread_tlist, rtScheduleInsertThread_tlist, if_neg (fun hc => hhead _ hc.2)]
    exact hkeep next (h.lists.ready _ next hnext).1

theorem SchedInv.dispatch {next : ThreadId} (hlists : ListsInv cfg k)
    (hcomplete : ∀ t, (k.thread t).stat = .ready → t ∈ k.tlist (.ready (k.thread t).currentPriority))
    (hcur : k.current = some next) : SchedInv cfg (rtScheduleRemoveThread cfg k next) := by
  have hlocal := rtScheduleRemoveThread_local cfg k next
  have hremoved := hlists.removeThread next
  refine ⟨hremoved, fun t hstat hne => ?_, fun t hrun p => ?_⟩
  · rw [hlocal.current, hcur] at hne
    rw [rtScheduleRemoveThread_thread] at hstat ⊢
    exact (hlocal.mem t (fun heq => hne (heq ▸ rfl)) _).2 (hcomplete t hstat)
  · rw [hlocal.current, hcur] at hrun
    cases hrun
    rw [rtScheduleRemoveThread_tlist]
    exact hlists.unlinked_erase next (.ready p)

theorem ListsInv.setCurrent (h : ListsInv cfg k) (current : Option ThreadId) :
    ListsInv cfg { k with current := current } :=
  ⟨h.thread, h.ready, h.defunct, h.suspend, h.suspend_unique, h.nodup, h.bitmap.congr rfl rfl fun _ => rfl⟩

theorem SchedInv.of_schedules (h : SchedInv cfg k) (hk : Schedules cfg k k') : SchedInv cfg k' := by
  cases hk with
  | nothing => exact h
  | stays self hcur hstat =>
    have hlocal := rtScheduleRemoveThread_local cfg k self
    refine h.of_local hlocal (h.lists.removeThread self) (fun _ hne => absurd hcur hne) fun _ p => ?_
    rw [rtScheduleRemoveThread_tlist]
    exact h.lists.unlinked_erase self (.ready p)
  | leaves self next hcur hstat _ _ =>
    refine SchedInv.dispatch (h.lists.setCurrent _) (fun t ht => ?_) rfl
    exact h.complete t ht fun heq => hstat (Option.some.inj (hcur.symm.trans heq) ▸ ht)
  | preempted self next hcur hstat hne hnext hleast hle =>
    have hun : Unlinked { k with current := some next } self := h.running_unlinked hcur hstat
    have hlocal := rtScheduleInsertThread_local cfg { k with current := some next } self
    have hlists := (h.lists.setCurrent (some next)).insertThread hun ((h.lists.thread self).scheduled (.inl hstat))
    refine SchedInv.dispatch hlists (fun t ht => ?_) hlocal.current
    by_cases hts : t = self
    · subst hts
      rw [rtScheduleInsertThread_self, rtScheduleInsertThread_tlist]
      simp [hne]
    · rw [hlocal.thread t hts] at ht ⊢
      refine (hlocal.mem t hts _).2 (h.complete t ht fun heq => hts ?_)
      exact Option.some.inj (heq.symm.trans hcur)

def Kernel.Highest (k : Kernel) : Prop :=
  ∀ self, k.current = some self → ∀ t, (k.thread t).stat = .ready →
    (k.thread self).currentPriority ≤ (k.thread t).currentPriority

theorem SchedInv.mem_readySet (h : SchedInv cfg k) (hstat : (k.thread t).stat = .ready) (hcur : k.current ≠ some t) :
    (k.thread t).currentPriority ∈ readySet k :=
  List.ne_nil_of_mem (h.complete t hstat hcur)

theorem SchedInv.highest (h : SchedInv cfg k) (hk : Schedules cfg k k') (hlock : k'.lockNest = 0) : k'.Highest := by
  intro self hcur t hstat
  have hunlocked : k.lockNest = 0 := hk.objects.lockNest ▸ hlock
  have hthread := hk.thread
  rw [hthread] at hstat ⊢
  have hleast {next : ThreadId} (hleast : IsLeast (readySet k) (k.thread next).currentPriority)
      (hne : k.current ≠ some t) : (k.thread next).currentPriority ≤ (k.thread t).currentPriority :=
    hleast.2 (h.mem_readySet hstat hne)
  cases hk with
  | nothing hcase =>
    by_cases hself : t = self
    · rw [hself]
    · have hmem := h.mem_readySet hstat (by rw [hcur]; simpa using Ne.symm hself)
      rcases hcase with hnone | hlocked | hempty
      · rw [hcur] at hnone
        cases hnone
      · exact absurd hunlocked hlocked
      · rw [hempty] at hmem
        cases hmem
  | stays self' hcur' hstat' hlt =>
    rw [(rtScheduleRemoveThread_local cfg k self').current, hcur'] at hcur
    obtain rfl := Option.some.inj hcur
    by_cases hself : t = self'
    · rw [hself]
    · exact (hlt _ (h.mem_readySet hstat (by rw [hcur']; simpa using Ne.symm hself))).le
  | leaves self' next hcur' hstat' _ hmin =>
    rw [(rtScheduleRemoveThread_local cfg _ next).current] at hcur
    obtain rfl := Option.some.inj hcur
    refine hleast hmin fun heq => hstat' ?_
    rwa [Option.some.inj (hcur'.symm.trans heq)]
  | preempted self' next hcur' hstat' _ _ hmin hle =>
    rw [(rtScheduleRemoveThread_local cfg _ next).current,
      (rtScheduleInsertThread_local cfg _ self').current] at hcur
    obtain rfl := Option.some.inj hcur
    by_cases hself : t = self'
    · rw [hself]
      exact hle
    · exact hleast hmin (by rw [hcur']; simpa using Ne.symm hself)

end RtThread
