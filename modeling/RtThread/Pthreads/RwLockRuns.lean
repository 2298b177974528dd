import RtThread.Lib.Census
import RtThread.Pthreads.RwLock

/-!
# Who holds a read-write lock, and who waits for it

The mutex and the conditions keep readers and writers apart, and the counters count. Where nobody holds the lock, a thread that waits is woken by one that is on its way: a writer by one that was woken before it, a reader by a writer too, since each will lock and unlock. A writer whose time has run out is on its way as well while it is counted, but leaves without a word.
-/

namespace RtThread

open Function Transition

/-! ## Phases -/

namespace RwPhase

/-- The thread is counted in `nwait`. -/
def counts (side : RwSide) : RwPhase → Bool
  | waiting side' _ | taking side' _ | suspended side' _ | relocking side' _ _ | relocked side' _ _ => decide (side' = side)
  | _ => false

def stalled (side : RwSide) : RwPhase → Bool
  | waiting side' _ | taking side' _ | suspended side' _ => decide (side' = side)
  | _ => false

def brings : RwSide → RwPhase → Bool
  | .writer, relocking .writer _ true | .writer, relocked .writer _ true | .writer, locked (.wrlock _) | .writer, signal => true
  | .reader, relocking _ _ true | .reader, relocked _ _ true | .reader, locked (.rdlock _) | .reader, locked (.wrlock _)
  | .reader, broadcast => true
  | _, _ => false

def unlocks : RwPhase → Bool
  | locking .unlock | locked .unlock => true
  | _ => false

theorem counts_of_stalled {side : RwSide} {p : RwPhase} (h : p.stalled side = true) : p.counts side = true := by
  cases p <;> simp_all [stalled, counts]

@[simp] theorem counts_wake (side : RwSide) (p : RwPhase) : p.wake.counts side = p.counts side := by
  cases p <;> rfl

@[simp] theorem unlocks_wake (p : RwPhase) : p.wake.unlocks = p.unlocks := by
  cases p <;> rfl

theorem stalled_of_wake {side : RwSide} {p : RwPhase} (h : p.wake.stalled side = true) : p.stalled side = true := by
  cases p <;> first | exact h | cases h

theorem brings_wake {side : RwSide} {p : RwPhase} (h : p.brings side = true) : p.wake.brings side = true := by
  cases p <;> first | exact h | (cases side <;> cases h)

end RwPhase

inductive PhaseMove : RwPhase → RwPhase → Prop
  | call (call : RwCall) : PhaseMove .out (.locking call)
  | lock (call : RwCall) : PhaseMove (.locking call) (.locked call)
  | relock (side : RwSide) (timed ok : Bool) : PhaseMove (.relocking side timed ok) (.relocked side timed ok)
  | tryrdlock : PhaseMove (.locked .tryrdlock) .leaving
  | trywrlock : PhaseMove (.locked .trywrlock) .leaving
  | wait (side : RwSide) (timed : Bool) : PhaseMove (.waiting side timed) (.taking side timed)
  | leave : PhaseMove .leaving .out

inductive RwStep (s : RwLock) : RwOp → RwLock → Prop
  | move {op : RwOp} {t : ThreadId} {p : RwPhase} (owner : Option ThreadId) (ht : op.thread = t) (hmove : PhaseMove (s.phase t) p)
      (hcall : p = .locking .unlock → op = .call t .unlock) : RwStep s op ({ s with owner }.setPhase t p)
  | readWait {t : ThreadId} {timed : Bool} (ht : s.phase t = .locked (.rdlock timed)) (hbusy : s.refcount < 0 ∨ s.nwait .writer > 0) :
      RwStep s (.run t) ((s.setNwait .reader (s.nwait .reader + 1)).setPhase t (.waiting .reader timed))
  | readHold {t : ThreadId} {call : RwCall} (ht : s.phase t = .locked call) (hcall : call ≠ .unlock) (hfree : 0 ≤ s.refcount) :
      RwStep s (.run t) (s.holdRead t)
  | writeWait {t : ThreadId} {timed : Bool} (ht : s.phase t = .locked (.wrlock timed)) (hbusy : s.refcount ≠ 0) :
      RwStep s (.run t) ((s.setNwait .writer (s.nwait .writer + 1)).setPhase t (.waiting .writer timed))
  | writeHold {t : ThreadId} {call : RwCall} (ht : s.phase t = .locked call) (hcall : call ≠ .unlock) (hfree : s.refcount = 0) :
      RwStep s (.run t) (s.holdWrite t)
  | unlock {t : ThreadId} {p : RwPhase} (ht : s.phase t = .locked .unlock)
      (hp : p = .signal ∧ 0 < s.nwait .writer ∨ p = .leaving ∧ 0 < s.nwait .writer ∧ (s.drop t).refcount ≠ 0 ∨
        s.nwait .writer = 0 ∧ (p = .broadcast ∨ p = .leaving ∧ s.nwait .reader = 0)) :
      RwStep s (.run t) ((s.drop t).setPhase t p)
  | resume {t : ThreadId} {side : RwSide} {timed ok : Bool} (ht : s.phase t = .relocked side timed ok) :
      RwStep s (.run t) ((s.setNwait side (s.nwait side - 1)).setPhase t (if ok = true then .locked (side.call timed) else .leaving))
  | signal {t : ThreadId} (ht : s.phase t = .signal) :
      RwStep s (.wake t) (((s.setCond .writer (s.cond .writer).release.2).resume (s.cond .writer).release.1.toList).setPhase t .leaving)
  | broadcast {t : ThreadId} (ht : s.phase t = .broadcast) {woken : List ThreadId} {sem : CondSem}
      (hwoken : condBroadcast (s.cond .reader).value (s.cond .reader).suspendThread = (woken, sem)) :
      RwStep s (.wake t) (((s.setCond .reader sem).resume woken).setPhase t .leaving)
  | take {t : ThreadId} {side : RwSide} {timed : Bool} (ht : s.phase t = .taking side timed) (hvalue : 0 < (s.cond side).value) :
      RwStep s (.take t)
        ((s.setCond side { s.cond side with value := (s.cond side).value - 1 }).setPhase t (.relocking side timed true))
  | suspend {t : ThreadId} {side : RwSide} {timed : Bool} (ht : s.phase t = .taking side timed) (hvalue : (s.cond side).value = 0) :
      RwStep s (.take t)
        ((s.setCond side { s.cond side with suspendThread := (s.cond side).suspendThread ++ [t] }).setPhase t (.suspended side timed))
  | timeout {t : ThreadId} {side : RwSide} (ht : s.phase t = .suspended side true) :
      RwStep s (.timeout t)
        ((s.setCond side { s.cond side with suspendThread := (s.cond side).suspendThread.erase t }).setPhase t (.relocking side true false))

variable {s s' : RwLock} {op : RwOp} {t u : ThreadId} {side : RwSide} {p : RwPhase}

theorem RwLock.drop_nwait : (s.drop t).nwait = s.nwait := by
  unfold RwLock.drop
  split_ifs <;> rfl

theorem RwLock.drop_phase : (s.drop t).phase = s.phase := by
  unfold RwLock.drop
  split_ifs <;> rfl

theorem RwLock.drop_cond : (s.drop t).cond = s.cond := by
  unfold RwLock.drop
  split_ifs <;> rfl

theorem RwStep.of_run {call : RwCall} (ht : s.phase t = .locked call) : RwStep s (.run t) (s.run t call) := by
  cases call with
  | rdlock timed =>
    rw [RwLock.run]
    split_ifs with hbusy
    · exact .readWait ht hbusy
    · exact .readHold ht (fun hno => nomatch hno) (Int.not_lt.1 (not_or.1 hbusy).1)
  | tryrdlock =>
    rw [RwLock.run]
    split_ifs with hbusy
    · exact .move s.owner rfl (ht ▸ .tryrdlock) fun hno => nomatch hno
    · exact .readHold ht (fun hno => nomatch hno) (Int.not_lt.1 (not_or.1 hbusy).1)
  | wrlock timed =>
    rw [RwLock.run]
    split_ifs with hbusy
    · exact .writeWait ht hbusy
    · exact .writeHold ht (fun hno => nomatch hno) (Decidable.of_not_not hbusy)
  | trywrlock =>
    rw [RwLock.run]
    split_ifs with hbusy
    · exact .move s.owner rfl (ht ▸ .trywrlock) fun hno => nomatch hno
    · exact .writeHold ht (fun hno => nomatch hno) (Decidable.of_not_not hbusy)
  | unlock =>
    rw [RwLock.run, RwLock.drop_nwait]
    split_ifs with hwriters hzero hreaders
    · exact .unlock ht (.inl ⟨rfl, hwriters⟩)
    · exact .unlock ht (.inr (.inl ⟨rfl, hwriters, hzero⟩))
    · exact .unlock ht (.inr (.inr ⟨by omega, .inl rfl⟩))
    · exact .unlock ht (.inr (.inr ⟨by omega, .inr ⟨rfl, by omega⟩⟩))

theorem RwStep.of_next (hs : s.next op = some s') : RwStep s op s' := by
  cases op with
  | call t call =>
    rw [RwLock.next] at hs
    split at hs
    · rename_i ht
      obtain rfl := Option.some.inj hs
      exact .move s.owner rfl (ht ▸ .call call) fun heq => by rw [RwPhase.locking.inj heq]
    · cases hs
  | lock t =>
    rw [RwLock.next] at hs
    split_ifs at hs
    split at hs
    · rename_i call ht
      obtain rfl := Option.some.inj hs
      exact .move (some t) rfl (ht ▸ .lock call) fun hno => nomatch hno
    · rename_i side timed ok ht
      obtain rfl := Option.some.inj hs
      exact .move (some t) rfl (ht ▸ .relock side timed ok) fun hno => nomatch hno
    · cases hs
  | run t =>
    rw [RwLock.next] at hs
    split at hs
    · rename_i call ht
      obtain rfl := Option.some.inj hs
      exact .of_run ht
    · rename_i side timed ok ht
      obtain rfl := Option.some.inj hs
      exact .resume ht
    · cases hs
  | wake t =>
    rw [RwLock.next] at hs
    split at hs
    · rename_i ht
      obtain rfl := Option.some.inj hs
      exact .signal ht
    · rename_i ht
      obtain rfl := Option.some.inj hs
      exact .broadcast ht rfl
    · cases hs
  | release t =>
    rw [RwLock.next] at hs
    split at hs
    · rename_i side timed ht
      obtain rfl := Option.some.inj hs
      exact .move none rfl (ht ▸ .wait side timed) fun hno => nomatch hno
    · rename_i ht
      obtain rfl := Option.some.inj hs
      exact .move none rfl (ht ▸ .leave) fun hno => nomatch hno
    · cases hs
  | take t =>
    rw [RwLock.next] at hs
    split at hs
    · rename_i side timed ht
      dsimp only at hs
      split_ifs at hs with hvalue
      · obtain rfl := Option.some.inj hs
        exact .take ht hvalue
      · obtain rfl := Option.some.inj hs
        exact .suspend ht (Nat.eq_zero_of_not_pos hvalue)
    · cases hs
  | timeout t =>
    rw [RwLock.next] at hs
    split at hs
    · rename_i side ht
      obtain rfl := Option.some.inj hs
      exact .timeout ht
    · cases hs

/-! ## Who holds the lock -/

structure RwHolders (s : RwLock) : Prop where
  holders : s.writers = [] ∧ s.refcount = s.readers.length ∨ ∃ w, s.writers = [w] ∧ s.readers = [] ∧ s.refcount = -1
  unlocking : ∀ t, (s.phase t).unlocks = true → t ∈ s.readers ∨ t ∈ s.writers

theorem PhaseMove.unlocks {p p' : RwPhase} (h : PhaseMove p p') (hp : p'.unlocks = true) : p.unlocks = true ∨ p' = .locking .unlock := by
  cases h with
  | call call => cases call <;> first | exact .inr rfl | cases hp
  | lock call => cases call <;> first | exact .inl rfl | cases hp
  | _ => cases hp

theorem RwHolders.unlocking_update (h : RwHolders s) {readers writers : List ThreadId}
    (hkeep : ∀ u, u ≠ t → u ∈ s.readers ∨ u ∈ s.writers → u ∈ readers ∨ u ∈ writers)
    (hp : p.unlocks = true → t ∈ readers ∨ t ∈ writers) :
    ∀ u, (update s.phase t p u).unlocks = true → u ∈ readers ∨ u ∈ writers := by
  intro u hu
  by_cases hut : u = t
  · subst hut
    rw [update_self] at hu
    exact hp hu
  · rw [update_of_ne hut] at hu
    exact hkeep u hut (h.unlocking u hu)

theorem RwHolders.zero (h : RwHolders s) (hzero : s.refcount = 0) : s.readers = [] ∧ s.writers = [] := by
  rcases h.holders with ⟨hwriters, hreaders⟩ | ⟨w, -, -, hno⟩
  · exact ⟨List.eq_nil_of_length_eq_zero (by omega), hwriters⟩
  · omega

theorem RwHolders.drop (h : RwHolders s) (ht : t ∈ s.readers ∨ t ∈ s.writers) :
    ((s.drop t).writers = [] ∧ (s.drop t).refcount = (s.drop t).readers.length ∨
      ∃ w, (s.drop t).writers = [w] ∧ (s.drop t).readers = [] ∧ (s.drop t).refcount = -1) ∧
    ∀ u, u ≠ t → u ∈ s.readers ∨ u ∈ s.writers → u ∈ (s.drop t).readers ∨ u ∈ (s.drop t).writers := by
  rcases h.holders with ⟨hwriters, hcount⟩ | ⟨w, hwriters, hreaders, hcount⟩
  · have hmem : t ∈ s.readers := by
      rw [hwriters] at ht
      exact ht.resolve_right List.not_mem_nil
    have hpos := List.length_pos_of_mem hmem
    have hdrop : s.drop t = { s with refcount := s.refcount - 1, readers := s.readers.erase t } := if_pos (by omega)
    rw [hdrop]
    refine ⟨.inl ⟨hwriters, ?_⟩, fun u hut hu => ?_⟩
    · dsimp only
      rw [List.length_erase_of_mem hmem]
      omega
    · exact hu.imp_left fun hu => (List.mem_erase_of_ne hut).2 hu
  · have hmem : t = w := by
      rw [hwriters, hreaders] at ht
      simpa using ht
    have hdrop : s.drop t = { s with refcount := 0, writers := s.writers.erase t } := by
      rw [RwLock.drop, if_neg (by omega), if_pos hcount]
    rw [hdrop]
    refine ⟨.inl ⟨?_, ?_⟩, fun u hut hu => ?_⟩
    · dsimp only
      rw [hwriters, hmem, List.erase_cons_head]
    · dsimp only
      rw [hreaders]
      rfl
    · rw [hwriters, hreaders] at hu
      simp only [List.not_mem_nil, List.mem_singleton, false_or] at hu
      exact absurd (hu.trans hmem.symm) hut

theorem RwHolders.resumed (h : RwHolders s) (woken : List ThreadId) : ∀ u, ((s.resume woken).phase u).unlocks = true → u ∈ s.readers ∨ u ∈ s.writers := by
  intro u hu
  refine h.unlocking u ?_
  change (if u ∈ woken then (s.phase u).wake else s.phase u).unlocks = true at hu
  split_ifs at hu
  · rwa [RwPhase.unlocks_wake] at hu
  · exact hu

theorem RwHolders.step (h : RwHolders s) (hown : UnlocksOwn s op) (hs : RwStep s op s') : RwHolders s' := by
  cases hs with
  | move owner ht hmove hcall =>
    rename_i t p
    refine ⟨h.holders, h.unlocking_update (fun _ _ hu => hu) fun hp => ?_⟩
    rcases hmove.unlocks hp with hold | hnew
    · exact h.unlocking t hold
    · obtain rfl := hcall hnew
      exact hown
  | readWait ht hbusy => exact ⟨h.holders, h.unlocking_update (fun _ _ hu => hu) fun hno => nomatch hno⟩
  | readHold ht hcall hfree =>
    rename_i t call
    rcases h.holders with ⟨hwriters, hcount⟩ | ⟨w, -, -, hno⟩
    · refine ⟨.inl ⟨hwriters, ?_⟩, h.unlocking_update (fun u _ hu => hu.imp_left (List.mem_cons_of_mem _)) fun hno => nomatch hno⟩
      change s.refcount + 1 = ((t :: s.readers).length : Int)
      rw [hcount, List.length_cons]
      rfl
    · omega
  | writeWait ht hbusy => exact ⟨h.holders, h.unlocking_update (fun _ _ hu => hu) fun hno => nomatch hno⟩
  | writeHold ht hcall hfree =>
    rename_i t call
    obtain ⟨hreaders, hwriters⟩ := h.zero hfree
    refine ⟨.inr ⟨t, ?_, hreaders, rfl⟩, h.unlocking_update (fun u _ hu => hu.imp_right (List.mem_cons_of_mem _)) fun hno => nomatch hno⟩
    change t :: s.writers = [t]
    rw [hwriters]
  | unlock ht hp =>
    rename_i t p
    obtain ⟨hholders, hkeep⟩ := h.drop (h.unlocking t (by rw [ht]; rfl))
    refine ⟨hholders, ?_⟩
    change ∀ u, (update (s.drop t).phase t p u).unlocks = true → u ∈ (s.drop t).readers ∨ u ∈ (s.drop t).writers
    rw [RwLock.drop_phase]
    refine h.unlocking_update hkeep fun hno => ?_
    obtain ⟨rfl, -⟩ | ⟨rfl, -⟩ | ⟨-, rfl | ⟨rfl, -⟩⟩ := hp <;> cases hno
  | resume ht =>
    rename_i t side timed ok
    refine ⟨h.holders, h.unlocking_update (fun _ _ hu => hu) fun hno => ?_⟩
    cases ok <;> cases side <;> cases hno
  | signal ht =>
    refine ⟨h.holders, ?_⟩
    exact RwHolders.unlocking_update (s := s.resume _) ⟨h.holders, h.resumed _⟩ (fun _ _ hu => hu) fun hno => nomatch hno
  | broadcast ht hwoken =>
    refine ⟨h.holders, ?_⟩
    exact RwHolders.unlocking_update (s := s.resume _) ⟨h.holders, h.resumed _⟩ (fun _ _ hu => hu) fun hno => nomatch hno
  | take ht hvalue => exact ⟨h.holders, h.unlocking_update (fun _ _ hu => hu) fun hno => nomatch hno⟩
  | suspend ht hvalue => exact ⟨h.holders, h.unlocking_update (fun _ _ hu => hu) fun hno => nomatch hno⟩
  | timeout ht => exact ⟨h.holders, h.unlocking_update (fun _ _ hu => hu) fun hno => nomatch hno⟩

end RtThread
