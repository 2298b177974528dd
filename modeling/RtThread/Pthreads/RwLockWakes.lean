import RtThread.Pthreads.RwLockRuns

/-!
# Nobody is left waiting for a read-write lock

Where the lock is free, a thread that waits is woken by one that is on its way: a writer by a writer that was woken before it or by the unlock that is about to signal, a reader by any writer that still waits, since each will lock and unlock. A writer whose time has run out counts as waiting until it has the mutex again; when it is the last, nobody is left to wake the readers.
-/

namespace RtThread

open Transition

variable {s s' : RwLock} {op : RwOp} {t u : ThreadId} {side : RwSide} {p : RwPhase}
  {nwait : RwSide → Nat} {phase : ThreadId → RwPhase} {cond : RwSide → CondSem} {woken : List ThreadId}

def wakeAll (phase : ThreadId → RwPhase) (woken : List ThreadId) (t : ThreadId) : RwPhase :=
  if t ∈ woken then (phase t).wake else phase t

theorem wakeAll_cases (phase : ThreadId → RwPhase) (woken : List ThreadId) (t : ThreadId) :
    t ∈ woken ∧ wakeAll phase woken t = (phase t).wake ∨ t ∉ woken ∧ wakeAll phase woken t = phase t := by
  rw [wakeAll]
  split_ifs with hmem
  · exact .inl ⟨hmem, rfl⟩
  · exact .inr ⟨hmem, rfl⟩

theorem wakeAll_of_awake (hawake : (phase t).wake = phase t) : wakeAll phase woken t = phase t := by
  rcases wakeAll_cases phase woken t with ⟨-, heq⟩ | ⟨-, heq⟩
  · rw [heq, hawake]
  · exact heq

/-! ## How many wait -/

def RwCounted (nwait : RwSide → Nat) (phase : ThreadId → RwPhase) : Prop :=
  ∀ side, {t | (phase t).counts side = true}.encard = nwait side

namespace RwCounted

theorem stay (h : RwCounted nwait phase) (hsame : ∀ side, (phase t).counts side = p.counts side) :
    RwCounted nwait (Function.update phase t p) := by
  intro side
  rw [← h side]
  apply Census.encard_stay (C := fun p => RwPhase.counts side p = true)
  rw [hsame side]

theorem enter (h : RwCounted nwait phase) (hold : ∀ side', (phase t).counts side' = false)
    (hnew : ∀ side', p.counts side' = decide (side = side')) :
    RwCounted (Function.update nwait side (nwait side + 1)) (Function.update phase t p) := by
  intro side'
  by_cases hside : side' = side
  · subst hside
    rw [Function.update_self, Nat.cast_add, ← h side']
    apply Census.encard_enter (C := fun p => RwPhase.counts side' p = true)
    · rw [hold side']
      exact Bool.false_ne_true
    · rw [hnew side']
      exact decide_eq_true rfl
  · rw [Function.update_of_ne hside, ← h side']
    apply Census.encard_stay (C := fun p => RwPhase.counts side' p = true)
    rw [hold side', hnew side', decide_eq_false (Ne.symm hside)]

theorem leave (h : RwCounted nwait phase) (hold : ∀ side', (phase t).counts side' = decide (side = side'))
    (hnew : ∀ side', p.counts side' = false) :
    RwCounted (Function.update nwait side (nwait side - 1)) (Function.update phase t p) := by
  intro side'
  by_cases hside : side' = side
  · subst hside
    have hcount : {u | (Function.update phase t p u).counts side' = true}.encard + 1 = nwait side' := by
      rw [← h side']
      apply Census.encard_leave (C := fun p => RwPhase.counts side' p = true)
      · rw [hold side']
        exact decide_eq_true rfl
      · rw [hnew side']
        exact Bool.false_ne_true
    rw [Function.update_self]
    cases hn : nwait side' with
    | zero => simp [hn] at hcount
    | succ n =>
      rw [hn, Nat.cast_add] at hcount
      exact WithTop.add_right_cancel (WithTop.coe_ne_top) hcount
  · rw [Function.update_of_ne hside, ← h side']
    apply Census.encard_stay (C := fun p => RwPhase.counts side' p = true)
    rw [hold side', hnew side', decide_eq_false (Ne.symm hside)]

theorem resumed (h : RwCounted nwait phase) (woken : List ThreadId) : RwCounted nwait (wakeAll phase woken) := by
  intro side
  rw [← h side]
  congr 1
  ext u
  change (wakeAll phase woken u).counts side = true ↔ (phase u).counts side = true
  rcases wakeAll_cases phase woken u with ⟨-, heq⟩ | ⟨-, heq⟩
  · rw [heq, RwPhase.counts_wake]
  · rw [heq]

theorem pos (h : RwCounted nwait phase) (hu : (phase u).counts side = true) : 0 < nwait side := by
  apply Nat.pos_of_ne_zero
  intro hzero
  have hnone := h side
  rw [hzero, Nat.cast_zero, Set.encard_eq_zero] at hnone
  have hmem : u ∈ {t | (phase t).counts side = true} := hu
  rw [hnone] at hmem
  exact hmem

theorem not_stalled (h : RwCounted nwait phase) (hzero : nwait side = 0) (u : ThreadId) : (phase u).stalled side = false := by
  apply Bool.eq_false_iff.2
  intro hu
  have hpos := h.pos (RwPhase.counts_of_stalled hu)
  omega

theorem exists_of_pos (h : RwCounted nwait phase) (hpos : 0 < nwait side) : ∃ u, (phase u).counts side = true := by
  have hsome := h side
  have hne : {t | (phase t).counts side = true}.encard ≠ 0 := by
    rw [hsome]
    exact Nat.cast_ne_zero.2 (by omega)
  exact Set.encard_ne_zero.1 hne

end RwCounted

theorem PhaseMove.counts {p p' : RwPhase} (h : PhaseMove p p') (side : RwSide) : p.counts side = p'.counts side := by
  cases h <;> rfl

theorem RwCounted.step (h : RwCounted s.nwait s.phase) (hs : RwStep s op s') : RwCounted s'.nwait s'.phase := by
  cases hs with
  | move owner ht hmove hcall => exact h.stay hmove.counts
  | readWait ht hbusy => exact h.enter (fun _ => by rw [ht]; rfl) fun _ => rfl
  | readHold ht hcall hfree => exact h.stay fun _ => by rw [ht]; rfl
  | writeWait ht hbusy => exact h.enter (fun _ => by rw [ht]; rfl) fun _ => rfl
  | writeHold ht hcall hfree => exact h.stay fun _ => by rw [ht]; rfl
  | unlock ht hp =>
    rename_i t p
    change RwCounted (s.drop t).nwait (Function.update (s.drop t).phase t p)
    rw [RwLock.drop_nwait, RwLock.drop_phase]
    apply h.stay
    intro side
    rw [ht]
    obtain ⟨rfl, -⟩ | ⟨rfl, -⟩ | ⟨-, rfl | ⟨rfl, -⟩⟩ := hp <;> rfl
  | resume ht =>
    rename_i t side timed ok
    apply h.leave
    · intro side'
      rw [ht]
      rfl
    · intro side'
      cases ok <;> cases side <;> rfl
  | signal ht =>
    apply (h.resumed _).stay
    intro side
    rw [wakeAll_of_awake (by rw [ht]; rfl), ht]
    rfl
  | broadcast ht hwoken =>
    apply (h.resumed _).stay
    intro side
    rw [wakeAll_of_awake (by rw [ht]; rfl), ht]
    rfl
  | take ht hvalue => exact h.stay fun _ => by rw [ht]; rfl
  | suspend ht hvalue => exact h.stay fun _ => by rw [ht]; rfl
  | timeout ht => exact h.stay fun _ => by rw [ht]; rfl

/-! ## Who is in the queues -/

def RwPhase.sleeps (side : RwSide) : RwPhase → Bool
  | suspended side' _ => decide (side' = side)
  | _ => false

theorem RwPhase.sleeps_unique {side' : RwSide} (h : p.sleeps side = true) (h' : p.sleeps side' = true) : side' = side := by
  cases p <;> simp_all [sleeps]

theorem RwPhase.stalled_of_sleeps (h : p.sleeps side = true) : p.stalled side = true := by
  cases p <;> first | exact h | cases h

theorem RwPhase.brings_of_sleeps (h : p.sleeps side = true) : p.wake.brings side = true := by
  cases p with
  | suspended side' timed =>
    obtain rfl := of_decide_eq_true h
    cases side' <;> rfl
  | _ => cases h

/-- The queues hold the threads that are suspended, each once, and only where the value is zero. -/
structure RwQueues (cond : RwSide → CondSem) (phase : ThreadId → RwPhase) : Prop where
  nodup : ∀ side, (cond side).suspendThread.Nodup
  queued : ∀ side t, t ∈ (cond side).suspendThread ↔ (phase t).sleeps side = true
  value : ∀ side, 0 < (cond side).value → (cond side).suspendThread = []

namespace RwQueues

theorem update (h : RwQueues cond phase) {sem : CondSem} (hnodup : sem.suspendThread.Nodup)
    (hother : ∀ u, u ≠ t → (u ∈ sem.suspendThread ↔ u ∈ (cond side).suspendThread))
    (hself : t ∈ sem.suspendThread ↔ p.sleeps side = true) (hvalue : 0 < sem.value → sem.suspendThread = [])
    (hsame : ∀ side', side' ≠ side → (phase t).sleeps side' = p.sleeps side') :
    RwQueues (Function.update cond side sem) (Function.update phase t p) := by
  refine ⟨fun side' => ?_, fun side' u => ?_, fun side' => ?_⟩
  · by_cases hside : side' = side
    · rwa [hside, Function.update_self]
    · rw [Function.update_of_ne hside]
      exact h.nodup side'
  · by_cases hside : side' = side
    · subst hside
      rw [Function.update_self]
      by_cases hut : u = t
      · rw [hut, Function.update_self, hself]
      · rw [Function.update_of_ne hut, hother u hut, h.queued]
    · rw [Function.update_of_ne hside]
      by_cases hut : u = t
      · rw [hut, Function.update_self, h.queued, hsame side' hside]
      · rw [Function.update_of_ne hut, h.queued]
  · by_cases hside : side' = side
    · rwa [hside, Function.update_self]
    · rw [Function.update_of_ne hside]
      exact h.value side'

theorem move (h : RwQueues cond phase) (hsame : ∀ side, (phase t).sleeps side = p.sleeps side) : RwQueues cond (Function.update phase t p) := by
  refine ⟨h.nodup, fun side u => ?_, h.value⟩
  by_cases hut : u = t
  · rw [hut, Function.update_self, h.queued, hsame side]
  · rw [Function.update_of_ne hut, h.queued]

theorem resumed (h : RwQueues cond phase) {sem : CondSem} (hqueue : (cond side).suspendThread = woken ++ sem.suspendThread)
    (hvalue : 0 < sem.value → sem.suspendThread = []) : RwQueues (Function.update cond side sem) (wakeAll phase woken) := by
  have hnodup := h.nodup side
  rw [hqueue, List.nodup_append] at hnodup
  obtain ⟨-, hrest, hapart⟩ := hnodup
  have hslept : ∀ u ∈ woken, (phase u).sleeps side = true := by
    intro u hu
    rw [← h.queued, hqueue]
    exact List.mem_append_left _ hu
  refine ⟨fun side' => ?_, fun side' u => ?_, fun side' => ?_⟩
  · by_cases hside : side' = side
    · rwa [hside, Function.update_self]
    · rw [Function.update_of_ne hside]
      exact h.nodup side'
  · rcases wakeAll_cases phase woken u with ⟨hu, heq⟩ | ⟨hu, heq⟩
    · have hwoken : (wakeAll phase woken u).sleeps side' = false := by
        rw [heq]
        cases phase u <;> rfl
      rw [hwoken]
      refine iff_of_false ?_ Bool.false_ne_true
      by_cases hside : side' = side
      · rw [hside, Function.update_self]
        exact fun hmem => hapart u hu u hmem rfl
      · rw [Function.update_of_ne hside, h.queued]
        exact fun hno => hside (RwPhase.sleeps_unique (hslept u hu) hno)
    · rw [heq, ← h.queued]
      by_cases hside : side' = side
      · rw [hside, Function.update_self, hqueue, List.mem_append]
        exact (or_iff_right hu).symm
      · rw [Function.update_of_ne hside]
  · by_cases hside : side' = side
    · rwa [hside, Function.update_self]
    · rw [Function.update_of_ne hside]
      exact h.value side'

end RwQueues

theorem PhaseMove.sleeps {p p' : RwPhase} (h : PhaseMove p p') (side : RwSide) : p.sleeps side = p'.sleeps side := by
  cases h <;> rfl

theorem CondSem.release_cases (sem : CondSem) :
    sem.suspendThread = [] ∧ sem.release = (none, { sem with value := (sem.value + 1) % 65536 }) ∨
      ∃ t rest, sem.suspendThread = t :: rest ∧ sem.release = (some t, { sem with suspendThread := rest }) := by
  obtain ⟨value, _ | ⟨t, rest⟩⟩ := sem
  · exact .inl ⟨rfl, rfl⟩
  · exact .inr ⟨t, rest, rfl, rfl⟩

theorem condBroadcast_zero (queue : List ThreadId) : condBroadcast 0 queue = (queue, ⟨1, []⟩) := by
  induction queue with
  | nil => rfl
  | cons t rest ih => rw [condBroadcast, if_pos rfl, ih]

theorem condBroadcast_all {value : Nat} {queue : List ThreadId} (hvalue : 0 < value → queue = []) :
    ∃ value', condBroadcast value queue = (queue, ⟨value', []⟩) ∧ 0 < value' := by
  rcases Nat.eq_zero_or_pos value with hzero | hpos
  · subst hzero
    exact ⟨1, condBroadcast_zero queue, Nat.one_pos⟩
  · rw [hvalue hpos, condBroadcast, if_neg hpos.ne']
    exact ⟨value, rfl, hpos⟩

theorem RwQueues.step (h : RwQueues s.cond s.phase) (hs : RwStep s op s') : RwQueues s'.cond s'.phase := by
  cases hs with
  | move owner ht hmove hcall => exact h.move hmove.sleeps
  | readWait ht hbusy => exact h.move fun _ => by rw [ht]; rfl
  | readHold ht hcall hfree => exact h.move fun _ => by rw [ht]; rfl
  | writeWait ht hbusy => exact h.move fun _ => by rw [ht]; rfl
  | writeHold ht hcall hfree => exact h.move fun _ => by rw [ht]; rfl
  | unlock ht hp =>
    rename_i t p
    change RwQueues (s.drop t).cond (Function.update (s.drop t).phase t p)
    rw [RwLock.drop_cond, RwLock.drop_phase]
    apply h.move
    intro side
    rw [ht]
    obtain ⟨rfl, -⟩ | ⟨rfl, -⟩ | ⟨-, rfl | ⟨rfl, -⟩⟩ := hp <;> rfl
  | resume ht =>
    rename_i t side timed ok
    apply h.move
    intro side'
    rw [ht]
    cases ok <;> cases side <;> rfl
  | signal ht =>
    have hqueue : (s.cond .writer).suspendThread = (s.cond .writer).release.1.toList ++ (s.cond .writer).release.2.suspendThread := by
      rcases (s.cond .writer).release_cases with ⟨hnil, heq⟩ | ⟨t, rest, hcons, heq⟩
      · rw [heq, hnil]
        rfl
      · rw [heq, hcons]
        rfl
    have hvalue : 0 < (s.cond .writer).release.2.value → (s.cond .writer).release.2.suspendThread = [] := by
      rcases (s.cond .writer).release_cases with ⟨hnil, heq⟩ | ⟨t, rest, hcons, heq⟩
      · rw [heq]
        exact fun _ => hnil
      · rw [heq]
        intro hpos
        have hno := h.value .writer hpos
        rw [hcons] at hno
        cases hno
    apply (h.resumed hqueue hvalue).move
    intro side
    rw [wakeAll_of_awake (by rw [ht]; rfl), ht]
    rfl
  | broadcast ht hwoken =>
    obtain ⟨value, hall, -⟩ := condBroadcast_all (h.value .reader)
    obtain ⟨rfl, rfl⟩ := Prod.mk.inj (hwoken.symm.trans hall)
    have hresumed : RwQueues (Function.update s.cond .reader ⟨value, []⟩) (wakeAll s.phase (s.cond .reader).suspendThread) :=
      h.resumed (List.append_nil _).symm fun _ => rfl
    apply hresumed.move
    intro side
    rw [wakeAll_of_awake (by rw [ht]; rfl), ht]
    rfl
  | take ht hvalue =>
    rename_i t side timed
    have hempty := h.value side hvalue
    refine h.update (h.nodup side) (fun _ _ => .rfl) ?_ (fun _ => hempty) fun side' _ => by rw [ht]; rfl
    rw [hempty]
    exact iff_of_false List.not_mem_nil Bool.false_ne_true
  | suspend ht hvalue =>
    rename_i t side timed
    have hnot : t ∉ (s.cond side).suspendThread := by
      rw [h.queued, ht]
      exact Bool.false_ne_true
    refine h.update ?_ (fun u hut => ?_) ?_ (fun hpos => ?_) fun side' hside => ?_
    · exact List.nodup_append.2 ⟨h.nodup side, List.nodup_singleton t, fun u hu v hv heq => hnot (List.mem_singleton.1 hv ▸ heq ▸ hu)⟩
    · dsimp only
      rw [List.mem_append, List.mem_singleton, or_iff_left hut]
    · refine iff_of_true (List.mem_append_right _ (List.mem_singleton_self t)) ?_
      exact decide_eq_true rfl
    · change 0 < (s.cond side).value at hpos
      omega
    · rw [ht]
      exact (decide_eq_false (Ne.symm hside)).symm
  | timeout ht =>
    rename_i t side
    refine h.update ((h.nodup side).erase t) (fun u hut => List.mem_erase_of_ne hut) ?_ (fun hpos => ?_) fun side' hside => ?_
    · exact iff_of_false (h.nodup side).not_mem_erase Bool.false_ne_true
    · dsimp only at hpos ⊢
      rw [h.value side hpos]
      rfl
    · rw [ht]
      exact decide_eq_false (Ne.symm hside)

/-! ## Who is woken -/

/-- Where threads of the side wait, enough is there for them, or one is on its way. -/
def RwAwake (side : RwSide) (enough : Prop) (phase : ThreadId → RwPhase) : Prop :=
  (∃ t, (phase t).stalled side = true) → enough ∨ ∃ t, (phase t).brings side = true

namespace RwAwake

variable {enough enough' : Prop}

theorem move (h : RwAwake side enough phase) (henough : enough → enough') (hstalled : p.stalled side = true → (phase t).stalled side = true)
    (hbrings : (phase t).brings side = true → p.brings side = true) : RwAwake side enough' (Function.update phase t p) := by
  intro hsome
  apply (h (Census.exists_of_update (C := fun p => RwPhase.stalled side p = true) hstalled hsome)).imp henough
  exact Census.exists_update (C := fun p => RwPhase.brings side p = true) hbrings

theorem resumed (h : RwAwake side enough phase) (woken : List ThreadId) : RwAwake side enough (wakeAll phase woken) := by
  rintro ⟨u, hu⟩
  have hsome : (phase u).stalled side = true := by
    rcases wakeAll_cases phase woken u with ⟨-, heq⟩ | ⟨-, heq⟩
    · rw [heq] at hu
      exact RwPhase.stalled_of_wake hu
    · rwa [heq] at hu
  apply (h ⟨u, hsome⟩).imp_right
  rintro ⟨v, hv⟩
  refine ⟨v, ?_⟩
  rcases wakeAll_cases phase woken v with ⟨-, heq⟩ | ⟨-, heq⟩
  · rw [heq]
    exact RwPhase.brings_wake hv
  · rwa [heq]

theorem of_brings (hp : p.brings side = true) : RwAwake side enough (Function.update phase t p) :=
  fun _ => .inr ⟨t, by rwa [Function.update_self]⟩

theorem of_none (hnone : ∀ u, (phase u).stalled side = false) (hp : p.stalled side = false) : RwAwake side enough (Function.update phase t p) := by
  intro hsome
  obtain ⟨u, hu⟩ := Census.exists_of_update (C := fun p => RwPhase.stalled side p = true) (fun hno => absurd (hp.symm.trans hno) Bool.false_ne_true) hsome
  rw [hnone u] at hu
  cases hu

end RwAwake

structure RwWoken (s : RwLock) : Prop where
  writers : s.refcount = 0 → RwAwake .writer (0 < (s.cond .writer).value) s.phase
  readers : s.refcount = 0 → RwAwake .reader (0 < s.nwait .writer ∨ 0 < (s.cond .reader).value) s.phase

/-- No wake-up is lost. A writer whose time has run out does not leave a free lock as the last that waits, with readers behind it, unless another thread is on its way to them; and a signal that nobody takes does not wrap the value of the semaphore to zero under writers that wait, unless another writer is on its way. -/
def NoneLost (s : RwLock) : RwOp → Prop
  | .run t =>
    (∃ timed, s.phase t = .relocked .writer timed false) → s.refcount = 0 → s.nwait .writer = 1 →
      RwAwake .reader (0 < (s.cond .reader).value) s.phase
  | .wake t =>
    s.phase t = .signal → (s.cond .writer).suspendThread = [] → s.refcount = 0 → ((s.cond .writer).value + 1) % 65536 = 0 →
      (∃ u, (s.phase u).stalled .writer = true) → ∃ u, u ≠ t ∧ (s.phase u).brings .writer = true
  | _ => True

theorem value_update (cond : RwSide → CondSem) (sem : CondSem) (side' : RwSide) (hvalue : sem.value = (cond side).value)
    (hpos : 0 < (cond side').value) : 0 < (Function.update cond side sem side').value := by
  by_cases hside : side' = side
  · subst hside
    rwa [Function.update_self, hvalue]
  · rwa [Function.update_of_ne hside]

theorem PhaseMove.stalled {p p' : RwPhase} (h : PhaseMove p p') (hp : p'.stalled side = true) : p.stalled side = true := by
  cases h <;> exact hp

theorem PhaseMove.brings {p p' : RwPhase} (h : PhaseMove p p') (hp : p.brings side = true) : p'.brings side = true := by
  cases h with
  | relock side' timed ok => cases side <;> cases side' <;> cases ok <;> exact hp
  | _ => cases side <;> cases hp

theorem RwWoken.step (h : RwWoken s) (hcounted : RwCounted s.nwait s.phase) (hqueues : RwQueues s.cond s.phase) (hlost : NoneLost s op)
    (hs : RwStep s op s') : RwWoken s' := by
  cases hs with
  | move owner ht hmove hcall =>
    exact ⟨fun hzero => (h.writers hzero).move id hmove.stalled hmove.brings, fun hzero => (h.readers hzero).move id hmove.stalled hmove.brings⟩
  | readWait ht hbusy =>
    rename_i t timed
    refine ⟨fun hzero => (h.writers hzero).move id (fun hno => nomatch hno) fun hno => ?_, fun hzero _ => .inl (.inl ?_)⟩
    · rw [ht] at hno
      cases hno
    · change s.refcount = 0 at hzero
      change 0 < s.nwait .writer
      omega
  | readHold ht hcall hfree =>
    rename_i t call
    have hheld : s.refcount + 1 ≠ 0 := by omega
    exact ⟨fun hno => absurd hno hheld, fun hno => absurd hno hheld⟩
  | writeWait ht hbusy => exact ⟨fun hno => absurd hno hbusy, fun hno => absurd hno hbusy⟩
  | writeHold ht hcall hfree =>
    have hheld : (-1 : Int) ≠ 0 := by omega
    exact ⟨fun hno => absurd hno hheld, fun hno => absurd hno hheld⟩
  | unlock ht hp =>
    rename_i t p
    have hphase : ((s.drop t).setPhase t p).phase = Function.update s.phase t p := by
      change Function.update (s.drop t).phase t p = _
      rw [RwLock.drop_phase]
    have hnwait : ((s.drop t).setPhase t p).nwait = s.nwait := RwLock.drop_nwait
    refine ⟨fun hzero => ?_, fun hzero => ?_⟩
    · rw [hphase]
      rcases hp with ⟨rfl, -⟩ | ⟨rfl, -, hheld⟩ | ⟨hnone, hp⟩
      · exact .of_brings rfl
      · exact absurd hzero hheld
      · refine .of_none (hcounted.not_stalled hnone) ?_
        obtain rfl | ⟨rfl, -⟩ := hp <;> rfl
    · rw [hphase, hnwait]
      rcases hp with ⟨-, hwriters⟩ | ⟨rfl, -, hheld⟩ | ⟨-, rfl | ⟨rfl, hnone⟩⟩
      · exact fun _ => .inl (.inl hwriters)
      · exact absurd hzero hheld
      · exact .of_brings rfl
      · exact .of_none (hcounted.not_stalled hnone) rfl
  | resume ht =>
    rename_i t side timed ok
    have hwriters : s.refcount = 0 → RwAwake .writer (0 < (s.cond .writer).value)
        (Function.update s.phase t (if ok = true then .locked (side.call timed) else .leaving)) := by
      refine fun hzero => (h.writers hzero).move id (fun hno => ?_) fun hold => ?_
      · cases ok <;> cases side <;> cases hno
      · rw [ht] at hold
        cases side <;> cases ok <;> first | rfl | cases hold
    refine ⟨hwriters, fun hzero => ?_⟩
    cases ok with
    | true => exact .of_brings (by cases side <;> rfl)
    | false =>
      cases side with
      | reader =>
        refine (h.readers hzero).move id (fun hno => nomatch hno) fun hold => ?_
        rw [ht] at hold
        cases hold
      | writer =>
        have hone : 0 < s.nwait .writer := hcounted.pos (by rw [ht]; rfl)
        by_cases hlast : s.nwait .writer = 1
        · refine (hlost ⟨timed, ht⟩ hzero hlast).move .inr (fun hno => nomatch hno) fun hold => ?_
          rw [ht] at hold
          cases hold
        · refine fun _ => .inl (.inl ?_)
          change 0 < s.nwait .writer - 1
          omega
  | signal ht =>
    rename_i t
    refine ⟨fun hzero => ?_, fun hzero => ((h.readers hzero).resumed _).move id (fun hno => nomatch hno) fun hold => ?_⟩
    · rcases (s.cond .writer).release_cases with ⟨hnil, heq⟩ | ⟨v, rest, hcons, heq⟩
      · rw [heq]
        intro hsome
        by_cases hwrap : ((s.cond .writer).value + 1) % 65536 = 0
        · have hold : ∃ u, (s.phase u).stalled .writer = true :=
            Census.exists_of_update (p := .leaving) (C := fun p => RwPhase.stalled .writer p = true) (fun hno => nomatch hno) hsome
          obtain ⟨u, hut, hu⟩ := hlost ht hnil hzero hwrap hold
          refine .inr ⟨u, ?_⟩
          change (Function.update s.phase t .leaving u).brings .writer = true
          rwa [Function.update_of_ne hut]
        · exact .inl (Nat.pos_of_ne_zero hwrap)
      · rw [heq]
        have hv : (s.phase v).sleeps .writer = true := by
          rw [← hqueues.queued, hcons]
          exact List.mem_cons_self
        have hvt : v ≠ t := by
          rintro rfl
          rw [ht] at hv
          cases hv
        refine fun _ => .inr ⟨v, ?_⟩
        change (Function.update (wakeAll s.phase [v]) t .leaving v).brings .writer = true
        rw [Function.update_of_ne hvt, wakeAll, if_pos (List.mem_singleton_self v)]
        exact RwPhase.brings_of_sleeps hv
    · rw [wakeAll_of_awake (by rw [ht]; rfl), ht] at hold
      cases hold
  | broadcast ht hwoken =>
    obtain ⟨value, hall, hpos⟩ := condBroadcast_all (hqueues.value .reader)
    obtain ⟨rfl, rfl⟩ := Prod.mk.inj (hwoken.symm.trans hall)
    refine ⟨fun hzero => ((h.writers hzero).resumed _).move id (fun hno => nomatch hno) fun hold => ?_, fun _ _ => .inl (.inr hpos)⟩
    rw [wakeAll_of_awake (by rw [ht]; rfl), ht] at hold
    cases hold
  | take ht hvalue =>
    rename_i t side timed
    refine ⟨fun hzero => ?_, fun _ => .of_brings (by cases side <;> rfl)⟩
    cases side with
    | reader =>
      refine (h.writers hzero).move id (fun hno => nomatch hno) fun hold => ?_
      rw [ht] at hold
      cases hold
    | writer => exact .of_brings rfl
  | suspend ht hvalue =>
    rename_i t side timed
    have hsame (side' : RwSide) := value_update s.cond ⟨(s.cond side).value, (s.cond side).suspendThread ++ [t]⟩ side' rfl
    have hstalled (side' : RwSide) : RwPhase.stalled side' (.suspended side timed) = true → (s.phase t).stalled side' = true := by
      rw [ht]
      exact id
    have hbrings (side' : RwSide) : (s.phase t).brings side' = true → RwPhase.brings side' (.suspended side timed) = true := by
      rw [ht]
      cases side' <;> exact id
    exact ⟨fun hzero => (h.writers hzero).move (hsame .writer) (hstalled .writer) (hbrings .writer),
      fun hzero => (h.readers hzero).move (Or.imp_right (hsame .reader)) (hstalled .reader) (hbrings .reader)⟩
  | timeout ht =>
    rename_i t side
    have hsame (side' : RwSide) := value_update s.cond ⟨(s.cond side).value, (s.cond side).suspendThread.erase t⟩ side' rfl
    have hbrings (side' : RwSide) : (s.phase t).brings side' = true → RwPhase.brings side' (.relocking side true false) = true := by
      rw [ht]
      intro hno
      cases side' <;> cases hno
    exact ⟨fun hzero => (h.writers hzero).move (hsame .writer) (fun hno => nomatch hno) (hbrings .writer),
      fun hzero => (h.readers hzero).move (Or.imp_right (hsame .reader)) (fun hno => nomatch hno) (hbrings .reader)⟩

/-! ## Every run -/

structure RwInv (s : RwLock) : Prop where
  holders : RwHolders s
  counted : RwCounted s.nwait s.phase
  queues : RwQueues s.cond s.phase
  woken : RwWoken s

theorem RwInv.init : RwInv .init := by
  refine ⟨⟨.inl ⟨rfl, rfl⟩, fun _ hno => nomatch hno⟩, fun side => ?_, ⟨fun _ => List.nodup_nil, fun _ _ => ?_, fun _ _ => rfl⟩, ⟨?_, ?_⟩⟩
  · rw [Set.encard_eq_zero.2]
    · rfl
    · exact Set.eq_empty_of_forall_notMem fun _ hno => nomatch hno
  · exact iff_of_false List.not_mem_nil Bool.false_ne_true
  · rintro - ⟨_, hno⟩
    cases hno
  · rintro - ⟨_, hno⟩
    cases hno

theorem RwInv.step (h : RwInv s) (hown : UnlocksOwn s op) (hlost : NoneLost s op) (hs : s.next op = some s') : RwInv s' := by
  have hstep := RwStep.of_next hs
  exact ⟨h.holders.step hown hstep, h.counted.step hstep, h.queues.step hstep, h.woken.step h.counted h.queues hlost hstep⟩

theorem RwHolders.refcount_zero (h : RwHolders s) (hreaders : s.readers = []) (hwriters : s.writers = []) : s.refcount = 0 := by
  rcases h.holders with ⟨-, hcount⟩ | ⟨w, hno, -⟩
  · rw [hcount, hreaders]
    rfl
  · rw [hwriters] at hno
    cases hno

theorem RwQueues.not_sleeps (h : RwQueues cond phase) (hpos : 0 < (cond side).value) (u : ThreadId) : (phase u).sleeps side ≠ true := by
  intro hu
  rw [← h.queued, h.value side hpos] at hu
  exact List.not_mem_nil hu

namespace RwLock.Quiet

theorem not_brings (hquiet : s.Quiet) (side : RwSide) (u : ThreadId) : (s.phase u).brings side ≠ true := by
  rcases hquiet u with hu | ⟨side', timed, hu⟩ <;> rw [hu] <;> cases side <;> exact Bool.false_ne_true

theorem sleeps (hquiet : s.Quiet) (hu : (s.phase u).counts side = true) : (s.phase u).sleeps side = true := by
  rcases hquiet u with hout | ⟨side', timed, hsleep⟩
  · rw [hout] at hu
    cases hu
  · rw [hsleep] at hu ⊢
    exact hu

end RwLock.Quiet

theorem RwInv.no_writer (h : RwInv s) (hquiet : s.Quiet) (hzero : s.refcount = 0) (u : ThreadId) : (s.phase u).sleeps .writer ≠ true := by
  intro hu
  rcases h.woken.writers hzero ⟨u, RwPhase.stalled_of_sleeps hu⟩ with hpos | ⟨v, hv⟩
  · exact h.queues.not_sleeps hpos u hu
  · exact hquiet.not_brings .writer v hv

theorem RwInv.no_reader (h : RwInv s) (hquiet : s.Quiet) (hzero : s.refcount = 0) (u : ThreadId) : (s.phase u).sleeps .reader ≠ true := by
  intro hu
  rcases h.woken.readers hzero ⟨u, RwPhase.stalled_of_sleeps hu⟩ with (hwait | hpos) | ⟨v, hv⟩
  · obtain ⟨v, hv⟩ := h.counted.exists_of_pos hwait
    exact h.no_writer hquiet hzero v (hquiet.sleeps hv)
  · exact h.queues.not_sleeps hpos u hu
  · exact hquiet.not_brings .reader v hv

theorem RwInv.all_out (h : RwInv s) (hquiet : s.Quiet) (hreaders : s.readers = []) (hwriters : s.writers = []) (t : ThreadId) :
    s.phase t = .out := by
  have hzero := h.holders.refcount_zero hreaders hwriters
  rcases hquiet t with hout | ⟨side, timed, hsleep⟩
  · exact hout
  · have hsleeps : (s.phase t).sleeps side = true := by
      rw [hsleep]
      exact decide_eq_true rfl
    cases side with
    | reader => exact absurd hsleeps (h.no_reader hquiet hzero t)
    | writer => exact absurd hsleeps (h.no_writer hquiet hzero t)

theorem RwLock.next_of_step {events : List RwOp} (hs : stepRwLock s op = some (s', events)) : s.next op = some s' := by
  obtain ⟨s'', hnext, heq⟩ := Option.map_eq_some_iff.1 hs
  rw [hnext, (Prod.mk.inj heq).1]

/-- Readers or one writer hold the lock, and `rw_refcount` says which. Where no wake-up is lost, all have left the functions and nobody holds the lock, nobody waits for it. -/
theorem rwlock_of_run {trace : List RwOp} (hrun : Run stepRwLock UnlocksOwn .init trace s) :
    (s.writers = [] ∧ s.refcount = s.readers.length ∨ ∃ w, s.writers = [w] ∧ s.readers = [] ∧ s.refcount = -1) ∧
      (Run stepRwLock (fun s op => UnlocksOwn s op ∧ NoneLost s op) .init trace s → s.Quiet → s.readers = [] → s.writers = [] →
        ∀ t, s.phase t = .out) := by
  refine ⟨?_, fun hnone => ?_⟩
  · have hholders := hrun.state_invariant RwInv.init.holders fun s op s' events hinv hown hs => hinv.step hown (.of_next (RwLock.next_of_step hs))
    exact hholders.holders
  · have hinv := hnone.state_invariant RwInv.init fun s op s' events hinv hok hs => hinv.step hok.1 hok.2 (RwLock.next_of_step hs)
    exact hinv.all_out

/-! ## Runs of four threads -/

theorem RwStep.out (hs : RwStep s op s') (hu : u ≠ op.thread) (hout : s.phase u = .out) : s'.phase u = .out := by
  cases hs with
  | move owner ht hmove hcall =>
    subst ht
    exact (Function.update_of_ne hu _ _).trans hout
  | unlock ht hp =>
    refine (Function.update_of_ne hu _ _).trans ?_
    rw [RwLock.drop_phase, hout]
  | signal ht =>
    refine (Function.update_of_ne hu _ _).trans ?_
    change wakeAll s.phase _ u = .out
    rw [wakeAll_of_awake (by rw [hout]; rfl), hout]
  | broadcast ht hwoken =>
    refine (Function.update_of_ne hu _ _).trans ?_
    change wakeAll s.phase _ u = .out
    rw [wakeAll_of_awake (by rw [hout]; rfl), hout]
  | _ => exact (Function.update_of_ne hu _ _).trans hout

theorem exists_rwlock_run (ok : RwLock → RwOp → Prop) [∀ s op, Decidable (ok s op)] (ops : List RwOp) (found : RwLock → Bool)
    (h : ((exec stepRwLock (fun s op => ok s op ∧ op.thread < 4) .init ops).any fun r => found r.2) = true) :
    ∃ trace s, Run stepRwLock ok .init trace s ∧ (∀ t, 4 ≤ t → s.phase t = .out) ∧ found s = true := by
  obtain ⟨trace, s, hrun, hfound⟩ := exists_run_of_exec ops (fun _ => found) h
  refine ⟨trace, s, hrun.mono fun _ _ _ _ hok => hok.1, ?_, hfound⟩
  apply hrun.state_invariant (I := fun s => ∀ t, 4 ≤ t → s.phase t = .out)
  · exact fun _ _ => rfl
  · intro s op s' events hinv hok hs t ht
    exact (RwStep.of_next (RwLock.next_of_step hs)).out (Nat.ne_of_gt (Nat.lt_of_lt_of_le hok.2 ht)) (hinv t ht)

theorem RwLock.quiet_of_four (hfar : ∀ t, 4 ≤ t → s.phase t = .out)
    (hnear : ∀ t : Nat, t < 4 → s.phase t = .out ∨ ∃ side timed, s.phase t = .suspended side timed) : s.Quiet := by
  intro t
  rcases Nat.lt_or_ge t 4 with ht | ht
  · exact hnear t ht
  · exact .inl (hfar t ht)

def rwEnter (t : ThreadId) (call : RwCall) : List RwOp := [.call t call, .lock t, .run t]

def rwResume (t : ThreadId) : List RwOp := [.lock t, .run t, .run t, .release t]

def rwTurns : List RwOp :=
  rwEnter 1 (.rdlock false) ++ [.release 1] ++ rwEnter 2 (.wrlock true) ++ [.release 2, .take 2] ++
  rwEnter 3 (.rdlock false) ++ [.release 3, .take 3] ++ rwEnter 1 .unlock ++ [.wake 1, .release 1] ++ rwResume 2 ++
  rwEnter 2 .unlock ++ [.wake 2, .release 2] ++ rwResume 3 ++ rwEnter 3 .unlock ++ [.release 3]

def rwTimedOut : List RwOp :=
  rwEnter 1 (.rdlock false) ++ [.release 1] ++ rwEnter 2 (.wrlock true) ++ [.release 2, .take 2] ++
  rwEnter 3 (.rdlock false) ++ [.release 3, .take 3, .timeout 2] ++ rwEnter 1 .unlock ++ [.wake 1, .release 1] ++
  [.lock 2, .run 2, .release 2]

def NoTimeouts (s : RwLock) : RwOp → Prop
  | .run t => ∀ timed, s.phase t ≠ .relocked .writer timed false
  | .wake t => s.phase t = .signal → (s.cond .writer).suspendThread ≠ []
  | _ => True

instance (s : RwLock) (op : RwOp) : Decidable (NoTimeouts s op) := by
  unfold NoTimeouts
  split <;> infer_instance

theorem NoTimeouts.noneLost (h : NoTimeouts s op) : NoneLost s op := by
  cases op with
  | run t =>
    rintro ⟨timed, ht⟩
    exact absurd ht (h timed)
  | wake t => exact fun ht hnil => absurd hnil (h ht)
  | _ => trivial

/-- The writer and the second reader are woken in their turn. -/
theorem rwlock_of_run_turns : ∃ trace s, Run stepRwLock (fun s op => UnlocksOwn s op ∧ NoneLost s op) .init trace s ∧
    (s.writers = [] ∧ s.refcount = s.readers.length ∨ ∃ w, s.writers = [w] ∧ s.readers = [] ∧ s.refcount = -1) ∧ ∀ t, s.phase t = .out := by
  obtain ⟨trace, s, hrun, hfar, hfound⟩ := exists_rwlock_run (fun s op => UnlocksOwn s op ∧ NoTimeouts s op) rwTurns
    (fun s => decide (s.readers = [] ∧ s.writers = [] ∧ ∀ t : Nat, t < 4 → s.phase t = .out)) (by decide +kernel)
  obtain ⟨hreaders, hwriters, hnear⟩ := of_decide_eq_true hfound
  have hnone : Run stepRwLock (fun s op => UnlocksOwn s op ∧ NoneLost s op) .init trace s :=
    hrun.mono fun _ _ _ _ hok => ⟨hok.1, hok.2.noneLost⟩
  obtain ⟨hholders, hout⟩ := rwlock_of_run (hrun.mono fun _ _ _ _ hok => hok.1)
  have hquiet := RwLock.quiet_of_four hfar fun t ht => .inl (hnear t ht)
  exact ⟨trace, s, hnone, hholders, hout hnone hquiet hreaders hwriters⟩

/-- The signal of the first reader is lost, and the writer leaves without waking the second: it waits for a lock that nobody holds. -/
theorem rwlock_reader_left : ∃ trace s, Run stepRwLock UnlocksOwn .init trace s ∧ s.Quiet ∧ s.readers = [] ∧ s.writers = [] ∧
    s.phase 3 = .suspended .reader false := by
  obtain ⟨trace, s, hrun, hfar, hfound⟩ := exists_rwlock_run UnlocksOwn rwTimedOut
    (fun s => decide (s.readers = [] ∧ s.writers = [] ∧ s.phase 3 = .suspended .reader false ∧ ∀ t : Nat, t < 3 → s.phase t = .out)) (by decide +kernel)
  obtain ⟨hreaders, hwriters, hthree, hnear⟩ := of_decide_eq_true hfound
  refine ⟨trace, s, hrun, RwLock.quiet_of_four hfar fun t ht => ?_, hreaders, hwriters, hthree⟩
  rcases Nat.lt_or_eq_of_le (Nat.le_of_lt_succ ht) with hlt | heq
  · exact .inl (hnear t hlt)
  · rw [heq]
    exact .inr ⟨_, _, hthree⟩

end RtThread
