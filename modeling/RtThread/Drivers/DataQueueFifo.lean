import RtThread.Drivers.DataQueue

/-!
# A data queue as a bounded queue

The items are the cells from the get index on, as many as the difference of the indices in 16 bits. Two things go wrong where the put index has wrapped and the get index has not. The difference is compared as an `int`, where it is negative, so that the queue is not found full. And where the size does not divide `65536`, the cells do not go on in a circle: the put index comes to a cell that is `65536 % size` places back, which may hold an item.
-/

namespace RtThread

open Ring

variable {dq : DataQueue} {s s' : DqState} {op : DqOp} {trace events : List DqEvent} {caller : Option ThreadId}
  {item : DataItem} {timeout : Int} {queue : Nat → DataItem} {size lwm i : Nat} {q : List DataItem}

def DataQueue.queued (dq : DataQueue) : Nat := (dq.putIndex + 65536 - dq.getIndex) % 65536

/-- The cell of the item `i` places behind the front. -/
def DataQueue.cell (dq : DataQueue) (i : Nat) : Nat := (dq.getIndex + i) % 65536 % dq.size

def DataQueue.contents (dq : DataQueue) : List DataItem := (List.range dq.queued).map fun i => dq.queue (dq.cell i)

structure DataQueueInv (size : Nat) (dq : DataQueue) : Prop where
  size_eq : dq.size = size
  small : size < 65536
  getIndex : dq.getIndex < 65536
  putIndex : dq.putIndex < 65536
  queued : dq.queued ≤ size

/-- A push is not disturbed by the wrap of the put index: a queue that is full has not wrapped, and the cell behind the wrap does not hold an item. -/
structure DataQueue.WrapsWell (dq : DataQueue) : Prop where
  full : dq.queued = dq.size → dq.getIndex ≤ dq.putIndex
  cell : dq.putIndex < 65536 % dq.size → dq.queued < 65536 % dq.size

instance DataQueue.decidableWrapsWell (dq : DataQueue) : Decidable dq.WrapsWell :=
  decidable_of_iff ((dq.queued = dq.size → dq.getIndex ≤ dq.putIndex) ∧
    (dq.putIndex < 65536 % dq.size → dq.queued < 65536 % dq.size)) ⟨fun h => ⟨h.1, h.2⟩, fun h => ⟨h.full, h.cell⟩⟩

@[simp] theorem DataQueue.length_contents : dq.contents.length = dq.queued := by simp [DataQueue.contents]

/-! ## Pushing -/

theorem DataQueueInv.difference_iff (h : DataQueueInv size dq) (hfull : dq.queued = dq.size → dq.getIndex ≤ dq.putIndex) :
    dq.difference = dq.size ↔ dq.queued = dq.size := by
  obtain ⟨hsize, hsmall, hget, hput, hle⟩ := h
  unfold DataQueue.difference
  unfold DataQueue.queued at *
  constructor
  · intro heq
    omega
  · intro heq
    have := hfull heq
    omega

theorem DataQueueInv.overwrites_iff (h : DataQueueInv size dq) (hroom : dq.queued < size) :
    (∃ i < dq.queued, dq.cell i = dq.putIndex % dq.size) ↔
      dq.putIndex < 65536 % size ∧ 65536 % size ≤ dq.queued := by
  obtain ⟨hsize, hsmall, hget, hput, -⟩ := h
  have hlast : (dq.getIndex + dq.queued) % 65536 = dq.putIndex := by
    unfold DataQueue.queued
    omega
  constructor
  · rintro ⟨i, hi, hcell⟩
    rw [DataQueue.cell, hsize] at hcell
    obtain ⟨x, hx⟩ : ∃ x, (dq.getIndex + i) % 65536 = x := ⟨_, rfl⟩
    rw [hx] at hcell
    have hsteps : dq.putIndex = x + (dq.queued - i) ∨ dq.putIndex + 65536 = x + (dq.queued - i) := by omega
    rcases hsteps with hstep | hstep
    · -- the put index has not wrapped
      rw [hstep] at hcell
      have hsame : (x + 0) % size = (x + (dq.queued - i)) % size := hcell
      have := (add_mod_inj (by omega) (by omega)).1 hsame
      omega
    · have hdvd : size ∣ 65536 - (dq.queued - i) := by
        have hmod : dq.putIndex ≡ x [MOD size] := hcell.symm
        have := (Nat.modEq_iff_dvd' (by omega)).1 hmod
        rwa [show x - dq.putIndex = 65536 - (dq.queued - i) by omega] at this
      have hrest : 65536 % size = dq.queued - i := by
        obtain ⟨k, hk⟩ := hdvd
        rw [show 65536 = dq.queued - i + size * k by omega, Nat.add_mul_mod_self_left, Nat.mod_eq_of_lt (by omega)]
      omega
  · rintro ⟨hput', hle⟩
    obtain ⟨r, hr⟩ : ∃ r, 65536 % size = r := ⟨_, rfl⟩
    rw [hr] at hput' hle
    refine ⟨dq.queued - r, by omega, ?_⟩
    have hdiv : size * (65536 / size) + r = 65536 := hr ▸ Nat.div_add_mod 65536 size
    have hindex : (dq.getIndex + (dq.queued - r)) % 65536 = dq.putIndex + size * (65536 / size) := by omega
    rw [DataQueue.cell, hsize, hindex, Nat.add_mul_mod_self_left]

theorem DataQueueInv.put (h : DataQueueInv size dq) (hroom : dq.queued < size) :
    DataQueueInv size (dq.put item) ∧ (dq.put item).queued = dq.queued + 1 := by
  obtain ⟨hsize, hsmall, hget, hput, -⟩ := h
  have hqueued : (dq.put item).queued = dq.queued + 1 := by
    simp only [DataQueue.queued, DataQueue.put] at *
    omega
  refine ⟨⟨hsize, hsmall, hget, Nat.mod_lt _ (by decide), ?_⟩, hqueued⟩
  rw [hqueued]
  exact hroom

theorem DataQueueInv.contents_put (h : DataQueueInv size dq) (hroom : dq.queued < size)
    (hwraps : dq.putIndex < 65536 % size → dq.queued < 65536 % size) :
    (dq.put item).contents = dq.contents ++ [item] := by
  have hcells : ∀ i < dq.queued, dq.cell i ≠ dq.putIndex % dq.size := by
    intro i hi heq
    obtain ⟨hput, hle⟩ := (h.overwrites_iff hroom).1 ⟨i, hi, heq⟩
    exact absurd (hwraps hput) (Nat.not_lt.2 hle)
  rw [DataQueue.contents, (h.put hroom).2, List.range_succ, List.map_append, DataQueue.contents]
  congr 1
  · refine List.map_congr_left fun i hi => ?_
    exact Function.update_of_ne (hcells i (List.mem_range.1 hi)) ..
  · have hlast : (dq.getIndex + dq.queued) % 65536 = dq.putIndex := by
      have hget := h.getIndex
      have hput := h.putIndex
      unfold DataQueue.queued
      omega
    have hcell : (dq.put item).cell dq.queued = dq.putIndex % dq.size := by
      rw [← hlast]
      rfl
    rw [List.map_singleton, hcell]
    exact congrArg (fun x => [x]) (Function.update_self ..)

/-! ## Popping -/

theorem DataQueueInv.empty_iff (h : DataQueueInv size dq) : dq.getIndex = dq.putIndex ↔ dq.contents = [] := by
  have hget := h.getIndex
  have hput := h.putIndex
  rw [← List.length_eq_zero_iff, DataQueue.length_contents, DataQueue.queued]
  omega

theorem DataQueueInv.take (h : DataQueueInv size dq) (hne : dq.getIndex ≠ dq.putIndex) :
    DataQueueInv size dq.take ∧ dq.contents = dq.front :: dq.take.contents := by
  obtain ⟨hsize, hsmall, hget, hput, hle⟩ := h
  have hqueued : dq.queued = dq.take.queued + 1 := by
    simp only [DataQueue.queued, DataQueue.take] at *
    omega
  refine ⟨⟨hsize, hsmall, Nat.mod_lt _ (by decide), hput, by omega⟩, ?_⟩
  rw [DataQueue.contents, hqueued, List.range_succ_eq_map, List.map_cons, List.map_map]
  congr 1
  · rw [DataQueue.cell, Nat.add_zero, Nat.mod_eq_of_lt hget]
    rfl
  · refine List.map_congr_left fun i _ => ?_
    have hcell : dq.cell (i + 1) = dq.take.cell i := by
      simp only [DataQueue.cell, DataQueue.take]
      rw [Nat.mod_add_mod, Nat.add_assoc, Nat.add_comm 1]
    exact congrArg dq.queue hcell

/-! ## Every run -/

def PushesWell (s : DqState) : DqOp → Prop
  | .push _ _ _ => s.dq.WrapsWell
  | .resume t =>
    match s.call t with
    | some (.push _ _) => (s.thread t).error = .eok → s.dq.WrapsWell
    | _ => True
  | _ => True

instance PushesWell.decidable (s : DqState) (op : DqOp) : Decidable (PushesWell s op) := by
  unfold PushesWell
  split
  · infer_instance
  · split <;> infer_instance
  · infer_instance

/-- A run of a data queue whose steps all meet `ok`. -/
abbrev DqRun (ok : DqState → DqOp → Prop) (queue : Nat → DataItem) (size lwm : Nat) : List DqEvent → DqState → Prop :=
  Transition.Run stepDq ok (.init queue size lwm)

/-- A data queue after a trace: what the calls have shown is what they show on a queue of at most `size` items, which now holds the contents. -/
structure DataQueueFifo (size : Nat) (trace : List DqEvent) (dq : DataQueue) : Prop where
  refines : Transition.Run (stepItems size) (fun _ _ => True) [] trace dq.contents
  queued : dq.contents.length = dq.queued
  queued_le : dq.queued ≤ size

def ShowsItems (size : Nat) (q : List DataItem) (s' : DqState) (events : List DqEvent) : Prop :=
  ∃ event q', stepItems size q event = some (q', events) ∧ DataQueueInv size s'.dq ∧ s'.dq.contents = q'

@[simp] theorem DqState.resumePusher_dq : s.resumePusher.dq = s.dq := by
  unfold DqState.resumePusher
  split <;> rfl

@[simp] theorem DqState.resumePopper_dq : s.resumePopper.dq = s.dq := by
  unfold DqState.resumePopper
  split <;> rfl

theorem DataQueueInv.stays (h : DataQueueInv size s.dq) (hdq : s'.dq = s.dq) : ShowsItems size s.dq.contents s' [] :=
  ⟨none, s.dq.contents, rfl, hdq ▸ h, by rw [hdq]⟩

theorem DataQueueInv.shows {event : DqEvent} (h : DataQueueInv size s.dq) (hdq : s'.dq = s.dq)
    (haccept : acceptItem size s.dq.contents event = some s.dq.contents) : ShowsItems size s.dq.contents s' [event] :=
  ⟨some event, s.dq.contents, by rw [stepItems, haccept]; rfl, hdq ▸ h, by rw [hdq]⟩

theorem DataQueueInv.follows_push (h : DataQueueInv size s.dq) (hwraps : s.dq.WrapsWell)
    (hs : rtDataQueuePush s caller item timeout = some (s', events)) : ShowsItems size s.dq.contents s' events := by
  unfold rtDataQueuePush at hs
  by_cases hfull : s.dq.difference = s.dq.size
  · rw [if_pos hfull] at hs
    have haccept : acceptItem size s.dq.contents (.full caller item) = some s.dq.contents :=
      if_pos (by rw [DataQueue.length_contents, (h.difference_iff hwraps.full).1 hfull, h.size_eq])
    split_ifs at hs
    · cases hs
      exact h.shows rfl haccept
    · cases caller with
      | none => cases hs
      | some t =>
        obtain ⟨timer, -, heq⟩ := Option.map_eq_some_iff.1 hs
        cases heq
        exact h.shows rfl haccept
  · rw [if_neg hfull] at hs
    cases hs
    have hroom : s.dq.queued < size :=
      Nat.lt_of_le_of_ne h.queued fun heq => hfull ((h.difference_iff hwraps.full).2 (heq.trans h.size_eq.symm))
    refine ⟨some (.pushed caller item), s.dq.contents ++ [item], ?_, ?_, ?_⟩
    · rw [stepItems, acceptItem, if_pos (by rw [DataQueue.length_contents]; exact hroom)]
      rfl
    · rw [DqState.resumePopper_dq]
      exact (h.put hroom).1
    · rw [DqState.resumePopper_dq]
      exact h.contents_put hroom (h.size_eq ▸ hwraps.cell)

theorem DataQueueInv.follows_pop (h : DataQueueInv size s.dq)
    (hs : rtDataQueuePop s caller timeout = some (s', events)) : ShowsItems size s.dq.contents s' events := by
  unfold rtDataQueuePop at hs
  by_cases hempty : s.dq.getIndex = s.dq.putIndex
  · rw [if_pos hempty] at hs
    have haccept : acceptItem size s.dq.contents (.empty caller) = some s.dq.contents := if_pos (h.empty_iff.1 hempty)
    split_ifs at hs
    · cases hs
      exact h.shows rfl haccept
    · cases caller with
      | none => cases hs
      | some t =>
        obtain ⟨timer, -, heq⟩ := Option.map_eq_some_iff.1 hs
        cases heq
        exact h.shows rfl haccept
  · rw [if_neg hempty] at hs
    cases hs
    obtain ⟨hinv, hcontents⟩ := h.take hempty
    have hdq : ∀ taken : DqState, taken.dq = s.dq.take →
        (if s.dq.take.difference ≤ s.dq.lwm then taken.resumePusher else taken).dq = s.dq.take := by
      intro taken htaken
      split_ifs
      · rw [DqState.resumePusher_dq, htaken]
      · exact htaken
    have hdq' := hdq { s with dq := s.dq.take } rfl
    refine ⟨some (.popped caller s.dq.front), s.dq.take.contents, ?_, by rw [hdq']; exact hinv, by rw [hdq']⟩
    rw [hcontents, stepItems, acceptItem, List.head?_cons, if_pos rfl]
    rfl

theorem DataQueueInv.step (h : DataQueueInv size s.dq) (hok : PushesWell s op) (hs : stepDq s op = some (s', events)) :
    ShowsItems size s.dq.contents s' events := by
  cases op with
  | push caller item timeout =>
    simp only [stepDq] at hs
    split_ifs at hs
    exact h.follows_push hok hs
  | pop caller timeout =>
    simp only [stepDq] at hs
    split_ifs at hs
    exact h.follows_pop hs
  | peak =>
    cases hs
    refine h.shows rfl (if_pos ?_)
    unfold rtDataQueuePeak
    split_ifs with hempty
    · rw [h.empty_iff.1 hempty]
      rfl
    · rw [(h.take hempty).2]
      rfl
  | resume t =>
    simp only [stepDq] at hs
    by_cases hwait : s.Waiting t
    · rw [if_pos hwait] at hs
      cases hs
    rw [if_neg hwait] at hs
    split at hs
    · cases hs
    · rename_i call hcall
      by_cases herror : (s.thread t).error = .eok
      · rw [if_neg (not_not.2 (show ((s.setCall t none).thread t).error = .eok from herror))] at hs
        cases call with
        | push item timeout =>
          simp only [PushesWell, hcall] at hok
          exact h.follows_push (s := s.setCall t none) (hok herror) hs
        | pop timeout => exact h.follows_pop (s := s.setCall t none) hs
      · rw [if_pos (show ((s.setCall t none).thread t).error ≠ .eok from herror)] at hs
        cases hs
        exact h.shows rfl rfl
  | timeout t =>
    simp only [stepDq] at hs
    split_ifs at hs
    cases hs
    exact h.stays rfl

/-- In every run of a data queue, of any length, whose pushes all find the put index well wrapped. -/
theorem dataQueueFifo_of_run (hrun : DqRun PushesWell queue size lwm trace s) : DataQueueFifo (size % 65536) trace s.dq := by
  have hzero : 0 < 65536 := by omega
  have hqueued : (DqState.init queue size lwm).dq.queued = 0 := by simp [DataQueue.queued, DqState.init]
  have hstart : DataQueueInv (size % 65536) (DqState.init queue size lwm).dq ∧
      (DqState.init queue size lwm).dq.contents = [] :=
    ⟨⟨rfl, Nat.mod_lt _ hzero, hzero, hzero, hqueued ▸ Nat.zero_le _⟩, List.eq_nil_of_length_eq_zero (by simpa using hqueued)⟩
  have hstep : ∀ s q op s' events, DataQueueInv (size % 65536) s.dq ∧ s.dq.contents = q → PushesWell s op →
      stepDq s op = some (s', events) →
      ∃ event q', stepItems (size % 65536) q event = some (q', events) ∧
        DataQueueInv (size % 65536) s'.dq ∧ s'.dq.contents = q' := by
    rintro s q op s' events ⟨h, rfl⟩ hok hs
    exact h.step hok hs
  obtain ⟨q, hq, hinv, rfl⟩ := hrun.refines (R := fun s q => DataQueueInv (size % 65536) s.dq ∧ s.dq.contents = q) hstart hstep
  exact ⟨hq, DataQueue.length_contents, hinv.queued⟩

/-- A push waits on a full queue of three, and stores its item when a pop has made room. -/
theorem dataQueueFifo_of_run_waits : ∃ trace s, DqRun PushesWell (fun _ => ⟨0, 0⟩) 3 2 trace s ∧
    trace = [.pushed none ⟨1, 1⟩, .pushed none ⟨2, 1⟩, .pushed none ⟨3, 1⟩, .full (some 0) ⟨4, 1⟩, .popped (some 1) ⟨1, 1⟩,
      .pushed (some 0) ⟨4, 1⟩, .peaked (some ⟨2, 1⟩)] ∧ DataQueueFifo 3 trace s.dq := by
  obtain ⟨trace, s, hrun, hfound⟩ := @Transition.exists_run_of_exec _ _ _ stepDq PushesWell (.init (fun _ => ⟨0, 0⟩) 3 2) _
    [.push none ⟨1, 1⟩ 0, .push none ⟨2, 1⟩ 0, .push none ⟨3, 1⟩ 0, .push (some 0) ⟨4, 1⟩ (-1), .pop (some 1) 0, .resume 0,
      .peak]
    (fun trace _ => decide (trace = [.pushed none ⟨1, 1⟩, .pushed none ⟨2, 1⟩, .pushed none ⟨3, 1⟩, .full (some 0) ⟨4, 1⟩,
      .popped (some 1) ⟨1, 1⟩, .pushed (some 0) ⟨4, 1⟩, .peaked (some ⟨2, 1⟩)])) (by decide +kernel)
  exact ⟨trace, s, hrun, of_decide_eq_true hfound, dataQueueFifo_of_run hrun⟩

/-! ## The wrap of the put index -/

def itemsPushed (trace : List DqEvent) : Nat := trace.countP fun event => event matches .pushed _ _

def itemsPopped (trace : List DqEvent) : Nat := trace.countP fun event => event matches .popped _ _

theorem itemsPushed_of_run (hrun : Transition.Run (stepItems size) (fun _ _ => True) [] trace q) :
    itemsPushed trace = itemsPopped trace + q.length ∧ q.length ≤ size := by
  refine hrun.invariant (I := fun trace q => itemsPushed trace = itemsPopped trace + q.length ∧ q.length ≤ size)
    ⟨rfl, Nat.zero_le _⟩ fun trace q event q' events h _ hs => ?_
  obtain ⟨hcount, hle⟩ := h
  unfold itemsPushed itemsPopped at *
  rw [List.countP_append, List.countP_append]
  cases event with
  | none =>
    cases hs
    exact ⟨hcount, hle⟩
  | some event =>
    obtain ⟨q₁, haccept, heq⟩ := Option.map_eq_some_iff.1 hs
    cases heq
    cases event with
    | pushed caller item =>
      simp only [acceptItem] at haccept
      split_ifs at haccept
      cases haccept
      simp
      omega
    | popped caller item =>
      simp only [acceptItem] at haccept
      split_ifs at haccept with hhead
      cases haccept
      cases q with
      | nil => cases hhead
      | cons x rest =>
        simp at hcount hle ⊢
        omega
    | full caller item =>
      simp only [acceptItem] at haccept
      split_ifs at haccept
      cases haccept
      simpa using ⟨hcount, hle⟩
    | empty caller =>
      simp only [acceptItem] at haccept
      split_ifs at haccept
      cases haccept
      simpa using ⟨hcount, hle⟩
    | peaked item =>
      simp only [acceptItem] at haccept
      split_ifs at haccept
      cases haccept
      simpa using ⟨hcount, hle⟩
    | failed caller result =>
      cases haccept
      simpa using ⟨hcount, hle⟩

/-- A queue of one item, which is empty and where all items are equal, with its indices at `index`. -/
def oneItem (index : Nat) : DqState :=
  { DqState.init (fun _ => ⟨0, 0⟩) 1 0 with dq := ⟨1, 0, index, index, fun _ => ⟨0, 0⟩⟩ }

theorem oneItem_push (index putIndex : Nat) (hne : (putIndex : Int) - index ≠ 1) :
    stepDq { oneItem index with dq := ⟨1, 0, index, putIndex, fun _ => ⟨0, 0⟩⟩ } (.push none ⟨0, 0⟩ 0) =
      some ({ oneItem index with dq := ⟨1, 0, index, (putIndex + 1) % 65536, fun _ => ⟨0, 0⟩⟩ }, [.pushed none ⟨0, 0⟩]) := by
  have hput : DataQueue.put ⟨1, 0, index, putIndex, fun _ => ⟨0, 0⟩⟩ ⟨0, 0⟩ =
      ⟨1, 0, index, (putIndex + 1) % 65536, fun _ => ⟨0, 0⟩⟩ := by
    rw [DataQueue.put, Function.update_eq_self]
  have hfull : ¬ (DataQueue.difference ⟨1, 0, index, putIndex, fun _ => ⟨0, 0⟩⟩ = (1 : Nat)) := hne
  simp only [stepDq, DqState.Free, if_true, rtDataQueuePush, if_neg hfull, hput]
  rfl

theorem oneItem_pop (index : Nat) (hne : index ≠ (index + 1) % 65536) :
    stepDq { oneItem index with dq := ⟨1, 0, index, (index + 1) % 65536, fun _ => ⟨0, 0⟩⟩ } (.pop none 0) =
      some (oneItem ((index + 1) % 65536), [.popped none ⟨0, 0⟩]) := by
  have htake : DataQueue.take ⟨1, 0, index, (index + 1) % 65536, fun _ => ⟨0, 0⟩⟩ =
      ⟨1, 0, (index + 1) % 65536, (index + 1) % 65536, fun _ => ⟨0, 0⟩⟩ := rfl
  simp only [stepDq, DqState.Free, if_true, rtDataQueuePop, if_neg hne, htake]
  split_ifs <;> rfl

theorem exists_run_rounds (n : Nat) : ∃ trace, DqRun (fun _ _ => True) (fun _ => ⟨0, 0⟩) 1 0 trace (oneItem (n % 65536)) ∧
    itemsPushed trace = n ∧ itemsPopped trace = n := by
  induction n with
  | zero => exact ⟨[], .start, rfl, rfl⟩
  | succ n ih =>
    obtain ⟨trace, hrun, hpushed, hpopped⟩ := ih
    have hpush := oneItem_push (n % 65536) (n % 65536) (by omega)
    have hpop := oneItem_pop (n % 65536) (by omega)
    have hindex : (n % 65536 + 1) % 65536 = (n + 1) % 65536 := by omega
    have hrun' := (hrun.next trivial hpush).next trivial hpop
    rw [hindex] at hrun'
    refine ⟨_, hrun', ?_, ?_⟩
    · simpa [itemsPushed] using hpushed
    · simpa [itemsPopped] using hpopped

/-- When the put index has wrapped, a push onto a full queue succeeds. -/
theorem dataQueueFifo_fails : ∃ trace s, DqRun (fun _ _ => True) (fun _ => ⟨0, 0⟩) 1 0 trace s ∧
    ¬ DataQueueFifo 1 trace s.dq := by
  obtain ⟨trace, hrun, hpushed, hpopped⟩ := exists_run_rounds 65535
  have hrun' := (hrun.next trivial (oneItem_push 65535 65535 (by omega))).next trivial (oneItem_push 65535 0 (by omega))
  refine ⟨_, _, hrun', fun hfifo => ?_⟩
  obtain ⟨hcount, hle⟩ := itemsPushed_of_run hfifo.refines
  simp only [itemsPushed, itemsPopped, List.countP_append] at hcount hpushed hpopped
  simp at hcount hle
  omega

end RtThread
