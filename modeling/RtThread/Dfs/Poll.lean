import RtThread.Drivers.WaitQueue

/-!
# Waiting for events of descriptors

`poll.c`. Each turn of the loop of `poll_do` asks every descriptor, and suspends the caller if none has an event. Until a first event is found in the first turn, the drivers add nodes to their wait queues; a wake-up whose key a node asks for sets `triggered`, takes the node out of its queue and resumes the caller. `triggered` is never reset.

What the drivers answer, when wake-ups come and how long a wait takes is given for each turn.
-/

namespace RtThread

/-- `struct pollfd`, without the result. -/
structure PollFd where
  fd : Int
  events : BitVec 16
  deriving DecidableEq

/-- `POLLERR | POLLHUP` -/
def pollErrHup : BitVec 32 := 0x0c

def pollNval : BitVec 32 := 0x10

def pollMaskDefault : BitVec 32 := 0x03

/-- `struct rt_poll_table`: whether `req._proc` is set, the flag, and the keys of the nodes that are in a wait queue. -/
structure PollTable where
  proc : Bool
  triggered : Bool
  nodes : List (Option (BitVec 32))
  deriving DecidableEq

abbrev PollWakeUp : Type := Nat × BitVec 32

structure PollAnswer where
  /-- `fd_get`, and what the `poll` operation of the file returns if it has one. -/
  file : Option (Option (BitVec 32))
  /-- The calls of `rt_poll_add`, and whether there is memory for the node. -/
  adds : List Bool
  wakes : List PollWakeUp

structure PollTurn where
  answers : Nat → PollAnswer
  duration : Option Nat
  wakes : List PollWakeUp

namespace PollTable

/-- `rt_wqueue_wakeup` with `__wqueue_pollwake` for the node. -/
def wake (t : PollTable) (w : PollWakeUp) : PollTable :=
  match t.nodes[w.1]?.join with
  | none => t
  | some key => if w.2 ≠ 0 ∧ w.2 &&& key = 0 then t else { t with triggered := true, nodes := t.nodes.set w.1 none }

def wakeAll (t : PollTable) (wakes : List PollWakeUp) : PollTable := wakes.foldl wake t

/-- `_poll_add`, through `rt_poll_add` -/
def add (key : BitVec 32) (t : PollTable) (memory : Bool) : PollTable :=
  if t.proc = true ∧ memory = true then { t with nodes := t.nodes ++ [some key] } else t

end PollTable

def PollFd.wanted (pf : PollFd) : BitVec 32 := pf.events.signExtend 32 ||| pollErrHup

def doPollfd (pf : PollFd) (answer : PollAnswer) (t : PollTable) : BitVec 32 × PollTable :=
  if 0 ≤ pf.fd then
    match answer.file with
    | none => (pollNval, t)
    | some none => (pollMaskDefault &&& pf.wanted, t)
    | some (some mask) => (mask &&& pf.wanted, answer.adds.foldl (PollTable.add pf.wanted) t)
  else (0, t)

/-- The inner loop of `poll_do`: the number of descriptors with an event. -/
def pollScan (answers : Nat → PollAnswer) : Nat → List PollFd → PollTable → Nat × PollTable
  | _, [], t => (0, t)
  | n, pf :: fds, t =>
    let (mask, t) := doPollfd pf (answers n) t
    let t := (if mask ≠ 0 then { t with proc := false } else t).wakeAll (answers n).wakes
    let (num, t) := pollScan answers (n + 1) fds t
    (if mask ≠ 0 then num + 1 else num, t)

/-- What `poll_do` keeps from turn to turn. -/
structure PollState where
  table : PollTable
  istimeout : Bool
  deriving DecidableEq

inductive PollOutcome
  | returned (num : Nat)
  | suspended (duration : Nat) (next : PollState)
  | hung
  /-- The loop goes on and has not suspended the caller. -/
  | again (next : PollState)
  deriving DecidableEq

/-- A turn of the loop of `poll_do`, with `poll_wait_timeout`. -/
def pollTurn (timeout : Int) (fds : List PollFd) (s : PollState) (turn : PollTurn) : PollOutcome :=
  let (num, t) := pollScan turn.answers 0 fds s.table
  let t := { t with proc := false }
  if num ≠ 0 ∨ s.istimeout = true then .returned num
  else if timeout ≠ 0 ∧ t.triggered = false then
    match turn.duration with
    | none => .hung
    | some duration => .suspended duration ⟨t.wakeAll turn.wakes, !(t.wakeAll turn.wakes).triggered⟩
  else .again ⟨t, !t.triggered⟩

/-- `poll_table_init`, and `poll_do` before its loop. -/
def pollStart (msec : Int) : PollState := ⟨⟨msec ≠ 0, false, []⟩, msec = 0⟩

section

variable (timeout msec : Int) (fds : List PollFd) (turns : Nat → PollTurn)

def pollState : Nat → Option PollState
  | 0 => some (pollStart msec)
  | k + 1 => (pollState k).bind fun s =>
    match pollTurn timeout fds s (turns k) with
    | .suspended _ next | .again next => some next
    | _ => none

def pollWaited : Nat → Nat
  | 0 => 0
  | k + 1 => pollWaited k +
    match (pollState timeout msec fds turns k).map fun s => pollTurn timeout fds s (turns k) with
    | some (.suspended duration _) => duration
    | _ => 0

end

/-! ## The timeout -/

def pollBudget (tickPerSecond msec : Nat) : Nat := (tickPerSecond * msec + 999) / 1000

/-- Every turn returns or suspends the caller, the waits take no longer than the timeout, and the loop returns; after a wait that no wake-up
has ended it does so with what it finds then. -/
structure PollsInTime (tickPerSecond msec : Nat) (fds : List PollFd) (turns : Nat → PollTurn) : Prop where
  turn : ∀ k s, pollState (rtTickFromMillisecond tickPerSecond msec) msec fds turns k = some s →
    (∃ num, pollTurn (rtTickFromMillisecond tickPerSecond msec) fds s (turns k) = .returned num) ∨
      ∃ duration next, pollTurn (rtTickFromMillisecond tickPerSecond msec) fds s (turns k) = .suspended duration next
  waits : ∀ k, pollWaited (rtTickFromMillisecond tickPerSecond msec) msec fds turns k ≤ pollBudget tickPerSecond msec
  returns : ∃ k s num, pollState (rtTickFromMillisecond tickPerSecond msec) msec fds turns k = some s ∧
    pollTurn (rtTickFromMillisecond tickPerSecond msec) fds s (turns k) = .returned num
  timedOut : ∀ k s, pollState (rtTickFromMillisecond tickPerSecond msec) msec fds turns (k + 1) = some s → s.table.triggered = false →
    pollTurn (rtTickFromMillisecond tickPerSecond msec) fds s (turns (k + 1)) = .returned (pollScan (turns (k + 1)).answers 0 fds s.table).1

def TimerEnds (timeout : Int) (turns : Nat → PollTurn) : Prop :=
  0 < timeout → ∀ k, ∃ duration, (turns k).duration = some duration ∧ (duration : Int) ≤ timeout

/-- With a timeout, and no event found in the first turn: no wake-up comes before that turn waits, the timeout is not computed as no ticks, if it
is computed as negative the caller is resumed in time all the same, and after a wake-up in the wait the second turn finds an event. -/
def WakeUpsCount (tickPerSecond msec : Nat) (fds : List PollFd) (turns : Nat → PollTurn) : Prop :=
  let first := pollScan (turns 0).answers 0 fds (pollStart msec).table
  let waiting := ({ first.2 with proc := false } : PollTable).wakeAll (turns 0).wakes
  msec = 0 ∨ first.1 ≠ 0 ∨
    first.2.triggered = false ∧ rtTickFromMillisecond tickPerSecond msec ≠ 0 ∧
      (rtTickFromMillisecond tickPerSecond msec < 0 → ∃ duration ∈ (turns 0).duration, duration ≤ pollBudget tickPerSecond msec) ∧
      (waiting.triggered = true → (pollScan (turns 1).answers 0 fds waiting).1 ≠ 0)

theorem toInt_ofInt_le (x : Nat) : (BitVec.ofInt 32 x).toInt ≤ x := by
  rw [BitVec.toInt_ofInt, Int.bmod_def]
  split_ifs <;> omega

theorem rtTickFromMillisecond_le (tickPerSecond msec : Nat) : rtTickFromMillisecond tickPerSecond msec ≤ pollBudget tickPerSecond msec := by
  rw [rtTickFromMillisecond, if_neg (by omega), pollBudget]
  have hcast : (tickPerSecond : Int) * msec + 999 = (tickPerSecond * msec + 999 : Nat) := by push_cast; rfl
  rw [hcast]
  generalize tickPerSecond * msec + 999 = x
  calc (BitVec.ofInt 32 x).toInt.tdiv 1000 ≤ (x : Int).tdiv 1000 := Int.tdiv_le_tdiv (by decide) (toInt_ofInt_le x)
    _ = (x / 1000 : Nat) := by rw [Int.tdiv_eq_ediv_of_nonneg (Int.natCast_nonneg x)]; rfl

section

variable {timeout : Int} {msec : Int} {fds : List PollFd} {turns : Nat → PollTurn} {s : PollState} {turn : PollTurn}

theorem pollTurn_returned (h : (pollScan turn.answers 0 fds s.table).1 ≠ 0 ∨ s.istimeout = true) :
    pollTurn timeout fds s turn = .returned (pollScan turn.answers 0 fds s.table).1 := if_pos h

theorem pollTurn_again (h : ¬((pollScan turn.answers 0 fds s.table).1 ≠ 0 ∨ s.istimeout = true))
    (hwait : ¬(timeout ≠ 0 ∧ (pollScan turn.answers 0 fds s.table).2.triggered = false)) :
    ∃ next, pollTurn timeout fds s turn = .again next := ⟨_, (if_neg h).trans (if_neg hwait)⟩

theorem pollTurn_waits (h : ¬((pollScan turn.answers 0 fds s.table).1 ≠ 0 ∨ s.istimeout = true))
    (hwait : timeout ≠ 0 ∧ (pollScan turn.answers 0 fds s.table).2.triggered = false) :
    pollTurn timeout fds s turn =
      match turn.duration with
      | none => .hung
      | some duration =>
        .suspended duration ⟨({ (pollScan turn.answers 0 fds s.table).2 with proc := false } : PollTable).wakeAll turn.wakes,
          !(({ (pollScan turn.answers 0 fds s.table).2 with proc := false } : PollTable).wakeAll turn.wakes).triggered⟩ :=
  (if_neg h).trans (if_pos hwait)

theorem pollState_succ {k : Nat} (hk : pollState timeout msec fds turns k = some s) :
    pollState timeout msec fds turns (k + 1) =
      match pollTurn timeout fds s (turns k) with
      | .suspended _ next | .again next => some next
      | _ => none := by
  rw [pollState, hk, Option.bind_some]

theorem pollState_of_returned {k num : Nat} (hk : pollState timeout msec fds turns k = some s)
    (hreturned : pollTurn timeout fds s (turns k) = .returned num) (j : Nat) : pollState timeout msec fds turns (k + 1 + j) = none := by
  induction j with
  | zero => rw [Nat.add_zero, pollState_succ hk, hreturned]
  | succ j ih => rw [← Nat.add_assoc, pollState, ih, Option.bind_none]

theorem istimeout_eq {k : Nat} (hk : pollState timeout msec fds turns (k + 1) = some s) : s.istimeout = !s.table.triggered := by
  rw [pollState] at hk
  obtain ⟨s₀, -, hnext⟩ := Option.bind_eq_some_iff.1 hk
  cases hturn : pollTurn timeout fds s₀ (turns k) with
  | returned num => rw [hturn] at hnext; cases hnext
  | hung => rw [hturn] at hnext; cases hnext
  | again next =>
    rw [hturn] at hnext
    cases hnext
    rw [pollTurn] at hturn
    dsimp only at hturn
    split_ifs at hturn with hreturn hwait
    · cases hduration : (turns k).duration <;> rw [hduration] at hturn <;> cases hturn
    · cases hturn
      rfl
  | suspended duration next =>
    rw [hturn] at hnext
    cases hnext
    rw [pollTurn] at hturn
    dsimp only at hturn
    split_ifs at hturn with hreturn hwait
    cases hduration : (turns k).duration <;> rw [hduration] at hturn <;> cases hturn
    rfl

theorem PollTable.wakeAll_triggered {t : PollTable} (h : t.triggered = true) (wakes : List PollWakeUp) : (t.wakeAll wakes).triggered = true := by
  induction wakes generalizing t with
  | nil => exact h
  | cons w wakes ih =>
    refine ih ?_
    rw [PollTable.wake]
    split
    · exact h
    · split_ifs
      · exact h
      · rfl

theorem doPollfd_triggered {t : PollTable} (h : t.triggered = true) (pf : PollFd) (answer : PollAnswer) :
    (doPollfd pf answer t).2.triggered = true := by
  have hadds : ∀ (adds : List Bool) (t : PollTable), t.triggered = true → (adds.foldl (PollTable.add pf.wanted) t).triggered = true := by
    intro adds
    induction adds with
    | nil => exact fun _ h => h
    | cons memory adds ih =>
      intro t h
      refine ih _ ?_
      rw [PollTable.add]
      split_ifs <;> exact h
  rw [doPollfd]
  split_ifs
  · split
    · exact h
    · exact h
    · exact hadds answer.adds t h
  · exact h

theorem pollScan_triggered {t : PollTable} (h : t.triggered = true) (answers : Nat → PollAnswer) (n : Nat) (fds : List PollFd) :
    (pollScan answers n fds t).2.triggered = true := by
  induction fds generalizing n t with
  | nil => exact h
  | cons pf fds ih =>
    refine ih (PollTable.wakeAll_triggered ?_ _) (n + 1)
    have hasked := doPollfd_triggered h pf (answers n)
    split_ifs <;> exact hasked

theorem pollWaited_succ {k : Nat} (hk : pollState timeout msec fds turns k = some s) :
    pollWaited timeout msec fds turns (k + 1) = pollWaited timeout msec fds turns k +
      match pollTurn timeout fds s (turns k) with
      | .suspended duration _ => duration
      | _ => 0 := by
  rw [pollWaited, hk, Option.map_some]
  cases pollTurn timeout fds s (turns k) <;> rfl

theorem pollWaited_of_none {k : Nat} (hk : ∀ j, pollState timeout msec fds turns (k + j) = none) (j : Nat) :
    pollWaited timeout msec fds turns (k + j) = pollWaited timeout msec fds turns k := by
  induction j with
  | zero => rfl
  | succ j ih => rw [← Nat.add_assoc, pollWaited, hk j, ih, Option.map_none, Nat.add_zero]

theorem pollWaited_mono {j k : Nat} (h : j ≤ k) : pollWaited timeout msec fds turns j ≤ pollWaited timeout msec fds turns k := by
  induction h with
  | refl => exact Nat.le_refl _
  | step _ ih => exact ih.trans (Nat.le_add_right _ _)

end

variable {tickPerSecond msec : Nat} {fds : List PollFd} {turns : Nat → PollTurn}

theorem pollsInTime_of_first
    (h : (pollScan (turns 0).answers 0 fds (pollStart msec).table).1 ≠ 0 ∨ (pollStart msec).istimeout = true) :
    PollsInTime tickPerSecond msec fds turns := by
  have hreturned := @pollTurn_returned (rtTickFromMillisecond tickPerSecond msec) fds (pollStart msec) (turns 0) h
  have hnone : ∀ j, pollState (rtTickFromMillisecond tickPerSecond msec) msec fds turns (0 + 1 + j) = none :=
    pollState_of_returned rfl hreturned
  refine ⟨?_, ?_, ⟨0, _, _, rfl, hreturned⟩, ?_⟩
  · intro k s hk
    cases k with
    | zero =>
      cases hk
      exact Or.inl ⟨_, hreturned⟩
    | succ k =>
      rw [Nat.add_comm, ← Nat.zero_add 1, hnone k] at hk
      cases hk
  · intro k
    have hone : pollWaited (rtTickFromMillisecond tickPerSecond msec) msec fds turns (0 + 1) = 0 := by
      rw [pollWaited_succ rfl, hreturned]
      rfl
    refine (pollWaited_mono (Nat.le_add_left k (0 + 1))).trans ?_
    rw [pollWaited_of_none hnone, hone]
    exact Nat.zero_le _
  · intro k s hk
    rw [Nat.add_comm, ← Nat.zero_add 1, hnone k] at hk
    cases hk

theorem pollsInTime_of_second {duration num : Nat} {next : PollState}
    (hfirst : pollTurn (rtTickFromMillisecond tickPerSecond msec) fds (pollStart msec) (turns 0) = .suspended duration next)
    (hduration : duration ≤ pollBudget tickPerSecond msec)
    (hsecond : pollTurn (rtTickFromMillisecond tickPerSecond msec) fds next (turns 1) = .returned num) :
    PollsInTime tickPerSecond msec fds turns := by
  have hone : pollState (rtTickFromMillisecond tickPerSecond msec) msec fds turns 1 = some next := by
    rw [← Nat.zero_add 1, pollState_succ rfl, hfirst]
  have hnone : ∀ j, pollState (rtTickFromMillisecond tickPerSecond msec) msec fds turns (1 + 1 + j) = none :=
    pollState_of_returned hone hsecond
  refine ⟨?_, ?_, ⟨1, _, _, hone, hsecond⟩, ?_⟩
  · intro k s hk
    match k with
    | 0 =>
      cases hk
      exact Or.inr ⟨_, _, hfirst⟩
    | 1 =>
      rw [hone] at hk
      cases hk
      exact Or.inl ⟨_, hsecond⟩
    | k + 2 =>
      rw [Nat.add_comm, hnone k] at hk
      cases hk
  · intro k
    have htwo : pollWaited (rtTickFromMillisecond tickPerSecond msec) msec fds turns (1 + 1) = duration := by
      rw [pollWaited_succ hone, hsecond, ← Nat.zero_add 1, pollWaited_succ rfl, hfirst]
      exact Nat.zero_add duration
    refine (pollWaited_mono (Nat.le_add_left k (1 + 1))).trans ?_
    rw [pollWaited_of_none hnone, htwo]
    exact hduration
  · intro k s hk htriggered
    cases k with
    | zero =>
      refine pollTurn_returned (Or.inr ?_)
      rw [istimeout_eq hk, htriggered]
      rfl
    | succ k =>
      rw [Nat.add_comm, Nat.add_comm k 1, ← Nat.add_assoc, hnone k] at hk
      cases hk

/-- Each turn returns or suspends, the waits add up to at most the timeout and the loop returns, just if wake-ups are not in vain. -/
theorem poll_timeout (tickPerSecond msec : Nat) (fds : List PollFd) (turns : Nat → PollTurn)
    (htimer : TimerEnds (rtTickFromMillisecond tickPerSecond msec) turns) :
    PollsInTime tickPerSecond msec fds turns ↔ WakeUpsCount tickPerSecond msec fds turns := by
  rw [WakeUpsCount]
  by_cases hmsec : msec = 0
  · refine iff_of_true (pollsInTime_of_first (Or.inr ?_)) (Or.inl hmsec)
    subst hmsec
    rfl
  by_cases hfound : (pollScan (turns 0).answers 0 fds (pollStart msec).table).1 ≠ 0
  · exact iff_of_true (pollsInTime_of_first (Or.inl hfound)) (Or.inr (Or.inl hfound))
  dsimp only
  rw [or_iff_right hmsec, or_iff_right hfound]
  have hstart : ¬((pollScan (turns 0).answers 0 fds (pollStart msec).table).1 ≠ 0 ∨ (pollStart msec).istimeout = true) := by
    rintro (hno | hno)
    · exact hfound hno
    · have hzero := of_decide_eq_true hno
      omega
  constructor
  · intro h
    have hwait : rtTickFromMillisecond tickPerSecond msec ≠ 0 ∧
        (pollScan (turns 0).answers 0 fds (pollStart msec).table).2.triggered = false := by
      by_contra hno
      obtain ⟨next, hagain⟩ := @pollTurn_again (rtTickFromMillisecond tickPerSecond msec) fds (pollStart msec) (turns 0) hstart hno
      rcases h.turn 0 _ rfl with ⟨num, heq⟩ | ⟨duration, next', heq⟩ <;> rw [hagain] at heq <;> cases heq
    have hturn := @pollTurn_waits (rtTickFromMillisecond tickPerSecond msec) fds (pollStart msec) (turns 0) hstart hwait
    cases hduration : (turns 0).duration with
    | none =>
      rw [hduration] at hturn
      rcases h.turn 0 _ rfl with ⟨num, heq⟩ | ⟨duration, next', heq⟩ <;> rw [hturn] at heq <;> cases heq
    | some duration =>
      rw [hduration] at hturn
      refine ⟨hwait.2, hwait.1, fun _ => ⟨duration, rfl, ?_⟩, fun htriggered hzero => ?_⟩
      · have hwaits := h.waits 1
        rw [← Nat.zero_add 1, pollWaited_succ rfl, hturn] at hwaits
        exact (Nat.le_add_left _ _).trans hwaits
      · -- the second turn finds the flag set and nothing to report
        have hone := @pollState_succ (rtTickFromMillisecond tickPerSecond msec) msec fds turns (pollStart msec) 0 rfl
        rw [hturn] at hone
        dsimp only at hone
        obtain ⟨next, hagain⟩ := @pollTurn_again (rtTickFromMillisecond tickPerSecond msec) fds
          ⟨({ (pollScan (turns 0).answers 0 fds (pollStart msec).table).2 with proc := false } : PollTable).wakeAll (turns 0).wakes,
            !(({ (pollScan (turns 0).answers 0 fds (pollStart msec).table).2 with proc := false } : PollTable).wakeAll (turns 0).wakes).triggered⟩
          (turns 1) (fun hno => hno.elim (fun hne => hne hzero) fun htimeout => by rw [htriggered] at htimeout; cases htimeout)
          (fun hno => by rw [pollScan_triggered htriggered] at hno; exact nomatch hno.2)
        rcases h.turn 1 _ hone with ⟨num, heq⟩ | ⟨duration, next', heq⟩ <;> rw [hagain] at heq <;> cases heq
  · rintro ⟨hnot, hne, hhung, hsecond⟩
    obtain ⟨duration, hduration, hle⟩ : ∃ duration, (turns 0).duration = some duration ∧ duration ≤ pollBudget tickPerSecond msec := by
      by_cases hneg : rtTickFromMillisecond tickPerSecond msec < 0
      · exact hhung hneg
      · obtain ⟨duration, hduration, hle⟩ := htimer (by omega) 0
        have hbudget := rtTickFromMillisecond_le tickPerSecond msec
        exact ⟨duration, hduration, by omega⟩
    have hturn := @pollTurn_waits (rtTickFromMillisecond tickPerSecond msec) fds (pollStart msec) (turns 0) hstart ⟨hne, hnot⟩
    rw [hduration] at hturn
    refine pollsInTime_of_second hturn hle (pollTurn_returned ?_)
    dsimp only
    cases htriggered : (({ (pollScan (turns 0).answers 0 fds (pollStart msec).table).2 with proc := false } : PollTable).wakeAll
      (turns 0).wakes).triggered with
    | true => exact Or.inl (hsecond htriggered)
    | false => exact Or.inr rfl

def quietTurn (duration : Nat) (wakes : List PollWakeUp) : PollTurn := ⟨fun _ => ⟨some (some 0), [true], []⟩, some duration, wakes⟩

/-- Ten milliseconds without a wake-up. -/
theorem poll_timeout_quiet : PollsInTime 1000 10 [⟨3, 1⟩] fun _ => quietTurn 10 [] := by
  have htimer : TimerEnds (rtTickFromMillisecond (1000 : Nat) (10 : Nat)) fun _ => quietTurn 10 [] :=
    fun _ _ => ⟨10, rfl, by decide +kernel⟩
  refine (poll_timeout 1000 10 [⟨3, 1⟩] _ htimer).2 (Or.inr (Or.inr ⟨by decide, by decide +kernel, fun hneg => ?_, fun hno => ?_⟩))
  · exact absurd hneg (by decide +kernel)
  · exact absurd hno (by decide +kernel)

/-- A wake-up for input after two ticks, and nothing to read when the descriptor is asked again: the next turn neither returns nor waits. -/
theorem poll_timeout_woken : TimerEnds (rtTickFromMillisecond (1000 : Nat) (10 : Nat)) (fun _ => quietTurn 2 [(0, 1)]) ∧
    ¬PollsInTime 1000 10 [⟨3, 1⟩] fun _ => quietTurn 2 [(0, 1)] := by
  refine ⟨fun _ _ => ⟨2, rfl, by decide +kernel⟩, fun h => ?_⟩
  have hone : pollState (rtTickFromMillisecond (1000 : Nat) (10 : Nat)) (10 : Nat) [⟨3, 1⟩] (fun _ => quietTurn 2 [(0, 1)]) 1 =
      some ⟨⟨false, true, [none]⟩, false⟩ := by decide +kernel
  have hagain : pollTurn (rtTickFromMillisecond (1000 : Nat) (10 : Nat)) [⟨3, 1⟩] ⟨⟨false, true, [none]⟩, false⟩ (quietTurn 2 [(0, 1)]) =
      .again ⟨⟨false, true, [none]⟩, false⟩ := by decide +kernel
  rcases h.turn 1 _ hone with ⟨num, heq⟩ | ⟨duration, next, heq⟩ <;> rw [hagain] at heq <;> cases heq

end RtThread
