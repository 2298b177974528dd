import RtThread.Lib.Linked
import RtThread.Signal.Signals

/-!
# Pending signals of a thread

`signal.c` in the memory of one thread: the bits of `sig_pending`, and `si_list`, a list of nodes from a pool that all threads share. A node is a `siginfo_t` with a list member behind it. `si_list` is declared as a pointer to nothing in particular: most of the code stores and reads the address of a node there, but `rt_signal_wait` may store the address of a list member, and `rt_thread_kill` reads one.

The steps are the sections between two points at which interrupts are enabled. Calls of `rt_thread_kill` may be under way in any number, made by other threads, by interrupt handlers or by the thread itself, and `rt_thread_handle_sig` may be called at any time in the thread, in a signal handler too.
-/

namespace RtThread

/-- What `si_list` holds. -/
inductive SiPtr
  | null
  | node (i : Nat)
  | link (i : Nat)
  deriving DecidableEq

/-- How far a call of `rt_thread_kill` has got. -/
inductive KillAt
  /-- "update sig info": what it takes for the next list member. -/
  | update (sig : Nat) (node : SiPtr)
  | alloc (sig : Nat)
  | append (sig : Nat) (i : Nat)
  deriving DecidableEq

def KillAt.sig : KillAt → Nat
  | .update sig _ | .alloc sig | .append sig _ => sig

def KillAt.taken : KillAt → Option Nat
  | .append _ i => some i
  | _ => none

structure SignalState where
  sigPending : BitVec 32
  sigMask : BitVec 32
  siList : SiPtr
  siSigno : Nat → Nat
  /-- `list.next`, which points to a list member. -/
  next : Nat → Option Nat
  used : Nat → Bool
  kills : List KillAt
  /-- The handlers that run, the innermost first, with the nodes that their `rt_thread_handle_sig` has to free. -/
  frames : List (Nat × Nat)
  /-- `RT_THREAD_STAT_SIGNAL_WAIT`, and the set that `rt_signal_wait` was called with. -/
  waiting : Option (BitVec 32)

inductive SignalOp
  | kill (sig : Nat)
  /-- The next step of "update sig info"; `stray` says whether what is read where there is no node passes for the signal. -/
  | update (sig : Nat) (node : SiPtr) (stray : Bool)
  /-- `rt_mp_alloc` gives a node, or finds the pool exhausted. -/
  | alloc (sig : Nat) (node : Option Nat)
  | append (sig : Nat) (i : Nat)
  | mask (signo : Nat)
  | unmask (signo : Nat)
  | handleSig
  | handlerReturn
  | wait (set : BitVec 32) (timeout : Int)
  /-- A thread in `rt_signal_wait` goes on behind `rt_schedule`. -/
  | waitEnd (timedOut : Bool)
  deriving DecidableEq

inductive SignalEvent
  | raised (sig : Nat)
  | handled (signo : Nat) (sigMask : BitVec 32)
  /-- The loop of `rt_thread_handle_sig` has ended. -/
  | finished
  /-- `rt_signal_wait` returns `RT_EOK` with this `si_signo`. -/
  | waited (signo : Nat)
  deriving DecidableEq

def linkTo : Option Nat → SiPtr
  | none => .null
  | some i => .link i

/-- The same after `rt_slist_entry`. -/
def entryOf : Option Nat → SiPtr
  | none => .null
  | some i => .node i

namespace SignalState

/-- `rt_thread_kill` up to its first `rt_hw_interrupt_enable`. -/
def rtThreadKill (s : SignalState) (sig : Nat) : SignalState × List SignalEvent :=
  if sig < 32 then
    if s.sigPending &&& RtThread.sigMask sig ≠ 0 then ({ s with kills := .update sig s.siList :: s.kills }, [])
    else
      ({ s with sigPending := s.sigPending ||| RtThread.sigMask sig, kills := .alloc sig :: s.kills }, [.raised sig])
  else (s, [])

/-- A call of `rt_thread_kill` goes on to another place, or returns. -/
def killGoes (s : SignalState) (old : KillAt) (new : Option KillAt) : SignalState :=
  { s with kills := new.toList ++ s.kills.erase old }

/-- "update sig info"; the info is the same each time. A node's address is not that of its list member, and what stands before it is not a node. -/
def killUpdate (s : SignalState) (sig : Nat) (node : SiPtr) (stray : Bool) : SignalState :=
  s.killGoes (.update sig node) <|
    match node with
    | .null => some (.alloc sig)
    | .link i => if s.siSigno i = sig then none else some (.update sig (linkTo (s.next i)))
    | .node _ => if stray then none else some (.alloc sig)

def killAlloc (sigInfoMax : Nat) (s : SignalState) (sig : Nat) : Option Nat → Option SignalState
  | none => some (s.killGoes (.alloc sig) none)
  | some i =>
    if i < sigInfoMax ∧ s.used i = false then
      some ({ s with
        siSigno := Function.update s.siSigno i sig
        next := Function.update s.next i none
        used := Function.update s.used i true }.killGoes (.alloc sig) (some (.append sig i)))
    else none

/-- The node is linked; `rt_slist_append`. -/
def killAppend (sigInfoMax : Nat) (s : SignalState) (sig i : Nat) : Option SignalState :=
  let s := s.killGoes (.append sig i) none
  match s.siList with
  | .null => some { s with siList := .node i }
  | .node first =>
    (lastFrom s.next sigInfoMax first).map fun last =>
      { s with next := Function.update (Function.update s.next last (some i)) i none }
  | .link _ => none

/-- The loop of `rt_thread_handle_sig` up to the call of a handler, or to its end. -/
def handleSigRound (s : SignalState) : Option (SignalState × List SignalEvent) :=
  if s.sigPending &&& s.sigMask = 0 then some (s, [.finished])
  else
    match s.siList with
    | .null => some (s, [.finished])
    | .node i =>
      some ({ s with siList := entryOf (s.next i), frames := (i, s.siSigno i) :: s.frames },
        [.handled (s.siSigno i) s.sigMask])
    | .link _ => none

def rtThreadHandleSig (s : SignalState) : Option (SignalState × List SignalEvent) :=
  if s.sigPending &&& s.sigMask ≠ 0 ∧ s.waiting = none then s.handleSigRound else some (s, [])

def roundEnd (s : SignalState) (i signo : Nat) (frames : List (Nat × Nat)) : SignalState :=
  { s with
    sigPending := s.sigPending &&& ~~~RtThread.sigMask signo
    used := Function.update s.used i false
    frames }

/-- "to get the first matched pending signals": the node, with the one before it. -/
def waitScan (s : SignalState) (set : BitVec 32) : Nat → Option Nat → Nat → Option (Option Nat × Nat)
  | 0, _, _ => none
  | fuel + 1, siPrev, i =>
    if RtThread.sigMask (s.siSigno i) &&& set ≠ 0 then some (siPrev, i)
    else
      match s.next i with
      -- `rt_slist_entry` of a null pointer
      | none => none
      | some j => waitScan s set fuel (some i) j

def waitTake (s : SignalState) (siPrev : Option Nat) (i : Nat) : SignalState :=
  { s with
    siList := if siPrev = none then linkTo (s.next i) else s.siList
    next := match siPrev with
      | none => s.next
      | some prev => Function.update s.next prev (s.next i)
    sigPending := s.sigPending &&& ~~~RtThread.sigMask (s.siSigno i)
    used := Function.update s.used i false }

/-- The part of `rt_signal_wait` from `__done` on. -/
def waitDone (sigInfoMax : Nat) (s : SignalState) (set : BitVec 32) : Option (SignalState × List SignalEvent) :=
  match s.siList with
  -- the info has been cleared
  | .null => some (s, [.waited 0])
  | .node first =>
    (s.waitScan set sigInfoMax none first).map fun r => (s.waitTake r.1 r.2, [.waited (s.siSigno r.2)])
  | .link _ => none

/-- `rt_signal_wait` up to `rt_schedule`, or to its end. -/
def rtSignalWait (sigInfoMax : Nat) (s : SignalState) (set : BitVec 32) (timeout : Int) :
    Option (SignalState × List SignalEvent) :=
  if set = 0 then some (s, [])
  else if s.sigPending &&& set ≠ 0 then s.waitDone sigInfoMax set
  else if timeout = 0 then some (s, [])
  else some ({ s with waiting := some set }, [])

end SignalState

def stepSignals (sigInfoMax : Nat) (s : SignalState) : SignalOp → Option (SignalState × List SignalEvent)
  | .kill sig => some (s.rtThreadKill sig)
  | .update sig node stray => if .update sig node ∈ s.kills then some (s.killUpdate sig node stray, []) else none
  | .alloc sig node => if .alloc sig ∈ s.kills then (s.killAlloc sigInfoMax sig node).map fun s => (s, []) else none
  | .append sig i => if .append sig i ∈ s.kills then (s.killAppend sigInfoMax sig i).map fun s => (s, []) else none
  | .mask signo => if s.waiting = none then some ({ s with sigMask := s.sigMask &&& ~~~sigMask signo }, []) else none
  | .unmask signo => if s.waiting = none then some ({ s with sigMask := s.sigMask ||| sigMask signo }, []) else none
  | .handleSig => s.rtThreadHandleSig
  | .handlerReturn =>
    match s.frames with
    | [] => none
    | (i, signo) :: frames => if s.waiting = none then (s.roundEnd i signo frames).handleSigRound else none
  | .wait set timeout => if s.waiting = none then s.rtSignalWait sigInfoMax set timeout else none
  | .waitEnd timedOut =>
    match s.waiting with
    | none => none
    | some set =>
      if timedOut then some ({ s with waiting := none }, []) else { s with waiting := none }.waitDone sigInfoMax set

def SignalState.boot (siSigno : Nat → Nat) (next : Nat → Option Nat) : SignalState where
  sigPending := 0
  sigMask := 0
  siList := .null
  siSigno := siSigno
  next := next
  used _ := false
  kills := []
  frames := []
  waiting := none

abbrev SignalRun (sigInfoMax : Nat) (siSigno : Nat → Nat) (next : Nat → Option Nat)
    (ok : SignalState → SignalOp → Prop) : List SignalEvent → SignalState → Prop :=
  Transition.Run (stepSignals sigInfoMax) ok (.boot siSigno next)

/-! ## What is to hold -/

namespace SignalState

/-- These nodes are in `si_list`, which holds the address of the first. -/
def SiNodes (s : SignalState) (l : List Nat) : Prop :=
  match s.siList with
  | .null => l = []
  | .node i => LinkedFrom s.next (some i) l
  | .link _ => False

def listed (s : SignalState) (l : List Nat) (sig : Nat) : Nat := l.countP fun i => s.siSigno i = sig

/-- How many calls of `rt_thread_kill` have not come to their end with a signal, and how many of its handlers run. -/
def underway (s : SignalState) (sig : Nat) : Nat :=
  s.kills.countP (fun k => k.sig = sig) + s.frames.countP fun frame => frame.2 = sig

/-- The nodes that a walk from `si_list` reads. -/
def siNodes (sigInfoMax : Nat) (s : SignalState) : List Nat :=
  match s.siList with
  | .node i => follow s.next sigInfoMax (some i)
  | _ => []

def Matches (s : SignalState) (set : BitVec 32) (i : Nat) : Prop := RtThread.sigMask (s.siSigno i) &&& set ≠ 0

instance (s : SignalState) (set : BitVec 32) (i : Nat) : Decidable (s.Matches set i) := inferInstanceAs (Decidable (_ ≠ _))

/-- There is a node for a signal of the set, and the first of several nodes is not. -/
def ScansWell (sigInfoMax : Nat) (s : SignalState) (set : BitVec 32) : Prop :=
  (∃ i ∈ s.siNodes sigInfoMax, s.Matches set i) ∧
    ∀ i ∈ (s.siNodes sigInfoMax).head?, s.Matches set i → (s.siNodes sigInfoMax).length = 1

instance (sigInfoMax : Nat) (s : SignalState) (set : BitVec 32) : Decidable (s.ScansWell sigInfoMax set) :=
  inferInstanceAs (Decidable (_ ∧ _))

end SignalState

/-- The bits and the list agree. A signal that is under way is pending, once, and has no node in the list. -/
structure PendingExact (s : SignalState) (l : List Nat) : Prop where
  nodes : s.SiNodes l
  pending_iff : ∀ sig, s.underway sig = 0 → (s.sigPending.getLsbD sig = true ↔ s.listed l sig = 1)
  listed_le : ∀ sig, s.listed l sig ≤ 1
  underway : ∀ sig, 0 < s.underway sig → s.sigPending.getLsbD sig = true ∧ s.underway sig = 1 ∧ s.listed l sig = 0

/-- `rt_signal_wait` has taken one node out of the list, and nothing else has changed. -/
def WaitExact (s s' : SignalState) (signo : Nat) : Prop :=
  ∃ l₁ i l₂, s.SiNodes (l₁ ++ i :: l₂) ∧ s.siSigno i = signo ∧ s'.SiNodes (l₁ ++ l₂) ∧ s'.siSigno = s.siSigno ∧
    s'.sigPending = s.sigPending &&& ~~~sigMask signo ∧ s'.kills = s.kills ∧ s'.frames = s.frames

/-- No signal is raised while it is pending, the pool is not exhausted, and what `rt_signal_wait` looks for is in the list, but not in front of others. -/
def SignalKept (sigInfoMax : Nat) (s : SignalState) : SignalOp → Prop
  | .kill sig => s.sigPending.getLsbD sig = false
  | .alloc _ node => node ≠ none
  | .wait set _ => s.sigPending &&& set ≠ 0 → s.ScansWell sigInfoMax set
  | .waitEnd timedOut => timedOut = false → ∀ set ∈ s.waiting, s.ScansWell sigInfoMax set
  | _ => True

instance (sigInfoMax : Nat) (s : SignalState) (op : SignalOp) : Decidable (SignalKept sigInfoMax s op) := by
  unfold SignalKept
  split <;> infer_instance

variable {sigInfoMax sig i : Nat} {siSigno : Nat → Nat} {next : Nat → Option Nat} {s s' : SignalState} {l : List Nat}
  {set : BitVec 32} {op : SignalOp} {trace events : List SignalEvent}

/-! ## Bits -/

theorem getLsbD_sigMask (sig j : Nat) : (sigMask sig).getLsbD j = decide (j < 32 ∧ j = sig) := by
  rw [sigMask, BitVec.getLsbD_shiftLeft, BitVec.getLsbD_one]
  grind

theorem getLsbD_raise {x : BitVec 32} {sig : Nat} (hsig : sig < 32) (j : Nat) :
    (x ||| sigMask sig).getLsbD j = (x.getLsbD j || decide (j = sig)) := by
  rw [BitVec.getLsbD_or, getLsbD_sigMask]
  grind

theorem getLsbD_clear (x : BitVec 32) (sig j : Nat) :
    (x &&& ~~~sigMask sig).getLsbD j = (x.getLsbD j && decide (j ≠ sig)) := by
  rw [BitVec.getLsbD_and, BitVec.getLsbD_not, getLsbD_sigMask]
  by_cases hj : j < 32
  · grind
  · rw [BitVec.getLsbD_of_ge x j (by omega), Bool.false_and, Bool.false_and]

theorem and_sigMask_ne_zero {x : BitVec 32} {sig : Nat} : x &&& sigMask sig ≠ 0 ↔ x.getLsbD sig = true := by
  constructor
  · intro hne
    by_contra hbit
    apply hne
    apply BitVec.eq_of_getLsbD_eq
    intro j hj
    rw [BitVec.getLsbD_and, getLsbD_sigMask]
    grind
  · intro hbit hzero
    have hsig : sig < 32 := BitVec.lt_of_getLsbD hbit
    have hand : (x &&& sigMask sig).getLsbD sig = true := by
      rw [BitVec.getLsbD_and, getLsbD_sigMask, hbit]
      grind
    rw [hzero] at hand
    cases hand.symm.trans BitVec.getLsbD_zero

/-! ## The invariant -/

/-- The nodes that calls of `rt_thread_kill` and of `rt_thread_handle_sig` have for themselves. -/
def SignalState.held (s : SignalState) : List Nat := s.kills.filterMap KillAt.taken ++ s.frames.map Prod.fst

def KillInv (s : SignalState) : KillAt → Prop
  | .update _ _ => False
  | .alloc _ => True
  | .append sig i => s.siSigno i = sig ∧ s.next i = none

structure SignalInv (sigInfoMax : Nat) (s : SignalState) (l : List Nat) : Prop where
  nodes : s.SiNodes l
  nodup : (l ++ s.held).Nodup
  used : ∀ i ∈ l ++ s.held, s.used i = true ∧ i < sigInfoMax
  pending : ∀ sig, s.listed l sig + s.underway sig = (s.sigPending.getLsbD sig).toNat
  kills : ∀ k ∈ s.kills, KillInv s k

theorem SignalInv.exact (h : SignalInv sigInfoMax s l) : PendingExact s l := by
  have hcount : ∀ sig, s.listed l sig + s.underway sig = if s.sigPending.getLsbD sig = true then 1 else 0 := by
    intro sig
    rw [h.pending sig]
    cases s.sigPending.getLsbD sig <;> rfl
  refine ⟨h.nodes, fun sig hquiet => ?_, fun sig => ?_, fun sig hunder => ?_⟩
  · have hsum := hcount sig
    rw [hquiet] at hsum
    split at hsum
    · rename_i hbit
      exact ⟨fun _ => hsum, fun _ => hbit⟩
    · rename_i hbit
      refine ⟨fun hno => absurd hno hbit, fun hno => ?_⟩
      omega
  · have hsum := hcount sig
    split at hsum <;> omega
  · have hsum := hcount sig
    split at hsum
    · rename_i hbit
      exact ⟨hbit, by omega, by omega⟩
    · omega

theorem SignalInv.length_le (h : SignalInv sigInfoMax s l) : l.length ≤ sigInfoMax := by
  have hsub : l ⊆ List.range sigInfoMax := by
    intro i hi
    exact List.mem_range.2 (h.used i (List.mem_append_left _ hi)).2
  have hle := (List.subperm_of_subset (List.nodup_append.1 h.nodup).1 hsub).length_le
  rwa [List.length_range] at hle

theorem SignalInv.siNodes_eq (h : SignalInv sigInfoMax s l) : s.siNodes sigInfoMax = l := by
  have hnodes := h.nodes
  have hlen := h.length_le
  rw [SignalState.SiNodes] at hnodes
  rw [SignalState.siNodes]
  cases hptr : s.siList with
  | null =>
    rw [hptr] at hnodes
    exact hnodes.symm
  | node i =>
    rw [hptr] at hnodes
    exact hnodes.follow_eq hlen
  | link i =>
    rw [hptr] at hnodes
    exact hnodes.elim

theorem signalInv_boot : SignalInv sigInfoMax (.boot siSigno next) [] where
  nodes := rfl
  nodup := List.nodup_nil
  used i hi := by cases hi
  pending sig := by
    change 0 = ((0#32).getLsbD sig).toNat
    rw [BitVec.getLsbD_zero]
    rfl
  kills k hk := by cases hk

theorem SignalInv.congr (h : SignalInv sigInfoMax s l) (sigMask : BitVec 32) (waiting : Option (BitVec 32)) :
    SignalInv sigInfoMax { s with sigMask, waiting } l where
  nodes := h.nodes
  nodup := h.nodup
  used := h.used
  pending := h.pending
  kills k hk := by
    have hkill := h.kills k hk
    cases k with
    | update sig node => exact hkill
    | alloc sig => exact hkill
    | append sig i => exact hkill

/-! ## Raising a signal -/

theorem SignalInv.kill (h : SignalInv sigInfoMax s l) (hclear : s.sigPending.getLsbD sig = false) :
    SignalInv sigInfoMax (s.rtThreadKill sig).1 l := by
  rw [SignalState.rtThreadKill]
  split
  · rename_i hsig
    have hnot : ¬ s.sigPending &&& sigMask sig ≠ 0 := by
      rw [and_sigMask_ne_zero, hclear]
      exact Bool.false_ne_true
    rw [if_neg hnot]
    refine ⟨h.nodes, h.nodup, h.used, fun j => ?_, fun k hk => ?_⟩
    · change s.listed l j + ((KillAt.alloc sig :: s.kills).countP (fun k => k.sig = j) + _) =
        ((s.sigPending ||| sigMask sig).getLsbD j).toNat
      have hcount := h.pending j
      have hsig' : (KillAt.alloc sig).sig = sig := rfl
      rw [SignalState.underway] at hcount
      rw [getLsbD_raise hsig, List.countP_cons, hsig']
      by_cases hj : j = sig
      · subst hj
        rw [hclear] at hcount ⊢
        simp only [decide_true, Bool.or_true, Bool.toNat_true, Bool.toNat_false, if_true] at hcount ⊢
        omega
      · have hj' : ¬ sig = j := fun heq => hj heq.symm
        simp only [hj, hj', decide_false, Bool.or_false, Bool.false_eq_true, if_false]
        omega
    · rcases List.mem_cons.1 hk with rfl | hk
      · exact trivial
      · exact h.kills k hk
  · exact h

theorem perm_killGoes {old : KillAt} (new : Option KillAt) (hold : old ∈ s.kills) :
    (new.toList ++ s.kills).Perm (old :: (s.killGoes old new).kills) := by
  have hperm : (new.toList ++ s.kills).Perm (new.toList ++ old :: s.kills.erase old) :=
    (List.perm_cons_erase hold).append_left new.toList
  exact hperm.trans List.perm_middle

theorem underway_killGoes {old new : KillAt} (hold : old ∈ s.kills) (hsig : new.sig = old.sig) (sig : Nat) :
    (s.killGoes old (some new)).underway sig = s.underway sig := by
  have hcount := (perm_killGoes (some new) hold).countP_eq fun k => decide (k.sig = sig)
  rw [Option.toList_some, List.singleton_append, List.countP_cons, List.countP_cons, hsig] at hcount
  rw [SignalState.underway, SignalState.underway]
  change _ + s.frames.countP _ = _
  omega

theorem underway_killReturns {old : KillAt} (hold : old ∈ s.kills) (sig : Nat) :
    (s.killGoes old none).underway sig + (if old.sig = sig then 1 else 0) = s.underway sig := by
  have hcount := (perm_killGoes none hold).countP_eq fun k => decide (k.sig = sig)
  rw [Option.toList_none, List.nil_append, List.countP_cons] at hcount
  rw [SignalState.underway, SignalState.underway]
  change _ + s.frames.countP _ + _ = _
  simp only [decide_eq_true_eq] at hcount
  omega

theorem held_killGoes {old : KillAt} (new : Option KillAt) (hold : old ∈ s.kills) :
    (new.toList.filterMap KillAt.taken ++ s.held).Perm (old.taken.toList ++ (s.killGoes old new).held) := by
  have hperm := (perm_killGoes new hold).filterMap KillAt.taken
  have htaken : (old :: (s.killGoes old new).kills).filterMap KillAt.taken =
      old.taken.toList ++ (s.killGoes old new).kills.filterMap KillAt.taken := by
    rw [List.filterMap_cons]
    cases old.taken <;> rfl
  rw [htaken, List.filterMap_append] at hperm
  rw [SignalState.held, SignalState.held, ← List.append_assoc, ← List.append_assoc]
  exact hperm.append_right _

theorem SignalInv.disjoint {j : Nat} (h : SignalInv sigInfoMax s l) (hi : i ∈ l) (hj : j ∈ s.held) : i ≠ j :=
  (List.nodup_append.1 h.nodup).2.2 i hi j hj

theorem taken_mem_held {old : KillAt} (hold : old ∈ s.kills) (htaken : old.taken = some i) : i ∈ s.held :=
  List.mem_append_left _ (List.mem_filterMap.2 ⟨old, hold, htaken⟩)

theorem SignalState.SiNodes.congr (h : s.SiNodes l) (hptr : s'.siList = s.siList) (hnext : ∀ j ∈ l, s'.next j = s.next j) :
    s'.SiNodes l := by
  rw [SignalState.SiNodes] at h ⊢
  rw [hptr]
  cases hlist : s.siList with
  | null =>
    rw [hlist] at h
    exact h
  | node first =>
    rw [hlist] at h
    exact LinkedFrom.congr h hnext
  | link first =>
    rw [hlist] at h
    exact h

theorem listed_congr (hsigno : ∀ j ∈ l, s'.siSigno j = s.siSigno j) (sig : Nat) : s'.listed l sig = s.listed l sig :=
  List.countP_congr fun j hj => by rw [hsigno j hj]

theorem SignalInv.alloc (h : SignalInv sigInfoMax s l) (hold : .alloc sig ∈ s.kills) (hlt : i < sigInfoMax)
    (hfree : s.used i = false) :
    SignalInv sigInfoMax ({ s with
      siSigno := Function.update s.siSigno i sig
      next := Function.update s.next i none
      used := Function.update s.used i true }.killGoes (.alloc sig) (some (.append sig i))) l := by
  have hfresh : ∀ j ∈ l ++ s.held, j ≠ i := by
    rintro j hj rfl
    cases hfree.symm.trans (h.used j hj).1
  have hheld := held_killGoes (s := { s with
      siSigno := Function.update s.siSigno i sig
      next := Function.update s.next i none
      used := Function.update s.used i true }) (some (.append sig i)) hold
  have hperm : (i :: (l ++ s.held)).Perm (l ++ _) := List.perm_middle.symm.trans (hheld.append_left l)
  refine ⟨?_, ?_, fun j hj => ?_, fun j => ?_, fun k hk => ?_⟩
  · exact h.nodes.congr rfl fun j hj => Function.update_of_ne (hfresh j (List.mem_append_left _ hj)) ..
  · exact hperm.nodup (List.nodup_cons.2 ⟨fun hmem => hfresh i hmem rfl, h.nodup⟩)
  · rcases List.mem_cons.1 (hperm.symm.subset hj) with rfl | hj
    · exact ⟨Function.update_self .., hlt⟩
    · obtain ⟨hused, hjlt⟩ := h.used j hj
      exact ⟨(Function.update_of_ne (hfresh j hj) ..).trans hused, hjlt⟩
  · have hsig : (KillAt.append sig i).sig = (KillAt.alloc sig).sig := rfl
    have hunder := underway_killGoes hold hsig j
    have hlisted : { s with siSigno := Function.update s.siSigno i sig }.listed l j = s.listed l j :=
      listed_congr (fun j hj => Function.update_of_ne (hfresh j (List.mem_append_left _ hj)) ..) j
    exact (congrArg₂ (· + ·) hlisted hunder).trans (h.pending j)
  · rcases List.mem_cons.1 hk with rfl | hk
    · exact ⟨Function.update_self .., Function.update_self ..⟩
    · have hk' : k ∈ s.kills := List.mem_of_mem_erase hk
      have hkill := h.kills k hk'
      cases k with
      | update sig' node => exact hkill
      | alloc sig' => exact trivial
      | append sig' j =>
        have hne : j ≠ i := hfresh j (List.mem_append_right l (taken_mem_held hk' rfl))
        exact ⟨(Function.update_of_ne hne ..).trans hkill.1, (Function.update_of_ne hne ..).trans hkill.2⟩

theorem SignalInv.link {siList : SiPtr} {next : Nat → Option Nat} (h : SignalInv sigInfoMax s l)
    (hold : .append sig i ∈ s.kills)
    (hnodes : { s.killGoes (.append sig i) none with siList, next }.SiNodes (l ++ [i]))
    (hnext : ∀ j ∈ s.held, next j = s.next j) :
    SignalInv sigInfoMax { s.killGoes (.append sig i) none with siList, next } (l ++ [i]) := by
  have hheld : s.held.Perm (i :: (s.killGoes (.append sig i) none).held) := held_killGoes none hold
  have hperm : (l ++ s.held).Perm (l ++ [i] ++ (s.killGoes (.append sig i) none).held) := by
    rw [List.append_assoc]
    exact hheld.append_left l
  refine ⟨hnodes, hperm.nodup h.nodup, fun j hj => h.used j (hperm.symm.subset hj), fun j => ?_, fun k hk => ?_⟩
  · have hunder := underway_killReturns hold j
    have hsigno : s.siSigno i = sig := (h.kills _ hold).1
    have hlisted : s.listed (l ++ [i]) j = s.listed l j + if sig = j then 1 else 0 := by
      rw [SignalState.listed, List.countP_append, List.countP_singleton, hsigno, SignalState.listed]
      simp only [decide_eq_true_eq]
    have hsum := h.pending j
    change s.listed (l ++ [i]) j + (s.killGoes (.append sig i) none).underway j = (s.sigPending.getLsbD j).toNat
    have hsig' : (KillAt.append sig i).sig = sig := rfl
    rw [hsig'] at hunder
    omega
  · have hk' : k ∈ s.kills := List.mem_of_mem_erase hk
    have hkill := h.kills k hk'
    cases k with
    | update sig' node => exact hkill
    | alloc sig' => exact trivial
    | append sig' j => exact ⟨hkill.1, (hnext j (taken_mem_held hk' rfl)).trans hkill.2⟩

theorem SignalInv.append (h : SignalInv sigInfoMax s l) (hold : .append sig i ∈ s.kills)
    (hs : s.killAppend sigInfoMax sig i = some s') : SignalInv sigInfoMax s' (l ++ [i]) := by
  have hnodes := h.nodes
  have hend : s.next i = none := (h.kills _ hold).2
  have hi : i ∈ s.held := taken_mem_held hold rfl
  have hnot : i ∉ l := fun hmem => h.disjoint hmem hi rfl
  have hnodup : l.Nodup := (List.nodup_append.1 h.nodup).1
  rw [SignalState.killAppend] at hs
  rw [SignalState.SiNodes] at hnodes
  change (match s.siList with
    | .null => some { s.killGoes (.append sig i) none with siList := .node i }
    | .node first => (lastFrom s.next sigInfoMax first).map fun last =>
      { s.killGoes (.append sig i) none with next := Function.update (Function.update s.next last (some i)) i none }
    | .link _ => none) = some s' at hs
  cases hlist : s.siList with
  | null =>
    rw [hlist] at hs hnodes
    obtain rfl : l = [] := hnodes
    obtain rfl := Option.some.inj hs
    exact h.link hold ⟨rfl, hend⟩ fun _ _ => rfl
  | node first =>
    rw [hlist] at hs hnodes
    obtain ⟨last, hlast, rfl⟩ := Option.map_eq_some_iff.1 hs
    rw [LinkedFrom.lastFrom_eq hnodes h.length_le] at hlast
    have hne : last ≠ i := fun heq => hnot (heq ▸ List.mem_of_getLast? hlast)
    have hsame : Function.update (Function.update s.next last (some i)) i none = Function.update s.next last (some i) := by
      rw [Function.update_eq_self_iff, Function.update_of_ne hne.symm]
      exact hend.symm
    rw [hsame]
    refine h.link hold ?_ fun j hj => Function.update_of_ne (fun heq => ?_) ..
    · have hlinked := LinkedFrom.append hnodes hnodup hlast hnot hend
      rw [SignalState.SiNodes]
      change (match s.siList with
        | .null => l ++ [i] = []
        | .node first => LinkedFrom (Function.update s.next last (some i)) (some first) (l ++ [i])
        | .link _ => False)
      rw [hlist]
      exact hlinked
    · exact h.disjoint (List.mem_of_getLast? hlast) hj heq.symm
  | link first =>
    rw [hlist] at hs
    cases hs

theorem killAppend_frame (hs : s.killAppend sigInfoMax sig i = some s') :
    s'.sigPending = s.sigPending ∧ s'.frames = s.frames := by
  rw [SignalState.killAppend] at hs
  split at hs
  · obtain rfl := Option.some.inj hs
    exact ⟨rfl, rfl⟩
  · obtain ⟨last, -, rfl⟩ := Option.map_eq_some_iff.1 hs
    exact ⟨rfl, rfl⟩
  · cases hs

/-! ## Handling a signal -/

theorem siNodes_entryOf {rest : List Nat} (hptr : s'.siList = entryOf (s.next i)) (hnext : s'.next = s.next)
    (h : LinkedFrom s.next (s.next i) rest) : s'.SiNodes rest := by
  rw [SignalState.SiNodes, hptr, hnext]
  cases hlink : s.next i with
  | none =>
    rw [hlink] at h
    exact h.eq_none_iff.1 rfl
  | some j =>
    rw [hlink] at h
    exact h

theorem SignalState.SiNodes.first (h : s.SiNodes l) (hptr : s.siList = .node i) :
    ∃ rest, l = i :: rest ∧ LinkedFrom s.next (s.next i) rest := by
  rw [SignalState.SiNodes, hptr] at h
  exact LinkedFrom.exists_of_some h

theorem SignalInv.enter {rest : List Nat} (h : SignalInv sigInfoMax s (i :: rest))
    (hlinked : LinkedFrom s.next (s.next i) rest) :
    SignalInv sigInfoMax { s with siList := entryOf (s.next i), frames := (i, s.siSigno i) :: s.frames } rest := by
  have hperm : (i :: rest ++ s.held).Perm
      (rest ++ (s.kills.filterMap KillAt.taken ++ i :: s.frames.map Prod.fst)) := by
    have hmiddle : (i :: s.held).Perm (s.kills.filterMap KillAt.taken ++ i :: s.frames.map Prod.fst) := List.perm_middle.symm
    rw [List.cons_append]
    exact List.perm_middle.symm.trans (hmiddle.append_left rest)
  refine ⟨siNodes_entryOf rfl rfl hlinked, hperm.nodup h.nodup, fun j hj => h.used j (hperm.symm.subset hj), fun j => ?_,
    fun k hk => ?_⟩
  · have hsum := h.pending j
    rw [SignalState.listed, List.countP_cons, SignalState.underway] at hsum
    change s.listed rest j + (s.kills.countP (fun k => decide (k.sig = j)) +
      ((i, s.siSigno i) :: s.frames).countP fun frame => decide (frame.2 = j)) = (s.sigPending.getLsbD j).toNat
    have hsame : (i, s.siSigno i).2 = s.siSigno i := rfl
    rw [List.countP_cons, SignalState.listed, hsame]
    omega
  · have hkill := h.kills k hk
    cases k with
    | update sig' node => exact hkill
    | alloc sig' => exact trivial
    | append sig' j => exact hkill

theorem SignalInv.round (h : SignalInv sigInfoMax s l) (hs : s.handleSigRound = some (s', events)) :
    (s' = s ∧ events = [.finished] ∧ (s.sigPending &&& s.sigMask = 0 ∨ l = [])) ∨
      ∃ i rest, l = i :: rest ∧ s.siList = .node i ∧ s.sigPending &&& s.sigMask ≠ 0 ∧
        events = [.handled (s.siSigno i) s.sigMask] ∧
        s' = { s with siList := entryOf (s.next i), frames := (i, s.siSigno i) :: s.frames } ∧
        SignalInv sigInfoMax s' rest := by
  rw [SignalState.handleSigRound] at hs
  by_cases hzero : s.sigPending &&& s.sigMask = 0
  · rw [if_pos hzero] at hs
    obtain ⟨rfl, rfl⟩ := Prod.mk.inj (Option.some.inj hs)
    exact .inl ⟨rfl, rfl, .inl hzero⟩
  · rw [if_neg hzero] at hs
    cases hlist : s.siList with
    | null =>
      rw [hlist] at hs
      obtain ⟨rfl, rfl⟩ := Prod.mk.inj (Option.some.inj hs)
      have hnodes := h.nodes
      rw [SignalState.SiNodes, hlist] at hnodes
      exact .inl ⟨rfl, rfl, .inr hnodes⟩
    | node i =>
      rw [hlist] at hs
      obtain ⟨rfl, rfl⟩ := Prod.mk.inj (Option.some.inj hs)
      obtain ⟨rest, rfl, hlinked⟩ := h.nodes.first hlist
      exact .inr ⟨i, rest, rfl, rfl, hzero, rfl, rfl, h.enter hlinked⟩
    | link i =>
      rw [hlist] at hs
      cases hs

theorem SignalInv.roundEnd {signo : Nat} {frames : List (Nat × Nat)} (h : SignalInv sigInfoMax s l)
    (hframes : s.frames = (i, signo) :: frames) : SignalInv sigInfoMax (s.roundEnd i signo frames) l := by
  have hheld : s.held.Perm (i :: (s.roundEnd i signo frames).held) := by
    rw [SignalState.held, hframes]
    exact List.perm_middle
  have hperm : (l ++ s.held).Perm (i :: (l ++ (s.roundEnd i signo frames).held)) :=
    (hheld.append_left l).trans List.perm_middle
  obtain ⟨hnot, hnodup⟩ := List.nodup_cons.1 (hperm.nodup h.nodup)
  have hcount (j : Nat) : s.underway j = (s.roundEnd i signo frames).underway j + if signo = j then 1 else 0 := by
    rw [SignalState.underway, hframes, List.countP_cons, SignalState.underway]
    simp only [decide_eq_true_eq]
    exact (Nat.add_assoc ..).symm
  refine ⟨h.nodes, hnodup, fun j hj => ?_, fun j => ?_, fun k hk => ?_⟩
  · obtain ⟨hused, hlt⟩ := h.used j (hperm.symm.subset (List.mem_cons_of_mem i hj))
    have hne : j ≠ i := fun heq => hnot (heq ▸ hj)
    exact ⟨(Function.update_of_ne hne ..).trans hused, hlt⟩
  · have hsum := h.pending j
    have hunder := hcount j
    change s.listed l j + _ = ((s.sigPending &&& ~~~sigMask signo).getLsbD j).toNat
    rw [getLsbD_clear]
    by_cases hj : j = signo
    · subst hj
      rw [if_pos rfl] at hunder
      have hle := Bool.toNat_le (s.sigPending.getLsbD j)
      simp only [ne_eq, not_true_eq_false, decide_false, Bool.and_false, Bool.toNat_false]
      omega
    · rw [if_neg fun heq => hj heq.symm] at hunder
      simp only [ne_eq, hj, not_false_eq_true, decide_true, Bool.and_true]
      omega
  · have hkill := h.kills k hk
    cases k with
    | update sig' node => exact hkill
    | alloc sig' => exact trivial
    | append sig' j => exact hkill

/-! ## Waiting for a signal -/

theorem waitScan_eq {fuel : Nat} (siPrev : Option Nat) (h : LinkedFrom s.next (some i) l) (hlen : l.length ≤ fuel)
    (hex : ∃ j ∈ l, s.Matches set j) :
    ∃ l₁ j l₂, l = l₁ ++ j :: l₂ ∧ (∀ k ∈ l₁, ¬ s.Matches set k) ∧ s.Matches set j ∧
      s.waitScan set fuel siPrev i = some (l₁.getLast?.or siPrev, j) := by
  induction fuel generalizing i l siPrev with
  | zero =>
    obtain ⟨rest, rfl, -⟩ := h.exists_of_some
    cases hlen
  | succ fuel ih =>
    obtain ⟨rest, rfl, hrest⟩ := h.exists_of_some
    by_cases hmatch : s.Matches set i
    · refine ⟨[], i, rest, rfl, fun _ => List.not_mem_nil.elim, hmatch, ?_⟩
      rw [SignalState.waitScan]
      exact if_pos hmatch
    · have hex' : ∃ j ∈ rest, s.Matches set j := by
        obtain ⟨j, hj, hjmatch⟩ := hex
        rcases List.mem_cons.1 hj with rfl | hj
        · exact absurd hjmatch hmatch
        · exact ⟨j, hj, hjmatch⟩
      cases hnext : s.next i with
      | none =>
        obtain rfl : rest = [] := hrest.eq_none_iff.1 hnext
        obtain ⟨j, hj, -⟩ := hex'
        cases hj
      | some next =>
        rw [hnext] at hrest
        obtain ⟨l₁, j, l₂, rfl, hnone, hjmatch, hscan⟩ := ih (some i) hrest (Nat.le_of_succ_le_succ hlen) hex'
        refine ⟨i :: l₁, j, l₂, rfl, ?_, hjmatch, ?_⟩
        · intro k hk
          rcases List.mem_cons.1 hk with rfl | hk
          · exact hmatch
          · exact hnone k hk
        · have hgoes : s.waitScan set (fuel + 1) siPrev i = s.waitScan set fuel (some i) next := by
            rw [SignalState.waitScan, hnext]
            exact if_neg hmatch
          rw [hgoes, hscan]
          cases l₁ with
          | nil => rfl
          | cons b l₁ =>
            rw [List.getLast?_cons_cons]
            cases hlast : (b :: l₁).getLast? with
            | none => exact absurd (List.getLast?_eq_none_iff.1 hlast) (List.cons_ne_nil b l₁)
            | some last => rfl

theorem SignalInv.takeOut {l₁ l₂ : List Nat} (siList : SiPtr) (next : Nat → Option Nat)
    (h : SignalInv sigInfoMax s (l₁ ++ i :: l₂)) (hnodes : { s with siList, next }.SiNodes (l₁ ++ l₂))
    (hnext : ∀ j ∈ s.held, next j = s.next j) :
    SignalInv sigInfoMax { s with
      siList
      next
      sigPending := s.sigPending &&& ~~~sigMask (s.siSigno i)
      used := Function.update s.used i false } (l₁ ++ l₂) := by
  have hperm : (l₁ ++ i :: l₂ ++ s.held).Perm (i :: (l₁ ++ l₂ ++ s.held)) := List.perm_middle.append_right s.held
  obtain ⟨hnot, hnodup⟩ := List.nodup_cons.1 (hperm.nodup h.nodup)
  refine ⟨hnodes, hnodup, fun j hj => ?_, fun j => ?_, fun k hk => ?_⟩
  · obtain ⟨hused, hlt⟩ := h.used j (hperm.symm.subset (List.mem_cons_of_mem i hj))
    have hne : j ≠ i := fun heq => hnot (heq ▸ hj)
    exact ⟨(Function.update_of_ne hne ..).trans hused, hlt⟩
  · have hsum := h.pending j
    have hlisted : s.listed (l₁ ++ i :: l₂) j = s.listed (l₁ ++ l₂) j + if s.siSigno i = j then 1 else 0 := by
      have hmiddle : (l₁ ++ i :: l₂).Perm (i :: (l₁ ++ l₂)) := List.perm_middle
      rw [SignalState.listed, hmiddle.countP_eq, List.countP_cons]
      simp only [decide_eq_true_eq]
      rfl
    change s.listed (l₁ ++ l₂) j + s.underway j = ((s.sigPending &&& ~~~sigMask (s.siSigno i)).getLsbD j).toNat
    rw [getLsbD_clear]
    by_cases hj : j = s.siSigno i
    · rw [if_pos hj.symm] at hlisted
      have hle := Bool.toNat_le (s.sigPending.getLsbD j)
      simp only [ne_eq, hj, not_true_eq_false, decide_false, Bool.and_false, Bool.toNat_false]
      rw [← hj]
      omega
    · rw [if_neg fun heq => hj heq.symm] at hlisted
      simp only [ne_eq, hj, not_false_eq_true, decide_true, Bool.and_true]
      omega
  · have hkill := h.kills k hk
    cases k with
    | update sig' node => exact hkill
    | alloc sig' => exact trivial
    | append sig' j => exact ⟨hkill.1, (hnext j (taken_mem_held hk rfl)).trans hkill.2⟩

theorem SignalInv.waitTake {l₁ l₂ : List Nat} (h : SignalInv sigInfoMax s (l₁ ++ i :: l₂)) (hfirst : l₁ = [] → l₂ = []) :
    SignalInv sigInfoMax (s.waitTake (l₁.getLast?.or none) i) (l₁ ++ l₂) := by
  have hnodes := h.nodes
  cases hlast : l₁.getLast? with
  | none =>
    obtain rfl := List.getLast?_eq_none_iff.1 hlast
    obtain rfl := hfirst rfl
    have hend : s.next i = none := by
      rw [SignalState.SiNodes] at hnodes
      split at hnodes
      · cases hnodes
      · exact hnodes.2
      · exact hnodes.elim
    refine takeOut (linkTo (s.next i)) s.next h ?_ fun _ _ => rfl
    rw [hend]
    rfl
  | some prev =>
    have hprev : prev ∈ l₁ := List.mem_of_getLast? hlast
    refine takeOut s.siList (Function.update s.next prev (s.next i)) h ?_ fun j hj => ?_
    · obtain ⟨m, rfl⟩ : ∃ m, l₁ = m ++ [prev] := List.getLast?_eq_some_iff.1 hlast
      rw [SignalState.SiNodes] at hnodes ⊢
      rw [List.append_assoc, List.singleton_append] at hnodes ⊢
      change (match s.siList with
        | .null => m ++ prev :: l₂ = []
        | .node first => LinkedFrom (Function.update s.next prev (s.next i)) (some first) (m ++ prev :: l₂)
        | .link _ => False)
      have hnodup := (List.nodup_append.1 h.nodup).1
      rw [List.append_assoc, List.singleton_append] at hnodup
      split at hnodes
      · exact absurd hnodes (List.append_ne_nil_of_right_ne_nil m (List.cons_ne_nil _ _))
      · exact LinkedFrom.unlink hnodes hnodup
      · exact hnodes.elim
    · have hne : prev ≠ j := h.disjoint (List.mem_append_left _ hprev) hj
      exact Function.update_of_ne hne.symm ..

theorem SignalInv.waitDone (h : SignalInv sigInfoMax s l) (hok : s.ScansWell sigInfoMax set)
    (hs : s.waitDone sigInfoMax set = some (s', events)) :
    ∃ l₁ i l₂, l = l₁ ++ i :: l₂ ∧ s.Matches set i ∧ events = [.waited (s.siSigno i)] ∧
      s' = s.waitTake (l₁.getLast?.or none) i ∧ SignalInv sigInfoMax s' (l₁ ++ l₂) := by
  have hnodes := h.nodes
  rw [SignalState.ScansWell, h.siNodes_eq] at hok
  obtain ⟨hex, hhead⟩ := hok
  rw [SignalState.waitDone] at hs
  rw [SignalState.SiNodes] at hnodes
  cases hlist : s.siList with
  | null =>
    rw [hlist] at hnodes
    obtain rfl : l = [] := hnodes
    obtain ⟨j, hj, -⟩ := hex
    cases hj
  | node first =>
    rw [hlist] at hnodes hs
    obtain ⟨l₁, i, l₂, rfl, -, hmatch, hscan⟩ := waitScan_eq none hnodes h.length_le hex
    obtain ⟨r, hr, heq⟩ := Option.map_eq_some_iff.1 hs
    obtain rfl := Option.some.inj (hr.symm.trans hscan)
    obtain ⟨rfl, rfl⟩ := Prod.mk.inj heq
    refine ⟨l₁, i, l₂, rfl, hmatch, rfl, rfl, h.waitTake ?_⟩
    rintro rfl
    exact List.eq_nil_of_length_eq_zero (Nat.succ.inj (hhead i rfl hmatch))
  | link first =>
    rw [hlist] at hs
    cases hs

/-! ## Steps -/

/-- A round of the loop of `rt_thread_handle_sig` starts from here. -/
def RoundFrom (s : SignalState) (op : SignalOp) (before : SignalState) : Prop :=
  (op = .handleSig ∧ s.waiting = none ∧ before = s) ∨
    (op = .handlerReturn ∧ ∃ i signo frames, s.frames = (i, signo) :: frames ∧ before = s.roundEnd i signo frames)

inductive SignalMove (s : SignalState) (l : List Nat) : SignalOp → SignalState → List SignalEvent → List Nat → Prop
  | other {op : SignalOp} {s' : SignalState} {l' : List Nat} (hpending : s'.sigPending = s.sigPending)
      (hframes : s'.frames = s.frames) (hhandle : op = .handleSig ∨ op = .handlerReturn → s' = s ∧ l' = l ∧ (s.waiting = none → s.sigPending &&& s.sigMask = 0)) :
      SignalMove s l op s' [] l'
  | raised {sig : Nat} (hlt : sig < 32) (hclear : s.sigPending.getLsbD sig = false) :
      SignalMove s l (.kill sig)
        { s with sigPending := s.sigPending ||| sigMask sig, kills := .alloc sig :: s.kills } [.raised sig] l
  | finished {op : SignalOp} {before : SignalState} (hbefore : RoundFrom s op before)
      (hend : before.sigPending &&& before.sigMask = 0 ∨ l = []) : SignalMove s l op before [.finished] l
  | handled {op : SignalOp} {before : SignalState} {i : Nat} {rest : List Nat} (hbefore : RoundFrom s op before)
      (hlist : l = i :: rest) (hptr : before.siList = .node i) (hpending : before.sigPending &&& before.sigMask ≠ 0) :
      SignalMove s l op { before with siList := entryOf (before.next i), frames := (i, before.siSigno i) :: before.frames }
        [.handled (before.siSigno i) before.sigMask] rest
  | waited {op : SignalOp} {l₁ : List Nat} {i : Nat} {l₂ : List Nat} (waiting : Option (BitVec 32))
      (hlist : l = l₁ ++ i :: l₂) (hop : op ≠ .handleSig ∧ op ≠ .handlerReturn) :
      SignalMove s l op ({ s with waiting }.waitTake (l₁.getLast?.or none) i) [.waited (s.siSigno i)] (l₁ ++ l₂)

theorem SignalInv.round_move {before : SignalState} (h : SignalInv sigInfoMax before l) (hbefore : RoundFrom s op before)
    (hs : before.handleSigRound = some (s', events)) : ∃ l', SignalMove s l op s' events l' ∧ SignalInv sigInfoMax s' l' := by
  rcases h.round hs with ⟨rfl, rfl, hend⟩ | ⟨i, rest, hlist, hptr, hpending, rfl, rfl, hafter⟩
  · exact ⟨l, .finished hbefore hend, h⟩
  · exact ⟨rest, .handled hbefore hlist hptr hpending, hafter⟩

theorem SignalInv.waitDone_move (waiting : Option (BitVec 32)) (h : SignalInv sigInfoMax s l)
    (hop : op ≠ .handleSig ∧ op ≠ .handlerReturn) (hok : s.ScansWell sigInfoMax set)
    (hs : { s with waiting }.waitDone sigInfoMax set = some (s', events)) :
    ∃ l', SignalMove s l op s' events l' ∧ SignalInv sigInfoMax s' l' := by
  obtain ⟨l₁, i, l₂, hlist, -, rfl, rfl, hafter⟩ := (h.congr s.sigMask waiting).waitDone hok hs
  exact ⟨l₁ ++ l₂, .waited waiting hlist hop, hafter⟩

theorem SignalInv.move (h : SignalInv sigInfoMax s l) (hok : SignalKept sigInfoMax s op)
    (hs : stepSignals sigInfoMax s op = some (s', events)) :
    ∃ l', SignalMove s l op s' events l' ∧ SignalInv sigInfoMax s' l' := by
  cases op with
  | kill sig =>
    have hclear : s.sigPending.getLsbD sig = false := hok
    have hkill := h.kill hclear
    have hnot : ¬ s.sigPending &&& sigMask sig ≠ 0 := by
      rw [and_sigMask_ne_zero, hclear]
      exact Bool.false_ne_true
    have heq : s.rtThreadKill sig = (s', events) := Option.some.inj hs
    rw [heq] at hkill
    rw [SignalState.rtThreadKill, if_neg hnot] at heq
    split at heq
    · rename_i hlt
      obtain ⟨rfl, rfl⟩ := Prod.mk.inj heq
      exact ⟨l, .raised hlt hclear, hkill⟩
    · obtain ⟨rfl, rfl⟩ := Prod.mk.inj heq
      exact ⟨l, .other rfl rfl (by rintro (hno | hno) <;> cases hno), h⟩
  | update sig node stray =>
    rw [stepSignals] at hs
    split at hs
    · rename_i hold
      exact (h.kills _ hold).elim
    · cases hs
  | alloc sig node =>
    rw [stepSignals] at hs
    split at hs
    · rename_i hold
      obtain ⟨after, hafter, heq⟩ := Option.map_eq_some_iff.1 hs
      obtain ⟨rfl, rfl⟩ := Prod.mk.inj heq
      cases node with
      | none => exact absurd rfl hok
      | some i =>
        rw [SignalState.killAlloc] at hafter
        split at hafter
        · rename_i hfree
          obtain rfl := Option.some.inj hafter
          exact ⟨l, .other rfl rfl (by rintro (hno | hno) <;> cases hno), h.alloc hold hfree.1 hfree.2⟩
        · cases hafter
    · cases hs
  | append sig i =>
    rw [stepSignals] at hs
    split at hs
    · rename_i hold
      obtain ⟨after, hafter, heq⟩ := Option.map_eq_some_iff.1 hs
      obtain ⟨rfl, rfl⟩ := Prod.mk.inj heq
      obtain ⟨hpending, hframes⟩ := killAppend_frame hafter
      exact ⟨l ++ [i], .other hpending hframes (by rintro (hno | hno) <;> cases hno), h.append hold hafter⟩
    · cases hs
  | mask signo | unmask signo =>
    rw [stepSignals] at hs
    split at hs
    · obtain ⟨rfl, rfl⟩ := Prod.mk.inj (Option.some.inj hs)
      exact ⟨l, .other rfl rfl (by rintro (hno | hno) <;> cases hno), h.congr _ s.waiting⟩
    · cases hs
  | handleSig =>
    rw [stepSignals, SignalState.rtThreadHandleSig] at hs
    split at hs
    · rename_i hidle
      exact h.round_move (.inl ⟨rfl, hidle.2, rfl⟩) hs
    · rename_i hidle
      obtain ⟨rfl, rfl⟩ := Prod.mk.inj (Option.some.inj hs)
      exact ⟨l, .other rfl rfl fun _ => ⟨rfl, rfl, fun hwaiting => by_contra fun hpending => hidle ⟨hpending, hwaiting⟩⟩, h⟩
  | handlerReturn =>
    rw [stepSignals] at hs
    split at hs
    · cases hs
    · rename_i i signo frames hframes
      split at hs
      · exact (h.roundEnd hframes).round_move (.inr ⟨rfl, i, signo, frames, hframes, rfl⟩) hs
      · cases hs
  | wait set timeout =>
    rw [stepSignals] at hs
    split at hs
    · rw [SignalState.rtSignalWait] at hs
      split_ifs at hs with hempty hpending hzero
      · obtain ⟨rfl, rfl⟩ := Prod.mk.inj (Option.some.inj hs)
        exact ⟨l, .other rfl rfl (by rintro (hno | hno) <;> cases hno), h⟩
      · exact h.waitDone_move s.waiting ⟨SignalOp.noConfusion, SignalOp.noConfusion⟩ (hok hpending) hs
      · obtain ⟨rfl, rfl⟩ := Prod.mk.inj (Option.some.inj hs)
        exact ⟨l, .other rfl rfl (by rintro (hno | hno) <;> cases hno), h⟩
      · obtain ⟨rfl, rfl⟩ := Prod.mk.inj (Option.some.inj hs)
        exact ⟨l, .other rfl rfl (by rintro (hno | hno) <;> cases hno), h.congr s.sigMask (some set)⟩
    · cases hs
  | waitEnd timedOut =>
    rw [stepSignals] at hs
    split at hs
    · cases hs
    · rename_i set hwaiting
      cases timedOut with
      | true =>
        obtain ⟨rfl, rfl⟩ := Prod.mk.inj (Option.some.inj hs)
        exact ⟨l, .other rfl rfl (by rintro (hno | hno) <;> cases hno), h.congr s.sigMask none⟩
      | false =>
        exact h.waitDone_move none ⟨SignalOp.noConfusion, SignalOp.noConfusion⟩ (hok rfl set hwaiting) hs

theorem signalInv_of_run (hrun : SignalRun sigInfoMax siSigno next (SignalKept sigInfoMax) trace s) :
    ∃ l, SignalInv sigInfoMax s l :=
  hrun.state_invariant (I := fun s => ∃ l, SignalInv sigInfoMax s l) ⟨[], signalInv_boot⟩
    fun _ _ _ _ ⟨_, h⟩ hok hs => (h.move hok hs).imp fun _ hmove => hmove.2

theorem SignalInv.waitExact {signo : Nat} (h : SignalInv sigInfoMax s l) (hok : SignalKept sigInfoMax s op)
    (hs : stepSignals sigInfoMax s op = some (s', events)) (hevent : .waited signo ∈ events) : WaitExact s s' signo := by
  obtain ⟨l', hmove, hafter⟩ := h.move hok hs
  cases hmove with
  | other => cases hevent
  | raised | finished | handled => exact absurd (List.mem_singleton.1 hevent) SignalEvent.noConfusion
  | @waited _ l₁ i l₂ waiting hlist hop =>
    obtain rfl := SignalEvent.waited.inj (List.mem_singleton.1 hevent)
    exact ⟨l₁, i, l₂, hlist ▸ h.nodes, rfl, hafter.nodes, rfl, rfl, rfl, rfl⟩

/-! ## The bits and the list -/

/-- In every run in which no pending signal is raised again, the pool is not exhausted and no scan leaves the list, the bits and the list agree, and `rt_signal_wait` takes out the node of the signal that it returns, and only that. -/
theorem pendingExact_of_run (hrun : SignalRun sigInfoMax siSigno next (SignalKept sigInfoMax) trace s) :
    (∃ l, PendingExact s l) ∧
      ∀ op s' events signo, SignalKept sigInfoMax s op → stepSignals sigInfoMax s op = some (s', events) →
        .waited signo ∈ events → WaitExact s s' signo := by
  obtain ⟨l, hinv⟩ := signalInv_of_run hrun
  exact ⟨⟨l, hinv.exact⟩, fun _ _ _ _ hok hs hevent => hinv.waitExact hok hs hevent⟩

theorem exists_signalRun (ok : SignalState → SignalOp → Prop) [∀ s op, Decidable (ok s op)] (ops : List SignalOp)
    (found : List SignalEvent → SignalState → Bool)
    (h : ((Transition.exec (stepSignals 4) ok (.boot (fun _ => 0) fun _ => none) ops).any fun r => found r.1 r.2) = true) :
    ∃ trace s, SignalRun 4 (fun _ => 0) (fun _ => none) ok trace s ∧ found trace s = true :=
  Transition.exists_run_of_exec ops found h

/-- A call of `rt_thread_kill` that is not disturbed and gets this node. -/
def killOps (sig i : Nat) : List SignalOp := [.kill sig, .alloc sig (some i), .append sig i]

/-- Two signals are raised; the thread waits for the second and then unmasks the first. -/
theorem pendingExact_of_run_taken :
    ∃ trace s, SignalRun 4 (fun _ => 0) (fun _ => none) (SignalKept 4) trace s ∧
      trace = [.raised 5, .raised 6, .waited 6, .handled 5 (sigMask 5), .finished] ∧
      ((∃ l, PendingExact s l) ∧ ∀ op s' events signo, SignalKept 4 s op → stepSignals 4 s op = some (s', events) →
        .waited signo ∈ events → WaitExact s s' signo) := by
  obtain ⟨trace, s, hrun, hfound⟩ := exists_signalRun (SignalKept 4)
    (killOps 5 0 ++ killOps 6 1 ++ [.wait (sigMask 6) 0, .unmask 5, .handleSig, .handlerReturn])
    (fun trace _ => decide (trace = [.raised 5, .raised 6, .waited 6, .handled 5 (sigMask 5), .finished])) (by decide +kernel)
  exact ⟨trace, s, hrun, of_decide_eq_true hfound, pendingExact_of_run hrun⟩

theorem SignalState.SiNodes.unique {l' : List Nat} (h : s.SiNodes l) (h' : s.SiNodes l') : l = l' := by
  rw [SignalState.SiNodes] at h h'
  cases hlist : s.siList with
  | null =>
    rw [hlist] at h h'
    exact Eq.trans h (Eq.symm h')
  | node i =>
    rw [hlist] at h h'
    exact LinkedFrom.unique h h'
  | link i =>
    rw [hlist] at h
    exact h.elim

theorem PendingExact.eq {l' : List Nat} (h : PendingExact s l') (hnodes : s.SiNodes l) : l' = l := h.nodes.unique hnodes

/-- The pool is exhausted; a signal is raised again before its first `rt_thread_kill` has linked a node, or while its handler runs; `rt_signal_wait` takes the first of two nodes, or finds a bit for which there is no node yet. -/
theorem pendingExact_fails :
    (∃ trace s, SignalRun 4 (fun _ => 0) (fun _ => none) (fun _ _ => True) trace s ∧ trace = [.raised 5] ∧
      ¬ ∃ l, PendingExact s l) ∧
    (∃ trace s, SignalRun 4 (fun _ => 0) (fun _ => none) (fun _ _ => True) trace s ∧ s.SiNodes [0, 1] ∧
      ¬ ∃ l, PendingExact s l) ∧
    (∃ trace s, SignalRun 4 (fun _ => 0) (fun _ => none) (fun _ _ => True) trace s ∧
      trace = [.raised 5, .handled 5 (sigMask 5), .finished] ∧ ¬ ∃ l, PendingExact s l) ∧
    (∃ trace s, SignalRun 4 (fun _ => 0) (fun _ => none) (fun _ _ => True) trace s ∧
      trace = [.raised 5, .raised 6, .waited 5] ∧ ¬ ∃ l, PendingExact s l) ∧
    (∃ trace s s', SignalRun 4 (fun _ => 0) (fun _ => none) (fun _ _ => True) trace s ∧
      stepSignals 4 s (.wait (sigMask 5) 0) = some (s', [.waited 0]) ∧ ¬ WaitExact s s' 0) := by
  refine ⟨?_, ?_, ?_, ?_, ?_⟩
  · obtain ⟨trace, s, hrun, hfound⟩ := exists_signalRun (fun _ _ => True) [.kill 5, .alloc 5 none]
      (fun trace s => decide (trace = [.raised 5] ∧ s.underway 5 = 0 ∧ s.sigPending.getLsbD 5 = true ∧ s.siList = .null))
      (by decide +kernel)
    obtain ⟨htrace, hquiet, hbit, hlist⟩ := of_decide_eq_true hfound
    have hnodes : s.SiNodes [] := by rw [SignalState.SiNodes, hlist]
    refine ⟨trace, s, hrun, htrace, fun ⟨l, hexact⟩ => ?_⟩
    obtain rfl := hexact.eq hnodes
    cases (hexact.pending_iff 5 hquiet).1 hbit
  · obtain ⟨trace, s, hrun, hfound⟩ := exists_signalRun (fun _ _ => True)
      [.kill 5, .kill 5, .update 5 .null false, .alloc 5 (some 0), .alloc 5 (some 1), .append 5 0, .append 5 1]
      (fun _ s => decide (s.siList = .node 0 ∧ s.next 0 = some 1 ∧ s.next 1 = none ∧ s.listed [0, 1] 5 = 2)) (by decide +kernel)
    obtain ⟨hlist, hfirst, hsecond, hlisted⟩ := of_decide_eq_true hfound
    have hnodes : s.SiNodes [0, 1] := by
      rw [SignalState.SiNodes, hlist]
      exact ⟨rfl, hfirst, hsecond⟩
    refine ⟨trace, s, hrun, hnodes, fun ⟨l, hexact⟩ => ?_⟩
    obtain rfl := hexact.eq hnodes
    have hle := hexact.listed_le 5
    omega
  · obtain ⟨trace, s, hrun, hfound⟩ := exists_signalRun (fun _ _ => True)
      ([.unmask 5] ++ killOps 5 0 ++ [.handleSig, .kill 5, .update 5 .null false, .alloc 5 (some 1), .append 5 1, .handlerReturn])
      (fun trace s => decide (trace = [.raised 5, .handled 5 (sigMask 5), .finished] ∧ s.underway 5 = 0 ∧
        s.sigPending.getLsbD 5 = false ∧ s.siList = .node 1 ∧ s.next 1 = none ∧ s.listed [1] 5 = 1)) (by decide +kernel)
    obtain ⟨htrace, hquiet, hbit, hlist, hfirst, hlisted⟩ := of_decide_eq_true hfound
    have hnodes : s.SiNodes [1] := by
      rw [SignalState.SiNodes, hlist]
      exact ⟨rfl, hfirst⟩
    refine ⟨trace, s, hrun, htrace, fun ⟨l, hexact⟩ => ?_⟩
    obtain rfl := hexact.eq hnodes
    cases hbit.symm.trans ((hexact.pending_iff 5 hquiet).2 hlisted)
  · obtain ⟨trace, s, hrun, hfound⟩ := exists_signalRun (fun _ _ => True)
      (killOps 5 0 ++ killOps 6 1 ++ [.wait (sigMask 5) 0])
      (fun trace s => decide (trace = [.raised 5, .raised 6, .waited 5] ∧ s.siList = .link 1)) (by decide +kernel)
    obtain ⟨htrace, hlist⟩ := of_decide_eq_true hfound
    refine ⟨trace, s, hrun, htrace, fun ⟨l, hexact⟩ => ?_⟩
    have hnodes := hexact.nodes
    rw [SignalState.SiNodes, hlist] at hnodes
    exact hnodes
  · obtain ⟨trace, s, hrun, hfound⟩ := exists_signalRun (fun _ _ => True) [.kill 5]
      (fun _ s => decide (s.siList = .null ∧ s.waiting = none ∧ s.sigPending &&& sigMask 5 ≠ 0)) (by decide +kernel)
    obtain ⟨hlist, hidle, hpending⟩ := of_decide_eq_true hfound
    refine ⟨trace, s, s, hrun, ?_, fun ⟨l₁, i, l₂, hnodes, _⟩ => ?_⟩
    · rw [stepSignals, if_pos hidle, SignalState.rtSignalWait, if_neg (by decide), if_pos hpending, SignalState.waitDone, hlist]
    · rw [SignalState.SiNodes, hlist] at hnodes
      exact absurd hnodes (List.append_ne_nil_of_right_ne_nil l₁ (List.cons_ne_nil i l₂))

end RtThread
