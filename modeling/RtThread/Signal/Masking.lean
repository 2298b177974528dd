import RtThread.Signal.Pending

/-!
# Masked signals

`rt_thread_handle_sig` looks at the bits of the pending signals that are not masked, and takes the nodes as they come. So it calls the handler of a masked signal whose node stands in front of that of an unmasked one. Where every round finds an unmasked signal in front, the masked signals stay in the list, and each signal that becomes pending is handled once or is returned by `rt_signal_wait` once.
-/

namespace RtThread

namespace SignalState

def FirstUnmasked (s : SignalState) : Prop :=
  match s.siList with
  | .node i => s.sigPending &&& s.sigMask ≠ 0 → s.sigMask.getLsbD (s.siSigno i) = true
  | _ => True

instance (s : SignalState) : Decidable s.FirstUnmasked := by
  unfold FirstUnmasked
  split <;> infer_instance

def running (s : SignalState) (sig : Nat) : Nat := s.frames.countP fun frame => frame.2 = sig

/-- How many calls of `rt_thread_kill` have not come to their end with a signal. -/
def inFlight (s : SignalState) (sig : Nat) : Nat := s.kills.countP fun k => k.sig = sig

end SignalState

/-- The steps are such that the bits and the list agree, and each round finds an unmasked signal in front. -/
def MaskKept (sigInfoMax : Nat) (s : SignalState) (op : SignalOp) : Prop :=
  SignalKept sigInfoMax s op ∧
    match op with
    | .handleSig => s.waiting = none → s.FirstUnmasked
    | .handlerReturn =>
      match s.frames with
      | [] => True
      | (i, signo) :: frames => (s.roundEnd i signo frames).FirstUnmasked
    | _ => True

instance (sigInfoMax : Nat) (s : SignalState) (op : SignalOp) : Decidable (MaskKept sigInfoMax s op) := by
  dsimp only [MaskKept]
  induction op using SignalOp.casesOn with
  | handlerReturn =>
    dsimp only
    generalize s.frames = frames
    induction frames using List.casesOn <;> infer_instance
  | _ => infer_instance

def raisedOf (trace : List SignalEvent) (sig : Nat) : Nat := trace.count (.raised sig)

def waitedOf (trace : List SignalEvent) (sig : Nat) : Nat := trace.count (.waited sig)

def SignalEvent.handles (sig : Nat) : SignalEvent → Bool
  | .handled signo _ => decide (signo = sig)
  | _ => false

def handledOf (trace : List SignalEvent) (sig : Nat) : Nat := trace.countP (SignalEvent.handles sig)

/-- A signal that is pending and not masked, with a node in the list. -/
def SignalState.Due (s : SignalState) (l : List Nat) (sig : Nat) : Prop :=
  s.sigPending.getLsbD sig = true ∧ s.sigMask.getLsbD sig = true ∧ 0 < s.listed l sig

variable {sigInfoMax sig i : Nat} {siSigno : Nat → Nat} {next : Nat → Option Nat} {s s' before : SignalState} {l l' : List Nat}
  {op : SignalOp} {trace events : List SignalEvent}

/-! ## Accounts -/

def Accounted (trace : List SignalEvent) (s : SignalState) : Prop :=
  ∀ sig, raisedOf trace sig + s.running sig = handledOf trace sig + waitedOf trace sig + (s.sigPending.getLsbD sig).toNat

theorem raisedOf_append (trace events : List SignalEvent) (sig : Nat) :
    raisedOf (trace ++ events) sig = raisedOf trace sig + raisedOf events sig := List.count_append

theorem waitedOf_append (trace events : List SignalEvent) (sig : Nat) :
    waitedOf (trace ++ events) sig = waitedOf trace sig + waitedOf events sig := List.count_append

theorem handledOf_append (trace events : List SignalEvent) (sig : Nat) :
    handledOf (trace ++ events) sig = handledOf trace sig + handledOf events sig := List.countP_append

theorem Accounted.step (h : Accounted trace s)
    (hstep : ∀ sig, raisedOf events sig + s'.running sig + (s.sigPending.getLsbD sig).toNat =
      handledOf events sig + waitedOf events sig + (s'.sigPending.getLsbD sig).toNat + s.running sig) :
    Accounted (trace ++ events) s' := by
  intro sig
  have hbefore := h sig
  have hnow := hstep sig
  rw [raisedOf_append, handledOf_append, waitedOf_append]
  omega

theorem RoundFrom.accounts (hbefore : RoundFrom s op before) (h : SignalInv sigInfoMax s l) (sig : Nat) :
    before.running sig + (s.sigPending.getLsbD sig).toNat = s.running sig + (before.sigPending.getLsbD sig).toNat := by
  rcases hbefore with ⟨-, -, rfl⟩ | ⟨-, i, signo, frames, hframes, rfl⟩
  · rfl
  · have hsum := h.pending sig
    have hrunning : s.running sig = frames.countP (fun frame => frame.2 = sig) + if signo = sig then 1 else 0 := by
      rw [SignalState.running, hframes, List.countP_cons]
      simp only [decide_eq_true_eq]
    change frames.countP (fun frame => frame.2 = sig) + _ = _ + ((s.sigPending &&& ~~~sigMask signo).getLsbD sig).toNat
    rw [getLsbD_clear, hrunning]
    by_cases hsig : sig = signo
    · subst hsig
      have hle := Bool.toNat_le (s.sigPending.getLsbD sig)
      have hunder : s.underway sig = s.inFlight sig + s.running sig := rfl
      rw [if_pos rfl] at hrunning ⊢
      simp only [ne_eq, not_true_eq_false, decide_false, Bool.and_false, Bool.toNat_false]
      omega
    · rw [if_neg fun heq => hsig heq.symm]
      simp only [ne_eq, hsig, not_false_eq_true, decide_true, Bool.and_true]
      omega

theorem Accounted.move (h : Accounted trace s) (hinv : SignalInv sigInfoMax s l) (hmove : SignalMove s l op s' events l') :
    Accounted (trace ++ events) s' := by
  apply h.step
  intro sig
  cases hmove with
  | other hpending hframes =>
    rw [SignalState.running, hframes, hpending]
    change 0 + s.running sig + _ = 0 + 0 + _ + s.running sig
    omega
  | @raised raised hlt hclear =>
    change raisedOf [.raised raised] sig + s.running sig + _ = 0 + 0 + ((s.sigPending ||| sigMask raised).getLsbD sig).toNat + _
    rw [getLsbD_raise hlt, raisedOf, List.count_singleton]
    by_cases hsig : sig = raised
    · subst hsig
      simp only [hclear, beq_self_eq_true, if_true, decide_true, Bool.or_true, Bool.toNat_true, Bool.toNat_false]
      omega
    · have hne : (SignalEvent.raised raised == .raised sig) = false := by
        rw [beq_eq_false_iff_ne]
        exact fun heq => hsig (SignalEvent.raised.inj heq).symm
      simp only [hne, hsig, decide_false, Bool.or_false, Bool.false_eq_true, if_false]
      omega
  | finished hbefore hend =>
    have haccounts := hbefore.accounts hinv sig
    change 0 + _ + _ = 0 + 0 + _ + _
    omega
  | @handled _ before i rest hbefore hlist hptr hpending =>
    have haccounts := hbefore.accounts hinv sig
    have hframes : ((i, before.siSigno i) :: before.frames).countP (fun frame => decide (frame.2 = sig)) =
        before.running sig + if before.siSigno i = sig then 1 else 0 := by
      rw [List.countP_cons]
      simp only [decide_eq_true_eq]
      rfl
    have hhandled : handledOf [.handled (before.siSigno i) before.sigMask] sig = if before.siSigno i = sig then 1 else 0 := by
      rw [handledOf, List.countP_singleton, SignalEvent.handles]
      simp only [decide_eq_true_eq]
    change 0 + ((i, before.siSigno i) :: before.frames).countP (fun frame => decide (frame.2 = sig)) + _ =
      handledOf [.handled (before.siSigno i) before.sigMask] sig + 0 + (before.sigPending.getLsbD sig).toNat + _
    rw [hframes, hhandled]
    omega
  | @waited _ l₁ i l₂ waiting hlist hop =>
    have hsum := hinv.pending sig
    change 0 + s.running sig + _ =
      0 + waitedOf [.waited (s.siSigno i)] sig + ((s.sigPending &&& ~~~sigMask (s.siSigno i)).getLsbD sig).toNat + s.running sig
    rw [getLsbD_clear, waitedOf, List.count_singleton]
    by_cases hsig : sig = s.siSigno i
    · have hlisted : 0 < s.listed l sig := by
        rw [hlist]
        exact List.countP_pos_iff.2 ⟨i, List.mem_append_right _ List.mem_cons_self, decide_eq_true hsig.symm⟩
      have hle := Bool.toNat_le (s.sigPending.getLsbD sig)
      rw [← hsig]
      simp only [beq_self_eq_true, if_true, ne_eq, not_true_eq_false, decide_false, Bool.and_false, Bool.toNat_false]
      omega
    · have hne : (SignalEvent.waited (s.siSigno i) == .waited sig) = false := by
        rw [beq_eq_false_iff_ne]
        exact fun heq => hsig (SignalEvent.waited.inj heq).symm
      simp only [hne, hsig, ne_eq, not_false_eq_true, decide_true, Bool.and_true, Bool.false_eq_true, if_false]
      omega

/-! ## The mask -/

theorem RoundFrom.frame (hbefore : RoundFrom s op before) :
    before.siList = s.siList ∧ before.next = s.next ∧ before.siSigno = s.siSigno ∧ before.sigMask = s.sigMask := by
  rcases hbefore with ⟨-, -, rfl⟩ | ⟨-, i, signo, frames, -, rfl⟩
  · exact ⟨rfl, rfl, rfl, rfl⟩
  · exact ⟨rfl, rfl, rfl, rfl⟩

theorem RoundFrom.firstUnmasked (hbefore : RoundFrom s op before) (hok : MaskKept sigInfoMax s op) : before.FirstUnmasked := by
  rcases hbefore with ⟨rfl, hidle, rfl⟩ | ⟨rfl, i, signo, frames, hframes, rfl⟩
  · exact hok.2 hidle
  · have hround := hok.2
    dsimp only at hround
    rw [hframes] at hround
    exact hround

theorem MaskKept.unmasked (hok : MaskKept sigInfoMax s op) (hbefore : RoundFrom s op before) (hptr : before.siList = .node i)
    (hpending : before.sigPending &&& before.sigMask ≠ 0) : before.sigMask.getLsbD (before.siSigno i) = true := by
  have hfirst := hbefore.firstUnmasked hok
  rw [SignalState.FirstUnmasked, hptr] at hfirst
  exact hfirst hpending

theorem handled_of_move (hok : MaskKept sigInfoMax s op) (hmove : SignalMove s l op s' events l') {signo : Nat}
    {sigMask : BitVec 32} (hevent : .handled signo sigMask ∈ events) : sigMask.getLsbD signo = true := by
  cases hmove with
  | other => cases hevent
  | raised | finished | waited => exact absurd (List.mem_singleton.1 hevent) SignalEvent.noConfusion
  | handled hbefore hlist hptr hpending =>
    obtain ⟨rfl, rfl⟩ := SignalEvent.handled.inj (List.mem_singleton.1 hevent)
    exact hok.unmasked hbefore hptr hpending

/-- What is due is due when the round starts: a signal whose handler has just returned has no node. -/
theorem RoundFrom.due (hbefore : RoundFrom s op before) (h : SignalInv sigInfoMax s l) (hdue : s.Due l sig) : before.Due l sig := by
  obtain ⟨hbit, hmask, hlisted⟩ := hdue
  rcases hbefore with ⟨-, -, rfl⟩ | ⟨-, i, signo, frames, hframes, rfl⟩
  · exact ⟨hbit, hmask, hlisted⟩
  · refine ⟨?_, hmask, hlisted⟩
    change (s.sigPending &&& ~~~sigMask signo).getLsbD sig = true
    rw [getLsbD_clear, hbit, Bool.true_and, decide_eq_true_eq]
    rintro rfl
    have hrunning : 0 < s.underway sig := by
      rw [SignalState.underway, hframes, List.countP_cons, decide_eq_true rfl, if_pos rfl]
      omega
    have hnone := (h.exact.underway sig hrunning).2.2
    omega

structure MaskInv (sigInfoMax : Nat) (trace : List SignalEvent) (s : SignalState) : Prop where
  signals : ∃ l, SignalInv sigInfoMax s l
  handled : ∀ signo sigMask, .handled signo sigMask ∈ trace → sigMask.getLsbD signo = true
  accounts : Accounted trace s

theorem MaskInv.step (h : MaskInv sigInfoMax trace s) (hok : MaskKept sigInfoMax s op)
    (hs : stepSignals sigInfoMax s op = some (s', events)) : MaskInv sigInfoMax (trace ++ events) s' := by
  obtain ⟨l, hinv⟩ := h.signals
  obtain ⟨l', hmove, hafter⟩ := hinv.move hok.1 hs
  refine ⟨⟨l', hafter⟩, fun signo sigMask hevent => ?_, h.accounts.move hinv hmove⟩
  rcases List.mem_append.1 hevent with hevent | hevent
  · exact h.handled signo sigMask hevent
  · exact handled_of_move hok hmove hevent

end RtThread
