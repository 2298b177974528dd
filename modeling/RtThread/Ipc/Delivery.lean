import RtThread.Ipc.Mailbox

/-!
# What a mailbox delivers

The mails that have been stored and not received are the slice of the pool from the output offset on, in the order in which they were stored.
-/

namespace RtThread

open Ring

variable {mb mb' : Mailbox} {s s' : MbState} {op : MbOp} {trace events : List MbEvent} {caller : Option ThreadId}
  {value : Nat} {timeout : Int} {msgPool : Nat → Nat} {size : Nat} {flag : IpcFlag} {priority : ThreadId → Nat}

def mbStored (trace : List MbEvent) : List Nat :=
  trace.filterMap fun
    | .send _ value .eok => some value
    | _ => none

def mbReceived (trace : List MbEvent) : List Nat :=
  trace.filterMap fun
    | .recv _ .eok value => value
    | _ => none

def Mailbox.contents (mb : Mailbox) : List Nat := slice mb.size mb.msgPool mb.outOffset mb.entry

structure MailboxInv (mb : Mailbox) : Prop where
  size : mb.size % 65536 = mb.size
  entry : mb.entry ≤ mb.size
  outOffset : mb.outOffset % mb.size = mb.outOffset
  inOffset : mb.inOffset = (mb.outOffset + mb.entry) % mb.size

@[simp] theorem Mailbox.put_size : (mb.put value).size = mb.size := rfl

@[simp] theorem Mailbox.take_size : mb.take.size = mb.size := rfl

theorem MailboxInv.put_entry (h : MailboxInv mb) (hfull : mb.entry ≠ mb.size) : (mb.put value).entry = mb.entry + 1 := by
  have hsize := h.size
  have hentry := h.entry
  simp only [Mailbox.put]
  omega

@[simp] theorem Mailbox.take_entry : mb.take.entry = mb.entry - 1 := rfl

theorem MailboxInv.put (h : MailboxInv mb) (hfull : mb.entry ≠ mb.size) :
    MailboxInv (mb.put value) ∧ (mb.put value).contents = mb.contents ++ [value] := by
  have hsize := h.size
  have hentry := h.entry
  have hlt : mb.inOffset < mb.size := h.inOffset ▸ Nat.mod_lt _ (by omega)
  have hnext : (mb.put value).inOffset = (mb.inOffset + 1) % mb.size := by
    have hno : (mb.inOffset + 1) % 65536 = mb.inOffset + 1 := Nat.mod_eq_of_lt (by omega)
    simp only [Mailbox.put, hno, next_eq hlt]
  refine ⟨⟨h.size, ?_, h.outOffset, ?_⟩, ?_⟩
  · rw [h.put_entry hfull, Mailbox.put_size]
    omega
  · rw [hnext, h.inOffset, Nat.mod_add_mod, h.put_entry hfull, Mailbox.put_size, Nat.add_assoc]
    rfl
  · rw [Mailbox.contents, h.put_entry hfull, Mailbox.put_size, Mailbox.contents, ← slice_push (by omega), ← h.inOffset]
    rfl

theorem MailboxInv.take (h : MailboxInv mb) (hempty : mb.entry ≠ 0) :
    MailboxInv mb.take ∧ mb.contents = mb.msgPool mb.outOffset :: mb.take.contents := by
  have hsize := h.size
  have hentry := h.entry
  have hlt : mb.outOffset < mb.size := h.outOffset ▸ Nat.mod_lt _ (by omega)
  have hnext : mb.take.outOffset = (mb.outOffset + 1) % mb.size := by
    have hno : (mb.outOffset + 1) % 65536 = mb.outOffset + 1 := Nat.mod_eq_of_lt (by omega)
    simp only [Mailbox.take, hno, next_eq hlt]
  have hone : mb.entry = mb.entry - 1 + 1 := by omega
  refine ⟨⟨h.size, ?_, ?_, ?_⟩, ?_⟩
  · rw [Mailbox.take_entry, Mailbox.take_size]
    omega
  · rw [hnext, Mailbox.take_size, Nat.mod_mod]
  · rw [hnext, Mailbox.take_entry, Mailbox.take_size, Nat.mod_add_mod, Nat.add_assoc, Nat.add_comm 1, ← hone]
    exact h.inOffset
  · rw [Mailbox.contents, hone, slice_pop, h.outOffset, Mailbox.contents, Mailbox.take_entry, hnext]
    rfl

/-! ## What a step does to the mailbox -/

inductive MbEffect (mb mb' : Mailbox) : List MbEvent → Prop
  | put {caller : Option ThreadId} {value : Nat} (hfull : mb.entry ≠ mb.size) (hput : mb' = mb.put value) :
      MbEffect mb mb' [.send caller value .eok]
  | take {caller : Option ThreadId} (hempty : mb.entry ≠ 0) (htake : mb' = mb.take) :
      MbEffect mb mb' [.recv caller .eok (some (mb.msgPool mb.outOffset))]
  | none {events : List MbEvent} (hmb : mb' = mb) (hstored : mbStored events = []) (hreceived : mbReceived events = []) :
      MbEffect mb mb' events

@[simp] theorem MbState.resumeReceiver_mb : s.resumeReceiver.mb = s.mb := by
  unfold MbState.resumeReceiver
  split <;> rfl

@[simp] theorem MbState.resumeSender_mb : s.resumeSender.mb = s.mb := by
  unfold MbState.resumeSender
  split <;> rfl

theorem mbSendLoop_effect {r : Option IpcErr × MbState} (h : mbSendLoop s caller value timeout = some r) :
    MbEffect s.mb r.2.mb (sendEvents caller value r).2 := by
  unfold mbSendLoop at h
  by_cases hfull : s.mb.entry = s.mb.size
  · rw [if_pos hfull] at h
    cases caller with
    | none => cases h
    | some t =>
      dsimp only at h
      split_ifs at h
      · cases h
        exact .none rfl rfl rfl
      · obtain ⟨timer, -, rfl⟩ := Option.map_eq_some_iff.1 h
        exact .none rfl rfl rfl
  · rw [if_neg hfull] at h
    cases h
    exact .put hfull (by simp)

theorem mbRecvLoop_effect {r : Option (IpcErr × Option Nat) × MbState} (h : mbRecvLoop s caller timeout = some r) :
    MbEffect s.mb r.2.mb (recvEvents caller r).2 := by
  unfold mbRecvLoop at h
  by_cases hempty : s.mb.entry = 0
  · rw [if_pos hempty] at h
    cases caller with
    | none => cases h
    | some t =>
      dsimp only at h
      split_ifs at h
      · cases h
        exact .none rfl rfl rfl
      · obtain ⟨timer, -, rfl⟩ := Option.map_eq_some_iff.1 h
        exact .none rfl rfl rfl
  · rw [if_neg hempty] at h
    cases h
    exact .take hempty (by simp)

theorem stepMb_effect (hs : stepMb s op = some (s', events)) : MbEffect s.mb s'.mb events := by
  cases op with
  | send caller value timeout =>
    simp only [stepMb] at hs
    split_ifs at hs
    obtain ⟨r, hsend, heq⟩ := Option.map_eq_some_iff.1 hs
    cases heq
    unfold rtMbSendWait at hsend
    split_ifs at hsend
    · cases hsend
      exact .none rfl rfl rfl
    · exact mbSendLoop_effect hsend
  | recv caller timeout =>
    simp only [stepMb] at hs
    split_ifs at hs
    obtain ⟨r, hrecv, heq⟩ := Option.map_eq_some_iff.1 hs
    cases heq
    unfold rtMbRecv at hrecv
    split_ifs at hrecv
    · cases hrecv
      exact .none rfl rfl rfl
    · exact mbRecvLoop_effect hrecv
  | resume t =>
    simp only [stepMb] at hs
    by_cases hwait : s.Waiting t
    · rw [if_pos hwait] at hs
      cases hs
    rw [if_neg hwait] at hs
    split at hs
    · cases hs
    · split_ifs at hs with herror
      · cases hs
        refine .none rfl ?_ rfl
        cases hcode : (s.thread t).error <;> simp_all [mbStored, MbState.setCall]
      · obtain ⟨r, hsend, heq⟩ := Option.map_eq_some_iff.1 hs
        cases heq
        exact (mbSendLoop_effect hsend : MbEffect (s.setCall t none).mb _ _)
    · split_ifs at hs with herror
      · cases hs
        refine .none rfl rfl ?_
        cases hcode : (s.thread t).error <;> simp_all [mbReceived, MbState.setCall]
      · obtain ⟨r, hrecv, heq⟩ := Option.map_eq_some_iff.1 hs
        cases heq
        exact (mbRecvLoop_effect hrecv : MbEffect (s.setCall t none).mb _ _)
  | timeout t =>
    simp only [stepMb] at hs
    split_ifs at hs
    cases hs
    exact .none rfl rfl rfl
  | tick =>
    cases hs
    exact .none rfl rfl rfl
  | changePriority t p =>
    cases hs
    exact .none rfl rfl rfl

/-! ## Every run -/

/-- What has been stored is what has been received and what the mailbox holds. -/
structure DeliveryInv (size : Nat) (trace : List MbEvent) (mb : Mailbox) : Prop where
  inv : MailboxInv mb
  size : mb.size = size % 65536
  stored : mbStored trace = mbReceived trace ++ mb.contents

theorem DeliveryInv.step (h : DeliveryInv size trace mb) (heffect : MbEffect mb mb' events) :
    DeliveryInv size (trace ++ events) mb' := by
  have hstored : ∀ l l', mbStored (l ++ l') = mbStored l ++ mbStored l' := fun l l' => List.filterMap_append ..
  have hreceived : ∀ l l', mbReceived (l ++ l') = mbReceived l ++ mbReceived l' := fun l l' => List.filterMap_append ..
  cases heffect with
  | @put caller value hfull hput =>
    subst hput
    obtain ⟨hinv, hcontents⟩ : MailboxInv (mb.put value) ∧ (mb.put value).contents = mb.contents ++ [value] := h.inv.put hfull
    refine ⟨hinv, h.size, ?_⟩
    rw [hstored, hreceived, hcontents, h.stored]
    simp [mbStored, mbReceived]
  | take hempty htake =>
    subst htake
    obtain ⟨hinv, hcontents⟩ := h.inv.take hempty
    refine ⟨hinv, h.size, ?_⟩
    rw [hstored, hreceived, h.stored, hcontents]
    simp [mbStored, mbReceived]
  | none hmb hnone hnone' =>
    subst hmb
    refine ⟨h.inv, h.size, ?_⟩
    rw [hstored, hreceived, hnone, hnone', List.append_nil, List.append_nil]
    exact h.stored

theorem deliveryInv_of_run (hrun : MbRun msgPool size flag priority trace s) : DeliveryInv size trace s.mb := by
  refine hrun.invariant (I := fun trace s => DeliveryInv size trace s.mb) ?_ fun trace s op s' events h _ hs =>
    h.step (stepMb_effect hs)
  exact ⟨⟨Nat.mod_mod .., Nat.zero_le _, Nat.zero_mod _, (Nat.zero_mod _).symm⟩, rfl, rfl⟩

structure MailboxDelivery (trace : List MbEvent) (mb : Mailbox) : Prop where
  received : mbReceived trace <+: mbStored trace
  entry : mb.entry + (mbReceived trace).length = (mbStored trace).length
  entry_le : mb.entry ≤ mb.size
  inOffset : mb.inOffset = (mb.outOffset + mb.entry) % mb.size

/-- In every run of a mailbox, whatever its size. -/
theorem mailboxDelivery_of_run (hrun : MbRun msgPool size flag priority trace s) : MailboxDelivery trace s.mb := by
  have h := deliveryInv_of_run hrun
  refine ⟨⟨_, h.stored.symm⟩, ?_, h.inv.entry, h.inv.inOffset⟩
  rw [h.stored, List.length_append, Mailbox.contents, length_slice, Nat.add_comm]

/-- A mailbox of two mails: a third sender waits, is woken by a receiver and stores its mail behind the wrap of the input offset. -/
theorem mailboxDelivery_of_run_wrap : ∃ trace s, MbRun (fun _ => 0) 2 .fifo (fun _ => 0) trace s ∧
    mbStored trace = [10, 20, 30] ∧ mbReceived trace = [10] ∧ s.mb.inOffset = 1 ∧ s.mb.outOffset = 1 ∧
      MailboxDelivery trace s.mb := by
  obtain ⟨trace, s, hrun, hfound⟩ := exists_mbRun 2 .fifo (fun _ => 0)
    [.send none 10 0, .send (some 0) 20 5, .send (some 1) 30 (-1), .recv (some 2) 7, .resume 1]
    (fun trace s => decide (mbStored trace = [10, 20, 30] ∧ mbReceived trace = [10] ∧ s.mb.inOffset = 1 ∧
      s.mb.outOffset = 1)) (by decide +kernel)
  obtain ⟨hstored, hreceived, hin, hout⟩ := of_decide_eq_true hfound
  exact ⟨trace, s, hrun, hstored, hreceived, hin, hout, mailboxDelivery_of_run hrun⟩

end RtThread
