import RtThread.Ipc.Delivery
import RtThread.Lib.AtLeast

/-!
# No wake-up of a mailbox is lost

A wake-up is only a hint: the thread that has been woken looks again when it runs, and another thread may have been faster. Counted together the hints suffice. As long as a receiver is suspended, at least as many receivers are on their way as there are mails, and as long as a sender is suspended, at least as many senders are on their way as there are free places.

The step of a thread that goes on is seen in two parts: the thread is no longer on its way, which leaves the count one short, and its critical section makes up for it.
-/

namespace RtThread

open Function

variable {s s' : MbState} {op : MbOp} {trace events : List MbEvent} {caller : Option ThreadId} {t u : ThreadId}
  {value : Nat} {timeout : Int} {msgPool : Nat → Nat} {size : Nat} {flag : IpcFlag} {priority : ThreadId → Nat} {dr ds : Nat}

/-- A thread has blocked in `rt_mb_recv`, or in `rt_mb_send_wait`. -/
def MbState.Receives (s : MbState) (t : ThreadId) : Prop := ∃ timeout start, s.call t = some (.recv timeout start)

def MbState.Sends (s : MbState) (t : ThreadId) : Prop := ∃ value timeout start, s.call t = some (.send value timeout start)

def MbState.WokenReceiver (s : MbState) (t : ThreadId) : Prop :=
  s.Receives t ∧ t ∉ s.receivers ∧ (s.thread t).error = .eok

def MbState.WokenSender (s : MbState) (t : ThreadId) : Prop :=
  s.Sends t ∧ t ∉ s.senders ∧ (s.thread t).error = .eok

structure MbThreads (s : MbState) : Prop where
  receivers_nodup : s.receivers.Nodup
  senders_nodup : s.senders.Nodup
  receivers : ∀ t ∈ s.receivers, s.Receives t ∧ (s.thread t).error = .eok
  senders : ∀ t ∈ s.senders, s.Sends t ∧ (s.thread t).error = .eok

/-- The hints suffice, but for `dr` receivers and `ds` senders. -/
structure MbWakes (s : MbState) (dr ds : Nat) : Prop where
  receivers : s.receivers ≠ [] → AtLeast (s.mb.entry - dr) s.WokenReceiver
  senders : s.senders ≠ [] → AtLeast (s.mb.size - s.mb.entry - ds) s.WokenSender

/-- The invariant of the threads, short of `dr` and `ds` hints. -/
structure WakeInv (s : MbState) (dr ds : Nat) : Prop where
  mb : MailboxInv s.mb
  threads : MbThreads s
  wakes : MbWakes s dr ds

theorem MbState.Receives.not_sends (h : s.Receives t) : ¬ s.Sends t := by
  obtain ⟨_, _, h⟩ := h
  rintro ⟨_, _, _, h'⟩
  rw [h] at h'
  cases h'

theorem MbThreads.not_waiting (h : MbThreads s) (hcall : s.call t = none) : ¬ s.Waiting t := by
  rintro (ht | ht)
  · obtain ⟨⟨_, _, _, hsends⟩, -⟩ := h.senders t ht
    rw [hcall] at hsends
    cases hsends
  · obtain ⟨⟨_, _, hreceives⟩, -⟩ := h.receivers t ht
    rw [hcall] at hreceives
    cases hreceives

/-! ## Frames -/

structure SameCall (s s' : MbState) (t : ThreadId) : Prop where
  call : s'.call t = s.call t
  error : s.call t ≠ none → (s'.thread t).error = (s.thread t).error

theorem SameCall.receiver (h : SameCall s s' t) (ht : s.Receives t ∧ (s.thread t).error = .eok) :
    s'.Receives t ∧ (s'.thread t).error = .eok := by
  obtain ⟨⟨timeout, start, heq⟩, herror⟩ := ht
  exact ⟨⟨timeout, start, h.call.trans heq⟩, (h.error (by simp [heq])).trans herror⟩

theorem SameCall.sender (h : SameCall s s' t) (ht : s.Sends t ∧ (s.thread t).error = .eok) :
    s'.Sends t ∧ (s'.thread t).error = .eok := by
  obtain ⟨⟨value, timeout, start, heq⟩, herror⟩ := ht
  exact ⟨⟨value, timeout, start, h.call.trans heq⟩, (h.error (by simp [heq])).trans herror⟩

theorem SameCall.wokenReceiver (h : SameCall s s' t) (ht : s.Receives t ∧ (s.thread t).error = .eok)
    (hnot : t ∉ s'.receivers) : s'.WokenReceiver t :=
  ⟨(h.receiver ht).1, hnot, (h.receiver ht).2⟩

theorem SameCall.wokenSender (h : SameCall s s' t) (ht : s.Sends t ∧ (s.thread t).error = .eok)
    (hnot : t ∉ s'.senders) : s'.WokenSender t :=
  ⟨(h.sender ht).1, hnot, (h.sender ht).2⟩

structure Leave (s s' : MbState) : Prop where
  receivers : s'.receivers.Sublist s.receivers
  senders : s'.senders.Sublist s.senders
  waiting : ∀ t, s'.Waiting t → SameCall s s' t

theorem MbThreads.leave (h : MbThreads s) (hleave : Leave s s') : MbThreads s' :=
  ⟨h.receivers_nodup.sublist hleave.receivers, h.senders_nodup.sublist hleave.senders,
    fun t ht => (hleave.waiting t (.inr ht)).receiver (h.receivers t (hleave.receivers.subset ht)),
    fun t ht => (hleave.waiting t (.inl ht)).sender (h.senders t (hleave.senders.subset ht))⟩

theorem WakeInv.leave (h : WakeInv s dr ds) (hleave : Leave s s') (hmb : s'.mb = s.mb)
    (hreceivers : ∀ t, s.WokenReceiver t → SameCall s s' t) (hsenders : ∀ t, s.WokenSender t → SameCall s s' t) :
    WakeInv s' dr ds := by
  refine ⟨hmb ▸ h.mb, h.threads.leave hleave, fun hne => ?_, fun hne => ?_⟩
  · rw [hmb]
    refine (h.wakes.receivers fun heq => hne ?_).mono (Nat.le_refl _) fun u hu => ?_
    · exact List.sublist_nil.1 (heq ▸ hleave.receivers)
    · exact (hreceivers u hu).wokenReceiver ⟨hu.1, hu.2.2⟩ fun hmem => hu.2.1 (hleave.receivers.subset hmem)
  · rw [hmb]
    refine (h.wakes.senders fun heq => hne ?_).mono (Nat.le_refl _) fun u hu => ?_
    · exact List.sublist_nil.1 (heq ▸ hleave.senders)
    · exact (hsenders u hu).wokenSender ⟨hu.1, hu.2.2⟩ fun hmem => hu.2.1 (hleave.senders.subset hmem)

theorem WakeInv.same (h : WakeInv s dr ds) (hsame : ∀ t, SameCall s s' t) (hreceivers : s'.receivers = s.receivers)
    (hsenders : s'.senders = s.senders) (hmb : s'.mb = s.mb) : WakeInv s' dr ds :=
  h.leave ⟨hreceivers ▸ .refl _, hsenders ▸ .refl _, fun t _ => hsame t⟩ hmb (fun t _ => hsame t) fun t _ => hsame t

theorem MbState.setThread_same (f : Waiter → Waiter) : (s.setThread t f).thread t = f (s.thread t) :=
  update_self ..

theorem MbState.setThread_ne (f : Waiter → Waiter) (hne : u ≠ t) : (s.setThread t f).thread u = s.thread u :=
  update_of_ne hne ..

theorem sameCall_setFree (hcall : s.call t = none) (f : Waiter → Waiter) (u : ThreadId) : SameCall s (s.setThread t f) u :=
  ⟨rfl, fun hu => by rw [MbState.setThread_ne f fun heq : u = t => hu (heq ▸ hcall)]⟩

theorem sameCall_setThread (f : Waiter → Waiter) (hf : (f (s.thread t)).error = (s.thread t).error) (u : ThreadId) :
    SameCall s (s.setThread t f) u := by
  refine ⟨rfl, fun _ => ?_⟩
  by_cases hu : u = t
  · rw [hu, MbState.setThread_same, hf]
  · rw [MbState.setThread_ne f hu]

/-! ## Waking -/

@[simp] theorem MbState.resumeReceiver_receivers : s.resumeReceiver.receivers = s.receivers.tail := by
  unfold MbState.resumeReceiver
  split <;> simp_all [MbState.setThread]

@[simp] theorem MbState.resumeReceiver_senders : s.resumeReceiver.senders = s.senders := by
  unfold MbState.resumeReceiver
  split <;> rfl

theorem sameCall_resumeReceiver : SameCall s s.resumeReceiver t := by
  unfold MbState.resumeReceiver
  split
  · exact ⟨rfl, fun _ => rfl⟩
  · rename_i r rest hlist
    exact ⟨rfl, (sameCall_setThread (s := { s with receivers := rest }) (t := r) _ rfl t).error⟩

@[simp] theorem MbState.resumeSender_senders : s.resumeSender.senders = s.senders.tail := by
  unfold MbState.resumeSender
  split <;> simp_all [MbState.setThread]

@[simp] theorem MbState.resumeSender_receivers : s.resumeSender.receivers = s.receivers := by
  unfold MbState.resumeSender
  split <;> rfl

theorem sameCall_resumeSender : SameCall s s.resumeSender t := by
  unfold MbState.resumeSender
  split
  · exact ⟨rfl, fun _ => rfl⟩
  · rename_i r rest hlist
    exact ⟨rfl, (sameCall_setThread (s := { s with senders := rest }) (t := r) _ rfl t).error⟩

theorem WakeInv.resumeReceiver {mb : Mailbox} (h : WakeInv s 0 ds) (hds : ds ≤ 1) (hmb : MailboxInv mb)
    (hentry : mb.entry = s.mb.entry + 1) (hsize : mb.size = s.mb.size) : WakeInv { s with mb }.resumeReceiver 0 0 := by
  have hcalls : ∀ u, SameCall s { s with mb }.resumeReceiver u := fun u =>
    have h := sameCall_resumeReceiver (s := { s with mb }) (t := u)
    ⟨h.call, h.error⟩
  refine ⟨by simpa using hmb, h.threads.leave ⟨?_, ?_, fun u _ => hcalls u⟩, fun hne => ?_, fun hne => ?_⟩
  · rw [MbState.resumeReceiver_receivers]
    exact s.receivers.tail_sublist
  · rw [MbState.resumeReceiver_senders]
  · rw [MbState.resumeReceiver_receivers] at hne
    rw [MbState.resumeReceiver_mb, hentry]
    obtain ⟨r, rest, hlist⟩ : ∃ r rest, s.receivers = r :: rest :=
      List.exists_cons_of_ne_nil fun heq => hne (by rw [heq, List.tail_nil])
    have hnodup := h.threads.receivers_nodup
    rw [hlist, List.nodup_cons] at hnodup
    have hr : r ∈ s.receivers := hlist ▸ List.mem_cons_self ..
    have hrest : MbState.receivers { s with mb }.resumeReceiver = rest := by simp [hlist]
    -- the one that is woken was not on its way before
    refine (h.wakes.receivers (hlist ▸ List.cons_ne_nil r rest)).cons (fun hw => hw.2.1 hr)
      ((hcalls r).wokenReceiver (h.threads.receivers r hr) (hrest ▸ hnodup.1)) fun u hu => ?_
    refine (hcalls u).wokenReceiver ⟨hu.1, hu.2.2⟩ fun hmem => hu.2.1 ?_
    rw [hrest] at hmem
    exact hlist ▸ List.mem_cons_of_mem r hmem
  · rw [MbState.resumeReceiver_senders] at hne
    rw [MbState.resumeReceiver_mb]
    refine (h.wakes.senders hne).mono (show mb.size - mb.entry - 0 ≤ _ by omega) fun u hu => ?_
    exact (hcalls u).wokenSender ⟨hu.1, hu.2.2⟩ (by simpa using hu.2.1)

theorem WakeInv.resumeSender {mb : Mailbox} (h : WakeInv s dr 0) (hdr : dr ≤ 1) (hmb : MailboxInv mb)
    (hempty : s.mb.entry ≠ 0) (hentry : mb.entry = s.mb.entry - 1) (hsize : mb.size = s.mb.size) :
    WakeInv { s with mb }.resumeSender 0 0 := by
  have hle := h.mb.entry
  have hcalls : ∀ u, SameCall s { s with mb }.resumeSender u := fun u =>
    have h := sameCall_resumeSender (s := { s with mb }) (t := u)
    ⟨h.call, h.error⟩
  refine ⟨by simpa using hmb, h.threads.leave ⟨?_, ?_, fun u _ => hcalls u⟩, fun hne => ?_, fun hne => ?_⟩
  · rw [MbState.resumeSender_receivers]
  · rw [MbState.resumeSender_senders]
    exact s.senders.tail_sublist
  · rw [MbState.resumeSender_receivers] at hne
    rw [MbState.resumeSender_mb]
    refine (h.wakes.receivers hne).mono (show mb.entry - 0 ≤ _ by omega) fun u hu => ?_
    exact (hcalls u).wokenReceiver ⟨hu.1, hu.2.2⟩ (by simpa using hu.2.1)
  · rw [MbState.resumeSender_senders] at hne
    rw [MbState.resumeSender_mb]
    obtain ⟨r, rest, hlist⟩ : ∃ r rest, s.senders = r :: rest :=
      List.exists_cons_of_ne_nil fun heq => hne (by rw [heq, List.tail_nil])
    have hnodup := h.threads.senders_nodup
    rw [hlist, List.nodup_cons] at hnodup
    have hr : r ∈ s.senders := hlist ▸ List.mem_cons_self ..
    have hrest : MbState.senders { s with mb }.resumeSender = rest := by simp [hlist]
    have hfree : mb.size - mb.entry - 0 = s.mb.size - s.mb.entry - 0 + 1 := by omega
    rw [show MbState.mb { s with mb } = mb from rfl, hfree]
    refine (h.wakes.senders (hlist ▸ List.cons_ne_nil r rest)).cons (fun hw => hw.2.1 hr)
      ((hcalls r).wokenSender (h.threads.senders r hr) (hrest ▸ hnodup.1)) fun u hu => ?_
    refine (hcalls u).wokenSender ⟨hu.1, hu.2.2⟩ fun hmem => hu.2.1 ?_
    rw [hrest] at hmem
    exact hlist ▸ List.mem_cons_of_mem r hmem

/-! ## Falling asleep, giving up and going on -/

structure FallsAsleep (s s' : MbState) (t : ThreadId) : Prop where
  mb : s'.mb = s.mb
  other : ∀ u ≠ t, SameCall s s' u
  error : (s'.thread t).error = (s.thread t).error

theorem fallsAsleep_suspendReceiver {timer : Bool} : FallsAsleep s (s.suspendReceiver t timeout timer) t := by
  have hthread : (s.suspendReceiver t timeout timer).thread = update s.thread t { s.thread t with timer } := rfl
  refine ⟨rfl, fun u hu => ⟨update_of_ne hu .., fun _ => ?_⟩, ?_⟩
  · rw [hthread, update_of_ne hu]
  · rw [hthread, update_self]

theorem fallsAsleep_suspendSender {timer : Bool} : FallsAsleep s (s.suspendSender t value timeout timer) t := by
  have hthread : (s.suspendSender t value timeout timer).thread = update s.thread t { s.thread t with timer } := rfl
  refine ⟨rfl, fun u hu => ⟨update_of_ne hu .., fun _ => ?_⟩, ?_⟩
  · rw [hthread, update_of_ne hu]
  · rw [hthread, update_self]

theorem MbThreads.ne_of_waiting (h : MbThreads s) (hcall : s.call t = none) (hu : s.Waiting u) : u ≠ t :=
  fun heq => h.not_waiting hcall (heq ▸ hu)

theorem MbState.Receives.ne_of_free (hu : s.Receives u) (hcall : s.call t = none) : u ≠ t := by
  rintro rfl
  obtain ⟨_, _, heq⟩ := hu
  rw [hcall] at heq
  cases heq

theorem MbState.Sends.ne_of_free (hu : s.Sends u) (hcall : s.call t = none) : u ≠ t := by
  rintro rfl
  obtain ⟨_, _, _, heq⟩ := hu
  rw [hcall] at heq
  cases heq

theorem WakeInv.suspendReceiver {timer : Bool} (h : WakeInv s dr 0) (hcall : s.call t = none)
    (herror : (s.thread t).error = .eok) (hempty : s.mb.entry = 0) :
    WakeInv (s.suspendReceiver t timeout timer) 0 0 := by
  have hperm : (s.suspendReceiver t timeout timer).receivers.Perm (t :: s.receivers) := ipcListSuspend_perm ..
  have hsleep : FallsAsleep s (s.suspendReceiver t timeout timer) t := fallsAsleep_suspendReceiver
  refine ⟨h.mb, ⟨?_, h.threads.senders_nodup, fun u hu => ?_, fun u hu => ?_⟩, fun _ => ?_, fun hne => ?_⟩
  · exact hperm.nodup_iff.2
      (List.nodup_cons.2 ⟨fun hmem => h.threads.not_waiting hcall (.inr hmem), h.threads.receivers_nodup⟩)
  · rcases List.mem_cons.1 (hperm.subset hu) with rfl | hu
    · exact ⟨⟨timeout, s.tick, update_self ..⟩, hsleep.error.trans herror⟩
    · exact (hsleep.other u (h.threads.ne_of_waiting hcall (.inr hu))).receiver (h.threads.receivers u hu)
  · exact (hsleep.other u (h.threads.ne_of_waiting hcall (.inl hu))).sender (h.threads.senders u hu)
  · exact (AtLeast.zero _).mono (show s.mb.entry - 0 ≤ 0 by omega) fun _ => id
  · refine (h.wakes.senders hne).mono (Nat.le_refl _) fun u hu => ?_
    exact (hsleep.other u (hu.1.ne_of_free hcall)).wokenSender ⟨hu.1, hu.2.2⟩ hu.2.1

theorem WakeInv.suspendSender {timer : Bool} (h : WakeInv s 0 ds) (hcall : s.call t = none)
    (herror : (s.thread t).error = .eok) (hfull : s.mb.entry = s.mb.size) :
    WakeInv (s.suspendSender t value timeout timer) 0 0 := by
  have hperm : (s.suspendSender t value timeout timer).senders.Perm (t :: s.senders) := ipcListSuspend_perm ..
  have hsleep : FallsAsleep s (s.suspendSender t value timeout timer) t := fallsAsleep_suspendSender
  refine ⟨h.mb, ⟨h.threads.receivers_nodup, ?_, fun u hu => ?_, fun u hu => ?_⟩, fun hne => ?_, fun _ => ?_⟩
  · exact hperm.nodup_iff.2
      (List.nodup_cons.2 ⟨fun hmem => h.threads.not_waiting hcall (.inl hmem), h.threads.senders_nodup⟩)
  · exact (hsleep.other u (h.threads.ne_of_waiting hcall (.inr hu))).receiver (h.threads.receivers u hu)
  · rcases List.mem_cons.1 (hperm.subset hu) with rfl | hu
    · exact ⟨⟨value, timeout, s.tick, update_self ..⟩, hsleep.error.trans herror⟩
    · exact (hsleep.other u (h.threads.ne_of_waiting hcall (.inl hu))).sender (h.threads.senders u hu)
  · refine (h.wakes.receivers hne).mono (Nat.le_refl _) fun u hu => ?_
    exact (hsleep.other u (hu.1.ne_of_free hcall)).wokenReceiver ⟨hu.1, hu.2.2⟩ hu.2.1
  · exact (AtLeast.zero _).mono (show s.mb.size - s.mb.entry - 0 ≤ 0 by omega) fun _ => id

theorem WakeInv.expires (h : WakeInv s 0 0) (hwait : s.Waiting t) :
    WakeInv ({ s with senders := s.senders.erase t, receivers := s.receivers.erase t }.setThread t fun thread =>
      { thread with timer := false, error := .etimeout }) 0 0 := by
  set s' := { s with senders := s.senders.erase t, receivers := s.receivers.erase t }.setThread t fun thread =>
    { thread with timer := false, error := .etimeout } with hs'
  have hother : ∀ u ≠ t, SameCall s s' u := fun u hu => ⟨rfl, fun _ => congrArg Waiter.error (MbState.setThread_ne _ hu)⟩
  refine h.leave ⟨List.erase_sublist, List.erase_sublist, fun u hu => hother u ?_⟩ rfl (fun u hu => hother u ?_)
    fun u hu => hother u ?_
  · rintro rfl
    rcases hu with hu | hu
    · exact (h.threads.senders_nodup.mem_erase_iff.1 hu).1 rfl
    · exact (h.threads.receivers_nodup.mem_erase_iff.1 hu).1 rfl
  · rintro rfl
    rcases hwait with ht | ht
    · exact hu.1.not_sends (h.threads.senders u ht).1
    · exact hu.2.1 ht
  · rintro rfl
    rcases hwait with ht | ht
    · exact hu.2.1 ht
    · exact (h.threads.receivers u ht).1.not_sends hu.1

theorem MbState.setCall_ne (c : Option MbCall) (hne : u ≠ t) : SameCall s (s.setCall t c) u :=
  ⟨update_of_ne hne .., fun _ => rfl⟩

theorem WakeInv.returns (h : WakeInv s 0 0) (hwait : ¬ s.Waiting t) (herror : (s.thread t).error ≠ .eok) :
    WakeInv (s.setCall t none) 0 0 := by
  refine h.leave ⟨.refl _, .refl _, fun u hu => MbState.setCall_ne none ?_⟩ rfl
    (fun u hu => MbState.setCall_ne none ?_) fun u hu => MbState.setCall_ne none ?_
  · rintro rfl
    exact hwait hu
  · rintro rfl
    exact herror hu.2.2
  · rintro rfl
    exact herror hu.2.2

theorem WakeInv.receiverGoesOn (h : WakeInv s 0 0) (hwait : ¬ s.Waiting t) (hcall : s.Receives t) :
    WakeInv (s.setCall t none) 1 0 := by
  have hother : ∀ u ≠ t, SameCall s (s.setCall t none) u := fun u hu => MbState.setCall_ne none hu
  refine ⟨h.mb, h.threads.leave ⟨.refl _, .refl _, fun u hu => hother u ?_⟩, fun hne => ?_, fun hne => ?_⟩
  · rintro rfl
    exact hwait hu
  · exact (h.wakes.receivers hne).remove t fun u hu hw => (hother u hu).wokenReceiver ⟨hw.1, hw.2.2⟩ hw.2.1
  · refine (h.wakes.senders hne).mono (Nat.le_refl _) fun u hw => (hother u ?_).wokenSender ⟨hw.1, hw.2.2⟩ hw.2.1
    rintro rfl
    exact hcall.not_sends hw.1

theorem WakeInv.senderGoesOn (h : WakeInv s 0 0) (hwait : ¬ s.Waiting t) (hcall : s.Sends t) :
    WakeInv (s.setCall t none) 0 1 := by
  have hother : ∀ u ≠ t, SameCall s (s.setCall t none) u := fun u hu => MbState.setCall_ne none hu
  refine ⟨h.mb, h.threads.leave ⟨.refl _, .refl _, fun u hu => hother u ?_⟩, fun hne => ?_, fun hne => ?_⟩
  · rintro rfl
    exact hwait hu
  · refine (h.wakes.receivers hne).mono (Nat.le_refl _) fun u hw => (hother u ?_).wokenReceiver ⟨hw.1, hw.2.2⟩ hw.2.1
    rintro rfl
    exact hw.1.not_sends hcall
  · exact (h.wakes.senders hne).remove t fun u hu hw => (hother u hu).wokenSender ⟨hw.1, hw.2.2⟩ hw.2.1

/-! ## Every run -/

theorem wakeInv_mbSendLoop {r : Option IpcErr × MbState} (h : WakeInv s 0 ds) (hds : ds ≤ 1) (hfree : s.Free caller)
    (hs : mbSendLoop s caller value timeout = some r) : WakeInv r.2 0 0 := by
  unfold mbSendLoop at hs
  by_cases hfull : s.mb.entry = s.mb.size
  · rw [if_pos hfull] at hs
    cases caller with
    | none => cases hs
    | some t =>
      have hzero : WakeInv s 0 0 := ⟨h.mb, h.threads, h.wakes.receivers, fun hne =>
        (h.wakes.senders hne).mono (by omega) fun _ => id⟩
      have hreset := hzero.same (sameCall_setFree hfree fun thread => { thread with error := .eok }) rfl rfl rfl
      dsimp only at hs
      split_ifs at hs
      · cases hs
        exact hreset
      · obtain ⟨timer, -, rfl⟩ := Option.map_eq_some_iff.1 hs
        exact hreset.suspendSender hfree (by rw [MbState.setThread_same]) hfull
  · rw [if_neg hfull] at hs
    cases hs
    exact h.resumeReceiver hds (h.mb.put hfull).1 (h.mb.put_entry hfull) rfl

theorem wakeInv_mbRecvLoop {r : Option (IpcErr × Option Nat) × MbState} (h : WakeInv s dr 0) (hdr : dr ≤ 1)
    (hfree : s.Free caller) (hs : mbRecvLoop s caller timeout = some r) : WakeInv r.2 0 0 := by
  unfold mbRecvLoop at hs
  by_cases hempty : s.mb.entry = 0
  · rw [if_pos hempty] at hs
    cases caller with
    | none => cases hs
    | some t =>
      have hzero : WakeInv s 0 0 := ⟨h.mb, h.threads, fun hne => (h.wakes.receivers hne).mono (by omega) fun _ => id,
        h.wakes.senders⟩
      dsimp only at hs
      split_ifs at hs
      · cases hs
        exact hzero.same (sameCall_setFree hfree fun thread => { thread with error := .etimeout }) rfl rfl rfl
      · obtain ⟨timer, -, rfl⟩ := Option.map_eq_some_iff.1 hs
        have hreset := hzero.same (sameCall_setFree hfree fun thread => { thread with error := .eok }) rfl rfl rfl
        exact hreset.suspendReceiver hfree (by rw [MbState.setThread_same]) hempty
  · rw [if_neg hempty] at hs
    cases hs
    exact h.resumeSender hdr (h.mb.take hempty).1 hempty rfl rfl

theorem MbState.setCall_free : (s.setCall t none).Free (some t) := update_self ..

theorem wakeInv_step (h : WakeInv s 0 0) (hs : stepMb s op = some (s', events)) : WakeInv s' 0 0 := by
  cases op with
  | send caller value timeout =>
    simp only [stepMb] at hs
    split_ifs at hs with hfree
    obtain ⟨r, hsend, heq⟩ := Option.map_eq_some_iff.1 hs
    cases heq
    unfold rtMbSendWait at hsend
    split_ifs at hsend
    · cases hsend
      exact h
    · exact wakeInv_mbSendLoop h (Nat.zero_le _) hfree hsend
  | recv caller timeout =>
    simp only [stepMb] at hs
    split_ifs at hs with hfree
    obtain ⟨r, hrecv, heq⟩ := Option.map_eq_some_iff.1 hs
    cases heq
    unfold rtMbRecv at hrecv
    split_ifs at hrecv
    · cases hrecv
      exact h
    · exact wakeInv_mbRecvLoop h (Nat.zero_le _) hfree hrecv
  | resume t =>
    simp only [stepMb] at hs
    by_cases hwait : s.Waiting t
    · rw [if_pos hwait] at hs
      cases hs
    rw [if_neg hwait] at hs
    split at hs
    · cases hs
    · rename_i value timeout start hcall
      split_ifs at hs with herror
      · cases hs
        exact h.returns hwait herror
      · obtain ⟨r, hsend, heq⟩ := Option.map_eq_some_iff.1 hs
        cases heq
        exact wakeInv_mbSendLoop (h.senderGoesOn hwait ⟨value, timeout, start, hcall⟩) (Nat.le_refl _)
          MbState.setCall_free hsend
    · rename_i timeout start hcall
      split_ifs at hs with herror
      · cases hs
        exact h.returns hwait herror
      · obtain ⟨r, hrecv, heq⟩ := Option.map_eq_some_iff.1 hs
        cases heq
        exact wakeInv_mbRecvLoop (h.receiverGoesOn hwait ⟨timeout, start, hcall⟩) (Nat.le_refl _)
          MbState.setCall_free hrecv
  | timeout t =>
    simp only [stepMb] at hs
    split_ifs at hs with hwait
    cases hs
    exact h.expires hwait.1
  | tick =>
    cases hs
    exact h.same (fun _ => ⟨rfl, fun _ => rfl⟩) rfl rfl rfl
  | changePriority t p =>
    cases hs
    exact h.same (fun u => sameCall_setThread _ rfl u) rfl rfl rfl

theorem wakeInv_of_run (hrun : MbRun msgPool size flag priority trace s) : WakeInv s 0 0 := by
  refine hrun.state_invariant (I := fun s => WakeInv s 0 0) ?_ fun s op s' events h _ hs => wakeInv_step h hs
  have hmb := (deliveryInv_of_run (.start : MbRun msgPool size flag priority [] _)).inv
  refine ⟨hmb, ⟨List.nodup_nil, List.nodup_nil, fun t ht => ?_, fun t ht => ?_⟩, fun hne => absurd rfl hne,
    fun hne => absurd rfl hne⟩
  · cases ht
  · cases ht

theorem mbRecvLoop_of_mail (hentry : s.mb.entry ≠ 0) : mbRecvLoop s caller timeout =
    some (some (.eok, some (s.mb.msgPool s.mb.outOffset)), { s with mb := s.mb.take }.resumeSender) :=
  if_neg hentry

theorem mbSendLoop_of_room (hentry : s.mb.entry ≠ s.mb.size) : mbSendLoop s caller value timeout =
    some (some .eok, { s with mb := s.mb.put value }.resumeReceiver) :=
  if_neg hentry

theorem takes_of_wokenReceiver (h : MbThreads s) (ht : s.WokenReceiver t) (hentry : s.mb.entry ≠ 0) :
    ∃ s', stepMb s (.resume t) = some (s', [.recv (some t) .eok (some (s.mb.msgPool s.mb.outOffset))]) := by
  obtain ⟨⟨timeout, start, hcall⟩, hnot, herror⟩ := ht
  have hwait : ¬ s.Waiting t := by
    rintro (hmem | hmem)
    · exact MbState.Receives.not_sends ⟨timeout, start, hcall⟩ (h.senders t hmem).1
    · exact hnot hmem
  refine ⟨{ s.setCall t none with mb := s.mb.take }.resumeSender, ?_⟩
  have herror' : ¬ (((s.setCall t none).thread t).error ≠ .eok) := fun hne => hne herror
  simp only [stepMb, if_neg hwait, hcall, if_neg herror']
  rw [mbRecvLoop_of_mail (s := s.setCall t none) hentry]
  rfl

theorem stores_of_wokenSender (h : MbThreads s) (ht : s.WokenSender t) (hentry : s.mb.entry ≠ s.mb.size) :
    ∃ s' value, stepMb s (.resume t) = some (s', [.send (some t) value .eok]) := by
  obtain ⟨⟨value, timeout, start, hcall⟩, hnot, herror⟩ := ht
  have hwait : ¬ s.Waiting t := by
    rintro (hmem | hmem)
    · exact hnot hmem
    · exact (h.receivers t hmem).1.not_sends ⟨value, timeout, start, hcall⟩
  refine ⟨{ s.setCall t none with mb := s.mb.put value }.resumeReceiver, value, ?_⟩
  have herror' : ¬ (((s.setCall t none).thread t).error ≠ .eok) := fun hne => hne herror
  simp only [stepMb, if_neg hwait, hcall, if_neg herror']
  rw [mbSendLoop_of_room (s := s.setCall t none) hentry]
  rfl

structure MailboxWakeups (s : MbState) : Prop where
  receivers : s.receivers ≠ [] → AtLeast s.mb.entry s.WokenReceiver
  senders : s.senders ≠ [] → AtLeast (s.mb.size - s.mb.entry) s.WokenSender
  /-- While a receiver waits and there is a mail, some receiver can go on, and takes a mail when it does. -/
  takes : s.receivers ≠ [] → 0 < s.mb.entry → ∃ t s' value, s.WokenReceiver t ∧
    stepMb s (.resume t) = some (s', [.recv (some t) .eok (some value)])
  stores : s.senders ≠ [] → s.mb.entry < s.mb.size → ∃ t s' value, s.WokenSender t ∧
    stepMb s (.resume t) = some (s', [.send (some t) value .eok])
  /-- Once every thread that has been woken has run, the threads that wait have to wait. -/
  settled : (∀ t, s.call t ≠ none → s.Waiting t) →
    (s.receivers ≠ [] → s.mb.entry = 0) ∧ (s.senders ≠ [] → s.mb.entry = s.mb.size)

/-- In every run of a mailbox, a wake-up that is on its way is never lost. -/
theorem mailboxWakeups_of_run (hrun : MbRun msgPool size flag priority trace s) : MailboxWakeups s := by
  have h := wakeInv_of_run hrun
  have hle := h.mb.entry
  have takes : s.receivers ≠ [] → 0 < s.mb.entry → ∃ t s' value, s.WokenReceiver t ∧
      stepMb s (.resume t) = some (s', [.recv (some t) .eok (some value)]) := by
    intro hne hentry
    obtain ⟨t, ht⟩ := (h.wakes.receivers hne).exists_of_pos hentry
    obtain ⟨s', hs⟩ := takes_of_wokenReceiver h.threads ht hentry.ne'
    exact ⟨t, s', _, ht, hs⟩
  have stores : s.senders ≠ [] → s.mb.entry < s.mb.size → ∃ t s' value, s.WokenSender t ∧
      stepMb s (.resume t) = some (s', [.send (some t) value .eok]) := by
    intro hne hentry
    obtain ⟨t, ht⟩ := (h.wakes.senders hne).exists_of_pos (by omega)
    obtain ⟨s', value, hs⟩ := stores_of_wokenSender h.threads ht hentry.ne
    exact ⟨t, s', value, ht, hs⟩
  refine ⟨h.wakes.receivers, h.wakes.senders, takes, stores, fun hsettled => ⟨fun hne => ?_, fun hne => ?_⟩⟩
  · refine Nat.eq_zero_of_not_pos fun hentry => ?_
    obtain ⟨t, _, _, ⟨hcall, hnot, -⟩, -⟩ := takes hne hentry
    obtain ⟨timeout, start, heq⟩ := id hcall
    rcases hsettled t (by simp [heq]) with hmem | hmem
    · exact hcall.not_sends (h.threads.senders t hmem).1
    · exact hnot hmem
  · refine Nat.le_antisymm hle (Nat.le_of_not_lt fun hentry => ?_)
    obtain ⟨t, _, _, ⟨hcall, hnot, -⟩, -⟩ := stores hne hentry
    obtain ⟨value, timeout, start, heq⟩ := id hcall
    rcases hsettled t (by simp [heq]) with hmem | hmem
    · exact hnot hmem
    · exact (h.threads.receivers t hmem).1.not_sends hcall

/-- Two receivers wait; the first is woken by a mail, and before it runs a third thread takes the mail and another is sent, which wakes the second. -/
theorem mailboxWakeups_of_run_stolen : ∃ trace s, MbRun (fun _ => 0) 2 .fifo (fun _ => 0) trace s ∧
    s.receivers = [3] ∧ s.mb.entry = 1 ∧ MailboxWakeups s := by
  obtain ⟨trace, s, hrun, hfound⟩ := exists_mbRun 2 .fifo (fun _ => 0)
    [.recv (some 0) (-1), .recv (some 1) 5, .recv (some 3) (-1), .send none 10 0, .recv (some 2) 0, .send none 20 0]
    (fun _ s => decide (s.receivers = [3] ∧ s.mb.entry = 1)) (by decide +kernel)
  obtain ⟨hreceivers, hentry⟩ := of_decide_eq_true hfound
  exact ⟨trace, s, hrun, hreceivers, hentry, mailboxWakeups_of_run hrun⟩

end RtThread
