import RtThread.Ipc.Messages

/-!
# Every run of a message queue

The slots and the ledger of messages go together: a slot in the queue, or one that a receiver has unlinked, carries the bytes of its message. A call works on its own slot only, so that what the other calls rely on stays.
-/

namespace RtThread

open Function

variable {mq mq' : MessageQueue} {s s' : MqState} {op : MqOp} {trace events : List MqEvent} {c c' : Caller} {t : ThreadId}
  {call : Caller → Option MqCall} {call' : Option MqCall} {taken taken' : List (Caller × Message)}
  {free queue : List Nat} {held : List (Caller × Nat)} {d : MessageLedger} {msg k n : Nat} {urgent : Bool}
  {buffer data : List UInt8} {size : Nat} {timeout : Int}

def MqCall.slot : MqCall → Option Nat
  | .taken _ msg _ => some msg
  | .filled _ msg _ => some msg
  | .wait _ _ _ => none
  | .unlinked _ msg => some msg
  | .copied _ msg _ => some msg

structure MessageQueue.Stores (mq : MessageQueue) (msg : Nat) (data : List UInt8) : Prop where
  length : data.length ≤ mq.msgSize
  bytes : data = (List.range data.length).map (mq.bytes msg)

def CallOk (mq : MessageQueue) (taken : List (Caller × Message)) (c : Caller) : Option MqCall → Prop
  | some (.taken _ _ buffer) => buffer.length ≤ mq.msgSize ∧ ∀ m, (c, m) ∉ taken
  | some (.filled urgent msg buffer) =>
    mq.Stores msg buffer ∧ (urgent = false → mq.next msg = none) ∧ ∀ m, (c, m) ∉ taken
  | some (.unlinked _ msg) => ∃ m, (∀ m', (c, m') ∈ taken ↔ m' = m) ∧ mq.Stores msg m.data
  | some (.copied size _ buffer) => ∃ m, (∀ m', (c, m') ∈ taken ↔ m' = m) ∧ Carried mq.msgSize m.data size buffer
  | _ => ∀ m, (c, m) ∉ taken

/-- The messages of the ledger are in the slots; `k` and `n` are the sizes. -/
structure MqInv (k n : Nat) (trace : List MqEvent) (s : MqState) (free queue : List Nat) (held : List (Caller × Nat))
    (d : MessageLedger) : Prop where
  slots : Slots s.mq free queue (held.map Prod.snd)
  msgSize : s.mq.msgSize = k
  maxMsgs : s.mq.maxMsgs = n
  small : n < 65536
  entry : s.mq.entry = queue.length
  held : ∀ c msg, (c, msg) ∈ held ↔ (s.call c).bind MqCall.slot = some msg
  calls : ∀ c, CallOk s.mq d.taken c (s.call c)
  taken : d.taken.Nodup
  queued : List.Forall₂ (fun msg m => s.mq.Stores msg m.data) queue d.queue
  delivers : Delivers k trace d

/-! ## Bytes -/

theorem MessageQueue.Stores.congr (h : mq.Stores msg data) (hsize : mq'.msgSize = mq.msgSize)
    (hbytes : mq'.bytes msg = mq.bytes msg) : mq'.Stores msg data :=
  ⟨hsize ▸ h.length, hbytes ▸ h.bytes⟩

theorem queued_congr {messages : List Message} (h : List.Forall₂ (fun msg m => mq.Stores msg m.data) queue messages)
    (hsize : mq'.msgSize = mq.msgSize) (hbytes : mq'.bytes = mq.bytes) :
    List.Forall₂ (fun msg m => mq'.Stores msg m.data) queue messages :=
  h.imp fun msg _ hstores => hstores.congr hsize (congrFun hbytes msg)

theorem stores_copyIn (hlength : buffer.length ≤ mq.msgSize) : (mq.copyIn urgent msg buffer).Stores msg buffer := by
  refine ⟨hlength, List.ext_getElem (by simp) fun i hi hi' => ?_⟩
  simp [MessageQueue.copyIn, List.getElem?_eq_getElem hi]

theorem carried_copyOut (h : mq.Stores msg data) : Carried mq.msgSize data size (mq.copyOut msg size) := by
  have hcount : (if mq.msgSize < size then mq.msgSize else size) = min size mq.msgSize := by
    split_ifs <;> omega
  rw [MessageQueue.copyOut, hcount]
  refine ⟨by simp, ?_⟩
  have hlength := h.length
  have hmin : min data.length (min size mq.msgSize) = min size data.length := by omega
  rw [← List.map_take, List.take_range, hmin, ← List.take_range, List.map_take, ← h.bytes]

/-! ## Calls -/

theorem CallOk.congr (h : CallOk mq taken c call') (hsize : mq'.msgSize = mq.msgSize)
    (hslot : ∀ msg, call'.bind MqCall.slot = some msg → mq'.next msg = mq.next msg ∧ mq'.bytes msg = mq.bytes msg)
    (htaken : ∀ m, (c, m) ∈ taken' ↔ (c, m) ∈ taken) : CallOk mq' taken' c call' := by
  rcases call' with _ | (⟨urgent, msg, buffer⟩ | ⟨urgent, msg, buffer⟩ | _ | ⟨size, msg⟩ | ⟨size, msg, buffer⟩)
  · exact fun m hm => h m ((htaken m).1 hm)
  · exact ⟨hsize ▸ h.1, fun m hm => h.2 m ((htaken m).1 hm)⟩
  · obtain ⟨hnext, hbytes⟩ := hslot msg rfl
    exact ⟨h.1.congr hsize hbytes, fun hu => hnext.trans (h.2.1 hu), fun m hm => h.2.2 m ((htaken m).1 hm)⟩
  · exact fun m hm => h m ((htaken m).1 hm)
  · obtain ⟨m, hm, hstores⟩ := h
    exact ⟨m, fun m' => (htaken m').trans (hm m'), hstores.congr hsize (hslot msg rfl).2⟩
  · obtain ⟨m, hm, hcarried⟩ := h
    exact ⟨m, fun m' => (htaken m').trans (hm m'), hsize ▸ hcarried⟩

theorem calls_act (hcalls : ∀ c, CallOk mq taken c (call c)) (hself : CallOk mq' taken' c call')
    (hsize : mq'.msgSize = mq.msgSize) (htaken : ∀ c' ≠ c, ∀ m, (c', m) ∈ taken' ↔ (c', m) ∈ taken)
    (hslots : ∀ c' ≠ c, ∀ msg, (call c').bind MqCall.slot = some msg →
      mq'.next msg = mq.next msg ∧ mq'.bytes msg = mq.bytes msg) (u : Caller) :
    CallOk mq' taken' u (update call c call' u) := by
  by_cases hu : u = c
  · subst hu
    rw [update_self]
    exact hself
  · rw [update_of_ne hu]
    exact (hcalls u).congr hsize (hslots u hu) (htaken u hu)

theorem held_keep (hheld : ∀ c msg, (c, msg) ∈ held ↔ (call c).bind MqCall.slot = some msg)
    (hsame : call'.bind MqCall.slot = (call c).bind MqCall.slot) (u : Caller) (msg : Nat) :
    (u, msg) ∈ held ↔ (update call c call' u).bind MqCall.slot = some msg := by
  by_cases hu : u = c
  · subst hu
    rw [update_self, hsame]
    exact hheld u msg
  · rw [update_of_ne hu]
    exact hheld u msg

theorem held_add (hheld : ∀ c msg, (c, msg) ∈ held ↔ (call c).bind MqCall.slot = some msg)
    (hnone : (call c).bind MqCall.slot = none) (hslot : call'.bind MqCall.slot = some msg) (u : Caller) (other : Nat) :
    (u, other) ∈ (c, msg) :: held ↔ (update call c call' u).bind MqCall.slot = some other := by
  rw [List.mem_cons, hheld u other]
  by_cases hu : u = c
  · subst hu
    rw [update_self, hslot, hnone]
    simp [eq_comm]
  · rw [update_of_ne hu]
    simp [hu]

theorem held_erase (hheld : ∀ c msg, (c, msg) ∈ held ↔ (call c).bind MqCall.slot = some msg) (hnodup : held.Nodup)
    (hslot : (call c).bind MqCall.slot = some msg) (hnone : call'.bind MqCall.slot = none) (u : Caller) (other : Nat) :
    (u, other) ∈ held.erase (c, msg) ↔ (update call c call' u).bind MqCall.slot = some other := by
  rw [hnodup.mem_erase_iff, hheld u other]
  by_cases hu : u = c
  · subst hu
    rw [update_self, hslot, hnone]
    simp [eq_comm]
  · rw [update_of_ne hu]
    simp [hu]

theorem MqInv.held_nodup (h : MqInv k n trace s free queue held d) : held.Nodup :=
  (List.nodup_append.1 h.slots.nodup).2.1.of_map _

theorem MqInv.slot_ne (h : MqInv k n trace s free queue held d) (hslot : (s.call c).bind MqCall.slot = some msg)
    (hne : c' ≠ c) {other : Nat} (hother : (s.call c').bind MqCall.slot = some other) : other ≠ msg := by
  rintro rfl
  have hinj := List.inj_on_of_nodup_map (List.nodup_append.1 h.slots.nodup).2.1
  exact hne (Prod.mk.inj (hinj ((h.held c' other).2 hother) ((h.held c other).2 hslot) rfl)).1

theorem MqInv.held_perm (h : MqInv k n trace s free queue held d) (hslot : (s.call c).bind MqCall.slot = some msg) :
    (held.map Prod.snd).Perm (msg :: (held.erase (c, msg)).map Prod.snd) :=
  (List.perm_cons_erase ((h.held c msg).2 hslot)).map Prod.snd

theorem MqInv.mem_held (h : MqInv k n trace s free queue held d) (hslot : (s.call c).bind MqCall.slot = some msg) :
    msg ∈ held.map Prod.snd :=
  List.mem_map_of_mem ((h.held c msg).2 hslot)

/-! ## The steps -/

theorem MqInv.congr (h : MqInv k n trace s free queue held d) (hmq : s'.mq = s.mq) (hcall : s'.call = s.call) :
    MqInv k n trace s' free queue held d := by
  obtain ⟨hslots, hsize, hmax, hsmall, hentry, hheld, hcalls, htaken, hqueued, hdelivers⟩ := h
  rw [← hmq] at hslots hsize hmax hentry hcalls hqueued
  rw [← hcall] at hheld hcalls
  exact ⟨hslots, hsize, hmax, hsmall, hentry, hheld, hcalls, htaken, hqueued, hdelivers⟩

theorem MqInv.fail {result : IpcErr} (h : MqInv k n trace s free queue held d) :
    MqInv k n (trace ++ [.failed c result]) s free queue held d :=
  { h with delivers := h.delivers.fail }

theorem MqInv.idle (h : MqInv k n trace s free queue held d) (hslot : (s.call c).bind MqCall.slot = none)
    (hslot' : call'.bind MqCall.slot = none) : MqInv k n trace (s.setCall c call') free queue held d := by
  have hself : CallOk s.mq d.taken c call' := by
    have hold : ∀ m, (c, m) ∉ d.taken := by
      have := h.calls c
      revert this hslot
      rcases s.call c with _ | (_ | _ | _ | _ | _) <;> simp [MqCall.slot, CallOk]
    rcases call' with _ | (_ | _ | _ | _ | _)
    · exact hold
    · cases hslot'
    · cases hslot'
    · exact hold
    · cases hslot'
    · cases hslot'
  exact { h with
    held := held_keep h.held (hslot'.trans hslot.symm)
    calls := calls_act h.calls hself rfl (fun _ _ _ => .rfl) fun _ _ _ _ => ⟨rfl, rfl⟩ }

theorem MqInv.take (urgent : Bool) (h : MqInv k n trace s free queue held d) (hcall : s.call c = none) (hfree : s.mq.free = some msg)
    (hlength : buffer.length ≤ s.mq.msgSize) : ∃ free',
      MqInv k n trace ({ s with mq := { s.mq with free := s.mq.next msg } }.setCall c (some (.taken urgent msg buffer)))
        free' queue ((c, msg) :: held) d := by
  obtain ⟨rest, rfl, -⟩ := LinkedFrom.exists_of_some (hfree ▸ h.slots.linkedFree)
  have hnone : ∀ m, (c, m) ∉ d.taken := by
    have := h.calls c
    rwa [hcall] at this
  refine ⟨rest, { h with slots := h.slots.take, held := ?_, calls := ?_, queued := ?_ }⟩
  · exact held_add h.held (by rw [hcall]; rfl) rfl
  · exact calls_act h.calls ⟨hlength, hnone⟩ rfl (fun _ _ _ => .rfl) fun _ _ _ _ => ⟨rfl, rfl⟩
  · exact queued_congr h.queued rfl rfl

theorem MqInv.fill (h : MqInv k n trace s free queue held d) (hcall : s.call c = some (.taken urgent msg buffer)) :
    MqInv k n trace ({ s with mq := s.mq.copyIn urgent msg buffer }.setCall c (some (.filled urgent msg buffer)))
      free queue held d := by
  have hslot : (s.call c).bind MqCall.slot = some msg := by rw [hcall]; rfl
  have hold := h.calls c
  rw [hcall] at hold
  refine { h with slots := h.slots.copyIn (h.mem_held hslot), held := ?_, calls := ?_, queued := ?_ }
  · exact held_keep h.held (by rw [hslot]; rfl)
  · refine calls_act h.calls ⟨stores_copyIn hold.1, fun hu => ?_, hold.2⟩ rfl (fun _ _ _ => .rfl) ?_
    · subst hu
      exact update_self ..
    · intro c' hc' other hother
      have hne := h.slot_ne hslot hc' hother
      refine ⟨?_, update_of_ne hne ..⟩
      cases urgent with
      | false => exact update_of_ne hne ..
      | true => rfl
  · refine (List.forall₂_iff_zip.2 ⟨h.queued.length_eq, fun {other m} hmem => ?_⟩)
    have hne : other ≠ msg := fun heq =>
      (h.slots.not_mem_of_held (h.mem_held hslot)).2 (heq ▸ (List.of_mem_zip hmem).1)
    exact ((List.forall₂_iff_zip.1 h.queued).2 hmem).congr rfl (update_of_ne hne ..)

theorem MqInv.link (h : MqInv k n trace s free queue held d) (hcall : s.call c = some (.filled urgent msg buffer)) :
    ∃ queue' d', MqInv k n (trace ++ [.sent c urgent buffer])
      ({ s with mq := if urgent then s.mq.linkHead msg else s.mq.linkTail msg }.setCall c none)
        free queue' (held.erase (c, msg)) d' := by
  have hslot : (s.call c).bind MqCall.slot = some msg := by rw [hcall]; rfl
  have hslots := h.slots.perm (h.held_perm hslot)
  have hold := h.calls c
  rw [hcall] at hold
  obtain ⟨hstores, hend, hnone⟩ := hold
  have hlength : queue.length < n := by
    have := hslots.partition.length_eq
    simp only [List.length_append, List.length_cons, List.length_range, h.maxMsgs] at this
    omega
  have hsmall := h.small
  have hentry : (s.mq.entry + 1) % 65536 = queue.length + 1 := by
    rw [h.entry]
    omega
  have hheld := fun u other => held_erase (u := u) h.held h.held_nodup hslot (show Option.bind none MqCall.slot = none from rfl) other
  cases urgent with
  | false =>
    have hkept : ∀ c' ≠ c, ∀ other, (s.call c').bind MqCall.slot = some other →
        (s.mq.linkTail msg).next other = s.mq.next other ∧ (s.mq.linkTail msg).bytes other = s.mq.bytes other := by
      intro c' hc' other hother
      refine ⟨?_, rfl⟩
      cases htail : s.mq.tail with
      | none => simp only [MessageQueue.linkTail, htail]
      | some last =>
        have hne : other ≠ last :=
          h.slots.ne_of_queued (List.mem_of_getLast? (h.slots.tail.symm.trans htail)) (h.mem_held hother)
        simp only [MessageQueue.linkTail, htail]
        exact update_of_ne hne ..
    refine ⟨queue ++ [msg], { d with count := d.count + 1, queue := d.queue ++ [⟨d.count, buffer⟩] }, hslots.linkTail (hend rfl), h.msgSize, h.maxMsgs, hsmall, ?_, hheld,
      calls_act h.calls hnone rfl (fun _ _ _ => .rfl) hkept, h.taken, ?_, h.delivers.send⟩
    · rw [List.length_append]
      exact hentry
    · exact queued_congr (List.rel_append h.queued (.cons hstores .nil)) rfl rfl
  | true =>
    have hkept : ∀ c' ≠ c, ∀ other, (s.call c').bind MqCall.slot = some other →
        (s.mq.linkHead msg).next other = s.mq.next other ∧ (s.mq.linkHead msg).bytes other = s.mq.bytes other :=
      fun c' hc' other hother => ⟨update_of_ne (h.slot_ne hslot hc' hother) .., rfl⟩
    exact ⟨msg :: queue, { d with count := d.count + 1, queue := ⟨d.count, buffer⟩ :: d.queue }, hslots.linkHead,
      h.msgSize, h.maxMsgs, hsmall, hentry, hheld, calls_act h.calls hnone rfl (fun _ _ _ => .rfl) hkept, h.taken,
      queued_congr (.cons hstores h.queued) rfl rfl, h.delivers.urgent⟩

theorem MqInv.unlink (size : Nat) (h : MqInv k n trace s free queue held d) (hnone : ∀ m, (c, m) ∉ d.taken)
    (hslot : (s.call c).bind MqCall.slot = none) (hhead : s.mq.head = some msg) : ∃ queue' d',
      MqInv k n (trace ++ [.unlinked c])
        ({ s with mq := { s.mq.dropHead msg with entry := s.mq.entry - 1 } }.setCall c (some (.unlinked size msg)))
          free queue' ((c, msg) :: held) d' := by
  obtain ⟨rest, rfl, -⟩ := LinkedFrom.exists_of_some (hhead ▸ h.slots.linkedQueue)
  obtain ⟨m, ms, hstores, hqueued, hd⟩ := List.forall₂_cons_left_iff.1 h.queued
  refine ⟨rest, { d with queue := ms, taken := (c, m) :: d.taken }, h.slots.dropHead.congr rfl rfl rfl rfl rfl,
    h.msgSize, h.maxMsgs, h.small, ?_, held_add h.held hslot rfl, ?_, List.nodup_cons.2 ⟨hnone m, h.taken⟩,
    queued_congr hqueued rfl rfl, h.delivers.take hd⟩
  · exact congrArg (· - 1) h.entry
  · refine calls_act h.calls ⟨m, fun m' => ?_, hstores.congr rfl rfl⟩ rfl (fun c' hc' m' => ?_) fun _ _ _ _ => ⟨rfl, rfl⟩
    · rw [List.mem_cons]
      simp [hnone m']
    · rw [List.mem_cons]
      simp [hc']

theorem MqInv.copy (h : MqInv k n trace s free queue held d) (hcall : s.call c = some (.unlinked size msg)) :
    MqInv k n trace (s.setCall c (some (.copied size msg (s.mq.copyOut msg size)))) free queue held d := by
  have hslot : (s.call c).bind MqCall.slot = some msg := by rw [hcall]; rfl
  have hold := h.calls c
  rw [hcall] at hold
  obtain ⟨m, hm, hstores⟩ := hold
  exact { h with
    held := held_keep h.held (by rw [hslot]; rfl)
    calls := calls_act h.calls ⟨m, hm, carried_copyOut hstores⟩ rfl (fun _ _ _ => .rfl) fun _ _ _ _ => ⟨rfl, rfl⟩ }

theorem MqInv.return (h : MqInv k n trace s free queue held d) (hcall : s.call c = some (.copied size msg buffer)) :
    ∃ d', MqInv k n (trace ++ [.received c size buffer]) ({ s with mq := s.mq.release msg }.setCall c none) (msg :: free) queue
      (held.erase (c, msg)) d' := by
  have hslot : (s.call c).bind MqCall.slot = some msg := by rw [hcall]; rfl
  have hslots := h.slots.perm (h.held_perm hslot)
  have hold := h.calls c
  rw [hcall] at hold
  obtain ⟨m, hm, hcarried⟩ := hold
  rw [h.msgSize] at hcarried
  refine ⟨{ d with taken := d.taken.erase (c, m), received := d.received ++ [m] }, hslots.release, h.msgSize, h.maxMsgs,
    h.small, h.entry, held_erase h.held h.held_nodup hslot rfl, ?_, h.taken.erase _, queued_congr h.queued rfl rfl,
    h.delivers.receive ((hm m).2 rfl) hcarried⟩
  refine calls_act h.calls (fun m' hmem => ?_) rfl (fun c' hc' m' => ?_) fun c' hc' other hother =>
    ⟨update_of_ne (h.slot_ne hslot hc' hother) .., rfl⟩
  · obtain ⟨hne, hmem⟩ := h.taken.mem_erase_iff.1 hmem
    exact hne (by rw [(hm m').1 hmem])
  · rw [h.taken.mem_erase_iff]
    simp [hc']

theorem MqInv.reset (h : MqInv k n trace s free queue held d) (hs : rtMqReset s = some s') : ∃ free' d',
    MqInv k n (trace ++ [.reset]) s' free' [] held d' := by
  obtain ⟨mq', free', hloop, hslots, hreleased⟩ := h.slots.releaseAll h.slots.queue_length
  rw [rtMqReset, hloop] at hs
  cases hs
  have hcall : s.resumeAll.call = s.call := by
    have hfold : ∀ (l : List ThreadId) (s : MqState), (l.foldl (fun s t => s.setThread t fun thread =>
        { thread with timer := false, error := .error }) s).call = s.call := by
      intro l
      induction l with
      | nil => exact fun _ => rfl
      | cons t l ih => exact fun s => ih _
    exact hfold _ _
  refine ⟨free', { d with queue := [], discarded := d.discarded ++ d.queue }, hslots.congr rfl rfl rfl rfl rfl, hreleased.msgSize.trans h.msgSize, hreleased.maxMsgs.trans h.maxMsgs,
    h.small, rfl, ?_, fun c => ?_, h.taken, .nil, h.delivers.reset⟩
  · rw [show ({ s.resumeAll with mq := { mq' with entry := 0 } } : MqState).call = s.call from hcall]
    exact h.held
  · rw [show ({ s.resumeAll with mq := { mq' with entry := 0 } } : MqState).call = s.call from hcall]
    refine (h.calls c).congr hreleased.msgSize (fun msg hslot => ⟨hreleased.next msg (h.mem_held hslot), ?_⟩) fun _ => .rfl
    exact congrFun hreleased.bytes msg

def MqState.Ok (k n : Nat) (trace : List MqEvent) (s : MqState) : Prop :=
  ∃ free queue held d, MqInv k n trace s free queue held d

theorem MqState.Ok.congr (h : s.Ok k n trace) (hmq : s'.mq = s.mq) (hcall : s'.call = s.call) : s'.Ok k n trace := by
  obtain ⟨free, queue, held, d, h⟩ := h
  exact ⟨free, queue, held, d, h.congr hmq hcall⟩

theorem MqState.Ok.fail {result : IpcErr} (h : s.Ok k n trace) : s.Ok k n (trace ++ [.failed c result]) := by
  obtain ⟨free, queue, held, d, h⟩ := h
  exact ⟨free, queue, held, d, h.fail⟩

theorem MqState.resume_mq : s.resume.mq = s.mq := by
  unfold MqState.resume
  split <;> rfl

theorem MqState.resume_call : s.resume.call = s.call := by
  unfold MqState.resume
  split <;> rfl

theorem mqEvents_none : (mqEvents c events (none, s)).2 = events := rfl

theorem recvShows_unlinked (h : s.call c = some (.unlinked size msg)) : recvShows c s = [.unlinked c] := by
  simp only [recvShows, h]

theorem recvShows_wait {start : BitVec 32} (h : s.call c = some (.wait size timeout start)) : recvShows c s = [] := by
  simp only [recvShows, h]

theorem MqState.Ok.send {r : Option IpcErr × MqState} (h : s.Ok k n trace) (hcall : s.call c = none)
    (hs : mqSend urgent s c buffer = some r) : (mqEvents c [] r).1.Ok k n (trace ++ (mqEvents c [] r).2) := by
  unfold mqSend at hs
  split_ifs at hs with hempty hlong
  · cases hs
    exact h.fail
  · split at hs
    · cases hs
      exact h.fail
    · rename_i msg hfree
      cases hs
      obtain ⟨free, queue, held, d, h⟩ := h
      obtain ⟨free', h'⟩ := h.take urgent hcall hfree (Nat.le_of_not_lt hlong)
      refine ⟨free', queue, (c, msg) :: held, d, ?_⟩
      rw [mqEvents_none, List.append_nil]
      exact h'

theorem MqState.Ok.recvLoop {r : Option IpcErr × MqState} (h : s.Ok k n trace) (hcall : s.call c = none)
    (hs : mqRecvLoop s c size timeout = some r) : r.2.Ok k n (trace ++ (mqEvents c (recvShows c r.2) r).2) := by
  unfold mqRecvLoop at hs
  by_cases hempty : s.mq.entry = 0
  · rw [if_pos hempty] at hs
    cases c with
    | interrupt i => cases hs
    | thread t =>
      dsimp only at hs
      split_ifs at hs
      · cases hs
        exact MqState.Ok.fail (h.congr rfl rfl)
      · obtain ⟨timer, -, rfl⟩ := Option.map_eq_some_iff.1 hs
        obtain ⟨free, queue, held, d, h⟩ := h
        refine ⟨free, queue, held, d, ?_⟩
        rw [mqEvents_none, recvShows_wait (update_self ..), List.append_nil]
        have hslot' : (some (MqCall.wait size timeout s.tick)).bind MqCall.slot = none := rfl
        exact (h.idle (by rw [hcall]; rfl) hslot').congr rfl rfl
  · rw [if_neg hempty] at hs
    split at hs
    · cases hs
    · rename_i msg hhead
      cases hs
      obtain ⟨free, queue, held, d, h⟩ := h
      have hnone := h.calls c
      rw [hcall] at hnone
      obtain ⟨queue', d', h'⟩ := h.unlink size hnone (by rw [hcall]; rfl) hhead
      refine ⟨free, queue', (c, msg) :: held, d', ?_⟩
      rw [mqEvents_none, recvShows_unlinked (update_self ..)]
      exact h'

theorem MqState.Ok.step (h : s.Ok k n trace) (hs : stepMq s op = some (s', events)) : s'.Ok k n (trace ++ events) := by
  cases op with
  | send c buffer =>
    simp only [stepMq] at hs
    split_ifs at hs with hcall
    obtain ⟨r, hsend, heq⟩ := Option.map_eq_some_iff.1 hs
    cases heq
    exact h.send hcall hsend
  | urgent c buffer =>
    simp only [stepMq] at hs
    split_ifs at hs with hcall
    obtain ⟨r, hsend, heq⟩ := Option.map_eq_some_iff.1 hs
    cases heq
    exact h.send hcall hsend
  | recv c size timeout =>
    simp only [stepMq] at hs
    split_ifs at hs with hcall
    obtain ⟨r, hrecv, heq⟩ := Option.map_eq_some_iff.1 hs
    cases heq
    unfold rtMqRecv at hrecv
    split_ifs at hrecv
    · cases hrecv
      exact h.fail
    · exact h.recvLoop hcall hrecv
  | resume c =>
    simp only [stepMq] at hs
    by_cases hwait : s.Waiting c
    · rw [if_pos hwait] at hs
      cases hs
    rw [if_neg hwait] at hs
    obtain ⟨free, queue, held, d, hinv⟩ := id h
    split at hs
    · cases hs
    · rename_i urgent msg buffer hcall
      cases hs
      rw [List.append_nil]
      exact ⟨free, queue, held, d, hinv.fill hcall⟩
    · rename_i urgent msg buffer hcall
      cases hs
      obtain ⟨queue', d', hlink⟩ := hinv.link hcall
      exact MqState.Ok.congr ⟨free, queue', held.erase (c, msg), d', hlink⟩ MqState.resume_mq MqState.resume_call
    · rename_i size timeout start hcall
      have hidle : (s.setCall c none).Ok k n trace :=
        ⟨free, queue, held, d, hinv.idle (by rw [hcall]; rfl) rfl⟩
      split_ifs at hs
      · cases hs
        exact hidle.fail
      · obtain ⟨r, hrecv, heq⟩ := Option.map_eq_some_iff.1 hs
        cases heq
        exact hidle.recvLoop (update_self ..) hrecv
    · rename_i size msg hcall
      cases hs
      rw [List.append_nil]
      exact ⟨free, queue, held, d, hinv.copy hcall⟩
    · rename_i size msg buffer hcall
      cases hs
      obtain ⟨d', hreturn⟩ := hinv.return hcall
      exact ⟨msg :: free, queue, held.erase (c, msg), d', hreturn⟩
  | timeout t =>
    simp only [stepMq] at hs
    split_ifs at hs
    cases hs
    rw [List.append_nil]
    exact h.congr rfl rfl
  | reset =>
    obtain ⟨s₁, hreset, heq⟩ := Option.map_eq_some_iff.1 hs
    cases heq
    obtain ⟨free, queue, held, d, hinv⟩ := h
    obtain ⟨free', d', hinv'⟩ := hinv.reset hreset
    exact ⟨free', [], held, d', hinv'⟩
  | tick =>
    cases hs
    rw [List.append_nil]
    exact h.congr rfl rfl
  | changePriority t p =>
    cases hs
    rw [List.append_nil]
    exact h.congr rfl rfl

/-! ## Every run -/

variable {bytes : Nat → Nat → UInt8} {msgSize maxMsgs : Nat} {flag : IpcFlag} {priority : ThreadId → Nat}

theorem mqCreate_sizes (bytes : Nat → Nat → UInt8) (msgSize maxMsgs : Nat) :
    (mqCreate bytes msgSize maxMsgs).msgSize = (msgSize + 3) / 4 * 4 % 65536 ∧
      (mqCreate bytes msgSize maxMsgs).maxMsgs = maxMsgs % 65536 ∧ (mqCreate bytes msgSize maxMsgs).entry = 0 := by
  have hloop : ∀ (l : List Nat) (mq : MessageQueue), (l.foldl MessageQueue.release mq).msgSize = mq.msgSize ∧
      (l.foldl MessageQueue.release mq).maxMsgs = mq.maxMsgs ∧ (l.foldl MessageQueue.release mq).entry = mq.entry := by
    intro l
    induction l with
    | nil => exact fun mq => ⟨rfl, rfl, rfl⟩
    | cons msg l ih => exact fun mq => ih (mq.release msg)
  exact hloop _ _

theorem ok_of_run (hrun : MqRun bytes msgSize maxMsgs flag priority trace s) :
    s.Ok ((msgSize + 3) / 4 * 4 % 65536) (maxMsgs % 65536) trace := by
  refine hrun.invariant (I := fun trace s => s.Ok ((msgSize + 3) / 4 * 4 % 65536) (maxMsgs % 65536) trace) ?_
    fun trace s op s' events h _ hs => h.step hs
  obtain ⟨hsize, hmax, hentry⟩ := mqCreate_sizes bytes msgSize maxMsgs
  refine ⟨_, [], [], ⟨0, [], [], [], []⟩, slots_mqCreate bytes msgSize maxMsgs, hsize, hmax, Nat.mod_lt _ (by decide), hentry,
    fun c msg => ?_, fun c m hm => ?_, List.nodup_nil, .nil, .start⟩
  · simp [MqState.init]
  · cases hm

/-- The message queue of a state after a trace: the slots in the free list, in the queue and held, and the ledger. -/
structure MessageQueueOk (msgSize maxMsgs : Nat) (trace : List MqEvent) (s : MqState) (free queue : List Nat)
    (held : List (Caller × Nat)) (d : MessageLedger) : Prop where
  partition : (free ++ queue ++ held.map Prod.snd).Perm (List.range maxMsgs)
  linkedFree : LinkedFrom s.mq.next s.mq.free free
  linkedQueue : LinkedFrom s.mq.next s.mq.head queue
  /-- `msg_queue_tail` is the last of the queue, and null if there is none. -/
  tail : s.mq.tail = queue.getLast?
  entry : s.mq.entry = queue.length
  held : ∀ c msg, (c, msg) ∈ held ↔ (s.call c).bind MqCall.slot = some msg
  /-- The queue carries the messages that the ledger has queued, with their bytes. -/
  queued : List.Forall₂ (fun msg m => s.mq.Stores msg m.data) queue d.queue
  delivers : Delivers msgSize trace d
  /-- Every message that has been linked is queued, being copied by one receiver, received or discarded, once. -/
  once : (d.messages.map Message.no).Perm (List.range d.count)
  reset : ∃ s', stepMq s .reset = some (s', [.reset])

/-- In every run of a message queue, for any interleaving of the steps of the calls. -/
theorem messageQueue_of_run (hrun : MqRun bytes msgSize maxMsgs flag priority trace s) : ∃ free queue held d,
    MessageQueueOk ((msgSize + 3) / 4 * 4 % 65536) (maxMsgs % 65536) trace s free queue held d := by
  obtain ⟨free, queue, held, d, h⟩ := ok_of_run hrun
  obtain ⟨mq', free', hloop, -, -⟩ := h.slots.releaseAll h.slots.queue_length
  refine ⟨free, queue, held, d, h.maxMsgs ▸ h.slots.partition, h.slots.linkedFree, h.slots.linkedQueue, h.slots.tail,
    h.entry, h.held, h.queued, h.delivers, h.delivers.once, { s.resumeAll with mq := { mq' with entry := 0 } }, ?_⟩
  simp only [stepMq, rtMqReset, hloop, Option.map_some]

/-- Two sends overlap, the second links first; an urgent message overtakes both; while a receiver copies it the queue is reset, and a message sent then is received by the thread that waits. -/
theorem messageQueue_of_run_reset : ∃ trace s, MqRun (fun _ _ => 0) 4 3 .fifo (fun _ => 0) trace s ∧
    trace = [.sent (.interrupt 0) false [2], .sent (.thread 1) false [1], .sent (.thread 1) true [3, 4],
      .unlinked (.thread 2), .reset, .received (.thread 2) 1 [3], .sent (.thread 0) false [5],
      .unlinked (.thread 2), .received (.thread 2) 4 [5, 4, 0, 0]] ∧
    ∃ free queue held d, MessageQueueOk 4 3 trace s free queue held d := by
  obtain ⟨trace, s, hrun, hfound⟩ := @Transition.exists_run_of_exec _ _ _ stepMq (fun _ _ => True)
    (.init (fun _ _ => 0) 4 3 .fifo fun _ => 0) _
    [.send (.thread 1) [1], .send (.interrupt 0) [2], .resume (.interrupt 0), .resume (.thread 1), .resume (.interrupt 0),
      .resume (.thread 1), .urgent (.thread 1) [3, 4], .resume (.thread 1), .resume (.thread 1), .recv (.thread 2) 1 0,
      .reset, .resume (.thread 2), .resume (.thread 2), .recv (.thread 2) 4 (-1), .send (.thread 0) [5],
      .resume (.thread 0), .resume (.thread 0), .resume (.thread 2), .resume (.thread 2), .resume (.thread 2)]
    (fun trace _ => decide (trace = [.sent (.interrupt 0) false [2], .sent (.thread 1) false [1],
      .sent (.thread 1) true [3, 4], .unlinked (.thread 2), .reset, .received (.thread 2) 1 [3],
      .sent (.thread 0) false [5], .unlinked (.thread 2), .received (.thread 2) 4 [5, 4, 0, 0]])) (by decide +kernel)
  exact ⟨trace, s, hrun, of_decide_eq_true hfound, messageQueue_of_run hrun⟩

end RtThread
