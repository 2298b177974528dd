import RtThread.Ipc.MessageQueue

/-!
# What a message queue delivers

Two things are kept apart. The slots are partitioned into the free list, the queue and the slots that calls hold; this is about pointers alone. The messages are numbered in the order in which they are linked, and a ledger says of each whether it is queued, taken out by a call, received or discarded; the slots carry the bytes of the messages of the ledger.
-/

namespace RtThread

variable {mq mq' : MessageQueue} {s s' : MqState} {op : MqOp} {trace events : List MqEvent} {c c' : Caller}
  {free queue held : List Nat} {msg : Nat} {urgent : Bool} {buffer : List UInt8} {size : Nat} {timeout : Int}

/-! ## Slots -/

structure Slots (mq : MessageQueue) (free queue held : List Nat) : Prop where
  linkedFree : LinkedFrom mq.next mq.free free
  linkedQueue : LinkedFrom mq.next mq.head queue
  tail : mq.tail = queue.getLast?
  partition : (free ++ queue ++ held).Perm (List.range mq.maxMsgs)

theorem Slots.nodup (h : Slots mq free queue held) : (free ++ queue ++ held).Nodup :=
  h.partition.nodup_iff.2 List.nodup_range

theorem Slots.not_mem_of_held (h : Slots mq free queue held) (hmsg : msg ∈ held) : msg ∉ free ∧ msg ∉ queue := by
  have hdisjoint := (List.nodup_append.1 h.nodup).2.2
  exact ⟨fun hmem => hdisjoint msg (List.mem_append_left _ hmem) msg hmsg rfl,
    fun hmem => hdisjoint msg (List.mem_append_right _ hmem) msg hmsg rfl⟩

theorem Slots.ne_of_queued (h : Slots mq free queue held) {other : Nat} (hmsg : msg ∈ queue) (hother : other ∈ held) :
    other ≠ msg :=
  fun heq => (h.not_mem_of_held hother).2 (heq ▸ hmsg)

theorem Slots.queue_length (h : Slots mq free queue held) : queue.length ≤ mq.maxMsgs := by
  have := h.partition.length_eq
  simp only [List.length_append, List.length_range] at this
  omega

theorem Slots.perm {held' : List Nat} (h : Slots mq free queue held) (hperm : held.Perm held') : Slots mq free queue held' :=
  ⟨h.linkedFree, h.linkedQueue, h.tail, (hperm.symm.append_left _).trans h.partition⟩

theorem Slots.congr (h : Slots mq free queue held) (hfree : mq'.free = mq.free) (hhead : mq'.head = mq.head)
    (htail : mq'.tail = mq.tail) (hmax : mq'.maxMsgs = mq.maxMsgs) (hnext : mq'.next = mq.next) :
    Slots mq' free queue held :=
  ⟨by rw [hnext, hfree]; exact h.linkedFree, by rw [hnext, hhead]; exact h.linkedQueue, htail.trans h.tail, hmax ▸ h.partition⟩

theorem Slots.take (h : Slots mq (msg :: free) queue held) : Slots { mq with free := mq.next msg } free queue (msg :: held) :=
  ⟨h.linkedFree.2, h.linkedQueue, h.tail, List.perm_middle.trans h.partition⟩

theorem Slots.copyIn (h : Slots mq free queue held) (hmsg : msg ∈ held) : Slots (mq.copyIn urgent msg buffer) free queue held := by
  obtain ⟨hfree, hqueue⟩ := h.not_mem_of_held hmsg
  cases urgent with
  | false => exact ⟨h.linkedFree.update hfree, h.linkedQueue.update hqueue, h.tail, h.partition⟩
  | true => exact ⟨h.linkedFree, h.linkedQueue, h.tail, h.partition⟩

theorem Slots.linkTail (h : Slots mq free queue (msg :: held)) (hend : mq.next msg = none) :
    Slots (mq.linkTail msg) free (queue ++ [msg]) held := by
  obtain ⟨hfree, hqueue⟩ := h.not_mem_of_held (List.mem_cons_self ..)
  have hnodup := List.nodup_append.1 (List.nodup_append.1 h.nodup).1
  have hpartition : (free ++ (queue ++ [msg]) ++ held).Perm (List.range mq.maxMsgs) := by
    simpa using h.partition
  cases hlast : queue.getLast? with
  | none =>
    obtain rfl := List.getLast?_eq_none_iff.1 hlast
    have htail : mq.tail = none := h.tail
    have hhead : mq.head = none := h.linkedQueue
    have hnext : (mq.linkTail msg).next = mq.next := by simp only [MessageQueue.linkTail, htail]
    refine ⟨hnext ▸ h.linkedFree, ?_, rfl, hpartition⟩
    rw [hnext]
    exact ⟨if_pos hhead, hend⟩
  | some last =>
    have htail : mq.tail = some last := h.tail.trans hlast
    have hmem : last ∈ queue := List.mem_of_getLast? hlast
    have hhead : mq.head ≠ none := fun heq => List.ne_nil_of_mem hmem (h.linkedQueue.eq_none_iff.1 heq)
    have hnext : (mq.linkTail msg).next = Function.update mq.next last (some msg) := by
      simp only [MessageQueue.linkTail, htail]
    have hkeeps : (mq.linkTail msg).head = mq.head := if_neg hhead
    refine ⟨?_, ?_, by simp [MessageQueue.linkTail], hpartition⟩
    · rw [hnext]
      exact h.linkedFree.update fun hmem' => hnodup.2.2 last hmem' last hmem rfl
    · rw [hnext, hkeeps]
      exact h.linkedQueue.append hnodup.2.1 hlast hqueue hend

theorem Slots.linkHead (h : Slots mq free queue (msg :: held)) : Slots (mq.linkHead msg) free (msg :: queue) held := by
  obtain ⟨hfree, hqueue⟩ := h.not_mem_of_held (List.mem_cons_self ..)
  refine ⟨h.linkedFree.update hfree, h.linkedQueue.push hqueue, ?_, ?_⟩
  · cases queue with
    | nil => exact if_pos h.tail
    | cons first rest =>
      have htail : mq.tail ≠ none := by simp [h.tail]
      rw [List.getLast?_cons_cons, ← h.tail]
      exact if_neg htail
  · have hmove : (free ++ msg :: queue ++ held).Perm (free ++ queue ++ msg :: held) := by
      rw [List.append_assoc, List.append_assoc]
      exact (List.perm_middle.symm : (msg :: queue ++ held).Perm (queue ++ msg :: held)).append_left free
    exact hmove.trans h.partition

theorem Slots.dropHead (h : Slots mq free (msg :: queue) held) : Slots (mq.dropHead msg) free queue (msg :: held) := by
  have hmove : (free ++ queue ++ msg :: held).Perm (free ++ msg :: queue ++ held) := by
    rw [List.append_assoc, List.append_assoc]
    exact (List.perm_middle : (queue ++ msg :: held).Perm (msg :: queue ++ held)).append_left free
  refine ⟨h.linkedFree, h.linkedQueue.2, ?_, hmove.trans h.partition⟩
  have htail := h.tail
  cases queue with
  | nil => exact if_pos htail
  | cons first rest =>
    rw [List.getLast?_cons_cons] at htail
    have hnodup := (List.nodup_append.1 (List.nodup_append.1 h.nodup).1).2.1
    have hne : mq.tail ≠ some msg := fun heq =>
      (List.nodup_cons.1 hnodup).1 (List.mem_of_getLast? (htail.symm.trans heq))
    exact (if_neg hne).trans htail

theorem Slots.release (h : Slots mq free queue (msg :: held)) : Slots (mq.release msg) (msg :: free) queue held := by
  obtain ⟨hfree, hqueue⟩ := h.not_mem_of_held (List.mem_cons_self ..)
  exact ⟨h.linkedFree.push hfree, h.linkedQueue.update hqueue, h.tail, List.perm_middle.symm.trans h.partition⟩

structure Released (mq mq' : MessageQueue) (held : List Nat) : Prop where
  msgSize : mq'.msgSize = mq.msgSize
  maxMsgs : mq'.maxMsgs = mq.maxMsgs
  bytes : mq'.bytes = mq.bytes
  next : ∀ msg ∈ held, mq'.next msg = mq.next msg

theorem Slots.releaseAll {fuel : Nat} (h : Slots mq free queue held) (hfuel : queue.length ≤ fuel) :
    ∃ mq' free', mq.releaseAll fuel = some mq' ∧ Slots mq' free' [] held ∧ Released mq mq' held := by
  induction queue generalizing mq free fuel with
  | nil =>
    have hhead : mq.head = none := h.linkedQueue
    refine ⟨mq, free, ?_, h, rfl, rfl, rfl, fun _ _ => rfl⟩
    unfold MessageQueue.releaseAll
    rw [hhead]
  | cons msg queue ih =>
    obtain ⟨fuel, rfl⟩ : ∃ n, fuel = n + 1 := ⟨fuel - 1, by rw [List.length_cons] at hfuel; omega⟩
    obtain ⟨mq', free', hloop, hslots, hreleased⟩ := ih h.dropHead.release (Nat.le_of_succ_le_succ hfuel)
    refine ⟨mq', free', ?_, hslots, hreleased.msgSize, hreleased.maxMsgs, hreleased.bytes, fun other hother => ?_⟩
    · have hhead : mq.head = some msg := h.linkedQueue.1
      unfold MessageQueue.releaseAll
      rw [hhead]
      exact hloop
    · rw [hreleased.next other hother]
      exact Function.update_of_ne (h.ne_of_queued (List.mem_cons_self ..) hother) ..

theorem slots_mqCreate (bytes : Nat → Nat → UInt8) (msgSize maxMsgs : Nat) :
    Slots (mqCreate bytes msgSize maxMsgs) (List.range (maxMsgs % 65536)).reverse [] [] := by
  have hloop : ∀ (n : Nat) (mq : MessageQueue), mq.free = none → mq.head = none → mq.tail = none →
      LinkedFrom ((List.range n).foldl MessageQueue.release mq).next ((List.range n).foldl MessageQueue.release mq).free
        (List.range n).reverse ∧
      ((List.range n).foldl MessageQueue.release mq).head = none ∧
      ((List.range n).foldl MessageQueue.release mq).tail = none ∧
      ((List.range n).foldl MessageQueue.release mq).maxMsgs = mq.maxMsgs := by
    intro n mq hfree hhead htail
    induction n with
    | zero => exact ⟨hfree, hhead, htail, rfl⟩
    | succ n ih =>
      rw [List.range_succ, List.foldl_append, List.reverse_append]
      exact ⟨ih.1.push (by simp), ih.2.1, ih.2.2.1, ih.2.2.2⟩
  obtain ⟨hfree, hhead, htail, hmax⟩ := hloop (maxMsgs % 65536)
    ⟨(msgSize + 3) / 4 * 4 % 65536, maxMsgs % 65536, 0, none, none, none, fun _ => none, bytes⟩ rfl rfl rfl
  refine ⟨hfree, hhead, htail, ?_⟩
  rw [List.append_nil, List.append_nil, show (mqCreate bytes msgSize maxMsgs).maxMsgs = maxMsgs % 65536 from hmax]
  exact List.reverse_perm _

/-! ## The ledger of messages -/

structure Message where
  no : Nat
  data : List UInt8
  deriving DecidableEq

/-- `queue` has the next message to be taken out in front; `taken` are those a call is copying. -/
structure MessageLedger where
  count : Nat
  queue : List Message
  taken : List (Caller × Message)
  received : List Message
  discarded : List Message

/-- A buffer of `size` bytes has received a message: its first bytes are those of the message, as many as fit. -/
structure Carried (msgSize : Nat) (data : List UInt8) (size : Nat) (buffer : List UInt8) : Prop where
  length : buffer.length = min size msgSize
  bytes : buffer.take data.length = data.take size

/-- The ledger after a trace: the queue is a deque, and every message a call returns is the one it has taken out. -/
inductive Delivers (msgSize : Nat) : List MqEvent → MessageLedger → Prop
  | start : Delivers msgSize [] ⟨0, [], [], [], []⟩
  | send {trace : List MqEvent} {d : MessageLedger} {c : Caller} {data : List UInt8} (h : Delivers msgSize trace d) :
      Delivers msgSize (trace ++ [.sent c false data])
        { d with count := d.count + 1, queue := d.queue ++ [⟨d.count, data⟩] }
  | urgent {trace : List MqEvent} {d : MessageLedger} {c : Caller} {data : List UInt8} (h : Delivers msgSize trace d) :
      Delivers msgSize (trace ++ [.sent c true data])
        { d with count := d.count + 1, queue := ⟨d.count, data⟩ :: d.queue }
  | take {trace : List MqEvent} {d : MessageLedger} {c : Caller} {m : Message} {rest : List Message}
      (h : Delivers msgSize trace d) (hqueue : d.queue = m :: rest) :
      Delivers msgSize (trace ++ [.unlinked c]) { d with queue := rest, taken := (c, m) :: d.taken }
  | receive {trace : List MqEvent} {d : MessageLedger} {c : Caller} {m : Message} {size : Nat} {buffer : List UInt8}
      (h : Delivers msgSize trace d) (htaken : (c, m) ∈ d.taken) (hbuffer : Carried msgSize m.data size buffer) :
      Delivers msgSize (trace ++ [.received c size buffer])
        { d with taken := d.taken.erase (c, m), received := d.received ++ [m] }
  | fail {trace : List MqEvent} {d : MessageLedger} {c : Caller} {result : IpcErr} (h : Delivers msgSize trace d) :
      Delivers msgSize (trace ++ [.failed c result]) d
  | reset {trace : List MqEvent} {d : MessageLedger} (h : Delivers msgSize trace d) :
      Delivers msgSize (trace ++ [.reset]) { d with queue := [], discarded := d.discarded ++ d.queue }

def MessageLedger.messages (d : MessageLedger) : List Message :=
  d.queue ++ d.taken.map Prod.snd ++ d.received ++ d.discarded

theorem Delivers.once {msgSize : Nat} {d : MessageLedger} (h : Delivers msgSize trace d) :
    (d.messages.map Message.no).Perm (List.range d.count) := by
  induction h with
  | start => exact .refl _
  | @send trace d c data h ih =>
    have hmove : (MessageLedger.messages { d with count := d.count + 1, queue := d.queue ++ [⟨d.count, data⟩] }).Perm
        (d.messages ++ [⟨d.count, data⟩]) := by
      simp only [MessageLedger.messages, List.append_assoc]
      refine List.Perm.append_left _ ?_
      simpa using (List.perm_append_singleton (⟨d.count, data⟩ : Message)
        (d.taken.map Prod.snd ++ (d.received ++ d.discarded))).symm
    rw [List.range_succ]
    simpa using (hmove.map Message.no).trans (by simpa using ih.append_right [d.count])
  | @urgent trace d c data h ih =>
    rw [List.range_succ]
    refine List.Perm.trans ?_ (List.perm_append_singleton d.count _).symm
    simpa [MessageLedger.messages] using ih.cons d.count
  | @take trace d c m rest h hqueue ih =>
    refine List.Perm.trans (List.Perm.map _ ?_) ih
    simp only [MessageLedger.messages, hqueue, List.map_cons, List.append_assoc, List.cons_append]
    exact List.perm_middle
  | @receive trace d c m size buffer h htaken hbuffer ih =>
    refine List.Perm.trans (List.Perm.map _ ?_) ih
    have htake : (d.taken.map Prod.snd).Perm (m :: (d.taken.erase (c, m)).map Prod.snd) :=
      (List.perm_cons_erase htaken).map Prod.snd
    simp only [MessageLedger.messages, List.append_assoc]
    refine List.Perm.append_left _ ((?_ : List.Perm _ _).trans (htake.symm.append_right _))
    simp only [List.cons_append, ← List.append_assoc]
    exact List.perm_middle
  | fail h ih => exact ih
  | @reset trace d h ih =>
    refine List.Perm.trans (List.Perm.map _ ?_) ih
    simp only [MessageLedger.messages, List.nil_append]
    rw [← List.append_assoc]
    refine (List.perm_append_comm).trans ?_
    simp only [List.append_assoc]
    rfl

end RtThread
