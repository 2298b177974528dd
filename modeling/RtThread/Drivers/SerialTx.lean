import RtThread.Drivers.DataQueueFifo

/-!
# Transmitting by DMA

`serial.c` in DMA mode: a writer pushes its buffer on a data queue and then, in a critical section of its own, tests whether a transfer is active; if none is, it hands its buffer to the DMA. The interrupt at the end of a transfer pops the head of the queue and hands the next one to the DMA. Between the push and the test other writers and interrupts come in: a writer that finds no active transfer may hand over a buffer that is not at the head, or not in the queue any more.
-/

namespace RtThread

open Function Transition

/-- Where a thread is in `_serial_dma_tx`. -/
inductive TxPhase
  | idle
  /-- In `rt_data_queue_push`, on a full queue. -/
  | pushing
  /-- Behind `rt_data_queue_push`. -/
  | pushed (item : DataItem)
  /-- Behind the critical section, with the transfer to make. -/
  | claimed (item : DataItem)
  deriving DecidableEq

/-- `struct rt_serial_tx_dma`, with the transfers that the DMA makes and the threads that write. -/
structure SerialTx where
  dataQueue : DqState
  activated : Bool
  inFlight : List DataItem
  writer : ThreadId → TxPhase

inductive SerialTxOp
  /-- `_serial_dma_tx` is called. -/
  | write (t : ThreadId) (item : DataItem)
  /-- A thread that is not suspended any more goes on in `rt_data_queue_push`. -/
  | resume (t : ThreadId)
  /-- The critical section of `_serial_dma_tx`. -/
  | test (t : ThreadId)
  | transmit (t : ThreadId)
  /-- `RT_SERIAL_EVENT_TX_DMADONE`, when a transfer has finished. -/
  | dmaDone
  deriving DecidableEq

inductive SerialTxEvent
  | pushed (item : DataItem)
  /-- `dma_transmit` -/
  | transmit (item : DataItem)
  | finished (item : DataItem)
  /-- `tx_complete`, with what `rt_data_queue_pop` has stored. -/
  | complete (lastDataPtr : Option DataItem)
  deriving DecidableEq

namespace SerialTx

def setWriter (s : SerialTx) (t : ThreadId) (phase : TxPhase) : SerialTx := { s with writer := update s.writer t phase }

/-- `rt_data_queue_push` has returned, or waits. -/
def pushReturns (s : SerialTx) (t : ThreadId) (r : DqState × List DqEvent) : SerialTx × List SerialTxEvent :=
  let s := { s with dataQueue := r.1 }
  match r.2 with
  | [.pushed _ item] => (s.setWriter t (.pushed item), [.pushed item])
  | [.full _ _] => (s.setWriter t .pushing, [])
  | _ => (s.setWriter t .idle, [])

def isr (s : SerialTx) : Option (SerialTx × List SerialTxEvent) :=
  (stepDq s.dataQueue (.pop none 0)).map fun (dataQueue, events) =>
    let lastDataPtr := match events with
      | [.popped _ item] => some item
      | _ => none
    match rtDataQueuePeak dataQueue with
    | some item =>
      ({ s with dataQueue, activated := true, inFlight := s.inFlight ++ [item] }, [.transmit item, .complete lastDataPtr])
    | none => ({ s with dataQueue, activated := false }, [.complete lastDataPtr])

/-- `rt_serial_open` for `RT_DEVICE_FLAG_DMA_TX` -/
def init (queue : Nat → DataItem) : SerialTx := ⟨.init queue 8 4, false, [], fun _ => .idle⟩

end SerialTx

def stepSerialTx (s : SerialTx) : SerialTxOp → Option (SerialTx × List SerialTxEvent)
  | .write t item =>
    match s.writer t with
    | .idle => (stepDq s.dataQueue (.push (some t) item (-1))).map (s.pushReturns t)
    | _ => none
  | .resume t =>
    match s.writer t with
    | .pushing => (stepDq s.dataQueue (.resume t)).map (s.pushReturns t)
    | _ => none
  | .test t =>
    match s.writer t with
    | .pushed item =>
      if s.activated = true then some (s.setWriter t .idle, [])
      else some ({ s with activated := true }.setWriter t (.claimed item), [])
    | _ => none
  | .transmit t =>
    match s.writer t with
    | .claimed item => some ({ s with inFlight := s.inFlight ++ [item] }.setWriter t .idle, [.transmit item])
    | _ => none
  | .dmaDone =>
    match s.inFlight with
    | [] => none
    | item :: rest => ({ s with inFlight := rest }.isr).map fun (s, events) => (s, .finished item :: events)

/-- Each push finds the put index well wrapped, and a writer that finds no active transfer finds its buffer at the head of the queue. -/
def FindsOwn (s : SerialTx) : SerialTxOp → Prop
  | .write t item => PushesWell s.dataQueue (.push (some t) item (-1))
  | .resume t => PushesWell s.dataQueue (.resume t)
  | .test t =>
    match s.writer t with
    | .pushed item => s.activated = false → rtDataQueuePeak s.dataQueue = some item
    | _ => True
  | _ => True

instance (s : SerialTx) (op : SerialTxOp) : Decidable (FindsOwn s op) := by
  unfold FindsOwn
  split
  · infer_instance
  · infer_instance
  · split <;> infer_instance
  · infer_instance

/-! ## What a trace shows -/

def pushedItems (trace : List SerialTxEvent) : List DataItem :=
  trace.filterMap fun
    | .pushed item => some item
    | _ => none

def transmittedItems (trace : List SerialTxEvent) : List DataItem :=
  trace.filterMap fun
    | .transmit item => some item
    | _ => none

def finishedItems (trace : List SerialTxEvent) : List DataItem :=
  trace.filterMap fun
    | .finished item => some item
    | _ => none

def completedItems (trace : List SerialTxEvent) : List (Option DataItem) :=
  trace.filterMap fun
    | .complete lastDataPtr => some lastDataPtr
    | _ => none

/-! ## The invariant -/

variable {s s' : SerialTx} {q q' : DqState} {trace events : List SerialTxEvent} {dqEvents : List DqEvent} {op : SerialTxOp} {t : ThreadId}
  {item : DataItem}

def DqState.OnlyPushes (q : DqState) : Prop := ∀ t call, q.call t = some call → ∃ item timeout, call = .push item timeout

/-- What was pushed and has not finished is in the queue, and its head is what the DMA has or is about to get. -/
structure TxInv (trace : List SerialTxEvent) (s : SerialTx) : Prop where
  queue : DataQueueInv 8 s.dataQueue.dq
  calls : s.dataQueue.OnlyPushes
  pushed : pushedItems trace = finishedItems trace ++ s.dataQueue.dq.contents
  transmitted : transmittedItems trace = finishedItems trace ++ s.inFlight
  completed : completedItems trace = (finishedItems trace).map some
  /-- A transfer is at the head of the queue, and nobody is about to start another. -/
  flight : ∀ x ∈ s.inFlight, s.activated = true ∧ s.inFlight = [x] ∧ s.dataQueue.dq.contents.head? = some x
  claims : ∀ t x, s.writer t = .claimed x →
    s.activated = true ∧ s.inFlight = [] ∧ s.dataQueue.dq.contents.head? = some x ∧ ∀ t' y, s.writer t' = .claimed y → t' = t
  active : s.activated = true → s.inFlight ≠ [] ∨ ∃ t x, s.writer t = .claimed x
  /-- Where no transfer is active, the writer of every buffer has its test before it. -/
  waiting : s.activated = false → ∀ x ∈ s.dataQueue.dq.contents, ∃ t, s.writer t = .pushed x

theorem DataQueueInv.peak {size : Nat} (h : DataQueueInv size q.dq) : rtDataQueuePeak q = q.dq.contents.head? := by
  rw [rtDataQueuePeak]
  by_cases hempty : q.dq.getIndex = q.dq.putIndex
  · rw [if_pos hempty, h.empty_iff.1 hempty]
    rfl
  · rw [if_neg hempty, (h.take hempty).2]
    rfl

@[simp] theorem pushedItems_append (trace events : List SerialTxEvent) :
    pushedItems (trace ++ events) = pushedItems trace ++ pushedItems events := List.filterMap_append

@[simp] theorem transmittedItems_append (trace events : List SerialTxEvent) :
    transmittedItems (trace ++ events) = transmittedItems trace ++ transmittedItems events := List.filterMap_append

@[simp] theorem finishedItems_append (trace events : List SerialTxEvent) :
    finishedItems (trace ++ events) = finishedItems trace ++ finishedItems events := List.filterMap_append

@[simp] theorem completedItems_append (trace events : List SerialTxEvent) :
    completedItems (trace ++ events) = completedItems trace ++ completedItems events := List.filterMap_append

/-! ## Pushing -/

structure PushEnds (q q' : DqState) (dqEvents : List DqEvent) : Prop where
  queue : DataQueueInv 8 q'.dq
  calls : q'.OnlyPushes
  ends : (∃ caller item, dqEvents = [.pushed caller item] ∧ q'.dq.contents = q.dq.contents ++ [item]) ∨
    ((∃ caller item, dqEvents = [.full caller item]) ∨ ∃ caller result, dqEvents = [.failed caller result]) ∧ q'.dq.contents = q.dq.contents

theorem DqState.OnlyPushes.congr (h : q.OnlyPushes) (hcall : q'.call = q.call) : q'.OnlyPushes :=
  fun t call ht => h t call (hcall ▸ ht)

theorem DqState.OnlyPushes.setCall (h : q.OnlyPushes) (t : ThreadId) {c : Option DqCall}
    (hc : ∀ call, c = some call → ∃ item timeout, call = .push item timeout) : (q.setCall t c).OnlyPushes := by
  intro t' call hcall
  change update q.call t c t' = some call at hcall
  by_cases ht : t' = t
  · rw [ht, update_self] at hcall
    exact hc call hcall
  · rw [update_of_ne ht] at hcall
    exact h t' call hcall

@[simp] theorem DqState.resumePopper_call : q.resumePopper.call = q.call := by
  unfold DqState.resumePopper
  split <;> rfl

@[simp] theorem DqState.resumePusher_call : q.resumePusher.call = q.call := by
  unfold DqState.resumePusher
  split <;> rfl

theorem pushEnds_of_push (hqueue : DataQueueInv 8 q.dq) (hcalls : q.OnlyPushes) (hwraps : q.dq.WrapsWell) {caller : Option ThreadId}
    {timeout : Int} (hs : rtDataQueuePush q caller item timeout = some (q', dqEvents)) : PushEnds q q' dqEvents := by
  obtain ⟨event, contents, hshow, hqueue', hcontents⟩ := hqueue.follows_push hwraps hs
  unfold rtDataQueuePush at hs
  by_cases hfull : q.dq.difference = q.dq.size
  · rw [if_pos hfull] at hs
    split_ifs at hs
    · cases hs
      exact ⟨hqueue', hcalls, .inr ⟨.inl ⟨_, _, rfl⟩, rfl⟩⟩
    · cases caller with
      | none => cases hs
      | some t =>
        obtain ⟨timer, -, heq⟩ := Option.map_eq_some_iff.1 hs
        cases heq
        refine ⟨hqueue', .setCall (.congr hcalls rfl) t ?_, .inr ⟨.inl ⟨_, _, rfl⟩, rfl⟩⟩
        rintro call ⟨⟩
        exact ⟨item, timeout, rfl⟩
  · rw [if_neg hfull] at hs
    obtain ⟨rfl, rfl⟩ := Prod.mk.inj (Option.some.inj hs)
    refine ⟨hqueue', .congr hcalls DqState.resumePopper_call, .inl ⟨caller, item, rfl, ?_⟩⟩
    cases event with
    | none => cases hshow
    | some event =>
      obtain ⟨contents', haccept, heq⟩ := Option.map_eq_some_iff.1 hshow
      obtain ⟨rfl, rfl⟩ : contents' = contents ∧ event = .pushed caller item := by simpa using heq
      rw [acceptItem] at haccept
      split_ifs at haccept
      exact hcontents.trans (Option.some.inj haccept).symm

theorem pushEnds_of_resume (hqueue : DataQueueInv 8 q.dq) (hcalls : q.OnlyPushes) (hwraps : PushesWell q (.resume t))
    (hs : stepDq q (.resume t) = some (q', dqEvents)) : PushEnds q q' dqEvents := by
  simp only [stepDq] at hs
  by_cases hwait : q.Waiting t
  · rw [if_pos hwait] at hs
    cases hs
  rw [if_neg hwait] at hs
  split at hs
  · cases hs
  · rename_i call hcall
    obtain ⟨item, timeout, rfl⟩ := hcalls t call hcall
    have hleft : (q.setCall t none).OnlyPushes := hcalls.setCall t fun _ hno => by cases hno
    by_cases herror : (q.thread t).error = .eok
    · rw [if_neg (not_not.2 (show ((q.setCall t none).thread t).error = .eok from herror))] at hs
      simp only [PushesWell, hcall] at hwraps
      have hends := pushEnds_of_push (q := q.setCall t none) hqueue hleft (hwraps herror) hs
      exact ⟨hends.queue, hends.calls, hends.ends⟩
    · rw [if_pos (show ((q.setCall t none).thread t).error ≠ .eok from herror)] at hs
      obtain ⟨rfl, rfl⟩ := Prod.mk.inj (Option.some.inj hs)
      exact ⟨hqueue, hleft, .inr ⟨.inr ⟨_, _, rfl⟩, rfl⟩⟩

theorem head?_append_of_head? {l l' : List DataItem} {x : DataItem} (h : l.head? = some x) : (l ++ l').head? = some x := by
  rw [List.head?_append, h, Option.some_or]

theorem TxInv.grow (h : TxInv trace s) {phase : TxPhase} {new : List DataItem} (hqueue : DataQueueInv 8 q'.dq) (hcalls : q'.OnlyPushes)
    (hcontents : q'.dq.contents = s.dataQueue.dq.contents ++ new) (hwriter : s.writer t = .idle ∨ s.writer t = .pushing)
    (hclaim : ∀ x, phase ≠ .claimed x) (hnew : ∀ x ∈ new, phase = .pushed x) (hpushed : pushedItems events = new)
    (hother : transmittedItems events = [] ∧ finishedItems events = [] ∧ completedItems events = []) :
    TxInv (trace ++ events) ({ s with dataQueue := q' }.setWriter t phase) := by
  obtain ⟨htransmit, hfinished, hcompleted⟩ := hother
  have hphase : ∀ t' p, update s.writer t phase t' = p → t' = t ∧ p = phase ∨ t' ≠ t ∧ s.writer t' = p := by
    intro t' p hp
    by_cases ht : t' = t
    · rw [ht, update_self] at hp
      exact .inl ⟨ht, hp.symm⟩
    · rw [update_of_ne ht] at hp
      exact .inr ⟨ht, hp⟩
  have hclaims : ∀ t' x, update s.writer t phase t' = .claimed x → s.writer t' = .claimed x := by
    intro t' x hx
    rcases hphase t' _ hx with ⟨-, heq⟩ | ⟨-, hx⟩
    · exact absurd heq.symm (hclaim x)
    · exact hx
  refine ⟨hqueue, hcalls, ?_, ?_, ?_, ?_, ?_, ?_, ?_⟩
  · rw [pushedItems_append, finishedItems_append, hfinished, List.append_nil, hpushed, h.pushed, List.append_assoc]
    exact congrArg _ hcontents.symm
  · rw [transmittedItems_append, finishedItems_append, htransmit, hfinished, List.append_nil, List.append_nil]
    exact h.transmitted
  · rw [completedItems_append, finishedItems_append, hcompleted, hfinished, List.append_nil, List.append_nil]
    exact h.completed
  · intro x hx
    obtain ⟨hactive, hone, hhead⟩ := h.flight x hx
    exact ⟨hactive, hone, (congrArg _ hcontents).trans (head?_append_of_head? hhead)⟩
  · intro t' x hx
    obtain ⟨hactive, hnone, hhead, honly⟩ := h.claims t' x (hclaims t' x hx)
    exact ⟨hactive, hnone, (congrArg _ hcontents).trans (head?_append_of_head? hhead), fun t'' y hy => honly t'' y (hclaims t'' y hy)⟩
  · intro hactive
    rcases h.active hactive with hflight | ⟨t', x, hx⟩
    · exact .inl hflight
    · have ht : t' ≠ t := by
        rintro rfl
        rw [hx] at hwriter
        rcases hwriter with hno | hno <;> cases hno
      exact .inr ⟨t', x, (update_of_ne ht ..).trans hx⟩
  · intro hinactive x hx
    change x ∈ q'.dq.contents at hx
    rw [hcontents, List.mem_append] at hx
    rcases hx with hx | hx
    · obtain ⟨t', ht'⟩ := h.waiting hinactive x hx
      have ht : t' ≠ t := by
        rintro rfl
        rw [ht'] at hwriter
        rcases hwriter with hno | hno <;> cases hno
      exact ⟨t', (update_of_ne ht ..).trans ht'⟩
    · exact ⟨t, (update_self ..).trans (hnew x hx)⟩

theorem TxInv.pushReturns (h : TxInv trace s) (hwriter : s.writer t = .idle ∨ s.writer t = .pushing) (hends : PushEnds s.dataQueue q' dqEvents)
    (hs : s.pushReturns t (q', dqEvents) = (s', events)) : TxInv (trace ++ events) s' := by
  have hstays : ∀ phase : TxPhase, (∀ x, phase ≠ .claimed x) → q'.dq.contents = s.dataQueue.dq.contents →
      TxInv (trace ++ []) ({ s with dataQueue := q' }.setWriter t phase) := fun phase hclaim hcontents =>
    h.grow hends.queue hends.calls (hcontents.trans (List.append_nil _).symm) hwriter hclaim (fun x hx => by cases hx) rfl ⟨rfl, rfl, rfl⟩
  obtain ⟨caller, item, rfl, hcontents⟩ | ⟨⟨caller, item, rfl⟩ | ⟨caller, result, rfl⟩, hcontents⟩ := hends.ends
  · obtain ⟨rfl, rfl⟩ := Prod.mk.inj hs
    refine h.grow hends.queue hends.calls hcontents hwriter (fun x hno => nomatch hno) (fun x hx => ?_) rfl ⟨rfl, rfl, rfl⟩
    rw [List.mem_singleton.1 hx]
  · obtain ⟨rfl, rfl⟩ := Prod.mk.inj hs
    exact hstays .pushing (fun x hno => nomatch hno) hcontents
  · obtain ⟨rfl, rfl⟩ := Prod.mk.inj hs
    exact hstays .idle (fun x hno => nomatch hno) hcontents

/-! ## The critical section, the transfer and its end -/

theorem TxInv.leave (h : TxInv trace s) (hactive : s.activated = true) (hwriter : s.writer t = .pushed item) :
    TxInv trace (s.setWriter t .idle) := by
  have hclaims : ∀ t' x, update s.writer t .idle t' = .claimed x → s.writer t' = .claimed x := by
    intro t' x hx
    by_cases ht : t' = t
    · rw [ht, update_self] at hx
      cases hx
    · rwa [update_of_ne ht] at hx
  refine ⟨h.queue, h.calls, h.pushed, h.transmitted, h.completed, h.flight, fun t' x hx => ?_, fun _ => ?_, fun hno => ?_⟩
  · obtain ⟨hactive, hnone, hhead, honly⟩ := h.claims t' x (hclaims t' x hx)
    exact ⟨hactive, hnone, hhead, fun t'' y hy => honly t'' y (hclaims t'' y hy)⟩
  · rcases h.active hactive with hflight | ⟨t', x, hx⟩
    · exact .inl hflight
    · have ht : t' ≠ t := by
        rintro rfl
        rw [hx] at hwriter
        cases hwriter
      exact .inr ⟨t', x, (update_of_ne ht ..).trans hx⟩
  · exact absurd (hactive.symm.trans hno) Bool.noConfusion

theorem TxInv.claim (h : TxInv trace s) (hinactive : s.activated = false) (hhead : s.dataQueue.dq.contents.head? = some item) :
    TxInv trace ({ s with activated := true }.setWriter t (.claimed item)) := by
  have hidle : s.inFlight = [] := by
    refine List.eq_nil_iff_forall_not_mem.2 fun x hx => ?_
    exact absurd ((h.flight x hx).1.symm.trans hinactive) Bool.noConfusion
  have hclaims : ∀ t' x, update s.writer t (.claimed item) t' = .claimed x → t' = t ∧ x = item := by
    intro t' x hx
    by_cases ht : t' = t
    · rw [ht, update_self] at hx
      exact ⟨ht, (TxPhase.claimed.inj hx).symm⟩
    · rw [update_of_ne ht] at hx
      exact absurd ((h.claims t' x hx).1.symm.trans hinactive) Bool.noConfusion
  refine ⟨h.queue, h.calls, h.pushed, h.transmitted, h.completed, ?_, ?_, ?_, ?_⟩
  · intro x hx
    change x ∈ s.inFlight at hx
    rw [hidle] at hx
    cases hx
  · intro t' x hx
    obtain ⟨rfl, rfl⟩ := hclaims t' x hx
    exact ⟨rfl, hidle, hhead, fun t'' y hy => (hclaims t'' y hy).1⟩
  · exact fun _ => .inr ⟨t, item, update_self ..⟩
  · exact fun hno => nomatch hno

theorem TxInv.transmit (h : TxInv trace s) (hwriter : s.writer t = .claimed item) :
    TxInv (trace ++ [.transmit item]) ({ s with inFlight := s.inFlight ++ [item] }.setWriter t .idle) := by
  obtain ⟨hactive, hidle, hhead, honly⟩ := h.claims t item hwriter
  have hpushed : pushedItems [.transmit item] = [] := rfl
  have hfinished : finishedItems [.transmit item] = [] := rfl
  have hcompleted : completedItems [.transmit item] = [] := rfl
  refine ⟨h.queue, h.calls, ?_, ?_, ?_, ?_, ?_, ?_, ?_⟩
  · rw [pushedItems_append, finishedItems_append, hfinished, hpushed, List.append_nil, List.append_nil]
    exact h.pushed
  · rw [transmittedItems_append, finishedItems_append, hfinished, List.append_nil, h.transmitted, List.append_assoc]
    rfl
  · rw [completedItems_append, finishedItems_append, hfinished, hcompleted, List.append_nil, List.append_nil]
    exact h.completed
  · intro x hx
    change x ∈ s.inFlight ++ [item] at hx
    rw [hidle, List.nil_append, List.mem_singleton] at hx
    rw [hx]
    exact ⟨hactive, by rw [SerialTx.setWriter, hidle]; rfl, hhead⟩
  · intro t' x hx
    change update s.writer t .idle t' = .claimed x at hx
    by_cases ht : t' = t
    · rw [ht, update_self] at hx
      cases hx
    · rw [update_of_ne ht] at hx
      exact absurd (honly t' x hx) ht
  · exact fun _ => .inl (List.append_ne_nil_of_right_ne_nil _ (List.cons_ne_nil _ _))
  · exact fun hno => absurd (hactive.symm.trans hno) Bool.noConfusion

theorem TxInv.isr (h : TxInv trace s) {rest : List DataItem} (hflight : s.inFlight = item :: rest)
    (hs : SerialTx.isr { s with inFlight := rest } = some (s', events)) : TxInv (trace ++ .finished item :: events) s' := by
  obtain ⟨hactive, hone, hhead⟩ := h.flight item (hflight ▸ List.mem_cons_self)
  obtain rfl : rest = [] := by
    rw [hflight] at hone
    exact (List.cons.inj hone).2
  have hclaims : ∀ t x, s.writer t ≠ .claimed x := by
    intro t x hx
    rw [(h.claims t x hx).2.1] at hflight
    cases hflight
  have hne : s.dataQueue.dq.getIndex ≠ s.dataQueue.dq.putIndex := by
    intro heq
    rw [h.queue.empty_iff.1 heq] at hhead
    cases hhead
  obtain ⟨hqueue, hcontents⟩ := h.queue.take hne
  rw [hcontents] at hhead
  obtain ⟨q', hpop, hdq, hcall⟩ : ∃ q', stepDq s.dataQueue (.pop none 0) = some (q', [.popped none s.dataQueue.dq.front]) ∧
      q'.dq = s.dataQueue.dq.take ∧ q'.call = s.dataQueue.call := by
    simp only [stepDq, DqState.Free, if_true, rtDataQueuePop, if_neg hne]
    refine ⟨_, rfl, ?_, ?_⟩
    · split_ifs <;> simp
    · split_ifs <;> simp
  obtain rfl : s.dataQueue.dq.front = item := Option.some.inj hhead
  have hqueue' : DataQueueInv 8 q'.dq := hdq ▸ hqueue
  have hcontents' : s.dataQueue.dq.contents = s.dataQueue.dq.front :: q'.dq.contents := by rw [hdq, hcontents]
  have hcalls : q'.OnlyPushes := .congr h.calls hcall
  have hpushed : pushedItems trace = finishedItems trace ++ [s.dataQueue.dq.front] ++ q'.dq.contents := by
    rw [h.pushed, hcontents', List.append_assoc]
    rfl
  have htransmitted : transmittedItems trace = finishedItems trace ++ [s.dataQueue.dq.front] := by rw [h.transmitted, hflight]
  rw [SerialTx.isr, hpop, Option.map_some] at hs
  dsimp only at hs
  rw [hqueue'.peak] at hs
  cases hrest : q'.dq.contents with
  | nil =>
    rw [hrest] at hs
    obtain ⟨rfl, rfl⟩ := Prod.mk.inj (Option.some.inj hs)
    refine ⟨hqueue', hcalls, ?_, ?_, ?_, ?_, ?_, ?_, ?_⟩
    · rw [pushedItems_append, finishedItems_append, hpushed]
      exact List.append_nil _
    · rw [transmittedItems_append, finishedItems_append, htransmitted]
      rfl
    · rw [completedItems_append, finishedItems_append, h.completed, List.map_append]
      rfl
    · intro x hx
      cases hx
    · exact fun t x hx => absurd hx (hclaims t x)
    · intro hno
      cases hno
    · intro _ x hx
      change x ∈ q'.dq.contents at hx
      rw [hrest] at hx
      cases hx
  | cons next rest =>
    rw [hrest] at hs
    obtain ⟨rfl, rfl⟩ := Prod.mk.inj (Option.some.inj hs)
    refine ⟨hqueue', hcalls, ?_, ?_, ?_, ?_, ?_, ?_, ?_⟩
    · rw [pushedItems_append, finishedItems_append, hpushed]
      exact List.append_nil _
    · rw [transmittedItems_append, finishedItems_append, htransmitted]
      rfl
    · rw [completedItems_append, finishedItems_append, h.completed, List.map_append]
      rfl
    · intro x hx
      rw [List.mem_singleton.1 hx]
      exact ⟨rfl, rfl, congrArg List.head? hrest⟩
    · exact fun t x hx => absurd hx (hclaims t x)
    · exact fun _ => .inl (List.cons_ne_nil _ _)
    · intro hno
      cases hno

theorem TxInv.step (h : TxInv trace s) (hown : FindsOwn s op) (hs : stepSerialTx s op = some (s', events)) : TxInv (trace ++ events) s' := by
  cases op with
  | write t item =>
    rw [stepSerialTx] at hs
    cases hwriter : s.writer t with
    | idle =>
      rw [hwriter] at hs
      obtain ⟨⟨q', dqEvents⟩, hq, hs⟩ := Option.map_eq_some_iff.1 hs
      simp only [stepDq] at hq
      split_ifs at hq
      exact h.pushReturns (.inl hwriter) (pushEnds_of_push h.queue h.calls hown hq) hs
    | pushing => rw [hwriter] at hs; cases hs
    | pushed item => rw [hwriter] at hs; cases hs
    | claimed item => rw [hwriter] at hs; cases hs
  | resume t =>
    rw [stepSerialTx] at hs
    cases hwriter : s.writer t with
    | pushing =>
      rw [hwriter] at hs
      obtain ⟨⟨q', dqEvents⟩, hq, hs⟩ := Option.map_eq_some_iff.1 hs
      exact h.pushReturns (.inr hwriter) (pushEnds_of_resume h.queue h.calls hown hq) hs
    | idle => rw [hwriter] at hs; cases hs
    | pushed item => rw [hwriter] at hs; cases hs
    | claimed item => rw [hwriter] at hs; cases hs
  | test t =>
    rw [stepSerialTx] at hs
    cases hwriter : s.writer t with
    | pushed item =>
      rw [hwriter] at hs
      dsimp only at hs
      cases hactive : s.activated with
      | true =>
        rw [hactive, if_pos rfl] at hs
        obtain ⟨rfl, rfl⟩ := Prod.mk.inj (Option.some.inj hs)
        rw [List.append_nil]
        exact h.leave hactive hwriter
      | false =>
        rw [hactive, if_neg Bool.false_ne_true] at hs
        obtain ⟨rfl, rfl⟩ := Prod.mk.inj (Option.some.inj hs)
        rw [List.append_nil]
        simp only [FindsOwn, hwriter] at hown
        exact h.claim hactive (h.queue.peak ▸ hown hactive)
    | idle => rw [hwriter] at hs; cases hs
    | pushing => rw [hwriter] at hs; cases hs
    | claimed item => rw [hwriter] at hs; cases hs
  | transmit t =>
    rw [stepSerialTx] at hs
    cases hwriter : s.writer t with
    | claimed item =>
      rw [hwriter] at hs
      obtain ⟨rfl, rfl⟩ := Prod.mk.inj (Option.some.inj hs)
      exact h.transmit hwriter
    | idle => rw [hwriter] at hs; cases hs
    | pushing => rw [hwriter] at hs; cases hs
    | pushed item => rw [hwriter] at hs; cases hs
  | dmaDone =>
    rw [stepSerialTx] at hs
    cases hflight : s.inFlight with
    | nil => rw [hflight] at hs; cases hs
    | cons item rest =>
      rw [hflight] at hs
      obtain ⟨⟨s', events⟩, hisr, heq⟩ := Option.map_eq_some_iff.1 hs
      obtain ⟨rfl, rfl⟩ := Prod.mk.inj heq
      exact h.isr hflight hisr

theorem TxInv.start (queue : Nat → DataItem) : TxInv [] (SerialTx.init queue) := by
  have hzero : 0 < 65536 := by omega
  have hqueued : (DqState.init queue 8 4).dq.queued = 0 := by simp [DataQueue.queued, DqState.init]
  have hempty : (DqState.init queue 8 4).dq.contents = [] := List.eq_nil_of_length_eq_zero (by simpa using hqueued)
  refine ⟨⟨rfl, by omega, hzero, hzero, hqueued ▸ Nat.zero_le _⟩, ?_, ?_, rfl, rfl, ?_, ?_, ?_, ?_⟩
  · intro t call hcall
    cases hcall
  · change [] = [] ++ (DqState.init queue 8 4).dq.contents
    rw [hempty, List.append_nil]
  · intro x hx
    cases hx
  · intro t x hx
    cases hx
  · intro hno
    cases hno
  · intro _ x hx
    change x ∈ (DqState.init queue 8 4).dq.contents at hx
    rw [hempty] at hx
    cases hx

/-- In every run that meets the condition the buffers are handed to the DMA in the order in which they were pushed, each once, no two transfers are in flight, and `tx_complete` gets the buffer whose transfer has finished. -/
theorem serialTx_of_run {queue : Nat → DataItem} (hrun : Run stepSerialTx FindsOwn (SerialTx.init queue) trace s) :
    transmittedItems trace <+: pushedItems trace ∧
      ((∀ t, s.writer t = .idle ∨ s.writer t = .pushing) → s.inFlight = [] → transmittedItems trace = pushedItems trace) ∧
      s.inFlight.length ≤ 1 ∧ transmittedItems trace = finishedItems trace ++ s.inFlight ∧
      completedItems trace = (finishedItems trace).map some := by
  have h : TxInv trace s := hrun.invariant (TxInv.start queue) fun _ _ _ _ _ h hown hs => h.step hown hs
  refine ⟨?_, fun hwriters hidle => ?_, ?_, h.transmitted, h.completed⟩
  · rw [h.pushed, h.transmitted, List.prefix_append_right_inj]
    cases hflight : s.inFlight with
    | nil => exact List.nil_prefix
    | cons x rest =>
      obtain ⟨-, hone, hhead⟩ := h.flight x (hflight ▸ List.mem_cons_self)
      obtain ⟨l, hl⟩ := List.head?_eq_some_iff.1 hhead
      rw [← hflight, hone, hl]
      exact ⟨l, rfl⟩
  · have hinactive : s.activated = false := by
      refine Bool.eq_false_iff.2 fun hactive => ?_
      rcases h.active hactive with hno | ⟨t, x, hx⟩
      · exact hno hidle
      · rcases hwriters t with hno | hno <;> rw [hx] at hno <;> cases hno
    have hempty : s.dataQueue.dq.contents = [] := by
      refine List.eq_nil_iff_forall_not_mem.2 fun x hx => ?_
      obtain ⟨t, ht⟩ := h.waiting hinactive x hx
      rcases hwriters t with hno | hno <;> rw [ht] at hno <;> cases hno
    rw [h.transmitted, h.pushed, hidle, hempty]
  · cases hflight : s.inFlight with
    | nil => exact Nat.zero_le _
    | cons x rest =>
      rw [← hflight, (h.flight x (hflight ▸ List.mem_cons_self)).2.1]
      exact Nat.le_refl _

theorem exists_serialTx_run (ok : SerialTx → SerialTxOp → Prop) [∀ s op, Decidable (ok s op)] (ops : List SerialTxOp)
    (found : List SerialTxEvent → SerialTx → Bool)
    (h : ((exec stepSerialTx ok (SerialTx.init fun _ => ⟨0, 0⟩) ops).any fun r => found r.1 r.2) = true) :
    ∃ trace s, Run stepSerialTx ok (SerialTx.init fun _ => ⟨0, 0⟩) trace s ∧ found trace s = true :=
  exists_run_of_exec ops found h

/-- Two writers, the second of which comes while the buffer of the first is in flight. -/
theorem serialTx_of_run_queued : ∃ trace s, Run stepSerialTx FindsOwn (SerialTx.init fun _ => ⟨0, 0⟩) trace s ∧
    transmittedItems trace = [⟨1, 4⟩, ⟨2, 4⟩] ∧ transmittedItems trace <+: pushedItems trace := by
  obtain ⟨trace, s, hrun, hfound⟩ := exists_serialTx_run FindsOwn
    [.write 1 ⟨1, 4⟩, .test 1, .transmit 1, .write 2 ⟨2, 4⟩, .dmaDone, .test 2, .dmaDone]
    (fun trace _ => decide (transmittedItems trace = [⟨1, 4⟩, ⟨2, 4⟩])) (by decide +kernel)
  exact ⟨trace, s, hrun, of_decide_eq_true hfound, (serialTx_of_run hrun).1⟩

/-- A writer that comes between the push and the test of another hands over its own buffer, which is then handed over again; the other buffer is
reported complete and never handed over. -/
theorem serialTx_raced : ∃ trace s, Run stepSerialTx (fun _ _ => True) (SerialTx.init fun _ => ⟨0, 0⟩) trace s ∧
    pushedItems trace = [⟨1, 4⟩, ⟨2, 4⟩] ∧ transmittedItems trace = [⟨2, 4⟩, ⟨2, 4⟩] ∧ finishedItems trace = [⟨2, 4⟩] ∧
    completedItems trace = [some ⟨1, 4⟩] := by
  obtain ⟨trace, s, hrun, hfound⟩ := exists_serialTx_run (fun _ _ => True)
    [.write 1 ⟨1, 4⟩, .write 2 ⟨2, 4⟩, .test 2, .transmit 2, .test 1, .dmaDone]
    (fun trace _ => decide (pushedItems trace = [⟨1, 4⟩, ⟨2, 4⟩] ∧ transmittedItems trace = [⟨2, 4⟩, ⟨2, 4⟩] ∧
      finishedItems trace = [⟨2, 4⟩] ∧ completedItems trace = [some ⟨1, 4⟩])) (by decide +kernel)
  exact ⟨trace, s, hrun, of_decide_eq_true hfound⟩

end RtThread
