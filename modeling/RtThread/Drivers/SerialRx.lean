import RtThread.Lib.Ring
import RtThread.Lib.Transition

/-!
# Receiving by DMA

The receive FIFO of `serial.c` in DMA mode, for a device with a buffer: the DMA stores what it receives in the buffer, in a circle, and reports how much; reads take it out. What the FIFO holds is compared with all the bytes that were received.
-/

namespace RtThread

open Transition Ring

/-- `struct rt_serial_rx_fifo`; the indices have 16 bits. -/
structure SerialRxFifo where
  buffer : Nat → UInt8
  putIndex : Nat
  getIndex : Nat
  isFull : Bool

variable (bufsz : Nat)

def serialFifoCalcRecvedLen (rxFifo : SerialRxFifo) : Nat :=
  if rxFifo.putIndex = rxFifo.getIndex then
    if rxFifo.isFull = false then 0 else bufsz
  else if rxFifo.putIndex > rxFifo.getIndex then rxFifo.putIndex - rxFifo.getIndex
  else bufsz - (rxFifo.getIndex - rxFifo.putIndex)

def rtDmaCalcRecvedLen (rxFifo : SerialRxFifo) : Nat := serialFifoCalcRecvedLen bufsz rxFifo

/-- `rt_dma_recv_update_get_index`, and nothing where its assertion fails. -/
def rtDmaRecvUpdateGetIndex (rxFifo : SerialRxFifo) (len : Nat) : Option SerialRxFifo :=
  if len ≤ rtDmaCalcRecvedLen bufsz rxFifo then
    let isFull := if rxFifo.isFull = true ∧ len ≠ 0 then false else rxFifo.isFull
    let getIndex := (rxFifo.getIndex + len) % 65536
    some { rxFifo with isFull, getIndex := if getIndex ≥ bufsz then getIndex % bufsz else getIndex }
  else none

def rtDmaRecvUpdatePutIndex (rxFifo : SerialRxFifo) (len : Nat) : SerialRxFifo :=
  let putIndex := (rxFifo.putIndex + len) % 65536
  let (putIndex, isFull) :=
    if rxFifo.getIndex ≤ rxFifo.putIndex then
      -- "beyond the fifo end"
      if putIndex ≥ bufsz then
        -- "force overwrite get index"
        (putIndex % bufsz, if putIndex % bufsz ≥ rxFifo.getIndex then true else rxFifo.isFull)
      else (putIndex, rxFifo.isFull)
    else if putIndex ≥ rxFifo.getIndex then (if putIndex ≥ bufsz then putIndex % bufsz else putIndex, true)
    else (putIndex, rxFifo.isFull)
  let getIndex := if isFull = true then putIndex else rxFifo.getIndex
  { rxFifo with putIndex, isFull, getIndex := if getIndex ≥ bufsz then 0 else getIndex }

/-- `_serial_dma_rx` with a buffer: the bytes that are copied to `data`; it returns how many. The comparison of `length` is unsigned. -/
def serialDmaRx (rxFifo : SerialRxFifo) (length : Nat) : Option (List UInt8 × SerialRxFifo) :=
  let fifoRecvedLen := rtDmaCalcRecvedLen bufsz rxFifo
  let recvLen := if length < fifoRecvedLen then length else fifoRecvedLen
  let data :=
    if rxFifo.getIndex + recvLen < bufsz then (List.range recvLen).map fun i => rxFifo.buffer (rxFifo.getIndex + i)
    else
      (List.range (bufsz - rxFifo.getIndex)).map (fun i => rxFifo.buffer (rxFifo.getIndex + i)) ++
        (List.range (recvLen + rxFifo.getIndex - bufsz)).map rxFifo.buffer
  (rtDmaRecvUpdateGetIndex bufsz rxFifo recvLen).map fun rxFifo => (data, rxFifo)

/-- `rt_serial_read` in DMA mode -/
def rtSerialRead (rxFifo : SerialRxFifo) (size : Nat) : Option (List UInt8 × SerialRxFifo) :=
  if size = 0 then some ([], rxFifo) else serialDmaRx bufsz rxFifo size

/-- The FIFO that `rt_serial_open` makes. -/
def openSerialRx : SerialRxFifo := ⟨fun _ => 0, 0, 0, false⟩

/-! ## Reports and reads -/

structure SerialDma where
  fifo : SerialRxFifo
  stored : Nat

inductive SerialRxOp
  /-- `RT_SERIAL_EVENT_RX_DMADONE`, when the DMA has stored `bytes` -/
  | dmaDone (bytes : List UInt8)
  | read (size : Nat)
  deriving DecidableEq

inductive SerialRxEvent
  | received (bytes : List UInt8) (length : Nat)
  | read (size : Nat) (bytes : List UInt8)
  deriving DecidableEq

def stepSerialRx (s : SerialDma) : SerialRxOp → Option (SerialDma × List SerialRxEvent)
  | .dmaDone bytes =>
    let rxFifo := rtDmaRecvUpdatePutIndex bufsz { s.fifo with buffer := store bufsz s.fifo.buffer s.stored bytes } bytes.length
    some (⟨rxFifo, s.stored + bytes.length⟩, [.received bytes (rtDmaCalcRecvedLen bufsz rxFifo)])
  | .read size => (rtSerialRead bufsz s.fifo size).map fun (bytes, rxFifo) => (⟨rxFifo, s.stored⟩, [.read size bytes])

def ReportFits : SerialRxOp → Prop
  | .dmaDone bytes => bytes.length ≤ bufsz
  | .read _ => True

/-- All that was received, and the place behind the last byte that was read. -/
structure Reception where
  received : List UInt8
  next : Nat
  deriving DecidableEq

def Reception.unread (r : Reception) : Nat := r.received.length - r.next

def Reception.held (r : Reception) : List UInt8 := r.received.rtake (min bufsz r.unread)

def stepReception (r : Reception) : SerialRxOp → Option (Reception × List SerialRxEvent)
  | .dmaDone bytes =>
    let r := { r with received := r.received ++ bytes }
    some (r, [.received bytes (r.held bufsz).length])
  | .read size =>
    let bytes := (r.held bufsz).take size
    some ({ r with next := if bytes = [] then r.next else r.received.length - (r.held bufsz).length + bytes.length }, [.read size bytes])

/-! ## The indices -/

variable {bufsz : Nat} {rxFifo : SerialRxFifo} {stored n m : Nat} {q : List UInt8}

/-- The FIFO holds `n` bytes, and the DMA has stored `stored` bytes. -/
structure SerialRxIndex (bufsz : Nat) (rxFifo : SerialRxFifo) (stored n : Nat) : Prop where
  get_lt : rxFifo.getIndex < bufsz
  put : rxFifo.putIndex = (rxFifo.getIndex + n) % bufsz
  stored : rxFifo.putIndex = stored % bufsz
  count : n ≤ bufsz
  full : rxFifo.isFull = true ↔ n = bufsz

theorem SerialRxIndex.place (h : SerialRxIndex bufsz rxFifo stored n) :
    rxFifo.putIndex < bufsz ∧
      (rxFifo.putIndex = rxFifo.getIndex + n ∨ rxFifo.putIndex + bufsz = rxFifo.getIndex + n) := by
  have hget := h.get_lt
  have hcount := h.count
  rw [h.put]
  refine ⟨Nat.mod_lt _ (Nat.zero_lt_of_lt hget), ?_⟩
  by_cases hwrap : rxFifo.getIndex + n < bufsz
  · exact .inl (Nat.mod_eq_of_lt hwrap)
  · rw [Nat.mod_eq_sub_mod (Nat.le_of_not_lt hwrap), Nat.mod_eq_of_lt (by omega)]
    omega

theorem SerialRxIndex.recvedLen (h : SerialRxIndex bufsz rxFifo stored n) : rtDmaCalcRecvedLen bufsz rxFifo = n := by
  obtain ⟨hput, hplace⟩ := h.place
  have hget := h.get_lt
  have hcount := h.count
  have hfull := h.full
  rw [rtDmaCalcRecvedLen, serialFifoCalcRecvedLen]
  by_cases hsame : rxFifo.putIndex = rxFifo.getIndex
  · rw [if_pos hsame]
    cases hflag : rxFifo.isFull with
    | false =>
      have hne : n ≠ bufsz := fun heq => by simp [hflag] at hfull; exact hfull heq
      rw [if_pos rfl]
      omega
    | true =>
      rw [if_neg (by simp)]
      exact (hfull.1 hflag).symm
  rw [if_neg hsame]
  split_ifs <;> omega

theorem SerialRxIndex.updatePut (h : SerialRxIndex bufsz rxFifo stored n) (hbufsz : bufsz ≤ 32767) (hm : m ≤ bufsz) :
    rtDmaRecvUpdatePutIndex bufsz rxFifo m =
      { rxFifo with
        putIndex := (stored + m) % bufsz
        isFull := decide (bufsz ≤ n + m)
        getIndex := if bufsz ≤ n + m then (stored + m) % bufsz else rxFifo.getIndex } := by
  obtain ⟨hput, hplace⟩ := h.place
  have hget := h.get_lt
  have hcount := h.count
  have hfull := h.full
  have hmoved : (stored + m) % bufsz = if rxFifo.putIndex + m < bufsz then rxFifo.putIndex + m else rxFifo.putIndex + m - bufsz := by
    rw [Nat.add_mod, ← h.stored, Nat.add_mod_mod]
    split_ifs with hlt
    · exact Nat.mod_eq_of_lt hlt
    · rw [Nat.mod_eq_sub_mod (Nat.le_of_not_lt hlt), Nat.mod_eq_of_lt (by omega)]
  have hwrap : rxFifo.putIndex + m ≥ bufsz → (rxFifo.putIndex + m) % bufsz = rxFifo.putIndex + m - bufsz := fun hge => by
    rw [Nat.mod_eq_sub_mod hge, Nat.mod_eq_of_lt (by omega)]
  have hword : (rxFifo.putIndex + m) % 65536 = rxFifo.putIndex + m := Nat.mod_eq_of_lt (by omega)
  have hflag : rxFifo.isFull = decide (n = bufsz) := by
    rw [Bool.eq_iff_iff, decide_eq_true_iff]
    exact hfull
  -- behind the reader the put index gets by where the bytes do not fit
  have hpair : (if rxFifo.getIndex ≤ rxFifo.putIndex then
      if rxFifo.putIndex + m ≥ bufsz then
        ((rxFifo.putIndex + m) % bufsz, if (rxFifo.putIndex + m) % bufsz ≥ rxFifo.getIndex then true else rxFifo.isFull)
      else (rxFifo.putIndex + m, rxFifo.isFull)
    else if rxFifo.putIndex + m ≥ rxFifo.getIndex then
      (if rxFifo.putIndex + m ≥ bufsz then (rxFifo.putIndex + m) % bufsz else rxFifo.putIndex + m, true)
    else (rxFifo.putIndex + m, rxFifo.isFull)) =
      (if rxFifo.putIndex + m < bufsz then rxFifo.putIndex + m else rxFifo.putIndex + m - bufsz, decide (bufsz ≤ n + m)) := by
    rw [hflag]
    by_cases hge : rxFifo.putIndex + m ≥ bufsz
    · rw [if_pos hge, if_pos hge, hwrap hge, if_neg (Nat.not_lt.2 hge)]
      split_ifs <;> simp <;> omega
    · rw [if_neg hge, if_neg hge, if_pos (Nat.lt_of_not_le hge)]
      split_ifs <;> simp <;> omega
  have hlt : (stored + m) % bufsz < bufsz := Nat.mod_lt _ (Nat.zero_lt_of_lt hget)
  rw [rtDmaRecvUpdatePutIndex]
  dsimp only
  rw [hword, hpair, ← hmoved]
  dsimp only
  by_cases hover : bufsz ≤ n + m
  · rw [decide_eq_true hover, if_pos rfl, if_pos hover, if_neg (Nat.not_le.2 hlt)]
  · rw [decide_eq_false hover, if_neg Bool.false_ne_true, if_neg hover, if_neg (Nat.not_le.2 hget)]

theorem SerialRxIndex.updateGet (h : SerialRxIndex bufsz rxFifo stored n) (hbufsz : bufsz ≤ 32767) (hm : m ≤ n) :
    rtDmaRecvUpdateGetIndex bufsz rxFifo m =
      some { rxFifo with getIndex := (rxFifo.getIndex + m) % bufsz, isFull := decide (n - m = bufsz) } := by
  have hget := h.get_lt
  have hcount := h.count
  have hword : (rxFifo.getIndex + m) % 65536 = rxFifo.getIndex + m := Nat.mod_eq_of_lt (by omega)
  have hmoved : (if rxFifo.getIndex + m ≥ bufsz then (rxFifo.getIndex + m) % bufsz else rxFifo.getIndex + m) =
      (rxFifo.getIndex + m) % bufsz := by
    split_ifs with hge
    · rfl
    · exact (Nat.mod_eq_of_lt (Nat.lt_of_not_le hge)).symm
  have hflag : (if rxFifo.isFull = true ∧ m ≠ 0 then false else rxFifo.isFull) = decide (n - m = bufsz) := by
    have hfull := h.full
    by_cases hzero : m = 0
    · rw [if_neg (fun hno => hno.2 hzero), hzero, Nat.sub_zero, Bool.eq_iff_iff, decide_eq_true_iff]
      exact hfull
    · rw [decide_eq_false (by omega)]
      split_ifs with htaken
      · rfl
      · exact Bool.eq_false_iff.2 fun hno => htaken ⟨hno, hzero⟩
  rw [rtDmaRecvUpdateGetIndex, h.recvedLen, if_pos hm]
  dsimp only
  rw [hword, hmoved, hflag]

/-- The FIFO holds `q`, in the order of its reception. -/
structure HoldsBytes (bufsz : Nat) (rxFifo : SerialRxFifo) (stored : Nat) (q : List UInt8) : Prop where
  index : SerialRxIndex bufsz rxFifo stored q.length
  bytes : slice bufsz rxFifo.buffer rxFifo.getIndex q.length = q

theorem HoldsBytes.dmaDone (h : HoldsBytes bufsz rxFifo stored q) (hbufsz : bufsz ≤ 32767) {bytes : List UInt8}
    (hfits : bytes.length ≤ bufsz) :
    HoldsBytes bufsz (rtDmaRecvUpdatePutIndex bufsz { rxFifo with buffer := store bufsz rxFifo.buffer stored bytes } bytes.length)
      (stored + bytes.length) ((q ++ bytes).rtake bufsz) := by
  have hget := h.index.get_lt
  have hcount := h.index.count
  have hpos : 0 < bufsz := Nat.zero_lt_of_lt hget
  have hlength : ((q ++ bytes).rtake bufsz).length = min (q.length + bytes.length) bufsz := by
    rw [length_rtake, List.length_append, Nat.min_comm]
  have hplace : (rxFifo.getIndex + q.length) % bufsz = stored % bufsz := by rw [← h.index.put, h.index.stored]
  have hmoved : (rxFifo.getIndex + (q.length + bytes.length)) % bufsz = (stored + bytes.length) % bufsz := by
    rw [← Nat.add_assoc]
    exact Nat.ModEq.add_right _ hplace
  have hstore := @slice_store _ bufsz rxFifo.getIndex q.length rxFifo.buffer hpos bytes hcount
  rw [h.bytes, store_congr_start hplace] at hstore
  have hindex : SerialRxIndex bufsz { rxFifo with buffer := store bufsz rxFifo.buffer stored bytes } stored q.length :=
    ⟨hget, h.index.put, h.index.stored, hcount, h.index.full⟩
  rw [hindex.updatePut hbufsz hfits]
  by_cases hover : bufsz ≤ q.length + bytes.length
  · rw [Nat.min_eq_right hover] at hlength hstore
    rw [if_pos hover, decide_eq_true hover]
    refine ⟨⟨Nat.mod_lt _ hpos, ?_, rfl, Nat.le_of_eq hlength, ?_⟩, ?_⟩
    · rw [hlength, Nat.add_mod_right, Nat.mod_mod]
    · rw [hlength]
      exact iff_of_true rfl rfl
    · rw [hlength, ← hstore]
      refine slice_congr_start ?_
      have hround : rxFifo.getIndex + (q.length + bytes.length) = rxFifo.getIndex + (q.length + bytes.length - bufsz) + bufsz := by omega
      rw [Nat.mod_mod, ← hmoved, hround, Nat.add_mod_right]
  · rw [Nat.min_eq_left (Nat.le_of_not_le hover)] at hlength hstore
    rw [if_neg hover, decide_eq_false hover]
    refine ⟨⟨hget, ?_, rfl, ?_, ?_⟩, ?_⟩
    · rw [hlength]
      exact hmoved.symm
    · omega
    · rw [hlength]
      exact iff_of_false Bool.false_ne_true (by omega)
    · rw [hlength, ← hstore, Nat.sub_self, Nat.add_zero]

theorem HoldsBytes.read (h : HoldsBytes bufsz rxFifo stored q) (hbufsz : bufsz ≤ 32767) (size : Nat) :
    ∃ rxFifo', rtSerialRead bufsz rxFifo size = some (q.take size, rxFifo') ∧ HoldsBytes bufsz rxFifo' stored (q.drop size) := by
  have hget := h.index.get_lt
  have hcount := h.index.count
  have hpos : 0 < bufsz := Nat.zero_lt_of_lt hget
  rw [rtSerialRead]
  by_cases hzero : size = 0
  · rw [if_pos hzero, hzero]
    exact ⟨rxFifo, rfl, h⟩
  rw [if_neg hzero, serialDmaRx, h.index.recvedLen]
  have hrecv : (if size < q.length then size else q.length) = min size q.length := by
    split_ifs <;> omega
  rw [hrecv]
  obtain ⟨k, hk⟩ : ∃ k, min size q.length = k := ⟨_, rfl⟩
  rw [List.take_eq_take_min, List.drop_eq_drop_min, hk, h.index.updateGet hbufsz (by omega), Option.map_some]
  have hsplit : q.length = k + (q.length - k) := by omega
  have hbytes := h.bytes
  rw [hsplit, slice_add] at hbytes
  have hfirst : slice bufsz rxFifo.buffer rxFifo.getIndex k = q.take k := by
    rw [← hbytes, List.take_left' length_slice]
  have hrest : slice bufsz rxFifo.buffer (rxFifo.getIndex + k) (q.length - k) = q.drop k := by
    rw [← hbytes, List.drop_left' length_slice, hbytes]
  have hdata : (if rxFifo.getIndex + k < bufsz then (List.range k).map fun i => rxFifo.buffer (rxFifo.getIndex + i)
      else (List.range (bufsz - rxFifo.getIndex)).map (fun i => rxFifo.buffer (rxFifo.getIndex + i)) ++
        (List.range (k + rxFifo.getIndex - bufsz)).map rxFifo.buffer) = q.take k := by
    rw [← hfirst]
    split_ifs with hlt
    · exact (slice_of_le (Nat.le_of_lt hlt)).symm
    · rw [Nat.add_comm k, slice_of_ge (Nat.le_of_lt hget) (Nat.le_of_not_lt hlt) (by omega)]
  rw [hdata]
  refine ⟨_, rfl, ⟨Nat.mod_lt _ hpos, ?_, h.index.stored, ?_, ?_⟩, ?_⟩
  · rw [List.length_drop, h.index.put, Nat.mod_add_mod, Nat.add_assoc, ← hsplit]
  · rw [List.length_drop]
    omega
  · rw [List.length_drop]
    exact decide_eq_true_iff
  · rw [List.length_drop, slice_mod]
    exact hrest

/-! ## Refinement -/

variable {s s' : SerialDma} {r : Reception} {op : SerialRxOp} {events : List SerialRxEvent}

theorem Reception.length_held (r : Reception) : (r.held bufsz).length = min bufsz r.unread := by
  have hle : r.unread ≤ r.received.length := Nat.sub_le _ _
  rw [Reception.held, length_rtake]
  omega

theorem Reception.held_append (bytes : List UInt8) (hnext : r.next ≤ r.received.length) :
    (r.held bufsz ++ bytes).rtake bufsz = Reception.held bufsz { r with received := r.received ++ bytes } := by
  have hle : min bufsz r.unread ≤ r.received.length := Nat.le_trans (Nat.min_le_right _ _) (Nat.sub_le _ _)
  have hunread : min (min bufsz r.unread + bytes.length) bufsz = min bufsz ((r.received ++ bytes).length - r.next) := by
    rw [Reception.unread, List.length_append]
    omega
  rw [Reception.held, ← rtake_append hle, rtake_rtake, hunread]
  rfl

theorem Reception.held_drop (size : Nat) :
    (r.held bufsz).drop size = Reception.held bufsz
      { r with next := r.received.length - (r.held bufsz).length + ((r.held bufsz).take size).length } := by
  have hlength : (r.held bufsz).length = _ := r.length_held
  have hle : r.unread ≤ r.received.length := Nat.sub_le _ _
  have hunread : min bufsz (r.received.length - (r.received.length - (r.held bufsz).length + ((r.held bufsz).take size).length)) =
      (r.held bufsz).length - min size (r.held bufsz).length := by
    rw [List.length_take]
    omega
  rw [List.drop_eq_drop_min]
  change _ = r.received.rtake (min bufsz (r.received.length - _))
  rw [hunread, hlength, Reception.held, List.rtake, List.rtake, List.drop_drop]
  congr 1
  omega

structure Receives (bufsz : Nat) (s : SerialDma) (r : Reception) : Prop where
  next : r.next ≤ r.received.length
  stored : s.stored = r.received.length
  holds : HoldsBytes bufsz s.fifo s.stored (r.held bufsz)

theorem Receives.start (hpos : 0 < bufsz) : Receives bufsz ⟨openSerialRx, 0⟩ ⟨[], 0⟩ := by
  have hheld : Reception.held bufsz ⟨[], 0⟩ = [] := List.drop_nil
  refine ⟨Nat.le_refl _, rfl, ?_⟩
  rw [hheld]
  exact ⟨⟨hpos, (Nat.zero_mod _).symm, (Nat.zero_mod _).symm, Nat.zero_le _, iff_of_false Bool.false_ne_true (Nat.ne_of_lt hpos)⟩, rfl⟩

theorem Receives.step (h : Receives bufsz s r) (hbufsz : bufsz ≤ 32767) (hfits : ReportFits bufsz op)
    (hs : stepSerialRx bufsz s op = some (s', events)) :
    ∃ r', stepReception bufsz r op = some (r', events) ∧ Receives bufsz s' r' := by
  cases op with
  | dmaDone bytes =>
    have hholds := h.holds.dmaDone hbufsz hfits
    rw [Reception.held_append bytes h.next] at hholds
    obtain ⟨rfl, rfl⟩ := Prod.mk.inj (Option.some.inj hs)
    refine ⟨{ r with received := r.received ++ bytes }, ?_, ?_, ?_, hholds⟩
    · rw [hholds.index.recvedLen]
      rfl
    · exact Nat.le_trans h.next (by simp)
    · rw [List.length_append, h.stored]
  | read size =>
    obtain ⟨rxFifo', hread, hholds⟩ := h.holds.read hbufsz size
    rw [stepSerialRx, hread, Option.map_some] at hs
    obtain ⟨rfl, rfl⟩ := Prod.mk.inj (Option.some.inj hs)
    refine ⟨_, rfl, ?_, h.stored, ?_⟩
    · dsimp only
      split_ifs with hempty
      · exact h.next
      · rw [List.length_take, r.length_held]
        have hle : r.unread ≤ r.received.length := Nat.sub_le _ _
        omega
    · by_cases hempty : (r.held bufsz).take size = []
      · rw [if_pos hempty]
        have hdrop := List.take_append_drop size (r.held bufsz)
        rw [hempty, List.nil_append] at hdrop
        rwa [hdrop] at hholds
      · rw [if_neg hempty]
        rwa [Reception.held_drop size] at hholds

/-- In every run of reports and reads the FIFO holds the newest of the unread bytes, as many as the buffer has room for. Reads give them in the
order of their reception, their number is what is calculated, the flag says whether the buffer is full, and no read fails. -/
theorem serialRx_of_run {trace : List SerialRxEvent} (hpos : 0 < bufsz) (hbufsz : bufsz ≤ 32767)
    (hrun : Run (stepSerialRx bufsz) (fun _ op => ReportFits bufsz op) ⟨openSerialRx, 0⟩ trace s) :
    ∃ r, Run (stepReception bufsz) (fun _ _ => True) ⟨[], 0⟩ trace r ∧
      slice bufsz s.fifo.buffer s.fifo.getIndex (rtDmaCalcRecvedLen bufsz s.fifo) = r.held bufsz ∧
      rtDmaCalcRecvedLen bufsz s.fifo = min bufsz r.unread ∧ (s.fifo.isFull = true ↔ bufsz ≤ r.unread) ∧
      ∀ size, (stepSerialRx bufsz s (.read size)).isSome = true := by
  obtain ⟨r, hr, h⟩ := hrun.refines (Receives.start hpos) fun _ _ op _ _ h hfits hs => by
    obtain ⟨r', hr', h'⟩ := h.step hbufsz hfits hs
    exact ⟨op, r', hr', h'⟩
  have hlength := h.holds.index.recvedLen
  have hfull := h.holds.index.full
  refine ⟨r, hr, ?_, ?_, ?_, fun size => ?_⟩
  · rw [hlength]
    exact h.holds.bytes
  · rw [hlength, r.length_held]
  · rw [hfull, r.length_held]
    omega
  · obtain ⟨rxFifo', hread, -⟩ := h.holds.read hbufsz size
    rw [stepSerialRx, hread, Option.map_some, Option.isSome_some]

/-- Of five bytes that are received before a read, a buffer of four keeps the newest. -/
theorem serialRx_of_run_overwritten :
    ∃ r, Run (stepReception 4) (fun _ _ => True) ⟨[], 0⟩
      [.received [1, 2, 3] 3, .received [4, 5] 4, .read 3 [2, 3, 4], .received [6] 2] r := by
  have hstart : Run (stepSerialRx 4) (fun _ op => ReportFits 4 op) ⟨openSerialRx, 0⟩ [] ⟨openSerialRx, 0⟩ := .start
  have hfirst := hstart.next (a := .dmaDone [1, 2, 3]) (by exact (by decide : 3 ≤ 4)) rfl
  have hsecond := hfirst.next (a := .dmaDone [4, 5]) (by exact (by decide : 2 ≤ 4)) rfl
  have hread := hsecond.next (a := .read 3) (by exact trivial) rfl
  have hthird := hread.next (a := .dmaDone [6]) (by exact (by decide : 1 ≤ 4)) rfl
  obtain ⟨r, hr, -⟩ := serialRx_of_run (by decide) (by decide) hthird
  exact ⟨r, hr⟩

end RtThread
