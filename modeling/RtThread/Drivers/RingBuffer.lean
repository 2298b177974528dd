import RtThread.Lib.Ring
import RtThread.Lib.Transition

/-!
# Ring buffers

`ringbuffer.c`. The indices stay within the buffer, and a mirror bit beside each flips when the index wraps: where the indices are equal, the buffer is empty if the bits agree and full if they differ.
-/

namespace RtThread

open Function Ring

/-- `struct rt_ringbuffer`: the mirrors have one bit and the indices 15. -/
structure RingBuffer where
  bufferPtr : Nat → UInt8
  readMirror : Bool
  readIndex : Nat
  writeMirror : Bool
  writeIndex : Nat
  bufferSize : Nat

inductive RingBufferState
  | empty | full | halffull
  deriving DecidableEq

def rtRingbufferStatus (rb : RingBuffer) : RingBufferState :=
  if rb.readIndex = rb.writeIndex then
    if rb.readMirror = rb.writeMirror then .empty else .full
  else .halffull

def rtRingbufferDataLen (rb : RingBuffer) : Nat :=
  match rtRingbufferStatus rb with
  | .empty => 0
  | .full => rb.bufferSize
  | .halffull =>
    if rb.readIndex < rb.writeIndex then rb.writeIndex - rb.readIndex
    else rb.bufferSize - (rb.readIndex - rb.writeIndex)

def rtRingbufferSpaceLen (rb : RingBuffer) : Nat := rb.bufferSize - rtRingbufferDataLen rb

/-- `rt_ringbuffer_init`, with the size as a positive 16-bit number, and `RT_ALIGN_DOWN` to four bytes. -/
def rtRingbufferInit (pool : Nat → UInt8) (size : Nat) : Option RingBuffer :=
  if 0 < size ∧ size < 32768 then some ⟨pool, false, 0, false, 0, size / 4 * 4⟩ else none

/-- Bytes of `src` are copied to offset `start`. -/
def memcpy (dst : Nat → UInt8) (start : Nat) (src : List UInt8) : Nat → UInt8 :=
  fun i => if start ≤ i then (src[i - start]?).getD (dst i) else dst i

/-- `rt_ringbuffer_put` of the bytes at `ptr`, with the length it returns. -/
def rtRingbufferPut (rb : RingBuffer) (ptr : List UInt8) : Nat × RingBuffer :=
  let size := rtRingbufferSpaceLen rb
  if size = 0 then (0, rb)
  else
    -- "drop some data"
    let length := if size < ptr.length then size else ptr.length
    let rest := rb.bufferSize - rb.writeIndex
    if length < rest then
      (length, { rb with
        bufferPtr := memcpy rb.bufferPtr rb.writeIndex (ptr.take length)
        writeIndex := (rb.writeIndex + length) % 32768 })
    else
      -- "we are going into the other side of the mirror"
      (length, { rb with
        bufferPtr := memcpy (memcpy rb.bufferPtr rb.writeIndex (ptr.take rest)) 0 ((ptr.drop rest).take (length - rest))
        writeMirror := !rb.writeMirror
        writeIndex := (length - rest) % 32768 })

/-- `rt_ringbuffer_get` of at most `length` bytes, with the bytes it copies; it returns how many. -/
def rtRingbufferGet (rb : RingBuffer) (length : Nat) : List UInt8 × RingBuffer :=
  let size := rtRingbufferDataLen rb
  if size = 0 then ([], rb)
  else
    let length := if size < length then size else length
    let rest := rb.bufferSize - rb.readIndex
    if length < rest then
      ((List.range length).map fun i => rb.bufferPtr (rb.readIndex + i),
        { rb with readIndex := (rb.readIndex + length) % 32768 })
    else
      ((List.range rest).map (fun i => rb.bufferPtr (rb.readIndex + i)) ++ (List.range (length - rest)).map rb.bufferPtr,
        { rb with
          readMirror := !rb.readMirror
          readIndex := (length - rest) % 32768 })

def rtRingbufferPutchar (rb : RingBuffer) (ch : UInt8) : Nat × RingBuffer :=
  if rtRingbufferSpaceLen rb = 0 then (0, rb)
  else
    let bufferPtr := update rb.bufferPtr rb.writeIndex ch
    if rb.writeIndex = rb.bufferSize - 1 then (1, { rb with bufferPtr, writeMirror := !rb.writeMirror, writeIndex := 0 })
    else (1, { rb with bufferPtr, writeIndex := (rb.writeIndex + 1) % 32768 })

def rtRingbufferGetchar (rb : RingBuffer) : Option UInt8 × RingBuffer :=
  if rtRingbufferDataLen rb = 0 then (none, rb)
  else
    let ch := rb.bufferPtr rb.readIndex
    if rb.readIndex = rb.bufferSize - 1 then (some ch, { rb with readMirror := !rb.readMirror, readIndex := 0 })
    else (some ch, { rb with readIndex := (rb.readIndex + 1) % 32768 })

def rtRingbufferReset (rb : RingBuffer) : RingBuffer :=
  { rb with readMirror := false, readIndex := 0, writeMirror := false, writeIndex := 0 }

/-! ## The ring buffer as a state machine -/

inductive RbOp
  | put (ptr : List UInt8)
  | get (length : Nat)
  | putchar (ch : UInt8)
  | getchar
  | reset
  | dataLen
  | status
  deriving DecidableEq

inductive RbEvent
  | put (ptr : List UInt8) (length : Nat)
  | get (length : Nat) (bytes : List UInt8)
  | putchar (ch : UInt8) (length : Nat)
  | getchar (ch : Option UInt8)
  | reset
  | dataLen (length : Nat)
  | status (state : RingBufferState)
  deriving DecidableEq

def stepRb (rb : RingBuffer) : RbOp → Option (RingBuffer × List RbEvent)
  | .put ptr =>
    if ptr.length < 65536 then some ((rtRingbufferPut rb ptr).2, [.put ptr (rtRingbufferPut rb ptr).1]) else none
  | .get length =>
    if length < 65536 then some ((rtRingbufferGet rb length).2, [.get length (rtRingbufferGet rb length).1]) else none
  | .putchar ch => some ((rtRingbufferPutchar rb ch).2, [.putchar ch (rtRingbufferPutchar rb ch).1])
  | .getchar => some ((rtRingbufferGetchar rb).2, [.getchar (rtRingbufferGetchar rb).1])
  | .reset => some (rtRingbufferReset rb, [.reset])
  | .dataLen => some (rb, [.dataLen (rtRingbufferDataLen rb)])
  | .status => some (rb, [.status (rtRingbufferStatus rb)])

/-! ## A bounded queue of bytes -/

/-- What the calls do to a queue of bytes with room for `capacity`. -/
def stepFifo (capacity : Nat) (q : List UInt8) : RbOp → Option (List UInt8 × List RbEvent)
  | .put ptr => some (q ++ ptr.take (capacity - q.length), [.put ptr (ptr.take (capacity - q.length)).length])
  | .get length => some (q.drop length, [.get length (q.take length)])
  | .putchar ch => if q.length < capacity then some (q ++ [ch], [.putchar ch 1]) else some (q, [.putchar ch 0])
  | .getchar => some (q.tail, [.getchar q.head?])
  | .reset => some ([], [.reset])
  | .dataLen => some (q, [.dataLen q.length])
  | .status => some (q, [.status (if q = [] then .empty else if q.length = capacity then .full else .halffull)])

/-! ## Refinement -/

variable {rb : RingBuffer} {op : RbOp} {n length : Nat} {ptr : List UInt8} {ch : UInt8} {trace : List RbEvent}

/-- The buffer holds `n` bytes: the write index is `n` places on, in the other mirror where it has wrapped. -/
structure RingBufferInv (rb : RingBuffer) (n : Nat) : Prop where
  small : rb.bufferSize < 32768
  count : n ≤ rb.bufferSize
  read : rb.readIndex < rb.bufferSize ∨ rb.bufferSize = 0 ∧ rb.readIndex = 0
  same : rb.readIndex + n < rb.bufferSize ∨ n = 0 → rb.writeIndex = rb.readIndex + n ∧ rb.writeMirror = rb.readMirror
  wrapped : rb.bufferSize ≤ rb.readIndex + n → n ≠ 0 →
    rb.writeIndex + rb.bufferSize = rb.readIndex + n ∧ rb.writeMirror = !rb.readMirror

def RingBuffer.contents (rb : RingBuffer) : List UInt8 :=
  slice rb.bufferSize rb.bufferPtr rb.readIndex (rtRingbufferDataLen rb)

theorem RingBufferInv.status (h : RingBufferInv rb n) : rtRingbufferStatus rb =
    if n = 0 then .empty else if n = rb.bufferSize then .full else .halffull := by
  have hcount := h.count
  unfold rtRingbufferStatus
  by_cases hn : n = 0
  · obtain ⟨hindex, hmirror⟩ := h.same (.inr hn)
    rw [if_pos hn, if_pos (by omega), if_pos hmirror.symm]
  · rw [if_neg hn]
    by_cases hwrap : rb.readIndex + n < rb.bufferSize
    · obtain ⟨hindex, -⟩ := h.same (.inl hwrap)
      rw [if_neg (by omega), if_neg (by omega)]
    · obtain ⟨hindex, hmirror⟩ := h.wrapped (by omega) hn
      by_cases hfull : n = rb.bufferSize
      · rw [if_pos hfull, if_pos (by omega), if_neg]
        rw [hmirror]
        cases rb.readMirror <;> decide
      · rw [if_neg hfull, if_neg (by omega)]

theorem RingBufferInv.dataLen (h : RingBufferInv rb n) : rtRingbufferDataLen rb = n := by
  have hcount := h.count
  have hread := h.read
  rw [rtRingbufferDataLen, h.status]
  by_cases hn : n = 0
  · rw [if_pos hn]
    exact hn.symm
  rw [if_neg hn]
  by_cases hfull : n = rb.bufferSize
  · rw [if_pos hfull]
    exact hfull.symm
  rw [if_neg hfull]
  by_cases hwrap : rb.readIndex + n < rb.bufferSize
  · obtain ⟨hindex, -⟩ := h.same (.inl hwrap)
    have hlt : rb.readIndex < rb.writeIndex := by omega
    simp only [if_pos hlt]
    omega
  · obtain ⟨hindex, -⟩ := h.wrapped (by omega) hn
    have hlt : ¬ rb.readIndex < rb.writeIndex := by omega
    simp only [if_neg hlt]
    omega

theorem RingBufferInv.spaceLen (h : RingBufferInv rb n) : rtRingbufferSpaceLen rb = rb.bufferSize - n := by
  rw [rtRingbufferSpaceLen, h.dataLen]

theorem RingBufferInv.contents (h : RingBufferInv rb n) : rb.contents = slice rb.bufferSize rb.bufferPtr rb.readIndex n := by
  rw [RingBuffer.contents, h.dataLen]

theorem RingBufferInv.writeIndex (h : RingBufferInv rb n) (hsize : rb.bufferSize ≠ 0) :
    rb.writeIndex < rb.bufferSize ∧ (rb.writeIndex = rb.readIndex + n ∨ rb.writeIndex + rb.bufferSize = rb.readIndex + n) := by
  have hread := h.read
  have hcount := h.count
  by_cases hn : n = 0
  · obtain ⟨hindex, -⟩ := h.same (.inr hn)
    omega
  by_cases hwrap : rb.readIndex + n < rb.bufferSize
  · obtain ⟨hindex, -⟩ := h.same (.inl hwrap)
    omega
  · obtain ⟨hindex, -⟩ := h.wrapped (by omega) hn
    omega

theorem RingBufferInv.cell (h : RingBufferInv rb n) {i : Nat} (hi : i < rb.bufferSize) :
    (rb.readIndex + n + i) % rb.bufferSize =
      if i < rb.bufferSize - rb.writeIndex then rb.writeIndex + i else i - (rb.bufferSize - rb.writeIndex) := by
  obtain ⟨hlt, hindex⟩ := h.writeIndex (by omega)
  have hmod : (rb.readIndex + n + i) % rb.bufferSize = (rb.writeIndex + i) % rb.bufferSize := by
    rcases hindex with hindex | hindex
    · rw [hindex]
    · rw [← hindex, Nat.add_right_comm, Nat.add_mod_right]
  rw [hmod]
  split_ifs with hrest
  · exact Nat.mod_eq_of_lt (by omega)
  · rw [Nat.mod_eq_sub_mod (by omega), Nat.mod_eq_of_lt (by omega)]
    omega

theorem memcpy_in (dst : Nat → UInt8) (start : Nat) {i : Nat} {src : List UInt8} (hi : i < src.length) :
    memcpy dst start src (start + i) = src[i] := by
  simp [memcpy, List.getElem?_eq_getElem hi]

theorem memcpy_out (dst : Nat → UInt8) {start j : Nat} {src : List UInt8} (hj : j < start ∨ start + src.length ≤ j) :
    memcpy dst start src j = dst j := by
  unfold memcpy
  split_ifs with hle
  · rw [List.getElem?_eq_none (by omega), Option.getD_none]
  · rfl

/-- The part of `rt_ringbuffer_put` behind the test of the space. -/
def RingBuffer.store (rb : RingBuffer) (data : List UInt8) : RingBuffer :=
  let rest := rb.bufferSize - rb.writeIndex
  if data.length < rest then
    { rb with
      bufferPtr := memcpy rb.bufferPtr rb.writeIndex data
      writeIndex := (rb.writeIndex + data.length) % 32768 }
  else
    { rb with
      bufferPtr := memcpy (memcpy rb.bufferPtr rb.writeIndex (data.take rest)) 0 (data.drop rest)
      writeMirror := !rb.writeMirror
      writeIndex := (data.length - rest) % 32768 }

theorem rtRingbufferPut_eq (hspace : rtRingbufferSpaceLen rb ≠ 0) : rtRingbufferPut rb ptr =
    ((ptr.take (rtRingbufferSpaceLen rb)).length, rb.store (ptr.take (rtRingbufferSpaceLen rb))) := by
  have hlength : (if rtRingbufferSpaceLen rb < ptr.length then rtRingbufferSpaceLen rb else ptr.length) =
      (ptr.take (rtRingbufferSpaceLen rb)).length := by
    rw [List.length_take]
    split_ifs <;> omega
  have htake : ptr.take (ptr.take (rtRingbufferSpaceLen rb)).length = ptr.take (rtRingbufferSpaceLen rb) := by
    rw [List.length_take, ← List.take_eq_take_min]
  simp only [rtRingbufferPut, if_neg hspace, hlength, RingBuffer.store]
  generalize hdata : ptr.take (rtRingbufferSpaceLen rb) = data at htake ⊢
  split_ifs with hrest
  · rw [htake]
  · have hfirst : data.take (rb.bufferSize - rb.writeIndex) = ptr.take (rb.bufferSize - rb.writeIndex) := by
      rw [← htake, List.take_take, Nat.min_eq_left (Nat.le_of_not_lt hrest)]
    have hsecond : data.drop (rb.bufferSize - rb.writeIndex) =
        (ptr.drop (rb.bufferSize - rb.writeIndex)).take (data.length - (rb.bufferSize - rb.writeIndex)) := by
      rw [← List.drop_take, htake]
    rw [hfirst, hsecond]

@[simp] theorem RingBuffer.store_bufferSize {data : List UInt8} : (rb.store data).bufferSize = rb.bufferSize := by
  unfold RingBuffer.store
  dsimp only
  split_ifs <;> rfl

@[simp] theorem RingBuffer.store_readIndex {data : List UInt8} : (rb.store data).readIndex = rb.readIndex := by
  unfold RingBuffer.store
  dsimp only
  split_ifs <;> rfl

theorem RingBufferInv.store {data : List UInt8} (h : RingBufferInv rb n) (hspace : rb.bufferSize - n ≠ 0)
    (hroom : n + data.length ≤ rb.bufferSize) : RingBufferInv (rb.store data) (n + data.length) := by
  have hsmall := h.small
  have hread := h.read
  obtain ⟨hwrite, -⟩ := h.writeIndex (by omega)
  refine ⟨by simpa using hsmall, by simpa using hroom, by simpa using hread, ?_, ?_⟩
  all_goals
    rw [RingBuffer.store_bufferSize, RingBuffer.store_readIndex]
    unfold RingBuffer.store
    dsimp only
  · intro hsame
    obtain ⟨hindex, hmirror⟩ := h.same (by omega)
    rw [if_pos (by omega)]
    dsimp only
    exact ⟨by omega, hmirror⟩
  · intro hle hne
    by_cases hold : rb.readIndex + n < rb.bufferSize ∨ n = 0
    · obtain ⟨hindex, hmirror⟩ := h.same hold
      rw [if_neg (by omega)]
      exact ⟨by dsimp only; omega, by rw [hmirror]⟩
    · obtain ⟨hindex, hmirror⟩ := h.wrapped (by omega) (by omega)
      rw [if_pos (by omega)]
      exact ⟨by dsimp only; omega, hmirror⟩

theorem RingBufferInv.slice_store {data : List UInt8} (h : RingBufferInv rb n) (hspace : rb.bufferSize - n ≠ 0)
    (hroom : n + data.length ≤ rb.bufferSize) :
    slice rb.bufferSize (rb.store data).bufferPtr rb.readIndex (n + data.length) =
      slice rb.bufferSize rb.bufferPtr rb.readIndex n ++ data := by
  obtain ⟨hwrite, -⟩ := h.writeIndex (by omega)
  refine slice_append hroom (fun i hi => ?_) fun j hj => ?_
  · rw [h.cell (by omega)]
    unfold RingBuffer.store
    dsimp only
    by_cases hrest : data.length < rb.bufferSize - rb.writeIndex
    · rw [if_pos hrest, if_pos (by omega)]
      exact memcpy_in _ _ hi
    · rw [if_neg hrest]
      by_cases hcell : i < rb.bufferSize - rb.writeIndex
      · rw [if_pos hcell]
        have hin : i < (data.take (rb.bufferSize - rb.writeIndex)).length := by
          rw [List.length_take]
          omega
        have hout : 0 + (data.drop (rb.bufferSize - rb.writeIndex)).length ≤ rb.writeIndex + i := by
          rw [List.length_drop]
          omega
        exact (memcpy_out _ (.inr hout)).trans ((memcpy_in _ _ hin).trans List.getElem_take)
      · rw [if_neg hcell]
        have hin : i - (rb.bufferSize - rb.writeIndex) < (data.drop (rb.bufferSize - rb.writeIndex)).length := by
          rw [List.length_drop]
          omega
        have hcopied := memcpy_in (memcpy rb.bufferPtr rb.writeIndex (data.take (rb.bufferSize - rb.writeIndex))) 0 hin
        rw [Nat.zero_add] at hcopied
        refine hcopied.trans ?_
        rw [List.getElem_drop]
        congr 1
        omega
  · -- a cell that is written is one of the places
    have hcells : ∀ i < data.length, j ≠ if i < rb.bufferSize - rb.writeIndex then rb.writeIndex + i
        else i - (rb.bufferSize - rb.writeIndex) := fun i hi => by
      rw [← h.cell (by omega)]
      exact hj i hi
    unfold RingBuffer.store
    dsimp only
    split_ifs with hrest
    · refine memcpy_out _ ?_
      by_contra hin
      refine hcells (j - rb.writeIndex) (by omega) ?_
      rw [if_pos (by omega)]
      omega
    · have hsecond : j < 0 ∨ 0 + (data.drop (rb.bufferSize - rb.writeIndex)).length ≤ j := by
        by_contra hin
        rw [List.length_drop] at hin
        refine hcells (j + (rb.bufferSize - rb.writeIndex)) (by omega) ?_
        rw [if_neg (by omega)]
        omega
      have hfirst : j < rb.writeIndex ∨ rb.writeIndex + (data.take (rb.bufferSize - rb.writeIndex)).length ≤ j := by
        by_contra hin
        rw [List.length_take] at hin
        refine hcells (j - rb.writeIndex) (by omega) ?_
        rw [if_pos (by omega)]
        omega
      dsimp only
      rw [memcpy_out _ hsecond, memcpy_out _ hfirst]

theorem RingBufferInv.put (h : RingBufferInv rb n) (ptr : List UInt8) :
    (rtRingbufferPut rb ptr).1 = (ptr.take (rb.bufferSize - n)).length ∧
    RingBufferInv (rtRingbufferPut rb ptr).2 (n + (ptr.take (rb.bufferSize - n)).length) ∧
    (rtRingbufferPut rb ptr).2.bufferSize = rb.bufferSize ∧
    (rtRingbufferPut rb ptr).2.contents = rb.contents ++ ptr.take (rb.bufferSize - n) := by
  by_cases hspace : rb.bufferSize - n = 0
  · have hput : rtRingbufferPut rb ptr = (0, rb) := by
      rw [rtRingbufferPut, h.spaceLen]
      exact if_pos hspace
    rw [hput, hspace]
    exact ⟨rfl, h, rfl, (List.append_nil _).symm⟩
  · have hcount := h.count
    have hroom : n + (ptr.take (rb.bufferSize - n)).length ≤ rb.bufferSize := by
      rw [List.length_take]
      omega
    have hstore := h.store hspace hroom
    rw [rtRingbufferPut_eq (h.spaceLen ▸ hspace), h.spaceLen]
    refine ⟨rfl, hstore, RingBuffer.store_bufferSize, ?_⟩
    rw [hstore.contents, h.contents, RingBuffer.store_bufferSize, RingBuffer.store_readIndex]
    exact h.slice_store hspace hroom

/-- The part of `rt_ringbuffer_get` that moves the read index, by `k` bytes. -/
def RingBuffer.drop (rb : RingBuffer) (k : Nat) : RingBuffer :=
  if k < rb.bufferSize - rb.readIndex then { rb with readIndex := (rb.readIndex + k) % 32768 }
  else
    { rb with
      readMirror := !rb.readMirror
      readIndex := (k - (rb.bufferSize - rb.readIndex)) % 32768 }

theorem rtRingbufferGet_drop (hdata : rtRingbufferDataLen rb ≠ 0) :
    (rtRingbufferGet rb length).2 = rb.drop (min (rtRingbufferDataLen rb) length) := by
  have hmin : (if rtRingbufferDataLen rb < length then rtRingbufferDataLen rb else length) =
      min (rtRingbufferDataLen rb) length := by
    split_ifs <;> omega
  simp only [rtRingbufferGet, if_neg hdata, hmin, RingBuffer.drop]
  split_ifs <;> rfl

theorem RingBufferInv.get_bytes (h : RingBufferInv rb n) (hn : n ≠ 0) :
    (rtRingbufferGet rb length).1 = slice rb.bufferSize rb.bufferPtr rb.readIndex (min n length) := by
  have hcount := h.count
  have hread := h.read
  have hmin : (if n < length then n else length) = min n length := by
    split_ifs <;> omega
  simp only [rtRingbufferGet, h.dataLen, if_neg hn, hmin]
  generalize hk : min n length = k
  split_ifs with hrest
  · refine List.map_congr_left fun i hi => ?_
    have := List.mem_range.1 hi
    rw [Nat.mod_eq_of_lt (by omega)]
  · obtain ⟨rest, hsize⟩ : ∃ rest, rb.bufferSize - rb.readIndex = rest := ⟨_, rfl⟩
    rw [hsize] at hrest ⊢
    rw [show k = rest + (k - rest) by omega, slice_add, Nat.add_sub_cancel_left]
    dsimp only
    congr 1
    · refine List.map_congr_left fun i hi => ?_
      have := List.mem_range.1 hi
      rw [Nat.mod_eq_of_lt (by omega)]
    · refine List.map_congr_left fun i hi => ?_
      have := List.mem_range.1 hi
      rw [show rb.readIndex + rest + i = i + rb.bufferSize by omega, Nat.add_mod_right, Nat.mod_eq_of_lt (by omega)]

theorem RingBufferInv.drop {k : Nat} (h : RingBufferInv rb n) (hn : n ≠ 0) (hk : k ≤ n) :
    RingBufferInv (rb.drop k) (n - k) ∧ (rb.drop k).bufferSize = rb.bufferSize ∧ (rb.drop k).bufferPtr = rb.bufferPtr ∧
      (rb.drop k).readIndex = (rb.readIndex + k) % rb.bufferSize := by
  have hcount := h.count
  have hread := h.read
  have hsmall := h.small
  unfold RingBuffer.drop
  split_ifs with hrest
  · have hindex : (rb.readIndex + k) % 32768 = rb.readIndex + k := Nat.mod_eq_of_lt (by omega)
    rw [hindex]
    refine ⟨⟨hsmall, ?_, ?_, ?_, ?_⟩, rfl, rfl, ?_⟩ <;> dsimp only
    · omega
    · omega
    · intro hsame
      obtain ⟨hwrite, hmirror⟩ := h.same (by omega)
      exact ⟨by omega, hmirror⟩
    · intro hle hne
      obtain ⟨hwrite, hmirror⟩ := h.wrapped (by omega) (by omega)
      exact ⟨by omega, hmirror⟩
    · rw [Nat.mod_eq_of_lt (by omega)]
  · have hindex : (k - (rb.bufferSize - rb.readIndex)) % 32768 = k - (rb.bufferSize - rb.readIndex) :=
      Nat.mod_eq_of_lt (by omega)
    obtain ⟨hwrite, hmirror⟩ := h.wrapped (by omega) hn
    rw [hindex]
    refine ⟨⟨hsmall, ?_, ?_, ?_, ?_⟩, rfl, rfl, ?_⟩ <;> dsimp only
    · omega
    · omega
    · intro _
      exact ⟨by omega, hmirror⟩
    · intro hle _
      omega
    · rw [Nat.mod_eq_sub_mod (by omega), Nat.mod_eq_of_lt (by omega)]
      omega

theorem RingBufferInv.get (h : RingBufferInv rb n) (length : Nat) :
    (rtRingbufferGet rb length).1 = rb.contents.take length ∧
    RingBufferInv (rtRingbufferGet rb length).2 (n - length) ∧
    (rtRingbufferGet rb length).2.bufferSize = rb.bufferSize ∧
    (rtRingbufferGet rb length).2.contents = rb.contents.drop length := by
  have hlen : rb.contents.length = n := by rw [h.contents, length_slice]
  by_cases hn : n = 0
  · have hget : rtRingbufferGet rb length = ([], rb) := by
      rw [rtRingbufferGet, h.dataLen]
      exact if_pos hn
    have hcontents : rb.contents = [] := List.eq_nil_of_length_eq_zero (hlen.trans hn)
    rw [hget, hcontents, hn, Nat.zero_sub]
    exact ⟨List.take_nil.symm, hn ▸ h, rfl, List.drop_nil.symm⟩
  · obtain ⟨hinv, hsize, hptr, hindex⟩ := h.drop hn (Nat.min_le_left n length)
    have hsplit : rb.contents = slice rb.bufferSize rb.bufferPtr rb.readIndex (min n length) ++
        slice rb.bufferSize rb.bufferPtr (rb.readIndex + min n length) (n - min n length) := by
      rw [h.contents, ← slice_add, Nat.add_sub_cancel' (Nat.min_le_left n length)]
    have htake : rb.contents.take length = slice rb.bufferSize rb.bufferPtr rb.readIndex (min n length) := by
      rw [List.take_eq_take_min, hlen, Nat.min_comm, hsplit]
      exact List.take_left' length_slice
    have hdrop : rb.contents.drop length =
        slice rb.bufferSize rb.bufferPtr (rb.readIndex + min n length) (n - min n length) := by
      by_cases hle : length ≤ n
      · rw [hsplit]
        exact List.drop_left' (by rw [length_slice, Nat.min_eq_right hle])
      · rw [show n - min n length = 0 by omega, slice_zero]
        exact List.drop_eq_nil_of_le (by omega)
    rw [rtRingbufferGet_drop (by rw [h.dataLen]; exact hn), h.dataLen, htake, hdrop, h.get_bytes hn,
      show n - length = n - min n length by omega]
    refine ⟨rfl, hinv, hsize, ?_⟩
    rw [hinv.contents, hsize, hptr, hindex, slice_mod]

/-! ## Single bytes -/

theorem memcpy_one (dst : Nat → UInt8) (start : Nat) : memcpy dst start [ch] = update dst start ch := by
  funext j
  by_cases hj : j = start
  · rw [hj, update_self]
    exact memcpy_in dst start (show 0 < [ch].length from Nat.zero_lt_one)
  · rw [update_of_ne hj]
    exact memcpy_out dst (by rw [List.length_singleton]; omega)

theorem memcpy_nil (dst : Nat → UInt8) (start : Nat) : memcpy dst start [] = dst :=
  funext fun j => memcpy_out dst (by rw [List.length_nil]; omega)

theorem RingBufferInv.putchar_eq (h : RingBufferInv rb n) : rtRingbufferPutchar rb ch = rtRingbufferPut rb [ch] := by
  by_cases hspace : rtRingbufferSpaceLen rb = 0
  · rw [rtRingbufferPutchar, rtRingbufferPut]
    simp only [if_pos hspace]
  · have hsize := hspace
    rw [h.spaceLen] at hsize
    have hsmall := h.small
    obtain ⟨hwrite, -⟩ := h.writeIndex (by omega)
    have htake : [ch].take (rtRingbufferSpaceLen rb) = [ch] := List.take_of_length_le (by rw [List.length_singleton]; omega)
    rw [rtRingbufferPut_eq hspace, htake, rtRingbufferPutchar, RingBuffer.store]
    simp only [if_neg hspace, List.length_singleton]
    by_cases hlast : rb.writeIndex = rb.bufferSize - 1
    · have hrest : rb.bufferSize - rb.writeIndex = 1 := by omega
      simp only [if_pos hlast, hrest, if_neg (Nat.lt_irrefl 1), List.take_one, List.drop_one, List.head?_cons,
        Option.toList_some, List.tail_cons, memcpy_one, memcpy_nil]
    · simp only [if_neg hlast, if_pos (show 1 < rb.bufferSize - rb.writeIndex by omega), memcpy_one]

theorem RingBufferInv.getchar_eq (h : RingBufferInv rb n) :
    rtRingbufferGetchar rb = ((rtRingbufferGet rb 1).1.head?, (rtRingbufferGet rb 1).2) := by
  by_cases hn : n = 0
  · rw [rtRingbufferGetchar, rtRingbufferGet]
    simp only [h.dataLen, if_pos hn]
    rfl
  · have hread := h.read
    have hcount := h.count
    have hmin : min n 1 = 1 := by omega
    have hdata : rtRingbufferDataLen rb ≠ 0 := by rw [h.dataLen]; exact hn
    rw [h.get_bytes hn, rtRingbufferGet_drop hdata, h.dataLen, hmin, slice_one, List.head?_cons,
      Nat.mod_eq_of_lt (by omega), RingBuffer.drop, rtRingbufferGetchar]
    simp only [h.dataLen, if_neg hn]
    by_cases hlast : rb.readIndex = rb.bufferSize - 1
    · have hrest : rb.bufferSize - rb.readIndex = 1 := by omega
      simp only [if_pos hlast, hrest, if_neg (Nat.lt_irrefl 1)]
    · simp only [if_neg hlast, if_pos (show 1 < rb.bufferSize - rb.readIndex by omega)]

/-! ## Every run -/

variable {capacity size : Nat} {pool : Nat → UInt8} {rb₀ rb' : RingBuffer} {q : List UInt8} {events : List RbEvent}

def RingBuffer.Represents (capacity : Nat) (rb : RingBuffer) (q : List UInt8) : Prop :=
  RingBufferInv rb q.length ∧ rb.bufferSize = capacity ∧ rb.contents = q

theorem RingBufferInv.represents (h : RingBufferInv rb n) (hsize : rb.bufferSize = capacity) (hcontents : rb.contents = q) :
    rb.Represents capacity q := by
  have hn : n = q.length := by rw [← hcontents, h.contents, length_slice]
  exact ⟨hn ▸ h, hsize, hcontents⟩

theorem RingBuffer.Represents.step (h : rb.Represents capacity q) (hs : stepRb rb op = some (rb', events)) :
    ∃ q', stepFifo capacity q op = some (q', events) ∧ rb'.Represents capacity q' := by
  obtain ⟨hinv, rfl, rfl⟩ := h
  have hcount := hinv.count
  cases op with
  | put ptr =>
    simp only [stepRb] at hs
    split_ifs at hs
    cases hs
    obtain ⟨hlength, hinv', hsize, hcontents⟩ := hinv.put ptr
    exact ⟨_, by rw [stepFifo, hlength], hinv'.represents hsize hcontents⟩
  | get length =>
    simp only [stepRb] at hs
    split_ifs at hs
    cases hs
    obtain ⟨hbytes, hinv', hsize, hcontents⟩ := hinv.get length
    exact ⟨_, by rw [stepFifo, hbytes], hinv'.represents hsize hcontents⟩
  | putchar ch =>
    cases hs
    obtain ⟨hlength, hinv', hsize, hcontents⟩ := hinv.put [ch]
    rw [hinv.putchar_eq, hlength, stepFifo]
    by_cases hroom : rb.contents.length < rb.bufferSize
    · have htake : [ch].take (rb.bufferSize - rb.contents.length) = [ch] :=
        List.take_of_length_le (by rw [List.length_singleton]; omega)
      rw [htake] at hcontents ⊢
      exact ⟨_, by rw [if_pos hroom]; rfl, hinv'.represents hsize hcontents⟩
    · have htake : [ch].take (rb.bufferSize - rb.contents.length) = [] := by
        rw [Nat.sub_eq_zero_of_le (Nat.le_of_not_lt hroom), List.take_zero]
      rw [htake, List.append_nil] at hcontents
      rw [htake]
      exact ⟨_, by rw [if_neg hroom]; rfl, hinv'.represents hsize hcontents⟩
  | getchar =>
    cases hs
    obtain ⟨hbytes, hinv', hsize, hcontents⟩ := hinv.get 1
    rw [List.drop_one] at hcontents
    refine ⟨rb.contents.tail, ?_, ?_⟩
    · rw [hinv.getchar_eq, hbytes, stepFifo, List.head?_take, if_neg Nat.one_ne_zero]
    · rw [hinv.getchar_eq]
      exact hinv'.represents hsize hcontents
  | reset =>
    cases hs
    have hinv' : RingBufferInv (rtRingbufferReset rb) 0 := by
      refine ⟨hinv.small, Nat.zero_le _, ?_, fun _ => ⟨rfl, rfl⟩, fun _ hne => absurd rfl hne⟩
      exact (Nat.eq_zero_or_pos rb.bufferSize).elim (fun hzero => .inr ⟨hzero, rfl⟩) .inl
    exact ⟨[], rfl, hinv'.represents rfl (by rw [hinv'.contents, slice_zero])⟩
  | dataLen =>
    cases hs
    exact ⟨rb.contents, by rw [hinv.dataLen]; rfl, hinv, rfl, rfl⟩
  | status =>
    cases hs
    refine ⟨rb.contents, ?_, hinv, rfl, rfl⟩
    rw [hinv.status, stepFifo]
    simp only [List.length_eq_zero_iff]

/-- The ring buffer of a state after a trace, as a queue of at most `capacity` bytes. -/
structure RingBufferFifo (capacity : Nat) (trace : List RbEvent) (rb : RingBuffer) : Prop where
  /-- What the calls have returned is what they return on a queue, which now holds the contents. -/
  refines : Transition.Run (stepFifo capacity) (fun _ _ => True) [] trace rb.contents
  bufferSize : rb.bufferSize = capacity
  contents_le : rb.contents.length ≤ capacity
  dataLen : rtRingbufferDataLen rb = rb.contents.length
  empty : rtRingbufferStatus rb = .empty ↔ rb.contents = []
  full : rtRingbufferStatus rb = .full ↔ rb.contents ≠ [] ∧ rb.contents.length = capacity

theorem rtRingbufferInit_represents (hinit : rtRingbufferInit pool size = some rb₀) :
    rb₀.Represents (size / 4 * 4) [] := by
  unfold rtRingbufferInit at hinit
  split_ifs at hinit with hsize
  cases hinit
  have hinv : RingBufferInv ⟨pool, false, 0, false, 0, size / 4 * 4⟩ 0 := by
    refine ⟨by dsimp only; omega, Nat.zero_le _, ?_, fun _ => ⟨rfl, rfl⟩, fun _ hne => absurd rfl hne⟩
    exact (Nat.eq_zero_or_pos (size / 4 * 4)).elim (fun hzero => .inr ⟨hzero, rfl⟩) .inl
  exact hinv.represents rfl (by rw [hinv.contents, slice_zero])

/-- In every run of a ring buffer, for every size that `rt_ringbuffer_init` accepts. -/
theorem ringBufferFifo_of_run (hinit : rtRingbufferInit pool size = some rb₀)
    (hrun : Transition.Run stepRb (fun _ _ => True) rb₀ trace rb) : RingBufferFifo (size / 4 * 4) trace rb := by
  have hstart := rtRingbufferInit_represents hinit
  obtain ⟨q, hq, hinv, hsize, rfl⟩ := hrun.refines (R := fun rb q => rb.Represents (size / 4 * 4) q) hstart
    fun rb q op rb' events h _ hs => ⟨op, h.step hs⟩
  have hcount := hinv.count
  have hstatus := hinv.status
  refine ⟨hq, hsize, hsize ▸ hcount, hinv.dataLen, ?_, ?_⟩
  · rw [hstatus, ← List.length_eq_zero_iff]
    split_ifs with hzero <;> simp [hzero]
  · rw [hstatus, ← hsize, ne_eq, ← List.length_eq_zero_iff]
    split_ifs with hzero hfull
    · simp [hzero]
    · exact ⟨fun _ => ⟨hzero, hfull⟩, fun _ => rfl⟩
    · simp [hfull]

/-- Eight bytes of room: a put that ends at the end of the buffer, and one over it that is cut. -/
theorem ringBufferFifo_of_run_wrap : ∃ rb₀ trace rb, rtRingbufferInit (fun _ => 0) 11 = some rb₀ ∧
    Transition.Run stepRb (fun _ _ => True) rb₀ trace rb ∧ rtRingbufferStatus rb = .full ∧
    trace = [.put [1, 2, 3, 4, 5, 6, 7, 8] 8, .status .full, .get 3 [1, 2, 3], .put [9, 10, 11, 12] 3] ∧
    RingBufferFifo 8 trace rb := by
  have hinit : rtRingbufferInit (fun _ => 0) 11 = some ⟨fun _ => 0, false, 0, false, 0, 8⟩ := rfl
  obtain ⟨trace, rb, hrun, hfound⟩ := @Transition.exists_run_of_exec _ _ _ stepRb (fun _ _ => True) ⟨fun _ => 0, false, 0, false, 0, 8⟩ _
    [.put [1, 2, 3, 4, 5, 6, 7, 8], .status, .get 3, .put [9, 10, 11, 12]]
    (fun trace rb => decide (rtRingbufferStatus rb = .full ∧
      trace = [.put [1, 2, 3, 4, 5, 6, 7, 8] 8, .status .full, .get 3 [1, 2, 3], .put [9, 10, 11, 12] 3]))
    (by decide +kernel)
  obtain ⟨hfull, htrace⟩ := of_decide_eq_true hfound
  exact ⟨_, trace, rb, hinit, hrun, hfull, htrace, ringBufferFifo_of_run hinit hrun⟩

end RtThread
