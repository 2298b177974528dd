import RtThread.Drivers.RingBuffer

/-!
# Forced puts

`rt_ringbuffer_put_force` and `rt_ringbuffer_putchar_force` discard the oldest bytes where there is no room. The read index is then put on the write index, and it depends on the mirror bits whether that is a full buffer or an empty one.
-/

namespace RtThread

open Ring

/-- `rt_ringbuffer_put_force`, with the length it returns. -/
def rtRingbufferPutForce (rb : RingBuffer) (ptr : List UInt8) : Nat × RingBuffer :=
  let spaceLength := rtRingbufferSpaceLen rb
  let ptr := if rb.bufferSize < ptr.length then ptr.drop (ptr.length - rb.bufferSize) else ptr
  let length := ptr.length
  let rest := rb.bufferSize - rb.writeIndex
  if length < rest then
    let rb := { rb with
      bufferPtr := memcpy rb.bufferPtr rb.writeIndex ptr
      writeIndex := (rb.writeIndex + length) % 32768 }
    (length, if spaceLength < length then { rb with readIndex := rb.writeIndex } else rb)
  else
    let rb := { rb with
      bufferPtr := memcpy (memcpy rb.bufferPtr rb.writeIndex (ptr.take rest)) 0 (ptr.drop rest)
      writeMirror := !rb.writeMirror
      writeIndex := (length - rest) % 32768 }
    (length, if spaceLength < length then { rb with readMirror := !rb.readMirror, readIndex := rb.writeIndex } else rb)

/-- `rt_ringbuffer_putchar_force`; a buffer without room has no last index. -/
def rtRingbufferPutcharForce (rb : RingBuffer) (ch : UInt8) : Nat × RingBuffer :=
  let oldState := rtRingbufferStatus rb
  let bufferPtr := Function.update rb.bufferPtr rb.writeIndex ch
  if rb.writeIndex + 1 = rb.bufferSize then
    let rb := { rb with bufferPtr, writeMirror := !rb.writeMirror, writeIndex := 0 }
    (1, if oldState = .full then { rb with readMirror := !rb.readMirror, readIndex := rb.writeIndex } else rb)
  else
    let rb := { rb with bufferPtr, writeIndex := (rb.writeIndex + 1) % 32768 }
    (1, if oldState = .full then { rb with readIndex := rb.writeIndex } else rb)

/-! ## Runs with forced puts -/

inductive RbForceOp
  | plain (op : RbOp)
  | putForce (ptr : List UInt8)
  | putcharForce (ch : UInt8)
  deriving DecidableEq

def RbForceOp.input : RbForceOp → Option (List UInt8)
  | .plain _ => none
  | .putForce ptr => some ptr
  | .putcharForce ch => some [ch]

def stepRbForce (rb : RingBuffer) : RbForceOp → Option (RingBuffer × List RbEvent)
  | .plain op => stepRb rb op
  | .putForce ptr =>
    if ptr.length < 65536 then some ((rtRingbufferPutForce rb ptr).2, [.put ptr (rtRingbufferPutForce rb ptr).1]) else none
  | .putcharForce ch => some ((rtRingbufferPutcharForce rb ch).2, [.putchar ch (rtRingbufferPutcharForce rb ch).1])

def HasCell (rb : RingBuffer) : RbForceOp → Prop
  | .putcharForce _ => rb.bufferSize ≠ 0
  | _ => True

instance (rb : RingBuffer) (op : RbForceOp) : Decidable (HasCell rb op) := by
  cases op <;> unfold HasCell <;> infer_instance

/-- A forced put that comes out right: nothing has to be discarded, or the indices are in different mirrors; a single byte goes wrong only where there is no room at all. -/
def ForcesWell (rb : RingBuffer) : RbForceOp → Prop
  | .plain _ => True
  | .putForce ptr => min ptr.length rb.bufferSize ≤ rtRingbufferSpaceLen rb ∨ rb.readMirror ≠ rb.writeMirror
  | .putcharForce _ => rb.bufferSize ≠ 0 ∨ rb.readMirror ≠ rb.writeMirror

/-- The newest bytes of the old contents and the input are kept, as many as there is room for. -/
structure KeepsNewest (rb rb' : RingBuffer) (input : List UInt8) : Prop where
  contents : rb'.contents = (rb.contents ++ input).rtake rb.bufferSize
  dataLen : rtRingbufferDataLen rb' = min rb.bufferSize (rtRingbufferDataLen rb + input.length)

/-! ## A forced put is a get and a put -/

variable {rb rb' : RingBuffer} {n : Nat} {ptr data : List UInt8} {ch : UInt8} {events : List RbEvent} {op : RbForceOp}

theorem rtRingbufferPutForce_eq : rtRingbufferPutForce rb ptr =
    ((ptr.rtake rb.bufferSize).length,
      let rb' := rb.store (ptr.rtake rb.bufferSize)
      if rtRingbufferSpaceLen rb < (ptr.rtake rb.bufferSize).length then
        { rb' with
          readMirror := if rb'.writeMirror = rb.writeMirror then rb.readMirror else !rb.readMirror
          readIndex := rb'.writeIndex }
      else rb') := by
  have hdata : (if rb.bufferSize < ptr.length then ptr.drop (ptr.length - rb.bufferSize) else ptr) = ptr.rtake rb.bufferSize := by
    split_ifs with hlong
    · rfl
    · exact (rtake_of_length_le (Nat.le_of_not_lt hlong)).symm
  unfold rtRingbufferPutForce RingBuffer.store
  rw [hdata]
  dsimp only
  by_cases hrest : (ptr.rtake rb.bufferSize).length < rb.bufferSize - rb.writeIndex
  · simp only [if_pos hrest, if_true]
  · have hflip : (!rb.writeMirror) ≠ rb.writeMirror := by cases rb.writeMirror <;> decide
    simp only [if_neg hrest, if_neg hflip]

theorem rtake_append_drop {l : List UInt8} {size : Nat} :
    (l ++ ptr).rtake size = l.drop (l.length + (ptr.rtake size).length - size) ++ ptr.rtake size := by
  rw [length_rtake, List.rtake, List.rtake, List.length_append, List.drop_append]
  by_cases hlong : ptr.length ≤ size
  · rw [Nat.min_eq_right hlong]
    congr 2
    omega
  · have hold : l.drop (l.length + ptr.length - size) = [] := List.drop_eq_nil_of_le (by omega)
    have hnew : l.drop (l.length + size - size) = [] := List.drop_eq_nil_of_le (by omega)
    rw [Nat.min_eq_left (Nat.le_of_not_le hlong), hold, hnew]
    congr 2
    omega

theorem RingBufferInv.store_nil (h : RingBufferInv rb n) (hsize : rb.bufferSize ≠ 0) : rb.store [] = rb := by
  have hsmall := h.small
  obtain ⟨hwrite, -⟩ := h.writeIndex hsize
  unfold RingBuffer.store
  simp only [List.length_nil, if_pos (Nat.sub_pos_of_lt hwrite), memcpy_nil, Nat.add_zero,
    Nat.mod_eq_of_lt (Nat.lt_trans hwrite hsmall)]

variable (data) in
theorem RingBufferInv.store_contents (h : RingBufferInv rb n) (hsize : rb.bufferSize ≠ 0) (hroom : n + data.length ≤ rb.bufferSize) :
    RingBufferInv (rb.store data) (n + data.length) ∧ (rb.store data).contents = rb.contents ++ data := by
  by_cases hspace : rb.bufferSize - n = 0
  · obtain rfl : data = [] := List.eq_nil_of_length_eq_zero (by omega)
    rw [h.store_nil hsize, List.append_nil]
    exact ⟨h, rfl⟩
  · have hstore := h.store hspace hroom
    refine ⟨hstore, ?_⟩
    rw [hstore.contents, h.contents, RingBuffer.store_bufferSize, RingBuffer.store_readIndex]
    exact h.slice_store hspace hroom

theorem RingBuffer.store_drop (k : Nat) : (rb.drop k).store data =
    { rb.store data with readMirror := (rb.drop k).readMirror, readIndex := (rb.drop k).readIndex } := by
  unfold RingBuffer.drop RingBuffer.store
  split_ifs <;> dsimp only <;> split_ifs <;> rfl

variable (data) in
theorem RingBufferInv.putForce_full (h : RingBufferInv rb n) (hroom : data.length ≤ rb.bufferSize)
    (hlack : rb.bufferSize < n + data.length) (hmirror : rb.readMirror ≠ rb.writeMirror) :
    { rb.store data with
      readMirror := if (rb.store data).writeMirror = rb.writeMirror then rb.readMirror else !rb.readMirror
      readIndex := (rb.store data).writeIndex } = (rb.drop (n + data.length - rb.bufferSize)).store data ∧
    RingBufferInv ((rb.drop (n + data.length - rb.bufferSize)).store data) rb.bufferSize ∧
    ((rb.drop (n + data.length - rb.bufferSize)).store data).contents =
      rb.contents.drop (n + data.length - rb.bufferSize) ++ data := by
  have hcount := h.count
  have hn : n ≠ 0 := by omega
  obtain ⟨k, hk⟩ : ∃ k, n + data.length - rb.bufferSize = k := ⟨_, rfl⟩
  obtain ⟨hdrop, hsize, hptr, hindex⟩ := h.drop (k := k) hn (by omega)
  have hfill : n - k + data.length = rb.bufferSize := by omega
  have hget : rb.contents.drop k = (rb.drop k).contents := by
    rw [h.contents, hdrop.contents, hsize, hptr, hindex, slice_mod, show n = k + (n - k) by omega, slice_add, Nat.add_sub_cancel_left]
    exact List.drop_left' length_slice
  obtain ⟨hinv, hcontents⟩ := hdrop.store_contents data (by omega) (by omega)
  rw [hfill] at hinv
  rw [hk, hget]
  refine ⟨?_, hinv, hcontents⟩
  obtain ⟨hwrite, hflip⟩ := hinv.wrapped (by rw [RingBuffer.store_bufferSize, hsize]; omega) (by omega)
  rw [RingBuffer.store_drop] at hwrite hflip ⊢
  rw [RingBuffer.store_bufferSize] at hwrite
  dsimp only at hwrite hflip
  have hread : (rb.store data).writeIndex = (rb.drop k).readIndex := by omega
  have hbit : (if (rb.store data).writeMirror = rb.writeMirror then rb.readMirror else !rb.readMirror) = (rb.drop k).readMirror := by
    rw [hflip]
    revert hmirror
    cases rb.readMirror <;> cases rb.writeMirror <;> cases (rb.drop k).readMirror <;> decide
  rw [hread, hbit]

variable (data) in
theorem RingBufferInv.putForce_empty (h : RingBufferInv rb n) (hroom : data.length ≤ rb.bufferSize)
    (hlack : rb.bufferSize < n + data.length) (hmirror : rb.readMirror = rb.writeMirror) :
    RingBufferInv { rb.store data with
      readMirror := if (rb.store data).writeMirror = rb.writeMirror then rb.readMirror else !rb.readMirror
      readIndex := (rb.store data).writeIndex } 0 := by
  have hcount := h.count
  have hsmall := h.small
  have hnowrap : rb.readIndex + n < rb.bufferSize := by
    by_contra hwrap
    obtain ⟨-, hflip⟩ := h.wrapped (Nat.le_of_not_lt hwrap) (by omega)
    rw [hmirror] at hflip
    cases hbit : rb.writeMirror <;> rw [hbit] at hflip <;> cases hflip
  obtain ⟨hwrite, -⟩ := h.same (.inl hnowrap)
  have hlong : ¬ data.length < rb.bufferSize - rb.writeIndex := by omega
  have hindex : (data.length - (rb.bufferSize - rb.writeIndex)) % 32768 < rb.bufferSize := by
    rw [Nat.mod_eq_of_lt (by omega)]
    omega
  have hflip : (!rb.writeMirror) ≠ rb.writeMirror := by cases rb.writeMirror <;> decide
  unfold RingBuffer.store
  simp only [if_neg hlong, if_neg hflip]
  exact ⟨hsmall, Nat.zero_le _, .inl hindex, fun _ => ⟨rfl, by rw [hmirror]⟩, fun _ hne => absurd rfl hne⟩

/-! ## Every reachable buffer -/

/-- What runs keep: the buffer holds some bytes, or it has no room at all and both indices stay at its start. -/
def RbSound (rb : RingBuffer) : Prop :=
  (∃ n, RingBufferInv rb n) ∧ rb.bufferSize ≠ 0 ∨ rb.bufferSize = 0 ∧ rb.readIndex = 0 ∧ rb.writeIndex = 0

theorem dataLen_of_bufferSize (hsize : rb.bufferSize = 0) (hindex : rb.readIndex = rb.writeIndex) : rtRingbufferDataLen rb = 0 := by
  unfold rtRingbufferDataLen rtRingbufferStatus
  rw [if_pos hindex]
  by_cases hmirror : rb.readMirror = rb.writeMirror
  · rw [if_pos hmirror]
  · rw [if_neg hmirror]
    exact hsize

variable (ptr) in
theorem rtRingbufferPutForce_of_bufferSize (hsize : rb.bufferSize = 0) (hwrite : rb.writeIndex = 0) :
    (rtRingbufferPutForce rb ptr).2.bufferSize = 0 ∧ (rtRingbufferPutForce rb ptr).2.readIndex = rb.readIndex ∧
      (rtRingbufferPutForce rb ptr).2.writeIndex = 0 := by
  have hnone : ptr.rtake rb.bufferSize = [] := by
    rw [hsize, List.rtake, Nat.sub_zero, List.drop_length]
  have hrest : ¬ (0 < rb.bufferSize - rb.writeIndex) := by omega
  rw [rtRingbufferPutForce_eq, hnone]
  simp [RingBuffer.store, hsize]

theorem RingBufferInv.putForce (h : RingBufferInv rb n) (hsize : rb.bufferSize ≠ 0) :
    (KeepsNewest rb (rtRingbufferPutForce rb ptr).2 ptr ↔ ForcesWell rb (.putForce ptr)) ∧ RbSound (rtRingbufferPutForce rb ptr).2 := by
  have hcount := h.count
  have hlen : rb.contents.length = n := by rw [h.contents, length_slice]
  have hdata : (ptr.rtake rb.bufferSize).length = min rb.bufferSize ptr.length := length_rtake
  have hnewest : (rb.contents ++ ptr).rtake rb.bufferSize =
      rb.contents.drop (n + (ptr.rtake rb.bufferSize).length - rb.bufferSize) ++ ptr.rtake rb.bufferSize := by
    rw [rtake_append_drop, hlen]
  rw [rtRingbufferPutForce_eq, h.spaceLen]
  dsimp only
  by_cases hlack : rb.bufferSize - n < (ptr.rtake rb.bufferSize).length
  · rw [if_pos hlack]
    by_cases hmirror : rb.readMirror = rb.writeMirror
    · have hempty := h.putForce_empty (ptr.rtake rb.bufferSize) (by omega) (by omega) hmirror
      refine ⟨iff_of_false (fun hkeeps => ?_) ?_, .inl ⟨⟨0, hempty⟩, by simpa using hsize⟩⟩
      · have hlost := hkeeps.dataLen
        rw [hempty.dataLen, h.dataLen] at hlost
        omega
      · rw [ForcesWell, h.spaceLen]
        exact not_or.2 ⟨by omega, not_not.2 hmirror⟩
    · obtain ⟨heq, hinv, hcontents⟩ := h.putForce_full (ptr.rtake rb.bufferSize) (by omega) (by omega) hmirror
      rw [heq]
      refine ⟨iff_of_true ⟨hcontents.trans hnewest.symm, ?_⟩ (.inr hmirror), .inl ⟨⟨_, hinv⟩, ?_⟩⟩
      · rw [hinv.dataLen, h.dataLen]
        omega
      · rw [← heq]
        simpa using hsize
  · rw [if_neg hlack]
    obtain ⟨hinv, hcontents⟩ := h.store_contents (ptr.rtake rb.bufferSize) hsize (by omega)
    refine ⟨iff_of_true ⟨?_, ?_⟩ (.inl ?_), .inl ⟨⟨_, hinv⟩, by simpa using hsize⟩⟩
    · rw [hcontents, hnewest, Nat.sub_eq_zero_of_le (by omega), List.drop_zero]
    · rw [hinv.dataLen, h.dataLen]
      omega
    · rw [h.spaceLen]
      omega

theorem RingBufferInv.putcharForce_eq (h : RingBufferInv rb n) (hsize : rb.bufferSize ≠ 0) :
    rtRingbufferPutcharForce rb ch = rtRingbufferPutForce rb [ch] := by
  have hsmall := h.small
  have hcount := h.count
  obtain ⟨hwrite, -⟩ := h.writeIndex hsize
  have hfull : rtRingbufferStatus rb = .full ↔ rtRingbufferSpaceLen rb < 1 := by
    rw [h.status, h.spaceLen]
    split_ifs with hzero hfull
    · exact iff_of_false (fun hno => nomatch hno) (by omega)
    · exact iff_of_true rfl (by omega)
    · exact iff_of_false (fun hno => nomatch hno) (by omega)
  have hshort : ¬ rb.bufferSize < [ch].length := by
    rw [List.length_singleton]
    omega
  unfold rtRingbufferPutcharForce rtRingbufferPutForce
  rw [if_neg hshort]
  simp only [List.length_singleton, hfull]
  by_cases hlast : rb.writeIndex + 1 = rb.bufferSize
  · have hrest : rb.bufferSize - rb.writeIndex = 1 := by omega
    simp only [if_pos hlast, hrest, if_neg (Nat.lt_irrefl 1), List.take_one, List.drop_one, List.head?_cons, Option.toList_some,
      List.tail_cons, memcpy_one, memcpy_nil]
  · simp only [if_neg hlast, if_pos (show 1 < rb.bufferSize - rb.writeIndex by omega), memcpy_one]

theorem RbSound.plain (h : RbSound rb) {op : RbOp} (hstep : stepRb rb op = some (rb', events)) : RbSound rb' := by
  rcases h with ⟨⟨n, hinv⟩, hsize⟩ | ⟨hsize, hread, hwrite⟩
  · obtain ⟨q, -, hinv', hsize', -⟩ := (hinv.represents rfl rfl).step hstep
    exact .inl ⟨⟨_, hinv'⟩, hsize'.trans_ne hsize⟩
  · have hdata := dataLen_of_bufferSize hsize (hread.trans hwrite.symm)
    have hspace : rtRingbufferSpaceLen rb = 0 := by
      rw [rtRingbufferSpaceLen, hsize, Nat.zero_sub]
    have hsame : RbSound rb := .inr ⟨hsize, hread, hwrite⟩
    cases op with
    | put ptr =>
      simp only [stepRb, rtRingbufferPut, if_pos hspace] at hstep
      split_ifs at hstep
      cases hstep
      exact hsame
    | get length =>
      simp only [stepRb, rtRingbufferGet, if_pos hdata] at hstep
      split_ifs at hstep
      cases hstep
      exact hsame
    | putchar ch =>
      simp only [stepRb, rtRingbufferPutchar, if_pos hspace] at hstep
      cases hstep
      exact hsame
    | getchar =>
      simp only [stepRb, rtRingbufferGetchar, if_pos hdata] at hstep
      cases hstep
      exact hsame
    | reset =>
      cases hstep
      exact .inr ⟨hsize, rfl, rfl⟩
    | dataLen =>
      cases hstep
      exact hsame
    | status =>
      cases hstep
      exact hsame

theorem keepsNewest_of_bufferSize (hsize : rb.bufferSize = 0) (hread : rb.readIndex = 0) (hwrite : rb.writeIndex = 0) :
    KeepsNewest rb (rtRingbufferPutForce rb ptr).2 ptr := by
  obtain ⟨hsize', hread', hwrite'⟩ := rtRingbufferPutForce_of_bufferSize ptr hsize hwrite
  have hdata' := dataLen_of_bufferSize hsize' ((hread'.trans hread).trans hwrite'.symm)
  constructor
  · rw [RingBuffer.contents, hdata', slice_zero, hsize, List.rtake, Nat.sub_zero, List.drop_length]
  · rw [hdata', hsize, Nat.zero_min]

theorem keepsNewest_char_of_bufferSize (hsize : rb.bufferSize = 0) (hread : rb.readIndex = 0) (hwrite : rb.writeIndex = 0) :
    KeepsNewest rb (rtRingbufferPutcharForce rb ch).2 [ch] ↔ rb.readMirror ≠ rb.writeMirror := by
  have hlast : ¬ rb.writeIndex + 1 = rb.bufferSize := by omega
  have hnewest : (rb.contents ++ [ch]).rtake rb.bufferSize = [] := by
    rw [hsize, List.rtake, Nat.sub_zero, List.drop_length]
  by_cases hmirror : rb.readMirror = rb.writeMirror
  · have hstatus : rtRingbufferStatus rb ≠ .full := by
      rw [rtRingbufferStatus, if_pos (hread.trans hwrite.symm), if_pos hmirror]
      decide
    have hdata : rtRingbufferDataLen (rtRingbufferPutcharForce rb ch).2 = 1 := by
      unfold rtRingbufferPutcharForce
      simp only [if_neg hlast, if_neg hstatus]
      simp [rtRingbufferDataLen, rtRingbufferStatus, hread, hwrite]
    refine iff_of_false (fun hkeeps => ?_) (not_not.2 hmirror)
    have hlost := hkeeps.dataLen
    rw [hdata, hsize, Nat.zero_min] at hlost
    cases hlost
  · have hstatus : rtRingbufferStatus rb = .full := by
      rw [rtRingbufferStatus, if_pos (hread.trans hwrite.symm), if_neg hmirror]
    have hdata : rtRingbufferDataLen (rtRingbufferPutcharForce rb ch).2 = 0 := by
      unfold rtRingbufferPutcharForce
      simp only [if_neg hlast, if_pos hstatus]
      exact dataLen_of_bufferSize hsize rfl
    refine iff_of_true ⟨?_, ?_⟩ hmirror
    · rw [hnewest, RingBuffer.contents, hdata, slice_zero]
    · rw [hdata, hsize, Nat.zero_min]

theorem RbSound.forced (h : RbSound rb) (hstep : stepRbForce rb op = some (rb', events)) {input : List UInt8}
    (hinput : op.input = some input) : KeepsNewest rb rb' input ↔ ForcesWell rb op := by
  cases op with
  | plain op => cases hinput
  | putForce ptr =>
    obtain rfl := Option.some.inj hinput
    simp only [stepRbForce] at hstep
    split_ifs at hstep
    cases hstep
    rcases h with ⟨⟨n, hinv⟩, hsize⟩ | ⟨hsize, hread, hwrite⟩
    · exact (hinv.putForce hsize).1
    · exact iff_of_true (keepsNewest_of_bufferSize hsize hread hwrite) (.inl (by omega))
  | putcharForce ch =>
    obtain rfl := Option.some.inj hinput
    cases hstep
    rcases h with ⟨⟨n, hinv⟩, hsize⟩ | ⟨hsize, hread, hwrite⟩
    · rw [hinv.putcharForce_eq hsize]
      refine (hinv.putForce hsize).1.trans (iff_of_true ?_ (.inl hsize))
      have hcount := hinv.count
      by_cases hspace : rb.bufferSize - n = 0
      · obtain ⟨-, hflip⟩ := hinv.wrapped (by omega) (by omega)
        refine .inr ?_
        rw [hflip]
        cases rb.readMirror <;> decide
      · refine .inl ?_
        rw [hinv.spaceLen, List.length_singleton]
        omega
    · rw [keepsNewest_char_of_bufferSize hsize hread hwrite, ForcesWell]
      exact ⟨.inr, fun hwell => hwell.resolve_left (not_not.2 hsize)⟩

theorem RbSound.step (h : RbSound rb) (hcell : HasCell rb op) (hstep : stepRbForce rb op = some (rb', events)) : RbSound rb' := by
  cases op with
  | plain op => exact h.plain hstep
  | putForce ptr =>
    simp only [stepRbForce] at hstep
    split_ifs at hstep
    cases hstep
    rcases h with ⟨⟨n, hinv⟩, hsize⟩ | ⟨hsize, hread, hwrite⟩
    · exact (hinv.putForce hsize).2
    · obtain ⟨hsize', hread', hwrite'⟩ := rtRingbufferPutForce_of_bufferSize ptr hsize hwrite
      exact .inr ⟨hsize', hread'.trans hread, hwrite'⟩
  | putcharForce ch =>
    cases hstep
    obtain ⟨⟨n, hinv⟩, hsize⟩ := h.resolve_right fun hnone => hcell hnone.1
    rw [hinv.putcharForce_eq hsize]
    exact (hinv.putForce hsize).2

variable {pool : Nat → UInt8} {size : Nat} {rb₀ : RingBuffer} {trace : List RbEvent}

/-- In every state that calls reach, for every size that `rt_ringbuffer_init` accepts, and every forced put. -/
theorem forcedPut_of_run (hinit : rtRingbufferInit pool size = some rb₀) (hrun : Transition.Run stepRbForce HasCell rb₀ trace rb)
    {input : List UInt8} (hinput : op.input = some input) (hstep : stepRbForce rb op = some (rb', events)) :
    KeepsNewest rb rb' input ↔ ForcesWell rb op := by
  have hsound : RbSound rb := by
    refine hrun.state_invariant ?_ fun rb op rb' events hrb => hrb.step
    obtain ⟨hinv, -, -⟩ := rtRingbufferInit_represents hinit
    unfold rtRingbufferInit at hinit
    split_ifs at hinit
    cases hinit
    by_cases hsize : size / 4 * 4 = 0
    · exact .inr ⟨hsize, rfl, rfl⟩
    · exact .inl ⟨⟨_, hinv⟩, hsize⟩
  exact hsound.forced hstep hinput

/-- Two bytes are put, got and followed by three others, and six bytes are forced behind those: one of the three goes. -/
theorem forcedPut_of_run_wrapped : ∃ rb₀ trace rb rb' events, rtRingbufferInit (fun _ => 0) 8 = some rb₀ ∧
    Transition.Run stepRbForce HasCell rb₀ trace rb ∧ rb.contents = [7, 8, 9] ∧
    stepRbForce rb (.putForce [1, 2, 3, 4, 5, 6]) = some (rb', events) ∧
    (KeepsNewest rb rb' [1, 2, 3, 4, 5, 6] ↔ ForcesWell rb (.putForce [1, 2, 3, 4, 5, 6])) := by
  have hinit : rtRingbufferInit (fun _ => 0) 8 = some ⟨fun _ => 0, false, 0, false, 0, 8⟩ := rfl
  obtain ⟨trace, rb, hrun, hfound⟩ := @Transition.exists_run_of_exec _ _ _ stepRbForce HasCell ⟨fun _ => 0, false, 0, false, 0, 8⟩ _
    [.plain (.put [0, 0, 0, 0, 0, 0]), .plain (.get 6), .plain (.put [7, 8, 9])]
    (fun _ rb => decide (rb.contents = [7, 8, 9])) (by decide +kernel)
  exact ⟨_, trace, rb, _, _, hinit, hrun, of_decide_eq_true hfound, rfl, forcedPut_of_run hinit hrun rfl rfl⟩

/-- Eight bytes forced into a buffer of eight that holds three from its third cell on: it is empty afterwards. -/
theorem forcedPut_lost : ∃ rb₀ trace rb rb' events, rtRingbufferInit (fun _ => 0) 8 = some rb₀ ∧
    Transition.Run stepRbForce HasCell rb₀ trace rb ∧
    stepRbForce rb (.putForce [1, 2, 3, 4, 5, 6, 7, 8]) = some (rb', events) ∧
    rtRingbufferDataLen rb' = 0 ∧ ¬ KeepsNewest rb rb' [1, 2, 3, 4, 5, 6, 7, 8] := by
  have hinit : rtRingbufferInit (fun _ => 0) 8 = some ⟨fun _ => 0, false, 0, false, 0, 8⟩ := rfl
  obtain ⟨trace, rb, hrun, hfound⟩ := @Transition.exists_run_of_exec _ _ _ stepRbForce HasCell ⟨fun _ => 0, false, 0, false, 0, 8⟩ _
    [.plain (.put [0, 0]), .plain (.get 2), .plain (.put [7, 8, 9])]
    (fun _ rb => decide (rtRingbufferDataLen (rtRingbufferPutForce rb [1, 2, 3, 4, 5, 6, 7, 8]).2 = 0 ∧ rb.bufferSize = 8))
    (by decide +kernel)
  obtain ⟨hempty, hsize⟩ := of_decide_eq_true hfound
  refine ⟨_, trace, rb, _, _, hinit, hrun, rfl, hempty, fun hkeeps => ?_⟩
  have hlost := hkeeps.dataLen
  rw [hempty, hsize, List.length_cons] at hlost
  omega

end RtThread
