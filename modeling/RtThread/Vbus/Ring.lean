import RtThread.Drivers.RingBuffer

/-!
# The rings of the bus

`vbus.c`. A package takes whole blocks of 64 bytes, the first four of which are its head. One that reaches the end of the ring goes on at the first block, over the place of the head there. The writer and the reader each find the wrap point for themselves, and each keeps one index.
-/

namespace RtThread

open Ring

/-- `struct rt_vbus_ring`. The blocks are packed: the bytes from `64 * i` on are `id`, `qos`, `len`, a reserved one and the 60 of `data`. -/
structure VbusRing where
  putIdx : Nat
  getIdx : Nat
  blocked : Bool
  blks : Nat → UInt8

/-- `struct rt_vbus_pkg`, with the bytes at `data`, `len` of them, as `rt_vbus_post` fills it in. -/
structure VbusPkg where
  id : UInt8
  prio : UInt8
  finished : Bool
  data : List UInt8
  id_lt : id < 32
  length_le : data.length ≤ 252
  deriving DecidableEq

/-- "4 bytes for the head" -/
def len2bnr (len : Nat) : Nat := (len + 4 + 64 - 1) / 64

def VbusPkg.bnr (pkg : VbusPkg) : Nat := len2bnr pkg.data.length

/-- The packages that `rt_vbus_post` makes of `size` bytes at `data`: none is longer than `RT_VBUS_MAX_PKT_SZ`, and the last is marked. -/
def vbusPostPkgs (id prio : UInt8) (hid : id < 32) (data : List UInt8) : List VbusPkg :=
  if data = [] then []
  else if h : 252 < data.length then
    ⟨id, prio, false, data.take 252, hid, by rw [List.length_take]; omega⟩ :: vbusPostPkgs id prio hid (data.drop 252)
  else [⟨id, prio, true, data, hid, by omega⟩]
termination_by data.length
decreasing_by rw [List.length_drop]; omega

/-! ## The two ends

`nr` is `RT_VMM_RB_BLK_NR`. The whole ring lies in memory, so that no index or byte count overflows. -/

def ringAddGetBnr (nr : Nat) (ring : VbusRing) (bnr : Nat) : VbusRing :=
  let nidx := ring.getIdx + bnr
  { ring with getIdx := if nr ≤ nidx then nidx - nr else nidx }

def busRingSpaceNr (nr : Nat) (rg : VbusRing) : Int :=
  let delta : Int := rg.getIdx - rg.putIdx
  if 0 < delta then
    -- "Put is behind the get."
    delta - 1
  else nr + delta - 1

/-- `_bus_out_entry` from the stores of the head on. -/
def busOutWrite (nr : Nat) (ring : VbusRing) (dpkg : VbusPkg) : VbusRing :=
  let len := dpkg.data.length
  let nxtidx := ring.putIdx + dpkg.bnr
  let blks := memcpy ring.blks (64 * ring.putIdx) [dpkg.id, dpkg.prio, UInt8.ofNat len]
  if nr ≤ nxtidx then
    let tailsz := (nr - ring.putIdx) * 64 - 4
    -- "the remaining block is sufficient for the data"
    let tailsz := if len < tailsz then len else tailsz
    { ring with
      blks := memcpy (memcpy blks (64 * ring.putIdx + 4) (dpkg.data.take tailsz)) 0 (dpkg.data.drop tailsz)
      putIdx := nxtidx - nr }
  else { ring with blks := memcpy blks (64 * ring.putIdx + 4) dpkg.data, putIdx := nxtidx }

/-- One turn of the loop in which `_bus_out_entry` waits for enough space, with whether it has written the package. -/
def busOutTry (nr : Nat) (ring : VbusRing) (dpkg : VbusPkg) : VbusRing × Bool :=
  if busRingSpaceNr nr ring < dpkg.bnr then ({ ring with blocked := true }, false) else (busOutWrite nr ring dpkg, true)

inductive VbusArrival
  /-- Channel 0 hands the bytes to `_chn0_actor`, any other to its list of data. -/
  | delivered (id : UInt8) (data : List UInt8)
  /-- "drop on invalid chn %d" -/
  | invalid (id : UInt8)
  /-- "too big(%d) packet on chn0" -/
  | tooBig (size : Nat)
  /-- "drop the packet on malloc fall" -/
  | noMemory (size : Nat)
  deriving DecidableEq

/-- One turn of the inner loop of `_bus_in_entry`: `connected` is `_chn_connected`, and `malloc` is whether `rt_malloc` finds memory. -/
def busIn (nr : Nat) (connected : UInt8 → Bool) (malloc : Bool) (ring : VbusRing) : Option (VbusArrival × VbusRing) :=
  if ring.getIdx = ring.putIdx then none
  else
    let size := (ring.blks (64 * ring.getIdx + 2)).toNat
    let id := ring.blks (64 * ring.getIdx)
    if 32 < id ∨ connected id = false then some (.invalid id, ringAddGetBnr nr ring (len2bnr size))
    else if id = 0 then
      if 60 < size then some (.tooBig size, ringAddGetBnr nr ring (len2bnr size))
      else
        some (.delivered id ((List.range size).map fun i => ring.blks (64 * ring.getIdx + 4 + i)),
          ringAddGetBnr nr ring (len2bnr size))
    else if malloc = false then some (.noMemory size, ringAddGetBnr nr ring (len2bnr size))
    else
      let nxtidx := ring.getIdx + len2bnr size
      if nr ≤ nxtidx then
        let tailsz := (nr - ring.getIdx) * 64 - 4
        -- "the remaining block is sufficient for the data"
        let tailsz := if size < tailsz then size else tailsz
        some (.delivered id ((List.range tailsz).map (fun i => ring.blks (64 * ring.getIdx + 4 + i)) ++
            (List.range (size - tailsz)).map ring.blks),
          { ring with getIdx := nxtidx - nr })
      else
        some (.delivered id ((List.range size).map fun i => ring.blks (64 * ring.getIdx + 4 + i)),
          { ring with getIdx := nxtidx })

/-! ## A ring as a state machine -/

structure VbusLink where
  ring : VbusRing
  waiting : Option VbusPkg

inductive VbusOp
  /-- The writer takes a package from its queue, and finds its channel connected or not. -/
  | pop (connected : Bool) (dpkg : VbusPkg)
  /-- The interrupt of the other side resumes the writer. -/
  | resume
  | take (connected : UInt8 → Bool) (malloc : Bool)

inductive VbusEvent
  | skipped (dpkg : VbusPkg)
  | sent (dpkg : VbusPkg)
  /-- With what the reader's guards found. -/
  | arrived (connected : UInt8 → Bool) (malloc : Bool) (arrival : VbusArrival)

def busOut (nr : Nat) (ring : VbusRing) (dpkg : VbusPkg) : VbusLink × List VbusEvent :=
  let (ring, written) := busOutTry nr ring dpkg
  if written then (⟨ring, none⟩, [.sent dpkg]) else (⟨ring, some dpkg⟩, [])

def stepVbus (nr : Nat) (s : VbusLink) : VbusOp → Option (VbusLink × List VbusEvent)
  | .pop connected dpkg =>
    if s.waiting = none then
      if connected then some (busOut nr s.ring dpkg) else some (s, [.skipped dpkg])
    else none
  | .resume => s.waiting.map fun dpkg => busOut nr { s.ring with blocked := false } dpkg
  | .take connected malloc =>
    (busIn nr connected malloc s.ring).map fun r => ({ s with ring := r.2 }, [.arrived connected malloc r.1])

/-- An empty ring, wherever its indexes are; `rt_vbus_init` clears everything. -/
abbrev VbusRun (nr start : Nat) (blks : Nat → UInt8) : List VbusEvent → VbusLink → Prop :=
  Transition.Run (stepVbus nr) (fun _ _ => True) ⟨⟨start, start, false, blks⟩, none⟩

/-! ## Copies that go round the ring -/

variable {nr start size len : Nat} {pool : Nat → UInt8} {data : List UInt8}

/-- The bytes of `data` from `start` on, with those that do not fit from the first cell on. -/
def wrapCopy (size : Nat) (pool : Nat → UInt8) (start : Nat) (data : List UInt8) : Nat → UInt8 :=
  memcpy (memcpy pool start (data.take (size - start))) 0 (data.drop (size - start))

theorem wrapCopy_of_le (hle : start + data.length ≤ size) : wrapCopy size pool start data = memcpy pool start data := by
  have hfit : data.length ≤ size - start := by omega
  rw [wrapCopy, List.take_of_length_le hfit, List.drop_eq_nil_of_le hfit, memcpy_nil]

theorem add_mod_eq_ite {i : Nat} (hstart : start < size) (hi : i ≤ size) :
    (start + i) % size = if start + i < size then start + i else start + i - size := by
  split_ifs with h
  · exact Nat.mod_eq_of_lt h
  · rw [Nat.mod_eq_sub_mod (Nat.le_of_not_lt h), Nat.mod_eq_of_lt (by omega)]

theorem wrapCopy_in (hstart : start < size) (hfit : data.length ≤ size) (i : Nat) (hi : i < data.length) :
    wrapCopy size pool start data ((start + i) % size) = data[i] := by
  rw [add_mod_eq_ite hstart (by omega), wrapCopy]
  split_ifs with hwrap
  · have htail : i < (data.take (size - start)).length := by rw [List.length_take]; omega
    have hout : start + i < 0 ∨ 0 + (data.drop (size - start)).length ≤ start + i := by rw [List.length_drop]; omega
    rw [memcpy_out _ hout, memcpy_in _ _ htail, List.getElem_take]
  · have hhead : start + i - size < (data.drop (size - start)).length := by rw [List.length_drop]; omega
    have hcopied := memcpy_in (memcpy pool start (data.take (size - start))) 0 hhead
    rw [Nat.zero_add] at hcopied
    rw [hcopied, List.getElem_drop]
    congr 1
    omega

theorem wrapCopy_out {j : Nat} (hstart : start < size) (hfit : data.length ≤ size) (hsize : j < size)
    (hj : ∀ i < data.length, j ≠ (start + i) % size) : wrapCopy size pool start data j = pool j := by
  have hhead : j < 0 ∨ 0 + (data.drop (size - start)).length ≤ j := by
    rw [List.length_drop]
    by_contra hin
    have hne := hj (size - start + j) (by omega)
    rw [add_mod_eq_ite hstart (by omega), if_neg (by omega)] at hne
    omega
  have htail : j < start ∨ start + (data.take (size - start)).length ≤ j := by
    rw [List.length_take]
    by_contra hin
    have hne := hj (j - start) (by omega)
    rw [add_mod_eq_ite hstart (by omega), if_pos (by omega)] at hne
    omega
  rw [wrapCopy, memcpy_out _ hhead, memcpy_out _ htail]

theorem slice_split (hstart : start < size) (hlen : len ≤ size) (hwrap : size - start ≤ len) :
    slice size pool start len =
      (List.range (size - start)).map (fun i => pool (start + i)) ++ (List.range (len - (size - start))).map pool := by
  have hsum : len = size - start + (len - (size - start)) := by omega
  conv_lhs => rw [hsum]
  rw [slice_add]
  congr 1
  · refine List.map_congr_left fun i hi => ?_
    rw [List.mem_range] at hi
    rw [Nat.mod_eq_of_lt (by omega)]
  · refine List.map_congr_left fun i hi => ?_
    rw [List.mem_range] at hi
    rw [show start + (size - start) + i = size + i by omega, Nat.add_mod_left, Nat.mod_eq_of_lt (by omega)]

theorem slice_line (hlen : start + len ≤ size) :
    slice size pool start len = (List.range len).map fun i => pool (start + i) := by
  refine List.map_congr_left fun i hi => ?_
  rw [List.mem_range] at hi
  rw [Nat.mod_eq_of_lt (by omega)]

/-! ## Writing and reading one package -/

variable {ring : VbusRing} {pkg : VbusPkg} {j : Nat}

theorem len2bnr_bounds (len : Nat) : len + 4 ≤ 64 * len2bnr len ∧ 64 * len2bnr len < len + 4 + 64 := by
  unfold len2bnr
  omega

theorem VbusPkg.bnr_bounds (pkg : VbusPkg) : 4 + pkg.data.length ≤ 64 * pkg.bnr ∧ 0 < pkg.bnr := by
  have hbounds := len2bnr_bounds pkg.data.length
  unfold VbusPkg.bnr
  omega

def VbusPkg.head (pkg : VbusPkg) : List UInt8 := [pkg.id, pkg.prio, UInt8.ofNat pkg.data.length]

/-- The bytes from block `i` on are those of the package; the reserved byte may be anything. -/
structure VbusPkg.StoredAt (pkg : VbusPkg) (nr : Nat) (blks : Nat → UInt8) (i : Nat) : Prop where
  head : slice (64 * nr) blks (64 * i) 3 = pkg.head
  data : slice (64 * nr) blks (64 * i + 4) pkg.data.length = pkg.data

theorem VbusPkg.StoredAt.congr {blks blks' : Nat → UInt8} {i : Nat} (h : pkg.StoredAt nr blks i)
    (hsame : ∀ k < 64 * pkg.bnr, blks' ((64 * i + k) % (64 * nr)) = blks ((64 * i + k) % (64 * nr))) :
    pkg.StoredAt nr blks' i := by
  have hbnr := pkg.bnr_bounds
  refine ⟨(slice_congr fun k hk => ?_).trans h.head, (slice_congr fun k hk => ?_).trans h.data⟩
  · exact hsame k (by omega)
  · rw [Nat.add_assoc]
    exact hsame (4 + k) (by omega)

theorem VbusPkg.StoredAt.mod {blks : Nat → UInt8} {i : Nat} :
    pkg.StoredAt nr blks (i % nr) ↔ pkg.StoredAt nr blks i := by
  have hmod (k : Nat) : (64 * (i % nr) + k) % (64 * nr) = (64 * i + k) % (64 * nr) := by
    rw [← Nat.mul_mod_mul_left, Nat.mod_add_mod]
  have hslice (k n : Nat) : slice (64 * nr) blks (64 * (i % nr) + k) n = slice (64 * nr) blks (64 * i + k) n := by
    rw [← slice_mod, hmod, slice_mod]
  constructor
  · intro h
    exact ⟨(hslice 0 3).symm.trans h.head, (hslice 4 _).symm.trans h.data⟩
  · intro h
    exact ⟨(hslice 0 3).trans h.head, (hslice 4 _).trans h.data⟩

theorem busOutWrite_eq (hput : ring.putIdx < nr) (hbnr : pkg.bnr ≤ nr) : busOutWrite nr ring pkg =
    { ring with
      putIdx := (ring.putIdx + pkg.bnr) % nr
      blks := wrapCopy (64 * nr) (memcpy ring.blks (64 * ring.putIdx) pkg.head) (64 * ring.putIdx + 4) pkg.data } := by
  have hbounds := pkg.bnr_bounds
  rw [add_mod_eq_ite hput hbnr]
  simp only [busOutWrite]
  by_cases hwrap : nr ≤ ring.putIdx + pkg.bnr
  · have htail : 64 * nr - (64 * ring.putIdx + 4) = (nr - ring.putIdx) * 64 - 4 := by omega
    rw [if_pos hwrap, if_neg (Nat.not_lt.2 hwrap), wrapCopy, htail]
    split_ifs with hlen
    · rw [List.take_length, List.drop_length, List.take_of_length_le hlen.le, List.drop_eq_nil_of_le hlen.le]
      rfl
    · rfl
  · rw [if_neg hwrap, if_pos (Nat.lt_of_not_le hwrap), wrapCopy_of_le (by omega)]
    rfl

theorem busOutWrite_stored (hput : ring.putIdx < nr) (hbnr : pkg.bnr ≤ nr) :
    pkg.StoredAt nr (busOutWrite nr ring pkg).blks ring.putIdx := by
  have hbounds := pkg.bnr_bounds
  have hstart : 64 * ring.putIdx + 4 < 64 * nr := by omega
  rw [busOutWrite_eq hput hbnr]
  refine ⟨List.ext_getElem (by simp [VbusPkg.head]) fun k hk hk' => ?_, List.ext_getElem (by simp) fun k hk hk' => ?_⟩
  · have hthree : k < 3 := by simpa using hk
    simp only [slice, List.getElem_map, List.getElem_range]
    rw [Nat.mod_eq_of_lt (by omega), wrapCopy_out hstart (by omega) (by omega), memcpy_in _ _ hk']
    intro i hi heq
    have hround := add_mod_eq_ite hstart (by omega : i ≤ 64 * nr)
    rw [hround] at heq
    split_ifs at heq <;> omega
  · simp only [slice, List.getElem_map, List.getElem_range]
    exact wrapCopy_in hstart (by omega) k hk'

theorem busOutWrite_out (hput : ring.putIdx < nr) (hbnr : pkg.bnr ≤ nr) (hsize : j < 64 * nr)
    (hj : ∀ k < 64 * pkg.bnr, j ≠ (64 * ring.putIdx + k) % (64 * nr)) :
    (busOutWrite nr ring pkg).blks j = ring.blks j := by
  have hbounds := pkg.bnr_bounds
  rw [busOutWrite_eq hput hbnr]
  dsimp only
  rw [wrapCopy_out (by omega) (by omega) hsize fun i hi => ?_]
  · refine memcpy_out _ ?_
    simp only [VbusPkg.head, List.length_cons, List.length_nil]
    by_contra hin
    have hne := hj (j - 64 * ring.putIdx) (by omega)
    rw [Nat.mod_eq_of_lt (by omega)] at hne
    omega
  · rw [Nat.add_assoc]
    exact hj (4 + i) (by omega)

def VbusPkg.arrival (pkg : VbusPkg) (connected : UInt8 → Bool) (malloc : Bool) : VbusArrival :=
  if connected pkg.id = false then .invalid pkg.id
  else if pkg.id = 0 ∧ 60 < pkg.data.length then .tooBig pkg.data.length
  else if pkg.id ≠ 0 ∧ malloc = false then .noMemory pkg.data.length
  else .delivered pkg.id pkg.data

theorem ringAddGetBnr_eq {bnr : Nat} (hget : ring.getIdx < nr) (hbnr : bnr ≤ nr) :
    ringAddGetBnr nr ring bnr = { ring with getIdx := (ring.getIdx + bnr) % nr } := by
  rw [add_mod_eq_ite hget hbnr]
  unfold ringAddGetBnr
  dsimp only
  congr 1
  split_ifs <;> omega

theorem busIn_stored (connected : UInt8 → Bool) (malloc : Bool) (hget : ring.getIdx < nr) (hbnr : pkg.bnr ≤ nr)
    (hne : ring.getIdx ≠ ring.putIdx) (h : pkg.StoredAt nr ring.blks ring.getIdx) :
    busIn nr connected malloc ring =
      some (pkg.arrival connected malloc, { ring with getIdx := (ring.getIdx + pkg.bnr) % nr }) := by
  have hbounds := pkg.bnr_bounds
  have hlength := pkg.length_le
  have hhead := h.head
  simp only [slice, List.range_succ, List.range_zero, List.nil_append, List.cons_append, List.map_cons, List.map_nil,
    VbusPkg.head, List.cons.injEq, and_true] at hhead
  obtain ⟨hid, -, hlen⟩ := hhead
  rw [Nat.mod_eq_of_lt (by omega), Nat.add_zero] at hid
  rw [Nat.mod_eq_of_lt (by omega)] at hlen
  have hsize : (UInt8.ofNat pkg.data.length).toNat = pkg.data.length := UInt8.toNat_ofNat_of_lt' (Nat.lt_of_le_of_lt hlength (by decide))
  have hvalid : ¬ 32 < pkg.id := by
    have := pkg.id_lt
    rw [UInt8.lt_iff_toNat_lt] at this ⊢
    simp only [UInt8.reduceToNat] at this ⊢
    omega
  have hmove : ringAddGetBnr nr ring (len2bnr pkg.data.length) =
      { ring with getIdx := (ring.getIdx + pkg.bnr) % nr } := ringAddGetBnr_eq hget hbnr
  simp only [busIn, if_neg hne, hid, hlen, hsize, hvalid, false_or, hmove, VbusPkg.arrival]
  by_cases hconnected : connected pkg.id = false
  · rw [if_pos hconnected, if_pos hconnected]
  rw [if_neg hconnected, if_neg hconnected]
  by_cases hzero : pkg.id = 0
  · by_cases hbig : 60 < pkg.data.length
    · simp only [hzero, hbig, if_true, and_self]
    · have hline : slice (64 * nr) ring.blks (64 * ring.getIdx + 4) pkg.data.length = _ := slice_line (by omega)
      simp only [hzero, hbig, if_true, if_false, and_false, ne_eq, not_true, false_and, ← hline, h.data]
  by_cases hmalloc : malloc = false
  · simp only [hzero, hmalloc, if_true, if_false, false_and, ne_eq, not_false_iff, and_self]
  rw [Bool.not_eq_false] at hmalloc
  simp only [hzero, hmalloc, Bool.true_eq_false, if_false, false_and, and_false, add_mod_eq_ite hget hbnr]
  rw [show len2bnr pkg.data.length = pkg.bnr from rfl]
  by_cases hwrap : nr ≤ ring.getIdx + pkg.bnr
  · simp only [if_pos hwrap, if_neg (Nat.not_lt.2 hwrap)]
    by_cases htail : pkg.data.length < (nr - ring.getIdx) * 64 - 4
    · have hline : slice (64 * nr) ring.blks (64 * ring.getIdx + 4) pkg.data.length = _ := slice_line (by omega)
      rw [if_pos htail, Nat.sub_self, List.range_zero, List.map_nil, List.append_nil, ← hline, h.data]
    · have hroom : 64 * nr - (64 * ring.getIdx + 4) = (nr - ring.getIdx) * 64 - 4 := by omega
      have hparts : slice (64 * nr) ring.blks (64 * ring.getIdx + 4) pkg.data.length = _ :=
        slice_split (by omega) (by omega) (by omega)
      rw [hroom] at hparts
      rw [if_neg htail, ← hparts, h.data]
  · have hline : slice (64 * nr) ring.blks (64 * ring.getIdx + 4) pkg.data.length = _ := slice_line (by omega)
    simp only [if_neg hwrap, if_pos (Nat.lt_of_not_le hwrap), ← hline, h.data]

/-! ## The space of the ring -/

def VbusRing.unread (nr : Nat) (ring : VbusRing) : Nat := (ring.putIdx + nr - ring.getIdx) % nr

theorem VbusRing.unread_eq (hput : ring.putIdx < nr) (hget : ring.getIdx < nr) : ring.unread nr =
    if ring.getIdx ≤ ring.putIdx then ring.putIdx - ring.getIdx else ring.putIdx + nr - ring.getIdx := by
  unfold VbusRing.unread
  split_ifs with hle
  · rw [Nat.mod_eq_sub_mod (by omega), Nat.mod_eq_of_lt (by omega)]
    omega
  · exact Nat.mod_eq_of_lt (by omega)

theorem VbusRing.get_add_unread (hput : ring.putIdx < nr) (hget : ring.getIdx < nr) :
    (ring.getIdx + ring.unread nr) % nr = ring.putIdx := by
  have hunread := VbusRing.unread_eq hput hget
  split_ifs at hunread with hle
  · rw [hunread, Nat.add_sub_cancel' hle, Nat.mod_eq_of_lt hput]
  · rw [show ring.getIdx + ring.unread nr = ring.putIdx + nr by omega, Nat.add_mod_right, Nat.mod_eq_of_lt hput]

theorem busRingSpaceNr_eq (hput : ring.putIdx < nr) (hget : ring.getIdx < nr) :
    busRingSpaceNr nr ring = nr - 1 - ring.unread nr := by
  rw [VbusRing.unread_eq hput hget]
  unfold busRingSpaceNr
  dsimp only
  split_ifs <;> omega

theorem busOutTry_of_space (hspace : ring.unread nr + pkg.bnr < nr) (hput : ring.putIdx < nr) (hget : ring.getIdx < nr) :
    busOutTry nr ring pkg = (busOutWrite nr ring pkg, true) := by
  have heq := busRingSpaceNr_eq hput hget
  rw [busOutTry, if_neg (by omega)]

theorem busOutTry_of_full (hspace : ¬ ring.unread nr + pkg.bnr < nr) (hput : ring.putIdx < nr) (hget : ring.getIdx < nr) :
    busOutTry nr ring pkg = ({ ring with blocked := true }, false) := by
  have heq := busRingSpaceNr_eq hput hget
  rw [busOutTry, if_pos (by omega)]

theorem busOutWrite_unread (hput : ring.putIdx < nr) (hget : ring.getIdx < nr) (hspace : ring.unread nr + pkg.bnr < nr)
    (hj : j < 64 * ring.unread nr) :
    (busOutWrite nr ring pkg).blks ((64 * ring.getIdx + j) % (64 * nr)) = ring.blks ((64 * ring.getIdx + j) % (64 * nr)) := by
  have hpos : 0 < 64 * nr := by omega
  refine busOutWrite_out hput (by omega) (Nat.mod_lt _ hpos) fun k hk heq => ?_
  have haddr : (64 * ring.putIdx + k) % (64 * nr) = (64 * ring.getIdx + (64 * ring.unread nr + k)) % (64 * nr) := by
    conv_lhs => rw [← VbusRing.get_add_unread hput hget]
    rw [← Nat.mul_mod_mul_left, Nat.mod_add_mod, Nat.mul_add, Nat.add_assoc]
  rw [haddr] at heq
  have := (add_mod_inj (by omega) (by omega)).1 heq
  omega

/-- A package that is written is read back as it was, wherever it wraps, unless the reader's own guards drop it; the reader moves on by the blocks the writer used, and what is still to be read stays. -/
theorem vbusRing_roundTrip (hput : ring.putIdx < nr) (hget : ring.getIdx < nr)
    (hwritten : (busOutTry nr ring pkg).2 = true) :
    let ring' := (busOutTry nr ring pkg).1
    ring'.putIdx = (ring.putIdx + pkg.bnr) % nr ∧ ring'.getIdx = ring.getIdx ∧
      ring.unread nr + pkg.bnr < nr ∧ ring'.putIdx ≠ ring'.getIdx ∧
      (∀ k < 64 * ring.unread nr,
        ring'.blks ((64 * ring.getIdx + k) % (64 * nr)) = ring.blks ((64 * ring.getIdx + k) % (64 * nr))) ∧
      ∀ connected malloc, busIn nr connected malloc { ring' with getIdx := ring.putIdx } =
        some (pkg.arrival connected malloc, { ring' with getIdx := ring'.putIdx }) := by
  intro ring'
  have hbounds := pkg.bnr_bounds
  have hspace : ring.unread nr + pkg.bnr < nr := by
    by_contra hfull
    rw [busOutTry_of_full hfull hput hget] at hwritten
    exact Bool.false_ne_true hwritten
  have hring : ring' = busOutWrite nr ring pkg := congrArg Prod.fst (busOutTry_of_space hspace hput hget)
  have hbnr : pkg.bnr ≤ nr := by omega
  have hindex : ring'.putIdx = (ring.putIdx + pkg.bnr) % nr := by rw [hring, busOutWrite_eq hput hbnr]
  have hkept : ring'.getIdx = ring.getIdx := by rw [hring, busOutWrite_eq hput hbnr]
  have hother : ring.putIdx ≠ ring'.putIdx := by
    rw [hindex, add_mod_eq_ite hput hbnr]
    split_ifs <;> omega
  refine ⟨hindex, hkept, hspace, ?_, ?_, ?_⟩
  · have hunread := VbusRing.unread_eq hput hget
    rw [hkept, hindex, add_mod_eq_ite hput hbnr]
    split_ifs at hunread ⊢ <;> omega
  · intro k hk
    rw [hring]
    exact busOutWrite_unread hput hget hspace hk
  · intro connected malloc
    have hstored : pkg.StoredAt nr ring'.blks ring.putIdx := by
      rw [hring]
      exact busOutWrite_stored hput hbnr
    have hread := busIn_stored connected malloc (show ({ ring' with getIdx := ring.putIdx } : VbusRing).getIdx < nr from hput)
      hbnr hother hstored
    rw [hread, hindex]

def threeBlocks : VbusRing := ⟨2, 2, false, fun _ => 0⟩

def twoBlockPkg : VbusPkg := ⟨5, 1, true, List.replicate 100 7, by decide, by decide⟩

theorem vbusRing_roundTrip_wraps :
    threeBlocks.putIdx < 3 ∧ threeBlocks.getIdx < 3 ∧ (busOutTry 3 threeBlocks twoBlockPkg).2 = true ∧
      busIn 3 (fun _ => true) true { (busOutTry 3 threeBlocks twoBlockPkg).1 with getIdx := 2 } =
        some (twoBlockPkg.arrival (fun _ => true) true, { (busOutTry 3 threeBlocks twoBlockPkg).1 with
          getIdx := (busOutTry 3 threeBlocks twoBlockPkg).1.putIdx }) :=
  ⟨by decide, by decide, by decide, (vbusRing_roundTrip (by decide) (by decide) (by decide)).2.2.2.2.2 _ _⟩

/-- A package of 61 bytes on channel 0, which `rt_vbus_post` accepts. -/
def bigControlPkg : VbusPkg := ⟨0, 0, true, List.replicate 61 7, by decide, by decide⟩

/-- The writer sends it, and the reader drops it. -/
theorem vbusRing_control_tooBig :
    vbusPostPkgs 0 0 (by decide) (List.replicate 61 7) = [bigControlPkg] ∧
      (busOutTry 3 threeBlocks bigControlPkg).2 = true ∧
      (busIn 3 (fun _ => true) true { (busOutTry 3 threeBlocks bigControlPkg).1 with getIdx := 2 }).map Prod.fst =
        some (.tooBig 61) := by
  refine ⟨?_, by decide, by decide⟩
  rw [vbusPostPkgs]
  rfl

/-! ## The ring is a queue of packages -/

inductive VbusQueueOp
  | push (pkg : VbusPkg)
  | skip (pkg : VbusPkg)
  | take (connected : UInt8 → Bool) (malloc : Bool)
  | idle

def stepVbusQueue (q : List VbusPkg) : VbusQueueOp → Option (List VbusPkg × List VbusEvent)
  | .push pkg => some (q ++ [pkg], [.sent pkg])
  | .skip pkg => some (q, [.skipped pkg])
  | .take connected malloc => q.head?.map fun pkg => (q.tail, [.arrived connected malloc (pkg.arrival connected malloc)])
  | .idle => some (q, [])

def bnrs (pkgs : List VbusPkg) : Nat := (pkgs.map VbusPkg.bnr).sum

@[simp] theorem bnrs_nil : bnrs [] = 0 := rfl

@[simp] theorem bnrs_cons {pkgs : List VbusPkg} : bnrs (pkg :: pkgs) = pkg.bnr + bnrs pkgs := by simp [bnrs]

@[simp] theorem bnrs_append {pkgs pkgs' : List VbusPkg} : bnrs (pkgs ++ pkgs') = bnrs pkgs + bnrs pkgs' := by simp [bnrs]

/-- The unread blocks are those of the packages, each where those before it end. -/
structure VbusRing.Holds (ring : VbusRing) (nr : Nat) (pkgs : List VbusPkg) : Prop where
  get_lt : ring.getIdx < nr
  put_lt : ring.putIdx < nr
  unread : ring.unread nr = bnrs pkgs
  stored : ∀ before pkg after, pkgs = before ++ pkg :: after → pkg.StoredAt nr ring.blks (ring.getIdx + bnrs before)

variable {pkgs : List VbusPkg}

theorem VbusRing.unread_lt (hget : ring.getIdx < nr) : ring.unread nr < nr := Nat.mod_lt _ (by omega)

theorem VbusRing.Holds.write (h : ring.Holds nr pkgs) (hspace : ring.unread nr + pkg.bnr < nr) :
    (busOutWrite nr ring pkg).Holds nr (pkgs ++ [pkg]) := by
  have hput := h.put_lt
  have hget := h.get_lt
  have hbnr : pkg.bnr ≤ nr := by omega
  have hnext : (busOutWrite nr ring pkg).putIdx = (ring.putIdx + pkg.bnr) % nr := by rw [busOutWrite_eq hput hbnr]
  have hkept : (busOutWrite nr ring pkg).getIdx = ring.getIdx := by rw [busOutWrite_eq hput hbnr]
  have hlt : (busOutWrite nr ring pkg).putIdx < nr := by
    rw [hnext]
    exact Nat.mod_lt _ (by omega)
  refine ⟨hkept ▸ hget, hlt, ?_, ?_⟩
  · have hunread := VbusRing.unread_eq hput hget
    rw [VbusRing.unread_eq hlt (hkept ▸ hget), hkept, hnext, add_mod_eq_ite hput hbnr, bnrs_append, ← h.unread, bnrs_cons,
      bnrs_nil]
    split_ifs at hunread ⊢ <;> omega
  · intro before other after heq
    rw [hkept]
    rcases List.append_eq_append_iff.1 heq with ⟨rest, hbefore, hrest⟩ | ⟨rest, hpkgs, hrest⟩
    · -- the new package
      rcases List.cons_eq_append_iff.1 hrest with ⟨rfl, hother⟩ | ⟨tail, rfl, hother⟩
      · obtain ⟨rfl, -⟩ := List.cons.inj hother
        rw [List.append_nil] at hbefore
        rw [hbefore, ← h.unread, ← VbusPkg.StoredAt.mod, VbusRing.get_add_unread hput hget]
        exact busOutWrite_stored hput hbnr
      · exact absurd hother (by simp)
    · cases rest with
      | nil =>
        obtain ⟨rfl, -⟩ := List.cons.inj hrest
        rw [List.append_nil] at hpkgs
        rw [← hpkgs, ← h.unread, ← VbusPkg.StoredAt.mod, VbusRing.get_add_unread hput hget]
        exact busOutWrite_stored hput hbnr
      | cons first rest =>
        obtain ⟨rfl, -⟩ := List.cons.inj hrest
        refine (h.stored before other rest hpkgs).congr fun k hk => ?_
        have hunread := h.unread
        rw [hpkgs, bnrs_append, bnrs_cons] at hunread
        rw [Nat.mul_add, Nat.add_assoc]
        exact busOutWrite_unread hput hget hspace (by omega)

theorem VbusRing.Holds.read (connected : UInt8 → Bool) (malloc : Bool) (h : ring.Holds nr (pkg :: pkgs)) :
    ∃ ring', busIn nr connected malloc ring = some (pkg.arrival connected malloc, ring') ∧ ring'.Holds nr pkgs := by
  have hget := h.get_lt
  have hput := h.put_lt
  have hunread := h.unread
  have hlt := VbusRing.unread_lt hget
  have hbounds := pkg.bnr_bounds
  rw [bnrs_cons] at hunread
  have hbnr : pkg.bnr ≤ nr := by omega
  have heq := VbusRing.unread_eq hput hget
  have hne : ring.getIdx ≠ ring.putIdx := by
    split_ifs at heq <;> omega
  have hstored := h.stored [] pkg pkgs rfl
  have hnext : (ring.getIdx + pkg.bnr) % nr < nr := Nat.mod_lt _ (by omega)
  refine ⟨_, busIn_stored connected malloc hget hbnr hne hstored, hnext, hput, ?_, ?_⟩
  · have hafter : VbusRing.unread nr { ring with getIdx := (ring.getIdx + pkg.bnr) % nr } = _ :=
      VbusRing.unread_eq hput hnext
    rw [add_mod_eq_ite hget hbnr] at hafter
    dsimp only at hafter
    rw [add_mod_eq_ite hget hbnr, hafter]
    split_ifs at heq ⊢ <;> omega
  · intro before other after hpkgs
    have hother := h.stored (pkg :: before) other after (by rw [hpkgs, List.cons_append])
    rw [bnrs_cons, ← Nat.add_assoc] at hother
    rw [← VbusPkg.StoredAt.mod, Nat.mod_add_mod, VbusPkg.StoredAt.mod]
    exact hother

theorem VbusRing.Holds.read_nil {connected : UInt8 → Bool} {malloc : Bool} (h : ring.Holds nr []) : busIn nr connected malloc ring = none := by
  have hunread := VbusRing.unread_eq h.put_lt h.get_lt
  have hget := h.get_lt
  rw [h.unread, bnrs_nil] at hunread
  rw [busIn, if_pos]
  split_ifs at hunread <;> omega

theorem VbusRing.Holds.busOut (pkg : VbusPkg) (h : ring.Holds nr pkgs) : ∃ op q,
    stepVbusQueue pkgs op = some (q, (RtThread.busOut nr ring pkg).2) ∧
      (RtThread.busOut nr ring pkg).1.ring.Holds nr q := by
  by_cases hspace : ring.unread nr + pkg.bnr < nr
  · rw [RtThread.busOut, busOutTry_of_space hspace h.put_lt h.get_lt]
    exact ⟨.push pkg, _, rfl, h.write hspace⟩
  · rw [RtThread.busOut, busOutTry_of_full hspace h.put_lt h.get_lt]
    exact ⟨.idle, _, rfl, h.get_lt, h.put_lt, h.unread, h.stored⟩

theorem stepVbus_refines {s s' : VbusLink} {op : VbusOp} {events : List VbusEvent} (h : s.ring.Holds nr pkgs)
    (hs : stepVbus nr s op = some (s', events)) :
    ∃ op' q, stepVbusQueue pkgs op' = some (q, events) ∧ s'.ring.Holds nr q := by
  cases op with
  | pop connected dpkg =>
    simp only [stepVbus] at hs
    split_ifs at hs
    · have hout := Option.some.inj hs
      have hqueue := h.busOut dpkg
      rw [hout] at hqueue
      exact hqueue
    · obtain ⟨rfl, rfl⟩ := Prod.mk.inj (Option.some.inj hs)
      exact ⟨.skip dpkg, _, rfl, h⟩
  | resume =>
    obtain ⟨dpkg, -, heq⟩ := Option.map_eq_some_iff.1 hs
    obtain ⟨rfl, rfl⟩ := Prod.mk.inj heq
    have hrun : VbusRing.Holds { s.ring with blocked := false } nr pkgs := ⟨h.get_lt, h.put_lt, h.unread, h.stored⟩
    exact hrun.busOut dpkg
  | take connected malloc =>
    obtain ⟨r, hr, heq⟩ := Option.map_eq_some_iff.1 hs
    obtain ⟨rfl, rfl⟩ := Prod.mk.inj heq
    cases pkgs with
    | nil =>
      rw [h.read_nil] at hr
      cases hr
    | cons pkg pkgs =>
      obtain ⟨ring', hread, hholds⟩ := h.read connected malloc
      obtain rfl := Option.some.inj (hr.symm.trans hread)
      exact ⟨.take connected malloc, pkgs, rfl, hholds⟩

theorem vbusRun_refines {blks : Nat → UInt8} {trace : List VbusEvent} {s : VbusLink} (hstart : start < nr)
    (hrun : VbusRun nr start blks trace s) :
    ∃ q, Transition.Run stepVbusQueue (fun _ _ => True) [] trace q ∧ s.ring.Holds nr q := by
  refine hrun.refines (R := fun s q => s.ring.Holds nr q) ⟨hstart, hstart, ?_, ?_⟩ fun s q op s' events hR _ hs =>
    stepVbus_refines hR hs
  · have hunread : VbusRing.unread nr ⟨start, start, false, blks⟩ = _ := VbusRing.unread_eq hstart hstart
    rw [hunread, if_pos (Nat.le_refl _), Nat.sub_self, bnrs_nil]
  · intro before pkg after hnil
    simp at hnil

/-! ## First in, first out -/

def VbusEvent.sentPkg : VbusEvent → Option VbusPkg
  | .sent pkg => some pkg
  | _ => none

def VbusEvent.arrivalOf : VbusEvent → Option ((UInt8 → Bool) × Bool × VbusArrival)
  | .arrived connected malloc a => some (connected, malloc, a)
  | _ => none

/-- The arrival is that of the package, for the channels that are connected and the memory there is. -/
def VbusPkg.ArrivesAs (pkg : VbusPkg) (a : (UInt8 → Bool) × Bool × VbusArrival) : Prop := a.2.2 = pkg.arrival a.1 a.2.1

theorem VbusRing.Holds.isSome_take {s : VbusLink} (h : s.ring.Holds nr pkgs) (hne : pkgs ≠ []) (connected : UInt8 → Bool) (malloc : Bool) :
    (stepVbus nr s (.take connected malloc)).isSome = true := by
  cases pkgs with
  | nil => exact absurd rfl hne
  | cons pkg pkgs =>
    obtain ⟨ring', hread, -⟩ := h.read connected malloc
    rw [stepVbus, hread, Option.map_some, Option.isSome_some]

theorem VbusRing.Holds.pop_of_space {s : VbusLink} (h : s.ring.Holds nr pkgs) (hwaiting : s.waiting = none) (hspace : bnrs pkgs + pkg.bnr < nr) :
    ∃ s', stepVbus nr s (.pop true pkg) = some (s', [.sent pkg]) := by
  rw [stepVbus, if_pos hwaiting, if_pos rfl, RtThread.busOut, busOutTry_of_space (h.unread ▸ hspace) h.put_lt h.get_lt]
  exact ⟨_, rfl⟩

/-- The arrivals are those of the packages sent first, in their order. What is not yet read can be, and a package that has the space is sent. -/
theorem vbusRun_fifo {blks : Nat → UInt8} {trace : List VbusEvent} {s : VbusLink} (hstart : start < nr)
    (hrun : VbusRun nr start blks trace s) : ∃ taken unread, trace.filterMap VbusEvent.sentPkg = taken ++ unread ∧
      List.Forall₂ VbusPkg.ArrivesAs taken (trace.filterMap VbusEvent.arrivalOf) ∧ s.ring.Holds nr unread ∧
      (unread ≠ [] → ∀ connected malloc, (stepVbus nr s (.take connected malloc)).isSome = true) ∧
      ∀ pkg, s.waiting = none → bnrs unread + pkg.bnr < nr → ∃ s', stepVbus nr s (.pop true pkg) = some (s', [.sent pkg]) := by
  obtain ⟨q, hqueue, hholds⟩ := vbusRun_refines hstart hrun
  suffices hfifo : ∃ taken, trace.filterMap VbusEvent.sentPkg = taken ++ q ∧
      List.Forall₂ VbusPkg.ArrivesAs taken (trace.filterMap VbusEvent.arrivalOf) by
    obtain ⟨taken, hsent, harrived⟩ := hfifo
    exact ⟨taken, q, hsent, harrived, hholds, hholds.isSome_take, fun _ => hholds.pop_of_space⟩
  refine hqueue.invariant (I := fun trace q => ∃ taken, trace.filterMap VbusEvent.sentPkg = taken ++ q ∧
    List.Forall₂ VbusPkg.ArrivesAs taken (trace.filterMap VbusEvent.arrivalOf)) ⟨[], rfl, .nil⟩ ?_
  intro trace q op q' events ⟨taken, hsent, harrived⟩ _ hs
  rw [List.filterMap_append, List.filterMap_append, hsent]
  cases op with
  | push pkg =>
    obtain ⟨rfl, rfl⟩ := Prod.mk.inj (Option.some.inj hs)
    have hnone : [VbusEvent.sent pkg].filterMap VbusEvent.arrivalOf = [] := rfl
    rw [hnone, List.append_nil]
    exact ⟨taken, List.append_assoc .., harrived⟩
  | skip pkg =>
    obtain ⟨rfl, rfl⟩ := Prod.mk.inj (Option.some.inj hs)
    have hnone : [VbusEvent.skipped pkg].filterMap VbusEvent.arrivalOf = [] := rfl
    rw [hnone, List.append_nil]
    exact ⟨taken, List.append_nil _, harrived⟩
  | idle =>
    obtain ⟨rfl, rfl⟩ := Prod.mk.inj (Option.some.inj hs)
    exact ⟨taken, List.append_nil _, by simpa using harrived⟩
  | take connected malloc =>
    cases q with
    | nil => cases hs
    | cons pkg rest =>
      obtain ⟨rfl, rfl⟩ := Prod.mk.inj (Option.some.inj hs)
      refine ⟨taken ++ [pkg], by simp [VbusEvent.sentPkg], ?_⟩
      exact List.rel_append harrived (.cons rfl .nil)

/-- A package wraps and is read, and the next one has the space that it leaves. -/
theorem vbusRun_fifo_wraps : ∃ s, VbusRun 3 2 (fun _ => 0)
      [.sent twoBlockPkg, .arrived (fun _ => true) true (.delivered 5 (List.replicate 100 7)), .sent twoBlockPkg] s ∧
    s.ring.Holds 3 [twoBlockPkg] := by
  have hsent : VbusRun 3 2 (fun _ => 0) [.sent twoBlockPkg] _ := Transition.Run.start.next (a := .pop true twoBlockPkg) trivial rfl
  obtain ⟨taken, unread, hpkgs, harrived, hholds, -⟩ := vbusRun_fifo (by decide) hsent
  obtain rfl : taken = [] := List.forall₂_nil_right_iff.mp harrived
  obtain rfl : unread = [twoBlockPkg] := hpkgs.symm
  obtain ⟨ring, hread, -⟩ := hholds.read (fun _ => true) true
  have hdelivered := hsent.next (a := .take (fun _ => true) true) trivial (by rw [stepVbus, hread]; rfl)
  obtain ⟨taken, unread, hpkgs, harrived, -, -, hwritten⟩ := vbusRun_fifo (by decide) hdelivered
  have hlength : taken.length = 1 := harrived.length_eq
  obtain ⟨pkg, rfl⟩ := List.length_eq_one_iff.1 hlength
  obtain ⟨rfl, rfl⟩ : twoBlockPkg = pkg ∧ unread = [] := ⟨(List.cons.inj hpkgs).1, (List.cons.inj hpkgs).2.symm⟩
  obtain ⟨s, hs⟩ := hwritten twoBlockPkg rfl (by decide)
  have hagain := hdelivered.next (a := .pop true twoBlockPkg) trivial hs
  obtain ⟨taken, unread, hpkgs, harrived, hholds, -⟩ := vbusRun_fifo (by decide) hagain
  have hlength : taken.length = 1 := harrived.length_eq
  obtain ⟨pkg, rfl⟩ := List.length_eq_one_iff.1 hlength
  obtain rfl : unread = [twoBlockPkg] := (List.cons.inj hpkgs).2.symm
  exact ⟨s, hagain, hholds⟩

end RtThread
