import RtThread.Lib.ByteMemory
import RtThread.Mem.Memheap

/-!
# Filling and copying memory

`rt_memset`, `rt_memcpy` and `rt_memmove` of `kservice.c`, without `RT_USING_TINY_SIZE`, for a `long` of four bytes and one of eight. The length of a copy goes through an `int`: with a `long` of eight bytes only its low half is looked at. The objects do not wrap round the address space.
-/

namespace RtThread

open Function ByteMemory

/-- `sizeof(long)` -/
inductive LongSize
  | four | eight
  deriving DecidableEq

def LongSize.bytes : LongSize → Nat
  | four => 4
  | eight => 8

def LongSize.bits (long : LongSize) : Nat := 8 * long.bytes

theorem LongSize.bytes_pos (long : LongSize) : 0 < long.bytes := by
  cases long <;> decide

/-! ## `rt_memset` -/

/-- "Store D into each char sized location in BUFFER" -/
def memsetBuffer : LongSize → Nat → Nat
  | .four, d =>
    let buffer := d <<< 8 ||| d
    (buffer ||| buffer <<< 16) % 4294967296
  | .eight, d => (fun buffer => (buffer <<< 8 ||| d) % 18446744073709551616)^[8] 0

/-- `while (count >= LBLOCKSIZE * 4)`, with the memory, `aligned_addr` and `count`. -/
def memsetBlocks (long : LongSize) (big : Bool) (buffer : Nat) (mem : Nat → UInt8) (a count : Nat) : (Nat → UInt8) × Nat × Nat :=
  if 4 * long.bytes ≤ count then
    let put := store big long.bytes
    memsetBlocks long big buffer
      (put (put (put (put mem a buffer) (a + long.bytes) buffer) (a + 2 * long.bytes) buffer) (a + 3 * long.bytes) buffer)
      (a + 4 * long.bytes) (count - 4 * long.bytes)
  else (mem, a, count)
termination_by count
decreasing_by
  have := long.bytes_pos
  omega

/-- `while (count >= LBLOCKSIZE)` -/
def memsetWords (long : LongSize) (big : Bool) (buffer : Nat) (mem : Nat → UInt8) (a count : Nat) : (Nat → UInt8) × Nat × Nat :=
  if long.bytes ≤ count then
    memsetWords long big buffer (store big long.bytes mem a buffer) (a + long.bytes) (count - long.bytes)
  else (mem, a, count)
termination_by count
decreasing_by
  have := long.bytes_pos
  omega

/-- `while (count--)` -/
def memsetBytes (c : UInt8) : (Nat → UInt8) → Nat → Nat → Nat → UInt8
  | mem, _, 0 => mem
  | mem, m, count + 1 => memsetBytes c (update mem m c) (m + 1) count

def LongSize.rtMemset (long : LongSize) (big : Bool) (mem : Nat → UInt8) (s : Nat) (c : BitVec 32) (count : Nat) : Nat → UInt8 :=
  let d := (c &&& 0xff).toNat
  if ¬count < long.bytes ∧ s &&& (long.bytes - 1) = 0 then
    let blocks := memsetBlocks long big (memsetBuffer long d) mem s count
    let words := memsetWords long big (memsetBuffer long d) blocks.1 blocks.2.1 blocks.2.2
    memsetBytes (UInt8.ofNat d) words.1 words.2.1 words.2.2
  else memsetBytes (UInt8.ofNat d) mem s count

/-! ## `rt_memcpy` -/

/-- An `int` where a `size_t` is asked for. -/
def sizeOfInt (long : LongSize) (len : BitVec 32) : Nat := (len.signExtend long.bits).toNat

/-- `*aligned_dst++ = *aligned_src++` -/
def copyWord (long : LongSize) (big : Bool) (mem : Nat → UInt8) (dst src : Nat) : Nat → UInt8 :=
  store big long.bytes mem dst (load big long.bytes mem src)

theorem sizeOfInt_le_iff (long : LongSize) (len : BitVec 32) {n : Nat} (hn : n ≤ 32) : n ≤ sizeOfInt long len ↔ n ≤ len.toNat := by
  have hlen := len.isLt
  cases long with
  | four =>
    have hsame : sizeOfInt .four len = len.toNat := by
      rw [sizeOfInt, show LongSize.four.bits = 32 by rfl, BitVec.signExtend_eq]
    rw [hsame]
  | eight =>
    rw [sizeOfInt, show LongSize.eight.bits = 64 by rfl, BitVec.toNat_signExtend]
    have hwide : (len.setWidth 64).toNat = len.toNat := by
      rw [BitVec.toNat_setWidth]
      omega
    rw [hwide]
    cases hmsb : len.msb with
    | false => simp
    | true =>
      have hbig : 2 ^ 31 ≤ len.toNat := by
        have := BitVec.msb_eq_decide len
        rw [hmsb] at this
        simpa using this.symm
      simp only [if_true]
      omega

theorem toNat_sub_part (long : LongSize) {len : BitVec 32} {n : Nat} (hn : n ≤ 32) (hle : n ≤ sizeOfInt long len) :
    (len - BitVec.ofNat 32 n).toNat = len.toNat - n := by
  have hlen := len.isLt
  have hle' := (sizeOfInt_le_iff long len hn).mp hle
  rw [BitVec.toNat_sub, BitVec.toNat_ofNat]
  omega

theorem LongSize.four_bytes_le (long : LongSize) : 4 * long.bytes ≤ 32 := by
  cases long <;> decide

/-- `while (len >= BIGBLOCKSIZE)`, with the memory, the two addresses and `len`. -/
def memcpyBlocks (long : LongSize) (big : Bool) (mem : Nat → UInt8) (dst src : Nat) (len : BitVec 32) : (Nat → UInt8) × Nat × Nat × BitVec 32 :=
  if 4 * long.bytes ≤ sizeOfInt long len then
    let n := long.bytes
    let copied := copyWord long big
    memcpyBlocks long big
      (copied (copied (copied (copied mem dst src) (dst + n) (src + n)) (dst + 2 * n) (src + 2 * n)) (dst + 3 * n) (src + 3 * n))
      (dst + 4 * n) (src + 4 * n) (len - BitVec.ofNat 32 (4 * n))
  else (mem, dst, src, len)
termination_by len.toNat
decreasing_by
  have hpos := long.bytes_pos
  have hle := (sizeOfInt_le_iff long len long.four_bytes_le).mp (by assumption)
  rw [toNat_sub_part long long.four_bytes_le (by assumption)]
  omega

/-- `while (len >= LITTLEBLOCKSIZE)` -/
def memcpyWords (long : LongSize) (big : Bool) (mem : Nat → UInt8) (dst src : Nat) (len : BitVec 32) : (Nat → UInt8) × Nat × Nat × BitVec 32 :=
  if long.bytes ≤ sizeOfInt long len then
    memcpyWords long big (copyWord long big mem dst src) (dst + long.bytes) (src + long.bytes) (len - BitVec.ofNat 32 long.bytes)
  else (mem, dst, src, len)
termination_by len.toNat
decreasing_by
  have hpos := long.bytes_pos
  have hsmall : long.bytes ≤ 32 := Nat.le_trans (Nat.le_mul_of_pos_left _ (by decide)) long.four_bytes_le
  have hle := (sizeOfInt_le_iff long len hsmall).mp (by assumption)
  rw [toNat_sub_part long hsmall (by assumption)]
  omega

/-- `while (len--) *dst_ptr++ = *src_ptr++;`: an `int` that is negative is counted down round its range. -/
def copyUp : (Nat → UInt8) → Nat → Nat → Nat → Nat → UInt8
  | mem, _, _, 0 => mem
  | mem, dst, src, len + 1 => copyUp (update mem dst (mem src)) (dst + 1) (src + 1) len

def LongSize.rtMemcpy (long : LongSize) (big : Bool) (mem : Nat → UInt8) (dst src count : Nat) : Nat → UInt8 :=
  let len := BitVec.ofNat 32 count
  if ¬sizeOfInt long len < 4 * long.bytes ∧ dst &&& (long.bytes - 1) ||| src &&& (long.bytes - 1) = 0 then
    let blocks := memcpyBlocks long big mem dst src len
    let words := memcpyWords long big blocks.1 blocks.2.1 blocks.2.2.1 blocks.2.2.2
    copyUp words.1 words.2.1 words.2.2.1 words.2.2.2.toNat
  else copyUp mem dst src len.toNat

/-! ## `rt_memmove` -/

/-- `while (n--) *(--tmp) = *(--s);`, with the two ends. -/
def copyDown : (Nat → UInt8) → Nat → Nat → Nat → Nat → UInt8
  | mem, _, _, 0 => mem
  | mem, tmp, s, n + 1 => copyDown (update mem (tmp - 1) (mem (s - 1))) (tmp - 1) (s - 1) n

def LongSize.rtMemmove (long : LongSize) (mem : Nat → UInt8) (dest src n : Nat) : Nat → UInt8 :=
  if src < dest ∧ dest < (src + n) % 2 ^ long.bits then copyDown mem (dest + n) (src + n) n else copyUp mem dest src n

/-! ## Byte by byte -/

variable {long : LongSize} {big : Bool} {mem : Nat → UInt8} {a dst src count n k buffer : Nat} {c : UInt8} {len : BitVec 32}

theorem memsetBytes_eq (mem : Nat → UInt8) (a count : Nat) : memsetBytes c mem a count = fill mem a count c := by
  induction count generalizing mem a with
  | zero => exact fill_zero.symm
  | succ count ih =>
    have hone : update mem a c = fill mem a 1 c := by
      funext i
      by_cases heq : i = a
      · rw [heq, update_self, fill, if_pos ⟨Nat.le_refl _, Nat.lt_succ_self a⟩]
      · rw [update_of_ne heq, fill, if_neg (by omega)]
    rw [memsetBytes, ih, hone, fill_add, Nat.add_comm]

theorem update_eq_copy (mem : Nat → UInt8) (dst src : Nat) : update mem dst (mem src) = copy mem dst src 1 := by
  funext i
  by_cases heq : i = dst
  · rw [heq, update_self, copy, if_pos ⟨Nat.le_refl _, Nat.lt_succ_self dst⟩, Nat.sub_self, Nat.add_zero]
  · rw [update_of_ne heq, copy, if_neg (by omega)]

theorem copyUp_eq (h : Forward dst src n) : copyUp mem dst src n = copy mem dst src n := by
  induction n generalizing mem dst src with
  | zero => exact copy_zero.symm
  | succ n ih =>
    rw [Nat.add_comm] at h
    rw [copyUp, update_eq_copy, ih h.right, copy_add h, Nat.add_comm]

theorem copyDown_eq (h : src < dst) : copyDown mem (dst + n) (src + n) n = copy mem dst src n := by
  induction n generalizing mem with
  | zero => exact copy_zero.symm
  | succ n ih =>
    rw [copyDown, show dst + (n + 1) - 1 = dst + n by rfl, show src + (n + 1) - 1 = src + n by rfl, update_eq_copy, ih, copy_add_high h]

/-! ## The loops over words -/

theorem memsetBuffer_bytes (long : LongSize) (c : UInt8) :
    wordBytes long.bytes (memsetBuffer long c.toNat) = List.replicate long.bytes c := by
  have hall : ∀ d : Fin 256, wordBytes long.bytes (memsetBuffer long d) = List.replicate long.bytes (UInt8.ofNat d) := by
    cases long <;> decide +kernel
  have hbyte := hall ⟨c.toNat, c.toNat_lt⟩
  rwa [UInt8.ofNat_toNat] at hbyte

theorem memsetBlocks_eq (big : Bool) (hbuffer : wordBytes long.bytes buffer = List.replicate long.bytes c) (mem : Nat → UInt8) (a count : Nat) :
    ∃ k ≤ count, memsetBlocks long big buffer mem a count = (fill mem a k c, a + k, count - k) := by
  induction count using Nat.strongRecOn generalizing mem a with
  | ind count ih =>
    have hpos := long.bytes_pos
    rw [memsetBlocks]
    by_cases hmore : 4 * long.bytes ≤ count
    · obtain ⟨k, hk, heq⟩ := ih (count - 4 * long.bytes) (by omega) (fill mem a (4 * long.bytes) c) (a + 4 * long.bytes)
      refine ⟨4 * long.bytes + k, by omega, ?_⟩
      have hfour : fill (fill (fill (fill mem a long.bytes c) (a + long.bytes) long.bytes c) (a + 2 * long.bytes) long.bytes c)
          (a + 3 * long.bytes) long.bytes c = fill mem a (4 * long.bytes) c := by
        rw [fill_add, show long.bytes + long.bytes = 2 * long.bytes by omega, fill_add,
          show 2 * long.bytes + long.bytes = 3 * long.bytes by omega, fill_add, show 3 * long.bytes + long.bytes = 4 * long.bytes by omega]
      rw [if_pos hmore]
      simp only [store_fill hbuffer, hfour]
      rw [heq, fill_add, Nat.add_assoc, Nat.sub_sub]
    · rw [if_neg hmore]
      exact ⟨0, Nat.zero_le _, by rw [fill_zero]; rfl⟩

theorem memsetWords_eq (big : Bool) (hbuffer : wordBytes long.bytes buffer = List.replicate long.bytes c) (mem : Nat → UInt8) (a count : Nat) :
    ∃ k ≤ count, memsetWords long big buffer mem a count = (fill mem a k c, a + k, count - k) := by
  induction count using Nat.strongRecOn generalizing mem a with
  | ind count ih =>
    have hpos := long.bytes_pos
    rw [memsetWords]
    by_cases hmore : long.bytes ≤ count
    · obtain ⟨k, hk, heq⟩ := ih (count - long.bytes) (by omega) (fill mem a long.bytes c) (a + long.bytes)
      refine ⟨long.bytes + k, by omega, ?_⟩
      rw [if_pos hmore, store_fill hbuffer, heq, fill_add, Nat.add_assoc, Nat.sub_sub]
    · rw [if_neg hmore]
      exact ⟨0, Nat.zero_le _, by rw [fill_zero]; rfl⟩

theorem LongSize.rtMemset_eq (long : LongSize) (big : Bool) (mem : Nat → UInt8) (s : Nat) (c : BitVec 32) (count : Nat) :
    long.rtMemset big mem s c count = fill mem s count (UInt8.ofNat c.toNat) := by
  have hbyte : UInt8.ofNat (c &&& 0xff).toNat = UInt8.ofNat c.toNat := by
    apply UInt8.toNat_inj.mp
    rw [UInt8.toNat_ofNat', UInt8.toNat_ofNat', BitVec.toNat_and]
    have hmask : (0xff : BitVec 32).toNat = 2 ^ 8 - 1 := rfl
    rw [hmask, Nat.and_two_pow_sub_one_eq_mod, Nat.mod_mod]
  have hlow : (c &&& 0xff).toNat = (UInt8.ofNat (c &&& 0xff).toNat).toNat := by
    rw [UInt8.toNat_ofNat', BitVec.toNat_and]
    have hmask : (0xff : BitVec 32).toNat = 2 ^ 8 - 1 := rfl
    rw [hmask, Nat.and_two_pow_sub_one_eq_mod, Nat.mod_mod]
  have hbuffer := memsetBuffer_bytes long (UInt8.ofNat (c &&& 0xff).toNat)
  rw [← hlow] at hbuffer
  rw [← hbyte, LongSize.rtMemset]
  by_cases hwords : ¬count < long.bytes ∧ s &&& (long.bytes - 1) = 0
  · obtain ⟨k, hk, hblocks⟩ := memsetBlocks_eq big hbuffer mem s count
    obtain ⟨j, hj, hrest⟩ := memsetWords_eq big hbuffer (fill mem s k (UInt8.ofNat (c &&& 0xff).toNat)) (s + k) (count - k)
    simp only [if_pos hwords, hblocks, hrest, memsetBytes_eq]
    rw [fill_add, fill_add]
    congr 1
    omega
  · simp only [if_neg hwords, memsetBytes_eq]

/-! ## Copies -/

theorem copyWord_eq (long : LongSize) (big : Bool) (mem : Nat → UInt8) (dst src : Nat) :
    copyWord long big mem dst src = copy mem dst src long.bytes := store_load big long.bytes mem dst src

theorem copy_four (h : Forward dst src (4 * n)) :
    copy (copy (copy (copy mem dst src n) (dst + n) (src + n) n) (dst + 2 * n) (src + 2 * n) n) (dst + 3 * n) (src + 3 * n) n =
      copy mem dst src (4 * n) := by
  have hthree : Forward dst src (3 * n + n) := by rwa [show 3 * n + n = 4 * n by omega]
  have htwo : Forward dst src (2 * n + n) := by
    rw [show 2 * n + n = 3 * n by omega]
    exact hthree.left
  have hone : Forward dst src (n + n) := by
    rw [show n + n = 2 * n by omega]
    exact htwo.left
  rw [copy_add hone, show n + n = 2 * n by omega, copy_add htwo, show 2 * n + n = 3 * n by omega, copy_add hthree,
    show 3 * n + n = 4 * n by omega]

theorem memcpyBlocks_eq (long : LongSize) (big : Bool) (mem : Nat → UInt8) (dst src : Nat) (len : BitVec 32)
    (h : Forward dst src len.toNat) : ∃ k rest, k + rest.toNat = len.toNat ∧
      memcpyBlocks long big mem dst src len = (copy mem dst src k, dst + k, src + k, rest) := by
  induction hlen : len.toNat using Nat.strongRecOn generalizing mem dst src len with
  | ind count ih =>
    have hpos := long.bytes_pos
    rw [memcpyBlocks]
    by_cases hmore : 4 * long.bytes ≤ sizeOfInt long len
    · have hle := (sizeOfInt_le_iff long len long.four_bytes_le).mp hmore
      have hsub := toNat_sub_part long long.four_bytes_le hmore
      have hsplit : len.toNat = 4 * long.bytes + (len - BitVec.ofNat 32 (4 * long.bytes)).toNat := by omega
      rw [hsplit] at h
      obtain ⟨k, rest, hsum, heq⟩ := ih (len - BitVec.ofNat 32 (4 * long.bytes)).toNat (by omega) (copy mem dst src (4 * long.bytes))
        (dst + 4 * long.bytes) (src + 4 * long.bytes) _ h.right rfl
      refine ⟨4 * long.bytes + k, rest, by omega, ?_⟩
      rw [if_pos hmore]
      simp only [copyWord_eq, copy_four h.left]
      rw [← hsum] at h
      rw [heq, copy_add ((Nat.add_assoc _ _ _ ▸ h).left), Nat.add_assoc, Nat.add_assoc]
    · rw [if_neg hmore]
      exact ⟨0, len, by omega, by rw [copy_zero]; rfl⟩

theorem memcpyWords_eq (long : LongSize) (big : Bool) (mem : Nat → UInt8) (dst src : Nat) (len : BitVec 32)
    (h : Forward dst src len.toNat) : ∃ k rest, k + rest.toNat = len.toNat ∧
      memcpyWords long big mem dst src len = (copy mem dst src k, dst + k, src + k, rest) := by
  induction hlen : len.toNat using Nat.strongRecOn generalizing mem dst src len with
  | ind count ih =>
    have hpos := long.bytes_pos
    have hsmall : long.bytes ≤ 32 := Nat.le_trans (Nat.le_mul_of_pos_left _ (by decide)) long.four_bytes_le
    rw [memcpyWords]
    by_cases hmore : long.bytes ≤ sizeOfInt long len
    · have hle := (sizeOfInt_le_iff long len hsmall).mp hmore
      have hsub := toNat_sub_part long hsmall hmore
      have hsplit : len.toNat = long.bytes + (len - BitVec.ofNat 32 long.bytes).toNat := by omega
      rw [hsplit] at h
      obtain ⟨k, rest, hsum, heq⟩ := ih (len - BitVec.ofNat 32 long.bytes).toNat (by omega) (copy mem dst src long.bytes)
        (dst + long.bytes) (src + long.bytes) _ h.right rfl
      refine ⟨long.bytes + k, rest, by omega, ?_⟩
      rw [← hsum] at h
      rw [if_pos hmore, copyWord_eq, heq, copy_add ((Nat.add_assoc _ _ _ ▸ h).left), Nat.add_assoc, Nat.add_assoc]
    · rw [if_neg hmore]
      exact ⟨0, len, by omega, by rw [copy_zero]; rfl⟩

theorem LongSize.rtMemcpy_eq (long : LongSize) (big : Bool) (mem : Nat → UInt8) (h : Forward dst src (count % 4294967296)) :
    long.rtMemcpy big mem dst src count = copy mem dst src (count % 4294967296) := by
  have hlen : (BitVec.ofNat 32 count).toNat = count % 4294967296 := BitVec.toNat_ofNat count 32
  rw [← hlen] at h ⊢
  rw [LongSize.rtMemcpy]
  by_cases hwords : ¬sizeOfInt long (BitVec.ofNat 32 count) < 4 * long.bytes ∧ dst &&& (long.bytes - 1) ||| src &&& (long.bytes - 1) = 0
  · obtain ⟨k, rest, hsum, hblocks⟩ := memcpyBlocks_eq long big mem dst src _ h
    rw [← hsum] at h ⊢
    obtain ⟨j, last, hsum', hrest⟩ := memcpyWords_eq long big (copy mem dst src k) (dst + k) (src + k) rest h.right
    rw [← hsum'] at h ⊢
    simp only [if_pos hwords, hblocks, hrest]
    rw [copyUp_eq h.right.right, copy_add h.right, copy_add h]
  · simp only [if_neg hwords]
    exact copyUp_eq h

theorem LongSize.rtMemmove_eq (mem : Nat → UInt8) (hdest : dst + n ≤ 2 ^ long.bits) : long.rtMemmove mem dst src n = copy mem dst src n := by
  rw [LongSize.rtMemmove]
  by_cases hdown : src < dst ∧ dst < (src + n) % 2 ^ long.bits
  · rw [if_pos hdown, copyDown_eq hdown.1]
  · rw [if_neg hdown]
    apply copyUp_eq
    rintro ⟨hbehind, hin⟩
    have hlt : src + n < 2 ^ long.bits := by omega
    rw [Nat.mod_eq_of_lt hlt] at hdown
    exact hdown ⟨hbehind, hin⟩

theorem forward_of_apart (hapart : dst + count ≤ src ∨ src + count ≤ dst) : Forward dst src (count % 4294967296) := by
  have hle := Nat.mod_le count 4294967296
  unfold Forward
  omega

/-- The copies of `mem.c` and of `memheap.c` are those of `rt_memcpy`. -/
theorem LongSize.rtMemcpy_heap (long : LongSize) (big : Bool) (heap : Heap) (memheap : Memheap)
    (hapart : dst + count ≤ src ∨ src + count ≤ dst) :
    (RtThread.rtMemcpy heap dst src count).byte = long.rtMemcpy big heap.byte dst src count ∧
      (memheap.copy dst src count).byte = long.rtMemcpy big memheap.byte dst src count :=
  ⟨(long.rtMemcpy_eq big _ (forward_of_apart hapart)).symm, (long.rtMemcpy_eq big _ (forward_of_apart hapart)).symm⟩

/-- `rt_memset` and `rt_memmove` do what they do byte by byte. `rt_memcpy` does, whatever the memory holds, exactly for lengths of less than 32 bits: with a `long` of four bytes always. -/
theorem rtMemory_bytewise (long : LongSize) (big : Bool) :
    (∀ mem s c count, long.rtMemset big mem s c count = fill mem s count (UInt8.ofNat c.toNat)) ∧
    (∀ mem dest src n, dest + n ≤ 2 ^ long.bits → long.rtMemmove mem dest src n = copy mem dest src n) ∧
    ∀ dst src count, dst + count ≤ src ∨ src + count ≤ dst →
      ((∀ mem, long.rtMemcpy big mem dst src count = copy mem dst src count) ↔ count < 4294967296) := by
  refine ⟨LongSize.rtMemset_eq long big, fun mem dest src n hdest => LongSize.rtMemmove_eq mem hdest, fun dst src count hapart => ?_⟩
  have hforward := forward_of_apart hapart
  constructor
  · intro hall
    by_contra hlong
    have hcopy := congrFun (hall fun i => if i = src + (count - 1) then 1 else 0) (dst + (count - 1))
    rw [LongSize.rtMemcpy_eq long big _ hforward] at hcopy
    have hlt := Nat.mod_lt count (show 0 < 4294967296 by decide)
    have hsource : src + (dst + (count - 1) - dst) = src + (count - 1) := by omega
    simp only [copy] at hcopy
    rw [if_neg (by omega), if_neg (by omega), if_pos (by omega), hsource, if_pos rfl] at hcopy
    exact absurd hcopy (by decide)
  · intro hlt mem
    have heq := LongSize.rtMemcpy_eq long big mem hforward
    rwa [Nat.mod_eq_of_lt hlt] at heq

theorem rtMemory_bytewise_forty : ∀ mem : Nat → UInt8, LongSize.eight.rtMemcpy true mem 0 64 40 = copy mem 0 64 40 :=
  ((rtMemory_bytewise .eight true).2.2 0 64 40 (by decide)).mpr (by decide)

/-- Of 4294967296 bytes none is copied where `long` has eight bytes. -/
theorem rtMemory_bytewise_fails : ∃ mem : Nat → UInt8, LongSize.eight.rtMemcpy false mem 4294967296 0 4294967296 = mem ∧
    LongSize.eight.rtMemcpy false mem 4294967296 0 4294967296 ≠ copy mem 4294967296 0 4294967296 := by
  have hnone := LongSize.rtMemcpy_eq .eight false (fun i => if i = 0 then 1 else 0)
    (show Forward 4294967296 0 (4294967296 % 4294967296) from fun h => absurd h.2 (by decide))
  rw [Nat.mod_self, copy_zero] at hnone
  refine ⟨_, hnone, fun hcopy => ?_⟩
  have hfirst := congrFun (hnone.symm.trans hcopy) 4294967296
  simp only [copy] at hfirst
  rw [if_neg (by decide), if_pos (by decide), if_pos (by decide)] at hfirst
  exact absurd hfirst (by decide)

end RtThread
