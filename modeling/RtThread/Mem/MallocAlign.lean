import RtThread.Kernel.MemoryCopy

/-!
# Aligned blocks

`rt_malloc_align` and `rt_free_align` of `kservice.c`, over any `rt_malloc`. The address of the block that `rt_malloc` has given is kept in the word below the aligned address.
-/

namespace RtThread

open ByteMemory

variable {long : LongSize} {big : Bool} {w k : Nat} {x size align ptr : BitVec long.bits} {mem mem' : Nat → UInt8}

/-- `(x + mask) & ~mask` -/
def alignUp (x mask : BitVec w) : BitVec w := (x + mask) &&& ~~~mask

/-- `sizeof(void*) - 1`, as a word. -/
def uintptrMask (long : LongSize) : BitVec long.bits := BitVec.ofNat long.bits (long.bytes - 1)

/-- The alignment and the size that `rt_malloc_align` goes on with. -/
def alignRounded (long : LongSize) (align : BitVec long.bits) : BitVec long.bits := alignUp align (uintptrMask long)

def alignSize (long : LongSize) (size align : BitVec long.bits) : BitVec long.bits :=
  alignUp size (uintptrMask long) + alignRounded long align

/-- `align_ptr` for the block that `rt_malloc` has given. -/
def alignPtr (long : LongSize) (align ptr : BitVec long.bits) : BitVec long.bits :=
  let align := alignRounded long align
  if ptr &&& (align - 1) = 0 then ptr + align else alignUp ptr (align - 1)

/-- `rt_malloc_align`, with the memory. -/
def rtMallocAlign (long : LongSize) (big : Bool) (rtMalloc : BitVec long.bits → BitVec long.bits) (mem : Nat → UInt8)
    (size align : BitVec long.bits) : BitVec long.bits × (Nat → UInt8) :=
  let ptr := rtMalloc (alignSize long size align)
  if ptr = 0 then (0, mem)
  else
    let below := alignPtr long align ptr - BitVec.ofNat long.bits long.bytes
    (alignPtr long align ptr, store big long.bytes mem below.toNat ptr.toNat)

/-- The address that `rt_free_align` passes to `rt_free`. -/
def rtFreeAlign (long : LongSize) (big : Bool) (mem : Nat → UInt8) (ptr : BitVec long.bits) : BitVec long.bits :=
  BitVec.ofNat long.bits (load big long.bytes mem (ptr - BitVec.ofNat long.bits long.bytes).toNat)

/-- `RT_ALIGN` without a word that it wraps in. -/
def roundUp (x n : Nat) : Nat := (x + (n - 1)) / n * n

/-- The sizes together are a word, and the next aligned address leaves room for the one that is saved. -/
def RoomForAlign (long : LongSize) (size align ptr : Nat) : Prop :=
  roundUp size long.bytes + max align long.bytes < 2 ^ long.bits ∧
    (ptr % max align long.bytes = 0 ∨ long.bytes ≤ max align long.bytes - ptr % max align long.bytes)

instance (long : LongSize) (size align ptr : Nat) : Decidable (RoomForAlign long size align ptr) := inferInstanceAs (Decidable (_ ∧ _))

/-- An aligned pointer with its bytes, and the word below them, in the block that `rt_malloc` has given; whatever is written to its bytes, the block is freed by it. -/
structure AlignedIn (long : LongSize) (big : Bool) (block blockSize size align : Nat) (r : BitVec long.bits × (Nat → UInt8)) : Prop where
  aligned : align ∣ r.1.toNat
  below : block + long.bytes ≤ r.1.toNat
  inside : r.1.toNat + size ≤ block + blockSize
  freed : ∀ mem', (∀ i, i < r.1.toNat ∨ r.1.toNat + size ≤ i → mem' i = r.2 i) → (rtFreeAlign long big mem' r.1).toNat = block

/-! ## Masks -/

theorem toNat_mask (hk : k ≤ w) : (BitVec.ofNat w (2 ^ k - 1)).toNat = 2 ^ k - 1 := by
  have hpow := Nat.pow_le_pow_right (show 0 < 2 by decide) hk
  have hpos := Nat.two_pow_pos k
  rw [BitVec.toNat_ofNat, Nat.mod_eq_of_lt (by omega)]

theorem toNat_and_mask (hk : k ≤ w) (x : BitVec w) : (x &&& BitVec.ofNat w (2 ^ k - 1)).toNat = x.toNat % 2 ^ k := by
  rw [BitVec.toNat_and, toNat_mask hk, Nat.and_two_pow_sub_one_eq_mod]

theorem toNat_and_not_mask (k : Nat) (x : BitVec w) : (x &&& ~~~BitVec.ofNat w (2 ^ k - 1)).toNat = x.toNat / 2 ^ k * 2 ^ k := by
  have hshift : x &&& ~~~BitVec.ofNat w (2 ^ k - 1) = (x >>> k) <<< k := by
    apply BitVec.eq_of_getLsbD_eq
    intro i hi
    rw [BitVec.getLsbD_and, BitVec.getLsbD_not, BitVec.getLsbD_ofNat, Nat.testBit_two_pow_sub_one, BitVec.getLsbD_shiftLeft,
      BitVec.getLsbD_ushiftRight]
    by_cases hlow : i < k
    · simp [hlow, hi]
    · simp [hlow, hi, show k + (i - k) = i by omega]
  have hle := Nat.div_mul_le_self x.toNat (2 ^ k)
  rw [hshift, BitVec.toNat_shiftLeft, BitVec.toNat_ushiftRight, Nat.shiftLeft_eq, Nat.shiftRight_eq_div_pow,
    Nat.mod_eq_of_lt (Nat.lt_of_le_of_lt hle x.isLt)]

theorem toNat_alignUp (hk : k ≤ w) {x : BitVec w} (hx : x.toNat + (2 ^ k - 1) < 2 ^ w) :
    (alignUp x (BitVec.ofNat w (2 ^ k - 1))).toNat = roundUp x.toNat (2 ^ k) := by
  rw [roundUp, alignUp, toNat_and_not_mask, BitVec.toNat_add, toNat_mask hk, Nat.mod_eq_of_lt hx]

theorem toNat_alignUp_wrap (hk : k ≤ w) {x : BitVec w} (hx : 2 ^ w ≤ x.toNat + (2 ^ k - 1)) :
    (alignUp x (BitVec.ofNat w (2 ^ k - 1))).toNat = 0 := by
  have hlt := x.isLt
  have hpow := Nat.pow_le_pow_right (show 0 < 2 by decide) hk
  have hsmall : x.toNat + (2 ^ k - 1) - 2 ^ w < 2 ^ k := by omega
  rw [alignUp, toNat_and_not_mask, BitVec.toNat_add, toNat_mask hk, Nat.mod_eq_sub_mod hx, Nat.mod_eq_of_lt (by omega),
    Nat.div_eq_of_lt hsmall, Nat.zero_mul]

theorem roundUp_bounds (x : Nat) {n : Nat} (hn : 0 < n) : x ≤ roundUp x n ∧ roundUp x n ≤ x + (n - 1) := by
  have hmod := Nat.mod_lt (x + (n - 1)) hn
  have hdiv := Nat.div_add_mod (x + (n - 1)) n
  rw [Nat.mul_comm] at hdiv
  unfold roundUp
  omega

theorem roundUp_of_mod {x n : Nat} (hn : 0 < n) (hmod : x % n ≠ 0) : roundUp x n = x + (n - x % n) := by
  have hlt := Nat.mod_lt x hn
  have hdiv := Nat.div_add_mod x n
  have hsum : x + (n - 1) = x % n - 1 + n * (x / n + 1) := by
    rw [Nat.mul_add, Nat.mul_one]
    omega
  rw [roundUp, hsum, Nat.add_mul_div_left _ _ hn, Nat.div_eq_of_lt (by omega), Nat.zero_add, Nat.mul_comm, Nat.mul_add, Nat.mul_one]
  omega

theorem dvd_roundUp (x n : Nat) : n ∣ roundUp x n := Nat.dvd_mul_left n _

/-! ## The rounded alignment -/

def LongSize.log : LongSize → Nat
  | four => 2
  | eight => 3

theorem LongSize.bytes_eq (long : LongSize) : long.bytes = 2 ^ long.log := by
  cases long <;> rfl

theorem LongSize.log_lt (long : LongSize) : long.log < long.bits := by
  cases long <;> decide

theorem uintptrMask_eq (long : LongSize) : uintptrMask long = BitVec.ofNat long.bits (2 ^ long.log - 1) := by
  rw [uintptrMask, LongSize.bytes_eq]

theorem roundUp_two_pow (j q : Nat) : roundUp (2 ^ j) (2 ^ q) = 2 ^ max j q := by
  have hq := Nat.two_pow_pos q
  have hj := Nat.two_pow_pos j
  rcases Nat.le_total j q with hle | hle
  · have hpow := Nat.pow_le_pow_right (show 0 < 2 by decide) hle
    have hsum : 2 ^ j + (2 ^ q - 1) = 2 ^ j - 1 + 2 ^ q * 1 := by omega
    rw [Nat.max_eq_right hle, roundUp, hsum, Nat.add_mul_div_left _ _ hq, Nat.div_eq_of_lt (by omega), Nat.zero_add, Nat.one_mul]
  · obtain ⟨d, rfl⟩ := Nat.exists_eq_add_of_le hle
    rw [Nat.max_eq_left hle, roundUp, Nat.pow_add, Nat.add_comm, Nat.add_mul_div_left _ _ hq, Nat.div_eq_of_lt (by omega), Nat.zero_add,
      Nat.mul_comm]

theorem alignRounded_eq {j : Nat} (hj : j < long.bits) (halign : align.toNat = 2 ^ j) :
    alignRounded long align = BitVec.ofNat long.bits (2 ^ max j long.log) := by
  have hlog := long.log_lt
  have hmax : max j long.log < long.bits := Nat.max_lt.mpr ⟨hj, hlog⟩
  have hpow := Nat.pow_lt_pow_right (show 1 < 2 by decide) hmax
  have hbounds := (roundUp_bounds (2 ^ j) (Nat.two_pow_pos long.log)).2
  have hfits : align.toNat + (2 ^ long.log - 1) < 2 ^ long.bits := by
    have hhalf : 2 ^ long.bits = 2 * 2 ^ (long.bits - 1) := by
      rw [← Nat.pow_succ', Nat.succ_eq_add_one, Nat.sub_add_cancel (by omega)]
    have hsmall := Nat.pow_le_pow_right (show 0 < 2 by decide) (show j ≤ long.bits - 1 by omega)
    have hsmall' := Nat.pow_le_pow_right (show 0 < 2 by decide) (show long.log ≤ long.bits - 1 by omega)
    have hpos := Nat.two_pow_pos long.log
    omega
  apply BitVec.eq_of_toNat_eq
  rw [alignRounded, uintptrMask_eq, toNat_alignUp (Nat.le_of_lt hlog) hfits, halign, roundUp_two_pow, BitVec.toNat_ofNat, Nat.mod_eq_of_lt hpow]

theorem max_two_pow (j q : Nat) : max (2 ^ j) (2 ^ q) = 2 ^ max j q := by
  rcases Nat.le_total j q with hle | hle
  · rw [Nat.max_eq_right hle, Nat.max_eq_right (Nat.pow_le_pow_right (by decide) hle)]
  · rw [Nat.max_eq_left hle, Nat.max_eq_left (Nat.pow_le_pow_right (by decide) hle)]

/-! ## The aligned pointer -/

/-- What the words of `rt_malloc_align` are as numbers, `m` being the logarithm of the rounded alignment. -/
structure AlignNumbers (long : LongSize) (size align ptr : BitVec long.bits) (m : Nat) : Prop where
  bound : m < long.bits
  log : long.log ≤ m
  divides : align.toNat ∣ 2 ^ m
  rounded : alignRounded long align = BitVec.ofNat long.bits (2 ^ m)
  max : max align.toNat long.bytes = 2 ^ m

theorem alignNumbers (size ptr : BitVec long.bits) (halign : ∃ j < long.bits, align.toNat = 2 ^ j) : ∃ m, AlignNumbers long size align ptr m := by
  obtain ⟨j, hj, halign⟩ := halign
  refine ⟨max j long.log, Nat.max_lt.mpr ⟨hj, long.log_lt⟩, Nat.le_max_right .., ?_, alignRounded_eq hj halign, ?_⟩
  · rw [halign]
    exact Nat.pow_dvd_pow 2 (Nat.le_max_left ..)
  · rw [halign, LongSize.bytes_eq, max_two_pow]

namespace AlignNumbers

variable {m : Nat}

theorem toNat_rounded (h : AlignNumbers long size align ptr m) : (alignRounded long align).toNat = 2 ^ m := by
  rw [h.rounded, BitVec.toNat_ofNat, Nat.mod_eq_of_lt (Nat.pow_lt_pow_right (by decide) h.bound)]

theorem mask (h : AlignNumbers long size align ptr m) : alignRounded long align - 1 = BitVec.ofNat long.bits (2 ^ m - 1) := by
  have hpos := Nat.two_pow_pos m
  have hlt := Nat.pow_lt_pow_right (show 1 < 2 by decide) h.bound
  have hone : (1 : BitVec long.bits).toNat = 1 := by
    cases long <;> rfl
  apply BitVec.eq_of_toNat_eq
  rw [BitVec.toNat_sub, h.toNat_rounded, hone, BitVec.toNat_ofNat, show 2 ^ long.bits - 1 + 2 ^ m = 2 ^ m - 1 + 2 ^ long.bits by omega,
    Nat.add_mod_right]

theorem test (h : AlignNumbers long size align ptr m) : ptr &&& (alignRounded long align - 1) = 0 ↔ ptr.toNat % 2 ^ m = 0 := by
  rw [h.mask, ← toNat_and_mask (Nat.le_of_lt h.bound)]
  exact ⟨fun hzero => congrArg BitVec.toNat hzero, fun hzero => BitVec.eq_of_toNat_eq hzero⟩

theorem size_cases (h : AlignNumbers long size align ptr m) :
    (size.toNat + (long.bytes - 1) < 2 ^ long.bits ∧
      (alignSize long size align).toNat = (roundUp size.toNat long.bytes + 2 ^ m) % 2 ^ long.bits) ∨
    (2 ^ long.bits ≤ size.toNat + (long.bytes - 1) ∧ (alignSize long size align).toNat = 2 ^ m) := by
  have hlog := Nat.le_of_lt long.log_lt
  rw [alignSize, BitVec.toNat_add, h.toNat_rounded, uintptrMask_eq, LongSize.bytes_eq]
  by_cases hwraps : size.toNat + (2 ^ long.log - 1) < 2 ^ long.bits
  · left
    rw [toNat_alignUp hlog hwraps]
    exact ⟨hwraps, rfl⟩
  · right
    have hle := Nat.le_of_not_lt hwraps
    rw [toNat_alignUp_wrap hlog hle, Nat.zero_add, Nat.mod_eq_of_lt (Nat.pow_lt_pow_right (by decide) h.bound)]
    exact ⟨hle, rfl⟩

theorem toNat_alignPtr (h : AlignNumbers long size align ptr m) (hroom : ptr.toNat + 2 ^ m < 2 ^ long.bits) :
    (alignPtr long align ptr).toNat = ptr.toNat + (2 ^ m - ptr.toNat % 2 ^ m) := by
  have hpos := Nat.two_pow_pos m
  rw [alignPtr]
  by_cases haligned : ptr.toNat % 2 ^ m = 0
  · rw [if_pos (h.test.mpr haligned), BitVec.toNat_add, h.toNat_rounded, Nat.mod_eq_of_lt hroom, haligned, Nat.sub_zero]
  · rw [if_neg (mt h.test.mp haligned), h.mask, toNat_alignUp (Nat.le_of_lt h.bound) (by omega), roundUp_of_mod hpos haligned]

theorem dvd_alignPtr (hroom : ptr.toNat + 2 ^ m < 2 ^ long.bits) (h : AlignNumbers long size align ptr m) :
    2 ^ m ∣ (alignPtr long align ptr).toNat := by
  have hdiv := Nat.div_add_mod ptr.toNat (2 ^ m)
  have hlt := Nat.mod_lt ptr.toNat (Nat.two_pow_pos m)
  refine ⟨ptr.toNat / 2 ^ m + 1, ?_⟩
  rw [h.toNat_alignPtr hroom, Nat.mul_add, Nat.mul_one]
  omega

end AlignNumbers

theorem rtFreeAlign_eq {p block : BitVec long.bits} (hbelow : long.bytes ≤ p.toNat)
    (hsame : ∀ i, i < p.toNat → mem' i = store big long.bytes mem (p - BitVec.ofNat long.bits long.bytes).toNat block.toNat i) :
    rtFreeAlign long big mem' p = block := by
  have hbytes : (BitVec.ofNat long.bits long.bytes).toNat = long.bytes := by
    cases long <;> rfl
  have hsub : (p - BitVec.ofNat long.bits long.bytes).toNat = p.toNat - long.bytes := by
    have hlt := p.isLt
    have hsmall : long.bytes < 2 ^ long.bits := by
      cases long <;> decide
    rw [BitVec.toNat_sub, hbytes, show 2 ^ long.bits - long.bytes + p.toNat = p.toNat - long.bytes + 2 ^ long.bits by omega,
      Nat.add_mod_right, Nat.mod_eq_of_lt (by omega)]
  have hvalue : block.toNat < 256 ^ long.bytes := by
    have hlt := block.isLt
    rwa [show (256 : Nat) = 2 ^ 8 by rfl, ← Nat.pow_mul]
  rw [rtFreeAlign, load_congr fun i _ hi => hsame i (by omega), load_store hvalue, BitVec.ofNat_toNat, BitVec.setWidth_eq]

/-- `rt_malloc_align` gives an aligned pointer into the block, and `rt_free_align` frees the block, exactly where there is room. -/
theorem rtMallocAlign_iff (rtMalloc : BitVec long.bits → BitVec long.bits) (halign : ∃ j < long.bits, align.toNat = 2 ^ j)
    (hptr : rtMalloc (alignSize long size align) = ptr) (hne : ptr ≠ 0)
    (hblock : ptr.toNat + (alignSize long size align).toNat < 2 ^ long.bits) :
    AlignedIn long big ptr.toNat (alignSize long size align).toNat size.toNat align.toNat (rtMallocAlign long big rtMalloc mem size align) ↔
      RoomForAlign long size.toNat align.toNat ptr.toNat := by
  obtain ⟨m, h⟩ := alignNumbers size ptr halign
  have hpos := Nat.two_pow_pos m
  have hbytes := long.bytes_pos
  have hlt := Nat.pow_lt_pow_right (show 1 < 2 by decide) h.bound
  have hle : long.bytes ≤ 2 ^ m := by
    rw [LongSize.bytes_eq]
    exact Nat.pow_le_pow_right (by decide) h.log
  have hround := roundUp_bounds size.toNat hbytes
  have hmod := Nat.mod_lt ptr.toNat hpos
  have hresult : rtMallocAlign long big rtMalloc mem size align = (alignPtr long align ptr,
      store big long.bytes mem (alignPtr long align ptr - BitVec.ofNat long.bits long.bytes).toNat ptr.toNat) := by
    rw [rtMallocAlign, hptr]
    exact if_neg hne
  rw [hresult, RoomForAlign, h.max]
  constructor
  · rintro ⟨-, hbelow, hinside, -⟩
    dsimp only at hbelow hinside
    rcases h.size_cases with ⟨hsize, htotal⟩ | ⟨hsize, htotal⟩
    · have hfits : roundUp size.toNat long.bytes + 2 ^ m < 2 ^ long.bits := by
        by_contra hwraps
        rw [Nat.mod_eq_sub_mod (Nat.le_of_not_lt hwraps), Nat.mod_eq_of_lt (by omega)] at htotal
        omega
      rw [Nat.mod_eq_of_lt hfits] at htotal
      rw [h.toNat_alignPtr (by omega)] at hbelow
      exact ⟨hfits, Or.inr (by omega)⟩
    · omega
  · rintro ⟨hfits, hroom⟩
    have htotal : (alignSize long size align).toNat = roundUp size.toNat long.bytes + 2 ^ m := by
      rcases h.size_cases with ⟨-, htotal⟩ | ⟨hsize, -⟩
      · rwa [Nat.mod_eq_of_lt hfits] at htotal
      · have hmultiple := roundUp_bounds size.toNat hbytes
        omega
    have hplace := h.toNat_alignPtr (by omega)
    have hbelow : ptr.toNat + long.bytes ≤ (alignPtr long align ptr).toNat := by
      rw [hplace]
      rcases hroom with hzero | hroom <;> omega
    refine ⟨Nat.dvd_trans h.divides (h.dvd_alignPtr (by omega)), hbelow, ?_, fun mem' hsame => ?_⟩
    · dsimp only
      omega
    · rw [rtFreeAlign_eq (by omega) fun i hi => hsame i (Or.inl hi)]

/-- The block of 28 bytes that an `rt_malloc` has given at 0x1004. -/
theorem rtMallocAlign_iff_inside : AlignedIn .four false 0x1004 28 10 16 (rtMallocAlign .four false (fun _ => 0x1004) (fun _ => 0) 10 16) := by
  have halign : ∃ j < LongSize.four.bits, (16 : BitVec LongSize.four.bits).toNat = 2 ^ j := ⟨4, by decide, by decide⟩
  have hne : (0x1004 : BitVec LongSize.four.bits) ≠ 0 := by
    decide
  have hblock : (0x1004 : BitVec LongSize.four.bits).toNat + (alignSize .four 10 16).toNat < 2 ^ LongSize.four.bits := by
    decide
  have hroom : RoomForAlign .four (10 : BitVec LongSize.four.bits).toNat (16 : BitVec LongSize.four.bits).toNat
      (0x1004 : BitVec LongSize.four.bits).toNat := by
    decide
  exact (rtMallocAlign_iff (fun _ => 0x1004) halign rfl hne hblock).mpr hroom

/-- The size of a request of all but one of the addresses wraps: a block of four bytes is asked for, and all of them are for the pointer. A block whose address is a multiple of four, and not of eight, has no room below the next multiple of eight. -/
theorem rtMallocAlign_iff_fails :
    (alignSize .four 0xffffffff 4 = 4 ∧
      ¬AlignedIn .four false 0x1000 4 0xffffffff 4 (rtMallocAlign .four false (fun _ => 0x1000) (fun _ => 0) 0xffffffff 4)) ∧
    ¬AlignedIn .eight false 0x1004 16 8 8 (rtMallocAlign .eight false (fun _ => 0x1004) (fun _ => 0) 8 8) := by
  refine ⟨⟨by decide, fun h => absurd h.inside (by decide)⟩, fun h => absurd h.below (by decide)⟩

end RtThread
