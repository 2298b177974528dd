import RtThread.Drivers.WaitQueue

/-!
# Milliseconds as ticks

`rt_tick_from_millisecond` rounds up: "Max 0x7fffffff", says its comment about the milliseconds. The product of the ticks of a second and the milliseconds is taken in the 32 bits of an `int`, so that it is the ticks of a second that decide how long a time it can convert.
-/

namespace RtThread

variable {tickPerSecond ms : Int}

def maxMillisecond : Int := 0x7fffffff

/-- A time is converted as its comment says: rounded up, to the least number of ticks that are not shorter, and to no fewer ticks than a shorter time. -/
structure TicksOf (tickPerSecond ms : Int) : Prop where
  ceil : rtTickFromMillisecond tickPerSecond ms = ⌈(tickPerSecond * ms : ℚ) / 1000⌉
  least : IsLeast {n : ℤ | tickPerSecond * ms ≤ n * 1000} (rtTickFromMillisecond tickPerSecond ms)
  monotone : ∀ ms', 0 ≤ ms' → ms' ≤ ms →
    rtTickFromMillisecond tickPerSecond ms' ≤ rtTickFromMillisecond tickPerSecond ms

/-! ## Rounding up -/

theorem ceil_eq (product : Int) : ⌈(product : ℚ) / 1000⌉ = (product + 999) / 1000 := by
  have hceil := Rat.ceil_intCast_div_natCast product 1000
  push_cast at hceil
  rw [hceil]
  omega

theorem isLeast_ticks (product : Int) : IsLeast {n : ℤ | product ≤ n * 1000} ((product + 999) / 1000) := by
  constructor
  · change product ≤ (product + 999) / 1000 * 1000
    omega
  · intro n hn
    change product ≤ n * 1000 at hn
    omega

/-! ## The conversion in a word -/

/-- What a word makes of a number, divided by 1000, is the quotient of the number where the number is a value of the word, and less elsewhere. -/
theorem tdiv_toInt_eq_iff (x : Nat) : (BitVec.ofInt 32 x).toInt.tdiv 1000 = (x : Int) / 1000 ↔ x < 2 ^ 31 := by
  rw [BitVec.toInt_ofInt, Int.bmod_def]
  constructor
  · intro h
    by_contra hbig
    split_ifs at h with hsmall
    · rw [Int.tdiv_eq_ediv_of_nonneg (by omega)] at h
      omega
    · have hsign : Int.sign 1000 = 1 := rfl
      rw [Int.tdiv_eq_ediv, hsign] at h
      split_ifs at h <;> omega
  · intro hsmall
    have hmod : (x : Int) % ((2 ^ 32 : Nat) : Int) = x := by omega
    rw [hmod, if_pos (by omega), Int.tdiv_eq_ediv_of_nonneg (by omega)]

theorem rtTickFromMillisecond_eq (hms : 0 ≤ ms) :
    rtTickFromMillisecond tickPerSecond ms = (BitVec.ofInt 32 (tickPerSecond * ms + 999)).toInt.tdiv 1000 :=
  if_neg (by omega)

theorem rtTickFromMillisecond_eq_iff (htick : 0 ≤ tickPerSecond) (hms : 0 ≤ ms) :
    rtTickFromMillisecond tickPerSecond ms = (tickPerSecond * ms + 999) / 1000 ↔ tickPerSecond * ms + 999 < 2 ^ 31 := by
  have hproduct : 0 ≤ tickPerSecond * ms := Int.mul_nonneg htick hms
  obtain ⟨x, hx⟩ := Int.eq_ofNat_of_zero_le (show 0 ≤ tickPerSecond * ms + 999 by omega)
  rw [rtTickFromMillisecond_eq hms, hx]
  refine (tdiv_toInt_eq_iff x).trans ?_
  omega

/-- For every number of ticks in a second and every documented number of milliseconds. The sum may be no more than that number itself. -/
theorem rtTickFromMillisecond_iff (htick : 0 ≤ tickPerSecond) (hms : 0 ≤ ms) :
    TicksOf tickPerSecond ms ↔ tickPerSecond * ms + 999 ≤ maxMillisecond := by
  have hceil : (tickPerSecond * ms : ℚ) / 1000 = ((tickPerSecond * ms : Int) : ℚ) / 1000 := by push_cast; rfl
  constructor
  · intro h
    have heq := h.ceil
    rw [hceil, ceil_eq, rtTickFromMillisecond_eq_iff htick hms] at heq
    rw [maxMillisecond]
    omega
  · intro hfits
    rw [maxMillisecond] at hfits
    have heq := (rtTickFromMillisecond_eq_iff htick hms).2 (by omega)
    refine ⟨?_, ?_, fun ms' hms' hle => ?_⟩
    · rw [hceil, ceil_eq, heq]
    · rw [heq]
      exact isLeast_ticks _
    · have hproduct : tickPerSecond * ms' ≤ tickPerSecond * ms := Int.mul_le_mul_of_nonneg_left hle htick
      rw [heq, (rtTickFromMillisecond_eq_iff htick hms').2 (by omega)]
      omega

/-- Two seconds at 1000 ticks a second. -/
theorem rtTickFromMillisecond_iff_seconds : TicksOf 1000 2000 ∧ rtTickFromMillisecond 1000 2000 = 2000 :=
  ⟨(rtTickFromMillisecond_iff (by decide) (by decide)).2 (by decide), by decide⟩

/-- At 1000 ticks a second, 4294968 milliseconds are one tick. -/
theorem rtTickFromMillisecond_fails : rtTickFromMillisecond 1000 4294968 = 1 ∧ rtTickFromMillisecond 1000 2000 = 2000 ∧
    ¬ TicksOf 1000 4294968 := by
  have hone : rtTickFromMillisecond 1000 4294968 = 1 := by decide
  refine ⟨hone, by decide, fun h => ?_⟩
  have hle : rtTickFromMillisecond 1000 2000 ≤ rtTickFromMillisecond 1000 4294968 :=
    h.monotone 2000 (by decide) (by decide)
  rw [hone] at hle
  exact absurd hle (by decide)

end RtThread
