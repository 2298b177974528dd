import RtThread.Drivers.RtcAlarm

/-!
# Times and dates

`gmtime_r` takes years and months off a number of days, `mktime` counts them by a formula. The `time_t` of minilibc is a `long`, which ends in January 2038 on a machine of 32 bits.
-/

namespace RtThread

/-- The days of the years before `1970 + years`, as `mktime` counts them. -/
def daysBefore (years : Nat) : Nat :=
  let century := (years - 131) / 100
  years * 365 + (years + 1) / 4 - if 131 ≤ years then century / 4 * 3 + 1 + (if century % 4 = 3 then 2 else century % 4) else 0

/-- Every fourth year is longer, of the centuries only every fourth. -/
theorem daysBefore_eq (years : Nat) :
    daysBefore years + (1969 + years) / 100 + 477 = years * 365 + (1969 + years) / 4 + (1969 + years) / 400 := by
  unfold daysBefore
  dsimp only
  split_ifs <;> omega

def yearDays (year : Nat) : Nat := if isLeap year then 366 else 365

theorem daysBefore_succ (years : Nat) : daysBefore (years + 1) = daysBefore years + yearDays (1970 + years) := by
  have hbefore := daysBefore_eq years
  have hafter := daysBefore_eq (years + 1)
  have hquot (k : Nat) : (1969 + (years + 1)) / k = (1969 + years) / k + if (1970 + years) % k = 0 then 1 else 0 := by
    rw [← Nat.add_assoc, Nat.succ_div, show 1969 + years + 1 = 1970 + years by omega]
    simp only [Nat.dvd_iff_mod_eq_zero]
  have hcentury : (1970 + years) % 400 = 0 → (1970 + years) % 100 = 0 := by omega
  have hfourth : (1970 + years) % 100 = 0 → (1970 + years) % 4 = 0 := by omega
  rw [hquot, hquot, hquot] at hafter
  simp only [yearDays, isLeap, Bool.and_eq_true, Bool.or_eq_true, decide_eq_true_eq]
  generalize (1970 + years) % 4 = r, (1970 + years) % 100 = s, (1970 + years) % 400 = t at *
  generalize (1969 + years) / 4 = a, (1969 + years) / 100 = b, (1969 + years) / 400 = c at *
  split_ifs at hafter ⊢ <;> omega

/-- The loop stops in the year of the day, and keeps the count of the days. -/
theorem gmtimeYear_spec {fuel work : Nat} (years : Nat) (hfuel : work < fuel * 365) :
    ∃ y, (gmtimeYear fuel (1970 + years) work).1 = 1970 + y ∧
      daysBefore y + (gmtimeYear fuel (1970 + years) work).2 = daysBefore years + work ∧
      (gmtimeYear fuel (1970 + years) work).2 < yearDays (1970 + y) := by
  induction fuel generalizing years work with
  | zero => omega
  | succ fuel ih =>
    have hturn : gmtimeYear (fuel + 1) (1970 + years) work =
        if yearDays (1970 + years) ≤ work then gmtimeYear fuel (1970 + (years + 1)) (work - yearDays (1970 + years))
        else (1970 + years, work) := rfl
    rw [hturn]
    by_cases hlong : yearDays (1970 + years) ≤ work
    · have hyear : 365 ≤ yearDays (1970 + years) := by
        unfold yearDays
        split_ifs <;> decide
      obtain ⟨y, hy, hcount, hlt⟩ := ih (years + 1) (show work - yearDays (1970 + years) < fuel * 365 by omega)
      have hnext := daysBefore_succ years
      rw [if_pos hlong]
      exact ⟨y, hy, by omega, hlt⟩
    · rw [if_neg hlong]
      exact ⟨years, rfl, rfl, Nat.lt_of_not_le hlong⟩

def monthOf (leap : Bool) (day : Nat) : Nat := gmtimeMonth (if leap && 58 < day then day - 1 else day) 11

/-- The 29th of February is found by hand, and the days behind it move back by one. -/
def mdayOf (leap : Bool) (day : Nat) : Nat :=
  (if (leap && 58 < day) && day = 59 then 2 else 1) +
    ((if leap && 58 < day then day - 1 else day) - spm.getD (monthOf leap day) 0)

def gmtimeOf (t y day : Nat) : Tm where
  tmSec := (t % 86400 % 60 : Nat)
  tmMin := (t % 86400 / 60 % 60 : Nat)
  tmHour := (t % 86400 / 60 / 60 : Nat)
  tmMday := mdayOf (isLeap (1970 + y)) day
  tmMon := monthOf (isLeap (1970 + y)) day
  tmYear := (70 + y : Nat)
  tmWday := ((4 + t / 86400) % 7 : Nat)

theorem gmtimeR_eq (t : Nat) : ∃ y day, daysBefore y + day = t / 86400 ∧ day < yearDays (1970 + y) ∧ gmtimeR t = gmtimeOf t y day := by
  obtain ⟨y, hy, hcount, hlt⟩ := gmtimeYear_spec 0 (show t / 86400 < (t / 86400 / 365 + 1) * 365 by omega)
  refine ⟨y, _, hcount.trans (Nat.zero_add _), hlt, ?_⟩
  change (gmtimeYear (t / 86400 / 365 + 1) 1970 (t / 86400)).1 = 1970 + y at hy
  have hyear : (gmtimeYear (t / 86400 / 365 + 1) 1970 (t / 86400)).1 - 1900 = 70 + y := by omega
  rw [gmtimeOf, ← hy, ← hyear]
  rfl

/-- `__spm` takes no account of the 29th of February. -/
def monthDays (leap : Bool) (mon : Nat) : Nat := spm.getD (mon + 1) 0 - spm.getD mon 0 + if leap && mon = 1 then 1 else 0

/-- `tm_yday` -/
def dayOfYear (leap : Bool) (mon mday : Nat) : Nat := spm.getD mon 0 + mday - 1 + if leap && 1 < mon then 1 else 0

/-- The date exists. -/
def Tm.Dated (tm : Tm) (y mon mday : Nat) : Prop :=
  tm.tmYear = (70 + y : Nat) ∧ tm.tmMon = mon ∧ tm.tmMday = mday ∧ mon < 12 ∧ 1 ≤ mday ∧ mday ≤ monthDays (isLeap (1970 + y)) mon

theorem mktime_eq {tm : Tm} {y mon mday : Nat} (hdate : tm.Dated y mon mday) :
    mktime tm = (((daysBefore y + dayOfYear (isLeap (1970 + y)) mon mday : Nat) * 24 + tm.tmHour) * 60 + tm.tmMin) * 60 + tm.tmSec := by
  obtain ⟨hyear, hmon, hmday, -, hone, -⟩ := hdate
  have hyears : (tm.tmYear - 70).toNat = y := by omega
  have hnumber : (tm.tmYear + 1900).toNat = 1970 + y := by omega
  rw [mktime, if_neg (by omega)]
  dsimp only
  rw [hyears, hnumber, hmon, hmday, Int.toNat_natCast, daysBefore, dayOfYear]
  simp only [show (1 : Int) < mon ↔ 1 < mon by omega]
  split_ifs <;> omega

theorem date_of_day : ∀ leap : Bool, ∀ day < if leap then 366 else 365, monthOf leap day < 12 ∧ 1 ≤ mdayOf leap day ∧
    mdayOf leap day ≤ monthDays leap (monthOf leap day) ∧ dayOfYear leap (monthOf leap day) (mdayOf leap day) = day := by
  decide +kernel

theorem day_of_date : ∀ leap : Bool, ∀ mon < 12, ∀ mday ≤ monthDays leap mon, 1 ≤ mday →
    dayOfYear leap mon mday < (if leap then 366 else 365) ∧ monthOf leap (dayOfYear leap mon mday) = mon ∧
      mdayOf leap (dayOfYear leap mon mday) = mday := by
  decide +kernel

/-- `gmtime_r` gives a date that exists, and `mktime` the time it was made from. -/
theorem calendar_roundTrip (t : Nat) : (∃ y mon mday, (gmtimeR t).Dated y mon mday) ∧ mktime (gmtimeR t) = t := by
  obtain ⟨y, day, hcount, hlt, heq⟩ := gmtimeR_eq t
  obtain ⟨hmon, hone, hlast, hday⟩ := date_of_day _ day hlt
  have hdate : (gmtimeR t).Dated y (monthOf (isLeap (1970 + y)) day) (mdayOf (isLeap (1970 + y)) day) := by
    rw [heq]
    exact ⟨rfl, rfl, rfl, hmon, hone, hlast⟩
  refine ⟨⟨_, _, _, hdate⟩, ?_⟩
  rw [mktime_eq hdate, heq, hday, hcount, gmtimeOf]
  dsimp only
  omega

theorem daysBefore_mono : Monotone daysBefore := monotone_nat_of_le_succ fun y => by
  rw [daysBefore_succ]
  exact Nat.le_add_right ..

theorem mktime_eq_natCast_iff {tm : Tm} {y mon mday : Nat} (hdate : tm.Dated y mon mday) (hclock : tm.Clock) (t : Nat) :
    mktime tm = t ↔ gmtimeR t = { tm with tmWday := ((4 + t / 86400) % 7 : Nat) } := by
  constructor
  · intro ht
    obtain ⟨y', day, hcount, hlt, heq⟩ := gmtimeR_eq t
    obtain ⟨hyear, hmon, hmday, hlow, hone, hlast⟩ := hdate
    obtain ⟨hday, hmonth, hmonthDay⟩ := day_of_date _ mon hlow mday hlast hone
    rw [mktime_eq ⟨hyear, hmon, hmday, hlow, hone, hlast⟩] at ht
    unfold Tm.Clock at hclock
    have hsum : daysBefore y + dayOfYear (isLeap (1970 + y)) mon mday = daysBefore y' + day := by omega
    change _ < yearDays (1970 + y) at hday
    have hnext := daysBefore_succ y
    have hnext' := daysBefore_succ y'
    obtain rfl : y = y' := by
      by_contra hne
      rcases Nat.lt_or_gt_of_ne hne with hless | hless
      · have hle : daysBefore (y + 1) ≤ daysBefore y' := daysBefore_mono hless
        omega
      · have hle : daysBefore (y' + 1) ≤ daysBefore y := daysBefore_mono hless
        omega
    obtain rfl := Nat.add_left_cancel hsum
    rw [heq, gmtimeOf, hmonth, hmonthDay]
    obtain ⟨sec, min, hour, _, _, _, _⟩ := tm
    dsimp only at *
    rw [hcount] at ht
    simp only [Tm.mk.injEq]
    exact ⟨by omega, by omega, by omega, hmday.symm, hmon.symm, hyear.symm, trivial⟩
  · intro heq
    have ht := (calendar_roundTrip t).2
    rw [heq] at ht
    exact ht

/-- What `mktime` returns where `long` has 32 bits. -/
def mktimeLong (tm : Tm) : Int := (mktime tm).bmod 4294967296

theorem mktimeLong_eq {tm : Tm} {y mon mday : Nat} (hdate : tm.Dated y mon mday) (hclock : tm.Clock) (hlong : y < 68) :
    mktimeLong tm = mktime tm := by
  obtain ⟨-, -, -, hlow, hone, hlast⟩ := id hdate
  have hday : dayOfYear (isLeap (1970 + y)) mon mday < yearDays (1970 + y) := (day_of_date _ mon hlow mday hlast hone).1
  have hnext := daysBefore_succ y
  have hend : daysBefore (y + 1) ≤ 24837 := daysBefore_mono hlong
  unfold Tm.Clock at hclock
  rw [mktimeLong, mktime_eq hdate]
  exact Int.bmod_eq_of_le (by omega) (by omega)

/-- Of a date before 2038 that exists `mktime` gives the one time that `gmtime_r` makes it from. -/
theorem mktime_eq_iff {tm : Tm} {y mon mday : Nat} (hdate : tm.Dated y mon mday) (hclock : tm.Clock) (hlong : y < 68) (t : Nat) :
    mktimeLong tm = t ↔ gmtimeR t = { tm with tmWday := ((4 + t / 86400) % 7 : Nat) } := by
  rw [mktimeLong_eq hdate hclock hlong, mktime_eq_natCast_iff hdate hclock]

/-- Noon on the 29th of February 2000, a Tuesday. -/
theorem mktime_eq_iff_leapDay : gmtimeR 951825600 = ⟨0, 0, 12, 29, 1, 100, 2⟩ := by
  have hdate : Tm.Dated ⟨0, 0, 12, 29, 1, 100, 0⟩ 30 1 29 := ⟨rfl, rfl, rfl, by decide, by decide, by decide⟩
  exact (mktime_eq_iff hdate (by unfold Tm.Clock; decide) (by decide) 951825600).mp (by decide +kernel)

end RtThread
