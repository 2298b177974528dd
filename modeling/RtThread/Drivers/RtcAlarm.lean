import RtThread.Lib.Transition

/-!
# RTC alarms

`alarm.c`: one hardware alarm, set to a time of day, serves any number of alarms. The clock and the calendar of the C library are parameters; the device keeps every setting as it gets it.
-/

namespace RtThread

/-- `struct tm`, as far as alarms read it. -/
structure Tm where
  tmSec : Int
  tmMin : Int
  tmHour : Int
  tmMday : Int
  tmMon : Int
  tmYear : Int
  tmWday : Int
  deriving DecidableEq

def Tm.Clock (tm : Tm) : Prop :=
  (0 ≤ tm.tmSec ∧ tm.tmSec ≤ 59) ∧ (0 ≤ tm.tmMin ∧ tm.tmMin ≤ 59) ∧ 0 ≤ tm.tmHour ∧ tm.tmHour ≤ 23

/-- `localtime_r`, and the value of `mktime`; of an alarm that has been set up `mktime` changes no field that is read again. -/
structure Calendar where
  localtime : Nat → Tm
  mktime : Tm → Int
  clock : ∀ t, (localtime t).Clock

/-! ## The calendar of minilibc -/

/-- `__spm`: the days before each month of a year that is not a leap year. -/
def spm : List Nat := [0, 31, 59, 90, 120, 151, 181, 212, 243, 273, 304, 334, 365]

def isLeap (year : Nat) : Bool := year % 4 = 0 && (year % 100 ≠ 0 || year % 400 = 0)

/-- The loop of `gmtime_r` over the years, each of which takes at least 365 of the days. -/
def gmtimeYear : Nat → Nat → Nat → Nat × Nat
  | 0, i, work => (i, work)
  | fuel + 1, i, work =>
    let k := if isLeap i then 366 else 365
    if k ≤ work then gmtimeYear fuel (i + 1) (work - k) else (i, work)

def gmtimeMonth (work : Nat) : Nat → Nat
  | 0 => 0
  | i + 1 => if work < spm.getD (i + 1) 0 then gmtimeMonth work i else i + 1

def gmtimeR (t : Nat) : Tm :=
  let days := t / 86400
  let r := gmtimeYear (days / 365 + 1) 1970 days
  let late := isLeap r.1 && 58 < r.2
  let work := if late then r.2 - 1 else r.2
  let mon := gmtimeMonth work 11
  { tmSec := (t % 86400 % 60 : Nat)
    tmMin := (t % 86400 / 60 % 60 : Nat)
    tmHour := (t % 86400 / 60 / 60 : Nat)
    tmMday := ((if late && r.2 = 59 then 2 else 1) + (work - spm.getD mon 0) : Nat)
    tmMon := mon
    tmYear := (r.1 - 1900 : Nat)
    tmWday := ((4 + days) % 7 : Nat) }

/-- `mktime` of a time whose fields are in their ranges. `time_t` is a `long`: its value is this one as far as it fits into a `long`, and `alarm.c` takes it modulo 2 ^ 32, whatever the width. -/
def mktime (tm : Tm) : Int :=
  if tm.tmYear < 70 then -1
  else
    let years := (tm.tmYear - 70).toNat
    let century := (years - 131) / 100
    let skipped := if 131 ≤ years then century / 4 * 3 + 1 + (if century % 4 = 3 then 2 else century % 4) else 0
    let leap := if isLeap (tm.tmYear + 1900).toNat && 1 < tm.tmMon then 1 else 0
    let day : Int := (years * 365 + (years + 1) / 4 : Nat) - skipped + spm.getD tm.tmMon.toNat 0 + tm.tmMday - 1 + leap
    ((day * 24 + tm.tmHour) * 60 + tm.tmMin) * 60 + tm.tmSec

theorem gmtimeR_clock (t : Nat) : (gmtimeR t).Clock := by
  unfold Tm.Clock gmtimeR
  dsimp only
  omega

def minilibc : Calendar := ⟨gmtimeR, mktime, gmtimeR_clock⟩

/-! ## Alarms -/

def rtAlarmDelay : Nat := 2

def rtAlarmTmNow : Int := -1

def rtRtcYearsMax : Int := 137

/-- `RT_ALARM_ONESHOT`, `RT_ALARM_DAILY`, `RT_ALARM_WEEKLY`, `RT_ALARM_MONTHLY` and `RT_ALARM_YAERLY` -/
def rtAlarmOneshot : Nat := 0x000
def rtAlarmDaily : Nat := 0x100
def rtAlarmWeekly : Nat := 0x200
def rtAlarmMonthly : Nat := 0x400
def rtAlarmYaerly : Nat := 0x800

/-- `struct rt_rtc_wkalarm` -/
structure WkAlarm where
  enable : Bool
  tmSec : Int
  tmMin : Int
  tmHour : Int
  deriving DecidableEq

/-- `struct rt_alarm`, whose `flag` is the type of the alarm with `RT_ALARM_STATE_START` and `RT_ALARM_STATE_INITED`; `callback` is not `RT_NULL`. -/
structure RtAlarm where
  type : Nat
  start : Bool
  inited : Bool
  callback : Bool
  wktime : Tm
  deriving DecidableEq

structure AlarmContainer where
  alarm : Nat → RtAlarm
  head : List Nat
  current : Option Nat
  wkalarm : WkAlarm
  time : Nat

/-! ## Times -/

def alarmMkdaysec (time : Tm) : Nat := ((time.tmSec + time.tmMin * 60 + time.tmHour * 3600) % 4294967296).toNat

def daysOfYearMonth (tmYear tmMon : Int) : Int :=
  let year := tmYear + 1900
  if tmMon = 1 then 28 + if (year % 4 = 0 ∧ year % 100 ≠ 0) ∨ year % 400 = 0 then 1 else 0
  else if (tmMon ≤ 6 ∧ tmMon % 2 = 0) ∨ (6 < tmMon ∧ tmMon % 2 = 1) then 31
  else 30

def isValidDate (date : Tm) : Bool :=
  if date.tmYear < 0 ∨ rtRtcYearsMax < date.tmYear then false
  else if date.tmMon < 0 ∨ 11 < date.tmMon then false
  else if date.tmMday < 1 ∨ daysOfYearMonth date.tmYear date.tmMon < date.tmMday then false
  else true

/-- A value in its range is kept, another one is a "don't care" value and set to now. -/
def careOr (low high now value : Int) : Int := if high < value ∨ value < low then now else value

/-- The date of `alarm_setup`, by the type of the alarm, and whether it is accepted. -/
def alarmSetupDate (type : Nat) (setup now : Tm) : Tm × Bool :=
  if type = rtAlarmDaily then (setup, true)
  else if type = rtAlarmOneshot then
    let setup := { setup with
      tmYear := if setup.tmYear = rtAlarmTmNow then now.tmYear else setup.tmYear
      tmMon := if setup.tmMon = rtAlarmTmNow then now.tmMon else setup.tmMon
      tmMday := if setup.tmMday = rtAlarmTmNow then now.tmMday else setup.tmMday }
    (setup, isValidDate setup)
  else if type = rtAlarmWeekly then ({ setup with tmWday := careOr 0 6 now.tmWday setup.tmWday }, true)
  else if type = rtAlarmMonthly then ({ setup with tmMday := careOr 1 31 now.tmMday setup.tmMday }, true)
  else if type = rtAlarmYaerly then
    let setup := { setup with tmMon := careOr 0 11 now.tmMon setup.tmMon }
    let last := if setup.tmMon = 1 then 29
      else if (setup.tmMon ≤ 6 ∧ setup.tmMon % 2 = 0) ∨ (6 < setup.tmMon ∧ setup.tmMon % 2 = 1) then 31
      else 30
    ({ setup with tmMday := careOr 1 last now.tmMday setup.tmMday }, true)
  else (setup, false)

/-- `alarm_setup`. What is not accepted leaves the alarm with its new time, and not set up. -/
def alarmSetup (alarm : RtAlarm) (now : Tm) : RtAlarm × Bool :=
  let setup := { alarm.wktime with
    tmSec := careOr 0 59 now.tmSec alarm.wktime.tmSec
    tmMin := careOr 0 59 now.tmMin alarm.wktime.tmMin
    tmHour := careOr 0 23 now.tmHour alarm.wktime.tmHour }
  let r := alarmSetupDate alarm.type setup now
  if r.2 then
    -- "for insurance purposes, we will generate an alarm signal two seconds ahead of."
    let setup := if r.1.tmHour = 23 ∧ r.1.tmMin = 59 ∧ r.1.tmSec = 59 then { r.1 with tmSec := 60 - rtAlarmDelay } else r.1
    ({ alarm with wktime := setup, inited := true }, true)
  else ({ alarm with wktime := r.1 }, false)

def inDelay (secNow secAlarm : Nat) : Bool := (secNow + 4294967296 - secAlarm) % 4294967296 ≤ rtAlarmDelay

/-- The tests of `alarm_wakeup`, by the type of the alarm. -/
def alarmDue (cal : Calendar) (alarm : RtAlarm) (now : Tm) : Bool :=
  let secAlarm := alarmMkdaysec alarm.wktime
  let secNow := alarmMkdaysec now
  if alarm.type = rtAlarmOneshot then
    let secAlarm := (cal.mktime alarm.wktime % 4294967296).toNat
    let secNow := (cal.mktime now % 4294967296).toNat
    inDelay secNow secAlarm && secAlarm ≤ secNow
  else if alarm.type = rtAlarmDaily then inDelay secNow secAlarm && secAlarm ≤ secNow
  else if alarm.type = rtAlarmWeekly then
    let secAlarm := ((secAlarm + alarm.wktime.tmWday * 24 * 3600) % 4294967296).toNat
    let secNow := ((secNow + now.tmWday * 24 * 3600) % 4294967296).toNat
    inDelay secNow secAlarm && secAlarm ≤ secNow
  else if alarm.type = rtAlarmMonthly then alarm.wktime.tmMday = now.tmMday && inDelay secNow secAlarm
  else if alarm.type = rtAlarmYaerly then
    alarm.wktime.tmMday = now.tmMday && alarm.wktime.tmMon = now.tmMon && inDelay secNow secAlarm
  else false

/-! ## The hardware alarm -/

/-- What `alarm_set` gives to the device. -/
def RtAlarm.wkalarm (alarm : RtAlarm) : WkAlarm := ⟨alarm.start, alarm.wktime.tmSec, alarm.wktime.tmMin, alarm.wktime.tmHour⟩

namespace AlarmContainer

def setAlarm (s : AlarmContainer) (a : Nat) (alarm : RtAlarm) : AlarmContainer := { s with alarm := Function.update s.alarm a alarm }

def alarmSet (s : AlarmContainer) (a : Nat) : AlarmContainer := { s with wkalarm := (s.alarm a).wkalarm }

/-- `alarm_set` has returned `RT_EOK`, and the alarm becomes the current one. -/
def makeCurrent (s : AlarmContainer) (a : Nat) : AlarmContainer := { s.alarmSet a with current := some a }

def Started (s : AlarmContainer) (a : Nat) : Prop := (s.alarm a).start = true

instance decidableStarted (s : AlarmContainer) (a : Nat) : Decidable (s.Started a) := inferInstanceAs (Decidable (_ = _))

def sec (s : AlarmContainer) (a : Nat) : Nat := alarmMkdaysec (s.alarm a).wktime

end AlarmContainer

section update

variable (cal : Calendar)

/-- `alarm_wakeup`, and whether the callback is called. -/
def alarmWakeup (now : Tm) (s : AlarmContainer) (a : Nat) : AlarmContainer × Bool :=
  let alarm := s.alarm a
  if alarm.start then
    let wakeup := alarmDue cal alarm now
    if alarm.type = rtAlarmOneshot ∧ wakeup then ((s.setAlarm a { alarm with start := false }).alarmSet a, alarm.callback)
    else (s, wakeup && alarm.callback)
  else (s, false)

/-- The first loop of `alarm_update`: the container and the alarms whose callbacks have been called. -/
def alarmWakeups (now : Tm) : AlarmContainer → List Nat → AlarmContainer × List Nat
  | s, [] => (s, [])
  | s, a :: rest =>
    let r := alarmWakeup cal now s a
    let rs := alarmWakeups now r.1 rest
    (rs.1, if r.2 then a :: rs.2 else rs.2)

/-- `sec_next`, `alm_next`, `sec_prev` and `alm_prev`. -/
structure AlarmSearch where
  secNext : Int
  almNext : Option Nat
  secPrev : Int
  almPrev : Option Nat

def AlarmSearch.visit (s : AlarmContainer) (secNow : Nat) (r : AlarmSearch) (a : Nat) : AlarmSearch :=
  if (s.alarm a).start = true ∧ s.current ≠ some a then
    let secTmp : Int := s.sec a - secNow
    if 0 < secTmp then
      if secTmp < r.secNext then { r with secNext := secTmp, almNext := some a } else r
    else if secTmp < r.secPrev then { r with secPrev := secTmp, almPrev := some a } else r
  else r

/-- The rest of `alarm_update`. -/
def alarmSelect (secNow : Nat) (s : AlarmContainer) : AlarmContainer :=
  let r := s.head.foldl (AlarmSearch.visit s secNow) ⟨24 * 3600, none, 0, none⟩
  if r.secNext < 24 * 3600 then r.almNext.elim s s.makeCurrent
  else if r.secPrev < 0 then r.almPrev.elim s s.makeCurrent
  else s

/-- `alarm_update`, which reads the clock twice. -/
def alarmUpdate (s : AlarmContainer) (t₁ t₂ : Nat) : AlarmContainer × List Nat :=
  let r := alarmWakeups cal (cal.localtime t₁) s s.head
  (alarmSelect (alarmMkdaysec (cal.localtime t₂)) r.1, r.2)

/-! ## The calls -/

/-- The first part of `rt_alarm_start`: an alarm that is not set up is set up. -/
def alarmPrepare (s : AlarmContainer) (a t : Nat) : AlarmContainer × Bool :=
  if (s.alarm a).inited then (s, true)
  else
    let r := alarmSetup (s.alarm a) (cal.localtime t)
    (s.setAlarm a r.1, r.2)

/-- The comparison of `rt_alarm_start` of the new alarm with the current one. -/
def comesFirst (secNew secOld secNow : Nat) : Bool :=
  (secNew < secOld && secNow < secNew) || (secNow < secNew && secOld < secNow) || (secNew < secOld && secOld < secNow)

/-- `rt_alarm_start`, and whether it returns `RT_EOK`. -/
def rtAlarmStart (s : AlarmContainer) (a t₁ t₂ : Nat) : AlarmContainer × Bool :=
  let r := alarmPrepare cal s a t₁
  if r.2 = true ∧ ¬ r.1.Started a then
    let s := r.1.setAlarm a { r.1.alarm a with start := true }
    match s.current with
    | none => (s.makeCurrent a, true)
    | some c => (if comesFirst (s.sec a) (s.sec c) (alarmMkdaysec (cal.localtime t₂)) then s.makeCurrent a else s, true)
  else (r.1, false)

/-- `rt_alarm_stop`, the alarms whose callbacks have been called, and whether it returns `RT_EOK`. -/
def rtAlarmStop (s : AlarmContainer) (a t₁ t₂ : Nat) : AlarmContainer × List Nat × Bool :=
  if s.Started a then
    let stopped := s.setAlarm a { s.alarm a with start := false }
    if s.current = some a then
      let r := alarmUpdate cal { stopped.alarmSet a with current := none } t₁ t₂
      (r.1, r.2, true)
    else (stopped, [], false)
  else (s, [], false)

/-- `rt_alarm_control` with `RT_ALARM_CTRL_MODIFY` -/
def rtAlarmModify (s : AlarmContainer) (a flag : Nat) (wktime : Tm) (t₁ t₂ t₃ : Nat) : AlarmContainer × List Nat × Bool :=
  let r := rtAlarmStop cal s a t₁ t₂
  let alarm := { r.1.alarm a with type := flag &&& 0xFF00, start := false, inited := false, wktime }
  let set := alarmSetup alarm (cal.localtime t₃)
  (r.1.setAlarm a set.1, r.2.1, set.2)

end update

def RtAlarm.create (callback : Bool) (flag : Nat) (wktime : Tm) : RtAlarm := ⟨flag &&& 0xFF00, false, false, callback, wktime⟩

def AlarmContainer.init (alarms : List (Bool × Nat × Tm)) : AlarmContainer where
  alarm := fun a => (alarms[a]?).elim (.create false 0 ⟨0, 0, 0, 0, 0, 0, 0⟩) fun r => .create r.1 r.2.1 r.2.2
  head := (List.range alarms.length).reverse
  current := none
  wkalarm := ⟨false, 0, 0, 0⟩
  time := 0

inductive AlarmOp
  | start (a t₁ t₂ : Nat)
  | stop (a t₁ t₂ : Nat)
  | modify (a flag : Nat) (wktime : Tm) (t₁ t₂ t₃ : Nat)
  | event (t₁ t₂ : Nat)
  deriving DecidableEq

inductive AlarmEvent
  | callback (a : Nat)
  | returned (ok : Bool)
  deriving DecidableEq

def stepAlarm (cal : Calendar) (s : AlarmContainer) : AlarmOp → Option (AlarmContainer × List AlarmEvent)
  | .start a t₁ t₂ =>
    if a ∈ s.head ∧ s.time ≤ t₁ ∧ t₁ ≤ t₂ then
      let r := rtAlarmStart cal s a t₁ t₂
      some ({ r.1 with time := t₂ }, [.returned r.2])
    else none
  | .stop a t₁ t₂ =>
    if a ∈ s.head ∧ s.time ≤ t₁ ∧ t₁ ≤ t₂ then
      let r := rtAlarmStop cal s a t₁ t₂
      some ({ r.1 with time := t₂ }, r.2.1.map .callback ++ [.returned r.2.2])
    else none
  | .modify a flag wktime t₁ t₂ t₃ =>
    if a ∈ s.head ∧ s.time ≤ t₁ ∧ t₁ ≤ t₂ ∧ t₂ ≤ t₃ then
      let r := rtAlarmModify cal s a flag wktime t₁ t₂ t₃
      some ({ r.1 with time := t₃ }, r.2.1.map .callback ++ [.returned r.2.2])
    else none
  | .event t₁ t₂ =>
    if s.time ≤ t₁ ∧ t₁ ≤ t₂ then
      let r := alarmUpdate cal s t₁ t₂
      some ({ r.1 with time := t₂ }, r.2.map .callback)
    else none

abbrev AlarmRun (cal : Calendar) (ok : AlarmContainer → AlarmOp → Prop) (alarms : List (Bool × Nat × Tm)) :
    List AlarmEvent → AlarmContainer → Prop :=
  Transition.Run (stepAlarm cal) ok (.init alarms)

/-! ## What the hardware alarm is to be -/

/-- The seconds from the one after `now` to the next time that a clock shows `sec`. -/
def comesIn (now sec : Nat) : Nat := (sec + 86399 - now) % 86400

def AlarmContainer.First (s : AlarmContainer) (P : Nat → Prop) (now a : Nat) : Prop :=
  a ∈ s.head ∧ P a ∧ ∀ b ∈ s.head, P b → comesIn now (s.sec a) ≤ comesIn now (s.sec b)

/-- If some alarm is started, the hardware alarm is enabled and set to the started alarm that comes first. -/
def AlarmsRight (cal : Calendar) (s : AlarmContainer) : Prop :=
  (∃ a ∈ s.head, s.Started a) → s.wkalarm.enable = true ∧
    ∃ a, s.First s.Started (alarmMkdaysec (cal.localtime s.time)) a ∧ s.wkalarm = (s.alarm a).wkalarm

/-! ## When it is -/

section conditions

variable (cal : Calendar) (s : AlarmContainer)

def FiresOnce (t a : Nat) : Prop :=
  s.Started a ∧ (s.alarm a).type = rtAlarmOneshot ∧ alarmDue cal (s.alarm a) (cal.localtime t) = true

/-- What `alarm_wakeup` leaves started. -/
def Remains (t a : Nat) : Prop := s.Started a ∧ ¬ FiresOnce cal s t a

def CurrentFirst (P : Nat → Prop) (now : Nat) : Prop := (∀ a ∈ s.head, ¬ P a) ∨ ∃ c ∈ s.current, s.First P now c

/-- The new alarm comes before the current one, which is not at this very second, and no later than any started one; or the current one is started, and comes no later than the new one and any started one. -/
def StartFits (a t₁ t₂ : Nat) : Prop :=
  let r := alarmPrepare cal s a t₁
  let now := alarmMkdaysec (cal.localtime t₂)
  let NoLater c := ∀ b ∈ s.head, r.1.Started b → comesIn now (r.1.sec c) ≤ comesIn now (r.1.sec b)
  if r.2 = true ∧ ¬ r.1.Started a then
    (∀ c ∈ s.current, comesIn now (r.1.sec a) < comesIn now (r.1.sec c) ∧ r.1.sec c ≠ now) ∧ NoLater a ∨
      ∃ c ∈ s.current, r.1.Started c ∧ comesIn now (r.1.sec c) ≤ comesIn now (r.1.sec a) ∧ NoLater c
  else CurrentFirst r.1 r.1.Started now

/-- An alarm that is not current is stopped while the current one comes first; or the current one is stopped, and what remains does not all have this very second for its time. -/
def StopFits (a t₁ t₂ t₃ : Nat) : Prop :=
  if s.Started a ∧ s.current = some a then
    let P b := Remains cal s t₁ b ∧ b ≠ a
    let now := alarmMkdaysec (cal.localtime t₂)
    (∀ b ∈ s.head, ¬ P b) ∨
      ∃ b ∈ s.head, s.sec b ≠ now ∧ s.First P now b ∧ s.First P (alarmMkdaysec (cal.localtime t₃)) b
  else CurrentFirst s (fun b => s.Started b ∧ b ≠ a) (alarmMkdaysec (cal.localtime t₃))

/-- Of the alarms that remain started, one other than the current one, and not at this very second, comes no later than the current one; or the current one remains, all others are at this very second, and no alarm has switched itself off. -/
def EventFits (t₁ t₂ : Nat) : Prop :=
  let P := Remains cal s t₁
  let now := alarmMkdaysec (cal.localtime t₂)
  (∀ b ∈ s.head, ¬ P b) ∨
    (∃ b ∈ s.head, P b ∧ s.current ≠ some b ∧ s.sec b ≠ now ∧ ∀ c ∈ s.current, P c → comesIn now (s.sec b) ≤ comesIn now (s.sec c)) ∨
    (∀ b ∈ s.head, ¬ FiresOnce cal s t₁ b) ∧ ∃ c ∈ s.current, P c ∧ ∀ b ∈ s.head, P b → b ≠ c → s.sec b = now

end conditions

def AlarmsSafe (cal : Calendar) (s : AlarmContainer) : AlarmOp → Prop
  | .start a t₁ t₂ => StartFits cal s a t₁ t₂
  | .stop a t₁ t₂ => StopFits cal s a t₁ t₂ t₂
  | .modify a _ _ t₁ t₂ t₃ => StopFits cal s a t₁ t₂ t₃
  | .event t₁ t₂ => EventFits cal s t₁ t₂

section instances

variable {cal : Calendar} {s : AlarmContainer}

instance AlarmContainer.decidableFirst {P : Nat → Prop} [DecidablePred P] (now a : Nat) : Decidable (s.First P now a) :=
  inferInstanceAs (Decidable (_ ∧ _ ∧ _))

instance FiresOnce.decidable (t a : Nat) : Decidable (FiresOnce cal s t a) := inferInstanceAs (Decidable (_ ∧ _ ∧ _))

instance Remains.decidable (t : Nat) : DecidablePred (Remains cal s t) := fun _ => inferInstanceAs (Decidable (_ ∧ _))

instance CurrentFirst.decidable {P : Nat → Prop} [DecidablePred P] (now : Nat) : Decidable (CurrentFirst s P now) :=
  inferInstanceAs (Decidable (_ ∨ _))

instance AlarmsSafe.decidable (op : AlarmOp) : Decidable (AlarmsSafe cal s op) := by
  cases op with
  | start => unfold AlarmsSafe StartFits; infer_instance
  | stop => unfold AlarmsSafe StopFits; infer_instance
  | modify => unfold AlarmsSafe StopFits; infer_instance
  | event => unfold AlarmsSafe EventFits; infer_instance

end instances

end RtThread
