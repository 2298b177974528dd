import RtThread.Drivers.SerialOpen
import RtThread.Lib.Traces

/-!
# Opening and closing devices

`rt_device_open` and `rt_device_close` of `device.c`, for any driver. The first open initialises the device, and the device stays initialised when the driver then does not open it. `-RT_ENOSYS` of a driver counts as success, and is returned. A close gives up its reference before the driver is asked.
-/

namespace RtThread

/-! `rt_err_t` -/

def rtEok : Int := 0
def rtError : Int := 1
def rtEnosys : Int := 6
def rtEbusy : Int := 7

def rtDeviceOflagClose : BitVec 16 := 0
def rtDeviceOflagMask : BitVec 16 := 0xf0f

/-- `struct rt_device`, with what the driver keeps. -/
structure Device (σ : Type*) where
  flag : BitVec 16
  openFlag : BitVec 16
  refCount : BitVec 8
  user : σ
  deriving DecidableEq

/-- The functions of a driver that open and close; they do not write the reference count. -/
structure Driver (σ : Type*) where
  deviceInit : Option (Device σ → Int × Device σ)
  deviceOpen : Option (Device σ → BitVec 16 → Int × Device σ)
  deviceClose : Option (Device σ → Int × Device σ)

variable {σ : Type*}

namespace Device

def after (dev : Device σ) (r : Int × Device σ) : Int × Device σ := (r.1, { r.2 with refCount := dev.refCount })

/-- "if device is not initialized, initialize it." -/
def activate (dev : Device σ) (drv : Driver σ) : Int × Device σ :=
  if dev.flag &&& rtDeviceFlagActivated = 0 then
    match drv.deviceInit with
    | none => (rtEok, { dev with flag := dev.flag ||| rtDeviceFlagActivated })
    | some deviceInit =>
      let r := dev.after (deviceInit dev)
      if r.1 ≠ rtEok then r else (rtEok, { r.2 with flag := r.2.flag ||| rtDeviceFlagActivated })
  else (rtEok, dev)

/-- "call device open interface" -/
def callOpen (dev : Device σ) (drv : Driver σ) (oflag : BitVec 16) : Int × Device σ :=
  match drv.deviceOpen with
  | none => (rtEok, { dev with openFlag := oflag &&& rtDeviceOflagMask })
  | some deviceOpen => dev.after (deviceOpen dev oflag)

/-- `result == RT_EOK || result == -RT_ENOSYS` -/
def Succeeded (result : Int) : Prop := result = rtEok ∨ result = -rtEnosys

instance (result : Int) : Decidable (Succeeded result) := inferInstanceAs (Decidable (_ ∨ _))

/-- `rt_device_open`; nothing where the reference count wraps. -/
def rtDeviceOpen (dev : Device σ) (drv : Driver σ) (oflag : BitVec 16) : Option (Int × Device σ) :=
  let activated := dev.activate drv
  if activated.1 ≠ rtEok then some activated
  else if activated.2.flag &&& rtDeviceFlagStandalone ≠ 0 ∧ activated.2.openFlag &&& rtDeviceOflagOpen ≠ 0 then
    some (-rtEbusy, activated.2)
  else
    let opened := activated.2.callOpen drv oflag
    if Succeeded opened.1 then
      if opened.2.refCount + 1 = 0 then none
      else some (opened.1, { opened.2 with openFlag := opened.2.openFlag ||| rtDeviceOflagOpen, refCount := opened.2.refCount + 1 })
    else some opened

/-- `rt_device_close`, and whether it has called the driver. -/
def rtDeviceClose (dev : Device σ) (drv : Driver σ) : Int × Bool × Device σ :=
  if dev.refCount = 0 then (-rtError, false, dev)
  else
    let dev := { dev with refCount := dev.refCount - 1 }
    if dev.refCount ≠ 0 then (rtEok, false, dev)
    else
      match drv.deviceClose with
      | none => (rtEok, false, { dev with openFlag := rtDeviceOflagClose })
      | some deviceClose =>
        let r := dev.after (deviceClose dev)
        (r.1, true, if Succeeded r.1 then { r.2 with openFlag := rtDeviceOflagClose } else r.2)

end Device

/-! ## Runs of a device -/

inductive DeviceOp
  | open (oflag : BitVec 16)
  | close
  deriving DecidableEq

inductive DeviceEvent (σ : Type*)
  | opened (oflag : BitVec 16) (before : Device σ) (result : Int) (after : Device σ)
  | closed (before : Device σ) (result : Int) (called : Bool) (after : Device σ)

def stepDevice (drv : Driver σ) (dev : Device σ) : DeviceOp → Option (Device σ × List (DeviceEvent σ))
  | .open oflag => (dev.rtDeviceOpen drv oflag).map fun r => (r.2, [.opened oflag dev r.1 r.2])
  | .close =>
    let r := dev.rtDeviceClose drv
    some (r.2.2, [.closed dev r.1 r.2.1 r.2.2])

/-- A run of a device from `rt_device_register` on. -/
abbrev DeviceRun (drv : Driver σ) (flags : BitVec 16) (user : σ) : List (DeviceEvent σ) → Device σ → Prop :=
  Transition.Run (stepDevice drv) (fun _ _ => True) ⟨flags, 0, 0, user⟩

/-- The functions of the driver leave the flags alone when they fail, and the one that initialises always does. -/
structure Driver.Quiet (drv : Driver σ) : Prop where
  init : ∀ deviceInit ∈ drv.deviceInit, ∀ dev : Device σ,
    (deviceInit dev).2.flag = dev.flag ∧ (deviceInit dev).2.openFlag = dev.openFlag
  opens : ∀ deviceOpen ∈ drv.deviceOpen, ∀ (dev : Device σ) oflag, ¬Device.Succeeded (deviceOpen dev oflag).1 →
    (deviceOpen dev oflag).2.flag = dev.flag ∧ (deviceOpen dev oflag).2.openFlag = dev.openFlag

inductive OpenEffect (drv : Driver σ) (before : Device σ) (result : Int) (after : Device σ) : Prop
  | counts (hresult : Device.Succeeded result) (href : after.refCount.toNat = before.refCount.toNat + 1)
      (hopen : after.openFlag &&& rtDeviceOflagOpen ≠ 0)
  | fails (hresult : result ≠ rtEok) (href : after.refCount = before.refCount)
      (hflags : drv.Quiet → after.openFlag = before.openFlag ∧
        (after.flag = before.flag ∨ after.flag = before.flag ||| rtDeviceFlagActivated))

/-- A close without a reference changes nothing; the driver is called when the last reference goes; a close that succeeds has given up one. -/
structure CloseEffect (drv : Driver σ) (before : Device σ) (result : Int) (called : Bool) (after : Device σ) : Prop where
  closed : before.refCount = 0 → result = -rtError ∧ after = before
  called : called = true ↔ before.refCount = 1 ∧ drv.deviceClose.isSome = true
  counts : before.refCount ≠ 0 → Device.Succeeded result → after.refCount.toNat + 1 = before.refCount.toNat
  last : before.refCount = 1 → Device.Succeeded result → after.openFlag = rtDeviceOflagClose

def DeviceEvent.Proper (drv : Driver σ) : DeviceEvent σ → Prop
  | .opened _ before result after => OpenEffect drv before result after
  | .closed before result called after => CloseEffect drv before result called after

namespace Device

variable {dev dev' : Device σ} {drv : Driver σ} {result : Int} {oflag : BitVec 16}

theorem activate_refCount (dev : Device σ) (drv : Driver σ) : (dev.activate drv).2.refCount = dev.refCount := by
  unfold activate
  split
  · split
    · rfl
    · dsimp only
      split <;> rfl
  · rfl

theorem callOpen_refCount (dev : Device σ) (drv : Driver σ) (oflag : BitVec 16) : (dev.callOpen drv oflag).2.refCount = dev.refCount := by
  unfold callOpen
  split <;> rfl

theorem activate_flags (hquiet : drv.Quiet) :
    (dev.activate drv).2.openFlag = dev.openFlag ∧
      ((dev.activate drv).2.flag = dev.flag ∨ (dev.activate drv).2.flag = dev.flag ||| rtDeviceFlagActivated) := by
  unfold activate
  split
  · split
    · exact ⟨rfl, Or.inr rfl⟩
    · rename_i deviceInit hinit
      obtain ⟨hflag, hopen⟩ := hquiet.init deviceInit hinit dev
      dsimp only
      split
      · exact ⟨hopen, Or.inl hflag⟩
      · exact ⟨hopen, Or.inr (congrArg (· ||| rtDeviceFlagActivated) hflag)⟩
  · exact ⟨rfl, Or.inl rfl⟩

theorem callOpen_flags (hquiet : drv.Quiet) (hfails : ¬Succeeded (dev.callOpen drv oflag).1) :
    (dev.callOpen drv oflag).2.flag = dev.flag ∧ (dev.callOpen drv oflag).2.openFlag = dev.openFlag := by
  unfold callOpen at hfails ⊢
  split at hfails
  · exact absurd (Or.inl rfl) hfails
  · rename_i deviceOpen hopen
    exact hquiet.opens deviceOpen hopen dev oflag hfails

theorem openEffect (hopen : dev.rtDeviceOpen drv oflag = some (result, dev')) : OpenEffect drv dev result dev' := by
  have href := dev.activate_refCount drv
  rw [rtDeviceOpen] at hopen
  by_cases hinit : (dev.activate drv).1 ≠ rtEok
  · rw [if_pos hinit] at hopen
    obtain ⟨rfl, rfl⟩ := Prod.mk.inj (Option.some.inj hopen)
    exact .fails hinit href activate_flags
  rw [if_neg hinit] at hopen
  by_cases hbusy : (dev.activate drv).2.flag &&& rtDeviceFlagStandalone ≠ 0 ∧ (dev.activate drv).2.openFlag &&& rtDeviceOflagOpen ≠ 0
  · rw [if_pos hbusy] at hopen
    obtain ⟨rfl, rfl⟩ := Prod.mk.inj (Option.some.inj hopen)
    exact .fails (by decide) href activate_flags
  rw [if_neg hbusy] at hopen
  have href' := (callOpen_refCount (dev.activate drv).2 drv oflag).trans href
  by_cases hok : Succeeded ((dev.activate drv).2.callOpen drv oflag).1
  · rw [if_pos hok] at hopen
    by_cases hwraps : ((dev.activate drv).2.callOpen drv oflag).2.refCount + 1 = 0
    · rw [if_pos hwraps] at hopen
      cases hopen
    · rw [if_neg hwraps] at hopen
      obtain ⟨rfl, rfl⟩ := Prod.mk.inj (Option.some.inj hopen)
      refine .counts hok ?_ ?_
      · rw [href'] at hwraps ⊢
        have hlt := dev.refCount.isLt
        have hne : (dev.refCount + 1).toNat ≠ 0 := fun hzero => hwraps (BitVec.eq_of_toNat_eq hzero)
        rw [BitVec.toNat_add] at hne ⊢
        have hone : (1 : BitVec 8).toNat = 1 := rfl
        rw [hone] at hne ⊢
        omega
      · intro hzero
        have hbit := congrArg (BitVec.getLsbD · 3) hzero
        simp only [BitVec.getLsbD_and, BitVec.getLsbD_or] at hbit
        simp [rtDeviceOflagOpen] at hbit
  · rw [if_neg hok] at hopen
    have hresult : ((dev.activate drv).2.callOpen drv oflag).1 = result := congrArg Prod.fst (Option.some.inj hopen)
    have hafter : ((dev.activate drv).2.callOpen drv oflag).2 = dev' := congrArg Prod.snd (Option.some.inj hopen)
    rw [← hresult, ← hafter]
    refine .fails (fun heok => hok (Or.inl heok)) href' fun hquiet => ?_
    obtain ⟨hflag, hopenFlag⟩ := callOpen_flags hquiet hok
    rw [hflag, hopenFlag]
    exact activate_flags hquiet

theorem closeEffect (dev : Device σ) (drv : Driver σ) :
    CloseEffect drv dev (dev.rtDeviceClose drv).1 (dev.rtDeviceClose drv).2.1 (dev.rtDeviceClose drv).2.2 := by
  have hsub : dev.refCount ≠ 0 → (dev.refCount - 1).toNat + 1 = dev.refCount.toNat := by
    intro hne
    have hpos : dev.refCount.toNat ≠ 0 := fun hzero => hne (BitVec.eq_of_toNat_eq hzero)
    have hlt := dev.refCount.isLt
    have hone : (1 : BitVec 8).toNat = 1 := rfl
    rw [BitVec.toNat_sub, hone]
    omega
  rw [rtDeviceClose]
  by_cases hzero : dev.refCount = 0
  · have hone : dev.refCount ≠ 1 := by
      rw [hzero]
      decide
    rw [if_pos hzero]
    exact ⟨fun _ => ⟨rfl, rfl⟩, iff_of_false nofun fun hand => hone hand.1, fun hne => absurd hzero hne, fun hlast => absurd hlast hone⟩
  rw [if_neg hzero]
  by_cases hlast : dev.refCount = 1
  · have hnone : ¬dev.refCount - 1 ≠ 0 := by
      rw [hlast]
      decide
    dsimp only
    rw [if_neg hnone]
    cases hclose : drv.deviceClose with
    | none =>
      refine ⟨fun h => absurd h hzero, iff_of_false nofun fun hand => ?_, fun hne _ => hsub hne, fun _ _ => rfl⟩
      rw [hclose] at hand
      exact Bool.false_ne_true hand.2
    | some deviceClose =>
      have hcalls : drv.deviceClose.isSome = true := by
        rw [hclose]
        rfl
      refine ⟨fun h => absurd h hzero, iff_of_true rfl ⟨hlast, hcalls⟩, fun hne hok => ?_, fun _ hok => ?_⟩
      · dsimp only at hok ⊢
        rw [if_pos hok]
        exact hsub hne
      · dsimp only at hok ⊢
        rw [if_pos hok]
  · have hmore : dev.refCount - 1 ≠ 0 := by
      intro hone
      have hsum := hsub hzero
      rw [hone] at hsum
      exact hlast (BitVec.eq_of_toNat_eq hsum.symm)
    dsimp only
    rw [if_pos hmore]
    exact ⟨fun h => absurd h hzero, iff_of_false nofun fun hand => hlast hand.1, fun hne _ => hsub hne, fun hone => absurd hone hlast⟩

end Device

/-- Over every run, whatever the driver does. -/
theorem rtDevice_proper {drv : Driver σ} {flags : BitVec 16} {user : σ} {trace : List (DeviceEvent σ)} {dev : Device σ}
    (hrun : DeviceRun drv flags user trace dev) : ∀ e ∈ trace, e.Proper drv := by
  refine hrun.invariant (I := fun trace _ => ∀ e ∈ trace, DeviceEvent.Proper drv e) (fun e he => absurd he List.not_mem_nil) ?_
  intro trace dev op dev' events h _ hs e he
  rcases List.mem_append.mp he with he | he
  · exact h e he
  cases op with
  | «open» oflag =>
    obtain ⟨r, hopen, heq⟩ := Option.map_eq_some_iff.mp hs
    obtain ⟨rfl, rfl⟩ := Prod.mk.inj heq
    rw [List.mem_singleton.mp he]
    exact Device.openEffect hopen
  | close =>
    obtain ⟨rfl, rfl⟩ := Prod.mk.inj (Option.some.inj hs)
    rw [List.mem_singleton.mp he]
    exact dev.closeEffect drv

def countingDriver : Driver Nat where
  deviceInit := none
  deviceOpen := some fun dev _ => if dev.user < 2 then (rtEok, { dev with user := dev.user + 1 }) else (-rtError, dev)
  deviceClose := some fun dev => (rtEok, { dev with user := 0 })

theorem exists_deviceRun (drv : Driver σ) (flags : BitVec 16) (user : σ) (ops : List DeviceOp)
    (found : List (DeviceEvent σ) → Device σ → Bool)
    (h : ((Transition.exec (stepDevice drv) (fun _ _ => True) ⟨flags, 0, 0, user⟩ ops).any fun r => found r.1 r.2) = true) :
    ∃ trace dev, DeviceRun drv flags user trace dev ∧ found trace dev = true :=
  Transition.exists_run_of_exec ops found h

theorem rtDevice_proper_refused : ∃ trace dev, DeviceRun countingDriver 0 0 trace dev ∧ dev.refCount = 2 ∧ trace.length = 3 ∧
    ∀ e ∈ trace, e.Proper countingDriver := by
  obtain ⟨trace, dev, hrun, hfound⟩ := exists_deviceRun countingDriver 0 0 [.open 0, .open 0, .open 0]
    (fun trace dev => decide (dev.refCount = 2 ∧ trace.length = 3)) (by decide +kernel)
  obtain ⟨href, hlength⟩ := of_decide_eq_true hfound
  exact ⟨trace, dev, hrun, href, hlength, rtDevice_proper hrun⟩

def DeviceEvent.Atomic : DeviceEvent σ → Prop
  | .opened _ before result after | .closed before result _ after =>
    result ≠ rtEok → after.refCount = before.refCount ∧ after.openFlag = before.openFlag ∧ after.flag = before.flag

instance [DecidableEq σ] (e : DeviceEvent σ) : Decidable e.Atomic := by
  unfold DeviceEvent.Atomic
  split <;> infer_instance

def refusingDriver (result : Int) : Driver Unit where
  deviceInit := none
  deviceOpen := some fun dev _ => (result, dev)
  deviceClose := none

/-- A driver refuses to open a device, which is now initialised; a driver that has nothing to open returns `-RT_ENOSYS`, and the device is open. -/
theorem rtDevice_proper_fails :
    (∃ trace dev, DeviceRun (refusingDriver (-rtError)) 0 () trace dev ∧ dev.flag = rtDeviceFlagActivated ∧ ∃ e ∈ trace, ¬e.Atomic) ∧
    ∃ trace dev, DeviceRun (refusingDriver (-rtEnosys)) 0 () trace dev ∧ dev.refCount = 1 ∧ ∃ e ∈ trace, ¬e.Atomic := by
  constructor
  · obtain ⟨trace, dev, hrun, hfound⟩ := exists_deviceRun (refusingDriver (-rtError)) 0 () [.open 0]
      (fun trace dev => decide (dev.flag = rtDeviceFlagActivated ∧ ∃ e ∈ trace, ¬e.Atomic)) (by decide +kernel)
    obtain ⟨hflag, hevent⟩ := of_decide_eq_true hfound
    exact ⟨trace, dev, hrun, hflag, hevent⟩
  · obtain ⟨trace, dev, hrun, hfound⟩ := exists_deviceRun (refusingDriver (-rtEnosys)) 0 () [.open 0]
      (fun trace dev => decide (dev.refCount = 1 ∧ ∃ e ∈ trace, ¬e.Atomic)) (by decide +kernel)
    obtain ⟨href, hevent⟩ := of_decide_eq_true hfound
    exact ⟨trace, dev, hrun, href, hevent⟩

end RtThread
