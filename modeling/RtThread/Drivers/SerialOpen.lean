import RtThread.Lib.Transition

/-!
# The open modes of a serial device

`rt_device_open` and `rt_device_close` with `rt_serial_open` and `rt_serial_close`. An open takes the flags of the device from its own, but makes the receive and transmit structures, and configures the hardware, only where there are none; a close goes by the flags. An open for another mode than the one that is in use leaves flags that name the wrong structure.
-/

namespace RtThread

open Transition

def rtDeviceFlagStandalone : BitVec 16 := 0x008
def rtDeviceFlagActivated : BitVec 16 := 0x010
def rtDeviceFlagStream : BitVec 16 := 0x040
def rtDeviceFlagIntRx : BitVec 16 := 0x100
def rtDeviceFlagDmaRx : BitVec 16 := 0x200
def rtDeviceFlagIntTx : BitVec 16 := 0x400
def rtDeviceFlagDmaTx : BitVec 16 := 0x800
def rtDeviceOflagOpen : BitVec 16 := 0x008

/-- `struct rt_serial_rx_dma` or `struct rt_serial_rx_fifo` -/
inductive SerialRx
  | dma | fifo
  deriving DecidableEq

/-- `struct rt_serial_tx_dma` or `struct rt_serial_tx_fifo` -/
inductive SerialTxMode
  | dma | fifo
  deriving DecidableEq

/-- What `control` of the driver has set and not cleared. -/
structure UartConfig where
  intRx : Bool
  dmaRx : Bool
  intTx : Bool
  deriving DecidableEq

/-- `struct rt_serial_device`; the reference count has 8 bits. -/
structure SerialDevice where
  flag : BitVec 16
  openFlag : BitVec 16
  refCount : Nat
  bufsz : Nat
  serialRx : Option SerialRx
  serialTx : Option SerialTxMode
  uart : UartConfig
  deriving DecidableEq

inductive SerialError
  | eio | ebusy | error
  deriving DecidableEq

/-- "initialize the Rx structure according to open flag" -/
def serialOpenRx (dev : SerialDevice) (oflag : BitVec 16) : SerialDevice :=
  if dev.serialRx = none then
    if oflag &&& rtDeviceFlagDmaRx ≠ 0 then
      if dev.bufsz = 0 then { dev with serialRx := some .dma, openFlag := dev.openFlag ||| rtDeviceFlagDmaRx }
      else
        { dev with serialRx := some .fifo, uart := { dev.uart with dmaRx := true }, openFlag := dev.openFlag ||| rtDeviceFlagDmaRx }
    else if oflag &&& rtDeviceFlagIntRx ≠ 0 then
      { dev with serialRx := some .fifo, openFlag := dev.openFlag ||| rtDeviceFlagIntRx, uart := { dev.uart with intRx := true } }
    else { dev with serialRx := none }
  else if oflag &&& rtDeviceFlagDmaRx ≠ 0 then { dev with openFlag := dev.openFlag ||| rtDeviceFlagDmaRx }
  else if oflag &&& rtDeviceFlagIntRx ≠ 0 then { dev with openFlag := dev.openFlag ||| rtDeviceFlagIntRx }
  else dev

/-- The same for the Tx structure; no configuration goes to the hardware for DMA. -/
def serialOpenTx (dev : SerialDevice) (oflag : BitVec 16) : SerialDevice :=
  if dev.serialTx = none then
    if oflag &&& rtDeviceFlagDmaTx ≠ 0 then { dev with serialTx := some .dma, openFlag := dev.openFlag ||| rtDeviceFlagDmaTx }
    else if oflag &&& rtDeviceFlagIntTx ≠ 0 then
      { dev with serialTx := some .fifo, openFlag := dev.openFlag ||| rtDeviceFlagIntTx, uart := { dev.uart with intTx := true } }
    else { dev with serialTx := none }
  else if oflag &&& rtDeviceFlagDmaTx ≠ 0 then { dev with openFlag := dev.openFlag ||| rtDeviceFlagDmaTx }
  else if oflag &&& rtDeviceFlagIntTx ≠ 0 then { dev with openFlag := dev.openFlag ||| rtDeviceFlagIntTx }
  else dev

/-- "check device flag with the open flag" -/
def serialSupports (dev : SerialDevice) (oflag : BitVec 16) : Prop :=
  ∀ f ∈ [rtDeviceFlagDmaRx, rtDeviceFlagDmaTx, rtDeviceFlagIntRx, rtDeviceFlagIntTx], oflag &&& f ≠ 0 → dev.flag &&& f ≠ 0

instance (dev : SerialDevice) (oflag : BitVec 16) : Decidable (serialSupports dev oflag) := List.decidableBAll _ _

def rtSerialOpen (dev : SerialDevice) (oflag : BitVec 16) : Except SerialError SerialDevice :=
  if serialSupports dev oflag then
    let streamFlag := if oflag &&& rtDeviceFlagStream ≠ 0 ∨ dev.openFlag &&& rtDeviceFlagStream ≠ 0 then rtDeviceFlagStream else 0
    let dev := { dev with openFlag := oflag &&& 0xff }
    let dev := serialOpenTx (serialOpenRx dev oflag) oflag
    .ok { dev with openFlag := dev.openFlag ||| streamFlag }
  else .error .eio

/-- The first half of `rt_serial_close`, and nothing where an assertion fails. -/
def serialCloseRx (dev : SerialDevice) : Option SerialDevice :=
  if dev.openFlag &&& rtDeviceFlagIntRx ≠ 0 then
    if dev.serialRx = none then none
    else
      some { dev with
        serialRx := none, openFlag := dev.openFlag &&& ~~~rtDeviceFlagIntRx, uart := { dev.uart with intRx := false } }
  else if dev.openFlag &&& rtDeviceFlagDmaRx ≠ 0 then
    if dev.serialRx = none then none
    else
      some { dev with
        serialRx := none, openFlag := dev.openFlag &&& ~~~rtDeviceFlagDmaRx, uart := { dev.uart with dmaRx := false } }
  else some dev

def serialCloseTx (dev : SerialDevice) : Option SerialDevice :=
  if dev.openFlag &&& rtDeviceFlagIntTx ≠ 0 then
    if dev.serialTx = none then none
    else
      some { dev with
        serialTx := none, openFlag := dev.openFlag &&& ~~~rtDeviceFlagIntTx, uart := { dev.uart with intTx := false } }
  else if dev.openFlag &&& rtDeviceFlagDmaTx ≠ 0 then
    if dev.serialTx = none then none
    else some { dev with serialTx := none, openFlag := dev.openFlag &&& ~~~rtDeviceFlagDmaTx }
  else some dev

def rtSerialClose (dev : SerialDevice) : Option SerialDevice :=
  if dev.refCount > 1 then some dev else (serialCloseRx dev).bind serialCloseTx

/-- `rt_device_open`, for a driver whose `configure` succeeds or not; nothing where the reference count wraps. -/
def rtDeviceOpen (dev : SerialDevice) (oflag : BitVec 16) (configure : Bool) : Option (Except SerialError Unit × SerialDevice) :=
  let activated := dev.flag &&& rtDeviceFlagActivated ≠ 0
  -- `rt_serial_init`
  let dev := if activated then dev else { dev with serialRx := none, serialTx := none }
  if ¬ activated ∧ configure = false then some (.error .error, dev)
  else
    let dev := { dev with flag := dev.flag ||| rtDeviceFlagActivated }
    if dev.flag &&& rtDeviceFlagStandalone ≠ 0 ∧ dev.openFlag &&& rtDeviceOflagOpen ≠ 0 then some (.error .ebusy, dev)
    else
      match rtSerialOpen dev oflag with
      | .error e => some (.error e, dev)
      | .ok dev =>
        let refCount := (dev.refCount + 1) % 256
        if refCount = 0 then none else some (.ok (), { dev with openFlag := dev.openFlag ||| rtDeviceOflagOpen, refCount })

def rtDeviceClose (dev : SerialDevice) : Option (Except SerialError Unit × SerialDevice) :=
  if dev.refCount = 0 then some (.error .error, dev)
  else
    let dev := { dev with refCount := dev.refCount - 1 }
    if dev.refCount ≠ 0 then some (.ok (), dev) else (rtSerialClose dev).map fun dev => (.ok (), { dev with openFlag := 0 })

/-! ## Opens and closes -/

inductive SerialOp
  | open (oflag : BitVec 16) (configure : Bool)
  | close
  deriving DecidableEq

inductive SerialEvent
  | opened (oflag : BitVec 16) (result : Except SerialError Unit)
  | closed (result : Except SerialError Unit)

def stepSerial (dev : SerialDevice) : SerialOp → Option (SerialDevice × List SerialEvent)
  | .open oflag configure => (rtDeviceOpen dev oflag configure).map fun (result, dev) => (dev, [.opened oflag result])
  | .close => (rtDeviceClose dev).map fun (result, dev) => (dev, [.closed result])

inductive SerialMode
  | int | dma
  deriving DecidableEq

def rxMode (flags : BitVec 16) : Option SerialMode :=
  if flags &&& rtDeviceFlagDmaRx ≠ 0 then some .dma else if flags &&& rtDeviceFlagIntRx ≠ 0 then some .int else none

def txMode (flags : BitVec 16) : Option SerialMode :=
  if flags &&& rtDeviceFlagDmaTx ≠ 0 then some .dma else if flags &&& rtDeviceFlagIntTx ≠ 0 then some .int else none

def ReopensAlike (dev : SerialDevice) : SerialOp → Prop
  | .open oflag _ =>
    serialSupports dev oflag ∧ ¬ (dev.flag &&& rtDeviceFlagStandalone ≠ 0 ∧ dev.openFlag &&& rtDeviceOflagOpen ≠ 0) →
      (dev.serialRx ≠ none → rxMode oflag = rxMode dev.openFlag) ∧ (dev.serialTx ≠ none → txMode oflag = txMode dev.openFlag)
  | .close => True

instance (dev : SerialDevice) (op : SerialOp) : Decidable (ReopensAlike dev op) := by
  unfold ReopensAlike
  split <;> infer_instance

/-! ## The modes -/

def rxStructure (bufsz : Nat) : SerialMode → SerialRx
  | .int => .fifo
  | .dma => if bufsz = 0 then .dma else .fifo

def txStructure : SerialMode → SerialTxMode
  | .int => .fifo
  | .dma => .dma

structure SerialModes (dev : SerialDevice) (rx tx : Option SerialMode) : Prop where
  intRx : dev.openFlag &&& rtDeviceFlagIntRx ≠ 0 ↔ rx = some .int
  dmaRx : dev.openFlag &&& rtDeviceFlagDmaRx ≠ 0 ↔ rx = some .dma
  intTx : dev.openFlag &&& rtDeviceFlagIntTx ≠ 0 ↔ tx = some .int
  dmaTx : dev.openFlag &&& rtDeviceFlagDmaTx ≠ 0 ↔ tx = some .dma
  serialRx : dev.serialRx = rx.map (rxStructure dev.bufsz)
  serialTx : dev.serialTx = tx.map txStructure
  uartIntRx : dev.uart.intRx = true ↔ rx = some .int
  /-- For DMA without a buffer the hardware is not configured. -/
  uartDmaRx : dev.uart.dmaRx = true ↔ rx = some .dma ∧ dev.bufsz ≠ 0
  uartIntTx : dev.uart.intTx = true ↔ tx = some .int

/-! ## Flags -/

variable {dev dev' : SerialDevice} {oflag x y f g : BitVec 16} {rx tx : Option SerialMode} {op : SerialOp} {events trace : List SerialEvent}

theorem or_flag : (x ||| y) &&& f ≠ 0 ↔ x &&& f ≠ 0 ∨ y &&& f ≠ 0 := by
  have hor : (x ||| y) &&& f = (x &&& f) ||| (y &&& f) := by
    ext i hi
    simp [Bool.and_or_distrib_right]
  rw [hor]
  exact (not_congr BitVec.or_eq_zero_iff).trans not_and_or

theorem and_flag (h : g &&& f = 0) : (x &&& g) &&& f = 0 := by
  rw [BitVec.and_assoc, h]
  exact BitVec.and_zero

theorem and_flag_of_mem (h : g &&& f = f) : (x &&& g) &&& f = x &&& f := by
  rw [BitVec.and_assoc, h]

def rxFlag : Option SerialMode → BitVec 16
  | some .int => rtDeviceFlagIntRx
  | some .dma => rtDeviceFlagDmaRx
  | none => 0

def txFlag : Option SerialMode → BitVec 16
  | some .int => rtDeviceFlagIntTx
  | some .dma => rtDeviceFlagDmaTx
  | none => 0

/-! ## Opening -/

theorem serialOpenRx_eq (hserialRx : dev.serialRx = rx.map (rxStructure dev.bufsz)) (hint : dev.uart.intRx = true ↔ rx = some .int)
    (hdma : dev.uart.dmaRx = true ↔ rx = some .dma ∧ dev.bufsz ≠ 0) (hsame : dev.serialRx ≠ none → rxMode oflag = rx) :
    serialOpenRx dev oflag =
      { dev with
        openFlag := dev.openFlag ||| rxFlag (rxMode oflag)
        serialRx := (rxMode oflag).map (rxStructure dev.bufsz)
        uart := { dev.uart with
          intRx := decide (rxMode oflag = some .int)
          dmaRx := decide (rxMode oflag = some .dma ∧ dev.bufsz ≠ 0) } } := by
  obtain ⟨flag, openFlag, refCount, bufsz, serialRx, serialTx, ⟨intRx, dmaRx, intTx⟩⟩ := dev
  dsimp only at hserialRx hint hdma hsame ⊢
  cases rx with
  | none =>
    obtain rfl : serialRx = none := hserialRx
    obtain rfl : intRx = false := Bool.eq_false_iff.2 fun hno => nomatch hint.1 hno
    obtain rfl : dmaRx = false := Bool.eq_false_iff.2 fun hno => nomatch (hdma.1 hno).1
    rw [serialOpenRx, if_pos rfl, rxMode]
    dsimp only
    split_ifs with hflagDma hbufsz hflagInt
    · simp [rxFlag, rxStructure, hbufsz]
    · simp [rxFlag, rxStructure, hbufsz]
    · simp [rxFlag, rxStructure]
    · simp [rxFlag]
  | some mode =>
    obtain rfl : serialRx = some (rxStructure bufsz mode) := hserialRx
    have hmode := hsame (by simp)
    rw [hmode, serialOpenRx, if_neg (by simp)]
    rw [rxMode] at hmode
    have hflags : intRx = decide (some mode = some SerialMode.int) ∧ dmaRx = decide (some mode = some SerialMode.dma ∧ bufsz ≠ 0) := by
      constructor
      · rw [Bool.eq_iff_iff, decide_eq_true_iff]
        exact hint
      · rw [Bool.eq_iff_iff, decide_eq_true_iff]
        exact hdma
    rw [← hflags.1, ← hflags.2]
    split_ifs at hmode ⊢ with hflagDma hflagInt
    · obtain rfl := Option.some.inj hmode
      rfl
    · obtain rfl := Option.some.inj hmode
      rfl

theorem serialOpenTx_eq (hserialTx : dev.serialTx = tx.map txStructure) (hint : dev.uart.intTx = true ↔ tx = some .int)
    (hsame : dev.serialTx ≠ none → txMode oflag = tx) :
    serialOpenTx dev oflag =
      { dev with
        openFlag := dev.openFlag ||| txFlag (txMode oflag)
        serialTx := (txMode oflag).map txStructure
        uart := { dev.uart with intTx := decide (txMode oflag = some .int) } } := by
  obtain ⟨flag, openFlag, refCount, bufsz, serialRx, serialTx, ⟨intRx, dmaRx, intTx⟩⟩ := dev
  dsimp only at hserialTx hint hsame ⊢
  cases tx with
  | none =>
    obtain rfl : serialTx = none := hserialTx
    obtain rfl : intTx = false := Bool.eq_false_iff.2 fun hno => nomatch hint.1 hno
    rw [serialOpenTx, if_pos rfl, txMode]
    split_ifs with hflagDma hflagInt
    · simp [txFlag, txStructure]
    · simp [txFlag, txStructure]
    · simp [txFlag]
  | some mode =>
    obtain rfl : serialTx = some (txStructure mode) := hserialTx
    have hmode := hsame (by simp)
    rw [hmode, serialOpenTx, if_neg (by simp)]
    rw [txMode] at hmode
    have hflag : intTx = decide (some mode = some SerialMode.int) := by
      rw [Bool.eq_iff_iff, decide_eq_true_iff]
      exact hint
    rw [← hflag]
    split_ifs at hmode ⊢ with hflagDma hflagInt
    · obtain rfl := Option.some.inj hmode
      rfl
    · obtain rfl := Option.some.inj hmode
      rfl

theorem openFlag_modes {f keep : BitVec 16} (rx tx : Option SerialMode) (hlow : (0xff : BitVec 16) &&& f = 0) (hkeep : keep &&& f = 0) :
    (oflag &&& 0xff ||| rxFlag rx ||| txFlag tx ||| keep) &&& f ≠ 0 ↔ rxFlag rx &&& f ≠ 0 ∨ txFlag tx &&& f ≠ 0 := by
  rw [or_flag, or_flag, or_flag, hkeep, and_flag hlow]
  simp only [ne_eq, not_true_eq_false, false_or, or_false]

structure SerialInv (dev : SerialDevice) (rx tx : Option SerialMode) : Prop where
  modes : SerialModes dev rx tx
  idle : dev.refCount = 0 → rx = none ∧ tx = none
  activated : dev.refCount ≠ 0 → dev.flag &&& rtDeviceFlagActivated ≠ 0

theorem SerialModes.rxMode_eq (h : SerialModes dev rx tx) : rxMode dev.openFlag = rx := by
  rw [rxMode]
  by_cases hdma : dev.openFlag &&& rtDeviceFlagDmaRx ≠ 0
  · rw [if_pos hdma, h.dmaRx.1 hdma]
  rw [if_neg hdma]
  by_cases hint : dev.openFlag &&& rtDeviceFlagIntRx ≠ 0
  · rw [if_pos hint, h.intRx.1 hint]
  rw [if_neg hint]
  rw [h.dmaRx] at hdma
  rw [h.intRx] at hint
  rcases rx with _ | _ | _
  · rfl
  · exact absurd rfl hint
  · exact absurd rfl hdma

theorem SerialModes.txMode_eq (h : SerialModes dev rx tx) : txMode dev.openFlag = tx := by
  rw [txMode]
  by_cases hdma : dev.openFlag &&& rtDeviceFlagDmaTx ≠ 0
  · rw [if_pos hdma, h.dmaTx.1 hdma]
  rw [if_neg hdma]
  by_cases hint : dev.openFlag &&& rtDeviceFlagIntTx ≠ 0
  · rw [if_pos hint, h.intTx.1 hint]
  rw [if_neg hint]
  rw [h.dmaTx] at hdma
  rw [h.intTx] at hint
  rcases tx with _ | _ | _
  · rfl
  · exact absurd rfl hint
  · exact absurd rfl hdma

theorem SerialModes.congr (h : SerialModes dev rx tx) (flag : BitVec 16) (refCount : Nat) :
    SerialModes { dev with flag, refCount } rx tx :=
  ⟨h.intRx, h.dmaRx, h.intTx, h.dmaTx, h.serialRx, h.serialTx, h.uartIntRx, h.uartDmaRx, h.uartIntTx⟩

theorem SerialModes.open (h : SerialModes dev rx tx) (hsupports : serialSupports dev oflag)
    (hrx : dev.serialRx ≠ none → rxMode oflag = rx) (htx : dev.serialTx ≠ none → txMode oflag = tx) :
    ∃ dev', rtSerialOpen dev oflag = .ok dev' ∧ dev'.flag = dev.flag ∧ dev'.refCount = dev.refCount ∧
      ∀ flag refCount, SerialModes { dev' with flag, refCount, openFlag := dev'.openFlag ||| rtDeviceOflagOpen } (rxMode oflag) (txMode oflag) := by
  have hopenRx := @serialOpenRx_eq { dev with openFlag := oflag &&& 0xff } oflag rx h.serialRx h.uartIntRx h.uartDmaRx hrx
  rw [rtSerialOpen, if_pos hsupports]
  dsimp only
  generalize serialOpenRx { dev with openFlag := oflag &&& 0xff } oflag = devRx at hopenRx ⊢
  have hopenTx : serialOpenTx devRx oflag = _ :=
    serialOpenTx_eq (by rw [hopenRx]; exact h.serialTx) (by rw [hopenRx]; exact h.uartIntTx) (by rw [hopenRx]; exact htx)
  rw [hopenTx, hopenRx]
  generalize hstream : (if oflag &&& rtDeviceFlagStream ≠ 0 ∨ dev.openFlag &&& rtDeviceFlagStream ≠ 0 then rtDeviceFlagStream else 0) = stream
  have hkeep : ∀ f, rtDeviceFlagStream &&& f = 0 → rtDeviceOflagOpen &&& f = 0 → (stream ||| rtDeviceOflagOpen) &&& f = 0 := by
    intro f hf hopen
    have hzero : stream &&& f = 0 := by
      rw [← hstream]
      split_ifs
      · exact hf
      · exact BitVec.zero_and
    refine Decidable.of_not_not fun hne => ?_
    exact (or_flag.1 hne).elim (fun hno => hno hzero) fun hno => hno hopen
  refine ⟨_, rfl, rfl, rfl, fun flag refCount => ?_⟩
  have hflags := fun f => @openFlag_modes oflag f (stream ||| rtDeviceOflagOpen) (rxMode oflag) (txMode oflag)
  generalize rxMode oflag = rx' at hflags ⊢
  generalize txMode oflag = tx' at hflags ⊢
  refine ⟨?_, ?_, ?_, ?_, rfl, rfl, decide_eq_true_iff, decide_eq_true_iff, decide_eq_true_iff⟩
  all_goals
    dsimp only
    rw [BitVec.or_assoc _ stream]
  · rw [hflags rtDeviceFlagIntRx (by decide) (hkeep _ (by decide) (by decide))]
    rcases rx' with _ | _ | _ <;> rcases tx' with _ | _ | _ <;> decide
  · rw [hflags rtDeviceFlagDmaRx (by decide) (hkeep _ (by decide) (by decide))]
    rcases rx' with _ | _ | _ <;> rcases tx' with _ | _ | _ <;> decide
  · rw [hflags rtDeviceFlagIntTx (by decide) (hkeep _ (by decide) (by decide))]
    rcases rx' with _ | _ | _ <;> rcases tx' with _ | _ | _ <;> decide
  · rw [hflags rtDeviceFlagDmaTx (by decide) (hkeep _ (by decide) (by decide))]
    rcases rx' with _ | _ | _ <;> rcases tx' with _ | _ | _ <;> decide

/-! ## Closing -/

theorem SerialModes.closeRx (h : SerialModes dev rx tx) :
    ∃ openFlag, serialCloseRx dev = some { dev with
        serialRx := none, openFlag, uart := { dev.uart with intRx := false, dmaRx := false } } ∧
      openFlag &&& rtDeviceFlagIntTx = dev.openFlag &&& rtDeviceFlagIntTx ∧
      openFlag &&& rtDeviceFlagDmaTx = dev.openFlag &&& rtDeviceFlagDmaTx := by
  have hint := h.intRx
  have hdma := h.dmaRx
  have hserialRx := h.serialRx
  have huartInt := h.uartIntRx
  have huartDma := h.uartDmaRx
  obtain ⟨flag, openFlag, refCount, bufsz, serialRx, serialTx, ⟨intRx, dmaRx, intTx⟩⟩ := dev
  dsimp only at hint hdma hserialRx huartInt huartDma ⊢
  subst hserialRx
  rcases rx with _ | _ | _
  · obtain rfl : intRx = false := Bool.eq_false_iff.2 fun hno => nomatch huartInt.1 hno
    obtain rfl : dmaRx = false := Bool.eq_false_iff.2 fun hno => nomatch (huartDma.1 hno).1
    exact ⟨openFlag, (if_neg fun hno => nomatch hint.1 hno).trans (if_neg fun hno => nomatch hdma.1 hno), rfl, rfl⟩
  · obtain rfl : dmaRx = false := Bool.eq_false_iff.2 fun hno => nomatch (huartDma.1 hno).1
    exact ⟨_, (if_pos (hint.2 rfl)).trans (if_neg (Option.some_ne_none _)), and_flag_of_mem (by decide), and_flag_of_mem (by decide)⟩
  · obtain rfl : intRx = false := Bool.eq_false_iff.2 fun hno => nomatch huartInt.1 hno
    exact ⟨_, ((if_neg fun hno => nomatch hint.1 hno).trans (if_pos (hdma.2 rfl))).trans (if_neg (Option.some_ne_none _)),
      and_flag_of_mem (by decide), and_flag_of_mem (by decide)⟩

theorem serialCloseTx_eq (hint : dev.openFlag &&& rtDeviceFlagIntTx ≠ 0 ↔ tx = some .int)
    (hdma : dev.openFlag &&& rtDeviceFlagDmaTx ≠ 0 ↔ tx = some .dma) (hserialTx : dev.serialTx = tx.map txStructure)
    (huart : dev.uart.intTx = true ↔ tx = some .int) :
    ∃ openFlag, serialCloseTx dev = some { dev with serialTx := none, openFlag, uart := { dev.uart with intTx := false } } := by
  obtain ⟨flag, openFlag, refCount, bufsz, serialRx, serialTx, ⟨intRx, dmaRx, intTx⟩⟩ := dev
  dsimp only at hint hdma hserialTx huart ⊢
  subst hserialTx
  rcases tx with _ | _ | _
  · obtain rfl : intTx = false := Bool.eq_false_iff.2 fun hno => nomatch huart.1 hno
    exact ⟨openFlag, (if_neg fun hno => nomatch hint.1 hno).trans (if_neg fun hno => nomatch hdma.1 hno)⟩
  · exact ⟨_, (if_pos (hint.2 rfl)).trans (if_neg (Option.some_ne_none _))⟩
  · obtain rfl : intTx = false := Bool.eq_false_iff.2 fun hno => nomatch huart.1 hno
    exact ⟨_, ((if_neg fun hno => nomatch hint.1 hno).trans (if_pos (hdma.2 rfl))).trans (if_neg (Option.some_ne_none _))⟩

theorem SerialModes.none (flag : BitVec 16) (refCount bufsz : Nat) :
    SerialModes ⟨flag, 0, refCount, bufsz, .none, .none, ⟨false, false, false⟩⟩ .none .none := by
  have hno : ∀ (f : BitVec 16) (mode : SerialMode), (0 : BitVec 16) &&& f ≠ 0 ↔ Option.none = some mode := fun f mode =>
    iff_of_false (fun hne => hne BitVec.zero_and) fun heq => nomatch heq
  exact ⟨hno _ _, hno _ _, hno _ _, hno _ _, rfl, rfl, by simp, by simp, by simp⟩

theorem SerialModes.close (h : SerialModes dev rx tx) (hlast : dev.refCount ≤ 1) :
    ∃ dev', rtSerialClose dev = some dev' ∧ dev'.refCount = dev.refCount ∧ SerialModes { dev' with openFlag := 0 } .none .none := by
  obtain ⟨flags, hrx, hintTx, hdmaTx⟩ := h.closeRx
  obtain ⟨flags', htx⟩ := @serialCloseTx_eq
    { dev with serialRx := .none, openFlag := flags, uart := { dev.uart with intRx := false, dmaRx := false } } tx
    (hintTx ▸ h.intTx) (hdmaTx ▸ h.dmaTx) h.serialTx h.uartIntTx
  rw [rtSerialClose, if_neg (Nat.not_lt.2 hlast), hrx, Option.bind_some, htx]
  exact ⟨_, rfl, rfl, SerialModes.none ..⟩

/-! ## Runs -/

theorem SerialInv.step_open (h : SerialInv dev rx tx) {configure : Bool} (halike : ReopensAlike dev (.open oflag configure))
    {result : Except SerialError Unit} (hopen : rtDeviceOpen dev oflag configure = some (result, dev')) : ∃ rx tx, SerialInv dev' rx tx := by
  -- the initialization finds nothing allocated
  have hinit : (if dev.flag &&& rtDeviceFlagActivated ≠ 0 then dev else { dev with serialRx := none, serialTx := none }) = dev := by
    by_cases hactivated : dev.flag &&& rtDeviceFlagActivated ≠ 0
    · rw [if_pos hactivated]
    · obtain ⟨rfl, rfl⟩ := h.idle (Decidable.of_not_not fun hno => hactivated (h.activated hno))
      have hrx : dev.serialRx = none := h.modes.serialRx
      have htx : dev.serialTx = none := h.modes.serialTx
      rw [if_neg hactivated, ← hrx, ← htx]
  rw [rtDeviceOpen] at hopen
  dsimp only at hopen
  rw [hinit] at hopen
  by_cases hfail : ¬ dev.flag &&& rtDeviceFlagActivated ≠ 0 ∧ configure = false
  · rw [if_pos hfail] at hopen
    obtain ⟨-, rfl⟩ := Prod.mk.inj (Option.some.inj hopen)
    exact ⟨rx, tx, h⟩
  rw [if_neg hfail] at hopen
  have hactivated : (dev.flag ||| rtDeviceFlagActivated) &&& rtDeviceFlagActivated ≠ 0 := or_flag.2 (.inr (by decide))
  have hother : ∀ f, rtDeviceFlagActivated &&& f = 0 →
      ((dev.flag ||| rtDeviceFlagActivated) &&& f ≠ 0 ↔ dev.flag &&& f ≠ 0) := fun f hf => by
    rw [or_flag, hf]
    exact or_iff_left fun hno => hno rfl
  have hdev : SerialInv { dev with flag := dev.flag ||| rtDeviceFlagActivated } rx tx := ⟨h.modes.congr _ _, h.idle, fun _ => hactivated⟩
  by_cases hbusy : (dev.flag ||| rtDeviceFlagActivated) &&& rtDeviceFlagStandalone ≠ 0 ∧ dev.openFlag &&& rtDeviceOflagOpen ≠ 0
  · rw [if_pos hbusy] at hopen
    obtain ⟨-, rfl⟩ := Prod.mk.inj (Option.some.inj hopen)
    exact ⟨rx, tx, hdev⟩
  rw [if_neg hbusy] at hopen
  by_cases hsupports : serialSupports { dev with flag := dev.flag ||| rtDeviceFlagActivated } oflag
  · have hsupported : serialSupports dev oflag := fun f hf hflag => (hother f (by
      simp only [List.mem_cons, List.not_mem_nil, or_false] at hf
      rcases hf with rfl | rfl | rfl | rfl <;> decide)).1 (hsupports f hf hflag)
    obtain ⟨hrx, htx⟩ := halike ⟨hsupported, fun hno => hbusy ⟨(hother _ (by decide)).2 hno.1, hno.2⟩⟩
    rw [h.modes.rxMode_eq] at hrx
    rw [h.modes.txMode_eq] at htx
    obtain ⟨dev₁, hserial, hflag, hcount, hmodes⟩ := hdev.modes.open hsupports hrx htx
    rw [hserial] at hopen
    dsimp only at hopen
    by_cases hwrap : (dev₁.refCount + 1) % 256 = 0
    · rw [if_pos hwrap] at hopen
      cases hopen
    rw [if_neg hwrap] at hopen
    obtain ⟨-, rfl⟩ := Prod.mk.inj (Option.some.inj hopen)
    exact ⟨_, _, hmodes _ _, fun hno => absurd hno hwrap, fun _ => by
      dsimp only
      rw [hflag]
      exact hactivated⟩
  · rw [rtSerialOpen, if_neg hsupports] at hopen
    obtain ⟨-, rfl⟩ := Prod.mk.inj (Option.some.inj hopen)
    exact ⟨rx, tx, hdev⟩

theorem SerialInv.step_close (h : SerialInv dev rx tx) :
    ∃ result dev' rx tx, rtDeviceClose dev = some (result, dev') ∧ SerialInv dev' rx tx := by
  rw [rtDeviceClose]
  by_cases hzero : dev.refCount = 0
  · rw [if_pos hzero]
    exact ⟨_, dev, rx, tx, rfl, h⟩
  rw [if_neg hzero]
  dsimp only
  by_cases hmore : dev.refCount - 1 ≠ 0
  · rw [if_pos hmore]
    exact ⟨_, _, rx, tx, rfl, h.modes.congr _ _, fun hno => absurd hno hmore, fun _ => h.activated hzero⟩
  · obtain ⟨dev₁, hclose, hcount, hmodes⟩ := (h.modes.congr dev.flag (dev.refCount - 1)).close (by dsimp only; omega)
    rw [if_neg hmore, hclose, Option.map_some]
    refine ⟨_, _, _, _, rfl, hmodes, fun _ => ⟨rfl, rfl⟩, fun hno => ?_⟩
    exact absurd (hcount.trans (Decidable.of_not_not hmore)) hno

/-- In every run whose opens ask for the modes in use, the flags name the structures that are allocated and the modes of the hardware, nothing is
allocated where nobody has the device open, and every close succeeds. -/
theorem serialModes_of_run {dev₀ : SerialDevice} (hclosed : dev₀.refCount = 0) (hmodes : SerialModes dev₀ none none)
    (hrun : Run stepSerial ReopensAlike dev₀ trace dev) :
    ∃ rx tx, SerialModes dev rx tx ∧ (dev.refCount = 0 → dev.serialRx = none ∧ dev.serialTx = none) ∧
      (stepSerial dev .close).isSome = true := by
  have hinv : ∃ rx tx, SerialInv dev rx tx := by
    refine hrun.state_invariant (I := fun dev => ∃ rx tx, SerialInv dev rx tx)
      ⟨none, none, hmodes, fun _ => ⟨rfl, rfl⟩, fun hno => absurd hclosed hno⟩ ?_
    rintro dev op dev' events ⟨rx, tx, h⟩ halike hs
    cases op with
    | «open» oflag configure =>
      obtain ⟨⟨result, dev₁⟩, hopen, heq⟩ := Option.map_eq_some_iff.1 hs
      obtain ⟨rfl, -⟩ := Prod.mk.inj heq
      exact h.step_open halike hopen
    | close =>
      obtain ⟨result, dev₁, rx', tx', hclose, h'⟩ := h.step_close
      rw [stepSerial, hclose, Option.map_some] at hs
      obtain ⟨rfl, -⟩ := Prod.mk.inj (Option.some.inj hs)
      exact ⟨rx', tx', h'⟩
  obtain ⟨rx, tx, h⟩ := hinv
  refine ⟨rx, tx, h.modes, fun hzero => ?_, ?_⟩
  · obtain ⟨rfl, rfl⟩ := h.idle hzero
    exact ⟨h.modes.serialRx, h.modes.serialTx⟩
  · obtain ⟨result, dev', rx', tx', hclose, -⟩ := h.step_close
    rw [stepSerial, hclose, Option.map_some, Option.isSome_some]

def registeredSerial : SerialDevice := ⟨0xf03, 0, 0, 64, none, none, ⟨false, false, false⟩⟩

theorem exists_serial_run (ok : SerialDevice → SerialOp → Prop) [∀ s op, Decidable (ok s op)] (dev : SerialDevice) (ops : List SerialOp)
    (found : List SerialEvent → SerialDevice → Bool) (h : ((exec stepSerial ok dev ops).any fun r => found r.1 r.2) = true) :
    ∃ trace dev', Run stepSerial ok dev trace dev' ∧ found trace dev' = true :=
  exists_run_of_exec ops found h

/-- Two opens for the same modes, and their closes. -/
theorem serialModes_of_run_nested :
    ∃ trace dev, Run stepSerial ReopensAlike registeredSerial trace dev ∧ dev.refCount = 0 ∧ trace.length = 4 ∧
      dev.serialRx = none ∧ dev.serialTx = none := by
  obtain ⟨trace, dev, hrun, hfound⟩ := exists_serial_run ReopensAlike registeredSerial
    [.open 0xa03 true, .open 0xa03 true, .close, .close] (fun trace dev => decide (dev.refCount = 0 ∧ trace.length = 4)) (by decide +kernel)
  obtain ⟨hzero, hlength⟩ := of_decide_eq_true hfound
  obtain ⟨-, -, -, hnone, -⟩ := serialModes_of_run rfl (SerialModes.none _ _ _) hrun
  exact ⟨trace, dev, hrun, hzero, hlength, hnone hzero⟩

/-- An open without a receive mode while a receive structure is in use takes its flag away; the last close leaves the structure and the
interrupt. -/
theorem serial_reopened : ∃ trace dev₁ dev₂ trace', Run stepSerial (fun _ _ => True) registeredSerial trace dev₁ ∧
    dev₁.serialRx = some .fifo ∧ dev₁.openFlag &&& rtDeviceFlagIntRx = 0 ∧ dev₁.openFlag &&& rtDeviceFlagDmaRx = 0 ∧
    Run stepSerial (fun _ _ => True) dev₁ trace' dev₂ ∧ dev₂.refCount = 0 ∧ dev₂.serialRx = some .fifo ∧ dev₂.uart.intRx = true := by
  obtain ⟨trace, dev₁, hrun, hfound⟩ := exists_serial_run (fun _ _ => True) registeredSerial
    [.open 0x103 true, .open 0x003 true] (fun _ dev => decide (dev = ⟨0xf13, 0x00b, 2, 64, some .fifo, none, ⟨true, false, false⟩⟩))
    (by decide +kernel)
  obtain rfl := of_decide_eq_true hfound
  obtain ⟨trace', dev₂, hrun', hfound'⟩ := exists_serial_run (fun _ _ => True)
    ⟨0xf13, 0x00b, 2, 64, some .fifo, none, ⟨true, false, false⟩⟩ [.close, .close]
    (fun _ dev => decide (dev = ⟨0xf13, 0, 0, 64, some .fifo, none, ⟨true, false, false⟩⟩)) (by decide +kernel)
  obtain rfl := of_decide_eq_true hfound'
  exact ⟨trace, _, _, trace', hrun, rfl, by decide, by decide, hrun', rfl, rfl, rfl⟩

end RtThread
