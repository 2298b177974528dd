import RtThread.Drivers.WaitQueue

/-!
# The indications of the device to its clients

`at_client_getchar` and `at_client_rx_ind` of `at_client.c`. A call reads a byte; where there is none it resets the semaphore of the client, takes it, and reads again. The device receives and gives its indications at any time. Only one thread reads for a client, so that the semaphore has at most one waiter.
-/

namespace RtThread

open Function Transition

/-- Where a call of `at_client_getchar` is. -/
inductive GetcharPoint
  | read
  | reset
  | take
  /-- Suspended in `rt_sem_take`. -/
  | waiting
  deriving DecidableEq

structure GetcharCall where
  time : Int
  point : GetcharPoint
  deriving DecidableEq

structure AtRxClient where
  device : Nat
  rxNotice : Nat
  call : Option GetcharCall
  deriving DecidableEq

/-- `at_client_table` and the devices: what they have received and nobody has read, oldest first, and how many of these bytes they have given an indication of. -/
structure AtRx where
  client : Nat → AtRxClient
  rx : Nat → List UInt8
  indicated : Nat → Nat

inductive AtRxOp
  | arrive (dev : Nat) (ch : UInt8)
  /-- The buffer of the device is full, and its oldest byte is discarded. -/
  | discard (dev : Nat)
  /-- `at_client_rx_ind` -/
  | indicate (dev size : Nat)
  /-- `at_client_getchar` with its timeout in milliseconds. -/
  | getchar (c : Nat) (timeout : Int)
  | go (c : Nat)
  | timeout (c : Nat)
  deriving DecidableEq

inductive AtRxEvent
  | read (c : Nat) (ch : UInt8)
  /-- `-RT_ETIMEOUT` -/
  | failed (c : Nat)
  deriving DecidableEq

def AtRxClient.rtSemRelease (client : AtRxClient) : AtRxClient :=
  match client.call with
  | some ⟨time, .waiting⟩ => { client with call := some ⟨time, .read⟩ }
  | _ => { client with rxNotice := (client.rxNotice + 1) % 65536 }

namespace AtRx

def setClient (s : AtRx) (c : Nat) (client : AtRxClient) : AtRx := { s with client := update s.client c client }

def pop (s : AtRx) (dev : Nat) : AtRx :=
  { s with
    rx := update s.rx dev (s.rx dev).tail
    indicated := update s.indicated dev (s.indicated dev - 1) }

/-- `at_client_rx_ind`: each client of the table that has this device. -/
def atClientRxInd (num : Nat) (s : AtRx) (dev size : Nat) : AtRx :=
  { s with
    client := fun c => if c < num ∧ (s.client c).device = dev ∧ 0 < size then (s.client c).rtSemRelease else s.client c
    indicated := if 0 < size then update s.indicated dev (s.rx dev).length else s.indicated }

def getcharGo (s : AtRx) (c : Nat) (time : Int) : GetcharPoint → Option (AtRx × List AtRxEvent)
  | .read =>
    match s.rx (s.client c).device with
    | ch :: _ => some ((s.pop (s.client c).device).setClient c { s.client c with call := none }, [.read c ch])
    | [] => some (s.setClient c { s.client c with call := some ⟨time, .reset⟩ }, [])
  | .reset => some (s.setClient c { s.client c with rxNotice := 0, call := some ⟨time, .take⟩ }, [])
  | .take =>
    if 0 < (s.client c).rxNotice then
      some (s.setClient c { s.client c with rxNotice := (s.client c).rxNotice - 1, call := some ⟨time, .read⟩ }, [])
    else if time = 0 then some (s.setClient c { s.client c with call := none }, [.failed c])
    else (timeoutTimer time).map fun _ => (s.setClient c { s.client c with call := some ⟨time, .waiting⟩ }, [])
  | .waiting => none

end AtRx

/-- `AT_CLIENT_NUM_MAX` and `RT_TICK_PER_SECOND` are parameters. -/
def stepAtRx (num : Nat) (tickPerSecond : Int) (s : AtRx) : AtRxOp → Option (AtRx × List AtRxEvent)
  | .arrive dev ch => some ({ s with rx := update s.rx dev (s.rx dev ++ [ch]) }, [])
  | .discard dev => some (s.pop dev, [])
  | .indicate dev size => some (s.atClientRxInd num dev size, [])
  | .getchar c timeout =>
    if c < num ∧ (s.client c).call = none then
      some (s.setClient c { s.client c with call := some ⟨rtTickFromMillisecond tickPerSecond timeout, .read⟩ }, [])
    else none
  | .go c => (s.client c).call.bind fun call => s.getcharGo c call.time call.point
  | .timeout c =>
    match (s.client c).call with
    | some ⟨time, .waiting⟩ => if 0 < time then some (s.setClient c { s.client c with call := none }, [.failed c]) else none
    | _ => none

def AtRx.init (device : Nat → Nat) : AtRx := ⟨fun c => ⟨device c, 0, none⟩, fun _ => [], fun _ => 0⟩

/-- A suspended call with unread bytes that the device has given its indication of. -/
def AtRx.Forgets (s : AtRx) (c : Nat) : Prop := ∃ time, (s.client c).call = some ⟨time, .waiting⟩ ∧ 0 < s.indicated (s.client c).device

/-- No call resets its semaphore while there are unread bytes with an indication, and no indication between the reset and the take makes the counter wrap. -/
def IndicationNoticed (num : Nat) (s : AtRx) : AtRxOp → Prop
  | .go c => ∀ call ∈ (s.client c).call, call.point = .reset → s.indicated (s.client c).device = 0
  | .indicate dev size =>
    0 < size → ∀ c < num, (s.client c).device = dev → ∀ call ∈ (s.client c).call, call.point = .take → (s.client c).rxNotice < 65535
  | _ => True

instance (num : Nat) (s : AtRx) (op : AtRxOp) : Decidable (IndicationNoticed num s op) := by
  cases op <;> unfold IndicationNoticed <;> infer_instance

variable {num c : Nat} {tickPerSecond : Int} {s s' : AtRx} {op : AtRxOp} {trace events : List AtRxEvent} {device : Nat → Nat}

namespace AtRx

@[simp]
theorem setClient_self (s : AtRx) (c : Nat) (client : AtRxClient) : (s.setClient c client).client c = client :=
  update_self ..

theorem setClient_other {c' : Nat} (hc : c' ≠ c) (s : AtRx) (client : AtRxClient) : (s.setClient c client).client c' = s.client c' :=
  update_of_ne hc ..

end AtRx

/-! ## A suspended call has no indication to wait for -/

def AtRxClient.Fits (client : AtRxClient) (indicated : Nat) : Prop :=
  ∀ call ∈ client.call, (call.point = .take → 0 < indicated → 0 < client.rxNotice) ∧ (call.point = .waiting → indicated = 0)

structure AtRxInv (num : Nat) (s : AtRx) : Prop where
  table : ∀ c, (s.client c).call ≠ none → c < num
  fits : ∀ c, (s.client c).Fits (s.indicated (s.client c).device)

namespace AtRxClient

variable {client : AtRxClient} {indicated indicated' : Nat}

theorem Fits.mono (h : client.Fits indicated) (hle : indicated' ≤ indicated) : client.Fits indicated' := by
  intro call hcall
  obtain ⟨htake, hwaiting⟩ := h call hcall
  exact ⟨fun hpoint hpos => htake hpoint (by omega), fun hpoint => by have := hwaiting hpoint; omega⟩

theorem fits_of_point (h : ∀ call ∈ client.call, call.point ≠ .take ∧ call.point ≠ .waiting) : client.Fits indicated :=
  fun call hcall => ⟨fun hpoint => absurd hpoint (h call hcall).1, fun hpoint => absurd hpoint (h call hcall).2⟩

theorem rtSemRelease_fits (hwrap : ∀ call ∈ client.call, call.point = .take → client.rxNotice < 65535) :
    client.rtSemRelease.Fits indicated := by
  unfold rtSemRelease
  split
  · refine fits_of_point fun call hcall => ?_
    obtain rfl := Option.some.inj hcall
    exact ⟨nofun, nofun⟩
  · rename_i hother
    intro call hcall
    refine ⟨fun hpoint _ => ?_, fun hpoint => ?_⟩
    · have hlt := hwrap call hcall hpoint
      show 0 < (client.rxNotice + 1) % 65536
      omega
    · obtain ⟨time, point⟩ := call
      obtain rfl : point = .waiting := hpoint
      exact absurd hcall (hother time)

end AtRxClient

namespace AtRxInv

theorem setClient (h : AtRxInv num s) {client : AtRxClient} (htable : client.call ≠ none → c < num)
    (hfits : client.Fits (s.indicated client.device)) : AtRxInv num (s.setClient c client) := by
  constructor
  · intro c' hcall
    by_cases hc : c' = c
    · rw [hc, AtRx.setClient_self] at hcall
      exact hc ▸ htable hcall
    · rw [AtRx.setClient_other hc] at hcall
      exact h.table c' hcall
  · intro c'
    by_cases hc : c' = c
    · rw [hc, AtRx.setClient_self]
      exact hfits
    · rw [AtRx.setClient_other hc]
      exact h.fits c'

theorem pop (h : AtRxInv num s) (dev : Nat) : AtRxInv num (s.pop dev) := by
  refine ⟨h.table, fun c => (h.fits c).mono ?_⟩
  show update s.indicated dev (s.indicated dev - 1) (s.client c).device ≤ _
  by_cases hdev : (s.client c).device = dev
  · rw [hdev, update_self]
    exact Nat.sub_le _ _
  · rw [update_of_ne hdev]

theorem atClientRxInd {dev size : Nat} (h : AtRxInv num s) (hok : IndicationNoticed num s (.indicate dev size)) :
    AtRxInv num (s.atClientRxInd num dev size) := by
  by_cases hsize : 0 < size
  · constructor
    · intro c hcall
      simp only [AtRx.atClientRxInd] at hcall
      split at hcall
      · rename_i hmatch
        exact hmatch.1
      · exact h.table c hcall
    · intro c
      simp only [AtRx.atClientRxInd, if_pos hsize]
      split
      · rename_i hmatch
        exact AtRxClient.rtSemRelease_fits (hok hsize c hmatch.1 hmatch.2.1)
      · rename_i hother
        by_cases hdev : (s.client c).device = dev
        · -- a client that is not in the table has no call
          refine AtRxClient.fits_of_point fun call hcall => absurd (h.table c ?_) fun hlt => hother ⟨hlt, hdev, hsize⟩
          exact hcall ▸ Option.some_ne_none call
        · rw [update_of_ne hdev]
          exact h.fits c
  · have hsame : s.atClientRxInd num dev size = s := by
      simp only [AtRx.atClientRxInd, hsize, and_false, if_false]
    rwa [hsame]

theorem getcharGo {call : GetcharCall} (h : AtRxInv num s) (hcall : (s.client c).call = some call)
    (hok : call.point = .reset → s.indicated (s.client c).device = 0) (hs : s.getcharGo c call.time call.point = some (s', events)) :
    AtRxInv num s' := by
  have hlt : c < num := h.table c (hcall ▸ Option.some_ne_none call)
  obtain ⟨time, point⟩ := call
  cases point with
  | read =>
    simp only [AtRx.getcharGo] at hs
    split at hs
    · cases hs
      exact (h.pop _).setClient (fun _ => hlt) (AtRxClient.fits_of_point nofun)
    · cases hs
      refine h.setClient (fun _ => hlt) (AtRxClient.fits_of_point fun call hcall => ?_)
      obtain rfl := Option.some.inj hcall
      exact ⟨nofun, nofun⟩
  | reset =>
    cases hs
    refine h.setClient (fun _ => hlt) fun call hcall => ?_
    obtain rfl := Option.some.inj hcall
    exact ⟨fun _ hpos => absurd hpos (hok rfl ▸ Nat.lt_irrefl 0), nofun⟩
  | take =>
    simp only [AtRx.getcharGo] at hs
    split at hs
    · cases hs
      refine h.setClient (fun _ => hlt) (AtRxClient.fits_of_point fun call hcall => ?_)
      obtain rfl := Option.some.inj hcall
      exact ⟨nofun, nofun⟩
    · rename_i hzero
      split at hs
      · cases hs
        exact h.setClient (fun _ => hlt) (AtRxClient.fits_of_point nofun)
      · obtain ⟨timer, -, heq⟩ := Option.map_eq_some_iff.mp hs
        obtain ⟨rfl, rfl⟩ := Prod.mk.inj heq
        refine h.setClient (fun _ => hlt) fun call hcall' => ?_
        obtain rfl := Option.some.inj hcall'
        refine ⟨nofun, fun _ => ?_⟩
        by_contra hindicated
        exact hzero (((h.fits c) _ hcall).1 rfl (Nat.pos_of_ne_zero hindicated))
  | waiting => cases hs

theorem step (h : AtRxInv num s) (hok : IndicationNoticed num s op) (hs : stepAtRx num tickPerSecond s op = some (s', events)) : AtRxInv num s' := by
  cases op with
  | arrive dev ch =>
    cases hs
    exact ⟨h.table, h.fits⟩
  | discard dev =>
    cases hs
    exact h.pop dev
  | indicate dev size =>
    cases hs
    exact h.atClientRxInd hok
  | getchar c timeout =>
    simp only [stepAtRx] at hs
    split at hs
    · rename_i hready
      cases hs
      refine h.setClient (fun _ => hready.1) (AtRxClient.fits_of_point fun call hcall => ?_)
      obtain rfl := Option.some.inj hcall
      exact ⟨nofun, nofun⟩
    · cases hs
  | go c =>
    obtain ⟨call, hcall, hgo⟩ := Option.bind_eq_some_iff.mp hs
    exact h.getcharGo hcall (hok call hcall) hgo
  | timeout c =>
    simp only [stepAtRx] at hs
    split at hs
    · rename_i time hcall
      split at hs
      · cases hs
        exact h.setClient (fun hnone => absurd rfl hnone) (AtRxClient.fits_of_point nofun)
      · cases hs
    · cases hs

end AtRxInv

theorem atRxInv_init (num : Nat) (device : Nat → Nat) : AtRxInv num (.init device) :=
  ⟨fun _ hcall => absurd rfl hcall, fun _ => AtRxClient.fits_of_point nofun⟩

/-- In every run without a reset under unread bytes that have been indicated, nobody is suspended with such bytes. -/
theorem getchar_of_run (num : Nat) (tickPerSecond : Int) (device : Nat → Nat) (trace : List AtRxEvent) (s : AtRx)
    (hrun : Run (stepAtRx num tickPerSecond) (IndicationNoticed num) (.init device) trace s) (c : Nat) : ¬ s.Forgets c := by
  have hinv : AtRxInv num s :=
    hrun.state_invariant (atRxInv_init num device) fun _ _ _ _ h hok hs => h.step hok hs
  rintro ⟨time, hcall, hpos⟩
  exact absurd ((hinv.fits c _ hcall).2 rfl) hpos.ne'

/-! ## What a reset forgets -/

def noticedByte : List AtRxOp := [.getchar 0 (-1), .go 0, .go 0, .arrive 7 65, .indicate 7 1, .go 0, .go 0]

def noticedEnd : List AtRxEvent × AtRx := (exec (stepAtRx 1 1000) (IndicationNoticed 1) (.init fun _ => 7) noticedByte).get (by decide)

theorem noticedEnd_eq : exec (stepAtRx 1 1000) (IndicationNoticed 1) (.init fun _ => 7) noticedByte = some noticedEnd :=
  (Option.some_get _).symm

theorem getchar_of_noticed : noticedEnd.1 = [.read 0 65] ∧ ¬ noticedEnd.2.Forgets 0 :=
  ⟨rfl, getchar_of_run 1 1000 (fun _ => 7) noticedEnd.1 noticedEnd.2
    (Run.start.exec noticedEnd_eq) 0⟩

/-- One that comes between the empty read and the reset is. -/
theorem getchar_fails : ∃ trace s, Run (stepAtRx 1 1000) (fun _ _ => True) (.init fun _ => 7) trace s ∧ s.Forgets 0 := by
  obtain ⟨trace, s, hrun, hfound⟩ := @exists_run_of_exec _ _ _ (stepAtRx 1 1000) (fun _ _ => True) (.init fun _ => 7) _
    [.getchar 0 (-1), .go 0, .arrive 7 65, .indicate 7 1, .go 0, .go 0]
    (fun _ s => decide ((s.client 0).call = some ⟨-1, .waiting⟩ ∧ 0 < s.indicated (s.client 0).device)) (by decide)
  have hwaiting := of_decide_eq_true hfound
  exact ⟨trace, s, hrun, -1, hwaiting⟩

end RtThread
