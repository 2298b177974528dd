import RtThread.Lib.Transition

/-!
# The channels of the bus

`vbus.c`. A server listens in a session; the other side enables the channel of that name, the server answers with SET and the number of a free channel, and the client acknowledges it. A session slot is used again when its request has returned, and keeps the channel number it had.
-/

namespace RtThread

/-- `enum rt_vbus_chn_status` -/
inductive ChnStatus
  | available | closed | establishing | established | suspend | closing
  deriving DecidableEq

/-- `enum _vbus_session_st` -/
inductive SessSt
  | available | listening | establishing
  deriving DecidableEq

inductive Chn0Cmd
  | enable | disable | set | ack | nak | suspend | resume
  deriving DecidableEq

def Chn0Cmd.toByte : Chn0Cmd → UInt8
  | .enable => 0
  | .disable => 1
  | .set => 2
  | .ack => 3
  | .nak => 4
  | .suspend => 5
  | .resume => 6

def Chn0Cmd.ofByte (b : UInt8) : Option Chn0Cmd :=
  [.enable, .disable, .set, .ack, .nak, .suspend, .resume][b.toNat]?

/-- `struct rt_vbus_request`, with the name without the zero that ends it. -/
structure VbusRequest where
  name : List UInt8
  isServer : Bool
  deriving DecidableEq

/-- Where the thread of a request is in `rt_vbus_request_chn`. -/
inductive ReqCall
  /-- In `_chn0_post`, with ENABLE. -/
  | posting
  /-- Suspended in `rt_completion_wait`. -/
  | waiting
  /-- At the test of `err`. -/
  | ended (err : Int)
  deriving DecidableEq

/-- `struct rt_vbus_conn_session` -/
structure VbusSess where
  /-- "negative value means error" -/
  chnr : Int
  st : SessSt
  cmp : Bool
  req : Option VbusRequest
  call : Option ReqCall
  /-- The number of the request that has the slot. Nothing reads it. -/
  serial : Nat
  deriving DecidableEq

/-- Where the thread of `_bus_in_entry` is: it is suspended while its packet on channel 0 is sent. -/
inductive ActorCall
  | idle
  | enabling (i : Fin 16) (chnr : Nat)
  | setting (i : Fin 16) (chnr : Nat)
  | replying
  deriving DecidableEq

structure VbusTable where
  /-- `_chn_status`, and the memory around it. -/
  chnStatus : Int → ChnStatus
  sess : Fin 16 → VbusSess
  actor : ActorCall
  serials : Nat
  /-- The request for which a channel was last taken while it was available. Nothing reads it. -/
  takenBy : Int → Option Nat

inductive ChnEvent
  | access (chnr : Int)
  | post (data : List UInt8)
  /-- A packet goes to `rt_vbus_data_push`. -/
  | data (id : UInt8)
  /-- `rt_vbus_request_chn` returns. -/
  | returned (result : Int)
  deriving DecidableEq

def VbusSess.done (sess : VbusSess) : VbusSess :=
  if sess.cmp then sess
  else if sess.call = some .waiting then { sess with call := some (.ended 0) }
  else { sess with cmp := true }

namespace VbusTable

def setStatus (s : VbusTable) (chnr : Int) (st : ChnStatus) : VbusTable :=
  { s with chnStatus := Function.update s.chnStatus chnr st }

def setSess (s : VbusTable) (i : Fin 16) (f : VbusSess → VbusSess) : VbusTable :=
  { s with sess := Function.update s.sess i (f (s.sess i)) }

/-- For the record: the channel leaves AVAILABLE for the request that has slot `i`. -/
def take (s : VbusTable) (i : Fin 16) (chnr : Int) : VbusTable :=
  if s.chnStatus chnr = .available then { s with takenBy := Function.update s.takenBy chnr (some (s.sess i).serial) } else s

end VbusTable

def chnConnected (s : VbusTable) (chnr : Int) : Bool :=
  s.chnStatus chnr = .established ∨ s.chnStatus chnr = .suspend

def cString (bytes : List UInt8) : List UInt8 := bytes.takeWhile (· ≠ 0)

/-- `_sess_find`; a slot without a request stops the search, as its name cannot be read. -/
def sessFind (s : VbusTable) (name : List UInt8) (st : SessSt) : Option (Fin 16) :=
  (List.finRange 16).find? fun i => (s.sess i).st = st ∧ ((s.sess i).req.map VbusRequest.name).getD name = name

/-! ## `_chn0_actor`

`dp` is the memory from the packet on, of which `dsize` bytes are the packet. There is no next state where an assertion fails, a null request is read, or a negative number of bytes is copied. `malloc` is whether `rt_malloc` finds memory. -/

def chn0EchoWith (s : VbusTable) (first : Chn0Cmd) (dp : List UInt8) (dsize : Nat) (malloc : Bool) (call : ActorCall) :
    VbusTable × List ChnEvent :=
  if malloc then ({ s with actor := call }, [.post (first.toByte :: dp.take dsize)]) else (s, [])

def chn0Nak (s : VbusTable) (dp : List UInt8) (dsize : Nat) (malloc : Bool) : VbusTable × List ChnEvent :=
  chn0EchoWith s .nak dp dsize malloc .replying

def chn0Enable (s : VbusTable) (dp : List UInt8) (dsize : Nat) (malloc : Bool) : Option (VbusTable × List ChnEvent) :=
  match sessFind s (cString dp.tail) .listening with
  | none => some (chn0Nak s dp dsize malloc)
  | some i =>
    match (s.sess i).req with
    | none => none
    | some _ =>
      match (List.range 32).find? fun chnr : Nat => s.chnStatus chnr = .available with
      | none => some (chn0Nak s dp dsize malloc)
      | some chnr =>
        if malloc then
          if dsize = 0 ∨ chnr = 0 then none
          else
            some ({ s with actor := .enabling i chnr },
              [.access chnr, .post (Chn0Cmd.set.toByte :: (dp.tail.take (dsize - 1) ++ [UInt8.ofNat chnr]))])
        else some (s, [.access chnr])

def chn0Set (s : VbusTable) (dp : List UInt8) (dsize : Nat) (malloc : Bool) : Option (VbusTable × List ChnEvent) :=
  match sessFind s (cString dp.tail) .establishing with
  | none => some (s, [])
  | some i =>
    match (s.sess i).req with
    | none => none
    | some _ =>
      let chnr := (dp.getD (1 + (cString dp.tail).length + 1) 0).toNat
      if chnr = 0 ∨ 32 ≤ chnr then some (s, [])
      else if s.chnStatus chnr ≠ .available then
        some ((chn0Nak s dp dsize malloc).1, .access chnr :: (chn0Nak s dp dsize malloc).2)
      else
        let r := chn0EchoWith s .ack dp dsize malloc (.setting i chnr)
        some (r.1, .access chnr :: r.2)

def ackedSess (s : VbusTable) (dp : List UInt8) : Option (Fin 16) := sessFind s (cString (dp.drop 2)) .establishing

def ackedChnr (dp : List UInt8) : Nat := (dp.getD (1 + (cString (dp.drop 2)).length + 2) 0).toNat

def chn0Ack (s : VbusTable) (dp : List UInt8) : Option (VbusTable × List ChnEvent) :=
  match Chn0Cmd.ofByte (dp.getD 1 0) with
  | some .set =>
    match ackedSess s dp with
    | none => some (s, [])
    | some i =>
      match (s.sess i).req with
      | none => none
      | some _ =>
        some ((((s.take i (ackedChnr dp)).setSess i fun sess => { sess with chnr := ackedChnr dp }).setStatus (ackedChnr dp)
          .established).setSess i VbusSess.done, [.access (ackedChnr dp)])
  | some .disable =>
    let chnr := (dp.getD 2 0).toNat
    if chnr = 0 ∨ 32 ≤ chnr then some (s, []) else some (s.setStatus chnr .available, [.access chnr])
  | _ => some (s, [])

def chn0Disable (s : VbusTable) (dp : List UInt8) (dsize : Nat) (malloc : Bool) : VbusTable × List ChnEvent :=
  let chnr := (dp.getD 1 0).toNat
  if chnr = 0 ∨ 32 ≤ chnr then (s, [])
  else
    let r := chn0EchoWith (s.setStatus chnr .closing) .ack dp dsize malloc .replying
    (r.1, .access chnr :: r.2)

def chn0Flow (s : VbusTable) (dp : List UInt8) (before after : ChnStatus) : VbusTable × List ChnEvent :=
  let chnr := (dp.getD 1 0).toNat
  if chnr = 0 ∨ 32 ≤ chnr then (s, [])
  else if s.chnStatus chnr ≠ before then (s, [.access chnr])
  else (s.setStatus chnr after, [.access chnr])

def chn0Suspend (s : VbusTable) (dp : List UInt8) : VbusTable × List ChnEvent := chn0Flow s dp .established .suspend

def chn0Resume (s : VbusTable) (dp : List UInt8) : VbusTable × List ChnEvent := chn0Flow s dp .suspend .established

/-- NAK for ENABLE leaves `-RT_EIO` in the session; for the other commands it does nothing. -/
def chn0NakActor (s : VbusTable) (dp : List UInt8) : Option (VbusTable × List ChnEvent) :=
  match Chn0Cmd.ofByte (dp.getD 1 0) with
  | some .enable =>
    match sessFind s (cString (dp.drop 2)) .establishing with
    | none => some (s, [])
    | some i =>
      match (s.sess i).req with
      | none => none
      | some _ => some (s.setSess i fun sess => { sess with chnr := -8 }.done, [])
  | _ => some (s, [])

def chn0Actor (s : VbusTable) (dp : List UInt8) (dsize : Nat) (malloc : Bool) : Option (VbusTable × List ChnEvent) :=
  match Chn0Cmd.ofByte (dp.getD 0 0) with
  | some .enable => chn0Enable s dp dsize malloc
  | some .set => chn0Set s dp dsize malloc
  | some .ack => chn0Ack s dp
  | some .disable => some (chn0Disable s dp dsize malloc)
  | some .suspend => some (chn0Suspend s dp)
  | some .resume => some (chn0Resume s dp)
  | some .nak => chn0NakActor s dp
  | none => some (s, [])

/-- What `_chn0_actor` does when `_chn0_post` has returned `err`. -/
def chn0Replied (s : VbusTable) (err : Int) : Option (VbusTable × List ChnEvent) :=
  let idle : VbusTable := { s with actor := .idle }
  match s.actor with
  | .idle => none
  | .replying => some (idle, [])
  | .enabling i chnr =>
    if err = 0 then
      some ((((idle.take i chnr).setSess i fun sess => { sess with st := .establishing, chnr }).setStatus chnr
        .establishing), [.access chnr])
    else some (idle, [])
  | .setting i chnr =>
    if 0 ≤ err then
      some ((((idle.take i chnr).setSess i fun sess => { sess with chnr }).setStatus chnr .established).setSess i
        VbusSess.done, [.access chnr])
    else some (idle, [])

/-- `_bus_in_entry` with one packet, up to the place where its data is copied. -/
def busInEntry (s : VbusTable) (id : UInt8) (dp : List UInt8) (dsize : Nat) (malloc : Bool) :
    Option (VbusTable × List ChnEvent) :=
  if 32 < id then some (s, [])
  else if chnConnected s id.toNat = false then some (s, [.access id.toNat])
  else if id = 0 then
    if 60 < dsize then some (s, [.access id.toNat])
    else (chn0Actor s dp dsize malloc).map fun r => (r.1, .access id.toNat :: r.2)
  else if malloc then some (s, [.access id.toNat, .data id])
  else some (s, [.access id.toNat])

/-! ## Requests -/

/-- `rt_vbus_request_chn` up to its first wait. -/
def rtVbusRequestChn (s : VbusTable) (req : VbusRequest) (malloc : Bool) : VbusTable × List ChnEvent :=
  match (List.finRange 16).find? fun i => (s.sess i).st = .available with
  | none => (s, [.returned (-1)])
  | some i =>
    let s : VbusTable := { s.setSess i fun sess => { sess with cmp := false, req := some req, serial := s.serials } with
      serials := s.serials + 1 }
    if req.isServer then (s.setSess i fun sess => { sess with st := .listening, call := some .waiting }, [])
    else if malloc then
      (s.setSess i fun sess => { sess with st := .establishing, call := some .posting },
        [.post (Chn0Cmd.enable.toByte :: (req.name ++ [0]))])
    else (s, [.returned (-5)])

/-- `_chn0_post` has returned `err` to the request in slot `i`. -/
def requestPosted (s : VbusTable) (i : Fin 16) (err : Int) : Option (VbusTable × List ChnEvent) :=
  if (s.sess i).call = some .posting then
    some (s.setSess i fun sess =>
      if err = 0 then
        if sess.cmp then { sess with cmp := false, call := some (.ended 0) } else { sess with call := some .waiting }
      else { sess with call := some (.ended err) }, [])
  else none

/-- The wait of the request in slot `i` times out: `-RT_ETIMEOUT`. -/
def requestTimeout (s : VbusTable) (i : Fin 16) : Option (VbusTable × List ChnEvent) :=
  if (s.sess i).call = some .waiting then
    some (s.setSess i fun sess => { sess with call := some (.ended (-2)) }, [])
  else none

/-- The request in slot `i` has failed in the middle of its handshake. -/
def VbusSess.failed (sess : VbusSess) : Bool :=
  match sess.call with
  | some (.ended err) => err ≠ 0 ∧ sess.st = .establishing
  | _ => false

/-- The end of `rt_vbus_request_chn`, from the test of `err` on. -/
def requestFinish (s : VbusTable) (i : Fin 16) : Option (VbusTable × List ChnEvent) :=
  let detach (s : VbusTable) := s.setSess i fun sess => { sess with st := .available, req := none, call := none }
  match (s.sess i).call with
  | some (.ended err) =>
    if err ≠ 0 then
      if (s.sess i).st = .establishing then
        -- "cleanup the mass when the wait is time out but we have done some job"
        some (detach (s.setStatus (s.sess i).chnr .available), [.access (s.sess i).chnr, .returned err])
      else some (detach s, [.returned err])
    else if (s.sess i).chnr = 0 then none
    else some (detach s, [.returned (s.sess i).chnr])
  | _ => none

/-- `rt_vbus_close_chn` up to its wait for the acknowledgement. -/
def rtVbusCloseChn (s : VbusTable) (chnr : UInt8) : Option (VbusTable × List ChnEvent) :=
  if 0 < chnr ∧ chnr < 32 then
    if s.chnStatus chnr.toNat = .closed ∨ s.chnStatus chnr.toNat = .closing then
      some (s.setStatus chnr.toNat .available, [.access chnr.toNat])
    else if chnConnected s chnr.toNat = false then some (s, [.access chnr.toNat])
    else some (s.setStatus chnr.toNat .closing, [.access chnr.toNat, .post [Chn0Cmd.disable.toByte, chnr]])
  else none

/-! ## The channel table as a state machine -/

inductive ChnOp
  | request (req : VbusRequest) (malloc : Bool)
  | posted (i : Fin 16) (err : Int)
  | timeout (i : Fin 16)
  | finish (i : Fin 16)
  | close (chnr : UInt8)
  | receive (id : UInt8) (dp : List UInt8) (dsize : Nat) (malloc : Bool)
  | replied (err : Int)
  deriving DecidableEq

def stepChn (s : VbusTable) : ChnOp → Option (VbusTable × List ChnEvent)
  | .request req malloc => some (rtVbusRequestChn s req malloc)
  | .posted i err => requestPosted s i err
  | .timeout i => requestTimeout s i
  | .finish i => requestFinish s i
  | .close chnr => rtVbusCloseChn s chnr
  | .receive id dp dsize malloc => if s.actor = .idle then busInEntry s id dp dsize malloc else none
  | .replied err => chn0Replied s err

/-- `rt_vbus_init`, with any memory around the table of the channels. -/
def VbusTable.init (mem : Int → ChnStatus) : VbusTable where
  chnStatus chnr := if chnr = 0 then .established else if 0 < chnr ∧ chnr < 32 then .available else mem chnr
  sess _ := ⟨0, .available, false, none, none, 0⟩
  actor := .idle
  serials := 0
  takenBy _ := none

end RtThread
