import RtThread.Lib.Traces
import RtThread.Lib.Transition

/-!
# The client of AT commands

`at_obj_exec_cmd`, the task `client_parser` and `at_resp_get_line` of `at_client.c`. A command is a sequence of steps, between which the task may parse bytes; the task takes one byte at a time, and what it does at the end of a line is one step with the last byte: nobody interrupts it there.

Each byte carries the number of commands that had been sent when it came. The table of URCs and the end sign stay as they are, and the function of a URC does nothing but receive.
-/

namespace RtThread

structure AtByte where
  ch : UInt8
  sent : Nat
  deriving DecidableEq

/-- `struct at_urc` -/
structure AtUrc where
  cmdPrefix : List UInt8
  cmdSuffix : List UInt8
  func : Bool
  deriving DecidableEq

/-- `enum at_resp_status` -/
inductive AtStatus
  | ok | error | timeout | buffFull
  deriving DecidableEq

/-- What `at_obj_exec_cmd` returns. -/
inductive AtResult
  | eok | etimeout | error
  deriving DecidableEq

/-- `struct at_response`; `buf_size` is the length of the buffer. -/
structure AtResp where
  buf : List UInt8
  lineNum : Nat
  lineCounts : Nat
  deriving DecidableEq

/-- Where `at_obj_exec_cmd` is. -/
inductive AtPoint
  /-- With the lock, and `client->resp` set. -/
  | send
  /-- Before `resp->line_counts = 0`. -/
  | clear
  | wait
  /-- `resp_notice` is taken. -/
  | check
  | exit (result : AtResult)
  deriving DecidableEq

structure AtCommand where
  point : AtPoint
  resp : Option AtResp
  deriving DecidableEq

inductive AtEvent
  | sent
  | line (l : List AtByte)
  | returned (result : AtResult) (resp : Option AtResp)
  deriving DecidableEq

/-- `struct at_client` with the locals of its task. -/
structure AtClient where
  recvBufsz : Nat
  endSign : UInt8
  urcTable : List AtUrc
  /-- What the device has received and the task has not read. -/
  rx : List AtByte
  recvBuffer : List AtByte
  lastCh : UInt8
  isFull : Bool
  /-- The task is in `urc->func`. -/
  inUrc : Bool
  respBufLen : Nat
  lineCounts : Nat
  /-- `client->resp` is the response of the command. -/
  respSet : Bool
  respStatus : AtStatus
  respNotice : Nat
  command : Option AtCommand
  sent : Nat
  deriving DecidableEq

def chars (l : List AtByte) : List UInt8 := l.map AtByte.ch

/-- A line as `at_resp_get_line` is to show it: its last character is overwritten. -/
def lineText (l : List AtByte) : List UInt8 := (chars l).dropLast

def lineData (l : List AtByte) : List UInt8 := lineText l ++ [0]

def atRespEndOk : List UInt8 := [0x4F, 0x4B]

def atRespEndError : List UInt8 := [0x45, 0x52, 0x52, 0x4F, 0x52]

def atRespEndFail : List UInt8 := [0x46, 0x41, 0x49, 0x4C]

def atString (buf : List UInt8) : List UInt8 := buf.takeWhile (· ≠ 0)

/-- `strstr` finds something. -/
def occursIn (pat str : List UInt8) : Bool := str.tails.any fun rest => pat.isPrefixOf rest

/-- `resp_buf += strlen(resp_buf) + 1` -/
def skipString (buf : List UInt8) : List UInt8 := (buf.dropWhile (· ≠ 0)).drop 1

def atRespGetLine (resp : AtResp) (respLine : Nat) : Option (List UInt8) :=
  if respLine > resp.lineCounts ∨ respLine = 0 then none else some (atString (skipString^[respLine - 1] resp.buf))

def checkResult (lineNum lineCounts : Nat) (data : List UInt8) : Option AtStatus :=
  if atRespEndOk.isPrefixOf data ∧ lineNum = 0 then some .ok
  else if occursIn atRespEndError (atString data) ∨ atRespEndFail.isPrefixOf data then some .error
  else if lineCounts = lineNum ∧ lineNum ≠ 0 then some .ok
  else none

namespace AtClient

def store (s : AtClient) (resp : AtResp) (l : List AtByte) : AtResp × AtClient :=
  if s.respBufLen + l.length < resp.buf.length then
    ({ resp with buf := resp.buf.take s.respBufLen ++ (lineData l ++ resp.buf.drop (s.respBufLen + l.length)) },
      { s with respBufLen := s.respBufLen + l.length, lineCounts := s.lineCounts + 1 })
  else (resp, { s with respStatus := .buffFull })

def finish (s : AtClient) (c : AtCommand) (resp : AtResp) (l : List AtByte) : AtClient :=
  match checkResult resp.lineNum s.lineCounts (lineData l) with
  | none => { s with command := some { c with resp := some resp } }
  | some status =>
    { s with
      command := some { c with resp := some { resp with lineCounts := s.lineCounts } }
      respStatus := status
      respSet := false
      respNotice := s.respNotice + 1
      respBufLen := 0
      lineCounts := 0 }

/-- `client_parser` with a complete line that is no URC. -/
def parseLine (s : AtClient) (l : List AtByte) : AtClient :=
  match s.respSet, s.command with
  | true, some ⟨point, some resp⟩ => (s.store resp l).2.finish ⟨point, some resp⟩ (s.store resp l).1 l
  | _, _ => s

/-- `get_urc_obj` for what has been received. -/
def getUrcObj (s : AtClient) (received : List AtByte) : Option AtUrc :=
  s.urcTable.find? fun urc =>
    decide (urc.cmdPrefix.length + urc.cmdSuffix.length ≤ received.length) && urc.cmdPrefix.isPrefixOf (chars received) &&
      urc.cmdSuffix.isSuffixOf (chars received)

/-- `recv_buffer` behind the next byte, if there is room. -/
def received (s : AtClient) (b : AtByte) : List AtByte :=
  if s.recvBuffer.length < s.recvBufsz then s.recvBuffer ++ [b] else s.recvBuffer

/-- The byte ends what `at_recv_readline` reads. -/
def EndsLine (s : AtClient) (b : AtByte) : Prop :=
  (b.ch = 0x0A ∧ s.lastCh = 0x0D) ∨ (s.endSign ≠ 0 ∧ b.ch = s.endSign) ∨ (s.getUrcObj (s.received b)).isSome = true

instance (s : AtClient) (b : AtByte) : Decidable (s.EndsLine b) := by
  unfold EndsLine
  infer_instance

/-- `at_recv_readline` begins again. -/
def newLine (s : AtClient) : AtClient := { s with recvBuffer := [], lastCh := 0, isFull := false }

/-- The next byte, for `at_recv_readline` and, at the end of a line, `client_parser`. -/
def parseByte (s : AtClient) (b : AtByte) : AtClient × List AtEvent :=
  if ¬s.EndsLine b then
    ({ s with recvBuffer := s.received b, lastCh := b.ch, isFull := s.isFull || decide (s.recvBufsz ≤ s.recvBuffer.length) }, [])
  else if s.isFull = true ∨ s.recvBufsz ≤ s.recvBuffer.length then (s.newLine, [])
  else
    match s.getUrcObj (s.received b) with
    | some urc => ({ s.newLine with inUrc := urc.func }, [])
    | none => (s.newLine.parseLine (s.received b), [.line (s.received b)])

def setPoint (s : AtClient) (c : AtCommand) (point : AtPoint) : AtClient := { s with command := some { c with point := point } }

/-- `at_obj_exec_cmd` goes on; a wait goes on when the notice has come. -/
def commandGo (s : AtClient) (c : AtCommand) : AtPoint → Option (AtClient × List AtEvent)
  | .send => some ({ s with sent := s.sent + 1 }.setPoint c (if c.resp = none then .exit .eok else .clear), [.sent])
  | .clear => some ({ s with command := some ⟨.wait, c.resp.map fun resp => { resp with lineCounts := 0 }⟩ }, [])
  | .wait => if s.respNotice = 0 then none else some ({ s with respNotice := s.respNotice - 1 }.setPoint c .check, [])
  | .check => some (s.setPoint c (.exit (if s.respStatus = .ok then .eok else .error)), [])
  | .exit result => some ({ s with respSet := false, command := none }, [.returned result c.resp])

end AtClient

inductive AtOp
  | arrive (ch : UInt8)
  | parse
  /-- `at_client_obj_recv` in the function of a URC reads a byte. -/
  | urcRecv
  | urcReturn
  /-- `at_obj_exec_cmd` with the lock. -/
  | exec (resp : Option AtResp)
  | go
  | timeout
  deriving DecidableEq

open AtClient in
def stepAt (s : AtClient) : AtOp → Option (AtClient × List AtEvent)
  | .arrive ch => some ({ s with rx := s.rx ++ [⟨ch, s.sent⟩] }, [])
  | .parse =>
    match s.inUrc, s.rx with
    | false, b :: rest => some ({ s with rx := rest }.parseByte b)
    | _, _ => none
  | .urcRecv =>
    match s.inUrc, s.rx with
    | true, _ :: rest => some ({ s with rx := rest }, [])
    | _, _ => none
  | .urcReturn => if s.inUrc = true then some ({ s with inUrc := false }, []) else none
  | .exec resp =>
    if s.command = none then
      some ({ s with respStatus := .ok, respSet := resp.isSome, command := some ⟨.send, resp⟩ }, [])
    else none
  | .go => s.command.bind fun c => s.commandGo c c.point
  | .timeout =>
    match s.command with
    | some c => if c.point = .wait ∧ s.respNotice = 0 then some ({ s with respStatus := .timeout }.setPoint c (.exit .etimeout), []) else none
    | none => none

def AtClient.init (recvBufsz : Nat) (endSign : UInt8) (urcTable : List AtUrc) : AtClient :=
  ⟨recvBufsz, endSign, urcTable, [], [], 0, false, false, 0, 0, false, .ok, 0, none, 0⟩

def AtRun (Ok : AtClient → AtOp → Prop) (recvBufsz : Nat) (endSign : UInt8) (urcTable : List AtUrc) :
    List AtEvent → AtClient → Prop :=
  Transition.Run stepAt Ok (.init recvBufsz endSign urcTable)

end RtThread
