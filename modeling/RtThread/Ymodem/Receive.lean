import RtThread.Lib.Traces

/-!
# Receiving by ymodem

`ymodem.c`, from the handshake to the end of a session. The device shows the bytes of the sender and the pauses in which a wait times out. The callbacks may go by everything that has happened before.

The sequence number of a packet is compared with its complement and with nothing else.
-/

namespace RtThread

def ccittTable : List (BitVec 16) :=
  [
    0x0000, 0x1021, 0x2042, 0x3063, 0x4084, 0x50A5, 0x60C6, 0x70E7, 0x8108, 0x9129, 0xA14A, 0xB16B, 0xC18C, 0xD1AD, 0xE1CE, 0xF1EF,
    0x1231, 0x0210, 0x3273, 0x2252, 0x52B5, 0x4294, 0x72F7, 0x62D6, 0x9339, 0x8318, 0xB37B, 0xA35A, 0xD3BD, 0xC39C, 0xF3FF, 0xE3DE,
    0x2462, 0x3443, 0x0420, 0x1401, 0x64E6, 0x74C7, 0x44A4, 0x5485, 0xA56A, 0xB54B, 0x8528, 0x9509, 0xE5EE, 0xF5CF, 0xC5AC, 0xD58D,
    0x3653, 0x2672, 0x1611, 0x0630, 0x76D7, 0x66F6, 0x5695, 0x46B4, 0xB75B, 0xA77A, 0x9719, 0x8738, 0xF7DF, 0xE7FE, 0xD79D, 0xC7BC,
    0x48C4, 0x58E5, 0x6886, 0x78A7, 0x0840, 0x1861, 0x2802, 0x3823, 0xC9CC, 0xD9ED, 0xE98E, 0xF9AF, 0x8948, 0x9969, 0xA90A, 0xB92B,
    0x5AF5, 0x4AD4, 0x7AB7, 0x6A96, 0x1A71, 0x0A50, 0x3A33, 0x2A12, 0xDBFD, 0xCBDC, 0xFBBF, 0xEB9E, 0x9B79, 0x8B58, 0xBB3B, 0xAB1A,
    0x6CA6, 0x7C87, 0x4CE4, 0x5CC5, 0x2C22, 0x3C03, 0x0C60, 0x1C41, 0xEDAE, 0xFD8F, 0xCDEC, 0xDDCD, 0xAD2A, 0xBD0B, 0x8D68, 0x9D49,
    0x7E97, 0x6EB6, 0x5ED5, 0x4EF4, 0x3E13, 0x2E32, 0x1E51, 0x0E70, 0xFF9F, 0xEFBE, 0xDFDD, 0xCFFC, 0xBF1B, 0xAF3A, 0x9F59, 0x8F78,
    0x9188, 0x81A9, 0xB1CA, 0xA1EB, 0xD10C, 0xC12D, 0xF14E, 0xE16F, 0x1080, 0x00A1, 0x30C2, 0x20E3, 0x5004, 0x4025, 0x7046, 0x6067,
    0x83B9, 0x9398, 0xA3FB, 0xB3DA, 0xC33D, 0xD31C, 0xE37F, 0xF35E, 0x02B1, 0x1290, 0x22F3, 0x32D2, 0x4235, 0x5214, 0x6277, 0x7256,
    0xB5EA, 0xA5CB, 0x95A8, 0x8589, 0xF56E, 0xE54F, 0xD52C, 0xC50D, 0x34E2, 0x24C3, 0x14A0, 0x0481, 0x7466, 0x6447, 0x5424, 0x4405,
    0xA7DB, 0xB7FA, 0x8799, 0x97B8, 0xE75F, 0xF77E, 0xC71D, 0xD73C, 0x26D3, 0x36F2, 0x0691, 0x16B0, 0x6657, 0x7676, 0x4615, 0x5634,
    0xD94C, 0xC96D, 0xF90E, 0xE92F, 0x99C8, 0x89E9, 0xB98A, 0xA9AB, 0x5844, 0x4865, 0x7806, 0x6827, 0x18C0, 0x08E1, 0x3882, 0x28A3,
    0xCB7D, 0xDB5C, 0xEB3F, 0xFB1E, 0x8BF9, 0x9BD8, 0xABBB, 0xBB9A, 0x4A75, 0x5A54, 0x6A37, 0x7A16, 0x0AF1, 0x1AD0, 0x2AB3, 0x3A92,
    0xFD2E, 0xED0F, 0xDD6C, 0xCD4D, 0xBDAA, 0xAD8B, 0x9DE8, 0x8DC9, 0x7C26, 0x6C07, 0x5C64, 0x4C45, 0x3CA2, 0x2C83, 0x1CE0, 0x0CC1,
    0xEF1F, 0xFF3E, 0xCF5D, 0xDF7C, 0xAF9B, 0xBFBA, 0x8FD9, 0x9FF8, 0x6E17, 0x7E36, 0x4E55, 0x5E74, 0x2E93, 0x3EB2, 0x0ED1, 0x1EF0]

def crc16 (q : List UInt8) : BitVec 16 :=
  q.foldl (fun crc c => crc <<< 8 ^^^ ccittTable.getD ((crc >>> 8).toNat ^^^ c.toNat) 0) 0

/-- `enum rym_code` -/
def rymSoh : UInt8 := 0x01

def rymStx : UInt8 := 0x02

def rymEot : UInt8 := 0x04

def rymAck : UInt8 := 0x06

def rymNak : UInt8 := 0x15

def rymCan : UInt8 := 0x18

def rymC : UInt8 := 0x43

def rymNone : UInt8 := 0x00

/-- `RYM_ERR_*`, and `RT_ENOMEM`. -/
inductive RymErr
  | tmo | code | seq | crc | dsz | can | enomem
  deriving DecidableEq

inductive RymStage
  | none | establishing | established | transmitting | finishing | finished
  deriving DecidableEq

inductive RymEvent
  | put (code : UInt8)
  | onBegin (data : List UInt8)
  | onData (data : List UInt8)
  | onEnd (data : List UInt8)
  deriving DecidableEq

structure RymCallbacks where
  onBegin : Option (List RymEvent → List UInt8 → UInt8)
  onData : Option (List RymEvent → List UInt8 → UInt8)
  onEnd : Bool

/-- `struct rym_ctx`, with what the device is going to show: a byte, or a pause. -/
structure RymCtx where
  stage : RymStage
  buf : List UInt8
  input : List (Option UInt8)
  trace : List RymEvent

namespace RymCtx

def putchar (s : RymCtx) (code : UInt8) : RymCtx := { s with trace := s.trace ++ [.put code] }

def byte (s : RymCtx) (i : Nat) : UInt8 := s.buf.getD i 0

/-- `ctx->buf+3` with this length. -/
def data (s : RymCtx) (len : Nat) : List UInt8 := (s.buf.drop 3).take len

/-- The CRC that stands at `i`. -/
def recvCrc (s : RymCtx) (i : Nat) : BitVec 16 := BitVec.ofNat 16 ((s.byte i).toNat * 256 + (s.byte (i + 1)).toNat)

end RymCtx

def rymReadCode (s : RymCtx) : UInt8 × RymCtx :=
  match s.input with
  | [] => (rymNone, s)
  | none :: rest => (rymNone, { s with input := rest })
  | some b :: rest => (b, { s with buf := b :: s.buf.drop 1, input := rest })

/-- Bytes up to `n`, or up to a pause. -/
def rymReadBytes : Nat → List (Option UInt8) → List UInt8 × List (Option UInt8)
  | 0, input => ([], input)
  | _ + 1, [] => ([], [])
  | _ + 1, none :: rest => ([], rest)
  | n + 1, some b :: rest => (b :: (rymReadBytes n rest).1, (rymReadBytes n rest).2)

def rymReadData (s : RymCtx) (len : Nat) : Nat × RymCtx :=
  let (bytes, input) := rymReadBytes len s.input
  (bytes.length, { s with buf := s.buf.take 1 ++ (bytes ++ s.buf.drop (1 + bytes.length)), input := input })

/-- The loop of `_rym_do_handshake`, with the size of the packet that starts. -/
def handshakeLoop : Nat → RymCtx → Option Nat × RymCtx
  | 0, s => (none, s)
  | n + 1, s =>
    let (code, s) := rymReadCode (s.putchar rymC)
    if code = rymSoh then (some 133, s) else if code = rymStx then (some 1029, s) else handshakeLoop n s

def rymDoHandshake (cb : RymCallbacks) (s : RymCtx) (tmSec : Nat) : Option RymErr × RymCtx :=
  match handshakeLoop tmSec { s with stage := .establishing } with
  | (none, s) => (some .tmo, s)
  | (some dataSz, s) =>
    let (i, s) := rymReadData s (dataSz - 1)
    if i ≠ dataSz - 1 then (some .dsz, s)
    else if s.byte 1 ≠ 0 ∨ s.byte 2 ≠ 0xFF then (some .seq, s)
    else if s.recvCrc (dataSz - 2) ≠ crc16 (s.data (dataSz - 5)) then (some .crc, s)
    else
      match cb.onBegin with
      | none => (none, s)
      | some onBegin =>
        (if onBegin s.trace (s.data (dataSz - 5)) ≠ rymAck then some .can else none,
          { s with trace := s.trace ++ [.onBegin (s.data (dataSz - 5))] })

/-- `_rym_trans_data`, with `*code`. -/
def rymTransData (cb : RymCallbacks) (s : RymCtx) (dataSz : Nat) (code : UInt8) : Option RymErr × UInt8 × RymCtx :=
  let tsz := 2 + dataSz + 2
  let (i, s) := rymReadData s tsz
  if i ≠ tsz then (some .dsz, code, s)
  else if (s.byte 1).toNat + (s.byte 2).toNat ≠ 0xFF then (some .seq, code, s)
  -- a handshake packet that the sender has sent again
  else if s.stage = .established ∧ s.byte 1 = 0 then (none, rymNone, s)
  else
    let s := { s with stage := .transmitting }
    if s.recvCrc (tsz - 1) ≠ crc16 (s.data dataSz) then (some .crc, code, s)
    else
      match cb.onData with
      | none => (none, rymAck, s)
      | some onData => (none, onData s.trace (s.data dataSz), { s with trace := s.trace ++ [.onData (s.data dataSz)] })

/-- The loop of `_rym_do_trans`. -/
def transLoop (cb : RymCallbacks) : Nat → RymCtx → Option (Option RymErr × RymCtx)
  | 0, _ => none
  | fuel + 1, s =>
    let (code, s) := rymReadCode s
    if code = rymEot then some (none, s)
    else if code ≠ rymSoh ∧ code ≠ rymStx then some (some .code, s)
    else
      match rymTransData cb s (if code = rymSoh then 128 else 1024) code with
      | (some err, _, s) => some (some err, s)
      | (none, code, s) =>
        if code = rymCan then some (some .can, { s with trace := s.trace ++ List.replicate 7 (.put rymCan) })
        else transLoop cb fuel (if code = rymAck then s.putchar rymAck else s)

def rymDoTrans (cb : RymCallbacks) (s : RymCtx) : Option (Option RymErr × RymCtx) :=
  let s := { (s.putchar rymAck).putchar rymC with stage := .established }
  transLoop cb (s.input.length + 1) s

def rymDoFin (cb : RymCallbacks) (s : RymCtx) : Option RymErr × RymCtx :=
  let s := { s with stage := .finishing }
  let s := if cb.onEnd then { s with trace := s.trace ++ [.onEnd (s.data 128)] } else s
  let (code, s) := rymReadCode (s.putchar rymNak)
  if code ≠ rymEot then (some .code, s)
  else
    let (code, s) := rymReadCode ((s.putchar rymAck).putchar rymC)
    if code ≠ rymSoh then (some .code, s)
    else
      let (i, s) := rymReadData s 132
      if i ≠ 132 then (some .dsz, s)
      else if s.byte 1 ≠ 0 ∨ s.byte 2 ≠ 0xFF then (some .seq, s)
      else if s.recvCrc 131 ≠ crc16 (s.data 128) then (some .crc, s)
      else (none, { s with stage := .finished }.putchar rymAck)

/-- `_rym_do_recv`; `buf` is what `rt_malloc` returns. -/
def rymDoRecv (cb : RymCallbacks) (buf : Option (List UInt8)) (input : List (Option UInt8)) (tmSec : Nat) :
    Option (Option RymErr × RymCtx) :=
  match buf with
  | none => some (some .enomem, ⟨.none, [], input, []⟩)
  | some buf =>
    match rymDoHandshake cb ⟨.none, buf, input, []⟩ tmSec with
    | (some err, s) => some (some err, s)
    | (none, s) =>
      (rymDoTrans cb s).map fun
        | (some err, s) => (some err, s)
        | (none, s) => rymDoFin cb s

/-! ## Packets on the wire -/

structure RymPacket where
  code : UInt8
  seq : UInt8
  cpl : UInt8
  payload : List UInt8
  hi : UInt8
  lo : UInt8
  deriving DecidableEq

namespace RymPacket

def bytes (p : RymPacket) : List UInt8 := p.code :: p.seq :: p.cpl :: (p.payload ++ [p.hi, p.lo])

def symbols (p : RymPacket) : List (Option UInt8) := p.bytes.map some

def Framed (p : RymPacket) : Prop :=
  p.code = rymSoh ∧ p.payload.length = 128 ∨ p.code = rymStx ∧ p.payload.length = 1024

def Numbered (p : RymPacket) : Prop := p.seq.toNat + p.cpl.toNat = 0xFF

def Checked (p : RymPacket) : Prop := BitVec.ofNat 16 (p.hi.toNat * 256 + p.lo.toNat) = crc16 p.payload

def ofBlock (seq : UInt8) (payload : List UInt8) : RymPacket :=
  ⟨if payload.length = 128 then rymSoh else rymStx, seq, 0xFF - seq, payload, UInt8.ofNat ((crc16 payload).toNat / 256),
    UInt8.ofNat (crc16 payload).toNat⟩

end RymPacket

/-- The payloads that `on_data` has been given. -/
def dataCalls (trace : List RymEvent) : List (List UInt8) :=
  trace.filterMap fun
    | .onData data => some data
    | _ => none

def rymDelivered (stage : RymStage) (packets : List RymPacket) : List RymPacket :=
  if stage = .established then packets.dropWhile (fun p => p.seq = 0) else packets

/-- Why no further packet is taken, with what the device shows from there on. -/
inductive TransStop (onData : List RymEvent → List UInt8 → UInt8) (stage : RymStage) :
    List RymPacket → List (Option UInt8) → Option RymErr → Prop
  | eot {packets rest} : TransStop onData stage packets (some rymEot :: rest) none
  | code {packets rest} (hcode : ∀ code ∈ [rymSoh, rymStx, rymEot], rest.head? ≠ some (some code)) :
      TransStop onData stage packets rest (some .code)
  | short {packets rest code} {bytes : List UInt8} (hshort : bytes.length < if code = rymSoh then 132 else 1028)
      (hrest : rest = [] ∨ rest.head? = some none) :
      TransStop onData stage packets (some code :: (bytes.map some ++ rest)) (some .dsz)
  | seq {packets rest} {p : RymPacket} (hframed : p.Framed) (hseq : ¬p.Numbered) :
      TransStop onData stage packets (p.symbols ++ rest) (some .seq)
  | crc {packets rest} {p : RymPacket} (hframed : p.Framed) (hcrc : ¬p.Checked) (hlast : p ∈ rymDelivered stage (packets ++ [p])) :
      TransStop onData stage packets (p.symbols ++ rest) (some .crc)
  | cancelled {packets rest trace} {p : RymPacket} (hlast : p ∈ rymDelivered stage (packets ++ [p]))
      (hcan : onData trace p.payload = rymCan) : TransStop onData stage (packets ++ [p]) rest (some .can)

/-! ## Reading -/

variable {onData : List RymEvent → List UInt8 → UInt8} {s : RymCtx} {n : Nat} {input : List (Option UInt8)} {trace events : List RymEvent}
  {stage : RymStage} {p : RymPacket} {packets : List RymPacket}

theorem dataCalls_append : dataCalls (trace ++ events) = dataCalls trace ++ dataCalls events :=
  List.filterMap_append

theorem rymReadBytes_eq :
    (rymReadBytes n input).1.length = n ∧ input = (rymReadBytes n input).1.map some ++ (rymReadBytes n input).2 ∨
      (rymReadBytes n input).1.length < n ∧
        ∃ rest, input = (rymReadBytes n input).1.map some ++ rest ∧ (rest = [] ∨ rest.head? = some none) := by
  induction n generalizing input with
  | zero => exact .inl ⟨rfl, rfl⟩
  | succ n ih =>
    rcases input with _ | ⟨_ | b, rest⟩
    · exact .inr ⟨Nat.succ_pos n, [], rfl, .inl rfl⟩
    · exact .inr ⟨Nat.succ_pos n, none :: rest, rfl, .inr rfl⟩
    · rcases @ih rest with ⟨hlen, heq⟩ | ⟨hlen, rest', heq, hrest⟩
      · exact .inl ⟨congrArg Nat.succ hlen, congrArg (some b :: ·) heq⟩
      · exact .inr ⟨Nat.succ_lt_succ hlen, rest', congrArg (some b :: ·) heq, hrest⟩

theorem rymReadCode_eq {code : UInt8} (hcode : (rymReadCode s).1 = code) (hne : code ≠ rymNone) :
    ∃ rest tl, s.input = some code :: rest ∧ (rymReadCode s).2 = { s with buf := code :: tl, input := rest } := by
  rw [rymReadCode] at hcode ⊢
  rcases hinput : s.input with _ | ⟨_ | b, rest⟩ <;> rw [hinput] at hcode <;> dsimp only at hcode ⊢
  · exact absurd hcode.symm hne
  · exact absurd hcode.symm hne
  · subst hcode
    exact ⟨rest, s.buf.drop 1, rfl, rfl⟩

theorem rymReadCode_ne {codes : List UInt8} (hcode : (rymReadCode s).1 ∉ codes) :
    ∀ code ∈ codes, s.input.head? ≠ some (some code) := by
  intro code hmem hhead
  apply hcode
  rcases hinput : s.input with _ | ⟨_ | b, rest⟩ <;> rw [hinput] at hhead <;> cases hhead
  rw [rymReadCode, hinput]
  exact hmem

theorem rymReadCode_frame :
    (rymReadCode s).2.trace = s.trace ∧ (rymReadCode s).2.stage = s.stage ∧ (rymReadCode s).2.input = s.input.drop 1 := by
  rcases hinput : s.input with _ | ⟨_ | b, rest⟩ <;> rw [rymReadCode, hinput]
  · exact ⟨rfl, rfl, hinput⟩
  · exact ⟨rfl, rfl, rfl⟩
  · exact ⟨rfl, rfl, rfl⟩

theorem exists_packet (code : UInt8) {bytes : List UInt8} {dataSz : Nat} (hlen : bytes.length = 2 + dataSz + 2) :
    ∃ p : RymPacket, p.code = code ∧ p.payload.length = dataSz ∧ p.bytes = code :: bytes := by
  obtain ⟨seq, bytes, rfl⟩ := List.exists_cons_of_length_eq_add_one (n := dataSz + 3) (hlen.trans (by omega))
  obtain ⟨cpl, bytes, rfl⟩ := List.exists_cons_of_length_eq_add_one (n := dataSz + 2) (Nat.succ.inj hlen |>.trans (by omega))
  have hrest : (bytes.drop dataSz).length = 2 := by
    rw [List.length_drop]
    rw [List.length_cons, List.length_cons] at hlen
    omega
  obtain ⟨hi, lo, htail⟩ := List.length_eq_two.1 hrest
  refine ⟨⟨code, seq, cpl, bytes.take dataSz, hi, lo⟩, rfl, ?_, ?_⟩
  · rw [List.length_cons, List.length_cons] at hlen
    rw [List.length_take]
    omega
  · rw [RymPacket.bytes, ← htail, List.take_append_drop]

theorem RymCtx.of_buf {tl : List UInt8} (hbuf : s.buf = p.bytes ++ tl) :
    s.byte 1 = p.seq ∧ s.byte 2 = p.cpl ∧ s.data p.payload.length = p.payload ∧
      s.recvCrc (2 + p.payload.length + 2 - 1) = BitVec.ofNat 16 (p.hi.toNat * 256 + p.lo.toNat) := by
  have hbyte : ∀ i, s.byte (i + 3) = (p.payload ++ [p.hi, p.lo] ++ tl).getD i 0 := by
    intro i
    rw [RymCtx.byte, hbuf]
    rfl
  have htl : p.payload ++ [p.hi, p.lo] ++ tl = p.payload ++ (p.hi :: p.lo :: tl) := List.append_assoc _ _ _
  refine ⟨?_, ?_, ?_, ?_⟩
  · rw [RymCtx.byte, hbuf]
    rfl
  · rw [RymCtx.byte, hbuf]
    rfl
  · rw [RymCtx.data, hbuf]
    exact (congrArg (List.take _) htl).trans List.take_left
  · have hhi : s.byte (2 + p.payload.length + 2 - 1) = p.hi := by
      have hindex : 2 + p.payload.length + 2 - 1 = p.payload.length + 3 := by omega
      rw [hindex, hbyte, htl, List.getD_eq_getElem?_getD, List.getElem?_append_right (Nat.le_refl _), Nat.sub_self]
      rfl
    have hlo : s.byte (2 + p.payload.length + 2 - 1 + 1) = p.lo := by
      have hindex : 2 + p.payload.length + 2 - 1 + 1 = (p.payload.length + 1) + 3 := by omega
      rw [hindex, hbyte, htl, List.getD_eq_getElem?_getD, List.getElem?_append_right (Nat.le_succ _),
        Nat.succ_sub (Nat.le_refl _), Nat.sub_self]
      rfl
    rw [RymCtx.recvCrc, hhi, hlo]

theorem rymReadData_eq {code : UInt8} {tl : List UInt8} {dataSz : Nat} (hbuf : s.buf = code :: tl) :
    (∃ p : RymPacket, ∃ rest tl', p.code = code ∧ p.payload.length = dataSz ∧ some code :: s.input = p.symbols ++ rest ∧
        rymReadData s (2 + dataSz + 2) = (2 + dataSz + 2, { s with buf := p.bytes ++ tl', input := rest })) ∨
      ∃ (bytes : List UInt8) (rest : List (Option UInt8)), bytes.length < 2 + dataSz + 2 ∧ s.input = bytes.map some ++ rest ∧
        (rest = [] ∨ rest.head? = some none) ∧ (rymReadData s (2 + dataSz + 2)).1 = bytes.length ∧
          (rymReadData s (2 + dataSz + 2)).2.trace = s.trace := by
  rcases @rymReadBytes_eq (2 + dataSz + 2) s.input with ⟨hlen, heq⟩ | ⟨hlen, rest, heq, hrest⟩
  · obtain ⟨p, hcode, hpayload, hbytes⟩ := exists_packet code hlen
    refine .inl ⟨p, (rymReadBytes (2 + dataSz + 2) s.input).2, s.buf.drop (1 + (2 + dataSz + 2)), hcode, hpayload, ?_, ?_⟩
    · rw [RymPacket.symbols, hbytes]
      exact congrArg (some code :: ·) heq
    · have hhead : s.buf.take 1 = [code] := by
        rw [hbuf]
        rfl
      rw [rymReadData, hbytes]
      dsimp only
      rw [hlen, hhead]
      rfl
  · exact .inr ⟨_, rest, hlen, heq, hrest, rfl, rfl⟩

/-! ## The packets of a transfer -/

theorem rymDelivered_skip (hseq : p.seq = 0) : rymDelivered .established (p :: packets) = rymDelivered .established packets := by
  have hzero : decide (p.seq = 0) = true := decide_eq_true hseq
  rw [rymDelivered, rymDelivered, if_pos rfl, if_pos rfl, List.dropWhile_cons, if_pos hzero]

theorem rymDelivered_take (hseq : stage = .established → p.seq ≠ 0) : rymDelivered stage (p :: packets) = p :: packets := by
  rw [rymDelivered]
  split_ifs with hstage
  · exact List.dropWhile_cons_of_neg (by simpa using hseq hstage)
  · rfl

theorem rymDelivered_transmitting : rymDelivered .transmitting packets = packets :=
  if_neg RymStage.noConfusion

theorem TransStop.skip {rest : List (Option UInt8)} {err : Option RymErr} (hseq : p.seq = 0)
    (hstop : TransStop onData .established packets rest err) : TransStop onData .established (p :: packets) rest err := by
  cases hstop with
  | eot => exact .eot
  | code hcode => exact .code hcode
  | short hshort hrest => exact .short hshort hrest
  | seq hframed hbad => exact .seq hframed hbad
  | crc hframed hcrc hlast =>
    refine .crc hframed hcrc ?_
    rw [List.cons_append, rymDelivered_skip hseq]
    exact hlast
  | cancelled hlast hcan =>
    rw [← List.cons_append]
    refine .cancelled ?_ hcan
    rw [List.cons_append, rymDelivered_skip hseq]
    exact hlast

theorem TransStop.take {rest : List (Option UInt8)} {err : Option RymErr} (hseq : stage = .established → p.seq ≠ 0)
    (hstop : TransStop onData .transmitting packets rest err) : TransStop onData stage (p :: packets) rest err := by
  have hlast : ∀ {q : RymPacket} {packets : List RymPacket}, q ∈ rymDelivered stage (p :: packets ++ [q]) := by
    intro q packets
    rw [List.cons_append, rymDelivered_take hseq]
    exact List.mem_cons_of_mem _ (List.mem_append_right _ (List.mem_singleton_self q))
  cases hstop with
  | eot => exact .eot
  | code hcode => exact .code hcode
  | short hshort hrest => exact .short hshort hrest
  | seq hframed hbad => exact .seq hframed hbad
  | crc hframed hcrc _ => exact .crc hframed hcrc hlast
  | cancelled _ hcan =>
    rw [← List.cons_append]
    exact .cancelled hlast hcan

inductive PacketEnds (onData : List RymEvent → List UInt8 → UInt8) (s : RymCtx) (p : RymPacket) (rest : List (Option UInt8)) :
    Option RymErr × UInt8 × RymCtx → Prop
  | seq {code s'} (hbad : ¬p.Numbered) (htrace : s'.trace = s.trace) : PacketEnds onData s p rest (some .seq, code, s')
  | again {s'} (hgood : p.Numbered) (hstage : s.stage = .established) (hseq : p.seq = 0) (hinput : s'.input = rest)
      (hkept : s'.stage = .established) (htrace : s'.trace = s.trace) : PacketEnds onData s p rest (none, rymNone, s')
  | crc {code s'} (hgood : p.Numbered) (hseq : s.stage = .established → p.seq ≠ 0) (hcrc : ¬p.Checked) (htrace : s'.trace = s.trace) :
      PacketEnds onData s p rest (some .crc, code, s')
  | data {s'} (hgood : p.Numbered) (hseq : s.stage = .established → p.seq ≠ 0) (hcrc : p.Checked) (hinput : s'.input = rest)
      (hstage : s'.stage = .transmitting) (htrace : s'.trace = s.trace ++ [.onData p.payload]) :
      PacketEnds onData s p rest (none, onData s.trace p.payload, s')

theorem rymTransData_eq (onData : List RymEvent → List UInt8 → UInt8) (onBegin : Option (List RymEvent → List UInt8 → UInt8))
    (onEnd : Bool) {code : UInt8} {tl : List UInt8} {dataSz : Nat} (hbuf : s.buf = code :: tl) :
    (∃ p : RymPacket, ∃ rest, p.code = code ∧ p.payload.length = dataSz ∧ some code :: s.input = p.symbols ++ rest ∧
        PacketEnds onData s p rest (rymTransData ⟨onBegin, some onData, onEnd⟩ s dataSz code)) ∨
      ∃ (bytes : List UInt8) (rest : List (Option UInt8)) (s' : RymCtx), bytes.length < 2 + dataSz + 2 ∧
        s.input = bytes.map some ++ rest ∧ (rest = [] ∨ rest.head? = some none) ∧
          rymTransData ⟨onBegin, some onData, onEnd⟩ s dataSz code = (some .dsz, code, s') ∧ s'.trace = s.trace := by
  rcases rymReadData_eq hbuf with ⟨p, rest, tl', hcode, hpayload, hinput, hread⟩ | ⟨bytes, rest, hlen, hinput, hrest, hread, htrace⟩
  · refine .inl ⟨p, rest, hcode, hpayload, hinput, ?_⟩
    subst hpayload
    rw [rymTransData, hread]
    dsimp only
    rw [if_neg (not_not.2 rfl)]
    obtain ⟨hbyte₁, hbyte₂, hdata, hcrc⟩ := @RymCtx.of_buf { s with buf := p.bytes ++ tl', input := rest } p tl' rfl
    rw [hbyte₁, hbyte₂]
    by_cases hgood : p.seq.toNat + p.cpl.toNat = 0xFF
    · rw [if_neg (not_not.2 hgood)]
      by_cases hseq : s.stage = .established ∧ p.seq = 0
      · rw [if_pos hseq]
        exact .again hgood hseq.1 hseq.2 rfl hseq.1 rfl
      · rw [if_neg hseq]
        have hdata' : RymCtx.data { s with buf := p.bytes ++ tl', input := rest, stage := .transmitting } p.payload.length = p.payload :=
          hdata
        have hcrc' : RymCtx.recvCrc { s with buf := p.bytes ++ tl', input := rest, stage := .transmitting }
            (2 + p.payload.length + 2 - 1) = BitVec.ofNat 16 (p.hi.toNat * 256 + p.lo.toNat) := hcrc
        rw [hdata', hcrc']
        by_cases hsum : BitVec.ofNat 16 (p.hi.toNat * 256 + p.lo.toNat) = crc16 p.payload
        · rw [if_neg (not_not.2 hsum)]
          exact .data hgood (fun hstage hzero => hseq ⟨hstage, hzero⟩) hsum rfl rfl rfl
        · rw [if_pos hsum]
          exact .crc hgood (fun hstage hzero => hseq ⟨hstage, hzero⟩) hsum rfl
    · rw [if_pos hgood]
      exact .seq hgood rfl
  · refine .inr ⟨bytes, rest, _, hlen, hinput, hrest, ?_, htrace⟩
    rw [rymTransData]
    dsimp only
    rw [if_pos (by omega)]

/-- The packets that a transfer has taken, and what `on_data` has been given of them. -/
structure Received (onData : List RymEvent → List UInt8 → UInt8) (s : RymCtx) (packets : List RymPacket) (rest : List (Option UInt8))
    (err : Option RymErr) (s' : RymCtx) : Prop where
  input : s.input = packets.flatMap RymPacket.symbols ++ rest
  framed : ∀ p ∈ packets, p.Framed ∧ p.Numbered
  checked : ∀ p ∈ rymDelivered s.stage packets, p.Checked
  calls : dataCalls s'.trace = dataCalls s.trace ++ (rymDelivered s.stage packets).map RymPacket.payload
  stop : TransStop onData s.stage packets rest err

namespace Received

variable {rest : List (Option UInt8)} {err : Option RymErr} {s₀ s₁ s' : RymCtx}

theorem of_stop (hinput : s.input = rest) (htrace : s'.trace = s.trace) (hstop : TransStop onData s.stage [] rest err) :
    Received onData s [] rest err s' := by
  have hnone : rymDelivered s.stage [] = [] := by
    rw [rymDelivered]
    exact ite_self _
  refine ⟨hinput, nofun, ?_, ?_, hstop⟩
  · rw [hnone]
    exact nofun
  · rw [htrace, hnone]
    exact (List.append_nil _).symm

theorem skip (hinput : s.input = p.symbols ++ s₁.input) (hstage : s.stage = .established) (hstage₁ : s₁.stage = .established)
    (htrace : s₁.trace = s.trace) (hframed : p.Framed ∧ p.Numbered) (hseq : p.seq = 0)
    (h : Received onData s₁ packets rest err s') : Received onData s (p :: packets) rest err s' := by
  have hsame : rymDelivered s.stage (p :: packets) = rymDelivered s₁.stage packets := by
    rw [hstage, hstage₁, rymDelivered_skip hseq]
  refine ⟨?_, List.forall_mem_cons.2 ⟨hframed, h.framed⟩, ?_, ?_, ?_⟩
  · rw [hinput, h.input, List.flatMap_cons, List.append_assoc]
  · rw [hsame]
    exact h.checked
  · rw [hsame, h.calls, htrace]
  · rw [hstage]
    exact .skip hseq (hstage₁ ▸ h.stop)

theorem take (hinput : s.input = p.symbols ++ s₁.input) (hstage₁ : s₁.stage = .transmitting)
    (htrace : dataCalls s₁.trace = dataCalls s.trace ++ [p.payload]) (hframed : p.Framed ∧ p.Numbered) (hchecked : p.Checked)
    (hseq : s.stage = .established → p.seq ≠ 0) (h : Received onData s₁ packets rest err s') :
    Received onData s (p :: packets) rest err s' := by
  have hall : rymDelivered s₁.stage packets = packets := by rw [hstage₁, rymDelivered_transmitting]
  refine ⟨?_, List.forall_mem_cons.2 ⟨hframed, h.framed⟩, ?_, ?_, .take hseq (hstage₁ ▸ h.stop)⟩
  · rw [hinput, h.input, List.flatMap_cons, List.append_assoc]
  · rw [rymDelivered_take hseq]
    exact List.forall_mem_cons.2 ⟨hchecked, hall ▸ h.checked⟩
  · rw [rymDelivered_take hseq, h.calls, htrace, hall, List.append_assoc]
    rfl

end Received

theorem dataCalls_put (codes : List UInt8) : dataCalls (trace ++ codes.map .put) = dataCalls trace := by
  have hnone : dataCalls (codes.map .put) = [] := by
    induction codes with
    | nil => rfl
    | cons code codes ih => exact ih
  rw [dataCalls_append, hnone, List.append_nil]

theorem transLoop_received (onBegin : Option (List RymEvent → List UInt8 → UInt8)) (onEnd : Bool) {fuel : Nat}
    (hfuel : s.input.length < fuel) :
    ∃ err s' packets rest, transLoop ⟨onBegin, some onData, onEnd⟩ fuel s = some (err, s') ∧
      Received onData s packets rest err s' := by
  induction fuel generalizing s with
  | zero => exact absurd hfuel (Nat.not_lt_zero _)
  | succ fuel ih =>
    rw [transLoop]
    dsimp only
    obtain ⟨htrace₀, hstage₀, -⟩ := @rymReadCode_frame s
    by_cases heot : (rymReadCode s).1 = rymEot
    · obtain ⟨rest, tl, hinput, -⟩ := rymReadCode_eq heot (by decide)
      rw [if_pos heot]
      exact ⟨_, _, [], _, rfl, .of_stop hinput htrace₀ .eot⟩
    · rw [if_neg heot]
      by_cases hcode : (rymReadCode s).1 ≠ rymSoh ∧ (rymReadCode s).1 ≠ rymStx
      · rw [if_pos hcode]
        have hnone : (rymReadCode s).1 ∉ [rymSoh, rymStx, rymEot] := by
          simp only [List.mem_cons, List.not_mem_nil, or_false, not_or]
          exact ⟨hcode.1, hcode.2, heot⟩
        exact ⟨_, _, [], _, rfl, .of_stop rfl htrace₀ (.code (rymReadCode_ne hnone))⟩
      · rw [if_neg hcode]
        have hor : (rymReadCode s).1 = rymSoh ∨ (rymReadCode s).1 = rymStx := by
          by_contra hno
          exact hcode (not_or.1 hno)
        have hne : (rymReadCode s).1 ≠ rymNone := by rcases hor with h | h <;> rw [h] <;> decide
        obtain ⟨rest, tl, hinput, hread⟩ := rymReadCode_eq rfl hne
        have hframed : ∀ p : RymPacket, p.code = (rymReadCode s).1 →
            p.payload.length = (if (rymReadCode s).1 = rymSoh then 128 else 1024) → p.Framed := by
          intro p hp hlen
          rcases hor with hsoh | hstx
          · exact .inl ⟨hp.trans hsoh, by rw [hlen, if_pos hsoh]⟩
          · exact .inr ⟨hp.trans hstx, by rw [hlen, hstx, if_neg (by decide)]⟩
        generalize (rymReadCode s).1 = code at *
        have hbuf : (rymReadCode s).2.buf = code :: tl := by rw [hread]
        have hsymbols : some code :: (rymReadCode s).2.input = s.input := by rw [hread, hinput]
        generalize hsz : (if code = rymSoh then 128 else 1024) = dataSz at *
        rcases @rymTransData_eq _ onData onBegin onEnd code tl dataSz hbuf with
          ⟨p, rest', hp, hlen, heq, hends⟩ | ⟨bytes, rest', s₁, hlen, heq, hrest, htrans, htrace⟩
        · have hin : s.input = p.symbols ++ rest' := hsymbols.symm.trans heq
          have hshort : rest'.length < fuel := by
            have hlen' := congrArg List.length hin
            rw [List.length_append, RymPacket.symbols, List.length_map, RymPacket.bytes, List.length_cons] at hlen'
            omega
          generalize rymTransData ⟨onBegin, some onData, onEnd⟩ (rymReadCode s).2 dataSz code = ends at hends ⊢
          cases hends with
          | seq hbad htrace =>
            exact ⟨_, _, [], _, rfl, .of_stop hin (htrace.trans htrace₀) (.seq (hframed p hp hlen) hbad)⟩
          | again hgood hstage hseq hinput' hkept htrace =>
            rename_i s₁
            dsimp only
            rw [if_neg (by decide), if_neg (by decide)]
            obtain ⟨err, s', packets, rest, hloop, hrec⟩ := @ih s₁ (hinput' ▸ hshort)
            exact ⟨err, s', p :: packets, rest, hloop, hrec.skip (hin.trans (by rw [hinput'])) (hstage₀.symm.trans hstage) hkept
              (htrace.trans htrace₀) ⟨hframed p hp hlen, hgood⟩ hseq⟩
          | crc hgood hseq hcrc htrace =>
            refine ⟨_, _, [], _, rfl, .of_stop hin (htrace.trans htrace₀) (.crc (hframed p hp hlen) hcrc ?_)⟩
            rw [List.nil_append, rymDelivered_take (hstage₀ ▸ hseq)]
            exact List.mem_singleton_self p
          | data hgood hseq hcrc hinput' hstage htrace =>
            rename_i s₁
            have hcalls : dataCalls s₁.trace = dataCalls s.trace ++ [p.payload] := by
              rw [htrace, htrace₀, dataCalls_append]
              rfl
            have hfirst : p ∈ rymDelivered s.stage ([] ++ [p]) := by
              rw [List.nil_append, rymDelivered_take (hstage₀ ▸ hseq)]
              exact List.mem_singleton_self p
            dsimp only
            by_cases hcan : onData (rymReadCode s).2.trace p.payload = rymCan
            · rw [if_pos hcan]
              refine ⟨_, _, [p], rest', rfl, ?_, ?_, ?_, ?_, .cancelled hfirst hcan⟩
              · rw [hin, List.flatMap_singleton]
              · exact List.forall_mem_singleton.2 ⟨hframed p hp hlen, hgood⟩
              · rw [rymDelivered_take (hstage₀ ▸ hseq)]
                exact List.forall_mem_singleton.2 hcrc
              · rw [rymDelivered_take (hstage₀ ▸ hseq)]
                exact (dataCalls_put (List.replicate 7 rymCan)).trans hcalls
            · rw [if_neg hcan]
              generalize hs₂ : (if onData (rymReadCode s).2.trace p.payload = rymAck then s₁.putchar rymAck else s₁) = s₂
              have hs₂' : s₂.input = rest' ∧ s₂.stage = .transmitting ∧ dataCalls s₂.trace = dataCalls s.trace ++ [p.payload] := by
                rw [← hs₂]
                split_ifs
                · exact ⟨hinput', hstage, (dataCalls_put [rymAck]).trans hcalls⟩
                · exact ⟨hinput', hstage, hcalls⟩
              obtain ⟨err, s', packets, rest, hloop, hrec⟩ := @ih s₂ (hs₂'.1 ▸ hshort)
              exact ⟨err, s', p :: packets, rest, hloop, hrec.take (hin.trans (by rw [hs₂'.1])) hs₂'.2.1 hs₂'.2.2
                ⟨hframed p hp hlen, hgood⟩ hcrc (hstage₀ ▸ hseq)⟩
        · rw [htrans]
          refine ⟨_, _, [], _, rfl, .of_stop (hsymbols.symm.trans (congrArg _ heq)) (htrace.trans htrace₀) (.short ?_ hrest)⟩
          rw [← hsz] at hlen
          split_ifs at hlen ⊢ <;> omega

/-! ## A session -/

theorem handshakeLoop_eq (tmSec : Nat) (s : RymCtx) :
    dataCalls (handshakeLoop tmSec s).2.trace = dataCalls s.trace ∧
      ((handshakeLoop tmSec s).1 = none ∨
        ∃ noise code tl dataSz, (code = rymSoh ∧ dataSz = 128 ∨ code = rymStx ∧ dataSz = 1024) ∧
          (handshakeLoop tmSec s).1 = some (1 + 2 + dataSz + 2) ∧ (∀ x ∈ noise, x ≠ some rymSoh ∧ x ≠ some rymStx) ∧
            s.input = noise ++ (some code :: (handshakeLoop tmSec s).2.input) ∧ (handshakeLoop tmSec s).2.buf = code :: tl) := by
  induction tmSec generalizing s with
  | zero => exact ⟨rfl, .inl rfl⟩
  | succ tmSec ih =>
    rw [handshakeLoop]
    dsimp only
    obtain ⟨htrace, -, hdrop⟩ := @rymReadCode_frame (s.putchar rymC)
    have hcalls : dataCalls (rymReadCode (s.putchar rymC)).2.trace = dataCalls s.trace := by
      rw [htrace]
      exact dataCalls_put [rymC]
    by_cases hsoh : (rymReadCode (s.putchar rymC)).1 = rymSoh
    · obtain ⟨rest, tl, hinput, hread⟩ := rymReadCode_eq hsoh (by decide)
      rw [if_pos hsoh, hread]
      exact ⟨hread ▸ hcalls, .inr ⟨[], rymSoh, tl, 128, .inl ⟨rfl, rfl⟩, rfl, nofun, hinput, rfl⟩⟩
    · rw [if_neg hsoh]
      by_cases hstx : (rymReadCode (s.putchar rymC)).1 = rymStx
      · obtain ⟨rest, tl, hinput, hread⟩ := rymReadCode_eq hstx (by decide)
        rw [if_pos hstx, hread]
        exact ⟨hread ▸ hcalls, .inr ⟨[], rymStx, tl, 1024, .inr ⟨rfl, rfl⟩, rfl, nofun, hinput, rfl⟩⟩
      · rw [if_neg hstx]
        obtain ⟨hcalls', hcase⟩ := ih (rymReadCode (s.putchar rymC)).2
        refine ⟨hcalls'.trans hcalls, hcase.imp_right ?_⟩
        rintro ⟨noise, code, tl, dataSz, hcode, hsome, hnoise, hinput, hbuf⟩
        have hhead := @rymReadCode_ne (s.putchar rymC) [rymSoh, rymStx] (by
          simp only [List.mem_cons, List.not_mem_nil, or_false, not_or]
          exact ⟨hsoh, hstx⟩)
        refine ⟨s.input.take 1 ++ noise, code, tl, dataSz, hcode, hsome, fun x hx => ?_, ?_, hbuf⟩
        · rcases List.mem_append.1 hx with hx | hx
          · have hx' : s.input.head? = some x := by
              rcases hs : s.input with _ | ⟨x', rest⟩
              · rw [hs] at hx
                cases hx
              · rw [hs] at hx
                rw [List.mem_singleton.1 hx]
                rfl
            exact ⟨fun heq => hhead rymSoh (by decide) (heq ▸ hx'), fun heq => hhead rymStx (by decide) (heq ▸ hx')⟩
          · exact hnoise x hx
        · rw [List.append_assoc, ← hinput, hdrop]
          exact (List.take_append_drop 1 s.input).symm

theorem rymDoHandshake_eq (cb : RymCallbacks) (tmSec : Nat) (s : RymCtx) :
    dataCalls (rymDoHandshake cb s tmSec).2.trace = dataCalls s.trace ∧
      ((rymDoHandshake cb s tmSec).1 = none →
        ∃ noise first, (∀ x ∈ noise, x ≠ some rymSoh ∧ x ≠ some rymStx) ∧ RymPacket.Framed first ∧ first.Numbered ∧ first.Checked ∧
          first.seq = 0 ∧ s.input = noise ++ (first.symbols ++ (rymDoHandshake cb s tmSec).2.input)) := by
  obtain ⟨hcalls, hcase⟩ := handshakeLoop_eq tmSec { s with stage := .establishing }
  rw [rymDoHandshake]
  rcases hloop : handshakeLoop tmSec { s with stage := .establishing } with ⟨_ | dataSz, s₁⟩
  · rw [hloop] at hcalls
    exact ⟨hcalls, nofun⟩
  · rw [hloop] at hcalls hcase
    dsimp only at hcalls hcase ⊢
    rcases hcase with hnone | ⟨noise, code, tl, sz, hcode, hsz, hnoise, hinput, hbuf⟩
    · cases hnone
    · obtain rfl := Option.some.inj hsz
      have hindex : 1 + 2 + sz + 2 - 1 = 2 + sz + 2 := by omega
      have hindex' : 1 + 2 + sz + 2 - 2 = 2 + sz + 2 - 1 := by omega
      have hindex'' : 1 + 2 + sz + 2 - 5 = sz := by omega
      rw [hindex, hindex', hindex'']
      rcases @rymReadData_eq s₁ code tl sz hbuf with ⟨p, rest, tl', hp, hlen, heq, hread⟩ | ⟨bytes, rest, hlen, -, -, hread, htrace⟩
      · rw [hread]
        dsimp only
        rw [if_neg (not_not.2 rfl)]
        obtain ⟨hbyte₁, hbyte₂, hdata, hcrc⟩ := @RymCtx.of_buf { s₁ with buf := p.bytes ++ tl', input := rest } p tl' rfl
        rw [hlen] at hdata hcrc
        rw [hbyte₁, hbyte₂, hdata, hcrc]
        by_cases hbad : p.seq ≠ 0 ∨ p.cpl ≠ 0xFF
        · rw [if_pos hbad]
          exact ⟨hcalls, nofun⟩
        · rw [if_neg hbad]
          obtain ⟨hseq, hcpl⟩ := not_or.1 hbad
          rw [not_not] at hseq hcpl
          by_cases hsum : BitVec.ofNat 16 (p.hi.toNat * 256 + p.lo.toNat) = crc16 p.payload
          · have hpacket : ∃ noise first, (∀ x ∈ noise, x ≠ some rymSoh ∧ x ≠ some rymStx) ∧ RymPacket.Framed first ∧
                first.Numbered ∧ first.Checked ∧ first.seq = 0 ∧ s.input = noise ++ (first.symbols ++ rest) := by
              have hframed : p.Framed :=
                hcode.imp (fun h => ⟨hp.trans h.1, hlen.trans h.2⟩) fun h => ⟨hp.trans h.1, hlen.trans h.2⟩
              have hnumbered : p.Numbered := by
                rw [RymPacket.Numbered, hseq, hcpl]
                rfl
              exact ⟨noise, p, hnoise, hframed, hnumbered, hsum, hseq, hinput.trans (congrArg _ heq)⟩
            rw [if_neg (not_not.2 hsum)]
            cases cb.onBegin with
            | none => exact ⟨hcalls, fun _ => hpacket⟩
            | some onBegin =>
              refine ⟨?_, fun _ => hpacket⟩
              rw [dataCalls_append]
              exact (List.append_nil _).trans hcalls
          · rw [if_pos hsum]
            exact ⟨hcalls, nofun⟩
      · rw [if_pos (by omega)]
        exact ⟨(congrArg dataCalls htrace).trans hcalls, nofun⟩

theorem rymDoFin_dataCalls (cb : RymCallbacks) (s : RymCtx) : dataCalls (rymDoFin cb s).2.trace = dataCalls s.trace := by
  have hcode : ∀ s : RymCtx, dataCalls (rymReadCode s).2.trace = dataCalls s.trace :=
    fun s => congrArg dataCalls rymReadCode_frame.1
  have hput : ∀ (s : RymCtx) (code : UInt8), dataCalls (s.putchar code).trace = dataCalls s.trace :=
    fun s code => dataCalls_put [code]
  have hdata : ∀ (s : RymCtx) (len : Nat), dataCalls (rymReadData s len).2.trace = dataCalls s.trace := fun s len => rfl
  rw [rymDoFin]
  generalize hs₀ : (if cb.onEnd then _ else _ : RymCtx) = s₀
  have hs₀' : dataCalls s₀.trace = dataCalls s.trace := by
    rw [← hs₀]
    split_ifs
    · rw [dataCalls_append]
      exact List.append_nil _
    · rfl
  rw [← hs₀']
  dsimp only
  split_ifs
  · rw [hcode, hput]
  · rw [hcode, hput, hput, hcode, hput]
  · rw [hdata, hcode, hput, hput, hcode, hput]
  · rw [hdata, hcode, hput, hput, hcode, hput]
  · rw [hdata, hcode, hput, hput, hcode, hput]
  · rw [hput, hdata, hcode, hput, hput, hcode, hput]

/-- A handshake packet comes before the receiver has given up, and `on_begin` accepts it. -/
def HandshakeIn (onBegin : Option (List RymEvent → List UInt8 → UInt8)) (tmSec : Nat) (input : List (Option UInt8)) : Prop :=
  ∃ noise rest, ∃ first : RymPacket, input = noise ++ (first.symbols ++ rest) ∧ noise.length < tmSec ∧
    (∀ x ∈ noise, x ≠ some rymSoh ∧ x ≠ some rymStx) ∧ first.Framed ∧ first.Numbered ∧ first.Checked ∧ first.seq = 0 ∧
    ∀ f ∈ onBegin, f (List.replicate (noise.length + 1) (.put rymC)) first.payload = rymAck

theorem handshakeLoop_found {code : UInt8} {dataSz tmSec : Nat} {noise rest : List (Option UInt8)}
    (hcode : code = rymSoh ∧ dataSz = 128 ∨ code = rymStx ∧ dataSz = 1024) (hlen : noise.length < tmSec)
    (hnoise : ∀ x ∈ noise, x ≠ some rymSoh ∧ x ≠ some rymStx) (hinput : s.input = noise ++ some code :: rest) :
    ∃ tl, handshakeLoop tmSec s = (some (1 + 2 + dataSz + 2), { s with
      buf := code :: tl, input := rest, trace := s.trace ++ List.replicate (noise.length + 1) (.put rymC) }) := by
  obtain ⟨n, rfl⟩ : ∃ n, tmSec = n + 1 := ⟨tmSec - 1, by omega⟩
  induction noise generalizing s n with
  | nil =>
    have hread : rymReadCode (s.putchar rymC) = (code, { s.putchar rymC with buf := code :: s.buf.drop 1, input := rest }) := by
      have hin : (s.putchar rymC).input = some code :: rest := hinput
      rw [rymReadCode, hin]
      rfl
    refine ⟨s.buf.drop 1, ?_⟩
    rw [handshakeLoop, hread]
    rcases hcode with ⟨rfl, rfl⟩ | ⟨rfl, rfl⟩ <;> rfl
  | cons x noise ih =>
    obtain ⟨n, rfl⟩ : ∃ m, n = m + 1 := ⟨n - 1, by rw [List.length_cons] at hlen; omega⟩
    obtain ⟨hsoh, hstx⟩ := hnoise x List.mem_cons_self
    have hin : (s.putchar rymC).input = x :: (noise ++ some code :: rest) := hinput
    have hread : (rymReadCode (s.putchar rymC)).1 ≠ rymSoh ∧ (rymReadCode (s.putchar rymC)).1 ≠ rymStx := by
      rw [rymReadCode, hin]
      rcases x with _ | b
      · have hnone : rymNone ≠ rymSoh ∧ rymNone ≠ rymStx := by decide
        exact hnone
      · exact ⟨fun heq => hsoh (congrArg some heq), fun heq => hstx (congrArg some heq)⟩
    obtain ⟨htrace, hstage, hdrop⟩ := @rymReadCode_frame (s.putchar rymC)
    rw [hin] at hdrop
    obtain ⟨tl, hloop⟩ := @ih (rymReadCode (s.putchar rymC)).2 (fun y hy => hnoise y (List.mem_cons_of_mem x hy)) hdrop n
      (by rw [List.length_cons] at hlen; omega)
    refine ⟨tl, ?_⟩
    rw [handshakeLoop]
    dsimp only
    rw [if_neg hread.1, if_neg hread.2, hloop, htrace, hstage, List.length_cons, List.replicate_succ (n := noise.length + 1),
      RymCtx.putchar, List.append_assoc, List.singleton_append]

theorem rymReadBytes_map (bytes : List UInt8) (rest : List (Option UInt8)) :
    rymReadBytes bytes.length (bytes.map some ++ rest) = (bytes, rest) := by
  induction bytes with
  | nil => cases rest <;> rfl
  | cons b bytes ih => rw [List.length_cons, List.map_cons, List.cons_append, rymReadBytes, ih]

/-- A handshake that is there is taken. -/
theorem rymDoHandshake_taken {cb : RymCallbacks} {tmSec : Nat} (h : HandshakeIn cb.onBegin tmSec s.input) (htrace : s.trace = []) :
    (rymDoHandshake cb s tmSec).1 = none := by
  obtain ⟨noise, rest, first, hinput, hlen, hnoise, hframed, hnumbered, hchecked, hseq, hbegin⟩ := h
  have hcode : first.code = rymSoh ∧ first.payload.length = 128 ∨ first.code = rymStx ∧ first.payload.length = 1024 := hframed
  obtain ⟨tl, hloop⟩ := @handshakeLoop_found { s with stage := .establishing } first.code _ tmSec noise
    ((first.bytes.tail.map some) ++ rest) hcode hlen hnoise hinput
  have htail : first.bytes.tail.length = 2 + first.payload.length + 2 := by
    rw [RymPacket.bytes, List.tail_cons, List.length_cons, List.length_cons, List.length_append, List.length_cons,
      List.length_singleton]
    omega
  have hsum : BitVec.ofNat 16 (first.hi.toNat * 256 + first.lo.toNat) = crc16 first.payload := hchecked
  have hcpl : first.cpl = 0xFF := by
    rw [RymPacket.Numbered, hseq] at hnumbered
    exact UInt8.toNat_inj.1 ((Nat.zero_add _).symm.trans hnumbered)
  have hindex : 1 + 2 + first.payload.length + 2 - 1 = 2 + first.payload.length + 2 := by omega
  have hindex' : 1 + 2 + first.payload.length + 2 - 2 = 2 + first.payload.length + 2 - 1 := by omega
  have hindex'' : 1 + 2 + first.payload.length + 2 - 5 = first.payload.length := by omega
  rw [rymDoHandshake, hloop]
  dsimp only
  rw [rymReadData, ← htail.trans hindex.symm]
  dsimp only
  rw [rymReadBytes_map]
  dsimp only
  rw [if_neg (not_not.2 rfl), hindex', hindex'']
  obtain ⟨hbyte₁, hbyte₂, hdata, hcrc⟩ := @RymCtx.of_buf
    ⟨.establishing, List.take 1 (first.code :: tl) ++ (first.bytes.tail ++ List.drop (1 + first.bytes.tail.length) (first.code :: tl)), rest,
      s.trace ++ List.replicate (noise.length + 1) (.put rymC)⟩ first _ rfl
  rw [hbyte₁, hbyte₂, hdata, hcrc, if_neg (by rw [hseq, hcpl]; decide), if_neg (not_not.2 hsum)]
  cases hcb : cb.onBegin with
  | none => rfl
  | some onBegin =>
    dsimp only
    rw [htrace, List.nil_append, if_neg (not_not.2 (hbegin onBegin hcb))]

/-- What a session has given to `on_data`. It is refused only without memory or without a handshake. -/
inductive Session (onBegin : Option (List RymEvent → List UInt8 → UInt8)) (onData : List RymEvent → List UInt8 → UInt8)
    (buf : Option (List UInt8)) (tmSec : Nat) (input : List (Option UInt8)) : Option RymErr → List (List UInt8) → Prop
  | refused (err : RymErr) (hrefused : buf = none ∨ ¬ HandshakeIn onBegin tmSec input) :
      Session onBegin onData buf tmSec input (some err) []
  | taken {err stop noise packets rest} {first : RymPacket} (hinput : input = noise ++ (first.symbols ++ (packets.flatMap RymPacket.symbols ++ rest)))
      (hnoise : ∀ x ∈ noise, x ≠ some rymSoh ∧ x ≠ some rymStx)
      (hfirst : first.Framed ∧ first.Numbered ∧ first.Checked ∧ first.seq = 0) (hframed : ∀ p ∈ packets, p.Framed ∧ p.Numbered)
      (hchecked : ∀ p ∈ rymDelivered .established packets, p.Checked) (hstop : TransStop onData .established packets rest stop)
      (herr : stop ≠ none → err = stop) :
      Session onBegin onData buf tmSec input err ((rymDelivered .established packets).map RymPacket.payload)

/-- The packets of a file from this number on, each sent once or several times. -/
inductive Resent : UInt8 → List (List UInt8) → List RymPacket → Prop
  | nil {seq} : Resent seq [] []
  | next {seq block blocks packets} (times : Nat) (h : Resent (seq + 1) blocks packets) :
      Resent seq (block :: blocks) (List.replicate (times + 1) (.ofBlock seq block) ++ packets)

/-- Each packet between the handshake and the end of the transfer is given to `on_data` once, in the order of arrival. -/
theorem rymDoRecv_session (onBegin : Option (List RymEvent → List UInt8 → UInt8)) (onData : List RymEvent → List UInt8 → UInt8)
    (onEnd : Bool) (buf : Option (List UInt8)) (input : List (Option UInt8)) (tmSec : Nat) :
    ∃ err s', rymDoRecv ⟨onBegin, some onData, onEnd⟩ buf input tmSec = some (err, s') ∧
      Session onBegin onData buf tmSec input err (dataCalls s'.trace) := by
  cases buf with
  | none => exact ⟨_, _, rfl, .refused .enomem (.inl rfl)⟩
  | some buf =>
    rw [rymDoRecv]
    obtain ⟨hcalls, hpacket⟩ := rymDoHandshake_eq ⟨onBegin, some onData, onEnd⟩ tmSec ⟨.none, buf, input, []⟩
    have htaken := @rymDoHandshake_taken ⟨.none, buf, input, []⟩ ⟨onBegin, some onData, onEnd⟩ tmSec
    generalize rymDoHandshake ⟨onBegin, some onData, onEnd⟩ ⟨.none, buf, input, []⟩ tmSec = ends at hcalls hpacket htaken ⊢
    rcases ends with ⟨_ | err, s⟩
    · obtain ⟨noise, first, hnoise, hframed₀, hnumbered₀, hchecked₀, hseq₀, hinput⟩ := hpacket rfl
      have hcalls' : dataCalls ((s.putchar rymAck).putchar rymC).trace = [] :=
        (dataCalls_put [rymC]).trans ((dataCalls_put [rymAck]).trans hcalls)
      obtain ⟨err, s', packets, rest, hloop, hrec⟩ :=
        @transLoop_received onData { (s.putchar rymAck).putchar rymC with stage := .established } onBegin onEnd _ (Nat.lt_succ_self _)
      obtain ⟨hinput', hframed, hchecked, hcalls'', hstop⟩ := hrec
      dsimp only at hinput hinput' hcalls'' hchecked hstop
      have hsession : ∀ err', (err ≠ none → err' = err) → Session onBegin onData (some buf) tmSec input err' (dataCalls s'.trace) := by
        intro err' herr
        rw [hcalls'', hcalls', List.nil_append]
        refine .taken ?_ hnoise ⟨hframed₀, hnumbered₀, hchecked₀, hseq₀⟩ hframed hchecked hstop herr
        exact hinput.trans (congrArg (fun tail => noise ++ (first.symbols ++ tail)) hinput')
      dsimp only
      rw [rymDoTrans]
      dsimp only
      rw [hloop, Option.map_some]
      cases err with
      | none =>
        refine ⟨(rymDoFin ⟨onBegin, some onData, onEnd⟩ s').1, (rymDoFin ⟨onBegin, some onData, onEnd⟩ s').2, rfl, ?_⟩
        rw [rymDoFin_dataCalls]
        exact hsession _ (absurd rfl)
      | some err => exact ⟨_, _, rfl, hsession _ fun _ => rfl⟩
    · refine ⟨_, _, rfl, ?_⟩
      rw [hcalls]
      exact .refused err (.inr fun h => Option.some_ne_none err (htaken h rfl))

def resentBlock : List (Option UInt8) :=
  (RymPacket.ofBlock 0 (List.replicate 128 0)).symbols ++
    (List.replicate 2 (RymPacket.ofBlock 1 (List.replicate 128 7))).flatMap RymPacket.symbols ++
      (some rymEot :: some rymEot :: (RymPacket.ofBlock 0 (List.replicate 128 0)).symbols)

/-- The second copy of a block is given to `on_data` as well. -/
theorem rymDoRecv_resent_fails :
    Resent 1 [List.replicate 128 7] (List.replicate 2 (.ofBlock 1 (List.replicate 128 7))) ∧
      (rymDoRecv ⟨none, some fun _ _ => rymAck, false⟩ (some []) resentBlock 1).map (fun r => (r.1, dataCalls r.2.trace)) =
        some (none, [List.replicate 128 7, List.replicate 128 7]) := by
  have hresent : Resent 1 [List.replicate 128 7] _ := .next 1 .nil
  rw [List.append_nil] at hresent
  exact ⟨hresent, by decide +kernel⟩

end RtThread
