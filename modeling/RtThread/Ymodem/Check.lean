import RtThread.Lib.Crc
import RtThread.Ymodem.Receive

/-!
# The check of a packet

`CRC16` of `ymodem.c` goes through the table byte by byte. Bit by bit it is CRC-16/XMODEM: the generator is `X ^ 16 + X ^ 12 + X ^ 5 + 1`, and the register is clear at first.
-/

namespace RtThread

/-- `X ^ 12 + X ^ 5 + 1` -/
def xmodemPoly : BitVec 16 := 0x1021

def stringBits (q : List UInt8) : List Bool := q.flatMap fun c => Crc.msbs 8 c.toBitVec

def crcXmodem (q : List UInt8) : BitVec 16 := Crc.feed xmodemPoly 0#16 (stringBits q)

theorem ccittTable_eq_map : ccittTable = (List.range 256).map fun n => Crc.feed xmodemPoly 0#16 (Crc.msbs 8 (BitVec.ofNat 8 n)) := by
  decide +kernel

theorem ccittTable_eq (i : BitVec 8) : ccittTable.getD i.toNat 0 = Crc.feed xmodemPoly 0#16 (Crc.msbs 8 i) := by
  have hlt : i.toNat < 256 := i.isLt
  rw [ccittTable_eq_map, List.getD_eq_getElem?_getD, List.getElem?_map, List.getElem?_range hlt, Option.map_some, Option.getD_some,
    BitVec.ofNat_toNat, BitVec.setWidth_eq]

/-- One turn of the loop of `CRC16`. -/
def crc16Step (crc : BitVec 16) (c : UInt8) : BitVec 16 := crc <<< 8 ^^^ ccittTable.getD ((crc >>> 8).toNat ^^^ c.toNat) 0

theorem crc16Step_eq (crc : BitVec 16) (c : UInt8) : crc16Step crc c = Crc.feed xmodemPoly crc (Crc.msbs 8 c.toBitVec) := by
  have hhigh : ((crc >>> 8).setWidth 8).toNat = (crc >>> 8).toNat := by
    have hlt := crc.isLt
    rw [BitVec.toNat_setWidth, BitVec.toNat_ushiftRight, Nat.shiftRight_eq_div_pow]
    omega
  have hindex : (crc >>> 8).toNat ^^^ c.toNat = ((crc >>> 8).setWidth 8 ^^^ c.toBitVec).toNat := by
    rw [BitVec.toNat_xor, hhigh, UInt8.toNat_toBitVec]
  rw [crc16Step, Crc.feed_word (by decide : 8 ≤ 16), hindex, ccittTable_eq]

theorem foldl_crc16Step (crc : BitVec 16) (q : List UInt8) : q.foldl crc16Step crc = Crc.feed xmodemPoly crc (stringBits q) := by
  induction q generalizing crc with
  | nil => rfl
  | cons c q ih =>
    have hbits : stringBits (c :: q) = Crc.msbs 8 c.toBitVec ++ stringBits q := List.flatMap_cons
    rw [List.foldl_cons, crc16Step_eq, ih, hbits, Crc.feed_append]

theorem crc16_eq_foldl (q : List UInt8) : crc16 q = q.foldl crc16Step 0 := rfl

theorem stringBits_sum (crc : BitVec 16) :
    stringBits [UInt8.ofNat (crc.toNat / 256), UInt8.ofNat crc.toNat] = Crc.msbs 16 crc := by
  have hhigh : (UInt8.ofNat (crc.toNat / 256)).toBitVec = (crc >>> 8).setWidth 8 := by
    apply BitVec.eq_of_toNat_eq
    rw [BitVec.toNat_setWidth, BitVec.toNat_ushiftRight, Nat.shiftRight_eq_div_pow]
    rfl
  have hlow : (UInt8.ofNat crc.toNat).toBitVec = crc.setWidth 8 := by
    apply BitVec.eq_of_toNat_eq
    rw [BitVec.toNat_setWidth]
    rfl
  rw [stringBits, List.flatMap_cons, List.flatMap_singleton, hhigh, hlow]
  exact (Crc.msbs_add 8 crc).symm

/-- The table computes the division bit by bit, and a string that is followed by its sum leaves nothing. -/
theorem crc16_eq_crcXmodem (q : List UInt8) :
    crc16 q = crcXmodem q ∧ crc16 (q ++ [UInt8.ofNat ((crc16 q).toNat / 256), UInt8.ofNat (crc16 q).toNat]) = 0 := by
  constructor
  · exact foldl_crc16Step 0#16 q
  · have hsum := foldl_crc16Step (crc16 q) [UInt8.ofNat ((crc16 q).toNat / 256), UInt8.ofNat (crc16 q).toNat]
    rw [stringBits_sum, Crc.feed_self] at hsum
    rw [crc16_eq_foldl (q ++ _), List.foldl_append, ← crc16_eq_foldl]
    exact hsum

section

open Polynomial

theorem crc16_remainder (q : List UInt8) :
    Crc.regPoly (crc16 q) = Crc.msgPoly (stringBits q) * X ^ 16 %ₘ (X ^ 16 + X ^ 12 + X ^ 5 + 1) := by
  have hgenerator : Crc.generator xmodemPoly = X ^ 16 + X ^ 12 + X ^ 5 + 1 := by
    simp only [Crc.generator, Crc.regPoly, Finset.sum_range_succ, Finset.sum_range_zero, xmodemPoly, Crc.coeffBit]
    simp
    ring
  rw [crc16_eq_foldl, ← hgenerator, ← Crc.regPoly_feed]
  exact congrArg Crc.regPoly (foldl_crc16Step 0#16 q)

end

/-! ## Bursts -/

theorem stringBits_injective {q q' : List UInt8} (h : stringBits q = stringBits q') : q = q' := by
  induction q generalizing q' with
  | nil => cases q' with
    | nil => rfl
    | cons c q' => simp [stringBits, Crc.msbs] at h
  | cons c q ih => cases q' with
    | nil => simp [stringBits, Crc.msbs] at h
    | cons c' q' =>
      obtain ⟨hhead, htail⟩ := List.append_inj (show Crc.msbs 8 c.toBitVec ++ stringBits q = Crc.msbs 8 c'.toBitVec ++ stringBits q' from h)
        (by simp [Crc.msbs])
      rw [ih htail, ← UInt8.toBitVec_inj.mp (Crc.msbs_injective hhead)]

theorem RymPacket.stringBits_checked {p : RymPacket} (h : p.Checked) :
    stringBits (p.payload ++ [p.hi, p.lo]) = stringBits p.payload ++ Crc.msbs 16 (crc16 p.payload) := by
  have hhi := p.hi.toNat_lt
  have hlo := p.lo.toNat_lt
  have hsum : (BitVec.ofNat 16 (p.hi.toNat * 256 + p.lo.toNat)).toNat = p.hi.toNat * 256 + p.lo.toNat :=
    Nat.mod_eq_of_lt (by omega)
  have hbits := stringBits_sum (BitVec.ofNat 16 (p.hi.toNat * 256 + p.lo.toNat))
  rw [hsum, h, show (p.hi.toNat * 256 + p.lo.toNat) / 256 = p.hi.toNat by omega] at hbits
  have hlow : UInt8.ofNat (p.hi.toNat * 256 + p.lo.toNat) = p.lo := by
    apply UInt8.toNat_inj.mp
    rw [UInt8.toNat_ofNat']
    omega
  rw [UInt8.ofNat_toNat, hlow] at hbits
  rw [← hbits]
  exact List.flatMap_append

theorem RymPacket.framed_ofBlock (seq : UInt8) {payload : List UInt8} (hlen : payload.length = 128) :
    (RymPacket.ofBlock seq payload).Framed :=
  .inl ⟨if_pos hlen, hlen⟩

theorem RymPacket.checked_ofBlock (seq : UInt8) (payload : List UInt8) : (RymPacket.ofBlock seq payload).Checked := by
  have hlt := (crc16 payload).isLt
  refine BitVec.eq_of_toNat_eq ?_
  simp only [RymPacket.ofBlock, BitVec.toNat_ofNat, UInt8.toNat_ofNat']
  omega

/-- A receiver accepts no packet that a burst of up to 16 bits has changed in its payload or its sum. -/
theorem rymPacket_burst {p p' : RymPacket} (hsent : p.Checked) (hreceived : p'.Checked) (hlen : p.payload.length = p'.payload.length)
    (a : Nat) (hburst : ∀ i, i < a ∨ a + 16 ≤ i →
      (stringBits (p.payload ++ [p.hi, p.lo]))[i]? = (stringBits (p'.payload ++ [p'.hi, p'.lo]))[i]?) :
    p'.payload = p.payload ∧ p'.hi = p.hi ∧ p'.lo = p.lo := by
  have hclear (q : RymPacket) (h : q.Checked) : Crc.feed xmodemPoly 0#16 (stringBits (q.payload ++ [q.hi, q.lo])) = 0#16 := by
    rw [RymPacket.stringBits_checked h, Crc.feed_append, ← foldl_crc16Step]
    exact Crc.feed_self
  have hbits := Crc.eq_of_burst (by decide) (by simp [stringBits, Crc.msbs, hlen]) a hburst ((hclear p hsent).trans (hclear p' hreceived).symm)
  have hbytes := List.append_inj (stringBits_injective hbits) hlen
  obtain ⟨hpayload, hsum⟩ := hbytes
  obtain ⟨hhi, hrest⟩ := List.cons.inj hsum
  exact ⟨hpayload.symm, hhi.symm, (List.cons.inj hrest).1.symm⟩

/-- A whole packet of 128 bytes; the burst would be where the payload ends. -/
theorem rymPacket_burst_block : (RymPacket.ofBlock 1 (List.replicate 128 7)).Framed ∧
    (RymPacket.ofBlock 1 (List.replicate 128 7)).payload = List.replicate 128 7 := by
  have hchecked := RymPacket.checked_ofBlock 1 (List.replicate 128 7)
  have hsame := (rymPacket_burst hchecked hchecked rfl 1018 fun _ _ => rfl).1
  exact ⟨RymPacket.framed_ofBlock 1 List.length_replicate, hsame.trans rfl⟩

end RtThread
