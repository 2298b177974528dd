import RtThread.Kernel.PrintfTruncation

/-!
# The bounds of the buffer

`end` is the address of the last cell of a buffer, but for a size of 0: then it is the last address there is, and the null character at least is stored. A cursor that passes the last address comes to the first, which does not lie behind `end`.
-/

namespace RtThread

variable {cfg : PrintfConfig} {buf size : Nat} {fmt : CString} {args : List PrintArg} {ps : List (Piece Char)}

def WritesInside (cfg : PrintfConfig) (buf size : Nat) (fmt : CString) (args : List PrintArg) : Prop :=
  ∀ r, rtVsnprintf cfg buf size fmt args = some r → ∀ a, (r.2 a).isSome → buf ≤ a ∧ a < buf + size

theorem stored_le_endAddress {r : Int × (Nat → Option Char)} (hpieces : outputPieces cfg fmt args = some ps)
    (h : rtVsnprintf cfg buf size fmt args = some r) {a : Nat} (ha : (r.2 a).isSome) : a ≤ endAddress cfg buf size := by
  rw [rtVsnprintf_pieces hpieces] at h
  rw [← Option.some.inj h] at ha
  dsimp only at ha
  generalize endAddress cfg buf size = last at *
  have hwindow : ∀ n i, Cursor.window (2 ^ cfg.wordBits) buf last n = some i → i ≤ last := fun n i => Cursor.window_le
  have hstored := Piece.writeAll_keeps (c := (Cursor.start : Cursor Char)) (Cursor.put_stored hwindow) (fun i hno => by cases hno) ps
  generalize Piece.writeAll _ _ ps = str at hstored ha
  by_cases heq : a = (Cursor.window (2 ^ cfg.wordBits) buf last str.pos).getD last
  · rw [heq]
    cases hcell : Cursor.window (2 ^ cfg.wordBits) buf last str.pos with
    | none => exact Nat.le_refl last
    | some i => exact Cursor.window_le hcell
  · rw [Function.update_of_ne heq] at ha
    exact hstored a ha

theorem exists_stored (buf size : Nat) (hpieces : outputPieces cfg fmt args = some ps) :
    ∃ r, rtVsnprintf cfg buf size fmt args = some r ∧ ∃ a, (r.2 a).isSome := by
  refine ⟨_, rtVsnprintf_pieces hpieces, ?_⟩
  dsimp only
  generalize Piece.writeAll _ _ ps = str
  generalize (Cursor.window _ _ _ str.pos).getD _ = a
  refine ⟨a, ?_⟩
  rw [Function.update_self]
  rfl

theorem storedAt_inside {text : List Char} {a : Nat} (hsize : 1 ≤ size)
    (ha : (storedAt buf (storedText text (endOffset cfg buf size + 1)) a).isSome) : buf ≤ a ∧ a < buf + size := by
  have hend : endOffset cfg buf size ≤ size - 1 := Nat.min_le_left ..
  rw [storedAt] at ha
  by_cases hle : buf ≤ a
  · rw [if_pos hle, storedText, Nat.add_sub_cancel] at ha
    have hoffset : a - buf ≤ min text.length (endOffset cfg buf size) := by
      by_contra hno
      rw [if_neg (by omega), if_neg (by omega)] at ha
      cases ha
    exact ⟨hle, by omega⟩
  · rw [if_neg hle] at ha
    cases ha

/-- The bounds are kept exactly where there is a cell for the null character, and the cursor stays below the last address or comes back to the buffer. -/
theorem writesInside_iff (hpieces : outputPieces cfg fmt args = some ps) (hbuf : buf < 2 ^ cfg.wordBits) (hword : size < 2 ^ cfg.wordBits) :
    WritesInside cfg buf size fmt args ↔ 1 ≤ size ∧ (buf = 0 ∨ StaysBelow cfg buf size ps) := by
  constructor
  · intro h
    obtain ⟨r, hr, a, ha⟩ := exists_stored buf size hpieces
    have hinside := h r hr a ha
    have hsize : 1 ≤ size := by omega
    refine ⟨hsize, Classical.or_iff_not_imp_left.mpr fun hnull => ?_⟩
    by_contra hpasses
    obtain ⟨r, hr, hzero⟩ := rtVsnprintf_wraps hpieces hbuf hsize hword hpasses
    have hfirst := h r hr 0 hzero
    omega
  · rintro ⟨hsize, hplace⟩ r hr a ha
    rcases hplace with hnull | hstays
    · have hle := stored_le_endAddress hpieces hr ha
      have hend : endOffset cfg buf size ≤ size - 1 := Nat.min_le_left ..
      rw [endAddress_eq hbuf hsize hword] at hle
      omega
    · rw [rtVsnprintf_eq hpieces hbuf hsize hword hstays] at hr
      rw [← Option.some.inj hr] at ha
      exact storedAt_inside hsize ha

theorem writesInside_iff_plain : WritesInside ⟨false, true, false, 32⟩ 4096 2 ⟨"ab%5d".toList, CString.of_all (by decide)⟩ [.int (-1)] := by
  have hpieces : outputPieces ⟨false, true, false, 32⟩ ⟨"ab%5d".toList, CString.of_all (by decide)⟩ [.int (-1)] =
      some [.plain ['a'], .plain ['b'],
        numberPiece ⟨false, true, false, 32⟩ (numberField ⟨false, true, false, 32⟩ (-1) 10 5 (-1) { sign := true })] := by
    rfl
  exact (writesInside_iff hpieces (by decide) (by decide)).2 ⟨by decide, .inr (by decide)⟩

/-- A buffer of size 0 gets the null character of an empty text. The third character for a buffer of the last two addresses is stored at the first address. -/
theorem writesInside_iff_fails :
    ¬ WritesInside ⟨false, true, false, 32⟩ 4096 0 ⟨[], CString.of_all rfl⟩ [] ∧
      ¬ WritesInside ⟨false, true, false, 32⟩ 0xfffffffe 2 ⟨"abc".toList, CString.of_all (by decide)⟩ [] := by
  have hempty : ((rtVsnprintf ⟨false, true, false, 32⟩ 4096 0 ⟨[], CString.of_all rfl⟩ []).map fun r => (r.2 4096).isSome) = some true := by
    decide +kernel
  have hlast : ((rtVsnprintf ⟨false, true, false, 32⟩ 0xfffffffe 2 ⟨"abc".toList, CString.of_all (by decide)⟩ []).map fun r => (r.2 0).isSome) =
      some true := by
    decide +kernel
  constructor
  · intro h
    obtain ⟨r, hr, hstored⟩ := Option.map_eq_some_iff.1 hempty
    exact absurd (h r hr _ hstored) (by decide)
  · intro h
    obtain ⟨r, hr, hstored⟩ := Option.map_eq_some_iff.1 hlast
    exact absurd (h r hr _ hstored) (by decide)

end RtThread
