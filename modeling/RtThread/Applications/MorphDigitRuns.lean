import RtThread.Applications.MorphDigit

/-!
# What the LED clock shows

A digit cell is a bitmap. An animation draws only in its own cell, and whether it ends in its digit depends on the bitmap it starts from: `morph0` is written for 9 and for 5, and at midnight it is played on 3 and on 2.
-/

namespace RtThread

variable {dat : LedDat} {c dotColor : ColorDef} {strokes : Strokes} {s : LedClock} {pdt : DispTime} {cell cell' : Nat} {x y x' y' d i j m start calls : Nat}

/-! ## Dots -/

theorem LedDat.write_apply (dat : LedDat) (row x r k : Nat) (bit : Bool) :
    dat.write row x bit r k = if r = row ∧ k = x then bit else dat r k := by
  unfold write
  by_cases hrow : r = row
  · subst hrow
    by_cases hx : k = x <;> simp [hx]
  · simp [hrow]

theorem lit_drawPixel (dat : LedDat) (c : ColorDef) (x x' : Nat) (hy : y < 32) (hy' : y' < 32) :
    (drawPixel dat x y c).lit x' y' = if x = x' ∧ y = y' then decide (c ≠ .black) else dat.lit x' y' := by
  have hsame : (31 - y' = 31 - y ∧ x' = x) ↔ (x = x' ∧ y = y') := by omega
  have hplane : ∀ a b : Nat, a ≤ 64 → b ≤ 64 → a + 32 ≤ b ∨ b + 32 ≤ a → ¬ (a + (31 - y') = b + (31 - y) ∧ x' = x) := by
    omega
  have h₁ := hplane 0 32 (by omega) (by omega) (by omega)
  have h₂ := hplane 0 64 (by omega) (by omega) (by omega)
  have h₃ := hplane 32 0 (by omega) (by omega) (by omega)
  have h₄ := hplane 32 64 (by omega) (by omega) (by omega)
  have h₅ := hplane 64 0 (by omega) (by omega) (by omega)
  have h₆ := hplane 64 32 (by omega) (by omega) (by omega)
  simp only [Nat.zero_add] at h₁ h₂ h₃ h₅
  have hred : ∀ a, (a + (31 - y') = a + (31 - y) ∧ x' = x) ↔ (x = x' ∧ y = y') := fun a => by rw [Nat.add_left_cancel_iff, hsame]
  cases c <;>
    simp only [drawPixel, ColorDef.planes, LedDat.lit, List.foldl_cons, List.foldl_nil, LedDat.write_apply, reduceCtorEq,
      if_true, if_false, Nat.zero_add, hsame, hred, h₁, h₂, h₃, h₄, h₅, h₆] <;>
    split_ifs <;> simp

/-! ## Cells -/

def Strokes.paint (strokes : Strokes) (cell : Nat) : Nat :=
  strokes.foldl (fun cell stroke =>
    if stroke.2.2 = .black then cell ^^^ (cell &&& 2 ^ (8 * stroke.2.1 + stroke.1)) else cell ||| 2 ^ (8 * stroke.2.1 + stroke.1))
    cell

/-- A stroke in the cell at column 0, moved to another column and drawn in a colour. -/
def Strokes.moved (strokes : Strokes) (column : Nat) (c : ColorDef) : Strokes :=
  strokes.map fun stroke => (column + stroke.1, stroke.2.1, if stroke.2.2 = .black then .black else c)

def Strokes.InCell (strokes : Strokes) : Prop := ∀ stroke ∈ strokes, stroke.1 < 8 ∧ stroke.2.1 < 32

instance Strokes.decidableInCell (strokes : Strokes) : Decidable strokes.InCell :=
  inferInstanceAs (Decidable (∀ stroke ∈ strokes, _))

def CellIs (dat : LedDat) (i cell : Nat) : Prop :=
  ∀ x < 8, ∀ y < 32, dat.lit (column i + x) y = cell.testBit (8 * y + x)

theorem testBit_clear (cell k b : Nat) : (cell ^^^ (cell &&& 2 ^ k)).testBit b = if k = b then false else cell.testBit b := by
  rw [Nat.testBit_xor, Nat.testBit_and, Nat.testBit_two_pow]
  by_cases heq : k = b <;> simp [heq]

theorem testBit_set (cell k b : Nat) : (cell ||| 2 ^ k).testBit b = if k = b then true else cell.testBit b := by
  rw [Nat.testBit_or, Nat.testBit_two_pow]
  by_cases heq : k = b <;> simp [heq]

theorem CellIs.draw (hcell : CellIs dat i cell) (hin : strokes.InCell) (hc : c ≠ .black) :
    CellIs ((strokes.moved (column i) c).run dat) i (strokes.paint cell) := by
  induction strokes generalizing dat cell with
  | nil => exact hcell
  | cons stroke strokes ih =>
    obtain ⟨⟨hx, hy⟩, hin⟩ := List.forall_mem_cons.1 hin
    refine ih (fun x' hx' y' hy' => ?_) hin
    have hdot : (column i + stroke.1 = column i + x' ∧ stroke.2.1 = y') ↔ 8 * stroke.2.1 + stroke.1 = 8 * y' + x' := by omega
    rw [lit_drawPixel dat _ _ _ hy hy', hcell x' hx' y' hy', if_congr hdot rfl rfl]
    have hcolor : decide ((if stroke.2.2 = .black then ColorDef.black else c) ≠ .black) = decide (stroke.2.2 ≠ .black) := by
      split_ifs with hblack
      · rw [hblack]
      · rw [decide_eq_true hc, decide_eq_true hblack]
    dsimp only
    rw [hcolor]
    by_cases hblack : stroke.2.2 = .black
    · rw [if_pos hblack, testBit_clear, decide_eq_false (not_not.2 hblack)]
    · rw [if_neg hblack, testBit_set, decide_eq_true hblack]

theorem column_apart (hi : i < 6) (hj : j < 6) (hne : j ≠ i) : column i + 8 ≤ column j ∨ column j + 8 ≤ column i := by
  have hall : ∀ i < 6, ∀ j < 6, j ≠ i → column i + 8 ≤ column j ∨ column j + 8 ≤ column i := by decide
  exact hall i hi j hj hne

theorem CellIs.keep (hcell : CellIs dat j cell) (hin : strokes.InCell) (hi : i < 6) (hj : j < 6) (hne : j ≠ i) :
    CellIs ((strokes.moved (column i) c).run dat) j cell := by
  have hapart := column_apart hi hj hne
  induction strokes generalizing dat with
  | nil => exact hcell
  | cons stroke strokes ih =>
    obtain ⟨⟨hx, hy⟩, hin⟩ := List.forall_mem_cons.1 hin
    refine ih (fun x' hx' y' hy' => ?_) hin
    rw [lit_drawPixel dat _ _ _ hy hy']
    dsimp only
    rw [if_neg (by omega)]
    exact hcell x' hx' y' hy'

/-! ## Digits -/

theorem morph_moved (column d : Nat) (c : ColorDef) : morph column line2 c d = (morph 0 line2 .red d).moved column c := by
  by_cases hd : d < 10
  · interval_cases d <;> rfl
  · have hnone : ∀ column c, morph column line2 c d = [] := fun column c => by
      unfold morph
      split <;> first | omega | rfl
    rw [hnone, hnone]
    rfl

theorem drawNum_moved (column d : Nat) (c : ColorDef) : drawNum column line2 c d = (drawNum 0 line2 .red d).moved column c := by
  by_cases hd : d < 10
  · interval_cases d <;> rfl
  · have hnone : ∀ column c, drawNum column line2 c d = [] := fun column c => by
      unfold drawNum segments
      split <;> first | omega | rfl
    rw [hnone, hnone]
    rfl

theorem digits_inCell : (∀ d < 10, (morph 0 line2 .red d).InCell) ∧ ∀ d < 10, (drawNum 0 line2 .red d).InCell := by
  decide +kernel

theorem morph_inCell (d : Nat) : (morph 0 line2 .red d).InCell := by
  by_cases hd : d < 10
  · exact digits_inCell.1 d hd
  · unfold morph
    split <;> first | omega | exact nofun

theorem drawNum_inCell (d : Nat) : (drawNum 0 line2 .red d).InCell := by
  by_cases hd : d < 10
  · exact digits_inCell.2 d hd
  · unfold drawNum segments
    split <;> first | omega | exact nofun

def glyph (d : Nat) : Nat := (drawNum 0 line2 .red d).paint 0

/-- What `morph0` makes of a digit. -/
def ghost (d : Nat) : Nat := (morph 0 line2 .red 0).paint (glyph d)

/-- Each animation played on its digit ends in the next one, `morph0` on a 9 and on a 5 in a 0; `morph1` ends in a 1 also on what `morph0` has left of a 2 or a 3, and that of a 2 is no 0. -/
theorem morph_ends : (∀ d < 9, (morph 0 line2 .red (d + 1)).paint (glyph d) = glyph (d + 1)) ∧
    (ghost 9 = glyph 0 ∧ ghost 5 = glyph 0) ∧
    ((morph 0 line2 .red 1).paint (ghost 2) = glyph 1 ∧ (morph 0 line2 .red 1).paint (ghost 3) = glyph 1) ∧
    ∃ x < 8, ∃ y < 32, (ghost 2).testBit (8 * y + x) ≠ (glyph 0).testBit (8 * y + x) := by
  decide +kernel

theorem morph_succ (hd : d < 9) : (morph 0 line2 .red (d + 1)).paint (glyph d) = glyph (d + 1) := morph_ends.1 d hd

theorem ghost_nine : ghost 9 = glyph 0 := morph_ends.2.1.1

theorem ghost_five : ghost 5 = glyph 0 := morph_ends.2.1.2

theorem morph1_ghost : (morph 0 line2 .red 1).paint (ghost 2) = glyph 1 ∧ (morph 0 line2 .red 1).paint (ghost 3) = glyph 1 :=
  morph_ends.2.2.1

theorem ghost_two : ∃ x < 8, ∃ y < 32, (ghost 2).testBit (8 * y + x) ≠ (glyph 0).testBit (8 * y + x) := morph_ends.2.2.2

theorem showsTime_iff_cells (hc : c ≠ .black) : ShowsTime dat pdt c ↔ ∀ i < 6, CellIs dat i (glyph (pdt.digit i)) := by
  have hblank : ∀ i, CellIs ((drawNum (column i) line2 c (pdt.digit i)).run fun _ _ => false) i (glyph (pdt.digit i)) := by
    intro i
    rw [drawNum_moved]
    refine CellIs.draw (fun x _ y _ => ?_) (drawNum_inCell _) hc
    rw [Nat.zero_testBit]
    rfl
  refine forall₂_congr fun i _ => ⟨fun h x hx y hy => ?_, fun h x hx y hy => ?_⟩
  · rw [h x hx y hy, hblank i x hx y hy]
  · rw [h x hx y hy, hblank i x hx y hy]

/-! ## One call -/

def Holds (s : LedClock) (i d cell : Nat) : Prop := s.datArray i = d ∧ CellIs s.dat i cell

def nextCell (pdt : DispTime) (i d cell : Nat) : Nat :=
  if d = pdt.digit i then cell else (morph 0 line2 .red (pdt.digit i)).paint cell

theorem Holds.keep (h : Holds s j d cell) (hi : i < 6) (hj : j < 6) (hne : j ≠ i) : Holds (s.updateDigit pdt c i) j d cell := by
  unfold LedClock.updateDigit
  split_ifs with heq
  · exact h
  · refine ⟨(Function.update_of_ne hne ..).trans h.1, ?_⟩
    rw [morph_moved]
    exact h.2.keep (morph_inCell _) hi hj hne

variable (pdt) in
theorem Holds.update (h : Holds s i d cell) (hc : c ≠ .black) :
    Holds (s.updateDigit pdt c i) i (pdt.digit i) (nextCell pdt i d cell) := by
  unfold LedClock.updateDigit nextCell
  rw [h.1]
  split_ifs with heq
  · exact ⟨h.1.trans heq, h.2⟩
  · refine ⟨Function.update_self .., ?_⟩
    rw [morph_moved]
    exact h.2.draw (morph_inCell _) hc

variable (pdt) in
theorem Holds.updates (l : List Nat) (h : Holds s j d cell) (hc : c ≠ .black) (hj : j < 6) (hnodup : l.Nodup) (hl : ∀ i ∈ l, i < 6) :
    Holds (l.foldl (LedClock.updateDigit pdt c) s) j (if j ∈ l then pdt.digit j else d)
      (if j ∈ l then nextCell pdt j d cell else cell) := by
  induction l generalizing s d cell with
  | nil => exact h
  | cons i l ih =>
    obtain ⟨hi, hlater⟩ := List.forall_mem_cons.1 hl
    obtain ⟨hout, hrest⟩ := List.nodup_cons.1 hnodup
    rw [List.foldl_cons]
    by_cases heq : j = i
    · subst heq
      have := ih (h.update pdt hc) hrest hlater
      rw [if_pos List.mem_cons_self, if_pos List.mem_cons_self]
      rwa [if_neg hout, if_neg hout] at this
    · have hmem : j ∈ i :: l ↔ j ∈ l := by simp [heq]
      rw [if_congr hmem rfl rfl, if_congr hmem rfl rfl]
      exact ih (h.keep hi hj heq) hrest hlater

/-! ## The first call -/

theorem disp8x16_dark {k px py : Nat} {val : List Nat} (hdat : ∀ row < 96, dat row k = false)
    (hval : 8 * px ≤ k → k < 8 * px + 8 → ∀ r, (val.getD r 0).testBit (k - 8 * px) = false) :
    ∀ row < 96, disp8x16 dat px py val dotColor row k = false := by
  unfold disp8x16
  induction dotColor.planes generalizing dat with
  | nil => exact hdat
  | cons plane planes ih =>
    refine ih fun row hrow => ?_
    dsimp only
    split_ifs with hin
    · exact hval hin.2.2.1 hin.2.2.2 _
    · exact hdat row hrow

theorem dispSymbol_dark (dat : LedDat) (dotColor : ColorDef) (hi : i < 6) :
    CellIs (dispSymbol (clearBackground dat) dotColor) i 0 := by
  intro x hx y hy
  have hgap : ∀ r, (gap.getD r 0).testBit 7 = false := fun r => by
    by_cases hr : r < 16
    · have hall : ∀ r < 16, (gap.getD r 0).testBit 7 = false := by decide
      exact hall r hr
    · rw [List.getD_eq_default _ _ (Nat.le_of_not_lt hr), Nat.zero_testBit]
  have hcolumn : column i + x < 16 ∨ 24 ≤ column i + x ∧ column i + x < 40 ∨ 47 ≤ column i + x := by
    have hall : ∀ i < 6, column i + 8 ≤ 16 ∨ 24 ≤ column i ∧ column i + 8 ≤ 40 ∨ 47 ≤ column i := by decide
    have := hall i hi
    omega
  have hdark : ∀ row < 96, dispSymbol (clearBackground dat) dotColor row (column i + x) = false := by
    refine disp8x16_dark (disp8x16_dark (fun row hrow => if_pos hrow) fun hlo hhi => ?_) fun hlo hhi => ?_
    · omega
    · rw [show column i + x - 8 * 5 = 7 by omega]
      exact hgap
  rw [LedDat.lit, hdark _ (by omega), hdark _ (by omega), hdark _ (by omega), Nat.zero_testBit]
  rfl

variable (pdt) in
theorem CellIs.drawNums (l : List Nat) (h : CellIs dat j cell) (hc : c ≠ .black) (hj : j < 6) (hnodup : l.Nodup)
    (hl : ∀ i ∈ l, i < 6) :
    CellIs (Strokes.run (l.flatMap fun i => drawNum (column i) line2 c (pdt.digit i)) dat) j
      (if j ∈ l then (drawNum 0 line2 .red (pdt.digit j)).paint cell else cell) := by
  induction l generalizing dat cell with
  | nil => exact h
  | cons i l ih =>
    obtain ⟨hi, hlater⟩ := List.forall_mem_cons.1 hl
    obtain ⟨hout, hrest⟩ := List.nodup_cons.1 hnodup
    rw [List.flatMap_cons, Strokes.run, List.foldl_append, drawNum_moved]
    by_cases heq : j = i
    · subst heq
      have := ih (h.draw (drawNum_inCell (pdt.digit j)) hc) hrest hlater
      rw [if_pos List.mem_cons_self]
      rwa [if_neg hout] at this
    · have hmem : j ∈ i :: l ↔ j ∈ l := by simp [heq]
      rw [if_congr hmem rfl rfl]
      exact ih (h.keep (drawNum_inCell _) hi hj heq) hrest hlater

/-! ## Successive seconds -/

theorem hour_step (t : Nat) :
    (wallClock (t + 1)).hour = (wallClock t).hour ∧ (t + 1) / 86400 = t / 86400 ∨
      (wallClock (t + 1)).hour = (wallClock t).hour + 1 ∧ (t + 1) / 86400 = t / 86400 ∨
      (wallClock (t + 1)).hour = 0 ∧ (wallClock t).hour = 23 ∧ (t + 1) / 86400 = t / 86400 + 1 := by
  have hdays : ∀ t, t / 86400 = t / 3600 / 24 := fun t => by rw [Nat.div_div_eq_div_mul]
  have hhours : (t + 1) / 3600 = t / 3600 ∨ (t + 1) / 3600 = t / 3600 + 1 := by omega
  simp only [wallClock, hdays]
  omega

def DigitStep (d d' : Nat) : Prop := d' = d ∨ d' = d + 1 ∧ d < 9 ∨ d' = 0 ∧ (d = 9 ∨ d = 5)

theorem digitStep_sixty (v v' : Nat) (h : v' = v ∨ v' = v + 1 ∧ v < 59 ∨ v' = 0 ∧ v = 59) :
    DigitStep (v / 10) (v' / 10) ∧ DigitStep (v % 10) (v' % 10) := by
  unfold DigitStep
  rcases h with rfl | ⟨rfl, hlt⟩ | ⟨rfl, rfl⟩
  · exact ⟨.inl rfl, .inl rfl⟩
  · constructor <;> omega
  · decide

theorem digitStep_hours {v v' : Nat} (h : v' = v ∨ v' = v + 1) (hlt : v < 24) :
    DigitStep (v / 10) (v' / 10) ∧ DigitStep (v % 10) (v' % 10) := by
  unfold DigitStep
  rcases h with rfl | rfl
  · exact ⟨.inl rfl, .inl rfl⟩
  · constructor <;> omega

theorem digit_step (t : Nat) (hi : i < 6) :
    DigitStep ((wallClock t).digit i) ((wallClock (t + 1)).digit i) ∨
      (wallClock (t + 1)).hour = 0 ∧ (wallClock t).hour = 23 ∧ i < 2 := by
  have hhour : DigitStep ((wallClock t).hour / 10) ((wallClock (t + 1)).hour / 10) ∧
      DigitStep ((wallClock t).hour % 10) ((wallClock (t + 1)).hour % 10) ∨
      (wallClock (t + 1)).hour = 0 ∧ (wallClock t).hour = 23 := by
    have hlt : (wallClock t).hour < 24 := Nat.mod_lt _ (by decide)
    rcases hour_step t with ⟨hsame, -⟩ | ⟨hsucc, -⟩ | ⟨hzero, hlast, -⟩
    · exact .inl (digitStep_hours (.inl hsame) hlt)
    · exact .inl (digitStep_hours (.inr hsucc) hlt)
    · exact .inr ⟨hzero, hlast⟩
  have hmin := digitStep_sixty (wallClock t).min (wallClock (t + 1)).min (by
    simp only [wallClock]
    omega)
  have hsec := digitStep_sixty (wallClock t).sec (wallClock (t + 1)).sec (by
    simp only [wallClock]
    omega)
  interval_cases i
  · exact hhour.imp (·.1) fun h => ⟨h.1, h.2, by decide⟩
  · exact hhour.imp (·.2) fun h => ⟨h.1, h.2, by decide⟩
  · exact .inl hmin.1
  · exact .inl hmin.2
  · exact .inl hsec.1
  · exact .inl hsec.2

def Haunted (start t i : Nat) : Prop :=
  start / 86400 ≠ t / 86400 ∧ (i = 0 ∧ (wallClock t).hour < 10 ∨ i = 1 ∧ (wallClock t).hour = 0)

instance Haunted.decidable (start t i : Nat) : Decidable (Haunted start t i) := inferInstanceAs (Decidable (_ ∧ _))

def cellAt (start t i : Nat) : Nat := if Haunted start t i then ghost (2 + i) else glyph ((wallClock t).digit i)

theorem Haunted.digit {t : Nat} (h : Haunted start t i) : (wallClock t).digit i = 0 := by
  rcases h.2 with ⟨rfl, hhour⟩ | ⟨rfl, hhour⟩ <;> simp only [DispTime.digit] <;> omega

theorem Haunted.of_midnight {t : Nat} (hle : start ≤ t) (hzero : (wallClock (t + 1)).hour = 0) (hlast : (wallClock t).hour = 23)
    (hhours : i < 2) : Haunted start (t + 1) i := by
  have hdays : start / 86400 ≤ t / 86400 := Nat.div_le_div_right hle
  have hnext : (t + 1) / 86400 = t / 86400 + 1 := by
    rcases hour_step t with ⟨hsame, -⟩ | ⟨hsucc, -⟩ | ⟨-, -, hnext⟩
    · omega
    · omega
    · exact hnext
  refine ⟨by rw [hnext]; exact Nat.ne_of_lt (Nat.lt_succ_of_le hdays), ?_⟩
  rw [hzero]
  omega

theorem Haunted.ends {t : Nat} (h : Haunted start t i) (hle : start ≤ t) (hend : ¬ Haunted start (t + 1) i) :
    (wallClock (t + 1)).digit i = 1 := by
  have hhour := hour_step t
  have hdays : start / 86400 ≤ t / 86400 := Nat.div_le_div_right hle
  unfold Haunted at h hend
  rcases h.2 with ⟨rfl, hten⟩ | ⟨rfl, hzero⟩ <;> simp only [DispTime.digit] <;> omega

theorem Haunted.begins {t : Nat} (h : Haunted start (t + 1) i) (hnone : ¬ Haunted start t i) : (wallClock t).digit i = 2 + i := by
  have hhour := hour_step t
  unfold Haunted at h hnone
  rcases h.2 with ⟨rfl, hten⟩ | ⟨rfl, hzero⟩ <;> simp only [DispTime.digit] <;> omega

theorem nextCell_cellAt {t : Nat} (hle : start ≤ t) (hi : i < 6) :
    nextCell (wallClock (t + 1)) i ((wallClock t).digit i) (cellAt start t i) = cellAt start (t + 1) i := by
  unfold nextCell cellAt
  by_cases hnow : Haunted start t i <;> by_cases hnext : Haunted start (t + 1) i
  · rw [if_pos (hnow.digit.trans hnext.digit.symm), if_pos hnow, if_pos hnext]
  · have hone := hnow.ends hle hnext
    rw [if_neg (by rw [hnow.digit, hone]; decide), if_pos hnow, if_neg hnext, hone]
    rcases hnow.2 with ⟨rfl, -⟩ | ⟨rfl, -⟩
    · exact morph1_ghost.1
    · exact morph1_ghost.2
  · rw [if_neg (by rw [hnext.begins hnow, hnext.digit]; omega), if_neg hnow, if_pos hnext, hnext.begins hnow, hnext.digit, ghost]
  · rw [if_neg hnow, if_neg hnext]
    rcases digit_step t hi with (hsame | ⟨hsucc, hnine⟩ | ⟨hzero, hlast⟩) | ⟨hzero, hlast, hhours⟩
    · rw [if_pos hsame.symm, hsame]
    · rw [if_neg (by omega), hsucc, morph_succ hnine]
    · rw [if_neg (by omega), hzero]
      rcases hlast with hlast | hlast <;> rw [hlast]
      · exact ghost_nine
      · exact ghost_five
    · exact absurd (Haunted.of_midnight hle hzero hlast hhours) hnext

/-! ## Every call -/

theorem updates_bInit (l : List Nat) : (l.foldl (LedClock.updateDigit pdt c) s).bInit = s.bInit := by
  induction l generalizing s with
  | nil => rfl
  | cons i l ih =>
    rw [List.foldl_cons, ih, LedClock.updateDigit]
    split_ifs <;> rfl

theorem LedClock.after_succ (s : LedClock) (c : ColorDef) (start calls : Nat) :
    s.after c start (calls + 1) = morphUpdate (s.after c start calls) (wallClock (start + calls)) c := by
  rw [after, List.range_succ, List.foldl_append]
  rfl

theorem holds_after (start : Nat) (hinit : s.bInit = false) (hc : c ≠ .black) (calls : Nat) :
    (s.after c start (calls + 1)).bInit = true ∧
      ∀ i < 6, Holds (s.after c start (calls + 1)) i ((wallClock (start + calls)).digit i) (cellAt start (start + calls) i) := by
  induction calls with
  | zero =>
    rw [LedClock.after_succ]
    have hfirst : s.after c start 0 = s := rfl
    rw [hfirst, morphUpdate, hinit]
    refine ⟨rfl, fun i hi => ⟨rfl, ?_⟩⟩
    have hglyph : cellAt start (start + 0) i = glyph ((wallClock (start + 0)).digit i) := if_neg fun h => h.1 rfl
    have hdrawn := (dispSymbol_dark s.dat s.dotColor hi).drawNums (wallClock (start + 0)) (List.range 6) hc hi
      List.nodup_range fun j hj => List.mem_range.1 hj
    rw [if_pos (List.mem_range.2 hi)] at hdrawn
    rw [hglyph]
    exact hdrawn
  | succ calls ih =>
    obtain ⟨hbInit, hholds⟩ := ih
    rw [LedClock.after_succ, morphUpdate, hbInit, if_pos rfl]
    refine ⟨(updates_bInit _).trans hbInit, fun i hi => ?_⟩
    have hupdated := (hholds i hi).updates (wallClock (start + calls + 1)) [5, 4, 3, 2, 1, 0] hc hi (by decide)
      (by decide)
    have hmem : i ∈ [5, 4, 3, 2, 1, 0] := by
      simp only [List.mem_cons]
      omega
    rw [if_pos hmem, if_pos hmem, nextCell_cellAt (Nat.le_add_right start calls) hi] at hupdated
    exact hupdated

/-- The clock shows the time until the first midnight, and after it from ten o'clock to the next midnight. -/
theorem showsTime_after (hinit : s.bInit = false) (hc : c ≠ .black) :
    ShowsTime (s.after c start (calls + 1)).dat (wallClock (start + calls)) c ↔
      (start + calls) / 86400 = start / 86400 ∨ 10 ≤ (wallClock (start + calls)).hour := by
  obtain ⟨-, hholds⟩ := holds_after start hinit hc calls
  rw [showsTime_iff_cells hc]
  constructor
  · intro hcells
    by_contra hlate
    have hhaunted : Haunted start (start + calls) 0 := by
      unfold Haunted
      omega
    obtain ⟨x, hx, y, hy, hne⟩ := ghost_two
    have hshown := (hholds 0 (by decide)).2 x hx y hy
    rw [hcells 0 (by decide) x hx y hy, cellAt, if_pos hhaunted, hhaunted.digit] at hshown
    exact hne hshown.symm
  · intro hgood i hi
    have hglyph : cellAt start (start + calls) i = glyph ((wallClock (start + calls)).digit i) := by
      refine if_neg fun hhaunted => ?_
      unfold Haunted at hhaunted
      omega
    rw [← hglyph]
    exact (hholds i hi).2

def LedClock.off : LedClock := ⟨fun _ _ => false, .red, false, fun _ => 0⟩

theorem showsTime_after_day : ShowsTime (LedClock.off.after .green 0 86400).dat (wallClock 86399) .green := by
  have hday : ShowsTime (LedClock.off.after .green 0 (86399 + 1)).dat (wallClock (0 + 86399)) .green ↔ _ := showsTime_after rfl (by decide)
  rw [Nat.zero_add] at hday
  exact hday.2 (.inl (by decide))

/-- Started one second before midnight, the clock does not show the midnight. -/
theorem showsTime_fails : ¬ ShowsTime (LedClock.off.after .green 86399 2).dat (wallClock 86400) .green := by
  intro hshows
  have hdot := hshows 0 (by decide) 7 (by decide) 10 (by decide)
  revert hdot
  decide +kernel

end RtThread
