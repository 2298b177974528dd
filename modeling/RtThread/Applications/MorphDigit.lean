import Mathlib

/-!
# The digits of the LED clock

`ledmatrix.c` and `morphdigit.c`. A change of a digit is animated: the animation that ends in a digit is written for the digit in front of it. What a function draws is the list of its calls of `draw_pixel`; the delays between them are left out.
-/

namespace RtThread

inductive ColorDef
  | red | green | blue | yellow | purple | cyan | white | black
  deriving DecidableEq

/-- `dat_rgb_t`, in rows of 64 dots: 32 rows of red, then 32 of green, then 32 of blue. -/
abbrev LedDat := Nat → Nat → Bool

namespace LedDat

def write (dat : LedDat) (row x : Nat) (bit : Bool) : LedDat := Function.update dat row (Function.update (dat row) x bit)

def lit (dat : LedDat) (x y : Nat) : Bool := dat (31 - y) x || dat (32 + (31 - y)) x || dat (64 + (31 - y)) x

end LedDat

def ColorDef.planes : ColorDef → List Nat
  | .red => [0]
  | .green => [32]
  | .blue => [64]
  | .yellow => [0, 32]
  | .purple => [0, 64]
  | .cyan => [64, 32]
  | .white => [0, 64, 32]
  | .black => []

def drawPixel (dat : LedDat) (x y : Nat) (c : ColorDef) : LedDat :=
  if c = .black then [0, 64, 32].foldl (fun dat plane => dat.write (plane + (31 - y)) x false) dat
  else c.planes.foldl (fun dat plane => dat.write (plane + (31 - y)) x true) dat

/-- Calls of `draw_pixel`, one after the other. -/
abbrev Strokes := List (Nat × Nat × ColorDef)

def Strokes.run (strokes : Strokes) (dat : LedDat) : LedDat :=
  strokes.foldl (fun dat stroke => drawPixel dat stroke.1 stroke.2.1 stroke.2.2) dat

def drawLineRgb (x y deltax deltay : Nat) (c : ColorDef) : Strokes :=
  if deltax = 0 then (List.range deltay).map fun i => (x, y + i, c)
  else if deltay = 0 then (List.range deltax).map fun i => (x + i, y, c)
  else []

def segHeight : Nat := 5

def segWidth : Nat := segHeight

inductive Segment
  | sA | sB | sC | sD | sE | sF | sG
  deriving DecidableEq

/-- The segments that `draw_num` draws. -/
def segments : Nat → List Segment
  | 0 => [.sA, .sB, .sC, .sD, .sE, .sF]
  | 1 => [.sB, .sC]
  | 2 => [.sA, .sB, .sD, .sE, .sG]
  | 3 => [.sA, .sB, .sC, .sD, .sG]
  | 4 => [.sB, .sC, .sF, .sG]
  | 5 => [.sA, .sC, .sD, .sF, .sG]
  | 6 => [.sA, .sC, .sD, .sE, .sF, .sG]
  | 7 => [.sA, .sB, .sC]
  | 8 => [.sA, .sB, .sC, .sD, .sE, .sF, .sG]
  | 9 => [.sA, .sB, .sC, .sD, .sF, .sG]
  | _ => []

section offset

variable (xOffset yOffset : Nat) (mColor : ColorDef)

def drawPixelOffset (x y : Nat) (c : ColorDef) : Strokes := [(xOffset + x, yOffset + y, c)]

def drawLineOffset (x y deltax deltay : Nat) (c : ColorDef) : Strokes :=
  drawLineRgb (xOffset + x) (yOffset + y) deltax deltay c

def drawSeg : Segment → Strokes
  | .sA => drawLineOffset xOffset yOffset 2 (segHeight * 2 + 3) segWidth 0 mColor
  | .sB => drawLineOffset xOffset yOffset (segWidth + 2) (segHeight + 3) 0 segHeight mColor
  | .sC => drawLineOffset xOffset yOffset (segWidth + 2) 2 0 segHeight mColor
  | .sD => drawLineOffset xOffset yOffset 2 1 segWidth 0 mColor
  | .sE => drawLineOffset xOffset yOffset 1 2 0 segHeight mColor
  | .sF => drawLineOffset xOffset yOffset 1 (segHeight + 3) 0 segHeight mColor
  | .sG => drawLineOffset xOffset yOffset 2 (segHeight + 2) segWidth 0 mColor

def drawNum (num : Nat) : Strokes := (segments num).flatMap (drawSeg xOffset yOffset mColor)

/-- "9 -> 0, 5 -> 0" -/
def morph0 : Strokes :=
  (List.range segWidth).flatMap fun i =>
    drawPixelOffset xOffset yOffset (segWidth + 1 - i) (segHeight + 2) .black ++
    drawPixelOffset xOffset yOffset 1 (segHeight + 1 - i) mColor ++
    drawPixelOffset xOffset yOffset (segWidth + 2) (segHeight * 2 + 2 - i) mColor

def morph1 : Strokes :=
  (List.range (segWidth + 1)).flatMap fun i =>
    drawLineOffset xOffset yOffset (1 + i) (segHeight + 3) 0 segHeight .black ++
    drawLineOffset xOffset yOffset (2 + i) (segHeight + 3) 0 segHeight mColor ++
    drawLineOffset xOffset yOffset (1 + i) 2 0 segHeight .black ++
    drawLineOffset xOffset yOffset (2 + i) 2 0 segHeight mColor ++
    drawPixelOffset xOffset yOffset (2 + i) 1 .black ++
    drawPixelOffset xOffset yOffset (2 + i) (segHeight + 2) .black ++
    drawPixelOffset xOffset yOffset (2 + i) (segHeight * 2 + 3) .black

def morph2 : Strokes :=
  (List.range (segWidth + 1)).flatMap fun i =>
    (if i < segWidth then
      drawPixelOffset xOffset yOffset (segWidth + 1 - i) (segHeight * 2 + 3) mColor ++
      drawPixelOffset xOffset yOffset (segWidth + 1 - i) (segHeight + 2) mColor ++
      drawPixelOffset xOffset yOffset (segWidth + 1 - i) 1 mColor
    else []) ++
    drawLineOffset xOffset yOffset (segWidth + 2 - i) 2 0 segHeight .black ++
    drawLineOffset xOffset yOffset (segWidth + 1 - i) 2 0 segHeight mColor

def morph3 : Strokes :=
  (List.range (segWidth + 1)).flatMap fun i =>
    drawLineOffset xOffset yOffset (1 + i) 2 0 segHeight .black ++
    drawLineOffset xOffset yOffset (2 + i) 2 0 segHeight mColor

def morph4 : Strokes :=
  (List.range segWidth).flatMap fun i =>
    drawPixelOffset xOffset yOffset (segWidth + 1 - i) (segHeight * 2 + 3) .black ++
    drawPixelOffset xOffset yOffset 1 (segHeight * 2 + 2 - i) mColor ++
    drawPixelOffset xOffset yOffset (2 + i) 1 .black

def morph5 : Strokes :=
  (List.range segWidth).flatMap fun i =>
    drawPixelOffset xOffset yOffset (segWidth + 2) (segHeight + 3 + i) .black ++
    drawPixelOffset xOffset yOffset (segWidth + 1 - i) 1 mColor ++
    drawPixelOffset xOffset yOffset (segWidth + 1 - i) (segHeight * 2 + 3) mColor

def morph6 : Strokes :=
  (List.range (segWidth + 1)).flatMap fun i =>
    drawLineOffset xOffset yOffset (segWidth + 1 - i) 2 0 segHeight mColor ++
    if 0 < i then drawLineOffset xOffset yOffset (segWidth + 2 - i) 2 0 segHeight .black else []

def morph7 : Strokes :=
  (List.range (segWidth + 1)).flatMap fun i =>
    drawLineOffset xOffset yOffset (1 + i) (segHeight + 3) 0 segHeight .black ++
    drawLineOffset xOffset yOffset (2 + i) (segHeight + 3) 0 segHeight mColor ++
    drawLineOffset xOffset yOffset (1 + i) 2 0 segHeight .black ++
    drawLineOffset xOffset yOffset (2 + i) 2 0 segHeight mColor ++
    drawPixelOffset xOffset yOffset (2 + i) 1 .black ++
    drawPixelOffset xOffset yOffset (2 + i) (segHeight + 2) .black

def morph8 : Strokes :=
  (List.range (segWidth + 1)).flatMap fun i =>
    drawLineOffset xOffset yOffset (segWidth + 1 - i) 2 0 segHeight mColor ++
    (if 0 < i then drawLineOffset xOffset yOffset (segWidth + 2 - i) 2 0 segHeight .black else []) ++
    drawLineOffset xOffset yOffset (segWidth + 1 - i) (segHeight + 3) 0 segHeight mColor ++
    (if 0 < i then drawLineOffset xOffset yOffset (segWidth + 2 - i) (segHeight + 3) 0 segHeight .black else []) ++
    if i < segWidth then
      drawPixelOffset xOffset yOffset (segWidth + 1 - i) (segHeight + 2) mColor ++
      drawPixelOffset xOffset yOffset (segWidth + 1 - i) 1 mColor
    else []

def morph9 : Strokes :=
  (List.range (segWidth + 1)).flatMap fun i =>
    drawLineOffset xOffset yOffset (1 + i) 2 0 segHeight .black ++
    drawLineOffset xOffset yOffset (2 + i) 2 0 segHeight mColor

def morph (newValue : Nat) : Strokes :=
  match newValue with
  | 0 => morph0 xOffset yOffset mColor
  | 1 => morph1 xOffset yOffset mColor
  | 2 => morph2 xOffset yOffset mColor
  | 3 => morph3 xOffset yOffset mColor
  | 4 => morph4 xOffset yOffset mColor
  | 5 => morph5 xOffset yOffset mColor
  | 6 => morph6 xOffset yOffset mColor
  | 7 => morph7 xOffset yOffset mColor
  | 8 => morph8 xOffset yOffset mColor
  | 9 => morph9 xOffset yOffset mColor
  | _ => []

end offset

/-! ## The clock -/

/-- `LINE_1`, `LINE_2` -/
def line1 : Nat := 38

def line2 : Nat := 8

/-- The hours, the minutes and the seconds of `disp_time_t`. -/
structure DispTime where
  hour : Nat
  min : Nat
  sec : Nat
  deriving DecidableEq

def DispTime.digit (pdt : DispTime) : Nat → Nat
  | 0 => pdt.hour / 10
  | 1 => pdt.hour % 10
  | 2 => pdt.min / 10
  | 3 => pdt.min % 10
  | 4 => pdt.sec / 10
  | _ => pdt.sec % 10

/-- The first column of a position: `COLUMN_1`, `COLUMN_1 + 8`, `COLUMN_2` and so on. -/
def column : Nat → Nat
  | 0 => 0
  | 1 => 8
  | 2 => 24
  | 3 => 32
  | 4 => 47
  | _ => 55

/-- The first 16 bytes of `gap`, a colon. -/
def gap : List Nat := [0x00, 0x00, 0x00, 0x00, 0x00, 0x00, 0x18, 0x18, 0x00, 0x00, 0x00, 0x00, 0x18, 0x18, 0x00, 0x00]

/-- `disp8x16`: bytes are written below one another; the rows go on from one plane to the next. -/
def disp8x16 (dat : LedDat) (x y : Nat) (val : List Nat) (color : ColorDef) : LedDat :=
  color.planes.foldl (fun dat plane row k =>
    if plane + y ≤ row ∧ row < plane + y + 16 ∧ 8 * x ≤ k ∧ k < 8 * x + 8 then
      (val.getD (row - (plane + y)) 0).testBit (k - 8 * x)
    else dat row k) dat

/-- `disp_background(0, _)` clears `LED_BUFF_SIZE` bytes, which are 96 rows. -/
def clearBackground (dat : LedDat) : LedDat := fun row x => if row < 96 then false else dat row x

/-- `disp_background(1, _)` -/
def dispSymbol (dat : LedDat) (dotColor : ColorDef) : LedDat :=
  disp8x16 (disp8x16 dat 2 line1 gap dotColor) 5 line1 gap dotColor

def morphInit (pdt : DispTime) (mColor : ColorDef) : Strokes :=
  (List.range 6).flatMap fun i => drawNum (column i) line2 mColor (pdt.digit i)

structure LedClock where
  dat : LedDat
  dotColor : ColorDef
  bInit : Bool
  datArray : Nat → Nat

/-- One of the six comparisons of `morph_update`. -/
def LedClock.updateDigit (pdt : DispTime) (c : ColorDef) (s : LedClock) (i : Nat) : LedClock :=
  if s.datArray i = pdt.digit i then s
  else
    { s with
      datArray := Function.update s.datArray i (pdt.digit i)
      dat := (morph (column i) line2 c (pdt.digit i)).run s.dat }

def morphUpdate (s : LedClock) (pdt : DispTime) (c : ColorDef) : LedClock :=
  if s.bInit then [5, 4, 3, 2, 1, 0].foldl (LedClock.updateDigit pdt c) s
  else
    { s with
      bInit := true
      dat := (morphInit pdt c).run (dispSymbol (clearBackground s.dat) s.dotColor)
      datArray := pdt.digit }

def wallClock (seconds : Nat) : DispTime := ⟨seconds / 3600 % 24, seconds / 60 % 60, seconds % 60⟩

def LedClock.after (s : LedClock) (c : ColorDef) (start calls : Nat) : LedClock :=
  (List.range calls).foldl (fun s i => morphUpdate s (wallClock (start + i)) c) s

/-- In every cell, which is 8 columns wide, the dots are those that `draw_num` draws on an empty cell. -/
def ShowsTime (dat : LedDat) (pdt : DispTime) (c : ColorDef) : Prop :=
  ∀ i < 6, ∀ x < 8, ∀ y < 32,
    dat.lit (column i + x) y = ((drawNum (column i) line2 c (pdt.digit i)).run fun _ _ => false).lit (column i + x) y

end RtThread
