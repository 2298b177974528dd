import RtThread.Kernel.Printf

/-!
# Truncated output

Where a buffer is too small `rt_vsnprintf` stores what fits and goes on counting. A field is written in the same way with and without room, but for the sign: `print_number` takes the sign off the width that is left only where it stores the sign. So a field that is padded behind its sign is longer where the sign is not stored, and the result depends on the size of the buffer. The text that is stored does not.
-/

namespace RtThread

open Function

/-! ## The text of a format -/

def signedText (cfg : PrintfConfig) (field : NumberField) (room : Bool) : List Char :=
  let size := (leadingSpaces field).2
  let size := if field.sign.isSome ∧ room then toInt32 (size - 1) else size
  let (padding, size) :=
    if field.flags.left then (([] : List Char), size)
    else (List.replicate size.toNat (if field.flags.zeropad then '0' else ' '), sizeBehind size)
  field.sign.toList ++ specialPrefix cfg field ++ padding ++
    List.replicate (field.precision - field.tmp.length).toNat '0' ++ field.tmp.reverse ++ spaces size.toNat

def numberPiece (cfg : PrintfConfig) (field : NumberField) : Piece Char :=
  ⟨spaces (leadingSpaces field).1, signedText cfg field⟩

def directivePiece (cfg : PrintfConfig) : Directive → Piece Char
  | .text s => .plain s
  | .char left fieldWidth c => .plain (charText left fieldWidth c)
  | .string left fieldWidth precision s => .plain (stringText left fieldWidth precision s)
  | .number num base fieldWidth precision flags => numberPiece cfg (numberField cfg num base fieldWidth precision flags)

/-- The pieces of a format and its arguments, for as many characters as `fuel`. -/
def readFormat (cfg : PrintfConfig) : Nat → List Char → List PrintArg → Option (List (Piece Char))
  | _, [], _ => some []
  | 0, _ :: _, _ => none
  | fuel + 1, c :: fmt, args =>
    if c ≠ '%' then (readFormat cfg fuel fmt args).map (.plain [c] :: ·)
    else
      (readDirective cfg fmt args).bind fun (directive, fmt, args) =>
        (readFormat cfg fuel fmt args).map (directivePiece cfg directive :: ·)

def outputPieces (cfg : PrintfConfig) (fmt : CString) (args : List PrintArg) : Option (List (Piece Char)) :=
  readFormat cfg fmt.val.length fmt.val args

/-- The directives of a format and its arguments; a character that is no directive stands for itself. -/
def readDirectives (cfg : PrintfConfig) : Nat → List Char → List PrintArg → Option (List Directive)
  | _, [], _ => some []
  | 0, _ :: _, _ => none
  | fuel + 1, c :: fmt, args =>
    if c ≠ '%' then (readDirectives cfg fuel fmt args).map (.text [c] :: ·)
    else
      (readDirective cfg fmt args).bind fun (directive, fmt, args) => (readDirectives cfg fuel fmt args).map (directive :: ·)

def formatDirectives (cfg : PrintfConfig) (fmt : CString) (args : List PrintArg) : Option (List Directive) :=
  readDirectives cfg fmt.val.length fmt.val args

def fullOutput (cfg : PrintfConfig) (ds : List Directive) : List Char := Piece.fullText (ds.map (directivePiece cfg))

/-- The padding behind the sign of a number, for a width of `size` that is left. -/
def paddingBehind (left : Bool) (size : Int) : Nat := if left then size.toNat else size.toNat + (sizeBehind size).toNat

/-- The padding that a field has more where its sign is not stored. -/
def Directive.signExcess (cfg : PrintfConfig) : Directive → Int
  | .number num base fieldWidth precision flags =>
    let field := numberField cfg num base fieldWidth precision flags
    let size := (leadingSpaces field).2
    if field.sign.isSome then paddingBehind field.flags.left size - paddingBehind field.flags.left (toInt32 (size - 1)) else 0
  | _ => 0

/-- The padding that the fields have more whose sign stands at or behind offset `size`; the first directive is at offset `n`. -/
def signsBehind (cfg : PrintfConfig) (size : Nat) : Nat → List Directive → Int
  | _, [] => 0
  | n, d :: ds =>
    (if size ≤ n + (directivePiece cfg d).lead.length then d.signExcess cfg else 0) +
      signsBehind cfg size (n + (directivePiece cfg d).text.length) ds

/-- What a buffer of this size is to hold: as much of the text as leaves a cell for the null character behind it. -/
def storedText (full : List Char) (size : Nat) (i : Nat) : Option Char :=
  if i < min full.length (size - 1) then full[i]? else if i = min full.length (size - 1) then some nul else none

def storedAt (buf : Nat) (text : Nat → Option Char) (a : Nat) : Option Char := if buf ≤ a then text (a - buf) else none

/-- The offset of `end`, for a size that is not 0. -/
def endOffset (cfg : PrintfConfig) (buf size : Nat) : Nat := min (size - 1) (2 ^ cfg.wordBits - 1 - buf)

def StaysBelow (cfg : PrintfConfig) (buf size : Nat) (ps : List (Piece Char)) : Prop :=
  (buf : Int) + ((Piece.fullText ps).length + Piece.surplus (endOffset cfg buf size) 0 ps) < (2 ^ cfg.wordBits : Nat)

instance (cfg : PrintfConfig) (buf size : Nat) (ps : List (Piece Char)) : Decidable (StaysBelow cfg buf size ps) :=
  inferInstanceAs (Decidable (_ < _))

variable {cfg : PrintfConfig} {cell : Nat → Option Nat} {last fuel buf size : Nat} {fmt fmt' : List Char} {args args' : List PrintArg}
  {str : Cursor Char} {directive : Directive} {ps : List (Piece Char)}

/-! ## The code writes the pieces -/

theorem printNumber_eq (num : Int) (base : Nat) (s precision : Int) (flags : PrintFlags) :
    printNumber cfg cell str num base s precision flags =
      Piece.write cell str (numberPiece cfg (numberField cfg num base s precision flags)) := by
  rw [printNumber, Piece.write, numberPiece]
  generalize numberField cfg num base s precision flags = field
  dsimp only
  rw [signedText]
  cases hsign : field.sign with
  | none => cases hleft : field.flags.left <;> simp [Cursor.puts_append]
  | some sign => cases hleft : field.flags.left <;> simp [Cursor.puts_append, Cursor.puts_cons]

theorem printDirective_eq (directive : Directive) :
    printDirective cfg cell str directive = Piece.write cell str (directivePiece cfg directive) := by
  cases directive with
  | text | char | string => rfl
  | number num base fieldWidth precision flags => exact printNumber_eq ..

theorem vsnprintfLoop_eq :
    vsnprintfLoop cfg cell fuel fmt args str = (readFormat cfg fuel fmt args).map (Piece.writeAll cell str) := by
  induction fuel generalizing fmt args str with
  | zero => cases fmt <;> rfl
  | succ fuel ih =>
    cases fmt with
    | nil => rfl
    | cons c fmt =>
      rw [vsnprintfLoop, readFormat]
      split
      · rw [ih, Option.map_map]
        rfl
      · cases readDirective cfg fmt args with
        | none => rfl
        | some r =>
          obtain ⟨directive, fmt, args⟩ := r
          rw [Option.bind_some, Option.bind_some]
          dsimp only
          rw [ih, printDirective_eq, Option.map_map]
          rfl

/-! ## What is stored -/

theorem endAddress_eq (hbuf : buf < 2 ^ cfg.wordBits) (hsize : 1 ≤ size) (hword : size < 2 ^ cfg.wordBits) :
    endAddress cfg buf size = buf + endOffset cfg buf size := by
  have hsum : buf + size + (2 ^ cfg.wordBits - 1) = buf + size - 1 + 2 ^ cfg.wordBits := by omega
  rw [endAddress, endOffset, hsum, Nat.add_mod_right]
  by_cases hspace : buf + size - 1 < 2 ^ cfg.wordBits
  · rw [Nat.mod_eq_of_lt hspace, if_neg (by omega)]
    omega
  · rw [Nat.mod_eq_sub_mod (Nat.le_of_not_lt hspace), Nat.mod_eq_of_lt (by omega), if_pos (by omega)]
    omega

theorem rtVsnprintf_pieces {fmt : CString} (hpieces : outputPieces cfg fmt args = some ps) :
    rtVsnprintf cfg buf size fmt args =
      some (toInt32 (Piece.writeAll (Cursor.window (2 ^ cfg.wordBits) buf (endAddress cfg buf size)) .start ps).pos,
        update (Piece.writeAll (Cursor.window (2 ^ cfg.wordBits) buf (endAddress cfg buf size)) .start ps).cells
          ((Cursor.window (2 ^ cfg.wordBits) buf (endAddress cfg buf size)
            (Piece.writeAll (Cursor.window (2 ^ cfg.wordBits) buf (endAddress cfg buf size)) .start ps).pos).getD (endAddress cfg buf size))
          (some nul)) := by
  rw [rtVsnprintf, vsnprintfLoop_eq]
  change ((outputPieces cfg fmt args).map _).map _ = _
  rw [hpieces]
  rfl

theorem pos_upTo (last : Nat) (ps : List (Piece Char)) :
    ((Piece.writeAll (Cursor.upTo last) Cursor.start ps).pos : Int) = (Piece.fullText ps).length + Piece.surplus last 0 ps := by
  have hstart : Cursor.Holds last (Cursor.start : Cursor Char) [] := Cursor.holds_start
  have hpos := Piece.pos_writeAll hstart ps
  rw [hpos]
  exact congrArg (· + _) (Int.zero_add _)

theorem writeAll_text (last : Nat) (ps : List (Piece Char)) :
    (Piece.writeAll (Cursor.upTo last) Cursor.start ps).Holds last (Piece.fullText ps) := by
  have hstart : Cursor.Holds last (Cursor.start : Cursor Char) [] := Cursor.holds_start
  have hholds := Piece.writeAll_holds hstart ps
  rwa [List.nil_append] at hholds

theorem update_storedText {str : Cursor Char} {full : List Char} (h : str.Holds last full) :
    update str.cells (min str.pos last) (some nul) = storedText full (last + 1) := by
  have hend : min str.pos last = min full.length last := by
    rcases h.pos with heq | ⟨hbehind, hlong⟩
    · rw [heq]
    · omega
  rw [hend]
  funext i
  rw [storedText, Nat.add_sub_cancel]
  by_cases hi : i = min full.length last
  · subst hi
    rw [update_self, if_neg (Nat.lt_irrefl _), if_pos rfl]
  · rw [update_of_ne hi, h.cells i, if_neg hi]
    split_ifs with hle hlt hlt
    · rfl
    · exact List.getElem?_eq_none (by omega)
    · omega
    · rfl

theorem rtVsnprintf_eq {fmt : CString} (hpieces : outputPieces cfg fmt args = some ps) (hbuf : buf < 2 ^ cfg.wordBits)
    (hsize : 1 ≤ size) (hword : size < 2 ^ cfg.wordBits) (hstays : StaysBelow cfg buf size ps) :
    rtVsnprintf cfg buf size fmt args =
      some (toInt32 ((Piece.fullText ps).length + Piece.surplus (endOffset cfg buf size) 0 ps),
        storedAt buf (storedText (Piece.fullText ps) (endOffset cfg buf size + 1))) := by
  rw [StaysBelow, ← pos_upTo] at hstays
  rw [rtVsnprintf_pieces hpieces, endAddress_eq hbuf hsize hword, ← pos_upTo]
  have hholds := writeAll_text (endOffset cfg buf size) ps
  generalize endOffset cfg buf size = last at *
  have hspace : buf + (Piece.writeAll (Cursor.upTo last) Cursor.start ps).pos < 2 ^ cfg.wordBits := by
    exact_mod_cast hstays
  have hshows := Piece.writeAll_shows (Cursor.shows_start buf) ps (.inl hspace)
  generalize Piece.writeAll (Cursor.upTo last) Cursor.start ps = str at hholds hshows hspace
  generalize Piece.writeAll _ _ ps = str' at hshows
  have hcell : (Cursor.window (2 ^ cfg.wordBits) buf (buf + last) str.pos).getD (buf + last) = buf + min str.pos last := by
    rw [Cursor.window_of_lt hspace, Cursor.upTo]
    split_ifs with hle
    · rw [Nat.min_eq_left hle]
      rfl
    · rw [Nat.min_eq_right (by omega)]
      rfl
  rw [hshows.pos, hcell, ← update_storedText hholds]
  refine congrArg some (congrArg _ (funext fun a => ?_))
  rw [storedAt]
  by_cases ha : a = buf + min str.pos last
  · rw [ha, update_self, if_pos (Nat.le_add_right ..), Nat.add_sub_cancel_left, update_self]
  · rw [update_of_ne ha, hshows.cells a]
    split_ifs with hle
    · rw [update_of_ne (by omega)]
    · rfl

theorem rtVsnprintf_wraps {fmt : CString} (hpieces : outputPieces cfg fmt args = some ps) (hbuf : buf < 2 ^ cfg.wordBits)
    (hsize : 1 ≤ size) (hword : size < 2 ^ cfg.wordBits) (hstays : ¬ StaysBelow cfg buf size ps) :
    ∃ r, rtVsnprintf cfg buf size fmt args = some r ∧ (r.2 0).isSome := by
  refine ⟨_, rtVsnprintf_pieces hpieces, ?_⟩
  rw [StaysBelow, ← pos_upTo] at hstays
  rw [endAddress_eq hbuf hsize hword]
  dsimp only
  generalize endOffset cfg buf size = last at *
  have hspace : ¬ buf + (Piece.writeAll (Cursor.window (2 ^ cfg.wordBits) buf (buf + last)) Cursor.start ps).pos < 2 ^ cfg.wordBits := by
    intro hlt
    have hshows := Piece.writeAll_shows (Cursor.shows_start buf) ps (.inr hlt)
    rw [hshows.pos] at hlt
    exact hstays (by exact_mod_cast hlt)
  have htop : Cursor.window (2 ^ cfg.wordBits) buf (buf + last) (2 ^ cfg.wordBits - buf) = some 0 := Cursor.window_top (by omega)
  have hpassed := Piece.writeAll_keeps (c := (Cursor.start : Cursor Char)) (Cursor.put_passed htop) (fun hno => absurd hno (Nat.not_lt_zero _)) ps
  generalize Piece.writeAll _ _ ps = str at hspace hpassed
  by_cases heq : str.pos = 2 ^ cfg.wordBits - buf
  · rw [heq, htop, Option.getD_some, update_self]
    rfl
  · have hzero := hpassed (by omega)
    generalize (Cursor.window (2 ^ cfg.wordBits) buf (buf + last) str.pos).getD (buf + last) = i
    by_cases hi : 0 = i
    · rw [← hi, update_self]
      rfl
    · rwa [update_of_ne hi]

theorem storedText_length {full : List Char} {size size' : Nat} (hfits : full.length ≤ size - 1) (hfits' : full.length ≤ size' - 1) :
    storedText full size = storedText full size' := by
  funext i
  rw [storedText, storedText, Nat.min_eq_left hfits, Nat.min_eq_left hfits']

theorem surplus_eq_zero {n : Nat} (hroom : n + (Piece.fullText ps).length ≤ last) : Piece.surplus last n ps = 0 := by
  induction ps generalizing n with
  | nil => rfl
  | cons p ps ih =>
    have hlength : (Piece.fullText (p :: ps)).length = p.text.length + (Piece.fullText ps).length := by
      rw [Piece.fullText, List.flatMap_cons, List.length_append]
      rfl
    have hlead : p.lead.length ≤ p.text.length := by
      rw [Piece.text, List.length_append]
      omega
    rw [Piece.surplus, if_neg (by omega), ih (by omega)]
    rfl

theorem endOffset_cases (hbuf : buf < 2 ^ cfg.wordBits) (hstays : StaysBelow cfg buf size ps) :
    endOffset cfg buf size = size - 1 ∨ (Piece.fullText ps).length ≤ endOffset cfg buf size ∧ (Piece.fullText ps).length ≤ size - 1 := by
  by_cases hspace : size - 1 ≤ 2 ^ cfg.wordBits - 1 - buf
  · exact .inl (Nat.min_eq_left hspace)
  · right
    have hend : endOffset cfg buf size = 2 ^ cfg.wordBits - 1 - buf := Nat.min_eq_right (by omega)
    have hlength := (writeAll_text (endOffset cfg buf size) ps).pos
    rw [StaysBelow, ← pos_upTo] at hstays
    have hlt : buf + (Piece.writeAll (Cursor.upTo (endOffset cfg buf size)) Cursor.start ps).pos < 2 ^ cfg.wordBits := by
      exact_mod_cast hstays
    omega

theorem storedText_endOffset (hbuf : buf < 2 ^ cfg.wordBits) (hsize : 1 ≤ size) (hstays : StaysBelow cfg buf size ps) :
    storedText (Piece.fullText ps) (endOffset cfg buf size + 1) = storedText (Piece.fullText ps) size := by
  rcases endOffset_cases hbuf hstays with heq | ⟨hfits, hfits'⟩
  · rw [heq, Nat.sub_add_cancel hsize]
  · exact storedText_length hfits hfits'

theorem surplus_endOffset (hbuf : buf < 2 ^ cfg.wordBits) (hstays : StaysBelow cfg buf size ps) :
    Piece.surplus (endOffset cfg buf size) 0 ps = Piece.surplus (size - 1) 0 ps := by
  rcases endOffset_cases hbuf hstays with heq | ⟨hfits, hfits'⟩
  · rw [heq]
  · rw [surplus_eq_zero (by omega), surplus_eq_zero (by omega)]

theorem toInt32_eq_iff {x y : Int} : toInt32 x = toInt32 y ↔ x ≡ y [ZMOD 2 ^ 32] := by
  constructor
  · intro heq
    have hmod : toInt32 x % (2 ^ 32 : Int) = toInt32 y % (2 ^ 32 : Int) := by
      rw [heq]
    rw [toInt32, toInt32] at hmod
    have hx : x.bmod (2 ^ 32) % ((2 ^ 32 : Nat) : Int) = x % ((2 ^ 32 : Nat) : Int) := Int.bmod_emod
    have hy : y.bmod (2 ^ 32) % ((2 ^ 32 : Nat) : Int) = y % ((2 ^ 32 : Nat) : Int) := Int.bmod_emod
    rw [Nat.cast_pow, Nat.cast_ofNat] at hx hy
    rwa [hx, hy] at hmod
  · intro hmod
    have hx : (x % ((2 ^ 32 : Nat) : Int)).bmod (2 ^ 32) = x.bmod (2 ^ 32) := Int.emod_bmod _ _
    have hy : (y % ((2 ^ 32 : Nat) : Int)).bmod (2 ^ 32) = y.bmod (2 ^ 32) := Int.emod_bmod _ _
    rw [Nat.cast_pow, Nat.cast_ofNat] at hx hy
    rw [toInt32, toInt32, ← hx, ← hy, hmod]

/-! ## Which fields are longer without room -/

theorem toInt32_of_range {x : Int} (hlow : -2 ^ 31 ≤ x) (hhigh : x < 2 ^ 31) : toInt32 x = x := by
  rw [toInt32]
  apply Int.bmod_eq_of_le
  · rw [Nat.cast_pow, Nat.cast_ofNat]
    omega
  · rw [Nat.cast_pow, Nat.cast_ofNat]
    omega

theorem signedText_length {field : NumberField} {room : Bool} : (signedText cfg field room).length =
    field.sign.toList.length + (specialPrefix cfg field).length + (field.precision - field.tmp.length).toNat + field.tmp.length +
      paddingBehind field.flags.left
        (if field.sign.isSome ∧ room then toInt32 ((leadingSpaces field).2 - 1) else (leadingSpaces field).2) := by
  rw [signedText, paddingBehind]
  dsimp only
  generalize (if field.sign.isSome ∧ room then toInt32 ((leadingSpaces field).2 - 1) else (leadingSpaces field).2) = size
  cases field.flags.left with
  | true =>
    simp only [if_true, spaces, List.length_append, List.length_replicate, List.length_reverse, List.length_nil]
    omega
  | false =>
    simp only [Bool.false_eq_true, if_false, spaces, List.length_append, List.length_replicate, List.length_reverse]
    omega

theorem excess_directivePiece (d : Directive) : (directivePiece cfg d).excess = d.signExcess cfg := by
  cases d with
  | text | char | string => exact sub_self _
  | number num base fieldWidth precision flags =>
    rw [Piece.excess, Directive.signExcess]
    change ((signedText cfg _ false).length : Int) - (signedText cfg _ true).length = _
    generalize numberField cfg num base fieldWidth precision flags = field
    rw [signedText_length, signedText_length]
    by_cases hsign : field.sign.isSome <;> simp [hsign]

/-- A field is longer by one character if it has a sign and padding behind it. -/
theorem signExcess_eq {num : Int} {base : Nat} {fieldWidth precision : Int} {flags : PrintFlags} {field : NumberField}
    (hfield : numberField cfg num base fieldWidth precision flags = field) (hlow : -2 ^ 31 + 3 ≤ field.size)
    (hhigh : field.size < 2 ^ 31) : (Directive.number num base fieldWidth precision flags).signExcess cfg =
      if field.sign.isSome ∧ (field.flags.zeropad ∨ field.flags.left) ∧ 0 < field.size then 1 else 0 := by
  have hbehind : ∀ size : Int, -2 ^ 31 + 1 ≤ size → size < 2 ^ 31 → sizeBehind size = if 0 < size then -1 else size - 1 := by
    intro size hlow hhigh
    rw [sizeBehind, toInt32_of_range (by omega) (by omega)]
  have hpadding : ∀ left size, -2 ^ 31 + 1 ≤ size → size < 2 ^ 31 → paddingBehind left size = size.toNat := by
    intro left size hlow hhigh
    rw [paddingBehind, hbehind size hlow hhigh]
    split_ifs <;> omega
  rw [Directive.signExcess, hfield]
  by_cases hpad : field.flags.zeropad ∨ field.flags.left
  · have hsize : (leadingSpaces field).2 = field.size := by
      rw [leadingSpaces, if_neg (by rintro ⟨hzero, hleft⟩; simp [hzero, hleft] at hpad)]
    rw [hsize, toInt32_of_range (by omega) (by omega), hpadding _ _ (by omega) hhigh, hpadding _ _ (by omega) (by omega)]
    split_ifs <;> simp_all <;> omega
  · have hsize : -2 ^ 31 + 2 ≤ (leadingSpaces field).2 ∧ (leadingSpaces field).2 ≤ 0 := by
      rw [leadingSpaces, if_pos (by simpa using hpad)]
      dsimp only
      rw [hbehind _ (by split_ifs <;> omega) (by split_ifs <;> omega)]
      split_ifs <;> omega
    rw [toInt32_of_range (by omega) (by omega), hpadding _ _ (by omega) (by omega), hpadding _ _ (by omega) (by omega),
      if_neg (c := _ ∧ _ ∧ _) fun hall => hpad hall.2.1]
    split_ifs <;> omega

theorem surplus_directives (hsize : 1 ≤ size) (n : Nat) (ds : List Directive) :
    Piece.surplus (size - 1) n (ds.map (directivePiece cfg)) = signsBehind cfg size n ds := by
  induction ds generalizing n with
  | nil => rfl
  | cons d ds ih =>
    rw [List.map_cons, Piece.surplus, signsBehind, ih, excess_directivePiece]
    have hiff : size - 1 < n + (directivePiece cfg d).lead.length ↔ size ≤ n + (directivePiece cfg d).lead.length := by omega
    simp only [hiff]

theorem readFormat_eq : readFormat cfg fuel fmt args = (readDirectives cfg fuel fmt args).map (List.map (directivePiece cfg)) := by
  induction fuel generalizing fmt args with
  | zero => cases fmt <;> rfl
  | succ fuel ih =>
    cases fmt with
    | nil => rfl
    | cons c fmt =>
      rw [readFormat, readDirectives]
      split
      · rw [ih, Option.map_map, Option.map_map]
        rfl
      · cases readDirective cfg fmt args with
        | none => rfl
        | some r =>
          obtain ⟨directive, fmt, args⟩ := r
          rw [Option.bind_some, Option.bind_some]
          dsimp only
          rw [ih, Option.map_map, Option.map_map]
          rfl

/-! ## The law -/

def TruncationLaw (cfg : PrintfConfig) (fmt : CString) (args : List PrintArg) (full : List Char) (buf s₁ s₂ : Nat) : Prop :=
  ∃ result, rtVsnprintf cfg buf s₁ fmt args = some (result, storedAt buf (storedText full s₁)) ∧
    rtVsnprintf cfg buf s₂ fmt args = some (result, storedAt buf (storedText full s₂))

theorem TruncationLaw.results {fmt : CString} {full : List Char} {s₁ s₂ : Nat} (h : TruncationLaw cfg fmt args full buf s₁ s₂) :
    (rtVsnprintf cfg buf s₁ fmt args).map Prod.fst = (rtVsnprintf cfg buf s₂ fmt args).map Prod.fst := by
  obtain ⟨result, h₁, h₂⟩ := h
  rw [h₁, h₂]
  rfl

theorem staysBelow_of_stored {fmt : CString} {result : Int} (hpieces : outputPieces cfg fmt args = some ps) (hnull : 0 < buf)
    (hbuf : buf < 2 ^ cfg.wordBits) (hsize : 1 ≤ size) (hword : size < 2 ^ cfg.wordBits) {text : Nat → Option Char}
    (h : rtVsnprintf cfg buf size fmt args = some (result, storedAt buf text)) : StaysBelow cfg buf size ps := by
  by_contra hno
  obtain ⟨r, hr, hzero⟩ := rtVsnprintf_wraps hpieces hbuf hsize hword hno
  rw [h] at hr
  rw [← Option.some.inj hr] at hzero
  have hnone : storedAt buf text 0 = none := if_neg (by omega)
  dsimp only at hzero
  rw [hnone] at hzero
  cases hzero

/-- The law holds exactly where the text stays in the address space and the fields whose sign is not stored have as much more padding for the one size as for the other. -/
theorem truncationLaw_iff {fmt : CString} {s₁ s₂ : Nat} {ds : List Directive} (hread : formatDirectives cfg fmt args = some ds)
    (hnull : 0 < buf) (hbuf : buf < 2 ^ cfg.wordBits) (hs₁ : 1 ≤ s₁ ∧ s₁ < 2 ^ cfg.wordBits) (hs₂ : 1 ≤ s₂ ∧ s₂ < 2 ^ cfg.wordBits) :
    TruncationLaw cfg fmt args (fullOutput cfg ds) buf s₁ s₂ ↔
      StaysBelow cfg buf s₁ (ds.map (directivePiece cfg)) ∧ StaysBelow cfg buf s₂ (ds.map (directivePiece cfg)) ∧
        signsBehind cfg s₁ 0 ds ≡ signsBehind cfg s₂ 0 ds [ZMOD 2 ^ 32] := by
  have hpieces : outputPieces cfg fmt args = some (ds.map (directivePiece cfg)) := by
    rw [outputPieces, readFormat_eq]
    exact congrArg (Option.map _) hread
  rw [← surplus_directives hs₁.1, ← surplus_directives hs₂.1, fullOutput]
  generalize ds.map (directivePiece cfg) = ps at hpieces
  have hresult : ∀ hstays₁ : StaysBelow cfg buf s₁ ps, ∀ hstays₂ : StaysBelow cfg buf s₂ ps,
      toInt32 ((Piece.fullText ps).length + Piece.surplus (endOffset cfg buf s₁) 0 ps) =
          toInt32 ((Piece.fullText ps).length + Piece.surplus (endOffset cfg buf s₂) 0 ps) ↔
        Piece.surplus (s₁ - 1) 0 ps ≡ Piece.surplus (s₂ - 1) 0 ps [ZMOD 2 ^ 32] := by
    intro hstays₁ hstays₂
    rw [surplus_endOffset hbuf hstays₁, surplus_endOffset hbuf hstays₂, toInt32_eq_iff]
    exact ⟨Int.ModEq.add_left_cancel' _, Int.ModEq.add_left _⟩
  constructor
  · rintro ⟨result, h₁, h₂⟩
    have hstays₁ := staysBelow_of_stored hpieces hnull hbuf hs₁.1 hs₁.2 h₁
    have hstays₂ := staysBelow_of_stored hpieces hnull hbuf hs₂.1 hs₂.2 h₂
    rw [rtVsnprintf_eq hpieces hbuf hs₁.1 hs₁.2 hstays₁] at h₁
    rw [rtVsnprintf_eq hpieces hbuf hs₂.1 hs₂.2 hstays₂] at h₂
    obtain ⟨hresult₁, -⟩ := Prod.mk.inj (Option.some.inj h₁)
    obtain ⟨hresult₂, -⟩ := Prod.mk.inj (Option.some.inj h₂)
    exact ⟨hstays₁, hstays₂, (hresult hstays₁ hstays₂).1 (hresult₁.trans hresult₂.symm)⟩
  · intro ⟨hstays₁, hstays₂, hsurplus⟩
    have heq := (hresult hstays₁ hstays₂).2 hsurplus
    rw [TruncationLaw, rtVsnprintf_eq hpieces hbuf hs₁.1 hs₁.2 hstays₁, rtVsnprintf_eq hpieces hbuf hs₂.1 hs₂.2 hstays₂,
      storedText_endOffset hbuf hs₁.1 hstays₁, storedText_endOffset hbuf hs₂.1 hstays₂, ← heq]
    exact ⟨_, rfl, rfl⟩

theorem truncationLaw_plain : TruncationLaw ⟨false, true, false, 32⟩ ⟨"ab%5d".toList, CString.of_all (by decide)⟩ [.int (-1)] "ab   -1".toList 4096 2 100 := by
  have hread : formatDirectives ⟨false, true, false, 32⟩ ⟨"ab%5d".toList, CString.of_all (by decide)⟩ [.int (-1)] =
      some [.text ['a'], .text ['b'], .number (-1) 10 5 (-1) { sign := true }] := by
    rfl
  exact (truncationLaw_iff hread (by decide) (by decide) (by decide) (by decide)).2 ⟨by decide, by decide, by decide⟩

/-- The field `%05d` has a sign and padding behind it: without room for the sign it takes six cells. -/
theorem truncationLaw_zeropad_fails :
    ¬ ∃ full, TruncationLaw ⟨false, true, false, 32⟩ ⟨"ab%05d".toList, CString.of_all (by decide)⟩ [.int (-1)] full 4096 2 100 := by
  intro ⟨full, h⟩
  have hresult₂ : (rtVsnprintf ⟨false, true, false, 32⟩ 4096 2 ⟨"ab%05d".toList, CString.of_all (by decide)⟩ [.int (-1)]).map Prod.fst = some 8 := by
    decide +kernel
  have hresult₁₀₀ : (rtVsnprintf ⟨false, true, false, 32⟩ 4096 100 ⟨"ab%05d".toList, CString.of_all (by decide)⟩ [.int (-1)]).map Prod.fst = some 7 := by
    decide +kernel
  exact absurd (hresult₂.symm.trans (h.results.trans hresult₁₀₀)) (by decide)

end RtThread
