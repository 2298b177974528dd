import RtThread.Kernel.PrintfTruncation
import RtThread.Lib.Numeral

/-!
# The text of a number

What `print_number` writes where there is room: spaces, the sign, the prefix of the base, padding, the digits with zeros in front of them, and spaces. It is as wide as the field is to be. The number is read back from it, unless the size that is left is so small that it wraps in a loop before the last: then there are spaces behind the sign and the prefix.
-/

namespace RtThread

open Numeral

variable {cfg : PrintfConfig} {field : NumberField} {num fieldWidth precision : Int} {base : Nat} {flags : PrintFlags}

/-- `size` behind the sign. -/
def sizeBehindSign (field : NumberField) : Int :=
  if field.sign.isSome then toInt32 ((leadingSpaces field).2 - 1) else (leadingSpaces field).2

def numberGap (field : NumberField) : Nat := if field.flags.left = false ∧ field.flags.zeropad = false then (sizeBehindSign field).toNat else 0

def Marked (cfg : PrintfConfig) (field : NumberField) : Prop :=
  field.sign = some '-' ∨ field.sign = some '+' ∨ specialPrefix cfg field ≠ []

instance (cfg : PrintfConfig) (field : NumberField) : Decidable (Marked cfg field) := inferInstanceAs (Decidable (_ ∨ _ ∨ _))

/-! ## The layout -/

theorem numberText_eq (cfg : PrintfConfig) (field : NumberField) : ∃ lead zeros trail,
    (numberPiece cfg field).text = spaces lead ++ (field.sign.toList ++ (specialPrefix cfg field ++ (spaces (numberGap field) ++
      (List.replicate zeros '0' ++ field.tmp.reverse ++ spaces trail)))) := by
  have htext : (numberPiece cfg field).text = spaces (leadingSpaces field).1 ++ signedText cfg field true := rfl
  rw [htext, signedText, numberGap, sizeBehindSign]
  dsimp only
  simp only [and_true]
  generalize (if field.sign.isSome = true then toInt32 ((leadingSpaces field).2 - 1) else (leadingSpaces field).2) = size
  cases hleft : field.flags.left with
  | true => exact ⟨(leadingSpaces field).1, (field.precision - field.tmp.length).toNat, size.toNat, by simp [spaces]⟩
  | false =>
    cases hzero : field.flags.zeropad with
    | true =>
      refine ⟨(leadingSpaces field).1, size.toNat + (field.precision - field.tmp.length).toNat, (sizeBehind size).toNat, ?_⟩
      rw [List.replicate_add]
      simp [spaces, -List.replicate_append_replicate]
    | false => exact ⟨(leadingSpaces field).1, (field.precision - field.tmp.length).toNat, (sizeBehind size).toNat, by simp [spaces]⟩

theorem numberText_length (cfg : PrintfConfig) (field : NumberField) :
    ((numberPiece cfg field).text.length : Int) = (leadingSpaces field).1 + field.sign.toList.length + (specialPrefix cfg field).length +
      (if field.flags.left then 0 else (sizeBehindSign field).toNat) + (field.precision - field.tmp.length).toNat + field.tmp.length +
      (if field.flags.left then sizeBehindSign field else sizeBehind (sizeBehindSign field)).toNat := by
  have htext : (numberPiece cfg field).text = spaces (leadingSpaces field).1 ++ signedText cfg field true := rfl
  rw [htext, signedText, sizeBehindSign]
  dsimp only
  simp only [and_true]
  generalize (if field.sign.isSome = true then toInt32 ((leadingSpaces field).2 - 1) else (leadingSpaces field).2) = size
  cases hleft : field.flags.left with
  | true => simp [spaces]; omega
  | false => simp [spaces]; omega

/-! ## Sizes -/

theorem toInt32_bounds (x : Int) : -2 ^ 31 ≤ toInt32 x ∧ toInt32 x < 2 ^ 31 := by
  have hlow : -((2 ^ 32 : Nat) / 2 : Int) ≤ x.bmod (2 ^ 32) := Int.le_bmod (by decide)
  have hhigh : x.bmod (2 ^ 32) < ((2 ^ 32 : Nat) + 1 : Int) / 2 := Int.bmod_lt (by decide)
  rw [toInt32]
  omega

theorem toInt32_pred {x : Int} (hlow : -2 ^ 31 ≤ x) (hhigh : x < 2 ^ 31) :
    -2 ^ 31 < x ∧ toInt32 (x - 1) = x - 1 ∨ x = -2 ^ 31 ∧ toInt32 (x - 1) = 2 ^ 31 - 1 := by
  rcases Int.lt_or_eq_of_le hlow with hlt | heq
  · exact Or.inl ⟨hlt, toInt32_of_range (by omega) (by omega)⟩
  · rw [← heq]
    exact Or.inr ⟨rfl, by decide⟩

theorem sizeBehind_cases {x : Int} (hlow : -2 ^ 31 ≤ x) (hhigh : x < 2 ^ 31) :
    0 < x ∧ sizeBehind x = -1 ∨ x ≤ 0 ∧ -2 ^ 31 < x ∧ sizeBehind x = x - 1 ∨ x = -2 ^ 31 ∧ sizeBehind x = 2 ^ 31 - 1 := by
  rw [sizeBehind]
  by_cases hpos : 0 < x
  · rw [if_pos hpos]
    exact Or.inl ⟨hpos, rfl⟩
  · rw [if_neg hpos]
    rcases toInt32_pred hlow hhigh with ⟨hlt, heq⟩ | ⟨hlt, heq⟩
    · exact Or.inr (Or.inl ⟨by omega, hlt, heq⟩)
    · exact Or.inr (Or.inr ⟨hlt, heq⟩)

theorem numberGap_pos_iff (hlow : -2 ^ 31 ≤ field.size) (hhigh : field.size < 2 ^ 31) :
    0 < numberGap field ↔ (field.flags.left = false ∧ field.flags.zeropad = false) ∧
      (field.size = -2 ^ 31 ∨ field.sign.isSome ∧ field.size = -2 ^ 31 + 1) := by
  rw [numberGap]
  by_cases hplain : field.flags.left = false ∧ field.flags.zeropad = false
  · have hleading : (leadingSpaces field).2 = sizeBehind (if field.sign.isSome ∧ 0 < field.size then field.size - 1 else field.size) := by
      rw [leadingSpaces, if_pos ⟨hplain.2, hplain.1⟩]
    rw [if_pos hplain, and_iff_right hplain, sizeBehindSign, hleading]
    by_cases hsign : field.sign.isSome
    · rw [if_pos hsign]
      by_cases hpos : 0 < field.size
      · rw [if_pos ⟨hsign, hpos⟩]
        have hbehind := sizeBehind_cases (x := field.size - 1) (by omega) (by omega)
        have hpred := toInt32_pred (x := sizeBehind (field.size - 1)) (by omega) (by omega)
        omega
      · rw [if_neg fun h => hpos h.2]
        have hbehind := sizeBehind_cases hlow hhigh
        have hpred := toInt32_pred (x := sizeBehind field.size) (by omega) (by omega)
        rw [and_iff_right hsign]
        omega
    · rw [if_neg hsign, if_neg fun h => hsign h.1]
      have hbehind := sizeBehind_cases hlow hhigh
      rw [or_iff_left fun h => hsign h.1]
      omega
  · rw [if_neg hplain]
    exact ⟨fun hno => absurd hno (Nat.lt_irrefl 0), fun h => absurd h.1 hplain⟩

theorem numberField_size (cfg : PrintfConfig) (num : Int) (base : Nat) {s : Int} (precision : Int) (flags : PrintFlags)
    (hlow : -2 ^ 31 ≤ s) (hhigh : s < 2 ^ 31) :
    (numberField cfg num base s precision flags).size =
      toInt32 (s - (specialPrefix cfg (numberField cfg num base s precision flags)).length -
        (numberField cfg num base s precision flags).precision) := by
  have hnone : s = toInt32 (s - (0 : Nat)) := by
    rw [Int.natCast_zero, Int.sub_zero, toInt32_of_range hlow hhigh]
  have hspecial : (if flags.left then { flags with zeropad := false } else flags).special = flags.special := by
    cases flags.left <;> rfl
  have hlead : (if cfg.special = true ∧ flags.special = true then
        if base = 16 then toInt32 (s - 2) else if base = 8 then toInt32 (s - 1) else s else s) =
      toInt32 (s - (specialPrefix cfg (numberField cfg num base s precision flags)).length) := by
    rw [specialPrefix, numberField]
    dsimp only
    rw [hspecial]
    by_cases hon : cfg.special = true ∧ flags.special = true
    · rw [if_pos hon, if_pos hon]
      by_cases hhex : base = 16
      · rw [if_pos hhex, hhex]
        rfl
      · rw [if_neg hhex, if_neg hhex]
        by_cases hoct : base = 8
        · rw [if_pos hoct, if_pos hoct]
          rfl
        · rw [if_neg hoct, if_neg hoct]
          exact hnone
    · rw [if_neg hon, if_neg hon]
      exact hnone
  have hsize : (numberField cfg num base s precision flags).size =
      toInt32 ((if cfg.special = true ∧ (if flags.left then { flags with zeropad := false } else flags).special = true then
        if base = 16 then toInt32 (s - 2) else if base = 8 then toInt32 (s - 1) else s else s) -
          (numberField cfg num base s precision flags).precision) := rfl
  rw [hsize, hspecial, hlead, toInt32, toInt32, toInt32, Int.bmod_sub_bmod]

theorem numberField_precision (cfg : PrintfConfig) (num : Int) (base : Nat) (s precision : Int) (flags : PrintFlags) :
    (numberField cfg num base s precision flags).precision =
      if cfg.precision = true ∧ ((numberField cfg num base s precision flags).tmp.length : Int) ≤ precision then precision
      else (numberField cfg num base s precision flags).tmp.length := rfl

theorem le_precision (cfg : PrintfConfig) (num : Int) (base : Nat) (s precision : Int) (flags : PrintFlags) :
    ((numberField cfg num base s precision flags).tmp.length : Int) ≤ (numberField cfg num base s precision flags).precision := by
  rw [numberField_precision]
  split_ifs with hprecision
  · exact hprecision.2
  · exact Int.le_refl _

theorem le_numberText_length (cfg : PrintfConfig) (num : Int) (base : Nat) {s : Int} (precision : Int) (flags : PrintFlags)
    (hlow : -2 ^ 31 ≤ s) (hhigh : s < 2 ^ 31) :
    s ≤ (numberPiece cfg (numberField cfg num base s precision flags)).text.length := by
  have hsize := numberField_size cfg num base precision flags hlow hhigh
  have hprecision := le_precision cfg num base s precision flags
  rw [numberText_length]
  generalize numberField cfg num base s precision flags = field at *
  have hsign : field.sign.toList.length = if field.sign.isSome then 1 else 0 := by
    cases field.sign <;> rfl
  rw [hsign]
  by_cases hfits : s ≤ (if field.sign.isSome then 1 else 0 : Nat) + (specialPrefix cfg field).length + field.precision
  · omega
  · have hroom : field.size = s - (specialPrefix cfg field).length - field.precision := by
      rw [hsize]
      exact toInt32_of_range (by omega) (by omega)
    have hpred : toInt32 (field.size - 1) = field.size - 1 := toInt32_of_range (by omega) (by omega)
    by_cases hplain : field.flags.zeropad = false ∧ field.flags.left = false
    · -- the spaces stand in front of the sign
      have hpos : 0 < field.size := by omega
      rw [leadingSpaces, if_pos hplain]
      simp only [hpos, and_true]
      split_ifs at * <;> omega
    · -- what the sign leaves of the size is padding behind it, or spaces at the end
      have hleading : leadingSpaces field = (0, field.size) := if_neg hplain
      rw [sizeBehindSign, hleading]
      dsimp only
      rw [hpred]
      split_ifs at * <;> omega

/-! ## Reading the number back -/

def IsSign (sign : Option Char) : Prop := sign = none ∨ sign = some '-' ∨ sign = some '+' ∨ sign = some ' '

theorem readMagnitude_tail {digits : List Char} (h : IsNumeral digits) (k trail : Nat) :
    readMagnitude base (spaces k ++ (digits ++ spaces trail)) = if 0 < k then none else readDigits base 0 digits := by
  cases k with
  | zero => exact readMagnitude_numeral h trail
  | succ k => exact readMagnitude_space rfl

theorem readNumber_tail {digits : List Char} (h : IsNumeral digits) (k trail : Nat) :
    readNumber base (spaces k ++ (digits ++ spaces trail)) = (readDigits base 0 digits).map fun n : Nat => (n : Int) := by
  obtain ⟨c, text, hdigits, hdigit⟩ := h.exists_cons
  have hread : readNumber base (c :: (text ++ spaces trail)) = _ := readNumber_of_digit hdigit (text ++ spaces trail)
  rw [← List.cons_append, ← hdigits] at hread
  rw [spaces, readNumber_spaces, hread, spaces, readMagnitude_numeral h trail]

theorem prefix_cases (cfg : PrintfConfig) (field : NumberField) :
    specialPrefix cfg field = [] ∨ field.base = 8 ∧ specialPrefix cfg field = ['0'] ∨
      field.base = 16 ∧ ∃ c, (c = 'x' ∨ c = 'X') ∧ specialPrefix cfg field = ['0', c] := by
  rw [specialPrefix]
  by_cases hspecial : cfg.special = true ∧ field.flags.special = true
  · rw [if_pos hspecial]
    by_cases hoct : field.base = 8
    · rw [if_pos hoct]
      exact Or.inr (Or.inl ⟨hoct, rfl⟩)
    · rw [if_neg hoct]
      by_cases hhex : field.base = 16
      · rw [if_pos hhex]
        refine Or.inr (Or.inr ⟨hhex, _, ?_, rfl⟩)
        cases field.flags.large
        · exact Or.inl rfl
        · exact Or.inr rfl
      · rw [if_neg hhex]
        exact Or.inl rfl
  · rw [if_neg hspecial]
    exact Or.inl rfl

theorem readNumber_unsigned {digits : List Char} (h : IsNumeral digits) (hnone : field.sign = none) (k trail : Nat) :
    readNumber field.base ((none : Option Char).toList ++ (specialPrefix cfg field ++ (spaces k ++ (digits ++ spaces trail)))) =
      if 0 < k ∧ Marked cfg field then none
      else (readDigits field.base 0 digits).map fun n : Nat => if field.sign = some '-' then -(n : Int) else n := by
  have hmark : Marked cfg field ↔ specialPrefix cfg field ≠ [] := by
    rw [Marked, hnone]
    simp
  have hplain : (fun n : Nat => if field.sign = some '-' then -(n : Int) else n) = fun n : Nat => (n : Int) := by
    rw [hnone]
    rfl
  rw [hplain, Option.toList_none, List.nil_append]
  rcases prefix_cases cfg field with hlead | ⟨hbase, hlead⟩ | ⟨hbase, c, hc, hlead⟩
  · rw [hlead, List.nil_append, readNumber_tail h, if_neg fun hgap => hmark.mp hgap.2 hlead]
  · have hmarked : Marked cfg field := hmark.mpr (by rw [hlead]; exact List.cons_ne_nil _ _)
    rw [hlead, hbase]
    cases k with
    | zero =>
      have hread : readNumber 8 (spaces 0 ++ (List.replicate 1 '0' ++ digits ++ spaces trail)) = _ := readNumber_tail (h.zeros 1) 0 trail
      rw [if_neg fun hgap => absurd hgap.1 (Nat.lt_irrefl 0), ← readDigits_zeros (by decide) 1 digits, ← hread]
      rfl
    | succ k =>
      have hgap : readMagnitude 8 ('0' :: ' ' :: (spaces k ++ digits ++ spaces trail)) = none := readMagnitude_gap (by decide) h (spaces k)
      rw [if_pos ⟨Nat.succ_pos k, hmarked⟩]
      change readNumber 8 ('0' :: ' ' :: (spaces k ++ (digits ++ spaces trail))) = none
      rw [readNumber_of_digit (by decide), ← List.append_assoc, hgap]
      rfl
  · have hmarked : Marked cfg field := hmark.mpr (by rw [hlead]; exact List.cons_ne_nil _ _)
    rw [hlead, hbase]
    change readNumber 16 ('0' :: c :: (spaces k ++ (digits ++ spaces trail))) = _
    rw [readNumber_of_digit (by decide)]
    cases k with
    | zero =>
      rw [if_neg fun hgap => absurd hgap.1 (Nat.lt_irrefl 0)]
      exact congrArg _ (readMagnitude_marked h hc trail)
    | succ k =>
      have hstrip : stripPrefix 16 ('0' :: c :: (spaces (k + 1) ++ (digits ++ spaces trail))) = ' ' :: (spaces k ++ (digits ++ spaces trail)) :=
        if_pos ⟨rfl, hc⟩
      rw [if_pos ⟨Nat.succ_pos k, hmarked⟩, readMagnitude_space hstrip]
      rfl

theorem readNumber_numberText (hdigits : IsNumeral field.tmp.reverse) (hbase : 0 < field.base) (hsign : IsSign field.sign)
    (hdecimal : field.sign ≠ none → field.base = 10) :
    readNumber field.base (numberPiece cfg field).text =
      if 0 < numberGap field ∧ Marked cfg field then none
      else (readDigits field.base 0 field.tmp.reverse).map fun n : Nat => if field.sign = some '-' then -(n : Int) else n := by
  obtain ⟨lead, zeros, trail, htext⟩ := numberText_eq cfg field
  have hnumeral := hdigits.zeros zeros
  have hzeros := readDigits_zeros hbase zeros field.tmp.reverse
  rw [htext, spaces, readNumber_spaces, ← hzeros]
  generalize List.replicate zeros '0' ++ field.tmp.reverse = digits at hnumeral ⊢
  generalize numberGap field = k
  by_cases hnone : field.sign = none
  · have hread : readNumber field.base ((none : Option Char).toList ++ (specialPrefix cfg field ++ (spaces k ++ (digits ++ spaces trail)))) = _ :=
      readNumber_unsigned hnumeral hnone k trail
    rwa [← hnone] at hread
  · have hlead : specialPrefix cfg field = [] := by
      rw [specialPrefix, hdecimal hnone]
      split_ifs <;> first | rfl | contradiction
    have hmark : Marked cfg field ↔ field.sign = some '-' ∨ field.sign = some '+' := by
      rw [Marked, hlead]
      simp
    rw [hlead, List.nil_append]
    rcases hsign with hno | hminus | hplus | hspace
    · exact absurd hno hnone
    · rw [hminus]
      change readNumber field.base ('-' :: (spaces k ++ (digits ++ spaces trail))) = _
      rw [readNumber_minus, readMagnitude_tail hnumeral]
      by_cases hk : 0 < k
      · rw [if_pos hk, if_pos ⟨hk, hmark.mpr (Or.inl hminus)⟩]
        rfl
      · rw [if_neg hk, if_neg fun h => hk h.1]
        simp only [if_true]
    · rw [hplus]
      change readNumber field.base ('+' :: (spaces k ++ (digits ++ spaces trail))) = _
      rw [readNumber_plus, readMagnitude_tail hnumeral]
      by_cases hk : 0 < k
      · rw [if_pos hk, if_pos ⟨hk, hmark.mpr (Or.inr hplus)⟩]
        rfl
      · rw [if_neg hk, if_neg fun h => hk h.1]
        rfl
    · rw [hspace]
      change readNumber field.base (spaces 1 ++ (spaces k ++ (digits ++ spaces trail))) = _
      rw [spaces, readNumber_spaces, readNumber_tail hnumeral, if_neg]
      · rfl
      · intro hgap
        rcases hmark.mp hgap.2 with hno | hno
        · cases hspace.symm.trans hno
        · cases hspace.symm.trans hno

end RtThread
