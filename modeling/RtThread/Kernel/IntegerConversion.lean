import RtThread.Kernel.NumberText

/-!
# Integer conversions

What `rt_vsnprintf` writes for an integer, read back in the base of its conversion. An argument is a word, of which the code takes 32 bits, or 16; `divide` has the bases 10 and 16 only; and a negative number needs the bits of a `long`.
-/

namespace RtThread

open Numeral

inductive IntegerConversion
  | d | i | u | o | x | X
  deriving DecidableEq

namespace IntegerConversion

def char : IntegerConversion → Char
  | d => 'd'
  | i => 'i'
  | u => 'u'
  | o => 'o'
  | x => 'x'
  | X => 'X'

def base : IntegerConversion → Nat
  | d | i | u => 10
  | o => 8
  | x | X => 16

def signed : IntegerConversion → Bool
  | d | i => true
  | u | o | x | X => false

def large : IntegerConversion → Bool
  | X => true
  | d | i | u | o | x => false

end IntegerConversion

def PrintFlags.of (flags : PrintFlags) (conv : IntegerConversion) : PrintFlags := { flags with sign := conv.signed, large := conv.large }

/-- The bits of an argument: of an `int`, a `short` or a `long`. -/
def argBits (cfg : PrintfConfig) : Qualifier → Nat
  | .none => 32
  | .short => 16
  | .long => cfg.wordBits
  | .longLong => 64

def argValue (cfg : PrintfConfig) (qualifier : Qualifier) (sign : Bool) (word : BitVec cfg.wordBits) : Int :=
  if sign then (word.setWidth (argBits cfg qualifier)).toInt else (word.setWidth (argBits cfg qualifier)).toNat

/-- The least number that is written as it is; there are `2 ^ 32` of them. -/
def lowest (cfg : PrintfConfig) (sign : Bool) : Int := if sign = true ∧ (cfg.wordBits = 32 ∨ cfg.longlong = true) then -2 ^ 31 else 0

/-- The length of `0` or `0x` with `RT_PRINTF_SPECIAL`. -/
def prefixLength (cfg : PrintfConfig) (flags : PrintFlags) (conv : IntegerConversion) : Nat :=
  if cfg.special = true ∧ flags.special = true then if conv.base = 8 then 1 else if conv.base = 16 then 2 else 0 else 0

/-- What the prefix and the digits leave of the width, as an `int`. -/
def widthLeft (cfg : PrintfConfig) (flags : PrintFlags) (fieldWidth precision : Int) (conv : IntegerConversion) (value : Int) : Int :=
  let digits : Nat := max 1 (Nat.digits conv.base value.natAbs).length
  toInt32 (fieldWidth - prefixLength cfg flags conv - if cfg.precision then max precision digits else digits)

/-- The width that is left is so small that it wraps before the padding behind a sign or a prefix. -/
def Torn (cfg : PrintfConfig) (flags : PrintFlags) (fieldWidth precision : Int) (conv : IntegerConversion) (value : Int) : Prop :=
  (flags.left = false ∧ flags.zeropad = false) ∧
    ((conv.signed = true ∧ (value < 0 ∨ flags.plus = true)) ∧
        (widthLeft cfg flags fieldWidth precision conv value = -2 ^ 31 ∨ widthLeft cfg flags fieldWidth precision conv value = -2 ^ 31 + 1) ∨
      0 < prefixLength cfg flags conv ∧ widthLeft cfg flags fieldWidth precision conv value = -2 ^ 31)

structure Converts (cfg : PrintfConfig) (flags : PrintFlags) (fieldWidth precision : Int) (conv : IntegerConversion) (value : Int) : Prop where
  range : lowest cfg conv.signed ≤ value ∧ value < lowest cfg conv.signed + 2 ^ 32
  octal : conv.base = 8 → value < 8
  whole : ¬ Torn cfg flags fieldWidth precision conv value

def Denotes (base : Nat) (fieldWidth value : Int) (text : List Char) : Prop := readNumber base text = some value ∧ fieldWidth ≤ text.length

variable {cfg : PrintfConfig} {flags : PrintFlags} {conv : IntegerConversion} {qualifier : Qualifier} {sign : Bool} {num fieldWidth precision x : Int}
  {fuel m : Nat} {glyphs : List Char}

/-! ## The directive -/

theorem readConversion_integer (cfg : PrintfConfig) (flags : PrintFlags) (fieldWidth precision : Int) (qualifier : Qualifier) (conv : IntegerConversion)
    (fmt : List Char) (args : List PrintArg) :
    readConversion cfg { flags with sign := false, large := false } fieldWidth precision qualifier (conv.char :: fmt) args =
      (readInteger cfg qualifier conv.signed args).map fun r => (.number r.1 conv.base fieldWidth precision (flags.of conv), fmt, r.2) := by
  cases conv <;> rfl

/-! ## The digits -/

/-- The base that `divide` goes by. -/
def divisor (base : Nat) : Nat := if base = 10 then 10 else 16

theorem one_lt_divisor (base : Nat) : 1 < divisor base := by
  rw [divisor]
  split_ifs <;> decide

theorem divideLoop_eq (glyphs : List Char) (base : Nat) (hfuel : m < 2 ^ fuel) :
    divideLoop glyphs base fuel m = (Nat.digits (divisor base) m).map (glyphs.getD · nul) := by
  induction fuel generalizing m with
  | zero =>
    rw [show m = 0 by omega, Nat.digits_zero]
    rfl
  | succ fuel ih =>
    have hdivisor := one_lt_divisor base
    rw [divideLoop]
    by_cases hzero : m = 0
    · rw [if_pos hzero, hzero, Nat.digits_zero]
      rfl
    · have hhalf : m / divisor base ≤ m / 2 := Nat.div_le_div_left hdivisor (by decide)
      rw [Nat.pow_succ] at hfuel
      rw [if_neg hzero, Nat.digits_def' hdivisor (Nat.pos_of_ne_zero hzero), List.map_cons, ← ih (by omega)]
      rfl

/-- What `tmp` holds for a number. -/
def numberDigits (glyphs : List Char) (base m : Nat) : List Char :=
  if m = 0 then ['0'] else (Nat.digits (divisor base) m).map (glyphs.getD · nul)

theorem length_numberDigits (glyphs : List Char) (base m : Nat) : (numberDigits glyphs base m).length = max 1 (Nat.digits (divisor base) m).length := by
  rw [numberDigits]
  by_cases hzero : m = 0
  · rw [if_pos hzero, hzero, Nat.digits_zero]
    rfl
  · have hpos : 0 < (Nat.digits (divisor base) m).length := List.length_pos_iff.mpr (Nat.digits_ne_nil_iff_ne_zero.mpr hzero)
    rw [if_neg hzero, List.length_map, Nat.max_eq_right hpos]

def ReadsDigits (glyphs : List Char) : Prop := ∀ d < 16, digitOf (glyphs.getD d nul) = some d

theorem smallDigits_read : ReadsDigits smallDigits := by
  unfold ReadsDigits
  decide

theorem largeDigits_read : ReadsDigits largeDigits := by
  unfold ReadsDigits
  decide

theorem digits_lt_sixteen {base d : Nat} (hd : d ∈ Nat.digits (divisor base) m) : d < 16 := by
  have hlt := Nat.digits_lt_base (one_lt_divisor base) hd
  rw [divisor] at hlt
  split_ifs at hlt <;> omega

theorem numberDigits_numeral (hglyphs : ReadsDigits glyphs) (base m : Nat) : IsNumeral (numberDigits glyphs base m).reverse := by
  constructor
  · intro hempty
    have hlength := length_numberDigits glyphs base m
    rw [List.reverse_eq_nil_iff.mp hempty, List.length_nil] at hlength
    omega
  · intro c hc
    rw [List.mem_reverse, numberDigits] at hc
    split_ifs at hc with hzero
    · rw [List.mem_singleton.mp hc]
      rfl
    · obtain ⟨d, hd, hglyph⟩ := List.mem_map.mp hc
      rw [← hglyph, hglyphs d (digits_lt_sixteen hd)]
      rfl

theorem readDigits_small (hglyphs : ReadsDigits glyphs) {base : Nat} (hm : m < base) (hbase : base ≤ divisor base) :
    readDigits base 0 (numberDigits glyphs base m).reverse = some m := by
  have hsixteen : divisor base ≤ 16 := by
    rw [divisor]
    split_ifs <;> decide
  rw [numberDigits]
  by_cases hzero : m = 0
  · have hdigit : digitOf '0' = some 0 := by decide
    rw [if_pos hzero, hzero, List.reverse_singleton, readDigits, hdigit, Option.bind_some, if_pos (by omega), Nat.zero_mul, Nat.zero_add]
    rfl
  · rw [if_neg hzero, Nat.digits_of_lt _ _ hzero (by omega), List.map_singleton, List.reverse_singleton, readDigits, hglyphs m (by omega),
      Option.bind_some, if_pos hm, Nat.zero_mul, Nat.zero_add]
    rfl

theorem readDigits_numberDigits (hglyphs : ReadsDigits glyphs) {base : Nat} (hbase : divisor base = base) (m : Nat) :
    readDigits base 0 (numberDigits glyphs base m).reverse = some m := by
  have hone := one_lt_divisor base
  by_cases hzero : m = 0
  · exact readDigits_small hglyphs (by omega) (Nat.le_of_eq hbase.symm)
  · have hlt : ∀ d < base, digitOf (glyphs.getD d nul) = some d := by
      intro d hd
      apply hglyphs
      rw [← hbase, divisor] at hd
      split_ifs at hd <;> omega
    rw [numberDigits, if_neg hzero, hbase]
    exact readDigits_digits (by omega) m hlt

theorem readDigits_octal (hglyphs : ReadsDigits glyphs) {r : Nat} (h : readDigits 8 0 (numberDigits glyphs 8 m).reverse = some r) :
    r < m ∨ r = m ∧ m < 8 := by
  by_cases hsmall : m < 8
  · rw [readDigits_small hglyphs hsmall (by decide)] at h
    exact Or.inr ⟨(Option.some.inj h).symm, hsmall⟩
  · left
    rw [numberDigits, if_neg (by omega), readDigits_glyphs fun d hd => hglyphs d (digits_lt_sixteen hd)] at h
    split_ifs at h with hoctal
    rw [← Option.some.inj h]
    by_cases hone : m < 16
    · rw [show divisor 8 = 16 by rfl, Nat.digits_of_lt _ _ (by omega) hone] at hoctal
      exact absurd (hoctal m (List.mem_singleton.mpr rfl)) hsmall
    · exact ofDigits_digits_lt (by decide) (Nat.le_of_not_lt hone) (by decide)

/-! ## The field -/

/-- What `print_number` computes for a conversion. -/
def conversionField (cfg : PrintfConfig) (flags : PrintFlags) (fieldWidth precision : Int) (conv : IntegerConversion) (num : Int) : NumberField :=
  numberField cfg num conv.base fieldWidth precision (flags.of conv)

/-- The number that is written for a `long`. -/
def written (cfg : PrintfConfig) (conv : IntegerConversion) (num : Int) : Int := if conv.signed then num else num % 2 ^ cfg.wordBits

def IntegerConversion.digitGlyphs (conv : IntegerConversion) : List Char := if conv.large then largeDigits else smallDigits

theorem IntegerConversion.digitGlyphs_read (conv : IntegerConversion) : ReadsDigits conv.digitGlyphs := by
  rw [digitGlyphs]
  split_ifs
  · exact largeDigits_read
  · exact smallDigits_read

theorem field_flags (cfg : PrintfConfig) (flags : PrintFlags) (fieldWidth precision : Int) (conv : IntegerConversion) (num : Int) :
    (conversionField cfg flags fieldWidth precision conv num).flags.left = flags.left ∧
      (conversionField cfg flags fieldWidth precision conv num).flags.zeropad = (!flags.left && flags.zeropad) ∧
        (conversionField cfg flags fieldWidth precision conv num).flags.special = flags.special := by
  rw [conversionField, numberField, PrintFlags.of]
  dsimp only
  cases flags.left <;> exact ⟨rfl, rfl, rfl⟩

theorem field_sign (cfg : PrintfConfig) (flags : PrintFlags) (fieldWidth precision : Int) (conv : IntegerConversion) (num : Int) :
    (conversionField cfg flags fieldWidth precision conv num).sign =
      if conv.signed then if num < 0 then some '-' else if flags.plus then some '+' else if flags.space then some ' ' else none else none := by
  rw [conversionField, numberField, PrintFlags.of]
  dsimp only
  cases flags.left <;> rfl

theorem field_tmp (flags : PrintFlags) (fieldWidth precision : Int) (conv : IntegerConversion) (hlow : -2 ^ cfg.wordBits < num) (hhigh : num < 2 ^ cfg.wordBits) :
    (conversionField cfg flags fieldWidth precision conv num).tmp = numberDigits conv.digitGlyphs conv.base (written cfg conv num).natAbs := by
  have hpow : (0 : Int) < 2 ^ cfg.wordBits := Int.pow_pos (by decide)
  have hmagnitude : ((if conv.signed = true ∧ num < 0 then -num else num) % 2 ^ cfg.wordBits).toNat = (written cfg conv num).natAbs := by
    rw [written]
    cases conv.signed with
    | true =>
      by_cases hneg : num < 0
      · rw [if_pos ⟨rfl, hneg⟩, if_pos rfl, Int.emod_eq_of_lt (by omega) (by omega)]
        omega
      · rw [if_neg fun h => hneg h.2, if_pos rfl, Int.emod_eq_of_lt (by omega) hhigh]
        omega
    | false =>
      have hnonneg := Int.emod_nonneg num (Int.ne_of_gt hpow)
      rw [if_neg fun h => Bool.false_ne_true h.1, if_neg Bool.false_ne_true]
      omega
  have hlt : (written cfg conv num).natAbs < 2 ^ cfg.wordBits := by
    have hmod := Int.emod_lt_of_pos (if conv.signed = true ∧ num < 0 then -num else num) hpow
    rw [← hmagnitude, Int.toNat_lt' (Nat.two_pow_pos _)]
    exact_mod_cast hmod
  have htmp : (conversionField cfg flags fieldWidth precision conv num).tmp =
      if ((if conv.signed = true ∧ num < 0 then -num else num) % 2 ^ cfg.wordBits).toNat = 0 then ['0']
      else divideLoop conv.digitGlyphs conv.base cfg.wordBits ((if conv.signed = true ∧ num < 0 then -num else num) % 2 ^ cfg.wordBits).toNat := by
    rw [conversionField, numberField, PrintFlags.of]
    dsimp only
    cases flags.left <;> rfl
  rw [htmp, hmagnitude, divideLoop_eq _ _ hlt, numberDigits]

theorem field_prefix (cfg : PrintfConfig) (flags : PrintFlags) (fieldWidth precision : Int) (conv : IntegerConversion) (num : Int) :
    (specialPrefix cfg (conversionField cfg flags fieldWidth precision conv num)).length = prefixLength cfg flags conv := by
  have hbase : (conversionField cfg flags fieldWidth precision conv num).base = conv.base := rfl
  rw [specialPrefix, prefixLength, (field_flags ..).2.2, hbase]
  split_ifs <;> rfl

theorem field_isSign (cfg : PrintfConfig) (flags : PrintFlags) (fieldWidth precision : Int) (conv : IntegerConversion) (num : Int) :
    IsSign (conversionField cfg flags fieldWidth precision conv num).sign := by
  rw [field_sign]
  split_ifs
  · exact Or.inr (Or.inl rfl)
  · exact Or.inr (Or.inr (Or.inl rfl))
  · exact Or.inr (Or.inr (Or.inr rfl))
  · exact Or.inl rfl
  · exact Or.inl rfl

theorem field_decimal (h : (conversionField cfg flags fieldWidth precision conv num).sign ≠ none) : conv.signed = true ∧ conv.base = 10 := by
  rw [field_sign] at h
  cases conv <;> first | exact ⟨rfl, rfl⟩ | exact absurd rfl h

theorem field_signMark (cfg : PrintfConfig) (flags : PrintFlags) (fieldWidth precision : Int) (conv : IntegerConversion) (num : Int) :
    ((conversionField cfg flags fieldWidth precision conv num).sign = some '-' ∨ (conversionField cfg flags fieldWidth precision conv num).sign = some '+') ↔
      conv.signed = true ∧ (num < 0 ∨ flags.plus = true) := by
  rw [field_sign]
  cases conv.signed with
  | false => simp
  | true =>
    by_cases hneg : num < 0
    · simp [hneg]
    · cases hplus : flags.plus <;> cases hspace : flags.space <;> simp [hneg]

theorem field_widthLeft (flags : PrintFlags) (precision : Int) (conv : IntegerConversion) (hlow : -2 ^ 31 ≤ fieldWidth) (hhigh : fieldWidth < 2 ^ 31)
    (hdigits : (conversionField cfg flags fieldWidth precision conv num).tmp.length = max 1 (Nat.digits conv.base x.natAbs).length) :
    (conversionField cfg flags fieldWidth precision conv num).size = widthLeft cfg flags fieldWidth precision conv x := by
  have hsize : (conversionField cfg flags fieldWidth precision conv num).size =
      toInt32 (fieldWidth - (specialPrefix cfg (conversionField cfg flags fieldWidth precision conv num)).length -
        (conversionField cfg flags fieldWidth precision conv num).precision) := numberField_size cfg num conv.base precision (flags.of conv) hlow hhigh
  have hprecision : (conversionField cfg flags fieldWidth precision conv num).precision =
      if cfg.precision = true ∧ ((conversionField cfg flags fieldWidth precision conv num).tmp.length : Int) ≤ precision then precision
      else (conversionField cfg flags fieldWidth precision conv num).tmp.length := rfl
  rw [hsize, hprecision, field_prefix, hdigits, widthLeft]
  cases cfg.precision with
  | false => rfl
  | true =>
    simp only [true_and, if_true]
    split_ifs with hle
    · rw [Int.max_eq_left hle]
    · rw [Int.max_eq_right (by omega)]

theorem torn_iff (flags : PrintFlags) (precision : Int) (conv : IntegerConversion) (hlow : -2 ^ 31 ≤ fieldWidth) (hhigh : fieldWidth < 2 ^ 31)
    (hdigits : (conversionField cfg flags fieldWidth precision conv num).tmp.length = max 1 (Nat.digits conv.base x.natAbs).length)
    (hnegative : conv.signed = true → (num < 0 ↔ x < 0)) :
    0 < numberGap (conversionField cfg flags fieldWidth precision conv num) ∧ Marked cfg (conversionField cfg flags fieldWidth precision conv num) ↔
      Torn cfg flags fieldWidth precision conv x := by
  have hsize := field_widthLeft flags precision conv hlow hhigh hdigits
  have hbounds := toInt32_bounds (fieldWidth - prefixLength cfg flags conv -
    if cfg.precision then max precision (max 1 (Nat.digits conv.base x.natAbs).length : Nat) else (max 1 (Nat.digits conv.base x.natAbs).length : Nat))
  have hwidth : -2 ^ 31 ≤ widthLeft cfg flags fieldWidth precision conv x ∧ widthLeft cfg flags fieldWidth precision conv x < 2 ^ 31 := hbounds
  have hplain : (flags.left = false ∧ (!flags.left && flags.zeropad) = false) ↔ flags.left = false ∧ flags.zeropad = false := by
    cases flags.left <;> simp
  have hmark : Marked cfg (conversionField cfg flags fieldWidth precision conv num) ↔
      conv.signed = true ∧ (x < 0 ∨ flags.plus = true) ∨ 0 < prefixLength cfg flags conv := by
    have hsigns := field_signMark cfg flags fieldWidth precision conv num
    rw [Marked, ← or_assoc, hsigns, ← field_prefix cfg flags fieldWidth precision conv num, List.length_pos_iff]
    apply or_congr_left
    exact and_congr_right fun hsigned => or_congr_left (hnegative hsigned)
  have hsome : conv.signed = true ∧ (x < 0 ∨ flags.plus = true) → (conversionField cfg flags fieldWidth precision conv num).sign.isSome := by
    intro h
    have hsigns := (field_signMark cfg flags fieldWidth precision conv num).mpr ⟨h.1, h.2.imp_left (hnegative h.1).mpr⟩
    rcases hsigns with hsign | hsign
    · rw [hsign]
      rfl
    · rw [hsign]
      rfl
  have hunsigned : 0 < prefixLength cfg flags conv → ¬ (conversionField cfg flags fieldWidth precision conv num).sign.isSome := by
    intro hlead hsign
    have hdecimal := (field_decimal (Option.isSome_iff_ne_none.mp hsign)).2
    rw [prefixLength, hdecimal] at hlead
    split_ifs at hlead <;> contradiction
  rw [numberGap_pos_iff (by omega) (by omega), (field_flags ..).1, (field_flags ..).2.1, hplain, hsize, hmark, Torn, and_assoc]
  apply and_congr_right
  intro _
  constructor
  · rintro ⟨hleft, hsigned | hlead⟩
    · exact Or.inl ⟨hsigned, hleft.imp_right And.right⟩
    · exact Or.inr ⟨hlead, hleft.resolve_right fun h => hunsigned hlead h.1⟩
  · rintro (⟨hsigned, hleft⟩ | ⟨hlead, hleft⟩)
    · exact ⟨hleft.imp_right fun h => ⟨hsome hsigned, h⟩, Or.inl hsigned⟩
    · exact ⟨Or.inl hleft, Or.inr hlead⟩

/-! ## Reading it back -/

theorem signed_magnitude (cfg : PrintfConfig) (flags : PrintFlags) (fieldWidth precision : Int) (conv : IntegerConversion) (num : Int) :
    (if (conversionField cfg flags fieldWidth precision conv num).sign = some '-' then -((written cfg conv num).natAbs : Int)
      else (written cfg conv num).natAbs) = written cfg conv num := by
  have hpow : (0 : Int) < 2 ^ cfg.wordBits := Int.pow_pos (by decide)
  have hnonneg := Int.emod_nonneg num (Int.ne_of_gt hpow)
  rw [field_sign, written]
  cases conv.signed with
  | false =>
    rw [if_neg Bool.false_ne_true, if_neg (by simp), if_neg Bool.false_ne_true]
    omega
  | true =>
    rw [if_pos rfl, if_pos rfl]
    by_cases hneg : num < 0
    · rw [if_pos hneg, if_pos rfl]
      omega
    · have hsign : (if num < 0 then some '-' else if flags.plus = true then some '+' else if flags.space = true then some ' ' else none) ≠ some '-' := by
        rw [if_neg hneg]
        split_ifs <;> decide
      rw [if_neg hsign]
      omega

theorem length_digits_octal (hm : m < 8) : (Nat.digits 16 m).length = (Nat.digits 8 m).length := by
  by_cases hzero : m = 0
  · rw [hzero, Nat.digits_zero, Nat.digits_zero]
  · rw [Nat.digits_of_lt 16 m hzero (by omega), Nat.digits_of_lt 8 m hzero hm]

theorem divisor_cases (conv : IntegerConversion) : divisor conv.base = conv.base ∨ conv.base = 8 ∧ conv.signed = false := by
  cases conv <;> first | exact Or.inl rfl | exact Or.inr ⟨rfl, rfl⟩

theorem field_tmp_length (flags : PrintFlags) (fieldWidth precision : Int) (conv : IntegerConversion) (hlow : -2 ^ cfg.wordBits < num)
    (hhigh : num < 2 ^ cfg.wordBits) (hoctal : conv.base = 8 → (written cfg conv num).natAbs < 8) :
    (conversionField cfg flags fieldWidth precision conv num).tmp.length = max 1 (Nat.digits conv.base (written cfg conv num).natAbs).length := by
  rw [field_tmp flags fieldWidth precision conv hlow hhigh, length_numberDigits]
  rcases divisor_cases conv with heq | ⟨heq, -⟩
  · rw [heq]
  · rw [heq, show divisor 8 = 16 by rfl, length_digits_octal (hoctal heq)]

theorem IntegerConversion.base_pos (conv : IntegerConversion) : 0 < conv.base := by
  cases conv <;> decide

theorem readNumber_conversion (flags : PrintFlags) (fieldWidth precision : Int) (conv : IntegerConversion) (hlow : -2 ^ cfg.wordBits < num)
    (hhigh : num < 2 ^ cfg.wordBits) :
    readNumber conv.base (numberPiece cfg (conversionField cfg flags fieldWidth precision conv num)).text =
      if 0 < numberGap (conversionField cfg flags fieldWidth precision conv num) ∧ Marked cfg (conversionField cfg flags fieldWidth precision conv num) then none
      else (readDigits conv.base 0 (numberDigits conv.digitGlyphs conv.base (written cfg conv num).natAbs).reverse).map fun n : Nat =>
        if (conversionField cfg flags fieldWidth precision conv num).sign = some '-' then -(n : Int) else n := by
  have htmp := field_tmp flags fieldWidth precision conv hlow hhigh
  have hnumeral := numberDigits_numeral conv.digitGlyphs_read conv.base (written cfg conv num).natAbs
  rw [← htmp] at hnumeral ⊢
  exact readNumber_numberText hnumeral conv.base_pos (field_isSign ..) fun hsign => (field_decimal hsign).2

theorem readNumber_iff (flags : PrintFlags) (precision : Int) (conv : IntegerConversion) (hlow : -2 ^ 31 ≤ fieldWidth) (hhigh : fieldWidth < 2 ^ 31)
    (hnumLow : -2 ^ cfg.wordBits < num) (hnumHigh : num < 2 ^ cfg.wordBits) (hbelow : conv.signed = false → written cfg conv num ≤ x)
    (hrange : written cfg conv num = x ↔ lowest cfg conv.signed ≤ x ∧ x < lowest cfg conv.signed + 2 ^ 32) :
    readNumber conv.base (numberPiece cfg (conversionField cfg flags fieldWidth precision conv num)).text = some x ↔
      Converts cfg flags fieldWidth precision conv x := by
  have hglyphs := conv.digitGlyphs_read
  have hmagnitude := signed_magnitude cfg flags fieldWidth precision conv num
  have hunsigned : conv.signed = false → 0 ≤ written cfg conv num := by
    intro hsigned
    rw [written, hsigned]
    exact Int.emod_nonneg num (Int.ne_of_gt (Int.pow_pos (by decide)))
  have htorn : written cfg conv num = x → (conv.base = 8 → x < 8) →
      (0 < numberGap (conversionField cfg flags fieldWidth precision conv num) ∧ Marked cfg (conversionField cfg flags fieldWidth precision conv num) ↔
        Torn cfg flags fieldWidth precision conv x) := by
    intro hvalue hoctal
    have hsmall : conv.base = 8 → (written cfg conv num).natAbs < 8 := by
      intro hbase
      have hless := hoctal hbase
      rcases divisor_cases conv with heq | ⟨-, hsigned⟩
      · rw [hbase] at heq
        exact absurd heq (by decide)
      · have hnonneg := hunsigned hsigned
        omega
    have hlength := field_tmp_length flags fieldWidth precision conv hnumLow hnumHigh hsmall
    rw [hvalue] at hlength
    apply torn_iff flags precision conv hlow hhigh hlength
    intro hsigned
    rw [← hvalue, written, if_pos hsigned]
  rw [readNumber_conversion flags fieldWidth precision conv hnumLow hnumHigh]
  constructor
  · intro h
    have hgap : ¬ (0 < numberGap (conversionField cfg flags fieldWidth precision conv num) ∧
        Marked cfg (conversionField cfg flags fieldWidth precision conv num)) := by
      intro hgap
      rw [if_pos hgap] at h
      cases h
    rw [if_neg hgap] at h
    obtain ⟨r, hr, hsign⟩ := Option.map_eq_some_iff.mp h
    have hall : written cfg conv num = x ∧ (conv.base = 8 → x < 8) := by
      rcases divisor_cases conv with heq | ⟨hbase, hsigned⟩
      · rw [readDigits_numberDigits hglyphs heq] at hr
        rw [← Option.some.inj hr] at hsign
        refine ⟨hmagnitude.symm.trans hsign, fun hbase => ?_⟩
        rw [hbase] at heq
        exact absurd heq (by decide)
      · have hnone : (conversionField cfg flags fieldWidth precision conv num).sign ≠ some '-' := by
          rw [field_sign, if_neg (by rw [hsigned]; exact Bool.false_ne_true)]
          exact Option.some_ne_none _ |>.symm
        rw [if_neg hnone] at hsign
        rw [hbase] at hr
        have hnonneg := hunsigned hsigned
        have hle := hbelow hsigned
        rcases readDigits_octal hglyphs hr with hlt | ⟨heq, hlt⟩ <;> omega
    exact ⟨hrange.mp hall.1, hall.2, fun hno => hgap ((htorn hall.1 hall.2).mpr hno)⟩
  · intro h
    have hvalue := hrange.mpr h.range
    rw [if_neg (mt (htorn hvalue h.octal).mp h.whole)]
    have hdigits : readDigits conv.base 0 (numberDigits conv.digitGlyphs conv.base (written cfg conv num).natAbs).reverse =
        some (written cfg conv num).natAbs := by
      rcases divisor_cases conv with heq | ⟨hbase, hsigned⟩
      · exact readDigits_numberDigits hglyphs heq _
      · have hnonneg := hunsigned hsigned
        have hless := h.octal hbase
        rw [hbase]
        exact readDigits_small hglyphs (by omega) (by decide)
    rw [hdigits, Option.map_some, hmagnitude, hvalue]

/-! ## The argument -/

def taken (qualifier : Qualifier) (sign : Bool) (value : BitVec 32) : Int :=
  match qualifier with
  | .short => if sign then ((value.toNat % 2 ^ 16 : Nat) : Int).bmod (2 ^ 16) else (value.toNat % 2 ^ 16 : Nat)
  | _ => if sign then value.toInt else value.toNat

/-- It goes through an unsigned word and becomes a `long`. -/
def asLong (cfg : PrintfConfig) (x : Int) : Int := (x % (if cfg.longlong then 2 ^ 64 else 2 ^ 32)).bmod (2 ^ cfg.wordBits)

theorem readInteger_int (cfg : PrintfConfig) (hq : qualifier ≠ .longLong) (sign : Bool) (value : BitVec 32) (args : List PrintArg) :
    readInteger cfg qualifier sign (.int value :: args) = some (asLong cfg (taken qualifier sign value), args) := by
  cases qualifier with
  | none | short | long => rfl
  | longLong => exact absurd rfl hq

theorem asLong_bounds (hword : cfg.wordBits = 32 ∨ cfg.wordBits = 64) (x : Int) : -2 ^ cfg.wordBits < asLong cfg x ∧ asLong cfg x < 2 ^ cfg.wordBits := by
  have hlow : -((2 ^ cfg.wordBits : Nat) / 2 : Int) ≤ asLong cfg x := Int.le_bmod (Nat.two_pow_pos _)
  have hhigh : asLong cfg x < ((2 ^ cfg.wordBits : Nat) + 1 : Int) / 2 := Int.bmod_lt (Nat.two_pow_pos _)
  rcases hword with hword | hword
  · rw [hword] at hlow hhigh ⊢
    omega
  · rw [hword] at hlow hhigh ⊢
    omega

theorem asLong_signed (hword : cfg.wordBits = 32 ∨ cfg.wordBits = 64) (hlow : -2 ^ 31 ≤ x) (hhigh : x < 2 ^ 31) :
    asLong cfg x = if cfg.wordBits = 32 ∨ cfg.longlong = true then x else x % 2 ^ 32 := by
  rw [asLong]
  rcases hword with hword | hword
  · have hmod : ∀ m : Int, (2 ^ 32 : Int) ∣ m → (x % m).bmod (2 ^ 32) = x := by
      intro m hm
      have hself : x.bmod (2 ^ 32) = x := Int.bmod_eq_of_le (by omega) (by omega)
      rw [← Int.emod_bmod, Nat.cast_pow, Nat.cast_ofNat, Int.emod_emod_of_dvd x hm]
      exact (Int.emod_bmod x (2 ^ 32)).trans hself
    rw [if_pos (Or.inl hword), hword]
    cases cfg.longlong with
    | true => exact hmod (2 ^ 64) (by decide)
    | false => exact hmod (2 ^ 32) (Int.dvd_refl _)
  · rw [hword]
    cases cfg.longlong with
    | true =>
      rw [if_pos rfl, if_pos (Or.inr rfl)]
      exact (Int.emod_bmod x (2 ^ 64)).trans (Int.bmod_eq_of_le (by omega) (by omega))
    | false =>
      rw [if_neg Bool.false_ne_true, if_neg (by decide)]
      exact Int.bmod_eq_of_le (by omega) (by omega)

theorem asLong_unsigned (hword : cfg.wordBits = 32 ∨ cfg.wordBits = 64) (hlow : 0 ≤ x) (hhigh : x < 2 ^ 32) :
    asLong cfg x % 2 ^ cfg.wordBits = x := by
  have hself : x % (if cfg.longlong then 2 ^ 64 else 2 ^ 32) = x := by
    split_ifs <;> exact Int.emod_eq_of_lt hlow (by omega)
  have hmod : x.bmod (2 ^ cfg.wordBits) % ((2 ^ cfg.wordBits : Nat) : Int) = x % ((2 ^ cfg.wordBits : Nat) : Int) := Int.bmod_emod
  rw [Nat.cast_pow, Nat.cast_ofNat] at hmod
  rw [asLong, hself, hmod]
  rcases hword with hword | hword <;> rw [hword] <;> exact Int.emod_eq_of_lt hlow (by omega)

theorem written_asLong (hword : cfg.wordBits = 32 ∨ cfg.wordBits = 64) (conv : IntegerConversion)
    (hlow : (if conv.signed then -2 ^ 31 else 0 : Int) ≤ x) (hhigh : x < if conv.signed then 2 ^ 31 else 2 ^ 32) :
    written cfg conv (asLong cfg x) = if conv.signed = true ∧ ¬ (cfg.wordBits = 32 ∨ cfg.longlong = true) then x % 2 ^ 32 else x := by
  rw [written]
  cases hsigned : conv.signed with
  | true =>
    rw [hsigned, if_pos rfl] at hlow hhigh
    rw [if_pos rfl, asLong_signed hword hlow hhigh]
    simp only [true_and, ite_not]
  | false =>
    rw [hsigned, if_neg Bool.false_ne_true] at hlow hhigh
    rw [if_neg Bool.false_ne_true, asLong_unsigned hword hlow hhigh, if_neg fun h => Bool.false_ne_true h.1]

/-! ## The value -/

theorem argValue_unsigned (cfg : PrintfConfig) (qualifier : Qualifier) (word : BitVec cfg.wordBits) : 0 ≤ argValue cfg qualifier false word :=
  Int.natCast_nonneg _

theorem taken_eq (hword : cfg.wordBits = 32 ∨ cfg.wordBits = 64) (hq : qualifier ≠ .longLong) (sign : Bool) (word : BitVec cfg.wordBits) :
    taken qualifier sign (word.setWidth 32) =
      if sign then (argValue cfg qualifier sign word).bmod (2 ^ 32) else argValue cfg qualifier sign word % 2 ^ 32 := by
  have hbits : 32 ≤ cfg.wordBits := by omega
  cases sign with
  | true =>
    rw [if_pos rfl, argValue, if_pos rfl]
    cases qualifier with
    | none => exact (BitVec.toInt_bmod_cancel (word.setWidth 32)).symm
    | short =>
      have hlow := BitVec.le_toInt (word.setWidth 16)
      have hhigh := BitVec.toInt_lt (x := word.setWidth 16)
      have hself : (word.setWidth 16).toInt.bmod (2 ^ 32) = (word.setWidth 16).toInt := Int.bmod_eq_of_le (by omega) (by omega)
      have hmod : (word.setWidth 32).toNat % 2 ^ 16 = word.toNat % 2 ^ 16 := by
        rw [BitVec.toNat_setWidth]
        omega
      rw [argBits, hself, BitVec.toInt_setWidth, taken, hmod, if_pos rfl, Int.natCast_emod, Int.emod_bmod]
    | long =>
      rw [argBits, BitVec.toInt_setWidth, Int.bmod_bmod_of_dvd (Nat.pow_dvd_pow 2 hbits)]
      exact BitVec.toInt_setWidth word
    | longLong => exact absurd rfl hq
  | false =>
    have hnat : ∀ n : Nat, ((n % 2 ^ 32 : Nat) : Int) = (n : Int) % 2 ^ 32 := fun n => by omega
    rw [if_neg Bool.false_ne_true, argValue, if_neg Bool.false_ne_true]
    cases qualifier with
    | none =>
      have hlt := (word.setWidth 32).isLt
      rw [← hnat]
      exact congrArg _ (Nat.mod_eq_of_lt hlt).symm
    | short =>
      have hlt := (word.setWidth 16).isLt
      rw [← hnat, argBits, Nat.mod_eq_of_lt (by omega), BitVec.toNat_setWidth]
      have hmod : (word.setWidth 32).toNat % 2 ^ 16 = word.toNat % 2 ^ 16 := by
        rw [BitVec.toNat_setWidth]
        omega
      exact congrArg _ hmod
    | long =>
      rw [← hnat, argBits, BitVec.toNat_setWidth, Nat.mod_eq_of_lt word.isLt]
      exact congrArg _ (BitVec.toNat_setWidth 32 word)
    | longLong => exact absurd rfl hq

theorem written_iff (hword : cfg.wordBits = 32 ∨ cfg.wordBits = 64) (hq : qualifier ≠ .longLong) (conv : IntegerConversion) (word : BitVec cfg.wordBits) :
    (conv.signed = false → written cfg conv (asLong cfg (taken qualifier conv.signed (word.setWidth 32))) ≤ argValue cfg qualifier conv.signed word) ∧
      (written cfg conv (asLong cfg (taken qualifier conv.signed (word.setWidth 32))) = argValue cfg qualifier conv.signed word ↔
        lowest cfg conv.signed ≤ argValue cfg qualifier conv.signed word ∧
          argValue cfg qualifier conv.signed word < lowest cfg conv.signed + 2 ^ 32) := by
  have htaken := taken_eq hword hq conv.signed word
  have hnonneg : conv.signed = false → 0 ≤ argValue cfg qualifier conv.signed word := fun hsigned => by
    rw [hsigned]
    exact argValue_unsigned cfg qualifier word
  generalize argValue cfg qualifier conv.signed word = value at *
  have hlow : -((2 ^ 32 : Nat) / 2 : Int) ≤ value.bmod (2 ^ 32) := Int.le_bmod (by decide)
  have hhigh : value.bmod (2 ^ 32) < ((2 ^ 32 : Nat) + 1 : Int) / 2 := Int.bmod_lt (by decide)
  have hmod : value.bmod (2 ^ 32) % ((2 ^ 32 : Nat) : Int) = value % ((2 ^ 32 : Nat) : Int) := Int.bmod_emod
  rw [Nat.cast_pow, Nat.cast_ofNat] at hmod
  rw [written_asLong hword conv (by rw [htaken]; split_ifs <;> omega) (by rw [htaken]; split_ifs <;> omega), htaken, lowest]
  cases hsigned : conv.signed with
  | false =>
    have hpos := hnonneg hsigned
    simp only [Bool.false_eq_true, false_and, if_false]
    omega
  | true =>
    by_cases hpassed : cfg.wordBits = 32 ∨ cfg.longlong = true
    · have hself : value.bmod (2 ^ 32) = value ↔ -2 ^ 31 ≤ value ∧ value < 2 ^ 31 :=
        ⟨fun heq => by omega, fun h => Int.bmod_eq_of_le (by omega) (by omega)⟩
      refine ⟨fun hno => absurd hno.symm Bool.false_ne_true, ?_⟩
      rw [if_neg fun h => h.2 hpassed, if_pos rfl, if_pos ⟨rfl, hpassed⟩, hself]
      omega
    · refine ⟨fun hno => absurd hno.symm Bool.false_ne_true, ?_⟩
      rw [if_pos ⟨rfl, hpassed⟩, if_pos rfl, if_neg fun h => hpassed h.2, hmod]
      omega

/-! ## The law -/

/-- A buffer holds the text of a format that is one directive, as far as there is room. -/
theorem rtVsnprintf_directive {buf size : Nat} {spec : List Char} {args rest : List PrintArg} {directive : Directive}
    (hchars : ∀ c ∈ '%' :: spec, 0 < c.toNat ∧ c.toNat < 256) (hread : readDirective cfg spec args = some (directive, [], rest))
    (hbuf : buf < 2 ^ cfg.wordBits) (hsize : 1 ≤ size) (hword : size < 2 ^ cfg.wordBits) (hstays : StaysBelow cfg buf size [directivePiece cfg directive]) :
    ∃ result, rtVsnprintf cfg buf size ⟨'%' :: spec, hchars⟩ args = some (result, storedAt buf (storedText (directivePiece cfg directive).text size)) := by
  have hpieces : outputPieces cfg ⟨'%' :: spec, hchars⟩ args = some [directivePiece cfg directive] := by
    show readFormat cfg (spec.length + 1) ('%' :: spec) args = _
    rw [readFormat, if_neg (fun h => h rfl), hread, Option.bind_some]
    cases spec.length <;> rfl
  have htext : Piece.fullText [directivePiece cfg directive] = (directivePiece cfg directive).text := List.append_nil _
  have heq := rtVsnprintf_eq hpieces hbuf hsize hword hstays
  rw [storedText_endOffset hbuf hsize hstays, htext] at heq
  exact ⟨_, heq⟩

/-- An integer is converted to a field that denotes it exactly where its value has 32 bits, and a `long` those of a negative number, where it has one octal digit, and where the width that is left does not wrap. -/
theorem integerConversion_iff (cfg : PrintfConfig) (hword : cfg.wordBits = 32 ∨ cfg.wordBits = 64) (qualifier : Qualifier)
    (hq : qualifier ≠ .longLong) (flags : PrintFlags) (fieldWidth precision : BitVec 32) (conv : IntegerConversion) (word : BitVec cfg.wordBits) (fmt : List Char) (args : List PrintArg) :
    ∃ directive, readConversion cfg { flags with sign := false, large := false } fieldWidth.toInt precision.toInt qualifier (conv.char :: fmt)
        (.int (word.setWidth 32) :: args) = some (directive, fmt, args) ∧
      (Denotes conv.base fieldWidth.toInt (argValue cfg qualifier conv.signed word) (directivePiece cfg directive).text ↔
        Converts cfg flags fieldWidth.toInt precision.toInt conv (argValue cfg qualifier conv.signed word)) := by
  have hlow := BitVec.le_toInt fieldWidth
  have hhigh := BitVec.toInt_lt (x := fieldWidth)
  refine ⟨.number (asLong cfg (taken qualifier conv.signed (word.setWidth 32))) conv.base fieldWidth.toInt precision.toInt (flags.of conv), ?_, ?_⟩
  · rw [readConversion_integer, readInteger_int cfg hq, Option.map_some]
  · have hbounds := asLong_bounds hword (taken qualifier conv.signed (word.setWidth 32))
    obtain ⟨hbelow, hrange⟩ := written_iff hword hq conv word
    have hread := readNumber_iff flags precision.toInt conv hlow hhigh hbounds.1 hbounds.2 hbelow hrange
    have hwidth := le_numberText_length cfg (asLong cfg (taken qualifier conv.signed (word.setWidth 32))) conv.base precision.toInt (flags.of conv) hlow hhigh
    rw [← hread]
    exact and_iff_left hwidth

/-- `%05d` of -1 -/
theorem integerConversion_iff_zeropad : ∃ directive,
    readConversion ⟨true, true, false, 32⟩ { zeropad := true } 5 (-1) .none ['d'] [.int (-1)] = some (directive, [], []) ∧
      Denotes 10 5 (-1) (directivePiece ⟨true, true, false, 32⟩ directive).text := by
  obtain ⟨directive, hread, hiff⟩ := integerConversion_iff ⟨true, true, false, 32⟩ (Or.inl rfl) .none (by decide)
    { zeropad := true } 5 (-1) .d (-1) [] []
  refine ⟨directive, hread, hiff.mpr ⟨by decide, by decide, fun htorn => absurd htorn.1.2 (by decide)⟩⟩

/-- `%o` of 8 is `8`, and `%d` of -1 is `4294967295` where a `long` has 64 bits. -/
theorem integerConversion_iff_fails :
    (∃ directive, readConversion ⟨true, true, false, 32⟩ {} (-1) (-1) .none ['o'] [.int 8] = some (directive, [], []) ∧
      ¬ Denotes 8 (-1) 8 (directivePiece ⟨true, true, false, 32⟩ directive).text) ∧
    ∃ directive, readConversion ⟨true, true, false, 64⟩ {} (-1) (-1) .none ['d'] [.int (-1)] = some (directive, [], []) ∧
      ¬ Denotes 10 (-1) (-1) (directivePiece ⟨true, true, false, 64⟩ directive).text := by
  constructor
  · exact ⟨_, rfl, fun h => absurd h.1 (by decide +kernel)⟩
  · exact ⟨_, rfl, fun h => absurd h.1 (by decide +kernel)⟩

end RtThread
