import Mathlib

/-!
# Numerals

A reader of numbers as they stand in a text: with spaces around them, a sign, for the base 16 a prefix, and digits. What it reads is the number whose digits have been written, whatever stands in front of them; nothing is read where there are spaces in between.
-/

namespace Numeral

def digitOf (c : Char) : Option Nat :=
  if '0' ≤ c ∧ c ≤ '9' then some (c.toNat - 48)
  else if 'a' ≤ c ∧ c ≤ 'f' then some (c.toNat - 87)
  else if 'A' ≤ c ∧ c ≤ 'F' then some (c.toNat - 55)
  else none

def readDigits (base : Nat) : Nat → List Char → Option Nat
  | n, [] => some n
  | n, c :: text => (digitOf c).bind fun d => if d < base then readDigits base (n * base + d) text else none

/-- `0x` and `0X` do not belong to the digits. -/
def stripPrefix (base : Nat) : List Char → List Char
  | '0' :: c :: text => if base = 16 ∧ (c = 'x' ∨ c = 'X') then text else '0' :: c :: text
  | text => text

def readMagnitude (base : Nat) (text : List Char) : Option Nat :=
  let text := stripPrefix base text
  let digits := text.takeWhile (· ≠ ' ')
  if digits = [] ∨ (text.dropWhile (· ≠ ' ')).any (· ≠ ' ') then none else readDigits base 0 digits

def readSigned (base : Nat) : List Char → Option Int
  | '-' :: text => (readMagnitude base text).map fun n : Nat => -(n : Int)
  | '+' :: text => (readMagnitude base text).map fun n : Nat => (n : Int)
  | text => (readMagnitude base text).map fun n : Nat => (n : Int)

def readNumber (base : Nat) (text : List Char) : Option Int := readSigned base (text.dropWhile (· = ' '))

structure IsNumeral (text : List Char) : Prop where
  nonempty : text ≠ []
  digits : ∀ c ∈ text, (digitOf c).isSome

variable {base n k : Nat} {c : Char} {text more digits : List Char} {ds : List Nat} {glyph : Nat → Char}

/-! ## Spaces -/

theorem dropWhile_spaces (k : Nat) (text : List Char) : (List.replicate k ' ' ++ text).dropWhile (· = ' ') = text.dropWhile (· = ' ') := by
  induction k with
  | zero => rfl
  | succ k ih => exact ih

theorem readNumber_spaces (k : Nat) (text : List Char) : readNumber base (List.replicate k ' ' ++ text) = readNumber base text := by
  rw [readNumber, dropWhile_spaces, readNumber]

theorem ne_of_digit (hdigit : (digitOf c).isSome) {d : Char} (hno : digitOf d = none) : c ≠ d := by
  intro heq
  rw [heq, hno] at hdigit
  cases hdigit

theorem IsNumeral.exists_cons (h : IsNumeral digits) : ∃ c text, digits = c :: text ∧ (digitOf c).isSome := by
  cases digits with
  | nil => exact absurd rfl h.nonempty
  | cons c text => exact ⟨c, text, rfl, h.digits c List.mem_cons_self⟩

theorem IsNumeral.zeros {digits : List Char} (h : IsNumeral digits) (k : Nat) : IsNumeral (List.replicate k '0' ++ digits) := by
  refine ⟨fun hempty => h.nonempty (List.append_eq_nil_iff.mp hempty).2, fun c hc => ?_⟩
  rcases List.mem_append.mp hc with hzero | hdigit
  · rw [(List.mem_replicate.mp hzero).2]
    rfl
  · exact h.digits c hdigit

theorem readNumber_of_digit (hdigit : (digitOf c).isSome) (text : List Char) :
    readNumber base (c :: text) = (readMagnitude base (c :: text)).map fun n : Nat => (n : Int) := by
  have hspace := ne_of_digit hdigit (show digitOf ' ' = none by decide)
  have hminus := ne_of_digit hdigit (show digitOf '-' = none by decide)
  have hplus := ne_of_digit hdigit (show digitOf '+' = none by decide)
  rw [readNumber, List.dropWhile_cons_of_neg (by simpa using hspace), readSigned.eq_def]
  split
  · exact absurd (List.cons.inj ‹_›).1 hminus
  · exact absurd (List.cons.inj ‹_›).1 hplus
  · rfl

theorem readNumber_minus (text : List Char) : readNumber base ('-' :: text) = (readMagnitude base text).map fun n : Nat => -(n : Int) := rfl

theorem readNumber_plus (text : List Char) : readNumber base ('+' :: text) = (readMagnitude base text).map fun n : Nat => (n : Int) := rfl

/-! ## Magnitudes -/

theorem takeWhile_numeral (h : ∀ c ∈ digits, (digitOf c).isSome) (k : Nat) :
    (digits ++ List.replicate k ' ').takeWhile (· ≠ ' ') = digits ∧
      (digits ++ List.replicate k ' ').dropWhile (· ≠ ' ') = List.replicate k ' ' := by
  induction digits with
  | nil => cases k <;> exact ⟨rfl, rfl⟩
  | cons c digits ih =>
    have hspace := ne_of_digit (h c List.mem_cons_self) (show digitOf ' ' = none by decide)
    obtain ⟨htake, hdrop⟩ := ih fun d hd => h d (List.mem_cons_of_mem c hd)
    constructor
    · rw [List.cons_append, List.takeWhile_cons_of_pos (by simpa using hspace), htake]
    · rw [List.cons_append, List.dropWhile_cons_of_pos (by simpa using hspace), hdrop]

theorem stripPrefix_of_ne (hlead : ∀ c text, more ≠ '0' :: c :: text ∨ (c ≠ 'x' ∧ c ≠ 'X')) : stripPrefix base more = more := by
  rw [stripPrefix.eq_def]
  split
  · rename_i c text
    rcases hlead c text with hne | ⟨hx, hX⟩
    · exact absurd rfl hne
    · rw [if_neg fun h => h.2.elim hx hX]
  · rfl

theorem stripPrefix_numeral (h : ∀ c ∈ digits, (digitOf c).isSome) (k : Nat) :
    stripPrefix base (digits ++ List.replicate k ' ') = digits ++ List.replicate k ' ' := by
  apply stripPrefix_of_ne
  intro c text
  by_cases heq : digits ++ List.replicate k ' ' = '0' :: c :: text
  · right
    have hmem : c ∈ digits ++ List.replicate k ' ' := by
      rw [heq]
      exact List.mem_cons_of_mem _ List.mem_cons_self
    rcases List.mem_append.mp hmem with hdigit | hspace
    · exact ⟨ne_of_digit (h c hdigit) (by decide), ne_of_digit (h c hdigit) (by decide)⟩
    · rw [(List.mem_replicate.mp hspace).2]
      exact ⟨by decide, by decide⟩
  · exact Or.inl heq

theorem readMagnitude_stripped (h : IsNumeral digits) (hstrip : stripPrefix base text = digits ++ List.replicate k ' ') :
    readMagnitude base text = readDigits base 0 digits := by
  obtain ⟨htake, hdrop⟩ := takeWhile_numeral h.digits k
  rw [readMagnitude, hstrip, htake, hdrop, if_neg]
  rintro (hempty | hany)
  · exact h.nonempty hempty
  · obtain ⟨c, hc, hne⟩ := List.any_eq_true.mp hany
    exact of_decide_eq_true hne (List.mem_replicate.mp hc).2

theorem readMagnitude_numeral (h : IsNumeral digits) (k : Nat) : readMagnitude base (digits ++ List.replicate k ' ') = readDigits base 0 digits :=
  readMagnitude_stripped h (stripPrefix_numeral h.digits k)

theorem readMagnitude_marked (h : IsNumeral digits) (hc : c = 'x' ∨ c = 'X') (k : Nat) :
    readMagnitude 16 ('0' :: c :: (digits ++ List.replicate k ' ')) = readDigits 16 0 digits :=
  readMagnitude_stripped h (if_pos ⟨rfl, hc⟩)

theorem readMagnitude_space (hstrip : stripPrefix base text = ' ' :: more) : readMagnitude base text = none := by
  rw [readMagnitude, hstrip]
  exact if_pos (Or.inl rfl)

theorem readMagnitude_gap (hc : (digitOf c).isSome) (h : IsNumeral digits) (text : List Char) :
    readMagnitude base (c :: ' ' :: (text ++ digits ++ more)) = none := by
  have hspace := ne_of_digit hc (show digitOf ' ' = none by decide)
  have hstrip : stripPrefix base (c :: ' ' :: (text ++ digits ++ more)) = c :: ' ' :: (text ++ digits ++ more) := by
    apply stripPrefix_of_ne
    intro d rest
    by_cases heq : d = ' '
    · rw [heq]
      exact Or.inr ⟨by decide, by decide⟩
    · exact Or.inl fun hcons => heq (List.cons.inj (List.cons.inj hcons).2).1.symm
  obtain ⟨d, rest, hdigits, hd⟩ := h.exists_cons
  rw [readMagnitude, hstrip]
  apply if_pos
  right
  refine List.any_eq_true.mpr ⟨d, ?_, decide_eq_true (ne_of_digit hd (by decide))⟩
  rw [List.dropWhile_cons_of_pos (by simpa using hspace), List.dropWhile_cons_of_neg (by simp), hdigits]
  simp

/-! ## Digits -/

theorem readDigits_append (base : Nat) (n : Nat) (text more : List Char) :
    readDigits base n (text ++ more) = (readDigits base n text).bind fun m => readDigits base m more := by
  induction text generalizing n with
  | nil => rfl
  | cons c text ih =>
    rw [List.cons_append, readDigits, readDigits]
    cases digitOf c with
    | none => rfl
    | some d =>
      rw [Option.bind_some, Option.bind_some]
      split_ifs
      · exact ih _
      · rfl

theorem readDigits_zeros (hbase : 0 < base) (k : Nat) (text : List Char) :
    readDigits base 0 (List.replicate k '0' ++ text) = readDigits base 0 text := by
  induction k with
  | zero => rfl
  | succ k ih =>
    have hzero : digitOf '0' = some 0 := by decide
    rw [List.replicate_succ, List.cons_append, readDigits, hzero, Option.bind_some, if_pos hbase, Nat.zero_mul]
    exact ih

theorem readDigits_glyphs (hglyph : ∀ d ∈ ds, digitOf (glyph d) = some d) :
    readDigits base 0 (ds.map glyph).reverse = if ∀ d ∈ ds, d < base then some (Nat.ofDigits base ds) else none := by
  induction ds with
  | nil => rfl
  | cons d ds ih =>
    have hrest := ih fun e he => hglyph e (List.mem_cons_of_mem d he)
    rw [List.map_cons, List.reverse_cons, readDigits_append, hrest]
    by_cases hall : ∀ e ∈ ds, e < base
    · rw [if_pos hall, Option.bind_some, readDigits, hglyph d List.mem_cons_self, Option.bind_some]
      by_cases hd : d < base
      · have hcons : ∀ e ∈ d :: ds, e < base := List.forall_mem_cons.mpr ⟨hd, hall⟩
        rw [if_pos hd, if_pos hcons, readDigits, Nat.ofDigits_cons, Nat.add_comm, Nat.mul_comm]
      · rw [if_neg hd, if_neg fun hcons => hd (hcons d List.mem_cons_self)]
    · rw [if_neg hall, if_neg fun hcons => hall fun e he => hcons e (List.mem_cons_of_mem d he)]
      rfl

theorem readDigits_digits (hbase : 1 < base) (n : Nat) (hglyph : ∀ d < base, digitOf (glyph d) = some d) :
    readDigits base 0 ((Nat.digits base n).map glyph).reverse = some n := by
  have hlt : ∀ d ∈ Nat.digits base n, d < base := fun d hd => Nat.digits_lt_base hbase hd
  rw [readDigits_glyphs fun d hd => hglyph d (hlt d hd), if_pos hlt, Nat.ofDigits_digits]

theorem ofDigits_digits_lt {small : Nat} (hlt : small < base) (hn : base ≤ n) (hsmall : 0 < small) : Nat.ofDigits small (Nat.digits base n) < n := by
  have hbase : 1 < base := by omega
  have hpos : 0 < n := by omega
  have hle := Nat.ofDigits_monotone (Nat.digits base (n / base)) (Nat.le_of_lt hlt)
  rw [Nat.ofDigits_digits] at hle
  have hquotient : 0 < n / base := Nat.div_pos hn (by omega)
  rw [Nat.digits_def' hbase hpos, Nat.ofDigits_cons]
  calc n % base + small * Nat.ofDigits small (Nat.digits base (n / base))
      ≤ n % base + small * (n / base) := Nat.add_le_add_left (Nat.mul_le_mul_left small hle) _
    _ < n % base + base * (n / base) := Nat.add_lt_add_left (Nat.mul_lt_mul_of_pos_right hlt hquotient) _
    _ = n := Nat.mod_add_div n base

end Numeral
