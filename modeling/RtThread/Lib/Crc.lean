import Mathlib

/-!
# Cyclic redundancy checks

The register of a check takes the bits of a message one by one, the highest coefficient first. What it holds in the end is the remainder of the message, moved up by the width of the register, under division by the generator. A word of the message may go in by a table instead: the table needs the words that are fed into the register when it is clear, and nothing else.
-/

namespace Crc

variable {w k : Nat} {ι : Type*}

/-- One bit goes into the register. `g` are the coefficients of the generator below its degree. -/
def step (g r : BitVec w) (b : Bool) : BitVec w := if (r.msb ^^ b) = true then r <<< 1 ^^^ g else r <<< 1

def feed (g r : BitVec w) (l : List Bool) : BitVec w := l.foldl (step g) r

/-- The bits of a word from its highest, `n` of them. -/
def msbs (n : Nat) (r : BitVec w) : List Bool := (List.range n).map r.getMsbD

variable {g r s : BitVec w} {l m : List Bool}

@[simp]
theorem feed_nil : feed g r [] = r := rfl

@[simp]
theorem feed_cons {b : Bool} : feed g r (b :: l) = feed g (step g r b) l := rfl

theorem feed_append : feed g r (l ++ m) = feed g (feed g r l) m := List.foldl_append

theorem msbs_succ (n : Nat) : msbs (n + 1) r = msbs n r ++ [r.getMsbD n] := by
  rw [msbs, List.range_succ, List.map_append]
  rfl

theorem step_xor (a b : Bool) : step g (r ^^^ s) (a ^^ b) = step g r a ^^^ step g s b := by
  have hmsb : ((r ^^^ s).msb ^^ (a ^^ b)) = ((r.msb ^^ a) ^^ (s.msb ^^ b)) := by
    rw [BitVec.msb_xor]
    cases r.msb <;> cases s.msb <;> cases a <;> cases b <;> rfl
  simp only [step, hmsb, BitVec.shiftLeft_xor_distrib]
  cases r.msb ^^ a <;> cases s.msb ^^ b
  · rfl
  · simp only [Bool.false_xor, Bool.false_eq_true, if_true, if_false, BitVec.xor_assoc]
  · simp only [Bool.xor_false, Bool.false_eq_true, if_true, if_false]
    ac_rfl
  · have hcancel : r <<< 1 ^^^ g ^^^ (s <<< 1 ^^^ g) = r <<< 1 ^^^ s <<< 1 ^^^ (g ^^^ g) := by ac_rfl
    simp only [Bool.xor_self, Bool.false_eq_true, if_true, if_false, hcancel, BitVec.xor_self, BitVec.xor_zero]

theorem feed_xor (a b : ι → Bool) (js : List ι) :
    feed g (r ^^^ s) (js.map fun j => a j ^^ b j) = feed g r (js.map a) ^^^ feed g s (js.map b) := by
  induction js generalizing r s with
  | nil => rfl
  | cons j js ih => simp only [List.map_cons, feed_cons, step_xor, ih]

theorem feed_msbs (n : Nat) : feed g r (msbs n r) = r <<< n := by
  induction n with
  | zero => simp only [msbs, List.range_zero, List.map_nil, feed_nil, BitVec.shiftLeft_zero]
  | succ n ih =>
    rw [msbs_succ, feed_append, ih]
    have hmsb : (r <<< n).msb = r.getMsbD n := by
      rw [BitVec.msb, BitVec.getMsbD_shiftLeft, Nat.zero_add]
    rw [feed_cons, feed_nil, step, hmsb, Bool.xor_self, if_neg Bool.false_ne_true, ← BitVec.shiftLeft_add]

theorem feed_self : feed g r (msbs w r) = 0#w := by
  rw [feed_msbs]
  exact BitVec.shiftLeft_eq_zero le_rfl

theorem getMsbD_high (hk : k ≤ w) (r : BitVec w) {i : Nat} (hi : i < k) : ((r >>> (w - k)).setWidth k).getMsbD i = r.getMsbD i := by
  simp only [BitVec.getMsbD_eq_getLsbD, BitVec.getLsbD_setWidth, BitVec.getLsbD_ushiftRight, hi, decide_true, Bool.true_and,
    show k - 1 - i < k by omega, show i < w by omega, show w - k + (k - 1 - i) = w - 1 - i by omega]

theorem msbs_add (n : Nat) (r : BitVec (k + n)) : msbs (k + n) r = msbs k ((r >>> n).setWidth k) ++ msbs n (r.setWidth n) := by
  rw [msbs, List.range_add, List.map_append, List.map_map]
  congr 1
  · apply List.map_congr_left
    intro i hi
    have hhigh := getMsbD_high (Nat.le_add_right k n) r (List.mem_range.mp hi)
    rw [Nat.add_sub_cancel_left] at hhigh
    exact hhigh.symm
  · apply List.map_congr_left
    intro i hi
    have hin : i < n := List.mem_range.mp hi
    simp only [Function.comp_apply, BitVec.getMsbD_eq_getLsbD, BitVec.getLsbD_setWidth, hin, decide_true, Bool.true_and,
      show n - 1 - i < n by omega, show k + i < k + n by omega, show k + n - 1 - (k + i) = n - 1 - i by omega]

/-- A word of the message goes in at once: the register is moved up, and the word that met its highest bits goes into a clear one. -/
theorem feed_word (hk : k ≤ w) (b : BitVec k) :
    feed g r (msbs k b) = r <<< k ^^^ feed g 0#w (msbs k ((r >>> (w - k)).setWidth k ^^^ b)) := by
  have hword : msbs k b = (List.range k).map fun i => r.getMsbD i ^^ ((r >>> (w - k)).setWidth k ^^^ b).getMsbD i := by
    apply List.map_congr_left
    intro i hi
    rw [BitVec.getMsbD_xor, getMsbD_high hk r (List.mem_range.mp hi), ← Bool.xor_assoc, Bool.xor_self, Bool.false_xor]
  have hlinear := feed_xor (g := g) (r := r) (s := 0#w) r.getMsbD ((r >>> (w - k)).setWidth k ^^^ b).getMsbD (List.range k)
  rw [BitVec.xor_zero, ← hword] at hlinear
  rw [hlinear]
  exact congrArg (· ^^^ _) (feed_msbs k)

/-! ## Bursts

Messages that differ in no more consecutive bits than the register has leave different things in it. -/

/-- Of a generator that `X` does not divide no step loses what the register holds. -/
theorem step_ne_zero (hg : g.getLsbD 0 = true) (hr : r ≠ 0#w) : step g r false ≠ 0#w := by
  have hw : 0 < w := Nat.pos_of_ne_zero (by rintro rfl; exact hr (BitVec.eq_nil r))
  intro hzero
  rw [step, Bool.xor_false] at hzero
  by_cases hmsb : r.msb = true
  · have hlow := congrArg (fun v => v.getLsbD 0) hzero
    simp [hmsb, hg] at hlow
  · rw [if_neg hmsb] at hzero
    refine hr (BitVec.eq_of_getLsbD_eq fun i hi => ?_)
    rw [BitVec.getLsbD_zero]
    by_cases hlast : i = w - 1
    · rw [hlast, ← BitVec.msb_eq_getLsbD_last]
      exact Bool.not_eq_true _ ▸ hmsb
    · have hbit := congrArg (fun v => v.getLsbD (i + 1)) hzero
      simpa [show i + 1 < w by omega, BitVec.getLsbD_eq_getElem hi] using hbit

theorem feed_false_zero (n : Nat) : feed g 0#w (List.replicate n false) = 0#w := by
  induction n with
  | zero => rfl
  | succ n ih => simpa [List.replicate_succ, step, BitVec.msb_zero] using ih

theorem feed_injective (hg : g.getLsbD 0 = true) (h : feed g r l = feed g s l) : r = s := by
  induction l generalizing r s with
  | nil => exact h
  | cons b l ih =>
    have hstep := step_xor (g := g) (r := r) (s := s) b b
    rw [ih h, BitVec.xor_self, Bool.xor_self] at hstep
    by_contra hne
    exact step_ne_zero hg (fun hzero => hne (BitVec.xor_eq_zero_iff.mp hzero)) hstep

theorem msbs_injective (h : msbs w r = msbs w s) : r = s :=
  BitVec.eq_of_getMsbD_eq fun i hi => List.map_inj_left.mp h i (List.mem_range.mpr hi)

theorem msbs_ofBoolListBE (d : List Bool) : msbs d.length (BitVec.ofBoolListBE d) = d := by
  apply List.ext_getElem
  · rw [msbs, List.length_map, List.length_range]
  · intro i hi hi'
    simp [msbs, List.getElem?_eq_getElem hi']

/-- Words that fit the register leave different things in it. -/
theorem eq_of_feed (hg : g.getLsbD 0 = true) (hlen : l.length = m.length) (hword : l.length ≤ w) (hfeed : feed g r l = feed g r m) : l = m := by
  -- the difference, with zeros behind it up to the width of the register
  obtain ⟨d, hd⟩ : ∃ d, d = (l.zip m).map fun j => j.1 ^^ j.2 := ⟨_, rfl⟩
  have hzero : feed g 0#w d = 0#w := by
    have hlinear := feed_xor (g := g) (r := r) (s := r) Prod.fst Prod.snd (l.zip m)
    rwa [← hd, List.map_fst_zip hlen.le, List.map_snd_zip hlen.ge, hfeed, BitVec.xor_self, BitVec.xor_self] at hlinear
  obtain ⟨k, rfl⟩ : ∃ k, w = (d ++ List.replicate k false).length := ⟨w - d.length, by simp [hd, ← hlen]; omega⟩
  have hself := feed_self (g := g) (r := BitVec.ofBoolListBE (d ++ List.replicate k false))
  have hbits := msbs_ofBoolListBE (d ++ List.replicate k false)
  rw [hbits, ← feed_false_zero (g := g) k, ← hzero, ← feed_append] at hself
  rw [feed_injective hg hself] at hbits
  have hsame : ∀ j ∈ l.zip m, j.1 = j.2 := by
    intro j hj
    have hmem : (j.1 ^^ j.2) ∈ d ++ List.replicate k false := List.mem_append_left _ (hd ▸ List.mem_map_of_mem hj)
    obtain ⟨i, -, hi⟩ := List.mem_map.mp (hbits ▸ hmem)
    rw [BitVec.getMsbD_zero] at hi
    simpa using hi.symm
  calc l = (l.zip m).map Prod.fst := (List.map_fst_zip hlen.le).symm
    _ = (l.zip m).map Prod.snd := List.map_congr_left hsame
    _ = m := List.map_snd_zip hlen.ge

/-- A burst that is no longer than the register is noticed. -/
theorem eq_of_burst (hg : g.getLsbD 0 = true) (hlen : l.length = m.length) (a : Nat)
    (hout : ∀ i, i < a ∨ a + w ≤ i → l[i]? = m[i]?) (hfeed : feed g r l = feed g r m) : l = m := by
  have hfront : l.take a = m.take a := by
    apply List.ext_getElem?
    intro i
    rw [List.getElem?_take, List.getElem?_take]
    split_ifs with hi
    · exact hout i (.inl hi)
    · rfl
  have hback : (l.drop a).drop w = (m.drop a).drop w := by
    apply List.ext_getElem?
    intro i
    rw [List.drop_drop, List.drop_drop, List.getElem?_drop, List.getElem?_drop]
    exact hout _ (.inr (Nat.le_add_right _ i))
  have hsplit (n : List Bool) : n = n.take a ++ ((n.drop a).take w ++ (n.drop a).drop w) := by
    rw [List.take_append_drop, List.take_append_drop]
  rw [hsplit l, hsplit m, hfront, hback, feed_append, feed_append, feed_append, feed_append] at hfeed
  rw [hsplit l, hsplit m, hfront, hback]
  have hword := eq_of_feed hg (by simp [hlen]) (by simp) (feed_injective hg hfeed)
  rw [hword]

/-! ## Division

A word of bits stands for the polynomial over the field of two elements that has them as its coefficients. -/

section Division

open Polynomial

def coeffBit (b : Bool) : ZMod 2 := if b then 1 else 0

theorem coeffBit_xor (a b : Bool) : coeffBit (a ^^ b) = coeffBit a + coeffBit b := by
  cases a <;> cases b <;> decide

noncomputable def regPoly (r : BitVec w) : (ZMod 2)[X] := ∑ i ∈ Finset.range w, C (coeffBit (r.getLsbD i)) * X ^ i

noncomputable def msgPoly (l : List Bool) : (ZMod 2)[X] := l.foldl (fun p b => p * X + C (coeffBit b)) 0

/-- The generator with `g` below its degree. -/
noncomputable def generator (g : BitVec w) : (ZMod 2)[X] := X ^ w + regPoly g

theorem regPoly_xor (r s : BitVec w) : regPoly (r ^^^ s) = regPoly r + regPoly s := by
  simp only [regPoly, BitVec.getLsbD_xor, coeffBit_xor, C_add, add_mul, Finset.sum_add_distrib]

theorem regPoly_shift (r : BitVec w) : regPoly r * X = regPoly (r <<< 1) + C (coeffBit r.msb) * X ^ w := by
  cases w with
  | zero =>
    have hmsb : r.msb = false := by rw [BitVec.eq_nil r]; rfl
    simp only [regPoly, Finset.range_zero, Finset.sum_empty, zero_mul, zero_add, hmsb, coeffBit, Bool.false_eq_true, if_false, C_0]
  | succ w =>
    have hlow : ∀ i ∈ Finset.range w, C (coeffBit ((r <<< 1).getLsbD (i + 1))) * X ^ (i + 1) = C (coeffBit (r.getLsbD i)) * X ^ i * (X : (ZMod 2)[X]) := by
      intro i hi
      have hiw : i < w := Finset.mem_range.mp hi
      have hbit : (r <<< 1).getLsbD (i + 1) = r.getLsbD i := by
        simp only [BitVec.getLsbD_shiftLeft, show i + 1 < w + 1 by omega, decide_true, Bool.true_and, show ¬ i + 1 < 1 by omega,
          decide_false, Bool.not_false, Nat.add_sub_cancel]
      rw [hbit, pow_succ, mul_assoc]
    have hzero : (r <<< 1).getLsbD 0 = false := by
      simp only [BitVec.getLsbD_shiftLeft, Nat.zero_lt_one, decide_true, Bool.not_true, Bool.and_false, Bool.false_and]
    rw [regPoly, regPoly, Finset.sum_range_succ, Finset.sum_range_succ', Finset.sum_congr rfl hlow, hzero, add_mul, Finset.sum_mul,
      BitVec.msb_eq_getLsbD_last, Nat.add_sub_cancel, pow_succ, mul_assoc]
    simp only [coeffBit, Bool.false_eq_true, if_false, C_0, zero_mul, add_zero]

theorem regPoly_degree (r : BitVec w) : (regPoly r).degree < w := by
  refine lt_of_le_of_lt (degree_sum_le _ _) ?_
  apply (Finset.sup_lt_iff (WithBot.bot_lt_coe w)).mpr
  intro i hi
  exact lt_of_le_of_lt (degree_C_mul_X_pow_le i _) (WithBot.coe_lt_coe.mpr (Finset.mem_range.mp hi))

theorem generator_monic (g : BitVec w) : (generator g).Monic := monic_X_pow_add (regPoly_degree g)

theorem generator_degree (g : BitVec w) : (generator g).degree = w := by
  have hlt : (regPoly g).degree < ((X : (ZMod 2)[X]) ^ w).degree := by
    rw [degree_X_pow]
    exact regPoly_degree g
  rw [generator, degree_add_eq_left_of_degree_lt hlt, degree_X_pow]

/-- Feeding a bit multiplies by `X`, adds the bit at the degree of the generator and takes the generator off when it goes in. -/
theorem regPoly_step (g r : BitVec w) (b : Bool) :
    regPoly (step g r b) + C (coeffBit (r.msb ^^ b)) * generator g = regPoly r * X + C (coeffBit b) * X ^ w := by
  rw [regPoly_shift, add_assoc, ← add_mul, ← C_add, ← coeffBit_xor, step]
  cases r.msb ^^ b
  · simp only [coeffBit, Bool.false_eq_true, if_false, C_0, zero_mul]
  · simp only [coeffBit, if_true, C_1, one_mul, generator, regPoly_xor]
    rw [add_assoc, add_comm (X ^ w), ← add_assoc (regPoly g), CharTwo.add_self_eq_zero, zero_add]

theorem msgPoly_append_bit (l : List Bool) (b : Bool) : msgPoly (l ++ [b]) = msgPoly l * X + C (coeffBit b) := by
  rw [msgPoly, msgPoly, List.foldl_append]
  rfl

theorem regPoly_feed (g : BitVec w) (l : List Bool) : regPoly (feed g 0#w l) = msgPoly l * X ^ w %ₘ generator g := by
  obtain ⟨q, hq⟩ : ∃ q, regPoly (feed g 0#w l) + generator g * q = msgPoly l * X ^ w := by
    induction l using List.reverseRecOn with
    | nil =>
      refine ⟨0, ?_⟩
      simp only [feed_nil, regPoly, BitVec.getLsbD_zero, coeffBit, Bool.false_eq_true, if_false, C_0, zero_mul, Finset.sum_const_zero,
        mul_zero, add_zero, msgPoly, List.foldl_nil]
    | append_singleton l b ih =>
      obtain ⟨q, hq⟩ := ih
      refine ⟨C (coeffBit ((feed g 0#w l).msb ^^ b)) + q * X, ?_⟩
      have hstep := regPoly_step g (feed g 0#w l) b
      rw [feed_append, feed_cons, feed_nil, msgPoly_append_bit]
      calc regPoly (step g (feed g 0#w l) b) + generator g * (C (coeffBit ((feed g 0#w l).msb ^^ b)) + q * X)
          = (regPoly (step g (feed g 0#w l) b) + C (coeffBit ((feed g 0#w l).msb ^^ b)) * generator g) + generator g * q * X := by ring
        _ = (regPoly (feed g 0#w l) + generator g * q) * X + C (coeffBit b) * X ^ w := by rw [hstep]; ring
        _ = (msgPoly l * X + C (coeffBit b)) * X ^ w := by rw [hq]; ring
  exact ((div_modByMonic_unique q _ (generator_monic g) ⟨hq, by rw [generator_degree]; exact regPoly_degree _⟩).2).symm

end Division

end Crc
