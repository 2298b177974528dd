import Mathlib

/-!
# Singly linked lists

A list as it stands in memory: every cell holds the pointer to the next, and the pointer to the first cell is kept elsewhere. A null pointer ends the list.
-/

variable {α : Type*} {next next' : α → Option α} {p : Option α} {a b last : α} {l l' l₁ l₂ : List α}

/-- From pointer `p` on the cells of `l` are linked, and nothing behind them. -/
def LinkedFrom (next : α → Option α) : Option α → List α → Prop
  | p, [] => p = none
  | p, a :: l => p = some a ∧ LinkedFrom next (next a) l

namespace LinkedFrom

@[simp] theorem nil_iff : LinkedFrom next p [] ↔ p = none := Iff.rfl

@[simp] theorem cons_iff : LinkedFrom next p (a :: l) ↔ p = some a ∧ LinkedFrom next (next a) l := Iff.rfl

theorem congr (h : LinkedFrom next p l) (hnext : ∀ a ∈ l, next' a = next a) : LinkedFrom next' p l := by
  induction l generalizing p with
  | nil => exact h
  | cons a l ih =>
    refine ⟨h.1, ?_⟩
    rw [hnext a (List.mem_cons_self ..)]
    exact ih h.2 fun b hb => hnext b (List.mem_cons_of_mem a hb)

theorem unique (h : LinkedFrom next p l) (h' : LinkedFrom next p l') : l = l' := by
  induction l generalizing p l' with
  | nil =>
    cases l' with
    | nil => rfl
    | cons b l' => exact absurd (h'.1.symm.trans h) (Option.some_ne_none b)
  | cons a l ih =>
    cases l' with
    | nil => exact absurd (h.1.symm.trans h') (Option.some_ne_none a)
    | cons b l' =>
      have hab : a = b := Option.some.inj (h.1.symm.trans h'.1)
      subst hab
      rw [ih h.2 h'.2]

theorem eq_none_iff (h : LinkedFrom next p l) : p = none ↔ l = [] := by
  cases l with
  | nil => simpa using h
  | cons a l => simp [h.1]

theorem head?_eq (h : LinkedFrom next p l) : l.head? = p := by
  cases l with
  | nil => exact h.symm
  | cons a l => exact h.1.symm

theorem exists_of_some (h : LinkedFrom next (some a) l) : ∃ rest, l = a :: rest ∧ LinkedFrom next (next a) rest := by
  cases l with
  | nil => cases h
  | cons b rest =>
    have hab : a = b := Option.some.inj h.1
    subst hab
    exact ⟨rest, rfl, h.2⟩

theorem next_eq_head? (h : LinkedFrom next p (l₁ ++ b :: l₂)) : next b = l₂.head? := by
  induction l₁ generalizing p with
  | nil => exact h.2.head?_eq.symm
  | cons c l₁ ih => exact ih h.2

theorem of_head? (h : LinkedFrom next p (l₁ ++ l₂)) : LinkedFrom next l₂.head? l₂ := by
  induction l₁ generalizing p with
  | nil =>
    have hhead : l₂.head? = p := head?_eq h
    rwa [hhead]
  | cons c l₁ ih => exact ih h.2

variable [DecidableEq α]

theorem update {q : Option α} (h : LinkedFrom next p l) (ha : a ∉ l) : LinkedFrom (Function.update next a q) p l :=
  h.congr fun b hb => Function.update_of_ne (fun heq : b = a => ha (heq ▸ hb)) ..

theorem push (h : LinkedFrom next p l) (ha : a ∉ l) : LinkedFrom (Function.update next a p) (some a) (a :: l) := by
  refine ⟨rfl, ?_⟩
  rw [Function.update_self]
  exact h.update ha

theorem append (h : LinkedFrom next p l) (hnodup : l.Nodup) (hlast : l.getLast? = some last) (ha : a ∉ l)
    (hend : next a = none) : LinkedFrom (Function.update next last (some a)) p (l ++ [a]) := by
  induction l generalizing p with
  | nil => cases hlast
  | cons b rest ih =>
    obtain ⟨hb, hrest⟩ := List.nodup_cons.1 hnodup
    obtain ⟨hab, harest⟩ := not_or.1 (mt List.mem_cons.2 ha)
    refine ⟨h.1, ?_⟩
    cases rest with
    | nil =>
      obtain rfl : b = last := by simpa using hlast
      rw [Function.update_self]
      refine ⟨rfl, ?_⟩
      rw [Function.update_of_ne hab]
      exact hend
    | cons c rest =>
      rw [List.getLast?_cons_cons] at hlast
      have hmem : last ∈ c :: rest := List.mem_of_getLast? hlast
      rw [Function.update_of_ne fun heq : b = last => hb (heq ▸ hmem)]
      exact ih h.2 hrest hlast harest

theorem insertAfter (h : LinkedFrom next p (l₁ ++ b :: l₂)) (hnodup : (l₁ ++ b :: l₂).Nodup) (ha : a ∉ l₁ ++ b :: l₂) :
    LinkedFrom (Function.update (Function.update next a (next b)) b (some a)) p (l₁ ++ b :: a :: l₂) := by
  induction l₁ generalizing p with
  | nil =>
    obtain ⟨hb, hnodup'⟩ := List.nodup_cons.1 hnodup
    obtain ⟨hab, hal⟩ := not_or.1 (mt List.mem_cons.2 ha)
    refine ⟨h.1, ?_⟩
    rw [Function.update_self]
    refine ⟨rfl, ?_⟩
    rw [Function.update_of_ne hab, Function.update_self]
    exact (h.2.update hal).update hb
  | cons c l₁ ih =>
    obtain ⟨hc, hnodup'⟩ := List.nodup_cons.1 hnodup
    obtain ⟨hac, hal⟩ := not_or.1 (mt List.mem_cons.2 ha)
    have hcb : c ≠ b := fun heq => hc (heq ▸ List.mem_append_right l₁ List.mem_cons_self)
    refine ⟨h.1, ?_⟩
    rw [Function.update_of_ne hcb, Function.update_of_ne (Ne.symm hac)]
    exact ih h.2 hnodup' hal

theorem unlink (h : LinkedFrom next p (l₁ ++ b :: a :: l₂)) (hnodup : (l₁ ++ b :: a :: l₂).Nodup) :
    LinkedFrom (Function.update next b (next a)) p (l₁ ++ b :: l₂) := by
  induction l₁ generalizing p with
  | nil =>
    obtain ⟨hb, hnodup'⟩ := List.nodup_cons.1 hnodup
    refine ⟨h.1, ?_⟩
    rw [Function.update_self]
    exact h.2.2.update fun hmem => hb (List.mem_cons_of_mem a hmem)
  | cons c rest ih =>
    obtain ⟨hc, hnodup'⟩ := List.nodup_cons.1 hnodup
    refine ⟨h.1, ?_⟩
    have hcb : c ≠ b := fun heq => hc (heq ▸ List.mem_append_right rest List.mem_cons_self)
    rw [Function.update_of_ne hcb]
    exact ih h.2 hnodup'

end LinkedFrom

/-! ## Walks -/

/-- The cells from `p` on, as far as `n` steps go. -/
def follow (next : α → Option α) : Nat → Option α → List α
  | 0, _ => []
  | _, none => []
  | n + 1, some a => a :: follow next n (next a)

/-- The last cell from `a` on, if it is found in `n` steps. -/
def lastFrom (next : α → Option α) : Nat → α → Option α
  | 0, _ => none
  | n + 1, a =>
    match next a with
    | none => some a
    | some b => lastFrom next n b

namespace LinkedFrom

theorem follow_eq {n : Nat} (h : LinkedFrom next p l) (hlen : l.length ≤ n) : follow next n p = l := by
  induction l generalizing p n with
  | nil =>
    obtain rfl := nil_iff.1 h
    cases n <;> rfl
  | cons a rest ih =>
    obtain ⟨rfl, hrest⟩ := cons_iff.1 h
    cases n with
    | zero => cases hlen
    | succ n => rw [follow, ih hrest (Nat.le_of_succ_le_succ hlen)]

theorem lastFrom_eq {n : Nat} (h : LinkedFrom next (some a) l) (hlen : l.length ≤ n) : lastFrom next n a = l.getLast? := by
  induction l generalizing a n with
  | nil => cases h
  | cons b rest ih =>
    obtain ⟨heq, hrest⟩ := cons_iff.1 h
    obtain rfl := Option.some.inj heq
    cases n with
    | zero => cases hlen
    | succ n =>
      cases rest with
      | nil =>
        rw [lastFrom, nil_iff.1 hrest]
        rfl
      | cons c rest =>
        have hnext : next a = some c := hrest.1
        rw [hnext] at hrest
        rw [lastFrom, hnext, List.getLast?_cons_cons]
        exact ih hrest (Nat.le_of_succ_le_succ hlen)

end LinkedFrom
