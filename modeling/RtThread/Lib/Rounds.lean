import Mathlib

/-!
# Intervals laid out in rounds

A bounded space is filled with intervals from its start on; when its end is near, the next interval goes to the start again, in front of the oldest that is left. Read from the oldest to the newest, the intervals ascend, or they consist of a high part that ascends and a low part that ascends below it. Intervals may be taken out anywhere.
-/

namespace Rounds

variable {α : Type*} {lo hi lo' hi' : α → Nat} {l l' : List α} {a b x : α}

def Ascends (lo hi : α → Nat) (l : List α) : Prop := l.Pairwise fun a b => hi a ≤ lo b

def GoesRound (lo hi : α → Nat) (l : List α) : Prop := ∃ high low, l = high ++ low ∧ Ascends lo hi (low ++ high)

theorem Ascends.goesRound (h : Ascends lo hi l) : GoesRound lo hi l := ⟨l, [], (List.append_nil l).symm, h⟩

theorem GoesRound.sublist (h : GoesRound lo hi l) (hsub : l'.Sublist l) : GoesRound lo hi l' := by
  obtain ⟨high, low, rfl, hasc⟩ := h
  obtain ⟨high', low', rfl, hhigh, hlow⟩ := List.sublist_append_iff.1 hsub
  exact ⟨high', low', rfl, hasc.sublist (hlow.append hhigh)⟩

theorem Ascends.congr (h : Ascends lo hi l) (hlo : ∀ a ∈ l, lo' a = lo a) (hhi : ∀ a ∈ l, hi' a = hi a) :
    Ascends lo' hi' l := by
  refine List.Pairwise.imp_of_mem (fun {a b} ha hb hab => ?_) h
  rw [hhi a ha, hlo b hb]
  exact hab

theorem GoesRound.congr (h : GoesRound lo hi l) (hlo : ∀ a ∈ l, lo' a = lo a) (hhi : ∀ a ∈ l, hi' a = hi a) :
    GoesRound lo' hi' l := by
  obtain ⟨high, low, rfl, hasc⟩ := h
  refine ⟨high, low, rfl, hasc.congr (fun a ha => hlo a ?_) fun a ha => hhi a ?_⟩
  · exact List.mem_append.2 (List.mem_append.1 ha).symm
  · exact List.mem_append.2 (List.mem_append.1 ha).symm

theorem GoesRound.apart (h : GoesRound lo hi l) : l.Pairwise fun a b => hi a ≤ lo b ∨ hi b ≤ lo a := by
  obtain ⟨high, low, rfl, hasc⟩ := h
  obtain ⟨hlow, hhigh, hcross⟩ := List.pairwise_append.1 hasc
  exact List.pairwise_append.2 ⟨hhigh.imp .inl, hlow.imp .inl, fun a ha b hb => .inr (hcross b hb a ha)⟩

theorem GoesRound.ascends_or (h : GoesRound lo hi l) (ha : l.head? = some a) (hb : l.getLast? = some b) :
    Ascends lo hi l ∨ hi b ≤ lo a := by
  obtain ⟨high, low, rfl, hasc⟩ := h
  cases high with
  | nil => exact .inl (by simpa using hasc)
  | cons first high =>
    cases low with
    | nil => exact .inl (by simpa using hasc)
    | cons c low =>
      obtain rfl : first = a := by simpa using ha
      rw [List.getLast?_append_of_ne_nil _ (List.cons_ne_nil c low)] at hb
      exact .inr ((List.pairwise_append.1 hasc).2.2 b (List.mem_of_getLast? hb) first (List.mem_cons_self ..))

theorem Ascends.head_le (h : Ascends lo hi l) (hle : ∀ a, lo a ≤ hi a) (ha : l.head? = some a) (hb : b ∈ l) : lo a ≤ lo b := by
  cases l with
  | nil => cases ha
  | cons first rest =>
    obtain rfl : first = a := by simpa using ha
    rcases List.mem_cons.1 hb with rfl | hb
    · exact Nat.le_refl _
    · exact Nat.le_trans (hle first) ((List.pairwise_cons.1 h).1 b hb)

theorem Ascends.le_last (h : Ascends lo hi l) (hle : ∀ a, lo a ≤ hi a) (hb : l.getLast? = some b) (ha : a ∈ l) :
    hi a ≤ hi b := by
  obtain ⟨init, rfl⟩ := List.getLast?_eq_some_iff.1 hb
  rcases List.mem_append.1 ha with ha | ha
  · exact Nat.le_trans ((List.pairwise_append.1 h).2.2 a ha b (List.mem_singleton_self b)) (hle b)
  · obtain rfl := List.mem_singleton.1 ha
    exact Nat.le_refl _

theorem Ascends.push (h : Ascends lo hi l) (hle : ∀ a, lo a ≤ hi a) (hb : l.getLast? = some b) (hx : hi b ≤ lo x) :
    Ascends lo hi (l ++ [x]) := by
  refine List.pairwise_append.2 ⟨h, List.pairwise_singleton _ x, fun a ha y hy => ?_⟩
  rw [List.mem_singleton.1 hy]
  exact Nat.le_trans (h.le_last hle hb ha) hx

theorem Ascends.wrap (h : Ascends lo hi l) (hle : ∀ a, lo a ≤ hi a) (ha : l.head? = some a) (hx : hi x ≤ lo a) :
    GoesRound lo hi (l ++ [x]) := by
  refine ⟨l, [x], rfl, List.pairwise_append.2 ⟨List.pairwise_singleton _ x, h, fun y hy b hb => ?_⟩⟩
  rw [List.mem_singleton.1 hy]
  exact Nat.le_trans hx (h.head_le hle ha hb)

theorem GoesRound.push (h : GoesRound lo hi l) (hle : ∀ a, lo a ≤ hi a) (ha : l.head? = some a) (hb : l.getLast? = some b)
    (hwrapped : lo b < lo a) (hbx : hi b ≤ lo x) (hxa : hi x ≤ lo a) : GoesRound lo hi (l ++ [x]) := by
  obtain ⟨high, low, rfl, hasc⟩ := h
  obtain ⟨hlow, hhigh, hcross⟩ := List.pairwise_append.1 hasc
  have hnot : ¬ Ascends lo hi (high ++ low) := fun h =>
    absurd (h.head_le hle ha (List.mem_of_getLast? hb)) (Nat.not_le.2 hwrapped)
  have hhigh' : high ≠ [] := by
    rintro rfl
    exact hnot (by simpa [Ascends] using hlow)
  have hlow' : low ≠ [] := by
    rintro rfl
    exact hnot (by simpa [Ascends] using hhigh)
  rw [List.head?_append_of_ne_nil _ hhigh'] at ha
  rw [List.getLast?_append_of_ne_nil _ hlow'] at hb
  refine ⟨high, low ++ [x], List.append_assoc .., List.pairwise_append.2 ⟨Ascends.push hlow hle hb hbx, hhigh, ?_⟩⟩
  intro y hy c hc
  rcases List.mem_append.1 hy with hy | hy
  · exact hcross y hy c hc
  · rw [List.mem_singleton.1 hy]
    exact Nat.le_trans hxa (Ascends.head_le hhigh hle ha hc)

end Rounds
