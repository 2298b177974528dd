import Mathlib

/-!
# Skip lists

A skip list is a sequence of rows, each a sublist of the next, the last one complete. A new node finds its place row by row: in each row the search starts from the node where it ended in the row above and goes on past every node that is to stay in front.

The order is given by a predicate `le` of the nodes that stay in front of the new one. Where every row is divided by it, the nodes in front first, the search ends at the last node in front (`rowHead_eq`), and inserting there places the new node between the two parts (`insertAfter_eq`).
-/

namespace SkipList

variable {α : Type*}

section Search

variable [DecidableEq α]

/-- The nodes after a node of the row; `none` is the head of the row. -/
def after (row : List α) : Option α → List α
  | none => row
  | some x => (row.dropWhile fun y => y ≠ x).tail

/-- Go on from `node` past the nodes that stay in front. -/
def walk (le : α → Bool) (node : Option α) : List α → Option α
  | [] => node
  | p :: rest => if le p then walk le (some p) rest else node

/-- Where the search ends in row `i`. -/
def rowHead (le : α → Bool) (rows : Nat → List α) : Nat → Option α
  | 0 => walk le none (after (rows 0) none)
  | i + 1 => walk le (rowHead le rows i) (after (rows (i + 1)) (rowHead le rows i))

/-- Insert `x` after a node of the row. -/
def insertAfter (x : α) : Option α → List α → List α
  | none, row => x :: row
  | some _, [] => []
  | some y, z :: row => if z = y then z :: x :: row else z :: insertAfter x (some y) row

end Search

/-- `x` between the nodes that stay in front of it and the others. -/
def place (le : α → Bool) (x : α) (row : List α) : List α :=
  row.filter le ++ x :: row.filter fun y => !le y

def Divided (le : α → Bool) (row : List α) : Prop :=
  row.Pairwise fun x y => le y → le x

variable {le : α → Bool} {x y : α} {row row' : List α} {rows : Nat → List α}

/-! ## Divided rows -/

theorem Divided.sublist (h : Divided le row') (hsub : row.Sublist row') : Divided le row :=
  List.Pairwise.sublist hsub h

theorem Divided.filter_eq_nil {p : α} (h : Divided le (p :: row)) (hp : le p = false) : row.filter le = [] := by
  refine List.filter_eq_nil_iff.2 fun q hq hle => ?_
  have hpq := (List.pairwise_cons.1 h).1 q hq hle
  rw [hp] at hpq
  cases hpq

theorem Divided.filter_append (h : Divided le row) : row.filter le ++ row.filter (fun y => !le y) = row := by
  induction row with
  | nil => rfl
  | cons p row ih =>
    have htail : Divided le row := h.sublist (List.sublist_cons_self p row)
    cases hp : le p with
    | true => rw [List.filter_cons_of_pos hp, List.filter_cons_of_neg (by simp [hp]), List.cons_append, ih htail]
    | false =>
      have hnone := h.filter_eq_nil hp
      rw [List.filter_cons_of_neg (by simp [hp]), hnone, List.nil_append, List.filter_eq_self]
      intro q hq
      rcases List.mem_cons.1 hq with rfl | hq
      · simp [hp]
      · simpa using List.filter_eq_nil_iff.1 hnone q hq

/-! ## The search -/

theorem walk_eq (h : Divided le row) (node : Option α) :
    walk le node row = ((row.filter le).getLast?).or node := by
  induction row generalizing node with
  | nil => rfl
  | cons p row ih =>
    have htail : Divided le row := h.sublist (List.sublist_cons_self p row)
    cases hp : le p with
    | true =>
      rw [walk, if_pos hp, ih htail, List.filter_cons_of_pos hp, List.getLast?_cons]
      cases (row.filter le).getLast? <;> rfl
    | false =>
      rw [walk, if_neg (by simp [hp]), List.filter_cons_of_neg (by simp [hp]), h.filter_eq_nil hp]
      rfl

variable [DecidableEq α]

theorem after_append {pre suf : List α} (hx : x ∉ pre) : after (pre ++ x :: suf) (some x) = suf := by
  have hpre : ∀ y ∈ pre, decide (y ≠ x) = true := fun y hy => by
    simpa using fun heq : y = x => hx (heq ▸ hy)
  rw [after, List.dropWhile_append_of_pos hpre, List.dropWhile_cons_of_neg (by simp), List.tail_cons]

theorem walk_after (hnodup : row.Nodup) (hdiv : Divided le row) (hx : x ∈ row) (hle : le x) :
    walk le (some x) (after row (some x)) = (row.filter le).getLast? := by
  obtain ⟨pre, suf, rfl⟩ := List.append_of_mem hx
  have hnot : x ∉ pre := fun hmem => (List.nodup_append.1 hnodup).2.2 x hmem x (List.mem_cons_self ..) rfl
  have hpre : pre.filter le = pre := by
    refine List.filter_eq_self.2 fun y hy => ?_
    exact (List.pairwise_append.1 hdiv).2.2 y hy x (List.mem_cons_self ..) hle
  have hsuf : Divided le suf :=
    hdiv.sublist ((List.sublist_cons_self x suf).trans (List.sublist_append_right pre _))
  rw [after_append hnot, walk_eq hsuf, List.filter_append, hpre, List.filter_cons_of_pos hle, List.getLast?_append,
    List.getLast?_cons]
  cases (suf.filter le).getLast? <;> rfl

theorem rowHead_eq {i : Nat} (hnodup : ∀ j ≤ i, (rows j).Nodup) (hdiv : ∀ j ≤ i, Divided le (rows j))
    (hsub : ∀ j < i, (rows j).Sublist (rows (j + 1))) :
    rowHead le rows i = ((rows i).filter le).getLast? := by
  induction i with
  | zero =>
    rw [rowHead, after, walk_eq (hdiv 0 (Nat.le_refl _)), Option.or_none]
  | succ i ih =>
    have hprev := ih (fun j hj => hnodup j (by omega)) (fun j hj => hdiv j (by omega)) fun j hj => hsub j (by omega)
    rw [rowHead]
    cases hhead : rowHead le rows i with
    | none => rw [after, walk_eq (hdiv _ (Nat.le_refl _)), Option.or_none]
    | some x =>
      rw [hhead] at hprev
      have hx := List.mem_filter.1 (List.mem_of_getLast? hprev.symm)
      exact walk_after (hnodup _ (Nat.le_refl _)) (hdiv _ (Nat.le_refl _)) ((hsub i (by omega)).subset hx.1) hx.2

omit [DecidableEq α] in
theorem mem_of_walk {node : Option α} (hnode : ∀ y, node = some y → y ∈ row) (hsub : row' ⊆ row)
    (hx : walk le node row' = some x) : x ∈ row := by
  induction row' generalizing node with
  | nil => exact hnode x hx
  | cons p rest ih =>
    rw [walk] at hx
    split_ifs at hx with hp
    · refine ih (fun y hy => ?_) (fun y hy => hsub (List.mem_cons_of_mem p hy)) hx
      cases hy
      exact hsub (List.mem_cons_self ..)
    · exact hnode x hx

theorem after_subset (row : List α) (node : Option α) : after row node ⊆ row := by
  cases node with
  | none => exact List.Subset.refl row
  | some x => exact ((List.tail_sublist _).trans (List.dropWhile_sublist _)).subset

theorem rowHead_mem {i : Nat} (hsub : ∀ j < i, rows j ⊆ rows (j + 1)) (hx : rowHead le rows i = some x) :
    x ∈ rows i := by
  induction i generalizing x with
  | zero => exact mem_of_walk (fun y hy => by cases hy) (after_subset ..) hx
  | succ i ih =>
    refine mem_of_walk (fun y hy => ?_) (after_subset ..) hx
    exact hsub i (by omega) (ih (fun j hj => hsub j (by omega)) hy)

/-! ## Insertion -/

theorem insertAfter_perm {node : Option α} (hnode : ∀ y, node = some y → y ∈ row) :
    (insertAfter x node row).Perm (x :: row) := by
  cases node with
  | none => rw [insertAfter]
  | some y =>
    have hy := hnode y rfl
    induction row with
    | nil => cases hy
    | cons z row ih =>
      rw [insertAfter]
      split_ifs with hz
      · exact List.Perm.swap ..
      · have hrest : y ∈ row := (List.mem_cons.1 hy).resolve_left fun heq => hz heq.symm
        exact ((ih (fun _ h => by cases h; exact hrest) hrest).cons z).trans (List.Perm.swap ..)

theorem insertAfter_eq (hnodup : row.Nodup) (hdiv : Divided le row) (x : α) :
    insertAfter x (row.filter le).getLast? row = place le x row := by
  induction row with
  | nil => rfl
  | cons z row ih =>
    obtain ⟨hz, hnodup⟩ := List.nodup_cons.1 hnodup
    have htail : Divided le row := hdiv.sublist (List.sublist_cons_self z row)
    have hplace := ih hnodup htail
    rw [place] at hplace ⊢
    cases hle : le z with
    | true =>
      rw [List.filter_cons_of_pos hle, List.filter_cons_of_neg (by simp [hle]), List.getLast?_cons, List.cons_append,
        ← hplace]
      cases hlast : (row.filter le).getLast? with
      | none => simp only [Option.getD_none, insertAfter, if_pos]
      | some y =>
        have hy := (List.mem_filter.1 (List.mem_of_getLast? hlast)).1
        rw [Option.getD_some, insertAfter, if_neg fun heq : z = y => hz (heq ▸ hy)]
    | false =>
      have hnone := hdiv.filter_eq_nil hle
      have hrest := htail.filter_append
      rw [hnone, List.nil_append] at hrest
      rw [List.filter_cons_of_neg (by simp [hle]), hnone, List.filter_cons_of_pos (by simp [hle]), hrest]
      rfl

omit [DecidableEq α] in
theorem pairwise_place {R : α → α → Prop} (hdiv : Divided le row) (hrow : row.Pairwise R)
    (hfront : ∀ y ∈ row, le y → R y x) (hbehind : ∀ y ∈ row, le y = false → R x y) : (place le x row).Pairwise R := by
  have hparts := hdiv.filter_append ▸ hrow
  obtain ⟨hleft, hright, hcross⟩ := List.pairwise_append.1 hparts
  refine List.pairwise_append.2 ⟨hleft, List.pairwise_cons.2 ⟨fun y hy => ?_, hright⟩, fun y hy z hz => ?_⟩
  · obtain ⟨hy, hle⟩ := List.mem_filter.1 hy
    exact hbehind y hy (by simpa using hle)
  · rcases List.mem_cons.1 hz with rfl | hz
    · exact hfront y (List.mem_filter.1 hy).1 (List.mem_filter.1 hy).2
    · exact hcross y hy z hz

omit [DecidableEq α] in
theorem place_sublist (hsub : row.Sublist row') (x : α) : (place le x row).Sublist (place le x row') :=
  (hsub.filter le).append ((hsub.filter _).cons_cons x)

omit [DecidableEq α] in
theorem sublist_place (hdiv : Divided le row') (hsub : row.Sublist row') (x : α) : row.Sublist (place le x row') := by
  refine hsub.trans ?_
  conv_lhs => rw [← hdiv.filter_append]
  exact (List.Sublist.refl _).append (List.sublist_cons_self ..)

end SkipList
