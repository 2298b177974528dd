import Mathlib

/-!
# Forests in a table of cells

A forest whose trees hang together by first-child and next-sibling pointers, in a table. What is stored is told by the cells at its own places, so a change elsewhere leaves it as it is; where a chain of siblings ends, another forest can be linked behind it.
-/

/-- A list of trees: the first one by its label and its children, and the others. -/
inductive Forest (α : Type*)
  | nil
  | cons (label : α) (child sibling : Forest α)
  deriving DecidableEq

namespace Forest

variable {α β : Type*}

def append : Forest α → Forest α → Forest α
  | nil, g => g
  | cons a child sibling, g => cons a child (sibling.append g)

def map (f : α → β) : Forest α → Forest β
  | nil => nil
  | cons a child sibling => cons (f a) (child.map f) (sibling.map f)

def labels : Forest α → List α
  | nil => []
  | cons a child sibling => a :: (child.labels ++ sibling.labels)

def size : Forest α → Nat
  | nil => 0
  | cons _ child sibling => 1 + child.size + sibling.size

def IsTree (f : Forest α) : Prop := ∃ a child, f = cons a child nil

def trees : Forest α → List (Forest α)
  | nil => []
  | cons a child sibling => cons a child nil :: sibling.trees

def first : Forest α → Forest α
  | nil => nil
  | cons a child _ => cons a child nil

@[simp] theorem append_nil (f : Forest α) : f.append nil = f := by
  induction f with
  | nil => rfl
  | cons a child sibling _ ih => rw [append, ih]

@[simp] theorem nil_append (f : Forest α) : nil.append f = f := rfl

theorem append_assoc (f g h : Forest α) : (f.append g).append h = f.append (g.append h) := by
  induction f with
  | nil => rfl
  | cons a child sibling _ ih => rw [append, append, append, ih]

@[simp] theorem map_append (f : α → β) (g h : Forest α) : (g.append h).map f = (g.map f).append (h.map f) := by
  induction g with
  | nil => rfl
  | cons a child sibling _ ih => rw [append, map, map, append, ih]

theorem IsTree.of_map {f : α → β} {g : Forest α} (h : (g.map f).IsTree) : g.IsTree := by
  obtain ⟨b, below, heq⟩ := h
  rcases g with _ | ⟨a, below', _ | _⟩
  · cases heq
  · exact ⟨a, below', rfl⟩
  · cases heq

@[simp] theorem labels_append (f g : Forest α) : (f.append g).labels = f.labels ++ g.labels := by
  induction f with
  | nil => rfl
  | cons a child sibling _ ih => rw [append, labels, labels, ih, List.cons_append, List.append_assoc]

@[simp] theorem size_append (f g : Forest α) : (f.append g).size = f.size + g.size := by
  induction f with
  | nil => rw [nil_append, size, Nat.zero_add]
  | cons a child sibling _ ih => rw [append, size, size, ih, ← Nat.add_assoc]

@[simp] theorem trees_append (f g : Forest α) : (f.append g).trees = f.trees ++ g.trees := by
  induction f with
  | nil => rfl
  | cons a child sibling _ ih => rw [append, trees, trees, ih, List.cons_append]

@[simp] theorem first_first (f : Forest α) : f.first.first = f.first := by
  cases f <;> rfl

theorem first_eq {f : Forest α} (hone : f.trees.length ≤ 1) : f.first = f := by
  rcases f with _ | ⟨a, below, _ | _⟩
  · rfl
  · rfl
  · simp [trees] at hone

theorem trees_first (f : Forest α) : f.first.trees = f.trees.take 1 := by
  cases f <;> rfl

theorem trees_map (g : α → β) (f : Forest α) : (f.map g).trees = f.trees.map (map g) := by
  induction f with
  | nil => rfl
  | cons a child sibling _ ih => rw [map, trees, trees, ih, List.map_cons, map, map]

theorem map_map {γ : Type*} (g : β → γ) (h : α → β) (f : Forest α) : (f.map h).map g = f.map (g ∘ h) := by
  induction f with
  | nil => rfl
  | cons a child sibling hchild hsibling => rw [map, map, map, hchild, hsibling, Function.comp]

theorem length_labels (f : Forest α) : f.labels.length = f.size := by
  induction f with
  | nil => rfl
  | cons a child sibling hchild hsibling =>
    rw [labels, size, List.length_cons, List.length_append, hchild, hsibling]
    omega

/-! ## Stored in a table -/

section

variable {κ : Type*} (label : κ → α) (child sibling : κ → Option Nat)

/-- The forest stands in the table at this pointer; each label comes with its place. -/
def Stored (table : List κ) : Option Nat → Forest (Nat × α) → Prop
  | none, nil => True
  | some p, cons (q, a) below behind =>
    q = p ∧ ∃ cell, table[p]? = some cell ∧ label cell = a ∧ Stored table (child cell) below ∧ Stored table (sibling cell) behind
  | _, _ => False

def places (f : Forest (Nat × α)) : List Nat := f.labels.map Prod.fst

@[simp] theorem places_nil : (nil : Forest (Nat × α)).places = [] := rfl

@[simp] theorem places_cons (p : Nat) (a : α) (below behind : Forest (Nat × α)) :
    (cons (p, a) below behind).places = p :: (below.places ++ behind.places) := by
  simp [places, labels]

@[simp] theorem places_append (f g : Forest (Nat × α)) : (f.append g).places = f.places ++ g.places := by
  simp [places]

variable {label child sibling} {table table' : List κ}

theorem Stored.none : Stored label child sibling table none nil := trivial

theorem Stored.lt_length {f : Forest (Nat × α)} : ∀ {p : Option Nat}, Stored label child sibling table p f →
    ∀ q ∈ f.places, q < table.length := by
  induction f with
  | nil => intro p _ q hq; cases hq
  | cons a below behind hbelow hbehind =>
    obtain ⟨p, a⟩ := a
    intro ptr h q hq
    cases ptr with
    | none => exact h.elim
    | some ptr =>
      obtain ⟨rfl, cell, hcell, -, hchild, hsibling⟩ := h
      rw [places_cons, List.mem_cons, List.mem_append] at hq
      rcases hq with rfl | hq | hq
      · exact (List.getElem?_eq_some_iff.1 hcell).1
      · exact hbelow hchild q hq
      · exact hbehind hsibling q hq

theorem Stored.frame {f : Forest (Nat × α)} : ∀ {p : Option Nat}, Stored label child sibling table p f →
    (∀ q ∈ f.places, table'[q]? = table[q]?) → Stored label child sibling table' p f := by
  induction f with
  | nil =>
    intro p h _
    cases p with
    | none => trivial
    | some p => exact h.elim
  | cons a below behind hbelow hbehind =>
    obtain ⟨p, a⟩ := a
    intro ptr h hsame
    cases ptr with
    | none => exact h.elim
    | some ptr =>
      obtain ⟨rfl, cell, hcell, hlabel, hchild, hsibling⟩ := h
      refine ⟨rfl, cell, ?_, hlabel, hbelow hchild fun q hq => hsame q ?_, hbehind hsibling fun q hq => hsame q ?_⟩
      · rw [hsame p (by simp), hcell]
      · simp [hq]
      · simp [hq]

/-- Where the cell of one of the trees is made to point to another forest, that one stands behind this tree. -/
theorem Stored.link {f : Forest (Nat × α)} {last : Nat} {a : α} {below behind : Forest (Nat × α)} {q : Option Nat}
    {g : Forest (Nat × α)} {change : κ → κ} (hlabel : ∀ cell, label (change cell) = label cell)
    (hchild : ∀ cell, child (change cell) = child cell) (hsibling : ∀ cell, sibling (change cell) = q)
    (hg : Stored label child sibling table q g) (hlast : last ∉ g.places) :
    ∀ {p : Option Nat}, Stored label child sibling table p (f.append (.cons (last, a) below behind)) →
      (f.append (.cons (last, a) below behind)).places.Nodup →
      Stored label child sibling (table.modify last change) p (f.append (.cons (last, a) below g)) := by
  have hother (x : Nat) (hx : x ≠ last) : (table.modify last change)[x]? = table[x]? :=
    List.getElem?_modify_ne change table (Ne.symm hx)
  induction f with
  | nil =>
    intro p h hnodup
    cases p with
    | none => exact h.elim
    | some p =>
      obtain ⟨rfl, cell, hcell, rfl, hbelow, -⟩ := h
      rw [nil_append, places_cons, List.nodup_cons] at hnodup
      refine ⟨rfl, change cell, ?_, hlabel cell, ?_, ?_⟩
      · rw [List.getElem?_modify_eq, hcell]
        rfl
      · rw [hchild]
        exact hbelow.frame fun x hx => hother x fun heq => hnodup.1 (heq ▸ List.mem_append_left _ hx)
      · rw [hsibling]
        exact hg.frame fun x hx => hother x fun heq => hlast (heq ▸ hx)
  | cons b before rest _ ih =>
    obtain ⟨p', b⟩ := b
    intro p h hnodup
    cases p with
    | none => exact h.elim
    | some p =>
      obtain ⟨rfl, cell, hcell, hb, hbefore, hrest⟩ := h
      rw [append, places_cons, List.nodup_cons, List.nodup_append] at hnodup
      obtain ⟨hp, -, hnodup', hdisjoint⟩ := hnodup
      have hmem : last ∈ (rest.append (.cons (last, a) below behind)).places := by simp
      have hne : p' ≠ last := by
        intro heq
        rw [heq] at hp
        exact hp (List.mem_append_right _ hmem)
      refine ⟨rfl, cell, ?_, hb, ?_, ih hrest hnodup'⟩
      · rw [hother p' hne, hcell]
      · exact hbefore.frame fun x hx => hother x fun heq => hdisjoint x hx last hmem heq

theorem Stored.relabel {p : Nat} {a : α} {below behind : Forest (Nat × α)} {change : κ → κ} {f : α → α}
    (hlabel : ∀ cell, label (change cell) = f (label cell)) (hchild : ∀ cell, child (change cell) = child cell)
    (hsibling : ∀ cell, sibling (change cell) = sibling cell)
    (h : Stored label child sibling table (some p) (.cons (p, a) below behind))
    (hnodup : (Forest.cons (p, a) below behind).places.Nodup) :
    Stored label child sibling (table.modify p change) (some p) (.cons (p, f a) below behind) := by
  have hother (x : Nat) (hx : x ≠ p) : (table.modify p change)[x]? = table[x]? :=
    List.getElem?_modify_ne change table (Ne.symm hx)
  obtain ⟨-, cell, hcell, rfl, hbelow, hbehind⟩ := h
  rw [places_cons, List.nodup_cons] at hnodup
  refine ⟨rfl, change cell, ?_, hlabel cell, ?_, ?_⟩
  · rw [List.getElem?_modify_eq, hcell]
    rfl
  · rw [hchild]
    exact hbelow.frame fun x hx => hother x fun heq => hnodup.1 (heq ▸ List.mem_append_left _ hx)
  · rw [hsibling]
    exact hbehind.frame fun x hx => hother x fun heq => hnodup.1 (heq ▸ List.mem_append_right _ hx)

theorem Stored.eq_some {p : Option Nat} {q : Nat} {a : α} {below behind : Forest (Nat × α)}
    (h : Stored label child sibling table p (.cons (q, a) below behind)) : p = some q := by
  cases p with
  | none => exact h.elim
  | some p => rw [h.1]

end

end Forest
