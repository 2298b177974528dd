import Mathlib

/-!
# Writing into a bounded buffer

A writer has a cursor that advances with every item. An item is stored unless the cursor has passed the last cell. What a writer does may depend on whether there is room, and then the cursor need not end where it would in an unbounded buffer, but the cells hold what they would hold there.

The cells of a buffer are its offsets, or addresses of a memory in which the cursor comes to the first address behind the last. The two agree as long as the cursor stays in the address space.
-/

variable {α : Type*}

structure Cursor (α : Type*) where
  pos : Nat
  cells : Nat → Option α

namespace Cursor

def start : Cursor α := ⟨0, fun _ => none⟩

def upTo (last : Nat) : Nat → Option Nat := fun n => if n ≤ last then some n else none

/-- The cell of an offset in a memory of so many addresses, as far as the last of the buffer. -/
def window (addresses start last : Nat) : Nat → Option Nat := fun n =>
  if (start + n) % addresses ≤ last then some ((start + n) % addresses) else none

def put (cell : Nat → Option Nat) (c : Cursor α) (a : α) : Cursor α where
  pos := c.pos + 1
  cells := (cell c.pos).elim c.cells fun i => Function.update c.cells i (some a)

def puts (cell : Nat → Option Nat) (c : Cursor α) (text : List α) : Cursor α := text.foldl (put cell) c

/-- As far as the buffer goes it holds this text, and the cursor is behind it, or both are behind the buffer. -/
structure Holds (last : Nat) (c : Cursor α) (text : List α) : Prop where
  cells : ∀ i, c.cells i = if i ≤ last then text[i]? else none
  pos : c.pos = text.length ∨ last < c.pos ∧ last < text.length

variable {cell : Nat → Option Nat} {last : Nat} {c : Cursor α} {text more : List α} {a : α}

theorem puts_append (cell : Nat → Option Nat) (c : Cursor α) (text more : List α) :
    c.puts cell (text ++ more) = (c.puts cell text).puts cell more :=
  List.foldl_append

theorem puts_cons (cell : Nat → Option Nat) (c : Cursor α) (a : α) (text : List α) :
    c.puts cell (a :: text) = (c.put cell a).puts cell text := rfl

@[simp] theorem pos_puts (cell : Nat → Option Nat) (c : Cursor α) (text : List α) : (c.puts cell text).pos = c.pos + text.length := by
  induction text generalizing c with
  | nil => rfl
  | cons a text ih =>
    rw [puts_cons, ih, List.length_cons]
    change c.pos + 1 + text.length = _
    omega

theorem holds_start : Holds last (start : Cursor α) [] := by
  refine ⟨fun i => ?_, .inl rfl⟩
  rw [List.getElem?_nil, ite_self]
  rfl

theorem upTo_of_le {n : Nat} (hle : n ≤ last) : upTo last n = some n := if_pos hle

theorem upTo_of_not_le {n : Nat} (hle : ¬ n ≤ last) : upTo last n = none := if_neg hle

theorem isSome_upTo (last n : Nat) : (upTo last n).isSome = decide (n ≤ last) := by
  rw [upTo]
  split_ifs with hle
  · exact (decide_eq_true hle).symm
  · exact (decide_eq_false hle).symm

theorem Holds.room_iff (h : Holds last c text) : c.pos ≤ last ↔ text.length ≤ last := by
  rcases h.pos with heq | ⟨hpos, hlen⟩
  · rw [heq]
  · constructor <;> intro hno <;> omega

theorem Holds.put (h : Holds last c text) (a : α) : Holds last (c.put (upTo last) a) (text ++ [a]) := by
  by_cases hroom : c.pos ≤ last
  · have hpos : c.pos = text.length := h.pos.resolve_right fun hno => by omega
    refine ⟨fun i => ?_, .inl ?_⟩
    · rw [Cursor.put, upTo_of_le hroom, hpos]
      dsimp only [Option.elim]
      by_cases hi : i = text.length
      · subst hi
        rw [Function.update_self, List.getElem?_concat_length, if_pos (hpos ▸ hroom)]
      · rw [Function.update_of_ne hi, h.cells i]
        split_ifs with hle
        · rcases Nat.lt_or_ge i text.length with hlt | hge
          · rw [List.getElem?_append_left hlt]
          · rw [List.getElem?_eq_none hge, List.getElem?_eq_none]
            rw [List.length_append, List.length_singleton]
            omega
        · rfl
    · rw [List.length_append, List.length_singleton, ← hpos]
      rfl
  · have hlen : last < text.length := by
      have hnot := mt h.room_iff.2 hroom
      omega
    refine ⟨fun i => ?_, .inr ⟨?_, ?_⟩⟩
    · rw [Cursor.put, upTo_of_not_le hroom]
      dsimp only [Option.elim]
      rw [h.cells i]
      split_ifs with hle
      · rw [List.getElem?_append_left (by omega)]
      · rfl
    · change last < c.pos + 1
      omega
    · rw [List.length_append, List.length_singleton]
      omega

theorem Holds.puts (h : Holds last c text) (more : List α) : Holds last (c.puts (upTo last) more) (text ++ more) := by
  induction more generalizing c text with
  | nil =>
    rw [List.append_nil]
    exact h
  | cons a more ih =>
    have hnext := ih (h.put a)
    rw [List.append_assoc, List.singleton_append] at hnext
    exact hnext

theorem Holds.puts_behind (h : Holds last c text) (hroom : ¬ c.pos ≤ last) (more other : List α) :
    Holds last (c.puts (upTo last) more) (text ++ other) := by
  have hlen : last < text.length := by
    have hnot := mt h.room_iff.2 hroom
    omega
  have hmore := h.puts more
  refine ⟨fun i => ?_, .inr ⟨?_, ?_⟩⟩
  · rw [hmore.cells i]
    split_ifs with hle
    · rw [List.getElem?_append_left (by omega), List.getElem?_append_left (by omega)]
    · rfl
  · rw [pos_puts]
    omega
  · rw [List.length_append]
    omega

/-! ## Addresses -/

/-- What a buffer holds by itself is at the addresses from `start` on, and nothing is anywhere else. -/
structure Shows (start : Nat) (c c' : Cursor α) : Prop where
  pos : c'.pos = c.pos
  cells : ∀ a, c'.cells a = if start ≤ a then c.cells (a - start) else none

variable {addresses start n : Nat} {c' : Cursor α}

theorem shows_start (start : Nat) : Shows start (Cursor.start : Cursor α) Cursor.start := by
  refine ⟨rfl, fun a => ?_⟩
  show none = if start ≤ a then none else none
  rw [ite_self]

theorem window_of_lt (hspace : start + n < addresses) : window addresses start (start + last) n = (upTo last n).map (start + ·) := by
  rw [window, upTo, Nat.mod_eq_of_lt hspace]
  by_cases hle : n ≤ last
  · rw [if_pos (by omega), if_pos hle, Option.map_some]
  · rw [if_neg (by omega), if_neg hle, Option.map_none]

theorem window_top (hspace : start + n = addresses) : window addresses start last n = some 0 := by
  rw [window, hspace, Nat.mod_self, if_pos (Nat.zero_le last)]

theorem window_le {a : Nat} (h : window addresses start last n = some a) : a ≤ last := by
  rw [window] at h
  split_ifs at h with hle
  rw [← Option.some.inj h]
  exact hle

theorem Shows.put (h : Shows start c c') (hspace : start + c.pos < addresses) (a : α) :
    Shows start (c.put (upTo last) a) (c'.put (window addresses start (start + last)) a) := by
  refine ⟨congrArg (· + 1) h.pos, fun i => ?_⟩
  rw [Cursor.put, Cursor.put, h.pos, window_of_lt hspace]
  by_cases hle : c.pos ≤ last
  · rw [upTo_of_le hle, Option.map_some]
    dsimp only [Option.elim]
    by_cases hi : i = start + c.pos
    · rw [hi, Function.update_self, if_pos (Nat.le_add_right ..), Nat.add_sub_cancel_left, Function.update_self]
    · rw [Function.update_of_ne hi, h.cells i]
      split_ifs with hstart
      · rw [Function.update_of_ne (by omega)]
      · rfl
  · rw [upTo_of_not_le hle]
    exact h.cells i

theorem Shows.puts (h : Shows start c c') (text : List α) (hspace : start + c.pos + text.length ≤ addresses) :
    Shows start (c.puts (upTo last) text) (c'.puts (window addresses start (start + last)) text) := by
  induction text generalizing c c' with
  | nil => exact h
  | cons a text ih =>
    rw [List.length_cons] at hspace
    rw [puts_cons, puts_cons]
    apply ih (h.put (by omega) a)
    show start + (c.pos + 1) + text.length ≤ addresses
    omega

theorem puts_keeps {P : Cursor α → Prop} (hput : ∀ c a, P c → P (c.put cell a)) (h : P c) (text : List α) : P (c.puts cell text) := by
  induction text generalizing c with
  | nil => exact h
  | cons a text ih => exact ih (hput c a h)

theorem put_stored {P : Nat → Prop} (hcell : ∀ n i, cell n = some i → P i) (c : Cursor α) (a : α) (h : ∀ i, (c.cells i).isSome → P i) :
    ∀ i, ((c.put cell a).cells i).isSome → P i := by
  intro i hi
  rw [put] at hi
  cases hpos : cell c.pos with
  | none =>
    rw [hpos] at hi
    exact h i hi
  | some j =>
    rw [hpos] at hi
    dsimp only [Option.elim] at hi
    by_cases heq : i = j
    · rw [heq]
      exact hcell _ _ hpos
    · rw [Function.update_of_ne heq] at hi
      exact h i hi

theorem put_passed {i : Nat} (hcell : cell n = some i) (c : Cursor α) (a : α) (h : n < c.pos → (c.cells i).isSome) :
    n < (c.put cell a).pos → ((c.put cell a).cells i).isSome := by
  intro hpassed
  change n < c.pos + 1 at hpassed
  rw [put]
  by_cases heq : c.pos = n
  · rw [heq, hcell]
    dsimp only [Option.elim]
    rw [Function.update_self]
    rfl
  · have hbefore := h (by omega)
    cases hpos : cell c.pos with
    | none => exact hbefore
    | some j =>
      dsimp only [Option.elim]
      by_cases hij : i = j
      · rw [hij, Function.update_self]
        rfl
      · rw [Function.update_of_ne hij]
        exact hbefore

end Cursor

/-! ## Pieces -/

/-- A piece of a text: how it goes on may depend on whether there is room behind its lead. -/
structure Piece (α : Type*) where
  lead : List α
  rest : Bool → List α

namespace Piece

open Cursor (upTo isSome_upTo window)

def plain (text : List α) : Piece α := ⟨text, fun _ => []⟩

def write (cell : Nat → Option Nat) (c : Cursor α) (p : Piece α) : Cursor α :=
  (c.puts cell p.lead).puts cell (p.rest (cell (c.puts cell p.lead).pos).isSome)

def writeAll (cell : Nat → Option Nat) (c : Cursor α) (ps : List (Piece α)) : Cursor α := ps.foldl (write cell) c

def text (p : Piece α) : List α := p.lead ++ p.rest true

def fullText (ps : List (Piece α)) : List α := ps.flatMap text

def excess (p : Piece α) : Int := (p.rest false).length - (p.rest true).length

/-- The excess of the pieces whose lead ends behind the last cell, the text so far having length `n`. -/
def surplus (last : Nat) : Nat → List (Piece α) → Int
  | _, [] => 0
  | n, p :: ps => (if last < n + p.lead.length then p.excess else 0) + surplus last (n + p.text.length) ps

variable {last : Nat} {c : Cursor α} {done : List α}

theorem write_holds (h : c.Holds last done) (p : Piece α) :
    (write (upTo last) c p).Holds last (done ++ p.text) ∧
      ((write (upTo last) c p).pos : Int) = c.pos + p.text.length + if last < done.length + p.lead.length then p.excess else 0 := by
  have hlead := h.puts p.lead
  have hroom := hlead.room_iff
  rw [List.length_append] at hroom
  by_cases hin : (c.puts (upTo last) p.lead).pos ≤ last
  · have hnot : ¬ last < done.length + p.lead.length := by
      have hle := hroom.1 hin
      omega
    rw [write, isSome_upTo, decide_eq_true hin, if_neg hnot, text, ← List.append_assoc]
    refine ⟨hlead.puts _, ?_⟩
    rw [Cursor.pos_puts, Cursor.pos_puts, List.length_append]
    push_cast
    omega
  · have hbehind : last < done.length + p.lead.length := by
      have hnot := mt hroom.2 hin
      omega
    rw [write, isSome_upTo, decide_eq_false hin, if_pos hbehind, text, ← List.append_assoc]
    refine ⟨hlead.puts_behind hin _ _, ?_⟩
    rw [Cursor.pos_puts, Cursor.pos_puts, List.length_append, excess]
    push_cast
    omega

theorem writeAll_holds (h : c.Holds last done) (ps : List (Piece α)) :
    (writeAll (upTo last) c ps).Holds last (done ++ fullText ps) := by
  induction ps generalizing c done with
  | nil =>
    rw [fullText, List.flatMap_nil, List.append_nil]
    exact h
  | cons p ps ih =>
    have hnext := ih (write_holds h p).1
    rw [fullText, List.flatMap_cons, ← List.append_assoc]
    exact hnext

theorem pos_writeAll (h : c.Holds last done) (ps : List (Piece α)) :
    ((writeAll (upTo last) c ps).pos : Int) = c.pos + (fullText ps).length + surplus last done.length ps := by
  induction ps generalizing c done with
  | nil =>
    rw [surplus, fullText, List.flatMap_nil]
    change (c.pos : Int) = _
    rw [List.length_nil]
    omega
  | cons p ps ih =>
    obtain ⟨hholds, hpos⟩ := write_holds h p
    have hnext := ih hholds
    rw [List.length_append] at hnext
    change ((writeAll (upTo last) (write (upTo last) c p) ps).pos : Int) = _
    have hlength : (fullText (p :: ps)).length = p.text.length + (fullText ps).length := by
      rw [fullText, List.flatMap_cons, List.length_append]
      rfl
    rw [hnext, hpos, hlength, surplus]
    push_cast
    omega

/-! ## Pieces in a memory -/

variable {cell : Nat → Option Nat} {addresses start : Nat} {c' : Cursor α}

theorem lead_le_pos (cell : Nat → Option Nat) (c : Cursor α) (p : Piece α) : c.pos + p.lead.length ≤ (write cell c p).pos := by
  rw [write, Cursor.pos_puts, Cursor.pos_puts]
  exact Nat.le_add_right ..

theorem le_pos_writeAll (cell : Nat → Option Nat) (c : Cursor α) (ps : List (Piece α)) : c.pos ≤ (writeAll cell c ps).pos := by
  induction ps generalizing c with
  | nil => exact Nat.le_refl _
  | cons p ps ih => exact Nat.le_trans (Nat.le_of_add_right_le (lead_le_pos cell c p)) (ih _)

theorem writeAll_keeps {P : Cursor α → Prop} (hput : ∀ c a, P c → P (c.put cell a)) (h : P c) (ps : List (Piece α)) : P (writeAll cell c ps) := by
  induction ps generalizing c with
  | nil => exact h
  | cons p ps ih => exact ih (Cursor.puts_keeps hput (Cursor.puts_keeps hput h p.lead) _)

theorem write_shows (h : c.Shows start c') (p : Piece α) (hlead : start + (c.pos + p.lead.length) < addresses) :
    (write (window addresses start (start + last)) c' p).pos = (write (upTo last) c p).pos ∧
      (start + (write (upTo last) c p).pos ≤ addresses →
        (write (upTo last) c p).Shows start (write (window addresses start (start + last)) c' p)) := by
  have hshows : (c.puts (upTo last) p.lead).Shows start (c'.puts (window addresses start (start + last)) p.lead) := h.puts p.lead (by omega)
  have hroom : (window addresses start (start + last) (c'.puts (window addresses start (start + last)) p.lead).pos).isSome =
      (upTo last (c.puts (upTo last) p.lead).pos).isSome := by
    rw [hshows.pos, Cursor.window_of_lt (by rwa [Cursor.pos_puts]), Option.isSome_map]
  rw [write, write, hroom]
  constructor
  · rw [Cursor.pos_puts, hshows.pos, ← Cursor.pos_puts]
  · intro hspace
    apply hshows.puts
    rwa [Cursor.pos_puts, ← Nat.add_assoc] at hspace

theorem writeAll_shows (h : c.Shows start c') (ps : List (Piece α))
    (hspace : start + (writeAll (upTo last) c ps).pos < addresses ∨
      start + (writeAll (window addresses start (start + last)) c' ps).pos < addresses) :
    (writeAll (upTo last) c ps).Shows start (writeAll (window addresses start (start + last)) c' ps) := by
  induction ps generalizing c c' with
  | nil => exact h
  | cons p ps ih =>
    have hlead : start + (c.pos + p.lead.length) < addresses := by
      rcases hspace with hspace | hspace
      · have hle := Nat.le_trans (lead_le_pos (upTo last) c p) (le_pos_writeAll (upTo last) _ ps)
        exact Nat.lt_of_le_of_lt (Nat.add_le_add_left hle start) hspace
      · have hle := Nat.le_trans (lead_le_pos (window addresses start (start + last)) c' p) (le_pos_writeAll (window addresses start (start + last)) _ ps)
        rw [h.pos] at hle
        exact Nat.lt_of_le_of_lt (Nat.add_le_add_left hle start) hspace
    obtain ⟨hpos, hshows⟩ : (write (window addresses start (start + last)) c' p).pos = (write (upTo last) c p).pos ∧
        (start + (write (upTo last) c p).pos ≤ addresses → _) := write_shows h p hlead
    apply ih (hshows _) hspace
    rcases hspace with hspace | hspace
    · exact Nat.le_of_lt (Nat.lt_of_le_of_lt (Nat.add_le_add_left (le_pos_writeAll _ _ ps) start) hspace)
    · rw [← hpos]
      exact Nat.le_of_lt (Nat.lt_of_le_of_lt (Nat.add_le_add_left (le_pos_writeAll _ _ ps) start) hspace)

end Piece
