import RtThread.Finsh.Shell

/-!
# The shell edits as an ideal editor does

The ideal editor holds the text on both sides of the cursor and a list of texts as its history. It knows no buffer. A byte that would make the line as long as the buffer is not covered: there the shell sets its positions back to 0 and leaves the text where it is.
-/

namespace RtThread

inductive EditKey
  | char (ch : UInt8)
  | backspace | left | right | up | down
  | enter (msh : Bool)
  deriving DecidableEq

def plainKey (signedChar : Bool) (key : KeyByte) : Option EditKey :=
  if key.ch = 0 ∨ signedChar = false ∧ key.ch = 0xFF then none
  else if key.ch = 0x7F ∨ key.ch = 0x08 then some .backspace
  else if key.ch = 13 ∨ key.ch = 10 then some (.enter key.msh)
  else some (.char key.ch)

/-- The sequences of the keys up, down, left and right; a byte that ends no such sequence stands for itself. -/
def decodeKey (signedChar : Bool) (stat : InputStat) (key : KeyByte) : InputStat × Option EditKey :=
  if key.ch = 0x1B then (.waitSpecKey, none)
  else
    match stat with
    | .waitSpecKey => if key.ch = 0x5B then (.waitFuncKey, none) else (.waitNormal, plainKey signedChar key)
    | .waitFuncKey =>
      (.waitNormal,
        if key.ch = 0x41 then some .up
        else if key.ch = 0x42 then some .down
        else if key.ch = 0x44 then some .left
        else if key.ch = 0x43 then some .right
        else plainKey signedChar key)
    | .waitNormal => (.waitNormal, plainKey signedChar key)

/-- The text on the left of the cursor, from the cursor on, and the text on its right. -/
structure Editor where
  before : List UInt8
  after : List UInt8
  history : List (List UInt8)
  current : Nat

namespace Editor

def empty : Editor := ⟨[], [], [], 0⟩

def text (e : Editor) : List UInt8 := e.before.reverse ++ e.after

def recallLine (e : Editor) (index : Nat) : Editor :=
  { e with before := (e.history.getD index []).reverse, after := [], current := index }

def push (historyLines : Nat) (history : List (List UInt8)) (text : List UInt8) : List (List UInt8) :=
  if text = [] ∨ history.getLast? = some text then history
  else if historyLines ≤ history.length then history.drop 1 ++ [text]
  else history ++ [text]

def edit (historyLines : Nat) (e : Editor) : EditKey → Editor × List (List UInt8)
  | .char ch => ({ e with before := ch :: e.before }, [])
  | .backspace => ({ e with before := e.before.drop 1 }, [])
  | .left =>
    match e.before with
    | [] => (e, [])
    | ch :: before => ({ e with before := before, after := ch :: e.after }, [])
  | .right =>
    match e.after with
    | [] => (e, [])
    | ch :: after => ({ e with before := ch :: e.before, after := after }, [])
  | .up => (if 0 < e.current then e.recallLine (e.current - 1) else e, [])
  | .down =>
    (if e.current + 1 < e.history.length then e.recallLine (e.current + 1)
      else if e.history ≠ [] then e.recallLine (e.history.length - 1) else e, [])
  | .enter msh =>
    let history := push historyLines e.history e.text
    (⟨[], [], history, history.length⟩, if msh then [e.text] else if e.text ≠ [] then [e.text ++ [59]] else [])

def run (historyLines : Nat) (signedChar : Bool) (stat : InputStat) (e : Editor) : List KeyByte → Editor × List (List UInt8)
  | [] => (e, [])
  | key :: keys =>
    let (stat, edited) := decodeKey signedChar stat key
    let (e, lines) := (edited.map (e.edit historyLines)).getD (e, [])
    let (e, later) := e.run historyLines signedChar stat keys
    (e, lines ++ later)

end Editor

def arrayString (line : List UInt8) : Option (List UInt8) :=
  if strlen line < line.length then some (line.take (strlen line)) else none

def ShellCall.executed : ShellCall → Option (List UInt8)
  | .mshExec line length => if length = strlen line then arrayString line else none
  | .finshRunLine line => arrayString line

def KeyFits (sizes : ShellSizes) (signedChar : Bool) (s : FinshShell) (key : KeyByte) : Prop :=
  match (decodeKey signedChar s.stat key).2 with
  | some (.char _) => s.linePosition + 1 < sizes.cmdSize ∧ s.linePosition + 1 < 2 ^ 8
  | some (.enter false) => s.linePosition + 1 < sizes.cmdSize
  | _ => True

def KeysFit (sizes : ShellSizes) (port : ShellPort) : FinshShell → List KeyByte → Prop
  | _, [] => True
  | s, key :: keys => key.ch ≠ 9 ∧ KeyFits sizes port.signedChar s key ∧ KeysFit sizes port (s.step sizes port key).1 keys

instance (sizes : ShellSizes) (signedChar : Bool) (s : FinshShell) (key : KeyByte) : Decidable (KeyFits sizes signedChar s key) :=
  match hkey : (decodeKey signedChar s.stat key).2 with
  | some (.char _) => decidable_of_iff (s.linePosition + 1 < sizes.cmdSize ∧ s.linePosition + 1 < 2 ^ 8) (by rw [KeyFits, hkey])
  | some (.enter false) => decidable_of_iff (s.linePosition + 1 < sizes.cmdSize) (by rw [KeyFits, hkey])
  | some (.enter true) | some .backspace | some .left | some .right | some .up | some .down | none =>
    .isTrue (by rw [KeyFits, hkey]; trivial)

instance KeysFit.decidable (sizes : ShellSizes) (port : ShellPort) : ∀ (s : FinshShell) (keys : List KeyByte),
    Decidable (KeysFit sizes port s keys)
  | _, [] => inferInstanceAs (Decidable True)
  | s, key :: keys =>
    have := KeysFit.decidable sizes port (s.step sizes port key).1 keys
    inferInstanceAs (Decidable (key.ch ≠ 9 ∧ KeyFits sizes port.signedChar s key ∧ KeysFit sizes port (s.step sizes port key).1 keys))

/-! ## The buffer that holds a text -/

variable {sizes : ShellSizes} {port : ShellPort} {s : FinshShell} {e : Editor} {text text' : List UInt8} {key : KeyByte} {ch : UInt8}

def padded (sizes : ShellSizes) (text : List UInt8) : List UInt8 := text ++ List.replicate (sizes.cmdSize - text.length) 0

structure LineText (sizes : ShellSizes) (text : List UInt8) : Prop where
  nul : 0 ∉ text
  size : text.length < sizes.cmdSize
  byte : text.length < 2 ^ 8

theorem padded_length (h : text.length ≤ sizes.cmdSize) : (padded sizes text).length = sizes.cmdSize := by
  rw [padded, List.length_append, List.length_replicate]
  omega

theorem takeWhile_padded (hnul : 0 ∉ text) (rest : List UInt8) : (text ++ 0 :: rest).takeWhile (· ≠ 0) = text := by
  rw [List.takeWhile_append_of_pos]
  · rw [List.takeWhile_cons_of_neg (by simp), List.append_nil]
  · intro ch hch
    exact decide_eq_true fun heq => hnul (heq ▸ hch)

theorem strlen_padded (hnul : 0 ∉ text) (hsize : text.length < sizes.cmdSize) : strlen (padded sizes text) = text.length := by
  obtain ⟨n, hn⟩ := Nat.exists_eq_add_of_lt hsize
  have hroom : sizes.cmdSize - text.length = n + 1 := by omega
  rw [strlen, padded, hroom, List.replicate_succ, takeWhile_padded hnul]

theorem arrayString_padded (hnul : 0 ∉ text) (hsize : text.length < sizes.cmdSize) : arrayString (padded sizes text) = some text := by
  rw [arrayString, strlen_padded hnul hsize, padded_length (Nat.le_of_lt hsize), if_pos hsize, padded, List.take_left]

theorem LineText.padded_inj (h : LineText sizes text) (h' : LineText sizes text') (heq : padded sizes text = padded sizes text') :
    text = text' := by
  have hstring := arrayString_padded h.nul h.size
  rw [heq, arrayString_padded h'.nul h'.size] at hstring
  exact (Option.some.inj hstring).symm

/-! ## Moving a part of the text -/

theorem padded_concat :
    padded sizes (text ++ [ch]) = text ++ ch :: List.replicate (sizes.cmdSize - text.length - 1) 0 := by
  rw [padded, List.append_assoc, List.length_append, List.length_singleton, Nat.sub_sub]
  rfl

theorem padded_set_zero (hsize : text.length < sizes.cmdSize) {index : Nat} (hindex : index = text.length) :
    (text ++ ch :: List.replicate (sizes.cmdSize - text.length - 1) 0).set index 0 = padded sizes text := by
  obtain ⟨n, hn⟩ := Nat.exists_eq_add_of_lt hsize
  have hroom : sizes.cmdSize - text.length = n + 1 := by omega
  rw [hindex, List.set_append_right _ _ (Nat.le_refl _), Nat.sub_self, List.set_cons_zero, padded, hroom, Nat.add_sub_cancel,
    List.replicate_succ]

theorem padded_set (hsize : text.length + 1 < sizes.cmdSize) {index : Nat} (hindex : index = text.length) :
    (padded sizes text).set index ch = padded sizes (text ++ [ch]) := by
  obtain ⟨n, hn⟩ := Nat.exists_eq_add_of_lt hsize
  have hroom : sizes.cmdSize - text.length = n + 2 := by omega
  have hroom' : sizes.cmdSize - (text.length + 1) = n + 1 := by omega
  rw [hindex, padded, List.set_append_right _ _ (Nat.le_refl _), Nat.sub_self, padded, List.length_append, List.length_singleton,
    hroom, hroom', List.replicate_succ, List.set_cons_zero, List.append_assoc, List.singleton_append]

theorem memmove_left {left right rest : List UInt8} {dst count : Nat} (hdst : dst = left.length) (hcount : count = right.length) :
    ∃ last, memmove (left ++ ch :: right ++ rest) dst (dst + 1) count = left ++ right ++ last :: rest := by
  have hone : ((ch :: right).drop right.length).length = 1 := by
    rw [List.length_drop, List.length_cons]
    omega
  obtain ⟨last, hlast⟩ := List.length_eq_one_iff.1 hone
  have hsplit : left ++ ch :: right ++ rest = left ++ (ch :: (right ++ rest)) := by rw [List.append_assoc, List.cons_append]
  have hdrop : left.drop (left.length + 1) = [] := List.drop_eq_nil_of_le (Nat.le_succ _)
  have hdrop' : left.drop (left.length + right.length) = [] := List.drop_eq_nil_of_le (Nat.le_add_right _ _)
  have htail : (ch :: (right ++ rest)).drop right.length = last :: rest := by
    rw [← List.cons_append, List.drop_append_of_le_length (Nat.le_succ _), hlast]
    rfl
  refine ⟨last, ?_⟩
  rw [hdst, hcount, memmove, hsplit, List.take_left, List.drop_append, List.drop_append, ← List.append_assoc, hdrop, hdrop',
    Nat.add_sub_cancel_left, Nat.add_sub_cancel_left, List.nil_append, List.nil_append, List.drop_one, List.tail_cons,
    List.take_left, htail]

theorem memmove_right {left right rest : List UInt8} {dst src count : Nat} (hdst : dst = left.length + 1) (hsrc : src = left.length)
    (hcount : count = right.length) (hne : right ≠ []) :
    (memmove (left ++ right ++ rest) dst src count).set src ch = left ++ ch :: right ++ rest.drop 1 := by
  obtain ⟨x, right', rfl⟩ := List.exists_cons_of_ne_nil hne
  have htake : (left ++ x :: right' ++ rest).take (left.length + 1) = left ++ [x] := by
    rw [List.append_assoc, List.take_append, List.take_of_length_le (Nat.le_succ _), Nat.add_sub_cancel_left]
    rfl
  have hmid : ((left ++ x :: right' ++ rest).drop left.length).take (x :: right').length = x :: right' := by
    rw [List.append_assoc, List.drop_left, List.take_left]
  have hdrop : (left ++ x :: right' ++ rest).drop (left.length + 1 + (x :: right').length) = rest.drop 1 := by
    rw [List.drop_append, List.drop_eq_nil_of_le, List.nil_append]
    · congr 1
      rw [List.length_append]
      omega
    · rw [List.length_append]
      omega
  rw [hdst, hsrc, hcount, memmove, htake, hmid, hdrop, List.append_assoc, List.set_append_right _ _ (Nat.le_refl _), Nat.sub_self,
    List.singleton_append, List.set_cons_zero, List.append_assoc]
  rfl

/-! ## The shell and the editor -/

structure ShellEdits (sizes : ShellSizes) (s : FinshShell) (e : Editor) : Prop where
  text : LineText sizes e.text
  line : s.line = padded sizes e.text
  position : s.linePosition = e.text.length
  curpos : s.lineCurpos = e.before.length
  texts : ∀ text ∈ e.history, LineText sizes text
  entries : s.cmdHistory.take e.history.length = e.history.map (padded sizes)
  lines : s.cmdHistory.length = sizes.historyLines
  count : s.historyCount = e.history.length
  count_le : e.history.length ≤ sizes.historyLines
  current : s.currentHistory = e.current
  current_le : e.current ≤ e.history.length

namespace ShellEdits

theorem text_length (e : Editor) : e.text.length = e.before.length + e.after.length := by
  rw [Editor.text, List.length_append, List.length_reverse]

theorem init (sizes : ShellSizes) : ShellEdits sizes (FinshShell.init sizes) .empty := by
  refine ⟨⟨nofun, sizes.cmdSize_pos, by decide⟩, rfl, rfl, rfl, nofun, rfl, List.length_replicate, rfl, Nat.zero_le _, rfl,
    Nat.le_refl _⟩

theorem with_line (h : ShellEdits sizes s e) {line : List UInt8} {position curpos : Nat} {before after : List UInt8}
    (htext : LineText sizes (before.reverse ++ after)) (hline : line = padded sizes (before.reverse ++ after))
    (hposition : position = (before.reverse ++ after).length) (hcurpos : curpos = before.length) :
    ShellEdits sizes { s with line := line, linePosition := position, lineCurpos := curpos }
      { e with before := before, after := after } :=
  ⟨htext, hline, hposition, hcurpos, h.texts, h.entries, h.lines, h.count, h.count_le, h.current, h.current_le⟩

theorem left (h : ShellEdits sizes s e) : ShellEdits sizes s.left (e.edit sizes.historyLines .left).1 := by
  rcases e with ⟨before, after, history, current⟩
  have hcurpos : s.lineCurpos = before.length := h.curpos
  cases before with
  | nil =>
    have hzero : s.lineCurpos = 0 := hcurpos
    rw [FinshShell.left, if_neg (not_not.2 hzero)]
    exact h
  | cons ch before =>
    have hcursor : s.lineCurpos ≠ 0 := by
      rw [hcurpos]
      exact Nat.succ_ne_zero _
    have hsame : before.reverse ++ ch :: after = (ch :: before).reverse ++ after := by
      rw [List.reverse_cons, List.append_assoc, List.singleton_append]
    rw [FinshShell.left, if_pos hcursor]
    refine h.with_line (hsame ▸ h.text) (hsame ▸ h.line) (hsame ▸ h.position) ?_
    rw [hcurpos]
    rfl

theorem right (h : ShellEdits sizes s e) : ShellEdits sizes s.right (e.edit sizes.historyLines .right).1 := by
  rcases e with ⟨before, after, history, current⟩
  have hcurpos : s.lineCurpos = before.length := h.curpos
  have hposition : s.linePosition = before.length + after.length := h.position.trans (text_length _)
  cases after with
  | nil =>
    rw [FinshShell.right, if_neg (by rw [hcurpos, hposition]; exact Nat.lt_irrefl _)]
    exact h
  | cons ch after =>
    have hcursor : s.lineCurpos < s.linePosition := by
      rw [hcurpos, hposition, List.length_cons]
      omega
    have hsame : (ch :: before).reverse ++ after = before.reverse ++ ch :: after := by
      rw [List.reverse_cons, List.append_assoc, List.singleton_append]
    rw [FinshShell.right, if_pos hcursor]
    refine h.with_line (hsame ▸ h.text) (hsame ▸ h.line) (hsame ▸ h.position) ?_
    rw [hcurpos]
    rfl

theorem entry (h : ShellEdits sizes s e) {index : Nat} (hindex : index < e.history.length) :
    LineText sizes (e.history.getD index []) ∧ s.cmdHistory.getD index [] = padded sizes (e.history.getD index []) := by
  have hget : e.history[index]? = some e.history[index] := List.getElem?_eq_getElem hindex
  refine ⟨?_, ?_⟩
  · rw [List.getD_eq_getElem?_getD, hget]
    exact h.texts _ (List.getElem_mem hindex)
  · rw [List.getD_eq_getElem?_getD, List.getD_eq_getElem?_getD, hget, ← List.getElem?_take_of_lt hindex, h.entries,
      List.getElem?_map, hget]
    rfl

theorem recallLine (h : ShellEdits sizes s e) {index : Nat} (hindex : index < e.history.length) :
    ShellEdits sizes (s.recallLine index) (e.recallLine index) := by
  obtain ⟨htext, hentry⟩ := h.entry hindex
  have hlen : strlen (s.cmdHistory.getD index []) % 2 ^ 8 = (e.history.getD index []).length := by
    rw [hentry, strlen_padded htext.nul htext.size, Nat.mod_eq_of_lt htext.byte]
  have hsame : (e.history.getD index []).reverse.reverse ++ [] = e.history.getD index [] := by
    rw [List.reverse_reverse, List.append_nil]
  refine ⟨?_, ?_, ?_, ?_, h.texts, h.entries, h.lines, h.count, h.count_le, rfl, Nat.le_of_lt hindex⟩
  · rw [Editor.text, Editor.recallLine, hsame]
    exact htext
  · exact hentry.trans (congrArg (padded sizes) hsame.symm)
  · exact hlen.trans (congrArg List.length hsame.symm)
  · exact hlen.trans List.length_reverse.symm

theorem up (h : ShellEdits sizes s e) : ShellEdits sizes s.prevHistory (e.edit sizes.historyLines .up).1 := by
  have hle := h.current_le
  rw [FinshShell.prevHistory, Editor.edit]
  dsimp only
  rw [h.current]
  by_cases hpos : 0 < e.current
  · rw [if_pos hpos, if_pos hpos]
    exact h.recallLine (by omega)
  · rw [if_neg hpos, if_neg hpos]
    exact ⟨h.text, h.line, h.position, h.curpos, h.texts, h.entries, h.lines, h.count, h.count_le,
      (Nat.eq_zero_of_not_pos hpos).symm, h.current_le⟩

theorem down (h : ShellEdits sizes s e) : ShellEdits sizes s.nextHistory (e.edit sizes.historyLines .down).1 := by
  rw [FinshShell.nextHistory, Editor.edit]
  dsimp only
  rw [h.current, h.count]
  by_cases hnext : e.current + 1 < e.history.length
  · rw [if_pos hnext, if_pos hnext]
    exact h.recallLine hnext
  · rw [if_neg hnext, if_neg hnext]
    by_cases hnil : e.history = []
    · rw [if_neg (by rw [hnil]; exact not_not.2 rfl), if_neg (not_not.2 hnil)]
      exact h
    · have hpos := List.length_pos_of_ne_nil hnil
      rw [if_pos (Nat.pos_iff_ne_zero.1 hpos), if_pos hnil]
      exact h.recallLine (by omega)

theorem backspace (h : ShellEdits sizes s e) : ShellEdits sizes s.backspace (e.edit sizes.historyLines .backspace).1 := by
  rcases e with ⟨before, after, history, current⟩
  have hcurpos : s.lineCurpos = before.length := h.curpos
  have hposition : s.linePosition = before.length + after.length := h.position.trans (text_length _)
  have hline : s.line = padded sizes (before.reverse ++ after) := h.line
  have htext : LineText sizes (before.reverse ++ after) := h.text
  cases before with
  | nil =>
    have hzero : s.lineCurpos = 0 := hcurpos
    rw [FinshShell.backspace, if_pos hzero]
    exact h
  | cons ch before =>
    have hne : s.lineCurpos ≠ 0 := by
      rw [hcurpos]
      exact Nat.succ_ne_zero _
    have hlen := htext.byte
    rw [List.length_append, List.length_reverse, List.length_cons] at hlen
    rw [List.length_cons] at hcurpos hposition
    have hposition' : (s.linePosition + 255) % 2 ^ 8 = before.length + after.length := by omega
    have hcurpos' : s.lineCurpos - 1 = before.length := by omega
    have hsplit : (ch :: before).reverse ++ after = before.reverse ++ ch :: after := by
      rw [List.reverse_cons, List.append_assoc, List.singleton_append]
    rw [hsplit] at hline htext
    have hsize := htext.size
    rw [List.length_append, List.length_reverse, List.length_cons] at hsize
    have hless : (before.reverse ++ after).length < sizes.cmdSize := by
      rw [List.length_append, List.length_reverse]
      omega
    have htext' : LineText sizes (before.reverse ++ after) := by
      refine ⟨fun hmem => htext.nul ?_, hless, ?_⟩
      · exact (List.mem_append.1 hmem).elim (List.mem_append_left _) fun hmem => List.mem_append_right _ (List.mem_cons_of_mem _ hmem)
      · rw [List.length_append, List.length_reverse]
        omega
    have hindex : before.length + after.length = (before.reverse ++ after).length := by
      rw [List.length_append, List.length_reverse]
    rw [FinshShell.backspace, if_neg hne]
    dsimp only
    rw [hposition', hcurpos', hline]
    refine h.with_line htext' ?_ hindex rfl
    by_cases hmid : before.length < before.length + after.length
    · obtain ⟨last, hmove⟩ := @memmove_left ch before.reverse after
        (List.replicate (sizes.cmdSize - (before.reverse ++ ch :: after).length) 0) before.length
        (before.length + after.length - before.length) List.length_reverse.symm (by omega)
      have hroom : sizes.cmdSize - (before.reverse ++ ch :: after).length = sizes.cmdSize - (before.reverse ++ after).length - 1 := by
        rw [List.length_append, List.length_append, List.length_cons]
        omega
      rw [if_pos hmid, padded, hmove, hroom]
      exact padded_set_zero hless hindex
    · have hnil : after = [] := List.length_eq_zero_iff.1 (by omega)
      subst hnil
      rw [if_neg hmid, padded_concat]
      rw [List.append_nil] at hless hindex ⊢
      exact padded_set_zero hless hindex

theorem insert (h : ShellEdits sizes s e) (hch : ch ≠ 0) (hsize : s.linePosition + 1 < sizes.cmdSize) (hbyte : s.linePosition + 1 < 2 ^ 8) :
    ShellEdits sizes (s.insert sizes ch) (e.edit sizes.historyLines (.char ch)).1 := by
  rcases e with ⟨before, after, history, current⟩
  have hcurpos : s.lineCurpos = before.length := h.curpos
  have hposition : s.linePosition = before.length + after.length := h.position.trans (text_length _)
  have hline : s.line = padded sizes (before.reverse ++ after) := h.line
  have htext : LineText sizes (before.reverse ++ after) := h.text
  have hsplit : (ch :: before).reverse ++ after = before.reverse ++ ch :: after := by
    rw [List.reverse_cons, List.append_assoc, List.singleton_append]
  have hlen : (before.reverse ++ ch :: after).length = s.linePosition + 1 := by
    rw [List.length_append, List.length_reverse, List.length_cons]
    omega
  have htext' : LineText sizes ((ch :: before).reverse ++ after) := by
    rw [hsplit]
    refine ⟨fun hmem => ?_, hlen ▸ hsize, hlen ▸ hbyte⟩
    rcases List.mem_append.1 hmem with hmem | hmem
    · exact htext.nul (List.mem_append_left _ hmem)
    · exact (List.mem_cons.1 hmem).elim (fun heq => hch heq.symm) fun hmem => htext.nul (List.mem_append_right _ hmem)
  have hroom : ¬sizes.cmdSize ≤ s.linePosition := by omega
  rw [FinshShell.insert, if_neg hroom]
  dsimp only
  have hmod : (s.linePosition + 1) % 2 ^ 8 = s.linePosition + 1 := Nat.mod_eq_of_lt hbyte
  have hmod' : (s.lineCurpos + 1) % 2 ^ 8 = s.lineCurpos + 1 := Nat.mod_eq_of_lt (by omega)
  rw [hmod, hmod', if_neg (by omega)]
  refine h.with_line htext' ?_ ?_ (congrArg Nat.succ hcurpos)
  · rw [hsplit]
    by_cases hmid : s.lineCurpos < s.linePosition
    · rw [if_pos hmid, hline, padded]
      have hne : after ≠ [] := by
        rintro rfl
        rw [hcurpos, hposition] at hmid
        exact Nat.lt_irrefl _ hmid
      rw [memmove_right (by rw [hcurpos, List.length_reverse]) (by rw [hcurpos, List.length_reverse]) (by omega) hne,
        List.drop_replicate, padded, hlen, List.length_append, List.length_reverse, ← hposition, Nat.sub_sub]
    · rw [if_neg hmid, hline]
      have hnil : after = [] := List.length_eq_zero_iff.1 (by omega)
      subst hnil
      rw [List.append_nil]
      have hindex : s.linePosition = before.reverse.length := by
        rw [List.length_reverse]
        exact hposition
      exact padded_set (hindex ▸ hsize) hindex
  · rw [hsplit, hlen]

theorem push (h : ShellEdits sizes s e) :
    ShellEdits sizes (s.shellPushHistory sizes)
      { e with
        history := Editor.push sizes.historyLines e.history e.text
        current := (Editor.push sizes.historyLines e.history e.text).length } := by
  have hentry : s.historyEntry sizes = padded sizes e.text := by
    rw [FinshShell.historyEntry, h.line, h.position, padded, List.take_left]
  have hposition : s.linePosition ≠ 0 ↔ e.text ≠ [] := by
    rw [h.position, Ne, List.length_eq_zero_iff]
  -- the last line of the history is the line of the shell if the texts are the same
  have hlast : ∀ {count}, e.history.length = count + 1 →
      (s.cmdHistory.getD count [] ≠ s.line ↔ e.history.getLast? ≠ some e.text) := by
    intro count hcount
    have hindex : count < e.history.length := by omega
    obtain ⟨htext, heq⟩ := h.entry hindex
    have hget : e.history.getLast? = some (e.history.getD count []) := by
      rw [List.getLast?_eq_getElem?, hcount, Nat.add_sub_cancel, List.getD_eq_getElem?_getD, List.getElem?_eq_getElem (by omega)]
      rfl
    rw [heq, h.line, hget, Ne, Ne, Option.some_inj]
    exact not_congr ⟨htext.padded_inj h.text, congrArg _⟩
  -- only the history and its counters are new
  have hnew : ∀ {history : List (List UInt8)} {entries : List (List UInt8)} {count : Nat},
      (∀ text ∈ history, LineText sizes text) → entries.take history.length = history.map (padded sizes) →
        entries.length = sizes.historyLines → count = history.length → history.length ≤ sizes.historyLines →
          ShellEdits sizes { s with currentHistory := count, historyCount := count, cmdHistory := entries }
            { e with history := history, current := history.length } :=
    fun htexts hentries hlines hcount hle => ⟨h.text, h.line, h.position, h.curpos, htexts, hentries, hlines, hcount, hle, hcount,
      Nat.le_refl _⟩
  have hmem : ∀ text ∈ e.history ++ [e.text], LineText sizes text :=
    List.forall_mem_append.2 ⟨h.texts, List.forall_mem_singleton.2 h.text⟩
  have hsame : ShellEdits sizes { s with currentHistory := s.historyCount } { e with history := e.history, current := e.history.length } := by
    have hkept := hnew h.texts h.entries h.lines h.count h.count_le
    exact hkept
  rw [FinshShell.shellPushHistory, Editor.push]
  by_cases hnil : e.text = []
  · rw [if_neg (not_not.2 (not_not.1 (mt hposition.1 (not_not.2 hnil)))), if_pos (Or.inl hnil)]
    exact hsame
  · rw [if_pos (hposition.2 hnil)]
    by_cases hfull : sizes.historyLines ≤ s.historyCount
    · obtain ⟨count, hcount⟩ := Nat.exists_eq_add_one_of_ne_zero (Nat.pos_iff_ne_zero.1 sizes.historyLines_pos)
      have hlength : e.history.length = sizes.historyLines := Nat.le_antisymm h.count_le (h.count ▸ hfull)
      rw [if_pos hfull, hcount, Nat.add_sub_cancel]
      by_cases hne : s.cmdHistory.getD count [] ≠ s.line
      · have hnew' : ¬(e.text = [] ∨ e.history.getLast? = some e.text) :=
          not_or.2 ⟨hnil, (hlast (hlength.trans hcount)).1 hne⟩
        have hlength' : (e.history.drop 1 ++ [e.text]).length = sizes.historyLines := by
          rw [List.length_append, List.length_drop, List.length_singleton, hlength]
          omega
        have hall : s.cmdHistory = e.history.map (padded sizes) := by
          rw [← h.entries, List.take_of_length_le (Nat.le_of_eq (h.lines.trans hlength.symm))]
        rw [if_pos hne, if_neg hnew', if_pos (by omega), hentry]
        refine hnew (fun text hmem' => hmem text ?_) ?_ ?_ (hlength'.trans hcount).symm (Nat.le_of_eq hlength')
        · exact (List.mem_append.1 hmem').elim (fun hin => List.mem_append_left _ (List.mem_of_mem_drop hin)) (List.mem_append_right _)
        · rw [List.take_of_length_le, hall, List.map_append, List.map_drop]
          · rfl
          · rw [hlength', List.length_append, List.length_drop, h.lines, List.length_singleton]
            omega
        · rw [List.length_append, List.length_drop, h.lines, List.length_singleton]
          omega
      · have hold : e.history.getLast? = some e.text := not_not.1 (mt (hlast (hlength.trans hcount)).2 hne)
        rw [if_neg hne, if_pos (Or.inr hold)]
        exact hsame
    · have hroom : e.history.length < sizes.historyLines := by
        rw [← h.count]
        exact Nat.lt_of_not_le hfull
      have hstored : e.text = [] ∨ e.history.getLast? = some e.text ↔ ¬(s.historyCount = 0 ∨ s.cmdHistory.getD (s.historyCount - 1) [] ≠ s.line) := by
        rw [h.count]
        rcases hcount : e.history.length with _ | count
        · rw [List.length_eq_zero_iff.1 hcount]
          exact iff_of_false (not_or.2 ⟨hnil, nofun⟩) (not_not.2 (Or.inl rfl))
        · rw [Nat.add_sub_cancel, hlast hcount, not_or, not_not]
          exact ⟨fun hor => ⟨Nat.succ_ne_zero _, hor.resolve_left hnil⟩, fun hand => .inr hand.2⟩
      rw [if_neg hfull]
      by_cases hne : s.historyCount = 0 ∨ s.cmdHistory.getD (s.historyCount - 1) [] ≠ s.line
      · rw [if_pos hne, if_neg (fun hold => hstored.1 hold hne), if_neg (Nat.not_le_of_lt hroom), hentry]
        refine hnew hmem ?_ ?_ ?_ ?_
        · rw [h.count, List.length_append, List.length_singleton, List.map_append, List.take_add_one, List.take_set_of_le (Nat.le_refl _),
            h.entries, List.getElem?_set_self (by rw [h.lines]; exact hroom)]
          rfl
        · rw [List.length_set]
          exact h.lines
        · rw [h.count, List.length_append, List.length_singleton]
        · rw [List.length_append, List.length_singleton]
          exact hroom
      · rw [if_neg hne, if_pos (hstored.2 hne)]
        exact hsame

theorem execLine (h : ShellEdits sizes s e) {msh : Bool} (hsize : msh = false → s.linePosition + 1 < sizes.cmdSize) :
    ShellEdits sizes (s.execLine sizes msh).1 { e with before := [], after := [] } ∧
      (s.execLine sizes msh).2.map ShellCall.executed =
        (if msh then [e.text] else if e.text ≠ [] then [e.text ++ [59]] else []).map some := by
  refine ⟨h.with_line ⟨nofun, sizes.cmdSize_pos, by decide⟩ rfl rfl rfl, ?_⟩
  rw [FinshShell.execLine]
  dsimp only
  cases msh with
  | true =>
    rw [if_pos rfl, if_pos rfl, List.map_singleton, List.map_singleton, ShellCall.executed, h.position, h.line,
      if_pos (strlen_padded h.text.nul h.text.size).symm, arrayString_padded h.text.nul h.text.size]
  | false =>
    have hposition : s.linePosition ≠ 0 ↔ e.text ≠ [] := by
      rw [h.position, Ne, List.length_eq_zero_iff]
    have hmode : ¬false = true := Bool.noConfusion
    rw [if_neg hmode, if_neg hmode]
    by_cases hnil : e.text ≠ []
    · have hless : e.text.length + 1 < sizes.cmdSize := h.position ▸ hsize rfl
      have hnul : 0 ∉ e.text ++ [59] := by
        rw [List.mem_append, List.mem_singleton]
        exact not_or.2 ⟨h.text.nul, by decide⟩
      rw [if_pos (hposition.2 hnil), if_pos hnil, List.map_singleton, List.map_singleton, ShellCall.executed, h.line,
        padded_set hless h.position, arrayString_padded hnul]
      rw [List.length_append]
      exact hless
    · rw [if_neg (mt hposition.1 hnil), if_neg hnil]
      rfl

end ShellEdits

/-! ## Key by key -/

def FinshShell.perform (sizes : ShellSizes) (s : FinshShell) : Option EditKey → FinshShell × List ShellCall
  | none => (s, [])
  | some (.char ch) => (s.insert sizes ch, [])
  | some .backspace => (s.backspace, [])
  | some .left => (s.left, [])
  | some .right => (s.right, [])
  | some .up => (s.prevHistory, [])
  | some .down => (s.nextHistory, [])
  | some (.enter msh) => (s.shellPushHistory sizes).execLine sizes msh

theorem perform_stat (edited : Option EditKey) : (s.perform sizes edited).1.stat = s.stat := by
  cases edited with
  | none => rfl
  | some edited =>
    cases edited with
    | char ch =>
      rw [FinshShell.perform, FinshShell.insert]
      dsimp only
      split_ifs <;> rfl
    | backspace =>
      rw [FinshShell.perform, FinshShell.backspace]
      split_ifs <;> rfl
    | left =>
      rw [FinshShell.perform, FinshShell.left]
      split_ifs <;> rfl
    | right =>
      rw [FinshShell.perform, FinshShell.right]
      split_ifs <;> rfl
    | up =>
      rw [FinshShell.perform, FinshShell.prevHistory]
      split_ifs <;> rfl
    | down =>
      rw [FinshShell.perform, FinshShell.nextHistory]
      split_ifs <;> rfl
    | enter msh =>
      rw [FinshShell.perform, FinshShell.execLine, FinshShell.shellPushHistory]
      dsimp only
      split_ifs <;> rfl

theorem step_eq (htab : key.ch ≠ 9) :
    s.step sizes port key =
      FinshShell.perform sizes { s with stat := (decodeKey port.signedChar s.stat key).1 } (decodeKey port.signedChar s.stat key).2 := by
  have hplain : ∀ s : FinshShell, s.normalByte sizes port key = s.perform sizes (plainKey port.signedChar key) := by
    intro s
    rw [FinshShell.normalByte, plainKey, if_neg htab]
    split_ifs <;> rfl
  rw [FinshShell.step, decodeKey.eq_def]
  rcases s with ⟨stat, current, count, entries, line, position, curpos⟩
  by_cases hesc : key.ch = 0x1B
  · rw [if_pos hesc, if_pos hesc]
    rfl
  · rw [if_neg hesc, if_neg hesc]
    cases stat with
    | waitNormal => exact hplain _
    | waitSpecKey =>
      dsimp only
      by_cases hfunc : key.ch = 0x5B
      · rw [if_pos hfunc, if_pos hfunc]
        rfl
      · rw [if_neg hfunc, if_neg hfunc]
        exact hplain _
    | waitFuncKey =>
      dsimp only
      by_cases hup : key.ch = 0x41
      · rw [if_pos hup, if_pos hup]
        rfl
      · rw [if_neg hup, if_neg hup]
        by_cases hdown : key.ch = 0x42
        · rw [if_pos hdown, if_pos hdown]
          rfl
        · rw [if_neg hdown, if_neg hdown]
          by_cases hleft : key.ch = 0x44
          · rw [if_pos hleft, if_pos hleft]
            rfl
          · rw [if_neg hleft, if_neg hleft]
            by_cases hright : key.ch = 0x43
            · rw [if_pos hright, if_pos hright]
              rfl
            · rw [if_neg hright, if_neg hright]
              exact hplain _

theorem ShellEdits.with_stat (h : ShellEdits sizes s e) (stat : InputStat) : ShellEdits sizes { s with stat := stat } e :=
  ⟨h.text, h.line, h.position, h.curpos, h.texts, h.entries, h.lines, h.count, h.count_le, h.current, h.current_le⟩

def Editor.perform (historyLines : Nat) (e : Editor) (edited : Option EditKey) : Editor × List (List UInt8) :=
  (edited.map (e.edit historyLines)).getD (e, [])

theorem plainKey_char {signedChar : Bool} (h : plainKey signedChar key = some (.char ch)) : ch ≠ 0 := by
  rw [plainKey] at h
  by_cases hnull : key.ch = 0 ∨ signedChar = false ∧ key.ch = 0xFF
  · rw [if_pos hnull] at h
    cases h
  · rw [if_neg hnull] at h
    split_ifs at h <;> cases h
    exact (not_or.1 hnull).1

theorem decodeKey_char {signedChar : Bool} {stat : InputStat} (h : (decodeKey signedChar stat key).2 = some (.char ch)) : ch ≠ 0 := by
  rw [decodeKey.eq_def] at h
  by_cases hesc : key.ch = 0x1B
  · rw [if_pos hesc] at h
    cases h
  · rw [if_neg hesc] at h
    cases stat with
    | waitNormal => exact plainKey_char h
    | waitSpecKey =>
      dsimp only at h
      by_cases hfunc : key.ch = 0x5B
      · rw [if_pos hfunc] at h
        cases h
      · rw [if_neg hfunc] at h
        exact plainKey_char h
    | waitFuncKey =>
      dsimp only at h
      split_ifs at h
      · cases h
      · cases h
      · cases h
      · cases h
      · exact plainKey_char h

theorem ShellEdits.step (h : ShellEdits sizes s e) (htab : key.ch ≠ 9) (hfits : KeyFits sizes port.signedChar s key) :
    ShellEdits sizes (s.step sizes port key).1 (e.perform sizes.historyLines (decodeKey port.signedChar s.stat key).2).1 ∧
      (s.step sizes port key).2.map ShellCall.executed =
        (e.perform sizes.historyLines (decodeKey port.signedChar s.stat key).2).2.map some := by
  have hstat := h.with_stat (decodeKey port.signedChar s.stat key).1
  have hchar := @decodeKey_char key
  rw [step_eq htab]
  rw [KeyFits] at hfits
  generalize hkey : (decodeKey port.signedChar s.stat key).2 = edited at hfits
  cases edited with
  | none => exact ⟨hstat, rfl⟩
  | some edited =>
    cases edited with
    | char ch => exact ⟨hstat.insert (hchar hkey) hfits.1 hfits.2, rfl⟩
    | backspace => exact ⟨hstat.backspace, rfl⟩
    | left =>
      refine ⟨hstat.left, ?_⟩
      rcases e with ⟨_ | _, _, _, _⟩ <;> rfl
    | right =>
      refine ⟨hstat.right, ?_⟩
      rcases e with ⟨_, _ | _, _, _⟩ <;> rfl
    | up => exact ⟨hstat.up, rfl⟩
    | down => exact ⟨hstat.down, rfl⟩
    | enter msh =>
      have hposition : (FinshShell.shellPushHistory sizes { s with stat := (decodeKey port.signedChar s.stat key).1 }).linePosition =
          s.linePosition := hstat.push.position.trans hstat.position.symm
      refine hstat.push.execLine fun hmsh => ?_
      rw [hposition]
      rw [hmsh] at hfits
      exact hfits

theorem ShellEdits.run (h : ShellEdits sizes s e) {keys : List KeyByte} (hfit : KeysFit sizes port s keys) :
    ShellEdits sizes (s.run sizes port keys).1 (e.run sizes.historyLines port.signedChar s.stat keys).1 ∧
      (s.run sizes port keys).2.map ShellCall.executed = (e.run sizes.historyLines port.signedChar s.stat keys).2.map some := by
  induction keys generalizing s e with
  | nil => exact ⟨h, rfl⟩
  | cons key keys ih =>
    obtain ⟨htab, hfits, hrest⟩ := hfit
    obtain ⟨hstep, hcalls⟩ := h.step htab hfits
    obtain ⟨hrun, hlater⟩ := ih hstep hrest
    have hstat : (s.step sizes port key).1.stat = (decodeKey port.signedChar s.stat key).1 := by rw [step_eq htab, perform_stat]
    rw [hstat] at hrun hlater
    refine ⟨hrun, ?_⟩
    exact (List.map_append.trans (congrArg₂ _ hcalls hlater)).trans List.map_append.symm

/-- The positions stay in the buffer, the text ends with a zero, and each line that is executed is the one of the ideal editor. -/
theorem finshShell_edits (sizes : ShellSizes) (port : ShellPort) (keys : List KeyByte)
    (hfit : KeysFit sizes port (FinshShell.init sizes) keys) :
    ((FinshShell.init sizes).run sizes port keys).1.lineCurpos ≤ ((FinshShell.init sizes).run sizes port keys).1.linePosition ∧
      ((FinshShell.init sizes).run sizes port keys).1.linePosition < sizes.cmdSize ∧
        ((FinshShell.init sizes).run sizes port keys).1.line[((FinshShell.init sizes).run sizes port keys).1.linePosition]? = some 0 ∧
          ((FinshShell.init sizes).run sizes port keys).2.map ShellCall.executed =
            (Editor.empty.run sizes.historyLines port.signedChar .waitNormal keys).2.map some := by
  obtain ⟨h, hcalls⟩ := (ShellEdits.init sizes).run hfit
  refine ⟨?_, ?_, ?_, hcalls⟩
  · rw [h.curpos, h.position, ShellEdits.text_length]
    exact Nat.le_add_right _ _
  · rw [h.position]
    exact h.text.size
  · obtain ⟨n, hn⟩ := Nat.exists_eq_add_of_lt h.text.size
    rw [h.position, h.line, padded, List.getElem?_append_right (Nat.le_refl _), Nat.sub_self, List.getElem?_replicate, if_pos (by omega)]

def keyBytes (msh : Bool) (text : List Char) : List KeyByte := text.map fun c => ⟨UInt8.ofNat c.toNat, msh⟩

def defaultSizes : ShellSizes := ⟨80, 5, by decide, by decide, by decide⟩

/-- A character in the middle of a line, one taken back, and the line again from the history. -/
theorem finshShell_edits_recall :
    ((FinshShell.init defaultSizes).run defaultSizes ⟨true, id⟩
        (keyBytes true "ls\x1b[Dxy\x08\r".toList ++ keyBytes false "\x1b[A0\r".toList)).2.map ShellCall.executed =
      [some [108, 120, 115], some [108, 120, 115, 48, 59]] := by
  refine (finshShell_edits defaultSizes ⟨true, id⟩ _ ?_).2.2.2.trans ?_
  · decide +kernel
  · decide +kernel

/-- A line as long as the buffer: its text stays when the positions go back to 0, and stands behind the next line. With `;` in the
last place of the buffer no string is left. -/
theorem finshShell_large_line_fails :
    ((FinshShell.init defaultSizes).run defaultSizes ⟨true, id⟩ (keyBytes true (List.replicate 80 'a'))).1.linePosition = 0 ∧
    ((FinshShell.init defaultSizes).run defaultSizes ⟨true, id⟩ (keyBytes true (List.replicate 80 'a'))).1.line[0]? = some 97 ∧
    ((FinshShell.init defaultSizes).run defaultSizes ⟨true, id⟩ (keyBytes true (List.replicate 80 'a' ++ "ls\r".toList))).2 =
        [.mshExec (108 :: 115 :: List.replicate 78 97) 2] ∧
    ((FinshShell.init defaultSizes).run defaultSizes ⟨true, id⟩ (keyBytes false (List.replicate 79 'a' ++ ['\r']))).2.map
        ShellCall.executed = [none] := by
  decide +kernel

end RtThread
