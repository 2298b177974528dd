import Mathlib

/-!
# The arguments of a command line

`msh_split` writes a NUL over each separator and leaves the places of the arguments in `argv`. A pointer into the line is its index, which is always `position`. The loops end at the length of the line, but the byte there is read too; it is the NUL behind the line.
-/

namespace RtThread

open Function

def isBlank (c : UInt8) : Bool := c = 0x20 ∨ c = 0x09

/-- "strip bank and tab" -/
def stripBlanks (length : Nat) (cmd : Nat → UInt8) (position : Nat) : (Nat → UInt8) × Nat :=
  if isBlank (cmd position) ∧ position < length then stripBlanks length (update cmd position 0) (position + 1)
  else (cmd, position)
termination_by length - position

/-- "skip this string" -/
def skipQuoted (length : Nat) (cmd : Nat → UInt8) (position : Nat) : Nat :=
  if cmd position ≠ 0x22 ∧ position < length then
    if cmd position = 0x5C ∧ cmd (position + 1) = 0x22 then skipQuoted length cmd (position + 2)
    else skipQuoted length cmd (position + 1)
  else position
termination_by length - position

def skipWord (length : Nat) (cmd : Nat → UInt8) (position : Nat) : Nat :=
  if ¬ isBlank (cmd position) ∧ position < length then skipWord length cmd (position + 1) else position
termination_by length - position

theorem le_stripBlanks (length : Nat) (cmd : Nat → UInt8) (position : Nat) : position ≤ (stripBlanks length cmd position).2 := by
  fun_induction stripBlanks with
  | case1 cmd position hblank ih => omega
  | case2 cmd position hstop => rfl

theorem le_skipQuoted (length : Nat) (cmd : Nat → UInt8) (position : Nat) : position ≤ skipQuoted length cmd position := by
  fun_induction skipQuoted with
  | case1 position hmore hescape ih => omega
  | case2 position hmore hplain ih => omega
  | case3 position hstop => rfl

theorem le_skipWord (length : Nat) (cmd : Nat → UInt8) (position : Nat) : position ≤ skipWord length cmd position := by
  fun_induction skipWord with
  | case1 position hmore ih => omega
  | case2 position hstop => rfl

theorem not_blank_stripBlanks {length : Nat} {cmd : Nat → UInt8} {position : Nat}
    (hlt : (stripBlanks length cmd position).2 < length) :
    ¬ isBlank ((stripBlanks length cmd position).1 (stripBlanks length cmd position).2) := by
  fun_induction stripBlanks with
  | case1 cmd position hblank ih => exact ih hlt
  | case2 cmd position hstop => exact fun hblank => hstop ⟨hblank, hlt⟩

theorem lt_skipWord {length : Nat} {cmd : Nat → UInt8} {position : Nat} (hlt : position < length) (hword : ¬ isBlank (cmd position)) :
    position < skipWord length cmd position := by
  rw [skipWord, if_pos ⟨hword, hlt⟩]
  exact le_skipWord length cmd (position + 1)

/-- `msh_split` from the test of its loop on, with the arguments that it has found; the line and all arguments in the end. -/
def mshSplitFrom (argMax length : Nat) (cmd : Nat → UInt8) (position : Nat) (argv : List Nat) : (Nat → UInt8) × List Nat :=
  if position < length then
    let stripped := stripBlanks length cmd position
    -- "Too many args ! We only Use"
    if argMax ≤ argv.length then (stripped.1, argv)
    else if length ≤ stripped.2 then (stripped.1, argv)
    else if stripped.1 stripped.2 = 0x22 then
      let quote := skipQuoted length stripped.1 (stripped.2 + 1)
      if length ≤ quote then (stripped.1, argv ++ [stripped.2 + 1])
      else mshSplitFrom argMax length (update stripped.1 quote 0) (quote + 1) (argv ++ [stripped.2 + 1])
    else
      let blank := skipWord length stripped.1 stripped.2
      if length ≤ blank then (stripped.1, argv ++ [stripped.2])
      else mshSplitFrom argMax length stripped.1 blank (argv ++ [stripped.2])
  else (cmd, argv)
termination_by length - position
decreasing_by
  · have hstrip := le_stripBlanks length cmd position
    have hskip := le_skipQuoted length stripped.1 (stripped.2 + 1)
    dsimp only [stripped] at hskip
    omega
  · have hstrip := le_stripBlanks length cmd position
    have hlt : stripped.2 < length := by omega
    have hskip := lt_skipWord hlt (not_blank_stripBlanks hlt)
    dsimp only [stripped] at hskip
    omega

/-- `FINSH_ARG_MAX` is a parameter. -/
def mshSplit (argMax : Nat) (cmd : Nat → UInt8) (length : Nat) : (Nat → UInt8) × List Nat := mshSplitFrom argMax length cmd 0 []

/-! ## The reference -/

/-- The text of a string up to its end, and what follows; a quote behind a backslash does not end it. -/
def quotedText : List UInt8 → List UInt8 × List UInt8
  | [] => ([], [])
  | c :: rest =>
    if c = 0x22 then ([], rest)
    else if c = 0x5C ∧ rest.head? = some 0x22 then (c :: 0x22 :: (quotedText rest.tail).1, (quotedText rest.tail).2)
    else (c :: (quotedText rest).1, (quotedText rest).2)
termination_by l => l.length

theorem length_quotedText_le (l : List UInt8) : (quotedText l).2.length ≤ l.length := by
  fun_induction quotedText with
  | case1 => rfl
  | case2 rest => exact Nat.le_succ _
  | case3 c rest hquote hescape ih =>
    have htail := rest.length_tail
    show (quotedText rest.tail).2.length ≤ rest.length + 1
    omega
  | case4 c rest hquote hplain ih => exact ih.trans (Nat.le_succ _)

def tokens : List UInt8 → List (List UInt8)
  | [] => []
  | c :: rest =>
    if isBlank c then tokens rest
    else if c = 0x22 then (quotedText rest).1 :: tokens (quotedText rest).2
    else (c :: rest.takeWhile fun c => !isBlank c) :: tokens (rest.dropWhile fun c => !isBlank c)
termination_by l => l.length
decreasing_by
  · exact Nat.lt_succ_self _
  · exact Nat.lt_succ_of_le (length_quotedText_le rest)
  · exact Nat.lt_succ_of_le (rest.dropWhile_sublist _).length_le

/-! ## The text of a line -/

def cmdText (cmd : Nat → UInt8) (start stop : Nat) : List UInt8 := (List.range' start (stop - start)).map cmd

variable {cmd cmd' : Nat → UInt8} {position length start stop argMax : Nat} {argv : List Nat}

theorem cmdText_of_le (h : stop ≤ start) : cmdText cmd start stop = [] := by
  rw [cmdText, Nat.sub_eq_zero_of_le h]
  rfl

theorem cmdText_cons (h : start < stop) : cmdText cmd start stop = cmd start :: cmdText cmd (start + 1) stop := by
  obtain ⟨n, hn⟩ : ∃ n, stop - start = n + 1 := ⟨stop - start - 1, by omega⟩
  have hrest : stop - (start + 1) = n := by omega
  rw [cmdText, cmdText, hn, hrest, List.range'_succ, List.map_cons]

@[simp]
theorem length_cmdText : (cmdText cmd start stop).length = stop - start := by
  rw [cmdText, List.length_map, List.length_range']

theorem cmdText_congr (h : ∀ i, start ≤ i → i < stop → cmd' i = cmd i) : cmdText cmd' start stop = cmdText cmd start stop := by
  refine List.map_congr_left fun i hi => ?_
  obtain ⟨hlow, hhigh⟩ := List.mem_range'_1.mp hi
  exact h i hlow (by omega)

theorem head?_cmdText : (cmdText cmd start stop).head? = if start < stop then some (cmd start) else none := by
  split
  · rename_i hlt
    rw [cmdText_cons hlt, List.head?_cons]
  · rename_i hle
    rw [cmdText_of_le (Nat.le_of_not_lt hle), List.head?_nil]

theorem tail_cmdText : (cmdText cmd start stop).tail = cmdText cmd (start + 1) stop := by
  by_cases hlt : start < stop
  · rw [cmdText_cons hlt, List.tail_cons]
  · rw [cmdText_of_le (Nat.le_of_not_lt hlt), cmdText_of_le (by omega), List.tail_nil]

/-! ## The inner loops -/

theorem stripBlanks_spec (hle : position ≤ length) :
    (stripBlanks length cmd position).2 ≤ length ∧
      tokens (cmdText cmd position length) = tokens (cmdText cmd (stripBlanks length cmd position).2 length) ∧
      (∀ i, i < position ∨ (stripBlanks length cmd position).2 ≤ i → (stripBlanks length cmd position).1 i = cmd i) ∧
      ∀ i, position ≤ i → i < (stripBlanks length cmd position).2 → (stripBlanks length cmd position).1 i = 0 := by
  fun_induction stripBlanks with
  | case1 cmd position hblank ih =>
    obtain ⟨hblank, hlt⟩ := hblank
    obtain ⟨hend, htokens, hsame, hzero⟩ := ih hlt
    have hstrip := le_stripBlanks length (update cmd position 0) (position + 1)
    refine ⟨hend, ?_, ?_, ?_⟩
    · rw [cmdText_cons hlt, tokens, if_pos hblank]
      have hrest : ∀ start, position < start → cmdText (update cmd position 0) start length = cmdText cmd start length :=
        fun start hstart => cmdText_congr fun i hi _ => update_of_ne (by omega) _ _
      rw [← hrest (position + 1) (by omega), htokens, hrest _ (by omega)]
    · intro i hi
      rw [hsame i (by omega), update_of_ne (by omega)]
    · intro i hlow hhigh
      by_cases hi : i = position
      · rw [hsame i (by omega), hi, update_self]
      · exact hzero i (by omega) hhigh
  | case2 cmd position hstop =>
    exact ⟨hle, rfl, fun _ _ => rfl, fun i hlow hhigh => absurd hhigh (by omega)⟩

theorem skipWord_spec (hle : position ≤ length) :
    skipWord length cmd position ≤ length ∧
      (cmdText cmd position length).takeWhile (fun c => !isBlank c) = cmdText cmd position (skipWord length cmd position) ∧
      (cmdText cmd position length).dropWhile (fun c => !isBlank c) = cmdText cmd (skipWord length cmd position) length ∧
      (skipWord length cmd position < length → isBlank (cmd (skipWord length cmd position))) := by
  fun_induction skipWord with
  | case1 position hmore ih =>
    obtain ⟨hword, hlt⟩ := hmore
    obtain ⟨hend, htake, hdrop, hblank⟩ := ih hlt
    have hskip := le_skipWord length cmd (position + 1)
    have hpass : (!isBlank (cmd position)) = true := by simpa using hword
    refine ⟨hend, ?_, ?_, hblank⟩
    · rw [cmdText_cons hlt, List.takeWhile_cons_of_pos (p := fun c => !isBlank c) hpass, htake, cmdText_cons (by omega : position < _)]
    · rw [cmdText_cons hlt, List.dropWhile_cons_of_pos (p := fun c => !isBlank c) hpass, hdrop]
  | case2 position hstop =>
    rw [cmdText_of_le le_rfl]
    by_cases hlt : position < length
    · have hblank : isBlank (cmd position) := by
        by_contra hword
        exact hstop ⟨hword, hlt⟩
      have hfail : ¬ (!isBlank (cmd position)) = true := by simpa using hblank
      rw [cmdText_cons hlt, List.takeWhile_cons_of_neg (p := fun c => !isBlank c) hfail, List.dropWhile_cons_of_neg (p := fun c => !isBlank c) hfail]
      exact ⟨hle, rfl, rfl, fun _ => hblank⟩
    · rw [cmdText_of_le (Nat.le_of_not_lt hlt)]
      exact ⟨hle, rfl, rfl, fun h => absurd h hlt⟩

theorem skipQuoted_spec (hnul : cmd length = 0) (hle : position ≤ length) :
    skipQuoted length cmd position ≤ length ∧
      quotedText (cmdText cmd position length) =
        (cmdText cmd position (skipQuoted length cmd position), cmdText cmd (skipQuoted length cmd position + 1) length) := by
  fun_induction skipQuoted with
  | case1 position hmore hescape ih =>
    obtain ⟨hquote, hlt⟩ := hmore
    have hnext : position + 1 < length := by
      by_contra hlast
      have heq : position + 1 = length := by omega
      rw [heq, hnul] at hescape
      exact absurd hescape.2 (by decide)
    obtain ⟨hend, htext⟩ := ih hnext
    have hskip := le_skipQuoted length cmd (position + 2)
    refine ⟨hend, ?_⟩
    rw [cmdText_cons hlt, quotedText, if_neg hquote, head?_cmdText, if_pos hnext, hescape.2, if_pos ⟨hescape.1, rfl⟩, tail_cmdText,
      htext, cmdText_cons (show position < _ by omega), cmdText_cons (show position + 1 < _ by omega), hescape.2]
  | case2 position hmore hplain ih =>
    obtain ⟨hquote, hlt⟩ := hmore
    obtain ⟨hend, htext⟩ := ih hlt
    have hskip := le_skipQuoted length cmd (position + 1)
    refine ⟨hend, ?_⟩
    have hplain' : ¬ (cmd position = 0x5C ∧ (cmdText cmd (position + 1) length).head? = some 0x22) := by
      rintro ⟨hback, hhead⟩
      rw [head?_cmdText] at hhead
      split at hhead
      · exact hplain ⟨hback, Option.some.inj hhead⟩
      · cases hhead
    rw [cmdText_cons hlt, quotedText, if_neg hquote, if_neg hplain', htext, cmdText_cons (show position < _ by omega)]
  | case3 position hstop =>
    refine ⟨hle, ?_⟩
    rw [cmdText_of_le (le_refl position)]
    by_cases hlt : position < length
    · have hquote : cmd position = 0x22 := by
        by_contra hother
        exact hstop ⟨hother, hlt⟩
      rw [cmdText_cons hlt, quotedText, if_pos hquote]
    · rw [cmdText_of_le (Nat.le_of_not_lt hlt), cmdText_of_le (by omega), quotedText]

/-! ## The arguments -/

structure IsArgument (cmd : Nat → UInt8) (length : Nat) (start : Nat) (token : List UInt8) : Prop where
  inside : start + token.length ≤ length
  text : cmdText cmd start (start + token.length) = token
  nul : cmd (start + token.length) = 0

theorem isArgument_of_same (hle : start ≤ stop) (hstop : stop ≤ length) (hsame : ∀ i, i < stop → cmd' i = cmd i) (hnul : cmd' stop = 0) :
    IsArgument cmd' length start (cmdText cmd start stop) := by
  have hend : start + (cmdText cmd start stop).length = stop := by
    rw [length_cmdText]
    omega
  constructor
  · rw [hend]
    exact hstop
  · rw [hend]
    exact cmdText_congr fun i _ hi => hsame i hi
  · rw [hend]
    exact hnul

/-- What the loop leaves: one argument for each token that there is room for. -/
structure Splits (argMax length position : Nat) (cmd : Nat → UInt8) (argv : List Nat) (result : (Nat → UInt8) × List Nat) : Prop where
  args : ∃ starts, result.2 = argv ++ starts ∧ List.Forall₂ (IsArgument result.1 length) starts
    ((tokens (cmdText cmd position length)).take (argMax - argv.length))
  same : ∀ i, i < position ∨ length ≤ i → result.1 i = cmd i
  blank : position < length → isBlank (cmd position) → result.1 position = 0

variable {result : (Nat → UInt8) × List Nat}

namespace Splits

theorem done (h : length ≤ position) : Splits argMax length position cmd argv (cmd, argv) where
  args := by
    refine ⟨[], (List.append_nil argv).symm, ?_⟩
    rw [cmdText_of_le h, tokens, List.take_nil]
    exact .nil
  same _ _ := rfl
  blank hlt := absurd hlt (Nat.not_lt_of_le h)

theorem full (h : argMax ≤ argv.length) (hblank : position < length → ¬ isBlank (cmd position)) :
    Splits argMax length position cmd argv (cmd, argv) where
  args := by
    refine ⟨[], (List.append_nil argv).symm, ?_⟩
    rw [Nat.sub_eq_zero_of_le h, List.take_zero]
    exact .nil
  same _ _ := rfl
  blank hlt := fun h => absurd h (hblank hlt)

theorem strip (hle : position ≤ length)
    (h : Splits argMax length (stripBlanks length cmd position).2 (stripBlanks length cmd position).1 argv result) :
    Splits argMax length position cmd argv result := by
  obtain ⟨hend, htokens, hsame, hzero⟩ := stripBlanks_spec hle
  have hstrip := le_stripBlanks length cmd position
  constructor
  · rw [htokens, ← cmdText_congr fun i hi _ => hsame i (.inr hi)]
    exact h.args
  · intro i hi
    rw [h.same i (by omega), hsame i (by omega)]
  · intro hlt hblank
    have hnext : position < (stripBlanks length cmd position).2 := by
      rw [stripBlanks, if_pos ⟨hblank, hlt⟩]
      exact le_stripBlanks length _ (position + 1)
    rw [h.same position (.inl hnext)]
    exact hzero position le_rfl hnext

theorem argument {next : Nat} {token : List UInt8} (hroom : ¬ argMax ≤ argv.length) (hblank : ¬ isBlank (cmd position))
    (htokens : tokens (cmdText cmd position length) = token :: tokens (cmdText cmd' next length)) (hnext : position ≤ next)
    (hsame : ∀ i, i < position ∨ length ≤ i → cmd' i = cmd i) (harg : IsArgument result.1 length start token)
    (h : Splits argMax length next cmd' (argv ++ [start]) result) : Splits argMax length position cmd argv result := by
  obtain ⟨starts, heq, hargs⟩ := h.args
  constructor
  · refine ⟨start :: starts, by rw [heq, List.append_assoc, List.singleton_append], ?_⟩
    obtain ⟨room, hleft⟩ : ∃ room, argMax - argv.length = room + 1 := ⟨argMax - argv.length - 1, by omega⟩
    have hrest : argMax - (argv ++ [start]).length = room := by
      rw [List.length_append, List.length_singleton]
      omega
    rw [htokens, hleft, List.take_succ_cons]
    exact .cons harg (hrest ▸ hargs)
  · intro i hi
    rw [h.same i (by omega), hsame i hi]
  · exact fun _ h => absurd h hblank

end Splits

theorem tokens_string (hnul : cmd length = 0) (hlt : position < length) (hquote : cmd position = 0x22) :
    tokens (cmdText cmd position length) =
      cmdText cmd (position + 1) (skipQuoted length cmd (position + 1)) ::
        tokens (cmdText cmd (skipQuoted length cmd (position + 1) + 1) length) := by
  have hblank : ¬ isBlank (cmd position) := by
    rw [hquote]
    decide
  rw [cmdText_cons hlt, tokens, if_neg hblank, if_pos hquote, (skipQuoted_spec hnul hlt).2]

theorem tokens_word (hlt : position < length) (hblank : ¬ isBlank (cmd position)) (hquote : cmd position ≠ 0x22) :
    tokens (cmdText cmd position length) =
      cmdText cmd position (skipWord length cmd position) :: tokens (cmdText cmd (skipWord length cmd position) length) := by
  obtain ⟨-, htake, hdrop, -⟩ := skipWord_spec hlt.le
  have hpass : (!isBlank (cmd position)) = true := by simpa using hblank
  rw [cmdText_cons hlt, List.takeWhile_cons_of_pos (p := fun c => !isBlank c) hpass] at htake
  rw [cmdText_cons hlt, List.dropWhile_cons_of_pos (p := fun c => !isBlank c) hpass] at hdrop
  rw [cmdText_cons hlt, tokens, if_neg hblank, if_neg hquote, htake, hdrop]

theorem mshSplitFrom_spec (hnul : cmd length = 0) (hle : position ≤ length) :
    Splits argMax length position cmd argv (mshSplitFrom argMax length cmd position argv) := by
  fun_induction mshSplitFrom with
  | case1 cmd position argv hlt stripped hfull => exact .strip hle (.full hfull not_blank_stripBlanks)
  | case2 cmd position argv hlt stripped hroom hend => exact .strip hle (.done hend)
  | case3 cmd position argv hlt stripped hroom hmore hquote quote hopen =>
    have hstripped : stripped.2 < length := Nat.lt_of_not_le hmore
    have hnul' : stripped.1 length = 0 := ((stripBlanks_spec hle).2.2.1 length (.inr hstripped.le)).trans hnul
    have hend : quote ≤ length := (skipQuoted_spec hnul' hstripped).1
    refine .strip hle (.argument hroom (not_blank_stripBlanks hstripped) (tokens_string hnul' hstripped hquote) ?_
      (fun _ _ => rfl) ?_ (.done (hopen.trans (Nat.le_succ _))))
    · exact (Nat.le_succ _).trans ((le_skipQuoted _ _ _).trans (Nat.le_succ _))
    · refine isArgument_of_same (le_skipQuoted _ _ _) hend (fun _ _ => rfl) ?_
      show stripped.1 quote = 0
      rw [Nat.le_antisymm hend hopen, hnul']
  | case4 cmd position argv hlt stripped hroom hmore hquote quote hclosed ih =>
    have hstripped : stripped.2 < length := Nat.lt_of_not_le hmore
    have hnul' : stripped.1 length = 0 := ((stripBlanks_spec hle).2.2.1 length (.inr hstripped.le)).trans hnul
    have hskip : stripped.2 + 1 ≤ quote := le_skipQuoted length stripped.1 (stripped.2 + 1)
    have hrest := ih ((update_of_ne (by omega) _ _).trans hnul') (by omega)
    have htokens : tokens (cmdText stripped.1 stripped.2 length) =
        cmdText stripped.1 (stripped.2 + 1) quote :: tokens (cmdText stripped.1 (quote + 1) length) :=
      tokens_string hnul' hstripped hquote
    have hafter : cmdText (update stripped.1 quote 0) (quote + 1) length = cmdText stripped.1 (quote + 1) length :=
      cmdText_congr fun i hi _ => update_of_ne (by omega) _ _
    rw [← hafter] at htokens
    apply Splits.strip hle
    show Splits argMax length stripped.2 stripped.1 argv _
    refine .argument hroom (not_blank_stripBlanks hstripped) htokens ?_ ?_ ?_ hrest
    · omega
    · exact fun i hi => update_of_ne (by omega) _ _
    · refine isArgument_of_same hskip (by omega) (fun i hi => ?_) ?_
      · rw [hrest.same i (.inl (by omega)), update_of_ne (by omega)]
      · rw [hrest.same quote (.inl (by omega)), update_self]
  | case5 cmd position argv hlt stripped hroom hmore hquote blank hlast =>
    have hstripped : stripped.2 < length := Nat.lt_of_not_le hmore
    have hnul' : stripped.1 length = 0 := ((stripBlanks_spec hle).2.2.1 length (.inr hstripped.le)).trans hnul
    have hblank : ¬ isBlank (stripped.1 stripped.2) := not_blank_stripBlanks hstripped
    have hend : blank ≤ length := (skipWord_spec hstripped.le).1
    refine .strip hle (.argument hroom hblank (tokens_word hstripped hblank hquote) ?_ (fun _ _ => rfl) ?_ (.done hlast))
    · exact le_skipWord _ _ _
    · refine isArgument_of_same (le_skipWord _ _ _) hend (fun _ _ => rfl) ?_
      show stripped.1 blank = 0
      rw [Nat.le_antisymm hend hlast, hnul']
  | case6 cmd position argv hlt stripped hroom hmore hquote blank hnext ih =>
    have hstripped : stripped.2 < length := Nat.lt_of_not_le hmore
    have hnul' : stripped.1 length = 0 := ((stripBlanks_spec hle).2.2.1 length (.inr hstripped.le)).trans hnul
    have hblank : ¬ isBlank (stripped.1 stripped.2) := not_blank_stripBlanks hstripped
    obtain ⟨hend, -, -, hstop⟩ := skipWord_spec hstripped.le
    have hrest := ih hnul' hend
    refine .strip hle (.argument hroom hblank (tokens_word hstripped hblank hquote) ?_ (fun _ _ => rfl) ?_ hrest)
    · exact le_skipWord _ _ _
    · exact isArgument_of_same (le_skipWord _ _ _) hend (fun i hi => hrest.same i (.inl hi))
        (hrest.blank (Nat.lt_of_not_le hnext) (hstop (Nat.lt_of_not_le hnext)))
  | case7 cmd position argv hend => exact .done (Nat.le_of_not_lt hend)

/-- The first tokens of a line become its arguments, as many as there is room for. -/
theorem mshSplit_tokens (argMax length : Nat) (cmd : Nat → UInt8) (hnul : cmd length = 0) :
    (mshSplit argMax cmd length).2.length ≤ argMax ∧
      List.Forall₂ (IsArgument (mshSplit argMax cmd length).1 length) (mshSplit argMax cmd length).2
        ((tokens (cmdText cmd 0 length)).take argMax) := by
  obtain ⟨starts, heq, hargs⟩ := (mshSplitFrom_spec hnul (Nat.zero_le length)).args
  rw [List.nil_append] at heq
  rw [List.length_nil, Nat.sub_zero] at hargs
  rw [mshSplit, heq]
  refine ⟨?_, hargs⟩
  rw [hargs.length_eq, List.length_take]
  exact Nat.min_le_left _ _

def letters : Nat → UInt8 := fun i => if 21 ≤ i then 0 else if i % 2 = 0 then 0x61 else 0x20

theorem mshSplit_letters : (mshSplit 10 letters 21).2.length ≤ 10 ∧
    List.Forall₂ (IsArgument (mshSplit 10 letters 21).1 21) (mshSplit 10 letters 21).2 ((tokens (cmdText letters 0 21)).take 10) :=
  mshSplit_tokens 10 21 letters (by decide)

/-- The last of eleven tokens has no argument. -/
theorem mshSplit_fails : ¬ ∀ cmd length, length < 80 → cmd length = 0 → (mshSplit 10 cmd length).2.length ≤ 10 ∧
    List.Forall₂ (IsArgument (mshSplit 10 cmd length).1 length) (mshSplit 10 cmd length).2 (tokens (cmdText cmd 0 length)) := by
  intro hall
  obtain ⟨hle, hargs⟩ := hall letters 21 (by decide) (by decide)
  have htext : cmdText letters 0 21 = (List.replicate 10 [0x61, 0x20]).flatten ++ [0x61] := by decide
  have hcount : (tokens (cmdText letters 0 21)).length = 11 := by
    rw [htext]
    simp [tokens, isBlank, List.replicate_succ]
  rw [hargs.length_eq, hcount] at hle
  exact absurd hle (by decide)

end RtThread
