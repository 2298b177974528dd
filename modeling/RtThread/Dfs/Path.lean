import RtThread.Kernel.Printf
import RtThread.Lib.InPlace

/-!
# Normalising a path

`dfs_normalize_path` of `dfs.c`. The full path is rewritten in place: `src` reads ahead and `dst` writes behind it. Every access goes through the cells that are allocated, and one outside them is noticed.

A component `..` takes the last component off what has been written. At the root it takes the slash of the root instead, and only the next one finds nothing to take.
-/

namespace RtThread

/-- What a turn of the loop finds at `src`. -/
inductive PathTurn
  /-- A component that is copied; for a `.` at the end of the path an empty one. -/
  | copy (src : Nat)
  | skip (src : Nat)
  /-- `up_one` -/
  | up (src : Nat)
  deriving DecidableEq

/-- `while ((*src == '/') && (*src != '\0')) src ++` -/
def skipSlashes (m : List Char) : Nat → Nat → Option Nat
  | 0, _ => none
  | fuel + 1, src => (m[src]?).bind fun c => if c = '/' then skipSlashes m fuel (src + 1) else some src

def readDots (m : List Char) (src : Nat) : Option PathTurn :=
  (m[src]?).bind fun c =>
    if c ≠ '.' then some (.copy src)
    else
      (m[src + 1]?).bind fun c₁ =>
        if c₁ = nul then some (.copy (src + 1))
        else if c₁ = '/' then (skipSlashes m m.length (src + 2)).map .skip
        else if c₁ = '.' then
          (m[src + 2]?).bind fun c₂ =>
            if c₂ = nul then some (.up (src + 2))
            else if c₂ = '/' then (skipSlashes m m.length (src + 3)).map .up
            else some (.copy src)
        else some (.copy src)

/-- A store through `dst`. -/
def storeChar (m : List Char) (dst : Nat) (c : Char) : Option (List Char) :=
  if dst < m.length then some (m.set dst c) else none

/-- `while ((c = *src++) != '\0' && c != '/') *dst ++ = c`: the cells, the cursors and the last `c`. -/
def copyComponent : Nat → List Char → Nat → Nat → Option (List Char × Nat × Nat × Char)
  | 0, _, _, _ => none
  | fuel + 1, m, src, dst =>
    (m[src]?).bind fun c =>
      if c ≠ nul ∧ c ≠ '/' then (storeChar m dst c).bind fun m => copyComponent fuel m (src + 1) (dst + 1)
      else some (m, src + 1, dst, c)

/-- `while (dst0 < dst && dst[-1] != '/') dst --` -/
def walkBack (m : List Char) : Nat → Option Nat
  | 0 => some 0
  | dst + 1 => (m[dst]?).bind fun c => if c = '/' then some (dst + 1) else walkBack m dst

/-- The loop: the cells and `dst` where it ends, or `NULL`; nothing if it leaves the allocated cells. -/
def normalizeLoop : Nat → List Char → Nat → Nat → Option (Option (List Char × Nat))
  | 0, _, _, _ => none
  | fuel + 1, m, src, dst =>
    (readDots m src).bind fun
      | .skip src => normalizeLoop fuel m src dst
      | .up src =>
        if dst = 0 then some none else (walkBack m (dst - 1)).bind fun dst => normalizeLoop fuel m src dst
      | .copy src =>
        (copyComponent m.length m src dst).bind fun (m, src, dst, c) =>
          if c = '/' then
            (storeChar m dst '/').bind fun m =>
              -- the slash that has been read is the first of the run
              (skipSlashes m m.length src).bind fun src => normalizeLoop fuel m src (dst + 1)
          else some (some (m, dst))

structure NormalizedPath where
  path : Option (List Char)
  inBounds : Bool
  deriving DecidableEq

/-- Behind the loop. With `dst` at the start the byte in front of `fullpath` is looked at. -/
def finishPath (m : List Char) (dst : Nat) : NormalizedPath :=
  match storeChar m dst nul with
  | none => ⟨none, false⟩
  | some m =>
    let m := if dst ≠ 0 ∧ dst - 1 ≠ 0 ∧ m[dst - 1]? = some '/' then m.set (dst - 1) nul else m
    if m[0]? = some nul then
      match (storeChar m 0 '/').bind fun m => storeChar m 1 nul with
      | none => ⟨none, false⟩
      | some m => ⟨some (m.takeWhile (· ≠ nul)), dst ≠ 0⟩
    else ⟨some (m.takeWhile (· ≠ nul)), dst ≠ 0⟩

/-- The directory that is used, `NULL` standing for the working directory where `DFS_USING_WORKDIR` is set. -/
def useDirectory (workingDirectory directory : Option CString) : Option CString := directory.or workingDirectory

/-- The full path before it is normalised; `NULL` for a relative name without a directory. -/
def fullPath (workingDirectory directory : Option CString) (filename : CString) : Option (List Char) :=
  if filename.val.head? = some '/' then some filename.val
  else (useDirectory workingDirectory directory).map fun dir => dir.val ++ '/' :: filename.val

/-- `dfs_normalize_path`; `memory` says whether there is memory for the full path. -/
def dfsNormalizePath (workingDirectory : Option CString) (memory : Bool) (directory : Option CString) (filename : CString) :
    NormalizedPath :=
  match fullPath workingDirectory directory filename with
  | none => ⟨none, true⟩
  | some full =>
    if memory = false then ⟨none, true⟩
    else
      let m := full ++ [nul]
      match normalizeLoop (m.length + 1) m 0 0 with
      | none => ⟨none, false⟩
      | some none => ⟨none, true⟩
      | some (some (m, dst)) => finishPath m dst

/-! ## The path as a stack of components -/

def components (s : List Char) : List (List Char) := s.splitOn '/'

/-- One component; a `..` on the empty stack is counted. -/
def resolveStep (r : List (List Char) × Nat) (c : List Char) : List (List Char) × Nat :=
  if c = [] ∨ c = ['.'] then r
  else if c = ['.', '.'] then (r.1.dropLast, if r.1 = [] then r.2 + 1 else r.2)
  else (r.1 ++ [c], r.2)

def resolve (stack : List (List Char)) (s : List Char) : List (List Char) × Nat := (components s).foldl resolveStep (stack, 0)

def ProperComponent (c : List Char) : Prop := c ≠ [] ∧ c ≠ ['.'] ∧ c ≠ ['.', '.'] ∧ '/' ∉ c

instance (c : List Char) : Decidable (ProperComponent c) := inferInstanceAs (Decidable (_ ∧ _))

def absolutePath (stack : List (List Char)) : List Char := if stack = [] then ['/'] else stack.flatMap ('/' :: ·)

/-! ## What the loops do -/

variable {m out rest comp : List Char} {src fuel pops : Nat} {stack : List (List Char)}

theorem skipSlashes_eq (fuel : Nat) (h : InPlace m out src (rest ++ [nul])) (hfuel : rest.length < fuel) :
    ∃ src', skipSlashes m fuel src = some src' ∧ InPlace m out src' (rest.dropWhile (· = '/') ++ [nul]) := by
  induction rest generalizing src fuel with
  | nil =>
    obtain ⟨fuel, rfl⟩ := Nat.exists_eq_succ_of_ne_zero (Nat.ne_of_gt hfuel)
    refine ⟨src, ?_, h⟩
    rw [skipSlashes, h.get_zero, Option.bind_some, if_neg (by decide)]
  | cons c rest ih =>
    obtain ⟨fuel, rfl⟩ := Nat.exists_eq_succ_of_ne_zero (Nat.ne_of_gt (Nat.zero_lt_of_lt hfuel))
    rw [skipSlashes, h.get_zero, Option.bind_some]
    by_cases hc : c = '/'
    · have hcons : InPlace m out src ([c] ++ (rest ++ [nul])) := h
      have hskip : InPlace m out (src + 1) (rest ++ [nul]) := hcons.skip
      obtain ⟨src', hsrc, hplace⟩ := ih fuel hskip (Nat.lt_of_succ_lt_succ hfuel)
      have hdrop : (c :: rest).dropWhile (· = '/') = rest.dropWhile (· = '/') :=
        List.dropWhile_cons_of_pos (decide_eq_true hc)
      rw [if_pos hc, hdrop]
      exact ⟨src', hsrc, hplace⟩
    · have hdrop : (c :: rest).dropWhile (· = '/') = c :: rest :=
        List.dropWhile_cons_of_neg (by rwa [decide_eq_true_eq])
      rw [if_neg hc, hdrop]
      exact ⟨src, rfl, h⟩

theorem storeChar_eq {c : Char} (h : InPlace m out src (c :: rest)) :
    storeChar m out.length c = some (m.set out.length c) := by
  have hle := h.out_le
  have hlength := h.length_le
  rw [List.length_cons] at hlength
  exact if_pos (by omega)

theorem copyComponent_eq (fuel : Nat) {c : Char} (h : InPlace m out src (comp ++ c :: rest)) (hcomp : ∀ a ∈ comp, a ≠ nul ∧ a ≠ '/')
    (hc : c = nul ∨ c = '/') (hfuel : comp.length < fuel) :
    ∃ m', copyComponent fuel m src out.length = some (m', src + comp.length + 1, (out ++ comp).length, c) ∧
      InPlace m' (out ++ comp) (src + comp.length) (c :: rest) ∧ m'.length = m.length := by
  induction comp generalizing m out src fuel with
  | nil =>
    obtain ⟨fuel, rfl⟩ := Nat.exists_eq_succ_of_ne_zero (Nat.ne_of_gt hfuel)
    refine ⟨m, ?_, ?_, rfl⟩
    · rw [copyComponent, h.get_zero, Option.bind_some, if_neg, List.append_nil]
      · rfl
      · rintro ⟨hnul, hslash⟩
        exact hc.elim hnul hslash
    · rw [List.append_nil]
      exact h
  | cons a comp ih =>
    obtain ⟨fuel, rfl⟩ := Nat.exists_eq_succ_of_ne_zero (Nat.ne_of_gt (Nat.zero_lt_of_lt hfuel))
    have hstore : InPlace (m.set out.length a) (out ++ [a]) (src + 1) (comp ++ c :: rest) := h.store
    obtain ⟨m', hcopy, hplace, hlength⟩ := ih fuel hstore (fun b hb => hcomp b (List.mem_cons_of_mem a hb))
      (Nat.lt_of_succ_lt_succ hfuel)
    have hout : (out ++ [a]).length = out.length + 1 := List.length_append
    have hsrc : src + 1 + comp.length = src + (a :: comp).length := by
      rw [List.length_cons]
      omega
    rw [List.append_assoc, List.singleton_append] at hcopy hplace
    rw [hout, hsrc] at hcopy
    rw [hsrc] at hplace
    refine ⟨m', ?_, hplace, hlength.trans List.length_set⟩
    rw [copyComponent, h.get_zero, Option.bind_some, if_pos (hcomp a List.mem_cons_self), storeChar_eq h, Option.bind_some, hcopy]

theorem walkBack_eq {back : List Char} (h : InPlace m (out ++ comp ++ back) src rest) (hcomp : '/' ∉ comp)
    (hout : out = [] ∨ out.getLast? = some '/') : walkBack m (out ++ comp).length = some out.length := by
  induction comp using List.reverseRecOn generalizing back with
  | nil =>
    rw [List.append_nil]
    rcases hout with rfl | hlast
    · rfl
    · obtain ⟨init, rfl⟩ := List.getLast?_eq_some_iff.1 hlast
      have hget : m[init.length]? = some '/' := by
        rw [h.get_out (by simp only [List.length_append, List.length_cons]; omega), List.append_assoc, List.append_assoc,
          List.getElem?_append_right (Nat.le_refl _), Nat.sub_self]
        rfl
      rw [List.length_append, List.length_singleton, walkBack, hget, Option.bind_some, if_pos rfl]
  | append_singleton comp a ih =>
    have ha : a ≠ '/' := fun heq => hcomp (List.mem_append_right comp (heq ▸ List.mem_singleton_self a))
    have hget : m[(out ++ comp).length]? = some a := by
      rw [h.get_out (by simp only [List.length_append, List.length_cons]; omega), ← List.append_assoc, List.append_assoc (out ++ comp),
        List.getElem?_append_right (Nat.le_refl _), Nat.sub_self]
      rfl
    have hshort : InPlace m (out ++ comp ++ ([a] ++ back)) src rest := by
      rw [← List.append_assoc, List.append_assoc out]
      exact h
    rw [← List.append_assoc, List.length_append, List.length_singleton, walkBack, hget, Option.bind_some, if_neg ha]
    exact ih hshort fun hmem => hcomp (List.mem_append_left _ hmem)

def InComponent (c : Char) : Prop := c ≠ nul ∧ c ≠ '/'

def Behind (tail : List Char) : Prop := tail = [] ∨ ∃ t, tail = '/' :: t

def nextComponents (tail : List Char) : List Char := (tail.drop 1).dropWhile (· = '/')

variable {tail : List Char}

theorem readDots_name (h : InPlace m out src (comp ++ tail ++ [nul])) (hcomp : ∀ c ∈ comp, InComponent c) (htail : Behind tail)
    (hdot : comp ≠ ['.']) (hdots : comp ≠ ['.', '.']) : readDots m src = some (.copy src) := by
  rw [readDots]
  cases comp with
  | nil =>
    rw [List.nil_append] at h
    rcases htail with rfl | ⟨t, rfl⟩
    · rw [h.get_zero, Option.bind_some, if_pos (by decide)]
    · rw [h.get_zero, Option.bind_some, if_pos (by decide)]
  | cons a comp =>
    rw [h.get_zero, Option.bind_some]
    by_cases ha : a = '.'
    · subst ha
      rw [if_neg (not_not.2 rfl)]
      cases comp with
      | nil => exact absurd rfl hdot
      | cons b comp =>
        have hb := hcomp b (by simp)
        have hget₁ : m[src + 1]? = some b := h.get 1
        rw [hget₁, Option.bind_some, if_neg hb.1, if_neg hb.2]
        by_cases hbdot : b = '.'
        · subst hbdot
          rw [if_pos rfl]
          cases comp with
          | nil => exact absurd rfl hdots
          | cons c comp =>
            have hc := hcomp c (by simp)
            have hget : m[src + 2]? = some c := h.get 2
            rw [hget, Option.bind_some, if_neg hc.1, if_neg hc.2]
        · rw [if_neg hbdot]
    · rw [if_pos ha]

theorem readDots_dot (h : InPlace m out src (['.'] ++ tail ++ [nul])) (htail : Behind tail) :
    tail = [] ∧ readDots m src = some (.copy (src + 1)) ∨
      ∃ src', readDots m src = some (.skip src') ∧ InPlace m out src' (nextComponents tail ++ [nul]) := by
  have hget : m[src + 1]? = (tail ++ [nul])[0]? := h.get 1
  rw [readDots, h.get_zero, Option.bind_some, if_neg (not_not.2 rfl), hget]
  rcases htail with rfl | ⟨t, rfl⟩
  · refine .inl ⟨rfl, ?_⟩
    rw [List.nil_append, List.getElem?_cons_zero, Option.bind_some, if_pos rfl]
  · have hplace : InPlace m out (src + 2) (t ++ [nul]) := by
      have hcons : InPlace m out src (['.', '/'] ++ (t ++ [nul])) := h
      exact hcons.skip
    have hlength := h.length_le
    simp only [List.length_append, List.length_cons] at hlength
    obtain ⟨src', hskip, hplace'⟩ := skipSlashes_eq m.length hplace (by omega)
    refine .inr ⟨src', ?_, hplace'⟩
    rw [List.cons_append, List.getElem?_cons_zero, Option.bind_some, if_neg (by decide), if_pos rfl, hskip, Option.map_some]

theorem readDots_dots (h : InPlace m out src (['.', '.'] ++ tail ++ [nul])) (htail : Behind tail) :
    ∃ src', readDots m src = some (.up src') ∧ InPlace m out src' (nextComponents tail ++ [nul]) := by
  have hget₁ : m[src + 1]? = some '.' := h.get 1
  have hget₂ : m[src + 2]? = (tail ++ [nul])[0]? := h.get 2
  rw [readDots, h.get_zero, Option.bind_some, if_neg (not_not.2 rfl), hget₁, Option.bind_some, if_neg (by decide),
    if_neg (by decide), if_pos rfl, hget₂]
  rcases htail with rfl | ⟨t, rfl⟩
  · refine ⟨src + 2, ?_, ?_⟩
    · rw [List.nil_append, List.getElem?_cons_zero, Option.bind_some, if_pos rfl]
    · have hcons : InPlace m out src (['.', '.'] ++ [nul]) := h
      exact hcons.skip
  · have hplace : InPlace m out (src + 3) (t ++ [nul]) := by
      have hcons : InPlace m out src (['.', '.', '/'] ++ (t ++ [nul])) := h
      exact hcons.skip
    have hlength := h.length_le
    simp only [List.length_append, List.length_cons] at hlength
    obtain ⟨src', hskip, hplace'⟩ := skipSlashes_eq m.length hplace (by omega)
    refine ⟨src', ?_, hplace'⟩
    rw [List.cons_append, List.getElem?_cons_zero, Option.bind_some, if_neg (by decide), if_pos rfl, hskip, Option.map_some]

/-! ## The loop -/

/-- What stands in front of the components: the slash of the root, until a `..` has taken it. -/
def rootText (pops : Nat) : List Char := if pops = 0 then ['/'] else []

/-- The text that has been written when `stack` is what it stands for. -/
def dirText (pops : Nat) (stack : List (List Char)) : List Char := rootText pops ++ stack.flatMap (· ++ ['/'])

theorem dirText_concat (pops : Nat) (stack : List (List Char)) (c : List Char) :
    dirText pops (stack ++ [c]) = dirText pops stack ++ (c ++ ['/']) := by
  rw [dirText, dirText, List.flatMap_append, List.flatMap_singleton, List.append_assoc]

theorem dirText_end (pops : Nat) (stack : List (List Char)) :
    dirText pops stack = [] ∨ (dirText pops stack).getLast? = some '/' := by
  induction stack using List.reverseRecOn with
  | nil =>
    rw [dirText, rootText]
    split_ifs
    · exact .inr rfl
    · exact .inl rfl
  | append_singleton stack c =>
    rw [dirText_concat, ← List.append_assoc, List.getLast?_concat]
    exact .inr rfl

theorem copy_turn (fuel : Nat) (h : InPlace m out src (comp ++ tail ++ [nul])) (hcomp : ∀ c ∈ comp, InComponent c) {t : List Char}
    (htail : tail = '/' :: t) (dst : Nat) (hdst : dst = out.length) :
    ∃ m' src', ((copyComponent m.length m src dst).bind fun (m, src, dst, c) =>
        if c = '/' then
          (storeChar m dst '/').bind fun m => (skipSlashes m m.length src).bind fun src => normalizeLoop fuel m src (dst + 1)
        else some (some (m, dst))) = normalizeLoop fuel m' src' (out ++ (comp ++ ['/'])).length ∧
      InPlace m' (out ++ (comp ++ ['/'])) src' (nextComponents tail ++ [nul]) ∧ m'.length = m.length := by
  subst htail hdst
  have hlength := h.length_le
  simp only [List.length_append, List.length_cons] at hlength
  have hsplit : InPlace m out src (comp ++ '/' :: (t ++ [nul])) := by
    rw [List.append_assoc] at h
    exact h
  obtain ⟨m₁, hcopy, hplace, hlength₁⟩ := copyComponent_eq m.length hsplit hcomp (.inr rfl) (by omega)
  have hstore := hplace.store
  rw [List.append_assoc] at hstore
  obtain ⟨src', hskip, hplace'⟩ := skipSlashes_eq m.length hstore (by omega)
  refine ⟨m₁.set (out ++ comp).length '/', src', ?_, hplace', List.length_set.trans hlength₁⟩
  have hout : (out ++ (comp ++ ['/'])).length = (out ++ comp).length + 1 := by
    simp only [List.length_append, List.length_cons, List.length_nil]
    omega
  rw [hcopy, Option.bind_some]
  dsimp only
  rw [if_pos rfl, storeChar_eq hplace, Option.bind_some, List.length_set, hlength₁, hskip, Option.bind_some, hout]

theorem exists_component (hnul : nul ∉ rest) :
    ∃ comp tail, rest = comp ++ tail ∧ (∀ c ∈ comp, InComponent c) ∧ Behind tail := by
  refine ⟨rest.takeWhile (· ≠ '/'), rest.dropWhile (· ≠ '/'), List.takeWhile_append_dropWhile.symm, fun c hc => ⟨?_, ?_⟩, ?_⟩
  · intro heq
    exact hnul (heq ▸ (List.takeWhile_sublist _).mem hc)
  · have hkept : decide (c ≠ '/') = true := List.mem_takeWhile_imp (p := fun x => decide (x ≠ '/')) hc
    exact of_decide_eq_true hkept
  · cases htail : rest.dropWhile (· ≠ '/') with
    | nil => exact .inl rfl
    | cons c t =>
      have hhead := List.head?_dropWhile_not (· ≠ '/') rest
      rw [htail] at hhead
      refine .inr ⟨t, ?_⟩
      have hc : ¬ c ≠ '/' := fun hne => by simp [hne] at hhead
      rw [not_not.1 hc]

theorem components_nil : components [] = [[]] := List.splitOn_nil '/'

theorem components_append (s t : List Char) : components (s ++ '/' :: t) = components s ++ components t :=
  List.splitOn_append_cons_self s t

theorem components_single (hcomp : '/' ∉ comp) : components comp = [comp] := List.splitOn_eq_singleton hcomp

theorem resolveStep_nil (r : List (List Char) × Nat) : resolveStep r [] = r := if_pos (.inl rfl)

theorem foldl_dropWhile (r : List (List Char) × Nat) (t : List Char) :
    (components (t.dropWhile (· = '/'))).foldl resolveStep r = (components t).foldl resolveStep r := by
  induction t with
  | nil => rfl
  | cons c t ih =>
    by_cases hc : c = '/'
    · have hdrop : (c :: t).dropWhile (· = '/') = t.dropWhile (· = '/') := List.dropWhile_cons_of_pos (decide_eq_true hc)
      have hcomponents : components (c :: t) = [[]] ++ components t := by
        rw [hc, ← components_nil, ← components_append, List.nil_append]
      rw [hdrop, ih, hcomponents, List.foldl_append, List.foldl_cons, List.foldl_nil, resolveStep_nil]
    · have hdrop : (c :: t).dropWhile (· = '/') = c :: t := List.dropWhile_cons_of_neg (by rwa [decide_eq_true_eq])
      rw [hdrop]

theorem foldl_component (r : List (List Char) × Nat) (hcomp : '/' ∉ comp) (htail : Behind tail) :
    (components (comp ++ tail)).foldl resolveStep r =
      (components (nextComponents tail)).foldl resolveStep (resolveStep r comp) := by
  rcases htail with rfl | ⟨t, rfl⟩
  · rw [List.append_nil, components_single hcomp]
    change resolveStep r comp = (components []).foldl resolveStep (resolveStep r comp)
    rw [components_nil, List.foldl_cons, List.foldl_nil, resolveStep_nil]
  · change _ = (components (t.dropWhile (· = '/'))).foldl resolveStep (resolveStep r comp)
    rw [foldl_dropWhile, components_append, components_single hcomp, List.foldl_append, List.foldl_cons, List.foldl_nil]

theorem resolveStep_pops (r : List (List Char) × Nat) (c : List Char) : r.2 ≤ (resolveStep r c).2 := by
  rw [resolveStep]
  split_ifs
  · exact Nat.le_refl _
  · exact Nat.le_succ _
  · exact Nat.le_refl _
  · exact Nat.le_refl _

theorem foldl_pops (r : List (List Char) × Nat) (cs : List (List Char)) : r.2 ≤ (cs.foldl resolveStep r).2 := by
  induction cs generalizing r with
  | nil => exact Nat.le_refl _
  | cons c cs ih => exact (resolveStep_pops r c).trans (ih _)

def EndsAs (r : List (List Char) × Nat) (out : List Char) : Prop :=
  out = dirText r.2 r.1 ∨ ∃ init last, r.1 = init ++ [last] ∧ out = dirText r.2 init ++ last

/-- What the loop makes of a path that resolves to `r`. -/
def LoopGives (loop : Option (Option (List Char × Nat))) (r : List (List Char) × Nat) : Prop :=
  if 2 ≤ r.2 then loop = some none
  else ∃ m out src, loop = some (some (m, out.length)) ∧ EndsAs r out ∧ InPlace m out src [nul] ∧ 2 ≤ m.length

theorem copy_last (fuel : Nat) (h : InPlace m out src (comp ++ [nul])) (hcomp : ∀ c ∈ comp, InComponent c) (dst : Nat) (hdst : dst = out.length) :
    ∃ m' src', ((copyComponent m.length m src dst).bind fun (m, src, dst, c) =>
        if c = '/' then
          (storeChar m dst '/').bind fun m => (skipSlashes m m.length src).bind fun src => normalizeLoop fuel m src (dst + 1)
        else some (some (m, dst))) = some (some (m', (out ++ comp).length)) ∧ InPlace m' (out ++ comp) src' [nul] ∧
      m'.length = m.length := by
  subst hdst
  have hlength := h.length_le
  simp only [List.length_append, List.length_cons] at hlength
  obtain ⟨m', hcopy, hplace, hlength'⟩ := copyComponent_eq m.length h hcomp (.inl rfl) (by omega)
  refine ⟨m', _, ?_, hplace, hlength'⟩
  rw [hcopy, Option.bind_some]
  exact if_neg (by decide)

theorem up_turn (h : InPlace m (dirText pops stack) src rest) (hproper : ∀ c ∈ stack, '/' ∉ c)
    (hne : dirText pops stack ≠ []) :
    walkBack m ((dirText pops stack).length - 1) =
        some (dirText (resolveStep (stack, pops) ['.', '.']).2 (resolveStep (stack, pops) ['.', '.']).1).length ∧
      InPlace m (dirText (resolveStep (stack, pops) ['.', '.']).2 (resolveStep (stack, pops) ['.', '.']).1) src rest := by
  have hstep : resolveStep (stack, pops) ['.', '.'] = (stack.dropLast, if stack = [] then pops + 1 else pops) := by
    rw [resolveStep, if_neg (by decide), if_pos rfl]
  rw [hstep]
  dsimp only
  induction stack using List.reverseRecOn with
  | nil =>
    have hpops : pops = 0 := by
      by_contra hno
      rw [dirText, rootText, if_neg hno] at hne
      exact hne rfl
    subst hpops
    have hroot : InPlace m ([] ++ ['/']) src rest := h
    exact ⟨rfl, hroot.truncate⟩
  | append_singleton stack c =>
    rw [List.dropLast_concat, if_neg (List.concat_ne_nil c stack)]
    rw [dirText_concat, ← List.append_assoc] at h ⊢
    have hback := walkBack_eq h (hproper c (List.mem_append_right _ (List.mem_singleton_self c))) (dirText_end pops stack)
    refine ⟨?_, ?_⟩
    · have hlength : (dirText pops stack ++ c ++ ['/']).length - 1 = (dirText pops stack ++ c).length := by
        rw [List.length_append, List.length_singleton, Nat.add_sub_cancel]
      rw [hlength, hback]
    · rw [List.append_assoc] at h
      exact h.truncate

theorem nextComponents_spec (tail : List Char) :
    (nextComponents tail).length ≤ tail.length - 1 ∧ (nextComponents tail).head? ≠ some '/' ∧
      (nul ∉ tail → nul ∉ nextComponents tail) := by
  have hsub : (nextComponents tail).Sublist (tail.drop 1) := List.dropWhile_sublist _
  refine ⟨(hsub.length_le).trans (Nat.le_of_eq List.length_drop), fun hhead => ?_, fun hnul hmem => ?_⟩
  · have hnot := List.head?_dropWhile_not (fun c : Char => decide (c = '/')) (tail.drop 1)
    rw [nextComponents] at hhead
    rw [hhead] at hnot
    simp at hnot
  · exact hnul ((List.drop_sublist 1 tail).mem (hsub.mem hmem))

theorem normalizeLoop_eq (h : InPlace m (dirText pops stack) src (rest ++ [nul])) (hnul : nul ∉ rest)
    (hhead : rest.head? ≠ some '/') (hpops : pops < 2) (hproper : ∀ c ∈ stack, '/' ∉ c) (hfuel : rest.length < fuel)
    (hlong : 2 ≤ m.length) :
    LoopGives (normalizeLoop fuel m src (dirText pops stack).length) ((components rest).foldl resolveStep (stack, pops)) := by
  induction fuel generalizing m src rest pops stack with
  | zero => cases hfuel
  | succ fuel ih =>
    obtain ⟨comp, tail, rfl, hcomp, htail⟩ := exists_component hnul
    have hslash : '/' ∉ comp := fun hmem => (hcomp _ hmem).2 rfl
    obtain ⟨hnext, hnexthead, hnextnul⟩ := nextComponents_spec tail
    have hnul' : nul ∉ nextComponents tail := hnextnul fun hmem => hnul (List.mem_append_right _ hmem)
    rw [List.length_append] at hfuel
    have hne : tail ≠ [] → comp ≠ [] := by
      rintro htailne rfl
      obtain ⟨t, rfl⟩ := htail.resolve_left htailne
      exact hhead rfl
    rw [foldl_component _ hslash htail, normalizeLoop]
    by_cases hdot : comp = ['.']
    · -- a dot is left out
      subst hdot
      have hstep : resolveStep (stack, pops) ['.'] = (stack, pops) := if_pos (.inr rfl)
      rw [hstep]
      rcases readDots_dot h htail with ⟨rfl, hread⟩ | ⟨src', hread, hplace⟩
      · have hplace : InPlace m (dirText pops stack) (src + 1) ([] ++ [nul]) := h.skip
        obtain ⟨m', src', hlast, hplace', hlength⟩ := copy_last fuel hplace (fun c hc => by cases hc) _ rfl
        rw [List.append_nil] at hlast hplace'
        have hfold : (components (nextComponents [])).foldl resolveStep (stack, pops) = (stack, pops) := by
          change (components []).foldl resolveStep (stack, pops) = _
          rw [components_nil, List.foldl_cons, List.foldl_nil, resolveStep_nil]
        rw [hread, Option.bind_some, hfold, LoopGives, if_neg (Nat.not_le.2 hpops)]
        exact ⟨m', _, src', hlast, .inl rfl, hplace', hlength ▸ hlong⟩
      · rw [hread, Option.bind_some]
        exact ih hplace hnul' hnexthead hpops hproper (by rw [List.length_singleton] at hfuel; omega) hlong
    by_cases hdots : comp = ['.', '.']
    · -- up one
      subst hdots
      obtain ⟨src', hread, hplace⟩ := readDots_dots h htail
      rw [hread, Option.bind_some]
      dsimp only
      by_cases hempty : dirText pops stack = []
      · have hnone : stack = [] ∧ pops = 1 := by
          rw [dirText, List.append_eq_nil_iff] at hempty
          refine ⟨?_, ?_⟩
          · cases stack with
            | nil => rfl
            | cons c stack => simp at hempty
          · rw [rootText] at hempty
            split_ifs at hempty with hzero
            · cases hempty.1
            · omega
        obtain ⟨rfl, rfl⟩ := hnone
        have hpops' := foldl_pops (resolveStep ([], 1) ['.', '.']) (components (nextComponents tail))
        rw [LoopGives, if_pos (Nat.le_trans (by decide) hpops')]
        rfl
      · obtain ⟨hback, hplace'⟩ := up_turn hplace hproper hempty
        have hlength : (dirText pops stack).length ≠ 0 := fun hzero => hempty (List.eq_nil_of_length_eq_zero hzero)
        have hstep : resolveStep (stack, pops) ['.', '.'] = (stack.dropLast, if stack = [] then pops + 1 else pops) := by
          rw [resolveStep, if_neg (by decide), if_pos rfl]
        rw [if_neg hlength, hback, Option.bind_some]
        refine ih hplace' hnul' hnexthead ?_ ?_ ?_ hlong
        · rw [hstep]
          dsimp only
          split_ifs with hstack
          · subst hstack
            by_contra hno
            exact hempty (by rw [dirText, rootText, if_neg (by omega)]; rfl)
          · exact hpops
        · rw [hstep]
          exact fun c hc => hproper c ((List.dropLast_sublist stack).mem hc)
        · rw [List.length_cons] at hfuel
          omega
    · -- a name
      have hread := readDots_name h hcomp htail hdot hdots
      have hstep : comp ≠ [] → resolveStep (stack, pops) comp = (stack ++ [comp], pops) := by
        intro hnil
        rw [resolveStep, if_neg (by rintro (hno | hno) <;> contradiction), if_neg hdots]
      rw [hread, Option.bind_some]
      dsimp only
      rcases htail with rfl | ⟨t, rfl⟩
      · rw [List.append_nil] at h
        obtain ⟨m', src', hlast, hplace', hlength⟩ := copy_last fuel h hcomp _ rfl
        have hfold : (components (nextComponents [])).foldl resolveStep (resolveStep (stack, pops) comp) =
            resolveStep (stack, pops) comp := by
          change (components []).foldl resolveStep _ = _
          rw [components_nil, List.foldl_cons, List.foldl_nil, resolveStep_nil]
        by_cases hnil : comp = []
        · subst hnil
          rw [List.append_nil] at hlast hplace'
          rw [hfold, resolveStep_nil, LoopGives, if_neg (Nat.not_le.2 hpops)]
          exact ⟨m', _, src', hlast, .inl rfl, hplace', hlength ▸ hlong⟩
        · rw [hfold, hstep hnil, LoopGives, if_neg (Nat.not_le.2 hpops)]
          exact ⟨m', _, src', hlast, .inr ⟨stack, comp, rfl, rfl⟩, hplace', hlength ▸ hlong⟩
      · have hnil : comp ≠ [] := hne (List.cons_ne_nil _ _)
        obtain ⟨m', src', hturn, hplace', hlength⟩ := copy_turn fuel h hcomp rfl _ rfl
        rw [← dirText_concat] at hturn hplace'
        rw [hturn, hstep hnil]
        refine ih hplace' hnul' hnexthead hpops (fun c hc => ?_) ?_ (hlength ▸ hlong)
        · rcases List.mem_append.1 hc with hmem | hmem
          · exact hproper c hmem
          · rw [List.mem_singleton.1 hmem]
            exact hslash
        · have hpos := List.length_pos_of_ne_nil hnil
          omega

/-! ## The end of the string -/

theorem takeWhile_text {text more : List Char} (hnul : nul ∉ text) : (text ++ nul :: more).takeWhile (· ≠ nul) = text := by
  have hall : ∀ c ∈ text, decide (c ≠ nul) = true := fun c hc => decide_eq_true fun heq => hnul (heq ▸ hc)
  rw [List.takeWhile_append_of_pos hall, List.takeWhile_cons_of_neg (by decide), List.append_nil]

theorem finishPath_eq {text : List Char} (h : InPlace m out src [nul]) (hnul : nul ∉ text) (htext : text ≠ [])
    (hout : out = text ++ ['/'] ∨ out = text ∧ (text.length = 1 ∨ text.getLast? ≠ some '/')) :
    finishPath m out.length = ⟨some text, true⟩ := by
  obtain ⟨gap, rfl, rfl⟩ := h
  obtain ⟨x, cells, hcells⟩ : ∃ x cells, gap ++ [nul] = x :: cells := by
    cases gap with
    | nil => exact ⟨_, _, rfl⟩
    | cons x gap => exact ⟨_, _, rfl⟩
  have hstore : storeChar (out ++ gap ++ [nul]) out.length nul = some (out ++ nul :: cells) := by
    rw [List.append_assoc, hcells, storeChar, if_pos (by rw [List.length_append, List.length_cons]; omega),
      List.set_append_right _ _ (Nat.le_refl _), Nat.sub_self, List.set_cons_zero]
  have hpos := List.length_pos_of_ne_nil htext
  have hfirst : ∀ more, (text ++ more)[0]? ≠ some nul := by
    intro more heq
    rw [List.getElem?_append_left hpos] at heq
    exact hnul (List.mem_of_getElem? heq)
  rw [finishPath, hstore]
  dsimp only
  rcases hout with rfl | ⟨rfl, hlast⟩
  · have hlength : (text ++ ['/']).length = text.length + 1 := List.length_append
    have hslash : (text ++ ['/'] ++ nul :: cells)[text.length]? = some '/' := by
      rw [List.append_assoc, List.getElem?_append_right (Nat.le_refl _), Nat.sub_self]
      rfl
    have hset : (text ++ ['/'] ++ nul :: cells).set text.length nul = text ++ nul :: nul :: cells := by
      rw [List.append_assoc, List.set_append_right _ _ (Nat.le_refl _), Nat.sub_self]
      rfl
    have hremove : text.length + 1 ≠ 0 ∧ text.length ≠ 0 ∧ (text ++ ['/'] ++ nul :: cells)[text.length]? = some '/' :=
      ⟨Nat.succ_ne_zero _, Nat.ne_of_gt hpos, hslash⟩
    rw [hlength, Nat.add_sub_cancel, if_pos hremove, hset, if_neg (hfirst _), takeWhile_text hnul,
      decide_eq_true (Nat.succ_ne_zero _)]
  · have hkeep : ¬ (out.length ≠ 0 ∧ out.length - 1 ≠ 0 ∧ (out ++ nul :: cells)[out.length - 1]? = some '/') := by
      rintro ⟨-, hlong, heq⟩
      rw [List.getElem?_append_left (by omega), ← List.getLast?_eq_getElem?] at heq
      exact hlast.elim (fun hone => hlong (by rw [hone])) fun hne => hne heq
    rw [if_neg hkeep, if_neg (hfirst _), takeWhile_text hnul, decide_eq_true (Nat.ne_of_gt hpos)]

theorem finishPath_nil (h : InPlace m [] src [nul]) (hlong : 2 ≤ m.length) : (finishPath m 0).path = some ['/'] := by
  obtain ⟨x, y, cells, rfl⟩ : ∃ x y cells, m = x :: y :: cells := by
    match m, hlong with
    | x :: y :: cells, _ => exact ⟨x, y, cells, rfl⟩
  have hclear : storeChar (x :: y :: cells) 0 nul = some (nul :: y :: cells) := if_pos (Nat.succ_pos _)
  have hslash : storeChar (nul :: y :: cells) 0 '/' = some ('/' :: y :: cells) := if_pos (Nat.succ_pos _)
  have hend : storeChar ('/' :: y :: cells) 1 nul = some ('/' :: nul :: cells) := if_pos (Nat.succ_lt_succ (Nat.succ_pos _))
  have hkeep : ¬ (0 ≠ 0 ∧ 0 - 1 ≠ 0 ∧ (nul :: y :: cells)[0 - 1]? = some '/') := fun hno => hno.1 rfl
  rw [finishPath, hclear]
  dsimp only
  rw [if_neg hkeep, if_pos (List.getElem?_cons_zero ..), hslash, Option.bind_some, hend]
  rfl

theorem flatMap_slash (init : List (List Char)) (last : List Char) :
    '/' :: (init.flatMap (· ++ ['/']) ++ last) = (init ++ [last]).flatMap ('/' :: ·) := by
  induction init with
  | nil => rw [List.flatMap_nil, List.nil_append, List.nil_append, List.flatMap_singleton]
  | cons c init ih =>
    rw [List.flatMap_cons, List.cons_append, List.flatMap_cons, ← ih, List.append_assoc, List.append_assoc]
    rfl

theorem absolutePath_concat (init : List (List Char)) (last : List Char) :
    absolutePath (init ++ [last]) = dirText 0 init ++ last := by
  rw [absolutePath, if_neg (List.concat_ne_nil last init), ← flatMap_slash]
  rfl

theorem mem_components {s c : List Char} (hc : c ∈ components s) : '/' ∉ c ∧ ∀ a ∈ c, a ∈ s := by
  induction s generalizing c with
  | nil =>
    rw [components_nil] at hc
    rw [List.mem_singleton.1 hc]
    exact ⟨List.not_mem_nil, fun a ha => ha⟩
  | cons x s ih =>
    rw [components, List.splitOn_cons_eq_if_modifyHead] at hc
    by_cases hx : (x == '/') = true
    · rw [if_pos hx] at hc
      rcases List.mem_cons.1 hc with rfl | hc
      · exact ⟨List.not_mem_nil, fun a ha => by cases ha⟩
      · obtain ⟨hslash, hmem⟩ := ih hc
        exact ⟨hslash, fun a ha => List.mem_cons_of_mem x (hmem a ha)⟩
    · rw [if_neg hx] at hc
      cases hsplit : List.splitOn '/' s with
      | nil =>
        rw [hsplit] at hc
        cases hc
      | cons d ds =>
        rw [hsplit, List.modifyHead_cons] at hc
        have hd := @ih d (by rw [components, hsplit]; exact List.mem_cons_self)
        rcases List.mem_cons.1 hc with rfl | hc
        · refine ⟨fun hmem => ?_, fun a ha => ?_⟩
          · rcases List.mem_cons.1 hmem with heq | hmem
            · exact hx (beq_iff_eq.2 heq.symm)
            · exact hd.1 hmem
          · rcases List.mem_cons.1 ha with rfl | ha
            · exact List.mem_cons_self
            · exact List.mem_cons_of_mem x (hd.2 a ha)
        · obtain ⟨hslash, hmem⟩ := @ih c (by rw [components, hsplit]; exact List.mem_cons_of_mem d hc)
          exact ⟨hslash, fun a ha => List.mem_cons_of_mem x (hmem a ha)⟩

theorem foldl_proper {P : List Char → Prop} {r : List (List Char) × Nat} {cs : List (List Char)} (hr : ∀ c ∈ r.1, P c)
    (hcs : ∀ c ∈ cs, c ≠ [] → c ≠ ['.'] → c ≠ ['.', '.'] → P c) : ∀ c ∈ (cs.foldl resolveStep r).1, P c := by
  induction cs generalizing r with
  | nil => exact hr
  | cons d cs ih =>
    refine ih ?_ fun c hc => hcs c (List.mem_cons_of_mem d hc)
    rw [resolveStep]
    by_cases hskip : d = [] ∨ d = ['.']
    · rw [if_pos hskip]
      exact hr
    rw [if_neg hskip]
    by_cases hup : d = ['.', '.']
    · rw [if_pos hup]
      exact fun c hc => hr c ((List.dropLast_sublist r.1).mem hc)
    · rw [if_neg hup]
      intro c hc
      rcases List.mem_append.1 hc with hmem | hmem
      · exact hr c hmem
      · rw [List.mem_singleton.1 hmem]
        exact hcs d List.mem_cons_self (fun heq => hskip (.inl heq)) (fun heq => hskip (.inr heq)) hup

theorem foldl_absolutePath {stack : List (List Char)} (hproper : ∀ c ∈ stack, ProperComponent c) :
    (components (absolutePath stack)).foldl resolveStep ([], 0) = (stack, 0) := by
  have hflat : (components (stack.flatMap ('/' :: ·))).foldl resolveStep ([], 0) = (stack, 0) := by
    induction stack using List.reverseRecOn with
    | nil => exact resolveStep_nil _
    | append_singleton init c ih =>
      obtain ⟨hnil, hdot, hdots, hslash⟩ := hproper c (List.mem_append_right _ (List.mem_singleton_self c))
      rw [List.flatMap_append, List.flatMap_singleton, components_append, List.foldl_append,
        ih fun d hd => hproper d (List.mem_append_left _ hd), components_single hslash, List.foldl_cons, List.foldl_nil, resolveStep,
        if_neg (fun hno => hno.elim hnil hdot), if_neg hdots]
  rw [absolutePath]
  split_ifs with hempty
  · rw [hempty]
    decide +kernel
  · exact hflat

/-! ## The result -/

/-- What the name makes of the directory: the stack it leads to, and how often it goes up from the empty stack. -/
def resolveName (stack : List (List Char)) (filename : CString) : List (List Char) × Nat :=
  resolve (if filename.val.head? = some '/' then [] else stack) filename.val

/-- The result for a name that resolves to `r`. -/
structure NormalizesTo (memory : Bool) (r : List (List Char) × Nat) (result : NormalizedPath) : Prop where
  exhausted : memory = false → result = ⟨none, true⟩
  path : memory = true → r.2 = 0 → result = ⟨some (absolutePath r.1), true⟩
  proper : ∀ c ∈ r.1, ProperComponent c
  /-- "the special path of lwext "/.."" -/
  root : memory = true → r.2 = 1 → r.1 = [] → result.path = some ['/']
  null : memory = true → 2 ≤ r.2 → result = ⟨none, true⟩

theorem CString.nul_not_mem (s : CString) : nul ∉ s.val := fun hmem => absurd (s.property nul hmem).1 (by decide)

theorem absolutePath_ne_nil (stack : List (List Char)) : absolutePath stack ≠ [] := by
  rw [absolutePath]
  split_ifs with hempty
  · exact List.cons_ne_nil _ _
  · cases stack with
    | nil => exact absurd rfl hempty
    | cons c stack => exact List.cons_ne_nil _ _

theorem absolutePath_nul {stack : List (List Char)} (hstack : ∀ c ∈ stack, nul ∉ c) : nul ∉ absolutePath stack := by
  rw [absolutePath]
  split_ifs
  · decide
  · intro hmem
    obtain ⟨c, hc, hmem⟩ := List.mem_flatMap.1 hmem
    rcases List.mem_cons.1 hmem with hno | hmem
    · exact absurd hno (by decide)
    · exact hstack c hc hmem

theorem endsAs_slash (stack : List (List Char)) (out : List Char) (hout : out = dirText 0 stack) :
    out = absolutePath stack ++ ['/'] ∨
      out = absolutePath stack ∧ ((absolutePath stack).length = 1 ∨ (absolutePath stack).getLast? ≠ some '/') := by
  subst hout
  induction stack using List.reverseRecOn with
  | nil => exact .inr ⟨rfl, .inl rfl⟩
  | append_singleton init last => exact .inl (by rw [dirText_concat, absolutePath_concat, List.append_assoc])

theorem endsAs_name {stack : List (List Char)} {out : List Char}
    (hname : ∃ init last, stack = init ++ [last] ∧ out = dirText 0 init ++ last) (hstack : ∀ c ∈ stack, c ≠ [] ∧ '/' ∉ c) :
    out = absolutePath stack ++ ['/'] ∨
      out = absolutePath stack ∧ ((absolutePath stack).length = 1 ∨ (absolutePath stack).getLast? ≠ some '/') := by
  obtain ⟨init, last, rfl, rfl⟩ := hname
  obtain ⟨hne, hslash⟩ := hstack last (List.mem_append_right _ (List.mem_singleton_self last))
  rw [absolutePath_concat]
  refine .inr ⟨rfl, .inr fun hlast => ?_⟩
  rw [List.getLast?_append_of_ne_nil _ hne] at hlast
  exact hslash (List.mem_of_getLast? hlast)

theorem normalize_absolute {t : List Char} (hnul : nul ∉ '/' :: t) :
    LoopGives (normalizeLoop (('/' :: t ++ [nul]).length + 1) ('/' :: t ++ [nul]) 0 0) (resolve [] ('/' :: t)) := by
  have hstart : InPlace ('/' :: t ++ [nul]) [] 0 ([] ++ '/' :: t ++ [nul]) := .start _
  obtain ⟨m', src', hturn, hplace, hsame⟩ := copy_turn ('/' :: t ++ [nul]).length hstart (fun c hc => by cases hc) rfl 0 rfl
  obtain ⟨hlength, hhead, hnul'⟩ := nextComponents_spec ('/' :: t)
  have hread := readDots_name hstart (fun c hc => by cases hc) (.inr ⟨t, rfl⟩) (by decide) (by decide)
  have hfold : resolve [] ('/' :: t) = (components (nextComponents ('/' :: t))).foldl resolveStep ([], 0) := by
    have hnone : '/' ∉ ([] : List Char) := List.not_mem_nil
    have hcomponent := foldl_component ([], 0) hnone (Or.inr ⟨t, rfl⟩ : Behind ('/' :: t))
    rw [resolveStep_nil] at hcomponent
    exact hcomponent
  rw [hfold, normalizeLoop, hread, Option.bind_some]
  dsimp only
  rw [hturn]
  refine @normalizeLoop_eq _ _ _ _ 0 [] hplace (hnul' hnul) hhead (by decide) (fun c hc => by cases hc) ?_ ?_
  · rw [List.length_append]
    exact Nat.lt_succ_of_le (hlength.trans (Nat.sub_le _ _))
  · rw [hsame, List.length_append]
    exact Nat.succ_le_succ (Nat.le_add_left _ _)

theorem NormalizesTo.of_loop {full : List Char} {r : List (List Char) × Nat} (hr : r = resolve [] full) (hnul : nul ∉ full)
    (hhead : full.head? = some '/') (workingDirectory directory : Option CString) (memory : Bool) (filename : CString)
    (hfull : fullPath workingDirectory directory filename = some full) :
    NormalizesTo memory r (dfsNormalizePath workingDirectory memory directory filename) := by
  obtain ⟨t, rfl⟩ : ∃ t, full = '/' :: t := by
    cases full with
    | nil => cases hhead
    | cons c t => exact ⟨t, by rw [Option.some.inj hhead]⟩
  have hloop := normalize_absolute hnul
  rw [← hr] at hloop
  have hchars : ∀ c ∈ r.1, c ≠ [] ∧ nul ∉ c ∧ '/' ∉ c ∧ ProperComponent c := by
    rw [hr]
    refine foldl_proper (fun c hc => by cases hc) fun c hc hnil hdot hdots => ?_
    obtain ⟨hslash, hmem⟩ := mem_components hc
    exact ⟨hnil, fun hno => hnul (hmem _ hno), hslash, hnil, hdot, hdots, hslash⟩
  rw [dfsNormalizePath, hfull]
  dsimp only
  cases memory with
  | false => exact ⟨fun _ => rfl, nofun, fun c hc => (hchars c hc).2.2.2, nofun, nofun⟩
  | true =>
    rw [if_neg Bool.noConfusion]
    refine ⟨nofun, fun _ hpops => ?_, fun c hc => (hchars c hc).2.2.2, fun _ hpops hstack => ?_, fun _ hpops => ?_⟩
    · rw [LoopGives, hpops, if_neg (by decide)] at hloop
      obtain ⟨m, out, src, hloop, hends, hplace, -⟩ := hloop
      rw [hloop]
      refine finishPath_eq hplace ?_ ?_ ?_
      · exact absolutePath_nul fun c hc => (hchars c hc).2.1
      · exact absolutePath_ne_nil r.1
      · rw [EndsAs, hpops] at hends
        exact hends.elim (endsAs_slash r.1 out) fun hname => endsAs_name hname fun c hc => ⟨(hchars c hc).1, (hchars c hc).2.2.1⟩
    · rw [LoopGives, hpops, if_neg (by decide)] at hloop
      obtain ⟨m, out, src, hloop, hends, hplace, hlong⟩ := hloop
      rw [hloop]
      have hout : out = [] := by
        rw [EndsAs, hpops, hstack] at hends
        rcases hends with heq | ⟨init, last, hno, -⟩
        · exact heq
        · exact absurd hno.symm (List.concat_ne_nil last init)
      subst hout
      exact finishPath_nil hplace hlong
    · rw [LoopGives, if_pos hpops] at hloop
      rw [hloop]

theorem absolutePath_head (stack : List (List Char)) : (absolutePath stack).head? = some '/' := by
  rw [absolutePath]
  split_ifs with hempty
  · rfl
  · cases stack with
    | nil => exact absurd rfl hempty
    | cons c stack => rfl

/-- For every name, in a directory that is a normalised absolute path. -/
theorem dfsNormalizePath_normalizes {workingDirectory directory : Option CString} {dir : CString} {stack : List (List Char)}
    (hdirectory : useDirectory workingDirectory directory = some dir) (hdir : dir.val = absolutePath stack)
    (hstack : ∀ c ∈ stack, ProperComponent c) (memory : Bool) (filename : CString) :
    NormalizesTo memory (resolveName stack filename) (dfsNormalizePath workingDirectory memory directory filename) := by
  by_cases hhead : filename.val.head? = some '/'
  · refine .of_loop ?_ filename.nul_not_mem hhead _ _ _ _ ?_
    · rw [resolveName, if_pos hhead]
    · rw [fullPath, if_pos hhead]
  · have hfull : fullPath workingDirectory directory filename = some (absolutePath stack ++ '/' :: filename.val) := by
      rw [fullPath, if_neg hhead, hdirectory, Option.map_some, hdir]
    refine .of_loop ?_ ?_ ?_ _ _ _ _ hfull
    · rw [resolveName, if_neg hhead, resolve, resolve, components_append, List.foldl_append, foldl_absolutePath hstack]
    · intro hmem
      rcases List.mem_append.1 hmem with hno | hmem
      · exact dir.nul_not_mem (hdir ▸ hno)
      · exact (List.mem_cons.1 hmem).elim (fun hno => absurd hno (by decide)) filename.nul_not_mem
    · rw [List.head?_append, absolutePath_head]
      rfl

example : (dfsNormalizePath none true (some ⟨"/a/b".toList, CString.of_all (by decide)⟩) ⟨"./..//c.d/".toList, CString.of_all (by decide)⟩) =
    ⟨some "/a/c.d".toList, true⟩ := by decide +kernel

theorem dfsNormalizePath_normalizes_up :
    NormalizesTo true (resolveName ["a".toList, "b".toList] ⟨"../..//c".toList, CString.of_all (by decide)⟩)
      (dfsNormalizePath none true (some ⟨"/a/b".toList, CString.of_all (by decide)⟩) ⟨"../..//c".toList, CString.of_all (by decide)⟩) := by
  have hdirectory : useDirectory none (some ⟨"/a/b".toList, CString.of_all (by decide)⟩) = some ⟨"/a/b".toList, CString.of_all (by decide)⟩ := rfl
  exact dfsNormalizePath_normalizes hdirectory (by decide) (by decide) true _

/-- One `..` too many at the root: the path is relative, or the byte in front of the string is read. -/
theorem dfsNormalizePath_root_fails :
    (resolveName [] ⟨"../b".toList, CString.of_all (by decide)⟩).2 = 1 ∧ (resolveName [] ⟨"..".toList, CString.of_all (by decide)⟩).2 = 1 ∧
    dfsNormalizePath none true (some ⟨"/".toList, CString.of_all (by decide)⟩) ⟨"../b".toList, CString.of_all (by decide)⟩ = ⟨some "b".toList, true⟩ ∧
      dfsNormalizePath none true (some ⟨"/".toList, CString.of_all (by decide)⟩) ⟨"..".toList, CString.of_all (by decide)⟩ = ⟨some "/".toList, false⟩ := by
  decide +kernel

/-- A normalised path stays as it is, whatever the directory. -/
theorem dfsNormalizePath_fixed {stack : List (List Char)} {path : CString} (hstack : ∀ c ∈ stack, ProperComponent c)
    (hpath : path.val = absolutePath stack) (workingDirectory directory : Option CString) :
    dfsNormalizePath workingDirectory true directory path = ⟨some path.val, true⟩ := by
  have hhead : path.val.head? = some '/' := hpath ▸ absolutePath_head stack
  have hresolve : resolve [] path.val = (stack, 0) := by
    rw [resolve, hpath]
    exact foldl_absolutePath hstack
  have hresult := NormalizesTo.of_loop hresolve.symm path.nul_not_mem hhead workingDirectory directory true path (if_pos hhead)
  rw [hresult.path rfl rfl, hpath]

theorem dfsNormalizePath_fixed_deep : dfsNormalizePath none true none ⟨"/a/b.c".toList, CString.of_all (by decide)⟩ = ⟨some "/a/b.c".toList, true⟩ :=
  @dfsNormalizePath_fixed ["a".toList, "b.c".toList] ⟨"/a/b.c".toList, CString.of_all (by decide)⟩ (by decide) (by decide) none none

end RtThread
