import RtThread.Finsh.Line

/-!
# Lines that are executed as they are written

The compiler goes along the siblings from the root on, so it compiles what hangs together there. The parser links each statement to the first tree of the one before: the initializers behind the first one are lost when another statement comes, and so is everything behind a first statement that has nothing to execute.
-/

namespace RtThread

open Failing FinshParser

/-! ## What is compiled -/

section

variable {nodes : List FinshNode} {f : Forest (Nat × FinshLabel)}

theorem readTree_of_stored : ∀ {p : Option Nat} {n : Nat}, FinshStored nodes p f → f.size < n →
    readTree n nodes p = some (f.map fun x => x.2.1) := by
  induction f with
  | nil =>
    intro p n hst hfuel
    cases p with
    | some p => exact hst.elim
    | none =>
      obtain ⟨n, rfl⟩ : ∃ k, n = k + 1 := ⟨n - 1, by omega⟩
      rfl
  | cons x below behind hbelow hbehind =>
    obtain ⟨q, a⟩ := x
    intro p n hst hfuel
    cases p with
    | none => exact hst.elim
    | some p =>
      obtain ⟨rfl, cell, hcell, rfl, hchild, hsibling⟩ := hst
      rw [Forest.size] at hfuel
      obtain ⟨n, rfl⟩ : ∃ k, n = k + 1 := ⟨n - 1, by omega⟩
      rw [readTree, hcell]
      change (readTree n nodes cell.child >>= _) = _
      rw [hbelow hchild (by omega)]
      change (readTree n nodes cell.sibling >>= _) = _
      rw [hbehind hsibling (by omega)]
      rfl

theorem compilerRunLoop_of_stored : ∀ {p : Option Nat} {nodes : List FinshNode} {n : Nat}, FinshStored nodes p f → f.places.Nodup →
    f.size < n → compilerRunLoop n nodes p = some (f.trees.map (Forest.map fun x => x.2.1)) := by
  induction f with
  | nil =>
    intro p nodes n hst _ hfuel
    cases p with
    | some p => exact hst.elim
    | none =>
      obtain ⟨n, rfl⟩ : ∃ k, n = k + 1 := ⟨n - 1, by omega⟩
      rfl
  | cons x below behind _ ih =>
    obtain ⟨q, a⟩ := x
    intro p nodes n hst hnodup hfuel
    cases p with
    | none => exact hst.elim
    | some p =>
      have htree : FinshStored (nodes.modify q fun n => { n with sibling := none }) (some p) (.cons (q, a) below .nil) := by
        refine Forest.Stored.link (f := .nil) ?_ ?_ ?_ .none ?_ hst hnodup
        · exact fun _ => rfl
        · exact fun _ => rfl
        · exact fun _ => rfl
        · simp
      obtain ⟨rfl, cell, hcell, -, hchild, hsibling⟩ := hst
      rw [Forest.places_cons, List.nodup_cons, List.nodup_append] at hnodup
      obtain ⟨hnotMem, -, hbehind, -⟩ := hnodup
      have hrest : FinshStored (nodes.modify q fun n => { n with sibling := none }) cell.sibling behind :=
        hsibling.frame fun x hx => List.getElem?_modify_ne _ _ fun heq => hnotMem (heq ▸ List.mem_append_right _ hx)
      rw [Forest.size] at hfuel
      obtain ⟨n, rfl⟩ : ∃ k, n = k + 1 := ⟨n - 1, by omega⟩
      rw [compilerRunLoop, hcell]
      change (readTree (n + 1) _ (some q) >>= _) = _
      rw [readTree_of_stored htree (by simp only [Forest.size]; omega)]
      change (compilerRunLoop n _ cell.sibling >>= _) = _
      rw [ih hrest hbehind (by omega)]
      rfl

theorem size_le_of_stored {p : Option Nat} (hst : FinshStored nodes p f) (hnodup : f.places.Nodup) : f.size ≤ nodes.length := by
  have hlength : f.places.length = f.size := by
    rw [Forest.places, List.length_map, Forest.length_labels]
  have hsub : f.places ⊆ List.range nodes.length := fun q hq => List.mem_range.2 (hst.lt_length q hq)
  have hle := (List.subperm_of_subset hnodup hsub).length_le
  rwa [hlength, List.length_range] at hle

theorem finshCompilerRun_of_stored {p : Option Nat} (hst : FinshStored nodes p f) (hnodup : f.places.Nodup) :
    finshCompilerRun nodes p = some (f.trees.map (Forest.map fun x => x.2.1)) :=
  compilerRunLoop_of_stored hst hnodup (Nat.lt_succ_of_le (size_le_of_stored hst hnodup))

end

/-! ## What is kept of a line -/

section

variable {α : Type*} {cur : Forest α} {ts : List (Forest α)}

/-- The statements behind `cur` are linked to its first tree, and one without a tree ends what is linked there. -/
def keptBehind (cur : Forest α) : List (Forest α) → Forest α
  | [] => cur
  | .nil :: ts => keptBehind cur.first ts
  | .cons a below behind :: ts => cur.first.append (keptBehind (.cons a below behind) ts)

/-- What is kept of the statements of a line: nothing, if the first one has no tree. -/
def keptLine : List (Forest α) → Forest α
  | [] => .nil
  | .nil :: _ => .nil
  | .cons a below behind :: ts => keptBehind (.cons a below behind) ts

/-- No statement but the last one has more than one tree, and the first one has a tree if there is any. -/
structure InChain (ts : List (Forest α)) : Prop where
  atMostOne : ∀ t ∈ ts.dropLast, t.trees.length ≤ 1
  first : ts.head? = some .nil → ∀ t ∈ ts, t = .nil

theorem forall_dropLast_cons {p : Forest α → Prop} {t : Forest α} :
    (∀ u ∈ (t :: ts).dropLast, p u) ↔ (ts ≠ [] → p t) ∧ ∀ u ∈ ts.dropLast, p u := by
  cases ts <;> simp

theorem sublist_keptBehind : ((keptBehind cur ts).trees).Sublist ((cur :: ts).flatMap Forest.trees) := by
  induction ts generalizing cur with
  | nil => simp [keptBehind]
  | cons t ts ih =>
    have hfirst : cur.first.trees.Sublist cur.trees := by
      rw [Forest.trees_first]
      exact List.take_sublist 1 _
    cases t with
    | nil => exact (@ih cur.first).trans (hfirst.append_right _)
    | cons a below behind =>
      rw [keptBehind, Forest.trees_append]
      exact hfirst.append ih

theorem keptBehind_iff : (keptBehind cur ts).trees = (cur :: ts).flatMap Forest.trees ↔
    ∀ t ∈ (cur :: ts).dropLast, t.trees.length ≤ 1 := by
  induction ts generalizing cur with
  | nil => simp [keptBehind]
  | cons t ts ih =>
    rw [forall_dropLast_cons]
    cases t with
    | nil =>
      have hsame : ((Forest.nil : Forest α) :: ts).flatMap Forest.trees = ts.flatMap Forest.trees := rfl
      rw [keptBehind, List.flatMap_cons, hsame]
      constructor
      · intro heq
        have hle := (@sublist_keptBehind _ cur.first ts).length_le
        rw [heq, List.flatMap_cons, List.length_append, List.length_append, Forest.trees_first, List.length_take] at hle
        have hone : cur.trees.length ≤ 1 := by omega
        rw [← List.flatMap_cons, ← Forest.first_eq hone, Forest.first_first, ih, forall_dropLast_cons] at heq
        refine ⟨fun _ => hone, forall_dropLast_cons.2 ⟨fun _ => Nat.zero_le 1, heq.2⟩⟩
      · intro ⟨hone, hrest⟩
        rw [Forest.first_eq (hone (List.cons_ne_nil _ _)), ← List.flatMap_cons, ih, forall_dropLast_cons]
        exact ⟨fun _ => hone (List.cons_ne_nil _ _), (forall_dropLast_cons.1 hrest).2⟩
    | cons a below behind =>
      rw [keptBehind, List.flatMap_cons, Forest.trees_append, ← ih]
      constructor
      · intro heq
        have hle := (@sublist_keptBehind _ (.cons a below behind) ts).length_le
        have hlength := congrArg List.length heq
        rw [List.length_append, List.length_append, Forest.trees_first, List.length_take] at hlength
        have hone : cur.trees.length ≤ 1 := by omega
        rw [Forest.first_eq hone] at heq
        exact ⟨fun _ => hone, List.append_cancel_left heq⟩
      · intro ⟨hone, heq⟩
        rw [Forest.first_eq (hone (List.cons_ne_nil _ _)), heq]

theorem sublist_keptLine : ((keptLine ts).trees).Sublist (ts.flatMap Forest.trees) := by
  rcases ts with _ | ⟨_ | ⟨a, below, behind⟩, ts⟩
  · exact List.Sublist.refl _
  · exact List.nil_sublist _
  · exact sublist_keptBehind

theorem keptLine_iff : (keptLine ts).trees = ts.flatMap Forest.trees ↔ InChain ts := by
  rcases ts with _ | ⟨_ | ⟨a, below, behind⟩, ts⟩
  · exact ⟨fun _ => ⟨by simp, by simp⟩, fun _ => rfl⟩
  · constructor
    · intro heq
      have hnil (t : Forest α) (ht : t ∈ Forest.nil :: ts) : t = .nil := by
        have hempty := List.flatMap_eq_nil_iff.1 heq.symm t ht
        cases t with
        | nil => rfl
        | cons => cases hempty
      refine ⟨fun t ht => ?_, fun _ => hnil⟩
      rw [hnil t (List.dropLast_subset _ ht)]
      exact Nat.zero_le 1
    · intro h
      refine (List.flatMap_eq_nil_iff.2 fun t ht => ?_).symm
      rw [h.first rfl t ht]
      rfl
  · rw [keptLine, keptBehind_iff]
    exact ⟨fun h => ⟨h, fun heq => nomatch heq⟩, fun h => h.atMostOne⟩

end

/-! ## The statements of a line -/

/-- What the statements of a line are to execute; `;` behind the last one is an empty statement. -/
def lineForests (line : List FinshStatement) (empty : Bool) : List (Forest FinshLabel) :=
  line.map FinshStatement.trees ++ if empty = true then [.nil] else []

def lineEnd (empty : Bool) : Stream' FinshToken := (if empty = true then [.semicolon] else []) ++ₛ Stream'.const .eof

/-- A list of statements has been linked from `root` on, and `node` is the first tree of the last one that has any. -/
def LineStored (nodes : List FinshNode) (root node : Nat) (done cur : Forest FinshLabel) : Prop :=
  ∃ (f : Forest (Nat × FinshLabel)) (a : FinshLabel) (below behind : Forest (Nat × FinshLabel)), f.map Prod.snd = done ∧
    (Forest.cons (node, a) below behind).map Prod.snd = cur ∧ FinshStored nodes (some root) (f.append (.cons (node, a) below behind)) ∧
    (f.append (.cons (node, a) below behind)).places.Nodup

section

variable {s s' : FinshParser} {root node : Nat} {done cur t : Forest FinshLabel} {p : Option Nat} {n : Nat}

theorem Built.eq_none (h : BuiltOne s s' p .nil) : p = none := by
  obtain ⟨f, -, hf, -, hst, -⟩ := h.stored
  cases f with
  | cons => cases hf
  | nil =>
    cases p with
    | none => rfl
    | some => exact hst.elim

theorem LineStored.single {q : Nat} {a : FinshLabel} {below behind : Forest FinshLabel}
    (hbuilt : BuiltOne s s' (some q) (.cons a below behind)) : LineStored s'.nodes q q .nil (.cons a below behind) := by
  obtain ⟨f, g, hf, hg, hst, -, hnodup, -⟩ := hbuilt.stored
  cases f with
  | nil => cases hf
  | cons x f₁ f₂ =>
    obtain ⟨q', a'⟩ := x
    obtain rfl := Option.some.inj hst.eq_some
    rw [List.nodup_append] at hnodup
    exact ⟨.nil, a', f₁, f₂, rfl, hf, hst, hnodup.1⟩

theorem LineStored.link (h : LineStored s.nodes root node done cur) (hbuilt : BuiltOne s s' p t) :
    ∃ (f : Forest (Nat × FinshLabel)) (a : FinshLabel) (below g : Forest (Nat × FinshLabel)), f.map Prod.snd = done ∧
      (Forest.cons (node, a) below .nil).map Prod.snd = cur.first ∧ g.map Prod.snd = t ∧ FinshStored s'.nodes p g ∧
      FinshStored (s'.withSibling node p).nodes (some root) (f.append (.cons (node, a) below g)) ∧
      (f.append (.cons (node, a) below g)).places.Nodup := by
  obtain ⟨f, a, below, behind, hf, hcur, hst, hnodup⟩ := h
  obtain ⟨g, e, hg, he, hstg, -, hnodupg, hge⟩ := hbuilt.stored
  rw [List.nodup_append] at hnodupg
  have hold (q : Nat) (hq : q ∈ (f.append (.cons (node, a) below behind)).places) : q < s.nodes.length := hst.lt_length q hq
  have hnew (q : Nat) (hq : q ∈ g.places) : s.nodes.length ≤ q := hge q (List.mem_append_left _ hq)
  have hst' : FinshStored s'.nodes (some root) (f.append (.cons (node, a) below behind)) :=
    hst.frame fun q hq => hbuilt.old q (hold q hq)
  have hnode : node ∉ g.places := fun hmem => Nat.not_lt.2 (hnew node hmem) (hold node (by simp))
  refine ⟨f, a, below, g, hf, ?_, hg, hstg, stored_withSibling hst' hnodup hstg hnode, ?_⟩
  · rw [← hcur]
    rfl
  · simp only [Forest.places_append, Forest.places_cons, List.nodup_append, List.nodup_cons, List.mem_append, List.mem_cons] at hnodup hold ⊢
    obtain ⟨hnodupf, ⟨hnotMem, hnodupBelow, -, -⟩, hdisjoint⟩ := hnodup
    refine ⟨hnodupf, ⟨fun hmem => hmem.elim (fun hmem => hnotMem (.inl hmem)) hnode, hnodupBelow, hnodupg.1, fun x hx y hy heq => ?_⟩,
      fun x hx y hy heq => ?_⟩
    · exact Nat.not_lt.2 (hnew y hy) (heq ▸ hold x (.inr (.inr (.inl hx))))
    · rcases hy with hy | hy | hy
      · exact hdisjoint x hx y (.inl hy) heq
      · exact hdisjoint x hx y (.inr (.inl hy)) heq
      · exact Nat.not_lt.2 (hnew y hy) (heq ▸ hold x (.inl hx))

theorem LineStored.link_nil (h : LineStored s.nodes root node done cur) (hbuilt : BuiltOne s s' none .nil) :
    LineStored (s'.withSibling node none).nodes root node done cur.first := by
  obtain ⟨f, a, below, g, hf, hcur, hg, -, hst, hnodup⟩ := h.link hbuilt
  cases g with
  | cons => cases hg
  | nil => exact ⟨f, a, below, .nil, hf, hcur, hst, hnodup⟩

theorem LineStored.link_cons {q : Nat} {a : FinshLabel} {below behind : Forest FinshLabel} (h : LineStored s.nodes root node done cur)
    (hbuilt : BuiltOne s s' (some q) (.cons a below behind)) :
    LineStored (s'.withSibling node (some q)).nodes root q (done.append cur.first) (.cons a below behind) := by
  obtain ⟨f, b, below', g, hf, hcur, hg, hstg, hst, hnodup⟩ := h.link hbuilt
  cases g with
  | nil => cases hg
  | cons x g₁ g₂ =>
    obtain ⟨q', a'⟩ := x
    obtain rfl := Option.some.inj hstg.eq_some
    have hsame : (f.append (.cons (node, b) below' .nil)).append (.cons (q, a') g₁ g₂) =
        f.append (.cons (node, b) below' (.cons (q, a') g₁ g₂)) := by
      rw [Forest.append_assoc]
      rfl
    refine ⟨f.append (.cons (node, b) below' .nil), a', g₁, g₂, ?_, hg, ?_, ?_⟩
    · rw [Forest.map_append, hf, hcur]
    · rw [hsame]
      exact hst
    · rw [hsame]
      exact hnodup

end

/-! ## The loop over the statements -/

def lineSize (line : List FinshStatement) : Nat := (line.map fun st => st.trees.size).sum

/-- The token that `finsh_parser_run` takes for the beginning of a declaration. -/
def FinshToken.StartsDecl (token : FinshToken) : Prop := token.baseType.isSome = true ∨ token = .unsigned

theorem CastType.head {ts : List FinshToken} {type : FinshType} (h : CastType ts type) : ∃ token ts', ts = token :: ts' ∧ token.StartsDecl := by
  have hname {ts : List FinshToken} {type : FinshType} (h : TypeName ts type) : ∃ token ts', ts = token :: ts' ∧ token.StartsDecl := by
    cases h with
    | @base token _ htoken => exact ⟨token, [], rfl, .inl (by rw [htoken]; rfl)⟩
    | unsigned => exact ⟨_, _, rfl, .inr rfl⟩
  cases h with
  | name h => exact hname h
  | pointer h =>
    obtain ⟨token, ts', rfl, hstarts⟩ := hname h
    exact ⟨token, _, rfl, hstarts⟩

theorem FinshToken.StartsDecl.ne {token : FinshToken} (h : token.StartsDecl) : ¬(token = .eof ∨ token = .bad) := by
  rintro (rfl | rfl) <;> rcases h with h | h <;> cases h

theorem Starts.not_startsDecl {token : FinshToken} (h : Starts .assign token) :
    ¬token.StartsDecl ∧ ¬(token = .eof ∨ token = .bad) := by
  have hstarts : token.startsUnary = true ∨ token = .leftParen := h
  constructor
  · rintro (hbase | rfl)
    · have hprimary : ¬(token.startsUnary = true ∨ token = .leftParen) := by
        cases token <;> first | cases hbase; decide | cases hbase
      exact hprimary hstarts
    · rcases hstarts with hstarts | hstarts <;> cases hstarts
  · rintro (rfl | rfl) <;> rcases hstarts with hstarts | hstarts <;> cases hstarts

section

variable {base s s' : FinshParser} {root node : Nat} {done cur t : Forest FinshLabel} {p : Option Nat} {n : Nat} {vars vars' : List FinshVar}
  {st : FinshStatement} {line : List FinshStatement} {rest : Stream' FinshToken} {token : FinshToken} {empty : Bool}

theorem skipToken_run (hskip : p = none → token.StartsDecl) : skipToken token p s = some ((), s) := by
  rw [skipToken.eq_def]
  split
  · rfl
  · rfl
  · have hstarts : token.baseType.isSome = true ∨ token = .unsigned := hskip rfl
    rw [if_pos hstarts]
    rfl

theorem item_run (h : DerivesItem (fun vars => (s.withVars vars).lookup) s.vars st vars') (hgood : s.NoError)
    (hpending : s.pending = st.tokens ++ₛ rest) (hroom : s.nodes.length + st.trees.size ≤ s.nodeMax) (hfuel : 2 * st.tokens.length + 2 ≤ n) :
    ∃ p s', (if s.peek.baseType.isSome = true ∨ s.peek = .unsigned then procVariableDecl n else procExprStatement n) s.putBack = some (p, s') ∧
      Wrote s vars' rest st.trees p s' ∧ ¬(s.peek = .eof ∨ s.peek = .bad) ∧ (p = none → s.peek.StartsDecl) := by
  have hpending' := s.pending_putBack.trans hpending
  have hback {vars' : List FinshVar} {p : Option Nat} {s' : FinshParser} (h : Wrote s.putBack vars' rest st.trees p s') :
      Wrote s vars' rest st.trees p s' := by
    have hbuilt : BuiltOne (s.withVars vars').putBack s' p st.trees := h.consumed.built
    exact ⟨h.tables, h.consumed.pending, h.consumed.noError, h.consumed.size, hbuilt.of_putBack⟩
  cases h with
  | @expr ts t h =>
    obtain ⟨token, ts', rfl, hstarts⟩ := h.head
    have hpeek : s.peek = token := (peek_of_pending hpending).1
    obtain ⟨hdecl, hend⟩ := hstarts.not_startsDecl
    obtain ⟨p, s', hrun, hwrote⟩ := procExprStatement_run (s := s.putBack) (n := n) hgood h hpending' hroom (by simp at hfuel ⊢; omega)
    refine ⟨p, s', ?_, hback hwrote, hpeek ▸ hend, fun hnone => ?_⟩
    · have hno : ¬(token.baseType.isSome = true ∨ token = .unsigned) := hdecl
      rw [hpeek, if_neg hno]
      exact hrun
    · obtain ⟨a, below, rfl⟩ := h.isTree fun heq => nomatch heq
      obtain ⟨q, rfl, -⟩ := hwrote.consumed.built.root
      cases hnone
  | @decl _ type ts₁ ts₂ t htype h =>
    obtain ⟨token, ts', rfl, hstarts⟩ := htype.head
    have hpeek : s.peek = token := (peek_of_pending hpending).1
    obtain ⟨p, s', hrun, hwrote⟩ := procVariableDecl_run (s := s.putBack) (n := n) hgood htype h hpending' hroom (by simp at hfuel ⊢; omega)
    refine ⟨p, s', ?_, hback hwrote, hpeek ▸ hstarts.ne, fun _ => hpeek ▸ hstarts⟩
    have hyes : token.baseType.isSome = true ∨ token = .unsigned := hstarts
    rw [hpeek, if_pos hyes]
    exact hrun

theorem DerivesItem.length_pos {lookup : List FinshVar → List UInt8 → Option FinshId} (h : DerivesItem lookup vars st vars') :
    0 < st.tokens.length := by
  cases h <;> simp only [List.length_append, List.length_singleton] <;> omega

theorem DeclReady.wrote {room : Nat} (hready : DeclReady base vars s (t.size + room)) (hwrote : Wrote s vars' rest t p s') :
    DeclReady base vars' s' room := by
  refine ⟨hwrote.tables.trans (tables_withVars hready.tables vars'), ?_⟩
  have hsize : s'.nodes.length = s.nodes.length + t.size := hwrote.consumed.size
  have hmax : s'.nodeMax = s.nodeMax := hwrote.consumed.built.nodeMax
  have hroom := hready.room
  omega

theorem DeclReady.lookups {room : Nat} (hready : DeclReady base vars s room) :
    (fun vars => (s.withVars vars).lookup) = fun vars => (base.withVars vars).lookup :=
  funext fun vars => lookup_of_tables (tables_withVars hready.tables vars)

theorem parserRunLoop_round (hend : ¬(s.peek = .eof ∨ s.peek = .bad)) (hskip : p = none → s.peek.StartsDecl)
    (hrun : (if s.peek.baseType.isSome = true ∨ s.peek = .unsigned then procVariableDecl n else procExprStatement n) s.putBack = some (p, s')) :
    (nextToken >>= parserRunLoop (n + 1) (some root) (some node)) s =
      (nextToken >>= parserRunLoop n (some root) (some (p.getD node))) (s'.withSibling node p) := by
  have hreplay : tokenReplay s.next = some ((), s.putBack) := rfl
  have hsibling : setSibling node p s' = some ((), s'.withSibling node p) := rfl
  rw [bind_run s.nextToken_run, parserRunLoop, if_neg hend, bind_run hreplay]
  by_cases hdecl : s.peek.baseType.isSome = true ∨ s.peek = .unsigned
  · rw [if_pos hdecl] at hrun ⊢
    rw [bind_run hrun]
    change (setSibling node p >>= _) s' = _
    rw [bind_run hsibling, bind_run (skipToken_run hskip)]
  · rw [if_neg hdecl] at hrun ⊢
    rw [bind_run hrun]
    change (setSibling node p >>= _) s' = _
    rw [bind_run hsibling, bind_run (skipToken_run hskip)]

theorem parserRunLoop_first (hend : ¬(s.peek = .eof ∨ s.peek = .bad))
    (hrun : (if s.peek.baseType.isSome = true ∨ s.peek = .unsigned then procVariableDecl n else procExprStatement n) s.putBack = some (p, s')) :
    (nextToken >>= parserRunLoop (n + 1) none none) s =
      if p = none then some (none, s') else (nextToken >>= parserRunLoop n p p) s' := by
  have hreplay : tokenReplay s.next = some ((), s.putBack) := rfl
  rw [bind_run s.nextToken_run, parserRunLoop, if_neg hend, bind_run hreplay]
  by_cases hdecl : s.peek.baseType.isSome = true ∨ s.peek = .unsigned
  · rw [if_pos hdecl] at hrun ⊢
    rw [bind_run hrun]
    cases p <;> rfl
  · rw [if_neg hdecl] at hrun ⊢
    rw [bind_run hrun]
    cases p <;> rfl

theorem parserRunLoop_end (hgood : s.NoError) (hpending : s.pending = lineEnd empty) (h : LineStored s.nodes root node done cur) :
    ∃ s' cur', (nextToken >>= parserRunLoop (n + 2) (some root) (some node)) s = some (some root, s') ∧ s'.NoError ∧
      LineStored s'.nodes root node done cur' ∧ cur' = keptBehind cur (lineForests [] empty) := by
  cases empty with
  | false =>
    have hpeek : s.peek = .eof := by
      rw [← head_pending, hpending]
      rfl
    refine ⟨s.next, cur, ?_, hgood, h, rfl⟩
    rw [bind_run s.nextToken_run, hpeek, parserRunLoop, if_pos (.inl rfl)]
    rfl
  | true =>
    have hpeek : s.peek = .semicolon := by
      rw [← head_pending, hpending]
      rfl
    have htail : s.next.pending = Stream'.const .eof := by
      rw [pending_next, hpending]
      rfl
    have hnext : s.next.peek = .eof := by
      rw [← head_pending, htail]
      rfl
    have hpeek₂ : s.next.next.peek = .eof := by
      rw [← head_pending, pending_next, htail]
      rfl
    have hreplay : tokenReplay s.next = some ((), s.putBack) := rfl
    have hrun : procExprStatement (n + 1) s.putBack = some (none, s.next) := by
      rw [procExprStatement, bind_run s.putBack.nextToken_run, peek_putBack, if_neg (not_not_intro hpeek)]
      rfl
    have hskip : skipToken .semicolon none (s.next.withSibling node none) = some ((), (s.next.withSibling node none).next) := by
      have hdiscard : skipToken .semicolon none = nextToken >>= fun _ => pure () := rfl
      rw [hdiscard, bind_run (nextToken_run _)]
      rfl
    refine ⟨(s.next.withSibling node none).next.next, cur.first, ?_, hgood, h.link_nil (Built.refl s).next, rfl⟩
    have hsibling : setSibling node none s.next = some ((), s.next.withSibling node none) := rfl
    have hno : ¬(FinshToken.semicolon = .eof ∨ FinshToken.semicolon = .bad) := by decide
    have hno' : ¬(FinshToken.semicolon.baseType.isSome = true ∨ FinshToken.semicolon = .unsigned) := by decide
    rw [bind_run s.nextToken_run, hpeek, parserRunLoop, if_neg hno, bind_run hreplay, if_neg hno', bind_run hrun]
    change (setSibling node none >>= _) s.next = _
    rw [bind_run hsibling, bind_run hskip, bind_run (nextToken_run _)]
    change parserRunLoop (n + 1) (some root) (some node) s.next.next.peek _ = _
    rw [hpeek₂]
    rfl

theorem parserRunLoop_line (h : DerivesLine (fun vars => (base.withVars vars).lookup) vars line vars') :
    ∀ {s : FinshParser} {node : Nat} {done cur : Forest FinshLabel} {n : Nat}, DeclReady base vars s (lineSize line) → s.NoError →
      s.pending = lineTokens line ++ₛ lineEnd empty → LineStored s.nodes root node done cur → 2 * (lineTokens line).length + 3 ≤ n →
      ∃ s' node' done' cur', (nextToken >>= parserRunLoop n (some root) (some node)) s = some (some root, s') ∧ s'.NoError ∧
        LineStored s'.nodes root node' done' cur' ∧ done'.append cur' = done.append (keptBehind cur (lineForests line empty)) := by
  induction h with
  | nil =>
    intro s node done cur n _ hgood hpending hst hfuel
    obtain ⟨n, rfl⟩ : ∃ k, n = k + 2 := ⟨n - 2, by omega⟩
    obtain ⟨s', cur', hrun, hgood', hst', rfl⟩ := parserRunLoop_end (n := n) hgood hpending hst
    exact ⟨s', node, done, _, hrun, hgood', hst', rfl⟩
  | @cons vars vars₁ vars' st line hitem _ ih =>
    intro s node done cur n hready hgood hpending hst hfuel
    obtain ⟨n, rfl⟩ : ∃ k, n = k + 1 := ⟨n - 1, by omega⟩
    have hvars : s.vars = vars := (Prod.mk.inj hready.tables).1
    have hsize : lineSize (st :: line) = st.trees.size + lineSize line := rfl
    have htokens : lineTokens (st :: line) = st.tokens ++ lineTokens line := rfl
    rw [hsize] at hready
    rw [htokens, Stream'.append_append_stream] at hpending
    rw [htokens, List.length_append] at hfuel
    have hpos := hitem.length_pos
    have hroom := hready.room
    rw [← hready.lookups, ← hvars] at hitem
    obtain ⟨p, s₁, hrun, hwrote, hend, hskip⟩ := item_run (n := n) hitem hgood hpending (by omega) (by omega)
    have hready₁ := hready.wrote hwrote
    have hnext : DeclReady base vars₁ (s₁.withSibling node p) (lineSize line) := by
      refine ⟨hready₁.tables, ?_⟩
      rw [withSibling, List.length_modify]
      exact hready₁.room
    have hbuilt : BuiltOne (s.withVars vars₁) s₁ p st.trees := hwrote.consumed.built
    have hst₀ : LineStored (s.withVars vars₁).nodes root node done cur := hst
    obtain ⟨tokens, trees⟩ := st
    cases trees with
    | nil =>
      obtain rfl := hbuilt.eq_none
      obtain ⟨s', node', done', cur', hrest, hgood', hst', heq⟩ :=
        ih (n := n) hnext hwrote.consumed.noError hwrote.consumed.pending (hst₀.link_nil hbuilt) (by omega)
      exact ⟨s', node', done', cur', (parserRunLoop_round hend hskip hrun).trans hrest, hgood', hst', heq⟩
    | cons a below behind =>
      obtain ⟨q, rfl, -⟩ := hbuilt.root
      obtain ⟨s', node', done', cur', hrest, hgood', hst', heq⟩ :=
        ih (n := n) hnext hwrote.consumed.noError hwrote.consumed.pending (hst₀.link_cons hbuilt) (by omega)
      refine ⟨s', node', done', cur', (parserRunLoop_round hend hskip hrun).trans hrest, hgood', hst', ?_⟩
      rw [heq, Forest.append_assoc]
      rfl

theorem finshParserRun_line (h : DerivesLine (fun vars => (s.withVars vars).lookup) s.vars line vars') (hgood : s.NoError)
    (hpending : s.pending = lineTokens line ++ₛ lineEnd empty) (hroom : s.nodes.length + lineSize line ≤ s.nodeMax)
    (hfuel : 2 * (lineTokens line).length + 3 ≤ n) :
    ∃ root s' f, finshParserRun n s = some (root, s') ∧ s'.NoError ∧ FinshStored s'.nodes root f ∧ f.places.Nodup ∧
      f.map Prod.snd = keptLine (lineForests line empty) := by
  obtain ⟨n, rfl⟩ : ∃ k, n = k + 1 := ⟨n - 1, by omega⟩
  change ∃ root s' f, (nextToken >>= parserRunLoop (n + 1) none none) s = some (root, s') ∧ _
  cases h with
  | nil =>
    cases empty with
    | false =>
      have hpeek : s.peek = .eof := by
        rw [← head_pending, hpending]
        rfl
      refine ⟨none, s.next, .nil, ?_, hgood, trivial, by simp, rfl⟩
      rw [bind_run s.nextToken_run, hpeek, parserRunLoop, if_pos (.inl rfl)]
      rfl
    | true =>
      have hpeek : s.peek = .semicolon := by
        rw [← head_pending, hpending]
        rfl
      have hrun : procExprStatement n s.putBack = some (none, s.next) := by
        rw [procExprStatement, bind_run s.putBack.nextToken_run, peek_putBack, if_neg (not_not_intro hpeek)]
        rfl
      refine ⟨none, s.next, .nil, (parserRunLoop_first (n := n) ?_ ?_).trans (if_pos rfl), hgood, trivial, by simp, rfl⟩
      · rw [hpeek]
        decide
      · rw [hpeek, if_neg (by decide)]
        exact hrun
  | @cons _ vars₁ _ st line hitem hrest =>
    have hsize : lineSize (st :: line) = st.trees.size + lineSize line := rfl
    have htokens : lineTokens (st :: line) = st.tokens ++ lineTokens line := rfl
    rw [hsize] at hroom
    rw [htokens, Stream'.append_append_stream] at hpending
    rw [htokens, List.length_append] at hfuel
    have hpos := hitem.length_pos
    obtain ⟨p, s₁, hrun, hwrote, hend, -⟩ := item_run (n := n) hitem hgood hpending (by omega) (by omega)
    have hready : DeclReady s s.vars s (st.trees.size + lineSize line) := ⟨rfl, hroom⟩
    have hbuilt : BuiltOne (s.withVars vars₁) s₁ p st.trees := hwrote.consumed.built
    obtain ⟨tokens, trees⟩ := st
    cases trees with
    | nil =>
      obtain rfl := hbuilt.eq_none
      exact ⟨none, s₁, .nil, (parserRunLoop_first hend hrun).trans (if_pos rfl), hwrote.consumed.noError, trivial, by simp, rfl⟩
    | cons a below behind =>
      obtain ⟨q, rfl, -⟩ := hbuilt.root
      obtain ⟨s', node, done, cur, hloop, hgood', ⟨f, b, below', behind', hf, hcur, hst, hnodup⟩, heq⟩ := parserRunLoop_line (n := n) hrest
        (hready.wrote hwrote) hwrote.consumed.noError hwrote.consumed.pending (LineStored.single hbuilt) (by omega)
      refine ⟨some q, s', _, (parserRunLoop_first hend hrun).trans ((if_neg (Option.some_ne_none _)).trans hloop), hgood', hst, hnodup, ?_⟩
      rw [Forest.map_append, hf, hcur, heq]
      rfl

/-- A line that is accepted is executed as it is written, each expression and initializer once, if and only if all of it is in the chain. -/
theorem lineCompiled_iff (h : DerivesLine (fun vars => (s.withVars vars).lookup) s.vars line vars') (hgood : s.NoError)
    (hpending : s.pending = lineTokens line ++ₛ lineEnd empty) (hroom : s.nodes.length + lineSize line ≤ s.nodeMax)
    (hfuel : 2 * (lineTokens line).length + 3 ≤ n) :
    ∃ root s' compiled, finshParserRun n s = some (root, s') ∧ s'.NoError ∧ finshCompilerRun s'.nodes root = some compiled ∧
      (compiled = lineTrees line ↔ InChain (lineForests line empty)) := by
  obtain ⟨root, s', f, hrun, hgood', hst, hnodup, hkept⟩ := finshParserRun_line h hgood hpending hroom hfuel
  refine ⟨root, s', _, hrun, hgood', finshCompilerRun_of_stored hst hnodup, ?_⟩
  have hall : (lineForests line empty).flatMap Forest.trees = line.flatMap fun st => st.trees.trees := by
    rw [lineForests, List.flatMap_append, List.flatMap_map]
    cases empty <;> simp [Forest.trees]
  have hcompiled : f.trees.map (Forest.map fun x => x.2.1) = (keptLine (lineForests line empty)).trees.map (Forest.map Prod.fst) := by
    rw [← hkept, Forest.trees_map, List.map_map]
    congr 1
    funext g
    exact (Forest.map_map Prod.fst Prod.snd g).symm
  rw [hcompiled, lineTrees, ← hall]
  constructor
  · intro heq
    have hlength := congrArg List.length heq
    rw [List.length_map, List.length_map] at hlength
    exact keptLine_iff.1 (sublist_keptLine.eq_of_length hlength)
  · intro hchain
    rw [keptLine_iff.2 hchain]

end

/-! ## Two lines -/

theorem derives_assign_of_primary {lookup : List UInt8 → Option FinshId} {ts : List FinshToken} {t : Forest FinshLabel}
    (h : Derives (plainGrammar lookup) .primary ts t) : Derives (plainGrammar lookup) .assign ts t :=
  .operand (.operand (.operand (.operand (.operand (.operand (.operand (.operand (.operand (.operand (.operand h))))))))))

def lineVars (n : Nat) : List FinshVar :=
  ([⟨[97], .int⟩, ⟨[98], .int⟩] : List FinshVar).take n ++ List.replicate (8 - n) (⟨[], .unknown⟩ : FinshVar)

def FinshParser.ofLine (line : List FinshStatement) (empty : Bool) : FinshParser :=
  { toks := lineTokens line ++ₛ lineEnd empty, currentToken := .eof, replay := false, nodes := [], nodeMax := 16,
    vars := lineVars 0, sysvars := [], syscalls := [], errno := none }

/-- `a = i` for the variable `n`. -/
def initializerTree (n : Nat) (i : Int) : Forest FinshLabel := sysNode .assign ((leaf (.id (.var n))).append (leaf (.valueInt i)))

/-- `int a = 1; a;` -/
def initializedLine : List FinshStatement :=
  [⟨[.int, .identifier [97], .assign, .valueInt 1, .semicolon], initializerTree 0 1⟩, ⟨[.identifier [97], .semicolon], leaf (.id (.var 0))⟩]

/-- `int a = 1, b = 2; a;` -/
def twiceInitializedLine : List FinshStatement :=
  [⟨[.int, .identifier [97], .assign, .valueInt 1, .comma, .identifier [98], .assign, .valueInt 2, .semicolon],
      (initializerTree 0 1).append (initializerTree 1 2)⟩,
    ⟨[.identifier [97], .semicolon], leaf (.id (.var 0))⟩]

theorem derivesLine_initialized :
    DerivesLine (fun vars => ((FinshParser.ofLine initializedLine true).withVars vars).lookup) (lineVars 0) initializedLine (lineVars 1) := by
  have hone : Derives (plainGrammar ((FinshParser.ofLine initializedLine true).withVars (lineVars 1)).lookup) .assign [.valueInt 1]
      (leaf (.valueInt 1)) := derives_assign_of_primary (.literal rfl)
  have hvar : Derives (plainGrammar ((FinshParser.ofLine initializedLine true).withVars (lineVars 1)).lookup) .assign [.identifier [97]]
      (leaf (.id (.var 0))) := derives_assign_of_primary (.identifier (by decide))
  have hexpr : DerivesItem (fun vars => ((FinshParser.ofLine initializedLine true).withVars vars).lookup) (lineVars 1)
      ⟨[.identifier [97]] ++ [.semicolon], leaf (.id (.var 0))⟩ (lineVars 1) := .expr hvar
  have hdecl : DerivesItem (fun vars => ((FinshParser.ofLine initializedLine true).withVars vars).lookup) (lineVars 0)
      ⟨[.int] ++ ([.identifier [97], .assign, .valueInt 1] ++ [.semicolon]), initializerTree 0 1⟩ (lineVars 1) :=
    .decl (.name (.base rfl)) (.one (.initialized (by decide +kernel) (by decide) hone))
  exact .cons hdecl (.cons hexpr .nil)

/-- `int a = 1; a;;` is executed as it is written. -/
theorem lineCompiled_initialized :
    ∃ root s' compiled, finshParserRun 40 (.ofLine initializedLine true) = some (root, s') ∧ s'.NoError ∧
      finshCompilerRun s'.nodes root = some compiled ∧ (compiled = lineTrees initializedLine ↔ InChain (lineForests initializedLine true)) :=
  lineCompiled_iff derivesLine_initialized rfl rfl (by decide) (by decide)

theorem derivesLine_twiceInitialized :
    DerivesLine (fun vars => ((FinshParser.ofLine twiceInitializedLine false).withVars vars).lookup) (lineVars 0) twiceInitializedLine
      (lineVars 2) := by
  have hone : Derives (plainGrammar ((FinshParser.ofLine twiceInitializedLine false).withVars (lineVars 1)).lookup) .assign [.valueInt 1]
      (leaf (.valueInt 1)) := derives_assign_of_primary (.literal rfl)
  have htwo : Derives (plainGrammar ((FinshParser.ofLine twiceInitializedLine false).withVars (lineVars 2)).lookup) .assign [.valueInt 2]
      (leaf (.valueInt 2)) := derives_assign_of_primary (.literal rfl)
  have hvar : Derives (plainGrammar ((FinshParser.ofLine twiceInitializedLine false).withVars (lineVars 2)).lookup) .assign [.identifier [97]]
      (leaf (.id (.var 0))) := derives_assign_of_primary (.identifier (by decide))
  have hexpr : DerivesItem (fun vars => ((FinshParser.ofLine twiceInitializedLine false).withVars vars).lookup) (lineVars 2)
      ⟨[.identifier [97]] ++ [.semicolon], leaf (.id (.var 0))⟩ (lineVars 2) := .expr hvar
  have hdecl : DerivesItem (fun vars => ((FinshParser.ofLine twiceInitializedLine false).withVars vars).lookup) (lineVars 0)
      ⟨[.int] ++ (([.identifier [97], .assign, .valueInt 1] ++ .comma :: [.identifier [98], .assign, .valueInt 2]) ++ [.semicolon]),
        (initializerTree 0 1).append (initializerTree 1 2)⟩ (lineVars 2) :=
    .decl (.name (.base rfl)) (.more (.initialized (by decide +kernel) (by decide) hone) (.one (.initialized (by decide +kernel) (by decide) htwo)))
  exact .cons hdecl (.cons hexpr .nil)

/-- `int a = 1, b = 2; a;` is accepted, and `b = 2` is not executed. -/
theorem lineCompiled_fails :
    DerivesLine (fun vars => ((FinshParser.ofLine twiceInitializedLine false).withVars vars).lookup) (lineVars 0) twiceInitializedLine
        (lineVars 2) ∧
      (finshParserRun 40 (.ofLine twiceInitializedLine false)).map (fun r => (r.2.errno, finshCompilerRun r.2.nodes r.1)) =
        some (none, some [(initializerTree 0 1).map Prod.fst, (leaf (.id (.var 0))).map Prod.fst]) ∧
      lineTrees twiceInitializedLine =
        [(initializerTree 0 1).map Prod.fst, (initializerTree 1 2).map Prod.fst, (leaf (.id (.var 0))).map Prod.fst] :=
  ⟨derivesLine_twiceInitialized, by decide +kernel, by decide +kernel⟩

end RtThread
