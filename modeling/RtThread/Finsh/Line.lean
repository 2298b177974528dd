import RtThread.Finsh.ParserComplete

/-!
# Command lines

A line is a sequence of statements, each an expression or a declaration, with empty statements at its end only; what a line is to execute are the expressions and the initializers, in the order in which they are written. The parser makes one list of siblings of them, and the compiler walks along it. Both the statements of the line and the initializers of a declaration are linked by the same pointer.
-/

namespace RtThread

open Failing FinshParser

/-! ## The walk of the compiler -/

/-- The tree that `finsh_compile` goes through: the node, what is below it and what is behind it. `finsh_type_check`, which comes before it,
changes neither a node's type nor its pointers. -/
def readTree : Nat → List FinshNode → Option Nat → Option (Forest FinshNodeType)
  | 0, _, _ => none
  | _ + 1, _, none => some .nil
  | n + 1, nodes, some p => do
    let node ← nodes[p]?
    let below ← readTree n nodes node.child
    let behind ← readTree n nodes node.sibling
    return .cons node.nodeType below behind

/-- The loop of `finsh_compiler_run`: what `finsh_compile` is called for, one after the other. -/
def compilerRunLoop : Nat → List FinshNode → Option Nat → Option (List (Forest FinshNodeType))
  | 0, _, _ => none
  | _ + 1, _, none => some []
  | n + 1, nodes, some p => do
    let node ← nodes[p]?
    -- "clean sibling node"
    let nodes := nodes.modify p fun n => { n with sibling := none }
    let tree ← readTree (n + 1) nodes (some p)
    let rest ← compilerRunLoop n nodes node.sibling
    return tree :: rest

/-- `finsh_compiler_run`: no path through the nodes is longer than their number. -/
def finshCompilerRun (nodes : List FinshNode) (root : Option Nat) : Option (List (Forest FinshNodeType)) :=
  compilerRunLoop (nodes.length + 1) nodes root

/-! ## The grammar of lines -/

/-- `finsh_var_insert`, for the table of variables. -/
def insertVar (vars : List FinshVar) (name : List UInt8) (type : FinshType) : Option (List FinshVar) :=
  if vars.any fun var => decide (var.name = name) then none
  else (vars.findIdx? fun var => decide (var.type = .unknown)).map fun empty => vars.set empty ⟨name, type⟩

section

variable (lookup : List FinshVar → List UInt8 → Option FinshId)

/-- `declarator` between two tables of variables, with the assignment that is to be executed. -/
inductive DerivesDeclarator (type : FinshType) : List FinshVar → List FinshToken → Forest FinshLabel → List FinshVar → Prop
  | plain {vars vars' : List FinshVar} {name : List UInt8} : insertVar vars name type = some vars' →
      DerivesDeclarator type vars [.identifier name] .nil vars'
  | initialized {vars vars' : List FinshVar} {name : List UInt8} {id : FinshId} {ts : List FinshToken} {t : Forest FinshLabel} :
      insertVar vars name type = some vars' → lookup vars' name = some id → Derives (plainGrammar (lookup vars')) .assign ts t →
      DerivesDeclarator type vars (.identifier name :: .assign :: ts) (sysNode .assign ((leaf (.id id)).append t)) vars'

/-- `declarator_list` -/
inductive DerivesDeclarators (type : FinshType) : List FinshVar → List FinshToken → Forest FinshLabel → List FinshVar → Prop
  | one {vars vars' : List FinshVar} {ts : List FinshToken} {t : Forest FinshLabel} :
      DerivesDeclarator lookup type vars ts t vars' → DerivesDeclarators type vars ts t vars'
  | more {vars vars₁ vars' : List FinshVar} {ts₁ ts₂ : List FinshToken} {t₁ t₂ : Forest FinshLabel} :
      DerivesDeclarator lookup type vars ts₁ t₁ vars₁ → DerivesDeclarators type vars₁ ts₂ t₂ vars' →
      DerivesDeclarators type vars (ts₁ ++ .comma :: ts₂) (t₁.append t₂) vars'

/-- A statement of a line, or a declaration: its tokens, and what it is to execute. -/
structure FinshStatement where
  tokens : List FinshToken
  trees : Forest FinshLabel

inductive DerivesItem : List FinshVar → FinshStatement → List FinshVar → Prop
  | expr {vars : List FinshVar} {ts : List FinshToken} {t : Forest FinshLabel} : Derives (plainGrammar (lookup vars)) .assign ts t →
      DerivesItem vars ⟨ts ++ [.semicolon], t⟩ vars
  | decl {vars vars' : List FinshVar} {type : FinshType} {ts₁ ts₂ : List FinshToken} {t : Forest FinshLabel} : CastType ts₁ type →
      DerivesDeclarators lookup type vars ts₂ t vars' → DerivesItem vars ⟨ts₁ ++ (ts₂ ++ [.semicolon]), t⟩ vars'

inductive DerivesLine : List FinshVar → List FinshStatement → List FinshVar → Prop
  | nil {vars : List FinshVar} : DerivesLine vars [] vars
  | cons {vars vars₁ vars' : List FinshVar} {st : FinshStatement} {line : List FinshStatement} :
      DerivesItem lookup vars st vars₁ → DerivesLine vars₁ line vars' → DerivesLine vars (st :: line) vars'

end

def lineTokens (line : List FinshStatement) : List FinshToken := line.flatMap FinshStatement.tokens

def lineTrees (line : List FinshStatement) : List (Forest FinshNodeType) :=
  (line.flatMap fun st => st.trees.trees).map (Forest.map Prod.fst)

/-! ## Tables -/

namespace FinshParser

def tables (s : FinshParser) : List FinshVar × List (List UInt8) × List (List UInt8) := (s.vars, s.sysvars, s.syscalls)

def withVars (s : FinshParser) (vars : List FinshVar) : FinshParser := { s with vars := vars }

theorem lookup_of_tables {s s' : FinshParser} (h : s'.tables = s.tables) : s'.lookup = s.lookup := by
  obtain ⟨hvars, hrest⟩ := Prod.mk.inj h
  obtain ⟨hsysvars, hsyscalls⟩ := Prod.mk.inj hrest
  funext name
  rw [lookup, lookup, hvars, hsysvars, hsyscalls]

theorem tables_withVars {s s' : FinshParser} (h : s'.tables = s.tables) (vars : List FinshVar) :
    (s'.withVars vars).tables = (s.withVars vars).tables := by
  obtain ⟨-, hrest⟩ := Prod.mk.inj h
  exact congrArg (Prod.mk vars) hrest

end FinshParser

instance (tables : List FinshVar × List (List UInt8) × List (List UInt8)) : Lasting fun s => s.tables = tables :=
  ⟨fun _ _ _ _ => id, fun _ _ => id, fun _ _ => id⟩

theorem tables_of_run {α : Type} {x : Parse α} {s s' : FinshParser} {a : α} (hx : ∀ tables, Sticky (fun s => s.tables = tables) x)
    (hrun : x s = some (a, s')) : s'.tables = s.tables :=
  (hx s'.tables s a s' hrun rfl).symm

theorem Built.withVars {s₀ s : FinshParser} {p₁ p₂ : Option Nat} {t₁ t₂ : Forest FinshLabel} (h : Built s₀ s p₁ t₁ p₂ t₂)
    (htables : s.tables = s₀.tables) (vars : List FinshVar) : Built (s₀.withVars vars) (s.withVars vars) p₁ t₁ p₂ t₂ :=
  ⟨lookup_of_tables (tables_withVars htables vars), h.nodeMax, h.le, h.old, h.stored⟩

/-! ## Declarations -/

/-- Since `s₀` these initializers have been built, from `node` to `last`. -/
structure DeclBuilt (s₀ s : FinshParser) (node last : Option Nat) (t : Forest FinshLabel) : Prop where
  tables : s.tables = s₀.tables
  noError : s.NoError
  size : s.nodes.length = s₀.nodes.length + t.size
  list : node = none ∧ last = none ∧ t = .nil ∧ BuiltOne s₀ s none .nil ∨
    ∃ p q, node = some p ∧ last = some q ∧ BuiltList s₀ s (some p) t q

namespace DeclBuilt

variable {s₀ s s₁ : FinshParser} {node last : Option Nat} {t t₂ : Forest FinshLabel}

theorem next (h : DeclBuilt s₀ s node last t) : DeclBuilt s₀ s.next node last t :=
  ⟨h.tables, h.noError, h.size, h.list.imp (fun ⟨hnode, hlast, ht, hbuilt⟩ => ⟨hnode, hlast, ht, hbuilt.next⟩)
    fun ⟨p, q, hnode, hlast, hlist⟩ => ⟨p, q, hnode, hlast, hlist.lookup, hlist.nodeMax, hlist.le, hlist.old, hlist.stored⟩⟩

theorem withVars (h : DeclBuilt s₀ s node last t) (vars : List FinshVar) : DeclBuilt (s₀.withVars vars) (s.withVars vars) node last t := by
  refine ⟨tables_withVars h.tables vars, h.noError, h.size, ?_⟩
  rcases h.list with ⟨hnode, hlast, ht, hbuilt⟩ | ⟨p, q, hnode, hlast, hlist⟩
  · exact .inl ⟨hnode, hlast, ht, hbuilt.withVars h.tables vars⟩
  · exact .inr ⟨p, q, hnode, hlast, lookup_of_tables (tables_withVars h.tables vars), hlist.nodeMax, hlist.le, hlist.old, hlist.stored⟩

theorem built (h : DeclBuilt s₀ s node last t) : BuiltOne s₀ s node t := by
  rcases h.list with ⟨rfl, -, rfl, hbuilt⟩ | ⟨p, q, rfl, -, hlist⟩
  · exact hbuilt
  · exact hlist.built

theorem nodeMax (h : DeclBuilt s₀ s node last t) : s.nodeMax = s₀.nodeMax := h.built.nodeMax

theorem add {q : Nat} (h : DeclBuilt s₀ s node last t) (hbuilt : BuiltOne s s₁ (some q) t₂) (htree : t₂.IsTree)
    (htables : s₁.tables = s.tables) (hgood : s₁.NoError) (hsize : s₁.nodes.length = s.nodes.length + t₂.size) :
    ∃ s₂, linkInitializer node last (some q) s₁ = some ((), s₂) ∧ s₂.pending = s₁.pending ∧
      DeclBuilt s₀ s₂ (if node = none then some q else node) (some q) (t.append t₂) := by
  have hsum : s₁.nodes.length = s₀.nodes.length + (t.append t₂).size := by
    rw [hsize, h.size, Forest.size_append, Nat.add_assoc]
  rcases h.list with ⟨rfl, rfl, rfl, hnone⟩ | ⟨p, l, rfl, rfl, hlist⟩
  · refine ⟨s₁, rfl, rfl, htables.trans h.tables, hgood, hsum, .inr ⟨q, q, rfl, rfl, ?_⟩⟩
    exact .single (hnone.trans hbuilt).swap htree
  · refine ⟨s₁.withSibling l (some q), rfl, rfl, htables.trans h.tables, hgood, ?_, .inr ⟨p, q, rfl, rfl, hlist.add hbuilt htree⟩⟩
    rw [withSibling, List.length_modify]
    exact hsum

end DeclBuilt

section

variable {base s₀ s : FinshParser} {node last : Option Nat} {t t₂ : Forest FinshLabel} {n : Nat} {rest : Stream' FinshToken}
  {ts : List FinshToken} {name : List UInt8} {id : FinshId} {type : FinshType} {vars vars' : List FinshVar}

theorem procDeclarator_run (hpeek : s.peek = .identifier name) (hvars : insertVar s.vars name type = some vars') :
    procDeclarator type s = some (name, s.next.withVars vars') := by
  have hinsert : ∃ n, varInsert name type s.next = some (some n, s.next.withVars vars') := by
    rw [insertVar] at hvars
    split_ifs at hvars with hany
    obtain ⟨empty, hempty, rfl⟩ := Option.map_eq_some_iff.1 hvars
    refine ⟨empty, ?_⟩
    have hempty' : s.next.vars.findIdx? (fun var => decide (var.type = .unknown)) = some empty := hempty
    rw [varInsert, if_neg (show ¬ s.next.vars.any _ = true from hany), hempty']
    rfl
  obtain ⟨n, hinsert⟩ := hinsert
  rw [procDeclarator, bind_run (procIdentifier_run hpeek), bind_run hinsert]
  rfl

theorem procInitializer_run (h : DeclBuilt s₀ s node last t) (hid : s.lookup name = some id)
    (hderives : Derives (plainGrammar s.lookup) .assign ts t₂) (hpending : s.pending = ts ++ₛ rest) (hstops : Stops .assign rest.head)
    (hfuel : 2 * ts.length + 2 ≤ n) (hroom : s.nodes.length + (t₂.size + 2) ≤ s.nodeMax) :
    ∃ node' last' s', procInitializer n name node last s = some ((node', last', rest.head), s') ∧
      DeclBuilt s₀ s' node' last' (t.append (sysNode .assign ((leaf (.id id)).append t₂))) ∧ s'.pending = rest.tail := by
  have hready : Ready s.lookup s t₂.size := ⟨rfl, h.noError, by omega⟩
  obtain ⟨a, s₁, hrun, hconsumed⟩ := (complete_of_derives hderives).completes n s rest hfuel hready hpending hstops
  change procAssignExpr n s = _ at hrun
  have htables : s₁.tables = s.tables := tables_of_run (fun _ => (sticky_exprs n).2) hrun
  have hroom₁ : s₁.nodes.length + 2 ≤ s₁.nodeMax := by
    rw [hconsumed.size, hconsumed.built.nodeMax]
    omega
  have hidnode : nodeNewId name s₁ = some (some s₁.nodes.length, s₁.allocated (.id id)) :=
    nodeNewId_run ((congrFun hconsumed.lookup name).trans hid) (by omega)
  have hlength : (s₁.allocated (.id id)).nodes.length = s₁.nodes.length + 1 := by simp [allocated]
  have hnode := makeSysNode_run (s := s₁.allocated (.id id)) (by rw [hlength]; exact hroom₁) .assign s₁.nodes.length (some a)
  have hbuilt : BuiltOne s ((s₁.allocated (.id id)).linked .assign s₁.nodes.length (some a)) (some (s₁.allocated (.id id)).nodes.length)
      (sysNode .assign ((leaf (.id id)).append t₂)) :=
    (hconsumed.built.trans (Built.leaf s₁ (.id id))).swap.sysNode (isTree_leaf _) .assign
  have hsize : ((s₁.allocated (.id id)).linked .assign s₁.nodes.length (some a)).nodes.length =
      s.nodes.length + (sysNode .assign ((leaf (.id id)).append t₂)).size := by
    rw [length_linked, hlength, hconsumed.size, size_sysNode, Forest.size_append, size_leaf]
    omega
  obtain ⟨s₂, hlink, hpending₂, hdecl⟩ := h.add hbuilt (isTree_sysNode _ _) htables hconsumed.noError hsize
  have hrest : s₂.pending = rest := hpending₂.trans hconsumed.pending
  refine ⟨_, _, s₂.next, ?_, hdecl.next, by rw [pending_next, hrest]⟩
  rw [procInitializer, bind_run hrun, if_neg (Option.some_ne_none _), bind_run hidnode, bind_run hnode, bind_run hlink,
    bind_run s₂.nextToken_run, ← head_pending, hrest]
  rfl

def declRest (type : FinshType) (n : Nat) (node last : Option Nat) : Parse (Option Nat × FinshToken) := do
  let id ← procDeclarator type
  let token ← nextToken
  if token = .assign then
    let (node, last, token) ← procInitializer n id node last
    declLoop type n node last token
  else declLoop type n node last token

theorem declLoop_comma : declLoop type (n + 1) node last .comma = declRest type n node last := by
  rw [declLoop, if_pos rfl]
  rfl

theorem declLoop_semicolon : declLoop type (n + 1) node last .semicolon s = some ((node, .semicolon), s) := rfl

/-- Before a declarator the parser is like `base` with these variables. -/
structure DeclReady (base : FinshParser) (vars : List FinshVar) (s : FinshParser) (room : Nat) : Prop where
  tables : s.tables = (base.withVars vars).tables
  room : s.nodes.length + room ≤ s.nodeMax

theorem DeclReady.next {s' : FinshParser} {node' last' : Option Nat} {room : Nat} (hready : DeclReady base vars s (t₂.size + room))
    (hbuilt : DeclBuilt s₀ s node last t) (hdecl : DeclBuilt (s₀.withVars vars') s' node' last' (t.append t₂)) :
    DeclReady base vars' s' room := by
  refine ⟨?_, ?_⟩
  · rw [hdecl.tables, ← tables_withVars hbuilt.tables vars']
    exact tables_withVars hready.tables vars'
  · have hroom := hready.room
    have hsize := hdecl.size
    have hmax : s'.nodeMax = s₀.nodeMax := hdecl.nodeMax
    rw [hmax, ← hbuilt.nodeMax, hsize, Forest.size_append, ← Nat.add_assoc]
    change s₀.nodes.length + t.size + t₂.size + room ≤ _
    rw [← hbuilt.size]
    omega

theorem declarator_run (h : DerivesDeclarator (fun vars => (base.withVars vars).lookup) type vars ts t₂ vars')
    (hready : DeclReady base vars s t₂.size) (hbuilt : DeclBuilt s₀ s node last t) (hpending : s.pending = ts ++ₛ rest)
    (hhead : rest.head = .comma ∨ rest.head = .semicolon) (hfuel : 2 * ts.length ≤ n) :
    ∃ node' last' s', declRest type n node last s = declLoop type n node' last' rest.head s' ∧
      DeclBuilt (s₀.withVars vars') s' node' last' (t.append t₂) ∧ s'.pending = rest.tail := by
  have hvars : s.vars = vars := (Prod.mk.inj hready.tables).1
  have hstops : Stops .assign rest.head := by
    rcases hhead with hhead | hhead <;> rw [Stops, hhead] <;> decide
  have hassign : rest.head ≠ .assign := by
    rcases hhead with hhead | hhead <;> rw [hhead] <;> decide
  cases h with
  | @plain _ name hinsert =>
    obtain ⟨hpeek, hrest⟩ := peek_of_pending hpending
    have hrun := procDeclarator_run hpeek (hvars.symm ▸ hinsert)
    have hnext : (s.next.withVars vars').peek = rest.head := by
      rw [← head_pending]
      exact congrArg Stream'.head hrest
    refine ⟨node, last, (s.next.withVars vars').next, ?_, ?_, ?_⟩
    · rw [declRest, bind_run hrun, bind_run (s.next.withVars vars').nextToken_run, hnext, if_neg hassign]
    · rw [Forest.append_nil]
      exact (hbuilt.next.withVars vars').next
    · rw [pending_next]
      exact congrArg Stream'.tail hrest
  | @initialized _ name id ts t₂ hinsert hid hderives =>
    obtain ⟨hpeek, hrest⟩ := peek_of_pending hpending
    obtain ⟨hpeek', hrest'⟩ := peek_of_pending hrest
    have hrun := procDeclarator_run hpeek (hvars.symm ▸ hinsert)
    have hlookup : ((s.next.withVars vars').next).lookup = (base.withVars vars').lookup :=
      lookup_of_tables (tables_withVars hready.tables vars')
    have hroom := hready.room
    rw [size_sysNode, Forest.size_append, size_leaf] at hroom
    have hfuel' : 2 * ts.length + 2 ≤ n := by
      simp only [List.length_cons] at hfuel
      omega
    have hroom' : s.nodes.length + (t₂.size + 2) ≤ s.nodeMax := by omega
    obtain ⟨node', last', s', hinit, hdecl, hpending'⟩ := procInitializer_run (hbuilt.next.withVars vars').next
      ((congrFun hlookup name).trans hid) (hlookup ▸ hderives) hrest' hstops hfuel' hroom'
    have hnext : (s.next.withVars vars').peek = .assign := hpeek'
    refine ⟨node', last', s', ?_, hdecl, hpending'⟩
    rw [declRest, bind_run hrun, bind_run (s.next.withVars vars').nextToken_run, hnext, if_pos rfl, bind_run hinit]

theorem declarators_run (h : DerivesDeclarators (fun vars => (base.withVars vars).lookup) type vars ts t₂ vars') :
    ∀ {s₀ s : FinshParser} {node last : Option Nat} {t : Forest FinshLabel} {n : Nat}, DeclReady base vars s t₂.size →
      DeclBuilt s₀ s node last t → s.pending = ts ++ₛ rest → rest.head = .semicolon → 2 * ts.length + 1 ≤ n →
      ∃ node' last' s', declRest type n node last s = some ((node', .semicolon), s') ∧
        DeclBuilt (s₀.withVars vars') s' node' last' (t.append t₂) ∧ s'.pending = rest.tail := by
  induction h generalizing rest with
  | @one vars vars' ts t₂ h =>
    intro s₀ s node last t n hready hbuilt hpending hhead hfuel
    obtain ⟨node', last', s', hrun, hdecl, hpending'⟩ := declarator_run (n := n) h hready hbuilt hpending (.inr hhead) (by omega)
    obtain ⟨n, rfl⟩ : ∃ k, n = k + 1 := ⟨n - 1, by omega⟩
    exact ⟨node', last', s', by rw [hrun, hhead, declLoop_semicolon], hdecl, hpending'⟩
  | @more vars vars₁ vars' ts₁ ts₂ t₁ t₂ h _ ih =>
    intro s₀ s node last t n hready hbuilt hpending hhead hfuel
    rw [Forest.size_append] at hready
    rw [Stream'.append_append_stream] at hpending
    rw [List.length_append, List.length_cons] at hfuel
    have hready₁ : DeclReady base vars s t₁.size := ⟨hready.tables, by have := hready.room; omega⟩
    obtain ⟨node₁, last₁, s₁, hrun, hdecl, hpending₁⟩ := declarator_run (n := n) h hready₁ hbuilt hpending (.inl rfl) (by omega)
    obtain ⟨n, rfl⟩ : ∃ k, n = k + 1 := ⟨n - 1, by omega⟩
    obtain ⟨node', last', s', hrun', hdecl', hpending'⟩ := ih (n := n) (hready.next hbuilt hdecl) hdecl hpending₁ hhead (by omega)
    refine ⟨node', last', s', ?_, ?_, hpending'⟩
    · rw [hrun]
      change declLoop type (n + 1) node₁ last₁ .comma s₁ = _
      rw [declLoop_comma, hrun']
    · rw [← Forest.append_assoc]
      exact hdecl'

theorem DerivesDeclarators.head {lookup : List FinshVar → List UInt8 → Option FinshId} (h : DerivesDeclarators lookup type vars ts t vars') :
    ∃ name vars₁ ts', ts = .identifier name :: ts' ∧ insertVar vars name type = some vars₁ ∧
      ∀ token ts'', ts' ++ [.semicolon] = token :: ts'' → token = .comma ∨ token = .assign ∨ token = .semicolon := by
  have hone {vars vars' : List FinshVar} {ts : List FinshToken} {t : Forest FinshLabel} (h : DerivesDeclarator lookup type vars ts t vars') :
      ∃ name vars₁ ts', ts = .identifier name :: ts' ∧ insertVar vars name type = some vars₁ ∧ (ts' = [] ∨ ∃ ts'', ts' = .assign :: ts'') := by
    cases h with
    | @plain _ name hinsert => exact ⟨name, _, [], rfl, hinsert, .inl rfl⟩
    | @initialized _ name id ts t hinsert hid hderives => exact ⟨name, _, _, rfl, hinsert, .inr ⟨_, rfl⟩⟩
  cases h with
  | one h =>
    obtain ⟨name, vars₁, ts', rfl, hinsert, rfl | ⟨ts'', rfl⟩⟩ := hone h
    · exact ⟨name, vars₁, [], rfl, hinsert, fun _ _ heq => .inr (.inr (List.cons.inj heq).1.symm)⟩
    · exact ⟨name, vars₁, _, rfl, hinsert, fun _ _ heq => .inr (.inl (List.cons.inj heq).1.symm)⟩
  | more h =>
    obtain ⟨name, vars₁, ts', rfl, hinsert, rfl | ⟨ts'', rfl⟩⟩ := hone h
    · exact ⟨name, vars₁, _, rfl, hinsert, fun _ _ heq => .inl (List.cons.inj heq).1.symm⟩
    · exact ⟨name, vars₁, _, rfl, hinsert, fun _ _ heq => .inr (.inl (List.cons.inj heq).1.symm)⟩

theorem procVariableDecl_eq {s₁ s₂ s' : FinshParser} (hn : 0 < n) (htype : procType s = some (type, s₁))
    (hid : procDeclarator type s₁ = some (name, s₂)) (hpeek : s₂.peek = .comma ∨ s₂.peek = .assign ∨ s₂.peek = .semicolon)
    (hrun : declRest type n none none s₁ = some ((node, .semicolon), s')) : procVariableDecl n s = some (node, s') := by
  rw [declRest, bind_run hid, bind_run s₂.nextToken_run] at hrun
  rw [procVariableDecl, bind_run htype, bind_run hid, bind_run s₂.nextToken_run]
  rcases hpeek with hpeek | hpeek | hpeek
  · rw [hpeek, if_neg (fun hno => nomatch hno)] at hrun
    rw [hpeek]
    change (declLoop type n none none .comma >>= _) s₂.next = _
    rw [bind_run hrun]
    rfl
  · rw [hpeek, if_pos rfl] at hrun
    rw [hpeek]
    obtain ⟨⟨node₁, last₁, token⟩, s₃, hinit, hloop⟩ := bind_eq_some hrun
    change (procInitializer n name none none >>= _) s₂.next = _
    rw [bind_run hinit]
    change (declLoop type n node₁ last₁ token >>= _) s₃ = _
    rw [bind_run hloop]
    rfl
  · rw [hpeek, if_neg (fun hno => nomatch hno)] at hrun
    rw [hpeek]
    obtain ⟨n, rfl⟩ : ∃ k, n = k + 1 := ⟨n - 1, by omega⟩
    rw [declLoop_semicolon] at hrun
    obtain ⟨hnode, hs⟩ := Prod.mk.inj (Option.some.inj hrun)
    rw [← (Prod.mk.inj hnode).1, ← hs]
    rfl

/-- Between two statements: the tokens of the statement have been taken and its trees have been built. -/
structure Wrote (s : FinshParser) (vars' : List FinshVar) (rest : Stream' FinshToken) (t : Forest FinshLabel) (p : Option Nat)
    (s' : FinshParser) : Prop where
  tables : s'.tables = (s.withVars vars').tables
  consumed : Consumed (s.withVars vars') rest t p s'

theorem procVariableDecl_run {ts₁ ts₂ : List FinshToken} (hgood : s.NoError) (htype : CastType ts₁ type)
    (h : DerivesDeclarators (fun vars => (s.withVars vars).lookup) type s.vars ts₂ t vars')
    (hpending : s.pending = (ts₁ ++ (ts₂ ++ [.semicolon])) ++ₛ rest) (hroom : s.nodes.length + t.size ≤ s.nodeMax)
    (hfuel : 2 * ts₂.length + 1 ≤ n) : ∃ p s', procVariableDecl n s = some (p, s') ∧ Wrote s vars' rest t p s' := by
  obtain ⟨name, vars₁, ts', rfl, hinsert, hnext⟩ := h.head
  rw [Stream'.append_append_stream] at hpending
  obtain ⟨s₁, hrun₁, hconsumed⟩ := procType_run htype hgood hpending (fun hno => nomatch hno)
  have htables : s₁.tables = s.tables := tables_of_run (fun _ => sticky_procType) hrun₁
  have hbuilt : DeclBuilt s s₁ none none .nil := ⟨htables, hconsumed.noError, hconsumed.size, .inl ⟨rfl, rfl, rfl, hconsumed.built⟩⟩
  have hpending₁ := hconsumed.pending
  have hready : DeclReady s s.vars s₁ t.size := by
    refine ⟨htables, ?_⟩
    rw [hconsumed.size, hconsumed.built.nodeMax]
    exact hroom
  rw [Stream'.append_append_stream] at hpending₁
  obtain ⟨node', last', s', hrun, hdecl, hpending'⟩ := declarators_run h hready hbuilt hpending₁ rfl hfuel
  obtain ⟨hpeek, hrest⟩ := peek_of_pending hpending₁
  have hid := procDeclarator_run hpeek ((Prod.mk.inj htables).1.symm ▸ hinsert)
  refine ⟨node', s', procVariableDecl_eq (by omega) hrun₁ hid ?_ hrun, hdecl.tables, hpending', hdecl.noError, hdecl.size, hdecl.built⟩
  obtain ⟨token, ts'', heq⟩ : ∃ token ts'', ts' ++ [.semicolon] = token :: ts'' := by
    cases ts' with
    | nil => exact ⟨_, _, rfl⟩
    | cons token ts' => exact ⟨_, _, rfl⟩
  have hpeek₂ : (s₁.next.withVars vars₁).peek = token := by
    rw [← head_pending]
    change s₁.next.pending.head = token
    rw [hrest, ← Stream'.append_append_stream, heq]
    rfl
  rw [hpeek₂]
  exact hnext token ts'' heq

theorem procExprStatement_run (hgood : s.NoError) (h : Derives (plainGrammar s.lookup) .assign ts t)
    (hpending : s.pending = (ts ++ [.semicolon]) ++ₛ rest) (hroom : s.nodes.length + t.size ≤ s.nodeMax) (hfuel : 2 * ts.length + 4 ≤ n) :
    ∃ p s', procExprStatement n s = some (p, s') ∧ Wrote s s.vars rest t p s' := by
  have hfuel' : 2 * (ts ++ [FinshToken.semicolon]).length + 2 ≤ n := by
    simp only [List.length_append, List.length_singleton]
    omega
  obtain ⟨p, s', hrun, hconsumed⟩ := procExprStatement_completes (.expr h) hfuel' ⟨rfl, hgood, hroom⟩ hpending
  exact ⟨p, s', hrun, tables_of_run (fun _ => sticky_procExprStatement n) hrun, hconsumed⟩

end

end RtThread
