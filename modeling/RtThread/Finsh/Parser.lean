import Mathlib

/-!
# The parser of finsh

`finsh_parser.c` over `finsh_token.c`, `finsh_node.c` and `finsh_var.c`: the functions from `proc_type` to `finsh_parser_run`, with the token that can be put back and the tables of nodes and variables. What the scanner makes of a line is a stream of tokens, from some point on `eof`.

Names are shorter than `FINSH_NAME_MAX`, and there is memory for the text of a string. The name that `proc_identifier` leaves behind when there is none is the empty one; an error is set then.

The recursions and loops count fuel.
-/

namespace RtThread

/-- `enum finsh_token_type`, with the value or the text of the token. -/
inductive FinshToken
  | leftParen | rightParen | comma | semicolon | mul | add | inc | sub | dec | div | mod | assign | and | or | xor | bitwise | shl | shr
  | void | char | short | int | long | unsigned
  | valueChar (c : BitVec 8)
  | valueInt (i : BitVec 32)
  | valueLong (l : BitVec 32)
  | valueString (string : List UInt8)
  | valueNull
  | identifier (name : List UInt8)
  | bad | eof
  deriving DecidableEq

/-- `enum finsh_type` -/
inductive FinshType
  | unknown | void | voidp | char | uchar | charp | short | ushort | shortp | int | uint | intp | long | ulong | longp
  deriving DecidableEq

/-- `FINSH_NODE_SYS_*` -/
inductive FinshSys
  | add | sub | mul | div | mod | and | or | xor | bitwise | shl | shr | func | assign | preinc | predec | inc | dec | getvalue | getaddr
  deriving DecidableEq

inductive FinshId
  | var (n : Nat)
  | sysvar (n : Nat)
  | syscall (n : Nat)
  deriving DecidableEq

/-- `node_type`, with the value or the identifier of the node. -/
inductive FinshNodeType
  | id (id : FinshId)
  | valueChar (c : BitVec 8)
  | valueInt (i : BitVec 32)
  | valueLong (l : BitVec 32)
  | valueString (string : List UInt8)
  | valueNull
  | sys (op : FinshSys)
  deriving DecidableEq

/-- `struct finsh_node` -/
structure FinshNode where
  nodeType : FinshNodeType
  dataType : FinshType
  sibling : Option Nat
  child : Option Nat
  deriving DecidableEq

/-- `FINSH_ERROR_*`, as far as the parser sets them. -/
inductive FinshError
  | invalidToken | expectType | unknownType | variableExist | expectOperator | memoryFull | unknownSymbol | nullNode
  deriving DecidableEq

/-- `struct finsh_var` without its value. -/
structure FinshVar where
  name : List UInt8
  type : FinshType
  deriving DecidableEq

/-- `struct finsh_parser` with the tables and the error that the parser works on. -/
structure FinshParser where
  toks : Stream' FinshToken
  currentToken : FinshToken
  replay : Bool
  nodes : List FinshNode
  nodeMax : Nat
  vars : List FinshVar
  sysvars : List (List UInt8)
  syscalls : List (List UInt8)
  errno : Option FinshError

abbrev Parse (α : Type) : Type := StateT FinshParser Option α

def outOfFuel {α : Type} : Parse α := fun _ => none

def nextToken : Parse FinshToken := fun s =>
  if s.replay = true then some (s.currentToken, { s with replay := false })
  else some (s.toks.head, { s with currentToken := s.toks.head, toks := s.toks.tail })

def tokenReplay : Parse Unit := fun s => some ((), { s with replay := true })

def errorSet (type : FinshError) : Parse Unit := fun s => some ((), { s with errno := some type })

def checkToken (token type : FinshToken) : Parse Unit :=
  if token ≠ type then do
    errorSet .invalidToken
    tokenReplay
  else pure ()

def matchToken (type : FinshToken) : Parse Unit := do
  let token ← nextToken
  checkToken token type

/-! ## Nodes and variables -/

def nodeAllocate (type : FinshNodeType) : Parse (Option Nat) := fun s =>
  if s.nodes.length < s.nodeMax then some (some s.nodes.length, { s with nodes := s.nodes ++ [⟨type, .unknown, none, none⟩] })
  else some (none, s)

/-- `finsh_node_new_char`, `_int`, `_long`, `_string` and `_ptr`. -/
def nodeNew (type : FinshNodeType) : Parse (Option Nat) := do
  match ← nodeAllocate type with
  | some node => return some node
  | none =>
    errorSet .memoryFull
    return none

/-- `finsh_var_lookup`, `finsh_sysvar_lookup` and `finsh_syscall_lookup`, one after the other. -/
def FinshParser.lookup (s : FinshParser) (name : List UInt8) : Option FinshId :=
  match s.vars.findIdx? fun var => decide (var.name = name) with
  | some n => some (.var n)
  | none =>
    match s.sysvars.findIdx? fun sysvar => decide (sysvar = name) with
    | some n => some (.sysvar n)
    | none => (s.syscalls.findIdx? fun syscall => decide (syscall = name)).map .syscall

def nodeNewId (name : List UInt8) : Parse (Option Nat) := do
  match (← get).lookup name with
  | some id => nodeNew (.id id)
  | none =>
    errorSet .unknownSymbol
    return none

def varInsert (name : List UInt8) (type : FinshType) : Parse (Option Nat) := fun s =>
  if s.vars.any fun var => decide (var.name = name) then some (none, s)
  else
    match s.vars.findIdx? fun var => decide (var.type = .unknown) with
    | none => some (none, s)
    | some empty => some (some empty, { s with vars := s.vars.set empty ⟨name, type⟩ })

/-- `finsh_node_sibling(node) = sibling` -/
def setSibling (node : Nat) (sibling : Option Nat) : Parse Unit := fun s =>
  some ((), { s with nodes := s.nodes.modify node fun n => { n with sibling := sibling } })

/-- `finsh_node_child(node) = child` -/
def setChild (node : Nat) (child : Option Nat) : Parse Unit := fun s =>
  some ((), { s with nodes := s.nodes.modify node fun n => { n with child := child } })

/-- `node->data_type = type` -/
def setDataType (node : Nat) (type : FinshType) : Parse Unit := fun s =>
  some ((), { s with nodes := s.nodes.modify node fun n => { n with dataType := type } })

def makeSysNode (op : FinshSys) (node1 node2 : Option Nat) : Parse (Option Nat) := do
  let node ← nodeAllocate (.sys op)
  match node1, node with
  | some p, some q =>
    setChild q (some p)
    setSibling p node2
    return some q
  | _, _ =>
    errorSet .nullNode
    return node

/-! ## Types -/

/-- `is_base_type`, with the type. -/
def FinshToken.baseType : FinshToken → Option FinshType
  | .void => some .void
  | .char => some .char
  | .short => some .short
  | .int => some .int
  | .long => some .long
  | _ => none

/-- The type of a base type behind `unsigned`. -/
def FinshToken.unsignedType : FinshToken → Option FinshType
  | .char => some .uchar
  | .short => some .ushort
  | .int => some .uint
  | .long => some .ulong
  | _ => none

/-- The type of a pointer, for `proc_type`. -/
def FinshType.pointer : FinshType → FinshType
  | .char | .uchar => .charp
  | .short | .ushort => .shortp
  | .int | .uint => .intp
  | .long | .ulong => .longp
  | _ => .voidp

/-- `proc_type` behind the name of the type. -/
def procPointer (type : FinshType) : Parse FinshType := do
  let token ← nextToken
  if token = .mul then
    return type.pointer
  else
    tokenReplay
    return type

/-- `proc_type` at `__return`. -/
def procUnknownType : Parse FinshType := do
  tokenReplay
  errorSet .unknownType
  return .unknown

def procType : Parse FinshType := do
  let token ← nextToken
  match token.baseType with
  | some type => procPointer type
  | none =>
    if token = .unsigned then
      let token ← nextToken
      if token.baseType.isSome = true then
        match token.unsignedType with
        | some type => procPointer type
        | none => procUnknownType
      else
        tokenReplay
        errorSet .expectType
        procPointer .unknown
    else procUnknownType

def procIdentifier : Parse (List UInt8) := do
  let token ← nextToken
  match token with
  | .identifier name => return name
  | _ =>
    errorSet .invalidToken
    tokenReplay
    return []

/-! ## Operators of one level -/

/-- The loop of the functions from `proc_inclusive_or_expr` to `proc_multiplicative_expr`; `operand` is the next function. -/
def operatorLoop (op : FinshToken → Option FinshSys) (operand : Parse (Option Nat)) :
    Nat → Option Nat → FinshToken → Parse (Option Nat)
  | 0, _, _ => outOfFuel
  | n + 1, node, token =>
    match op token with
    | none => do
      tokenReplay
      return node
    | some sys => do
      match ← operand with
      | none =>
        errorSet .expectOperator
        let token ← nextToken
        operatorLoop op operand n node token
      | some new =>
        let node ← makeSysNode sys node (some new)
        let token ← nextToken
        operatorLoop op operand n node token

def operatorExpr (op : FinshToken → Option FinshSys) (operand : Parse (Option Nat)) (n : Nat) : Parse (Option Nat) := do
  let node ← operand
  let token ← nextToken
  operatorLoop op operand n node token

def multiplicativeOp : FinshToken → Option FinshSys
  | .mul => some .mul
  | .div => some .div
  | .mod => some .mod
  | _ => none

def additiveOp : FinshToken → Option FinshSys
  | .sub => some .sub
  | .add => some .add
  | _ => none

def shiftOp : FinshToken → Option FinshSys
  | .shl => some .shl
  | .shr => some .shr
  | _ => none

def andOp : FinshToken → Option FinshSys
  | .and => some .and
  | _ => none

def xorOp : FinshToken → Option FinshSys
  | .xor => some .xor
  | _ => none

def orOp : FinshToken → Option FinshSys
  | .or => some .or
  | _ => none

/-- `proc_multiplicative_expr`, on `proc_cast_expr`. -/
def procMultiplicativeExpr (cast : Parse (Option Nat)) (n : Nat) : Parse (Option Nat) := operatorExpr multiplicativeOp cast n

def procAdditiveExpr (cast : Parse (Option Nat)) (n : Nat) : Parse (Option Nat) :=
  operatorExpr additiveOp (procMultiplicativeExpr cast n) n

def procShiftExpr (cast : Parse (Option Nat)) (n : Nat) : Parse (Option Nat) := operatorExpr shiftOp (procAdditiveExpr cast n) n

def procAndExpr (cast : Parse (Option Nat)) (n : Nat) : Parse (Option Nat) := operatorExpr andOp (procShiftExpr cast n) n

def procExclusiveOrExpr (cast : Parse (Option Nat)) (n : Nat) : Parse (Option Nat) := operatorExpr xorOp (procAndExpr cast n) n

def procInclusiveOrExpr (cast : Parse (Option Nat)) (n : Nat) : Parse (Option Nat) := operatorExpr orOp (procExclusiveOrExpr cast n) n

/-! ## Operands -/

/-- The loop of `proc_param_list`, behind the parameter `assign`. -/
def paramLoop (assignExpr : Parse (Option Nat)) : Nat → Nat → FinshToken → Parse Unit
  | 0, _, _ => outOfFuel
  | n + 1, assign, token =>
    if token = .comma then do
      let next ← assignExpr
      setSibling assign next
      match next with
      | some next =>
        let token ← nextToken
        paramLoop assignExpr n next token
      | none =>
        errorSet .expectOperator
        let token ← nextToken
        paramLoop assignExpr n assign token
    else tokenReplay

def procParamList (assignExpr : Parse (Option Nat)) (n : Nat) : Parse (Option Nat) := do
  match ← assignExpr with
  | none => return none
  | some assign =>
    let token ← nextToken
    paramLoop assignExpr n assign token
    return some assign

def procPrimaryExpr (assignExpr : Parse (Option Nat)) : Parse (Option Nat) := do
  let token ← nextToken
  match token with
  | .identifier _ =>
    tokenReplay
    let id ← procIdentifier
    nodeNewId id
  | .leftParen =>
    let expr ← assignExpr
    matchToken .rightParen
    return expr
  | .valueInt i => nodeNew (.valueInt i)
  | .valueLong l => nodeNew (.valueLong l)
  | .valueChar c => nodeNew (.valueChar c)
  | .valueString string => nodeNew (.valueString string)
  | .valueNull => nodeNew .valueNull
  | _ =>
    errorSet .invalidToken
    return none

/-- The parameters of a call behind `(`, for `proc_postfix_expr`. -/
def procArguments (assignExpr : Parse (Option Nat)) (n : Nat) : Parse (Option Nat) := do
  let token ← nextToken
  if token ≠ .rightParen then
    tokenReplay
    let paramList ← procParamList assignExpr n
    matchToken .rightParen
    return paramList
  else return none

/-- The loop of `proc_postfix_expr`. -/
def postfixLoop (arguments : Parse (Option Nat)) : Nat → Option Nat → FinshToken → Parse (Option Nat)
  | 0, _, _ => outOfFuel
  | n + 1, node, token =>
    match token with
    | .inc => do
      let node ← makeSysNode .inc node none
      let token ← nextToken
      postfixLoop arguments n node token
    | .dec => do
      let node ← makeSysNode .dec node none
      let token ← nextToken
      postfixLoop arguments n node token
    | .leftParen => do
      let paramList ← arguments
      let node ← makeSysNode .func node paramList
      let token ← nextToken
      postfixLoop arguments n node token
    | _ => do
      tokenReplay
      return node

def procPostfixExpr (assignExpr : Parse (Option Nat)) (n : Nat) : Parse (Option Nat) := do
  let node ← procPrimaryExpr assignExpr
  let token ← nextToken
  postfixLoop (procArguments assignExpr n) n node token

/-- The operators of `proc_unary_expr` that make a node of their own with one child. -/
def unaryOp : FinshToken → Option FinshSys
  | .inc => some .preinc
  | .dec => some .predec
  | .bitwise => some .bitwise
  | .mul => some .getvalue
  | .and => some .getaddr
  | _ => none

def procUnaryExpr (castExpr assignExpr : Parse (Option Nat)) (n : Nat) : Parse (Option Nat) := do
  let token ← nextToken
  if token = .add then castExpr
  else if token = .sub then
    let cast ← castExpr
    let zero ← nodeNew (.valueLong 0)
    makeSysNode .sub zero cast
  else
    match unaryOp token with
    | some op =>
      let cast ← castExpr
      makeSysNode op cast none
    | none =>
      tokenReplay
      procPostfixExpr assignExpr n

mutual

def procCastExpr : Nat → Parse (Option Nat)
  | 0 => outOfFuel
  | n + 1 => do
    let token ← nextToken
    if token = .leftParen then
      let type ← procType
      matchToken .rightParen
      match ← procCastExpr n with
      | some cast =>
        setDataType cast type
        return some cast
      | none =>
        tokenReplay
        procUnaryExpr (procCastExpr n) (procAssignExpr n) n
    else
      tokenReplay
      procUnaryExpr (procCastExpr n) (procAssignExpr n) n

def procAssignExpr : Nat → Parse (Option Nat)
  | 0 => outOfFuel
  | n + 1 => do
    let or ← procInclusiveOrExpr (procCastExpr n) n
    let token ← nextToken
    if token = .assign then
      let assign ← procAssignExpr n
      makeSysNode .assign or assign
    else
      tokenReplay
      return or

end

def procExpr (n : Nat) : Parse (Option Nat) := procAssignExpr n

/-! ## Statements -/

def procExprStatement (n : Nat) : Parse (Option Nat) := do
  let token ← nextToken
  if token ≠ .semicolon then
    tokenReplay
    let expr ← procExpr n
    matchToken .semicolon
    return expr
  else return none

/-- A declarator of `proc_variable_decl`. -/
def procDeclarator (type : FinshType) : Parse (List UInt8) := do
  let id ← procIdentifier
  match ← varInsert id type with
  | some _ => return id
  | none =>
    errorSet .variableExist
    return id

/-- `finsh_node_sibling(end) = new`, if there is a node already. -/
def linkInitializer (node last new : Option Nat) : Parse Unit :=
  match node, last with
  | some _, some last => setSibling last new
  | _, _ => pure ()

/-- An initializer of `proc_variable_decl` goes behind `end`, or is the first one: `node`, `end` and the next token. -/
def procInitializer (n : Nat) (id : List UInt8) (node last : Option Nat) : Parse (Option Nat × Option Nat × FinshToken) := do
  let assign ← procAssignExpr n
  if assign = none then return (node, last, .assign)
  else
    let idnode ← nodeNewId id
    let new ← makeSysNode .assign idnode assign
    linkInitializer node last new
    let token ← nextToken
    return (if node = none then new else node, new, token)

/-- The loops of `proc_variable_decl`, and the token behind them. -/
def declLoop (type : FinshType) : Nat → Option Nat → Option Nat → FinshToken → Parse (Option Nat × FinshToken)
  | 0, _, _, _ => outOfFuel
  | n + 1, node, last, token =>
    if token = .comma then do
      let id ← procDeclarator type
      let token ← nextToken
      if token = .assign then
        let (node, last, token) ← procInitializer n id node last
        declLoop type n node last token
      else declLoop type n node last token
    else return (node, token)

/-- `proc_variable_decl`; its branch for `,` does with the second declarator what its loop does with the next ones. -/
def procVariableDecl (n : Nat) : Parse (Option Nat) := do
  let type ← procType
  let id ← procDeclarator type
  let token ← nextToken
  match token with
  | .comma =>
    let (node, token) ← declLoop type n none none token
    checkToken token .semicolon
    return node
  | .assign =>
    let (node, last, token) ← procInitializer n id none none
    let (node, token) ← declLoop type n node last token
    checkToken token .semicolon
    return node
  | .semicolon => return none
  | _ =>
    errorSet .expectType
    return none

/-- Behind a statement without a node that begins with neither an identifier nor a type, a token is left out. -/
def skipToken (token : FinshToken) (new : Option Nat) : Parse Unit :=
  match new, token with
  | some _, _ => pure ()
  | none, .identifier _ => pure ()
  | none, _ => if token.baseType.isSome = true ∨ token = .unsigned then pure () else discard nextToken

/-- `finsh_parser_run` behind the token that a statement begins with: the root. -/
def parserRunLoop : Nat → Option Nat → Option Nat → FinshToken → Parse (Option Nat)
  | 0, _, _, _ => outOfFuel
  | n + 1, root, node, token =>
    if token = .eof ∨ token = .bad then return root
    else do
      tokenReplay
      let new ← if token.baseType.isSome = true ∨ token = .unsigned then procVariableDecl n else procExprStatement n
      match root, node with
      | some root, some node =>
        setSibling node new
        skipToken token new
        let token ← nextToken
        parserRunLoop n (some root) (some (new.getD node)) token
      | _, _ =>
        if new = none then return none
        else
          let token ← nextToken
          parserRunLoop n new new token

def finshParserRun (n : Nat) : Parse (Option Nat) := do
  let token ← nextToken
  parserRunLoop n none none token

end RtThread
