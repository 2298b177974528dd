import RtThread.Finsh.Parser
import RtThread.Lib.Forest

/-!
# The grammar of expressions

The grammar that stands above the parsing functions, with the tree of each derivation. What the functions do about types, the left side of an assignment, parentheses and missing parameters differs from the comments; these are parameters of a grammar.
-/

namespace RtThread

abbrev FinshLabel : Type := FinshNodeType × FinshType

def leaf (type : FinshNodeType) : Forest FinshLabel := .cons (type, .unknown) .nil .nil

def sysNode (op : FinshSys) (below : Forest FinshLabel) : Forest FinshLabel := .cons (.sys op, .unknown) below .nil

def retype (type : FinshType) : Forest FinshLabel → Forest FinshLabel
  | .nil => .nil
  | .cons (nodeType, _) below behind => .cons (nodeType, type) below behind

/-- The nonterminals, from `expr_assign` to `expr_primary`, and `param_list`. -/
inductive FinshLevel
  | assign | inclusiveOr | exclusiveOr | and | shift | additive | multiplicative | cast | unary | postfixed | primary | paramList
  deriving DecidableEq

namespace FinshLevel

def operand : FinshLevel → FinshLevel
  | assign => inclusiveOr
  | inclusiveOr => exclusiveOr
  | exclusiveOr => and
  | and => shift
  | shift => additive
  | additive => multiplicative
  | multiplicative => cast
  | cast => unary
  | unary => postfixed
  | postfixed => primary
  | primary => primary
  | paramList => assign

def op : FinshLevel → FinshToken → Option FinshSys
  | inclusiveOr => orOp
  | exclusiveOr => xorOp
  | and => andOp
  | shift => shiftOp
  | additive => additiveOp
  | multiplicative => multiplicativeOp
  | _ => fun _ => none

end FinshLevel

/-- `++` and `--` behind an operand. -/
def postfixOp : FinshToken → Option FinshSys
  | .inc => some .inc
  | .dec => some .dec
  | _ => none

def FinshToken.literal : FinshToken → Option FinshNodeType
  | .valueChar c => some (.valueChar c)
  | .valueInt i => some (.valueInt i)
  | .valueLong l => some (.valueLong l)
  | .valueString string => some (.valueString string)
  | .valueNull => some .valueNull
  | _ => none

structure FinshGrammar where
  lookup : List UInt8 → Option FinshId
  type : List FinshToken → FinshType → Prop
  assignTo : FinshLevel
  paren : Bool
  /-- A parameter before `,` may be missing. -/
  emptyParam : Bool

/-- The grammar derives these tokens, and this is the tree of the derivation: an operator above its operands, from left to right. -/
inductive Derives (g : FinshGrammar) : FinshLevel → List FinshToken → Forest FinshLabel → Prop
  | operand {level : FinshLevel} {ts : List FinshToken} {t : Forest FinshLabel} :
      Derives g level.operand ts t → Derives g level ts t
  | operator {level : FinshLevel} {ts₁ ts₂ : List FinshToken} {t₁ t₂ : Forest FinshLabel} {token : FinshToken} {sys : FinshSys} :
      level.op token = some sys → Derives g level ts₁ t₁ → Derives g level.operand ts₂ t₂ →
      Derives g level (ts₁ ++ token :: ts₂) (sysNode sys (t₁.append t₂))
  | assign {ts₁ ts₂ : List FinshToken} {t₁ t₂ : Forest FinshLabel} :
      Derives g g.assignTo ts₁ t₁ → Derives g .assign ts₂ t₂ →
      Derives g .assign (ts₁ ++ .assign :: ts₂) (sysNode .assign (t₁.append t₂))
  | cast {ts₁ ts₂ : List FinshToken} {t : Forest FinshLabel} {type : FinshType} :
      g.type ts₁ type → Derives g .cast ts₂ t → Derives g .cast (.leftParen :: (ts₁ ++ .rightParen :: ts₂)) (retype type t)
  | plus {ts : List FinshToken} {t : Forest FinshLabel} : Derives g .cast ts t → Derives g .unary (.add :: ts) t
  | minus {ts : List FinshToken} {t : Forest FinshLabel} :
      Derives g .cast ts t → Derives g .unary (.sub :: ts) (sysNode .sub ((leaf (.valueLong 0)).append t))
  | unary {ts : List FinshToken} {t : Forest FinshLabel} {token : FinshToken} {sys : FinshSys} :
      unaryOp token = some sys → Derives g .cast ts t → Derives g .unary (token :: ts) (sysNode sys t)
  | postfixed {ts : List FinshToken} {t : Forest FinshLabel} {token : FinshToken} {sys : FinshSys} :
      postfixOp token = some sys → Derives g .postfixed ts t → Derives g .postfixed (ts ++ [token]) (sysNode sys t)
  | call {ts₁ ts₂ : List FinshToken} {t₁ t₂ : Forest FinshLabel} :
      Derives g .postfixed ts₁ t₁ → Derives g .paramList ts₂ t₂ →
      Derives g .postfixed (ts₁ ++ .leftParen :: (ts₂ ++ [.rightParen])) (sysNode .func (t₁.append t₂))
  | callEmpty {ts : List FinshToken} {t : Forest FinshLabel} :
      Derives g .postfixed ts t → Derives g .postfixed (ts ++ [.leftParen, .rightParen]) (sysNode .func t)
  | params {ts₁ ts₂ : List FinshToken} {t₁ t₂ : Forest FinshLabel} :
      Derives g .paramList ts₁ t₁ → Derives g .assign ts₂ t₂ → Derives g .paramList (ts₁ ++ .comma :: ts₂) (t₁.append t₂)
  | emptyParam : g.emptyParam = true → Derives g .paramList [] .nil
  | identifier {name : List UInt8} {id : FinshId} : g.lookup name = some id → Derives g .primary [.identifier name] (leaf (.id id))
  | literal {token : FinshToken} {type : FinshNodeType} : token.literal = some type → Derives g .primary [token] (leaf type)
  | paren {ts : List FinshToken} {t : Forest FinshLabel} :
      g.paren = true → Derives g .assign ts t → Derives g .primary (.leftParen :: (ts ++ [.rightParen])) t

/-- `statement_expr`; there may be no expression. -/
inductive DerivesStatement (g : FinshGrammar) : List FinshToken → Forest FinshLabel → Prop
  | empty : DerivesStatement g [.semicolon] .nil
  | expr {ts : List FinshToken} {t : Forest FinshLabel} : Derives g .assign ts t → DerivesStatement g (ts ++ [.semicolon]) t

/-! ## The grammars -/

/-- The types of the comment above `proc_type`: one of `void`, `char`, `short`, `int`, alone or behind `unsigned`. -/
def CommentType (ts : List FinshToken) (type : FinshType) : Prop :=
  ∃ token base, token.baseType = some base ∧ token ≠ .long ∧
    (ts = [token] ∧ type = base ∨ ts = [.unsigned, token] ∧ type = token.unsignedType.getD .unknown)

/-- A type without `*`, as `proc_type` has it. -/
inductive TypeName : List FinshToken → FinshType → Prop
  | base {token : FinshToken} {type : FinshType} : token.baseType = some type → TypeName [token] type
  | unsigned {token : FinshToken} {type : FinshType} : token.unsignedType = some type → TypeName [.unsigned, token] type

/-- A type as `proc_type` has it. -/
inductive CastType : List FinshToken → FinshType → Prop
  | name {ts : List FinshToken} {type : FinshType} : TypeName ts type → CastType ts type
  | pointer {ts : List FinshToken} {type : FinshType} : TypeName ts type → CastType (ts ++ [.mul]) type.pointer

def commentGrammar (lookup : List UInt8 → Option FinshId) : FinshGrammar := ⟨lookup, CommentType, .unary, true, true⟩

/-- The types and parameters of the code; any operand may stand on the left side of `=`. -/
def wideGrammar (lookup : List UInt8 → Option FinshId) : FinshGrammar := ⟨lookup, CastType, .inclusiveOr, true, false⟩

def narrowGrammar (lookup : List UInt8 → Option FinshId) : FinshGrammar := ⟨lookup, CastType, .unary, false, false⟩

/-- The same, where any operand may stand on the left side of `=`. -/
def plainGrammar (lookup : List UInt8 → Option FinshId) : FinshGrammar := ⟨lookup, CastType, .inclusiveOr, false, false⟩

/-! ## Trees -/

theorem isTree_leaf (type : FinshNodeType) : (leaf type).IsTree := ⟨_, _, rfl⟩

theorem isTree_sysNode (op : FinshSys) (below : Forest FinshLabel) : (sysNode op below).IsTree := ⟨_, _, rfl⟩

theorem isTree_retype {t : Forest FinshLabel} (h : t.IsTree) (type : FinshType) : (retype type t).IsTree := by
  obtain ⟨⟨nodeType, old⟩, below, rfl⟩ := h
  exact ⟨(nodeType, type), below, rfl⟩

@[simp] theorem size_retype (type : FinshType) (t : Forest FinshLabel) : (retype type t).size = t.size := by
  cases t <;> rfl

@[simp] theorem size_leaf (type : FinshNodeType) : (leaf type).size = 1 := rfl

@[simp] theorem size_sysNode (op : FinshSys) (below : Forest FinshLabel) : (sysNode op below).size = 1 + below.size := rfl

theorem Derives.isTree {g : FinshGrammar} {level : FinshLevel} {ts : List FinshToken} {t : Forest FinshLabel}
    (h : Derives g level ts t) (hlevel : level ≠ .paramList) : t.IsTree := by
  induction h with
  | @operand level ts t h ih =>
    apply ih
    cases level <;> first | exact absurd rfl hlevel | exact fun heq => nomatch heq
  | operator => exact isTree_sysNode _ _
  | assign => exact isTree_sysNode _ _
  | cast _ _ ih => exact isTree_retype (ih fun heq => nomatch heq) _
  | plus _ ih => exact ih fun heq => nomatch heq
  | minus => exact isTree_sysNode _ _
  | unary => exact isTree_sysNode _ _
  | postfixed => exact isTree_sysNode _ _
  | call => exact isTree_sysNode _ _
  | callEmpty => exact isTree_sysNode _ _
  | params => exact absurd rfl hlevel
  | emptyParam => exact absurd rfl hlevel
  | identifier => exact isTree_leaf _
  | literal => exact isTree_leaf _
  | paren _ _ ih => exact ih fun heq => nomatch heq

/-! ## Grammars that derive more -/

variable {g g' : FinshGrammar} {level : FinshLevel} {ts : List FinshToken} {t : Forest FinshLabel}

theorem Derives.inclusiveOr (h : Derives g .unary ts t) : Derives g .inclusiveOr ts t := by
  have hcast : Derives g .cast ts t := h.operand
  have hmultiplicative : Derives g .multiplicative ts t := hcast.operand
  have hadditive : Derives g .additive ts t := hmultiplicative.operand
  have hshift : Derives g .shift ts t := hadditive.operand
  have hand : Derives g .and ts t := hshift.operand
  have hxor : Derives g .exclusiveOr ts t := hand.operand
  exact hxor.operand

theorem Derives.mono (h : Derives g level ts t) (hlookup : g'.lookup = g.lookup) (htypes : g'.type = g.type)
    (hassign : ∀ ts t, Derives g' g.assignTo ts t → Derives g' g'.assignTo ts t) (hparen : g.paren = true → g'.paren = true)
    (hempty : g.emptyParam = true → g'.emptyParam = true) : Derives g' level ts t := by
  induction h with
  | operand _ ih => exact ih.operand
  | operator hop _ _ ih₁ ih₂ => exact .operator hop ih₁ ih₂
  | assign _ _ ih₁ ih₂ => exact .assign (hassign _ _ ih₁) ih₂
  | cast htype _ ih => exact .cast (htypes ▸ htype) ih
  | plus _ ih => exact .plus ih
  | minus _ ih => exact .minus ih
  | unary hop _ ih => exact .unary hop ih
  | postfixed hop _ ih => exact .postfixed hop ih
  | call _ _ ih₁ ih₂ => exact .call ih₁ ih₂
  | callEmpty _ ih => exact .callEmpty ih
  | params _ _ ih₁ ih₂ => exact .params ih₁ ih₂
  | emptyParam h => exact .emptyParam (hempty h)
  | identifier hvar => exact .identifier (hlookup ▸ hvar)
  | literal htype => exact .literal htype
  | paren h _ ih => exact .paren (hparen h) ih

theorem DerivesStatement.mono (h : DerivesStatement g ts t) (hlookup : g'.lookup = g.lookup) (htypes : g'.type = g.type)
    (hassign : ∀ ts t, Derives g' g.assignTo ts t → Derives g' g'.assignTo ts t) (hparen : g.paren = true → g'.paren = true)
    (hempty : g.emptyParam = true → g'.emptyParam = true) : DerivesStatement g' ts t := by
  cases h with
  | empty => exact .empty
  | expr h => exact .expr (h.mono hlookup htypes hassign hparen hempty)

variable {lookup : List UInt8 → Option FinshId}

theorem DerivesStatement.plain (h : DerivesStatement (narrowGrammar lookup) ts t) : DerivesStatement (plainGrammar lookup) ts t :=
  h.mono rfl rfl (fun _ _ h => h.inclusiveOr) id id

theorem DerivesStatement.wide (h : DerivesStatement (plainGrammar lookup) ts t) : DerivesStatement (wideGrammar lookup) ts t :=
  h.mono rfl rfl (fun _ _ h => h) (fun _ => rfl) id

end RtThread
