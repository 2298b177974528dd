import RtThread.Finsh.Grammar
import RtThread.Lib.Failing

/-!
# Tokens and nodes

What the steps of the parser do. The tokens still to come are a stream, to which a token that is put back returns; the trees that have been built stand in the table of nodes above everything older. No step takes an error back.
-/

namespace RtThread

open Failing

namespace FinshParser

def NoError (s : FinshParser) : Prop := s.errno = none

/-! ## Tokens -/

def peek (s : FinshParser) : FinshToken := if s.replay = true then s.currentToken else s.toks.head

def next (s : FinshParser) : FinshParser :=
  { s with currentToken := s.peek, replay := false, toks := if s.replay = true then s.toks else s.toks.tail }

def putBack (s : FinshParser) : FinshParser := { s.next with replay := true }

def pending (s : FinshParser) : Stream' FinshToken := if s.replay = true then Stream'.cons s.currentToken s.toks else s.toks

theorem nextToken_run (s : FinshParser) : nextToken s = some (s.peek, s.next) := by
  by_cases hreplay : s.replay = true
  · simp only [nextToken, peek, next, if_pos hreplay]
  · simp only [nextToken, peek, next, if_neg hreplay, Bool.not_eq_true] at hreplay ⊢
    rw [hreplay]

theorem pending_eq (s : FinshParser) : s.pending = [s.peek] ++ₛ s.next.pending := by
  rw [Stream'.cons_append_stream, Stream'.nil_append_stream]
  by_cases hreplay : s.replay = true
  · simp [pending, peek, next, hreplay]
  · simp only [pending, peek, next, if_neg hreplay]
    exact (Stream'.eta s.toks).symm

theorem pending_putBack (s : FinshParser) : s.putBack.pending = s.pending := by
  rw [pending_eq s, Stream'.cons_append_stream, Stream'.nil_append_stream]
  rfl

@[simp] theorem peek_putBack (s : FinshParser) : s.putBack.peek = s.peek := rfl

theorem head_pending (s : FinshParser) : s.pending.head = s.peek := by
  rw [pending_eq]
  rfl

theorem pending_next (s : FinshParser) : s.next.pending = s.pending.tail := by
  rw [pending_eq s]
  rfl

end FinshParser

open FinshParser

/-! ## Errors stay -/

theorem procIdentifier_run {s : FinshParser} {name : List UInt8} (hpeek : s.peek = .identifier name) :
    procIdentifier s = some (name, s.next) := by
  rw [procIdentifier, bind_run s.nextToken_run, hpeek]
  rfl

theorem ends_errorSet {type : FinshError} {s : FinshParser} {Q : Unit → FinshParser → Prop} : Ends NoError (errorSet type) s Q := by
  intro a s' h hgood
  obtain ⟨-, rfl⟩ := Prod.mk.inj (Option.some.inj h)
  cases hgood

/-- What reading tokens, changing nodes and setting an error do not bring about. -/
class Lasting (good : FinshParser → Prop) : Prop where
  tokens : ∀ s toks currentToken replay, good { s with toks, currentToken, replay } → good s
  nodes : ∀ s nodes, good { s with nodes } → good s
  error : ∀ s type, good { s with errno := some type } → good s

instance : Lasting NoError := ⟨fun _ _ _ _ => id, fun _ _ => id, fun _ _ h => nomatch h⟩

section

variable {good : FinshParser → Prop}

theorem sticky_outOfFuel {α : Type} : Sticky good (outOfFuel : Parse α) := fun _ _ _ h => nomatch h

theorem sticky_of_run {α : Type} {x : Parse α} {a : FinshParser → α} {f : FinshParser → FinshParser} (h : ∀ s, x s = some (a s, f s))
    (hf : ∀ s, good (f s) → good s) : Sticky good x := by
  intro s b s' hx hgood
  obtain ⟨-, rfl⟩ := Prod.mk.inj (Option.some.inj ((h s).symm.trans hx))
  exact hf s hgood

variable [Lasting good]

theorem sticky_nextToken : Sticky good nextToken := sticky_of_run nextToken_run fun s => Lasting.tokens s _ _ _

theorem sticky_tokenReplay : Sticky good tokenReplay := sticky_of_run (fun _ => rfl) fun s => Lasting.tokens s _ _ _

theorem sticky_errorSet (type : FinshError) : Sticky good (errorSet type) := sticky_of_run (fun _ => rfl) fun s => Lasting.error s _

theorem sticky_setSibling (node : Nat) (sibling : Option Nat) : Sticky good (setSibling node sibling) :=
  sticky_of_run (fun _ => rfl) fun s => Lasting.nodes s _

theorem sticky_setChild (node : Nat) (child : Option Nat) : Sticky good (setChild node child) :=
  sticky_of_run (fun _ => rfl) fun s => Lasting.nodes s _

theorem sticky_setDataType (node : Nat) (type : FinshType) : Sticky good (setDataType node type) :=
  sticky_of_run (fun _ => rfl) fun s => Lasting.nodes s _

theorem sticky_nodeAllocate (type : FinshNodeType) : Sticky good (nodeAllocate type) := by
  intro s a s' h hgood
  rw [nodeAllocate] at h
  by_cases hroom : s.nodes.length < s.nodeMax
  · rw [if_pos hroom] at h
    obtain ⟨-, rfl⟩ := Prod.mk.inj (Option.some.inj h)
    exact Lasting.nodes s _ hgood
  · rw [if_neg hroom] at h
    obtain ⟨-, rfl⟩ := Prod.mk.inj (Option.some.inj h)
    exact hgood

theorem sticky_checkToken (token type : FinshToken) : Sticky good (checkToken token type) := by
  apply Sticky.ite
  · exact (sticky_errorSet _).bind fun _ => sticky_tokenReplay
  · exact .pure _

theorem sticky_matchToken (type : FinshToken) : Sticky good (matchToken type) :=
  sticky_nextToken.bind fun token => sticky_checkToken token type

theorem sticky_nodeNew (type : FinshNodeType) : Sticky good (nodeNew type) := by
  refine (sticky_nodeAllocate type).bind fun node => ?_
  cases node with
  | some node => exact .pure _
  | none => exact (sticky_errorSet _).bind fun _ => .pure _

theorem sticky_nodeNewId (name : List UInt8) : Sticky good (nodeNewId name) := by
  have hget : Sticky good (get : Parse FinshParser) := sticky_of_run (fun _ => rfl) fun _ => id
  refine hget.bind fun s => ?_
  cases s.lookup name with
  | some id => exact sticky_nodeNew _
  | none => exact (sticky_errorSet _).bind fun _ => .pure _

theorem sticky_makeSysNode (op : FinshSys) (node1 node2 : Option Nat) : Sticky good (makeSysNode op node1 node2) := by
  refine (sticky_nodeAllocate _).bind fun node => ?_
  rcases node1 with _ | p
  · exact (sticky_errorSet _).bind fun _ => .pure _
  · rcases node with _ | q
    · exact (sticky_errorSet _).bind fun _ => .pure _
    · exact (sticky_setChild _ _).bind fun _ => (sticky_setSibling _ _).bind fun _ => .pure _

theorem sticky_procPointer (type : FinshType) : Sticky good (procPointer type) :=
  sticky_nextToken.bind fun _ => .ite (.pure _) (sticky_tokenReplay.bind fun _ => .pure _)

theorem sticky_procUnknownType : Sticky good procUnknownType :=
  sticky_tokenReplay.bind fun _ => (sticky_errorSet _).bind fun _ => .pure _

theorem sticky_procType : Sticky good procType := by
  refine sticky_nextToken.bind fun token => ?_
  cases token.baseType with
  | some type => exact sticky_procPointer type
  | none =>
    refine .ite (sticky_nextToken.bind fun token => .ite ?_ ?_) sticky_procUnknownType
    · cases token.unsignedType with
      | some type => exact sticky_procPointer type
      | none => exact sticky_procUnknownType
    · exact sticky_tokenReplay.bind fun _ => (sticky_errorSet _).bind fun _ => sticky_procPointer _

theorem sticky_procIdentifier : Sticky good procIdentifier := by
  refine sticky_nextToken.bind fun token => ?_
  have herror : Sticky good (do errorSet .invalidToken; tokenReplay; return [] : Parse (List UInt8)) :=
    (sticky_errorSet _).bind fun _ => sticky_tokenReplay.bind fun _ => .pure _
  cases token <;> first | exact .pure _ | exact herror

section

variable {castExpr assignExpr operand : Parse (Option Nat)}

theorem sticky_operatorLoop (hoperand : Sticky good operand) (op : FinshToken → Option FinshSys) (n : Nat) :
    ∀ node token, Sticky good (operatorLoop op operand n node token) := by
  induction n with
  | zero => exact fun _ _ => sticky_outOfFuel
  | succ n ih =>
    intro node token
    rw [operatorLoop]
    cases op token with
    | none => exact sticky_tokenReplay.bind fun _ => .pure _
    | some sys =>
      refine hoperand.bind fun new => ?_
      cases new with
      | none => exact (sticky_errorSet _).bind fun _ => sticky_nextToken.bind fun token => ih node token
      | some new => exact (sticky_makeSysNode _ _ _).bind fun node => sticky_nextToken.bind fun token => ih node token

theorem sticky_operatorExpr (hoperand : Sticky good operand) (op : FinshToken → Option FinshSys) (n : Nat) :
    Sticky good (operatorExpr op operand n) :=
  hoperand.bind fun node => sticky_nextToken.bind fun token => sticky_operatorLoop hoperand op n node token

theorem sticky_procMultiplicativeExpr (hcast : Sticky good castExpr) (n : Nat) : Sticky good (procMultiplicativeExpr castExpr n) :=
  sticky_operatorExpr hcast _ n

theorem sticky_procAdditiveExpr (hcast : Sticky good castExpr) (n : Nat) : Sticky good (procAdditiveExpr castExpr n) :=
  sticky_operatorExpr (sticky_procMultiplicativeExpr hcast n) _ n

theorem sticky_procShiftExpr (hcast : Sticky good castExpr) (n : Nat) : Sticky good (procShiftExpr castExpr n) :=
  sticky_operatorExpr (sticky_procAdditiveExpr hcast n) _ n

theorem sticky_procAndExpr (hcast : Sticky good castExpr) (n : Nat) : Sticky good (procAndExpr castExpr n) :=
  sticky_operatorExpr (sticky_procShiftExpr hcast n) _ n

theorem sticky_procExclusiveOrExpr (hcast : Sticky good castExpr) (n : Nat) : Sticky good (procExclusiveOrExpr castExpr n) :=
  sticky_operatorExpr (sticky_procAndExpr hcast n) _ n

theorem sticky_procInclusiveOrExpr (hcast : Sticky good castExpr) (n : Nat) : Sticky good (procInclusiveOrExpr castExpr n) :=
  sticky_operatorExpr (sticky_procExclusiveOrExpr hcast n) _ n

theorem sticky_paramLoop (hassign : Sticky good assignExpr) (n : Nat) :
    ∀ assign token, Sticky good (paramLoop assignExpr n assign token) := by
  induction n with
  | zero => exact fun _ _ => sticky_outOfFuel
  | succ n ih =>
    intro assign token
    rw [paramLoop]
    refine .ite (hassign.bind fun next => (sticky_setSibling _ _).bind fun _ => ?_) sticky_tokenReplay
    cases next with
    | some next => exact sticky_nextToken.bind fun token => ih next token
    | none => exact (sticky_errorSet _).bind fun _ => sticky_nextToken.bind fun token => ih assign token

theorem sticky_procParamList (hassign : Sticky good assignExpr) (n : Nat) : Sticky good (procParamList assignExpr n) := by
  refine hassign.bind fun assign => ?_
  cases assign with
  | none => exact .pure _
  | some assign => exact sticky_nextToken.bind fun token => (sticky_paramLoop hassign n assign token).bind fun _ => .pure _

theorem sticky_procPrimaryExpr (hassign : Sticky good assignExpr) : Sticky good (procPrimaryExpr assignExpr) := by
  refine sticky_nextToken.bind fun token => ?_
  have herror : Sticky good (do errorSet .invalidToken; return none : Parse (Option Nat)) :=
    (sticky_errorSet _).bind fun _ => .pure _
  cases token with
  | identifier name => exact sticky_tokenReplay.bind fun _ => sticky_procIdentifier.bind fun id => sticky_nodeNewId id
  | leftParen => exact hassign.bind fun _ => (sticky_matchToken _).bind fun _ => .pure _
  | valueInt i => exact sticky_nodeNew _
  | valueLong l => exact sticky_nodeNew _
  | valueChar c => exact sticky_nodeNew _
  | valueString string => exact sticky_nodeNew _
  | valueNull => exact sticky_nodeNew _
  | _ => exact herror

theorem sticky_procArguments (hassign : Sticky good assignExpr) (n : Nat) : Sticky good (procArguments assignExpr n) := by
  refine sticky_nextToken.bind fun token => .ite ?_ (.pure _)
  exact sticky_tokenReplay.bind fun _ => (sticky_procParamList hassign n).bind fun _ => (sticky_matchToken _).bind fun _ => .pure _

theorem sticky_postfixLoop {arguments : Parse (Option Nat)} (harguments : Sticky good arguments) (n : Nat) :
    ∀ node token, Sticky good (postfixLoop arguments n node token) := by
  induction n with
  | zero => exact fun _ _ => sticky_outOfFuel
  | succ n ih =>
    intro node token
    have hstep (op : FinshSys) (below : Option Nat) : Sticky good
        (do let node ← makeSysNode op node below; let token ← nextToken; postfixLoop arguments n node token : Parse (Option Nat)) :=
      (sticky_makeSysNode _ _ _).bind fun node => sticky_nextToken.bind fun token => ih node token
    have hend : Sticky good (do tokenReplay; return node : Parse (Option Nat)) := sticky_tokenReplay.bind fun _ => .pure _
    cases token with
    | inc => exact hstep _ _
    | dec => exact hstep _ _
    | leftParen => exact harguments.bind fun below => hstep _ below
    | _ => exact hend

theorem sticky_procPostfixExpr (hassign : Sticky good assignExpr) (n : Nat) : Sticky good (procPostfixExpr assignExpr n) :=
  (sticky_procPrimaryExpr hassign).bind fun node => sticky_nextToken.bind fun token =>
    sticky_postfixLoop (sticky_procArguments hassign n) n node token

theorem sticky_procUnaryExpr (hcast : Sticky good castExpr) (hassign : Sticky good assignExpr) (n : Nat) :
    Sticky good (procUnaryExpr castExpr assignExpr n) := by
  refine sticky_nextToken.bind fun token => .ite hcast (.ite ?_ ?_)
  · exact hcast.bind fun _ => (sticky_nodeNew _).bind fun _ => sticky_makeSysNode _ _ _
  · cases unaryOp token with
    | some op => exact hcast.bind fun _ => sticky_makeSysNode _ _ _
    | none => exact sticky_tokenReplay.bind fun _ => sticky_procPostfixExpr hassign n

end

theorem sticky_exprs (n : Nat) : Sticky good (procCastExpr n) ∧ Sticky good (procAssignExpr n) := by
  induction n with
  | zero =>
    rw [procCastExpr, procAssignExpr]
    exact ⟨sticky_outOfFuel, sticky_outOfFuel⟩
  | succ n ih =>
    obtain ⟨hcast, hassign⟩ := ih
    have hunary := sticky_procUnaryExpr hcast hassign n
    rw [procCastExpr, procAssignExpr]
    refine ⟨sticky_nextToken.bind fun token => .ite ?_ ?_, ?_⟩
    · refine sticky_procType.bind fun type => (sticky_matchToken _).bind fun _ => hcast.bind fun cast => ?_
      cases cast with
      | some cast => exact (sticky_setDataType _ _).bind fun _ => .pure _
      | none => exact sticky_tokenReplay.bind fun _ => hunary
    · exact sticky_tokenReplay.bind fun _ => hunary
    · refine (sticky_procInclusiveOrExpr hcast n).bind fun or => sticky_nextToken.bind fun token => .ite ?_ ?_
      · exact hassign.bind fun _ => sticky_makeSysNode _ _ _
      · exact sticky_tokenReplay.bind fun _ => .pure _

theorem sticky_procExprStatement (n : Nat) : Sticky good (procExprStatement n) := by
  refine sticky_nextToken.bind fun token => .ite ?_ (.pure _)
  exact sticky_tokenReplay.bind fun _ => (sticky_exprs n).2.bind fun _ => (sticky_matchToken _).bind fun _ => .pure _

end

/-! ## Trees in the table -/

abbrev FinshStored (nodes : List FinshNode) : Option Nat → Forest (Nat × FinshLabel) → Prop :=
  Forest.Stored (fun n : FinshNode => (n.nodeType, n.dataType)) FinshNode.child FinshNode.sibling nodes

/-- Since `s₀` two forests have been built, apart from each other and above everything older, which is as it was. -/
structure Built (s₀ s : FinshParser) (p₁ : Option Nat) (t₁ : Forest FinshLabel) (p₂ : Option Nat) (t₂ : Forest FinshLabel) : Prop where
  lookup : s.lookup = s₀.lookup
  nodeMax : s.nodeMax = s₀.nodeMax
  le : s₀.nodes.length ≤ s.nodes.length
  old : ∀ q < s₀.nodes.length, s.nodes[q]? = s₀.nodes[q]?
  stored : ∃ f₁ f₂, f₁.map Prod.snd = t₁ ∧ f₂.map Prod.snd = t₂ ∧ FinshStored s.nodes p₁ f₁ ∧ FinshStored s.nodes p₂ f₂ ∧
    (f₁.places ++ f₂.places).Nodup ∧ ∀ q ∈ f₁.places ++ f₂.places, s₀.nodes.length ≤ q

/-- Since `s₀` a forest has been built. -/
abbrev BuiltOne (s₀ s : FinshParser) (p : Option Nat) (t : Forest FinshLabel) : Prop := Built s₀ s p t none .nil

namespace Built

variable {s₀ s₁ s : FinshParser} {p₁ p₂ : Option Nat} {t₁ t₂ : Forest FinshLabel}

theorem refl (s : FinshParser) : BuiltOne s s none .nil :=
  ⟨rfl, rfl, Nat.le_refl _, fun _ _ => rfl, .nil, .nil, rfl, rfl, trivial, trivial, by simp, by simp⟩

/-! Reading tokens changes no tables. -/

theorem next (h : Built s₀ s p₁ t₁ p₂ t₂) : Built s₀ s.next p₁ t₁ p₂ t₂ := ⟨h.lookup, h.nodeMax, h.le, h.old, h.stored⟩

theorem putBack (h : Built s₀ s p₁ t₁ p₂ t₂) : Built s₀ s.putBack p₁ t₁ p₂ t₂ := ⟨h.lookup, h.nodeMax, h.le, h.old, h.stored⟩

theorem of_next (h : Built s₀.next s p₁ t₁ p₂ t₂) : Built s₀ s p₁ t₁ p₂ t₂ := ⟨h.lookup, h.nodeMax, h.le, h.old, h.stored⟩

theorem of_putBack (h : Built s₀.putBack s p₁ t₁ p₂ t₂) : Built s₀ s p₁ t₁ p₂ t₂ := ⟨h.lookup, h.nodeMax, h.le, h.old, h.stored⟩

theorem swap (h : Built s₀ s p₁ t₁ p₂ t₂) : Built s₀ s p₂ t₂ p₁ t₁ := by
  obtain ⟨f₁, f₂, h₁, h₂, hst₁, hst₂, hnodup, hge⟩ := h.stored
  refine ⟨h.lookup, h.nodeMax, h.le, h.old, f₂, f₁, h₂, h₁, hst₂, hst₁, List.nodup_append_comm.1 hnodup, fun q hq => hge q ?_⟩
  rw [List.mem_append] at hq ⊢
  exact hq.symm

theorem trans (h₁ : BuiltOne s₀ s₁ p₁ t₁) (h₂ : BuiltOne s₁ s p₂ t₂) : Built s₀ s p₁ t₁ p₂ t₂ := by
  obtain ⟨f₁, e₁, hf₁, -, hst₁, -, hnodup₁, hge₁⟩ := h₁.stored
  obtain ⟨f₂, e₂, hf₂, -, hst₂, -, hnodup₂, hge₂⟩ := h₂.stored
  have hlt := hst₁.lt_length
  have hge₂' (q : Nat) (hq : q ∈ f₂.places) : s₁.nodes.length ≤ q := hge₂ q (List.mem_append_left _ hq)
  refine ⟨h₂.lookup.trans h₁.lookup, h₂.nodeMax.trans h₁.nodeMax, Nat.le_trans h₁.le h₂.le, fun q hq => ?_, f₁, f₂, hf₁, hf₂,
    hst₁.frame fun q hq => h₂.old q (hlt q hq), hst₂, ?_, ?_⟩
  · rw [h₂.old q (Nat.lt_of_lt_of_le hq h₁.le), h₁.old q hq]
  · rw [List.nodup_append]
    refine ⟨(List.nodup_append.1 hnodup₁).1, (List.nodup_append.1 hnodup₂).1, fun q hq q' hq' => ?_⟩
    have := hlt q hq
    have := hge₂' q' hq'
    omega
  · intro q hq
    rcases List.mem_append.1 hq with hq | hq
    · exact hge₁ q (List.mem_append_left _ hq)
    · exact Nat.le_trans h₁.le (hge₂' q hq)

end Built

/-! ## Making nodes -/

namespace FinshParser

def allocated (s : FinshParser) (type : FinshNodeType) : FinshParser := { s with nodes := s.nodes ++ [⟨type, .unknown, none, none⟩] }

/-- `node` points to `sibling`. -/
def withSibling (s : FinshParser) (node : Nat) (sibling : Option Nat) : FinshParser :=
  { s with nodes := s.nodes.modify node fun n => { n with sibling := sibling } }

def withChild (s : FinshParser) (node : Nat) (child : Option Nat) : FinshParser :=
  { s with nodes := s.nodes.modify node fun n => { n with child := child } }

/-- A node for an operator stands above `p`, and `p` before `p₂`. -/
def linked (s : FinshParser) (op : FinshSys) (p : Nat) (p₂ : Option Nat) : FinshParser :=
  ((s.allocated (.sys op)).withChild s.nodes.length (some p)).withSibling p p₂

theorem length_linked (s : FinshParser) (op : FinshSys) (p : Nat) (p₂ : Option Nat) :
    (s.linked op p p₂).nodes.length = s.nodes.length + 1 := by
  simp [linked, withSibling, withChild, allocated]

end FinshParser

theorem nodeAllocate_run {s : FinshParser} (hroom : s.nodes.length < s.nodeMax) (type : FinshNodeType) :
    nodeAllocate type s = some (some s.nodes.length, s.allocated type) := by
  rw [nodeAllocate, if_pos hroom]
  rfl

theorem nodeNew_run {s : FinshParser} (hroom : s.nodes.length < s.nodeMax) (type : FinshNodeType) :
    nodeNew type s = some (some s.nodes.length, s.allocated type) := by
  rw [nodeNew, bind_run (nodeAllocate_run hroom type)]
  rfl

theorem nodeNewId_run {s : FinshParser} {name : List UInt8} {id : FinshId} (hid : s.lookup name = some id)
    (hroom : s.nodes.length < s.nodeMax) : nodeNewId name s = some (some s.nodes.length, s.allocated (.id id)) := by
  have hget : (get : Parse FinshParser) s = some (s, s) := rfl
  rw [nodeNewId, bind_run hget, hid]
  exact nodeNew_run hroom _

theorem makeSysNode_run {s : FinshParser} (hroom : s.nodes.length < s.nodeMax) (op : FinshSys) (p : Nat) (p₂ : Option Nat) :
    makeSysNode op (some p) p₂ s = some (some s.nodes.length, s.linked op p p₂) := by
  rw [makeSysNode, bind_run (nodeAllocate_run hroom (.sys op))]
  rfl

theorem nodeAllocate_full {s : FinshParser} (hroom : ¬s.nodes.length < s.nodeMax) (type : FinshNodeType) :
    nodeAllocate type s = some (none, s) := by
  rw [nodeAllocate, if_neg hroom]

theorem ends_nodeNew {s : FinshParser} {type : FinshNodeType} {Q : Option Nat → FinshParser → Prop}
    (h : Q (some s.nodes.length) (s.allocated type)) : Ends NoError (nodeNew type) s Q := by
  intro r s' hrun hgood
  by_cases hroom : s.nodes.length < s.nodeMax
  · obtain ⟨rfl, rfl⟩ := Prod.mk.inj (Option.some.inj ((nodeNew_run hroom type).symm.trans hrun))
    exact h
  · rw [nodeNew, bind_run (nodeAllocate_full hroom type)] at hrun
    obtain ⟨-, rfl⟩ := Prod.mk.inj (Option.some.inj hrun)
    cases hgood

theorem ends_makeSysNode {s : FinshParser} {op : FinshSys} {p : Nat} {p₂ : Option Nat} {Q : Option Nat → FinshParser → Prop}
    (h : Q (some s.nodes.length) (s.linked op p p₂)) : Ends NoError (makeSysNode op (some p) p₂) s Q := by
  intro r s' hrun hgood
  by_cases hroom : s.nodes.length < s.nodeMax
  · obtain ⟨rfl, rfl⟩ := Prod.mk.inj (Option.some.inj ((makeSysNode_run hroom op p p₂).symm.trans hrun))
    exact h
  · rw [makeSysNode, bind_run (nodeAllocate_full hroom (.sys op))] at hrun
    obtain ⟨-, rfl⟩ := Prod.mk.inj (Option.some.inj hrun)
    cases hgood

theorem stored_withSibling {s : FinshParser} {p q : Option Nat} {f g below behind : Forest (Nat × FinshLabel)} {last : Nat} {a : FinshLabel}
    (h : FinshStored s.nodes p (f.append (.cons (last, a) below behind)))
    (hnodup : (f.append (.cons (last, a) below behind)).places.Nodup) (hg : FinshStored s.nodes q g) (hlast : last ∉ g.places) :
    FinshStored (s.withSibling last q).nodes p (f.append (.cons (last, a) below g)) := by
  refine Forest.Stored.link ?_ ?_ ?_ hg hlast h hnodup
  · exact fun _ => rfl
  · exact fun _ => rfl
  · exact fun _ => rfl

namespace Built

variable {s₀ s : FinshParser} {p₂ : Option Nat} {t₁ t₂ : Forest FinshLabel}

theorem root {p : Option Nat} {a : FinshLabel} {below behind : Forest FinshLabel} (h : Built s₀ s p (.cons a below behind) p₂ t₂) :
    ∃ q, p = some q ∧ s₀.nodes.length ≤ q ∧ q < s.nodes.length := by
  obtain ⟨f₁, f₂, hf₁, -, hst₁, -, -, hge⟩ := h.stored
  cases f₁ with
  | nil => cases hf₁
  | cons b f f' =>
    obtain ⟨q, b⟩ := b
    refine ⟨q, hst₁.eq_some, hge q ?_, hst₁.lt_length q ?_⟩
    · simp
    · simp

theorem leaf (s : FinshParser) (type : FinshNodeType) : BuiltOne s (s.allocated type) (some s.nodes.length) (leaf type) := by
  refine ⟨rfl, rfl, by simp [allocated], fun q hq => ?_, .cons (s.nodes.length, (type, .unknown)) .nil .nil, .nil, rfl, rfl, ?_, trivial,
    by simp, by simp⟩
  · rw [allocated, List.getElem?_append_left hq]
  · exact ⟨rfl, ⟨type, .unknown, none, none⟩, by simp [allocated], rfl, trivial, trivial⟩

theorem sysNode {p : Nat} (h : Built s₀ s (some p) t₁ p₂ t₂) (htree : t₁.IsTree) (op : FinshSys) :
    BuiltOne s₀ (s.linked op p p₂) (some s.nodes.length) (sysNode op (t₁.append t₂)) := by
  obtain ⟨f₁, f₂, rfl, rfl, hst₁, hst₂, hnodup, hge⟩ := h.stored
  obtain ⟨⟨q, a⟩, below, rfl⟩ := htree.of_map
  obtain rfl := Option.some.inj hst₁.eq_some
  have hp : p < s.nodes.length := hst₁.lt_length p (by simp)
  have hp₂ : p ∉ f₂.places := fun hmem => (List.nodup_append.1 hnodup).2.2 p (by simp) p hmem rfl
  have hsame (x : Nat) (hx : x < s.nodes.length) :
      ((s.allocated (.sys op)).withChild s.nodes.length (some p)).nodes[x]? = s.nodes[x]? := by
    rw [withChild, List.getElem?_modify_ne _ _ (by omega), allocated, List.getElem?_append_left hx]
  have hold (x : Nat) (hx : x < s.nodes.length) (hne : x ≠ p) : (s.linked op p p₂).nodes[x]? = s.nodes[x]? := by
    rw [linked, withSibling, List.getElem?_modify_ne _ _ (Ne.symm hne), hsame x hx]
  have hbehind : FinshStored (s.linked op p p₂).nodes (some p) (.cons (p, a) below f₂) :=
    stored_withSibling (f := .nil) (hst₁.frame fun x hx => hsame x (hst₁.lt_length x hx)) (List.nodup_append.1 hnodup).1
      (hst₂.frame fun x hx => hsame x (hst₂.lt_length x hx)) hp₂
  have hnew : (s.linked op p p₂).nodes[s.nodes.length]? = some ⟨.sys op, .unknown, none, some p⟩ := by
    rw [linked, withSibling, List.getElem?_modify_ne _ _ (by omega), withChild, List.getElem?_modify_eq, allocated]
    simp
  have hplaces : (Forest.cons (p, a) below f₂).places.Perm ((Forest.cons (p, a) below .nil).places ++ f₂.places) := by simp
  refine ⟨h.lookup, h.nodeMax, ?_, fun x hx => ?_,
    .cons (s.nodes.length, (.sys op, .unknown)) (.cons (p, a) below f₂) .nil, .nil, ?_, rfl, ⟨rfl, _, hnew, rfl, hbehind, trivial⟩, trivial, ?_, ?_⟩
  · have := h.le
    rw [length_linked]
    omega
  · have hne : x ≠ p := by
      have := hge p (by simp)
      omega
    rw [hold x (Nat.lt_of_lt_of_le hx h.le) hne, h.old x hx]
  · rfl
  · simp only [Forest.places_cons (α := FinshLabel) s.nodes.length, Forest.places_nil, List.append_nil, List.nodup_cons]
    refine ⟨fun hmem => ?_, hplaces.nodup_iff.2 hnodup⟩
    rcases List.mem_append.1 (hplaces.mem_iff.1 hmem) with hmem | hmem
    · exact Nat.lt_irrefl _ (hst₁.lt_length _ hmem)
    · exact Nat.lt_irrefl _ (hst₂.lt_length _ hmem)
  · intro x hx
    simp only [Forest.places_cons (α := FinshLabel) s.nodes.length, Forest.places_nil, List.append_nil, List.mem_cons] at hx
    rcases hx with rfl | hx
    · exact h.le
    · exact hge x (hplaces.mem_iff.1 hx)

theorem setDataType {p : Nat} {t : Forest FinshLabel} (h : BuiltOne s₀ s (some p) t) (htree : t.IsTree) (type : FinshType) :
    BuiltOne s₀ { s with nodes := s.nodes.modify p fun n => { n with dataType := type } } (some p) (retype type t) := by
  obtain ⟨f, e, rfl, he, hst, hst', hnodup, hge⟩ := h.stored
  obtain ⟨⟨q, nodeType, old⟩, below, rfl⟩ := htree.of_map
  obtain rfl := Option.some.inj hst.eq_some
  obtain rfl : e = .nil := by
    cases e with
    | nil => rfl
    | cons => exact hst'.elim
  rw [Forest.places_nil, List.append_nil] at hnodup hge
  have hstored : FinshStored (s.nodes.modify p fun n => { n with dataType := type }) (some p)
      (.cons (p, (nodeType, type)) below .nil) := by
    refine Forest.Stored.relabel (a := (nodeType, old)) (f := fun a => (a.1, type)) ?_ ?_ ?_ hst hnodup
    · exact fun _ => rfl
    · exact fun _ => rfl
    · exact fun _ => rfl
  refine ⟨h.lookup, h.nodeMax, ?_, fun x hx => ?_, .cons (p, (nodeType, type)) below .nil, .nil, rfl, rfl, hstored, trivial, ?_, ?_⟩
  · rw [List.length_modify]
    exact h.le
  · have hp := hge p (by simp)
    rw [List.getElem?_modify_ne _ _ (by omega), h.old x hx]
  · simpa using hnodup
  · simpa using hge

end Built

/-! ## Lists of trees -/

/-- Since `s₀` a list of trees has been built, and `last` is the place of the last one. -/
structure BuiltList (s₀ s : FinshParser) (p : Option Nat) (t : Forest FinshLabel) (last : Nat) : Prop where
  lookup : s.lookup = s₀.lookup
  nodeMax : s.nodeMax = s₀.nodeMax
  le : s₀.nodes.length ≤ s.nodes.length
  old : ∀ q < s₀.nodes.length, s.nodes[q]? = s₀.nodes[q]?
  stored : ∃ (f : Forest (Nat × FinshLabel)) (a : FinshLabel) (below : Forest (Nat × FinshLabel)),
    (f.append (.cons (last, a) below .nil)).map Prod.snd = t ∧
    FinshStored s.nodes p (f.append (.cons (last, a) below .nil)) ∧ (f.append (.cons (last, a) below .nil)).places.Nodup ∧
    ∀ q ∈ (f.append (.cons (last, a) below .nil)).places, s₀.nodes.length ≤ q

namespace BuiltList

variable {s₀ s₁ s : FinshParser} {p : Option Nat} {t t₂ : Forest FinshLabel} {last q : Nat}

theorem built (h : BuiltList s₀ s p t last) : BuiltOne s₀ s p t := by
  obtain ⟨f, a, below, ht, hst, hnodup, hge⟩ := h.stored
  exact ⟨h.lookup, h.nodeMax, h.le, h.old, _, .nil, ht, rfl, hst, trivial, by simpa using hnodup, by simpa using hge⟩

theorem single (h : BuiltOne s₀ s (some q) t) (htree : t.IsTree) : BuiltList s₀ s (some q) t q := by
  obtain ⟨f, e, rfl, he, hst, hst', hnodup, hge⟩ := h.stored
  obtain ⟨⟨r, a⟩, below, rfl⟩ := htree.of_map
  obtain rfl := Option.some.inj hst.eq_some
  exact ⟨h.lookup, h.nodeMax, h.le, h.old, .nil, a, below, rfl, hst, (List.nodup_append.1 hnodup).1,
    fun x hx => hge x (List.mem_append_left _ hx)⟩

theorem add (h : BuiltList s₀ s₁ p t last) (h₂ : BuiltOne s₁ s (some q) t₂) (htree : t₂.IsTree) :
    BuiltList s₀ (s.withSibling last (some q)) p (t.append t₂) q := by
  obtain ⟨f, a, below, rfl, hst, hnodup, hge⟩ := h.stored
  obtain ⟨g, e, rfl, -, hst₂, -, hnodup₂, hge₂⟩ := h₂.stored
  obtain ⟨⟨r, b⟩, below₂, rfl⟩ := htree.of_map
  obtain rfl := Option.some.inj hst₂.eq_some
  have hlt := hst.lt_length
  have hge₂' (x : Nat) (hx : x ∈ (Forest.cons (q, b) below₂ .nil).places) : s₁.nodes.length ≤ x := hge₂ x (List.mem_append_left _ hx)
  have hlast : last ∈ (f.append (.cons (last, a) below .nil)).places := by simp
  have hstored : FinshStored s.nodes p (f.append (.cons (last, a) below .nil)) := hst.frame fun x hx => h₂.old x (hlt x hx)
  have hlinked := stored_withSibling hstored hnodup hst₂ fun hmem => by
    have := hlt last hlast
    have := hge₂' last hmem
    omega
  have heq : f.append (.cons (last, a) below (.cons (q, b) below₂ .nil)) =
      (f.append (.cons (last, a) below .nil)).append (.cons (q, b) below₂ .nil) := by
    rw [Forest.append_assoc]
    rfl
  rw [heq] at hlinked
  refine ⟨h₂.lookup.trans h.lookup, h₂.nodeMax.trans h.nodeMax, ?_, fun x hx => ?_,
    f.append (.cons (last, a) below .nil), b, below₂, ?_, hlinked, ?_, ?_⟩
  · rw [withSibling, List.length_modify]
    exact Nat.le_trans h.le h₂.le
  · have := hge last hlast
    rw [withSibling, List.getElem?_modify_ne _ _ (by omega), h₂.old x (Nat.lt_of_lt_of_le hx h.le), h.old x hx]
  · rw [Forest.map_append]
  · rw [Forest.places_append, List.nodup_append]
    refine ⟨hnodup, (List.nodup_append.1 hnodup₂).1, fun x hx y hy => ?_⟩
    have := hlt x hx
    have := hge₂' y hy
    omega
  · intro x hx
    rw [Forest.places_append, List.mem_append] at hx
    rcases hx with hx | hx
    · exact hge x hx
    · exact Nat.le_trans h.le (hge₂' x hx)

end BuiltList

end RtThread
