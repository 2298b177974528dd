import RtThread.Finsh.Nodes

/-!
# What the parser accepts is derived

Where a function of the parser sets no error, the tokens that it has taken are derived by its nonterminal, and the tree that it returns is the tree of the derivation. By induction on the fuel; each function is treated for whatever the functions below it are, as long as these are sound.
-/

namespace RtThread

open Failing FinshParser

/-- Between two states these tokens have been taken and this forest has been built. -/
structure Parsed (s₀ : FinshParser) (ts : List FinshToken) (p : Option Nat) (t : Forest FinshLabel) (s : FinshParser) : Prop where
  took : s₀.pending = ts ++ₛ s.pending
  built : BuiltOne s₀ s p t

/-- What has been taken since `s₀` is derived. -/
def TookDerived (g : FinshGrammar) (level : FinshLevel) (s₀ : FinshParser) (p : Option Nat) (s : FinshParser) : Prop :=
  ∃ ts t, Parsed s₀ ts p t s ∧ Derives g level ts t

def Sound (g : FinshGrammar) (level : FinshLevel) (x : Parse (Option Nat)) : Prop :=
  ∀ s : FinshParser, s.lookup = g.lookup → Ends NoError x s (TookDerived g level s)

namespace Parsed

variable {s₀ s₁ s₂ s : FinshParser} {ts ts₁ ts₂ : List FinshToken} {p : Option Nat} {t t₁ t₂ : Forest FinshLabel}

theorem lookup (h : Parsed s₀ ts p t s) : s.lookup = s₀.lookup := h.built.lookup

theorem putBack (h : Parsed s₀ ts p t s) : Parsed s₀ ts p t s.putBack := ⟨h.took.trans (by rw [pending_putBack]), h.built.putBack⟩

theorem of_putBack (h : Parsed s₀.putBack ts p t s) : Parsed s₀ ts p t s := ⟨s₀.pending_putBack.symm.trans h.took, h.built.of_putBack⟩

theorem cons (h : Parsed s₀.next ts p t s) : Parsed s₀ (s₀.peek :: ts) p t s := by
  refine ⟨?_, h.built.of_next⟩
  rw [pending_eq, h.took, ← Stream'.append_append_stream]
  rfl

theorem concat (h : Parsed s₀ ts p t s) : Parsed s₀ (ts ++ [s.peek]) p t s.next :=
  ⟨by rw [h.took, pending_eq s, Stream'.append_append_stream], h.built.next⟩

theorem took_trans (h₁ : s₀.pending = ts₁ ++ₛ s₁.pending) (h₂ : s₁.next.pending = ts₂ ++ₛ s₂.pending) :
    s₀.pending = (ts₁ ++ s₁.peek :: ts₂) ++ₛ s₂.pending := by
  rw [h₁, pending_eq s₁, h₂, Stream'.append_append_stream, Stream'.cons_append_stream, Stream'.cons_append_stream,
    Stream'.nil_append_stream]

theorem sysNode {q : Nat} (h : Parsed s₀ ts (some q) t s) (htree : t.IsTree) (op : FinshSys) :
    Parsed s₀ ts (some s.nodes.length) (sysNode op t) (s.linked op q none) := by
  have hbuilt := h.built.sysNode htree op
  rw [Forest.append_nil] at hbuilt
  exact ⟨h.took, hbuilt⟩

theorem operator {q : Nat} (h₁ : Parsed s₀ ts₁ (some q) t₁ s₁) (htree : t₁.IsTree) (h₂ : Parsed s₁.next ts₂ p t₂ s₂) (op : FinshSys) :
    Parsed s₀ (ts₁ ++ s₁.peek :: ts₂) (some s₂.nodes.length) (RtThread.sysNode op (t₁.append t₂)) (s₂.linked op q p) :=
  ⟨took_trans h₁.took h₂.took, (h₁.built.trans h₂.built.of_next).sysNode htree op⟩

theorem root (h : Parsed s₀ ts p t s) (htree : t.IsTree) : ∃ q, p = some q := by
  obtain ⟨a, below, rfl⟩ := htree
  obtain ⟨q, hq, -⟩ := h.built.root
  exact ⟨q, hq⟩

end Parsed

/-! ## Steps without an error -/

section

variable {α : Type} {s : FinshParser} {Q : α → FinshParser → Prop}

theorem ends_next {f : FinshToken → Parse α} (h : Ends NoError (f s.peek) s.next Q) : Ends NoError (nextToken >>= f) s Q :=
  .step s.nextToken_run h

theorem ends_replay {f : Unit → Parse α} (h : Ends NoError (f ()) { s with replay := true } Q) : Ends NoError (tokenReplay >>= f) s Q :=
  .step rfl h

theorem ends_error {type : FinshError} {f : Unit → Parse α} (hf : ∀ a, Sticky NoError (f a)) : Ends NoError (errorSet type >>= f) s Q :=
  .bind hf ends_errorSet

theorem ends_matchToken {type : FinshToken} {f : Unit → Parse α} (hf : ∀ a, Sticky NoError (f a))
    (h : s.peek = type → Ends NoError (f ()) s.next Q) : Ends NoError (matchToken type >>= f) s Q := by
  refine .bind hf (ends_next (.ite (fun _ => ?_) fun heq => .pure (h (not_not.1 heq))))
  exact ends_error fun _ => sticky_tokenReplay

end

/-! ## Binary operators -/

section

variable {g : FinshGrammar} {operand castExpr assignExpr : Parse (Option Nat)}

theorem operatorLoop_ends {level : FinshLevel} (hlevel : level ≠ .paramList) (hsticky : Sticky NoError operand)
    (hoperand : Sound g level.operand operand) (n : Nat) :
    ∀ (s₀ s₁ : FinshParser) (r : Option Nat), s₀.lookup = g.lookup → TookDerived g level s₀ r s₁ →
      Ends NoError (operatorLoop level.op operand n r s₁.peek) s₁.next (TookDerived g level s₀) := by
  induction n with
  | zero =>
    intro _ _ _ _ _ _ _ h
    cases h
  | succ n ih =>
    rintro s₀ s₁ r hlookup ⟨ts₁, t₁, hparsed₁, hderives₁⟩
    have htree₁ := hderives₁.isTree hlevel
    have hlevel' : level.operand ≠ .paramList := by cases level <;> first | exact absurd rfl hlevel | decide
    obtain ⟨p, rfl⟩ := hparsed₁.root htree₁
    rw [operatorLoop]
    cases hop : level.op s₁.peek with
    | none => exact ends_replay (.pure ⟨ts₁, t₁, hparsed₁.putBack, hderives₁⟩)
    | some sys =>
      have hloop (node : Option Nat) : Sticky NoError (nextToken >>= operatorLoop level.op operand n node) :=
        sticky_nextToken.bind fun token => sticky_operatorLoop hsticky _ n node token
      refine .bind (fun new => ?_) ((hoperand s₁.next (hparsed₁.lookup.trans hlookup)).mono fun new s₂ htook => ?_)
      · cases new with
        | none => exact (sticky_errorSet _).bind fun _ => hloop (some p)
        | some new => exact (sticky_makeSysNode _ _ _).bind hloop
      · obtain ⟨ts₂, t₂, hparsed₂, hderives₂⟩ := htook
        obtain ⟨q, rfl⟩ := hparsed₂.root (hderives₂.isTree hlevel')
        have hnode : TookDerived g level s₀ (some s₂.nodes.length) (s₂.linked sys p (some q)) :=
          ⟨_, _, hparsed₁.operator htree₁ hparsed₂ sys, .operator hop hderives₁ hderives₂⟩
        exact .bind hloop (ends_makeSysNode (ends_next (ih s₀ _ _ hlookup hnode)))

theorem operatorExpr_sound (level : FinshLevel) (hlevel : level ≠ .paramList) (hsticky : Sticky NoError operand)
    (hoperand : Sound g level.operand operand) (n : Nat) : Sound g level (operatorExpr level.op operand n) := by
  intro s hlookup
  refine .bind (fun node => sticky_nextToken.bind fun token => sticky_operatorLoop hsticky _ n node token) ?_
  refine (hoperand s hlookup).mono fun r s₁ ⟨ts, t, hparsed, hderives⟩ => ends_next ?_
  exact operatorLoop_ends hlevel hsticky hoperand n s s₁ r hlookup ⟨ts, t, hparsed, .operand hderives⟩

theorem procInclusiveOrExpr_sound (hsticky : Sticky NoError castExpr) (hcast : Sound g .cast castExpr) (n : Nat) :
    Sound g .inclusiveOr (procInclusiveOrExpr castExpr n) := by
  have hmultiplicative : Sound g .multiplicative (procMultiplicativeExpr castExpr n) :=
    operatorExpr_sound .multiplicative (fun heq => nomatch heq) hsticky hcast n
  have hadditive : Sound g .additive (procAdditiveExpr castExpr n) :=
    operatorExpr_sound .additive (fun heq => nomatch heq) (sticky_procMultiplicativeExpr hsticky n) hmultiplicative n
  have hshift : Sound g .shift (procShiftExpr castExpr n) :=
    operatorExpr_sound .shift (fun heq => nomatch heq) (sticky_procAdditiveExpr hsticky n) hadditive n
  have hand : Sound g .and (procAndExpr castExpr n) :=
    operatorExpr_sound .and (fun heq => nomatch heq) (sticky_procShiftExpr hsticky n) hshift n
  have hxor : Sound g .exclusiveOr (procExclusiveOrExpr castExpr n) :=
    operatorExpr_sound .exclusiveOr (fun heq => nomatch heq) (sticky_procAndExpr hsticky n) hand n
  exact operatorExpr_sound .inclusiveOr (fun heq => nomatch heq) (sticky_procExclusiveOrExpr hsticky n) hxor n

/-! ## Types -/

theorem procPointer_ends {s₀ s : FinshParser} {ts : List FinshToken} {type : FinshType} (h : Parsed s₀ ts none .nil s)
    (hname : TypeName ts type) :
    Ends NoError (procPointer type) s fun type s' => ∃ ts, Parsed s₀ ts none .nil s' ∧ CastType ts type := by
  refine ends_next (.ite (fun hmul => ?_) fun _ => ?_)
  · exact .pure ⟨_, h.concat, hmul ▸ .pointer hname⟩
  · exact ends_replay (.pure ⟨ts, h.putBack, .name hname⟩)

theorem procUnknownType_ends {s : FinshParser} {Q : FinshType → FinshParser → Prop} : Ends NoError procUnknownType s Q :=
  ends_replay (ends_error fun _ => .pure _)

theorem Parsed.nil (s : FinshParser) : Parsed s [] none .nil s := ⟨rfl, .refl s⟩

theorem procType_ends (s : FinshParser) :
    Ends NoError procType s fun type s' => ∃ ts, Parsed s ts none .nil s' ∧ CastType ts type := by
  have hone : Parsed s [s.peek] none .nil s.next := (Parsed.nil s).concat
  refine ends_next ?_
  cases hbase : s.peek.baseType with
  | some type => exact procPointer_ends hone (.base hbase)
  | none =>
    refine .ite (fun hunsigned => ends_next (.ite (fun _ => ?_) fun _ => ?_)) fun _ => procUnknownType_ends
    · cases htype : s.next.peek.unsignedType with
      | some type => exact procPointer_ends hone.concat (hunsigned ▸ .unsigned htype)
      | none => exact procUnknownType_ends
    · exact ends_replay (ends_error fun _ => sticky_procPointer _)

/-! ## Operands -/

theorem paramLoop_ends (hsticky : Sticky NoError assignExpr) (hassign : Sound g .assign assignExpr) (n : Nat) :
    ∀ (s₀ s₁ : FinshParser) (p : Option Nat) (ts : List FinshToken) (t : Forest FinshLabel) (last : Nat), s₀.lookup = g.lookup →
      s₀.pending = ts ++ₛ s₁.pending → BuiltList s₀ s₁ p t last → Derives g .paramList ts t →
      Ends NoError (paramLoop assignExpr n last s₁.peek) s₁.next fun _ => TookDerived g .paramList s₀ p := by
  induction n with
  | zero =>
    intro _ _ _ _ _ _ _ _ _ _ _ _ h
    cases h
  | succ n ih =>
    intro s₀ s₁ p ts t last hlookup htook hbuilt hderives
    rw [paramLoop]
    refine .ite (fun hcomma => ?_) fun _ => ?_
    · have hloop (last : Nat) : Sticky NoError (nextToken >>= paramLoop assignExpr n last) :=
        sticky_nextToken.bind fun token => sticky_paramLoop hsticky n last token
      refine .bind (fun next => (sticky_setSibling _ _).bind fun _ => ?_)
        ((hassign s₁.next (hbuilt.lookup.trans hlookup)).mono fun next s₂ htook₂ => ?_)
      · cases next with
        | some next => exact hloop next
        | none => exact (sticky_errorSet _).bind fun _ => hloop last
      · obtain ⟨ts₂, t₂, hparsed, hderives₂⟩ := htook₂
        have htree := hderives₂.isTree fun heq => by cases heq
        obtain ⟨q, rfl⟩ := hparsed.root htree
        have htook' := Parsed.took_trans htook hparsed.took
        rw [hcomma] at htook'
        exact .step rfl (ends_next (ih s₀ (s₂.withSibling last (some q)) p _ _ q hlookup htook'
          (hbuilt.add hparsed.built.of_next htree) (.params hderives hderives₂)))
    · exact .of_run rfl (⟨ts, t, ⟨htook.trans (by rw [← pending_putBack s₁]; rfl), hbuilt.built.putBack⟩, hderives⟩)

theorem procParamList_sound (hsticky : Sticky NoError assignExpr) (hassign : Sound g .assign assignExpr) (n : Nat) :
    Sound g .paramList (procParamList assignExpr n) := by
  intro s hlookup
  refine .bind (fun assign => ?_) ((hassign s hlookup).mono fun r s₁ ⟨ts, t, hparsed, hderives⟩ => ?_)
  · cases assign with
    | none => exact .pure _
    | some assign => exact sticky_nextToken.bind fun token => (sticky_paramLoop hsticky n assign token).bind fun _ => .pure _
  · have htree := hderives.isTree fun heq => nomatch heq
    obtain ⟨q, rfl⟩ := hparsed.root htree
    refine ends_next (.bind (fun _ => .pure _) ?_)
    exact (paramLoop_ends hsticky hassign n s s₁ (some q) ts t q hlookup hparsed.took (.single hparsed.built htree)
      (.operand hderives)).mono fun _ _ => .pure

theorem ends_nodeNew_literal {s₀ s : FinshParser} {ts : List FinshToken} (h : Parsed s₀ ts none .nil s) (type : FinshNodeType) :
    Ends NoError (nodeNew type) s fun p s' => Parsed s₀ ts p (leaf type) s' :=
  ends_nodeNew ⟨h.took, (h.built.trans (Built.leaf s type)).swap⟩

theorem ends_nodeNewId {s₀ s : FinshParser} {ts : List FinshToken} (h : Parsed s₀ ts none .nil s) (hlookup : s₀.lookup = g.lookup)
    (name : List UInt8) :
    Ends NoError (nodeNewId name) s fun p s' => ∃ id, g.lookup name = some id ∧ Parsed s₀ ts p (leaf (.id id)) s' := by
  refine .step rfl ?_
  have heq : s.lookup name = g.lookup name := congrFun (h.lookup.trans hlookup) name
  cases hid : s.lookup name with
  | some id => exact (ends_nodeNew_literal h (.id id)).mono fun _ _ hparsed => ⟨id, heq.symm.trans hid, hparsed⟩
  | none => exact ends_error fun _ => .pure _

theorem procPrimaryExpr_ends (hassign : Sound g .assign assignExpr) {s : FinshParser} (hlookup : s.lookup = g.lookup)
    (hparen : s.peek = .leftParen → g.paren = true) : Ends NoError (procPrimaryExpr assignExpr) s (TookDerived g .primary s) := by
  have hone : Parsed s [s.peek] none .nil s.next := (Parsed.nil s).concat
  have hliteral (type : FinshNodeType) (htype : s.peek.literal = some type) : Ends NoError (nodeNew type) s.next (TookDerived g .primary s) :=
    (ends_nodeNew_literal hone type).mono fun _ _ hparsed => ⟨_, _, hparsed, .literal htype⟩
  have herror : Ends NoError (do errorSet .invalidToken; return none : Parse (Option Nat)) s.next (TookDerived g .primary s) :=
    ends_error fun _ => .pure _
  refine ends_next ?_
  cases hpeek : s.peek with
  | identifier name =>
    rw [hpeek] at hone
    refine ends_replay (.step (procIdentifier_run (s.peek_putBack.trans hpeek)) ?_)
    exact (ends_nodeNewId hone hlookup name).mono fun _ _ ⟨id, hid, hparsed⟩ => ⟨_, _, hparsed, .identifier hid⟩
  | leftParen =>
    refine .bind (fun _ => (sticky_matchToken _).bind fun _ => .pure _)
      ((hassign s.next hlookup).mono fun r s₁ ⟨ts, t, hparsed, hderives⟩ => ends_matchToken (fun _ => .pure _) fun hright => .pure ?_)
    have hall := hparsed.concat.cons
    rw [hpeek, hright] at hall
    exact ⟨_, _, hall, .paren (hparen hpeek) hderives⟩
  | valueInt i => exact hliteral _ (by rw [hpeek]; rfl)
  | valueLong l => exact hliteral _ (by rw [hpeek]; rfl)
  | valueChar c => exact hliteral _ (by rw [hpeek]; rfl)
  | valueString string => exact hliteral _ (by rw [hpeek]; rfl)
  | valueNull => exact hliteral _ (by rw [hpeek]; rfl)
  | _ => exact herror

theorem procArguments_ends (hsticky : Sticky NoError assignExpr) (hassign : Sound g .assign assignExpr) (n : Nat) (s : FinshParser)
    (hlookup : s.lookup = g.lookup) :
    Ends NoError (procArguments assignExpr n) s fun p s' =>
      Parsed s [.rightParen] p .nil s' ∨ ∃ ts t, Parsed s (ts ++ [.rightParen]) p t s' ∧ Derives g .paramList ts t := by
  refine ends_next (.ite (fun _ => ends_replay ?_) fun hright => .pure ?_)
  · refine .bind (fun _ => (sticky_matchToken _).bind fun _ => .pure _) ((procParamList_sound hsticky hassign n s.putBack hlookup).mono ?_)
    intro p s' ⟨ts, t, hparsed, hderives⟩
    refine ends_matchToken (fun _ => .pure _) fun hright => .pure (Or.inr ⟨ts, t, ?_, hderives⟩)
    have hall := hparsed.of_putBack.concat
    rwa [hright] at hall
  · have hall := (Parsed.nil s).concat
    rw [not_not.1 hright] at hall
    exact Or.inl hall

theorem postfixLoop_ends (hsticky : Sticky NoError assignExpr) (hassign : Sound g .assign assignExpr) (m n : Nat) :
    ∀ (s₀ s₁ : FinshParser) (r : Option Nat), s₀.lookup = g.lookup → TookDerived g .postfixed s₀ r s₁ →
      Ends NoError (postfixLoop (procArguments assignExpr m) n r s₁.peek) s₁.next (TookDerived g .postfixed s₀) := by
  induction n with
  | zero => exact fun _ _ _ _ _ _ _ h => nomatch h
  | succ n ih =>
    intro s₀ s₁ r hlookup ⟨ts, t, hparsed, hderives⟩
    have htree := hderives.isTree fun heq => nomatch heq
    obtain ⟨p, rfl⟩ := hparsed.root htree
    have hloop (node : Option Nat) : Sticky NoError (nextToken >>= postfixLoop (procArguments assignExpr m) n node) :=
      sticky_nextToken.bind fun token => sticky_postfixLoop (sticky_procArguments hsticky m) n node token
    have hop (sys : FinshSys) (hsys : postfixOp s₁.peek = some sys) :
        Ends NoError (do let node ← makeSysNode sys (some p) none; let token ← nextToken; postfixLoop (procArguments assignExpr m) n node token)
          s₁.next (TookDerived g .postfixed s₀) :=
      .bind hloop (ends_makeSysNode (ends_next (ih s₀ _ _ hlookup ⟨_, _, hparsed.concat.sysNode htree sys, .postfixed hsys hderives⟩)))
    have hend : Ends NoError (do tokenReplay; return some p : Parse (Option Nat)) s₁.next (TookDerived g .postfixed s₀) :=
      ends_replay (.pure ⟨ts, t, hparsed.putBack, hderives⟩)
    cases hpeek : s₁.peek with
    | inc => exact hop .inc (by rw [hpeek]; rfl)
    | dec => exact hop .dec (by rw [hpeek]; rfl)
    | leftParen =>
      refine .bind (fun below => (sticky_makeSysNode _ _ _).bind hloop)
        ((procArguments_ends hsticky hassign m s₁.next (hparsed.lookup.trans hlookup)).mono fun below s₂ harguments => ?_)
      refine .bind hloop (ends_makeSysNode (ends_next (ih s₀ _ _ hlookup ?_)))
      rcases harguments with hempty | ⟨ts₂, t₂, hparsed₂, hderives₂⟩
      · have hcall := hparsed.operator htree hempty .func
        rw [hpeek, Forest.append_nil] at hcall
        exact ⟨_, _, hcall, .callEmpty hderives⟩
      · have hcall := hparsed.operator htree hparsed₂ .func
        rw [hpeek] at hcall
        exact ⟨_, _, hcall, .call hderives hderives₂⟩
    | _ => exact hend

theorem procPostfixExpr_ends (hsticky : Sticky NoError assignExpr) (hassign : Sound g .assign assignExpr) (n : Nat) {s : FinshParser}
    (hlookup : s.lookup = g.lookup) (hparen : s.peek = .leftParen → g.paren = true) :
    Ends NoError (procPostfixExpr assignExpr n) s (TookDerived g .postfixed s) := by
  refine .bind (fun node => sticky_nextToken.bind fun token => sticky_postfixLoop (sticky_procArguments hsticky n) n node token) ?_
  refine (procPrimaryExpr_ends hassign hlookup hparen).mono fun r s₁ ⟨ts, t, hparsed, hderives⟩ => ends_next ?_
  exact postfixLoop_ends hsticky hassign n n s s₁ r hlookup ⟨ts, t, hparsed, .operand hderives⟩

theorem procUnaryExpr_ends (hcast : Sound g .cast castExpr) (hsticky : Sticky NoError assignExpr)
    (hassign : Sound g .assign assignExpr) (n : Nat) {s : FinshParser} (hlookup : s.lookup = g.lookup)
    (hparen : s.peek = .leftParen → g.paren = true) :
    Ends NoError (procUnaryExpr castExpr assignExpr n) s (TookDerived g .unary s) := by
  have hoperand := hcast s.next hlookup
  refine ends_next (.ite (fun hadd => ?_) fun _ => .ite (fun hsub => ?_) fun _ => ?_)
  · refine hoperand.mono fun r s' ⟨ts, t, hparsed, hderives⟩ => ?_
    have hall := hparsed.cons
    rw [hadd] at hall
    exact ⟨_, _, hall, .plus hderives⟩
  · refine .bind (fun _ => (sticky_nodeNew _).bind fun _ => sticky_makeSysNode _ _ _)
      (hoperand.mono fun r s₁ ⟨ts, t, hparsed, hderives⟩ => .bind (fun _ => sticky_makeSysNode _ _ _) (ends_nodeNew (ends_makeSysNode ?_)))
    have hall := hparsed.cons
    rw [hsub] at hall
    have hboth := (hall.built.trans (Built.leaf s₁ (.valueLong 0))).swap
    exact ⟨_, _, ⟨hall.took, hboth.sysNode (isTree_leaf _) .sub⟩, .minus hderives⟩
  · cases hop : unaryOp s.peek with
    | some op =>
      refine .bind (fun _ => sticky_makeSysNode _ _ _) (hoperand.mono fun r s₁ ⟨ts, t, hparsed, hderives⟩ => ?_)
      have htree := hderives.isTree fun heq => nomatch heq
      obtain ⟨p, rfl⟩ := hparsed.root htree
      exact ends_makeSysNode ⟨_, _, hparsed.cons.sysNode htree op, .unary hop hderives⟩
    | none =>
      have htail := procPostfixExpr_ends hsticky hassign n (s := s.putBack) hlookup hparen
      refine ends_replay (htail.mono ?_)
      exact fun r s' ⟨ts, t, hparsed, hderives⟩ => ⟨ts, t, hparsed.of_putBack, .operand hderives⟩

end

/-! ## Expressions and statements -/

section

variable (lookup : List UInt8 → Option FinshId)

theorem sticky_castRest {unaryExpr : Parse (Option Nat)} (hunary : Sticky NoError unaryExpr) (type : FinshType) (cast : Option Nat) :
    Sticky NoError (match cast with
      | some cast => do setDataType cast type; return some cast
      | none => do tokenReplay; unaryExpr : Parse (Option Nat)) := by
  cases cast with
  | some cast => exact (sticky_setDataType _ _).bind fun _ => .pure _
  | none => exact sticky_tokenReplay.bind fun _ => hunary

theorem exprs_sound (n : Nat) :
    Sound (plainGrammar lookup) .cast (procCastExpr n) ∧ Sound (plainGrammar lookup) .assign (procAssignExpr n) := by
  induction n with
  | zero =>
    rw [procCastExpr, procAssignExpr]
    constructor
    · intro _ _ _ _ h
      cases h
    · intro _ _ _ _ h
      cases h
  | succ n ih =>
    obtain ⟨hcast, hassign⟩ := ih
    have hsticky : Sticky NoError (procCastExpr n) ∧ Sticky NoError (procAssignExpr n) := sticky_exprs n
    obtain ⟨hstickyCast, hstickyAssign⟩ := hsticky
    have hstickyUnary := sticky_procUnaryExpr hstickyCast hstickyAssign n
    rw [procCastExpr, procAssignExpr]
    refine ⟨fun s hlookup => ?_, fun s hlookup => ?_⟩
    · refine ends_next (.ite (fun hleft => ?_) fun hleft => ends_replay ?_)
      · have hrest := sticky_castRest hstickyUnary
        refine .bind (fun type => (sticky_matchToken _).bind fun _ => hstickyCast.bind fun cast => hrest type cast)
          ((procType_ends s.next).mono fun type s₁ hended => ?_)
        obtain ⟨ts₁, htype, hcastType⟩ := hended
        refine ends_matchToken (fun _ => hstickyCast.bind fun cast => hrest type cast) fun hright => ?_
        refine .bind (hrest type) ((hcast s₁.next (htype.lookup.trans hlookup)).mono fun r s₂ htook => ?_)
        obtain ⟨ts₂, t, hparsed, hderives⟩ := htook
        have htree := hderives.isTree fun heq => by cases heq
        obtain ⟨p, rfl⟩ := hparsed.root htree
        have htook := Parsed.took_trans htype.cons.took hparsed.took
        rw [hleft, hright] at htook
        have hbuilt := (htype.built.of_next.trans hparsed.built.of_next).swap.setDataType htree type
        exact .step rfl (.pure ⟨_, _, ⟨htook, hbuilt⟩, .cast hcastType hderives⟩)
      · have hunary := procUnaryExpr_ends hcast hstickyAssign hassign n (s := s.putBack) hlookup fun hpeek => absurd hpeek hleft
        refine hunary.mono fun r s' htook => ?_
        obtain ⟨ts, t, hparsed, hderives⟩ := htook
        exact ⟨ts, t, hparsed.of_putBack, .operand hderives⟩
    · have hrest (or : Option Nat) (token : FinshToken) : Sticky NoError
          (if token = .assign then do let assign ← procAssignExpr n; makeSysNode .assign or assign
            else do tokenReplay; return or : Parse (Option Nat)) :=
        .ite (hstickyAssign.bind fun _ => sticky_makeSysNode _ _ _) (sticky_tokenReplay.bind fun _ => .pure _)
      refine .bind (fun or => sticky_nextToken.bind (hrest or))
        ((procInclusiveOrExpr_sound hstickyCast hcast n s hlookup).mono fun r s₁ htook => ends_next ?_)
      obtain ⟨ts₁, t₁, hparsed₁, hderives₁⟩ := htook
      refine .ite (fun hassignToken => ?_) fun _ => ends_replay (.pure ⟨ts₁, t₁, hparsed₁.putBack, .operand hderives₁⟩)
      have htree := hderives₁.isTree fun heq => by cases heq
      obtain ⟨p, rfl⟩ := hparsed₁.root htree
      refine .bind (fun _ => sticky_makeSysNode _ _ _)
        ((hassign s₁.next (hparsed₁.lookup.trans hlookup)).mono fun r s₂ htook => ends_makeSysNode ?_)
      obtain ⟨ts₂, t₂, hparsed₂, hderives₂⟩ := htook
      have hall := hparsed₁.operator htree hparsed₂ .assign
      rw [hassignToken] at hall
      exact ⟨_, _, hall, .assign hderives₁ hderives₂⟩

theorem procExprStatement_ends (n : Nat) {s : FinshParser} (hlookup : s.lookup = lookup) :
    Ends NoError (procExprStatement n) s fun p s' => ∃ ts t, Parsed s ts p t s' ∧ DerivesStatement (plainGrammar lookup) ts t := by
  refine ends_next (.ite (fun _ => ends_replay ?_) fun hsemicolon => .pure ?_)
  · refine .bind (fun _ => (sticky_matchToken _).bind fun _ => .pure _) (((exprs_sound lookup n).2 s.putBack hlookup).mono ?_)
    intro p s' ⟨ts, t, hparsed, hderives⟩
    refine ends_matchToken (fun _ => .pure _) fun hsemicolon => .pure ⟨_, t, ?_, .expr hderives⟩
    have hall := hparsed.of_putBack.concat
    rwa [hsemicolon] at hall
  · have hall := (Parsed.nil s).concat
    rw [not_not.1 hsemicolon] at hall
    exact ⟨_, _, hall, .empty⟩

end

end RtThread
