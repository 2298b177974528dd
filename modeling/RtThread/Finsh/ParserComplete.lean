import RtThread.Finsh.ParserSound

/-!
# What is derived is accepted

Where the grammar without parentheses derives the tokens to come, and a token follows that cannot go on with the phrase, the function of the nonterminal takes exactly these tokens, sets no error and builds their tree, if there is room for it. By induction on the derivation; of a function with a loop it is said how it gets to the loop.
-/

namespace RtThread

open Failing FinshParser

/-! ## What may follow a phrase -/

namespace FinshLevel

def rank : FinshLevel → Nat
  | primary => 0
  | postfixed | unary | cast => 1
  | multiplicative => 2
  | additive => 3
  | shift => 4
  | and => 5
  | exclusiveOr => 6
  | inclusiveOr => 7
  | assign => 8
  | paramList => 9

/-- The functions of `finsh_parser.c`, with fuel. -/
def parser : FinshLevel → Nat → Parse (Option Nat)
  | assign, n => procAssignExpr n
  | inclusiveOr, n => procInclusiveOrExpr (procCastExpr n) n
  | exclusiveOr, n => procExclusiveOrExpr (procCastExpr n) n
  | and, n => procAndExpr (procCastExpr n) n
  | shift, n => procShiftExpr (procCastExpr n) n
  | additive, n => procAdditiveExpr (procCastExpr n) n
  | multiplicative, n => procMultiplicativeExpr (procCastExpr n) n
  | cast, n => procCastExpr n
  | unary, n => procUnaryExpr (procCastExpr n) (procAssignExpr n) n
  | postfixed, n => procPostfixExpr (procAssignExpr n) n
  | primary, n => procPrimaryExpr (procAssignExpr n)
  | paramList, n => procParamList (procAssignExpr n) n

def fuel : FinshLevel → Nat → Nat
  | assign, k | paramList, k => 2 * k + 2
  | unary, k | postfixed, k | primary, k => 2 * k
  | _, k => 2 * k + 1

def IsBinary : FinshLevel → Prop
  | inclusiveOr | exclusiveOr | and | shift | additive | multiplicative => True
  | _ => False

end FinshLevel

def FinshToken.rank : FinshToken → Nat
  | .inc | .dec | .leftParen => 1
  | .mul | .div | .mod => 2
  | .add | .sub => 3
  | .shl | .shr => 4
  | .and => 5
  | .xor => 6
  | .or => 7
  | .assign => 8
  | .comma => 9
  | _ => 10

def Stops (level : FinshLevel) (token : FinshToken) : Prop := level.rank < token.rank

theorem rank_of_op {level : FinshLevel} {token : FinshToken} {sys : FinshSys} (h : level.op token = some sys) :
    level.IsBinary ∧ token.rank = level.rank := by
  cases level <;> cases token <;> first | exact ⟨trivial, rfl⟩ | exact nomatch h

theorem FinshLevel.IsBinary.operand_rank {level : FinshLevel} (h : level.IsBinary) : level.operand.rank < level.rank := by
  cases level <;> first | exact h.elim | decide

theorem Stops.op_eq_none {level : FinshLevel} {token : FinshToken} (h : Stops level token) : level.op token = none := by
  cases hop : level.op token with
  | none => rfl
  | some sys => exact absurd (rank_of_op hop).2 (Nat.ne_of_gt h)

theorem Stops.operand {level : FinshLevel} {token : FinshToken} (h : Stops level token) : Stops level.operand token := by
  refine Nat.lt_of_le_of_lt ?_ h
  cases level <;> decide

/-! ## How a phrase begins -/

def FinshToken.startsPrimary : FinshToken → Bool
  | .identifier _ | .valueChar _ | .valueInt _ | .valueLong _ | .valueString _ | .valueNull => true
  | _ => false

def FinshToken.startsUnary : FinshToken → Bool
  | .add | .sub | .inc | .dec | .bitwise | .mul | .and => true
  | token => token.startsPrimary

def Starts : FinshLevel → FinshToken → Prop
  | .primary, token | .postfixed, token => token.startsPrimary = true
  | .unary, token => token.startsUnary = true
  | _, token => token.startsUnary = true ∨ token = .leftParen

theorem Starts.of_operand {level : FinshLevel} {token : FinshToken} (h : Starts level.operand token) : Starts level token := by
  cases level with
  | cast => exact Or.inl h
  | unary =>
    cases token <;> first | rfl | exact nomatch h
  | _ => exact h

theorem Starts.of_startsUnary {level : FinshLevel} {token : FinshToken} (h : Starts level token) :
    token.startsUnary = true ∨ token = .leftParen := by
  cases level with
  | primary => cases token <;> first | exact Or.inl rfl | exact nomatch h
  | postfixed => cases token <;> first | exact Or.inl rfl | exact nomatch h
  | unary => exact Or.inl h
  | _ => exact h

theorem Derives.head {lookup : List UInt8 → Option FinshId} {level : FinshLevel} {ts : List FinshToken} {t : Forest FinshLabel}
    (h : Derives (plainGrammar lookup) level ts t) : ∃ token ts', ts = token :: ts' ∧ Starts level token := by
  induction h with
  | operand _ ih =>
    obtain ⟨token, ts', rfl, hstarts⟩ := ih
    exact ⟨token, ts', rfl, hstarts.of_operand⟩
  | operator hop _ _ ih =>
    obtain ⟨token, ts', rfl, hstarts⟩ := ih
    exact ⟨token, _, rfl, hstarts⟩
  | assign _ _ ih =>
    obtain ⟨token, ts', rfl, hstarts⟩ := ih
    exact ⟨token, _, rfl, hstarts.of_startsUnary⟩
  | cast => exact ⟨_, _, rfl, Or.inr rfl⟩
  | plus => exact ⟨_, _, rfl, rfl⟩
  | minus => exact ⟨_, _, rfl, rfl⟩
  | @unary _ _ token _ hop =>
    refine ⟨_, _, rfl, ?_⟩
    cases token <;> first | rfl | exact nomatch hop
  | postfixed _ _ ih =>
    obtain ⟨token, ts', rfl, hstarts⟩ := ih
    exact ⟨token, _, rfl, hstarts⟩
  | call _ _ ih =>
    obtain ⟨token, ts', rfl, hstarts⟩ := ih
    exact ⟨token, _, rfl, hstarts⟩
  | callEmpty _ ih =>
    obtain ⟨token, ts', rfl, hstarts⟩ := ih
    exact ⟨token, _, rfl, hstarts⟩
  | params _ _ ih =>
    obtain ⟨token, ts', rfl, hstarts⟩ := ih
    exact ⟨token, _, rfl, hstarts⟩
  | emptyParam h => exact nomatch h
  | identifier => exact ⟨_, _, rfl, rfl⟩
  | @literal token _ htype =>
    refine ⟨_, _, rfl, ?_⟩
    cases token <;> first | rfl | exact nomatch htype
  | paren h => exact nomatch h

theorem peek_of_pending {s : FinshParser} {token : FinshToken} {ts : List FinshToken} {rest : Stream' FinshToken}
    (h : s.pending = (token :: ts) ++ₛ rest) : s.peek = token ∧ s.next.pending = ts ++ₛ rest := by
  rw [← head_pending, pending_next, h]
  exact ⟨rfl, rfl⟩

/-! ## Results -/

/-- The function has come to the rest of the tokens, without an error, and has built this forest. -/
structure Consumed (s : FinshParser) (rest : Stream' FinshToken) (t : Forest FinshLabel) (p : Option Nat) (s' : FinshParser) : Prop where
  pending : s'.pending = rest
  noError : s'.NoError
  size : s'.nodes.length = s.nodes.length + t.size
  built : BuiltOne s s' p t

namespace Consumed

variable {s s₁ s₂ s' : FinshParser} {rest rest₁ : Stream' FinshToken} {t t₁ t₂ : Forest FinshLabel} {p : Option Nat}

theorem putBack (h : Consumed s rest t p s') : Consumed s rest t p s'.putBack :=
  ⟨s'.pending_putBack.trans h.pending, h.noError, h.size, h.built.putBack⟩

theorem of_putBack (h : Consumed s.putBack rest t p s') : Consumed s rest t p s' := ⟨h.pending, h.noError, h.size, h.built.of_putBack⟩

theorem next (h : Consumed s rest t p s') : Consumed s rest.tail t p s'.next :=
  ⟨by rw [pending_next, h.pending], h.noError, h.size, h.built.next⟩

theorem of_next (h : Consumed s.next rest t p s') : Consumed s rest t p s' := ⟨h.pending, h.noError, h.size, h.built.of_next⟩

theorem peek (h : Consumed s rest t p s') : s'.peek = rest.head := by
  rw [← head_pending, h.pending]

theorem lookup (h : Consumed s rest t p s') : s'.lookup = s.lookup := h.built.lookup

theorem trans_nil (h : Consumed s rest₁ .nil none s₁) (h₂ : Consumed s₁ rest t p s') : Consumed s rest t p s' :=
  ⟨h₂.pending, h₂.noError, by rw [h₂.size, h.size]; rfl, (h.built.trans h₂.built).swap⟩

theorem sysNode {q : Nat} (h : Consumed s rest t (some q) s') (htree : t.IsTree) (op : FinshSys) :
    Consumed s rest (sysNode op t) (some s'.nodes.length) (s'.linked op q none) := by
  have hbuilt := h.built.sysNode htree op
  rw [Forest.append_nil] at hbuilt
  refine ⟨h.pending, h.noError, ?_, hbuilt⟩
  rw [length_linked, h.size, size_sysNode]
  omega

theorem operator {q : Nat} (h₁ : Consumed s rest₁ t₁ (some q) s₁) (htree : t₁.IsTree) (h₂ : Consumed s₁ rest t₂ p s₂) (op : FinshSys) :
    Consumed s rest (RtThread.sysNode op (t₁.append t₂)) (some s₂.nodes.length) (s₂.linked op q p) := by
  refine ⟨h₂.pending, h₂.noError, ?_, (h₁.built.trans h₂.built).sysNode htree op⟩
  rw [length_linked, h₂.size, h₁.size, size_sysNode, Forest.size_append]
  omega

end Consumed

structure Ready (lookup : List UInt8 → Option FinshId) (s : FinshParser) (room : Nat) : Prop where
  lookup : s.lookup = lookup
  noError : s.NoError
  room : s.nodes.length + room ≤ s.nodeMax

theorem Consumed.ready {lookup : List UInt8 → Option FinshId} {s s' : FinshParser} {rest : Stream' FinshToken} {t : Forest FinshLabel}
    {p : Option Nat} {room room' : Nat} (h : Consumed s rest t p s') (hready : Ready lookup s room) (hroom : t.size + room' ≤ room) :
    Ready lookup s' room' := by
  refine ⟨h.lookup.trans hready.lookup, h.noError, ?_⟩
  have := hready.room
  rw [h.size, h.built.nodeMax]
  omega

theorem Ready.putBack {lookup : List UInt8 → Option FinshId} {s : FinshParser} {room : Nat} (h : Ready lookup s room) :
    Ready lookup s.putBack room := ⟨h.lookup, h.noError, h.room⟩

theorem Ready.next {lookup : List UInt8 → Option FinshId} {s : FinshParser} {room : Nat} (h : Ready lookup s room) :
    Ready lookup s.next room := ⟨h.lookup, h.noError, h.room⟩

theorem Ready.mono {lookup : List UInt8 → Option FinshId} {s : FinshParser} {room room' : Nat} (h : Ready lookup s room)
    (hroom : room' ≤ room) : Ready lookup s room' := ⟨h.lookup, h.noError, by have := h.room; omega⟩

/-! ## Phrases and loops -/

section

variable (lookup : List UInt8 → Option FinshId)

def Completes (level : FinshLevel) (ts : List FinshToken) (t : Forest FinshLabel) : Prop :=
  ∀ (n : Nat) (s : FinshParser) (rest : Stream' FinshToken), level.fuel ts.length ≤ n → Ready lookup s t.size →
    s.pending = ts ++ₛ rest → Stops level rest.head →
    ∃ p s', level.parser n s = some (some p, s') ∧ Consumed s rest t (some p) s'

/-- The function of the level gets to its loop with these tokens taken and this tree built, and has gone through the loop less than once
for each token. -/
def ReachesLoop (level below : FinshLevel) (loop : Nat → Nat → Option Nat → FinshToken → Parse (Option Nat)) (ts : List FinshToken)
    (t : Forest FinshLabel) : Prop :=
  ∀ (n : Nat) (s : FinshParser) (rest : Stream' FinshToken), level.fuel ts.length ≤ n → Ready lookup s t.size →
    s.pending = ts ++ₛ rest → Stops below rest.head →
    ∃ p s' m, level.parser n s = (nextToken >>= loop n m (some p)) s' ∧ n < m + ts.length ∧ Consumed s rest t (some p) s'

def ReachesOperators (level : FinshLevel) : List FinshToken → Forest FinshLabel → Prop :=
  ReachesLoop lookup level level.operand fun n => operatorLoop level.op (level.operand.parser n)

def ReachesPostfix : List FinshToken → Forest FinshLabel → Prop :=
  ReachesLoop lookup .postfixed .primary fun n => postfixLoop (procArguments (procAssignExpr n) n)

/-- `proc_param_list` gets to its loop; `last` is the place of the last tree. -/
def ReachesParams (ts : List FinshToken) (t : Forest FinshLabel) : Prop :=
  ∀ (n : Nat) (s : FinshParser) (rest : Stream' FinshToken), FinshLevel.paramList.fuel ts.length ≤ n → Ready lookup s t.size →
    s.pending = ts ++ₛ rest → Stops .assign rest.head →
    ∃ p s' m last, procParamList (procAssignExpr n) n s =
        (nextToken >>= fun token => paramLoop (procAssignExpr n) m last token >>= fun _ => pure (some p)) s' ∧
      n < m + ts.length ∧ Consumed s rest t (some p) s' ∧ BuiltList s s' (some p) t last

structure Complete (level : FinshLevel) (ts : List FinshToken) (t : Forest FinshLabel) : Prop where
  completes : Completes lookup level ts t
  operators : level.IsBinary → ReachesOperators lookup level ts t
  postfixed : level = .postfixed → ReachesPostfix lookup ts t
  params : level = .paramList → ReachesParams lookup ts t

variable {lookup} {level : FinshLevel} {ts : List FinshToken} {t : Forest FinshLabel}

theorem parser_operatorExpr (hbinary : level.IsBinary) (n : Nat) :
    level.parser n = operatorExpr level.op (level.operand.parser n) n := by
  cases level <;> first | exact hbinary.elim | rfl

theorem fuel_operand (hbinary : level.IsBinary) (k : Nat) : level.operand.fuel k = level.fuel k := by
  cases level <;> first | exact hbinary.elim | rfl

theorem fuel_of_isBinary (hbinary : level.IsBinary) (k : Nat) : level.fuel k = 2 * k + 1 := by
  cases level <;> first | exact hbinary.elim | rfl

theorem Complete.of_operators (hbinary : level.IsBinary) (h : ReachesOperators lookup level ts t) (hpos : 0 < ts.length) :
    Complete lookup level ts t where
  completes := by
    intro n s rest hfuel hready hpending hstops
    obtain ⟨p, s', m, hrun, hm, hconsumed⟩ := h n s rest hfuel hready hpending hstops.operand
    refine ⟨p, s'.putBack, ?_, hconsumed.putBack⟩
    have hpeek : level.op s'.peek = none := by
      rw [hconsumed.peek]
      exact hstops.op_eq_none
    obtain ⟨m, rfl⟩ : ∃ k, m = k + 1 := ⟨m - 1, by rw [fuel_of_isBinary hbinary] at hfuel; omega⟩
    rw [hrun, bind_run s'.nextToken_run]
    change operatorLoop level.op (level.operand.parser n) (m + 1) (some p) s'.peek s'.next = _
    rw [operatorLoop, hpeek]
    rfl
  operators := fun _ => h
  postfixed := by rintro rfl; exact hbinary.elim
  params := by rintro rfl; exact hbinary.elim

theorem Complete.of_tail (h : ReachesPostfix lookup ts t) (hpos : 0 < ts.length) : Complete lookup .postfixed ts t where
  completes := by
    intro n s rest hfuel hready hpending hstops
    obtain ⟨p, s', m, hrun, hm, hconsumed⟩ := h n s rest hfuel hready hpending (Nat.lt_of_succ_lt hstops)
    refine ⟨p, s'.putBack, ?_, hconsumed.putBack⟩
    have hpeek : 1 < s'.peek.rank := by
      rw [hconsumed.peek]
      exact hstops
    obtain ⟨m, rfl⟩ : ∃ k, m = k + 1 := ⟨m - 1, by simp only [FinshLevel.fuel] at hfuel; omega⟩
    rw [hrun, bind_run s'.nextToken_run]
    cases htoken : s'.peek <;> rw [htoken] at hpeek <;> first | exact absurd hpeek (by decide) | rfl
  operators := False.elim
  postfixed := fun _ => h
  params := fun heq => nomatch heq

theorem Complete.of_params (h : ReachesParams lookup ts t) (hpos : 0 < ts.length) : Complete lookup .paramList ts t where
  completes := by
    intro n s rest hfuel hready hpending hstops
    obtain ⟨p, s', m, last, hrun, hm, hconsumed, -⟩ := h n s rest hfuel hready hpending (Nat.lt_of_succ_lt hstops)
    refine ⟨p, s'.putBack, ?_, hconsumed.putBack⟩
    have hpeek : s'.peek ≠ .comma := by
      rw [hconsumed.peek]
      intro heq
      rw [Stops, heq] at hstops
      exact Nat.lt_irrefl _ hstops
    obtain ⟨m, rfl⟩ : ∃ k, m = k + 1 := ⟨m - 1, by simp only [FinshLevel.fuel] at hfuel; omega⟩
    rw [FinshLevel.parser, hrun, bind_run s'.nextToken_run, paramLoop, if_neg hpeek]
    rfl
  operators := False.elim
  postfixed := fun heq => nomatch heq
  params := fun _ => h

theorem Complete.of_completes (h : Completes lookup level ts t) (hbinary : ¬level.IsBinary) (htail : level ≠ .postfixed)
    (hparams : level ≠ .paramList) : Complete lookup level ts t :=
  ⟨h, fun hlevel => absurd hlevel hbinary, fun hlevel => absurd hlevel htail, fun hlevel => absurd hlevel hparams⟩

/-! ## Productions -/

theorem Complete.operand (h : Complete lookup level.operand ts t) (hderives : Derives (plainGrammar lookup) level.operand ts t) :
    Complete lookup level ts t := by
  obtain ⟨token, ts', rfl, hstarts⟩ := hderives.head
  by_cases hbinary : level.IsBinary
  · refine .of_operators hbinary (fun n s rest hfuel hready hpending hstops => ?_) (Nat.succ_pos _)
    rw [← fuel_operand hbinary] at hfuel
    obtain ⟨p, s', hrun, hconsumed⟩ := h.completes n s rest hfuel hready hpending hstops
    refine ⟨p, s', n, ?_, Nat.lt_add_of_pos_right (Nat.succ_pos _), hconsumed⟩
    rw [parser_operatorExpr hbinary, operatorExpr, bind_run hrun]
  · cases level with
    | assign =>
      refine .of_completes (fun n s rest hfuel hready hpending hstops => ?_) id (fun heq => by cases heq) fun heq => by cases heq
      simp only [FinshLevel.fuel] at hfuel
      obtain ⟨n, rfl⟩ : ∃ k, n = k + 1 := ⟨n - 1, by omega⟩
      obtain ⟨p, s', hrun, hconsumed⟩ := h.completes n s rest (by simp only [FinshLevel.operand, FinshLevel.fuel]; omega) hready hpending hstops.operand
      refine ⟨p, s'.putBack, ?_, hconsumed.putBack⟩
      have hpeek : s'.peek ≠ .assign := by
        rw [hconsumed.peek]
        intro heq
        rw [Stops, heq] at hstops
        exact Nat.lt_irrefl _ hstops
      change procInclusiveOrExpr (procCastExpr n) n s = _ at hrun
      rw [FinshLevel.parser, procAssignExpr, bind_run hrun, bind_run s'.nextToken_run, if_neg hpeek]
      rfl
    | cast =>
      refine .of_completes (fun n s rest hfuel hready hpending hstops => ?_) id (fun heq => by cases heq) fun heq => by cases heq
      simp only [FinshLevel.fuel] at hfuel
      obtain ⟨n, rfl⟩ : ∃ k, n = k + 1 := ⟨n - 1, by omega⟩
      obtain ⟨p, s', hrun, hconsumed⟩ := h.completes n s.putBack rest (by simp only [FinshLevel.operand, FinshLevel.fuel]; omega) hready.putBack
        (s.pending_putBack.trans hpending) hstops.operand
      refine ⟨p, s', ?_, hconsumed.of_putBack⟩
      have hpeek : s.peek ≠ .leftParen := by
        rw [(peek_of_pending hpending).1]
        rintro rfl
        cases hstarts
      rw [FinshLevel.parser, procCastExpr, bind_run s.nextToken_run, if_neg hpeek]
      exact hrun
    | unary =>
      refine .of_completes (fun n s rest hfuel hready hpending hstops => ?_) id (fun heq => by cases heq) fun heq => by cases heq
      obtain ⟨p, s', hrun, hconsumed⟩ := h.completes n s.putBack rest hfuel hready.putBack (s.pending_putBack.trans hpending) hstops.operand
      refine ⟨p, s', ?_, hconsumed.of_putBack⟩
      rw [FinshLevel.parser, procUnaryExpr, bind_run s.nextToken_run, (peek_of_pending hpending).1]
      cases token <;> first | exact hrun | cases hstarts
    | postfixed =>
      refine .of_tail (fun n s rest hfuel hready hpending hstops => ?_) (Nat.succ_pos _)
      obtain ⟨p, s', hrun, hconsumed⟩ := h.completes n s rest hfuel hready hpending hstops
      refine ⟨p, s', n, ?_, Nat.lt_add_of_pos_right (Nat.succ_pos _), hconsumed⟩
      change procPrimaryExpr (procAssignExpr n) s = _ at hrun
      rw [FinshLevel.parser, procPostfixExpr, bind_run hrun]
    | primary => exact h
    | paramList =>
      refine .of_params (fun n s rest hfuel hready hpending hstops => ?_) (Nat.succ_pos _)
      obtain ⟨p, s', hrun, hconsumed⟩ := h.completes n s rest hfuel hready hpending hstops
      refine ⟨p, s', n, p, ?_, Nat.lt_add_of_pos_right (Nat.succ_pos _), hconsumed, ?_⟩
      · change procAssignExpr n s = _ at hrun
        rw [procParamList, bind_run hrun]
      · exact .single hconsumed.built (hderives.isTree fun heq => by cases heq)
    | _ => exact absurd trivial hbinary

variable {ts₁ ts₂ : List FinshToken} {t₁ t₂ : Forest FinshLabel} {token : FinshToken} {sys : FinshSys}

theorem Ready.lt {s : FinshParser} (h : Ready lookup s 1) : s.nodes.length < s.nodeMax := h.room

theorem Complete.operator (hop : level.op token = some sys) (h₁ : Complete lookup level ts₁ t₁)
    (h₂ : Complete lookup level.operand ts₂ t₂) (htree₁ : t₁.IsTree) :
    Complete lookup level (ts₁ ++ token :: ts₂) (sysNode sys (t₁.append t₂)) := by
  obtain ⟨hbinary, hrank⟩ := rank_of_op hop
  refine .of_operators hbinary (fun n s rest hfuel hready hpending hstops => ?_) (by rw [List.length_append, List.length_cons]; omega)
  rw [size_sysNode, Forest.size_append] at hready
  have hfuel' := hfuel
  rw [fuel_of_isBinary hbinary, List.length_append, List.length_cons] at hfuel'
  rw [Stream'.append_append_stream] at hpending
  obtain ⟨p, s₁, m, hrun, hm, hconsumed₁⟩ := h₁.operators hbinary n s _ (by rw [fuel_of_isBinary hbinary]; omega)
    (hready.mono (by omega)) hpending (by
      change level.operand.rank < token.rank
      rw [hrank]
      exact hbinary.operand_rank)
  obtain ⟨m, rfl⟩ : ∃ k, m = k + 1 := ⟨m - 1, by omega⟩
  have hready₁ : Ready lookup s₁ (t₂.size + 1) := hconsumed₁.ready hready (by omega)
  obtain ⟨hpeek, hpending₂⟩ := peek_of_pending hconsumed₁.pending
  obtain ⟨q, s₂, hrun₂, hconsumed₂⟩ := h₂.completes n s₁.next rest (by rw [fuel_operand hbinary, fuel_of_isBinary hbinary]; omega)
    (hready₁.next.mono (by omega)) hpending₂ hstops
  have hready₂ : Ready lookup s₂ 1 := hconsumed₂.ready hready₁.next (by omega)
  refine ⟨s₂.nodes.length, s₂.linked sys p (some q), m, ?_, ?_, hconsumed₁.operator htree₁ hconsumed₂.of_next sys⟩
  · rw [hrun, bind_run s₁.nextToken_run, hpeek]
    change operatorLoop level.op (level.operand.parser n) (m + 1) (some p) token s₁.next = _
    rw [operatorLoop, hop]
    dsimp only
    rw [bind_run hrun₂]
    dsimp only
    rw [bind_run (makeSysNode_run hready₂.lt sys p (some q))]
  · rw [List.length_append, List.length_cons]
    omega

theorem Complete.assign (h₁ : Complete lookup .inclusiveOr ts₁ t₁) (h₂ : Complete lookup .assign ts₂ t₂) (htree₁ : t₁.IsTree) :
    Complete lookup .assign (ts₁ ++ .assign :: ts₂) (sysNode .assign (t₁.append t₂)) := by
  refine .of_completes (fun n s rest hfuel hready hpending hstops => ?_) id (fun heq => nomatch heq) fun heq => nomatch heq
  rw [size_sysNode, Forest.size_append] at hready
  rw [Stream'.append_append_stream] at hpending
  simp only [FinshLevel.fuel, List.length_append, List.length_cons] at hfuel
  obtain ⟨n, rfl⟩ : ∃ k, n = k + 1 := ⟨n - 1, by omega⟩
  obtain ⟨p, s₁, hrun, hconsumed₁⟩ := h₁.completes n s _ (by simp only [FinshLevel.fuel]; omega) (hready.mono (by omega)) hpending
    (by decide : FinshLevel.inclusiveOr.rank < FinshToken.assign.rank)
  have hready₁ : Ready lookup s₁ (t₂.size + 1) := hconsumed₁.ready hready (by omega)
  obtain ⟨hpeek, hpending₂⟩ := peek_of_pending hconsumed₁.pending
  obtain ⟨q, s₂, hrun₂, hconsumed₂⟩ := h₂.completes n s₁.next rest (by simp only [FinshLevel.fuel]; omega)
    (hready₁.next.mono (by omega)) hpending₂ hstops
  have hready₂ : Ready lookup s₂ 1 := hconsumed₂.ready hready₁.next (by omega)
  refine ⟨s₂.nodes.length, s₂.linked .assign p (some q), ?_, hconsumed₁.operator htree₁ hconsumed₂.of_next .assign⟩
  change procInclusiveOrExpr (procCastExpr n) n s = _ at hrun
  change procAssignExpr n s₁.next = _ at hrun₂
  rw [FinshLevel.parser, procAssignExpr, bind_run hrun, bind_run s₁.nextToken_run, if_pos hpeek, bind_run hrun₂]
  exact makeSysNode_run hready₂.lt .assign p (some q)

/-! ## Operands -/

theorem Consumed.nil {s : FinshParser} (h : s.NoError) : Consumed s s.pending .nil none s := ⟨rfl, h, rfl, .refl s⟩

theorem procPointer_run {s₀ s : FinshParser} {rest : Stream' FinshToken} {type : FinshType} (h : Consumed s₀ rest .nil none s)
    (hmul : rest.head ≠ .mul) : ∃ s', procPointer type s = some (type, s') ∧ Consumed s₀ rest .nil none s' := by
  refine ⟨s.putBack, ?_, h.putBack⟩
  rw [procPointer, bind_run s.nextToken_run, if_neg (by rwa [h.peek])]
  rfl

theorem procPointer_run_mul {s₀ s : FinshParser} {rest : Stream' FinshToken} {type : FinshType}
    (h : Consumed s₀ ([.mul] ++ₛ rest) .nil none s) : ∃ s', procPointer type s = some (type.pointer, s') ∧ Consumed s₀ rest .nil none s' := by
  refine ⟨s.next, ?_, h.next⟩
  rw [procPointer, bind_run s.nextToken_run, if_pos (by rw [h.peek]; rfl)]
  rfl

theorem procType_run_name {s : FinshParser} {type : FinshType} {rest : Stream' FinshToken} (hname : TypeName ts type) (hgood : s.NoError)
    (hpending : s.pending = ts ++ₛ rest) : ∃ s', procType s = procPointer type s' ∧ Consumed s rest .nil none s' := by
  have hone := (Consumed.nil hgood).next
  cases hname with
  | @base token _ hbase =>
    obtain ⟨hpeek, hrest⟩ := peek_of_pending hpending
    refine ⟨s.next, ?_, ?_⟩
    · rw [procType, bind_run s.nextToken_run, hpeek, hbase]
    · rw [hpending] at hone
      exact hone
  | @unsigned token _ htype =>
    obtain ⟨hpeek, hrest⟩ := peek_of_pending hpending
    obtain ⟨hpeek', -⟩ := peek_of_pending hrest
    refine ⟨s.next.next, ?_, ?_⟩
    · have hbase : token.baseType.isSome = true := by cases token <;> first | rfl | exact nomatch htype
      rw [procType, bind_run s.nextToken_run, hpeek]
      change (nextToken >>= _) s.next = _
      rw [bind_run s.next.nextToken_run, hpeek', if_pos hbase, htype]
    · have htwo := hone.next
      rw [hpending] at htwo
      exact htwo

theorem procType_run {s : FinshParser} {type : FinshType} {rest : Stream' FinshToken} (htype : CastType ts type) (hgood : s.NoError)
    (hpending : s.pending = ts ++ₛ rest) (hmul : rest.head ≠ .mul) :
    ∃ s', procType s = some (type, s') ∧ Consumed s rest .nil none s' := by
  cases htype with
  | name hname =>
    obtain ⟨s₁, hrun, hconsumed⟩ := procType_run_name hname hgood hpending
    rw [hrun]
    exact procPointer_run hconsumed hmul
  | pointer hname =>
    rw [Stream'.append_append_stream] at hpending
    obtain ⟨s₁, hrun, hconsumed⟩ := procType_run_name hname hgood hpending
    rw [hrun]
    exact procPointer_run_mul hconsumed

theorem Complete.cast {type : FinshType} (htype : CastType ts₁ type) (h : Complete lookup .cast ts₂ t) (htree : t.IsTree) :
    Complete lookup .cast (.leftParen :: (ts₁ ++ .rightParen :: ts₂)) (retype type t) := by
  refine .of_completes (fun n s rest hfuel hready hpending hstops => ?_) id (fun heq => nomatch heq) fun heq => nomatch heq
  rw [size_retype] at hready
  simp only [FinshLevel.fuel, List.length_append, List.length_cons] at hfuel
  obtain ⟨n, rfl⟩ : ∃ k, n = k + 1 := ⟨n - 1, by omega⟩
  obtain ⟨hpeek, hpending₁⟩ := peek_of_pending hpending
  rw [Stream'.append_append_stream] at hpending₁
  obtain ⟨s₁, hrun₁, hconsumed₁⟩ := procType_run htype hready.next.noError hpending₁ (fun heq => nomatch heq)
  have hready₁ : Ready lookup s₁ t.size := hconsumed₁.ready hready.next (by simp [Forest.size])
  obtain ⟨hpeek₁, hpending₂⟩ := peek_of_pending hconsumed₁.pending
  obtain ⟨p, s₂, hrun₂, hconsumed₂⟩ := h.completes n s₁.next rest (by simp only [FinshLevel.fuel]; omega) hready₁.next hpending₂ hstops
  have hall : Consumed s rest t (some p) s₂ := (hconsumed₁.trans_nil hconsumed₂.of_next).of_next
  refine ⟨p, { s₂ with nodes := s₂.nodes.modify p fun n => { n with dataType := type } }, ?_,
    hall.pending, hall.noError, ?_, hall.built.setDataType htree type⟩
  · change procCastExpr n s₁.next = _ at hrun₂
    rw [FinshLevel.parser, procCastExpr, bind_run s.nextToken_run, if_pos hpeek, bind_run hrun₁, matchToken, bind_assoc,
      bind_run s₁.nextToken_run, hpeek₁, checkToken, if_neg (not_not_intro rfl), pure_bind, bind_run hrun₂]
    rfl
  · rw [List.length_modify, hall.size, size_retype]

theorem Complete.plus (h : Complete lookup .cast ts t) : Complete lookup .unary (.add :: ts) t := by
  refine .of_completes (fun n s rest hfuel hready hpending hstops => ?_) id (fun heq => nomatch heq) fun heq => nomatch heq
  simp only [FinshLevel.fuel, List.length_cons] at hfuel
  obtain ⟨hpeek, hpending₁⟩ := peek_of_pending hpending
  obtain ⟨p, s₁, hrun, hconsumed⟩ := h.completes n s.next rest (by simp only [FinshLevel.fuel]; omega) hready.next hpending₁ hstops
  refine ⟨p, s₁, ?_, hconsumed.of_next⟩
  rw [FinshLevel.parser, procUnaryExpr, bind_run s.nextToken_run, if_pos hpeek]
  exact hrun

theorem Complete.minus (h : Complete lookup .cast ts t) :
    Complete lookup .unary (.sub :: ts) (sysNode .sub ((leaf (.valueLong 0)).append t)) := by
  refine .of_completes (fun n s rest hfuel hready hpending hstops => ?_) id (fun heq => by cases heq) fun heq => by cases heq
  rw [size_sysNode, Forest.size_append, size_leaf] at hready
  simp only [FinshLevel.fuel, List.length_cons] at hfuel
  obtain ⟨hpeek, hpending₁⟩ := peek_of_pending hpending
  obtain ⟨p, s₁, hrun, hconsumed⟩ := h.completes n s.next rest (by simp only [FinshLevel.fuel]; omega) (hready.next.mono (by omega)) hpending₁ hstops
  have hready₁ : Ready lookup s₁ 2 := hconsumed.ready hready.next (by omega)
  have hroom : s₁.nodes.length < s₁.nodeMax := (hready₁.mono (by omega : 1 ≤ 2)).lt
  have hroom' : (s₁.allocated (.valueLong 0)).nodes.length < (s₁.allocated (.valueLong 0)).nodeMax := by
    have := hready₁.room
    simp only [allocated, List.length_append, List.length_singleton]
    omega
  have hboth := (hconsumed.built.of_next.trans (Built.leaf s₁ (.valueLong 0))).swap
  refine ⟨(s₁.allocated (.valueLong 0)).nodes.length, (s₁.allocated (.valueLong 0)).linked .sub s₁.nodes.length (some p), ?_,
    hconsumed.pending, hconsumed.noError, ?_, hboth.sysNode (isTree_leaf _) .sub⟩
  · change procCastExpr n s.next = _ at hrun
    rw [FinshLevel.parser, procUnaryExpr, bind_run s.nextToken_run, hpeek, if_neg (fun heq => by cases heq), if_pos rfl, bind_run hrun,
      bind_run (nodeNew_run hroom (.valueLong 0)), makeSysNode_run hroom' .sub s₁.nodes.length (some p)]
  · rw [length_linked, size_sysNode, Forest.size_append, size_leaf]
    simp only [allocated, List.length_append, List.length_singleton, hconsumed.size, FinshParser.next]
    omega

theorem Complete.unary (hop : unaryOp token = some sys) (h : Complete lookup .cast ts t) (htree : t.IsTree) :
    Complete lookup .unary (token :: ts) (sysNode sys t) := by
  refine .of_completes (fun n s rest hfuel hready hpending hstops => ?_) id (fun heq => nomatch heq) fun heq => nomatch heq
  rw [size_sysNode] at hready
  simp only [FinshLevel.fuel, List.length_cons] at hfuel
  obtain ⟨hpeek, hpending₁⟩ := peek_of_pending hpending
  obtain ⟨p, s₁, hrun, hconsumed⟩ := h.completes n s.next rest (by simp only [FinshLevel.fuel]; omega) (hready.next.mono (by omega)) hpending₁ hstops
  have hready₁ : Ready lookup s₁ 1 := hconsumed.ready hready.next (by omega)
  refine ⟨s₁.nodes.length, s₁.linked sys p none, ?_, hconsumed.of_next.sysNode htree sys⟩
  have hadd : token ≠ .add := by rintro rfl; cases hop
  have hsub : token ≠ .sub := by rintro rfl; cases hop
  change procCastExpr n s.next = _ at hrun
  rw [FinshLevel.parser, procUnaryExpr, bind_run s.nextToken_run, hpeek, if_neg hadd, if_neg hsub, hop]
  dsimp only
  rw [bind_run hrun]
  exact makeSysNode_run hready₁.lt sys p none

theorem FinshToken.rank_pos (token : FinshToken) : 0 < token.rank := by
  cases token <;> exact Nat.succ_pos _

theorem matchToken_run {s : FinshParser} (hpeek : s.peek = token) : matchToken token s = some ((), s.next) := by
  rw [matchToken, bind_run s.nextToken_run, hpeek, checkToken, if_neg (not_not_intro rfl)]
  rfl

theorem postfixLoop_op {arguments : Parse (Option Nat)} (hop : postfixOp token = some sys) (m : Nat) (node : Option Nat) :
    postfixLoop arguments (m + 1) node token = makeSysNode sys node none >>= fun node => nextToken >>= postfixLoop arguments m node := by
  cases token with
  | inc =>
    obtain rfl := Option.some.inj hop
    rfl
  | dec =>
    obtain rfl := Option.some.inj hop
    rfl
  | _ => cases hop

theorem Complete.postfixOperator (hop : postfixOp token = some sys) (h : Complete lookup .postfixed ts t) (htree : t.IsTree) :
    Complete lookup .postfixed (ts ++ [token]) (sysNode sys t) := by
  refine .of_tail (fun n s rest hfuel hready hpending hstops => ?_) (by rw [List.length_append, List.length_cons]; omega)
  rw [size_sysNode] at hready
  rw [Stream'.append_append_stream] at hpending
  simp only [FinshLevel.fuel, List.length_append, List.length_cons, List.length_nil] at hfuel
  obtain ⟨p, s₁, m, hrun, hm, hconsumed⟩ := h.postfixed rfl n s _ (by simp only [FinshLevel.fuel]; omega) (hready.mono (by omega)) hpending
    token.rank_pos
  obtain ⟨m, rfl⟩ : ∃ k, m = k + 1 := ⟨m - 1, by omega⟩
  have hready₁ : Ready lookup s₁ 1 := hconsumed.ready hready (by omega)
  obtain ⟨hpeek, -⟩ := peek_of_pending hconsumed.pending
  refine ⟨s₁.nodes.length, s₁.next.linked sys p none, m, ?_, ?_, hconsumed.next.sysNode htree sys⟩
  · rw [hrun, bind_run s₁.nextToken_run, hpeek]
    change postfixLoop (procArguments (procAssignExpr n) n) (m + 1) (some p) token s₁.next = _
    rw [postfixLoop_op hop, bind_run (makeSysNode_run hready₁.next.lt sys p none)]
    rfl
  · rw [List.length_append, List.length_cons]
    omega

theorem Complete.callWith (h : Complete lookup .postfixed ts₁ t₁) (htree : t₁.IsTree)
    (harguments : ∀ (n : Nat) (s : FinshParser) (rest : Stream' FinshToken), 2 * ts₂.length + 2 ≤ n → Ready lookup s t₂.size →
      s.pending = (ts₂ ++ [.rightParen]) ++ₛ rest →
      ∃ p s', procArguments (procAssignExpr n) n s = some (p, s') ∧ Consumed s rest t₂ p s') :
    Complete lookup .postfixed (ts₁ ++ .leftParen :: (ts₂ ++ [.rightParen])) (sysNode .func (t₁.append t₂)) := by
  refine .of_tail (fun n s rest hfuel hready hpending hstops => ?_) (by rw [List.length_append, List.length_cons]; omega)
  rw [size_sysNode, Forest.size_append] at hready
  rw [Stream'.append_append_stream] at hpending
  simp only [FinshLevel.fuel, List.length_append, List.length_cons, List.length_nil] at hfuel
  obtain ⟨p, s₁, m, hrun, hm, hconsumed₁⟩ := h.postfixed rfl n s _ (by simp only [FinshLevel.fuel]; omega) (hready.mono (by omega)) hpending
    (FinshToken.rank_pos _)
  obtain ⟨m, rfl⟩ : ∃ k, m = k + 1 := ⟨m - 1, by omega⟩
  have hready₁ : Ready lookup s₁ (t₂.size + 1) := hconsumed₁.ready hready (by omega)
  obtain ⟨hpeek, hpending₂⟩ := peek_of_pending hconsumed₁.pending
  obtain ⟨q, s₂, hrun₂, hconsumed₂⟩ := harguments n s₁.next rest (by omega) (hready₁.next.mono (by omega)) hpending₂
  have hready₂ : Ready lookup s₂ 1 := hconsumed₂.ready hready₁.next (by omega)
  refine ⟨s₂.nodes.length, s₂.linked .func p q, m, ?_, ?_, hconsumed₁.operator htree hconsumed₂.of_next .func⟩
  · rw [hrun, bind_run s₁.nextToken_run, hpeek]
    change (procArguments (procAssignExpr n) n >>= _) s₁.next = _
    rw [bind_run hrun₂, bind_run (makeSysNode_run hready₂.lt .func p q)]
  · simp only [List.length_append, List.length_cons, List.length_nil]
    omega

theorem Complete.call (h₁ : Complete lookup .postfixed ts₁ t₁) (h₂ : Complete lookup .paramList ts₂ t₂) (htree₁ : t₁.IsTree)
    (hhead : ∃ token ts', ts₂ = token :: ts' ∧ Starts .paramList token) :
    Complete lookup .postfixed (ts₁ ++ .leftParen :: (ts₂ ++ [.rightParen])) (sysNode .func (t₁.append t₂)) := by
  refine h₁.callWith htree₁ fun n s rest hfuel hready hpending => ?_
  obtain ⟨token, ts', rfl, hstarts⟩ := hhead
  have hpeek : s.peek ≠ .rightParen := by
    rw [(peek_of_pending hpending).1]
    rintro rfl
    rcases hstarts with hstarts | hstarts <;> cases hstarts
  rw [Stream'.append_append_stream] at hpending
  obtain ⟨p, s₁, hrun, hconsumed⟩ := h₂.completes n s.putBack _ hfuel hready.putBack (s.pending_putBack.trans hpending)
    (by decide : FinshLevel.paramList.rank < FinshToken.rightParen.rank)
  obtain ⟨hpeek₁, -⟩ := peek_of_pending hconsumed.pending
  refine ⟨some p, s₁.next, ?_, hconsumed.of_putBack.next⟩
  change procParamList (procAssignExpr n) n s.putBack = _ at hrun
  rw [procArguments, bind_run s.nextToken_run, if_pos hpeek]
  change (procParamList (procAssignExpr n) n >>= fun paramList => matchToken .rightParen >>= fun _ => pure paramList) s.putBack = _
  rw [bind_run hrun, bind_run (matchToken_run hpeek₁)]
  rfl

theorem Complete.callEmpty (h : Complete lookup .postfixed ts t) (htree : t.IsTree) :
    Complete lookup .postfixed (ts ++ [.leftParen, .rightParen]) (sysNode .func t) := by
  have hcall : Complete lookup .postfixed (ts ++ .leftParen :: ([] ++ [.rightParen])) (sysNode .func (t.append .nil)) := by
    refine h.callWith htree fun n s rest _ hready hpending => ?_
    have hpeek := (peek_of_pending hpending).1
    refine ⟨none, s.next, ?_, ?_⟩
    · rw [procArguments, bind_run s.nextToken_run, if_neg (not_not_intro hpeek)]
      rfl
    · have hnext := (Consumed.nil hready.noError).next
      rw [hpending] at hnext
      exact hnext
  rwa [Forest.append_nil] at hcall

theorem Complete.nextParam (h₁ : Complete lookup .paramList ts₁ t₁) (h₂ : Complete lookup .assign ts₂ t₂) (htree₂ : t₂.IsTree) :
    Complete lookup .paramList (ts₁ ++ .comma :: ts₂) (t₁.append t₂) := by
  refine .of_params (fun n s rest hfuel hready hpending hstops => ?_) (by rw [List.length_append, List.length_cons]; omega)
  rw [Forest.size_append] at hready
  rw [Stream'.append_append_stream] at hpending
  simp only [FinshLevel.fuel, List.length_append, List.length_cons] at hfuel
  obtain ⟨p, s₁, m, last, hrun, hm, hconsumed₁, hlist⟩ := h₁.params rfl n s _ (by simp only [FinshLevel.fuel]; omega)
    (hready.mono (by omega)) hpending (by decide : FinshLevel.assign.rank < FinshToken.comma.rank)
  obtain ⟨m, rfl⟩ : ∃ k, m = k + 1 := ⟨m - 1, by omega⟩
  have hready₁ : Ready lookup s₁ t₂.size := hconsumed₁.ready hready (by omega)
  obtain ⟨hpeek, hpending₂⟩ := peek_of_pending hconsumed₁.pending
  obtain ⟨q, s₂, hrun₂, hconsumed₂⟩ := h₂.completes n s₁.next rest (by simp only [FinshLevel.fuel]; omega) hready₁.next hpending₂ hstops
  have hlist₂ := hlist.add hconsumed₂.built.of_next htree₂
  change procAssignExpr n s₁.next = _ at hrun₂
  refine ⟨p, s₂.withSibling last (some q), m, q, ?_, ?_, ⟨hconsumed₂.pending, hconsumed₂.noError, ?_, hlist₂.built⟩, hlist₂⟩
  · rw [hrun, bind_run s₁.nextToken_run, hpeek, paramLoop, if_pos rfl, bind_assoc, bind_run hrun₂, bind_assoc]
    change ((nextToken >>= fun token => paramLoop (procAssignExpr n) m q token) >>= fun _ => pure (some p)) (s₂.withSibling last (some q)) = _
    rw [bind_assoc]
  · rw [List.length_append, List.length_cons]
    omega
  · rw [withSibling, List.length_modify, hconsumed₂.size, Forest.size_append, ← Nat.add_assoc, ← hconsumed₁.size]
    rfl

theorem Complete.identifier {name : List UInt8} {var : FinshId} (hvar : lookup name = some var) :
    Complete lookup .primary [.identifier name] (leaf (.id var)) := by
  refine .of_completes (fun n s rest hfuel hready hpending hstops => ?_) id (fun heq => by cases heq) fun heq => by cases heq
  obtain ⟨hpeek, hrest⟩ := peek_of_pending hpending
  refine ⟨s.nodes.length, s.next.allocated (.id var), ?_, hrest, hready.noError, by simp [allocated, FinshParser.next], (Built.leaf s.next _).of_next⟩
  have hvar' : s.next.lookup name = some var := (congrFun hready.lookup name).trans hvar
  rw [FinshLevel.parser, procPrimaryExpr, bind_run s.nextToken_run, hpeek]
  change (procIdentifier >>= nodeNewId) s.putBack = _
  rw [bind_run (procIdentifier_run (s.peek_putBack.trans hpeek))]
  exact nodeNewId_run hvar' hready.next.lt

theorem Complete.literal {type : FinshNodeType} (htype : token.literal = some type) :
    Complete lookup .primary [token] (leaf type) := by
  refine .of_completes (fun n s rest hfuel hready hpending hstops => ?_) id (fun heq => nomatch heq) fun heq => nomatch heq
  obtain ⟨hpeek, hrest⟩ := peek_of_pending hpending
  refine ⟨s.nodes.length, s.next.allocated type, ?_, hrest, hready.noError, by simp [allocated, FinshParser.next], (Built.leaf s.next _).of_next⟩
  rw [FinshLevel.parser, procPrimaryExpr, bind_run s.nextToken_run, hpeek]
  have hrun := nodeNew_run hready.next.lt type
  cases token <;> first | cases htype; exact hrun | cases htype

/-! ## Derivations -/

theorem complete_of_derives (h : Derives (plainGrammar lookup) level ts t) : Complete lookup level ts t := by
  induction h with
  | operand hderives ih => exact ih.operand hderives
  | operator hop h₁ _ ih₁ ih₂ =>
    refine .operator hop ih₁ ih₂ (h₁.isTree ?_)
    rintro rfl
    exact nomatch hop
  | assign h₁ _ ih₁ ih₂ => exact ih₁.assign ih₂ (h₁.isTree fun heq => nomatch heq)
  | cast htype h ih => exact ih.cast htype (h.isTree fun heq => nomatch heq)
  | plus _ ih => exact ih.plus
  | minus _ ih => exact ih.minus
  | unary hop h ih => exact ih.unary hop (h.isTree fun heq => nomatch heq)
  | postfixed hop h ih => exact ih.postfixOperator hop (h.isTree fun heq => nomatch heq)
  | call h₁ h₂ ih₁ ih₂ => exact ih₁.call ih₂ (h₁.isTree fun heq => nomatch heq) h₂.head
  | callEmpty h ih => exact ih.callEmpty (h.isTree fun heq => nomatch heq)
  | params _ h₂ ih₁ ih₂ => exact ih₁.nextParam ih₂ (h₂.isTree fun heq => nomatch heq)
  | emptyParam h => exact nomatch h
  | identifier hvar => exact .identifier hvar
  | literal htype => exact .literal htype
  | paren h => exact nomatch h

/-! ## Statements -/

theorem procExprStatement_completes (h : DerivesStatement (plainGrammar lookup) ts t) {n : Nat} {s : FinshParser}
    {rest : Stream' FinshToken} (hfuel : 2 * ts.length + 2 ≤ n) (hready : Ready lookup s t.size) (hpending : s.pending = ts ++ₛ rest) :
    ∃ p s', procExprStatement n s = some (p, s') ∧ Consumed s rest t p s' := by
  cases h with
  | empty =>
    have hpeek := (peek_of_pending hpending).1
    refine ⟨none, s.next, ?_, ?_⟩
    · rw [procExprStatement, bind_run s.nextToken_run, if_neg (not_not_intro hpeek)]
      rfl
    · have hnext := (Consumed.nil hready.noError).next
      rw [hpending] at hnext
      exact hnext
  | @expr ts _ h =>
    obtain ⟨token, ts', rfl, hstarts⟩ := h.head
    have hpeek : s.peek ≠ .semicolon := by
      rw [(peek_of_pending hpending).1]
      rintro rfl
      rcases hstarts with hstarts | hstarts <;> cases hstarts
    rw [Stream'.append_append_stream] at hpending
    rw [List.length_append] at hfuel
    obtain ⟨p, s₁, hrun, hconsumed⟩ := (complete_of_derives h).completes n s.putBack _ (by simp only [FinshLevel.fuel]; omega)
      hready.putBack (s.pending_putBack.trans hpending) (by decide : FinshLevel.assign.rank < FinshToken.semicolon.rank)
    obtain ⟨hpeek₁, -⟩ := peek_of_pending hconsumed.pending
    refine ⟨some p, s₁.next, ?_, hconsumed.of_putBack.next⟩
    change procAssignExpr n s.putBack = _ at hrun
    rw [procExprStatement, bind_run s.nextToken_run, if_pos hpeek]
    change (procAssignExpr n >>= fun expr => matchToken .semicolon >>= fun _ => pure expr) s.putBack = _
    rw [bind_run hrun, bind_run (matchToken_run hpeek₁)]
    rfl

/-- What `proc_expr_statement` accepts is a statement whose tree it builds, and it accepts every statement that is derived without a
parenthesised expression. -/
theorem procExprStatement_grammar (s : FinshParser) (hgood : s.NoError) :
    (∀ n p s', procExprStatement n s = some (p, s') → s'.NoError →
      ∃ ts t, DerivesStatement (wideGrammar s.lookup) ts t ∧ s.pending = ts ++ₛ s'.pending ∧ BuiltOne s s' p t) ∧
    (∀ n ts t rest, DerivesStatement (narrowGrammar s.lookup) ts t → s.pending = ts ++ₛ rest →
      s.nodes.length + t.size ≤ s.nodeMax → 2 * ts.length + 2 ≤ n →
      ∃ p s', procExprStatement n s = some (p, s') ∧ s'.NoError ∧ s'.pending = rest ∧ BuiltOne s s' p t) := by
  constructor
  · intro n p s' hrun hgood'
    obtain ⟨ts, t, hparsed, hderives⟩ := procExprStatement_ends _ n rfl p s' hrun hgood'
    exact ⟨ts, t, hderives.wide, hparsed.took, hparsed.built⟩
  · intro n ts t rest hderives hpending hroom hfuel
    obtain ⟨p, s', hrun, hconsumed⟩ := procExprStatement_completes hderives.plain hfuel ⟨rfl, hgood, hroom⟩ hpending
    exact ⟨p, s', hrun, hconsumed.noError, hconsumed.pending, hconsumed.built⟩

end

/-! ## Where the comments say something else -/

def FinshParser.ofTokens (ts : List FinshToken) : FinshParser :=
  { toks := ts ++ₛ Stream'.const .eof, currentToken := .eof, replay := false, nodes := [], nodeMax := 16, vars := [], sysvars := [], syscalls := [],
    errno := none }

theorem long_notMem_of_derives {lookup : List UInt8 → Option FinshId} {level : FinshLevel} {ts : List FinshToken} {t : Forest FinshLabel}
    (h : Derives (commentGrammar lookup) level ts t) : .long ∉ ts := by
  induction h with
  | operand _ ih => exact ih
  | @operator level _ _ _ _ token _ hop _ _ ih₁ ih₂ =>
    have htoken : token ≠ .long := by
      rintro rfl
      cases level <;> cases hop
    simp [ih₁, ih₂, htoken.symm]
  | assign _ _ ih₁ ih₂ => simp [ih₁, ih₂]
  | cast htype _ ih =>
    obtain ⟨token, base, -, htoken, ⟨rfl, -⟩ | ⟨rfl, -⟩⟩ := htype <;> simp [ih, htoken.symm]
  | plus _ ih => simp [ih]
  | minus _ ih => simp [ih]
  | @unary _ _ token _ hop _ ih =>
    have htoken : token ≠ .long := by
      rintro rfl
      cases hop
    simp [ih, htoken.symm]
  | @postfixed _ _ token _ hop _ ih =>
    have htoken : token ≠ .long := by
      rintro rfl
      cases hop
    simp [ih, htoken.symm]
  | call _ _ ih₁ ih₂ => simp [ih₁, ih₂]
  | callEmpty _ ih => simp [ih]
  | params _ _ ih₁ ih₂ => simp [ih₁, ih₂]
  | emptyParam => simp
  | identifier => simp
  | @literal token _ htype =>
    have htoken : token ≠ .long := by
      rintro rfl
      cases htype
    simp [htoken.symm]
  | paren _ _ ih => simp [ih]

/-- `(long)1;` is accepted, and the comments do not derive it. -/
theorem procExprStatement_grammar_long :
    (procExprStatement 20 (.ofTokens [.leftParen, .long, .rightParen, .valueInt 1, .semicolon])).map (fun r => r.2.errno) = some none ∧
    ∀ lookup t, ¬DerivesStatement (commentGrammar lookup) [.leftParen, .long, .rightParen, .valueInt 1, .semicolon] t := by
  refine ⟨by decide +kernel, fun lookup t h => ?_⟩
  generalize hts : [FinshToken.leftParen, .long, .rightParen, .valueInt 1, .semicolon] = ts at h
  cases h with
  | empty => exact nomatch hts
  | expr h =>
    apply long_notMem_of_derives h
    have hmem : FinshToken.long ∈ [FinshToken.leftParen, .long, .rightParen, .valueInt 1, .semicolon] := by decide
    rw [hts, List.mem_append] at hmem
    exact hmem.resolve_right (by decide)

/-- `-1;` with room for its tree. -/
theorem procExprStatement_grammar_minus :
    ∃ p s', procExprStatement 20 (.ofTokens [.sub, .valueInt 1, .semicolon]) = some (p, s') ∧ s'.NoError ∧ s'.pending = Stream'.const .eof ∧
      ∃ ts t, DerivesStatement (wideGrammar (FinshParser.ofTokens [.sub, .valueInt 1, .semicolon]).lookup) ts t ∧
        (FinshParser.ofTokens [.sub, .valueInt 1, .semicolon]).pending = ts ++ₛ s'.pending := by
  have hone : Derives (narrowGrammar (FinshParser.ofTokens [.sub, .valueInt 1, .semicolon]).lookup) .cast [.valueInt 1] (leaf (.valueInt 1)) :=
    .operand (.operand (.operand (.literal rfl)))
  have hall : Derives (narrowGrammar (FinshParser.ofTokens [.sub, .valueInt 1, .semicolon]).lookup) .assign [.sub, .valueInt 1]
      (sysNode .sub ((leaf (.valueLong 0)).append (leaf (.valueInt 1)))) :=
    .operand (.operand (.operand (.operand (.operand (.operand (.operand (.operand (.minus hone))))))))
  obtain ⟨hsound, hcomplete⟩ := procExprStatement_grammar (.ofTokens [.sub, .valueInt 1, .semicolon]) rfl
  obtain ⟨p, s', hrun, hgood, hpending, -⟩ := hcomplete 20 _ _ (Stream'.const .eof) (.expr hall) rfl (by decide) (by decide)
  obtain ⟨ts, t, hderives, htook, -⟩ := hsound 20 p s' hrun hgood
  exact ⟨p, s', hrun, hgood, hpending, ts, t, hderives, htook⟩

end RtThread
