import TurboBench.Proofs.Pascal.Derivation

/-!
# What is taken for expressions and statements

The parsers of expressions and statements take only phrases of the grammar, with the number of
levels that may still open as the argument on both sides (`derives_expression`,
`derives_statement`). Each is settled with its parts as assumptions; the two inductions on the
levels at the end of the sections put them together.

Operators are read in a loop and grouped to the left, where the grammar has a left recursion. What
the loop keeps is that everything read so far is one phrase (`derives_leftGrouped`). In a statement
list the loop is bounded by the number of tokens. It never comes to its bound, since every turn
that another follows takes a semicolon.
-/

set_option autoImplicit false

namespace TurboBench.Pascal

open Parse

variable {Γ : Scope} {depth : Nat}

/-! ## Operators -/

section Operators

/-- An operator that is read as a multiplying one is spelled as one. -/
theorem lexeme_of_mulOp? {l : Lexeme} {op : BinaryOp} (h : mulOp? l = some op) :
    l = op.lexeme ∧ op.class = .multiplying := by
  unfold mulOp? at h
  split at h
  case h_6 => exact nomatch h
  all_goals
    obtain rfl := Option.some.inj h
    exact ⟨rfl, rfl⟩

/-- An operator that is read as an adding one is spelled as one. -/
theorem lexeme_of_addOp? {l : Lexeme} {op : BinaryOp} (h : addOp? l = some op) :
    l = op.lexeme ∧ op.class = .adding := by
  unfold addOp? at h
  split at h
  case h_4 => exact nomatch h
  all_goals
    obtain rfl := Option.some.inj h
    exact ⟨rfl, rfl⟩

/-- An operator that is read as a relation is spelled as one. -/
theorem lexeme_of_relationOp? {l : Lexeme} {op : BinaryOp} (h : relationOp? l = some op) :
    l = op.lexeme ∧ op.class = .relation := by
  unfold relationOp? at h
  split at h
  case h_7 => exact nomatch h
  all_goals
    obtain rfl := Option.some.inj h
    exact ⟨rfl, rfl⟩

/-- An operator that is read was the first of the tokens. -/
theorem derives_operator? (class? : Lexeme → Option BinaryOp) :
    Derives Γ (TurnAt fun ts o rest => ∃ l, class? l = some o.1 ∧ ts = ⟨l, o.2⟩ :: rest)
      (operator? class?) := by
  refine .look fun s _ => ?_
  split
  · rename_i op hop
    obtain ⟨l, hnext, hl⟩ := Option.bind_eq_some_iff.1 hop
    exact .take hnext (.pure fun rest => ⟨l, hl, rfl⟩)
  · exact .pure fun ts _ => rfl

/-- What was read before the operators and each operand behind one make one phrase. -/
theorem derives_leftGrouped {class? : Lexeme → Option BinaryOp} {c : OperatorClass}
    (hclass : ∀ {l op}, class? l = some op → l = op.lexeme ∧ op.class = c)
    {P Q : List Token → Expr → List Token → Prop}
    (hP : ∀ {ts l op n mid r rest}, P ts l (⟨BinaryOp.lexeme op, n⟩ :: mid) → op.class = c →
      Q mid r rest → P ts (.binary op l r n) rest)
    {operand : Parse Expr} (hoperand : Derives Γ Q operand) (first : Expr) :
    Derives Γ (fun mid e rest => ∀ ts, P ts first mid → P ts e rest)
      (leftGrouped class? operand first) := by
  refine Derives.bind (G := RowAt fun ts o rest =>
    ∃ mid, ts = ⟨BinaryOp.lexeme o.1, o.2.1⟩ :: mid ∧ o.1.class = c ∧ Q mid o.2.2 rest) ?_ ?_
  · refine derives_many ((derives_operator? class?).bind fun o => ?_)
    split
    · rename_i op n
      refine hoperand.bind fun r => .pure ?_
      rintro rest mid hr _ ⟨l, hl, rfl⟩
      obtain ⟨rfl, hop⟩ := hclass hl
      exact ⟨mid, rfl, hop, hr⟩
    · exact .pure fun ts _ h => h
  · intro others
    refine .pure ?_
    intro rest ts hothers start hfirst
    -- By induction on the operators, each of which makes the phrase in front of it its left
    -- operand.
    induction hothers generalizing first with
    | nil => exact hfirst
    | cons h _ ih =>
      obtain ⟨mid, rfl, hop, hr⟩ := h
      exact ih _ (hP hfirst hop hr)

end Operators

/-! ## Expressions -/

section Expressions

variable {factor expression : Parse Expr}

section Factors

variable (hfactor : Derives Γ (FactorAt Γ depth) factor)
  (hexpression : Derives Γ (ExpressionAt Γ depth) expression)

include hfactor

/-- Terms are derived, if factors are. -/
theorem derives_term : Derives Γ (TermAt Γ depth) (term factor) := by
  refine hfactor.bind fun first => ?_
  have hproduct := derives_leftGrouped (P := TermAt Γ depth) lexeme_of_mulOp? .product hfactor
  refine (hproduct first).weaken ?_
  exact fun mid e rest h ts hfirst => h ts (.factor hfirst)

/-- Sums are derived, if factors are. -/
theorem derives_simpleExpression : Derives Γ (SimpleAt Γ depth) (simpleExpression factor) := by
  have hterm := derives_term hfactor
  have hsum := derives_leftGrouped (P := SimpleAt Γ depth) lexeme_of_addOp? .sum hterm
  refine .look fun s _ => .acceptSymbol ?_ ?_
  · refine hterm.bind fun first => (hsum _).weaken ?_
    rintro mid e rest h ts hfirst n htokens
    have hn : s.line = n := by simp [ParserState.line, ← htokens]
    exact h _ (hn ▸ .minus hfirst)
  · refine derives_plus.bind fun _ => hterm.bind fun first => (hsum first).weaken ?_
    rintro mid e rest h ts hfirst start (rfl | ⟨n, rfl⟩) hminus -
    · exact h _ (.unsigned hminus hfirst)
    · exact h _ (.plus hfirst)

/-- Expressions are derived one level above their factors. -/
theorem derives_relation : Derives Γ (ExpressionAt Γ (depth + 1)) (relation factor) := by
  have hsimple := derives_simpleExpression hfactor
  refine hsimple.bind fun l => (derives_operator? relationOp?).bind fun o => ?_
  split
  · rename_i op n
    refine hsimple.bind fun r => .pure ?_
    rintro rest mid hr _ ⟨l, hl, rfl⟩ ts hleft
    obtain ⟨rfl, hop⟩ := lexeme_of_relationOp? hl
    exact .relation hleft hop hr
  · refine .pure ?_
    rintro rest _ rfl ts hleft
    exact .simple hleft

include hexpression

omit hfactor in
/-- A call with more than one argument is recorded, and so is a name that is not declared. -/
theorem derives_namedOperand (n : Name) :
    Derives Γ (fun mid e rest => FactorAt Γ (depth + 1) (.name n.text n.line :: mid) e rest)
      (namedOperand expression n) := by
  refine .look fun s hs => ?_
  split
  -- A call comes first, then a constant of the name, and only then a variable.
  · rename_i f hf hnext
    refine .take hnext (hexpression.bind fun first => ?_)
    refine (derives_many (derives_afterSymbol? .comma hexpression)).bind fun others => ?_
    refine .expectSymbol ?_
    extract_lets done
    refine .ite ?_ ?_
    · intro hempty
      refine .pure ?_
      intro rest k ts hothers mid hfirst
      obtain rfl := List.isEmpty_iff.1 hempty
      cases hothers with
      | nil => exact .call hf hfirst
    · intro _
      refine (Derives.report _ _).bind fun _ => .pure ?_
      exact fun rest ts h => h.elim
  · split
    · rename_i v hv
      exact .pure fun ts _ => .constant (hs ▸ hv)
    · rename_i hconstant
      extract_lets done
      refine .ite ?_ ?_
      · intro hvariable
        refine .pure ?_
        rintro ts -
        exact .variable ⟨hs ▸ hvariable, hs ▸ hconstant⟩
      · intro _
        refine (Derives.report _ _).bind fun _ => .pure ?_
        exact fun rest ts h => h.elim

/-- Factors are derived, one level above the expressions and factors inside them. -/
theorem derives_factorWith :
    Derives Γ (FactorAt Γ (depth + 1)) (factorWith factor expression) := by
  refine .look fun s _ => ?_
  extract_lets line
  -- One case for each token that a factor can begin with, and one for the others.
  split
  · rename_i hnext
    refine .take hnext (derives_inRange fun i hi => .pure ?_)
    exact fun rest => .literal (literal_of_integerValue hi)
  · rename_i hnext
    refine .take hnext (derives_inRange fun x hx => .pure ?_)
    exact fun rest => .literal (literal_of_realValue hx)
  · rename_i hnext
    exact .take hnext (.pure fun rest => .literal (.string _))
  · rename_i hnext
    exact .take hnext (.pure fun rest => .literal .true_)
  · rename_i hnext
    exact .take hnext (.pure fun rest => .literal .false_)
  · rename_i hnext
    refine .take hnext (hfactor.bind fun e => .pure ?_)
    exact fun rest ts he => .not he
  · rename_i hnext
    refine .take hnext (hfactor.bind fun e => .pure ?_)
    exact fun rest ts he => .minus he
  · rename_i hnext
    refine .take hnext (hexpression.bind fun e => .expectSymbol (.pure ?_))
    exact fun rest m ts he => .parentheses he
  · rename_i hnext
    exact .take hnext (derives_namedOperand hexpression _)
  · exact .unexpected _

end Factors

theorem derives_tooDeep {α : Type} {G : List Token → α → List Token → Prop} :
    Derives Γ G (tooDeep : Parse α) :=
  .look fun _ _ => .stop _ _

/-- Factors and expressions open inside each other, so the two are settled together. -/
theorem derives_factor_expression (Γ : Scope) (depth : Nat) :
    Derives Γ (FactorAt Γ depth) (Pascal.factor depth)
      ∧ Derives Γ (ExpressionAt Γ depth) (Pascal.expression depth) := by
  induction depth with
  | zero =>
    rw [Pascal.factor, Pascal.expression]
    exact ⟨derives_tooDeep, derives_tooDeep⟩
  | succ depth ih =>
    rw [Pascal.factor, Pascal.expression]
    exact ⟨derives_factorWith ih.1 ih.2, derives_relation ih.1⟩

theorem derives_expression (Γ : Scope) (depth : Nat) :
    Derives Γ (ExpressionAt Γ depth) (Pascal.expression depth) :=
  (derives_factor_expression Γ depth).2

end Expressions

/-! ## Statement lists -/

section Statements

variable {expression : Parse Expr} {statement : Parse Statement} {line : Nat}

section Lists

variable {P : List Token → Statement → List Token → Prop} (hstatement : Derives Γ P statement)

include hstatement

/-- A turn that another follows takes a semicolon. A statement that stops is recorded, and so is a
missing semicolon. -/
theorem derives_statementTurn :
    Derives Γ (fun ts r rest => ∃ st, r.1 = some st ∧
        if r.2 then ∃ n, P ts st (.mark .semicolon n :: rest) ∧ rest.length < ts.length
        else P ts st rest) (statementTurn statement) := by
  refine (derives_recovering hstatement).suffix.bind fun read => .acceptSymbol ?_ ?_
  · refine .pure ?_
    rintro rest n ts ⟨⟨st, hread, hst⟩, hsuffix⟩
    exact ⟨st, hread, n, hst, hsuffix.length_le⟩
  · refine .look fun s _ => ?_
    -- Without a semicolon the statement has to be the last one, or else it is recorded that one is
    -- missing.
    have hlast : Derives Γ (fun mid r rest => mid = s.tokens →
        ¬ IsNext (.symbol .semicolon) mid → ∀ ts,
        ((∃ st, read = some st ∧ P ts st mid) ∧ mid <:+ ts) → ∃ st, r.1 = some st ∧
          if r.2 then ∃ n, P ts st (.mark .semicolon n :: rest) ∧ rest.length < ts.length
          else P ts st rest) (Pure.pure (read, false)) := by
      refine .pure ?_
      rintro mid - - ts ⟨⟨st, hread, hst⟩, -⟩
      exact ⟨st, hread, hst⟩
    split
    · exact hlast
    · exact hlast
    · exact hlast
    · refine (Derives.report _ _).bind fun _ => ?_
      refine Derives.synchronize.bind fun _ => ?_
      have haccept : Derives Γ (fun _ _ _ => True) (Functor.discard (acceptKeyword .else_)) :=
        (derives_acceptKeyword .else_).discard.weaken fun _ _ _ _ => True.intro
      refine haccept.bind fun _ => .pure ?_
      exact fun rest _ _ _ _ _ h => h.elim

end Lists

section Parts

variable (hexpression : Derives Γ (ExpressionAt Γ depth) expression)
  (hstatement : Derives Γ (StatementAt Γ depth) statement)

section OfStatement

include hstatement

/-- The turns are enough: each that another follows makes what is left shorter. -/
theorem derives_statementsUpTo (n : Nat) :
    Derives Γ (fun ts ss rest => ts.length < n → StatementsAt Γ depth ts ss rest)
      (statementsUpTo statement n) := by
  induction n with
  | zero => exact .pure fun ts h => absurd h (Nat.not_lt_zero _)
  | succ n ih =>
    refine (derives_statementTurn hstatement).bind ?_
    rintro ⟨read, another⟩
    refine .ite ?_ ?_
    · rintro rfl
      refine ih.bind fun others => .pure ?_
      rintro rest mid hothers ts ⟨st, rfl, k, hst, hlt⟩ hn
      exact .more hst (hothers (by omega))
    · rintro rfl
      refine Derives.bind (.pure (G := fun ts others rest => others = [] ∧ rest = ts)
        fun ts => ⟨rfl, rfl⟩) fun others => .pure ?_
      rintro rest _ ⟨rfl, rfl⟩ ts ⟨st, rfl, hst⟩ -
      exact .one hst

theorem derives_statementList : Derives Γ (StatementsAt Γ depth) (statementList statement) := by
  refine .look fun s _ => (derives_statementsUpTo hstatement (s.tokens.length + 1)).weaken ?_
  rintro _ ss rest h rfl
  exact h (Nat.lt_succ_self _)

end OfStatement

/-! ## Statements -/

/-- A constant as a target is recorded, and so is a name that is not declared. -/
theorem derives_assignable (n : Name) :
    Derives Γ (fun ts x rest => rest = ts ∧ x = n.key ∧ Γ.IsVariable n.key) (assignable n) := by
  refine .look fun s hs => ?_
  extract_lets done
  have hrecorded (problem : Problem) : Derives Γ
      (fun ts x rest => ts = s.tokens → rest = ts ∧ x = n.key ∧ Γ.IsVariable n.key)
      (Parse.report n.line problem >>= done) := by
    refine (Derives.report _ _).bind fun _ => .pure ?_
    exact fun rest ts h => h.elim
  refine .ite (fun _ => hrecorded _) fun hconstant => .ite (fun hvariable => .pure ?_)
    fun _ => hrecorded _
  rintro ts -
  have hlookup : s.constants.lookup n.key = none :=
    Option.not_isSome_iff_eq_none.1 (Bool.eq_false_iff.1 hconstant)
  exact ⟨rfl, rfl, hs ▸ hvariable, hs ▸ hlookup⟩

theorem derives_target : Derives Γ (VariableAt Γ) (identifier >>= assignable) := by
  refine derives_identifier.bind fun n => (derives_assignable n).weaken ?_
  rintro _ _ rest ⟨rfl, rfl, hn⟩ ts ⟨⟩
  exact .name hn

theorem derives_closing (opening : Keyword) :
    Derives Γ (fun ts _ rest => ∃ n, ts = .word .end_ n :: rest) (closing opening line) := by
  refine .acceptKeyword (.pure ?_) (.look fun _ _ => .stop _ _)
  exact fun rest n => ⟨n, rfl⟩

theorem derives_direction :
    Derives Γ (fun ts down rest => ∃ n, ts = .word (if down then .downto else .to_) n :: rest)
      direction := by
  refine .acceptKeyword (.pure ?_) (.acceptKeyword (.pure ?_) (.unexpected _))
  · exact fun rest n => ⟨n, rfl⟩
  · exact fun rest n _ => ⟨n, rfl⟩

section OfExpression

include hexpression

/-- An assignment is derived from its name on. -/
theorem derives_assignment (n : Name) :
    Derives Γ (fun mid st rest => StatementAt Γ (depth + 1) (.name n.text n.line :: mid) st rest)
      (assignment expression n) := by
  refine .acceptSymbol ?_ (.look fun s _ => .ite (fun _ => .unexpected _) fun _ => .stop _ _)
  refine (derives_assignable n).bind fun target => hexpression.bind fun e => .pure ?_
  rintro rest mid he ts ⟨rfl, rfl, hn⟩ m
  exact .assign hn he

/-- Items of a write are derived, if expressions are. -/
theorem derives_writeItem : Derives Γ (WriteItemAt Γ depth) (writeItem expression) := by
  refine hexpression.bind fun value => .acceptSymbol ?_ ?_
  · refine hexpression.bind fun width => ?_
    refine (derives_afterSymbol? .colon hexpression).bind fun decimals => .pure ?_
    cases decimals with
    | some d =>
      rintro rest mid ⟨m, mid', rfl, hd⟩ ts hw n start hvalue
      exact .decimals hvalue hw hd
    | none =>
      rintro rest mid rfl ts hw n start hvalue
      exact .width hvalue hw
  · exact .pure fun ts _ start hvalue => .value hvalue

theorem derives_write (newline : Bool) :
    Derives Γ (fun mid st rest => StatementAt Γ (depth + 1)
        (.word (if newline then .writeln else .write) line :: mid) st rest)
      (do return .write newline (← parenthesized (writeItem expression)) line) := by
  refine (derives_parenthesized (derives_writeItem hexpression)).bind fun items => .pure ?_
  exact fun rest ts hitems => .write hitems

end OfExpression

theorem derives_read (newline : Bool) :
    Derives Γ (fun mid st rest => StatementAt Γ (depth + 1)
        (.word (if newline then .readln else .read) line :: mid) st rest)
      (do return .read newline (← parenthesized (identifier >>= assignable)) line) := by
  refine (derives_parenthesized derives_target).bind fun targets => .pure ?_
  exact fun rest ts htargets => .read htargets

include hstatement

/-- A compound statement is derived from its first word on. -/
theorem derives_compound :
    Derives Γ (fun mid st rest => StatementAt Γ (depth + 1) (.word .begin_ line :: mid) st rest)
      (compound statement line) := by
  refine (derives_statementList hstatement).bind fun ss => ?_
  refine (derives_closing .begin_).bind fun _ => .pure ?_
  rintro rest _ ⟨n, rfl⟩ ts hss
  exact .compound hss

include hexpression

/-- The `else` is read by the `if` that is read last before it. -/
theorem derives_ifThen :
    Derives Γ (fun mid st rest => StatementAt Γ (depth + 1) (.word .if_ line :: mid) st rest)
      (ifThen expression statement line) := by
  refine hexpression.bind fun c => .expectKeyword (hstatement.bind fun t => ?_)
  refine (derives_afterKeyword? .else_ hstatement).bind fun e => .pure ?_
  cases e with
  | some e =>
    rintro rest mid ⟨k, mid', rfl, he⟩ ts ht m start hc
    exact .ifThenElse hc ht he
  | none =>
    rintro rest mid ⟨rfl, helse⟩ ts ht m start hc
    exact .ifThen hc ht helse

theorem derives_whileDo :
    Derives Γ (fun mid st rest => StatementAt Γ (depth + 1) (.word .while_ line :: mid) st rest)
      (whileDo expression statement line) := by
  refine hexpression.bind fun c => .expectKeyword (hstatement.bind fun b => .pure ?_)
  exact fun rest mid hb m ts hc => .whileDo hc hb

theorem derives_repeatUntil :
    Derives Γ (fun mid st rest => StatementAt Γ (depth + 1) (.word .repeat_ line :: mid) st rest)
      (repeatUntil expression statement line) := by
  refine (derives_statementList hstatement).bind fun b => ?_
  refine .expectKeyword (hexpression.bind fun c => .pure ?_)
  exact fun rest mid hc m ts hb => .repeatUntil hb hc

/-- A counting loop is derived from its first word on. -/
theorem derives_forTo :
    Derives Γ (fun mid st rest => StatementAt Γ (depth + 1) (.word .for_ line :: mid) st rest)
      (forTo expression statement line) := by
  refine derives_identifier.bind fun x => (derives_assignable x).bind fun counter => ?_
  refine .expectSymbol (hexpression.bind fun first => derives_direction.bind fun down => ?_)
  refine hexpression.bind fun last => .expectKeyword (hstatement.bind fun b => .pure ?_)
  rintro rest mid' hb k mid hlast _ ⟨j, rfl⟩ ts hfirst i _ ⟨rfl, rfl, hx⟩ start ⟨⟩
  exact .forTo hx hfirst hlast hb

omit hexpression in
/-- A turn of a case derives a branch, or finds none. -/
theorem derives_caseBranch? :
    Derives Γ (TurnAt (BranchAt Γ depth)) (caseBranch? statement) := by
  refine .look fun s _ => ?_
  split
  · exact .pure fun ts _ => rfl
  · exact .pure fun ts _ => rfl
  · exact .pure fun ts _ => rfl
  · refine (derives_commaList derives_constantValue).bind fun labels => ?_
    refine .expectSymbol (hstatement.bind fun st => .acceptSymbol ?_ ?_)
    · refine .pure ?_
      exact fun rest m mid hst n ts hlabels _ => .closed hlabels hst
    · extract_lets done
      rw [if_neg Bool.false_ne_true]
      refine (derives_atLexeme _).bind fun atEnd => (derives_atLexeme _).bind fun atElse => ?_
      refine .ite (fun hclosing => .pure ?_) fun _ => .unexpected_bind _
      rintro rest _ ⟨rfl, helse⟩ _ ⟨rfl, hend⟩ - mid hst n ts hlabels -
      refine .last hlabels hst ?_
      rw [← hend, ← helse]
      exact Bool.or_eq_true_iff.1 hclosing

omit hexpression hstatement in
theorem branchesAt_of_row {ts rest : List Token} {bs : List (List Value × Statement)}
    (h : RowAt (BranchAt Γ depth) ts bs rest) : BranchesAt Γ depth ts bs rest := by
  induction h with
  | nil => exact .nil
  | cons hb _ ih => exact .cons hb ih

/-- A case is derived from its first word on. -/
theorem derives_caseOf :
    Derives Γ (fun mid st rest => StatementAt Γ (depth + 1) (.word .case_ line :: mid) st rest)
      (caseOf expression statement line) := by
  refine hexpression.bind fun e => .expectKeyword ?_
  refine (derives_many (derives_caseBranch? hstatement)).bind fun bs => ?_
  refine (derives_afterKeyword? .else_ (derives_statementList hstatement)).bind fun ss => ?_
  refine (derives_closing .case_).bind fun _ => .pure ?_
  cases ss with
  | some ss =>
    rintro rest _ ⟨k, rfl⟩ mid ⟨j, mid', rfl, hss⟩ ts hbs m start he
    exact .caseElse he (branchesAt_of_row hbs) hss
  | none =>
    rintro rest _ ⟨k, rfl⟩ mid ⟨rfl, -⟩ ts hbs m start he
    exact .caseOf he (branchesAt_of_row hbs)

/-- Statements are derived, one level above the expressions and statements inside them. -/
theorem derives_statementWith :
    Derives Γ (StatementAt Γ (depth + 1)) (statementWith expression statement) := by
  refine .look fun s hs => ?_
  extract_lets line
  -- In front of each of five tokens an empty statement is read, and none of them is taken.
  have hempty : Derives Γ (fun ts st rest => ts = s.tokens → StatementAt Γ (depth + 1) ts st rest)
      (Pure.pure (.empty line)) := by
    refine .pure ?_
    rintro _ rfl
    have hline : line = Γ.lineAt s.tokens := hs ▸ rfl
    exact hline ▸ .empty
  split
  · exact hempty
  · exact hempty
  · exact hempty
  · exact hempty
  · exact hempty
  · rename_i hnext
    exact .take hnext (derives_assignment hexpression _)
  · rename_i hnext
    refine .take hnext ?_
    split
    · exact derives_compound hstatement
    · exact derives_ifThen hexpression hstatement
    · exact derives_whileDo hexpression hstatement
    · exact derives_repeatUntil hexpression hstatement
    · exact derives_forTo hexpression hstatement
    · exact derives_caseOf hexpression hstatement
    · exact derives_write hexpression false
    · exact derives_write hexpression true
    · exact derives_read false
    · exact derives_read true
    · exact .stop _ _
  · rename_i hnext
    exact .take hnext (.stop _ _)

end Parts

theorem derives_statement (Γ : Scope) (depth : Nat) :
    Derives Γ (StatementAt Γ depth) (Pascal.statement depth) := by
  induction depth with
  | zero => exact derives_tooDeep
  | succ depth ih => exact derives_statementWith (derives_expression Γ depth) ih

end Statements

end TurboBench.Pascal
