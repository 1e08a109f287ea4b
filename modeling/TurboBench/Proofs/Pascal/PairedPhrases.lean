import TurboBench.Proofs.Pascal.Pairing
import TurboBench.Proofs.Pascal.Scope

/-!
# The phrases of two sources, side by side

Expressions and statements are paired with themselves in every lawful pairing: from states that
belong together they yield equal trees, because a tree has the folded names and the values of
numerals in it. What is read by a name needs only that the two names are spelled alike.

Statement lists read over semicolons, so where a semicolon is a fence nothing may open a list. That
is the one condition of `pairs_statement`. Declarations and whole programs read over semicolons as
well, and are paired where there is no fence at all; declarations also have to keep states together
in which the same is declared (`Declaring`). The parts of two programs are compared one behind the
other, up to `afterBody_paired`.
-/

set_option autoImplicit false

namespace TurboBench.Pascal

open Parse

/-- A word is next that opens a list of statements or of branches. -/
def ParserState.Opens (s : ParserState) : Prop :=
  ∃ w ∈ [Keyword.begin_, .repeat_, .case_], s.next? = some (.keyword w)

theorem illegalTokens_append (ts us : List Token) :
    illegalTokens (ts ++ us) = illegalTokens ts ++ illegalTokens us :=
  List.filterMap_append

/-- What a compilation reports. -/
def reported : Except (List Diagnostic) Program → List Diagnostic
  | .ok _ => []
  | .error ds => ds

/-- A compilation reports what has been noted when the body is read. -/
theorem reported_parseProgram (source : TokenStream) :
    reported (parseProgram source) = (afterBody source).2.diagnostics := by
  rw [parseProgram_eq]
  split
  · rename_i hempty
    exact (List.isEmpty_iff.1 hempty).symm
  · rfl

namespace Pairing

variable {L : Pairing} (hL : L.Lawful) {s t : ParserState} {factor expression : Parse Expr}
  {statement : Parse Statement}

include hL

/-! ## Expressions -/

/-- An operator is recognised by its lexeme alone, so lexemes that are alike give the same one. -/
theorem pairs_operator? {class? : Lexeme → Option BinaryOp}
    (hclass : ∀ l op, class? l = some op → l ≠ .symbol .semicolon)
    (hname : ∀ x, class? (.identifier x) = none) (hreal : ∀ x, class? (.real x) = none) :
    L.Pairs Eq (operator? class?) (operator? class?) := by
  refine .look fun s t h => ?_
  have hline := hL.near_line h
  rcases next_cases hL h with hsame | ⟨x, y, hs, ht, -⟩ | ⟨x, y, hs, ht, -⟩
  · rw [← hsame, ← hline]
    split
    · rename_i op hop
      obtain ⟨l, hs, hl⟩ := Option.bind_eq_some_iff.1 hop
      exact (pairsAt_advance hL hs (unfenced hL (hclass l op hl))).andThen hL fun _ => .pure rfl
    · exact .pure rfl
  · rw [hs, ht, Option.bind_some, Option.bind_some, hname, hname]
    exact .pure rfl
  · rw [hs, ht, Option.bind_some, Option.bind_some, hreal, hreal]
    exact .pure rfl

theorem pairs_mulOperator : L.Pairs Eq (operator? mulOp?) (operator? mulOp?) :=
  pairs_operator? hL (by rintro _ _ h rfl; exact nomatch h) (fun _ => rfl) fun _ => rfl

theorem pairs_addOperator : L.Pairs Eq (operator? addOp?) (operator? addOp?) :=
  pairs_operator? hL (by rintro _ _ h rfl; exact nomatch h) (fun _ => rfl) fun _ => rfl

theorem pairs_relationOperator : L.Pairs Eq (operator? relationOp?) (operator? relationOp?) :=
  pairs_operator? hL (by rintro _ _ h rfl; exact nomatch h) (fun _ => rfl) fun _ => rfl

/-- Operators and operands that are alike are grouped to the same expression. -/
theorem pairs_leftGrouped {class? : Lexeme → Option BinaryOp} {operand : Parse Expr}
    (hoperator : L.Pairs Eq (operator? class?) (operator? class?))
    (hoperand : L.Pairs Eq operand operand) (first : Expr) :
    L.Pairs Eq (leftGrouped class? operand first) (leftGrouped class? operand first) := by
  have hturn : L.Pairs (Option.Rel Eq) (chainTurn class? operand) (chainTurn class? operand) := by
    refine hoperator.andThen hL fun o => ?_
    split
    · exact hoperand.andThen hL fun e => .pure (.some rfl)
    · exact .pure .none
  have hmany := (pairs_many hL hturn (fun _ => rfl) (advances_operators (hoperand.onward))).eq_list
  exact hmany.andThen hL fun others => .pure rfl

section Factor

variable (hfactor : L.Pairs Eq factor factor)

include hfactor

theorem pairs_term : L.Pairs Eq (term factor) (term factor) :=
  hfactor.andThen hL fun first => pairs_leftGrouped hL (pairs_mulOperator hL) hfactor first

/-- Sums make no difference, if factors make none. -/
theorem pairs_simpleExpression :
    L.Pairs Eq (simpleExpression factor) (simpleExpression factor) := by
  have hterm := pairs_term hL hfactor
  have hgrouped (first : Expr) := pairs_leftGrouped hL (pairs_addOperator hL) hterm first
  refine .look fun s t h => ?_
  rw [← hL.near_line h]
  refine (pairs_acceptSymbol hL .minus (unfenced hL (by simp))).andThen hL (fun _ => ?_) s t h
  refine .ite (hterm.andThen hL fun first => hgrouped _) ?_
  refine ((pairs_acceptSymbol hL .plus (unfenced hL (by simp))).discard hL fun _ => rfl).andThen hL
    fun _ => ?_
  exact hterm.andThen hL hgrouped

/-- Relations make no difference, if factors make none. -/
theorem pairs_relation : L.Pairs Eq (relation factor) (relation factor) := by
  have hsimple := pairs_simpleExpression hL hfactor
  refine hsimple.andThen hL fun left => ?_
  refine (pairs_relationOperator hL).andThen hL fun o => ?_
  split
  · exact hsimple.andThen hL fun right => .pure rfl
  · exact .pure rfl

end Factor

/-- A name that begins an operand: what it denotes depends on its key alone. -/
theorem pairs_namedOperand (hexpression : L.Pairs Eq expression expression) {n m : Name}
    (hnm : L.SameName n m) :
    L.Pairs Eq (namedOperand expression n) (namedOperand expression m) := by
  have hkey := key_eq hL hnm
  have hline := hnm.2
  refine .look fun s t h => ?_
  have hvariable : s.isVariable n.key = t.isVariable m.key := by
    rw [ParserState.isVariable, ParserState.isVariable, hL.near_declarations h, hkey]
  have hnone : L.Pairs Eq
      (do unless s.isVariable n.key do Parse.report n.line (.unknownIdentifier n.text)
          return Expr.variable n.key n.line)
      (do unless s.isVariable n.key do Parse.report n.line (.unknownIdentifier m.text)
          return Expr.variable n.key n.line) := by
    refine .ite (.pure rfl) ?_
    exact (pairs_report hL (hL.charge _ _ (.inl hnm.1))).andThen hL fun _ => .pure rfl
  have hcall (f : Builtin) (hs : s.next? = some (.symbol .openParen)) : L.PairsAt Eq
      (do Parse.advance
          let first ← expression
          let others ← many (afterSymbol? .comma expression)
          expectSymbol .closeParen
          unless others.isEmpty do Parse.report n.line (.parameterCount n.text)
          return Expr.call f first n.line)
      (do Parse.advance
          let first ← expression
          let others ← many (afterSymbol? .comma expression)
          expectSymbol .closeParen
          unless others.isEmpty do Parse.report n.line (.parameterCount m.text)
          return Expr.call f first n.line) s t := by
    refine (pairsAt_advance hL hs (unfenced hL (by simp))).andThen hL fun _ => ?_
    refine hexpression.andThen hL fun first => ?_
    have hothers := pairs_many hL
      (pairs_afterSymbol? hL .comma (unfenced hL (by simp)) hexpression fun _ => rfl)
      (fun _ => rfl) (advances_commas (hexpression.onward))
    refine hothers.eq_list.andThen hL fun others => ?_
    refine (pairs_expectSymbol hL .closeParen (unfenced hL (by simp))).andThen hL fun _ => ?_
    refine .ite (.pure rfl) ?_
    exact (pairs_report hL (hL.charge _ _ (.inl hnm.1))).andThen hL fun _ => .pure rfl
  rw [← hkey, ← hL.near_constants h, ← hline]
  rw [← hkey] at hvariable
  rw [← hvariable]
  generalize Builtin.ofName? n.key = f?
  generalize s.constants.lookup n.key = constant?
  -- It is a call if a parenthesis is next, and where two spellings are next there is none.
  rcases next_cases hL h with hsame | ⟨x, y, hs, ht, -⟩ | ⟨x, y, hs, ht, -⟩
  · rw [← hsame]
    split
    · rename_i f hs
      exact hcall f hs
    · cases constant? with
      | some v => exact .pure rfl
      | none => exact hnone s t h
  · rw [hs, ht]
    cases f? <;> cases constant? with
    | some v => exact .pure rfl
    | none => exact hnone s t h
  · rw [hs, ht]
    cases f? <;> cases constant? with
    | some v => exact .pure rfl
    | none => exact hnone s t h

/-- A factor makes no difference, if what stands inside it makes none. -/
theorem pairs_factorWith (hfactor : L.Pairs Eq factor factor)
    (hexpression : L.Pairs Eq expression expression) :
    L.Pairs Eq (factorWith factor expression) (factorWith factor expression) := by
  refine .look fun s t h => ?_
  have hline := hL.near_line h
  have hadvance {l : Lexeme} (hs : s.next? = some l) (hl : l ≠ .symbol .semicolon) :
      L.PairsAt Eq Parse.advance Parse.advance s t :=
    pairsAt_advance hL hs (unfenced hL hl)
  -- The next tokens are the same, or two names, or two numerals of one value.
  rcases next_cases hL h with hsame | ⟨x, y, hs, ht, hxy⟩ | ⟨x, y, hs, ht, hxy⟩
  · rw [← hsame]
    simp only [← hline]
    split
    · rename_i digits hs
      refine (hadvance hs (by simp)).andThen hL fun _ => ?_
      exact (pairs_inRange hL _ _).andThen hL fun n => .pure rfl
    · rename_i numeral hs
      refine (hadvance hs (by simp)).andThen hL fun _ => ?_
      exact (pairs_inRange hL _ _).andThen hL fun x => .pure rfl
    · rename_i text hs
      exact (hadvance hs (by simp)).andThen hL fun _ => .pure rfl
    · rename_i hs
      exact (hadvance hs (by simp)).andThen hL fun _ => .pure rfl
    · rename_i hs
      exact (hadvance hs (by simp)).andThen hL fun _ => .pure rfl
    · rename_i hs
      refine (hadvance hs (by simp)).andThen hL fun _ => ?_
      exact hfactor.andThen hL fun e => .pure rfl
    · rename_i hs
      refine (hadvance hs (by simp)).andThen hL fun _ => ?_
      exact hfactor.andThen hL fun e => .pure rfl
    · rename_i hs
      refine (hadvance hs (by simp)).andThen hL fun _ => ?_
      refine hexpression.andThen hL fun inner => ?_
      exact (pairs_expectSymbol hL .closeParen (unfenced hL (by simp))).andThen hL fun _ =>
        .pure rfl
    · rename_i text hs
      refine (hadvance hs (by simp)).andThen hL fun _ => ?_
      exact pairs_namedOperand hL hexpression (refl_sameName hL _)
    · exact pairs_unexpected hL _ s t h
  · simp only [hs, ht, ← hline]
    refine (hadvance hs (by simp)).andThen hL fun _ => ?_
    exact pairs_namedOperand hL hexpression ⟨hxy, rfl⟩
  · simp only [hs, ht, ← hline, ← hL.realValue hxy]
    refine (hadvance hs (by simp)).andThen hL fun _ => ?_
    exact (pairs_inRange hL _ _).andThen hL fun x => .pure rfl

theorem pairs_tooDeep {α : Type} : L.Pairs Eq (tooDeep : Parse α) tooDeep := by
  refine .look fun s t h => ?_
  rw [← hL.near_line h]
  exact pairs_stop hL _ _ s t h

theorem pairs_factor_expression (depth : Nat) :
    L.Pairs Eq (Pascal.factor depth) (Pascal.factor depth)
      ∧ L.Pairs Eq (Pascal.expression depth) (Pascal.expression depth) := by
  induction depth with
  | zero => exact ⟨pairs_tooDeep hL, pairs_tooDeep hL⟩
  | succ depth ih => exact ⟨pairs_factorWith hL ih.1 ih.2, pairs_relation hL ih.1⟩

/-! ## Statements -/

/-- The target of an assignment depends on its key alone. -/
theorem pairs_assignable {n m : Name} (hnm : L.SameName n m) :
    L.Pairs Eq (assignable n) (assignable m) := by
  have hkey := key_eq hL hnm
  refine .look fun s t h => ?_
  have hconstant : s.isConstant n.key = t.isConstant m.key := by
    rw [ParserState.isConstant, ParserState.isConstant, hL.near_constants h, hkey]
  have hvariable : s.isVariable n.key = t.isVariable m.key := by
    rw [ParserState.isVariable, ParserState.isVariable, hL.near_declarations h, hkey]
  have hreport (problem : String → Problem) : L.Pairs Eq
      (do Parse.report n.line (problem n.text); return n.key)
      (do Parse.report m.line (problem m.text); return m.key) := by
    rw [← hnm.2]
    exact (pairs_report hL (hL.charge _ _ (.inl hnm.1))).andThen hL fun _ => .pure hkey
  simp only [← hconstant, ← hvariable]
  split
  · exact hreport .assignToConstant s t h
  · split
    · exact .pure hkey
    · exact hreport .unknownIdentifier s t h

/-- A target that is read by its name. -/
theorem pairs_target : L.Pairs Eq (identifier >>= assignable) (identifier >>= assignable) :=
  (pairs_identifier hL).bind hL (refl_sameName hL) fun _ _ => pairs_assignable hL

/-- Assignments to names that are spelled alike make no difference, if expressions make none. -/
theorem pairs_assignment (hexpression : L.Pairs Eq expression expression) {n m : Name}
    (hnm : L.SameName n m) :
    L.Pairs Eq (assignment expression n) (assignment expression m) := by
  refine (pairs_acceptSymbol hL .assign (unfenced hL (by simp))).andThen hL fun _ => .ite ?_ ?_
  · refine (pairs_assignable hL hnm).andThen hL fun target => ?_
    rw [hnm.2]
    exact hexpression.andThen hL fun value => .pure rfl
  · refine .look fun s t h => ?_
    have hknown : (s.isVariable n.key || s.isConstant n.key)
        = (t.isVariable m.key || t.isConstant m.key) := by
      rw [ParserState.isVariable, ParserState.isVariable, ParserState.isConstant,
        ParserState.isConstant, hL.near_declarations h, hL.near_constants h, key_eq hL hnm]
    rw [← hknown, ← hnm.2]
    split
    · exact pairs_unexpected hL _ s t h
    · exact PairsAt.stop (hL.charge _ (fun x => .unknownStatement (.text x)) (.inl hnm.1))

section Parts

variable (hexpression : L.Pairs Eq expression expression)
  (hstatement : L.Pairs Eq statement statement)

/-- The word that closes a list is found at the same place. -/
theorem pairs_closing (opening : Keyword) (line : Nat) :
    L.Pairs Eq (closing opening line) (closing opening line) := by
  refine (pairs_acceptKeyword hL .end_).andThen hL fun _ => .ite (.pure rfl) ?_
  refine .look fun s t h => ?_
  rw [← hL.near_line h]
  exact pairs_stop hL _ _ s t h

/-- Both loops count in the same direction. -/
theorem pairs_direction : L.Pairs Eq direction direction := by
  refine (pairs_acceptKeyword hL .to_).andThen hL fun _ => .ite (.pure rfl) ?_
  exact (pairs_acceptKeyword hL .downto).andThen hL fun _ =>
    .ite (.pure rfl) (pairs_unexpected hL _)

include hexpression

/-- Items of a write make no difference, if expressions make none. -/
theorem pairs_writeItem : L.Pairs Eq (writeItem expression) (writeItem expression) := by
  have hcolon : ¬ L.fence (.symbol .colon) := unfenced hL (by simp)
  refine hexpression.andThen hL fun value => ?_
  refine (pairs_acceptSymbol hL .colon hcolon).andThen hL fun _ => .ite ?_ (.pure rfl)
  refine hexpression.andThen hL fun width => ?_
  have hdecimals := (pairs_afterSymbol? hL .colon hcolon hexpression fun _ => rfl).eq_option
  exact hdecimals.andThen hL fun decimals => .pure rfl

include hstatement

/-- A conditional makes no difference, if what stands inside it makes none. -/
theorem pairs_ifThen (line : Nat) :
    L.Pairs Eq (ifThen expression statement line) (ifThen expression statement line) := by
  refine hexpression.andThen hL fun condition => ?_
  refine (pairs_expectKeyword hL .then_).andThen hL fun _ => ?_
  refine hstatement.andThen hL fun thenBranch => ?_
  exact (pairs_afterKeyword? hL .else_ hstatement).andThen hL fun elseBranch => .pure rfl

theorem pairs_whileDo (line : Nat) :
    L.Pairs Eq (whileDo expression statement line) (whileDo expression statement line) := by
  refine hexpression.andThen hL fun condition => ?_
  refine (pairs_expectKeyword hL .do_).andThen hL fun _ => ?_
  exact hstatement.andThen hL fun body => .pure rfl

/-- A counting loop makes no difference, if what stands inside it makes none. -/
theorem pairs_forTo (line : Nat) :
    L.Pairs Eq (forTo expression statement line) (forTo expression statement line) := by
  refine (pairs_identifier hL).bind hL (refl_sameName hL) fun n m hnm => ?_
  refine (pairs_assignable hL hnm).andThen hL fun counter => ?_
  refine (pairs_expectSymbol hL .assign (unfenced hL (by simp))).andThen hL fun _ => ?_
  refine hexpression.andThen hL fun first => ?_
  refine (pairs_direction hL).andThen hL fun down => ?_
  refine hexpression.andThen hL fun last => ?_
  refine (pairs_expectKeyword hL .do_).andThen hL fun _ => ?_
  exact hstatement.andThen hL fun body => .pure rfl

end Parts

/-! ## Statement lists

A list reads over semicolons, so here no semicolon is a fence. -/

section Lists

variable (hopen : ∀ l, ¬ L.fence l) (hexpression : L.Pairs Eq expression expression)
  (hstatement : L.Pairs Eq statement statement)

/-- A missing semicolon is reported in both, and skipped. -/
theorem pairs_missingSemicolon (read : Option Statement) (h : L.Near s t) :
    L.PairsAt Eq
      (do Parse.report s.line (.expected (.symbol .semicolon) s.found)
          synchronize
          discard (acceptKeyword .else_)
          return (read, true))
      (do Parse.report t.line (.expected (.symbol .semicolon) t.found)
          synchronize
          discard (acceptKeyword .else_)
          return (read, true)) s t := by
  rw [← hL.near_line h]
  refine PairsAt.andThen hL ⟨.report s _, fun hst => .ok rfl (hL.report hst ?_)⟩ fun _ => ?_
  · exact charge_found hL h _ _
  · refine (pairs_synchronize hL).andThen hL fun _ => ?_
    exact ((pairs_acceptKeyword hL .else_).discard hL fun _ => rfl).andThen hL fun _ => .pure rfl

include hopen hstatement

/-- A statement of a list, and whether another follows, is the same in both runs. -/
theorem pairs_statementTurn :
    L.Pairs Eq (statementTurn statement) (statementTurn statement) := by
  refine (pairs_recovering hL hstatement).eq_option.andThen hL fun read => ?_
  refine (pairs_acceptSymbol hL .semicolon (hopen _)).andThen hL fun _ => .ite (.pure rfl) ?_
  refine .look fun s t h => ?_
  have hmissing := pairs_missingSemicolon hL read h
  rcases next_cases hL h with hsame | ⟨x, y, hs, ht, -⟩ | ⟨x, y, hs, ht, -⟩
  · rw [← hsame]
    split
    · exact .pure rfl
    · exact .pure rfl
    · exact .pure rfl
    · exact hmissing
  · rw [hs, ht]
    exact hmissing
  · rw [hs, ht]
    exact hmissing

/-- A list of statements makes no difference, if a single one makes none. -/
theorem pairs_statementList :
    L.Pairs Eq (statementList statement) (statementList statement) := by
  have honward := hstatement.onward
  -- on the number of tokens that are left
  suffices hn : ∀ n s t, s.tokens.length < n → L.Near s t →
      L.PairsAt Eq (statementList statement) (statementList statement) s t by
    exact fun s t h => hn _ s t (Nat.lt_succ_self _) h
  intro n
  induction n with
  | zero => exact fun s t hlt => absurd hlt (Nat.not_lt_zero _)
  | succ n ih =>
    intro s t hlt h
    rw [statementList_eq honward]
    refine (pairs_statementTurn hL hopen hstatement s t h).bind hL (fun _ => rfl) ?_
    rintro ⟨read, another⟩ _ s' t' hturn rfl hst
    obtain ⟨r, u, hu, hless⟩ := getsOn_statementTurn honward s
    rw [hu] at hturn
    obtain ⟨rfl, rfl⟩ := EStateM.Result.ok.inj hturn
    by_cases hanother : another = true
    · have hfewer := hless hanother
      simp only [if_pos hanother]
      exact (ih u t' (by omega) hst).andThen hL fun others => .pure rfl
    · simp only [if_neg hanother]
      exact (PairsAt.pure rfl).andThen hL fun others => .pure rfl

theorem pairs_compound (line : Nat) :
    L.Pairs Eq (compound statement line) (compound statement line) := by
  refine (pairs_statementList hL hopen hstatement).andThen hL fun body => ?_
  exact (pairs_closing hL _ _).andThen hL fun _ => .pure rfl

/-- A branch makes no difference, if statements make none. -/
theorem pairs_caseBranch? : L.Pairs Eq (caseBranch? statement) (caseBranch? statement) := by
  have hbranch : L.Pairs Eq
      (do
        let labels ← commaList constantValue
        expectSymbol .colon
        let body ← statement
        unless ← acceptSymbol .semicolon do
          unless (← atKeyword .end_) || (← atKeyword .else_) do
            unexpected (.symbol .semicolon)
        return some (labels, body))
      (do
        let labels ← commaList constantValue
        expectSymbol .colon
        let body ← statement
        unless ← acceptSymbol .semicolon do
          unless (← atKeyword .end_) || (← atKeyword .else_) do
            unexpected (.symbol .semicolon)
        return some (labels, body)) := by
    refine (pairs_commaList hL (pairs_constantValue hL) fun _ => rfl).eq_list.andThen hL
      fun labels => ?_
    refine (pairs_expectSymbol hL .colon (unfenced hL (by simp))).andThen hL fun _ => ?_
    refine hstatement.andThen hL fun body => ?_
    refine (pairs_acceptSymbol hL .semicolon (hopen _)).andThen hL fun _ => .ite (.pure rfl) ?_
    refine (pairs_atKeyword hL .end_).andThen hL fun atEnd => ?_
    refine (pairs_atKeyword hL .else_).andThen hL fun atElse => .ite (.pure rfl) ?_
    exact (pairs_unexpected hL _).andThen hL fun _ => .pure rfl
  -- Neither a name nor a numeral ends the branches, so in those cases a branch is read on both
  -- sides.
  refine .look fun s t h => ?_
  rcases next_cases hL h with hsame | ⟨x, y, hs, ht, -⟩ | ⟨x, y, hs, ht, -⟩
  · rw [← hsame]
    split
    · exact .pure rfl
    · exact .pure rfl
    · exact .pure rfl
    · exact hbranch s t h
  · rw [hs, ht]
    exact hbranch s t h
  · rw [hs, ht]
    exact hbranch s t h

include hexpression

theorem pairs_repeatUntil (line : Nat) :
    L.Pairs Eq (repeatUntil expression statement line) (repeatUntil expression statement line) := by
  refine (pairs_statementList hL hopen hstatement).andThen hL fun body => ?_
  refine (pairs_expectKeyword hL .until_).andThen hL fun _ => ?_
  exact hexpression.andThen hL fun condition => .pure rfl

/-- A case makes no difference, if its branches make none. -/
theorem pairs_caseOf (line : Nat) :
    L.Pairs Eq (caseOf expression statement line) (caseOf expression statement line) := by
  have hbranch : L.Pairs (Option.Rel Eq) (caseBranch? statement) (caseBranch? statement) := by
    refine (pairs_caseBranch? hL hopen hstatement).weaken ?_
    rintro o _ rfl
    exact refl_option (fun _ => rfl) o
  have hbranches := (pairs_many hL hbranch (fun _ => rfl)
    (advances_caseBranch? (hstatement.onward))).eq_list
  refine hexpression.andThen hL fun selector => ?_
  refine (pairs_expectKeyword hL .of).andThen hL fun _ => ?_
  refine hbranches.andThen hL fun branches => ?_
  refine (pairs_afterKeyword? hL .else_ (pairs_statementList hL hopen hstatement)).andThen hL
    fun otherwise => ?_
  exact (pairs_closing hL _ _).andThen hL fun _ => .pure rfl

end Lists

/-! ## All statements -/

/-- Statements are compared where no list opens, or where no semicolon is a fence. -/
theorem pairsAt_statementWith (hexpression : L.Pairs Eq expression expression)
    (hstatement : L.Pairs Eq statement statement) (h : L.Near s t)
    (hopen : ¬ s.Opens ∨ ∀ l, ¬ L.fence l) :
    L.PairsAt Eq (statementWith expression statement) (statementWith expression statement) s t := by
  have hline := hL.near_line h
  have hadvance {l : Lexeme} (hs : s.next? = some l) (hl : l ≠ .symbol .semicolon) :
      L.PairsAt Eq Parse.advance Parse.advance s t :=
    pairsAt_advance hL hs (unfenced hL hl)
  -- A statement that begins with one of these words reads a list, where a semicolon may be a fence.
  have hunfenced {w : Keyword} (hs : s.next? = some (.keyword w))
      (hw : w ∈ [Keyword.begin_, .repeat_, .case_]) : ∀ l, ¬ L.fence l := by
    rcases hopen with hnot | hfree
    · exact absurd ⟨w, hw, hs⟩ hnot
    · exact hfree
  have hfound (n : Nat) : L.Pairs Eq (Parse.stop n (.unknownStatement s.found) : Parse Statement)
      (Parse.stop n (.unknownStatement t.found)) :=
    fun _ _ _ => PairsAt.stop (charge_found hL h n .unknownStatement)
  have hitems := pairs_parenthesized hL (pairs_writeItem hL hexpression)
  have htargets := pairs_parenthesized hL (pairs_target hL)
  refine .look ?_
  -- The next tokens are the same, or two names, or two numerals; only the same token is told apart
  -- further.
  rcases next_cases hL h with hsame | ⟨x, y, hs, ht, hxy⟩ | ⟨x, y, hs, ht, -⟩
  · rw [← hsame]
    simp only [← hline]
    split
    · exact .pure rfl
    · exact .pure rfl
    · exact .pure rfl
    · exact .pure rfl
    · exact .pure rfl
    · rename_i text hs
      refine (hadvance hs (by simp)).andThen hL fun _ => ?_
      exact pairs_assignment hL hexpression (refl_sameName hL _)
    · rename_i w _ _ _ hs
      refine (hadvance hs (by simp)).andThen hL fun _ => ?_
      split
      · exact pairs_compound hL (hunfenced hs (by simp)) hstatement _
      · exact pairs_ifThen hL hexpression hstatement _
      · exact pairs_whileDo hL hexpression hstatement _
      · exact pairs_repeatUntil hL (hunfenced hs (by simp)) hexpression hstatement _
      · exact pairs_forTo hL hexpression hstatement _
      · exact pairs_caseOf hL (hunfenced hs (by simp)) hexpression hstatement _
      · exact hitems.andThen hL fun items => .pure rfl
      · exact hitems.andThen hL fun items => .pure rfl
      · exact htargets.andThen hL fun targets => .pure rfl
      · exact htargets.andThen hL fun targets => .pure rfl
      · exact hfound _
    · rename_i l hsemicolon _ _ _ _ _ hs
      refine (hadvance hs ?_).andThen hL fun _ => hfound _
      exact fun hl => hsemicolon hl
  · simp only [hs, ht, ← hline]
    refine (hadvance hs (by simp)).andThen hL fun _ => ?_
    exact pairs_assignment hL hexpression ⟨hxy, rfl⟩
  · simp only [hs, ht, ← hline]
    exact (hadvance hs (by simp)).andThen hL fun _ => hfound _

/-- Statements of every depth make no difference. Where a fence may be next, no statement opens a
list in states that belong together. -/
theorem pairs_statement
    (hopen : (∀ l, ¬ L.fence l) ∨ ∀ s t, L.states s t → ¬ s.Opens) (depth : Nat) :
    L.Pairs Eq (Pascal.statement depth) (Pascal.statement depth) := by
  induction depth with
  | zero => exact pairs_tooDeep hL
  | succ depth ih =>
    intro s t h
    have hexpression := (pairs_factor_expression hL depth).2
    by_cases hs : s.Opens
    -- With a fence no list opens in states that belong together, and in others nothing is asked but
    -- that the parser gets on.
    · rcases hopen with hfree | hclosed
      · exact pairsAt_statementWith hL hexpression ih h (.inr hfree)
      · have honward := leads_iff.1 (onward_statement (depth + 1) s)
        exact ⟨honward, fun hst => absurd hs (hclosed s t hst)⟩
    · exact pairsAt_statementWith hL hexpression ih h (.inl hs)

/-! ## Declarations and programs -/

omit hL in
/-- What is declared in both states leaves them together, and so does skipping a heading. -/
structure Declaring (L : Pairing) : Prop where
  declare {s t : ParserState} (h : L.states s t) (d : Declaration) :
    L.states { s with declarations := s.declarations ++ [d] }
      { t with declarations := t.declarations ++ [d] }
  define {s t : ParserState} (h : L.states s t) (constants : List (String × Value)) :
    L.states { s with constants := constants } { t with constants := constants }
  skipHeading {s t : ParserState} (h : L.states s t) :
    L.states { s with tokens := skipHeading s.tokens } { t with tokens := skipHeading t.tokens }

section Declarations

variable (hD : L.Declaring) (hopen : ∀ l, ¬ L.fence l)

/-- A name is new to both states or to neither. -/
theorem pairs_declareNew {n m : Name} (hnm : L.SameName n m) :
    L.Pairs Eq (declareNew n) (declareNew m) := by
  refine .look fun s t h => ?_
  have hknown : (s.isVariable n.key || s.isConstant n.key)
      = (t.isVariable m.key || t.isConstant m.key) := by
    rw [ParserState.isVariable, ParserState.isVariable, ParserState.isConstant,
      ParserState.isConstant, hL.near_declarations h, hL.near_constants h, key_eq hL hnm]
  rw [← hknown, ← hnm.2]
  split
  · have hreport := pairs_report hL (hL.charge n.line .duplicate (.inl hnm.1))
    exact (hreport.andThen hL fun _ => .pure rfl) s t h
  · exact .pure rfl

omit hL in
/-- Only the constants change where one is set, and as they would from the same constants. -/
theorem setConstant_eq {s t : ParserState} (h : s.constants = t.constants) (key : String)
    (v : Value) :
    t.setConstant key v = { t with constants := (s.setConstant key v).constants } := by
  unfold ParserState.setConstant ParserState.isConstant
  rw [← h]
  split
  · rfl
  · rfl

include hD in
/-- Constants under names that are spelled alike leave the states together. -/
theorem pairs_define {n m : Name} (hnm : L.SameName n m) (v : Value) :
    L.Pairs Eq (modify (·.setConstant n.key v) : Parse Unit)
      (modify (·.setConstant m.key v)) := by
  intro s t h
  have hself := setConstant_eq (s := s) (t := s) rfl n.key v
  refine ⟨?_, fun hst => .ok rfl ?_⟩
  · show Further s (s.setConstant n.key v)
    rw [hself]
    exact ⟨List.suffix_rfl, List.prefix_rfl⟩
  · show L.states (s.setConstant n.key v) (t.setConstant m.key v)
    have hother := setConstant_eq (hL.constants hst) n.key v
    generalize (s.setConstant n.key v).constants = constants at hself hother
    rw [← key_eq hL hnm, hself, hother]
    exact hD.define hst constants

include hD hopen in
/-- A declaration of a constant makes no difference. -/
theorem pairs_constantDeclaration :
    L.Pairs Eq constantDeclaration constantDeclaration := by
  refine (pairs_identifier hL).bind hL (refl_sameName hL) fun n m hnm => ?_
  refine (pairs_expectSymbol hL .equal (hopen _)).andThen hL fun _ => ?_
  refine (pairs_constantValue hL).andThen hL fun v => ?_
  refine (pairs_expectSymbol hL .semicolon (hopen _)).andThen hL fun _ => ?_
  refine ((pairs_declareNew hL hnm).discard hL fun _ => rfl).andThen hL fun _ => ?_
  exact pairs_define hL hD hnm v

include hD in
/-- Variables under names that are spelled alike leave the states together. -/
theorem pairs_declareVariable (type : PascalType) {n m : Name} (hnm : L.SameName n m) :
    L.Pairs Eq (declareVariable type n) (declareVariable type m) := by
  refine (pairs_declareNew hL hnm).andThen hL fun new => .ite ?_ (.pure rfl)
  intro s t h
  refine ⟨⟨List.suffix_rfl, List.prefix_rfl⟩, ?_⟩
  rw [← key_eq hL hnm, ← hnm.2]
  exact fun hst => .ok rfl (hD.declare hst _)

include hD in
/-- Several variables do so one by one. -/
theorem pairs_declareVariables (type : PascalType) {ns ms : List Name}
    (h : List.Forall₂ L.SameName ns ms) :
    L.Pairs Eq (ns.forM (declareVariable type)) (ms.forM (declareVariable type)) := by
  induction h with
  | nil => exact .pure rfl
  | cons hnm _ ih => exact (pairs_declareVariable hL hD type hnm).andThen hL fun _ => ih

include hD hopen in
/-- A declaration of variables makes no difference. -/
theorem pairs_variableDeclaration :
    L.Pairs Eq variableDeclaration variableDeclaration := by
  have hnames := pairs_commaList hL (pairs_identifier hL) (refl_sameName hL)
  refine hnames.bind hL (refl_forall₂ (refl_sameName hL)) fun ns ms hnms => ?_
  refine (pairs_expectSymbol hL .colon (hopen _)).andThen hL fun _ => ?_
  refine (pairs_typeName hL).andThen hL fun type => ?_
  refine (pairs_expectSymbol hL .semicolon (hopen _)).andThen hL fun _ => ?_
  exact pairs_declareVariables hL hD type hnms

/-- An identifier is next in both states or in neither. -/
theorem pairs_atIdentifier : L.Pairs Eq atIdentifier atIdentifier := by
  refine .look fun s t h => ?_
  rcases next_cases hL h with hsame | ⟨x, y, hs, ht, -⟩ | ⟨x, y, hs, ht, -⟩
  · rw [← hsame]
    split
    · exact .pure rfl
    · exact .pure rfl
  · rw [hs, ht]
    exact .pure rfl
  · rw [hs, ht]
    exact .pure rfl

include hopen in
/-- A section makes no difference, if its declarations make none and each takes its name. -/
theorem pairs_declarations {declaration : Parse Unit} (h : L.Pairs Eq declaration declaration)
    (hname : TakesName declaration) :
    L.Pairs Eq (declarations declaration) (declarations declaration) := by
  have hturn : L.Pairs (Option.Rel Eq) (declarationTurn declaration)
      (declarationTurn declaration) := by
    refine (pairs_atIdentifier hL).andThen hL fun present => .ite ?_ (.pure .none)
    refine (pairs_recovering hL h).eq_option.andThen hL fun read => .ite ?_ (.pure (.some rfl))
    exact ((pairs_acceptSymbol hL .semicolon (hopen _)).discard hL fun _ => rfl).andThen hL
      fun _ => .pure (.some rfl)
  rw [declarations_eq]
  exact (pairs_many hL hturn (fun _ => rfl) (advances_declarationTurn hname)).eq_list.discard hL
    fun _ => rfl

include hD hopen in
/-- All sections of declarations together make no difference. -/
theorem pairs_declarationPart : L.Pairs Eq declarationPart declarationPart := by
  have hconstants := pairs_declarations hL hopen (pairs_constantDeclaration hL hD hopen)
    takesName_constantDeclaration
  have hvariables := pairs_declarations hL hopen (pairs_variableDeclaration hL hD hopen)
    takesName_variableDeclaration
  have hturn : L.Pairs (Option.Rel Eq) sectionTurn sectionTurn := by
    refine (pairs_acceptKeyword hL .const).andThen hL fun const => .ite ?_ ?_
    · exact hconstants.andThen hL fun _ => .pure (.some rfl)
    · refine (pairs_acceptKeyword hL .var_).andThen hL fun var => .ite ?_ (.pure .none)
      exact hvariables.andThen hL fun _ => .pure (.some rfl)
  rw [declarationPart_eq]
  exact (pairs_many hL hturn (fun _ => rfl) advances_sectionTurn).eq_list.discard hL fun _ => rfl

include hopen in
theorem pairs_heading : L.Pairs L.name heading heading := by
  refine (pairs_expectKeyword hL .program).andThen hL fun _ => ?_
  refine (pairs_identifier hL).bind hL (refl_sameName hL) fun n m hnm => ?_
  exact (pairs_expectSymbol hL .semicolon (hopen _)).andThen hL fun _ => .pure hnm.1

/-- A token is left in both states or in neither. -/
theorem isSome_next (h : L.Near s t) : s.next?.isSome = t.next?.isSome := by
  have hnext := hL.near_next h
  generalize s.next? = a at hnext ⊢
  generalize t.next? = b at hnext ⊢
  cases hnext with
  | none => rfl
  | some _ => rfl

/-- The point that ends a program is found or missed in both runs. -/
theorem pairs_programEnd : L.Pairs Eq programEnd programEnd := by
  refine .look fun s t h => ?_
  have hnone : s.next?.isNone = t.next?.isNone := by
    rw [← Option.not_isSome, ← Option.not_isSome, isSome_next hL h]
  rw [← hnone, ← hL.near_line h]
  -- Whatever was missing before, in the end it is asked whether any text is left.
  have hbehind : L.Pairs Eq
      (do let s ← get
          if s.next?.isSome then Parse.stop s.line (.textAfterEnd s.found) else return ())
      (do let s ← get
          if s.next?.isSome then Parse.stop s.line (.textAfterEnd s.found) else return ()) := by
    refine .look fun s t h => ?_
    rw [← isSome_next hL h, ← hL.near_line h]
    by_cases hsome : s.next?.isSome = true
    · rw [if_pos hsome, if_pos hsome]
      exact PairsAt.stop (charge_found hL h _ _)
    · rw [if_neg hsome, if_neg hsome]
      exact .pure rfl
  have hdot : L.Pairs Eq
      (do unless ← acceptSymbol .dot do Parse.stop s.line .missingDot
          let s ← get
          if s.next?.isSome then Parse.stop s.line (.textAfterEnd s.found) else return ())
      (do unless ← acceptSymbol .dot do Parse.stop s.line .missingDot
          let s ← get
          if s.next?.isSome then Parse.stop s.line (.textAfterEnd s.found) else return ()) := by
    refine (pairs_acceptSymbol hL .dot (unfenced hL (by simp))).andThen hL fun _ => .ite hbehind ?_
    exact (pairs_stop hL _ _).andThen hL fun _ => hbehind
  refine (pairs_acceptKeyword hL .end_).andThen hL (fun _ => .ite hdot (.ite ?_ ?_)) s t h
  · exact (pairs_stop hL _ _).andThen hL fun _ => hdot
  · exact (pairs_unexpected hL _).andThen hL fun _ => hdot

include hopen in
/-- The body of a program makes no difference. -/
theorem pairs_body : L.Pairs Eq body body := by
  refine (pairs_expectKeyword hL .begin_).andThen hL fun _ => ?_
  have hstatement := pairs_statement hL (.inl hopen) nestingLimit
  refine (pairs_statementList hL hopen hstatement).andThen hL fun statements => ?_
  exact (pairs_programEnd hL).andThen hL fun _ => .pure rfl

/-! ## Programs -/

/-- What stops a part of both programs is recorded in both. -/
theorem orElseReport_paired {α : Type} {V : α → α → Prop} {p q : Parse α} {default : α}
    (hp : L.PairsAt V p q s t) (hdefault : V default default) (hst : L.states s t) :
    L.lost (orElseReport p default s).2
      ∨ (V (orElseReport p default s).1 (orElseReport q default t).1
        ∧ L.states (orElseReport p default s).2 (orElseReport q default t).2) := by
  have hends := hp.meets hst
  unfold orElseReport
  generalize p s = r at hends ⊢
  generalize q t = r' at hends ⊢
  cases hends with
  | ok hab hs => exact .inr ⟨hab, hs⟩
  | error hd hs => exact .inr ⟨hdefault, hL.report hs hd⟩
  | lost hlost =>
    left
    cases r with
    | ok a u => exact hlost
    | error d u => exact hL.lost hlost (.report u d)

variable {source source' : TokenStream}

section Parts

variable (hstart : L.states (.ofSource source) (.ofSource source'))

include hD hopen hstart

/-- Behind the headings the first run is lost, or the names are alike and the states belong
together. -/
theorem afterHeading_paired :
    L.lost (afterHeading source).2
      ∨ (Option.Rel L.name (afterHeading source).1 (afterHeading source').1
        ∧ L.states (afterHeading source).2 (afterHeading source').2) := by
  have hname : L.Pairs (Option.Rel L.name) (some <$> heading) (some <$> heading) := by
    rw [map_eq_pure_bind]
    exact (pairs_heading hL hopen).bind hL hL.refl_name fun x y hxy => .pure (.some hxy)
  have hheaded := orElseReport_paired hL (hname _ _ (.inr hstart)) .none hstart
  unfold afterHeading
  generalize orElseReport (some <$> heading) none (.ofSource source) = headed at hheaded ⊢
  generalize orElseReport (some <$> heading) none (.ofSource source') = headed' at hheaded ⊢
  obtain ⟨x, s⟩ := headed
  obtain ⟨y, t⟩ := headed'
  simp only at hheaded ⊢
  -- A heading that is missing on one side is missing on both, and then both skip.
  rcases hheaded with hlost | ⟨hxy, hst⟩
  · left
    cases x with
    | none => exact hL.lost hlost (.skip (skipHeading_suffix _))
    | some x => exact hlost
  · right
    refine ⟨hxy, ?_⟩
    cases hxy with
    | none => exact hD.skipHeading hst
    | some _ => exact hst

/-- Behind the declarations the first run is lost, or the states still belong together. -/
theorem afterDeclarations_paired :
    L.lost (afterDeclarations source)
      ∨ (Option.Rel L.name (afterHeading source).1 (afterHeading source').1
        ∧ L.states (afterDeclarations source) (afterDeclarations source')) := by
  rcases afterHeading_paired hL hD hopen hstart with hlost | ⟨hname, hst⟩
  · exact .inl (hL.lost hlost (afterDeclarations_of_clean source).1)
  · have hpart := pairs_declarationPart hL hD hopen _ _ (.inr hst)
    rcases orElseReport_paired hL hpart rfl hst with hlost | ⟨-, hst⟩
    · exact .inl hlost
    · exact .inr ⟨hname, hst⟩

/-- Behind the bodies the first run is lost, or the bodies are the same and the states belong
together. -/
theorem afterBody_paired :
    L.lost (afterBody source).2
      ∨ (Option.Rel L.name (afterHeading source).1 (afterHeading source').1
        ∧ (afterBody source).1 = (afterBody source').1
        ∧ L.states (afterBody source).2 (afterBody source').2) := by
  rcases afterDeclarations_paired hL hD hopen hstart with hlost | ⟨hname, hst⟩
  · exact .inl (hL.lost hlost (afterBody_of_clean source).1)
  · have hbody := pairs_body hL hopen _ _ (.inr hst)
    rcases orElseReport_paired hL hbody rfl hst with hlost | ⟨hstatements, hst⟩
    · exact .inl hlost
    · exact .inr ⟨hname, hstatements, hst⟩

end Parts

end Declarations

end Pairing

end TurboBench.Pascal
