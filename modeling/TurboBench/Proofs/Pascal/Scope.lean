import TurboBench.Pascal.Session
import TurboBench.Proofs.Pascal.Occurrences
import TurboBench.Proofs.Pascal.Respecting

/-!
# What an accepted program refers to

The names of a program are settled in two phases. While declarations are read, the declared names
stay distinct and the constants stay values that the source spells (`Declaring`). From `begin` on
the declarations and the constants are what they are (`Knowing`), and the parsers of expressions and
statements yield trees whose names are among them.

A name that is not declared is reported and read as a variable all the same, and after a mistake
the parser goes on. Neither matters to a program that is accepted, since then nothing was reported.
-/

set_option autoImplicit false

namespace TurboBench.Pascal

open Parse

/-! ## Declarations -/

/-- The invariant while declarations are read. -/
structure Declaring (tokens : List Token) (s : ParserState) : Prop where
  source : s.tokens ⊆ tokens
  distinct : (s.declarations.map (·.name)).Nodup
  constants : s.diagnostics = [] → ∀ {key : String} {v : Value},
    s.constants.lookup key = some v → v.SpelledIn tokens

section Declaring

variable {tokens : List Token}

theorem Declaring.admissible : Admissible tokens (Declaring tokens) where
  consume h hts := ⟨fun _ ht => h.source (hts ht), h.distinct, h.constants⟩
  report _ h := ⟨h.source, h.distinct, fun hclean => absurd hclean diagnostics_report_ne_nil⟩
  source h := h.source
  constants h hclean _ _ hlookup := h.constants hclean hlookup

/-- A name that is declared already is reported, and any other accepted. -/
theorem declareNew_apply (n : Name) (s : ParserState) :
    declareNew n s = if s.isVariable n.key || s.isConstant n.key then
        .ok false (s.report ⟨n.line, .duplicate n.text⟩)
      else .ok true s := by
  unfold declareNew
  simp only [Bind.bind, EStateM.bind, MonadState.get, getThe, MonadStateOf.get, EStateM.get]
  split <;> rfl

/-- A new name and its value are put behind the constants there are. -/
theorem lookup_setConstant {s : ParserState} {name key : String} {v w : Value}
    (hnew : s.isConstant name = false) (h : (s.setConstant name v).constants.lookup key = some w) :
    w = v ∨ s.constants.lookup key = some w := by
  unfold ParserState.setConstant at h
  rw [hnew] at h
  simp only [Bool.false_eq_true, if_false, List.lookup_append, Option.or_eq_some_iff,
    List.lookup_cons, List.lookup_nil] at h
  rcases h with h | ⟨-, h⟩
  · exact .inr h
  · split at h
    · exact .inl (Option.some.inj h).symm
    · exact nomatch h

/-- Declaring a constant leaves the tokens, the variables and the diagnostics as they are. -/
theorem setConstant_frame (s : ParserState) (name : String) (v : Value) :
    (s.setConstant name v).tokens = s.tokens
      ∧ (s.setConstant name v).declarations = s.declarations
      ∧ (s.setConstant name v).diagnostics = s.diagnostics := by
  unfold ParserState.setConstant
  split
  · exact ⟨rfl, rfl, rfl⟩
  · exact ⟨rfl, rfl, rfl⟩

/-- A constant whose value the source spells. A name that was taken is reported. -/
theorem respects_define (n : Name) (v : Value) :
    Respects (fun s => Declaring tokens s ∧ (s.diagnostics = [] → v.SpelledIn tokens))
      (fun _ => True) (do discard (declareNew n); modify (·.setConstant n.key v)) := by
  have hset (s : ParserState) (hs : Declaring tokens s)
      (hconstants : s.diagnostics = [] → s.isConstant n.key = false ∧ v.SpelledIn tokens) :
      Declaring tokens (s.setConstant n.key v) := by
    obtain ⟨htokens, hdeclarations, hdiagnostics⟩ := setConstant_frame s n.key v
    refine ⟨htokens ▸ hs.source, hdeclarations ▸ hs.distinct, ?_⟩
    rw [hdiagnostics]
    intro hclean key w hlookup
    obtain ⟨hnew, hv⟩ := hconstants hclean
    rcases lookup_setConstant hnew hlookup with rfl | hlookup
    · exact hv
    · exact hs.constants hclean hlookup
  rintro s ⟨hs, hv⟩
  have hframe (t : ParserState) := setConstant_frame t n.key v
  simp only [Bind.bind, EStateM.bind, Functor.discard, Functor.mapConst, Function.comp_apply,
    EStateM.map, declareNew_apply]
  -- A name that was taken is set all the same, but then there is a diagnostic and nothing is
  -- claimed.
  by_cases htaken : (s.isVariable n.key || s.isConstant n.key) = true
  · rw [if_pos htaken]
    have hdirty {P : Prop}
        (hclean : ((s.report ⟨n.line, .duplicate n.text⟩).setConstant n.key v).diagnostics = []) :
        P := absurd ((hframe _).2.2 ▸ hclean) diagnostics_report_ne_nil
    refine ⟨⟨hset _ (Declaring.admissible.report _ hs) ?_, hdirty⟩, hdirty⟩
    exact fun hclean => absurd hclean diagnostics_report_ne_nil
  · rw [if_neg htaken]
    have hnew : s.isConstant n.key = false := by
      simp only [Bool.not_eq_true, Bool.or_eq_false_iff] at htaken
      exact htaken.2
    refine ⟨⟨hset s hs fun hclean => ⟨hnew, hv hclean⟩, ?_⟩, ?_⟩
    · intro hclean
      exact hv ((hframe _).2.2 ▸ hclean)
    · intro hclean
      exact ⟨(hframe _).2.2 ▸ hclean, True.intro⟩

/-- A declaration of a constant keeps the names distinct and the constants spelled in the source. -/
theorem respects_constantDeclaration :
    Respects (Declaring tokens) (fun _ => True) constantDeclaration := by
  have hI : Admissible tokens (Declaring tokens) := Declaring.admissible
  refine (respects_identifier hI).andThen fun name => ?_
  refine (respects_expectSymbol hI .equal).andThen fun _ => ?_
  refine (respects_constantValue hI).bindKnowing fun v => ?_
  have hsemicolon : Respects (Declaring tokens) (fun _ => v.SpelledIn tokens → True)
      (expectSymbol .semicolon) :=
    (respects_expectSymbol hI .semicolon).weaken fun _ h _ => h
  exact hsemicolon.keeping.andThen fun _ => respects_define name v

/-- A variable is declared under a name that is new. -/
theorem respects_declareVariable (type : PascalType) (n : Name) :
    Respects (Declaring tokens) (fun _ => True) (declareVariable type n) := by
  intro s hs
  unfold declareVariable
  simp only [Bind.bind, EStateM.bind, declareNew_apply]
  by_cases htaken : (s.isVariable n.key || s.isConstant n.key) = true
  · rw [if_pos htaken]
    exact ⟨Declaring.admissible.report _ hs,
      fun hclean => absurd hclean diagnostics_report_ne_nil⟩
  · rw [if_neg htaken]
    refine ⟨⟨hs.source, ?_, hs.constants⟩, fun hclean => ⟨hclean, True.intro⟩⟩
    have hnew : n.key ∉ s.declarations.map (·.name) := by
      simp only [Bool.not_eq_true, Bool.or_eq_false_iff, ParserState.isVariable, List.any_eq_false,
        beq_iff_eq] at htaken
      rw [List.mem_map]
      rintro ⟨d, hd, hname⟩
      exact htaken.1 d hd hname
    rw [List.map_append]
    exact List.nodup_append.2 ⟨hs.distinct, by simp, by
      rintro a ha b hb rfl
      have hname : a = n.key := List.mem_singleton.1 hb
      exact hnew (hname ▸ ha)⟩

/-- A declaration of variables keeps the names distinct and the constants spelled in the source. -/
theorem respects_variableDeclaration :
    Respects (Declaring tokens) (fun _ => True) variableDeclaration := by
  have hI : Admissible tokens (Declaring tokens) := Declaring.admissible
  refine (respects_commaList hI (respects_identifier hI)).andThen fun names => ?_
  refine (respects_expectSymbol hI .colon).andThen fun _ => ?_
  refine (respects_typeName hI).andThen fun type => ?_
  refine (respects_expectSymbol hI .semicolon).andThen fun _ => ?_
  induction names with
  | nil => exact .pure True.intro
  | cons n names ih => exact (respects_declareVariable type n).andThen fun _ => ih

/-- A section keeps the invariant that its declarations keep. -/
theorem respects_declarations {declaration : Parse Unit}
    (h : Respects (Declaring tokens) (fun _ => True) declaration) :
    Respects (Declaring tokens) (fun _ => True) (declarations declaration) := by
  have hI : Admissible tokens (Declaring tokens) := Declaring.admissible
  refine Respects.discard (respects_many (G := fun _ => True) ?_)
  have hat : Respects (Declaring tokens) (fun _ => True) atIdentifier := by
    refine Respects.get.andThen fun s => ?_
    split
    · exact .pure True.intro
    · exact .pure True.intro
  refine hat.andThen fun present => .ite ?_ (.pure (by simp))
  refine (respects_recovering hI h).andThen fun read => ?_
  refine .ite ?_ (.pure (by simp))
  exact (respects_acceptSymbol hI .semicolon).discard.andThen fun _ => .pure (by simp)

/-- All sections of declarations keep the invariant. -/
theorem respects_declarationPart :
    Respects (Declaring tokens) (fun _ => True) declarationPart := by
  have hI : Admissible tokens (Declaring tokens) := Declaring.admissible
  refine Respects.discard (respects_many (G := fun _ => True) ?_)
  refine (respects_acceptKeyword hI .const).andThen fun const => .ite ?_ ?_
  · exact (respects_declarations respects_constantDeclaration).andThen fun _ => .pure (by simp)
  · refine (respects_acceptKeyword hI .var_).andThen fun var => .ite ?_ (.pure (by simp))
    exact (respects_declarations respects_variableDeclaration).andThen fun _ => .pure (by simp)

/-- The heading keeps the invariant; it declares nothing. -/
theorem respects_heading : Respects (Declaring tokens) (fun _ => True) heading := by
  have hI : Admissible tokens (Declaring tokens) := Declaring.admissible
  refine (respects_expectKeyword hI .program).andThen fun _ => ?_
  refine (respects_identifier hI).andThen fun name => ?_
  exact (respects_expectSymbol hI .semicolon).andThen fun _ => .pure True.intro

end Declaring

/-! ## Names that are known -/

/-- A declared variable that is not a constant. -/
def IsVariable (declarations : List Declaration) (constants : List (String × Value))
    (name : String) : Prop :=
  declarations.any (·.name == name) = true ∧ constants.lookup name = none

/-- What is asked of a literal and of a name in an expression. -/
def Expr.IsKnown (declarations : List Declaration) (constants : List (String × Value))
    (tokens : List Token) : Expr → Prop
  | .literal v _ => v.SpelledIn tokens
  | .variable name _ => IsVariable declarations constants name
  | _ => True

/-- The same of everything inside an expression. -/
def Expr.Known (declarations : List Declaration) (constants : List (String × Value))
    (tokens : List Token) (e : Expr) : Prop :=
  ∀ x ∈ e.nodes, x.IsKnown declarations constants tokens

/-- The invariant while statements are read. -/
structure Knowing (declarations : List Declaration) (constants : List (String × Value))
    (tokens : List Token) (s : ParserState) : Prop where
  source : s.tokens ⊆ tokens
  declarations_eq : s.declarations = declarations
  constants_eq : s.constants = constants
  spelled : s.diagnostics = [] → ∀ {key : String} {v : Value},
    constants.lookup key = some v → v.SpelledIn tokens

section Knowing

variable {D : List Declaration} {C : List (String × Value)} {tokens : List Token}

namespace Expr

variable {line : Nat}

theorem known_literal {v : Value} : (literal v line).Known D C tokens ↔ v.SpelledIn tokens := by
  simp [Known, nodes, IsKnown]

theorem known_variable {name : String} :
    (Expr.variable name line).Known D C tokens ↔ IsVariable D C name := by
  simp [Known, nodes, IsKnown]

theorem known_unary {op : UnaryOp} {e : Expr} :
    (unary op e line).Known D C tokens ↔ e.Known D C tokens := by
  simp [Known, nodes, IsKnown]

theorem known_binary {op : BinaryOp} {l r : Expr} :
    (binary op l r line).Known D C tokens ↔ l.Known D C tokens ∧ r.Known D C tokens := by
  rw [Known, nodes, List.forall_mem_cons, List.forall_mem_append]
  exact and_iff_right True.intro

theorem known_call {f : Builtin} {e : Expr} :
    (call f e line).Known D C tokens ↔ e.Known D C tokens := by
  simp [Known, nodes, IsKnown]

end Expr

/-- Taking tokens keeps what is known while statements are read, and reporting gives it up. -/
theorem Knowing.admissible : Admissible tokens (Knowing D C tokens) where
  consume h hts := ⟨fun _ ht => h.source (hts ht), h.declarations_eq, h.constants_eq, h.spelled⟩
  report _ h := ⟨h.source, h.declarations_eq, h.constants_eq,
    fun hclean => absurd hclean diagnostics_report_ne_nil⟩
  source h := h.source
  constants h hclean _ _ hlookup := h.spelled hclean (h.constants_eq ▸ hlookup)

/-- A name that is neither a variable nor a constant is reported. -/
theorem isVariable_of_not_reported {s : ParserState} {name : String} (hs : Knowing D C tokens s)
    (hvariable : s.isVariable name = true) (hconstant : s.isConstant name = false) :
    IsVariable D C name := by
  refine ⟨hs.declarations_eq ▸ hvariable, ?_⟩
  rw [← hs.constants_eq]
  exact Option.not_isSome_iff_eq_none.1 (Bool.not_eq_true _ ▸ hconstant)

/-! ## Expressions -/

section Expressions

variable {factor expression : Parse Expr}

/-- An optional operator keeps what is known. -/
theorem respects_operator? (class? : Lexeme → Option BinaryOp) :
    Respects (Knowing D C tokens) (fun _ => True) (operator? class?) := by
  refine Respects.get.andThen fun s => ?_
  split
  · exact (respects_advance Knowing.admissible).andThen fun _ => .pure True.intro
  · exact .pure True.intro

/-- Operands that are known are grouped to expressions that are known. -/
theorem respects_leftGrouped {class? : Lexeme → Option BinaryOp} {operand : Parse Expr}
    {first : Expr}
    (hoperand : Respects (Knowing D C tokens) (Expr.Known D C tokens) operand) :
    Respects (Knowing D C tokens) (fun e => first.Known D C tokens → e.Known D C tokens)
      (leftGrouped class? operand first) := by
  refine (respects_many (G := fun o => o.2.2.Known D C tokens) ?_).bind fun others => .pure ?_
  · refine (respects_operator? class?).andThen fun o => ?_
    split
    · refine hoperand.bind fun e => .pure ?_
      intro he o ho
      obtain rfl := Option.some.inj ho
      exact he
    · exact .pure (by simp)
  -- the tree grows by one operator and one operand at a time
  induction others generalizing first with
  | nil => exact fun _ h => h
  | cons o others ih =>
    intro hothers hfirst
    obtain ⟨ho, hothers⟩ := List.forall_mem_cons.1 hothers
    exact ih hothers (Expr.known_binary.2 ⟨hfirst, ho⟩)

theorem respects_term (hfactor : Respects (Knowing D C tokens) (Expr.Known D C tokens) factor) :
    Respects (Knowing D C tokens) (Expr.Known D C tokens) (term factor) :=
  hfactor.bind fun _ => respects_leftGrouped hfactor

/-- Sums are known, if factors are. -/
theorem respects_simpleExpression
    (hfactor : Respects (Knowing D C tokens) (Expr.Known D C tokens) factor) :
    Respects (Knowing D C tokens) (Expr.Known D C tokens) (simpleExpression factor) := by
  have hterm := respects_term hfactor
  refine Respects.get.andThen fun s => ?_
  refine (respects_acceptSymbol Knowing.admissible .minus).andThen fun negative => .ite ?_ ?_
  · refine hterm.bind fun first => ?_
    exact (respects_leftGrouped hterm).weaken fun e he hfirst => he (Expr.known_unary.2 hfirst)
  · refine (respects_acceptSymbol Knowing.admissible .plus).discard.andThen fun _ => ?_
    exact hterm.bind fun first => respects_leftGrouped hterm

/-- Relations are known, if factors are. -/
theorem respects_relation
    (hfactor : Respects (Knowing D C tokens) (Expr.Known D C tokens) factor) :
    Respects (Knowing D C tokens) (Expr.Known D C tokens) (relation factor) := by
  have hsimple := respects_simpleExpression hfactor
  refine hsimple.bind fun left => ?_
  refine (respects_operator? relationOp?).andThen fun o => ?_
  split
  · refine hsimple.bind fun right => .pure ?_
    exact fun hright hleft => Expr.known_binary.2 ⟨hleft, hright⟩
  · exact .pure fun hleft => hleft

/-- A name that begins an operand: a call with its one argument, a constant, or a variable. -/
theorem respects_namedOperand
    (hexpression : Respects (Knowing D C tokens) (Expr.Known D C tokens) expression) (n : Name) :
    Respects (Knowing D C tokens) (Expr.Known D C tokens) (namedOperand expression n) := by
  have hI : Admissible tokens (Knowing D C tokens) := Knowing.admissible
  refine Respects.get.bind fun s => ?_
  split
  · refine (respects_advance hI).andThen fun _ => ?_
    refine hexpression.bind fun first => ?_
    refine (respects_many (respects_afterSymbol? hI .comma hexpression)).andThen fun others => ?_
    refine (respects_expectSymbol hI .closeParen).andThen fun _ => ?_
    -- More than one argument is reported, and then nothing is claimed of the call.
    extract_lets done
    have hdone : ∀ u, Respects (Knowing D C tokens)
        (fun e => first.Known D C tokens → Knowing D C tokens s ∧ s.diagnostics = [] →
          e.Known D C tokens) (done u) := by
      intro u
      exact .pure fun hfirst _ => Expr.known_call.2 hfirst
    split
    · exact hdone ()
    · exact (respects_report hI _ _).andThen hdone
  · split
    · rename_i hlookup
      refine .pure ?_
      rintro ⟨hs, hclean⟩
      exact Expr.known_literal.2 (hI.constants hs hclean hlookup)
    · rename_i hlookup
      extract_lets done
      split
      · rename_i hvariable
        refine .pure ?_
        rintro ⟨hs, -⟩
        refine Expr.known_variable.2 (isVariable_of_not_reported hs hvariable ?_)
        rw [ParserState.isConstant, hlookup, Option.isSome_none]
      · refine (respects_report hI _ _).bind fun _ => .pure ?_
        exact fun hfalse => hfalse.elim

/-- A factor is known, if what stands inside it is. A name must be that of a variable or of a
constant. -/
theorem respects_factorWith
    (hfactor : Respects (Knowing D C tokens) (Expr.Known D C tokens) factor)
    (hexpression : Respects (Knowing D C tokens) (Expr.Known D C tokens) expression) :
    Respects (Knowing D C tokens) (Expr.Known D C tokens) (factorWith factor expression) := by
  have hI : Admissible tokens (Knowing D C tokens) := Knowing.admissible
  refine Respects.get.bind fun s => ?_
  -- One case for each token that a factor can begin with, in the order of the grammar.
  split
  · refine (respects_advance hI).andThen fun _ => ?_
    refine (respects_inRange fun n hn => integerValue?_le hn).bind fun n => .pure ?_
    rintro ⟨hzero, hle⟩ -
    exact Expr.known_literal.2 ⟨Int.le_trans (by decide) hzero, hle⟩
  · refine (respects_advance hI).andThen fun _ => ?_
    refine (respects_inRange fun x hx => isFinite_realValue? hx).bind fun x => .pure ?_
    exact fun hx _ => Expr.known_literal.2 hx
  · rename_i hnext
    refine (respects_advance hI).andThen fun _ => .pure ?_
    rintro ⟨hs, -⟩
    exact Expr.known_literal.2 (spelledIn_of_next hI hs hnext)
  · exact (respects_advance hI).andThen fun _ => .pure fun _ => Expr.known_literal.2 True.intro
  · exact (respects_advance hI).andThen fun _ => .pure fun _ => Expr.known_literal.2 True.intro
  · refine (respects_advance hI).andThen fun _ => hfactor.bind fun e => .pure ?_
    exact fun he _ => Expr.known_unary.2 he
  · refine (respects_advance hI).andThen fun _ => hfactor.bind fun e => .pure ?_
    exact fun he _ => Expr.known_unary.2 he
  · refine (respects_advance hI).andThen fun _ => hexpression.bind fun e => ?_
    exact (respects_expectSymbol hI .closeParen).andThen fun _ => .pure fun he _ => he
  · refine (respects_advance hI).andThen fun _ => ?_
    exact (respects_namedOperand hexpression _).weaken fun e he _ => he
  · exact .unexpected _

end Expressions

theorem respects_tooDeep {α : Type} {G : α → Prop} :
    Respects (Knowing D C tokens) G (tooDeep : Parse α) :=
  Respects.get.andThen fun _ => .stop _ _

/-- Factors and expressions open inside each other, so the two are settled together. -/
theorem respects_factor_expression (depth : Nat) :
    Respects (Knowing D C tokens) (Expr.Known D C tokens) (factor depth)
      ∧ Respects (Knowing D C tokens) (Expr.Known D C tokens) (expression depth) := by
  induction depth with
  | zero =>
    rw [factor, expression]
    exact ⟨respects_tooDeep, respects_tooDeep⟩
  | succ depth ih =>
    rw [factor, expression]
    exact ⟨respects_factorWith ih.1 ih.2, respects_relation ih.1⟩

end Knowing

end TurboBench.Pascal
