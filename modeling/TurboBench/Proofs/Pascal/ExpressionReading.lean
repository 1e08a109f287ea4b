import TurboBench.Proofs.Decimal.RealReading
import TurboBench.Proofs.Pascal.Reading

/-!
# Expressions are read as they were written

The grammar of expressions is left-recursive in its terms and simple expressions, and the parser
reads them in a loop. So what the parser does with a term depends on what stands behind it, and the
statement about a term is about the term together with the operators that go on behind it: if from
the term on, further operators lead to `t`, then reading from the beginning of the term leads to `t`
(`AsTerm`, and `AsSimple` one level up). In this form the rules of the grammar hold as they are
written down, left recursion included, and none of them looks into another operand.

The rules are about any lexemes with the right depth. The rendering is then read back by induction
on the expression, one rule for each place at which the expression can stand.
-/

set_option autoImplicit false

namespace TurboBench.Pascal

open Parse
open Written (of)

/-! ## What stands behind an operand -/

/-- What can stand behind a factor: no parenthesis, which would make a call of a name. -/
def EndsFactor (ls : List Lexeme) : Prop :=
  ls.head? ≠ some (.symbol .openParen)

/-- What can stand behind an expression: nothing that would go on with it. -/
structure EndsExpression (ls : List Lexeme) : Prop where
  factor : EndsFactor ls
  multiplying : Stops mulOp? ls
  adding : Stops addOp? ls
  relation : Stops relationOp? ls

/-- A lexeme that no expression goes on with. -/
def closesExpression : Lexeme → Bool
  | .symbol .openParen => false
  | l => (mulOp? l).isNone && (addOp? l).isNone && (relationOp? l).isNone

/-- What closes an expression ends it. -/
theorem EndsExpression.of_closes {l : Lexeme} (h : closesExpression l = true) (ls : List Lexeme) :
    EndsExpression (l :: ls) := by
  have hparen : l ≠ .symbol .openParen := by
    rintro rfl
    exact absurd h (by decide)
  unfold closesExpression at h
  simp only [Bool.and_eq_true, Option.isNone_iff_eq_none] at h
  obtain ⟨⟨hmul, hadd⟩, hrel⟩ := h
  exact ⟨by simpa [EndsFactor] using hparen, hmul, hadd, hrel⟩

/-! ## The operators -/

theorem mulOp?_lexeme {op : BinaryOp} (h : op.class = .multiplying) :
    mulOp? op.lexeme = some op := by
  cases op <;> first | rfl | exact nomatch h

theorem addOp?_lexeme {op : BinaryOp} (h : op.class = .adding) : addOp? op.lexeme = some op := by
  cases op <;> first | rfl | exact nomatch h

theorem relationOp?_lexeme {op : BinaryOp} (h : op.class = .relation) :
    relationOp? op.lexeme = some op := by
  cases op <;> first | rfl | exact nomatch h

/-- Behind an operand stands an operator of its own class or of a looser one. -/
theorem stops_lexeme (op : BinaryOp) (ls : List Lexeme) :
    EndsFactor (op.lexeme :: ls)
      ∧ (op.class ≠ .multiplying → Stops mulOp? (op.lexeme :: ls))
      ∧ (op.class = .relation → Stops addOp? (op.lexeme :: ls)) := by
  refine ⟨?_, fun h => ?_, fun h => ?_⟩
  · cases op <;> simp [EndsFactor, BinaryOp.lexeme]
  · cases op <;> first | rfl | exact absurd rfl h
  · cases op <;> first | rfl | exact nomatch h

/-! ## The categories -/

section Categories

variable (s : ParserState)

/-- Lexemes that are read as a factor. -/
def AsFactor (w : Written) (e : Expr) : Prop :=
  ∀ ⦃d : Nat⦄ ⦃rest : List Lexeme⦄, w.depth ≤ d → EndsFactor rest →
    Reads s (factor d) (w.lexemes ++ rest) e rest

/-- Lexemes that are read as a term, or as the beginning of a longer one. -/
def AsTerm (w : Written) (e : Expr) : Prop :=
  ∀ ⦃d : Nat⦄ ⦃mid rest : List Lexeme⦄ ⦃t : Expr⦄, w.depth ≤ d → EndsFactor mid →
    Chain s mulOp? (factor d) e mid t rest → Reads s (term (factor d)) (w.lexemes ++ mid) t rest

/-- Lexemes that are read as a simple expression, or as the beginning of a longer one. -/
def AsSimple (w : Written) (e : Expr) : Prop :=
  ∀ ⦃d : Nat⦄ ⦃mid rest : List Lexeme⦄ ⦃t : Expr⦄, w.depth ≤ d → EndsFactor mid → Stops mulOp? mid →
    Chain s addOp? (term (factor d)) e mid t rest →
    Reads s (simpleExpression (factor d)) (w.lexemes ++ mid) t rest

/-- Lexemes that are read as an expression. -/
def AsExpression (w : Written) (e : Expr) : Prop :=
  ∀ ⦃d : Nat⦄ ⦃rest : List Lexeme⦄, w.depth + 1 ≤ d → EndsExpression rest →
    Reads s (expression d) (w.lexemes ++ rest) e rest

/-- Lexemes that do not begin with a sign. -/
def Unsigned (w : Written) : Prop :=
  ∃ l ls, w.lexemes = l :: ls ∧ l ≠ .symbol .minus ∧ l ≠ .symbol .plus

end Categories

/-! ## The rules of the grammar -/

section Rules

variable {s : ParserState} {v w : Written} {e f : Expr}

theorem AsFactor.asTerm (h : AsFactor s w e) : AsTerm s w e := by
  intro d mid rest t hd hmid hchain
  exact Reads.bind (h hd hmid) hchain.leftGrouped

theorem AsTerm.reads (h : AsTerm s w e) {d : Nat} {rest : List Lexeme} (hd : w.depth ≤ d)
    (hparen : EndsFactor rest) (hstop : Stops mulOp? rest) :
    Reads s (term (factor d)) (w.lexemes ++ rest) e rest :=
  h hd hparen (.stop hstop)

/-- A term without a sign is a simple expression. -/
theorem AsTerm.asSimple (h : AsTerm s w e) (hw : Unsigned w) : AsSimple s w e := by
  intro d mid rest t hd hmid hstop hchain
  -- No sign is taken off, so the term is what the simple expression begins with.
  obtain ⟨l, ls, hl, hminus, hplus⟩ := hw
  have hterm := h.reads hd hmid hstop
  have hhead : (w.lexemes ++ mid).head? = some l := by
    rw [hl]
    rfl
  refine Reads.get (Reads.bind (reads_acceptSymbol_not ?_) ?_)
  · rw [hhead]
    exact fun hsome => hminus (Option.some.inj hsome)
  · rw [if_neg Bool.false_ne_true]
    refine Reads.bind (Reads.discard (reads_acceptSymbol_not ?_)) ?_
    · rw [hhead]
      exact fun hsome => hplus (Option.some.inj hsome)
    · exact Reads.bind hterm hchain.leftGrouped

/-- The sign of a simple expression belongs to the whole first term. -/
theorem AsTerm.negated (h : AsTerm s w e) :
    AsSimple s (of [.symbol .minus] ++ w) (.unary .negate e 1) := by
  intro d mid rest t hd hmid hstop hchain
  have hterm := h.reads (d := d) (by simpa using hd) hmid hstop
  refine Reads.get (Reads.bind (reads_acceptSymbol .minus) ?_)
  rw [if_pos rfl]
  exact Reads.bind hterm hchain.leftGrouped

theorem AsSimple.reads (h : AsSimple s w e) {d : Nat} {rest : List Lexeme} (hd : w.depth ≤ d)
    (hparen : EndsFactor rest) (hmul : Stops mulOp? rest) (hadd : Stops addOp? rest) :
    Reads s (simpleExpression (factor d)) (w.lexemes ++ rest) e rest :=
  h hd hparen hmul (.stop hadd)

theorem AsSimple.asExpression (h : AsSimple s w e) : AsExpression s w e := by
  intro d rest hd hrest
  cases d with
  | zero => omega
  | succ d =>
    have hsimple := h.reads (d := d) (by omega) hrest.factor hrest.multiplying hrest.adding
    rw [expression]
    exact Reads.bind hsimple (Reads.bind (reads_operator_not hrest.relation) Reads.pure)

/-- A product takes one more factor. -/
theorem AsTerm.multiplied {op : BinaryOp} (hop : op.class = .multiplying) (hv : AsTerm s v e)
    (hw : AsFactor s w f) : AsTerm s (v ++ of [op.lexeme] ++ w) (.binary op e f 1) := by
  intro d mid rest t hd hmid hchain
  simp only [Written.depth_append, Written.depth_of] at hd
  -- The left operand is asked for what it leads to with the operator and the factor behind it.
  have hfactor := hw (d := d) (by omega) hmid
  have hmore := Chain.more (mulOp?_lexeme hop) hfactor (by simp) hchain
  have hterm := hv (d := d) (by omega) (stops_lexeme op _).1 hmore
  simpa using hterm

/-- A sum takes one more term. -/
theorem AsSimple.added {op : BinaryOp} (hop : op.class = .adding) (hv : AsSimple s v e)
    (hw : AsTerm s w f) : AsSimple s (v ++ of [op.lexeme] ++ w) (.binary op e f 1) := by
  intro d mid rest t hd hmid hstop hchain
  simp only [Written.depth_append, Written.depth_of] at hd
  have hterm := hw.reads (d := d) (by omega) hmid hstop
  have hmore := Chain.more (addOp?_lexeme hop) hterm (by simp) hchain
  have hnot : op.class ≠ .multiplying := by
    rw [hop]
    exact fun h => nomatch h
  have hsimple := hv (d := d) (by omega) (stops_lexeme op _).1 ((stops_lexeme op _).2.1 hnot) hmore
  simpa using hsimple

/-- A relation stands between two simple expressions. -/
theorem AsSimple.related {op : BinaryOp} (hop : op.class = .relation) (hv : AsSimple s v e)
    (hw : AsSimple s w f) : AsExpression s (v ++ of [op.lexeme] ++ w) (.binary op e f 1) := by
  intro d rest hd hrest
  simp only [Written.depth_append, Written.depth_of] at hd
  cases d with
  | zero => omega
  | succ d =>
    have hnot : op.class ≠ .multiplying := by
      rw [hop]
      exact fun h => nomatch h
    -- Neither operand is continued: the operator ends the left one, `rest` the right one.
    have hright := hw.reads (d := d) (by omega) hrest.factor hrest.multiplying hrest.adding
    have hends := stops_lexeme op (w.lexemes ++ rest)
    have hleft := hv.reads (d := d) (by omega) hends.1 (hends.2.1 hnot) (hends.2.2 hop)
    simp only [Written.lexemes_append, Written.lexemes_of, List.append_assoc, List.singleton_append]
    rw [expression]
    refine Reads.bind hleft (Reads.bind (reads_operator (relationOp?_lexeme hop)) ?_)
    exact Reads.bind hright Reads.pure

theorem AsFactor.prefixed_not (h : AsFactor s w e) :
    AsFactor s (of [.keyword .not] ++ w).deeper (.unary .not e 1) := by
  intro d rest hd hrest
  simp only [Written.depth_deeper, Written.depth_append, Written.depth_of] at hd
  cases d with
  | zero => omega
  | succ d =>
    rw [factor]
    exact Reads.get (Reads.advance (Reads.bind (h (by omega) hrest) Reads.pure))

theorem AsFactor.prefixed_minus (h : AsFactor s w e) :
    AsFactor s (of [.symbol .minus] ++ w).deeper (.unary .negate e 1) := by
  intro d rest hd hrest
  simp only [Written.depth_deeper, Written.depth_append, Written.depth_of] at hd
  cases d with
  | zero => omega
  | succ d =>
    rw [factor]
    exact Reads.get (Reads.advance (Reads.bind (h (by omega) hrest) Reads.pure))

theorem endsExpression_closeParen (ls : List Lexeme) :
    EndsExpression (.symbol .closeParen :: ls) :=
  .of_closes rfl ls

theorem AsExpression.parenthesized (h : AsExpression s w e) : AsFactor s w.parenthesized e := by
  intro d rest hd hrest
  simp only [Written.parenthesized, Written.depth_deeper, Written.depth_append,
    Written.depth_of] at hd
  cases d with
  | zero => omega
  | succ d =>
    have hinner := h (d := d) (by omega) (endsExpression_closeParen rest)
    simp only [Written.parenthesized, Written.lexemes_deeper, Written.lexemes_append,
      Written.lexemes_of, List.append_assoc, List.singleton_append]
    rw [factor]
    refine Reads.get (Reads.advance ?_)
    exact Reads.bind hinner (Reads.bind (reads_expectSymbol .closeParen) Reads.pure)

theorem unsigned_parenthesized (w : Written) : Unsigned w.parenthesized :=
  ⟨.symbol .openParen, _, rfl, by simp, by simp⟩

end Rules

/-! ## Literals and names -/

/-- A state that knows the declared names: all of them are variables and none of them a constant. -/
structure ParserState.Knows (s : ParserState) (declared : String → Prop) : Prop where
  isName : ∀ n, declared n → IsName n
  isVariable : ∀ n, declared n → s.isVariable n = true
  notConstant : ∀ n, declared n → s.constants.lookup n = none

/-- A name in small letters is looked up as it is written. -/
theorem foldName_of_isName {n : String} (h : IsName n) : foldName n = n := by
  rw [foldName, h.small, String.ofList_toList]

theorem integerValue?_toString {k : Nat} (h : (k : Int) ≤ maxInteger) :
    integerValue? (toString k) = some (k : Int) := by
  have hvalue : Decimal.natOfDigits (toString k).toList = k := by
    rw [Nat.toString_eq_ofList_toDigits, String.toList_ofList, Decimal.natOfDigits_toDigits]
  rw [integerValue?, hvalue]
  exact if_pos h

theorem realValue?_exactNumeral {x : Float} (h : x.isFinite = true) :
    realValue? (Decimal.exactNumeral x) = some x.abs := by
  rw [realValue?, Decimal.toFloat_exactNumeral h]
  exact if_pos (Decimal.isFinite_abs h)

theorem Value.IsConstant.natAbs_le {n : Int} (h : (Value.integer n).IsConstant) :
    (n.natAbs : Int) ≤ maxInteger := by
  obtain ⟨hlow, hhigh⟩ : -maxInteger ≤ n ∧ n ≤ maxInteger := h
  omega

/-! Without a sign a number is its magnitude. -/

theorem Value.natAbs_of_not_negative {n : Int} (h : (Value.integer n).isNegative = false) :
    (n.natAbs : Int) = n := by
  have hpos : ¬ n < 0 := of_decide_eq_false h
  omega

theorem Value.abs_of_not_negative {x : Float} (h : (Value.real x).isNegative = false) :
    x.abs = x := by
  have hsigned := Decimal.signed_abs x
  rwa [show Decimal.signBit x = false from h, if_neg Bool.false_ne_true] at hsigned

section Atoms

variable {s : ParserState}

theorem reads_inRange_integer {n : Int} (h : (Value.integer n).IsConstant) (line : Nat)
    (ls : List Lexeme) :
    Reads s (inRange line (integerValue? (toString n.natAbs))) ls (n.natAbs : Int) ls := by
  rw [integerValue?_toString h.natAbs_le]
  exact Reads.pure

theorem reads_inRange_real {x : Float} (h : (Value.real x).IsConstant) (line : Nat)
    (ls : List Lexeme) :
    Reads s (inRange line (realValue? (Decimal.exactNumeral x))) ls x.abs ls := by
  rw [realValue?_exactNumeral h]
  exact Reads.pure

theorem AsFactor.literal {v : Value} (h : v.IsLiteral) :
    AsFactor s (of [v.unsigned]).deeper (.literal v 1) := by
  intro d rest hd hrest
  cases d with
  | zero => simp at hd
  | succ d =>
    rw [factor]
    obtain ⟨hconstant, hsign⟩ := h
    cases v with
    | integer n =>
      -- The digits are those of the magnitude, which a literal does not differ from.
      have hvalue := reads_inRange_integer (s := s) hconstant 1 rest
      rw [Value.natAbs_of_not_negative hsign] at hvalue
      exact Reads.get (Reads.advance (Reads.bind hvalue Reads.pure))
    | real x =>
      have hvalue := reads_inRange_real (s := s) hconstant 1 rest
      rw [Value.abs_of_not_negative hsign] at hvalue
      exact Reads.get (Reads.advance (Reads.bind hvalue Reads.pure))
    | boolean b => cases b <;> exact Reads.get (Reads.advance Reads.pure)
    | text t => exact Reads.get (Reads.advance Reads.pure)

theorem reads_namedOperand {n : String} {p : Parse Expr} {rest : List Lexeme} (hn : IsName n)
    (hvariable : s.isVariable n = true) (hconstant : s.constants.lookup n = none)
    (hrest : EndsFactor rest) : Reads s (namedOperand p ⟨n, 1⟩) rest (.variable n 1) rest := by
  have hkey : Name.key ⟨n, 1⟩ = n := foldName_of_isName hn
  have hlookup : (s.before rest).constants.lookup n = none := hconstant
  have hknown : (s.before rest).isVariable n = true := hvariable
  refine Reads.get ?_
  split
  · -- The name may be that of a function, but no parenthesis follows it.
    rename_i f hf hparen
    rw [next?_before] at hparen
    exact absurd hparen hrest
  · rw [hkey, hlookup]
    simp only [hknown, if_true]
    exact Reads.pure

/-- A declared name that is no constant is read as a variable. -/
theorem AsFactor.variable {n : String} (hn : IsName n) (hvariable : s.isVariable n = true)
    (hconstant : s.constants.lookup n = none) :
    AsFactor s (of [.identifier n]).deeper (.variable n 1) := by
  intro d rest hd hrest
  cases d with
  | zero => simp at hd
  | succ d =>
    rw [factor]
    exact Reads.get (Reads.advance (reads_namedOperand hn hvariable hconstant hrest))

/-- A name of a function before a parenthesis is a call, whatever is declared. -/
theorem reads_namedOperand_call {f : Builtin} {p : Parse Expr} {e : Expr} {ls rest : List Lexeme}
    (h : Reads s p ls e (.symbol .closeParen :: rest)) :
    Reads s (namedOperand p ⟨f.name, 1⟩) (.symbol .openParen :: ls) (.call f e 1) rest := by
  have hkey : Builtin.ofName? (Name.key ⟨f.name, 1⟩) = some f := by
    have hfold : foldName f.name = f.name := by
      cases f <;> decide
    rw [Name.key, hfold, Builtin.ofName?_name]
  -- A call may have several arguments; the repetition over those behind the first ends at once.
  have hstop : (Lexeme.symbol .closeParen :: rest).head? ≠ some (.symbol .comma) := by simp
  have hothers : Reads s (many (afterSymbol? .comma p)) (.symbol .closeParen :: rest) []
      (.symbol .closeParen :: rest) :=
    Turns.many (.stop (reads_afterSymbol_not _ hstop))
  refine Reads.get ?_
  rw [hkey]
  refine Reads.advance (Reads.bind h (Reads.bind hothers ?_))
  exact Reads.bind (reads_expectSymbol .closeParen) Reads.pure

/-- A function of an expression in parentheses is read as a call. -/
theorem AsExpression.called (f : Builtin) {w : Written} {e : Expr} (h : AsExpression s w e) :
    AsFactor s
      (of [.identifier f.name, .symbol .openParen] ++ w.deeper ++ of [.symbol .closeParen]).deeper
      (.call f e 1) := by
  intro d rest hd hrest
  simp only [Written.depth_deeper, Written.depth_append, Written.depth_of] at hd
  cases d with
  | zero => omega
  | succ d =>
    have hinner := h (d := d) (by omega) (endsExpression_closeParen rest)
    simp only [Written.lexemes_deeper, Written.lexemes_append, Written.lexemes_of,
      List.append_assoc, List.cons_append, List.nil_append]
    rw [factor]
    exact Reads.get (Reads.advance (reads_namedOperand_call hinner))

end Atoms

/-! ## All expressions -/

/-- An expression is read back at every place at which it can be written. -/
structure Expr.ReadBack (s : ParserState) (e : Expr) : Prop where
  factor : AsFactor s (e.rendered .factor) (e.onLine 1)
  term : AsTerm s (e.rendered .term) (e.onLine 1)
  leading : AsTerm s (e.rendered .leading) (e.onLine 1)
  unsigned : Unsigned (e.rendered .leading)
  simple : AsSimple s (e.rendered .simple) (e.onLine 1)
  expression : AsExpression s (e.rendered .expression) (e.onLine 1)

namespace Expr.ReadBack

variable {s : ParserState} {e : Expr} {w : Written}

/-- What is a factor at every place. -/
theorem of_factor (h : AsFactor s w (e.onLine 1)) (hw : Unsigned w)
    (hplace : ∀ place, e.rendered place = w) : e.ReadBack s := by
  constructor <;> rw [hplace]
  · exact h
  · exact h.asTerm
  · exact h.asTerm
  · exact hw
  · exact h.asTerm.asSimple hw
  · exact (h.asTerm.asSimple hw).asExpression

/-- A minus is read back in each of its places. -/
theorem negate (h : e.ReadBack s) (line : Nat) : (Expr.unary .negate e line).ReadBack s where
  -- In front of a factor the minus is an operator; at the front of an expression it is the sign of
  -- the whole first term, and the operand is one.
  factor := h.factor.prefixed_minus
  term := h.factor.prefixed_minus.asTerm
  leading := h.term.negated.asExpression.parenthesized.asTerm
  unsigned := unsigned_parenthesized _
  simple := h.term.negated
  expression := h.term.negated.asExpression

/-- What is a simple expression, and stands in parentheses wherever a term is wanted. -/
theorem of_simple (h : AsSimple s w (e.onLine 1))
    (hplace : ∀ place, e.rendered place
      = if OperatorClass.adding.fits place then w else w.parenthesized) : e.ReadBack s := by
  have hparen := h.asExpression.parenthesized
  constructor <;> rw [hplace]
  · exact hparen
  · exact hparen.asTerm
  · exact hparen.asTerm
  · exact unsigned_parenthesized w
  · exact h
  · exact h.asExpression

/-- What is an expression, and stands in parentheses everywhere else. -/
theorem of_expression (h : AsExpression s w (e.onLine 1))
    (hplace : ∀ place, e.rendered place
      = if OperatorClass.relation.fits place then w else w.parenthesized) : e.ReadBack s := by
  have hparen := h.parenthesized
  have hunsigned := unsigned_parenthesized w
  constructor <;> rw [hplace]
  · exact hparen
  · exact hparen.asTerm
  · exact hparen.asTerm
  · exact hunsigned
  · exact hparen.asTerm.asSimple hunsigned
  · exact h

/-- A product is read back: its left operand is read as a term, its right one as a factor. -/
theorem product {l r : Expr} {op : BinaryOp} (hop : op.class = .multiplying) (hl : l.ReadBack s)
    (hr : r.ReadBack s) (line : Nat) : (Expr.binary op l r line).ReadBack s := by
  -- The product is written in two ways, with a sign on its first factor in parentheses or not.
  have hterm := hl.term.multiplied hop hr.factor
  have hleading := hl.leading.multiplied hop hr.factor
  have hunsigned : Unsigned (l.rendered .leading ++ of [op.lexeme] ++ r.rendered .factor) := by
    obtain ⟨k, ks, hk, hminus, hplus⟩ := hl.unsigned
    refine ⟨k, ks ++ [op.lexeme] ++ (r.rendered .factor).lexemes, ?_, hminus, hplus⟩
    rw [Written.lexemes_append, Written.lexemes_append, hk]
    rfl
  have hsimple := hleading.asSimple hunsigned
  constructor <;> simp only [Expr.rendered, hop]
  · exact hsimple.asExpression.parenthesized
  · exact hterm
  · exact hleading
  · exact hunsigned
  · exact hsimple
  · exact hsimple.asExpression

end Expr.ReadBack

/-- **A well-formed expression is read back at every place.** -/
theorem Expr.readBack {s : ParserState} {declared : String → Prop} (hs : s.Knows declared)
    {e : Expr} (h : e.WellFormed declared) : e.ReadBack s := by
  -- By induction on the tree. A binary operator stands on the level of its class, so its class
  -- decides where the operands are read back.
  induction e with
  | literal v line =>
    refine .of_factor (AsFactor.literal h) ⟨v.unsigned, [], rfl, ?_, ?_⟩ fun _ => rfl
    · cases v <;> simp [Value.unsigned]
    · cases v <;> simp [Value.unsigned]
  | «variable» n line =>
    have hfactor := AsFactor.variable (hs.isName n h) (hs.isVariable n h) (hs.notConstant n h)
    exact .of_factor hfactor ⟨_, [], rfl, by simp, by simp⟩ fun _ => rfl
  | unary op e line ih =>
    have he := ih h
    cases op with
    | negate => exact he.negate line
    | not =>
      exact .of_factor he.factor.prefixed_not ⟨_, _, rfl, by simp, by simp⟩ fun _ => rfl
  | binary op l r line ihl ihr =>
    have hl := ihl h.1
    have hr := ihr h.2
    cases hop : op.class with
    | relation =>
      refine .of_expression (hl.simple.related hop hr.simple) fun place => ?_
      simp only [Expr.rendered, hop]
    | adding =>
      refine .of_simple (hl.simple.added hop hr.term) fun place => ?_
      simp only [Expr.rendered, hop]
    | multiplying => exact .product hop hl hr line
  | call f e line ih =>
    exact .of_factor ((ih h).expression.called f) ⟨_, _, rfl, by simp, by simp⟩ fun _ => rfl

theorem reads_expression {s : ParserState} {declared : String → Prop} (hs : s.Knows declared)
    {e : Expr} (h : e.WellFormed declared) {d : Nat} (hd : e.written.depth ≤ d)
    {rest : List Lexeme} (hrest : EndsExpression rest) :
    Reads s (expression d) (e.written.lexemes ++ rest) (e.onLine 1) rest :=
  (Expr.readBack hs h).expression hd hrest

end TurboBench.Pascal
