import Mathlib.Logic.Relation
import TurboBench.Proofs.Pascal.Rendering

/-!
# The grammar

Which token lists are programs, and which tree each of them has. Every phrase of the language is a
relation between the tokens at a place, the tree of the phrase that begins there, and the tokens
behind it, with one rule for each form that the phrase can take. `Sentence` is the phrase that
takes the whole source.

Three things go beyond the form of the phrases. What a name means depends on what is declared
(`Scope`); the declarations change the scope, and everything behind `begin` is read in the one that
they lead to. Statements, expressions and factors open inside each other, and the number of
levels that may still open is an argument of their relations. And the tree of a sentence is one:
a sign at the beginning of a simple expression is that of its first term, and an `else` belongs to
the nearest `if`, so a conditional without `else` does not stand in front of one.
-/

set_option autoImplicit false

namespace TurboBench.Pascal

/-! ## Tokens -/

namespace Token

/-- A reserved word on a line. -/
abbrev word (w : Keyword) (line : Nat) : Token := ⟨.keyword w, line⟩

/-- A symbol on a line. -/
abbrev mark (m : Symbol) (line : Nat) : Token := ⟨.symbol m, line⟩

/-- An identifier on a line. -/
abbrev name (x : String) (line : Nat) : Token := ⟨.identifier x, line⟩

end Token

/-- The given lexeme is the next one. -/
def IsNext (l : Lexeme) (ts : List Token) : Prop :=
  ts.head?.map (·.lexeme) = some l

/-! ## Scopes -/

/-- What is declared at a place, and the line the source ends on. -/
structure Scope where
  declarations : List Declaration
  constants : List (String × Value)
  endLine : Nat

namespace Scope

variable (Γ : Scope)

/-- The scope in which nothing is declared. -/
def empty (endLine : Nat) : Scope :=
  ⟨[], [], endLine⟩

/-- The declared names. -/
def names : List String :=
  Γ.constants.map Prod.fst ++ Γ.declarations.map (·.name)

/-- A declared name that denotes a variable. -/
def IsVariable (key : String) : Prop :=
  Γ.declarations.any (·.name == key) = true ∧ Γ.constants.lookup key = none

/-- The scope with one more constant. -/
def withConstant (key : String) (v : Value) : Scope :=
  { Γ with constants := Γ.constants ++ [(key, v)] }

/-- The scope with the names as variables of a type. -/
def withVariables (names : List Name) (type : PascalType) : Scope :=
  { Γ with declarations := Γ.declarations ++ names.map fun n => ⟨n.key, type, n.line⟩ }

/-- The line of a place: that of the next token. -/
def lineAt (ts : List Token) : Nat :=
  (ts.head?.map (·.line)).getD Γ.endLine

end Scope

/-! ## Lists of phrases -/

section Lists

variable {α : Type} (G : List Token → α → List Token → Prop)

/-- Phrases one behind the other. -/
inductive RowAt : List Token → List α → List Token → Prop where
  | nil {ts} : RowAt ts [] ts
  | cons {ts mid rest a as} (h : G ts a mid) (hs : RowAt mid as rest) : RowAt ts (a :: as) rest

/-- One or more phrases with commas between them. -/
inductive CommasAt : List Token → List α → List Token → Prop where
  | one {ts rest a} (h : G ts a rest) : CommasAt ts [a] rest
  | more {ts mid rest a as n} (h : G ts a (.mark .comma n :: mid)) (hs : CommasAt mid as rest) :
      CommasAt ts (a :: as) rest

/-- An optional list in parentheses, which may be empty. -/
inductive ArgumentsAt : List Token → List α → List Token → Prop where
  | absent {ts} : ArgumentsAt ts [] ts
  | none {n m ts} : ArgumentsAt (.mark .openParen n :: .mark .closeParen m :: ts) [] ts
  | some {n m ts rest as} (h : CommasAt G ts as (.mark .closeParen m :: rest)) :
      ArgumentsAt (.mark .openParen n :: ts) as rest

end Lists

/-! ## Constants, names and types -/

/-- The value that a lexeme spells. Integers are not above the largest integer, and reals are
finite. -/
inductive Literal : Lexeme → Value → Prop where
  | integer {digits} (h : (Decimal.natOfDigits digits.toList : Int) ≤ maxInteger) :
      Literal (.integer digits) (.integer (Decimal.natOfDigits digits.toList))
  | real {numeral} (h : (Decimal.Numeral.ofText numeral.toList).toFloat.isFinite = true) :
      Literal (.real numeral) (.real (Decimal.Numeral.ofText numeral.toList).toFloat)
  | string (text : String) : Literal (.string text) (.text text)
  | true_ : Literal (.keyword .true_) (.boolean true)
  | false_ : Literal (.keyword .false_) (.boolean false)

section Scoped

variable (Γ : Scope)

/-- A constant without a sign: a literal, or the name of an earlier constant. -/
inductive UnsignedAt : List Token → Value → List Token → Prop where
  | literal {l v n ts} (h : Literal l v) : UnsignedAt (⟨l, n⟩ :: ts) v ts
  | name {x v n ts} (h : Γ.constants.lookup (foldName x) = some v) :
      UnsignedAt (.name x n :: ts) v ts

/-- A constant. A minus sign stands in front of a number only. -/
inductive ConstantAt : List Token → Value → List Token → Prop where
  | unsigned {ts v rest} (h : UnsignedAt Γ ts v rest) : ConstantAt ts v rest
  | plus {ts v rest n} (h : UnsignedAt Γ ts v rest) : ConstantAt (.mark .plus n :: ts) v rest
  | minusInteger {l i n m ts} (h : Literal l (.integer i)) :
      ConstantAt (.mark .minus n :: ⟨l, m⟩ :: ts) (.integer (-i)) ts
  | minusReal {l x n m ts} (h : Literal l (.real x)) :
      ConstantAt (.mark .minus n :: ⟨l, m⟩ :: ts) (.real (-x)) ts

/-- A name. -/
inductive NameAt : List Token → Name → List Token → Prop where
  | name {x n ts} : NameAt (.name x n :: ts) ⟨x, n⟩ ts

/-- The name of a variable, as it is looked up. -/
inductive VariableAt : List Token → String → List Token → Prop where
  | name {x n ts} (h : Γ.IsVariable (foldName x)) : VariableAt (.name x n :: ts) (foldName x) ts

/-- A type: one of the five words, where a string may carry a length. -/
inductive TypeAt : List Token → PascalType → List Token → Prop where
  | word {type n ts} : TypeAt (.word (PascalType.keyword type) n :: ts) type ts
  | bounded {l i n m k j ts} (h : Literal l (.integer i)) :
      TypeAt (.word .string n :: .mark .openBracket m :: ⟨l, k⟩ :: .mark .closeBracket j :: ts)
        .string ts

/-! ## Expressions -/

mutual

/-- A factor, with the given number of levels left. -/
inductive FactorAt : Nat → List Token → Expr → List Token → Prop where
  | literal {depth l v n ts} (h : Literal l v) :
      FactorAt (depth + 1) (⟨l, n⟩ :: ts) (.literal v n) ts
  | constant {depth x v n ts} (h : Γ.constants.lookup (foldName x) = some v) :
      FactorAt (depth + 1) (.name x n :: ts) (.literal v n) ts
  | variable {depth x n ts} (h : Γ.IsVariable (foldName x)) :
      FactorAt (depth + 1) (.name x n :: ts) (.variable (foldName x) n) ts
  | call {depth x f e n m k ts rest} (hf : Builtin.ofName? (foldName x) = some f)
      (h : ExpressionAt depth ts e (.mark .closeParen k :: rest)) :
      FactorAt (depth + 1) (.name x n :: .mark .openParen m :: ts) (.call f e n) rest
  | not {depth e n ts rest} (h : FactorAt depth ts e rest) :
      FactorAt (depth + 1) (.word .not n :: ts) (.unary .not e n) rest
  | minus {depth e n ts rest} (h : FactorAt depth ts e rest) :
      FactorAt (depth + 1) (.mark .minus n :: ts) (.unary .negate e n) rest
  | parentheses {depth e n m ts rest} (h : ExpressionAt depth ts e (.mark .closeParen m :: rest)) :
      FactorAt (depth + 1) (.mark .openParen n :: ts) e rest

/-- Factors with multiplying operators between them, grouped to the left. -/
inductive TermAt : Nat → List Token → Expr → List Token → Prop where
  | factor {depth ts e rest} (h : FactorAt depth ts e rest) : TermAt depth ts e rest
  | product {depth ts l op r n mid rest} (hl : TermAt depth ts l (⟨BinaryOp.lexeme op, n⟩ :: mid))
      (hop : op.class = .multiplying) (hr : FactorAt depth mid r rest) :
      TermAt depth ts (.binary op l r n) rest

/-- Terms with adding operators between them, grouped to the left, the first with an optional
sign. -/
inductive SimpleAt : Nat → List Token → Expr → List Token → Prop where
  | unsigned {depth ts e rest} (hsign : ¬ IsNext (.symbol .minus) ts) (h : TermAt depth ts e rest) :
      SimpleAt depth ts e rest
  | plus {depth ts e n rest} (h : TermAt depth ts e rest) :
      SimpleAt depth (.mark .plus n :: ts) e rest
  | minus {depth ts e n rest} (h : TermAt depth ts e rest) :
      SimpleAt depth (.mark .minus n :: ts) (.unary .negate e n) rest
  | sum {depth ts l op r n mid rest} (hl : SimpleAt depth ts l (⟨BinaryOp.lexeme op, n⟩ :: mid))
      (hop : op.class = .adding) (hr : TermAt depth mid r rest) :
      SimpleAt depth ts (.binary op l r n) rest

/-- A simple expression, or two with a relation between them. -/
inductive ExpressionAt : Nat → List Token → Expr → List Token → Prop where
  | simple {depth ts e rest} (h : SimpleAt depth ts e rest) : ExpressionAt (depth + 1) ts e rest
  | relation {depth ts l op r n mid rest}
      (hl : SimpleAt depth ts l (⟨BinaryOp.lexeme op, n⟩ :: mid)) (hop : op.class = .relation)
      (hr : SimpleAt depth mid r rest) : ExpressionAt (depth + 1) ts (.binary op l r n) rest

end

/-- A write item: a value, with a width after a colon, with decimals after another. -/
inductive WriteItemAt (depth : Nat) : List Token → WriteItem → List Token → Prop where
  | value {ts e rest} (h : ExpressionAt Γ depth ts e rest) :
      WriteItemAt depth ts ⟨e, none, none⟩ rest
  | width {ts e w n mid rest} (h : ExpressionAt Γ depth ts e (.mark .colon n :: mid))
      (hw : ExpressionAt Γ depth mid w rest) : WriteItemAt depth ts ⟨e, some w, none⟩ rest
  | decimals {ts e w d n m mid mid' rest} (h : ExpressionAt Γ depth ts e (.mark .colon n :: mid))
      (hw : ExpressionAt Γ depth mid w (.mark .colon m :: mid'))
      (hd : ExpressionAt Γ depth mid' d rest) : WriteItemAt depth ts ⟨e, some w, some d⟩ rest

/-! ## Statements -/

mutual

/-- A statement, with the given number of levels left. -/
inductive StatementAt : Nat → List Token → Statement → List Token → Prop where
  | empty {depth ts} : StatementAt (depth + 1) ts (.empty (Γ.lineAt ts)) ts
  | assign {depth x n m ts e rest} (hx : Γ.IsVariable (foldName x))
      (he : ExpressionAt Γ depth ts e rest) :
      StatementAt (depth + 1) (.name x n :: .mark .assign m :: ts) (.assign (foldName x) e n) rest
  | write {depth newline n ts items rest} (h : ArgumentsAt (WriteItemAt Γ depth) ts items rest) :
      StatementAt (depth + 1) (.word (if newline then .writeln else .write) n :: ts)
        (.write newline items n) rest
  | read {depth newline n ts targets rest} (h : ArgumentsAt (VariableAt Γ) ts targets rest) :
      StatementAt (depth + 1) (.word (if newline then .readln else .read) n :: ts)
        (.read newline targets n) rest
  | ifThen {depth n m ts c mid t rest} (hc : ExpressionAt Γ depth ts c (.word .then_ m :: mid))
      (ht : StatementAt depth mid t rest) (helse : ¬ IsNext (.keyword .else_) rest) :
      StatementAt (depth + 1) (.word .if_ n :: ts) (.ifThen c t none n) rest
  | ifThenElse {depth n m k ts c mid t mid' e rest}
      (hc : ExpressionAt Γ depth ts c (.word .then_ m :: mid))
      (ht : StatementAt depth mid t (.word .else_ k :: mid')) (he : StatementAt depth mid' e rest) :
      StatementAt (depth + 1) (.word .if_ n :: ts) (.ifThen c t (some e) n) rest
  | whileDo {depth n m ts c mid b rest} (hc : ExpressionAt Γ depth ts c (.word .do_ m :: mid))
      (hb : StatementAt depth mid b rest) :
      StatementAt (depth + 1) (.word .while_ n :: ts) (.whileDo c b n) rest
  | repeatUntil {depth n m ts b mid c rest} (hb : StatementsAt depth ts b (.word .until_ m :: mid))
      (hc : ExpressionAt Γ depth mid c rest) :
      StatementAt (depth + 1) (.word .repeat_ n :: ts) (.repeatUntil b c n) rest
  | forTo {depth down n x m i j k ts first mid last mid' b rest}
      (hx : Γ.IsVariable (foldName x))
      (hfirst : ExpressionAt Γ depth ts first (.word (if down then .downto else .to_) j :: mid))
      (hlast : ExpressionAt Γ depth mid last (.word .do_ k :: mid'))
      (hb : StatementAt depth mid' b rest) :
      StatementAt (depth + 1) (.word .for_ n :: .name x m :: .mark .assign i :: ts)
        (.forTo (foldName x) first last down b n) rest
  | caseOf {depth n m k ts e mid bs rest} (he : ExpressionAt Γ depth ts e (.word .of m :: mid))
      (hbs : BranchesAt depth mid bs (.word .end_ k :: rest)) :
      StatementAt (depth + 1) (.word .case_ n :: ts) (.caseOf e bs [] n) rest
  | caseElse {depth n m j k ts e mid bs mid' ss rest}
      (he : ExpressionAt Γ depth ts e (.word .of m :: mid))
      (hbs : BranchesAt depth mid bs (.word .else_ j :: mid'))
      (hss : StatementsAt depth mid' ss (.word .end_ k :: rest)) :
      StatementAt (depth + 1) (.word .case_ n :: ts) (.caseOf e bs ss n) rest
  | compound {depth n m ts ss rest} (h : StatementsAt depth ts ss (.word .end_ m :: rest)) :
      StatementAt (depth + 1) (.word .begin_ n :: ts) (.compound ss n) rest

/-- Statements with semicolons between them. -/
inductive StatementsAt : Nat → List Token → List Statement → List Token → Prop where
  | one {depth ts s rest} (h : StatementAt depth ts s rest) : StatementsAt depth ts [s] rest
  | more {depth ts s n mid ss rest} (h : StatementAt depth ts s (.mark .semicolon n :: mid))
      (hs : StatementsAt depth mid ss rest) : StatementsAt depth ts (s :: ss) rest

/-- A branch of a case with the semicolon behind it, which it may lack in front of the word that
ends the branches. -/
inductive BranchAt : Nat → List Token → List Value × Statement → List Token → Prop where
  | closed {depth ts labels n mid s m rest}
      (hlabels : CommasAt (ConstantAt Γ) ts labels (.mark .colon n :: mid))
      (hs : StatementAt depth mid s (.mark .semicolon m :: rest)) :
      BranchAt depth ts (labels, s) rest
  | last {depth ts labels n mid s rest}
      (hlabels : CommasAt (ConstantAt Γ) ts labels (.mark .colon n :: mid))
      (hs : StatementAt depth mid s rest)
      (hend : IsNext (.keyword .end_) rest ∨ IsNext (.keyword .else_) rest) :
      BranchAt depth ts (labels, s) rest

/-- The branches of a case. -/
inductive BranchesAt : Nat → List Token → List (List Value × Statement) → List Token → Prop where
  | nil {depth ts} : BranchesAt depth ts [] ts
  | cons {depth ts b mid bs rest} (h : BranchAt depth ts b mid)
      (hs : BranchesAt depth mid bs rest) : BranchesAt depth ts (b :: bs) rest

end

end Scoped

/-! ## Programs -/

/-- A scope and the tokens that come. -/
abbrev Site := Scope × List Token

/-- The declaration of one constant, which leads from one scope and place to another. Its name is
new. -/
inductive ConstantDeclaration : Site → Site → Prop where
  | intro {Γ : Scope} {x n m k ts v rest} (hv : ConstantAt Γ ts v (.mark .semicolon k :: rest))
      (hnew : (Γ.withConstant (foldName x) v).names.Nodup) :
      ConstantDeclaration (Γ, .name x n :: .mark .equal m :: ts)
        (Γ.withConstant (foldName x) v, rest)

/-- The declaration of variables of one type. Their names are new. -/
inductive VariableDeclaration : Site → Site → Prop where
  | intro {Γ : Scope} {ts names m mid type k rest}
      (hnames : CommasAt NameAt ts names (.mark .colon m :: mid))
      (htype : TypeAt mid type (.mark .semicolon k :: rest))
      (hnew : (Γ.withVariables names type).names.Nodup) :
      VariableDeclaration (Γ, ts) (Γ.withVariables names type, rest)

/-- A section of declarations: the word that opens it, and any number of them. -/
inductive Section : Site → Site → Prop where
  | const {Γ : Scope} {n ts b} (h : Relation.ReflTransGen ConstantDeclaration (Γ, ts) b) :
      Section (Γ, .word .const n :: ts) b
  | var {Γ : Scope} {n ts b} (h : Relation.ReflTransGen VariableDeclaration (Γ, ts) b) :
      Section (Γ, .word .var_ n :: ts) b

/-- The whole source is a program: a heading, sections of declarations, and the statements between
`begin` and the final `end.`, in which at most `nestingLimit` levels open. -/
inductive Sentence (source : TokenStream) : Program → Prop where
  | program {n x m k ts} {Γ : Scope} {b us statements e d}
      (hheading : source.tokens = .word .program n :: .name x m :: .mark .semicolon k :: ts)
      (hsections : Relation.ReflTransGen Section (.empty source.endLine, ts)
        (Γ, .word .begin_ b :: us))
      (hbody : StatementsAt Γ nestingLimit us statements [.word .end_ e, .mark .dot d]) :
      Sentence source ⟨x, Γ.declarations, Γ.constants, statements⟩

end TurboBench.Pascal
