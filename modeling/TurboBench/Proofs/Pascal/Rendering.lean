import TurboBench.Pascal.Parser
import TurboBench.Proofs.Decimal.ExactNumeral
import TurboBench.Proofs.Pascal.Spelling

/-!
# Programs written out

The rendering of a program tree: its lexemes, and how deep statements, expressions and factors open
inside each other when they are read. Both are put together by the same rules (`Written`), so the
depth is that of the lexemes that are there, parentheses included.

How an operand is written depends on the place it stands at (`Place`). An operand that does not fit
its place is put in parentheses, and only such a one. The precedence of the operators leaves one
place that needs a second look: the first operand of a product at the beginning of a simple
expression. A minus sign there would be taken for the sign of the whole product, so a negation does
not fit, though it does as the first operand of a product anywhere else.
-/

set_option autoImplicit false

namespace TurboBench.Pascal

/-! ## Lexemes with their depth -/

/-- Lexemes of several items with a lexeme between them. -/
def separated (l : Lexeme) : List (List Lexeme) → List Lexeme
  | [] => []
  | [ls] => ls
  | ls :: lss => ls ++ l :: separated l lss

/-- Lexemes, and how many levels reading them opens. -/
structure Written where
  lexemes : List Lexeme
  depth : Nat
  deriving DecidableEq, Repr

namespace Written

/-- Lexemes that open no level. -/
def of (ls : List Lexeme) : Written :=
  ⟨ls, 0⟩

instance : Append Written where
  append v w := ⟨v.lexemes ++ w.lexemes, max v.depth w.depth⟩

/-- What is read one level deeper. -/
def deeper (w : Written) : Written :=
  ⟨w.lexemes, w.depth + 1⟩

/-- Several items with a lexeme between them. -/
def joined (l : Lexeme) (ws : List Written) : Written :=
  ⟨separated l (ws.map (·.lexemes)), (ws.map (·.depth)).foldr max 0⟩

/-- An expression in parentheses, which is a factor with an expression inside. -/
def parenthesized (w : Written) : Written :=
  (of [.symbol .openParen] ++ w.deeper ++ of [.symbol .closeParen]).deeper

/-- A list of arguments in parentheses; nothing without arguments. -/
def arguments (ws : List Written) : Written :=
  if ws.isEmpty then of []
  else of [.symbol .openParen] ++ joined (.symbol .comma) ws ++ of [.symbol .closeParen]

@[simp] theorem lexemes_of (ls : List Lexeme) : (of ls).lexemes = ls := rfl

@[simp] theorem depth_of (ls : List Lexeme) : (of ls).depth = 0 := rfl

@[simp] theorem lexemes_append (v w : Written) : (v ++ w).lexemes = v.lexemes ++ w.lexemes := rfl

@[simp] theorem depth_append (v w : Written) : (v ++ w).depth = max v.depth w.depth := rfl

@[simp] theorem lexemes_deeper (w : Written) : w.deeper.lexemes = w.lexemes := rfl

@[simp] theorem depth_deeper (w : Written) : w.deeper.depth = w.depth + 1 := rfl

/-- What is written between separators is no deeper than the whole. -/
theorem depth_le_joined (l : Lexeme) {ws : List Written} {w : Written} (h : w ∈ ws) :
    w.depth ≤ (joined l ws).depth := by
  induction ws with
  | nil => exact nomatch h
  | cons v ws ih =>
    simp only [joined, List.map_cons, List.foldr_cons] at ih ⊢
    rcases List.mem_cons.1 h with rfl | h
    · exact Nat.le_max_left _ _
    · exact Nat.le_trans (ih h) (Nat.le_max_right _ _)

/-- An argument is no deeper than the list that it stands in. -/
theorem depth_le_arguments {ws : List Written} {w : Written} (h : w ∈ ws) :
    w.depth ≤ (arguments ws).depth := by
  have hne : ¬ ws.isEmpty = true := by
    rw [List.isEmpty_iff]
    exact List.ne_nil_of_mem h
  rw [arguments, if_neg hne]
  have hle := depth_le_joined (.symbol .comma) h
  simp only [depth_append, depth_of]
  omega

end Written

open Written (of)

/-! ## Values -/

/-- Whether a value is written with a minus sign. -/
def Value.isNegative : Value → Bool
  | .integer n => decide (n < 0)
  | .real x => Decimal.signBit x
  | .boolean _ | .text _ => false

/-- A value without its sign. -/
def Value.unsigned : Value → Lexeme
  | .integer n => .integer (toString n.natAbs)
  | .real x => .real (Decimal.exactNumeral x)
  | .boolean b => .keyword (if b then .true_ else .false_)
  | .text s => .string s

/-- A constant: its value with a sign. -/
def Value.lexemes (v : Value) : List Lexeme :=
  if v.isNegative then [.symbol .minus, v.unsigned] else [v.unsigned]

/-- What a constant of the language can denote. -/
def Value.IsConstant : Value → Prop
  | .integer n => -maxInteger ≤ n ∧ n ≤ maxInteger
  | .real x => x.isFinite = true
  | .boolean _ | .text _ => True

/-- What a literal of the language can denote: a constant without a sign. -/
def Value.IsLiteral (v : Value) : Prop :=
  v.IsConstant ∧ v.isNegative = false

/-! ## Expressions -/

/-- The classes of operators, from the loosest to the tightest. -/
inductive OperatorClass where
  | relation | adding | multiplying
  deriving DecidableEq, Repr

/-- The class of an operator. -/
def BinaryOp.class : BinaryOp → OperatorClass
  | .equal | .notEqual | .less | .greater | .atMost | .atLeast => .relation
  | .or | .add | .subtract => .adding
  | .and | .multiply | .divide | .div | .mod => .multiplying

/-- The lexeme of an operator. -/
def BinaryOp.lexeme : BinaryOp → Lexeme
  | .equal => .symbol .equal
  | .notEqual => .symbol .notEqual
  | .less => .symbol .less
  | .greater => .symbol .greater
  | .atMost => .symbol .atMost
  | .atLeast => .symbol .atLeast
  | .and => .keyword .and
  | .or => .keyword .or
  | .add => .symbol .plus
  | .subtract => .symbol .minus
  | .multiply => .symbol .star
  | .divide => .symbol .slash
  | .div => .keyword .div
  | .mod => .keyword .mod

/-- The places at which an expression can stand. -/
inductive Place where
  /-- A whole expression. -/
  | expression
  /-- A simple expression, such as an operand of a relation. -/
  | simple
  /-- A term at the beginning of a simple expression, where a minus sign is that of the term. -/
  | leading
  /-- A term anywhere else. -/
  | term
  /-- A factor. -/
  | factor
  deriving DecidableEq, Repr

/-- Whether an operation of a class needs no parentheses at a place. -/
def OperatorClass.fits : OperatorClass → Place → Bool
  | relation, .expression => true
  | adding, .expression | adding, .simple => true
  | multiplying, .factor => false
  | multiplying, _ => true
  | _, _ => false

/-- The place of the first operand of a product at a place. -/
def Place.ofProduct : Place → Place
  | .expression | .simple | .leading => .leading
  | .term | .factor => .term

/-- An expression at a place. -/
def Expr.rendered : Expr → Place → Written
  | .literal v _, _ => (of [v.unsigned]).deeper
  | .variable n _, _ => (of [.identifier n]).deeper
  | .call f e _, _ =>
    (of [.identifier f.name, .symbol .openParen] ++ (e.rendered .expression).deeper
      ++ of [.symbol .closeParen]).deeper
  | .unary .not e _, _ => (of [.keyword .not] ++ e.rendered .factor).deeper
  | .unary .negate e _, place =>
    match place with
    -- The sign of a simple expression belongs to its first term, any other to a factor.
    | .expression | .simple => of [.symbol .minus] ++ e.rendered .term
    | .leading => (of [.symbol .minus] ++ e.rendered .term).parenthesized
    | .term | .factor => (of [.symbol .minus] ++ e.rendered .factor).deeper
  | .binary op l r _, place =>
    match op.class with
    | .relation =>
      let w := l.rendered .simple ++ of [op.lexeme] ++ r.rendered .simple
      if op.class.fits place then w else w.parenthesized
    | .adding =>
      let w := l.rendered .simple ++ of [op.lexeme] ++ r.rendered .term
      if op.class.fits place then w else w.parenthesized
    | .multiplying =>
      if op.class.fits place then
        l.rendered place.ofProduct ++ of [op.lexeme] ++ r.rendered .factor
      else (l.rendered .leading ++ of [op.lexeme] ++ r.rendered .factor).parenthesized

/-- A whole expression, which opens a level. -/
def Expr.written (e : Expr) : Written :=
  (e.rendered .expression).deeper

/-- A write item. -/
def WriteItem.written (item : WriteItem) : Written :=
  match item.width, item.decimals with
  | some w, some d =>
    item.value.written ++ of [.symbol .colon] ++ w.written ++ of [.symbol .colon] ++ d.written
  | some w, none => item.value.written ++ of [.symbol .colon] ++ w.written
  | none, _ => item.value.written

/-! ## Statements -/

mutual

/-- A statement. -/
def Statement.written : Statement → Written
  | .assign target e _ => (of [.identifier target, .symbol .assign] ++ e.written).deeper
  | .write newline items _ =>
    (of [.keyword (if newline then .writeln else .write)]
      ++ Written.arguments (items.map (·.written))).deeper
  | .read newline targets _ =>
    (of [.keyword (if newline then .readln else .read)]
      ++ Written.arguments (targets.map fun n => of [.identifier n])).deeper
  | .ifThen c t (some e) _ =>
    (of [.keyword .if_] ++ c.written ++ of [.keyword .then_] ++ t.written
      ++ of [.keyword .else_] ++ e.written).deeper
  | .ifThen c t none _ =>
    (of [.keyword .if_] ++ c.written ++ of [.keyword .then_] ++ t.written).deeper
  | .whileDo c b _ =>
    (of [.keyword .while_] ++ c.written ++ of [.keyword .do_] ++ b.written).deeper
  | .repeatUntil b c _ =>
    (of [.keyword .repeat_] ++ writtenAll b ++ of [.keyword .until_] ++ c.written).deeper
  | .forTo counter first last down b _ =>
    (of [.keyword .for_, .identifier counter, .symbol .assign] ++ first.written
      ++ of [.keyword (if down then .downto else .to_)] ++ last.written
      ++ of [.keyword .do_] ++ b.written).deeper
  | .caseOf selector branches otherwise _ =>
    (of [.keyword .case_] ++ selector.written ++ of [.keyword .of] ++ writtenBranches branches
      ++ writtenElse otherwise ++ of [.keyword .end_]).deeper
  | .compound b _ => (of [.keyword .begin_] ++ writtenAll b ++ of [.keyword .end_]).deeper
  | .empty _ => (of []).deeper

/-- The statements of a list, with semicolons between them. -/
def writtenAll : List Statement → Written
  | [] => of []
  | s :: ss => s.written ++ writtenBehind ss

/-- Further statements of a list, with a semicolon before each. -/
def writtenBehind : List Statement → Written
  | [] => of []
  | s :: ss => of [.symbol .semicolon] ++ s.written ++ writtenBehind ss

/-- The branches of a case, with a semicolon behind each. -/
def writtenBranches : List (List Value × Statement) → Written
  | [] => of []
  | (labels, s) :: bs =>
    of (separated (.symbol .comma) (labels.map (·.lexemes)) ++ [.symbol .colon]) ++ s.written
      ++ of [.symbol .semicolon] ++ writtenBranches bs

/-- The statements of a case that are carried out otherwise. -/
def writtenElse : List Statement → Written
  | [] => of []
  | s :: ss => of [.keyword .else_] ++ s.written ++ writtenBehind ss

end

/-! ## Programs -/

/-- The reserved word that names a type. -/
def PascalType.keyword : PascalType → Keyword
  | .integer => .integer
  | .real => .real
  | .boolean => .boolean
  | .char => .char
  | .string => .string

/-- The declaration of a constant. -/
def constantLexemes (c : String × Value) : List Lexeme :=
  [.identifier c.1, .symbol .equal] ++ c.2.lexemes ++ [.symbol .semicolon]

/-- The declaration of a variable. -/
def Declaration.lexemes (d : Declaration) : List Lexeme :=
  [.identifier d.name, .symbol .colon, .keyword d.type.keyword, .symbol .semicolon]

/-- A section of declarations, which is left out if it is empty. -/
def sectionLexemes (word : Keyword) (ls : List Lexeme) : List Lexeme :=
  if ls.isEmpty then [] else .keyword word :: ls

/-- A program. -/
def Program.written (p : Program) : Written :=
  of ([.keyword .program, .identifier p.name, .symbol .semicolon]
      ++ sectionLexemes .const (p.constants.flatMap constantLexemes)
      ++ sectionLexemes .var_ (p.declarations.flatMap (·.lexemes)) ++ [.keyword .begin_])
    ++ writtenAll p.body ++ of [.keyword .end_, .symbol .dot]

/-- The text of a program. -/
def Program.text (p : Program) : List Char :=
  spelled p.written.lexemes

/-! ## Programs of the language -/

/-- An expression whose literals are literals of the language and whose variables are declared. The
name of a constant is read as a literal with its value, so trees have names of variables only. -/
def Expr.WellFormed (declared : String → Prop) : Expr → Prop
  | .literal v _ => v.IsLiteral
  | .variable n _ => declared n
  | .unary _ e _ | .call _ e _ => e.WellFormed declared
  | .binary _ l r _ => l.WellFormed declared ∧ r.WellFormed declared

/-- A write item whose parts are well-formed. Decimals come with a width only. -/
def WriteItem.WellFormed (declared : String → Prop) (item : WriteItem) : Prop :=
  item.value.WellFormed declared ∧ (∀ w, item.width = some w → w.WellFormed declared)
    ∧ (∀ d, item.decimals = some d → d.WellFormed declared)
    ∧ (item.width = none → item.decimals = none)

/-- Whether a statement ends in a conditional without `else`, which would take an `else` behind the
statement for its own. -/
def Statement.endsOpen : Statement → Bool
  | .ifThen _ _ none _ => true
  | .ifThen _ _ (some e) _ => e.endsOpen
  | .whileDo _ b _ | .forTo _ _ _ _ b _ => b.endsOpen
  | _ => false

mutual

/-- A statement of the language. -/
def Statement.WellFormed (declared : String → Prop) : Statement → Prop
  | .assign target e _ => declared target ∧ e.WellFormed declared
  | .write _ items _ => ∀ item ∈ items, item.WellFormed declared
  | .read _ targets _ => ∀ n ∈ targets, declared n
  | .ifThen c t (some e) _ =>
    c.WellFormed declared ∧ t.WellFormed declared ∧ e.WellFormed declared ∧ t.endsOpen = false
  | .ifThen c t none _ => c.WellFormed declared ∧ t.WellFormed declared
  | .whileDo c b _ => c.WellFormed declared ∧ b.WellFormed declared
  | .repeatUntil b c _ => b ≠ [] ∧ WellFormedAll declared b ∧ c.WellFormed declared
  | .forTo counter first last _ b _ =>
    declared counter ∧ first.WellFormed declared ∧ last.WellFormed declared
      ∧ b.WellFormed declared
  | .caseOf selector branches otherwise _ =>
    selector.WellFormed declared ∧ WellFormedBranches declared branches
      ∧ WellFormedAll declared otherwise
  | .compound b _ => b ≠ [] ∧ WellFormedAll declared b
  | .empty _ => True

/-- Statements of the language. -/
def WellFormedAll (declared : String → Prop) : List Statement → Prop
  | [] => True
  | s :: ss => s.WellFormed declared ∧ WellFormedAll declared ss

/-- Branches of the language: each has a label, and its labels are constants. -/
def WellFormedBranches (declared : String → Prop) : List (List Value × Statement) → Prop
  | [] => True
  | (labels, s) :: bs =>
    (labels ≠ [] ∧ ∀ v ∈ labels, v.IsConstant) ∧ s.WellFormed declared
      ∧ WellFormedBranches declared bs

end

/-- The variables of a program. -/
def Program.variables (p : Program) : List String :=
  p.declarations.map (·.name)

/-- A program of the language. -/
structure Program.WellFormed (p : Program) : Prop where
  name : IsName p.name
  constantNames : ∀ c ∈ p.constants, IsName c.1
  variableNames : ∀ n ∈ p.variables, IsName n
  /-- No name is declared twice, as a constant or as a variable. -/
  distinct : (p.constants.map Prod.fst ++ p.variables).Nodup
  constants : ∀ c ∈ p.constants, c.2.IsConstant
  body_ne : p.body ≠ []
  body : WellFormedAll (· ∈ p.variables) p.body

/-! ## All on one line -/

/-- An expression on a line. -/
def Expr.onLine (n : Nat) : Expr → Expr
  | .literal v _ => .literal v n
  | .variable name _ => .variable name n
  | .unary op e _ => .unary op (e.onLine n) n
  | .binary op l r _ => .binary op (l.onLine n) (r.onLine n) n
  | .call f e _ => .call f (e.onLine n) n

/-- A write item on a line. -/
def WriteItem.onLine (n : Nat) (item : WriteItem) : WriteItem :=
  ⟨item.value.onLine n, item.width.map (·.onLine n), item.decimals.map (·.onLine n)⟩

mutual

/-- A statement on a line. -/
def Statement.onLine (n : Nat) : Statement → Statement
  | .assign target e _ => .assign target (e.onLine n) n
  | .write newline items _ => .write newline (items.map (·.onLine n)) n
  | .read newline targets _ => .read newline targets n
  | .ifThen c t (some e) _ => .ifThen (c.onLine n) (t.onLine n) (some (e.onLine n)) n
  | .ifThen c t none _ => .ifThen (c.onLine n) (t.onLine n) none n
  | .whileDo c b _ => .whileDo (c.onLine n) (b.onLine n) n
  | .repeatUntil b c _ => .repeatUntil (onLineAll n b) (c.onLine n) n
  | .forTo counter first last down b _ =>
    .forTo counter (first.onLine n) (last.onLine n) down (b.onLine n) n
  | .caseOf selector branches otherwise _ =>
    .caseOf (selector.onLine n) (onLineBranches n branches) (onLineAll n otherwise) n
  | .compound b _ => .compound (onLineAll n b) n
  | .empty _ => .empty n

/-- Statements on a line. -/
def onLineAll (n : Nat) : List Statement → List Statement
  | [] => []
  | s :: ss => s.onLine n :: onLineAll n ss

/-- Branches of a case on a line. -/
def onLineBranches (n : Nat) : List (List Value × Statement) → List (List Value × Statement)
  | [] => []
  | (labels, s) :: bs => (labels, s.onLine n) :: onLineBranches n bs

end

/-- A program on a line. -/
def Program.onLine (n : Nat) (p : Program) : Program :=
  { p with
    declarations := p.declarations.map fun d => { d with line := n }
    body := onLineAll n p.body }

end TurboBench.Pascal
