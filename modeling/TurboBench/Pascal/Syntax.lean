import TurboBench.Pascal.Value

/-!
Syntax trees of Pascal programs.

Names in a tree are folded to small letters, constants are already replaced by their values, and
every node carries the line that a fault or a breakpoint there is reported with. The number of
executable statements is a count over the tree: every statement but compound and empty ones counts
as one, wherever it stands.
-/

namespace TurboBench.Pascal

/-- The prefix operators. A plus sign leaves no trace in the tree. -/
inductive UnaryOp where
  | negate | not
  deriving DecidableEq, Repr, Inhabited

/-- The spelling of a prefix operator. -/
def UnaryOp.text : UnaryOp → String
  | negate => "-"
  | not => "not"

/-- The operators between two operands. -/
inductive BinaryOp where
  | equal | notEqual | less | greater | atMost | atLeast
  | and | or | add | subtract | multiply | divide | div | mod
  deriving DecidableEq, Repr, Inhabited

/-- The spelling of an operator. -/
def BinaryOp.text : BinaryOp → String
  | equal => "="
  | notEqual => "<>"
  | less => "<"
  | greater => ">"
  | atMost => "<="
  | atLeast => ">="
  | and => "and"
  | or => "or"
  | add => "+"
  | subtract => "-"
  | multiply => "*"
  | divide => "/"
  | div => "div"
  | mod => "mod"

/-- The predeclared functions. Each takes one argument. -/
inductive Builtin where
  | abs | sqr | sqrt | trunc | round | ord | chr | length | odd | upcase
  deriving DecidableEq, Repr, Inhabited

namespace Builtin

/-- The name of a function. -/
def name : Builtin → String
  | abs => "abs"
  | sqr => "sqr"
  | sqrt => "sqrt"
  | trunc => "trunc"
  | round => "round"
  | ord => "ord"
  | chr => "chr"
  | length => "length"
  | odd => "odd"
  | upcase => "upcase"

/-- The function with the given name. -/
def ofName? (s : String) : Option Builtin :=
  [abs, sqr, sqrt, trunc, round, ord, chr, length, odd, upcase].find? (·.name == s)

@[simp] theorem ofName?_name (f : Builtin) : ofName? f.name = some f := by
  cases f <;> decide

end Builtin

/-- Expressions. -/
inductive Expr where
  | literal (value : Value) (line : Nat)
  | variable (name : String) (line : Nat)
  | unary (op : UnaryOp) (operand : Expr) (line : Nat)
  | binary (op : BinaryOp) (left right : Expr) (line : Nat)
  | call (function : Builtin) (argument : Expr) (line : Nat)
  deriving Repr, Inhabited

/-- An argument of `write`: a value with an optional field width and number of decimals. -/
structure WriteItem where
  value : Expr
  width : Option Expr
  decimals : Option Expr
  deriving Repr, Inhabited

/-- Statements. A case branch is a list of labels with a statement; the statements after `else` of
a case form a list of their own, empty if there is no `else`. -/
inductive Statement where
  | assign (target : String) (value : Expr) (line : Nat)
  | write (newline : Bool) (items : List WriteItem) (line : Nat)
  | read (newline : Bool) (targets : List String) (line : Nat)
  | ifThen (condition : Expr) (thenBranch : Statement) (elseBranch : Option Statement) (line : Nat)
  | whileDo (condition : Expr) (body : Statement) (line : Nat)
  | repeatUntil (body : List Statement) (condition : Expr) (line : Nat)
  | forTo (counter : String) (first last : Expr) (down : Bool) (body : Statement) (line : Nat)
  | caseOf (selector : Expr) (branches : List (List Value × Statement)) (otherwise : List Statement)
      (line : Nat)
  | compound (body : List Statement) (line : Nat)
  | empty (line : Nat)
  deriving Repr, Inhabited

/-- The line a statement begins on. -/
def Statement.line : Statement → Nat
  | assign _ _ l | write _ _ l | read _ _ l | ifThen _ _ _ l | whileDo _ _ l | repeatUntil _ _ l
  | forTo _ _ _ _ _ l | caseOf _ _ _ l | compound _ l | empty l => l

/-- Whether a statement is a step of its own, at which a run can pause. Compound and empty
statements are not. -/
def Statement.isStep : Statement → Bool
  | compound .. | empty .. => false
  | _ => true

/-- A declared variable. -/
structure Declaration where
  name : String
  type : PascalType
  line : Nat
  deriving DecidableEq, Repr, Inhabited

/-- A compiled program. -/
structure Program where
  name : String
  declarations : List Declaration
  constants : List (String × Value)
  body : List Statement
  deriving Repr, Inhabited

/-! ## Counting statements -/

mutual

/-- The number of executable statements in a statement. -/
def Statement.count : Statement → Nat
  | .assign .. | .write .. | .read .. => 1
  | .ifThen _ t (some e) _ => 1 + t.count + e.count
  | .ifThen _ t none _ => 1 + t.count
  | .whileDo _ b _ => 1 + b.count
  | .repeatUntil b _ _ => 1 + countAll b
  | .forTo _ _ _ _ b _ => 1 + b.count
  | .caseOf _ bs o _ => 1 + countBranches bs + countAll o
  | .compound b _ => countAll b
  | .empty _ => 0

/-- The number of executable statements in a list of statements. -/
def countAll : List Statement → Nat
  | [] => 0
  | s :: ss => s.count + countAll ss

/-- The number of executable statements in the branches of a case. -/
def countBranches : List (List Value × Statement) → Nat
  | [] => 0
  | (_, s) :: bs => s.count + countBranches bs

end

/-- The number of executable statements of a program. -/
def Program.statementCount (p : Program) : Nat :=
  countAll p.body

theorem countAll_append (ss ts : List Statement) :
    countAll (ss ++ ts) = countAll ss + countAll ts := by
  induction ss with
  | nil => simp [countAll]
  | cons s ss ih => simp [countAll, ih, Nat.add_assoc]

end TurboBench.Pascal
