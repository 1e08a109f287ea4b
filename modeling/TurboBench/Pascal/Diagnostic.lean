import TurboBench.Text.Quoted
import TurboBench.Pascal.Token

/-!
What the compiler reports: a problem and the line it is charged to.

A problem is kept as its cause. Its wording is in one place, `Problem.message`, and so is the form
of a report, `Diagnostic.text`.
-/

namespace TurboBench.Pascal

/-- What stands where something else was expected. -/
inductive Found where
  | endOfFile
  | text (s : String)
  deriving DecidableEq, Repr

/-- How a report names what was found. -/
def Found.describe : Found → String
  | endOfFile => "end of file"
  | text s => s!"'{s}'"

/-- What the grammar asks for at a place. -/
inductive Wanted where
  | keyword (word : Keyword)
  | symbol (mark : Symbol)
  | identifier
  | type
  | integerConstant
  | numericConstant
  | constant
  | expression
  /-- One of the two directions of a counting loop. -/
  | direction
  /-- The end of the program. -/
  | programEnd
  deriving DecidableEq, Repr

/-- How a report names what was expected. -/
def Wanted.describe : Wanted → String
  | keyword w => s!"'{w.text}'"
  | symbol m => s!"'{m.text}'"
  | identifier => "Identifier"
  | type => "Type"
  | integerConstant => "Integer constant"
  | numericConstant => "Numeric constant"
  | constant => "Constant"
  | expression => "Expression"
  | direction => "'to' or 'downto'"
  | programEnd => "'end.'"

/-- The problems a source can have. -/
inductive Problem where
  /-- Text that is no lexeme of the language. -/
  | illegal (cause : Flaw)
  | expected (wanted : Wanted) (found : Found)
  | unknownStatement (found : Found)
  | tooDeep
  | constantRange
  /-- The source ends where the end of the program was due. -/
  | missingProgramEnd
  | missingDot
  | textAfterEnd (found : Found)
  /-- A `begin` or `case` on an earlier line that no `end` closes. -/
  | unclosed (opening : Keyword) (line : Nat)
  | duplicate (name : String)
  | unknownType (name : String)
  | unknownIdentifier (name : String)
  | assignToConstant (name : String)
  | parameterCount (name : String)
  deriving DecidableEq, Repr

/-- The wording of a problem. -/
def Problem.message : Problem → String
  | illegal cause => s!"Illegal character {Text.quoted cause.text}"
  | expected wanted found => s!"{wanted.describe} expected but {found.describe} found"
  | unknownStatement found => s!"Unknown statement {found.describe}"
  | tooDeep => "Program too deeply nested"
  | constantRange => "Constant out of range"
  | missingProgramEnd => "Unexpected end of file: 'end.' expected"
  | missingDot => "'.' expected after final 'end'"
  | textAfterEnd found => s!"Text after 'end.' is not allowed: {found.describe}"
  | unclosed opening line => s!"'end' expected to close '{opening.text}' on line {line}"
  | duplicate name => s!"Duplicate identifier '{name}'"
  | unknownType name => s!"Unknown type '{name}'"
  | unknownIdentifier name => s!"Unknown identifier '{name}'"
  | assignToConstant name => s!"Cannot assign to constant '{name}'"
  | parameterCount name => s!"Wrong number of parameters for '{name}'"

/-- A problem on a line. -/
structure Diagnostic where
  line : Nat
  problem : Problem
  deriving DecidableEq, Repr

/-- The report of a problem. -/
def Diagnostic.text (d : Diagnostic) : String :=
  s!"Line {d.line}: {d.problem.message}"

end TurboBench.Pascal
