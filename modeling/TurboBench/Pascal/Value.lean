/-!
The values a Pascal program computes with, their types, and the faults that stop it.

Five types are declared and four kinds of value exist: text of one character counts as a `char`,
any other text as a `string`. An integer is kept as a whole number and a real as a double; whether
a result stays inside its type is checked where it arises (`checkInteger`, `checkReal`), so that
a fault has the operation that caused it.
-/

namespace TurboBench.Pascal

/-- The types a variable can be declared with. -/
inductive PascalType where
  | integer | real | boolean | char | string
  deriving DecidableEq, Repr, Inhabited

namespace PascalType

/-- The name of a type. -/
def name : PascalType → String
  | integer => "integer"
  | real => "real"
  | boolean => "boolean"
  | char => "char"
  | string => "string"

/-- The type with the given name. -/
def ofName? (s : String) : Option PascalType :=
  [integer, real, boolean, char, string].find? (·.name == s)

@[simp] theorem ofName?_name (t : PascalType) : ofName? t.name = some t := by
  cases t <;> decide

end PascalType

/-- A value. -/
inductive Value where
  | integer (n : Int)
  | real (x : Float)
  | boolean (b : Bool)
  | text (s : String)
  deriving Repr, Inhabited

namespace Value

/-- The type that a value is reported with. -/
def type : Value → PascalType
  | integer _ => .integer
  | real _ => .real
  | boolean _ => .boolean
  | text s => if s.length = 1 then .char else .string

/-- Whether a value is a number; truth values are not. -/
def isNumber : Value → Bool
  | integer _ | real _ => true
  | boolean _ | text _ => false

/-- Whether a value is a whole number. -/
def isInteger : Value → Bool
  | integer _ => true
  | _ => false

end Value

/-- The value a variable of the type starts with. -/
def PascalType.initial : PascalType → Value
  | integer => .integer 0
  | real => .real 0
  | boolean => .boolean false
  | char => .text ""
  | string => .text ""

/-! ## Faults -/

/-- The causes that stop a program. -/
inductive Fault where
  | divisionByZero
  | rangeCheck
  | stackOverflow
  | realOverflow
  | invalidReal
  | integerOverflow
  /-- An integer so large that no real is near it. -/
  | noReal
  /-- A name that is not declared. -/
  | unknownIdentifier (name : String)
  /-- A value of a type that the variable, declared with the named type, does not take. -/
  | cannotAssign (value : PascalType) (declared name : String)
  /-- A prefix operator, as it is written before its operand, on a type it is not defined for. -/
  | operand (op : String) (type : PascalType)
  /-- An operator between types it is not defined for. -/
  | operands (left : PascalType) (op : String) (right : PascalType)
  /-- A function on a type it is not defined for. -/
  | argument (function : String) (type : PascalType)
  /-- A field width, or a number of decimals, that is not an integer. -/
  | fieldWidth
  /-- A condition that is not a truth value. -/
  | condition (type : PascalType)
  /-- A bound of a counting loop that is not an integer. -/
  | loopBounds
  deriving DecidableEq, Repr

namespace Fault

/-- The number of a fault in the table of runtime errors. -/
def code : Fault → Nat
  | divisionByZero => 200
  | rangeCheck => 201
  | stackOverflow => 202
  | realOverflow => 205
  | invalidReal | noReal => 207
  | integerOverflow => 215
  | unknownIdentifier _ | cannotAssign .. | operand .. | operands .. | argument .. | fieldWidth
  | condition _ | loopBounds => 225

/-- The wording of a fault. -/
def message : Fault → String
  | divisionByZero => "Division by zero"
  | rangeCheck => "Range check error"
  | stackOverflow => "Stack overflow error"
  | realOverflow => "Floating point overflow"
  | invalidReal => "Invalid floating point operation"
  | integerOverflow => "Arithmetic overflow"
  | noReal => "int too large to convert to float"
  | unknownIdentifier name => s!"Unknown identifier '{name}'"
  | cannotAssign value declared name =>
    s!"Type mismatch: cannot assign {value.name} to {declared} variable '{name}'"
  | operand op type => s!"Type mismatch: {op}{type.name}"
  | operands left op right => s!"Type mismatch: {left.name} {op} {right.name}"
  | argument function type => s!"Invalid argument for {function}: {type.name}"
  | fieldWidth => "Field width must be an integer"
  | condition type => s!"Boolean expected but {type.name} found"
  | loopBounds => "For loop bounds must be integers"

/-- A fault as it is reported for a line. -/
def report (f : Fault) (line : Int) : String :=
  s!"Runtime error {f.code} at line {line}: {f.message}"

end Fault

/-- A fault and the line it is charged to. -/
structure RuntimeError where
  fault : Fault
  line : Nat
  deriving DecidableEq, Repr

/-- The text of a runtime error. -/
def RuntimeError.report (e : RuntimeError) : String :=
  e.fault.report e.line

/-! ## Ranges -/

/-- The smallest integer. -/
def minInteger : Int := -0x80000000

/-- The largest integer. -/
def maxInteger : Int := 0x7FFFFFFF

/-- The greatest length of a string. -/
def maxStringLength : Nat := 255

/-- An integer that must lie in the range of integers. -/
def checkInteger (n : Int) : Except Fault Value :=
  if minInteger ≤ n ∧ n ≤ maxInteger then .ok (.integer n) else .error .integerOverflow

/-- A real that must be finite. -/
def checkReal (x : Float) : Except Fault Value :=
  if x.isFinite then .ok (.real x) else .error .realOverflow

/-- An integer as a real. -/
def widen (n : Int) : Except Fault Value :=
  let x := Float.ofInt n
  if x.isFinite then .ok (.real x) else .error .noReal

/-- A value of any type that must lie in the range of its type. -/
def checkNumeric : Value → Except Fault Value
  | .integer n => checkInteger n
  | .real x => checkReal x
  | v => .ok v

/-- A text cut to the greatest length of a string. -/
def cutString (s : String) : String :=
  String.ofList (s.toList.take maxStringLength)

theorem checkInteger_eq_ok_iff (n : Int) (v : Value) :
    checkInteger n = .ok v ↔ v = .integer n ∧ minInteger ≤ n ∧ n ≤ maxInteger := by
  unfold checkInteger
  split <;> simp_all [eq_comm]

/-- A real passes the check if and only if it is finite. -/
theorem checkReal_eq_ok_iff (x : Float) (v : Value) :
    checkReal x = .ok v ↔ v = .real x ∧ x.isFinite = true := by
  unfold checkReal
  split
  · rename_i h
    simp only [Except.ok.injEq, h, and_true]
    exact eq_comm
  · rename_i h
    simp [h]

@[simp] theorem length_cutString (s : String) :
    (cutString s).length = min maxStringLength s.length := by
  simp [cutString, String.length_toList]

/-! ## Order -/

/-- How two numbers of the real type lie to each other. -/
def compareReals (x y : Float) : Ordering :=
  if x < y then .lt else if x == y then .eq else .gt

/-- How two values of one kind lie to each other: numbers by size, `false` before `true`, texts by
their characters in order. Values of different kinds have no order. -/
def Value.compare? : Value → Value → Option Ordering
  | .integer a, .integer b => some (compare a b)
  | .integer a, .real y => some (compareReals (Float.ofInt a) y)
  | .real x, .integer b => some (compareReals x (Float.ofInt b))
  | .real x, .real y => some (compareReals x y)
  | .boolean a, .boolean b => some (compare a b)
  | .text a, .text b => some (compare a b)
  | _, _ => none

end TurboBench.Pascal
