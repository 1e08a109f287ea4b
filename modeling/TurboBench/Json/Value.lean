import TurboBench.Text.Blank

/-!
JSON values, and the ways in which a text fails to be one.

A number without fraction and exponent is an integer of any size. Other numbers keep their
numeral: nothing here computes with them, they only have to be told apart from integers. Objects
keep all their members in order; of several members of one name the last one counts.
-/

namespace TurboBench.Json

/-! ## Values -/

/-- A JSON value. -/
inductive Value
  | null
  | boolean (b : Bool)
  | integer (n : Int)
  | real (numeral : String)
  | string (s : String)
  | array (items : List Value)
  | object (members : List (String × Value))
  deriving Inhabited, Repr

/-- The value of a name among members: that of the last member of this name. -/
def member? (members : List (String × Value)) (name : String) : Option Value :=
  members.reverse.lookup name

theorem member?_append_singleton (members : List (String × Value)) (name : String) (v : Value) :
    member? (members ++ [(name, v)]) name = some v := by
  simp [member?]

/-! ## Complaints -/

/-- What is wrong at a position of a text. -/
inductive Flaw
  | expectedValue
  | expectedName
  | expectedColon
  | expectedComma
  | controlCharacter
  | unterminatedString
  | badEscape
  | badCode
  | extraText
  | byteOrderMark
  deriving DecidableEq, Repr

/-- The wording of a flaw. -/
def Flaw.text : Flaw → String
  | .expectedValue => "Expecting value"
  | .expectedName => "Expecting property name enclosed in double quotes"
  | .expectedColon => "Expecting ':' delimiter"
  | .expectedComma => "Expecting ',' delimiter"
  | .controlCharacter => "Invalid control character at"
  | .unterminatedString => "Unterminated string starting at"
  | .badEscape => "Invalid \\escape"
  | .badCode => "Invalid \\uXXXX escape"
  | .extraText => "Extra data"
  | .byteOrderMark => "Unexpected UTF-8 BOM (decode using utf-8-sig)"

/-- Why a text is not read: something is wrong at a position, or the text asks for more than the
reader gives: an integer of too many digits, or too many values inside each other. -/
inductive Complaint
  | malformed (flaw : Flaw) (position : Nat)
  | numeralTooLong (digits : Nat)
  | arrayTooDeep
  | objectTooDeep
  deriving DecidableEq, Repr

/-- The line of a position, counted from one. -/
def lineOf (text : List Char) (position : Nat) : Nat :=
  (text.take position).count '\n' + 1

/-- The column of a position, counted from one. -/
def columnOf (text : List Char) (position : Nat) : Nat :=
  ((text.take position).reverse.takeWhile (· != '\n')).length + 1

/-- The wording of a flaw at a position of a text. -/
def Flaw.report (f : Flaw) (text : List Char) (position : Nat) : String :=
  s!"{f.text}: line {lineOf text position} column {columnOf text position} (char {position})"

/-- The start of a text is in the first column of the first line. -/
theorem lineOf_zero (text : List Char) : lineOf text 0 = 1 ∧ columnOf text 0 = 1 := by
  simp [lineOf, columnOf]

end TurboBench.Json
