import TurboBench.Text.Field
import TurboBench.Text.Printable

/-!
Quoted text: how a report shows text that may hold any character.

The quotation mark is the apostrophe, or the double quote where the text holds an apostrophe but
no double quote. A backslash and the quotation mark in use are preceded by a backslash; tabulator,
line feed and carriage return have short forms; every other character that is not printable is
written by its code point in two, four or eight hexadecimal digits.
-/

namespace TurboBench.Text

/-- The quotation mark for a text. -/
def quoteMark (cs : List Char) : Char :=
  if cs.contains '\'' && !cs.contains '"' then '"' else '\''

/-- A code point in the shortest of the three escaped forms that holds it. -/
def escapedCode (n : Nat) : String :=
  if n < 0x100 then "\\x" ++ zeroFill 2 (hexSmall n)
  else if n < 0x10000 then "\\u" ++ zeroFill 4 (hexSmall n)
  else "\\U" ++ zeroFill 8 (hexSmall n)

/-- A character as it stands between quotation marks `mark`. -/
def quotedChar (mark c : Char) : List Char :=
  if c == mark || c == '\\' then ['\\', c]
  else if c == '\t' then ['\\', 't']
  else if c == '\n' then ['\\', 'n']
  else if c == '\r' then ['\\', 'r']
  else if isPrintable c then [c]
  else (escapedCode c.toNat).toList

/-- A text between quotation marks. -/
def quoted (s : String) : String :=
  let mark := quoteMark s.toList
  String.ofList (mark :: s.toList.flatMap (quotedChar mark) ++ [mark])

/-- A plain text is quoted between apostrophes. -/
theorem quoteMark_of_not_mem {cs : List Char} (h : '\'' ∉ cs) : quoteMark cs = '\'' := by
  simp [quoteMark, h]

/-- The quotation mark is one of the two. -/
theorem quoteMark_eq (cs : List Char) : quoteMark cs = '\'' ∨ quoteMark cs = '"' := by
  unfold quoteMark
  split <;> simp

end TurboBench.Text
