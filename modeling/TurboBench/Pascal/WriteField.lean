import TurboBench.Decimal.Notation
import TurboBench.Text.Blank
import TurboBench.Text.Field
import TurboBench.Text.Quoted
import TurboBench.Pascal.Value

/-!
How `write` shows a value.

A value has an unpadded text, which a field width pads with blanks on the left and never cuts. A
real without a number of decimals is written in scientific notation with a column for the sign;
with a field width the column is given up. Both numbers are capped.
-/

namespace TurboBench.Pascal

open TurboBench.Text (alignRight trim quoted)

/-- The greatest width of a field, and the greatest number of decimals. -/
def maxFieldWidth : Nat := 255

/-- A field width, or a number of decimals, within its bounds. -/
def capped (n : Int) : Nat :=
  (min n maxFieldWidth).toNat

/-- A real in scientific notation, with a blank in the sign column unless the real is below
zero. -/
def realText (x : Float) : String :=
  let text := Decimal.scientific 10 x
  if x < 0 then text else " " ++ text

/-- The text without the white space at its ends. -/
def trimmed (s : String) : String :=
  String.ofList (trim s.toList)

/-- The text of a value before it is set into a field. -/
def unpadded (v : Value) (width decimals : Option Int) : String :=
  match v with
  | .integer n => toString n
  | .boolean b => if b then "TRUE" else "FALSE"
  | .text s => s
  | .real x =>
    match decimals with
    | some d => Decimal.fixed (capped d) x
    -- A field has no column for the sign.
    | none => if width.isSome then trimmed (realText x) else realText x

/-- The text of a value in a field. -/
def writeField (v : Value) (width decimals : Option Int) : String :=
  match width with
  | none => unpadded v none decimals
  | some w => alignRight (capped w) (unpadded v (some w) decimals)

/-- A value as a report lists it: without outer white space, and quoted if nothing is left. -/
def shown (v : Value) : String :=
  let text := trimmed (writeField v none none)
  if text.isEmpty then
    match v with
    | .text s => quoted s
    | _ => text
  else text

/-- A field is as long as its text or as its width, whichever is more. -/
theorem length_writeField_some (v : Value) (w : Int) (decimals : Option Int) :
    (writeField v (some w) decimals).length
      = max (unpadded v (some w) decimals).length (capped w) := by
  simp [writeField, Text.length_alignRight]

/-- The number of decimals matters to reals alone. -/
theorem unpadded_decimals {v : Value} (h : v.type ≠ .real) (width d e : Option Int) :
    unpadded v width d = unpadded v width e := by
  cases v <;> simp_all [unpadded, Value.type]

end TurboBench.Pascal
