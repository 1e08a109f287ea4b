/-!
Decimal numerals read as doubles.

The text of a numeral fixes a natural number and a power of ten; the double is the one nearest to
that value. Powers so large that the answer is beyond doubt are decided by counting digits, which
keeps the work in proportion to the length of the text.
-/

namespace TurboBench.Decimal

/-- The natural number that a run of decimal digits denotes. -/
def natOfDigits (cs : List Char) : Nat :=
  cs.foldl (fun n c => 10 * n + (c.toNat - '0'.toNat)) 0

/-- The number `coefficient · 10 ^ power`. -/
structure Numeral where
  coefficient : Nat
  power : Int
  deriving Repr, DecidableEq

namespace Numeral

/-- The double nearest to the numeral. Below `10 ^ -330` everything rounds to zero, and from
`10 ^ 310` on to infinity. -/
def toFloat (n : Numeral) : Float :=
  let size : Int := (Nat.toDigits 10 n.coefficient).length + n.power
  if n.coefficient = 0 ∨ size < -330 then 0
  else if 311 < size then Float.ofScientific 1 false 400
  else Float.ofScientific n.coefficient (decide (n.power < 0)) n.power.natAbs

/-- Reads digits, a fraction after a point, and an exponent after `e` or `E`; each of the last two
may be missing. -/
def ofText (cs : List Char) : Numeral :=
  let whole := cs.takeWhile Char.isDigit
  let rest := cs.dropWhile Char.isDigit
  let (fraction, rest) := match rest with
    | '.' :: r => (r.takeWhile Char.isDigit, r.dropWhile Char.isDigit)
    | r => ([], r)
  let exponent : Int := match rest with
    | _ :: '-' :: r => -(natOfDigits r : Int)
    | _ :: '+' :: r => natOfDigits r
    | _ :: r => natOfDigits r
    | [] => 0
  ⟨natOfDigits (whole ++ fraction), exponent - fraction.length⟩

end Numeral

end TurboBench.Decimal
