import TurboBench.Decimal.Exact

/-!
Doubles written in decimal: with a fixed number of places, and in scientific notation.

Both forms round the exact binary value once, to nearest with ties to even, so the digits are the
correctly rounded ones however many are asked for. The sign is that of the sign bit, so a
negative zero and a negative number that rounds to zero both show a minus.
-/

namespace TurboBench.Decimal

/-- A number in base ten, filled up with leading zeros. -/
def digits (width n : Nat) : List Char :=
  let ds := Nat.toDigits 10 n
  List.replicate (width - ds.length) '0' ++ ds

/-- The digits of `n` with a point before the last `places` of them, of which there is at least
one; without places there is no point. -/
def withPoint (places n : Nat) : List Char :=
  if places = 0 then digits 1 n
  else
    let ds := digits (places + 1) n
    ds.take (ds.length - places) ++ '.' :: ds.drop (ds.length - places)

/-- The minus sign of a negative number. -/
def sign (negative : Bool) : List Char :=
  if negative then ['-'] else []

/-- The name of a double that is not finite. -/
def specialName (x : Float) : List Char :=
  if x.isNaN then ['n', 'a', 'n'] else sign (x < 0) ++ ['i', 'n', 'f']

/-- The double with `places` digits after the point. -/
def fixed (places : Nat) (x : Float) : String :=
  match Exact.ofFloat? x with
  | none => String.ofList (specialName x)
  | some e =>
    String.ofList
      (sign e.negative ++ withPoint places (roundHalfEven (e.num * Nat.pow 10 places) e.den))

/-! ## Scientific notation -/

/-- The power of ten that the first significant digit of `num / den` counts. A number of at least
one is as large as its integer part is long; a smaller one has as many leading zeros as its
inverse, rounded up, has digits. -/
def leadingPower (num den : Nat) : Int :=
  if den ≤ num then (Nat.toDigits 10 (num / den)).length - 1
  else -((Nat.toDigits 10 ((den + num - 1) / num - 1)).length : Int)

/-- The significand, a number of `places + 1` digits, and the exponent of `num / den`. Rounding
may carry into a further digit, which raises the exponent. -/
def significand (places num den : Nat) : Nat × Int :=
  if num = 0 then (0, 0)
  else
    let power := leadingPower num den
    let shift : Int := places - power
    -- One of the two powers is one, whichever way the digits have to be moved.
    let n := roundHalfEven (num * Nat.pow 10 shift.toNat) (den * Nat.pow 10 (-shift).toNat)
    if n = Nat.pow 10 (places + 1) then (Nat.pow 10 places, power + 1) else (n, power)

/-- An exponent with its sign and at least two digits. -/
def exponentPart (power : Int) : List Char :=
  'E' :: (if power < 0 then '-' else '+') :: digits 2 power.natAbs

/-- The double with one digit before the point, `places` digits after it, and a power of ten. -/
def scientific (places : Nat) (x : Float) : String :=
  match Exact.ofFloat? x with
  | none => String.ofList ((specialName x).map Char.toUpper)
  | some e =>
    let s := significand places e.num e.den
    String.ofList (sign e.negative ++ withPoint places s.1 ++ exponentPart s.2)

/-! ## Lengths -/

theorem length_digits (width n : Nat) :
    (digits width n).length = max width (Nat.toDigits 10 n).length := by
  simp [digits]
  omega

/-- A numeral with places is one character longer than its digits. -/
theorem length_withPoint {places : Nat} (h : places ≠ 0) (n : Nat) :
    (withPoint places n).length = (digits (places + 1) n).length + 1 := by
  simp [withPoint, h]
  omega

end TurboBench.Decimal
