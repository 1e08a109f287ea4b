/-!
The exact value of a double.

A finite double is a sign and a natural number times a power of two. Everything that must not
depend on a second rounding (printing, cutting off the fraction, rounding to an integer) starts
from this decomposition and continues in natural numbers.
-/

namespace TurboBench.Decimal

/-- The number `± mantissa · 2 ^ exponent`. Zero keeps its sign. -/
structure Exact where
  negative : Bool
  mantissa : Nat
  exponent : Int
  deriving Repr, DecidableEq

namespace Exact

/-- The first bit of a normal significand, which the format does not write: one more than the
largest fraction. -/
def hiddenBit : Nat := 0x10000000000000

/-- Reads the three fields of the double format: a sign bit, eleven bits of exponent and
fifty-two bits of fraction. `none` for the infinities and for not-a-number. -/
def ofBits? (bits : UInt64) : Option Exact :=
  let n := bits.toNat
  let negative := n / 0x8000000000000000 == 1
  let biased : Nat := n / hiddenBit % 0x800
  let fraction := n % hiddenBit
  if biased == 0x7FF then none
  -- Below the smallest normal number the first bit is not implied.
  else if biased == 0 then some ⟨negative, fraction, -1074⟩
  else some ⟨negative, fraction + hiddenBit, biased - 1075⟩

/-- The exact value of a finite double. -/
def ofFloat? (x : Float) : Option Exact :=
  ofBits? x.toBits

/-- The numerator of the magnitude. -/
def num (e : Exact) : Nat :=
  e.mantissa * Nat.pow 2 e.exponent.toNat

/-- The denominator of the magnitude. -/
def den (e : Exact) : Nat :=
  Nat.pow 2 (-e.exponent).toNat

theorem den_pos (e : Exact) : 0 < e.den :=
  Nat.two_pow_pos _

/-- The integer part of the magnitude, with the sign of the number. -/
def truncate (e : Exact) : Int :=
  if e.negative then -((e.num / e.den : Nat) : Int) else (e.num / e.den : Nat)

/-- The largest natural number that is not above the magnitude. -/
def floorMagnitude (e : Exact) : Nat :=
  e.num / e.den

end Exact

/-! ## Rounding a quotient -/

/-- The natural number nearest to `num / den`; of two equally near ones the even one. -/
def roundHalfEven (num den : Nat) : Nat :=
  let q := num / den
  let twice := 2 * (num % den)
  if twice < den then q
  else if den < twice then q + 1
  else if q % 2 = 0 then q else q + 1

/-- Rounding moves by at most half a unit. -/
theorem roundHalfEven_near (num den : Nat) (h : 0 < den) :
    2 * num ≤ 2 * (roundHalfEven num den * den) + den ∧
      2 * (roundHalfEven num den * den) ≤ 2 * num + den := by
  have hq : den * (num / den) + num % den = num := Nat.div_add_mod num den
  have hr : num % den < den := Nat.mod_lt _ h
  have hs : (num / den + 1) * den = den * (num / den) + den := by
    rw [Nat.add_mul, Nat.one_mul, Nat.mul_comm]
  have hm : num / den * den = den * (num / den) := Nat.mul_comm _ _
  unfold roundHalfEven
  simp only
  split
  · rw [hm]; omega
  · split
    · rw [hs]; omega
    · split
      · rw [hm]; omega
      · rw [hs]; omega

/-- A quotient that is a natural number is not moved. -/
theorem roundHalfEven_mul (n den : Nat) (h : 0 < den) : roundHalfEven (n * den) den = n := by
  simp [roundHalfEven, Nat.mul_div_cancel _ h, h]

end TurboBench.Decimal
