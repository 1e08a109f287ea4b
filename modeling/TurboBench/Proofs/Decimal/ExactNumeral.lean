import Mathlib.Data.List.TakeWhile
import TurboBench.Decimal.Notation
import TurboBench.Decimal.Numeral

/-!
# Doubles written out in full

Every finite double has a finite decimal expansion, since its denominator is a power of two: with as
many places as the denominator has factors, nothing is left to round. The numeral of a double is
that expansion, without a sign and with one place at least. It is read back as the natural number
of its digits and the power of ten of its places.
-/

set_option autoImplicit false

namespace TurboBench.Decimal

/-- The number of places of a numeral in full. -/
def Exact.places (e : Exact) : Nat :=
  max 1 (-e.exponent).toNat

/-- The digits of a numeral in full, as a number. -/
def Exact.coefficient (e : Exact) : Nat :=
  e.num * Nat.pow 10 e.places / e.den

/-- Whether a double has a minus sign; a zero may have one. -/
def signBit (x : Float) : Bool :=
  decide (0x8000000000000000 ≤ x.toBits.toNat)

/-- A finite double written out in full, without its sign. -/
def exactNumeral (x : Float) : String :=
  match Exact.ofFloat? x with
  | none => ""
  | some e => String.ofList (withPoint e.places e.coefficient)

/-! ## Digits -/

theorem natOfDigits_eq (cs : List Char) : natOfDigits cs = Nat.ofDigitChars 10 cs 0 :=
  Nat.ofDigitChars_eq_foldl.symm

theorem natOfDigits_toDigits (n : Nat) : natOfDigits (Nat.toDigits 10 n) = n := by
  rw [natOfDigits_eq, Nat.ofDigitChars_ten_toDigits]

/-- Leading zeros do not count. -/
theorem natOfDigits_digits (width n : Nat) : natOfDigits (digits width n) = n := by
  rw [natOfDigits_eq, digits, Nat.ofDigitChars_append, Nat.ofDigitChars_replicate_zero,
    Nat.mul_zero, Nat.ofDigitChars_ten_toDigits]

theorem isDigit_of_mem_toDigits {n : Nat} {c : Char} (h : c ∈ Nat.toDigits 10 n) :
    c.isDigit = true :=
  Nat.isDigit_of_mem_toDigits (by omega) (by omega) h

/-- Digits of a number, with zeros in front or without, are digits. -/
theorem isDigit_of_mem_digits {width n : Nat} {c : Char} (h : c ∈ digits width n) :
    c.isDigit = true := by
  rcases List.mem_append.1 h with h | h
  · rw [List.eq_of_mem_replicate h]
    decide
  · exact isDigit_of_mem_toDigits h

/-- A numeral with places has digits on both sides of its point. -/
theorem withPoint_eq {places : Nat} (h : places ≠ 0) (n : Nat) :
    ∃ whole fraction, withPoint places n = whole ++ '.' :: fraction
      ∧ whole ++ fraction = digits (places + 1) n ∧ whole ≠ [] ∧ fraction.length = places := by
  -- One digit more than places is written, which is the digit in front of the point.
  have hlen : places + 1 ≤ (digits (places + 1) n).length := by
    rw [length_digits]
    exact Nat.le_max_left _ _
  refine ⟨_, _, if_neg h, List.take_append_drop _ _, ?_, ?_⟩
  · refine List.ne_nil_of_length_pos ?_
    rw [List.length_take]
    omega
  · rw [List.length_drop]
    omega

/-- The numeral of `n` with `places` places is read as `n` moved by as many places. -/
theorem ofText_withPoint {places : Nat} (h : places ≠ 0) (n : Nat) :
    Numeral.ofText (withPoint places n) = ⟨n, -places⟩ := by
  obtain ⟨whole, fraction, heq, hdigits, -, hlen⟩ := withPoint_eq h n
  have hwhole : ∀ c ∈ whole, c.isDigit = true := fun c hc =>
    isDigit_of_mem_digits (hdigits ▸ List.mem_append_left fraction hc)
  have hfraction : ∀ c ∈ fraction, c.isDigit = true := fun c hc =>
    isDigit_of_mem_digits (hdigits ▸ List.mem_append_right whole hc)
  -- The point ends the first run of digits, and the text ends the second one.
  have hpoint : ¬ Char.isDigit '.' = true := by decide
  have htake : (whole ++ '.' :: fraction).takeWhile Char.isDigit = whole := by
    rw [List.takeWhile_append_of_pos hwhole, List.takeWhile_cons_of_neg hpoint, List.append_nil]
  have hdrop : (whole ++ '.' :: fraction).dropWhile Char.isDigit = '.' :: fraction := by
    rw [List.dropWhile_append_of_pos hwhole, List.dropWhile_cons_of_neg hpoint]
  have htake' : fraction.takeWhile Char.isDigit = fraction :=
    List.takeWhile_eq_self_iff.2 hfraction
  have hdrop' : fraction.dropWhile Char.isDigit = [] := List.dropWhile_eq_nil_iff.2 hfraction
  simp only [Numeral.ofText, heq, htake, hdrop, htake', hdrop', hdigits, hlen, natOfDigits_digits,
    Int.zero_sub]

theorem Exact.places_ne_zero (e : Exact) : e.places ≠ 0 := by
  unfold Exact.places
  omega

theorem toList_exactNumeral {x : Float} {e : Exact} (h : Exact.ofFloat? x = some e) :
    (exactNumeral x).toList = withPoint e.places e.coefficient := by
  rw [exactNumeral, h, String.toList_ofList]

theorem ofText_exactNumeral {x : Float} {e : Exact} (h : Exact.ofFloat? x = some e) :
    Numeral.ofText (exactNumeral x).toList = ⟨e.coefficient, -e.places⟩ := by
  rw [toList_exactNumeral h, ofText_withPoint e.places_ne_zero]

end TurboBench.Decimal
