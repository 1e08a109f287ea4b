import Mathlib
import TurboBench.Decimal.Exact

/-!
# Quotients that are doubles

Dividing two natural numbers as doubles rounds nothing if the quotient is a double. The division
moves the dividend far enough to the left for a quotient with all digits of a double and more; with
a quotient `m * 2 ^ e` in lowest form that leaves no remainder, and rounding has only zeros to move
out again on the right.
-/

set_option autoImplicit false

namespace TurboBench.Decimal

open Float.Model Float.Model.UnpackedFloat

/-- The exponent with which the number is a double: with all bits of a mantissa, or with the
smallest exponent. -/
def Canonical (m : Nat) (e : Int) : Prop :=
  Format.binary64.targetExponent (totalExponent m e) = e

/-! ## Logarithms -/

/-- Zeros at the end make a number longer by as many bits. -/
theorem log2_mul_two_pow {m : Nat} (hm : m ≠ 0) (k : Nat) : (m * 2 ^ k).log2 = m.log2 + k := by
  induction k with
  | zero => rw [Nat.pow_zero, Nat.mul_one, Nat.add_zero]
  | succ k ih =>
    have hne : m * 2 ^ k ≠ 0 := Nat.mul_ne_zero hm (Nat.ne_of_gt (Nat.two_pow_pos k))
    rw [Nat.pow_succ, ← Nat.mul_assoc, Nat.mul_comm _ 2, Nat.log2_two_mul hne, ih, Nat.add_assoc]

/-- A product has as many bits as its factors together, at most. -/
theorem log2_mul_le {m n : Nat} (hm : m ≠ 0) (hn : n ≠ 0) :
    (m * n).log2 ≤ m.log2 + n.log2 + 1 := by
  have hlt : m * n < 2 ^ (m.log2 + n.log2 + 2) := by
    calc
      m * n < 2 ^ (m.log2 + 1) * 2 ^ (n.log2 + 1) :=
        Nat.mul_lt_mul'' Nat.lt_log2_self Nat.lt_log2_self
      _ = 2 ^ (m.log2 + n.log2 + 2) := by
        rw [← Nat.pow_add]
        congr 1
        omega
  have hlog := (Nat.log2_lt (Nat.mul_ne_zero hm hn)).2 hlt
  omega

/-! ## Rounding what needs no rounding -/

/-- Nothing is lost when zeros are shifted out. -/
theorem shiftRight_zeros (m k : Nat) :
    (⟨m * 2 ^ k, false, false⟩ : ExtendedMantissa) >>> k = ⟨m, false, false⟩ := by
  -- one bit at a time, from the lowest on
  change Nat.repeat ExtendedMantissa.shiftRightOne k ⟨m * 2 ^ k, false, false⟩ = _
  induction k generalizing m with
  | zero => rw [Nat.pow_zero, Nat.mul_one, Nat.repeat]
  | succ k ih =>
    rw [Nat.repeat, Nat.pow_succ, Nat.mul_comm _ 2, ← Nat.mul_assoc, ih (m * 2)]
    simp [ExtendedMantissa.shiftRightOne]

theorem totalExponent_mul_two_pow {m : Nat} (hm : m ≠ 0) (e : Int) (k : Nat) :
    totalExponent (m * 2 ^ k) (e - k) = totalExponent m e := by
  rw [totalExponent, totalExponent, log2_mul_two_pow hm]
  omega

/-- A canonical significand with zeros behind it is brought to its exponent exactly. -/
theorem shiftToTargetExponent_exact {m : Nat} {e : Int} (hm : m ≠ 0) (h : Canonical m e) (k : Nat) :
    shiftToTargetExponent Format.binary64 (m * 2 ^ k) (e - k) .exact = (⟨m, false, false⟩, e) := by
  have hshift : (e - (e - k)).toNat = k := by omega
  have hback : e - (k : Int) + (k : Int) = e := by omega
  simp only [shiftToTargetExponent, shiftToExponent, totalExponent_mul_two_pow hm,
    show Format.binary64.targetExponent (totalExponent m e) = e from h, hshift, hback,
    ExtendedMantissa.ofMantissaAndAccuracy, shiftRight_zeros]

/-- So rounding it changes nothing. -/
theorem roundWithAccuracy_exact {m : Nat} {e : Int} (hm : 0 < m) (h : Canonical m e) (k : Nat)
    (s : Sign) :
    roundWithAccuracy Format.binary64 s (m * 2 ^ k) (e - k) .exact = .finite s m e hm := by
  -- The mantissa is moved twice, before and after rounding, and the second time it stays.
  have hfirst := shiftToTargetExponent_exact (Nat.ne_of_gt hm) h k
  have hsecond := shiftToTargetExponent_exact (Nat.ne_of_gt hm) h 0
  rw [Nat.pow_zero, Nat.mul_one, Int.natCast_zero, Int.sub_zero] at hsecond
  simp only [roundWithAccuracy, hfirst, ExtendedMantissa.roundedMantissa,
    ExtendedMantissa.accuracy, Accuracy.roundToNearestEven, hsecond]
  rw [dif_neg (Nat.ne_of_gt hm)]

/-! ## Dividing -/

/-- The quotient `c / p` is `m * 2 ^ e`. -/
def IsQuotient (c p m : Nat) (e : Int) : Prop :=
  c * 2 ^ (-e).toNat = m * 2 ^ e.toNat * p

/-- The same quotient, with everything moved far enough to the left. -/
theorem IsQuotient.shifted {c p m : Nat} {e : Int} (h : IsQuotient c p m e) {k : Nat}
    (hk : -(k : Int) ≤ e) : c * 2 ^ k = m * 2 ^ (e + k).toNat * p := by
  -- Of the two powers in `h` one is `1`, so both sides can take what is missing up to `k`.
  have hleft : 2 ^ k = 2 ^ (-e).toNat * 2 ^ (k - (-e).toNat) := by
    rw [← Nat.pow_add]
    congr 1
    omega
  have hright : 2 ^ (e + k).toNat = 2 ^ e.toNat * 2 ^ (k - (-e).toNat) := by
    rw [← Nat.pow_add]
    congr 1
    omega
  calc
    c * 2 ^ k = c * 2 ^ (-e).toNat * 2 ^ (k - (-e).toNat) := by rw [hleft, Nat.mul_assoc]
    _ = m * 2 ^ e.toNat * p * 2 ^ (k - (-e).toNat) := by rw [show c * _ = _ from h]
    _ = m * 2 ^ (e + k).toNat * p := by
      rw [hright, Nat.mul_right_comm, ← Nat.mul_assoc]

/-- The bits of a quotient are bounded by those of what it is the quotient of. -/
theorem IsQuotient.log2_le {c p m : Nat} {e : Int} (h : IsQuotient c p m e) (hc : c ≠ 0)
    (hp : p ≠ 0) (hm : m ≠ 0) : (c.log2 : Int) ≤ m.log2 + p.log2 + 1 + e := by
  have heq : c * 2 ^ (-e).toNat = m * p * 2 ^ e.toNat := by
    rw [show c * _ = _ from h, Nat.mul_right_comm]
  have hlog := congrArg Nat.log2 heq
  rw [log2_mul_two_pow hc, log2_mul_two_pow (Nat.mul_ne_zero hm hp)] at hlog
  have hle := log2_mul_le hm hp
  omega

/-- **A quotient that is a double is the result of the division.** -/
theorem div_exact {c p m : Nat} {e : Int} (h : IsQuotient c p m e) (hc : 0 < c) (hp : 0 < p)
    (hm : 0 < m) (hcanonical : Canonical m e) :
    UnpackedFloat.div Format.binary64 (.finite .positive c 0 hc) (.finite .positive p 0 hp)
      = .finite .positive m e hm := by
  have hlog := h.log2_le (Nat.ne_of_gt hc) (Nat.ne_of_gt hp) (Nat.ne_of_gt hm)
  -- The exponent that is aimed at is not above that of the quotient.
  have htarget : Format.binary64.targetExponent (totalExponent c 0 - totalExponent p 0) ≤ e := by
    have hcan : max (totalExponent m e - Format.binary64.mantissaBits) Format.binary64.minExponent
        = e := hcanonical
    unfold Format.targetExponent
    unfold totalExponent at hcan ⊢
    omega
  obtain ⟨t, ht⟩ : ∃ t : Nat, min ((0 : Int) - 0)
      (Format.binary64.targetExponent (totalExponent c 0 - totalExponent p 0)) = -(t : Int) :=
    Int.exists_eq_neg_ofNat (Int.min_le_left _ _)
  have hle : -(t : Int) ≤ e := by omega
  have hshift : ((0 : Int) - 0 - -(t : Int)).toNat = t := by omega
  -- The dividend is moved by `t` bits, and then the division leaves no remainder.
  have hquotient := h.shifted hle
  have hexp : (-(t : Int)) = e - ((e + t).toNat : Int) := by omega
  have hdiv : (c <<< t) / p = m * 2 ^ (e + t).toNat := by
    rw [Nat.shiftLeft_eq, hquotient, Nat.mul_div_cancel _ hp]
  have hmod : (c <<< t) % p = 0 := by
    rw [Nat.shiftLeft_eq, hquotient, Nat.mul_mod_left]
  simp only [UnpackedFloat.div, divCore, ht, hshift, hdiv, hmod, accuracyOfFraction, if_true]
  rw [hexp]
  exact roundWithAccuracy_exact hm hcanonical _ _

end TurboBench.Decimal
