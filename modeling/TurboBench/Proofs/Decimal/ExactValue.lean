import TurboBench.Proofs.Decimal.FiniteResults

/-!
# The exact value of a double

A finite double is a rational number, `exactValue x`. This module says what that number is for a
double that was computed: the exact result, moved by at most half a unit of its fifty-third bit
(`round_eq`). Rounding a mantissa is rounding its quotient by a power of two
(`roundedMantissa_shiftRight`), so what is known of `roundHalfEven` carries over. Integers of at
most fifty-three bits are not moved at all (`exactValue_ofInt`).
-/

set_option autoImplicit false

namespace TurboBench.Decimal

open Float.Model Float.Model.UnpackedFloat

/-- The number that the sign, the mantissa and the exponent stand for. -/
def Exact.value (e : Exact) : ℚ :=
  (if e.negative then -1 else 1) * (e.mantissa * 2 ^ e.exponent)

/-- The exact value of a finite double, and zero for any other. -/
def exactValue (x : Float) : ℚ :=
  ((Exact.ofFloat? x).map Exact.value).getD 0

theorem exactValue_of_ofFloat? {x : Float} {e : Exact} (h : Exact.ofFloat? x = some e) :
    exactValue x = e.value := by
  rw [exactValue, h]
  rfl

namespace Exact

variable {e : Exact}

/-- The magnitude of a value is that of its significand, scaled. -/
theorem abs_value (e : Exact) : |e.value| = e.mantissa * 2 ^ e.exponent := by
  have hnonneg : (0 : ℚ) ≤ e.mantissa * 2 ^ e.exponent := by positivity
  unfold value
  split
  · rw [neg_one_mul, abs_neg, abs_of_nonneg hnonneg]
  · rw [one_mul, abs_of_nonneg hnonneg]

/-- The magnitude is the quotient that is printed and rounded. -/
theorem abs_value_eq_div (e : Exact) : |e.value| = (e.num : ℚ) / (e.den : ℚ) := by
  rw [abs_value, eq_div_iff (by exact_mod_cast Nat.ne_of_gt e.den_pos), mul_assoc]
  have hpow : (2 : ℚ) ^ e.exponent * (e.den : ℚ) = 2 ^ e.exponent.toNat := by
    rw [den, Nat.pow_eq, Nat.cast_pow, Nat.cast_ofNat, ← zpow_natCast, ← zpow_natCast,
      ← zpow_add₀ (by norm_num)]
    congr 1
    omega
  rw [hpow, num, Nat.pow_eq]
  push_cast
  rfl

/-- The largest natural number that is not above the magnitude. -/
theorem floorMagnitude_eq (e : Exact) : e.floorMagnitude = ⌊|e.value|⌋₊ := by
  rw [abs_value_eq_div, Nat.floor_div_eq_div]
  rfl

end Exact

/-! ## Taking a double apart and putting it together -/

/-- The sign of a value is the sign bit of the double. -/
theorem negative_of_ofFloat? {x : Float} {e : Exact} (h : Exact.ofFloat? x = some e) :
    e.negative = signBit x := by
  have hlt := x.toBits.toNat_lt
  have hsign : (x.toBits.toNat / 0x8000000000000000 == 1) = signBit x := by
    rw [Bool.eq_iff_iff, beq_iff_eq, signBit, decide_eq_true_eq]
    omega
  unfold Exact.ofFloat? Exact.ofBits? at h
  simp only [hsign] at h
  split at h
  · exact absurd h nofun
  · split at h <;> obtain rfl := Option.some.inj h <;> rfl

/-- A finite double as it is unpacked. -/
theorem unpack_of_ofFloat? {x : Float} {e : Exact} (h : Exact.ofFloat? x = some e) :
    x.toModel.unpack = if e.negative then e.magnitude.neg else e.magnitude := by
  have hmagnitude : x.toModel.unpack.abs = e.magnitude := Exact.unpack_of_ofBits? h
  have hsign := unpackSign_toBits x
  rw [negative_of_ofFloat? h, ← hmagnitude]
  split
  · rename_i hset
    rw [if_pos hset] at hsign
    exact (neg_abs_unpack hsign).symm
  · rename_i hset
    rw [if_neg hset] at hsign
    exact (abs_unpack hsign).symm

theorem exists_ofFloat? {x : Float} (h : x.isFinite = true) :
    ∃ e, Exact.ofFloat? x = some e ∧ e.InFormat := by
  obtain ⟨e, he⟩ := Option.isSome_iff_exists.1 (isSome_ofFloat? h)
  exact ⟨e, he, Exact.inFormat_of_ofBits? he⟩

theorem isFinite_of_ofFloat? {x : Float} {e : Exact} (h : Exact.ofFloat? x = some e) :
    x.isFinite = true := by
  change x.toModel.unpack.isFinite = true
  rw [unpack_of_ofFloat? h, Exact.magnitude]
  split <;> split <;> rfl

/-- A double is compared with zero by its exact value. -/
theorem zero_le_iff {x : Float} (h : x.isFinite = true) : 0 ≤ x ↔ 0 ≤ exactValue x := by
  obtain ⟨e, he, -⟩ := exists_ofFloat? h
  have hle : 0 ≤ x ↔ (Float.toModel 0).unpack.le x.toModel.unpack = true := by
    show decide _ = true ↔ _
    rw [decide_eq_true_iff]
    rfl
  have hzero : (Float.toModel 0).unpack = .zero .positive := rfl
  rw [hle, hzero, unpack_of_ofFloat? he, exactValue_of_ofFloat? he, Exact.magnitude, Exact.value]
  rcases Nat.eq_zero_or_pos e.mantissa with hm | hm
  · -- a zero of either sign
    rw [dif_neg (by omega), hm, Nat.cast_zero, zero_mul, mul_zero]
    cases e.negative <;> exact iff_of_true rfl le_rfl
  · have hpos : (0 : ℚ) < e.mantissa * 2 ^ e.exponent := by positivity
    rw [dif_pos hm]
    cases e.negative with
    | false => exact iff_of_true rfl (by rw [if_neg Bool.false_ne_true, one_mul]; exact hpos.le)
    | true =>
      refine iff_of_false Bool.false_ne_true ?_
      rw [if_pos rfl, neg_one_mul]
      linarith

/-- What is unpacked to a mantissa and an exponent has them. -/
theorem ofFloat?_of_unpack {x : Float} {s : Sign} {m : Nat} {e : Int} {hm : 0 < m}
    (h : x.toModel.unpack = .finite s m e hm) :
    ∃ f, Exact.ofFloat? x = some f ∧ f.value = (s.apply m : ℤ) * 2 ^ e := by
  have hfinite : x.isFinite = true := by
    change x.toModel.unpack.isFinite = true
    rw [h]
    rfl
  obtain ⟨f, hf, -⟩ := exists_ofFloat? hfinite
  have hunpack := unpack_of_ofFloat? hf
  refine ⟨f, hf, ?_⟩
  rw [h] at hunpack
  unfold Exact.magnitude at hunpack
  unfold Exact.value
  -- The unpacked number has a mantissa, so the exact one is not zero.
  by_cases hpos : 0 < f.mantissa
  · rw [dif_pos hpos] at hunpack
    cases hnegative : f.negative with
    | true =>
      rw [hnegative] at hunpack
      injection hunpack with hs hm he
      subst hs hm he
      change _ = ((-(f.mantissa : ℤ) : ℤ) : ℚ) * _
      rw [if_pos rfl]
      push_cast
      ring
    | false =>
      rw [hnegative] at hunpack
      injection hunpack with hs hm he
      subst hs hm he
      simp [Sign.apply]
  · rw [dif_neg hpos] at hunpack
    split at hunpack
    · exact absurd hunpack nofun
    · exact absurd hunpack nofun

/-! ## Rounding -/

/-- Shifting keeps the last bit that was shifted out, and whether there was any other. -/
theorem shiftRight_succ (m k : Nat) :
    (⟨m, false, false⟩ : ExtendedMantissa) >>> (k + 1)
      = ⟨m / 2 ^ (k + 1), m / 2 ^ k % 2 != 0, m % 2 ^ k != 0⟩ := by
  change Nat.repeat ExtendedMantissa.shiftRightOne (k + 1) _ = _
  induction k with
  | zero => simp [Nat.repeat, ExtendedMantissa.shiftRightOne, Nat.mod_one]
  | succ k ih =>
    have hquotient : m / 2 ^ (k + 1) / 2 = m / 2 ^ (k + 1 + 1) := by
      rw [Nat.div_div_eq_div_mul, ← Nat.pow_succ]
    -- What is cut off next is the round bit of before and what was cut off before it.
    have hsticky : (m / 2 ^ k % 2 != 0 || m % 2 ^ k != 0) = (m % 2 ^ (k + 1) != 0) := by
      have hpos : 0 < 2 ^ k := Nat.two_pow_pos k
      rw [Nat.mod_pow_succ, Bool.eq_iff_iff]
      simp only [bne_iff_ne, ne_eq, Bool.or_eq_true, Nat.add_eq_zero_iff, Nat.mul_eq_zero]
      omega
    rw [Nat.repeat, ih, ExtendedMantissa.shiftRightOne, hquotient, hsticky]

/-- What is moved out on the right decides how the rest is rounded. -/
theorem roundedMantissa_shiftRight (m k : Nat) :
    ((⟨m, false, false⟩ : ExtendedMantissa) >>> k).roundedMantissa = roundHalfEven m (2 ^ k) := by
  cases k with
  | zero =>
    have hwhole := roundHalfEven_mul m 1 Nat.one_pos
    rw [Nat.mul_one] at hwhole
    exact hwhole.symm
  | succ k =>
    have hpos : 0 < 2 ^ k := Nat.two_pow_pos k
    have hlt : m % 2 ^ k < 2 ^ k := Nat.mod_lt _ hpos
    have hmod : m % 2 ^ (k + 1) = m % 2 ^ k + 2 ^ k * (m / 2 ^ k % 2) := Nat.mod_pow_succ
    rw [shiftRight_succ, roundHalfEven, hmod, Nat.pow_succ]
    generalize m / (2 ^ k * 2) = q
    -- The round bit says whether half a unit was cut off, the other one whether more was.
    rcases Nat.mod_two_eq_zero_or_one (m / 2 ^ k) with hround | hround <;>
      rcases Nat.eq_zero_or_pos (m % 2 ^ k) with hsticky | hsticky <;>
      simp only [hround, hsticky, ExtendedMantissa.roundedMantissa]
    · simp [ExtendedMantissa.accuracy, Accuracy.roundToNearestEven]
    · have hne : (m % 2 ^ k != 0) = true := bne_iff_ne.2 (by omega)
      rw [hne, if_pos (by omega)]
      rfl
    · have hhalf : ¬ 2 * (0 + 2 ^ k * 1) < 2 ^ k * 2 ∧ ¬ 2 ^ k * 2 < 2 * (0 + 2 ^ k * 1) := by omega
      rw [if_neg hhalf.1, if_neg hhalf.2]
      change q + q % 2 = _
      split <;> omega
    · have hne : (m % 2 ^ k != 0) = true := bne_iff_ne.2 (by omega)
      rw [hne, if_neg (by omega), if_pos (by omega)]
      rfl

/-- The mantissa and the exponent of a double with all of its fifty-three bits. -/
structure IsNormal (m : Nat) (e : Int) : Prop where
  ge : 2 ^ 52 ≤ m
  lt : m < 2 ^ 53
  smallest : smallestExponent ≤ e
  greatest : e ≤ greatestExponent

theorem log2_eq_of_normal {m : Nat} (hge : 2 ^ 52 ≤ m) (hlt : m < 2 ^ 53) : m.log2 = 52 :=
  (Nat.log2_eq_iff (by omega)).2 ⟨hge, hlt⟩

theorem canonical_of_log2 {m : Nat} {e : Int} (hlog : m.log2 = 52) (h : smallestExponent ≤ e) :
    Canonical m e := by
  unfold smallestExponent at h
  rw [Canonical, Exact.targetExponent_eq, totalExponent, hlog]
  omega

theorem IsNormal.canonical {m : Nat} {e : Int} (h : IsNormal m e) : Canonical m e :=
  canonical_of_log2 (log2_eq_of_normal h.ge h.lt) h.smallest

/-- A number with all bits is packed and unpacked without a loss. -/
theorem IsNormal.unpack_pack {m : Nat} {e : Int} (h : IsNormal m e) (s : Sign) (hm : 0 < m) :
    UnpackedFloat.unpack Format.binary64
      (UnpackedFloat.pack Format.binary64 (.finite s m e hm)) = .finite s m e hm := by
  obtain ⟨hge, hlt, hsmallest, hgreatest⟩ := h
  unfold smallestExponent at hsmallest
  unfold greatestExponent at hgreatest
  have hbias : e + (Format.binary64.exponentBias : Int)
      + (Format.binary64.mantissaBitsWithoutImplicit : Int) = e + 1075 := by
    have hvalue : (Format.binary64.exponentBias : Int) = 1023 := by decide
    have hbits : (Format.binary64.mantissaBitsWithoutImplicit : Int) = 52 := rfl
    omega
  have hfits : ¬ 2 ^ Format.binary64.exponentBits ≤ (e + 1075).toNat + 1 := by
    have hpow : 2 ^ Format.binary64.exponentBits = 2048 := by decide
    omega
  have hall : m.log2 + 1 = Format.binary64.mantissaBits := by
    rw [log2_eq_of_normal hge hlt]
    rfl
  have hexponent : (BitVec.ofNat 11 (e + 1075).toNat).toNat = (e + 1075).toNat := by
    rw [BitVec.toNat_ofNat, Nat.mod_eq_of_lt (by omega)]
  have hfinite : BitVec.ofNat 11 (e + 1075).toNat ≠ -1#11 := by
    intro hones
    have hnat := congrArg BitVec.toNat hones
    have hvalue : (-1#11).toNat = 2047 := by decide
    omega
  have hnormal : BitVec.ofNat 11 (e + 1075).toNat ≠ 0#11 := by
    intro hzero
    have hnat := congrArg BitVec.toNat hzero
    have hvalue : (0#11).toNat = 0 := by decide
    omega
  -- The bit that is not written is the one that `m` has above its fraction.
  have hmantissa : (1#1 ++ BitVec.ofNat 52 m).toNat = m := by
    rw [Exact.toNat_hiddenBit_append, BitVec.toNat_ofNat, Exact.hiddenBit]
    omega
  simp only [UnpackedFloat.pack, hbias]
  rw [if_neg hfits, if_pos hall]
  simp only [UnpackedFloat.unpack, unpackExponent_packComponents, unpackMantissa_packComponents,
    unpackSign_packComponents, Sign.ofBitVec_toBitVec]
  rw [if_neg hfinite, if_neg hnormal]
  congr 1
  rw [hexponent]
  change ((e + 1075).toNat : Int) - 1075 = e
  omega

/-- Rounding does not pass a natural number. -/
theorem roundHalfEven_bounds {a b m den : Nat} (hden : 0 < den) (ha : a * den ≤ m)
    (hb : m ≤ b * den) : a ≤ roundHalfEven m den ∧ roundHalfEven m den ≤ b := by
  obtain ⟨hup, hdown⟩ := roundHalfEven_near m den hden
  generalize roundHalfEven m den = r at hup hdown ⊢
  constructor
  · by_contra hlt
    have hmul : (r + 1) * den ≤ a * den := Nat.mul_le_mul_right _ (by omega)
    rw [Nat.add_mul] at hmul
    omega
  · by_contra hlt
    have hmul : (b + 1) * den ≤ r * den := Nat.mul_le_mul_right _ (by omega)
    rw [Nat.add_mul] at hmul
    omega

/-- Rounding to fifty-three bits. The quotient by the unit of the last bit is rounded to a natural
number; if that has one bit more, it is a power of two, and the exponent goes up by one. -/
theorem roundWithAccuracy_normal (s : Sign) {m k : Nat} {e : Int} (hlog : m.log2 = 52 + k)
    (hsmallest : smallestExponent ≤ e + k) (hgreatest : e + k ≤ greatestExponent)
    (hcarry : e + k < greatestExponent ∨ roundHalfEven m (2 ^ k) < 2 ^ 53) :
    ∃ n x, ∃ hn : 0 < n, roundWithAccuracy Format.binary64 s m e .exact = .finite s n x hn ∧
      IsNormal n x ∧ (n : ℚ) * 2 ^ x = roundHalfEven m (2 ^ k) * 2 ^ (e + k) := by
  have hm : m ≠ 0 := by
    rintro rfl
    rw [Nat.log2_zero] at hlog
    omega
  have hpos : 0 < 2 ^ k := Nat.two_pow_pos k
  have hbounds := (Nat.log2_eq_iff hm).1 hlog
  have hsplit : 2 ^ (52 + k) = 2 ^ 52 * 2 ^ k ∧ 2 ^ (52 + k + 1) = 2 ^ 53 * 2 ^ k :=
    ⟨Nat.pow_add .., by rw [Nat.add_right_comm, Nat.pow_add]⟩
  rw [hsplit.1, hsplit.2] at hbounds
  -- the first shift
  have hfirst : shiftToTargetExponent Format.binary64 m e .exact
      = ((⟨m, false, false⟩ : ExtendedMantissa) >>> k, e + k) := by
    have htarget : Format.binary64.targetExponent (totalExponent m e) = e + k := by
      unfold smallestExponent at hsmallest
      rw [Exact.targetExponent_eq, totalExponent, hlog]
      push_cast
      omega
    have hamount : (e + k - e).toNat = k := by omega
    simp only [shiftToTargetExponent, shiftToExponent, htarget, hamount,
      ExtendedMantissa.ofMantissaAndAccuracy]
  have hrounded := roundedMantissa_shiftRight m k
  obtain ⟨hge, hle⟩ := roundHalfEven_bounds hpos hbounds.1 hbounds.2.le
  generalize roundHalfEven m (2 ^ k) = r at hrounded hge hle hcarry
  rcases Nat.lt_or_eq_of_le hle with hlt | heq
  · have hnormal : IsNormal r (e + k) := ⟨hge, hlt, hsmallest, hgreatest⟩
    have hsecond := shiftToTargetExponent_exact (by omega) hnormal.canonical 0
    rw [Nat.pow_zero, Nat.mul_one, Int.natCast_zero, Int.sub_zero] at hsecond
    refine ⟨r, e + k, by omega, ?_, hnormal, rfl⟩
    simp only [roundWithAccuracy, hfirst, hrounded, hsecond]
    rw [dif_neg (by omega)]
  · -- the carry
    have hnormal : IsNormal (2 ^ 52) (e + k + 1) :=
      ⟨by decide, by decide, by omega, by omega⟩
    have hsecond := shiftToTargetExponent_exact (by decide) hnormal.canonical 1
    rw [Nat.pow_one, Int.natCast_one, Int.add_sub_cancel] at hsecond
    have hdouble : r = 2 ^ 52 * 2 := heq
    refine ⟨2 ^ 52, e + k + 1, by decide, ?_, hnormal, ?_⟩
    · simp only [roundWithAccuracy, hfirst, hrounded, hdouble, hsecond]
      rw [dif_neg (by decide)]
    · rw [hdouble, zpow_add_one₀ two_ne_zero]
      push_cast
      ring

/-- A mantissa that is moved to the left stands for the same number with a smaller exponent. -/
theorem shiftLeft_value (m a : Nat) {e s : Int} (h : e - s = a) :
    ((m <<< a : Nat) : ℚ) * 2 ^ s = m * 2 ^ e := by
  rw [Nat.shiftLeft_eq, Nat.cast_mul, Nat.cast_pow, Nat.cast_ofNat, mul_assoc, ← zpow_natCast,
    ← zpow_add₀ two_ne_zero]
  congr 2
  omega

/-- Whole numbers of units next to a number: rounding moves by at most half a unit. -/
theorem roundHalfEven_near_units {m k : Nat} {e : Int} :
    2 * |(roundHalfEven m (2 ^ k) : ℚ) * 2 ^ (e + k) - m * 2 ^ e| ≤ 2 ^ (e + k) := by
  obtain ⟨hup, hdown⟩ := roundHalfEven_near m (2 ^ k) (Nat.two_pow_pos k)
  have hup' : 2 * (m : ℚ) ≤ 2 * (roundHalfEven m (2 ^ k) * 2 ^ k) + 2 ^ k := by exact_mod_cast hup
  have hdown' : 2 * ((roundHalfEven m (2 ^ k) : ℚ) * 2 ^ k) ≤ 2 * m + 2 ^ k := by
    exact_mod_cast hdown
  have hunit : (0 : ℚ) < 2 ^ e := by positivity
  have hshift : (2 : ℚ) ^ (e + k) = 2 ^ k * 2 ^ e := by
    rw [zpow_add₀ two_ne_zero, zpow_natCast, mul_comm]
  have hdifference : (roundHalfEven m (2 ^ k) : ℚ) * 2 ^ (e + k) - m * 2 ^ e
      = (roundHalfEven m (2 ^ k) * 2 ^ k - m) * 2 ^ e := by
    rw [hshift]
    ring
  rw [hdifference, abs_mul, abs_of_pos hunit, hshift, ← mul_assoc]
  refine mul_le_mul_of_nonneg_right ?_ hunit.le
  rw [← abs_two, ← abs_mul, abs_two, abs_le]
  constructor <;> linarith

/-- **What was computed is the exact result moved by at most half a unit of its last bit.** The
exponent `t` is that of the fifty-third bit of the exact result. -/
theorem round_eq {m : Nat} {e t : Int} (hm : 0 < m) (ht : (m.log2 : Int) + e = 52 + t)
    (hsmallest : smallestExponent ≤ t) (hgreatest : t ≤ greatestExponent)
    (hcarry : t < greatestExponent ∨ 2 * ((m : ℚ) * 2 ^ e) < (2 ^ 54 - 1) * 2 ^ t) :
    ∃ f, Exact.ofFloat? (.ofModel (.pack (UnpackedFloat.round Format.binary64 .positive m e)))
        = some f ∧
      ∃ r : Nat, f.value = r * 2 ^ t ∧ 2 * |(r : ℚ) * 2 ^ t - m * 2 ^ e| ≤ 2 ^ t := by
  -- The mantissa is moved to the left until it has at least fifty-three bits.
  obtain ⟨a, ha⟩ : ∃ a : Nat, (e - t).toNat = a := ⟨_, rfl⟩
  obtain ⟨k, hk⟩ : ∃ k : Nat, e - a + k = t := ⟨(t - (e - a)).toNat, by omega⟩
  have htarget : Format.binary64.targetExponent (totalExponent m e) = t := by
    unfold smallestExponent at hsmallest
    rw [Exact.targetExponent_eq, totalExponent]
    omega
  have hlog : (m <<< a).log2 = 52 + k := by
    rw [Nat.shiftLeft_eq, log2_mul_two_pow (Nat.ne_of_gt hm)]
    omega
  have hvalue : ((m <<< a : Nat) : ℚ) * 2 ^ (e - a) = m * 2 ^ e := shiftLeft_value m a (by omega)
  have hnear := roundHalfEven_near_units (m := m <<< a) (k := k) (e := e - a)
  rw [hk, hvalue] at hnear
  have hcarry' : e - a + k < greatestExponent ∨ roundHalfEven (m <<< a) (2 ^ k) < 2 ^ 53 := by
    rw [hk]
    refine hcarry.imp_right fun hsmall => ?_
    by_contra hlt
    have hbig : (2 : ℚ) ^ 53 ≤ roundHalfEven (m <<< a) (2 ^ k) := by exact_mod_cast Nat.not_lt.1 hlt
    have hunit : (0 : ℚ) < 2 ^ t := by positivity
    have hscaled := mul_le_mul_of_nonneg_right hbig hunit.le
    have habove := le_abs_self ((roundHalfEven (m <<< a) (2 ^ k) : ℚ) * 2 ^ t - m * 2 ^ e)
    linarith
  obtain ⟨n, x, hn, hround, hnormal, hsame⟩ :=
    roundWithAccuracy_normal .positive hlog (by omega) (by omega) hcarry'
  have hrounded : UnpackedFloat.round Format.binary64 .positive m e = .finite .positive n x hn := by
    simp only [UnpackedFloat.round, htarget, decreaseExponent, ha]
    exact hround
  obtain ⟨f, hf, hf'⟩ := ofFloat?_of_unpack (x := .ofModel (.pack (.finite .positive n x hn)))
    (hnormal.unpack_pack .positive hn)
  rw [hrounded]
  refine ⟨f, hf, roundHalfEven (m <<< a) (2 ^ k), ?_, hnear⟩
  rw [hf']
  change ((n : ℤ) : ℚ) * 2 ^ x = _
  rw [Int.cast_natCast, hsame, hk]

/-! ## Integers -/

/-- An integer of at most fifty-three bits, moved to the left until it has all of them. -/
theorem exists_isNormal {n : Nat} (hpos : 0 < n) (h : n < 2 ^ 53) :
    ∃ m e, ∃ hm : 0 < m, IsNormal m e ∧ (m : ℚ) * 2 ^ e = n ∧
      UnpackedFloat.ofNat Format.binary64 n = .finite .positive m e hm := by
  obtain ⟨a, ha⟩ : ∃ a : Nat, n.log2 + a = 52 := by
    have hlog : n.log2 < 53 := (Nat.log2_lt (Nat.ne_of_gt hpos)).2 h
    exact ⟨52 - n.log2, by omega⟩
  have hm : 0 < n * 2 ^ a := by positivity
  have hlog : (n * 2 ^ a).log2 = 52 := by rw [log2_mul_two_pow (Nat.ne_of_gt hpos), ha]
  have hbits := (Nat.log2_eq_iff (Nat.ne_of_gt hm)).1 hlog
  have hnormal : IsNormal (n * 2 ^ a) (-a) :=
    ⟨hbits.1, hbits.2, by unfold smallestExponent; omega, by unfold greatestExponent; omega⟩
  refine ⟨n * 2 ^ a, -a, hm, hnormal, ?_, ?_⟩
  · rw [Nat.cast_mul, Nat.cast_pow, Nat.cast_ofNat, zpow_neg, zpow_natCast]
    exact mul_inv_cancel_right₀ (by positivity) _
  -- Nothing is lost by moving the integer to the left, so rounding is exact.
  · have hcompare : compare (n : Int) 0 = .gt := by
      rw [compare_gt_iff_gt]
      omega
    have htarget : Format.binary64.targetExponent (totalExponent n 0) = -a := by
      rw [Exact.targetExponent_eq, totalExponent]
      omega
    have hshift : ((0 : Int) - -a).toNat = a := by omega
    have hrounded := roundWithAccuracy_exact hm hnormal.canonical 0 .positive
    rw [Nat.pow_zero, Nat.mul_one, Int.natCast_zero, Int.sub_zero] at hrounded
    simp only [UnpackedFloat.ofNat, UnpackedFloat.ofInt, UnpackedFloat.normalize, hcompare,
      UnpackedFloat.round, decreaseExponent, Int.toNat_natCast, htarget, hshift, Nat.shiftLeft_eq]
    rw [Int.zero_sub]
    exact hrounded

/-- A natural number of at most fifty-three bits is a double. -/
theorem unpack_ofNat {n : Nat} (hpos : 0 < n) (h : n < 2 ^ 53) :
    ∃ m e, ∃ hm : 0 < m, IsNormal m e ∧ (m : ℚ) * 2 ^ e = n ∧
      (Float.ofNat n).toModel.unpack = .finite .positive m e hm := by
  obtain ⟨m, e, hm, hnormal, hvalue, hunpacked⟩ := exists_isNormal hpos h
  refine ⟨m, e, hm, hnormal, hvalue, ?_⟩
  change (Float.ofScientific n false 0).toModel.unpack = _
  have hsmall : n < 2 ^ 53 ∧ 0 ≤ 22 := ⟨h, by decide⟩
  have hnat : n.toUInt64.toNat = n :=
    UInt64.toNat_ofNat_of_lt' (Nat.lt_trans h (by decide))
  rw [Float.ofScientific, dif_pos hsmall]
  -- The integer is taken as a double and multiplied by one, the power of ten without digits.
  have hone : (1 : Float).toModel.unpack = .finite .positive (2 ^ 52) (-52) (by decide) := rfl
  have hdouble : (Float.ofModel (.pack (UnpackedFloat.ofNat Format.binary64 n))).toModel.unpack
      = .finite .positive m e hm := by
    rw [hunpacked]
    exact hnormal.unpack_pack .positive hm
  change UnpackedFloat.unpack Format.binary64 (UnpackedFloat.pack Format.binary64
    (UnpackedFloat.mul Format.binary64
      (Float.ofModel (.pack (UnpackedFloat.ofNat Format.binary64 n.toUInt64.toNat))).toModel.unpack
      (1 : Float).toModel.unpack)) = _
  rw [hnat, hdouble, hone]
  have hproduct : UnpackedFloat.mul Format.binary64 (.finite .positive m e hm)
      (.finite .positive (2 ^ 52) (-52) (by decide)) = .finite .positive m e hm :=
    roundWithAccuracy_exact hm hnormal.canonical 52 .positive
  rw [hproduct]
  exact hnormal.unpack_pack .positive hm

/-- **An integer of at most fifty-three bits is exactly a double.** -/
theorem exactValue_ofInt {n : Int} (h : n.natAbs < 2 ^ 53) : exactValue (Float.ofInt n) = n := by
  rcases Int.lt_trichotomy n 0 with hneg | rfl | hpos
  · obtain ⟨k, rfl⟩ : ∃ k : Nat, n = Int.negSucc k := Int.eq_negSucc_of_lt_zero hneg
    obtain ⟨m, e, hm, hnormal, hvalue, hunpack⟩ := unpack_ofNat (Nat.succ_pos k) h
    have hopposite : (Float.ofInt (Int.negSucc k)).toModel.unpack = .finite .negative m e hm := by
      change UnpackedFloat.unpack Format.binary64 (UnpackedFloat.pack Format.binary64
        (Float.ofNat (k + 1)).toModel.unpack.neg) = _
      rw [hunpack]
      exact hnormal.unpack_pack .negative hm
    obtain ⟨f, hf, hf'⟩ := ofFloat?_of_unpack hopposite
    rw [exactValue_of_ofFloat? hf, hf', Int.cast_negSucc, ← hvalue]
    change ((-(m : Int) : Int) : ℚ) * 2 ^ e = _
    push_cast
    ring
  · have hzero : Exact.ofFloat? (Float.ofInt 0) = some ⟨false, 0, -1074⟩ := by decide +kernel
    rw [exactValue_of_ofFloat? hzero, Exact.value]
    norm_num
  · obtain ⟨k, rfl⟩ : ∃ k : Nat, n = k := ⟨n.toNat, by omega⟩
    rw [Int.natAbs_natCast] at h
    obtain ⟨m, e, hm, -, hvalue, hunpack⟩ := unpack_ofNat (by omega) h
    obtain ⟨f, hf, hf'⟩ := ofFloat?_of_unpack (x := Float.ofInt k) hunpack
    rw [exactValue_of_ofFloat? hf, hf', Int.cast_natCast, ← hvalue]
    rfl

end TurboBench.Decimal
