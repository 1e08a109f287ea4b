import Mathlib
import TurboBench.Proofs.Decimal.ExactNumeral
import TurboBench.Proofs.Decimal.ExactQuotient

/-!
# Reading doubles that are written in full

The numeral of a finite double is read as its magnitude (`toFloat_exactNumeral`), and the sign bit
gives the double back from its magnitude (`signed_abs`).

The text is the quotient of a natural number by a power of ten. Reading it divides, and the quotient
is a double, so nothing is rounded. What has to be checked besides is that no shortcut of the
reading is taken: the numeral is neither too large nor too small for it, and a coefficient of a
number that is not zero is never small enough for the division to be carried out on doubles.
-/

set_option autoImplicit false

namespace TurboBench.Decimal

open Float.Model Float.Model.UnpackedFloat

/-! ## The fields of a double -/

namespace Exact

/-- What the exact value of a double satisfies: the mantissa has at most fifty-three bits, and all
of them unless the exponent is the smallest one. -/
structure InFormat (e : Exact) : Prop where
  mantissa_lt : e.mantissa < 2 ^ 53
  exponent_ge : -1074 ≤ e.exponent
  exponent_le : e.exponent ≤ 971
  normal : e.exponent = -1074 ∨ 2 ^ 52 ≤ e.mantissa

/-- What is read off the bits of a double is of its format. -/
theorem inFormat_of_ofBits? {bits : UInt64} {e : Exact} (h : ofBits? bits = some e) :
    e.InFormat := by
  unfold ofBits? hiddenBit at h
  simp only [beq_iff_eq] at h
  split at h
  · exact absurd h nofun
  · split at h
    · -- a subnormal number, with the smallest exponent there is
      obtain rfl := Option.some.inj h
      exact ⟨by simp only; omega, by simp, by simp, .inl rfl⟩
    · -- a normal number: the hidden bit is the fifty-third
      obtain rfl := Option.some.inj h
      refine ⟨?_, ?_, ?_, .inr ?_⟩ <;> simp only <;> omega

theorem targetExponent_eq (t : Int) : Format.binary64.targetExponent t = max (t - 53) (-1074) :=
  rfl

/-- A significand of the format that is not zero is canonical with its exponent. -/
theorem InFormat.canonical {e : Exact} (h : e.InFormat) (hm : 0 < e.mantissa) :
    Canonical e.mantissa e.exponent := by
  obtain ⟨hlt, hge, hle, hnormal⟩ := h
  have hlog : e.mantissa.log2 < 53 := (Nat.log2_lt (Nat.ne_of_gt hm)).2 hlt
  rw [Canonical, targetExponent_eq, totalExponent]
  rcases hnormal with hsmall | hbig
  · omega
  · have hlog' : 52 ≤ e.mantissa.log2 := (Nat.le_log2 (Nat.ne_of_gt hm)).2 hbig
    omega

/-- The magnitude as it is unpacked. -/
def magnitude (e : Exact) : UnpackedFloat :=
  if h : 0 < e.mantissa then .finite .positive e.mantissa e.exponent h else .zero .positive

theorem magnitude_of_pos {s : Bool} {m : Nat} {e : Int} (hm : 0 < m) :
    magnitude ⟨s, m, e⟩ = .finite .positive m e hm :=
  dif_pos hm

theorem toNat_unpackMantissa (bits : UInt64) :
    (@unpackMantissa Format.binary64 bits.toBitVec).toNat = bits.toNat % hiddenBit := by
  rw [unpackMantissa_def, BitVec.extractLsb'_toNat]
  rfl

theorem toNat_unpackExponent (bits : UInt64) :
    (@unpackExponent Format.binary64 bits.toBitVec).toNat
      = bits.toNat / hiddenBit % 0x800 := by
  rw [unpackExponent_def, BitVec.extractLsb'_toNat, Nat.shiftRight_eq_div_pow]
  rfl

/-- The first bit that the format does not write, put before the fraction. -/
theorem toNat_hiddenBit_append (v : BitVec 52) : (1#1 ++ v).toNat = v.toNat + hiddenBit := by
  have hor := Nat.two_pow_add_eq_or_of_lt v.isLt 1
  rw [BitVec.toNat_append, Nat.add_comm, hiddenBit]
  exact hor.symm

/-- The two ways of taking a finite double apart agree. -/
theorem unpack_of_ofBits? {bits : UInt64} {e : Exact} (h : ofBits? bits = some e) :
    (UnpackedFloat.unpack Format.binary64 bits.toBitVec).abs = e.magnitude := by
  have hfraction := toNat_unpackMantissa bits
  have hexponent := toNat_unpackExponent bits
  unfold ofBits? at h
  simp only [beq_iff_eq] at h
  unfold UnpackedFloat.unpack
  extract_lets mantissaVec exponentVec exponent signVec sign
  have hexp : exponent = (bits.toNat / hiddenBit % 0x800 : Nat) - (1075 : Int) := by
    rw [← hexponent]
    rfl
  split at h
  · exact absurd h nofun
  · rename_i hmax
    have hfinite : exponentVec ≠ -1#_ := by
      intro heq
      refine hmax (hexponent.symm.trans ?_)
      exact congrArg BitVec.toNat heq
    rw [if_neg hfinite]
    split at h
    · -- Without an exponent the fraction is all of the mantissa, and may be zero.
      rename_i hzero
      have hsmall : exponentVec = 0#_ := BitVec.eq_of_toNat_eq (hexponent.trans hzero)
      obtain rfl := Option.some.inj h
      have hexp' : exponent + 1 = -1074 := by
        rw [hexp, hzero]
        rfl
      rw [if_pos hsmall]
      split
      · rename_i hnone
        have hnone' : bits.toNat % hiddenBit = 0 :=
          hfraction.symm.trans (congrArg BitVec.toNat hnone)
        rw [hnone']
        rfl
      · rename_i hsome
        have hpos : 0 < bits.toNat % hiddenBit := by
          refine Nat.pos_of_ne_zero fun hnone => hsome ?_
          exact BitVec.eq_of_toNat_eq (hfraction.trans hnone)
        rw [magnitude_of_pos hpos]
        simp only [UnpackedFloat.abs, hexp', mantissaVec, hfraction]
    · -- With one the mantissa has the hidden bit, so it is not zero.
      rename_i hzero
      have hnormal : exponentVec ≠ 0#_ := by
        intro heq
        exact hzero (hexponent.symm.trans (congrArg BitVec.toNat heq))
      obtain rfl := Option.some.inj h
      have hpos : 0 < bits.toNat % hiddenBit + hiddenBit := Nat.add_pos_right _ (by decide)
      rw [if_neg hnormal, magnitude_of_pos hpos]
      simp only [UnpackedFloat.abs, hexp, mantissaVec, toNat_hiddenBit_append, hfraction]

/-- Bits without an exact value are those of no finite double. -/
theorem isFinite_unpack_of_ofBits? {bits : UInt64} (h : ofBits? bits = none) :
    (UnpackedFloat.unpack Format.binary64 bits.toBitVec).isFinite = false := by
  have hexponent := toNat_unpackExponent bits
  have hmax : bits.toNat / hiddenBit % 0x800 = 0x7FF := by
    unfold ofBits? at h
    simp only [beq_iff_eq] at h
    split at h
    · assumption
    · split at h <;> exact absurd h nofun
  have hinfinite : @unpackExponent Format.binary64 bits.toBitVec = -1#_ :=
    BitVec.eq_of_toNat_eq (hexponent.trans hmax)
  unfold UnpackedFloat.unpack
  extract_lets mantissaVec exponentVec exponent signVec sign
  rw [if_pos hinfinite]
  split <;> rfl

end Exact

/-- A finite double has an exact value. -/
theorem isSome_ofFloat? {x : Float} (h : x.isFinite = true) : (Exact.ofFloat? x).isSome := by
  have hfinite : (UnpackedFloat.unpack Format.binary64 x.toBits.toBitVec).isFinite = true := h
  cases hx : Exact.ofFloat? x with
  | some e => rfl
  | none =>
    rw [Exact.isFinite_unpack_of_ofBits? hx] at hfinite
    exact absurd hfinite Bool.false_ne_true

/-! ## Reading -/

/-- Powers of two against powers of ten: ninety-three bits are less than twenty-eight digits, and
three bits less than one. -/
theorem two_pow_le_ten_pow {k n q s : Nat} (hk : k ≤ 93 * q + 3 * s) (hn : 28 * q + s ≤ n) :
    2 ^ k ≤ 10 ^ n := by
  calc
    2 ^ k ≤ 2 ^ (93 * q + 3 * s) := Nat.pow_le_pow_right (by decide) hk
    _ = (2 ^ 93) ^ q * (2 ^ 3) ^ s := by rw [Nat.pow_add, Nat.pow_mul, Nat.pow_mul]
    _ ≤ (10 ^ 28) ^ q * 10 ^ s :=
      Nat.mul_le_mul (Nat.pow_le_pow_left (by decide) q) (Nat.pow_le_pow_left (by decide) s)
    _ = 10 ^ (28 * q + s) := by rw [Nat.pow_add, Nat.pow_mul]
    _ ≤ 10 ^ n := Nat.pow_le_pow_right (by decide) hn

namespace Exact

variable {e : Exact}

/-- The coefficient of the numeral is a quotient by a power of ten, and nothing is cut off. -/
theorem isQuotient (e : Exact) :
    IsQuotient e.coefficient (10 ^ e.places) e.mantissa e.exponent := by
  have hplaces : (-e.exponent).toNat ≤ e.places := Nat.le_max_right _ _
  -- There are as many places as factors of two in the denominator, and each brings one.
  have hdvd : e.den ∣ e.num * Nat.pow 10 e.places := by
    have htwo : (2 : Nat) ^ (-e.exponent).toNat ∣ 10 ^ e.places :=
      (Nat.pow_dvd_pow 2 hplaces).trans (pow_dvd_pow_of_dvd (by decide) _)
    exact htwo.trans (Nat.dvd_mul_left _ _)
  exact Nat.div_mul_cancel hdvd

/-- The decimal coefficient of a value that is not zero is positive. -/
theorem coefficient_pos (hm : 0 < e.mantissa) : 0 < e.coefficient := by
  refine Nat.pos_of_ne_zero fun hzero => ?_
  have hquotient := e.isQuotient
  rw [hzero, IsQuotient, Nat.zero_mul] at hquotient
  have hpos : 0 < e.mantissa * 2 ^ e.exponent.toNat * 10 ^ e.places := by positivity
  omega

theorem places_pos (e : Exact) : 0 < e.places :=
  Nat.pos_of_ne_zero e.places_ne_zero

theorem InFormat.places_le (h : e.InFormat) : e.places ≤ 1074 := by
  have := h.exponent_ge
  unfold places
  omega

theorem le_coefficient (hm : 0 < e.mantissa) :
    10 ^ e.places ≤ e.coefficient * 2 ^ (-e.exponent).toNat := by
  rw [show e.coefficient * _ = _ from e.isQuotient]
  exact Nat.le_mul_of_pos_left _ (by positivity)

/-- The numeral is large enough for its size to be no shortcut. -/
theorem InFormat.size_ge (h : e.InFormat) (hm : 0 < e.mantissa) :
    (-330 : Int) ≤ (Nat.toDigits 10 e.coefficient).length - e.places := by
  -- Otherwise the coefficient would be too small for a mantissa of one with the smallest exponent.
  by_contra hlt
  have hlength : (Nat.toDigits 10 e.coefficient).length ≤ e.places - 331 := by omega
  have hlong : 331 < e.places := by
    have := Nat.length_toDigits_pos (b := 10) (n := e.coefficient)
    omega
  have hcoefficient := (Nat.length_toDigits_le_iff (by decide) (by omega)).1 hlength
  have hexponent : (-e.exponent).toNat ≤ 1074 := by
    have := h.exponent_ge
    omega
  have hsplit : 10 ^ e.places = 10 ^ (e.places - 331) * 10 ^ 331 := by
    rw [← Nat.pow_add]
    congr 1
    omega
  have hpow : 2 ^ (-e.exponent).toNat ≤ 10 ^ 331 :=
    two_pow_le_ten_pow (q := 11) (s := 17) (by omega) (by omega)
  have hle := le_coefficient hm
  refine absurd hle (Nat.not_le.2 ?_)
  calc
    e.coefficient * 2 ^ (-e.exponent).toNat ≤ e.coefficient * 10 ^ 331 :=
      Nat.mul_le_mul_left _ hpow
    _ < 10 ^ (e.places - 331) * 10 ^ 331 := Nat.mul_lt_mul_of_pos_right hcoefficient (by positivity)
    _ = 10 ^ e.places := hsplit.symm

/-- The numeral is small enough for its size to be no shortcut. -/
theorem InFormat.size_le (h : e.InFormat) :
    ((Nat.toDigits 10 e.coefficient).length - e.places : Int) ≤ 311 := by
  have hexponent : e.exponent.toNat ≤ 971 := by
    have := h.exponent_le
    omega
  have hmagnitude : e.mantissa * 2 ^ e.exponent.toNat < 10 ^ 311 := by
    calc
      e.mantissa * 2 ^ e.exponent.toNat < 2 ^ 53 * 2 ^ e.exponent.toNat :=
        Nat.mul_lt_mul_of_pos_right h.mantissa_lt (by positivity)
      _ = 2 ^ (53 + e.exponent.toNat) := (Nat.pow_add 2 53 _).symm
      _ ≤ 10 ^ 311 := two_pow_le_ten_pow (q := 11) (s := 1) (by omega) (by omega)
  have hcoefficient : e.coefficient < 10 ^ (311 + e.places) := by
    calc
      e.coefficient ≤ e.coefficient * 2 ^ (-e.exponent).toNat :=
        Nat.le_mul_of_pos_right _ (by positivity)
      _ = e.mantissa * 2 ^ e.exponent.toNat * 10 ^ e.places := e.isQuotient
      _ < 10 ^ 311 * 10 ^ e.places := Nat.mul_lt_mul_of_pos_right hmagnitude (by positivity)
      _ = 10 ^ (311 + e.places) := (pow_add 10 311 _).symm
  have := (Nat.length_toDigits_le_iff (by decide) (by omega)).2 hcoefficient
  omega

/-- The coefficient is too large for a division of doubles. -/
theorem InFormat.coefficient_ge (h : e.InFormat) :
    ¬ (e.coefficient < 2 ^ 53 ∧ e.places ≤ 22) := by
  rintro ⟨hlt, hplaces⟩
  -- With so few places the number is not subnormal, and its mantissa has all of its bits.
  have hexponent : (-e.exponent).toNat ≤ e.places := Nat.le_max_right _ _
  have hmantissa : 2 ^ 52 ≤ e.mantissa := by
    rcases h.normal with hsmall | hbig
    · omega
    · exact hbig
  have hpow : 5 * 2 ^ e.places ≤ 10 ^ e.places := by
    calc
      5 * 2 ^ e.places ≤ 5 ^ e.places * 2 ^ e.places :=
        Nat.mul_le_mul_right _ (Nat.le_self_pow (Nat.ne_of_gt e.places_pos) 5)
      _ = 10 ^ e.places := (Nat.mul_pow 5 2 _).symm
  -- One place gives the coefficient a factor of five more than the denominator takes away.
  have hbig : 2 ^ 53 * 2 ^ (-e.exponent).toNat
      ≤ e.coefficient * 2 ^ (-e.exponent).toNat := by
    calc
      2 ^ 53 * 2 ^ (-e.exponent).toNat ≤ 2 ^ 53 * 2 ^ e.places := by gcongr; decide
      _ ≤ 2 ^ 52 * 1 * (5 * 2 ^ e.places) := by omega
      _ ≤ e.mantissa * 2 ^ e.exponent.toNat * 10 ^ e.places := by
        gcongr
        exact Nat.one_le_two_pow
      _ = e.coefficient * 2 ^ (-e.exponent).toNat := e.isQuotient.symm
  have hle := Nat.le_of_mul_le_mul_right hbig (by positivity)
  omega

/-- The exact decimal of a value is read as that value. -/
theorem ofScientific_coefficient (h : e.InFormat) (hm : 0 < e.mantissa) :
    UnpackedFloat.ofScientific Format.binary64 e.coefficient (-(e.places : Int))
      = .finite .positive e.mantissa e.exponent hm := by
  have hc := coefficient_pos hm
  have hplaces := e.places_pos
  have hle := h.places_le
  have hback : (- -(e.places : Int)).toNat = e.places := by omega
  have hbig : ¬ (-(e.places : Int) > 2 ^ Format.binary64.exponentBits) := by
    have : (0 : Int) < 2 ^ Format.binary64.exponentBits := by decide
    omega
  have hsmall : ¬ (-(e.places : Int)
      < -((2 ^ Format.binary64.exponentBits : Int) + e.coefficient.log2)) := by
    have : (2 : Int) ^ Format.binary64.exponentBits = 2048 := by decide
    omega
  -- None of the special cases applies, and what is left is the division.
  rw [UnpackedFloat.ofScientific, dif_neg (Nat.ne_of_gt hc), if_neg hbig, if_neg hsmall,
    if_neg (by omega)]
  simp only [hback]
  exact div_exact e.isQuotient hc _ hm (h.canonical hm)

/-- The numeral of a double is read as its magnitude. -/
theorem InFormat.toFloat (h : e.InFormat) :
    Numeral.toFloat ⟨e.coefficient, -e.places⟩ = .ofModel (Float.Model.pack e.magnitude) := by
  by_cases hm : 0 < e.mantissa
  · -- The three shortcuts of the reading are ruled out one by one.
    have hnot : ¬ (e.coefficient = 0
        ∨ ((Nat.toDigits 10 e.coefficient).length : Int) + -(e.places : Int) < -330) := by
      have hc := coefficient_pos hm
      have hsize := h.size_ge hm
      omega
    have hsize : ¬ (311 < ((Nat.toDigits 10 e.coefficient).length : Int) + -(e.places : Int)) := by
      have := h.size_le
      omega
    have hneg : decide (-(e.places : Int) < 0) = true := by
      have := e.places_pos
      simp only [decide_eq_true_eq]
      omega
    simp only [Numeral.toFloat]
    rw [if_neg hnot, if_neg hsize, hneg, Int.natAbs_neg, Int.natAbs_natCast, Float.ofScientific,
      dif_neg h.coefficient_ge, magnitude, dif_pos hm]
    simp only [if_true, Int.negOfNat_eq, Int.ofNat_eq_natCast, Float.Model.ofScientific,
      ofScientific_coefficient h hm]
  · have hzero : e.coefficient = 0 := by
      have hm' : e.mantissa = 0 := by omega
      rw [coefficient, num, hm', Nat.zero_mul, Nat.zero_mul, Nat.zero_div]
    simp only [Numeral.toFloat]
    rw [if_pos (.inl hzero), magnitude, dif_neg hm]
    rfl

end Exact

/-- **A double that is written in full is read as its magnitude.** -/
theorem toFloat_exactNumeral {x : Float} (h : x.isFinite = true) :
    (Numeral.ofText (exactNumeral x).toList).toFloat = x.abs := by
  obtain ⟨e, he⟩ := Option.isSome_iff_exists.1 (isSome_ofFloat? h)
  rw [ofText_exactNumeral he, (Exact.inFormat_of_ofBits? he).toFloat,
    ← Exact.unpack_of_ofBits? he]
  rfl

/-! ## Signs -/

section Signs

variable {spec : Format}

/-- Taking the magnitude clears the sign bit and keeps the others. -/
theorem pack_abs (u : UnpackedFloat) :
    u.abs.pack spec
      = packComponents spec .positive (unpackExponent (u.pack spec)) (unpackMantissa (u.pack spec))
    := by
  cases u with
  | infinity s => simp [UnpackedFloat.abs, UnpackedFloat.pack, packedInfinity]
  | notANumber => simp [UnpackedFloat.abs, UnpackedFloat.pack, packedNaN]
  | zero s => simp [UnpackedFloat.abs, UnpackedFloat.pack, packedZero]
  | finite s m e hm =>
    simp only [UnpackedFloat.abs, UnpackedFloat.pack]
    split
    · simp [packedInfinity]
    · split <;> simp

/-- Bits with the sign cleared are those of the magnitude. -/
theorem unpack_positive (b : BitVec spec.numBits) :
    UnpackedFloat.unpack spec (packComponents spec .positive (unpackExponent b) (unpackMantissa b))
      = (UnpackedFloat.unpack spec b).abs := by
  simp only [UnpackedFloat.unpack, unpackExponent_packComponents, unpackMantissa_packComponents,
    unpackSign_packComponents, Sign.ofBitVec_toBitVec]
  split
  · split <;> rfl
  · split
    · split <;> rfl
    · rfl

theorem unpack_pack_abs {b : BitVec spec.numBits} (hvalid : spec.Valid b)
    (hspec : 2 ≤ spec.exponentBits) :
    UnpackedFloat.unpack spec ((UnpackedFloat.unpack spec b).abs.pack spec)
      = (UnpackedFloat.unpack spec b).abs := by
  rw [pack_abs, pack_unpack_of_valid hvalid hspec, unpack_positive]

/-- With the sign bit clear, a double is its own magnitude. -/
theorem abs_unpack {b : BitVec spec.numBits} (h : unpackSign b = 0#1) :
    (UnpackedFloat.unpack spec b).abs = UnpackedFloat.unpack spec b := by
  simp only [UnpackedFloat.unpack, h]
  split
  · split <;> rfl
  · split
    · split <;> rfl
    · rfl

/-- With the sign bit set, a double is the negative of its magnitude. -/
theorem neg_abs_unpack {b : BitVec spec.numBits} (h : unpackSign b = 1#1) :
    (UnpackedFloat.unpack spec b).abs.neg = UnpackedFloat.unpack spec b := by
  simp only [UnpackedFloat.unpack, h]
  split
  · split <;> rfl
  · split
    · split <;> rfl
    · rfl

end Signs

/-- The sign bit of a double is that of its bits. -/
theorem unpackSign_toBits (x : Float) :
    @unpackSign Format.binary64 x.toBits.toBitVec = if signBit x then 1#1 else 0#1 := by
  have hlt := x.toBits.toNat_lt
  refine BitVec.eq_of_toNat_eq ?_
  -- The highest of the sixty-four bits is set from half of their range on.
  rw [unpackSign_def, BitVec.extractLsb'_toNat, Nat.shiftRight_eq_div_pow]
  change x.toBits.toNat / 2 ^ 63 % 2 ^ 1 = _
  unfold signBit
  split
  · rename_i h
    have := of_decide_eq_true h
    simp only [BitVec.toNat_ofNat]
    omega
  · rename_i h
    have := of_decide_eq_false (Bool.eq_false_iff.2 h)
    simp only [BitVec.toNat_ofNat]
    omega

theorem unpack_abs (x : Float) : x.abs.toModel.unpack = x.toModel.unpack.abs :=
  unpack_pack_abs x.toModel.valid (by decide)

/-- The magnitude of a finite double is finite. -/
theorem isFinite_abs {x : Float} (h : x.isFinite = true) : x.abs.isFinite = true := by
  change x.toModel.unpack.isFinite = true at h
  change x.abs.toModel.unpack.isFinite = true
  rw [unpack_abs]
  cases hx : x.toModel.unpack <;> rw [hx] at h
  · exact h
  · exact h
  · rfl
  · rfl

theorem pack_unpack (x : Float) : .ofModel (Float.Model.pack x.toModel.unpack) = x := by
  refine Float.toBits_inj.1 (UInt64.toBitVec_inj.1 ?_)
  exact pack_unpack_of_valid x.toModel.valid

/-- A double is its magnitude with its sign. -/
theorem signed_abs (x : Float) : (if signBit x then -x.abs else x.abs) = x := by
  have hsign := unpackSign_toBits x
  split
  · rename_i h
    rw [if_pos h] at hsign
    have hneg : x.abs.toModel.unpack.neg = x.toModel.unpack := by
      rw [unpack_abs]
      exact neg_abs_unpack hsign
    change Float.ofModel (Float.Model.pack x.abs.toModel.unpack.neg) = x
    rw [hneg, pack_unpack]
  · rename_i h
    rw [if_neg h] at hsign
    have habs : x.toModel.unpack.abs = x.toModel.unpack := abs_unpack hsign
    change Float.ofModel (Float.Model.pack x.toModel.unpack.abs) = x
    rw [habs, pack_unpack]

end TurboBench.Decimal
