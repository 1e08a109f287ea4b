import TurboBench.Proofs.Decimal.RealReading

/-!
# Operations on doubles that stay finite

A number that was computed is rounded and packed, and it is packed as an infinity if and only if its
exponent is too large. So the question whether a result is finite is one about exponents:
`Below P b` are the zeros and the numbers with an exponent of at most `b` and a sign that satisfies
`P`. Rounding moves the exponent up by at most one (`below_round`), and packing a number below the
greatest exponent and unpacking it again leaves it below (`Below.unpack_pack`).

From this: the opposite of a double is finite, an integer of up to two hundred bits is near a finite
double, and so is the square root of a double that is not negative.
-/

set_option autoImplicit false

namespace TurboBench.Decimal

open Float.Model Float.Model.UnpackedFloat

/-- Zeros, and numbers with exponents of at most `b` and signs that satisfy `P`. -/
inductive Below (P : Sign → Prop) (b : Int) : UnpackedFloat → Prop where
  | zero (s : Sign) : Below P b (.zero s)
  | finite {s : Sign} {m : Nat} {e : Int} {hm : 0 < m} (hs : P s) (he : e ≤ b) :
      Below P b (.finite s m e hm)

/-- The greatest exponent of a double. -/
def greatestExponent : Int := 971

/-- The smallest exponent of a double. -/
def smallestExponent : Int := -1074

section Below

variable {P : Sign → Prop} {b : Int} {u : UnpackedFloat}

theorem Below.isFinite (h : Below P b u) : u.isFinite = true := by
  cases h <;> rfl

/-! ## Packing -/

/-- What is packed with an exponent below the greatest is finite when it is unpacked. -/
theorem unpack_packComponents (s : Sign) {exponent : BitVec 11} (mantissa : BitVec 52)
    (hexponent : exponent ≠ -1#11) (hs : P s) (hb : smallestExponent ≤ b)
    (hle : (exponent.toNat : Int) - 1075 ≤ b) :
    Below P b (UnpackedFloat.unpack Format.binary64
      (packComponents Format.binary64 s exponent mantissa)) := by
  simp only [UnpackedFloat.unpack, unpackExponent_packComponents, unpackMantissa_packComponents,
    unpackSign_packComponents, Sign.ofBitVec_toBitVec]
  rw [if_neg hexponent]
  by_cases hzero : exponent = 0#11
  · rw [if_pos hzero]
    split
    · exact .zero s
    · -- the numbers without a leading one
      subst hzero
      exact .finite hs hb
  · rw [if_neg hzero]
    exact .finite hs hle

/-- A number below the greatest exponent is packed as a number. -/
theorem Below.unpack_pack (h : Below P b u) (hb : smallestExponent ≤ b)
    (hle : b ≤ greatestExponent) :
    Below P b (UnpackedFloat.unpack Format.binary64 (u.pack Format.binary64)) := by
  unfold smallestExponent at hb
  unfold greatestExponent at hle
  cases h with
  | zero s =>
    have hzero : UnpackedFloat.unpack Format.binary64
        (UnpackedFloat.pack Format.binary64 (.zero s)) = .zero s := by
      cases s <;> rfl
    rw [hzero]
    exact .zero s
  | @finite s m e hm hs he =>
    -- The exponent is packed with a bias, and must not come out with all bits set, which would mark
    -- an infinity.
    have hbias : e + (Format.binary64.exponentBias : Int)
        + (Format.binary64.mantissaBitsWithoutImplicit : Int) = e + 1075 := by
      have hvalue : (Format.binary64.exponentBias : Int) = 1023 := by decide
      have hbits : (Format.binary64.mantissaBitsWithoutImplicit : Int) = 52 := rfl
      omega
    have hfits : ¬ 2 ^ Format.binary64.exponentBits ≤ (e + 1075).toNat + 1 := by
      have hpow : 2 ^ Format.binary64.exponentBits = 2048 := by decide
      omega
    simp only [UnpackedFloat.pack, hbias]
    rw [if_neg hfits]
    split
    · refine unpack_packComponents s _ ?_ hs hb ?_
      · intro hall
        have hnat := congrArg BitVec.toNat hall
        rw [BitVec.toNat_ofNat, Nat.mod_eq_of_lt (by omega)] at hnat
        have hones : (-1#11).toNat = 2047 := by decide
        omega
      · rw [BitVec.toNat_ofNat, Nat.mod_eq_of_lt (by omega)]
        omega
    · refine unpack_packComponents s _ (by decide) hs hb ?_
      have hnone : (0#11).toNat = 0 := by decide
      omega

theorem Below.toFloat (h : Below P b u) (hb : smallestExponent ≤ b) (hle : b ≤ greatestExponent) :
    Below P b (Float.ofModel (Float.Model.pack u)).toModel.unpack :=
  h.unpack_pack hb hle

end Below

/-- The size of what a double is unpacked to. -/
theorem size_of_unpack {x : Float} {s : Sign} {m : Nat} {e : Int} {hm : 0 < m}
    (h : x.toModel.unpack = .finite s m e hm) : m < 2 ^ 53 ∧ e ≤ greatestExponent := by
  have hfinite : x.isFinite = true := by
    change x.toModel.unpack.isFinite = true
    rw [h]
    rfl
  obtain ⟨exact, hexact⟩ := Option.isSome_iff_exists.1 (isSome_ofFloat? hfinite)
  have hformat := Exact.inFormat_of_ofBits? hexact
  have hunpack : x.toModel.unpack.abs = exact.magnitude := Exact.unpack_of_ofBits? hexact
  rw [h] at hunpack
  unfold Exact.magnitude at hunpack
  split at hunpack
  · injection hunpack with _ hm' he'
    rw [hm', he']
    exact ⟨hformat.mantissa_lt, hformat.exponent_le⟩
  · exact absurd hunpack (by simp [UnpackedFloat.abs])

/-- What a finite double is unpacked to. -/
theorem below_of_isFinite {x : Float} (h : x.isFinite = true) :
    Below (fun _ => True) greatestExponent x.toModel.unpack := by
  change x.toModel.unpack.isFinite = true at h
  cases hx : x.toModel.unpack with
  | zero s => exact .zero s
  | finite s m e hm => exact .finite True.intro (size_of_unpack hx).2
  | infinity s =>
    rw [hx] at h
    exact absurd h Bool.false_ne_true
  | notANumber =>
    rw [hx] at h
    exact absurd h Bool.false_ne_true

theorem isFinite_of_below {P : Sign → Prop} {b : Int} {x : Float} (h : Below P b x.toModel.unpack) :
    x.isFinite = true :=
  h.isFinite

/-! ## Opposites -/

theorem Below.neg {P : Sign → Prop} {b : Int} {u : UnpackedFloat} (h : Below P b u) :
    Below (fun _ => True) b u.neg := by
  cases h with
  | zero s => exact .zero (-s)
  | finite hs he => exact .finite True.intro he

theorem isFinite_neg {x : Float} (h : x.isFinite = true) : (-x).isFinite = true :=
  isFinite_of_below ((below_of_isFinite h).neg.toFloat (by decide) (by decide))

/-! ## Rounding -/

/-- Shifting to the right divides the significand. -/
theorem mantissa_shiftRight (em : ExtendedMantissa) (k : Nat) :
    (em >>> k).mantissa = em.mantissa / 2 ^ k := by
  change (Nat.repeat ExtendedMantissa.shiftRightOne k em).mantissa = _
  induction k with
  | zero => rw [Nat.repeat, Nat.pow_zero, Nat.div_one]
  | succ k ih =>
    rw [Nat.repeat, ExtendedMantissa.shiftRightOne, ih, Nat.div_div_eq_div_mul, Nat.pow_succ]

theorem mantissa_ofMantissaAndAccuracy (m : Nat) (a : Accuracy) :
    (ExtendedMantissa.ofMantissaAndAccuracy m a).mantissa = m := by
  unfold ExtendedMantissa.ofMantissaAndAccuracy
  split <;> rfl

theorem roundedMantissa_le (em : ExtendedMantissa) : em.roundedMantissa ≤ em.mantissa + 1 := by
  unfold ExtendedMantissa.roundedMantissa Accuracy.roundToNearestEven
  split <;> omega

/-- Moving a mantissa to the right moves the exponent up to the one aimed at. -/
theorem exponent_shiftToTargetExponent (m : Nat) (e : Int) (a : Accuracy) :
    (shiftToTargetExponent Format.binary64 m e a).2
      = max e (max (totalExponent m e - 53) smallestExponent) := by
  have hmin : Format.binary64.minExponent = smallestExponent := by decide
  have hbits : Format.binary64.mantissaBits = 53 := rfl
  simp only [shiftToTargetExponent, shiftToExponent, Format.targetExponent, hmin, hbits]
  omega

/-- A mantissa that is moved to the right has lost its lower digits, and rounding adds one. -/
theorem totalExponent_le {m n k : Nat} (e : Int) (h : n ≤ m / 2 ^ k + 1) :
    totalExponent n (e + k) ≤ max (totalExponent m e + 1) (e + k + 2) := by
  have hdigits : m < 2 ^ (m.log2 - k + 1) * 2 ^ k := by
    rw [← Nat.pow_add]
    exact Nat.lt_of_lt_of_le Nat.lt_log2_self
      (Nat.pow_le_pow_right (by decide) (by omega))
  have hshifted : m / 2 ^ k < 2 ^ (m.log2 - k + 1) :=
    (Nat.div_lt_iff_lt_mul (Nat.two_pow_pos k)).2 hdigits
  have hlog : n.log2 < m.log2 - k + 2 := by
    rcases Nat.eq_zero_or_pos n with rfl | hn
    · exact Nat.succ_pos _
    rw [Nat.log2_lt (Nat.ne_of_gt hn)]
    have hdouble : 2 ^ (m.log2 - k + 2) = 2 ^ (m.log2 - k + 1) * 2 := Nat.pow_succ ..
    have hpos : 0 < 2 ^ (m.log2 - k + 1) := Nat.two_pow_pos _
    omega
  unfold totalExponent
  omega

/-- Rounding raises the leading power by one at most. -/
theorem totalExponent_rounded (m : Nat) (e : Int) (a : Accuracy) :
    let first := shiftToTargetExponent Format.binary64 m e a
    totalExponent first.1.roundedMantissa first.2
      ≤ max (totalExponent m e + 1) (first.2 + 2) := by
  simp only [shiftToTargetExponent, shiftToExponent]
  refine totalExponent_le e ?_
  refine Nat.le_trans (roundedMantissa_le _) ?_
  rw [mantissa_shiftRight, mantissa_ofMantissaAndAccuracy]

/-- Rounding moves the exponent up by one at most. -/
theorem below_round {P : Sign → Prop} {b : Int} (s : Sign) {m : Nat} {e : Int} (a : Accuracy)
    (hs : P s) (he : e ≤ b) (htotal : totalExponent m e ≤ b + 52) (hb : smallestExponent ≤ b) :
    Below P b (roundWithAccuracy Format.binary64 s m e a) := by
  have hfirst := exponent_shiftToTargetExponent m e a
  have hsecond := totalExponent_rounded m e a
  simp only at hsecond
  simp only [roundWithAccuracy]
  generalize shiftToTargetExponent Format.binary64 m e a = first at hfirst hsecond
  have hlast := exponent_shiftToTargetExponent first.1.roundedMantissa first.2 .exact
  split
  · exact .zero s
  · refine .finite hs ?_
    omega

/-! ## Integers -/

/-- Shifting a significand and its exponent against each other leaves the leading power. -/
theorem totalExponent_shiftLeft {m : Nat} (hm : 0 < m) (k : Nat) (e : Int) :
    totalExponent (m <<< k) (e - k) = totalExponent m e := by
  have hlog : (m <<< k).log2 = m.log2 + k := by
    rw [Nat.shiftLeft_eq, Nat.log2_eq_iff (by positivity), Nat.add_right_comm, Nat.pow_add,
      Nat.pow_add]
    exact ⟨Nat.mul_le_mul_right _ (Nat.log2_self_le (Nat.ne_of_gt hm)),
      Nat.mul_lt_mul_of_pos_right Nat.lt_log2_self (Nat.two_pow_pos k)⟩
  unfold totalExponent
  omega

/-- A natural number as it is rounded. -/
theorem below_ofNat_unpacked {n k : Nat} (h : n < 2 ^ k) (hk : k ≤ 1000) :
    Below (· = .positive) k (UnpackedFloat.ofNat Format.binary64 n) := by
  rcases Nat.eq_zero_or_pos n with rfl | hn
  · exact .zero .positive
  have hcompare : compare (n : Int) 0 = .gt := by
    rw [compare_gt_iff_gt]
    omega
  have hlog : n.log2 < k := (Nat.log2_lt (Nat.ne_of_gt hn)).2 h
  simp only [UnpackedFloat.ofNat, UnpackedFloat.ofInt, UnpackedFloat.normalize, hcompare,
    UnpackedFloat.round, decreaseExponent, Int.toNat_natCast]
  generalize (0 - Format.binary64.targetExponent (totalExponent n 0)).toNat = shift
  refine below_round _ _ rfl (by omega) ?_ (by unfold smallestExponent; omega)
  rw [totalExponent_shiftLeft hn, totalExponent]
  omega

/-- A double times one. -/
theorem below_mul_one {x : Float} {b : Int} (h : Below (· = .positive) b x.toModel.unpack)
    (hb : b ≤ 900) : Below (· = .positive) greatestExponent (x * 1).toModel.unpack := by
  have hone : (1 : Float).toModel.unpack = .finite .positive (2 ^ 52) (-52) (by decide) := rfl
  have hproduct : Below (· = .positive) greatestExponent
      (UnpackedFloat.mul Format.binary64 x.toModel.unpack (1 : Float).toModel.unpack) := by
    rw [hone]
    -- The product of the mantissas is twice as long, and is rounded back to fifty-three bits.
    cases hx : x.toModel.unpack with
    | zero s => exact .zero _
    | finite s m e hm =>
      have hsize := (size_of_unpack hx).1
      rw [hx] at h
      cases h with
      | finite hs he =>
        have hlog : (m * 2 ^ 52).log2 < 105 :=
          (Nat.log2_lt (by positivity)).2 (by omega)
        unfold greatestExponent
        refine below_round _ _ (by rw [hs]; rfl) (by omega) ?_ (by decide)
        unfold totalExponent
        omega
    | infinity s =>
      rw [hx] at h
      exact nomatch h
    | notANumber =>
      rw [hx] at h
      exact nomatch h
  exact hproduct.toFloat (by decide) (by decide)

/-- A natural number of up to two hundred bits is near a double that is not negative. -/
theorem below_ofNat {n : Nat} (h : n < 2 ^ 200) :
    Below (· = .positive) greatestExponent (Float.ofNat n).toModel.unpack := by
  change Below _ _ (Float.ofScientific n false 0).toModel.unpack
  unfold Float.ofScientific
  split
  · -- exactly a double
    rename_i hsmall
    have hnat : n.toUInt64.toNat = n :=
      UInt64.toNat_ofNat_of_lt' (Nat.lt_trans hsmall.1 (by decide))
    have hrounded := (below_ofNat_unpacked hsmall.1 (by decide)).toFloat (by decide) (by decide)
    refine below_mul_one (b := 53) ?_ (by decide)
    change Below _ _ (Float.ofModel (Float.Model.pack
      (UnpackedFloat.ofNat Format.binary64 n.toUInt64.toNat))).toModel.unpack
    rw [hnat]
    exact hrounded
  · -- rounded
    change Below _ _ (Float.ofModel (Float.Model.pack
      (UnpackedFloat.ofScientific Format.binary64 n 0))).toModel.unpack
    refine Below.toFloat ?_ (by decide) (by decide)
    unfold UnpackedFloat.ofScientific
    split
    · exact .zero .positive
    · rename_i hn
      have hpos : 0 < n := Nat.pos_of_ne_zero hn
      have hlog : n.log2 < 200 := (Nat.log2_lt hn).2 h
      have hrange : (0 : Int) ≤ 2 ^ Format.binary64.exponentBits := by positivity
      rw [if_neg (by omega), if_neg (by omega), if_pos (by decide)]
      have hbits : (n <<< 53).log2 = n.log2 + 53 := by
        have htotal := totalExponent_shiftLeft hpos 53 0
        unfold totalExponent at htotal
        omega
      simp only [UnpackedFloat.mul, Int.toNat_zero, Nat.pow_zero, Nat.mul_one, Int.add_zero]
      refine below_round _ _ rfl (by decide) ?_ (by decide)
      have hmantissa : Format.binary64.mantissaBits = 53 := rfl
      rw [hmantissa, totalExponent, hbits, greatestExponent]
      omega

/-- An integer of up to two hundred bits is near a finite double. -/
theorem isFinite_ofInt {n : Int} (h : n.natAbs < 2 ^ 200) : (Float.ofInt n).isFinite = true := by
  cases n with
  | ofNat n => exact isFinite_of_below (below_ofNat h)
  | negSucc n => exact isFinite_neg (isFinite_of_below (below_ofNat h))

/-! ## Roots -/

/-- A double that is not less than zero is a zero or has a positive sign. -/
theorem below_of_not_lt_zero {x : Float} (h : x.isFinite = true) (hx : ¬ x < 0) :
    Below (· = .positive) greatestExponent x.toModel.unpack := by
  have hless : x < 0 ↔ x.toModel.unpack.lt (Float.toModel 0).unpack = true := by
    show decide _ = true ↔ _
    rw [decide_eq_true_iff]
    rfl
  have hzero : (Float.toModel 0).unpack = .zero .positive := rfl
  rw [hless, hzero] at hx
  have hbelow := below_of_isFinite h
  cases hu : x.toModel.unpack with
  | zero s => exact .zero s
  | finite s m e hm =>
    cases s with
    | positive => exact .finite rfl (size_of_unpack hu).2
    | negative =>
      rw [hu] at hx
      exact absurd rfl hx
  | infinity s =>
    rw [hu] at hbelow
    exact nomatch hbelow
  | notANumber =>
    rw [hu] at hbelow
    exact nomatch hbelow

/-- A square root has half the bits. -/
theorem log2_sqrt_le {n k : Nat} (h : n < 2 ^ k) : 2 * n.sqrt.log2 ≤ k := by
  rcases Nat.eq_zero_or_pos n.sqrt with hzero | hpos
  · rw [hzero]
    exact Nat.zero_le k
  have hself : 2 ^ n.sqrt.log2 ≤ n.sqrt := Nat.log2_self_le (Nat.ne_of_gt hpos)
  have hsquare : 2 ^ (2 * n.sqrt.log2) < 2 ^ k := calc
    2 ^ (2 * n.sqrt.log2) = 2 ^ n.sqrt.log2 * 2 ^ n.sqrt.log2 := by rw [Nat.two_mul, Nat.pow_add]
    _ ≤ n.sqrt * n.sqrt := Nat.mul_le_mul hself hself
    _ ≤ n := Nat.sqrt_le n
    _ < 2 ^ k := h
  exact Nat.le_of_lt ((Nat.pow_lt_pow_iff_right (by decide)).1 hsquare)

/-- The root of a number has about half its digits. -/
theorem size_sqrtCore {m : Nat} (hm : 0 < m) (e : Int) :
    let core := sqrtCore Format.binary64 m e
    core.2.1 ≤ e / 2 ∧ 2 * totalExponent core.1 core.2.1 ≤ totalExponent m e + 2 := by
  simp only [sqrtCore]
  have hhalf : e.ediv 2 = e / 2 := rfl
  generalize Format.binary64.targetExponent ((totalExponent m e + 1).ediv 2) = bound
  generalize ht : min (e.ediv 2) bound = target
  have hshift := totalExponent_shiftLeft hm (e - 2 * target).toNat e
  have hroot := log2_sqrt_le (Nat.lt_log2_self (n := m <<< (e - 2 * target).toNat))
  unfold totalExponent at *
  omega

/-- The square root of a positive finite double is finite, since it is nearer to one. -/
theorem isFinite_sqrt {x : Float} (h : Below (· = .positive) greatestExponent x.toModel.unpack) :
    x.sqrt.isFinite = true := by
  have hroot : Below (· = .positive) greatestExponent
      (UnpackedFloat.sqrt Format.binary64 x.toModel.unpack) := by
    -- Only a number has a root to be computed; it has about half of the exponent.
    cases hu : x.toModel.unpack with
    | zero s => exact .zero s
    | finite s m e hm =>
      obtain ⟨hm', he'⟩ := size_of_unpack hu
      rw [hu] at h
      cases h with
      | finite hs he =>
        subst hs
        obtain ⟨hexponent, htotal⟩ := size_sqrtCore hm e
        have hlog : m.log2 < 53 := (Nat.log2_lt (Nat.ne_of_gt hm)).2 hm'
        have hsize : totalExponent m e = m.log2 + 1 + e := rfl
        change Below _ _ (roundWithAccuracy Format.binary64 .positive
          (sqrtCore Format.binary64 m e).1 (sqrtCore Format.binary64 m e).2.1
          (sqrtCore Format.binary64 m e).2.2)
        unfold greatestExponent at he' ⊢
        exact below_round _ _ rfl (by omega) (by omega) (by decide)
    | infinity s =>
      rw [hu] at h
      exact nomatch h
    | notANumber =>
      rw [hu] at h
      exact nomatch h
  exact isFinite_of_below (hroot.toFloat (by decide) (by decide))

end TurboBench.Decimal
