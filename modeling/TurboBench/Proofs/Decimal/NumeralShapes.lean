import TurboBench.Proofs.Decimal.ExactValue

/-!
# The shapes of decimal numerals

What the two notations for doubles look like, and which number stands in them.

A numeral with a fixed number of places is the whole part, without superfluous zeros, and as many
digits as there are places (`isFixedPoint_withPoint`); the number is the one nearest to the double
among those with that many places (`roundHalfEven_near_quotient`). In scientific notation the
significand has one digit in front of the point. That rests on `leadingPower_bounds`: the power of
ten is taken so that the quotient of the magnitude by it is at least one and below ten. Rounding can
reach ten, and then the carry moves the point (`isRounded_significand`).

A double is below zero if it has a minus sign and is not a zero (`lt_zero_iff`).
-/

set_option autoImplicit false

namespace TurboBench.Decimal

/-! ## Fixed places -/

/-- The text of `n` units of the last one of so many places: the numeral of the whole part, and
behind a point the digits of the rest. Without places there is no point either. -/
def IsFixedPoint (places n : Nat) (cs : List Char) : Prop :=
  ∃ fraction : List Char,
    cs = Nat.toDigits 10 (n / 10 ^ places) ++ (if places = 0 then [] else '.' :: fraction)
      ∧ fraction.length = places ∧ (∀ c ∈ fraction, c.isDigit = true)
      ∧ natOfDigits fraction = n % 10 ^ places

/-- The digit of the units stands at the end, whatever the number is filled up with. -/
theorem digits_concat (width n : Nat) :
    digits (width + 2) n = digits (width + 1) (n / 10) ++ [Nat.digitChar (n % 10)] := by
  by_cases h : 10 ≤ n
  · have hzeros : width + 2 - ((Nat.toDigits 10 (n / 10)).length + 1)
        = width + 1 - (Nat.toDigits 10 (n / 10)).length := by omega
    rw [digits, Nat.toDigits_of_base_le (by decide) h, List.length_append, List.length_singleton,
      hzeros, ← List.append_assoc]
    rfl
  · have hlt : n < 10 := Nat.not_le.1 h
    rw [digits, Nat.toDigits_of_lt_base hlt, Nat.div_eq_of_lt hlt, Nat.mod_eq_of_lt hlt, digits,
      Nat.toDigits_zero]
    change List.replicate (width + 1) '0' ++ _ = List.replicate width '0' ++ ['0'] ++ _
    rw [List.replicate_succ']

/-- The digits in front of the last so many are those of the whole part. -/
theorem exists_digits_eq (places n : Nat) :
    ∃ fraction, digits (places + 1) n = Nat.toDigits 10 (n / 10 ^ places) ++ fraction
      ∧ fraction.length = places := by
  induction places generalizing n with
  | zero =>
    have hlen : 1 - (Nat.toDigits 10 n).length = 0 := Nat.sub_eq_zero_of_le Nat.length_toDigits_pos
    refine ⟨[], ?_, rfl⟩
    rw [digits, hlen, Nat.pow_zero, Nat.div_one, List.append_nil]
    rfl
  | succ places ih =>
    obtain ⟨fraction, heq, hlen⟩ := ih (n / 10)
    refine ⟨fraction ++ [Nat.digitChar (n % 10)], ?_, ?_⟩
    · rw [digits_concat, heq, Nat.div_div_eq_div_mul, ← Nat.pow_succ', List.append_assoc]
    · rw [List.length_append, hlen, List.length_singleton]

/-- The numeral with places has the shape. -/
theorem isFixedPoint_withPoint (places n : Nat) : IsFixedPoint places n (withPoint places n) := by
  obtain ⟨fraction, heq, hlen⟩ := exists_digits_eq places n
  have hdigits : ∀ c ∈ fraction, c.isDigit = true := by
    intro c hc
    have hmem : c ∈ digits (places + 1) n := by
      rw [heq]
      exact List.mem_append_right _ hc
    exact isDigit_of_mem_digits hmem
  -- Read together the digits are `n`, so those behind the whole part are the remainder.
  have hvalue : natOfDigits fraction = n % 10 ^ places := by
    have hall := natOfDigits_digits (places + 1) n
    rw [heq, natOfDigits_eq, Nat.ofDigitChars_append, Nat.ofDigitChars_eq_ofDigitChars_zero,
      Nat.ofDigitChars_ten_toDigits, hlen, ← natOfDigits_eq] at hall
    have hdivision := Nat.div_add_mod n (10 ^ places)
    omega
  refine ⟨fraction, ?_, hlen, hdigits, hvalue⟩
  unfold withPoint
  split
  · rename_i hplaces
    subst hplaces
    rw [List.eq_nil_of_length_eq_zero hlen] at heq
    rw [← heq]
  · have hwhole : (digits (places + 1) n).length - places
        = (Nat.toDigits 10 (n / 10 ^ places)).length := by
      rw [heq, List.length_append, hlen, Nat.add_sub_cancel]
    simp only [hwhole]
    rw [heq, List.take_left, List.drop_left]

/-- Nothing stands in such a text but digits and the point. -/
theorem IsFixedPoint.digit_or_point {places n : Nat} {cs : List Char} (h : IsFixedPoint places n cs)
    {c : Char} (hc : c ∈ cs) : c.isDigit = true ∨ c = '.' := by
  obtain ⟨fraction, rfl, -, hdigits, -⟩ := h
  rcases List.mem_append.1 hc with hc | hc
  · exact .inl (isDigit_of_mem_toDigits hc)
  · split at hc
    · exact absurd hc List.not_mem_nil
    · rcases List.mem_cons.1 hc with rfl | hc
      · exact .inr rfl
      · exact .inl (hdigits c hc)

/-! ## Scientific notation -/

/-- The text of a significand `n` with so many places and the power `p` of ten: one digit, the point
and the places, and behind the letter a sign and at least two digits. -/
def IsScientific (places n : Nat) (p : Int) (cs : List Char) : Prop :=
  ∃ (first : Char) (rest exponent : List Char),
    cs = first :: '.' :: rest ++ 'E' :: (if p < 0 then '-' else '+') :: exponent
      ∧ (∀ c ∈ first :: rest, c.isDigit = true) ∧ natOfDigits (first :: rest) = n
      ∧ rest.length = places
      ∧ (∀ c ∈ exponent, c.isDigit = true) ∧ natOfDigits exponent = p.natAbs
      ∧ 2 ≤ exponent.length

theorem length_digits_of_lt {places n : Nat} (h : n < 10 ^ (places + 1)) :
    (digits (places + 1) n).length = places + 1 := by
  rw [length_digits]
  exact Nat.max_eq_left ((Nat.length_toDigits_le_iff (by decide) (Nat.succ_pos _)).2 h)

/-- A significand that is small enough has one digit in front of the point. -/
theorem isScientific_withPoint {places n : Nat} (hplaces : places ≠ 0)
    (h : n < 10 ^ (places + 1)) (p : Int) :
    IsScientific places n p (withPoint places n ++ exponentPart p) := by
  obtain ⟨whole, fraction, heq, hdigits, -, hfraction⟩ := withPoint_eq hplaces n
  have hone : whole.length = 1 := by
    have hlen := length_digits_of_lt h
    rw [← hdigits, List.length_append, hfraction] at hlen
    omega
  obtain ⟨first, rfl⟩ := List.length_eq_one_iff.1 hone
  refine ⟨first, fraction, digits 2 p.natAbs, ?_, ?_, ?_, hfraction, ?_, ?_, ?_⟩
  · rw [heq]
    rfl
  · intro c hc
    change c ∈ [first] ++ fraction at hc
    rw [hdigits] at hc
    exact isDigit_of_mem_digits hc
  · rw [← natOfDigits_digits (places + 1) n, ← hdigits]
    rfl
  · exact fun c hc => isDigit_of_mem_digits hc
  · exact natOfDigits_digits 2 _
  · rw [length_digits]
    exact Nat.le_max_left _ _

/-! ## Rounding to a numeral -/

/-- Rounding moves a quotient by at most one half. -/
theorem roundHalfEven_near_quotient (num : Nat) {den : Nat} (h : 0 < den) :
    2 * |(roundHalfEven num den : ℚ) - num / den| ≤ 1 := by
  obtain ⟨hup, hdown⟩ := roundHalfEven_near num den h
  have hup' : 2 * (num : ℚ) ≤ 2 * (roundHalfEven num den * den) + den := by exact_mod_cast hup
  have hdown' : 2 * ((roundHalfEven num den : ℚ) * den) ≤ 2 * num + den := by exact_mod_cast hdown
  have hpos : (0 : ℚ) < den := by exact_mod_cast h
  have hquotient : (num : ℚ) / den * den = num := div_mul_cancel₀ _ hpos.ne'
  have hscaled : 2 * |(roundHalfEven num den : ℚ) * den - num| ≤ den := by
    rw [← abs_two, ← abs_mul, abs_le]
    constructor <;> linarith
  have hfactor : (roundHalfEven num den : ℚ) * den - num
      = ((roundHalfEven num den : ℚ) - num / den) * den := by
    rw [sub_mul, hquotient]
  rw [hfactor, abs_mul, abs_of_pos hpos, ← mul_assoc] at hscaled
  exact (mul_le_iff_le_one_left hpos).1 hscaled

/-- How many digits the integer part of a number has. -/
theorem length_toDigits_bounds {n : Nat} (h : 0 < n) :
    10 ^ ((Nat.toDigits 10 n).length - 1) ≤ n ∧ n < 10 ^ (Nat.toDigits 10 n).length := by
  have hlen : 0 < (Nat.toDigits 10 n).length := Nat.length_toDigits_pos
  refine ⟨?_, (Nat.length_toDigits_le_iff (by decide) hlen).1 le_rfl⟩
  by_contra hlt
  rcases Nat.eq_zero_or_pos ((Nat.toDigits 10 n).length - 1) with hone | hmore
  · rw [hone, Nat.pow_zero] at hlt
    omega
  · have hle := (Nat.length_toDigits_le_iff (by decide) hmore).2 (Nat.not_le.1 hlt)
    omega

/-- The power of ten that the first significant digit counts: the quotient by it is at least one and
below ten. -/
theorem leadingPower_bounds {num den : Nat} (hnum : 0 < num) (hden : 0 < den) :
    (10 : ℚ) ^ leadingPower num den ≤ num / den
      ∧ (num / den : ℚ) < 10 ^ (leadingPower num den + 1) := by
  have hnum' : (0 : ℚ) < num := by exact_mod_cast hnum
  have hden' : (0 : ℚ) < den := by exact_mod_cast hden
  rw [le_div_iff₀ hden', div_lt_iff₀ hden']
  unfold leadingPower
  split
  · rename_i hle
    -- As many digits as the integer part has.
    obtain ⟨hlow, hhigh⟩ := length_toDigits_bounds (Nat.div_pos hle hden)
    have hlen : 0 < (Nat.toDigits 10 (num / den)).length := Nat.length_toDigits_pos
    have hpower : (((Nat.toDigits 10 (num / den)).length : Int) - 1)
        = (((Nat.toDigits 10 (num / den)).length - 1 : Nat) : Int) := by omega
    rw [sub_add_cancel, hpower, zpow_natCast, zpow_natCast]
    exact ⟨by exact_mod_cast (Nat.le_div_iff_mul_le hden).1 hlow,
      by exact_mod_cast (Nat.div_lt_iff_lt_mul hden).1 hhigh⟩
  · rename_i hlt
    have hlt : num < den := Nat.not_le.1 hlt
    -- One less than the inverse, rounded up.
    obtain ⟨m, hm⟩ : ∃ m, (den + num - 1) / num - 1 = m := ⟨_, rfl⟩
    have hceiling : (den + num - 1) / num = m + 1 := by
      have htwo : 2 ≤ (den + num - 1) / num := (Nat.le_div_iff_mul_le hnum).2 (by omega)
      omega
    have hlower : (m + 1) * num ≤ den + num - 1 := (Nat.le_div_iff_mul_le hnum).1 hceiling.ge
    have hupper : den + num - 1 < (m + 1 + 1) * num :=
      (Nat.div_lt_iff_lt_mul hnum).1 (by omega)
    rw [Nat.add_mul, Nat.one_mul] at hlower hupper
    have hpos : 0 < m := by
      have htwo : 2 ≤ (den + num - 1) / num := (Nat.le_div_iff_mul_le hnum).2 (by omega)
      omega
    obtain ⟨hlow, hhigh⟩ := length_toDigits_bounds hpos
    have hlen : 0 < (Nat.toDigits 10 m).length := Nat.length_toDigits_pos
    rw [hm]
    generalize (Nat.toDigits 10 m).length = len at hlow hhigh hlen ⊢
    have hpower : -(len : Int) + 1 = -((len - 1 : Nat) : Int) := by omega
    rw [hpower, zpow_neg, zpow_neg, zpow_natCast, zpow_natCast]
    constructor
    · rw [inv_mul_le_iff₀ (by positivity)]
      have hle : den ≤ 10 ^ len * num := calc
        den ≤ (m + 1) * num := by omega
        _ ≤ 10 ^ len * num := Nat.mul_le_mul_right _ hhigh
      exact_mod_cast hle
    · rw [lt_inv_mul_iff₀ (by positivity)]
      have hlt : 10 ^ (len - 1) * num < den := calc
        10 ^ (len - 1) * num ≤ m * num := Nat.mul_le_mul_right _ hlow
        _ < den := by omega
      exact_mod_cast hlt

/-- The significand `n`, of `places + 1` digits, and the power `p` of ten that stand for the number
`q`: the first digit is not zero unless `q` is, and `n` is a nearest whole number of units of the
last digit. Zero has the power zero. -/
structure IsRounded (places : Nat) (q : ℚ) (n : Nat) (p : Int) : Prop where
  lt : n < 10 ^ (places + 1)
  normal : q ≠ 0 → 10 ^ places ≤ n
  zero : q = 0 → p = 0
  near : 2 * |(n : ℚ) - q / 10 ^ (p - places)| ≤ 1

/-- Moving the digits by a power of ten: of two powers with natural exponents one is one. -/
theorem cast_shift (num den : Nat) (s : Int) :
    ((num * Nat.pow 10 s.toNat : Nat) : ℚ) / (den * Nat.pow 10 (-s).toNat : Nat)
      = num / den / 10 ^ (-s) := by
  rw [Nat.pow_eq, Nat.pow_eq]
  push_cast
  rcases Int.le_total 0 s with h | h
  · obtain ⟨k, rfl⟩ := Int.eq_ofNat_of_zero_le h
    rw [Int.toNat_natCast, Int.toNat_of_nonpos (by omega), pow_zero, mul_one, zpow_neg,
      zpow_natCast, div_inv_eq_mul, mul_div_right_comm]
  · obtain ⟨k, hk⟩ := Int.eq_ofNat_of_zero_le (Int.neg_nonneg_of_nonpos h)
    rw [Int.toNat_of_nonpos h, hk, Int.toNat_natCast, pow_zero, mul_one, zpow_natCast, div_div]

section Significand

variable {places a b : Nat} {p : Int} {q : ℚ}

/-- A magnitude that was moved to have `places + 1` digits has as many when it is rounded, or it has
reached the next power of ten. -/
theorem roundHalfEven_shifted (hb : 0 < b) (hshift : (a : ℚ) / b = q / 10 ^ (p - places))
    (hlow : 10 ^ p ≤ q) (hhigh : q < 10 ^ (p + 1)) :
    10 ^ places ≤ roundHalfEven a b ∧ roundHalfEven a b ≤ 10 ^ (places + 1) := by
  have hb' : (0 : ℚ) < b := by exact_mod_cast hb
  have hunit : (0 : ℚ) < 10 ^ (p - places) := by positivity
  refine roundHalfEven_bounds hb ?_ ?_
  · have hle : (10 : ℚ) ^ places ≤ a / b := by
      rw [hshift, le_div_iff₀ hunit, ← zpow_natCast, ← zpow_add₀ (by norm_num), add_sub_cancel]
      exact hlow
    rw [le_div_iff₀ hb'] at hle
    exact_mod_cast hle
  · have hlt : (a : ℚ) / b < 10 ^ (places + 1) := by
      rw [hshift, div_lt_iff₀ hunit, ← zpow_natCast, ← zpow_add₀ (by norm_num), Nat.cast_succ,
        add_right_comm, add_sub_cancel]
      exact hhigh
    rw [div_lt_iff₀ hb'] at hlt
    exact_mod_cast hlt.le

/-- The carry: the next power of ten is written with a unit that is ten times as large. -/
theorem isRounded_carry {n : Nat} (hq : q ≠ 0) (hcarry : n = 10 ^ (places + 1))
    (hnear : 2 * |(n : ℚ) - q / 10 ^ (p - places)| ≤ 1) :
    IsRounded places q (10 ^ places) (p + 1) := by
  refine ⟨Nat.pow_lt_pow_right (by decide) (Nat.lt_succ_self _), fun _ => le_rfl,
    fun hzero => absurd hzero hq, ?_⟩
  have hunits : q / 10 ^ (p + 1 - places) = q / 10 ^ (p - places) / 10 := by
    rw [add_sub_right_comm, zpow_add_one₀ (by norm_num), div_div]
  have htenth : ((10 ^ places : Nat) : ℚ) = (n : ℚ) / 10 := by
    rw [hcarry, Nat.pow_succ, Nat.cast_mul]
    exact (mul_div_cancel_right₀ _ (by norm_num)).symm
  rw [hunits, htenth, ← sub_div, abs_div, abs_of_pos (by norm_num : (0 : ℚ) < 10)]
  linarith

end Significand

/-- **Significand and exponent are the magnitude, correctly rounded.** -/
theorem isRounded_significand (places num : Nat) {den : Nat} (hden : 0 < den) :
    IsRounded places (num / den) (significand places num den).1 (significand places num den).2 := by
  unfold significand
  split
  · rename_i hzero
    rw [hzero, Nat.cast_zero, zero_div]
    refine ⟨Nat.pow_pos (by decide), fun hne => absurd rfl hne, fun _ => rfl, ?_⟩
    rw [zero_div, Nat.cast_zero, sub_zero, abs_zero, mul_zero]
    exact zero_le_one
  · rename_i hnum
    obtain ⟨hlow, hhigh⟩ := leadingPower_bounds (Nat.pos_of_ne_zero hnum) hden
    -- The quotient is moved by the leading power, so that it has one digit in front of the point.
    generalize leadingPower num den = p at hlow hhigh ⊢
    have hpositive : (0 : ℚ) < 10 ^ p := by positivity
    have hq : (num / den : ℚ) ≠ 0 := (hpositive.trans_le hlow).ne'
    have hshift := cast_shift num den (places - p)
    rw [neg_sub] at hshift
    have hpos : 0 < den * Nat.pow 10 (p - places).toNat :=
      Nat.mul_pos hden (Nat.pow_pos (by decide))
    obtain ⟨hge, hle⟩ := roundHalfEven_shifted hpos hshift hlow hhigh
    have hnear := roundHalfEven_near_quotient (num * Nat.pow 10 (places - p : Int).toNat) hpos
    rw [hshift] at hnear
    simp only [neg_sub]
    split
    · rename_i hcarry
      exact isRounded_carry hq hcarry hnear
    · rename_i hcarry
      exact ⟨Nat.lt_of_le_of_ne hle hcarry, fun _ => hge, fun hzero => absurd hzero hq, hnear⟩

/-! ## Signs -/

/-- The zero with a minus sign. -/
def IsNegativeZero (x : Float) : Prop :=
  x.toBits = 0x8000000000000000

theorem IsNegativeZero.ofFloat? {x : Float} (h : IsNegativeZero x) :
    Exact.ofFloat? x = some ⟨true, 0, -1074⟩ := by
  rw [Exact.ofFloat?, h]
  rfl

/-- The negative zero is the one zero with its sign bit set. -/
theorem isNegativeZero_iff {x : Float} {e : Exact} (h : Exact.ofFloat? x = some e) :
    IsNegativeZero x ↔ e.negative = true ∧ e.mantissa = 0 := by
  constructor
  · intro hzero
    obtain rfl := Option.some.inj (hzero.ofFloat?.symm.trans h)
    exact ⟨rfl, rfl⟩
  · rintro ⟨hnegative, hmantissa⟩
    have hlt := x.toBits.toNat_lt
    unfold Exact.ofFloat? Exact.ofBits? Exact.hiddenBit at h
    simp only [beq_iff_eq] at h
    refine UInt64.toNat_inj.1 ?_
    change x.toBits.toNat = 0x8000000000000000
    split at h
    · exact absurd h nofun
    · split at h <;> obtain rfl := Option.some.inj h
      · -- The fraction and the exponent are zero, so what is left of the bits is the sign.
        simp only [beq_iff_eq] at hnegative
        change x.toBits.toNat % _ = 0 at hmantissa
        omega
      · exact absurd hmantissa (Nat.succ_ne_zero _)

/-- A double is below zero if it has a minus sign and is not a zero. -/
theorem lt_zero_iff {x : Float} {e : Exact} (h : Exact.ofFloat? x = some e) :
    x < 0 ↔ e.negative = true ∧ e.mantissa ≠ 0 := by
  have hlt : x < 0 ↔ x.toModel.unpack.lt (Float.toModel 0).unpack = true := by
    show decide _ = true ↔ _
    rw [decide_eq_true_iff]
    rfl
  have hzero : (Float.toModel 0).unpack = .zero .positive := rfl
  rw [hlt, hzero, unpack_of_ofFloat? h, Exact.magnitude]
  rcases Nat.eq_zero_or_pos e.mantissa with hm | hm
  · rw [dif_neg (by omega)]
    refine iff_of_false ?_ (fun h => h.2 hm)
    cases e.negative <;> exact Bool.false_ne_true
  · rw [dif_pos hm]
    cases e.negative with
    | false => exact iff_of_false Bool.false_ne_true (fun h => absurd h.1 Bool.false_ne_true)
    | true => exact iff_of_true rfl ⟨rfl, Nat.ne_of_gt hm⟩

end TurboBench.Decimal
