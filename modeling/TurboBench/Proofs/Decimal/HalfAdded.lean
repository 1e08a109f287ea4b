import TurboBench.Proofs.Decimal.ExactValue

/-!
# One half added to a magnitude

To round a double to an integer one half is added to its magnitude and the fraction of the sum is
cut off. The sum is a double, so it is not `|q| + 1/2` but a number near it, and the question is
whether both have the same integer part. They have (`floorMagnitude_add_half`), with one exception:
the greatest double below one half. Its sum with one half is halfway between the greatest double
below one and one, and goes to one (`floorMagnitude_halfway`).

The reason is in the binades. From one on the integer part `N` of the exact sum and `N + 1/2` are
doubles of its binade, so a sum between them stays between them. A sum above `N + 1/2` comes from a
number above `N`, so it is in the binade of that number and nothing is rounded. Below one the
binade of the sum has one digit less than the binade of the number, and that is where the exception
comes from.
-/

set_option autoImplicit false

namespace TurboBench.Decimal

open Float.Model Float.Model.UnpackedFloat

/-- One half, unpacked. -/
def half : UnpackedFloat :=
  .finite .positive (2 ^ 52) (-53) (by decide)

theorem unpack_half : (0.5 : Float).toModel.unpack = half :=
  rfl

/-- The greatest double below one half. -/
def belowHalf : ℚ := 1 / 2 - 1 / 2 ^ 54

/-! ## The sum -/

/-- The exponent of the last bit of a positive number, if it has fifty-three. -/
theorem exists_unit {m : Nat} (hm : 0 < m) (e : Int) :
    ∃ t : Int, (m.log2 : Int) + e = 52 + t ∧ (2 : ℚ) ^ (52 + t) ≤ m * 2 ^ e ∧
      (m : ℚ) * 2 ^ e < 2 ^ (53 + t) := by
  have hpos : (0 : ℚ) < 2 ^ e := by positivity
  -- The logarithm gives the position of the first bit.
  obtain ⟨hge, hlt⟩ := (Nat.log2_eq_iff (Nat.ne_of_gt hm)).1 rfl
  have hge' : (2 : ℚ) ^ (m.log2 : Int) ≤ m := by
    rw [zpow_natCast]
    exact_mod_cast hge
  have hlt' : (m : ℚ) < 2 ^ ((m.log2 : Int) + 1) := by
    rw [← Nat.cast_succ, zpow_natCast]
    exact_mod_cast hlt
  refine ⟨m.log2 + e - 52, by omega, ?_, ?_⟩
  · calc
      (2 : ℚ) ^ (52 + (m.log2 + e - 52) : Int) = 2 ^ (m.log2 : Int) * 2 ^ e := by
        rw [← zpow_add₀ two_ne_zero]
        congr 1
        omega
      _ ≤ m * 2 ^ e := mul_le_mul_of_nonneg_right hge' hpos.le
  · calc
      (m : ℚ) * 2 ^ e < 2 ^ ((m.log2 : Int) + 1) * 2 ^ e := mul_lt_mul_of_pos_right hlt' hpos
      _ = 2 ^ (53 + (m.log2 + e - 52) : Int) := by
        rw [← zpow_add₀ two_ne_zero]
        congr 1
        omega

/-- The sum of a magnitude and one half: the exact sum `y`, moved by at most half of the unit
`2 ^ t` of its last bit. -/
structure IsSum (y : ℚ) (t : Int) (v : ℚ) : Prop where
  ge : (2 : ℚ) ^ (52 + t) ≤ y
  lt : y < 2 ^ (53 + t)
  near : ∃ r : Nat, v = r * 2 ^ t ∧ 2 * |v - y| ≤ 2 ^ t

/-- A number from one half on has a unit in the last place of at least two to minus fifty-three. -/
theorem le_unit_of_half_le {y : ℚ} {t : Int} (hy : 1 / 2 ≤ y) (h : y < 2 ^ (53 + t)) :
    -53 ≤ t := by
  have hpow : (2 : ℚ) ^ (-1 : Int) < 2 ^ (53 + t) := by
    refine lt_of_le_of_lt ?_ h
    norm_num
    linarith
  have := (zpow_lt_zpow_iff_right₀ one_lt_two).1 hpow
  omega

/-- The greatest magnitude of a double. -/
theorem magnitude_le {e : Exact} (h : e.InFormat) :
    (e.mantissa : ℚ) * 2 ^ e.exponent ≤ (2 ^ 53 - 1) * 2 ^ (971 : Int) := by
  have hmantissa : (e.mantissa : ℚ) ≤ 2 ^ 53 - 1 := by
    have hle : (e.mantissa : ℚ) + 1 ≤ 2 ^ 53 := by exact_mod_cast h.mantissa_lt
    linarith
  have hpow : (2 : ℚ) ^ e.exponent ≤ 2 ^ (971 : Int) :=
    zpow_le_zpow_right₀ one_le_two h.exponent_le
  exact mul_le_mul hmantissa hpow (by positivity) (by norm_num)

/-- One half more does not leave the range of the doubles, and is not rounded out of it. -/
theorem unit_le_greatest {e : Exact} (hformat : e.InFormat) {y : ℚ} {t : Int}
    (hy : y = e.mantissa * 2 ^ e.exponent + 1 / 2) (hge : 2 ^ (52 + t) ≤ y) :
    t ≤ greatestExponent ∧ (t < greatestExponent ∨ 2 * y < (2 ^ 54 - 1) * 2 ^ t) := by
  have hle := magnitude_le hformat
  have hunit : (1 : ℚ) < 2 ^ (971 : Int) := one_lt_zpow₀ one_lt_two (by decide)
  have hgreatest : t ≤ 971 := by
    have hpow : (2 : ℚ) ^ (52 + t) < 2 ^ (53 + 971 : Int) := by
      refine lt_of_le_of_lt hge ?_
      rw [hy, zpow_add₀ two_ne_zero]
      generalize (2 : ℚ) ^ (971 : Int) = u at hle hunit ⊢
      norm_num
      linarith
    have := (zpow_lt_zpow_iff_right₀ one_lt_two).1 hpow
    omega
  refine ⟨hgreatest, ?_⟩
  rcases Int.lt_or_eq_of_le hgreatest with hless | rfl
  · exact .inl hless
  · refine .inr ?_
    rw [hy]
    generalize (2 : ℚ) ^ (971 : Int) = u at hle hunit ⊢
    norm_num
    linarith

/-- Both summands are written with the smaller exponent, and their mantissas are added. -/
theorem exists_aligned {e : Exact} (hpos : 0 < e.mantissa) :
    ∃ (m : Nat) (s : Int), 0 < m ∧ (m : ℚ) * 2 ^ s = e.mantissa * 2 ^ e.exponent + 1 / 2 ∧
      UnpackedFloat.add Format.binary64 e.magnitude half
        = UnpackedFloat.round Format.binary64 .positive m s := by
  obtain ⟨s, hs⟩ : ∃ s : Int, min e.exponent (-53) = s := ⟨_, rfl⟩
  obtain ⟨a, ha⟩ : ∃ a : Nat, e.exponent - s = a := ⟨(e.exponent - s).toNat, by omega⟩
  obtain ⟨b, hb⟩ : ∃ b : Nat, (-53 : Int) - s = b := ⟨(-53 - s).toNat, by omega⟩
  have ha' : (e.exponent - s).toNat = a := by omega
  have hb' : ((-53 : Int) - s).toNat = b := by omega
  obtain ⟨m, hm⟩ : ∃ m : Nat, e.mantissa <<< a + (2 ^ 52) <<< b = m := ⟨_, rfl⟩
  have hmpos : 0 < m := by
    rw [← hm, Nat.shiftLeft_eq (2 ^ 52)]
    positivity
  refine ⟨m, s, hmpos, ?_, ?_⟩
  · rw [← hm, Nat.cast_add, add_mul, shiftLeft_value _ _ ha, shiftLeft_value _ _ hb]
    norm_num
  · have hcompare : compare (m : Int) 0 = .gt := by
      rw [compare_gt_iff_gt]
      omega
    have hmantissa : ((e.mantissa <<< a : Nat) : Int) + (((2 ^ 52) <<< b : Nat) : Int) = m := by
      exact_mod_cast hm
    rw [Exact.magnitude, dif_pos hpos, half]
    simp only [UnpackedFloat.add, hs, decreaseExponent, ha', hb', Sign.apply, hmantissa,
      UnpackedFloat.normalize, hcompare, Int.toNat_natCast]

/-- **What a magnitude and one half are added up to.** -/
theorem add_half {x : Float} {e : Exact} (h : Exact.ofFloat? x = some e) (hformat : e.InFormat) :
    ∃ f t, Exact.ofFloat? (x.abs + 0.5) = some f ∧ IsSum (|e.value| + 1 / 2) t f.value := by
  have habs : x.abs.toModel.unpack = e.magnitude := by
    rw [unpack_abs]
    exact Exact.unpack_of_ofBits? h
  have hsum : x.abs + 0.5
      = .ofModel (.pack (UnpackedFloat.add Format.binary64 e.magnitude half)) := by
    rw [← habs, ← unpack_half]
    rfl
  rw [Exact.abs_value]
  rcases Nat.eq_zero_or_pos e.mantissa with hzero | hpos
  · -- nothing is added to one half
    have hmagnitude : e.magnitude = .zero .positive := dif_neg (by omega)
    obtain ⟨f, hf, hvalue⟩ := ofFloat?_of_unpack unpack_half
    rw [hsum, hmagnitude]
    change ∃ f t, Exact.ofFloat? (0.5 : Float) = some f ∧ _
    have hhalf : f.value = 2 ^ 52 * 2 ^ (-53 : Int) := by
      rw [hvalue]
      norm_num [Sign.apply]
    refine ⟨f, -53, hf, ?_, ?_, 2 ^ 52, by rw [hhalf]; norm_num, ?_⟩ <;> rw [hzero]
    · norm_num
    · norm_num
    · rw [hhalf]
      norm_num
  · obtain ⟨m, s, hm, hvalue, hadd⟩ := exists_aligned hpos
    obtain ⟨t, ht, hge, hlt⟩ := exists_unit hm s
    have hmagnitude : (0 : ℚ) < e.mantissa * 2 ^ e.exponent := by positivity
    have hsmallest : -53 ≤ t := le_unit_of_half_le (by linarith) hlt
    obtain ⟨hgreatest, hcarry⟩ := unit_le_greatest hformat hvalue hge
    obtain ⟨f, hf, r, hr, hnear⟩ :=
      round_eq hm ht (by unfold smallestExponent; omega) hgreatest hcarry
    rw [hsum, hadd]
    refine ⟨f, t, hf, hvalue ▸ hge, hvalue ▸ hlt, r, hr, ?_⟩
    rw [hr, ← hvalue]
    exact hnear

/-! ## Its integer part -/

/-- A multiple of a greater power of two is one of a smaller. -/
theorem exists_multiple {s t : Int} (h : t ≤ s) (n : Int) :
    ∃ j : Int, (j : ℚ) * 2 ^ t = n * 2 ^ s := by
  refine ⟨n * 2 ^ (s - t).toNat, ?_⟩
  rw [Int.cast_mul, Int.cast_pow, Int.cast_ofNat, mul_assoc, ← zpow_natCast,
    ← zpow_add₀ two_ne_zero]
  congr 2
  omega

namespace IsSum

variable {y v : ℚ} {t : Int}

/-- No multiple of the unit is nearer to the exact sum. -/
theorem nearest (h : IsSum y t v) (j : Int) : |v - y| ≤ |j * 2 ^ t - y| := by
  obtain ⟨r, hr, hnear⟩ := h.near
  have hunit : (0 : ℚ) < 2 ^ t := by positivity
  rcases eq_or_ne j r with rfl | hne
  · rw [hr, Int.cast_natCast]
  · have hstep : (2 : ℚ) ^ t ≤ |j * 2 ^ t - v| := by
      have hone : (1 : ℚ) ≤ |((j - r : Int) : ℚ)| := by
        exact_mod_cast Int.one_le_abs (sub_ne_zero.2 hne)
      have hdifference : (j : ℚ) * 2 ^ t - v = ((j - r : Int) : ℚ) * 2 ^ t := by
        rw [hr]
        push_cast
        ring
      rw [hdifference, abs_mul, abs_of_pos hunit]
      exact le_mul_of_one_le_left hunit.le hone
    have htriangle := abs_sub_le ((j : ℚ) * 2 ^ t) y v
    rw [abs_sub_comm y v] at htriangle
    linarith

/-- A multiple of the unit that is not above the exact sum is not above the sum. -/
theorem ge_multiple (h : IsSum y t v) {j : Int} (hj : (j : ℚ) * 2 ^ t ≤ y) :
    (j : ℚ) * 2 ^ t ≤ v := by
  have hnear := h.nearest j
  rw [abs_of_nonpos (by linarith : (j : ℚ) * 2 ^ t - y ≤ 0)] at hnear
  have hbelow := neg_le_abs (v - y)
  linarith

/-- A multiple of the unit that is not below the exact sum is not below the sum. -/
theorem le_multiple (h : IsSum y t v) {j : Int} (hj : y ≤ j * 2 ^ t) : v ≤ j * 2 ^ t := by
  have hnear := h.nearest j
  rw [abs_of_nonneg (by linarith : (0 : ℚ) ≤ j * 2 ^ t - y)] at hnear
  have habove := le_abs_self (v - y)
  linarith

theorem eq_of_multiple (h : IsSum y t v) {j : Int} (hj : y = j * 2 ^ t) : v = y :=
  le_antisymm (hj ▸ h.le_multiple hj.le) (hj ▸ h.ge_multiple hj.ge)

end IsSum

/-- A magnitude of at least a power of two has an exponent that is at most fifty-two less. -/
theorem exponent_ge {e : Exact} (hformat : e.InFormat) {b : Int}
    (h : (2 : ℚ) ^ (52 + b) ≤ e.mantissa * 2 ^ e.exponent) : b ≤ e.exponent := by
  have hmantissa : (e.mantissa : ℚ) < 2 ^ (53 : Int) := by exact_mod_cast hformat.mantissa_lt
  have hlt : (2 : ℚ) ^ (52 + b) < 2 ^ (53 + e.exponent) := by
    rw [zpow_add₀ two_ne_zero 53]
    exact lt_of_le_of_lt h (mul_lt_mul_of_pos_right hmantissa (by positivity))
  have := (zpow_lt_zpow_iff_right₀ one_lt_two).1 hlt
  omega

section IntegerPart

variable {e : Exact} {t : Int} {v : ℚ}

/-- From one on, a magnitude above the integer part of the sum is in the binade of the sum, so
nothing is rounded. -/
theorem IsSum.exact_of_floor_lt (hformat : e.InFormat)
    (h : IsSum (e.mantissa * 2 ^ e.exponent + 1 / 2) t v) (hlow : -52 ≤ t) (hneg : t < 0)
    (hfloor : ((⌊(e.mantissa : ℚ) * 2 ^ e.exponent + 1 / 2⌋₊ : Nat) : ℚ)
      < e.mantissa * 2 ^ e.exponent) :
    v = e.mantissa * 2 ^ e.exponent + 1 / 2 := by
  have hpow : (2 : ℚ) ^ (52 + t) ≤ ⌊(e.mantissa : ℚ) * 2 ^ e.exponent + 1 / 2⌋₊ := by
    obtain ⟨k, hk⟩ : ∃ k : Nat, 52 + t = k := ⟨(52 + t).toNat, by omega⟩
    have hge := h.ge
    rw [hk, zpow_natCast] at hge ⊢
    exact_mod_cast Nat.le_floor (by exact_mod_cast hge)
  have hexponent : t ≤ e.exponent := exponent_ge hformat (hpow.trans hfloor.le)
  obtain ⟨k, hk⟩ := exists_multiple hexponent e.mantissa
  obtain ⟨l, hl⟩ := exists_multiple (s := -1) (by omega : t ≤ -1) 1
  refine h.eq_of_multiple (j := k + l) ?_
  rw [Int.cast_add, add_mul, hk, hl]
  norm_num

/-- Below one the magnitude may have one digit more behind the point than the sum. Only the greatest
one below one half is near enough to it for a carry. -/
theorem IsSum.lt_one (hformat : e.InFormat)
    (h : IsSum (e.mantissa * 2 ^ e.exponent + 1 / 2) (-53) v)
    (hne : (e.mantissa : ℚ) * 2 ^ e.exponent ≠ belowHalf) : v < 1 := by
  have hone : (e.mantissa : ℚ) * 2 ^ e.exponent + 1 / 2 < 1 := by
    have hlt := h.lt
    norm_num at hlt
    exact hlt
  by_contra hcarry
  -- A carry to one takes a sum nearer to one than half of the last digit, and that leaves a single
  -- mantissa.
  have hnear : 1 - 1 / 2 ^ 53 < (e.mantissa : ℚ) * 2 ^ e.exponent + 1 / 2 := by
    by_contra hfar
    have hv := h.le_multiple (j := 2 ^ 53 - 1) (by norm_num at hfar ⊢; linarith)
    norm_num at hv
    linarith
  have hexponent : -54 ≤ e.exponent := exponent_ge hformat (by norm_num at hnear ⊢; linarith)
  obtain ⟨k, hk⟩ := exists_multiple hexponent e.mantissa
  have hvalue : (e.mantissa : ℚ) * 2 ^ e.exponent = k / 2 ^ 54 := by
    rw [div_eq_mul_inv]
    exact hk.symm
  rw [hvalue] at hne hnear hone
  have hk' : k = 2 ^ 53 - 1 := by
    norm_num at hnear hone
    have hlow : (9007199254740990 : ℚ) < k := by linarith
    have hhigh : (k : ℚ) < 9007199254740992 := by linarith
    have hlow' : (9007199254740990 : Int) < k := by exact_mod_cast hlow
    have hhigh' : k < (9007199254740992 : Int) := by exact_mod_cast hhigh
    omega
  refine hne ?_
  rw [hk', belowHalf]
  norm_num

/-- A sum without a fraction: its unit is a natural number. -/
theorem IsSum.ge_of_unit_nonneg {y : ℚ} (h : IsSum y t v) (ht : 0 ≤ t) :
    2 ^ 52 ≤ v ∧ 2 ^ 52 ≤ y := by
  have hge := h.ge
  have hone : (2 : ℚ) ^ 52 ≤ 2 ^ (52 + t) := by
    rw [← zpow_natCast]
    exact zpow_le_zpow_right₀ one_le_two (by omega)
  have hsame : ((2 ^ 52 : Int) : ℚ) * 2 ^ t = 2 ^ (52 + t) := by
    rw [zpow_add₀ two_ne_zero]
    norm_cast
  have hv := h.ge_multiple (hsame.le.trans hge)
  rw [hsame] at hv
  exact ⟨hone.trans hv, hone.trans hge⟩

/-- **The sum of a magnitude and one half has the integer part of the exact sum**, unless it is
too large for a fraction, or the magnitude is the greatest one below one half. -/
theorem floor_sum (hformat : e.InFormat) (h : IsSum (|e.value| + 1 / 2) t v)
    (hne : |e.value| ≠ belowHalf) :
    ⌊v⌋₊ = ⌊|e.value| + 1 / 2⌋₊ ∨ (2 ^ 52 ≤ v ∧ 2 ^ 52 ≤ |e.value| + 1 / 2) := by
  rw [Exact.abs_value] at *
  rcases lt_or_ge t 0 with hneg | hlarge
  · refine .inl ?_
    have hsmallest : -53 ≤ t := le_unit_of_half_le (by simp; positivity) h.lt
    obtain ⟨n, hn⟩ : ∃ n : Nat, ⌊(e.mantissa : ℚ) * 2 ^ e.exponent + 1 / 2⌋₊ = n := ⟨_, rfl⟩
    obtain ⟨hle, hlt⟩ := (Nat.floor_eq_iff (by positivity)).1 hn
    -- `n` and `n + 1/2` are multiples of the unit
    obtain ⟨i, hi⟩ := exists_multiple (s := 0) hneg.le n
    obtain ⟨j, hj⟩ := exists_multiple (s := -1) (by omega : t ≤ -1) (2 * n + 1)
    have hi' : (i : ℚ) * 2 ^ t = n := by
      rw [hi]
      norm_num
    have hj' : (j : ℚ) * 2 ^ t = n + 1 / 2 := by
      rw [hj]
      norm_num
      ring
    have hvge : (n : ℚ) ≤ v := hi' ▸ h.ge_multiple (hi' ▸ hle)
    rw [hn, Nat.floor_eq_iff ((by positivity : (0 : ℚ) ≤ n).trans hvge)]
    refine ⟨hvge, ?_⟩
    rcases le_or_gt ((e.mantissa : ℚ) * 2 ^ e.exponent) n with hlower | hupper
    · have hvle := h.le_multiple (j := j) (by linarith)
      linarith
    · rcases Int.lt_or_eq_of_le hsmallest with hbinade | rfl
      · have hexact := h.exact_of_floor_lt hformat (by omega) hneg (hn ▸ hupper)
        linarith
      · have hone := h.lt_one hformat hne
        linarith [(by positivity : (0 : ℚ) ≤ n)]
  · exact .inr (h.ge_of_unit_nonneg hlarge)

end IntegerPart

/-! ## The exception -/

/-- The greatest number below one half is the double with all bits set behind the point. -/
theorem eq_of_value {e : Exact} (hformat : e.InFormat) (h : |e.value| = belowHalf) :
    e.mantissa = 2 ^ 53 - 1 ∧ e.exponent = -54 := by
  have habs := e.abs_value.symm.trans h
  have hvalue : belowHalf = (2 ^ 53 - 1) * 2 ^ (-54 : Int) := by
    rw [belowHalf]
    norm_num
  -- The exponent is bounded from both sides: by the value, which needs all bits, and by the size of
  -- the mantissa.
  have hge : -54 ≤ e.exponent := exponent_ge hformat (by rw [habs, belowHalf]; norm_num)
  have hnormal : (2 : ℚ) ^ 52 ≤ e.mantissa := by
    rcases hformat.normal with hsmall | hbig
    · omega
    · exact_mod_cast hbig
  have hle : e.exponent ≤ -54 := by
    by_contra hlt
    have hpow : (2 : ℚ) ^ (-53 : Int) ≤ 2 ^ e.exponent :=
      zpow_le_zpow_right₀ one_le_two (by omega)
    have hmul := mul_le_mul hnormal hpow (by positivity) (by positivity)
    rw [habs, belowHalf] at hmul
    norm_num at hmul
  have hexponent : e.exponent = -54 := le_antisymm hle hge
  refine ⟨?_, hexponent⟩
  rw [hvalue, hexponent] at habs
  have hmantissa := mul_right_cancel₀ (by positivity) habs
  have hsucc : ((e.mantissa + 1 : Nat) : ℚ) = ((2 ^ 53 : Nat) : ℚ) := by
    push_cast
    linarith
  have := Nat.cast_injective hsucc
  omega

/-- The greatest double below one half. -/
def halfPredecessor : Float :=
  .ofModel (.pack (.finite .positive (2 ^ 53 - 1) (-54) (by decide)))

/-- There is one magnitude just below one half. -/
theorem abs_eq_halfPredecessor {x : Float} {e : Exact} (h : Exact.ofFloat? x = some e)
    (hformat : e.InFormat) (hvalue : |e.value| = belowHalf) : x.abs = halfPredecessor := by
  obtain ⟨hmantissa, hexponent⟩ := eq_of_value hformat hvalue
  have habs : x.abs.toModel.unpack = .finite .positive (2 ^ 53 - 1) (-54) (by decide) := by
    rw [unpack_abs]
    refine (Exact.unpack_of_ofBits? h).trans ?_
    simp only [Exact.magnitude, hmantissa, hexponent]
    rfl
  rw [← pack_unpack x.abs, habs]
  rfl

/-- Its sum with one half is halfway between two doubles, and the even one of them is one. -/
theorem halfPredecessor_add_half :
    Exact.ofFloat? (halfPredecessor + 0.5) = some ⟨false, 2 ^ 52, -52⟩ := by
  decide +kernel

/-! ## Both cases of the sum -/

/-- Adding one half in doubles is as good as adding it exactly, but for that magnitude. -/
theorem floorMagnitude_add_half {x : Float} (h : x.isFinite = true)
    (hne : |exactValue x| ≠ belowHalf) :
    ∃ f, Exact.ofFloat? (x.abs + 0.5) = some f ∧
      (f.floorMagnitude = ⌊|exactValue x| + 1 / 2⌋₊ ∨
        (2 ^ 52 ≤ f.floorMagnitude ∧ 2 ^ 52 ≤ |exactValue x| + 1 / 2)) := by
  obtain ⟨e, he, hformat⟩ := exists_ofFloat? h
  rw [exactValue_of_ofFloat? he] at hne ⊢
  obtain ⟨f, t, hf, hsum⟩ := add_half he hformat
  have hnonneg : 0 ≤ f.value := by
    obtain ⟨r, hr, -⟩ := hsum.near
    rw [hr]
    positivity
  have hfloor : f.floorMagnitude = ⌊f.value⌋₊ := by
    rw [Exact.floorMagnitude_eq, abs_of_nonneg hnonneg]
  refine ⟨f, hf, ?_⟩
  rw [hfloor]
  refine (floor_sum hformat hsum hne).imp_right fun hlarge => ⟨Nat.le_floor ?_, hlarge.2⟩
  exact_mod_cast hlarge.1

/-- There the sum is rounded up to one. -/
theorem floorMagnitude_halfway {x : Float} (h : x.isFinite = true)
    (heq : |exactValue x| = belowHalf) :
    ∃ f, Exact.ofFloat? (x.abs + 0.5) = some f ∧ f.floorMagnitude = 1 := by
  obtain ⟨e, he, hformat⟩ := exists_ofFloat? h
  rw [exactValue_of_ofFloat? he] at heq
  rw [abs_eq_halfPredecessor he hformat heq]
  exact ⟨_, halfPredecessor_add_half, by decide⟩

end TurboBench.Decimal
