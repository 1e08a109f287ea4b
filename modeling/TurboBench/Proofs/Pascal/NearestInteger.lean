import TurboBench.Proofs.Decimal.HalfAdded
import TurboBench.Proofs.Pascal.Division

/-!
# The nearest integer

`round` is meant to yield the integer nearest to its argument, of two equally near ones the one of
the larger magnitude. `IsNearest q n` says so for the exact value `q` of the argument, and
`isNearest_roundAway` computes that integer: the sign of `q` with the integer part of `|q| + 1/2`.

The function computes the same with a sum of doubles. That sum has the right integer part for every
argument except the greatest double below one half and its opposite (`roundsRight_iff`), which are
rounded to one and minus one although zero is nearer (`evalWithin_round_belowHalf`). The range is
checked behind the rounding, so an argument too large for a fraction fails as it has to.
-/

set_option autoImplicit false

namespace TurboBench.Pascal

open TurboBench.Decimal

/-- `n` is an integer nearest to `q`, and no other one as near is larger in magnitude. -/
structure IsNearest (q : ℚ) (n : Int) : Prop where
  near : ∀ m : Int, |(n : ℚ) - q| ≤ |(m : ℚ) - q|
  tie : ∀ m : Int, |(m : ℚ) - q| = |(n : ℚ) - q| → |m| ≤ |n|

/-- The sign of `q` with the integer part of `|q| + 1/2`. -/
def roundAway (q : ℚ) : Int :=
  if 0 ≤ q then (⌊|q| + 1 / 2⌋₊ : Int) else -(⌊|q| + 1 / 2⌋₊ : Int)

section Nearest

variable {q : ℚ} {n m : Int}

/-- Rounding a magnitude is adding one half and cutting off. -/
theorem abs_roundAway (q : ℚ) : |roundAway q| = (⌊|q| + 1 / 2⌋₊ : Int) := by
  unfold roundAway
  split
  · exact abs_of_nonneg (Int.natCast_nonneg _)
  · rw [abs_neg]
    exact abs_of_nonneg (Int.natCast_nonneg _)

/-- Both have the same sign, so the distance is that of the magnitudes. -/
theorem abs_roundAway_sub (q : ℚ) :
    |(roundAway q : ℚ) - q| = |((|roundAway q| : Int) : ℚ) - abs q| := by
  rw [abs_roundAway, roundAway]
  split
  · rename_i hsign
    rw [abs_of_nonneg hsign, Int.cast_natCast]
  · rename_i hsign
    rw [Int.cast_neg, Int.cast_natCast, abs_of_neg (not_le.1 hsign), ← abs_neg]
    congr 1
    ring

/-- The magnitude lies between one half below `roundAway q`, included, and one half above it. -/
theorem roundAway_bounds (q : ℚ) :
    ((|roundAway q| : Int) : ℚ) - 1 / 2 ≤ |q| ∧ |q| < ((|roundAway q| : Int) : ℚ) + 1 / 2 := by
  have hnonneg : (0 : ℚ) ≤ |q| + 1 / 2 := by positivity
  have hle := Nat.floor_le hnonneg
  have hlt := Nat.lt_floor_add_one (|q| + 1 / 2)
  rw [abs_roundAway, Int.cast_natCast]
  constructor <;> linarith

/-- Rounding half away from zero yields a nearest integer. -/
theorem isNearest_roundAway (q : ℚ) : IsNearest q (roundAway q) := by
  obtain ⟨hlow, hhigh⟩ := roundAway_bounds q
  have hhalf : |(roundAway q : ℚ) - q| ≤ 1 / 2 := by
    rw [abs_roundAway_sub, abs_le]
    constructor <;> linarith
  -- An integer of another magnitude is at least one half away.
  have hfar : ∀ m : Int, |((|m| : Int) : ℚ) - abs q| ≤ |(m : ℚ) - q| := by
    intro m
    rw [Int.cast_abs]
    exact abs_abs_sub_abs_le _ _
  refine ⟨fun m => ?_, fun m hm => ?_⟩
  · refine le_trans ?_ (hfar m)
    rcases lt_trichotomy |m| |roundAway q| with hless | heq | hmore
    · have hstep : ((|m| : Int) : ℚ) + 1 ≤ ((|roundAway q| : Int) : ℚ) := by exact_mod_cast hless
      refine hhalf.trans (le_trans ?_ (neg_le_abs _))
      linarith
    · rw [heq, abs_roundAway_sub]
    · have hstep : ((|roundAway q| : Int) : ℚ) + 1 ≤ ((|m| : Int) : ℚ) := by exact_mod_cast hmore
      refine hhalf.trans (le_trans ?_ (le_abs_self _))
      linarith
  · by_contra hmore
    have hstep : ((|roundAway q| : Int) : ℚ) + 1 ≤ ((|m| : Int) : ℚ) := by
      exact_mod_cast not_le.1 hmore
    have habove := (le_abs_self _).trans (hfar m)
    linarith

/-- There is one nearest integer, with halves going away from zero. -/
theorem IsNearest.unique (hn : IsNearest q n) (hm : IsNearest q m) : n = m := by
  have hdistance : |(n : ℚ) - q| = |(m : ℚ) - q| := le_antisymm (hn.near m) (hm.near n)
  have habs : |n| = |m| := le_antisymm (hm.tie n hdistance) (hn.tie m hdistance.symm)
  rcases abs_eq_abs.1 habs with hsame | rfl
  · exact hsame
  · -- Opposite integers are equally near to zero only, and there zero is nearer.
    rw [Int.cast_neg] at hdistance
    have hcentre : q = 0 ∨ (m : ℚ) = 0 := by
      rcases abs_eq_abs.1 hdistance with h | h
      · exact .inr (by linarith)
      · exact .inl (by linarith)
    have hm' : (m : ℚ) = 0 := by
      rcases hcentre with rfl | hm'
      · have hzero := hm.near 0
        simpa using hzero
      · exact hm'
    rw [Int.cast_eq_zero.1 hm', neg_zero]

theorem IsNearest.eq_roundAway (h : IsNearest q n) : n = roundAway q :=
  h.unique (isNearest_roundAway q)

end Nearest

/-- The outcome for an argument of the exact value `q`: the nearest integer if it is in range, the
error of the integer overflow on the given line if it is not. -/
def RoundsRight (q : ℚ) (line : Nat) (outcome : Except RuntimeError Value) : Prop :=
  ∃ n, IsNearest q n ∧
    (-2 ^ 31 ≤ n ∧ n ≤ 2 ^ 31 - 1 → outcome = .ok (.integer n)) ∧
    (¬ (-2 ^ 31 ≤ n ∧ n ≤ 2 ^ 31 - 1) → FailsWith 215 line outcome)

/-- The check of the range behind a rounding. -/
theorem roundsRight_checkInteger (q : ℚ) (line : Nat) :
    RoundsRight q line (charge line (checkInteger (roundAway q))) := by
  refine ⟨_, isNearest_roundAway q, fun hin => ?_, fun hout => ?_⟩
  · rw [checkInteger_of_inRange hin.1 hin.2, charge]
  · rw [checkInteger_of_not_inRange hout]
    exact ⟨⟨.integerOverflow, line⟩, rfl, rfl, rfl⟩

section Rounding

variable {x : Float} {f : Exact}

/-- The function rounds as the sum with one half, which is made in doubles, is cut off. -/
theorem round_of_sum (hx : x.isFinite = true) (hf : Exact.ofFloat? (x.abs + 0.5) = some f) :
    round x = checkInteger
      (if 0 ≤ exactValue x then (f.floorMagnitude : Int) else -(f.floorMagnitude : Int)) := by
  have hsign : x ≥ 0 ↔ 0 ≤ exactValue x := zero_le_iff hx
  unfold round
  rw [hf]
  simp only [hsign]

/-- So it rounds right wherever that sum is as good as exact. -/
theorem round_of_ne_belowHalf (hx : x.isFinite = true) (hne : |exactValue x| ≠ belowHalf) :
    round x = checkInteger (roundAway (exactValue x)) := by
  obtain ⟨f, hf, hfloor⟩ := floorMagnitude_add_half hx hne
  rw [round_of_sum hx hf]
  rcases hfloor with hsame | ⟨hlarge, hlarge'⟩
  · rw [hsame, roundAway]
  · -- Without a fraction both are out of range.
    have hfloor : 2 ^ 52 ≤ ⌊|exactValue x| + 1 / 2⌋₊ := Nat.le_floor (by exact_mod_cast hlarge')
    rw [roundAway, checkInteger_of_not_inRange, checkInteger_of_not_inRange]
    · split <;> omega
    · split <;> omega

theorem round_of_eq_belowHalf (hx : x.isFinite = true) (heq : |exactValue x| = belowHalf) :
    round x = .ok (.integer (if 0 ≤ exactValue x then 1 else -1)) := by
  obtain ⟨f, hf, hone⟩ := floorMagnitude_halfway hx heq
  rw [round_of_sum hx hf, hone]
  split <;> rfl

/-- A magnitude just below one half is rounded to zero. -/
theorem roundAway_of_belowHalf {q : ℚ} (h : |q| = belowHalf) : roundAway q = 0 := by
  have hfloor : ⌊|q| + 1 / 2⌋₊ = 0 := by
    rw [h, belowHalf, Nat.floor_eq_zero]
    norm_num
  rw [roundAway, hfloor]
  split <;> rfl

end Rounding

/-! ## The function -/

section Function

variable {σ : Store} {stepLine depth : Nat} {e : Expr} {x : Float}

/-- The greatest number below one half is rounded away from zero. -/
theorem evalWithin_round_belowHalf (he : e.evalWithin σ stepLine depth = .ok (.real x))
    (hx : x.isFinite = true) (heq : |exactValue x| = belowHalf) (line : Nat) :
    (Expr.call .round e line).evalWithin σ stepLine (depth + 1)
      = .ok (.integer (if 0 ≤ exactValue x then 1 else -1)) := by
  rw [evalWithin_call he]
  change charge line (round x) = _
  rw [round_of_eq_belowHalf hx heq, charge]

/-- **`round` yields the nearest integer, if and only if its argument is neither the greatest double
below one half nor the opposite of it.** For arguments of any form whose values are reals. -/
theorem roundsRight_iff (he : e.evalWithin σ stepLine depth = .ok (.real x))
    (hx : x.isFinite = true) (line : Nat) :
    RoundsRight (exactValue x) line ((Expr.call .round e line).evalWithin σ stepLine (depth + 1))
      ↔ |exactValue x| ≠ 1 / 2 - 1 / 2 ^ 54 := by
  constructor
  · rintro ⟨n, hn, hin, -⟩ heq
    have hzero : n = 0 := hn.eq_roundAway.trans (roundAway_of_belowHalf heq)
    rw [hzero, evalWithin_round_belowHalf he hx heq] at hin
    injection hin (by decide) with hvalue
    injection hvalue with hinteger
    split at hinteger <;> exact absurd hinteger (by decide)
  · intro hne
    rw [evalWithin_call he]
    change RoundsRight _ _ (charge line (round x))
    rw [round_of_ne_belowHalf hx hne]
    exact roundsRight_checkInteger _ _

end Function

/-- Two and a half: of two equally near integers the one that is further from zero. -/
theorem roundsRight_iff_tie :
    (Expr.literal (.real 2.5) 7).evalWithin .empty 7 0 = .ok (.real 2.5)
      ∧ (2.5 : Float).isFinite = true
      ∧ (RoundsRight (exactValue 2.5) 7
          ((Expr.call .round (.literal (.real 2.5) 7) 7).evalWithin .empty 7 1)
        ↔ |exactValue 2.5| ≠ 1 / 2 - 1 / 2 ^ 54) :=
  ⟨rfl, rfl, roundsRight_iff rfl rfl 7⟩

/-- The greatest double below one half is rounded to one. -/
theorem not_roundsRight_belowHalf :
    ¬ RoundsRight (exactValue 0.49999999999999994) 7
      ((Expr.call .round (.literal (.real 0.49999999999999994) 7) 7).evalWithin .empty 7 1) := by
  rintro ⟨n, hn, hin, -⟩
  have hexact : Exact.ofFloat? 0.49999999999999994 = some ⟨false, 2 ^ 53 - 1, -54⟩ := by
    decide +kernel
  have hvalue : |exactValue 0.49999999999999994| = belowHalf := by
    rw [exactValue_of_ofFloat? hexact, Exact.abs_value, belowHalf]
    norm_num
  have hzero : n = 0 := hn.eq_roundAway.trans (roundAway_of_belowHalf hvalue)
  have hone : (Expr.call .round (.literal (.real 0.49999999999999994) 7) 7).evalWithin .empty 7 1
      = .ok (.integer 1) := rfl
  rw [hzero, hone] at hin
  injection hin (by decide) with hvalues
  injection hvalues with hintegers
  exact absurd hintegers (by decide)

end TurboBench.Pascal
