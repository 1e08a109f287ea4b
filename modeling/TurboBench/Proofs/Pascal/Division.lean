import Mathlib
import TurboBench.Pascal.Evaluation

/-!
# Division of integers

`div` and `mod` are two views of one division: the quotient is cut toward zero, and the remainder is
what it leaves of the dividend. `IsDivision a b q r` says so without computing either of them: the
two make up the dividend, the remainder is smaller than the divisor and not of the other sign, and
no larger quotient fits.

What may go wrong is the check of the range behind the division. The remainder is smaller than the
divisor, so it is always in range. The quotient is not larger than the dividend, so it is in range
unless it is the opposite of the smallest integer.
-/

set_option autoImplicit false

namespace TurboBench.Pascal

/-! ## Outcomes of operations -/

/-- The outcome is the error with the given number, charged to the line. -/
def FailsWith (code line : Nat) (outcome : Except RuntimeError Value) : Prop :=
  ∃ e, outcome = .error e ∧ e.fault.code = code ∧ e.line = line

section Operators

variable {σ : Store} {stepLine depth line : Nat}

/-- An operator is applied to the values of its operands. -/
theorem evalWithin_binary {op : BinaryOp} {l r : Expr} {v w : Value}
    (hl : l.evalWithin σ stepLine depth = .ok v) (hr : r.evalWithin σ stepLine depth = .ok w) :
    (Expr.binary op l r line).evalWithin σ stepLine (depth + 1) = charge line (op.apply v w) := by
  rw [Expr.evalWithin, hl]
  change (do let w ← r.evalWithin σ stepLine depth; charge line (op.apply v w)) = _
  rw [hr]
  rfl

/-- A function is applied to the value of its argument. -/
theorem evalWithin_call {f : Builtin} {e : Expr} {v : Value}
    (he : e.evalWithin σ stepLine depth = .ok v) :
    (Expr.call f e line).evalWithin σ stepLine (depth + 1) = charge line (f.apply v) := by
  rw [Expr.evalWithin, he]
  rfl

theorem checkInteger_of_inRange {n : Int} (hmin : -2 ^ 31 ≤ n) (hmax : n ≤ 2 ^ 31 - 1) :
    checkInteger n = .ok (.integer n) :=
  (checkInteger_eq_ok_iff n _).2 ⟨rfl, hmin, hmax⟩

theorem checkInteger_of_not_inRange {n : Int} (h : ¬ (-2 ^ 31 ≤ n ∧ n ≤ 2 ^ 31 - 1)) :
    checkInteger n = .error .integerOverflow :=
  if_neg h

end Operators

/-! ## Quotient and remainder -/

/-- `q` and `r` are the quotient of `a` by `b`, cut toward zero, and the remainder. -/
structure IsDivision (a b q r : Int) : Prop where
  /-- They make up the dividend. -/
  equation : a = b * q + r
  /-- The remainder is smaller than the divisor. -/
  remainder_lt : |r| < |b|
  /-- It is zero or has the sign of the dividend. -/
  sign : r = 0 ∨ r.sign = a.sign
  /-- The quotient is as large as it can be. -/
  greatest : IsGreatest {n : Int | |b| * n ≤ |a|} |q|

section Division

variable {a b q r : Int}

/-- The quotient of the magnitudes, with the sign that the operands give it, is the quotient cut
toward zero. -/
theorem truncDiv_eq_tdiv (a b : Int) : truncDiv a b = a.tdiv b := by
  have hquotient : ((a.natAbs / b.natAbs : Nat) : Int) = |a|.tdiv |b| := by
    rw [Int.abs_eq_natAbs, Int.abs_eq_natAbs]
    rfl
  unfold truncDiv
  rcases lt_or_ge a 0 with ha | ha
  · rcases lt_or_ge b 0 with hb | hb
    · simp [ha, hb, hquotient, abs_of_neg]
    · simp [ha, hb, not_lt.2 hb, hquotient, abs_of_neg, abs_of_nonneg]
  · rcases lt_or_ge b 0 with hb | hb
    · simp [ha, hb, not_lt.2 ha, hquotient, abs_of_neg, abs_of_nonneg]
    · simp [ha, hb, not_lt.2 ha, not_lt.2 hb, hquotient, abs_of_nonneg]

/-- What the quotient leaves of the dividend is the remainder. -/
theorem sub_mul_truncDiv (a b : Int) : a - b * truncDiv a b = a.tmod b := by
  rw [truncDiv_eq_tdiv, Int.tmod_def]

/-- Quotient and remainder towards zero make up a division. -/
theorem isDivision_tdiv_tmod (a : Int) (hb : b ≠ 0) : IsDivision a b (a.tdiv b) (a.tmod b) := by
  have hpos : 0 < b.natAbs := Int.natAbs_pos.2 hb
  have hquotient : |a.tdiv b| = ((a.natAbs / b.natAbs : Nat) : Int) := by
    rw [Int.abs_eq_natAbs, Int.natAbs_tdiv]
    rfl
  refine ⟨(Int.mul_tdiv_add_tmod a b).symm, ?_, ?_, ?_, ?_⟩
  · rw [Int.abs_eq_natAbs, Int.abs_eq_natAbs, Int.natAbs_tmod]
    exact_mod_cast Nat.mod_lt _ hpos
  · by_cases hdvd : b ∣ a
    · exact .inl (Int.tmod_eq_zero_of_dvd hdvd)
    · exact .inr (by rw [Int.sign_tmod, if_neg hdvd])
  · rw [Set.mem_ofPred_eq, hquotient, Int.abs_eq_natAbs, Int.abs_eq_natAbs]
    exact_mod_cast Nat.mul_div_le _ _
  · intro n hn
    rw [Set.mem_ofPred_eq, Int.abs_eq_natAbs, Int.abs_eq_natAbs] at hn
    -- One more than the quotient is too much.
    have hnext : (a.natAbs : Int) < b.natAbs * ((a.natAbs / b.natAbs : Nat) + 1) := by
      exact_mod_cast Nat.lt_mul_div_succ _ hpos
    have hlt : n < (a.natAbs / b.natAbs : Nat) + 1 :=
      Int.lt_of_mul_lt_mul_left (Int.lt_of_le_of_lt hn hnext) (Int.natCast_nonneg _)
    rw [hquotient]
    omega

/-- A quotient is in range, unless it is the opposite of the smallest integer. -/
theorem inRange_tdiv (hmin : -2 ^ 31 ≤ a) (hmax : a ≤ 2 ^ 31 - 1)
    (h : ¬ (a = -2 ^ 31 ∧ b = -1)) : -2 ^ 31 ≤ a.tdiv b ∧ a.tdiv b ≤ 2 ^ 31 - 1 := by
  by_cases hone : b = 1
  · rw [hone, Int.tdiv_one]
    exact ⟨hmin, hmax⟩
  by_cases hminusOne : b = -1
  · rw [hminusOne, Int.tdiv_neg, Int.tdiv_one]
    omega
  · -- By any other divisor at most half of the dividend is left.
    have hhalf : (a.tdiv b).natAbs ≤ a.natAbs / 2 := by
      rw [Int.natAbs_tdiv]
      change a.natAbs / b.natAbs ≤ a.natAbs / 2
      by_cases hzero : b.natAbs = 0
      · rw [hzero, Nat.div_zero]
        exact Nat.zero_le _
      · exact Nat.div_le_div_left (by omega) (by decide)
    omega

/-- A remainder is in range wherever the dividend is. -/
theorem inRange_tmod (hmin : -2 ^ 31 ≤ a) (hmax : a ≤ 2 ^ 31 - 1) :
    -2 ^ 31 ≤ a.tmod b ∧ a.tmod b ≤ 2 ^ 31 - 1 := by
  have hle : (a.tmod b).natAbs ≤ a.natAbs := by
    rw [Int.natAbs_tmod]
    exact Nat.mod_le _ _
  -- Only a negative dividend may be as large as `2 ^ 31`, and its remainder is not positive.
  rcases Int.le_total 0 a with hnonneg | hnonpos
  · omega
  · have hopposite := Int.tmod_nonneg b (Int.neg_nonneg_of_nonpos hnonpos)
    rw [Int.neg_tmod] at hopposite
    omega

end Division

/-! ## The two operators -/

/-- What `a div b` and `a mod b` come to, on the given line. -/
structure DivideTogether (a b : Int) (line : Nat) (quotient remainder : Except RuntimeError Value) :
    Prop where
  /-- Of a divisor that is not zero both are those of the division, and the remainder does not
  fail. The quotient fails only where it is out of range. -/
  division : b ≠ 0 → ∃ q r, IsDivision a b q r ∧ remainder = .ok (.integer r)
    ∧ (¬ (a = -2 ^ 31 ∧ b = -1) → quotient = .ok (.integer q))
  /-- The opposite of the smallest integer is out of range. -/
  overflow : a = -2 ^ 31 → b = -1 → FailsWith 215 line quotient
  /-- Nothing is divided by zero. -/
  byZero : b = 0 → FailsWith 200 line quotient ∧ FailsWith 200 line remainder

/-- **`div` and `mod` cut toward zero and fit together.** For operands of any form whose values are
integers of the range. -/
theorem divideTogether_of_integers {σ : Store} {stepLine depth : Nat} {l r : Expr} {a b : Int}
    (hl : l.evalWithin σ stepLine depth = .ok (.integer a))
    (hr : r.evalWithin σ stepLine depth = .ok (.integer b))
    (ha : -2 ^ 31 ≤ a ∧ a ≤ 2 ^ 31 - 1) (line : Nat) :
    DivideTogether a b line ((Expr.binary .div l r line).evalWithin σ stepLine (depth + 1))
      ((Expr.binary .mod l r line).evalWithin σ stepLine (depth + 1)) := by
  have hdiv : BinaryOp.div.apply (.integer a) (.integer b)
      = if b = 0 then .error .divisionByZero else checkInteger (a.tdiv b) := by
    rw [← truncDiv_eq_tdiv]
    rfl
  have hmod : BinaryOp.mod.apply (.integer a) (.integer b)
      = if b = 0 then .error .divisionByZero else checkInteger (a.tmod b) := by
    rw [← sub_mul_truncDiv]
    rfl
  rw [evalWithin_binary hl hr, evalWithin_binary hl hr, hdiv, hmod]
  refine ⟨fun hne => ?_, ?_, ?_⟩
  · obtain ⟨hlow, hhigh⟩ := inRange_tmod ha.1 ha.2
    refine ⟨a.tdiv b, a.tmod b, isDivision_tdiv_tmod a hne, ?_, fun h => ?_⟩
    · rw [if_neg hne, checkInteger_of_inRange hlow hhigh, charge]
    · obtain ⟨hlow, hhigh⟩ := inRange_tdiv ha.1 ha.2 h
      rw [if_neg hne, checkInteger_of_inRange hlow hhigh, charge]
  · rintro rfl rfl
    exact ⟨⟨.integerOverflow, line⟩, rfl, rfl, rfl⟩
  · rintro rfl
    exact ⟨⟨⟨.divisionByZero, line⟩, rfl, rfl, rfl⟩, ⟨.divisionByZero, line⟩, rfl, rfl, rfl⟩

/-- The smallest integer and minus one. -/
theorem divideTogether_smallest :
    (Expr.literal (.integer (-2 ^ 31)) 7).evalWithin .empty 7 0 = .ok (.integer (-2 ^ 31))
      ∧ (Expr.literal (.integer (-1)) 7).evalWithin .empty 7 0 = .ok (.integer (-1))
      ∧ (-2 ^ 31 ≤ (-2 ^ 31 : Int) ∧ (-2 ^ 31 : Int) ≤ 2 ^ 31 - 1)
      ∧ DivideTogether (-2 ^ 31) (-1) 7
        ((Expr.binary .div (.literal (.integer (-2 ^ 31)) 7) (.literal (.integer (-1)) 7)
          7).evalWithin .empty 7 1)
        ((Expr.binary .mod (.literal (.integer (-2 ^ 31)) 7) (.literal (.integer (-1)) 7)
          7).evalWithin .empty 7 1) :=
  ⟨rfl, rfl, by decide, divideTogether_of_integers rfl rfl (by decide) 7⟩

end TurboBench.Pascal
