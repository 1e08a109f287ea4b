import Mathlib.Data.Int.Bitwise
import TurboBench.Proofs.Asm.TwosComplement

/-!
# Flags and results by masks

A processor takes results apart with masks: the low bits of an integer are what it has in common
with a row of ones, a single bit is what it has in common with a power of two, and two signs differ
where the bit of their exclusive or is set. The model divides and compares instead. Both are the
same for every integer, negative ones included, whose bits go on as ones without end
(`Int.land`, `Int.lor`, `Int.xor` and `Int.lnot`).

Two integers are equal if all of their bits are (`eq_of_testBit_eq`), so a flag that is set or
cleared can be compared bit by bit with the mask (`setFlag_eq_masked`). The result of an operation
and its flags follow from what masks say of one bit (`compute_eq_masked`).
-/

set_option autoImplicit false

namespace TurboBench.Asm

/-! ## Bits of integers -/

section Bits

variable {a b : Int} {k : Nat}

/-- A bit of an integer is a remainder of its quotient by a power of two. -/
theorem testBit_eq_bit (a : Int) (k : Nat) : a.testBit k = decide (Machine.bit a k = 1) := by
  have hpow : (2 : Int) ^ k = ((2 ^ k : Nat) : Int) := by push_cast; rfl
  unfold Machine.bit
  rw [hpow]
  cases a with
  | ofNat m =>
    rw [Int.testBit, Nat.testBit_eq_decide_div_mod_eq, Int.ofNat_eq_natCast]
    norm_cast
  | negSucc m =>
    -- The quotient of a negative integer is the one that is negative by one more.
    rw [Int.testBit, Nat.testBit_eq_decide_div_mod_eq,
      Int.negSucc_ediv m (by exact_mod_cast Nat.two_pow_pos k)]
    rw [← decide_not, decide_eq_decide]
    change _ ↔ (-((m : Int) / ((2 ^ k : Nat) : Int) + 1)) % 2 = 1
    norm_cast
    omega

/-- Integers with the same bits are the same. -/
theorem eq_of_testBit_eq (h : ∀ k, a.testBit k = b.testBit k) : a = b := by
  -- Far enough to the left a bit tells the sign.
  have hsign (m n : Nat) : ∃ k, m.testBit k = false ∧ n.testBit k = false := by
    refine ⟨m + n, Nat.testBit_lt_two_pow ?_, Nat.testBit_lt_two_pow ?_⟩
    · exact (Nat.lt_two_pow_self).trans_le (Nat.pow_le_pow_right (by decide) (by omega))
    · exact (Nat.lt_two_pow_self).trans_le (Nat.pow_le_pow_right (by decide) (by omega))
  cases a with
  | ofNat m =>
    cases b with
    | ofNat n => exact congrArg _ (Nat.eq_of_testBit_eq h)
    | negSucc n =>
      obtain ⟨k, hm, hn⟩ := hsign m n
      simpa [Int.testBit, hm, hn] using h k
  | negSucc m =>
    cases b with
    | ofNat n =>
      obtain ⟨k, hm, hn⟩ := hsign m n
      simpa [Int.testBit, hm, hn] using h k
    | negSucc n =>
      refine congrArg _ (Nat.eq_of_testBit_eq fun k => ?_)
      simpa [Int.testBit] using h k

theorem testBit_zero (k : Nat) : (0 : Int).testBit k = false :=
  Nat.zero_testBit k

theorem testBit_two_pow (k j : Nat) : ((2 : Int) ^ k).testBit j = decide (k = j) := by
  have hpow : (2 : Int) ^ k = Int.ofNat (2 ^ k) := by rw [Int.ofNat_eq_natCast]; push_cast; rfl
  rw [hpow, Int.testBit, Nat.testBit_two_pow]

/-- A row of ones. -/
theorem testBit_mask (k j : Nat) : ((2 : Int) ^ k - 1).testBit j = decide (j < k) := by
  have hpow : (2 : Int) ^ k - 1 = Int.ofNat (2 ^ k - 1) := by
    rw [Int.ofNat_eq_natCast, Nat.cast_sub Nat.one_le_two_pow]
    push_cast
    rfl
  rw [hpow, Int.testBit, Nat.testBit_two_pow_sub_one]

/-- A remainder by a power of two has the low bits of the number and no other. -/
theorem testBit_emod (a : Int) (k j : Nat) :
    (a % 2 ^ k).testBit j = (decide (j < k) && a.testBit j) := by
  have hpow : (2 : Int) ^ k = ((2 ^ k : Nat) : Int) := by push_cast; rfl
  cases a with
  | ofNat m =>
    have hmod : Int.ofNat m % (2 : Int) ^ k = Int.ofNat (m % 2 ^ k) := by rw [hpow]; rfl
    rw [hmod, Int.testBit, Int.testBit, Nat.testBit_mod_two_pow]
  | negSucc m =>
    have hlt : m % 2 ^ k < 2 ^ k := Nat.mod_lt m (Nat.two_pow_pos k)
    have hmod : Int.negSucc m % (2 : Int) ^ k = Int.ofNat (2 ^ k - (m % 2 ^ k + 1)) := by
      rw [hpow, Int.negSucc_emod m (by exact_mod_cast Nat.two_pow_pos k), Int.ofNat_eq_natCast,
        Nat.cast_sub hlt]
      push_cast
      ring
    rw [hmod, Int.testBit, Int.testBit, Nat.testBit_two_pow_sub_succ hlt, Nat.testBit_mod_two_pow]
    cases decide (j < k) <;> simp

/-- The low bits of an integer. -/
theorem land_mask (a : Int) (k : Nat) : a.land (2 ^ k - 1) = a % 2 ^ k := by
  refine eq_of_testBit_eq fun j => ?_
  rw [Int.testBit_land, testBit_mask, testBit_emod, Bool.and_comm]

/-- One bit of an integer. -/
theorem land_two_pow_ne_zero (a : Int) (k : Nat) : (a.land (2 ^ k) != 0) = a.testBit k := by
  cases h : a.testBit k with
  | true =>
    refine bne_iff_ne.2 fun hzero => ?_
    have hbit := Int.testBit_land a (2 ^ k) k
    rw [hzero, testBit_zero, h, testBit_two_pow, decide_eq_true rfl] at hbit
    exact nomatch hbit
  | false =>
    have hzero : a.land (2 ^ k) = 0 := by
      refine eq_of_testBit_eq fun j => ?_
      rw [Int.testBit_land, testBit_two_pow, testBit_zero]
      by_cases hj : k = j
      · rw [← hj, h, Bool.false_and]
      · rw [decide_eq_false hj, Bool.and_false]
    rw [hzero]
    rfl

end Bits

/-! ## Flags -/

namespace Machine

variable {v : Int} {k : Nat}

/-- A word with one bit set or cleared has that bit so, and all others as they were. -/
theorem testBit_withBit (v : Int) (k : Nat) (on : Bool) (j : Nat) :
    (withBit v k on).testBit j = if j = k then on else v.testBit j := by
  obtain ⟨hself, hother⟩ := bit_withBit v k on
  rw [testBit_eq_bit, testBit_eq_bit]
  split
  · rename_i hj
    rw [hj, hself]
    cases on <;> rfl
  · rename_i hj
    rw [hother j hj]

/-- Setting a bit is taking the bits of a power of two as well. -/
theorem withBit_true (v : Int) (k : Nat) : withBit v k true = v.lor (2 ^ k) := by
  refine eq_of_testBit_eq fun j => ?_
  rw [testBit_withBit, Int.testBit_lor, testBit_two_pow]
  by_cases hj : j = k
  · simp [hj]
  · simp [hj, Ne.symm hj]

/-- Clearing a bit is leaving all bits but those of a power of two. -/
theorem withBit_false (v : Int) (k : Nat) : withBit v k false = v.land (Int.lnot (2 ^ k)) := by
  refine eq_of_testBit_eq fun j => ?_
  rw [testBit_withBit, Int.testBit_land, Int.testBit_lnot, testBit_two_pow]
  by_cases hj : j = k
  · simp [hj]
  · simp [hj, Ne.symm hj]

/-- **A flag is set and cleared by a mask**, and what is left after clearing it is cut to a word. -/
theorem setFlag_eq_masked {m : Machine} {flag : String} (hk : flagWeight? flag = some (2 ^ k))
    (h : m.whole "flags" = .ok v) (on : Bool) :
    m.setFlag flag on = .ok (m.setWhole "flags"
      (if on then v.lor (2 ^ k) else v.land ((Int.lnot (2 ^ k)).land 0xFFFF))) := by
  have hmask : (0xFFFF : Int) = 2 ^ 16 - 1 := by norm_num
  have hassoc (n : Int) : v.land (n.land (2 ^ 16 - 1)) = (v.land n).land (2 ^ 16 - 1) := by
    refine eq_of_testBit_eq fun j => ?_
    simp only [Int.testBit_land, Bool.and_assoc]
  rw [setFlag_eq_withBit hk h, hmask, hassoc, land_mask, ← withBit_true, ← withBit_false]
  norm_num

end Machine

/-! ## Results -/

namespace Arithmetic

/-- The sign bit is what an integer has in common with its mask. -/
theorem signBit_eq_masked (k : Nat) (n : Int) :
    signBit (k + 1) n = (n.land (2 ^ k) != 0) := by
  rw [land_two_pow_ne_zero, testBit_eq_bit, signBit, Nat.add_sub_cancel, wordCount_cast,
    Machine.bit]
  rfl

/-- **The result of an operation and its flags, by masks.** There is a carry where the result before
it is cut is negative or has more than a row of ones; there is an overflow where the sign of the
result is not that of the first operand although the operands agree in their signs, for a sum, or
differ in them, for a difference. -/
theorem compute_eq_masked (op : Arithmetic) (k : Nat) (a b : Int) :
    op.compute (k + 1) a b =
      let raw := op.exact a b
      let mask : Int := 2 ^ (k + 1) - 1
      let top : Int := 2 ^ k
      let masked := raw.land mask
      let signs : Int := match op with
        | add => (a.xor b).lnot
        | subtract => a.xor b
      { word := masked
        zero := masked == 0
        sign := masked.land top != 0
        carry := decide (raw < 0) || decide (mask < raw)
        overflow := (signs.land (a.xor masked)).land top != (0 : Int) } := by
  have hsign (n : Int) : signBit (k + 1) n = n.testBit k := by
    rw [signBit_eq_masked, land_two_pow_ne_zero]
  have hcarry (raw : Int) : (2 : Int) ^ (k + 1) ≤ raw ↔ 2 ^ (k + 1) - 1 < raw := by omega
  generalize hraw : op.exact a b = raw
  have hagree (x y : Bool) : (!(x ^^ y)) = (x == y) := by cases x <;> cases y <;> rfl
  have hdiffer (x y : Bool) : (x ^^ y) = (x != y) := by cases x <;> cases y <;> rfl
  cases op with
  | add | subtract =>
    unfold exact at hraw
    simp only [compute, hraw, hsign, hcarry, land_two_pow_ne_zero, land_mask, wordCount_cast,
      Int.testBit_land, Int.testBit_lxor, Int.testBit_lnot, hagree, hdiffer]

end Arithmetic

end TurboBench.Asm
