import TurboBench.Pascal.WriteField
import TurboBench.Proofs.Decimal.NumeralShapes
import TurboBench.Proofs.Text.Words

/-!
# What `write` puts into a field

A field is the text of its value behind as many blanks as the width asks for, and the text depends
on the kind of the value: an integer is its decimal numeral, a real has as many digits behind the
point as decimals are asked for, and without decimals it is in scientific notation behind one column
for the sign, which a width gives up when it would be blank. `HasShape` says so, with the numbers
that the digits stand for.

The sign column is blank for every real that is not below zero, and the negative zero is not, though
its minus sign is written. So its text has two columns (`not_hasShape_negativeZero`); with a width
the blank is trimmed away. A double that is no number has a name in place of digits. In all other
cases the shape is kept (`hasShape_iff`).
-/

set_option autoImplicit false

namespace TurboBench.Pascal

open TurboBench.Decimal TurboBench.Text

/-! ## The shape -/

/-- The text of a real with so many decimals: its sign and the fixed-point numeral of a nearest
number with so many places. -/
def IsFixedText (places : Nat) (x : Float) (text : List Char) : Prop :=
  ∃ n numeral, text = sign (signBit x) ++ numeral ∧ IsFixedPoint places n numeral
    ∧ 2 * |(n : ℚ) - |exactValue x| * 10 ^ places| ≤ 1

/-- The text of a real without decimals: the column of the sign, which holds what is given if there
is no minus sign, and eleven significant digits in scientific notation. -/
def IsScientificText (column : List Char) (x : Float) (text : List Char) : Prop :=
  ∃ n p numeral, text = (if signBit x then ['-'] else column) ++ numeral
    ∧ IsScientific 10 n p numeral ∧ IsRounded 10 |exactValue x| n p

/-- The text of a value before it is set into a field. -/
def IsUnpadded (v : Value) (width decimals : Option Int) (text : List Char) : Prop :=
  match v with
  | .integer n => text = sign (decide (n < 0)) ++ Nat.toDigits 10 n.natAbs
  | .boolean b => text = if b then ['T', 'R', 'U', 'E'] else ['F', 'A', 'L', 'S', 'E']
  | .text s => text = s.toList
  | .real x =>
    match decimals with
    | some d => IsFixedText (min (max d 0) 255).toNat x text
    | none => x.isFinite = true → IsScientificText (if width = none then [' '] else []) x text

/-- A field: the whole text behind blanks, as long as the text or the width, whichever is more. -/
def HasShape (v : Value) (width decimals : Option Int) : Prop :=
  ∃ blanks text, IsUnpadded v width decimals text
    ∧ (writeField v width decimals).toList = List.replicate blanks ' ' ++ text
    ∧ ((blanks + text.length : Nat) : Int)
      = match width with
        | none => (text.length : Int)
        | some w => max (text.length : Int) (min w 255)

/-! ## Fields -/

/-- Blanks fill a field up, so its shape is that of the text in it. -/
theorem hasShape_of_isUnpadded {v : Value} {width decimals : Option Int}
    (h : IsUnpadded v width decimals (unpadded v width decimals).toList) :
    HasShape v width decimals := by
  cases width with
  | none =>
    refine ⟨0, _, h, ?_, ?_⟩
    · rw [List.replicate_zero, List.nil_append]
      rfl
    · rw [Nat.zero_add]
  | some w =>
    refine ⟨capped w - (unpadded v (some w) decimals).length, _, h, ?_, ?_⟩
    · rw [writeField, alignRight, blanks, String.toList_append, String.toList_ofList]
    · rw [String.length_toList]
      simp only [capped, maxFieldWidth]
      omega

/-- What is in a field apart from blanks is in its text. -/
theorem mem_of_hasShape {v : Value} {width decimals : Option Int} {text : List Char} {blanks : Nat}
    (h : (writeField v width decimals).toList = List.replicate blanks ' ' ++ text) {c : Char}
    (hc : c ∈ (unpadded v width decimals).toList) (hne : c ≠ ' ') : c ∈ text := by
  have hfield : c ∈ (writeField v width decimals).toList := by
    cases width with
    | none => exact hc
    | some w =>
      rw [writeField, alignRight, String.toList_append]
      exact List.mem_append_right _ hc
  rw [h] at hfield
  rcases List.mem_append.1 hfield with hblank | htext
  · exact absurd (List.eq_of_mem_replicate hblank) hne
  · exact htext

/-! ## Reals -/

section Reals

variable {x : Float} {e : Exact}

/-- A finite number with fixed places is written as a sign, the whole part and the places. -/
theorem isFixedText_fixed (h : Exact.ofFloat? x = some e) (places : Nat) :
    IsFixedText places x (fixed places x).toList := by
  refine ⟨roundHalfEven (e.num * Nat.pow 10 places) e.den, _, ?_, isFixedPoint_withPoint _ _, ?_⟩
  · rw [fixed, h, ← negative_of_ofFloat? h]
    exact String.toList_ofList
  · have hnear := roundHalfEven_near_quotient (e.num * Nat.pow 10 places) e.den_pos
    rw [exactValue_of_ofFloat? h, Exact.abs_value_eq_div, div_mul_eq_mul_div]
    rw [Nat.pow_eq, Nat.cast_mul, Nat.cast_pow, Nat.cast_ofNat] at hnear
    exact hnear

/-- A finite number in scientific form is a sign and a numeral of ten places, whose digits are the
exact value rounded. -/
theorem scientific_eq (h : Exact.ofFloat? x = some e) :
    ∃ n p numeral, (scientific 10 x).toList = sign (signBit x) ++ numeral
      ∧ IsScientific 10 n p numeral ∧ IsRounded 10 |exactValue x| n p := by
  have hrounded := isRounded_significand 10 e.num e.den_pos
  rw [← Exact.abs_value_eq_div, ← exactValue_of_ofFloat? h] at hrounded
  refine ⟨_, _, _, ?_, isScientific_withPoint (by decide) hrounded.lt _, hrounded⟩
  rw [scientific, h, ← negative_of_ofFloat? h, ← List.append_assoc]
  exact String.toList_ofList

/-- In scientific notation no white space stands. -/
theorem not_blank_of_isScientific {places n : Nat} {p : Int} {cs : List Char}
    (h : IsScientific places n p cs) : ∀ c ∈ cs, isBlank c = false := by
  obtain ⟨first, rest, exponent, rfl, hdigits, -, -, hexponent, -⟩ := h
  have hdigit : ∀ c : Char, c.isDigit = true → isBlank c = false := by
    intro c hc
    have hrange : 48 ≤ c.toNat ∧ c.toNat ≤ 57 := Char.isDigit_iff_toNat.1 hc
    simp only [isBlank, Bool.or_eq_false_iff, Bool.and_eq_false_iff, decide_eq_false_iff_not,
      beq_eq_false_iff_ne]
    omega
  have hsign : isBlank (if p < 0 then '-' else '+') = false := by
    split <;> rfl
  simp only [List.cons_append, List.forall_mem_cons, List.forall_mem_append] at hdigits ⊢
  exact ⟨hdigit _ hdigits.1, rfl, fun c hc => hdigit c (hdigits.2 c hc), rfl, hsign,
    fun c hc => hdigit c (hexponent c hc)⟩

/-- With a width the blank column of the sign is trimmed away. -/
theorem trimmed_realText (h : Exact.ofFloat? x = some e) :
    IsScientificText [] x (trimmed (realText x)).toList := by
  obtain ⟨n, p, numeral, hscientific, hshape, hrounded⟩ := scientific_eq h
  refine ⟨n, p, numeral, ?_, hshape, hrounded⟩
  have hblank : ∀ c ∈ sign (signBit x) ++ numeral, isBlank c = false := by
    intro c hc
    rcases List.mem_append.1 hc with hc | hc
    · unfold sign at hc
      split at hc
      · rw [List.mem_singleton.1 hc]
        rfl
      · exact absurd hc List.not_mem_nil
    · exact not_blank_of_isScientific hshape c hc
  have htrim : trim (realText x).toList = sign (signBit x) ++ numeral := by
    unfold realText
    simp only
    split
    · rw [hscientific, trim_of_no_blank hblank]
    · rw [String.toList_append, hscientific]
      exact (trim_blanks_append (List.all_eq_true.1 rfl) _).trans (trim_of_no_blank hblank)
  rw [trimmed, String.toList_ofList, htrim]
  rfl

/-- Without a width there is one column for the sign, unless the real is the negative zero. -/
theorem isScientificText_realText (h : Exact.ofFloat? x = some e) (hzero : ¬ IsNegativeZero x) :
    IsScientificText [' '] x (realText x).toList := by
  obtain ⟨n, p, numeral, hscientific, hshape, hrounded⟩ := scientific_eq h
  refine ⟨n, p, numeral, ?_, hshape, hrounded⟩
  rw [isNegativeZero_iff h] at hzero
  have hbelow := lt_zero_iff h
  rw [negative_of_ofFloat? h] at hzero hbelow
  unfold realText
  cases hsign : signBit x with
  | true =>
    rw [hsign] at hscientific
    rw [if_pos (hbelow.2 ⟨hsign, fun hm => hzero ⟨hsign, hm⟩⟩), hscientific]
    rfl
  | false =>
    have hnot : ¬ x < 0 := fun hlt => absurd ((hbelow.1 hlt).1.symm.trans hsign) (by decide)
    rw [hsign] at hscientific
    rw [if_neg hnot, String.toList_append, hscientific]
    rfl

/-- A double that is no number is not written in digits. -/
theorem mem_specialName (x : Float) : 'n' ∈ specialName x := by
  unfold specialName
  split
  · decide
  · exact List.mem_append_right _ (by decide)

end Reals

/-! ## Where the shape is kept -/

/-- The negative zero is written with two columns for the sign. -/
theorem not_hasShape_negativeZero {x : Float} (h : IsNegativeZero x) :
    ¬ HasShape (.real x) none none := by
  rintro ⟨blanks, text, hshape, hfield, hlen⟩
  have hexact := h.ofFloat?
  have hsign : signBit x = true := (negative_of_ofFloat? hexact).symm
  have hnot : ¬ x < 0 := fun hlt => ((lt_zero_iff hexact).1 hlt).2 rfl
  obtain ⟨n, p, numeral, rfl, -, -⟩ := hshape (isFinite_of_ofFloat? hexact)
  -- The field begins with a blank, and its text with the minus sign.
  have hblank : (writeField (.real x) none none).toList = ' ' :: (scientific 10 x).toList := by
    change (realText x).toList = _
    rw [realText, if_neg hnot, String.toList_append]
    rfl
  obtain rfl : blanks = 0 := by
    simp only at hlen
    omega
  rw [hblank, hsign] at hfield
  exact absurd (List.cons.inj hfield).1 (by decide)

/-- A name is not a numeral. -/
theorem not_hasShape_of_not_finite {x : Float} (h : x.isFinite = false) (width : Option Int)
    (d : Int) : ¬ HasShape (.real x) width (some d) := by
  rintro ⟨blanks, text, ⟨n, numeral, rfl, hshape, -⟩, hfield, -⟩
  have hnone : Exact.ofFloat? x = none := by
    rw [Option.eq_none_iff_forall_ne_some]
    intro e he
    rw [isFinite_of_ofFloat? he] at h
    exact Bool.noConfusion h
  have hname : (unpadded (.real x) width (some d)).toList = specialName x := by
    simp only [unpadded, fixed, hnone, String.toList_ofList]
  have hmem := mem_of_hasShape hfield (hname ▸ mem_specialName x) (by decide)
  rcases List.mem_append.1 hmem with hmem | hmem
  · unfold sign at hmem
    split at hmem
    · exact absurd (List.mem_singleton.1 hmem) (by decide)
    · exact absurd hmem List.not_mem_nil
  · rcases hshape.digit_or_point hmem with hdigit | hpoint
    · exact absurd hdigit (by decide)
    · exact absurd hpoint (by decide)

/-- The text of an integer is its decimal numeral. -/
theorem toList_toString_int (n : Int) :
    (toString n).toList = sign (decide (n < 0)) ++ Nat.toDigits 10 n.natAbs := by
  cases n with
  | ofNat m =>
    rw [decide_eq_false (show ¬ Int.ofNat m < 0 from Int.not_lt.2 (Int.natCast_nonneg m))]
    exact Nat.toList_repr
  | negSucc m =>
    rw [decide_eq_true (Int.negSucc_lt_zero m), ← Nat.toList_repr]
    exact String.toList_append

/-- **The shape of a field, and where it is kept**: everywhere except for the negative zero without
width and decimals, and for doubles that are no numbers with decimals. -/
theorem hasShape_iff (v : Value) (width decimals : Option Int) :
    HasShape v width decimals ↔ ¬ ∃ x, v = .real x ∧
      ((IsNegativeZero x ∧ width = none ∧ decimals = none)
        ∨ (x.isFinite = false ∧ decimals ≠ none)) := by
  constructor
  · rintro hshape ⟨x, rfl, ⟨hzero, rfl, rfl⟩ | ⟨hfinite, hdecimals⟩⟩
    · exact not_hasShape_negativeZero hzero hshape
    · obtain ⟨d, rfl⟩ := Option.ne_none_iff_exists'.1 hdecimals
      exact not_hasShape_of_not_finite hfinite width d hshape
  · intro hexcepted
    refine hasShape_of_isUnpadded ?_
    -- Only reals can be excepted. With decimals they have to be numbers, and without width and
    -- decimals they must not be the negative zero.
    cases v with
    | integer n => exact toList_toString_int n
    | boolean b =>
      change (if b then "TRUE" else "FALSE").toList = _
      cases b <;> rfl
    | text s => rfl
    | real x =>
      cases decimals with
      | some d =>
        have hfinite : x.isFinite = true := by
          by_contra hnot
          exact hexcepted ⟨x, rfl, .inr ⟨Bool.eq_false_iff.2 hnot, nofun⟩⟩
        obtain ⟨e, he, -⟩ := exists_ofFloat? hfinite
        have hcapped : capped d = (min (max d 0) 255).toNat := by
          simp only [capped, maxFieldWidth]
          omega
        have hfixed := isFixedText_fixed he (capped d)
        rw [hcapped] at hfixed
        simp only [IsUnpadded, unpadded, hcapped]
        exact hfixed
      | none =>
        intro hfinite
        obtain ⟨e, he, -⟩ := exists_ofFloat? hfinite
        cases width with
        | some w => exact trimmed_realText he
        | none =>
          exact isScientificText_realText he fun hzero =>
            hexcepted ⟨x, rfl, .inl ⟨hzero, rfl, rfl⟩⟩

/-- **What is printed into a field.** Every value is printed in the shape of its kind, but for the
negative zero, whose sign takes two columns if neither a width nor decimals are given, and for what
is no number and cannot be given decimals. The decimals matter to reals alone. -/
theorem printed_fields (v : Value) (width decimals : Option Int) :
    (HasShape v width decimals ↔ ¬ ∃ x, v = .real x ∧
      ((IsNegativeZero x ∧ width = none ∧ decimals = none)
        ∨ (x.isFinite = false ∧ decimals ≠ none)))
    ∧ (v.type ≠ .real → ∀ others, writeField v width others = writeField v width decimals) := by
  refine ⟨hasShape_iff v width decimals, fun h others => ?_⟩
  cases width with
  | none => exact unpadded_decimals h none others decimals
  | some w => rw [writeField, writeField, unpadded_decimals h (some w) others decimals]

/-- An integer in the widest field, with decimals and without. -/
theorem printed_fields_integer :
    Value.type (.integer (-7)) ≠ .real
      ∧ HasShape (.integer (-7)) (some 300) (some 2)
      ∧ writeField (.integer (-7)) (some 300) none
        = writeField (.integer (-7)) (some 300) (some 2) :=
  ⟨by decide, (printed_fields _ _ _).1.2 (fun ⟨_, h, _⟩ => nomatch h),
    (printed_fields _ _ _).2 (by decide) none⟩

/-- The negative zero without a width: a blank stands in front of the minus sign. -/
theorem negative_zero_has_two_sign_columns :
    writeField (.real (-0.0)) none none = " -0.0000000000E+00"
      ∧ ¬ HasShape (.real (-0.0)) none none :=
  ⟨by decide +kernel, not_hasShape_negativeZero rfl⟩

end TurboBench.Pascal
