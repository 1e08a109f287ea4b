import TurboBench.Proofs.Asm.FoldedSources

/-!
# Numbers and the ways to write them

A number is written in decimal, in hexadecimal with a final `h` behind a leading decimal digit, or
in hexadecimal behind `0x` (`NumberForm`). Letters among the digits and the marks of the last two
forms may have either case. A text is read as a number if and only if it has one of the forms, and
the number is the one that its digits make up in their places (`numberOf?_eq_some_iff`). The marks
are no digits of base sixteen, so a text has one form at most, and one row of digits
(`Splits.unique`).

For the way back, the digits of a number are those of the base, the last one first
(`positional_toDigits`), with any zeros in front of them.
-/

set_option autoImplicit false

namespace TurboBench.Asm

open TurboBench.Text

/-! ## Digits -/

/-- The digits up to base sixteen, by their values. -/
def digitChars : List Char :=
  ['0', '1', '2', '3', '4', '5', '6', '7', '8', '9', 'a', 'b', 'c', 'd', 'e', 'f']

/-- A digit of the base, in either case. -/
def IsDigitOf (base : Nat) (c : Char) : Prop :=
  c.toLower ∈ digitChars.take base

instance (base : Nat) : DecidablePred (IsDigitOf base) := fun c =>
  inferInstanceAs (Decidable (c.toLower ∈ digitChars.take base))

/-- The value of a digit. -/
def digitOf (c : Char) : Nat :=
  digitChars.idxOf c.toLower

/-- The number that digits make up in their places, the last one counting once. -/
def positional (base : Nat) (ds : List Char) : Nat :=
  Nat.ofDigits base (ds.map digitOf).reverse

section Digits

variable {c : Char} {base : Nat}

/-- What holds of all characters of ASCII is shown by going through them. -/
theorem of_ascii {P : Char → Prop} (h : ∀ n < 0x80, P (Char.ofNat n)) (hc : c.toNat < 0x80) :
    P c := by
  have hcode := h c.toNat hc
  rwa [Char.ofNat_toNat] at hcode

/-- Two classes of characters of ASCII. -/
theorem iff_of_ascii {p q : Char → Prop} (hp : ∀ {c}, p c → c.toNat < 0x80)
    (hq : ∀ {c}, q c → c.toNat < 0x80) (h : ∀ n < 0x80, p (Char.ofNat n) ↔ q (Char.ofNat n))
    (c : Char) : p c ↔ q c :=
  ⟨fun hc => (of_ascii (P := fun c => p c ↔ q c) h (hp hc)).1 hc,
    fun hc => (of_ascii (P := fun c => p c ↔ q c) h (hq hc)).2 hc⟩

/-- What is of seven bits in small letters is so without. -/
theorem toNat_lt_of_toLower (h : c.toLower.toNat < 0x80) : c.toNat < 0x80 := by
  by_cases hupper : c.isUpper = true
  · obtain ⟨n, hn, rfl⟩ := exists_of_isUpper hupper
    have hcapitals : ∀ n < 26, (Char.ofNat (0x41 + n)).toNat < 0x80 := by decide
    exact hcapitals n hn
  · rwa [Char.toLower_eq_of_not_isUpper hupper] at h

theorem IsDigitOf.toNat_lt (h : IsDigitOf base c) : c.toNat < 0x80 := by
  have hall : digitChars.all (fun d => decide (d.toNat < 0x80)) = true := by decide
  have hlower := List.all_eq_true.1 hall _ (List.mem_of_mem_take h)
  exact toNat_lt_of_toLower (of_decide_eq_true hlower)

theorem toNat_lt_of_isDigit (h : c.isDigit = true) : c.toNat < 0x80 := by
  simp only [Char.isDigit, Bool.and_eq_true, decide_eq_true_eq, ge_iff_le] at h
  have hnine : c.toNat ≤ 57 := h.2
  omega

/-- Hexadecimal digits have seven bits. -/
theorem toNat_lt_of_isHexDigit (h : isHexDigit c = true) : c.toNat < 0x80 := by
  unfold isHexDigit hexDigit? at h
  split at h
  · exact toNat_lt_of_isDigit ‹_›
  · split at h
    · rename_i hletter
      have hlast : c.toNat ≤ 102 := hletter.2
      omega
    · split at h
      · rename_i hletter
        have hlast : c.toNat ≤ 70 := hletter.2
        omega
      · exact absurd h (by decide)

theorem isDigitOf_ten_iff (c : Char) : IsDigitOf 10 c ↔ c.isDigit = true :=
  iff_of_ascii IsDigitOf.toNat_lt toNat_lt_of_isDigit (by decide) c

theorem isDigitOf_sixteen_iff (c : Char) : IsDigitOf 16 c ↔ isHexDigit c = true :=
  iff_of_ascii IsDigitOf.toNat_lt toNat_lt_of_isHexDigit (by decide) c

theorem hexDigit?_eq (h : IsDigitOf 16 c) : hexDigit? c = some (digitOf c) :=
  of_ascii (P := fun c => IsDigitOf 16 c → hexDigit? c = some (digitOf c)) (by decide) h.toNat_lt h

theorem IsDigitOf.sixteen (h : IsDigitOf 10 c) : IsDigitOf 16 c :=
  List.take_subset_take_left _ (by decide) h

end Digits

/-! ## Values -/

section Values

variable {base : Nat} {ds : List Char}

theorem positional_append_singleton (base : Nat) (ds : List Char) (d : Char) :
    positional base (ds ++ [d]) = digitOf d + base * positional base ds := by
  rw [positional, positional, List.map_append, List.reverse_append, List.map_singleton,
    List.reverse_singleton, List.singleton_append, Nat.ofDigits_cons]

/-- Reading digits from the left makes up the number in their places. -/
theorem digitsValue_eq (h : ∀ d ∈ ds, IsDigitOf 16 d) (base : Nat) :
    digitsValue base ds = positional base ds := by
  induction ds using List.reverseRecOn with
  | nil => rfl
  | append_singleton ds d ih =>
    obtain ⟨hds, hd⟩ := List.forall_mem_append.1 h
    have hlast : (hexDigit? d).getD 0 = digitOf d := by
      rw [hexDigit?_eq (hd d List.mem_cons_self)]
      rfl
    rw [positional_append_singleton, ← ih hds, ← hlast, Nat.add_comm]
    exact List.foldl_append

/-- Zeros in front change no value. -/
theorem positional_zeros (base zeros : Nat) (ds : List Char) :
    positional base (List.replicate zeros '0' ++ ds) = positional base ds := by
  induction ds using List.reverseRecOn with
  | nil =>
    induction zeros with
    | zero => rfl
    | succ zeros ih =>
      rw [List.append_nil] at ih ⊢
      rw [List.replicate_succ', positional_append_singleton, ih]
      exact Nat.zero_add _
  | append_singleton ds d ih =>
    rw [← List.append_assoc, positional_append_singleton, ih, positional_append_singleton]

theorem digitChar_mem {d : Nat} (hd : d < base) (hbase : base ≤ 16) :
    IsDigitOf base d.digitChar ∧ digitOf d.digitChar = d := by
  have hall : ∀ b ≤ 16, ∀ d < b, IsDigitOf b d.digitChar ∧ digitOf d.digitChar = d := by decide
  exact hall base hbase d hd

/-- The digits of a number in a base make it up again. -/
theorem positional_toDigits (hlow : 1 < base) (hhigh : base ≤ 16) (n : Nat) :
    positional base (Nat.toDigits base n) = n ∧ ∀ d ∈ Nat.toDigits base n, IsDigitOf base d := by
  induction n using Nat.strongRecOn with
  | ind n ih =>
    by_cases hn : n < base
    · obtain ⟨hdigit, hvalue⟩ := digitChar_mem hn hhigh
      rw [Nat.toDigits_of_lt_base hn]
      refine ⟨?_, List.forall_mem_singleton.2 hdigit⟩
      have hone := positional_append_singleton base [] n.digitChar
      rw [List.nil_append] at hone
      rw [hone, hvalue]
      exact Nat.add_zero n
    · obtain ⟨hvalue, hdigits⟩ := ih (n / base) (Nat.div_lt_self (by omega) hlow)
      obtain ⟨hlast, hlastValue⟩ := digitChar_mem (Nat.mod_lt n (by omega)) hhigh
      rw [Nat.toDigits_of_base_le hlow (Nat.not_lt.1 hn), positional_append_singleton, hvalue,
        hlastValue]
      exact ⟨Nat.mod_add_div n base,
        List.forall_mem_append.2 ⟨hdigits, List.forall_mem_singleton.2 hlast⟩⟩

end Values

/-! ## Forms -/

/-- The ways to write a number. -/
inductive NumberForm where
  | decimal | suffixed | prefixed
  deriving DecidableEq, Repr

namespace NumberForm

/-- The base of the digits. -/
def radix : NumberForm → Radix
  | decimal => .decimal
  | suffixed | prefixed => .hexadecimal

/-- The text is a number of the form, and these are its digits. -/
def Splits : NumberForm → List Char → List Char → Prop
  | decimal, cs, ds => ds ≠ [] ∧ (∀ d ∈ ds, IsDigitOf 10 d) ∧ cs = ds
  | suffixed, cs, ds => (∃ d ∈ ds.head?, IsDigitOf 10 d) ∧ (∀ d ∈ ds, IsDigitOf 16 d)
      ∧ ∃ mark, (mark = 'h' ∨ mark = 'H') ∧ cs = ds ++ [mark]
  | prefixed, cs, ds => ds ≠ [] ∧ (∀ d ∈ ds, IsDigitOf 16 d)
      ∧ ∃ mark, (mark = 'x' ∨ mark = 'X') ∧ cs = '0' :: mark :: ds

/-- The characters of a number that are no digits. -/
def marks : NumberForm → List Char
  | decimal => []
  | suffixed => ['h', 'H']
  | prefixed => ['x', 'X']

/-- A number in the form, with zeros in front of its digits. A number with a final mark begins with
a decimal digit, so it may need one zero more. -/
def render (zeros n : Nat) (f : NumberForm) : List Char :=
  let ds := List.replicate zeros '0' ++ Nat.toDigits f.radix.base n
  match f with
  | decimal => ds
  | suffixed => (if ds.head?.any Char.isDigit then ds else '0' :: ds) ++ ['h']
  | prefixed => '0' :: 'x' :: ds

variable {f g : NumberForm} {cs ds es : List Char}

/-- The digits of a number of any form are hexadecimal ones at least. -/
theorem Splits.isDigitOf (h : f.Splits cs ds) : ∀ d ∈ ds, IsDigitOf 16 d := by
  cases f with
  | decimal => exact fun d hd => (h.2.1 d hd).sixteen
  | suffixed => exact h.2.1
  | prefixed => exact h.2.1

/-- What is no digit is a mark of the form, and a form that has marks has one in the text. -/
theorem Splits.marks (h : f.Splits cs ds) :
    (∀ c ∈ cs, ¬ IsDigitOf 16 c → c ∈ f.marks) ∧ (f = decimal ∨ ∃ c ∈ cs, c ∈ f.marks) := by
  have hdigits := h.isDigitOf
  cases f with
  | decimal =>
    obtain ⟨-, -, rfl⟩ := h
    exact ⟨fun c hc hnot => absurd (hdigits c hc) hnot, .inl rfl⟩
  | suffixed =>
    obtain ⟨-, -, mark, hmark, rfl⟩ := h
    have hmem : mark ∈ suffixed.marks := by simpa [NumberForm.marks] using hmark
    refine ⟨List.forall_mem_append.2 ⟨fun c hc hnot => absurd (hdigits c hc) hnot,
      List.forall_mem_singleton.2 fun _ => hmem⟩, .inr ⟨mark, by simp, hmem⟩⟩
  | prefixed =>
    obtain ⟨-, -, mark, hmark, rfl⟩ := h
    have hmem : mark ∈ prefixed.marks := by simpa [NumberForm.marks] using hmark
    refine ⟨List.forall_mem_cons.2 ⟨fun hnot => absurd (by decide) hnot,
      List.forall_mem_cons.2 ⟨fun _ => hmem, fun c hc hnot => absurd (hdigits c hc) hnot⟩⟩,
      .inr ⟨mark, by simp, hmem⟩⟩

/-- The marks of a form are no digits, so they are not mistaken for any. -/
theorem not_isDigitOf_of_mem_marks {c : Char} (h : c ∈ f.marks) : ¬ IsDigitOf 16 c := by
  have hall : ∀ f : NumberForm, f.marks.all (fun c => decide (¬ IsDigitOf 16 c)) = true := by
    intro f
    cases f <;> decide
  exact of_decide_eq_true (List.all_eq_true.1 (hall f) c h)

theorem eq_of_mem_marks {c : Char} (hf : c ∈ f.marks) (hg : c ∈ g.marks) : f = g := by
  cases f <;> cases g <;> simp only [NumberForm.marks, List.mem_cons, List.not_mem_nil] at hf hg ⊢
  · rcases hf with rfl | rfl | hf <;> simp_all
  · rcases hf with rfl | rfl | hf <;> simp_all

/-- **A text has one form at most, and its digits are determined.** -/
theorem Splits.unique (hf : f.Splits cs ds) (hg : g.Splits cs es) : f = g ∧ ds = es := by
  have hform : f = g := by
    rcases hf.marks.2 with hdecimal | ⟨c, hc, hmark⟩
    · rcases hg.marks.2 with hdecimal' | ⟨c, hc, hmark⟩
      · rw [hdecimal, hdecimal']
      · exact eq_of_mem_marks (hf.marks.1 c hc (not_isDigitOf_of_mem_marks hmark)) hmark
    · exact eq_of_mem_marks hmark (hg.marks.1 c hc (not_isDigitOf_of_mem_marks hmark))
  subst hform
  refine ⟨rfl, ?_⟩
  cases f with
  | decimal => exact hf.2.2.symm.trans hg.2.2
  | suffixed =>
    obtain ⟨-, -, mark, -, rfl⟩ := hf
    obtain ⟨-, -, mark', -, heq⟩ := hg
    exact (List.append_inj' heq rfl).1
  | prefixed =>
    obtain ⟨-, -, mark, -, rfl⟩ := hf
    obtain ⟨-, -, mark', -, heq⟩ := hg
    exact (List.cons.inj (List.cons.inj heq).2).2

/-! ## Reading -/

theorem all_isDigit_iff (cs : List Char) :
    cs.all Char.isDigit = true ↔ ∀ c ∈ cs, IsDigitOf 10 c := by
  simp only [List.all_eq_true, isDigitOf_ten_iff]

theorem all_isHexDigit_iff (cs : List Char) :
    cs.all isHexDigit = true ↔ ∀ c ∈ cs, IsDigitOf 16 c := by
  simp only [List.all_eq_true, isDigitOf_sixteen_iff]

/-- A text of one of the forms is read as what its digits make up. -/
theorem numberOf?_of_splits (h : f.Splits cs ds) :
    numberOf? cs = some (positional f.radix.base ds, f.radix) := by
  have hvalue := digitsValue_eq h.isDigitOf f.radix.base
  have hmark {mark : Char} (hmem : mark ∈ f.marks) (hcs : mark ∈ cs) :
      ¬ (cs ≠ [] ∧ cs.all Char.isDigit = true) := fun hall =>
    not_isDigitOf_of_mem_marks hmem ((all_isDigit_iff cs).1 hall.2 mark hcs).sixteen
  cases f with
  | decimal =>
    obtain ⟨hne, hdigits, rfl⟩ := h
    unfold numberOf?
    rw [if_pos ⟨hne, (all_isDigit_iff cs).2 hdigits⟩]
    exact congrArg (fun n => some (n, Radix.decimal)) hvalue
  | suffixed =>
    obtain ⟨⟨d, hd, hdigit⟩, hdigits, mark, hlast, rfl⟩ := h
    obtain ⟨tail, rfl⟩ : ∃ tail, ds = d :: tail := List.head?_eq_some_iff.1 hd
    have hrest : d.isDigit = true
        ∧ ((tail ++ [mark]).getLast? = some 'h' ∨ (tail ++ [mark]).getLast? = some 'H')
        ∧ (tail ++ [mark]).dropLast.all isHexDigit = true := by
      rw [List.getLast?_concat, List.dropLast_concat, all_isHexDigit_iff]
      exact ⟨(isDigitOf_ten_iff d).1 hdigit, by simpa using hlast,
        (List.forall_mem_cons.1 hdigits).2⟩
    unfold numberOf?
    rw [if_neg (hmark (by simpa [NumberForm.marks] using hlast) (by simp)), List.cons_append]
    simp only
    rw [if_pos hrest, List.dropLast_concat]
    exact congrArg (fun n => some (n, Radix.hexadecimal)) hvalue
  | prefixed =>
    obtain ⟨hne, hdigits, mark, hmarked, rfl⟩ := h
    have hmem : mark ∈ NumberForm.prefixed.marks := by
      simpa [NumberForm.marks] using hmarked
    have hnot : ¬ IsDigitOf 16 mark := not_isDigitOf_of_mem_marks hmem
    -- The mark stands among the digits of a number with a final mark.
    have hrest : ¬ ((mark :: ds).dropLast.all isHexDigit = true) := by
      rw [all_isHexDigit_iff, List.dropLast_cons_of_ne_nil hne]
      exact fun hall => hnot (hall mark List.mem_cons_self)
    have hcs : mark ∈ '0' :: mark :: ds := List.mem_cons_of_mem _ List.mem_cons_self
    rw [numberOf?, if_neg (hmark hmem hcs), if_neg fun hall => hrest hall.2.2,
      if_pos ⟨hmarked, hne, (all_isHexDigit_iff ds).2 hdigits⟩]
    exact congrArg (fun n => some (n, Radix.hexadecimal)) hvalue

/-- What is read as a number has one of the three forms. -/
theorem exists_splits_of_numberOf? {p : Nat × Radix} (h : numberOf? cs = some p) :
    ∃ f ds, NumberForm.Splits f cs ds := by
  unfold numberOf? at h
  -- The three forms are tried in this order: decimal, with a mark behind, and with a mark in front.
  split at h
  · rename_i hdigits
    exact ⟨decimal, cs, hdigits.1, (all_isDigit_iff cs).1 hdigits.2, rfl⟩
  · split at h
    · cases h
    · rename_i c rest _
      split at h
      · rename_i hmarked
        obtain ⟨hdigit, hlast, hdigits⟩ := hmarked
        obtain ⟨mark, hmark, hsplit⟩ : ∃ mark, (mark = 'h' ∨ mark = 'H')
            ∧ rest = rest.dropLast ++ [mark] := by
          rcases hlast with hlast | hlast
          · exact ⟨'h', .inl rfl, (List.dropLast_append_getLast? _ hlast).symm⟩
          · exact ⟨'H', .inr rfl, (List.dropLast_append_getLast? _ hlast).symm⟩
        have hten := (isDigitOf_ten_iff c).2 hdigit
        exact ⟨suffixed, c :: rest.dropLast, ⟨c, rfl, hten⟩,
          List.forall_mem_cons.2 ⟨hten.sixteen, (all_isHexDigit_iff _).1 hdigits⟩, mark, hmark,
          congrArg (c :: ·) hsplit⟩
      · split at h
        · rename_i mark ds _ _
          split at h
          · rename_i hmarked
            exact ⟨prefixed, ds, hmarked.2.1, (all_isHexDigit_iff ds).1 hmarked.2.2, mark,
              hmarked.1, rfl⟩
          · cases h
        · cases h

/-- **A text is read as a number if and only if it has one of the forms.** -/
theorem numberOf?_eq_some_iff (cs : List Char) (n : Nat) (radix : Radix) :
    numberOf? cs = some (n, radix) ↔ ∃ (f : NumberForm) (ds : List Char),
      f.Splits cs ds ∧ n = positional f.radix.base ds ∧ radix = f.radix := by
  constructor
  · intro h
    obtain ⟨f, ds, hsplits⟩ := exists_splits_of_numberOf? h
    rw [numberOf?_of_splits hsplits] at h
    obtain ⟨hvalue, hradix⟩ := Prod.mk.inj (Option.some.inj h)
    exact ⟨f, ds, hsplits, hvalue.symm, hradix.symm⟩
  · rintro ⟨f, ds, hsplits, rfl, rfl⟩
    exact numberOf?_of_splits hsplits

/-! ## Writing -/

/-- A number in one of the forms, and its digits. -/
theorem exists_splits_render (f : NumberForm) (zeros n : Nat) :
    ∃ ds, f.Splits (f.render zeros n) ds ∧ positional f.radix.base ds = n := by
  have hbase : 1 < f.radix.base ∧ f.radix.base ≤ 16 := by cases f <;> decide
  obtain ⟨hvalue, hdigits⟩ := positional_toDigits hbase.1 hbase.2 n
  have hzero : IsDigitOf f.radix.base '0' := by cases f <;> decide
  have hall : ∀ d ∈ List.replicate zeros '0' ++ Nat.toDigits f.radix.base n,
      IsDigitOf f.radix.base d :=
    List.forall_mem_append.2 ⟨fun d hd => List.eq_of_mem_replicate hd ▸ hzero, hdigits⟩
  have hne : List.replicate zeros '0' ++ Nat.toDigits f.radix.base n ≠ [] :=
    List.append_ne_nil_of_right_ne_nil _ Nat.toDigits_ne_nil
  rw [← positional_zeros _ zeros] at hvalue
  unfold render
  generalize List.replicate zeros '0' ++ Nat.toDigits f.radix.base n = ds at hvalue hall hne
  -- A mark behind the digits needs a decimal digit in front, and gets a zero where there is none.
  cases f with
  | decimal => exact ⟨ds, ⟨hne, hall, rfl⟩, hvalue⟩
  | suffixed =>
    simp only
    split
    · rename_i hhead
      obtain ⟨d, hd, hdigit⟩ := (Option.any_eq_true _ _).1 hhead
      exact ⟨ds, ⟨⟨d, hd, (isDigitOf_ten_iff d).2 hdigit⟩, hall, 'h', .inl rfl, rfl⟩, hvalue⟩
    · refine ⟨'0' :: ds,
        ⟨⟨'0', rfl, by decide⟩, List.forall_mem_cons.2 ⟨hzero, hall⟩, 'h', .inl rfl, rfl⟩, ?_⟩
      exact (positional_zeros 16 1 ds).trans hvalue
  | prefixed => exact ⟨ds, ⟨hne, hall, 'x', .inl rfl, rfl⟩, hvalue⟩

/-- A number in one of the forms is read as itself, whatever the case of its letters. -/
theorem numberOf?_render (f : NumberForm) (zeros n : Nat)
    (h : folded cs = f.render zeros n) : numberOf? cs = some (n, f.radix) := by
  obtain ⟨ds, hsplits, hvalue⟩ := exists_splits_render f zeros n
  rw [← numberOf?_folded, h, numberOf?_of_splits hsplits, hvalue]

end NumberForm

end TurboBench.Asm
