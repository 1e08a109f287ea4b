import TurboBench.Proofs.Asm.WrittenNumbers
import TurboBench.Proofs.Text.SmallLetters

/-!
# The classes of operands

Every text is an operand of exactly one class. What is asked of it, in this order, is whether it is
the name of a register in any case, a number, or the name of a label; a text that is none of these
is kept as it is (`Denotes`, `read_eq_iff`).

A register is looked up by the small letters of the text, and outside ASCII there are characters
whose small forms are letters of ASCII. None of these letters is in the name of a register, so only
texts of ASCII are registers (`lower_eq_iff`).
-/

set_option autoImplicit false

namespace TurboBench.Asm

open TurboBench.Text (trim lower folded)

/-! ## Numbers -/

/-- The text is a number of at most 32 characters. -/
def IsNumber (cs : List Char) (n : Nat) (radix : Radix) : Prop :=
  cs.length ≤ 32 ∧ ∃ (f : NumberForm) (ds : List Char),
    f.Splits cs ds ∧ n = positional f.radix.base ds ∧ radix = f.radix

/-- The reader of numbers reads what is a number, and with its value and radix. -/
theorem immediate?_eq_some_iff (text : List Char) (n : Nat) (radix : Radix) :
    immediate? text = some (n, radix) ↔ IsNumber (trim text) n radix := by
  unfold immediate? IsNumber maxImmediateLength
  rw [← NumberForm.numberOf?_eq_some_iff]
  simp only
  split
  · rename_i hlong
    exact iff_of_false nofun fun h => absurd h.1 (Nat.not_le.2 hlong)
  · rename_i hshort
    exact (and_iff_right (Nat.not_lt.1 hshort)).symm

/-! ## Names -/

/-- The names of the registers. -/
def operandRegisters : List String :=
  ["ax", "bx", "cx", "dx", "si", "di", "sp", "bp", "cs", "ds", "es", "ss",
    "ah", "al", "bh", "bl", "ch", "cl", "dh", "dl"]

/-- A letter of ASCII. -/
def IsLetter (c : Char) : Prop :=
  ('a' ≤ c ∧ c ≤ 'z') ∨ ('A' ≤ c ∧ c ≤ 'Z')

/-- A character of ASCII that is a letter, a digit, an underscore or a question mark. -/
def IsNameChar (c : Char) : Prop :=
  IsLetter c ∨ IsDigitOf 10 c ∨ c = '_' ∨ c = '?'

instance : DecidablePred IsNameChar := fun c =>
  inferInstanceAs (Decidable ((('a' ≤ c ∧ c ≤ 'z') ∨ ('A' ≤ c ∧ c ≤ 'Z')) ∨ IsDigitOf 10 c
    ∨ c = '_' ∨ c = '?'))

/-- The name of a label as an operand can name it. -/
structure IsLabelName (cs : List Char) : Prop where
  ne_nil : cs ≠ []
  chars : ∀ c ∈ cs, IsNameChar c
  head : ∀ c ∈ cs.head?, ¬ IsDigitOf 10 c

/-- The operand that a text without outer white space denotes. -/
inductive Denotes (cs : List Char) : Operand → Prop where
  | register {r : Register} (hname : r.name ∈ operandRegisters)
      (h : cs.map Char.toLower = r.name.toList) : Denotes cs (.register r)
  | immediate {n : Nat} {radix : Radix}
      (hregister : ∀ name ∈ operandRegisters, cs.map Char.toLower ≠ name.toList)
      (h : IsNumber cs n radix) : Denotes cs (.immediate n radix)
  | label (hregister : ∀ name ∈ operandRegisters, cs.map Char.toLower ≠ name.toList)
      (hnumber : ∀ n radix, ¬ IsNumber cs n radix) (h : IsLabelName cs) :
      Denotes cs (.label (String.ofList (cs.map Char.toLower)))
  | unsupported (hregister : ∀ name ∈ operandRegisters, cs.map Char.toLower ≠ name.toList)
      (hnumber : ∀ n radix, ¬ IsNumber cs n radix) (hlabel : ¬ IsLabelName cs) :
      Denotes cs (.unsupported (String.ofList cs))

section Names

variable {c : Char} {cs : List Char}

/-- All that a name is made of has seven bits. -/
theorem IsNameChar.toNat_lt (h : IsNameChar c) : c.toNat < 0x80 := by
  rcases h with (⟨-, hz⟩ | ⟨-, hz⟩) | hdigit | rfl | rfl
  · have hcode : c.toNat ≤ 'z'.toNat := hz
    exact Nat.lt_of_le_of_lt hcode (by decide)
  · have hcode : c.toNat ≤ 'Z'.toNat := hz
    exact Nat.lt_of_le_of_lt hcode (by decide)
  · exact hdigit.toNat_lt
  · decide
  · decide

/-- What a name begins with has seven bits. -/
theorem toNat_lt_of_isNameStart (h : isNameStart c = true) : c.toNat < 0x80 := by
  simp only [isNameStart, Bool.or_eq_true, beq_iff_eq, Char.isAlpha, Char.isUpper, Char.isLower,
    Bool.and_eq_true, decide_eq_true_eq] at h
  rcases h with ((⟨-, hz⟩ | ⟨-, hz⟩) | rfl) | rfl
  · have hcode : c.toNat ≤ 'Z'.toNat := hz
    exact Nat.lt_of_le_of_lt hcode (by decide)
  · have hcode : c.toNat ≤ 'z'.toNat := hz
    exact Nat.lt_of_le_of_lt hcode (by decide)
  · decide
  · decide

theorem isNameStart_iff (c : Char) : isNameStart c = true ↔ IsNameChar c ∧ ¬ IsDigitOf 10 c :=
  iff_of_ascii (q := fun c => IsNameChar c ∧ ¬ IsDigitOf 10 c) toNat_lt_of_isNameStart
    (fun h => h.1.toNat_lt) (by decide) c

/-- The reader takes just the characters that names are made of. -/
theorem isNamePart_iff (c : Char) : (isNameStart c || c.isDigit) = true ↔ IsNameChar c := by
  rw [Bool.or_eq_true, isNameStart_iff, ← isDigitOf_ten_iff]
  constructor
  · rintro (h | h)
    · exact h.1
    · exact .inr (.inl h)
  · intro h
    by_cases hdigit : IsDigitOf 10 c
    · exact .inr hdigit
    · exact .inl ⟨h, hdigit⟩

/-- The reader of names takes just the names. -/
theorem isName_iff_isLabelName (cs : List Char) : isName cs = true ↔ IsLabelName cs := by
  cases cs with
  | nil => exact iff_of_false Bool.false_ne_true fun h => h.ne_nil rfl
  | cons c cs =>
    rw [isName, Bool.and_eq_true, List.all_eq_true, isNameStart_iff]
    simp only [isNamePart_iff]
    constructor
    · rintro ⟨⟨hc, hdigit⟩, hcs⟩
      exact ⟨List.cons_ne_nil c cs, List.forall_mem_cons.2 ⟨hc, hcs⟩, by simpa using hdigit⟩
    · intro h
      obtain ⟨hc, hcs⟩ := List.forall_mem_cons.1 h.chars
      exact ⟨⟨hc, h.head c rfl⟩, hcs⟩

theorem map_name_all : Register.all.map Register.name = operandRegisters := rfl

/-- The names of registers are texts of ASCII without a `k`. -/
theorem name_ascii (r : Register) : ∀ c ∈ r.name.toList, c.toNat < 0x80 ∧ c.toNat ≠ 0x6B := by
  have hall : r.name.toList.all (fun c => decide (c.toNat < 0x80 ∧ c.toNat ≠ 0x6B)) = true := by
    cases r <;> decide
  exact fun c hc => of_decide_eq_true (List.all_eq_true.1 hall c hc)

/-- A text has the small letters of a register if and only if it is its name in any case. -/
theorem lower_eq_iff (cs : List Char) (r : Register) :
    lower cs = r.name.toList ↔ cs.map Char.toLower = r.name.toList := by
  have hascii := name_ascii r
  constructor
  · intro h
    have hsmall := Text.isSmallForm_lower cs
    rw [h] at hsmall
    rw [← Text.lower_of_ascii (hsmall.toNat_lt hascii), h]
  · intro h
    rw [Text.lower_of_ascii, h]
    intro c hc
    have hmem : c.toLower ∈ r.name.toList := h ▸ List.mem_map_of_mem hc
    exact toNat_lt_of_toLower (hascii _ hmem).1

/-- A register is known by its name in any case. Full case mapping makes none of another text. -/
theorem ofName?_lower_eq_some_iff (cs : List Char) (r : Register) :
    Register.ofName? (String.ofList (lower cs)) = some r
      ↔ cs.map Char.toLower = r.name.toList := by
  rw [← lower_eq_iff]
  constructor
  · intro h
    rw [Register.name_of_ofName? h, String.toList_ofList]
  · intro h
    rw [h, String.ofList_toList, Register.ofName?_name]

theorem ofName?_lower_eq_none_iff (cs : List Char) :
    Register.ofName? (String.ofList (lower cs)) = none
      ↔ ∀ name ∈ operandRegisters, cs.map Char.toLower ≠ name.toList := by
  rw [Option.eq_none_iff_forall_not_mem, ← map_name_all, List.forall_mem_map]
  refine ⟨fun h r _ hr => h r ((ofName?_lower_eq_some_iff cs r).2 hr), fun h r hr => ?_⟩
  exact h r (by cases r <;> decide) ((ofName?_lower_eq_some_iff cs r).1 hr)

/-- The name of a label is a text of ASCII. -/
theorem IsLabelName.lower_eq (h : IsLabelName cs) : lower cs = cs.map Char.toLower :=
  Text.lower_of_ascii fun c hc => (h.chars c hc).toNat_lt

end Names

/-! ## Reading -/

theorem immediate?_eq_none_iff (text : List Char) :
    immediate? text = none ↔ ∀ n radix, ¬ IsNumber (trim text) n radix := by
  rw [Option.eq_none_iff_forall_not_mem]
  simp only [Prod.forall, Option.mem_def, immediate?_eq_some_iff]

/-- What a text denotes is what is read. -/
theorem Denotes.read_eq {text : List Char} {o : Operand} (h : Denotes (trim text) o) :
    Operand.read text = o := by
  have hnone (hnumber : ∀ n radix, ¬ IsNumber (trim text) n radix) :
      immediate? (trim text) = none :=
    (immediate?_eq_none_iff _).2 ((Text.trim_trim text).symm ▸ hnumber)
  cases h with
  | register hname h => simp only [Operand.read, (ofName?_lower_eq_some_iff _ _).2 h]
  | immediate hregister h =>
    have hsome := (immediate?_eq_some_iff (trim text) _ _).2 ((Text.trim_trim text).symm ▸ h)
    simp only [Operand.read, (ofName?_lower_eq_none_iff _).2 hregister, hsome]
  | label hregister hnumber h =>
    have hnot := (ofName?_lower_eq_none_iff _).2 hregister
    rw [h.lower_eq] at hnot
    simp only [Operand.read, h.lower_eq, hnot, hnone hnumber, (isName_iff_isLabelName _).2 h,
      if_true]
  | unsupported hregister hnumber h =>
    have hname := mt (isName_iff_isLabelName _).1 h
    simp only [Operand.read, (ofName?_lower_eq_none_iff _).2 hregister, hnone hnumber, if_neg hname]

/-- Every text denotes something. -/
theorem exists_denotes (cs : List Char) : ∃ o, Denotes cs o := by
  by_cases hregister : ∀ name ∈ operandRegisters, cs.map Char.toLower ≠ name.toList
  · by_cases hnumber : ∀ n radix, ¬ IsNumber cs n radix
    · by_cases hlabel : IsLabelName cs
      · exact ⟨_, .label hregister hnumber hlabel⟩
      · exact ⟨_, .unsupported hregister hnumber hlabel⟩
    · push Not at hnumber
      obtain ⟨n, radix, h⟩ := hnumber
      exact ⟨_, .immediate hregister h⟩
  · push Not at hregister
    obtain ⟨name, hmem, h⟩ := hregister
    obtain ⟨r, -, rfl⟩ := List.mem_map.1 (map_name_all ▸ hmem)
    exact ⟨_, .register hmem h⟩

/-- **Every text is an operand of exactly one class.** -/
theorem read_eq_iff (text : List Char) (o : Operand) :
    Operand.read text = o ↔ Denotes (trim text) o := by
  refine ⟨?_, Denotes.read_eq⟩
  rintro rfl
  obtain ⟨o, h⟩ := exists_denotes (trim text)
  rwa [h.read_eq]

/-- **Numbers and the classes of operands.** A text is a number if and only if it has one of the
three forms, one at most, within 32 characters; a number written in any of the forms is read as
itself; and every text is an operand of exactly one of the classes. -/
theorem operands_classified :
    (∀ text n radix, immediate? text = some (n, radix) ↔ IsNumber (trim text) n radix)
    ∧ (∀ (f g : NumberForm) (cs ds es : List Char),
        f.Splits cs ds → g.Splits cs es → f = g ∧ ds = es)
    ∧ (∀ (f : NumberForm) (zeros n : Nat) (text : List Char),
        folded (trim text) = f.render zeros n → (trim text).length ≤ 32 →
          immediate? text = some (n, f.radix))
    ∧ operandRegisters.length = 20
    ∧ ∀ text o, Operand.read text = o ↔ Denotes (trim text) o := by
  refine ⟨immediate?_eq_some_iff, fun f g cs ds es => NumberForm.Splits.unique,
    fun f zeros n text hrender hshort => ?_, rfl, read_eq_iff⟩
  have hnumber := f.numberOf?_render zeros n hrender
  exact (immediate?_eq_some_iff text n f.radix).2
    ⟨hshort, (NumberForm.numberOf?_eq_some_iff _ _ _).1 hnumber⟩

/-- The number 171 with blanks around it, a zero in front and letters of both cases. -/
theorem operands_classified_hexadecimal :
    folded (trim ['\t', '0', 'A', 'b', 'H', ' ']) = NumberForm.suffixed.render 0 171
      ∧ (trim ['\t', '0', 'A', 'b', 'H', ' ']).length ≤ 32
      ∧ immediate? ['\t', '0', 'A', 'b', 'H', ' '] = some (171, .hexadecimal)
      ∧ NumberForm.suffixed.Splits ['1', 'h'] ['1']
      ∧ (NumberForm.suffixed = .suffixed ∧ ['1'] = ['1']) := by
  have hrender : folded (trim ['\t', '0', 'A', 'b', 'H', ' '])
      = NumberForm.suffixed.render 0 171 := by decide
  have hshort : (trim ['\t', '0', 'A', 'b', 'H', ' ']).length ≤ 32 := by decide
  have hsplits : NumberForm.suffixed.Splits ['1', 'h'] ['1'] :=
    ⟨⟨'1', rfl, by decide⟩, List.forall_mem_singleton.2 (by decide), 'h', .inl rfl, rfl⟩
  exact ⟨hrender, hshort, operands_classified.2.2.1 .suffixed 0 171 _ hrender hshort, hsplits,
    operands_classified.2.1 _ _ _ _ _ hsplits hsplits⟩

end TurboBench.Asm
