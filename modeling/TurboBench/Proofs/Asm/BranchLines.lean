import Mathlib
import TurboBench.Proofs.Asm.Arguments
import TurboBench.Proofs.Asm.TwoPasses
import TurboBench.Proofs.Text.Folding
import TurboBench.Proofs.Text.Words

/-!
# Lines with a branch

How a line is read that holds a branch to a name: `IsBranchTo` says what stands on such a line, in
whatever case and with whatever blanks, and the rest is what the readers of directives, of
instructions and of operands make of it.

The characters of a label are ASCII, and so are those of a mnemonic. None of them is a blank, a
quotation mark, a semicolon, a comma or a parenthesis, which is why nothing is cut off such a line
and its parts are found where they stand. What is known of single characters is decided over ASCII.
-/

set_option autoImplicit false

namespace TurboBench.Asm

open TurboBench.Text (apply_toLower isBlank trim trimLeft lower words firstWord)

/-! ## Characters -/

/-- All that a label is made of has seven bits. -/
theorem toNat_lt_of_isLabelPart {c : Char} (h : isLabelPart c = true) : c.toNat < 0x80 := by
  have hnat : c.toNat = c.val.toNat := rfl
  have hZ : 'Z'.val.toNat = 0x5A := rfl
  have hz : 'z'.val.toNat = 0x7A := rfl
  have h9 : '9'.val.toNat = 0x39 := rfl
  simp only [isLabelPart, isLabelStart, Char.isAlpha, Char.isUpper, Char.isLower, Char.isDigit,
    Bool.or_eq_true, Bool.and_eq_true, decide_eq_true_eq, beq_iff_eq, ge_iff_le,
    UInt32.le_iff_toNat_le] at h
  rcases h with (((((h | rfl) | rfl) | rfl) | rfl) | rfl) | h
  case inr => omega
  case inl.inl.inl.inl.inl.inl => omega
  all_goals decide

/-- What is decided for the characters of ASCII holds of those of labels. -/
theorem of_isLabelPart {P : Char → Prop} (h : ∀ n < 0x80, isLabelPart (Char.ofNat n) = true →
    P (Char.ofNat n)) {c : Char} (hc : isLabelPart c = true) : P c := by
  have hP := h c.toNat (toNat_lt_of_isLabelPart hc)
  rw [Char.ofNat_toNat] at hP
  exact hP hc

theorem not_blank_of_isLabelPart {c : Char} (h : isLabelPart c = true) : isBlank c = false :=
  of_isLabelPart (P := fun c => isBlank c = false) (by decide) h

/-- A character that neither opens a quotation nor begins a comment. -/
def IsPlain (c : Char) : Prop :=
  isQuote c = false ∧ c ≠ ';'

theorem isPlain_of_isLabelPart {c : Char} (h : isLabelPart c = true) : IsPlain c :=
  of_isLabelPart (P := fun c => isQuote c = false ∧ c ≠ ';') (by decide) h

/-- A blank opens no comment and no quotation. -/
theorem isPlain_of_isBlank {c : Char} (h : isBlank c = true) : IsPlain c := by
  refine ⟨Bool.eq_false_iff.2 fun hquote => ?_, ?_⟩
  · simp only [isQuote, Bool.or_eq_true, beq_iff_eq] at hquote
    rcases hquote with rfl | rfl <;> exact absurd h (by decide)
  · rintro rfl
    exact absurd h (by decide)

theorem quoteAfter_of_isPlain {c : Char} (h : IsPlain c) : quoteAfter none c = none := by
  simp [quoteAfter, h.1]

theorem of_isLabelStart {P : Char → Prop} (h : ∀ n < 0x80, isLabelStart (Char.ofNat n) = true →
    P (Char.ofNat n)) {c : Char} (hc : isLabelStart c = true) : P c := by
  have hpart : isLabelPart c = true := by rw [isLabelPart, hc, Bool.true_or]
  exact of_isLabelPart (P := fun c => isLabelStart c = true → P c) (fun n hn _ => h n hn) hpart hc

/-- A text that a label may have. -/
def IsLabelText (cs : List Char) : Prop :=
  ∃ c tail, cs = c :: tail ∧ isLabelStart c = true ∧ ∀ d ∈ tail, isLabelPart d = true

namespace IsLabelText

variable {cs : List Char}

theorem ne_nil (h : IsLabelText cs) : cs ≠ [] := by
  obtain ⟨c, tail, rfl, -⟩ := h
  exact List.cons_ne_nil c tail

theorem isLabelPart (h : IsLabelText cs) : ∀ c ∈ cs, isLabelPart c = true := by
  obtain ⟨c, tail, rfl, hc, htail⟩ := h
  refine List.forall_mem_cons.2 ⟨?_, htail⟩
  rw [Asm.isLabelPart, hc, Bool.true_or]

theorem not_blank (h : IsLabelText cs) : ∀ c ∈ cs, isBlank c = false :=
  fun c hc => not_blank_of_isLabelPart (h.isLabelPart c hc)

end IsLabelText

/-- Capitals make no difference to what a label may be. -/
theorem isLabelText_toLower {cs : List Char} :
    IsLabelText (cs.map Char.toLower) ↔ IsLabelText cs := by
  have hstart (c : Char) : isLabelStart c.toLower = isLabelStart c :=
    apply_toLower (by decide) c
  have hpart (c : Char) : isLabelPart c.toLower = isLabelPart c :=
    apply_toLower (by decide) c
  cases cs with
  | nil => simp [IsLabelText]
  | cons c cs => simp [IsLabelText, hstart, hpart]

/-! ## Comments -/

section Comments

variable {quote : Option Char} {cs : List Char}

/-- Nothing plain is cut off with a comment. -/
theorem beforeComment_append_of_isPlain (h : ∀ c ∈ cs, IsPlain c) (behind : List Char) :
    beforeComment none (cs ++ behind) = cs ++ beforeComment none behind := by
  induction cs with
  | nil => rfl
  | cons c cs ih =>
    obtain ⟨hc, hcs⟩ := List.forall_mem_cons.1 h
    rw [List.cons_append, beforeComment, if_neg fun hsemicolon => hc.2 hsemicolon.2,
      quoteAfter_of_isPlain hc, ih hcs, List.cons_append]

theorem stripComment_of_isPlain (h : ∀ c ∈ cs, IsPlain c) : stripComment cs = cs := by
  have happend := beforeComment_append_of_isPlain h []
  rwa [beforeComment, List.append_nil] at happend

/-- What stands before a comment has no comment in it. -/
theorem beforeComment_beforeComment (quote : Option Char) (cs : List Char) :
    beforeComment quote (beforeComment quote cs) = beforeComment quote cs := by
  induction cs generalizing quote with
  | nil => rfl
  | cons c cs ih =>
    rw [beforeComment]
    split
    · rfl
    · rename_i hc
      rw [beforeComment, if_neg hc, ih]

/-- Nor has the front of a text without one. -/
theorem beforeComment_of_prefix {front behind : List Char}
    (h : beforeComment quote (front ++ behind) = front ++ behind) :
    beforeComment quote front = front := by
  induction front generalizing quote with
  | nil => rfl
  | cons c front ih =>
    rw [List.cons_append, beforeComment] at h
    split at h
    · exact absurd h (by simp)
    · rename_i hc
      rw [beforeComment, if_neg hc, ih (List.cons.inj h).2]

theorem beforeComment_of_blanks {gap behind : List Char} (hgap : ∀ c ∈ gap, isBlank c = true)
    (h : beforeComment none (gap ++ behind) = gap ++ behind) :
    beforeComment none behind = behind := by
  rw [beforeComment_append_of_isPlain fun c hc => isPlain_of_isBlank (hgap c hc)] at h
  exact List.append_cancel_left h

/-- Nothing is left to cut off a line that was freed of its comment and its outer blanks. -/
theorem stripComment_trim_stripComment (text : List Char) :
    stripComment (trim (stripComment text)) = trim (stripComment text) := by
  have hstripped : beforeComment none (stripComment text) = stripComment text :=
    beforeComment_beforeComment none text
  have hleft :
      beforeComment none (trimLeft (stripComment text)) = trimLeft (stripComment text) := by
    have hgap : ∀ c ∈ (stripComment text).takeWhile isBlank, isBlank c = true :=
      fun c hc => List.mem_takeWhile_imp hc
    refine beforeComment_of_blanks hgap ?_
    rw [trimLeft, List.takeWhile_append_dropWhile, hstripped]
  -- What is cut off at the end are the blanks that the reversed text begins with.
  have hright : trim (stripComment text) ++ ((trimLeft (stripComment text)).reverse.takeWhile
      isBlank).reverse = trimLeft (stripComment text) := by
    rw [trim, Text.trimRight, ← List.reverse_append, List.takeWhile_append_dropWhile,
      List.reverse_reverse]
  rw [← hright] at hleft
  exact beforeComment_of_prefix hleft

end Comments

/-- A line has no label if no colon stands behind the characters of labels that it begins with. -/
theorem splitLabel_of_no_colon {line : List Char}
    (h : ∀ c ∈ (trimLeft ((trim line).dropWhile isLabelPart)).head?, c ≠ ':') :
    splitLabel line = (none, trim line) := by
  unfold splitLabel
  simp only
  split
  · rename_i hrest
    rw [hrest] at h
    exact absurd rfl (h ':' rfl)
  · rfl

/-! ## What stands on the line -/

/-- The line holds a branch to a name, in any case. It may have a label and a comment. -/
def IsBranchTo (m : Mnemonic) (name : String) (text : List Char) : Prop :=
  ∃ word gap target, lineContent text = word ++ (gap ++ target)
    ∧ word.map Char.toLower = m.name.toList ∧ target.map Char.toLower = name.toList
    ∧ gap ≠ [] ∧ ∀ c ∈ gap, isBlank c = true

theorem isLabelText_mnemonic (m : Mnemonic) : IsLabelText m.name.toList := by
  cases m <;> exact ⟨_, _, rfl, by decide, List.all_eq_true.1 (by decide)⟩

/-- The label of a line is spelled as labels are. -/
theorem isLabelText_of_lineLabel {text : List Char} {name : String}
    (h : lineLabel text = some name) : IsLabelText name.toList := by
  unfold lineLabel splitLabel at h
  simp only at h
  split at h
  · rename_i c tail rest hname hrest
    split at h
    · rename_i hc
      have hparts : ∀ d ∈ c :: tail, isLabelPart d = true := by
        rw [← hname]
        exact fun d hd => List.mem_takeWhile_imp hd
      rw [← Option.some.inj h, String.toList_ofList, hname, isLabelText_toLower]
      exact ⟨c, tail, rfl, hc, fun d hd => hparts d (List.mem_cons_of_mem c hd)⟩
    · exact absurd h (by simp)
  · exact absurd h (by simp)

section Reading

variable {word gap target : List Char}

/-- A line of a word and a target has nothing in it but blanks and what labels are made of. -/
theorem labelPart_or_blank (hword : IsLabelText word) (htarget : IsLabelText target)
    (hblank : ∀ c ∈ gap, isBlank c = true) :
    ∀ c ∈ word ++ (gap ++ target), isLabelPart c = true ∨ isBlank c = true := by
  intro c hc
  rcases List.mem_append.1 hc with hc | hc
  · exact .inl (hword.isLabelPart c hc)
  · exact (List.mem_append.1 hc).symm.imp (htarget.isLabelPart c) (hblank c)

/-- A line of two texts of labels is read as a directive by its words in small letters. -/
theorem directive_of_pair (hword : IsLabelText word) (htarget : IsLabelText target)
    (hgap : gap ≠ []) (hblank : ∀ c ∈ gap, isBlank c = true) :
    Directive.read? (word ++ (gap ++ target))
      = Directive.ofWords? [word.map Char.toLower, target.map Char.toLower] := by
  have hchars := labelPart_or_blank hword htarget hblank
  have hplain : stripComment (word ++ (gap ++ target)) = word ++ (gap ++ target) :=
    stripComment_of_isPlain fun c hc => (hchars c hc).elim isPlain_of_isLabelPart isPlain_of_isBlank
  have hlower : lower (word ++ (gap ++ target))
      = word.map Char.toLower ++ (gap ++ target.map Char.toLower) := by
    have hgap : gap.map Char.toLower = gap.map id :=
      List.map_congr_left fun c hc => Text.toLower_of_isBlank (hblank c hc)
    rw [List.map_id] at hgap
    rw [Text.lower_of_ascii_or_blank fun c hc => (hchars c hc).imp_left toNat_lt_of_isLabelPart,
      List.map_append, List.map_append, hgap]
  have hword' := isLabelText_toLower.2 hword
  have htarget' := isLabelText_toLower.2 htarget
  rw [Directive.read?, hplain, Text.trim_pair hword.ne_nil hword.not_blank htarget.ne_nil
    htarget.not_blank, hlower, Text.words_pair hword'.ne_nil hword'.not_blank htarget'.ne_nil
    htarget'.not_blank hgap hblank]

theorem isUnmarked_of_isLabelPart {c : Char} (h : isLabelPart c = true) : IsUnmarked c :=
  isUnmarked_of (p := isLabelPart) (by decide) h

/-- A label is one argument: it holds no comma. -/
theorem arguments_of_isLabelText (h : IsLabelText target) : arguments target = [target] := by
  have htrim : trim target = target := Text.trim_of_no_blank h.not_blank
  have hunsplit : Unsplit 0 target :=
    .of_unmarked (fun c hc => isUnmarked_of_isLabelPart (h.isLabelPart c hc)) 0
  rw [arguments_of_unsplit hunsplit (by rw [htrim]; exact h.ne_nil), htrim]

end Reading

/-! ## Operands -/

/-- A character that a label may have, but no name in an operand. -/
def isLabelOnly (c : Char) : Bool :=
  c == '.' || c == '$' || c == '@'

section Operands

variable {target : List Char} {name : String}

/-- A label is no number, since numbers begin with a digit. -/
theorem immediate?_of_isLabelText (h : IsLabelText target) : immediate? target = none := by
  simp only [immediate?, Text.trim_of_no_blank h.not_blank]
  split
  · rfl
  · obtain ⟨c, tail, rfl, hc, -⟩ := h
    -- Numbers of all three forms begin with a digit.
    have hdigit : c.isDigit = false :=
      of_isLabelStart (P := fun c => c.isDigit = false) (by decide) hc
    have hzero : c ≠ '0' := by
      rintro rfl
      exact absurd hdigit (by decide)
    simp [numberOf?, hdigit, hzero]

/-- A label is read as a name if nothing in it is allowed in labels alone. -/
theorem isName_iff (h : IsLabelText target) :
    isName target = true ↔ ∀ c ∈ target, isLabelOnly c = false := by
  obtain ⟨c, tail, rfl, hc, htail⟩ := h
  have hstart : isNameStart c = !isLabelOnly c :=
    of_isLabelStart (P := fun c => isNameStart c = !isLabelOnly c) (by decide) hc
  have hpart (d : Char) (hd : d ∈ tail) : (isNameStart d || d.isDigit) = !isLabelOnly d :=
    of_isLabelPart (P := fun d => (isNameStart d || d.isDigit) = !isLabelOnly d) (by decide)
      (htail d hd)
  rw [isName, hstart, Bool.and_eq_true, List.all_eq_true, List.forall_mem_cons, Bool.not_eq_true']
  refine and_congr_right fun _ => forall_congr' fun d => ?_
  refine imp_congr_right fun hd => ?_
  rw [hpart d hd, Bool.not_eq_true']

/-- A label that an operand can name: its characters are those of names, and it is neither that of
a register nor the name of a unit of data. -/
structure IsOperandName (name : String) : Prop where
  chars : ∀ c ∈ name.toList, isLabelOnly c = false
  register : Register.ofName? name = none
  unit : DataUnit.ofName? name = none

/-- A label as an operand is a register, if it is spelled like one, else a name, if it can be
one. -/
theorem operand_read (h : IsLabelText target) (hname : target.map Char.toLower = name.toList) :
    Operand.read target
      = match Register.ofName? name with
        | some r => .register r
        | none => if isName target then .label name else .unsupported (String.ofList target) := by
  have hlower : lower target = name.toList := by
    rw [Text.lower_of_ascii fun c hc => toNat_lt_of_isLabelPart (h.isLabelPart c hc), hname]
  cases hregister : Register.ofName? name <;>
    simp only [Operand.read, Text.trim_of_no_blank h.not_blank, hlower, String.ofList_toList,
      immediate?_of_isLabelText h, hregister]

/-- The text of a label is the operand of that name, or it is encoded as a zero byte. -/
theorem operand_cases (h : IsLabelText target) (hname : target.map Char.toLower = name.toList)
    (hunit : DataUnit.ofName? name = none) :
    (IsOperandName name ∧ Operand.read target = .label name)
      ∨ (¬ IsOperandName name ∧ ∀ labels, (Operand.read target).encode labels = [0]) := by
  have hfold (c : Char) : isLabelOnly c.toLower = isLabelOnly c :=
    apply_toLower (by decide) c
  have hchars : isName target = true ↔ ∀ c ∈ name.toList, isLabelOnly c = false := by
    rw [isName_iff h, ← hname, List.forall_mem_map]
    simp only [hfold]
  rw [operand_read h hname]
  cases hregister : Register.ofName? name with
  | some r =>
    refine .inr ⟨fun hop => ?_, fun labels => rfl⟩
    rw [hop.register] at hregister
    exact absurd hregister (by simp)
  | none =>
    by_cases hn : isName target = true
    · exact .inl ⟨⟨hchars.1 hn, hregister, hunit⟩, by simp only [if_pos hn]⟩
    · refine .inr ⟨fun hop => hn (hchars.2 hop.chars), fun labels => ?_⟩
      simp only [if_neg hn]
      rfl

end Operands

/-! ## The whole line -/

section Line

variable {word gap target text : List Char} {m : Mnemonic}

/-- What is read as an instruction on a line without a comment is read from its content. -/
theorem lineParts_eq (hne : lineContent text ≠ []) :
    lineParts (trim (stripComment text))
      = ⟨lineLabel text, some (String.ofList (lower (firstWord (lineContent text)).1)),
        arguments (firstWord (lineContent text)).2⟩ := by
  unfold lineParts
  rw [stripComment_trim_stripComment]
  simp only
  rw [if_neg]
  · rfl
  · rw [List.isEmpty_iff]
    exact hne

/-- A line of a mnemonic and a target is an instruction with this one operand. -/
theorem instruction_of_pair (hline : lineContent text = word ++ (gap ++ target))
    (hword : word.map Char.toLower = m.name.toList) (htarget : IsLabelText target)
    (hgap : gap ≠ []) (hblank : ∀ c ∈ gap, isBlank c = true) (n : Nat) :
    ∃ i, Instruction.read? n (trim (stripComment text)) = some i ∧ i.line = n
      ∧ i.mnemonic = m ∧ i.operands = [Operand.read target] := by
  have hlabel : IsLabelText word := by
    rw [← isLabelText_toLower, hword]
    exact isLabelText_mnemonic m
  have hlower : lower word = m.name.toList := by
    rw [Text.lower_of_ascii fun c hc => toNat_lt_of_isLabelPart (hlabel.isLabelPart c hc), hword]
  have hne : lineContent text ≠ [] := by simp [hline, hgap]
  have hparts := lineParts_eq hne
  rw [hline, Text.firstWord_pair hlabel.ne_nil hlabel.not_blank htarget.not_blank hgap hblank,
    hlower, String.ofList_toList, arguments_of_isLabelText htarget] at hparts
  refine ⟨⟨n, String.ofList (trim (trim (stripComment text))), m, [Operand.read target]⟩, ?_,
    rfl, rfl, rfl⟩
  rw [Instruction.read?, hparts]
  simp only [Option.bind_some, Mnemonic.ofName?_name, Option.map_some, List.map_cons, List.map_nil]

/-- What is no directive is what it is read as. -/
theorem content_of_instruction {n : Nat} {i : Instruction} (hne : lineContent text ≠ [])
    (hdirective : Directive.read? (lineContent text) = none)
    (hread : Instruction.read? n (trim (stripComment text)) = some i) :
    (SourceLine.read n text).content = .instruction i := by
  have hempty : (lineContent text).isEmpty = false := List.isEmpty_eq_false_iff.2 hne
  unfold lineContent at hdirective hempty
  simp only [SourceLine.read, hempty, hdirective, hread]
  rfl

end Line

end TurboBench.Asm
