import TurboBench.Proofs.Asm.Retouching
import TurboBench.Proofs.Text.Folding

/-!
# Sources in small letters

Case is folded where a name is read and nowhere before: quotation marks, semicolons, colons, commas
and parentheses are found in the text as it stands, a label and a mnemonic are folded when they are
cut off, a directive when its line is read, `@data` and `offset` only when the operand is used. None
of the characters that are looked for is a letter, apart from the marks of hexadecimal numbers,
which are looked for in both cases. So a source in small letters is read as the source itself is,
but for the texts that are kept (`assemble_folded`).
-/

set_option autoImplicit false

namespace TurboBench.Asm

open TurboBench.Text

/-- The retouch that puts small letters in the place of capitals. -/
def folding : Retouch :=
  ⟨id, folded, lower_folded⟩

/-! ## Characters -/

theorem isQuote_toLower (c : Char) : isQuote c.toLower = isQuote c :=
  apply_toLower (by decide) c

theorem isLabelStart_toLower (c : Char) : isLabelStart c.toLower = isLabelStart c :=
  apply_toLower (by decide) c

theorem isLabelPart_toLower (c : Char) : isLabelPart c.toLower = isLabelPart c :=
  apply_toLower (by decide) c

theorem isNameStart_toLower (c : Char) : isNameStart c.toLower = isNameStart c :=
  apply_toLower (by decide) c

theorem isDigit_toLower (c : Char) : c.toLower.isDigit = c.isDigit :=
  apply_toLower (p := Char.isDigit) (by decide) c

theorem hexDigit?_toLower (c : Char) : hexDigit? c.toLower = hexDigit? c :=
  apply_toLower (by decide) c

theorem isHexDigit_toLower (c : Char) : isHexDigit c.toLower = isHexDigit c := by
  rw [isHexDigit, hexDigit?_toLower, isHexDigit]

/-! ## Comments and labels -/

/-- An open quotation mark, if one is open. -/
def IsMark (quote : Option Char) : Prop :=
  ∀ q ∈ quote, isQuote q = true

section Lines

variable {quote : Option Char}

theorem isMark_none : IsMark none := by
  intro q hq
  exact absurd hq (Option.not_mem_none q)

/-- The quotation that one is in is opened by one of the two marks, whatever is read. -/
theorem IsMark.after (h : IsMark quote) (c : Char) : IsMark (quoteAfter quote c) := by
  intro q hq
  unfold quoteAfter at hq
  split at hq
  · split at hq
    · exact absurd hq (Option.not_mem_none q)
    · exact h q hq
  · split at hq
    · next hquote => rwa [← Option.some.inj hq]
    · exact absurd hq (Option.not_mem_none q)

theorem eq_of_isQuote {c : Char} (h : isQuote c = true) : c = '\'' ∨ c = '"' := by
  simpa [isQuote] using h

/-- Case makes no difference to which quotation one is in. -/
theorem quoteAfter_toLower (h : IsMark quote) (c : Char) :
    quoteAfter quote c.toLower = quoteAfter quote c := by
  cases quote with
  | none =>
    simp only [quoteAfter, isQuote_toLower]
    split
    · next hquote => rcases eq_of_isQuote hquote with rfl | rfl <;> rfl
    · rfl
  | some q =>
    have hmark : c.toLower = q ↔ c = q := by
      rcases eq_of_isQuote (h q rfl) with rfl | rfl
      · exact toLower_eq_iff (by decide) c
      · exact toLower_eq_iff (by decide) c
    simp only [quoteAfter, hmark]

/-- Case makes no difference to where a comment begins. -/
theorem beforeComment_folded (h : IsMark quote) (cs : List Char) :
    beforeComment quote (folded cs) = folded (beforeComment quote cs) := by
  have hsemicolon (c : Char) : c.toLower = ';' ↔ c = ';' := toLower_eq_iff (by decide) c
  induction cs generalizing quote with
  | nil => rfl
  | cons c cs ih =>
    simp only [folded_cons, beforeComment, hsemicolon, quoteAfter_toLower h, ih (h.after c)]
    split
    · rfl
    · rfl

theorem stripComment_folded (cs : List Char) :
    stripComment (folded cs) = folded (stripComment cs) :=
  beforeComment_folded isMark_none cs

/-- The label of a line is read in small letters anyway. -/
theorem splitLabel_folded (cs : List Char) :
    splitLabel (folded cs) = ((splitLabel cs).1, folded (splitLabel cs).2) := by
  have hcolon (d : Char) : d.toLower = ':' ↔ d = ':' := toLower_eq_iff (by decide) d
  unfold splitLabel
  simp only [trim_folded, takeWhile_folded isLabelPart_toLower,
    dropWhile_folded isLabelPart_toLower, trimLeft_folded]
  generalize (trim cs).takeWhile isLabelPart = name
  generalize trimLeft ((trim cs).dropWhile isLabelPart) = behind
  -- There is a label if the name is not empty, a colon follows it, and it begins like a label.
  cases name with
  | nil => rfl
  | cons c name =>
    cases behind with
    | nil => rfl
    | cons d behind =>
      by_cases hd : d = ':'
      · subst hd
        have hname : (folded (c :: name)).map Char.toLower = (c :: name).map Char.toLower :=
          folded_folded (c :: name)
        show (if isLabelStart c.toLower then _ else _) = _
        rw [isLabelStart_toLower, hname]
        by_cases hc : isLabelStart c = true
        · simp only [if_pos hc]
          exact congrArg (Prod.mk _) (trim_folded behind)
        · simp only [if_neg hc]
      · have hd' : d.toLower ≠ ':' := fun he => hd ((hcolon d).1 he)
        simp only [folded_cons]
        split
        · next heq => exact absurd (List.cons.inj heq).1 hd'
        · split
          · next heq => exact absurd (List.cons.inj heq).1 hd
          · rfl

/-! ## Arguments -/

theorem prepend_folded (c : Char) (ws : List (List Char)) :
    prepend c.toLower (ws.map folded) = (prepend c ws).map folded := by
  cases ws with
  | nil => rfl
  | cons w ws => rfl

theorem depthAfter_toLower (depth : Int) (c : Char) :
    depthAfter depth c.toLower = depthAfter depth c := by
  have hopen : c.toLower = '(' ↔ c = '(' := toLower_eq_iff (by decide) c
  have hclose : c.toLower = ')' ↔ c = ')' := toLower_eq_iff (by decide) c
  simp only [depthAfter, hopen, hclose]

/-- Case makes no difference to where arguments are cut. -/
theorem cutAtCommas_folded (h : IsMark quote) (depth : Int) (cs : List Char) :
    cutAtCommas quote depth (folded cs) = (cutAtCommas quote depth cs).map folded := by
  have hcomma (c : Char) : c.toLower = ',' ↔ c = ',' := toLower_eq_iff (by decide) c
  induction cs generalizing quote depth with
  | nil => rfl
  | cons c cs ih =>
    have hquoted := quoteAfter_toLower h c
    have hplain := quoteAfter_toLower isMark_none c
    simp only [folded_cons, cutAtCommas, hcomma, hquoted, hplain, depthAfter_toLower,
      ih (h.after c), ih isMark_none, ih (isMark_none.after c), prepend_folded]
    split
    · rfl
    · split
      · rfl
      · rfl

/-- The arguments of a folded text are those of the text, folded. -/
theorem arguments_folded (text : List Char) :
    arguments (folded text) = (arguments text).map folded := by
  have htrim : trim ∘ folded = folded ∘ trim := funext trim_folded
  have hempty : (fun w : List Char => !w.isEmpty) ∘ folded = fun w => !w.isEmpty :=
    funext fun w => congrArg (!·) (isEmpty_folded w)
  unfold arguments
  rw [cutAtCommas_folded isMark_none, List.map_map, htrim, ← List.map_map, List.filter_map, hempty]

/-- The parts of a folded line are those of the line, with folded operands. -/
theorem lineParts_folded (line : List Char) :
    lineParts (folded line)
      = { lineParts line with operands := (lineParts line).operands.map folded } := by
  unfold lineParts
  rw [stripComment_folded, splitLabel_folded]
  obtain ⟨label, rest⟩ := splitLabel (stripComment line)
  simp only [isEmpty_folded, firstWord_folded, lower_folded, arguments_folded]
  split
  · rfl
  · rfl

end Lines

/-! ## Operands -/

section Operands

theorem digitsValue_folded (base : Nat) (cs : List Char) :
    digitsValue base (folded cs) = digitsValue base cs := by
  rw [digitsValue, folded, List.foldl_map, digitsValue]
  simp only [hexDigit?_toLower]

theorem getLast?_folded (cs : List Char) :
    (folded cs).getLast? = cs.getLast?.map Char.toLower :=
  List.getLast?_map

theorem dropLast_folded (cs : List Char) : (folded cs).dropLast = folded cs.dropLast :=
  (List.map_dropLast ..).symm

/-- A mark of a hexadecimal number counts in both cases. -/
theorem mark_folded {small capital : Char}
    (h : ∀ n < 26, decide ((Char.ofNat (0x41 + n)).toLower = small
        ∨ (Char.ofNat (0x41 + n)).toLower = capital)
      = decide (Char.ofNat (0x41 + n) = small ∨ Char.ofNat (0x41 + n) = capital)) (c : Char) :
    (c.toLower = small ∨ c.toLower = capital) ↔ (c = small ∨ c = capital) := by
  have hd := apply_toLower (p := fun c => decide (c = small ∨ c = capital)) h c
  rwa [decide_eq_decide] at hd

/-- The mark of a hexadecimal number may be of either case. -/
theorem finalMark_folded (cs : List Char) :
    ((folded cs).getLast? = some 'h' ∨ (folded cs).getLast? = some 'H')
      ↔ (cs.getLast? = some 'h' ∨ cs.getLast? = some 'H') := by
  rw [getLast?_folded]
  cases cs.getLast? with
  | none => simp
  | some c => simpa using mark_folded (by decide) c

theorem digitsValue_folded_cons (base : Nat) (c : Char) (cs : List Char) :
    digitsValue base (c.toLower :: folded cs) = digitsValue base (c :: cs) :=
  digitsValue_folded base (c :: cs)

/-- A number has the same value with digits and mark of either case. -/
theorem numberOf?_folded (cs : List Char) : numberOf? (folded cs) = numberOf? cs := by
  have hzero (c : Char) : c.toLower = '0' ↔ c = '0' := toLower_eq_iff (by decide) c
  cases cs with
  | nil => rfl
  | cons c rest =>
    simp only [numberOf?, folded_cons, List.all_cons, isDigit_toLower, all_folded isDigit_toLower,
      finalMark_folded, dropLast_folded, all_folded isHexDigit_toLower, digitsValue_folded_cons,
      ne_eq, reduceCtorEq, not_false_eq_true, true_and]
    split
    · rfl
    split
    · rfl
    -- What is left are numbers after a zero and a mark.
    by_cases hc : c = '0'
    · subst hc
      cases rest with
      | nil => rfl
      | cons x digits =>
        have hmark : (x.toLower = 'x' ∨ x.toLower = 'X') ↔ (x = 'x' ∨ x = 'X') :=
          mark_folded (by decide) x
        have hne : folded digits = [] ↔ digits = [] := List.map_eq_nil_iff
        simp only [folded_cons, show ('0' : Char).toLower = '0' from rfl, hmark, hne,
          all_folded isHexDigit_toLower, digitsValue_folded]
    · have hc' : c.toLower ≠ '0' := fun he => hc ((hzero c).1 he)
      split
      · next heq _ => exact absurd heq hc'
      · split
        · exact absurd rfl hc
        · rfl

theorem immediate?_folded (text : List Char) : immediate? (folded text) = immediate? text := by
  simp only [immediate?, trim_folded, length_folded, numberOf?_folded]

/-- A name stays a name. -/
theorem isName_folded (cs : List Char) : isName (folded cs) = isName cs := by
  have hpart (c : Char) : (fun d => isNameStart d || d.isDigit) c.toLower
      = (fun d => isNameStart d || d.isDigit) c := by
    simp only [isNameStart_toLower, isDigit_toLower]
  cases cs with
  | nil => rfl
  | cons c cs =>
    rw [folded_cons, isName, isName, isNameStart_toLower,
      all_folded (p := fun d => isNameStart d || d.isDigit) hpart]

/-- An operand is read as before, but for the text of one that is not supported. -/
theorem operand_read_folded (text : List Char) :
    Operand.read (folded text) = folding.operand (Operand.read text) := by
  simp only [Operand.read, trim_folded, lower_folded, immediate?_folded, isName_folded]
  cases Register.ofName? (String.ofList (lower (trim text))) with
  | some r => rfl
  | none =>
    cases immediate? (trim text) with
    | some p => rfl
    | none =>
      simp only
      split
      · rfl
      · simp only [Retouch.operand, Retouch.string, folding, String.toList_ofList]

end Operands

/-! ## Whole lines -/

theorem directive_read_folded (line : List Char) :
    Directive.read? (folded line) = Directive.read? line := by
  rw [Directive.read?, stripComment_folded, trim_folded, lower_folded, Directive.read?]

/-- An instruction is read as before, but for such texts of its operands. -/
theorem instruction_read_folded (n : Nat) (line : List Char) :
    Instruction.read? n (folded line) = (Instruction.read? n line).map folding.instruction := by
  have hoperands (ws : List (List Char)) :
      (ws.map folded).map Operand.read = (ws.map Operand.read).map folding.operand := by
    rw [List.map_map, List.map_map]
    exact List.map_congr_left fun w _ => operand_read_folded w
  simp only [Instruction.read?, lineParts_folded, trim_folded, hoperands, Option.map_map]
  cases (lineParts line).mnemonic.bind Mnemonic.ofName? with
  | none => rfl
  | some m =>
    simp only [Option.map_some, Function.comp_apply, Retouch.instruction, Retouch.string, folding,
      String.toList_ofList, id]

/-- A line as a whole is read as before, but for such texts. -/
theorem read_folded (n : Nat) (line : List Char) :
    SourceLine.read n (folded line) = folding.sourceLine (SourceLine.read n line) := by
  simp only [SourceLine.read, stripComment_folded, trim_folded, splitLabel_folded, isEmpty_folded,
    directive_read_folded, instruction_read_folded, Retouch.sourceLine]
  obtain ⟨label, rest⟩ := splitLabel (trim (stripComment line))
  congr 1
  simp only
  split
  · rfl
  cases Directive.read? rest with
  | some d => rfl
  | none =>
    cases Instruction.read? n (trim (stripComment line)) with
    | some i => rfl
    | none => rfl

theorem numbered_map {α β : Type} (f : α → β) (n : Nat) (as : List α) :
    numbered n (as.map f) = (numbered n as).map fun p => (p.1, f p.2) := by
  induction as generalizing n with
  | nil => rfl
  | cons a as ih => rw [List.map_cons, numbered, ih, numbered, List.map_cons]

theorem sourceLines_folded (source : List Char) :
    sourceLines (folded source) = (sourceLines source).map folding.sourceLine := by
  rw [sourceLines, lines_folded, numbered_map, List.map_map, sourceLines, List.map_map]
  exact List.map_congr_left fun p _ => read_folded p.1 p.2

/-- A source in small letters is assembled as the source itself is, but for the texts that are
kept. -/
theorem assemble_folded (source : List Char) :
    assemble (folded source) = folding.assembly (assemble source) :=
  Retouch.assemble_of_sourceLines (sourceLines_folded source)

end TurboBench.Asm
