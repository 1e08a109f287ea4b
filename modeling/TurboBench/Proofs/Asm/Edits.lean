import TurboBench.Proofs.Asm.BranchLines
import TurboBench.Proofs.Asm.FoldedSources

/-!
# Edits that leave a program as it is

Three edits of a source: other letter case anywhere, a comment behind a line, and a line more with
nothing but a comment on it. The first is folding, seen from two sources with the same small
letters. The second does not reach the readers of lines, because the semicolon is the first one
outside quotations, or stands behind the first. The third adds a line with neither label nor
content, which both passes skip, and moves the numbers of the lines below it by one (`renumbering`).

Edits are stated of the lines that a source has; that there is a source with the edited lines is
part of the statements.
-/

set_option autoImplicit false

namespace TurboBench.Asm

open TurboBench.Text (folded isBlank isLineEnd lines lines_cons not_lineEnd_of_mem_lines trim
  trimLeft)

/-! ## Sources with given lines -/

section Sources

/-- The lines that are read of texts from the number `n` on. -/
def readFrom (n : Nat) (ls : List (List Char)) : List SourceLine :=
  (numbered n ls).map fun p => .read p.1 p.2

theorem sourceLines_eq (source : List Char) : sourceLines source = readFrom 1 (lines source) := rfl

theorem readFrom_cons (n : Nat) (l : List Char) (ls : List (List Char)) :
    readFrom n (l :: ls) = .read n l :: readFrom (n + 1) ls := rfl

/-- Lines are read one by one, with the numbers that they have where they stand. -/
theorem readFrom_append (n : Nat) (ls ks : List (List Char)) :
    readFrom n (ls ++ ks) = readFrom n ls ++ readFrom (n + ls.length) ks := by
  induction ls generalizing n with
  | nil => rfl
  | cons l ls ih =>
    rw [List.cons_append, readFrom_cons, ih, readFrom_cons, List.cons_append, List.length_cons,
      Nat.add_right_comm, Nat.add_assoc]

/-- A text without a line end is a line of its own once it is ended. -/
theorem lines_append_newline {line : List Char} (h : ∀ c ∈ line, isLineEnd c = false)
    (rest : List Char) : lines (line ++ '\n' :: rest) = line :: lines rest := by
  induction line with
  | nil =>
    rw [List.nil_append, lines_cons (fun _ hc => absurd hc (by decide)), if_pos (by decide)]
  | cons c line ih =>
    obtain ⟨hc, hline⟩ := List.forall_mem_cons.1 h
    have hreturn : c ≠ '\r' := by
      rintro rfl
      exact absurd hc (by decide)
    rw [List.cons_append, lines_cons (fun _ he => absurd he hreturn), if_neg (by simp [hc]),
      ih hline]

/-- There is a source with any lines in which there are no line ends. -/
theorem exists_lines {ls : List (List Char)} (h : ∀ l ∈ ls, ∀ c ∈ l, isLineEnd c = false) :
    ∃ source, lines source = ls := by
  induction ls with
  | nil => exact ⟨[], rfl⟩
  | cons l ls ih =>
    obtain ⟨rest, hrest⟩ := ih fun k hk => h k (List.mem_cons_of_mem _ hk)
    exact ⟨l ++ '\n' :: rest, by rw [lines_append_newline (h l List.mem_cons_self), hrest]⟩

/-- Lines of a source can be taken out, and a line be put in their place. -/
theorem exists_lines_between {source line : List Char} {pre post : List (List Char)}
    (mid : List (List Char)) (h : lines source = pre ++ mid ++ post)
    (hline : ∀ c ∈ line, isLineEnd c = false) :
    ∃ source', lines source' = pre ++ line :: post := by
  have hold : ∀ l ∈ pre ++ mid ++ post, ∀ c ∈ l, isLineEnd c = false := fun l hl =>
    not_lineEnd_of_mem_lines (h ▸ hl)
  refine exists_lines fun l hl => ?_
  rcases List.mem_append.1 hl with hl | hl
  · exact hold l (by simp [hl])
  rcases List.mem_cons.1 hl with rfl | hl
  · exact hline
  · exact hold l (by simp [hl])

end Sources

/-! ## A comment behind a line -/

/-- A comment behind a text that closes its quotations is cut off. -/
theorem beforeComment_append {quote : Option Char} {line : List Char}
    (h : (beforeComment quote line).foldl quoteAfter quote = none) (text : List Char) :
    beforeComment quote (line ++ ';' :: text) = beforeComment quote line := by
  induction line generalizing quote with
  | nil =>
    obtain rfl : quote = none := h
    rfl
  | cons c line ih =>
    rw [beforeComment] at h
    rw [List.cons_append, beforeComment, beforeComment]
    split
    · rfl
    · next hc =>
      rw [if_neg hc, List.foldl_cons] at h
      rw [ih h]

/-- No quotation is open behind the text of a line. -/
def ClosesQuotes (line : List Char) : Prop :=
  (stripComment line).foldl quoteAfter none = none

instance (line : List Char) : Decidable (ClosesQuotes line) :=
  inferInstanceAs (Decidable ((stripComment line).foldl quoteAfter none = none))

theorem read_of_stripComment {line line' : List Char} (h : stripComment line' = stripComment line)
    (n : Nat) : SourceLine.read n line' = SourceLine.read n line := by
  rw [SourceLine.read, h, SourceLine.read]

/-- So a comment at the end of a line changes nothing of what is read. -/
theorem sourceLines_commented {source source' line text : List Char} {pre post : List (List Char)}
    (hquotes : ClosesQuotes line) (h : lines source = pre ++ line :: post)
    (h' : lines source' = pre ++ (line ++ ';' :: text) :: post) :
    sourceLines source' = sourceLines source := by
  have hread (n : Nat) : SourceLine.read n (line ++ ';' :: text) = SourceLine.read n line :=
    read_of_stripComment (beforeComment_append hquotes text) n
  rw [sourceLines_eq, sourceLines_eq, h, h', readFrom_append, readFrom_append, readFrom_cons,
    readFrom_cons, hread]

/-! ## A line more -/

/-- A line of blanks, with a comment behind them or not: the first character that is no blank, if
there is one, is a semicolon. -/
def IsIdle (line : List Char) : Prop :=
  ∀ c ∈ (trimLeft line).head?, c = ';'

instance (line : List Char) : Decidable (IsIdle line) :=
  Option.decidableForallMem (trimLeft line).head?

/-- Outside of its comment an idle line is blank. -/
theorem isBlank_of_mem_stripComment {line : List Char} (h : IsIdle line) :
    ∀ c ∈ stripComment line, isBlank c = true := by
  induction line with
  | nil =>
    intro c hc
    exact absurd hc List.not_mem_nil
  | cons c line ih =>
    by_cases hc : isBlank c = true
    · have hidle : IsIdle line := by
        rwa [IsIdle, trimLeft, List.dropWhile_cons_of_pos hc] at h
      have hplain := isPlain_of_isBlank hc
      rw [stripComment, beforeComment, if_neg fun h => hplain.2 h.2, quoteAfter_of_isPlain hplain]
      exact List.forall_mem_cons.2 ⟨hc, ih hidle⟩
    · rw [IsIdle, trimLeft, List.dropWhile_cons_of_neg hc] at h
      obtain rfl := h c rfl
      intro d hd
      exact absurd hd List.not_mem_nil

/-- Nothing is left of an idle line to be read. -/
theorem trim_stripComment_of_isIdle {line : List Char} (h : IsIdle line) :
    trim (stripComment line) = [] := by
  have hleft : trimLeft (stripComment line) = [] :=
    List.dropWhile_eq_nil_iff.2 (isBlank_of_mem_stripComment h)
  rw [trim, hleft]
  rfl

theorem read_of_isIdle {line : List Char} (h : IsIdle line) (n : Nat) :
    SourceLine.read n line = ⟨n, [], none, .nothing⟩ := by
  rw [SourceLine.read, trim_stripComment_of_isIdle h]
  rfl

/-- The retouch that moves the numbers of lines behind the first `n` of them by one. -/
def renumbering (n : Nat) : Retouch where
  line k := if k ≤ n then k else k + 1
  text := id
  lower_text _ := rfl

section Renumbering

variable {n : Nat}

theorem operand_renumbering (op : Operand) : (renumbering n).operand op = op := by
  cases op with
  | unsupported text => exact congrArg Operand.unsupported String.ofList_toList
  | _ => rfl

/-- Renumbering changes the line of an instruction and nothing else. -/
theorem instruction_renumbering (i : Instruction) :
    (renumbering n).instruction i = { i with line := (renumbering n).line i.line } := by
  have htext : (renumbering n).string i.text = i.text := String.ofList_toList
  have hoperands : i.operands.map (renumbering n).operand = i.operands := by
    rw [funext operand_renumbering]
    exact List.map_id' _
  rw [Retouch.instruction, htext, hoperands]

/-- A line is renumbered as a whole by reading it under its new number. -/
theorem read_renumbering (k : Nat) (line : List Char) :
    (renumbering n).sourceLine (SourceLine.read k line)
      = SourceLine.read ((renumbering n).line k) line := by
  have hread (text : List Char) : (Instruction.read? k text).map (renumbering n).instruction
      = Instruction.read? ((renumbering n).line k) text := by
    simp only [Instruction.read?, Option.map_map, Function.comp_def, instruction_renumbering]
  simp only [SourceLine.read, Retouch.sourceLine, ← hread]
  obtain ⟨label, rest⟩ := splitLabel (trim (stripComment line))
  congr 1
  simp only
  split
  · rfl
  cases Directive.read? rest with
  | some d => rfl
  | none =>
    cases Instruction.read? k (trim (stripComment line)) with
    | some i => rfl
    | none => rfl

theorem record_renumbering (r : Record) :
    (renumbering n).record r
      = { r with instruction :=
          { r.instruction with line := (renumbering n).line r.instruction.line } } := by
  have hsource : (renumbering n).string r.source = r.source := String.ofList_toList
  rw [Retouch.record, hsource, instruction_renumbering]

/-- Lines of a trace that are the same, but for the number of the line that an error is about. -/
inductive Renumbered (n : Nat) : String → String → Prop where
  | same (line : String) : Renumbered n line line
  | error (k : Nat) (cause : String) :
      Renumbered n s!"Error at line {k}: {cause}"
        s!"Error at line {(renumbering n).line k}: {cause}"

/-- The line of output that a record leaves is renumbered with it. -/
theorem line_renumbering {disabled : List Mnemonic} {symbols : SymbolTable} {s s' : Progress}
    (h : s'.machine = s.machine) (r : Record) :
    Renumbered n (s.line disabled symbols r)
      (s'.line disabled symbols ((renumbering n).record r)) := by
  have hperform : ((renumbering n).record r).perform s'.machine symbols
      = r.perform s.machine symbols := by
    rw [record_renumbering, h]
    rfl
  unfold Progress.line
  rw [hperform, record_renumbering]
  by_cases hdisabled : r.instruction.mnemonic ∈ disabled
  · simp only [if_pos hdisabled]
    exact .same _
  · simp only [if_neg hdisabled]
    cases r.perform s.machine symbols with
    | error e => exact .error r.line (e.message r.instruction.mnemonic)
    | ok effect => exact .same effect.trace

/-- Lines behind the new one are read with numbers that are one higher. -/
theorem readFrom_renumbering {k : Nat} (hk : n < k) (ls : List (List Char)) :
    (readFrom k ls).map (renumbering n).sourceLine = readFrom (k + 1) ls := by
  induction ls generalizing k with
  | nil => rfl
  | cons l ls ih =>
    have hline : (renumbering n).line k = k + 1 := if_neg (by omega)
    rw [readFrom_cons, List.map_cons, ih (by omega), read_renumbering, hline, readFrom_cons]

/-- Lines before the new one are read with their own numbers. -/
theorem readFrom_unchanged {k : Nat} {ls : List (List Char)} (hk : k + ls.length ≤ n + 1) :
    (readFrom k ls).map (renumbering n).sourceLine = readFrom k ls := by
  induction ls generalizing k with
  | nil => rfl
  | cons l ls ih =>
    rw [List.length_cons] at hk
    have hline : (renumbering n).line k = k := if_pos (by omega)
    rw [readFrom_cons, List.map_cons, ih (by omega), read_renumbering, hline]

/-- A line that holds nothing is skipped by both passes, so that the lines of the source are left,
with other numbers. -/
theorem assemble_idle {source source' line : List Char} {pre post : List (List Char)}
    (hidle : IsIdle line) (h : lines source = pre ++ post)
    (h' : lines source' = pre ++ line :: post) :
    assemble source' = (renumbering pre.length).assembly (assemble source) := by
  have hlines : (sourceLines source).map (renumbering pre.length).sourceLine
      = readFrom 1 pre ++ readFrom (pre.length + 2) post := by
    rw [sourceLines_eq, h, readFrom_append, List.map_append, readFrom_unchanged (by omega),
      readFrom_renumbering (by omega), show 1 + pre.length + 1 = pre.length + 2 by omega]
  have hlines' : sourceLines source' = readFrom 1 pre
      ++ ⟨1 + pre.length, [], none, .nothing⟩ :: readFrom (pre.length + 2) post := by
    rw [sourceLines_eq, h', readFrom_append, readFrom_cons, read_of_isIdle hidle,
      show 1 + pre.length + 1 = pre.length + 2 by omega]
  refine Retouch.assemble_of_passes ?_ fun labels => ?_
  · rw [hlines, hlines', Layout.of, Layout.of, List.foldl_append, List.foldl_append,
      List.foldl_cons]
    rfl
  · rw [hlines, hlines', Emission.of, Emission.of, List.foldl_append, List.foldl_append,
      List.foldl_cons]
    rfl

end Renumbering

/-! ## Other letter case -/

/-- Two assemblies with the same reports and tables, and with the same code on the same lines. -/
structure SameReport (a b : Assembly) : Prop where
  success : b.success = a.success
  errors : b.errors = a.errors
  warnings : b.warnings = a.warnings
  labels : b.labels = a.labels
  dataSymbols : b.dataSymbols = a.dataSymbols
  records : b.records.map (fun r => (r.address, r.line, r.size, r.bytes))
    = a.records.map fun r => (r.address, r.line, r.size, r.bytes)

section Case

/-- Two assemblies that report as a third does report alike. -/
theorem SameReport.of_common {a b c : Assembly} (ha : SameReport a c) (hb : SameReport b c) :
    SameReport a b where
  success := hb.success.symm.trans ha.success
  errors := hb.errors.symm.trans ha.errors
  warnings := hb.warnings.symm.trans ha.warnings
  labels := hb.labels.symm.trans ha.labels
  dataSymbols := hb.dataSymbols.symm.trans ha.dataSymbols
  records := hb.records.symm.trans ha.records

/-- Folding the texts of its records changes nothing that an assembly reports. -/
theorem sameReport_folding (a : Assembly) : SameReport a (folding.assembly a) where
  success := Retouch.success_assembly a
  errors := by
    have hcomplaints (cs : List LineComplaint) : cs.map folding.complaint = cs := List.map_id cs
    simp only [Assembly.errors, Retouch.assembly, Retouch.layout, Retouch.emission, hcomplaints]
  warnings := by
    have hcomplaints (cs : List LineComplaint) : cs.map folding.complaint = cs := List.map_id cs
    simp only [Assembly.warnings, Assembly.records, Retouch.assembly, Retouch.emission, hcomplaints,
      List.isEmpty_map]
    rfl
  labels := rfl
  dataSymbols := rfl
  records := by
    have hrecords : (folding.assembly a).records = a.records.map folding.record := rfl
    rw [hrecords, List.map_map]
    refine List.map_congr_left fun r _ => ?_
    have hsize : (folding.record r).size = r.size := Retouch.size_instruction r.instruction
    rw [Function.comp_apply, hsize]
    rfl

/-- Sources with the same small letters are assembled to what is the same in small letters. -/
theorem folding_assemble_congr {source source' : List Char}
    (h : source'.map Char.toLower = source.map Char.toLower) :
    folding.assembly (assemble source') = folding.assembly (assemble source) := by
  have hfolded : folded source' = folded source := h
  rw [← assemble_folded, hfolded, assemble_folded]

theorem sameReport_of_case {source source' : List Char}
    (h : source'.map Char.toLower = source.map Char.toLower) :
    SameReport (assemble source) (assemble source') := by
  have hsource' := sameReport_folding (assemble source')
  rw [folding_assemble_congr h] at hsource'
  exact (sameReport_folding (assemble source)).of_common hsource'

/-- Sources that differ in case alone have runs with the same result. -/
theorem sameResult_of_case {source source' : List Char}
    (h : source'.map Char.toLower = source.map Char.toLower) (limits : Limits)
    (disabled : List Mnemonic) :
    Retouch.SameResult (fun _ _ => True) ((assemble source).execute limits disabled)
      ((assemble source').execute limits disabled) := by
  have hfolding (a : Assembly) : Retouch.SameResult (fun _ _ => True) (a.execute limits disabled)
      ((folding.assembly a).execute limits disabled) :=
    Retouch.sameResult_execute (fun _ => trivial) folding a limits disabled fun _ _ _ _ => trivial
  have hsource' := hfolding (assemble source')
  rw [folding_assemble_congr h] at hsource'
  exact (hfolding (assemble source)).of_common (fun _ _ _ _ _ => trivial) hsource'

end Case

/-! ## The three edits -/

/-- Letter case, comments and idle lines leave a program as it is. Other letter case changes neither
the report of the assembly nor the result of a run, apart from the wording of its output. A comment
behind a line on which no quotation is open changes nothing at all. A line of blanks or a comment
changes the numbers of the lines below it, wherever they are kept or printed, and nothing else. -/
theorem edits_leave_program :
    (∀ source source' : List Char, source'.map Char.toLower = source.map Char.toLower →
      SameReport (assemble source) (assemble source')
        ∧ ∀ limits disabled, Retouch.SameResult (fun _ _ => True)
          ((assemble source).execute limits disabled) ((assemble source').execute limits disabled))
    ∧ (∀ (source line text : List Char) (pre post : List (List Char)),
      lines source = pre ++ line :: post → ClosesQuotes line →
      (∀ c ∈ text, isLineEnd c = false) →
        (∃ source', lines source' = pre ++ (line ++ ';' :: text) :: post)
        ∧ ∀ source', lines source' = pre ++ (line ++ ';' :: text) :: post →
          assemble source' = assemble source)
    ∧ (∀ (source line : List Char) (pre post : List (List Char)),
      lines source = pre ++ post → IsIdle line → (∀ c ∈ line, isLineEnd c = false) →
        (∃ source', lines source' = pre ++ line :: post)
        ∧ ∀ source', lines source' = pre ++ line :: post →
          assemble source' = (renumbering pre.length).assembly (assemble source)
          ∧ ∀ limits disabled, Retouch.SameResult (Renumbered pre.length)
            ((assemble source).execute limits disabled)
            ((assemble source').execute limits disabled)) := by
  refine ⟨fun source source' h => ⟨sameReport_of_case h, sameResult_of_case h⟩, ?_, ?_⟩
  · intro source line text pre post hlines hquotes htext
    have hmem : line ∈ lines source := by simp [hlines]
    have hline : ∀ c ∈ line ++ ';' :: text, isLineEnd c = false := by
      intro c hc
      rcases List.mem_append.1 hc with hc | hc
      · exact not_lineEnd_of_mem_lines hmem c hc
      rcases List.mem_cons.1 hc with rfl | hc
      · rfl
      · exact htext c hc
    refine ⟨exists_lines_between [line] (by simpa using hlines) hline, ?_⟩
    intro source' hlines'
    rw [assemble, sourceLines_commented hquotes hlines hlines', assemble]
  · intro source line pre post hlines hidle hline
    refine ⟨exists_lines_between [] (by simpa using hlines) hline, ?_⟩
    intro source' hlines'
    have hassemble := assemble_idle hidle hlines hlines'
    refine ⟨hassemble, fun limits disabled => ?_⟩
    rw [hassemble]
    exact Retouch.sameResult_execute .same _ _ limits disabled fun _ _ r h => line_renumbering h r

/-- The three edits of a program that loads a number and returns, and that is assembled without
errors: capitals, a comment behind its second line, and a line of its own for a comment between the
two. -/
theorem edits_of_program :
    (assemble "mov AX, 0ah\nret".toList).success = true
    ∧ ("MOV ax, 0AH\nRet".toList.map Char.toLower = "mov AX, 0ah\nret".toList.map Char.toLower
      ∧ SameReport (assemble "mov AX, 0ah\nret".toList) (assemble "MOV ax, 0AH\nRet".toList)
      ∧ ∀ limits disabled, Retouch.SameResult (fun _ _ => True)
          ((assemble "mov AX, 0ah\nret".toList).execute limits disabled)
          ((assemble "MOV ax, 0AH\nRet".toList).execute limits disabled))
    ∧ assemble "mov AX, 0ah\nret;'".toList = assemble "mov AX, 0ah\nret".toList
    ∧ assemble "mov AX, 0ah\n ;ten\nret".toList
      = (renumbering 1).assembly (assemble "mov AX, 0ah\nret".toList) := by
  obtain ⟨hcase, hcomment, hidle⟩ := edits_leave_program
  have hsmall : "MOV ax, 0AH\nRet".toList.map Char.toLower
      = "mov AX, 0ah\nret".toList.map Char.toLower := by decide +kernel
  have hlines : lines "mov AX, 0ah\nret".toList
      = ["mov AX, 0ah".toList] ++ "ret".toList :: [] := by decide +kernel
  refine ⟨by decide +kernel, ⟨hsmall, hcase _ _ hsmall⟩, ?_, ?_⟩
  · have hquotes : ClosesQuotes "ret".toList := by decide +kernel
    have htext : ∀ c ∈ "'".toList, isLineEnd c = false := by simp [isLineEnd]
    exact (hcomment _ _ _ _ _ hlines hquotes htext).2 _ (by decide +kernel)
  · have hline : IsIdle " ;ten".toList := by decide +kernel
    have hends : ∀ c ∈ " ;ten".toList, isLineEnd c = false := by simp [isLineEnd]
    exact ((hidle _ _ _ _ hlines hline hends).2 _ (by decide +kernel)).1

end TurboBench.Asm
