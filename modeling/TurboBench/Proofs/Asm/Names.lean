import TurboBench.Proofs.Asm.TwoPasses

/-!
# What names stand for

The first pass enters a name into one of two tables, and a run is given both tables in one, data
first. That no name is in both (`lookup_labels_or_dataSymbols`) makes the order immaterial: the
joint table gives a label its address and a name of data its offset. The second pass, in contrast,
reads the table of labels alone, for the bytes of a record (`bytes_of_mem`) as for its warnings
(`warnings_assemble`).

The last part needs a source without errors. There a label is defined on exactly one line, since
a second definition would have been complained of.
-/

set_option autoImplicit false

namespace TurboBench.Asm

open TurboBench.Text (lines)

/-! ## The two tables -/

namespace Layout

variable {s : Layout}

/-- A name is in one table at most. -/
def Separate (s : Layout) : Prop :=
  ∀ name, s.labels.lookup name = none ∨ s.dataSymbols.lookup name = none

theorem not_defines_iff {name : String} :
    ¬ s.defines name = true ↔ s.labels.lookup name = none ∧ s.dataSymbols.lookup name = none := by
  rw [defines, Bool.or_eq_true, not_or]
  simp only [Bool.not_eq_true, Option.isSome_eq_false_iff, Option.isNone_iff_eq_none]

theorem lookup_append_singleton_of_ne (t : SymbolTable) {name other : String} (n : Nat)
    (h : other ≠ name) : (t ++ [(name, n)]).lookup other = t.lookup other := by
  have hne : (other == name) = false := by simpa using h
  rw [List.lookup_append, List.lookup_cons, hne, List.lookup_nil, Option.or_none]

/-- Entering a label leaves no name in both tables. -/
theorem Separate.defineLabel (h : s.Separate) (n : Nat) (name : String) :
    (s.defineLabel n name).Separate := by
  unfold Layout.defineLabel
  by_cases hdef : s.defines name = true
  · rw [if_pos hdef]
    exact h
  · rw [if_neg hdef]
    intro other
    by_cases ho : other = name
    · -- The new label is in no table, so it is not a name of data.
      rw [ho]
      exact Or.inr (not_defines_iff.1 hdef).2
    · rcases h other with hl | hd
      · exact Or.inl ((lookup_append_singleton_of_ne _ _ ho).trans hl)
      · exact Or.inr hd

/-- Entering data leaves no name in both tables. -/
theorem Separate.defineData (h : s.Separate) (n : Nat) (name : String) :
    (s.defineData n name).Separate := by
  unfold Layout.defineData
  by_cases hdef : s.defines name = true
  · rw [if_pos hdef]
    exact h
  · rw [if_neg hdef]
    intro other
    by_cases ho : other = name
    · rw [ho]
      exact Or.inl (not_defines_iff.1 hdef).1
    · rcases h other with hl | hd
      · exact Or.inl hl
      · exact Or.inr ((lookup_append_singleton_of_ne _ _ ho).trans hd)

/-- The label of a line leaves no name in both tables. -/
theorem Separate.label (h : s.Separate) (l : SourceLine) : (s.label l).Separate := by
  unfold Layout.label
  cases l.label with
  | none => exact h
  | some name => exact h.defineLabel l.number name

/-- A directive leaves no name in both tables. -/
theorem Separate.directive (h : s.Separate) (n : Nat) (d : Directive) :
    (s.directive n d).Separate := by
  unfold Layout.directive
  cases d with
  | define symbol unit value =>
    cases symbol with
    | none => exact h
    | some name => exact h.defineData n name
  | _ => exact h

/-- A line leaves no name in both tables. -/
theorem Separate.next (h : s.Separate) (l : SourceLine) : (s.next l).Separate := by
  have hlabel := h.label l
  unfold Layout.next
  simp only
  rw [← Layout.label]
  cases l.content with
  | directive d => exact hlabel.directive l.number d
  | _ => exact hlabel

/-- No name is in both tables after all lines. -/
theorem separate_of (ls : List SourceLine) : (of ls).Separate := by
  induction ls using List.reverseRecOn with
  | nil =>
    intro name
    exact Or.inl rfl
  | append_singleton ls l ih =>
    rw [of_append_singleton]
    exact ih.next l

end Layout

/-! ## The joint table -/

section Joint

variable (source : List Char) (name : String)

theorem lookup_labels_or_dataSymbols :
    (assemble source).labels.lookup name = none
      ∨ (assemble source).dataSymbols.lookup name = none :=
  Layout.separate_of (sourceLines source) name

variable {source name}

/-- In the joint table a label has the address that it has among the labels. -/
theorem lookup_symbols_of_label {address : Nat}
    (h : (assemble source).labels.lookup name = some address) :
    (assemble source).symbols.lookup name = some address := by
  rcases lookup_labels_or_dataSymbols source name with hl | hd
  · rw [hl] at h
    exact absurd h (by simp)
  · rw [Assembly.symbols, List.lookup_append, hd, Option.none_or, h]

theorem lookup_symbols_of_not_label (h : (assemble source).labels.lookup name = none) :
    (assemble source).symbols.lookup name = (assemble source).dataSymbols.lookup name := by
  rw [Assembly.symbols, List.lookup_append, h, Option.or_none]

end Joint

/-! ## What the second pass reads -/

/-- The complaints about the operands of a record. -/
def Record.undefined (labels : SymbolTable) (r : Record) : List LineComplaint :=
  (Emission.undefinedNames labels r.instruction).map fun name => ⟨r.line, .undefinedSymbol name⟩

section SecondPass

variable (labels : SymbolTable)

/-- A line warns of what its instruction names without there being such a label. -/
theorem Emission.warnings_next (s : Emission) {l : SourceLine}
    (hline : ∀ i, l.content = .instruction i → i.line = l.number) :
    (s.next labels l).warnings
      = s.warnings ++ (recordsFrom labels s.address [l]).flatMap (Record.undefined labels) := by
  cases hc : l.content with
  | instruction i =>
    simp [next, hc, instruction, recordsFrom, Record.undefined, Record.line, hline i hc]
  | directive d => cases d <;> simp [next, hc, recordsFrom]
  | _ => simp [next, hc, recordsFrom]

/-- The warnings of all lines stand in the order of the records. -/
theorem Emission.foldl_next_warnings {ls : List SourceLine} (h : Ascending ls) (s : Emission) :
    (ls.foldl (next labels) s).warnings
      = s.warnings ++ (recordsFrom labels s.address ls).flatMap (Record.undefined labels) := by
  induction ls generalizing s with
  | nil => simp [recordsFrom]
  | cons l ls ih =>
    have haddress := (next_eq labels s l).1
    have hsplit := recordsFrom_append labels s.address [l] ls
    rw [codeBytes_cons, codeBytes_nil, Nat.add_zero, List.singleton_append] at hsplit
    rw [List.foldl_cons, ih h.tail, haddress, hsplit, List.flatMap_append, ← List.append_assoc,
      warnings_next labels s (h.line l List.mem_cons_self)]

end SecondPass

/-- A branch warns of its target if that is no label. -/
theorem mem_undefinedNames_iff (labels : SymbolTable) {i : Instruction} {name : String}
    (hbranch : i.mnemonic.isBranch = true) (hname : i.operands = [.label name]) (other : String) :
    other ∈ Emission.undefinedNames labels i ↔ other = name ∧ labels.lookup name = none := by
  rw [Emission.undefinedNames, if_pos hbranch, hname, ← Option.isNone_iff_eq_none]
  by_cases h : (labels.lookup name).isNone = true
  · simp [h]
  · simp [h]

section Records

variable {source : List Char} {r : Record}

theorem bytes_of_mem (h : r ∈ (assemble source).records) :
    r.bytes = r.instruction.encode (assemble source).labels := by
  rw [records_assemble] at h
  exact bytes_of_mem_recordsFrom _ h

/-- The warnings of the second pass, record by record. -/
theorem warnings_assemble (source : List Char) :
    (assemble source).emission.warnings
      = (assemble source).records.flatMap (Record.undefined (assemble source).labels) := by
  rw [records_assemble]
  exact Emission.foldl_next_warnings _ (ascending_sourceLines source) .start

/-- A line has one record at most. -/
theorem eq_of_line_eq {q : Record} (hr : r ∈ (assemble source).records)
    (hq : q ∈ (assemble source).records) (h : q.line = r.line) : q = r := by
  by_contra hne
  have hdistinct : (assemble source).records.Pairwise (·.line ≠ ·.line) := by
    rw [records_assemble]
    exact (pairwise_line_recordsFrom _ (ascending_sourceLines source)).imp Nat.ne_of_lt
  have : Std.Symm fun r q : Record => r.line ≠ q.line := ⟨fun _ _ h => h.symm⟩
  exact hdistinct.forall hq hr hne h

/-- The warnings about a branch are about its name, if that is no label. -/
theorem undefinedSymbol_mem_iff (hr : r ∈ (assemble source).records)
    (hbranch : r.instruction.mnemonic.isBranch = true) {name : String}
    (hname : r.instruction.operands = [.label name]) (other : String) :
    ⟨r.line, .undefinedSymbol other⟩ ∈ (assemble source).emission.warnings
      ↔ other = name ∧ (assemble source).labels.lookup name = none := by
  rw [warnings_assemble, List.mem_flatMap]
  constructor
  · rintro ⟨q, hq, hmem⟩
    -- The warning bears the line of its record, which is `r` itself.
    obtain ⟨found, hfound, heq⟩ := List.mem_map.1 hmem
    obtain ⟨hline, hcomplaint⟩ := LineComplaint.mk.inj heq
    have hqr := eq_of_line_eq hr hq hline
    subst hqr
    rw [← Complaint.undefinedSymbol.inj hcomplaint]
    exact (mem_undefinedNames_iff _ hbranch hname found).1 hfound
  · intro hnone
    have hmem := (mem_undefinedNames_iff _ hbranch hname other).2 hnone
    exact ⟨r, hr, List.mem_map.2 ⟨other, hmem, rfl⟩⟩

/-- A branch is warned about if and only if it names something that is no label. -/
theorem undefinedSymbol_mem_warnings_iff (hr : r ∈ (assemble source).records)
    (hbranch : r.instruction.mnemonic.isBranch = true) {name : String}
    (hname : r.instruction.operands = [.label name]) :
    ⟨r.line, .undefinedSymbol name⟩ ∈ (assemble source).emission.warnings
      ↔ (assemble source).labels.lookup name = none := by
  rw [undefinedSymbol_mem_iff hr hbranch hname, eq_self_iff_true, true_and]

end Records

/-! ## Sources without errors -/

namespace Layout

/-- Defining a label takes no error back. -/
theorem errors_defineLabel (s : Layout) (n : Nat) (name : String) :
    s.errors <+: (s.defineLabel n name).errors := by
  unfold defineLabel
  split
  · exact List.prefix_append _ _
  · exact List.prefix_rfl

/-- The label of a line takes no error back. -/
theorem errors_label (s : Layout) (l : SourceLine) : s.errors <+: (s.label l).errors := by
  unfold label
  cases l.label with
  | none => exact List.prefix_rfl
  | some name => exact errors_defineLabel s l.number name

/-- A directive takes no error back. -/
theorem errors_directive (s : Layout) (n : Nat) (d : Directive) :
    s.errors <+: (s.directive n d).errors := by
  unfold directive
  cases d with
  | define symbol unit value =>
    cases symbol with
    | none => exact List.prefix_rfl
    | some name =>
      simp only [Option.elim_some, defineData]
      split
      · exact List.prefix_append _ _
      · exact List.prefix_rfl
  | _ => exact List.prefix_rfl

/-- Errors are added, never taken back. -/
theorem errors_next (s : Layout) (l : SourceLine) : (s.label l).errors <+: (s.next l).errors := by
  unfold next
  simp only
  rw [← label]
  cases l.content with
  | directive d => exact errors_directive _ l.number d
  | _ => exact List.prefix_rfl

/-- Without errors the labels of the lines are distinct. -/
theorem pairwise_label_of {ls : List SourceLine} (h : (of ls).errors = []) :
    ls.Pairwise fun l k => ∀ name, l.label = some name → k.label ≠ some name := by
  induction ls using List.reverseRecOn with
  | nil => exact List.Pairwise.nil
  | append_singleton ls l ih =>
    rw [of_append_singleton] at h
    have hlabel : ((of ls).label l).errors = [] :=
      List.prefix_nil.1 (h ▸ errors_next (of ls) l)
    have hold : (of ls).errors = [] := List.prefix_nil.1 (hlabel ▸ errors_label (of ls) l)
    refine List.pairwise_append.2 ⟨ih hold, List.pairwise_singleton _ _, ?_⟩
    intro k hk l' hl' name hkname hlname
    -- The name was defined by `k`, so its second definition left an error.
    rw [List.mem_singleton.1 hl'] at hlname
    have hdef := defines_of_mem hk hkname
    rw [label, hlname, Option.elim_some, defineLabel, if_pos hdef] at hlabel
    exact absurd hlabel (by simp)

end Layout

/-- A label of a source without errors is defined on one line. -/
theorem line_of_label_unique {source : List Char} (h : (assemble source).success = true)
    {n m : Nat} {text other : List Char} {name : String}
    (hn : (n, text) ∈ numbered 1 (lines source)) (hm : (m, other) ∈ numbered 1 (lines source))
    (hname : lineLabel text = some name) (hother : lineLabel other = some name) : n = m := by
  have herrors : (Layout.of (sourceLines source)).errors = [] := by
    have hnil := List.isEmpty_iff.1 h
    exact (List.append_eq_nil_iff.1 hnil).1
  have hget := List.pairwise_iff_getElem.1 (Layout.pairwise_label_of herrors)
  rw [← label_read n] at hname
  rw [← label_read m] at hother
  have hnread := read_mem_sourceLines hn
  have hmread := read_mem_sourceLines hm
  rw [← number_read n text, ← number_read m other]
  by_contra hne
  -- Whichever of the two lines comes first, the other repeats its label.
  obtain ⟨i, hi, hieq⟩ := List.getElem_of_mem hnread
  obtain ⟨j, hj, hjeq⟩ := List.getElem_of_mem hmread
  rcases Nat.lt_trichotomy i j with hij | hij | hij
  · have hclash := hget i j hi hj hij name
    rw [hieq, hjeq] at hclash
    exact hclash hname hother
  · subst hij
    rw [hieq] at hjeq
    rw [hjeq] at hne
    exact hne rfl
  · have hclash := hget j i hj hi hij name
    rw [hieq, hjeq] at hclash
    exact hclash hother hname

end TurboBench.Asm
