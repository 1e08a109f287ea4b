import TurboBench.Proofs.Asm.BranchLines
import TurboBench.Proofs.Asm.BranchTargets

/-!
# Labels that a branch can name

A label is defined by one reader and used by others. The line that defines it may give it any text
of letters, digits and six further characters; a branch to it is first looked at as a directive, and
then its operand as a register, as a number, and as a name, which has fewer characters. So a label
can be defined that no branch gets to.

Which labels these are is settled by the text of the label alone: an operand must be able to name
it, as `IsOperandName` says. For such a label, every branch to it is assembled without a warning to
the address of the label and, when it is taken, goes there. For the others the branch has no record,
or one whose operand is a zero byte.
-/

set_option autoImplicit false

namespace TurboBench.Asm

open TurboBench.Text (isBlank lines)

/-! ## Branches that get to their label -/

/-- The branch with the mnemonic `m` on the line `n` gets to the address. -/
structure Reaches (a : Assembly) (n : Nat) (m : Mnemonic) (address : Nat) : Prop where
  /-- No name on the line was undefined. -/
  silent : ∀ name, ⟨n, .undefinedSymbol name⟩ ∉ a.emission.warnings
  /-- The line has a record with the two bytes of the address, and executing it where it is taken
  sets the instruction pointer to the address as a word. -/
  record : ∃ r ∈ a.records, r.line = n ∧ r.instruction.mnemonic = m
    ∧ r.bytes.tail = [address % 0x100, address / 0x100 % 0x100]
    ∧ ∀ (disabled : List Mnemonic) (s : Progress), m ∉ disabled → s.machine.Complete →
      s.machine.Takes m → (s.step disabled a.symbols r).1.machine.get "ip"
        = .ok ((address % 0x10000 : Nat) : Int)

/-! ## The record of a branch -/

theorem exists_record_of_mem {source : List Char} {l : SourceLine} {i : Instruction}
    (hl : l ∈ sourceLines source) (hc : l.content = .instruction i) :
    ∃ r ∈ (assemble source).records, r.instruction = i := by
  obtain ⟨pre, post, hls⟩ := List.append_of_mem hl
  rw [records_assemble, hls, recordsFrom_append, recordsFrom_cons_of_instruction _ _ _ hc]
  exact ⟨_, List.mem_append_right _ List.mem_cons_self, rfl⟩

/-- What is in the table of labels is spelled as a label. -/
theorem isLabelText_of_lookup {source : List Char} {name : String} {address : Nat}
    (h : (assemble source).labels.lookup name = some address) : IsLabelText name.toList := by
  obtain ⟨pre, post, hlabels, -⟩ := List.lookup_eq_some_iff.1 h
  have hmem : (name, address) ∈ (assemble source).labels := by
    rw [hlabels]
    exact List.mem_append_right pre List.mem_cons_self
  obtain ⟨n, text, -, hname, -⟩ := label_placed hmem
  exact isLabelText_of_lineLabel hname

/-- The words of a branch are a directive only if the second of them defines data. -/
theorem ofWords?_branch {m : Mnemonic} (h : m.isBranch = true) (name : String) :
    Directive.ofWords? [m.name.toList, name.toList]
      = (DataUnit.ofName? name).map fun unit => .define (some m.name) unit [] := by
  cases m with
  | jmp | je | jne | call =>
    simp only [Directive.ofWords?, String.ofList_toList]
    cases DataUnit.ofName? name <;> rfl
  | _ => exact absurd h (by decide)

section Branches

variable {source text : List Char} {n address : Nat} {m : Mnemonic} {name : String}

/-- A branch to a label is data of that name, or a record with one operand. -/
theorem branch_cases (hn : (n, text) ∈ numbered 1 (lines source)) (hbranch : m.isBranch = true)
    (htext : IsBranchTo m name text) (hname : IsLabelText name.toList) :
    ((DataUnit.ofName? name).isSome = true ∧ ∀ r ∈ (assemble source).records, r.line ≠ n)
      ∨ (DataUnit.ofName? name = none ∧ ∃ target, IsLabelText target
        ∧ target.map Char.toLower = name.toList
        ∧ ∃ r ∈ (assemble source).records, r.line = n ∧ r.instruction.mnemonic = m
          ∧ r.instruction.operands = [Operand.read target]) := by
  obtain ⟨word, gap, target, hline, hword, htarget, hgap, hblank⟩ := htext
  have hwordText : IsLabelText word := by
    rw [← isLabelText_toLower, hword]
    exact isLabelText_mnemonic m
  have htargetText : IsLabelText target := by
    rwa [← isLabelText_toLower, htarget]
  have hdirective : Directive.read? (lineContent text)
      = (DataUnit.ofName? name).map fun unit => .define (some m.name) unit [] := by
    rw [hline, directive_of_pair hwordText htargetText hgap hblank, hword, htarget,
      ofWords?_branch hbranch]
  have hne : lineContent text ≠ [] := by simp [hline, hgap]
  cases hunit : DataUnit.ofName? name with
  | some unit =>
    rw [hunit, Option.map_some] at hdirective
    refine .inl ⟨rfl, fun r hr hrn => ?_⟩
    -- The line is settled as a directive, which leaves no record.
    rcases contentSettled_assemble hn hne with ⟨-, hnone, -⟩ | ⟨hnot, -⟩ | ⟨hnot, -⟩
    · have hmem : r ∈ (assemble source).records.filter (·.line = n) :=
        List.mem_filter.2 ⟨hr, decide_eq_true hrn⟩
      rw [hnone] at hmem
      exact absurd hmem List.not_mem_nil
    all_goals
      rw [hdirective] at hnot
      exact absurd hnot (by simp)
  | none =>
    rw [hunit, Option.map_none] at hdirective
    obtain ⟨i, hread, hi, hmnemonic, hoperands⟩ :=
      instruction_of_pair hline hword htargetText hgap hblank n
    have hcontent := content_of_instruction hne hdirective hread
    obtain ⟨r, hr, rfl⟩ := exists_record_of_mem (read_mem_sourceLines hn) hcontent
    exact .inr ⟨rfl, target, htargetText, htarget, r, hr, hi, hmnemonic, hoperands⟩

/-- **A branch gets to its label if and only if its operand can name the label.** -/
theorem reaches_iff (hn : (n, text) ∈ numbered 1 (lines source)) (hbranch : m.isBranch = true)
    (htext : IsBranchTo m name text)
    (hlabel : (assemble source).labels.lookup name = some address) :
    Reaches (assemble source) n m address ↔ IsOperandName name := by
  have hname := isLabelText_of_lookup hlabel
  constructor
  · rintro ⟨-, q, hq, hqn, -, hbytes, -⟩
    rcases branch_cases hn hbranch htext hname with ⟨-, hnone⟩ | ⟨hunit, target, htarget, hlower,
      r, hr, hrn, hmnemonic, hoperands⟩
    · exact absurd hqn (hnone q hq)
    · obtain rfl : q = r := eq_of_line_eq hr hq (hqn.trans hrn.symm)
      rcases operand_cases htarget hlower hunit with ⟨husable, -⟩ | ⟨-, hzero⟩
      · exact husable
      · -- A zero byte is not the two bytes of an address.
        rw [bytes_of_mem hr, tail_encode_of_isBranch _ (by rwa [hmnemonic]) hoperands,
          hzero] at hbytes
        exact absurd hbytes (by simp)
  · intro husable
    rcases branch_cases hn hbranch htext hname with ⟨hsome, -⟩ | ⟨hunit, target, htarget, hlower,
      r, hr, hrn, hmnemonic, hoperands⟩
    · rw [husable.unit] at hsome
      exact absurd hsome (by decide)
    rcases operand_cases htarget hlower hunit with ⟨-, hread⟩ | ⟨hnot, -⟩
    · rw [hread] at hoperands
      rw [← hmnemonic] at hbranch
      refine ⟨fun other hmem => ?_, r, hr, hrn, hmnemonic, ?_,
        fun disabled s henabled hc htakes => ?_⟩
      · rw [← hrn, undefinedSymbol_mem_iff hr hbranch hoperands, hlabel] at hmem
        exact absurd hmem.2 (by simp)
      · rw [bytes_of_mem hr, tail_encode_of_label hbranch hoperands hlabel]
        rfl
      · rw [← hmnemonic] at henabled htakes
        exact (ip_of_takes henabled hc htakes hoperands hlabel).1
    · exact absurd husable hnot

end Branches

/-! ## A label that begins with a point -/

/-- A source with a branch to its own line, in capitals. -/
def branchToItself : List Char :=
  "again: JMP Again".toList

/-- A branch to its own line. -/
theorem reaches_iff_branchToItself :
    Reaches (assemble branchToItself) 1 .jmp 0x100 ↔ IsOperandName "again" := by
  have hline : (1, "again: JMP Again".toList) ∈ numbered 1 (lines branchToItself) := by
    decide +kernel
  have htext : IsBranchTo .jmp "again" "again: JMP Again".toList :=
    ⟨"JMP".toList, [' '], "Again".toList, by decide +kernel, by decide, by decide, by decide,
      List.forall_mem_singleton.2 (by decide)⟩
  exact reaches_iff hline (by decide) htext (by decide +kernel)

/-- The same with a label that no operand can name. -/
def branchToPoint : List Char :=
  ".loop: jmp .loop".toList

/-- Not every label that a source defines can be used in it. -/
theorem not_reaches_branchToPoint :
    (assemble branchToPoint).success = true
      ∧ (assemble branchToPoint).labels.lookup ".loop" = some 0x100
      ∧ (1, branchToPoint) ∈ numbered 1 (lines branchToPoint)
      ∧ IsBranchTo .jmp ".loop" branchToPoint
      ∧ ¬ Reaches (assemble branchToPoint) 1 .jmp 0x100 := by
  refine ⟨by decide +kernel, by decide +kernel, by decide +kernel, ?_, ?_⟩
  · exact ⟨"jmp".toList, [' '], ".loop".toList, by decide +kernel, by decide, by decide,
      by decide, List.forall_mem_singleton.2 (by decide)⟩
  · rintro ⟨-, r, hr, -, -, hbytes, -⟩
    have hall : ∀ r ∈ (assemble branchToPoint).records, r.bytes.tail ≠ [0x00, 0x01] := by
      decide +kernel
    exact hall r hr hbytes

end TurboBench.Asm
