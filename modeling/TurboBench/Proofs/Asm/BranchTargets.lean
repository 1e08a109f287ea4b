import TurboBench.Proofs.Asm.Names
import TurboBench.Proofs.Asm.History

/-!
# Where branches lead, and how they are encoded

The second pass encodes the operand of a branch by the table of labels, and warns of an undefined
symbol if the name is not there. A run resolves the same operand by the joint table of labels and
names of data. `TargetsAgree` says what both ought to have in common: wherever control is
transferred to is what the operand was encoded as, and a branch that was warned about is refused,
with the next record to follow.

The two agree on labels, on names that nothing defines, and on operands that are no names. They
differ on a name of data: the second pass warns and encodes a zero byte, while the run takes the
offset of the data for an address and goes there. `targetsAgree_iff` says that this is the only
exception.
-/

set_option autoImplicit false

namespace TurboBench.Asm

/-! ## Passing over a record -/

/-- A record in a list is followed by a place where the next one stands, if there is a next one. -/
theorem address_of_row {source : List Char} {r q : Record}
    (h : [r, q] <:+: (assemble source).records) : q.address = r.following := by
  have hchain := isChain_recordsFrom (assemble source).labels loadAddress (sourceLines source)
  rw [← records_assemble] at hchain
  have hpair := List.IsChain.infix hchain h
  rw [List.isChain_pair] at hpair
  exact hpair

/-- A state in which a record is passed over: it leaves the line in the trace and nothing else, and
the record behind it is to be executed next. -/
structure PassedOver (a : Assembly) (disabled : List Mnemonic) (s : Progress) (r : Record)
    (line : String) : Prop where
  trace : (s.step disabled a.symbols r).1.trace = s.trace.push line
  machine : (s.step disabled a.symbols r).1.machine
    = s.machine.setWhole "ip" ((r.following % 0x10000 : Nat) : Int)
  halts : (s.step disabled a.symbols r).2 = false
  next : ∀ q, [r, q] <:+: a.records → q.address < 0x10000 →
    (s.step disabled a.symbols r).1.next? a = some q

/-- A refused instruction leaves one line of output and goes on behind itself. -/
theorem passedOver_of_error {source : List Char} {disabled : List Mnemonic} {s : Progress}
    {r : Record} {e : Refusal} (henabled : r.instruction.mnemonic ∉ disabled)
    (h : r.perform s.machine (assemble source).symbols = .error e) :
    PassedOver (assemble source) disabled s r
      s!"Error at line {r.line}: {e.message r.instruction.mnemonic}" := by
  have hstep := Progress.step_of_error henabled h
  refine ⟨?_, ?_, ?_, ?_⟩
  · rw [hstep]
    rfl
  · rw [hstep]
    rfl
  · rw [hstep]
  · intro q hq hsmall
    have haddress := address_of_row hq
    have hmem : q ∈ (assemble source).records := hq.subset (by simp)
    rw [hstep, Progress.next?_advance, ← haddress, Nat.mod_eq_of_lt hsmall]
    exact recordAt?_of_mem hmem

/-- The line that an unknown label leaves. -/
theorem text_unknownLabel (n : Nat) (m : Mnemonic) (name : String) :
    s!"Error at line {n}: {Refusal.message m (.unknownLabel (.label name))}"
      = s!"Error at line {n}: Unknown label: {name}" := by
  -- The line joins a message to its place, the statement has one literal.
  have hjoin : ": " ++ "Unknown label: " = ": Unknown label: " := by
    simp only [String.reduceAppend]
  have hmessage : Refusal.message m (.unknownLabel (.label name)) = "Unknown label: " ++ name := rfl
  rw [hmessage]
  simp only [← hjoin, String.append_assoc, ToString.toString, toString]

/-! ## The bytes of a branch -/

theorem one_lt_size_of_isBranch {i : Instruction} (h : i.mnemonic.isBranch = true) :
    1 < i.size := by
  obtain ⟨line, text, mnemonic, operands⟩ := i
  cases mnemonic <;> simp_all [Mnemonic.isBranch, Instruction.size, Instruction.form, Mnemonic.form]

theorem tail_encode_of_isBranch (labels : SymbolTable) {i : Instruction} {op : Operand}
    (hbranch : i.mnemonic.isBranch = true) (hop : i.operands = [op]) :
    (i.encode labels).tail = op.encode labels := by
  rw [Instruction.encode, if_pos (one_lt_size_of_isBranch hbranch), hop, List.tail_cons,
    List.flatMap_singleton]

theorem tail_encode_of_label {labels : SymbolTable} {i : Instruction} {name : String}
    {address : Nat} (hbranch : i.mnemonic.isBranch = true) (hop : i.operands = [.label name])
    (haddress : labels.lookup name = some address) :
    (i.encode labels).tail = wordBytes address := by
  rw [tail_encode_of_isBranch labels hbranch hop, Operand.encode, haddress]

/-! ## Resolving a branch -/

theorem branchTarget_label (symbols : SymbolTable) (name : String) :
    branchTarget symbols [.label name]
      = match symbols.lookup name with
        | some address => .ok address
        | none => .error (.unknownLabel (.label name)) := rfl

/-- A branch goes to a name that is in the table, or nowhere. -/
theorem label_of_branchTarget_eq_ok {symbols : SymbolTable} {op : Operand} {target : Nat}
    (h : branchTarget symbols [op] = .ok target) :
    ∃ name, op = .label name ∧ symbols.lookup name = some target := by
  cases op with
  | label name =>
    rw [branchTarget_label] at h
    cases hlookup : symbols.lookup name with
    | none =>
      rw [hlookup] at h
      exact absurd h (by simp)
    | some address =>
      rw [hlookup] at h
      exact ⟨name, rfl, by rw [hlookup, Except.ok.inj h]⟩
  | _ => exact absurd h (by simp [branchTarget, oneOperand, Bind.bind, Except.bind])

/-- A branch to a label that is taken sets the instruction pointer to the address of the label, as
far as it fits. -/
theorem ip_of_takes {source : List Char} {disabled : List Mnemonic} {s : Progress} {r : Record}
    (henabled : r.instruction.mnemonic ∉ disabled) (hc : s.machine.Complete)
    (htakes : s.machine.Takes r.instruction.mnemonic) {name : String} {address : Nat}
    (hop : r.instruction.operands = [.label name])
    (hlabel : (assemble source).labels.lookup name = some address) :
    (s.step disabled (assemble source).symbols r).1.machine.get "ip"
        = .ok ((address % 0x10000 : Nat) : Int)
      ∧ (s.step disabled (assemble source).symbols r).2 = false := by
  have hresolved : branchTarget (assemble source).symbols r.instruction.operands = .ok address := by
    rw [hop, branchTarget_label, lookup_symbols_of_label hlabel]
  obtain ⟨effect, hperform, htarget, hhalts⟩ := perform_of_takes hc htakes hresolved
  rw [Progress.step_of_ok henabled hperform, htarget]
  exact ⟨Machine.get_ip_setWhole _ _, hhalts⟩

/-! ## Agreement -/

/-- What a branch with the operand `op` has in common with its bytes and warnings when it is
executed in the state `s`. -/
structure TargetsAgree (a : Assembly) (disabled : List Mnemonic) (s : Progress) (r : Record)
    (op : Operand) : Prop where
  /-- Wherever control is transferred to, the operand was encoded as that address. -/
  encoded : ∀ effect target, r.perform s.machine a.symbols = .ok effect →
    effect.target = some target →
      r.bytes.tail = [target % 0x10000 % 0x100, target % 0x10000 / 0x100]
  /-- A branch that was warned about is refused. -/
  undefined : ∀ name, op = .label name →
    ⟨r.line, .undefinedSymbol name⟩ ∈ a.emission.warnings →
      (∀ effect, r.perform s.machine a.symbols ≠ .ok effect)
        ∧ PassedOver a disabled s r s!"Error at line {r.line}: Unknown label: {name}"

/-- An operand that is a name of data. -/
def NamesData (a : Assembly) (op : Operand) : Prop :=
  ∃ name offset, op = .label name ∧ a.dataSymbols.lookup name = some offset

section Agreement

variable {source : List Char} {disabled : List Mnemonic} {s : Progress} {r : Record} {op : Operand}

/-- A branch that does not name data goes where its bytes say: the two tables differ in data
alone. -/
theorem encoded_of_not_namesData (hr : r ∈ (assemble source).records)
    (hbranch : r.instruction.mnemonic.isBranch = true) (hop : r.instruction.operands = [op])
    (hdata : ¬ NamesData (assemble source) op) {effect : Effect} {target : Nat}
    (hperform : r.perform s.machine (assemble source).symbols = .ok effect)
    (htarget : effect.target = some target) :
    r.bytes.tail = [target % 0x10000 % 0x100, target % 0x10000 / 0x100] := by
  have hleads := (follows_perform r s.machine (assemble source).symbols effect hperform).leads
  rw [htarget] at hleads
  cases hleads with
  | taken _ hresolved =>
    rw [hop] at hresolved
    obtain ⟨name, rfl, hlookup⟩ := label_of_branchTarget_eq_ok hresolved
    cases hlabel : (assemble source).labels.lookup name with
    | none =>
      -- Known to the joint table but no label: this is a name of data.
      rw [lookup_symbols_of_not_label hlabel] at hlookup
      exact absurd ⟨name, target, rfl, hlookup⟩ hdata
    | some address =>
      rw [lookup_symbols_of_label hlabel] at hlookup
      rw [bytes_of_mem hr, tail_encode_of_label hbranch hop hlabel, Option.some.inj hlookup]
      have hlow : target % 0x100 = target % 0x10000 % 0x100 := by omega
      have hhigh : target / 0x100 % 0x100 = target % 0x10000 / 0x100 := by omega
      rw [wordBytes, hlow, hhigh]
  | back hret _ =>
    rw [hret] at hbranch
    exact absurd hbranch (by decide)

theorem perform_of_not_label (hc : s.machine.Complete)
    (hbranch : r.instruction.mnemonic.isBranch = true) {name : String}
    (hop : r.instruction.operands = [.label name])
    (hnone : (assemble source).symbols.lookup name = none) :
    r.perform s.machine (assemble source).symbols = .error (.unknownLabel (.label name)) := by
  refine perform_of_branchTarget_error hc hbranch ?_
  rw [hop, branchTarget_label, hnone]

/-- **Encoder and run agree on the targets of branches, but for names of data.** -/
theorem targetsAgree_iff (hr : r ∈ (assemble source).records)
    (hbranch : r.instruction.mnemonic.isBranch = true) (hop : r.instruction.operands = [op])
    (henabled : r.instruction.mnemonic ∉ disabled) (hc : s.machine.Complete) :
    TargetsAgree (assemble source) disabled s r op ↔ ¬ NamesData (assemble source) op := by
  constructor
  · rintro hagree ⟨name, offset, rfl, hdata⟩
    -- A name of data is no label, so there is a warning, and yet the branch is carried out.
    have hlabel : (assemble source).labels.lookup name = none := by
      rcases lookup_labels_or_dataSymbols source name with h | h
      · exact h
      · rw [h] at hdata
        exact absurd hdata (by simp)
    have hwarned := (undefinedSymbol_mem_warnings_iff hr hbranch hop).2 hlabel
    have hresolved :
        branchTarget (assemble source).symbols r.instruction.operands = .ok offset := by
      rw [hop, branchTarget_label, lookup_symbols_of_not_label hlabel, hdata]
    obtain ⟨effect, heffect⟩ := perform_of_branchTarget_ok hc hbranch hresolved
    exact (hagree.undefined name rfl hwarned).1 effect heffect
  · intro hdata
    refine ⟨fun _ _ => encoded_of_not_namesData hr hbranch hop hdata, ?_⟩
    rintro name rfl hwarned
    have hlabel := (undefinedSymbol_mem_warnings_iff hr hbranch hop).1 hwarned
    have hnone : (assemble source).symbols.lookup name = none := by
      rw [lookup_symbols_of_not_label hlabel]
      cases hlookup : (assemble source).dataSymbols.lookup name with
      | none => rfl
      | some offset => exact absurd ⟨name, offset, rfl, hlookup⟩ hdata
    have hrefused := perform_of_not_label hc hbranch hop hnone
    constructor
    · intro effect heffect
      rw [hrefused] at heffect
      exact absurd heffect (by simp)
    · rw [← text_unknownLabel r.line r.instruction.mnemonic name]
      exact passedOver_of_error henabled hrefused

end Agreement

/-! ## A branch to data -/

/-- A program that branches to a name of data. -/
def branchToData : List Char :=
  "x db 1\njmp x".toList

/-- The only record of that program. -/
def branchToDataRecord : Record :=
  ⟨0x100, [0xE9, 0], "jmp x", ⟨2, "jmp x", .jmp, [.label "x"]⟩⟩

theorem targetsAgree_iff_branchToData :
    TargetsAgree (assemble branchToData) [] .start branchToDataRecord (.label "x")
      ↔ ¬ NamesData (assemble branchToData) (.label "x") :=
  targetsAgree_iff (by decide +kernel) (by decide) (by decide) (by decide) Machine.complete_fresh

/-- The second pass warns of the name and encodes a zero byte, the run goes to the address 0. -/
theorem not_targetsAgree_branchToData :
    (assemble branchToData).success = true ∧ branchToDataRecord ∈ (assemble branchToData).records
      ∧ ¬ TargetsAgree (assemble branchToData) [] .start branchToDataRecord (.label "x") := by
  refine ⟨by decide +kernel, by decide +kernel, ?_⟩
  intro hagree
  have hresolved : branchTarget (assemble branchToData).symbols [.label "x"] = .ok 0 := by
    decide +kernel
  obtain ⟨effect, heffect⟩ := perform_of_branchTarget_ok (r := branchToDataRecord)
    Machine.complete_fresh (by decide) hresolved
  have hwarned : ⟨2, .undefinedSymbol "x"⟩ ∈ (assemble branchToData).emission.warnings := by
    decide +kernel
  exact (hagree.undefined "x" rfl hwarned).1 effect heffect

end TurboBench.Asm
