import Mathlib.Data.List.Forall2
import TurboBench.Proofs.Asm.History

/-!
# Assemblies that differ in texts and line numbers

A `Retouch` changes the numbers of the lines and the texts that are kept for reports: those of
lines, and those of operands that are not supported. The second kind is not only reported, since
`@data` and `offset` stand in it, but it is looked at in small letters only. So a retouch must keep
the small form of a text (`Retouch.lower_text`), and then it changes nothing that is computed.

It commutes with everything that is done with the lines of a source. Retouched lines are assembled
to the retouched assembly (`assemble_of_sourceLines`), which has the same tables, and records of the
same addresses, bytes and sizes. A run of it goes through the same machines (`run_retouched`), and
its trace has the lines for the retouched records.
-/

set_option autoImplicit false

namespace TurboBench.Asm

open TurboBench.Text (lower)

/-- A change of line numbers and of texts that keeps their small form. -/
structure Retouch where
  line : Nat → Nat
  text : List Char → List Char
  lower_text : ∀ cs, lower (text cs) = lower cs

namespace Retouch

/-! ## What is changed -/

section Changes

variable (ρ : Retouch)

/-- The text of a string is changed. -/
def string (s : String) : String :=
  String.ofList (ρ.text s.toList)

/-- Only an operand that is not supported has kept its text. -/
def operand : Operand → Operand
  | .unsupported text => .unsupported (ρ.string text)
  | op => op

def instruction (i : Instruction) : Instruction where
  line := ρ.line i.line
  text := ρ.string i.text
  mnemonic := i.mnemonic
  operands := i.operands.map ρ.operand

def content : Content → Content
  | .instruction i => .instruction (ρ.instruction i)
  | c => c

def sourceLine (l : SourceLine) : SourceLine where
  number := ρ.line l.number
  text := ρ.text l.text
  label := l.label
  content := ρ.content l.content

def complaint (c : LineComplaint) : LineComplaint :=
  ⟨ρ.line c.line, c.complaint⟩

def layout (s : Layout) : Layout :=
  { s with errors := s.errors.map ρ.complaint }

def record (r : Record) : Record where
  address := r.address
  bytes := r.bytes
  source := ρ.string r.source
  instruction := ρ.instruction r.instruction

def emission (s : Emission) : Emission :=
  { s with
    records := s.records.map ρ.record
    errors := s.errors.map ρ.complaint
    warnings := s.warnings.map ρ.complaint }

/-- The assembly with other line numbers and texts. -/
def assembly (a : Assembly) : Assembly :=
  ⟨ρ.layout a.layout, ρ.emission a.emission⟩

def refusal : Refusal → Refusal
  | .unsupportedOperand op => .unsupportedOperand (ρ.operand op)
  | .unknownLabel op => .unknownLabel (ρ.operand op)
  | e => e

/-- An answer with another wording of its cause, if it is a refusal. -/
def answer {α : Type} : Except Refusal α → Except Refusal α
  | .ok a => .ok a
  | .error e => .error (ρ.refusal e)

end Changes

variable {ρ : Retouch}

/-! ## Instructions -/

section Instructions

variable {m : Machine} {symbols : SymbolTable}

theorem lower_string (s : String) : lower (ρ.string s).toList = lower s.toList := by
  rw [string, String.toList_ofList, ρ.lower_text]

theorem isDataSegment_operand (op : Operand) :
    (ρ.operand op).isDataSegment = op.isDataSegment := by
  cases op with
  | unsupported text => simp only [operand, Operand.isDataSegment, lower_string]
  | _ => rfl

theorem encode_operand (labels : SymbolTable) (op : Operand) :
    (ρ.operand op).encode labels = op.encode labels := by
  cases op with
  | immediate n radix => rfl
  | _ => rfl

/-- Retouching leaves an instruction its form. -/
theorem form_instruction (i : Instruction) : (ρ.instruction i).form = i.form := by
  obtain ⟨n, text, m, operands⟩ := i
  -- Only the form of a move depends on its operands, and of these on which registers they are and
  -- on the data segment.
  cases m with
  | mov =>
    match operands with
    | [] => rfl
    | [a] =>
      cases a with
      | register r => cases r <;> rfl
      | _ => rfl
    | [a, b] =>
      cases a with
      | register r =>
        cases r with
        | ax =>
          show (if (ρ.operand b).isDataSegment then _ else _) = _
          rw [isDataSegment_operand]
          rfl
        | ds => cases b <;> rfl
        | _ => rfl
      | _ => rfl
    | a :: b :: c :: rest =>
      cases a with
      | register r =>
        cases r with
        | ds =>
          cases b with
          | register r => cases r <;> rfl
          | _ => rfl
        | _ => rfl
      | _ => rfl
  | _ => rfl

theorem size_instruction (i : Instruction) : (ρ.instruction i).size = i.size := by
  rw [Instruction.size, form_instruction, Instruction.size]

/-- Retouching leaves an instruction its bytes. -/
theorem encode_instruction (labels : SymbolTable) (i : Instruction) :
    (ρ.instruction i).encode labels = i.encode labels := by
  have hoperands : (ρ.instruction i).operands.flatMap (·.encode labels)
      = i.operands.flatMap (·.encode labels) := by
    rw [instruction, List.flatMap_map]
    simp only [encode_operand]
  rw [Instruction.encode, Instruction.encode, size_instruction, hoperands, Instruction.opcode,
    form_instruction, Instruction.opcode]

/-- Retouching leaves an instruction its interrupt vector. -/
theorem vector?_instruction (i : Instruction) : (ρ.instruction i).vector? = i.vector? := by
  obtain ⟨n, text, m, operands⟩ := i
  cases m with
  | int =>
    cases operands with
    | nil => rfl
    | cons a rest => cases a <;> rfl
  | _ => rfl

/-- Retouching leaves an instruction the names that it has no labels for. -/
theorem undefinedNames_instruction (labels : SymbolTable) (i : Instruction) :
    Emission.undefinedNames labels (ρ.instruction i) = Emission.undefinedNames labels i := by
  unfold Emission.undefinedNames
  simp only [instruction, List.filterMap_map]
  congr 2
  funext op
  cases op <;> rfl

theorem value_operand (op : Operand) :
    (ρ.operand op).value m symbols = op.value m symbols := by
  cases op with
  | unsupported text => simp only [operand, Operand.value, lower_string]
  | _ => rfl

end Instructions

/-! ## Assembling -/

section Assembling

theorem defines_layout (s : Layout) (name : String) :
    (ρ.layout s).defines name = s.defines name :=
  rfl

/-- The first pass enters a label of a retouched source as it does that of the source. -/
theorem defineLabel_layout (s : Layout) (line : Nat) (name : String) :
    (ρ.layout s).defineLabel (ρ.line line) name = ρ.layout (s.defineLabel line name) := by
  unfold Layout.defineLabel
  rw [defines_layout]
  split
  · simp [layout, complaint]
  · rfl

/-- The first pass enters data of a retouched source as it does those of the source. -/
theorem defineData_layout (s : Layout) (line : Nat) (name : String) :
    (ρ.layout s).defineData (ρ.line line) name = ρ.layout (s.defineData line name) := by
  unfold Layout.defineData
  rw [defines_layout]
  split
  · simp [layout, complaint]
  · rfl

/-- The first pass goes over a directive of a retouched source as over that of the source. -/
theorem directive_layout (s : Layout) (line : Nat) (d : Directive) :
    (ρ.layout s).directive (ρ.line line) d = ρ.layout (s.directive line d) := by
  cases d with
  | define symbol unit value =>
    cases symbol with
    | none => rfl
    | some name =>
      simp only [Layout.directive, Option.elim_some, defineData_layout]
      rfl
  | _ => rfl

/-- The first pass goes over a line of a retouched source as over that of the source. -/
theorem next_layout (s : Layout) (l : SourceLine) :
    (ρ.layout s).next (ρ.sourceLine l) = ρ.layout (s.next l) := by
  have hlabel : l.label.elim (ρ.layout s) ((ρ.layout s).defineLabel (ρ.line l.number))
      = ρ.layout (l.label.elim s (s.defineLabel l.number)) := by
    cases l.label with
    | none => rfl
    | some name => exact defineLabel_layout s l.number name
  unfold Layout.next
  simp only [sourceLine, hlabel]
  cases l.content with
  | directive d => exact directive_layout _ l.number d
  | instruction i =>
    simp only [content, size_instruction]
    rfl
  | nothing | unknown => rfl

/-- The layout of a retouched source is the retouched layout. -/
theorem of_layout (ls : List SourceLine) :
    Layout.of (ls.map ρ.sourceLine) = ρ.layout (Layout.of ls) := by
  have hfold : ls.foldl (fun s l => s.next (ρ.sourceLine l)) (ρ.layout .start)
      = ρ.layout (ls.foldl Layout.next .start) :=
    List.foldl_hom ρ.layout next_layout
  rw [Layout.of, List.foldl_map]
  exact hfold

theorem instruction_emission (labels : SymbolTable) (s : Emission) (l : SourceLine)
    (i : Instruction) :
    (ρ.emission s).instruction labels (ρ.sourceLine l) (ρ.instruction i)
      = ρ.emission (s.instruction labels l i) := by
  unfold Emission.instruction
  rw [size_instruction, encode_instruction, undefinedNames_instruction]
  simp [emission, record, complaint, sourceLine, string, Function.comp_def]

/-- The second pass goes over a line of a retouched source as over that of the source. -/
theorem next_emission (labels : SymbolTable) (s : Emission) (l : SourceLine) :
    (ρ.emission s).next labels (ρ.sourceLine l) = ρ.emission (s.next labels l) := by
  have hcontent : (ρ.sourceLine l).content = ρ.content l.content := rfl
  unfold Emission.next
  rw [hcontent]
  cases l.content with
  | nothing => rfl
  | directive d => cases d <;> rfl
  | instruction i => exact instruction_emission labels s l i
  | unknown => simp [content, emission, complaint, sourceLine]

/-- The emission of a retouched source is the retouched emission. -/
theorem of_emission (labels : SymbolTable) (ls : List SourceLine) :
    Emission.of labels (ls.map ρ.sourceLine) = ρ.emission (Emission.of labels ls) := by
  have hfold : ls.foldl (fun s l => s.next labels (ρ.sourceLine l)) (ρ.emission .start)
      = ρ.emission (ls.foldl (Emission.next labels) .start) :=
    List.foldl_hom ρ.emission (next_emission labels)
  rw [Emission.of, List.foldl_map]
  exact hfold

/-- Lines that both passes take for the retouched ones are assembled to the retouched assembly. -/
theorem assemble_of_passes {source source' : List Char}
    (hlayout : Layout.of (sourceLines source') = Layout.of ((sourceLines source).map ρ.sourceLine))
    (hemission : ∀ labels, Emission.of labels (sourceLines source')
      = Emission.of labels ((sourceLines source).map ρ.sourceLine)) :
    assemble source' = ρ.assembly (assemble source) := by
  unfold assemble
  simp only [hlayout, hemission, of_layout, of_emission]
  rfl

/-- Retouched lines are assembled to the retouched assembly. -/
theorem assemble_of_sourceLines {source source' : List Char}
    (h : sourceLines source' = (sourceLines source).map ρ.sourceLine) :
    assemble source' = ρ.assembly (assemble source) :=
  assemble_of_passes (by rw [h]) fun labels => by rw [h]

variable (a : Assembly)

theorem symbols_assembly : (ρ.assembly a).symbols = a.symbols := rfl

theorem success_assembly : (ρ.assembly a).success = a.success := by
  simp only [Assembly.success, Assembly.errors, assembly, layout, emission, ← List.map_append,
    List.isEmpty_map]

theorem recordAt?_assembly (address : Int) :
    (ρ.assembly a).recordAt? address = (a.recordAt? address).map ρ.record := by
  unfold Assembly.recordAt?
  exact List.find?_map ..

end Assembling

/-! ## Carrying out instructions -/

section Performing

variable {α β : Type} {m : Machine} {symbols : SymbolTable}

@[simp]
theorem answer_ok (a : α) : ρ.answer (.ok a) = .ok a := rfl

@[simp]
theorem answer_pure (a : α) : ρ.answer (pure a) = pure a := rfl

@[simp]
theorem answer_bind (x : Except Refusal α) (f : α → Except Refusal β) :
    ρ.answer (x >>= f) = ρ.answer x >>= fun a => ρ.answer (f a) := by
  cases x with
  | ok a => rfl
  | error e => rfl

@[simp]
theorem answer_map (f : α → β) (x : Except Refusal α) :
    ρ.answer (f <$> x) = f <$> ρ.answer x := by
  cases x with
  | ok a => rfl
  | error e => rfl

/-- A name that the machine does not have is no text of the source. -/
@[simp]
theorem answer_onMachine (x : Except UnknownName α) : ρ.answer (onMachine x) = onMachine x := by
  cases x with
  | ok a => rfl
  | error e => rfl

/-- The answer that an operand has a value, or none, has nothing in it to retouch. -/
@[simp]
theorem answer_value (op : Operand) : ρ.answer (op.value m symbols) = op.value m symbols := by
  cases op with
  | register r => exact answer_onMachine _
  | unsupported text =>
    unfold Operand.value
    simp only
    split
    · rfl
    · split <;> rfl
  | _ => rfl

@[simp]
theorem destination_operand (op : Operand) :
    (ρ.operand op).destination = ρ.answer op.destination := by
  cases op <;> rfl

/-- A retouched instruction has one operand if the instruction has. -/
@[simp]
theorem oneOperand_map (operands : List Operand) :
    oneOperand (operands.map ρ.operand) = ρ.operand <$> ρ.answer (oneOperand operands) := by
  match operands with
  | [] => rfl
  | [a] => rfl
  | a :: b :: rest => rfl

/-- A retouched instruction has two operands if the instruction has. -/
@[simp]
theorem twoOperands_map (operands : List Operand) :
    twoOperands (operands.map ρ.operand)
      = (fun p => (ρ.operand p.1, ρ.operand p.2)) <$> ρ.answer (twoOperands operands) := by
  match operands with
  | [] => rfl
  | [a] => rfl
  | [a, b] => rfl
  | a :: b :: c :: rest => rfl

/-- A retouched branch has the target of the branch. -/
@[simp]
theorem branchTarget_map (operands : List Operand) :
    branchTarget symbols (operands.map ρ.operand) = ρ.answer (branchTarget symbols operands) := by
  unfold branchTarget
  rw [oneOperand_map, answer_bind]
  cases oneOperand operands with
  | error e => rfl
  | ok op =>
    cases op with
    | label name =>
      cases hlookup : symbols.lookup name with
      | some address => simp [operand, answer, bind, Except.bind, hlookup]
      | none => simp [operand, answer, refusal, bind, Except.bind, hlookup]
    | _ => rfl

theorem arithmetic_map (op : Arithmetic) (operands : List Operand) :
    arithmetic op m symbols (operands.map ρ.operand)
      = ρ.answer (arithmetic op m symbols operands) := by
  simp only [arithmetic, twoOperands_map, bind_pure_comp, bind_map_left, destination_operand,
    value_operand, answer_bind, answer_onMachine, answer_value, answer_map]

/-- What an effect does, besides the line of the trace. -/
def moves (e : Effect) : Machine × Option Nat × Bool :=
  (e.machine, e.target, e.halts)

theorem following_record (r : Record) : (ρ.record r).following = r.following := by
  rw [Record.following, Record.size, record, size_instruction]
  rfl

theorem moves_branchIf (r : Record) (taken : Bool) (target : Nat) :
    moves (r.branchIf m taken target) = (m, if taken then some target else none, false) := by
  cases taken with
  | true => rfl
  | false => rfl

/-- A retouched record does what the record does, and is refused where it is. -/
theorem perform_record (r : Record) :
    moves <$> (ρ.record r).perform m symbols = ρ.answer (moves <$> r.perform m symbols) := by
  have hmnemonic : (ρ.record r).instruction.mnemonic = r.instruction.mnemonic := rfl
  have hoperands : (ρ.record r).instruction.operands = r.instruction.operands.map ρ.operand := rfl
  have hvector : (ρ.record r).instruction.vector? = r.instruction.vector? := vector?_instruction _
  have hbytes : (ρ.record r).bytes = r.bytes := rfl
  unfold Record.perform
  simp only [hmnemonic, hoperands, hvector, hbytes, following_record]
  cases r.instruction.mnemonic with
  | int =>
    simp only
    split
    · simp [moves]
    · rfl
  | je | jne => simp [moves_branchIf]
  | _ => simp [arithmetic_map, value_operand, moves, Record.done]

/-- A record and the retouched one are both refused, or both carried out with the same moves. -/
theorem perform_record_cases (ρ : Retouch) (r : Record) (m : Machine) (symbols : SymbolTable) :
    (∃ e, r.perform m symbols = .error e
        ∧ (ρ.record r).perform m symbols = .error (ρ.refusal e))
      ∨ ∃ effect line, r.perform m symbols = .ok effect
        ∧ (ρ.record r).perform m symbols = .ok { effect with trace := line } := by
  have hmoves : moves <$> (ρ.record r).perform m symbols
      = ρ.answer (moves <$> r.perform m symbols) := perform_record r
  -- `moves` leaves out the line of the trace and nothing else, so what agrees on it agrees but for
  -- the line.
  cases hperform : r.perform m symbols with
  | error e =>
    refine .inl ⟨e, rfl, ?_⟩
    rw [hperform] at hmoves
    cases hother : (ρ.record r).perform m symbols with
    | error e' =>
      rw [hother] at hmoves
      rw [Except.error.inj hmoves]
    | ok other =>
      rw [hother] at hmoves
      exact nomatch hmoves
  | ok effect =>
    rw [hperform] at hmoves
    cases hother : (ρ.record r).perform m symbols with
    | error e' =>
      rw [hother] at hmoves
      exact nomatch hmoves
    | ok other =>
      rw [hother] at hmoves
      obtain ⟨machine, line, target, halts⟩ := other
      obtain ⟨hmachine, htarget, hhalts⟩ : machine = effect.machine ∧ target = effect.target
          ∧ halts = effect.halts := by
        simpa [moves] using Except.ok.inj hmoves
      exact .inr ⟨effect, line, rfl, by rw [hmachine, htarget, hhalts]⟩

end Performing

/-! ## Runs -/

/-- States of two runs with the same machine, after as many instructions. The lines of the traces
are related one by one. -/
structure Abreast (T : String → String → Prop) (s s' : Progress) : Prop where
  machine : s'.machine = s.machine
  executed : s'.executed = s.executed
  trace : List.Forall₂ T s.trace.toList s'.trace.toList

section Runs

variable {T : String → String → Prop} {a : Assembly} {disabled : List Mnemonic}
  {symbols : SymbolTable} {s s' : Progress}

/-- A step of a retouched record leaves the machine that the step of the record leaves. -/
theorem machine_step (h : s'.machine = s.machine) (r : Record) :
    (s'.step disabled symbols (ρ.record r)).1.machine = (s.step disabled symbols r).1.machine
      ∧ (s'.step disabled symbols (ρ.record r)).2 = (s.step disabled symbols r).2 := by
  have hfollowing : (ρ.record r).following = r.following := following_record r
  by_cases hdisabled : r.instruction.mnemonic ∈ disabled
  · have hdisabled' : (ρ.record r).instruction.mnemonic ∈ disabled := hdisabled
    rw [Progress.step_of_disabled hdisabled, Progress.step_of_disabled hdisabled', hfollowing, h]
    exact ⟨rfl, rfl⟩
  · have hdisabled' : (ρ.record r).instruction.mnemonic ∉ disabled := hdisabled
    rcases perform_record_cases ρ r s.machine symbols with
      ⟨e, hperform, hother⟩ | ⟨effect, line, hperform, hother⟩
    · rw [← h] at hother
      rw [Progress.step_of_error hdisabled hperform, Progress.step_of_error hdisabled' hother,
        hfollowing, h]
      exact ⟨rfl, rfl⟩
    · rw [← h] at hother
      rw [Progress.step_of_ok hdisabled hperform, Progress.step_of_ok hdisabled' hother, hfollowing]
      exact ⟨rfl, rfl⟩

/-- A record and the retouched one do the same, and add lines of their own to the traces. -/
theorem Abreast.step (h : Abreast T s s') (r : Record)
    (hline : T (s.line disabled symbols r) (s'.line disabled symbols (ρ.record r))) :
    Abreast T (s.step disabled symbols r).1 (s'.step disabled symbols (ρ.record r)).1 where
  machine := (machine_step h.machine r).1
  executed := by
    rw [(Progress.executed_step ..).1, (Progress.executed_step ..).1, h.executed]
  trace := by
    rw [Progress.trace_step, Progress.trace_step, Array.toList_push, Array.toList_push]
    exact List.rel_append h.trace (.cons hline .nil)

/-- The next record of a retouched assembly is the retouched next record. -/
theorem next?_assembly (h : s'.machine = s.machine) :
    s'.next? (ρ.assembly a) = (s.next? a).map ρ.record := by
  unfold Progress.next?
  rw [h]
  cases s.machine.get "ip" with
  | ok ip => exact recordAt?_assembly a ip
  | error e => rfl

/-- Runs of an assembly and of the retouched one stay abreast. -/
theorem run_retouched (limit : Nat) (h : Abreast T s s')
    (hline : ∀ (s s' : Progress) (r : Record), s'.machine = s.machine →
      T (s.line disabled a.symbols r) (s'.line disabled a.symbols (ρ.record r))) :
    Abreast T (Progress.run a disabled limit s)
      (Progress.run (ρ.assembly a) disabled limit s') := by
  induction limit generalizing s s' with
  | zero => exact h
  | succ limit ih =>
    have hnext' : s'.next? (ρ.assembly a) = (s.next? a).map ρ.record := next?_assembly h.machine
    cases hnext : s.next? a with
    | none =>
      rw [hnext] at hnext'
      rwa [Progress.run_of_next_none hnext, Progress.run_of_next_none hnext']
    | some r =>
      rw [hnext] at hnext'
      have hstep := h.step r (hline s s' r h.machine)
      rw [Progress.run_of_next_some hnext, Progress.run_of_next_some hnext', symbols_assembly,
        (machine_step h.machine r).2]
      split
      · exact hstep
      · exact ih hstep

end Runs

/-- Results of two runs that agree, but for the wording of their output, line by line. -/
structure SameResult (T : String → String → Prop) (x y : RunResult) : Prop where
  success : y.success = x.success
  registers : y.registers = x.registers
  memory : y.memory = x.memory
  executed : y.executed = x.executed
  stepLimitReached : y.stepLimitReached = x.stepLimitReached
  output : List.Forall₂ T x.output y.output

/-- Results that agree with a third one agree with each other. -/
theorem SameResult.of_common {T : String → String → Prop} {x y z : RunResult}
    (hx : SameResult T x z) (hT : ∀ a b c, T a c → T b c → T a b) (hy : SameResult T y z) :
    SameResult T x y where
  success := hy.success.symm.trans hx.success
  registers := hy.registers.symm.trans hx.registers
  memory := hy.memory.symm.trans hx.memory
  executed := hy.executed.symm.trans hx.executed
  stepLimitReached := hy.stepLimitReached.symm.trans hx.stepLimitReached
  output := by
    have output {xs ys zs : List String} (hxs : List.Forall₂ T xs zs) (hys : List.Forall₂ T ys zs) :
        List.Forall₂ T xs ys := by
      induction hxs generalizing ys with
      | nil =>
        cases hys
        exact .nil
      | cons hline _ ih =>
        cases hys with
        | cons hline' hys => exact .cons (hT _ _ _ hline hline') (ih hys)
    exact output hx.output hy.output

/-- An assembly and the retouched one have the same result. -/
theorem sameResult_execute {T : String → String → Prop} (hT : ∀ line, T line line) (ρ : Retouch)
    (a : Assembly) (limits : Limits) (disabled : List Mnemonic)
    (hline : ∀ (s s' : Progress) (r : Record), s'.machine = s.machine →
      T (s.line disabled a.symbols r) (s'.line disabled a.symbols (ρ.record r))) :
    SameResult T (a.execute limits disabled) ((ρ.assembly a).execute limits disabled) := by
  have hrefl (lines : List String) : List.Forall₂ T lines lines :=
    List.forall₂_same.2 fun line _ => hT line
  unfold Assembly.execute
  rw [success_assembly]
  split
  · have hstart : Abreast T .start .start := ⟨rfl, rfl, .nil⟩
    have hrun := run_retouched limits.steps.toNat hstart hline
    have hnext : (Progress.run (ρ.assembly a) disabled limits.steps.toNat .start).next?
        (ρ.assembly a)
          = ((Progress.run a disabled limits.steps.toNat .start).next? a).map ρ.record :=
      next?_assembly hrun.machine
    refine ⟨rfl, ?_, ?_, hrun.executed, ?_, ?_⟩
    · simp only [hrun.machine]
    · simp only [hrun.machine]
    · simp only [hrun.executed, hnext, Option.isSome_map]
    · simp only [hrun.executed, hnext, Option.isSome_map]
      exact List.rel_append hrun.trace (hrefl _)
  · exact ⟨rfl, rfl, rfl, rfl, rfl, hrefl _⟩

end Retouch

end TurboBench.Asm
