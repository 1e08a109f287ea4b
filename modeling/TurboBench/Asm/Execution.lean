import TurboBench.Asm.Assembly

/-!
Executing assembled programs.

An instruction is carried out on a machine with the table of all names. It either yields the new
machine with a line for the trace, or is refused with a cause, in which case the machine stays as
it is. A run fetches the record at the instruction pointer, carries it out and goes on, until there
is no record at the instruction pointer, the program halts itself, or as many instructions as
allowed have been executed.
-/

namespace TurboBench.Asm

/-! ## Refusals -/

/-- Why an instruction is refused. -/
inductive Refusal where
  | operandCount (expected : Nat)
  | unsupportedOperand (op : Operand)
  | unknownLabel (op : Operand)
  | unknownName (name : String)
  deriving DecidableEq, Repr

/-- The wording of a refusal of an instruction with the mnemonic. -/
def Refusal.message (m : Mnemonic) : Refusal → String
  | operandCount expected => s!"Expected {expected} operands for {m.title}"
  | unsupportedOperand op => s!"Unsupported operand for {m.title}: {op.describe}"
  | unknownLabel op => s!"Unknown label: {op.describe}"
  | unknownName name => s!"Unknown register: {name}"

/-- What carrying out an instruction leads to: the machine, the line of the trace, where control is
transferred to if it is, and whether the program is over. -/
structure Effect where
  machine : Machine
  trace : String
  target : Option Nat
  halts : Bool

/-- An access to the machine as part of an instruction. -/
def onMachine {α : Type} : Except UnknownName α → Except Refusal α
  | .ok a => .ok a
  | .error e => .error (.unknownName e.name)

/-! ## Operands -/

/-- The value of an operand. A name stands for its address or offset; operands that are not
supported, and names that are not known, count as zero. -/
def Operand.value (m : Machine) (symbols : SymbolTable) : Operand → Except Refusal Int
  | register r => onMachine (m.get r.name)
  | immediate n _ => .ok n
  | label name => .ok (((symbols.lookup name).getD 0 : Nat) : Int)
  | unsupported text =>
    let folded := Text.lower text.toList
    if folded = "@data".toList then .ok (defaultSegment : Int)
    else if "offset ".toList.isPrefixOf folded then
      let name := String.ofList (Text.trim (folded.drop "offset ".length))
      .ok (((symbols.lookup name).getD 0 : Nat) : Int)
    else .ok 0

/-- The register that an operand names. -/
def Operand.destination : Operand → Except Refusal Register
  | register r => .ok r
  | op => .error (.unsupportedOperand op)

/-- The only operand of an instruction. -/
def oneOperand : List Operand → Except Refusal Operand
  | [op] => .ok op
  | _ => .error (.operandCount 1)

/-- The two operands of an instruction. -/
def twoOperands : List Operand → Except Refusal (Operand × Operand)
  | [a, b] => .ok (a, b)
  | _ => .error (.operandCount 2)

/-- Where a branch with the given operands leads. -/
def branchTarget (symbols : SymbolTable) (operands : List Operand) : Except Refusal Nat := do
  let op ← oneOperand operands
  match op with
  | .label name =>
    match symbols.lookup name with
    | some address => .ok address
    | none => .error (.unknownLabel op)
  | .unsupported _ => .error (.unsupportedOperand op)
  | _ => .error (.unknownLabel op)

/-! ## Arithmetic -/

/-- The operations on two numbers that set flags. -/
inductive Arithmetic where
  | add | subtract
  deriving DecidableEq, Repr

/-- The outcome of an operation on two words of `bits` bits: the word and the four flags. -/
structure ArithmeticResult where
  word : Int
  zero : Bool
  sign : Bool
  carry : Bool
  overflow : Bool
  deriving DecidableEq, Repr

/-- Whether bit `bits - 1` of a number is set. -/
def signBit (bits : Nat) (n : Int) : Bool :=
  n / Machine.wordCount (bits - 1) % 2 == 1

/-- Adds or subtracts two words of `bits` bits. A sum overflows if operands of one sign yield the
other sign, a difference if operands of different signs yield the sign of the second. -/
def Arithmetic.compute (op : Arithmetic) (bits : Nat) (a b : Int) : ArithmeticResult :=
  let raw : Int := match op with
    | add => a + b
    | subtract => a - b
  let word : Int := raw % Machine.wordCount bits
  let sa := signBit bits a
  let sb := signBit bits b
  let sr := signBit bits word
  { word := word
    zero := word == 0
    sign := sr
    carry := raw < 0 || Machine.wordCount bits ≤ raw
    overflow := match op with
      | add => sa == sb && sa != sr
      | subtract => sa != sb && sa != sr }

/-- The machine with the flags of an operation. -/
def ArithmeticResult.setFlags (r : ArithmeticResult) (m : Machine) :
    Except UnknownName Machine := do
  let m ← m.setFlag "ZF" r.zero
  let m ← m.setFlag "SF" r.sign
  let m ← m.setFlag "CF" r.carry
  m.setFlag "OF" r.overflow

/-- Carries out an operation on a register and an operand: the register, the result, and the
machine with the flags of the result. -/
def arithmetic (op : Arithmetic) (m : Machine) (symbols : SymbolTable) (operands : List Operand) :
    Except Refusal (Register × Int × Machine) := do
  let (first, second) ← twoOperands operands
  let register ← first.destination
  let bits := Machine.width register.name
  let a ← onMachine (m.get register.name)
  let b := (← second.value m symbols) % Machine.wordCount bits
  let result := op.compute bits a b
  let m ← onMachine (result.setFlags m)
  return (register, result.word, m)

/-! ## Instructions -/

/-- The interrupt that offers the services of the operating system. -/
def dosInterrupt : Nat := 0x21

/-- The service that ends the program. -/
def terminateService : Nat := 0x4C

namespace Record

/-- The effect of an instruction that only changes the machine. -/
def done (r : Record) (m : Machine) : Effect :=
  ⟨m, s!"{r.instruction.mnemonic.title} executed: {r.source}", none, false⟩

/-- The effect of a conditional branch. -/
def branchIf (r : Record) (m : Machine) (taken : Bool) (target : Nat) : Effect :=
  let title := r.instruction.mnemonic.title
  if taken then ⟨m, s!"{title} taken: {r.source}", some target, false⟩
  else ⟨m, s!"{title} not taken: {r.source}", none, false⟩

/-- Carries out a record. -/
def perform (r : Record) (m : Machine) (symbols : SymbolTable) : Except Refusal Effect := do
  let operands := r.instruction.operands
  match r.instruction.mnemonic with
  | .mov =>
    let (first, second) ← twoOperands operands
    let register ← first.destination
    let v ← second.value m symbols
    return r.done (← onMachine (m.set register.name v))
  | .add =>
    let (register, v, m) ← arithmetic .add m symbols operands
    return r.done (← onMachine (m.set register.name v))
  | .sub =>
    let (register, v, m) ← arithmetic .subtract m symbols operands
    return r.done (← onMachine (m.set register.name v))
  | .cmp =>
    let (_, _, m) ← arithmetic .subtract m symbols operands
    return r.done m
  | .jmp =>
    let target ← branchTarget symbols operands
    return { r.done m with target := some target }
  | .je =>
    let zero ← onMachine (m.getFlag "ZF")
    let target ← branchTarget symbols operands
    return r.branchIf m (zero == 1) target
  | .jne =>
    let zero ← onMachine (m.getFlag "ZF")
    let target ← branchTarget symbols operands
    return r.branchIf m (zero == 0) target
  | .call =>
    -- Nothing is put on the stack before the target is known.
    let target ← branchTarget symbols operands
    let m ← onMachine (m.push r.following)
    return { r.done m with target := some target }
  | .ret =>
    let (address, m) ← onMachine m.pop
    return ⟨m, "RET executed", some address, false⟩
  | .push =>
    let op ← oneOperand operands
    let v ← op.value m symbols
    return r.done (← onMachine (m.push v))
  | .pop =>
    let op ← oneOperand operands
    let register ← op.destination
    let (v, m) ← onMachine m.pop
    return r.done (← onMachine (m.set register.name v))
  | .int =>
    let vector := r.instruction.vector?.getD (r.bytes.getD 1 0)
    if vector = dosInterrupt then
      let ah ← onMachine (m.get "ah")
      return ⟨m, "INT 21h - DOS interrupt executed", none, ah == terminateService⟩
    else return ⟨m, s!"INT {Text.hex vector}h executed", none, false⟩

end Record

/-! ## Runs -/

/-- The state of a run: the machine, the trace, and the number of instructions executed. -/
structure Progress where
  machine : Machine
  trace : Array String
  executed : Nat

namespace Progress

/-- The state before the first instruction. -/
def start : Progress :=
  ⟨.fresh, #[], 0⟩

/-- The record that is to be executed next. -/
def next? (s : Progress) (a : Assembly) : Option Record :=
  match s.machine.get "ip" with
  | .ok ip => a.recordAt? ip
  | .error _ => none

/-- The state after a record that leaves a machine and a line of the trace, with control at an
address. -/
def advance (s : Progress) (m : Machine) (trace : String) (ip : Nat) : Progress :=
  ⟨m.setWhole "ip" (ip % 0x10000), s.trace.push trace, s.executed + 1⟩

/-- The state after a record, and whether the program halted itself. Instructions that are
`disabled`, and those that are refused, are passed over with a note in the trace. -/
def step (disabled : List Mnemonic) (symbols : SymbolTable) (s : Progress) (r : Record) :
    Progress × Bool :=
  if r.instruction.mnemonic ∈ disabled then
    (s.advance s.machine s!"Unknown instruction: {r.source}" r.following, false)
  else
    match r.perform s.machine symbols with
    | .error e =>
      let message := e.message r.instruction.mnemonic
      (s.advance s.machine s!"Error at line {r.line}: {message}" r.following, false)
    | .ok effect =>
      (s.advance effect.machine effect.trace (effect.target.getD r.following), effect.halts)

/-- The state after at most `limit` instructions. -/
def run (a : Assembly) (disabled : List Mnemonic) : Nat → Progress → Progress
  | 0, s => s
  | limit + 1, s =>
    match s.next? a with
    | none => s
    | some r =>
      let (s, halted) := s.step disabled a.symbols r
      if halted then s else run a disabled limit s

end Progress

/-- The limits of a run. -/
structure Limits where
  steps : Int
  dump : Int
  deriving DecidableEq, Repr

/-- The limits where none are given. -/
def Limits.default : Limits :=
  ⟨1000, 256⟩

/-- The result of a run as it is reported. -/
structure RunResult where
  success : Bool
  registers : RegisterFile
  memory : List UInt8
  output : List String
  executed : Nat
  stepLimitReached : Bool

/-- The result of executing an assembly with errors. -/
def RunResult.notAssembled (limits : Limits) : RunResult where
  success := false
  registers := Machine.fresh.registers
  memory := Machine.fresh.memory.dump limits.dump
  output := ["Program was not assembled successfully"]
  executed := 0
  stepLimitReached := false

/-- Executes an assembly. The limit counts as reached if there was a record to go on with when as
many instructions as allowed had been executed. -/
def Assembly.execute (a : Assembly) (limits : Limits) (disabled : List Mnemonic) : RunResult :=
  if a.success then
    let s := Progress.run a disabled limits.steps.toNat .start
    -- A program that halts itself leaves control behind its last instruction.
    let reached := limits.steps ≤ s.executed && (s.next? a).isSome
    let status := s!"Execution halted: step limit of {limits.steps} instructions reached"
    { success := true
      registers := s.machine.registers
      memory := s.machine.memory.dump limits.dump
      output := s.trace.toList ++ if reached then [status] else []
      executed := s.executed
      stepLimitReached := reached }
  else .notAssembled limits

end TurboBench.Asm
