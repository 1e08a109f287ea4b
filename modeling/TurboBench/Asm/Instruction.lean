import TurboBench.Asm.Operand

/-!
Instructions and their encoding.

An instruction has a mnemonic and operands; its operation code and its size follow from these, by
the table of `Mnemonic` and a few forms with a code of their own (`Instruction.form`). The size is
what addresses are counted by, whatever the number of encoded bytes is.
-/

namespace TurboBench.Asm

open TurboBench.Text (lower)

/-- The instructions. -/
inductive Mnemonic where
  | mov | add | sub | cmp | jmp | je | jne | call | ret | int | push | pop
  deriving DecidableEq, Repr, Inhabited

namespace Mnemonic

/-- The name of an instruction. -/
def name : Mnemonic → String
  | mov => "mov"
  | add => "add"
  | sub => "sub"
  | cmp => "cmp"
  | jmp => "jmp"
  | je => "je"
  | jne => "jne"
  | call => "call"
  | ret => "ret"
  | int => "int"
  | push => "push"
  | pop => "pop"

/-- The name of an instruction in capitals, as messages show it. -/
def title (m : Mnemonic) : String :=
  String.ofList (m.name.toList.map Char.toUpper)

/-- All instructions. -/
def all : List Mnemonic :=
  [mov, add, sub, cmp, jmp, je, jne, call, ret, int, push, pop]

/-- The instruction with the given name. -/
def ofName? (s : String) : Option Mnemonic :=
  all.find? (·.name == s)

@[simp] theorem ofName?_name (m : Mnemonic) : ofName? m.name = some m := by
  cases m <;> decide

/-- Whether an instruction can transfer control to a label. -/
def isBranch : Mnemonic → Bool
  | jmp | je | jne | call => true
  | _ => false

end Mnemonic

/-- An operation code and the number of bytes an instruction takes. -/
structure Form where
  opcode : Nat
  size : Nat
  deriving DecidableEq, Repr

/-- The form of an instruction that has no form of its own. -/
def Mnemonic.form : Mnemonic → Form
  | mov => ⟨0x88, 2⟩
  | add => ⟨0x00, 2⟩
  | sub => ⟨0x28, 2⟩
  | cmp => ⟨0x38, 2⟩
  | jmp => ⟨0xE9, 3⟩
  | je => ⟨0x74, 2⟩
  | jne => ⟨0x75, 2⟩
  | call => ⟨0xE8, 3⟩
  | ret => ⟨0xC3, 1⟩
  | int => ⟨0xCD, 2⟩
  | push => ⟨0x50, 1⟩
  | pop => ⟨0x58, 1⟩

/-- An instruction of a source: its line, the text of the line, and what it says. -/
structure Instruction where
  line : Nat
  text : String
  mnemonic : Mnemonic
  operands : List Operand
  deriving DecidableEq, Repr, Inhabited

/-- Whether an operand names the data segment. -/
def Operand.isDataSegment : Operand → Bool
  | unsupported text => lower text.toList == "@data".toList
  | _ => false

namespace Instruction

/-- The form of an instruction. Moves into some registers have a form of their own. -/
def form (i : Instruction) : Form :=
  match i.mnemonic, i.operands with
  | .mov, [.register .ax, source] => if source.isDataSegment then ⟨0xB8, 3⟩ else Mnemonic.mov.form
  | .mov, [.register .ds, .register .ax] => ⟨0x8E, 2⟩
  | .mov, .register .ah :: _ => ⟨0xB4, 2⟩
  | .mov, .register .dx :: _ => ⟨0xBA, 3⟩
  | m, _ => m.form

/-- The number of bytes an instruction takes. -/
def size (i : Instruction) : Nat :=
  i.form.size

/-- The operation code. -/
def opcode (i : Instruction) : Nat :=
  i.form.opcode

/-- The number of the interrupt that an interrupt instruction names by a number. -/
def vector? (i : Instruction) : Option Nat :=
  match i.mnemonic, i.operands with
  | .int, .immediate n _ :: _ => some (n % 0x100)
  | _, _ => none

/-- Every instruction takes at least one byte and at most three. -/
theorem size_bounds (i : Instruction) : 1 ≤ i.size ∧ i.size ≤ 3 := by
  have hm (m : Mnemonic) : 1 ≤ m.form.size ∧ m.form.size ≤ 3 := by cases m <;> decide
  unfold size form
  split
  · split
    · decide
    · exact hm _
  · decide
  · decide
  · decide
  · exact hm _

end Instruction

/-! ## Encoding -/

/-- Names with the addresses they stand for. -/
abbrev SymbolTable := List (String × Nat)

/-- The low and the high byte of a word. -/
def wordBytes (n : Nat) : List Nat :=
  [n % 0x100, n / 0x100 % 0x100]

/-- The bytes of an operand: one or two for a decimal number, the address of a known label, and a
zero for everything else. -/
def Operand.encode (labels : SymbolTable) : Operand → List Nat
  | immediate n .decimal => if 0xFF < n then wordBytes n else [n % 0x100]
  | label name =>
    match labels.lookup name with
    | some address => wordBytes address
    | none => [0]
  | register _ | immediate _ .hexadecimal | unsupported _ => [0]

/-- The bytes of an instruction. One that takes a single byte has no room for operands. -/
def Instruction.encode (labels : SymbolTable) (i : Instruction) : List Nat :=
  i.opcode :: (if 1 < i.size then i.operands.flatMap (·.encode labels) else [])

end TurboBench.Asm
