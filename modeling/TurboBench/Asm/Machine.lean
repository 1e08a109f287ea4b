import TurboBench.Asm.Memory
import TurboBench.Text.Case

/-!
The state of the processor: a register file and a memory, with the operations that read and change
them.

A register file maps names to integers. The fresh machine has the fourteen registers of
`registerNames`, and every value that an operation writes is taken modulo the width of its
register. The eight byte registers are not cells of their own but halves of the four word
registers they belong to. Names of registers are looked up in small letters; names of flags as
they are. An operation on a name that the machine does not have is refused and changes nothing.
-/

namespace TurboBench.Asm

/-- The names of the registers of a fresh machine. -/
def registerNames : List String :=
  ["ax", "bx", "cx", "dx", "si", "di", "sp", "bp", "cs", "ds", "es", "ss", "ip", "flags"]

/-- Where programs are loaded and started. -/
def loadAddress : Nat := 0x100

/-- Where the stack begins; it grows downwards. -/
def stackTop : Nat := 0xFFFE

/-- What the segment registers hold at the start. -/
def defaultSegment : Nat := 0x1000

/-- A register that is half of another: the name of the whole, and whether it is the high half. -/
def byteHalf? : String → Option (String × Bool)
  | "al" => some ("ax", false)
  | "ah" => some ("ax", true)
  | "bl" => some ("bx", false)
  | "bh" => some ("bx", true)
  | "cl" => some ("cx", false)
  | "ch" => some ("cx", true)
  | "dl" => some ("dx", false)
  | "dh" => some ("dx", true)
  | _ => none

/-- What the bit of a flag counts in the flags register. -/
def flagWeight? : String → Option Nat
  | "CF" => some 0x1
  | "ZF" => some 0x40
  | "SF" => some 0x80
  | "OF" => some 0x800
  | _ => none

/-- A name of a register or flag that the machine does not have. -/
structure UnknownName where
  name : String
  deriving DecidableEq, Repr

/-- Registers with their values, in the order in which they were first set. -/
abbrev RegisterFile := List (String × Int)

namespace RegisterFile

/-- The register file with a register set to a value. A register that is not there is added. -/
def set : RegisterFile → String → Int → RegisterFile
  | [], name, v => [(name, v)]
  | (n, w) :: rs, name, v => if n = name then (n, v) :: rs else (n, w) :: set rs name v

/-- A register has the value that it was set to. -/
theorem lookup_set_self (rs : RegisterFile) (name : String) (v : Int) :
    (set rs name v).lookup name = some v := by
  induction rs with
  | nil => simp [set]
  | cons r rs ih =>
    obtain ⟨n, w⟩ := r
    by_cases h : n = name
    · simp [set, h]
    · have : (name == n) = false := by simpa using Ne.symm h
      simp [set, h, List.lookup_cons, this, ih]

/-- Setting a register leaves the values of the others. -/
theorem lookup_set_of_ne (rs : RegisterFile) {name other : String} (v : Int) (h : other ≠ name) :
    (set rs name v).lookup other = rs.lookup other := by
  have hne : (other == name) = false := by simpa using h
  induction rs with
  | nil => simp [set, List.lookup_cons, hne]
  | cons r rs ih =>
    obtain ⟨n, w⟩ := r
    by_cases hn : n = name
    · simp [set, hn, List.lookup_cons, hne]
    · simp only [set, if_neg hn, List.lookup_cons, ih]

/-- Setting a register that is there keeps the names and their order. -/
theorem map_fst_set {rs : RegisterFile} {name : String} (v : Int)
    (h : name ∈ rs.map Prod.fst) : (set rs name v).map Prod.fst = rs.map Prod.fst := by
  induction rs with
  | nil => simp at h
  | cons r rs ih =>
    obtain ⟨n, w⟩ := r
    by_cases hn : n = name
    · simp [set, hn]
    · have : name ∈ rs.map Prod.fst := by
        rcases List.mem_cons.1 h with e | e
        · exact absurd e.symm hn
        · exact e
      simp only [set, if_neg hn, List.map_cons, ih this]

end RegisterFile

/-- A machine: its registers and its memory. -/
structure Machine where
  registers : RegisterFile
  memory : Memory

namespace Machine

/-- The registers of a fresh machine. -/
def freshRegisters : RegisterFile :=
  registerNames.map fun name =>
    (name, if name ∈ ["cs", "ds", "es", "ss"] then (defaultSegment : Int)
      else if name = "sp" then (stackTop : Int)
      else if name = "ip" then (loadAddress : Int)
      else 0)

/-- A machine on which nothing has been done. -/
def fresh : Machine :=
  ⟨freshRegisters, .zero⟩

/-- A machine with the given registers and an empty memory; without registers, a fresh one. -/
def withRegisters (rs : RegisterFile) : Machine :=
  ⟨if rs.isEmpty then freshRegisters else rs, .zero⟩

/-- The name under which a register is looked up. -/
def foldRegister (name : String) : String :=
  String.ofList (Text.lower name.toList)

/-- The value of a whole register. -/
def whole (m : Machine) (name : String) : Except UnknownName Int :=
  match m.registers.lookup name with
  | some v => .ok v
  | none => .error ⟨name⟩

/-- The machine with a whole register set. -/
def setWhole (m : Machine) (name : String) (v : Int) : Machine :=
  { m with registers := m.registers.set name v }

/-- The value of a register or of half a register. -/
def get (m : Machine) (name : String) : Except UnknownName Int :=
  let name := foldRegister name
  match byteHalf? name with
  | some (word, high) => do
    let v ← m.whole word
    return (if high then v / 0x100 else v) % 0x100
  | none => m.whole name

/-- The machine with a register, or half a register, set. -/
def set (m : Machine) (name : String) (v : Int) : Except UnknownName Machine :=
  let name := foldRegister name
  match byteHalf? name with
  | some (word, high) => do
    -- The other half is kept.
    let old := (← m.whole word) % 0x10000
    let new := if high then old % 0x100 + 0x100 * (v % 0x100)
      else 0x100 * (old / 0x100) + v % 0x100
    return m.setWhole word new
  | none => .ok (m.setWhole name (v % 0x10000))

/-- The number of bits of a register. -/
def width (name : String) : Nat :=
  if (byteHalf? (foldRegister name)).isSome then 8 else 16

/-- How many words of the given number of bits there are. -/
def wordCount (bits : Nat) : Nat :=
  Nat.pow 2 bits

@[simp]
theorem wordCount_byte : wordCount 8 = 0x100 := rfl

@[simp]
theorem wordCount_word : wordCount 16 = 0x10000 := rfl

/-! ## Flags -/

/-- The value of a flag, 0 or 1. -/
def getFlag (m : Machine) (flag : String) : Except UnknownName Int := do
  let flags ← m.whole "flags"
  match flagWeight? flag with
  | some weight => .ok (flags / weight % 2)
  | none => .error ⟨flag⟩

/-- The machine with a flag set or cleared. -/
def setFlag (m : Machine) (flag : String) (on : Bool) : Except UnknownName Machine :=
  match flagWeight? flag with
  | none => .error ⟨flag⟩
  | some weight => do
    let flags ← m.whole "flags"
    let isSet := flags / weight % 2 == 1
    if on then return m.setWhole "flags" (if isSet then flags else flags + weight)
    else
      return m.setWhole "flags" ((if isSet then flags - weight else flags) % 0x10000)

/-! ## The stack -/

/-- The machine after a word was put on the stack. -/
def push (m : Machine) (v : Int) : Except UnknownName Machine := do
  let sp := ((← m.whole "sp") - 2) % 0x10000
  return ⟨m.registers.set "sp" sp, m.memory.writeWord sp v⟩

/-- The word on top of the stack, and the machine after it was taken off. -/
def pop (m : Machine) : Except UnknownName (Nat × Machine) := do
  let sp ← m.whole "sp"
  return (m.memory.readWord sp, m.setWhole "sp" ((sp + 2) % 0x10000))

/-! ## Closed facts -/

theorem map_fst_freshRegisters : freshRegisters.map Prod.fst = registerNames := by
  decide

/-- The fresh machine is the one without given registers. -/
theorem withRegisters_nil : withRegisters [] = fresh := rfl

end Machine

end TurboBench.Asm
