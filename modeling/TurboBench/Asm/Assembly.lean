import TurboBench.Text.Field
import TurboBench.Text.Lines
import TurboBench.Asm.Line
import TurboBench.Asm.Machine

/-!
Assembling: from a source to the records of its instructions and the tables of its names.

Every line is read once (`SourceLine.read`). The first pass over the lines counts addresses and
defines names: a label stands for the address of the next instruction, a named data directive for
an offset into the data. The second pass counts addresses again, in the same way, and encodes the
instructions with the labels of the first pass. A name is defined once; a second definition is an
error and changes neither table.

Complaints are collected, and there is an assembly whatever they are (`assemble`). The stack is the
one thing that can keep a source from being assembled: data can be nested deeper than there is room
for (`assembleWithin`).
-/

namespace TurboBench.Asm

open TurboBench.Text (trim lines)

/-! ## Lines -/

/-- What a line holds besides its label. -/
inductive Content where
  | nothing
  | directive (d : Directive)
  | instruction (i : Instruction)
  | unknown
  deriving DecidableEq, Repr

/-- A line of the source that was read: its number, its text without comment and outer white space,
its label and its content. -/
structure SourceLine where
  number : Nat
  text : List Char
  label : Option String
  content : Content
  deriving DecidableEq, Repr

/-- Reads a line. What is a directive is not looked at as an instruction. -/
def SourceLine.read (number : Nat) (line : List Char) : SourceLine :=
  let text := trim (stripComment line)
  let (label, rest) := splitLabel text
  let content :=
    if rest.isEmpty then .nothing
    else match Directive.read? rest with
      | some d => .directive d
      | none =>
        match Instruction.read? number text with
        | some i => .instruction i
        | none => .unknown
  ⟨number, text, label, content⟩

/-- Numbers items from `n` on. -/
def numbered {α : Type} (n : Nat) : List α → List (Nat × α)
  | [] => []
  | a :: as => (n, a) :: numbered (n + 1) as

/-- The lines of a source. -/
def sourceLines (source : List Char) : List SourceLine :=
  (numbered 1 (lines source)).map fun (n, l) => .read n l

/-! ## Complaints -/

/-- What is wrong with a line. -/
inductive Complaint where
  | duplicateLabel (name : String)
  | duplicateSymbol (name : String)
  | unknownContent
  | undefinedSymbol (name : String)
  deriving DecidableEq, Repr

/-- The wording of a complaint. -/
def Complaint.message : Complaint → String
  | duplicateLabel name => s!"Duplicate label '{name}'"
  | duplicateSymbol name => s!"Duplicate symbol '{name}'"
  | unknownContent => "Unknown instruction or directive"
  | undefinedSymbol name => s!"Undefined symbol '{name}'"

/-- A complaint about a line. -/
structure LineComplaint where
  line : Nat
  complaint : Complaint
  deriving DecidableEq, Repr

/-- A complaint as it is reported. -/
def LineComplaint.text (c : LineComplaint) : String :=
  s!"Line {c.line}: {c.complaint.message}"

/-! ## First pass -/

/-- The segments that a source can switch between. Which one is current has no effect on addresses
or offsets. -/
inductive Segment where
  | code | data
  deriving DecidableEq, Repr

/-- The name of a segment. -/
def Segment.name : Segment → String
  | code => "code"
  | data => "data"

/-- The state of the first pass: the address of the next instruction, the offset of the next data,
the names defined so far, the errors so far, and the current segment. -/
structure Layout where
  address : Nat
  offset : Nat
  labels : SymbolTable
  dataSymbols : SymbolTable
  errors : List LineComplaint
  segment : Option Segment
  deriving DecidableEq, Repr

namespace Layout

/-- The state before the first line. -/
def start : Layout :=
  ⟨loadAddress, 0, [], [], [], none⟩

/-- Whether a name is in one of the tables. -/
def defines (s : Layout) (name : String) : Bool :=
  (s.labels.lookup name).isSome || (s.dataSymbols.lookup name).isSome

/-- Defines a label at the present address. -/
def defineLabel (s : Layout) (line : Nat) (name : String) : Layout :=
  if s.defines name then { s with errors := s.errors ++ [⟨line, .duplicateLabel name⟩] }
  else { s with labels := s.labels ++ [(name, s.address)] }

/-- Defines a name of data at the present offset. -/
def defineData (s : Layout) (line : Nat) (name : String) : Layout :=
  if s.defines name then { s with errors := s.errors ++ [⟨line, .duplicateSymbol name⟩] }
  else { s with dataSymbols := s.dataSymbols ++ [(name, s.offset)] }

/-- The state after a directive. -/
def directive (s : Layout) (line : Nat) : Directive → Layout
  | .code => { s with segment := some .code }
  | .data => { s with segment := some .data }
  | .define symbol unit value =>
    let s := symbol.elim s (s.defineData line)
    -- The data take their place even if the name was taken.
    { s with offset := s.offset + (Directive.define symbol unit value).dataSize }
  | .model _ | .stack _ | .programEnd _ => s

/-- The state after a line. -/
def next (s : Layout) (l : SourceLine) : Layout :=
  -- A label counts before what stands behind it on the line.
  let s := l.label.elim s (s.defineLabel l.number)
  match l.content with
  | .directive d => s.directive l.number d
  | .instruction i => { s with address := s.address + i.size }
  | .nothing | .unknown => s

/-- The state after all lines. -/
def of (ls : List SourceLine) : Layout :=
  ls.foldl next start

end Layout

/-! ## Second pass -/

/-- An assembled instruction: its address, its bytes, and the text of its line. -/
structure Record where
  address : Nat
  bytes : List Nat
  source : String
  instruction : Instruction
  deriving DecidableEq, Repr

namespace Record

/-- The line of an assembled instruction. -/
def line (r : Record) : Nat :=
  r.instruction.line

/-- The number of bytes of an assembled instruction. -/
def size (r : Record) : Nat :=
  r.instruction.size

/-- The address after an assembled instruction. -/
def following (r : Record) : Nat :=
  r.address + r.size

/-- The number of bytes of assembled instructions, one after the other. -/
def totalSize : List Record → Nat
  | [] => 0
  | r :: rs => r.size + totalSize rs

theorem totalSize_append (rs qs : List Record) :
    totalSize (rs ++ qs) = totalSize rs + totalSize qs := by
  induction rs with
  | nil => simp [totalSize]
  | cons r rs ih => simp [totalSize, ih, Nat.add_assoc]

/-- The bytes of an assembled instruction in hexadecimal. -/
def hexBytes (r : Record) : String :=
  " ".intercalate (r.bytes.map Text.hexByte)

end Record

/-- The state of the second pass: the address of the next instruction, the records, errors and
warnings so far, and whether the end directive was seen. -/
structure Emission where
  address : Nat
  records : List Record
  errors : List LineComplaint
  warnings : List LineComplaint
  ended : Bool
  deriving DecidableEq, Repr

namespace Emission

/-- The state before the first line. -/
def start : Emission :=
  ⟨loadAddress, [], [], [], false⟩

/-- The names in the operands of a branch that are no labels. -/
def undefinedNames (labels : SymbolTable) (i : Instruction) : List String :=
  if i.mnemonic.isBranch then
    i.operands.filterMap fun
      | .label name => if (labels.lookup name).isNone then some name else none
      | _ => none
  else []

/-- The state after an instruction. -/
def instruction (labels : SymbolTable) (s : Emission) (l : SourceLine) (i : Instruction) :
    Emission :=
  { s with
    address := s.address + i.size
    records := s.records ++ [⟨s.address, i.encode labels, String.ofList l.text, i⟩]
    warnings := s.warnings
      ++ (undefinedNames labels i).map fun name => ⟨l.number, .undefinedSymbol name⟩ }

/-- The state after a line. -/
def next (labels : SymbolTable) (s : Emission) (l : SourceLine) : Emission :=
  match l.content with
  | .nothing => s
  | .directive (.programEnd _) => { s with ended := true }
  | .directive _ => s
  | .instruction i => s.instruction labels l i
  | .unknown => { s with errors := s.errors ++ [⟨l.number, .unknownContent⟩] }

/-- The state after all lines. -/
def of (labels : SymbolTable) (ls : List SourceLine) : Emission :=
  ls.foldl (next labels) start

end Emission

/-! ## Assemblies -/

/-- An assembled source. -/
structure Assembly where
  layout : Layout
  emission : Emission

/-- Assembles a source. -/
def assemble (source : List Char) : Assembly :=
  let ls := sourceLines source
  let layout := Layout.of ls
  ⟨layout, Emission.of layout.labels ls⟩

/-- Whether the data that a line defines can be sized, with room for so many repetitions inside each
other. -/
def SourceLine.isSizable (levels : Nat) (l : SourceLine) : Bool :=
  match l.content with
  | .directive (.define symbol unit value) =>
    ((Directive.define symbol unit value).dataSizeWithin levels).isSome
  | _ => true

/-- Assembles a source on a stack with room for so many repetitions inside each other. Data that
are nested deeper break the first pass off, and nothing is left of it, so it makes no difference
that all lines are looked at before. -/
def assembleWithin (levels : Nat) (source : List Char) : Option Assembly :=
  if (sourceLines source).all (·.isSizable levels) then some (assemble source) else none

/-- What is assembled on a stack is what is assembled with room without end. -/
theorem assembleWithin_eq_some_iff {levels : Nat} {source : List Char} {a : Assembly} :
    assembleWithin levels source = some a
      ↔ a = assemble source ∧ ∀ l ∈ sourceLines source, l.isSizable levels = true := by
  unfold assembleWithin
  split
  · rename_i h
    exact ⟨fun ha => ⟨(Option.some.inj ha).symm, List.all_eq_true.1 h⟩, fun ha => by rw [ha.1]⟩
  · rename_i h
    exact ⟨fun ha => (nomatch ha), fun ha => absurd (List.all_eq_true.2 ha.2) h⟩

namespace Assembly

/-- The assembled instructions, in the order of the source. -/
def records (a : Assembly) : List Record :=
  a.emission.records

/-- The errors: those about names, then those about content. -/
def errors (a : Assembly) : List LineComplaint :=
  a.layout.errors ++ a.emission.errors

/-- Whether the source was assembled without errors. -/
def success (a : Assembly) : Bool :=
  a.errors.isEmpty

/-- The warnings as they are reported. Code without an end directive draws one. -/
def warnings (a : Assembly) : List String :=
  a.emission.warnings.map (·.text)
    ++ if !a.records.isEmpty && !a.emission.ended then ["No END directive found"] else []

/-- The labels with their addresses. -/
def labels (a : Assembly) : SymbolTable :=
  a.layout.labels

/-- The names of data with their offsets. -/
def dataSymbols (a : Assembly) : SymbolTable :=
  a.layout.dataSymbols

/-- All names in one table. -/
def symbols (a : Assembly) : SymbolTable :=
  a.dataSymbols ++ a.labels

/-- The record at an address. -/
def recordAt? (a : Assembly) (address : Int) : Option Record :=
  a.records.find? fun r => (r.address : Int) == address

/-- The number of bytes of the code. -/
def codeSize (a : Assembly) : Nat :=
  Record.totalSize a.records

end Assembly

end TurboBench.Asm
