import TurboBench.Text.Blank
import TurboBench.Text.Case

/-!
Operands: registers, numbers, names of labels, and text that is none of these.

A number is written in decimal, in hexadecimal with a final `h`, which needs a leading decimal
digit, or in hexadecimal after `0x`. Which of the three forms a number had is kept, because only
decimal numbers are encoded. `Operand.read` tries the classes in the order in which they are
listed here, so every text is an operand of exactly one class.
-/

namespace TurboBench.Asm

open TurboBench.Text (trim lower)

/-- The registers that an instruction can name. -/
inductive Register where
  | ax | bx | cx | dx | si | di | sp | bp
  | cs | ds | es | ss
  | ah | al | bh | bl | ch | cl | dh | dl
  deriving DecidableEq, Repr, Inhabited

namespace Register

/-- The name of a register. -/
def name : Register → String
  | ax => "ax" | bx => "bx" | cx => "cx" | dx => "dx"
  | si => "si" | di => "di" | sp => "sp" | bp => "bp"
  | cs => "cs" | ds => "ds" | es => "es" | ss => "ss"
  | ah => "ah" | al => "al" | bh => "bh" | bl => "bl"
  | ch => "ch" | cl => "cl" | dh => "dh" | dl => "dl"

/-- All registers. -/
def all : List Register :=
  [ax, bx, cx, dx, si, di, sp, bp, cs, ds, es, ss, ah, al, bh, bl, ch, cl, dh, dl]

/-- The register with the given name. -/
def ofName? (s : String) : Option Register :=
  all.find? (·.name == s)

@[simp] theorem ofName?_name (r : Register) : ofName? r.name = some r := by
  cases r <;> decide

theorem name_of_ofName? {s : String} {r : Register} (h : ofName? s = some r) : r.name = s := by
  simpa using List.find?_some h

end Register

/-- The base a number was written in. -/
inductive Radix where
  | decimal | hexadecimal
  deriving DecidableEq, Repr, Inhabited

/-- The base as a number. -/
def Radix.base : Radix → Nat
  | decimal => 10
  | hexadecimal => 16

/-- Operands. -/
inductive Operand where
  | register (r : Register)
  | immediate (value : Nat) (radix : Radix)
  | label (name : String)
  | unsupported (text : String)
  deriving DecidableEq, Repr, Inhabited

/-! ## Numbers -/

/-- The value of a hexadecimal digit. -/
def hexDigit? (c : Char) : Option Nat :=
  if c.isDigit then some (c.toNat - '0'.toNat)
  else if 'a' ≤ c ∧ c ≤ 'f' then some (c.toNat - 'a'.toNat + 10)
  else if 'A' ≤ c ∧ c ≤ 'F' then some (c.toNat - 'A'.toNat + 10)
  else none

/-- Whether a character is a hexadecimal digit. -/
def isHexDigit (c : Char) : Bool :=
  (hexDigit? c).isSome

/-- The number that a run of digits denotes in a base. -/
def digitsValue (base : Nat) (cs : List Char) : Nat :=
  cs.foldl (fun n c => base * n + (hexDigit? c).getD 0) 0

/-- The greatest length of a number, with all its marks. -/
def maxImmediateLength : Nat := 32

/-- The number that a text without outer white space denotes. -/
def numberOf? (cs : List Char) : Option (Nat × Radix) :=
  if cs ≠ [] ∧ cs.all Char.isDigit then some (digitsValue 10 cs, .decimal)
  else match cs with
    | [] => none
    | c :: rest =>
      if c.isDigit ∧ (rest.getLast? = some 'h' ∨ rest.getLast? = some 'H')
          ∧ rest.dropLast.all isHexDigit then
        some (digitsValue 16 (c :: rest.dropLast), .hexadecimal)
      else match c, rest with
        | '0', x :: digits =>
          if (x = 'x' ∨ x = 'X') ∧ digits ≠ [] ∧ digits.all isHexDigit then
            some (digitsValue 16 digits, .hexadecimal)
          else none
        | _, _ => none

/-- The number that a text denotes. A text that is too long denotes none. -/
def immediate? (text : List Char) : Option (Nat × Radix) :=
  let cs := trim text
  if maxImmediateLength < cs.length then none else numberOf? cs

/-! ## Names -/

/-- A character that may begin the name of a label in an operand. -/
def isNameStart (c : Char) : Bool :=
  c.isAlpha || c == '_' || c == '?'

/-- Whether a text is the name of a label as an operand can name it. -/
def isName : List Char → Bool
  | [] => false
  | c :: cs => isNameStart c && cs.all fun d => isNameStart d || d.isDigit

/-! ## Reading -/

/-- The operand that a text denotes. Names are folded to small letters. -/
def Operand.read (text : List Char) : Operand :=
  let cs := trim text
  let folded := String.ofList (lower cs)
  match Register.ofName? folded with
  | some r => .register r
  | none =>
    match immediate? cs with
    | some (n, radix) => .immediate n radix
    | none => if isName cs then .label folded else .unsupported (String.ofList cs)

/-- How a report names an operand. -/
def Operand.describe : Operand → String
  | register r => r.name
  | immediate n _ => toString n
  | label name => name
  | unsupported text => text

end TurboBench.Asm
