import TurboBench.Json.Value

/-!
Reading JSON.

The reader goes through a text once, from the left, and stops at the first complaint. It knows
its position, because a complaint names one: mostly where the offending character stands, but for
a string without end the quotation mark that opened it, and for a bad code the letter in front of
its digits.

Values inside each other take room on the stack, and the reader is told how many there is room for;
that is the measure for the recursion. A list of items is bounded by the characters that are left,
since each item takes one at least.

Strings are made of characters. Half of a surrogate pair, which a text can name by its code, is
none, and a replacement is read in its place.
-/

namespace TurboBench.Json

/-! ## Cursors -/

/-- A place in a text: its position, and the text from there on. -/
structure Cursor where
  position : Nat
  rest : List Char
  deriving DecidableEq, Repr

namespace Cursor

/-- The place a number of characters further on. -/
def skip (c : Cursor) (n : Nat) : Cursor :=
  ⟨c.position + n, c.rest.drop n⟩

/-- A character that may stand between values. -/
def isSpace (c : Char) : Bool :=
  c == ' ' || c == '\t' || c == '\n' || c == '\r'

/-- The place of the next character that is no space. -/
def skipSpaces (c : Cursor) : Cursor :=
  c.skip (c.rest.takeWhile isSpace).length

/-- A complaint about the place. -/
def malformed {α : Type} (c : Cursor) (f : Flaw) : Except Complaint α :=
  .error (.malformed f c.position)

end Cursor

/-- A reader: what stands at a place, and the place after it. -/
abbrev Reader (α : Type) := Cursor → Except Complaint (α × Cursor)

/-! ## Strings -/

/-- The value of a hexadecimal digit. -/
def hexDigit? (c : Char) : Option Nat :=
  if '0' ≤ c ∧ c ≤ '9' then some (c.toNat - 48)
  else if 'a' ≤ c ∧ c ≤ 'f' then some (c.toNat - 87)
  else if 'A' ≤ c ∧ c ≤ 'F' then some (c.toNat - 55)
  else none

/-- The number that four hexadecimal digits stand for. -/
def code? (a b c d : Char) : Option Nat := do
  let a ← hexDigit? a
  let b ← hexDigit? b
  let c ← hexDigit? c
  let d ← hexDigit? d
  return ((a * 16 + b) * 16 + c) * 16 + d

/-- What a character after a backslash stands for. -/
def escape? : Char → Option Char
  | '"' => some '"'
  | '\\' => some '\\'
  | '/' => some '/'
  | 'b' => some '\x08'
  | 'f' => some '\x0c'
  | 'n' => some '\n'
  | 'r' => some '\r'
  | 't' => some '\t'
  | _ => none

/-- The first half of a pair of codes for one character. -/
def isHighHalf (n : Nat) : Bool :=
  0xD800 ≤ n && n ≤ 0xDBFF

/-- The second half of a pair of codes for one character. -/
def isLowHalf (n : Nat) : Bool :=
  0xDC00 ≤ n && n ≤ 0xDFFF

/-- The character of a code. Half a pair alone is no character; a reader of other texts than these
could keep it, here it is replaced. -/
def charOfCode (n : Nat) : Char :=
  if n.isValidChar then Char.ofNat n else '\uFFFD'

/-- The character of a pair of codes. -/
def charOfPair (high low : Nat) : Char :=
  charOfCode (0x10000 + (high - 0xD800) * 0x400 + (low - 0xDC00))

/-- Reads a string from the character at `position` on, up to the quotation mark that closes it.
The one that opened it stands at `opening`. -/
def stringFrom (opening position : Nat) (text : List Char) :
    Except Complaint (List Char × Cursor) :=
  match text with
  | [] => .error (.malformed .unterminatedString opening)
  | '"' :: rest => .ok ([], ⟨position + 1, rest⟩)
  | ['\\'] => .error (.malformed .unterminatedString opening)
  | '\\' :: 'u' :: rest =>
    match rest with
    -- A code is looked at only if something stands behind it, since the string is not closed yet.
    | a :: b :: c :: d :: e :: rest =>
      match code? a b c d with
      | none => .error (.malformed .badCode (position + 1))
      | some n =>
        match (if isHighHalf n then e :: rest else []) with
        | '\\' :: 'u' :: f :: g :: h :: i :: _ :: _ =>
          match code? f g h i with
          | none => .error (.malformed .badCode (position + 7))
          | some m =>
            if isLowHalf m then do
              let (cs, cursor) ← stringFrom opening (position + 12) (rest.drop 5)
              return (charOfPair n m :: cs, cursor)
            else do
              let (cs, cursor) ← stringFrom opening (position + 6) (e :: rest)
              return (charOfCode n :: cs, cursor)
        | _ => do
          let (cs, cursor) ← stringFrom opening (position + 6) (e :: rest)
          return (charOfCode n :: cs, cursor)
    | _ => .error (.malformed .badCode (position + 1))
  | '\\' :: e :: rest =>
    match escape? e with
    | none => .error (.malformed .badEscape position)
    | some c => do
      let (cs, cursor) ← stringFrom opening (position + 2) rest
      return (c :: cs, cursor)
  | c :: rest =>
    if c.toNat < 0x20 then .error (.malformed .controlCharacter position)
    else do
      let (cs, cursor) ← stringFrom opening (position + 1) rest
      return (c :: cs, cursor)
  termination_by text.length
  decreasing_by all_goals (simp only [List.length_cons, List.length_drop]; omega)

/-- Reads a string after its opening quotation mark. -/
def string : Reader String := fun c => do
  let (cs, after) ← stringFrom (c.position - 1) c.position c.rest
  return (String.ofList cs, after)

/-! ## Numbers and words -/

/-- The most digits that an integer may have. -/
def digitLimit : Nat := 4300

/-- The digits in front of a text that form the whole part of a number: a zero alone, or digits
of which the first is none. -/
def wholePart : List Char → List Char
  | '0' :: _ => ['0']
  | cs => cs.takeWhile Char.isDigit

/-- The fraction in front of a text: a point and the digits after it, one at least. -/
def fraction : List Char → List Char
  | '.' :: cs =>
    let digits := cs.takeWhile Char.isDigit
    if digits.isEmpty then [] else '.' :: digits
  | _ => []

/-- The exponent in front of a text: its letter, perhaps a sign, and digits, one at least. -/
def exponent : List Char → List Char
  | e :: cs =>
    if e == 'e' || e == 'E' then
      let sign := (cs.take 1).filter fun c => c == '+' || c == '-'
      let digits := (cs.drop sign.length).takeWhile Char.isDigit
      if digits.isEmpty then [] else e :: sign ++ digits
    else []
  | [] => []

/-- The value of decimal digits. -/
def digitsValue (cs : List Char) : Nat :=
  cs.foldl (fun n c => 10 * n + (c.toNat - 48)) 0

/-- Reads a number. -/
def number : Reader Value := fun c =>
  let sign := (c.rest.take 1).filter (· == '-')
  let whole := wholePart (c.rest.drop sign.length)
  if whole.isEmpty then c.malformed .expectedValue
  else
    let fractional := fraction (c.rest.drop (sign.length + whole.length))
    let power := exponent (c.rest.drop (sign.length + whole.length + fractional.length))
    let numeral := sign ++ whole ++ fractional ++ power
    let after := c.skip numeral.length
    if fractional.isEmpty && power.isEmpty then
      if digitLimit < whole.length then .error (.numeralTooLong whole.length)
      else
        let n : Int := digitsValue whole
        .ok (.integer (if sign.isEmpty then n else -n), after)
    else .ok (.real (String.ofList numeral), after)

/-- The words that stand for values. -/
def wordValues : List (String × Value) := [
  ("null", .null), ("true", .boolean true), ("false", .boolean false),
  ("NaN", .real "NaN"), ("Infinity", .real "Infinity"), ("-Infinity", .real "-Infinity")]

/-- Reads a value that holds no others. -/
def scalar : Reader Value := fun c =>
  match c.rest with
  | '"' :: _ => do
    let (s, after) ← string (c.skip 1)
    return (.string s, after)
  | _ =>
    match wordValues.find? fun (word, _) => word.toList.isPrefixOf c.rest with
    | some (word, v) => .ok (v, c.skip word.length)
    | none => number c

/-! ## Arrays and objects -/

/-- Reads items with a comma between neighbours, up to the character that closes them. The number
bounds the items. -/
def items {α : Type} (item : Reader α) (closing : Char) : Nat → Reader (List α)
  | 0, c => c.malformed .expectedValue
  | n + 1, c => do
    let (a, after) ← item c
    let next := after.skipSpaces
    match next.rest with
    | [] => next.malformed .expectedComma
    | x :: _ =>
      if x == closing then return ([a], next.skip 1)
      else if x == ',' then
        let (more, after) ← items item closing n (next.skip 1).skipSpaces
        return (a :: more, after)
      else next.malformed .expectedComma

/-- Reads items after the character that opens them; there may be none. -/
def itemsOrNone {α : Type} (item : Reader α) (closing : Char) : Reader (List α) := fun c =>
  let first := c.skipSpaces
  if first.rest.head? = some closing then .ok ([], first.skip 1)
  else items item closing (first.rest.length + 1) first

/-- Reads a member of an object. -/
def member (value : Reader Value) : Reader (String × Value) := fun c =>
  match c.rest with
  | '"' :: _ => do
    let (name, after) ← string (c.skip 1)
    let colon := after.skipSpaces
    if colon.rest.head? = some ':' then
      let (v, after) ← value (colon.skip 1).skipSpaces
      return ((name, v), after)
    else colon.malformed .expectedColon
  | _ => c.malformed .expectedName

/-- Reads a value that may hold others, as many inside each other as the number says. -/
def value : Nat → Reader Value
  | 0, c =>
    match c.rest with
    | '[' :: _ => .error .arrayTooDeep
    | '{' :: _ => .error .objectTooDeep
    | _ => scalar c
  | depth + 1, c =>
    match c.rest with
    | '[' :: _ => do
      let (vs, after) ← itemsOrNone (value depth) ']' (c.skip 1)
      return (.array vs, after)
    | '{' :: _ => do
      let (ms, after) ← itemsOrNone (member (value depth)) '}' (c.skip 1)
      return (.object ms, after)
    | _ => scalar c

/-! ## Texts -/

/-- Reads a text that is one value, with spaces around it. The depth is how many values there is
room for inside each other; it is no property of the notation but what the stack allows. -/
def parse (depth : Nat) (text : List Char) : Except Complaint Value :=
  if text.head? = some '\uFEFF' then .error (.malformed .byteOrderMark 0)
  else do
    let (v, after) ← value depth (Cursor.mk 0 text).skipSpaces
    let last := after.skipSpaces
    if last.rest.isEmpty then return v else last.malformed .extraText

theorem scalar_of_rest_nil {c : Cursor} (h : c.rest = []) :
    scalar c = c.malformed .expectedValue := by
  obtain ⟨position, rest⟩ := c
  subst h
  rfl

theorem value_of_rest_nil (depth : Nat) {c : Cursor} (h : c.rest = []) :
    value depth c = c.malformed .expectedValue := by
  cases depth with
  | zero => simp [value, h, scalar_of_rest_nil]
  | succ depth => simp [value, h, scalar_of_rest_nil]

/-- A text with nothing in it but spaces is no value. -/
theorem parse_of_spaces (depth : Nat) {text : List Char}
    (h : ∀ c ∈ text, Cursor.isSpace c = true) :
    parse depth text = .error (.malformed .expectedValue text.length) := by
  have hmark : text.head? ≠ some '\uFEFF' := by
    intro hhead
    exact absurd (h _ (List.mem_of_mem_head? hhead)) (by decide)
  have hspaces : text.takeWhile Cursor.isSpace = text := by
    rw [← List.append_nil text, List.takeWhile_append_of_pos h, List.takeWhile_nil]
  have hskip : (Cursor.mk 0 text).skipSpaces = ⟨text.length, []⟩ := by
    simp [Cursor.skipSpaces, Cursor.skip, hspaces]
  rw [parse, if_neg hmark, hskip, value_of_rest_nil depth rfl]
  rfl

end TurboBench.Json
