/-!
Text set into fields of a given width, and numbers in hexadecimal.

A field is only ever filled up: text longer than its field is kept whole.
-/

namespace TurboBench.Text

/-- A text of `n` blanks. -/
def blanks (n : Nat) : String :=
  String.ofList (List.replicate n ' ')

/-- The text at the right end of a field. -/
def alignRight (width : Nat) (s : String) : String :=
  blanks (width - s.length) ++ s

/-- The text at the left end of a field. -/
def alignLeft (width : Nat) (s : String) : String :=
  s ++ blanks (width - s.length)

/-- The text in the middle of a field; an odd blank goes to the right. -/
def center (width : Nat) (s : String) : String :=
  let missing := width - s.length
  blanks (missing / 2) ++ s ++ blanks (missing - missing / 2)

@[simp] theorem length_blanks (n : Nat) : (blanks n).length = n := by
  simp [blanks]

/-- A right-aligned text fills its field, or is longer than it. -/
theorem length_alignRight (width : Nat) (s : String) :
    (alignRight width s).length = max s.length width := by
  simp [alignRight]
  omega

theorem length_alignLeft (width : Nat) (s : String) :
    (alignLeft width s).length = max s.length width := by
  simp [alignLeft]
  omega

theorem length_center (width : Nat) (s : String) :
    (center width s).length = max s.length width := by
  simp [center]
  omega

/-! ## Hexadecimal numerals -/

/-- The digits of a number in base sixteen, with capital letters. -/
def hex (n : Nat) : String :=
  String.ofList ((Nat.toDigits 16 n).map Char.toUpper)

/-- The digits of a number in base sixteen, with small letters. -/
def hexSmall (n : Nat) : String :=
  String.ofList (Nat.toDigits 16 n)

/-- The text filled up with leading zeros. -/
def zeroFill (width : Nat) (s : String) : String :=
  String.ofList (List.replicate (width - s.length) '0') ++ s

/-- Two hexadecimal digits for a byte. -/
def hexByte (n : Nat) : String :=
  zeroFill 2 (hex n)

/-- Four hexadecimal digits for a word, more for a larger number. -/
def hexAddress (n : Nat) : String :=
  zeroFill 4 (hex n)

end TurboBench.Text
