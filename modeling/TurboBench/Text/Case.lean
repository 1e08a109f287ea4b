import TurboBench.Text.CaseTable

/-!
Small letters and capitals of whole texts, by the full case mapping of Unicode.

A character may map to a text of several characters (`ß` has the capital form `SS`), and the
small form of a capital sigma depends on its neighbours: at the end of a word it is `ς`, elsewhere
`σ`. A sigma ends a word when a letter with case stands before it and none follows it, characters
such as apostrophes and combining marks being looked through on both sides.
-/

namespace TurboBench.Text

/-- The text listed for code point `n`, or `n` moved by the run that covers it, or `n` itself. -/
def mapByTables (texts : List (Nat × List Nat)) (runs : List CaseRun) (c : Char) : List Char :=
  match texts.lookup c.toNat with
  | some cs => cs.map Char.ofNat
  | none =>
    match runs.find? (·.covers c.toNat) with
    | some r => [Char.ofNat (c.toNat + r.shift).toNat]
    | none => [c]

/-- The small form of a character that is not a capital sigma. -/
def lowerChar (c : Char) : List Char :=
  if c.toNat < 0x80 then [c.toLower] else mapByTables lowerTexts lowerRuns c

/-- The capital form of a character. -/
def upperChar (c : Char) : List Char :=
  if c.toNat < 0x80 then [c.toUpper] else mapByTables upperTexts upperRuns c

/-- A letter with case that counts as context of a sigma. -/
def isCased (c : Char) : Bool :=
  Span.anyCovers casedSpans c

/-- A character that is looked through when the context of a sigma is inspected. -/
def isCaseIgnorable (c : Char) : Bool :=
  Span.anyCovers caseIgnorableSpans c

/-- Whether the first character that is not looked through has case. -/
def startsCased (cs : List Char) : Bool :=
  match cs.dropWhile isCaseIgnorable with
  | [] => false
  | c :: _ => isCased c

/-- The small form of a capital sigma between the characters `before` it, the nearest first, and
those `behind` it. -/
def smallSigma (before behind : List Char) : Char :=
  if startsCased before && !startsCased behind then 'ς' else 'σ'

/-- The small form of a text that follows the characters `before`, the nearest first. -/
def lowerAfter (before : List Char) : List Char → List Char
  | [] => []
  | c :: cs =>
    (if c == 'Σ' then [smallSigma before cs] else lowerChar c) ++ lowerAfter (c :: before) cs

/-- The small form of a text. -/
def lower (cs : List Char) : List Char :=
  lowerAfter [] cs

/-- The capital form of a text. -/
def upper (cs : List Char) : List Char :=
  cs.flatMap upperChar

/-! ## Text of ASCII characters

Inside ASCII each character maps to one character, whatever its neighbours are. -/

theorem lowerChar_of_ascii {c : Char} (h : c.toNat < 0x80) : lowerChar c = [c.toLower] := by
  simp [lowerChar, h]

theorem upperChar_of_ascii {c : Char} (h : c.toNat < 0x80) : upperChar c = [c.toUpper] := by
  simp [upperChar, h]

/-- Of seven bits, small letters are made one by one: the final sigma is not among them. -/
theorem lowerAfter_of_ascii {cs : List Char} (h : ∀ c ∈ cs, c.toNat < 0x80) (before : List Char) :
    lowerAfter before cs = cs.map Char.toLower := by
  induction cs generalizing before with
  | nil => rfl
  | cons c cs ih =>
    have hc : c.toNat < 0x80 := h c (by simp)
    have hs : (c == 'Σ') = false := by
      apply beq_eq_false_iff_ne.2
      rintro rfl
      exact absurd hc (by decide)
    simp only [lowerAfter, hs, lowerChar_of_ascii hc, List.map_cons]
    rw [ih (fun d hd => h d (by simp [hd]))]
    rfl

theorem lower_of_ascii {cs : List Char} (h : ∀ c ∈ cs, c.toNat < 0x80) :
    lower cs = cs.map Char.toLower :=
  lowerAfter_of_ascii h []

/-- So are capitals. -/
theorem upper_of_ascii {cs : List Char} (h : ∀ c ∈ cs, c.toNat < 0x80) :
    upper cs = cs.map Char.toUpper := by
  induction cs with
  | nil => rfl
  | cons c cs ih =>
    have hc := h c (by simp)
    have hcs := ih (fun d hd => h d (by simp [hd]))
    simp only [upper] at hcs
    simp [upper, upperChar_of_ascii hc, hcs]

end TurboBench.Text
