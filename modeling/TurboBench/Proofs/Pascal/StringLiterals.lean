import TurboBench.Proofs.Decimal.ExactNumeral
import TurboBench.Proofs.Pascal.Comments

/-!
# String literals

A string literal is written as a row of pieces, quoted runs and character codes, and a string has
many ways of being written. Whichever is chosen, the lexer reads back the string: the literal
becomes one token, wherever in a source it stands.

What an apostrophe means depends on its neighbours, so three things are asked. Two quoted runs do
not follow each other, since the apostrophes between them would be read as one that is doubled. What
stands behind the literal is no further piece, and behind a code no further digit. With this each
piece ends where it was meant to (`piecesAs_rowOf`), also an empty run between codes.

A row of pieces may also be followed by a defect: a run that its line or the source ends in, or a
code that is not one of a character. Then all of it is one token that reports the defect.
-/

set_option autoImplicit false

namespace TurboBench.Pascal

/-! ## Literals as they are written -/

/-- A piece of a string literal: a run of characters between apostrophes, or the code of a
character, filled up with zeros to any width. -/
inductive LiteralPiece where
  | quoted (inside : List Char) (h : '\n' ∉ inside)
  | code (width : Nat) (n : Fin 256)

/-- The characters of a run, with its apostrophes doubled. -/
def doubled (cs : List Char) : List Char :=
  cs.flatMap fun c => if c = '\'' then ['\'', '\''] else [c]

namespace LiteralPiece

/-- Whether a piece is a quoted run. -/
def isQuoted : LiteralPiece → Bool
  | quoted .. => true
  | code .. => false

/-- A piece as it is written. -/
def text : LiteralPiece → List Char
  | quoted inside _ => '\'' :: (doubled inside ++ ['\''])
  | code width n => '#' :: Decimal.digits width n

/-- The characters that a piece denotes. -/
def value : LiteralPiece → List Char
  | quoted inside _ => inside
  | code _ n => [Char.ofNat n]

/-- The piece ends where `rest` begins: the apostrophe behind a run is not doubled, and a code has
no further digit. -/
def EndsBefore (rest : List Char) : LiteralPiece → Prop
  | quoted .. => ∀ c ∈ rest.head?, c ≠ '\''
  | code .. => ∀ c ∈ rest.head?, c.isDigit = false

/-- The text of a row of pieces. -/
def rowOf (ps : List LiteralPiece) : List Char :=
  ps.flatMap text

/-- Two quoted runs do not follow each other. -/
def Apart (ps : List LiteralPiece) : Prop :=
  ps.IsChain fun p q => ¬ (p.isQuoted = true ∧ q.isQuoted = true)

end LiteralPiece

/-- A way of writing a string. -/
structure StringLiteral where
  pieces : List LiteralPiece
  ne_nil : pieces ≠ []
  apart : LiteralPiece.Apart pieces

namespace StringLiteral

/-- The literal as it is written. -/
def text (literal : StringLiteral) : List Char :=
  LiteralPiece.rowOf literal.pieces

/-- The string that the literal is written for. -/
def value (literal : StringLiteral) : String :=
  String.ofList (literal.pieces.flatMap LiteralPiece.value)

/-- Nothing in front of `rest` continues the literal. -/
def EndsBefore (literal : StringLiteral) (rest : List Char) : Prop :=
  ∀ c ∈ rest.head?, c ≠ '\'' ∧ c ≠ '#'
    ∧ ∀ p ∈ literal.pieces.getLast?, p.isQuoted = false → c.isDigit = false

end StringLiteral

/-- What spoils a string in front of `rest`, and how that is reported. -/
inductive Defect (rest : List Char) : List Char → Flaw → Prop
  /-- A newline or the end of the source inside of a run. -/
  | openRun {inside : List Char} (hinside : '\n' ∉ inside) (hrest : ∀ c ∈ rest.head?, c = '\n') :
      Defect rest ('\'' :: doubled inside) .openString
  /-- A code without digits, or above 255. -/
  | badCode {digits : List Char} (hdigits : ∀ d ∈ digits, d.isDigit = true)
      (hvalue : digits = [] ∨ 255 < Decimal.natOfDigits digits)
      (hrest : ∀ c ∈ rest.head?, c.isDigit = false) : Defect rest ('#' :: digits) .characterCode

/-- Between `front` and `rest` the lexer reads the text as one segment, which gives one token: the
lexeme, on the line that the text begins on. Behind it the lexer goes on with the rest. -/
def ReadsAs (front text rest : List Char) (l : Lexeme) : Prop :=
  ∃ ss, rowText ss = front
    ∧ segments (front ++ (text ++ rest)) = ss ++ ⟨text, some l⟩ :: segments rest
    ∧ (tokenize (front ++ (text ++ rest))).tokens
      = tokensFrom 1 ss ++ ⟨l, 1 + newlines front⟩
        :: tokensFrom (1 + newlines front + newlines text) (segments rest)

/-! ## A lexeme in its place -/

/-- A text that is a lexeme where it stands is read as that lexeme. -/
theorem readsAs_of_isLexeme {front text rest : List Char} {l : Lexeme}
    (hplace : StandsBehind front (text ++ rest)) (h : IsLexeme rest text l) :
    ReadsAs front text rest l := by
  obtain ⟨ss, rfl, hss⟩ := hplace.exists_row
  have hone : segments (text ++ rest) = ⟨text, some l⟩ :: segments rest := by
    have hrow : Row [⟨text, some l⟩] rest := ⟨.lexeme h, trivial⟩
    simpa using segments_of_row hrow
  have hsegments := segments_of_row hss
  rw [hone] at hsegments
  refine ⟨ss, rfl, hsegments, ?_⟩
  rw [tokenize, hsegments]
  exact tokensFrom_append 1 ss _

/-! ## Pieces as they are read -/

/-- Characters whose quotes are doubled are the quoted form of these characters. -/
theorem quotedAs_doubled {cs : List Char} (h : '\n' ∉ cs) : QuotedAs (doubled cs) cs := by
  induction cs with
  | nil => exact .nil
  | cons c cs ih =>
    rw [List.mem_cons, not_or] at h
    obtain ⟨hc, hcs⟩ := h
    rw [doubled, List.flatMap_cons]
    by_cases hquote : c = '\''
    · rw [hquote, if_pos rfl]
      exact .doubled (ih hcs)
    · rw [if_neg hquote]
      exact .plain hquote (Ne.symm hc) (ih hcs)

theorem characterOfCode?_eq (digits : List Char) :
    characterOfCode? digits
      = if digits = [] ∨ 255 < Decimal.natOfDigits digits then none
        else some (Char.ofNat (Decimal.natOfDigits digits)) := by
  simp only [characterOfCode?, Decimal.natOfDigits, Bool.or_eq_true, List.isEmpty_iff,
    decide_eq_true_eq]
  congr

/-- Leading zeros do not matter. -/
theorem characterOfCode?_digits (width : Nat) (n : Fin 256) :
    characterOfCode? (Decimal.digits width n) = some (Char.ofNat n) := by
  have hne : Decimal.digits width n ≠ [] := by
    refine List.ne_nil_of_length_pos ?_
    rw [Decimal.length_digits]
    have := Nat.length_toDigits_pos (b := 10) (n := n)
    omega
  have hvalue := Decimal.natOfDigits_digits width n
  rw [characterOfCode?_eq, hvalue, if_neg]
  have := n.isLt
  simp only [hne, false_or]
  omega

namespace LiteralPiece

variable {p : LiteralPiece} {ps : List LiteralPiece} {rest : List Char}

@[simp] theorem rowOf_cons (p : LiteralPiece) (ps : List LiteralPiece) :
    rowOf (p :: ps) = p.text ++ rowOf ps :=
  rfl

/-- A piece in front of others. -/
theorem piecesAs_cons {text more : List Char} (hend : p.EndsBefore (text ++ rest))
    (h : PiecesAs rest text more) : PiecesAs rest (p.text ++ text) (p.value ++ more) := by
  cases p with
  | quoted inside hinside =>
    simp only [LiteralPiece.text, List.cons_append, List.append_assoc, List.nil_append]
    exact .quoted (quotedAs_doubled hinside) hend h
  | code width n =>
    exact .code (fun d => Decimal.isDigit_of_mem_digits) (characterOfCode?_digits width n) hend h

/-- In front of a piece, a piece ends where it was meant to, unless both are quoted runs. -/
theorem endsBefore_text {p q : LiteralPiece} (h : ¬ (p.isQuoted = true ∧ q.isQuoted = true))
    (more : List Char) : p.EndsBefore (q.text ++ more) := by
  cases p <;> cases q <;> simp_all [EndsBefore, text, isQuoted]

/-- **A row of pieces that are apart is read piece by piece.** -/
theorem piecesAs_rowOf (happart : Apart ps) (hend : ∀ p ∈ ps.getLast?, p.EndsBefore rest) :
    PiecesAs rest (rowOf ps) (ps.flatMap value) := by
  induction ps with
  | nil => exact .nil
  | cons p ps ih =>
    rw [rowOf_cons, List.flatMap_cons]
    cases ps with
    | nil => exact piecesAs_cons (hend p rfl) .nil
    | cons q ps =>
      obtain ⟨hpq, hps⟩ := List.isChain_cons_cons.1 happart
      refine piecesAs_cons ?_ (ih hps fun r hr => hend r ?_)
      · rw [rowOf_cons, List.append_assoc]
        exact endsBefore_text hpq _
      · rwa [List.getLast?_cons_cons]

theorem EndsBefore.append {text : List Char} (h : p.EndsBefore text) (hne : text ≠ []) :
    p.EndsBefore (text ++ rest) := by
  obtain ⟨c, cs, rfl⟩ := List.exists_cons_of_ne_nil hne
  cases p <;> exact h

end LiteralPiece

/-! ## Literals and defects -/

section Literals

variable {rest : List Char}

/-- The text of a literal is the lexeme of its value. -/
theorem isLexeme_literal {literal : StringLiteral} (h : literal.EndsBefore rest) :
    IsLexeme rest literal.text (.string literal.value) := by
  have hend : ∀ p ∈ literal.pieces.getLast?, p.EndsBefore rest := by
    intro p hp
    cases p with
    | quoted => exact fun c hc => (h c hc).1
    | code => exact fun c hc => (h c hc).2.2 _ hp rfl
  refine .string (LiteralPiece.piecesAs_rowOf literal.apart hend) ?_ fun c hc => ?_
  · obtain ⟨p, ps, hpieces⟩ := List.exists_cons_of_ne_nil literal.ne_nil
    rw [StringLiteral.text, hpieces, LiteralPiece.rowOf_cons]
    cases p <;> simp [LiteralPiece.text]
  · exact ⟨(h c hc).1, (h c hc).2.1⟩

/-- A row of pieces with a defect behind it. -/
theorem isLexeme_defect {ps : List LiteralPiece} {text : List Char} {flaw : Flaw}
    (happart : LiteralPiece.Apart ps) (h : Defect rest text flaw)
    (hend : ∀ p ∈ ps.getLast?, p.EndsBefore text) :
    IsLexeme rest (LiteralPiece.rowOf ps ++ text) (.flaw flaw) := by
  have hne : text ≠ [] := by
    cases h <;> exact List.cons_ne_nil _ _
  have hpieces : PiecesAs (text ++ rest) (LiteralPiece.rowOf ps) (ps.flatMap LiteralPiece.value) :=
    LiteralPiece.piecesAs_rowOf happart fun p hp => (hend p hp).append hne
  cases h with
  | openRun hinside hrest => exact .openString hpieces (quotedAs_doubled hinside) hrest
  | badCode hdigits hvalue hrest =>
    refine .characterCode hpieces hdigits ?_ hrest
    rw [characterOfCode?_eq, if_pos hvalue]

end Literals

/-- **String literals decode what they encode.** A literal is read as one token of the string it is
written for, on the line that it begins on; and pieces with a defect behind them are read as one
token that reports it. -/
theorem literals_decode (front rest : List Char) :
    (∀ literal : StringLiteral, literal.EndsBefore rest →
        StandsBehind front (literal.text ++ rest) →
        ReadsAs front literal.text rest (.string literal.value))
      ∧ ∀ (ps : List LiteralPiece) (text : List Char) (flaw : Flaw), LiteralPiece.Apart ps →
        Defect rest text flaw → (∀ p ∈ ps.getLast?, p.EndsBefore text) →
        StandsBehind front (LiteralPiece.rowOf ps ++ text ++ rest) →
        ReadsAs front (LiteralPiece.rowOf ps ++ text) rest (.flaw flaw) := by
  refine ⟨fun literal hend hplace => ?_, fun ps text flaw happart h hend hplace => ?_⟩
  · exact readsAs_of_isLexeme hplace (isLexeme_literal hend)
  · exact readsAs_of_isLexeme hplace (isLexeme_defect happart h hend)

/-- An apostrophe, a newline as a code with three zeros, and an empty run. -/
def quotedNewline : StringLiteral where
  pieces := [.quoted ['i', 't', '\'', 's'] (by decide), .code 5 10, .quoted [] (by decide)]
  ne_nil := by decide
  apart := by simp [LiteralPiece.Apart, LiteralPiece.isQuoted]

/-- The literal on the second line, in front of a digit, and a code that is too large. -/
theorem literals_decode_secondLine :
    quotedNewline.text = "'it''s'#00010''".toList ∧ quotedNewline.value = "it's\n"
      ∧ quotedNewline.EndsBefore ['1'] ∧ StandsBehind ['\n'] (quotedNewline.text ++ ['1'])
      ∧ ReadsAs ['\n'] quotedNewline.text ['1'] (.string quotedNewline.value)
      ∧ Defect [';'] ['#', '2', '5', '6'] .characterCode
      ∧ StandsBehind ['\n'] (LiteralPiece.rowOf [.code 2 65] ++ ['#', '2', '5', '6'] ++ [';'])
      ∧ ReadsAs ['\n'] (LiteralPiece.rowOf [.code 2 65] ++ ['#', '2', '5', '6']) [';']
        (.flaw .characterCode) := by
  have hend : quotedNewline.EndsBefore ['1'] := by
    simp [StringLiteral.EndsBefore, quotedNewline, LiteralPiece.isQuoted]
  have hdefect : Defect [';'] ['#', '2', '5', '6'] .characterCode :=
    .badCode (List.all_eq_true.1 rfl) (.inr (by decide)) fun c hc => Option.some.inj hc ▸ rfl
  have hplace (text : List Char) : StandsBehind ['\n'] text :=
    ⟨[⟨['\n'], none⟩], segments text, by rw [List.singleton_append, segments]; rfl, rfl⟩
  refine ⟨rfl, rfl, hend, hplace _, ?_, hdefect, hplace _, ?_⟩
  · exact (literals_decode ['\n'] ['1']).1 quotedNewline hend (hplace _)
  · refine (literals_decode ['\n'] [';']).2 [.code 2 65] _ _ ?_ hdefect ?_ (hplace _)
    · simp [LiteralPiece.Apart]
    · simp [LiteralPiece.EndsBefore]

end TurboBench.Pascal
