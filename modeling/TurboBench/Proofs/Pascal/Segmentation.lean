import Mathlib.Data.List.Infix
import TurboBench.Proofs.Pascal.DelimitedLexemes

/-!
# Segments and tokens of a source

The first segment of a text is the one that the lexical grammar puts there, and so the segments of a
source are the only row of segments that makes it up (`segments_of_row`, `row_segments`). Nothing
is lost on the way to the tokens: they are those of the lexemes in the row, each on the line that
its first character stands on.
-/

set_option autoImplicit false

namespace TurboBench.Pascal

open TurboBench.Text (isBlank)

/-! ## The first segment -/

/-- **What is read first stands there.** -/
theorem stands_firstSegment (c : Char) (cs : List Char) :
    (firstSegment c cs).1.Stands (firstSegment c cs).2 := by
  by_cases hblank : isBlank c = true
  · have hread : firstSegment c cs = (⟨[c], none⟩, cs) := if_pos hblank
    rw [hread]
    exact .blank hblank
  by_cases hopen : OpensComment (c :: cs)
  · obtain ⟨tail, h | h | h⟩ := hopen
    · obtain ⟨rfl, rfl⟩ := List.cons.inj h
      exact stands_braces cs
    · obtain ⟨rfl, rfl⟩ := List.cons.inj h
      exact stands_stars tail
    · obtain ⟨rfl, rfl⟩ := List.cons.inj h
      exact stands_line tail
  by_cases hletter : isLetter c = true
  · rw [firstSegment_of_isLetter hletter]
    exact .lexeme (isLexeme_word hletter cs)
  by_cases hdigit : c.isDigit = true
  · rw [firstSegment_of_isDigit hdigit]
    exact stands_numeral hdigit cs
  by_cases hquote : c = '\'' ∨ c = '#'
  · rw [firstSegment_quoteOrCode hquote]
    exact stands_stringLiteral hquote cs
  · -- What is left is a symbol, or a character that nothing begins with.
    have hblank : isBlank c = false := by simpa using hblank
    have hletter : isLetter c = false := by simpa using hletter
    have hdigit : c.isDigit = false := by simpa using hdigit
    have hmark : c ∉ ['\'', '#'] := by simpa using hquote
    have happ := symbolLexeme_append c cs
    rw [firstSegment_of_no_comment hblank hletter hdigit hmark hopen]
    rcases symbolLexeme_cases c cs with ⟨m, hread, hlong⟩ | ⟨hsymbol, hread⟩
    · rw [hread] at happ ⊢
      exact .lexeme (.symbol hlong (by rwa [happ]))
    · rw [hread]
      refine .lexeme (.character hblank hletter hdigit (fun hc => ?_) hsymbol)
      rcases List.mem_cons.1 hc with rfl | hc
      · exact hopen ⟨cs, .inl rfl⟩
      · exact hmark hc

/-- A text that is a lexeme before the rest is cut off as the first segment. -/
theorem firstSegment_of_isLexeme {rest text : List Char} {l : Lexeme} (h : IsLexeme rest text l) :
    ∃ c cs, text = c :: cs ∧ firstSegment c (cs ++ rest) = (⟨text, some l⟩, rest) := by
  -- Each way of spelling a lexeme has been shown to be read back; here they are put together.
  cases h with
  | keyword h hk =>
    rw [← wordLexeme_keyword_of_text hk]
    exact firstSegment_of_isLongest_word h
  | identifier h hk =>
    rw [← wordLexeme_identifier_of_text hk]
    exact firstSegment_of_isLongest_word h
  | integer h hdigits =>
    obtain ⟨c, cs, htext, ⟨-, hread⟩ | ⟨hnot, -⟩⟩ := firstSegment_of_isLongest_numeral h
    · exact ⟨c, cs, htext, hread⟩
    · exact absurd hdigits hnot
  | real h hdigits =>
    obtain ⟨c, cs, htext, ⟨hall, -⟩ | ⟨-, hread⟩⟩ := firstSegment_of_isLongest_numeral h
    · exact absurd hall hdigits
    · exact ⟨c, cs, htext, hread⟩
  | symbol h hopen => exact firstSegment_of_isLongest_symbol h hopen
  | string h hne hstop =>
    obtain rfl | ⟨c, cs, rfl, hc⟩ := h.eq_nil_or
    · exact absurd rfl hne
    · refine ⟨c, cs, rfl, ?_⟩
      rw [firstSegment_quoteOrCode hc, ← List.cons_append, stringLiteral_string h hstop]
  | openComment h hrest =>
    rw [hrest]
    simpa using firstSegment_of_isOpenComment h
  | openString hbefore hinside hrest =>
    rw [← stringLiteral_openString hbefore hinside hrest]
    exact firstSegment_of_pieces hbefore (.inl rfl) rest
  | characterCode hbefore hdigits hcode hrest =>
    rw [← stringLiteral_characterCode hbefore hdigits hcode hrest]
    exact firstSegment_of_pieces hbefore (.inr rfl) rest
  | @character c hblank hletter hdigit hmark hsymbol =>
    exact ⟨c, [], rfl, firstSegment_of_character hblank hletter hdigit hmark hsymbol rest⟩

/-- **What stands there is read first.** -/
theorem firstSegment_of_stands {s : Segment} {rest : List Char} (h : s.Stands rest) :
    ∃ c cs, s.text = c :: cs ∧ firstSegment c (cs ++ rest) = (s, rest) := by
  cases h with
  | blank h => exact ⟨_, [], rfl, if_pos h⟩
  | comment h => exact firstSegment_of_isComment h
  | lexeme h => exact firstSegment_of_isLexeme h

/-! ## The segments of a source -/

/-- The segments of a source stand in it one behind the other. -/
theorem row_segments (source : List Char) : Row (segments source) [] := by
  fun_induction segments source with
  | case1 => trivial
  | case2 c cs ih =>
    refine ⟨?_, ih⟩
    rw [rowText_segments, List.append_nil]
    exact stands_firstSegment c cs

/-- Segments that stand in front of a rest are the first segments of the source. -/
theorem segments_of_row {ss : List Segment} {rest : List Char} (h : Row ss rest) :
    segments (rowText ss ++ rest) = ss ++ segments rest := by
  induction ss with
  | nil => rfl
  | cons s ss ih =>
    obtain ⟨hs, hss⟩ := h
    obtain ⟨c, cs, htext, hread⟩ := firstSegment_of_stands hs
    rw [rowText_cons, List.append_assoc, htext, List.cons_append, segments, hread, ih hss,
      List.cons_append]

/-! ## The tokens of a source -/

/-- The text of a lexeme is the text it was read from. Reserved words are folded to small letters,
and a string is decoded. -/
def Lexeme.IsReadFrom (text : List Char) (l : Lexeme) : Prop :=
  match l with
  | keyword _ => l.text.toList = text.map Char.toLower
  | identifier _ | integer _ | real _ | symbol _ => l.text.toList = text
  | string _ | flaw _ => True

/-- The token of a segment with other segments in front of it: its lexeme, if it has one, on the
line that it begins on. -/
def Segment.tokenBehind (before : List Segment) (s : Segment) : Option Token :=
  s.lexeme.map fun l => ⟨l, 1 + newlines (rowText before)⟩

/-- A source is cut into segments, and the stream of tokens is what they amount to. -/
structure IsLexing (source : List Char) (ss : List Segment) (stream : TokenStream) : Prop where
  text : rowText ss = source
  row : Row ss []
  readFrom : ∀ s ∈ ss, ∀ l ∈ s.lexeme, l.IsReadFrom s.text
  tokens : stream.tokens = (ss.inits.zip ss).filterMap fun p => p.2.tokenBehind p.1
  endLine : stream.endLine = 1 + newlines source
  ascending : (stream.tokens.map (·.line) ++ [stream.endLine]).Pairwise (· ≤ ·)

theorem newlines_append (cs ds : List Char) : newlines (cs ++ ds) = newlines cs + newlines ds :=
  List.count_append

/-- A text that is a lexeme is one that the lexeme can be read from. -/
theorem isReadFrom_of_isLexeme {rest text : List Char} {l : Lexeme} (h : IsLexeme rest text l) :
    l.IsReadFrom text := by
  cases h with
  | keyword _ hk => exact hk
  | identifier | integer | real => exact String.toList_ofList
  | symbol => rfl
  | string | openComment | openString | characterCode | character => trivial

/-- Every lexeme in a row of segments can be read from the text of its segment. -/
theorem isReadFrom_of_row {ss : List Segment} {rest : List Char} (h : Row ss rest) :
    ∀ s ∈ ss, ∀ l ∈ s.lexeme, l.IsReadFrom s.text := by
  induction ss with
  | nil => simp
  | cons s ss ih =>
    obtain ⟨hs, hss⟩ := h
    refine List.forall_mem_cons.2 ⟨fun l hl => ?_, ih hss⟩
    cases hs with
    | blank | comment => simp at hl
    | lexeme h =>
      obtain rfl := Option.some.inj hl
      exact isReadFrom_of_isLexeme h

/-- Counting lines along the row is counting the newlines in front of each segment. -/
theorem tokensFrom_eq (line : Nat) (ss : List Segment) :
    tokensFrom line ss = (ss.inits.zip ss).filterMap fun p =>
      p.2.lexeme.map fun l => ⟨l, line + newlines (rowText p.1)⟩ := by
  induction ss generalizing line with
  | nil => rfl
  | cons s ss ih =>
    have hlater : (fun p : List Segment × Segment => p.2.lexeme.map
          fun l => (⟨l, line + newlines s.text + newlines (rowText p.1)⟩ : Token))
        = fun p => p.2.lexeme.map fun l => ⟨l, line + newlines (rowText (s :: p.1))⟩ := by
      funext p
      rw [rowText_cons, newlines_append, Nat.add_assoc]
    rw [tokensFrom, ih, hlater, List.inits_cons, List.zip_cons_cons, List.filterMap_cons,
      List.zip_map_left, List.filterMap_map]
    cases s.lexeme <;> rfl

/-- Lines that are counted from `line` on are not smaller. -/
theorem le_of_mem_lines {line : Nat} {ss : List Segment} :
    ∀ n ∈ (tokensFrom line ss).map (·.line) ++ [line + newlines (rowText ss)], line ≤ n := by
  rw [tokensFrom_eq]
  intro n hn
  rcases List.mem_append.1 hn with hn | hn
  · obtain ⟨t, ht, rfl⟩ := List.mem_map.1 hn
    obtain ⟨p, -, ht⟩ := List.mem_filterMap.1 ht
    obtain ⟨l, -, rfl⟩ := Option.map_eq_some_iff.1 ht
    exact Nat.le_add_right _ _
  · rw [List.mem_singleton.1 hn]
    exact Nat.le_add_right _ _

/-- Tokens stand on lines that never go back, up to the line that the text ends on. -/
theorem ascending_lines (line : Nat) (ss : List Segment) :
    ((tokensFrom line ss).map (·.line) ++ [line + newlines (rowText ss)]).Pairwise (· ≤ ·) := by
  induction ss generalizing line with
  | nil => exact List.pairwise_singleton _ _
  | cons s ss ih =>
    have hlater := ih (line + newlines s.text)
    rw [rowText_cons, newlines_append, ← Nat.add_assoc, tokensFrom]
    cases s.lexeme with
    | none => exact hlater
    | some l =>
      refine List.pairwise_cons.2 ⟨fun n hn => ?_, hlater⟩
      exact Nat.le_trans (Nat.le_add_right _ _) (le_of_mem_lines n hn)

/-- **The lexer loses nothing and invents nothing.** Every source is a row of blanks, comments and
lexemes in exactly one way, and its tokens are those of the lexemes, in order and on their lines. -/
theorem tokenize_isLexing (source : List Char) :
    ∃ ss, IsLexing source ss (tokenize source)
      ∧ ∀ other, rowText other = source → Row other [] → other = ss := by
  refine ⟨segments source, ?_, fun other htext hrow => ?_⟩
  · have hascending := ascending_lines 1 (segments source)
    rw [rowText_segments] at hascending
    exact {
      text := rowText_segments source
      row := row_segments source
      readFrom := isReadFrom_of_row (row_segments source)
      tokens := tokensFrom_eq 1 (segments source)
      endLine := rfl
      ascending := hascending }
  · have hread := segments_of_row hrow
    rw [List.append_nil, htext, segments, List.append_nil] at hread
    exact hread.symm

end TurboBench.Pascal
