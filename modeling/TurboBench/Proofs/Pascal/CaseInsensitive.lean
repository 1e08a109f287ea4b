import TurboBench.Proofs.Pascal.PairedPhrases
import TurboBench.Proofs.Pascal.Recasing

/-!
# Case does not matter

A source and the same source with its words and numerals in other letters are compiled to the same
program, but for its name, or else both are refused, with diagnostics on the same lines
(`parseProgram_alike`). The tokens of the two differ only in the spelling of names and real
numerals (`tokenize_recased`), and of these the parser uses the folded name and the value, so they
are a lawful pairing (`recasing_lawful`): every token may be read over, nothing is lost, and what is
reported of a name is reported on the line that it stands on.

The name of a program has no part in its runs.
-/

set_option autoImplicit false

namespace TurboBench.Pascal

open Parse

/-! ## Parsing tokens that differ in case -/

/-- States in front of the same tokens but for their case, with the same declared and as much
reported on each line. -/
structure Recased (s t : ParserState) : Prop where
  tokens : List.Forall₂ Token.Alike s.tokens t.tokens
  endLine : s.endLine = t.endLine
  diagnostics : s.diagnostics.map (·.line) = t.diagnostics.map (·.line)
  declarations : s.declarations = t.declarations
  constants : s.constants = t.constants

/-- Sources that differ in case. Nothing is lost, and nothing is a fence. -/
def recasing : Pairing where
  name x y := foldName x = foldName y
  numeral x y := realValue? x = realValue? y
  diagnostics d e := d.line = e.line
  states := Recased
  lost _ := False
  fence _ := False

section Tokens

variable {ts us : List Token} {s t : ParserState}

theorem stopsSkipping_alike {l l' : Lexeme} (h : l.CaseAlike l') :
    stopsSkipping l = stopsSkipping l' := by
  cases h with
  | refl | identifier | real => rfl

/-- What is skipped to recover does not depend on case. -/
theorem skipped_alike (h : List.Forall₂ Token.Alike ts us) :
    List.Forall₂ Token.Alike (ts.dropWhile (!stopsSkipping ·.lexeme))
      (us.dropWhile (!stopsSkipping ·.lexeme)) := by
  induction h with
  | nil => exact .nil
  | @cons t u ts us htu hts ih =>
    rw [List.dropWhile_cons, List.dropWhile_cons, stopsSkipping_alike htu.lexeme]
    split
    · exact ih
    · exact .cons htu hts

/-- Neither does what is skipped for the heading. -/
theorem skipHeading_alike (h : List.Forall₂ Token.Alike ts us) :
    List.Forall₂ Token.Alike (skipHeading ts) (skipHeading us) := by
  induction h with
  | nil => exact .nil
  | @cons t u ts us htu hts ih =>
    obtain ⟨l, n⟩ := t
    obtain ⟨l', m⟩ := u
    obtain rfl : n = m := htu.line
    have hlexeme : l.CaseAlike l' := htu.lexeme
    rw [skipHeading, skipHeading]
    cases hlexeme with
    | refl =>
      split
      · exact .cons htu hts
      · exact .cons htu hts
      · exact .cons htu hts
      · exact hts
      · exact ih
    | identifier => exact ih
    | real => exact ih

/-- Characters that are not allowed stand on the same lines. -/
theorem illegalTokens_alike (h : List.Forall₂ Token.Alike ts us) :
    (illegalTokens ts).map (·.line) = (illegalTokens us).map (·.line) := by
  induction h with
  | nil => rfl
  | @cons t u ts us htu _ ih =>
    obtain ⟨l, n⟩ := t
    obtain ⟨l', m⟩ := u
    obtain rfl : n = m := htu.line
    have hlexeme : l.CaseAlike l' := htu.lexeme
    cases hlexeme with
    | refl =>
      rw [← List.singleton_append, illegalTokens_append, List.map_append, ih, ← List.map_append,
        ← illegalTokens_append, List.singleton_append]
    | identifier => exact ih
    | real => exact ih

theorem Recased.skip (h : Recased s t) : Recased s.skipped t.skipped :=
  ⟨skipped_alike h.tokens, h.endLine, h.diagnostics, h.declarations, h.constants⟩

/-- Parsers of sources that differ in case can be paired. -/
theorem recasing_lawful : recasing.Lawful where
  refl_name _ := rfl
  foldName h := h
  realValue h := h
  charge _ _ _ _ _ := rfl
  -- What a state shows of its tokens is read off the first of them on both sides.
  next {s t} h := by
    have htokens := Recased.tokens h
    unfold ParserState.next?
    generalize s.tokens = ts at htokens ⊢
    generalize t.tokens = us at htokens ⊢
    cases htokens with
    | nil => exact .none
    | cons htu _ => exact .some htu.lexeme
  line {s t} h := by
    have htokens := Recased.tokens h
    have hend := Recased.endLine h
    unfold ParserState.line
    generalize s.tokens = ts at htokens ⊢
    generalize t.tokens = us at htokens ⊢
    cases htokens with
    | nil => exact hend
    | cons htu _ => exact htu.line
  declarations h := Recased.declarations h
  constants h := Recased.constants h
  advance {s t l} h _ _ := by
    obtain ⟨htokens, hend, hdiagnostics, hdeclarations, hconstants⟩ := h
    refine .inr ⟨?_, hend, hdiagnostics, hdeclarations, hconstants⟩
    unfold ParserState.advance
    generalize s.tokens = ts at htokens ⊢
    generalize t.tokens = us at htokens ⊢
    cases htokens with
    | nil => exact .nil
    | cons _ htokens => exact htokens
  report {s t d e} h hd := by
    obtain ⟨htokens, hend, hdiagnostics, hdeclarations, hconstants⟩ := h
    refine ⟨htokens, hend, ?_, hdeclarations, hconstants⟩
    have hline : d.line = e.line := hd
    rw [ParserState.report, ParserState.report, List.map_append, List.map_append, hdiagnostics,
      List.map_singleton, List.map_singleton, hline]
  skip h := .inr (Recased.skip h)
  lost h := h.elim
  fence h := h.elim

/-- Declarations keep two parsers paired that differ in case. -/
theorem recasing_declaring : recasing.Declaring where
  declare h d := by
    obtain ⟨htokens, hend, hdiagnostics, hdeclarations, hconstants⟩ := h
    exact ⟨htokens, hend, hdiagnostics, congrArg (· ++ [d]) hdeclarations, hconstants⟩
  define h constants := by
    obtain ⟨htokens, hend, hdiagnostics, hdeclarations, -⟩ := h
    exact ⟨htokens, hend, hdiagnostics, hdeclarations, rfl⟩
  skipHeading h := by
    obtain ⟨htokens, hend, hdiagnostics, hdeclarations, hconstants⟩ := h
    exact ⟨skipHeading_alike htokens, hend, hdiagnostics, hdeclarations, hconstants⟩

end Tokens

/-! ## Compiling and running -/

/-- Two sources are compiled to the same program but for its name, or refused with diagnostics on
the same lines. -/
inductive SameVerdict : Except (List Diagnostic) Program → Except (List Diagnostic) Program → Prop
  | ok (p : Program) (name : String) : SameVerdict (.ok p) (.ok { p with name := name })
  | error {ds es : List Diagnostic} (h : ds.map (·.line) = es.map (·.line)) :
      SameVerdict (.error ds) (.error es)

/-- Tokens that differ in case meet with the same verdict. -/
theorem parseProgram_alike {source source' : TokenStream}
    (htokens : List.Forall₂ Token.Alike source.tokens source'.tokens)
    (hend : source.endLine = source'.endLine) :
    SameVerdict (parseProgram source) (parseProgram source') := by
  have hstart : Recased (.ofSource source) (.ofSource source') :=
    ⟨htokens, hend, illegalTokens_alike htokens, rfl, rfl⟩
  have hopen (l : Lexeme) : ¬ recasing.fence l := id
  have hpaired := Pairing.afterBody_paired recasing_lawful recasing_declaring hopen hstart
  obtain ⟨-, hbody, hst⟩ := hpaired.resolve_left id
  have hlines : (afterBody source).2.diagnostics.map (·.line)
      = (afterBody source').2.diagnostics.map (·.line) := Recased.diagnostics hst
  have hdeclarations : (afterBody source).2.declarations = (afterBody source').2.declarations :=
    Recased.declarations hst
  have hconstants : (afterBody source).2.constants = (afterBody source').2.constants :=
    Recased.constants hst
  -- with as many diagnostics in both, either both have a program or neither has
  have hempty : (afterBody source).2.diagnostics.isEmpty
      = (afterBody source').2.diagnostics.isEmpty := by
    rw [← List.isEmpty_map (f := (·.line)), hlines, List.isEmpty_map]
  rw [parseProgram_eq, parseProgram_eq, ← hempty]
  split
  · rw [← hbody, ← hdeclarations, ← hconstants]
    exact .ok _ _
  · exact .error hlines

/-- What is the same about two compilations: whether there is a program, the lines of the
diagnostics, the count of statements, the warnings, and every run of the programs. -/
structure SameBehaviour (r r' : Except (List Diagnostic) Program) : Prop where
  success : (CompileResult.of r).success = (CompileResult.of r').success
  lines : (reported r).map (·.line) = (reported r').map (·.line)
  statementCount : (CompileResult.of r).statementCount = (CompileResult.of r').statementCount
  warnings : (CompileResult.of r).warnings = (CompileResult.of r').warnings
  runs (s : Session) :
    s.execute (CompileResult.of r).program = s.execute (CompileResult.of r').program

/-- The name of a program is not looked at when it is run. -/
theorem SameVerdict.sameBehaviour {r r' : Except (List Diagnostic) Program}
    (h : SameVerdict r r') : SameBehaviour r r' := by
  cases h with
  | ok p name => exact ⟨rfl, rfl, rfl, rfl, fun _ => rfl⟩
  | error hlines => exact ⟨rfl, hlines, rfl, rfl, fun _ => rfl⟩

/-- **Case does not matter outside of strings and comments.** -/
theorem sameBehaviour_of_recases {source source' : List Char} (h : Recases source source') :
    SameBehaviour (compile source) (compile source') := by
  obtain ⟨htokens, hend⟩ := tokenize_recased h
  exact (parseProgram_alike htokens hend).sameBehaviour

/-- A program with words, a name, a real numeral and a string. -/
def mixedSource : List Char :=
  "Program P;Begin WriteLn('Ab',1E1)End.".toList

/-- The same in other letters. -/
def smallSource : List Char :=
  "program p;begin writeln('Ab',1e1)end.".toList

theorem segments_mixedSource : segments mixedSource =
    [⟨"Program".toList, some (.keyword .program)⟩, ⟨[' '], none⟩, ⟨['P'], some (.identifier "P")⟩,
      ⟨[';'], some (.symbol .semicolon)⟩, ⟨"Begin".toList, some (.keyword .begin_)⟩, ⟨[' '], none⟩,
      ⟨"WriteLn".toList, some (.keyword .writeln)⟩, ⟨['('], some (.symbol .openParen)⟩,
      ⟨"'Ab'".toList, some (.string "Ab")⟩, ⟨[','], some (.symbol .comma)⟩,
      ⟨"1E1".toList, some (.real "1E1")⟩, ⟨[')'], some (.symbol .closeParen)⟩,
      ⟨"End".toList, some (.keyword .end_)⟩, ⟨['.'], some (.symbol .dot)⟩] := by
  cbv

/-- A source in mixed letters and the same in small ones. -/
theorem recases_mixedSource : Recases mixedSource smallSource := by
  refine ⟨["program".toList, [' '], ['p'], [';'], "begin".toList, [' '], "writeln".toList, ['('],
    "'Ab'".toList, [','], "1e1".toList, [')'], "end".toList, ['.']], ?_, by decide⟩
  have hword {s : Segment} {l : Lexeme} {text : List Char} (hl : s.lexeme = some l)
      (hcase : l.hasCase = true) (h : s.text.map Char.toLower = text.map Char.toLower) :
      s.Recases text := .recased hl hcase h
  rw [segments_mixedSource]
  refine .cons (hword rfl rfl (by decide)) (.cons .kept (.cons (hword rfl rfl (by decide)) ?_))
  refine .cons .kept (.cons (hword rfl rfl (by decide)) (.cons .kept ?_))
  refine .cons (hword rfl rfl (by decide)) (.cons .kept (.cons .kept (.cons .kept ?_)))
  refine .cons (hword rfl rfl (by decide)) (.cons .kept (.cons (hword rfl rfl (by decide)) ?_))
  exact .cons .kept .nil

theorem sameBehaviour_mixedSource :
    Recases mixedSource smallSource ∧ SameBehaviour (compile mixedSource) (compile smallSource) :=
  ⟨recases_mixedSource, sameBehaviour_of_recases recases_mixedSource⟩

end TurboBench.Pascal
