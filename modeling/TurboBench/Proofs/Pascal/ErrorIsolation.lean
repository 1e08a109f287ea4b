import TurboBench.Proofs.Pascal.PairedPhrases

/-!
# What is wrong with one statement is reported of that statement alone

Two sources are compared that are the same up to some token and part behind it. Up to there the
parser does the same in both (`Fork.lawful`), and for the two tokens at which it matters the fork
is passed in a known way.

The first is the `begin` of the body. A declaration part without errors is read to its end, so the
first run is never lost in what comes behind the fork, and everything that stands in front of the
`begin` is read in the same way whatever the body is (`afterDeclarations_fork`).

The second is the semicolon behind a piece of the body. Nothing inside a statement reads over it,
as no list opens in the piece, and the skipping after a mistake stops there. So the statements come
to the semicolon in both sources, with the same reported, and go on behind it
(`Fork.afterStatements_fork`). With the rest of the body on one side and the end of the program on
the other, this is that a piece is charged with what it is charged with when it stands alone; the
whole body follows by induction on its pieces.
-/

set_option autoImplicit false

namespace TurboBench.Pascal

open Parse

/-! ## Sources that part -/

/-- Two sources that are the same up to a token and part behind it, and what was reported of each
at the beginning. -/
structure Fork where
  common : List Token
  token : Token
  left : List Token
  right : List Token
  leftBefore : List Diagnostic
  rightBefore : List Diagnostic

namespace Fork

variable {c : Fork} {s t : ParserState}

/-- Both parsers are at the same place in front of the fork, and have reported the same since the
beginning. -/
structure Together (c : Fork) (s t : ParserState) : Prop where
  tokens : ∃ us, us <:+ c.common ∧ s.tokens = us ++ c.token :: c.left
    ∧ t.tokens = us ++ c.token :: c.right
  diagnostics : ∃ ds, s.diagnostics = c.leftBefore ++ ds ∧ t.diagnostics = c.rightBefore ++ ds
  declarations : s.declarations = t.declarations
  constants : s.constants = t.constants

/-- Both parsers are behind the fork, and have reported the same since the beginning. -/
structure Parted (c : Fork) (s t : ParserState) : Prop where
  left : s.tokens = c.left
  right : t.tokens = c.right
  diagnostics : ∃ ds, s.diagnostics = c.leftBefore ++ ds ∧ t.diagnostics = c.rightBefore ++ ds

/-- A semicolon at the fork is a fence. Behind any other token the first run is lost. -/
def pairing (c : Fork) : Pairing where
  name := Eq
  numeral := Eq
  diagnostics := Eq
  states := c.Together
  lost s := c.token.lexeme ≠ .symbol .semicolon ∧ s.tokens.length ≤ c.left.length
  fence l := l = .symbol .semicolon ∧ c.token.lexeme = l

/-- Two parsers that are together see one token next. -/
theorem Together.head (h : c.Together s t) : ∃ u, s.tokens.head? = some u
    ∧ t.tokens.head? = some u ∧ (u ∈ c.common ∨ u = c.token) := by
  obtain ⟨us, hus, hleft, hright⟩ := h.tokens
  rw [hleft, hright]
  cases us with
  | nil => exact ⟨c.token, rfl, rfl, .inr rfl⟩
  | cons u us => exact ⟨u, rfl, rfl, .inl (hus.subset List.mem_cons_self)⟩

/-- They stay together over a token in common, or the one on the piece is lost. -/
theorem Together.advance {l : Lexeme} (h : c.Together s t) (hs : s.next? = some l)
    (hl : ¬ c.pairing.fence l) :
    c.pairing.lost s.advance ∨ c.Together s.advance t.advance := by
  obtain ⟨us, hus, hleft, hright⟩ := h.tokens
  cases us with
  | nil =>
    rw [ParserState.next?, hleft] at hs
    obtain rfl := Option.some.inj hs
    refine .inl ⟨fun htoken => hl ⟨htoken, rfl⟩, ?_⟩
    rw [ParserState.advance, hleft]
    exact Nat.le_refl _
  | cons u us =>
    refine .inr ⟨⟨us, (List.suffix_cons u us).trans hus, ?_, ?_⟩, h.diagnostics, h.declarations,
      h.constants⟩
    · rw [ParserState.advance, hleft]
      rfl
    · rw [ParserState.advance, hright]
      rfl

/-- A report leaves them together. -/
theorem Together.report (h : c.Together s t) (d : Diagnostic) :
    c.Together (s.report d) (t.report d) := by
  obtain ⟨htokens, ⟨ds, hleft, hright⟩, hdeclarations, hconstants⟩ := h
  refine ⟨htokens, ⟨ds ++ [d], ?_, ?_⟩, hdeclarations, hconstants⟩
  · rw [ParserState.report, hleft, List.append_assoc]
  · rw [ParserState.report, hright, List.append_assoc]

/-- Whatever stands behind a token, the skipping stops in front of it, or it passes it over. -/
theorem dropWhile_cases (us : List Token) (token : Token) :
    (∃ vs, vs <:+ us ∧ ∀ behind, (us ++ token :: behind).dropWhile (!stopsSkipping ·.lexeme)
        = vs ++ token :: behind)
      ∨ (stopsSkipping token.lexeme = false
        ∧ ∀ behind, (us ++ token :: behind).dropWhile (!stopsSkipping ·.lexeme)
          = behind.dropWhile (!stopsSkipping ·.lexeme)) := by
  induction us with
  | nil =>
    by_cases hstop : stopsSkipping token.lexeme = true
    · exact .inl ⟨[], List.suffix_rfl, fun behind => by simp [hstop]⟩
    · exact .inr ⟨by simpa using hstop, fun behind => by simp [hstop]⟩
  | cons u us ih =>
    by_cases hstop : stopsSkipping u.lexeme = true
    · exact .inl ⟨u :: us, List.suffix_rfl, fun behind => by simp [hstop]⟩
    · simp only [List.cons_append, List.dropWhile_cons, hstop, Bool.not_false, if_true]
      rcases ih with ⟨vs, hvs, hskip⟩ | hpassed
      · exact .inl ⟨vs, hvs.trans (List.suffix_cons u us), hskip⟩
      · exact .inr hpassed

/-- Skipping to recover keeps them together, since it ends in what they have in common. -/
theorem Together.skip (h : c.Together s t) :
    c.pairing.lost s.skipped ∨ c.Together s.skipped t.skipped := by
  obtain ⟨us, hus, hleft, hright⟩ := h.tokens
  -- Skipping stops in front of the fork, or goes past it; at a semicolon it stops.
  rcases dropWhile_cases us c.token with ⟨vs, hvs, hskip⟩ | ⟨hstop, hpassed⟩
  · refine .inr ⟨⟨vs, hvs.trans hus, ?_, ?_⟩, h.diagnostics, h.declarations, h.constants⟩
    · rw [ParserState.skipped, hleft, hskip]
    · rw [ParserState.skipped, hright, hskip]
  · refine .inl ⟨?_, ?_⟩
    · intro htoken
      rw [htoken] at hstop
      exact absurd hstop (by decide)
    · rw [ParserState.skipped, hleft, hpassed]
      exact (List.dropWhile_suffix _).length_le

/-- Parsers of the piece and of the whole can be paired. -/
theorem lawful (c : Fork) : c.pairing.Lawful where
  refl_name _ := rfl
  foldName h := congrArg Pascal.foldName h
  realValue h := congrArg realValue? h
  charge line problem _ _ h := by
    rcases h with rfl | rfl
    · rfl
    · rfl
  next h := by
    obtain ⟨u, hleft, hright, -⟩ := Together.head h
    rw [ParserState.next?, ParserState.next?, hleft, hright]
    exact .some (.refl u.lexeme)
  line h := by
    obtain ⟨u, hleft, hright, -⟩ := Together.head h
    rw [ParserState.line, ParserState.line, hleft, hright]
    rfl
  declarations h := Together.declarations h
  constants h := Together.constants h
  advance := Together.advance
  report h hd := by
    obtain rfl := hd
    exact Together.report h _
  skip := Together.skip
  lost hs h := ⟨hs.1, h.tokens.length_le.trans hs.2⟩
  fence h := h.1

/-! ## Declarations in front of the body -/

/-- A heading is not skipped beyond a `begin`. -/
theorem skipHeading_append {token : Token} (htoken : token.lexeme = .keyword .begin_)
    (us : List Token) :
    ∃ vs, vs <:+ us ∧ ∀ behind, skipHeading (us ++ token :: behind) = vs ++ token :: behind := by
  induction us with
  | nil => exact ⟨[], List.suffix_rfl, fun behind => by simp [skipHeading, htoken]⟩
  | cons u us ih =>
    obtain ⟨vs, hvs, hskip⟩ := ih
    simp only [List.cons_append, skipHeading]
    split
    · exact ⟨u :: us, List.suffix_rfl, fun behind => rfl⟩
    · exact ⟨u :: us, List.suffix_rfl, fun behind => rfl⟩
    · exact ⟨u :: us, List.suffix_rfl, fun behind => rfl⟩
    · exact ⟨us, List.suffix_cons u us, fun behind => rfl⟩
    · exact ⟨vs, hvs.trans (List.suffix_cons u us), hskip⟩

/-- Declarations keep the two paired. -/
theorem declaring (htoken : c.token.lexeme = .keyword .begin_) : c.pairing.Declaring where
  declare h d := ⟨h.tokens, h.diagnostics, congrArg (· ++ [d]) h.declarations, h.constants⟩
  define h constants := ⟨h.tokens, h.diagnostics, h.declarations, rfl⟩
  skipHeading {s t} h := by
    obtain ⟨us, hus, hleft, hright⟩ := h.tokens
    obtain ⟨vs, hvs, hskip⟩ := skipHeading_append htoken us
    refine ⟨⟨vs, hvs.trans hus, ?_, ?_⟩, h.diagnostics, h.declarations, h.constants⟩
    · rw [hleft, hskip]
    · rw [hright, hskip]

end Fork

section Front

variable {front : List Token} {b : Nat}

/-- Up to a `begin`, headings and declarations are read in the same way in front of everything,
unless the first run goes on behind it. -/
theorem afterDeclarations_together {left right : List Token} {n m : Nat}
    (hleft : illegalTokens (front ++ Token.word .begin_ b :: left) = [])
    (hright : illegalTokens (front ++ Token.word .begin_ b :: right) = [])
    (hlong : left.length
      < (afterDeclarations ⟨front ++ Token.word .begin_ b :: left, n⟩).tokens.length) :
    (Fork.mk front (.word .begin_ b) left right [] []).Together
      (afterDeclarations ⟨front ++ Token.word .begin_ b :: left, n⟩)
      (afterDeclarations ⟨front ++ Token.word .begin_ b :: right, m⟩) := by
  let c : Fork := ⟨front, .word .begin_ b, left, right, [], []⟩
  have hstart : c.Together (.ofSource ⟨front ++ Token.word .begin_ b :: left, n⟩)
      (.ofSource ⟨front ++ Token.word .begin_ b :: right, m⟩) :=
    ⟨⟨front, List.suffix_rfl, rfl, rfl⟩, ⟨[], hleft, hright⟩, rfl, rfl⟩
  have hopen (l : Lexeme) : ¬ c.pairing.fence l := by
    rintro ⟨rfl, htoken⟩
    exact nomatch htoken
  have hpaired := Pairing.afterDeclarations_paired c.lawful (c.declaring rfl) hopen hstart
  rcases hpaired with hlost | ⟨-, h⟩
  · exact absurd hlost.2 (Nat.not_le_of_lt hlong)
  · exact h

/-- What is reported at the beginning is reported behind the declarations. -/
theorem illegalTokens_of_clean {source : TokenStream}
    (h : (afterDeclarations source).diagnostics = []) : illegalTokens source.tokens = [] :=
  ((afterHeading_of_clean source).1.trans (afterDeclarations_of_clean source).1).clean h

/-- The tokens are a heading and declarations in which nothing is wrong: read in front of a `begin`
they are read to their end, and nothing is reported. -/
structure IsFront (front : List Token) (b : Nat) : Prop where
  tokens : (afterDeclarations ⟨front ++ [Token.word .begin_ b], b⟩).tokens = [Token.word .begin_ b]
  diagnostics : (afterDeclarations ⟨front ++ [Token.word .begin_ b], b⟩).diagnostics = []

/-- What stands in front of the body is read in the same way whatever the body is. -/
theorem afterDeclarations_fork {ts : List Token} {n : Nat} (hfront : IsFront front b)
    (hlegal : illegalTokens ts = []) :
    let s := afterDeclarations ⟨front ++ [Token.word .begin_ b], b⟩
    let t := afterDeclarations ⟨front ++ Token.word .begin_ b :: ts, n⟩
    t.tokens = Token.word .begin_ b :: ts ∧ t.diagnostics = [] ∧ t.declarations = s.declarations
      ∧ t.constants = s.constants := by
  intro s t
  have hclean : illegalTokens (front ++ [Token.word .begin_ b]) = [] :=
    illegalTokens_of_clean hfront.diagnostics
  have hclean' : illegalTokens (front ++ Token.word .begin_ b :: ts) = [] := by
    rw [List.append_cons, illegalTokens_append, hclean, hlegal, List.append_nil]
  have hlong : 0 < s.tokens.length := by
    rw [hfront.tokens]
    exact Nat.one_pos
  have h := afterDeclarations_together (m := n) hclean hclean' hlong
  obtain ⟨us, -, hleft, hright⟩ := h.tokens
  obtain ⟨ds, hds, hds'⟩ := h.diagnostics
  have hus : us = [] := by
    have hlength := congrArg List.length (hfront.tokens.symm.trans hleft)
    simpa using hlength
  rw [hus] at hright
  rw [hfront.diagnostics] at hds
  rw [← hds] at hds'
  exact ⟨hright, hds', h.declarations.symm, h.constants.symm⟩

/-- What compiles with an empty body, and has no `begin` in front of it, is a front. -/
theorem isFront_of_compiles {p : Program} {e d n : Nat}
    (hbegin : ∀ t ∈ front, t.lexeme ≠ .keyword .begin_)
    (h : parseProgram ⟨front ++ Token.word .begin_ b :: [.word .end_ e, .mark .dot d], n⟩ = .ok p) :
    IsFront front b := by
  generalize hsource : TokenStream.mk
    (front ++ Token.word .begin_ b :: [.word .end_ e, .mark .dot d]) n = source at h
  have hclean : (afterBody source).2.diagnostics = [] := by
    rw [← reported_parseProgram, h]
    rfl
  obtain ⟨hfurther, hbody⟩ := afterBody_of_clean source
  obtain ⟨-, b', us, e', d', htokens, hstatements⟩ := hbody hclean
  have hdiagnostics := hfurther.clean hclean
  have hillegal := illegalTokens_of_clean hdiagnostics
  -- the statements end in front of the last two tokens
  obtain ⟨vs, rfl, -⟩ := hstatements.legal
  subst hsource
  have hlong : [Token.word .end_ e, Token.mark .dot d].length
      < (afterDeclarations ⟨front ++ Token.word .begin_ b :: [.word .end_ e, .mark .dot d],
        n⟩).tokens.length := by
    rw [htokens]
    simp
  have hillegal' : illegalTokens (front ++ [Token.word .begin_ b]) = [] := by
    rw [List.append_cons, illegalTokens_append] at hillegal
    exact (List.append_eq_nil_iff.1 hillegal).1
  have hfork := afterDeclarations_together (m := b) hillegal hillegal' hlong
  obtain ⟨ws, hws, hleft, hright⟩ := hfork.tokens
  obtain ⟨ds, hds, hds'⟩ := hfork.diagnostics
  obtain rfl : ws = [] := by
    cases ws with
    | nil => rfl
    | cons w ws =>
      have hw : w = .word .begin_ b' := (List.cons.inj (hleft.symm.trans htokens)).1
      exact absurd (congrArg Token.lexeme hw) (hbegin w (hws.subset List.mem_cons_self))
  refine ⟨hright, ?_⟩
  rw [hds', ← hds, hdiagnostics]

end Front

/-! ## Pieces of a body -/

/-- The lexeme does not separate statements, does not open or close a list of them, and is no
flaw. -/
def Lexeme.isPlain : Lexeme → Bool
  | .flaw _ | .symbol .semicolon => false
  | .keyword w => w ∉ [.begin_, .repeat_, .case_, .end_, .until_]
  | _ => true

/-- What stands between the semicolons of a body, whether it is a statement or not, and the line of
the semicolon behind it. -/
structure Piece where
  tokens : List Token
  line : Nat
  plain : ∀ t ∈ tokens, t.lexeme.isPlain = true

namespace Piece

/-- The piece with its semicolon. -/
def text (A : Piece) : List Token :=
  A.tokens ++ [Token.mark .semicolon A.line]

/-- There is no character in a piece that is not allowed. -/
theorem illegalTokens_text (A : Piece) : illegalTokens A.text = [] := by
  rw [text, illegalTokens_append]
  refine List.append_eq_nil_iff.2 ⟨List.filterMap_eq_nil_iff.2 fun t ht => ?_, rfl⟩
  have hplain := A.plain t ht
  split
  · rename_i cause hflaw
    rw [hflaw] at hplain
    exact nomatch hplain
  · rfl

end Piece

section Turns

variable {statement : Parse Statement} {read : Option Statement} {s t : ParserState}

/-- A missing semicolon is reported, and reading goes on where the skipping stops. -/
theorem statementTurn_of_missing {l : Lexeme} (hread : recovering statement s = .ok read t)
    (hnext : t.next? = some l) (hl : l ≠ .symbol .semicolon) (hend : l ≠ .keyword .end_)
    (huntil : l ≠ .keyword .until_) {b : Bool} {u : ParserState}
    (helse : acceptKeyword .else_
      (t.report ⟨t.line, .expected (.symbol .semicolon) t.found⟩).skipped = .ok b u) :
    statementTurn statement s = .ok (read, true) u := by
  have hsemicolon : acceptSymbol .semicolon t = .ok false t := by
    rw [acceptSymbol_apply, if_neg]
    exact fun h => hl (Option.some.inj (hnext.symm.trans h))
  -- The last of the four ways on, which the next token leads to.
  have hmissing : (do
      Parse.report t.line (.expected (.symbol .semicolon) t.found)
      synchronize
      discard (acceptKeyword .else_)
      return (read, true) : Parse (Option Statement × Bool)) t = .ok (read, true) u :=
    bind_of_ok (discard_of_ok helse)
  unfold statementTurn
  rw [bind_of_ok hread, bind_of_ok hsemicolon, if_neg Bool.false_ne_true, look_apply, ← hmissing]
  refine congrFun ?_ t
  split
  · rename_i h
    exact nomatch hnext.symm.trans h
  · rename_i h
    exact absurd (Option.some.inj (hnext.symm.trans h)) hend
  · rename_i h
    exact absurd (Option.some.inj (hnext.symm.trans h)) huntil
  · rfl

/-- A statement with a semicolon behind it takes the semicolon. -/
theorem statementTurn_of_semicolon (hread : recovering statement s = .ok read t)
    (hnext : t.next? = some (.symbol .semicolon)) :
    statementTurn statement s = .ok (read, true) t.advance := by
  have hsemicolon : acceptSymbol .semicolon t = .ok true t.advance := by
    rw [acceptSymbol_apply, if_pos hnext]
  unfold statementTurn
  rw [bind_of_ok hread, bind_of_ok hsemicolon]
  rfl

/-- Where another turn follows, the list ends as the rest of it does. -/
theorem endState_of_turn (hstatement : Onward statement)
    (hturn : statementTurn statement s = .ok (read, true) t) :
    endState (statementList statement s) = endState (statementList statement t) := by
  obtain ⟨ss, u, hlist⟩ := neverStops_statementList hstatement t
  have hfirst : statementList statement s = .ok (read.toList ++ ss) u := by
    rw [statementList_eq hstatement]
    unfold listThen
    rw [bind_of_ok hturn]
    exact bind_of_ok hlist
  rw [hfirst, hlist]
  rfl

end Turns

/-- The state in which the statements of a body end. -/
def afterStatements (s : ParserState) : ParserState :=
  endState (statementList (statement nestingLimit) s)

/-- In front of an `end` the statements have come to their end. -/
theorem afterStatements_of_end {s : ParserState} (h : s.next? = some (.keyword .end_)) :
    afterStatements s = s := by
  have hempty : recovering (statement nestingLimit) s = .ok (some (.empty s.line)) s := by
    unfold recovering nestingLimit statement statementWith
    rw [look_apply, h]
    rfl
  have hsemicolon : acceptSymbol .semicolon s = .ok false s := by
    rw [acceptSymbol_apply, h]
    rfl
  have hturn : statementTurn (statement nestingLimit) s
      = .ok (some (.empty s.line), false) s := by
    unfold statementTurn
    rw [bind_of_ok hempty, bind_of_ok hsemicolon, if_neg Bool.false_ne_true, look_apply, h]
    rfl
  rw [afterStatements, statementList_eq (onward_statement _)]
  unfold listThen
  rw [bind_of_ok hturn]
  rfl

namespace Fork

variable {c : Fork} {s t : ParserState}

section Pieces

variable (hplain : ∀ u ∈ c.common, u.lexeme.isPlain = true)
  (htoken : c.token.lexeme = .symbol .semicolon) (depth : Nat)

include hplain htoken

/-- Two parsers that are together are not at the opening of a body. -/
theorem Together.not_opens (h : c.Together s t) : ¬ s.Opens := by
  rintro ⟨w, hw, hnext⟩
  obtain ⟨u, hhead, -, hu⟩ := h.head
  rw [ParserState.next?, hhead] at hnext
  have hlexeme : u.lexeme = .keyword w := Option.some.inj hnext
  rcases hu with hu | rfl
  · have hopens := hplain u hu
    rw [hlexeme] at hopens
    simp only [List.mem_cons, List.not_mem_nil, or_false] at hw
    rcases hw with rfl | rfl | rfl
    · exact absurd hopens (by decide)
    · exact absurd hopens (by decide)
    · exact absurd hopens (by decide)
  -- a semicolon opens nothing
  · rw [htoken] at hlexeme
    exact absurd hlexeme (by simp)

omit hplain in
/-- With a semicolon at the fork nothing is lost. -/
theorem not_lost (s : ParserState) : ¬ c.pairing.lost s :=
  fun h => h.1 htoken

/-- A statement, or what stands in its place, ends in front of the fork in both sources. -/
theorem recovering_fork (h : c.Together s t) : ∃ read s' t',
    recovering (statement depth) s = .ok read s' ∧ recovering (statement depth) t = .ok read t'
      ∧ c.Together s' t' := by
  have hclosed : ∀ s t, c.Together s t → ¬ s.Opens :=
    fun s t h => h.not_opens hplain htoken
  have hstatement := Pairing.pairs_statement c.lawful (.inr hclosed) depth
  have hends := ((Pairing.pairs_recovering c.lawful hstatement).eq_option s t (.inr h)).meets h
  obtain ⟨read, s', hs⟩ := NeverStops.recovering (statement depth) s
  rw [hs] at hends
  generalize ht : recovering (statement depth) t = r at hends
  cases hends with
  | ok heq hst =>
    obtain rfl := heq
    exact ⟨read, s', _, hs, rfl, hst⟩
  | lost hlost => exact absurd hlost (not_lost htoken _)

/-- After a turn of the list both parsers are still in front of the fork, or just behind it. -/
theorem statementTurn_fork (h : c.Together s t) : ∃ read s' t',
    statementTurn (statement depth) s = .ok (read, true) s'
      ∧ statementTurn (statement depth) t = .ok (read, true) t'
      ∧ (c.Together s' t' ∨ c.Parted s' t') := by
  obtain ⟨read, u, v, hs, ht, huv⟩ := recovering_fork hplain htoken depth h
  obtain ⟨us, hus, hleft, hright⟩ := huv.tokens
  cases us with
  | nil =>
    have hnextLeft : u.next? = some (.symbol .semicolon) := by
      rw [ParserState.next?, hleft, ← htoken]
      rfl
    have hnextRight : v.next? = some (.symbol .semicolon) := by
      rw [ParserState.next?, hright, ← htoken]
      rfl
    refine ⟨read, u.advance, v.advance, statementTurn_of_semicolon hs hnextLeft,
      statementTurn_of_semicolon ht hnextRight, .inr ⟨?_, ?_, huv.diagnostics⟩⟩
    · rw [ParserState.advance, hleft]
      rfl
    · rw [ParserState.advance, hright]
      rfl
  | cons x us =>
    -- the piece goes on behind what was read
    have hx := hplain x (hus.subset List.mem_cons_self)
    have hnextLeft : u.next? = some x.lexeme := by rw [ParserState.next?, hleft]; rfl
    have hnextRight : v.next? = some x.lexeme := by rw [ParserState.next?, hright]; rfl
    have hne {l : Lexeme} (hl : l.isPlain = false) : x.lexeme ≠ l := by
      rintro rfl
      rw [hl] at hx
      exact absurd hx (by decide)
    have hsemicolon : x.lexeme ≠ .symbol .semicolon := hne rfl
    have hend : x.lexeme ≠ .keyword .end_ := hne rfl
    have huntil : x.lexeme ≠ .keyword .until_ := hne rfl
    have hline : u.line = v.line := c.lawful.line huv
    have hfound : u.found = v.found := by
      rw [ParserState.found, ParserState.found, hnextLeft, hnextRight]
    have hskipped := (huv.report ⟨u.line, .expected (.symbol .semicolon) u.found⟩).skip.resolve_left
      (not_lost htoken _)
    have helse := (Pairing.pairs_acceptKeyword c.lawful .else_ _ _ (.inr hskipped)).meets hskipped
    obtain ⟨b, s', hs'⟩ := acceptKeyword_ok .else_
      (u.report ⟨u.line, .expected (.symbol .semicolon) u.found⟩).skipped
    obtain ⟨b', t', ht'⟩ := acceptKeyword_ok .else_
      (v.report ⟨u.line, .expected (.symbol .semicolon) u.found⟩).skipped
    rw [hs', ht'] at helse
    have hst : c.Together s' t' := by
      cases helse with
      | ok _ hst => exact hst
      | lost hlost => exact absurd hlost (not_lost htoken _)
    have ht'' : acceptKeyword .else_
        (v.report ⟨v.line, .expected (.symbol .semicolon) v.found⟩).skipped = .ok b' t' := by
      rw [← hline, ← hfound]
      exact ht'
    exact ⟨read, s', t', statementTurn_of_missing hs hnextLeft hsemicolon hend huntil hs',
      statementTurn_of_missing ht hnextRight hsemicolon hend huntil ht'', .inl hst⟩

omit hplain htoken in
theorem afterStatements_of_turn {read : Option Statement}
    (hturn : statementTurn (statement nestingLimit) s = .ok (read, true) t) :
    afterStatements s = afterStatements t :=
  endState_of_turn (onward_statement nestingLimit) hturn

/-- The statements of both bodies come to the fork, with the same reported, and go on behind it. -/
theorem afterStatements_fork (h : c.Together s t) : ∃ s' t',
    afterStatements s = afterStatements s' ∧ afterStatements t = afterStatements t'
      ∧ s'.scope = s.scope ∧ c.Parted s' t' := by
  -- on the number of tokens that are left
  induction hn : s.tokens.length using Nat.strong_induction_on generalizing s t with
  | _ n ih =>
    subst hn
    obtain ⟨read, u, v, hs, ht, huv⟩ := statementTurn_fork hplain htoken nestingLimit h
    have hscope : u.scope = s.scope := by
      have hturn := derives_statementTurn (derives_statement s.scope nestingLimit) s rfl
      rw [hs] at hturn
      exact hturn.1.1
    rw [afterStatements_of_turn hs, afterStatements_of_turn ht]
    rcases huv with huv | huv
    · obtain ⟨r, u', hu', hless⟩ := getsOn_statementTurn (onward_statement nestingLimit) s
      rw [hs] at hu'
      obtain ⟨rfl, rfl⟩ := EStateM.Result.ok.inj hu'
      obtain ⟨s', t', hleft, hright, hsame, hparted⟩ := ih _ (hless rfl) huv rfl
      exact ⟨s', t', hleft, hright, hsame.trans hscope, hparted⟩
    · exact ⟨u, v, rfl, rfl, hscope, huv⟩

end Pieces

end Fork

/-! ## Bodies -/

/-- The end of a program. -/
def endTokens (e d : Nat) : List Token :=
  [.word .end_ e, .mark .dot d]

/-- A program: a heading and declarations, and a body with a semicolon behind each of its
pieces. -/
def programOf (front : List Token) (b : Nat) (pieces : List Piece) (e d : Nat) : List Token :=
  front ++ Token.word .begin_ b :: (pieces.flatMap Piece.text ++ endTokens e d)

section Bodies

variable {b e d : Nat}

/-- There is none in all pieces together either. -/
theorem illegalTokens_pieces (pieces : List Piece) :
    illegalTokens (pieces.flatMap Piece.text ++ endTokens e d) = [] := by
  induction pieces with
  | nil => rfl
  | cons A As ih => rw [List.flatMap_cons, List.append_assoc, illegalTokens_append, ih,
      A.illegalTokens_text, List.append_nil]

theorem programEnd_apply {s : ParserState} (h : s.tokens = endTokens e d) :
    programEnd s = .ok () { s with tokens := [] } := by
  obtain ⟨tokens⟩ := s
  obtain rfl : tokens = _ := h
  rfl

/-- Where a list ends in front of the end of the program, the body reports what the list does. -/
theorem reported_of_list {source : TokenStream} {ts : List Token}
    (hbegin : (afterDeclarations source).tokens = Token.word .begin_ b :: ts)
    (hend : (afterStatements (afterDeclarations source).advance).tokens = endTokens e d) :
    reported (parseProgram source)
      = (afterStatements (afterDeclarations source).advance).diagnostics := by
  obtain ⟨ss, u, hlist⟩ :=
    neverStops_statementList (onward_statement nestingLimit) (afterDeclarations source).advance
  rw [afterStatements, hlist] at hend ⊢
  have hnext : (afterDeclarations source).next? = some (.keyword .begin_) := by
    rw [ParserState.next?, hbegin]
    rfl
  have hexpect : expectKeyword .begin_ (afterDeclarations source)
      = .ok () (afterDeclarations source).advance := by
    unfold expectKeyword
    have haccept := acceptKeyword_apply .begin_ (afterDeclarations source)
    rw [if_pos hnext] at haccept
    exact bind_of_ok haccept
  have hbody : body (afterDeclarations source) = .ok ss { u with tokens := [] } := by
    unfold body
    rw [bind_of_ok hexpect, bind_of_ok hlist]
    exact bind_of_ok (programEnd_apply hend)
  rw [reported_parseProgram, afterBody, orElseReport, hbody]
  rfl

/-- A list of pieces comes to the end of the program, and reports of each piece in turn what is
reported of it when it stands alone. -/
theorem statementList_pieces {pieces : List Piece} {s : ParserState} (alone : Piece → ParserState)
    (hs : s.tokens = pieces.flatMap Piece.text ++ endTokens e d)
    (htokens : ∀ A ∈ pieces, (alone A).tokens = A.text ++ endTokens e d)
    (hdiagnostics : ∀ A ∈ pieces, (alone A).diagnostics = [])
    (hdeclarations : ∀ A ∈ pieces, (alone A).declarations = s.declarations)
    (hconstants : ∀ A ∈ pieces, (alone A).constants = s.constants) :
    (afterStatements s).tokens = endTokens e d
      ∧ (afterStatements s).diagnostics
        = s.diagnostics ++ pieces.flatMap fun A => (afterStatements (alone A)).diagnostics := by
  induction pieces generalizing s with
  | nil =>
    have hend : s.next? = some (.keyword .end_) := by
      rw [ParserState.next?, hs]
      rfl
    rw [afterStatements_of_end hend, List.flatMap_nil, List.append_nil]
    exact ⟨hs, rfl⟩
  | cons A As ih =>
    -- behind the first piece, the other pieces on one side and nothing on the other
    let c : Fork := ⟨A.tokens, Token.mark .semicolon A.line,
      As.flatMap Piece.text ++ endTokens e d, endTokens e d,
      s.diagnostics, []⟩
    have hA := List.mem_cons_self (a := A) (l := As)
    have hstart : c.Together s (alone A) := by
      refine ⟨⟨A.tokens, List.suffix_rfl, ?_, ?_⟩, ⟨[], ?_, ?_⟩, ?_, ?_⟩
      · rw [hs]
        simp [Piece.text, c]
      · rw [htokens A hA]
        simp [Piece.text, c]
      · exact (List.append_nil _).symm
      · exact hdiagnostics A hA
      · exact (hdeclarations A hA).symm
      · exact (hconstants A hA).symm
    obtain ⟨s', t', hleft, hright, hscope, hparted⟩ :=
      c.afterStatements_fork A.plain rfl hstart
    obtain ⟨ds, hds, hds'⟩ := hparted.diagnostics
    -- behind its piece the lone list is at its end
    have hend : t'.next? = some (.keyword .end_) := by
      rw [ParserState.next?, hparted.right]
      rfl
    have hlone : (afterStatements (alone A)).diagnostics = ds := by
      rw [hright, afterStatements_of_end hend]
      exact hds'
    have hsame : s'.declarations = s.declarations := congrArg Scope.declarations hscope
    have hsame' : s'.constants = s.constants := congrArg Scope.constants hscope
    obtain ⟨htokens', hdiagnostics'⟩ := ih hparted.left
      (fun B hB => htokens B (List.mem_cons_of_mem A hB))
      (fun B hB => hdiagnostics B (List.mem_cons_of_mem A hB))
      (fun B hB => (hdeclarations B (List.mem_cons_of_mem A hB)).trans hsame.symm)
      (fun B hB => (hconstants B (List.mem_cons_of_mem A hB)).trans hsame'.symm)
    rw [hleft, List.flatMap_cons, hlone, ← List.append_assoc]
    refine ⟨htokens', ?_⟩
    rw [hdiagnostics', hds]

/-- **Errors are isolated.** Behind declarations in which nothing is wrong, what is reported of a
body is what is reported of its pieces when each stands alone, in order. -/
theorem reported_pieces {front : List Token} (hfront : IsFront front b) (pieces : List Piece)
    (n m : Nat) :
    reported (parseProgram ⟨programOf front b pieces e d, n⟩)
      = pieces.flatMap fun A => reported (parseProgram ⟨programOf front b [A] e d, m⟩) := by
  have hat (As : List Piece) (k : Nat) := afterDeclarations_fork (n := k) hfront
    (illegalTokens_pieces (e := e) (d := d) As)
  -- the states behind the `begin`, of the whole body and of the pieces alone
  let start (As : List Piece) (k : Nat) := (afterDeclarations ⟨programOf front b As e d, k⟩).advance
  have htokens (As : List Piece) (k : Nat) :
      (start As k).tokens = As.flatMap Piece.text ++ endTokens e d :=
    congrArg List.tail (hat As k).1
  have hlone (A : Piece) :
      (start [A] m).tokens = A.text ++ endTokens e d := by
    rw [htokens, List.flatMap_singleton]
  have hlist (As : List Piece) (k : Nat) := statementList_pieces (s := start As k)
    (fun A => start [A] m) (htokens As k) (fun A _ => hlone A)
    (fun A _ => (hat [A] m).2.1)
    (fun A _ => (hat [A] m).2.2.1.trans (hat As k).2.2.1.symm)
    (fun A _ => (hat [A] m).2.2.2.trans (hat As k).2.2.2.symm)
  have hreported (As : List Piece) (k : Nat) :
      reported (parseProgram ⟨programOf front b As e d, k⟩)
        = (afterStatements (start As k)).diagnostics :=
    reported_of_list (hat As k).1 (hlist As k).1
  calc reported (parseProgram ⟨programOf front b pieces e d, n⟩)
      = (afterStatements (start pieces n)).diagnostics :=
        hreported pieces n
    _ = (start pieces n).diagnostics ++ pieces.flatMap fun A =>
          (afterStatements (start [A] m)).diagnostics :=
        (hlist pieces n).2
    _ = pieces.flatMap fun A => reported (parseProgram ⟨programOf front b [A] e d, m⟩) := by
        have hclean : (start pieces n).diagnostics = [] := (hat pieces n).2.1
        rw [hclean, List.nil_append]
        exact congrArg (List.flatMap · pieces) (funext fun A => (hreported [A] m).symm)

end Bodies

/-- `program demo; var x: integer;` on the first line. -/
def demoFront : List Token :=
  [.word .program 1, .name "demo" 1, .mark .semicolon 1, .word .var_ 1, .name "x" 1, .mark .colon 1,
    .word .integer 1, .mark .semicolon 1]

/-- `x := 1`, `y := x +` and `if x else then x`, each on a line of its own. -/
def demoPieces : List Piece :=
  [⟨[.name "x" 3, .mark .assign 3, ⟨.integer "1", 3⟩], 3, by decide⟩,
    ⟨[.name "y" 4, .mark .assign 4, .name "x" 4, .mark .plus 4], 4, by decide⟩,
    ⟨[.word .if_ 5, .name "x" 5, .word .else_ 5, .word .then_ 5, .name "x" 5], 5, by decide⟩]

theorem isFront_demoFront : IsFront demoFront 2 where
  tokens := by cbv
  diagnostics := by cbv

theorem reported_pieces_demo : IsFront demoFront 2
    ∧ reported (parseProgram ⟨programOf demoFront 2 demoPieces 6 6, 6⟩)
      = demoPieces.flatMap fun A => reported (parseProgram ⟨programOf demoFront 2 [A] 6 6, 6⟩) :=
  ⟨isFront_demoFront, reported_pieces isFront_demoFront demoPieces 6 6⟩

/-- Two mistakes in the second piece, three in the third. -/
example : reported (parseProgram ⟨programOf demoFront 2 demoPieces 6 6, 6⟩)
    = [⟨4, .unknownIdentifier "y"⟩, ⟨4, .expected .expression (.text ";")⟩,
      ⟨5, .expected (.keyword .then_) (.text "else")⟩,
      ⟨5, .expected (.symbol .semicolon) (.text "else")⟩,
      ⟨5, .unknownStatement (.text "then")⟩] := by
  cbv

end TurboBench.Pascal
