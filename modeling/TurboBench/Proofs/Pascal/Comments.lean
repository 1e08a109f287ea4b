import Mathlib
import TurboBench.Proofs.Pascal.Segmentation

/-!
# Comments and blanks

A comment that begins where a segment ends can be replaced by a blank and the newlines that it
holds. The segments in front of it are read in front of another rest then, and that they are the
same is the point: no word, numeral or symbol goes on with a blank, and no string does
(`row_blank`). Behind the comment the source is the same, and so is the count of its lines.

The comments are those that the lexer takes for one. A text between `(*` and `*)` is one of them
unless it begins with a closing parenthesis: there the comment is `(*)`, and what was to be its text
is read as source.
-/

set_option autoImplicit false

namespace TurboBench.Pascal

/-! ## Comments as they are written -/

/-- A text from one delimiter of a comment to the other, in front of `rest`. -/
inductive IsWrittenComment (rest : List Char) : List Char → Prop
  | braces {body : List Char} (h : '}' ∉ body) : IsWrittenComment rest ('{' :: (body ++ ['}']))
  | stars {body : List Char} (h : ¬ ['*', ')'] <:+: body) :
      IsWrittenComment rest ('(' :: '*' :: (body ++ ['*', ')']))
  | line {body : List Char} (h : '\n' ∉ body) (hrest : ∀ c ∈ rest.head?, c = '\n') :
      IsWrittenComment rest ('/' :: '/' :: body)

/-- A blank in the place of a comment, and the newlines of the comment. -/
def blankOut (text : List Char) : List Char :=
  ' ' :: text.filter (· == '\n')

/-- The lexer stands between two segments when it has read `front` of the source. -/
def StandsBehind (front rest : List Char) : Prop :=
  ∃ ss ts, segments (front ++ rest) = ss ++ ts ∧ rowText ss = front

/-- What has been read is a row of segments in front of the rest. -/
theorem StandsBehind.exists_row {front rest : List Char} (h : StandsBehind front rest) :
    ∃ ss, rowText ss = front ∧ Row ss rest := by
  obtain ⟨ss, ts, hsegments, rfl⟩ := h
  have hts : rowText ss ++ rest = rowText ss ++ rowText ts := by
    rw [← rowText_append, ← hsegments, rowText_segments]
  have hrow := row_segments (rowText ss ++ rest)
  rw [hsegments, row_append, List.append_nil, ← List.append_cancel_left hts] at hrow
  exact ⟨ss, rfl, hrow.1⟩

/-! ## A blank in the place of another character -/

section Frame

variable {P : List Char → Prop} {Q : Char → Prop} {text other r x y : List Char} {d : Char}

/-- What holds no blank ends before one. -/
theorem prefix_of_not_mem_blank (h : other <+: text ++ ' ' :: y) (hblank : ' ' ∉ other) :
    other <+: text := by
  rcases List.prefix_or_prefix_of_prefix h (List.prefix_append text (' ' :: y)) with hle | hle
  · exact hle
  · obtain ⟨tail, rfl⟩ := hle
    cases tail with
    | nil => simp
    | cons c tail =>
      have htail : c :: tail <+: ' ' :: y := (List.prefix_append_right_inj text).1 h
      obtain ⟨rfl, -⟩ := List.cons_prefix_cons.1 htail
      simp at hblank

/-- What is asked of the next character is asked of the same one, unless that is the blank. -/
theorem head_blank (hQ : Q d → Q ' ') (h : ∀ c ∈ (r ++ d :: x).head?, Q c) :
    ∀ c ∈ (r ++ ' ' :: y).head?, Q c := by
  cases r with
  | nil =>
    intro c hc
    obtain rfl := Option.some.inj hc
    exact hQ (h d rfl)
  | cons e r => exact h

theorem IsLongest.blank (hP : ∀ other, P other → ' ' ∉ other)
    (h : IsLongest P (r ++ d :: x) text) : IsLongest P (r ++ ' ' :: y) text := by
  refine ⟨h.kind, fun other hother hkind => h.longest other ?_ hkind⟩
  rw [← List.append_assoc] at hother ⊢
  exact (prefix_of_not_mem_blank hother (hP other hkind)).trans (List.prefix_append _ _)

/-- A blank in place of a comment opens none. -/
theorem opensComment_blank (hne : text ≠ []) (h : OpensComment (text ++ ' ' :: y)) :
    OpensComment (text ++ d :: x) := by
  obtain ⟨c, cs, rfl⟩ := List.exists_cons_of_ne_nil hne
  obtain ⟨tail, h⟩ := h
  cases cs with
  | nil =>
    obtain ⟨rfl, -⟩ : c = '{' ∧ ' ' :: y = tail := by simpa using h
    exact ⟨d :: x, .inl rfl⟩
  | cons e cs =>
    simp only [List.cons_append, List.cons.injEq] at h
    simp only [OpensComment, List.cons_append, List.cons.injEq]
    rcases h with ⟨rfl, -⟩ | ⟨rfl, rfl, -⟩ | ⟨rfl, rfl, -⟩
    · exact ⟨_, .inl ⟨rfl, rfl⟩⟩
    · exact ⟨_, .inr (.inl ⟨rfl, rfl, rfl⟩)⟩
    · exact ⟨_, .inr (.inr ⟨rfl, rfl, rfl⟩)⟩

theorem not_blank_of_isWord (h : IsWord text) : ' ' ∉ text := by
  intro hmem
  exact absurd (isWordPart_of_isWord h ' ' hmem) (by decide)

theorem not_blank_of_isDigits (h : IsDigits text) : ' ' ∉ text := by
  intro hmem
  exact absurd (h.2 ' ' hmem) (by decide)

/-- No numeral holds a blank. -/
theorem not_blank_of_isNumeral (h : IsNumeral text) : ' ' ∉ text := by
  obtain ⟨whole, places, scale, rfl, hwhole, hplaces, hscale⟩ := h
  have hplaces : ' ' ∉ places := by
    obtain rfl | ⟨ds, rfl, hds⟩ := hplaces
    · simp
    · simpa using not_blank_of_isDigits hds
  have hscale : ' ' ∉ scale := by
    obtain rfl | ⟨mark, sign, ds, rfl, hmark, hsign, hds⟩ := hscale
    · simp
    · have hmark : ' ' ≠ mark := by
        rcases hmark with rfl | rfl <;> decide
      have hsign : ' ' ∉ sign := by
        rcases hsign with rfl | rfl | rfl <;> decide
      simpa [hmark, hsign] using not_blank_of_isDigits hds
  simpa [hplaces, hscale] using not_blank_of_isDigits hwhole

theorem not_blank_of_isSymbol (h : IsSymbol text) : ' ' ∉ text := by
  obtain ⟨m, rfl⟩ := h
  cases m <;> decide

/-- The pieces of a string are the same with a blank behind them. -/
theorem PiecesAs.blank {value : List Char} (h : PiecesAs (r ++ d :: x) text value) :
    PiecesAs (r ++ ' ' :: y) text value := by
  induction h with
  | nil => exact .nil
  | quoted hinside hnext _ ih =>
    rw [← List.append_assoc] at hnext
    refine .quoted hinside ?_ ih
    rw [← List.append_assoc]
    exact head_blank (fun _ => by decide) hnext
  | code hdigits hcode hnext _ ih =>
    rw [← List.append_assoc] at hnext
    refine .code hdigits hcode ?_ ih
    rw [← List.append_assoc]
    exact head_blank (fun _ => by decide) hnext

/-- A lexeme in front of a comment is one in front of a blank. -/
theorem IsLexeme.blank {l : Lexeme} (hd : d ≠ '\n') (h : IsLexeme (r ++ d :: x) text l) :
    IsLexeme (r ++ ' ' :: y) text l := by
  -- What follows a lexeme matters only by its first characters, and there a blank stops whatever
  -- `d` stopped.
  cases h with
  | keyword h hk => exact .keyword (h.blank fun _ => not_blank_of_isWord) hk
  | identifier h hk => exact .identifier (h.blank fun _ => not_blank_of_isWord) hk
  | integer h hdigits => exact .integer (h.blank fun _ => not_blank_of_isNumeral) hdigits
  | real h hdigits => exact .real (h.blank fun _ => not_blank_of_isNumeral) hdigits
  | @symbol m h hopen =>
    refine .symbol (h.blank fun _ => not_blank_of_isSymbol) fun hblank => hopen ?_
    obtain ⟨c, cs, htext, -⟩ := symbol_head m
    rw [← List.append_assoc] at hblank ⊢
    exact opensComment_blank (by simp [htext]) hblank
  | string h hne hstop => exact .string h.blank hne (head_blank (fun _ => by decide) hstop)
  | openComment _ hrest => simp at hrest
  | @openString before inside value _ hbefore hinside hrest =>
    have hbefore : PiecesAs ('\'' :: (inside ++ r) ++ d :: x) before value := by
      simpa using hbefore
    have hblank := hbefore.blank (y := y)
    exact .openString (by simpa using hblank) hinside (head_blank (fun h => absurd h hd) hrest)
  | @characterCode before digits value hbefore hdigits hcode hrest =>
    have hbefore : PiecesAs ('#' :: (digits ++ r) ++ d :: x) before value := by
      simpa using hbefore
    have hblank := hbefore.blank (y := y)
    refine .characterCode (by simpa using hblank) hdigits hcode ?_
    exact head_blank (fun _ => by decide) hrest
  | character hblank hletter hdigit hmark hsymbol =>
    exact .character hblank hletter hdigit hmark hsymbol

/-- So a segment in front of a comment stands in front of a blank. -/
theorem stands_blank {s : Segment} (hd : d ≠ '\n') (h : s.Stands (r ++ d :: x)) :
    s.Stands (r ++ ' ' :: y) := by
  cases h with
  | blank h => exact .blank h
  | lexeme h => exact .lexeme (h.blank hd)
  | comment h =>
    refine .comment ?_
    cases h with
    | braces h => exact .braces h
    | stars h => exact .stars h
    | oneStar => exact .oneStar
    | line h hrest => exact .line h (head_blank (fun h => absurd h hd) hrest)

/-- A row of segments may stand in front of a blank. -/
theorem row_blank {ss : List Segment} (hd : d ≠ '\n') (h : Row ss (d :: x)) :
    Row ss (' ' :: y) := by
  induction ss with
  | nil => trivial
  | cons s ss ih => exact ⟨stands_blank hd h.1, ih h.2⟩

end Frame

/-! ## Tokens behind a row -/

/-- Tokens of segments in a row are those of the first and those of the others, on their lines. -/
theorem tokensFrom_append (line : Nat) (ss ts : List Segment) :
    tokensFrom line (ss ++ ts)
      = tokensFrom line ss ++ tokensFrom (line + newlines (rowText ss)) ts := by
  induction ss generalizing line with
  | nil => rfl
  | cons s ss ih =>
    rw [List.cons_append, tokensFrom, tokensFrom, ih, rowText_cons, newlines_append, Nat.add_assoc]
    cases s.lexeme <;> rfl

/-- Segments without a lexeme make no tokens. -/
theorem tokensFrom_of_no_lexeme {bs : List Segment} (h : ∀ s ∈ bs, s.lexeme = none) (line : Nat) :
    tokensFrom line bs = [] := by
  induction bs generalizing line with
  | nil => rfl
  | cons s bs ih =>
    obtain ⟨hs, hbs⟩ := List.forall_mem_cons.1 h
    rw [tokensFrom, hs, ih hbs]

/-- Behind one row of segments, two rows without lexemes and with equally many newlines are the
same to the tokens. -/
theorem tokenize_of_rows {ss bs bs' : List Segment} {post : List Char}
    (hss : Row ss (rowText bs ++ post)) (hss' : Row ss (rowText bs' ++ post))
    (hbs : Row bs post) (hbs' : Row bs' post)
    (hnone : ∀ s ∈ bs, s.lexeme = none) (hnone' : ∀ s ∈ bs', s.lexeme = none)
    (hlines : newlines (rowText bs) = newlines (rowText bs')) :
    tokenize (rowText ss ++ (rowText bs ++ post))
      = tokenize (rowText ss ++ (rowText bs' ++ post)) := by
  have hread {cs : List Segment} (hcs : Row ss (rowText cs ++ post)) (hrow : Row cs post) :
      segments (rowText ss ++ (rowText cs ++ post)) = ss ++ (cs ++ segments post) := by
    rw [segments_of_row hcs, segments_of_row hrow]
  rw [tokenize, tokenize, hread hss hbs, hread hss' hbs']
  simp only [tokensFrom_append, tokensFrom_of_no_lexeme hnone, tokensFrom_of_no_lexeme hnone',
    newlines_append, hlines]

/-! ## A comment is a blank -/

theorem newlines_blankOut (text : List Char) : newlines (blankOut text) = newlines text := by
  have hblank : ' ' ≠ '\n' := by decide
  rw [newlines, newlines, blankOut, List.count_cons_of_ne hblank]
  exact List.count_filter (by decide)

/-- Blanks are segments of their own. -/
theorem row_blanks {bs : List Char} (h : ∀ c ∈ bs, Text.isBlank c = true) (rest : List Char) :
    Row (bs.map fun c => ⟨[c], none⟩) rest := by
  induction bs with
  | nil => trivial
  | cons c bs ih =>
    obtain ⟨hc, hbs⟩ := List.forall_mem_cons.1 h
    exact ⟨.blank hc, ih hbs⟩

theorem rowText_blanks (bs : List Char) :
    rowText (bs.map fun c => ⟨[c], none⟩) = bs := by
  induction bs with
  | nil => rfl
  | cons c bs ih => rw [List.map_cons, rowText_cons, ih, List.singleton_append]

theorem isBlank_of_mem_blankOut {text : List Char} :
    ∀ c ∈ blankOut text, Text.isBlank c = true := by
  refine List.forall_mem_cons.2 ⟨by decide, fun c hc => ?_⟩
  obtain rfl : c = '\n' := by simpa using (List.mem_filter.1 hc).2
  decide

theorem isComment_head {rest text : List Char} (h : IsComment rest text) :
    ∃ c cs, text = c :: cs ∧ c ≠ '\n' := by
  cases h with
  | braces | stars | oneStar | line => exact ⟨_, _, rfl, by decide⟩

/-- A comment that the lexer takes for one can be replaced by a blank and its newlines. -/
theorem tokenize_of_isComment {front text rest : List Char}
    (hplace : StandsBehind front (text ++ rest)) (h : IsComment rest text) :
    tokenize (front ++ (text ++ rest)) = tokenize (front ++ (blankOut text ++ rest)) := by
  obtain ⟨ss, rfl, hss⟩ := hplace.exists_row
  obtain ⟨d, x, hd, hne⟩ := isComment_head h
  -- The segments in front of the comment are those in front of a blank.
  have hss' : Row ss (blankOut text ++ rest) := by
    rw [hd, List.cons_append] at hss
    exact row_blank hne hss
  have htext : rowText [⟨text, none⟩] = text := List.append_nil text
  have hblanks := rowText_blanks (blankOut text)
  rw [← htext] at hss ⊢
  rw [← hblanks] at hss'
  have hlines : newlines (rowText [⟨text, none⟩])
      = newlines (rowText ((blankOut text).map fun c => ⟨[c], none⟩)) := by
    rw [htext, hblanks, newlines_blankOut]
  have hrows := tokenize_of_rows hss hss' ⟨.comment h, trivial⟩
    (row_blanks isBlank_of_mem_blankOut rest) (by simp) (by simp) hlines
  rw [hrows, hblanks, htext]

/-- What is written as a comment is one to the lexer, unless its text begins with the parenthesis
that ends it. -/
theorem isComment_of_isWrittenComment {rest text : List Char} (h : IsWrittenComment rest text)
    (hstar : ¬ ['(', '*', ')'] <+: text) : IsComment rest text := by
  cases h with
  | braces h => exact .braces h
  | line h hrest => exact .line h hrest
  | @stars body h =>
    refine .stars fun hin => ?_
    rcases List.infix_cons_iff.1 hin with hfirst | hlater
    · obtain ⟨tail, htail⟩ := hfirst
      obtain ⟨-, rfl⟩ := List.cons.inj htail
      exact hstar ⟨tail ++ ['*', ')'], rfl⟩
    · exact h hlater

/-- **Comments are blanks.** A comment between two segments can be replaced by a blank and the
newlines that it holds, if it does not begin with `(*)`. If it does, then these three characters
are what can be replaced. -/
theorem tokenize_comment {front text rest : List Char}
    (hplace : StandsBehind front (text ++ rest)) (h : IsWrittenComment rest text) :
    (¬ ['(', '*', ')'] <+: text →
        tokenize (front ++ (text ++ rest)) = tokenize (front ++ (blankOut text ++ rest)))
      ∧ ∀ tail, text = ['(', '*', ')'] ++ tail →
        tokenize (front ++ (text ++ rest)) = tokenize (front ++ ([' '] ++ (tail ++ rest))) := by
  refine ⟨fun hstar => tokenize_of_isComment hplace (isComment_of_isWrittenComment h hstar), ?_⟩
  rintro tail rfl
  rw [List.append_assoc] at hplace ⊢
  exact tokenize_of_isComment hplace .oneStar

/-- A comment right behind a word, with a newline in it. -/
theorem tokenize_comment_behindWord :
    StandsBehind ['x'] (['{', '\n', '}'] ++ ['y'])
      ∧ IsWrittenComment ['y'] ['{', '\n', '}']
      ∧ tokenize (['x'] ++ (['{', '\n', '}'] ++ ['y']))
        = tokenize (['x'] ++ ([' ', '\n'] ++ ['y'])) := by
  have hplace : StandsBehind ['x'] (['{', '\n', '}'] ++ ['y']) :=
    ⟨[⟨['x'], some (.identifier "x")⟩], segments ['{', '\n', '}', 'y'], by cbv, rfl⟩
  have hcomment : IsWrittenComment ['y'] ['{', '\n', '}'] :=
    IsWrittenComment.braces (show '}' ∉ ['\n'] by decide)
  exact ⟨hplace, hcomment, (tokenize_comment hplace hcomment).1 (by decide)⟩

/-- Not every written comment is a blank: behind `(*)`, what was meant as text is read. -/
theorem not_blank_commentWithParenthesis :
    ¬ ∀ front text rest, StandsBehind front (text ++ rest) → IsWrittenComment rest text →
      tokenize (front ++ (text ++ rest)) = tokenize (front ++ (blankOut text ++ rest)) := by
  intro h
  have hcomment : IsWrittenComment [] ['(', '*', ')', ' ', 'x', ' ', '*', ')'] :=
    IsWrittenComment.stars (show ¬ ['*', ')'] <:+: [')', ' ', 'x', ' '] by decide)
  have hsame := congrArg TokenStream.tokens (h [] _ [] ⟨[], _, rfl, rfl⟩ hcomment)
  have hread : (tokenize ['(', '*', ')', ' ', 'x', ' ', '*', ')']).tokens
      = [⟨.identifier "x", 1⟩, ⟨.symbol .star, 1⟩, ⟨.symbol .closeParen, 1⟩] := by cbv
  have hblank : (tokenize [' ']).tokens = [] := by cbv
  have hnone : (tokenize ['(', '*', ')', ' ', 'x', ' ', '*', ')']).tokens = [] := hsame.trans hblank
  rw [hread] at hnone
  exact absurd hnone (by simp)

end TurboBench.Pascal
