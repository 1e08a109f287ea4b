import TurboBench.Proofs.Pascal.LongestLexemes

/-!
# Comments and strings

The texts that go up to a delimiter. Each judgment of the lexical grammar determines what its reader
does, by induction on the text between the delimiters; and every text that opens a comment or a
string is one of the texts that the grammar describes, closed or not.

The end of a string is looked for behind all of its pieces. `exists_pieces` cuts a text behind a row
of pieces that cannot be continued, and the three ways of not being continued (`EndsPieces`) are
the three ways in which the reader stops.
-/

set_option autoImplicit false

namespace TurboBench.Pascal

open TurboBench.Text (takeWhile_append_of_head dropWhile_append_of_head head_dropWhile)

/-! ## Comments -/

section Comments

variable {body : List Char}

/-- A comment in braces ends at the first closing one. -/
theorem throughBrace_closed (h : '}' ∉ body) (rest : List Char) :
    throughBrace (body ++ '}' :: rest) = some (body ++ ['}'], rest) := by
  induction body with
  | nil => rfl
  | cons c body ih =>
    rw [List.mem_cons, not_or] at h
    obtain ⟨hc, hbody⟩ := h
    rw [List.cons_append, throughBrace, ih hbody]
    · rfl
    · exact fun hbrace => hc hbrace.symm

/-- Without a closing brace it does not end. -/
theorem throughBrace_open (h : '}' ∉ body) : throughBrace body = none := by
  induction body with
  | nil => rfl
  | cons c body ih =>
    rw [List.mem_cons, not_or] at h
    obtain ⟨hc, hbody⟩ := h
    rw [throughBrace, ih hbody]
    · rfl
    · exact fun hbrace => hc hbrace.symm

/-- A comment in parentheses ends at the first star with a closing parenthesis behind it. -/
theorem throughStar_closed (h : ¬ ['*', ')'] <:+: body) (rest : List Char) :
    throughStar (body ++ '*' :: ')' :: rest) = some (body ++ ['*', ')'], rest) := by
  induction body with
  | nil => rfl
  | cons c body ih =>
    have hbody : ¬ ['*', ')'] <:+: body := fun hin => h (List.infix_cons_iff.2 (.inr hin))
    rw [List.cons_append, throughStar, ih hbody]
    · rfl
    · -- The star of the terminator does not close a comment with the text in front of it.
      rintro cs rfl hclose
      cases body with
      | nil => simp at hclose
      | cons d body =>
        rw [List.cons_append, List.cons.injEq] at hclose
        rw [hclose.1] at h
        exact h ⟨[], body, rfl⟩

/-- Without these two characters it does not end. -/
theorem throughStar_open (h : ¬ ['*', ')'] <:+: body) : throughStar body = none := by
  induction body with
  | nil => rfl
  | cons c body ih =>
    have hbody : ¬ ['*', ')'] <:+: body := fun hin => h (List.infix_cons_iff.2 (.inr hin))
    rw [throughStar, ih hbody]
    · rfl
    · rintro cs rfl hclose
      exact h ⟨[], cs, by rw [hclose]; rfl⟩

/-- A text that holds the terminator holds it a first time. -/
theorem exists_first_star {cs : List Char} (h : ['*', ')'] <:+: cs) :
    ∃ body rest, cs = body ++ '*' :: ')' :: rest ∧ ¬ ['*', ')'] <:+: body := by
  induction cs with
  | nil => simp at h
  | cons c cs ih =>
    by_cases hfirst : ['*', ')'] <+: c :: cs
    · obtain ⟨rest, hrest⟩ := hfirst
      exact ⟨[], rest, hrest.symm, by simp⟩
    · have hlater : ['*', ')'] <:+: cs := (List.infix_cons_iff.1 h).resolve_left hfirst
      obtain ⟨body, rest, rfl, hbody⟩ := ih hlater
      refine ⟨c :: body, rest, rfl, fun hin => ?_⟩
      rcases List.infix_cons_iff.1 hin with hstart | hin
      · exact hfirst (hstart.trans (List.prefix_append (c :: body) _))
      · exact hbody hin

end Comments

theorem stands_line (cs : List Char) :
    Segment.Stands (cs.dropWhile (· != '\n')) ⟨'/' :: '/' :: cs.takeWhile (· != '\n'), none⟩ := by
  refine .comment (.line (fun hmem => ?_) fun c hc => ?_)
  · simpa using List.mem_takeWhile_imp hmem
  · simpa using head_dropWhile (· != '\n') cs c hc

/-- A comment in braces, closed or not, stands as the grammar has it. -/
theorem stands_braces (cs : List Char) :
    (comment ['{'] cs (throughBrace cs)).1.Stands (comment ['{'] cs (throughBrace cs)).2 := by
  by_cases h : '}' ∈ cs
  · obtain ⟨body, rest, rfl, hbody⟩ := List.eq_append_cons_of_mem h
    rw [throughBrace_closed hbody]
    exact .comment (.braces hbody)
  · rw [throughBrace_open h]
    exact .lexeme (.openComment (.braces h) rfl)

/-- A comment in parentheses, closed or not, stands as the grammar has it. -/
theorem stands_stars (cs : List Char) :
    (comment ['('] ('*' :: cs) (throughStar ('*' :: cs))).1.Stands
      (comment ['('] ('*' :: cs) (throughStar ('*' :: cs))).2 := by
  by_cases h : ['*', ')'] <:+: '*' :: cs
  · obtain ⟨body, rest, hcs, hbody⟩ := exists_first_star h
    rw [hcs, throughStar_closed hbody]
    cases body with
    | nil => exact .comment .oneStar
    | cons c body =>
      obtain ⟨rfl, -⟩ := List.cons.inj hcs
      exact .comment (.stars hbody)
  · rw [throughStar_open h]
    exact .lexeme (.openComment (.stars h) rfl)

/-- A comment of the grammar is the first segment that is cut off. -/
theorem firstSegment_of_isComment {rest text : List Char} (h : IsComment rest text) :
    ∃ c cs, text = c :: cs ∧ firstSegment c (cs ++ rest) = (⟨text, none⟩, rest) := by
  -- The opening characters lead to the right search, and each search stops at the first end.
  cases h with
  | @braces body h =>
    refine ⟨'{', body ++ ['}'], rfl, ?_⟩
    rw [List.append_assoc]
    show comment ['{'] (body ++ '}' :: rest) (throughBrace (body ++ '}' :: rest)) = _
    rw [throughBrace_closed h]
    rfl
  | @stars body h =>
    refine ⟨'(', '*' :: (body ++ ['*', ')']), rfl, ?_⟩
    have hread := throughStar_closed h rest
    rw [List.cons_append] at hread
    rw [List.cons_append, List.append_assoc]
    show comment ['('] ('*' :: (body ++ '*' :: ')' :: rest))
      (throughStar ('*' :: (body ++ '*' :: ')' :: rest))) = _
    rw [hread]
    rfl
  | oneStar => exact ⟨'(', ['*', ')'], rfl, rfl⟩
  | @line body h hrest =>
    refine ⟨'/', '/' :: body, rfl, ?_⟩
    have hbody : ∀ c ∈ '/' :: body, (c != '\n') = true := by
      intro c hc
      rw [bne_iff_ne]
      rintro rfl
      exact h ((List.mem_cons.1 hc).resolve_left (by decide))
    have hstop : ∀ c ∈ rest.head?, (c != '\n') = false := by
      simpa using hrest
    show (_, _) = _
    rw [takeWhile_append_of_head hbody hstop, dropWhile_append_of_head hbody hstop]

/-- So is a comment without an end. -/
theorem firstSegment_of_isOpenComment {text : List Char} (h : IsOpenComment text) :
    ∃ c cs, text = c :: cs
      ∧ firstSegment c cs = (⟨text, some (.flaw .openComment)⟩, []) := by
  cases h with
  | @braces body h =>
    refine ⟨'{', body, rfl, ?_⟩
    show comment ['{'] body (throughBrace body) = _
    rw [throughBrace_open h]
    rfl
  | @stars body h =>
    refine ⟨'(', '*' :: body, rfl, ?_⟩
    show comment ['('] ('*' :: body) (throughStar ('*' :: body)) = _
    rw [throughStar_open h]
    rfl

/-! ## Strings -/

/-- A quoted run of the grammar is read with its value. -/
theorem quotedRun_closed {inside value : List Char} (h : QuotedAs inside value) {rest : List Char}
    (hrest : ∀ c ∈ rest.head?, c ≠ '\'') :
    quotedRun (inside ++ '\'' :: rest) = ⟨value, inside ++ ['\''], rest, .closed⟩ := by
  induction h with
  | nil =>
    cases rest with
    | nil => rfl
    | cons c rest =>
      rw [List.nil_append, quotedRun]
      · rfl
      · intro cs htail
        rw [htail] at hrest
        exact hrest _ rfl rfl
  | doubled _ ih =>
    rw [List.cons_append, List.cons_append, quotedRun, ih]
    rfl
  | plain hquote hnewline _ ih =>
    rw [List.cons_append, quotedRun, ih]
    · rfl
    · exact hnewline
    · exact fun _ h => absurd h hquote
    · exact hquote

/-- A quoted run that does not end on its line is read up to the line end. -/
theorem quotedRun_open {inside value : List Char} (h : QuotedAs inside value) {rest : List Char}
    (hrest : ∀ c ∈ rest.head?, c = '\n') :
    quotedRun (inside ++ rest) = ⟨value, inside, rest, .flawed .openString⟩ := by
  induction h with
  | nil =>
    cases rest with
    | nil => rfl
    | cons c rest =>
      obtain rfl := hrest c rfl
      rfl
  | doubled _ ih =>
    rw [List.cons_append, List.cons_append, quotedRun, ih]
    rfl
  | plain hquote hnewline _ ih =>
    rw [List.cons_append, quotedRun, ih]
    · rfl
    · exact hnewline
    · exact fun _ h => absurd h hquote
    · exact hquote

/-- What stands behind an apostrophe is a run that is closed, or one that its line ends in. -/
theorem exists_run (cs : List Char) : ∃ inside value rest, QuotedAs inside value
    ∧ ((cs = inside ++ '\'' :: rest ∧ ∀ c ∈ rest.head?, c ≠ '\'')
      ∨ (cs = inside ++ rest ∧ ∀ c ∈ rest.head?, c = '\n')) := by
  fun_induction quotedRun cs with
  | case1 => exact ⟨[], [], [], .nil, .inr ⟨rfl, by simp⟩⟩
  | case2 cs => exact ⟨[], [], '\n' :: cs, .nil, .inr ⟨rfl, by simp⟩⟩
  | case3 cs ih =>
    obtain ⟨inside, value, rest, hinside, hcs⟩ := ih
    refine ⟨_, _, rest, .doubled hinside, hcs.imp (And.imp_left ?_) (And.imp_left ?_)⟩ <;>
      exact fun h => by rw [h]; rfl
  | case4 cs hcs =>
    refine ⟨[], [], cs, .nil, .inl ⟨rfl, ?_⟩⟩
    rintro c hc rfl
    obtain ⟨tail, rfl⟩ := List.head?_eq_some_iff.1 hc
    exact hcs tail rfl
  | case5 c cs hnewline _ hquote ih =>
    obtain ⟨inside, value, rest, hinside, hcs⟩ := ih
    refine ⟨_, _, rest, .plain hquote hnewline hinside,
      hcs.imp (And.imp_left ?_) (And.imp_left ?_)⟩ <;>
      exact fun h => by rw [h]; rfl

theorem after_after (s : StringScan) (t v t' v' : List Char) :
    (s.after t v).after t' v' = s.after (t' ++ t) (v' ++ v) := by
  simp only [StringScan.after, List.append_assoc]

/-- A string ends where neither kind of piece begins. -/
theorem stringPieces_stop {cs : List Char} (h : ∀ c ∈ cs.head?, c ≠ '\'' ∧ c ≠ '#') :
    stringPieces cs = ⟨[], [], cs, .closed⟩ := by
  rw [stringPieces]
  · rintro tail rfl
    exact (h _ rfl).1 rfl
  · rintro tail rfl
    exact (h _ rfl).2 rfl

/-- A character code of the grammar is read as its character, if there is one. -/
theorem stringPieces_code {digits rest : List Char} (hdigits : ∀ d ∈ digits, d.isDigit = true)
    (hrest : ∀ d ∈ rest.head?, d.isDigit = false) :
    stringPieces ('#' :: (digits ++ rest))
      = match characterOfCode? digits with
        | some c => (stringPieces rest).after ('#' :: digits) [c]
        | none => ⟨[], '#' :: digits, rest, .flawed .characterCode⟩ := by
  conv => lhs; rw [stringPieces]
  cases hcode : characterOfCode? digits <;>
    simp only [takeWhile_append_of_head hdigits hrest, dropWhile_append_of_head hdigits hrest,
      hcode]

/-- Pieces are read one after the other, whatever the rest is. -/
theorem stringPieces_of_pieces {rest text value : List Char} (h : PiecesAs rest text value) :
    stringPieces (text ++ rest) = (stringPieces rest).after text value := by
  induction h with
  | nil => rfl
  | @quoted inside value text more hinside hnext _ ih =>
    rw [List.cons_append, List.append_assoc, List.cons_append,
      stringPieces_quote (quotedRun_closed hinside hnext) rfl, ih, after_after]
    simp only [List.cons_append, List.append_assoc, List.nil_append]
  | @code digits text more c hdigits hcode hnext _ ih =>
    rw [List.cons_append, List.append_assoc, stringPieces_code hdigits hnext, hcode]
    simp only [ih, after_after, List.cons_append, List.nil_append]

/-- How the reading of a string ends: nothing of a string follows, or a run that is not closed, or
the code of no character. -/
inductive EndsPieces : List Char → Prop
  | closed {rest : List Char} (hstop : ∀ c ∈ rest.head?, c ≠ '\'' ∧ c ≠ '#') : EndsPieces rest
  | openRun {inside value rest : List Char} (hinside : QuotedAs inside value)
      (hrest : ∀ c ∈ rest.head?, c = '\n') : EndsPieces ('\'' :: (inside ++ rest))
  | badCode {digits rest : List Char} (hdigits : ∀ d ∈ digits, d.isDigit = true)
      (hcode : characterOfCode? digits = none) (hrest : ∀ d ∈ rest.head?, d.isDigit = false) :
      EndsPieces ('#' :: (digits ++ rest))

/-- Every text begins with a row of pieces that cannot be continued. -/
theorem exists_pieces (cs : List Char) :
    ∃ text value rest, cs = text ++ rest ∧ PiecesAs rest text value ∧ EndsPieces rest := by
  -- on the length, because the pieces behind a run are those of what the run leaves
  induction h : cs.length using Nat.strongRecOn generalizing cs with
  | ind n ih =>
    subst h
    by_cases hquote : cs.head? = some '\''
    · obtain ⟨tail, rfl⟩ := List.head?_eq_some_iff.1 hquote
      obtain ⟨inside, value, rest, hinside, ⟨rfl, hnext⟩ | ⟨rfl, hrest⟩⟩ := exists_run tail
      · obtain ⟨text, more, behind, rfl, hpieces, hend⟩ := ih rest.length (by simp; omega) rest rfl
        exact ⟨'\'' :: (inside ++ '\'' :: text), value ++ more, behind, by simp,
          .quoted hinside hnext hpieces, hend⟩
      · exact ⟨[], [], _, rfl, .nil, .openRun hinside hrest⟩
    by_cases hmark : cs.head? = some '#'
    · obtain ⟨tail, rfl⟩ := List.head?_eq_some_iff.1 hmark
      have hdigits : ∀ d ∈ tail.takeWhile Char.isDigit, d.isDigit = true :=
        fun _ hd => List.mem_takeWhile_imp hd
      have hnext := head_dropWhile Char.isDigit tail
      have hsplit := List.takeWhile_append_dropWhile (p := Char.isDigit) (l := tail)
      generalize tail.takeWhile Char.isDigit = digits at hdigits hsplit
      generalize tail.dropWhile Char.isDigit = rest at hnext hsplit
      subst hsplit
      cases hcode : characterOfCode? digits with
      | some c =>
        have hlt : rest.length < ('#' :: (digits ++ rest)).length := by
          simp only [List.length_cons, List.length_append]
          omega
        obtain ⟨text, more, behind, rfl, hpieces, hend⟩ := ih rest.length hlt rest rfl
        exact ⟨'#' :: (digits ++ text), c :: more, behind, by simp,
          .code hdigits hcode hnext hpieces, hend⟩
      | none => exact ⟨[], [], _, rfl, .nil, .badCode hdigits hcode hnext⟩
    · refine ⟨[], [], cs, rfl, .nil, .closed fun c hc => ⟨?_, ?_⟩⟩
      · rintro rfl
        exact hquote hc
      · rintro rfl
        exact hmark hc

/-! ## The three ways in which a string is read -/

section Literals

variable {rest text value inside shown digits : List Char}

theorem stringLiteral_string (h : PiecesAs rest text value)
    (hstop : ∀ c ∈ rest.head?, c ≠ '\'' ∧ c ≠ '#') :
    stringLiteral (text ++ rest) = (⟨text, some (.string (String.ofList value))⟩, rest) := by
  rw [stringLiteral, stringPieces_of_pieces h, stringPieces_stop hstop]
  simp only [StringScan.after, List.append_nil]

theorem stringLiteral_openString (h : PiecesAs ('\'' :: (inside ++ rest)) text value)
    (hinside : QuotedAs inside shown) (hrest : ∀ c ∈ rest.head?, c = '\n') :
    stringLiteral (text ++ '\'' :: (inside ++ rest))
      = (⟨text ++ '\'' :: inside, some (.flaw .openString)⟩, rest) := by
  rw [stringLiteral, stringPieces_of_pieces h, stringPieces, quotedRun_open hinside hrest]
  rfl

theorem stringLiteral_characterCode (h : PiecesAs ('#' :: (digits ++ rest)) text value)
    (hdigits : ∀ d ∈ digits, d.isDigit = true) (hcode : characterOfCode? digits = none)
    (hrest : ∀ d ∈ rest.head?, d.isDigit = false) :
    stringLiteral (text ++ '#' :: (digits ++ rest))
      = (⟨text ++ '#' :: digits, some (.flaw .characterCode)⟩, rest) := by
  rw [stringLiteral, stringPieces_of_pieces h, stringPieces_code hdigits hrest, hcode]
  rfl

theorem firstSegment_quoteOrCode {c : Char} (h : c = '\'' ∨ c = '#') (cs : List Char) :
    firstSegment c cs = stringLiteral (c :: cs) := by
  rcases h with rfl | rfl <;> rfl

/-- A row of pieces begins with an apostrophe or a number sign. -/
theorem PiecesAs.eq_nil_or (h : PiecesAs rest text value) :
    text = [] ∨ ∃ c cs, text = c :: cs ∧ (c = '\'' ∨ c = '#') := by
  cases h with
  | nil => exact .inl rfl
  | quoted => exact .inr ⟨_, _, rfl, .inl rfl⟩
  | code => exact .inr ⟨_, _, rfl, .inr rfl⟩

/-- What begins with pieces and one more mark is read as a string, also without the pieces. -/
theorem firstSegment_of_pieces {before tail : List Char} {c : Char} (h : PiecesAs rest before value)
    (hc : c = '\'' ∨ c = '#') (behind : List Char) :
    ∃ d ds, before ++ c :: tail = d :: ds
      ∧ firstSegment d (ds ++ behind) = stringLiteral (before ++ c :: (tail ++ behind)) := by
  obtain rfl | ⟨d, cs, rfl, hd⟩ := h.eq_nil_or
  · exact ⟨c, tail, rfl, firstSegment_quoteOrCode hc _⟩
  · refine ⟨d, cs ++ c :: tail, rfl, ?_⟩
    rw [firstSegment_quoteOrCode hd, List.append_assoc, List.cons_append, List.cons_append]

end Literals

/-- A string, flawed or not, stands as the grammar has it. -/
theorem stands_stringLiteral {c : Char} (h : c = '\'' ∨ c = '#') (cs : List Char) :
    (stringLiteral (c :: cs)).1.Stands (stringLiteral (c :: cs)).2 := by
  obtain ⟨text, value, rest, htext, hpieces, hend⟩ := exists_pieces (c :: cs)
  rw [htext]
  cases hend with
  | closed hstop =>
    have hne : text ≠ [] := by
      rintro rfl
      rw [List.nil_append] at htext
      subst htext
      have hc := hstop c rfl
      rcases h with rfl | rfl
      · exact hc.1 rfl
      · exact hc.2 rfl
    rw [stringLiteral_string hpieces hstop]
    exact .lexeme (.string hpieces hne hstop)
  | openRun hinside hrest =>
    rw [stringLiteral_openString hpieces hinside hrest]
    exact .lexeme (.openString hpieces hinside hrest)
  | badCode hdigits hcode hrest =>
    rw [stringLiteral_characterCode hpieces hdigits hcode hrest]
    exact .lexeme (.characterCode hpieces hdigits hcode hrest)

end TurboBench.Pascal
