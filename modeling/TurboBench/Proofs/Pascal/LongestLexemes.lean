import TurboBench.Proofs.Pascal.LexicalGrammar

/-!
# Words, numerals and symbols

What the lexer takes for a word, a numeral or a symbol is the longest text of its kind that begins
there. Two longest texts of one kind that begin at one place are the same (`IsLongest.read_eq`), so
it is enough to show that the readers take a longest text; that the lexical grammar leaves them no
choice follows.

A word ends where its letters and digits do. A numeral has parts that may be missing, and each part
that a shorter numeral has ends where the reader ends it, up to the last one
(`length_le_numeral`). A symbol has two characters at most.
-/

set_option autoImplicit false

namespace TurboBench.Pascal

open TurboBench.Text (isBlank takeWhile_append_of_head dropWhile_append_of_head
  takeWhile_append_of_stop dropWhile_append_of_stop head_dropWhile)

/-! ## The longest text of a kind -/

theorem segment_eq {r : Segment × List Char} {text rest : List Char} {lexeme : Option Lexeme}
    (htext : r.1.text = text) (hlexeme : r.1.lexeme = lexeme) (hrest : r.2 = rest) :
    r = (⟨text, lexeme⟩, rest) := by
  subst htext hlexeme hrest
  rfl

section Longest

variable {P : List Char → Prop} {text rest : List Char} {d : Char}

/-- Two longest texts of one kind that begin at one place are the same. -/
theorem IsLongest.read_eq {r : Segment × List Char} (hr : IsLongest P r.2 r.1.text)
    (h : IsLongest P rest text) (happ : r.1.text ++ r.2 = text ++ rest) :
    r.1.text = text ∧ r.2 = rest := by
  have hother : r.1.text <+: text ++ rest := ⟨r.2, happ⟩
  have htext : text <+: r.1.text ++ r.2 := ⟨rest, happ.symm⟩
  have hprefix : text <+: r.1.text :=
    List.prefix_of_prefix_length_le (List.prefix_append text rest) hother
      (hr.longest text htext h.kind)
  have hsame : text = r.1.text := hprefix.eq_of_length_le (h.longest r.1.text hother hr.kind)
  rw [hsame] at happ ⊢
  exact ⟨rfl, List.append_cancel_left happ⟩

/-- A text is the longest one if it cannot be continued. -/
theorem isLongest_of_stop (h : P text)
    (hstop : ∀ d ∈ rest.head?, ∀ more, ¬ P (text ++ d :: more)) : IsLongest P rest text := by
  refine ⟨h, fun other hother hP => ?_⟩
  by_contra hlong
  have hprefix : text <+: other :=
    List.prefix_of_prefix_length_le (List.prefix_append text rest) hother (by omega)
  obtain ⟨tail, rfl⟩ := hprefix
  have htail : tail <+: rest := (List.prefix_append_right_inj text).1 hother
  cases tail with
  | nil => simp at hlong
  | cons d more =>
    obtain ⟨behind, rfl⟩ := htail
    exact hstop d rfl more hP

/-- The longest text does not go on. -/
theorem IsLongest.not_append (h : IsLongest P rest text) (hd : d ∈ rest.head?) :
    ¬ P (text ++ [d]) := by
  intro hP
  obtain ⟨tail, rfl⟩ := List.head?_eq_some_iff.1 hd
  have hlong := h.longest (text ++ [d]) (by simp) hP
  simp only [List.length_append, List.length_singleton] at hlong
  omega

end Longest

/-! ## Words -/

section Words

variable {text rest : List Char} {c d : Char}

theorem isWordPart_of_isWord (h : IsWord text) : ∀ d ∈ text, isWordPart d = true := by
  obtain ⟨c, tail, rfl, hc, htail⟩ := h
  exact List.forall_mem_cons.2 ⟨isWordPart_of_isLetter hc, htail⟩

/-- A word ends where no part of a word follows. -/
theorem isLongest_word (hc : isLetter c = true) (htext : ∀ d ∈ text, isWordPart d = true)
    (hrest : ∀ d ∈ rest.head?, isWordPart d = false) : IsLongest IsWord rest (c :: text) := by
  refine isLongest_of_stop ⟨c, text, rfl, hc, htext⟩ fun d hd more hword => ?_
  have hpart := isWordPart_of_isWord hword d (by simp)
  rw [hrest d hd] at hpart
  exact absurd hpart (by decide)

/-- What follows the longest word is no part of it. -/
theorem isWordPart_head_of_isLongest (h : IsLongest IsWord rest text) :
    ∀ d ∈ rest.head?, isWordPart d = false := by
  intro d hd
  by_contra hpart
  obtain ⟨c, tail, rfl, hc, htail⟩ := h.kind
  refine h.not_append hd ⟨c, tail ++ [d], rfl, hc, fun e he => ?_⟩
  rcases List.mem_append.1 he with he | he
  · exact htail e he
  · rw [List.mem_singleton.1 he]
    simpa using hpart

end Words

/-- What is taken as a word is the longest one. -/
theorem isLexeme_word {c : Char} (hc : isLetter c = true) (cs : List Char) :
    IsLexeme (cs.dropWhile isWordPart) (c :: cs.takeWhile isWordPart)
      (wordLexeme (c :: cs.takeWhile isWordPart)) := by
  have hlong : IsLongest IsWord (cs.dropWhile isWordPart) (c :: cs.takeWhile isWordPart) :=
    isLongest_word hc (fun _ hd => List.mem_takeWhile_imp hd) (head_dropWhile isWordPart cs)
  unfold wordLexeme
  split
  · rename_i k hk
    refine .keyword hlong ?_
    rw [Keyword.text_of_ofText? hk, String.toList_ofList]
  · rename_i hnone
    refine .identifier hlong fun k hk => ?_
    rw [← hk, String.ofList_toList, Keyword.ofText?_text] at hnone
    exact absurd hnone (by simp)

/-- Of a keyword and of an identifier, the word is read as the one that it is. -/
theorem wordLexeme_keyword_of_text {text : List Char} {k : Keyword}
    (h : k.text.toList = text.map Char.toLower) : wordLexeme text = .keyword k := by
  rw [wordLexeme, ← h, String.ofList_toList, Keyword.ofText?_text]

/-- A word that is no keyword, in any case, is an identifier. -/
theorem wordLexeme_identifier_of_text {text : List Char}
    (h : ∀ k : Keyword, k.text.toList ≠ text.map Char.toLower) :
    wordLexeme text = .identifier (String.ofList text) := by
  unfold wordLexeme
  split
  · rename_i k hk
    refine absurd ?_ (h k)
    rw [Keyword.text_of_ofText? hk, String.toList_ofList]
  · rfl

/-- The longest word is the first segment that is cut off. -/
theorem firstSegment_of_isLongest_word {rest text : List Char} (h : IsLongest IsWord rest text) :
    ∃ c cs, text = c :: cs
      ∧ firstSegment c (cs ++ rest) = (⟨text, some (wordLexeme text)⟩, rest) := by
  have hrest := isWordPart_head_of_isLongest h
  obtain ⟨c, cs, rfl, hc, hcs⟩ := h.kind
  refine ⟨c, cs, rfl, ?_⟩
  rw [firstSegment_of_isLetter hc, takeWhile_append_of_head hcs hrest,
    dropWhile_append_of_head hcs hrest]

/-! ## Numerals -/

/-- What is taken as a fraction is one. -/
theorem fraction_kind (cs : List Char) : (fraction cs).1 = [] ∨ IsFraction (fraction cs).1 := by
  unfold fraction
  split
  · rename_i d cs
    split
    · rename_i hd
      refine .inr ⟨d :: cs.takeWhile Char.isDigit, rfl, by simp, ?_⟩
      exact List.forall_mem_cons.2 ⟨hd, fun _ hc => List.mem_takeWhile_imp hc⟩
    · exact .inl rfl
  · exact .inl rfl

/-- What is taken as an exponent is one. -/
theorem exponent_kind (cs : List Char) : (exponent cs).1 = [] ∨ IsExponent (exponent cs).1 := by
  have hmark {e : Char} (h : (e == 'e' || e == 'E') = true) : e = 'e' ∨ e = 'E' := by
    simpa using h
  unfold exponent
  -- With or without a sign, and without one there may be a single digit at the end of the text.
  split
  · rename_i e s d cs
    split
    · rename_i h
      rw [Bool.and_eq_true] at h
      refine .inr ⟨e, [], s :: (d :: cs).takeWhile Char.isDigit, rfl, hmark h.1, .inl rfl,
        by simp, ?_⟩
      exact List.forall_mem_cons.2 ⟨h.2, fun _ hc => List.mem_takeWhile_imp hc⟩
    · split
      · rename_i h
        rw [Bool.and_eq_true, Bool.and_eq_true] at h
        have hsign : [s] = [] ∨ [s] = ['+'] ∨ [s] = ['-'] := by simpa using h.1.2
        refine .inr ⟨e, [s], d :: cs.takeWhile Char.isDigit, rfl, hmark h.1.1, hsign, by simp, ?_⟩
        exact List.forall_mem_cons.2 ⟨h.2, fun _ hc => List.mem_takeWhile_imp hc⟩
      · exact .inl rfl
  · rename_i e d
    split
    · rename_i h
      rw [Bool.and_eq_true] at h
      exact .inr ⟨e, [], [d], rfl, hmark h.1, .inl rfl, by simp, by simpa using h.2⟩
    · exact .inl rfl
  · exact .inl rfl

/-- A fraction is taken with all digits behind it. -/
theorem fraction_of_isFraction {cs : List Char} (h : IsFraction cs) (rest : List Char) :
    fraction (cs ++ rest) = (cs ++ rest.takeWhile Char.isDigit, rest.dropWhile Char.isDigit) := by
  obtain ⟨ds, rfl, hne, hds⟩ := h
  cases ds with
  | nil => exact absurd rfl hne
  | cons d ds =>
    obtain ⟨hd, hds⟩ := List.forall_mem_cons.1 hds
    rw [List.cons_append, List.cons_append, fraction, if_pos hd, List.takeWhile_append_of_pos hds,
      List.dropWhile_append_of_pos hds]
    rfl

/-- Nothing but a point begins a fraction. -/
theorem fraction_of_ne {c : Char} (h : c ≠ '.') (cs : List Char) :
    fraction (c :: cs) = ([], c :: cs) := by
  unfold fraction
  split
  · rename_i d ds heq
    exact absurd (List.cons.inj heq).1 h
  · rfl

/-- An exponent is taken with all digits behind it. -/
theorem exponent_of_isExponent {cs : List Char} (h : IsExponent cs) (rest : List Char) :
    exponent (cs ++ rest) = (cs ++ rest.takeWhile Char.isDigit, rest.dropWhile Char.isDigit) := by
  obtain ⟨mark, sign, ds, rfl, hmark, hsign, hne, hds⟩ := h
  have hmark : (mark == 'e' || mark == 'E') = true := by simpa using hmark
  cases ds with
  | nil => exact absurd rfl hne
  | cons d ds =>
    obtain ⟨hd, hds⟩ := List.forall_mem_cons.1 hds
    have htake : (ds ++ rest).takeWhile Char.isDigit = ds ++ rest.takeWhile Char.isDigit :=
      List.takeWhile_append_of_pos hds
    have hdrop : (ds ++ rest).dropWhile Char.isDigit = rest.dropWhile Char.isDigit :=
      List.dropWhile_append_of_pos hds
    rcases hsign with rfl | rfl | rfl
    · -- Without a sign, the first digit is looked at where a sign might be.
      simp only [List.nil_append, List.cons_append]
      cases hmore : ds ++ rest with
      | nil =>
        obtain ⟨rfl, rfl⟩ := List.append_eq_nil_iff.1 hmore
        simp [exponent, hmark, hd]
      | cons e more =>
        rw [hmore] at htake hdrop
        simp only [exponent, hmark, hd, Bool.and_self, if_true, htake, hdrop]
    all_goals
      simp only [List.cons_append, List.nil_append, exponent, hmark, hd, htake, hdrop]
      rfl

theorem isDigit_point : Char.isDigit '.' = false := by decide

/-- Behind digits, a fraction is read with the digits that follow it. -/
theorem fraction_behind_digits {whole places : List Char} (hwhole : ∀ d ∈ whole, d.isDigit = true)
    (hplaces : IsFraction places) (rest : List Char) :
    (whole ++ (places ++ rest)).takeWhile Char.isDigit = whole
      ∧ fraction ((whole ++ (places ++ rest)).dropWhile Char.isDigit)
        = (places ++ rest.takeWhile Char.isDigit, rest.dropWhile Char.isDigit) := by
  have hread := fraction_of_isFraction hplaces rest
  obtain ⟨ds, rfl, -⟩ := hplaces
  rw [List.cons_append] at hread ⊢
  rw [takeWhile_append_of_stop hwhole isDigit_point, dropWhile_append_of_stop hwhole isDigit_point]
  exact ⟨rfl, hread⟩

/-- An exponent begins with a mark, which ends the digits in front of it and is no point. -/
theorem IsExponent.eq_cons {scale : List Char} (h : IsExponent scale) :
    ∃ mark more, scale = mark :: more ∧ mark.isDigit = false ∧ mark ≠ '.' := by
  obtain ⟨mark, sign, ds, rfl, hmark, -⟩ := h
  refine ⟨mark, sign ++ ds, rfl, ?_⟩
  rcases hmark with rfl | rfl <;> decide

/-- A numeral that a text begins with is no longer than the one that is read there. Where a part of
it is missing, the reader may take one. -/
theorem length_le_numeral {cs : List Char} (h : IsNumeral cs) (rest : List Char) :
    cs.length ≤ (numeral (cs ++ rest)).1.text.length := by
  obtain ⟨whole, places, scale, rfl, ⟨-, hwhole⟩, hplaces, hscale⟩ := h
  -- Four cases, for a numeral with and without its fraction and its exponent.
  rcases hscale with rfl | hscale
  · rcases hplaces with rfl | hplaces
    · simp only [numeral, List.append_nil, List.takeWhile_append_of_pos hwhole, List.length_append]
      omega
    · obtain ⟨htake, hread⟩ := fraction_behind_digits hwhole hplaces rest
      simp only [numeral, List.append_nil, List.append_assoc, htake, hread, List.length_append]
      omega
  · have hexponent := exponent_of_isExponent hscale rest
    obtain ⟨mark, more, rfl, hdigit, hpoint⟩ := hscale.eq_cons
    rw [List.cons_append] at hexponent
    rcases hplaces with rfl | hplaces
    · simp only [numeral, List.nil_append, List.append_assoc, List.cons_append,
        takeWhile_append_of_stop hwhole hdigit, dropWhile_append_of_stop hwhole hdigit,
        fraction_of_ne hpoint, hexponent, List.length_append]
      simp only [List.length_cons, List.length_append]
      omega
    · obtain ⟨htake, hread⟩ := fraction_behind_digits hwhole hplaces (mark :: (more ++ rest))
      rw [List.takeWhile_cons_of_neg (by simp [hdigit]),
        List.dropWhile_cons_of_neg (by simp [hdigit]), List.append_nil] at hread
      simp only [numeral, List.append_assoc, List.cons_append, htake, hread, hexponent,
        List.length_append, List.length_cons]
      omega

theorem isNumeral_numeral {c : Char} (h : c.isDigit = true) (cs : List Char) :
    IsNumeral (numeral (c :: cs)).1.text := by
  refine ⟨_, _, _, List.append_assoc _ _ _, ⟨by simp [h], fun _ hd => List.mem_takeWhile_imp hd⟩,
    fraction_kind _, exponent_kind _⟩

/-- What is taken as a numeral is the longest one. -/
theorem isLongest_numeral {c : Char} (h : c.isDigit = true) (cs : List Char) :
    IsLongest IsNumeral (numeral (c :: cs)).2 (numeral (c :: cs)).1.text := by
  refine ⟨isNumeral_numeral h cs, fun other hother hnumeral => ?_⟩
  rw [numeral_append] at hother
  obtain ⟨tail, htail⟩ := hother
  rw [← htail]
  exact length_le_numeral hnumeral tail

/-- A numeral is one of digits only if it has neither a fraction nor an exponent. -/
theorem lexeme_numeral {c : Char} (h : c.isDigit = true) (cs : List Char) :
    (IsDigits (numeral (c :: cs)).1.text ∧ (numeral (c :: cs)).1.lexeme
        = some (.integer (String.ofList (numeral (c :: cs)).1.text)))
      ∨ (¬ IsDigits (numeral (c :: cs)).1.text ∧ (numeral (c :: cs)).1.lexeme
        = some (.real (String.ofList (numeral (c :: cs)).1.text))) := by
  simp only [numeral]
  have hwhole : IsDigits ((c :: cs).takeWhile Char.isDigit) :=
    ⟨by simp [h], fun _ hd => List.mem_takeWhile_imp hd⟩
  generalize (c :: cs).takeWhile Char.isDigit = whole at hwhole ⊢
  have hplaces := fraction_kind ((c :: cs).dropWhile Char.isDigit)
  generalize fraction ((c :: cs).dropWhile Char.isDigit) = f at hplaces ⊢
  have hscale := exponent_kind f.2
  generalize exponent f.2 = x at hscale ⊢
  -- A fraction brings in a point and an exponent a letter, and neither is a digit.
  rcases hplaces with hplaces | ⟨ds, hplaces, -⟩
  · rcases hscale with hscale | ⟨mark, sign, ds, hscale, hmark, -⟩
    · left
      simpa [hplaces, hscale] using hwhole
    · right
      refine ⟨fun hdigits => ?_, by simp [hscale]⟩
      have hmem : mark ∈ whole ++ f.1 ++ x.1 := by simp [hscale]
      have := hdigits.2 mark hmem
      rcases hmark with rfl | rfl <;> exact absurd this (by decide)
  · right
    refine ⟨fun hdigits => ?_, by simp [hplaces]⟩
    have hmem : '.' ∈ whole ++ f.1 ++ x.1 := by simp [hplaces]
    exact absurd (hdigits.2 '.' hmem) (by decide)

/-- So it stands as the grammar has it. -/
theorem stands_numeral {c : Char} (h : c.isDigit = true) (cs : List Char) :
    (numeral (c :: cs)).1.Stands (numeral (c :: cs)).2 := by
  have hlong := isLongest_numeral h cs
  rcases lexeme_numeral h cs with ⟨hdigits, hlexeme⟩ | ⟨hdigits, hlexeme⟩
  · rw [segment_eq rfl hlexeme rfl]
    exact .lexeme (.integer hlong hdigits)
  · rw [segment_eq rfl hlexeme rfl]
    exact .lexeme (.real hlong hdigits)

/-- The longest numeral is the first segment that is cut off, as an integer or a real. -/
theorem firstSegment_of_isLongest_numeral {rest text : List Char}
    (h : IsLongest IsNumeral rest text) :
    ∃ c cs, text = c :: cs ∧ ((IsDigits text
        ∧ firstSegment c (cs ++ rest) = (⟨text, some (.integer (String.ofList text))⟩, rest))
      ∨ (¬ IsDigits text
        ∧ firstSegment c (cs ++ rest) = (⟨text, some (.real (String.ofList text))⟩, rest))) := by
  obtain ⟨c, cs, rfl, hc⟩ : ∃ c cs, text = c :: cs ∧ c.isDigit = true := by
    obtain ⟨whole, places, scale, rfl, ⟨hne, hwhole⟩, -⟩ := h.kind
    cases whole with
    | nil => exact absurd rfl hne
    | cons c ds => exact ⟨c, ds ++ (places ++ scale), rfl, hwhole c List.mem_cons_self⟩
  refine ⟨c, cs, rfl, ?_⟩
  have hread := isLongest_numeral hc (cs ++ rest)
  obtain ⟨htext, hrest⟩ := hread.read_eq h (numeral_append (c :: (cs ++ rest)))
  have hlexeme := lexeme_numeral hc (cs ++ rest)
  rw [htext] at hlexeme
  rw [firstSegment_of_isDigit hc]
  exact hlexeme.imp (And.imp_right fun hl => segment_eq htext hl hrest)
    (And.imp_right fun hl => segment_eq htext hl hrest)

/-! ## Symbols -/

theorem symbol_chars (m : Symbol) :
    (∃ c, m.text.toList = [c] ∧ Symbol.ofChar? c = some m)
      ∨ ∃ c d, m.text.toList = [c, d] ∧ Symbol.ofPair? c d = some m := by
  cases m
  case assign | notEqual | atMost | atLeast => exact .inr ⟨_, _, rfl, rfl⟩
  all_goals exact .inl ⟨_, rfl, rfl⟩

/-- The symbols of two characters are those of the table. -/
theorem isSymbol_pair {c d : Char} : IsSymbol [c, d] ↔ ∃ m, Symbol.ofPair? c d = some m := by
  constructor
  · rintro ⟨m, hm⟩
    rcases symbol_chars m with ⟨e, htext, -⟩ | ⟨e, f, htext, hpair⟩
    · rw [htext] at hm
      simp at hm
    · rw [htext] at hm
      obtain ⟨rfl, rfl⟩ : e = c ∧ f = d := by simpa using hm
      exact ⟨m, hpair⟩
  · rintro ⟨m, hm⟩
    exact ⟨m, by rw [Symbol.text_of_ofPair? hm, String.toList_ofList]⟩

/-- The symbols of one character are those of the table. -/
theorem isSymbol_char {c : Char} : IsSymbol [c] ↔ ∃ m, Symbol.ofChar? c = some m := by
  constructor
  · rintro ⟨m, hm⟩
    rcases symbol_chars m with ⟨e, htext, hchar⟩ | ⟨e, f, htext, -⟩
    · rw [htext] at hm
      obtain rfl : e = c := by simpa using hm
      exact ⟨m, hchar⟩
    · rw [htext] at hm
      simp at hm
  · rintro ⟨m, hm⟩
    exact ⟨m, by rw [Symbol.text_of_ofChar? hm, String.toList_ofList]⟩

/-- No two symbols are written alike. -/
theorem symbol_text_injective {m n : Symbol} (h : m.text.toList = n.text.toList) : m = n := by
  rcases symbol_chars m with ⟨c, hm, hmc⟩ | ⟨c, d, hm, hmc⟩
  all_goals
    rcases symbol_chars n with ⟨e, hn, hne⟩ | ⟨e, f, hn, hne⟩
    all_goals
      rw [hm, hn] at h
      simp_all

theorem symbol_text_length (m : Symbol) : m.text.toList.length ≤ 2 := by
  rcases symbol_chars m with ⟨c, hm, -⟩ | ⟨c, d, hm, -⟩ <;> simp [hm]

/-- The first character of a symbol is one too, and it begins nothing else but a comment. -/
theorem symbol_head (m : Symbol) :
    ∃ c cs, m.text.toList = c :: cs ∧ IsSymbol [c] ∧ isBlank c = false ∧ isLetter c = false
      ∧ c.isDigit = false ∧ c ∉ ['\'', '#'] := by
  cases m <;>
    exact ⟨_, _, rfl, isSymbol_char.2 ⟨_, rfl⟩, by decide, by decide, by decide, by decide⟩

/-- The longest symbol is taken, or a character that is none. -/
theorem symbolLexeme_cases (c : Char) (cs : List Char) :
    (∃ m : Symbol, (symbolLexeme c cs).1 = ⟨m.text.toList, some (.symbol m)⟩
        ∧ IsLongest IsSymbol (symbolLexeme c cs).2 m.text.toList)
      ∨ (¬ IsSymbol [c] ∧ symbolLexeme c cs = (⟨[c], some (.flaw (.character c))⟩, cs)) := by
  have hsingle (hpair : ∀ d ∈ cs.head?, Symbol.ofPair? c d = none) {m : Symbol}
      (hm : Symbol.ofChar? c = some m) :
      [c] = m.text.toList ∧ IsLongest IsSymbol cs m.text.toList := by
    have htext : m.text.toList = [c] := by rw [Symbol.text_of_ofChar? hm, String.toList_ofList]
    refine ⟨htext.symm, isLongest_of_stop ⟨m, rfl⟩ fun d hd more hsymbol => ?_⟩
    -- A longer symbol would be a pair, since no symbol has three characters.
    rw [htext] at hsymbol
    obtain ⟨n, hn⟩ := hsymbol
    obtain rfl : more = [] := by
      have hlength := symbol_text_length n
      rw [hn] at hlength
      simpa using hlength
    obtain ⟨n, hn⟩ := isSymbol_pair.1 ⟨n, hn⟩
    rw [hpair d hd] at hn
    exact absurd hn (by simp)
  unfold symbolLexeme
  split
  · rename_i d rest
    split
    · rename_i m hm
      have htext : m.text.toList = [c, d] := by rw [Symbol.text_of_ofPair? hm, String.toList_ofList]
      refine .inl ⟨m, by rw [htext], ⟨m, rfl⟩, ?_⟩
      rintro other - ⟨n, rfl⟩
      rw [htext]
      exact symbol_text_length n
    · rename_i hnone
      cases hc : Symbol.ofChar? c with
      | some m =>
        obtain ⟨htext, hlong⟩ := hsingle (by simpa using hnone) hc
        exact .inl ⟨m, by simp [htext], hlong⟩
      | none =>
        refine .inr ⟨fun hsymbol => ?_, rfl⟩
        simp [isSymbol_char, hc] at hsymbol
  · cases hc : Symbol.ofChar? c with
    | some m =>
      obtain ⟨htext, hlong⟩ := hsingle (by simp) hc
      exact .inl ⟨m, by simp [htext], hlong⟩
    | none =>
      refine .inr ⟨fun hsymbol => ?_, rfl⟩
      simp [isSymbol_char, hc] at hsymbol

/-- Where nothing else begins, a symbol is looked for. -/
theorem firstSegment_of_no_comment {c : Char} {cs : List Char} (hblank : isBlank c = false)
    (hletter : isLetter c = false) (hdigit : c.isDigit = false) (hmark : c ∉ ['\'', '#'])
    (hopen : ¬ OpensComment (c :: cs)) : firstSegment c cs = symbolLexeme c cs := by
  have hbrace : (c == '{') = false := by
    refine beq_eq_false_iff_ne.2 ?_
    rintro rfl
    exact hopen ⟨cs, .inl rfl⟩
  have hstar : (c == '(' && cs.head? == some '*') = false := by
    refine Bool.eq_false_iff.2 fun h => ?_
    rw [Bool.and_eq_true, beq_iff_eq, beq_iff_eq, List.head?_eq_some_iff] at h
    obtain ⟨rfl, tail, rfl⟩ := h
    exact hopen ⟨tail, .inr (.inl rfl)⟩
  have hslash : (c == '/' && cs.head? == some '/') = false := by
    refine Bool.eq_false_iff.2 fun h => ?_
    rw [Bool.and_eq_true, beq_iff_eq, beq_iff_eq, List.head?_eq_some_iff] at h
    obtain ⟨rfl, tail, rfl⟩ := h
    exact hopen ⟨tail, .inr (.inr rfl)⟩
  have hquote : (c == '\'' || c == '#') = false := by simpa using hmark
  unfold firstSegment
  rw [hblank, hbrace, hstar, hslash, hletter, hdigit, hquote]
  rfl

/-- The longest symbol is the first segment that is cut off. -/
theorem firstSegment_of_isLongest_symbol {rest : List Char} {m : Symbol}
    (h : IsLongest IsSymbol rest m.text.toList) (hopen : ¬ OpensComment (m.text.toList ++ rest)) :
    ∃ c cs, m.text.toList = c :: cs
      ∧ firstSegment c (cs ++ rest) = (⟨m.text.toList, some (.symbol m)⟩, rest) := by
  obtain ⟨c, cs, htext, hc, hblank, hletter, hdigit, hmark⟩ := symbol_head m
  refine ⟨c, cs, htext, ?_⟩
  have happ := symbolLexeme_append c (cs ++ rest)
  rw [← List.cons_append, ← htext] at happ
  rw [htext, List.cons_append] at hopen
  rw [firstSegment_of_no_comment hblank hletter hdigit hmark hopen]
  rcases symbolLexeme_cases c (cs ++ rest) with ⟨n, hread, hlong⟩ | ⟨hsymbol, -⟩
  · have hlong : IsLongest IsSymbol (symbolLexeme c (cs ++ rest)).2
        (symbolLexeme c (cs ++ rest)).1.text := by rwa [hread]
    obtain ⟨hsame, hrest⟩ := hlong.read_eq h happ
    rw [hread] at hsame
    rw [symbol_text_injective hsame] at hread
    exact Prod.ext hread hrest
  · exact absurd hc hsymbol

/-- A character that begins nothing is a segment by itself. -/
theorem firstSegment_of_character {c : Char} (hblank : isBlank c = false)
    (hletter : isLetter c = false) (hdigit : c.isDigit = false) (hmark : c ∉ ['{', '\'', '#'])
    (hsymbol : ¬ IsSymbol [c]) (rest : List Char) :
    firstSegment c rest = (⟨[c], some (.flaw (.character c))⟩, rest) := by
  rw [List.mem_cons, not_or] at hmark
  obtain ⟨hbrace, hquote⟩ := hmark
  have hopen : ¬ OpensComment (c :: rest) := by
    rintro ⟨tail, h | h | h⟩
    · exact hbrace (List.cons.inj h).1
    -- the other two openings begin with a symbol
    · obtain ⟨rfl, -⟩ := List.cons.inj h
      exact hsymbol ⟨.openParen, rfl⟩
    · obtain ⟨rfl, -⟩ := List.cons.inj h
      exact hsymbol ⟨.slash, rfl⟩
  rw [firstSegment_of_no_comment hblank hletter hdigit hquote hopen]
  rcases symbolLexeme_cases c rest with ⟨m, hread, -⟩ | ⟨-, hread⟩
  · have happ := symbolLexeme_append c rest
    obtain ⟨d, ds, htext, hd, -⟩ := symbol_head m
    rw [hread, htext] at happ
    obtain ⟨rfl, -⟩ := List.cons.inj happ
    exact absurd hd hsymbol
  · exact hread

end TurboBench.Pascal
