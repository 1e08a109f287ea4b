import TurboBench.Pascal.Lexer
import TurboBench.Proofs.Text.Words

/-!
# Lexemes written out and read again

Every lexeme of the language has a spelling. Written one behind the other, each with a blank behind
it, lexemes are read again as they were (`tokenize_spelled`); the blank is what ends a word, a
numeral or a symbol, so nothing is asked of the neighbours.

A string is spelled as quoted runs with `#10` between them where the text has a newline, since a
quoted run ends with its line. In a run an apostrophe is doubled. The spelling is a recursion on the
text from inside a run (`quotedFrom`), and that is also what the induction in `quotedRun_quotedFrom`
is on: at each character the run goes on, and at a newline it is closed and the next one is opened.
-/

set_option autoImplicit false

namespace TurboBench.Pascal

open TurboBench.Text (isBlank takeWhile_append_of_stop dropWhile_append_of_stop)

/-! ## Spellings -/

/-- What is left to write of a string once a quoted run was opened. -/
def quotedFrom : List Char → List Char
  | [] => ['\'']
  | '\n' :: cs => '\'' :: '#' :: '1' :: '0' :: '\'' :: quotedFrom cs
  | '\'' :: cs => '\'' :: '\'' :: quotedFrom cs
  | c :: cs => c :: quotedFrom cs

/-- A string as it is written in a source. -/
def quotedText (cs : List Char) : List Char :=
  '\'' :: quotedFrom cs

/-- A lexeme as it is written in a source. -/
def Lexeme.spelling : Lexeme → List Char
  | keyword w => w.text.toList
  | identifier n => n.toList
  | integer d => d.toList
  | real r => r.toList
  | string s => quotedText s.toList
  | symbol m => m.text.toList
  | flaw c => c.text.toList

/-- Lexemes one behind the other, with a blank behind each. -/
def spelled (ls : List Lexeme) : List Char :=
  ls.flatMap fun l => l.spelling ++ [' ']

/-- An identifier in small letters that is no reserved word. -/
structure IsName (n : String) : Prop where
  first : ∃ c cs, n.toList = c :: cs ∧ isLetter c = true ∧ ∀ d ∈ cs, isWordPart d = true
  small : n.toList.map Char.toLower = n.toList
  notKeyword : Keyword.ofText? n = none

/-- A run of at least one digit. -/
def IsDigits (cs : List Char) : Prop :=
  cs ≠ [] ∧ ∀ c ∈ cs, c.isDigit = true

/-- A lexeme whose spelling is read as that lexeme: names are in small letters, and reals have
digits on both sides of a point and no exponent. -/
def Lexeme.Plain : Lexeme → Prop
  | identifier n => IsName n
  | integer d => IsDigits d.toList
  | real r => ∃ whole places, r.toList = whole ++ '.' :: places ∧ IsDigits whole ∧ IsDigits places
  | flaw _ => False
  | keyword _ | string _ | symbol _ => True

/-! ## Words -/

theorem isWordPart_of_isLetter {c : Char} (h : isLetter c = true) : isWordPart c = true := by
  simp [isWordPart, h]

theorem isBlank_of_printing {c : Char} (hlow : 0x21 ≤ c.toNat) (hhigh : c.toNat ≤ 0x7E) :
    isBlank c = false := by
  unfold isBlank
  simp only [Bool.or_eq_false_iff, Bool.and_eq_false_iff, decide_eq_false_iff_not,
    beq_eq_false_iff_ne]
  omega

/-- The letters and the underscore have codes from that of `A` to that of `z`. -/
theorem toNat_of_isLetter {c : Char} (h : isLetter c = true) : 0x41 ≤ c.toNat ∧ c.toNat ≤ 0x7A := by
  unfold isLetter at h
  rw [Bool.or_eq_true, beq_iff_eq] at h
  rcases h with h | rfl
  · change (decide (c.val ≥ 'A'.val ∧ c.val ≤ 'Z'.val)
      || decide (c.val ≥ 'a'.val) && decide (c.val ≤ 'z'.val)) = true at h
    simp only [Bool.or_eq_true, Bool.and_eq_true, decide_eq_true_eq, ge_iff_le,
      UInt32.le_iff_toNat_le] at h
    have hnat : c.toNat = c.val.toNat := rfl
    have hA : 'A'.val.toNat = 0x41 := rfl
    have hZ : 'Z'.val.toNat = 0x5A := rfl
    have ha : 'a'.val.toNat = 0x61 := rfl
    have hz : 'z'.val.toNat = 0x7A := rfl
    omega
  · exact ⟨by decide, by decide⟩

/-- The digits stand between these two codes. -/
theorem toNat_of_isDigit {c : Char} (h : c.isDigit = true) : 0x30 ≤ c.toNat ∧ c.toNat ≤ 0x39 := by
  simp only [Char.isDigit, Bool.and_eq_true, decide_eq_true_eq, ge_iff_le,
    UInt32.le_iff_toNat_le] at h
  have hnat : c.toNat = c.val.toNat := rfl
  have h0 : '0'.val.toNat = 0x30 := rfl
  have h9 : '9'.val.toNat = 0x39 := rfl
  omega

theorem beq_false_of_toNat {c d : Char} (h : c.toNat ≠ d.toNat) : (c == d) = false := by
  refine beq_eq_false_iff_ne.2 fun hcd => h ?_
  rw [hcd]

/-- A letter begins a word, which goes on as long as letters, digits and underscores follow. -/
theorem firstSegment_of_isLetter {c : Char} (h : isLetter c = true) (cs : List Char) :
    firstSegment c cs
      = (⟨c :: cs.takeWhile isWordPart, some (wordLexeme (c :: cs.takeWhile isWordPart))⟩,
        cs.dropWhile isWordPart) := by
  -- The code of a letter rules out everything that is asked for before it.
  obtain ⟨hlow, hhigh⟩ := toNat_of_isLetter h
  have hbrace : (c == '{') = false := beq_false_of_toNat (by simp; omega)
  have hparen : (c == '(') = false := beq_false_of_toNat (by simp; omega)
  have hslash : (c == '/') = false := beq_false_of_toNat (by simp; omega)
  unfold firstSegment
  rw [isBlank_of_printing (by omega) (by omega), hbrace, hparen, hslash, h]
  rfl

theorem firstSegment_word {c : Char} {cs : List Char} (hc : isLetter c = true)
    (hcs : ∀ d ∈ cs, isWordPart d = true) (rest : List Char) :
    firstSegment c (cs ++ ' ' :: rest) = (⟨c :: cs, some (wordLexeme (c :: cs))⟩, ' ' :: rest) := by
  have hstop : isWordPart ' ' = false := by decide
  rw [firstSegment_of_isLetter hc, takeWhile_append_of_stop hcs hstop,
    dropWhile_append_of_stop hcs hstop]

theorem wordLexeme_of_isName {n : String} (h : IsName n) : wordLexeme n.toList = .identifier n := by
  rw [wordLexeme, h.small, String.ofList_toList, h.notKeyword]

theorem wordLexeme_keyword (w : Keyword) : wordLexeme w.text.toList = .keyword w := by
  have hsmall : w.text.toList.map Char.toLower = w.text.toList := by
    cases w <;> decide
  rw [wordLexeme, hsmall, String.ofList_toList, Keyword.ofText?_text]

theorem keyword_letters (w : Keyword) :
    ∃ c cs, w.text.toList = c :: cs ∧ isLetter c = true ∧ ∀ d ∈ cs, isWordPart d = true := by
  cases w <;> exact ⟨_, _, rfl, by decide, List.all_eq_true.1 (by decide)⟩

/-! ## Numerals -/

theorem isWordPart_of_isDigit {c : Char} (h : c.isDigit = true) : isWordPart c = true := by
  simp [isWordPart, h]

/-- A digit begins a numeral. -/
theorem firstSegment_of_isDigit {c : Char} (h : c.isDigit = true) (cs : List Char) :
    firstSegment c cs = numeral (c :: cs) := by
  -- as for letters, and no letter is a digit
  obtain ⟨hlow, hhigh⟩ := toNat_of_isDigit h
  have hbrace : (c == '{') = false := beq_false_of_toNat (by simp; omega)
  have hparen : (c == '(') = false := beq_false_of_toNat (by simp; omega)
  have hslash : (c == '/') = false := beq_false_of_toNat (by simp; omega)
  have hletter : isLetter c = false := by
    refine Bool.eq_false_iff.2 fun hc => ?_
    have := toNat_of_isLetter hc
    omega
  unfold firstSegment
  rw [isBlank_of_printing (by omega) (by omega), hbrace, hparen, hslash, hletter, h]
  rfl

/-- A blank begins no exponent. -/
theorem exponent_blank (rest : List Char) : exponent (' ' :: rest) = ([], ' ' :: rest) := by
  unfold exponent
  split
  · rename_i e s d cs h
    obtain ⟨rfl, rfl⟩ := List.cons.inj h
    rfl
  · rename_i e d h
    obtain ⟨rfl, rfl⟩ := List.cons.inj h
    rfl
  · rfl

/-- Digits before a blank are an integer. -/
theorem numeral_integer {ds : List Char} (h : IsDigits ds) (rest : List Char) :
    numeral (ds ++ ' ' :: rest)
      = (⟨ds, some (.integer (String.ofList ds))⟩, ' ' :: rest) := by
  have hstop : Char.isDigit ' ' = false := by decide
  have hfraction : fraction (' ' :: rest) = ([], ' ' :: rest) := by
    cases rest <;> rfl
  simp only [numeral, takeWhile_append_of_stop h.2 hstop, dropWhile_append_of_stop h.2 hstop,
    hfraction, exponent_blank]
  simp

/-- Digits with a point between them, before a blank, are a real. -/
theorem numeral_real {whole places : List Char} (hw : IsDigits whole) (hp : IsDigits places)
    (rest : List Char) :
    numeral (whole ++ '.' :: (places ++ ' ' :: rest))
      = (⟨whole ++ '.' :: places, some (.real (String.ofList (whole ++ '.' :: places)))⟩,
        ' ' :: rest) := by
  have hpoint : Char.isDigit '.' = false := by decide
  have hstop : Char.isDigit ' ' = false := by decide
  have hfraction : fraction ('.' :: (places ++ ' ' :: rest)) = ('.' :: places, ' ' :: rest) := by
    -- A point is part of the numeral because a digit stands behind it.
    obtain ⟨hne, hall⟩ := hp
    cases places with
    | nil => exact absurd rfl hne
    | cons d ds =>
      have hds : ∀ c ∈ ds, c.isDigit = true := fun c hc => hall c (List.mem_cons_of_mem d hc)
      rw [List.cons_append, fraction, if_pos (hall d List.mem_cons_self),
        takeWhile_append_of_stop hds hstop, dropWhile_append_of_stop hds hstop]
  simp only [numeral, takeWhile_append_of_stop hw.2 hpoint, dropWhile_append_of_stop hw.2 hpoint,
    hfraction, exponent_blank]
  simp

/-! ## Strings -/

/-- A blank ends a string that is not inside quotes. -/
theorem stringPieces_blank (rest : List Char) :
    stringPieces (' ' :: rest) = ⟨[], [], ' ' :: rest, .closed⟩ := by
  rw [stringPieces]
  · intro cs h
    simp at h
  · intro cs h
    simp at h

/-- The code of a newline inside a string is read as a newline. -/
theorem stringPieces_newlineCode (cs : List Char) :
    stringPieces ('#' :: '1' :: '0' :: '\'' :: cs)
      = (stringPieces ('\'' :: cs)).after ['#', '1', '0'] ['\n'] := by
  have hcode : ∀ c ∈ ['1', '0'], c.isDigit = true := List.all_eq_true.1 (by decide)
  have hstop : Char.isDigit '\'' = false := by decide
  have htake : ('1' :: '0' :: '\'' :: cs).takeWhile Char.isDigit = ['1', '0'] :=
    takeWhile_append_of_stop hcode hstop
  have hdrop : ('1' :: '0' :: '\'' :: cs).dropWhile Char.isDigit = '\'' :: cs :=
    dropWhile_append_of_stop hcode hstop
  have hvalue : characterOfCode? ['1', '0'] = some '\n' := by decide
  conv => lhs; rw [stringPieces]
  simp only [htake, hdrop, hvalue]

theorem stringPieces_quote {cs : List Char} {run : StringScan} (hrun : quotedRun cs = run)
    (hclosed : run.ending = .closed) :
    stringPieces ('\'' :: cs)
      = (stringPieces run.rest).after ('\'' :: run.text) run.value := by
  rw [stringPieces, hrun]
  exact if_pos hclosed

/-- Text that a run begins with is text that the string begins with. -/
theorem after_run {run pieces : StringScan} {value text rest : List Char} {ending : StringEnd}
    (h : pieces.after ('\'' :: run.text) run.value = ⟨value, '\'' :: text, rest, ending⟩)
    (t v : List Char) :
    pieces.after ('\'' :: (run.after t v).text) (run.after t v).value
      = ⟨v ++ value, '\'' :: (t ++ text), rest, ending⟩ := by
  simp only [StringScan.after, StringScan.mk.injEq, List.cons_append, List.cons.injEq,
    true_and] at h ⊢
  obtain ⟨hvalue, htext, hrest, hending⟩ := h
  refine ⟨?_, ?_, hrest, hending⟩
  · rw [List.append_assoc, hvalue]
  · rw [List.append_assoc, htext]

/-- Reading a string from inside a quoted run on, with a blank behind the string: the run is closed,
and it and the pieces behind it are the string. -/
theorem quotedRun_quotedFrom (cs rest : List Char) :
    ∃ run, quotedRun (quotedFrom cs ++ ' ' :: rest) = run ∧ run.ending = .closed
      ∧ (stringPieces run.rest).after ('\'' :: run.text) run.value
        = ⟨cs, quotedText cs, ' ' :: rest, .closed⟩ := by
  fun_induction quotedFrom cs with
  | case1 =>
    -- the end of the text: only the closing apostrophe is left
    refine ⟨⟨[], ['\''], ' ' :: rest, .closed⟩, rfl, rfl, ?_⟩
    rw [stringPieces_blank]
    rfl
  | case2 cs ih =>
    -- The run ends here, and the next one begins behind the code of the newline.
    obtain ⟨run, hrun, hclosed, hpieces⟩ := ih
    refine ⟨⟨[], ['\''], '#' :: '1' :: '0' :: '\'' :: (quotedFrom cs ++ ' ' :: rest), .closed⟩,
      rfl, rfl, ?_⟩
    simp only
    rw [stringPieces_newlineCode, stringPieces_quote hrun hclosed, hpieces]
    rfl
  | case3 cs ih =>
    -- a doubled apostrophe is one apostrophe of the text, and the run goes on
    obtain ⟨run, hrun, hclosed, hpieces⟩ := ih
    refine ⟨run.after ['\'', '\''] ['\''], ?_, hclosed, after_run hpieces _ _⟩
    rw [← hrun]
    rfl
  | case4 c cs hnewline hquote ih =>
    -- any other character stands for itself
    obtain ⟨run, hrun, hclosed, hpieces⟩ := ih
    refine ⟨run.after [c] [c], ?_, hclosed, ?_⟩
    · rw [← hrun, List.cons_append, quotedRun]
      · exact fun h => hnewline h
      · intro cs' h
        exact absurd h hquote
      · exact hquote
    · have hquoted : quotedText (c :: cs) = '\'' :: ([c] ++ quotedFrom cs) := by
        rw [quotedText, quotedFrom]
        · rfl
        · exact hnewline
        · exact hquote
      rw [hquoted]
      exact after_run hpieces [c] [c]

/-- A string as it is written is read back, from the first quote on. -/
theorem firstSegment_string (s : String) (rest : List Char) :
    firstSegment '\'' (quotedFrom s.toList ++ ' ' :: rest)
      = (⟨quotedText s.toList, some (.string s)⟩, ' ' :: rest) := by
  obtain ⟨run, hrun, hclosed, hpieces⟩ := quotedRun_quotedFrom s.toList rest
  have hscan := stringPieces_quote hrun hclosed
  rw [hpieces] at hscan
  have hliteral : firstSegment '\'' (quotedFrom s.toList ++ ' ' :: rest)
      = stringLiteral ('\'' :: (quotedFrom s.toList ++ ' ' :: rest)) := rfl
  rw [hliteral, stringLiteral, hscan]
  simp only [String.ofList_toList]

/-! ## Symbols -/

theorem firstSegment_symbol (m : Symbol) (rest : List Char) :
    ∃ c cs, m.text.toList = c :: cs
      ∧ firstSegment c (cs ++ ' ' :: rest) = (⟨c :: cs, some (.symbol m)⟩, ' ' :: rest) := by
  cases m <;> exact ⟨_, _, rfl, rfl⟩

/-! ## All lexemes -/

/-- A lexeme with a blank behind it is one segment. -/
theorem firstSegment_spelling {l : Lexeme} (h : l.Plain) (rest : List Char) :
    ∃ c cs, l.spelling = c :: cs
      ∧ firstSegment c (cs ++ ' ' :: rest) = (⟨l.spelling, some l⟩, ' ' :: rest) := by
  -- The first character settles the kind of the segment, and for numerals it is the first of their
  -- digits.
  cases l with
  | keyword w =>
    obtain ⟨c, cs, htext, hc, hcs⟩ := keyword_letters w
    refine ⟨c, cs, htext, ?_⟩
    rw [firstSegment_word hc hcs, Lexeme.spelling, ← htext, wordLexeme_keyword]
  | identifier n =>
    obtain ⟨c, cs, htext, hc, hcs⟩ := IsName.first h
    refine ⟨c, cs, htext, ?_⟩
    rw [firstSegment_word hc hcs, Lexeme.spelling, ← htext, wordLexeme_of_isName h]
  | integer d =>
    have hdigits : IsDigits d.toList := h
    have hnumeral := numeral_integer hdigits rest
    rw [Lexeme.spelling]
    cases hd : d.toList with
    | nil => exact absurd hd hdigits.1
    | cons c cs =>
      rw [hd] at hnumeral
      have hc : c.isDigit = true := hdigits.2 c (by rw [hd]; exact List.mem_cons_self)
      refine ⟨c, cs, rfl, ?_⟩
      rw [firstSegment_of_isDigit hc, ← List.cons_append, hnumeral, ← hd, String.ofList_toList]
  | real r =>
    obtain ⟨whole, places, htext, hwhole, hplaces⟩ := h
    have hnumeral := numeral_real hwhole hplaces rest
    rw [Lexeme.spelling]
    cases hw : whole with
    | nil => exact absurd hw hwhole.1
    | cons c cs =>
      rw [hw] at htext hnumeral
      have hc : c.isDigit = true := hwhole.2 c (by rw [hw]; exact List.mem_cons_self)
      refine ⟨c, cs ++ '.' :: places, htext, ?_⟩
      rw [firstSegment_of_isDigit hc, List.append_assoc, List.cons_append, ← List.cons_append,
        hnumeral, ← htext, String.ofList_toList]
  | string s => exact ⟨'\'', quotedFrom s.toList, rfl, firstSegment_string s rest⟩
  | symbol m =>
    obtain ⟨c, cs, htext, hfirst⟩ := firstSegment_symbol m rest
    refine ⟨c, cs, htext, ?_⟩
    rw [hfirst, Lexeme.spelling, htext]
  | flaw c => exact absurd h id

/-- A string is written without any newline, since newlines are written as their codes. -/
theorem not_newline_mem_quotedFrom (cs : List Char) : '\n' ∉ quotedFrom cs := by
  fun_induction quotedFrom cs with
  | case1 => decide
  | case2 cs ih => simpa using ih
  | case3 cs ih => simpa using ih
  | case4 c cs hnewline hquote ih =>
    intro hmem
    rcases List.mem_cons.1 hmem with h | h
    · exact hnewline h.symm
    · exact ih h

/-- A spelling stays on one line. -/
theorem newlines_spelling {l : Lexeme} (h : l.Plain) : newlines l.spelling = 0 := by
  have hword {c : Char} (hc : isWordPart c = true) : c ≠ '\n' := by
    rintro rfl
    exact absurd hc (by decide)
  have hdigit {c : Char} (hc : c.isDigit = true) : c ≠ '\n' := hword (isWordPart_of_isDigit hc)
  -- Words and numerals have no newline among their characters, and a string writes it as a code.
  refine List.count_eq_zero.2 fun hmem => ?_
  cases l with
  | keyword w =>
    revert hmem
    cases w <;> decide
  | identifier n =>
    obtain ⟨c, cs, htext, hc, hcs⟩ := IsName.first h
    rw [Lexeme.spelling, htext] at hmem
    rcases List.mem_cons.1 hmem with h | h
    · exact hword (isWordPart_of_isLetter hc) h.symm
    · exact hword (hcs _ h) rfl
  | integer d => exact hdigit ((show IsDigits d.toList from h).2 _ hmem) rfl
  | real r =>
    obtain ⟨whole, places, htext, hwhole, hplaces⟩ := h
    rw [Lexeme.spelling, htext] at hmem
    rcases List.mem_append.1 hmem with h | h
    · exact hdigit (hwhole.2 _ h) rfl
    · rcases List.mem_cons.1 h with h | h
      · exact absurd h (by decide)
      · exact hdigit (hplaces.2 _ h) rfl
  | string s =>
    rcases List.mem_cons.1 hmem with h | h
    · exact absurd h (by decide)
    · exact not_newline_mem_quotedFrom _ h
  | symbol m =>
    revert hmem
    cases m <;> decide
  | flaw c => exact absurd h id

theorem segments_spelling {l : Lexeme} (h : l.Plain) (rest : List Char) :
    segments (l.spelling ++ ' ' :: rest)
      = ⟨l.spelling, some l⟩ :: ⟨[' '], none⟩ :: segments rest := by
  obtain ⟨c, cs, htext, hfirst⟩ := firstSegment_spelling h rest
  have hblank : firstSegment ' ' rest = (⟨[' '], none⟩, rest) := rfl
  rw [htext, List.cons_append, segments, hfirst, htext, segments, hblank]

/-- **Lexemes that are written out are read again as they were**, all of them on the first line. -/
theorem tokenize_spelled {ls : List Lexeme} (h : ∀ l ∈ ls, l.Plain) :
    tokenize (spelled ls) = ⟨ls.map (⟨·, 1⟩), 1⟩ := by
  have htokens : tokensFrom 1 (segments (spelled ls)) = ls.map (⟨·, 1⟩) := by
    induction ls with
    | nil => rw [spelled, List.flatMap_nil, segments, tokensFrom, List.map_nil]
    | cons l ls ih =>
      have hl := h l List.mem_cons_self
      have hrest := ih fun k hk => h k (List.mem_cons_of_mem l hk)
      have hcons : spelled (l :: ls) = l.spelling ++ ' ' :: spelled ls := by
        simp [spelled]
      have hblank : newlines [' '] = 0 := by decide
      rw [hcons, segments_spelling hl, tokensFrom, tokensFrom, newlines_spelling hl, hblank]
      simp only [Nat.add_zero, hrest, List.map_cons]
  have hlines : newlines (spelled ls) = 0 := by
    refine List.count_eq_zero.2 fun hmem => ?_
    obtain ⟨l, hl, hmem⟩ := List.mem_flatMap.1 hmem
    rcases List.mem_append.1 hmem with hmem | hmem
    · exact List.count_eq_zero.1 (newlines_spelling (h l hl)) hmem
    · exact absurd (List.mem_singleton.1 hmem) (by decide)
  rw [tokenize, htokens, hlines]

end TurboBench.Pascal
