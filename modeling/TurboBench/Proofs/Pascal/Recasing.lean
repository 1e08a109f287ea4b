import Mathlib
import TurboBench.Proofs.Pascal.Pairing
import TurboBench.Proofs.Pascal.Segmentation

/-!
# Words and numerals in other letters

In the words and the numerals of a source, small letters may be put for capitals and the other way
round (`Recases`). The source is then cut into segments at the same places (`row_recased`), since
whether a text is a word, a numeral or a symbol, and where the longest one ends, is the same for all
texts that differ in case. The lexemes are the same but for the spelling of names and of real
numerals, and stand on the same lines (`tokenize_recased`).

Only letters have a case, and apart from words nothing but the mark of an exponent is spelled with
one. So a symbol, a run of digits, and what stands at the end of a comment or a string have no other
spelling.
-/

set_option autoImplicit false

namespace TurboBench.Pascal

open TurboBench.Text (isBlank takeWhile_append_of_stop dropWhile_append_of_stop)

/-! ## Characters -/

section Characters

variable {c d : Char}

theorem isAlpha_of_toLower (h : c.toLower = d.toLower) : c.isAlpha = d.isAlpha := by
  rw [← Char.isAlpha_toLower_eq_isAlpha c, h, Char.isAlpha_toLower_eq_isAlpha]

theorem toLower_of_not_isAlpha (h : c.isAlpha = false) : c.toLower = c := by
  refine Char.toLower_eq_of_not_isUpper fun hupper => ?_
  rw [Char.isAlpha, hupper] at h
  exact nomatch h

/-- A character that is no letter has one case only. -/
theorem eq_of_toLower (h : c.toLower = d.toLower) (hc : c.isAlpha = false) : c = d := by
  have hd : d.isAlpha = false := (isAlpha_of_toLower h).symm.trans hc
  rwa [toLower_of_not_isAlpha hc, toLower_of_not_isAlpha hd] at h

/-- What is the same for all letters does not depend on the case. -/
theorem congr_of_toLower {α : Sort*} {p : Char → α} {a : α}
    (hp : ∀ c, c.isAlpha = true → p c = a) (h : c.toLower = d.toLower) : p c = p d := by
  by_cases hc : c.isAlpha = true
  · rw [hp c hc, hp d ((isAlpha_of_toLower h).symm.trans hc)]
  · rw [eq_of_toLower h (Bool.eq_false_iff.2 hc)]

theorem isLetter_of_isAlpha (h : c.isAlpha = true) : isLetter c = true := by
  rw [isLetter, h, Bool.true_or]

/-- No letter is a digit. -/
theorem isDigit_of_isAlpha (h : c.isAlpha = true) : c.isDigit = false := by
  have hletter := toNat_of_isLetter (isLetter_of_isAlpha h)
  by_contra hdigit
  have hdigit := toNat_of_isDigit (Bool.not_eq_false _ ▸ hdigit)
  omega

theorem isAlpha_of_isDigit (h : c.isDigit = true) : c.isAlpha = false := by
  by_contra halpha
  rw [isDigit_of_isAlpha (by simpa using halpha)] at h
  exact nomatch h

theorem isDigit_of_toLower (h : c.toLower = d.toLower) : c.isDigit = d.isDigit :=
  congr_of_toLower (fun _ => isDigit_of_isAlpha) h

/-- What the lexer looks for at the end of a comment or a string is no letter. -/
theorem eq_iff_of_toLower {a : Char} (ha : a.isAlpha = false) (h : c.toLower = d.toLower) :
    c = a ↔ d = a := by
  constructor
  · rintro rfl
    exact (eq_of_toLower h ha).symm
  · rintro rfl
    exact (eq_of_toLower h.symm ha).symm

end Characters

/-! ## Texts -/

/-- Texts that differ at most in the case of letters. -/
def CaseAlike (x y : List Char) : Prop :=
  x.map Char.toLower = y.map Char.toLower

namespace CaseAlike

variable {x y u v : List Char} {c d : Char}

theorem refl (x : List Char) : CaseAlike x x :=
  rfl

theorem symm (h : CaseAlike x y) : CaseAlike y x :=
  Eq.symm h

theorem append (h : CaseAlike x y) (k : CaseAlike u v) : CaseAlike (x ++ u) (y ++ v) := by
  rw [CaseAlike, List.map_append, List.map_append, h, k]

theorem cons (c : Char) (h : CaseAlike x y) : CaseAlike (c :: x) (c :: y) :=
  (refl [c]).append h

theorem length_eq (h : CaseAlike x y) : x.length = y.length := by
  simpa using congrArg List.length h

theorem eq_nil (h : CaseAlike [] y) : y = [] :=
  List.map_eq_nil_iff.1 h.symm

theorem exists_cons (h : CaseAlike (c :: x) y) :
    ∃ d z, y = d :: z ∧ c.toLower = d.toLower ∧ CaseAlike x z := by
  obtain ⟨d, z, rfl, hd, hz⟩ := List.map_eq_cons_iff.1 (symm h)
  exact ⟨d, z, rfl, hd.symm, symm hz⟩

/-- A text that differs in case from two texts together is cut where they meet. -/
theorem exists_append (h : CaseAlike (x ++ u) y) :
    ∃ z w, y = z ++ w ∧ CaseAlike x z ∧ CaseAlike u w := by
  have hmap : y.map Char.toLower = x.map Char.toLower ++ u.map Char.toLower :=
    h.symm.trans List.map_append
  obtain ⟨z, w, rfl, hz, hw⟩ := List.map_eq_append_iff.1 hmap
  exact ⟨z, w, rfl, symm hz, symm hw⟩

/-- Without letters there is one case only. -/
theorem eq_of_no_letters (h : CaseAlike x y) (hx : ∀ c ∈ x, c.isAlpha = false) : x = y := by
  induction x generalizing y with
  | nil => exact h.eq_nil.symm
  | cons c x ih =>
    obtain ⟨d, z, rfl, hd, hz⟩ := h.exists_cons
    obtain ⟨hc, hx⟩ := List.forall_mem_cons.1 hx
    rw [eq_of_toLower hd hc, ih hz hx]

/-- What all characters satisfy, or none, does not depend on the case. -/
theorem forall_mem {Q : Char → Prop} (h : CaseAlike x y)
    (hQ : ∀ c d, c.toLower = d.toLower → Q c → Q d) (hx : ∀ c ∈ x, Q c) : ∀ c ∈ y, Q c := by
  intro d hd
  have hmem : d.toLower ∈ x.map Char.toLower := h ▸ List.mem_map_of_mem hd
  obtain ⟨c, hc, hcd⟩ := List.mem_map.1 hmem
  exact hQ c d hcd (hx c hc)

/-- What case cannot change of a first character holds of the other first character too. -/
theorem forall_head {Q : Char → Prop} (h : CaseAlike x y)
    (hQ : ∀ c d, c.toLower = d.toLower → Q c → Q d) (hx : ∀ c ∈ x.head?, Q c) :
    ∀ c ∈ y.head?, Q c := by
  cases x with
  | nil =>
    rw [h.eq_nil]
    exact hx
  | cons c x =>
    obtain ⟨d, z, rfl, hd, -⟩ := h.exists_cons
    intro e he
    obtain rfl := Option.some.inj he
    exact hQ c _ hd (hx c rfl)

/-- Changing case changes no newline. -/
theorem newlines_eq (h : CaseAlike x y) : newlines x = newlines y := by
  have hfold (z : List Char) : newlines (z.map Char.toLower) = newlines z := by
    induction z with
    | nil => rfl
    | cons c z ih =>
      have hc : (c.toLower == '\n') = (c == '\n') := by
        have hself : c.toLower.toLower = c.toLower := Char.toLower_toLower_eq_toLower c
        refine congr_of_toLower (p := (· == '\n')) (a := false) (fun c hc => ?_) hself
        refine beq_eq_false_iff_ne.2 ?_
        rintro rfl
        exact absurd hc (by decide)
      unfold newlines at ih ⊢
      rw [List.map_cons, List.count_cons, List.count_cons, ih, hc]
  rw [← hfold x, h, hfold]

end CaseAlike

/-! ## Kinds of text -/

section Kinds

variable {x y text text' rest rest' : List Char}

/-- A word stays a word in other letters. -/
theorem IsWord.recase (h : IsWord x) (hxy : CaseAlike x y) : IsWord y := by
  obtain ⟨c, tail, rfl, hc, htail⟩ := h
  obtain ⟨d, tail', rfl, hd, htails⟩ := hxy.exists_cons
  have hletter {c d : Char} (h : c.toLower = d.toLower) : isLetter c = isLetter d :=
    congr_of_toLower (fun _ => isLetter_of_isAlpha) h
  refine ⟨d, tail', rfl, hletter hd ▸ hc, htails.forall_mem (fun c d h hc => ?_) htail⟩
  have hpart : isWordPart c = isWordPart d :=
    congr_of_toLower (fun _ ha => isWordPart_of_isLetter (isLetter_of_isAlpha ha)) h
  exact hpart ▸ hc

theorem IsDigits.eq_of_caseAlike (h : IsDigits x) (hxy : CaseAlike x y) : x = y :=
  hxy.eq_of_no_letters fun c hc => isAlpha_of_isDigit (h.2 c hc)

/-- Symbols have no case. -/
theorem IsSymbol.eq_of_caseAlike (h : IsSymbol x) (hxy : CaseAlike x y) : x = y := by
  obtain ⟨m, rfl⟩ := h
  have hnone : m.text.toList.all (!·.isAlpha) = true := by cases m <;> decide
  refine hxy.eq_of_no_letters fun c hc => ?_
  simpa using List.all_eq_true.1 hnone c hc

theorem IsFraction.eq_of_caseAlike (h : IsFraction x) (hxy : CaseAlike x y) : x = y := by
  obtain ⟨ds, rfl, hds⟩ := h
  refine hxy.eq_of_no_letters (List.forall_mem_cons.2 ⟨by decide, fun c hc => ?_⟩)
  exact isAlpha_of_isDigit (hds.2 c hc)

/-- The mark of an exponent stays one in the other case. -/
theorem mark_recase {c d : Char} (hc : c = 'e' ∨ c = 'E') (h : c.toLower = d.toLower) :
    d = 'e' ∨ d = 'E' := by
  have hlower : d.toLower = 'e' := by
    rw [← h]
    rcases hc with rfl | rfl <;> decide
  by_cases hupper : d.isUpper = true
  · right
    have hself : d.toUpper = d :=
      Char.toUpper_eq_of_not_isLower (Char.not_isLower_of_isUpper hupper)
    rw [← hself, ← Char.toUpper_toLower_eq_toUpper, hlower]
    decide
  · left
    rwa [Char.toLower_eq_of_not_isUpper hupper] at hlower

/-- Of an exponent only its mark has a case. -/
theorem IsExponent.recase (h : IsExponent x) (hxy : CaseAlike x y) :
    IsExponent y ∧ ∃ mark mark' tail, x = mark :: tail ∧ y = mark' :: tail := by
  obtain ⟨mark, sign, ds, rfl, hmark, hsign, hds⟩ := h
  obtain ⟨mark', tail, rfl, hmarks, htails⟩ := hxy.exists_cons
  have hsame : sign ++ ds = tail := by
    refine htails.eq_of_no_letters fun c hc => ?_
    rcases List.mem_append.1 hc with hc | hc
    · rcases hsign with rfl | rfl | rfl
      · exact absurd hc List.not_mem_nil
      · rw [List.mem_singleton.1 hc]
        decide
      · rw [List.mem_singleton.1 hc]
        decide
    · exact isAlpha_of_isDigit (hds.2 c hc)
  subst hsame
  exact ⟨⟨mark', sign, ds, rfl, mark_recase hmark hmarks, hsign, hds⟩, mark, mark', _, rfl, rfl⟩

/-- What marks an exponent does not count for the value of the numeral. -/
theorem ofText_mark {whole places tail : List Char} {mark mark' : Char}
    (hwhole : ∀ d ∈ whole, d.isDigit = true) (hplaces : places = [] ∨ IsFraction places)
    (hmark : IsExponent (mark :: tail)) (hmark' : IsExponent (mark' :: tail)) :
    Decimal.Numeral.ofText (whole ++ (places ++ mark :: tail))
      = Decimal.Numeral.ofText (whole ++ (places ++ mark' :: tail)) := by
  obtain ⟨d, more, heq, hdigit, hpoint⟩ := hmark.eq_cons
  obtain ⟨rfl, -⟩ := List.cons.inj heq
  obtain ⟨d', more', heq', hdigit', hpoint'⟩ := hmark'.eq_cons
  obtain ⟨rfl, -⟩ := List.cons.inj heq'
  -- The digits end at the mark, either mark, so the same tail is read behind both.
  rcases hplaces with rfl | ⟨ds, rfl, -, hds⟩
  · simp only [List.nil_append, Decimal.Numeral.ofText,
      takeWhile_append_of_stop hwhole hdigit, dropWhile_append_of_stop hwhole hdigit,
      takeWhile_append_of_stop hwhole hdigit', dropWhile_append_of_stop hwhole hdigit']
    rcases tail with _ | ⟨c, r⟩
    · simp [hpoint, hpoint']
    · by_cases h1 : c = '-'
      · subst h1
        simp [hpoint, hpoint']
      · by_cases h2 : c = '+'
        · subst h2
          simp [hpoint, hpoint']
        · simp [hpoint, hpoint', h1, h2]
  · simp only [List.cons_append, Decimal.Numeral.ofText,
      takeWhile_append_of_stop hwhole isDigit_point, dropWhile_append_of_stop hwhole isDigit_point,
      takeWhile_append_of_stop hds hdigit, dropWhile_append_of_stop hds hdigit,
      takeWhile_append_of_stop hds hdigit', dropWhile_append_of_stop hds hdigit']
    rcases tail with _ | ⟨c, r⟩
    · rfl
    · by_cases h1 : c = '-'
      · subst h1
        rfl
      · by_cases h2 : c = '+'
        · subst h2
          rfl
        · simp [h1, h2]

/-- The same numeral with another mark is a numeral, and has the same value. -/
theorem IsNumeral.recase (h : IsNumeral x) (hxy : CaseAlike x y) :
    IsNumeral y ∧ Decimal.Numeral.ofText x = Decimal.Numeral.ofText y := by
  obtain ⟨whole, places, scale, rfl, hwhole, hplaces, hscale⟩ := h
  obtain ⟨whole', behind, rfl, hwholes, hbehind⟩ := hxy.exists_append
  obtain ⟨places', scale', rfl, hplacess, hscales⟩ := hbehind.exists_append
  obtain rfl := hwhole.eq_of_caseAlike hwholes
  obtain rfl : places = places' := by
    rcases hplaces with rfl | hplaces
    · exact hplacess.eq_nil.symm
    · exact hplaces.eq_of_caseAlike hplacess
  rcases hscale with rfl | hscale
  · obtain rfl := hscales.eq_nil
    exact ⟨⟨whole, places, [], rfl, hwhole, hplaces, .inl rfl⟩, rfl⟩
  · obtain ⟨hscale', mark, mark', tail, rfl, rfl⟩ := hscale.recase hscales
    exact ⟨⟨whole, places, _, rfl, hwhole, hplaces, .inr hscale'⟩,
      ofText_mark hwhole.2 hplaces hscale hscale'⟩

variable (htext : CaseAlike text text') (hrest : CaseAlike rest rest')

include htext hrest

/-- Of a kind that does not depend on case, the longest beginning stays the longest. -/
theorem IsLongest.recase {P : List Char → Prop} (hP : ∀ x y, P x → CaseAlike x y → P y)
    (h : IsLongest P rest text) : IsLongest P rest' text' := by
  refine ⟨hP _ _ h.kind htext, fun other hother hkind => ?_⟩
  obtain ⟨tail, htail⟩ := hother
  have hwhole : CaseAlike (other ++ tail) (text ++ rest) := htail ▸ (htext.append hrest).symm
  obtain ⟨z, w, hzw, hz, -⟩ := hwhole.exists_append
  -- A longer lexeme in the new letters would be one in the old letters too.
  have hlong := h.longest z ⟨w, hzw.symm⟩ (hP _ _ hkind hz)
  rwa [hz.length_eq, ← htext.length_eq]

end Kinds

/-! ## Segments -/

section Segments

variable {x y text text' rest rest' : List Char}

/-- A comment opens in both texts or in neither. -/
theorem OpensComment.recase (h : OpensComment x) (hxy : CaseAlike x y) : OpensComment y := by
  obtain ⟨tail, rfl | rfl | rfl⟩ := h
  · obtain ⟨d, z, rfl, hd, -⟩ := hxy.exists_cons
    rw [← eq_of_toLower hd (by decide)]
    exact ⟨z, .inl rfl⟩
  · obtain ⟨d, z, rfl, hd, hz⟩ := hxy.exists_cons
    obtain ⟨e, z, rfl, he, -⟩ := hz.exists_cons
    rw [← eq_of_toLower hd (by decide), ← eq_of_toLower he (by decide)]
    exact ⟨z, .inr (.inl rfl)⟩
  · obtain ⟨d, z, rfl, hd, hz⟩ := hxy.exists_cons
    obtain ⟨e, z, rfl, he, -⟩ := hz.exists_cons
    rw [← eq_of_toLower hd (by decide), ← eq_of_toLower he (by decide)]
    exact ⟨z, .inr (.inr rfl)⟩

/-- The pieces of a string end at the same place, whatever the case of what is behind them. -/
theorem PiecesAs.recase {value : List Char} (h : PiecesAs rest text value)
    (hrest : CaseAlike rest rest') : PiecesAs rest' text value := by
  induction h with
  | nil => exact .nil
  | quoted hinside hnext _ ih =>
    refine .quoted hinside ?_ ih
    refine ((CaseAlike.refl _).append hrest).forall_head (fun c d h hc => ?_) hnext
    exact mt (eq_iff_of_toLower (by decide) h).2 hc
  | code hdigits hcode hnext _ ih =>
    refine .code hdigits hcode ?_ ih
    refine ((CaseAlike.refl _).append hrest).forall_head (fun c d h hc => ?_) hnext
    rwa [← isDigit_of_toLower h]

/-- Lexemes that are the same but for the case of names and of the marks of exponents. -/
def Lexeme.CaseAlike : Lexeme → Lexeme → Prop :=
  Lexeme.Alike (foldName · = foldName ·) (realValue? · = realValue? ·)

/-- The lexeme is written with letters that may be small or capital. -/
def Lexeme.hasCase : Lexeme → Bool
  | .keyword _ | .identifier _ | .integer _ | .real _ => true
  | .string _ | .symbol _ | .flaw _ => false

theorem foldName_ofList (h : CaseAlike x y) :
    foldName (String.ofList x) = foldName (String.ofList y) := by
  rw [foldName, foldName, String.toList_ofList, String.toList_ofList, h]

theorem realValue?_ofList (h : Decimal.Numeral.ofText x = Decimal.Numeral.ofText y) :
    realValue? (String.ofList x) = realValue? (String.ofList y) := by
  rw [realValue?, realValue?, String.toList_ofList, String.toList_ofList, h]

/-- A word or a numeral is read in other letters as well, and what else there is, in front of other
letters. -/
theorem IsLexeme.recase {l : Lexeme} (h : IsLexeme rest text l) (htext : CaseAlike text text')
    (hrest : CaseAlike rest rest') (hkept : l.hasCase = false → text' = text) :
    ∃ l', IsLexeme rest' text' l' ∧ l.CaseAlike l' := by
  have hdigit (c d : Char) (h : c.toLower = d.toLower) (hc : c.isDigit = false) :
      d.isDigit = false :=
    (isDigit_of_toLower h).symm.trans hc
  have hnewline (c d : Char) (h : c.toLower = d.toLower) : c = '\n' → d = '\n' :=
    (eq_iff_of_toLower (by decide) h).1
  cases h with
  -- These four have a case: what is read of the new text is a lexeme of the same kind.
  | @keyword _ k h hk =>
    exact ⟨.keyword k, .keyword (h.recase htext hrest fun _ _ => IsWord.recase) (hk.trans htext),
      .refl _⟩
  | identifier h hk =>
    refine ⟨_, .identifier (h.recase htext hrest fun _ _ => IsWord.recase) fun k hk' => ?_,
      .identifier (foldName_ofList htext)⟩
    exact hk k (hk'.trans htext.symm)
  | integer h hdigits =>
    obtain rfl := hdigits.eq_of_caseAlike htext
    exact ⟨_, .integer (h.recase htext hrest fun _ _ hx hxy => (hx.recase hxy).1) hdigits, .refl _⟩
  | real h hdigits =>
    refine ⟨_, .real (h.recase htext hrest fun _ _ hx hxy => (hx.recase hxy).1) fun hdigits' => ?_,
      .real (realValue?_ofList (h.kind.recase htext).2)⟩
    exact hdigits (hdigits'.eq_of_caseAlike htext.symm ▸ hdigits')
  -- The others keep their text, and only what stands behind it is in other letters.
  | symbol h hopen =>
    obtain rfl := hkept rfl
    refine ⟨_, .symbol (h.recase htext hrest fun x y hx hxy => ?_) fun hopen' => ?_, .refl _⟩
    · exact hx.eq_of_caseAlike hxy ▸ hx
    · exact hopen (hopen'.recase (htext.append hrest).symm)
  | string h hne hstop =>
    obtain rfl := hkept rfl
    refine ⟨_, .string (h.recase hrest) hne (hrest.forall_head (fun c d h hc => ?_) hstop), .refl _⟩
    exact ⟨mt (eq_iff_of_toLower (by decide) h).2 hc.1, mt (eq_iff_of_toLower (by decide) h).2 hc.2⟩
  | openComment h hend =>
    obtain rfl := hkept rfl
    subst hend
    exact ⟨_, .openComment h hrest.eq_nil, .refl _⟩
  | openString hbefore hinside hend =>
    obtain rfl := hkept rfl
    have hbehind (inside : List Char) := CaseAlike.cons '\'' ((CaseAlike.refl inside).append hrest)
    exact ⟨_, .openString (hbefore.recase (hbehind _)) hinside (hrest.forall_head hnewline hend),
      .refl _⟩
  | characterCode hbefore hdigits hcode hend =>
    obtain rfl := hkept rfl
    have hbehind (digits : List Char) := CaseAlike.cons '#' ((CaseAlike.refl digits).append hrest)
    exact ⟨_, .characterCode (hbefore.recase (hbehind _)) hdigits hcode
      (hrest.forall_head hdigit hend), .refl _⟩
  | character hblank hletter hdigit hmark hsymbol =>
    obtain rfl := hkept rfl
    exact ⟨_, .character hblank hletter hdigit hmark hsymbol, .refl _⟩

/-- A text that the segment may be written with: its own, or that of its word or numeral in other
letters. -/
inductive Segment.Recases (s : Segment) : List Char → Prop where
  | kept : Recases s s.text
  | recased {l : Lexeme} {text : List Char} (hl : s.lexeme = some l) (hcase : l.hasCase = true)
      (h : CaseAlike s.text text) : Recases s text

theorem Segment.Recases.caseAlike {s : Segment} (h : s.Recases text) : CaseAlike s.text text := by
  cases h with
  | kept => exact .refl _
  | recased _ _ h => exact h

/-- Segments with texts and lexemes that differ at most in case. -/
structure Segment.Alike (s s' : Segment) : Prop where
  text : CaseAlike s.text s'.text
  lexeme : Option.Rel Lexeme.CaseAlike s.lexeme s'.lexeme

/-- A segment that is written in other letters, before a rest in other letters, stands there as a
segment that is alike. -/
theorem Segment.Stands.recase {s : Segment} (h : s.Stands rest) (htext : s.Recases text')
    (hrest : CaseAlike rest rest') :
    ∃ s' : Segment, s'.text = text' ∧ s'.Stands rest' ∧ s.Alike s' := by
  have hnewline (c d : Char) (h : c.toLower = d.toLower) : c = '\n' → d = '\n' :=
    (eq_iff_of_toLower (by decide) h).1
  -- Only lexemes with letters are rewritten. Of the others it matters that what follows is alike.
  cases h with
  | blank h =>
    cases htext with
    | kept => exact ⟨_, rfl, .blank h, .refl _, .none⟩
    | recased hl => exact nomatch hl
  | comment h =>
    cases htext with
    | recased hl => exact nomatch hl
    | kept =>
      refine ⟨_, rfl, .comment ?_, .refl _, .none⟩
      cases h with
      | braces h => exact .braces h
      | stars h => exact .stars h
      | oneStar => exact .oneStar
      | line h hend => exact .line h (hrest.forall_head hnewline hend)
  | @lexeme text l h =>
    have hkept : l.hasCase = false → text' = text := by
      intro hcase
      cases htext with
      | kept => rfl
      | recased hl hcase' =>
        obtain rfl := Option.some.inj hl
        rw [hcase] at hcase'
        exact nomatch hcase'
    obtain ⟨l', hl', hlexeme⟩ := h.recase htext.caseAlike hrest hkept
    exact ⟨⟨text', some l'⟩, rfl, .lexeme hl', htext.caseAlike, .some hlexeme⟩

end Segments

/-! ## Sources -/

/-- The second source differs from the first at most in the case of letters in its words and
numerals. -/
def Recases (source source' : List Char) : Prop :=
  ∃ texts, List.Forall₂ Segment.Recases (segments source) texts ∧ source' = texts.flatten

/-- A row of segments stands there in other letters as well. -/
theorem row_recased {ss : List Segment} {texts : List (List Char)} (h : Row ss [])
    (htexts : List.Forall₂ Segment.Recases ss texts) :
    ∃ ss', Row ss' [] ∧ rowText ss' = texts.flatten ∧ List.Forall₂ Segment.Alike ss ss'
      ∧ CaseAlike (rowText ss) (rowText ss') := by
  induction htexts with
  | nil => exact ⟨[], trivial, rfl, .nil, .refl _⟩
  | @cons s text ss texts hs _ ih =>
    obtain ⟨hstands, hrow⟩ := h
    obtain ⟨ss', hrow', htexts', halike, hbehind⟩ := ih hrow
    obtain ⟨s', rfl, hstands', hs'⟩ := hstands.recase hs (hbehind.append (.refl []))
    refine ⟨s' :: ss', ⟨hstands', hrow'⟩, ?_, .cons hs' halike, hs'.text.append hbehind⟩
    rw [rowText_cons, htexts', List.flatten_cons]

/-- Tokens on one line, with lexemes that differ at most in case. -/
structure Token.Alike (t t' : Token) : Prop where
  lexeme : t.lexeme.CaseAlike t'.lexeme
  line : t.line = t'.line

/-- Segments that are alike give tokens that are alike, on the same lines. -/
theorem tokensFrom_recased {ss ss' : List Segment} (h : List.Forall₂ Segment.Alike ss ss')
    (line : Nat) :
    List.Forall₂ Token.Alike (tokensFrom line ss) (tokensFrom line ss') := by
  induction h generalizing line with
  | nil => exact .nil
  | @cons s s' ss ss' hs _ ih =>
    have hlater := ih (line + newlines s.text)
    have hlexeme := hs.lexeme
    rw [tokensFrom, tokensFrom, ← hs.text.newlines_eq]
    generalize s.lexeme = o at hlexeme ⊢
    generalize s'.lexeme = o' at hlexeme ⊢
    cases hlexeme with
    | none => exact hlater
    | some halike => exact .cons ⟨halike, rfl⟩ hlater

/-- **The tokens are the same but for the spelling of names and real numerals**, on the same
lines. -/
theorem tokenize_recased {source source' : List Char} (h : Recases source source') :
    List.Forall₂ Token.Alike (tokenize source).tokens (tokenize source').tokens
      ∧ (tokenize source).endLine = (tokenize source').endLine := by
  obtain ⟨texts, htexts, rfl⟩ := h
  obtain ⟨ss', hrow, htext, halike, hsame⟩ := row_recased (row_segments source) htexts
  have hread := segments_of_row hrow
  rw [List.append_nil, htext, segments, List.append_nil] at hread
  rw [rowText_segments, htext] at hsame
  rw [tokenize, tokenize, hread]
  exact ⟨tokensFrom_recased halike 1, congrArg (1 + ·) hsame.newlines_eq⟩

end TurboBench.Pascal
