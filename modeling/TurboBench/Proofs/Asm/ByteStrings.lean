import Mathlib
import TurboBench.Proofs.Asm.BranchLines
import TurboBench.Proofs.Asm.DataItems
import TurboBench.Proofs.Asm.WordSize
import TurboBench.Proofs.Text.SmallLetters

/-!
# Byte strings

A line that defines a text as bytes is read in small letters and word by word, the text between the
quotation marks no less than what stands before it. So what is sized is not the text but the text in
small letters, with a single space in the place of every stretch of blanks: it has one character
more for each capital I with a dot, and one less for each surplus blank (`size_stringLine`).

Everything else that may stand in the text is kept together by its quotation marks, so it takes one
byte per character if and only if the two differences make up for each other
(`bytePerCharacter_iff`).
-/

set_option autoImplicit false

namespace TurboBench.Asm

open TurboBench.Text (isBlank trim trimLeft lower words unwords squeeze surplusBlanks IsCaseless
  IsSmallForm)

/-! ## Small letters -/

theorem not_caseless_of_not_blank {c : Char} (h : ¬ IsCaseless c) : isBlank c = false :=
  Bool.eq_false_iff.2 fun hblank => h (.inr hblank)

/-- Blanks get lost between blanks only. -/
theorem surplusBlanks_append_of_not_blank {as : List Char} (h : ∀ c ∈ as, isBlank c = false)
    (bs : List Char) : surplusBlanks (as ++ bs) = surplusBlanks bs := by
  induction as with
  | nil => rfl
  | cons a as ih =>
    obtain ⟨ha, has⟩ := List.forall_mem_cons.1 h
    rw [List.cons_append, surplusBlanks, if_neg (by simp [ha]), ih has, Nat.zero_add]

/-- Small letters have their blanks where the text has them. -/
theorem surplusBlanks_of_isSmallForm {cs ds : List Char} (h : IsSmallForm cs ds) :
    Text.startsBlank ds = Text.startsBlank cs ∧ surplusBlanks ds = surplusBlanks cs := by
  induction h with
  | nil => exact ⟨rfl, rfl⟩
  | @cons c cs w ds hw _ ih =>
    obtain ⟨hlength, ⟨-, rfl⟩ | ⟨hc, hall⟩⟩ := Text.smallForm_cases hw
    · refine ⟨rfl, ?_⟩
      rw [List.singleton_append, surplusBlanks, surplusBlanks, ih.1, ih.2]
    · have hne : w ≠ [] := by
        rintro rfl
        rw [List.length_nil] at hlength
        split at hlength <;> exact absurd hlength (by decide)
      have hw : ∀ d ∈ w, isBlank d = false := fun d hd => not_caseless_of_not_blank (hall d hd)
      have hc : isBlank c = false := not_caseless_of_not_blank hc
      constructor
      · obtain ⟨d, w, rfl⟩ := List.exists_cons_of_ne_nil hne
        exact (hw d List.mem_cons_self).trans hc.symm
      · rw [surplusBlanks_append_of_not_blank hw, ih.2, surplusBlanks, if_neg (by simp [hc]),
          Nat.zero_add]

theorem isCaseless_of_isQuote {q : Char} (h : isQuote q = true) : IsCaseless q := by
  simp only [isQuote, Bool.or_eq_true, beq_iff_eq] at h
  rcases h with rfl | rfl <;> exact .inl (by decide)

/-- A quotation in small letters is a quotation of the text in small letters. -/
theorem exists_lower_quotation {q : Char} (h : isQuote q = true) (cs : List Char) :
    ∃ ds, lower (q :: (cs ++ [q])) = q :: (ds ++ [q]) ∧ IsSmallForm cs ds := by
  have hq := isCaseless_of_isQuote h
  obtain ⟨xs, ys, heq, hxs, hys⟩ :=
    (Text.isSmallForm_lower ([q] ++ (cs ++ [q]))).exists_append
  obtain ⟨ds, zs, rfl, hds, hzs⟩ := hys.exists_append
  obtain rfl := hxs.eq_singleton hq
  obtain rfl := hzs.eq_singleton hq
  exact ⟨ds, heq, hds⟩

/-! ## The line -/

/-- The line that defines a text between quotation marks as bytes. -/
def stringLine (name : List Char) (q : Char) (c : List Char) : List Char :=
  name ++ ' ' :: 'd' :: 'b' :: ' ' :: q :: (c ++ [q])

/-- A word that a line can define as the name of data. -/
structure IsDataName (name : List Char) : Prop where
  ne_nil : name ≠ []
  not_blank : ∀ c ∈ name, isBlank c = false
  plain : ∀ c ∈ name, IsPlain c
  no_colon : ':' ∉ name
  not_directive : String.ofList (lower name)
    ∉ [".model", ".stack", ".code", ".data", "db", "dw", "dd"]

/-- A definition of bytes, with its name in front. -/
theorem ofWords?_define {head : List Char} (h : String.ofList head
    ∉ [".model", ".stack", ".code", ".data", "db", "dw", "dd"]) (ws : List (List Char)) :
    Directive.ofWords? (head :: ['d', 'b'] :: ws)
      = some (.define (some (String.ofList head)) .byte (unwords ws)) := by
  simp only [List.mem_cons, List.not_mem_nil, or_false, not_or] at h
  obtain ⟨hmodel, hstack, hcode, hdata, hdb, hdw, hdd⟩ := h
  have hunit : DataUnit.ofName? (String.ofList head) = none := by
    simp [DataUnit.ofName?]
  have hbyte : DataUnit.ofName? (String.ofList ['d', 'b']) = some .byte := rfl
  simp [Directive.ofWords?, hunit, hbyte]

section Line

variable {name c : List Char} {q : Char}

/-- A semicolon in a quotation opens no comment. -/
theorem beforeComment_quotation (hc : q ∉ c) (behind : List Char) :
    beforeComment (some q) (c ++ q :: behind) = c ++ q :: beforeComment none behind := by
  induction c with
  | nil => rw [List.nil_append, beforeComment, if_neg (by simp), quoteAfter, if_pos rfl]; rfl
  | cons d c ih =>
    have hd : d ≠ q := fun hd => hc (hd ▸ List.mem_cons_self)
    rw [List.cons_append, beforeComment, if_neg (by simp), quoteAfter, if_neg hd,
      ih fun hmem => hc (List.mem_cons_of_mem d hmem), List.cons_append]

/-- Nothing of a line with a string is cut off as a comment. -/
theorem stripComment_stringLine (hname : IsDataName name) (hq : isQuote q = true) (hc : q ∉ c) :
    stripComment (stringLine name q c) = stringLine name q c := by
  have hmark : q ≠ ';' := by
    rintro rfl
    exact absurd hq (by decide)
  have hword : ∀ d ∈ [' ', 'd', 'b', ' '], IsPlain d := by
    simp [IsPlain, isQuote]
  have hquoted : beforeComment none (q :: (c ++ [q])) = q :: (c ++ [q]) := by
    rw [beforeComment, if_neg fun h => hmark h.2, quoteAfter, if_pos hq, beforeComment_quotation hc,
      beforeComment]
  have hrest := beforeComment_append_of_isPlain hword (q :: (c ++ [q]))
  rw [hquoted] at hrest
  rw [stripComment, stringLine, beforeComment_append_of_isPlain hname.plain]
  exact congrArg (name ++ ·) hrest

/-- A line with a string has no blanks around it. -/
theorem trim_stringLine (hname : IsDataName name) (hq : isQuote q = true) :
    trim (stringLine name q c) = stringLine name q c := by
  have hlast : (stringLine name q c).getLast? = some q := by
    have hend : stringLine name q c = (name ++ ' ' :: 'd' :: 'b' :: ' ' :: q :: c) ++ [q] := by
      simp only [stringLine, List.append_assoc, List.cons_append]
    rw [hend, List.getLast?_concat]
  refine Text.trim_eq_self (fun d hd => ?_) fun d hd => ?_
  · rw [stringLine, List.head?_append_of_ne_nil _ hname.ne_nil] at hd
    exact hname.not_blank d (List.mem_of_mem_head? hd)
  · rw [hlast] at hd
    obtain rfl := Option.some.inj hd
    exact not_blank_of_isQuote hq

/-- The words of such a line are the name, the directive, and those of the quotation. -/
theorem words_lower_stringLine (hname : IsDataName name) :
    words (lower (stringLine name q c))
      = lower name :: ['d', 'b'] :: words (lower (q :: (c ++ [q]))) := by
  have hsmall := Text.isSmallForm_lower name
  have hne : lower name ≠ [] := fun h => hname.ne_nil (hsmall.eq_nil_iff.1 h)
  have hblank : ∀ d ∈ lower name, isBlank d = false := by
    refine fun d hd => Bool.eq_false_iff.2 fun hb => ?_
    rw [hsmall.mem_iff (.inr hb)] at hd
    rw [hname.not_blank d hd] at hb
    exact absurd hb (by decide)
  have hdb : lower ['d', 'b'] = ['d', 'b'] := by decide
  have hdb_blank : ∀ d ∈ ['d', 'b'], isBlank d = false :=
    List.forall_mem_cons.2 ⟨by decide, List.forall_mem_singleton.2 (by decide)⟩
  have hspace : isBlank ' ' = true := by decide
  have hlower : lower (stringLine name q c)
      = lower name ++ ' ' :: (['d', 'b'] ++ ' ' :: lower (q :: (c ++ [q]))) := by
    rw [stringLine, Text.lower_append_blank hspace]
    have hrest := Text.lower_append_blank hspace ['d', 'b'] (q :: (c ++ [q]))
    rw [hdb] at hrest
    exact congrArg (lower name ++ ' ' :: ·) hrest
  rw [hlower, Text.words_append_blank hne hblank hspace,
    Text.words_append_blank (List.cons_ne_nil _ _) hdb_blank hspace]

/-- The line defines the name in small letters, and its value is the quotation in small letters and
with single spaces. -/
theorem read?_stringLine (hname : IsDataName name) (hq : isQuote q = true) (hc : q ∉ c) :
    Directive.read? (stringLine name q c) = some (.define (some (String.ofList (lower name))) .byte
      (squeeze (lower (q :: (c ++ [q]))))) := by
  obtain ⟨ds, hds, -⟩ := exists_lower_quotation hq c
  have hblank : isBlank q = false := not_blank_of_isQuote hq
  have hlast : (q :: (ds ++ [q])).getLast? = some q := List.getLast?_concat (l := q :: ds)
  have hvalue : unwords (words (lower (q :: (c ++ [q])))) = squeeze (lower (q :: (c ++ [q]))) := by
    rw [hds]
    exact Text.unwords_words (by simpa using hblank) (by simpa [hlast] using hblank)
  rw [Directive.read?, stripComment_stringLine hname hq hc, trim_stringLine hname hq,
    words_lower_stringLine hname, ofWords?_define hname.not_directive, hvalue]

/-- The size of the text, with the two ways in which it differs from the number of characters. -/
theorem size_stringLine (hq : isQuote q = true) (hc : q ∉ c) (hne : c ≠ [])
    (symbol : Option String) :
    (Directive.define symbol .byte (squeeze (lower (q :: (c ++ [q]))))).dataSize + surplusBlanks c
      = c.length + c.count 'İ' := by
  obtain ⟨ds, hds, hsmall⟩ := exists_lower_quotation hq c
  have hblank : isBlank q = false := not_blank_of_isQuote hq
  have hvalue : squeeze (lower (q :: (c ++ [q]))) = q :: (squeeze ds ++ [q]) := by
    rw [hds, squeeze, hblank, if_neg Bool.false_ne_true, Text.squeeze_concat hblank]
  -- The mark is not in the text in small letters either, so it is closed where the text ends.
  have hmark : q ∉ squeeze ds := by
    intro hmem
    rcases Text.mem_squeeze hmem with rfl | hmem
    · exact absurd hblank (by decide)
    · exact hc ((hsmall.mem_iff (isCaseless_of_isQuote hq)).1 hmem)
  have harguments : arguments (q :: (squeeze ds ++ [q])) = [q :: (squeeze ds ++ [q])] := by
    have htrim := trim_quotation hq (squeeze ds)
    rw [arguments_of_unsplit (.quotation hq hmark 0) (by rw [htrim]; exact List.cons_ne_nil _ _),
      htrim]
  have hpos : 0 < (squeeze ds).length :=
    List.length_pos_iff.2 (Text.squeeze_ne_nil fun h => hne (hsmall.eq_nil_iff.1 h))
  have hsize : (Directive.define symbol .byte (squeeze (lower (q :: (c ++ [q]))))).dataSize
      = (squeeze ds).length := by
    rw [Directive.dataSize, Directive.value, Directive.unit, hvalue, harguments, itemsSize,
      itemsSize, DataUnit.size, itemSize_quotation hq, if_pos rfl]
    omega
  rw [hsize, ← (surplusBlanks_of_isSmallForm hsmall).2, Text.length_squeeze, hsmall.length_eq]

/-- The colon of a label does not stand behind the first word of the line. -/
theorem splitLabel_stringLine (hname : IsDataName name) (hq : isQuote q = true) :
    splitLabel (stringLine name q c) = (none, stringLine name q c) := by
  have hcolon : ∀ d ∈ (trimLeft ((stringLine name q c).dropWhile isLabelPart)).head?, d ≠ ':' := by
    intro d hd
    rw [stringLine, List.dropWhile_append] at hd
    split at hd
    · -- All of the name might be a label, but the word behind it follows.
      have hbehind : trimLeft ((' ' :: 'd' :: 'b' :: ' ' :: q :: (c ++ [q])).dropWhile isLabelPart)
          = 'd' :: 'b' :: ' ' :: q :: (c ++ [q]) := rfl
      rw [hbehind] at hd
      obtain rfl := Option.some.inj hd
      decide
    · rename_i hdrop
      obtain ⟨e, rest, he⟩ := List.exists_cons_of_ne_nil fun h => hdrop (List.isEmpty_iff.2 h)
      have hmem : e ∈ name := (List.dropWhile_sublist isLabelPart).subset (he ▸ List.mem_cons_self)
      rw [he, List.cons_append, Text.trimLeft_cons_of_not_blank (hname.not_blank e hmem)] at hd
      obtain rfl := Option.some.inj hd
      rintro rfl
      exact hname.no_colon hmem
  rw [← trim_stringLine hname hq] at hcolon
  rw [splitLabel_of_no_colon hcolon, trim_stringLine hname hq]

/-- The line holds nothing but the definition. -/
theorem read_stringLine (hname : IsDataName name) (hq : isQuote q = true) (hc : q ∉ c) (n : Nat) :
    SourceLine.read n (stringLine name q c) = ⟨n, stringLine name q c, none,
      .directive (.define (some (String.ofList (lower name))) .byte
        (squeeze (lower (q :: (c ++ [q])))))⟩ := by
  have hne : (stringLine name q c).isEmpty = false := by
    rw [stringLine, List.isEmpty_eq_false_iff]
    exact List.append_ne_nil_of_left_ne_nil hname.ne_nil _
  simp only [SourceLine.read, stripComment_stringLine hname hq hc, trim_stringLine hname hq,
    splitLabel_stringLine hname hq, hne, read?_stringLine hname hq hc]
  rfl

end Line

/-! ## One byte per character -/

/-- The line defines a text with one byte per character. -/
structure BytePerCharacter (name : List Char) (q : Char) (c : List Char) : Prop where
  /-- The line is read as a definition of bytes, and these are as many as the text is long. -/
  size : ∃ value, Directive.read? (stringLine name q c)
      = some (.define (some (String.ofList (lower name))) .byte value)
    ∧ (Directive.define (some (String.ofList (lower name))) .byte value).dataSize = c.length
  /-- The name stands for the offset behind the lines before. -/
  own : ∀ (pre : List SourceLine) (n : Nat),
    (Layout.of pre).defines (String.ofList (lower name)) = false →
    (Layout.of (pre ++ [SourceLine.read n (stringLine name q c)])).dataSymbols
      = (Layout.of pre).dataSymbols ++ [(String.ofList (lower name), dataBytes pre)]
  /-- The next name of data, on the first line behind it that defines one, stands for an offset that
  is larger by the length of the text. -/
  next : ∀ (pre mid : List SourceLine) (n : Nat) (l : SourceLine) (other : String) (offset : Nat),
    dataBytes mid = 0 →
    (other, offset)
      ∈ (Layout.of (pre ++ SourceLine.read n (stringLine name q c) :: mid ++ [l])).dataSymbols →
    (other, offset)
      ∉ (Layout.of (pre ++ SourceLine.read n (stringLine name q c) :: mid)).dataSymbols →
    offset = dataBytes pre + c.length

section BytePerCharacter

variable {name c : List Char} {q : Char}

/-- A size of one byte for each character means that as many characters are gained as blanks are
lost. -/
theorem eq_of_bytePerCharacter (hname : IsDataName name) (hq : isQuote q = true) (hc : q ∉ c)
    (hne : c ≠ []) (h : BytePerCharacter name q c) : c.count 'İ' = surplusBlanks c := by
  obtain ⟨value, hread, hsize⟩ := h.size
  rw [read?_stringLine hname hq hc] at hread
  cases hread
  have hlength := size_stringLine hq hc hne (some (String.ofList (lower name)))
  omega

/-- **A text between quotation marks takes one byte per character if and only if it has as many
capitals I with a dot as surplus blanks.** -/
theorem bytePerCharacter_iff (hname : IsDataName name) (hq : isQuote q = true) (hc : q ∉ c)
    (hne : c ≠ []) : BytePerCharacter name q c ↔ c.count 'İ' = surplusBlanks c := by
  refine ⟨eq_of_bytePerCharacter hname hq hc hne, fun heq => ?_⟩
  -- With equal counts, what folding adds is what squeezing takes away.
  have hsize : (Directive.define (some (String.ofList (lower name))) .byte
      (squeeze (lower (q :: (c ++ [q]))))).dataSize = c.length := by
    have hlength := size_stringLine hq hc hne (some (String.ofList (lower name)))
    omega
  refine ⟨⟨_, read?_stringLine hname hq hc, hsize⟩, fun pre n hnew => ?_,
    fun pre mid n l other offset hmid hmem hnot => ?_⟩
  · rw [Layout.of_append_singleton, Layout.next, read_stringLine hname hq hc n]
    simp only [Option.elim_none, Layout.directive, Option.elim_some, Layout.defineData, hnew,
      Layout.offset_of]
    rfl
  · have hbytes : (SourceLine.read n (stringLine name q c)).dataBytes = c.length := by
      rw [read_stringLine hname hq hc n]
      exact hsize
    have hoffset : (Layout.of (pre ++ SourceLine.read n (stringLine name q c) :: mid)).offset
        = dataBytes pre + c.length := by
      rw [Layout.offset_of, dataBytes_append, dataBytes, hbytes, hmid, Nat.add_zero]
    rw [Layout.of_append_singleton] at hmem
    rcases (Layout.data_next (Layout.of _) l).2 with hsame | ⟨added, -, hadded⟩
    · rw [hsame] at hmem
      exact absurd hmem hnot
    · rw [hadded] at hmem
      have hlast := (List.mem_append.1 hmem).resolve_left hnot
      rw [(Prod.mk.inj (List.mem_singleton.1 hlast)).2, hoffset]

end BytePerCharacter

theorem isDataName_letter : IsDataName ['x'] where
  ne_nil := List.cons_ne_nil _ _
  not_blank := List.forall_mem_singleton.2 (by decide)
  plain := List.forall_mem_singleton.2 ⟨by decide, by decide⟩
  no_colon := by decide
  not_directive := by decide

/-- Commas, semicolons, parentheses and the other quotation mark count like any character. -/
theorem bytePerCharacter_iff_marks : IsDataName ['x'] ∧ isQuote '"' = true
    ∧ '"' ∉ "it's; (1,\t2)".toList ∧ "it's; (1,\t2)".toList ≠ []
    ∧ (BytePerCharacter ['x'] '"' "it's; (1,\t2)".toList
      ↔ "it's; (1,\t2)".toList.count 'İ' = surplusBlanks "it's; (1,\t2)".toList)
    ∧ BytePerCharacter ['x'] '"' "it's; (1,\t2)".toList := by
  have hiff := bytePerCharacter_iff isDataName_letter (q := '"') (c := "it's; (1,\t2)".toList)
    (by decide) (by decide) (by decide)
  exact ⟨isDataName_letter, by decide, by decide, by decide, hiff, hiff.2 (by decide)⟩

/-- The text of `x db 'a  b'` is sized without the second of its blanks. -/
theorem not_bytePerCharacter_twoBlanks : ¬ BytePerCharacter ['x'] '\'' "a  b".toList := by
  intro h
  have heq := eq_of_bytePerCharacter isDataName_letter (by decide) (by decide) (by decide) h
  exact absurd heq (by decide)

end TurboBench.Asm
