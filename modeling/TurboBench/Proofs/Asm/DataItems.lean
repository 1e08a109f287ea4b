import Mathlib
import TurboBench.Proofs.Asm.Arguments
import TurboBench.Proofs.Text.Folding
import TurboBench.Stack

/-!
# The sizes of nested data items

Data items are atoms, quotations, and repetitions of lists of data items. `DataItem` is their syntax
and `DataItem.text` how they are written, with whatever blanks around them and between the parts of
a repetition (`Spacing`). What is written is sized by its text alone, again at each level of
parentheses: it is cut at commas, and what stands between them is told apart by its quotation marks
and by the form of a repetition.

Three things get lost on the way. A blank atom is no argument, a repetition that does not stand on
one line is taken for an atom, and repetitions nested deeper than there is room for on the stack are
not sized at all. Each of them changes the outcome (`not_dataSizeWithin_rendering`); without the
first two (`DataItem.IsReadable`) the outcome is the sum of the sizes for all that is no deeper than
the room, and nothing for the rest.

The induction is over the items. It carries that the text of an item is in one piece, not blank,
and on one line if it stands in a repetition (`IsItemText`), so that the list it stands in is cut
where the items end, and that the size of the text is the size of the item.
-/

set_option autoImplicit false

namespace TurboBench.Asm

open TurboBench.Text (isBlank isWordChar trim trimLeft)

/-! ## Syntax -/

/-- A piece of text that is neither quoted nor divided. -/
structure Atom where
  text : List Char
  unmarked : ∀ c ∈ text, IsUnmarked c

/-- A text between quotation marks of one kind, on one line. -/
structure Quotation where
  mark : Char
  text : List Char
  isQuote_mark : isQuote mark = true
  mark_not_mem : mark ∉ text
  one_line : '\n' ∉ text

/-- How often something is repeated, as a number that is not too long. -/
structure Count where
  text : List Char
  value : Nat
  radix : Radix
  isNumber : numberOf? text = some (value, radix)
  short : text.length ≤ maxImmediateLength

/-- Data items. -/
inductive DataItem where
  | atom (a : Atom)
  | quotation (q : Quotation)
  | repetition (count : Count) (items : List DataItem)

/-- Blanks on one line. -/
def IsSpace (cs : List Char) : Prop :=
  ∀ c ∈ cs, isBlank c = true ∧ c ≠ '\n'

instance : DecidablePred IsSpace := fun cs =>
  List.decidableBAll (fun c => isBlank c = true ∧ c ≠ '\n') cs

/-- How items are set apart: the blanks before and behind each item of a list, those between a count
and the word `dup`, the spelling of this word, and the blanks between it and the parenthesis. -/
structure Spacing where
  before : List Char
  behind : List Char
  gap : List Char
  dup : List Char
  opening : List Char
  before_space : IsSpace before
  behind_space : IsSpace behind
  gap_space : IsSpace gap
  opening_space : IsSpace opening
  gap_ne_nil : gap ≠ []
  toLower_dup : dup.map Char.toLower = ['d', 'u', 'p']

namespace DataItem

mutual

/-- The number of bytes of an item, in units of `unit` bytes. -/
def size (unit : Nat) : DataItem → Nat
  | atom _ => unit
  | quotation q => if unit = 1 then max q.text.length 1 else unit
  | repetition count items => count.value * totalSize unit items

/-- The number of bytes of a list of items. -/
def totalSize (unit : Nat) : List DataItem → Nat
  | [] => 0
  | item :: items => item.size unit + totalSize unit items

end

mutual

/-- The text of an item. -/
def text (s : Spacing) : DataItem → List Char
  | atom a => a.text
  | quotation q => q.mark :: (q.text ++ [q.mark])
  | repetition count items =>
    count.text ++ (s.gap ++ (s.dup ++ (s.opening ++ '(' :: ([','].intercalate (texts s items)
      ++ [')']))))

/-- The texts of items with the blanks around them. -/
def texts (s : Spacing) : List DataItem → List (List Char)
  | [] => []
  | item :: items => (s.before ++ (item.text s ++ s.behind)) :: texts s items

end

/-- A list of items as it is written, with commas between them. -/
def rendering (s : Spacing) (items : List DataItem) : List Char :=
  [','].intercalate (texts s items)

mutual

/-- How many repetitions there are inside each other. -/
def depth : DataItem → Nat
  | atom _ | quotation _ => 0
  | repetition _ items => greatestDepth items + 1

/-- How many repetitions there are inside each other in a list of items. -/
def greatestDepth : List DataItem → Nat
  | [] => 0
  | item :: items => max item.depth (greatestDepth items)

end

mutual

/-- No atom of an item is blank, and no atom that is repeated, or that stands `inside` a repetition
anyway, runs over the end of a line. -/
def IsReadable (inside : Bool) : DataItem → Prop
  | atom a => (∃ c ∈ a.text, isBlank c = false) ∧ (inside = true → '\n' ∉ a.text)
  | quotation _ => True
  | repetition _ items => AreReadable true items

/-- The same of the items of a list. -/
def AreReadable (inside : Bool) : List DataItem → Prop
  | [] => True
  | item :: items => item.IsReadable inside ∧ AreReadable inside items

end

theorem totalSize_eq_sum (unit : Nat) (items : List DataItem) :
    totalSize unit items = (items.map (size unit)).sum := by
  induction items with
  | nil => rfl
  | cons item items ih => rw [totalSize, ih, List.map_cons, List.sum_cons]

/-- A list is no deeper than a number if none of its items is. -/
theorem greatestDepth_le_iff {levels : Nat} {items : List DataItem} :
    greatestDepth items ≤ levels ↔ ∀ item ∈ items, item.depth ≤ levels := by
  induction items with
  | nil => simp [greatestDepth]
  | cons item items ih => rw [greatestDepth, max_le_iff, ih, List.forall_mem_cons]

theorem areReadable_iff {inside : Bool} {items : List DataItem} :
    AreReadable inside items ↔ ∀ item ∈ items, item.IsReadable inside := by
  induction items with
  | nil => simp [AreReadable]
  | cons item items ih => rw [AreReadable, ih, List.forall_mem_cons]

end DataItem

/-! ## Counts -/

section Characters

variable {c : Char}

/-- Digits, hexadecimal digits and the marks of hexadecimal numbers stand in words. -/
theorem isWordChar_of_isAlphanum (h : c.isAlphanum = true) : isWordChar c = true := by
  have hnat : c.toNat = c.val.toNat := rfl
  have hZ : 'Z'.val.toNat = 0x5A := rfl
  have hz : 'z'.val.toNat = 0x7A := rfl
  have h9 : '9'.val.toNat = 0x39 := rfl
  have hascii : c.toNat < 0x80 := by
    simp only [Char.isAlphanum, Char.isAlpha, Char.isUpper, Char.isLower, Char.isDigit,
      Bool.or_eq_true, Bool.and_eq_true, decide_eq_true_eq, ge_iff_le,
      UInt32.le_iff_toNat_le] at h
    omega
  rw [isWordChar, if_pos hascii, h, Bool.true_or]

theorem isAlphanum_of_isDigit (h : c.isDigit = true) : c.isAlphanum = true := by
  rw [Char.isAlphanum, h, Bool.or_true]

theorem isAlphanum_of_isHexDigit (h : isHexDigit c = true) : c.isAlphanum = true := by
  unfold isHexDigit hexDigit? at h
  split at h
  · exact isAlphanum_of_isDigit ‹_›
  · split at h
    · rename_i hsmall
      have hf : 'f' ≤ 'z' := by decide
      have hlower : c.isLower = true := by
        simpa [Char.isLower] using ⟨hsmall.1, le_trans hsmall.2 hf⟩
      rw [Char.isAlphanum, Char.isAlpha, hlower, Bool.or_true, Bool.true_or]
    · split at h
      · rename_i hcapital
        have hF : 'F' ≤ 'Z' := by decide
        have hupper : c.isUpper = true := by
          simpa [Char.isUpper] using ⟨hcapital.1, le_trans hcapital.2 hF⟩
        rw [Char.isAlphanum, Char.isAlpha, hupper, Bool.true_or, Bool.true_or]
      · exact absurd h (by simp)

theorem isWordChar_highBlanks : ∀ n ∈ Text.highBlanks,
    Text.alphanumericSpans.any (fun s => s.first ≤ n && n ≤ s.last) = false := by
  decide +kernel

theorem isWordChar_of_isBlank (h : isBlank c = true) : isWordChar c = false := by
  by_cases hc : c.toNat < 0x80
  · have hall : ∀ n < 0x80, isBlank (Char.ofNat n) = true → isWordChar (Char.ofNat n) = false := by
      decide
    have hascii := hall c.toNat hc
    rw [Char.ofNat_toNat] at hascii
    exact hascii h
  · rw [isWordChar, if_neg hc]
    exact isWordChar_highBlanks _ (Text.mem_highBlanks h hc)

theorem not_blank_of_isWordChar (h : isWordChar c = true) : isBlank c = false := by
  refine Bool.eq_false_iff.2 fun hblank => ?_
  rw [isWordChar_of_isBlank hblank] at h
  exact absurd h (by decide)

theorem isUnmarked_of_isAlphanum (h : c.isAlphanum = true) : IsUnmarked c :=
  isUnmarked_of (p := Char.isAlphanum) (by decide) h

end Characters

/-- Numbers are words of ASCII letters and digits. -/
theorem isAlphanum_of_numberOf? {cs : List Char} {n : Nat × Radix} (h : numberOf? cs = some n) :
    cs ≠ [] ∧ ∀ c ∈ cs, c.isAlphanum = true := by
  unfold numberOf? at h
  split at h
  case isTrue hdecimal =>
    exact ⟨hdecimal.1, fun c hc => isAlphanum_of_isDigit (List.all_eq_true.1 hdecimal.2 c hc)⟩
  split at h
  case h_1 => exact absurd h (by simp)
  case h_2 c rest _ =>
  refine ⟨List.cons_ne_nil c rest, ?_⟩
  split at h
  case isTrue hmarked =>
    obtain ⟨hc, hmark, hdigits⟩ := hmarked
    refine List.forall_mem_cons.2 ⟨isAlphanum_of_isDigit hc, fun d hd => ?_⟩
    -- The mark is the last character of the rest.
    have hlast (mark : Char) (hm : rest.getLast? = some mark) (halpha : mark.isAlphanum = true) :
        d.isAlphanum = true := by
      rw [← List.dropLast_append_getLast? mark hm] at hd
      rcases List.mem_append.1 hd with hd | hd
      · exact isAlphanum_of_isHexDigit (List.all_eq_true.1 hdigits d hd)
      · rwa [List.mem_singleton.1 hd]
    exact hmark.elim (fun hm => hlast 'h' hm (by decide)) fun hm => hlast 'H' hm (by decide)
  split at h
  case h_2 => exact absurd h (by simp)
  case h_1 x digits _ =>
  split at h
  case isFalse => exact absurd h (by simp)
  case isTrue hprefixed =>
    obtain ⟨hx, -, hdigits⟩ := hprefixed
    refine List.forall_mem_cons.2 ⟨by decide, List.forall_mem_cons.2 ⟨?_, fun d hd =>
      isAlphanum_of_isHexDigit (List.all_eq_true.1 hdigits d hd)⟩⟩
    rcases hx with rfl | rfl <;> decide

namespace Count

variable (count : Count)

theorem text_ne_nil : count.text ≠ [] :=
  (isAlphanum_of_numberOf? count.isNumber).1

theorem isAlphanum : ∀ c ∈ count.text, c.isAlphanum = true :=
  (isAlphanum_of_numberOf? count.isNumber).2

theorem isWordChar : ∀ c ∈ count.text, isWordChar c = true :=
  fun c hc => isWordChar_of_isAlphanum (count.isAlphanum c hc)

theorem immediate?_text : immediate? count.text = some (count.value, count.radix) := by
  have htrim : trim count.text = count.text :=
    Text.trim_of_no_blank fun c hc => not_blank_of_isWordChar (count.isWordChar c hc)
  rw [immediate?, htrim, if_neg (Nat.not_lt.2 count.short), count.isNumber]

end Count

/-! ## Forms of items -/

section Forms

variable {item count gap dup opening inner : List Char}

theorem isQuoted_of_head (h : ∀ c ∈ item.head?, isQuote c = false) : isQuoted item = false := by
  cases item with
  | nil => rfl
  | cons c rest => rw [isQuoted, h c rfl, Bool.false_and]

theorem isQuoted_quotation {q : Char} (h : isQuote q = true) (cs : List Char) :
    isQuoted (q :: (cs ++ [q])) = true := by
  rw [isQuoted, h, List.getLast?_concat, beq_self_eq_true, Bool.true_and]

theorem trim_quotation {q : Char} (h : isQuote q = true) (cs : List Char) :
    trim (q :: (cs ++ [q])) = q :: (cs ++ [q]) := by
  have hlast : (q :: (cs ++ [q])).getLast? = some q := List.getLast?_concat (l := q :: cs)
  have hblank : isBlank q = false := not_blank_of_isQuote h
  exact Text.trim_eq_self (by simpa using hblank) (by simpa [hlast] using hblank)

/-- The quotation marks are no part of the text. -/
theorem itemSize_quotation {q : Char} (h : isQuote q = true) (cs : List Char) (unit : Nat) :
    itemSize unit (q :: (cs ++ [q])) = if unit = 1 then max cs.length 1 else unit := by
  have hlength : (q :: (cs ++ [q])).length - 2 = cs.length := by simp
  rw [itemSize_of_isQuoted (isQuoted_quotation h cs), hlength]

theorem sublist_of_afterDup? {cs rest : List Char} (h : afterDup? cs = some rest) :
    rest.Sublist cs := by
  unfold afterDup? at h
  split at h
  · rename_i d u p rest'
    split at h
    · obtain rfl := Option.some.inj h
      exact ((List.sublist_cons_self p _).cons u).cons d
    · exact absurd h (by simp)
  · exact absurd h (by simp)

/-- A repetition has a parenthesis. -/
theorem repetition?_of_not_mem (h : '(' ∉ item) : repetition? item = none := by
  refine Option.eq_none_iff_forall_not_mem.2 fun parts hparts => h ?_
  rw [Option.mem_def] at hparts
  unfold repetition? at hparts
  simp only at hparts
  split at hparts
  · exact absurd hparts (by simp)
  · split at hparts
    · rename_i body hbody
      obtain ⟨rest, hrest, htrim⟩ := Option.map_eq_some_iff.1 hbody
      have hopen : '(' ∈ trimLeft rest := by
        rw [htrim]
        exact List.mem_cons_self
      have hsub : (trimLeft rest).Sublist item :=
        (List.dropWhile_sublist _).trans <| (sublist_of_afterDup? hrest).trans <|
          (List.dropWhile_sublist _).trans (List.dropWhile_sublist _)
      exact hsub.subset hopen
    · exact absurd hparts (by simp)

theorem afterDup?_append (h : dup.map Char.toLower = ['d', 'u', 'p']) (rest : List Char) :
    afterDup? (dup ++ rest) = some rest := by
  obtain ⟨d, dup, rfl, hd, hdup⟩ := List.map_eq_cons_iff.1 h
  obtain ⟨u, dup, rfl, hu, hdup⟩ := List.map_eq_cons_iff.1 hdup
  obtain ⟨p, dup, rfl, hp, hdup⟩ := List.map_eq_cons_iff.1 hdup
  obtain rfl := List.map_eq_nil_iff.1 hdup
  exact if_pos ⟨hd, hu, hp⟩

/-- A text of the form of a repetition is taken apart into its count and its items. -/
theorem repetition?_eq (hne : count ≠ []) (hcount : ∀ c ∈ count, isWordChar c = true)
    (hgap : ∀ c ∈ gap, isBlank c = true) (hgap_ne : gap ≠ [])
    (hdup : dup.map Char.toLower = ['d', 'u', 'p']) (hopening : ∀ c ∈ opening, isBlank c = true)
    (hline : '\n' ∉ inner) :
    repetition? (count ++ (gap ++ (dup ++ (opening ++ '(' :: (inner ++ [')'])))))
      = some (count, inner) := by
  set behind := opening ++ '(' :: (inner ++ [')']) with hbehind
  -- Each part ends where the next begins: the count at a blank, the blanks at a letter, and the
  -- word at the parenthesis.
  have hhead : ∀ c ∈ (gap ++ (dup ++ behind)).head?, isBlank c = true := by
    intro c hc
    rw [List.head?_append_of_ne_nil _ hgap_ne] at hc
    exact hgap c (List.mem_of_mem_head? hc)
  have hstop : ∀ c ∈ (gap ++ (dup ++ behind)).head?, isWordChar c = false :=
    fun c hc => isWordChar_of_isBlank (hhead c hc)
  have hany : (gap ++ (dup ++ behind)).head?.any isBlank = true := by
    obtain ⟨b, more, rfl⟩ := List.exists_cons_of_ne_nil hgap_ne
    exact hgap b List.mem_cons_self
  have hword : trimLeft (gap ++ (dup ++ behind)) = dup ++ behind := by
    refine Text.dropWhile_append_of_head hgap fun c hc => ?_
    obtain ⟨d, more, rfl, hd, -⟩ := List.map_eq_cons_iff.1 hdup
    obtain rfl : d = c := Option.some.inj hc
    rw [← Text.isBlank_toLower, hd]
    decide
  have hparenthesis : trimLeft behind = '(' :: (inner ++ [')']) :=
    Text.dropWhile_append_of_stop hopening (by decide)
  have hlast : (inner ++ [')']).getLast? = some ')' ∧ '\n' ∉ inner ++ [')'] :=
    ⟨List.getLast?_concat, by simpa using hline⟩
  simp only [repetition?, Text.takeWhile_append_of_head hcount hstop,
    Text.dropWhile_append_of_head hcount hstop, List.isEmpty_iff, hne, hany, hword,
    afterDup?_append hdup, Option.map_some, hparenthesis, if_pos hlast, List.dropLast_concat]
  simp

end Forms

/-! ## Texts of items -/

/-- What the text of an item has to be for the item to be found in a list. Only in a repetition does
it matter that it stands on one line. -/
structure IsItemText (inside : Bool) (cs : List Char) : Prop where
  unsplit : ∀ depth : Int, 0 ≤ depth → Unsplit depth cs
  not_blank : ∃ c ∈ cs, isBlank c = false
  one_line : inside = true → '\n' ∉ cs

namespace IsItemText

variable {inside : Bool} {cs before behind : List Char}

/-- Blanks around an item do no harm. -/
theorem padded (h : IsItemText inside cs) (hbefore : IsSpace before) (hbehind : IsSpace behind) :
    IsItemText inside (before ++ (cs ++ behind)) where
  unsplit depth hdepth :=
    (Unsplit.of_blanks (fun c hc => (hbefore c hc).1) depth).append <|
      (h.unsplit depth hdepth).append (.of_blanks (fun c hc => (hbehind c hc).1) depth)
  not_blank := by
    obtain ⟨c, hc, hblank⟩ := h.not_blank
    exact ⟨c, by simp [hc], hblank⟩
  one_line hinside hmem := by
    rcases List.mem_append.1 hmem with hmem | hmem
    · exact (hbefore _ hmem).2 rfl
    · refine (List.mem_append.1 hmem).elim (h.one_line hinside) fun hmem => ?_
      exact (hbehind _ hmem).2 rfl

theorem trim_ne_nil (h : IsItemText inside cs) : trim cs ≠ [] := by
  obtain ⟨c, hc, hblank⟩ := h.not_blank
  exact List.ne_nil_of_mem (Text.mem_trim_of_not_blank hc hblank)

end IsItemText

theorem mem_intercalate {c : Char} {sep : List Char} {ts : List (List Char)}
    (h : c ∈ sep.intercalate ts) : c ∈ sep ∨ ∃ t ∈ ts, c ∈ t := by
  induction ts with
  | nil => exact absurd h List.not_mem_nil
  | cons t ts ih =>
    cases ts with
    | nil =>
      rw [List.intercalate_singleton] at h
      exact .inr ⟨t, List.mem_cons_self, h⟩
    | cons u us =>
      rw [List.intercalate_cons_cons, List.append_assoc] at h
      rcases List.mem_append.1 h with h | h
      · exact .inr ⟨t, List.mem_cons_self, h⟩
      · refine (List.mem_append.1 h).elim .inl fun h => (ih h).imp_right ?_
        exact fun ⟨v, hv, hc⟩ => ⟨v, List.mem_cons_of_mem t hv, hc⟩

/-- A quotation protects whatever is in it. -/
theorem isItemText_quotation (inside : Bool) (q : Quotation) :
    IsItemText inside (q.mark :: (q.text ++ [q.mark])) where
  unsplit depth _ := .quotation q.isQuote_mark q.mark_not_mem depth
  not_blank := ⟨q.mark, List.mem_cons_self, not_blank_of_isQuote q.isQuote_mark⟩
  one_line _ hmem := by
    have hmark : '\n' ≠ q.mark := fun heq => absurd (heq ▸ q.isQuote_mark) (by decide)
    have hline := q.one_line
    simp_all

section Repetitions

variable (s : Spacing) (count : Count) {ts : List (List Char)}

theorem Spacing.isAlphanum_dup : ∀ c ∈ s.dup, c.isAlphanum = true := by
  intro c hc
  have hmem := List.mem_map_of_mem (f := Char.toLower) hc
  rw [s.toLower_dup] at hmem
  rw [← Text.apply_toLower (p := Char.isAlphanum) (by decide) c]
  exact List.all_eq_true.1 (by decide : ['d', 'u', 'p'].all Char.isAlphanum = true) _ hmem

/-- The text of a repetition of items with the given texts. -/
def repetitionText (ts : List (List Char)) : List Char :=
  count.text ++ (s.gap ++ (s.dup ++ (s.opening ++ '(' :: ([','].intercalate ts ++ [')']))))

theorem newline_not_mem_intercalate (h : ∀ t ∈ ts, IsItemText true t) :
    '\n' ∉ [','].intercalate ts := by
  intro hmem
  rcases mem_intercalate hmem with hmem | ⟨t, ht, hmem⟩
  · exact absurd (List.mem_singleton.1 hmem) (by decide)
  · exact (h t ht).one_line rfl hmem

/-- The parentheses of a repetition protect the commas between its items, and all of it stands on
one line if the items do. -/
theorem isItemText_repetitionText (inside : Bool) (h : ∀ t ∈ ts, IsItemText true t) :
    IsItemText inside (repetitionText s count ts) where
  unsplit depth hdepth := by
    have hword {cs : List Char} (hcs : ∀ c ∈ cs, c.isAlphanum = true) : Unsplit depth cs :=
      .of_unmarked (fun c hc => isUnmarked_of_isAlphanum (hcs c hc)) depth
    have hspace {cs : List Char} (hcs : IsSpace cs) : Unsplit depth cs :=
      .of_blanks (fun c hc => (hcs c hc).1) depth
    have hitems : Unsplit (depth + 1) ([','].intercalate ts) :=
      .intercalate (by omega) fun t ht => (h t ht).unsplit (depth + 1) (by omega)
    exact (hword count.isAlphanum).append <| (hspace s.gap_space).append <|
      (hword s.isAlphanum_dup).append <| (hspace s.opening_space).append hitems.parentheses
  not_blank := by
    obtain ⟨c, rest, hc⟩ := List.exists_cons_of_ne_nil count.text_ne_nil
    have hmem : c ∈ count.text := hc ▸ List.mem_cons_self
    exact ⟨c, List.mem_append_left _ hmem, not_blank_of_isWordChar (count.isWordChar c hmem)⟩
  one_line _ := by
    have hword {cs : List Char} (hcs : ∀ c ∈ cs, c.isAlphanum = true) : '\n' ∉ cs :=
      fun hmem => absurd (hcs _ hmem) (by decide)
    have hspace {cs : List Char} (hcs : IsSpace cs) : '\n' ∉ cs := fun hmem => (hcs _ hmem).2 rfl
    simp [repetitionText, hword count.isAlphanum, hword s.isAlphanum_dup, hspace s.gap_space,
      hspace s.opening_space, newline_not_mem_intercalate h]

end Repetitions

namespace DataItem

variable (s : Spacing)

mutual

/-- The text of an item that can be read is found where it ends. -/
theorem isItemText_text (inside : Bool) :
    ∀ item : DataItem, item.IsReadable inside → IsItemText inside (item.text s)
  | atom a => fun h => ⟨fun depth _ => .of_unmarked a.unmarked depth, h.1, h.2⟩
  | quotation q => fun _ => isItemText_quotation inside q
  | repetition count items => fun h =>
    isItemText_repetitionText s count inside (isItemText_texts true items h)

theorem isItemText_texts (inside : Bool) :
    ∀ items : List DataItem, AreReadable inside items → ∀ t ∈ texts s items, IsItemText inside t
  | [] => fun _ _ ht => absurd ht List.not_mem_nil
  | item :: items => fun h => List.forall_mem_cons.2
    ⟨(isItemText_text inside item h.1).padded s.before_space s.behind_space,
      isItemText_texts inside items h.2⟩

end

/-- The items of a list are its arguments. -/
theorem arguments_rendering {inside : Bool} {items : List DataItem} (h : AreReadable inside items) :
    arguments (rendering s items) = (texts s items).map trim := by
  have htexts := isItemText_texts s inside items h
  rw [rendering, arguments_intercalate fun t ht => (htexts t ht).unsplit 0 (Int.le_refl 0)]
  refine List.filter_eq_self.2 (List.forall_mem_map.2 fun t ht => ?_)
  simp [(htexts t ht).trim_ne_nil]

/-! ## Sizes of texts -/

/-- Without a quotation mark and without a parenthesis there is one unit. -/
theorem itemSizeWithin_trim_atom (a : Atom) (unit levels : Nat) :
    itemSizeWithin unit levels (trim a.text) = some unit := by
  have hmem (c : Char) (hc : c ∈ trim a.text) : IsUnmarked c :=
    a.unmarked c ((Text.trim_sublist a.text).subset hc)
  have hq : isQuoted (trim a.text) = false :=
    isQuoted_of_head fun c hc => (hmem c (List.mem_of_mem_head? hc)).1
  have hr : repetition? (trim a.text) = none :=
    repetition?_of_not_mem fun hopen => (hmem _ hopen).2.2.1 rfl
  rw [itemSizeWithin_of_flat (.inr hr), itemSize_of_atom hq hr]

/-- The quotation marks are no part of the text, and what is in it does not count as anything
else. -/
theorem itemSizeWithin_trim_quotation (q : Quotation) (unit levels : Nat) :
    itemSizeWithin unit levels (trim (q.mark :: (q.text ++ [q.mark])))
      = some (if unit = 1 then max q.text.length 1 else unit) := by
  rw [trim_quotation q.isQuote_mark,
    itemSizeWithin_of_flat (.inl (isQuoted_quotation q.isQuote_mark q.text)),
    itemSize_quotation q.isQuote_mark]

/-- A repetition is taken apart into its count and the list of its items. -/
theorem repetition?_trim_repetitionText (count : Count) {ts : List (List Char)}
    (h : ∀ t ∈ ts, IsItemText true t) :
    isQuoted (trim (repetitionText s count ts)) = false
      ∧ repetition? (trim (repetitionText s count ts))
        = some (count.text, [','].intercalate ts) := by
  -- The text begins with the count and ends with a parenthesis, so it is neither trimmed nor taken
  -- for a quotation.
  have hhead : ∀ c ∈ (repetitionText s count ts).head?, c ∈ count.text := by
    intro c hc
    rw [repetitionText, List.head?_append_of_ne_nil _ count.text_ne_nil] at hc
    exact List.mem_of_mem_head? hc
  have hend : repetitionText s count ts = (count.text ++ (s.gap ++ (s.dup ++ (s.opening
      ++ '(' :: [','].intercalate ts)))) ++ [')'] := by
    simp only [repetitionText, List.append_assoc, List.cons_append]
  have hlast : (repetitionText s count ts).getLast? = some ')' := by
    rw [hend, List.getLast?_concat]
  have htrim : trim (repetitionText s count ts) = repetitionText s count ts := by
    refine Text.trim_eq_self (fun c hc => ?_) fun c hc => ?_
    · exact not_blank_of_isWordChar (count.isWordChar c (hhead c hc))
    · rw [hlast] at hc
      obtain rfl := Option.some.inj hc
      decide
  have hquoted : isQuoted (repetitionText s count ts) = false :=
    isQuoted_of_head fun c hc => (isUnmarked_of_isAlphanum (count.isAlphanum c (hhead c hc))).1
  have hparts := repetition?_eq count.text_ne_nil count.isWordChar
    (fun c hc => (s.gap_space c hc).1) s.gap_ne_nil s.toLower_dup
    (fun c hc => (s.opening_space c hc).1) (newline_not_mem_intercalate h)
  rw [htrim]
  exact ⟨hquoted, hparts⟩

mutual

/-- **The text of an item has the size of the item**, if there is room for it. -/
theorem itemSizeWithin_text (unit levels : Nat) (inside : Bool) :
    ∀ item : DataItem, item.IsReadable inside →
      itemSizeWithin unit levels (trim (item.text s))
        = if item.depth ≤ levels then some (item.size unit) else none
  | atom a => fun _ => by
    rw [depth, if_pos (Nat.zero_le levels)]
    exact itemSizeWithin_trim_atom a unit levels
  | quotation q => fun _ => by
    rw [depth, if_pos (Nat.zero_le levels)]
    exact itemSizeWithin_trim_quotation q unit levels
  | repetition count items => fun h => by
    obtain ⟨hq, hr⟩ := repetition?_trim_repetitionText s count (isItemText_texts s true items h)
    cases levels with
    | zero =>
      rw [depth, if_neg (Nat.not_succ_le_zero _)]
      exact itemSizeWithin_zero hq hr unit
    | succ levels =>
      -- One level is for the repetition, the rest for its items.
      have hitems := sumOfSizes_texts unit levels true items h
      rw [← arguments_rendering s h, rendering] at hitems
      refine (itemSizeWithin_succ hq hr unit levels).trans ?_
      rw [hitems, count.immediate?_text, depth]
      by_cases hdepth : greatestDepth items ≤ levels
      · rw [if_pos hdepth, if_pos (Nat.succ_le_succ hdepth)]
        rfl
      · rw [if_neg hdepth, if_neg (mt Nat.le_of_succ_le_succ hdepth)]
        rfl

theorem sumOfSizes_texts (unit levels : Nat) (inside : Bool) :
    ∀ items : List DataItem, AreReadable inside items →
      sumOfSizes (itemSizeWithin unit levels) ((texts s items).map trim)
        = if greatestDepth items ≤ levels then some (totalSize unit items) else none
  | [] => fun _ => by
    rw [greatestDepth, if_pos (Nat.zero_le levels)]
    rfl
  | item :: items => fun h => by
    have hitem := itemSizeWithin_text unit levels inside item h.1
    have hitems := sumOfSizes_texts unit levels inside items h.2
    rw [texts, List.map_cons, sumOfSizes,
      Text.trim_blanks_append fun c hc => (s.before_space c hc).1,
      Text.trim_append_blanks fun c hc => (s.behind_space c hc).1, hitem, hitems, greatestDepth]
    by_cases hdepth : item.depth ≤ levels
    · by_cases hdepths : greatestDepth items ≤ levels
      · simp [hdepth, hdepths, totalSize]
      · simp [hdepth, hdepths]
    · simp [hdepth]

end

/-- **A definition of data takes the sum of the sizes of its items**, however they are nested and
set apart, if there is room on the stack for the deepest of them; there is no outcome if there is
not. -/
theorem dataSizeWithin_rendering (symbol : Option String) (unit : DataUnit) (levels : Nat)
    {items : List DataItem} (h : ∀ item ∈ items, item.IsReadable false) :
    (Directive.define symbol unit (rendering s items)).dataSizeWithin levels
      = if ∀ item ∈ items, item.depth ≤ levels then some (items.map (size unit.size)).sum
        else none := by
  have hread := areReadable_iff.2 h
  simp only [Directive.dataSizeWithin, Directive.value, Directive.unit,
    arguments_rendering s hread, sumOfSizes_texts s _ _ _ _ hread, greatestDepth_le_iff,
    totalSize_eq_sum]

/-! ## Items that get lost -/

/-- Items with as few blanks as there can be. -/
def tight : Spacing :=
  ⟨[], [], [' '], ['d', 'u', 'p'], [], by decide, by decide, by decide, by decide, by decide,
    by decide⟩

/-- A digit as an atom. -/
def digit : DataItem :=
  .atom ⟨['1'], List.forall_mem_singleton.2 (by decide)⟩

/-- Nothing at all as an atom. -/
def blank : DataItem :=
  .atom ⟨[], fun _ hc => absurd hc List.not_mem_nil⟩

/-- An atom on two lines. -/
def brokenLine : DataItem :=
  .atom ⟨['1', '\n', '1'], by simp [IsUnmarked, isQuote]⟩

/-- An item twice over. -/
def twice (item : DataItem) : DataItem :=
  .repetition ⟨['2'], 2, .decimal, by decide, by decide⟩ [item]

/-- An item in so many repetitions inside each other. -/
def nested (item : DataItem) : Nat → DataItem
  | 0 => item
  | n + 1 => twice (nested item n)

/-- There is room for a quotation with a comma and a parenthesis in it, twice over and with an atom
behind it. -/
theorem dataSizeWithin_rendering_quotation :
    let q : Quotation := ⟨'"', ['a', ',', ')'], by decide, by decide, by decide⟩
    let items := [twice (quotation q), digit]
    (∀ item ∈ items, item.IsReadable false)
      ∧ rendering tight items = "2 dup(\"a,)\"),1".toList
      ∧ (Directive.define none .byte (rendering tight items)).dataSizeWithin 1 = some 7 := by
  intro q items
  have h : ∀ item ∈ items, item.IsReadable false :=
    List.forall_mem_cons.2 ⟨⟨trivial, trivial⟩, List.forall_mem_singleton.2
      ⟨⟨'1', List.mem_singleton_self '1', by decide⟩, nofun⟩⟩
  exact ⟨h, by decide, (dataSizeWithin_rendering tight none .byte 1 h).trans (by decide)⟩

theorem depth_nested (n : Nat) : (nested digit n).depth = n := by
  induction n with
  | zero => rfl
  | succ n ih => rw [nested, twice, depth, greatestDepth, greatestDepth, ih, Nat.max_zero]

theorem isReadable_nested (inside : Bool) (n : Nat) : (nested digit n).IsReadable inside := by
  induction n generalizing inside with
  | zero =>
    refine ⟨⟨'1', List.mem_singleton_self '1', by decide⟩, fun _ hmem => ?_⟩
    exact absurd (List.mem_singleton.1 hmem) (by decide)
  | succ n ih => exact ⟨ih true, trivial⟩

/-- Items that are nested deeper than there is room for are not sized. -/
theorem dataSizeWithin_nested (levels : Nat) :
    (Directive.define none .byte
      (rendering tight [nested digit (levels + 1)])).dataSizeWithin levels = none := by
  have hread : AreReadable false [nested digit (levels + 1)] :=
    ⟨isReadable_nested false (levels + 1), trivial⟩
  have hdeep : ¬ greatestDepth [nested digit (levels + 1)] ≤ levels := by
    rw [greatestDepth, depth_nested]
    omega
  rw [Directive.dataSizeWithin, Directive.value, arguments_rendering tight hread,
    sumOfSizes_texts tight _ _ _ _ hread, if_neg hdeep]

/-- A blank atom, an atom on two lines in a repetition, and repetitions nested deeper than there is
room for: in none of these is the outcome the sum of the sizes. -/
theorem not_dataSizeWithin_rendering :
    let outcome (items : List DataItem) :=
      (Directive.define none .byte (rendering tight items)).dataSizeWithin Stack.usual.levels
    let sum (items : List DataItem) := (items.map (size 1)).sum
    (outcome [digit, blank, digit] = some 2 ∧ sum [digit, blank, digit] = 3)
      ∧ (outcome [twice brokenLine] = some 1 ∧ sum [twice brokenLine] = 2)
      ∧ outcome [nested digit (Stack.usual.levels + 1)] = none := by
  exact ⟨by decide, by decide, dataSizeWithin_nested Stack.usual.levels⟩

end DataItem

end TurboBench.Asm
