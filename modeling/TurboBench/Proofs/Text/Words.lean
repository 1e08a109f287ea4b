import Mathlib.Data.List.Basic
import Mathlib.Data.List.TakeWhile
import TurboBench.Text.Blank
import TurboBench.Text.Case

/-!
# Texts put together from words and blanks

What trimming, cutting into words and taking small letters do to a text that is known by its parts:
runs of characters of one class with something behind them, and words with blanks between them.

What is left when the words of a text are put on one line again is the text with a single space in
the place of every stretch of blanks (`squeeze`), so it is shorter by the blanks with another blank
behind them.

Blanks have no case. Those outside ASCII would be looked up in the case tables, and that they are
not in there is decided by going through them once (`highBlanks`).
-/

set_option autoImplicit false

namespace TurboBench.Text

/-! ## Runs of characters -/

section Runs

variable {p : Char → Bool} {cs rest : List Char} {d : Char}

/-- What is taken ends where the rest begins with something else. -/
theorem takeWhile_append_of_head (h : ∀ c ∈ cs, p c = true)
    (hrest : ∀ d ∈ rest.head?, p d = false) : (cs ++ rest).takeWhile p = cs := by
  rw [List.takeWhile_append_of_pos h]
  cases rest with
  | nil => rw [List.takeWhile_nil, List.append_nil]
  | cons d rest => rw [List.takeWhile_cons_of_neg (by simp [hrest d rfl]), List.append_nil]

/-- What is left begins where the rest does. -/
theorem dropWhile_append_of_head (h : ∀ c ∈ cs, p c = true)
    (hrest : ∀ d ∈ rest.head?, p d = false) : (cs ++ rest).dropWhile p = rest := by
  rw [List.dropWhile_append_of_pos h]
  cases rest with
  | nil => rfl
  | cons d rest => rw [List.dropWhile_cons_of_neg (by simp [hrest d rfl])]

theorem takeWhile_append_of_stop (h : ∀ c ∈ cs, p c = true) (hd : p d = false) :
    (cs ++ d :: rest).takeWhile p = cs :=
  takeWhile_append_of_head h (by simpa using hd)

theorem dropWhile_append_of_stop (h : ∀ c ∈ cs, p c = true) (hd : p d = false) :
    (cs ++ d :: rest).dropWhile p = d :: rest :=
  dropWhile_append_of_head h (by simpa using hd)

/-- What is left does not begin with what was dropped. -/
theorem head_dropWhile (p : Char → Bool) (cs : List Char) :
    ∀ d ∈ (cs.dropWhile p).head?, p d = false := by
  intro d hd
  have hnot := List.head?_dropWhile_not p cs
  rw [Option.mem_def.1 hd] at hnot
  simpa using hnot

end Runs

/-! ## Trimming -/

section Trimming

variable {cs : List Char}

theorem trimLeft_eq_self (h : ∀ c ∈ cs.head?, isBlank c = false) : trimLeft cs = cs := by
  cases cs with
  | nil => rfl
  | cons c cs => exact trimLeft_cons_of_not_blank (h c rfl)

theorem trimRight_eq_self (h : ∀ c ∈ cs.getLast?, isBlank c = false) : trimRight cs = cs := by
  have hreverse : cs.reverse.dropWhile isBlank = cs.reverse :=
    trimLeft_eq_self (by rwa [List.head?_reverse])
  rw [trimRight, hreverse, List.reverse_reverse]

theorem trim_eq_self (hhead : ∀ c ∈ cs.head?, isBlank c = false)
    (hlast : ∀ c ∈ cs.getLast?, isBlank c = false) : trim cs = cs := by
  rw [trim, trimLeft_eq_self hhead, trimRight_eq_self hlast]

theorem trim_of_no_blank (h : ∀ c ∈ cs, isBlank c = false) : trim cs = cs :=
  trim_eq_self (fun c hc => h c (List.mem_of_mem_head? hc))
    fun c hc => h c (List.mem_of_mem_getLast? hc)

theorem trim_blanks_append {blanks : List Char} (h : ∀ c ∈ blanks, isBlank c = true)
    (cs : List Char) : trim (blanks ++ cs) = trim cs := by
  rw [trim, trimLeft, List.dropWhile_append_of_pos h, trim, trimLeft]

theorem trimRight_append_blanks {blanks : List Char} (h : ∀ c ∈ blanks, isBlank c = true)
    (cs : List Char) : trimRight (cs ++ blanks) = trimRight cs := by
  rw [trimRight, List.reverse_append,
    List.dropWhile_append_of_pos fun c hc => h c (List.mem_reverse.1 hc), trimRight]

/-- Blanks behind a text are trimmed. -/
theorem trim_append_blanks {blanks : List Char} (h : ∀ c ∈ blanks, isBlank c = true)
    (cs : List Char) : trim (cs ++ blanks) = trim cs := by
  rw [trim, trim, trimLeft, trimLeft, List.dropWhile_append]
  split
  · rename_i hempty
    rw [List.isEmpty_iff.1 hempty, List.dropWhile_eq_nil_iff.2 h]
  · exact trimRight_append_blanks h _

/-- What is not to be dropped is not lost. -/
theorem mem_dropWhile_of_not {p : Char → Bool} {c : Char} (hc : c ∈ cs) (hp : p c = false) :
    c ∈ cs.dropWhile p := by
  rw [← List.takeWhile_append_dropWhile (p := p) (l := cs)] at hc
  rcases List.mem_append.1 hc with hc | hc
  · rw [List.mem_takeWhile_imp hc] at hp
    exact absurd hp (by decide)
  · exact hc

/-- Trimming takes nothing away that is no blank. -/
theorem mem_trim_of_not_blank {c : Char} (hc : c ∈ cs) (h : isBlank c = false) : c ∈ trim cs := by
  have hleft : c ∈ trimLeft cs := mem_dropWhile_of_not hc h
  exact List.mem_reverse.2 (mem_dropWhile_of_not (List.mem_reverse.2 hleft) h)

/-- What is left of a text has no white space in front. -/
theorem head_trim (cs : List Char) : ∀ c ∈ (trim cs).head?, isBlank c = false := by
  intro c hc
  have hprefix : trim cs <+: trimLeft cs := by
    rw [← List.reverse_suffix, trim, trimRight, List.reverse_reverse]
    exact List.dropWhile_suffix isBlank
  obtain ⟨rest, hrest⟩ := hprefix
  refine head_dropWhile isBlank cs c ?_
  rw [trimLeft] at hrest
  rw [← hrest, List.head?_append, Option.mem_def.1 hc]
  rfl

theorem getLast_trim (cs : List Char) : ∀ c ∈ (trim cs).getLast?, isBlank c = false := by
  intro c hc
  rw [trim, trimRight, List.getLast?_reverse] at hc
  exact head_dropWhile isBlank _ c hc

theorem trim_trim (cs : List Char) : trim (trim cs) = trim cs :=
  trim_eq_self (head_trim cs) (getLast_trim cs)

/-- Trimming only leaves out. -/
theorem trim_sublist (cs : List Char) : (trim cs).Sublist cs := by
  have hright : (trimRight (trimLeft cs)).reverse.Sublist (trimLeft cs).reverse := by
    rw [trimRight, List.reverse_reverse]
    exact List.dropWhile_sublist _
  exact (List.reverse_sublist.1 hright).trans (List.dropWhile_sublist _)

end Trimming

/-! ## Two words -/

section Pieces

variable {p : Char → Bool} {w cs : List Char} {b : Char}

/-- A text without a divider is one piece. -/
theorem pieces_of_not (h : ∀ c ∈ w, p c = false) : pieces p w = [w] := by
  induction w with
  | nil => rfl
  | cons c w ih =>
    obtain ⟨hc, hw⟩ := List.forall_mem_cons.1 h
    rw [pieces, hc, ih hw]
    rfl

/-- A piece ends at the first divider. -/
theorem pieces_append_of_not (h : ∀ c ∈ w, p c = false) (hb : p b = true) :
    pieces p (w ++ b :: cs) = w :: pieces p cs := by
  induction w with
  | nil => rw [List.nil_append, pieces, if_pos hb]
  | cons c w ih =>
    obtain ⟨hc, hw⟩ := List.forall_mem_cons.1 h
    rw [List.cons_append, pieces, hc, ih hw]
    rfl

/-- The first piece begins the text. -/
theorem prefix_of_pieces {ws : List (List Char)} (h : pieces p cs = w :: ws) :
    ∃ rest, cs = w ++ rest := by
  induction cs generalizing w ws with
  | nil =>
    obtain ⟨rfl, -⟩ := List.cons.inj h
    exact ⟨[], rfl⟩
  | cons c cs ih =>
    unfold pieces at h
    split at h
    · obtain ⟨rfl, -⟩ := List.cons.inj h
      exact ⟨c :: cs, rfl⟩
    · split at h
      · rename_i hnil
        exact absurd hnil (pieces_ne_nil p cs)
      · rename_i v vs hv
        obtain ⟨rfl, -⟩ := List.cons.inj h
        obtain ⟨rest, rfl⟩ := ih hv
        exact ⟨rest, rfl⟩

/-- The pieces hold nothing that is not in the text. -/
theorem mem_of_mem_pieces (hw : w ∈ pieces p cs) {c : Char} (hc : c ∈ w) : c ∈ cs := by
  induction cs generalizing w with
  | nil =>
    obtain rfl := List.mem_singleton.1 hw
    exact hc
  | cons a cs ih =>
    unfold pieces at hw
    split at hw
    · rcases List.mem_cons.1 hw with rfl | hw
      · exact absurd hc List.not_mem_nil
      · exact List.mem_cons_of_mem a (ih hw hc)
    · split at hw
      · obtain rfl := List.mem_singleton.1 hw
        exact List.mem_cons.2 (.inl (List.mem_singleton.1 hc))
      · rename_i v vs hv
        rcases List.mem_cons.1 hw with rfl | hw
        · rcases List.mem_cons.1 hc with rfl | hc
          · exact List.mem_cons_self
          · exact List.mem_cons_of_mem a (ih (hv ▸ List.mem_cons_self) hc)
        · exact List.mem_cons_of_mem a (ih (hv ▸ List.mem_cons_of_mem v hw) hc)

/-- A character that separates nothing is in one of the pieces. -/
theorem exists_mem_pieces {c : Char} (hc : c ∈ cs) (hp : p c = false) :
    ∃ w ∈ pieces p cs, c ∈ w := by
  induction cs with
  | nil => exact absurd hc List.not_mem_nil
  | cons a cs ih =>
    unfold pieces
    rcases List.mem_cons.1 hc with rfl | hc
    · rw [if_neg (by simp [hp])]
      split
      · exact ⟨_, List.mem_singleton_self _, List.mem_cons_self⟩
      · exact ⟨_, List.mem_cons_self, List.mem_cons_self⟩
    · obtain ⟨w, hw, hcw⟩ := ih hc
      split
      · exact ⟨w, List.mem_cons_of_mem _ hw, hcw⟩
      · split
        · rename_i hnil
          exact absurd hnil (pieces_ne_nil p cs)
        · rename_i v vs hv
          rw [hv] at hw
          rcases List.mem_cons.1 hw with rfl | hw
          · exact ⟨_, List.mem_cons_self, List.mem_cons_of_mem a hcw⟩
          · exact ⟨w, List.mem_cons_of_mem _ hw, hcw⟩

end Pieces

section TwoWords

variable {w v gap : List Char}

/-- Blanks in front of a text are not among its words. -/
theorem words_of_blanks (hgap : ∀ c ∈ gap, isBlank c = true) (cs : List Char) :
    words (gap ++ cs) = words cs := by
  induction gap with
  | nil => rfl
  | cons b gap ih =>
    obtain ⟨hb, hgap⟩ := List.forall_mem_cons.1 hgap
    rw [← ih hgap, words, List.cons_append, pieces, if_pos hb]
    rfl

/-- Two words with blanks between them. -/
theorem words_pair (hw : w ≠ []) (hwb : ∀ c ∈ w, isBlank c = false) (hv : v ≠ [])
    (hvb : ∀ c ∈ v, isBlank c = false) (hgap : gap ≠ []) (hblank : ∀ c ∈ gap, isBlank c = true) :
    words (w ++ (gap ++ v)) = [w, v] := by
  obtain ⟨b, more, rfl⟩ := List.exists_cons_of_ne_nil hgap
  obtain ⟨hb, hmore⟩ := List.forall_mem_cons.1 hblank
  have hlast : words (more ++ v) = [v] := by
    rw [words_of_blanks hmore, words, pieces_of_not hvb]
    simp [hv]
  rw [words] at hlast
  rw [words, List.cons_append, pieces_append_of_not hwb hb, List.filter_cons, hlast]
  simp [hw]

/-- Two words and what is between them have nothing to trim. -/
theorem trim_pair (hw : w ≠ []) (hwb : ∀ c ∈ w, isBlank c = false) (hv : v ≠ [])
    (hvb : ∀ c ∈ v, isBlank c = false) : trim (w ++ (gap ++ v)) = w ++ (gap ++ v) := by
  refine trim_eq_self (fun c hc => ?_) fun c hc => ?_
  · rw [List.head?_append_of_ne_nil _ hw] at hc
    exact hwb c (List.mem_of_mem_head? hc)
  · rw [← List.append_assoc, List.getLast?_append_of_ne_nil _ hv] at hc
    exact hvb c (List.mem_of_mem_getLast? hc)

/-- A word with blanks behind it is cut off from the text behind these. -/
theorem firstWord_append (hw : w ≠ []) (hwb : ∀ c ∈ w, isBlank c = false)
    (hv : ∀ c ∈ v.head?, isBlank c = false) (hgap : gap ≠ [])
    (hblank : ∀ c ∈ gap, isBlank c = true) : firstWord (w ++ (gap ++ v)) = (w, v) := by
  have hword : ∀ c ∈ w, (!isBlank c) = true := fun c hc => by rw [hwb c hc]; rfl
  have hstop : ∀ d ∈ (gap ++ v).head?, (!isBlank d) = false := by
    intro d hd
    rw [List.head?_append_of_ne_nil _ hgap] at hd
    rw [hblank d (List.mem_of_mem_head? hd)]
    rfl
  have hleft : trimLeft (w ++ (gap ++ v)) = w ++ (gap ++ v) := by
    refine trimLeft_eq_self fun c hc => ?_
    rw [List.head?_append_of_ne_nil _ hw] at hc
    exact hwb c (List.mem_of_mem_head? hc)
  have hbehind : trimLeft (gap ++ v) = v := dropWhile_append_of_head hblank hv
  simp only [firstWord, hleft, takeWhile_append_of_head hword hstop,
    dropWhile_append_of_head hword hstop, hbehind]

theorem firstWord_pair (hw : w ≠ []) (hwb : ∀ c ∈ w, isBlank c = false)
    (hvb : ∀ c ∈ v, isBlank c = false) (hgap : gap ≠ []) (hblank : ∀ c ∈ gap, isBlank c = true) :
    firstWord (w ++ (gap ++ v)) = (w, v) :=
  firstWord_append hw hwb (fun c hc => hvb c (List.mem_of_mem_head? hc)) hgap hblank

end TwoWords

/-! ## Words with single spaces -/

/-- Whether a text begins with a blank. -/
def startsBlank (cs : List Char) : Bool :=
  cs.head?.any isBlank

/-- The text with a single space in the place of every stretch of blanks. -/
def squeeze : List Char → List Char
  | [] => []
  | c :: cs =>
    if isBlank c then if startsBlank cs then squeeze cs else ' ' :: squeeze cs
    else c :: squeeze cs

/-- The number of blanks with another blank directly behind them. -/
def surplusBlanks : List Char → Nat
  | [] => 0
  | c :: cs => (if isBlank c ∧ startsBlank cs then 1 else 0) + surplusBlanks cs

/-- What is squeezed out are the surplus blanks. -/
theorem length_squeeze (cs : List Char) : (squeeze cs).length + surplusBlanks cs = cs.length := by
  induction cs with
  | nil => rfl
  | cons c cs ih =>
    rw [squeeze, surplusBlanks, List.length_cons, ← ih]
    by_cases hc : isBlank c = true
    · by_cases hcs : startsBlank cs = true
      · rw [if_pos hc, if_pos hcs, if_pos ⟨hc, hcs⟩]
        omega
      · rw [if_pos hc, if_neg hcs, if_neg fun h => hcs h.2, List.length_cons]
        omega
    · rw [if_neg hc, if_neg fun h => hc h.1, List.length_cons]
      omega

/-- Squeezing adds nothing but single blanks. -/
theorem mem_squeeze {cs : List Char} {c : Char} (h : c ∈ squeeze cs) : c = ' ' ∨ c ∈ cs := by
  induction cs with
  | nil => exact absurd h List.not_mem_nil
  | cons d cs ih =>
    rw [squeeze] at h
    split at h
    · split at h
      · exact (ih h).imp_right (List.mem_cons_of_mem d)
      · rcases List.mem_cons.1 h with rfl | h
        · exact .inl rfl
        · exact (ih h).imp_right (List.mem_cons_of_mem d)
    · rcases List.mem_cons.1 h with rfl | h
      · exact .inr List.mem_cons_self
      · exact (ih h).imp_right (List.mem_cons_of_mem d)

/-- Something is left of any text but the empty one. -/
theorem squeeze_ne_nil {cs : List Char} (h : cs ≠ []) : squeeze cs ≠ [] := by
  induction cs with
  | nil => exact absurd rfl h
  | cons c cs ih =>
    rw [squeeze]
    split
    · split
      · rename_i hcs
        refine ih ?_
        rintro rfl
        exact absurd hcs (by decide)
      · exact List.cons_ne_nil _ _
    · exact List.cons_ne_nil _ _

/-- A character behind the text that is no blank stays there. -/
theorem squeeze_concat {c : Char} (h : isBlank c = false) (cs : List Char) :
    squeeze (cs ++ [c]) = squeeze cs ++ [c] := by
  induction cs with
  | nil =>
    rw [List.nil_append, squeeze, List.nil_append, squeeze, h]
    rfl
  | cons d cs ih =>
    have hstarts : startsBlank (cs ++ [c]) = startsBlank cs := by
      cases cs with
      | nil => exact h
      | cons e cs => rfl
    rw [List.cons_append, squeeze, squeeze, hstarts, ih]
    split
    · split <;> rfl
    · rfl

section SingleSpaces

variable {w cs : List Char} {b c d : Char}

theorem words_append_blank (hw : w ≠ []) (hwb : ∀ c ∈ w, isBlank c = false) (hb : isBlank b = true)
    (cs : List Char) : words (w ++ b :: cs) = w :: words cs := by
  rw [words, pieces_append_of_not hwb hb]
  exact List.filter_cons_of_pos (by simp [hw])

/-- The first word of a text stands behind its leading blanks. -/
theorem exists_of_words_cons {ws : List (List Char)} (h : words cs = w :: ws) :
    ∃ gap rest, cs = gap ++ (w ++ rest) ∧ ∀ c ∈ gap, isBlank c = true := by
  induction cs with
  | nil => exact absurd h (by simp [words, pieces])
  | cons c cs ih =>
    by_cases hc : isBlank c = true
    · rw [show words (c :: cs) = words cs from
        words_of_blanks (List.forall_mem_singleton.2 hc) cs] at h
      obtain ⟨gap, rest, rfl, hgap⟩ := ih h
      exact ⟨c :: gap, rest, rfl, List.forall_mem_cons.2 ⟨hc, hgap⟩⟩
    · obtain ⟨v, vs, hv⟩ := List.exists_cons_of_ne_nil (pieces_ne_nil isBlank cs)
      have hpieces : pieces isBlank (c :: cs) = (c :: v) :: vs := by
        rw [pieces, if_neg hc, hv]
      obtain ⟨rest, hrest⟩ := prefix_of_pieces hpieces
      have hw : w = c :: v := by
        rw [words, hpieces] at h
        exact (List.cons.inj h).1.symm
      exact ⟨[], rest, by rw [hw, hrest, List.nil_append], fun _ hd => absurd hd List.not_mem_nil⟩

/-- A character in front of a word becomes its first. -/
theorem exists_words_cons (hc : isBlank c = false) (hd : isBlank d = false) (cs : List Char) :
    ∃ w ws, words (d :: cs) = w :: ws ∧ words (c :: d :: cs) = (c :: w) :: ws := by
  obtain ⟨v, vs, hv⟩ := List.exists_cons_of_ne_nil (pieces_ne_nil isBlank cs)
  refine ⟨d :: v, vs.filter (!·.isEmpty), ?_, ?_⟩
  · rw [words, pieces, hd, hv]
    rfl
  · rw [words, pieces, hc, pieces, hd, hv]
    rfl

theorem words_ne_nil (hc : c ∈ cs) (h : isBlank c = false) : words cs ≠ [] := by
  obtain ⟨w, hw, hcw⟩ := exists_mem_pieces hc h
  exact List.ne_nil_of_mem (List.mem_filter.2 ⟨hw, by simp [List.ne_nil_of_mem hcw]⟩)

theorem unwords_cons (w : List Char) {ws : List (List Char)} (h : ws ≠ []) :
    unwords (w :: ws) = w ++ ' ' :: unwords ws := by
  obtain ⟨v, vs, rfl⟩ := List.exists_cons_of_ne_nil h
  rw [unwords, List.intercalate_cons_cons, List.append_assoc, List.singleton_append, unwords]

theorem words_cons_blank (hb : isBlank b = true) (cs : List Char) : words (b :: cs) = words cs :=
  words_of_blanks (List.forall_mem_singleton.2 hb) cs

/-- A character in front of a text that does not end in a blank: it begins the first word of the
text, or it is a word of its own. -/
theorem unwords_words_cons (hc : isBlank c = false)
    (hlast : ∀ d ∈ cs.getLast?, isBlank d = false) :
    unwords (words (c :: cs))
      = c :: if startsBlank cs then ' ' :: unwords (words cs) else unwords (words cs) := by
  cases cs with
  | nil =>
    rw [words, pieces_of_not (List.forall_mem_singleton.2 hc)]
    rfl
  | cons d cs =>
    -- Behind a blank the words are those of the rest; else the first of them gets the character.
    by_cases hd : isBlank d = true
    · have hwords : words (c :: d :: cs) = [c] :: words (d :: cs) := by
        rw [words_cons_blank hd]
        exact words_append_blank (List.cons_ne_nil c []) (List.forall_mem_singleton.2 hc) hd cs
      obtain ⟨e, he⟩ : ∃ e, (d :: cs).getLast? = some e := Option.isSome_iff_exists.1 (by simp)
      have hne : words (d :: cs) ≠ [] := words_ne_nil (List.mem_of_getLast? he) (hlast e he)
      rw [if_pos (show startsBlank (d :: cs) = true from hd), hwords, unwords_cons [c] hne,
        List.singleton_append]
    · have hd : isBlank d = false := Bool.eq_false_iff.2 hd
      obtain ⟨w, ws, hw, hcw⟩ := exists_words_cons hc hd cs
      rw [if_neg (by simp [startsBlank, hd]), hw, hcw]
      cases ws with
      | nil => rfl
      | cons v vs =>
        rw [unwords_cons w (List.cons_ne_nil v vs), unwords_cons (c :: w) (List.cons_ne_nil v vs),
          List.cons_append]

/-- Putting the words of a text on one line squeezes its blanks, those in front of it apart. -/
theorem squeeze_eq (hlast : ∀ c ∈ cs.getLast?, isBlank c = false) :
    squeeze cs = if startsBlank cs then ' ' :: unwords (words cs) else unwords (words cs) := by
  induction cs with
  | nil => rfl
  | cons c cs ih =>
    have hrest : ∀ d ∈ cs.getLast?, isBlank d = false :=
      fun d hd => hlast d (List.mem_getLast?_cons hd)
    have hsqueeze := ih hrest
    by_cases hc : isBlank c = true
    · rw [squeeze, if_pos hc, if_pos (show startsBlank (c :: cs) = true from hc),
        words_cons_blank hc, hsqueeze]
      split <;> rfl
    · have hc : isBlank c = false := Bool.eq_false_iff.2 hc
      rw [squeeze, hc, if_neg Bool.false_ne_true, if_neg (by simp [startsBlank, hc]), hsqueeze,
        unwords_words_cons hc hrest]

/-- Words put together again are the text, squeezed, if no blanks are around it. -/
theorem unwords_words (hhead : ∀ c ∈ cs.head?, isBlank c = false)
    (hlast : ∀ c ∈ cs.getLast?, isBlank c = false) : unwords (words cs) = squeeze cs := by
  rw [squeeze_eq hlast, if_neg]
  cases cs with
  | nil => exact Bool.false_ne_true
  | cons c cs => simpa [startsBlank] using hhead c rfl

end SingleSpaces

/-! ## Small letters -/

/-- The blanks outside ASCII. -/
def highBlanks : List Nat :=
  [0x85, 0xA0, 0x1680, 0x2000, 0x2001, 0x2002, 0x2003, 0x2004, 0x2005, 0x2006, 0x2007, 0x2008,
    0x2009, 0x200A, 0x2028, 0x2029, 0x202F, 0x205F, 0x3000]

theorem lower_highBlanks : ∀ n ∈ highBlanks,
    lowerTexts.lookup n = none ∧ lowerRuns.find? (·.covers n) = none := by
  decide +kernel

theorem mem_highBlanks {c : Char} (h : isBlank c = true) (hc : ¬ c.toNat < 0x80) :
    c.toNat ∈ highBlanks := by
  simp only [isBlank, Bool.or_eq_true, Bool.and_eq_true, decide_eq_true_eq, beq_iff_eq] at h
  simp only [highBlanks, List.mem_cons, List.not_mem_nil]
  omega

/-- Blanks have no case. -/
theorem toLower_of_isBlank {c : Char} (h : isBlank c = true) : c.toLower = c := by
  refine dif_neg ?_
  rintro ⟨hlow, hhigh⟩
  simp only [isBlank, Bool.or_eq_true, Bool.and_eq_true, decide_eq_true_eq, beq_iff_eq] at h
  rw [ge_iff_le, UInt32.le_iff_toNat_le] at hlow
  rw [UInt32.le_iff_toNat_le] at hhigh
  have hnat : c.toNat = c.val.toNat := rfl
  have hcapitals : 'A'.val.toNat = 0x41 ∧ 'Z'.val.toNat = 0x5A := ⟨rfl, rfl⟩
  omega

/-- Blanks have no small letters of their own. -/
theorem lowerChar_of_isBlank {c : Char} (h : isBlank c = true) : lowerChar c = [c.toLower] := by
  by_cases hc : c.toNat < 0x80
  · exact lowerChar_of_ascii hc
  · obtain ⟨htexts, hruns⟩ := lower_highBlanks _ (mem_highBlanks h hc)
    rw [lowerChar, if_neg hc, mapByTables, htexts, hruns, toLower_of_isBlank h]

/-- Without letters outside ASCII, a text is put in small letters character by character. -/
theorem lower_of_ascii_or_blank {cs : List Char}
    (h : ∀ c ∈ cs, c.toNat < 0x80 ∨ isBlank c = true) : lower cs = cs.map Char.toLower := by
  have hsingle (before : List Char) : lowerAfter before cs = cs.map Char.toLower := by
    induction cs generalizing before with
    | nil => rfl
    | cons c cs ih =>
      obtain ⟨hc, hcs⟩ := List.forall_mem_cons.1 h
      have hsigma : (c == 'Σ') = false := by
        refine beq_eq_false_iff_ne.2 ?_
        rintro rfl
        exact absurd hc (by decide)
      have hchar : lowerChar c = [c.toLower] :=
        hc.elim lowerChar_of_ascii lowerChar_of_isBlank
      rw [lowerAfter, hsigma, hchar, ih hcs, List.map_cons]
      rfl
  exact hsingle []

end TurboBench.Text
