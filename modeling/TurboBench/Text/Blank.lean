/-!
White space, and the operations on text that look at nothing else: trimming, cutting into words,
and cutting off the first word.

White space is the class of Unicode's separators and white-space controls, so it includes the
four information separators U+001C to U+001F, the next-line control and the no-break space, but
neither the zero-width space nor the byte-order mark. Text is a list of characters here, because
every operation below is a recursion on it.
-/

namespace TurboBench.Text

/-- A white-space character. -/
def isBlank (c : Char) : Bool :=
  let n := c.toNat
  (0x09 ≤ n && n ≤ 0x0D) || (0x1C ≤ n && n ≤ 0x20) || n == 0x85 || n == 0xA0 || n == 0x1680
    || (0x2000 ≤ n && n ≤ 0x200A) || n == 0x2028 || n == 0x2029 || n == 0x202F || n == 0x205F
    || n == 0x3000

/-- Every character that core calls white space is white space here. -/
theorem isBlank_of_isWhitespace {c : Char} (h : c.isWhitespace = true) : isBlank c = true := by
  have : c = ' ' ∨ c = '\t' ∨ c = '\r' ∨ c = '\n' := by
    simpa [Char.isWhitespace, or_assoc] using h
  rcases this with rfl | rfl | rfl | rfl <;> decide

/-! ## Trimming -/

/-- The text without its leading white space. -/
def trimLeft (cs : List Char) : List Char :=
  cs.dropWhile isBlank

/-- The text without its trailing white space. -/
def trimRight (cs : List Char) : List Char :=
  (cs.reverse.dropWhile isBlank).reverse

/-- The text without the white space at either end. -/
def trim (cs : List Char) : List Char :=
  trimRight (trimLeft cs)

@[simp] theorem trim_nil : trim [] = [] := rfl

theorem trimLeft_cons_of_not_blank {c : Char} {cs : List Char} (h : isBlank c = false) :
    trimLeft (c :: cs) = c :: cs := by
  simp [trimLeft, h]

/-! ## Words -/

/-- The stretches of text between the characters that `p` picks out, empty ones included, so
there is one more stretch than there are such characters. -/
def pieces (p : Char → Bool) : List Char → List (List Char)
  | [] => [[]]
  | c :: cs =>
    if p c then [] :: pieces p cs
    else match pieces p cs with
      | [] => [[c]]
      | w :: ws => (c :: w) :: ws

/-- The words of a text: its longest stretches without white space. -/
def words (cs : List Char) : List (List Char) :=
  (pieces isBlank cs).filter (!·.isEmpty)

/-- The first word of a text and what follows it, without the white space between the two. -/
def firstWord (cs : List Char) : List Char × List Char :=
  let cs := trimLeft cs
  (cs.takeWhile (!isBlank ·), trimLeft (cs.dropWhile (!isBlank ·)))

/-- Words put on one line, a single blank between neighbours. -/
def unwords (ws : List (List Char)) : List Char :=
  List.intercalate [' '] ws

/-- A text has one piece at least, if only the empty one. -/
theorem pieces_ne_nil (p : Char → Bool) (cs : List Char) : pieces p cs ≠ [] := by
  induction cs with
  | nil => simp [pieces]
  | cons c cs ih =>
    unfold pieces
    split
    · simp
    · split <;> simp

/-- No piece holds a character that separates pieces. -/
theorem not_of_mem_pieces {p : Char → Bool} {cs w : List Char} (h : w ∈ pieces p cs) :
    ∀ c ∈ w, p c = false := by
  induction cs generalizing w with
  | nil => simp_all [pieces]
  | cons a cs ih =>
    unfold pieces at h
    split at h
    · rcases List.mem_cons.1 h with rfl | h
      · simp
      · exact ih h
    · rename_i ha
      split at h
      · simp_all
      · rename_i v vs hv
        rcases List.mem_cons.1 h with rfl | h
        · intro c hc
          rcases List.mem_cons.1 hc with rfl | hc
          · simpa using ha
          · exact ih (by rw [hv]; simp) c hc
        · exact ih (by rw [hv]; simp [h])

/-- Words hold no white space. -/
theorem not_blank_of_mem_words {cs w : List Char} (h : w ∈ words cs) :
    ∀ c ∈ w, isBlank c = false :=
  not_of_mem_pieces (List.mem_filter.1 h).1

/-- No word is empty. -/
theorem ne_nil_of_mem_words {cs w : List Char} (h : w ∈ words cs) : w ≠ [] := by
  simpa [words] using (List.mem_filter.1 h).2

end TurboBench.Text
