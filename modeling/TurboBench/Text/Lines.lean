/-!
Lines of text.

Two readings are needed. A listing is cut at every line boundary of Unicode, the two-character
sequence of carriage return and line feed counting as one; a file is read with the line ends of
all three common conventions turned into a line feed.
-/

namespace TurboBench.Text

/-- A character that ends a line of a listing. -/
def isLineEnd (c : Char) : Bool :=
  let n := c.toNat
  (0x0A ≤ n && n ≤ 0x0D) || (0x1C ≤ n && n ≤ 0x1E) || n == 0x85 || n == 0x2028 || n == 0x2029

/-- The lines of a text, without the characters that end them. A line end at the very end of the
text opens no further line, and an empty text has no lines. -/
def lines : List Char → List (List Char)
  | [] => []
  | '\r' :: '\n' :: cs => [] :: lines cs
  | c :: cs =>
    if isLineEnd c then [] :: lines cs
    else match lines cs with
      | [] => [[c]]
      | l :: ls => (c :: l) :: ls

/-- The text with each carriage return, alone or before a line feed, turned into a line feed. -/
def normalizeNewlines : List Char → List Char
  | [] => []
  | '\r' :: '\n' :: cs => '\n' :: normalizeNewlines cs
  | '\r' :: cs => '\n' :: normalizeNewlines cs
  | c :: cs => c :: normalizeNewlines cs

/-- Lines put one below the other, with a line feed between neighbours. -/
def joinLines (ls : List String) : String :=
  "\n".intercalate ls

/-- No line holds a line end. -/
theorem not_lineEnd_of_mem_lines {cs l : List Char} (h : l ∈ lines cs) :
    ∀ c ∈ l, isLineEnd c = false := by
  fun_induction lines cs generalizing l with
  | case1 => simp at h
  | case2 cs ih =>
    rcases List.mem_cons.1 h with rfl | h
    · simp
    · exact ih h
  | case3 c cs _ _ ih =>
    rcases List.mem_cons.1 h with rfl | h
    · simp
    · exact ih h
  | case4 c cs _ hc _ ih => simp_all
  | case5 c cs _ hc l' ls hls ih =>
    rcases List.mem_cons.1 h with rfl | h
    · intro x hx
      rcases List.mem_cons.1 hx with rfl | hx
      · simpa using hc
      · exact ih (by rw [hls]; simp) x hx
    · exact ih (by rw [hls]; simp [h])

/-- Text without carriage returns is left as it is. -/
theorem normalizeNewlines_of_not_mem {cs : List Char} (h : '\r' ∉ cs) :
    normalizeNewlines cs = cs := by
  fun_induction normalizeNewlines cs <;> simp_all

/-- A normalised text holds no carriage return. -/
theorem not_mem_normalizeNewlines (cs : List Char) : '\r' ∉ normalizeNewlines cs := by
  fun_induction normalizeNewlines cs <;> simp_all [eq_comm]

end TurboBench.Text
