import TurboBench.Proofs.Asm.Arguments

/-!
# Arguments that were joined by commas

Cutting a text into arguments undoes joining them, whatever blanks are put around the commas
(`arguments_join`). What can be an argument is said by the prefixes of its text: which quotation
mark is open behind a prefix (`openMark`), and how many parentheses outside quotations are
(`outside`). In an argument all of them are closed at the end, and a comma stands only where one is
open.

The induction goes along such a text from any quotation and any depth it may be in
(`cutAtCommas_append`): as long as every comma is protected, the text is put in front of the first
piece of what follows.
-/

set_option autoImplicit false

namespace TurboBench.Asm

open TurboBench.Text (isBlank trim)

/-! ## Prefixes of a text -/

/-- The quotation mark that is open behind a text, when `quote` was open before it. -/
def openMark (quote : Option Char) (cs : List Char) : Option Char :=
  cs.foldl quoteAfter quote

/-- What of a text does not stand in a quotation, when `quote` was open before it. -/
def outside (quote : Option Char) : List Char → List Char
  | [] => []
  | c :: cs =>
    if quote.isSome then outside (quoteAfter quote c) cs else c :: outside (quoteAfter quote c) cs

/-- The parentheses that a text opens and does not close; negative if it closes more than it
opens. -/
def nesting (quote : Option Char) (cs : List Char) : Int :=
  (outside quote cs).count '(' - (outside quote cs).count ')'

/-- A text with something in it and no white space at either end. -/
structure IsTrimmed (cs : List Char) : Prop where
  ne_nil : cs ≠ []
  head : ∀ c ∈ cs.head?, isBlank c = false
  last : ∀ c ∈ cs.getLast?, isBlank c = false

/-- A text that can be an argument. -/
structure IsArgument (cs : List Char) : Prop extends IsTrimmed cs where
  /-- All quotations are closed. -/
  closed : openMark none cs = none
  /-- No prefix closes a parenthesis that it has not opened. -/
  opened : ∀ p, p <+: cs → 0 ≤ nesting none p
  /-- All parentheses are closed. -/
  balanced : nesting none cs = 0
  /-- A comma stands in a quotation or in parentheses. -/
  protects : ∀ p, p ++ [','] <+: cs → openMark none p ≠ none ∨ 0 < nesting none p

theorem IsTrimmed.trim_eq {cs : List Char} (h : IsTrimmed cs) : trim cs = cs :=
  Text.trim_eq_self h.head h.last

theorem isTrimmed_iff {cs : List Char} : IsTrimmed cs ↔ cs ≠ [] ∧ trim cs = cs :=
  ⟨fun h => ⟨h.ne_nil, h.trim_eq⟩,
    fun h => ⟨h.1, h.2 ▸ Text.head_trim cs, h.2 ▸ Text.getLast_trim cs⟩⟩

instance : DecidablePred IsTrimmed := fun _ => decidable_of_iff _ isTrimmed_iff.symm

/-- There are only so many prefixes. -/
instance : DecidablePred IsArgument := fun cs =>
  decidable_of_iff (IsTrimmed cs ∧ openMark none cs = none ∧ (∀ p ∈ cs.inits, 0 ≤ nesting none p)
      ∧ nesting none cs = 0
      ∧ ∀ p ∈ cs.inits, p ++ [','] <+: cs → openMark none p ≠ none ∨ 0 < nesting none p)
    ⟨fun h => ⟨h.1, h.2.1, fun p hp => h.2.2.1 p ((List.mem_inits p cs).2 hp), h.2.2.2.1,
        fun p hp => h.2.2.2.2 p ((List.mem_inits p cs).2 ((List.prefix_append p _).trans hp)) hp⟩,
      fun h => ⟨h.toIsTrimmed, h.closed, fun p hp => h.opened p ((List.mem_inits p cs).1 hp),
        h.balanced, fun p _ => h.protects p⟩⟩

/-- A text between two commas: an argument with blanks around it. -/
def IsPadded (item text : List Char) : Prop :=
  ∃ before behind, text = before ++ (item ++ behind)
    ∧ (∀ c ∈ before, isBlank c = true) ∧ ∀ c ∈ behind, isBlank c = true

section Prefixes

variable {q c : Char} {depth : Int} {quote : Option Char} {cs p : List Char}

theorem openMark_cons (quote : Option Char) (c : Char) (cs : List Char) :
    openMark quote (c :: cs) = openMark (quoteAfter quote c) cs := rfl

/-- A quotation hides its parentheses. -/
theorem nesting_quoted (q c : Char) (cs : List Char) :
    nesting (some q) (c :: cs) = nesting (quoteAfter (some q) c) cs := rfl

/-- The depth at the end is the same wherever one begins to count. -/
theorem depthAfter_add_nesting (depth : Int) (c : Char) (cs : List Char) :
    depthAfter depth c + nesting (quoteAfter none c) cs = depth + nesting none (c :: cs) := by
  have houtside : outside none (c :: cs) = c :: outside (quoteAfter none c) cs := rfl
  rw [nesting, nesting, houtside, List.count_cons, List.count_cons, depthAfter]
  by_cases hopen : c = '('
  · subst hopen
    simp
    omega
  · by_cases hclose : c = ')'
    · subst hclose
      simp
      omega
    · simp [hopen, hclose]

/-- A text all of whose commas are protected is put in front of the first piece of what follows. -/
theorem cutAtCommas_append
    (h : ∀ p, p ++ [','] <+: cs → openMark quote p ≠ none ∨ 0 < depth + nesting quote p)
    (rest : List Char) :
    cutAtCommas quote depth (cs ++ rest)
      = prependAll cs (cutAtCommas (openMark quote cs) (depth + nesting quote cs) rest) := by
  induction cs generalizing quote depth with
  | nil =>
    have hnone : depth + nesting quote [] = depth := Int.add_zero depth
    rw [hnone]
    exact (prependAll_nil (cutAtCommas_ne_nil quote depth rest)).symm
  | cons c cs ih =>
    have hbehind : ∀ p, p ++ [','] <+: cs →
        openMark (quoteAfter quote c) p ≠ none ∨ 0 < depth + nesting quote (c :: p) :=
      fun p hp => h (c :: p) (List.cons_prefix_cons.2 ⟨rfl, hp⟩)
    rw [List.cons_append, cutAtCommas, openMark_cons]
    -- Within a quotation no comma counts; outside of it a comma has to be nested.
    cases quote with
    | some q =>
      rw [if_pos Option.isSome_some, ih hbehind, prepend_prependAll, nesting_quoted]
    | none =>
      have hcomma : ¬ (c = ',' ∧ depth ≤ 0) := by
        rintro ⟨rfl, hdepth⟩
        rcases h [] (List.prefix_append [','] cs) with hmark | hnesting
        · exact hmark rfl
        · exact absurd hnesting (Int.not_lt.2 ((Int.add_zero depth).le.trans hdepth))
      rw [if_neg (by simp), if_neg hcomma, ih, prepend_prependAll, depthAfter_add_nesting]
      intro p hp
      rw [depthAfter_add_nesting]
      exact hbehind p hp

end Prefixes

/-! ## Arguments -/

section Arguments

variable {item text : List Char} {items texts : List (List Char)}

/-- An argument has no comma outside of quotations and parentheses, so it is in one piece. -/
theorem IsArgument.unsplit (h : IsArgument item) : Unsplit 0 item := by
  intro rest
  have hprotects : ∀ p, p ++ [','] <+: item → openMark none p ≠ none ∨ 0 < 0 + nesting none p := by
    intro p hp
    rw [Int.zero_add]
    exact h.protects p hp
  rw [cutAtCommas_append hprotects, h.closed, h.balanced, Int.zero_add]

theorem IsPadded.unsplit (h : IsPadded item text) (hitem : IsArgument item) : Unsplit 0 text := by
  obtain ⟨before, behind, rfl, hbefore, hbehind⟩ := h
  exact (Unsplit.of_blanks hbefore 0).append (hitem.unsplit.append (Unsplit.of_blanks hbehind 0))

theorem IsPadded.trim_eq (h : IsPadded item text) (hitem : IsTrimmed item) : trim text = item := by
  obtain ⟨before, behind, rfl, hbefore, hbehind⟩ := h
  rw [Text.trim_blanks_append hbefore, Text.trim_append_blanks hbehind, hitem.trim_eq]

theorem isTrimmed_of_mem_arguments (h : item ∈ arguments text) : IsTrimmed item := by
  obtain ⟨hmem, hne⟩ := List.mem_filter.1 h
  obtain ⟨piece, -, rfl⟩ := List.mem_map.1 hmem
  exact ⟨by simpa using hne, Text.head_trim piece, Text.getLast_trim piece⟩

/-- Blanks around arguments split none of them, and trimming takes them off. -/
theorem unsplit_and_trim_of_padded (hitems : ∀ item ∈ items, IsArgument item)
    (h : List.Forall₂ IsPadded items texts) :
    (∀ text ∈ texts, Unsplit 0 text) ∧ texts.map trim = items := by
  induction h with
  | nil => exact ⟨fun _ hmem => absurd hmem List.not_mem_nil, rfl⟩
  | @cons item text items texts hpadded _ ih =>
    obtain ⟨hitem, hitems⟩ := List.forall_mem_cons.1 hitems
    obtain ⟨hunsplit, htrim⟩ := ih hitems
    refine ⟨List.forall_mem_cons.2 ⟨hpadded.unsplit hitem, hunsplit⟩, ?_⟩
    rw [List.map_cons, hpadded.trim_eq hitem.toIsTrimmed, htrim]

/-- **Cutting at commas undoes joining**, with any blanks around the commas; and of any text at all,
no argument is empty or has outer white space. -/
theorem arguments_join :
    (∀ items texts, (∀ item ∈ items, IsArgument item) → List.Forall₂ IsPadded items texts →
      arguments ([','].intercalate texts) = items)
    ∧ ∀ text, ∀ item ∈ arguments text, IsTrimmed item := by
  refine ⟨fun items texts hitems hpadded => ?_, fun text item => isTrimmed_of_mem_arguments⟩
  obtain ⟨hunsplit, htrim⟩ := unsplit_and_trim_of_padded hitems hpadded
  rw [arguments_intercalate hunsplit, htrim, List.filter_eq_self]
  intro item hitem
  simpa using (hitems item hitem).ne_nil

end Arguments

/-- Three arguments: a quotation with a comma and with a mark of the other kind, parentheses with a
comma and with a parenthesis in a quotation, and a name. -/
def markedArguments : List (List Char) :=
  [['\'', ',', '"', '\''], ['(', '1', ',', '"', ')', '"', ')'], ['a', 'x']]

/-- The same with blanks and a tab around the commas between them. -/
def markedTexts : List (List Char) :=
  [['\'', ',', '"', '\'', ' ', ' '], ['\t', '(', '1', ',', '"', ')', '"', ')', ' '], ['a', 'x']]

/-- Commas in quotations and in parentheses do not cut, and blanks around arguments are lost. -/
theorem arguments_join_marked :
    (∀ item ∈ markedArguments, IsArgument item)
      ∧ List.Forall₂ IsPadded markedArguments markedTexts
      ∧ arguments ([','].intercalate markedTexts) = markedArguments
      ∧ ∀ item ∈ arguments [',', '(', ' ', ','], IsTrimmed item := by
  have hitems : ∀ item ∈ markedArguments, IsArgument item := by decide +kernel
  have hpadded : List.Forall₂ IsPadded markedArguments markedTexts :=
    .cons ⟨[], [' ', ' '], rfl, List.all_eq_true.1 rfl, List.all_eq_true.1 rfl⟩
      (.cons ⟨['\t'], [' '], rfl, List.all_eq_true.1 rfl, List.all_eq_true.1 rfl⟩
        (.cons ⟨[], [], rfl, List.all_eq_true.1 rfl, List.all_eq_true.1 rfl⟩ .nil))
  exact ⟨hitems, hpadded, arguments_join.1 _ _ hitems hpadded, arguments_join.2 _⟩

end TurboBench.Asm
