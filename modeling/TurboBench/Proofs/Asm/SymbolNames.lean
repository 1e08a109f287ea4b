import Mathlib
import TurboBench.Proofs.Asm.FoldedSources
import TurboBench.Proofs.Asm.LabelUse
import TurboBench.Proofs.Asm.Names
import TurboBench.Proofs.Asm.WordSize
import TurboBench.Proofs.Text.SmallLetters

/-!
# The names of symbols

Any word in front of a unit of data is a name, so names may hold characters of every kind, commas
and parentheses, and even quotation marks that are not closed. What they cannot hold are blanks, and
what would begin a comment: the name is read off a line whose comment was cut off, and its case was
folded afterwards (`IsSymbolText`, `isSymbolText_of_lookup`).

Both properties depend on characters without case alone, so they hold of a name in whatever case it
is written (`IsSymbolText.of_lower`).
-/

set_option autoImplicit false

namespace TurboBench.Asm

open TurboBench.Text (isBlank trim lower words lines IsCaseless IsSmallForm)

/-! ## Comments and case -/

section Comments

variable {quote : Option Char} {cs ds : List Char}

/-- A character with case neither begins a comment nor opens or closes a quotation. -/
theorem neutral_of_not_isCaseless {c : Char} (hc : ¬ IsCaseless c) (hquote : IsMark quote) :
    c ≠ ';' ∧ quoteAfter quote c = quote := by
  have hne (d : Char) (hd : IsCaseless d) : c ≠ d := fun h => hc (h ▸ hd)
  refine ⟨hne ';' (.inl (by decide)), ?_⟩
  have hsingle := hne '\'' (.inl (by decide))
  have hdouble := hne '"' (.inl (by decide))
  cases quote with
  | none => simp [quoteAfter, isQuote, hsingle, hdouble]
  | some q =>
    have hq : c ≠ q := by
      rcases eq_of_isQuote (hquote q rfl) with rfl | rfl
      · exact hsingle
      · exact hdouble
    rw [quoteAfter, if_neg hq]

/-- Letters and digits belong to no comment. -/
theorem beforeComment_append_of_not_isCaseless {w : List Char} (hw : ∀ c ∈ w, ¬ IsCaseless c)
    (hquote : IsMark quote) (ds : List Char) :
    beforeComment quote (w ++ ds) = w ++ beforeComment quote ds := by
  induction w with
  | nil => rfl
  | cons c w ih =>
    obtain ⟨hc, hw⟩ := List.forall_mem_cons.1 hw
    obtain ⟨hsemicolon, hafter⟩ := neutral_of_not_isCaseless hc hquote
    rw [List.cons_append, beforeComment, if_neg fun h => hsemicolon h.2, hafter, ih hw,
      List.cons_append]

/-- A text has a comment if and only if it has one in small letters. -/
theorem beforeComment_eq_self_iff (h : IsSmallForm cs ds) (hquote : IsMark quote) :
    beforeComment quote ds = ds ↔ beforeComment quote cs = cs := by
  induction h generalizing quote with
  | nil => exact Iff.rfl
  | @cons c cs w ds hw _ ih =>
    obtain ⟨-, ⟨-, rfl⟩ | ⟨hc, hall⟩⟩ := Text.smallForm_cases hw
    · rw [List.singleton_append, beforeComment, beforeComment]
      split
      · exact iff_of_false (by simp) (by simp)
      · rw [List.cons_inj_right, List.cons_inj_right, ih (hquote.after c)]
    · obtain ⟨hsemicolon, hafter⟩ := neutral_of_not_isCaseless hc hquote
      rw [beforeComment_append_of_not_isCaseless hall hquote, List.append_cancel_left_eq,
        ih hquote, beforeComment, if_neg fun h => hsemicolon h.2, hafter, List.cons_inj_right]

end Comments

/-! ## Names -/

/-- A word that is no comment and begins none. -/
structure IsSymbolText (cs : List Char) : Prop where
  ne_nil : cs ≠ []
  not_blank : ∀ c ∈ cs, isBlank c = false
  uncommented : beforeComment none cs = cs

/-- A name may be written in any case. -/
theorem IsSymbolText.of_lower {cs : List Char} (h : IsSymbolText (lower cs)) : IsSymbolText cs := by
  have hsmall := Text.isSmallForm_lower cs
  refine ⟨fun hnil => h.ne_nil (hsmall.eq_nil_iff.2 hnil), fun c hc => ?_,
    (beforeComment_eq_self_iff hsmall isMark_none).1 h.uncommented⟩
  refine Bool.eq_false_iff.2 fun hblank => ?_
  rw [h.not_blank c ((hsmall.mem_iff (.inr hblank)).2 hc)] at hblank
  exact absurd hblank (by decide)

theorem isSymbolText_of_isLabelText {cs : List Char} (h : IsLabelText cs) : IsSymbolText cs :=
  ⟨h.ne_nil, h.not_blank,
    stripComment_of_isPlain fun c hc => isPlain_of_isLabelPart (h.isLabelPart c hc)⟩

/-- The name that words define is the first of them. -/
theorem words_of_ofWords?_define {ws : List (List Char)} {name : String} {unit : DataUnit}
    {value : List Char} (h : Directive.ofWords? ws = some (.define (some name) unit value)) :
    ∃ rest, ws = name.toList :: rest := by
  cases ws with
  | nil => exact absurd h (by simp [Directive.ofWords?])
  | cons head rest =>
    simp only [Directive.ofWords?] at h
    split at h
    case h_5 =>
      split at h
      · exact absurd h (by simp)
      · split at h
        · split at h <;> exact absurd h (by simp)
        · split at h
          · obtain ⟨hname, -⟩ := Directive.define.inj (Option.some.inj h)
            rw [← Option.some.inj hname, String.toList_ofList]
            exact ⟨_, rfl⟩
          · split at h <;> exact absurd h (by simp)
    all_goals exact absurd h (by simp)

/-- The name in front of a definition of data is one word, so it is spelled as symbols are. -/
theorem isSymbolText_of_read? {line value : List Char} {name : String} {unit : DataUnit}
    (h : Directive.read? line = some (.define (some name) unit value)) :
    IsSymbolText name.toList := by
  obtain ⟨rest, hwords⟩ := words_of_ofWords?_define h
  have hmem : name.toList ∈ words (lower (trim (stripComment line))) := by
    rw [hwords]
    exact List.mem_cons_self
  refine ⟨Text.ne_nil_of_mem_words hmem, Text.not_blank_of_mem_words hmem, ?_⟩
  have hline : beforeComment none (lower (trim (stripComment line)))
      = lower (trim (stripComment line)) :=
    (beforeComment_eq_self_iff (Text.isSmallForm_lower _) isMark_none).2
      (stripComment_trim_stripComment line)
  obtain ⟨gap, behind, hsplit, hgap⟩ := Text.exists_of_words_cons hwords
  rw [hsplit] at hline
  exact beforeComment_of_prefix (beforeComment_of_blanks hgap hline)

/-- So is every name that a line defines data under. -/
theorem isSymbolText_of_definesData {text : List Char} {n : Nat} {name : String}
    (h : (SourceLine.read n text).DefinesData name) : IsSymbolText name.toList := by
  obtain ⟨unit, value, hcontent⟩ := h
  by_cases hne : lineContent text = []
  · have hnothing : (SourceLine.read n text).content = .nothing := by
      unfold lineContent at hne
      simp only [SourceLine.read, hne]
      rfl
    rw [hnothing] at hcontent
    exact absurd hcontent (by simp)
  · rcases content_read n hne with ⟨d, hread, hd⟩ | ⟨-, ⟨i, hi⟩ | hunknown⟩
    · rw [hd, Content.directive.injEq] at hcontent
      exact isSymbolText_of_read? (hcontent ▸ hread)
    · exact absurd (hi.symm.trans hcontent) (by simp)
    · exact absurd (hunknown.symm.trans hcontent) (by simp)

/-- Names of both kinds are words without comments. -/
theorem isSymbolText_of_lookup {source : List Char} {name : String} {v : Nat}
    (h : (assemble source).symbols.lookup name = some v) : IsSymbolText name.toList := by
  cases hlabel : (assemble source).labels.lookup name with
  | some address => exact isSymbolText_of_isLabelText (isLabelText_of_lookup hlabel)
  | none =>
    rw [lookup_symbols_of_not_label hlabel] at h
    obtain ⟨pre, l, post, hls, hl, -⟩ :=
      Layout.exists_split_of_mem_dataSymbols (Text.mem_of_lookup h)
    have hmem : l ∈ sourceLines source := by
      rw [show sourceLines source = pre ++ l :: post from hls]
      exact List.mem_append_right pre List.mem_cons_self
    obtain ⟨⟨n, text⟩, -, rfl⟩ := List.mem_map.1 hmem
    exact isSymbolText_of_definesData hl

end TurboBench.Asm
