import Mathlib
import TurboBench.Asm.Line
import TurboBench.Proofs.Text.Words

/-!
# Texts that are cut at commas

A text is cut at its commas, but not where a quotation or parentheses protect them. What a text
protects is settled by itself and the depth it stands at, whatever follows it (`Unsplit`): texts
without any of the marks, closed quotations, and closed parentheses around such texts are all in
one piece, and so is what they form when they are put one behind the other.

Texts in one piece that are joined by commas are the arguments of what they form
(`arguments_intercalate`), without their outer blanks and as far as anything is left of them.
Joining undoes cutting for every text (`intercalate_cutAtCommas`).
-/

set_option autoImplicit false

namespace TurboBench.Asm

open TurboBench.Text (isBlank trim)

/-! ## Texts in front of pieces -/

/-- The first of the pieces with a text before it. -/
def prependAll (cs : List Char) : List (List Char) → List (List Char)
  | [] => [cs]
  | w :: ws => (cs ++ w) :: ws

section Pieces

variable {cs as bs rest : List Char} {ws : List (List Char)}

theorem prepend_eq_prependAll (c : Char) (ws : List (List Char)) :
    prepend c ws = prependAll [c] ws := by
  cases ws <;> rfl

theorem prependAll_append (as bs : List Char) (ws : List (List Char)) :
    prependAll (as ++ bs) ws = prependAll as (prependAll bs ws) := by
  cases ws with
  | nil => rfl
  | cons w ws => rw [prependAll, prependAll, prependAll, List.append_assoc]

theorem prepend_prependAll (c : Char) (cs : List Char) (ws : List (List Char)) :
    prepend c (prependAll cs ws) = prependAll (c :: cs) ws := by
  rw [prepend_eq_prependAll, ← prependAll_append, List.singleton_append]

theorem prependAll_nil (h : ws ≠ []) : prependAll [] ws = ws := by
  obtain ⟨w, ws, rfl⟩ := List.exists_cons_of_ne_nil h
  rfl

theorem prepend_ne_nil (c : Char) (ws : List (List Char)) : prepend c ws ≠ [] := by
  cases ws <;> exact List.cons_ne_nil _ _

/-- Something is always cut off, if only the empty text. -/
theorem cutAtCommas_ne_nil (quote : Option Char) (depth : Int) (cs : List Char) :
    cutAtCommas quote depth cs ≠ [] := by
  cases cs with
  | nil => exact List.cons_ne_nil _ _
  | cons c cs =>
    unfold cutAtCommas
    split
    · exact prepend_ne_nil _ _
    · split
      · exact List.cons_ne_nil _ _
      · exact prepend_ne_nil _ _

end Pieces

/-- Commas between the pieces make up the text again. -/
theorem intercalate_cutAtCommas (quote : Option Char) (depth : Int) (cs : List Char) :
    [','].intercalate (cutAtCommas quote depth cs) = cs := by
  have hprepend (c : Char) {ws : List (List Char)} (hws : ws ≠ []) :
      [','].intercalate (prepend c ws) = c :: [','].intercalate ws := by
    obtain ⟨w, ws, rfl⟩ := List.exists_cons_of_ne_nil hws
    cases ws with
    | nil => rfl
    | cons v vs => rw [prepend, List.intercalate_cons_cons, List.intercalate_cons_cons]; rfl
  induction cs generalizing quote depth with
  | nil => rfl
  | cons c cs ih =>
    rw [cutAtCommas]
    split
    · rw [hprepend c (cutAtCommas_ne_nil _ _ _), ih]
    · split
      · rename_i hcomma
        obtain ⟨w, ws, hcut⟩ := List.exists_cons_of_ne_nil (cutAtCommas_ne_nil none depth cs)
        rw [hcut, List.intercalate_cons_cons, ← hcut, ih, hcomma.1]
        rfl
      · rw [hprepend c (cutAtCommas_ne_nil _ _ _), ih]

/-! ## Texts in one piece -/

/-- At `depth` the text is a part of one piece and leaves neither a quotation nor parentheses open,
whatever follows it. -/
def Unsplit (depth : Int) (cs : List Char) : Prop :=
  ∀ rest, cutAtCommas none depth (cs ++ rest) = prependAll cs (cutAtCommas none depth rest)

/-- A character that neither cuts a text nor protects any of it. -/
def IsUnmarked (c : Char) : Prop :=
  isQuote c = false ∧ c ≠ ',' ∧ c ≠ '(' ∧ c ≠ ')'

instance : DecidablePred IsUnmarked := fun c =>
  inferInstanceAs (Decidable (isQuote c = false ∧ c ≠ ',' ∧ c ≠ '(' ∧ c ≠ ')'))

/-- A class of characters that none of the marks is in. -/
theorem isUnmarked_of {p : Char → Bool} (hmarks : ['\'', '"', ',', '(', ')'].all (!p ·) = true)
    {c : Char} (h : p c = true) : IsUnmarked c := by
  have hne : ∀ d ∈ ['\'', '"', ',', '(', ')'], c ≠ d := by
    rintro d hd rfl
    have hmark := List.all_eq_true.1 hmarks c hd
    rw [h] at hmark
    exact absurd hmark (by decide)
  simp only [List.forall_mem_cons] at hne
  obtain ⟨hsingle, hdouble, hcomma, hopen, hclose, -⟩ := hne
  exact ⟨by simp [isQuote, hsingle, hdouble], hcomma, hopen, hclose⟩

theorem isUnmarked_of_isBlank {c : Char} (h : isBlank c = true) : IsUnmarked c :=
  isUnmarked_of (p := isBlank) (by decide) h

theorem not_blank_of_isQuote {c : Char} (h : isQuote c = true) : isBlank c = false := by
  refine Bool.eq_false_iff.2 fun hblank => ?_
  rw [(isUnmarked_of_isBlank hblank).1] at h
  exact absurd h (by decide)

namespace Unsplit

variable {depth : Int} {as bs cs : List Char} {q : Char}

theorem nil (depth : Int) : Unsplit depth [] :=
  fun rest => (prependAll_nil (cutAtCommas_ne_nil none depth rest)).symm

theorem append (has : Unsplit depth as) (hbs : Unsplit depth bs) : Unsplit depth (as ++ bs) := by
  intro rest
  rw [List.append_assoc, has, hbs, prependAll_append]

/-- A character that marks nothing splits nothing. -/
theorem unmarked {c : Char} (h : IsUnmarked c) (depth : Int) : Unsplit depth [c] := by
  obtain ⟨hquote, hcomma, hopen, hclose⟩ := h
  intro rest
  rw [List.singleton_append, cutAtCommas, if_neg (by simp), if_neg fun h => hcomma h.1, quoteAfter,
    if_neg (by simp [hquote]), depthAfter, if_neg hopen, if_neg hclose, prepend_eq_prependAll]

/-- Neither does a text of such characters. -/
theorem of_unmarked (h : ∀ c ∈ cs, IsUnmarked c) (depth : Int) : Unsplit depth cs := by
  induction cs with
  | nil => exact nil depth
  | cons c cs ih =>
    obtain ⟨hc, hcs⟩ := List.forall_mem_cons.1 h
    exact (unmarked hc depth).append (ih hcs)

theorem of_blanks (h : ∀ c ∈ cs, isBlank c = true) (depth : Int) : Unsplit depth cs :=
  of_unmarked (fun c hc => isUnmarked_of_isBlank (h c hc)) depth

/-- Inside parentheses a comma cuts nothing. -/
theorem comma (h : 0 < depth) : Unsplit depth [','] := by
  intro rest
  have hcomma : quoteAfter none ',' = none ∧ depthAfter depth ',' = depth := ⟨rfl, rfl⟩
  rw [List.singleton_append, cutAtCommas, if_neg (by simp), if_neg fun h' => by omega, hcomma.1,
    hcomma.2, prepend_eq_prependAll]

/-- In a quotation commas are read over, and the quotation ends at its mark. -/
theorem cutAtCommas_quotation (h : q ∉ cs) (depth : Int) (rest : List Char) :
    cutAtCommas (some q) depth (cs ++ q :: rest)
      = prependAll (cs ++ [q]) (cutAtCommas none depth rest) := by
  induction cs with
  | nil =>
    rw [List.nil_append, cutAtCommas, if_pos Option.isSome_some, quoteAfter, if_pos rfl,
      prepend_eq_prependAll, List.nil_append]
  | cons c cs ih =>
    have hc : c ≠ q := fun hc => h (hc ▸ List.mem_cons_self)
    rw [List.cons_append, cutAtCommas, if_pos Option.isSome_some, quoteAfter, if_neg hc,
      ih fun hcs => h (List.mem_cons_of_mem c hcs), prepend_prependAll, List.cons_append]

/-- A quotation that is closed protects all of its text. -/
theorem quotation (hq : isQuote q = true) (h : q ∉ cs) (depth : Int) :
    Unsplit depth (q :: (cs ++ [q])) := by
  have hmark : q ≠ ',' ∧ q ≠ '(' ∧ q ≠ ')' := by
    refine ⟨?_, ?_, ?_⟩ <;> rintro rfl <;> exact absurd hq (by decide)
  intro rest
  rw [List.cons_append, List.append_assoc, List.singleton_append, cutAtCommas, if_neg (by simp),
    if_neg fun h' => hmark.1 h'.1, quoteAfter, if_pos hq, depthAfter, if_neg hmark.2.1,
    if_neg hmark.2.2, cutAtCommas_quotation h, prepend_prependAll]

/-- Parentheses that are closed protect a text that is in one piece between them. -/
theorem parentheses (h : Unsplit (depth + 1) cs) : Unsplit depth ('(' :: (cs ++ [')'])) := by
  intro rest
  have hopen : quoteAfter none '(' = none ∧ depthAfter depth '(' = depth + 1 := ⟨rfl, rfl⟩
  have hclose : quoteAfter none ')' = none ∧ depthAfter (depth + 1) ')' = depth :=
    ⟨rfl, by simp [depthAfter]⟩
  have hclosed : cutAtCommas none (depth + 1) (')' :: rest)
      = prependAll [')'] (cutAtCommas none depth rest) := by
    rw [cutAtCommas, if_neg (by simp), if_neg (by simp), hclose.1, hclose.2, prepend_eq_prependAll]
  rw [List.cons_append, List.append_assoc, List.singleton_append, cutAtCommas, if_neg (by simp),
    if_neg (by simp), hopen.1, hopen.2, h, hclosed, ← prependAll_append, prepend_prependAll]

/-- Inside parentheses texts that are joined by commas are in one piece. -/
theorem intercalate {ts : List (List Char)} (h : 0 < depth) (hts : ∀ t ∈ ts, Unsplit depth t) :
    Unsplit depth ([','].intercalate ts) := by
  induction ts with
  | nil => exact nil depth
  | cons t ts ih =>
    obtain ⟨ht, hts⟩ := List.forall_mem_cons.1 hts
    cases ts with
    | nil => rwa [List.intercalate_singleton]
    | cons u us =>
      rw [List.intercalate_cons_cons]
      exact (ht.append (comma h)).append (ih hts)

theorem cutAtCommas_eq (h : Unsplit depth cs) : cutAtCommas none depth cs = [cs] := by
  have hcut := h []
  rw [List.append_nil] at hcut
  rw [hcut, cutAtCommas, prependAll, List.append_nil]

theorem cutAtCommas_comma (h : Unsplit depth cs) (hdepth : depth ≤ 0) (rest : List Char) :
    cutAtCommas none depth (cs ++ ',' :: rest) = cs :: cutAtCommas none depth rest := by
  rw [h, cutAtCommas, if_neg (by simp), if_pos ⟨rfl, hdepth⟩, prependAll, List.append_nil]

end Unsplit

/-! ## Arguments -/

section Arguments

variable {cs : List Char} {ts : List (List Char)}

/-- Texts in one piece each are got back when they are cut at the commas between them. -/
theorem cutAtCommas_intercalate (hne : ts ≠ []) (h : ∀ t ∈ ts, Unsplit 0 t) :
    cutAtCommas none 0 ([','].intercalate ts) = ts := by
  induction ts with
  | nil => exact absurd rfl hne
  | cons t ts ih =>
    obtain ⟨ht, hts⟩ := List.forall_mem_cons.1 h
    cases ts with
    | nil => rw [List.intercalate_singleton, ht.cutAtCommas_eq]
    | cons u us =>
      rw [List.intercalate_cons_cons, List.append_assoc, List.singleton_append,
        ht.cutAtCommas_comma (Int.le_refl 0), ih (List.cons_ne_nil u us) hts]

/-- Texts in one piece are the arguments of the text that they form with commas between them. -/
theorem arguments_intercalate (h : ∀ t ∈ ts, Unsplit 0 t) :
    arguments ([','].intercalate ts) = (ts.map trim).filter (!·.isEmpty) := by
  rw [arguments]
  by_cases hne : ts = []
  · subst hne
    rfl
  · rw [cutAtCommas_intercalate hne h]

theorem arguments_comma (h : Unsplit 0 cs) (hne : trim cs ≠ []) (rest : List Char) :
    arguments (cs ++ ',' :: rest) = trim cs :: arguments rest := by
  rw [arguments, h.cutAtCommas_comma (Int.le_refl 0), List.map_cons, arguments]
  exact List.filter_cons_of_pos (by simp [hne])

theorem arguments_blanks_append {blanks : List Char} (h : ∀ c ∈ blanks, isBlank c = true)
    (cs : List Char) : arguments (blanks ++ cs) = arguments cs := by
  obtain ⟨w, ws, hcut⟩ := List.exists_cons_of_ne_nil (cutAtCommas_ne_nil none 0 cs)
  rw [arguments, Unsplit.of_blanks h 0, hcut, prependAll, List.map_cons,
    Text.trim_blanks_append h, arguments, hcut, List.map_cons]

theorem arguments_of_unsplit (h : Unsplit 0 cs) (hne : trim cs ≠ []) :
    arguments cs = [trim cs] := by
  rw [arguments, h.cutAtCommas_eq, List.map_singleton]
  exact List.filter_cons_of_pos (by simp [hne])

end Arguments

end TurboBench.Asm
