import Mathlib
import TurboBench.Proofs.Text.Capitals
import TurboBench.Proofs.Text.Words

/-!
# What small letters leave as it is

Characters without case, that is blanks and what ASCII has besides letters, are their own small
forms, and the small forms of other characters hold none of them (`eq_of_mem_lowerChar`). Only a
capital I with a dot has a small form of two characters (`length_lowerChar`).

The small form of a text depends on its surroundings where a sigma stands at its end. Most of what
follows needs no more than that every character turns into one of its small forms (`IsSmallForm`):
the text keeps its blanks and its marks in their order. Blanks end the surroundings that count, so
texts with a blank between them turn into small letters each by itself (`lower_append_blank`).
-/

set_option autoImplicit false

namespace TurboBench.Text

/-! ## Characters without case -/

/-- A blank, or a character of ASCII that is no letter. -/
def IsCaseless (c : Char) : Prop :=
  (c.toNat < 0x80 ∧ c.isAlpha = false) ∨ isBlank c = true

/-- The code points of characters without case. -/
def caselessCodes : List Nat :=
  (List.range 0x80).filter (fun n => !(Char.ofNat n).isAlpha) ++ highBlanks

/-- Caseless characters are in the table of them. -/
theorem mem_caselessCodes {c : Char} (h : IsCaseless c) : c.toNat ∈ caselessCodes := by
  by_cases hascii : c.toNat < 0x80
  · have halpha : c.isAlpha = false := by
      refine h.elim (·.2) fun hblank => ?_
      have hall : ∀ n < 0x80, isBlank (Char.ofNat n) = true → (Char.ofNat n).isAlpha = false := by
        decide
      have hc := hall c.toNat hascii
      rw [Char.ofNat_toNat] at hc
      exact hc hblank
    refine List.mem_append_left _ (List.mem_filter.2 ⟨List.mem_range.2 hascii, ?_⟩)
    rw [Char.ofNat_toNat, halpha]
    rfl
  · have hblank : isBlank c = true := h.elim (fun h => absurd h.1 hascii) id
    exact List.mem_append_right _ (mem_highBlanks hblank hascii)

/-- The runs lead to characters, none of which is without case. -/
theorem lowerRuns_reach :
    (lowerRuns.all fun r => (0 ≤ r.first + r.shift && r.last + r.shift < 0xD800
        || 0xE000 ≤ r.first + r.shift && r.last + r.shift < 0x110000)
      && caselessCodes.all fun n => !r.reaches n) = true := by
  decide +kernel

theorem lowerTexts_reach :
    ∀ e ∈ lowerTexts, e.1 = 0x130 ∧ e.2.length = 2 ∧ ∀ n ∈ e.2, n.isValidChar
      ∧ n ∉ caselessCodes := by
  decide +kernel

/-- What a run leads to is a character, and the run reaches it. -/
theorem reaches_of_run {c : Char} {r : CaseRun}
    (h : lowerRuns.find? (·.covers c.toNat) = some r) :
    r.reaches (Char.ofNat (c.toNat + r.shift).toNat).toNat = true := by
  have hcovers : r.covers c.toNat = true := by simpa using List.find?_some h
  have hrun := List.all_eq_true.1 lowerRuns_reach r (List.mem_of_find?_eq_some h)
  have hrange := (Bool.and_eq_true_iff.1 hrun).1
  have hbounds := hcovers
  simp only [CaseRun.covers, Bool.and_eq_true, decide_eq_true_eq] at hbounds
  simp only [Bool.or_eq_true, Bool.and_eq_true, decide_eq_true_eq] at hrange
  have hvalid : (c.toNat + r.shift).toNat.isValidChar := by
    unfold Nat.isValidChar
    omega
  rw [Char.toNat_ofNat, if_pos hvalid]
  exact CaseRun.reaches_of_covers hcovers (by omega)

/-- No character is shifted by a run to a caseless one. -/
theorem not_mem_caselessCodes_of_run {c : Char} {r : CaseRun}
    (h : lowerRuns.find? (·.covers c.toNat) = some r) :
    (Char.ofNat (c.toNat + r.shift).toNat).toNat ∉ caselessCodes := by
  have hrun := List.all_eq_true.1 lowerRuns_reach r (List.mem_of_find?_eq_some h)
  intro hmem
  have hnot := List.all_eq_true.1 (Bool.and_eq_true_iff.1 hrun).2 _ hmem
  rw [reaches_of_run h] at hnot
  exact absurd hnot (by decide)

/-- A caseless character is its own small letter. -/
theorem lowerChar_of_isCaseless {c : Char} (h : IsCaseless c) : lowerChar c = [c] := by
  rcases h with ⟨hascii, halpha⟩ | hblank
  · have hupper : c.isUpper = false := by
      rw [Char.isAlpha, Bool.or_eq_false_iff] at halpha
      exact halpha.1
    rw [lowerChar_of_ascii hascii, Char.toLower_eq_of_not_isUpper (by simp [hupper])]
  · rw [lowerChar_of_isBlank hblank, toLower_of_isBlank hblank]

/-- A character without case is the small form of no other character. -/
theorem eq_of_mem_lowerChar {c d : Char} (hd : IsCaseless d) (h : d ∈ lowerChar c) : c = d := by
  have hcode := mem_caselessCodes hd
  by_cases hascii : c.toNat < 0x80
  · rw [lowerChar_of_ascii hascii, List.mem_singleton] at h
    by_cases hupper : c.isUpper = true
    · -- Small forms of capitals are letters of ASCII.
      have hall : ∀ n < 0x80, (Char.ofNat n).isUpper = true →
          (Char.ofNat n).toLower.toNat ∉ caselessCodes := by
        decide +kernel
      have hc := hall c.toNat hascii
      rw [Char.ofNat_toNat, ← h] at hc
      exact absurd hcode (hc hupper)
    · rw [h, Char.toLower_eq_of_not_isUpper hupper]
  · rw [lowerChar, if_neg hascii, mapByTables] at h
    split at h
    · rename_i cs hlookup
      obtain ⟨n, hn, rfl⟩ := List.mem_map.1 h
      obtain ⟨hvalid, hcaseless⟩ := (lowerTexts_reach _ (mem_of_lookup hlookup)).2.2 n hn
      rw [Char.toNat_ofNat, if_pos hvalid] at hcode
      exact absurd hcode hcaseless
    · split at h
      · rename_i r hr
        rw [List.mem_singleton.1 h] at hcode
        exact absurd hcode (not_mem_caselessCodes_of_run hr)
      · exact (List.mem_singleton.1 h).symm

/-- The small form of a capital I with a dot is an i and a dot above, every other character has a
small form of one character. -/
theorem length_lowerChar (c : Char) : (lowerChar c).length = if c = 'İ' then 2 else 1 := by
  by_cases hascii : c.toNat < 0x80
  · have hne : c ≠ 'İ' := by
      rintro rfl
      exact absurd hascii (by decide)
    rw [lowerChar_of_ascii hascii, if_neg hne, List.length_singleton]
  · rw [lowerChar, if_neg hascii, mapByTables]
    split
    · rename_i cs hlookup
      obtain ⟨hcode, hlength, -⟩ := lowerTexts_reach _ (mem_of_lookup hlookup)
      have heq : c = 'İ' := by
        rw [← Char.ofNat_toNat c, show c.toNat = 0x130 from hcode]
      rw [List.length_map, if_pos heq]
      exact hlength
    · rename_i hlookup
      have hne : c ≠ 'İ' := by
        rintro rfl
        exact absurd hlookup (by decide)
      rw [if_neg hne]
      split <;> rfl

/-! ## Texts -/

/-- A text in small letters character by character, a sigma in either of its forms. -/
inductive IsSmallForm : List Char → List Char → Prop
  | nil : IsSmallForm [] []
  | cons {c : Char} {cs w ds : List Char} : w = lowerChar c ∨ c = 'Σ' ∧ (w = ['σ'] ∨ w = ['ς']) →
    IsSmallForm cs ds → IsSmallForm (c :: cs) (w ++ ds)

/-- What stands for a character in small letters. -/
theorem isSmallForm_lowerAfter (before cs : List Char) :
    IsSmallForm cs (lowerAfter before cs) := by
  induction cs generalizing before with
  | nil => exact .nil
  | cons c cs ih =>
    refine .cons ?_ (ih (c :: before))
    by_cases hsigma : c = 'Σ'
    · refine .inr ⟨hsigma, ?_⟩
      rw [if_pos (by simp [hsigma]), smallSigma]
      split
      · exact .inr rfl
      · exact .inl rfl
    · exact .inl (if_neg (by simp [hsigma]))

theorem isSmallForm_lower (cs : List Char) : IsSmallForm cs (lower cs) :=
  isSmallForm_lowerAfter [] cs

/-- The small forms of a character, whatever its surroundings: the character itself if it has no
case, and else one or two characters none of which is without case. -/
theorem smallForm_cases {c : Char} {w : List Char}
    (h : w = lowerChar c ∨ c = 'Σ' ∧ (w = ['σ'] ∨ w = ['ς'])) :
    w.length = (if c = 'İ' then 2 else 1)
      ∧ (IsCaseless c ∧ w = [c] ∨ ¬ IsCaseless c ∧ ∀ d ∈ w, ¬ IsCaseless d) := by
  have hcaseless {d : Char} (hd : d.toNat ∉ caselessCodes) : ¬ IsCaseless d :=
    fun h => hd (mem_caselessCodes h)
  rcases h with rfl | ⟨rfl, hsigma⟩
  · refine ⟨length_lowerChar c, ?_⟩
    by_cases hc : IsCaseless c
    · exact .inl ⟨hc, lowerChar_of_isCaseless hc⟩
    · exact .inr ⟨hc, fun d hd hnone => hc ((eq_of_mem_lowerChar hnone hd).symm ▸ hnone)⟩
  · refine ⟨?_, .inr ⟨hcaseless (by decide), ?_⟩⟩
    · rcases hsigma with rfl | rfl <;> rfl
    · rcases hsigma with rfl | rfl <;>
        exact List.forall_mem_singleton.2 (hcaseless (by decide))

namespace IsSmallForm

variable {as bs cs ds : List Char}

/-- Texts turn into small letters one behind the other. -/
theorem exists_append (h : IsSmallForm (as ++ bs) ds) :
    ∃ xs ys, ds = xs ++ ys ∧ IsSmallForm as xs ∧ IsSmallForm bs ys := by
  induction as generalizing ds with
  | nil => exact ⟨[], ds, rfl, .nil, h⟩
  | cons c as ih =>
    cases h with
    | cons hw hrest =>
      obtain ⟨xs, ys, rfl, hxs, hys⟩ := ih hrest
      exact ⟨_, ys, (List.append_assoc ..).symm, .cons hw hxs, hys⟩

/-- A caseless character has no other small form. -/
theorem eq_singleton {c : Char} (hc : IsCaseless c) (h : IsSmallForm [c] ds) : ds = [c] := by
  cases h with
  | cons hw hrest =>
    cases hrest
    obtain ⟨-, ⟨-, rfl⟩ | ⟨hnot, -⟩⟩ := smallForm_cases hw
    · rfl
    · exact absurd hc hnot

/-- Small letters make a text longer by its capitals I with a dot, and by nothing else. -/
theorem length_eq (h : IsSmallForm cs ds) : ds.length = cs.length + cs.count 'İ' := by
  induction h with
  | nil => rfl
  | @cons c cs w ds hw _ ih =>
    rw [List.length_append, ih, (smallForm_cases hw).1, List.length_cons, List.count_cons]
    simp only [beq_iff_eq]
    split <;> omega

/-- Caseless characters stay where they are in small letters. -/
theorem mem_iff (h : IsSmallForm cs ds) {d : Char} (hd : IsCaseless d) : d ∈ ds ↔ d ∈ cs := by
  induction h with
  | nil => exact Iff.rfl
  | cons hw _ ih =>
    rw [List.mem_append, ih, List.mem_cons]
    refine or_congr_left ?_
    obtain ⟨-, ⟨-, rfl⟩ | ⟨hnot, hall⟩⟩ := smallForm_cases hw
    · exact List.mem_singleton
    · exact ⟨fun hmem => absurd hd (hall d hmem), fun heq => absurd (heq ▸ hd) hnot⟩

theorem eq_nil_iff (h : IsSmallForm cs ds) : ds = [] ↔ cs = [] := by
  rw [← List.length_eq_zero_iff, ← List.length_eq_zero_iff, h.length_eq]
  have hcount := List.count_le_length (a := 'İ') (l := cs)
  omega

end IsSmallForm

/-! ## Blanks -/

theorem not_cased_blanks : ∀ n ∈ [0x09, 0x0A, 0x0B, 0x0C, 0x0D, 0x1C, 0x1D, 0x1E, 0x1F, 0x20]
      ++ highBlanks,
    casedSpans.any (fun s => s.first ≤ n && n ≤ s.last) = false
      ∧ caseIgnorableSpans.any (fun s => s.first ≤ n && n ≤ s.last) = false := by
  decide +kernel

/-- A blank has no case, and what stands behind it does not count for what stands before it. -/
theorem not_cased_of_isBlank {b : Char} (h : isBlank b = true) :
    isCased b = false ∧ isCaseIgnorable b = false := by
  refine not_cased_blanks b.toNat ?_
  by_cases hascii : b.toNat < 0x80
  · refine List.mem_append_left _ ?_
    simp only [isBlank, Bool.or_eq_true, Bool.and_eq_true, decide_eq_true_eq, beq_iff_eq] at h
    simp only [List.mem_cons, List.not_mem_nil]
    omega
  · exact List.mem_append_right _ (mem_highBlanks h hascii)

section Blanks

variable {b : Char}

/-- What follows a blank has no part in how a text starts. -/
theorem startsCased_append_blank (h : isBlank b = true) (as bs : List Char) :
    startsCased (as ++ b :: bs) = startsCased as := by
  obtain ⟨hcased, hignorable⟩ := not_cased_of_isBlank h
  unfold startsCased
  rw [List.dropWhile_append]
  cases hdrop : as.dropWhile isCaseIgnorable with
  | nil => simp [hcased, hignorable]
  | cons c cs => simp

/-- What stood before a blank has no part in small letters behind it. -/
theorem lowerAfter_append_blank (h : isBlank b = true) (xs ys cs : List Char) :
    lowerAfter (xs ++ b :: ys) cs = lowerAfter xs cs := by
  induction cs generalizing xs with
  | nil => rfl
  | cons c cs ih =>
    rw [lowerAfter, lowerAfter, smallSigma, smallSigma, startsCased_append_blank h]
    exact congrArg _ (ih (c :: xs))

/-- Texts with a blank between them turn into small letters each by itself. -/
theorem lower_append_blank (h : isBlank b = true) (as bs : List Char) :
    lower (as ++ b :: bs) = lower as ++ b :: lower bs := by
  have hafter (before : List Char) :
      lowerAfter before (as ++ b :: bs) = lowerAfter before as ++ b :: lower bs := by
    induction as generalizing before with
    | nil =>
      have hsigma : (b == 'Σ') = false := by
        refine beq_eq_false_iff_ne.2 ?_
        rintro rfl
        exact absurd h (by decide)
      rw [List.nil_append, lowerAfter, List.nil_append, lowerAfter, hsigma,
        lowerChar_of_isCaseless (.inr h)]
      exact congrArg (b :: ·) (lowerAfter_append_blank h [] before bs)
    | cons c as ih =>
      rw [List.cons_append, lowerAfter, lowerAfter, ih, smallSigma, smallSigma,
        startsCased_append_blank h, List.append_assoc]
  exact hafter []

/-- Blanks in front of a text are kept in small letters. -/
theorem lower_blanks_append {gap : List Char} (h : ∀ c ∈ gap, isBlank c = true) (cs : List Char) :
    lower (gap ++ cs) = gap ++ lower cs := by
  induction gap with
  | nil => rfl
  | cons b gap ih =>
    obtain ⟨hb, hgap⟩ := List.forall_mem_cons.1 h
    have hcut := lower_append_blank hb [] (gap ++ cs)
    rw [List.nil_append] at hcut
    rw [List.cons_append, hcut, ih hgap]
    rfl

/-- Two texts with blanks between them. -/
theorem lower_append_gap {gap : List Char} (hne : gap ≠ []) (h : ∀ c ∈ gap, isBlank c = true)
    (as bs : List Char) : lower (as ++ (gap ++ bs)) = lower as ++ (gap ++ lower bs) := by
  obtain ⟨b, gap, rfl⟩ := List.exists_cons_of_ne_nil hne
  obtain ⟨hb, hgap⟩ := List.forall_mem_cons.1 h
  rw [List.cons_append, lower_append_blank hb, lower_blanks_append hgap, List.cons_append]

end Blanks

/-! ## Small letters of ASCII

A `k` is the small form of the Kelvin sign as well. No other letter of ASCII is the small form of a
character outside. -/

theorem lowerRuns_ascii :
    (lowerRuns.all fun r => (List.range 0x80).all fun n => n == 0x6B || !r.reaches n) = true := by
  decide +kernel

theorem lowerTexts_ascii : ∀ e ∈ lowerTexts, ∃ n ∈ e.2, n.isValidChar ∧ 0x80 ≤ n := by
  decide +kernel

/-- What has a small form of seven bits without a k is itself of seven bits. -/
theorem toNat_lt_of_smallForm {c : Char} {w : List Char}
    (h : w = lowerChar c ∨ c = 'Σ' ∧ (w = ['σ'] ∨ w = ['ς']))
    (hw : ∀ d ∈ w, d.toNat < 0x80 ∧ d.toNat ≠ 0x6B) : c.toNat < 0x80 := by
  rcases h with rfl | ⟨-, rfl | rfl⟩
  · by_contra hascii
    rw [lowerChar, if_neg hascii, mapByTables] at hw
    split at hw
    · rename_i codes hlookup
      obtain ⟨n, hn, hvalid, hhigh⟩ := lowerTexts_ascii _ (mem_of_lookup hlookup)
      have hlow := (hw _ (List.mem_map.2 ⟨n, hn, rfl⟩)).1
      rw [Char.toNat_ofNat, if_pos hvalid] at hlow
      omega
    · split at hw
      · rename_i r hr
        obtain ⟨hlow, hnot⟩ := List.forall_mem_singleton.1 hw
        have hrun := List.all_eq_true.1 lowerRuns_ascii r (List.mem_of_find?_eq_some hr)
        have hreached := List.all_eq_true.1 hrun _ (List.mem_range.2 hlow)
        rw [reaches_of_run hr, Bool.not_true, Bool.or_false, beq_iff_eq] at hreached
        exact hnot hreached
      · exact hascii (List.forall_mem_singleton.1 hw).1
  · exact absurd (List.forall_mem_singleton.1 hw).1 (by decide)
  · exact absurd (List.forall_mem_singleton.1 hw).1 (by decide)

/-- A text whose small letters are letters of ASCII other than `k` is a text of ASCII. -/
theorem IsSmallForm.toNat_lt {cs ds : List Char} (h : IsSmallForm cs ds)
    (hds : ∀ d ∈ ds, d.toNat < 0x80 ∧ d.toNat ≠ 0x6B) : ∀ c ∈ cs, c.toNat < 0x80 := by
  induction h with
  | nil => exact fun _ hc => absurd hc List.not_mem_nil
  | cons hw _ ih =>
    obtain ⟨hfirst, hrest⟩ := List.forall_mem_append.1 hds
    exact List.forall_mem_cons.2 ⟨toNat_lt_of_smallForm hw hfirst, ih hrest⟩

end TurboBench.Text
