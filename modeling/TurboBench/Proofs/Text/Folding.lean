import Mathlib
import TurboBench.Text.Blank
import TurboBench.Text.Case
import TurboBench.Text.Lines

/-!
# Capitals and small letters

`folded` puts small letters in the place of the capitals of ASCII. A character class that does not
tell the two apart (`apply_toLower`: it is enough to look at ASCII) cuts a text where it cuts the
folded one, so trimming, cutting into lines and cutting off the first word commute with folding.

Taking the small form of a text makes folding superfluous (`lower_folded`). For the form of a sigma
its neighbours are looked at, but only for whether they have case, and capitals have it as much as
small letters.
-/

set_option autoImplicit false

namespace TurboBench.Text

/-- The text with small letters in the place of the capitals of ASCII. -/
def folded (cs : List Char) : List Char :=
  cs.map Char.toLower

/-! ## Characters -/

/-- The capitals of ASCII, by their place in the alphabet. -/
theorem exists_of_isUpper {c : Char} (h : c.isUpper = true) :
    ∃ n < 26, c = Char.ofNat (0x41 + n) := by
  have hnat : c.toNat = c.val.toNat := rfl
  have hA : 'A'.val.toNat = 0x41 := rfl
  have hZ : 'Z'.val.toNat = 0x5A := rfl
  simp only [Char.isUpper, decide_eq_true_eq, ge_iff_le, UInt32.le_iff_toNat_le] at h
  refine ⟨c.toNat - 0x41, by omega, ?_⟩
  rw [show 0x41 + (c.toNat - 0x41) = c.toNat by omega, Char.ofNat_toNat]

/-- A function of characters that does not tell capitals from small letters. -/
theorem apply_toLower {α : Type} {p : Char → α}
    (h : ∀ n < 26, p (Char.ofNat (0x41 + n)).toLower = p (Char.ofNat (0x41 + n))) (c : Char) :
    p c.toLower = p c := by
  by_cases hc : c.isUpper = true
  · obtain ⟨n, hn, rfl⟩ := exists_of_isUpper hc
    exact h n hn
  · rw [Char.toLower_eq_of_not_isUpper hc]

/-- A character without a capital. -/
theorem toLower_eq_iff {d : Char}
    (h : ∀ n < 26,
      decide ((Char.ofNat (0x41 + n)).toLower = d) = decide (Char.ofNat (0x41 + n) = d))
    (c : Char) : c.toLower = d ↔ c = d := by
  have hd := apply_toLower (p := fun c => decide (c = d)) h c
  rwa [decide_eq_decide] at hd

theorem isBlank_toLower (c : Char) : isBlank c.toLower = isBlank c :=
  apply_toLower (by decide) c

theorem isLineEnd_toLower (c : Char) : isLineEnd c.toLower = isLineEnd c :=
  apply_toLower (by decide) c

theorem isCased_toLower (c : Char) : isCased c.toLower = isCased c :=
  apply_toLower (by decide +kernel) c

/-- Letters are not among what case rules pass over. -/
theorem isCaseIgnorable_of_letter {c : Char}
    (h : 0x41 ≤ c.toNat ∧ c.toNat ≤ 0x5A ∨ 0x61 ≤ c.toNat ∧ c.toNat ≤ 0x7A) :
    isCaseIgnorable c = false := by
  -- The spans are looked at instead of the letters, each of which would be looked up in all spans.
  have hspans : ∀ s ∈ caseIgnorableSpans,
      s.last < 0x41 ∨ 0x5A < s.first ∧ s.last < 0x61 ∨ 0x7A < s.first := by
    decide +kernel
  refine Bool.eq_false_iff.2 fun hcovers => ?_
  obtain ⟨s, hs, hfirst, hlast⟩ := (Span.anyCovers_iff _ c).1 hcovers
  have hs := hspans s hs
  omega

/-- Whether case rules pass over a character does not depend on its own case. -/
theorem isCaseIgnorable_toLower (c : Char) : isCaseIgnorable c.toLower = isCaseIgnorable c := by
  have hcapital : ∀ n < 26, (Char.ofNat (0x41 + n)).toNat = 0x41 + n
      ∧ (Char.ofNat (0x41 + n)).toLower.toNat = 0x61 + n := by
    decide
  refine apply_toLower (fun n hn => ?_) c
  obtain ⟨hupper, hlower⟩ := hcapital n hn
  rw [isCaseIgnorable_of_letter (by omega), isCaseIgnorable_of_letter (by omega)]

theorem lowerChar_toLower (c : Char) : lowerChar c.toLower = lowerChar c :=
  apply_toLower (by decide +kernel) c

/-! ## Texts -/

section Texts

variable {p : Char → Bool} {cs : List Char}

@[simp]
theorem folded_nil : folded [] = [] := rfl

@[simp]
theorem folded_cons (c : Char) (cs : List Char) : folded (c :: cs) = c.toLower :: folded cs := rfl

@[simp]
theorem length_folded (cs : List Char) : (folded cs).length = cs.length :=
  List.length_map _

@[simp]
theorem isEmpty_folded (cs : List Char) : (folded cs).isEmpty = cs.isEmpty := by
  cases cs with
  | nil => rfl
  | cons c cs => rfl

theorem folded_folded (cs : List Char) : folded (folded cs) = folded cs := by
  rw [folded, folded, List.map_map]
  exact List.map_congr_left fun c _ => Char.toLower_toLower_eq_toLower c

theorem comp_toLower (hp : ∀ c, p c.toLower = p c) : p ∘ Char.toLower = p :=
  funext hp

theorem dropWhile_folded (hp : ∀ c, p c.toLower = p c) (cs : List Char) :
    (folded cs).dropWhile p = folded (cs.dropWhile p) := by
  rw [folded, List.dropWhile_map, comp_toLower hp, folded]

theorem takeWhile_folded (hp : ∀ c, p c.toLower = p c) (cs : List Char) :
    (folded cs).takeWhile p = folded (cs.takeWhile p) := by
  rw [folded, List.takeWhile_map, comp_toLower hp, folded]

theorem all_folded (hp : ∀ c, p c.toLower = p c) (cs : List Char) :
    (folded cs).all p = cs.all p := by
  rw [folded, List.all_map, comp_toLower hp]

theorem reverse_folded (cs : List Char) : (folded cs).reverse = folded cs.reverse :=
  (List.map_reverse ..).symm

theorem trimLeft_folded (cs : List Char) : trimLeft (folded cs) = folded (trimLeft cs) :=
  dropWhile_folded isBlank_toLower cs

theorem trim_folded (cs : List Char) : trim (folded cs) = folded (trim cs) := by
  rw [trim, trimLeft_folded, trimRight, reverse_folded, dropWhile_folded isBlank_toLower,
    reverse_folded, trim, trimRight]

/-- The first word of a folded text is that of the text, folded. -/
theorem firstWord_folded (cs : List Char) :
    firstWord (folded cs) = (folded (firstWord cs).1, folded (firstWord cs).2) := by
  have hp (c : Char) : (fun d => !isBlank d) c.toLower = (fun d => !isBlank d) c :=
    congrArg (!·) (isBlank_toLower c)
  simp only [firstWord, trimLeft_folded, takeWhile_folded (p := fun d => !isBlank d) hp,
    dropWhile_folded (p := fun d => !isBlank d) hp]

/-- Whether a cased letter comes first does not depend on case. -/
theorem startsCased_folded (cs : List Char) : startsCased (folded cs) = startsCased cs := by
  unfold startsCased
  rw [dropWhile_folded isCaseIgnorable_toLower]
  cases cs.dropWhile isCaseIgnorable with
  | nil => rfl
  | cons c rest => exact isCased_toLower c

/-- Small letters are the same for a folded text, the final sigma among them. -/
theorem lowerAfter_folded (before cs : List Char) :
    lowerAfter (folded before) (folded cs) = lowerAfter before cs := by
  induction cs generalizing before with
  | nil => rfl
  | cons c cs ih =>
    have hsigma : (c.toLower == 'Σ') = (c == 'Σ') :=
      apply_toLower (p := fun c => c == 'Σ') (by decide) c
    have hrest := ih (c :: before)
    rw [folded_cons] at hrest
    rw [folded_cons, lowerAfter, lowerAfter, hsigma, hrest, lowerChar_toLower, smallSigma,
      smallSigma, startsCased_folded, startsCased_folded]

/-- Folding makes no difference to the small form of a text. -/
theorem lower_folded (cs : List Char) : lower (folded cs) = lower cs :=
  lowerAfter_folded [] cs

/-- A line begins with a character that is not the first half of a line end. -/
theorem lines_cons {c : Char} {cs : List Char}
    (h : ∀ rest, c = '\r' → cs = '\n' :: rest → False) :
    lines (c :: cs)
      = if isLineEnd c then [] :: lines cs
        else match lines cs with
          | [] => [[c]]
          | l :: ls => (c :: l) :: ls :=
  lines.eq_3 c cs h

/-- Folding makes no line end of two characters where there was none. -/
theorem not_pair_folded {c : Char} {cs : List Char}
    (h : ∀ rest, c = '\r' → cs = '\n' :: rest → False) :
    ∀ rest, c.toLower = '\r' → folded cs = '\n' :: rest → False := by
  intro rest hc hcs
  cases cs with
  | nil => exact absurd hcs (by simp)
  | cons d cs =>
    have hd : d.toLower = '\n' := (List.cons.inj hcs).1
    rw [toLower_eq_iff (by decide)] at hc hd
    exact h cs hc (by rw [hd])

/-- The lines of a folded text are those of the text, folded. -/
theorem lines_folded (cs : List Char) : lines (folded cs) = (lines cs).map folded := by
  fun_induction lines cs with
  | case1 => rfl
  | case2 cs ih => exact congrArg ([] :: ·) ih
  | case3 c cs hpair hend ih =>
    rw [folded_cons, lines_cons (not_pair_folded hpair), isLineEnd_toLower, if_pos hend, ih]
    rfl
  | case4 c cs hpair hend hlines ih =>
    rw [folded_cons, lines_cons (not_pair_folded hpair), isLineEnd_toLower, if_neg hend, ih, hlines]
    rfl
  | case5 c cs hpair hend l ls hlines ih =>
    rw [folded_cons, lines_cons (not_pair_folded hpair), isLineEnd_toLower, if_neg hend, ih, hlines]
    rfl

end Texts

end TurboBench.Text
