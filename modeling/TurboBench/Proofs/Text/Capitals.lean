import Mathlib
import TurboBench.Text.Case

/-!
# How long capitals are

The capital form of a character is a text of one to three characters, and the characters of that
text have capital forms of one character. So capitals may be longer than the text they come from,
but taking capitals of capitals changes the length no more (`length_upper_upper`), and they are
never more than three times as long as the text (`length_upper_le`).

What is known of the tables is stated over their entries and decided by going through them.
-/

set_option autoImplicit false

namespace TurboBench.Text

/-! ## The tables -/

theorem length_upperTexts : ∀ e ∈ upperTexts, 1 ≤ e.2.length ∧ e.2.length ≤ 3 := by
  decide

/-- The characters of a text that is listed are not listed themselves. -/
theorem lookup_upperTexts :
    ∀ e ∈ upperTexts, ∀ n ∈ e.2, n.isValidChar ∧ upperTexts.lookup n = none := by
  decide +kernel

theorem pos_upperTexts : ∀ e ∈ upperTexts, 0 < e.1 := by
  decide

/-- Whether code point `n` is the other case of a member of the run. -/
def CaseRun.reaches (r : CaseRun) (n : Nat) : Bool :=
  Nat.ble (r.first + r.shift).toNat n && Nat.ble n (r.last + r.shift).toNat
    && r.covers (n - r.shift).toNat

/-- A run reaches what it shifts its characters to. -/
theorem CaseRun.reaches_of_covers {r : CaseRun} {n : Nat} (h : r.covers n = true)
    (hn : 0 ≤ n + r.shift) : r.reaches (n + r.shift).toNat = true := by
  have hback : (((n + r.shift).toNat : Int) - r.shift).toNat = n := by omega
  unfold reaches
  rw [hback, h]
  simp only [covers, Bool.and_eq_true, decide_eq_true_eq] at h
  simp only [Bool.and_eq_true, Nat.ble_eq, and_true]
  omega

/-- No run leads to a character that is listed. -/
theorem not_reaches_upperRuns :
    (upperTexts.all fun e => upperRuns.all fun r => !r.reaches e.1) = true := by
  decide +kernel

/-! ## Characters -/

theorem mem_of_lookup {α β : Type} [BEq α] [LawfulBEq α] {table : List (α × β)} {key : α} {b : β}
    (h : table.lookup key = some b) : (key, b) ∈ table := by
  obtain ⟨before, behind, rfl, -⟩ := List.lookup_eq_some_iff.1 h
  exact List.mem_append_right _ List.mem_cons_self

/-- A character has one to three capitals. -/
theorem length_upperChar (c : Char) : 1 ≤ (upperChar c).length ∧ (upperChar c).length ≤ 3 := by
  unfold upperChar mapByTables
  split
  · simp
  · split
    · rename_i cs hlookup
      rw [List.length_map]
      exact length_upperTexts _ (mem_of_lookup hlookup)
    · split
      · simp
      · simp

/-- A character that is not listed has a capital form of one character. -/
theorem length_upperChar_of_lookup {c : Char} (h : upperTexts.lookup c.toNat = none) :
    (upperChar c).length = 1 := by
  unfold upperChar mapByTables
  rw [h]
  split
  · rfl
  · simp only
    split <;> rfl

theorem length_upperChar_toUpper {c : Char} (h : c.toNat < 0x80) :
    (upperChar c.toUpper).length = 1 := by
  have hall : ∀ n < 0x80, (upperChar (Char.ofNat n).toUpper).length = 1 := by decide
  rw [← Char.ofNat_toNat c]
  exact hall c.toNat h

/-- The capital form of a character consists of characters with capital forms of one character. -/
theorem length_of_mem_upperChar {c d : Char} (h : d ∈ upperChar c) : (upperChar d).length = 1 := by
  unfold upperChar mapByTables at h
  split at h
  · rename_i hascii
    obtain rfl := List.mem_singleton.1 h
    exact length_upperChar_toUpper hascii
  · split at h
    · rename_i cs hlookup
      obtain ⟨n, hn, rfl⟩ := List.mem_map.1 h
      obtain ⟨hvalid, hnone⟩ := lookup_upperTexts _ (mem_of_lookup hlookup) n hn
      refine length_upperChar_of_lookup ?_
      rw [Char.toNat_ofNat, if_pos hvalid]
      exact hnone
    · rename_i hlisted
      split at h
      · rename_i r hr
        obtain rfl := List.mem_singleton.1 h
        refine length_upperChar_of_lookup (Option.eq_none_iff_forall_not_mem.2 ?_)
        -- a run leads to no character that is listed
        intro cs hcs
        have hmem := mem_of_lookup hcs
        have hpos := pos_upperTexts _ hmem
        rw [Char.toNat_ofNat] at hmem hpos
        split at hpos
        · rename_i hvalid
          rw [if_pos hvalid] at hmem
          have hcovers : r.covers c.toNat = true := by
            simpa using List.find?_some hr
          have hreaches := CaseRun.reaches_of_covers hcovers (by omega)
          have hnot := List.all_eq_true.1 (List.all_eq_true.1 not_reaches_upperRuns _ hmem) r
            (List.mem_of_find?_eq_some hr)
          rw [hreaches] at hnot
          exact absurd hnot (by decide)
        · exact absurd hpos (Nat.lt_irrefl 0)
      · obtain rfl := List.mem_singleton.1 h
        exact length_upperChar_of_lookup hlisted

/-! ## Texts -/

/-- Capitals make no text shorter. -/
theorem length_le_length_upper (cs : List Char) : cs.length ≤ (upper cs).length := by
  induction cs with
  | nil => exact Nat.le_refl 0
  | cons c cs ih =>
    have hc := (length_upperChar c).1
    rw [upper, List.flatMap_cons, List.length_append, List.length_cons]
    change cs.length + 1 ≤ (upperChar c).length + (upper cs).length
    omega

/-- Capitals are no more than three times as long as the text. -/
theorem length_upper_le (cs : List Char) : (upper cs).length ≤ 3 * cs.length := by
  induction cs with
  | nil => exact Nat.le_refl 0
  | cons c cs ih =>
    have hc := (length_upperChar c).2
    rw [upper, List.flatMap_cons, List.length_append, List.length_cons]
    change (upperChar c).length + (upper cs).length ≤ 3 * (cs.length + 1)
    omega

/-- Capitals of capitals are not longer any more. -/
theorem length_upper_upper (cs : List Char) : (upper (upper cs)).length = (upper cs).length := by
  have hone (ds : List Char) (h : ∀ d ∈ ds, (upperChar d).length = 1) :
      (upper ds).length = ds.length := by
    induction ds with
    | nil => rfl
    | cons d ds ih =>
      obtain ⟨hd, hds⟩ := List.forall_mem_cons.1 h
      rw [upper, List.flatMap_cons, List.length_append, hd, List.length_cons, Nat.add_comm]
      exact congrArg (· + 1) (ih hds)
  refine hone (upper cs) ?_
  intro d hd
  obtain ⟨c, -, hc⟩ := List.mem_flatMap.1 hd
  exact length_of_mem_upperChar hc

end TurboBench.Text
