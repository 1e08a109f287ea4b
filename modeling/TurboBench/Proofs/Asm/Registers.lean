import Mathlib.Tactic.Positivity
import Mathlib.Tactic.Ring
import Mathlib.Tactic.NormNum
import TurboBench.Proofs.Asm.Stack

/-!
# The registers of a well-formed machine

The name of a register stands for some bits of a cell: for all of them, or for the low or the high
half of one of four words. Of a name, `cell` is the cell, `part` reads the bits off the value of
the cell, and `merged` puts others in their place. Setting a register and reading one are then
statements about these two functions on integers: what was merged is read back, cut to the width of
the register (`part_merged_self`), and bits that are not shared are as they were
(`part_merged_of_not_sharesBits`).

The flags are single bits of one cell. Setting one adds or takes away a power of two, which makes no
carry, because the bit is looked at before (`bit_add`, `bit_sub`).

A machine is well formed if it has the fourteen registers, each with a word in it. Neither setting a
register nor setting a flag leads away from that, for any integer that the register is set to.
-/

set_option autoImplicit false

namespace TurboBench.Asm

namespace RegisterFile

/-- After a register is set, what is among the registers is the new value or was there before. -/
theorem mem_set {rs : RegisterFile} {name other : String} {v w : Int}
    (h : (other, w) ∈ rs.set name v) : w = v ∨ (other, w) ∈ rs := by
  induction rs with
  | nil =>
    rw [set, List.mem_singleton] at h
    exact .inl (Prod.mk.inj h).2
  | cons r rs ih =>
    obtain ⟨n, u⟩ := r
    by_cases hn : n = name
    · rw [set, if_pos hn] at h
      rcases List.mem_cons.1 h with h | h
      · exact .inl (Prod.mk.inj h).2
      · exact .inr (List.mem_cons_of_mem _ h)
    · rw [set, if_neg hn] at h
      rcases List.mem_cons.1 h with h | h
      · exact .inr (h ▸ List.mem_cons_self)
      · exact (ih h).imp_right (List.mem_cons_of_mem _)

/-- A register that is there has a value. -/
theorem exists_lookup {rs : RegisterFile} {name : String} (h : name ∈ rs.map Prod.fst) :
    ∃ v, rs.lookup name = some v ∧ (name, v) ∈ rs := by
  induction rs with
  | nil => exact absurd h List.not_mem_nil
  | cons r rs ih =>
    obtain ⟨n, u⟩ := r
    by_cases hn : name = n
    · subst hn
      exact ⟨u, List.lookup_cons_self, List.mem_cons_self⟩
    · have hne : (name == n) = false := by simpa using hn
      obtain ⟨v, hv, hmem⟩ := ih ((List.mem_cons.1 h).resolve_left hn)
      exact ⟨v, by rw [List.lookup_cons, hne, hv], List.mem_cons_of_mem _ hmem⟩

end RegisterFile

namespace Machine

/-! ## Names -/

/-- The name of a register in any letter case: of a whole one or of a half. -/
def IsRegister (name : String) : Prop :=
  foldRegister name ∈ registerNames ∨ (byteHalf? (foldRegister name)).isSome = true

instance (name : String) : Decidable (IsRegister name) :=
  inferInstanceAs (Decidable (_ ∨ _))

/-- Registers that have bits in common: a register and itself, and a word and its halves. -/
def SharesBits (name other : String) : Prop :=
  foldRegister name = foldRegister other
    ∨ (byteHalf? (foldRegister name)).map Prod.fst = some (foldRegister other)
    ∨ (byteHalf? (foldRegister other)).map Prod.fst = some (foldRegister name)

instance (name other : String) : Decidable (SharesBits name other) :=
  inferInstanceAs (Decidable (_ ∨ _ ∨ _))

/-- The halves of words, each with the word and whether it is the high half. -/
def halves : List (String × String × Bool) :=
  [("al", "ax", false), ("ah", "ax", true), ("bl", "bx", false), ("bh", "bx", true),
    ("cl", "cx", false), ("ch", "cx", true), ("dl", "dx", false), ("dh", "dx", true)]

/-- The names of the flags. -/
def flagNames : List String :=
  ["CF", "ZF", "SF", "OF"]

/-- The bits of the flags register that the flags are. -/
def flagBits : List Nat :=
  [0, 6, 7, 11]

section Names

variable {name other word : String} {high : Bool}

theorem mem_halves (h : byteHalf? name = some (word, high)) : (name, word, high) ∈ halves := by
  unfold byteHalf? at h
  split at h <;> simp at h <;> (obtain ⟨rfl, rfl⟩ := h; decide)

theorem word_mem_registerNames (h : byteHalf? name = some (word, high)) :
    word ∈ registerNames := by
  have hall : ∀ e ∈ halves, e.2.1 ∈ registerNames := by decide
  exact hall _ (mem_halves h)

/-- A half is known by its word and by which half it is. -/
theorem byteHalf?_inj (h : byteHalf? name = some (word, high))
    (ho : byteHalf? other = some (word, high)) : name = other := by
  have hall : ∀ e ∈ halves, ∀ f ∈ halves, e.2 = f.2 → e.1 = f.1 := by decide
  exact hall _ (mem_halves h) _ (mem_halves ho) rfl

theorem weight_of_mem_flagNames (h : name ∈ flagNames) :
    ∃ k ∈ flagBits, flagWeight? name = some (2 ^ k) := by
  revert name
  decide

/-- No two flags have a bit in common. -/
theorem eq_of_weight_eq (h : name ∈ flagNames) (ho : other ∈ flagNames)
    (hw : flagWeight? name = flagWeight? other) : name = other := by
  have hall : ∀ e ∈ flagNames, ∀ f ∈ flagNames, flagWeight? e = flagWeight? f → e = f := by decide
  exact hall _ h _ ho hw

end Names

/-! ## The bits of a register -/

/-- A number that a whole register can hold. -/
def IsWord (v : Int) : Prop :=
  0 ≤ v ∧ v ≤ 0xFFFF

/-- The whole register that has the bits of a register. -/
def cell (name : String) : String :=
  match byteHalf? (foldRegister name) with
  | some (word, _) => word
  | none => foldRegister name

/-- The value of a register where its cell has the value `v`. -/
def part (name : String) (v : Int) : Int :=
  match byteHalf? (foldRegister name) with
  | some (_, high) => (if high then v / 0x100 else v) % 0x100
  | none => v

/-- The value of the cell of a register after the register was set to `v`. -/
def merged (name : String) (old v : Int) : Int :=
  match byteHalf? (foldRegister name) with
  | some (_, high) =>
    if high then old % 0x10000 % 0x100 + 0x100 * (v % 0x100)
    else 0x100 * (old % 0x10000 / 0x100) + v % 0x100
  | none => v % 0x10000

section Bits

variable {m : Machine} {name other : String} {old v : Int}

/-- Every register is a whole one, or a half of one that is there. -/
theorem cell_mem_registerNames (h : IsRegister name) : cell name ∈ registerNames := by
  unfold cell
  cases hhalf : byteHalf? (foldRegister name) with
  | some p => exact word_mem_registerNames hhalf
  | none =>
    refine h.resolve_right fun hsome => ?_
    rw [hhalf] at hsome
    exact absurd hsome (by decide)

@[simp]
theorem whole_setWhole_self (m : Machine) (name : String) (v : Int) :
    (m.setWhole name v).whole name = .ok v := by
  simp only [Machine.whole, Machine.setWhole, RegisterFile.lookup_set_self]

theorem whole_setWhole_of_ne (h : other ≠ name) (v : Int) :
    (m.setWhole name v).whole other = m.whole other := by
  simp only [Machine.whole, Machine.setWhole, RegisterFile.lookup_set_of_ne _ _ h]

/-- The value of a register is its part of the whole that it lies in. -/
theorem get_of_whole (h : m.whole (cell name) = .ok v) : m.get name = .ok (part name v) := by
  unfold cell at h
  unfold Machine.get part
  cases hhalf : byteHalf? (foldRegister name) with
  | some p =>
    simp only [hhalf] at h ⊢
    rw [h]
    rfl
  | none =>
    simp only [hhalf] at h ⊢
    exact h

/-- Reading a register looks at its cell alone. -/
theorem get_congr {n : Machine} (h : n.whole (cell name) = m.whole (cell name)) :
    n.get name = m.get name := by
  unfold cell at h
  unfold Machine.get
  cases hhalf : byteHalf? (foldRegister name) with
  | some p =>
    simp only [hhalf] at h ⊢
    rw [h]
  | none =>
    simp only [hhalf] at h ⊢
    exact h

/-- Setting a register merges the value into the whole that it lies in. -/
theorem set_of_whole (h : m.whole (cell name) = .ok old) (v : Int) :
    m.set name v = .ok (m.setWhole (cell name) (merged name old v)) := by
  unfold cell at h ⊢
  unfold Machine.set merged
  cases hhalf : byteHalf? (foldRegister name) with
  | some p =>
    simp only [hhalf] at h ⊢
    rw [h]
    rfl
  | none => simp only [hhalf]

/-- What has been merged into a whole is found there, as a word of its width. -/
theorem part_merged_self (name : String) (old v : Int) :
    part name (merged name old v) = v % 2 ^ width name := by
  unfold part merged width
  rcases byteHalf? (foldRegister name) with - | ⟨word, - | -⟩
  · rfl
  · simp only [Bool.false_eq_true, if_false, Option.isSome_some, if_true]
    omega
  · simp only [Option.isSome_some, if_true]
    omega

/-- The whole that a value is merged into is a word again. -/
theorem merged_isWord (name : String) (old v : Int) : IsWord (merged name old v) := by
  unfold IsWord merged
  rcases byteHalf? (foldRegister name) with - | ⟨word, - | -⟩
  · simp only
    omega
  · simp only [Bool.false_eq_true, if_false]
    omega
  · simp only [if_true]
    omega

theorem cell_of_whole (h : byteHalf? (foldRegister name) = none) :
    cell name = foldRegister name := by
  rw [cell, h]

/-- All bits of its cell are those of a whole register. -/
theorem sharesBits_of_cell_eq (h : byteHalf? (foldRegister name) = none)
    (hcell : cell other = cell name) : SharesBits name other := by
  rw [cell_of_whole h] at hcell
  unfold cell at hcell
  cases hhalf : byteHalf? (foldRegister other) with
  | none =>
    simp only [hhalf] at hcell
    exact .inl hcell.symm
  | some p =>
    simp only [hhalf] at hcell
    exact .inr (.inr (by rw [hhalf, Option.map_some, hcell]))

/-- Bits of the same cell that are not shared are kept. -/
theorem part_merged_of_not_sharesBits (hcell : cell other = cell name)
    (h : ¬ SharesBits name other) (v : Int) :
    part other (merged name old v) = part other old := by
  cases hname : byteHalf? (foldRegister name) with
  | none => exact absurd (sharesBits_of_cell_eq hname hcell) h
  | some p =>
    obtain ⟨word, high⟩ := p
    unfold SharesBits at h
    unfold cell at hcell
    unfold part merged
    cases hother : byteHalf? (foldRegister other) with
    | none =>
      simp only [hname, hother] at hcell
      exact absurd (.inr (.inl (by rw [hname, Option.map_some, hcell]))) h
    | some q =>
      -- Two halves of one word: the same one is shared, and the other one lies beside it.
      obtain ⟨word', high'⟩ := q
      simp only [hname, hother] at hcell
      subst hcell
      by_cases hsame : high' = high
      · subst hsame
        exact absurd (.inl (byteHalf?_inj hname hother)) h
      · obtain rfl : high' = !high := Bool.eq_not.2 hsame
        cases high with
        | false =>
          simp only [hname, Bool.not_false, Bool.false_eq_true, if_true, if_false]
          omega
        | true =>
          simp only [hname, Bool.not_true, Bool.false_eq_true, if_true, if_false]
          omega

end Bits

/-! ## Well-formed machines -/

/-- A machine with the fourteen registers, in any order, each of which holds a word. -/
structure WellFormed (m : Machine) : Prop where
  names : (m.registers.map Prod.fst).Perm registerNames
  words : ∀ name v, (name, v) ∈ m.registers → IsWord v

theorem wellFormed_fresh : fresh.WellFormed := by
  refine ⟨.of_eq map_fst_freshRegisters, ?_⟩
  have hall : ∀ r ∈ fresh.registers, 0 ≤ r.2 ∧ r.2 ≤ 0xFFFF := by decide
  exact fun name v h => hall (name, v) h

namespace WellFormed

variable {m : Machine} {name other : String}

theorem whole (h : m.WellFormed) (hname : name ∈ registerNames) :
    ∃ v, m.whole name = .ok v ∧ IsWord v := by
  obtain ⟨v, hlookup, hmem⟩ := RegisterFile.exists_lookup (h.names.mem_iff.2 hname)
  exact ⟨v, by rw [Machine.whole, hlookup], h.words name v hmem⟩

/-- A well-formed machine is complete. -/
theorem complete (h : m.WellFormed) : m.Complete := by
  intro name hname
  obtain ⟨v, hlookup, -⟩ := RegisterFile.exists_lookup (h.names.mem_iff.2 hname)
  rw [hlookup]
  rfl

/-- The memory has no part in it, and a word can be put into any register. -/
theorem put (h : m.WellFormed) (hname : name ∈ registerNames) {v : Int} (hv : IsWord v)
    (memory : Memory) : WellFormed ⟨m.registers.set name v, memory⟩ := by
  refine ⟨?_, fun other w hmem => ?_⟩
  · rw [RegisterFile.map_fst_set v (h.names.mem_iff.2 hname)]
    exact h.names
  · rcases RegisterFile.mem_set hmem with rfl | hmem
    · exact hv
    · exact h.words other w hmem

/-- The registers of a well-formed machine have values of their widths. -/
theorem get (h : m.WellFormed) (hname : IsRegister name) :
    ∃ v, m.get name = .ok v ∧ 0 ≤ v ∧ v < 2 ^ width name := by
  obtain ⟨v, hv, hlow, hhigh⟩ := h.whole (cell_mem_registerNames hname)
  refine ⟨part name v, get_of_whole hv, ?_⟩
  unfold part width
  rcases byteHalf? (foldRegister name) with - | ⟨word, - | -⟩
  · simp only [Option.isSome_none, Bool.false_eq_true, if_false]
    omega
  · simp only [Bool.false_eq_true, if_false, Option.isSome_some, if_true]
    omega
  · simp only [Option.isSome_some, if_true]
    omega

end WellFormed

/-! ## Setting a register -/

/-- The four words that have halves, each with the high and the low one. -/
def splitWords : List (String × String × String) :=
  [("ax", "ah", "al"), ("bx", "bh", "bl"), ("cx", "ch", "cl"), ("dx", "dh", "dl")]

/-- Each of the four words is made of its halves, which are bytes. -/
def Halved (m : Machine) : Prop :=
  ∀ word high low, (word, high, low) ∈ splitWords →
    ∃ w h l, m.get word = .ok w ∧ m.get high = .ok h ∧ m.get low = .ok l
      ∧ w = 0x100 * h + l ∧ 0 ≤ h ∧ h < 0x100 ∧ 0 ≤ l ∧ l < 0x100

/-- Setting a register leads from one machine to another: the register has the value, cut to its
width, the words are made of their halves, and no register with other bits has changed. -/
structure SetsRegister (m after : Machine) (name : String) (v : Int) : Prop where
  self : after.get name = .ok (v % 2 ^ width name)
  halved : after.Halved
  others : ∀ other, IsRegister other → ¬ SharesBits name other →
    ∃ w, m.get other = .ok w ∧ after.get other = .ok w
  memory : after.memory = m.memory

namespace WellFormed

variable {m : Machine}

/-- The halves of a register lie in it side by side. -/
theorem halved (h : m.WellFormed) : m.Halved := by
  intro word high low hsplit
  have hall : ∀ e ∈ splitWords, e.1 ∈ registerNames
      ∧ foldRegister e.1 = e.1 ∧ byteHalf? e.1 = none
      ∧ byteHalf? (foldRegister e.2.1) = some (e.1, true)
      ∧ byteHalf? (foldRegister e.2.2) = some (e.1, false) := by
    decide
  obtain ⟨hmem, hfold, hword, hhigh, hlow⟩ := hall _ hsplit
  simp only at hmem hfold hword hhigh hlow
  obtain ⟨v, hv, hle, hge⟩ := h.whole hmem
  have hget (name : String) (hcell : cell name = word) : m.get name = .ok (part name v) :=
    get_of_whole (by rw [hcell, hv])
  refine ⟨_, _, _, hget word ?_, hget high ?_, hget low ?_, ?_⟩
  · simp only [cell, hfold, hword]
  · simp only [cell, hhigh]
  · simp only [cell, hlow]
  · simp only [part, hfold, hword, hhigh, hlow, Bool.false_eq_true, if_false, if_true]
    omega

/-- A register can be set to any integer. -/
theorem set (h : m.WellFormed) {name : String} (hname : IsRegister name) (v : Int) :
    ∃ after, m.set name v = .ok after ∧ after.WellFormed ∧ SetsRegister m after name v := by
  have hmem := cell_mem_registerNames hname
  obtain ⟨old, hold, -⟩ := h.whole hmem
  have hafter : (m.setWhole (cell name) (merged name old v)).WellFormed :=
    h.put hmem (merged_isWord name old v) m.memory
  have hset := whole_setWhole_self m (cell name) (merged name old v)
  refine ⟨_, set_of_whole hold v, hafter, ?_, hafter.halved, ?_, rfl⟩
  · rw [get_of_whole hset, part_merged_self]
  · intro other hother hshares
    by_cases hcell : cell other = cell name
    · refine ⟨part other old, get_of_whole (by rwa [hcell]), ?_⟩
      rw [get_of_whole (v := merged name old v) (by rwa [hcell]),
        part_merged_of_not_sharesBits hcell hshares v]
    · -- A register of another cell is not looked at.
      obtain ⟨w, hw, -⟩ := h.whole (cell_mem_registerNames hother)
      exact ⟨part other w, get_of_whole hw, get_of_whole (by rw [whole_setWhole_of_ne hcell, hw])⟩

end WellFormed

/-! ## Setting a flag -/

/-- The bit `i` of a number. -/
def bit (v : Int) (i : Nat) : Int :=
  v / 2 ^ i % 2

/-- Adding a bit that is not there changes no other bit. -/
theorem bit_add {v : Int} {k : Nat} (h : bit v k = 0) :
    bit (v + 2 ^ k) k = 1 ∧ ∀ i, i ≠ k → bit (v + 2 ^ k) i = bit v i := by
  have hpos (n : Nat) : (0 : Int) < 2 ^ n := by positivity
  have hself : (v + 2 ^ k) / 2 ^ k = v / 2 ^ k + 1 :=
    Int.add_ediv_of_dvd_right (dvd_refl _) |>.trans (by rw [Int.ediv_self (hpos k).ne'])
  unfold bit at h ⊢
  refine ⟨by rw [hself]; omega, fun i hi => ?_⟩
  rcases Nat.lt_or_gt_of_ne hi with hlt | hgt
  · -- Below the bit an even number is added.
    obtain ⟨d, rfl⟩ := Nat.exists_eq_add_of_lt hlt
    have hsplit : (2 : Int) ^ (i + d + 1) = 2 * 2 ^ d * 2 ^ i := by ring
    rw [hsplit, Int.add_mul_ediv_right _ _ (hpos i).ne']
    omega
  · -- Above it nothing arrives, since the bit was clear.
    obtain ⟨d, rfl⟩ := Nat.exists_eq_add_of_lt hgt
    have hsplit : (2 : Int) ^ (k + d + 1) = 2 ^ k * (2 * 2 ^ d) := by ring
    rw [hsplit, ← Int.ediv_ediv_of_nonneg (hpos k).le, ← Int.ediv_ediv_of_nonneg (hpos k).le, hself,
      ← Int.ediv_ediv_of_nonneg (by omega), ← Int.ediv_ediv_of_nonneg (by omega)]
    congr 2
    omega

/-- Taking a bit away changes no other bit. -/
theorem bit_sub {v : Int} {k : Nat} (h : bit v k = 1) :
    bit (v - 2 ^ k) k = 0 ∧ ∀ i, i ≠ k → bit (v - 2 ^ k) i = bit v i := by
  have hclear : bit (v - 2 ^ k) k = 0 := by
    have hpos : (2 : Int) ^ k ≠ 0 := by positivity
    have hself := Int.add_mul_ediv_right v (-1) hpos
    unfold bit at h ⊢
    rw [show v - 2 ^ k = v + -1 * 2 ^ k by ring, hself]
    omega
  refine ⟨hclear, fun i hi => ?_⟩
  have hback := (bit_add hclear).2 i hi
  rw [Int.sub_add_cancel] at hback
  exact hback.symm

/-- A number with its bit `k` set or cleared. -/
def withBit (v : Int) (k : Nat) (on : Bool) : Int :=
  if on then if bit v k = 1 then v else v + 2 ^ k
  else if bit v k = 1 then v - 2 ^ k else v

/-- A word with one bit set or cleared differs in no other. -/
theorem bit_withBit (v : Int) (k : Nat) (on : Bool) :
    bit (withBit v k on) k = on.toNat ∧ ∀ i, i ≠ k → bit (withBit v k on) i = bit v i := by
  unfold withBit
  by_cases h : bit v k = 1
  · cases on with
    | true => simp [h]
    | false => simpa [h] using bit_sub h
  · have hclear : bit v k = 0 := by
      unfold bit at h ⊢
      omega
    cases on with
    | true => simpa [h] using bit_add hclear
    | false => simp [hclear]

/-- The flags stay a word. -/
theorem withBit_isWord {v : Int} (h : IsWord v) {k : Nat} (hk : k ∈ flagBits) (on : Bool) :
    IsWord (withBit v k on) := by
  obtain ⟨hlow, hhigh⟩ := h
  have hbits : k = 0 ∨ k = 6 ∨ k = 7 ∨ k = 11 := by simpa [flagBits] using hk
  unfold withBit bit IsWord
  -- one case for each flag, since the powers are numbers to the arithmetic only then
  rcases hbits with rfl | rfl | rfl | rfl <;> (norm_num; split <;> split <;> omega)

/-- Setting a flag leads from one machine to another: one bit of the flags register has the value,
and no other bit, flag or register has changed. -/
structure SetsFlag (m after : Machine) (flag : String) (on : Bool) : Prop where
  self : after.getFlag flag = .ok on.toNat
  flags : ∀ other ∈ flagNames, other ≠ flag →
    ∃ b, m.getFlag other = .ok b ∧ after.getFlag other = .ok b
  bits : ∃ k old new, flagWeight? flag = some (2 ^ k) ∧ m.get "flags" = .ok old
    ∧ after.get "flags" = .ok new ∧ bit new k = on.toNat ∧ ∀ i, i ≠ k → bit new i = bit old i
  others : ∀ other, IsRegister other → ¬ SharesBits "flags" other →
    ∃ w, m.get other = .ok w ∧ after.get other = .ok w
  memory : after.memory = m.memory

section Flags

variable {m : Machine} {flag : String} {v : Int} {k : Nat}

theorem getFlag_of_whole (hk : flagWeight? flag = some (2 ^ k)) (h : m.whole "flags" = .ok v) :
    m.getFlag flag = .ok (bit v k) := by
  rw [getFlag, h, hk, bit]
  push_cast
  rfl

/-- What is written is cut to a word only where a flag is cleared. -/
theorem setFlag_eq_withBit (hk : flagWeight? flag = some (2 ^ k)) (h : m.whole "flags" = .ok v)
    (on : Bool) : m.setFlag flag on = .ok (m.setWhole "flags"
      (if on then withBit v k true else withBit v k false % 0x10000)) := by
  have hcast : ((2 ^ k : Nat) : Int) = 2 ^ k := by push_cast; rfl
  unfold withBit bit
  rw [setFlag, hk, h]
  cases on with
  | true => simp [Bind.bind, Except.bind, pure, Except.pure]
  | false =>
    simp only [Bind.bind, Except.bind, pure, Except.pure, hcast, beq_iff_eq, Bool.false_eq_true,
      if_false]

/-- Setting a flag sets or clears its bit of the flags word. -/
theorem setFlag_of_whole (hk : flagWeight? flag = some (2 ^ k)) (h : m.whole "flags" = .ok v)
    (on : Bool) (hword : IsWord (withBit v k on)) :
    m.setFlag flag on = .ok (m.setWhole "flags" (withBit v k on)) := by
  have hmod : withBit v k on % 0x10000 = withBit v k on :=
    Int.emod_eq_of_lt hword.1 (by have := hword.2; omega)
  rw [setFlag_eq_withBit hk h]
  cases on with
  | true => rfl
  | false => rw [if_neg Bool.false_ne_true, hmod]

/-- A flag can be set and cleared. -/
theorem WellFormed.setFlag (h : m.WellFormed) (hflag : flag ∈ flagNames) (on : Bool) :
    ∃ after, m.setFlag flag on = .ok after ∧ after.WellFormed ∧ SetsFlag m after flag on := by
  obtain ⟨k, hbits, hk⟩ := weight_of_mem_flagNames hflag
  obtain ⟨old, hold, hword⟩ := h.whole (show "flags" ∈ registerNames by decide)
  obtain ⟨hself, hothers⟩ := bit_withBit old k on
  have hnew := withBit_isWord hword hbits on
  have hafter : (m.setWhole "flags" (withBit old k on)).WellFormed :=
    h.put (by decide) hnew m.memory
  have hset := whole_setWhole_self m "flags" (withBit old k on)
  have hwhole : byteHalf? (foldRegister "flags") = none := by decide
  have hcell : cell "flags" = "flags" := by decide
  have hget (n : Machine) : n.get "flags" = n.whole "flags" := get_eq_whole hwhole n
  refine ⟨_, setFlag_of_whole hk hold on hnew, hafter, ?_, ?_, ?_, ?_, rfl⟩
  · rw [getFlag_of_whole hk hset, hself]
  · intro other hother hne
    obtain ⟨j, -, hj⟩ := weight_of_mem_flagNames hother
    have hjk : j ≠ k := fun he => hne (eq_of_weight_eq hother hflag (by rw [hj, hk, he]))
    exact ⟨bit old j, getFlag_of_whole hj hold, by rw [getFlag_of_whole hj hset, hothers j hjk]⟩
  · exact ⟨k, old, _, hk, (hget m).trans hold, (hget _).trans hset, hself, hothers⟩
  · intro other hother hshares
    obtain ⟨w, hw, -⟩ := h.whole (cell_mem_registerNames hother)
    have hne : cell other ≠ "flags" := fun he =>
      hshares (sharesBits_of_cell_eq hwhole (he.trans hcell.symm))
    exact ⟨part other w, get_of_whole hw, get_of_whole (by rw [whole_setWhole_of_ne hne, hw])⟩

end Flags

end Machine

end TurboBench.Asm
