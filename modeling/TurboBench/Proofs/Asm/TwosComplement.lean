import TurboBench.Proofs.Asm.Footprints

/-!
# Addition, subtraction and comparison

Words are added and subtracted modulo a power of two, and four flags tell how the result is related
to the integers. What they are to tell is said here without bits: by the sum or difference of the
two words as natural numbers, and by that of the same two words in two's complement, which is the
reading of `Int.bmod`. The operations look at sign bits instead, and `signBit_eq` and `bmod_eq` put
both in terms of one comparison with half the number of words. A sum or difference of two words is
off by that number at most once (`exact_emod`), so the rest is linear arithmetic, for every width.

On the machine the four flags are set one after the other and then the destination, if there is one.
None of these takes back what one before it did (`WellFormed.setFlags`), also where the source has
bits in common with the destination, since both are read first.
-/

set_option autoImplicit false

namespace TurboBench.Asm

open Machine (IsRegister SharesBits width)

/-! ## Words of any width -/

namespace Arithmetic

/-- The result of an operation on integers. -/
def exact : Arithmetic → Int → Int → Int
  | add, a, b => a + b
  | subtract, a, b => a - b

/-- A sum of words of `bits` bits that is no such word, or a difference that is negative. -/
def Carries (bits : Nat) : Arithmetic → Int → Int → Prop
  | add, a, b => 2 ^ bits ≤ a + b
  | subtract, a, b => a < b

instance (bits : Nat) (op : Arithmetic) (a b : Int) : Decidable (op.Carries bits a b) := by
  cases op <;> unfold Carries <;> infer_instance

/-- The result of the operation on two words in two's complement is out of the range of such
words. -/
def Overflows (bits : Nat) (op : Arithmetic) (a b : Int) : Prop :=
  ¬ (-2 ^ (bits - 1) ≤ op.exact (a.bmod (2 ^ bits)) (b.bmod (2 ^ bits))
    ∧ op.exact (a.bmod (2 ^ bits)) (b.bmod (2 ^ bits)) ≤ 2 ^ (bits - 1) - 1)

instance (bits : Nat) (op : Arithmetic) (a b : Int) : Decidable (op.Overflows bits a b) :=
  inferInstanceAs (Decidable (¬ _))

/-- A number of `bits` bits. -/
def IsWordOf (bits : Nat) (a : Int) : Prop :=
  0 ≤ a ∧ a < 2 ^ bits

section Words

variable {bits k : Nat} {a b : Int}

theorem wordCount_cast (bits : Nat) : ((Machine.wordCount bits : Nat) : Int) = 2 ^ bits := by
  simp [Machine.wordCount]

theorem isWordOf_emod (bits : Nat) (n : Int) : IsWordOf bits (n % 2 ^ bits) :=
  ⟨Int.emod_nonneg _ (by positivity), Int.emod_lt_of_pos _ (by positivity)⟩

/-- The sign bit of a word is set in the upper half of the words. -/
theorem signBit_eq (ha : IsWordOf (k + 1) a) : signBit (k + 1) a = decide (2 ^ k ≤ a) := by
  have hpos : (0 : Int) < 2 ^ k := by positivity
  obtain ⟨hlow, hhigh⟩ := ha
  rw [pow_succ] at hhigh
  rw [signBit, Nat.add_sub_cancel, wordCount_cast]
  by_cases h : 2 ^ k ≤ a
  · have hone : a / 2 ^ k = 1 := by
      have hle : 1 ≤ a / 2 ^ k := Int.le_ediv_of_mul_le hpos (by omega)
      have hlt : a / 2 ^ k < 2 := Int.ediv_lt_of_lt_mul hpos (by omega)
      omega
    rw [hone, decide_eq_true h]
    rfl
  · rw [Int.ediv_eq_zero_of_lt hlow (by omega), decide_eq_false h]
    rfl

/-- The reading of a word in two's complement. -/
theorem bmod_eq (ha : IsWordOf (k + 1) a) :
    a.bmod (2 ^ (k + 1)) = if 2 ^ k ≤ a then a - 2 * 2 ^ k else a := by
  have hmod : a % ((2 ^ (k + 1) : Nat) : Int) = a := Int.emod_eq_of_lt ha.1 (by exact_mod_cast ha.2)
  unfold Int.bmod
  simp only [hmod]
  push_cast
  rw [pow_succ]
  split <;> split <;> omega

/-- What is cut off a result is the number of words, and only where there is a carry. -/
theorem exact_emod (op : Arithmetic) (ha : IsWordOf bits a) (hb : IsWordOf bits b) :
    (op.Carries bits a b ∧ op.exact a b % 2 ^ bits = op.exact (op.exact a b) (-2 ^ bits))
      ∨ (¬ op.Carries bits a b ∧ op.exact a b % 2 ^ bits = op.exact a b) := by
  obtain ⟨ha, ha'⟩ := ha
  obtain ⟨hb, hb'⟩ := hb
  by_cases hcarry : op.Carries bits a b
  · refine .inl ⟨hcarry, ?_⟩
    cases op with
    | add =>
      simp only [exact, Carries] at hcarry ⊢
      rw [← Int.sub_emod_right, Int.emod_eq_of_lt (by omega) (by omega), Int.sub_eq_add_neg]
    | subtract =>
      simp only [exact, Carries] at hcarry ⊢
      rw [← Int.add_emod_right, Int.emod_eq_of_lt (by omega) (by omega), Int.sub_neg]
  · refine .inr ⟨hcarry, ?_⟩
    cases op with
    | add | subtract =>
      simp only [exact, Carries] at hcarry ⊢
      exact Int.emod_eq_of_lt (by omega) (by omega)

/-- The difference of two words is zero as a word only if they are equal. -/
theorem sub_emod_eq_zero_iff (ha : IsWordOf bits a) (hb : IsWordOf bits b) :
    (a - b) % 2 ^ bits = 0 ↔ a = b := by
  rw [← Int.emod_eq_emod_iff_emod_sub_eq_zero, Int.emod_eq_of_lt ha.1 ha.2,
    Int.emod_eq_of_lt hb.1 hb.2]

theorem word_compute (op : Arithmetic) (bits : Nat) (a b : Int) :
    (op.compute bits a b).word = op.exact a b % 2 ^ bits := by
  rw [← wordCount_cast]
  cases op <;> rfl

/-- The carry tells that the unsigned result is not in range. -/
theorem carry_compute (op : Arithmetic) (ha : IsWordOf bits a) (hb : IsWordOf bits b) :
    (op.compute bits a b).carry = decide (op.Carries bits a b) := by
  obtain ⟨ha, ha'⟩ := ha
  obtain ⟨hb, hb'⟩ := hb
  rw [Bool.eq_iff_iff, decide_eq_true_iff]
  unfold compute Carries
  cases op with
  | add | subtract =>
    simp only [wordCount_cast, Bool.or_eq_true, decide_eq_true_iff]
    omega

/-- The overflow, which is got from the signs, tells that the signed result is not in range. -/
theorem overflow_compute (op : Arithmetic) (ha : IsWordOf (k + 1) a) (hb : IsWordOf (k + 1) b) :
    (op.compute (k + 1) a b).overflow = decide (op.Overflows (k + 1) a b) := by
  have hsign := signBit_eq (isWordOf_emod (k + 1) (op.exact a b))
  have hcut := exact_emod op ha hb
  rw [← word_compute] at hsign hcut
  rw [Bool.eq_iff_iff, decide_eq_true_iff, Overflows, bmod_eq ha, bmod_eq hb, Nat.add_sub_cancel]
  have hpow : (2 : Int) ^ (k + 1) = 2 * 2 ^ k := pow_succ' 2 k
  obtain ⟨hlow, hhigh⟩ := id ha
  obtain ⟨hlow', hhigh'⟩ := id hb
  rw [hpow] at hhigh hhigh'
  -- All signs are comparisons with half of the range, so this is arithmetic on the two words and
  -- the result.
  cases op with
  | add =>
    change (signBit (k + 1) a == signBit (k + 1) b
      && signBit (k + 1) a != signBit (k + 1) (add.compute (k + 1) a b).word) = true ↔ _
    simp only [hsign, signBit_eq ha, signBit_eq hb, Bool.and_eq_true, beq_iff_eq, bne_iff_ne,
      ne_eq, decide_eq_decide]
    simp only [exact, Carries, hpow] at hcut ⊢
    split <;> split <;> omega
  | subtract =>
    change (signBit (k + 1) a != signBit (k + 1) b
      && signBit (k + 1) a != signBit (k + 1) (subtract.compute (k + 1) a b).word) = true ↔ _
    simp only [hsign, signBit_eq ha, signBit_eq hb, Bool.and_eq_true, bne_iff_ne, ne_eq,
      decide_eq_decide]
    simp only [exact, Carries, hpow] at hcut ⊢
    split <;> split <;> omega

end Words

end Arithmetic

/-! ## The four flags -/

namespace Machine

/-- From one machine to another the four flags have been set, and nothing else has changed. -/
structure SetsFlags (m after : Machine) (result : ArithmeticResult) : Prop where
  zero : after.getFlag "ZF" = .ok (result.zero.toNat : Int)
  sign : after.getFlag "SF" = .ok (result.sign.toNat : Int)
  carry : after.getFlag "CF" = .ok (result.carry.toNat : Int)
  overflow : after.getFlag "OF" = .ok (result.overflow.toNat : Int)
  others : ∀ name, IsRegister name → ¬ SharesBits "flags" name → after.get name = m.get name
  memory : after.memory = m.memory

/-- The flags tell what came of an operation on two words of `bits` bits. -/
structure ShowsResult (m : Machine) (op : Arithmetic) (bits : Nat) (a b : Int) : Prop where
  /-- The result is zero as a word. -/
  zero : m.getFlag "ZF" = .ok ((decide (op.exact a b % 2 ^ bits = 0)).toNat : Int)
  /-- The top bit of the result as a word is set. -/
  sign : m.getFlag "SF" = .ok ((decide (2 ^ (bits - 1) ≤ op.exact a b % 2 ^ bits)).toNat : Int)
  carry : m.getFlag "CF" = .ok ((decide (op.Carries bits a b)).toNat : Int)
  overflow : m.getFlag "OF" = .ok ((decide (op.Overflows bits a b)).toNat : Int)

section Flags

variable {m n after : Machine} {flag other : String} {on : Bool} {op : Arithmetic} {bits k : Nat}
  {a b : Int}

theorem SetsFlag.getFlag_of_ne (h : SetsFlag m after flag on) (hother : other ∈ flagNames)
    (hne : other ≠ flag) : after.getFlag other = m.getFlag other := by
  obtain ⟨b, hm, hafter⟩ := h.flags other hother hne
  rw [hafter, hm]

theorem SetsFlag.get_of_not_sharesBits (h : SetsFlag m after flag on) {name : String}
    (hname : IsRegister name) (hshares : ¬ SharesBits "flags" name) :
    after.get name = m.get name := by
  obtain ⟨w, hm, hafter⟩ := h.others name hname hshares
  rw [hafter, hm]

/-- The flags of a result can be set on a well-formed machine, and nothing else is. -/
theorem WellFormed.setFlags (h : m.WellFormed) (result : ArithmeticResult) :
    ∃ after, result.setFlags m = .ok after ∧ after.WellFormed ∧ SetsFlags m after result := by
  obtain ⟨m₁, h₁, hm₁, hzero⟩ := h.setFlag (show "ZF" ∈ flagNames by decide) result.zero
  obtain ⟨m₂, h₂, hm₂, hsign⟩ := hm₁.setFlag (show "SF" ∈ flagNames by decide) result.sign
  obtain ⟨m₃, h₃, hm₃, hcarry⟩ := hm₂.setFlag (show "CF" ∈ flagNames by decide) result.carry
  obtain ⟨m₄, h₄, hm₄, hover⟩ := hm₃.setFlag (show "OF" ∈ flagNames by decide) result.overflow
  refine ⟨m₄, ?_, hm₄, ?_, ?_, ?_, hover.self, fun name hname hshares => ?_, ?_⟩
  · simp only [ArithmeticResult.setFlags, h₁, h₂, h₃, h₄, Bind.bind, Except.bind]
  · rw [hover.getFlag_of_ne (by decide) (by decide), hcarry.getFlag_of_ne (by decide) (by decide),
      hsign.getFlag_of_ne (by decide) (by decide), hzero.self]
  · rw [hover.getFlag_of_ne (by decide) (by decide), hcarry.getFlag_of_ne (by decide) (by decide),
      hsign.self]
  · rw [hover.getFlag_of_ne (by decide) (by decide), hcarry.self]
  · rw [hover.get_of_not_sharesBits hname hshares, hcarry.get_of_not_sharesBits hname hshares,
      hsign.get_of_not_sharesBits hname hshares, hzero.get_of_not_sharesBits hname hshares]
  · rw [hover.memory, hcarry.memory, hsign.memory, hzero.memory]

/-- Reading a flag looks at the flags register alone. -/
theorem getFlag_congr (h : n.get "flags" = m.get "flags") (flag : String) :
    n.getFlag flag = m.getFlag flag := by
  have hget (k : Machine) : k.get "flags" = k.whole "flags" := get_eq_whole (by decide) k
  rw [hget, hget] at h
  rw [getFlag, getFlag, h]

theorem ShowsResult.congr (h : m.ShowsResult op bits a b) (hflags : n.get "flags" = m.get "flags") :
    n.ShowsResult op bits a b := by
  have hget := getFlag_congr hflags
  exact ⟨(hget _).trans h.zero, (hget _).trans h.sign, (hget _).trans h.carry,
    (hget _).trans h.overflow⟩

/-- The flags that were set show what has been computed. -/
theorem SetsFlags.showsResult (h : SetsFlags m after (op.compute (k + 1) a b))
    (ha : Arithmetic.IsWordOf (k + 1) a) (hb : Arithmetic.IsWordOf (k + 1) b) :
    after.ShowsResult op (k + 1) a b := by
  have hword := Arithmetic.word_compute op (k + 1) a b
  have hzero : (op.compute (k + 1) a b).zero = decide (op.exact a b % 2 ^ (k + 1) = 0) := by
    rw [← hword]
    rfl
  have hsign : (op.compute (k + 1) a b).sign = decide (2 ^ k ≤ op.exact a b % 2 ^ (k + 1)) := by
    rw [← Arithmetic.signBit_eq (Arithmetic.isWordOf_emod _ _), ← hword]
    rfl
  refine ⟨?_, ?_, ?_, ?_⟩
  · rw [← hzero, h.zero]
  · rw [Nat.add_sub_cancel, ← hsign, h.sign]
  · rw [← Arithmetic.carry_compute op ha hb, h.carry]
  · rw [← Arithmetic.overflow_compute op ha hb, h.overflow]

end Flags

end Machine

/-! ## Instructions -/

/-- The operation of an instruction, if it has one. -/
def Mnemonic.arithmetic? : Mnemonic → Option Arithmetic
  | add => some .add
  | sub | cmp => some .subtract
  | _ => none

/-- An operation on the register `d`, with the value `a`, and the value `b` leads from one machine
to another. The mnemonic says whether the result is stored. -/
structure TwosComplement (mnemonic : Mnemonic) (op : Arithmetic) (d : Register)
    (m after : Machine) (a b : Int) : Prop where
  flags : after.ShowsResult op (width d.name) a b
  stored : mnemonic ≠ .cmp → after.get d.name = .ok (op.exact a b % 2 ^ width d.name)
  /-- Besides the flags, what has no bits in common with the destination is as it was, and after a
  comparison the destination is, too. -/
  others : ∀ name, IsRegister name → ¬ SharesBits "flags" name →
    mnemonic = .cmp ∨ ¬ SharesBits d.name name → after.get name = m.get name
  memory : after.memory = m.memory
  /-- Wherever control goes from a comparison, `je` is taken there if and only if the values are
  equal. -/
  equal : mnemonic = .cmp → ∀ (q : Record) (symbols : SymbolTable) (target : Nat) (ip : Int),
    q.instruction.mnemonic = .je → branchTarget symbols q.instruction.operands = .ok target →
      q.perform (after.setWhole "ip" ip) symbols
        = .ok (q.branchIf (after.setWhole "ip" ip) (decide (a = b)) target)

section Instructions

variable {m after : Machine} {symbols : SymbolTable} {r : Record} {op : Arithmetic} {d : Register}
  {source : Operand} {a b v : Int}

/-- Every register has a width. -/
theorem exists_width (name : String) : ∃ k, width name = k + 1 := by
  unfold width
  split
  · exact ⟨7, rfl⟩
  · exact ⟨15, rfl⟩

/-- Arithmetic on a register takes its source modulo the width of the register. -/
theorem arithmetic_eq (ha : m.get d.name = .ok a) (hv : source.value m symbols = .ok v)
    (hset : (op.compute (width d.name) a (v % 2 ^ width d.name)).setFlags m = .ok after) :
    arithmetic op m symbols [.register d, source]
      = .ok (d, op.exact a (v % 2 ^ width d.name) % 2 ^ width d.name, after) := by
  rw [← Arithmetic.word_compute]
  rw [← Arithmetic.wordCount_cast] at hset ⊢
  simp only [arithmetic, twoOperands, Operand.destination, ha, hv, hset, onMachine, Bind.bind,
    Except.bind, pure, Except.pure]

theorem perform_je (hje : r.instruction.mnemonic = .je) {zero : Bool} {target : Nat}
    (hzero : m.getFlag "ZF" = .ok (zero.toNat : Int))
    (htarget : branchTarget symbols r.instruction.operands = .ok target) :
    r.perform m symbols = .ok (r.branchIf m zero target) := by
  have hbool : (((zero.toNat : Nat) : Int) == 1) = zero := by cases zero <;> rfl
  unfold Record.perform
  simp only [hje, hzero, htarget, onMachine, Bind.bind, Except.bind, pure, Except.pure, hbool]

theorem perform_cmp {word : Int} (hcmp : r.instruction.mnemonic = .cmp)
    (h : arithmetic .subtract m symbols r.instruction.operands = .ok (d, word, after)) :
    r.perform m symbols = .ok (r.done after) := by
  unfold Record.perform
  simp only [hcmp, h, Bind.bind, Except.bind, pure, Except.pure]

/-- An addition or subtraction stores its word. -/
theorem perform_stored {word : Int} {flagged : Machine}
    (hop : r.instruction.mnemonic.arithmetic? = some op) (hne : r.instruction.mnemonic ≠ .cmp)
    (h : arithmetic op m symbols r.instruction.operands = .ok (d, word, flagged))
    (hset : flagged.set d.name word = .ok after) : r.perform m symbols = .ok (r.done after) := by
  unfold Record.perform
  cases hmnemonic : r.instruction.mnemonic with
  | add | sub =>
    rw [hmnemonic] at hop
    obtain rfl := Option.some.inj hop
    simp only [h, hset, onMachine, Bind.bind, Except.bind, pure, Except.pure]
  | cmp => exact absurd hmnemonic hne
  | _ =>
    rw [hmnemonic] at hop
    exact absurd hop (by simp [Mnemonic.arithmetic?])

/-- A comparison has set the flags, and that is all. -/
theorem twosComplement_cmp (ha : Arithmetic.IsWordOf (width d.name) a)
    (hb : Arithmetic.IsWordOf (width d.name) b)
    (hshows : after.ShowsResult .subtract (width d.name) a b)
    (hset : m.SetsFlags after (Arithmetic.subtract.compute (width d.name) a b)) :
    TwosComplement .cmp .subtract d m after a b where
  flags := hshows
  stored h := absurd rfl h
  others name hname hflags _ := hset.others name hname hflags
  memory := hset.memory
  equal _ q symbols target ip hje htarget := by
    -- The instruction pointer is no part of the flags.
    have hflags : (after.setWhole "ip" ip).get "flags" = after.get "flags" :=
      Machine.get_congr (Machine.whole_setWhole_of_ne (by decide) ip)
    have hzero := (hshows.congr hflags).zero
    have hequal : decide (Arithmetic.subtract.exact a b % 2 ^ width d.name = 0) = decide (a = b) :=
      decide_eq_decide.2 (Arithmetic.sub_emod_eq_zero_iff ha hb)
    rw [hequal] at hzero
    exact perform_je hje hzero htarget

/-- The result was stored behind the flags. -/
theorem twosComplement_stored {mnemonic : Mnemonic} {flagged : Machine} (hne : mnemonic ≠ .cmp)
    (hshows : flagged.ShowsResult op (width d.name) a b)
    (hset : m.SetsFlags flagged (op.compute (width d.name) a b))
    (hstore : flagged.SetsRegister after d.name (op.exact a b % 2 ^ width d.name)) :
    TwosComplement mnemonic op d m after a b where
  flags := by
    -- The flags are none of the registers that an operand can name.
    obtain ⟨w, hbefore, hafter⟩ := hstore.others "flags" (by decide) (by cases d <;> decide)
    exact hshows.congr (hafter.trans hbefore.symm)
  stored _ := by rw [hstore.self, Int.emod_emod]
  others name hname hflags hapart := by
    obtain ⟨w, hbefore, hafter⟩ := hstore.others name hname (hapart.resolve_left hne)
    rw [hafter, ← hbefore, hset.others name hname hflags]
  memory := hstore.memory.trans hset.memory
  equal h := absurd h hne

/-- **Addition, subtraction and comparison are those of two's complement.** -/
theorem twosComplement_of_wellFormed (hm : m.WellFormed) (symbols : SymbolTable)
    (hop : r.instruction.mnemonic.arithmetic? = some op)
    (hoperands : r.instruction.operands = [.register d, source]) :
    ∃ a v after, m.get d.name = .ok a ∧ source.value m symbols = .ok v
      ∧ r.perform m symbols = .ok (r.done after)
      ∧ TwosComplement r.instruction.mnemonic op d m after a (v % 2 ^ width d.name) := by
  obtain ⟨a, ha, hword⟩ := hm.get d.isRegister
  obtain ⟨v, hv⟩ := hm.value symbols source
  have hsource := Arithmetic.isWordOf_emod (width d.name) v
  obtain ⟨flagged, hflagged, hwell, hset⟩ :=
    hm.setFlags (op.compute (width d.name) a (v % 2 ^ width d.name))
  have harithmetic := arithmetic_eq ha hv hflagged
  have hshows : flagged.ShowsResult op (width d.name) a (v % 2 ^ width d.name) := by
    obtain ⟨k, hk⟩ := exists_width d.name
    rw [hk] at hword hsource hset ⊢
    exact hset.showsResult hword hsource
  obtain ⟨after, hafter, -, hstore⟩ := hwell.set d.isRegister
    (op.exact a (v % 2 ^ width d.name) % 2 ^ width d.name)
  rw [← hoperands] at harithmetic
  -- A comparison leaves the machine with the flags; the others store the result on it.
  by_cases hcmp : r.instruction.mnemonic = .cmp
  · rw [hcmp] at hop ⊢
    obtain rfl := Option.some.inj hop
    exact ⟨a, v, flagged, ha, hv, perform_cmp hcmp harithmetic,
      twosComplement_cmp hword hsource hshows hset⟩
  · exact ⟨a, v, after, ha, hv, perform_stored hop hcmp harithmetic hafter,
      twosComplement_stored hcmp hshows hset hstore⟩

end Instructions

/-! ## The halves of one word -/

/-- A machine with the least byte in two's complement in one half of a word, and the greatest in the
other. -/
def splitWord : Machine :=
  Machine.fresh.setWhole "ax" 0x807F

theorem wellFormed_splitWord : splitWord.WellFormed :=
  Machine.wellFormed_fresh.put (by decide) ⟨by decide, by decide⟩ _

/-- The comparison of the two. -/
def compareHalves : Record where
  address := 0x100
  bytes := [0x38, 0x00, 0x00]
  source := "cmp ah, al"
  instruction := ⟨1, "cmp ah, al", .cmp, [.register .ah, .register .al]⟩

/-- A comparison of the two halves of one register. -/
theorem twosComplement_compareHalves :
    splitWord.WellFormed ∧ compareHalves.instruction.mnemonic.arithmetic? = some .subtract
      ∧ compareHalves.instruction.operands = [.register .ah, .register .al]
      ∧ ∃ after, compareHalves.perform splitWord [] = .ok (compareHalves.done after)
        ∧ TwosComplement .cmp .subtract .ah splitWord after 0x80 0x7F := by
  refine ⟨wellFormed_splitWord, rfl, rfl, ?_⟩
  obtain ⟨a, v, after, ha, hv, hperform, h⟩ :=
    twosComplement_of_wellFormed (r := compareHalves) wellFormed_splitWord [] rfl rfl
  have hleft : splitWord.get "ah" = .ok 0x80 := rfl
  have hright : (Operand.register .al).value splitWord [] = .ok 0x7F := rfl
  obtain rfl := Except.ok.inj (hleft.symm.trans ha)
  obtain rfl := Except.ok.inj (hright.symm.trans hv)
  exact ⟨after, hperform, h⟩

end TurboBench.Asm
