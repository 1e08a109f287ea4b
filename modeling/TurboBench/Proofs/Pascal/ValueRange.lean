import Mathlib.Data.Int.Bitwise
import TurboBench.Pascal.Evaluation
import TurboBench.Proofs.Decimal.FiniteResults
import TurboBench.Proofs.Pascal.Occurrences
import TurboBench.Proofs.Text.Capitals

/-!
# The range of values

Most operations check the result that they compute. Those that do not keep to a range for reasons of
their own: a bitwise operator because its operands agree in all places beyond it with their signs
(`Extent.has_bitAnd`), and the root of a double that is not negative is finite. What is left is the
length of a text. A literal may be as long as its source, and its capitals may be longer still, but
every other text that a program makes is short. So it is asked of an expression that no `length` in
it is that of a literal which is too long for the range (`Expr.IsFit`), and then its values are all
in the range (`sound_evalWithin`).

A range of integers is an `Extent`. The integers of the type are the smallest one that is looked at,
and larger ones take in the lengths of whatever texts there are.

Besides, an operation fails only with faults that a program can have (`Fault.Possible L`), so not
for a name or for an integer that is too large for a real. The proposition `L` is that the range is
not beyond all measure. Where it fails, no real need be near an integer of the range, and nothing is
said of reals.
-/

set_option autoImplicit false

namespace TurboBench.Pascal

/-! ## Ranges of integers -/

/-- A range of integers: those with so many bits beside the sign. -/
structure Extent where
  bits : Nat
  /-- The range is not beyond all measure. -/
  moderate : Prop
  /-- The integers of the type are in it. -/
  integers : 31 ≤ bits
  /-- A real is near every integer of a range that is moderate. -/
  near : moderate → bits ≤ 100

/-- The range of the integers of the type. -/
def Extent.longint : Extent where
  bits := 31
  moderate := True
  integers := Nat.le_refl _
  near _ := by decide

namespace Extent

variable {X : Extent} {a b n : Int}

/-- The integer is in the range. -/
def Has (X : Extent) (n : Int) : Prop :=
  -2 ^ X.bits ≤ n ∧ n < 2 ^ X.bits

theorem two_pow_le {k m : Nat} (h : k ≤ m) : (2 : Int) ^ k ≤ 2 ^ m := by
  exact_mod_cast Nat.pow_le_pow_right (by decide) h

/-- A longint is in every range. -/
theorem has_of_inRange (hmin : minInteger ≤ n) (hmax : n ≤ maxInteger) : X.Has n := by
  have hpow := two_pow_le X.integers
  unfold minInteger at hmin
  unfold maxInteger at hmax
  unfold Has
  omega

theorem has_of_le {m : Nat} (hm : m ≤ maxInteger) : X.Has m :=
  has_of_inRange (Int.le_trans (by decide) (Int.natCast_nonneg m)) hm

/-- The range of the longints is the one between the least and the greatest integer. -/
theorem has_longint_iff : longint.Has n ↔ minInteger ≤ n ∧ n ≤ maxInteger := by
  have hmin : minInteger = -2 ^ longint.bits := by decide
  have hmax : maxInteger = 2 ^ longint.bits - 1 := by decide
  unfold Has
  omega

/-- Lengths up to a power of two are in the range. -/
theorem has_natCast {m : Nat} : X.Has m ↔ m < 2 ^ X.bits := by
  have hpow : ((2 ^ X.bits : Nat) : Int) = 2 ^ X.bits := by push_cast; rfl
  unfold Has
  omega

theorem has_negSucc {m : Nat} : X.Has (.negSucc m) ↔ m < 2 ^ X.bits := by
  have hpow : ((2 ^ X.bits : Nat) : Int) = 2 ^ X.bits := by push_cast; rfl
  unfold Has
  omega

theorem natAbs_le (h : X.Has n) (hmoderate : X.moderate) : n.natAbs ≤ 2 ^ 100 := by
  have hpow := two_pow_le (X.near hmoderate)
  unfold Has at h
  omega

end Extent

/-! ## Bits of integers -/

section Bits

variable {X : Extent} {a b : Int}

/-- In every place `and` looks at the two bits there, whatever the signs are. -/
theorem testBit_bitAnd (a b : Int) (k : Nat) :
    (bitAnd a b).testBit k = (a.testBit k && b.testBit k) := by
  cases a with
  | ofNat m =>
    cases b with
    | ofNat n => exact Nat.testBit_and m n k
    | negSucc n =>
      simp only [bitAnd, Int.testBit, Nat.testBit_xor, Nat.testBit_and]
      cases m.testBit k <;> cases n.testBit k <;> rfl
  | negSucc m =>
    cases b with
    | ofNat n =>
      simp only [bitAnd, Int.testBit, Nat.testBit_xor, Nat.testBit_and]
      cases m.testBit k <;> cases n.testBit k <;> rfl
    | negSucc n =>
      simp only [bitAnd, Int.testBit, Nat.testBit_or, Bool.not_or]

/-- A bit is set in the result of `or` if it is set in one of the operands. -/
theorem testBit_bitOr (a b : Int) (k : Nat) :
    (bitOr a b).testBit k = (a.testBit k || b.testBit k) := by
  cases a with
  | ofNat m =>
    cases b with
    | ofNat n => exact Nat.testBit_or m n k
    | negSucc n =>
      simp only [bitOr, Int.testBit, Nat.testBit_xor, Nat.testBit_and]
      cases m.testBit k <;> cases n.testBit k <;> rfl
  | negSucc m =>
    cases b with
    | ofNat n =>
      simp only [bitOr, Int.testBit, Nat.testBit_xor, Nat.testBit_and]
      cases m.testBit k <;> cases n.testBit k <;> rfl
    | negSucc n =>
      simp only [bitOr, Int.testBit, Nat.testBit_and, Bool.not_and]

/-- A bitwise operator does not leave a range: a magnitude has no bits beyond it, so there each
operand has the bit of its sign, and so does the result. -/
theorem Extent.has_bitAnd (ha : X.Has a) (hb : X.Has b) : X.Has (bitAnd a b) := by
  cases a with
  | ofNat m =>
    have hm := has_natCast.1 ha
    cases b with
    | ofNat n => exact has_natCast.2 (Nat.and_lt_two_pow m (has_natCast.1 hb))
    | negSucc n =>
      exact has_natCast.2 (Nat.xor_lt_two_pow hm (Nat.and_lt_two_pow m (has_negSucc.1 hb)))
  | negSucc m =>
    have hm := has_negSucc.1 ha
    cases b with
    | ofNat n =>
      have hn := has_natCast.1 hb
      exact has_natCast.2 (Nat.xor_lt_two_pow hn (Nat.and_lt_two_pow m hn))
    | negSucc n => exact has_negSucc.2 (Nat.or_lt_two_pow hm (has_negSucc.1 hb))

/-- The bits of an `or` stay in the range of its operands. -/
theorem Extent.has_bitOr (ha : X.Has a) (hb : X.Has b) : X.Has (bitOr a b) := by
  cases a with
  | ofNat m =>
    have hm := has_natCast.1 ha
    cases b with
    | ofNat n => exact has_natCast.2 (Nat.or_lt_two_pow hm (has_natCast.1 hb))
    | negSucc n =>
      have hn := has_negSucc.1 hb
      exact has_negSucc.2 (Nat.xor_lt_two_pow hn (Nat.and_lt_two_pow m hn))
  | negSucc m =>
    have hm := has_negSucc.1 ha
    cases b with
    | ofNat n =>
      have hn := has_natCast.1 hb
      exact has_negSucc.2 (Nat.xor_lt_two_pow hm (Nat.and_lt_two_pow m hn))
    | negSucc n => exact has_negSucc.2 (Nat.and_lt_two_pow m (has_negSucc.1 hb))

end Bits

/-! ## Outcomes -/

/-- The faults of programs whose names are all declared and, if `L` holds, whose integers are all of
a size that a real is near to. -/
def Fault.Possible (L : Prop) : Fault → Prop
  | .unknownIdentifier _ => False
  | .noReal => ¬ L
  | _ => True

/-- A result that satisfies `G`, or a fault that a program can have. -/
def Sound {α : Type} (L : Prop) (G : α → Prop) : Except Fault α → Prop
  | .ok a => G a
  | .error f => f.Possible L

/-- The same if it has no result. -/
def SoundIfAny {α : Type} (L : Prop) (G : α → Prop) (o : Option (Except Fault α)) : Prop :=
  ∀ r ∈ o, Sound L G r

/-- The capitals that a text can have which is neither a literal nor the capitals of one: those of a
string. -/
def maxCapitals : Nat :=
  3 * maxStringLength

/-- A value of the range. A text is the fixed one, or else it is short. -/
def Value.Within (X : Extent) (fixed : Option String) : Value → Prop
  | .integer n => X.Has n
  | .real x => X.moderate → x.isFinite = true
  | .boolean _ => True
  | .text s => fixed = some s ∨ (Text.upper s.toList).length ≤ maxCapitals

theorem SoundIfAny.getD {α : Type} {L : Prop} {G : α → Prop} {o : Option (Except Fault α)}
    (h : SoundIfAny L G o) {f : Fault} (hf : f.Possible L) : Sound L G (o.getD (.error f)) := by
  cases o with
  | none => exact hf
  | some r => exact h r rfl

section Operations

variable {X : Extent} {fixed : Option String}

/-! ## Checks -/

/-- An integer that is checked is in range, or the fault is an overflow. -/
theorem sound_checkInteger (n : Int) :
    Sound X.moderate (Value.Within X fixed) (checkInteger n) := by
  unfold checkInteger
  split
  · rename_i hrange
    exact Extent.has_of_inRange hrange.1 hrange.2
  · exact True.intro

/-- A real that is checked is finite, or the fault is an overflow. -/
theorem sound_checkReal (x : Float) : Sound X.moderate (Value.Within X fixed) (checkReal x) := by
  unfold checkReal
  split
  · rename_i hfinite
    exact fun _ => hfinite
  · exact True.intro

/-- The capitals of a text that is not longer than a string. -/
theorem within_text {s : String} (hs : s.length ≤ maxStringLength) :
    Value.Within X fixed (.text s) := by
  have hupper := Text.length_upper_le s.toList
  rw [String.length_toList] at hupper
  exact .inr (Nat.le_trans hupper (Nat.mul_le_mul_left 3 hs))

/-! ## Operators -/

/-- A unary operator keeps to the range, or has a fault that is possible. -/
theorem sound_unary (op : UnaryOp) {v : Value} (hv : v.Within X fixed) :
    Sound X.moderate (Value.Within X none) (op.apply v) := by
  cases op with
  | negate =>
    cases v with
    | integer n => exact sound_checkInteger _
    | real x => exact sound_checkReal _
    | boolean b => exact True.intro
    | text s => exact True.intro
  | not =>
    cases v with
    | integer n =>
      simp only [UnaryOp.apply, Sound, Value.Within, Extent.Has] at hv ⊢
      omega
    | real x => exact True.intro
    | boolean b => exact True.intro
    | text s => exact True.intro

/-- A division by zero, or a quotient. -/
theorem sound_divided {b : Prop} [Decidable b] {r : Except Fault Value}
    (hr : Sound X.moderate (Value.Within X none) r) :
    Sound X.moderate (Value.Within X none) (if b then .error .divisionByZero else r) := by
  split
  · exact True.intro
  · exact hr

/-- Operators on integers keep to the range: all are checked but `and` and `or`, which add no
bits. -/
theorem sound_onIntegers (op : BinaryOp) {a b : Int} (ha : X.Has a) (hb : X.Has b) :
    SoundIfAny X.moderate (Value.Within X none) (op.onIntegers? a b) := by
  intro r hr
  cases op <;> simp only [BinaryOp.onIntegers?, Option.mem_def, Option.some.injEq,
    reduceCtorEq] at hr
  all_goals subst hr
  · exact Extent.has_bitAnd ha hb
  · exact Extent.has_bitOr ha hb
  · exact sound_checkInteger _
  · exact sound_checkInteger _
  · exact sound_checkInteger _
  · exact sound_divided (sound_checkReal _)
  · exact sound_divided (sound_checkInteger _)
  · exact sound_divided (sound_checkInteger _)

/-- Operators on reals check their results. -/
theorem sound_onReals (op : BinaryOp) (x y : Float) :
    SoundIfAny X.moderate (Value.Within X none) (op.onReals? x y) := by
  intro r hr
  cases op <;> simp only [BinaryOp.onReals?, Option.mem_def, Option.some.injEq,
    reduceCtorEq] at hr
  all_goals subst hr
  · exact sound_checkReal _
  · exact sound_checkReal _
  · exact sound_checkReal _
  · exact sound_divided (sound_checkReal _)

/-- Operators on values of the range keep to it, whatever kinds they meet. -/
theorem sound_combine (op : BinaryOp) {v w : Value} {fixed' : Option String}
    (hv : v.Within X fixed) (hw : w.Within X fixed') :
    SoundIfAny X.moderate (Value.Within X none) (op.combine? v w) := by
  unfold BinaryOp.combine?
  split
  · exact sound_onIntegers op hv hw
  · exact sound_onReals op _ _
  · exact sound_onReals op _ _
  · exact sound_onReals op _ _
  · split
    · exact fun r hr => Option.some.inj hr ▸ True.intro
    · exact fun r hr => Option.some.inj hr ▸ True.intro
    · exact fun r hr => nomatch hr
  · -- A joined text is cut to the length of a string.
    split
    · intro r hr
      obtain rfl := Option.some.inj hr
      refine within_text (X := X) ?_
      rw [length_cutString]
      exact Nat.min_le_left _ _
    · exact fun r hr => nomatch hr
  · exact fun r hr => nomatch hr

/-- The same with the fault for kinds that do not go together. -/
theorem sound_binary (op : BinaryOp) {v w : Value} {fixed' : Option String}
    (hv : v.Within X fixed) (hw : w.Within X fixed') :
    Sound X.moderate (Value.Within X none) (op.apply v w) := by
  unfold BinaryOp.apply
  refine SoundIfAny.getD ?_ True.intro
  split
  · intro r hr
    obtain ⟨o, -, rfl⟩ := Option.map_eq_some_iff.1 hr
    exact True.intro
  · exact sound_combine op hv hw

/-! ## Functions -/

/-- Truncating checks its result. -/
theorem sound_truncate (x : Float) : Sound X.moderate (Value.Within X none) (truncate x) := by
  unfold truncate
  split
  · exact sound_checkInteger _
  · exact True.intro

/-- Rounding checks its result. -/
theorem sound_round (x : Float) : Sound X.moderate (Value.Within X none) (Pascal.round x) := by
  unfold Pascal.round
  split
  · exact sound_checkInteger _
  · exact True.intro

/-- Functions of an integer keep to the range, or have a fault that is possible. -/
theorem sound_onInteger (f : Builtin) {n : Int} (hn : X.Has n) :
    SoundIfAny X.moderate (Value.Within X none) (f.onInteger? n) := by
  intro r hr
  cases f <;> simp only [Builtin.onInteger?, Option.mem_def, Option.some.injEq, reduceCtorEq] at hr
  all_goals subst hr
  -- Only the square root of an integer is not settled by the check of its result.
  case sqrt =>
    split
    · exact True.intro
    · rename_i hneg
      intro hmoderate
      have hsize := Extent.natAbs_le hn hmoderate
      obtain ⟨m, rfl⟩ := Int.eq_ofNat_of_zero_le (Int.not_lt.1 hneg)
      exact Decimal.isFinite_sqrt (Decimal.below_ofNat (by omega))
  case chr =>
    split
    · refine within_text (X := X) ?_
      rw [String.length_ofList, List.length_singleton]
      decide
    · exact True.intro
  case ord => exact hn
  case odd => exact True.intro
  all_goals exact sound_checkInteger _

/-- Functions of a finite real keep to the range, or have a fault that is possible. -/
theorem sound_onReal (f : Builtin) {x : Float} (hx : X.moderate → x.isFinite = true) :
    SoundIfAny X.moderate (Value.Within X none) (f.onReal? x) := by
  intro r hr
  cases f <;> simp only [Builtin.onReal?, Option.mem_def, Option.some.injEq, reduceCtorEq] at hr
  all_goals subst hr
  · exact sound_checkReal _
  · exact sound_checkReal _
  · split
    · exact True.intro
    · rename_i hneg
      exact fun hL => Decimal.isFinite_sqrt (Decimal.below_of_not_lt_zero (hx hL) hneg)
  · exact sound_truncate x
  · exact sound_round x

/-- The text that the value of a function is if its argument is the fixed text. -/
def Builtin.fixedText? (f : Builtin) (fixed : Option String) : Option String :=
  match f with
  | .upcase => fixed.map fun s => String.ofList (Text.upper s.toList)
  | _ => none

/-- The length of a text is in range, if that of the fixed text is. -/
theorem length_le_of_within {s : String} (hs : Value.Within X fixed (.text s))
    (hfixed : ∀ t ∈ fixed, t.length < 2 ^ X.bits) : s.length < 2 ^ X.bits := by
  rcases hs with hs | hs
  · exact hfixed s hs
  · have hlength := Text.length_le_length_upper s.toList
    rw [String.length_toList] at hlength
    have hpow : 2 ^ 31 ≤ 2 ^ X.bits := Nat.pow_le_pow_right (by decide) X.integers
    unfold maxCapitals maxStringLength at hs
    omega

/-- Functions of a text keep to the range. Only `length` needs the length of a fixed text to fit, as
nothing checks it. -/
theorem sound_onText (f : Builtin) {s : String} (hs : Value.Within X fixed (.text s))
    (hlength : f = .length → ∀ t ∈ fixed, t.length < 2 ^ X.bits) :
    SoundIfAny X.moderate (Value.Within X (f.fixedText? fixed)) (f.onText? s) := by
  intro r hr
  cases f <;> simp only [Builtin.onText?, Option.mem_def, Option.some.injEq, reduceCtorEq] at hr
  case ord =>
    split at hr
    · rename_i c _
      obtain rfl := Option.some.inj hr
      have hvalid : c.toNat < 0xD800 ∨ 0xDFFF < c.toNat ∧ c.toNat < 0x110000 := c.valid
      have hvalue : maxInteger = 2 ^ 31 - 1 := by decide
      exact Extent.has_of_le (by omega)
    · exact nomatch hr
  case length =>
    subst hr
    exact Extent.has_natCast.2 (length_le_of_within hs (hlength rfl))
  case upcase =>
    subst hr
    -- Capitals of capitals are no more.
    simp only [Sound, Value.Within, Builtin.fixedText?, String.toList_ofList,
      Text.length_upper_upper]
    rcases hs with rfl | hs
    · exact .inl rfl
    · exact .inr hs

theorem Value.Within.of_none {v : Value} (h : v.Within X none) : v.Within X fixed := by
  cases v with
  | text s => exact .inr (h.resolve_left nofun)
  | _ => exact h

theorem Sound.within_of_none {r : Except Fault Value}
    (h : Sound X.moderate (Value.Within X none) r) : Sound X.moderate (Value.Within X fixed) r := by
  cases r with
  | ok v => exact Value.Within.of_none h
  | error f => exact h

/-- Functions of values of the range keep to it, or have a fault that is possible. -/
theorem sound_call (f : Builtin) {v : Value} (hv : v.Within X fixed)
    (hlength : f = .length → ∀ t ∈ fixed, t.length < 2 ^ X.bits) :
    Sound X.moderate (Value.Within X (f.fixedText? fixed)) (f.apply v) := by
  unfold Builtin.apply
  refine SoundIfAny.getD ?_ True.intro
  cases v with
  | integer n => exact fun r hr => (sound_onInteger f hv r hr).within_of_none
  | real x => exact fun r hr => (sound_onReal f hv r hr).within_of_none
  | text s => exact sound_onText f hv hlength
  | boolean b =>
    intro r hr
    simp only at hr
    split at hr
    · obtain rfl := Option.some.inj hr
      cases b <;> exact Extent.has_of_le (X := X) (by decide)
    · exact nomatch hr

end Operations

/-! ## Variables -/

/-- A value that a variable of the type can hold. -/
def Value.HasType : PascalType → Value → Prop
  | .integer, .integer n => minInteger ≤ n ∧ n ≤ maxInteger
  | .real, .real x => x.isFinite = true
  | .boolean, .boolean _ => True
  | .char, .text s => s.length ≤ 1
  | .string, .text s => s.length ≤ maxStringLength
  | _, _ => False

/-- A store of the declared variables, each of which holds a value of its type. -/
structure Store.Typed (declarations : List Declaration) (σ : Store) : Prop where
  layout : σ.cells.map (fun v => (v.name, v.type)) = declarations.map (fun d => (d.name, d.type))
  values : ∀ v ∈ σ.cells, v.value.HasType v.type

/-- A variable begins with a value of its type. -/
theorem hasType_initial (t : PascalType) : t.initial.HasType t := by
  cases t with
  | integer => exact ⟨by decide, by decide⟩
  | real => exact rfl
  | boolean => exact True.intro
  | char => exact Nat.zero_le _
  | string => exact Nat.zero_le _

/-- What a variable can hold is of every range. -/
theorem within_of_hasType {X : Extent} {fixed : Option String} {t : PascalType} {v : Value}
    (h : v.HasType t) : v.Within X fixed := by
  unfold Value.HasType at h
  split at h
  · exact Extent.has_of_inRange h.1 h.2
  · exact fun _ => h
  · exact True.intro
  · exact within_text (Nat.le_trans h (by decide))
  · exact within_text h
  · exact h.elim

/-- What is assigned to a variable has passed the check of its type. -/
theorem sound_coerce {X : Extent} {fixed : Option String} (t : PascalType) (name : String)
    {v : Value} (hv : v.Within X fixed) :
    Sound X.moderate (Value.HasType t) (coerce t name v) := by
  unfold coerce
  refine SoundIfAny.getD ?_ True.intro
  intro r hr
  -- A type admits the values of its own and a few others, and each is checked as it is made.
  unfold PascalType.admit? at hr
  split at hr
  · obtain rfl := Option.some.inj hr
    unfold checkInteger
    split
    · assumption
    · exact True.intro
  · obtain rfl := Option.some.inj hr
    rename_i n
    simp only [widen]
    split
    · assumption
    · rename_i hinfinite
      intro hmoderate
      have hsize := Extent.natAbs_le hv hmoderate
      exact hinfinite (Decimal.isFinite_ofInt (by omega))
  · obtain rfl := Option.some.inj hr
    unfold checkReal
    split
    · assumption
    · exact True.intro
  · exact Option.some.inj hr ▸ True.intro
  · split at hr
    · rename_i hlength
      exact Option.some.inj hr ▸ hlength
    · exact nomatch hr
  · obtain rfl := Option.some.inj hr
    change (cutString _).length ≤ maxStringLength
    rw [length_cutString]
    exact Nat.min_le_left _ _
  · exact nomatch hr

namespace Store

variable {D : List Declaration} {σ : Store} {name : String}

theorem find?_some {v : Variable} (h : σ.find? name = some v) : v ∈ σ.cells ∧ v.name = name :=
  ⟨List.mem_of_find?_eq_some h, by simpa using List.find?_some h⟩

/-- A declared variable is found. -/
theorem Typed.find (h : σ.Typed D) (hname : D.any (·.name == name) = true) :
    ∃ v, σ.find? name = some v ∧ v.name = name ∧ v.value.HasType v.type := by
  have hmem : name ∈ σ.cells.map (·.name) := by
    obtain ⟨d, hd, hdname⟩ := List.any_eq_true.1 hname
    have hnames := congrArg (List.map Prod.fst) h.layout
    simp only [List.map_map, Function.comp_def] at hnames
    rw [hnames]
    exact List.mem_map.2 ⟨d, hd, beq_iff_eq.1 hdname⟩
  obtain ⟨w, hw, hwname⟩ := List.mem_map.1 hmem
  have hfound : (σ.find? name).isSome = true :=
    List.find?_isSome.2 ⟨w, hw, decide_eq_true hwname⟩
  obtain ⟨v, hv⟩ := Option.isSome_iff_exists.1 hfound
  exact ⟨v, hv, (find?_some hv).2, h.values v (find?_some hv).1⟩

/-- A list in which a variable was replaced has no other variables than before and the new one. -/
theorem mem_replaceIn {v w : Variable} {vs : List Variable} (h : w ∈ v.replaceIn vs) :
    w = v ∨ w ∈ vs := by
  induction vs with
  | nil => exact nomatch h
  | cons u us ih =>
    unfold Variable.replaceIn at h
    split at h
    · rcases List.mem_cons.1 h with rfl | h
      · exact .inl rfl
      · exact .inr (List.mem_cons_of_mem u h)
    · rcases List.mem_cons.1 h with rfl | h
      · exact .inr List.mem_cons_self
      · exact (ih h).imp_right (List.mem_cons_of_mem u)

/-- A variable whose value is replaced keeps its place, its name and its type. -/
theorem map_replaceIn {v w : Variable} {vs : List Variable}
    (h : vs.find? (·.name = v.name) = some w) (htype : w.type = v.type) :
    (v.replaceIn vs).map (fun v => (v.name, v.type)) = vs.map (fun v => (v.name, v.type)) := by
  induction vs with
  | nil => rfl
  | cons u us ih =>
    by_cases hu : u.name = v.name
    · simp only [List.find?_cons, hu, decide_true, Option.some.injEq] at h
      obtain rfl := h
      rw [Variable.replaceIn, if_pos hu, List.map_cons, List.map_cons, hu, htype]
    · simp only [List.find?_cons, hu, decide_false] at h
      rw [Variable.replaceIn, if_neg hu, List.map_cons, List.map_cons, ih h]

/-- A variable takes another value of its type. -/
theorem Typed.put (h : σ.Typed D) {v : Variable} (hv : σ.find? name = some v) {new : Value}
    (hnew : new.HasType v.type) : (σ.put { v with value := new }).Typed D := by
  have hname := (find?_some hv).2
  constructor
  · rw [← h.layout]
    exact map_replaceIn (v := { v with value := new }) (w := v) (hname.symm ▸ hv) rfl
  · intro w hw
    rcases mem_replaceIn hw with rfl | hw
    · exact hnew
    · exact h.values w hw

/-- Setting a declared variable checks the value, so the store stays typed. -/
theorem Typed.sound_set {X : Extent} {fixed : Option String} (h : σ.Typed D)
    (hname : D.any (·.name == name) = true) {value : Value} (hvalue : value.Within X fixed) :
    Sound X.moderate (Store.Typed D) (σ.set name value) := by
  obtain ⟨v, hv, -, -⟩ := h.find hname
  have hcoerce := sound_coerce v.type name hvalue
  cases hnew : coerce v.type name value with
  | ok new =>
    rw [hnew] at hcoerce
    simp only [Store.set, hv, hnew, Except.map]
    exact h.put hv hcoerce
  | error f =>
    rw [hnew] at hcoerce
    simp only [Store.set, hv, hnew, Except.map]
    exact hcoerce

/-- A declared variable can be reset, and the store stays typed. -/
theorem Typed.reset (h : σ.Typed D) (hname : D.any (·.name == name) = true) :
    ∃ τ v, σ.reset? name = some (τ, v) ∧ τ.Typed D := by
  obtain ⟨v, hv, -, -⟩ := h.find hname
  refine ⟨σ.put { v with value := v.type.initial }, v.type.initial, ?_,
    h.put hv (hasType_initial v.type)⟩
  unfold Store.reset?
  rw [hv]
  rfl

/-- A new name is put at the end of the store. -/
theorem declare_of_new {t : PascalType} (h : name ∉ σ.cells.map (·.name)) :
    σ.declare name t = ⟨σ.cells ++ [⟨name, t, t.initial⟩]⟩ := by
  have hnone : σ.find? name = none := by
    rw [Store.find?, List.find?_eq_none]
    intro v hv hname
    exact h (List.mem_map.2 ⟨v, hv, of_decide_eq_true hname⟩)
  unfold Store.declare
  rw [hnone]

/-- The variables of distinct declarations, in their order, with their initial values. -/
theorem cells_foldl_declare (ds : List Declaration)
    (hnew : ∀ d ∈ ds, d.name ∉ σ.cells.map (·.name)) (hdistinct : (ds.map (·.name)).Nodup) :
    (ds.foldl (fun σ d => σ.declare d.name d.type) σ).cells
      = σ.cells ++ ds.map fun d => ⟨d.name, d.type, d.type.initial⟩ := by
  induction ds generalizing σ with
  | nil => exact (List.append_nil _).symm
  | cons d ds ih =>
    obtain ⟨hd, hds⟩ := List.forall_mem_cons.1 hnew
    rw [List.map_cons, List.nodup_cons] at hdistinct
    rw [List.foldl_cons, declare_of_new hd, ih _ hdistinct.2]
    · rw [List.append_assoc, List.map_cons]
      rfl
    · intro e he
      rw [List.map_append, List.mem_append, List.map_singleton, List.mem_singleton]
      rintro (hold | hsame)
      · exact hds e he hold
      · exact hdistinct.1 (List.mem_map.2 ⟨e, he, hsame⟩)

/-- The store that a run begins with is typed, if the declared names are distinct. -/
theorem typed_declared (hdistinct : (D.map (·.name)).Nodup) :
    (D.foldl (fun σ d => σ.declare d.name d.type) Store.empty).Typed D := by
  have hcells := cells_foldl_declare (σ := Store.empty) D (by simp [Store.empty]) hdistinct
  constructor
  · rw [hcells, Store.empty, List.nil_append, List.map_map]
    rfl
  · intro v hv
    rw [hcells, Store.empty, List.nil_append, List.mem_map] at hv
    obtain ⟨d, -, rfl⟩ := hv
    exact hasType_initial d.type

end Store

/-! ## Expressions -/

/-- A value of the range that the bound gives, or a fault that a program can have. -/
def SoundAt {α : Type} (L : Prop) (G : α → Prop) : Except RuntimeError α → Prop
  | .ok a => G a
  | .error e => e.fault.Possible L

theorem Sound.charge {α : Type} {L : Prop} {G : α → Prop} {r : Except Fault α} (h : Sound L G r)
    (line : Nat) : SoundAt L G (charge line r) := by
  cases r with
  | ok a => exact h
  | error f => exact h

/-- The text that an expression has in every store, if it is a literal or the capitals of one. -/
def Expr.fixedText? : Expr → Option String
  | .literal (.text s) _ => some s
  | .call f e _ => f.fixedText? e.fixedText?
  | _ => none

/-- What an expression needs to be evaluated: its variables are declared, and its literals and the
lengths of its fixed texts are in the range. -/
def Expr.IsFit (X : Extent) (D : List Declaration) : Expr → Prop
  | .literal v line => v.Within X (Expr.literal v line).fixedText?
  | .variable name _ => D.any (·.name == name) = true
  | .call .length e _ => ∀ s ∈ e.fixedText?, s.length < 2 ^ X.bits
  | _ => True

theorem SoundAt.bind {α β : Type} {L : Prop} {G : α → Prop} {H : β → Prop}
    {r : Except RuntimeError α} {f : α → Except RuntimeError β} (h : SoundAt L G r)
    (hf : ∀ a, G a → SoundAt L H (f a)) : SoundAt L H (r >>= f) := by
  cases r with
  | ok a => exact hf a h
  | error e => exact h

section Evaluation

variable {X : Extent} {D : List Declaration} {σ : Store} (hσ : σ.Typed D)

include hσ

/-- A declared variable has a value, which is of the range. -/
theorem sound_get {name : String} (hname : D.any (·.name == name) = true) :
    Sound X.moderate (Value.Within X none) (σ.get name) := by
  obtain ⟨v, hv, -, hvalue⟩ := hσ.find hname
  unfold Store.get
  rw [hv]
  exact within_of_hasType hvalue

/-- **Every value of an expression is in range**, and a text that is not short is the one that the
expression has in every store. -/
theorem sound_evalWithin (stepLine : Nat) :
    (e : Expr) → (room : Nat) → (∀ x ∈ e.nodes, x.IsFit X D) →
      SoundAt X.moderate (Value.Within X e.fixedText?) (e.evalWithin σ stepLine room)
  | .literal v line, room, he => by
    have hv := he (.literal v line) (Expr.mem_nodes_self _)
    rw [Expr.evalWithin]
    exact hv
  | .variable name line, room, he => by
    have hname := he (.variable name line) (Expr.mem_nodes_self _)
    rw [Expr.evalWithin]
    exact (sound_get hσ hname).charge line
  -- An expression that is too deep has no value.
  | .unary .., 0, he => True.intro
  | .binary .., 0, he => True.intro
  | .call .., 0, he => True.intro
  | .unary op e line, room + 1, he => by
    have hinner := sound_evalWithin stepLine e room fun x hx => he x (List.mem_cons_of_mem _ hx)
    rw [Expr.evalWithin]
    exact hinner.bind fun v hv => (sound_unary op hv).charge line
  | .binary op l r line, room + 1, he => by
    have hleft := sound_evalWithin stepLine l room fun x hx =>
      he x (List.mem_cons_of_mem _ (List.mem_append_left _ hx))
    have hright := sound_evalWithin stepLine r room fun x hx =>
      he x (List.mem_cons_of_mem _ (List.mem_append_right _ hx))
    rw [Expr.evalWithin]
    exact hleft.bind fun v hv => hright.bind fun w hw => (sound_binary op hv hw).charge line
  | .call f e line, room + 1, he => by
    have hinner := sound_evalWithin stepLine e room fun x hx => he x (List.mem_cons_of_mem _ hx)
    have hcall := he (.call f e line) (Expr.mem_nodes_self _)
    have hlength : f = .length → ∀ s ∈ e.fixedText?, s.length < 2 ^ X.bits := by
      rintro rfl
      exact hcall
    rw [Expr.evalWithin]
    exact hinner.bind fun v hv => (sound_call f hv hlength).charge line

end Evaluation

end TurboBench.Pascal
