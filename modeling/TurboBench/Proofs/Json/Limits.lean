import Mathlib.Data.List.TakeWhile
import TurboBench.Json.Reader

/-!
# Where the reader gives up

There are texts that nothing is wrong with and that are not read all the same: those with an integer
of too many digits, and those with too many values inside each other. They can be told by their
characters. If the reader gives up, there is a run of more than `digitLimit` digits in the text
(`digits_of_parse`), or there are more brackets in it that open something than there is room for
values inside each other (`openings_of_parse`).

Every reader leaves an end of the text that it was given, and gives up only for what is in that text
(`Within`). This passes from the readers of parts to the readers made of them.
-/

set_option autoImplicit false

namespace TurboBench.Json

/-! ## Outcomes -/

/-- A run of a number of digits stands in a text. -/
def HasDigits (n : Nat) (text : List Char) : Prop :=
  ∃ digits, digits <:+: text ∧ digits.length = n ∧ ∀ c ∈ digits, c.isDigit = true

/-- A character that opens an array or an object. -/
def isOpening (c : Char) : Bool :=
  c == '[' || c == '{'

/-- What comes of reading a text, where a number of values may be inside each other: an end of the
text is left, and giving up has its reason in the text. -/
def Within {α : Type} (depth : Nat) (text : List Char) : Except Complaint (α × Cursor) → Prop
  | .ok (_, after) => after.rest <:+ text
  | .error (.malformed _ _) => True
  | .error (.numeralTooLong n) => digitLimit < n ∧ HasDigits n text
  | .error .arrayTooDeep => depth < text.countP isOpening
  | .error .objectTooDeep => depth < text.countP isOpening

section Outcomes

variable {α β : Type} {depth n : Nat} {text part : List Char} {o : Except Complaint (α × Cursor)}

theorem HasDigits.of_isInfix (h : HasDigits n part) (hpart : part <:+: text) :
    HasDigits n text := by
  obtain ⟨digits, hdigits, hrest⟩ := h
  exact ⟨digits, hdigits.trans hpart, hrest⟩

/-- What is within the limits of a part is within those of the whole. -/
theorem Within.of_suffix (h : Within depth part o) (hpart : part <:+ text) :
    Within depth text o := by
  match o, h with
  | .ok (_, _), h => exact h.trans hpart
  | .error (.malformed _ _), _ => trivial
  | .error (.numeralTooLong _), h => exact ⟨h.1, h.2.of_isInfix hpart.isInfix⟩
  | .error .arrayTooDeep, h => exact Nat.lt_of_lt_of_le h (hpart.sublist.countP_le)
  | .error .objectTooDeep, h => exact Nat.lt_of_lt_of_le h (hpart.sublist.countP_le)

/-- Behind a bracket one value more can be inside another. -/
theorem Within.of_cons {c : Char} (hc : isOpening c = true) (h : Within depth text o) :
    Within (depth + 1) (c :: text) o := by
  have hcount : (c :: text).countP isOpening = text.countP isOpening + 1 :=
    List.countP_cons_of_pos hc
  match o, h with
  | .ok (_, _), h => exact h.trans (List.suffix_cons c text)
  | .error (.malformed _ _), _ => trivial
  | .error (.numeralTooLong _), h =>
    exact ⟨h.1, h.2.of_isInfix (List.suffix_cons c text).isInfix⟩
  | .error .arrayTooDeep, h => exact Nat.lt_of_lt_of_eq (Nat.succ_lt_succ h) hcount.symm
  | .error .objectTooDeep, h => exact Nat.lt_of_lt_of_eq (Nat.succ_lt_succ h) hcount.symm

/-- Two readers one after the other keep the limits that each of them keeps. -/
theorem Within.bind {f : α × Cursor → Except Complaint (β × Cursor)} (h : Within depth text o)
    (hf : ∀ a after, after.rest <:+ text → Within depth text (f (a, after))) :
    Within depth text (o >>= f) := by
  match o, h with
  | .ok (a, after), h => exact hf a after h
  | .error (.malformed _ _), _ => trivial
  | .error (.numeralTooLong _), h => exact h
  | .error .arrayTooDeep, h => exact h
  | .error .objectTooDeep, h => exact h

theorem Cursor.skip_suffix (c : Cursor) (n : Nat) : (c.skip n).rest <:+ c.rest :=
  List.drop_suffix n c.rest

theorem Cursor.skipSpaces_suffix (c : Cursor) : c.skipSpaces.rest <:+ c.rest :=
  c.skip_suffix _

end Outcomes

/-! ## Readers -/

section Readers

variable {depth : Nat}

/-- What is read first may be changed when the rest has been read. -/
theorem Within.push {text part : List Char} {o : Except Complaint (List Char × Cursor)}
    (h : Within depth part o) (hpart : part <:+ text) (c : Char) :
    Within depth text (do let (cs, after) ← o; return (c :: cs, after)) :=
  (h.of_suffix hpart).bind fun _ _ hafter => hafter

/-- Strings are of any length and at any depth. -/
theorem within_stringFrom (opening position : Nat) (text : List Char) :
    Within depth text (stringFrom opening position text) := by
  -- Only a pair of codes takes more than the six characters of one with it (`case6`).
  induction position, text using stringFrom.induct with
  | case1 position => rw [stringFrom]; trivial
  | case2 position rest => rw [stringFrom]; exact List.suffix_cons _ _
  | case3 position => rw [stringFrom]; trivial
  | case4 position a b c d e rest hcode => simp only [stringFrom, hcode]; trivial
  | case5 position a b c d e rest m hcode f g h i head tail hnext hsecond =>
    simp only [dite_eq_ite] at hnext
    simp only [stringFrom, hcode, hnext, hsecond]; trivial
  | case6 position a b c d e rest m hcode f g h i head tail hnext n hsecond hlow ih =>
    simp only [dite_eq_ite] at hnext
    simp only [stringFrom, hcode, hnext, hsecond, hlow, if_true]
    exact ih.push ((List.drop_suffix 5 rest).trans ⟨['\\', 'u', a, b, c, d, e], rfl⟩) _
  | case7 position a b c d e rest m hcode f g h i head tail hnext n hsecond hlow ih =>
    simp only [dite_eq_ite] at hnext
    simp only [stringFrom, hcode, hnext, hsecond, hlow]
    exact ih.push ⟨['\\', 'u', a, b, c, d], rfl⟩ _
  | case8 position a b c d e rest m hcode hnext ih =>
    simp only [dite_eq_ite] at hnext
    simp only [stringFrom, hcode]
    exact ih.push ⟨['\\', 'u', a, b, c, d], rfl⟩ _
  | case9 position rest hshort => simp only [stringFrom]; trivial
  | case10 position e rest hu hescape => simp only [stringFrom, hescape]; trivial
  | case11 position e rest hu c hescape ih =>
    simp only [stringFrom, hescape]
    exact ih.push ⟨['\\', e], rfl⟩ _
  | case12 position c rest hquote hlone hcode hescape hcontrol =>
    simp only [stringFrom, hcontrol, if_true]; trivial
  | case13 position c rest hquote hlone hcode hescape hcontrol ih =>
    simp only [stringFrom, hcontrol, if_false]
    exact ih.push (List.suffix_cons c rest) _

/-- What comes of reading at a place. -/
def WithinAt {α : Type} (depth : Nat) (r : Reader α) : Prop :=
  ∀ c, Within depth c.rest (r c)

theorem withinAt_string : WithinAt depth string := fun c =>
  (within_stringFrom (c.position - 1) c.position c.rest).bind fun _ _ hafter => hafter

/-- The whole part of a numeral begins it. -/
theorem wholePart_isPrefix (cs : List Char) : wholePart cs <+: cs := by
  unfold wholePart
  split
  · exact List.cons_prefix_cons.2 ⟨rfl, List.nil_prefix⟩
  · exact List.takeWhile_prefix _

/-- The whole part of a numeral is made of digits. -/
theorem isDigit_of_mem_wholePart {cs : List Char} {c : Char} (hc : c ∈ wholePart cs) :
    c.isDigit = true := by
  unfold wholePart at hc
  split at hc
  · obtain rfl := List.mem_singleton.1 hc
    decide
  · exact List.mem_takeWhile_imp hc

/-- A number is given up only for its digits, and they are a run of the text. -/
theorem withinAt_number : WithinAt depth number := by
  intro c
  simp only [number]
  split
  · trivial
  · split
    · split
      · rename_i hlong
        refine ⟨hlong, _, ?_, rfl, fun d hd => isDigit_of_mem_wholePart hd⟩
        exact (wholePart_isPrefix _).isInfix.trans (List.drop_suffix _ c.rest).isInfix
      · exact c.skip_suffix _
    · exact c.skip_suffix _

/-- So is a scalar of any kind. -/
theorem withinAt_scalar : WithinAt depth scalar := by
  intro c
  unfold scalar
  split
  · refine ((withinAt_string (c.skip 1)).of_suffix (c.skip_suffix 1)).bind ?_
    exact fun _ _ hafter => hafter
  · split
    · exact c.skip_suffix _
    · exact withinAt_number c

variable {α : Type} {item : Reader α}

/-- Items are given up only where one of them is. -/
theorem withinAt_items (h : WithinAt depth item) (closing : Char) (n : Nat) :
    WithinAt depth (items item closing n) := by
  induction n with
  | zero => exact fun c => trivial
  | succ n ih =>
    intro c
    unfold items
    refine (h c).bind fun a after hafter => ?_
    have hnext : after.skipSpaces.rest <:+ c.rest := after.skipSpaces_suffix.trans hafter
    have hbehind : (after.skipSpaces.skip 1).rest <:+ c.rest :=
      (after.skipSpaces.skip_suffix 1).trans hnext
    simp only
    split
    · trivial
    · split
      · exact hbehind
      · split
        · refine Within.bind ((ih _).of_suffix ?_) fun _ _ hafter => hafter
          exact (Cursor.skipSpaces_suffix _).trans hbehind
        · trivial

/-- So they are if there may be none. -/
theorem withinAt_itemsOrNone (h : WithinAt depth item) (closing : Char) :
    WithinAt depth (itemsOrNone item closing) := by
  intro c
  unfold itemsOrNone
  simp only
  split
  · exact (c.skipSpaces.skip_suffix 1).trans c.skipSpaces_suffix
  · exact (withinAt_items h closing _ c.skipSpaces).of_suffix c.skipSpaces_suffix

/-- A member is given up only where its value is. -/
theorem withinAt_member {value : Reader Value} (h : WithinAt depth value) :
    WithinAt depth (member value) := by
  intro c
  unfold member
  split
  · refine ((withinAt_string (c.skip 1)).of_suffix (c.skip_suffix 1)).bind
      fun name after hafter => ?_
    simp only
    split
    · refine Within.bind ((h _).of_suffix ?_) fun _ _ hafter => hafter
      exact (Cursor.skipSpaces_suffix _).trans ((Cursor.skip_suffix _ 1).trans
        (after.skipSpaces_suffix.trans hafter))
    · trivial
  · trivial

/-- **A value is read within its depth**: giving up takes one bracket more than may be inside each
other. -/
theorem withinAt_value : WithinAt depth (value depth) := by
  -- At depth zero the bracket itself is one too many.
  induction depth with
  | zero =>
    intro c
    unfold value
    split
    · rename_i rest heq
      rw [heq]
      exact Nat.lt_of_lt_of_eq (Nat.succ_pos _) (List.countP_cons_of_pos rfl).symm
    · rename_i rest heq
      rw [heq]
      exact Nat.lt_of_lt_of_eq (Nat.succ_pos _) (List.countP_cons_of_pos rfl).symm
    · exact withinAt_scalar c
  | succ depth ih =>
    intro c
    have hskip {x : Char} {rest : List Char} (heq : c.rest = x :: rest) :
        (c.skip 1).rest = rest := by
      rw [Cursor.skip, heq]
      rfl
    unfold value
    split
    · rename_i rest heq
      rw [heq]
      have hitems := withinAt_itemsOrNone ih ']' (c.skip 1)
      rw [hskip heq] at hitems
      exact (hitems.of_cons rfl).bind fun _ _ hafter => hafter
    · rename_i rest heq
      rw [heq]
      have hitems := withinAt_itemsOrNone (withinAt_member ih) '}' (c.skip 1)
      rw [hskip heq] at hitems
      exact (hitems.of_cons rfl).bind fun _ _ hafter => hafter
    · exact withinAt_scalar c

end Readers

/-! ## Texts -/

section Texts

variable {depth : Nat} {text : List Char}

/-- A text that is given up, and is not malformed, is given up inside of its value. -/
theorem parse_eq_error {c : Complaint} (h : parse depth text = .error c)
    (hc : ∀ flaw position, c ≠ .malformed flaw position) :
    value depth (Cursor.mk 0 text).skipSpaces = .error c := by
  unfold parse at h
  split at h
  · exact absurd (Except.error.inj h).symm (hc _ _)
  · cases hvalue : value depth (Cursor.mk 0 text).skipSpaces with
    | error c' =>
      rw [hvalue] at h
      exact congrArg Except.error (Except.error.inj h)
    | ok r =>
      obtain ⟨v, after⟩ := r
      rw [hvalue] at h
      simp only [bind, Except.bind] at h
      split at h
      · exact nomatch h
      · exact absurd (Except.error.inj h).symm (hc _ _)

theorem within_parse {c : Complaint} (h : parse depth text = .error c)
    (hc : ∀ flaw position, c ≠ .malformed flaw position) :
    Within (α := Value) depth text (.error c) := by
  have hwithin := @withinAt_value depth (Cursor.mk 0 text).skipSpaces
  rw [parse_eq_error h hc] at hwithin
  exact hwithin.of_suffix (Cursor.skipSpaces_suffix _)

/-- **A numeral that is too long is in the text.** -/
theorem digits_of_parse {n : Nat} (h : parse depth text = .error (.numeralTooLong n)) :
    digitLimit < n ∧ HasDigits n text :=
  within_parse h fun _ _ hc => nomatch hc

/-- **Too many brackets that open something are in the text.** -/
theorem openings_of_parse (h : parse depth text = .error .arrayTooDeep
    ∨ parse depth text = .error .objectTooDeep) : depth < text.countP isOpening := by
  rcases h with h | h
  · exact within_parse h fun _ _ hc => nomatch hc
  · exact within_parse h fun _ _ hc => nomatch hc

end Texts

end TurboBench.Json
