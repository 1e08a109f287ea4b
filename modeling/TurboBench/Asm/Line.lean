import TurboBench.Text.Alphanumeric
import TurboBench.Asm.Instruction

/-!
The lines of an assembler source.

A line may carry a comment after a semicolon, a label before a colon, and an instruction or a
directive with its arguments. Quotation marks of both kinds protect semicolons and commas, and
parentheses protect commas. Both readings walk along the line with the quotation mark that is
open, if one is (`quoteAfter`).
-/

namespace TurboBench.Asm

open TurboBench.Text (isBlank trim trimLeft lower words unwords firstWord isWordChar)

/-! ## Quotations and comments -/

/-- A quotation mark. -/
def isQuote (c : Char) : Bool :=
  c == '\'' || c == '"'

/-- The quotation mark that is open after a character, when `quote` was open before it. -/
def quoteAfter (quote : Option Char) (c : Char) : Option Char :=
  match quote with
  | some q => if c = q then none else some q
  | none => if isQuote c then some c else none

/-- The text before the first semicolon outside quotations. -/
def beforeComment (quote : Option Char) : List Char → List Char
  | [] => []
  | c :: cs =>
    if quote = none ∧ c = ';' then []
    else c :: beforeComment (quoteAfter quote c) cs

/-- A line without its comment. -/
def stripComment (line : List Char) : List Char :=
  beforeComment none line

/-! ## Labels -/

/-- A character that may begin a label. -/
def isLabelStart (c : Char) : Bool :=
  c.isAlpha || c == '_' || c == '.' || c == '$' || c == '@' || c == '?'

/-- A character that may stand in a label. -/
def isLabelPart (c : Char) : Bool :=
  isLabelStart c || c.isDigit

/-- The label before the first colon of a line, in small letters, and the rest of the line; both
without outer white space. -/
def splitLabel (line : List Char) : Option String × List Char :=
  let cs := trim line
  let name := cs.takeWhile isLabelPart
  match name, trimLeft (cs.dropWhile isLabelPart) with
  | c :: _, ':' :: rest =>
    if isLabelStart c then (some (String.ofList (name.map Char.toLower)), trim rest)
    else (none, cs)
  | _, _ => (none, cs)

/-! ## Arguments -/

/-- The first of the pieces with a character before it. -/
def prepend (c : Char) : List (List Char) → List (List Char)
  | [] => [[c]]
  | w :: ws => (c :: w) :: ws

/-- How deep in parentheses the text after a character is, when the character is at `depth`. -/
def depthAfter (depth : Int) (c : Char) : Int :=
  if c = '(' then depth + 1 else if c = ')' then depth - 1 else depth

/-- The pieces of a text between the commas that neither a quotation nor parentheses protect. -/
def cutAtCommas (quote : Option Char) (depth : Int) : List Char → List (List Char)
  | [] => [[]]
  | c :: cs =>
    if quote.isSome then prepend c (cutAtCommas (quoteAfter quote c) depth cs)
    else if c = ',' ∧ depth ≤ 0 then [] :: cutAtCommas none depth cs
    else prepend c (cutAtCommas (quoteAfter none c) (depthAfter depth c) cs)

/-- The arguments of a text: its pieces without outer white space, as far as they are not
empty. -/
def arguments (text : List Char) : List (List Char) :=
  ((cutAtCommas none 0 text).map trim).filter (!·.isEmpty)

/-! ## The parts of a line -/

/-- A line taken apart: its label, the word that says what it is, and the arguments. -/
structure LineParts where
  label : Option String
  mnemonic : Option String
  operands : List (List Char)
  deriving DecidableEq, Repr

/-- Takes a line apart. -/
def lineParts (line : List Char) : LineParts :=
  let (label, rest) := splitLabel (stripComment line)
  if rest.isEmpty then ⟨label, none, []⟩
  else
    let (word, tail) := firstWord rest
    ⟨label, some (String.ofList (lower word)), arguments tail⟩

/-- The instruction on a line. -/
def Instruction.read? (number : Nat) (line : List Char) : Option Instruction :=
  let parts := lineParts line
  (parts.mnemonic.bind Mnemonic.ofName?).map fun m =>
    ⟨number, String.ofList (trim line), m, parts.operands.map Operand.read⟩

/-! ## Directives -/

/-- The sizes of data items. -/
inductive DataUnit where
  | byte | word | double
  deriving DecidableEq, Repr, Inhabited

namespace DataUnit

/-- The number of bytes of an item. -/
def size : DataUnit → Nat
  | byte => 1
  | word => 2
  | double => 4

/-- The size that a directive defines data of. -/
def ofName? : String → Option DataUnit
  | "db" => some byte
  | "dw" => some word
  | "dd" => some double
  | _ => none

end DataUnit

/-- Directives. The value is the rest of the line in small letters, with single blanks. -/
inductive Directive where
  | model (value : List Char)
  | stack (value : List Char)
  | code
  | data
  | define (symbol : Option String) (unit : DataUnit) (value : List Char)
  | programEnd (value : List Char)
  deriving DecidableEq, Repr

namespace Directive

/-- The name of a directive. -/
def name : Directive → String
  | model _ => "model"
  | stack _ => "stack"
  | code => "code"
  | data => "data"
  | define .. => "define"
  | programEnd _ => "end"

/-- The value of a directive. -/
def value : Directive → List Char
  | model v | stack v | define _ _ v | programEnd v => v
  | code | data => []

/-- The name that a directive defines. -/
def symbol : Directive → Option String
  | define s _ _ => s
  | _ => none

/-- The size of the items that a directive defines, or zero. -/
def unit : Directive → Nat
  | define _ u _ => u.size
  | _ => 0

/-- The directive that the words of a line form. -/
def ofWords? : List (List Char) → Option Directive
  | [] => none
  | head :: rest =>
    let value := unwords rest
    match String.ofList head with
    | ".model" => some (.model value)
    | ".stack" => some (.stack value)
    | ".code" => some .code
    | ".data" => some .data
    | word =>
      match DataUnit.ofName? word with
      | some u => some (.define none u value)
      | none =>
        match rest with
        | [] => if word = "end" then some (.programEnd value) else none
        | second :: tail =>
          match DataUnit.ofName? (String.ofList second) with
          | some u => some (.define (some word) u (unwords tail))
          | none => if word = "end" then some (.programEnd value) else none

/-- The directive on a line. -/
def read? (line : List Char) : Option Directive :=
  ofWords? (words (lower (trim (stripComment line))))

end Directive

/-! ## The size of data

An item is a quoted string, a repetition `count dup (items)`, or anything else. Items of a
repetition are shorter than it, so sizing recurses on the length of the item. -/

/-- Whether an item stands between quotation marks. -/
def isQuoted (item : List Char) : Bool :=
  match item with
  | q :: rest => isQuote q && rest.getLast? == some q
  | [] => false

/-- What follows `dup` in whatever case. -/
def afterDup? : List Char → Option (List Char)
  | d :: u :: p :: rest =>
    if d.toLower = 'd' ∧ u.toLower = 'u' ∧ p.toLower = 'p' then some rest else none
  | _ => none

/-- The count and the items of a repetition. All of it stands on one line. -/
def repetition? (item : List Char) : Option (List Char × List Char) :=
  let count := item.takeWhile isWordChar
  let rest := item.dropWhile isWordChar
  if count.isEmpty ∨ !(rest.head?.any isBlank) then none
  else
    match (afterDup? (trimLeft rest)).map trimLeft with
    | some ('(' :: inner) =>
      if inner.getLast? = some ')' ∧ '\n' ∉ inner then some (count, inner.dropLast) else none
    | _ => none

/-- Trimming makes no text longer. -/
theorem length_trim_le (cs : List Char) : (trim cs).length ≤ cs.length := by
  have h1 := (List.dropWhile_sublist (l := cs) isBlank).length_le
  have h2 := (List.dropWhile_sublist (l := (trimLeft cs).reverse) isBlank).length_le
  simp only [trim, Text.trimRight, List.length_reverse, trimLeft] at *
  omega

/-- Only the first piece of a cut text gets a character that is put in front of it. -/
theorem length_le_of_mem_prepend {c : Char} {ws : List (List Char)} {n : Nat}
    (h : ∀ w ∈ ws, w.length ≤ n) : ∀ w ∈ prepend c ws, w.length ≤ n + 1 := by
  intro w hw
  cases ws with
  | nil => simp_all [prepend]
  | cons v vs =>
    rcases List.mem_cons.1 hw with rfl | hw
    · have := h v (by simp)
      simp only [List.length_cons]
      omega
    · have := h w (by simp [hw])
      omega

/-- No piece is longer than what it was cut from. -/
theorem length_le_of_mem_cutAtCommas {cs w : List Char} {quote : Option Char} {depth : Int}
    (h : w ∈ cutAtCommas quote depth cs) : w.length ≤ cs.length := by
  induction cs generalizing quote depth w with
  | nil => simp_all [cutAtCommas]
  | cons c cs ih =>
    unfold cutAtCommas at h
    split at h
    · exact length_le_of_mem_prepend (fun w hw => ih hw) w h
    · split at h
      · rcases List.mem_cons.1 h with rfl | h
        · simp
        · have := ih h
          simp only [List.length_cons]
          omega
      · exact length_le_of_mem_prepend (fun w hw => ih hw) w h

/-- An argument is no longer than the text it was cut from. -/
theorem length_le_of_mem_arguments {text w : List Char} (h : w ∈ arguments text) :
    w.length ≤ text.length := by
  obtain ⟨v, hv, rfl⟩ := List.mem_map.1 (List.mem_filter.1 h).1
  have := length_le_of_mem_cutAtCommas hv
  have := length_trim_le v
  omega

/-- What stands behind the word of a repetition is shorter than what it was found in. -/
theorem length_afterDup?_lt {cs rest : List Char} (h : afterDup? cs = some rest) :
    rest.length < cs.length := by
  unfold afterDup? at h
  split at h
  · split at h
    · simp only [Option.some.injEq] at h
      subst h
      simp only [List.length_cons]
      omega
    · simp at h
  · simp at h

/-- The inside of a repetition is shorter than the repetition, so sizing comes to an end. -/
theorem length_repetition?_lt {item count inner : List Char}
    (h : repetition? item = some (count, inner)) : inner.length < item.length := by
  unfold repetition? at h
  simp only at h
  split at h
  · simp at h
  · split at h
    · rename_i body hbody
      split at h
      · obtain ⟨rest, hrest, hb⟩ := Option.map_eq_some_iff.1 hbody
        simp only [Option.some.injEq, Prod.mk.injEq] at h
        obtain ⟨_, rfl⟩ := h
        have h1 := length_afterDup?_lt hrest
        have h2 := (List.dropWhile_sublist (l := item) isWordChar).length_le
        have h3 := (List.dropWhile_sublist (l := item.dropWhile isWordChar) isBlank).length_le
        have h4 := (List.dropWhile_sublist (l := rest) isBlank).length_le
        simp only [trimLeft] at h1 hb h4
        rw [hb] at h4
        simp only [List.length_cons] at h4
        simp only [List.length_dropLast]
        omega
      · simp at h
    · simp at h

/-- The number of bytes of a data item of the given unit. A count that is no number counts as
zero. -/
def itemSize (unit : Nat) (item : List Char) : Nat :=
  -- The quotes are no part of the text.
  if isQuoted item then if unit = 1 then max (item.length - 2) 1 else unit
  else
    match _h : repetition? item with
    | some (count, inner) =>
      let size := (arguments inner).attach.foldr (fun part n => itemSize unit part.1 + n) 0
      ((immediate? count).elim 0 Prod.fst) * size
    | none => unit
termination_by item.length
decreasing_by
  have h1 := length_le_of_mem_arguments part.2
  have h2 := length_repetition?_lt _h
  omega

/-- The number of bytes of data items, one after the other. -/
def itemsSize (unit : Nat) : List (List Char) → Nat
  | [] => 0
  | item :: items => itemSize unit item + itemsSize unit items

/-- A quoted item of bytes takes one byte per character, and one if it is empty. -/
theorem itemSize_of_isQuoted {item : List Char} (h : isQuoted item = true) (unit : Nat) :
    itemSize unit item = if unit = 1 then max (item.length - 2) 1 else unit := by
  rw [itemSize, if_pos h]

theorem foldr_itemSize (unit : Nat) (items : List (List Char)) :
    items.foldr (fun part n => itemSize unit part + n) 0 = itemsSize unit items := by
  induction items with
  | nil => rfl
  | cons item items ih => simp [itemsSize, ih]

/-- A repetition takes its items as often as its count says. -/
theorem itemSize_of_repetition {item count inner : List Char} (h : isQuoted item = false)
    (hr : repetition? item = some (count, inner)) (unit : Nat) :
    itemSize unit item
      = (immediate? count).elim 0 Prod.fst * itemsSize unit (arguments inner) := by
  rw [itemSize, if_neg (by simp [h])]
  split
  · rename_i count' inner' hr'
    obtain ⟨rfl, rfl⟩ : count = count' ∧ inner = inner' := by simpa [hr] using hr'
    have h := @List.foldr_attach _ _ (arguments inner) (fun part n => itemSize unit part + n) 0
    exact congrArg _ (h.trans (foldr_itemSize unit (arguments inner)))
  · rename_i hr'
    simp [hr] at hr'

/-- Every other item takes one unit. -/
theorem itemSize_of_atom {item : List Char} (h : isQuoted item = false)
    (hr : repetition? item = none) (unit : Nat) : itemSize unit item = unit := by
  rw [itemSize, if_neg (by simp [h])]
  split
  · rename_i hr'
    simp [hr] at hr'
  · rfl

theorem itemsSize_append (unit : Nat) (as bs : List (List Char)) :
    itemsSize unit (as ++ bs) = itemsSize unit as + itemsSize unit bs := by
  induction as with
  | nil => simp [itemsSize]
  | cons a as ih => simp [itemsSize, ih, Nat.add_assoc]

/-- The number of bytes that a directive reserves. -/
def Directive.dataSize (d : Directive) : Nat :=
  itemsSize d.unit (arguments d.value)

/-! ## Sizing on a stack

The items of a repetition are sized while the repetition is, so a source can nest repetitions
deeper than there is room for on the stack. What is sized there has the size it has anyway
(`eq_dataSize_of_dataSizeWithin`), and everything can be sized if there is room enough
(`itemSizeWithin_length`). -/

/-- The sum of the sizes of items, if each of them can be sized. -/
def sumOfSizes (size? : List Char → Option Nat) : List (List Char) → Option Nat
  | [] => some 0
  | item :: items =>
    match size? item with
    | none => none
    | some n => (sumOfSizes size? items).map (n + ·)

/-- The number of bytes of a data item, with room for so many repetitions inside each other. -/
def itemSizeWithin (unit levels : Nat) (item : List Char) : Option Nat :=
  if isQuoted item then some (if unit = 1 then max (item.length - 2) 1 else unit)
  else
    match repetition? item with
    | none => some unit
    | some (count, inner) =>
      match levels with
      | 0 => none
      | levels + 1 =>
        (sumOfSizes (itemSizeWithin unit levels) (arguments inner)).map
          ((immediate? count).elim 0 Prod.fst * ·)

/-- The number of bytes that a directive reserves, with room for so many repetitions inside each
other. -/
def Directive.dataSizeWithin (levels : Nat) (d : Directive) : Option Nat :=
  sumOfSizes (itemSizeWithin d.unit levels) (arguments d.value)

section Within

variable {unit levels n : Nat} {item : List Char}

/-- An item is flat, or a repetition. -/
theorem flat_or_repetition (item : List Char) :
    (isQuoted item = true ∨ repetition? item = none)
      ∨ ∃ count inner, isQuoted item = false ∧ repetition? item = some (count, inner) := by
  cases hq : isQuoted item with
  | true => exact .inl (.inl rfl)
  | false =>
    cases hr : repetition? item with
    | none => exact .inl (.inr rfl)
    | some parts => exact .inr ⟨parts.1, parts.2, rfl, rfl⟩

/-- A flat item needs no room. -/
theorem itemSizeWithin_of_flat (h : isQuoted item = true ∨ repetition? item = none)
    (unit levels : Nat) : itemSizeWithin unit levels item = some (itemSize unit item) := by
  unfold itemSizeWithin
  cases hq : isQuoted item with
  | true =>
    rw [if_pos rfl, itemSize_of_isQuoted hq]
  | false =>
    have hr := h.resolve_left (by simp [hq])
    rw [if_neg Bool.false_ne_true, hr, itemSize_of_atom hq hr]

/-- Without room a repetition cannot be sized. -/
theorem itemSizeWithin_zero {count inner : List Char} (h : isQuoted item = false)
    (hr : repetition? item = some (count, inner)) (unit : Nat) :
    itemSizeWithin unit 0 item = none := by
  unfold itemSizeWithin
  rw [h, if_neg Bool.false_ne_true, hr]

/-- A repetition takes one level for itself. -/
theorem itemSizeWithin_succ {count inner : List Char} (h : isQuoted item = false)
    (hr : repetition? item = some (count, inner)) (unit levels : Nat) :
    itemSizeWithin unit (levels + 1) item
      = (sumOfSizes (itemSizeWithin unit levels) (arguments inner)).map
          ((immediate? count).elim 0 Prod.fst * ·) := by
  rw [itemSizeWithin, h, if_neg Bool.false_ne_true, hr]

/-- If sizes are right where they are known, their sum is. -/
theorem eq_itemsSize_of_sumOfSizes {size? : List Char → Option Nat} {items : List (List Char)}
    (h : ∀ item n, size? item = some n → n = itemSize unit item)
    (hsum : sumOfSizes size? items = some n) : n = itemsSize unit items := by
  induction items generalizing n with
  | nil => simpa [sumOfSizes, itemsSize] using hsum.symm
  | cons item items ih =>
    unfold sumOfSizes at hsum
    split at hsum
    · simp at hsum
    · rename_i k hk
      obtain ⟨m, hm, rfl⟩ := Option.map_eq_some_iff.1 hsum
      rw [itemsSize, h item k hk, ih hm]

/-- Where all sizes are known, so is their sum. -/
theorem sumOfSizes_eq_itemsSize {size? : List Char → Option Nat} {items : List (List Char)}
    (h : ∀ item ∈ items, size? item = some (itemSize unit item)) :
    sumOfSizes size? items = some (itemsSize unit items) := by
  induction items with
  | nil => rfl
  | cons item items ih =>
    have hitems := ih fun i hi => h i (List.mem_cons_of_mem item hi)
    simp [sumOfSizes, h item List.mem_cons_self, hitems, itemsSize]

/-- An item that can be sized has the size that it has with room without end. -/
theorem eq_itemSize_of_itemSizeWithin (h : itemSizeWithin unit levels item = some n) :
    n = itemSize unit item := by
  induction levels generalizing item n with
  | zero =>
    rcases flat_or_repetition item with hflat | ⟨count, inner, hq, hr⟩
    · rw [itemSizeWithin_of_flat hflat] at h
      exact (Option.some.inj h).symm
    · simp [itemSizeWithin_zero hq hr] at h
  | succ levels ih =>
    rcases flat_or_repetition item with hflat | ⟨count, inner, hq, hr⟩
    · rw [itemSizeWithin_of_flat hflat] at h
      exact (Option.some.inj h).symm
    · rw [itemSizeWithin_succ hq hr] at h
      obtain ⟨m, hm, rfl⟩ := Option.map_eq_some_iff.1 h
      rw [itemSize_of_repetition hq hr, eq_itemsSize_of_sumOfSizes (fun _ _ => ih) hm]

/-- There is room enough for as many repetitions as the item has characters. -/
theorem itemSizeWithin_length (h : item.length ≤ levels) :
    itemSizeWithin unit levels item = some (itemSize unit item) := by
  induction levels generalizing item with
  | zero =>
    obtain rfl := List.length_eq_zero_iff.1 (Nat.le_zero.1 h)
    exact itemSizeWithin_of_flat (.inr rfl) unit 0
  | succ levels ih =>
    rcases flat_or_repetition item with hflat | ⟨count, inner, hq, hr⟩
    · exact itemSizeWithin_of_flat hflat unit (levels + 1)
    · -- The items in the parentheses are shorter than the repetition.
      have hparts : ∀ part ∈ arguments inner,
          itemSizeWithin unit levels part = some (itemSize unit part) := by
        intro part hpart
        have h1 := length_le_of_mem_arguments hpart
        have h2 := length_repetition?_lt hr
        exact ih (by omega)
      rw [itemSizeWithin_succ hq hr, sumOfSizes_eq_itemsSize hparts,
        itemSize_of_repetition hq hr]
      rfl

/-- A directive whose items can be sized reserves what it reserves with room without end. -/
theorem Directive.eq_dataSize_of_dataSizeWithin {d : Directive}
    (h : d.dataSizeWithin levels = some n) : n = d.dataSize :=
  eq_itemsSize_of_sumOfSizes (fun _ _ => eq_itemSize_of_itemSizeWithin) h

end Within

end TurboBench.Asm
