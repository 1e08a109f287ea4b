import TurboBench.Text.Digit
import TurboBench.Text.Quoted

/-!
Reading command lines.

A grammar has switches, which may stand anywhere, and slots, which the other words fill in order.
Words are told apart first, all of them, from left to right: a word with a hyphen in front is a
switch, or part of one as long as it is clear which is meant; after a word of two hyphens no word
is a switch. Then the words are used up from the left. A switch that takes a value takes the word
behind it, or what is attached to it; short switches can share a word. Slots are filled as soon as
a word for them stands in front, as many as there are words for. Two hyphens are taken out of what
a switch or a slot gets, so that it may be left with nothing. What finds no use is left over. Both
are for the caller to judge.
-/

namespace TurboBench.CommandLine

open TurboBench.Text (isDecimalDigit quoted)

/-! ## Switches and slots -/

/-- A switch. -/
inductive Switch
  | help
  | workspace
  | config
  | verbose
  | quiet
  deriving DecidableEq, Repr

namespace Switch

/-- The spellings of a switch. -/
def spellings : Switch → List String
  | .help => ["-h", "--help"]
  | .workspace => ["--workspace"]
  | .config => ["--config"]
  | .verbose => ["--verbose", "-v"]
  | .quiet => ["--quiet", "-q"]

/-- Whether a switch takes a value. -/
def takesValue : Switch → Bool
  | .workspace | .config => true
  | .help | .verbose | .quiet => false

/-- All spellings of a switch, as complaints name it. -/
def title (s : Switch) : String :=
  "/".intercalate s.spellings

end Switch

/-- How many words fill a slot. -/
inductive Arity
  | one
  | optional
  | rest
  deriving DecidableEq, Repr

/-- A slot: its name and how many words fill it. -/
structure Slot where
  name : String
  arity : Arity
  deriving DecidableEq, Repr

/-- A grammar of command lines. -/
structure Grammar where
  switches : List Switch
  slots : List Slot
  deriving DecidableEq, Repr

/-! ## Complaints -/

/-- What is wrong with a command line. -/
inductive Complaint
  | ambiguous (word : String) (candidates : List String)
  | noValue (s : Switch)
  | ignoredValue (s : Switch) (value : String)
  | missing (slots : List String)
  | invalidChoice (slot word : String) (choices : List String)
  | unrecognized (words : List String)
  deriving DecidableEq, Repr

/-- The wording of a complaint. -/
def Complaint.text : Complaint → String
  | .ambiguous word candidates =>
    let names := ", ".intercalate candidates
    s!"ambiguous option: {word} could match {names}"
  | .noValue s => s!"argument {s.title}: expected one argument"
  | .ignoredValue s value => s!"argument {s.title}: ignored explicit argument {quoted value}"
  | .missing slots =>
    let names := ", ".intercalate slots
    s!"the following arguments are required: {names}"
  | .invalidChoice slot word choices =>
    let names := ", ".intercalate (choices.map quoted)
    s!"argument {slot}: invalid choice: {quoted word} (choose from {names})"
  | .unrecognized words =>
    let names := " ".intercalate words
    s!"unrecognized arguments: {names}"

/-- Why a command line is not carried out: help was asked for, or something is wrong. -/
inductive Halt
  | help
  | complaint (c : Complaint)
  deriving DecidableEq, Repr

/-! ## Words -/

/-- A switch in use: which one, whether in a short spelling, and the text attached to it, if there
is one, be it empty. -/
structure Use where
  switch : Switch
  short : Bool
  attached : Option (List Char)
  deriving DecidableEq, Repr

/-- A word of a command line. A switch that the grammar does not have is in no use. -/
inductive Word
  | plain (text : String)
  | separator
  | switch (text : String) (use : Option Use)
  deriving DecidableEq, Repr

/-- The word behind which no word is a switch. -/
def separatorText : String := "--"

namespace Word

/-- The word as it was given. -/
def text : Word → String
  | .plain text => text
  | .separator => separatorText
  | .switch text _ => text

/-- Whether a word is a switch. -/
def isSwitch : Word → Bool
  | .switch .. => true
  | _ => false

/-- Whether a word is the separator. -/
def isSeparator : Word → Bool
  | .separator => true
  | _ => false

end Word

/-- Whether a text reads like a negative number: a hyphen, and digits with perhaps a point before
the last of them. A line feed at the very end does not count. -/
def readsNegative (s : String) : Bool :=
  let cs := if s.toList.getLast? = some '\n' then s.toList.dropLast else s.toList
  match cs with
  | '-' :: cs =>
    let whole := cs.takeWhile isDecimalDigit
    match cs.dropWhile isDecimalDigit with
    | [] => !whole.isEmpty
    | '.' :: cs => !cs.isEmpty && cs.all isDecimalDigit
    | _ => false
  | _ => false

/-- Whether a spelling is a short one. -/
def isShort (spelling : String) : Bool :=
  (spelling.toList.drop 1).head? != some '-'

namespace Grammar

/-- The spellings of all switches. -/
def spellings (g : Grammar) : List (String × Switch) :=
  g.switches.flatMap fun s => s.spellings.map (·, s)

/-- The uses that a word can be short for, with the spellings in full. A word with two hyphens is
short for what starts like it, up to an equality sign; with one hyphen, its first letter is a short
switch and the rest is attached to it. -/
def candidates (g : Grammar) (word : List Char) : List (String × Use) :=
  let (stem, value) := (word.takeWhile (· != '='), word.dropWhile (· != '='))
  if (word.drop 1).head? = some '-' then
    (g.spellings.filter fun (spelling, _) => stem.isPrefixOf spelling.toList).map
      fun (spelling, s) =>
        (spelling, ⟨s, false, if value.isEmpty then none else some (value.drop 1)⟩)
  else
    (g.spellings.filter fun (spelling, _) => spelling.toList == word.take 2).map
      fun (spelling, s) => (spelling, ⟨s, true, some (word.drop 2)⟩)

/-- Reads one word as a switch or as a plain word. -/
def word (g : Grammar) (s : String) : Except Complaint Word :=
  match s.toList with
  | '-' :: _ :: _ =>
    -- The exact spelling goes first, then the spelling in front of an equality sign, and only then
    -- what the word can be short for.
    match g.spellings.lookup s with
    | some switch => .ok (.switch s (some ⟨switch, isShort s, none⟩))
    | none =>
      let stem := String.ofList (s.toList.takeWhile (· != '='))
      let value := s.toList.dropWhile (· != '=')
      match if value.isEmpty then none else g.spellings.lookup stem with
      | some switch => .ok (.switch s (some ⟨switch, isShort stem, some (value.drop 1)⟩))
      | none =>
        match g.candidates s.toList with
        | [(_, use)] => .ok (.switch s (some use))
        | [] => .ok (if readsNegative s || s.contains ' ' then .plain s else .switch s none)
        | several => .error (.ambiguous s (several.map (·.1)))
  | _ => .ok (.plain s)

/-- Reads the words of a command line. -/
def words (g : Grammar) : List String → Except Complaint (List Word)
  | [] => .ok []
  | s :: ss =>
    if s = separatorText then .ok (.separator :: ss.map .plain)
    else
      match g.word s with
      | .error c => .error c
      | .ok w =>
        match g.words ss with
        | .error c => .error c
        | .ok ws => .ok (w :: ws)

/-! ## Using words up -/

/-- What a word with switches asks for: the switches in it, the last of which may still be due a
value. -/
structure Asked where
  switches : List (Switch × Option String)
  due : Option Switch

/-- The value that a text is for a switch. Two hyphens are none. -/
def value? (text : String) : Option String :=
  if text = separatorText then none else some text

/-- Reads the text attached to a switch. Behind a switch that takes no value it holds more short
switches, a character each; an equality sign is none of them. Text that does not start with one is
refused, all of it. -/
def attached (g : Grammar) (s : Switch) (value : List Char) : Except Complaint Asked :=
  if s.takesValue then .ok ⟨[(s, value? (String.ofList value))], none⟩
  else
    match value with
    | [] => .error (.ignoredValue s "")
    | c :: cs =>
      match g.spellings.lookup (String.ofList ['-', c]) with
      | none => .error (.ignoredValue s (String.ofList (c :: cs)))
      | some next =>
        if cs.isEmpty then .ok ⟨[(s, none)], some next⟩
        else
          match g.attached next cs with
          | .error e => .error e
          | .ok a => .ok { a with switches := (s, none) :: a.switches }

/-- Reads a switch in use. Other switches can share a word only with a short spelling. -/
def asked (g : Grammar) (u : Use) : Except Complaint Asked :=
  match u.attached with
  | none => .ok ⟨[], some u.switch⟩
  | some value =>
    if u.short || u.switch.takesValue then g.attached u.switch value
    else .error (.ignoredValue u.switch (String.ofList value))

/-- The switch that is due, with its value if it takes one, and the words behind that. -/
def settle (due : Option Switch) (ws : List Word) :
    Except Complaint (List (Switch × Option String) × List Word) :=
  match due with
  | none => .ok ([], ws)
  | some s =>
    if s.takesValue then
      match ws with
      | .plain value :: ws => .ok ([(s, value? value)], ws)
      | _ => .error (.noValue s)
    else .ok ([(s, none)], ws)

/-- The words that fill a slot from the front, and the words behind them. Separators around the
word of a slot go with it. Two hyphens are taken out once: they are the separator in front of the
word or, if there is none, the word itself, which leaves the slot empty. -/
def fillSlot (a : Arity) (ws : List Word) : Option (List String × List Word) :=
  let front := ws.takeWhile Word.isSeparator
  let body := ws.dropWhile Word.isSeparator
  match a, body with
  | .rest, .plain _ :: _ => some (ws.map Word.text, [])
  | .rest, _ => none
  | _, .plain text :: behind =>
    some ((front.map Word.text ++ [text]).erase separatorText, behind.dropWhile Word.isSeparator)
  | .one, _ => none
  | .optional, _ => some ([], body)

/-- Fills as many slots as there are words for in front: what fills them, the slots that are left,
and the words behind. -/
def fill : List Slot → List Word → List (List String) × List Slot × List Word
  | [], ws => ([], [], ws)
  | slot :: slots, ws =>
    match fillSlot slot.arity ws with
    | none => ([], slot :: slots, ws)
    | some (texts, ws) =>
      let (more, left, ws) := fill slots ws
      (texts :: more, left, ws)

/-- What a command line says: its switches, what fills its slots, and the words left over. -/
structure Said where
  switches : List (Switch × Option String)
  filled : List (List String)
  leftOver : List String
  deriving DecidableEq, Repr

/-- The switch in front of words, and the words behind it. -/
def splitSwitch? : List Word → Option (String × Option Use × List Word)
  | .switch text use :: ws => some (text, use, ws)
  | _ => none

/-- How much there is to do with words: each counts twice, and slots have to be filled before a
switch is in front. -/
def weight (ws : List Word) : Nat :=
  2 * ws.length + if (splitSwitch? ws).isSome then 0 else 1

/-- Filling a slot leaves no more words than there were. -/
theorem length_fillSlot {a : Arity} {ws behind : List Word} {texts : List String}
    (h : fillSlot a ws = some (texts, behind)) : behind.length ≤ ws.length := by
  have hdrop (l : List Word) : (l.dropWhile Word.isSeparator).length ≤ l.length :=
    (List.dropWhile_sublist _).length_le
  simp only [fillSlot] at h
  split at h
  · cases h
    simp
  · cases h
  · rename_i hbody
    cases h
    have h1 := hdrop ws
    rw [hbody, List.length_cons] at h1
    exact Nat.le_trans (hdrop _) (by omega)
  · cases h
  · cases h
    exact hdrop ws

/-- Filling slots leaves no more words than there were. -/
theorem length_fill (slots : List Slot) (ws : List Word) :
    (fill slots ws).2.2.length ≤ ws.length := by
  induction slots generalizing ws with
  | nil => simp [fill]
  | cons slot slots ih =>
    unfold fill
    split
    · simp
    · rename_i behind h
      exact Nat.le_trans (ih behind) (length_fillSlot h)

/-- Settling what is due leaves no more words than there were. -/
theorem length_settle {due : Option Switch} {ws behind : List Word}
    {last : List (Switch × Option String)} (h : settle due ws = .ok (last, behind)) :
    behind.length ≤ ws.length := by
  unfold settle at h
  split at h
  · cases h
    exact Nat.le_refl _
  · split at h
    · split at h
      · cases h
        simp
      · cases h
    · cases h
      exact Nat.le_refl _

theorem length_splitSwitch? {ws rest : List Word} {text : String} {use : Option Use}
    (h : splitSwitch? ws = some (text, use, rest)) : rest.length < ws.length := by
  unfold splitSwitch? at h
  split at h
  · cases h
    simp
  · cases h

/-- Fewer words are less to do. -/
theorem weight_lt_of_length_lt {vs ws : List Word} (h : vs.length < ws.length) :
    weight vs < weight ws := by
  have : (if (splitSwitch? vs).isSome then 0 else 1) ≤ 1 := by split <;> simp
  unfold weight
  omega

/-- Words without a switch in front are more to do than what is left of them from a switch on. -/
theorem weight_dropWhile_lt {vs ws : List Word} (hw : splitSwitch? ws = none)
    (hle : vs.length ≤ ws.length) (hne : vs.dropWhile (!·.isSwitch) ≠ []) :
    weight (vs.dropWhile (!·.isSwitch)) < weight ws := by
  have hlen : (vs.dropWhile (!·.isSwitch)).length ≤ vs.length :=
    (List.dropWhile_sublist _).length_le
  have hhead : (splitSwitch? (vs.dropWhile (!·.isSwitch))).isSome = true := by
    have hnot := List.head_dropWhile_not (fun w : Word => !w.isSwitch) hne
    revert hnot hne
    cases vs.dropWhile (!·.isSwitch) with
    | nil => exact fun hne => absurd rfl hne
    | cons w rest => cases w <;> simp [Word.isSwitch, splitSwitch?]
  simp only [weight, hw, hhead]
  simp only [Option.isSome_none, Bool.false_eq_true, if_true, if_false]
  omega

/-- Uses up words, for the slots that are still open. -/
def say (g : Grammar) (slots : List Slot) (ws : List Word) : Except Halt Said :=
  match _hw : splitSwitch? ws with
  -- A switch that the grammar does not have is passed over.
  | some (text, none, rest) =>
    match g.say slots rest with
    | .error e => .error e
    | .ok said => .ok { said with leftOver := text :: said.leftOver }
  | some (_, some use, rest) =>
    match g.asked use with
    | .error c => .error (.complaint c)
    | .ok asked =>
      match _hs : settle asked.due rest with
      | .error c => .error (.complaint c)
      | .ok (last, behind) =>
        let switches := asked.switches ++ last
        if switches.any (·.1 == .help) then .error .help
        else
          match g.say slots behind with
          | .error e => .error e
          | .ok said => .ok { said with switches := switches ++ said.switches }
  -- No switch is in front: slots are filled, and what they do not take is passed over.
  | none =>
    let behind := (fill slots ws).2.2
    let leftOver := (behind.takeWhile (!·.isSwitch)).map Word.text
    if _ha : behind.dropWhile (!·.isSwitch) = [] then
      let missing := ((fill slots ws).2.1.filter (·.arity != .optional)).map (·.name)
      if missing.isEmpty then .ok ⟨[], (fill slots ws).1, leftOver⟩
      else .error (.complaint (.missing missing))
    else
      match g.say (fill slots ws).2.1 (behind.dropWhile (!·.isSwitch)) with
      | .error e => .error e
      | .ok said =>
        .ok { said with
          filled := (fill slots ws).1 ++ said.filled
          leftOver := leftOver ++ said.leftOver }
  termination_by weight ws
  decreasing_by
    · exact weight_lt_of_length_lt (length_splitSwitch? _hw)
    · exact weight_lt_of_length_lt
        (Nat.lt_of_le_of_lt (length_settle _hs) (length_splitSwitch? _hw))
    · exact weight_dropWhile_lt _hw (length_fill slots ws) _ha

/-- Reads a command line. -/
def parse (g : Grammar) (line : List String) : Except Halt Said :=
  match g.words line with
  | .error c => .error (.complaint c)
  | .ok ws => g.say g.slots ws

end Grammar

end TurboBench.CommandLine
