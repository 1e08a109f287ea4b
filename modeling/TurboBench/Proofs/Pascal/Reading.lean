import TurboBench.Proofs.Pascal.Rendering
import TurboBench.Proofs.Pascal.Sequences

/-!
# What the small parsers read

A parser that succeeds without anything to complain of takes lexemes from the front of what is
left, yields a result, and changes nothing else. `Reads s p ls a rest` says so of the parser `p`
before the lexemes `ls`: it yields `a` and leaves `rest`. Everything that a state holds besides its
tokens is fixed in `s`, and the lexemes stand on the first line.

The relation is closed under sequencing, so what a parser reads follows from what its parts read.
Repetition is bounded by the number of tokens in the parsers; `Turns` is the row of turns that a
repetition takes, without a bound, and `Turns.many` the one place where the bound is met.
-/

set_option autoImplicit false

namespace TurboBench.Pascal

open Parse

/-- The state before lexemes that stand on the first line. -/
def ParserState.before (s : ParserState) (ls : List Lexeme) : ParserState :=
  { s with tokens := ls.map (⟨·, 1⟩) }

section Before

variable (s : ParserState) (ls : List Lexeme)

@[simp] theorem next?_before : (s.before ls).next? = ls.head? := by
  cases ls <;> rfl

@[simp] theorem length_tokens_before : (s.before ls).tokens.length = ls.length := by
  simp [ParserState.before]

end Before

/-- The parser `p` reads the lexemes `ls` down to `rest` and yields `a`. -/
def Reads {α : Type} (s : ParserState) (p : Parse α) (ls : List Lexeme) (a : α)
    (rest : List Lexeme) : Prop :=
  p (s.before ls) = .ok a (s.before rest)

namespace Reads

variable {α β : Type} {s : ParserState} {ls mid rest : List Lexeme} {a : α} {b : β}

theorem pure : Reads s (Pure.pure a : Parse α) ls a ls := rfl

/-- What comes behind a parser that has read its lexemes. -/
theorem bind_apply {p : Parse α} (hp : Reads s p ls a mid) (f : α → Parse β) :
    (p >>= f) (s.before ls) = f a (s.before mid) :=
  bind_of_ok hp

theorem bind {p : Parse α} {f : α → Parse β} (hp : Reads s p ls a mid)
    (hf : Reads s (f a) mid b rest) : Reads s (p >>= f) ls b rest :=
  (hp.bind_apply f).trans hf

theorem get {f : ParserState → Parse β} (h : Reads s (f (s.before ls)) ls b rest) :
    Reads s (MonadState.get >>= f) ls b rest := h

theorem advance {l : Lexeme} {f : Unit → Parse β} (h : Reads s (f ()) ls b rest) :
    Reads s (Parse.advance >>= f) (l :: ls) b rest := h

theorem discard {p : Parse α} (hp : Reads s p ls a rest) :
    Reads s (Functor.discard p) ls () rest :=
  discard_of_ok hp

end Reads

/-! ## Single lexemes -/

section Single

variable {α : Type} {s : ParserState} {ls rest : List Lexeme} {a : α}

theorem reads_atLexeme (l : Lexeme) : Reads s (atLexeme l) ls (ls.head? == some l) ls := by
  refine Reads.get ?_
  rw [next?_before]
  exact Reads.pure

theorem reads_acceptSymbol (m : Symbol) : Reads s (acceptSymbol m) (.symbol m :: ls) true ls := by
  refine Reads.bind (reads_atLexeme _) ?_
  rw [List.head?_cons, beq_self_eq_true, if_pos rfl]
  exact Reads.advance Reads.pure

theorem reads_acceptSymbol_not {m : Symbol} (h : ls.head? ≠ some (.symbol m)) :
    Reads s (acceptSymbol m) ls false ls := by
  refine Reads.bind (reads_atLexeme _) ?_
  rw [beq_eq_false_iff_ne.2 h, if_neg Bool.false_ne_true]
  exact Reads.pure

theorem reads_acceptKeyword (w : Keyword) :
    Reads s (acceptKeyword w) (.keyword w :: ls) true ls := by
  refine Reads.bind (reads_atLexeme _) ?_
  rw [List.head?_cons, beq_self_eq_true, if_pos rfl]
  exact Reads.advance Reads.pure

theorem reads_acceptKeyword_not {w : Keyword} (h : ls.head? ≠ some (.keyword w)) :
    Reads s (acceptKeyword w) ls false ls := by
  refine Reads.bind (reads_atLexeme _) ?_
  rw [beq_eq_false_iff_ne.2 h, if_neg Bool.false_ne_true]
  exact Reads.pure

theorem reads_expectSymbol (m : Symbol) : Reads s (expectSymbol m) (.symbol m :: ls) () ls :=
  Reads.bind (reads_acceptSymbol m) Reads.pure

theorem reads_expectKeyword (w : Keyword) : Reads s (expectKeyword w) (.keyword w :: ls) () ls :=
  Reads.bind (reads_acceptKeyword w) Reads.pure

theorem reads_identifier (n : String) :
    Reads s identifier (.identifier n :: ls) ⟨n, 1⟩ ls :=
  Reads.get (Reads.advance Reads.pure)

theorem reads_afterSymbol {m : Symbol} {p : Parse α} (h : Reads s p ls a rest) :
    Reads s (afterSymbol? m p) (.symbol m :: ls) (some a) rest :=
  Reads.bind (reads_acceptSymbol m) (Reads.bind h Reads.pure)

theorem reads_afterSymbol_not {m : Symbol} (p : Parse α) (h : ls.head? ≠ some (.symbol m)) :
    Reads s (afterSymbol? m p) ls none ls :=
  Reads.bind (reads_acceptSymbol_not h) Reads.pure

theorem reads_afterKeyword {w : Keyword} {p : Parse α} (h : Reads s p ls a rest) :
    Reads s (afterKeyword? w p) (.keyword w :: ls) (some a) rest :=
  Reads.bind (reads_acceptKeyword w) (Reads.bind h Reads.pure)

theorem reads_afterKeyword_not {w : Keyword} (p : Parse α) (h : ls.head? ≠ some (.keyword w)) :
    Reads s (afterKeyword? w p) ls none ls :=
  Reads.bind (reads_acceptKeyword_not h) Reads.pure

/-- A parser that succeeds needs no recovery. -/
theorem reads_recovering {p : Parse α} (h : Reads s p ls a rest) :
    Reads s (recovering p) ls (some a) rest := by
  unfold Reads recovering at *
  rw [h]

end Single

/-! ## Repetition -/

section Repetition

variable {α : Type} {turn : Parse (Option α)}

/-- The turns that a repetition takes from one state to another: each but the last yields an item
and leaves fewer tokens. -/
inductive Turns (turn : Parse (Option α)) : ParserState → List α → ParserState → Prop where
  | stop {s : ParserState} (h : turn s = .ok none s) : Turns turn s [] s
  | more {s t u : ParserState} {a : α} {as : List α} (h : turn s = .ok (some a) t)
      (hlt : t.tokens.length < s.tokens.length) (hs : Turns turn t as u) : Turns turn s (a :: as) u

/-- A repetition yields the items of its turns, if its bound is not below the number of tokens. -/
theorem Turns.manyUpTo {s t : ParserState} {as : List α} (h : Turns turn s as t) {n : Nat}
    (hn : s.tokens.length ≤ n) : Parse.manyUpTo turn n s = .ok as t := by
  -- every turn takes a token, so the bound is not met before the last turn
  induction h generalizing n with
  | stop h =>
    cases n with
    | zero => rfl
    | succ n => simp only [Parse.manyUpTo, Bind.bind, EStateM.bind, h, Pure.pure, EStateM.pure]
  | more h hlt hs ih =>
    cases n with
    | zero => omega
    | succ n =>
      have hrest := ih (n := n) (by omega)
      simp only [Parse.manyUpTo, Bind.bind, EStateM.bind, h, hrest, Pure.pure, EStateM.pure]

theorem Turns.many {s t : ParserState} {as : List α} (h : Turns turn s as t) :
    Parse.many turn s = .ok as t :=
  h.manyUpTo (Nat.le_refl _)

end Repetition

/-! ## Lists with commas -/

section CommaList

variable {α β : Type} {s : ParserState} {item : Parse α} {write : β → List Lexeme} {value : β → α}
  {follow : List Lexeme → Prop} {rest : List Lexeme} {bs : List β}

theorem separated_cons (l : Lexeme) (ls : List Lexeme) (lss : List (List Lexeme)) :
    separated l (ls :: lss) = ls ++ lss.flatMap fun k => l :: k := by
  induction lss generalizing ls with
  | nil => simp [separated]
  | cons k lss ih => rw [separated, ih, List.flatMap_cons, List.cons_append]; simp

/-- Behind an item stands a comma with a further item, or what stands behind the list. -/
theorem follow_commaItems (write : β → List Lexeme) (bs : List β)
    (hcomma : ∀ ls, follow (.symbol .comma :: ls)) (hrest : follow rest) :
    follow (bs.flatMap (fun b => .symbol .comma :: write b) ++ rest) := by
  cases bs with
  | nil => exact hrest
  | cons c cs => exact hcomma _

/-- The items behind the first are read with a comma before each, up to something else than a
comma. -/
theorem turns_commaItems
    (hitem : ∀ b ∈ bs, ∀ ls, follow ls → Reads s item (write b ++ ls) (value b) ls)
    (hcomma : ∀ ls, follow (.symbol .comma :: ls)) (hrest : follow rest)
    (hstop : rest.head? ≠ some (.symbol .comma)) :
    Turns (afterSymbol? .comma item)
      (s.before (bs.flatMap (fun b => .symbol .comma :: write b) ++ rest)) (bs.map value)
      (s.before rest) := by
  induction bs with
  | nil => exact .stop (reads_afterSymbol_not item hstop)
  | cons b bs ih =>
    have hb := hitem b List.mem_cons_self _ (follow_commaItems write bs hcomma hrest)
    have hbs := ih fun c hc => hitem c (List.mem_cons_of_mem b hc)
    rw [List.flatMap_cons, List.append_assoc, List.cons_append]
    -- the comma alone makes what is left shorter
    refine .more (reads_afterSymbol hb) ?_ hbs
    simp only [length_tokens_before, List.length_append, List.length_cons]
    omega

/-- Items with commas between them, each of which can be read in front of what follows it. -/
theorem reads_commaList
    (hitem : ∀ b ∈ bs, ∀ ls, follow ls → Reads s item (write b ++ ls) (value b) ls)
    (hcomma : ∀ ls, follow (.symbol .comma :: ls)) (hrest : follow rest)
    (hstop : rest.head? ≠ some (.symbol .comma)) (hne : bs ≠ []) :
    Reads s (commaList item) (separated (.symbol .comma) (bs.map write) ++ rest) (bs.map value)
      rest := by
  obtain ⟨b, bs, rfl⟩ := List.exists_cons_of_ne_nil hne
  have hb := hitem b List.mem_cons_self _ (follow_commaItems write bs hcomma hrest)
  have hbs := turns_commaItems (fun c hc => hitem c (List.mem_cons_of_mem b hc)) hcomma hrest hstop
  rw [List.map_cons, separated_cons, List.flatMap_map, List.append_assoc]
  exact Reads.bind hb (Reads.bind hbs.many Reads.pure)

end CommaList

/-! ## Operands grouped to the left -/

/-- No operator of a class is next. -/
def Stops (class? : Lexeme → Option BinaryOp) (ls : List Lexeme) : Prop :=
  ls.head?.bind class? = none

/-- Operators of a class with operands behind them are read one after the other, and grouped to the
left behind what was read already. -/
inductive Chain (s : ParserState) (class? : Lexeme → Option BinaryOp) (operand : Parse Expr) :
    Expr → List Lexeme → Expr → List Lexeme → Prop where
  | stop {e : Expr} {ls : List Lexeme} (h : Stops class? ls) : Chain s class? operand e ls e ls
  | more {e r t : Expr} {l : Lexeme} {op : BinaryOp} {ls mid rest : List Lexeme}
      (hop : class? l = some op) (hr : Reads s operand ls r mid) (hle : mid.length ≤ ls.length)
      (h : Chain s class? operand (.binary op e r 1) mid t rest) :
      Chain s class? operand e (l :: ls) t rest

section LeftGrouped

variable {s : ParserState} {class? : Lexeme → Option BinaryOp} {ls rest : List Lexeme}

theorem reads_operator {l : Lexeme} {op : BinaryOp} (h : class? l = some op) :
    Reads s (operator? class?) (l :: ls) (some (op, 1)) ls := by
  refine Reads.get ?_
  rw [next?_before, List.head?_cons, Option.bind_some, h]
  exact Reads.advance Reads.pure

theorem reads_operator_not (h : Stops class? ls) : Reads s (operator? class?) ls none ls := by
  refine Reads.get ?_
  rw [next?_before, h]
  exact Reads.pure

/-- One turn of `leftGrouped`: an operator with its operand. -/
def chainTurn (class? : Lexeme → Option BinaryOp) (operand : Parse Expr) :
    Parse (Option (BinaryOp × Nat × Expr)) := do
  match ← operator? class? with
  | some (op, line) => return some (op, line, ← operand)
  | none => return none

theorem leftGrouped_eq (class? : Lexeme → Option BinaryOp) (operand : Parse Expr) (e : Expr) :
    leftGrouped class? operand e = do
      let others ← many (chainTurn class? operand)
      return others.foldl (fun left (op, line, right) => .binary op left right line) e := rfl

theorem reads_chainTurn {operand : Parse Expr} {l : Lexeme} {op : BinaryOp} {r : Expr}
    (hop : class? l = some op) (hr : Reads s operand ls r rest) :
    Reads s (chainTurn class? operand) (l :: ls) (some (op, 1, r)) rest :=
  Reads.bind (reads_operator hop) (Reads.bind hr Reads.pure)

theorem reads_chainTurn_not (operand : Parse Expr) (h : Stops class? ls) :
    Reads s (chainTurn class? operand) ls none ls :=
  Reads.bind (reads_operator_not h) Reads.pure

/-- A chain of operators and operands is read as the expression that it is grouped to. -/
theorem Chain.leftGrouped {operand : Parse Expr} {e t : Expr}
    (h : Chain s class? operand e ls t rest) :
    Reads s (leftGrouped class? operand e) ls t rest := by
  -- The tree of the chain is the fold over the operators and operands in the order of reading.
  have hturns : ∃ others : List (BinaryOp × Nat × Expr),
      Turns (chainTurn class? operand) (s.before ls) others (s.before rest)
      ∧ others.foldl (fun left (op, line, right) => .binary op left right line) e = t := by
    induction h with
    | stop h => exact ⟨[], .stop (reads_chainTurn_not operand h), rfl⟩
    | more hop hr hle h ih =>
      obtain ⟨others, hothers, hfold⟩ := ih
      refine ⟨_ :: others, .more (reads_chainTurn hop hr) ?_ hothers, hfold⟩
      simp only [length_tokens_before, List.length_cons]
      omega
  obtain ⟨others, hothers, rfl⟩ := hturns
  rw [leftGrouped_eq]
  exact Reads.bind hothers.many Reads.pure

end LeftGrouped

end TurboBench.Pascal
