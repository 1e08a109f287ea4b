import TurboBench.Pascal.Session
import TurboBench.Proofs.Pascal.StatementReading

/-!
# Compiling a program that was written out

A program of the language that is written out and compiled comes back as it was, with all its lines
on the first one (`compile_text`). Its lexemes are plain, so the lexer reads them as they were
written; the heading and the declarations lead to a state that knows the variables; and in that
state the statements are read back.

Declarations are the only parsers that change more of the state than its tokens. A section of them
takes one turn for each declaration (`turns_declarations`), and the invariant from turn to turn is
that the names still to come are new.
-/

set_option autoImplicit false

namespace TurboBench.Pascal

open Parse
open Written (of)

/-! ## Plain lexemes -/

/-- Lexemes that are all read as they are spelled. -/
def AllPlain (ls : List Lexeme) : Prop :=
  ∀ l ∈ ls, l.Plain

section Plain

variable {l : Lexeme} {ls ks : List Lexeme}

@[simp] theorem allPlain_nil : AllPlain [] := nofun

@[simp] theorem allPlain_cons : AllPlain (l :: ls) ↔ l.Plain ∧ AllPlain ls :=
  List.forall_mem_cons

@[simp] theorem allPlain_append : AllPlain (ls ++ ks) ↔ AllPlain ls ∧ AllPlain ks :=
  List.forall_mem_append

@[simp] theorem plain_keyword (w : Keyword) : (Lexeme.keyword w).Plain := trivial

@[simp] theorem plain_symbol (m : Symbol) : (Lexeme.symbol m).Plain := trivial

@[simp] theorem plain_identifier (n : String) : (Lexeme.identifier n).Plain ↔ IsName n := Iff.rfl

theorem allPlain_flatMap {α : Type} {as : List α} {f : α → List Lexeme}
    (h : ∀ a ∈ as, AllPlain (f a)) : AllPlain (as.flatMap f) := by
  intro l hl
  obtain ⟨a, ha, hl⟩ := List.mem_flatMap.1 hl
  exact h a ha l hl

/-- Lists of plain lexemes are plain with plain separators between them. -/
theorem allPlain_separated (hl : l.Plain) {lss : List (List Lexeme)}
    (h : ∀ ls ∈ lss, AllPlain ls) : AllPlain (separated l lss) := by
  cases lss with
  | nil => exact allPlain_nil
  | cons ls lss =>
    rw [separated_cons, allPlain_append]
    refine ⟨h ls List.mem_cons_self, allPlain_flatMap fun ks hks => ?_⟩
    exact allPlain_cons.2 ⟨hl, h ks (List.mem_cons_of_mem ls hks)⟩

theorem allPlain_parenthesized {w : Written} (h : AllPlain w.lexemes) :
    AllPlain w.parenthesized.lexemes := by
  simpa [Written.parenthesized] using h

/-- Arguments are written in plain lexemes, if each of them is. -/
theorem allPlain_arguments {ws : List Written} (h : ∀ w ∈ ws, AllPlain w.lexemes) :
    AllPlain (Written.arguments ws).lexemes := by
  have hjoined : AllPlain (Written.joined (.symbol .comma) ws).lexemes :=
    allPlain_separated (plain_symbol .comma) (List.forall_mem_map.2 h)
  unfold Written.arguments
  split
  · exact allPlain_nil
  · simpa using hjoined

end Plain

/-! ## The lexemes of a program are plain -/

theorem isDigits_toString (n : Nat) : IsDigits (toString n).toList := by
  rw [Nat.toString_eq_ofList_toDigits, String.toList_ofList]
  exact ⟨Nat.toDigits_ne_nil, fun c => Decimal.isDigit_of_mem_toDigits⟩

/-- A constant without its sign is a plain lexeme. -/
theorem plain_unsigned {v : Value} (h : v.IsConstant) : v.unsigned.Plain := by
  cases v with
  | integer n => exact isDigits_toString n.natAbs
  | real x =>
    -- The numeral of a finite double has digits on both sides of its point.
    obtain ⟨e, he⟩ := Option.isSome_iff_exists.1 (Decimal.isSome_ofFloat? h)
    obtain ⟨whole, places, heq, hdigits, hwhole, hlen⟩ :=
      Decimal.withPoint_eq e.places_ne_zero e.coefficient
    have hdigit {c : Char} (hc : c ∈ whole ++ places) : c.isDigit = true := by
      rw [hdigits] at hc
      exact Decimal.isDigit_of_mem_digits hc
    refine ⟨whole, places, ?_, ⟨hwhole, fun c hc => ?_⟩, ⟨?_, fun c hc => ?_⟩⟩
    · rw [Decimal.toList_exactNumeral he, heq]
    · exact hdigit (List.mem_append_left places hc)
    · refine List.ne_nil_of_length_pos ?_
      rw [hlen]
      exact Nat.pos_of_ne_zero e.places_ne_zero
    · exact hdigit (List.mem_append_right whole hc)
  | boolean b => exact plain_keyword _
  | text t => exact trivial

/-- Constants are written in plain lexemes. -/
theorem allPlain_value {v : Value} (h : v.IsConstant) : AllPlain v.lexemes := by
  have hv := plain_unsigned h
  unfold Value.lexemes
  split
  · simpa using hv
  · simpa using hv

theorem isName_builtin (f : Builtin) : IsName f.name := by
  cases f <;>
    exact ⟨⟨_, _, rfl, by decide, List.all_eq_true.1 (by decide)⟩, by decide, by decide⟩

theorem plain_operator (op : BinaryOp) : op.lexeme.Plain := by
  cases op <;> exact trivial

section WellFormed

variable {declared : String → Prop} (hnames : ∀ n, declared n → IsName n)
include hnames

/-- A well-formed expression is written in plain lexemes, wherever it stands. -/
theorem allPlain_rendered {e : Expr} (h : e.WellFormed declared) (place : Place) :
    AllPlain (e.rendered place).lexemes := by
  induction e generalizing place with
  | literal v line => simpa [Expr.rendered] using plain_unsigned h.1
  | «variable» n line => simpa [Expr.rendered] using hnames n h
  | unary op e line ih =>
    have he := ih h
    cases op with
    | not => simpa [Expr.rendered] using he .factor
    | negate =>
      have hterm : AllPlain (of [.symbol .minus] ++ e.rendered .term).lexemes := by
        simpa using he .term
      cases place with
      | expression => exact hterm
      | simple => exact hterm
      | leading => exact allPlain_parenthesized hterm
      | term => simpa [Expr.rendered] using he .factor
      | factor => simpa [Expr.rendered] using he .factor
  | binary op l r line ihl ihr =>
    -- Parentheses are plain, so it does not matter at which places they are put.
    have hboth (p q : Place) :
        AllPlain (l.rendered p ++ of [op.lexeme] ++ r.rendered q).lexemes := by
      simpa using ⟨ihl h.1 p, plain_operator op, ihr h.2 q⟩
    simp only [Expr.rendered]
    cases op.class <;> simp only <;> split <;>
      first | exact hboth _ _ | exact allPlain_parenthesized (hboth _ _)
  | call f e line ih => simpa [Expr.rendered] using ⟨isName_builtin f, ih h .expression⟩

theorem allPlain_expr {e : Expr} (h : e.WellFormed declared) : AllPlain e.written.lexemes :=
  allPlain_rendered hnames h .expression

/-- Items of a write are written in plain lexemes. -/
theorem allPlain_writeItem {item : WriteItem} (h : item.WellFormed declared) :
    AllPlain item.written.lexemes := by
  obtain ⟨value, width, decimals⟩ := item
  obtain ⟨hvalue, hwidth, hdecimals, -⟩ := h
  have hv := allPlain_expr hnames hvalue
  cases width with
  | none => exact hv
  | some w =>
    have hw := allPlain_expr hnames (hwidth w rfl)
    cases decimals with
    | none => simpa [WriteItem.written] using ⟨hv, hw⟩
    | some e => simpa [WriteItem.written] using ⟨hv, hw, allPlain_expr hnames (hdecimals e rfl)⟩

theorem allPlain_writeItems {items : List WriteItem}
    (h : ∀ item ∈ items, item.WellFormed declared) :
    AllPlain (Written.arguments (items.map (·.written))).lexemes :=
  allPlain_arguments (List.forall_mem_map.2 fun item hitem =>
    allPlain_writeItem hnames (h item hitem))

theorem allPlain_targets {targets : List String} (h : ∀ n ∈ targets, declared n) :
    AllPlain (Written.arguments (targets.map fun n => of [.identifier n])).lexemes := by
  refine allPlain_arguments (List.forall_mem_map.2 fun n hn => ?_)
  simpa using hnames n (h n hn)

end WellFormed

theorem allPlain_labels {labels : List Value} (h : ∀ v ∈ labels, v.IsConstant) :
    AllPlain (separated (.symbol .comma) (labels.map (·.lexemes))) :=
  allPlain_separated (plain_symbol .comma) (List.forall_mem_map.2 fun v hv =>
    allPlain_value (h v hv))

section Statements

variable {declared : String → Prop}

mutual

/-- A well-formed statement is written in plain lexemes. The induction is on the statement. -/
theorem allPlain_statement (hnames : ∀ n, declared n → IsName n) : ∀ {st : Statement},
    st.WellFormed declared → AllPlain st.written.lexemes
  | .assign n _ _, h => by
    simp only [Statement.WellFormed] at h
    simpa [Statement.written] using ⟨hnames n h.1, allPlain_expr hnames h.2⟩
  | .write _ _ _, h => by
    simp only [Statement.WellFormed] at h
    simpa [Statement.written] using allPlain_writeItems hnames h
  | .read _ _ _, h => by
    simp only [Statement.WellFormed] at h
    simpa [Statement.written] using allPlain_targets hnames h
  | .ifThen _ _ none _, h => by
    simp only [Statement.WellFormed] at h
    simpa [Statement.written] using ⟨allPlain_expr hnames h.1, allPlain_statement hnames h.2⟩
  | .ifThen _ _ (some _) _, h => by
    simp only [Statement.WellFormed] at h
    obtain ⟨hc, ht, he, -⟩ := h
    simpa [Statement.written] using ⟨allPlain_expr hnames hc, allPlain_statement hnames ht,
      allPlain_statement hnames he⟩
  | .whileDo _ _ _, h => by
    simp only [Statement.WellFormed] at h
    simpa [Statement.written] using ⟨allPlain_expr hnames h.1, allPlain_statement hnames h.2⟩
  | .repeatUntil _ _ _, h => by
    simp only [Statement.WellFormed] at h
    simpa [Statement.written] using ⟨allPlain_all hnames h.2.1, allPlain_expr hnames h.2.2⟩
  | .forTo n _ _ _ _ _, h => by
    simp only [Statement.WellFormed] at h
    obtain ⟨hn, hfirst, hlast, hb⟩ := h
    simpa [Statement.written] using ⟨hnames n hn, allPlain_expr hnames hfirst,
      allPlain_expr hnames hlast, allPlain_statement hnames hb⟩
  | .caseOf _ _ _ _, h => by
    simp only [Statement.WellFormed] at h
    obtain ⟨hc, hbs, ho⟩ := h
    simpa [Statement.written] using ⟨allPlain_expr hnames hc, allPlain_branches hnames hbs,
      allPlain_else hnames ho⟩
  | .compound _ _, h => by
    simp only [Statement.WellFormed] at h
    simpa [Statement.written] using allPlain_all hnames h.2
  | .empty _, _ => by
    simp [Statement.written]

theorem allPlain_behind (hnames : ∀ n, declared n → IsName n) : ∀ {ss : List Statement},
    WellFormedAll declared ss → AllPlain (writtenBehind ss).lexemes
  | [], _ => by
    simp [writtenBehind]
  | _ :: _, h => by
    simp only [WellFormedAll] at h
    simpa [writtenBehind] using ⟨allPlain_statement hnames h.1, allPlain_behind hnames h.2⟩

theorem allPlain_all (hnames : ∀ n, declared n → IsName n) : ∀ {ss : List Statement},
    WellFormedAll declared ss → AllPlain (writtenAll ss).lexemes
  | [], _ => by
    simp [writtenAll]
  | _ :: _, h => by
    simp only [WellFormedAll] at h
    simpa [writtenAll] using ⟨allPlain_statement hnames h.1, allPlain_behind hnames h.2⟩

theorem allPlain_else (hnames : ∀ n, declared n → IsName n) : ∀ {ss : List Statement},
    WellFormedAll declared ss → AllPlain (writtenElse ss).lexemes
  | [], _ => by
    simp [writtenElse]
  | _ :: _, h => by
    simp only [WellFormedAll] at h
    simpa [writtenElse] using ⟨allPlain_statement hnames h.1, allPlain_behind hnames h.2⟩

theorem allPlain_branches (hnames : ∀ n, declared n → IsName n) :
    ∀ {bs : List (List Value × Statement)}, WellFormedBranches declared bs →
    AllPlain (writtenBranches bs).lexemes
  | [], _ => by
    simp [writtenBranches]
  | (_, _) :: _, h => by
    simp only [WellFormedBranches] at h
    obtain ⟨hlabels, hst, hbs⟩ := h
    simpa [writtenBranches] using ⟨allPlain_labels hlabels.2, allPlain_statement hnames hst,
      allPlain_branches hnames hbs⟩

end

end Statements

/-- A section is written in plain lexemes, if its declarations are. -/
theorem allPlain_section {word : Keyword} {ls : List Lexeme} (h : AllPlain ls) :
    AllPlain (sectionLexemes word ls) := by
  unfold sectionLexemes
  split
  · exact allPlain_nil
  · simpa using h

/-- **All lexemes of a program of the language are plain.** -/
theorem Program.WellFormed.allPlain {p : Program} (h : p.WellFormed) :
    AllPlain p.written.lexemes := by
  have hconstants : AllPlain (p.constants.flatMap constantLexemes) := by
    refine allPlain_flatMap fun c hc => ?_
    simpa [constantLexemes] using ⟨h.constantNames c hc, allPlain_value (h.constants c hc)⟩
  have hvariables : AllPlain (p.declarations.flatMap (·.lexemes)) := by
    refine allPlain_flatMap fun d hd => ?_
    simpa [Declaration.lexemes] using h.variableNames d.name (List.mem_map_of_mem hd)
  simpa [Program.written] using ⟨h.name, allPlain_section hconstants, allPlain_section hvariables,
    allPlain_all h.variableNames h.body⟩

/-! ## Single declarations -/

namespace ParserState

/-- The state with one more constant. -/
def addConstant (s : ParserState) (c : String × Value) : ParserState :=
  { s with constants := s.constants ++ [c] }

/-- The state with one more variable, which is declared on the first line. -/
def addVariable (s : ParserState) (d : Declaration) : ParserState :=
  { s with declarations := s.declarations ++ [{ d with line := 1 }] }

/-- Names that can be declared one after the other: none is taken, and no two are the same. -/
structure New (s : ParserState) (names : List String) : Prop where
  isName : ∀ n ∈ names, IsName n
  distinct : names.Nodup
  notVariable : ∀ n ∈ names, s.isVariable n = false
  notConstant : ∀ n ∈ names, s.isConstant n = false

/-- The names behind a constant stay new when it has been declared. -/
theorem New.addConstant {s : ParserState} {c : String × Value} {names : List String}
    (h : s.New (c.1 :: names)) : (s.addConstant c).New names := by
  obtain ⟨hnot, hdistinct⟩ := List.nodup_cons.1 h.distinct
  refine ⟨fun n hn => ?_, hdistinct, fun n hn => ?_, fun n hn => ?_⟩
  · exact h.isName n (List.mem_cons_of_mem _ hn)
  · exact h.notVariable n (List.mem_cons_of_mem _ hn)
  · -- A name to come is none of the old ones, and not the one that was just declared.
    have hne : (n == c.1) = false := beq_eq_false_iff_ne.2 fun heq => hnot (heq ▸ hn)
    have hold := h.notConstant n (List.mem_cons_of_mem _ hn)
    unfold isConstant at hold ⊢
    rw [ParserState.addConstant, List.lookup_append, Option.isSome_or, hold, List.lookup_cons, hne]
    rfl

/-- The names behind a variable stay new when it has been declared. -/
theorem New.addVariable {s : ParserState} {d : Declaration} {names : List String}
    (h : s.New (d.name :: names)) : (s.addVariable d).New names := by
  obtain ⟨hnot, hdistinct⟩ := List.nodup_cons.1 h.distinct
  refine ⟨fun n hn => ?_, hdistinct, fun n hn => ?_, fun n hn => ?_⟩
  · exact h.isName n (List.mem_cons_of_mem _ hn)
  · have hne : (d.name == n) = false := beq_eq_false_iff_ne.2 fun heq => hnot (heq ▸ hn)
    have hold := h.notVariable n (List.mem_cons_of_mem _ hn)
    unfold isVariable at hold ⊢
    rw [ParserState.addVariable, List.any_append, hold]
    simpa using hne
  · exact h.notConstant n (List.mem_cons_of_mem _ hn)

end ParserState

section Single

variable {s : ParserState} {ls : List Lexeme}

/-- A new name is accepted, and nothing is read for that. -/
theorem reads_declareNew {n : String} {names : List String} (h : s.New (n :: names)) :
    Reads s (declareNew ⟨n, 1⟩) ls true ls := by
  have hkey : Name.key ⟨n, 1⟩ = n := foldName_of_isName (h.isName n List.mem_cons_self)
  have hvariable : (s.before ls).isVariable n = false := h.notVariable n List.mem_cons_self
  have hconstant : (s.before ls).isConstant n = false := h.notConstant n List.mem_cons_self
  refine Reads.get ?_
  rw [hkey, hvariable, hconstant]
  exact Reads.pure

/-- The written declaration of a constant is read back, and declares it. -/
theorem constantDeclaration_apply {c : String × Value} {names : List String}
    (h : s.New (c.1 :: names)) (hc : c.2.IsConstant) :
    constantDeclaration (s.before (constantLexemes c ++ ls)) = .ok () ((s.addConstant c).before ls)
    := by
  -- The first four parsers only read; the constant is entered at the end, where it is new.
  have hkey : Name.key ⟨c.1, 1⟩ = c.1 := foldName_of_isName (h.isName _ List.mem_cons_self)
  have hnew : (s.before ls).isConstant c.1 = false := h.notConstant _ List.mem_cons_self
  have hset : (s.before ls).setConstant c.1 c.2 = (s.addConstant c).before ls := by
    rw [ParserState.setConstant, hnew]
    rfl
  simp only [constantLexemes, List.append_assoc, List.cons_append, List.nil_append]
  refine ((reads_identifier c.1).bind_apply _).trans ?_
  refine ((reads_expectSymbol .equal).bind_apply _).trans ?_
  refine ((reads_constantValue hc).bind_apply _).trans ?_
  refine ((reads_expectSymbol .semicolon).bind_apply _).trans ?_
  refine ((reads_declareNew h).discard.bind_apply _).trans ?_
  rw [hkey, ← hset]
  rfl

/-- The written name of a type is read back. -/
theorem reads_typeName (t : PascalType) :
    Reads s typeName (.keyword t.keyword :: .symbol .semicolon :: ls) t (.symbol .semicolon :: ls)
    := by
  have hnot : (Lexeme.symbol .semicolon :: ls).head? ≠ some (.symbol .openBracket) := by simp
  refine Reads.get ?_
  cases t with
  | string => exact Reads.advance (Reads.bind (reads_acceptSymbol_not hnot) Reads.pure)
  | _ => exact Reads.advance Reads.pure

/-- The written declaration of a variable is read back, and declares it. -/
theorem variableDeclaration_apply {d : Declaration} {names : List String}
    (h : s.New (d.name :: names)) :
    variableDeclaration (s.before (d.lexemes ++ ls)) = .ok () ((s.addVariable d).before ls) := by
  have hkey : Name.key ⟨d.name, 1⟩ = d.name := foldName_of_isName (h.isName _ List.mem_cons_self)
  have hstop (ks : List Lexeme) :
      (Lexeme.symbol .colon :: ks).head? ≠ some (.symbol .comma) := by simp
  have hnames (ks : List Lexeme) :
      Reads s (commaList identifier) (.identifier d.name :: .symbol .colon :: ks) [⟨d.name, 1⟩]
        (.symbol .colon :: ks) :=
    Reads.bind (reads_identifier d.name)
      (Reads.bind (Turns.many (.stop (reads_afterSymbol_not _ (hstop ks)))) Reads.pure)
  have hdeclare : declareVariable d.type ⟨d.name, 1⟩ (s.before ls)
      = .ok () ((s.addVariable d).before ls) := by
    refine ((reads_declareNew h).bind_apply _).trans ?_
    rw [if_pos rfl, hkey]
    rfl
  -- Several names may share a type; the rendering declares them one at a time.
  simp only [Declaration.lexemes, List.cons_append, List.nil_append]
  refine ((hnames _).bind_apply _).trans ?_
  refine ((reads_expectSymbol .colon).bind_apply _).trans ?_
  refine ((reads_typeName d.type).bind_apply _).trans ?_
  refine ((reads_expectSymbol .semicolon).bind_apply _).trans ?_
  change (declareVariable d.type ⟨d.name, 1⟩ >>= fun _ => pure ()) (s.before ls) = _
  exact bind_of_ok hdeclare

end Single

/-! ## Sections of declarations -/

section Sections

variable {α : Type} {declaration : Parse Unit}

/-- One turn of `declarations`. -/
def declarationTurn (declaration : Parse Unit) : Parse (Option Unit) := do
  if ← atIdentifier then
    if (← recovering declaration).isNone then discard (acceptSymbol .semicolon)
    return some ()
  else return none

theorem declarations_eq (declaration : Parse Unit) :
    declarations declaration = Functor.discard (many (declarationTurn declaration)) := rfl

theorem reads_atIdentifier (s : ParserState) (n : String) (ls : List Lexeme) :
    Reads s atIdentifier (.identifier n :: ls) true (.identifier n :: ls) :=
  Reads.get Reads.pure

theorem reads_atIdentifier_keyword (s : ParserState) (w : Keyword) (ls : List Lexeme) :
    Reads s atIdentifier (.keyword w :: ls) false (.keyword w :: ls) :=
  Reads.get Reads.pure

/-- A declaration that is read without a fault makes a turn of its section. -/
theorem declarationTurn_apply {s t : ParserState} {n : String} {ls rest : List Lexeme}
    (h : declaration (s.before (.identifier n :: ls)) = .ok () (t.before rest)) :
    declarationTurn declaration (s.before (.identifier n :: ls)) = .ok (some ()) (t.before rest)
    := by
  have hrecovered : recovering declaration (s.before (.identifier n :: ls))
      = .ok (some ()) (t.before rest) := by
    rw [recovering, h]
  refine ((reads_atIdentifier s n ls).bind_apply _).trans ?_
  rw [if_pos rfl]
  exact bind_of_ok hrecovered

/-- A section takes one turn for each declaration. What `Fresh` says of the declarations to come is
the invariant. -/
theorem turns_declarations (Fresh : ParserState → List α → Prop) {write : α → List Lexeme}
    {add : ParserState → α → ParserState} {rest : List Lexeme}
    (hrun : ∀ s a as ls, Fresh s (a :: as) →
      declaration (s.before (write a ++ ls)) = .ok () ((add s a).before ls))
    (hnext : ∀ s a as, Fresh s (a :: as) → Fresh (add s a) as)
    (hhead : ∀ a, ∃ n ks, write a = .identifier n :: ks)
    (hstop : ∃ w ks, rest = .keyword w :: ks) {s : ParserState} {as : List α} (h : Fresh s as) :
    Turns (declarationTurn declaration) (s.before (as.flatMap write ++ rest))
      (as.map fun _ => ()) ((as.foldl add s).before rest) := by
  induction as generalizing s with
  | nil =>
    -- a word ends the section, where a name would go on with it
    obtain ⟨w, ks, rfl⟩ := hstop
    exact .stop (Reads.bind (reads_atIdentifier_keyword s w ks) Reads.pure)
  | cons a as ih =>
    obtain ⟨n, ks, hwrite⟩ := hhead a
    have hdeclared := hrun s a as (as.flatMap write ++ rest) h
    rw [List.flatMap_cons, List.append_assoc]
    rw [hwrite] at hdeclared ⊢
    refine .more (declarationTurn_apply hdeclared) ?_ (ih (hnext s a as h))
    simp only [length_tokens_before, List.length_append, List.length_cons]
    omega

end Sections

/-- The state in which a program is begun. -/
def ParserState.start : ParserState :=
  ⟨[], 1, [], [], []⟩

/-- The state behind the declarations of a program. -/
def Program.declared (p : Program) : ParserState :=
  ⟨[], 1, [], p.declarations.map fun d => { d with line := 1 }, p.constants⟩

section Part

variable {s : ParserState} {rest : List Lexeme}

theorem foldl_addConstant (s : ParserState) (cs : List (String × Value)) :
    cs.foldl ParserState.addConstant s = { s with constants := s.constants ++ cs } := by
  induction cs generalizing s with
  | nil => rw [List.foldl_nil, List.append_nil]
  | cons c cs ih => rw [List.foldl_cons, ih]; simp [ParserState.addConstant]

theorem foldl_addVariable (s : ParserState) (ds : List Declaration) :
    ds.foldl ParserState.addVariable s
      = { s with declarations := s.declarations ++ ds.map fun d => { d with line := 1 } } := by
  induction ds generalizing s with
  | nil => rw [List.foldl_nil, List.map_nil, List.append_nil]
  | cons d ds ih => rw [List.foldl_cons, ih]; simp [ParserState.addVariable]

/-- A written section of constants declares all of them, in order. -/
theorem declarations_constants {cs : List (String × Value)} (hnew : s.New (cs.map Prod.fst))
    (hcs : ∀ c ∈ cs, c.2.IsConstant) (hstop : ∃ w ks, rest = .keyword w :: ks) :
    declarations constantDeclaration (s.before (cs.flatMap constantLexemes ++ rest))
      = .ok () (ParserState.before { s with constants := s.constants ++ cs } rest) := by
  have hturns := turns_declarations
    (fun s (cs : List (String × Value)) => s.New (cs.map Prod.fst) ∧ ∀ c ∈ cs, c.2.IsConstant)
    (fun s c cs ls h => constantDeclaration_apply h.1 (h.2 c List.mem_cons_self))
    (fun s c cs h => ⟨h.1.addConstant, fun d hd => h.2 d (List.mem_cons_of_mem c hd)⟩)
    (fun c => ⟨c.1, _, rfl⟩) hstop ⟨hnew, hcs⟩
  rw [declarations_eq, ← foldl_addConstant]
  change EStateM.map _ (many _) _ = _
  simp only [EStateM.map, hturns.many]

/-- A written section of variables declares all of them, in order. -/
theorem declarations_variables {ds : List Declaration} (hnew : s.New (ds.map Declaration.name))
    (hstop : ∃ w ks, rest = .keyword w :: ks) :
    declarations variableDeclaration (s.before (ds.flatMap (·.lexemes) ++ rest))
      = .ok () (ParserState.before { s with
          declarations := s.declarations ++ ds.map fun d => { d with line := 1 } } rest) := by
  have hturns := turns_declarations
    (fun (s : ParserState) (ds : List Declaration) => s.New (ds.map Declaration.name))
    (fun s d ds ls h => variableDeclaration_apply h) (fun s d ds h => h.addVariable)
    (fun d : Declaration => ⟨d.name, _, rfl⟩) hstop hnew
  rw [declarations_eq, ← foldl_addVariable]
  change EStateM.map _ (many _) _ = _
  simp only [EStateM.map, hturns.many]

/-- One turn of `declarationPart`: a section. -/
def sectionTurn : Parse (Option Unit) := do
  if ← acceptKeyword .const then
    declarations constantDeclaration
    return some ()
  else if ← acceptKeyword .var_ then
    declarations variableDeclaration
    return some ()
  else return none

theorem declarationPart_eq : declarationPart = Functor.discard (many sectionTurn) := rfl

theorem sectionTurn_const {t : ParserState} {ls : List Lexeme}
    (h : declarations constantDeclaration (s.before ls) = .ok () (t.before rest)) :
    sectionTurn (s.before (.keyword .const :: ls)) = .ok (some ()) (t.before rest) := by
  refine ((reads_acceptKeyword .const).bind_apply _).trans ?_
  rw [if_pos rfl]
  exact bind_of_ok h

/-- The word `var` opens a section of variables. -/
theorem sectionTurn_var {t : ParserState} {ls : List Lexeme}
    (h : declarations variableDeclaration (s.before ls) = .ok () (t.before rest)) :
    sectionTurn (s.before (.keyword .var_ :: ls)) = .ok (some ()) (t.before rest) := by
  have hnot : (Lexeme.keyword .var_ :: ls).head? ≠ some (.keyword .const) := by simp
  refine ((reads_acceptKeyword_not hnot).bind_apply _).trans ?_
  rw [if_neg Bool.false_ne_true]
  refine ((reads_acceptKeyword .var_).bind_apply _).trans ?_
  rw [if_pos rfl]
  exact bind_of_ok h

/-- The word `begin` opens no section of declarations, and is left. -/
theorem reads_sectionTurn_begin (ls : List Lexeme) :
    Reads s sectionTurn (.keyword .begin_ :: ls) none (.keyword .begin_ :: ls) := by
  have hconst : (Lexeme.keyword .begin_ :: ls).head? ≠ some (.keyword .const) := by simp
  have hvar : (Lexeme.keyword .begin_ :: ls).head? ≠ some (.keyword .var_) := by simp
  refine Reads.bind (reads_acceptKeyword_not hconst) ?_
  rw [if_neg Bool.false_ne_true]
  exact Reads.bind (reads_acceptKeyword_not hvar) Reads.pure

/-- A section that is written is read in one turn, and one that is left out changes nothing. -/
theorem turns_section {word : Keyword} {ls : List Lexeme} {t u : ParserState} {us : List Unit}
    (hturn : sectionTurn (s.before (.keyword word :: (ls ++ rest))) = .ok (some ()) (t.before rest))
    (hempty : ls = [] → s = t) (hturns : Turns sectionTurn (t.before rest) us u) :
    ∃ us, Turns sectionTurn (s.before (sectionLexemes word ls ++ rest)) us u := by
  cases ls with
  | nil =>
    rw [hempty rfl]
    exact ⟨us, hturns⟩
  | cons l ls =>
    have hsection : sectionLexemes word (l :: ls) = .keyword word :: l :: ls := rfl
    rw [hsection]
    refine ⟨() :: us, .more hturn ?_ hturns⟩
    simp only [length_tokens_before, List.length_append, List.length_cons]
    omega

/-- Behind a section stands a word, whether it is written or left out. -/
theorem section_append (word w : Keyword) (ls ks : List Lexeme) :
    ∃ v js, sectionLexemes word ls ++ .keyword w :: ks = .keyword v :: js := by
  cases ls with
  | nil => exact ⟨w, ks, rfl⟩
  | cons l ls => exact ⟨word, _, rfl⟩

theorem eq_nil_of_flatMap {α β : Type} {f : α → List β} (hf : ∀ a, f a ≠ []) {as : List α}
    (h : as.flatMap f = []) : as = [] :=
  List.eq_nil_iff_forall_not_mem.2 fun a ha => hf a (List.flatMap_eq_nil_iff.1 h a ha)

end Part

/-! ## The whole program -/

section Whole

variable {p : Program}

/-- The declarations lead to a state that holds them. -/
theorem declarationPart_apply (h : p.WellFormed) (ls : List Lexeme) :
    declarationPart (ParserState.start.before
        (sectionLexemes .const (p.constants.flatMap constantLexemes)
          ++ (sectionLexemes .var_ (p.declarations.flatMap (·.lexemes))
            ++ .keyword .begin_ :: ls)))
      = .ok () (p.declared.before (.keyword .begin_ :: ls)) := by
  obtain ⟨hconstants, hvariables, hdisjoint⟩ := List.nodup_append.1 h.distinct
  -- the state between the two sections
  let s₁ : ParserState := ⟨[], 1, [], [], p.constants⟩
  have hnew : ParserState.start.New (p.constants.map Prod.fst) := by
    refine ⟨List.forall_mem_map.2 h.constantNames, hconstants, fun _ _ => rfl, fun _ _ => rfl⟩
  have hnew₁ : s₁.New p.variables := by
    refine ⟨h.variableNames, hvariables, fun _ _ => rfl, fun n hn => ?_⟩
    have hlookup : p.constants.lookup n = none := by
      refine List.lookup_eq_none_iff.2 fun c hc => bne_iff_ne.2 fun heq => ?_
      exact hdisjoint c.1 (List.mem_map_of_mem hc) n hn heq.symm
    rw [ParserState.isConstant, hlookup]
    rfl
  have hvarEmpty : p.declarations.flatMap (·.lexemes) = [] → s₁ = p.declared := by
    intro hnil
    have hne (d : Declaration) : d.lexemes ≠ [] := List.cons_ne_nil _ _
    rw [Program.declared, eq_nil_of_flatMap hne hnil]
    rfl
  have hconstEmpty : p.constants.flatMap constantLexemes = [] → ParserState.start = s₁ := by
    intro hnil
    have hne (c : String × Value) : constantLexemes c ≠ [] := List.cons_ne_nil _ _
    simp only [s₁, ParserState.start, eq_nil_of_flatMap hne hnil]
  -- The turns are put together from the back, as each needs what stands behind its section.
  have hbegin : Turns sectionTurn (p.declared.before (.keyword .begin_ :: ls)) []
      (p.declared.before (.keyword .begin_ :: ls)) := .stop (reads_sectionTurn_begin ls)
  have hvar := sectionTurn_var (declarations_variables hnew₁ ⟨.begin_, ls, rfl⟩)
  obtain ⟨us, hus⟩ := turns_section hvar hvarEmpty hbegin
  have hstop := section_append .var_ .begin_ (p.declarations.flatMap (·.lexemes)) ls
  have hconst := sectionTurn_const (declarations_constants hnew h.constants hstop)
  obtain ⟨vs, hvs⟩ := turns_section hconst hconstEmpty hus
  rw [declarationPart_eq]
  change EStateM.map _ (many _) _ = _
  simp only [EStateM.map, hvs.many]

/-- When all sections are read, the variables of the program are known. -/
theorem knows_declared (h : p.WellFormed) : p.declared.Knows (· ∈ p.variables) := by
  obtain ⟨-, -, hdisjoint⟩ := List.nodup_append.1 h.distinct
  refine ⟨h.variableNames, fun n hn => ?_, fun n hn => ?_⟩
  · obtain ⟨d, hd, rfl⟩ := List.mem_map.1 hn
    refine List.any_eq_true.2 ⟨{ d with line := 1 }, List.mem_map_of_mem hd, ?_⟩
    exact beq_self_eq_true d.name
  · refine List.lookup_eq_none_iff.2 fun c hc => bne_iff_ne.2 fun heq => ?_
    exact hdisjoint c.1 (List.mem_map_of_mem hc) n hn heq.symm

theorem reads_heading (s : ParserState) (n : String) (ls : List Lexeme) :
    Reads s heading (.keyword .program :: .identifier n :: .symbol .semicolon :: ls) n ls :=
  Reads.bind (reads_expectKeyword .program)
    (Reads.bind (reads_identifier n) (Reads.bind (reads_expectSymbol .semicolon) Reads.pure))

theorem reads_programEnd (s : ParserState) :
    Reads s programEnd [.keyword .end_, .symbol .dot] () [] :=
  Reads.get (Reads.bind (reads_acceptKeyword .end_)
    (Reads.bind (reads_acceptSymbol .dot) (Reads.get Reads.pure)))

/-- The written body of a well-formed program is read back, down to the end of the source. -/
theorem reads_body (h : p.WellFormed) (hd : p.written.depth ≤ nestingLimit) :
    Reads p.declared body
      (.keyword .begin_ :: ((writtenAll p.body).lexemes ++ [.keyword .end_, .symbol .dot]))
      (onLineAll 1 p.body) [] := by
  simp only [Program.written, Written.depth_append, Written.depth_of] at hd
  have hstatements := reads_statementList h.body_ne (readBackAll (knows_declared h) h.body)
    (d := nestingLimit) (by omega) ⟨.keyword .end_, [.symbol .dot], rfl, .inl rfl⟩
  refine Reads.bind (reads_expectKeyword .begin_) (Reads.bind hstatements ?_)
  exact Reads.bind (reads_programEnd _) Reads.pure

theorem orElseReport_of_ok {α : Type} {q : Parse α} {s t : ParserState} {a : α} (d : α)
    (h : q s = .ok a t) : orElseReport q d s = (a, t) := by
  rw [orElseReport, h]

/-- No plain lexeme is an illegal token. -/
theorem illegalTokens_of_plain {ls : List Lexeme} (h : AllPlain ls) :
    illegalTokens (ls.map (⟨·, 1⟩)) = [] := by
  refine List.filterMap_eq_nil_iff.2 fun t ht => ?_
  obtain ⟨l, hl, rfl⟩ := List.mem_map.1 ht
  have hplain := h l hl
  cases l with
  | flaw c => exact hplain.elim
  | _ => rfl

/-- A program is what its parts are read as, if there is nothing to complain of. -/
theorem parseProgram_of_reads {ls mid mid' : List Lexeme} {t : ParserState} {n : String}
    {ss : List Statement} (hlegal : illegalTokens (ls.map (⟨·, 1⟩)) = [])
    (hheading : Reads .start heading ls n mid)
    (hdeclarations : declarationPart (ParserState.start.before mid)
      = .ok () (t.before mid'))
    (hbody : Reads t body mid' ss []) (hclean : t.diagnostics = []) :
    parseProgram ⟨ls.map (⟨·, 1⟩), 1⟩ = .ok ⟨n, t.declarations, t.constants, ss⟩ := by
  have hname : (some <$> heading) (ParserState.start.before ls)
      = .ok (some n) (ParserState.start.before mid) := by
    change EStateM.map _ heading _ = _
    simp only [EStateM.map, show heading _ = _ from hheading]
  have hstart : (⟨ls.map (⟨·, 1⟩), 1, illegalTokens (ls.map (⟨·, 1⟩)), [], []⟩ : ParserState)
      = ParserState.start.before ls := by
    rw [hlegal]
    rfl
  -- The three parts run one after the other, each in the state that the one before it leaves.
  simp only [parseProgram, hstart, orElseReport_of_ok none hname, Option.isNone_some,
    Bool.false_eq_true, if_false, orElseReport_of_ok () hdeclarations,
    orElseReport_of_ok [] (show body _ = _ from hbody)]
  rw [show (t.before []).diagnostics = [] from hclean]
  rfl

/-- **Writing out and compiling is the identity, up to line numbers.** A program of the language
whose rendering stays within the nesting limit compiles to itself on one line. -/
theorem compile_text (h : p.WellFormed) (hd : p.written.depth ≤ nestingLimit) :
    compile p.text = .ok (p.onLine 1) := by
  have hlexemes : p.written.lexemes
      = .keyword .program :: .identifier p.name :: .symbol .semicolon
        :: (sectionLexemes .const (p.constants.flatMap constantLexemes)
          ++ (sectionLexemes .var_ (p.declarations.flatMap (·.lexemes))
            ++ .keyword .begin_ :: ((writtenAll p.body).lexemes
              ++ [.keyword .end_, .symbol .dot]))) := by
    simp [Program.written]
  have hlegal := illegalTokens_of_plain h.allPlain
  rw [compile, Program.text, tokenize_spelled h.allPlain]
  rw [hlexemes] at hlegal ⊢
  exact parseProgram_of_reads hlegal (reads_heading _ _ _) (declarationPart_apply h _)
    (reads_body h hd) rfl

end Whole

/-- A program whose rendering needs parentheses: `n := (-n) * (n + 2)` in front of a conditional. -/
def signedProduct : Program where
  name := "signed"
  declarations := [⟨"n", .integer, 1⟩]
  constants := [("low", .integer (-3))]
  body :=
    [.assign "n" (.binary .multiply (.unary .negate (.variable "n" 1) 1)
      (.binary .add (.variable "n" 1) (.literal (.integer 2) 1) 1) 1) 1,
     .ifThen (.binary .less (.variable "n" 1) (.literal (.integer 0) 1) 1)
      (.write true [⟨.variable "n" 1, some (.literal (.integer 4) 1), none⟩] 1)
      (some (.caseOf (.variable "n" 1) [([.integer 1, .integer (-2)], .empty 1)] [] 1)) 1]

theorem wellFormed_signedProduct : signedProduct.WellFormed where
  name := ⟨⟨_, _, rfl, by decide, List.all_eq_true.1 (by decide)⟩, by decide, by decide⟩
  constantNames := List.forall_mem_singleton.2
    ⟨⟨_, _, rfl, by decide, List.all_eq_true.1 (by decide)⟩, by decide, by decide⟩
  variableNames := List.forall_mem_singleton.2
    ⟨⟨_, _, rfl, by decide, List.all_eq_true.1 (by decide)⟩, by decide, by decide⟩
  distinct := by decide
  constants := List.forall_mem_singleton.2 ⟨by decide, by decide⟩
  body_ne := nofun
  body := by
    simp [signedProduct, WellFormedAll, WellFormedBranches, Statement.WellFormed, Expr.WellFormed,
      WriteItem.WellFormed, Program.variables, Value.IsLiteral, Value.IsConstant, Value.isNegative,
      Statement.endsOpen, maxInteger]

theorem compile_text_signedProduct : signedProduct.WellFormed
    ∧ signedProduct.written.depth ≤ nestingLimit
    ∧ compile signedProduct.text = .ok (signedProduct.onLine 1) :=
  ⟨wellFormed_signedProduct, by decide +kernel,
    compile_text wellFormed_signedProduct (by decide +kernel)⟩

example : signedProduct.text = ("program signed ; const low = - 3 ; var n : integer ; "
    ++ "begin n := ( - n ) * ( n + 2 ) ; if n < 0 then writeln ( n : 4 ) "
    ++ "else case n of 1 , - 2 : ; end end . ").toList := by
  decide +kernel

end TurboBench.Pascal
