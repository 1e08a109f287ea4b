import TurboBench.Proofs.Pascal.Spelling
import TurboBench.Proofs.Pascal.TypedRuns

/-!
# Values in range

Variables are in range whatever is computed, since an assignment checks its value. With the values
of expressions it is not so. Every operation has a result of the type, or checks it, but for one:
the length of a text is as large as the text is long. Only literals and their capitals can be longer
than a string, so the program shows where this matters: the runs of an accepted program stay in
range if and only if no `length` in it is that of a literal with more characters than the largest
integer (`staysInRange_iff`). A source may hold such a literal (`not_staysInRange_longLiteral`).
-/

set_option autoImplicit false

namespace TurboBench.Pascal

/-- A value of the range of its type. -/
def Value.InRange : Value → Prop
  | .integer n => minInteger ≤ n ∧ n ≤ maxInteger
  | .real x => x.isFinite = true
  | .boolean _ | .text _ => True

/-- The variables of a program keep their types in its runs under a limit and with breakpoints. -/
structure Program.KeepsTypes (p : Program) (room : Nat) (limit : Int) (breaks : Nat → Bool) :
    Prop where
  /-- The variables, at every moment of the run. -/
  store : ∀ m, p.Reaches room limit.toNat breaks m → m.state.store.Typed p.declarations
  /-- The final variables of the result. -/
  finalValues : List.Forall₂ (fun d x => x.1 = d.name ∧ x.2.HasType d.type) p.declarations
    (p.execute room limit breaks).finalValues

/-- Besides, the values of all expressions are in range. -/
structure Program.StaysInRange (p : Program) (room : Nat) (limit : Int) (breaks : Nat → Bool) : Prop
    extends p.KeepsTypes room limit breaks where
  /-- At every moment of the run, for the statement on any line and with any number of levels to
  go. -/
  values : ∀ m, p.Reaches room limit.toNat breaks m → ∀ e ∈ p.nodes,
    ∀ (stepLine depth : Nat) (v : Value),
      e.evalWithin m.state.store stepLine depth = .ok v → v.InRange

theorem keepsTypes {source : List Char} {p : Program} (h : compile source = .ok p) (room : Nat)
    (limit : Int) (breaks : Nat → Bool) : p.KeepsTypes room limit breaks := by
  obtain ⟨hstore, hfinal, -⟩ := typed_of_reaches h room limit.toNat breaks
  exact ⟨hstore, hfinal.forall₂⟩

/-- A value within the range of the longints is one that the language has. -/
theorem inRange_of_within {v : Value} {fixed : Option String}
    (h : v.Within .longint fixed) : v.InRange := by
  cases v with
  | integer n => exact Extent.has_longint_iff.1 h
  | real x => exact h True.intro
  | boolean b => exact True.intro
  | text s => exact True.intro

/-- An expression with a fixed text has it for its value in every store, given the levels that it
takes. -/
theorem exists_evalWithin_fixedText :
    (e : Expr) → {s : String} → e.fixedText? = some s →
      ∃ depth, ∀ σ stepLine, e.evalWithin σ stepLine depth = .ok (.text s)
  | .literal v line, s, h => by
    cases v with
    | text t =>
      obtain rfl := Option.some.inj h
      exact ⟨0, fun σ stepLine => Expr.evalWithin_literal ..⟩
    | _ => cases h
  | .call f e line, s, h => by
    cases f with
    | upcase =>
      obtain ⟨t, ht, rfl⟩ := Option.map_eq_some_iff.1 h
      obtain ⟨depth, heval⟩ := exists_evalWithin_fixedText e ht
      refine ⟨depth + 1, fun σ stepLine => ?_⟩
      rw [Expr.evalWithin, heval]
      rfl
    | _ => cases h
  | .variable .., _, h => by cases h
  | .unary .., _, h => by cases h
  | .binary .., _, h => by cases h

/-- **The runs of an accepted program stay in range if and only if the lengths of its literals do.**
For every room on the stack, every limit and all breakpoints; the variables keep their types in any
case. -/
theorem staysInRange_iff {source : List Char} {p : Program} (h : compile source = .ok p)
    (room : Nat) (limit : Int) (breaks : Nat → Bool) :
    p.KeepsTypes room limit breaks
      ∧ (p.StaysInRange room limit breaks ↔ p.LengthsFit .longint) := by
  have htypes := keepsTypes h room limit breaks
  refine ⟨htypes, fun hrange e line he s hs => ?_, fun hlengths => ⟨htypes, ?_⟩⟩
  · -- The length is a value of the program at the first moment of its run.
    obtain ⟨depth, heval⟩ := exists_evalWithin_fixedText e hs
    have hlength : (Expr.call .length e line).evalWithin (p.start limit.toNat).store 0 (depth + 1)
        = .ok (.integer s.length) := by
      rw [Expr.evalWithin, heval]
      rfl
    have hvalue := hrange.values _ .refl _ he 0 (depth + 1) _ hlength
    exact Extent.has_natCast.1 (Extent.has_longint_iff.2 hvalue)
  · intro m hm e he stepLine depth v hv
    have hwithin := within_of_reaches h hlengths hm he stepLine depth
    rw [hv] at hwithin
    exact inRange_of_within hwithin

/-- The only length in the program is that of a variable. -/
theorem lengthsFit_marks : marks.LengthsFit .longint := by
  intro e line he s hs
  have hvariable : e = .variable "s" 3 := by
    simp [Program.nodes, marks, Expr.nodes] at he
    exact he.1
  subst hvariable
  cases hs

theorem staysInRange_iff_marks :
    compile marksSource = .ok marks ∧ marks.LengthsFit .longint
      ∧ marks.StaysInRange 480 100 (fun _ => false) :=
  ⟨compile_marks, lengthsFit_marks,
    (staysInRange_iff compile_marks 480 100 fun _ => false).2.2 lengthsFit_marks⟩

/-! ## A literal that is too long -/

/-- A program that writes the length of a literal, as it is written out. -/
def lengthSource (s : String) : List Char :=
  spelled [.keyword .program, .identifier "p", .symbol .semicolon, .keyword .begin_,
    .keyword .writeln, .symbol .openParen, .identifier "length", .symbol .openParen, .string s,
    .symbol .closeParen, .symbol .closeParen, .keyword .end_, .symbol .dot]

/-- The program of `lengthSource`. -/
def lengthProgram (s : String) : Program where
  name := "p"
  declarations := []
  constants := []
  body := [.write true [⟨.call .length (.literal (.text s) 1) 1, none, none⟩] 1]

/-- The program that writes the length of a text is accepted, whatever the text. -/
theorem compile_lengthSource (s : String) :
    compile (lengthSource s) = .ok (lengthProgram s) := by
  have hp : IsName "p" :=
    ⟨⟨_, _, rfl, by decide, List.all_eq_true.1 (by decide)⟩, by decide, by decide⟩
  have hlength : IsName "length" :=
    ⟨⟨_, _, rfl, by decide, List.all_eq_true.1 (by decide)⟩, by decide, by decide⟩
  rw [compile, lengthSource, tokenize_spelled]
  · cbv
  · simp [Lexeme.Plain, hp, hlength]

/-- The length that the program writes is a value of its runs. -/
theorem length_le_of_staysInRange {s : String} {room : Nat} {limit : Int} {breaks : Nat → Bool}
    (h : (lengthProgram s).StaysInRange room limit breaks) : s.length ≤ maxInteger := by
  have hnode : .call .length (.literal (.text s) 1) 1 ∈ (lengthProgram s).nodes :=
    List.mem_flatMap.2 ⟨_, List.mem_cons_self, Expr.mem_nodes_self _⟩
  exact (h.values _ .refl _ hnode 1 1 (.integer s.length) rfl).2

/-- A literal with one character more than the largest integer. Its length is not in range. -/
theorem not_staysInRange_longLiteral :
    compile (lengthSource (String.ofList (List.replicate (2 ^ 31) 'a')))
        = .ok (lengthProgram (String.ofList (List.replicate (2 ^ 31) 'a')))
      ∧ ¬ (lengthProgram (String.ofList (List.replicate (2 ^ 31) 'a'))).StaysInRange 480 10000
        fun _ => false := by
  refine ⟨compile_lengthSource _, fun hrange => ?_⟩
  have hlength := length_le_of_staysInRange hrange
  rw [String.length_ofList, List.length_replicate] at hlength
  exact absurd hlength (by decide)

end TurboBench.Pascal
