import TurboBench.Proofs.Pascal.ParserLoops

/-!
# Compilation ends with a verdict

Whatever the tokens are, the compiler ends with a program or with what is wrong, and never with
both or neither (`compilation_ends`). The loops of the parser end by themselves (`loopsAdvance`),
and what stops a parser goes no further than to the next place where it is recorded
(`NeverStops`): a declaration, a statement of a list, the heading, or the body of the program.
-/

set_option autoImplicit false

namespace TurboBench.Pascal

open Parse

/-! ## Nothing escapes -/

/-- A parser that never stops. -/
def NeverStops {α : Type} (p : Parse α) : Prop :=
  ∀ s, ∃ a t, p s = .ok a t

section NeverStops

variable {α β : Type} {p : Parse α} {f : α → Parse β}

namespace NeverStops

theorem pure (a : α) : NeverStops (Pure.pure a : Parse α) :=
  fun s => ⟨a, s, rfl⟩

/-- Parsers that never stop never do so one behind the other. -/
theorem bind (hp : NeverStops p) (hf : ∀ a, NeverStops (f a)) : NeverStops (p >>= f) := by
  intro s
  obtain ⟨a, t, hps⟩ := hp s
  obtain ⟨b, u, hft⟩ := hf a t
  exact ⟨b, u, (bind_of_ok hps).trans hft⟩

theorem ite {b : Bool} {q : Parse α} (hp : NeverStops p) (hq : NeverStops q) :
    NeverStops (if b then p else q) := by
  cases b with
  | true => exact hp
  | false => exact hq

theorem discard (hp : NeverStops p) : NeverStops (Functor.discard p) := by
  intro s
  obtain ⟨a, t, hps⟩ := hp s
  exact ⟨(), t, discard_of_ok hps⟩

/-- A repetition never stops, if its turns never do. -/
theorem many {turn : Parse (Option α)} (h : NeverStops turn) : NeverStops (Parse.many turn) := by
  have hupTo (n : Nat) : NeverStops (manyUpTo turn n) := by
    induction n with
    | zero => exact pure []
    | succ n ih =>
      refine h.bind fun o => ?_
      cases o with
      | none => exact pure []
      | some a => exact ih.bind fun as => pure (a :: as)
  exact fun s => hupTo s.tokens.length s

/-- A parser that recovers never stops. -/
theorem recovering (p : Parse α) : NeverStops (Parse.recovering p) := by
  intro s
  unfold Parse.recovering
  cases p s with
  | ok a t => exact ⟨_, _, rfl⟩
  | error d t => exact ⟨_, _, rfl⟩

theorem acceptSymbol (m : Symbol) : NeverStops (Parse.acceptSymbol m) :=
  acceptSymbol_ok m

theorem acceptKeyword (w : Keyword) : NeverStops (Parse.acceptKeyword w) :=
  acceptKeyword_ok w

end NeverStops

/-- A list of statements never stops, since every statement in it recovers. -/
theorem neverStops_statementList {statement : Parse Statement} (hstatement : Onward statement) :
    NeverStops (statementList statement) := by
  have hturn : NeverStops (statementTurn statement) := fun s => by
    obtain ⟨r, t, h, -⟩ := getsOn_statementTurn hstatement s
    exact ⟨r, t, h⟩
  have hupTo (n : Nat) : NeverStops (statementsUpTo statement n) := by
    induction n with
    | zero => exact .pure []
    | succ n ih =>
      refine hturn.bind fun r => ?_
      exact .ite (ih.bind fun _ => .pure _) ((NeverStops.pure []).bind fun _ => .pure _)
  exact fun s => hupTo (s.tokens.length + 1) s

/-- A section never stops, since every declaration in it recovers. -/
theorem neverStops_declarations (declaration : Parse Unit) :
    NeverStops (declarations declaration) := by
  rw [declarations_eq]
  have hat : NeverStops atIdentifier := fun s => by
    obtain ⟨b, h, -⟩ := atIdentifier_apply s
    exact ⟨b, s, h⟩
  refine NeverStops.discard (.many (hat.bind fun present => .ite ?_ (.pure _)))
  refine (NeverStops.recovering declaration).bind fun read => .ite ?_ (.pure _)
  exact (NeverStops.acceptSymbol .semicolon).discard.bind fun _ => .pure _

/-- The sections of declarations never stop. -/
theorem neverStops_declarationPart : NeverStops declarationPart := by
  rw [declarationPart_eq]
  refine NeverStops.discard (.many ?_)
  refine (NeverStops.acceptKeyword .const).bind fun present => .ite ?_ ?_
  · exact (neverStops_declarations _).bind fun _ => .pure _
  · refine (NeverStops.acceptKeyword .var_).bind fun present => .ite ?_ (.pure _)
    exact (neverStops_declarations _).bind fun _ => .pure _

end NeverStops

/-! ## The verdict -/

section Parts

variable (depth : Nat)

theorem onward_statement : Onward (statement depth) :=
  Derives.onward fun Γ => derives_statement Γ depth

theorem onward_expression : Onward (expression depth) :=
  Derives.onward fun Γ => derives_expression Γ depth

theorem onward_factor : Onward (factor depth) :=
  Derives.onward fun Γ => (derives_factor_expression Γ depth).1

end Parts

/-- What the parser's loops do, with any number of levels left: no bound ends them. -/
structure LoopsAdvance : Prop where
  /-- A turn of a statement list takes a token or is the last, also where no statement may open any
  more. -/
  statements (depth : Nat) (s : ParserState) : GetsOn (statementTurn (statement depth)) s s
  statementLists (depth : Nat) : statementList (statement depth)
    = listThen (statementTurn (statement depth)) (statementList (statement depth))
  branches (depth : Nat) : Advances (caseBranch? (statement depth))
  constSections : Advances (declarationTurn constantDeclaration)
  varSections : Advances (declarationTurn variableDeclaration)
  sections : Advances sectionTurn
  factors (depth : Nat) : Advances (chainTurn mulOp? (factor depth))
  terms (depth : Nat) : Advances (chainTurn addOp? (term (factor depth)))
  names : Advances (afterSymbol? .comma identifier)
  targets : Advances (afterSymbol? .comma (identifier >>= assignable))
  labels : Advances (afterSymbol? .comma constantValue)
  arguments (depth : Nat) : Advances (afterSymbol? .comma (expression depth))
  writeItems (depth : Nat) : Advances (afterSymbol? .comma (writeItem (expression depth)))
  /-- Without a heading each token is passed over, or the skipping ends in front of it or behind
  it. -/
  heading (t : Token) (ts : List Token) : skipHeading (t :: ts) ∈ [skipHeading ts, t :: ts, ts]

theorem loopsAdvance : LoopsAdvance where
  statements depth s := getsOn_statementTurn (onward_statement depth) s
  statementLists depth := statementList_eq (onward_statement depth)
  branches depth := advances_caseBranch? (onward_statement depth)
  constSections := advances_declarationTurn takesName_constantDeclaration
  varSections := advances_declarationTurn takesName_variableDeclaration
  sections := advances_sectionTurn
  factors depth := advances_operators (onward_factor depth)
  terms depth := advances_operators (Derives.onward fun Γ =>
    derives_term (derives_factor_expression Γ depth).1)
  names := advances_commas (Derives.onward fun _ => derives_identifier)
  targets := advances_commas (Derives.onward fun _ => derives_target)
  labels := advances_commas (Derives.onward fun _ => derives_constantValue)
  arguments depth := advances_commas (onward_expression depth)
  writeItems depth := advances_commas (Derives.onward fun Γ =>
    derives_writeItem (derives_expression Γ depth))
  heading t ts := by
    rw [skipHeading]
    split <;> simp

/-- What compiling the tokens comes to. -/
structure Verdict (source : TokenStream) : Prop where
  loops : LoopsAdvance
  /-- What stops a declaration or a statement of a list is recorded, and goes no further. -/
  declarations : NeverStops declarationPart
  statements (depth : Nat) : NeverStops (statementList (statement depth))
  /-- There is a program and no error, or no program and errors, each with its line. -/
  outcome : let result := CompileResult.of (parseProgram source)
    (∃ p, result.program = some p ∧ result.errors = [])
      ∨ (result.program = none ∧ result.errors ≠ []
        ∧ ∀ e ∈ result.errors, ∃ (n : Nat) (message : String), e = s!"Line {n}: {message}")

/-- **Compilation ends with a verdict.** -/
theorem compilation_ends (source : TokenStream) : Verdict source where
  loops := loopsAdvance
  declarations := neverStops_declarationPart
  statements depth := neverStops_statementList (onward_statement depth)
  outcome := by
    rw [parseProgram_eq]
    split
    · exact .inl ⟨_, rfl, rfl⟩
    · rename_i hrecorded
      refine .inr ⟨rfl, ?_, ?_⟩
      · simpa [CompileResult.of] using hrecorded
      · intro e he
        obtain ⟨d, -, rfl⟩ := List.mem_map.1 he
        exact ⟨d.line, d.problem.message, rfl⟩

end TurboBench.Pascal
