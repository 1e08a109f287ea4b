import Mathlib
import TurboBench.Pascal.Session
import TurboBench.Proofs.Pascal.PhraseDerivation
import TurboBench.Proofs.Pascal.Sentences

/-!
# What the compiler accepts

A source that compiles is a sentence of the grammar, and the program is the tree of that sentence
(`accepted_of_compile`).

Declarations are the only parsers that change the scope. `Declares R p` is the statement that fits
them: it relates the scope and the tokens before to the scope and the tokens behind. It is closed
under sequences, repetition and recovery like `Derives`, and a parser that leaves the scope as it
is is settled by what it derives in each scope. What a section of declarations keeps is that no
name is declared twice (`Declared`).
-/

set_option autoImplicit false

namespace TurboBench.Pascal

open Parse

/-! ## Parsers that declare -/

/-- Where a state is. -/
def ParserState.site (s : ParserState) : Site :=
  (s.scope, s.tokens)

/-- What the parser takes leads from one site to another, if nothing is recorded. -/
def Declares {α : Type} (R : Site → α → Site → Prop) (p : Parse α) : Prop :=
  ∀ s, match p s with
    | .ok a t => Further s t ∧ (t.diagnostics = [] → R s.site a t.site)
    | .error _ t => Further s t

section Rules

variable {α β : Type} {R : Site → α → Site → Prop} {Q : Site → β → Site → Prop} {p : Parse α}
  {f : α → Parse β}

/-- A parser that leaves every scope as it is. -/
theorem Derives.declares {G : Scope → List Token → α → List Token → Prop}
    (hp : ∀ Γ, Derives Γ (G Γ) p) :
    Declares (fun a x b => b.1 = a.1 ∧ G a.1 a.2 x b.2) p := by
  intro s
  have hps := hp s.scope s rfl
  generalize p s = result at hps
  cases result with
  | error d t => exact hps.2
  | ok x t => exact ⟨hps.1.2, fun hclean => ⟨hps.1.1, hps.2 hclean⟩⟩

namespace Declares

theorem pure {x : α} (h : ∀ a, R a x a) : Declares R (Pure.pure x : Parse α) :=
  fun s => ⟨.refl s, fun _ => h s.site⟩

/-- What one reader and then another declare is declared by both together. -/
theorem bind (hp : Declares R p)
    (hf : ∀ x, Declares (fun m y b => ∀ a, R a x m → Q a y b) (f x)) : Declares Q (p >>= f) := by
  intro s
  have hfirst := hp s
  cases hps : p s with
  | error d t =>
    rw [hps] at hfirst
    rw [bind_of_error hps]
    exact hfirst
  | ok x t =>
    rw [hps] at hfirst
    rw [bind_of_ok hps]
    obtain ⟨hst, hx⟩ := hfirst
    have hsecond := hf x t
    cases hft : f x t with
    | error d u =>
      rw [hft] at hsecond
      exact hst.trans hsecond
    | ok y u =>
      rw [hft] at hsecond
      obtain ⟨htu, hy⟩ := hsecond
      exact ⟨hst.trans htu, fun hclean => hy hclean s.site (hx (htu.clean hclean))⟩

/-- What a reader declares may be said with less. -/
theorem weaken {S : Site → α → Site → Prop} (hp : Declares R p)
    (h : ∀ a x b, R a x b → S a x b) : Declares S p := by
  intro s
  have hps := hp s
  generalize p s = result at hps
  cases result with
  | error d t => exact hps
  | ok x t => exact ⟨hps.1, fun hclean => h _ _ _ (hps.2 hclean)⟩

theorem ite {b : Bool} {q : Parse α} (hp : b = true → Declares R p)
    (hq : b = false → Declares R q) : Declares R (if b then p else q) := by
  cases b with
  | true => exact hp rfl
  | false => exact hq rfl

theorem discard (hp : Declares R p) :
    Declares (fun a _ b => ∃ x, R a x b) (Functor.discard p) := by
  intro s
  have hps := hp s
  simp only [Functor.discard, Functor.mapConst, Function.comp_apply, EStateM.map]
  generalize p s = result at hps
  cases result with
  | error d t => exact hps
  | ok x t => exact ⟨hps.1, fun hclean => ⟨x, hps.2 hclean⟩⟩

/-- A reader that recovers has declared something only if it was through. -/
theorem recovering (hp : Declares R p) :
    Declares (fun a o b => ∃ x, o = some x ∧ R a x b) (Parse.recovering p) := by
  intro s
  have hps := hp s
  unfold Parse.recovering
  cases hpt : p s with
  | ok x t =>
    rw [hpt] at hps
    exact ⟨hps.1, fun hclean => ⟨x, rfl, hps.2 hclean⟩⟩
  | error d t =>
    rw [hpt] at hps
    have hskip : Further (t.report d) _ := .skip (List.dropWhile_suffix (!stopsSkipping ·.lexeme))
    exact ⟨hps.trans ((Further.report t d).trans hskip),
      fun hclean => absurd hclean diagnostics_report_ne_nil⟩

/-- Turns that each lead on lead on together. -/
theorem many {turn : Parse (Option α)} {S : Site → Site → Prop} (hrefl : ∀ a, S a a)
    (htrans : ∀ a b c, S a b → S b c → S a c) (h : Declares (fun a _ b => S a b) turn) :
    Declares (fun a _ b => S a b) (Parse.many turn) := by
  have hupTo (n : Nat) : Declares (fun a _ b => S a b) (manyUpTo turn n) := by
    induction n with
    | zero => exact .pure hrefl
    | succ n ih =>
      refine h.bind fun o => ?_
      cases o with
      | none => exact .pure fun b a hab => hab
      | some x =>
        refine ih.bind fun xs => .pure ?_
        exact fun c b hbc a hab => htrans a b c hab hbc
  exact fun s => hupTo s.tokens.length s

/-- A part of the program. If nothing is recorded in the end, it did not stop. -/
theorem orElseReport (hp : Declares R p) (default : α) (s : ParserState) :
    Further s (Pascal.orElseReport p default s).2
      ∧ ((Pascal.orElseReport p default s).2.diagnostics = [] →
        R s.site (Pascal.orElseReport p default s).1 (Pascal.orElseReport p default s).2.site) := by
  have hps := hp s
  unfold Pascal.orElseReport
  generalize p s = result at hps
  cases result with
  | ok x t => exact hps
  | error d t =>
    exact ⟨hps.trans (.report t d), fun hclean => absurd hclean diagnostics_report_ne_nil⟩

end Declares

end Rules

/-! ## Names -/

section Names

variable {Γ : Scope}

/-- A name that is declared already is recorded. -/
theorem derives_declareNew (n : Name) :
    Derives Γ (fun ts fresh rest => rest = ts ∧ fresh = true ∧ n.key ∉ Γ.names) (declareNew n) := by
  refine .look fun s hs => .ite ?_ ?_
  · intro _
    refine (Derives.report _ _).bind fun _ => .pure ?_
    exact fun rest ts h => h.elim
  · intro hnew
    refine .pure ?_
    rintro ts -
    refine ⟨rfl, rfl, ?_⟩
    obtain ⟨hvariable, hconstant⟩ := Bool.or_eq_false_iff.1 hnew
    subst hs
    simp only [Scope.names, List.mem_append, List.mem_map, not_or]
    refine ⟨?_, ?_⟩
    · rintro ⟨⟨key, v⟩, hmem, rfl⟩
      have hlookup : s.constants.lookup n.key = none :=
        Option.not_isSome_iff_eq_none.1 (Bool.eq_false_iff.1 hconstant)
      have hne := List.lookup_eq_none_iff.1 hlookup _ hmem
      simp at hne
    · rintro ⟨d, hmem, hname⟩
      exact List.any_eq_false.1 hvariable d hmem (beq_iff_eq.2 hname)

/-- A new constant keeps the names of a scope apart. -/
theorem Scope.names_withConstant_nodup {key : String} {v : Value} (h : Γ.names.Nodup)
    (hnew : key ∉ Γ.names) : (Γ.withConstant key v).names.Nodup := by
  have hmiddle : (Γ.withConstant key v).names
      = Γ.constants.map Prod.fst ++ key :: Γ.declarations.map (·.name) := by
    simp [Scope.names, Scope.withConstant]
  rw [hmiddle, List.nodup_middle]
  exact List.nodup_cons.2 ⟨hnew, h⟩

/-- A new variable keeps the names of a scope apart. -/
theorem Scope.names_withVariable_nodup {n : Name} {type : PascalType} (h : Γ.names.Nodup)
    (hnew : n.key ∉ Γ.names) : (Γ.withVariables [n] type).names.Nodup := by
  have hlast : (Γ.withVariables [n] type).names = Γ.names ++ [n.key] := by
    simp [Scope.names, Scope.withVariables]
  rw [hlast, List.nodup_append]
  refine ⟨h, List.nodup_singleton _, ?_⟩
  rintro a ha b hb rfl
  exact hnew (List.mem_singleton.1 hb ▸ ha)

theorem Scope.withVariables_nil (type : PascalType) : Γ.withVariables [] type = Γ := by
  simp [Scope.withVariables]

theorem Scope.withVariables_cons (n : Name) (ns : List Name) (type : PascalType) :
    (Γ.withVariables [n] type).withVariables ns type = Γ.withVariables (n :: ns) type := by
  simp [Scope.withVariables]

end Names

/-! ## Declarations -/

/-- A constant is put behind those there are, if its name is new. -/
theorem declares_setConstant (key : String) (v : Value) :
    Declares (fun a _ b => key ∉ a.1.names → b = (a.1.withConstant key v, a.2))
      (modify (·.setConstant key v)) := by
  intro s
  show Further s (s.setConstant key v) ∧ (_ → _ → (s.setConstant key v).site = _)
  by_cases hconstant : s.isConstant key = true
  · have hset : s.setConstant key v = { s with constants := _ } := if_pos hconstant
    rw [hset]
    refine ⟨⟨List.suffix_rfl, List.prefix_rfl⟩, fun _ hnew => ?_⟩
    obtain ⟨w, hw⟩ := Option.isSome_iff_exists.1 hconstant
    obtain ⟨before, behind, hcut, -⟩ := List.lookup_eq_some_iff.1 hw
    have hmem : (key, w) ∈ s.constants := by simp [hcut]
    exact absurd (List.mem_append_left _ (List.mem_map_of_mem hmem)) hnew
  · have hset : s.setConstant key v = { s with constants := s.constants ++ [(key, v)] } :=
      if_neg hconstant
    rw [hset]
    exact ⟨⟨List.suffix_rfl, List.prefix_rfl⟩, fun _ _ => rfl⟩

/-- A constant that is read without an error is declared in the grammar. -/
theorem declares_constantDeclaration :
    Declares (fun a _ b => a.1.names.Nodup → ConstantDeclaration a b) constantDeclaration := by
  refine (Derives.declares fun _ => derives_identifier).bind fun name => ?_
  refine (Derives.declares fun _ => derives_expectSymbol .equal).bind fun _ => ?_
  refine (Derives.declares fun _ => derives_constantValue).bind fun v => ?_
  refine (Derives.declares fun _ => derives_expectSymbol .semicolon).bind fun _ => ?_
  refine (Derives.declares fun _ => (derives_declareNew name).discard).bind fun _ => ?_
  refine (declares_setConstant name.key v).weaken ?_
  rintro ⟨Γ, rest⟩ _ b hb ⟨_, _⟩ ⟨rfl, _, rfl, -, hnew⟩ ⟨_, _⟩ ⟨rfl, k, rfl⟩ ⟨_, _⟩ ⟨rfl, hv⟩ ⟨_, _⟩
    ⟨rfl, m, rfl⟩ ⟨_, _⟩ ⟨rfl, ⟨⟩⟩ hnodup
  obtain rfl := hb hnew
  exact .intro hv (Scope.names_withConstant_nodup hnodup hnew)

/-- A variable is declared without an error only if its name is new. -/
theorem declares_declareVariable (type : PascalType) (n : Name) :
    Declares (fun a _ b => n.key ∉ a.1.names ∧ b = (a.1.withVariables [n] type, a.2))
      (declareVariable type n) := by
  refine (Derives.declares fun _ => derives_declareNew n).bind fun fresh => .ite ?_ ?_
  · rintro -
    intro s
    refine ⟨⟨List.suffix_rfl, List.prefix_rfl⟩, ?_⟩
    rintro - ⟨Γ, ts⟩ ⟨rfl, rfl, -, hnew⟩
    exact ⟨hnew, rfl⟩
  · rintro rfl
    refine .pure ?_
    rintro b ⟨Γ, ts⟩ ⟨-, -, hfresh, -⟩
    exact nomatch hfresh

/-- Variables are declared one after the other, each under a name that is new. -/
theorem declares_declareVariables (type : PascalType) (ns : List Name) :
    Declares (fun a _ b => a.1.names.Nodup →
        b = (a.1.withVariables ns type, a.2) ∧ (a.1.withVariables ns type).names.Nodup)
      (ns.forM (declareVariable type)) := by
  induction ns with
  | nil =>
    refine .pure ?_
    rintro ⟨Γ, ts⟩ hnodup
    rw [Scope.withVariables_nil]
    exact ⟨rfl, hnodup⟩
  | cons n ns ih =>
    refine (declares_declareVariable type n).bind fun _ => ih.weaken ?_
    rintro _ _ b hb ⟨Γ, ts⟩ ⟨hnew, rfl⟩ hnodup
    rw [← Scope.withVariables_cons]
    exact hb (Scope.names_withVariable_nodup hnodup hnew)

/-- Variables that are read without an error are declared in the grammar. -/
theorem declares_variableDeclaration :
    Declares (fun a _ b => a.1.names.Nodup → VariableDeclaration a b) variableDeclaration := by
  refine (Derives.declares fun _ => derives_commaList derives_identifier).bind fun names => ?_
  refine (Derives.declares fun _ => derives_expectSymbol .colon).bind fun _ => ?_
  refine (Derives.declares fun _ => derives_typeName).bind fun type => ?_
  refine (Derives.declares fun _ => derives_expectSymbol .semicolon).bind fun _ => ?_
  refine (declares_declareVariables type names).weaken ?_
  rintro ⟨Γ, rest⟩ _ b hb ⟨_, _⟩ ⟨rfl, k, rfl⟩ ⟨_, _⟩ ⟨rfl, htype⟩ ⟨_, _⟩ ⟨rfl, m, rfl⟩ ⟨_, _⟩
    ⟨rfl, hnames⟩ hnodup
  obtain ⟨rfl, hdistinct⟩ := hb hnodup
  exact .intro hnames htype hdistinct

/-! ## Sections -/

/-- Declarations lead from one site to another, and no name is declared twice. -/
def Declared (D : Site → Site → Prop) (a b : Site) : Prop :=
  a.1.names.Nodup → Relation.ReflTransGen D a b ∧ b.1.names.Nodup

section Sections

variable {D : Site → Site → Prop}

theorem Declared.refl (a : Site) : Declared D a a :=
  fun h => ⟨.refl, h⟩

/-- Declarations behind declarations are declarations. -/
theorem Declared.trans (a b c : Site) (h : Declared D a b) (k : Declared D b c) :
    Declared D a c := by
  intro hnodup
  obtain ⟨hab, hb⟩ := h hnodup
  obtain ⟨hbc, hc⟩ := k hb
  exact ⟨hab.trans hbc, hc⟩

/-- A section of declarations declares what each of them does. -/
theorem declares_declarations {declaration : Parse Unit}
    (h : Declares (fun a _ b => a.1.names.Nodup → D a b) declaration)
    (hD : ∀ {a b}, D a b → b.1.names.Nodup) :
    Declares (fun a _ b => Declared D a b) (declarations declaration) := by
  have hat : ∀ Γ, Derives Γ (fun ts _ rest => rest = ts) atIdentifier := by
    intro Γ
    refine .look fun s _ => ?_
    split
    · exact .pure fun ts _ => rfl
    · exact .pure fun ts _ => rfl
  refine Declares.weaken (Declares.discard (Declares.many .refl .trans ?_)) fun _ _ _ ⟨_, h⟩ => h
  refine (Derives.declares hat).bind fun present => .ite ?_ ?_
  · rintro -
    refine h.recovering.bind fun read => .ite ?_ ?_
    · -- a declaration that stops is recorded
      intro hstopped
      have hskip : ∀ Γ, Derives Γ _ (Functor.discard (acceptSymbol .semicolon)) :=
        fun _ => (derives_acceptSymbol .semicolon).discard
      refine (Derives.declares hskip).bind fun _ => .pure ?_
      rintro b a - m ⟨u, rfl, -⟩
      exact nomatch hstopped
    · rintro -
      refine .pure ?_
      rintro b ⟨Γ, ts⟩ ⟨u, -, hstep⟩ ⟨_, _⟩ ⟨rfl, rfl⟩ hnodup
      have hab := hstep hnodup
      exact ⟨.single hab, hD hab⟩
  · rintro -
    refine .pure ?_
    rintro ⟨Γ, ts⟩ ⟨_, _⟩ ⟨rfl, rfl⟩
    exact .refl _

theorem declares_constants :
    Declares (fun a _ b => Declared ConstantDeclaration a b)
      (declarations constantDeclaration) := by
  refine declares_declarations declares_constantDeclaration fun h => ?_
  cases h with
  | intro _ hnew => exact hnew

theorem declares_variables :
    Declares (fun a _ b => Declared VariableDeclaration a b)
      (declarations variableDeclaration) := by
  refine declares_declarations declares_variableDeclaration fun h => ?_
  cases h with
  | intro _ _ hnew => exact hnew

/-- The sections before the body are those of the grammar. -/
theorem declares_declarationPart :
    Declares (fun a _ b => Declared Section a b) declarationPart := by
  refine Declares.weaken (Declares.discard (Declares.many .refl .trans ?_)) fun _ _ _ ⟨_, h⟩ => h
  refine (Derives.declares fun _ => derives_acceptKeyword .const).bind fun present => .ite ?_ ?_
  · rintro rfl
    refine declares_constants.bind fun _ => .pure ?_
    rintro b ⟨Γ, ts⟩ h ⟨_, _⟩ ⟨rfl, n, rfl⟩ hnodup
    obtain ⟨hsteps, hdistinct⟩ := h hnodup
    exact ⟨.single (.const hsteps), hdistinct⟩
  · rintro rfl
    refine (Derives.declares fun _ => derives_acceptKeyword .var_).bind fun present => .ite ?_ ?_
    · rintro rfl
      refine declares_variables.bind fun _ => .pure ?_
      rintro b ⟨Γ, ts⟩ h ⟨_, _⟩ ⟨rfl, n, rfl⟩ ⟨_, _⟩ ⟨rfl, rfl, -⟩ hnodup
      obtain ⟨hsteps, hdistinct⟩ := h hnodup
      exact ⟨.single (.var hsteps), hdistinct⟩
    · rintro rfl
      refine .pure ?_
      rintro ⟨Γ, ts⟩ ⟨_, _⟩ ⟨rfl, rfl, -⟩ ⟨_, _⟩ ⟨rfl, rfl, -⟩
      exact .refl _

end Sections

/-! ## The parts of a program -/

theorem derives_heading {Γ : Scope} :
    Derives Γ (fun ts x rest => ∃ n m k,
        ts = .word .program n :: .name x m :: .mark .semicolon k :: rest) heading := by
  refine .expectKeyword (derives_identifier.bind fun name => .expectSymbol (.pure ?_))
  rintro rest k _ ⟨⟩ n
  exact ⟨n, _, k, rfl⟩

/-- A program ends with its last word and a point. -/
theorem derives_programEnd {Γ : Scope} :
    Derives Γ (fun ts _ _ => ∃ e d, ts = [.word .end_ e, .mark .dot d]) programEnd := by
  refine .look fun s _ => .acceptKeyword ?_ ?_
  · extract_lets done dot
    rw [if_pos rfl]
    refine .acceptSymbol ?_ ?_
    · rw [if_pos rfl]
      refine .look fun t _ => .ite (fun _ => .stop _ _) fun hlast => .pure ?_
      rintro rest hrest d e -
      have hnil : rest = [] := by
        rw [hrest]
        simpa [ParserState.next?] using hlast
      exact ⟨e, d, by rw [hnil]⟩
    · rw [if_neg Bool.false_ne_true]
      exact .stop_bind _ _
  · rw [if_neg Bool.false_ne_true]
    exact .ite (fun _ => .stop_bind _ _) fun _ => .unexpected_bind _

/-- The body of a program is a list of statements between its two words. -/
theorem derives_body {Γ : Scope} :
    Derives Γ (fun ts ss _ => ∃ b us e d, ts = .word .begin_ b :: us
        ∧ StatementsAt Γ nestingLimit us ss [.word .end_ e, .mark .dot d]) body := by
  refine .expectKeyword ?_
  refine (derives_statementList (derives_statement Γ nestingLimit)).bind fun ss => ?_
  refine derives_programEnd.bind fun _ => .pure ?_
  rintro rest _ ⟨e, d, rfl⟩ us hss b
  exact ⟨b, us, e, d, rfl, hss⟩

/-! ## Programs -/

section Programs

variable (source : TokenStream)

/-- The state at the beginning of a source. -/
def ParserState.ofSource : ParserState :=
  ⟨source.tokens, source.endLine, illegalTokens source.tokens, [], []⟩

/-- The name of the program, if it has a heading, and the state in front of the declarations. -/
def afterHeading : Option String × ParserState :=
  let (name?, s) := orElseReport (some <$> heading) none (.ofSource source)
  (name?, if name?.isNone then { s with tokens := skipHeading s.tokens } else s)

/-- The state behind the declarations. -/
def afterDeclarations : ParserState :=
  (orElseReport declarationPart () (afterHeading source).2).2

/-- The statements of the program, and the state in the end. -/
def afterBody : List Statement × ParserState :=
  orElseReport body [] (afterDeclarations source)

/-- The program as its parts are read, if nothing is recorded in the end. -/
theorem parseProgram_eq :
    parseProgram source =
      if (afterBody source).2.diagnostics.isEmpty then
        .ok ⟨(afterHeading source).1.getD "", (afterBody source).2.declarations,
          (afterBody source).2.constants, (afterBody source).1⟩
      else .error (afterBody source).2.diagnostics := by
  unfold parseProgram afterBody afterDeclarations afterHeading ParserState.ofSource
  simp only

/-- A heading that is missing or wrong is recorded. -/
theorem afterHeading_of_clean :
    Further (.ofSource source) (afterHeading source).2
      ∧ ((afterHeading source).2.diagnostics = [] → ∃ x n m k,
        (afterHeading source).1 = some x
          ∧ (afterHeading source).2.scope = .empty source.endLine
          ∧ source.tokens = .word .program n :: .name x m :: .mark .semicolon k
            :: (afterHeading source).2.tokens) := by
  have hname : ∀ Γ, Derives Γ (fun ts o rest => ∃ x n m k, o = some x ∧
      ts = .word .program n :: .name x m :: .mark .semicolon k :: rest) (some <$> heading) := by
    intro Γ
    rw [map_eq_pure_bind]
    refine derives_heading.bind fun x => .pure ?_
    rintro rest ts ⟨n, m, k, rfl⟩
    exact ⟨x, n, m, k, rfl, rfl⟩
  obtain ⟨hfurther, hheaded⟩ := (Derives.declares hname).orElseReport none (.ofSource source)
  unfold afterHeading
  generalize orElseReport (some <$> heading) none (.ofSource source) = headed at *
  obtain ⟨name?, s⟩ := headed
  simp only at hfurther hheaded ⊢
  cases name? with
  | none =>
    refine ⟨hfurther.trans (.skip (skipHeading_suffix _)), fun hclean => ?_⟩
    obtain ⟨-, x, n, m, k, hx, -⟩ := hheaded hclean
    exact nomatch hx
  | some x =>
    refine ⟨hfurther, fun hclean => ?_⟩
    obtain ⟨hscope, y, n, m, k, hy, htokens⟩ := hheaded hclean
    exact ⟨y, n, m, k, hy, hscope, htokens⟩

theorem afterDeclarations_of_clean :
    Further (afterHeading source).2 (afterDeclarations source)
      ∧ ((afterDeclarations source).diagnostics = [] →
        Declared Section (afterHeading source).2.site (afterDeclarations source).site) :=
  declares_declarationPart.orElseReport () _

theorem afterBody_of_clean :
    Further (afterDeclarations source) (afterBody source).2
      ∧ ((afterBody source).2.diagnostics = [] →
        (afterBody source).2.scope = (afterDeclarations source).scope ∧ ∃ b us e d,
          (afterDeclarations source).tokens = .word .begin_ b :: us
          ∧ StatementsAt (afterDeclarations source).scope nestingLimit us (afterBody source).1
            [.word .end_ e, .mark .dot d]) :=
  (Derives.declares fun _ => derives_body).orElseReport [] _

end Programs

/-- What is known of the program that a source compiles to. -/
structure Program.Accepted (source : TokenStream) (p : Program) : Prop where
  /-- The source is a sentence, and the program is its tree. -/
  sentence : Sentence source p
  /-- No token is a flaw, and numbers are in range. -/
  legal : ∀ t ∈ source.tokens, t.IsLegal
  /-- No name is declared twice, as a constant or as a variable. -/
  distinct : (p.constants.map Prod.fst ++ p.variables).Nodup
  /-- Every `else` belongs to the nearest `if`. -/
  nearest : ElseNearestAll p.body

/-- **The compiler accepts nothing but its grammar.** -/
theorem accepted_of_compile {source : List Char} {p : Program} (h : compile source = .ok p) :
    p.Accepted (tokenize source) := by
  unfold compile at h
  generalize tokenize source = stream at h ⊢
  rw [parseProgram_eq] at h
  split at h
  case isFalse => exact nomatch h
  rename_i hempty
  obtain rfl := Except.ok.inj h
  obtain ⟨-, hheaded⟩ := afterHeading_of_clean stream
  obtain ⟨hfromHeading, hdeclared⟩ := afterDeclarations_of_clean stream
  obtain ⟨hfromDeclarations, hended⟩ := afterBody_of_clean stream
  -- nothing is recorded in the end, so nothing was at any time
  have hclean := List.isEmpty_iff.1 hempty
  have hclean' := hfromDeclarations.clean hclean
  obtain ⟨x, n, m, k, hname, hscope, htokens⟩ := hheaded (hfromHeading.clean hclean')
  obtain ⟨hsame, b, us, e, d, hbegin, hstatements⟩ := hended hclean
  have hstart : (afterHeading stream).2.site.1.names.Nodup := by
    show (afterHeading stream).2.scope.names.Nodup
    rw [hscope]
    exact List.nodup_nil
  obtain ⟨hsections, hdistinct⟩ := hdeclared hclean' hstart
  have hsite : (afterHeading stream).2.site
      = (.empty stream.endLine, (afterHeading stream).2.tokens) := Prod.ext hscope rfl
  have hsite' : (afterDeclarations stream).site
      = ((afterDeclarations stream).scope, .word .begin_ b :: us) := Prod.ext rfl hbegin
  rw [hsite, hsite'] at hsections
  have hsentence : Sentence stream ⟨x, (afterBody stream).2.scope.declarations,
      (afterBody stream).2.scope.constants, (afterBody stream).1⟩ := by
    rw [hsame]
    exact .program htokens hsections hstatements
  rw [hname]
  refine ⟨hsentence, hsentence.legal, ?_, hsentence.elseNearest⟩
  show (afterBody stream).2.scope.names.Nodup
  rw [hsame]
  exact hdistinct

/-- A conditional in the branch of another. -/
def paritySource : List Char :=
  ("program parity; const two = 2; var n: integer;\nbegin\n"
    ++ "  if n > two then if odd(n) then n := -n * two else n := 0\nend.").toList

/-- The program of `paritySource`, in which the `else` belongs to the inner conditional. -/
def parity : Program where
  name := "parity"
  declarations := [⟨"n", .integer, 1⟩]
  constants := [("two", .integer 2)]
  body := [.ifThen (.binary .greater (.variable "n" 3) (.literal (.integer 2) 3) 3)
    (.ifThen (.call .odd (.variable "n" 3) 3)
      (.assign "n"
        (.unary .negate (.binary .multiply (.variable "n" 3) (.literal (.integer 2) 3) 3) 3) 3)
      (some (.assign "n" (.literal (.integer 0) 3) 3)) 3)
    none 3]

theorem compile_parity : compile paritySource = .ok parity := by
  cbv

theorem accepted_parity :
    compile paritySource = .ok parity ∧ parity.Accepted (tokenize paritySource) :=
  ⟨compile_parity, accepted_of_compile compile_parity⟩

end TurboBench.Pascal
