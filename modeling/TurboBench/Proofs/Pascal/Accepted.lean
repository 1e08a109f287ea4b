import TurboBench.Proofs.Pascal.Scope

/-!
# Accepted programs

Every parser of a statement yields a tree whose expressions are known and whose targets are
variables, so a program that is accepted is closed: `closed_of_compile`. The texts among its
literals are texts of string tokens, and none of them is longer than the source
(`length_le_of_spelledIn`).
-/

set_option autoImplicit false

namespace TurboBench.Pascal

open Parse

/-! ## Statements -/

section Statements

variable {D : List Declaration} {C : List (String × Value)} {tokens : List Token}
  {expression : Parse Expr} {statement : Parse Statement} {line : Nat}

/-- A statement with known expressions that assigns to variables. -/
abbrev Statement.Known (D : List Declaration) (C : List (String × Value)) (tokens : List Token)
    (s : Statement) : Prop :=
  s.Uses (Expr.Known D C tokens) (IsVariable D C)

/-- A constant as a target is reported, and so is a name that is not declared. -/
theorem respects_assignable (n : Name) :
    Respects (Knowing D C tokens) (IsVariable D C) (assignable n) := by
  refine Respects.get.bind fun s => ?_
  extract_lets done
  have hreport (problem : Problem) : Respects (Knowing D C tokens)
      (fun target => Knowing D C tokens s ∧ s.diagnostics = [] → IsVariable D C target)
      (do let r ← report n.line problem; done r) := by
    refine (respects_report Knowing.admissible _ _).bind fun _ => .pure ?_
    exact fun hfalse => hfalse.elim
  split
  · exact hreport _
  · rename_i hconstant
    split
    · rename_i hvariable
      refine .pure ?_
      rintro ⟨hs, -⟩
      exact isVariable_of_not_reported hs hvariable (Bool.not_eq_true _ ▸ hconstant)
    · exact hreport _

section Parts

variable (hexpression : Respects (Knowing D C tokens) (Expr.Known D C tokens) expression)
  (hstatement : Respects (Knowing D C tokens) (Statement.Known D C tokens) statement)

include hexpression

/-- An assignment is made of what is known: its variable has just been looked up. -/
theorem respects_assignment (n : Name) :
    Respects (Knowing D C tokens) (Statement.Known D C tokens) (assignment expression n) := by
  refine (respects_acceptSymbol Knowing.admissible .assign).andThen fun assigned => .ite ?_ ?_
  · refine (respects_assignable n).bind fun target => ?_
    refine hexpression.bind fun value => .pure ?_
    exact fun hvalue htarget => Statement.uses_assign.2 ⟨hvalue, htarget⟩
  · exact Respects.get.andThen fun s => .ite (.unexpected _) (.stop _ _)

/-- The items of a write are made of what is known. -/
theorem respects_writeItem :
    Respects (Knowing D C tokens) (WriteItem.Uses (Expr.Known D C tokens))
      (writeItem expression) := by
  have hI : Admissible tokens (Knowing D C tokens) := Knowing.admissible
  refine hexpression.bind fun value => ?_
  refine (respects_acceptSymbol hI .colon).andThen fun wide => .ite ?_ ?_
  · refine hexpression.bind fun width => ?_
    refine (respects_afterSymbol? hI .colon hexpression).bind fun decimals => .pure ?_
    intro hdecimals hwidth hvalue
    refine List.forall_mem_cons.2 ⟨hvalue, List.forall_mem_cons.2 ⟨hwidth, ?_⟩⟩
    intro e he
    exact hdecimals e (Option.mem_toList.1 he)
  · refine .pure ?_
    exact fun hvalue => List.forall_mem_singleton.2 hvalue

theorem respects_write (newline : Bool) :
    Respects (Knowing D C tokens) (Statement.Known D C tokens)
      (do return .write newline (← parenthesized (writeItem expression)) line) := by
  refine (respects_parenthesized Knowing.admissible (respects_writeItem hexpression)).bind ?_
  intro items
  exact .pure Statement.uses_write.2

omit hexpression in
theorem respects_read (newline : Bool) :
    Respects (Knowing D C tokens) (Statement.Known D C tokens)
      (do return .read newline (← parenthesized (identifier >>= assignable)) line) := by
  have hI : Admissible tokens (Knowing D C tokens) := Knowing.admissible
  have htarget := (respects_identifier hI).andThen fun n => respects_assignable n
  refine (respects_parenthesized hI htarget).bind fun targets => ?_
  exact .pure Statement.uses_read.2

omit hexpression in
theorem respects_closing (opening : Keyword) :
    Respects (Knowing D C tokens) (fun _ => True) (closing opening line) := by
  refine (respects_acceptKeyword Knowing.admissible .end_).andThen fun closed => .ite ?_ ?_
  · exact .pure True.intro
  · exact Respects.get.andThen fun s => .stop _ _

include hstatement

omit hexpression in
theorem respects_compound :
    Respects (Knowing D C tokens) (Statement.Known D C tokens) (compound statement line) := by
  refine (respects_statementList Knowing.admissible hstatement).bind fun body => ?_
  refine (respects_closing .begin_).andThen fun _ => .pure ?_
  exact Statement.uses_compound.2

/-- A conditional is made of known phrases if its parts are. -/
theorem respects_ifThen :
    Respects (Knowing D C tokens) (Statement.Known D C tokens)
      (ifThen expression statement line) := by
  have hI : Admissible tokens (Knowing D C tokens) := Knowing.admissible
  refine hexpression.bind fun condition => ?_
  refine (respects_expectKeyword hI .then_).andThen fun _ => ?_
  refine hstatement.bind fun thenBranch => ?_
  refine (respects_afterKeyword? hI .else_ hstatement).bind fun elseBranch => .pure ?_
  intro helse hthen hcondition
  cases elseBranch with
  | none => exact Statement.uses_ifThen.2 ⟨hcondition, hthen⟩
  | some s => exact Statement.uses_ifThenElse.2 ⟨hcondition, hthen, helse s rfl⟩

/-- A loop with its condition in front is made of known phrases if its parts are. -/
theorem respects_whileDo :
    Respects (Knowing D C tokens) (Statement.Known D C tokens)
      (whileDo expression statement line) := by
  refine hexpression.bind fun condition => ?_
  refine (respects_expectKeyword Knowing.admissible .do_).andThen fun _ => ?_
  refine hstatement.bind fun body => .pure ?_
  exact fun hbody hcondition => Statement.uses_whileDo.2 ⟨hcondition, hbody⟩

/-- A loop with its condition behind it is made of known phrases if its parts are. -/
theorem respects_repeatUntil :
    Respects (Knowing D C tokens) (Statement.Known D C tokens)
      (repeatUntil expression statement line) := by
  refine (respects_statementList Knowing.admissible hstatement).bind fun body => ?_
  refine (respects_expectKeyword Knowing.admissible .until_).andThen fun _ => ?_
  refine hexpression.bind fun condition => .pure ?_
  exact fun hcondition hbody => Statement.uses_repeatUntil.2 ⟨hcondition, hbody⟩

omit hexpression hstatement in
/-- A direction names nothing. -/
theorem respects_direction : Respects (Knowing D C tokens) (fun _ => True) direction := by
  refine (respects_acceptKeyword Knowing.admissible .to_).andThen fun up => .ite ?_ ?_
  · exact .pure True.intro
  · refine (respects_acceptKeyword Knowing.admissible .downto).andThen fun down => .ite ?_ ?_
    · exact .pure True.intro
    · exact .unexpected _

/-- A counting loop has a known variable for its counter. -/
theorem respects_forTo :
    Respects (Knowing D C tokens) (Statement.Known D C tokens)
      (forTo expression statement line) := by
  have hI : Admissible tokens (Knowing D C tokens) := Knowing.admissible
  refine (respects_identifier hI).andThen fun name => ?_
  refine (respects_assignable name).bind fun counter => ?_
  refine (respects_expectSymbol hI .assign).andThen fun _ => ?_
  refine hexpression.bind fun first => ?_
  refine respects_direction.andThen fun down => ?_
  refine hexpression.bind fun last => ?_
  refine (respects_expectKeyword hI .do_).andThen fun _ => ?_
  refine hstatement.bind fun body => .pure ?_
  intro hbody hlast hfirst hcounter
  exact Statement.uses_forTo.2 ⟨⟨hfirst, hlast, hcounter⟩, hbody⟩

omit hexpression in
theorem respects_caseBranch? :
    Respects (Knowing D C tokens) (fun o => ∀ b ∈ o, b.2.Known D C tokens)
      (caseBranch? statement) := by
  have hI : Admissible tokens (Knowing D C tokens) := Knowing.admissible
  refine Respects.get.andThen fun s => ?_
  split
  · exact .pure (by simp)
  · exact .pure (by simp)
  · exact .pure (by simp)
  · refine (respects_commaList hI (respects_constantValue hI)).andThen fun labels => ?_
    refine (respects_expectSymbol hI .colon).andThen fun _ => ?_
    refine hstatement.bind fun body => ?_
    refine (respects_acceptSymbol hI .semicolon).andThen fun another => ?_
    extract_lets done
    have hdone : ∀ u, Respects (Knowing D C tokens)
        (fun o => body.Known D C tokens → ∀ b ∈ o, b.2.Known D C tokens) (done u) := by
      intro u
      refine .pure ?_
      intro hbody b hb
      obtain rfl := Option.some.inj hb
      exact hbody
    refine .ite (hdone ()) ?_
    refine (respects_atLexeme _).andThen fun atEnd => ?_
    refine (respects_atLexeme _).andThen fun atElse => .ite (hdone ()) ?_
    exact (Respects.unexpected (G := fun _ => True) _).andThen hdone

/-- A case statement is made of known phrases if its branches are. -/
theorem respects_caseOf :
    Respects (Knowing D C tokens) (Statement.Known D C tokens)
      (caseOf expression statement line) := by
  have hI : Admissible tokens (Knowing D C tokens) := Knowing.admissible
  refine hexpression.bind fun selector => ?_
  refine (respects_expectKeyword hI .of).andThen fun _ => ?_
  refine (respects_many (respects_caseBranch? hstatement)).bind fun branches => ?_
  refine (respects_afterKeyword? hI .else_ (respects_statementList hI hstatement)).bind ?_
  intro otherwise
  refine (respects_closing .case_).andThen fun _ => .pure ?_
  intro hotherwise hbranches hselector
  refine Statement.uses_caseOf.2 ⟨hselector, hbranches, ?_⟩
  cases otherwise with
  | none => simp
  | some ss => exact hotherwise ss rfl

/-- So any statement is made of what is known, given that the phrases inside it are. -/
theorem respects_statementWith :
    Respects (Knowing D C tokens) (Statement.Known D C tokens)
      (statementWith expression statement) := by
  have hI : Admissible tokens (Knowing D C tokens) := Knowing.admissible
  refine Respects.get.andThen fun s => ?_
  -- In front of five tokens the statement is empty; a name begins an assignment, and a keyword the
  -- others.
  split
  · exact .pure Statement.uses_empty
  · exact .pure Statement.uses_empty
  · exact .pure Statement.uses_empty
  · exact .pure Statement.uses_empty
  · exact .pure Statement.uses_empty
  · exact (respects_advance hI).andThen fun _ => respects_assignment hexpression _
  · refine (respects_advance hI).andThen fun _ => ?_
    split
    · exact respects_compound hstatement
    · exact respects_ifThen hexpression hstatement
    · exact respects_whileDo hexpression hstatement
    · exact respects_repeatUntil hexpression hstatement
    · exact respects_forTo hexpression hstatement
    · exact respects_caseOf hexpression hstatement
    · exact respects_write hexpression false
    · exact respects_write hexpression true
    · exact respects_read false
    · exact respects_read true
    · exact .stop _ _
  · exact (respects_advance hI).andThen fun _ => .stop _ _

end Parts

theorem respects_statement (depth : Nat) :
    Respects (Knowing D C tokens) (Statement.Known D C tokens) (Pascal.statement depth) := by
  induction depth with
  | zero => exact respects_tooDeep
  | succ depth ih => exact respects_statementWith (respects_factor_expression depth).2 ih

/-! ## Programs -/

theorem respects_programEnd : Respects (Knowing D C tokens) (fun _ => True) programEnd := by
  have hI : Admissible tokens (Knowing D C tokens) := Knowing.admissible
  refine Respects.get.andThen fun s => ?_
  refine (respects_acceptKeyword hI .end_).andThen fun ended => ?_
  extract_lets done dot
  have hdone : ∀ u, Respects (Knowing D C tokens) (fun _ => True) (done u) := by
    intro u
    exact Respects.get.andThen fun s => .ite (.stop _ _) (.pure True.intro)
  have hdot : ∀ u, Respects (Knowing D C tokens) (fun _ => True) (dot u) := by
    intro u
    refine (respects_acceptSymbol hI .dot).andThen fun dotted => .ite (hdone ()) ?_
    exact (Respects.stop (G := fun _ => True) _ _).andThen hdone
  refine .ite (hdot ()) (.ite ?_ ?_)
  · exact (Respects.stop (G := fun _ => True) _ _).andThen hdot
  · exact (Respects.unexpected (G := fun _ => True) _).andThen hdot

/-- The body of a program is made of what is known. -/
theorem respects_body :
    Respects (Knowing D C tokens) (fun ss => ∀ s ∈ ss, s.Known D C tokens) body := by
  have hI : Admissible tokens (Knowing D C tokens) := Knowing.admissible
  refine (respects_expectKeyword hI .begin_).andThen fun _ => ?_
  refine (respects_statementList hI (respects_statement nestingLimit)).bind fun statements => ?_
  exact respects_programEnd.andThen fun _ => .pure fun h => h

end Statements

/-! ## Accepted programs -/

/-- A program that is closed: what it declares is distinct, what it refers to is declared, and its
literals are spelled by the tokens. -/
structure Program.Closed (p : Program) (tokens : List Token) : Prop where
  distinct : (p.declarations.map (·.name)).Nodup
  nodes : ∀ e ∈ p.nodes, e.IsKnown p.declarations p.constants tokens
  targets : ∀ name ∈ p.targets, IsVariable p.declarations p.constants name

/-- A parser that is run to the end of a phase. -/
theorem Respects.orElseReport {α : Type} {tokens : List Token} {I : ParserState → Prop}
    {G : α → Prop} {p : Parse α} (hI : Admissible tokens I) (hp : Respects I G p) (default : α)
    {s : ParserState} (hs : I s) :
    I (Pascal.orElseReport p default s).2
      ∧ ((Pascal.orElseReport p default s).2.diagnostics = [] →
        s.diagnostics = [] ∧ G (Pascal.orElseReport p default s).1) := by
  have hps := hp s hs
  unfold Pascal.orElseReport
  generalize p s = result at hps
  cases result with
  | ok a t => exact hps
  | error d t =>
    exact ⟨hI.report d hps.1, fun hclean => absurd hclean diagnostics_report_ne_nil⟩

/-- **Accepted programs are closed.** -/
theorem closed_of_compile {source : List Char} {p : Program} (h : compile source = .ok p) :
    p.Closed (tokenize source).tokens := by
  unfold compile parseProgram at h
  generalize tokenize source = stream at h ⊢
  simp only [] at h
  have hstart : Declaring stream.tokens
      ⟨stream.tokens, stream.endLine, illegalTokens stream.tokens, [], []⟩ :=
    ⟨List.Subset.refl _, List.nodup_nil, fun _ _ _ hlookup => nomatch hlookup⟩
  -- the heading, and what is skipped without one
  have hheading : Respects (Declaring stream.tokens) (fun _ => True) (some <$> heading) := by
    rw [map_eq_pure_bind]
    exact respects_heading.andThen fun _ => .pure True.intro
  obtain ⟨hheaded, -⟩ := hheading.orElseReport Declaring.admissible none hstart
  generalize Pascal.orElseReport (some <$> heading) none _ = headed at h hheaded
  obtain ⟨name?, s⟩ := headed
  have hskipped : Declaring stream.tokens
      (if name?.isNone = true then { s with tokens := skipHeading s.tokens } else s) := by
    split
    · exact Declaring.admissible.consume hheaded (skipHeading_suffix s.tokens).subset
    · exact hheaded
  -- the declarations
  obtain ⟨hdeclared, -⟩ :=
    respects_declarationPart.orElseReport Declaring.admissible () hskipped
  generalize Pascal.orElseReport declarationPart () _ = declared at h hdeclared
  obtain ⟨_, s⟩ := declared
  -- the statements
  have hknowing : Knowing s.declarations s.constants stream.tokens s :=
    ⟨hdeclared.source, rfl, rfl, hdeclared.constants⟩
  obtain ⟨hknown, hbody⟩ := respects_body.orElseReport Knowing.admissible [] hknowing
  generalize Pascal.orElseReport body [] s = ended at h hknown hbody
  obtain ⟨statements, t⟩ := ended
  simp only [] at h hknown hbody
  split at h
  · rename_i hclean
    injection h with h
    obtain ⟨-, hstatements⟩ := hbody (List.isEmpty_iff.1 hclean)
    obtain ⟨hexpressions, htargets⟩ := (uses_all_iff statements).2 hstatements
    subst h
    refine ⟨hknown.declarations_eq ▸ hdeclared.distinct, ?_, ?_⟩
    · intro e he
      obtain ⟨outer, houter, hinner⟩ := List.mem_flatMap.1 he
      rw [hknown.declarations_eq, hknown.constants_eq]
      exact hexpressions outer houter e hinner
    · rw [hknown.declarations_eq, hknown.constants_eq]
      exact htargets
  · exact nomatch h

/-! ## Texts -/

/-- A quoted text is no longer than how it is written. -/
theorem length_value_quotedRun (cs : List Char) :
    (quotedRun cs).value.length ≤ (quotedRun cs).text.length := by
  fun_induction quotedRun cs with
  | case1 => exact Nat.le_refl _
  | case2 => exact Nat.le_refl _
  | case3 cs ih =>
    simp only [StringScan.after, List.length_append, List.length_cons, List.length_nil]
    omega
  | case4 cs _ => exact Nat.zero_le _
  | case5 c cs _ _ _ ih =>
    simp only [StringScan.after, List.length_append, List.length_cons, List.length_nil]
    omega

/-- What a string denotes is no longer than the string. -/
theorem length_value_stringPieces (cs : List Char) :
    (stringPieces cs).value.length ≤ (stringPieces cs).text.length := by
  fun_induction stringPieces cs with
  | case1 cs run _ ih =>
    have hrun := length_value_quotedRun cs
    simp only [StringScan.after, List.length_append, List.length_cons, run] at ih ⊢
    omega
  | case2 cs run _ =>
    have hrun := length_value_quotedRun cs
    simp only [StringScan.after, List.length_append, List.length_cons, List.length_nil, run]
    omega
  | case3 cs digits rest c _ ih =>
    simp only [StringScan.after, List.length_append, List.length_cons, List.length_nil]
    omega
  | case4 cs digits rest _ => exact Nat.zero_le _
  | case5 => exact Nat.zero_le _

/-- A string is a segment of its own; no other segment is one. -/
theorem length_le_of_firstSegment {c : Char} {cs : List Char} {t : String}
    (h : (firstSegment c cs).1.lexeme = some (.string t)) :
    t.length ≤ (firstSegment c cs).1.text.length := by
  have hcomment (opening : List Char) (found : Option (List Char × List Char)) :
      (comment opening cs found).1.lexeme ≠ some (.string t) := by
    unfold comment
    split <;> simp
  -- The kinds of segments are excluded in the order in which they are tried.
  unfold firstSegment at h ⊢
  split at h
  · exact nomatch h
  rw [if_neg ‹_›]
  split at h
  · exact absurd h (hcomment _ _)
  rw [if_neg ‹_›]
  split at h
  · exact absurd h (hcomment _ _)
  rw [if_neg ‹_›]
  split at h
  · exact nomatch h
  rw [if_neg ‹_›]
  split at h
  · simp only [wordLexeme] at h
    split at h <;> simp at h
  rw [if_neg ‹_›]
  split at h
  · simp only [numeral] at h
    split at h <;> simp at h
  rw [if_neg ‹_›]
  split at h
  · rename_i hquote
    rw [if_pos hquote]
    have hvalue := length_value_stringPieces (c :: cs)
    cases hending : (stringPieces (c :: cs)).ending with
    | flawed cause => simp [stringLiteral, hending] at h
    | closed =>
      simp only [stringLiteral, hending, Option.some.injEq, Lexeme.string.injEq] at h ⊢
      rw [← h, String.length_ofList]
      exact hvalue
  · have hsymbol :
        ((Symbol.ofChar? c).elim (.flaw (.character c)) .symbol : Lexeme) ≠ .string t := by
      cases Symbol.ofChar? c <;> simp
    unfold symbolLexeme at h
    split at h
    · split at h
      · simp at h
      · exact absurd (Option.some.inj h) hsymbol
    · exact absurd (Option.some.inj h) hsymbol

theorem length_le_of_mem_segments {source : List Char} {segment : Segment}
    (h : segment ∈ segments source) : segment.text.length ≤ source.length := by
  rw [← flatten_segments source, List.length_flatMap]
  exact List.single_le_sum (by simp) _ (List.mem_map_of_mem h)

/-- Every token is the lexeme of a segment. -/
theorem mem_tokensFrom {token : Token} {line : Nat} {segments : List Segment}
    (h : token ∈ tokensFrom line segments) : ∃ s ∈ segments, s.lexeme = some token.lexeme := by
  induction segments generalizing line with
  | nil => exact nomatch h
  | cons s ss ih =>
    unfold tokensFrom at h
    simp only at h
    split at h
    · rename_i l hl
      rcases List.mem_cons.1 h with rfl | h
      · exact ⟨s, List.mem_cons_self, hl⟩
      · obtain ⟨r, hr, hlexeme⟩ := ih h
        exact ⟨r, List.mem_cons_of_mem s hr, hlexeme⟩
    · obtain ⟨r, hr, hlexeme⟩ := ih h
      exact ⟨r, List.mem_cons_of_mem s hr, hlexeme⟩

/-- A text that the tokens of a source spell is no longer than the source. -/
theorem length_le_of_spelledIn {source : List Char} {t : String}
    (h : Value.SpelledIn (tokenize source).tokens (.text t)) : t.length ≤ source.length := by
  obtain ⟨token, htoken, hlexeme⟩ := h
  obtain ⟨segment, hsegment, hstring⟩ := mem_tokensFrom htoken
  rw [hlexeme] at hstring
  refine Nat.le_trans ?_ (length_le_of_mem_segments hsegment)
  clear htoken hlexeme
  fun_induction segments source with
  | case1 => exact absurd hsegment List.not_mem_nil
  | case2 c cs ih =>
    rcases List.mem_cons.1 hsegment with rfl | hlater
    · exact length_le_of_firstSegment hstring
    · exact ih hlater

end TurboBench.Pascal
