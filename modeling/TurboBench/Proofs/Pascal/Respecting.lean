import TurboBench.Pascal.Parser
import TurboBench.Proofs.Decimal.FiniteResults
import TurboBench.Proofs.Pascal.Sequences

/-!
# What a parser leaves when nothing is wrong

The parser goes on after most mistakes, so a tree that it builds means something only if the list
of diagnostics is empty in the end. `Respects I G p` is the postcondition that fits: from a state
with the invariant `I` the parser `p` leads to one, it takes no diagnostic back, and if there is
none behind it then there was none before it and its result satisfies `G`.

The invariant is a parameter, since the declarations change the names that are known and the
statements do not. What is asked of it is `Admissible`: reading on and reporting keep it, no
token comes in that is not one of the source, and the constants are values that the source spells.

The statement is closed under sequences, repetition and recovery, so each parser is settled by what
its parts are known to do.
-/

set_option autoImplicit false

namespace TurboBench.Pascal

open Parse

/-- A value that one of the tokens spells, with or without a sign. -/
def Value.SpelledIn (tokens : List Token) : Value → Prop
  | .integer n => -maxInteger ≤ n ∧ n ≤ maxInteger
  | .real x => x.isFinite = true
  | .boolean _ => True
  | .text t => ∃ token ∈ tokens, token.lexeme = .string t

/-- What is asked of an invariant of the parsers of a source with the given tokens. -/
structure Admissible (tokens : List Token) (I : ParserState → Prop) : Prop where
  consume {s : ParserState} {ts : List Token} (h : I s) (hts : ts ⊆ s.tokens) :
    I { s with tokens := ts }
  report {s : ParserState} (d : Diagnostic) (h : I s) : I (s.report d)
  source {s : ParserState} (h : I s) : s.tokens ⊆ tokens
  constants {s : ParserState} (h : I s) (hclean : s.diagnostics = []) {key : String} {v : Value}
    (hlookup : s.constants.lookup key = some v) : v.SpelledIn tokens

/-- The postcondition of a parser: `G` holds of the result if nothing was wrong. -/
def Respects {α : Type} (I : ParserState → Prop) (G : α → Prop) (p : Parse α) : Prop :=
  ∀ s, I s → match p s with
    | .ok a t => I t ∧ (t.diagnostics = [] → s.diagnostics = [] ∧ G a)
    | .error _ t => I t ∧ (t.diagnostics = [] → s.diagnostics = [])

section Rules

variable {α β : Type} {tokens : List Token} {I : ParserState → Prop} {G : α → Prop} {H : β → Prop}
  {p : Parse α} {f : α → Parse β}

namespace Respects

theorem pure {a : α} (h : G a) : Respects I G (Pure.pure a : Parse α) := by
  intro s hs
  exact ⟨hs, fun hclean => ⟨hclean, h⟩⟩

theorem stop (line : Nat) (problem : Problem) : Respects I G (Parse.stop line problem) := by
  intro s hs
  exact ⟨hs, fun hclean => hclean⟩

theorem unexpected (wanted : Wanted) : Respects I G (Parse.unexpected wanted) := by
  intro s hs
  exact ⟨hs, fun hclean => hclean⟩

/-- What holds apart from the state stays, as long as nothing is wrong. -/
theorem keeping {Q : Prop} (hp : Respects I (fun a => Q → G a) p) :
    Respects (fun s => I s ∧ (s.diagnostics = [] → Q)) G p := by
  intro s hs
  have hps := hp s hs.1
  generalize p s = result at hps
  cases result with
  | error d t => exact ⟨⟨hps.1, fun hclean => hs.2 (hps.2 hclean)⟩, hps.2⟩
  | ok a t =>
    refine ⟨⟨hps.1, fun hclean => hs.2 (hps.2 hclean).1⟩, ?_⟩
    intro hclean
    obtain ⟨hstart, ha⟩ := hps.2 hclean
    exact ⟨hstart, ha (hs.2 hstart)⟩

/-- What is known of the result of `p` is part of the invariant of what comes behind. -/
theorem bindKnowing (hp : Respects I G p)
    (hf : ∀ a, Respects (fun s => I s ∧ (s.diagnostics = [] → G a)) H (f a)) :
    Respects I H (p >>= f) := by
  intro s hs
  have hfirst := hp s hs
  cases hps : p s with
  | error d t =>
    rw [hps] at hfirst
    rw [bind_of_error hps]
    exact hfirst
  | ok a t =>
    rw [hps] at hfirst
    rw [bind_of_ok hps]
    have hsecond := hf a t ⟨hfirst.1, fun hclean => (hfirst.2 hclean).2⟩
    -- What is clean in the end was clean in the middle, so the first part is known by then.
    cases hft : f a t with
    | error d u =>
      rw [hft] at hsecond
      exact ⟨hsecond.1.1, fun hclean => (hfirst.2 (hsecond.2 hclean)).1⟩
    | ok b u =>
      rw [hft] at hsecond
      refine ⟨hsecond.1.1, ?_⟩
      intro hclean
      obtain ⟨hmid, hb⟩ := hsecond.2 hclean
      exact ⟨(hfirst.2 hmid).1, hb⟩

/-- What comes behind `p` may rely on what is known of the result of `p`. -/
theorem bind (hp : Respects I G p) (hf : ∀ a, Respects I (fun b => G a → H b) (f a)) :
    Respects I H (p >>= f) :=
  hp.bindKnowing fun a => (hf a).keeping

/-- A postcondition may be weakened. -/
theorem weaken {K : α → Prop} (hp : Respects I G p) (h : ∀ a, G a → K a) : Respects I K p := by
  intro s hs
  have hps := hp s hs
  generalize p s = result at hps
  cases result with
  | error d t => exact hps
  | ok a t => exact ⟨hps.1, fun hclean => ⟨(hps.2 hclean).1, h a (hps.2 hclean).2⟩⟩

/-- Nothing is needed of the result of `p`. -/
theorem andThen (hp : Respects I G p) (hf : ∀ a, Respects I H (f a)) : Respects I H (p >>= f) :=
  hp.bind fun a => (hf a).weaken fun _ h _ => h

/-- Nothing is asked of a result that is thrown away. -/
theorem discard (hp : Respects I G p) : Respects I (fun _ => True) (Functor.discard p) := by
  intro s hs
  have hps := hp s hs
  simp only [Functor.discard, Functor.mapConst, Function.comp_apply, EStateM.map]
  generalize p s = result at hps
  cases result with
  | error d t => exact hps
  | ok a t => exact ⟨hps.1, fun hclean => ⟨(hps.2 hclean).1, True.intro⟩⟩

/-- The state itself, as far as nothing was wrong before it. -/
theorem get :
    Respects I (fun s => I s ∧ s.diagnostics = []) (MonadState.get : Parse ParserState) := by
  intro s hs
  exact ⟨hs, fun hclean => ⟨hclean, hs, hclean⟩⟩

theorem ite {b : Bool} {q : Parse α} (hp : Respects I G p) (hq : Respects I G q) :
    Respects I G (if b then p else q) := by
  cases b with
  | true => exact hp
  | false => exact hq

end Respects

/-! ## Single tokens -/

section Tokens

variable (hI : Admissible tokens I)

include hI

theorem respects_advance : Respects I (fun _ => True) Parse.advance := by
  intro s hs
  exact ⟨hI.consume hs ((List.tail_sublist s.tokens).subset), fun hclean => ⟨hclean, True.intro⟩⟩

theorem respects_synchronize : Respects I (fun _ => True) synchronize := by
  intro s hs
  exact ⟨hI.consume hs (List.dropWhile_sublist _).subset, fun hclean => ⟨hclean, True.intro⟩⟩

/-- After a report something is wrong for good. -/
theorem respects_report (line : Nat) (problem : Problem) :
    Respects I (fun _ => False) (Parse.report line problem) := by
  intro s hs
  refine ⟨hI.report _ hs, ?_⟩
  intro hclean
  exact absurd hclean diagnostics_report_ne_nil

omit hI in
theorem respects_atLexeme (l : Lexeme) : Respects I (fun _ => True) (atLexeme l) :=
  Respects.get.andThen fun _ => .pure True.intro

theorem respects_accept (l : Lexeme) :
    Respects I (fun _ => True)
      (do if ← atLexeme l then Parse.advance; return true else return false) := by
  refine (respects_atLexeme l).andThen fun present => .ite ?_ (.pure True.intro)
  exact (respects_advance hI).andThen fun _ => .pure True.intro

theorem respects_acceptSymbol (m : Symbol) : Respects I (fun _ => True) (acceptSymbol m) :=
  respects_accept hI (.symbol m)

theorem respects_acceptKeyword (w : Keyword) : Respects I (fun _ => True) (acceptKeyword w) :=
  respects_accept hI (.keyword w)

/-- Expecting a symbol keeps every invariant that taking and reporting keep. -/
theorem respects_expectSymbol (m : Symbol) : Respects I (fun _ => True) (expectSymbol m) := by
  refine (respects_acceptSymbol hI m).andThen ?_
  intro present
  cases present with
  | true => exact .pure True.intro
  | false => exact .unexpected _

/-- Expecting a keyword keeps every invariant that taking and reporting keep. -/
theorem respects_expectKeyword (w : Keyword) : Respects I (fun _ => True) (expectKeyword w) := by
  refine (respects_acceptKeyword hI w).andThen ?_
  intro present
  cases present with
  | true => exact .pure True.intro
  | false => exact .unexpected _

theorem respects_afterSymbol? (m : Symbol) (hp : Respects I G p) :
    Respects I (fun o => ∀ a ∈ o, G a) (afterSymbol? m p) := by
  refine (respects_acceptSymbol hI m).andThen fun present => .ite ?_ (.pure (by simp))
  exact hp.bind fun a => .pure fun ha b hb => Option.some.inj hb ▸ ha

theorem respects_afterKeyword? (w : Keyword) (hp : Respects I G p) :
    Respects I (fun o => ∀ a ∈ o, G a) (afterKeyword? w p) := by
  refine (respects_acceptKeyword hI w).andThen fun present => .ite ?_ (.pure (by simp))
  exact hp.bind fun a => .pure fun ha b hb => Option.some.inj hb ▸ ha

/-- Reading an identifier keeps every invariant that taking and reporting keep. -/
theorem respects_identifier : Respects I (fun _ => True) identifier := by
  refine Respects.get.andThen ?_
  intro s
  split
  · exact (respects_advance hI).andThen fun _ => .pure True.intro
  · exact .unexpected _

/-! ## Repetition and recovery -/

omit hI in
/-- A repetition keeps what its turns keep, and all its items are as those of a turn, by induction
on the bound. -/
theorem respects_manyUpTo {turn : Parse (Option α)} (h : Respects I (fun o => ∀ a ∈ o, G a) turn)
    (n : Nat) : Respects I (fun as => ∀ a ∈ as, G a) (manyUpTo turn n) := by
  induction n with
  | zero => exact .pure (by simp)
  | succ n ih =>
    refine h.bind ?_
    intro o
    cases o with
    | none => exact .pure (by simp)
    | some a =>
      refine ih.bind ?_
      intro as
      refine .pure ?_
      intro has ha
      exact List.forall_mem_cons.2 ⟨ha a rfl, has⟩

omit hI in
theorem respects_many {turn : Parse (Option α)} (h : Respects I (fun o => ∀ a ∈ o, G a) turn) :
    Respects I (fun as => ∀ a ∈ as, G a) (many turn) :=
  Respects.get.andThen fun s => respects_manyUpTo h s.tokens.length

/-- All items of a list are as those that the parser of one item yields. -/
theorem respects_commaList (hp : Respects I G p) :
    Respects I (fun as => ∀ a ∈ as, G a) (commaList p) := by
  refine hp.bind ?_
  intro first
  refine (respects_many (respects_afterSymbol? hI .comma hp)).bind ?_
  intro others
  refine .pure ?_
  intro hothers hfirst
  exact List.forall_mem_cons.2 ⟨hfirst, hothers⟩

/-- The same of a list in parentheses. -/
theorem respects_parenthesized (hp : Respects I G p) :
    Respects I (fun as => ∀ a ∈ as, G a) (parenthesized p) := by
  refine (respects_acceptSymbol hI .openParen).andThen fun opened => .ite ?_ (.pure (by simp))
  refine (respects_acceptSymbol hI .closeParen).andThen fun closed => .ite (.pure (by simp)) ?_
  refine (respects_commaList hI hp).bind ?_
  intro items
  exact (respects_expectSymbol hI .closeParen).andThen fun _ => .pure fun hitems => hitems

/-- A parser that stops leaves a diagnostic, so nothing is to be shown of its result. -/
theorem respects_recovering (hp : Respects I G p) :
    Respects I (fun o => ∀ a ∈ o, G a) (recovering p) := by
  intro s hs
  have hps := hp s hs
  unfold recovering
  cases hpt : p s with
  | ok a t =>
    rw [hpt] at hps
    refine ⟨hps.1, ?_⟩
    intro hclean
    obtain ⟨hstart, ha⟩ := hps.2 hclean
    exact ⟨hstart, fun b hb => Option.some.inj hb ▸ ha⟩
  | error d t =>
    rw [hpt] at hps
    refine ⟨hI.consume (hI.report d hps.1) (List.dropWhile_sublist _).subset, ?_⟩
    intro hclean
    exact absurd hclean diagnostics_report_ne_nil

/-- A turn of a statement list yields statements as the parser of one does. -/
theorem respects_statementTurn {statement : Parse Statement} {P : Statement → Prop}
    (h : Respects I P statement) :
    Respects I (fun r => ∀ s ∈ r.1, P s) (statementTurn statement) := by
  refine (respects_recovering hI h).bind ?_
  intro read
  refine (respects_acceptSymbol hI .semicolon).andThen ?_
  intro another
  refine .ite (.pure fun hread => hread) (Respects.get.andThen ?_)
  intro s
  split
  · exact .pure fun hread => hread
  · exact .pure fun hread => hread
  · exact .pure fun hread => hread
  · -- A missing semicolon is reported, and from there on nothing is to be shown.
    refine (respects_report hI _ _).bind fun _ => ?_
    refine (respects_synchronize hI).andThen fun _ => ?_
    refine (respects_acceptKeyword hI _).discard.andThen fun _ => ?_
    exact .pure fun hfalse => hfalse.elim

/-- All statements of a list are as those that the parser of one yields. -/
theorem respects_statementsUpTo {statement : Parse Statement} {P : Statement → Prop}
    (h : Respects I P statement) (n : Nat) :
    Respects I (fun ss => ∀ s ∈ ss, P s) (statementsUpTo statement n) := by
  induction n with
  | zero => exact .pure (by simp)
  | succ n ih =>
    refine (respects_statementTurn hI h).bind ?_
    rintro ⟨read, another⟩
    have hjoin (others : List Statement) : Respects I
        (fun ss => (∀ s ∈ others, P s) → (∀ s ∈ read, P s) → ∀ s ∈ ss, P s)
        (Pure.pure (read.toList ++ others)) := by
      refine .pure ?_
      intro hothers hread
      refine List.forall_mem_append.2 ⟨?_, hothers⟩
      intro s hs
      exact hread s (Option.mem_toList.1 hs)
    refine .ite (ih.bind hjoin) ?_
    exact Respects.bind (.pure (by simp)) hjoin

theorem respects_statementList {statement : Parse Statement} {P : Statement → Prop}
    (h : Respects I P statement) :
    Respects I (fun ss => ∀ s ∈ ss, P s) (statementList statement) :=
  Respects.get.andThen fun s => respects_statementsUpTo hI h (s.tokens.length + 1)

/-! ## Constants -/

omit hI in
/-- A number out of range is reported, and what is known of one in range holds of the result. -/
theorem respects_inRange {line : Nat} {o : Option α} (h : ∀ a, o = some a → G a) :
    Respects I G (inRange line o) := by
  cases o with
  | some a => exact .pure (h a rfl)
  | none => exact .stop _ _

omit hI in
/-- An integer literal has a value from zero to the greatest integer. -/
theorem integerValue?_le {digits : String} {n : Int} (h : integerValue? digits = some n) :
    0 ≤ n ∧ n ≤ maxInteger := by
  unfold integerValue? at h
  simp only at h
  split at h
  · rename_i hle
    rw [← Option.some.inj h]
    exact ⟨Int.natCast_nonneg _, hle⟩
  · exact absurd h (by simp)

omit hI in
/-- A real literal has a finite value. -/
theorem isFinite_realValue? {numeral : String} {x : Float} (h : realValue? numeral = some x) :
    x.isFinite = true := by
  unfold realValue? at h
  simp only at h
  split at h
  · rename_i hfinite
    rw [← Option.some.inj h]
    exact hfinite
  · exact absurd h (by simp)

include hI

/-- The token to be read next is one of the source. -/
theorem spelledIn_of_next {s : ParserState} {text : String} (hs : I s)
    (hnext : s.next? = some (.string text)) : Value.SpelledIn tokens (.text text) := by
  unfold ParserState.next? at hnext
  obtain ⟨token, hhead, hlexeme⟩ := Option.map_eq_some_iff.1 hnext
  exact ⟨token, hI.source hs (List.mem_of_mem_head? hhead), hlexeme⟩

/-- Reading an integer, with its sign, keeps every admissible invariant. -/
theorem respects_integerConstant : Respects I (fun _ => True) integerConstant := by
  refine Respects.get.andThen ?_
  intro s
  split
  · exact (respects_advance hI).andThen fun _ => respects_inRange fun _ _ => True.intro
  · exact .unexpected _

/-- A constant is a value that the source spells: a numeral in range with its sign, a string, a
truth value, or an earlier constant. -/
theorem respects_constantValue : Respects I (Value.SpelledIn tokens) constantValue := by
  refine (respects_acceptSymbol hI .minus).andThen ?_
  intro negative
  extract_lets unsigned
  -- The part behind the sign is read in one place, with the sign as it was found.
  have hunsigned : ∀ u, Respects I (Value.SpelledIn tokens) (unsigned u) := by
    intro u
    refine Respects.get.bind ?_
    intro s
    split
    · refine (respects_advance hI).andThen fun _ => ?_
      refine (respects_inRange fun n hn => integerValue?_le hn).bind ?_
      intro n
      refine .pure ?_
      rintro ⟨hzero, hle⟩ -
      have hmax : 0 ≤ maxInteger := by decide
      simp only [Value.SpelledIn]
      split <;> omega
    · refine (respects_advance hI).andThen fun _ => ?_
      refine (respects_inRange fun x hx => isFinite_realValue? hx).bind ?_
      intro x
      refine .pure ?_
      rintro hx -
      simp only [Value.SpelledIn]
      split
      · exact Decimal.isFinite_neg hx
      · exact hx
    · refine .ite (.unexpected _) ?_
      split
      · rename_i hnext
        refine (respects_advance hI).andThen fun _ => .pure ?_
        rintro ⟨hs, -⟩
        exact spelledIn_of_next hI hs hnext
      · exact (respects_advance hI).andThen fun _ => .pure fun _ => True.intro
      · exact (respects_advance hI).andThen fun _ => .pure fun _ => True.intro
      · split
        · rename_i hlookup
          refine (respects_advance hI).andThen fun _ => .pure ?_
          rintro ⟨hs, hclean⟩
          exact hI.constants hs hclean hlookup
        · exact .unexpected _
      · exact .unexpected _
  refine .ite (hunsigned ()) ?_
  exact (respects_acceptSymbol hI .plus).discard.andThen hunsigned

/-- Reading the name of a type keeps every admissible invariant. -/
theorem respects_typeName : Respects I (fun _ => True) typeName := by
  refine Respects.get.andThen ?_
  intro s
  split
  · split
    · refine (respects_advance hI).andThen fun _ => ?_
      extract_lets done
      have hdone : ∀ u, Respects I (fun _ => True) (done u) := fun _ => .pure True.intro
      split
      · refine (respects_acceptSymbol hI .openBracket).andThen fun bracket => .ite ?_ (hdone ())
        refine (respects_integerConstant hI).discard.andThen fun _ => ?_
        exact (respects_expectSymbol hI .closeBracket).andThen hdone
      · exact hdone ()
    · exact .unexpected _
  · refine (respects_advance hI).andThen fun _ => ?_
    exact (respects_report hI _ _).andThen fun _ => .pure True.intro
  · exact .unexpected _

end Tokens

end Rules

end TurboBench.Pascal
