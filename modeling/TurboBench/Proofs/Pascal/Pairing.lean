import TurboBench.Proofs.Pascal.Verdict

/-!
# Two runs of the parser, side by side

What one source makes of the parser can be compared with what another makes of it, token by token,
as long as the parser looks at the two in the same way. It looks at the next lexeme, at its line and
at the names that are declared. Of an identifier it uses the folded name, of a real numeral the
value, and the spelling of either only for its messages.

A `Pairing` says which states and which diagnostics are compared, and `Lawful` what that takes: the
parser sees the same in two states that belong together, and they still belong together when a token
is read over, something is reported, or tokens are skipped. Two provisos are left to the pairing.
It may give up states in which the first run has gone too far (`lost`), for good; and it may have a
fence, that is a semicolon which must not be read over.

Two parsers are paired (`Pairs`) if from such states they lead to such states, with results that
correspond. This is closed under sequences, and that the first run never goes back is part of it,
so that what is lost stays lost; as a run that is lost goes on without the other, it is asked of
each state and itself too (`Near`). This file has the rules, the single tokens, the loops, and the
constants; the phrases of the language are in `PairedPhrases`.
-/

set_option autoImplicit false

namespace TurboBench.Pascal

open Parse

/-- Lexemes that differ at most in how a name or a real numeral is spelled. -/
inductive Lexeme.Alike (name numeral : String → String → Prop) : Lexeme → Lexeme → Prop where
  | refl (l : Lexeme) : Alike name numeral l l
  | identifier {x y : String} (h : name x y) :
      Alike name numeral (.identifier x) (.identifier y)
  | real {x y : String} (h : numeral x y) : Alike name numeral (.real x) (.real y)

/-- What is compared: names, real numerals, diagnostics, and states. The states of the first run
that are lost are not compared any more, and a lexeme that is a fence is not read over. -/
structure Pairing where
  name : String → String → Prop
  numeral : String → String → Prop
  diagnostics : Diagnostic → Diagnostic → Prop
  states : ParserState → ParserState → Prop
  lost : ParserState → Prop
  fence : Lexeme → Prop

/-- The state that a run ends in, whether it stops or not. -/
def endState {α : Type} : EStateM.Result Diagnostic ParserState α → ParserState
  | .ok _ s => s
  | .error _ s => s

namespace Pairing

/-- The parser makes no difference between states that belong together. -/
structure Lawful (L : Pairing) : Prop where
  refl_name (x : String) : L.name x x
  foldName {x y : String} (h : L.name x y) : foldName x = foldName y
  realValue {x y : String} (h : L.numeral x y) : realValue? x = realValue? y
  charge (line : Nat) (problem : String → Problem) {x y : String}
    (h : L.name x y ∨ L.numeral x y) : L.diagnostics ⟨line, problem x⟩ ⟨line, problem y⟩
  next {s t : ParserState} (h : L.states s t) :
    Option.Rel (Lexeme.Alike L.name L.numeral) s.next? t.next?
  line {s t : ParserState} (h : L.states s t) : s.line = t.line
  declarations {s t : ParserState} (h : L.states s t) : s.declarations = t.declarations
  constants {s t : ParserState} (h : L.states s t) : s.constants = t.constants
  advance {s t : ParserState} {l : Lexeme} (h : L.states s t) (hs : s.next? = some l)
    (hl : ¬ L.fence l) : L.lost s.advance ∨ L.states s.advance t.advance
  report {s t : ParserState} {d e : Diagnostic} (h : L.states s t) (hd : L.diagnostics d e) :
    L.states (s.report d) (t.report e)
  skip {s t : ParserState} (h : L.states s t) : L.lost s.skipped ∨ L.states s.skipped t.skipped
  lost {s t : ParserState} (hs : L.lost s) (h : Further s t) : L.lost t
  fence {l : Lexeme} (h : L.fence l) : l = .symbol .semicolon

/-- Ends of two runs that correspond. -/
inductive Meets (L : Pairing) {α : Type} (V : α → α → Prop) :
    EStateM.Result Diagnostic ParserState α → EStateM.Result Diagnostic ParserState α → Prop where
  | ok {a b : α} {s t : ParserState} (ha : V a b) (hs : L.states s t) :
      Meets L V (.ok a s) (.ok b t)
  | error {d e : Diagnostic} {s t : ParserState} (hd : L.diagnostics d e) (hs : L.states s t) :
      Meets L V (.error d s) (.error e t)
  | lost {r q : EStateM.Result Diagnostic ParserState α} (h : L.lost (endState r)) : Meets L V r q

/-- States that belong together, or the same state twice. -/
def Near (L : Pairing) (s t : ParserState) : Prop :=
  s = t ∨ L.states s t

/-- The first parser does not go back from its state, and if the states belong together, then the
parsers lead to ends that correspond. -/
structure PairsAt (L : Pairing) {α : Type} (V : α → α → Prop) (p q : Parse α)
    (s t : ParserState) : Prop where
  onward : Further s (endState (p s))
  meets : L.states s t → L.Meets V (p s) (q t)

/-- From all states that belong together the parsers lead to ends that correspond, and the first
never goes back. -/
def Pairs (L : Pairing) {α : Type} (V : α → α → Prop) (p q : Parse α) : Prop :=
  ∀ s t, L.Near s t → L.PairsAt V p q s t

variable {L : Pairing} {α β : Type} {V : α → α → Prop} {W : β → β → Prop} {p q : Parse α}
  {f g : α → Parse β} {s t : ParserState}

/-! ## What the parser sees -/

namespace Lawful

/-- The next tokens of states that are near to each other are alike. -/
theorem near_next (hL : L.Lawful) (h : L.Near s t) :
    Option.Rel (Lexeme.Alike L.name L.numeral) s.next? t.next? := by
  rcases h with rfl | h
  · cases s.next? with
    | none => exact .none
    | some l => exact .some (.refl l)
  · exact hL.next h

/-- States that are near to each other are on the same line. -/
theorem near_line (hL : L.Lawful) (h : L.Near s t) : s.line = t.line := by
  rcases h with rfl | h
  · rfl
  · exact hL.line h

/-- The same variables are declared in states that are near to each other. -/
theorem near_declarations (hL : L.Lawful) (h : L.Near s t) :
    s.declarations = t.declarations := by
  rcases h with rfl | h
  · rfl
  · exact hL.declarations h

/-- The same constants are declared in states that are near to each other. -/
theorem near_constants (hL : L.Lawful) (h : L.Near s t) : s.constants = t.constants := by
  rcases h with rfl | h
  · rfl
  · exact hL.constants h

end Lawful

/-! ## The rules -/

theorem PairsAt.pure {a b : α} (ha : V a b) :
    L.PairsAt V (Pure.pure a) (Pure.pure b) s t :=
  ⟨.refl s, .ok ha⟩

theorem Pairs.pure {a b : α} (ha : V a b) :
    L.Pairs V (Pure.pure a : Parse α) (Pure.pure b) :=
  fun _ _ _ => PairsAt.pure ha

theorem PairsAt.stop {m n : Nat} {x y : Problem} (hd : L.diagnostics ⟨m, x⟩ ⟨n, y⟩) :
    L.PairsAt V (Parse.stop m x) (Parse.stop n y) s t :=
  ⟨.refl s, .error hd⟩

/-- A parser leads somewhere if the state that it ends in is further on. -/
theorem leads_iff {s r : ParserState} : Leads p s r ↔ Further r (endState (p s)) := by
  unfold Leads
  cases p s with
  | ok a t => exact Iff.rfl
  | error d t => exact Iff.rfl

/-- A choice by a value that both runs share makes no difference, if its two sides make none. -/
theorem Pairs.ite {b : Bool} {p' q' : Parse α} (hp : L.Pairs V p q) (hp' : L.Pairs V p' q') :
    L.Pairs V (if b then p else p') (if b then q else q') := by
  by_cases hb : b = true
  · rw [if_pos hb, if_pos hb]
    exact hp
  · rw [if_neg hb, if_neg hb]
    exact hp'

/-- A look at the state. -/
theorem PairsAt.look {f g : ParserState → Parse β} (h : L.PairsAt W (f s) (g t) s t) :
    L.PairsAt W (MonadState.get >>= f) (MonadState.get >>= g) s t :=
  ⟨h.onward, h.meets⟩

theorem Pairs.look {f g : ParserState → Parse β}
    (h : ∀ s t, L.Near s t → L.PairsAt W (f s) (g t) s t) :
    L.Pairs W (MonadState.get >>= f) (MonadState.get >>= g) :=
  fun s t hst => (h s t hst).look

/-- What is paired never goes back. -/
theorem Pairs.onward (hp : L.Pairs V p q) : Onward p :=
  fun s => leads_iff.2 (hp s s (.inl rfl)).onward

/-- Results that correspond in one way may be asked to correspond in a weaker one. -/
theorem Pairs.weaken {V' : α → α → Prop} (h : L.Pairs V p q) (hV : ∀ a b, V a b → V' a b) :
    L.Pairs V' p q := by
  intro s t hst
  obtain ⟨honward, hmeets⟩ := h s t hst
  refine ⟨honward, fun hstates => ?_⟩
  have hends := hmeets hstates
  generalize p s = r at hends ⊢
  generalize q t = r' at hends ⊢
  cases hends with
  | ok hab hs => exact .ok (hV _ _ hab) hs
  | error hd hs => exact .error hd hs
  | lost hlost => exact .lost hlost

/-- Lists of equal items are equal. -/
theorem Pairs.eq_list {p q : Parse (List α)} (h : L.Pairs (List.Forall₂ Eq) p q) :
    L.Pairs Eq p q :=
  h.weaken fun _ _ hab => List.forall₂_eq_eq_eq ▸ hab

/-- Options of equal values are equal. -/
theorem Pairs.eq_option {p q : Parse (Option α)} (h : L.Pairs (Option.Rel Eq) p q) :
    L.Pairs Eq p q := by
  refine h.weaken fun a b hab => ?_
  cases hab with
  | none => rfl
  | some heq => rw [heq]

theorem refl_forall₂ (hV : ∀ a, V a a) (as : List α) : List.Forall₂ V as as :=
  List.forall₂_same.2 fun a _ => hV a

theorem refl_option (hV : ∀ a, V a a) (o : Option α) : Option.Rel V o o := by
  cases o with
  | none => exact .none
  | some a => exact .some (hV a)

theorem further_advance (s : ParserState) : Further s s.advance :=
  .skip (List.tail_suffix s.tokens)

section Sequences

variable (hL : L.Lawful)

include hL

/-- What comes behind the first parts is compared from the states that they lead to. -/
theorem PairsAt.bind (hp : L.PairsAt V p q s t) (hV : ∀ a, V a a)
    (hf : ∀ a b s' t', p s = .ok a s' → V a b → L.Near s' t' →
      L.PairsAt W (f a) (g b) s' t') :
    L.PairsAt W (p >>= f) (q >>= g) s t := by
  obtain ⟨honward, hmeets⟩ := hp
  cases hps : p s with
  | error d s' =>
    rw [hps] at honward hmeets
    have hleft : (p >>= f) s = .error d s' := bind_of_error hps
    refine ⟨hleft ▸ honward, fun hst => ?_⟩
    have hends := hmeets hst
    generalize hqt : q t = result at hends
    rw [hleft]
    cases hends with
    | error hd hs =>
      rw [bind_of_error hqt]
      exact .error hd hs
    | lost h => exact .lost h
  | ok a s' =>
    rw [hps] at honward hmeets
    have hleft : (p >>= f) s = f a s' := bind_of_ok hps
    -- Lost or not, the second part does not go back either.
    have hself := (hf a a s' s' hps (hV a) (.inl rfl)).onward
    refine ⟨hleft ▸ honward.trans hself, fun hst => ?_⟩
    have hends := hmeets hst
    generalize hqt : q t = result at hends
    rw [hleft]
    cases hends with
    | ok hab hs =>
      rw [bind_of_ok hqt]
      exact (hf a _ s' _ hps hab (.inr hs)).meets hs
    | lost h => exact .lost (hL.lost h hself)

theorem PairsAt.andThen {p q : Parse α} {f g : α → Parse β} (hp : L.PairsAt Eq p q s t)
    (hf : ∀ a, L.Pairs W (f a) (g a)) : L.PairsAt W (p >>= f) (q >>= g) s t := by
  refine hp.bind hL (fun _ => rfl) ?_
  rintro a b s' t' - rfl hst
  exact hf a s' t' hst

/-- One parser behind another: the results of the first correspond, and so do the ends of the
second. Where the states are the same, so are the results. -/
theorem Pairs.bind (hp : L.Pairs V p q) (hV : ∀ a, V a a)
    (hf : ∀ a b, V a b → L.Pairs W (f a) (g b)) : L.Pairs W (p >>= f) (q >>= g) := by
  intro s t h
  refine (hp s t h).bind hL hV ?_
  intro a b s' t' _ hab hst
  exact hf a b hab s' t' hst

theorem Pairs.andThen {p q : Parse α} {f g : α → Parse β} (hp : L.Pairs Eq p q)
    (hf : ∀ a, L.Pairs W (f a) (g a)) : L.Pairs W (p >>= f) (q >>= g) :=
  fun s t h => (hp s t h).andThen hL hf

theorem Pairs.discard (hp : L.Pairs V p q) (hV : ∀ a, V a a) :
    L.Pairs Eq (Functor.discard p) (Functor.discard q) :=
  hp.bind hL hV fun _ _ _ => .pure rfl

/-! ## What is reported -/

theorem charge_refl (d : Diagnostic) : L.diagnostics d d :=
  hL.charge d.line (fun _ => d.problem) (.inl (hL.refl_name ""))

theorem pairs_stop (line : Nat) (problem : Problem) :
    L.Pairs V (Parse.stop line problem : Parse α) (Parse.stop line problem) :=
  fun _ _ _ => PairsAt.stop (charge_refl hL _)

/-- What is found is the same, or two spellings. -/
theorem charge_found (h : L.Near s t) (line : Nat) (problem : Found → Problem) :
    L.diagnostics ⟨line, problem s.found⟩ ⟨line, problem t.found⟩ := by
  have hnext := hL.near_next h
  unfold ParserState.found
  generalize s.next? = a at hnext ⊢
  generalize t.next? = b at hnext ⊢
  cases hnext with
  | none => exact charge_refl hL _
  | some halike =>
    cases halike with
    | refl l => exact charge_refl hL _
    | identifier hxy => exact hL.charge line (fun x => problem (.text x)) (.inl hxy)
    | real hxy => exact hL.charge line (fun x => problem (.text x)) (.inr hxy)

/-- An unexpected token is reported with what was wanted, on the same line. -/
theorem pairs_unexpected (wanted : Wanted) :
    L.Pairs V (Parse.unexpected wanted : Parse α) (Parse.unexpected wanted) := by
  refine .look fun s t h => PairsAt.stop ?_
  rw [hL.near_line h]
  exact charge_found hL h _ _

theorem pairs_report {line : Nat} {x y : Problem} (hd : L.diagnostics ⟨line, x⟩ ⟨line, y⟩) :
    L.Pairs Eq (Parse.report line x) (Parse.report line y) :=
  fun s _ _ => ⟨.report s _, fun hst => .ok rfl (hL.report hst hd)⟩

/-! ## Single tokens -/

theorem unfenced {l : Lexeme} (hl : l ≠ .symbol .semicolon) : ¬ L.fence l :=
  fun hfence => hl (hL.fence hfence)

/-- A token that is no fence is read over. -/
theorem pairsAt_advance {l : Lexeme} (hs : s.next? = some l) (hl : ¬ L.fence l) :
    L.PairsAt Eq Parse.advance Parse.advance s t := by
  refine ⟨further_advance s, fun h => ?_⟩
  rcases hL.advance h hs hl with hlost | hst
  · exact .lost hlost
  · exact .ok rfl hst

/-- What the parsers see next: the same, or names or real numerals of two spellings. -/
theorem next_cases (h : L.Near s t) : s.next? = t.next?
    ∨ (∃ x y, s.next? = some (.identifier x) ∧ t.next? = some (.identifier y) ∧ L.name x y)
    ∨ ∃ x y, s.next? = some (.real x) ∧ t.next? = some (.real y) ∧ L.numeral x y := by
  have hnext := hL.near_next h
  generalize s.next? = a at hnext ⊢
  generalize t.next? = b at hnext ⊢
  cases hnext with
  | none => exact .inl rfl
  | some halike =>
    cases halike with
    | refl l => exact .inl rfl
    | identifier hxy => exact .inr (.inl ⟨_, _, rfl, rfl, hxy⟩)
    | real hxy => exact .inr (.inr ⟨_, _, rfl, rfl, hxy⟩)

/-- A lexeme without a spelling of its own is next in both states or in neither. -/
theorem next_iff (h : L.Near s t) {l : Lexeme} (hname : ∀ x, l ≠ .identifier x)
    (hreal : ∀ x, l ≠ .real x) : s.next? = some l ↔ t.next? = some l := by
  rcases next_cases hL h with hsame | ⟨x, y, hs, ht, -⟩ | ⟨x, y, hs, ht, -⟩
  · rw [hsame]
  · rw [hs, ht]
    constructor
    · exact fun he => absurd (Option.some.inj he).symm (hname x)
    · exact fun he => absurd (Option.some.inj he).symm (hname y)
  · rw [hs, ht]
    constructor
    · exact fun he => absurd (Option.some.inj he).symm (hreal x)
    · exact fun he => absurd (Option.some.inj he).symm (hreal y)

/-- A lexeme that is neither a name, a real nor a fence is accepted in both runs or in neither. -/
theorem pairs_accept {l : Lexeme} {accept : Parse Bool} (hname : ∀ x, l ≠ .identifier x)
    (hreal : ∀ x, l ≠ .real x) (hl : ¬ L.fence l)
    (haccept : ∀ s, accept s = if s.next? = some l then .ok true s.advance else .ok false s) :
    L.Pairs Eq accept accept := by
  intro s t h
  by_cases hs : s.next? = some l
  · have ht := (next_iff hL h hname hreal).1 hs
    refine ⟨?_, fun hst => ?_⟩
    · rw [haccept, if_pos hs]
      exact further_advance s
    · rw [haccept, haccept, if_pos hs, if_pos ht]
      rcases hL.advance hst hs hl with hlost | hst
      · exact .lost hlost
      · exact .ok rfl hst
  · have ht := mt (next_iff hL h hname hreal).2 hs
    refine ⟨?_, fun hst => ?_⟩
    · rw [haccept, if_neg hs]
      exact .refl s
    · rw [haccept, haccept, if_neg hs, if_neg ht]
      exact .ok rfl hst

theorem pairs_acceptSymbol (m : Symbol) (hm : ¬ L.fence (.symbol m)) :
    L.Pairs Eq (acceptSymbol m) (acceptSymbol m) :=
  pairs_accept hL (by simp) (by simp) hm (acceptSymbol_apply m)

theorem pairs_acceptKeyword (w : Keyword) : L.Pairs Eq (acceptKeyword w) (acceptKeyword w) :=
  pairs_accept hL (by simp) (by simp) (unfenced hL (by simp)) (acceptKeyword_apply w)

/-- A keyword is next in both runs or in neither. -/
theorem pairs_atKeyword (w : Keyword) : L.Pairs Eq (atKeyword w) (atKeyword w) := by
  refine .look fun s t h => PairsAt.pure ?_
  have hiff := next_iff hL h (l := .keyword w) (by simp) (by simp)
  rw [Bool.eq_iff_iff, beq_iff_eq, beq_iff_eq]
  exact hiff

theorem pairs_expectSymbol (m : Symbol) (hm : ¬ L.fence (.symbol m)) :
    L.Pairs Eq (expectSymbol m) (expectSymbol m) :=
  (pairs_acceptSymbol hL m hm).andThen hL fun _ => .ite (.pure rfl) (pairs_unexpected hL _)

theorem pairs_expectKeyword (w : Keyword) : L.Pairs Eq (expectKeyword w) (expectKeyword w) :=
  (pairs_acceptKeyword hL w).andThen hL fun _ => .ite (.pure rfl) (pairs_unexpected hL _)

theorem pairs_afterKeyword? (w : Keyword) {p : Parse α} (hp : L.Pairs Eq p p) :
    L.Pairs Eq (afterKeyword? w p) (afterKeyword? w p) :=
  (pairs_acceptKeyword hL w).andThen hL fun _ =>
    .ite (hp.andThen hL fun _ => .pure rfl) (.pure rfl)

/-- What stands behind an optional symbol is read in both runs or in neither. -/
theorem pairs_afterSymbol? (m : Symbol) (hm : ¬ L.fence (.symbol m)) (hp : L.Pairs V p p)
    (hV : ∀ a, V a a) :
    L.Pairs (Option.Rel V) (afterSymbol? m p) (afterSymbol? m p) :=
  (pairs_acceptSymbol hL m hm).andThen hL fun _ =>
    .ite (hp.bind hL hV fun _ _ hab => .pure (.some hab)) (.pure .none)

/-- Names of one line that are spelled alike. -/
def SameName (L : Pairing) (n m : Name) : Prop :=
  L.name n.text m.text ∧ n.line = m.line

theorem refl_sameName (n : Name) : L.SameName n n :=
  ⟨hL.refl_name n.text, rfl⟩

theorem key_eq {n m : Name} (h : L.SameName n m) : n.key = m.key :=
  hL.foldName h.1

/-- Identifiers that are read are spelled alike. -/
theorem pairs_identifier : L.Pairs L.SameName identifier identifier := by
  refine .look fun s t h => ?_
  have hline := hL.near_line h
  rcases next_cases hL h with hsame | ⟨x, y, hs, ht, hxy⟩ | ⟨x, y, hs, ht, -⟩
  · rw [← hsame, ← hline]
    split
    · rename_i x hs
      exact (pairsAt_advance hL hs (unfenced hL (by simp))).andThen hL fun _ =>
        .pure (refl_sameName hL _)
    · exact pairs_unexpected hL _ s t h
  · simp only [hs, ht]
    exact (pairsAt_advance hL hs (unfenced hL (by simp))).andThen hL fun _ =>
      .pure ⟨hxy, hline⟩
  · simp only [hs, ht]
    exact pairs_unexpected hL _ s t h

/-! ## Repetition and recovery -/

/-- A loop that gets on is compared turn by turn. -/
theorem pairs_many {turn : Parse (Option α)} (hturn : L.Pairs (Option.Rel V) turn turn)
    (hV : ∀ a, V a a) (hadvances : Advances turn) :
    L.Pairs (List.Forall₂ V) (many turn) (many turn) := by
  -- on the number of tokens that are left
  suffices hn : ∀ n s t, s.tokens.length < n → L.Near s t →
      L.PairsAt (List.Forall₂ V) (many turn) (many turn) s t by
    exact fun s t h => hn _ s t (Nat.lt_succ_self _) h
  intro n
  induction n with
  | zero => exact fun s t hlt => absurd hlt (Nat.not_lt_zero _)
  | succ n ih =>
    intro s t hlt h
    rw [hadvances.unbounded]
    refine (hturn s t h).bind hL (refl_option hV) ?_
    rintro o o' s' t' hs' ho hst
    cases ho with
    | none => exact .pure .nil
    | some hab =>
      have hless := hadvances.takes s _ s' hs' rfl
      refine (ih s' t' (by omega) hst).bind hL (refl_forall₂ hV) ?_
      exact fun as bs u v _ hothers _ => .pure (.cons hab hothers)

/-- Lists are of the same length, and their items correspond. -/
theorem pairs_commaList {item : Parse α} (hitem : L.Pairs V item item) (hV : ∀ a, V a a) :
    L.Pairs (List.Forall₂ V) (commaList item) (commaList item) := by
  have hothers := pairs_many hL (pairs_afterSymbol? hL .comma (unfenced hL (by simp)) hitem hV) hV
    (advances_commas (hitem.onward))
  refine hitem.bind hL hV fun first first' hfirst => ?_
  exact hothers.bind hL (refl_forall₂ hV) fun _ _ hrest => .pure (.cons hfirst hrest)

/-- Lists in parentheses make no difference, if their items make none. -/
theorem pairs_parenthesized {item : Parse α} (hitem : L.Pairs Eq item item) :
    L.Pairs Eq (parenthesized item) (parenthesized item) := by
  have hitems := (pairs_commaList hL hitem (fun _ => rfl)).eq_list
  refine (pairs_acceptSymbol hL .openParen (unfenced hL (by simp))).andThen hL fun _ =>
    .ite ?_ (.pure rfl)
  refine (pairs_acceptSymbol hL .closeParen (unfenced hL (by simp))).andThen hL fun _ =>
    .ite (.pure rfl) ?_
  refine hitems.andThen hL fun items => ?_
  exact (pairs_expectSymbol hL .closeParen (unfenced hL (by simp))).andThen hL fun _ => .pure rfl

/-- After a diagnostic both runs skip to the same place. -/
theorem pairs_synchronize : L.Pairs Eq synchronize synchronize := by
  intro s t h
  refine ⟨.skip (List.dropWhile_suffix _), fun hst => ?_⟩
  rcases hL.skip hst with hlost | hst
  · exact .lost hlost
  · exact .ok rfl hst

/-- What stops both parsers is recorded and skipped in both. -/
theorem pairs_recovering (hp : L.Pairs V p q) :
    L.Pairs (Option.Rel V) (recovering p) (recovering q) := by
  intro s t h
  obtain ⟨honward, hmeets⟩ := hp s t h
  have hskip (d : Diagnostic) (u : ParserState) : Further u (u.report d).skipped :=
    (Further.report u d).trans (.skip (List.dropWhile_suffix _))
  have hfurther : Further (endState (p s)) (endState (recovering p s)) := by
    unfold recovering
    cases p s with
    | ok a u => exact .refl u
    | error d u => exact hskip d u
  refine ⟨honward.trans hfurther, fun hst => ?_⟩
  have hends := hmeets hst
  -- Behind the two ends, recovering reports in both or in neither.
  unfold recovering at hfurther ⊢
  generalize p s = r at hends hfurther ⊢
  generalize q t = r' at hends ⊢
  cases hends with
  | ok hab hs => exact .ok (.some hab) hs
  | error hd hs =>
    rcases hL.skip (hL.report hs hd) with hlost | hst
    · exact .lost hlost
    · exact .ok .none hst
  | lost hlost => exact .lost (hL.lost hlost hfurther)

/-! ## Constants and types -/

theorem pairs_inRange (line : Nat) (o : Option α) :
    L.Pairs Eq (inRange line o) (inRange line o) := by
  cases o with
  | some a => exact .pure rfl
  | none => exact pairs_stop hL _ _

/-- An integer, with its sign, is the same in both runs. -/
theorem pairs_integerConstant : L.Pairs Eq integerConstant integerConstant := by
  refine .look fun s t h => ?_
  have hline := hL.near_line h
  rcases next_cases hL h with hsame | ⟨x, y, hs, ht, -⟩ | ⟨x, y, hs, ht, -⟩
  · rw [← hsame, ← hline]
    split
    · rename_i digits hs
      exact (pairsAt_advance hL hs (unfenced hL (by simp))).andThen hL fun _ =>
        pairs_inRange hL _ _
    · exact pairs_unexpected hL _ s t h
  · simp only [hs, ht]
    exact pairs_unexpected hL _ s t h
  · simp only [hs, ht]
    exact pairs_unexpected hL _ s t h

/-- A constant is the same in both runs, and names of constants have the same value. -/
theorem pairs_constantValue : L.Pairs Eq constantValue constantValue := by
  refine (pairs_acceptSymbol hL .minus (unfenced hL (by simp))).andThen hL fun negative => ?_
  extract_lets unsigned
  have hunsigned : ∀ u, L.Pairs Eq (unsigned u) (unsigned u) := by
    intro u
    refine .look fun s t h => ?_
    have hline := hL.near_line h
    have hconstants := hL.near_constants h
    have hadvance {l : Lexeme} (hs : s.next? = some l) (hl : l ≠ .symbol .semicolon) :
        L.PairsAt Eq Parse.advance Parse.advance s t :=
      pairsAt_advance hL hs (unfenced hL hl)
    have hif {p : Parse Value} (hp : L.PairsAt Eq p p s t) :
        L.PairsAt Eq (if negative then Parse.unexpected .numericConstant else p)
          (if negative then Parse.unexpected .numericConstant else p) s t := by
      by_cases hnegative : negative = true
      · rw [if_pos hnegative]
        exact pairs_unexpected hL _ s t h
      · rw [if_neg hnegative]
        exact hp
    rcases next_cases hL h with hsame | ⟨x, y, hs, ht, hxy⟩ | ⟨x, y, hs, ht, hxy⟩
    · rw [← hsame, ← hline, ← hconstants]
      split
      -- A sign may stand in front of the two kinds of numeral only.
      · rename_i digits hs
        refine (hadvance hs (by simp)).andThen hL fun _ => ?_
        exact (pairs_inRange hL _ _).andThen hL fun n => .pure rfl
      · rename_i numeral hs
        refine (hadvance hs (by simp)).andThen hL fun _ => ?_
        exact (pairs_inRange hL _ _).andThen hL fun x => .pure rfl
      · apply hif
        split
        · rename_i text hs
          exact (hadvance hs (by simp)).andThen hL fun _ => .pure rfl
        · rename_i hs
          exact (hadvance hs (by simp)).andThen hL fun _ => .pure rfl
        · rename_i hs
          exact (hadvance hs (by simp)).andThen hL fun _ => .pure rfl
        · rename_i name hs
          split
          · exact (hadvance hs (by simp)).andThen hL fun _ => .pure rfl
          · exact pairs_unexpected hL _ s t h
        · exact pairs_unexpected hL _ s t h
    · simp only [hs, ht, ← hconstants, ← hL.foldName hxy]
      apply hif
      split
      · exact (hadvance hs (by simp)).andThen hL fun _ => .pure rfl
      · exact pairs_unexpected hL _ s t h
    · simp only [hs, ht, ← hline, ← hL.realValue hxy]
      refine (hadvance hs (by simp)).andThen hL fun _ => ?_
      exact (pairs_inRange hL _ _).andThen hL fun x => .pure rfl
  refine .ite (hunsigned ()) ?_
  exact ((pairs_acceptSymbol hL .plus (unfenced hL (by simp))).discard hL fun _ => rfl).andThen hL
    hunsigned

/-- The name of a type is the same in both runs. -/
theorem pairs_typeName : L.Pairs Eq typeName typeName := by
  refine .look fun s t h => ?_
  have hline := hL.near_line h
  have hadvance {l : Lexeme} (hs : s.next? = some l) (hl : l ≠ .symbol .semicolon) :
      L.PairsAt Eq Parse.advance Parse.advance s t :=
    pairsAt_advance hL hs (unfenced hL hl)
  -- A type is a keyword, and a name in its place is reported under the name that it has there.
  rcases next_cases hL h with hsame | ⟨x, y, hs, ht, hxy⟩ | ⟨x, y, hs, ht, -⟩
  · rw [← hsame, ← hline]
    split
    · rename_i w hs
      split
      · rename_i type htype
        refine (hadvance hs (by simp)).andThen hL fun _ => ?_
        extract_lets done
        have hdone : ∀ u, L.Pairs Eq (done u) (done u) := fun _ => .pure rfl
        split
        · refine (pairs_acceptSymbol hL .openBracket (unfenced hL (by simp))).andThen hL fun _ =>
            .ite ?_ (hdone ())
          refine ((pairs_integerConstant hL).discard hL fun _ => rfl).andThen hL fun _ => ?_
          exact (pairs_expectSymbol hL .closeBracket (unfenced hL (by simp))).andThen hL hdone
        · exact hdone ()
      · exact pairs_unexpected hL _ s t h
    · rename_i x hs
      refine (hadvance hs (by simp)).andThen hL fun _ => ?_
      exact (pairs_report hL (charge_refl hL _)).andThen hL fun _ => .pure rfl
    · exact pairs_unexpected hL _ s t h
  · simp only [hs, ht, ← hline]
    refine (hadvance hs (by simp)).andThen hL fun _ => ?_
    refine (pairs_report hL ?_).andThen hL fun _ => .pure rfl
    exact hL.charge _ _ (.inl hxy)
  · simp only [hs, ht]
    exact pairs_unexpected hL _ s t h

end Sequences

end Pairing

end TurboBench.Pascal
