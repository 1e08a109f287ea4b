import TurboBench.Proofs.Pascal.Acceptance
import TurboBench.Proofs.Pascal.RoundTrip

/-!
# The loops of the parser

The loops of the parser are bounded by the number of tokens that are left, so that they are
functions at all. The bound must not be what ends them. A loop gets on (`Advances`) if each turn
that another follows takes a token; then the bound is out of reach, and the loop is a turn with the
loop behind it.

Of most parsers it is enough that they never go back (`Onward`). Three things take a token for
certain: a symbol that has to be there and is, the name that a declaration begins with, and the
recovery of a statement list. The last does not depend on what the statement took. Where a list
goes on without a semicolon, the token that is found there is no place to stop at, and it is
skipped, or it is an `else`, and it is read over. So the list gets on also where the statement was
refused at once, because nothing may open any more.
-/

set_option autoImplicit false

namespace TurboBench.Pascal

open Parse

/-! ## Never back -/

/-- From the state `s` the parser leads to a state that is further on than `r`, whether it stops or
not. -/
def Leads {α : Type} (p : Parse α) (s r : ParserState) : Prop :=
  match p s with
  | .ok _ t => Further r t
  | .error _ t => Further r t

/-- A parser that never goes back. -/
def Onward {α : Type} (p : Parse α) : Prop :=
  ∀ s, Leads p s s

/-- A parser that takes a token if it yields a result of a kind. -/
def Takes {α : Type} (K : α → Prop) (p : Parse α) : Prop :=
  ∀ s a t, p s = .ok a t → K a → t.tokens.length < s.tokens.length

section Rules

variable {α β : Type} {p : Parse α} {f : α → Parse β} {s t r : ParserState}

/-- A parser that derives a phrase takes tokens from the front, so it never goes back. -/
theorem Derives.onward {G : Scope → List Token → α → List Token → Prop}
    (hp : ∀ Γ, Derives Γ (G Γ) p) : Onward p := by
  intro s
  have hps := hp s.scope s rfl
  unfold Leads
  generalize p s = result at hps
  cases result with
  | ok a t => exact hps.1.2
  | error d t => exact hps.2

/-- Parsers of declarations never go back. -/
theorem Declares.onward {R : Site → α → Site → Prop} (hp : Declares R p) : Onward p := by
  intro s
  have hps := hp s
  unfold Leads
  generalize p s = result at hps
  cases result with
  | ok a t => exact hps.1
  | error d t => exact hps

/-- What stands behind a parser that leads onward leads onward too. -/
theorem Leads.bind (hp : Leads p s r) (hf : ∀ a, Onward (f a)) : Leads (p >>= f) s r := by
  unfold Leads at hp ⊢
  cases hps : p s with
  | error d t =>
    rw [hps] at hp
    rw [bind_of_error hps]
    exact hp
  | ok a t =>
    rw [hps] at hp
    rw [bind_of_ok hps]
    have hsecond := hf a t
    unfold Leads at hsecond
    generalize f a t = result at hsecond
    cases result with
    | ok b u => exact hp.trans hsecond
    | error d u => exact hp.trans hsecond

namespace Onward

theorem of_ok (hp : Onward p) {a : α} (h : p s = .ok a t) : Further s t := by
  have hps := hp s
  rwa [Leads, h] at hps

theorem pure (a : α) : Onward (Pure.pure a : Parse α) :=
  fun s => Further.refl s

theorem bind (hp : Onward p) (hf : ∀ a, Onward (f a)) : Onward (p >>= f) :=
  fun s => (hp s).bind hf

theorem ite {b : Bool} {q : Parse α} (hp : Onward p) (hq : Onward q) :
    Onward (if b then p else q) := by
  cases b with
  | true => exact hp
  | false => exact hq

end Onward

namespace Takes

variable {K : α → Prop} {L : β → Prop}

theorem pure {a : α} (h : ¬ K a) : Takes K (Pure.pure a : Parse α) := by
  intro s b t hb hK
  obtain ⟨rfl, rfl⟩ := EStateM.Result.ok.inj hb
  exact absurd hK h

/-- The token is taken by the first part, or by the second for those results of the first for
which the first does not. -/
theorem bind (hp : Takes K p) (hon : Onward p) (hf : ∀ a, K a → Onward (f a))
    (hrest : ∀ a, ¬ K a → Takes L (f a)) : Takes L (p >>= f) := by
  intro s b u hb hL
  cases hps : p s with
  | error d t =>
    rw [bind_of_error hps] at hb
    exact nomatch hb
  | ok a t =>
    rw [bind_of_ok hps] at hb
    have hst := (hon.of_ok hps).tokens.length_le
    by_cases hK : K a
    · have htu := ((hf a hK).of_ok hb).tokens.length_le
      exact Nat.lt_of_le_of_lt htu (hp s a t hps hK)
    · exact Nat.lt_of_lt_of_le (hrest a hK t b u hb hL) hst

/-- The token is taken by the second part. -/
theorem behind (hon : Onward p) (hf : ∀ a, Takes L (f a)) : Takes L (p >>= f) :=
  bind (K := fun _ => False) (fun _ _ _ _ h => h.elim) hon (fun _ h => h.elim) fun a _ => hf a

/-- The token is taken by the first part. -/
theorem front (hp : Takes (fun _ => True) p) (hon : Onward p) (hf : ∀ a, Onward (f a)) :
    Takes L (p >>= f) :=
  bind hp hon (fun a _ => hf a) fun _ h => absurd True.intro h

theorem look {f : ParserState → Parse β} (h : ∀ s, Takes L (f s)) :
    Takes L (MonadState.get >>= f) :=
  fun s => h s s

end Takes

/-! ## Tokens that are taken -/

theorem onward_acceptSymbol (m : Symbol) : Onward (acceptSymbol m) :=
  Derives.onward fun _ => derives_acceptSymbol m

theorem onward_acceptKeyword (w : Keyword) : Onward (acceptKeyword w) :=
  Derives.onward fun _ => derives_acceptKeyword w

theorem onward_expectSymbol (m : Symbol) : Onward (expectSymbol m) :=
  Derives.onward fun _ => derives_expectSymbol m

/-- A token that may be there, and is read over if it is. -/
theorem accept_apply (l : Lexeme) (s : ParserState) :
    (do if ← atLexeme l then Parse.advance; return true else return false : Parse Bool) s =
      if s.next? = some l then .ok true s.advance else .ok false s := by
  have hat : atLexeme l s = .ok (s.next? == some l) s := rfl
  rw [bind_of_ok hat]
  by_cases h : s.next? = some l
  · rw [if_pos (beq_iff_eq.2 h), if_pos h]
    rfl
  · rw [if_neg (fun hbeq => h (beq_iff_eq.1 hbeq)), if_neg h]
    rfl

theorem acceptSymbol_apply (m : Symbol) (s : ParserState) :
    acceptSymbol m s = if s.next? = some (.symbol m) then .ok true s.advance else .ok false s :=
  accept_apply (.symbol m) s

theorem acceptKeyword_apply (w : Keyword) (s : ParserState) :
    acceptKeyword w s = if s.next? = some (.keyword w) then .ok true s.advance else .ok false s :=
  accept_apply (.keyword w) s

/-- Looking for an optional symbol never fails. -/
theorem acceptSymbol_ok (m : Symbol) (s : ParserState) : ∃ b t, acceptSymbol m s = .ok b t := by
  rw [acceptSymbol_apply]
  split
  · exact ⟨_, _, rfl⟩
  · exact ⟨_, _, rfl⟩

/-- Looking for an optional keyword never fails. -/
theorem acceptKeyword_ok (w : Keyword) (s : ParserState) : ∃ b t, acceptKeyword w s = .ok b t := by
  rw [acceptKeyword_apply]
  split
  · exact ⟨_, _, rfl⟩
  · exact ⟨_, _, rfl⟩

theorem length_advance_lt {l : Lexeme} (h : s.next? = some l) :
    s.advance.tokens.length < s.tokens.length := by
  rw [tokens_of_next h]
  exact Nat.lt_succ_self _

/-- A lexeme that is accepted is taken. -/
theorem takes_accept {l : Lexeme} {accept : Parse Bool}
    (haccept : ∀ s, accept s = if s.next? = some l then .ok true s.advance else .ok false s) :
    Takes (· = true) accept := by
  rintro s a t h rfl
  rw [haccept] at h
  split at h
  · rename_i hnext
    obtain ⟨-, rfl⟩ := EStateM.Result.ok.inj h
    exact length_advance_lt hnext
  · exact nomatch (EStateM.Result.ok.inj h).1

theorem takes_acceptSymbol (m : Symbol) : Takes (· = true) (acceptSymbol m) :=
  takes_accept (acceptSymbol_apply m)

theorem takes_acceptKeyword (w : Keyword) : Takes (· = true) (acceptKeyword w) :=
  takes_accept (acceptKeyword_apply w)

/-- A symbol that has to be there is taken, or the parser stops. -/
theorem takes_expectSymbol (m : Symbol) : Takes (fun _ => True) (expectSymbol m) := by
  refine (takes_acceptSymbol m).bind (onward_acceptSymbol m) ?_ ?_
  · rintro present rfl
    exact .pure _
  · rintro present hpresent
    rw [if_neg hpresent]
    exact fun s a t h => nomatch h

end Rules

/-! ## Loops that get on -/

/-- A turn, and if it yields something, what comes behind it. -/
def turnThen {α : Type} (turn : Parse (Option α)) (rest : Parse (List α)) : Parse (List α) := do
  match ← turn with
  | none => return []
  | some a => return a :: (← rest)

/-- A loop that gets on: a turn that another follows takes a token, there is no turn without
tokens, and the loop is a turn with the loop behind it. -/
structure Advances {α : Type} (turn : Parse (Option α)) : Prop where
  takes : Takes (·.isSome) turn
  leaves : ∀ s, s.tokens = [] → turn s = .ok none s
  unbounded : many turn = turnThen turn (many turn)

section Loops

variable {α : Type} {turn : Parse (Option α)}

theorem manyUpTo_eq (turn : Parse (Option α)) (n : Nat) :
    manyUpTo turn (n + 1) = turnThen turn (manyUpTo turn n) := rfl

/-- What comes behind a turn starts with fewer tokens. -/
theorem turnThen_congr (htakes : Takes (·.isSome) turn) {rest rest' : Parse (List α)}
    {s : ParserState} (h : ∀ t, t.tokens.length < s.tokens.length → rest t = rest' t) :
    turnThen turn rest s = turnThen turn rest' s := by
  unfold turnThen
  refine bind_congr_of_ok fun o t hturn => ?_
  cases o with
  | none => rfl
  | some a => exact bind_congr_left (h t (htakes s _ t hturn rfl))

theorem manyUpTo_of_nil (hleaves : ∀ s, s.tokens = [] → turn s = .ok none s) {s : ParserState}
    (hs : s.tokens = []) (n : Nat) : manyUpTo turn n s = .ok [] s := by
  cases n with
  | zero => rfl
  | succ n => exact bind_of_ok (hleaves s hs)

/-- The bound does not matter, as long as it is not less than the number of tokens. -/
theorem manyUpTo_congr (htakes : Takes (·.isSome) turn)
    (hleaves : ∀ s, s.tokens = [] → turn s = .ok none s) {n m : Nat} {s : ParserState}
    (hn : s.tokens.length ≤ n) (hm : s.tokens.length ≤ m) :
    manyUpTo turn n s = manyUpTo turn m s := by
  induction n generalizing m s with
  | zero =>
    have hnil : s.tokens = [] := List.length_eq_zero_iff.1 (Nat.le_zero.1 hn)
    rw [manyUpTo_of_nil hleaves hnil, manyUpTo_of_nil hleaves hnil]
  | succ n ih =>
    cases m with
    | zero =>
      have hnil : s.tokens = [] := List.length_eq_zero_iff.1 (Nat.le_zero.1 hm)
      rw [manyUpTo_of_nil hleaves hnil, manyUpTo_of_nil hleaves hnil]
    | succ m =>
      rw [manyUpTo_eq, manyUpTo_eq]
      exact turnThen_congr htakes fun t ht => ih (by omega) (by omega)

/-- A loop gets on if its turns take a token each, and none is left to take without tokens. -/
theorem advances_of_takes (htakes : Takes (·.isSome) turn)
    (hleaves : ∀ s, s.tokens = [] → turn s = .ok none s) : Advances turn := by
  refine ⟨htakes, hleaves, ?_⟩
  funext s
  -- One turn more than needed: its own count opens the recursion, and the rest is immaterial.
  have hmore : many turn s = manyUpTo turn (s.tokens.length + 1) s :=
    manyUpTo_congr htakes hleaves (Nat.le_refl _) (Nat.le_succ _)
  rw [hmore, manyUpTo_eq]
  exact turnThen_congr htakes fun t ht =>
    manyUpTo_congr htakes hleaves (Nat.le_of_lt ht) (Nat.le_refl _)

end Loops

/-! ## Commas, operators and cases -/

/-- Without tokens nothing is next. -/
theorem next?_of_nil {s : ParserState} (h : s.tokens = []) : s.next? = none := by
  rw [ParserState.next?, h]
  rfl

/-- A list gets on with every comma. -/
theorem advances_commas {α : Type} {item : Parse α} (hitem : Onward item) :
    Advances (afterSymbol? .comma item) := by
  refine advances_of_takes ?_ fun s hs => ?_
  · refine (takes_acceptSymbol .comma).bind (onward_acceptSymbol .comma) ?_ ?_
    · rintro present rfl
      exact hitem.bind fun a => .pure _
    · rintro present hpresent
      rw [if_neg hpresent]
      exact .pure (by simp)
  · have hnext : s.next? ≠ some (.symbol .comma) := by simp [next?_of_nil hs]
    refine bind_of_ok ((acceptSymbol_apply .comma s).trans (if_neg hnext))

/-- An operator that is next is taken, with its line; anything else is left. -/
theorem operator?_apply (class? : Lexeme → Option BinaryOp) (s : ParserState) :
    operator? class? s = match s.next?.bind class? with
      | some op => .ok (some (op, s.line)) s.advance
      | none => .ok none s := by
  unfold operator?
  rw [look_apply]
  cases s.next?.bind class? with
  | some op => rfl
  | none => rfl

/-- An operator that is found is taken. -/
theorem takes_operator? (class? : Lexeme → Option BinaryOp) :
    Takes (·.isSome) (operator? class?) := by
  intro s o t h ho
  rw [operator?_apply] at h
  split at h
  · rename_i op hop
    obtain ⟨l, hnext, -⟩ := Option.bind_eq_some_iff.1 hop
    obtain ⟨-, rfl⟩ := EStateM.Result.ok.inj h
    exact length_advance_lt hnext
  · obtain ⟨rfl, -⟩ := EStateM.Result.ok.inj h
    exact nomatch ho

/-- Operators with their operands get on with every operator. -/
theorem advances_operators {class? : Lexeme → Option BinaryOp} {operand : Parse Expr}
    (hoperand : Onward operand) : Advances (chainTurn class? operand) := by
  have hop : Onward (operator? class?) := Derives.onward fun _ => derives_operator? class?
  refine advances_of_takes ((takes_operator? class?).bind hop ?_ ?_) fun s hs => ?_
  · rintro (_ | ⟨op, line⟩) hsome
    · exact nomatch hsome
    · exact hoperand.bind fun e => .pure _
  · rintro (_ | o) hnone
    · exact .pure (by simp)
    · exact absurd rfl hnone
  · have hend : operator? class? s = .ok none s := by
      rw [operator?_apply, next?_of_nil hs]
      rfl
    unfold chainTurn
    exact bind_of_ok hend

/-- A branch of a case takes its colon. -/
theorem advances_caseBranch? {statement : Parse Statement} (hstatement : Onward statement) :
    Advances (caseBranch? statement) := by
  refine advances_of_takes (.look fun s => ?_) fun s hs => ?_
  · have hlabels : Onward (commaList constantValue) :=
      Derives.onward fun _ => derives_commaList derives_constantValue
    have hat (w : Keyword) : Onward (atKeyword w) := Derives.onward fun _ => derives_atLexeme _
    have hmissing : Onward (Parse.unexpected (.symbol .semicolon) : Parse Unit) :=
      fun s => Further.refl s
    split
    · exact .pure (by simp)
    · exact .pure (by simp)
    · exact .pure (by simp)
    · refine .behind hlabels fun labels => ?_
      refine .front (takes_expectSymbol .colon) (onward_expectSymbol .colon) fun _ => ?_
      refine hstatement.bind fun body => (onward_acceptSymbol .semicolon).bind fun another => ?_
      refine .ite (.pure _) ((hat .end_).bind fun atEnd => (hat .else_).bind fun atElse => ?_)
      exact .ite (.pure _) (hmissing.bind fun _ => .pure _)
  · unfold caseBranch?
    rw [look_apply, next?_of_nil hs]
    rfl

/-! ## Statement lists -/

/-- A turn of a statement list, and if another follows, what comes behind it. -/
def listThen (turn : Parse (Option Statement × Bool)) (rest : Parse (List Statement)) :
    Parse (List Statement) := do
  let (read, another) ← turn
  let others ← if another then rest else pure []
  return read.toList ++ others

/-- The state where skipping stops. -/
def ParserState.skipped (s : ParserState) : ParserState :=
  { s with tokens := s.tokens.dropWhile (!stopsSkipping ·.lexeme) }

/-- Skipping, and reading over an `else` where it stops, takes a token, unless the skipping stops at
once at another place. -/
theorem skipped_takes {s : ParserState} {l : Lexeme} (hnext : s.next? = some l)
    (hl : l = .keyword .else_ ∨ stopsSkipping l = false) :
    ∃ b t, acceptKeyword .else_ s.skipped = .ok b t ∧ t.tokens.length < s.tokens.length := by
  have htokens := tokens_of_next hnext
  rcases hl with rfl | hl
  · -- the skipping stops at the `else`
    have hstop : s.skipped.tokens = s.tokens := by
      rw [ParserState.skipped, htokens]
      rfl
    have hnext' : s.skipped.next? = some (.keyword .else_) := by
      rw [ParserState.next?, hstop]
      exact hnext
    refine ⟨true, s.skipped.advance, (acceptKeyword_apply _ _).trans (if_pos hnext'), ?_⟩
    exact hstop ▸ length_advance_lt hnext'
  · have hskip : s.skipped.tokens.length < s.tokens.length := by
      rw [ParserState.skipped, htokens]
      have hdrop := List.dropWhile_cons_of_pos (a := (⟨l, s.line⟩ : Token))
        (p := (!stopsSkipping ·.lexeme)) (l := s.advance.tokens) (by simp [hl])
      rw [hdrop]
      exact Nat.lt_succ_of_le (List.dropWhile_suffix _).length_le
    obtain ⟨b, t, ht⟩ := acceptKeyword_ok .else_ s.skipped
    exact ⟨b, t, ht, Nat.lt_of_le_of_lt ((onward_acceptKeyword _).of_ok ht).tokens.length_le hskip⟩

/-- A parser that has stopped is recovered from. -/
theorem recovering_ok {α : Type} {p : Parse α} {s r : ParserState} (hp : Leads p s r) :
    ∃ o t, recovering p s = .ok o t ∧ Further r t := by
  unfold Leads at hp
  unfold recovering
  cases hpt : p s with
  | ok a t =>
    rw [hpt] at hp
    exact ⟨some a, t, rfl, hp⟩
  | error d t =>
    rw [hpt] at hp
    have hskip : Further (t.report d) (t.report d).skipped := .skip (List.dropWhile_suffix _)
    exact ⟨none, _, rfl, hp.trans ((Further.report t d).trans hskip)⟩

/-- From the state `t` a turn of a statement list comes to its end, and if another follows, fewer
tokens are left than in `s`. -/
def GetsOn (turn : Parse (Option Statement × Bool)) (s t : ParserState) : Prop :=
  ∃ r u, turn t = .ok r u ∧ (r.2 = true → u.tokens.length < s.tokens.length)

theorem GetsOn.after {α : Type} {p : Parse α} {f : α → Parse (Option Statement × Bool)}
    {s t u : ParserState} {a : α} (h : p t = .ok a u) (hf : GetsOn (f a) s u) :
    GetsOn (p >>= f) s t := by
  obtain ⟨r, v, hv, hlt⟩ := hf
  exact ⟨r, v, (bind_of_ok h).trans hv, hlt⟩

/-- **A turn of a statement list takes a token or is the last**, whatever the statement is. -/
theorem getsOn_statementTurn {statement : Parse Statement} (hstatement : Onward statement)
    (s : ParserState) : GetsOn (statementTurn statement) s s := by
  obtain ⟨read, t, hread, hst⟩ := recovering_ok (hstatement s)
  have hle := hst.tokens.length_le
  unfold statementTurn
  refine .after hread ?_
  by_cases hsemicolon : t.next? = some (.symbol .semicolon)
  · have haccept := (acceptSymbol_apply .semicolon t).trans (if_pos hsemicolon)
    refine .after haccept ⟨(read, true), t.advance, rfl, fun _ => ?_⟩
    exact Nat.lt_of_lt_of_le (length_advance_lt hsemicolon) hle
  · have haccept := (acceptSymbol_apply .semicolon t).trans (if_neg hsemicolon)
    refine .after haccept ?_
    rw [if_neg Bool.false_ne_true]
    have hlook : (MonadState.get : Parse ParserState) t = .ok t t := rfl
    refine .after hlook ?_
    split
    · exact ⟨_, _, rfl, nofun⟩
    · exact ⟨_, _, rfl, nofun⟩
    · exact ⟨_, _, rfl, nofun⟩
    · rename_i l hend huntil hnext
      -- the semicolon is missing
      have hl : l = .keyword .else_ ∨ stopsSkipping l = false := by
        unfold stopsSkipping
        split
        · exact absurd hnext hsemicolon
        · exact (hend rfl).elim
        · exact (huntil rfl).elim
        · exact .inl rfl
        · exact .inr rfl
      generalize hd : (⟨t.line, .expected (.symbol .semicolon) t.found⟩ : Diagnostic) = d
      obtain ⟨b, u, hu, hlt⟩ := skipped_takes (s := t.report d) hnext hl
      have hskip := discard_of_ok hu
      refine ⟨(read, true), u, ?_, fun _ => Nat.lt_of_lt_of_le hlt hle⟩
      subst hd
      exact bind_of_ok hskip

section Lists

variable {statement : Parse Statement}

theorem statementsUpTo_eq (statement : Parse Statement) (n : Nat) :
    statementsUpTo statement (n + 1)
      = listThen (statementTurn statement) (statementsUpTo statement n) := rfl

/-- What comes behind a turn starts with fewer tokens. -/
theorem listThen_congr (hstatement : Onward statement) {rest rest' : Parse (List Statement)}
    {s : ParserState} (h : ∀ t, t.tokens.length < s.tokens.length → rest t = rest' t) :
    listThen (statementTurn statement) rest s = listThen (statementTurn statement) rest' s := by
  obtain ⟨⟨read, another⟩, t, hturn, hlt⟩ := getsOn_statementTurn hstatement s
  unfold listThen
  rw [bind_of_ok hturn, bind_of_ok hturn]
  cases another with
  | false => rfl
  | true =>
    have hrest := h t (hlt rfl)
    exact bind_congr_left hrest

/-- Any two bounds above the number of tokens give the same list of statements. -/
theorem statementsUpTo_congr (hstatement : Onward statement) {n m : Nat} {s : ParserState}
    (hn : s.tokens.length < n) (hm : s.tokens.length < m) :
    statementsUpTo statement n s = statementsUpTo statement m s := by
  induction n generalizing m s with
  | zero => omega
  | succ n ih =>
    cases m with
    | zero => omega
    | succ m =>
      rw [statementsUpTo_eq, statementsUpTo_eq]
      exact listThen_congr hstatement fun t ht => ih (by omega) (by omega)

/-- A statement list is a turn with the list behind it. -/
theorem statementList_eq (hstatement : Onward statement) :
    statementList statement = listThen (statementTurn statement) (statementList statement) := by
  funext s
  have hmore : statementList statement s = statementsUpTo statement (s.tokens.length + 1) s := rfl
  rw [hmore, statementsUpTo_eq]
  exact listThen_congr hstatement fun t ht =>
    statementsUpTo_congr hstatement ht (Nat.lt_succ_self _)

end Lists

/-! ## Declarations -/

section Declarations

/-- An identifier is next. -/
def ParserState.AtName (s : ParserState) : Prop :=
  ∃ x, s.next? = some (.identifier x)

/-- A declaration takes the name that it begins with, whether it stops or not. -/
def TakesName {α : Type} (p : Parse α) : Prop :=
  ∀ s : ParserState, s.AtName → Leads p s s.advance

theorem identifier_apply {s : ParserState} {x : String} (h : s.next? = some (.identifier x)) :
    identifier s = .ok ⟨x, s.line⟩ s.advance := by
  unfold identifier
  rw [look_apply, h]
  rfl

theorem takesName_identifier : TakesName identifier := by
  rintro s ⟨x, hx⟩
  rw [Leads, identifier_apply hx]
  exact .refl _

theorem TakesName.bind {α β : Type} {p : Parse α} {f : α → Parse β} (hp : TakesName p)
    (hf : ∀ a, Onward (f a)) : TakesName (p >>= f) :=
  fun s hs => (hp s hs).bind hf

/-- A declaration of a constant takes its name, even if it then stops. -/
theorem takesName_constantDeclaration : TakesName constantDeclaration := by
  refine takesName_identifier.bind fun name => (onward_expectSymbol .equal).bind fun _ => ?_
  refine (Derives.onward fun _ => derives_constantValue).bind fun v => ?_
  refine (onward_expectSymbol .semicolon).bind fun _ => ?_
  refine (Derives.onward fun _ => (derives_declareNew name).discard).bind fun _ => ?_
  exact (declares_setConstant name.key v).onward

/-- A declaration of variables takes the first name, even if it then stops. -/
theorem takesName_variableDeclaration : TakesName variableDeclaration := by
  have hcommas : Onward (many (afterSymbol? .comma identifier)) :=
    Derives.onward fun _ => derives_many (derives_afterSymbol? .comma derives_identifier)
  have hnames : TakesName (commaList identifier) :=
    takesName_identifier.bind fun first => hcommas.bind fun others => .pure _
  refine hnames.bind fun names => (onward_expectSymbol .colon).bind fun _ => ?_
  refine (Derives.onward fun _ => derives_typeName).bind fun type => ?_
  refine (onward_expectSymbol .semicolon).bind fun _ => ?_
  exact (declares_declareVariables type names).onward

/-- Looking for an identifier changes nothing, and finds one only where one is. -/
theorem atIdentifier_apply (s : ParserState) :
    ∃ b, atIdentifier s = .ok b s ∧ (b = true → s.AtName) := by
  unfold atIdentifier
  rw [look_apply]
  cases hnext : s.next? with
  | none => exact ⟨false, rfl, nofun⟩
  | some l =>
    cases l with
    | identifier x => exact ⟨true, rfl, fun _ => ⟨x, hnext⟩⟩
    | _ => exact ⟨false, rfl, nofun⟩

/-- What comes behind a declaration. -/
theorem onward_declared (read : Option Unit) : Onward (do
    if read.isNone then discard (acceptSymbol .semicolon)
    return some () : Parse (Option Unit)) := by
  have hskip : Onward (Functor.discard (acceptSymbol .semicolon)) :=
    Derives.onward fun _ => (derives_acceptSymbol .semicolon).discard
  exact .ite (hskip.bind fun _ => .pure _) (.pure _)

/-- A section gets on, since every declaration takes its name. -/
theorem advances_declarationTurn {declaration : Parse Unit} (h : TakesName declaration) :
    Advances (declarationTurn declaration) := by
  -- A turn begins with a look at the next token. With a name there the turn takes it at least, and
  -- without tokens it ends.
  refine advances_of_takes ?_ fun s hs => ?_
  · intro s o t hturn ho
    obtain ⟨present, hat, hname⟩ := atIdentifier_apply s
    unfold declarationTurn at hturn
    rw [bind_of_ok hat] at hturn
    cases present with
    | false =>
      obtain ⟨rfl, -⟩ := EStateM.Result.ok.inj hturn
      exact nomatch ho
    | true =>
      obtain ⟨x, hx⟩ := hname rfl
      obtain ⟨read, u, hread, hsu⟩ := recovering_ok (h s ⟨x, hx⟩)
      rw [if_pos rfl, bind_of_ok hread] at hturn
      have hut := ((onward_declared read).of_ok hturn).tokens.length_le
      have hlt := length_advance_lt hx
      have hle := hsu.tokens.length_le
      omega
  · have hat : atIdentifier s = .ok false s := by
      obtain ⟨present, hat, hname⟩ := atIdentifier_apply s
      cases present with
      | false => exact hat
      | true =>
        obtain ⟨x, hx⟩ := hname rfl
        exact nomatch (next?_of_nil hs).symm.trans hx
    unfold declarationTurn
    exact bind_of_ok hat

/-- The sections get on with the keywords that open them. -/
theorem advances_sectionTurn : Advances sectionTurn := by
  refine advances_of_takes ?_ fun s hs => ?_
  · refine (takes_acceptKeyword .const).bind (onward_acceptKeyword .const) ?_ ?_
    · rintro present rfl
      exact declares_constants.onward.bind fun _ => .pure _
    · rintro present hconst
      rw [if_neg hconst]
      refine (takes_acceptKeyword .var_).bind (onward_acceptKeyword .var_) ?_ ?_
      · rintro present rfl
        exact declares_variables.onward.bind fun _ => .pure _
      · rintro present hvar
        rw [if_neg hvar]
        exact .pure (by simp)
  · have hword (w : Keyword) : acceptKeyword w s = .ok false s := by
      rw [acceptKeyword_apply, next?_of_nil hs]
      rfl
    unfold sectionTurn
    rw [bind_of_ok (hword .const)]
    exact bind_of_ok (hword .var_)

end Declarations

end TurboBench.Pascal
