import TurboBench.Proofs.Pascal.Grammar
import TurboBench.Proofs.Pascal.Sequences

/-!
# What a parser takes when nothing is wrong

The parser goes on after most mistakes: it skips tokens, guesses, and records what was wrong. What
it has taken means something only if nothing was recorded in the end. `Derives Γ G p` is the
statement that fits: in the scope `Γ`, whatever the tokens are, the parser `p` only moves on in
them and only adds to what is recorded; and if it comes to an end with nothing recorded, the
grammar has `G` from the tokens it began at, with its result, to the tokens it left.

The relation of a sequence is composed backwards. Behind a part that has been read, what remains to
be shown is asked of the tokens that come, for all those that the part may have taken, so a parser
is settled from its first token to its last, and the last step is one rule of the grammar.
-/

set_option autoImplicit false

namespace TurboBench.Pascal

open Parse

/-! ## Moving on -/

/-- The scope of a state. -/
def ParserState.scope (s : ParserState) : Scope :=
  ⟨s.declarations, s.constants, s.endLine⟩

/-- A state that is further on in the tokens, with everything recorded that was. -/
structure Further (s t : ParserState) : Prop where
  tokens : t.tokens <:+ s.tokens
  diagnostics : s.diagnostics <+: t.diagnostics

namespace Further

variable {s t u : ParserState}

theorem refl (s : ParserState) : Further s s :=
  ⟨List.suffix_rfl, List.prefix_rfl⟩

theorem trans (h : Further s t) (k : Further t u) : Further s u :=
  ⟨k.tokens.trans h.tokens, h.diagnostics.trans k.diagnostics⟩

/-- If nothing is recorded in the end, nothing was before. -/
theorem clean (h : Further s t) (ht : t.diagnostics = []) : s.diagnostics = [] :=
  List.prefix_nil.1 (ht ▸ h.diagnostics)

theorem report (s : ParserState) (d : Diagnostic) : Further s (s.report d) :=
  ⟨List.suffix_rfl, List.prefix_append _ _⟩

theorem skip {ts : List Token} (h : ts <:+ s.tokens) : Further s { s with tokens := ts } :=
  ⟨h, List.prefix_rfl⟩

end Further

/-- The next token, and the tokens behind it. -/
theorem tokens_of_next {s : ParserState} {l : Lexeme} (h : s.next? = some l) :
    s.tokens = ⟨l, s.line⟩ :: s.advance.tokens := by
  obtain ⟨tokens⟩ := s
  cases tokens with
  | nil => exact nomatch h
  | cons t ts =>
    obtain rfl := Option.some.inj h
    rfl

/-! ## The rules -/

/-- What the parser takes is in the grammar, if nothing is recorded. -/
def Derives {α : Type} (Γ : Scope) (G : List Token → α → List Token → Prop) (p : Parse α) : Prop :=
  ∀ s, s.scope = Γ → match p s with
    | .ok a t => (t.scope = Γ ∧ Further s t) ∧ (t.diagnostics = [] → G s.tokens a t.tokens)
    | .error _ t => t.scope = Γ ∧ Further s t

section Rules

variable {α β : Type} {Γ : Scope} {G : List Token → α → List Token → Prop}
  {H : List Token → β → List Token → Prop} {p : Parse α} {f : α → Parse β}

namespace Derives

theorem pure {a : α} (h : ∀ ts, G ts a ts) : Derives Γ G (Pure.pure a : Parse α) := by
  intro s hs
  exact ⟨⟨hs, .refl s⟩, fun _ => h s.tokens⟩

theorem stop (line : Nat) (problem : Problem) : Derives Γ G (Parse.stop line problem) := by
  intro s hs
  exact ⟨hs, .refl s⟩

theorem unexpected (wanted : Wanted) : Derives Γ G (Parse.unexpected wanted) := by
  intro s hs
  exact ⟨hs, .refl s⟩

/-- Nothing comes behind a parser that stops. -/
theorem stop_bind (line : Nat) (problem : Problem) :
    Derives Γ H (Parse.stop line problem >>= f) := by
  intro s hs
  exact ⟨hs, .refl s⟩

theorem unexpected_bind (wanted : Wanted) : Derives Γ H (Parse.unexpected wanted >>= f) := by
  intro s hs
  exact ⟨hs, .refl s⟩

/-- What comes behind `p` begins where `p` ended. -/
theorem bind (hp : Derives Γ G p)
    (hf : ∀ a, Derives Γ (fun mid b rest => ∀ ts, G ts a mid → H ts b rest) (f a)) :
    Derives Γ H (p >>= f) := by
  intro s hs
  have hfirst := hp s hs
  cases hps : p s with
  | error d t =>
    rw [hps] at hfirst
    rw [bind_of_error hps]
    exact hfirst
  | ok a t =>
    rw [hps] at hfirst
    rw [bind_of_ok hps]
    obtain ⟨⟨ht, hst⟩, ha⟩ := hfirst
    have hsecond := hf a t ht
    cases hft : f a t with
    | error d u =>
      rw [hft] at hsecond
      exact ⟨hsecond.1, hst.trans hsecond.2⟩
    | ok b u =>
      rw [hft] at hsecond
      obtain ⟨⟨hu, htu⟩, hb⟩ := hsecond
      exact ⟨⟨hu, hst.trans htu⟩, fun hclean => hb hclean s.tokens (ha (htu.clean hclean))⟩

/-- A derivation may be said with less. -/
theorem weaken {K : List Token → α → List Token → Prop} (hp : Derives Γ G p)
    (h : ∀ ts a rest, G ts a rest → K ts a rest) : Derives Γ K p := by
  intro s hs
  have hps := hp s hs
  generalize p s = result at hps
  cases result with
  | error d t => exact hps
  | ok a t => exact ⟨hps.1, fun hclean => h _ _ _ (hps.2 hclean)⟩

/-- What is left is the end of what there was. -/
theorem suffix (hp : Derives Γ G p) : Derives Γ (fun ts a rest => G ts a rest ∧ rest <:+ ts) p := by
  intro s hs
  have hps := hp s hs
  generalize p s = result at hps
  cases result with
  | error d t => exact hps
  | ok a t => exact ⟨hps.1, fun hclean => ⟨hps.2 hclean, hps.1.2.tokens⟩⟩

/-- What is read may be passed over. -/
theorem discard (hp : Derives Γ G p) :
    Derives Γ (fun ts _ rest => ∃ a, G ts a rest) (Functor.discard p) := by
  intro s hs
  have hps := hp s hs
  simp only [Functor.discard, Functor.mapConst, Function.comp_apply, EStateM.map]
  generalize p s = result at hps
  cases result with
  | error d t => exact hps
  | ok a t => exact ⟨hps.1, fun hclean => ⟨a, hps.2 hclean⟩⟩

theorem ite {b : Bool} {q : Parse α} (hp : b = true → Derives Γ G p)
    (hq : b = false → Derives Γ G q) : Derives Γ G (if b then p else q) := by
  cases b with
  | true => exact hp rfl
  | false => exact hq rfl

/-- The parser looks at the state that it is in. -/
theorem look {f : ParserState → Parse β}
    (h : ∀ s, s.scope = Γ → Derives Γ (fun ts b rest => ts = s.tokens → H ts b rest) (f s)) :
    Derives Γ H (MonadState.get >>= f) := by
  intro s hs
  have hfs := h s hs s hs
  show match f s s with
    | .ok b t => _
    | .error _ t => _
  generalize f s s = result at hfs
  cases result with
  | error d t => exact hfs
  | ok b t => exact ⟨hfs.1, fun hclean => hfs.2 hclean rfl⟩

/-- The parser reads over the token that it has looked at. -/
theorem take {s : ParserState} {l : Lexeme} (hnext : s.next? = some l) {f : Unit → Parse β}
    (h : Derives Γ (fun mid b rest => H (⟨l, s.line⟩ :: mid) b rest) (f ())) :
    Derives Γ (fun ts b rest => ts = s.tokens → H ts b rest) (Parse.advance >>= f) := by
  intro t ht
  have hft := h t.advance ht
  have hadvance : Further t t.advance := .skip (List.tail_suffix _)
  show match f () t.advance with
    | .ok b u => _
    | .error _ u => _
  generalize f () t.advance = result at hft
  cases result with
  | error d u => exact ⟨hft.1, hadvance.trans hft.2⟩
  | ok b u =>
    refine ⟨⟨hft.1.1, hadvance.trans hft.1.2⟩, ?_⟩
    intro hclean htokens
    have hmid : t.advance.tokens = s.advance.tokens := by
      simp only [ParserState.advance, htokens]
    rw [htokens, tokens_of_next hnext, ← hmid]
    exact hft.2 hclean

/-- After a report something is wrong for good. -/
theorem report (line : Nat) (problem : Problem) :
    Derives Γ (fun _ _ _ => False) (Parse.report line problem) := by
  intro s hs
  exact ⟨⟨hs, .report s _⟩, fun hclean => absurd hclean diagnostics_report_ne_nil⟩

theorem synchronize : Derives Γ (fun _ _ _ => True) Parse.synchronize := by
  intro s hs
  exact ⟨⟨hs, .skip (List.dropWhile_suffix _)⟩, fun _ => True.intro⟩

end Derives

/-! ## Single tokens -/

theorem derives_atLexeme (l : Lexeme) :
    Derives Γ (fun ts b rest => rest = ts ∧ (b = true ↔ IsNext l ts)) (atLexeme l) := by
  refine Derives.look fun s _ => .pure ?_
  rintro _ rfl
  exact ⟨rfl, beq_iff_eq⟩

/-- A lexeme is taken if it is next, and otherwise nothing is. -/
theorem derives_accept (l : Lexeme) :
    Derives Γ (fun ts b rest =>
        if b then ∃ n, ts = ⟨l, n⟩ :: rest else rest = ts ∧ ¬ IsNext l ts)
      (do if ← atLexeme l then Parse.advance; return true else return false) := by
  refine Derives.look fun s hs => ?_
  show Derives Γ _ (if (s.next? == some l) = true then _ else _)
  refine .ite ?_ ?_
  · intro h
    refine .take (beq_iff_eq.1 h) (.pure ?_)
    exact fun mid => ⟨s.line, rfl⟩
  · intro h
    refine .pure ?_
    rintro _ rfl
    exact ⟨rfl, beq_eq_false_iff_ne.1 h⟩

theorem derives_acceptSymbol (m : Symbol) :
    Derives Γ (fun ts b rest =>
        if b then ∃ n, ts = .mark m n :: rest else rest = ts ∧ ¬ IsNext (.symbol m) ts)
      (acceptSymbol m) :=
  derives_accept (.symbol m)

theorem derives_acceptKeyword (w : Keyword) :
    Derives Γ (fun ts b rest =>
        if b then ∃ n, ts = .word w n :: rest else rest = ts ∧ ¬ IsNext (.keyword w) ts)
      (acceptKeyword w) :=
  derives_accept (.keyword w)

section Behind

variable {l : Lexeme} {f : Bool → Parse β} {g : Unit → Parse β}

/-- What comes behind a token that may be there. -/
theorem Derives.accepting {accept : Parse Bool}
    (h : Derives Γ (fun ts b rest =>
      if b then ∃ n, ts = ⟨l, n⟩ :: rest else rest = ts ∧ ¬ IsNext l ts) accept)
    (htrue : Derives Γ (fun mid b rest => ∀ n, H (⟨l, n⟩ :: mid) b rest) (f true))
    (hfalse : Derives Γ (fun ts b rest => ¬ IsNext l ts → H ts b rest) (f false)) :
    Derives Γ H (accept >>= f) := by
  refine h.bind fun present => ?_
  cases present with
  | true =>
    refine htrue.weaken ?_
    rintro mid b rest h _ ⟨n, rfl⟩
    exact h n
  | false =>
    refine hfalse.weaken ?_
    rintro _ b rest h ts ⟨rfl, hnext⟩
    exact h hnext

theorem Derives.acceptSymbol {m : Symbol}
    (htrue : Derives Γ (fun mid b rest => ∀ n, H (.mark m n :: mid) b rest) (f true))
    (hfalse : Derives Γ (fun ts b rest => ¬ IsNext (.symbol m) ts → H ts b rest) (f false)) :
    Derives Γ H (Parse.acceptSymbol m >>= f) :=
  (derives_acceptSymbol m).accepting htrue hfalse

theorem Derives.acceptKeyword {w : Keyword}
    (htrue : Derives Γ (fun mid b rest => ∀ n, H (.word w n :: mid) b rest) (f true))
    (hfalse : Derives Γ (fun ts b rest => ¬ IsNext (.keyword w) ts → H ts b rest) (f false)) :
    Derives Γ H (Parse.acceptKeyword w >>= f) :=
  (derives_acceptKeyword w).accepting htrue hfalse

theorem derives_expectSymbol (m : Symbol) :
    Derives Γ (fun ts _ rest => ∃ n, ts = .mark m n :: rest) (expectSymbol m) := by
  refine .acceptSymbol (.pure ?_) (.unexpected _)
  exact fun mid n => ⟨n, rfl⟩

theorem derives_expectKeyword (w : Keyword) :
    Derives Γ (fun ts _ rest => ∃ n, ts = .word w n :: rest) (expectKeyword w) := by
  refine .acceptKeyword (.pure ?_) (.unexpected _)
  exact fun mid n => ⟨n, rfl⟩

/-- What comes behind a token that has to be there. -/
theorem Derives.expecting {expect : Parse Unit}
    (h : Derives Γ (fun ts _ rest => ∃ n, ts = ⟨l, n⟩ :: rest) expect)
    (hg : Derives Γ (fun mid b rest => ∀ n, H (⟨l, n⟩ :: mid) b rest) (g ())) :
    Derives Γ H (expect >>= g) := by
  refine h.bind fun _ => hg.weaken ?_
  rintro mid b rest h _ ⟨n, rfl⟩
  exact h n

theorem Derives.expectSymbol {m : Symbol}
    (h : Derives Γ (fun mid b rest => ∀ n, H (.mark m n :: mid) b rest) (g ())) :
    Derives Γ H (Parse.expectSymbol m >>= g) :=
  (derives_expectSymbol m).expecting h

theorem Derives.expectKeyword {w : Keyword}
    (h : Derives Γ (fun mid b rest => ∀ n, H (.word w n :: mid) b rest) (g ())) :
    Derives Γ H (Parse.expectKeyword w >>= g) :=
  (derives_expectKeyword w).expecting h

end Behind

/-- A plus sign that may be there, and that means nothing. -/
theorem derives_plus :
    Derives Γ (fun ts _ rest => ts = rest ∨ ∃ n, ts = .mark .plus n :: rest)
      (Functor.discard (acceptSymbol .plus)) := by
  refine (derives_acceptSymbol .plus).discard.weaken ?_
  rintro ts _ rest ⟨present, h⟩
  cases present with
  | true => exact .inr h
  | false => exact .inl h.1.symm

/-- A name is derived from its token. -/
theorem derives_identifier : Derives Γ NameAt identifier := by
  refine .look fun s hs => ?_
  split
  · rename_i hnext
    exact .take hnext (.pure fun mid => .name)
  · exact .unexpected _

/-- What is taken by a turn that yields an item or nothing. -/
def TurnAt (T : List Token → α → List Token → Prop) (ts : List Token) :
    Option α → List Token → Prop
  | some a, rest => T ts a rest
  | none, rest => rest = ts

/-- A phrase behind a symbol is derived if the symbol is there, and else nothing is taken. -/
theorem derives_afterSymbol? (m : Symbol) (hp : Derives Γ G p) :
    Derives Γ (TurnAt fun ts a rest => ∃ n mid, ts = .mark m n :: mid ∧ G mid a rest)
      (afterSymbol? m p) := by
  refine .acceptSymbol ?_ ?_
  · refine hp.bind fun a => .pure ?_
    exact fun rest mid ha n => ⟨n, mid, rfl, ha⟩
  · exact .pure fun ts _ => rfl

/-- So is a phrase behind a word. -/
theorem derives_afterKeyword? (w : Keyword) (hp : Derives Γ G p) :
    Derives Γ (fun ts o rest => match o with
        | some a => ∃ n mid, ts = .word w n :: mid ∧ G mid a rest
        | none => rest = ts ∧ ¬ IsNext (.keyword w) ts) (afterKeyword? w p) := by
  refine .acceptKeyword ?_ ?_
  · refine hp.bind fun a => .pure ?_
    exact fun rest mid ha n => ⟨n, mid, rfl, ha⟩
  · exact .pure fun ts hnext => ⟨rfl, hnext⟩

/-! ## Repetition and recovery -/

section Repetition

variable {T : List Token → α → List Token → Prop} {turn : Parse (Option α)}

/-- The last turn takes nothing, so it does not matter whether it was taken. -/
theorem derives_many
    (h : Derives Γ (TurnAt T) turn) : Derives Γ (RowAt T) (many turn) := by
  have hupTo (n : Nat) : Derives Γ (RowAt T) (manyUpTo turn n) := by
    induction n with
    | zero => exact .pure fun _ => .nil
    | succ n ih =>
      refine h.bind fun o => ?_
      cases o with
      | none =>
        refine .pure ?_
        rintro ts _ rfl
        exact .nil
      | some a =>
        refine ih.bind fun as => .pure ?_
        exact fun rest mid has ts ha => .cons ha has
  exact .look fun s _ => (hupTo s.tokens.length).weaken fun _ _ _ h _ => h

/-- A first item and a row of items with commas in front are items with commas between. -/
theorem commasAt_of_row {ts mid rest : List Token} {a : α} {as : List α} (ha : G ts a mid)
    (h : RowAt (fun ts a rest => ∃ n mid, ts = .mark .comma n :: mid ∧ G mid a rest) mid as rest) :
    CommasAt G ts (a :: as) rest := by
  induction h generalizing ts a with
  | nil => exact .one ha
  | cons hb _ ih =>
    obtain ⟨n, mid, rfl, hb⟩ := hb
    exact .more ha (ih hb)

end Repetition

theorem derives_commaList (hp : Derives Γ G p) : Derives Γ (CommasAt G) (commaList p) := by
  refine hp.bind fun first => ?_
  refine (derives_many (derives_afterSymbol? .comma hp)).bind fun others => .pure ?_
  exact fun rest mid hothers ts hfirst => commasAt_of_row hfirst hothers

/-- Arguments in parentheses are derived from what derives one of them. -/
theorem derives_parenthesized (hp : Derives Γ G p) :
    Derives Γ (ArgumentsAt G) (parenthesized p) := by
  refine .acceptSymbol (.acceptSymbol ?_ ?_) ?_
  · exact .pure fun ts m n => .none
  · refine (derives_commaList hp).bind fun as => .expectSymbol (.pure ?_)
    exact fun rest m ts has _ n => .some has
  · exact .pure fun ts _ => .absent

/-- A parser that stops leaves something recorded, so if nothing is, it did not stop. -/
theorem derives_recovering (hp : Derives Γ G p) :
    Derives Γ (fun ts o rest => ∃ a, o = some a ∧ G ts a rest) (recovering p) := by
  intro s hs
  have hps := hp s hs
  unfold recovering
  cases hpt : p s with
  | ok a t =>
    rw [hpt] at hps
    exact ⟨hps.1, fun hclean => ⟨a, rfl, hps.2 hclean⟩⟩
  | error d t =>
    rw [hpt] at hps
    have hskip : Further (t.report d) _ := .skip (List.dropWhile_suffix (!stopsSkipping ·.lexeme))
    refine ⟨⟨hps.1, hps.2.trans ((Further.report t d).trans hskip)⟩, ?_⟩
    exact fun hclean => absurd hclean diagnostics_report_ne_nil

/-! ## Numbers, constants and types -/

/-- A number that is in range. -/
theorem derives_inRange {line : Nat} {o : Option α} {f : α → Parse β}
    (h : ∀ a, o = some a → Derives Γ H (f a)) : Derives Γ H (inRange line o >>= f) := by
  cases o with
  | some a => exact h a rfl
  | none => exact .stop_bind _ _

/-- Digits with a value in range are a literal of it. -/
theorem literal_of_integerValue {digits : String} {n : Int} (h : integerValue? digits = some n) :
    Literal (.integer digits) (.integer n) := by
  unfold integerValue? at h
  simp only at h
  split at h
  · rename_i hle
    rw [← Option.some.inj h]
    exact .integer hle
  · exact nomatch h

/-- A numeral with a finite value is a literal of it. -/
theorem literal_of_realValue {numeral : String} {x : Float} (h : realValue? numeral = some x) :
    Literal (.real numeral) (.real x) := by
  unfold realValue? at h
  simp only at h
  split at h
  · rename_i hfinite
    rw [← Option.some.inj h]
    exact .real hfinite
  · exact nomatch h

/-- An integer is derived from its digits. -/
theorem derives_integerConstant :
    Derives Γ (fun ts i rest => ∃ l n, ts = ⟨l, n⟩ :: rest ∧ Literal l (.integer i))
      integerConstant := by
  refine .look fun s hs => ?_
  split
  · rename_i digits hnext
    refine .take hnext ?_
    cases hvalue : integerValue? digits with
    | some i => exact .pure fun rest => ⟨_, _, rfl, literal_of_integerValue hvalue⟩
    | none => exact .stop _ _
  · exact .unexpected _

/-- The value of a constant is derived with its sign. -/
theorem derives_constantValue : Derives Γ (ConstantAt Γ) constantValue := by
  refine .acceptSymbol ?_ ?_
  · -- Behind a minus sign stands a number.
    extract_lets signed
    rw [if_pos rfl]
    refine .look fun s _ => ?_
    split
    · rename_i hnext
      refine .take hnext (derives_inRange fun i hi => .pure ?_)
      exact fun rest n => .minusInteger (literal_of_integerValue hi)
    · rename_i hnext
      refine .take hnext (derives_inRange fun x hx => .pure ?_)
      exact fun rest n => .minusReal (literal_of_realValue hx)
    · exact .unexpected _
  · extract_lets unsigned
    rw [if_neg Bool.false_ne_true]
    have hunsigned : ∀ u, Derives Γ (UnsignedAt Γ) (unsigned u) := by
      intro u
      refine .look fun s hs => ?_
      split
      · rename_i hnext
        refine .take hnext (derives_inRange fun i hi => .pure ?_)
        exact fun rest => .literal (literal_of_integerValue hi)
      · rename_i hnext
        refine .take hnext (derives_inRange fun x hx => .pure ?_)
        exact fun rest => .literal (literal_of_realValue hx)
      · rw [if_neg Bool.false_ne_true]
        split
        · rename_i hnext
          exact .take hnext (.pure fun rest => .literal (.string _))
        · rename_i hnext
          exact .take hnext (.pure fun rest => .literal .true_)
        · rename_i hnext
          exact .take hnext (.pure fun rest => .literal .false_)
        · rename_i hnext
          split
          · rename_i v hv
            exact .take hnext (.pure fun rest => .name (hs ▸ hv))
          · exact .unexpected _
        · exact .unexpected _
    refine derives_plus.bind fun u => (hunsigned u).weaken ?_
    rintro mid v rest h ts (rfl | ⟨n, rfl⟩) -
    · exact .unsigned h
    · exact .plus h

/-- The word of a type. -/
theorem keyword_of_type? {w : Keyword} {type : PascalType} (h : w.type? = some type) :
    w = type.keyword := by
  unfold Keyword.type? at h
  split at h
  case h_6 => exact nomatch h
  all_goals
    obtain rfl := Option.some.inj h
    rfl

/-- An unknown type is recorded, and so are brackets without a number between them. -/
theorem derives_typeName : Derives Γ TypeAt typeName := by
  refine .look fun s _ => ?_
  split
  · rename_i w hnext
    split
    · rename_i type htype
      obtain rfl := keyword_of_type? htype
      refine .take hnext ?_
      extract_lets done
      have hword (u) : Derives Γ
          (fun mid t rest => TypeAt (.word type.keyword s.line :: mid) t rest) (done u) :=
        .pure fun rest => .word
      -- Only a string may have brackets behind it.
      by_cases hstring : type = .string
      · subst hstring
        rw [if_pos rfl]
        refine .acceptSymbol ?_ ((hword ()).weaken fun _ _ _ h _ => h)
        rw [if_pos rfl]
        refine derives_integerConstant.discard.bind fun _ => .expectSymbol ?_
        refine .pure ?_
        rintro rest j _ ⟨i, l, k, rfl, hl⟩ m
        exact .bounded hl
      · rw [if_neg hstring]
        exact hword ()
    · exact .unexpected _
  · rename_i x hnext
    refine .take hnext ?_
    refine (Derives.report _ _).bind fun _ => .pure ?_
    exact fun rest ts h => h.elim
  · exact .unexpected _

end Rules

end TurboBench.Pascal
