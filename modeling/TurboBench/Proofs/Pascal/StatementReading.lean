import TurboBench.Proofs.Pascal.ExpressionReading

/-!
# Statements are read as they were written

A statement is read back in front of any lexeme that can stand behind it (`EndsStatement`). What can
stand there depends on the statement in one respect: behind one that ends in a conditional without
`else`, an `else` would be read as part of it. Well-formed trees have no such statement before an
`else`, and inside a case the semicolon behind each branch keeps an open conditional from the `else`
of the case.

There is one lemma for each kind of statement, about the statement and its parts; the induction
over trees that puts them together is at the end.
-/

set_option autoImplicit false

namespace TurboBench.Pascal

open Parse
open Written (of)

/-! ## What stands behind a statement -/

/-- Whether a lexeme can stand behind a statement, which may end in a conditional without `else`. -/
def closesStatement (endsOpen : Bool) : Lexeme → Bool
  | .symbol .semicolon | .keyword .end_ | .keyword .until_ => true
  | .keyword .else_ => !endsOpen
  | _ => false

/-- What can stand behind a statement. -/
def EndsStatement (endsOpen : Bool) (ls : List Lexeme) : Prop :=
  ∃ l ks, ls = l :: ks ∧ closesStatement endsOpen l = true

/-- What can stand behind the statements of a list. -/
def EndsList (ls : List Lexeme) : Prop :=
  ∃ l ks, ls = l :: ks ∧ (l = .keyword .end_ ∨ l = .keyword .until_)

theorem EndsStatement.of_closes {endsOpen : Bool} {l : Lexeme}
    (h : closesStatement endsOpen l = true) (ls : List Lexeme) : EndsStatement endsOpen (l :: ls) :=
  ⟨l, ls, rfl, h⟩

/-- What can stand behind a statement can stand behind an expression. -/
theorem EndsStatement.endsExpression {endsOpen : Bool} {ls : List Lexeme}
    (h : EndsStatement endsOpen ls) : EndsExpression ls := by
  obtain ⟨l, ks, rfl, hl⟩ := h
  refine .of_closes ?_ ks
  -- a semicolon, `end`, `until` or `else`, none of which is an operator or a parenthesis
  unfold closesStatement at hl
  split at hl
  · rfl
  · rfl
  · rfl
  · rfl
  · exact absurd hl Bool.false_ne_true

/-- An `else` does no harm behind a statement that is not open. -/
theorem EndsStatement.closed {ls : List Lexeme} (h : EndsStatement true ls) (endsOpen : Bool) :
    EndsStatement endsOpen ls := by
  obtain ⟨l, ks, rfl, hl⟩ := h
  refine .of_closes ?_ ks
  unfold closesStatement at hl ⊢
  split at hl <;> first | rfl | exact absurd hl Bool.false_ne_true

/-- No `else` stands behind a statement that ends in an open conditional. -/
theorem EndsStatement.not_else {ls : List Lexeme} (h : EndsStatement true ls) :
    ls.head? ≠ some (.keyword .else_) := by
  obtain ⟨l, ks, rfl, hl⟩ := h
  rintro hhead
  rw [Option.some.inj hhead] at hl
  exact absurd hl (by decide)

theorem EndsList.endsStatement {ls : List Lexeme} (h : EndsList ls) (endsOpen : Bool) :
    EndsStatement endsOpen ls := by
  obtain ⟨l, ks, rfl, rfl | rfl⟩ := h <;> exact .of_closes rfl ks

/-! ## Names -/

section Names

variable {s : ParserState} {declared : String → Prop}

/-- A declared variable can be assigned to, and nothing is read for that. -/
theorem reads_assignable (hs : s.Knows declared) {n : String} (hn : declared n)
    {ls : List Lexeme} : Reads s (assignable ⟨n, 1⟩) ls n ls := by
  have hkey : Name.key ⟨n, 1⟩ = n := foldName_of_isName (hs.isName n hn)
  have hconstant : (s.before ls).isConstant n = false := by
    have hlookup : (s.before ls).constants.lookup n = none := hs.notConstant n hn
    rw [ParserState.isConstant, hlookup]
    rfl
  have hvariable : (s.before ls).isVariable n = true := hs.isVariable n hn
  refine Reads.get ?_
  rw [hkey, hconstant, hvariable]
  exact Reads.pure

end Names

/-! ## Constants -/

section Constants

variable {s : ParserState} {v : Value} {ls : List Lexeme}

theorem unsigned_ne_sign (v : Value) :
    v.unsigned ≠ .symbol .minus ∧ v.unsigned ≠ .symbol .plus := by
  cases v <;> exact ⟨nofun, nofun⟩

/-- A negative constant is read back from its minus sign and its numeral. -/
theorem reads_constantValue_negative (h : v.IsConstant) (hsign : v.isNegative = true) :
    Reads s constantValue (.symbol .minus :: v.unsigned :: ls) v ls := by
  refine Reads.bind (reads_acceptSymbol .minus) ?_
  -- Behind the sign stands the magnitude, and only numbers have a sign.
  cases v with
  | integer n =>
    have hn : -(n.natAbs : Int) = n := by
      have hneg : n < 0 := of_decide_eq_true hsign
      omega
    have hvalue := reads_inRange_integer (s := s) h 1 ls
    refine Reads.get (Reads.advance (Reads.bind hvalue ?_))
    rw [if_pos rfl, hn]
    exact Reads.pure
  | real x =>
    have hx := Decimal.signed_abs x
    rw [show Decimal.signBit x = true from hsign] at hx
    have hvalue := reads_inRange_real (s := s) h 1 ls
    refine Reads.get (Reads.advance (Reads.bind hvalue ?_))
    rw [hx]
    exact Reads.pure
  | boolean b => exact absurd hsign Bool.false_ne_true
  | text t => exact absurd hsign Bool.false_ne_true

/-- A constant that is not negative is read back from a single lexeme. -/
theorem reads_constantValue_unsigned (h : v.IsConstant) (hsign : v.isNegative = false) :
    Reads s constantValue (v.unsigned :: ls) v ls := by
  have hminus : (v.unsigned :: ls).head? ≠ some (.symbol .minus) := fun hhead =>
    (unsigned_ne_sign v).1 (Option.some.inj hhead)
  have hplus : (v.unsigned :: ls).head? ≠ some (.symbol .plus) := fun hhead =>
    (unsigned_ne_sign v).2 (Option.some.inj hhead)
  refine Reads.bind (reads_acceptSymbol_not hminus) ?_
  refine Reads.bind (Reads.discard (reads_acceptSymbol_not hplus)) ?_
  cases v with
  | integer n =>
    have hvalue := reads_inRange_integer (s := s) h 1 ls
    refine Reads.get (Reads.advance (Reads.bind hvalue ?_))
    rw [if_neg Bool.false_ne_true, Value.natAbs_of_not_negative hsign]
    exact Reads.pure
  | real x =>
    have hvalue := reads_inRange_real (s := s) h 1 ls
    refine Reads.get (Reads.advance (Reads.bind hvalue ?_))
    rw [if_neg Bool.false_ne_true, Value.abs_of_not_negative hsign]
    exact Reads.pure
  | boolean b => cases b <;> exact Reads.get (Reads.advance Reads.pure)
  | text t => exact Reads.get (Reads.advance Reads.pure)

/-- A written constant is read back, negative or not. -/
theorem reads_constantValue (h : v.IsConstant) :
    Reads s constantValue (v.lexemes ++ ls) v ls := by
  cases hsign : v.isNegative with
  | true =>
    rw [Value.lexemes, if_pos hsign]
    exact reads_constantValue_negative h hsign
  | false =>
    rw [Value.lexemes, if_neg (Bool.eq_false_iff.1 hsign)]
    exact reads_constantValue_unsigned h hsign

end Constants

/-! ## Lists in parentheses -/

section Parenthesized

variable {α β : Type} {s : ParserState} {item : Parse α} {write : β → Written} {value : β → α}
  {follow : List Lexeme → Prop} {rest : List Lexeme} {bs : List β}

/-- Arguments are read in parentheses, and without arguments nothing is read. -/
theorem reads_parenthesized
    (hitem : ∀ b ∈ bs, ∀ ls, follow ls → Reads s item ((write b).lexemes ++ ls) (value b) ls)
    (hhead : ∀ b ∈ bs, ∀ ls, ((write b).lexemes ++ ls).head? ≠ some (.symbol .closeParen))
    (hcomma : ∀ ls, follow (.symbol .comma :: ls))
    (hparen : follow (.symbol .closeParen :: rest)) (hrest : EndsFactor rest) :
    Reads s (parenthesized item) ((Written.arguments (bs.map write)).lexemes ++ rest)
      (bs.map value) rest := by
  cases bs with
  | nil => exact Reads.bind (reads_acceptSymbol_not hrest) Reads.pure
  | cons b bs =>
    -- The parser first asks for a closing parenthesis, so no item may begin with one.
    have hitems := reads_commaList hitem hcomma hparen (by simp) (List.cons_ne_nil b bs)
    have hnot : (separated (.symbol .comma) ((b :: bs).map fun c => (write c).lexemes)
        ++ .symbol .closeParen :: rest).head? ≠ some (.symbol .closeParen) := by
      rw [List.map_cons, separated_cons, List.append_assoc]
      exact hhead b List.mem_cons_self _
    have hlexemes : (Written.arguments ((b :: bs).map write)).lexemes ++ rest
        = .symbol .openParen :: (separated (.symbol .comma)
            ((b :: bs).map fun c => (write c).lexemes) ++ .symbol .closeParen :: rest) := by
      simp [Written.arguments, Written.joined, Function.comp_def]
    rw [hlexemes]
    refine Reads.bind (reads_acceptSymbol .openParen) ?_
    rw [if_pos rfl]
    refine Reads.bind (reads_acceptSymbol_not hnot) ?_
    rw [if_neg Bool.false_ne_true]
    exact Reads.bind hitems (Reads.bind (reads_expectSymbol .closeParen) Reads.pure)

end Parenthesized

/-- No expression begins with a closing parenthesis. -/
theorem Expr.head_rendered (e : Expr) (place : Place) :
    ∃ l ls, (e.rendered place).lexemes = l :: ls ∧ l ≠ .symbol .closeParen := by
  induction e generalizing place with
  | literal v line => exact ⟨v.unsigned, [], rfl, by cases v <;> simp [Value.unsigned]⟩
  | «variable» n line => exact ⟨_, [], rfl, by simp⟩
  | unary op e line ih =>
    cases op with
    | negate => cases place <;> exact ⟨_, _, rfl, by simp⟩
    | not => exact ⟨_, _, rfl, by simp⟩
  | binary op l r line ihl ihr =>
    -- With or without parentheses around the whole, it begins as its left operand or with one.
    have hleft (place : Place) (w : Written) : ∃ k ks,
        (l.rendered place ++ of [op.lexeme] ++ w).lexemes = k :: ks
          ∧ k ≠ .symbol .closeParen := by
      obtain ⟨k, ks, hk, hne⟩ := ihl place
      refine ⟨k, ks ++ [op.lexeme] ++ w.lexemes, ?_, hne⟩
      rw [Written.lexemes_append, Written.lexemes_append, hk]
      rfl
    simp only [Expr.rendered]
    cases op.class <;> simp only <;> split <;> first | exact hleft _ _ | exact ⟨_, _, rfl, by simp⟩
  | call f e line ih => exact ⟨_, _, rfl, by simp⟩

theorem Expr.head_written (e : Expr) (ls : List Lexeme) :
    (e.written.lexemes ++ ls).head? ≠ some (.symbol .closeParen) := by
  obtain ⟨l, ks, hl, hne⟩ := e.head_rendered .expression
  rw [Expr.written, Written.lexemes_deeper, hl]
  exact fun hhead => hne (Option.some.inj hhead)

/-! ## Write items -/

section WriteItems

variable {s : ParserState} {declared : String → Prop}

/-- A write item is read in front of anything that ends an expression and is no colon. -/
theorem reads_writeItem (hs : s.Knows declared) {item : WriteItem} (h : item.WellFormed declared)
    {d : Nat} (hd : item.written.depth ≤ d) {rest : List Lexeme}
    (hrest : EndsExpression rest ∧ rest.head? ≠ some (.symbol .colon)) :
    Reads s (writeItem (expression d)) (item.written.lexemes ++ rest) (item.onLine 1) rest := by
  have hcolon (ls : List Lexeme) : EndsExpression (.symbol .colon :: ls) := .of_closes rfl ls
  obtain ⟨value, width, decimals⟩ := item
  obtain ⟨hvalue, hwidth, hdecimals, hboth⟩ := h
  simp only at hvalue
  cases width with
  | none =>
    -- decimals are written behind a width only
    cases decimals with
    | some e => exact nomatch hboth rfl
    | none =>
      refine Reads.bind (reads_expression hs hvalue hd hrest.1) ?_
      exact Reads.bind (reads_acceptSymbol_not hrest.2) Reads.pure
  | some w =>
    have hw := hwidth w rfl
    cases decimals with
    | none =>
      simp only [WriteItem.written, Written.depth_append, Written.depth_of] at hd
      simp only [WriteItem.written, Written.lexemes_append, Written.lexemes_of, List.append_assoc,
        List.singleton_append]
      refine Reads.bind (reads_expression hs hvalue (by omega) (hcolon _)) ?_
      refine Reads.bind (reads_acceptSymbol .colon) ?_
      rw [if_pos rfl]
      refine Reads.bind (reads_expression hs hw (by omega) hrest.1) ?_
      exact Reads.bind (reads_afterSymbol_not _ hrest.2) Reads.pure
    | some e =>
      have he := hdecimals e rfl
      simp only [WriteItem.written, Written.depth_append, Written.depth_of] at hd
      simp only [WriteItem.written, Written.lexemes_append, Written.lexemes_of, List.append_assoc,
        List.singleton_append]
      refine Reads.bind (reads_expression hs hvalue (by omega) (hcolon _)) ?_
      refine Reads.bind (reads_acceptSymbol .colon) ?_
      rw [if_pos rfl]
      refine Reads.bind (reads_expression hs hw (by omega) (hcolon _)) ?_
      exact Reads.bind (reads_afterSymbol (reads_expression hs he (by omega) hrest.1)) Reads.pure

/-- No written item begins with a closing parenthesis. -/
theorem WriteItem.head_written (item : WriteItem) (ls : List Lexeme) :
    (item.written.lexemes ++ ls).head? ≠ some (.symbol .closeParen) := by
  obtain ⟨value, width, decimals⟩ := item
  have hvalue := value.head_written
  cases width with
  | none => exact hvalue ls
  | some w =>
    cases decimals with
    | none =>
      simp only [WriteItem.written, Written.lexemes_append, List.append_assoc]
      exact hvalue _
    | some e =>
      simp only [WriteItem.written, Written.lexemes_append, List.append_assoc]
      exact hvalue _

end WriteItems

/-! ## Statement lists -/

/-- A statement is read back in front of what can stand behind it. -/
def Statement.ReadBack (s : ParserState) (st : Statement) : Prop :=
  ∀ ⦃d : Nat⦄ ⦃rest : List Lexeme⦄, st.written.depth ≤ d → EndsStatement st.endsOpen rest →
    Reads s (statement d) (st.written.lexemes ++ rest) (st.onLine 1) rest

section Lists

variable {s : ParserState} {p : Parse Statement} {st t : Statement} {ls rest : List Lexeme}

theorem reads_statementTurn_semicolon (h : Reads s p ls t (.symbol .semicolon :: rest)) :
    Reads s (statementTurn p) ls (some t, true) rest :=
  Reads.bind (reads_recovering h) (Reads.bind (reads_acceptSymbol .semicolon) Reads.pure)

/-- The last statement of a list is read, and no turn follows it. -/
theorem reads_statementTurn_last (h : Reads s p ls t rest) (hrest : EndsList rest) :
    Reads s (statementTurn p) ls (some t, false) rest := by
  obtain ⟨l, ks, rfl, hl⟩ := hrest
  have hnot : (l :: ks).head? ≠ some (.symbol .semicolon) := by
    rcases hl with rfl | rfl <;> exact nofun
  refine Reads.bind (reads_recovering h) (Reads.bind (reads_acceptSymbol_not hnot) ?_)
  rcases hl with rfl | rfl <;> exact Reads.get Reads.pure

/-- There are not more statements than lexemes. -/
theorem length_le_writtenBehind (ss : List Statement) :
    ss.length ≤ (writtenBehind ss).lexemes.length := by
  induction ss with
  | nil => exact Nat.le_refl 0
  | cons st ss ih =>
    simp only [writtenBehind, Written.lexemes_append, Written.lexemes_of, List.length_append,
      List.length_cons, List.length_nil]
    omega

/-- A statement and those behind it, in as many turns as there are statements. -/
theorem reads_statementsUpTo {ss : List Statement} (hst : st.ReadBack s)
    (hss : ∀ t ∈ ss, t.ReadBack s) {d : Nat} (hd : st.written.depth ≤ d)
    (hds : (writtenBehind ss).depth ≤ d) (hrest : EndsList rest) {n : Nat} (hn : ss.length < n) :
    Reads s (statementsUpTo (statement d) n)
      (st.written.lexemes ++ ((writtenBehind ss).lexemes ++ rest)) (onLineAll 1 (st :: ss))
      rest := by
  -- on the statements behind the first one; `n` has a turn for each of them and one for the first
  induction ss generalizing st n with
  | nil =>
    obtain ⟨n, rfl⟩ := Nat.exists_eq_succ_of_ne_zero (Nat.ne_zero_of_lt hn)
    have hturn := reads_statementTurn_last (hst hd (hrest.endsStatement _)) hrest
    exact Reads.bind hturn (Reads.bind Reads.pure Reads.pure)
  | cons t ss ih =>
    obtain ⟨n, rfl⟩ := Nat.exists_eq_succ_of_ne_zero (Nat.ne_zero_of_lt hn)
    simp only [writtenBehind, Written.depth_append, Written.depth_of] at hds
    have hothers := ih (hss t List.mem_cons_self) (fun u hu => hss u (List.mem_cons_of_mem t hu))
      (by omega) (by omega) (Nat.lt_of_succ_lt_succ hn)
    have hturn := reads_statementTurn_semicolon (hst hd (.of_closes rfl
      (t.written.lexemes ++ ((writtenBehind ss).lexemes ++ rest))))
    simp only [writtenBehind, Written.lexemes_append, Written.lexemes_of, List.append_assoc,
      List.singleton_append]
    exact Reads.bind hturn (Reads.bind hothers Reads.pure)

/-- The statements of a list are read up to the word that closes it. -/
theorem reads_statementList {ss : List Statement} (hne : ss ≠ []) (hss : ∀ t ∈ ss, t.ReadBack s)
    {d : Nat} (hd : (writtenAll ss).depth ≤ d) (hrest : EndsList rest) :
    Reads s (statementList (statement d)) ((writtenAll ss).lexemes ++ rest) (onLineAll 1 ss)
      rest := by
  obtain ⟨st, ss, rfl⟩ := List.exists_cons_of_ne_nil hne
  have hlength := length_le_writtenBehind ss
  simp only [writtenAll, Written.depth_append] at hd
  simp only [writtenAll, Written.lexemes_append, List.append_assoc]
  refine Reads.get ?_
  -- The parser allows as many turns as there are tokens, and one more.
  refine reads_statementsUpTo (hss st List.mem_cons_self)
    (fun t ht => hss t (List.mem_cons_of_mem st ht)) (by omega) (by omega) hrest ?_
  simp only [length_tokens_before, List.length_append]
  omega

end Lists

/-! ## Branches of a case -/

section Branches

variable {s : ParserState}

/-- A branch that is read back: it has labels, all of them constants. -/
def BranchReadBack (s : ParserState) (b : List Value × Statement) : Prop :=
  (b.1 ≠ [] ∧ ∀ v ∈ b.1, v.IsConstant) ∧ b.2.ReadBack s

/-- A written constant has a first lexeme, which is neither `end` nor `else`. -/
theorem Value.head_lexemes (v : Value) :
    ∃ l ls, v.lexemes = l :: ls ∧ l ≠ .keyword .end_ ∧ l ≠ .keyword .else_ := by
  cases hsign : v.isNegative with
  | true => exact ⟨_, _, if_pos hsign, nofun, nofun⟩
  | false =>
    refine ⟨_, _, if_neg (Bool.eq_false_iff.1 hsign), ?_, ?_⟩
    · cases v with
      | boolean b => cases b <;> exact nofun
      | _ => exact nofun
    · cases v with
      | boolean b => cases b <;> exact nofun
      | _ => exact nofun

/-- The written labels of a branch are read back. -/
theorem reads_labels {labels : List Value} (hne : labels ≠ []) (h : ∀ v ∈ labels, v.IsConstant)
    (ls : List Lexeme) :
    Reads s (commaList constantValue)
      (separated (.symbol .comma) (labels.map (·.lexemes)) ++ .symbol .colon :: ls) labels
      (.symbol .colon :: ls) := by
  have hitem : ∀ v ∈ labels, ∀ ks, True → Reads s constantValue (v.lexemes ++ ks) (id v) ks :=
    fun v hv ks _ => reads_constantValue (h v hv)
  have hstop : (Lexeme.symbol .colon :: ls).head? ≠ some (.symbol .comma) := by simp
  have hlist := reads_commaList hitem (fun _ => trivial) trivial hstop hne
  rwa [List.map_id] at hlist

/-- A written branch is read back, with the semicolon behind it. -/
theorem reads_caseBranch {b : List Value × Statement} (h : BranchReadBack s b) {d : Nat}
    (hd : b.2.written.depth ≤ d) (rest : List Lexeme) :
    Reads s (caseBranch? (statement d))
      (separated (.symbol .comma) (b.1.map (·.lexemes))
        ++ .symbol .colon :: (b.2.written.lexemes ++ .symbol .semicolon :: rest))
      (some (b.1, b.2.onLine 1)) rest := by
  obtain ⟨labels, st⟩ := b
  obtain ⟨⟨hne, hconstant⟩, hst⟩ := h
  have hends : EndsStatement st.endsOpen (.symbol .semicolon :: rest) := .of_closes rfl rest
  have hbody := hst hd hends
  obtain ⟨v, vs, rfl⟩ := List.exists_cons_of_ne_nil hne
  -- What decides on a further branch is the first lexeme of its first label.
  obtain ⟨l, ls, hl, hend, helse⟩ := v.head_lexemes
  refine Reads.get ?_
  rw [next?_before, List.map_cons, separated_cons, hl]
  split
  · rename_i hnone
    exact nomatch hnone
  · rename_i hsome
    exact absurd (Option.some.inj hsome) hend
  · rename_i hsome
    exact absurd (Option.some.inj hsome) helse
  · rw [← hl, ← separated_cons, ← List.map_cons]
    refine Reads.bind (reads_labels hne hconstant _) (Reads.bind (reads_expectSymbol .colon) ?_)
    exact Reads.bind hbody (Reads.bind (reads_acceptSymbol .semicolon) Reads.pure)

/-- The branches of a case are read up to its `else` or its end. -/
theorem turns_caseBranches {bs : List (List Value × Statement)}
    (h : ∀ b ∈ bs, BranchReadBack s b) {d : Nat} (hd : (writtenBranches bs).depth ≤ d)
    {l : Lexeme} (hl : l = .keyword .end_ ∨ l = .keyword .else_) (ls : List Lexeme) :
    Turns (caseBranch? (statement d)) (s.before ((writtenBranches bs).lexemes ++ l :: ls))
      (onLineBranches 1 bs) (s.before (l :: ls)) := by
  induction bs with
  | nil =>
    refine .stop ?_
    rcases hl with rfl | rfl <;> exact Reads.get Reads.pure
  | cons b bs ih =>
    obtain ⟨labels, st⟩ := b
    simp only [writtenBranches, Written.depth_append, Written.depth_of] at hd
    have hturn := reads_caseBranch (h _ List.mem_cons_self) (d := d) (by simp only; omega)
      ((writtenBranches bs).lexemes ++ l :: ls)
    have hbs := ih (fun b hb => h b (List.mem_cons_of_mem _ hb)) (by omega)
    have hlexemes : (writtenBranches ((labels, st) :: bs)).lexemes ++ l :: ls
        = separated (.symbol .comma) (labels.map (·.lexemes)) ++ .symbol .colon
          :: (st.written.lexemes ++ .symbol .semicolon
            :: ((writtenBranches bs).lexemes ++ l :: ls)) := by
      simp [writtenBranches]
    rw [hlexemes]
    refine .more hturn ?_ hbs
    simp only [length_tokens_before, List.length_append, List.length_cons]
    omega

end Branches

/-! ## Each kind of statement -/

section Kinds

variable {s : ParserState} {declared : String → Prop}

/-- A statement opens one level, and its parts are read with one level less. -/
theorem Statement.ReadBack.of_parts {st : Statement} {w : Written} (hw : st.written = w.deeper)
    (h : ∀ d rest, w.depth ≤ d → EndsStatement st.endsOpen rest →
      Reads s (statementWith (expression d) (statement d)) (w.lexemes ++ rest) (st.onLine 1) rest) :
    st.ReadBack s := by
  intro d rest hd hrest
  rw [hw, Written.depth_deeper] at hd
  rw [hw, Written.lexemes_deeper]
  cases d with
  | zero => omega
  | succ d =>
    rw [statement]
    exact h d rest (by omega) hrest

/-- A written assignment is read back. -/
theorem readBack_assign (hs : s.Knows declared) {n : String} (hn : declared n) {e : Expr}
    (he : e.WellFormed declared) (line : Nat) : (Statement.assign n e line).ReadBack s := by
  refine .of_parts rfl fun d rest hd hrest => ?_
  simp only [Written.depth_append, Written.depth_of] at hd
  simp only [Written.lexemes_append, Written.lexemes_of, List.cons_append, List.nil_append]
  refine Reads.get (Reads.advance (Reads.bind (reads_acceptSymbol .assign) ?_))
  rw [if_pos rfl]
  refine Reads.bind (reads_assignable hs hn) ?_
  exact Reads.bind (reads_expression hs he (by omega) hrest.endsExpression) Reads.pure

/-- A written `write` or `writeln` is read back, with its items. -/
theorem readBack_write (hs : s.Knows declared) {items : List WriteItem}
    (h : ∀ item ∈ items, item.WellFormed declared) (newline : Bool) (line : Nat) :
    (Statement.write newline items line).ReadBack s := by
  refine .of_parts rfl fun d rest hd hrest => ?_
  simp only [Written.depth_append, Written.depth_of] at hd
  have hdepth {item : WriteItem} (hitem : item ∈ items) : item.written.depth ≤ d := by
    have hle := Written.depth_le_arguments (List.mem_map_of_mem (f := (·.written)) hitem)
    omega
  have hitems := reads_parenthesized
    (fun item hitem _ => reads_writeItem hs (h item hitem) (hdepth hitem))
    (fun item _ => item.head_written) (fun ls => ⟨.of_closes rfl ls, by simp⟩)
    ⟨.of_closes rfl rest, by simp⟩ hrest.endsExpression.factor
  simp only [Written.lexemes_append, Written.lexemes_of, List.cons_append, List.nil_append]
  cases newline <;> exact Reads.get (Reads.advance (Reads.bind hitems Reads.pure))

/-- A written `read` or `readln` is read back, with its targets. -/
theorem readBack_read (hs : s.Knows declared) {targets : List String}
    (h : ∀ n ∈ targets, declared n) (newline : Bool) (line : Nat) :
    (Statement.read newline targets line).ReadBack s := by
  refine .of_parts rfl fun d rest hd hrest => ?_
  have hitem : ∀ n ∈ targets, ∀ ls, True →
      Reads s (identifier >>= assignable) ((of [.identifier n]).lexemes ++ ls) (id n) ls :=
    fun n hn ls _ => Reads.bind (reads_identifier n) (reads_assignable hs (h n hn))
  have hitems := reads_parenthesized hitem (fun n _ ls => nofun) (fun _ => trivial) trivial
    hrest.endsExpression.factor
  rw [List.map_id] at hitems
  simp only [Written.lexemes_append, Written.lexemes_of, List.cons_append, List.nil_append]
  cases newline <;> exact Reads.get (Reads.advance (Reads.bind hitems Reads.pure))

/-- A written conditional without `else` is read back, if its body is. -/
theorem readBack_ifThen (hs : s.Knows declared) {c : Expr} (hc : c.WellFormed declared)
    {t : Statement} (ht : t.ReadBack s) (line : Nat) :
    (Statement.ifThen c t none line).ReadBack s := by
  refine .of_parts rfl fun d rest hd hrest => ?_
  simp only [Written.depth_append, Written.depth_of] at hd
  simp only [Written.lexemes_append, Written.lexemes_of, List.append_assoc, List.cons_append,
    List.nil_append]
  refine Reads.get (Reads.advance ?_)
  refine Reads.bind (reads_expression hs hc (by omega) (.of_closes rfl _)) ?_
  refine Reads.bind (reads_expectKeyword .then_) ?_
  -- The conditional is open itself, so `rest` has no `else` that its branch could take.
  refine Reads.bind (ht (by omega) (hrest.closed _)) ?_
  exact Reads.bind (reads_afterKeyword_not _ hrest.not_else) Reads.pure

/-- An `else` goes with its own conditional if no open one stands before it. -/
theorem readBack_ifThenElse (hs : s.Knows declared) {c : Expr} (hc : c.WellFormed declared)
    {t e : Statement} (ht : t.ReadBack s) (hclosed : t.endsOpen = false) (he : e.ReadBack s)
    (line : Nat) : (Statement.ifThen c t (some e) line).ReadBack s := by
  refine .of_parts rfl fun d rest hd hrest => ?_
  simp only [Written.depth_append, Written.depth_of] at hd
  simp only [Written.lexemes_append, Written.lexemes_of, List.append_assoc, List.cons_append,
    List.nil_append]
  -- the one place where something is asked of a statement because of what stands behind it
  have helse : EndsStatement t.endsOpen (.keyword .else_ :: (e.written.lexemes ++ rest)) := by
    rw [hclosed]
    exact .of_closes rfl _
  refine Reads.get (Reads.advance ?_)
  refine Reads.bind (reads_expression hs hc (by omega) (.of_closes rfl _)) ?_
  refine Reads.bind (reads_expectKeyword .then_) ?_
  refine Reads.bind (ht (by omega) helse) ?_
  exact Reads.bind (reads_afterKeyword (he (by omega) hrest)) Reads.pure

/-- A written `while` loop is read back, if its body is. -/
theorem readBack_whileDo (hs : s.Knows declared) {c : Expr} (hc : c.WellFormed declared)
    {b : Statement} (hb : b.ReadBack s) (line : Nat) :
    (Statement.whileDo c b line).ReadBack s := by
  refine .of_parts rfl fun d rest hd hrest => ?_
  simp only [Written.depth_append, Written.depth_of] at hd
  simp only [Written.lexemes_append, Written.lexemes_of, List.append_assoc, List.cons_append,
    List.nil_append]
  refine Reads.get (Reads.advance ?_)
  refine Reads.bind (reads_expression hs hc (by omega) (.of_closes rfl _)) ?_
  refine Reads.bind (reads_expectKeyword .do_) ?_
  exact Reads.bind (hb (by omega) hrest) Reads.pure

/-- A written `repeat` loop is read back, if its statements are. -/
theorem readBack_repeatUntil (hs : s.Knows declared) {c : Expr} (hc : c.WellFormed declared)
    {b : List Statement} (hne : b ≠ []) (hb : ∀ st ∈ b, st.ReadBack s) (line : Nat) :
    (Statement.repeatUntil b c line).ReadBack s := by
  refine .of_parts rfl fun d rest hd hrest => ?_
  simp only [Written.depth_append, Written.depth_of] at hd
  simp only [Written.lexemes_append, Written.lexemes_of, List.append_assoc, List.cons_append,
    List.nil_append]
  refine Reads.get (Reads.advance ?_)
  refine Reads.bind (reads_statementList hne hb (by omega) ⟨_, _, rfl, .inr rfl⟩) ?_
  refine Reads.bind (reads_expectKeyword .until_) ?_
  exact Reads.bind (reads_expression hs hc (by omega) hrest.endsExpression) Reads.pure

/-- The written direction of a counting loop is read back. -/
theorem reads_direction (down : Bool) (ls : List Lexeme) :
    Reads s direction (.keyword (if down then .downto else .to_) :: ls) down ls := by
  cases down with
  | false => exact Reads.bind (reads_acceptKeyword .to_) Reads.pure
  | true =>
    have hnot : (Lexeme.keyword .downto :: ls).head? ≠ some (.keyword .to_) := by simp
    exact Reads.bind (reads_acceptKeyword_not hnot)
      (Reads.bind (reads_acceptKeyword .downto) Reads.pure)

/-- A written counting loop is read back, if its body is. -/
theorem readBack_forTo (hs : s.Knows declared) {n : String} (hn : declared n) {first last : Expr}
    (hfirst : first.WellFormed declared) (hlast : last.WellFormed declared) {b : Statement}
    (hb : b.ReadBack s) (down : Bool) (line : Nat) :
    (Statement.forTo n first last down b line).ReadBack s := by
  refine .of_parts rfl fun d rest hd hrest => ?_
  simp only [Written.depth_append, Written.depth_of] at hd
  simp only [Written.lexemes_append, Written.lexemes_of, List.append_assoc, List.cons_append,
    List.nil_append]
  have hends (ls : List Lexeme) :
      EndsExpression (.keyword (if down then .downto else .to_) :: ls) := by
    cases down <;> exact .of_closes rfl ls
  refine Reads.get (Reads.advance (Reads.bind (reads_identifier n) ?_))
  refine Reads.bind (reads_assignable hs hn) (Reads.bind (reads_expectSymbol .assign) ?_)
  refine Reads.bind (reads_expression hs hfirst (by omega) (hends _)) ?_
  refine Reads.bind (reads_direction down _) ?_
  refine Reads.bind (reads_expression hs hlast (by omega) (.of_closes rfl _)) ?_
  refine Reads.bind (reads_expectKeyword .do_) ?_
  exact Reads.bind (hb (by omega) hrest) Reads.pure

theorem reads_closing (w : Keyword) (line : Nat) (ls : List Lexeme) :
    Reads s (closing w line) (.keyword .end_ :: ls) () ls :=
  Reads.bind (reads_acceptKeyword .end_) Reads.pure

/-- A written case is read back, if its branches and the statements behind its `else` are. -/
theorem readBack_caseOf (hs : s.Knows declared) {c : Expr} (hc : c.WellFormed declared)
    {bs : List (List Value × Statement)} (hbs : ∀ b ∈ bs, BranchReadBack s b)
    {otherwise : List Statement} (ho : ∀ st ∈ otherwise, st.ReadBack s) (line : Nat) :
    (Statement.caseOf c bs otherwise line).ReadBack s := by
  refine .of_parts rfl fun d rest hd hrest => ?_
  simp only [Written.depth_append, Written.depth_of] at hd
  simp only [Written.lexemes_append, Written.lexemes_of, List.append_assoc, List.cons_append,
    List.nil_append]
  refine Reads.get (Reads.advance ?_)
  refine Reads.bind (reads_expression hs hc (by omega) (.of_closes rfl _)) ?_
  refine Reads.bind (reads_expectKeyword .of) ?_
  cases otherwise with
  | nil =>
    -- without an `else`, the branches are followed by `end`
    have hturns := turns_caseBranches hbs (d := d) (by omega) (.inl rfl) rest
    have hnot : (Lexeme.keyword .end_ :: rest).head? ≠ some (.keyword .else_) := by simp
    refine Reads.bind hturns.many ?_
    refine Reads.bind (reads_afterKeyword_not _ hnot) ?_
    exact Reads.bind (reads_closing _ _ _) Reads.pure
  | cons st ss =>
    have hdo : (writtenAll (st :: ss)).depth ≤ d := by
      simp only [writtenElse, Written.depth_append, Written.depth_of] at hd
      simp only [writtenAll, Written.depth_append]
      omega
    have hlist := reads_statementList (List.cons_ne_nil st ss) ho hdo
      ⟨.keyword .end_, rest, rfl, .inl rfl⟩
    have hturns := turns_caseBranches hbs (d := d) (by omega) (.inr rfl)
      ((writtenAll (st :: ss)).lexemes ++ .keyword .end_ :: rest)
    have hlexemes : (writtenElse (st :: ss)).lexemes ++ .keyword .end_ :: rest
        = .keyword .else_ :: ((writtenAll (st :: ss)).lexemes ++ .keyword .end_ :: rest) := by
      simp [writtenElse, writtenAll]
    rw [hlexemes]
    refine Reads.bind hturns.many ?_
    refine Reads.bind (reads_afterKeyword hlist) ?_
    exact Reads.bind (reads_closing _ _ _) Reads.pure

/-- A written compound statement is read back, if its statements are. -/
theorem readBack_compound {b : List Statement} (hne : b ≠ []) (hb : ∀ st ∈ b, st.ReadBack s)
    (line : Nat) : (Statement.compound b line).ReadBack s := by
  refine .of_parts rfl fun d rest hd hrest => ?_
  simp only [Written.depth_append, Written.depth_of] at hd
  simp only [Written.lexemes_append, Written.lexemes_of, List.append_assoc, List.cons_append,
    List.nil_append]
  refine Reads.get (Reads.advance ?_)
  refine Reads.bind (reads_statementList hne hb (by omega) ⟨_, _, rfl, .inl rfl⟩) ?_
  exact Reads.bind (reads_closing _ _ _) Reads.pure

/-- The empty statement is read back from nothing. -/
theorem readBack_empty (line : Nat) : (Statement.empty line).ReadBack s := by
  refine .of_parts rfl fun d rest hd hrest => ?_
  obtain ⟨l, ks, rfl, hl⟩ := hrest
  refine Reads.get ?_
  -- An empty statement is told by what stands behind it.
  unfold closesStatement at hl
  split at hl <;> first | exact Reads.pure | exact absurd hl Bool.false_ne_true

end Kinds

/-! ## All statements -/

section All

variable {s : ParserState} {declared : String → Prop}

mutual

/-- **A well-formed statement is read back.** -/
theorem Statement.readBack (hs : s.Knows declared) : ∀ {st : Statement},
    st.WellFormed declared → st.ReadBack s
  | .assign _ _ line, h => by
    simp only [Statement.WellFormed] at h
    exact readBack_assign hs h.1 h.2 line
  | .write newline _ line, h => by
    simp only [Statement.WellFormed] at h
    exact readBack_write hs h newline line
  | .read newline _ line, h => by
    simp only [Statement.WellFormed] at h
    exact readBack_read hs h newline line
  | .ifThen _ _ none line, h => by
    simp only [Statement.WellFormed] at h
    exact readBack_ifThen hs h.1 (Statement.readBack hs h.2) line
  | .ifThen _ _ (some _) line, h => by
    simp only [Statement.WellFormed] at h
    obtain ⟨hc, ht, he, hclosed⟩ := h
    exact readBack_ifThenElse hs hc (Statement.readBack hs ht) hclosed
      (Statement.readBack hs he) line
  | .whileDo _ _ line, h => by
    simp only [Statement.WellFormed] at h
    exact readBack_whileDo hs h.1 (Statement.readBack hs h.2) line
  | .repeatUntil _ _ line, h => by
    simp only [Statement.WellFormed] at h
    obtain ⟨hne, hb, hc⟩ := h
    exact readBack_repeatUntil hs hc hne (readBackAll hs hb) line
  | .forTo _ _ _ down _ line, h => by
    simp only [Statement.WellFormed] at h
    obtain ⟨hn, hfirst, hlast, hb⟩ := h
    exact readBack_forTo hs hn hfirst hlast (Statement.readBack hs hb) down line
  | .caseOf _ _ _ line, h => by
    simp only [Statement.WellFormed] at h
    obtain ⟨hc, hbs, ho⟩ := h
    exact readBack_caseOf hs hc (readBackBranches hs hbs) (readBackAll hs ho) line
  | .compound _ line, h => by
    simp only [Statement.WellFormed] at h
    exact readBack_compound h.1 (readBackAll hs h.2) line
  | .empty line, _ => readBack_empty line

theorem readBackAll (hs : s.Knows declared) : ∀ {ss : List Statement},
    WellFormedAll declared ss → ∀ st ∈ ss, st.ReadBack s
  | [], _ => nofun
  | _ :: _, h => by
    simp only [WellFormedAll] at h
    exact List.forall_mem_cons.2 ⟨Statement.readBack hs h.1, readBackAll hs h.2⟩

theorem readBackBranches (hs : s.Knows declared) : ∀ {bs : List (List Value × Statement)},
    WellFormedBranches declared bs → ∀ b ∈ bs, BranchReadBack s b
  | [], _ => nofun
  | (_, _) :: _, h => by
    simp only [WellFormedBranches] at h
    obtain ⟨hlabels, hst, hbs⟩ := h
    exact List.forall_mem_cons.2 ⟨⟨hlabels, Statement.readBack hs hst⟩, readBackBranches hs hbs⟩

end

end All

end TurboBench.Pascal
