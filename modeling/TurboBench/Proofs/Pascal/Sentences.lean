import TurboBench.Proofs.Pascal.Grammar

/-!
# What every sentence has

Two facts about sentences of the grammar that no parser has a part in. Every token of a sentence is
legal: it is no flaw, and if it is a number, the number is in range (`Sentence.legal`). And in the
tree of a sentence every `else` belongs to the nearest `if`: what stands in front of it is a
statement that would not take an `else` behind it (`Sentence.elseNearest`).
-/

set_option autoImplicit false

namespace TurboBench.Pascal

/-! ## The tokens of a sentence -/

/-- A token that a sentence can have: no flaw, and if it is a number, one in range. -/
def Token.IsLegal (t : Token) : Prop :=
  match t.lexeme with
  | .flaw _ => False
  | .integer digits => (Decimal.natOfDigits digits.toList : Int) ≤ maxInteger
  | .real numeral => (Decimal.Numeral.ofText numeral.toList).toFloat.isFinite = true
  | _ => True

/-- The tokens in front of a rest are legal. -/
def Legal (ts rest : List Token) : Prop :=
  ∃ us, ts = us ++ rest ∧ ∀ t ∈ us, t.IsLegal

section Legal

variable {t : Token} {ts mid rest : List Token}

theorem Legal.refl (ts : List Token) : Legal ts ts :=
  ⟨[], rfl, nofun⟩

theorem Legal.cons (ht : t.IsLegal) (h : Legal ts rest) : Legal (t :: ts) rest := by
  obtain ⟨us, rfl, hus⟩ := h
  exact ⟨t :: us, rfl, List.forall_mem_cons.2 ⟨ht, hus⟩⟩

theorem Legal.trans (h : Legal ts mid) (k : Legal mid rest) : Legal ts rest := by
  obtain ⟨us, rfl, hus⟩ := h
  obtain ⟨vs, rfl, hvs⟩ := k
  exact ⟨us ++ vs, (List.append_assoc _ _ _).symm, List.forall_mem_append.2 ⟨hus, hvs⟩⟩

/-- A phrase, a token, and what comes behind. -/
theorem Legal.then (h : Legal ts (t :: mid)) (ht : t.IsLegal) (k : Legal mid rest) :
    Legal ts rest :=
  h.trans (k.cons ht)

/-- A literal with a value has no flaw, and is in range if it is a number. -/
theorem Literal.isLegal {l : Lexeme} {v : Value} (h : Literal l v) (n : Nat) :
    Token.IsLegal ⟨l, n⟩ := by
  cases h with
  | integer h => exact h
  | real h => exact h
  | string _ => exact True.intro
  | true_ => exact True.intro
  | false_ => exact True.intro

theorem BinaryOp.isLegal (op : BinaryOp) (n : Nat) : Token.IsLegal ⟨op.lexeme, n⟩ := by
  cases op <;> exact True.intro

section Lists

variable {α : Type} {G : List Token → α → List Token → Prop} {as : List α}

theorem CommasAt.legal (hG : ∀ {ts a rest}, G ts a rest → Legal ts rest)
    (h : CommasAt G ts as rest) : Legal ts rest := by
  induction h with
  | one h => exact hG h
  | more h _ ih => exact (hG h).then True.intro ih

/-- Arguments have legal tokens only, if each of them has. -/
theorem ArgumentsAt.legal (hG : ∀ {ts a rest}, G ts a rest → Legal ts rest)
    (h : ArgumentsAt G ts as rest) : Legal ts rest := by
  cases h with
  | absent => exact .refl _
  | none => exact .cons True.intro (.cons True.intro (.refl _))
  | some h => exact .cons True.intro ((h.legal hG).then True.intro (.refl _))

end Lists

variable {Γ : Scope} {depth : Nat}

theorem UnsignedAt.legal {v : Value} (h : UnsignedAt Γ ts v rest) : Legal ts rest := by
  cases h with
  | literal h => exact .cons (h.isLegal _) (.refl _)
  | name _ => exact .cons True.intro (.refl _)

/-- A constant has legal tokens only. -/
theorem ConstantAt.legal {v : Value} (h : ConstantAt Γ ts v rest) : Legal ts rest := by
  cases h with
  | unsigned h => exact h.legal
  | plus h => exact .cons True.intro h.legal
  | minusInteger h => exact .cons True.intro (.cons (h.isLegal _) (.refl _))
  | minusReal h => exact .cons True.intro (.cons (h.isLegal _) (.refl _))

theorem NameAt.legal {n : Name} (h : NameAt ts n rest) : Legal ts rest := by
  cases h
  exact .cons True.intro (.refl _)

theorem VariableAt.legal {x : String} (h : VariableAt Γ ts x rest) : Legal ts rest := by
  cases h
  exact .cons True.intro (.refl _)

/-- The name of a type has legal tokens only. -/
theorem TypeAt.legal {type : PascalType} (h : TypeAt ts type rest) : Legal ts rest := by
  cases h with
  | word => exact .cons True.intro (.refl _)
  | bounded h =>
    refine .cons True.intro (.cons True.intro (.cons (h.isLegal _) ?_))
    exact .cons True.intro (.refl _)

mutual

theorem FactorAt.legal : ∀ {depth : Nat} {ts rest : List Token} {e : Expr},
    FactorAt Γ depth ts e rest → Legal ts rest
  | _, _, _, _, .literal h => .cons (h.isLegal _) (.refl _)
  | _, _, _, _, .constant _ => .cons True.intro (.refl _)
  | _, _, _, _, .variable _ => .cons True.intro (.refl _)
  | _, _, _, _, .call _ h =>
    .cons True.intro (.cons True.intro (h.legal.then True.intro (.refl _)))
  | _, _, _, _, .not h => .cons True.intro h.legal
  | _, _, _, _, .minus h => .cons True.intro h.legal
  | _, _, _, _, .parentheses h => .cons True.intro (h.legal.then True.intro (.refl _))

theorem TermAt.legal : ∀ {depth : Nat} {ts rest : List Token} {e : Expr},
    TermAt Γ depth ts e rest → Legal ts rest
  | _, _, _, _, .factor h => h.legal
  | _, _, _, _, .product hl _ hr => hl.legal.then (BinaryOp.isLegal _ _) hr.legal

theorem SimpleAt.legal : ∀ {depth : Nat} {ts rest : List Token} {e : Expr},
    SimpleAt Γ depth ts e rest → Legal ts rest
  | _, _, _, _, .unsigned _ h => h.legal
  | _, _, _, _, .plus h => .cons True.intro h.legal
  | _, _, _, _, .minus h => .cons True.intro h.legal
  | _, _, _, _, .sum hl _ hr => hl.legal.then (BinaryOp.isLegal _ _) hr.legal

theorem ExpressionAt.legal : ∀ {depth : Nat} {ts rest : List Token} {e : Expr},
    ExpressionAt Γ depth ts e rest → Legal ts rest
  | _, _, _, _, .simple h => h.legal
  | _, _, _, _, .relation hl _ hr => hl.legal.then (BinaryOp.isLegal _ _) hr.legal

end

/-- An item of a write has legal tokens only. -/
theorem WriteItemAt.legal {item : WriteItem} (h : WriteItemAt Γ depth ts item rest) :
    Legal ts rest := by
  cases h with
  | value h => exact h.legal
  | width h hw => exact h.legal.then True.intro hw.legal
  | decimals h hw hd => exact h.legal.then True.intro (hw.legal.then True.intro hd.legal)

mutual

/-- A statement has legal tokens only. The induction is on its derivation, together with the ones
for lists and branches. -/
theorem StatementAt.legal {depth : Nat} {ts rest : List Token} {st : Statement}
    (h : StatementAt Γ depth ts st rest) : Legal ts rest := by
  cases h with
  | empty => exact .refl _
  | assign _ he => exact .cons True.intro (.cons True.intro he.legal)
  | write h => exact .cons True.intro (h.legal WriteItemAt.legal)
  | read h => exact .cons True.intro (h.legal VariableAt.legal)
  | ifThen hc ht _ => exact .cons True.intro (hc.legal.then True.intro ht.legal)
  | ifThenElse hc ht he =>
    exact .cons True.intro (hc.legal.then True.intro (ht.legal.then True.intro he.legal))
  | whileDo hc hb => exact .cons True.intro (hc.legal.then True.intro hb.legal)
  | repeatUntil hb hc => exact .cons True.intro (hb.legal.then True.intro hc.legal)
  | forTo _ hfirst hlast hb =>
    refine .cons True.intro (.cons True.intro (.cons True.intro ?_))
    exact hfirst.legal.then True.intro (hlast.legal.then True.intro hb.legal)
  | caseOf he hbs =>
    refine .cons True.intro (he.legal.then True.intro ?_)
    exact hbs.legal.then True.intro (.refl _)
  | caseElse he hbs hss =>
    refine .cons True.intro (he.legal.then True.intro (hbs.legal.then True.intro ?_))
    exact hss.legal.then True.intro (.refl _)
  | compound h => exact .cons True.intro (h.legal.then True.intro (.refl _))

theorem StatementsAt.legal {depth : Nat} {ts rest : List Token} {ss : List Statement}
    (h : StatementsAt Γ depth ts ss rest) : Legal ts rest := by
  cases h with
  | one h => exact h.legal
  | more h hs => exact h.legal.then True.intro hs.legal

/-- A branch has legal tokens only. -/
theorem BranchAt.legal {depth : Nat} {ts rest : List Token} {b : List Value × Statement}
    (h : BranchAt Γ depth ts b rest) : Legal ts rest := by
  cases h with
  | closed hlabels hs =>
    refine (hlabels.legal ConstantAt.legal).then True.intro ?_
    exact hs.legal.then True.intro (.refl _)
  | last hlabels hs _ => exact (hlabels.legal ConstantAt.legal).then True.intro hs.legal

theorem BranchesAt.legal {depth : Nat} {ts rest : List Token}
    {bs : List (List Value × Statement)} (h : BranchesAt Γ depth ts bs rest) : Legal ts rest := by
  cases h with
  | nil => exact .refl _
  | cons h hs => exact h.legal.trans hs.legal

end

theorem legal_of_steps {D : Site → Site → Prop} (hD : ∀ {a b}, D a b → Legal a.2 b.2) {a b : Site}
    (h : Relation.ReflTransGen D a b) : Legal a.2 b.2 := by
  induction h with
  | refl => exact .refl _
  | tail _ hstep ih => exact ih.trans (hD hstep)

theorem ConstantDeclaration.legal {a b : Site} (h : ConstantDeclaration a b) : Legal a.2 b.2 := by
  cases h with
  | intro hv _ => exact .cons True.intro (.cons True.intro (hv.legal.then True.intro (.refl _)))

/-- A declaration of variables has legal tokens only. -/
theorem VariableDeclaration.legal {a b : Site} (h : VariableDeclaration a b) : Legal a.2 b.2 := by
  cases h with
  | intro hnames htype _ =>
    refine (hnames.legal NameAt.legal).then True.intro ?_
    exact htype.legal.then True.intro (.refl _)

theorem Section.legal {a b : Site} (h : Section a b) : Legal a.2 b.2 := by
  cases h with
  | const h => exact .cons True.intro (legal_of_steps ConstantDeclaration.legal h)
  | var h => exact .cons True.intro (legal_of_steps VariableDeclaration.legal h)

/-- Every token of a sentence is legal. -/
theorem Sentence.legal {source : TokenStream} {p : Program} (h : Sentence source p) :
    ∀ t ∈ source.tokens, t.IsLegal := by
  obtain ⟨hheading, hsections, hbody⟩ := h
  have hstatements := hbody.legal.then True.intro (.cons True.intro (.refl []))
  have hbegin := (legal_of_steps Section.legal hsections).then True.intro hstatements
  have hsource : Legal source.tokens [] := by
    rw [hheading]
    exact .cons True.intro (.cons True.intro (.cons True.intro hbegin))
  obtain ⟨us, hus, hlegal⟩ := hsource
  rwa [hus, List.append_nil]

end Legal

/-! ## The nearest `if` -/

mutual

/-- A statement in which every `else` belongs to the nearest `if`. -/
def Statement.ElseNearest : Statement → Prop
  | .ifThen _ t (some e) _ => t.endsOpen = false ∧ t.ElseNearest ∧ e.ElseNearest
  | .ifThen _ t none _ => t.ElseNearest
  | .whileDo _ b _ | .forTo _ _ _ _ b _ => b.ElseNearest
  | .repeatUntil b _ _ | .compound b _ => ElseNearestAll b
  | .caseOf _ bs o _ => ElseNearestBranches bs ∧ ElseNearestAll o
  | .assign .. | .write .. | .read .. | .empty _ => True

/-- Statements in which every `else` belongs to the nearest `if`. -/
def ElseNearestAll : List Statement → Prop
  | [] => True
  | s :: ss => s.ElseNearest ∧ ElseNearestAll ss

/-- Branches in which every `else` belongs to the nearest `if`. -/
def ElseNearestBranches : List (List Value × Statement) → Prop
  | [] => True
  | (_, s) :: bs => s.ElseNearest ∧ ElseNearestBranches bs

end

section ElseNearest

variable {Γ : Scope}

/-- In front of an `else` no statement ends in a conditional that lacks one. -/
theorem StatementAt.endsOpen_of_else : ∀ {depth : Nat} {ts rest : List Token} {st : Statement},
    StatementAt Γ depth ts st rest → IsNext (.keyword .else_) rest → st.endsOpen = false
  | _, _, _, _, .ifThen _ _ hnot, helse => absurd helse hnot
  | _, _, _, _, .ifThenElse _ _ he, helse => by
    rw [Statement.endsOpen]
    exact he.endsOpen_of_else helse
  | _, _, _, _, .whileDo _ hb, helse => by
    rw [Statement.endsOpen]
    exact hb.endsOpen_of_else helse
  | _, _, _, _, .forTo _ _ _ hb, helse => by
    rw [Statement.endsOpen]
    exact hb.endsOpen_of_else helse
  | _, _, _, _, .empty, _ => rfl
  | _, _, _, _, .assign .., _ => rfl
  | _, _, _, _, .write _, _ => rfl
  | _, _, _, _, .read _, _ => rfl
  | _, _, _, _, .repeatUntil .., _ => rfl
  | _, _, _, _, .caseOf .., _ => rfl
  | _, _, _, _, .caseElse .., _ => rfl
  | _, _, _, _, .compound _, _ => rfl

mutual

/-- In a statement that is derived every `else` belongs to the nearest `if`. -/
theorem StatementAt.elseNearest {depth : Nat} {ts rest : List Token} {st : Statement}
    (h : StatementAt Γ depth ts st rest) : st.ElseNearest := by
  -- What the rule of a conditional asks of its first branch is the claim itself; elsewhere it
  -- passes down.
  cases h with
  | ifThen _ ht _ =>
    rw [Statement.ElseNearest]
    exact ht.elseNearest
  | ifThenElse _ ht he =>
    rw [Statement.ElseNearest]
    exact ⟨ht.endsOpen_of_else rfl, ht.elseNearest, he.elseNearest⟩
  | whileDo _ hb =>
    rw [Statement.ElseNearest]
    exact hb.elseNearest
  | forTo _ _ _ hb =>
    rw [Statement.ElseNearest]
    exact hb.elseNearest
  | repeatUntil hb _ =>
    rw [Statement.ElseNearest]
    exact hb.elseNearest
  | compound h =>
    rw [Statement.ElseNearest]
    exact h.elseNearest
  | caseOf _ hbs =>
    rw [Statement.ElseNearest]
    exact ⟨hbs.elseNearest, True.intro⟩
  | caseElse _ hbs hss =>
    rw [Statement.ElseNearest]
    exact ⟨hbs.elseNearest, hss.elseNearest⟩
  | _ =>
    rw [Statement.ElseNearest]
    exact True.intro

theorem StatementsAt.elseNearest {depth : Nat} {ts rest : List Token} {ss : List Statement}
    (h : StatementsAt Γ depth ts ss rest) : ElseNearestAll ss := by
  cases h with
  | one h => exact ⟨h.elseNearest, True.intro⟩
  | more h hs => exact ⟨h.elseNearest, hs.elseNearest⟩

theorem BranchAt.elseNearest {depth : Nat} {ts rest : List Token} {b : List Value × Statement}
    (h : BranchAt Γ depth ts b rest) : b.2.ElseNearest := by
  cases h with
  | closed _ hs => exact hs.elseNearest
  | last _ hs _ => exact hs.elseNearest

theorem BranchesAt.elseNearest {depth : Nat} {ts rest : List Token}
    {bs : List (List Value × Statement)} (h : BranchesAt Γ depth ts bs rest) :
    ElseNearestBranches bs := by
  cases h with
  | nil => exact True.intro
  | cons h hs => exact ⟨h.elseNearest, hs.elseNearest⟩

end

theorem Sentence.elseNearest {source : TokenStream} {p : Program} (h : Sentence source p) :
    ElseNearestAll p.body := by
  obtain ⟨-, -, hbody⟩ := h
  exact hbody.elseNearest

end ElseNearest

end TurboBench.Pascal
