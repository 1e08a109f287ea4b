import TurboBench.Pascal.Syntax

/-!
# What occurs in a program

The expressions that stand in a statement, with every expression inside them (`Expr.nodes`), and the
names that it assigns to. The lists are as deep as the tree: what stands in a branch or the body of
a loop is counted in.

`Statement.Uses E T` says that the expressions satisfy `E` and the names satisfy `T`. It is taken
apart along the constructors, once for each of them.
-/

set_option autoImplicit false

namespace TurboBench.Pascal

/-- An expression and the expressions inside it. -/
def Expr.nodes : Expr → List Expr
  | .literal v line => [.literal v line]
  | .variable name line => [.variable name line]
  | .unary op e line => .unary op e line :: e.nodes
  | .binary op l r line => .binary op l r line :: (l.nodes ++ r.nodes)
  | .call f e line => .call f e line :: e.nodes

theorem Expr.mem_nodes_self (e : Expr) : e ∈ e.nodes := by
  cases e <;> simp [nodes]

/-- What stands inside a part of an expression stands inside the expression. -/
theorem Expr.nodes_subset {x : Expr} : {e : Expr} → x ∈ e.nodes → x.nodes ⊆ e.nodes
  | .literal v line, h => List.mem_singleton.1 h ▸ List.Subset.refl _
  | .variable name line, h => List.mem_singleton.1 h ▸ List.Subset.refl _
  | .unary op e line, h => by
    rcases List.mem_cons.1 h with rfl | h
    · exact List.Subset.refl _
    · exact List.subset_cons_of_subset _ (nodes_subset h)
  | .binary op l r line, h => by
    rcases List.mem_cons.1 h with rfl | h
    · exact List.Subset.refl _
    rcases List.mem_append.1 h with h | h
    · exact List.subset_cons_of_subset _ (List.subset_append_of_subset_left _ (nodes_subset h))
    · exact List.subset_cons_of_subset _ (List.subset_append_of_subset_right _ (nodes_subset h))
  | .call f e line, h => by
    rcases List.mem_cons.1 h with rfl | h
    · exact List.Subset.refl _
    · exact List.subset_cons_of_subset _ (nodes_subset h)

/-- The expressions of a write item. -/
def WriteItem.expressions (item : WriteItem) : List Expr :=
  item.value :: (item.width.toList ++ item.decimals.toList)

mutual

/-- The expressions that stand in a statement. -/
@[simp] def Statement.expressions : Statement → List Expr
  | .assign _ e _ => [e]
  | .write _ items _ => items.flatMap (·.expressions)
  | .read .. | .empty _ => []
  | .ifThen c t (some e) _ => c :: (t.expressions ++ e.expressions)
  | .ifThen c t none _ => c :: t.expressions
  | .whileDo c b _ => c :: b.expressions
  | .repeatUntil b c _ => expressionsAll b ++ [c]
  | .forTo _ first last _ b _ => first :: last :: b.expressions
  | .caseOf e bs o _ => e :: (expressionsBranches bs ++ expressionsAll o)
  | .compound b _ => expressionsAll b

/-- The expressions that stand in the statements of a list. -/
@[simp] def expressionsAll : List Statement → List Expr
  | [] => []
  | s :: ss => s.expressions ++ expressionsAll ss

/-- The expressions that stand in the branches of a case. -/
@[simp] def expressionsBranches : List (List Value × Statement) → List Expr
  | [] => []
  | (_, s) :: bs => s.expressions ++ expressionsBranches bs

end

mutual

/-- The names that a statement assigns to. -/
@[simp] def Statement.targets : Statement → List String
  | .assign name _ _ => [name]
  | .write .. | .empty _ => []
  | .read _ names _ => names
  | .ifThen _ t (some e) _ => t.targets ++ e.targets
  | .ifThen _ t none _ => t.targets
  | .whileDo _ b _ => b.targets
  | .repeatUntil b _ _ => targetsAll b
  | .forTo counter _ _ _ b _ => counter :: b.targets
  | .caseOf _ bs o _ => targetsBranches bs ++ targetsAll o
  | .compound b _ => targetsAll b

/-- The names that the statements of a list assign to. -/
@[simp] def targetsAll : List Statement → List String
  | [] => []
  | s :: ss => s.targets ++ targetsAll ss

/-- The names that the branches of a case assign to. -/
@[simp] def targetsBranches : List (List Value × Statement) → List String
  | [] => []
  | (_, s) :: bs => s.targets ++ targetsBranches bs

end

/-- The expressions of a program, with those inside them. -/
def Program.nodes (p : Program) : List Expr :=
  (expressionsAll p.body).flatMap Expr.nodes

/-- The names that a program assigns to. -/
def Program.targets (p : Program) : List String :=
  targetsAll p.body

/-! ## Properties of all occurrences -/

/-- The expressions of a statement satisfy `E`, the names that it assigns to satisfy `T`. -/
structure Statement.Uses (E : Expr → Prop) (T : String → Prop) (s : Statement) : Prop where
  expressions : ∀ e ∈ s.expressions, E e
  targets : ∀ name ∈ s.targets, T name

/-- The same of a write item, which has no names to assign to. -/
def WriteItem.Uses (E : Expr → Prop) (item : WriteItem) : Prop :=
  ∀ e ∈ item.expressions, E e

section Uses

variable {E : Expr → Prop} {T : String → Prop}

namespace Statement

theorem uses_iff (s : Statement) :
    s.Uses E T ↔ (∀ e ∈ s.expressions, E e) ∧ ∀ name ∈ s.targets, T name :=
  ⟨fun h => ⟨h.expressions, h.targets⟩, fun h => ⟨h.1, h.2⟩⟩

end Statement

/-- What occurs in statements is what is used by each of them. -/
theorem uses_all_iff (ss : List Statement) :
    ((∀ e ∈ expressionsAll ss, E e) ∧ ∀ name ∈ targetsAll ss, T name) ↔ ∀ s ∈ ss, s.Uses E T := by
  induction ss with
  | nil => simp
  | cons s ss ih =>
    rw [List.forall_mem_cons, ← ih, expressionsAll, targetsAll, List.forall_mem_append,
      List.forall_mem_append, s.uses_iff, and_and_and_comm]

/-- What occurs in branches is what is used by each of them. -/
theorem uses_branches_iff (bs : List (List Value × Statement)) :
    ((∀ e ∈ expressionsBranches bs, E e) ∧ ∀ name ∈ targetsBranches bs, T name)
      ↔ ∀ b ∈ bs, b.2.Uses E T := by
  induction bs with
  | nil => simp
  | cons b bs ih =>
    obtain ⟨labels, s⟩ := b
    rw [List.forall_mem_cons, ← ih, expressionsBranches, targetsBranches, List.forall_mem_append,
      List.forall_mem_append, s.uses_iff, and_and_and_comm]

namespace Statement

variable {line : Nat}

@[simp] theorem uses_assign {name : String} {e : Expr} :
    (assign name e line).Uses E T ↔ E e ∧ T name := by
  simp [uses_iff]

/-- A write uses what its items use. -/
@[simp] theorem uses_write {newline : Bool} {items : List WriteItem} :
    (write newline items line).Uses E T ↔ ∀ item ∈ items, item.Uses E := by
  rw [uses_iff]
  simp only [expressions, targets, List.mem_flatMap, WriteItem.Uses]
  constructor
  · rintro ⟨h, -⟩ item hitem e he
    exact h e ⟨item, hitem, he⟩
  · intro h
    refine ⟨?_, by simp⟩
    rintro e ⟨item, hitem, he⟩
    exact h item hitem e he

@[simp] theorem uses_read {newline : Bool} {names : List String} :
    (read newline names line).Uses E T ↔ ∀ name ∈ names, T name := by
  simp [uses_iff]

@[simp] theorem uses_ifThenElse {c : Expr} {t e : Statement} :
    (ifThen c t (some e) line).Uses E T ↔ E c ∧ t.Uses E T ∧ e.Uses E T := by
  rw [uses_iff, expressions, targets, List.forall_mem_cons, List.forall_mem_append,
    List.forall_mem_append, t.uses_iff, e.uses_iff, and_assoc, and_and_and_comm]

@[simp] theorem uses_ifThen {c : Expr} {t : Statement} :
    (ifThen c t none line).Uses E T ↔ E c ∧ t.Uses E T := by
  rw [uses_iff, expressions, targets, List.forall_mem_cons, t.uses_iff, and_assoc]

@[simp] theorem uses_whileDo {c : Expr} {b : Statement} :
    (whileDo c b line).Uses E T ↔ E c ∧ b.Uses E T := by
  rw [uses_iff, expressions, targets, List.forall_mem_cons, b.uses_iff, and_assoc]

@[simp] theorem uses_repeatUntil {b : List Statement} {c : Expr} :
    (repeatUntil b c line).Uses E T ↔ E c ∧ ∀ s ∈ b, s.Uses E T := by
  rw [uses_iff, expressions, targets, List.forall_mem_append, List.forall_mem_singleton,
    ← uses_all_iff b, and_right_comm, and_comm]

/-- A counting loop uses its bounds, its counter and what its body uses. -/
@[simp] theorem uses_forTo {counter : String} {first last : Expr} {down : Bool} {b : Statement} :
    (forTo counter first last down b line).Uses E T
      ↔ (E first ∧ E last ∧ T counter) ∧ b.Uses E T := by
  rw [uses_iff, expressions, targets, List.forall_mem_cons, List.forall_mem_cons,
    List.forall_mem_cons, b.uses_iff]
  constructor
  · rintro ⟨⟨hfirst, hlast, he⟩, hcounter, ht⟩
    exact ⟨⟨hfirst, hlast, hcounter⟩, he, ht⟩
  · rintro ⟨⟨hfirst, hlast, hcounter⟩, he, ht⟩
    exact ⟨⟨hfirst, hlast, he⟩, hcounter, ht⟩

@[simp] theorem uses_caseOf {e : Expr} {bs : List (List Value × Statement)} {o : List Statement} :
    (caseOf e bs o line).Uses E T
      ↔ E e ∧ (∀ b ∈ bs, b.2.Uses E T) ∧ ∀ s ∈ o, s.Uses E T := by
  rw [uses_iff, expressions, targets, List.forall_mem_cons, List.forall_mem_append,
    List.forall_mem_append, ← uses_branches_iff, ← uses_all_iff, and_assoc, and_and_and_comm]

@[simp] theorem uses_compound {b : List Statement} :
    (compound b line).Uses E T ↔ ∀ s ∈ b, s.Uses E T := by
  rw [uses_iff, expressions, targets, uses_all_iff]

@[simp] theorem uses_empty : (empty line).Uses E T := by
  simp [uses_iff]

end Statement

end Uses

end TurboBench.Pascal
