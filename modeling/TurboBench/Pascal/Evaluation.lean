import TurboBench.Pascal.Operation
import TurboBench.Pascal.Store

/-!
Evaluation of expressions.

Both operands are evaluated, the left one first, and a fault is charged to the line of the node
that raised it. Evaluation comes down one level for each operation inside another, and how many
levels there is room for is a parameter. An expression that is deeper faults on the way down, before
any of its operands has been evaluated, and the fault is charged to the statement that is being
carried out.
-/

namespace TurboBench.Pascal

/-- Charges a fault to a line. -/
def charge {α : Type} (line : Nat) : Except Fault α → Except RuntimeError α
  | .ok a => .ok a
  | .error f => .error ⟨f, line⟩

/-- The value of an expression in a store, with `room` levels of operations to go, for the
statement on line `stepLine`. -/
def Expr.evalWithin (σ : Store) (stepLine : Nat) : (room : Nat) → Expr → Except RuntimeError Value
  | _, .literal v _ => .ok v
  | _, .variable name line => charge line (σ.get name)
  | 0, .unary .. | 0, .binary .. | 0, .call .. => .error ⟨.stackOverflow, stepLine⟩
  | room + 1, .unary op e line => do
    let v ← e.evalWithin σ stepLine room
    charge line (op.apply v)
  | room + 1, .binary op l r line => do
    let v ← l.evalWithin σ stepLine room
    let w ← r.evalWithin σ stepLine room
    charge line (op.apply v w)
  | room + 1, .call f e line => do
    let v ← e.evalWithin σ stepLine room
    charge line (f.apply v)

@[simp] theorem Expr.evalWithin_literal (σ : Store) (stepLine room : Nat) (v : Value)
    (line : Nat) : (Expr.literal v line).evalWithin σ stepLine room = .ok v := by
  rw [Expr.evalWithin]

@[simp] theorem Expr.evalWithin_variable (σ : Store) (stepLine room : Nat) (name : String)
    (line : Nat) :
    (Expr.variable name line).evalWithin σ stepLine room = charge line (σ.get name) := by
  rw [Expr.evalWithin]

end TurboBench.Pascal
