import TurboBench.Pascal.Execution

/-!
# Properties of all actions of a run

Carrying out a statement is put together from a few primitive actions by sequencing and by the two
loops whose number of turns is not known beforehand. A property that the primitive actions have,
and that both ways of putting actions together keep, is therefore a property of every statement:
`Closed` is the list of what is to be shown of a property, and `Closed.performAll` is the one
induction over statements that then gives it. Actions that only look at the variables need less:
`Sequential` is what they ask of a property.

The loops are asked for as a whole. Their recursion is on a count that bounds the steps that are
left, and what makes that count immaterial depends on the property of the body, so the argument is
left to the property.
-/

set_option autoImplicit false

namespace TurboBench.Pascal

open Run

/-! ## Actions that only look -/

/-- A property of actions that evaluation has and that sequences keep. -/
structure Sequential (P : ∀ {α : Type}, Run α → Prop) : Prop where
  pure {α : Type} (a : α) : P (Pure.pure a : Run α)
  bind {α β : Type} {p : Run α} {f : α → Run β} (hp : P p) (hf : ∀ a, P (f a)) : P (p >>= f)
  fault {α : Type} (line : Nat) (f : Fault) : P (Run.fault line f : Run α)
  eval (room : Nat) (e : Expr) : P (Run.eval room e)

namespace Sequential

variable {P : ∀ {α : Type}, Run α → Prop}

/-- What is closed under sequences holds of a condition. -/
theorem condition (h : Sequential P) (room : Nat) (e : Expr) (line : Nat) :
    P (Run.condition room e line) := by
  unfold Run.condition
  refine h.bind (h.eval room e) fun v => ?_
  cases v with
  | boolean b => exact h.pure b
  | _ => exact h.fault line _

/-- It holds of a field width or a number of decimals. -/
theorem fieldNumber (h : Sequential P) (room line : Nat) (e : Option Expr) :
    P (Run.fieldNumber room line e) := by
  cases e with
  | none => exact h.pure none
  | some e =>
    unfold Run.fieldNumber
    refine h.bind (h.eval room e) fun v => ?_
    cases v with
    | integer n => exact h.pure (some n)
    | _ => exact h.fault line _

/-- It holds of the text of a write item. -/
theorem itemText (h : Sequential P) (room line : Nat) (item : WriteItem) :
    P (Run.itemText room line item) := by
  unfold Run.itemText
  refine h.bind (h.eval room item.value) fun v => ?_
  refine h.bind (h.fieldNumber room line item.width) fun width => ?_
  refine h.bind (h.fieldNumber room line item.decimals) fun decimals => ?_
  exact h.pure _

/-- It holds of an action carried out for each of a list. -/
theorem mapM {α β : Type} (h : Sequential P) {f : α → Run β} (hf : ∀ a, P (f a)) (as : List α) :
    P (as.mapM f) := by
  induction as with
  | nil => exact h.pure []
  | cons a as ih =>
    rw [List.mapM_cons]
    exact h.bind (hf a) fun b => h.bind ih fun bs => h.pure (b :: bs)

theorem itemTexts (h : Sequential P) (room line : Nat) (items : List WriteItem) :
    P (items.mapM (Run.itemText room line)) :=
  h.mapM (h.itemText room line) items

end Sequential

/-! ## All actions -/

/-- A property of actions that the primitive actions have and that sequences and loops keep. -/
structure Closed (P : ∀ {α : Type}, Run α → Prop) : Prop where
  pure {α : Type} (a : α) : P (Pure.pure a : Run α)
  bind {α β : Type} {p : Run α} {f : α → Run β} (hp : P p) (hf : ∀ a, P (f a)) : P (p >>= f)
  fault {α : Type} (line : Nat) (f : Fault) : P (Run.fault line f : Run α)
  step : P Run.step
  eval (room : Nat) (e : Expr) : P (Run.eval room e)
  assign (name : String) (v : Value) (line : Nat) : P (Run.assign name v line)
  emit (text : String) (newline : Bool) : P (Run.emit text newline)
  readNothing (word : Keyword) (line : Nat) (name : String) : P (Run.readNothing word line name)
  enter (breaks : Nat → Bool) (s : Statement) : P (Run.enter breaks s)
  whileLoop {condition : Run Bool} {body : Run Unit} (hc : P condition) (hb : P body) :
    P (Run.whileLoop condition body)
  repeatLoop {condition : Run Bool} {body : Run Unit} (hc : P condition) (hb : P body) :
    P (Run.repeatLoop body condition)

namespace Closed

variable {P : ∀ {α : Type}, Run α → Prop}

theorem sequential (h : Closed P) : Sequential P :=
  ⟨h.pure, h.bind, h.fault, h.eval⟩

theorem forM {α : Type} (h : Closed P) {f : α → Run Unit} (hf : ∀ a, P (f a)) (as : List α) :
    P (as.forM f) := by
  induction as with
  | nil => exact h.pure ()
  | cons a as ih => exact h.bind (hf a) fun _ => ih

/-- It holds of all turns of a counting loop, by induction on their number. -/
theorem forTurns (h : Closed P) {assignCounter : Int → Run Unit} {body : Run Unit}
    (ha : ∀ n, P (assignCounter n)) (hb : P body) (by_ first : Int) (n : Nat) :
    P (Run.forTurns assignCounter body by_ first n) := by
  induction n generalizing first with
  | zero => exact h.pure ()
  | succ n ih =>
    exact h.bind (ha first) fun _ => h.bind hb fun _ => h.bind h.step fun _ => ih _

/-- Beginning a statement and carrying it out. -/
theorem enter_then (h : Closed P) (breaks : Nat → Bool) {room : Nat} {s : Statement}
    (hs : P (s.perform breaks room)) : P (do Run.enter breaks s; s.perform breaks room) :=
  h.bind (h.enter breaks s) fun _ => hs

mutual

/-- The induction over statements. -/
theorem perform (h : Closed P) (breaks : Nat → Bool) :
    (room : Nat) → (s : Statement) → P (s.perform breaks room)
  | room, .assign target value line => by
    rw [Statement.perform]
    exact h.bind h.step fun _ => h.bind (h.eval room value) fun v => h.assign target v line
  | room, .write newline items line => by
    rw [Statement.perform]
    exact h.bind h.step fun _ => h.bind (h.sequential.itemTexts room line items) fun _ =>
      h.emit _ newline
  | _, .read newline targets line => by
    rw [Statement.perform]
    exact h.bind h.step fun _ => h.forM (h.readNothing _ line) targets
  | room, .ifThen c t (some e) line => by
    rw [Statement.perform]
    refine h.bind h.step fun _ => h.bind (h.sequential.condition room c line) fun b => ?_
    cases b with
    | true => exact h.enter_then breaks (h.perform breaks (room - 1) t)
    | false => exact h.enter_then breaks (h.perform breaks (room - 1) e)
  | room, .ifThen c t none line => by
    rw [Statement.perform]
    refine h.bind h.step fun _ => h.bind (h.sequential.condition room c line) fun b => ?_
    cases b with
    | true => exact h.enter_then breaks (h.perform breaks (room - 1) t)
    | false => exact h.pure ()
  | room, .whileDo c b line => by
    rw [Statement.perform]
    exact h.bind h.step fun _ =>
      h.whileLoop (h.sequential.condition room c line)
        (h.enter_then breaks (h.perform breaks (room - 1) b))
  | room, .repeatUntil b c line => by
    -- no step of its own: each turn takes one
    rw [Statement.perform]
    exact h.repeatLoop (h.sequential.condition room c line) (h.performAll breaks (room - 1) b)
  | room, .forTo counter first last down b line => by
    rw [Statement.perform]
    refine h.bind h.step fun _ => h.bind (h.eval room first) fun v =>
      h.bind (h.eval room last) fun w => ?_
    -- The bounds are two integers, or the loop is at fault.
    split
    · exact h.forTurns (fun _ => h.assign counter _ line)
        (h.enter_then breaks (h.perform breaks (room - 1) b)) _ _ _
    · exact h.fault line _
  | room, .caseOf selector branches otherwise _ => by
    rw [Statement.perform]
    exact h.bind h.step fun _ => h.bind (h.eval room selector) fun v =>
      h.performBranch breaks (room - 1) v (h.performAll breaks (room - 1) otherwise) branches
  | room, .compound body _ => by
    rw [Statement.perform]
    exact h.performAll breaks (room - 1) body
  | _, .empty _ => by
    rw [Statement.perform]
    exact h.pure ()

theorem performAll (h : Closed P) (breaks : Nat → Bool) (room : Nat) :
    (ss : List Statement) → P (Pascal.performAll breaks room ss)
  | [] => by
    rw [Pascal.performAll]
    exact h.pure ()
  | s :: ss => by
    rw [Pascal.performAll]
    exact h.bind (h.enter breaks s) fun _ => h.bind (h.perform breaks room s) fun _ =>
      h.performAll breaks room ss

theorem performBranch (h : Closed P) (breaks : Nat → Bool) (room : Nat) (selector : Value)
    {otherwise : Run Unit} (ho : P otherwise) :
    (bs : List (List Value × Statement)) →
      P (Pascal.performBranch breaks room selector otherwise bs)
  | [] => by
    rw [Pascal.performBranch]
    exact ho
  | (labels, s) :: bs => by
    rw [Pascal.performBranch]
    split
    · exact h.enter_then breaks (h.perform breaks room s)
    · exact h.performBranch breaks room selector ho bs

end

end Closed

end TurboBench.Pascal
