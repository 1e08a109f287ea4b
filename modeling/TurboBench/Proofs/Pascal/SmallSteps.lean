import Mathlib.Logic.Relation
import TurboBench.Proofs.Pascal.Forward

/-!
# Runs in small steps

A run carries out a program as a whole. To speak of what holds at every moment of a run, the same
run is taken apart here: a moment (`Moment`) is a state together with the tasks that are still to be
done, and a step takes the first task and puts into its place what is to be done instead.

A task means an action (`Task.action`), and the action is the step with the actions of the new tasks
behind it (`action_eq`), so a step does not change what the whole run comes to. What can be left of
a task is said once (`leaves_next`). Steps come to an end, because each takes a step of the budget
or makes the tasks lighter. Together, the ending of a run is that of its last moment
(`run_reached`), and what every step preserves holds throughout (`invariant_of_next`).
-/

set_option autoImplicit false

namespace TurboBench.Pascal

open Run

/-- A part of a run that is still to be done: a statement that is to be begun, a variable that is
to be read, or a place inside a loop. A task carries the room that is left for it on the stack; what
stands inside a statement is left a level less than the statement. -/
inductive Task where
  | begin (room : Nat) (s : Statement)
  | reset (word : Keyword) (line : Nat) (name : String)
  | whileTest (room : Nat) (c : Expr) (b : Statement) (line : Nat)
  | whileNext (room : Nat) (c : Expr) (b : Statement) (line : Nat)
  | repeatTurn (room : Nat) (b : List Statement) (c : Expr) (line : Nat)
  | untilTest (room : Nat) (b : List Statement) (c : Expr) (line : Nat)
  | forTurn (room : Nat) (counter : String) (by_ first : Int) (n : Nat) (b : Statement) (line : Nat)
  | forNext (room : Nat) (counter : String) (by_ first : Int) (n : Nat) (b : Statement) (line : Nat)

/-- The statements of a case that a selector leads to. -/
def chosen (selector : Value) (otherwise : List Statement) :
    List (List Value × Statement) → List Statement
  | [] => otherwise
  | (labels, s) :: bs =>
    if selects selector labels then [s] else chosen selector otherwise bs

/-- Carries out the first part of a statement that has been begun, and yields the tasks that are
left of it. -/
def Statement.next (room : Nat) : Statement → Run (List Task)
  | .assign target value line => do
    step
    Run.assign target (← eval room value) line
    return []
  | .write newline items line => do
    step
    emit (String.join (← items.mapM (itemText room line))) newline
    return []
  | .read newline targets line => do
    step
    return targets.map (.reset (if newline then .readln else .read) line)
  | .ifThen c t e line => do
    step
    if ← condition room c line then return [.begin (room - 1) t]
    else return e.toList.map (.begin (room - 1))
  | .whileDo c b line => do
    step
    return [.whileTest room c b line]
  | .repeatUntil b c line => return [.repeatTurn room b c line]
  | .forTo counter first last down b line => do
    step
    let first ← eval room first
    let last ← eval room last
    match first, last with
    | .integer m, .integer n =>
      return [.forTurn room counter (if down then -1 else 1) m (turnCount m n down) b line]
    | _, _ => fault line .loopBounds
  | .caseOf selector branches otherwise _ => do
    step
    let v ← eval room selector
    return (chosen v otherwise branches).map (.begin (room - 1))
  | .compound body _ => return body.map (.begin (room - 1))
  | .empty _ => return []

namespace Task

/-- One step: carries out the first part of a task, and yields the tasks that are left of it. -/
def next (breaks : Nat → Bool) : Task → Run (List Task)
  | begin room s => do
    enter breaks s
    s.next room
  | reset word line name => do
    readNothing word line name
    return []
  | whileTest room c b line => do
    if ← condition room c line then return [.begin (room - 1) b, .whileNext room c b line]
    else return []
  | whileNext room c b line => do
    step
    return [.whileTest room c b line]
  | repeatTurn room b c line => do
    step
    return b.map (.begin (room - 1)) ++ [.untilTest room b c line]
  | untilTest room b c line => do
    if ← condition room c line then return [] else return [.repeatTurn room b c line]
  | forTurn _ _ _ _ 0 _ _ => return []
  | forTurn room counter by_ first (n + 1) b line => do
    assign counter (.integer first) line
    return [.begin (room - 1) b, .forNext room counter by_ (first + by_) n b line]
  | forNext room counter by_ first n b line => do
    step
    return [.forTurn room counter by_ first n b line]

/-- What a task comes to. -/
def action (breaks : Nat → Bool) : Task → Run Unit
  | begin room s => s.execute breaks room
  | reset word line name => readNothing word line name
  | whileTest room c b line => whileLoop (condition room c line) (b.execute breaks (room - 1))
  | whileNext room c b line => do
    step
    whileLoop (condition room c line) (b.execute breaks (room - 1))
  | repeatTurn room b c line =>
    repeatLoop (performAll breaks (room - 1) b) (condition room c line)
  | untilTest room b c line => do
    unless ← condition room c line do
      repeatLoop (performAll breaks (room - 1) b) (condition room c line)
  | forTurn room counter by_ first n b line =>
    forTurns (fun i => assign counter (.integer i) line) (b.execute breaks (room - 1)) by_ first n
  | forNext room counter by_ first n b line => do
    step
    forTurns (fun i => assign counter (.integer i) line) (b.execute breaks (room - 1)) by_ first n

/-- What several tasks come to, one after the other. -/
def actions (breaks : Nat → Bool) (ts : List Task) : Run Unit :=
  ts.forM (action breaks)

section Actions

variable {breaks : Nat → Bool}

@[simp] theorem actions_nil : actions breaks [] = pure () := rfl

@[simp] theorem actions_cons (t : Task) (ts : List Task) :
    actions breaks (t :: ts) = (do t.action breaks; actions breaks ts) := rfl

/-- Tasks come to what their first part comes to, and then the second. -/
theorem actions_append (ts us : List Task) :
    actions breaks (ts ++ us) = (do actions breaks ts; actions breaks us) := by
  induction ts with
  | nil => simp
  | cons t ts ih => simp [ih]

/-- Statements that are to be begun come to what they do one after the other. -/
theorem actions_begin (room : Nat) (ss : List Statement) :
    actions breaks (ss.map (.begin room)) = performAll breaks room ss := by
  induction ss with
  | nil => rw [performAll]; rfl
  | cons s ss ih =>
    rw [List.map_cons, actions_cons, ih, performAll]
    simp [action, Statement.execute]

/-- Variables that are to be read come to their resets, one by one. -/
theorem actions_reset (word : Keyword) (line : Nat) (names : List String) :
    actions breaks (names.map (.reset word line)) = names.forM (readNothing word line) := by
  induction names with
  | nil => rfl
  | cons name names ih =>
    rw [List.map_cons, actions_cons, ih]
    rfl

/-- A case does the statements that its selector leads to. -/
theorem performBranch_eq (room : Nat) (v : Value) (otherwise : List Statement)
    (bs : List (List Value × Statement)) :
    performBranch breaks room v (performAll breaks room otherwise) bs
      = performAll breaks room (chosen v otherwise bs) := by
  induction bs with
  | nil => rw [performBranch, chosen]
  | cons b bs ih =>
    obtain ⟨labels, s⟩ := b
    rw [performBranch, chosen]
    split
    · simp [performAll]
    · exact ih

/-- Carrying out a statement is its first part with the tasks that are left behind it. -/
theorem perform_eq (room : Nat) (s : Statement) :
    s.perform breaks room = (do let ts ← s.next room; actions breaks ts) := by
  cases s with
  | assign target value line => simp [Statement.perform, Statement.next]
  | write newline items line => simp [Statement.perform, Statement.next]
  | read newline targets line =>
    simp [Statement.perform, Statement.next, actions_reset]
  | ifThen c t e line =>
    have hnext (holds : Bool) (e : Option Statement) :
        (do let ts ← (if holds then return [.begin (room - 1) t]
              else return e.toList.map (.begin (room - 1)) : Run _)
            actions breaks ts)
          = if holds then t.execute breaks (room - 1)
            else e.elim (pure ()) (·.execute breaks (room - 1)) := by
      cases holds with
      | true => simp [action]
      | false => cases e <;> simp [action]
    cases e with
    | none =>
      simp only [Statement.perform, Statement.next, bind_assoc, hnext]
      rfl
    | some e =>
      simp only [Statement.perform, Statement.next, bind_assoc, hnext]
      rfl
  | whileDo c b line => simp [Statement.perform, Statement.next, action, Statement.execute]
  | repeatUntil b c line => simp [Statement.perform, Statement.next, action]
  | forTo counter first last down b line =>
    simp only [Statement.perform, Statement.next, bind_assoc]
    refine bind_congr fun _ => bind_congr fun v => bind_congr fun w => ?_
    cases v with
    | integer a =>
      cases w with
      | integer b => simp [action, Statement.execute]
      | _ => rfl
    | _ => rfl
  | caseOf selector branches otherwise line =>
    simp [Statement.perform, Statement.next, performBranch_eq, actions_begin]
  | compound body line => simp [Statement.perform, Statement.next, actions_begin]
  | empty line => simp [Statement.perform, Statement.next]

/-- **A task is its first step with the tasks that are left behind it.** -/
theorem action_eq (t : Task) :
    t.action breaks = (do let ts ← t.next breaks; actions breaks ts) := by
  -- The loops are the cases of interest: one turn is unfolded, and what is behind it is the task
  -- that is left.
  cases t with
  | begin room s => simp [action, next, Statement.execute, perform_eq]
  | reset word line name => simp [action, next]
  | whileTest room c b line =>
    have hloop := whileLoop_eq (Forward.closed.sequential.condition room c line)
      (b := b.execute breaks (room - 1))
      (Forward.closed.enter_then breaks (Forward.closed.perform breaks (room - 1) b))
    rw [action, hloop]
    simp only [next, whileTurn, bind_assoc]
    refine bind_congr fun holds => ?_
    cases holds with
    | true => simp [action]
    | false => simp
  | whileNext room c b line => simp [action, next]
  | repeatTurn room b c line =>
    rw [action, repeatLoop_eq (Forward.closed.sequential.condition room c line)
      (Forward.closed.performAll breaks (room - 1) b)]
    simp [next, Run.repeatTurn, actions_append, actions_begin, action]
  | untilTest room b c line =>
    simp only [action, next, bind_assoc]
    refine bind_congr fun holds => ?_
    cases holds with
    | true => rfl
    | false => simp [action]
  | forTurn room counter by_ first n b line =>
    cases n with
    | zero => rfl
    | succ n => simp [action, next, forTurns]
  | forNext room counter by_ first n b line => simp [action, next]

end Actions

/-! ## What is left of a task -/

/-- What holds of the result of an action wherever it comes to its end. -/
def Yields {α : Type} (G : α → Prop) (p : Run α) : Prop :=
  ∀ s a t, p s = .ok a t → G a

section Yields

variable {α β : Type} {G : α → Prop} {H : β → Prop} {p : Run α} {f : α → Run β}

theorem Yields.pure {a : α} (h : G a) : Yields G (Pure.pure a : Run α) := by
  intro s b t hb
  injection hb with hb
  exact hb ▸ h

/-- What the second action yields holds of both together. -/
theorem Yields.bind (hf : ∀ a, Yields H (f a)) : Yields H (p >>= f) := by
  intro s b u hb
  cases hp : p s with
  | ok a t =>
    rw [bind_of_ok hp] at hb
    exact hf a t b u hb
  | error e t =>
    rw [bind_of_error hp] at hb
    exact nomatch hb

theorem Yields.fault {line : Nat} {f : Fault} : Yields G (Run.fault line f : Run α) := by
  intro s a t h
  exact nomatch h

end Yields

/-- The room that there is for a task on the stack. A variable is reset without any. -/
def room : Task → Nat
  | begin room _ | whileTest room .. | whileNext room .. | repeatTurn room .. | untilTest room ..
  | forTurn room .. | forNext room .. => room
  | reset .. => 0

/-- A single target of a read is to be taken up. -/
def isReset : Task → Bool
  | reset .. => true
  | _ => false

/-- A read is to be begun. -/
def isRead : Task → Bool
  | begin _ (.read ..) => true
  | _ => false

/-- What is left of a statement when it has been begun: nothing, a body that is gone into, a place
inside a loop, or targets that are to be taken up. -/
inductive Begun (room : Nat) : Statement → List Task → Prop
  | nothing {s : Statement} : Begun room s []
  | targets {newline : Bool} {names : List String} {line : Nat} :
      Begun room (.read newline names line)
        (names.map (.reset (if newline then .readln else .read) line))
  | thenBody {c : Expr} {t : Statement} {e : Option Statement} {line : Nat} :
      Begun room (.ifThen c t e line) [.begin (room - 1) t]
  | elseBody {c : Expr} {t e : Statement} {line : Nat} :
      Begun room (.ifThen c t (some e) line) [.begin (room - 1) e]
  | whileDo {c : Expr} {b : Statement} {line : Nat} :
      Begun room (.whileDo c b line) [.whileTest room c b line]
  | repeatUntil {b : List Statement} {c : Expr} {line : Nat} :
      Begun room (.repeatUntil b c line) [.repeatTurn room b c line]
  | forTo {counter : String} {first last : Expr} {down : Bool} {b : Statement} {line : Nat}
      {by_ m : Int} {n : Nat} :
      Begun room (.forTo counter first last down b line) [.forTurn room counter by_ m n b line]
  | branch {selector : Expr} {branches : List (List Value × Statement)}
      {otherwise : List Statement} {line : Nat} (v : Value) :
      Begun room (.caseOf selector branches otherwise line)
        ((chosen v otherwise branches).map (.begin (room - 1)))
  | body {body : List Statement} {line : Nat} :
      Begun room (.compound body line) (body.map (.begin (room - 1)))

/-- What is left of a task when its first part has been carried out. -/
inductive Leaves : Task → List Task → Prop
  | begun {room : Nat} {s : Statement} {ts : List Task} (h : Begun room s ts) :
      Leaves (.begin room s) ts
  | resetDone {word : Keyword} {line : Nat} {name : String} : Leaves (.reset word line name) []
  | whileBody {room : Nat} {c : Expr} {b : Statement} {line : Nat} :
      Leaves (.whileTest room c b line) [.begin (room - 1) b, .whileNext room c b line]
  | whileDone {room : Nat} {c : Expr} {b : Statement} {line : Nat} :
      Leaves (.whileTest room c b line) []
  | whileTest {room : Nat} {c : Expr} {b : Statement} {line : Nat} :
      Leaves (.whileNext room c b line) [.whileTest room c b line]
  | repeatBody {room : Nat} {b : List Statement} {c : Expr} {line : Nat} :
      Leaves (.repeatTurn room b c line) (b.map (.begin (room - 1)) ++ [.untilTest room b c line])
  | repeatDone {room : Nat} {b : List Statement} {c : Expr} {line : Nat} :
      Leaves (.untilTest room b c line) []
  | repeatTurn {room : Nat} {b : List Statement} {c : Expr} {line : Nat} :
      Leaves (.untilTest room b c line) [.repeatTurn room b c line]
  | forBody {room : Nat} {counter : String} {by_ m : Int} {n : Nat} {b : Statement} {line : Nat} :
      Leaves (.forTurn room counter by_ m (n + 1) b line)
        [.begin (room - 1) b, .forNext room counter by_ (m + by_) n b line]
  | forDone {room : Nat} {counter : String} {by_ m : Int} {b : Statement} {line : Nat} :
      Leaves (.forTurn room counter by_ m 0 b line) []
  | forTurn {room : Nat} {counter : String} {by_ m : Int} {n : Nat} {b : Statement} {line : Nat} :
      Leaves (.forNext room counter by_ m n b line) [.forTurn room counter by_ m n b line]

/-- The first part of a statement yields what is left of it. -/
theorem begun_next (room : Nat) (s : Statement) : Yields (Begun room s) (s.next room) := by
  cases s with
  | assign target value line =>
    exact Yields.bind fun _ => Yields.bind fun v => Yields.bind fun _ => Yields.pure .nothing
  | write newline items line =>
    exact Yields.bind fun _ => Yields.bind fun texts => Yields.bind fun _ => Yields.pure .nothing
  | read newline targets line => exact Yields.bind fun _ => Yields.pure .targets
  | ifThen c t e line =>
    refine Yields.bind fun _ => Yields.bind fun holds => ?_
    cases holds with
    | true => exact Yields.pure .thenBody
    | false =>
      cases e with
      | none => exact Yields.pure .nothing
      | some e => exact Yields.pure .elseBody
  | whileDo c b line => exact Yields.bind fun _ => Yields.pure .whileDo
  | repeatUntil b c line => exact Yields.pure .repeatUntil
  | forTo counter first last down b line =>
    refine Yields.bind fun _ => Yields.bind fun v => Yields.bind fun w => ?_
    split
    · exact Yields.pure .forTo
    · exact Yields.fault
  | caseOf selector branches otherwise line =>
    exact Yields.bind fun _ => Yields.bind fun v => Yields.pure (.branch v)
  | compound body line => exact Yields.pure .body
  | empty line => exact Yields.pure .nothing

/-- **A step yields what is left of its task.** What holds of all that can be left is shown by the
cases of `Leaves`, and need not go through the step again. -/
theorem leaves_next (breaks : Nat → Bool) (t : Task) : Yields t.Leaves (t.next breaks) := by
  cases t with
  | begin room s =>
    exact Yields.bind fun _ s' ts u h => .begun (begun_next room s s' ts u h)
  | reset word line name => exact Yields.bind fun _ => Yields.pure .resetDone
  | whileTest room c b line =>
    refine Yields.bind fun holds => ?_
    cases holds with
    | true => exact Yields.pure .whileBody
    | false => exact Yields.pure .whileDone
  | whileNext room c b line => exact Yields.bind fun _ => Yields.pure .whileTest
  | repeatTurn room b c line => exact Yields.bind fun _ => Yields.pure .repeatBody
  | untilTest room b c line =>
    refine Yields.bind fun holds => ?_
    cases holds with
    | true => exact Yields.pure .repeatDone
    | false => exact Yields.pure .repeatTurn
  | forTurn room counter by_ first n b line =>
    cases n with
    | zero => exact Yields.pure .forDone
    | succ n => exact Yields.bind fun _ => Yields.pure .forBody
  | forNext room counter by_ first n b line => exact Yields.bind fun _ => Yields.pure .forTurn

/-- What is left of a task has no more room than the task, and only a read leaves targets to be
taken up. -/
theorem Leaves.parts {t : Task} {ts : List Task} (h : t.Leaves ts) :
    ∀ t' ∈ ts, t'.room ≤ t.room ∧ (t'.isReset = true → t.isRead = true) := by
  have hinner {room : Nat} {read : Prop} (s : Statement) :
      (begin (room - 1) s).room ≤ room ∧ ((begin (room - 1) s).isReset = true → read) :=
    ⟨Nat.sub_le _ _, nofun⟩
  have hloop {room : Nat} {read : Prop} {t' : Task} (hroom : t'.room = room)
      (hreset : t'.isReset = false) : t'.room ≤ room ∧ (t'.isReset = true → read) := by
    refine ⟨Nat.le_of_eq hroom, fun h => ?_⟩
    rw [hreset] at h
    cases h
  -- All but the targets of a read are statements to be begun, or places inside a loop that goes on.
  cases h with
  | begun h =>
    cases h with
    | nothing => exact List.forall_mem_nil _
    | targets => exact List.forall_mem_map.2 fun _ _ => ⟨Nat.zero_le _, fun _ => rfl⟩
    | thenBody | elseBody => exact List.forall_mem_singleton.2 (hinner _)
    | branch | body => exact List.forall_mem_map.2 fun s _ => hinner s
    | whileDo | repeatUntil | forTo => exact List.forall_mem_singleton.2 (hloop rfl rfl)
  | resetDone | whileDone | repeatDone | forDone => exact List.forall_mem_nil _
  | whileBody | forBody =>
    exact List.forall_mem_cons.2 ⟨hinner _, List.forall_mem_singleton.2 (hloop rfl rfl)⟩
  | repeatBody =>
    exact List.forall_mem_append.2
      ⟨List.forall_mem_map.2 fun s _ => hinner s, List.forall_mem_singleton.2 (hloop rfl rfl)⟩
  | whileTest | repeatTurn | forTurn => exact List.forall_mem_singleton.2 (hloop rfl rfl)

/-! ## Steps come to an end -/

/-- The weight of a task. A task that takes a step of the budget need not have any. -/
noncomputable def weight : Task → Nat
  | begin _ s => sizeOf s
  | reset .. | untilTest .. => 1
  | whileTest _ _ b _ | forTurn _ _ _ _ _ b _ => sizeOf b + 1
  | whileNext .. | repeatTurn .. | forNext .. => 0

/-- The weight of several tasks. -/
noncomputable def weightAll : List Task → Nat
  | [] => 0
  | t :: ts => t.weight + weightAll ts

/-- The weight of tasks is the weight of their parts together. -/
theorem weightAll_append (ts us : List Task) :
    weightAll (ts ++ us) = weightAll ts + weightAll us := by
  induction ts with
  | nil => exact (Nat.zero_add _).symm
  | cons t ts ih => rw [List.cons_append, weightAll, weightAll, ih, Nat.add_assoc]

/-- Statements that are to be begun weigh less than their list. -/
theorem weightAll_begin_lt (room : Nat) (ss : List Statement) :
    weightAll (ss.map (begin room)) < sizeOf ss := by
  induction ss with
  | nil => exact Nat.zero_lt_one
  | cons s ss ih =>
    change sizeOf s + weightAll (ss.map (begin room)) < 1 + sizeOf s + sizeOf ss
    omega

/-- Variables that are to be read weigh less than the list of their names. -/
theorem weightAll_reset (word : Keyword) (line : Nat) (names : List String) :
    weightAll (names.map (.reset word line)) < sizeOf names := by
  induction names with
  | nil => exact Nat.zero_lt_one
  | cons name names ih =>
    change 1 + weightAll (names.map (.reset word line)) < 1 + sizeOf name + sizeOf names
    omega

/-- The statements that a selector leads to weigh less than all that the case has inside. -/
theorem weightAll_chosen (room : Nat) (v : Value) (otherwise : List Statement)
    (bs : List (List Value × Statement)) :
    weightAll ((chosen v otherwise bs).map (begin room)) < sizeOf otherwise + sizeOf bs := by
  induction bs with
  | nil =>
    have := weightAll_begin_lt room otherwise
    rw [chosen]
    omega
  | cons b bs ih =>
    obtain ⟨labels, s⟩ := b
    have hcons : sizeOf ((labels, s) :: bs) = 1 + (1 + sizeOf labels + sizeOf s) + sizeOf bs := rfl
    rw [chosen, hcons]
    split
    · have := weightAll_begin_lt room [s]
      have hone : sizeOf [s] = 1 + sizeOf s + 1 := rfl
      omega
    · omega

/-- What is left of a statement weighs less: the places inside a loop are weighed so as to be
lighter than the loop, and everything else that is left is a part of the statement. -/
theorem Begun.weightAll_lt {room : Nat} {s : Statement} {ts : List Task} (h : Begun room s ts) :
    weightAll ts < sizeOf s := by
  have hexpr (e : Expr) : 0 < sizeOf e := by
    cases e <;> simp only [Expr.literal.sizeOf_spec, Expr.variable.sizeOf_spec,
      Expr.unary.sizeOf_spec, Expr.binary.sizeOf_spec, Expr.call.sizeOf_spec] <;> omega
  have hone (t : Task) : weightAll [t] = t.weight := rfl
  cases h with
  | nothing =>
    change 0 < sizeOf s
    cases s <;> simp +arith
  | @targets newline names line =>
    have := weightAll_reset (if newline then .readln else .read) line names
    rw [Statement.read.sizeOf_spec]
    omega
  | thenBody =>
    rw [hone, weight, Statement.ifThen.sizeOf_spec]
    omega
  | elseBody =>
    rw [hone, weight, Statement.ifThen.sizeOf_spec, Option.some.sizeOf_spec]
    omega
  | @whileDo c =>
    have := hexpr c
    rw [hone, weight, Statement.whileDo.sizeOf_spec]
    omega
  | repeatUntil =>
    rw [hone, weight, Statement.repeatUntil.sizeOf_spec]
    omega
  | @forTo _ first =>
    have := hexpr first
    rw [hone, weight, Statement.forTo.sizeOf_spec]
    omega
  | @branch _ branches otherwise _ v =>
    have := weightAll_chosen (room - 1) v otherwise branches
    rw [Statement.caseOf.sizeOf_spec]
    omega
  | @body body =>
    have := weightAll_begin_lt (room - 1) body
    rw [Statement.compound.sizeOf_spec]
    omega

section Lighter

variable {breaks : Nat → Bool} {t : Task} {ts : List Task} {s u : RunState}

/-- A single step of a run never takes back steps or output. -/
theorem forward_next (t : Task) : Forward (t.next breaks) := by
  have h := Forward.closed
  -- Each step is a sequence of parts for which `Forward.closed` has a rule.
  cases t with
  | begin room st =>
    refine h.bind (h.enter breaks st) fun _ => ?_
    cases st with
    | assign target value line =>
      exact h.bind h.step fun _ => h.bind (h.eval room value) fun v =>
        h.bind (h.assign target v line) fun _ => h.pure []
    | write newline items line =>
      exact h.bind h.step fun _ => h.bind (h.sequential.itemTexts room line items) fun _ =>
        h.bind (h.emit _ newline) fun _ => h.pure []
    | read newline targets line => exact h.bind h.step fun _ => h.pure _
    | ifThen c t e line =>
      refine h.bind h.step fun _ => h.bind (h.sequential.condition room c line) fun holds => ?_
      cases holds with
      | true => exact h.pure _
      | false => exact h.pure _
    | whileDo c b line => exact h.bind h.step fun _ => h.pure _
    | repeatUntil b c line => exact h.pure _
    | forTo counter first last down b line =>
      refine h.bind h.step fun _ => h.bind (h.eval room first) fun v =>
        h.bind (h.eval room last) fun w => ?_
      split
      · exact h.pure _
      · exact h.fault line _
    | caseOf selector branches otherwise line =>
      exact h.bind h.step fun _ => h.bind (h.eval room selector) fun v => h.pure _
    | compound body line => exact h.pure _
    | empty line => exact h.pure _
  | reset word line name => exact h.bind (h.readNothing word line name) fun _ => h.pure []
  | whileTest room c b line =>
    refine h.bind (h.sequential.condition room c line) fun holds => ?_
    cases holds with
    | true => exact h.pure _
    | false => exact h.pure _
  | whileNext room c b line => exact h.bind h.step fun _ => h.pure _
  | repeatTurn room b c line => exact h.bind h.step fun _ => h.pure _
  | untilTest room b c line =>
    refine h.bind (h.sequential.condition room c line) fun holds => ?_
    cases holds with
    | true => exact h.pure _
    | false => exact h.pure _
  | forTurn room counter by_ first n b line =>
    cases n with
    | zero => exact h.pure _
    | succ n => exact h.bind (h.assign counter _ line) fun _ => h.pure _
  | forNext room counter by_ first n b line => exact h.bind h.step fun _ => h.pure _

/-- An action that takes a step leaves fewer to go. -/
theorem left_lt_of_step_then {new : List Task}
    (h : (do step; return new : Run (List Task)) s = .ok ts u) : u.left < s.left := by
  cases hstep : step s with
  | ok a v =>
    rw [bind_of_ok hstep] at h
    injection h with _ h
    exact h ▸ left_lt_of_step hstep
  | error e v =>
    rw [bind_of_error hstep] at h
    exact nomatch h

/-- A step goes up, and takes a step of the budget or makes the tasks lighter. -/
theorem lighter_of_next (h : t.next breaks s = .ok ts u) :
    u.left < s.left ∨ u.left ≤ s.left ∧ weightAll ts < t.weight := by
  have hleft : u.left ≤ s.left := ((forward_next t).of_ok h).left
  have hnil : weightAll [] = 0 := rfl
  have hone (t : Task) : weightAll [t] = t.weight := rfl
  have htwo (t t' : Task) : weightAll [t, t'] = t.weight + t'.weight := rfl
  -- The three tasks that begin a further turn take a step of the budget; the others leave less to
  -- do.
  cases leaves_next breaks t s ts u h with
  | begun hbegun => exact .inr ⟨hleft, hbegun.weightAll_lt⟩
  | whileTest | repeatBody | forTurn => exact .inl (left_lt_of_step_then h)
  | resetDone | whileDone | repeatDone | forDone =>
    refine .inr ⟨hleft, ?_⟩
    rw [hnil, weight]
    omega
  | repeatTurn =>
    refine .inr ⟨hleft, ?_⟩
    rw [hone, weight, weight]
    omega
  | whileBody | forBody =>
    refine .inr ⟨hleft, ?_⟩
    rw [htwo, weight, weight, weight]
    omega

end Lighter

end Task

/-! ## Moments -/

/-- A moment of a run: the tasks that are still to be done, and the state. -/
structure Moment where
  tasks : List Task
  state : RunState

namespace Moment

variable {breaks : Nat → Bool} {m n : Moment}

/-- One moment is followed by another. -/
inductive Next (breaks : Nat → Bool) : Moment → Moment → Prop where
  | step {t : Task} {new ts : List Task} {s u : RunState} (h : t.next breaks s = .ok new u) :
      Next breaks ⟨t :: ts, s⟩ ⟨new ++ ts, u⟩

/-- The ending of a run that no moment follows on this one. -/
def ending? (breaks : Nat → Bool) (m : Moment) : Option Ending :=
  match m.tasks with
  | [] => some ⟨none, m.state⟩
  | t :: _ =>
    match t.next breaks m.state with
    | .ok _ _ => none
    | .error e u => some ⟨some e, u⟩

/-- What the tasks of a moment come to. -/
def outcome (breaks : Nat → Bool) (m : Moment) : Ending :=
  match Task.actions breaks m.tasks m.state with
  | .ok _ s => ⟨none, s⟩
  | .error e s => ⟨some e, s⟩

/-- A step does not change what the whole run comes to. -/
theorem outcome_eq_of_next (h : Next breaks m n) : n.outcome breaks = m.outcome breaks := by
  obtain ⟨h⟩ := h
  rename_i t new ts s u
  have hactions : Task.actions breaks (t :: ts) s = Task.actions breaks (new ++ ts) u := by
    rw [Task.actions_cons, Task.action_eq, bind_assoc, bind_of_ok h, Task.actions_append]
  simp only [outcome, hactions]

/-- The ending of a last moment is what its tasks come to. -/
theorem outcome_of_ending {e : Ending} (h : m.ending? breaks = some e) : m.outcome breaks = e := by
  obtain ⟨ts, s⟩ := m
  cases ts with
  | nil => exact Option.some.inj h
  | cons t ts =>
    cases hnext : t.next breaks s with
    | ok new u => simp [ending?, hnext] at h
    | error stop u =>
      have hactions : Task.actions breaks (t :: ts) s = .error stop u := by
        rw [Task.actions_cons, Task.action_eq, bind_assoc, bind_of_error hnext]
      simp only [ending?, hnext, Option.some.injEq] at h
      simp only [outcome, hactions, h]

/-- Tasks whose first steps are the same come to the same. -/
theorem outcome_congr {t t' : Task} {ts : List Task} {s : RunState}
    (h : t.next breaks s = t'.next breaks s) :
    outcome breaks ⟨t :: ts, s⟩ = outcome breaks ⟨t' :: ts, s⟩ := by
  cases hnext : t'.next breaks s with
  | ok new u =>
    rw [← outcome_eq_of_next (.step hnext), ← outcome_eq_of_next (.step (h.trans hnext))]
  | error stop u =>
    have hleft : ending? breaks ⟨t :: ts, s⟩ = some ⟨some stop, u⟩ := by
      simp only [ending?, h, hnext]
    have hright : ending? breaks ⟨t' :: ts, s⟩ = some ⟨some stop, u⟩ := by
      simp only [ending?, hnext]
    rw [outcome_of_ending hleft, outcome_of_ending hright]

/-- Steps come to an end, and the ending is what the whole run comes to. -/
theorem exists_ending (m : Moment) :
    ∃ n, Relation.ReflTransGen (Next breaks) m n ∧ n.ending? breaks = some (m.outcome breaks) := by
  obtain ⟨ts, s⟩ := m
  cases ts with
  | nil => exact ⟨⟨[], s⟩, .refl, rfl⟩
  | cons t ts =>
    cases h : t.next breaks s with
    | error stop u =>
      have hending : ending? breaks ⟨t :: ts, s⟩ = some ⟨some stop, u⟩ := by
        simp only [ending?, h]
      exact ⟨⟨t :: ts, s⟩, .refl, by rw [hending, outcome_of_ending hending]⟩
    | ok new u =>
      have hnext : Next breaks ⟨t :: ts, s⟩ ⟨new ++ ts, u⟩ := .step h
      obtain ⟨n, hreached, hending⟩ := exists_ending ⟨new ++ ts, u⟩
      exact ⟨n, .head hnext hreached, by rw [hending, outcome_eq_of_next hnext]⟩
termination_by (m.state.left, Task.weightAll m.tasks)
decreasing_by
  simp only [Prod.lex_def, Task.weightAll_append]
  have hlighter := Task.lighter_of_next h
  have hcons : Task.weightAll (t :: ts) = t.weight + Task.weightAll ts := rfl
  omega

end Moment

/-- A moment of the runs of a program with a budget of steps. -/
def Program.Reaches (p : Program) (room budget : Nat) (breaks : Nat → Bool) (m : Moment) : Prop :=
  Relation.ReflTransGen (Moment.Next breaks) ⟨p.body.map (.begin room), p.start budget⟩ m

/-- **A run ends as its last moment does.** -/
theorem run_reached (p : Program) (room budget : Nat) (breaks : Nat → Bool) :
    ∃ m, p.Reaches room budget breaks m ∧ m.ending? breaks = some (p.run room budget breaks) := by
  obtain ⟨m, hreached, hending⟩ :=
    @Moment.exists_ending breaks ⟨p.body.map (.begin room), p.start budget⟩
  refine ⟨m, hreached, ?_⟩
  rw [hending]
  simp only [Moment.outcome, Task.actions_begin]
  rfl

/-- A run comes to what the tasks of any of its moments come to. -/
theorem run_eq_outcome {p : Program} {room budget : Nat} {breaks : Nat → Bool} {m : Moment}
    (hm : p.Reaches room budget breaks m) : p.run room budget breaks = m.outcome breaks := by
  have hsame : m.outcome breaks
      = Moment.outcome breaks ⟨p.body.map (.begin room), p.start budget⟩ := by
    induction hm with
    | refl => rfl
    | tail _ hnext ih => exact (Moment.outcome_eq_of_next hnext).trans ih
  rw [hsame]
  simp only [Moment.outcome, Task.actions_begin]
  rfl

/-- A run ends as a moment does that it comes to and that has an ending. -/
theorem run_of_ending {p : Program} {room budget : Nat} {breaks : Nat → Bool} {m : Moment}
    {e : Ending} (hm : p.Reaches room budget breaks m) (hending : m.ending? breaks = some e) :
    p.run room budget breaks = e :=
  (run_eq_outcome hm).trans (Moment.outcome_of_ending hending)

/-! ## Tasks in front of others -/

section Parts

variable {breaks : Nat → Bool} {t : Task} {later : List Task} {s u : RunState}

/-- Tasks that come later do not change a step. -/
theorem Moment.Next.append {m n : Moment} (h : Moment.Next breaks m n) (later : List Task) :
    Moment.Next breaks ⟨m.tasks ++ later, m.state⟩ ⟨n.tasks ++ later, n.state⟩ := by
  obtain ⟨h⟩ := h
  rw [List.append_assoc]
  exact .step h

/-- A task that comes to its end leaves those that come later. -/
theorem reaches_of_action (h : t.action breaks s = .ok () u) (later : List Task) :
    Relation.ReflTransGen (Moment.Next breaks) ⟨t :: later, s⟩ ⟨later, u⟩ := by
  have houtcome : Moment.outcome breaks ⟨[t], s⟩ = ⟨none, u⟩ := by
    have hactions : Task.actions breaks [t] s = .ok () u := by
      rw [Task.actions_cons, bind_of_ok h]
      rfl
    simp only [Moment.outcome, hactions]
  obtain ⟨⟨ts, v⟩, hreached, hending⟩ := @Moment.exists_ending breaks ⟨[t], s⟩
  rw [houtcome] at hending
  have hlast : ts = [] ∧ v = u := by
    cases ts with
    | nil =>
      injection hending with hending
      injection hending with _ hstate
      exact ⟨rfl, hstate⟩
    | cons t' ts =>
      -- An ending in front of a task is a stop.
      simp only [Moment.ending?] at hending
      split at hending
      · exact nomatch hending
      · injection hending with hending
        injection hending with hstop
        exact nomatch hstop
  obtain ⟨rfl, rfl⟩ := hlast
  exact hreached.lift (fun m => (⟨m.tasks ++ later, m.state⟩ : Moment)) fun _ _ h => h.append later

/-- A step that is stopped stops the run. -/
theorem run_of_next_error {p : Program} {room budget : Nat} {e : Stop}
    (hm : p.Reaches room budget breaks ⟨t :: later, s⟩) (h : t.next breaks s = .error e u) :
    p.run room budget breaks = ⟨some e, u⟩ := by
  refine run_of_ending hm ?_
  simp only [Moment.ending?, h]

/-- A task that is stopped stops the run. -/
theorem run_of_action_error {p : Program} {room budget : Nat} {e : Stop}
    (hm : p.Reaches room budget breaks ⟨t :: later, s⟩) (h : t.action breaks s = .error e u) :
    p.run room budget breaks = ⟨some e, u⟩ := by
  have hactions : Task.actions breaks (t :: later) s = .error e u := by
    rw [Task.actions_cons, bind_of_error h]
  rw [run_eq_outcome hm]
  simp only [Moment.outcome, hactions]

end Parts

/-- No task of a run has more room than the run. -/
theorem room_le_of_reaches {p : Program} {room budget : Nat} {breaks : Nat → Bool} {m : Moment}
    (hm : p.Reaches room budget breaks m) : ∀ t ∈ m.tasks, t.room ≤ room := by
  induction hm with
  | refl => exact List.forall_mem_map.2 fun _ _ => Nat.le_refl room
  | tail _ hnext ih =>
    obtain ⟨hnext⟩ := hnext
    obtain ⟨ht, hts⟩ := List.forall_mem_cons.1 ih
    refine List.forall_mem_append.2 ⟨fun t' ht' => ?_, hts⟩
    exact Nat.le_trans ((Task.leaves_next breaks _ _ _ _ hnext).parts t' ht').1 ht

section Invariants

variable {p : Program} {room budget : Nat} {breaks : Nat → Bool} {I : RunState → Prop}
  {W : Task → Prop} {S : Stop → Prop}

/-- What every step preserves holds of each moment and of all its tasks. -/
theorem invariant_of_reaches (hstart : I (p.start budget)) (hbody : ∀ s ∈ p.body, W (.begin room s))
    (hnext : ∀ t s, W t → I s → match t.next breaks s with
      | .ok ts u => I u ∧ ∀ t ∈ ts, W t
      | .error e u => I u ∧ S e)
    {m : Moment} (hm : p.Reaches room budget breaks m) : I m.state ∧ ∀ t ∈ m.tasks, W t := by
  induction hm with
  | refl => exact ⟨hstart, List.forall_mem_map.2 hbody⟩
  | tail _ hstep ih =>
    cases hstep with
    | @step t new ts s u h =>
      obtain ⟨hs, ht⟩ := ih
      have hkept := hnext t s (ht t List.mem_cons_self) hs
      rw [h] at hkept
      refine ⟨hkept.1, List.forall_mem_append.2 ⟨hkept.2, ?_⟩⟩
      intro t' ht'
      exact ht t' (List.mem_cons_of_mem t ht')

/-- **What every step preserves holds throughout a run.** `I` is asked of the states, `W` of the
tasks, and `S` of what stops a run. -/
theorem invariant_of_next (hstart : I (p.start budget)) (hbody : ∀ s ∈ p.body, W (.begin room s))
    (hnext : ∀ t s, W t → I s → match t.next breaks s with
      | .ok ts u => I u ∧ ∀ t ∈ ts, W t
      | .error e u => I u ∧ S e) :
    (∀ m, p.Reaches room budget breaks m → I m.state)
      ∧ I (p.run room budget breaks).state ∧ ∀ e ∈ (p.run room budget breaks).stop, S e := by
  refine ⟨fun m hm => (invariant_of_reaches hstart hbody hnext hm).1, ?_⟩
  -- The end of a run is reached like any other moment, and there the next step stops it.
  obtain ⟨⟨ts, s⟩, hm, hending⟩ := run_reached p room budget breaks
  obtain ⟨hs, ht⟩ := invariant_of_reaches hstart hbody hnext hm
  cases ts with
  | nil =>
    rw [← Option.some.inj hending]
    exact ⟨hs, fun e he => nomatch he⟩
  | cons t ts =>
    have hkept := hnext t s (ht t List.mem_cons_self) hs
    cases h : t.next breaks s with
    | ok new u => simp [Moment.ending?, h] at hending
    | error stop u =>
      rw [h] at hkept
      simp only [Moment.ending?, h, Option.some.injEq] at hending
      rw [← hending]
      refine ⟨hkept.1, ?_⟩
      intro e he
      exact Option.some.inj he ▸ hkept.2

end Invariants

end TurboBench.Pascal
