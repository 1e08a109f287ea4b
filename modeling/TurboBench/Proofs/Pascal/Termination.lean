import TurboBench.Proofs.Pascal.SmallSteps
import TurboBench.Proofs.Pascal.StepLimit

/-!
# Every run ends within its limit

The small steps of a run count nothing but the budget: a loop goes back to its test, and a counting
loop to the values that are left of its range. That they come to an end all the same is a matter of
two measures, taken one before the other. A turn of a loop takes a step of the budget, and
everything else makes the tasks lighter (`Task.lighter_of_next`). So the relation between moments is
well-founded, for every program tree and whatever its conditions yield.

The steps that are reported are computed from what is left of the budget. That they are the steps
taken is an account of its own: `Task.charge` says which tasks take one, `Moment.Charges` adds them
up along a run, and what is charged and what is left make up the budget at every moment.
-/

set_option autoImplicit false

namespace TurboBench.Pascal

open Run

/-! ## No run goes on for ever -/

/-- No row of moments goes on for ever. -/
theorem Moment.wellFounded_next (breaks : Nat → Bool) :
    WellFounded fun n m => Moment.Next breaks m n := by
  let rank (m : Moment) : Nat × Nat := (m.state.left, Task.weightAll m.tasks)
  have hrank : ∀ n m, Moment.Next breaks m n → Prod.Lex (· < ·) (· < ·) (rank n) (rank m) := by
    intro n m hnext
    cases hnext with
    | @step t new ts s u h =>
      have hcons : Task.weightAll (t :: ts) = t.weight + Task.weightAll ts := rfl
      have hlighter := Task.lighter_of_next h
      refine Prod.lex_def.2 ?_
      simp only [rank, Task.weightAll_append, hcons]
      omega
  exact Subrelation.wf (fun {n m} h => hrank n m h)
    (InvImage.wf rank (Prod.lex ⟨_, Nat.lt_wfRel.wf⟩ ⟨_, Nat.lt_wfRel.wf⟩).wf)

/-- A moment that no other follows has an ending. -/
theorem Moment.exists_ending_of_last {breaks : Nat → Bool} {m : Moment}
    (h : ∀ n, ¬ Moment.Next breaks m n) : ∃ e, m.ending? breaks = some e := by
  obtain ⟨ts, s⟩ := m
  cases ts with
  | nil => exact ⟨_, rfl⟩
  | cons t ts =>
    cases hnext : t.next breaks s with
    | ok new u => exact absurd (Moment.Next.step hnext) (h _)
    | error e u => exact ⟨⟨some e, u⟩, by simp only [ending?, hnext]⟩

/-! ## What a task takes of the budget -/

/-- The steps that a statement takes when it is begun. A `repeat` loop takes its steps turn by
turn. -/
def Statement.charge : Statement → Nat
  | .repeatUntil .. | .compound .. | .empty _ => 0
  | _ => 1

/-- The steps that a task takes before anything else is done of it. -/
def Task.charge : Task → Nat
  | .begin _ s => s.charge
  | .whileNext .. | .repeatTurn .. | .forNext .. => 1
  | _ => 0

/-- The steps that are taken at a moment. -/
def Moment.charge (m : Moment) : Nat :=
  (m.tasks.head?.map Task.charge).getD 0

/-- The run comes from one moment to another, and takes `k` steps on the way. -/
inductive Moment.Charges (breaks : Nat → Bool) (m : Moment) : Nat → Moment → Prop where
  | refl : Charges breaks m 0 m
  | tail {k : Nat} {n o : Moment} (h : Charges breaks m k n) (hnext : Moment.Next breaks n o) :
      Charges breaks m (k + n.charge) o

/-- An action that takes no step and is stopped by faults only. -/
def Free {α : Type} (p : Run α) : Prop :=
  ∀ s, match p s with
    | .ok _ t => t.left = s.left
    | .error e t => t.left = s.left ∧ ∃ error, e = .fault error

/-- An action that takes `k` steps, unless it is stopped before it does anything at all. A fault
comes only after the steps. -/
def Spends {α : Type} (k : Nat) (p : Run α) : Prop :=
  ∀ s, match p s with
    | .ok _ t => t.left + k = s.left
    | .error (.fault _) t => t.left + k = s.left
    | .error _ t => t.left = s.left

section Costs

variable {α β : Type} {p : Run α} {f : α → Run β}

namespace Free

theorem pure (a : α) : Free (Pure.pure a : Run α) :=
  fun _ => rfl

theorem fault (line : Nat) (f : Fault) : Free (Run.fault line f : Run α) :=
  fun _ => ⟨rfl, _, rfl⟩

/-- Free actions one behind the other are free. -/
theorem bind (hp : Free p) (hf : ∀ a, Free (f a)) : Free (p >>= f) := by
  intro s
  have hfirst := hp s
  cases hps : p s with
  | error e t =>
    rw [hps] at hfirst
    rw [bind_of_error hps]
    exact hfirst
  | ok a t =>
    rw [hps] at hfirst
    rw [bind_of_ok hps]
    have hsecond := hf a t
    cases hft : f a t with
    | ok b u =>
      rw [hft] at hsecond
      exact Eq.trans hsecond hfirst
    | error e u =>
      rw [hft] at hsecond
      exact ⟨hsecond.1.trans hfirst, hsecond.2⟩

/-- Evaluating an expression takes no step. -/
theorem eval (room : Nat) (e : Expr) : Free (Run.eval room e) := by
  intro s
  unfold Run.eval
  cases e.evalWithin s.store s.line room with
  | ok v => exact rfl
  | error error => exact ⟨rfl, error, rfl⟩

/-- Assigning takes no step. -/
theorem assign (name : String) (v : Value) (line : Nat) : Free (Run.assign name v line) := by
  intro s
  unfold Run.assign
  cases charge line (s.store.set name v) with
  | ok σ => exact rfl
  | error error => exact ⟨rfl, error, rfl⟩

/-- Writing takes no step. -/
theorem emit (text : String) (newline : Bool) : Free (Run.emit text newline) := by
  intro s
  cases newline with
  | true => exact rfl
  | false => exact rfl

/-- Reading takes no step. -/
theorem readNothing (word : Keyword) (line : Nat) (name : String) :
    Free (Run.readNothing word line name) := by
  intro s
  unfold Run.readNothing
  cases s.store.reset? name with
  | some σv => exact rfl
  | none => exact ⟨rfl, _, rfl⟩

theorem sequential : Sequential Free where
  pure := pure
  bind := bind
  fault := fault
  eval := eval

/-- What is done behind a step that was taken. -/
theorem afterStep {f : Unit → Run β} (hf : Free (f ())) : Spends 1 (Run.step >>= f) := by
  intro s
  cases hs : s.left with
  | zero =>
    rw [bind_of_error (step_of_left_zero hs)]
    exact hs
  | succ n =>
    rw [bind_of_ok (step_of_left_succ hs)]
    have hrest := hf { s with left := n }
    generalize f () { s with left := n } = result at hrest
    cases result with
    | ok b t => exact congrArg (· + 1) hrest
    | error e t =>
      obtain ⟨hleft, error, rfl⟩ := hrest
      exact congrArg (· + 1) hleft

/-- A free action spends nothing. -/
theorem spends (hp : Free p) : Spends 0 p := by
  intro s
  have h := hp s
  generalize p s = result at h
  cases result with
  | ok a t => exact h
  | error e t =>
    obtain ⟨hleft, error, rfl⟩ := h
    exact hleft

end Free

/-- The first part of a statement spends what is charged for the statement. -/
theorem spends_statement (room : Nat) (s : Statement) : Spends s.charge (s.next room) := by
  -- All but blocks, `repeat` and the empty statement take a step before anything else.
  cases s with
  | assign target value line =>
    exact Free.afterStep ((Free.eval room value).bind fun v =>
      (Free.assign target v line).bind fun _ => Free.pure [])
  | write newline items line =>
    exact Free.afterStep ((Free.sequential.itemTexts room line items).bind fun texts =>
      (Free.emit _ newline).bind fun _ => Free.pure [])
  | read newline targets line => exact Free.afterStep (Free.pure _)
  | ifThen c t e line =>
    refine Free.afterStep ((Free.sequential.condition room c line).bind fun holds => ?_)
    cases holds with
    | true => exact Free.pure _
    | false => exact Free.pure _
  | whileDo c b line => exact Free.afterStep (Free.pure _)
  | repeatUntil b c line => exact (Free.pure _).spends
  | forTo counter first last down b line =>
    refine Free.afterStep ((Free.eval room first).bind fun v =>
      (Free.eval room last).bind fun w => ?_)
    split
    · exact Free.pure _
    · exact Free.fault line _
  | caseOf selector branches otherwise line =>
    exact Free.afterStep ((Free.eval room selector).bind fun v => Free.pure _)
  | compound body line => exact (Free.pure _).spends
  | empty line => exact (Free.pure _).spends

/-- A statement that is begun takes its steps, unless there is a breakpoint on its line. -/
theorem spends_begin (breaks : Nat → Bool) (room : Nat) (st : Statement) :
    Spends st.charge ((Task.begin room st).next breaks) := by
  intro s
  by_cases hpaused : st.isStep = true ∧ breaks st.line = true
  · have henter : enter breaks st s = .error (.breakpoint st.line) { s with line := st.line } := by
      rw [enter_apply, if_pos hpaused.1, if_pos hpaused.2]
    have hnext : (Task.begin room st).next breaks s
        = .error (.breakpoint st.line) { s with line := st.line } := bind_of_error henter
    rw [hnext]
  · have henter : ∃ s' : RunState, enter breaks st s = .ok () s' ∧ s'.left = s.left := by
      rw [enter_apply]
      split
      · rw [if_neg fun hmarked => hpaused ⟨‹_›, hmarked⟩]
        exact ⟨_, rfl, rfl⟩
      · exact ⟨_, rfl, rfl⟩
    obtain ⟨s', hs', hleft⟩ := henter
    have hnext : (Task.begin room st).next breaks s = st.next room s' := bind_of_ok hs'
    rw [hnext, ← hleft]
    exact spends_statement room st s'

/-- **What a task takes of the budget is its charge.** -/
theorem spends_next (breaks : Nat → Bool) (t : Task) : Spends t.charge (t.next breaks) := by
  cases t with
  | begin room st => exact spends_begin breaks room st
  | reset word line name =>
    exact ((Free.readNothing word line name).bind fun _ => Free.pure []).spends
  | whileTest room c b line =>
    refine ((Free.sequential.condition room c line).bind fun holds => ?_).spends
    cases holds with
    | true => exact Free.pure _
    | false => exact Free.pure _
  | whileNext room c b line => exact Free.afterStep (Free.pure _)
  | repeatTurn room b c line => exact Free.afterStep (Free.pure _)
  | untilTest room b c line =>
    refine ((Free.sequential.condition room c line).bind fun holds => ?_).spends
    cases holds with
    | true => exact Free.pure _
    | false => exact Free.pure _
  | forTurn room counter by_ first n b line =>
    cases n with
    | zero => exact (Free.pure _).spends
    | succ n => exact ((Free.assign counter _ line).bind fun _ => Free.pure _).spends
  | forNext room counter by_ first n b line => exact Free.afterStep (Free.pure _)

end Costs

/-! ## Whole runs -/

section Runs

variable {breaks : Nat → Bool} {m n : Moment} {k : Nat}

/-- What was charged and what is left make up what there was. -/
theorem Moment.Charges.left_add (h : Moment.Charges breaks m k n) :
    n.state.left + k = m.state.left := by
  induction h with
  | refl => rfl
  | @tail k n o _ hnext ih =>
    cases hnext with
    | @step t new ts s u hnext =>
      have hspent := spends_next breaks t s
      rw [hnext] at hspent
      have hcharge : Moment.charge ⟨t :: ts, s⟩ = t.charge := rfl
      simp only [hcharge] at hspent ih ⊢
      omega

/-- On the way from one moment to another some number of steps is taken. -/
theorem Moment.exists_charges (h : Relation.ReflTransGen (Moment.Next breaks) m n) :
    ∃ k, Moment.Charges breaks m k n := by
  induction h with
  | refl => exact ⟨0, .refl⟩
  | tail _ hnext ih =>
    obtain ⟨k, hk⟩ := ih
    exact ⟨_, hk.tail hnext⟩

/-- The steps that the last moment of a run still takes: those of a task that is at fault. -/
def Ending.charge (m : Moment) (e : Ending) : Nat :=
  match e.stop with
  | some (.fault _) => m.charge
  | _ => 0

/-- At its ending a run has as many steps to go as at its last moment, less those that are still
taken. -/
theorem left_add_of_ending {e : Ending} (h : m.ending? breaks = some e) :
    e.state.left + e.charge m = m.state.left := by
  obtain ⟨ts, s⟩ := m
  cases ts with
  | nil =>
    obtain rfl := Option.some.inj h
    rfl
  | cons t ts =>
    have hspent := spends_next breaks t s
    cases hnext : t.next breaks s with
    | ok new u => simp [Moment.ending?, hnext] at h
    | error stop u =>
      rw [hnext] at hspent
      simp only [Moment.ending?, hnext, Option.some.injEq] at h
      subst h
      cases stop with
      | fault error => exact hspent
      | stepLimit => exact hspent
      | breakpoint line => exact hspent

end Runs

/-- That the runs of a program under a limit end, and end within it. -/
structure Program.EndsWithin (p : Program) (room limit : Nat) (breaks : Nat → Bool) : Prop where
  /-- The run does not go on for ever. -/
  terminates : Acc (fun n m => Moment.Next breaks m n) ⟨p.body.map (.begin room), p.start limit⟩
  /-- It ends at a moment, and the ending of such a moment is that of the run. -/
  ends : (∃ m, p.Reaches room limit breaks m ∧ ∀ n, ¬ Moment.Next breaks m n)
    ∧ ∀ m, p.Reaches room limit breaks m → (∀ n, ¬ Moment.Next breaks m n) →
      m.ending? breaks = some (p.run room limit breaks)
  /-- Every moment that the run comes to has a number of steps that were taken before it. -/
  charged : ∀ m, p.Reaches room limit breaks m →
    ∃ k, Moment.Charges breaks ⟨p.body.map (.begin room), p.start limit⟩ k m
  /-- At no moment more steps have been taken than the limit permits. -/
  within : ∀ k m, Moment.Charges breaks ⟨p.body.map (.begin room), p.start limit⟩ k m → k ≤ limit
  /-- The steps that are reported are those that were taken. -/
  counted : ∀ k m, Moment.Charges breaks ⟨p.body.map (.begin room), p.start limit⟩ k m →
    m.ending? breaks = some (p.run room limit breaks) →
    (p.execute room limit breaks).steps = k + (p.run room limit breaks).charge m
  /-- They are not more than the limit. -/
  steps_le : (p.execute room limit breaks).steps ≤ limit

/-- **Every run ends within its limit.** For every program tree, every limit and all
breakpoints. -/
theorem endsWithin (p : Program) (room limit : Nat) (breaks : Nat → Bool) :
    p.EndsWithin room limit breaks := by
  have hsteps : (p.execute room limit breaks).steps
      = limit - (p.run room limit breaks).state.left := rfl
  have hstart : (p.start limit).left = limit := rfl
  refine ⟨(Moment.wellFounded_next breaks).apply _, ⟨?_, fun m hm hlast => ?_⟩,
    fun m hm => Moment.exists_charges hm, fun k m hk => ?_, fun k m hk hending => ?_, ?_⟩
  · obtain ⟨m, hm, hending⟩ := run_reached p room limit breaks
    refine ⟨m, hm, ?_⟩
    rintro n ⟨hnext⟩
    simp [Moment.ending?, hnext] at hending
  · obtain ⟨e, he⟩ := Moment.exists_ending_of_last hlast
    rw [he, run_of_ending hm he]
  · have hleft := hk.left_add
    simp only [hstart] at hleft
    omega
  · have hleft := hk.left_add
    have hlast := left_add_of_ending hending
    simp only [hstart] at hleft
    omega
  · omega

end TurboBench.Pascal
