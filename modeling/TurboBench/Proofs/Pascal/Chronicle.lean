import TurboBench.Proofs.Pascal.StepLimit
import TurboBench.Proofs.Pascal.SmallSteps

/-!
# What a run does on its way

Of the many steps of a run few change anything that is seen of it: its variables, its output and
its warnings. Two states that differ in nothing of this agree (`RunState.Agrees`), and most steps
only lead to a state that agrees with the one before (`Task.quiet_next`). The exceptions are the
simple statements, the single targets of a read, and the counter of a loop. Whatever stops a run
stops it in a state that agrees with that of its last moment (`Task.unharmed_next`), since all the
values of a statement are there before the first of its changes.

So what a run has done can be put down moment by moment: `Moment.Logs` collects the entries of the
moments on the way, for whatever is to be put down of a moment.
-/

set_option autoImplicit false

namespace TurboBench.Pascal

open Run

/-! ## States that agree -/

/-- The variables, the output and the warnings are the same. The steps that are left and the line of
the statement last begun may differ. -/
def RunState.Agrees (s t : RunState) : Prop :=
  ∃ left line, t = { s with left := left, line := line }

namespace RunState.Agrees

variable {s t u : RunState}

theorem refl (s : RunState) : s.Agrees s :=
  ⟨s.left, s.line, rfl⟩

theorem symm (h : s.Agrees t) : t.Agrees s := by
  obtain ⟨left, line, rfl⟩ := h
  exact ⟨s.left, s.line, rfl⟩

theorem trans (h : s.Agrees t) (k : t.Agrees u) : s.Agrees u := by
  obtain ⟨left, line, rfl⟩ := h
  obtain ⟨left', line', rfl⟩ := k
  exact ⟨left', line', rfl⟩

theorem store (h : s.Agrees t) : t.store = s.store := by
  obtain ⟨left, line, rfl⟩ := h
  rfl

theorem warnings (h : s.Agrees t) : t.warnings = s.warnings := by
  obtain ⟨left, line, rfl⟩ := h
  rfl

theorem written (h : s.Agrees t) : t.written = s.written := by
  obtain ⟨left, line, rfl⟩ := h
  rfl

end RunState.Agrees

open RunState (Agrees)

/-! ## Looking at the variables -/

/-- The line of the statement begun last and the room on the stack matter to the fault of an
expression that is too deep, and to nothing else: a value stays the same with more room. -/
theorem Expr.evalWithin_of_le {σ : Store} {stepLine stepLine' : Nat} :
    (e : Expr) → {room room' : Nat} → room ≤ room' → {v : Value} →
      e.evalWithin σ stepLine room = .ok v → e.evalWithin σ stepLine' room' = .ok v
  | .literal w line, room, room', _, v, h => by
    rw [Expr.evalWithin] at h ⊢
    exact h
  | .variable name line, room, room', _, v, h => by
    rw [Expr.evalWithin] at h ⊢
    exact h
  -- Without room there is the fault, and no value.
  | .unary .., 0, _, _, v, h => by cases h
  | .binary .., 0, _, _, v, h => by cases h
  | .call .., 0, _, _, v, h => by cases h
  | .unary op e line, room + 1, room' + 1, hle, v, h => by
    have hrest := Nat.le_of_succ_le_succ hle
    rw [Expr.evalWithin] at h ⊢
    cases he : e.evalWithin σ stepLine room with
    | error err => rw [he] at h; cases h
    | ok w =>
      rw [he] at h
      rw [evalWithin_of_le e hrest he]
      exact h
  | .binary op l r line, room + 1, room' + 1, hle, v, h => by
    have hrest := Nat.le_of_succ_le_succ hle
    rw [Expr.evalWithin] at h ⊢
    cases hl : l.evalWithin σ stepLine room with
    | error err => rw [hl] at h; cases h
    | ok a =>
      cases hr : r.evalWithin σ stepLine room with
      | error err => rw [hl, hr] at h; cases h
      | ok b =>
        rw [hl, hr] at h
        rw [evalWithin_of_le l hrest hl, evalWithin_of_le r hrest hr]
        exact h
  | .call f e line, room + 1, room' + 1, hle, v, h => by
    have hrest := Nat.le_of_succ_le_succ hle
    rw [Expr.evalWithin] at h ⊢
    cases he : e.evalWithin σ stepLine room with
    | error err => rw [he] at h; cases h
    | ok w =>
      rw [he] at h
      rw [evalWithin_of_le e hrest he]
      exact h

/-- An action that only looks at the variables. In all states with the same variables it has the
same result, or it is at fault in all of them; and it leaves the state as it is. -/
def Looks {α : Type} (p : Run α) : Prop :=
  ∀ s : RunState, (∃ a, ∀ t : RunState, t.store = s.store → p t = .ok a t)
    ∨ ∀ t : RunState, t.store = s.store → ∃ e, p t = .error (.fault e) t

namespace Looks

variable {α β : Type} {p : Run α} {f : α → Run β}

theorem pure (a : α) : Looks (Pure.pure a : Run α) :=
  fun _ => .inl ⟨a, fun _ _ => rfl⟩

theorem fault (line : Nat) (f : Fault) : Looks (Run.fault line f : Run α) :=
  fun _ => .inr fun _ _ => ⟨_, rfl⟩

/-- Looks one after the other are a look. -/
theorem bind (hp : Looks p) (hf : ∀ a, Looks (f a)) : Looks (p >>= f) := by
  intro s
  rcases hp s with ⟨a, ha⟩ | hfault
  · rcases hf a s with ⟨b, hb⟩ | hfault
    · exact .inl ⟨b, fun t ht => (bind_of_ok (ha t ht)).trans (hb t ht)⟩
    · refine .inr fun t ht => ?_
      obtain ⟨e, he⟩ := hfault t ht
      exact ⟨e, (bind_of_ok (ha t ht)).trans he⟩
  · refine .inr fun t ht => ?_
    obtain ⟨e, he⟩ := hfault t ht
    exact ⟨e, bind_of_error he⟩

/-- Evaluating is a look: it leaves the state as it was. -/
theorem eval (room : Nat) (e : Expr) : Looks (Run.eval room e) := by
  intro s
  have heval (t : RunState) :
      Run.eval room e t = check (e.evalWithin t.store t.line room) t := rfl
  cases hs : e.evalWithin s.store s.line room with
  | ok v =>
    refine .inl ⟨v, fun t ht => ?_⟩
    have hv : e.evalWithin t.store t.line room = .ok v :=
      ht ▸ Expr.evalWithin_of_le e (Nat.le_refl _) hs
    rw [heval, hv]
    rfl
  | error err =>
    refine .inr fun t ht => ?_
    cases herr : e.evalWithin t.store t.line room with
    | ok v =>
      rw [ht] at herr
      have hv : e.evalWithin s.store s.line room = .ok v :=
        Expr.evalWithin_of_le e (Nat.le_refl _) herr
      rw [hv] at hs
      exact nomatch hs
    | error err' => exact ⟨err', by rw [heval, herr]; rfl⟩

theorem sequential : Sequential Looks where
  pure := pure
  bind := bind
  fault := fault
  eval := eval

/-- What is seen in one state is seen in every other one with the same variables. -/
theorem of_ok (hp : Looks p) {a : α} {s t : RunState} (h : p s = .ok a t) :
    t = s ∧ ∀ u : RunState, u.store = s.store → p u = .ok a u := by
  rcases hp s with ⟨b, hb⟩ | hfault
  · rw [hb s rfl] at h
    injection h with hba hst
    exact ⟨hst.symm, hba ▸ hb⟩
  · obtain ⟨e, he⟩ := hfault s rfl
    rw [he] at h
    exact nomatch h

end Looks

/-! ## Actions that nothing is seen of -/

/-- An action that leads to a state that agrees with the one before, stopped or not. -/
def Quiet {α : Type} (p : Run α) : Prop :=
  ∀ s : RunState, s.Agrees (final (p s))

/-- What stops the action leaves the state as it was. -/
def AllOrNothing {α : Type} (p : Run α) : Prop :=
  ∀ (s : RunState) (e : Stop) (t : RunState), p s = .error e t → t = s

/-- What stops the action stops it in a state that agrees with the one before. -/
def Unharmed {α : Type} (p : Run α) : Prop :=
  ∀ (s : RunState) (e : Stop) (t : RunState), p s = .error e t → s.Agrees t

section Quiet

variable {α β : Type} {p : Run α} {f : α → Run β}

namespace Quiet

theorem of_ok (hp : Quiet p) {a : α} {s t : RunState} (h : p s = .ok a t) : s.Agrees t := by
  have := hp s
  rwa [h] at this

theorem unharmed (hp : Quiet p) : Unharmed p := by
  intro s e t h
  have := hp s
  rwa [h] at this

theorem pure (a : α) : Quiet (Pure.pure a : Run α) :=
  fun s => Agrees.refl s

theorem fault (line : Nat) (f : Fault) : Quiet (Run.fault line f : Run α) :=
  fun s => Agrees.refl s

theorem bind (hp : Quiet p) (hf : ∀ a, Quiet (f a)) : Quiet (p >>= f) :=
  rel_final_bind (R := Agrees) Agrees.trans hp hf

/-- Taking a step writes nothing. -/
theorem step : Quiet Run.step := by
  intro s
  cases hleft : s.left with
  | zero =>
    rw [step_of_left_zero hleft]
    exact Agrees.refl s
  | succ n =>
    rw [step_of_left_succ hleft]
    exact ⟨n, s.line, rfl⟩

/-- Beginning a statement writes nothing. -/
theorem enter (breaks : Nat → Bool) (st : Statement) : Quiet (Run.enter breaks st) := by
  intro s
  rw [enter_apply]
  split
  · split
    · exact ⟨s.left, st.line, rfl⟩
    · exact ⟨s.left, st.line, rfl⟩
  · exact Agrees.refl s

end Quiet

/-- What follows a quiet action begins in a state that agrees with the first one. -/
theorem Quiet.exists_of_bind (hp : Quiet p) {s u : RunState} {b : β}
    (h : (p >>= f) s = .ok b u) : ∃ a t, s.Agrees t ∧ f a t = .ok b u := by
  obtain ⟨a, t, hps, hrest⟩ := exists_of_bind_ok h
  exact ⟨a, t, hp.of_ok hps, hrest⟩

/-- A look writes nothing. -/
theorem Looks.quiet (hp : Looks p) : Quiet p := by
  intro s
  rcases hp s with ⟨a, ha⟩ | hfault
  · rw [ha s rfl]
    exact Agrees.refl s
  · obtain ⟨e, he⟩ := hfault s rfl
    rw [he]
    exact Agrees.refl s

namespace AllOrNothing

theorem unharmed (hp : AllOrNothing p) : Unharmed p := by
  intro s e t h
  exact hp s e t h ▸ Agrees.refl s

/-- All that is looked up is there before anything is done. -/
theorem bind (hp : Looks p) (hf : ∀ a, AllOrNothing (f a)) : AllOrNothing (p >>= f) := by
  intro s e u h
  rcases hp s with ⟨a, ha⟩ | hfault
  · rw [bind_of_ok (ha s rfl)] at h
    exact hf a s e u h
  · obtain ⟨err, herr⟩ := hfault s rfl
    rw [bind_of_error herr] at h
    injection h with _ h
    exact h.symm

/-- An assignment is made or not, and a fault leaves the store. -/
theorem assign (name : String) (v : Value) (line : Nat) :
    AllOrNothing (Run.assign name v line) := by
  intro s e t h
  unfold Run.assign at h
  split at h
  · exact nomatch h
  · injection h with _ h
    exact h.symm

theorem emit (text : String) (newline : Bool) : AllOrNothing (Run.emit text newline) := by
  intro s e t h
  rw [emit_apply] at h
  exact nomatch h

/-- A reset is made or not, and a fault leaves the store. -/
theorem readNothing (word : Keyword) (line : Nat) (name : String) :
    AllOrNothing (Run.readNothing word line name) := by
  intro s e t h
  unfold Run.readNothing at h
  split at h
  · exact nomatch h
  · injection h with _ h
    exact h.symm

end AllOrNothing

namespace Unharmed

theorem bind (hp : Quiet p) (hf : ∀ a, Unharmed (f a)) : Unharmed (p >>= f) := by
  intro s e u h
  cases hps : p s with
  | ok a t =>
    rw [bind_of_ok hps] at h
    exact (hp.of_ok hps).trans (hf a t e u h)
  | error e' t =>
    rw [bind_of_error hps] at h
    injection h with _ h
    exact h ▸ hp.unharmed s e' t hps

/-- Nothing stops what only yields a result. -/
theorem yield (hp : Unharmed p) (b : α → β) : Unharmed (do let a ← p; return b a) := by
  intro s e u h
  cases hps : p s with
  | ok a t =>
    rw [bind_of_ok hps] at h
    exact nomatch h
  | error e' t =>
    rw [bind_of_error hps] at h
    injection h with _ h
    exact h ▸ hp s e' t hps

end Unharmed

end Quiet

/-! ## The steps of a run -/

/-- The statements that change variables or write: assignments, writes and reads. -/
def Statement.isSimple : Statement → Bool
  | .assign .. | .write .. | .read .. => true
  | _ => false

/-- A statement that is not simple leaves everything that is seen to the statements in it. -/
theorem Statement.quiet_next {s : Statement} (h : s.isSimple = false) (room : Nat) :
    Quiet (s.next room) := by
  cases s with
  | assign target value line => exact nomatch h
  | write newline items line => exact nomatch h
  | read newline targets line => exact nomatch h
  | ifThen c t e line =>
    refine Quiet.step.bind fun _ =>
      (Looks.sequential.condition room c line).quiet.bind fun holds => ?_
    cases holds with
    | true => exact Quiet.pure _
    | false => exact Quiet.pure _
  | whileDo c b line => exact Quiet.step.bind fun _ => Quiet.pure _
  | repeatUntil b c line => exact Quiet.pure _
  | forTo counter first last down b line =>
    refine Quiet.step.bind fun _ => (Looks.eval room first).quiet.bind fun v =>
      (Looks.eval room last).quiet.bind fun w => ?_
    split
    · exact Quiet.pure _
    · exact Quiet.fault line _
  | caseOf selector branches otherwise line =>
    exact Quiet.step.bind fun _ => (Looks.eval room selector).quiet.bind fun v => Quiet.pure _
  | compound body line => exact Quiet.pure _
  | empty line => exact Quiet.pure _

namespace Task

/-- A task that changes something when it is taken up: an assignment or a write that is begun, a
target of a read, a counter that takes its next value. A read changes nothing until its targets are
taken up. -/
def isDeed : Task → Bool
  | begin _ (.assign ..) | begin _ (.write ..) | reset .. => true
  | forTurn _ _ _ _ n _ _ => 0 < n
  | _ => false

variable {breaks : Nat → Bool}

/-- **Nothing is seen of most steps.** -/
theorem quiet_next {t : Task} (h : t.isDeed = false) : Quiet (t.next breaks) := by
  -- Deeds are excluded by `h`. What is left goes on in the loops and looks at conditions.
  cases t with
  | begin room s =>
    refine (Quiet.enter breaks s).bind fun _ => ?_
    cases hs : s.isSimple with
    | false => exact s.quiet_next hs room
    | true =>
      cases s with
      | assign target value line => exact nomatch h
      | write newline items line => exact nomatch h
      | read newline targets line => exact Quiet.step.bind fun _ => Quiet.pure _
      | _ => exact nomatch hs
  | reset word line name => exact nomatch h
  | whileTest room c b line =>
    refine (Looks.sequential.condition room c line).quiet.bind fun holds => ?_
    cases holds with
    | true => exact Quiet.pure _
    | false => exact Quiet.pure _
  | whileNext room c b line => exact Quiet.step.bind fun _ => Quiet.pure _
  | repeatTurn room b c line => exact Quiet.step.bind fun _ => Quiet.pure _
  | untilTest room b c line =>
    refine (Looks.sequential.condition room c line).quiet.bind fun holds => ?_
    cases holds with
    | true => exact Quiet.pure _
    | false => exact Quiet.pure _
  | forTurn room counter by_ first n b line =>
    cases n with
    | zero => exact Quiet.pure _
    | succ n => exact nomatch h
  | forNext room counter by_ first n b line => exact Quiet.step.bind fun _ => Quiet.pure _

/-- **What stops a step has changed nothing.** -/
theorem unharmed_next (t : Task) : Unharmed (t.next breaks) := by
  cases h : t.isDeed with
  | false => exact (quiet_next h).unharmed
  | true =>
    cases t with
    | begin room s =>
      refine Unharmed.bind (Quiet.enter breaks s) fun _ => ?_
      cases s with
      | assign target value line =>
        exact Unharmed.bind Quiet.step fun _ => Unharmed.bind (Looks.eval room value).quiet fun v =>
          (AllOrNothing.assign target v line).unharmed.yield fun _ => []
      | write newline items line =>
        exact Unharmed.bind Quiet.step fun _ =>
          Unharmed.bind (Looks.sequential.itemTexts room line items).quiet fun texts =>
            (AllOrNothing.emit _ newline).unharmed.yield fun _ => []
      | _ => exact nomatch h
    | reset word line name =>
      exact (AllOrNothing.readNothing word line name).unharmed.yield fun _ => []
    | forTurn room counter by_ first n b line =>
      cases n with
      | zero => exact nomatch h
      | succ n => exact (AllOrNothing.assign counter _ line).unharmed.yield fun _ => _
    | _ => exact nomatch h

end Task

/-- The state in which a run ends agrees with that of its last moment. -/
theorem Moment.agrees_of_ending {breaks : Nat → Bool} {m : Moment} {e : Ending}
    (h : m.ending? breaks = some e) : m.state.Agrees e.state := by
  obtain ⟨ts, s⟩ := m
  cases ts with
  | nil =>
    obtain rfl := Option.some.inj h
    exact Agrees.refl s
  | cons t ts =>
    cases hnext : t.next breaks s with
    | ok new u => simp [ending?, hnext] at h
    | error stop u =>
      simp only [ending?, hnext, Option.some.injEq] at h
      subst h
      exact t.unharmed_next s stop u hnext

/-! ## Putting down what was done -/

/-- The run comes from one moment to another, and the entries of the moments on the way, the last
one not among them, are put down one behind the other. -/
inductive Moment.Logs {α : Type} (entry : Moment → List α) (breaks : Nat → Bool) (m : Moment) :
    List α → Moment → Prop where
  | refl : Logs entry breaks m [] m
  | tail {log : List α} {n o : Moment} (h : Logs entry breaks m log n)
      (hnext : Moment.Next breaks n o) : Logs entry breaks m (log ++ entry n) o

/-- The entries of a whole run, up to the moment at which it ends. -/
structure Program.LogsTo {α : Type} (p : Program) (entry : Moment → List α) (room budget : Nat)
    (breaks : Nat → Bool) (log : List α) (m : Moment) : Prop where
  logs : Moment.Logs entry breaks ⟨p.body.map (.begin room), p.start budget⟩ log m
  ends : m.ending? breaks = some (p.run room budget breaks)

section Logs

variable {α : Type} {entry : Moment → List α} {breaks : Nat → Bool} {m n : Moment} {log : List α}

theorem Moment.Logs.reaches (h : Moment.Logs entry breaks m log n) :
    Relation.ReflTransGen (Moment.Next breaks) m n := by
  induction h with
  | refl => exact .refl
  | tail _ hnext ih => exact ih.tail hnext

/-- Every run has a log. -/
theorem Moment.exists_logs (entry : Moment → List α)
    (h : Relation.ReflTransGen (Moment.Next breaks) m n) :
    ∃ log, Moment.Logs entry breaks m log n := by
  induction h with
  | refl => exact ⟨[], .refl⟩
  | tail _ hnext ih =>
    obtain ⟨log, hlog⟩ := ih
    exact ⟨_, hlog.tail hnext⟩

/-- Every run can be put down, whatever is put down of its moments. -/
theorem Program.exists_logsTo (p : Program) (entry : Moment → List α) (room budget : Nat)
    (breaks : Nat → Bool) : ∃ log m, p.LogsTo entry room budget breaks log m := by
  obtain ⟨m, hm, hending⟩ := run_reached p room budget breaks
  obtain ⟨log, hlog⟩ := Moment.exists_logs entry hm
  exact ⟨log, m, hlog, hending⟩

end Logs

/-! ## What is reported of it -/

/-- The line that tells how a run was stopped, if it was. -/
def RunResult.statusLine? (r : RunResult) : Option String :=
  r.error <|> r.breakpointLine.map fun line => s!"Breakpoint at line {line}"

/-- The status line of a result tells how its run stopped. -/
theorem statusLine?_execute (p : Program) (room : Nat) (limit : Int) (breaks : Nat → Bool) :
    (p.execute room limit breaks).statusLine?
      = (p.run room limit.toNat breaks).stop.map (·.statusLine limit) := by
  unfold RunResult.statusLine?
  simp only [Program.execute]
  generalize (p.run room limit.toNat breaks).stop = stop
  rcases stop with - | - | - | -
  · rfl
  · rfl
  · rfl
  · rfl

theorem output_execute (p : Program) (room : Nat) (limit : Int) (breaks : Nat → Bool) :
    (p.execute room limit breaks).output
      = (p.run room limit.toNat breaks).state.written
        ++ (p.execute room limit breaks).statusLine?.toList := by
  rw [statusLine?_execute]
  rfl

end TurboBench.Pascal
