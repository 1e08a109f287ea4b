import Mathlib.Data.List.Induction
import TurboBench.Pascal.Session
import TurboBench.Proofs.Pascal.SmallSteps
import TurboBench.Proofs.Pascal.StepLimit

/-!
# What breakpoints change

A run with breakpoints is compared with the plain one, moment by moment. A step asks for breakpoints
only where it begins a statement that is a step of its own (`next_of_clear`), so both runs go
through the same moments up to the first one at which a statement on a marked line is begun. There
the plain run goes on, and the other one has its ending.

Which lines are marked is a matter of the session. The second part says what a session makes of a
row of commands: a breakpoint is on a line if the last command that mentions the line set it, and it
has an effect if debugging was switched on last.
-/

set_option autoImplicit false

namespace TurboBench.Pascal

open Run

/-! ## Moments at which a statement is begun -/

/-- No line is marked. -/
def noBreaks : Nat → Bool :=
  fun _ => false

namespace Moment

/-- The statement is begun at the moment. Compound and empty statements are passed over. -/
def Begins (m : Moment) (s : Statement) : Prop :=
  (∃ room, m.tasks.head? = some (.begin room s)) ∧ s.isStep = true

/-- No statement on a marked line is begun at the moment. -/
def Clear (breaks : Nat → Bool) (m : Moment) : Prop :=
  ∀ s, m.Begins s → breaks s.line = false

end Moment

/-- The plain run of a program comes to the moment, at which a statement on a marked line is begun
for the first time: up to there every step is taken from a moment that is clear. -/
structure Program.PausesAt (p : Program) (room budget : Nat) (breaks : Nat → Bool) (m : Moment)
    (s : Statement) : Prop where
  reached : Relation.ReflTransGen (fun m n => m.Clear breaks ∧ Moment.Next noBreaks m n)
    ⟨p.body.map (.begin room), p.start budget⟩ m
  begins : m.Begins s
  marked : breaks s.line = true

/-- The result of a run that pauses in a state, in front of a statement on the given line. -/
def RunState.paused (s : RunState) (limit : Int) (line : Nat) : RunResult where
  success := true
  output := s.written ++ [s!"Breakpoint at line {line}"]
  finalValues := s.store.toList
  steps := limit.toNat - s.left
  stepLimitReached := false
  error := none
  warnings := s.warnings.toList
  breakpointLine := some line

/-- What breakpoints on the marked lines do to the runs of a program under a limit. -/
structure Program.Pauses (p : Program) (room : Nat) (limit : Int) (breaks : Nat → Bool) : Prop where
  /-- If the plain run begins no statement on a marked line, they have no effect. -/
  same : (∀ m, p.Reaches room limit.toNat noBreaks m → m.Clear breaks) →
    p.execute room limit breaks = p.execute room limit noBreaks
  /-- If it begins one, there is a first one. -/
  first : (∃ m, p.Reaches room limit.toNat noBreaks m ∧ ¬ m.Clear breaks) →
    ∃ m s, p.PausesAt room limit.toNat breaks m s
  /-- The run stops in front of the first one, in the state that the plain run has there. -/
  paused : ∀ m s, p.PausesAt room limit.toNat breaks m s →
    p.Reaches room limit.toNat noBreaks m
      ∧ p.execute room limit breaks = m.state.paused limit s.line

/-! ## The two runs side by side -/

section Steps

variable {breaks : Nat → Bool} {m n : Moment} {s : Statement}

/-- Without a breakpoint on its line a statement begins as if there were none at all. -/
theorem enter_of_unmarked {st : Statement} (h : st.isStep = true → breaks st.line = false) :
    enter breaks st = enter noBreaks st := by
  funext s
  rw [enter_apply, enter_apply]
  cases hstep : st.isStep with
  | false => rfl
  | true => rw [h hstep]; rfl

/-- The first task of a moment that is clear does the same in both runs. -/
theorem Task.next_of_clear {t : Task} {ts : List Task} {s : RunState}
    (h : Moment.Clear breaks ⟨t :: ts, s⟩) : t.next breaks = t.next noBreaks := by
  cases t with
  | begin room st =>
    have henter : enter breaks st = enter noBreaks st :=
      enter_of_unmarked fun hstep => h st ⟨⟨room, rfl⟩, hstep⟩
    rw [Task.next, Task.next, henter]
  | forTurn room counter by_ first n b line =>
    cases n with
    | zero => rfl
    | succ n => rfl
  | _ => rfl

namespace Moment

/-- So one step leads to the same moment where no breakpoint is near. -/
theorem next_iff_of_clear (h : m.Clear breaks) : Next breaks m n ↔ Next noBreaks m n := by
  constructor
  · rintro ⟨hnext⟩
    exact .step (Task.next_of_clear h ▸ hnext)
  · rintro ⟨hnext⟩
    exact .step (Task.next_of_clear h ▸ hnext)

/-- A run that is at no breakpoint ends as if there were none at all. -/
theorem ending?_of_clear (h : m.Clear breaks) : m.ending? breaks = m.ending? noBreaks := by
  obtain ⟨ts, s⟩ := m
  cases ts with
  | nil => rfl
  | cons t ts => simp only [ending?, Task.next_of_clear h]

/-- At a statement on a marked line the run ends, before anything of the statement is done. -/
theorem ending?_of_marked (hbegins : m.Begins s) (hmarked : breaks s.line = true) :
    m.ending? breaks = some ⟨some (.breakpoint s.line), { m.state with line := s.line }⟩ := by
  obtain ⟨ts, state⟩ := m
  obtain ⟨⟨room, hhead⟩, hstep⟩ := hbegins
  obtain ⟨ts, rfl⟩ := List.head?_eq_some_iff.1 hhead
  have henter : enter breaks s state
      = .error (.breakpoint s.line) { state with line := s.line } := by
    rw [enter_apply, if_pos hstep, if_pos hmarked]
  have hnext : (Task.begin room s).next breaks state
      = .error (.breakpoint s.line) { state with line := s.line } := bind_of_error henter
  simp only [ending?, hnext]

theorem exists_marked_of_not_clear (h : ¬ m.Clear breaks) :
    ∃ s, m.Begins s ∧ breaks s.line = true := by
  obtain ⟨s, hs⟩ := Classical.not_forall.1 h
  obtain ⟨hbegins, hmarked⟩ := Classical.not_imp.1 hs
  exact ⟨s, hbegins, Bool.not_eq_false _ ▸ hmarked⟩

end Moment

end Steps

/-! ## Whole runs -/

section Runs

variable {p : Program} {room budget : Nat} {breaks : Nat → Bool} {m : Moment} {s : Statement}

theorem Program.PausesAt.reaches (h : p.PausesAt room budget breaks m s) :
    p.Reaches room budget noBreaks m :=
  h.reached.lift id fun _ _ hstep => hstep.2

theorem Program.PausesAt.reaches_marked (h : p.PausesAt room budget breaks m s) :
    p.Reaches room budget breaks m :=
  h.reached.lift id fun _ _ hstep => (Moment.next_iff_of_clear hstep.1).2 hstep.2

theorem Program.PausesAt.run_eq (h : p.PausesAt room budget breaks m s) :
    p.run room budget breaks
      = ⟨some (.breakpoint s.line), { m.state with line := s.line }⟩ :=
  run_of_ending h.reaches_marked (Moment.ending?_of_marked h.begins h.marked)

/-- A run that begins no statement on a marked line is the plain one, down to its last moment. -/
theorem run_of_clear (h : ∀ m, p.Reaches room budget noBreaks m → m.Clear breaks) :
    p.run room budget breaks = p.run room budget noBreaks := by
  obtain ⟨m, hm, hending⟩ := run_reached p room budget noBreaks
  have hreached : p.Reaches room budget breaks m := by
    clear hending
    induction hm with
    | refl => exact .refl
    | tail hm hnext ih => exact ih.tail ((Moment.next_iff_of_clear (h _ hm)).2 hnext)
  rw [← Moment.ending?_of_clear (h m hm)] at hending
  exact run_of_ending hreached hending

/-- Up to any moment of the plain run either all moments were clear, or there was a first one that
was not. -/
theorem exists_pausesAt (h : p.Reaches room budget noBreaks m) :
    (∃ n s, p.PausesAt room budget breaks n s)
      ∨ Relation.ReflTransGen (fun m n => m.Clear breaks ∧ Moment.Next noBreaks m n)
        ⟨p.body.map (.begin room), p.start budget⟩ m := by
  induction h with
  | refl => exact .inr .refl
  | @tail n o _ hnext ih =>
    rcases ih with hfirst | hclear
    · exact .inl hfirst
    by_cases hn : n.Clear breaks
    · exact .inr (hclear.tail ⟨hn, hnext⟩)
    · obtain ⟨s, hbegins, hmarked⟩ := Moment.exists_marked_of_not_clear hn
      exact .inl ⟨n, s, hclear, hbegins, hmarked⟩

end Runs

/-- Breakpoints cut a run off in front of the first statement on a marked line. -/
theorem Program.pauses (p : Program) (room : Nat) (limit : Int) (breaks : Nat → Bool) :
    p.Pauses room limit breaks := by
  refine ⟨fun h => ?_, ?_, fun m s h => ⟨h.reaches, ?_⟩⟩
  · simp only [Program.execute, run_of_clear h]
  · rintro ⟨m, hm, hnot⟩
    rcases exists_pausesAt hm with hfirst | hclear
    · exact hfirst
    · obtain ⟨s, hbegins, hmarked⟩ := Moment.exists_marked_of_not_clear hnot
      exact ⟨m, s, hclear, hbegins, hmarked⟩
  · simp only [Program.execute, h.run_eq]
    rfl

/-! ## Sessions -/

/-- What a session can be told. Compiling and running leave its settings as they are. -/
inductive Command where
  | setBreakpoint (line : Int)
  | clearBreakpoint (line : Int)
  | setDebug (on : Bool)
  | compile (source : List Char)
  | execute (program : Option Program)

namespace Command

/-- What a command says of a breakpoint on the line, if it says anything. -/
def marks? (line : Int) : Command → Option Bool
  | setBreakpoint l => if l = line then some true else none
  | clearBreakpoint l => if l = line then some false else none
  | _ => none

/-- What a command says of debugging. -/
def debugs? : Command → Option Bool
  | setDebug on => some on
  | _ => none

/-- What was said last; `false` if nothing was said. -/
def last (says? : Command → Option Bool) (cs : List Command) : Bool :=
  (cs.reverse.findSome? says?).getD false

/-- The last command that says anything decides. -/
theorem last_append (says? : Command → Option Bool) (cs : List Command) (c : Command) :
    last says? (cs ++ [c]) = (says? c).getD (last says? cs) := by
  rw [last, last, List.reverse_append, List.reverse_singleton, List.singleton_append,
    List.findSome?_cons]
  cases says? c with
  | some b => rfl
  | none => rfl

end Command

namespace Session

/-- The session behind a command. -/
def obey (s : Session) : Command → Session
  | .setBreakpoint line => s.setBreakpoint line
  | .clearBreakpoint line => s.clearBreakpoint line
  | .setDebug on => s.setDebug on
  | .compile _ | .execute _ => s

/-- The session behind a row of commands. -/
def obeyAll (s : Session) (cs : List Command) : Session :=
  cs.foldl obey s

theorem obeyAll_append (s : Session) (cs : List Command) (c : Command) :
    s.obeyAll (cs ++ [c]) = (s.obeyAll cs).obey c := by
  rw [obeyAll, List.foldl_append]
  rfl

/-- No command changes the step limit. -/
@[simp] theorem stepLimit_obey (s : Session) (c : Command) :
    (s.obey c).stepLimit = s.stepLimit := by
  cases c with
  | setBreakpoint line =>
    change (s.setBreakpoint line).stepLimit = s.stepLimit
    unfold setBreakpoint
    split <;> rfl
  | _ => rfl

/-- No command changes the room on the stack. -/
@[simp] theorem room_obey (s : Session) (c : Command) : (s.obey c).room = s.room := by
  cases c with
  | setBreakpoint line =>
    change (s.setBreakpoint line).room = s.room
    unfold setBreakpoint
    split <;> rfl
  | _ => rfl

/-- A command that says nothing of debugging leaves it. -/
theorem debug_obey (s : Session) (c : Command) :
    (s.obey c).debug = c.debugs?.getD s.debug := by
  cases c with
  | setBreakpoint line =>
    change (s.setBreakpoint line).debug = s.debug
    unfold setBreakpoint
    split <;> rfl
  | _ => rfl

/-- A command that mentions the line decides, any other leaves the line as it was. -/
theorem contains_obey (s : Session) (c : Command) (line : Int) :
    (s.obey c).breakpoints.contains line
      = (c.marks? line).getD (s.breakpoints.contains line) := by
  rw [Bool.eq_iff_iff, List.contains_iff_mem]
  cases c with
  | setBreakpoint l =>
    rw [obey, mem_setBreakpoint, Command.marks?]
    by_cases h : l = line
    · simp [h]
    · simp [h, Ne.symm h]
  | clearBreakpoint l =>
    rw [obey, mem_clearBreakpoint, Command.marks?]
    by_cases h : l = line
    · simp [h]
    · simp [h, Ne.symm h]
  | _ => exact List.contains_iff_mem.symm

/-- What the row of commands said last is what the session remembers. -/
theorem obeyAll_new (limit : Int) (room : Nat) (cs : List Command) :
    ((new limit room).obeyAll cs).stepLimit = limit
      ∧ ((new limit room).obeyAll cs).room = room
      ∧ ((new limit room).obeyAll cs).debug = Command.last Command.debugs? cs
      ∧ ∀ line, ((new limit room).obeyAll cs).breakpoints.contains line
        = Command.last (Command.marks? line) cs := by
  induction cs using List.reverseRecOn with
  | nil => exact ⟨rfl, rfl, rfl, fun line => rfl⟩
  | append_singleton cs c ih =>
    obtain ⟨hlimit, hroom, hdebug, hlines⟩ := ih
    rw [obeyAll_append]
    refine ⟨by rw [stepLimit_obey, hlimit], by rw [room_obey, hroom], ?_, fun line => ?_⟩
    · rw [debug_obey, hdebug, Command.last_append]
    · rw [contains_obey, hlines, Command.last_append]

end Session

/-- The lines on which runs pause behind a row of commands: if debugging was switched on last, those
whose breakpoint was set last. -/
def Command.pausing (cs : List Command) (line : Nat) : Bool :=
  last debugs? cs && last (marks? line) cs

/-- **A run with breakpoints is the plain run up to the first statement on a marked line.** The
lines that a session marks are those that its commands marked last. -/
theorem runs_pause (p : Program) (room : Nat) (limit : Int) :
    (∀ breaks, p.Pauses room limit breaks)
      ∧ ∀ cs, ((Session.new limit room).obeyAll cs).execute (some p)
        = p.execute room limit (Command.pausing cs) := by
  refine ⟨p.pauses room limit, fun cs => ?_⟩
  obtain ⟨hlimit, hroom, hdebug, hlines⟩ := Session.obeyAll_new limit room cs
  have hbreaks : ((Session.new limit room).obeyAll cs).breaks = Command.pausing cs := by
    funext line
    rw [Session.breaks, hdebug, hlines, Command.pausing]
  rw [Session.execute, hlimit, hroom, hbreaks]

end TurboBench.Pascal
