import TurboBench.Proofs.Decimal.ExactValue
import TurboBench.Proofs.Pascal.TypedRuns

/-!
# Counting loops

A counting loop is followed turn by turn, from the moment of a run at which it is begun. Both bounds
are evaluated once, in the state of that moment, and their values settle how many turns there are
and which value the counter has at the start of each: what the body does to the counter, or to
variables in the bounds, has no effect on either (`countsOver`).

The induction is on the turns that are left (`Loop.goes_of_turn`). A turn begins with an assignment
to the counter, which may be declared with any type. If the counter is an integer or a real and the
value is in range, it then holds that value (`counts_of_assign`); any other counter stops the run.
The body is carried out as a whole, and whatever it leaves, the run comes to the place behind it
with the later tasks untouched (`reaches_of_action`), takes the step of the turn and goes on with
the next.
-/

set_option autoImplicit false

namespace TurboBench.Pascal

open Run

/-! ## The values of a counter -/

/-- The value stands for the integer `n`. A real does so as `n` converted, which is `n` itself if
that has at most fifty-three bits, as every integer in range has. -/
def Value.Holds (n : Int) : Value → Prop
  | .integer m => m = n
  | .real x => x = Float.ofInt n ∧ (n.natAbs < 2 ^ 53 → Decimal.exactValue x = n)
  | .boolean _ | .text _ => False

/-- The variable holds the integer `n`. -/
def RunState.Counts (s : RunState) (counter : String) (n : Int) : Prop :=
  ∃ v, s.store.get counter = .ok v ∧ v.Holds n

/-- The variable does not take the integer `n`: it is declared as no number, or `n` is out of
range. -/
def Program.Refuses (p : Program) (counter : String) (n : Int) : Prop :=
  ∃ d ∈ p.declarations, d.name = counter ∧
    ((d.type ≠ .integer ∧ d.type ≠ .real) ∨ ¬ (minInteger ≤ n ∧ n ≤ maxInteger))

/-! ## Loops and their turns -/

/-- A counting loop whose bounds have been evaluated, with the room that there is for it on the
stack. -/
structure Loop where
  room : Nat
  counter : String
  first : Int
  last : Int
  down : Bool
  body : Statement
  line : Nat

/-- A turn of a loop: the states in which its body is begun and in which it has come to its end. -/
structure Turn where
  start : RunState
  finish : RunState

/-- The steps that the body of a turn takes. -/
def Turn.steps (t : Turn) : Nat :=
  t.start.left - t.finish.left

/-- The state in which the bounds of a loop on the given line are evaluated: the step of the loop
itself is taken. -/
def RunState.entered (s : RunState) (line : Nat) : RunState :=
  { s with line := line, left := s.left - 1 }

namespace Loop

/-- The loop as a statement, with expressions for its bounds. -/
def statement (l : Loop) (first last : Expr) : Statement :=
  .forTo l.counter first last l.down l.body l.line

/-- The value of the counter in the turn with the given number. -/
def value (l : Loop) (i : Nat) : Int :=
  if l.down then l.first - i else l.first + i

/-- How many turns there are. -/
def count (l : Loop) : Nat :=
  (max 0 (if l.down then l.first - l.last + 1 else l.last - l.first + 1)).toNat

/-- Assigns the value of a turn to the counter. -/
def assignValue (l : Loop) (i : Nat) : Run Unit :=
  Run.assign l.counter (.integer (l.value i)) l.line

/-- Complete turns, one behind the other, from the one with the given number on. -/
inductive Turns (l : Loop) (breaks : Nat → Bool) :
    Nat → RunState → List Turn → RunState → Prop where
  | none (i : Nat) (s : RunState) : Turns l breaks i s [] s
  | turn {i : Nat} {s u v : RunState} {t : Turn} {ts : List Turn}
      (hassign : l.assignValue i s = .ok () t.start)
      (hbody : l.body.execute breaks (l.room - 1) t.start = .ok () t.finish)
      (hstep : Run.step t.finish = .ok () u) (hrest : Turns l breaks (i + 1) u ts v) :
      Turns l breaks i s (t :: ts) v

/-- The ways in which a run can end inside of a turn that begins in the state `s`. -/
inductive Interrupted (l : Loop) (p : Program) (breaks : Nat → Bool) (i : Nat) (s : RunState) :
    Ending → Prop where
  /-- The counter does not take the value. -/
  | refused {e : RuntimeError} (hline : e.line = l.line) (h : p.Refuses l.counter (l.value i)) :
      Interrupted l p breaks i s ⟨some (.fault e), s⟩
  /-- The body is stopped, by a fault, the step limit or a breakpoint. -/
  | stopped {start u : RunState} {e : Stop} (hassign : l.assignValue i s = .ok () start)
      (hcounts : start.Counts l.counter (l.value i))
      (hbody : l.body.execute breaks (l.room - 1) start = .error e u) :
      Interrupted l p breaks i s ⟨some e, u⟩
  /-- The body comes to its end, but no step is left for the turn. -/
  | exhausted {start finish : RunState} (hassign : l.assignValue i s = .ok () start)
      (hcounts : start.Counts l.counter (l.value i))
      (hbody : l.body.execute breaks (l.room - 1) start = .ok () finish) (hleft : finish.left = 0) :
      Interrupted l p breaks i s ⟨some .stepLimit, finish⟩

/-- What a run makes of `n` turns from the one with the number `i` on, with `later` tasks behind
them: it takes the complete ones in `turns` from the state `s` to the state `u`. -/
structure Goes (l : Loop) (p : Program) (room budget : Nat) (breaks : Nat → Bool)
    (later : List Task) (i n : Nat) (s : RunState) (turns : List Turn) (u : RunState) : Prop where
  chain : l.Turns breaks i s turns u
  /-- Each body is begun at a moment of the run, and the counter holds the value of the turn. -/
  starts : ∀ (k : Nat) (t : Turn), turns[k]? = some t →
    (∃ rest, p.Reaches room budget breaks ⟨.begin (l.room - 1) l.body :: rest, t.start⟩)
      ∧ t.start.Counts l.counter (l.value (i + k))
  /-- Each turn takes a step in addition to those of its body. -/
  steps : s.left = u.left + (turns.length + (turns.map Turn.steps).sum)
  /-- All turns are completed and the run goes on behind the loop, or the run ends in a turn. -/
  ending : (turns.length = n ∧ p.Reaches room budget breaks ⟨later, u⟩)
    ∨ (turns.length < n ∧ l.Interrupted p breaks (i + turns.length) u (p.run room budget breaks))

end Loop

/-- What becomes of a loop that is begun at a moment of a run, with `later` tasks behind it. -/
structure Program.CountsOver (p : Program) (room budget : Nat) (breaks : Nat → Bool) (s : RunState)
    (later : List Task) (l : Loop) : Prop where
  /-- The run is the one with the values of the bounds written in their places. -/
  fixed : p.run room budget breaks = Moment.outcome breaks
    ⟨.begin l.room
        (l.statement (.literal (.integer l.first) l.line) (.literal (.integer l.last) l.line))
      :: later, s⟩
  /-- At a breakpoint the loop is not begun. -/
  marked : breaks l.line = true →
    p.run room budget breaks = ⟨some (.breakpoint l.line), { s with line := l.line }⟩
  /-- Neither is it if no step is left for it. -/
  exhausted : breaks l.line = false → s.left = 0 →
    p.run room budget breaks = ⟨some .stepLimit, { s with line := l.line }⟩
  /-- Otherwise its turns are taken, and the steps are those of the loop, of the turns and of their
  bodies. A loop without turns leaves the variables alone. -/
  turns : breaks l.line = false → 0 < s.left → ∃ turns u,
    l.Goes p room budget breaks later 0 l.count (s.entered l.line) turns u
      ∧ s.left = u.left + (1 + turns.length + (turns.map Turn.steps).sum)
      ∧ (l.count = 0 → u.store = s.store)

/-! ## Assignments to the counter -/

section Assignment

variable {p : Program} {s : RunState} {counter : String} {n : Int} {line : Nat}

theorem holds_ofInt (n : Int) : (Value.real (Float.ofInt n)).Holds n :=
  ⟨rfl, Decimal.exactValue_ofInt⟩

/-- A counter that is a number takes every integer in range. -/
theorem coerce_integer (t : PascalType) (name : String) (n : Int) :
    (∃ v, coerce t name (.integer n) = .ok v ∧ v.Holds n)
      ∨ (∃ f, coerce t name (.integer n) = .error f
        ∧ ((t ≠ .integer ∧ t ≠ .real) ∨ ¬ (minInteger ≤ n ∧ n ≤ maxInteger))) := by
  cases t with
  | integer =>
    change (∃ v, checkInteger n = .ok v ∧ v.Holds n) ∨ (∃ f, checkInteger n = .error f ∧ _)
    by_cases hrange : minInteger ≤ n ∧ n ≤ maxInteger
    · exact .inl ⟨.integer n, if_pos hrange, rfl⟩
    · exact .inr ⟨.integerOverflow, if_neg hrange, .inr hrange⟩
  | real =>
    change (∃ v, widen n = .ok v ∧ v.Holds n) ∨ (∃ f, widen n = .error f ∧ _)
    by_cases hrange : minInteger ≤ n ∧ n ≤ maxInteger
    · have hmin : minInteger = -2 ^ 31 := by decide
      have hmax : maxInteger = 2 ^ 31 - 1 := by decide
      have hfinite : (Float.ofInt n).isFinite = true := Decimal.isFinite_ofInt (by omega)
      exact .inl ⟨.real (Float.ofInt n), if_pos hfinite, holds_ofInt n⟩
    · by_cases hfinite : (Float.ofInt n).isFinite = true
      · exact .inl ⟨.real (Float.ofInt n), if_pos hfinite, holds_ofInt n⟩
      · exact .inr ⟨.noReal, if_neg hfinite, .inr hrange⟩
  | boolean => exact .inr ⟨_, rfl, .inl ⟨nofun, nofun⟩⟩
  | char => exact .inr ⟨_, rfl, .inl ⟨nofun, nofun⟩⟩
  | string => exact .inr ⟨_, rfl, .inl ⟨nofun, nofun⟩⟩

/-- The variable holds what was assigned to it, or it refuses the value. -/
theorem counts_of_assign (hs : s.store.Typed p.declarations)
    (hname : p.declarations.any (·.name == counter) = true) (n : Int) (line : Nat) :
    (∃ t, Run.assign counter (.integer n) line s = .ok () t ∧ t.Counts counter n
        ∧ t.left = s.left)
      ∨ (∃ f, Run.assign counter (.integer n) line s = .error (.fault ⟨f, line⟩) s
        ∧ p.Refuses counter n) := by
  obtain ⟨v, hv, hvname, -⟩ := hs.find hname
  rcases coerce_integer v.type counter n with ⟨new, hnew, hholds⟩ | ⟨f, hf, hrefused⟩
  · have hset : s.store.set counter (.integer n) = .ok (s.store.put { v with value := new }) := by
      simp only [Store.set, hv, hnew, Except.map]
    refine .inl ⟨{ s with store := s.store.put { v with value := new } }, ?_, ?_, rfl⟩
    · simp only [Run.assign, hset, charge]
    · refine ⟨new, ?_, hholds⟩
      have hfound : (s.store.put { v with value := new }).find? counter
          = some { v with value := new } := by
        subst hvname
        exact Store.find?_put_self s.store (v := { v with value := new }) hv
      simp only [Store.get, hfound]
  · have hset : s.store.set counter (.integer n) = .error f := by
      simp only [Store.set, hv, hf, Except.map]
    refine .inr ⟨f, ?_, ?_⟩
    · simp only [Run.assign, hset, charge]
    · -- The variable has the type that it is declared with.
      have hmem : (v.name, v.type) ∈ p.declarations.map (fun d => (d.name, d.type)) := by
        rw [← hs.layout]
        exact List.mem_map.2 ⟨v, (Store.find?_some hv).1, rfl⟩
      obtain ⟨d, hd, hdv⟩ := List.mem_map.1 hmem
      obtain ⟨hdname, hdtype⟩ := Prod.mk.inj hdv
      exact ⟨d, hd, hdname.trans hvname, hdtype ▸ hrefused⟩

end Assignment

/-! ## Turns -/

namespace Loop

section Turning

variable {source : List Char} {p : Program} {room budget : Nat} {breaks : Nat → Bool}
  {later : List Task} {l : Loop}

/-- The turns from the one with the number `i` on, of which `n` are left. -/
def task (l : Loop) (i n : Nat) : Task :=
  .forTurn l.room l.counter (if l.down then -1 else 1) (l.value i) n l.body l.line

/-- What is left behind the body of the turn with the number `i`, with `n` more turns to go. -/
def taskBehind (l : Loop) (i n : Nat) : Task :=
  .forNext l.room l.counter (if l.down then -1 else 1) (l.value i + (if l.down then -1 else 1)) n
    l.body l.line

theorem value_succ (l : Loop) (i : Nat) :
    l.value i + (if l.down then -1 else 1) = l.value (i + 1) := by
  unfold value
  split <;> omega

theorem count_eq (l : Loop) : l.count = turnCount l.first l.last l.down := by
  unfold count turnCount
  split <;> omega

/-- One complete turn in front of others. -/
theorem Goes.turn {i n : Nat} {s u v : RunState} {t : Turn} {turns : List Turn}
    (hassign : l.assignValue i s = .ok () t.start) (hleft : t.start.left = s.left)
    (hstart : ∃ rest, p.Reaches room budget breaks ⟨.begin (l.room - 1) l.body :: rest, t.start⟩)
    (hcounts : t.start.Counts l.counter (l.value i))
    (hbody : l.body.execute breaks (l.room - 1) t.start = .ok () t.finish)
    (hstep : Run.step t.finish = .ok () u)
    (hrest : l.Goes p room budget breaks later (i + 1) n u turns v) :
    l.Goes p room budget breaks later i (n + 1) s (t :: turns) v := by
  obtain ⟨hchain, hstarts, hsteps, hending⟩ := hrest
  refine ⟨.turn hassign hbody hstep hchain, ?_, ?_, ?_⟩
  · intro k t' ht'
    cases k with
    | zero =>
      obtain rfl := Option.some.inj ht'
      exact ⟨hstart, hcounts⟩
    | succ k =>
      rw [Nat.add_comm k, ← Nat.add_assoc]
      exact hstarts k t' ht'
  -- The turn takes the steps of its body and the one behind it.
  · have hdown : t.finish.left ≤ t.start.left :=
      ((Forward.closed.enter_then breaks
        (Forward.closed.perform breaks (l.room - 1) l.body)).of_ok hbody).left
    have hone : t.finish.left = u.left + 1 := by
      cases hfinish : t.finish.left with
      | zero =>
        rw [step_of_left_zero hfinish] at hstep
        exact nomatch hstep
      | succ k =>
        rw [step_of_left_succ hfinish] at hstep
        injection hstep with _ hstate
        rw [← hstate]
    rw [List.length_cons, List.map_cons, List.sum_cons, Turn.steps]
    omega
  · have hlength : i + (t :: turns).length = i + 1 + turns.length := by
      rw [List.length_cons]
      omega
    rw [hlength, List.length_cons]
    exact hending.imp (And.imp_left (congrArg (· + 1))) (And.imp_left Nat.succ_lt_succ)

/-- **The turns of a loop**, by induction on those that are left. -/
theorem goes_of_turn (h : compile source = .ok p) (n : Nat) :
    ∀ {i : Nat} {s : RunState}, p.Reaches room budget breaks ⟨l.task i n :: later, s⟩ →
      ∃ turns u, l.Goes p room budget breaks later i n s turns u := by
  induction n with
  | zero =>
    intro i s hm
    have hnext : (l.task i 0).next breaks s = .ok [] s := rfl
    exact ⟨[], s, .none i s, nofun, rfl, .inl ⟨rfl, hm.tail (.step hnext)⟩⟩
  | succ n ih =>
    intro i s hm
    have htyped := (typed_of_reaches h room budget breaks).1 _ hm
    have hdeclared : p.declarations.any (·.name == l.counter) = true :=
      (isFit_of_reaches h hm _ List.mem_cons_self).1
    -- A turn is cut short in one of three places: the counter refuses its value, the body stops, or
    -- nothing is left of the budget for the step behind the body. Else there are the other turns.
    rcases counts_of_assign htyped hdeclared (l.value i) l.line with
      ⟨start, hassign, hcounts, hleft⟩ | ⟨f, hassign, hrefused⟩
    · have hturn : (l.task i (n + 1)).next breaks s
          = .ok [.begin (l.room - 1) l.body, l.taskBehind i n] start := bind_of_ok hassign
      have hbegin : p.Reaches room budget breaks
          ⟨.begin (l.room - 1) l.body :: l.taskBehind i n :: later, start⟩ :=
        hm.tail (.step hturn)
      cases hbody : (Task.begin (l.room - 1) l.body).action breaks start with
      | error e u =>
        have hend := run_of_action_error hbegin hbody
        exact ⟨[], s, .none i s, nofun, rfl,
          .inr ⟨Nat.succ_pos n, hend ▸ .stopped hassign hcounts hbody⟩⟩
      | ok _ finish =>
        have hbehind : p.Reaches room budget breaks ⟨l.taskBehind i n :: later, finish⟩ :=
          hbegin.trans (reaches_of_action hbody _)
        cases hfinish : finish.left with
        | zero =>
          have hstop : (l.taskBehind i n).next breaks finish = .error .stepLimit finish :=
            bind_of_error (step_of_left_zero hfinish)
          have hend := run_of_next_error hbehind hstop
          exact ⟨[], s, .none i s, nofun, rfl,
            .inr ⟨Nat.succ_pos n, hend ▸ .exhausted hassign hcounts hbody hfinish⟩⟩
        | succ k =>
          have hstep := step_of_left_succ hfinish
          have hnext : (l.taskBehind i n).next breaks finish
              = .ok [l.task (i + 1) n] { finish with left := k } := by
            rw [task, ← value_succ]
            exact bind_of_ok hstep
          obtain ⟨turns, u, hgoes⟩ := ih (hbehind.tail (.step hnext))
          exact ⟨⟨start, finish⟩ :: turns, u,
            hgoes.turn hassign hleft ⟨_, hbegin⟩ hcounts hbody hstep⟩
    · have hstop : (l.task i (n + 1)).next breaks s = .error (.fault ⟨f, l.line⟩) s :=
        bind_of_error hassign
      have hend := run_of_next_error hm hstop
      exact ⟨[], s, .none i s, nofun, rfl,
        .inr ⟨Nat.succ_pos n, hend ▸ .refused rfl hrefused⟩⟩

/-! ## The beginning of a loop -/

theorem eval_of_ok {e : Expr} {room : Nat} {s : RunState} {v : Value}
    (h : e.evalWithin s.store s.line room = .ok v) : Run.eval room e s = .ok v s := by
  simp only [Run.eval, h]
  rfl

/-- The first step of a loop asks its bounds for their values, and for nothing else. -/
theorem next_statement (l : Loop) (breaks : Nat → Bool) {first last : Expr} {s : RunState}
    (hfirst : first.evalWithin s.store l.line l.room = .ok (.integer l.first))
    (hlast : last.evalWithin s.store l.line l.room = .ok (.integer l.last)) :
    (Task.begin l.room (l.statement first last)).next breaks s
      = if breaks l.line then .error (.breakpoint l.line) { s with line := l.line }
        else if s.left = 0 then .error .stepLimit { s with line := l.line }
        else .ok [l.task 0 l.count] (s.entered l.line) := by
  -- A breakpoint is looked at first and the budget next; only then the bounds are asked for.
  have henter : Run.enter breaks (l.statement first last) s
      = if breaks l.line then .error (.breakpoint l.line) { s with line := l.line }
        else .ok () { s with line := l.line } :=
    (enter_apply breaks _ s).trans (if_pos rfl)
  by_cases hmarked : breaks l.line = true
  · rw [if_pos hmarked] at henter ⊢
    exact bind_of_error henter
  rw [if_neg hmarked] at henter ⊢
  have hbegun : (Task.begin l.room (l.statement first last)).next breaks s
      = (l.statement first last).next l.room { s with line := l.line } := bind_of_ok henter
  rw [hbegun]
  rcases Nat.eq_zero_or_pos s.left with hleft | hleft
  · rw [if_pos hleft]
    exact bind_of_error (step_of_left_zero hleft)
  · have hbudget : ({ s with line := l.line } : RunState).left = s.left - 1 + 1 :=
      (Nat.succ_pred_eq_of_pos hleft).symm
    have hstep : Run.step { s with line := l.line } = .ok () (s.entered l.line) :=
      step_of_left_succ hbudget
    have hfirst' : Run.eval l.room first (s.entered l.line)
        = .ok (.integer l.first) (s.entered l.line) :=
      eval_of_ok hfirst
    have hlast' : Run.eval l.room last (s.entered l.line)
        = .ok (.integer l.last) (s.entered l.line) :=
      eval_of_ok hlast
    have hvalue : l.value 0 = l.first := by
      unfold value
      split <;> omega
    rw [if_neg (Nat.ne_of_gt hleft), task, count_eq, hvalue]
    refine (bind_of_ok hstep).trans ?_
    refine (bind_of_ok hfirst').trans ?_
    exact bind_of_ok hlast'

end Turning

end Loop

/-- **A counting loop goes through the values from its first bound to its last.** For every program
that is accepted, every moment of its runs at which a loop is begun, and bounds of any form whose
values at that moment are integers. -/
theorem countsOver {source : List Char} {p : Program} (h : compile source = .ok p)
    {room budget : Nat} {breaks : Nat → Bool} {l : Loop} {first last : Expr} {later : List Task}
    {s : RunState}
    (hm : p.Reaches room budget breaks ⟨.begin l.room (l.statement first last) :: later, s⟩)
    (hfirst : first.evalWithin s.store l.line l.room = .ok (.integer l.first))
    (hlast : last.evalWithin s.store l.line l.room = .ok (.integer l.last)) :
    p.CountsOver room budget breaks s later l := by
  have hnext := l.next_statement breaks hfirst hlast
  refine ⟨?_, fun hmarked => ?_, fun hclear hleft => ?_, fun hclear hleft => ?_⟩
  -- With literals for its bounds the loop takes the same first step, so all that follows is the
  -- same.
  · have hliteral := l.next_statement breaks (s := s)
      (Expr.evalWithin_literal _ _ _ (.integer l.first) l.line)
      (Expr.evalWithin_literal _ _ _ (.integer l.last) l.line)
    rw [run_eq_outcome hm]
    exact Moment.outcome_congr (hnext.trans hliteral.symm)
  · rw [if_pos hmarked] at hnext
    exact run_of_next_error hm hnext
  · rw [if_neg (by rw [hclear]; exact Bool.false_ne_true), if_pos hleft] at hnext
    exact run_of_next_error hm hnext
  · rw [if_neg (by rw [hclear]; exact Bool.false_ne_true), if_neg (by omega)] at hnext
    have hbegun : p.Reaches room budget breaks ⟨l.task 0 l.count :: later, s.entered l.line⟩ :=
      hm.tail (.step hnext)
    obtain ⟨turns, u, hgoes⟩ := Loop.goes_of_turn h l.count hbegun
    refine ⟨turns, u, hgoes, ?_, fun hnone => ?_⟩
    · have hsteps := hgoes.steps
      have hone : (s.entered l.line).left = s.left - 1 := rfl
      omega
    · have hempty : turns = [] := by
        rcases hgoes.ending with ⟨hlength, -⟩ | ⟨hlength, -⟩ <;> rw [hnone] at hlength
        · exact List.length_eq_zero_iff.1 hlength
        · exact absurd hlength (Nat.not_lt_zero _)
      subst hempty
      cases hgoes.chain
      rfl

/-- A loop whose body sets its counter back and moves its last bound. -/
def setBackSource : List Char :=
  "program setback; var i, n: integer;
begin
  for i := 5 to n + 7 do begin n := 1; i := 5 end
end.".toList

/-- The loop of `setBackSource`, with the values of its bounds. -/
def setBackLoop : Loop where
  room := 480
  counter := "i"
  first := 5
  last := 7
  down := false
  body := .compound [.assign "n" (.literal (.integer 1) 3) 3,
    .assign "i" (.literal (.integer 5) 3) 3] 3
  line := 3

/-- The program of `setBackSource`. -/
def setBack : Program where
  name := "setback"
  declarations := [⟨"i", .integer, 1⟩, ⟨"n", .integer, 1⟩]
  constants := []
  body := [setBackLoop.statement (.literal (.integer 5) 3)
    (.binary .add (.variable "n" 3) (.literal (.integer 7) 3) 3)]

theorem compile_setBack : compile setBackSource = .ok setBack := by
  cbv

/-- Three turns, for the values 5, 6 and 7. -/
theorem countsOver_setBack :
    compile setBackSource = .ok setBack
      ∧ setBack.Reaches 480 100 (fun _ => false)
        ⟨setBack.body.map (.begin 480), setBack.start 100⟩
      ∧ (Expr.literal (.integer 5) 3).evalWithin (setBack.start 100).store 3 480 = .ok (.integer 5)
      ∧ (Expr.binary .add (.variable "n" 3) (.literal (.integer 7) 3) 3).evalWithin
          (setBack.start 100).store 3 480 = .ok (.integer 7)
      ∧ setBack.CountsOver 480 100 (fun _ => false) (setBack.start 100) [] setBackLoop
      ∧ setBackLoop.count = 3 :=
  ⟨compile_setBack, .refl, rfl, rfl, countsOver compile_setBack .refl rfl rfl, rfl⟩

end TurboBench.Pascal
