import Mathlib
import TurboBench.Pascal.Session
import TurboBench.Proofs.Pascal.Breakpoints
import TurboBench.Proofs.Pascal.Chronicle
import TurboBench.Proofs.Pascal.Termination

/-!
# Counted statements and steps taken

A compilation counts the statements of a program, and a run counts its steps. Without loops no
statement is begun twice, so the two differ by what a run leaves out: the bodies of conditionals and
cases that it does not go into. `Moment.PassesOver` collects them along a run, and the account is
kept at every moment (`balance`): the steps taken, the statements of the bodies passed over and the
statements that are still to be begun make up the statements of the program. The step is
`balance_of_next`, with one case for each kind of statement.

With loops the count says no more than whether a step is taken at all. A program without executable
statements consists of compound and empty statements, which do nothing; any other statement takes a
step at once, so that a run without any step to take is stopped by it.
-/

set_option autoImplicit false

namespace TurboBench.Pascal

open Run

/-! ## Statements in statements -/

namespace Statement

/-- The statements that a statement is made of. -/
def parts : Statement → List Statement
  | .assign .. | .write .. | .read .. | .empty _ => []
  | .ifThen _ t e _ => t :: e.toList
  | .whileDo _ b _ | .forTo _ _ _ _ b _ => [b]
  | .repeatUntil b _ _ | .compound b _ => b
  | .caseOf _ branches otherwise _ => branches.map (·.2) ++ otherwise

/-- A statement of the kind stands somewhere in the statement. -/
inductive Holds (kind : Statement → Bool) : Statement → Prop where
  | self {s : Statement} (h : kind s = true) : Holds kind s
  | part {s t : Statement} (ht : t ∈ s.parts) (h : Holds kind t) : Holds kind s

/-- The loops. -/
def isLoop : Statement → Bool
  | .whileDo .. | .repeatUntil .. | .forTo .. => true
  | _ => false

/-- The statements that go into one of several bodies. -/
def isBranching : Statement → Bool
  | .ifThen .. | .caseOf .. => true
  | _ => false

end Statement

/-- No statement of the kind stands in the program. -/
def Program.Without (p : Program) (kind : Statement → Bool) : Prop :=
  ∀ s ∈ p.body, ¬ s.Holds kind

/-! ## Bodies that are passed over -/

/-- The bodies of a case that a selector does not lead to. -/
def unchosen (selector : Value) (otherwise : List Statement) :
    List (List Value × Statement) → List (List Statement)
  | [] => []
  | (labels, s) :: bs =>
    if selects selector labels then bs.map (fun b => [b.2]) ++ [otherwise]
    else [s] :: unchosen selector otherwise bs

/-- The bodies of a conditional or of a case that are not gone into, with the variables as they
are. -/
def Statement.passedOver (σ : Store) (room : Nat) : Statement → List (List Statement)
  | .ifThen c t e line =>
    match c.evalWithin σ line room with
    | .ok (.boolean true) => e.toList.map fun e => [e]
    | .ok (.boolean false) => [[t]]
    | _ => []
  | .caseOf selector branches otherwise line =>
    match selector.evalWithin σ line room with
    | .ok v => unchosen v otherwise branches
    | .error _ => []
  | _ => []

/-- The bodies that are passed over at a moment. -/
def Moment.passedOver (m : Moment) : List (List Statement) :=
  match m.tasks with
  | .begin room s :: _ => s.passedOver m.state.store room
  | _ => []

/-- The run comes from one moment to another, and passes over the bodies on the way. -/
inductive Moment.PassesOver (breaks : Nat → Bool) (m : Moment) :
    List (List Statement) → Moment → Prop where
  | refl : PassesOver breaks m [] m
  | tail {bodies : List (List Statement)} {n o : Moment} (h : PassesOver breaks m bodies n)
      (hnext : Moment.Next breaks n o) : PassesOver breaks m (bodies ++ n.passedOver) o

/-- The bodies that a run passes over from its beginning to its end. -/
def Program.PassesOver (p : Program) (room budget : Nat) (breaks : Nat → Bool)
    (bodies : List (List Statement)) : Prop :=
  ∃ m, Moment.PassesOver breaks ⟨p.body.map (.begin room), p.start budget⟩ bodies m
    ∧ m.ending? breaks = some (p.run room budget breaks)

/-- The number of executable statements in several bodies. -/
def countBodies : List (List Statement) → Nat
  | [] => 0
  | b :: bs => countAll b + countBodies bs

/-- The number of executable statements that are still to be begun. -/
def countTasks : List Task → Nat
  | [] => 0
  | .begin _ s :: ts => s.count + countTasks ts
  | _ :: ts => countTasks ts

/-! ## Sums -/

section Sums

theorem countBodies_append (bs cs : List (List Statement)) :
    countBodies (bs ++ cs) = countBodies bs + countBodies cs := by
  induction bs with
  | nil => exact (Nat.zero_add _).symm
  | cons b bs ih => rw [List.cons_append, countBodies, countBodies, ih, Nat.add_assoc]

/-- The statements still to be begun in tasks are those of their parts together. -/
theorem countTasks_append (ts us : List Task) :
    countTasks (ts ++ us) = countTasks ts + countTasks us := by
  induction ts with
  | nil => exact (Nat.zero_add _).symm
  | cons t ts ih =>
    cases t with
    | begin room s => rw [List.cons_append, countTasks, countTasks, ih, Nat.add_assoc]
    | _ => exact ih

/-- Statements that are to be begun count as their list does. -/
theorem countTasks_begin (room : Nat) (ss : List Statement) :
    countTasks (ss.map (.begin room)) = countAll ss := by
  induction ss with
  | nil => rfl
  | cons s ss ih =>
    change s.count + countTasks (ss.map (.begin room)) = s.count + countAll ss
    rw [ih]

/-- Variables to be read are no statements. -/
theorem countTasks_resets {resets : List Task}
    (h : ∀ t ∈ resets, ∃ word line name, t = .reset word line name) : countTasks resets = 0 := by
  induction resets with
  | nil => rfl
  | cons t resets ih =>
    obtain ⟨⟨word, line, name, rfl⟩, hrest⟩ := List.forall_mem_cons.1 h
    exact ih hrest

theorem countAll_singleton (s : Statement) : countAll [s] = s.count := rfl

/-- The bodies of branches count as the branches do. -/
theorem countBodies_branches (bs : List (List Value × Statement)) :
    countBodies (bs.map fun b => [b.2]) = countBranches bs := by
  induction bs with
  | nil => rfl
  | cons b bs ih =>
    change countAll [b.2] + countBodies (bs.map fun b => [b.2]) = b.2.count + countBranches bs
    rw [ih, countAll_singleton]

/-- A case goes into one body and passes over the others. -/
theorem countAll_chosen (v : Value) (otherwise : List Statement)
    (bs : List (List Value × Statement)) :
    countAll (chosen v otherwise bs) + countBodies (unchosen v otherwise bs)
      = countBranches bs + countAll otherwise := by
  induction bs with
  | nil =>
    rw [chosen, unchosen, countBranches]
    exact Nat.add_comm _ _
  | cons b bs ih =>
    obtain ⟨labels, s⟩ := b
    rw [chosen, unchosen, countBranches]
    split
    · have hlast : countBodies [otherwise] = countAll otherwise := rfl
      rw [countBodies_append, countBodies_branches, hlast, countAll_singleton]
      omega
    · have hcons : countBodies ([s] :: unchosen v otherwise bs)
          = s.count + countBodies (unchosen v otherwise bs) := rfl
      omega

/-- What a case goes into is a part of it. -/
theorem mem_of_mem_chosen {v : Value} {otherwise : List Statement}
    {bs : List (List Value × Statement)} {s : Statement} (h : s ∈ chosen v otherwise bs) :
    s ∈ bs.map (·.2) ++ otherwise := by
  induction bs with
  | nil => exact h
  | cons b bs ih =>
    rw [chosen] at h
    split at h
    · rw [List.mem_singleton.1 h]
      exact List.mem_cons_self
    · exact List.mem_cons_of_mem _ (ih h)

end Sums

/-! ## One step -/

section Steps

variable {breaks : Nat → Bool} {kind : Statement → Bool} {st : Statement} {t : Task}
  {ts : List Task} {room : Nat} {s u : RunState}

/-- An expression that was evaluated has its value on every line. -/
theorem eval_of_eval {e : Expr} {v : Value} (h : Run.eval room e s = .ok v u) (line : Nat) :
    e.evalWithin s.store line room = .ok v := by
  have heval : Run.eval room e s = check (e.evalWithin s.store s.line room) s := rfl
  rw [heval] at h
  cases hv : e.evalWithin s.store s.line room with
  | error err =>
    rw [hv] at h
    exact nomatch h
  | ok w =>
    rw [hv] at h
    injection h with hw
    subst hw
    exact Expr.evalWithin_of_le e (Nat.le_refl _) hv

/-- A condition that was evaluated in a run has that value in the store. -/
theorem eval_of_condition {c : Expr} {line : Nat} {holds : Bool}
    (h : condition room c line s = .ok holds u) (l : Nat) :
    c.evalWithin s.store l room = .ok (.boolean holds) := by
  obtain ⟨v, w, hv, hrest⟩ := exists_of_bind_ok h
  cases v with
  | boolean b =>
    injection hrest with hb
    subst hb
    exact eval_of_eval hv l
  | _ => exact nomatch hrest

/-- Taking a step changes no variable. -/
theorem store_of_step (h : Run.step s = .ok () u) : u.store = s.store := by
  cases hs : s.left with
  | zero =>
    rw [step_of_left_zero hs] at h
    exact nomatch h
  | succ n =>
    rw [step_of_left_succ hs] at h
    injection h with _ h
    exact h ▸ rfl

/-- Beginning a statement changes no variable. -/
theorem store_of_enter (h : enter breaks st s = .ok () u) : u.store = s.store := by
  rw [enter_apply] at h
  split at h
  · split at h
    · exact nomatch h
    · injection h with _ h
      exact h ▸ rfl
  · injection h with _ h
    exact h ▸ rfl

/-- What is left to be done of a statement that is no loop: variables to be read, and the
statements of the body that is gone into. With what is charged and what is passed over they make up
the statements that are counted. -/
structure GoesInto (room : Nat) (st : Statement) (s : RunState) (ts : List Task)
    (ss : List Statement) : Prop where
  tasks : ∃ resets, ts = resets ++ ss.map (.begin (room - 1))
    ∧ ∀ t ∈ resets, ∃ word line name, t = Task.reset word line name
  parts : ∀ part ∈ ss, part ∈ st.parts
  balance : st.charge + countBodies (st.passedOver s.store room) + countAll ss = st.count

/-- A conditional goes into one of its bodies, or into none if there is no `else`. -/
theorem goesInto_ifThen {c : Expr} {b : Statement} {e : Option Statement} {line : Nat}
    (h : (Statement.ifThen c b e line).next room s = .ok ts u) :
    ∃ ss, GoesInto room (.ifThen c b e line) s ts ss := by
  obtain ⟨_, v, hstep, hrest⟩ := exists_of_bind_ok h
  obtain ⟨holds, w, hcondition, hrest⟩ := exists_of_bind_ok hrest
  have hvalue := eval_of_condition hcondition line
  rw [store_of_step hstep] at hvalue
  cases holds with
  | true =>
    injection hrest with hts
    have hpassed : (Statement.ifThen c b e line).passedOver s.store room
        = e.toList.map fun e => [e] := by
      rw [Statement.passedOver, hvalue]
    refine ⟨[b], ⟨[], hts.symm, nofun⟩, List.forall_mem_singleton.2 List.mem_cons_self, ?_⟩
    rw [hpassed]
    cases e with
    | none => rfl
    | some e =>
      change 1 + e.count + b.count = 1 + b.count + e.count
      omega
  | false =>
    injection hrest with hts
    have hpassed : (Statement.ifThen c b e line).passedOver s.store room = [[b]] := by
      rw [Statement.passedOver, hvalue]
    refine ⟨e.toList, ⟨[], hts.symm, nofun⟩, fun part => List.mem_cons_of_mem b, ?_⟩
    rw [hpassed]
    cases e with
    | none => rfl
    | some e => rfl

/-- A case goes into the statements that its selector leads to. -/
theorem goesInto_caseOf {selector : Expr} {branches : List (List Value × Statement)}
    {otherwise : List Statement} {line : Nat}
    (h : (Statement.caseOf selector branches otherwise line).next room s = .ok ts u) :
    ∃ ss, GoesInto room (.caseOf selector branches otherwise line) s ts ss := by
  obtain ⟨_, v, hstep, hrest⟩ := exists_of_bind_ok h
  obtain ⟨value, w, heval, hrest⟩ := exists_of_bind_ok hrest
  have hvalue := eval_of_eval heval line
  rw [store_of_step hstep] at hvalue
  injection hrest with hts
  have hpassed : (Statement.caseOf selector branches otherwise line).passedOver s.store room
      = unchosen value otherwise branches := by
    rw [Statement.passedOver, hvalue]
  refine ⟨chosen value otherwise branches, ⟨[], hts.symm, nofun⟩,
    fun part => mem_of_mem_chosen, ?_⟩
  have hchosen := countAll_chosen value otherwise branches
  change 1 + _ + _ = 1 + countBranches branches + countAll otherwise
  rw [hpassed]
  omega

/-- **What a statement that is no loop goes into.** -/
theorem goesInto_of_next (hloop : st.isLoop = false) (h : st.next room s = .ok ts u) :
    ∃ ss, GoesInto room st s ts ss := by
  -- Only the two branching statements leave parts out; the others go into all that they have.
  cases st with
  | assign target value line =>
    cases Task.begun_next room _ s ts u h with
    | nothing => exact ⟨[], ⟨[], rfl, nofun⟩, nofun, rfl⟩
  | write newline items line =>
    cases Task.begun_next room _ s ts u h with
    | nothing => exact ⟨[], ⟨[], rfl, nofun⟩, nofun, rfl⟩
  | read newline targets line =>
    cases Task.begun_next room _ s ts u h with
    | nothing => exact ⟨[], ⟨[], rfl, nofun⟩, nofun, rfl⟩
    | targets =>
      refine ⟨[], ⟨_, (List.append_nil _).symm, ?_⟩, nofun, rfl⟩
      exact List.forall_mem_map.2 fun name _ => ⟨_, _, _, rfl⟩
  | ifThen c t e line => exact goesInto_ifThen h
  | whileDo c b line => exact nomatch hloop
  | repeatUntil b c line => exact nomatch hloop
  | forTo counter first last down b line => exact nomatch hloop
  | caseOf selector branches otherwise line => exact goesInto_caseOf h
  | compound body line =>
    injection h with hts
    exact ⟨body, ⟨[], hts.symm, nofun⟩, fun _ hpart => hpart, Nat.zero_add _⟩
  | empty line =>
    injection h with hts
    exact ⟨[], ⟨[], hts.symm, nofun⟩, nofun, rfl⟩

/-- A task in which no loop and no statement of the kind stands, and which is no part of a loop. -/
def Task.Plain (kind : Statement → Bool) : Task → Prop
  | .begin _ s => ¬ s.Holds Statement.isLoop ∧ ¬ s.Holds kind
  | .reset .. => True
  | _ => False

/-- **One step keeps the account.** What is taken, passed over and left to be begun makes up what
was to be begun before. -/
theorem balance_of_next (ht : t.Plain kind) (h : t.next breaks s = .ok ts u) (later : List Task) :
    (∀ t ∈ ts, t.Plain kind)
      ∧ u.left + countTasks [t]
        = s.left + countBodies (Moment.passedOver ⟨t :: later, s⟩) + countTasks ts := by
  have hspent := spends_next breaks t s
  rw [h] at hspent
  -- A task of a loop is not plain, so a statement that is begun and a reset are left.
  cases t with
  | begin room st =>
    obtain ⟨_, v, henter, hnext⟩ := exists_of_bind_ok h
    have hloop : st.isLoop = false := Bool.eq_false_iff.2 fun hself => ht.1 (.self hself)
    obtain ⟨ss, ⟨resets, rfl, hresets⟩, hparts, hbalance⟩ := goesInto_of_next hloop hnext
    constructor
    · intro t' ht'
      rcases List.mem_append.1 ht' with hreset | hbegin
      · obtain ⟨word, line, name, rfl⟩ := hresets t' hreset
        exact True.intro
      · obtain ⟨part, hpart, rfl⟩ := List.mem_map.1 hbegin
        exact ⟨fun hin => ht.1 (.part (hparts part hpart) hin),
          fun hin => ht.2 (.part (hparts part hpart) hin)⟩
    · have hbegun : countTasks [.begin room st] = st.count := rfl
      have hpassed : Moment.passedOver ⟨.begin room st :: later, s⟩
          = st.passedOver s.store room := rfl
      have hcharge : (Task.begin room st).charge = st.charge := rfl
      rw [store_of_enter henter] at hbalance
      rw [hbegun, hpassed, countTasks_append, countTasks_resets hresets, countTasks_begin]
      simp only [hcharge] at hspent
      omega
  | reset word line name =>
    obtain ⟨_, v, hreset, hnext⟩ := exists_of_bind_ok h
    injection hnext with hts
    subst hts
    exact ⟨nofun, by rw [show s.left = u.left from hspent.symm]; rfl⟩
  | _ => exact absurd ht id

end Steps

/-! ## Whole runs -/

section Runs

variable {breaks : Nat → Bool} {kind : Statement → Bool} {m n : Moment}
  {bodies : List (List Statement)}

/-- **The account at every moment.** -/
theorem Moment.PassesOver.balance (h : Moment.PassesOver breaks m bodies n)
    (hm : ∀ t ∈ m.tasks, t.Plain kind) :
    (∀ t ∈ n.tasks, t.Plain kind)
      ∧ n.state.left + countTasks m.tasks
        = m.state.left + countBodies bodies + countTasks n.tasks := by
  induction h with
  | refl => exact ⟨hm, rfl⟩
  | @tail bodies n o _ hnext ih =>
    cases hnext with
    | @step t new ts s u hstep =>
      obtain ⟨hplain, hsum⟩ := ih
      obtain ⟨ht, hts⟩ := List.forall_mem_cons.1 hplain
      obtain ⟨hnew, hbalance⟩ := balance_of_next ht hstep ts
      have hcons : countTasks (t :: ts) = countTasks [t] + countTasks ts :=
        countTasks_append [t] ts
      refine ⟨List.forall_mem_append.2 ⟨hnew, hts⟩, ?_⟩
      simp only [hcons, countTasks_append, countBodies_append] at hsum ⊢
      omega

/-- A run without branching passes over nothing. -/
theorem Moment.PassesOver.eq_nil (h : Moment.PassesOver breaks m bodies n)
    (hm : ∀ t ∈ m.tasks, t.Plain Statement.isBranching) : bodies = [] := by
  induction h with
  | refl => rfl
  | @tail bodies n o hpasses hnext ih =>
    obtain ⟨hplain, -⟩ := hpasses.balance hm
    cases hnext with
    | @step t new ts s u hstep =>
      obtain ⟨ht, -⟩ := List.forall_mem_cons.1 hplain
      have hnone : Moment.passedOver ⟨t :: ts, s⟩ = [] := by
        cases t with
        | begin room st =>
          have hstraight : st.isBranching = false :=
            Bool.eq_false_iff.2 fun hself => ht.2 (.self hself)
          cases st with
          | ifThen c t e line => exact nomatch hstraight
          | caseOf selector branches otherwise line => exact nomatch hstraight
          | _ => rfl
        | _ => rfl
      rw [ih, hnone]
      rfl

/-- On the way from one moment to another some bodies are passed over, possibly none. -/
theorem Moment.exists_passesOver (h : Relation.ReflTransGen (Moment.Next breaks) m n) :
    ∃ bodies, Moment.PassesOver breaks m bodies n := by
  induction h with
  | refl => exact ⟨[], .refl⟩
  | tail _ hnext ih =>
    obtain ⟨bodies, hbodies⟩ := ih
    exact ⟨_, hbodies.tail hnext⟩

end Runs

/-- The run came to its end by itself: neither a fault nor the limit nor a breakpoint stopped it. -/
structure RunResult.IsComplete (r : RunResult) : Prop where
  error : r.error = none
  limit : r.stepLimitReached = false
  breakpoint : r.breakpointLine = none

/-- A run that is complete was stopped by nothing. -/
theorem stop_of_isComplete {p : Program} {room : Nat} {limit : Int} {breaks : Nat → Bool}
    (h : (p.execute room limit breaks).IsComplete) :
    (p.run room limit.toNat breaks).stop = none := by
  obtain ⟨herror, -, hbreakpoint⟩ := h
  unfold Program.execute at herror hbreakpoint
  cases hstop : (p.run room limit.toNat breaks).stop with
  | none => rfl
  | some stop =>
    simp only [hstop] at herror hbreakpoint
    cases stop with
    | fault e => exact nomatch herror
    | stepLimit => exact nomatch herror
    | breakpoint line => exact nomatch hbreakpoint

/-- How the steps of a run and the statements of its program agree. -/
structure Program.Agrees (p : Program) (room : Nat) (limit : Int) (breaks : Nat → Bool) : Prop where
  /-- The run passes over some bodies from its beginning to its end. -/
  passes : ∃ bodies, p.PassesOver room limit.toNat breaks bodies
  /-- Its steps and the statements in those bodies are the statements of the program. -/
  steps_add : ∀ bodies, p.PassesOver room limit.toNat breaks bodies →
    (p.execute room limit breaks).steps + countBodies bodies = p.statementCount
  steps_le : (p.execute room limit breaks).steps ≤ p.statementCount
  /-- If nothing branches, nothing is passed over. -/
  steps_eq : p.Without Statement.isBranching →
    (p.execute room limit breaks).steps = p.statementCount

/-- **A run that comes to its end takes the steps of the statements that it does not pass over.** -/
theorem agrees {p : Program} (hloops : p.Without Statement.isLoop) {room : Nat}
    {limit : Int} {breaks : Nat → Bool} (hcomplete : (p.execute room limit breaks).IsComplete) :
    p.Agrees room limit breaks := by
  have hstop := stop_of_isComplete hcomplete
  have hle := left_run_le p room limit.toNat breaks
  have hsteps := steps_execute p room limit breaks
  have hplain {kind : Statement → Bool} (hkind : p.Without kind) :
      ∀ t ∈ p.body.map (Task.begin room), t.Plain kind := by
    intro t ht
    obtain ⟨s, hs, rfl⟩ := List.mem_map.1 ht
    exact ⟨hloops s hs, hkind s hs⟩
  have hpasses : ∃ bodies, p.PassesOver room limit.toNat breaks bodies := by
    obtain ⟨m, hm, hending⟩ := run_reached p room limit.toNat breaks
    obtain ⟨bodies, hbodies⟩ := Moment.exists_passesOver hm
    exact ⟨bodies, m, hbodies, hending⟩
  have hadd : ∀ bodies, p.PassesOver room limit.toNat breaks bodies →
      (p.execute room limit breaks).steps + countBodies bodies = p.statementCount := by
    rintro bodies ⟨⟨ts, s⟩, hbodies, hending⟩
    obtain ⟨-, hbalance⟩ := hbodies.balance (hplain hloops)
    cases ts with
    | nil =>
      -- Nothing is left to be begun, and the state is the one that the run reached.
      have hrun : (p.run room limit.toNat breaks).state = s := by
        rw [← Option.some.inj hending]
      have hall : countTasks (p.body.map (.begin room)) = p.statementCount :=
        countTasks_begin room p.body
      have hnone : countTasks [] = 0 := rfl
      have hbudget : (p.start limit.toNat).left = limit.toNat := rfl
      simp only [hall, hnone, hbudget] at hbalance
      rw [hrun] at hle hsteps
      omega
    | cons t ts =>
      -- An ending in front of a task is a stop.
      simp only [Moment.ending?] at hending
      split at hending
      · cases hending
      · rw [← Option.some.inj hending] at hstop
        cases hstop
  obtain ⟨bodies, hbodies⟩ := hpasses
  have hsum := hadd bodies hbodies
  refine ⟨⟨bodies, hbodies⟩, hadd, by omega, fun hstraight => ?_⟩
  obtain ⟨m, hm, -⟩ := hbodies
  rw [hm.eq_nil (hplain hstraight)] at hsum
  exact hsum

/-! ## Programs without executable statements -/

section Empty

variable {breaks : Nat → Bool} {s u : RunState}

theorem performAll_cons (room : Nat) (st : Statement) (ss : List Statement) :
    performAll breaks room (st :: ss)
      = (do st.execute breaks room; performAll breaks room ss) := by
  rw [performAll, Statement.execute, bind_assoc]

mutual

/-- A statement that counts nothing does nothing. -/
theorem Statement.execute_of_count : (st : Statement) → st.count = 0 → (room : Nat) →
    (s : RunState) → st.execute breaks room s = .ok () s
  | .compound body line, h, room, s => by
    have hbody := performAll_of_count body h (room - 1) s
    rw [Statement.execute, Statement.perform]
    exact hbody
  | .empty line, _, room, s => by
    rw [Statement.execute, Statement.perform]
    rfl
  | .ifThen c t none line, h, _, s => by
    rw [Statement.count] at h
    omega
  | .ifThen c t (some e) line, h, _, s => by
    rw [Statement.count] at h
    omega
  | .whileDo c b line, h, _, s => by
    rw [Statement.count] at h
    omega
  | .repeatUntil b c line, h, _, s => by
    rw [Statement.count] at h
    omega
  | .forTo counter first last down b line, h, _, s => by
    rw [Statement.count] at h
    omega
  | .caseOf selector branches otherwise line, h, _, s => by
    rw [Statement.count] at h
    omega

theorem performAll_of_count : (ss : List Statement) → countAll ss = 0 → (room : Nat) →
    (s : RunState) → performAll breaks room ss s = .ok () s
  | [], _, room, s => by
    rw [performAll]
    rfl
  | st :: ss, h, room, s => by
    obtain ⟨hst, hss⟩ := Nat.add_eq_zero_iff.1 h
    rw [performAll_cons, bind_of_ok (st.execute_of_count hst room s)]
    exact performAll_of_count ss hss room s

end

/-- Any other statement takes a step before it does anything, and is stopped if there is none. -/
theorem execute_of_left_zero {st : Statement} (hstep : st.isStep = true) (hleft : s.left = 0)
    (room : Nat) : st.execute noBreaks room s
      = .error .stepLimit { s with line := st.line } := by
  have henter : enter noBreaks st s = .ok () { s with line := st.line } := by
    rw [enter_apply, if_pos hstep]
    rfl
  have hleft' : { s with line := st.line }.left = 0 := hleft
  rw [Statement.execute, bind_of_ok henter]
  cases st with
  | repeatUntil b c line =>
    -- The step is that of the first turn.
    rw [Statement.perform]
    change repeatTurns (performAll noBreaks (room - 1) b) (condition room c line) s.left _ = _
    exact repeatTurns_of_left_zero hleft' s.left
  | compound body line => cases hstep
  | empty line => cases hstep
  | _ =>
    rw [Task.perform_eq]
    exact bind_of_error (bind_of_error (step_of_left_zero hleft'))

mutual

/-- A statement that counts something does not come to its end without a step. -/
theorem Statement.execute_exhausted : (st : Statement) → st.count ≠ 0 → (room : Nat) →
    {s : RunState} → s.left = 0 → ∃ u, st.execute noBreaks room s = .error .stepLimit u
  | .compound body _, hcount, room, _, hleft => by
    rw [Statement.execute, Statement.perform]
    exact performAll_exhausted body hcount (room - 1) hleft
  | .empty _, hcount, _, _, _ => absurd rfl hcount
  | .assign .., _, room, _, hleft | .write .., _, room, _, hleft | .read .., _, room, _, hleft
  | .ifThen .., _, room, _, hleft | .whileDo .., _, room, _, hleft
  | .repeatUntil .., _, room, _, hleft | .forTo .., _, room, _, hleft
  | .caseOf .., _, room, _, hleft => ⟨_, execute_of_left_zero rfl hleft room⟩

theorem performAll_exhausted : (ss : List Statement) → countAll ss ≠ 0 → (room : Nat) →
    {s : RunState} → s.left = 0 → ∃ u, performAll noBreaks room ss s = .error .stepLimit u
  | [], hcount, _, _, _ => absurd rfl hcount
  | st :: ss, hcount, room, s, hleft => by
    rw [performAll_cons]
    by_cases hst : st.count = 0
    · rw [bind_of_ok (st.execute_of_count hst room s)]
      refine performAll_exhausted ss (fun hss => hcount ?_) room hleft
      rw [countAll, hst, hss]
    · obtain ⟨u, hu⟩ := st.execute_exhausted hst room hleft
      exact ⟨u, bind_of_error hu⟩

end

end Empty

/-- **A program counts no statement if and only if none of its runs takes a step, whatever the
limit, and all of them succeed.** -/
theorem statementCount_eq_zero_iff (p : Program) (room : Nat) :
    p.statementCount = 0 ↔ ∀ limit : Int, 0 ≤ limit →
      (p.execute room limit noBreaks).steps = 0
        ∧ (p.execute room limit noBreaks).success = true := by
  constructor
  · intro hcount limit _
    have hrun : p.run room limit.toNat noBreaks = ⟨none, p.start limit.toNat⟩ := by
      rw [run_eq, performAll_of_count p.body hcount room]
      rfl
    unfold Program.execute
    rw [hrun]
    exact ⟨Nat.sub_self _, rfl⟩
  · intro hall
    by_contra hcount
    -- Under the limit zero the first statement that counts is stopped.
    obtain ⟨-, hsuccess⟩ := hall 0 (Int.le_refl 0)
    obtain ⟨u, hu⟩ := performAll_exhausted p.body hcount room (s := p.start 0) rfl
    have hrun : p.run room (0 : Int).toNat noBreaks = ⟨some .stepLimit, u⟩ := by
      rw [run_eq]
      exact congrArg ending hu
    unfold Program.execute at hsuccess
    rw [hrun] at hsuccess
    exact nomatch hsuccess

/-- The report on a program that compiled. -/
theorem compileResult_of_program {source : List Char} {p : Program}
    (h : (compileResult source).program = some p) : compileResult source = .of (.ok p) := by
  unfold compileResult at h ⊢
  cases hcompiled : compile source with
  | error ds =>
    rw [hcompiled] at h
    exact nomatch h
  | ok q =>
    rw [hcompiled] at h
    rw [← Option.some.inj h]

/-- The warning is given if nothing is counted. -/
theorem mem_warnings_iff (p : Program) :
    "Program has no executable statements" ∈ (CompileResult.of (.ok p)).warnings
      ↔ p.statementCount = 0 := by
  unfold CompileResult.of
  simp only
  split
  · rename_i hzero
    exact iff_of_true List.mem_cons_self hzero
  · rename_i hmore
    exact iff_of_false List.not_mem_nil hmore

/-- **The statements that are counted and the steps that are taken.** For every program that
compiles: if it has no loops, a run that comes to its end takes the steps that the count promises,
less those of the bodies passed over; and the warning is given exactly if there is nothing to do. -/
theorem counts_agree {source : List Char} {p : Program}
    (h : (compileResult source).program = some p) (room : Nat) :
    (compileResult source).statementCount = p.statementCount
      ∧ (p.Without Statement.isLoop → ∀ (limit : Int) (breaks : Nat → Bool),
          (p.execute room limit breaks).IsComplete → p.Agrees room limit breaks)
      ∧ ("Program has no executable statements" ∈ (compileResult source).warnings
          ↔ ∀ limit : Int, 0 ≤ limit → (p.execute room limit noBreaks).steps = 0
            ∧ (p.execute room limit noBreaks).success = true) := by
  rw [compileResult_of_program h]
  exact ⟨rfl, fun hloops limit breaks => agrees hloops,
    (mem_warnings_iff p).trans (statementCount_eq_zero_iff p room)⟩

/-- A program with two bodies, of which a run goes into the first. -/
def forkSource : List Char :=
  "program fork; begin if 1 < 2 then write(1) else begin write(2); write(3) end end.".toList

/-- The body of `forkSource` that is passed over. -/
def forkOther : Statement :=
  .compound [.write false [⟨.literal (.integer 2) 1, none, none⟩] 1,
    .write false [⟨.literal (.integer 3) 1, none, none⟩] 1] 1

/-- The program of `forkSource`. -/
def fork : Program where
  name := "fork"
  declarations := []
  constants := []
  body := [.ifThen (.binary .less (.literal (.integer 1) 1) (.literal (.integer 2) 1) 1)
    (.write false [⟨.literal (.integer 1) 1, none, none⟩] 1) (some forkOther) 1]

theorem compile_fork : compile forkSource = .ok fork := by
  cbv

theorem without_loops_fork : fork.Without Statement.isLoop := by
  have hpart {s : Statement} (hself : s.isLoop = false)
      (hparts : ∀ t ∈ s.parts, ¬ t.Holds Statement.isLoop) : ¬ s.Holds Statement.isLoop := by
    rintro (hloop | ⟨ht, hin⟩)
    · exact absurd (hself.symm.trans hloop) (by decide)
    · exact hparts _ ht hin
  have hwrite (newline : Bool) (items : List WriteItem) (line : Nat) :
      ¬ (Statement.write newline items line).Holds Statement.isLoop := hpart rfl nofun
  refine List.forall_mem_singleton.2 (hpart rfl (List.forall_mem_cons.2 ⟨hwrite _ _ _, ?_⟩))
  refine List.forall_mem_singleton.2 (hpart rfl (List.forall_mem_cons.2 ⟨hwrite _ _ _, ?_⟩))
  exact List.forall_mem_singleton.2 (hwrite _ _ _)

/-- Two of four statements are carried out, and the body of the other two is passed over. -/
theorem counts_agree_fork :
    (compileResult forkSource).program = some fork
      ∧ fork.Without Statement.isLoop
      ∧ (fork.execute 480 2 noBreaks).IsComplete
      ∧ fork.Agrees 480 2 noBreaks
      ∧ (fork.execute 480 2 noBreaks).steps = 2 ∧ countBodies [[forkOther]] = 2
      ∧ fork.statementCount = 4 := by
  have hcompiled : (compileResult forkSource).program = some fork := by
    rw [compileResult, compile_fork]
    rfl
  have hcomplete : (fork.execute 480 2 noBreaks).IsComplete :=
    ⟨by decide +kernel, by decide +kernel, by decide +kernel⟩
  exact ⟨hcompiled, without_loops_fork, hcomplete,
    (counts_agree hcompiled 480).2.1 without_loops_fork 2 noBreaks hcomplete,
    by decide +kernel, rfl, rfl⟩

end TurboBench.Pascal
