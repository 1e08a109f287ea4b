import TurboBench.Proofs.Pascal.Forward

/-!
# What a greater step limit changes

An action is compared with itself under a budget that is greater by `d` steps (`RunState.more`). As
long as the smaller budget suffices, both go through the same states, but for the steps that are
left. When it does not, the greater one goes on from the state in which the smaller one was
stopped, and there on it only goes up.

Being steady is a property of an action at a state (`SteadyAt`), not of an action alone: a loop is
steady because its turns are and because it is steady at all states with fewer steps left. For
sequences `Forward` comes in, since the second action is not started at all where the first one was
stopped, but is under the greater budget.

The result is `execute_truncated`: the step limit cuts a run off and does nothing else to it.
-/

set_option autoImplicit false

namespace TurboBench.Pascal

open Run
open RunState (Later Continues)

/-- The state with `d` more steps to go. -/
def RunState.more (d : Nat) (s : RunState) : RunState :=
  { s with left := d + s.left }

/-- An outcome with `d` more steps to go. -/
def moreLeft {α : Type} (d : Nat) :
    EStateM.Result Stop RunState α → EStateM.Result Stop RunState α
  | .ok a s => .ok a (s.more d)
  | .error e s => .error e (s.more d)

/-! ## Steadiness -/

/-- What `d` more steps do to an action that is started in a state: nothing if it is not stopped by
the limit, and otherwise it goes on from where it was stopped, with a step of the `d` taken. -/
structure SteadyAt {α : Type} (p : Run α) (s : RunState) : Prop where
  same (d : Nat) (h : ∀ t, p s ≠ .error .stepLimit t) : p (s.more d) = moreLeft d (p s)
  stopped (d : Nat) {t : RunState} (h : p s = .error .stepLimit t) :
    t.left = 0 ∧ Later (t.more d) (final (p (s.more d))) ∧ (final (p (s.more d))).left ≤ d - 1

/-- An action that goes up and is steady at every state. -/
structure Steady {α : Type} (p : Run α) : Prop where
  forward : Forward p
  at' (s : RunState) : SteadyAt p s

namespace SteadyAt

variable {α β : Type} {p : Run α} {s : RunState}

/-- An action that does not look at the steps left and cannot be stopped by the limit. -/
theorem of_same (hsame : ∀ d, p (s.more d) = moreLeft d (p s))
    (hnot : ∀ t, p s ≠ .error .stepLimit t) : SteadyAt p s :=
  ⟨fun d _ => hsame d, fun _ t h => absurd h (hnot t)⟩

/-- An action that comes to its end under a limit does the same with more steps to go. -/
theorem of_ok {a : α} {t : RunState} (h : SteadyAt p s) (hp : p s = .ok a t) (d : Nat) :
    p (s.more d) = .ok a (t.more d) := by
  have hnot : ∀ u, p s ≠ .error .stepLimit u := by
    intro u hu
    rw [hp] at hu
    exact absurd hu (by simp)
  rw [h.same d hnot, hp]
  rfl

/-- What is steady at a state, with something steady behind it wherever it leads, is steady
there. -/
theorem bind {f : α → Run β} (hp : SteadyAt p s) (hf : ∀ a, Forward (f a))
    (hs : ∀ a t, p s = .ok a t → SteadyAt (f a) t) : SteadyAt (p >>= f) s := by
  cases hps : p s with
  | ok a t =>
    have hmore (d : Nat) : (p >>= f) (s.more d) = f a (t.more d) := bind_of_ok (hp.of_ok hps d)
    have hstate : (p >>= f) s = f a t := bind_of_ok hps
    -- The first action is done under both budgets, so both conditions are those of the second.
    refine ⟨fun d hnot => ?_, fun d u hu => ?_⟩
    · rw [hstate] at hnot ⊢
      rw [hmore]
      exact (hs a t hps).same d hnot
    · rw [hstate] at hu
      rw [hmore]
      exact (hs a t hps).stopped d hu
  | error e t =>
    have hstate : (p >>= f) s = .error e t := bind_of_error hps
    refine ⟨fun d hnot => ?_, fun d u hu => ?_⟩
    · -- It fails for another reason, under the greater budget as well.
      rw [hstate] at hnot ⊢
      have hfirst := hp.same d (by
        rw [hps]
        intro u hu
        injection hu with he hu
        exact hnot u (by rw [he, hu]))
      rw [hps] at hfirst
      exact bind_of_error hfirst
    · -- The first action is stopped, but may come to its end under the greater budget.
      rw [hstate] at hu
      injection hu with he hu
      subst he hu
      obtain ⟨hzero, hlater, hleft⟩ := hp.stopped d hps
      refine ⟨hzero, ?_⟩
      cases hd : p (s.more d) with
      | ok a v =>
        rw [hd, final_ok] at hlater hleft
        have hrest := hf a v
        rw [bind_of_ok hd]
        exact ⟨hlater.trans hrest, Nat.le_trans hrest.left hleft⟩
      | error e v =>
        rw [hd, final_error] at hlater hleft
        rw [bind_of_error hd]
        exact ⟨hlater, hleft⟩

/-- The one action that the limit stops. -/
theorem step (s : RunState) : SteadyAt Run.step s := by
  cases hs : s.left with
  | zero =>
    have hstate := step_of_left_zero hs
    refine ⟨fun d hnot => absurd hstate (hnot s), fun d t ht => ?_⟩
    rw [hstate] at ht
    injection ht with _ ht
    subst ht
    refine ⟨hs, Forward.step _, ?_⟩
    -- The greater budget takes the step, unless it is not greater at all.
    cases d with
    | zero =>
      have hmore : (s.more 0).left = 0 := by simp [RunState.more, hs]
      rw [step_of_left_zero hmore, final_error]
      exact Nat.le_of_eq hmore
    | succ d =>
      have hmore : (s.more (d + 1)).left = d + 1 := by simp [RunState.more, hs]
      rw [step_of_left_succ hmore, final_ok]
      exact Nat.le_refl _
  | succ n =>
    have hstate := step_of_left_succ hs
    refine of_same (fun d => ?_) (fun t ht => ?_)
    · -- Both budgets have a step to take.
      have hmore : (s.more d).left = d + n + 1 := by simp [RunState.more, hs, Nat.add_assoc]
      rw [step_of_left_succ hmore, hstate]
      rfl
    · rw [hstate] at ht
      exact absurd ht (by simp)

end SteadyAt

namespace Steady

variable {α β : Type} {p : Run α}

/-- Steady actions one behind the other are steady. -/
theorem bind {f : α → Run β} (hp : Steady p) (hf : ∀ a, Steady (f a)) : Steady (p >>= f) :=
  ⟨hp.forward.bind fun a => (hf a).forward,
    fun s => (hp.at' s).bind (fun a => (hf a).forward) fun a t _ => (hf a).at' t⟩

/-- A loop is steady if its turns are: what comes behind a turn starts with fewer steps left. -/
theorem whileLoop {c : Run Bool} {b : Run Unit} (hc : Steady c) (hb : Steady b) :
    Steady (Run.whileLoop c b) := by
  have hforward : Forward (Run.whileLoop c b) := Forward.closed.whileLoop hc.forward hb.forward
  refine ⟨hforward, fun s => ?_⟩
  -- on the steps that are left, not on the count of turns, which the two budgets do not share
  induction hn : s.left using Nat.strongRecOn generalizing s with
  | ind n ih =>
    rw [whileLoop_eq hc.forward hb.forward]
    refine (hc.at' s).bind (fun holds => ?_) fun holds t ht => ?_
    · cases holds with
      | true => exact hb.forward.bind fun _ => Forward.step.bind fun _ => hforward
      | false => exact Forward.pure ()
    · cases holds with
      | true =>
        refine (hb.at' t).bind (fun _ => Forward.step.bind fun _ => hforward) fun _ u hu => ?_
        refine (SteadyAt.step u).bind (fun _ => hforward) fun _ v hv => ih v.left ?_ v rfl
        have hst := (hc.forward.of_ok ht).left
        have htu := (hb.forward.of_ok hu).left
        have huv := left_lt_of_step hv
        omega
      | false => exact SteadyAt.of_same (fun d => rfl) fun t ht => nomatch ht

/-- A `repeat` loop is steady, if its condition and its body are. The induction is on the steps that
are left. -/
theorem repeatLoop {c : Run Bool} {b : Run Unit} (hc : Steady c) (hb : Steady b) :
    Steady (Run.repeatLoop b c) := by
  have hforward : Forward (Run.repeatLoop b c) := Forward.closed.repeatLoop hc.forward hb.forward
  have hafter (holds : Bool) :
      Forward (do unless holds do Run.repeatLoop b c) := by
    cases holds with
    | true => exact Forward.pure ()
    | false => exact hforward
  refine ⟨hforward, fun s => ?_⟩
  induction hn : s.left using Nat.strongRecOn generalizing s with
  | ind n ih =>
    rw [repeatLoop_eq hc.forward hb.forward]
    refine (SteadyAt.step s).bind
      (fun _ => hb.forward.bind fun _ => hc.forward.bind hafter) fun _ t ht => ?_
    refine (hb.at' t).bind (fun _ => hc.forward.bind hafter) fun _ u hu => ?_
    refine (hc.at' u).bind hafter fun holds v hv => ?_
    cases holds with
    | true => exact SteadyAt.of_same (fun d => rfl) fun t ht => nomatch ht
    | false =>
      -- The turn took its step at the start, and nothing since gave one back.
      refine ih v.left ?_ v rfl
      have hst := left_lt_of_step ht
      have htu := (hb.forward.of_ok hu).left
      have huv := (hc.forward.of_ok hv).left
      omega

/-- Whatever is put together from steady actions is steady. -/
theorem closed : Closed Steady where
  pure a := ⟨Forward.pure a, fun _ => .of_same (fun _ => rfl) fun _ h => nomatch h⟩
  bind := bind
  fault line f :=
    ⟨Forward.closed.fault line f, fun _ => .of_same (fun _ => rfl) fun _ h => nomatch h⟩
  step := ⟨Forward.step, SteadyAt.step⟩
  eval room e := by
    refine ⟨Forward.eval room e, fun s => ?_⟩
    -- the steps left are in neither of the two fields that an expression reads
    have heval : Run.eval room e s = check (e.evalWithin s.store s.line room) s := rfl
    have hmore (d : Nat) :
        Run.eval room e (s.more d) = check (e.evalWithin s.store s.line room) (s.more d) := rfl
    cases h : e.evalWithin s.store s.line room with
    | ok v =>
      refine .of_same (fun d => ?_) fun t ht => ?_
      · rw [hmore, heval, h]
        rfl
      · rw [heval, h] at ht
        exact absurd ht (by simp [check, Pure.pure, EStateM.pure])
    | error err =>
      refine .of_same (fun d => ?_) fun t ht => ?_
      · rw [hmore, heval, h]
        rfl
      · rw [heval, h] at ht
        have hfault : Stop.fault err = .stepLimit := (EStateM.Result.error.inj ht).1
        exact absurd hfault (by simp)
  assign name v line := by
    refine ⟨Forward.assign name v line, fun s => ?_⟩
    cases h : charge line (s.store.set name v) with
    | ok σ =>
      refine .of_same (fun d => ?_) fun t => ?_
      · simp [Run.assign, RunState.more, moreLeft, h]
      · simp [Run.assign, h]
    | error err =>
      refine .of_same (fun d => ?_) fun t => ?_
      · simp [Run.assign, RunState.more, moreLeft, h]
      · simp [Run.assign, h]
  emit text newline := by
    refine ⟨Forward.emit text newline, fun s => .of_same (fun d => ?_) fun t => ?_⟩
    · cases newline with
      | true => rfl
      | false => rfl
    · rw [emit_apply]
      simp
  readNothing word line name := by
    refine ⟨Forward.readNothing word line name, fun s => ?_⟩
    cases h : s.store.reset? name with
    | some σv =>
      refine .of_same (fun d => ?_) fun t => ?_
      · simp [Run.readNothing, RunState.more, moreLeft, h]
      · simp [Run.readNothing, h]
    | none =>
      refine .of_same (fun d => ?_) fun t => ?_
      · simp [Run.readNothing, RunState.more, moreLeft, h]
      · simp [Run.readNothing, h]
  enter breaks st := by
    refine ⟨Forward.enter breaks st, fun s => .of_same (fun d => ?_) fun t => ?_⟩
    · rw [enter_apply, enter_apply]
      split
      · split
        · rfl
        · rfl
      · rfl
    · rw [enter_apply]
      split
      · split
        · simp
        · simp
      · simp
  whileLoop := whileLoop
  repeatLoop := repeatLoop

end Steady

/-! ## Runs under two limits -/

/-- Output that was cut off: the first lines of the full one, the last of them possibly not to its
end. -/
def CutOff (out full : List String) : Prop :=
  out <+: full ∨ ∃ lines cut line, out = lines ++ [cut] ∧ cut.toList <+: line.toList
    ∧ lines ++ [line] <+: full

/-- What the limit `n` does to a run: the result `r` of a run under it, and the result `full` of the
same run under a limit that is not less. -/
structure Truncated (n : Int) (r full : RunResult) : Prop where
  /-- No more steps are taken than the limit permits. -/
  steps_le : (r.steps : Int) ≤ n
  /-- A limit that is not reached has no effect at all. -/
  same : r.stepLimitReached = false → full = r
  /-- A limit that is reached is used up, and a greater one is used up to it at least. -/
  steps_eq : r.stepLimitReached = true → (r.steps : Int) = n ∧ n ≤ full.steps
  /-- The warnings are the first ones. -/
  warnings : r.stepLimitReached = true → r.warnings <+: full.warnings
  /-- The output, but for the status line, is cut off. -/
  output : r.stepLimitReached = true → ∃ out,
    r.output = out ++ [s!"Execution halted: step limit of {n} statements reached"]
      ∧ CutOff out full.output
  /-- A limit is reached only if more steps would have been taken. -/
  needed : full.stepLimitReached = false → (full.steps : Int) ≤ n → r.stepLimitReached = false

/-- What was written in a state, the line that was begun included. -/
def RunState.written (s : RunState) : List String :=
  s.lines.toList ++ s.pending.toList

/-- What was written is cut off from what has been written later, with any status behind it. -/
theorem RunState.Continues.cutOff {s t : RunState} (h : Continues s t) (status : List String) :
    CutOff s.written (t.written ++ status) := by
  unfold RunState.written
  rcases h with ⟨hs, h⟩ | ⟨hs, hw, h, ht⟩ | ⟨hs, hw, h⟩
  · -- No line was begun: all lines are there in full.
    refine Or.inl ?_
    rw [hs, Option.toList_none, List.append_nil, List.append_assoc]
    exact h.trans (List.prefix_append _ _)
  · -- The line that was begun is the last one of both, and has only grown.
    refine Or.inr ⟨_, _, _, by rw [hs, Option.toList_some], hw, ?_⟩
    rw [h, ht, Option.toList_some]
    exact List.prefix_append _ _
  · refine Or.inr ⟨_, _, _, by rw [hs, Option.toList_some], hw, ?_⟩
    rw [List.append_assoc]
    exact h.trans (List.prefix_append _ _)

/-- How a run ends, from the outcome of its statements. -/
def ending : EStateM.Result Stop RunState Unit → Ending
  | .ok _ s => ⟨none, s⟩
  | .error e s => ⟨some e, s⟩

theorem run_eq (p : Program) (room n : Nat) (breaks : Nat → Bool) :
    p.run room n breaks = ending (performAll breaks room p.body (p.start n)) := rfl

/-- A run ends with no more steps to go than it began with. -/
theorem left_run_le (p : Program) (room n : Nat) (breaks : Nat → Bool) :
    (p.run room n breaks).state.left ≤ n := by
  have hlater := Forward.closed.performAll breaks room p.body (p.start n)
  rw [run_eq]
  cases h : performAll breaks room p.body (p.start n) with
  | ok _ s =>
    rw [h] at hlater
    exact hlater.left
  | error e s =>
    rw [h] at hlater
    exact hlater.left

/-- A run that is not stopped by the limit has the same ending under every greater budget. -/
theorem run_more_of_not_stopped (p : Program) (room : Nat) (breaks : Nat → Bool) {n : Nat} (d : Nat)
    (h : (p.run room n breaks).stop ≠ some .stepLimit) :
    p.run room (d + n) breaks
      = ⟨(p.run room n breaks).stop, (p.run room n breaks).state.more d⟩ := by
  have hsteady := (Steady.closed.performAll breaks room p.body).at' (p.start n)
  have hsame := hsteady.same d
  rw [run_eq] at h ⊢
  rw [run_eq, show p.start (d + n) = (p.start n).more d from rfl]
  cases hp : performAll breaks room p.body (p.start n) with
  | ok a s =>
    rw [hp] at hsame
    rw [hsame fun t ht => nomatch ht]
    rfl
  | error e s =>
    rw [hp] at hsame h
    rw [hsame fun t ht => h (by injection ht with he; rw [he]; rfl)]
    rfl

/-- A run that is stopped by the limit goes on from there under a greater budget. -/
theorem run_more_of_stopped (p : Program) (room : Nat) (breaks : Nat → Bool) {n : Nat} (d : Nat)
    (h : (p.run room n breaks).stop = some .stepLimit) :
    (p.run room n breaks).state.left = 0
      ∧ Later ((p.run room n breaks).state.more d) (p.run room (d + n) breaks).state
      ∧ (p.run room (d + n) breaks).state.left ≤ d - 1 := by
  have hsteady := (Steady.closed.performAll breaks room p.body).at' (p.start n)
  have hstate (r : EStateM.Result Stop RunState Unit) : (ending r).state = final r := by
    cases r <;> rfl
  rw [run_eq] at h ⊢
  rw [run_eq, hstate, hstate, show p.start (d + n) = (p.start n).more d from rfl]
  cases hp : performAll breaks room p.body (p.start n) with
  | ok a s =>
    rw [hp] at h
    exact nomatch h
  | error e s =>
    rw [hp] at h
    have he : e = .stepLimit := Option.some.inj h
    subst he
    exact hsteady.stopped d hp

/-- Only a stop by the limit is reported with the limit. -/
theorem reported_of_not_stopped {stop : Option Stop} (h : stop ≠ some .stepLimit) (n m : Int) :
    stop.bind (·.error? n) = stop.bind (·.error? m)
      ∧ stop.map (·.statusLine n) = stop.map (·.statusLine m) := by
  rcases stop with - | - | - | -
  · exact ⟨rfl, rfl⟩
  · exact ⟨rfl, rfl⟩
  · exact absurd rfl h
  · exact ⟨rfl, rfl⟩

theorem steps_execute (p : Program) (room : Nat) (limit : Int) (breaks : Nat → Bool) :
    (p.execute room limit breaks).steps
      = limit.toNat - (p.run room limit.toNat breaks).state.left := rfl

theorem stepLimitReached_execute (p : Program) (room : Nat) (limit : Int) (breaks : Nat → Bool) :
    (p.execute room limit breaks).stepLimitReached = true
      ↔ (p.run room limit.toNat breaks).stop = some .stepLimit :=
  beq_iff_eq

/-- **The step limit only truncates.** For every program, all breakpoints and all limits, a run
under the limit `n` is a run under a greater limit that was cut off. -/
theorem execute_truncated (p : Program) (room : Nat) (breaks : Nat → Bool) {n m : Int} (hn : 0 ≤ n)
    (hnm : n ≤ m) : Truncated n (p.execute room n breaks) (p.execute room m breaks) := by
  obtain ⟨k, rfl⟩ := Int.eq_ofNat_of_zero_le hn
  obtain ⟨d, rfl⟩ := Int.le.dest hnm
  have hk : (k : Int).toNat = k := Int.toNat_natCast k
  have hd : ((k : Int) + (d : Nat)).toNat = d + k := by omega
  have hle := left_run_le p room k breaks
  have hsteps := steps_execute p room k breaks
  have hfull := steps_execute p room (k + d) breaks
  -- The limits are integers and the budgets natural numbers; from here on both are `k` and `d + k`.
  rw [hk] at hsteps
  rw [hd] at hfull
  by_cases hstop : (p.run room k breaks).stop = some .stepLimit
  · obtain ⟨hzero, hlater, hleft⟩ := run_more_of_stopped p room breaks d hstop
    have hreached : (p.execute room k breaks).stepLimitReached = true := by
      rw [stepLimitReached_execute, hk, hstop]
    refine ⟨by omega, fun h => ?_, fun _ => by omega, fun _ => ?_, fun _ => ?_, fun h hmore => ?_⟩
    · rw [hreached] at h
      exact nomatch h
    · simp only [Program.execute, hk, hd]
      exact hlater.warnings
    · -- Before the status line stands what was written, with the line that was begun.
      refine ⟨(p.run room k breaks).state.written, ?_, ?_⟩
      · simp only [Program.execute, hk, hstop]
        rfl
      · simp only [Program.execute, hd]
        exact hlater.written.cutOff _
    · -- The step at which the smaller limit stopped the run is taken under the greater one.
      have hd : d = 0 := by omega
      subst hd
      rw [Int.natCast_zero, Int.add_zero] at h
      exact h
  · have hrun := run_more_of_not_stopped p room breaks d hstop
    obtain ⟨herror, hstatus⟩ := reported_of_not_stopped hstop k (k + d)
    have hsame : p.execute room (k + d) breaks = p.execute room k breaks := by
      -- The `d` steps are in the budget and in what is left of it.
      have hleft : d + k - (d + (p.run room k breaks).state.left)
          = k - (p.run room k breaks).state.left := by
        omega
      simp only [Program.execute, hk, hd, hrun, herror, hstatus, RunState.more, hleft]
    have hnot : (p.execute room k breaks).stepLimitReached = false := by
      rw [← Bool.not_eq_true, stepLimitReached_execute, hk]
      exact hstop
    refine ⟨by omega, fun _ => hsame, fun h => ?_, fun h => ?_, fun h => ?_, fun _ _ => hnot⟩
    · rw [hnot] at h
      exact nomatch h
    · rw [hnot] at h
      exact nomatch h
    · rw [hnot] at h
      exact nomatch h

/-- A program that never ends: one step for the loop, and one for every turn. -/
def endlessLoop : Program where
  name := "spin"
  declarations := []
  constants := []
  body := [.whileDo (.literal (.boolean true) 1) (.empty 1) 1]

theorem execute_truncated_endlessLoop :
    (endlessLoop.execute 480 2 fun _ => false).stepLimitReached = true
      ∧ Truncated 2 (endlessLoop.execute 480 2 fun _ => false)
        (endlessLoop.execute 480 3 fun _ => false) :=
  ⟨by decide +kernel, execute_truncated endlessLoop 480 _ (by decide) (by decide)⟩

end TurboBench.Pascal
