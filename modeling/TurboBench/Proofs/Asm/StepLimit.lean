import TurboBench.Asm.Execution

/-!
# When the step limit is reported

A run ends for one of three reasons: there is no record at the instruction pointer, the program
halts itself, or as many instructions as allowed have been executed. The report on the limit does
not look at the reason. It asks whether the count is at the limit and a record stands at the
instruction pointer, and a program that halts itself with its last permitted instruction passes
that test whenever code follows the halting instruction.

`Runs` is the relation under the recursion: a number of instructions, none of which halts the
program. With it a run has three closed forms, one for each reason, and the report is compared
with them. The result, `stepLimitExact_iff`, is an equivalence: the report is exact but in the one
case above, and in that case it is wrong.
-/

set_option autoImplicit false

namespace TurboBench.Asm

/-! ## Instructions that do not halt the program -/

namespace Progress

variable {a : Assembly} {disabled : List Mnemonic}

/-- Executing `n` instructions, none of which halts the program, leads from one state to another. -/
inductive Runs (a : Assembly) (disabled : List Mnemonic) : Progress → Nat → Progress → Prop where
  | refl (s : Progress) : Runs a disabled s 0 s
  | step {s t u : Progress} {r : Record} {n : Nat} (hnext : s.next? a = some r)
      (hstep : s.step disabled a.symbols r = (t, false)) (h : Runs a disabled t n u) :
      Runs a disabled s (n + 1) u

/-- Every instruction counts as one, and has one line in the trace. -/
theorem executed_step (disabled : List Mnemonic) (s : Progress) (symbols : SymbolTable)
    (r : Record) :
    (s.step disabled symbols r).1.executed = s.executed + 1
      ∧ (s.step disabled symbols r).1.trace.size = s.trace.size + 1 := by
  unfold step
  split
  · simp [advance]
  · split <;> simp [advance]

/-- A run of so many steps counts as many more. -/
theorem Runs.executed {s t : Progress} {n : Nat} (h : Runs a disabled s n t) :
    t.executed = s.executed + n := by
  induction h with
  | refl s => rfl
  | @step s t u r n hnext hstep h ih =>
    have hcount := (executed_step disabled s a.symbols r).1
    rw [hstep] at hcount
    rw [ih, hcount]
    omega

theorem run_of_next_some {s : Progress} {r : Record} (hnext : s.next? a = some r) (limit : Nat) :
    run a disabled (limit + 1) s
      = if (s.step disabled a.symbols r).2 then (s.step disabled a.symbols r).1
        else run a disabled limit (s.step disabled a.symbols r).1 := by
  rw [run, hnext]

/-- A run goes through the states of its instructions, and its limit is used up by them. -/
theorem Runs.run_add {s t : Progress} {n : Nat} (h : Runs a disabled s n t) (limit : Nat) :
    run a disabled (n + limit) s = run a disabled limit t := by
  induction h with
  | refl s => rw [Nat.zero_add]
  | step hnext hstep h ih =>
    rw [Nat.add_right_comm, run_of_next_some hnext, hstep, ← ih]
    rfl

/-! ## The three ends of a run -/

theorem run_of_next_none {s : Progress} (h : s.next? a = none) (limit : Nat) :
    run a disabled limit s = s := by
  cases limit with
  | zero => rfl
  | succ limit => rw [run, h]

theorem run_of_halts {s t : Progress} {r : Record} (hnext : s.next? a = some r)
    (hstep : s.step disabled a.symbols r = (t, true)) (limit : Nat) :
    run a disabled (limit + 1) s = t := by
  rw [run_of_next_some hnext, hstep]
  rfl

theorem run_one {s : Progress} {r : Record} (hnext : s.next? a = some r) :
    run a disabled 1 s = (s.step disabled a.symbols r).1 := by
  rw [run_of_next_some hnext, run, ite_self]

/-- A run uses up its limit, or comes to a place without a record before, or is halted before. -/
theorem run_ends (a : Assembly) (disabled : List Mnemonic) (limit : Nat) (s : Progress) :
    (∃ t, Runs a disabled s limit t)
      ∨ (∃ k t, k < limit ∧ Runs a disabled s k t ∧ t.next? a = none)
      ∨ (∃ k t r u, k < limit ∧ Runs a disabled s k t ∧ t.next? a = some r
        ∧ t.step disabled a.symbols r = (u, true)) := by
  -- on the limit, one instruction at the front at a time
  induction limit generalizing s with
  | zero => exact Or.inl ⟨s, .refl s⟩
  | succ limit ih =>
    cases hnext : s.next? a with
    | none => exact Or.inr (Or.inl ⟨0, s, Nat.succ_pos limit, .refl s, hnext⟩)
    | some r =>
      rcases hstep : s.step disabled a.symbols r with ⟨t, - | -⟩
      · rcases ih t with ⟨u, h⟩ | ⟨k, u, hk, h, hnone⟩ | ⟨k, u, q, v, hk, h, hsome, hhalts⟩
        · exact Or.inl ⟨u, .step hnext hstep h⟩
        · exact Or.inr (Or.inl ⟨k + 1, u, Nat.succ_lt_succ hk, .step hnext hstep h, hnone⟩)
        · exact Or.inr (Or.inr
            ⟨k + 1, u, q, v, Nat.succ_lt_succ hk, .step hnext hstep h, hsome, hhalts⟩)
      · exact Or.inr (Or.inr ⟨0, s, r, t, Nat.succ_pos limit, .refl s, hnext, hstep⟩)

/-- A run leaves one line for each step. -/
theorem size_trace_run (a : Assembly) (disabled : List Mnemonic) (limit : Nat) (s : Progress) :
    (run a disabled limit s).trace.size + s.executed
      = s.trace.size + (run a disabled limit s).executed := by
  induction limit generalizing s with
  | zero => rfl
  | succ limit ih =>
    cases hnext : s.next? a with
    | none => rw [run_of_next_none hnext]
    | some r =>
      obtain ⟨hcount, htrace⟩ := executed_step disabled s a.symbols r
      have hrest := ih (s.step disabled a.symbols r).1
      rw [run_of_next_some hnext]
      split
      · omega
      · omega

end Progress

/-! ## The report -/

open Progress (Runs)

/-- The program halts itself with its instruction number `n`, which leads to the state `u`. -/
def HaltsAt (a : Assembly) (disabled : List Mnemonic) (n : Nat) (u : Progress) : Prop :=
  ∃ k t r, n = k + 1 ∧ Runs a disabled .start k t ∧ t.next? a = some r
    ∧ t.step disabled a.symbols r = (u, true)

/-- The program is over after `n` instructions, in the state `u`: it halted itself, or control is
where no record is. -/
def EndsAt (a : Assembly) (disabled : List Mnemonic) (n : Nat) (u : Progress) : Prop :=
  HaltsAt a disabled n u ∨ (Runs a disabled .start n u ∧ u.next? a = none)

/-- What it means for the report on the limit to be exact. -/
structure StepLimitExact (a : Assembly) (disabled : List Mnemonic) (limits : Limits) : Prop where
  /-- The limit is reported if and only if it kept an instruction from being executed. -/
  reported : (a.execute limits disabled).stepLimitReached = true
    ↔ ((a.execute { limits with steps := limits.steps + 1 } disabled).executed : Int)
      = limits.steps + 1
  /-- The trace has a line for every instruction, and the status behind it if and only if the limit
  is reported. -/
  status : ∃ trace : List String, trace.length = (a.execute limits disabled).executed
    ∧ (a.execute limits disabled).output
      = trace ++ if (a.execute limits disabled).stepLimitReached
          then [s!"Execution halted: step limit of {limits.steps} instructions reached"] else []
  /-- The limit is not reported for a program that is over when it is used up. -/
  ended : ∀ u, EndsAt a disabled limits.steps.toNat u →
    (a.execute limits disabled).stepLimitReached = false

/-- The case in which the report goes wrong: the program halts itself with the last instruction
that the limit permits, and a record stands where control is left. -/
def HaltsBeforeCode (a : Assembly) (disabled : List Mnemonic) (n : Nat) : Prop :=
  ∃ u, HaltsAt a disabled n u ∧ (u.next? a).isSome

section Report

variable {a : Assembly} {limits : Limits}

theorem executed_execute (h : a.success = true) (limits : Limits) (disabled : List Mnemonic) :
    (a.execute limits disabled).executed
      = (Progress.run a disabled limits.steps.toNat .start).executed := by
  rw [Assembly.execute, if_pos h]

theorem stepLimitReached_execute (h : a.success = true) (limits : Limits)
    (disabled : List Mnemonic) :
    (a.execute limits disabled).stepLimitReached = true
      ↔ limits.steps ≤ (Progress.run a disabled limits.steps.toNat .start).executed
        ∧ ((Progress.run a disabled limits.steps.toNat .start).next? a).isSome := by
  rw [Assembly.execute, if_pos h, Bool.and_eq_true, decide_eq_true_iff]

/-- The output of a run is its trace, with one line behind it if the limit was reached. -/
theorem status_execute (h : a.success = true) (limits : Limits) (disabled : List Mnemonic) :
    ∃ trace : List String, trace.length = (a.execute limits disabled).executed
      ∧ (a.execute limits disabled).output
        = trace ++ if (a.execute limits disabled).stepLimitReached
            then [s!"Execution halted: step limit of {limits.steps} instructions reached"]
            else [] := by
  refine ⟨(Progress.run a disabled limits.steps.toNat .start).trace.toList, ?_, ?_⟩
  · have hsize := Progress.size_trace_run a disabled limits.steps.toNat .start
    rw [executed_execute h, Array.length_toList]
    simpa [Progress.start] using hsize
  · rw [Assembly.execute, if_pos h]

/-- A program that halts itself within the limit does so under every greater limit. -/
theorem HaltsAt.run_eq {disabled : List Mnemonic} {n : Nat} {u : Progress}
    (h : HaltsAt a disabled n u) (d : Nat) :
    Progress.run a disabled (n + d) .start = u ∧ u.executed = n := by
  obtain ⟨k, t, r, rfl, hruns, hnext, hstep⟩ := h
  have hcount := (Progress.executed_step disabled t a.symbols r).1
  rw [hstep, hruns.executed] at hcount
  refine ⟨?_, ?_⟩
  · rw [Nat.add_right_comm, Nat.add_assoc, hruns.run_add]
    exact Progress.run_of_halts hnext hstep d
  · rw [hcount, Progress.start, Nat.zero_add]

/-! The test of the report, on the runs themselves. -/

/-- Whether a run counts as stopped by its limit. -/
def Stopped (a : Assembly) (disabled : List Mnemonic) (n : Nat) : Prop :=
  n ≤ (Progress.run a disabled n .start).executed
    ∧ ((Progress.run a disabled n .start).next? a).isSome = true

/-- A run that halts at its last step, before a record, is taken for one that was stopped. -/
theorem stopped_of_haltsBeforeCode {disabled : List Mnemonic} {n : Nat}
    (h : HaltsBeforeCode a disabled n) : Stopped a disabled n := by
  obtain ⟨u, hhalts, hnext⟩ := h
  obtain ⟨hrun, hcount⟩ := hhalts.run_eq 0
  rw [Nat.add_zero] at hrun
  rw [Stopped, hrun, hcount]
  exact ⟨Nat.le_refl n, hnext⟩

/-- A program that is over has no record in front of it, or is in the bad case. -/
theorem not_stopped_of_endsAt {disabled : List Mnemonic} {n : Nat} {u : Progress}
    (hbefore : ¬ HaltsBeforeCode a disabled n) (h : EndsAt a disabled n u) :
    ¬ Stopped a disabled n := by
  rintro ⟨-, hsome⟩
  rcases h with hhalts | ⟨hruns, hnone⟩
  · rw [← Nat.add_zero n, (hhalts.run_eq 0).1] at hsome
    exact hbefore ⟨u, hhalts, hsome⟩
  · rw [← Nat.add_zero n, hruns.run_add 0, Progress.run, hnone] at hsome
    exact absurd hsome (by decide)

/-- A run counts as stopped if a limit greater by one permits one instruction more. -/
theorem stopped_iff {disabled : List Mnemonic} {n : Nat}
    (hbefore : ¬ HaltsBeforeCode a disabled n) :
    Stopped a disabled n ↔ (Progress.run a disabled (n + 1) .start).executed = n + 1 := by
  unfold Stopped
  -- one case for each end of a run
  rcases Progress.run_ends a disabled n .start with
    ⟨t, hruns⟩ | ⟨k, t, hk, hruns, hnone⟩ | ⟨k, t, r, u, hk, hruns, hnext, hstep⟩
  · -- The limit is used up; one more instruction is executed if there is a record for it.
    have hcount := hruns.executed
    rw [hruns.run_add 1, ← Nat.add_zero n, hruns.run_add 0, Progress.run]
    cases hnext : t.next? a with
    | none =>
      rw [Progress.run_of_next_none hnext]
      simp [Progress.start] at hcount ⊢
      omega
    | some r =>
      have hstep := (Progress.executed_step disabled t a.symbols r).1
      rw [Progress.run_one hnext, hstep]
      simp [Progress.start] at hcount ⊢
      omega
  · -- The program was over before.
    obtain ⟨d, rfl⟩ := Nat.exists_eq_add_of_lt hk
    have hcount := hruns.executed
    rw [Nat.add_assoc, Nat.add_assoc, hruns.run_add, hruns.run_add,
      Progress.run_of_next_none hnone, Progress.run_of_next_none hnone]
    simp [Progress.start] at hcount ⊢
    omega
  · -- The program halted itself, with the last permitted instruction or before.
    have hhalts : HaltsAt a disabled (k + 1) u := ⟨k, t, r, rfl, hruns, hnext, hstep⟩
    obtain ⟨d, rfl⟩ := Nat.exists_eq_add_of_le (Nat.succ_le_of_lt hk)
    obtain ⟨hrun, hcount⟩ := hhalts.run_eq d
    rw [hrun, Nat.add_assoc, (hhalts.run_eq (d + 1)).1, hcount]
    refine ⟨?_, fun hone => by omega⟩
    rintro ⟨hle, hsome⟩
    have hd : d = 0 := by omega
    subst hd
    exact absurd ⟨u, hhalts, hsome⟩ hbefore

/-- **The report on the step limit.** It is exact if and only if the program does not halt itself,
in front of a record, with the last instruction that the limit permits. -/
theorem stepLimitExact_iff (h : a.success = true) (hn : 1 ≤ limits.steps)
    (disabled : List Mnemonic) :
    StepLimitExact a disabled limits ↔ ¬ HaltsBeforeCode a disabled limits.steps.toNat := by
  -- The limit is an integer and a run counts in natural numbers, so name the number it stands for.
  obtain ⟨n, hsteps⟩ := Int.eq_ofNat_of_zero_le (show 0 ≤ limits.steps by omega)
  have hmore : (limits.steps + 1).toNat = n + 1 := by omega
  have hsame : limits.steps.toNat = n := by omega
  have hreached : (a.execute limits disabled).stepLimitReached = true ↔ Stopped a disabled n := by
    rw [stepLimitReached_execute h, hsame, hsteps, Stopped, Int.ofNat_le]
  rw [hsame]
  refine ⟨?_, fun hbefore => ⟨?_, status_execute h limits disabled, fun u hends => ?_⟩⟩
  · -- In the bad case the program is over, and the limit is reported nevertheless.
    rintro hexact ⟨u, hhalts, hnext⟩
    have hnot := hexact.ended u (Or.inl (by rwa [hsame]))
    rw [hreached.2 (stopped_of_haltsBeforeCode ⟨u, hhalts, hnext⟩)] at hnot
    exact absurd hnot (by decide)
  · rw [hreached, stopped_iff hbefore, executed_execute h, hmore]
    omega
  · rw [hsame] at hends
    rw [← Bool.not_eq_true, hreached]
    exact not_stopped_of_endsAt hbefore hends

end Report

/-- A program that halts itself with its second instruction, in front of a third one. -/
def haltBeforeReturn : List Char :=
  "mov ah, 4Ch\nint 21h\nret".toList

theorem stepLimitExact_iff_haltBeforeReturn :
    StepLimitExact (assemble haltBeforeReturn) [] ⟨3, 256⟩
      ↔ ¬ HaltsBeforeCode (assemble haltBeforeReturn) [] 3 :=
  stepLimitExact_iff (by decide +kernel) (by decide) []

/-- With two instructions permitted the program is over, but reported as stopped by the limit. -/
theorem not_stepLimitExact_haltBeforeReturn :
    (assemble haltBeforeReturn).success = true
      ∧ ¬ StepLimitExact (assemble haltBeforeReturn) [] ⟨2, 256⟩ := by
  refine ⟨by decide +kernel, fun hexact => ?_⟩
  have hreached : ((assemble haltBeforeReturn).execute ⟨2, 256⟩ []).stepLimitReached = true := by
    decide +kernel
  have hmore : ((assemble haltBeforeReturn).execute ⟨3, 256⟩ []).executed = 2 := by
    decide +kernel
  have hthree := hexact.reported.1 hreached
  simp only at hthree
  rw [show (2 : Int) + 1 = 3 from rfl, hmore] at hthree
  exact absurd hthree (by decide)

end TurboBench.Asm
