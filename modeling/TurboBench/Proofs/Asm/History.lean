import Mathlib.Data.List.Chain
import TurboBench.Proofs.Asm.Performing
import TurboBench.Proofs.Asm.StepLimit

/-!
# The instructions of a run, one after the other

`Progress.history` lists the instructions that a run executes, each with the state in which it is
executed. It follows the recursion of `Progress.run`, and what a run leaves can be read off it: the
number of instructions is its length, and the trace is what its entries add, one line each
(`run_eq_history`). Neighbouring entries are linked by one step (`isChain_history`).

What one step preserves therefore holds of all entries (`forall_mem_history`). Here that is used
for `Sound`: no register is lost, and the instruction pointer is a word.
-/

set_option autoImplicit false

namespace TurboBench.Asm

namespace Progress

/-- The instructions of a run, with the states in which they are executed. -/
def history (a : Assembly) (disabled : List Mnemonic) : Nat → Progress → List (Progress × Record)
  | 0, _ => []
  | limit + 1, s =>
    match s.next? a with
    | none => []
    | some r =>
      let (t, halted) := s.step disabled a.symbols r
      (s, r) :: if halted then [] else history a disabled limit t

/-- The line that executing a record adds to the trace. -/
def line (disabled : List Mnemonic) (symbols : SymbolTable) (s : Progress) (r : Record) : String :=
  if r.instruction.mnemonic ∈ disabled then s!"Unknown instruction: {r.source}"
  else
    match r.perform s.machine symbols with
    | .error e => s!"Error at line {r.line}: {e.message r.instruction.mnemonic}"
    | .ok effect => effect.trace

variable {a : Assembly} {disabled : List Mnemonic}

/-! ## One step -/

section Step

variable {symbols : SymbolTable} {s : Progress} {r : Record}

theorem step_of_disabled (h : r.instruction.mnemonic ∈ disabled) :
    s.step disabled symbols r
      = (s.advance s.machine s!"Unknown instruction: {r.source}" r.following, false) := by
  rw [step, if_pos h]

theorem step_of_error {e : Refusal} (h : r.instruction.mnemonic ∉ disabled)
    (hperform : r.perform s.machine symbols = .error e) :
    s.step disabled symbols r
      = (s.advance s.machine s!"Error at line {r.line}: {e.message r.instruction.mnemonic}"
          r.following, false) := by
  rw [step, if_neg h, hperform]

theorem step_of_ok {effect : Effect} (h : r.instruction.mnemonic ∉ disabled)
    (hperform : r.perform s.machine symbols = .ok effect) :
    s.step disabled symbols r
      = (s.advance effect.machine effect.trace (effect.target.getD r.following), effect.halts) := by
  rw [step, if_neg h, hperform]

/-- A record is passed over, because of its handler or because it is refused, or carried out. -/
theorem step_cases (disabled : List Mnemonic) (symbols : SymbolTable) (s : Progress) (r : Record) :
    (∃ line, (r.instruction.mnemonic ∈ disabled ∨ ∃ e, r.perform s.machine symbols = .error e)
        ∧ s.step disabled symbols r = (s.advance s.machine line r.following, false))
      ∨ ∃ effect, r.instruction.mnemonic ∉ disabled ∧ r.perform s.machine symbols = .ok effect
        ∧ s.step disabled symbols r
          = (s.advance effect.machine effect.trace (effect.target.getD r.following),
              effect.halts) := by
  by_cases h : r.instruction.mnemonic ∈ disabled
  · exact Or.inl ⟨_, Or.inl h, step_of_disabled h⟩
  · cases hperform : r.perform s.machine symbols with
    | error e => exact Or.inl ⟨_, Or.inr ⟨e, rfl⟩, step_of_error h hperform⟩
    | ok effect => exact Or.inr ⟨effect, h, rfl, step_of_ok h hperform⟩

/-- A step adds the line of its record to the trace. -/
theorem trace_step (disabled : List Mnemonic) (symbols : SymbolTable) (s : Progress) (r : Record) :
    (s.step disabled symbols r).1.trace = s.trace.push (s.line disabled symbols r) := by
  unfold step line
  by_cases h : r.instruction.mnemonic ∈ disabled
  · rw [if_pos h, if_pos h]
    rfl
  · rw [if_neg h, if_neg h]
    cases r.perform s.machine symbols with
    | error e => rfl
    | ok effect => rfl

theorem next?_advance (a : Assembly) (s : Progress) (m : Machine) (trace : String) (ip : Nat) :
    (s.advance m trace ip).next? a = a.recordAt? (ip % 0x10000 : Nat) := by
  have hip : (s.advance m trace ip).machine.get "ip" = .ok ((ip % 0x10000 : Nat) : Int) :=
    Machine.get_ip_setWhole m _
  rw [next?, hip]

end Step

/-! ## The list -/

theorem history_of_next_none {s : Progress} (h : s.next? a = none) (limit : Nat) :
    history a disabled limit s = [] := by
  cases limit with
  | zero => rfl
  | succ limit => rw [history, h]

theorem history_of_next_some {s : Progress} {r : Record} (h : s.next? a = some r) (limit : Nat) :
    history a disabled (limit + 1) s
      = (s, r) :: if (s.step disabled a.symbols r).2 then []
          else history a disabled limit (s.step disabled a.symbols r).1 := by
  rw [history, h]

/-- The first entry is the state that the run begins with. -/
theorem head_history {limit : Nat} {s t : Progress} {r : Record}
    (h : (history a disabled limit s).head? = some (t, r)) : t = s ∧ s.next? a = some r := by
  cases limit with
  | zero => exact absurd h (by simp [history])
  | succ limit =>
    cases hnext : s.next? a with
    | none =>
      rw [history_of_next_none hnext] at h
      exact absurd h (by simp)
    | some q =>
      rw [history_of_next_some hnext, List.head?_cons] at h
      obtain ⟨rfl, rfl⟩ := Prod.mk.inj (Option.some.inj h)
      exact ⟨rfl, rfl⟩

/-- Each entry follows from the one before by a step that does not halt the program. -/
theorem isChain_history (limit : Nat) (s : Progress) :
    (history a disabled limit s).IsChain fun x y =>
      x.1.step disabled a.symbols x.2 = (y.1, false) ∧ y.1.next? a = some y.2 := by
  induction limit generalizing s with
  | zero => exact List.IsChain.nil
  | succ limit ih =>
    cases hnext : s.next? a with
    | none =>
      rw [history_of_next_none hnext]
      exact List.IsChain.nil
    | some r =>
      rw [history_of_next_some hnext]
      cases hhalts : (s.step disabled a.symbols r).2 with
      | true => exact List.IsChain.singleton _
      | false =>
        refine List.isChain_cons.2 ⟨?_, ih _⟩
        rintro ⟨t, q⟩ hhead
        obtain ⟨rfl, hnext'⟩ := head_history hhead
        exact ⟨Prod.ext rfl hhalts, hnext'⟩

/-- What holds at the start and is preserved by every step holds in front of every instruction,
and there the instruction is the one that the state asks for. -/
theorem forall_mem_history {P : Progress → Prop} {s : Progress} (hs : P s)
    (hstep : ∀ t r, P t → t.next? a = some r → P (t.step disabled a.symbols r).1) (limit : Nat) :
    ∀ x ∈ history a disabled limit s, P x.1 ∧ x.1.next? a = some x.2 := by
  -- By induction on the limit, with the invariant for whatever state comes first.
  induction limit generalizing s with
  | zero =>
    intro x hx
    exact absurd hx (by simp [history])
  | succ limit ih =>
    intro x hx
    cases hnext : s.next? a with
    | none =>
      rw [history_of_next_none hnext] at hx
      exact absurd hx (by simp)
    | some r =>
      rw [history_of_next_some hnext] at hx
      rcases List.mem_cons.1 hx with rfl | hx
      · exact ⟨hs, hnext⟩
      · cases hhalts : (s.step disabled a.symbols r).2 with
        | true =>
          rw [hhalts] at hx
          exact absurd hx (by simp)
        | false =>
          rw [hhalts] at hx
          exact ih (hstep s r hs hnext) x hx

/-- What a run leaves, read off its instructions. -/
theorem run_eq_history (a : Assembly) (disabled : List Mnemonic) (limit : Nat) (s : Progress) :
    (run a disabled limit s).executed = s.executed + (history a disabled limit s).length
      ∧ (run a disabled limit s).trace.toList
        = s.trace.toList
          ++ (history a disabled limit s).map fun x => x.1.line disabled a.symbols x.2 := by
  -- By induction on the limit, along the recursion of both functions.
  induction limit generalizing s with
  | zero => exact ⟨rfl, by simp [run, history]⟩
  | succ limit ih =>
    cases hnext : s.next? a with
    | none =>
      rw [run_of_next_none hnext, history_of_next_none hnext]
      exact ⟨rfl, by simp⟩
    | some r =>
      have hcount := (executed_step disabled s a.symbols r).1
      have htrace := trace_step disabled a.symbols s r
      rw [run_of_next_some hnext, history_of_next_some hnext]
      cases hhalts : (s.step disabled a.symbols r).2 with
      | true => exact ⟨hcount, by simp [htrace]⟩
      | false =>
        obtain ⟨ihcount, ihtrace⟩ := ih (s.step disabled a.symbols r).1
        constructor
        · simp only [Bool.false_eq_true, if_false, List.length_cons, ihcount, hcount]
          omega
        · simp [ihtrace, htrace]

/-! ## States of a run -/

/-- The machine has all registers, and the instruction pointer is a word. -/
structure Sound (s : Progress) : Prop where
  complete : s.machine.Complete
  pointer : ∃ ip : Nat, ip < 0x10000 ∧ s.machine.get "ip" = .ok (ip : Int)

theorem sound_start : start.Sound := by
  refine ⟨Machine.complete_fresh, loadAddress, by decide, ?_⟩
  rw [Machine.get_ip]
  rfl

theorem sound_advance {m : Machine} (h : m.Complete) (s : Progress) (trace : String) (ip : Nat) :
    (s.advance m trace ip).Sound :=
  ⟨h.setWhole "ip" _, ip % 0x10000, by omega, Machine.get_ip_setWhole m _⟩

/-- Every step keeps the machine complete and the pointer where it has been led. -/
theorem Sound.step {s : Progress} (h : s.Sound) (disabled : List Mnemonic) (symbols : SymbolTable)
    (r : Record) : (s.step disabled symbols r).1.Sound := by
  rcases step_cases disabled symbols s r with ⟨line, -, hstep⟩ | ⟨effect, -, hperform, hstep⟩
  · rw [hstep]
    exact sound_advance h.complete s line r.following
  · rw [hstep]
    have hfollows := follows_perform r s.machine symbols effect hperform
    exact sound_advance (hfollows.complete h.complete) s effect.trace _

theorem sound_of_mem_history {limit : Nat} {x : Progress × Record}
    (h : x ∈ history a disabled limit .start) : x.1.Sound ∧ x.1.next? a = some x.2 :=
  forall_mem_history sound_start (fun _ r ht _ => ht.step disabled a.symbols r) limit x h

end Progress

end TurboBench.Asm
