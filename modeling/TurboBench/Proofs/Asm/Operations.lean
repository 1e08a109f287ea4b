import TurboBench.Proofs.Asm.Registers

/-!
# Machines under any operations

A program changes the machine by the operations of the machine alone. So what every operation
preserves holds of every machine that there is: for any sequence of operations from a fresh machine
(`exists_applyAll`), and for the machines of a run, because an instruction is a short sequence of
operations (`changes_perform`) and control is transferred by one more.

What is preserved is `Machine.WellFormed`. What that comes to for somebody who reads and sets
registers and flags is collected in `Machine.InOrder`. Operations may be given any integer, negative
ones and ones beyond the size of the machine, and names in any letter case. They are not given names
that the machine does not have: setting a register that is not there would add it.
-/

set_option autoImplicit false

namespace TurboBench.Asm

namespace Machine

/-! ## Operations -/

namespace Operation

/-- Whether an operation is about names that the machine has. -/
def Known : Operation → Prop
  | get name | set name _ | width name => IsRegister name
  | getFlag flag | setFlag flag _ => flag ∈ flagNames
  | reset | readWord _ | writeWord _ _ | push _ | pop | dump _ => True

instance (op : Operation) : Decidable op.Known := by
  cases op <;> unfold Known <;> infer_instance

end Operation

section Operations

variable {m : Machine}

/-- A known operation succeeds on a well-formed machine, and leaves one. -/
theorem WellFormed.apply (h : m.WellFormed) {op : Operation} (hop : op.Known) :
    ∃ after, op.apply m = .ok after ∧ after.WellFormed := by
  cases op with
  | reset => exact ⟨fresh, rfl, wellFormed_fresh⟩
  | get name =>
    obtain ⟨v, hv, -⟩ := h.get hop
    exact ⟨m, by rw [Operation.apply, hv]; rfl, h⟩
  | set name v =>
    obtain ⟨after, hset, hafter, -⟩ := h.set hop v
    exact ⟨after, hset, hafter⟩
  | getFlag flag =>
    obtain ⟨k, -, hk⟩ := weight_of_mem_flagNames hop
    obtain ⟨v, hv⟩ := h.complete.getFlag_eq flag hk
    exact ⟨m, by rw [Operation.apply, hv]; rfl, h⟩
  | setFlag flag on =>
    obtain ⟨after, hset, hafter, -⟩ := h.setFlag hop on
    exact ⟨after, hset, hafter⟩
  | writeWord a v => exact ⟨_, rfl, h.names, h.words⟩
  | push v =>
    obtain ⟨sp, hsp, -⟩ := h.whole (show "sp" ∈ registerNames by decide)
    exact ⟨_, by rw [Operation.apply, Machine.push, hsp]; rfl,
      h.put (by decide) ⟨by omega, by omega⟩ _⟩
  | pop =>
    obtain ⟨sp, hsp, -⟩ := h.whole (show "sp" ∈ registerNames by decide)
    exact ⟨_, by rw [Operation.apply, Machine.pop, hsp]; rfl,
      h.put (by decide) ⟨by omega, by omega⟩ _⟩
  | width _ | readWord _ | dump _ => exact ⟨m, rfl, h⟩

/-- Any known operations can be carried out on a well-formed machine, and leave one. -/
theorem WellFormed.exists_applyAll (h : m.WellFormed) {ops : List Operation}
    (hops : ∀ op ∈ ops, op.Known) : ∃ after, applyAll ops m = .ok after ∧ after.WellFormed := by
  induction ops generalizing m with
  | nil => exact ⟨m, rfl, h⟩
  | cons op ops ih =>
    obtain ⟨next, hnext, hwell⟩ := h.apply (hops op List.mem_cons_self)
    obtain ⟨after, hafter, hlast⟩ := ih hwell fun o ho => hops o (List.mem_cons_of_mem _ ho)
    refine ⟨after, ?_, hlast⟩
    rw [applyAll, List.foldlM_cons, hnext]
    exact hafter

theorem WellFormed.of_applyAll (h : m.WellFormed) {ops : List Operation}
    (hops : ∀ op ∈ ops, op.Known) {after : Machine} (hafter : applyAll ops m = .ok after) :
    after.WellFormed := by
  obtain ⟨last, hlast, hwell⟩ := h.exists_applyAll hops
  rw [hlast] at hafter
  rwa [← Except.ok.inj hafter]

end Operations

end Machine

/-! ## The operations of an instruction -/

open Machine (Operation applyAll setFlags)

section Perform

variable {m : Machine}

theorem Register.isRegister (r : Register) : Machine.IsRegister r.name := by
  cases r <;> decide

/-- Every operand has a value on a machine with all of its cells. -/
theorem Machine.WellFormed.value (h : m.WellFormed) (symbols : SymbolTable) (op : Operand) :
    ∃ v, op.value m symbols = .ok v := by
  cases op with
  | register r =>
    obtain ⟨v, hv, -⟩ := h.get r.isRegister
    exact ⟨v, by rw [Operand.value, hv, onMachine]⟩
  | immediate n radix => exact ⟨n, rfl⟩
  | label name => exact ⟨_, rfl⟩
  | unsupported text =>
    unfold Operand.value
    simp only
    split
    · exact ⟨_, rfl⟩
    · split <;> exact ⟨_, rfl⟩

/-- Instructions change the machine by known operations only. -/
theorem Instruction.Changes.known {i : Instruction} {ops : List Operation} (h : i.Changes ops) :
    ∀ op ∈ ops, op.Known := by
  cases h with
  | moves => simp [Operation.Known, Register.isRegister]
  | computes => simp [Operation.Known, Register.isRegister, setFlags, Machine.flagNames]
  | compares => simp [Operation.Known, setFlags, Machine.flagNames]
  | nothing => simp
  | puts => simp [Operation.Known]
  | returns => simp [Operation.Known]
  | takes => simp [Operation.Known, Register.isRegister]

end Perform

/-! ## The machines of a run -/

namespace Progress

variable {a : Assembly} {disabled : List Mnemonic}

/-- What every step preserves a run preserves. -/
theorem run_preserves {P : Progress → Prop}
    (hstep : ∀ s r, P s → s.next? a = some r → P (s.step disabled a.symbols r).1) (limit : Nat)
    {s : Progress} (hs : P s) : P (run a disabled limit s) := by
  induction limit generalizing s with
  | zero => exact hs
  | succ limit ih =>
    cases hnext : s.next? a with
    | none =>
      rw [run_of_next_none hnext]
      exact hs
    | some r =>
      have hafter := hstep s r hs hnext
      rw [run_of_next_some hnext]
      split
      · exact hafter
      · exact ih hafter

/-- A machine that operations lead to from a fresh one. -/
def Operated (s : Progress) : Prop :=
  ∃ ops : List Operation, (∀ op ∈ ops, op.Known) ∧ applyAll ops .fresh = .ok s.machine

theorem operated_start : start.Operated :=
  ⟨[], fun _ h => absurd h List.not_mem_nil, rfl⟩

theorem Operated.wellFormed {s : Progress} (h : s.Operated) : s.machine.WellFormed := by
  obtain ⟨ops, hops, hm⟩ := h
  exact Machine.wellFormed_fresh.of_applyAll hops hm

/-- Control is transferred by setting the instruction pointer. -/
theorem Operated.advance {s : Progress} (h : s.Operated) {ops : List Operation}
    (hops : ∀ op ∈ ops, op.Known) {m : Machine} (hm : applyAll ops s.machine = .ok m)
    (trace : String) (ip : Nat) : (s.advance m trace ip).Operated := by
  obtain ⟨before, hbefore, hs⟩ := h
  have hset : (Operation.set "ip" ip).apply m = .ok (s.advance m trace ip).machine := by
    have hfold : Machine.foldRegister "ip" = "ip" := by decide
    have hhalf : byteHalf? "ip" = none := by decide
    rw [Operation.apply, Machine.set, hfold, hhalf]
    rfl
  refine ⟨before ++ (ops ++ [.set "ip" ip]), ?_, ?_⟩
  · intro op hop
    rcases List.mem_append.1 hop with hop | hop
    · exact hbefore op hop
    rcases List.mem_append.1 hop with hop | hop
    · exact hops op hop
    · obtain rfl := List.mem_singleton.1 hop
      show Machine.IsRegister "ip"
      decide
  · rw [Machine.applyAll_append hs, Machine.applyAll_append hm]
    exact (Machine.applyAll_singleton _ _).trans hset

/-- A step of a run is a sequence of operations. -/
theorem Operated.step {s : Progress} (h : s.Operated) (r : Record) :
    (s.step disabled a.symbols r).1.Operated := by
  rcases step_cases disabled a.symbols s r with ⟨line, -, hstep⟩ | ⟨effect, -, hperform, hstep⟩
  · rw [hstep]
    exact h.advance (fun _ hop => absurd hop List.not_mem_nil) rfl line _
  · rw [hstep]
    obtain ⟨ops, hchanges, hops⟩ := changes_perform r s.machine a.symbols effect hperform
    exact h.advance hchanges.known hops effect.trace _

theorem operated_run (a : Assembly) (disabled : List Mnemonic) (limit : Nat) :
    (run a disabled limit .start).Operated :=
  run_preserves (P := Operated) (fun _ r h _ => h.step r) limit operated_start

theorem operated_of_mem_history {limit : Nat} {x : Progress × Record}
    (h : x ∈ history a disabled limit .start) : x.1.Operated :=
  (forall_mem_history operated_start (fun _ r h _ => h.step r) limit x h).1

end Progress

/-! ## Machines in order -/

namespace Machine

/-- What can be relied on of a machine: it has the fourteen registers, each with a word, and 64 KiB
of memory; the words with halves are made of them; any register can be set to any integer, and any
flag set and cleared, without touching others. -/
structure InOrder (m : Machine) : Prop where
  names : (m.registers.map Prod.fst).Perm registerNames
  words : ∀ name v, (name, v) ∈ m.registers → 0 ≤ v ∧ v ≤ 0xFFFF
  bytes : m.memory.bytes.toList.length = 0x10000
  halved : m.Halved
  set : ∀ name v, IsRegister name → ∃ after, m.set name v = .ok after ∧ SetsRegister m after name v
  setFlag : ∀ flag on, flag ∈ flagNames →
    ∃ after, m.setFlag flag on = .ok after ∧ SetsFlag m after flag on

/-- A well-formed machine has every register, each with a word for its value, and bytes in its
memory. -/
theorem WellFormed.inOrder {m : Machine} (h : m.WellFormed) : m.InOrder where
  names := h.names
  words := h.words
  bytes := by rw [Vector.length_toList, memorySize]
  halved := h.halved
  set name v hname := by
    obtain ⟨after, hset, -, hafter⟩ := h.set hname v
    exact ⟨after, hset, hafter⟩
  setFlag flag on hflag := by
    obtain ⟨after, hset, -, hafter⟩ := h.setFlag hflag on
    exact ⟨after, hset, hafter⟩

/-- Every machine is in order that operations lead to from a fresh one, and so is the machine
before each instruction of a run and at its end. -/
theorem inOrder_of_operations :
    (∀ ops : List Operation, (∀ op ∈ ops, op.Known) →
        ∃ m, applyAll ops fresh = .ok m ∧ m.InOrder)
      ∧ ∀ (a : Assembly) (disabled : List Mnemonic) (limit : Nat),
        (∀ x ∈ Progress.history a disabled limit .start, x.1.machine.InOrder)
          ∧ (Progress.run a disabled limit .start).machine.InOrder := by
  refine ⟨fun ops h => ?_, fun a disabled limit => ⟨fun x hx => ?_, ?_⟩⟩
  · obtain ⟨m, hm, hwell⟩ := wellFormed_fresh.exists_applyAll h
    exact ⟨m, hm, hwell.inOrder⟩
  · exact (Progress.operated_of_mem_history hx).wellFormed.inOrder
  · exact (Progress.operated_run a disabled limit).wellFormed.inOrder

/-- Negative numbers and numbers of more than sixteen bits, names in capitals, and the flags as a
register. -/
theorem inOrder_after_negatives :
    ∃ m, applyAll [.set "AX" (-1), .set "Bh" 0x12345, .setFlag "CF" true, .set "flags" (-2),
      .push (-70000), .writeWord (-1) (-1), .set "sp" 1, .pop, .get "DL"] fresh = .ok m
      ∧ m.InOrder :=
  inOrder_of_operations.1 _ (by decide)

end Machine

end TurboBench.Asm
