import TurboBench.Asm.Execution

/-!
# What one instruction does

An instruction either is refused or leaves an effect. This file says once what the effects can be,
so that statements about runs need not look at the twelve instructions again: by which operations
the machine is changed (`Instruction.Changes`), where control is transferred to (`Leads`), and that
only an interrupt halts the program (`arises_perform`). What every operation preserves, an
instruction preserves as well; that no register is lost (`Machine.Complete`) is the first example.
On a machine with all registers a branch is refused only for its operands.

All of this is read off the instruction along its sequence of accesses, with `Yields` in the place
of a postcondition.
-/

set_option autoImplicit false

namespace TurboBench.Asm

/-! ## Postconditions -/

section Yields

variable {ε α β : Type} {x : Except ε α} {f : α → Except ε β} {P : α → Prop} {Q : β → Prop}

/-- Whatever result there is satisfies `P`. -/
def Yields (x : Except ε α) (P : α → Prop) : Prop :=
  ∀ a, x = .ok a → P a

theorem yields_ok {a : α} (h : P a) : Yields (.ok a : Except ε α) P := by
  intro b hb
  rw [← Except.ok.inj hb]
  exact h

theorem yields_pure {a : α} (h : P a) : Yields (pure a : Except ε α) P :=
  yields_ok h

theorem yields_error {e : ε} : Yields (.error e : Except ε α) P := by
  intro a ha
  exact absurd ha (by simp)

/-- What the first part yields is what the second part may rely on. -/
theorem Yields.bind (hx : Yields x P) (hf : ∀ a, P a → Yields (f a) Q) : Yields (x >>= f) Q := by
  intro b hb
  cases hxa : x with
  | error e =>
    rw [hxa] at hb
    exact absurd hb (by simp [Bind.bind, Except.bind])
  | ok a =>
    rw [hxa] at hb
    exact hf a (hx a hxa) b hb

/-- A part that the postcondition does not depend on. -/
theorem Yields.after (hf : ∀ a, Yields (f a) Q) : Yields (x >>= f) Q :=
  Yields.bind (P := fun _ => True) (fun _ _ => True.intro) fun a _ => hf a

/-- A result that is only made into another. -/
theorem Yields.map {f : α → β} (h : Yields x fun a => Q (f a)) : Yields (f <$> x) Q := by
  intro b hb
  cases hxa : x with
  | error e =>
    rw [hxa] at hb
    exact absurd hb (by simp [Functor.map, Except.map])
  | ok a =>
    rw [hxa] at hb
    rw [← Except.ok.inj hb]
    exact h a hxa

theorem onMachine_eq_ok {x : Except UnknownName α} {a : α} (h : onMachine x = .ok a) :
    x = .ok a := by
  cases x with
  | ok b => rw [Except.ok.inj h]
  | error e => exact absurd h (by simp [onMachine])

end Yields

/-! ## Machines with all registers -/

namespace Machine

variable {m : Machine}

/-- Every register is there. -/
def Complete (m : Machine) : Prop :=
  ∀ name ∈ registerNames, (m.registers.lookup name).isSome = true

theorem complete_fresh : fresh.Complete := by
  unfold Complete
  decide

/-- Setting a register loses none. -/
theorem Complete.set_registers (h : m.Complete) (name : String) (v : Int) (memory : Memory) :
    Complete ⟨m.registers.set name v, memory⟩ := by
  intro other hother
  by_cases ho : other = name
  · rw [ho, RegisterFile.lookup_set_self]
    rfl
  · rw [RegisterFile.lookup_set_of_ne _ _ ho]
    exact h other hother

theorem Complete.setWhole (h : m.Complete) (name : String) (v : Int) :
    (m.setWhole name v).Complete :=
  h.set_registers name v m.memory

/-- A complete machine stays complete when a register is set by name. -/
theorem Complete.set (h : m.Complete) (name : String) (v : Int) :
    Yields (m.set name v) Complete := by
  unfold Machine.set
  simp only
  split
  · apply Yields.after
    intro old
    exact yields_pure (h.setWhole _ _)
  · exact yields_ok (h.setWhole _ _)

/-- A complete machine stays complete when a flag is set. -/
theorem Complete.setFlag (h : m.Complete) (flag : String) (on : Bool) :
    Yields (m.setFlag flag on) Complete := by
  unfold Machine.setFlag
  split
  · exact yields_error
  · apply Yields.after
    intro flags
    simp only
    split
    · exact yields_pure (h.setWhole _ _)
    · exact yields_pure (h.setWhole _ _)

theorem Complete.push (h : m.Complete) (v : Int) : Yields (m.push v) Complete := by
  apply Yields.after
  intro sp
  exact yields_pure (h.set_registers _ _ _)

theorem Complete.pop (h : m.Complete) : Yields m.pop fun p => p.2.Complete := by
  apply Yields.after
  intro sp
  exact yields_pure (h.setWhole _ _)

/-! Nothing that reads or writes a register by its own name is refused. -/

theorem Complete.whole (h : m.Complete) (name : String) (hname : name ∈ registerNames) :
    ∃ v, m.whole name = .ok v := by
  obtain ⟨v, hv⟩ := Option.isSome_iff_exists.1 (h name hname)
  refine ⟨v, ?_⟩
  rw [Machine.whole, hv]

theorem Complete.push_eq (h : m.Complete) (v : Int) : ∃ after, m.push v = .ok after := by
  obtain ⟨sp, hsp⟩ := h.whole "sp" (by decide)
  rw [Machine.push, hsp]
  exact ⟨_, rfl⟩

theorem Complete.pop_eq (h : m.Complete) : ∃ word after, m.pop = .ok (word, after) := by
  obtain ⟨sp, hsp⟩ := h.whole "sp" (by decide)
  rw [Machine.pop, hsp]
  exact ⟨_, _, rfl⟩

theorem Complete.getFlag_eq (h : m.Complete) (flag : String) {weight : Nat}
    (hflag : flagWeight? flag = some weight) : ∃ v, m.getFlag flag = .ok v := by
  obtain ⟨flags, hflags⟩ := h.whole "flags" (by decide)
  rw [getFlag, hflags, hflag]
  exact ⟨_, rfl⟩

/-- What is taken off the stack is a word. -/
theorem pop_lt {word : Nat} {after : Machine} (h : m.pop = .ok (word, after)) : word < 0x10000 := by
  unfold Machine.pop at h
  cases hsp : m.whole "sp" with
  | error e =>
    rw [hsp] at h
    exact absurd h (by simp [Bind.bind, Except.bind])
  | ok sp =>
    rw [hsp] at h
    obtain ⟨rfl, -⟩ := Prod.mk.inj (Except.ok.inj h)
    exact m.memory.readWord_lt sp

/-! The instruction pointer. -/

theorem get_eq_whole {name : String} (h : byteHalf? (foldRegister name) = none) (m : Machine) :
    m.get name = m.whole (foldRegister name) := by
  unfold get
  simp only [h]

theorem get_ip (m : Machine) : m.get "ip" = m.whole "ip" :=
  get_eq_whole (by decide) m

theorem get_ip_setWhole (m : Machine) (v : Int) : (m.setWhole "ip" v).get "ip" = .ok v := by
  rw [get_ip, whole, setWhole, RegisterFile.lookup_set_self]

/-! ## Operations -/

/-- The operations of a machine. -/
inductive Operation where
  | reset
  | get (name : String)
  | set (name : String) (v : Int)
  | width (name : String)
  | getFlag (flag : String)
  | setFlag (flag : String) (on : Bool)
  | readWord (a : Int)
  | writeWord (a v : Int)
  | push (v : Int)
  | pop
  | dump (n : Int)
  deriving DecidableEq, Repr

/-- The machine after an operation. Operations that only read leave it as it is. -/
def Operation.apply (m : Machine) : Operation → Except UnknownName Machine
  | reset => .ok fresh
  | get name => (fun _ => m) <$> m.get name
  | set name v => m.set name v
  | getFlag flag => (fun _ => m) <$> m.getFlag flag
  | setFlag flag on => m.setFlag flag on
  | writeWord a v => .ok ⟨m.registers, m.memory.writeWord a v⟩
  | push v => m.push v
  | pop => Prod.snd <$> m.pop
  | width _ | readWord _ | dump _ => .ok m

/-- The machine after operations, one after the other. -/
def applyAll (ops : List Operation) (m : Machine) : Except UnknownName Machine :=
  ops.foldlM Operation.apply m

theorem applyAll_append {ops : List Operation} {after : Machine}
    (h : applyAll ops m = .ok after) (last : List Operation) :
    applyAll (ops ++ last) m = applyAll last after := by
  rw [applyAll, List.foldlM_append, ← applyAll, h]
  rfl

/-- A sequence of one operation is that operation. -/
theorem applyAll_singleton (op : Operation) (m : Machine) : applyAll [op] m = op.apply m := by
  rw [applyAll, List.foldlM_cons]
  cases op.apply m with
  | ok after => rfl
  | error e => rfl

/-- What each of some operations preserves they preserve together. -/
theorem yields_applyAll {P : Machine → Prop} {ops : List Operation}
    (hops : ∀ op ∈ ops, ∀ n, P n → Yields (op.apply n) P) (h : P m) :
    Yields (applyAll ops m) P := by
  induction ops generalizing m with
  | nil => exact yields_pure h
  | cons op ops ih =>
    refine Yields.bind (hops op List.mem_cons_self m h) fun next hnext => ?_
    exact ih (fun o ho => hops o (List.mem_cons_of_mem _ ho)) hnext

theorem yields_append {P Q : Machine → Prop} {ops last : List Operation}
    (h : Yields (applyAll ops m) P) (hlast : ∀ n, P n → Yields (applyAll last n) Q) :
    Yields (applyAll (ops ++ last) m) Q := by
  rw [applyAll, List.foldlM_append]
  exact h.bind hlast

/-- No operation loses a register. -/
theorem Complete.apply (h : m.Complete) (op : Operation) : Yields (op.apply m) Complete := by
  cases op with
  | reset => exact yields_ok complete_fresh
  | get name | getFlag name => exact Yields.map fun _ _ => h
  | set name v => exact h.set name v
  | setFlag flag on => exact h.setFlag flag on
  | writeWord a v => exact yields_ok h
  | push v => exact h.push v
  | pop => exact h.pop.map
  | width _ | readWord _ | dump _ => exact yields_ok h

theorem Complete.applyAll (h : m.Complete) (ops : List Operation) :
    Yields (applyAll ops m) Complete :=
  yields_applyAll (fun op _ _ hn => hn.apply op) h

/-- Setting the four flags, in the order in which an operation sets them. -/
def setFlags (zero sign carry overflow : Bool) : List Operation :=
  [.setFlag "ZF" zero, .setFlag "SF" sign, .setFlag "CF" carry, .setFlag "OF" overflow]

theorem applyAll_setFlags (result : ArithmeticResult) (m : Machine) :
    applyAll (setFlags result.zero result.sign result.carry result.overflow) m
      = result.setFlags m := by
  simp [Machine.applyAll, setFlags, Operation.apply, ArithmeticResult.setFlags]

end Machine

open Machine (Operation applyAll setFlags)

/-- The operations by which an instruction changes the machine. -/
inductive Instruction.Changes (i : Instruction) : List Operation → Prop where
  | moves {register : Register} {v : Int} (hm : i.mnemonic = .mov)
      (hhead : i.operands.head? = some (.register register)) : Changes i [.set register.name v]
  | computes {register : Register} {v : Int} {zero sign carry overflow : Bool}
      (hm : i.mnemonic ∈ [.add, .sub]) (hhead : i.operands.head? = some (.register register)) :
      Changes i (setFlags zero sign carry overflow ++ [.set register.name v])
  | compares {zero sign carry overflow : Bool} (hm : i.mnemonic = .cmp) :
      Changes i (setFlags zero sign carry overflow)
  | nothing (hm : i.mnemonic ∈ [.jmp, .je, .jne, .int]) : Changes i []
  | puts {v : Int} (hm : i.mnemonic ∈ [.push, .call]) : Changes i [.push v]
  | returns (hm : i.mnemonic = .ret) : Changes i [.pop]
  | takes {register : Register} {v : Int} (hm : i.mnemonic = .pop)
      (hhead : i.operands.head? = some (.register register)) :
      Changes i [.pop, .set register.name v]

/-! ## Where an instruction leads -/

/-- Whether a branch with the mnemonic is taken on a machine. -/
def Machine.Takes (m : Machine) : Mnemonic → Prop
  | .jmp | .call => True
  | .je => m.getFlag "ZF" = .ok 1
  | .jne => m.getFlag "ZF" = .ok 0
  | _ => False

theorem isBranch_of_takes {m : Machine} {mnemonic : Mnemonic} (h : m.Takes mnemonic) :
    mnemonic.isBranch = true := by
  cases mnemonic with
  | jmp | je | jne | call => rfl
  | _ => exact absurd h id

/-- Whether a record asks the operating system to end the program. -/
def Record.Terminates (r : Record) (m : Machine) : Prop :=
  r.instruction.mnemonic = .int ∧ r.instruction.vector?.getD (r.bytes.getD 1 0) = dosInterrupt
    ∧ m.get "ah" = .ok terminateService

/-- Where control can be transferred to by an instruction that is not refused. -/
inductive Leads (r : Record) (m : Machine) (symbols : SymbolTable) : Option Nat → Prop where
  | onward (hbranch : r.instruction.mnemonic.isBranch = false)
      (hret : r.instruction.mnemonic ≠ .ret) : Leads r m symbols none
  | taken {target : Nat} (htakes : m.Takes r.instruction.mnemonic)
      (htarget : branchTarget symbols r.instruction.operands = .ok target) :
      Leads r m symbols (some target)
  | notTaken {target : Nat} (hbranch : r.instruction.mnemonic.isBranch = true)
      (htakes : ¬ m.Takes r.instruction.mnemonic)
      (htarget : branchTarget symbols r.instruction.operands = .ok target) : Leads r m symbols none
  | back {word : Nat} {after : Machine} (hret : r.instruction.mnemonic = .ret)
      (hpop : m.pop = .ok (word, after)) : Leads r m symbols (some word)

/-- What carrying out a record comes to: operations that change the machine, a place where control
is transferred to, and perhaps the end of the program. -/
structure Effect.Arises (e : Effect) (r : Record) (m : Machine) (symbols : SymbolTable) : Prop where
  changes : ∃ ops, r.instruction.Changes ops ∧ applyAll ops m = .ok e.machine
  leads : Leads r m symbols e.target
  halts : e.halts = true ↔ r.Terminates m

/-- What is true of the effect of an instruction. -/
structure Effect.Follows (e : Effect) (r : Record) (m : Machine) (symbols : SymbolTable) :
    Prop where
  complete : m.Complete → e.machine.Complete
  leads : Leads r m symbols e.target
  halts : e.halts = true ↔ r.Terminates m

/-! Operands that are accepted. -/

/-- A destination is a register. -/
theorem register_of_destination {op : Operand} {register : Register}
    (h : op.destination = .ok register) : op = .register register := by
  unfold Operand.destination at h
  split at h
  · rw [Except.ok.inj h]
  · exact absurd h (by simp)

/-- The first of two operands is the head of the list. -/
theorem head_of_twoOperands {operands : List Operand} {first second : Operand}
    (h : twoOperands operands = .ok (first, second)) : operands.head? = some first := by
  unfold twoOperands at h
  split at h
  · rw [List.head?_cons, (Prod.mk.inj (Except.ok.inj h)).1]
  · exact absurd h (by simp)

/-- A single operand is the head of the list. -/
theorem head_of_oneOperand {operands : List Operand} {op : Operand}
    (h : oneOperand operands = .ok op) : operands.head? = some op := by
  unfold oneOperand at h
  split at h
  · rw [List.head?_cons, Except.ok.inj h]
  · exact absurd h (by simp)

section Perform

variable {r : Record} {m after : Machine} {symbols : SymbolTable} {ops : List Operation}

/-- Arithmetic sets the four flags, and its register is the first operand. -/
theorem changes_arithmetic (op : Arithmetic) (operands : List Operand) :
    Yields (arithmetic op m symbols operands) fun p =>
      operands.head? = some (.register p.1)
        ∧ ∃ zero sign carry overflow,
          applyAll (setFlags zero sign carry overflow) m = .ok p.2.2 := by
  refine Yields.bind (fun p hp => hp) ?_
  rintro ⟨first, second⟩ hoperands
  refine Yields.bind (fun register hregister => hregister) ?_
  intro register hregister
  apply Yields.after
  intro a
  apply Yields.after
  intro b
  refine Yields.bind (fun after hafter => onMachine_eq_ok hafter) ?_
  intro after hafter
  have hhead : operands.head? = some (.register register) := by
    rw [head_of_twoOperands hoperands, register_of_destination hregister]
  exact yields_pure ⟨hhead, _, _, _, _, (Machine.applyAll_setFlags _ m).trans hafter⟩

/-! The effects, by where they lead. -/

/-- Nothing but an interrupt ends the program. -/
theorem terminates_iff_false (h : r.instruction.mnemonic ≠ .int) :
    false = true ↔ r.Terminates m := by
  constructor
  · intro hfalse
    exact absurd hfalse (by decide)
  · rintro ⟨hm, -⟩
    exact absurd hm h

theorem plain_of_mem {mnemonic : Mnemonic}
    (h : mnemonic ∈ [.mov, .add, .sub, .cmp, .push, .pop]) :
    mnemonic.isBranch = false ∧ mnemonic ≠ .ret ∧ mnemonic ≠ .int := by
  revert mnemonic
  decide

theorem ne_int_of_isBranch (h : r.instruction.mnemonic.isBranch = true) :
    r.instruction.mnemonic ≠ .int := by
  intro hm
  rw [hm] at h
  exact absurd h (by decide)

theorem arises_done (hchanges : r.instruction.Changes ops) (hops : applyAll ops m = .ok after)
    (hplain : r.instruction.mnemonic ∈ [.mov, .add, .sub, .cmp, .push, .pop]) :
    (r.done after).Arises r m symbols := by
  obtain ⟨hbranch, hret, hint⟩ := plain_of_mem hplain
  exact ⟨⟨ops, hchanges, hops⟩, .onward hbranch hret, terminates_iff_false hint⟩

theorem arises_taken {target : Nat} (trace : String) (hchanges : r.instruction.Changes ops)
    (hops : applyAll ops m = .ok after) (hbranch : r.instruction.mnemonic.isBranch = true)
    (htakes : m.Takes r.instruction.mnemonic)
    (htarget : branchTarget symbols r.instruction.operands = .ok target) :
    (Effect.mk after trace (some target) false).Arises r m symbols :=
  ⟨⟨ops, hchanges, hops⟩, .taken htakes htarget, terminates_iff_false (ne_int_of_isBranch hbranch)⟩

/-- A conditional branch goes to its target if it is taken, and on if not. -/
theorem arises_branchIf {taken : Bool} {target : Nat}
    (hmem : r.instruction.mnemonic ∈ [.je, .jne])
    (htakes : taken = true ↔ m.Takes r.instruction.mnemonic)
    (htarget : branchTarget symbols r.instruction.operands = .ok target) :
    (r.branchIf m taken target).Arises r m symbols := by
  have hkind : ∀ mnemonic : Mnemonic, mnemonic ∈ [.je, .jne] →
      mnemonic ∈ [.jmp, .je, .jne, .int] ∧ mnemonic.isBranch = true := by
    decide
  obtain ⟨hmem', hbranch⟩ := hkind _ hmem
  have hnothing : r.instruction.Changes [] := .nothing hmem'
  unfold Record.branchIf
  by_cases ht : taken = true
  · rw [if_pos ht]
    exact arises_taken _ hnothing rfl hbranch (htakes.1 ht) htarget
  · rw [if_neg ht]
    have hnot : ¬ m.Takes r.instruction.mnemonic := fun hm => ht (htakes.2 hm)
    exact ⟨⟨[], hnothing, rfl⟩, .notTaken hbranch hnot htarget,
      terminates_iff_false (ne_int_of_isBranch hbranch)⟩

/-- An interrupt changes nothing, and ends the program if it is the right service of the operating
system. -/
theorem arises_int (hm : r.instruction.mnemonic = .int) (trace : String) {halts : Bool}
    (hhalts : halts = true ↔ r.Terminates m) : (Effect.mk m trace none halts).Arises r m symbols :=
  ⟨⟨[], .nothing (by simp [hm]), rfl⟩, .onward (by rw [hm]; rfl) (by simp [hm]), hhalts⟩

/-- **What a record does that is not refused.** The instructions are told apart here, and what is
known of their effects elsewhere is read off `Effect.Arises`. -/
theorem arises_perform (r : Record) (m : Machine) (symbols : SymbolTable) :
    Yields (r.perform m symbols) fun effect => effect.Arises r m symbols := by
  unfold Record.perform
  simp only
  cases hm : r.instruction.mnemonic with
  | mov =>
    refine Yields.bind (fun p hp => hp) ?_
    rintro ⟨first, second⟩ hoperands
    refine Yields.bind (fun register hregister => hregister) ?_
    intro register hregister
    apply Yields.after
    intro v
    refine Yields.bind (fun after hafter => onMachine_eq_ok hafter) ?_
    intro after hafter
    have hhead : r.instruction.operands.head? = some (.register register) :=
      register_of_destination hregister ▸ head_of_twoOperands hoperands
    have hops := (Machine.applyAll_singleton (.set register.name v) m).trans hafter
    exact yields_pure (arises_done (.moves hm hhead) hops (by simp [hm]))
  | add | sub =>
    refine Yields.bind (changes_arithmetic _ _) ?_
    rintro ⟨register, v, after⟩ ⟨hhead, zero, sign, carry, overflow, hflags⟩
    refine Yields.bind (fun last hlast => onMachine_eq_ok hlast) ?_
    intro last hlast
    -- The register is set last, on the machine with the flags.
    have hops := ((Machine.applyAll_append hflags _).trans
      (Machine.applyAll_singleton (.set register.name v) after)).trans hlast
    exact yields_pure (arises_done (.computes (by simp [hm]) hhead) hops (by simp [hm]))
  | cmp =>
    refine Yields.bind (changes_arithmetic _ _) ?_
    rintro ⟨register, v, after⟩ ⟨-, zero, sign, carry, overflow, hflags⟩
    exact yields_pure (arises_done (.compares hm) hflags (by simp [hm]))
  | jmp =>
    refine Yields.bind (fun t ht => ht) ?_
    intro target htarget
    exact yields_pure (arises_taken _ (.nothing (by simp [hm])) rfl (by rw [hm]; rfl)
      (by simp [hm, Machine.Takes]) htarget)
  | je | jne =>
    refine Yields.bind (fun z hz => onMachine_eq_ok hz) ?_
    intro zero hzero
    refine Yields.bind (fun t ht => ht) ?_
    intro target htarget
    -- Taken or not is decided by the value that the flag was found to have.
    exact yields_pure
      (arises_branchIf (by simp [hm]) (by simp [hm, Machine.Takes, hzero]) htarget)
  | call =>
    refine Yields.bind (fun t ht => ht) ?_
    intro target htarget
    refine Yields.bind (fun after hafter => onMachine_eq_ok hafter) ?_
    intro after hafter
    have hops := (Machine.applyAll_singleton (.push r.following) m).trans hafter
    exact yields_pure (arises_taken _ (.puts (by simp [hm])) hops (by rw [hm]; rfl)
      (by simp [hm, Machine.Takes]) htarget)
  | ret =>
    refine Yields.bind (fun p hp => onMachine_eq_ok hp) ?_
    rintro ⟨word, after⟩ hpop
    have hops : applyAll [.pop] m = .ok after := by
      rw [Machine.applyAll_singleton, Operation.apply, hpop]
      rfl
    exact yields_pure
      ⟨⟨[.pop], .returns hm, hops⟩, .back hm hpop, terminates_iff_false (by simp [hm])⟩
  | push =>
    apply Yields.after
    intro op
    apply Yields.after
    intro v
    refine Yields.bind (fun after hafter => onMachine_eq_ok hafter) ?_
    intro after hafter
    have hops := (Machine.applyAll_singleton (.push v) m).trans hafter
    exact yields_pure (arises_done (.puts (by simp [hm])) hops (by simp [hm]))
  | pop =>
    refine Yields.bind (fun op hop => hop) ?_
    intro op hop
    refine Yields.bind (fun register hregister => hregister) ?_
    intro register hregister
    refine Yields.bind (fun p hp => onMachine_eq_ok hp) ?_
    rintro ⟨word, after⟩ hpop
    refine Yields.bind (fun last hlast => onMachine_eq_ok hlast) ?_
    intro last hlast
    have hhead : r.instruction.operands.head? = some (.register register) := by
      rw [head_of_oneOperand hop, register_of_destination hregister]
    have hfirst : applyAll [.pop] m = .ok after := by
      rw [Machine.applyAll_singleton, Operation.apply, hpop]
      rfl
    have hops := ((Machine.applyAll_append hfirst _).trans
      (Machine.applyAll_singleton (.set register.name word) after)).trans hlast
    exact yields_pure (arises_done (.takes hm hhead) hops (by simp [hm]))
  | int =>
    simp only
    by_cases hdos : r.instruction.vector?.getD (r.bytes.getD 1 0) = dosInterrupt
    · rw [if_pos hdos]
      refine Yields.bind (fun a ha => onMachine_eq_ok ha) ?_
      intro ah hah
      refine yields_pure (arises_int hm _ ?_)
      rw [Record.Terminates, hah]
      constructor
      · intro hhalts
        exact ⟨hm, hdos, by rw [eq_of_beq hhalts]⟩
      · rintro ⟨-, -, hservice⟩
        exact beq_iff_eq.2 (Except.ok.inj hservice)
    · rw [if_neg hdos]
      refine yields_pure (arises_int hm _ ?_)
      constructor
      · intro hhalts
        exact absurd hhalts (by simp)
      · rintro ⟨-, hvector, -⟩
        exact absurd hvector hdos

/-- What is true of every effect of a record. -/
theorem follows_perform (r : Record) (m : Machine) (symbols : SymbolTable) :
    Yields (r.perform m symbols) fun effect => effect.Follows r m symbols := by
  intro effect heffect
  obtain ⟨⟨ops, -, hops⟩, hleads, hhalts⟩ := arises_perform r m symbols effect heffect
  exact ⟨fun h => h.applyAll ops _ hops, hleads, hhalts⟩

/-- What an instruction that is not refused does to the machine. -/
theorem changes_perform (r : Record) (m : Machine) (symbols : SymbolTable) :
    Yields (r.perform m symbols) fun effect =>
      ∃ ops, r.instruction.Changes ops ∧ applyAll ops m = .ok effect.machine :=
  fun effect heffect => (arises_perform r m symbols effect heffect).changes

/-! On a machine with all registers a branch is refused only for its operands. -/

/-- A branch without a target is refused for that, whether it would be taken or not. -/
theorem perform_of_branchTarget_error (h : m.Complete)
    (hbranch : r.instruction.mnemonic.isBranch = true) {e : Refusal}
    (htarget : branchTarget symbols r.instruction.operands = .error e) :
    r.perform m symbols = .error e := by
  obtain ⟨zero, hzero⟩ := h.getFlag_eq "ZF" rfl
  unfold Record.perform
  simp only
  cases hm : r.instruction.mnemonic with
  | jmp | call =>
    simp only [htarget]
    rfl
  | je | jne =>
    simp only [htarget, hzero]
    rfl
  | _ =>
    rw [hm] at hbranch
    exact absurd hbranch (by decide)

/-- One with a target is never refused on a complete machine. -/
theorem perform_of_branchTarget_ok (h : m.Complete)
    (hbranch : r.instruction.mnemonic.isBranch = true) {target : Nat}
    (htarget : branchTarget symbols r.instruction.operands = .ok target) :
    ∃ effect, r.perform m symbols = .ok effect := by
  obtain ⟨zero, hzero⟩ := h.getFlag_eq "ZF" rfl
  obtain ⟨after, hpush⟩ := h.push_eq r.following
  unfold Record.perform
  simp only
  cases hm : r.instruction.mnemonic with
  | jmp =>
    simp only [htarget]
    exact ⟨_, rfl⟩
  | call =>
    simp only [htarget, hpush]
    exact ⟨_, rfl⟩
  | je | jne =>
    simp only [htarget, hzero]
    exact ⟨_, rfl⟩
  | _ =>
    rw [hm] at hbranch
    exact absurd hbranch (by decide)

/-- A branch that is taken is carried out, and leads to where its operand leads. -/
theorem perform_of_takes (h : m.Complete) (htakes : m.Takes r.instruction.mnemonic) {target : Nat}
    (htarget : branchTarget symbols r.instruction.operands = .ok target) :
    ∃ effect, r.perform m symbols = .ok effect ∧ effect.target = some target
      ∧ effect.halts = false := by
  have hbranch := isBranch_of_takes htakes
  obtain ⟨effect, hperform⟩ := perform_of_branchTarget_ok h hbranch htarget
  have hfollows := follows_perform r m symbols effect hperform
  refine ⟨effect, hperform, ?_, ?_⟩
  · have hleads := hfollows.leads
    generalize effect.target = reached at hleads
    cases hleads with
    | onward hno _ =>
      rw [hbranch] at hno
      exact absurd hno (by decide)
    | notTaken _ hnot _ => exact absurd htakes hnot
    | taken _ hsame =>
      rw [htarget] at hsame
      rw [Except.ok.inj hsame]
    | back hret _ =>
      rw [hret] at hbranch
      exact absurd hbranch (by decide)
  · refine Bool.eq_false_iff.2 fun hhalts => ?_
    exact ne_int_of_isBranch hbranch (hfollows.halts.1 hhalts).1

end Perform

end TurboBench.Asm
