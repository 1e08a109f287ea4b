import TurboBench.Proofs.Asm.Operations

/-!
# Instructions that are refused

`Record.perform` answers with a new machine or with a cause, and the old machine is still there. A
processor has one machine only, which is changed in place: if a check fails after a flag was set,
the flag stays set. `Record.inPlace` carries out a record in that way, with every check, every look
at the machine and every change at its place, and with the changes before a failure left as they
are.

On every machine the two answer alike (`answer_inPlace`). On a well-formed one it makes no
difference that changes are not taken back, because nothing can fail behind the first of them:
`Guarded` says that accesses either succeed or have changed nothing, `Succeeds` that they do not
fail, and `Guarded.bind` demands `Succeeds` of whatever follows a change. A program therefore only
meets causes that lie in its operands, and never a name that the machine does not have.
-/

set_option autoImplicit false

namespace TurboBench.Asm

open Machine (Operation)

/-! ## Instructions in place -/

/-- Accesses to a machine that is changed in place. The machine at the moment of a failure is the
one that is left. -/
abbrev Access := EStateM Refusal Machine

/-- Checking or reading something, without a change. -/
def look {α : Type} (f : Machine → Except Refusal α) : Access α := fun m =>
  match f m with
  | .ok a => .ok a m
  | .error e => .error e m

/-- Changing the machine by one operation. -/
def operate (op : Operation) : Access Unit := fun m =>
  match onMachine (op.apply m) with
  | .ok after => .ok () after
  | .error e => .error e m

/-- Taking the word off the top of the stack. -/
def takeWord : Access Nat := do
  let word ← look fun m => onMachine (Prod.fst <$> m.pop)
  operate .pop
  return word

/-- What an instruction leaves besides the machine. -/
structure Outcome where
  trace : String
  target : Option Nat
  halts : Bool
  deriving DecidableEq, Repr

/-- The outcome that is part of an effect. -/
def Effect.outcome (e : Effect) : Outcome :=
  ⟨e.trace, e.target, e.halts⟩

/-- Sets the four flags, one after the other. -/
def ArithmeticResult.flagsInPlace (r : ArithmeticResult) : Access Unit := do
  operate (.setFlag "ZF" r.zero)
  operate (.setFlag "SF" r.sign)
  operate (.setFlag "CF" r.carry)
  operate (.setFlag "OF" r.overflow)

/-- Carries out an operation on a register and an operand, up to the flags. -/
def arithmeticInPlace (op : Arithmetic) (symbols : SymbolTable) (operands : List Operand) :
    Access (Register × Int) := do
  let (first, second) ← look fun _ => twoOperands operands
  let register ← look fun _ => first.destination
  let bits := Machine.width register.name
  let a ← look fun m => onMachine (m.get register.name)
  let b ← look fun m => second.value m symbols
  let result := op.compute bits a (b % Machine.wordCount bits)
  result.flagsInPlace
  return (register, result.word)

namespace Record

/-- The outcome of an instruction that only changes the machine. -/
def executed (r : Record) : Outcome :=
  ⟨s!"{r.instruction.mnemonic.title} executed: {r.source}", none, false⟩

/-- The outcome of a conditional branch. -/
def branched (r : Record) (taken : Bool) (target : Nat) : Outcome :=
  let title := r.instruction.mnemonic.title
  if taken then ⟨s!"{title} taken: {r.source}", some target, false⟩
  else ⟨s!"{title} not taken: {r.source}", none, false⟩

/-- Carries out a record on a machine that is changed in place. -/
def inPlace (r : Record) (symbols : SymbolTable) : Access Outcome := do
  let operands := r.instruction.operands
  match r.instruction.mnemonic with
  | .mov =>
    let (first, second) ← look fun _ => twoOperands operands
    let register ← look fun _ => first.destination
    let v ← look fun m => second.value m symbols
    operate (.set register.name v)
    return r.executed
  | .add =>
    let (register, v) ← arithmeticInPlace .add symbols operands
    operate (.set register.name v)
    return r.executed
  | .sub =>
    let (register, v) ← arithmeticInPlace .subtract symbols operands
    operate (.set register.name v)
    return r.executed
  | .cmp =>
    let _ ← arithmeticInPlace .subtract symbols operands
    return r.executed
  | .jmp =>
    let target ← look fun _ => branchTarget symbols operands
    return { r.executed with target := some target }
  | .je =>
    let zero ← look fun m => onMachine (m.getFlag "ZF")
    let target ← look fun _ => branchTarget symbols operands
    return r.branched (zero == 1) target
  | .jne =>
    let zero ← look fun m => onMachine (m.getFlag "ZF")
    let target ← look fun _ => branchTarget symbols operands
    return r.branched (zero == 0) target
  | .call =>
    let target ← look fun _ => branchTarget symbols operands
    operate (.push r.following)
    return { r.executed with target := some target }
  | .ret =>
    let address ← takeWord
    return ⟨"RET executed", some address, false⟩
  | .push =>
    let op ← look fun _ => oneOperand operands
    let v ← look fun m => op.value m symbols
    operate (.push v)
    return r.executed
  | .pop =>
    let op ← look fun _ => oneOperand operands
    let register ← look fun _ => op.destination
    let v ← takeWord
    operate (.set register.name v)
    return r.executed
  | .int =>
    let vector := r.instruction.vector?.getD (r.bytes.getD 1 0)
    if vector = dosInterrupt then
      let ah ← look fun m => onMachine (m.get "ah")
      return ⟨"INT 21h - DOS interrupt executed", none, ah == terminateService⟩
    else return ⟨s!"INT {Text.hex vector}h executed", none, false⟩

end Record

/-! ## The answers agree -/

/-- What accesses answer, where the machine that a failure leaves does not count. -/
def answer {α : Type} : EStateM.Result Refusal Machine α → Except Refusal (α × Machine)
  | .ok a m => .ok (a, m)
  | .error e _ => .error e

section Answers

variable {α β : Type}

@[simp]
theorem answer_pure (a : α) (m : Machine) : answer ((pure a : Access α) m) = .ok (a, m) :=
  rfl

/-- The answer of an action is passed on to the next. -/
@[simp]
theorem answer_bind (x : Access α) (g : α → Access β) (m : Machine) :
    answer ((x >>= g) m) = answer (x m) >>= fun p => answer (g p.1 p.2) := by
  show answer (EStateM.bind x g m) = _
  unfold EStateM.bind
  cases x m with
  | ok a after => rfl
  | error e after => rfl

/-- What is made of the outcome of an action is made of its answer. -/
@[simp]
theorem answer_map (f : α → β) (x : Access α) (m : Machine) :
    answer ((f <$> x) m) = (fun p => (f p.1, p.2)) <$> answer (x m) := by
  show answer (EStateM.map f x m) = _
  unfold EStateM.map
  cases x m with
  | ok a after => rfl
  | error e after => rfl

/-- Looking answers what is seen and leaves the machine. -/
@[simp]
theorem answer_look (f : Machine → Except Refusal α) (m : Machine) :
    answer (look f m) = (fun a => (a, m)) <$> f m := by
  unfold look
  cases f m with
  | ok a => rfl
  | error e => rfl

/-- An operation answers what it makes of the machine. -/
@[simp]
theorem answer_operate (op : Operation) (m : Machine) :
    answer (operate op m) = (fun after => ((), after)) <$> onMachine (op.apply m) := by
  unfold operate
  cases onMachine (op.apply m) with
  | ok after => rfl
  | error e => rfl

theorem onMachine_bind (x : Except UnknownName α) (f : α → Except UnknownName β) :
    onMachine (x >>= f) = onMachine x >>= fun a => onMachine (f a) := by
  cases x with
  | ok a => rfl
  | error e => rfl

/-- Taking a word off the stack answers the word. -/
@[simp]
theorem answer_takeWord (m : Machine) : answer (takeWord m) = onMachine m.pop := by
  unfold takeWord
  simp only [answer_bind, answer_look, answer_operate, answer_pure, Operation.apply]
  cases hpop : m.pop with
  | ok p =>
    show (fun after => ((), after)) <$> onMachine (Prod.snd <$> m.pop) >>= _ = _
    rw [hpop]
    rfl
  | error e => rfl

theorem answer_flagsInPlace (r : ArithmeticResult) (m : Machine) :
    answer (r.flagsInPlace m) = (fun after => ((), after)) <$> onMachine (r.setFlags m) := by
  simp [ArithmeticResult.flagsInPlace, ArithmeticResult.setFlags, onMachine_bind, Operation.apply]

theorem answer_arithmeticInPlace (op : Arithmetic) (symbols : SymbolTable) (operands : List Operand)
    (m : Machine) :
    answer (arithmeticInPlace op symbols operands m)
      = (fun p => ((p.1, p.2.1), p.2.2)) <$> arithmetic op m symbols operands := by
  simp only [arithmeticInPlace, arithmetic, bind_pure_comp, answer_bind, answer_look, answer_map,
    answer_flagsInPlace, Functor.map_map, bind_map_left, map_bind]

theorem outcome_branchIf (r : Record) (m : Machine) (taken : Bool) (target : Nat) :
    (r.branchIf m taken target).outcome = r.branched taken target := by
  cases taken with
  | true => rfl
  | false => rfl

theorem machine_branchIf (r : Record) (m : Machine) (taken : Bool) (target : Nat) :
    (r.branchIf m taken target).machine = m := by
  cases taken with
  | true => rfl
  | false => rfl

/-- **Carrying out an instruction in place answers as carrying it out at once does.** -/
theorem answer_inPlace (r : Record) (symbols : SymbolTable) (m : Machine) :
    answer (r.inPlace symbols m)
      = (fun effect => (effect.outcome, effect.machine)) <$> r.perform m symbols := by
  unfold Record.inPlace Record.perform
  simp only
  cases r.instruction.mnemonic with
  | je | jne => simp [outcome_branchIf, machine_branchIf]
  | int =>
    simp only
    split
    · simp [Effect.outcome]
    · rfl
  | _ =>
    simp [answer_arithmeticInPlace, Operation.apply, Effect.outcome, Record.done, Record.executed]

end Answers

/-! ## Nothing fails behind a change -/

/-- A cause that lies in the operands of the instruction. -/
def Refusal.OfOperands : Refusal → Prop
  | operandCount _ | unsupportedOperand _ | unknownLabel _ => True
  | unknownName _ => False

/-- Accesses that do not fail, and leave a well-formed machine. -/
def Succeeds {α : Type} (x : Access α) (m : Machine) : Prop :=
  ∃ a after, x m = .ok a after ∧ after.WellFormed

/-- Accesses that do not fail, or fail before the first change, for a cause in the operands. -/
def Guarded {α : Type} (x : Access α) (m : Machine) : Prop :=
  Succeeds x m ∨ ∃ e, x m = .error e m ∧ e.OfOperands

section Guards

variable {α β : Type} {m : Machine} {x : Access α} {g : α → Access β} {symbols : SymbolTable}

theorem Machine.WellFormed.succeeds_pure (h : m.WellFormed) (a : α) :
    Succeeds (pure a : Access α) m :=
  ⟨a, m, rfl, h⟩

/-- Known operations cannot fail on a well-formed machine. -/
theorem Machine.WellFormed.succeeds_operate (h : m.WellFormed) {op : Operation} (hop : op.Known) :
    Succeeds (operate op) m := by
  obtain ⟨after, hafter, hwell⟩ := h.apply hop
  refine ⟨(), after, ?_, hwell⟩
  rw [operate, hafter]
  rfl

/-- Actions that cannot fail one after the other cannot fail together. -/
theorem Succeeds.bind (hx : Succeeds x m)
    (hg : ∀ a after, after.WellFormed → Succeeds (g a) after) : Succeeds (x >>= g) m := by
  obtain ⟨a, after, hok, hwell⟩ := hx
  obtain ⟨b, last, hlast, hend⟩ := hg a after hwell
  refine ⟨b, last, ?_, hend⟩
  show EStateM.bind x g m = _
  rw [EStateM.bind, hok]
  exact hlast

/-- What follows a change must not fail. -/
theorem Guarded.bind (hx : Guarded x m) (hg : ∀ a after, after.WellFormed → Succeeds (g a) after) :
    Guarded (x >>= g) m := by
  rcases hx with hx | ⟨e, he, hcause⟩
  · exact .inl (hx.bind hg)
  · refine .inr ⟨e, ?_, hcause⟩
    show EStateM.bind x g m = _
    rw [EStateM.bind, he]

/-- What follows a look at the machine may fail, since nothing has changed. -/
theorem Guarded.after_look {f : Machine → Except Refusal α}
    (hf : ∀ e, f m = .error e → e.OfOperands) (hg : ∀ a, Guarded (g a) m) :
    Guarded (look f >>= g) m := by
  cases hfm : f m with
  | ok a =>
    have hbind : (look f >>= g) m = g a m := by
      show EStateM.bind (look f) g m = _
      rw [EStateM.bind, look, hfm]
    unfold Guarded Succeeds
    rw [hbind]
    exact hg a
  | error e =>
    refine .inr ⟨e, ?_, hf e hfm⟩
    show EStateM.bind (look f) g m = _
    rw [EStateM.bind, look, hfm]

/-! The checks of operands, and what is read of a well-formed machine. -/

/-- A wrong number of operands can be told without the machine. -/
theorem ofOperands_twoOperands {operands : List Operand} {e : Refusal}
    (h : twoOperands operands = .error e) : e.OfOperands := by
  unfold twoOperands at h
  split at h
  · exact absurd h (by simp)
  · rw [← Except.error.inj h]
    exact True.intro

/-- Where one operand is expected, a wrong number can be told without the machine as well. -/
theorem ofOperands_oneOperand {operands : List Operand} {e : Refusal}
    (h : oneOperand operands = .error e) : e.OfOperands := by
  unfold oneOperand at h
  split at h
  · exact absurd h (by simp)
  · rw [← Except.error.inj h]
    exact True.intro

/-- A destination that is no register is refused without a look at the machine. -/
theorem ofOperands_destination {op : Operand} {e : Refusal} (h : op.destination = .error e) :
    e.OfOperands := by
  unfold Operand.destination at h
  split at h
  · exact absurd h (by simp)
  · rw [← Except.error.inj h]
    exact True.intro

/-- A target that is not in the table is refused without a look at the machine. -/
theorem ofOperands_branchTarget {operands : List Operand} {e : Refusal}
    (h : branchTarget symbols operands = .error e) : e.OfOperands := by
  unfold branchTarget at h
  cases hone : oneOperand operands with
  | error cause =>
    rw [hone] at h
    rw [← Except.error.inj h]
    exact ofOperands_oneOperand hone
  | ok op =>
    rw [hone] at h
    simp only [Bind.bind, Except.bind] at h
    split at h
    · split at h
      · exact absurd h (by simp)
      · rw [← Except.error.inj h]
        exact True.intro
    · rw [← Except.error.inj h]
      exact True.intro
    · rw [← Except.error.inj h]
      exact True.intro

namespace Machine.WellFormed

variable {e : Refusal}

theorem ofOperands_get (h : m.WellFormed) {name : String} (hname : IsRegister name)
    (he : onMachine (m.get name) = .error e) : e.OfOperands := by
  obtain ⟨v, hv, -⟩ := h.get hname
  rw [hv] at he
  exact absurd he (by simp [onMachine])

/-- Known flags can be read on a well-formed machine, so they are no cause of a refusal. -/
theorem ofOperands_getFlag (h : m.WellFormed) {flag : String} (hflag : flag ∈ flagNames)
    (he : onMachine (m.getFlag flag) = .error e) : e.OfOperands := by
  obtain ⟨k, -, hk⟩ := weight_of_mem_flagNames hflag
  obtain ⟨v, hv⟩ := h.complete.getFlag_eq flag hk
  rw [hv] at he
  exact absurd he (by simp [onMachine])

theorem ofOperands_value (h : m.WellFormed) {op : Operand} (he : op.value m symbols = .error e) :
    e.OfOperands := by
  obtain ⟨v, hv⟩ := h.value symbols op
  rw [hv] at he
  exact absurd he (by simp)

theorem succeeds_set (h : m.WellFormed) (register : Register) (v : Int) :
    Succeeds (operate (.set register.name v)) m :=
  h.succeeds_operate register.isRegister

theorem succeeds_setFlag (h : m.WellFormed) {flag : String} (hflag : flag ∈ flagNames) (on : Bool) :
    Succeeds (operate (.setFlag flag on)) m :=
  h.succeeds_operate hflag

theorem succeeds_push (h : m.WellFormed) (v : Int) : Succeeds (operate (.push v)) m :=
  h.succeeds_operate True.intro

/-- A word can always be taken off a well-formed machine. -/
theorem succeeds_takeWord (h : m.WellFormed) : Succeeds takeWord m := by
  obtain ⟨word, after, hpop⟩ := h.complete.pop_eq
  have hlook : look (fun n => onMachine (Prod.fst <$> n.pop)) m = .ok word m := by
    rw [look, hpop]
    rfl
  refine Succeeds.bind ⟨word, m, hlook, h⟩ ?_
  intro a n hn
  have hpop : Succeeds (operate .pop) n := hn.succeeds_operate True.intro
  exact hpop.bind fun _ last hlast => hlast.succeeds_pure a

/-- Arithmetic looks at its operands before it writes. -/
theorem guarded_arithmeticInPlace (h : m.WellFormed) (op : Arithmetic) (operands : List Operand) :
    Guarded (arithmeticInPlace op symbols operands) m := by
  refine Guarded.after_look (fun _ => ofOperands_twoOperands) ?_
  rintro ⟨first, second⟩
  refine Guarded.after_look (fun _ => ofOperands_destination) ?_
  intro register
  refine Guarded.after_look (fun _ => h.ofOperands_get register.isRegister) ?_
  intro a
  refine Guarded.after_look (fun _ => h.ofOperands_value) ?_
  intro b
  -- All is checked, and the flags are set one after the other.
  refine .inl (Succeeds.bind ?_ fun _ after hafter => hafter.succeeds_pure _)
  refine (h.succeeds_setFlag (by decide) _).bind fun _ m1 h1 => ?_
  refine (h1.succeeds_setFlag (by decide) _).bind fun _ m2 h2 => ?_
  refine (h2.succeeds_setFlag (by decide) _).bind fun _ m3 h3 => ?_
  exact h3.succeeds_setFlag (by decide) _

/-- An instruction on a well-formed machine. -/
theorem guarded_inPlace (h : m.WellFormed) (r : Record) : Guarded (r.inPlace symbols) m := by
  unfold Record.inPlace
  simp only
  -- In each instruction the looks stand in front of the first operation, which is what makes it
  -- atomic.
  cases r.instruction.mnemonic with
  | mov =>
    refine Guarded.after_look (fun _ => ofOperands_twoOperands) ?_
    rintro ⟨first, second⟩
    refine Guarded.after_look (fun _ => ofOperands_destination) ?_
    intro register
    refine Guarded.after_look (fun _ => h.ofOperands_value) ?_
    intro v
    exact .inl ((h.succeeds_set register v).bind fun _ after hafter => hafter.succeeds_pure _)
  | add | sub =>
    refine (h.guarded_arithmeticInPlace _ _).bind ?_
    rintro ⟨register, v⟩ m1 h1
    exact (h1.succeeds_set register v).bind fun _ after hafter => hafter.succeeds_pure _
  | cmp =>
    refine (h.guarded_arithmeticInPlace _ _).bind ?_
    exact fun _ after hafter => hafter.succeeds_pure _
  | jmp =>
    refine Guarded.after_look (fun _ => ofOperands_branchTarget) ?_
    exact fun target => .inl (h.succeeds_pure _)
  | je | jne =>
    refine Guarded.after_look (fun _ => h.ofOperands_getFlag (by decide)) ?_
    intro zero
    refine Guarded.after_look (fun _ => ofOperands_branchTarget) ?_
    exact fun target => .inl (h.succeeds_pure _)
  | call =>
    refine Guarded.after_look (fun _ => ofOperands_branchTarget) ?_
    intro target
    exact .inl ((h.succeeds_push _).bind fun _ after hafter => hafter.succeeds_pure _)
  | ret => exact .inl (h.succeeds_takeWord.bind fun _ after hafter => hafter.succeeds_pure _)
  | push =>
    refine Guarded.after_look (fun _ => ofOperands_oneOperand) ?_
    intro op
    refine Guarded.after_look (fun _ => h.ofOperands_value) ?_
    intro v
    exact .inl ((h.succeeds_push v).bind fun _ after hafter => hafter.succeeds_pure _)
  | pop =>
    refine Guarded.after_look (fun _ => ofOperands_oneOperand) ?_
    intro op
    refine Guarded.after_look (fun _ => ofOperands_destination) ?_
    intro register
    refine .inl (h.succeeds_takeWord.bind ?_)
    intro v m1 h1
    exact (h1.succeeds_set register v).bind fun _ after hafter => hafter.succeeds_pure _
  | int =>
    simp only
    split
    · refine Guarded.after_look (fun _ => h.ofOperands_get (by decide)) ?_
      exact fun ah => .inl (h.succeeds_pure _)
    · exact .inl (h.succeeds_pure _)

end Machine.WellFormed

end Guards

/-! ## Refusals change nothing -/

/-- A record is carried out as a whole or not at all: in place it leaves the machine that
`Record.perform` answers with, or else the machine that it found. The cause of a refusal lies in the
operands. -/
structure Record.Atomic (r : Record) (symbols : SymbolTable) (m : Machine) : Prop where
  done : ∀ effect, r.perform m symbols = .ok effect →
    r.inPlace symbols m = .ok effect.outcome effect.machine
  refused : ∀ e, r.perform m symbols = .error e → r.inPlace symbols m = .error e m ∧ e.OfOperands

/-- Every instruction is carried out as a whole, or refused and nothing is changed. -/
theorem Machine.WellFormed.atomic {m : Machine} (h : m.WellFormed) (r : Record)
    (symbols : SymbolTable) : r.Atomic symbols m := by
  have hanswer := answer_inPlace r symbols m
  refine ⟨fun effect heffect => ?_, fun e he => ?_⟩
  · rw [heffect] at hanswer
    cases hplace : r.inPlace symbols m with
    | ok outcome after =>
      rw [hplace] at hanswer
      obtain ⟨rfl, rfl⟩ := Prod.mk.inj (Except.ok.inj hanswer)
      rfl
    | error e after =>
      rw [hplace] at hanswer
      exact absurd hanswer (by simp [answer])
  · rw [he] at hanswer
    rcases h.guarded_inPlace r with ⟨outcome, after, hok, -⟩ | ⟨cause, hcause, hoperands⟩
    · rw [hok] at hanswer
      exact absurd hanswer (by simp [answer])
    · rw [hcause] at hanswer
      obtain rfl := Except.error.inj hanswer
      exact ⟨hcause, hoperands⟩

namespace Progress

/-- On a well-formed machine every record is carried out as a whole or refused for its operands. A
refusal adds one line to the trace and moves control behind the record. All machines of a run are
well-formed, so no run meets a name that the machine does not have. -/
theorem atomic_of_wellFormed :
    (∀ (r : Record) (symbols : SymbolTable) (s : Progress), s.machine.WellFormed →
        r.Atomic symbols s.machine
          ∧ ∀ disabled e, r.instruction.mnemonic ∉ disabled →
            r.perform s.machine symbols = .error e →
            s.step disabled symbols r
              = (⟨s.machine.setWhole "ip" ((r.address + r.size) % 0x10000 : Nat),
                  s.trace.push s!"Error at line {r.line}: {e.message r.instruction.mnemonic}",
                  s.executed + 1⟩, false))
      ∧ ∀ (a : Assembly) (disabled : List Mnemonic) (limit : Nat),
        (∀ x ∈ history a disabled limit .start,
            x.1.machine.WellFormed ∧ x.2.Atomic a.symbols x.1.machine)
          ∧ (run a disabled limit .start).machine.WellFormed
          ∧ ∃ ip, (run a disabled limit .start).machine.get "ip" = .ok ip := by
  refine ⟨fun r symbols s h => ⟨h.atomic r symbols, ?_⟩, fun a disabled limit => ?_⟩
  · intro disabled e henabled he
    exact step_of_error henabled he
  · have hrun := (operated_run a disabled limit).wellFormed
    obtain ⟨ip, hip, -⟩ := hrun.get (show Machine.IsRegister "ip" by decide)
    refine ⟨fun x hx => ?_, hrun, ip, hip⟩
    have hwell := (operated_of_mem_history hx).wellFormed
    exact ⟨hwell, hwell.atomic x.2 a.symbols⟩

/-- An addition to a number. -/
def additionToNumber : Record where
  address := 0x100
  bytes := [0x00, 5, 0]
  source := "add 5, ax"
  instruction := ⟨1, "add 5, ax", .add, [.immediate 5 .decimal, .register .ax]⟩

/-- An addition to a number is refused and leaves nothing but its line of output. -/
theorem atomic_additionToNumber :
    (assemble "add 5, ax".toList).records = [additionToNumber]
      ∧ additionToNumber.inPlace [] Machine.fresh
        = .error (.unsupportedOperand (.immediate 5 .decimal)) Machine.fresh
      ∧ start.step [] [] additionToNumber
        = (⟨Machine.fresh.setWhole "ip" 0x102,
            #["Error at line 1: Unsupported operand for ADD: 5"], 1⟩, false) := by
  obtain ⟨hatomic, hstep⟩ :=
    atomic_of_wellFormed.1 additionToNumber [] start Machine.wellFormed_fresh
  refine ⟨by rfl, (hatomic.refused _ rfl).1, ?_⟩
  exact hstep [] (.unsupportedOperand (.immediate 5 .decimal)) (by decide) rfl

end Progress

end TurboBench.Asm
