import TurboBench.Proofs.Asm.Operations

/-!
# What an instruction may change

An instruction has a `Footprint`: the registers, flags and bytes that it may change. Everything else
is as it was (`Machine.ChangesOnly`): registers that share no bits with those of the footprint, so
that the other half of a word stays when one is set; every bit of the flags register that is no flag
of the footprint; every other byte. Two changes one after the other have the footprints of both
(`ChangesOnly.trans`), so it is enough to know those of the operations that an instruction consists
of.

The instruction pointer belongs to the run and not to the instruction. Along a run the footprints
add up: a byte that is not zero was written by a push or a call (`exists_writes`), and of the flags
register only the four flags are ever set (`flagsOnly_run`).
-/

set_option autoImplicit false

namespace TurboBench.Asm

open Machine (Operation applyAll setFlags)

theorem Memory.read_zero (a : Int) : Memory.zero.read a = 0 := by
  simp [Memory.read, Memory.zero]

/-! ## Footprints -/

/-- What may be changed: registers, flags, and the bytes at addresses. -/
structure Footprint where
  registers : List String
  flags : List String
  bytes : List Int
  deriving DecidableEq, Repr

/-- Both footprints together. -/
def Footprint.union (f g : Footprint) : Footprint :=
  ⟨f.registers ++ g.registers, f.flags ++ g.flags, f.bytes ++ g.bytes⟩

/-- The register that an instruction names as its destination. -/
def Instruction.destinations (i : Instruction) : List String :=
  match i.operands.head? with
  | some (.register r) => [r.name]
  | _ => []

/-- What an instruction may change, where `sp` is the stack pointer after it. -/
def Instruction.footprint (i : Instruction) (sp : Int) : Footprint :=
  match i.mnemonic with
  | .mov => ⟨i.destinations, [], []⟩
  | .add | .sub => ⟨i.destinations, Machine.flagNames, []⟩
  | .cmp => ⟨[], Machine.flagNames, []⟩
  | .jmp | .je | .jne | .int => ⟨[], [], []⟩
  | .push | .call => ⟨["sp"], [], [sp, sp + 1]⟩
  | .ret => ⟨["sp"], [], []⟩
  | .pop => ⟨"sp" :: i.destinations, [], []⟩

namespace Machine

/-- From one machine to another nothing has changed but what is in the footprint. -/
structure ChangesOnly (m after : Machine) (f : Footprint) : Prop where
  registers : ∀ name, IsRegister name → ¬ SharesBits "flags" name →
    (∀ changed ∈ f.registers, ¬ SharesBits changed name) → after.get name = m.get name
  flags : ∀ v w, m.get "flags" = .ok v → after.get "flags" = .ok w →
    ∀ i, (∀ flag ∈ f.flags, flagWeight? flag ≠ some (2 ^ i)) → bit w i = bit v i
  memory : ∀ a, (∀ b ∈ f.bytes, a % 0x10000 ≠ b % 0x10000) → after.memory.read a = m.memory.read a

section Operations

variable {m after last : Machine} {f g : Footprint}

theorem ChangesOnly.refl (m : Machine) (f : Footprint) : ChangesOnly m m f where
  registers _ _ _ _ := rfl
  flags v w hv hw _ _ := by
    rw [hv] at hw
    rw [Except.ok.inj hw]
  memory _ _ := rfl

/-- What changes on the way is in one footprint or in the other. -/
theorem ChangesOnly.trans (h : ChangesOnly m after f) (hlast : ChangesOnly after last g)
    (hwell : after.WellFormed) : ChangesOnly m last (f.union g) where
  registers name hname hflags hno := by
    have hf := h.registers name hname hflags fun c hc => hno c (List.mem_append_left _ hc)
    have hg := hlast.registers name hname hflags fun c hc => hno c (List.mem_append_right _ hc)
    rw [hg, hf]
  flags v w hv hw i hno := by
    obtain ⟨u, hu, -⟩ := hwell.get (show IsRegister "flags" by decide)
    have hf := h.flags v u hv hu i fun c hc => hno c (List.mem_append_left _ hc)
    have hg := hlast.flags u w hu hw i fun c hc => hno c (List.mem_append_right _ hc)
    rw [hg, hf]
  memory a hno := by
    have hf := h.memory a fun b hb => hno b (List.mem_append_left _ hb)
    have hg := hlast.memory a fun b hb => hno b (List.mem_append_right _ hb)
    rw [hg, hf]

theorem ChangesOnly.mono (h : ChangesOnly m after f) (hregisters : f.registers ⊆ g.registers)
    (hflags : f.flags ⊆ g.flags) (hbytes : f.bytes ⊆ g.bytes) : ChangesOnly m after g where
  registers name hname hapart hno :=
    h.registers name hname hapart fun c hc => hno c (hregisters hc)
  flags v w hv hw i hno := h.flags v w hv hw i fun c hc => hno c (hflags hc)
  memory a hno := h.memory a fun b hb => hno b (hbytes hb)

/-- Operations that each stay within a footprint stay within it together. -/
theorem WellFormed.changesOnly_applyAll (h : m.WellFormed) {ops : List Operation}
    (hops : ∀ op ∈ ops, op.Known)
    (hone : ∀ op ∈ ops, ∀ n next, n.WellFormed → op.apply n = .ok next → ChangesOnly n next f)
    (hafter : applyAll ops m = .ok after) : ChangesOnly m after f := by
  induction ops generalizing m with
  | nil =>
    obtain rfl := Except.ok.inj hafter
    exact .refl m f
  | cons op ops ih =>
    obtain ⟨next, hnext, hwell⟩ := h.apply (hops op List.mem_cons_self)
    rw [applyAll, List.foldlM_cons, hnext] at hafter
    have hfirst := hone op List.mem_cons_self m next h hnext
    have hrest := ih hwell (fun o ho => hops o (List.mem_cons_of_mem _ ho))
      (fun o ho => hone o (List.mem_cons_of_mem _ ho)) hafter
    exact (hfirst.trans hrest hwell).mono (by simp [Footprint.union]) (by simp [Footprint.union])
      (by simp [Footprint.union])

/-! Single operations. -/

/-- A whole register other than the flags is set, with or without a change of the memory. -/
theorem changesOnly_whole {name : String} (hwhole : byteHalf? (foldRegister name) = none)
    (hne : foldRegister name ≠ "flags") {v : Int}
    (hset : after.registers = m.registers.set (foldRegister name) v) {bytes : List Int}
    (hmemory : ∀ a, (∀ b ∈ bytes, a % 0x10000 ≠ b % 0x10000) →
      after.memory.read a = m.memory.read a) :
    ChangesOnly m after ⟨[name], [], bytes⟩ := by
  have hget {other : String} (hcell : cell other ≠ foldRegister name) :
      after.get other = m.get other := by
    refine get_congr ?_
    rw [Machine.whole, hset, RegisterFile.lookup_set_of_ne _ _ hcell, Machine.whole]
  refine ⟨fun other hother _ hno => hget ?_, fun u w hu hw _ _ => ?_, hmemory⟩
  · intro he
    exact hno name List.mem_cons_self
      (sharesBits_of_cell_eq hwhole (he.trans (cell_of_whole hwhole).symm))
  · have hcell : cell "flags" = "flags" := by decide
    rw [hget (by rw [hcell]; exact hne.symm), hu] at hw
    rw [Except.ok.inj hw]

/-- Setting a register changes no other, but for the whole that it is a half of. -/
theorem WellFormed.changesOnly_set (h : m.WellFormed) {register : Register} {v : Int}
    (hset : m.set register.name v = .ok after) :
    ChangesOnly m after ⟨[register.name], [], []⟩ := by
  obtain ⟨next, hnext, -, hsets⟩ := h.set register.isRegister v
  rw [hset] at hnext
  obtain rfl := Except.ok.inj hnext
  refine ⟨fun name hname _ hno => ?_, fun u w hu hw _ _ => ?_, fun a _ => by rw [hsets.memory]⟩
  · obtain ⟨u, hu, hafter⟩ := hsets.others name hname (hno _ List.mem_cons_self)
    rw [hu, hafter]
  · -- The flags are none of the registers that an operand can name.
    have hapart : ¬ SharesBits register.name "flags" := by cases register <;> decide
    obtain ⟨x, hx, hafter⟩ := hsets.others "flags" (by decide) hapart
    rw [hx] at hu
    rw [hafter] at hw
    rw [← Except.ok.inj hu, ← Except.ok.inj hw]

/-- Setting a flag changes no other flag, though all are kept in one word. -/
theorem WellFormed.changesOnly_setFlag (h : m.WellFormed) {flag : String} {on : Bool}
    (hflag : flag ∈ flagNames) (hset : m.setFlag flag on = .ok after) :
    ChangesOnly m after ⟨[], [flag], []⟩ := by
  obtain ⟨next, hnext, -, hsets⟩ := h.setFlag hflag on
  rw [hset] at hnext
  obtain rfl := Except.ok.inj hnext
  refine ⟨fun name hname hapart _ => ?_, fun u w hu hw i hno => ?_, fun a _ => by rw [hsets.memory]⟩
  · obtain ⟨u, hu, hafter⟩ := hsets.others name hname hapart
    rw [hu, hafter]
  · obtain ⟨k, old, new, hk, hold, hnew, -, hbits⟩ := hsets.bits
    rw [hold] at hu
    rw [hnew] at hw
    rw [← Except.ok.inj hu, ← Except.ok.inj hw]
    refine hbits i fun hi => hno flag List.mem_cons_self ?_
    rw [hk, hi]

/-- Pushing changes the stack pointer and the two bytes that it then points to. -/
theorem WellFormed.changesOnly_push (h : m.WellFormed) {v : Int} (hpush : m.push v = .ok after)
    {sp : Int} (hsp : after.get "sp" = .ok sp) :
    ChangesOnly m after ⟨["sp"], [], [sp, sp + 1]⟩ := by
  obtain ⟨old, hold, -⟩ := h.whole (show "sp" ∈ registerNames by decide)
  rw [Machine.push, hold] at hpush
  obtain rfl := Except.ok.inj hpush
  have hnew : sp = (old - 2) % 0x10000 := by
    have hset := whole_setWhole_self m "sp" ((old - 2) % 0x10000)
    have hget := hsp.symm.trans (get_eq_whole (by decide) _)
    exact Except.ok.inj (hget.trans hset)
  subst hnew
  refine changesOnly_whole (by decide) (by decide) (v := (old - 2) % 0x10000) rfl ?_
  intro a hno
  exact Memory.read_writeWord_of_ne _ v (hno _ List.mem_cons_self)
    (hno _ (List.mem_cons_of_mem _ List.mem_cons_self))

/-- Taking a word off the stack changes only the stack pointer. -/
theorem WellFormed.changesOnly_takeOff (h : m.WellFormed)
    (hpop : Operation.pop.apply m = .ok after) : ChangesOnly m after ⟨["sp"], [], []⟩ := by
  obtain ⟨old, hold, -⟩ := h.whole (show "sp" ∈ registerNames by decide)
  rw [Operation.apply, Machine.pop, hold] at hpop
  obtain rfl := Except.ok.inj hpop
  exact changesOnly_whole (by decide) (by decide) (v := (old + 2) % 0x10000) rfl fun a _ => rfl

end Operations

end Machine

/-! ## Instructions -/

section Instructions

variable {m after : Machine} {i : Instruction} {ops : List Operation}

theorem mem_destinations {register : Register} (h : i.operands.head? = some (.register register)) :
    [register.name] ⊆ i.destinations := by
  rw [Instruction.destinations, h]
  exact List.Subset.refl _

/-- Arithmetic sets the four flags and nothing besides. -/
theorem mem_flagNames_of_setFlags {zero sign carry overflow : Bool} {op : Operation}
    (h : op ∈ setFlags zero sign carry overflow) :
    ∃ flag ∈ Machine.flagNames, ∃ on, op = .setFlag flag on := by
  simp only [setFlags, List.mem_cons, List.not_mem_nil, or_false] at h
  rcases h with rfl | rfl | rfl | rfl
  · exact ⟨"ZF", by decide, zero, rfl⟩
  · exact ⟨"SF", by decide, sign, rfl⟩
  · exact ⟨"CF", by decide, carry, rfl⟩
  · exact ⟨"OF", by decide, overflow, rfl⟩

/-- Setting flags stays within any footprint with all flags. -/
theorem Machine.WellFormed.changesOnly_of_mem_setFlags (h : m.WellFormed)
    {zero sign carry overflow : Bool} {op : Operation}
    (hop : op ∈ setFlags zero sign carry overflow) (hafter : op.apply m = .ok after)
    (registers : List String) :
    m.ChangesOnly after ⟨registers, Machine.flagNames, []⟩ := by
  obtain ⟨flag, hflag, on, rfl⟩ := mem_flagNames_of_setFlags hop
  refine (h.changesOnly_setFlag hflag hafter).mono (List.nil_subset _) ?_ (List.nil_subset _)
  intro name hname
  rwa [List.mem_singleton.1 hname]

/-- The operations of an instruction stay within its footprint. -/
theorem Instruction.Changes.changesOnly (h : i.Changes ops) (hm : m.WellFormed)
    (hafter : applyAll ops m = .ok after) {sp : Int} (hsp : after.get "sp" = .ok sp) :
    m.ChangesOnly after (i.footprint sp) := by
  have hknown := h.known
  -- Operation by operation, except for a push: where it writes depends on the pointer afterwards.
  cases h with
  | moves hmov hhead =>
    have hfoot : i.footprint sp = ⟨i.destinations, [], []⟩ := by rw [Instruction.footprint, hmov]
    rw [hfoot]
    refine hm.changesOnly_applyAll hknown ?_ hafter
    intro op hop n next hn hnext
    obtain rfl := List.mem_singleton.1 hop
    exact (hn.changesOnly_set hnext).mono (mem_destinations hhead) (List.nil_subset _)
      (List.nil_subset _)
  | computes hmem hhead =>
    have hfoot : i.footprint sp = ⟨i.destinations, Machine.flagNames, []⟩ := by
      rcases List.mem_pair.1 hmem with hadd | hsub
      · rw [Instruction.footprint, hadd]
      · rw [Instruction.footprint, hsub]
    rw [hfoot]
    refine hm.changesOnly_applyAll hknown ?_ hafter
    intro op hop n next hn hnext
    rcases List.mem_append.1 hop with hop | hop
    · exact hn.changesOnly_of_mem_setFlags hop hnext _
    · obtain rfl := List.mem_singleton.1 hop
      exact (hn.changesOnly_set hnext).mono (mem_destinations hhead) (List.nil_subset _)
        (List.nil_subset _)
  | compares hcmp =>
    have hfoot : i.footprint sp = ⟨[], Machine.flagNames, []⟩ := by rw [Instruction.footprint, hcmp]
    rw [hfoot]
    refine hm.changesOnly_applyAll hknown ?_ hafter
    exact fun op hop n next hn hnext => hn.changesOnly_of_mem_setFlags hop hnext _
  | nothing hmem =>
    obtain rfl := Except.ok.inj hafter
    exact .refl m _
  | puts hmem =>
    have hfoot : i.footprint sp = ⟨["sp"], [], [sp, sp + 1]⟩ := by
      rcases List.mem_pair.1 hmem with hpush | hcall
      · rw [Instruction.footprint, hpush]
      · rw [Instruction.footprint, hcall]
    rw [hfoot]
    obtain ⟨next, hnext, -⟩ := hm.apply (hknown _ List.mem_cons_self)
    rw [Machine.applyAll_singleton, hnext] at hafter
    obtain rfl := Except.ok.inj hafter
    exact hm.changesOnly_push hnext hsp
  | returns hret =>
    have hfoot : i.footprint sp = ⟨["sp"], [], []⟩ := by rw [Instruction.footprint, hret]
    rw [hfoot]
    refine hm.changesOnly_applyAll hknown ?_ hafter
    intro op hop n next hn hnext
    obtain rfl := List.mem_singleton.1 hop
    exact hn.changesOnly_takeOff hnext
  | takes hpop hhead =>
    have hfoot : i.footprint sp = ⟨"sp" :: i.destinations, [], []⟩ := by
      rw [Instruction.footprint, hpop]
    rw [hfoot]
    refine hm.changesOnly_applyAll hknown ?_ hafter
    intro op hop n next hn hnext
    rcases List.mem_pair.1 hop with rfl | rfl
    · exact (hn.changesOnly_takeOff hnext).mono (by simp) (List.nil_subset _) (List.nil_subset _)
    · refine (hn.changesOnly_set hnext).mono ?_ (List.nil_subset _) (List.nil_subset _)
      exact fun c hc => List.mem_cons_of_mem _ (mem_destinations hhead hc)

/-- Jumps and services change nothing. -/
theorem Instruction.Changes.eq_nil (h : i.Changes ops)
    (hmem : i.mnemonic ∈ [.jmp, .je, .jne, .int]) : ops = [] := by
  cases h with
  | nothing => rfl
  | moves hm | compares hm | returns hm | takes hm =>
    rw [hm] at hmem
    exact absurd hmem (by decide)
  | computes hm | puts hm =>
    rcases List.mem_pair.1 hm with hm | hm <;> (rw [hm] at hmem; exact absurd hmem (by decide))

/-- What a record that is carried out does to the machine. -/
theorem Machine.WellFormed.changesOnly_perform (hm : m.WellFormed) {r : Record}
    {symbols : SymbolTable} {effect : Effect} (h : r.perform m symbols = .ok effect) :
    effect.machine.WellFormed ∧ ∃ sp, effect.machine.get "sp" = .ok sp
      ∧ m.ChangesOnly effect.machine (r.instruction.footprint sp) := by
  obtain ⟨ops, hchanges, hops⟩ := changes_perform r m symbols effect h
  have hwell := hm.of_applyAll hchanges.known hops
  obtain ⟨sp, hsp, -⟩ := hwell.get (show Machine.IsRegister "sp" by decide)
  exact ⟨hwell, sp, hsp, hchanges.changesOnly hm hops hsp⟩

end Instructions

/-! ## Runs -/

namespace Progress

variable {a : Assembly} {disabled : List Mnemonic}

/-- An instruction of a run that writes the byte at an address: a push or a call that is carried
out, with the address at the stack pointer after it, or behind. -/
def Writes (disabled : List Mnemonic) (symbols : SymbolTable) (s : Progress) (r : Record)
    (address : Int) : Prop :=
  r.instruction.mnemonic ∈ [.push, .call] ∧ r.instruction.mnemonic ∉ disabled
    ∧ ∃ effect sp, r.perform s.machine symbols = .ok effect ∧ effect.machine.get "sp" = .ok sp
      ∧ (address % 0x10000 = sp % 0x10000 ∨ address % 0x10000 = (sp + 1) % 0x10000)

/-- Of the flags register only flags are set. -/
def FlagsOnly (m : Machine) : Prop :=
  ∃ v, m.get "flags" = .ok v ∧ ∀ i, i ∉ Machine.flagBits → Machine.bit v i = 0

theorem get_flags_setWhole_ip (m : Machine) (v : Int) :
    (m.setWhole "ip" v).get "flags" = m.get "flags" :=
  Machine.get_congr (Machine.whole_setWhole_of_ne (by decide) v)

/-- Only what pushes has bytes in its footprint, and they are the two under the stack pointer. -/
theorem bytes_footprint {i : Instruction} {sp address : Int}
    (h : ∃ b ∈ (i.footprint sp).bytes, address % 0x10000 = b % 0x10000) :
    i.mnemonic ∈ [.push, .call]
      ∧ (address % 0x10000 = sp % 0x10000 ∨ address % 0x10000 = (sp + 1) % 0x10000) := by
  obtain ⟨b, hb, hab⟩ := h
  unfold Instruction.footprint at hb
  cases hm : i.mnemonic with
  | push | call =>
    rw [hm] at hb
    rcases List.mem_pair.1 hb with rfl | rfl
    · exact ⟨by decide, .inl hab⟩
    · exact ⟨by decide, .inr hab⟩
  | _ =>
    rw [hm] at hb
    exact absurd hb List.not_mem_nil

theorem flags_footprint (i : Instruction) (sp : Int) :
    (i.footprint sp).flags ⊆ Machine.flagNames := by
  unfold Instruction.footprint
  split <;> simp

section Step

variable {symbols : SymbolTable} {s : Progress}

/-- A byte that a step changes is written by its instruction. -/
theorem writes_of_ne (hm : s.machine.WellFormed) {r : Record} {address : Int}
    (h : (s.step disabled symbols r).1.machine.memory.read address
      ≠ s.machine.memory.read address) : Writes disabled symbols s r address := by
  rcases step_cases disabled symbols s r with ⟨line, -, hstep⟩ | ⟨effect, henabled, hperform, hstep⟩
  · rw [hstep] at h
    exact absurd rfl h
  · rw [hstep] at h
    obtain ⟨-, sp, hsp, hchanges⟩ := hm.changesOnly_perform hperform
    have hbyte : ∃ b ∈ (r.instruction.footprint sp).bytes, address % 0x10000 = b % 0x10000 := by
      by_contra hno
      exact h (hchanges.memory address fun b hb hab => hno ⟨b, hb, hab⟩)
    obtain ⟨hmnemonic, hat⟩ := bytes_footprint hbyte
    exact ⟨hmnemonic, henabled, effect, sp, hperform, hsp, hat⟩

/-- No step sets a bit of the flags word that is no flag. -/
theorem FlagsOnly.step (h : FlagsOnly s.machine) (hm : s.machine.WellFormed) (r : Record) :
    FlagsOnly (s.step disabled symbols r).1.machine := by
  obtain ⟨v, hv, hbits⟩ := h
  rcases step_cases disabled symbols s r with ⟨line, -, hstep⟩ | ⟨effect, -, hperform, hstep⟩
  · rw [hstep]
    exact ⟨v, (get_flags_setWhole_ip s.machine _).trans hv, hbits⟩
  · rw [hstep]
    obtain ⟨hwell, sp, hsp, hchanges⟩ := hm.changesOnly_perform hperform
    obtain ⟨w, hw, -⟩ := hwell.get (show Machine.IsRegister "flags" by decide)
    refine ⟨w, (get_flags_setWhole_ip effect.machine _).trans hw, fun i hi => ?_⟩
    rw [hchanges.flags v w hv hw i ?_, hbits i hi]
    intro flag hflag hweight
    obtain ⟨k, hk, hpower⟩ := Machine.weight_of_mem_flagNames (flags_footprint _ _ hflag)
    rw [hpower, Option.some.injEq, Nat.pow_right_inj (by decide)] at hweight
    exact hi (hweight ▸ hk)

end Step

/-- A byte that a run changes is written by one of its instructions. -/
theorem exists_writes (limit : Nat) {s : Progress} (hs : s.Operated) {address : Int}
    (h : (run a disabled limit s).machine.memory.read address ≠ s.machine.memory.read address) :
    ∃ x ∈ history a disabled limit s, Writes disabled a.symbols x.1 x.2 address := by
  induction limit generalizing s with
  | zero => exact absurd rfl h
  | succ limit ih =>
    cases hnext : s.next? a with
    | none =>
      rw [run_of_next_none hnext] at h
      exact absurd rfl h
    | some r =>
      rw [history_of_next_some hnext]
      by_cases hfirst : (s.step disabled a.symbols r).1.machine.memory.read address
          = s.machine.memory.read address
      · -- Then it is written later, so the instruction does not halt the program.
        rw [run_of_next_some hnext] at h
        cases hhalts : (s.step disabled a.symbols r).2 with
        | true =>
          rw [hhalts] at h
          exact absurd hfirst h
        | false =>
          rw [hhalts, ← hfirst] at h
          obtain ⟨x, hx, hwrites⟩ := ih (hs.step r) h
          exact ⟨x, List.mem_cons_of_mem _ hx, hwrites⟩
      · exact ⟨(s, r), List.mem_cons_self, writes_of_ne hs.wellFormed hfirst⟩

/-- No run sets a bit of the flags word that is no flag. -/
theorem flagsOnly_run (a : Assembly) (disabled : List Mnemonic) (limit : Nat) :
    FlagsOnly (run a disabled limit .start).machine := by
  have hstart : FlagsOnly start.machine := by
    refine ⟨0, rfl, fun i _ => ?_⟩
    rw [Machine.bit, Int.zero_ediv, Int.zero_emod]
  have hrun : (run a disabled limit .start).Operated
      ∧ FlagsOnly (run a disabled limit .start).machine :=
    run_preserves (P := fun s => s.Operated ∧ FlagsOnly s.machine)
      (fun s r h _ => ⟨h.1.step r, h.2.step h.1.wellFormed r⟩) limit ⟨operated_start, hstart⟩
  exact hrun.2

/-- An instruction changes only what its footprint names, and a jump or an interrupt nothing. So
after any run a byte that is not zero was written by a push or a call, and of the flags register
only the four flags may be set. -/
theorem changesOnly_footprint :
    (∀ (r : Record) (symbols : SymbolTable) (m : Machine) (effect : Effect), m.WellFormed →
        r.perform m symbols = .ok effect →
        (∃ sp, effect.machine.get "sp" = .ok sp
            ∧ m.ChangesOnly effect.machine (r.instruction.footprint sp))
          ∧ (r.instruction.mnemonic ∈ [.jmp, .je, .jne, .int] → effect.machine = m))
      ∧ ∀ (a : Assembly) (disabled : List Mnemonic) (limit : Nat),
        (∀ address, (run a disabled limit .start).machine.memory.read address ≠ 0 →
            ∃ x ∈ history a disabled limit .start, Writes disabled a.symbols x.1 x.2 address)
          ∧ FlagsOnly (run a disabled limit .start).machine := by
  refine ⟨fun r symbols m effect hm h => ⟨(hm.changesOnly_perform h).2, fun hmem => ?_⟩,
    fun a disabled limit => ⟨fun address h => ?_, flagsOnly_run a disabled limit⟩⟩
  · obtain ⟨ops, hchanges, hops⟩ := changes_perform r m symbols effect h
    rw [hchanges.eq_nil hmem] at hops
    exact (Except.ok.inj hops).symm
  · refine exists_writes limit operated_start ?_
    have hzero : start.machine.memory.read address = 0 := Memory.read_zero address
    rwa [hzero]

/-- A move into the low half of a word. -/
def moveIntoHalf : Record where
  address := 0x100
  bytes := [0x88, 0, 5]
  source := "mov al, 5"
  instruction := ⟨1, "mov al, 5", .mov, [.register .al, .immediate 5 .decimal]⟩

/-- A move into the low half leaves the high half as it is. -/
theorem changesOnly_moveIntoHalf :
    ∃ effect, moveIntoHalf.perform .fresh [] = .ok effect ∧ effect.machine.get "ax" = .ok 5
      ∧ effect.machine.get "AH" = Machine.fresh.get "AH" := by
  obtain ⟨effect, heffect⟩ : ∃ effect, moveIntoHalf.perform .fresh [] = .ok effect := ⟨_, rfl⟩
  obtain ⟨⟨sp, -, hchanges⟩, -⟩ :=
    changesOnly_footprint.1 moveIntoHalf [] .fresh effect Machine.wellFormed_fresh heffect
  refine ⟨effect, heffect, ?_, hchanges.registers "AH" (by decide) (by decide) ?_⟩
  · rw [← Except.ok.inj heffect]
    rfl
  · intro changed hchanged
    obtain rfl := List.mem_singleton.1 hchanged
    decide

end Progress

end TurboBench.Asm
