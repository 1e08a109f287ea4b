import TurboBench.Proofs.Asm.BranchTargets

/-!
# Control follows the source

A run goes by addresses: it fetches the record at the instruction pointer, a word that is set
modulo 64 KiB. Here that is turned into a statement about the source (`SourceOrder`): after an
instruction that transfers control nowhere the next record of the source is executed, after a
branch that is taken the first record from the line of its label on, after a return the record at
the popped word, and nothing after the request to end the program.

Two things have to be excluded. A record near the end of the 64 KiB could be followed by one at the
wrapped address; but the wrapped address is at most 2, and the code begins at 100h. A label at
the end of the code stands for an address with no record, so no instruction follows the branch.
-/

set_option autoImplicit false

namespace TurboBench.Asm

open TurboBench.Text (lines)

/-! ## Records by their addresses -/

section Addresses

variable {source : List Char} {r q : Record}

theorem mem_of_recordAt? {a : Assembly} {n : Nat} (h : a.recordAt? n = some q) :
    q ∈ a.records ∧ q.address = n := by
  have haddress := List.find?_some h
  exact ⟨List.mem_of_find?_eq_some h, by exact_mod_cast eq_of_beq haddress⟩

theorem address_bounds (hr : r ∈ (assemble source).records) :
    0x100 ≤ r.address ∧ r.following ≤ 0x100 + (assemble source).codeSize := by
  rw [records_assemble] at hr
  rw [codeSize_assemble]
  exact ⟨le_address_of_mem_recordsFrom _ hr, following_le_of_mem_recordsFrom _ hr⟩

theorem following_bounds (r : Record) : r.address < r.following ∧ r.following ≤ r.address + 3 := by
  have hsize := r.instruction.size_bounds
  simp only [Record.following, Record.size]
  omega

/-- Where a record stands that begins at the end of another: right behind it. -/
theorem row_of_address_eq (hr : r ∈ (assemble source).records)
    (hq : q ∈ (assemble source).records) (h : q.address = r.following) :
    [r, q] <:+: (assemble source).records := by
  obtain ⟨pre, post, hrecords⟩ := List.append_of_mem hr
  cases post with
  | nil =>
    -- The last record ends where the code ends, and `q` would begin there.
    have hlast := following_getLast_assemble source
    rw [hrecords, List.getLast?_append, List.getLast?_singleton, Option.some_or, Option.map_some,
      Option.getD_some] at hlast
    have hload : loadAddress = 0x100 := rfl
    have hend := (address_bounds hq).2
    have hsize := (following_bounds q).1
    omega
  | cons p post =>
    have hrow : [r, p] <:+: (assemble source).records :=
      ⟨pre, post, by rw [hrecords]; simp⟩
    have hp : p ∈ (assemble source).records := hrow.subset (by simp)
    have haddress := address_of_row hrow
    rw [eq_of_address_eq hp hq (by omega)]
    exact hrow

end Addresses

/-! ## Source order -/

/-- Reasons for which a record transfers control nowhere. -/
def FallsThrough (disabled : List Mnemonic) (symbols : SymbolTable) (s : Progress) (r : Record) :
    Prop :=
  r.instruction.mnemonic ∈ disabled
    ∨ (r.instruction.mnemonic.isBranch = false ∧ r.instruction.mnemonic ≠ .ret)
    ∨ (r.instruction.mnemonic.isBranch = true ∧ ¬ s.machine.Takes r.instruction.mnemonic)
    ∨ ∃ e, r.perform s.machine symbols = .error e

/-- The instructions that executing an assembly goes through. -/
def Assembly.executions (a : Assembly) (limits : Limits) (disabled : List Mnemonic) :
    List (Progress × Record) :=
  Progress.history a disabled limits.steps.toNat .start

/-- What it means for control to follow the source. -/
structure SourceOrder (source : List Char) (disabled : List Mnemonic) (limits : Limits) : Prop where
  /-- From an instruction that transfers control nowhere, the next one of the source follows. -/
  onward : ∀ s r t q, [(s, r), (t, q)] <:+: (assemble source).executions limits disabled →
    FallsThrough disabled (assemble source).symbols s r → [r, q] <:+: (assemble source).records
  /-- From a branch that is taken, the first record at or behind the one line with its label. -/
  branch : ∀ s r t q name address,
    [(s, r), (t, q)] <:+: (assemble source).executions limits disabled →
    r.instruction.mnemonic ∉ disabled → s.machine.Takes r.instruction.mnemonic →
    r.instruction.operands = [.label name] → (assemble source).labels.lookup name = some address →
    address < 0x10000 → ∃ n text, (n, text) ∈ numbered 1 (lines source)
      ∧ lineLabel text = some name
      ∧ (∀ m other, (m, other) ∈ numbered 1 (lines source) → lineLabel other = some name → m = n)
      ∧ (assemble source).records.find? (n ≤ ·.line) = some q
  /-- From a return, the record at the word that was on top of the stack. -/
  back : ∀ s r t q, [(s, r), (t, q)] <:+: (assemble source).executions limits disabled →
    r.instruction.mnemonic ∉ disabled → r.instruction.mnemonic = .ret →
    ∃ word after, s.machine.pop = .ok (word, after) ∧ q.address = word
  /-- The request to end the program is the last instruction. -/
  last : ∀ pre s r post, (assemble source).executions limits disabled = pre ++ (s, r) :: post →
    r.instruction.mnemonic ∉ disabled → r.Terminates s.machine → post = []
  /-- The number of instructions that is reported. -/
  executed : ((assemble source).execute limits disabled).executed
    = ((assemble source).executions limits disabled).length
  /-- The trace has one line for each of them, and a line about the limit if it was reached. -/
  output : ((assemble source).execute limits disabled).output
    = (((assemble source).executions limits disabled).map fun x =>
        x.1.line disabled (assemble source).symbols x.2)
      ++ if ((assemble source).execute limits disabled).stepLimitReached
        then [s!"Execution halted: step limit of {limits.steps} instructions reached"] else []

/-! ## Two instructions in a row -/

section Neighbours

variable {source : List Char} {disabled : List Mnemonic} {limits : Limits} {s t : Progress}
  {r q : Record}

/-- What is known of an instruction and the one after it. -/
structure Neighbours (source : List Char) (disabled : List Mnemonic) (s t : Progress)
    (r q : Record) : Prop where
  sound : s.Sound
  fetched : s.next? (assemble source) = some r
  step : s.step disabled (assemble source).symbols r = (t, false)
  next : t.next? (assemble source) = some q

/-- Rows next to each other in the history are a record and the one that is carried out after it. -/
theorem neighbours_of_row
    (h : [(s, r), (t, q)] <:+: (assemble source).executions limits disabled) :
    Neighbours source disabled s t r q := by
  obtain ⟨hsound, hnext⟩ := Progress.sound_of_mem_history (h.subset List.mem_cons_self)
  have hchain : ((assemble source).executions limits disabled).IsChain _ :=
    Progress.isChain_history limits.steps.toNat .start
  have hpair := List.IsChain.infix hchain h
  rw [List.isChain_pair] at hpair
  exact ⟨hsound, hnext, hpair.1, hpair.2⟩

namespace Neighbours

/-- The first of two neighbours is a record of the assembly. -/
theorem mem (h : Neighbours source disabled s t r q) : r ∈ (assemble source).records := by
  obtain ⟨ip, -, hip⟩ := h.sound.pointer
  have hfetched := h.fetched
  rw [Progress.next?, hip] at hfetched
  exact (mem_of_recordAt? hfetched).1

/-- The first of two neighbours lies in memory, since the instruction pointer has led there. -/
theorem address_lt (h : Neighbours source disabled s t r q) : r.address < 0x10000 := by
  obtain ⟨ip, hlt, hip⟩ := h.sound.pointer
  have hfetched := h.fetched
  rw [Progress.next?, hip] at hfetched
  rw [(mem_of_recordAt? hfetched).2]
  exact hlt

/-- The record behind an advance to an address stands at that address, as a word. -/
theorem of_advance (h : Neighbours source disabled s t r q) {m : Machine} {line : String} {ip : Nat}
    {halts : Bool}
    (hstep : s.step disabled (assemble source).symbols r = (s.advance m line ip, halts)) :
    q ∈ (assemble source).records ∧ q.address = ip % 0x10000 := by
  have ht : t = s.advance m line ip := (Prod.mk.inj (h.step.symm.trans hstep)).1
  have hnext := h.next
  rw [ht, Progress.next?_advance] at hnext
  exact mem_of_recordAt? hnext

/-- A step that goes on behind its record leads to the next record of the assembly. -/
theorem onward (h : Neighbours source disabled s t r q) {m : Machine} {line : String}
    {halts : Bool}
    (hstep : s.step disabled (assemble source).symbols r = (s.advance m line r.following, halts)) :
    [r, q] <:+: (assemble source).records := by
  obtain ⟨hq, haddress⟩ := h.of_advance hstep
  have hr := h.address_lt
  have hfollowing := following_bounds r
  have hload := (address_bounds hq).1
  -- An address beyond the memory would wrap to one in front of the code.
  exact row_of_address_eq h.mem hq (by omega)

/-- The target of an instruction that was carried out. -/
theorem target (h : Neighbours source disabled s t r q) {effect : Effect} {target : Nat}
    (henabled : r.instruction.mnemonic ∉ disabled)
    (hperform : r.perform s.machine (assemble source).symbols = .ok effect)
    (htarget : effect.target = some target) :
    q ∈ (assemble source).records ∧ q.address = target % 0x10000 := by
  have hstep := Progress.step_of_ok henabled hperform
  rw [htarget, Option.getD_some] at hstep
  exact h.of_advance hstep

end Neighbours

end Neighbours

/-- A record that falls through has no target. -/
theorem target_of_fallsThrough {disabled : List Mnemonic} {symbols : SymbolTable} {s : Progress}
    {r : Record} {effect : Effect} (henabled : r.instruction.mnemonic ∉ disabled)
    (hperform : r.perform s.machine symbols = .ok effect)
    (h : FallsThrough disabled symbols s r) : effect.target = none := by
  have hleads := (follows_perform r s.machine symbols effect hperform).leads
  rcases h with hdisabled | ⟨hbranch, hret⟩ | ⟨hbranch, hnot⟩ | ⟨e, he⟩
  · exact absurd hdisabled henabled
  · generalize effect.target = target at hleads
    cases hleads with
    | onward | notTaken => rfl
    | taken htakes _ =>
      rw [isBranch_of_takes htakes] at hbranch
      exact absurd hbranch (by decide)
    | back hback _ => exact absurd hback hret
  · generalize effect.target = target at hleads
    cases hleads with
    | onward | notTaken => rfl
    | taken htakes _ => exact absurd htakes hnot
    | back hback _ =>
      rw [hback] at hbranch
      exact absurd hbranch (by decide)
  · rw [he] at hperform
    exact absurd hperform (by simp)

section Order

variable {source : List Char} {disabled : List Mnemonic} {limits : Limits} {s t : Progress}
  {r q : Record}

/-- An instruction that falls through leads to the next record of the assembly. -/
theorem row_of_fallsThrough (h : Neighbours source disabled s t r q)
    (hfalls : FallsThrough disabled (assemble source).symbols s r) :
    [r, q] <:+: (assemble source).records := by
  rcases Progress.step_cases disabled (assemble source).symbols s r with
    ⟨line, -, hstep⟩ | ⟨effect, henabled, hperform, hstep⟩
  · exact h.onward hstep
  · rw [target_of_fallsThrough henabled hperform hfalls, Option.getD_none] at hstep
    exact h.onward hstep

/-- A branch that is taken leads to the record at the address of its label. -/
theorem address_of_taken (h : Neighbours source disabled s t r q)
    (henabled : r.instruction.mnemonic ∉ disabled)
    (htakes : s.machine.Takes r.instruction.mnemonic) {name : String} {address : Nat}
    (hop : r.instruction.operands = [.label name])
    (hlabel : (assemble source).labels.lookup name = some address) :
    q ∈ (assemble source).records ∧ q.address = address % 0x10000 := by
  have hresolved : branchTarget (assemble source).symbols r.instruction.operands = .ok address := by
    rw [hop, branchTarget_label, lookup_symbols_of_label hlabel]
  obtain ⟨effect, hperform, htarget, -⟩ := perform_of_takes h.sound.complete htakes hresolved
  exact h.target henabled hperform htarget

/-- The record at the address of a label is the first one from the line of the label on. -/
theorem find?_of_label_address (hq : q ∈ (assemble source).records) {n address : Nat}
    (hplace : address = (((assemble source).records.find? (n ≤ ·.line)).map (·.address)).getD
      (0x100 + (assemble source).codeSize))
    (haddress : q.address = address) :
    (assemble source).records.find? (n ≤ ·.line) = some q := by
  cases hfind : (assemble source).records.find? (n ≤ ·.line) with
  | none =>
    -- Such a label stands at the end of the code, where no record begins.
    rw [hfind, Option.map_none, Option.getD_none] at hplace
    have hend := (address_bounds hq).2
    have hsize := (following_bounds q).1
    omega
  | some p =>
    rw [hfind, Option.map_some, Option.getD_some] at hplace
    have hp := List.mem_of_find?_eq_some hfind
    rw [eq_of_address_eq hp hq (haddress.trans hplace)]

/-- A return leads to the record at the address on the stack. -/
theorem address_of_ret (h : Neighbours source disabled s t r q)
    (henabled : r.instruction.mnemonic ∉ disabled) (hret : r.instruction.mnemonic = .ret) :
    ∃ word after, s.machine.pop = .ok (word, after) ∧ q.address = word := by
  obtain ⟨word, after, hpop⟩ := h.sound.complete.pop_eq
  have hperform : r.perform s.machine (assemble source).symbols
      = .ok ⟨after, "RET executed", some word, false⟩ := by
    unfold Record.perform
    simp only [hret, hpop]
    rfl
  have haddress := (h.target henabled hperform rfl).2
  refine ⟨word, after, hpop, ?_⟩
  rw [haddress, Nat.mod_eq_of_lt (Machine.pop_lt hpop)]

/-- The service that ends a program halts the run. -/
theorem halts_of_terminates {a : Assembly} (henabled : r.instruction.mnemonic ∉ disabled)
    (h : r.Terminates s.machine) : (s.step disabled a.symbols r).2 = true := by
  obtain ⟨hint, hvector, hservice⟩ := h
  have hperform : r.perform s.machine a.symbols
      = .ok ⟨s.machine, "INT 21h - DOS interrupt executed", none, true⟩ := by
    unfold Record.perform
    simp only [hint, hvector, hservice]
    rfl
  rw [Progress.step_of_ok henabled hperform]

/-- **Control follows the source**, in every run of every source without errors. -/
theorem sourceOrder_assemble (h : (assemble source).success = true) (disabled : List Mnemonic)
    (limits : Limits) : SourceOrder source disabled limits := by
  obtain ⟨hexecuted, htrace⟩ :=
    Progress.run_eq_history (assemble source) disabled limits.steps.toNat .start
  refine ⟨?_, ?_, ?_, ?_, ?_, ?_⟩
  · intro s r t q hrow hfalls
    exact row_of_fallsThrough (neighbours_of_row hrow) hfalls
  · intro s r t q name address hrow henabled htakes hop hlabel hlt
    obtain ⟨hq, haddress⟩ :=
      address_of_taken (neighbours_of_row hrow) henabled htakes hop hlabel
    rw [Nat.mod_eq_of_lt hlt] at haddress
    obtain ⟨pre, post, hlabels, -⟩ := List.lookup_eq_some_iff.1 hlabel
    have hmem : (name, address) ∈ (assemble source).labels := by
      rw [hlabels]
      exact List.mem_append_right pre List.mem_cons_self
    obtain ⟨n, text, hn, hname, -, -, hplace⟩ := label_placed hmem
    refine ⟨n, text, hn, hname, ?_, find?_of_label_address hq hplace haddress⟩
    intro m other hm hother
    exact line_of_label_unique h hm hn hother hname
  · intro s r t q hrow henabled hret
    exact address_of_ret (neighbours_of_row hrow) henabled hret
  · intro pre s r post hlist henabled hends
    -- An instruction behind it would have been reached by a step that does not halt.
    cases post with
    | nil => rfl
    | cons x post =>
      have hrow : [(s, r), x] <:+: (assemble source).executions limits disabled :=
        ⟨pre, post, by rw [hlist]; simp⟩
      have hstep := (neighbours_of_row hrow).step
      have hhalts := halts_of_terminates (a := assemble source) henabled hends
      rw [hstep] at hhalts
      exact absurd hhalts (by simp)
  · rw [executed_execute h, hexecuted]
    exact Nat.zero_add _
  · rw [Assembly.execute, if_pos h]
    simp only
    rw [htrace]
    rfl

end Order

/-- A program that counts down in a loop and then ends itself. -/
def countdown : List Char :=
  "mov cx, 2\nagain: sub cx, 1\njne again\nmov ah, 4Ch\nint 21h\nret".toList

theorem sourceOrder_countdown :
    (assemble countdown).success = true ∧ SourceOrder countdown [] ⟨100, 256⟩ := by
  have hsuccess : (assemble countdown).success = true := by decide +kernel
  exact ⟨hsuccess, sourceOrder_assemble hsuccess [] ⟨100, 256⟩⟩

end TurboBench.Asm
