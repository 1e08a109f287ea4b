import Mathlib.Data.List.Infix
import TurboBench.Proofs.Asm.History

/-!
# The stack

The stack pointer is a word, but otherwise it may be anything: odd, so that words lie across the
end of the memory, or so small that the stack goes on at its other end. Pushing and popping only
compute modulo the size of the memory, so this makes no difference. As long as no more than 0x8000
words are on the stack, no two of them have a byte in common, and that is all that the statements
below rest on.

There are two of them. Words that are pushed are popped in the opposite order, and meanwhile nothing
is written but the bytes below the pointer (`Machine.PointsTo.popTimes_pushes`). And between a call
and its return, instructions that leave the stack as deep as they found it do not reach the return
address (`Progress.pointsTo_after`): each of them moves the pointer by what it puts on the stack,
and a word that is put there lies below the return address by less than the size of the memory.

Instructions that compute with the stack pointer have to be left out, but no other is: nothing
except a push and a call writes to the memory.
-/

set_option autoImplicit false

namespace TurboBench.Asm

/-! ## Words in the memory -/

namespace Memory

/-- Addresses are those of one cell if they agree modulo the size of the memory. -/
theorem address_eq_iff {a b : Int} : address a = address b ↔ a % 0x10000 = b % 0x10000 := by
  rw [Fin.ext_iff]
  simp only [address, memorySize]
  omega

/-- Writing a word leaves every byte but the two of the word. -/
theorem read_writeWord_of_ne (m : Memory) {a b : Int} (v : Int)
    (hlow : b % 0x10000 ≠ a % 0x10000) (hhigh : b % 0x10000 ≠ (a + 1) % 0x10000) :
    (m.writeWord a v).read b = m.read b := by
  rw [writeWord, read_write_of_ne, read_write_of_ne]
  · exact fun h => hlow (address_eq_iff.1 h)
  · exact fun h => hhigh (address_eq_iff.1 h)

/-- A word is what its two bytes are. -/
theorem readWord_congr {m n : Memory} {a b : Int} (hlow : m.read a = n.read b)
    (hhigh : m.read (a + 1) = n.read (b + 1)) : m.readWord a = n.readWord b := by
  rw [readWord, readWord, hlow, hhigh]

end Memory

/-! ## The pointer -/

namespace RegisterFile

/-- Only the last value that a register is set to counts. -/
theorem set_set (rs : RegisterFile) (name : String) (v w : Int) :
    (rs.set name v).set name w = rs.set name w := by
  induction rs with
  | nil => simp [set]
  | cons r rs ih =>
    obtain ⟨n, u⟩ := r
    by_cases hn : n = name
    · simp only [set, if_pos hn]
    · simp only [set, if_neg hn, ih]

/-- Setting a register to the value that it has changes nothing. -/
theorem set_of_lookup {rs : RegisterFile} {name : String} {v : Int}
    (h : rs.lookup name = some v) : rs.set name v = rs := by
  induction rs with
  | nil => exact absurd h (by simp)
  | cons r rs ih =>
    obtain ⟨n, u⟩ := r
    by_cases hn : n = name
    · rw [hn, List.lookup_cons_self] at h
      rw [set, if_pos hn, Option.some.inj h]
    · have hne : (name == n) = false := by simpa using Ne.symm hn
      rw [List.lookup_cons, hne] at h
      rw [set, if_neg hn, ih h]

end RegisterFile

namespace Machine

/-- The machines that operations lead to from a fresh one. Operations that only read leave the
machine as it is, and a reset leads back to the fresh one. -/
inductive Reached : Machine → Prop where
  | fresh : Reached fresh
  | set {m after : Machine} {name : String} {v : Int} (h : m.Reached)
      (hset : m.set name v = .ok after) : after.Reached
  | setFlag {m after : Machine} {flag : String} {on : Bool} (h : m.Reached)
      (hset : m.setFlag flag on = .ok after) : after.Reached
  | writeWord {m : Machine} (a v : Int) (h : m.Reached) :
      Reached ⟨m.registers, m.memory.writeWord a v⟩
  | push {m after : Machine} {v : Int} (h : m.Reached) (hpush : m.push v = .ok after) :
      after.Reached
  | pop {m after : Machine} {word : Nat} (h : m.Reached) (hpop : m.pop = .ok (word, after)) :
      after.Reached

/-- The stack pointer of a machine. It is a word. -/
structure PointsTo (m : Machine) (sp : Int) : Prop where
  lookup : m.registers.lookup "sp" = some sp
  nonneg : 0 ≤ sp
  lt : sp < 0x10000

section Pointer

variable {m after : Machine} {sp : Int}

theorem pointsTo_fresh : fresh.PointsTo stackTop :=
  ⟨by decide, by decide, by decide⟩

theorem PointsTo.whole (h : m.PointsTo sp) : m.whole "sp" = .ok sp := by
  rw [Machine.whole, h.lookup]

theorem PointsTo.get (h : m.PointsTo sp) : m.get "sp" = .ok sp :=
  (get_eq_whole (by decide) m).trans h.whole

/-- The pointer is a matter of the registers alone. -/
theorem PointsTo.of_registers (h : m.PointsTo sp) (hregisters : after.registers = m.registers) :
    after.PointsTo sp :=
  ⟨by rw [hregisters, h.lookup], h.nonneg, h.lt⟩

theorem pointsTo_set (rs : RegisterFile) (memory : Memory) (v : Int) :
    PointsTo ⟨rs.set "sp" (v % 0x10000), memory⟩ (v % 0x10000) :=
  ⟨RegisterFile.lookup_set_self rs "sp" _, by omega, by omega⟩

theorem PointsTo.setWhole_of_ne (h : m.PointsTo sp) {name : String} (hname : name ≠ "sp")
    (v : Int) : (m.setWhole name v).PointsTo sp := by
  refine ⟨?_, h.nonneg, h.lt⟩
  rw [setWhole, RegisterFile.lookup_set_of_ne _ _ hname.symm, h.lookup]

theorem word_ne_sp {name word : String} {high : Bool} (h : byteHalf? name = some (word, high)) :
    word ≠ "sp" := by
  unfold byteHalf? at h
  split at h <;> simp at h <;> rw [← h.1] <;> decide

/-- Setting a register sets one whole register; the stack pointer only under its own name. -/
theorem setWhole_of_set {name : String} {v : Int} (h : m.set name v = .ok after) :
    after = m.setWhole "sp" (v % 0x10000) ∧ foldRegister name = "sp"
      ∨ ∃ word w, word ≠ "sp" ∧ after = m.setWhole word w := by
  unfold Machine.set at h
  simp only at h
  split at h
  · next word high hhalf =>
    right
    cases hold : m.whole word with
    | error e =>
      rw [hold] at h
      exact absurd h (by simp [Bind.bind, Except.bind])
    | ok old =>
      rw [hold] at h
      exact ⟨word, _, word_ne_sp hhalf, (Except.ok.inj h).symm⟩
  · by_cases hname : foldRegister name = "sp"
    · left
      rw [hname] at h
      exact ⟨(Except.ok.inj h).symm, hname⟩
    · right
      exact ⟨foldRegister name, _, hname, (Except.ok.inj h).symm⟩

/-- Setting a flag writes the flags word only, which leaves the stack alone. -/
theorem setWhole_of_setFlag {flag : String} {on : Bool} (h : m.setFlag flag on = .ok after) :
    ∃ w, after = m.setWhole "flags" w := by
  unfold Machine.setFlag at h
  split at h
  · exact absurd h (by simp)
  · cases hflags : m.whole "flags" with
    | error e =>
      rw [hflags] at h
      exact absurd h (by simp [Bind.bind, Except.bind])
    | ok flags =>
      rw [hflags] at h
      by_cases hon : on = true
      · rw [hon] at h
        exact ⟨_, (Except.ok.inj h).symm⟩
      · rw [Bool.not_eq_true] at hon
        rw [hon] at h
        exact ⟨_, (Except.ok.inj h).symm⟩

theorem PointsTo.setFlag (h : m.PointsTo sp) {flag : String} {on : Bool}
    (hset : m.setFlag flag on = .ok after) : after.PointsTo sp := by
  obtain ⟨w, rfl⟩ := setWhole_of_setFlag hset
  exact h.setWhole_of_ne (by decide) w

/-! What a push and a pop do, where the pointer is known. -/

theorem PointsTo.push_eq (h : m.PointsTo sp) (v : Int) :
    m.push v = .ok ⟨m.registers.set "sp" ((sp - 2) % 0x10000),
      m.memory.writeWord ((sp - 2) % 0x10000) v⟩ := by
  rw [Machine.push, h.whole]
  rfl

theorem PointsTo.pop_eq (h : m.PointsTo sp) :
    m.pop = .ok (m.memory.readWord sp, m.setWhole "sp" ((sp + 2) % 0x10000)) := by
  rw [Machine.pop, h.whole]
  rfl

/-- No operation loses the stack pointer. -/
theorem Reached.pointsTo (h : m.Reached) : ∃ sp, m.PointsTo sp := by
  induction h with
  | fresh => exact ⟨_, pointsTo_fresh⟩
  | set _ hset ih =>
    obtain ⟨sp, hm⟩ := ih
    rcases setWhole_of_set hset with ⟨rfl, -⟩ | ⟨word, w, hword, rfl⟩
    · exact ⟨_, pointsTo_set _ _ _⟩
    · exact ⟨sp, hm.setWhole_of_ne hword w⟩
  | setFlag _ hset ih =>
    obtain ⟨sp, hm⟩ := ih
    exact ⟨sp, hm.setFlag hset⟩
  | writeWord a v _ ih =>
    obtain ⟨sp, hm⟩ := ih
    exact ⟨sp, hm.of_registers rfl⟩
  | push _ hpush ih =>
    obtain ⟨sp, hm⟩ := ih
    rw [hm.push_eq] at hpush
    rw [← Except.ok.inj hpush]
    exact ⟨_, pointsTo_set _ _ _⟩
  | pop _ hpop ih =>
    obtain ⟨sp, hm⟩ := ih
    rw [hm.pop_eq] at hpop
    obtain ⟨-, rfl⟩ := Prod.mk.inj (Except.ok.inj hpop)
    exact ⟨_, pointsTo_set _ _ _⟩

end Pointer

/-! ## Last in, first out -/

/-- The words on top of the stack, the topmost first, and the machine after they were taken off. -/
def popTimes : Nat → Machine → Except UnknownName (List Nat × Machine)
  | 0, m => .ok ([], m)
  | n + 1, m => do
    let (word, m) ← m.pop
    let (words, m) ← popTimes n m
    return (word :: words, m)

/-- The addresses of the bytes of so many words just below an address. -/
def Below (sp : Int) (words : Nat) (a : Int) : Prop :=
  ∃ i : Int, 1 ≤ i ∧ i ≤ 2 * words ∧ a % 0x10000 = (sp - i) % 0x10000

section Pops

variable {m after last : Machine} {sp : Int}

/-- Taking one word more off. -/
theorem popTimes_succ {n : Nat} {words : List Nat} {word : Nat}
    (h : popTimes n m = .ok (words, after)) (hpop : after.pop = .ok (word, last)) :
    popTimes (n + 1) m = .ok (words ++ [word], last) := by
  -- By induction on the words that are taken off first, since `popTimes` takes from the front.
  induction n generalizing m words with
  | zero =>
    obtain ⟨rfl, rfl⟩ := Prod.mk.inj (Except.ok.inj h)
    rw [popTimes, hpop]
    rfl
  | succ n ih =>
    rw [popTimes] at h ⊢
    cases hfirst : m.pop with
    | error e =>
      rw [hfirst] at h
      exact absurd h (by simp [Bind.bind, Except.bind])
    | ok p =>
      obtain ⟨first, m1⟩ := p
      rw [hfirst] at h
      cases hrest : popTimes n m1 with
      | error e =>
        simp only [Bind.bind, Except.bind, hrest] at h
        exact absurd h (by simp)
      | ok q =>
        obtain ⟨rest, m2⟩ := q
        simp only [Bind.bind, Except.bind, hrest] at h
        obtain ⟨rfl, rfl⟩ := Prod.mk.inj (Except.ok.inj h)
        simp only [Bind.bind, Except.bind, ih hrest]
        rfl

theorem Below.pushed {words : Nat} {a : Int} (h : Below ((sp - 2) % 0x10000) words a) :
    Below sp (words + 1) a := by
  obtain ⟨i, hlow, hhigh, ha⟩ := h
  refine ⟨i + 2, by omega, by omega, ?_⟩
  omega

/-- The word at an address is not among the words below it, unless these fill the memory. -/
theorem not_below_self (sp : Int) {words : Nat} (h : words < 0x8000) :
    ¬ Below sp words sp ∧ ¬ Below sp words (sp + 1) := by
  constructor
  · rintro ⟨i, hlow, hhigh, ha⟩
    omega
  · rintro ⟨i, hlow, hhigh, ha⟩
    omega

/-- Words that were pushed are popped in the opposite order. The registers are as they were, and
so is the memory, but for the bytes below the stack pointer. -/
theorem PointsTo.popTimes_pushes (h : m.PointsTo sp) (vs : List Int) (hvs : vs.length ≤ 0x8000) :
    ∃ full memory, vs.foldlM Machine.push m = .ok full
      ∧ popTimes vs.length full
        = .ok ((vs.map fun v => (v % 0x10000).toNat).reverse, ⟨m.registers, memory⟩)
      ∧ ∀ a, ¬ Below sp vs.length a → memory.read a = m.memory.read a := by
  induction vs generalizing m sp with
  | nil => exact ⟨m, m.memory, rfl, rfl, fun a _ => rfl⟩
  | cons v vs ih =>
    rw [List.length_cons] at hvs ⊢
    set top := (sp - 2) % 0x10000 with htop
    set pushed : Machine := ⟨m.registers.set "sp" top, m.memory.writeWord top v⟩ with hpushed
    have hpoints : pushed.PointsTo top := pointsTo_set _ _ _
    obtain ⟨full, memory, hfull, hpops, hmemory⟩ := ih hpoints (by omega)
    -- The word that was pushed first has not been touched by the others.
    have hword : memory.readWord top = (v % 0x10000).toNat := by
      obtain ⟨hlow, hhigh⟩ := not_below_self top (show vs.length < 0x8000 by omega)
      rw [Memory.readWord_congr (hmemory _ hlow) (hmemory _ hhigh)]
      exact Memory.readWord_writeWord_self _ _ _
    have hback : (top + 2) % 0x10000 = sp := by
      have := h.nonneg
      have := h.lt
      omega
    have hlast : Machine.pop ⟨pushed.registers, memory⟩
        = .ok ((v % 0x10000).toNat, ⟨m.registers, memory⟩) := by
      have hpointer : PointsTo ⟨pushed.registers, memory⟩ top := hpoints.of_registers rfl
      rw [hpointer.pop_eq, hword, hback, setWhole, RegisterFile.set_set,
        RegisterFile.set_of_lookup h.lookup]
    refine ⟨full, memory, ?_, ?_, ?_⟩
    · rw [List.foldlM_cons, h.push_eq v]
      exact hfull
    · rw [List.map_cons, List.reverse_cons]
      exact popTimes_succ hpops hlast
    · intro a ha
      rw [hmemory a fun hbelow => ha hbelow.pushed]
      apply Memory.read_writeWord_of_ne
      · exact fun he => ha ⟨2, by omega, by omega, by omega⟩
      · exact fun he => ha ⟨1, by omega, by omega, by omega⟩

end Pops

end Machine

/-! ## What an instruction does to the stack -/

/-- How many words an instruction with the mnemonic puts on the stack; it puts on minus one word if
it takes one off. -/
def Mnemonic.stackUse : Mnemonic → Int
  | .push | .call => 1
  | .pop | .ret => -1
  | _ => 0

/-- Whether a record asks for the stack pointer to be set to a value of its own. -/
def Record.SetsPointer (r : Record) : Prop :=
  r.instruction.mnemonic ∈ [.mov, .add, .sub, .pop]
    ∧ r.instruction.operands.head? = some (.register .sp)

instance (r : Record) : Decidable r.SetsPointer :=
  inferInstanceAs (Decidable (_ ∧ _))

/-- What an instruction does to the stack: it leaves it alone, puts a word on it, or takes one
off. -/
inductive Machine.Stacks (m : Machine) (sp : Int) : Int → Machine → Prop where
  | keeps {after : Machine} (hpoints : after.PointsTo sp) (hmemory : after.memory = m.memory) :
      Stacks m sp 0 after
  | puts {after : Machine} (v : Int) (hpoints : after.PointsTo ((sp - 2) % 0x10000))
      (hmemory : after.memory = m.memory.writeWord ((sp - 2) % 0x10000) v) : Stacks m sp 1 after
  | takes {after : Machine} (hpoints : after.PointsTo ((sp + 2) % 0x10000))
      (hmemory : after.memory = m.memory) : Stacks m sp (-1) after

open Machine (Operation applyAll setFlags)

section Perform

variable {m after last : Machine} {sp : Int} {symbols : SymbolTable}

theorem Machine.PointsTo.puts (h : m.PointsTo sp) {v : Int} (hpush : m.push v = .ok after) :
    m.Stacks sp 1 after := by
  rw [h.push_eq] at hpush
  rw [← Except.ok.inj hpush]
  exact .puts v (Machine.pointsTo_set _ _ _) rfl

theorem Machine.PointsTo.takes (h : m.PointsTo sp) {word : Nat}
    (hpop : m.pop = .ok (word, after)) : m.Stacks sp (-1) after := by
  rw [h.pop_eq] at hpop
  obtain ⟨-, rfl⟩ := Prod.mk.inj (Except.ok.inj hpop)
  exact .takes (Machine.pointsTo_set _ _ _) rfl

/-- Registers other than the stack pointer do not matter to the stack. -/
theorem Machine.Stacks.setWhole {use : Int} (h : m.Stacks sp use after) {name : String}
    (hname : name ≠ "sp") (v : Int) : m.Stacks sp use (after.setWhole name v) := by
  cases h with
  | keeps hpoints hmemory => exact .keeps (hpoints.setWhole_of_ne hname v) hmemory
  | puts w hpoints hmemory => exact .puts w (hpoints.setWhole_of_ne hname v) hmemory
  | takes hpoints hmemory => exact .takes (hpoints.setWhole_of_ne hname v) hmemory

theorem Machine.Stacks.setFlag {use : Int} (h : m.Stacks sp use after) {flag : String} {on : Bool}
    (hset : after.setFlag flag on = .ok last) : m.Stacks sp use last := by
  obtain ⟨w, rfl⟩ := setWhole_of_setFlag hset
  exact h.setWhole (by decide) w

theorem Register.fold_name_eq_sp {r : Register} (h : Machine.foldRegister r.name = "sp") :
    r = .sp := by
  revert h
  cases r <;> decide

theorem Machine.Stacks.set {use : Int} (h : m.Stacks sp use after) {register : Register}
    (hregister : register ≠ .sp) {v : Int} (hset : after.set register.name v = .ok last) :
    m.Stacks sp use last := by
  rcases setWhole_of_set hset with ⟨-, hname⟩ | ⟨word, w, hword, rfl⟩
  · exact absurd (Register.fold_name_eq_sp hname) hregister
  · exact h.setWhole hword w

/-- Setting the flags of a result leaves the stack alone. -/
theorem Machine.Stacks.setFlags {use : Int} (h : m.Stacks sp use after)
    (zero sign carry overflow : Bool) :
    Yields (applyAll (setFlags zero sign carry overflow) after) (m.Stacks sp use) := by
  refine Machine.yields_applyAll (fun op hop n hn next hnext => ?_) h
  obtain ⟨flag, on, rfl⟩ : ∃ flag on, op = .setFlag flag on := by
    simp only [Machine.setFlags, List.mem_cons, List.not_mem_nil, or_false] at hop
    rcases hop with rfl | rfl | rfl | rfl <;> exact ⟨_, _, rfl⟩
  have hset : n.setFlag flag on = .ok next := hnext
  exact hn.setFlag hset

/-- What the operations of an instruction do to the stack depends on its mnemonic alone, provided
that it does not set the pointer. -/
theorem Instruction.Changes.stacks {i : Instruction} {ops : List Operation} (h : i.Changes ops)
    (hm : m.PointsTo sp) (hpointer : i.mnemonic ∈ [.mov, .add, .sub, .pop] →
      i.operands.head? ≠ some (.register .sp)) :
    Yields (applyAll ops m) (m.Stacks sp i.mnemonic.stackUse) := by
  have hkeeps : m.Stacks sp 0 m := .keeps hm rfl
  have hpop : Yields (Operation.pop.apply m) (m.Stacks sp (-1)) :=
    Yields.map fun p hp => hm.takes hp
  -- In the three kinds that end with setting a register, it is not the stack pointer.
  have hset {use : Int} {register : Register} {v : Int}
      (hmem : i.mnemonic ∈ [.mov, .add, .sub, .pop])
      (hhead : i.operands.head? = some (.register register)) (n : Machine)
      (hn : m.Stacks sp use n) : Yields (applyAll [.set register.name v] n) (m.Stacks sp use) := by
    have hsp : register ≠ .sp := by
      rintro rfl
      exact hpointer hmem hhead
    rw [Machine.applyAll_singleton]
    exact fun last hlast => hn.set hsp hlast
  cases h with
  | moves hmov hhead =>
    rw [hmov]
    exact hset (by simp [hmov]) hhead m hkeeps
  | computes hmem hhead =>
    have hmem' : i.mnemonic ∈ [.mov, .add, .sub, .pop] := by
      rcases List.mem_pair.1 hmem with hm | hm <;> simp [hm]
    have huse : i.mnemonic.stackUse = 0 := by
      rcases List.mem_pair.1 hmem with hm | hm <;> rw [hm] <;> rfl
    rw [huse]
    exact Machine.yields_append (hkeeps.setFlags _ _ _ _) (hset hmem' hhead)
  | compares hcmp =>
    rw [hcmp]
    exact hkeeps.setFlags _ _ _ _
  | nothing hmem =>
    have huse : ∀ mnemonic : Mnemonic, mnemonic ∈ [.jmp, .je, .jne, .int] →
        mnemonic.stackUse = 0 := by decide
    rw [huse _ hmem]
    exact yields_pure hkeeps
  | puts hmem =>
    have huse : ∀ mnemonic : Mnemonic, mnemonic ∈ [.push, .call] → mnemonic.stackUse = 1 := by
      decide
    rw [huse _ hmem, Machine.applyAll_singleton]
    exact fun after hafter => hm.puts hafter
  | returns hret =>
    rw [hret, Machine.applyAll_singleton]
    exact hpop
  | takes hmpop hhead =>
    rw [hmpop]
    rw [← Machine.applyAll_singleton] at hpop
    exact Machine.yields_append hpop (hset (by simp [hmpop]) hhead)

/-- What an instruction does to the stack depends on its mnemonic alone, provided that it does not
set the pointer. -/
theorem Machine.PointsTo.perform (h : m.PointsTo sp) {r : Record} (hr : ¬ r.SetsPointer) :
    Yields (r.perform m symbols) fun effect =>
      m.Stacks sp r.instruction.mnemonic.stackUse effect.machine := by
  intro effect heffect
  obtain ⟨ops, hchanges, hops⟩ := changes_perform r m symbols effect heffect
  exact hchanges.stacks h (fun hmem hhead => hr ⟨hmem, hhead⟩) effect.machine hops

end Perform

/-! ## From a call to its return -/

namespace Progress

section Runs

variable (disabled : List Mnemonic) (symbols : SymbolTable)

/-- How many words a record puts on the stack. Records that are passed over put on none. -/
def stackUse (s : Progress) (r : Record) : Int :=
  if r.instruction.mnemonic ∈ disabled then 0
  else
    match r.perform s.machine symbols with
    | .error _ => 0
    | .ok _ => r.instruction.mnemonic.stackUse

/-- Whether a record is carried out and sets the stack pointer to a value of its own. -/
def SetsPointer (s : Progress) (r : Record) : Prop :=
  r.SetsPointer ∧ r.instruction.mnemonic ∉ disabled ∧ (r.perform s.machine symbols).isOk = true

/-- The state after records, one after the other. -/
def after (s : Progress) (rs : List Record) : Progress :=
  rs.foldl (fun s r => (s.step disabled symbols r).1) s

/-- How many words records put on the stack, one after the other. -/
def depth : Progress → List Record → Int
  | _, [] => 0
  | s, r :: rs => s.stackUse disabled symbols r + depth (s.step disabled symbols r).1 rs

/-- Records between a call and its return: they leave the stack as deep as they found it, never
take off what they did not put there, and with the return address there are never more than 0x8000
words on the stack. None of them sets the stack pointer. -/
structure Balanced (s : Progress) (rs : List Record) : Prop where
  even : s.depth disabled symbols rs = 0
  nonneg : ∀ front, front <+: rs → 0 ≤ s.depth disabled symbols front
  le : ∀ front, front <+: rs → s.depth disabled symbols front + 1 ≤ 0x8000
  keepsPointer : ∀ front r, front ++ [r] <+: rs →
    ¬ (s.after disabled symbols front).SetsPointer disabled symbols r

end Runs

variable {disabled : List Mnemonic} {symbols : SymbolTable} {s : Progress} {sp : Int}

/-- A step moves the stack pointer by what its record puts on the stack. -/
theorem stacks_step (h : s.machine.PointsTo sp) {r : Record}
    (hr : ¬ s.SetsPointer disabled symbols r) :
    s.machine.Stacks sp (s.stackUse disabled symbols r) (s.step disabled symbols r).1.machine := by
  have hip : ("ip" : String) ≠ "sp" := by decide
  have hkeeps : s.machine.Stacks sp 0 s.machine := .keeps h rfl
  unfold stackUse
  by_cases hdisabled : r.instruction.mnemonic ∈ disabled
  · rw [if_pos hdisabled, step_of_disabled hdisabled]
    exact hkeeps.setWhole hip _
  · rw [if_neg hdisabled]
    cases hperform : r.perform s.machine symbols with
    | error e =>
      rw [step_of_error hdisabled hperform]
      exact hkeeps.setWhole hip _
    | ok effect =>
      have hkeepsPointer : ¬ r.SetsPointer := by
        intro hsets
        exact hr ⟨hsets, hdisabled, by rw [hperform]; rfl⟩
      rw [step_of_ok hdisabled hperform]
      exact (h.perform hkeepsPointer effect hperform).setWhole hip _

theorem after_append_singleton (s : Progress) (rs : List Record) (r : Record) :
    s.after disabled symbols (rs ++ [r])
      = ((s.after disabled symbols rs).step disabled symbols r).1 := by
  rw [after, after, List.foldl_append]
  rfl

/-- One more record adds what it uses of the stack where it is carried out. -/
theorem depth_append_singleton (s : Progress) (rs : List Record) (r : Record) :
    s.depth disabled symbols (rs ++ [r])
      = s.depth disabled symbols rs
        + (s.after disabled symbols rs).stackUse disabled symbols r := by
  induction rs generalizing s with
  | nil => simp [depth, after]
  | cons q rs ih =>
    rw [List.cons_append, depth, depth, ih]
    rw [after, after, List.foldl_cons]
    omega

/-- Records that do not go below the top of the stack, nor around the memory, move the stack pointer
by twice the words that they put on the stack, and do not touch the word at the top. -/
theorem pointsTo_after (h : s.machine.PointsTo sp) {rs : List Record}
    (hkeeps : ∀ front r, front ++ [r] <+: rs →
      ¬ (s.after disabled symbols front).SetsPointer disabled symbols r)
    (hdepth : ∀ front, front <+: rs → 0 ≤ s.depth disabled symbols front
      ∧ s.depth disabled symbols front + 1 ≤ 0x8000) :
    (s.after disabled symbols rs).machine.PointsTo
        ((sp - 2 * s.depth disabled symbols rs) % 0x10000)
      ∧ (s.after disabled symbols rs).machine.memory.readWord sp
        = s.machine.memory.readWord sp := by
  -- The list grows at its end, where the step is taken.
  induction rs using List.reverseRecOn with
  | nil =>
    have hsame : (sp - 2 * s.depth disabled symbols []) % 0x10000 = sp := by
      have := h.nonneg
      have := h.lt
      rw [depth]
      omega
    rw [hsame]
    exact ⟨h, rfl⟩
  | append_singleton rs r ih =>
    obtain ⟨hpoints, hword⟩ := ih
      (fun front q hfront => hkeeps front q (hfront.trans (List.prefix_append _ _)))
      fun front hfront => hdepth front (hfront.trans (List.prefix_append _ _))
    have hbefore := hdepth rs (List.prefix_append _ _)
    have hafter := hdepth (rs ++ [r]) (List.prefix_refl _)
    have hstep := stacks_step hpoints (hkeeps rs r (List.prefix_refl _))
    rw [after_append_singleton, ← hword]
    rw [depth_append_singleton] at hafter ⊢
    set d := s.depth disabled symbols rs
    -- What is put on the stack lies between one word and the whole memory below the top.
    generalize (s.after disabled symbols rs).stackUse disabled symbols r = use at hstep hafter ⊢
    cases hstep with
    | keeps hlast hmemory =>
      rw [hmemory, Int.add_zero]
      exact ⟨hlast, rfl⟩
    | puts v hlast hmemory =>
      have hpointer : ((sp - 2 * d) % 0x10000 - 2) % 0x10000 = (sp - 2 * (d + 1)) % 0x10000 := by
        omega
      rw [hpointer] at hlast hmemory
      refine ⟨hlast, ?_⟩
      rw [hmemory]
      apply Memory.readWord_congr
      · apply Memory.read_writeWord_of_ne
        · omega
        · omega
      · apply Memory.read_writeWord_of_ne
        · omega
        · omega
    | takes hlast hmemory =>
      have hpointer : ((sp - 2 * d) % 0x10000 + 2) % 0x10000 = (sp - 2 * (d + -1)) % 0x10000 := by
        omega
      rw [hpointer] at hlast
      rw [hmemory]
      exact ⟨hlast, rfl⟩

/-- A call leaves its return address on top of the stack. -/
theorem call_step (h : s.machine.PointsTo sp) {c : Record}
    (hcall : c.instruction.mnemonic = .call) (hdisabled : Mnemonic.call ∉ disabled) {target : Nat}
    (htarget : branchTarget symbols c.instruction.operands = .ok target) :
    (s.step disabled symbols c).1.machine.PointsTo ((sp - 2) % 0x10000)
      ∧ (s.step disabled symbols c).1.machine.memory.readWord ((sp - 2) % 0x10000)
        = c.following % 0x10000 := by
  have hperform : c.perform s.machine symbols = .ok { c.done
      ⟨s.machine.registers.set "sp" ((sp - 2) % 0x10000),
        s.machine.memory.writeWord ((sp - 2) % 0x10000) c.following⟩ with
      target := some target } := by
    unfold Record.perform
    simp only [hcall, htarget, h.push_eq]
    rfl
  rw [step_of_ok (by rw [hcall]; exact hdisabled) hperform]
  constructor
  · exact (Machine.pointsTo_set _ _ _).setWhole_of_ne (by decide) _
  · refine (Memory.readWord_writeWord_self _ _ _).trans ?_
    omega

/-- A return goes on at the address on top of the stack. -/
theorem ret_step (symbols : SymbolTable) (h : s.machine.PointsTo sp) {r : Record}
    (hret : r.instruction.mnemonic = .ret) (hdisabled : Mnemonic.ret ∉ disabled) :
    (s.step disabled symbols r).2 = false
      ∧ (s.step disabled symbols r).1.machine.get "ip"
        = .ok ((s.machine.memory.readWord sp : Nat) : Int)
      ∧ (s.step disabled symbols r).1.machine.PointsTo ((sp + 2) % 0x10000) := by
  have hperform : r.perform s.machine symbols = .ok ⟨s.machine.setWhole "sp" ((sp + 2) % 0x10000),
      "RET executed", some (s.machine.memory.readWord sp), false⟩ := by
    unfold Record.perform
    simp only [hret, h.pop_eq]
    rfl
  rw [step_of_ok (by rw [hret]; exact hdisabled) hperform]
  refine ⟨rfl, ?_, ?_⟩
  · refine (Machine.get_ip_setWhole _ _).trans ?_
    have hword := s.machine.memory.readWord_lt sp
    have hsmall : ((s.machine.memory.readWord sp : Nat) : Int) % 0x10000
        = s.machine.memory.readWord sp := by
      omega
    rw [Option.getD_some, hsmall]
  · exact (Machine.pointsTo_set _ _ _).setWhole_of_ne (by decide) _

/-- After a call and a balanced run the return leads behind the call, with the stack pointer that
the call found. -/
theorem ret_after_call (h : s.machine.PointsTo sp) {c r : Record} {rs : List Record}
    (hcall : c.instruction.mnemonic = .call) (hcallable : Mnemonic.call ∉ disabled) {target : Nat}
    (htarget : branchTarget symbols c.instruction.operands = .ok target)
    (hrs : (s.step disabled symbols c).1.Balanced disabled symbols rs)
    (hret : r.instruction.mnemonic = .ret) (hreturns : Mnemonic.ret ∉ disabled) :
    let back := ((s.step disabled symbols c).1.after disabled symbols rs).step disabled symbols r
    back.2 = false ∧ back.1.machine.get "ip" = .ok ((c.following % 0x10000 : Nat) : Int)
      ∧ back.1.machine.PointsTo sp := by
  obtain ⟨hpoints, hword⟩ := call_step h hcall hcallable htarget
  obtain ⟨hbottom, hintact⟩ := pointsTo_after hpoints hrs.keepsPointer
    fun front hfront => ⟨hrs.nonneg front hfront, hrs.le front hfront⟩
  have hlow := h.nonneg
  have hhigh := h.lt
  have hsame : ((sp - 2) % 0x10000 - 2 * 0) % 0x10000 = (sp - 2) % 0x10000 := by omega
  rw [hrs.even, hsame] at hbottom
  obtain ⟨hhalts, hip, hlast⟩ := ret_step symbols hbottom hret hreturns
  have hback : ((sp - 2) % 0x10000 + 2) % 0x10000 = sp := by omega
  rw [hintact, hword] at hip
  rw [hback] at hlast
  exact ⟨hhalts, hip, hlast⟩

end Progress

/-! ## The two statements -/

/-- **The stack is last-in first-out.** On every machine that operations lead to, up to 0x8000
values that are pushed are popped in the opposite order, modulo the size of a word; the stack
pointer is as it was, and so is every byte but those just below it. Therefore a call, a balanced run
and a return lead behind the call, with the stack pointer as it was before the call. -/
theorem stack_lastIn_firstOut :
    (∀ m : Machine, m.Reached → ∀ vs : List Int, vs.length ≤ 0x8000 →
      ∃ sp full after, m.get "sp" = .ok sp ∧ vs.foldlM Machine.push m = .ok full
        ∧ full.popTimes vs.length = .ok ((vs.map fun v => (v % 0x10000).toNat).reverse, after)
        ∧ after.registers = m.registers ∧ after.get "sp" = .ok sp
        ∧ ∀ a, ¬ Machine.Below sp vs.length a → after.memory.read a = m.memory.read a)
    ∧ ∀ (disabled : List Mnemonic) (symbols : SymbolTable) (s : Progress) (c r : Record)
        (rs : List Record) (target : Nat), s.machine.Reached →
      c.instruction.mnemonic = .call → Mnemonic.call ∉ disabled →
      branchTarget symbols c.instruction.operands = .ok target →
      (s.step disabled symbols c).1.Balanced disabled symbols rs →
      r.instruction.mnemonic = .ret → Mnemonic.ret ∉ disabled →
      let back := ((s.step disabled symbols c).1.after disabled symbols rs).step disabled symbols r
      back.2 = false
        ∧ back.1.machine.get "ip" = .ok (((c.address + c.size) % 0x10000 : Nat) : Int)
        ∧ back.1.machine.get "sp" = s.machine.get "sp" := by
  constructor
  · intro m hm vs hvs
    obtain ⟨sp, hsp⟩ := hm.pointsTo
    obtain ⟨full, memory, hfull, hpops, hmemory⟩ := hsp.popTimes_pushes vs hvs
    refine ⟨sp, full, ⟨m.registers, memory⟩, hsp.get, hfull, hpops, rfl, ?_, hmemory⟩
    exact (hsp.of_registers rfl).get
  · intro disabled symbols s c r rs target hs hcall hcallable htarget hrs hret hreturns
    obtain ⟨sp, hsp⟩ := hs.pointsTo
    obtain ⟨hhalts, hip, hlast⟩ :=
      Progress.ret_after_call hsp hcall hcallable htarget hrs hret hreturns
    refine ⟨hhalts, hip, ?_⟩
    rw [hlast.get, hsp.get]

/-- A machine whose stack pointer is odd, and so small that the stack goes on at the other end of
the memory. -/
def oddMachine : Machine :=
  Machine.fresh.setWhole "sp" 1

/-- A machine with an odd stack pointer can be reached. -/
theorem reached_oddMachine : oddMachine.Reached := by
  have hset : Machine.fresh.set "sp" 1 = .ok oddMachine := by
    have hfold : Machine.foldRegister "sp" = "sp" := by decide
    rw [Machine.set, hfold]
    rfl
  exact .set .fresh hset

/-- A call of a subroutine. -/
def savingCall : Record :=
  ⟨0x100, [0xE8, 0x00, 0x02], "call save", ⟨1, "call save", .call, [.label "save"]⟩⟩

/-- The state in the subroutine. -/
def savingCalled : Progress :=
  (Progress.step [] [("save", 0x200)] ⟨oddMachine, #[], 0⟩ savingCall).1

/-- A subroutine that moves the pointer across the end of the memory and back. -/
def savingRecords : List Record :=
  [⟨0x200, [0x50], "push ax", ⟨3, "push ax", .push, [.register .ax]⟩⟩,
    ⟨0x201, [0x53], "push bx", ⟨4, "push bx", .push, [.register .bx]⟩⟩,
    ⟨0x202, [0x59], "pop cx", ⟨5, "pop cx", .pop, [.register .cx]⟩⟩,
    ⟨0x203, [0x5A], "pop dx", ⟨6, "pop dx", .pop, [.register .dx]⟩⟩]

/-- The return from the subroutine. -/
def savingReturn : Record :=
  ⟨0x204, [0xC3], "ret", ⟨7, "ret", .ret, []⟩⟩

/-- A handler that pushes and pops is balanced. -/
theorem balanced_savingRecords :
    savingCalled.Balanced [] [("save", 0x200)] savingRecords := by
  constructor
  · decide +kernel
  · intro front hfront
    rw [← List.mem_inits] at hfront
    revert front
    decide +kernel
  · intro front hfront
    rw [← List.mem_inits] at hfront
    revert front
    decide +kernel
  · intro front r hfront hsets
    have hmem : r ∈ savingRecords := hfront.subset (by simp)
    have hnone : ∀ q ∈ savingRecords, ¬ q.SetsPointer := by decide
    exact hnone r hmem hsets.1

/-- Words are cut to sixteen bits when they are pushed, and come back last in first out. -/
theorem stack_lastIn_firstOut_oddMachine :
    (∃ full after, [70000, -1, 3].foldlM Machine.push oddMachine = .ok full
        ∧ full.popTimes 3 = .ok ([3, 0xFFFF, 4464], after) ∧ after.registers = oddMachine.registers)
      ∧ ((savingCalled.after [] [("save", 0x200)] savingRecords).step [] [("save", 0x200)]
          savingReturn).1.machine.get "ip" = .ok 0x103 := by
  obtain ⟨hwords, hcalls⟩ := stack_lastIn_firstOut
  constructor
  · obtain ⟨sp, full, after, -, hfull, hpops, hregisters, -⟩ :=
      hwords oddMachine reached_oddMachine [70000, -1, 3] (by decide)
    exact ⟨full, after, hfull, hpops, hregisters⟩
  · have htarget : branchTarget [("save", 0x200)] savingCall.instruction.operands = .ok 0x200 := by
      decide +kernel
    have hback := hcalls [] [("save", 0x200)] ⟨oddMachine, #[], 0⟩ savingCall savingReturn
      savingRecords 0x200 reached_oddMachine rfl (by decide) htarget balanced_savingRecords rfl
      (by decide)
    exact hback.2.1

end TurboBench.Asm
