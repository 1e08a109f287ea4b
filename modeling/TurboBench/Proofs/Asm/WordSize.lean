import TurboBench.Proofs.Asm.ControlFlow

/-!
# Addresses and sixteen bits

The machine has 64 KiB and registers of sixteen bits; the assembler counts addresses and offsets
without a bound. So it depends on the size of a source whether everything in it can be reached,
and `SizedBySource` says how: records lie in the segment if and only if the code has at most
`0xFF00` bytes, a label is worth the code in front of it and a name of data the data in front of it,
and what goes into the instruction pointer or a register is the value modulo `0x10000`.

Offsets are counted as addresses are. `Placement` has the closed form of the addresses, and what is
added here is the same for the bytes of data (`Layout.offset_of`).

That no part of this can be had without a bound is shown on two sources at the end, one with too
much data and one with too much code.
-/

set_option autoImplicit false

namespace TurboBench.Asm

open TurboBench.Text (trim lower lines)

/-! ## The bytes of data -/

/-- The number of bytes that a line adds to the data. -/
def SourceLine.dataBytes (l : SourceLine) : Nat :=
  match l.content with
  | .directive (.define symbol unit value) => (Directive.define symbol unit value).dataSize
  | _ => 0

/-- The number of bytes that lines add to the data. -/
def dataBytes : List SourceLine → Nat
  | [] => 0
  | l :: ls => l.dataBytes + dataBytes ls

/-- The line names the data that it defines. -/
def SourceLine.DefinesData (l : SourceLine) (name : String) : Prop :=
  ∃ unit value, l.content = .directive (.define (some name) unit value)

theorem dataBytes_append (ls ks : List SourceLine) :
    dataBytes (ls ++ ks) = dataBytes ls + dataBytes ks := by
  induction ls with
  | nil => rw [List.nil_append, dataBytes, Nat.zero_add]
  | cons l ls ih => rw [List.cons_append, dataBytes, dataBytes, ih, Nat.add_assoc]

namespace Layout

/-- A label takes no room among the data. -/
theorem data_label (s : Layout) (l : SourceLine) :
    (s.label l).offset = s.offset ∧ (s.label l).dataSymbols = s.dataSymbols := by
  unfold label
  cases l.label with
  | none => exact ⟨rfl, rfl⟩
  | some name =>
    simp only [Option.elim_some, defineLabel]
    split <;> exact ⟨rfl, rfl⟩

/-- One line moves the offset on by its data, and adds at most the name of these data, for the
offset in front of them. -/
theorem data_next (s : Layout) (l : SourceLine) :
    (s.next l).offset = s.offset + l.dataBytes
      ∧ ((s.next l).dataSymbols = s.dataSymbols
        ∨ ∃ name, l.DefinesData name
          ∧ (s.next l).dataSymbols = s.dataSymbols ++ [(name, s.offset)]) := by
  obtain ⟨hoffset, hsymbols⟩ := data_label s l
  rw [← hoffset, ← hsymbols]
  unfold next SourceLine.dataBytes
  simp only
  rw [← label]
  cases hc : l.content with
  | directive d =>
    cases d with
    | define symbol unit value =>
      cases symbol with
      | none => exact ⟨rfl, .inl rfl⟩
      | some name =>
        simp only [directive, Option.elim_some, defineData]
        split
        · exact ⟨rfl, .inl rfl⟩
        · exact ⟨rfl, .inr ⟨name, ⟨unit, value, hc⟩, rfl⟩⟩
    | _ => exact ⟨rfl, .inl rfl⟩
  | _ => exact ⟨rfl, .inl rfl⟩

/-- The offset behind lines is the number of bytes of their data. -/
theorem offset_of (ls : List SourceLine) : (of ls).offset = dataBytes ls := by
  induction ls using List.reverseRecOn with
  | nil => rfl
  | append_singleton ls l ih =>
    rw [of_append_singleton, (data_next (of ls) l).1, ih, dataBytes_append, dataBytes, dataBytes,
      Nat.add_zero]

/-- A name of data stands for the offset in front of the line that defines it. -/
theorem exists_split_of_mem_dataSymbols {ls : List SourceLine} {name : String} {offset : Nat}
    (h : (name, offset) ∈ (of ls).dataSymbols) :
    ∃ pre l post, ls = pre ++ l :: post ∧ l.DefinesData name ∧ offset = dataBytes pre := by
  induction ls using List.reverseRecOn with
  | nil => simp [of, start] at h
  | append_singleton ls l ih =>
    have hearlier (h : (name, offset) ∈ (of ls).dataSymbols) : ∃ pre k post,
        ls ++ [l] = pre ++ k :: post ∧ k.DefinesData name ∧ offset = dataBytes pre := by
      obtain ⟨pre, k, post, rfl, hk⟩ := ih h
      exact ⟨pre, k, post ++ [l], by simp, hk⟩
    rw [of_append_singleton] at h
    rcases (data_next (of ls) l).2 with hsame | ⟨other, hl, hadded⟩
    · rw [hsame] at h
      exact hearlier h
    · rw [hadded] at h
      rcases List.mem_append.1 h with h | h
      · exact hearlier h
      · obtain ⟨rfl, rfl⟩ := Prod.mk.inj (List.mem_singleton.1 h)
        exact ⟨ls, l, [], rfl, hl, offset_of ls⟩

end Layout

/-! ## Symbols as values -/

/-- The operand stands for the value of a symbol: it is the name, or `offset` with the name. -/
def Operand.NamesSymbol (op : Operand) (name : String) : Prop :=
  op = .label name ∨ ∃ text rest, op = .unsupported text
    ∧ lower text.toList = "offset ".toList ++ rest ∧ String.ofList (trim rest) = name

section Values

variable {symbols : SymbolTable} {name : String} {v : Nat}

/-- An operand that names a symbol has its value, of whatever size. -/
theorem value_of_namesSymbol {op : Operand} (h : op.NamesSymbol name)
    (hlookup : symbols.lookup name = some v) (m : Machine) :
    op.value m symbols = .ok ((v : Nat) : Int) := by
  rcases h with rfl | ⟨text, rest, rfl, htext, hname⟩
  · simp only [Operand.value, hlookup, Option.getD_some]
  · have hdata : ¬ "offset ".toList ++ rest = "@data".toList := by
      intro heq
      exact absurd (List.cons.inj heq).1 (by decide)
    have hprefix : "offset ".toList.isPrefixOf ("offset ".toList ++ rest) = true :=
      List.isPrefixOf_iff_prefix.2 (List.prefix_append _ _)
    have hdrop : ("offset ".toList ++ rest).drop "offset ".length = rest :=
      List.drop_left
    simp only [Operand.value, htext, if_neg hdata, if_pos hprefix, hdrop, hname, hlookup,
      Option.getD_some]

/-- A register of sixteen bits is a cell of the machine under its own name. -/
theorem byteHalf?_of_width {reg : Register} (h : Machine.width reg.name = 16) :
    Machine.foldRegister reg.name = reg.name ∧ byteHalf? reg.name = none ∧ reg.name ≠ "ip" := by
  revert h
  cases reg <;> decide

theorem get_setWhole_ip {reg : Register} (h : Machine.width reg.name = 16) (m : Machine)
    (v ip : Int) : ((m.setWhole reg.name v).setWhole "ip" ip).get reg.name = .ok v := by
  obtain ⟨hfold, hhalf, hip⟩ := byteHalf?_of_width h
  simp only [Machine.get, hfold, hhalf, Machine.whole, Machine.setWhole,
    RegisterFile.lookup_set_of_ne _ _ hip, RegisterFile.lookup_set_self]

/-- Loading a value into a register of sixteen bits keeps what fits. -/
theorem get_of_value {disabled : List Mnemonic} {s : Progress} {r : Record} {reg : Register}
    {op : Operand} {x : Int} (henabled : r.instruction.mnemonic ∉ disabled)
    (hmov : r.instruction.mnemonic = .mov) (hops : r.instruction.operands = [.register reg, op])
    (hword : Machine.width reg.name = 16) (hvalue : op.value s.machine symbols = .ok x) :
    (s.step disabled symbols r).1.machine.get reg.name = .ok (x % 0x10000) := by
  obtain ⟨hfold, hhalf, -⟩ := byteHalf?_of_width hword
  have hset : s.machine.set reg.name x = .ok (s.machine.setWhole reg.name (x % 0x10000)) := by
    simp only [Machine.set, hfold, hhalf]
  have hperform : r.perform s.machine symbols
      = .ok (r.done (s.machine.setWhole reg.name (x % 0x10000))) := by
    unfold Record.perform
    simp only [hmov, hops, twoOperands, Operand.destination, Bind.bind, Except.bind, hvalue, hset,
      onMachine]
    rfl
  rw [Progress.step_of_ok henabled hperform]
  exact get_setWhole_ip hword _ _ _

theorem get_of_load {disabled : List Mnemonic} {s : Progress} {r : Record} {reg : Register}
    {op : Operand} (henabled : r.instruction.mnemonic ∉ disabled)
    (hmov : r.instruction.mnemonic = .mov) (hops : r.instruction.operands = [.register reg, op])
    (hword : Machine.width reg.name = 16) (hname : op.NamesSymbol name)
    (hlookup : symbols.lookup name = some v) :
    (s.step disabled symbols r).1.machine.get reg.name = .ok ((v % 0x10000 : Nat) : Int) :=
  get_of_value henabled hmov hops hword (value_of_namesSymbol hname hlookup s.machine)

end Values

/-! ## Sizes -/

/-- How the size of a source decides what fits into sixteen bits. -/
structure SizedBySource (source : List Char) : Prop where
  /-- The records lie in the segment if and only if the code is no longer than what is left of it
  behind the load address. -/
  records : (∀ r ∈ (assemble source).records, r.address + r.size ≤ 0x10000)
    ↔ codeBytes (sourceLines source) ≤ 0xFF00
  /-- A label stands for the load address and the code in front of its line. -/
  label : ∀ name address, (name, address) ∈ (assemble source).labels →
    ∃ pre l post, sourceLines source = pre ++ l :: post ∧ l.label = some name
      ∧ address = 0x100 + codeBytes pre
  /-- A name of data stands for the data in front of its line. -/
  data : ∀ name offset, (name, offset) ∈ (assemble source).dataSymbols →
    ∃ pre l post, sourceLines source = pre ++ l :: post ∧ l.DefinesData name
      ∧ offset = dataBytes pre
  /-- A source that is not too long fits. -/
  fits : codeBytes (sourceLines source) ≤ 0xFEFF → dataBytes (sourceLines source) ≤ 0xFFFF →
    (∀ r ∈ (assemble source).records, r.address + r.size ≤ 0x10000)
      ∧ ∀ name n, (name, n) ∈ (assemble source).symbols → n ≤ 0xFFFF
  /-- A branch to a label that is taken goes to its address modulo 64 KiB. -/
  jump : ∀ (disabled : List Mnemonic) (s : Progress) (r : Record) (name : String) (address : Nat),
    r.instruction.mnemonic ∉ disabled → s.machine.Complete →
    s.machine.Takes r.instruction.mnemonic → r.instruction.operands = [.label name] →
    (assemble source).labels.lookup name = some address →
    (s.step disabled (assemble source).symbols r).1.machine.get "ip"
      = .ok ((address % 0x10000 : Nat) : Int)
  /-- A symbol that is loaded into a register of sixteen bits is loaded modulo 64 KiB. -/
  load : ∀ (disabled : List Mnemonic) (s : Progress) (r : Record) (reg : Register) (op : Operand)
    (name : String) (n : Nat), r.instruction.mnemonic ∉ disabled →
    r.instruction.mnemonic = .mov → r.instruction.operands = [.register reg, op] →
    Machine.width reg.name = 16 → op.NamesSymbol name →
    (assemble source).symbols.lookup name = some n →
    (s.step disabled (assemble source).symbols r).1.machine.get reg.name
      = .ok ((n % 0x10000 : Nat) : Int)

section Sizes

variable {source : List Char}

/-- All records lie in memory if the code takes no more bytes than there are behind the load
address. -/
theorem records_inside_iff :
    (∀ r ∈ (assemble source).records, r.address + r.size ≤ 0x10000)
      ↔ codeBytes (sourceLines source) ≤ 0xFF00 := by
  rw [← codeSize_assemble]
  have hload : loadAddress = 0x100 := rfl
  constructor
  · intro h
    -- The last record ends where the code ends, and without a record there is no code.
    have hend := following_getLast_assemble source
    cases hlast : (assemble source).records.getLast? with
    | none =>
      rw [hlast, Option.map_none, Option.getD_none] at hend
      omega
    | some r =>
      have hr := h r (List.mem_of_getLast? hlast)
      rw [hlast, Option.map_some, Option.getD_some, Record.following] at hend
      omega
  · intro h r hr
    have hbounds := (address_bounds hr).2
    rw [Record.following] at hbounds
    omega

theorem address_eq_of_mem_labels {name : String} {address : Nat}
    (h : (name, address) ∈ (assemble source).labels) :
    ∃ pre l post, sourceLines source = pre ++ l :: post ∧ l.label = some name
      ∧ address = 0x100 + codeBytes pre := by
  obtain ⟨pre, l, post, hls, hl, -, haddress⟩ := Layout.exists_split_of_mem_labels h
  exact ⟨pre, l, post, hls, hl, haddress⟩

/-- Symbols are words if neither code nor data is too large. -/
theorem symbols_le (hcode : codeBytes (sourceLines source) ≤ 0xFEFF)
    (hdata : dataBytes (sourceLines source) ≤ 0xFFFF) {name : String} {n : Nat}
    (h : (name, n) ∈ (assemble source).symbols) : n ≤ 0xFFFF := by
  rcases List.mem_append.1 h with h | h
  · obtain ⟨pre, l, post, hls, -, rfl⟩ := Layout.exists_split_of_mem_dataSymbols h
    rw [hls, dataBytes_append] at hdata
    omega
  · obtain ⟨pre, l, post, hls, -, rfl⟩ := address_eq_of_mem_labels h
    rw [hls, codeBytes_append] at hcode
    omega

/-- **What fits into sixteen bits is decided by the size of the source**, and what does not fit is
cut to them. -/
theorem sizedBySource (source : List Char) : SizedBySource source where
  records := records_inside_iff
  label _ _ h := address_eq_of_mem_labels h
  data _ _ h := Layout.exists_split_of_mem_dataSymbols h
  fits hcode hdata :=
    ⟨records_inside_iff.2 (by omega), fun _ _ h => symbols_le hcode hdata h⟩
  jump _ _ _ _ _ henabled hc htakes hop hlabel := (ip_of_takes henabled hc htakes hop hlabel).1
  load _ _ _ _ _ _ _ henabled hmov hops hword hname hlookup :=
    get_of_load henabled hmov hops hword hname hlookup

end Sizes

/-! ## Sources that are too long -/

/-- A source with 64 KiB of data in front of a name of data. -/
def longData : List Char :=
  "x db 65536 dup(0)\ny db 1".toList

/-- A source of `n` returns with a label behind them. -/
def returns : Nat → List Char
  | 0 => "x:".toList
  | n + 1 => "ret\n".toList ++ returns n

/-- A source of so many returns and a label. -/
theorem lines_returns (n : Nat) :
    lines (returns n) = List.replicate n "ret".toList ++ ["x:".toList] := by
  induction n with
  | zero => decide
  | succ n ih =>
    have hline : lines (returns (n + 1)) = "ret".toList :: lines (returns n) := rfl
    rw [hline, ih, List.replicate_succ, List.cons_append]

/-- The line `k` of such a source. -/
def returnLine (k : Nat) : SourceLine :=
  ⟨k, "ret".toList, none, .instruction ⟨k, "ret", .ret, []⟩⟩

/-- The line with the label. -/
def endLine (k : Nat) : SourceLine :=
  ⟨k, "x:".toList, some "x", .nothing⟩

theorem read_returnLine (k : Nat) : SourceLine.read k "ret".toList = returnLine k := rfl

theorem read_endLine (k : Nat) : SourceLine.read k "x:".toList = endLine k := rfl

/-- Each return is read as an instruction of its own line. -/
theorem map_read_returns (k n : Nat) :
    (numbered k (List.replicate n "ret".toList ++ ["x:".toList])).map
        (fun x => SourceLine.read x.1 x.2)
      = (List.range' k n).map returnLine ++ [endLine (k + n)] := by
  induction n generalizing k with
  | zero =>
    rw [List.replicate_zero, List.nil_append, numbered, numbered, List.map_singleton, read_endLine]
    rfl
  | succ n ih =>
    rw [List.replicate_succ, List.cons_append, numbered, List.map_cons, ih, read_returnLine,
      List.range'_succ, List.map_cons, List.cons_append, Nat.add_assoc, Nat.add_comm 1 n]

theorem sourceLines_returns (n : Nat) :
    sourceLines (returns n) = (List.range' 1 n).map returnLine ++ [endLine (1 + n)] := by
  rw [sourceLines, lines_returns]
  exact map_read_returns 1 n

/-- A return takes one byte. -/
theorem codeBytes_returnLines (k n : Nat) : codeBytes ((List.range' k n).map returnLine) = n := by
  induction n generalizing k with
  | zero => rfl
  | succ n ih =>
    have hbytes : (returnLine k).codeBytes = 1 := rfl
    rw [List.range'_succ, List.map_cons, codeBytes_cons, ih, hbytes, Nat.add_comm]

/-- So many returns move the address by as many bytes. -/
theorem foldl_returnLines (k n : Nat) (s : Layout) :
    ((List.range' k n).map returnLine).foldl Layout.next s
      = { s with address := s.address + n } := by
  induction n generalizing k s with
  | zero => rfl
  | succ n ih =>
    have hnext : s.next (returnLine k) = { s with address := s.address + 1 } := rfl
    rw [List.range'_succ, List.map_cons, List.foldl_cons, ih, hnext]
    simp only [Nat.add_assoc, Nat.add_comm 1 n]

theorem layout_returns (n : Nat) :
    (assemble (returns n)).layout = ⟨0x100 + n, 0, [("x", 0x100 + n)], [], [], none⟩ := by
  have hlayout : (assemble (returns n)).layout = Layout.of (sourceLines (returns n)) := rfl
  rw [hlayout, sourceLines_returns, Layout.of_append_singleton, Layout.of, foldl_returnLines]
  rfl

/-- Nothing is reported of a source of returns. -/
theorem success_returns (n : Nat) : (assemble (returns n)).success = true := by
  have herrors : (assemble (returns n)).errors
      = (assemble (returns n)).layout.errors ++ unknownLines (sourceLines (returns n)) :=
    congrArg _ (Emission.errors_of _ _)
  have hknown : unknownLines (sourceLines (returns n)) = [] := by
    rw [sourceLines_returns, unknownLines, List.map_eq_nil_iff, List.filter_eq_nil_iff]
    intro l hl
    rcases List.mem_append.1 hl with hl | hl
    · obtain ⟨k, -, rfl⟩ := List.mem_map.1 hl
      simp [returnLine]
    · rw [List.mem_singleton.1 hl]
      simp [endLine]
  rw [Assembly.success, herrors, hknown, layout_returns]
  rfl

/-- With enough returns, records and the label lie beyond memory, and nothing is reported. -/
theorem returns_exceed {n : Nat} (h : 0xFF00 < n) :
    (assemble (returns n)).success = true
      ∧ (¬ ∀ r ∈ (assemble (returns n)).records, r.address + r.size ≤ 0x10000)
      ∧ ∃ address, ("x", address) ∈ (assemble (returns n)).labels ∧ 0xFFFF < address := by
  refine ⟨success_returns n, ?_, 0x100 + n, ?_, by omega⟩
  · rw [records_inside_iff, sourceLines_returns, codeBytes_append, codeBytes_returnLines]
    omega
  · have hlabels : (assemble (returns n)).labels = [("x", 0x100 + n)] :=
      congrArg Layout.labels (layout_returns n)
    rw [hlabels]
    exact List.mem_singleton.2 rfl

/-- Sources are assembled without errors whose data, and whose records and labels, are out of the
reach of sixteen bits. -/
theorem exceedsWord_longSources :
    ((assemble longData).success = true ∧ ("y", 0x10000) ∈ (assemble longData).dataSymbols)
      ∧ (assemble (returns 0xFF01)).success = true
      ∧ (¬ ∀ r ∈ (assemble (returns 0xFF01)).records, r.address + r.size ≤ 0x10000)
      ∧ ∃ address, ("x", address) ∈ (assemble (returns 0xFF01)).labels ∧ 0xFFFF < address :=
  ⟨⟨by decide +kernel, by decide +kernel⟩, returns_exceed (by decide)⟩

end TurboBench.Asm
