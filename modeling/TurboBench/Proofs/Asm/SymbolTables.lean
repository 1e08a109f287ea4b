import Mathlib.Data.List.Nodup
import TurboBench.Proofs.Asm.WordSize

/-!
# The two tables of names

A source defines names in two ways: in front of a line as labels, and in a directive as names of
data. `definitions` lists the definitions of a source in the order in which the first pass meets
them, each with its line and the value it would have. On a line the label comes first.

The tables and the complaints can be read off that list. The first definition of a name enters it,
with its value, into the table of its kind; every later one is complained of, with its own line, and
does nothing else. It does not matter for this which of the two kinds the definitions are. That is
`Layout.Enters`, and it is what one definition preserves (`Enters.enter`), hence one line
(`Enters.next`) and the pass (`enters_of`).

The bytes of data count from line to line whether their name was taken, or they have none. So the
value of a name of data is the sum over all directives in front of its first definition.
-/

set_option autoImplicit false

namespace TurboBench.Asm

/-! ## Definitions -/

/-- What a name can be. -/
inductive NameKind where
  | label | data
  deriving DecidableEq, Repr

/-- A definition of a name: on which line it is, and what the name is to stand for. -/
structure Definition where
  kind : NameKind
  line : Nat
  name : String
  value : Nat
  deriving DecidableEq, Repr

/-- The complaint about a definition of a name that is taken. -/
def Definition.complaint (d : Definition) : LineComplaint :=
  match d.kind with
  | .label => ⟨d.line, .duplicateLabel d.name⟩
  | .data => ⟨d.line, .duplicateSymbol d.name⟩

/-- The name that a line gives to its data. -/
def SourceLine.dataName? (l : SourceLine) : Option String :=
  match l.content with
  | .directive (.define symbol _ _) => symbol
  | _ => none

/-- The definitions on a line at an address and an offset. -/
def SourceLine.definitions (l : SourceLine) (address offset : Nat) : List Definition :=
  l.label.toList.map (⟨.label, l.number, ·, address⟩)
    ++ l.dataName?.toList.map (⟨.data, l.number, ·, offset⟩)

/-- The definitions on lines, the first of which is at an address and an offset. -/
def definitionsFrom : Nat → Nat → List SourceLine → List Definition
  | _, _, [] => []
  | address, offset, l :: ls =>
    l.definitions address offset
      ++ definitionsFrom (address + l.codeBytes) (offset + l.dataBytes) ls

/-- The definitions on the lines of a source. -/
def definitions (ls : List SourceLine) : List Definition :=
  definitionsFrom loadAddress 0 ls

/-- Those definitions whose name is known already, or those whose name is not, where these names are
known before the first. -/
def sift (repeated : Bool) (known : List String) : List Definition → List Definition
  | [] => []
  | d :: ds =>
    if decide (d.name ∈ known) = repeated then d :: sift repeated (d.name :: known) ds
    else sift repeated (d.name :: known) ds

/-- The first definitions of their names. -/
def firsts (ds : List Definition) : List Definition :=
  sift false [] ds

/-- The definitions of names that were defined before. -/
def repeats (ds : List Definition) : List Definition :=
  sift true [] ds

/-- The table that definitions of a kind make. -/
def entries (kind : NameKind) (ds : List Definition) : SymbolTable :=
  (ds.filter (·.kind == kind)).map fun d => (d.name, d.value)

/-! ## First and later definitions -/

section Lists

variable {ds : List Definition} {d : Definition}

/-- Definitions are sifted one after the other, with the names of the earlier ones known to the
later. -/
theorem sift_append (repeated : Bool) (known : List String) (ds es : List Definition) :
    sift repeated known (ds ++ es)
      = sift repeated known ds ++ sift repeated ((ds.map (·.name)).reverse ++ known) es := by
  induction ds generalizing known with
  | nil => rfl
  | cons d ds ih =>
    have hknown : ((d :: ds).map (·.name)).reverse ++ known
        = (ds.map (·.name)).reverse ++ d.name :: known := by
      simp
    rw [List.cons_append, sift, sift, ih, hknown]
    by_cases hd : decide (d.name ∈ known) = repeated
    · rw [if_pos hd, if_pos hd, List.cons_append]
    · rw [if_neg hd, if_neg hd]

theorem mem_known_iff (name : String) :
    name ∈ (ds.map (·.name)).reverse ++ [] ↔ name ∈ ds.map (·.name) := by
  rw [List.append_nil, List.mem_reverse]

/-- A definition behind others is a later one if they define its name, and else a first one. -/
theorem sift_append_of_mem (h : d.name ∈ ds.map (·.name)) :
    firsts (ds ++ [d]) = firsts ds ∧ repeats (ds ++ [d]) = repeats ds ++ [d] := by
  have hmem := (mem_known_iff d.name).2 h
  constructor
  · rw [firsts, sift_append, sift, if_neg (by simpa using hmem), sift, List.append_nil, firsts]
  · rw [repeats, sift_append, sift, if_pos (by simpa using hmem), sift, repeats]

/-- A name that has not been defined is a first one. -/
theorem sift_append_of_not_mem (h : d.name ∉ ds.map (·.name)) :
    firsts (ds ++ [d]) = firsts ds ++ [d] ∧ repeats (ds ++ [d]) = repeats ds := by
  have hmem := mt (mem_known_iff d.name).1 h
  constructor
  · rw [firsts, sift_append, sift, if_pos (by simpa using hmem), sift, firsts]
  · rw [repeats, sift_append, sift, if_neg (by simpa using hmem), sift, List.append_nil, repeats]

/-- The names that are defined are those that are defined for a first time. -/
theorem map_name_firsts (ds : List Definition) :
    ((firsts ds).map (·.name)).Nodup
      ∧ ∀ name, name ∈ (firsts ds).map (·.name) ↔ name ∈ ds.map (·.name) := by
  induction ds using List.reverseRecOn with
  | nil => exact ⟨List.nodup_nil, fun name => Iff.rfl⟩
  | append_singleton ds d ih =>
    obtain ⟨hnodup, hmem⟩ := ih
    -- A definition at the end is a first one if its name is new, and else it adds no name.
    by_cases hd : d.name ∈ ds.map (·.name)
    · rw [(sift_append_of_mem hd).1]
      refine ⟨hnodup, fun name => ?_⟩
      rw [hmem, List.map_append, List.mem_append]
      constructor
      · exact Or.inl
      · rintro (h | h)
        · exact h
        · rw [List.map_singleton, List.mem_singleton] at h
          rw [h]
          exact hd
    · rw [(sift_append_of_not_mem hd).1, List.map_append, List.map_append]
      refine ⟨?_, fun name => ?_⟩
      · refine List.nodup_append.2 ⟨hnodup, List.nodup_singleton _, ?_⟩
        intro name hname other hother he
        rw [List.map_singleton, List.mem_singleton] at hother
        rw [he, hother] at hname
        exact hd ((hmem d.name).1 hname)
      · rw [List.mem_append, List.mem_append, hmem]

/-- Where no name is defined again, all definitions are first ones. -/
theorem firsts_of_repeats (h : repeats ds = []) : firsts ds = ds := by
  induction ds using List.reverseRecOn with
  | nil => rfl
  | append_singleton ds d ih =>
    by_cases hd : d.name ∈ ds.map (·.name)
    · rw [(sift_append_of_mem hd).2] at h
      exact absurd h (by simp)
    · obtain ⟨hfirsts, hrepeats⟩ := sift_append_of_not_mem hd
      rw [hrepeats] at h
      rw [hfirsts, ih h]

/-- In front of a first definition its name is not defined. -/
theorem exists_split_of_mem_firsts (h : d ∈ firsts ds) :
    ∃ front rest, ds = front ++ d :: rest ∧ d.name ∉ front.map (·.name) := by
  induction ds using List.reverseRecOn with
  | nil => exact absurd h (by simp [firsts, sift])
  | append_singleton ds e ih =>
    have hearlier (h : d ∈ firsts ds) : ∃ front rest,
        ds ++ [e] = front ++ d :: rest ∧ d.name ∉ front.map (·.name) := by
      obtain ⟨front, rest, rfl, hfront⟩ := ih h
      exact ⟨front, rest ++ [e], by simp, hfront⟩
    by_cases he : e.name ∈ ds.map (·.name)
    · rw [(sift_append_of_mem he).1] at h
      exact hearlier h
    · rw [(sift_append_of_not_mem he).1, List.mem_append, List.mem_singleton] at h
      rcases h with h | rfl
      · exact hearlier h
      · exact ⟨ds, [], rfl, he⟩

theorem entries_append (kind : NameKind) (ds es : List Definition) :
    entries kind (ds ++ es) = entries kind ds ++ entries kind es := by
  rw [entries, List.filter_append, List.map_append, entries, entries]

theorem entries_singleton_of_eq {kind : NameKind} (h : d.kind = kind) :
    entries kind [d] = [(d.name, d.value)] := by
  simp [entries, h]

theorem entries_singleton_of_ne {kind : NameKind} (h : d.kind ≠ kind) : entries kind [d] = [] := by
  simp [entries, h]

theorem map_fst_entries (kind : NameKind) (ds : List Definition) :
    (entries kind ds).map Prod.fst = (ds.filter (·.kind == kind)).map (·.name) := by
  rw [entries, List.map_map]
  rfl

end Lists

/-! ## The pass over the definitions -/

namespace Layout

variable {s t : Layout} {ds : List Definition}

/-- The tables and the complaints are those that definitions make. -/
structure Enters (s : Layout) (ds : List Definition) : Prop where
  labels : s.labels = entries .label (firsts ds)
  dataSymbols : s.dataSymbols = entries .data (firsts ds)
  errors : s.errors = (repeats ds).map Definition.complaint

/-- What a definition does: it adds a complaint, or else it adds its name to the table of its
kind. -/
def enter (s : Layout) (d : Definition) : Layout :=
  if s.defines d.name then { s with errors := s.errors ++ [d.complaint] }
  else
    match d.kind with
    | .label => { s with labels := s.labels ++ [(d.name, d.value)] }
    | .data => { s with dataSymbols := s.dataSymbols ++ [(d.name, d.value)] }

theorem defineLabel_eq (s : Layout) (n : Nat) (name : String) :
    s.defineLabel n name = s.enter ⟨.label, n, name, s.address⟩ := rfl

theorem defineData_eq (s : Layout) (n : Nat) (name : String) :
    s.defineData n name = s.enter ⟨.data, n, name, s.offset⟩ := rfl

/-- A name is found in a table if it is among its names. -/
theorem isSome_lookup_iff (table : SymbolTable) (name : String) :
    (table.lookup name).isSome = true ↔ name ∈ table.map Prod.fst := by
  induction table with
  | nil => simp
  | cons e table ih =>
    obtain ⟨other, n⟩ := e
    by_cases h : name = other
    · simp [h]
    · have hne : (name == other) = false := by simpa using h
      rw [List.lookup_cons, hne, ih, List.map_cons, List.mem_cons]
      simp [h]

/-- A name is in one of the tables if and only if there was a definition of it. -/
theorem Enters.defines_iff (h : s.Enters ds) (name : String) :
    s.defines name = true ↔ name ∈ ds.map (·.name) := by
  rw [defines, Bool.or_eq_true, isSome_lookup_iff, isSome_lookup_iff, h.labels, h.dataSymbols,
    map_fst_entries, map_fst_entries, ← (map_name_firsts ds).2 name]
  simp only [List.mem_map, List.mem_filter, beq_iff_eq]
  constructor
  · rintro (⟨d, ⟨hd, -⟩, hname⟩ | ⟨d, ⟨hd, -⟩, hname⟩)
    · exact ⟨d, hd, hname⟩
    · exact ⟨d, hd, hname⟩
  · rintro ⟨d, hd, hname⟩
    cases hkind : d.kind with
    | label => exact .inl ⟨d, ⟨hd, hkind⟩, hname⟩
    | data => exact .inr ⟨d, ⟨hd, hkind⟩, hname⟩

/-- One definition more. -/
theorem Enters.enter (h : s.Enters ds) (d : Definition) : (s.enter d).Enters (ds ++ [d]) := by
  unfold Layout.enter
  by_cases hd : s.defines d.name = true
  · obtain ⟨hfirsts, hrepeats⟩ := sift_append_of_mem ((h.defines_iff d.name).1 hd)
    rw [if_pos hd]
    constructor
    · rw [hfirsts, h.labels]
    · rw [hfirsts, h.dataSymbols]
    · rw [hrepeats, List.map_append, h.errors, List.map_singleton]
  · obtain ⟨hfirsts, hrepeats⟩ := sift_append_of_not_mem (mt (h.defines_iff d.name).2 hd)
    rw [if_neg hd]
    cases hkind : d.kind with
    | label =>
      constructor
      · rw [hfirsts, entries_append, entries_singleton_of_eq hkind, h.labels]
      · rw [hfirsts, entries_append, entries_singleton_of_ne (by simp [hkind]), List.append_nil,
          h.dataSymbols]
      · rw [hrepeats, h.errors]
    | data =>
      constructor
      · rw [hfirsts, entries_append, entries_singleton_of_ne (by simp [hkind]), List.append_nil,
          h.labels]
      · rw [hfirsts, entries_append, entries_singleton_of_eq hkind, h.dataSymbols]
      · rw [hrepeats, h.errors]

/-- The names are all that counts. -/
theorem Enters.congr (h : s.Enters ds) (hlabels : t.labels = s.labels)
    (hdata : t.dataSymbols = s.dataSymbols) (herrors : t.errors = s.errors) : t.Enters ds :=
  ⟨hlabels.trans h.labels, hdata.trans h.dataSymbols, herrors.trans h.errors⟩

/-- The label of a line enters its definition. -/
theorem Enters.label (h : s.Enters ds) (l : SourceLine) :
    (s.label l).Enters (ds ++ l.label.toList.map (⟨.label, l.number, ·, s.address⟩)) := by
  unfold Layout.label
  cases l.label with
  | none =>
    rw [Option.toList_none, List.map_nil, List.append_nil]
    exact h
  | some name =>
    rw [Option.elim_some, defineLabel_eq]
    exact h.enter _

/-- A directive that defines data enters its definition. -/
theorem Enters.directive (h : s.Enters ds) (n : Nat) (d : Directive) :
    (s.directive n d).Enters (ds ++ (match d with
      | .define symbol _ _ => symbol
      | _ => none).toList.map (⟨.data, n, ·, s.offset⟩)) := by
  unfold Layout.directive
  cases d with
  | define symbol unit value =>
    cases symbol with
    | none =>
      rw [Option.toList_none, List.map_nil, List.append_nil]
      exact h.congr rfl rfl rfl
    | some name =>
      simp only [Option.elim_some, defineData_eq]
      exact (h.enter ⟨.data, n, name, s.offset⟩).congr rfl rfl rfl
  | _ =>
    rw [Option.toList_none, List.map_nil, List.append_nil]
    exact h.congr rfl rfl rfl

/-- One line more. -/
theorem Enters.next (h : s.Enters ds) (l : SourceLine) :
    (s.next l).Enters (ds ++ l.definitions s.address s.offset) := by
  have hlabel := h.label l
  have hoffset := (data_label s l).1
  unfold Layout.next SourceLine.definitions SourceLine.dataName?
  simp only
  rw [← Layout.label, ← List.append_assoc]
  cases hc : l.content with
  | directive d =>
    have hdirective := hlabel.directive l.number d
    rw [hoffset] at hdirective
    cases d with
    | _ => exact hdirective
  | _ =>
    rw [Option.toList_none, List.map_nil, List.append_nil]
    exact hlabel.congr rfl rfl rfl

/-- One more line adds its definitions, at the address and offset behind the others. -/
theorem definitionsFrom_append_singleton (address offset : Nat) (ls : List SourceLine)
    (l : SourceLine) : definitionsFrom address offset (ls ++ [l])
      = definitionsFrom address offset ls
        ++ l.definitions (address + codeBytes ls) (offset + dataBytes ls) := by
  induction ls generalizing address offset with
  | nil => simp [definitionsFrom, dataBytes]
  | cons k ls ih =>
    rw [List.cons_append, definitionsFrom, definitionsFrom, ih, List.append_assoc, codeBytes_cons,
      dataBytes, Nat.add_assoc, Nat.add_assoc]

/-- The pass enters the definitions of its lines. -/
theorem enters_of (ls : List SourceLine) : (of ls).Enters (definitions ls) := by
  induction ls using List.reverseRecOn with
  | nil => exact ⟨rfl, rfl, rfl⟩
  | append_singleton ls l ih =>
    have hnext := ih.next l
    rw [address_of, offset_of] at hnext
    rw [of_append_singleton, definitions, definitionsFrom_append_singleton, Nat.zero_add]
    exact hnext

end Layout

/-! ## Values -/

/-- A definition is on a line of its own definitions, behind those of the lines before. -/
theorem exists_line_of_definitionsFrom {address offset : Nat} {ls : List SourceLine}
    {front rest : List Definition} {d : Definition}
    (h : definitionsFrom address offset ls = front ++ d :: rest) :
    ∃ pre l post inner behind, ls = pre ++ l :: post
      ∧ front = definitionsFrom address offset pre ++ inner
      ∧ l.definitions (address + codeBytes pre) (offset + dataBytes pre)
        = inner ++ d :: behind := by
  induction ls generalizing address offset front with
  | nil => exact absurd h (by simp [definitionsFrom])
  | cons l ls ih =>
    rw [definitionsFrom] at h
    rcases List.append_eq_append_iff.1 h with ⟨inner, hfront, hrest⟩ | ⟨inner, hl, hrest⟩
    · -- The definition is on one of the lines behind.
      obtain ⟨pre, k, post, inner', behind, rfl, rfl, hk⟩ := ih hrest
      refine ⟨l :: pre, k, post, inner', behind, rfl, ?_, ?_⟩
      · rw [hfront, definitionsFrom, List.append_assoc]
      · rw [codeBytes_cons, dataBytes, ← Nat.add_assoc, ← Nat.add_assoc]
        exact hk
    · cases inner with
      | nil =>
        -- The definitions of this line end right in front of it.
        rw [List.append_nil] at hl
        have hbehind : definitionsFrom (address + l.codeBytes) (offset + l.dataBytes) ls
            = [] ++ d :: rest := hrest.symm
        obtain ⟨pre, k, post, inner', behind, rfl, hfront, hk⟩ := ih hbehind
        refine ⟨l :: pre, k, post, inner', behind, rfl, ?_, ?_⟩
        · rw [definitionsFrom, List.append_assoc, ← hfront, List.append_nil, hl]
        · rw [codeBytes_cons, dataBytes, ← Nat.add_assoc, ← Nat.add_assoc]
          exact hk
      | cons e behind =>
        obtain ⟨rfl, -⟩ := List.cons.inj hrest
        refine ⟨[], l, ls, front, behind, rfl, ?_, ?_⟩
        · rw [definitionsFrom, List.nil_append]
        · exact hl

/-- A line with the name of data defines data. -/
theorem definesData_of_dataName? {l : SourceLine} {name : String} (h : l.dataName? = some name) :
    l.DefinesData name := by
  unfold SourceLine.dataName? at h
  split at h
  · next symbol unit value hc => exact ⟨unit, value, by rw [hc, h]⟩
  · exact absurd h (by simp)

/-- A definition of data on a line is behind the label of the line and has the offset. -/
theorem data_of_definitions {l : SourceLine} {address offset : Nat} {inner behind : List Definition}
    {d : Definition} (hd : d.kind = .data)
    (h : l.definitions address offset = inner ++ d :: behind) :
    l.DefinesData d.name ∧ d.value = offset
      ∧ ∀ name, l.label = some name → name ∈ inner.map (·.name) := by
  unfold SourceLine.definitions at h
  -- A line has its label first, so the data of a line with a label stand behind it.
  cases hlabel : l.label with
  | none =>
    have hmem : d ∈ l.dataName?.toList.map (⟨.data, l.number, ·, offset⟩) := by
      rw [hlabel, Option.toList_none, List.map_nil, List.nil_append] at h
      simp [h]
    obtain ⟨name, hname, rfl⟩ := List.mem_map.1 hmem
    exact ⟨definesData_of_dataName? (Option.mem_toList.1 hname), rfl,
      fun name h => absurd h (by simp)⟩
  | some label =>
    rw [hlabel, Option.toList_some, List.map_singleton, List.singleton_append] at h
    cases inner with
    | nil =>
      rw [← (List.cons.inj h).1] at hd
      exact absurd hd (by simp)
    | cons e inner =>
      obtain ⟨rfl, hrest⟩ := List.cons.inj h
      have hmem : d ∈ l.dataName?.toList.map (⟨.data, l.number, ·, offset⟩) := by
        simp [hrest]
      obtain ⟨name, hname, rfl⟩ := List.mem_map.1 hmem
      refine ⟨definesData_of_dataName? (Option.mem_toList.1 hname), rfl, ?_⟩
      intro other hother
      rw [← Option.some.inj hother]
      simp

/-- A name of data stands for the bytes of the data in front of the line of its first definition. -/
theorem exists_split_of_mem_entries {ls : List SourceLine} {name : String} {offset : Nat}
    (h : (name, offset) ∈ entries .data (firsts (definitions ls))) :
    ∃ pre l post, ls = pre ++ l :: post ∧ l.DefinesData name
      ∧ name ∉ (definitions pre).map (·.name) ∧ l.label ≠ some name ∧ offset = dataBytes pre := by
  obtain ⟨d, hd, heq⟩ := List.mem_map.1 h
  obtain ⟨rfl, rfl⟩ := Prod.mk.inj heq
  obtain ⟨hmem, hkind⟩ := List.mem_filter.1 hd
  obtain ⟨front, rest, hsplit, hnew⟩ := exists_split_of_mem_firsts hmem
  obtain ⟨pre, l, post, inner, behind, rfl, rfl, hl⟩ := exists_line_of_definitionsFrom hsplit
  obtain ⟨hdefines, hvalue, hlabel⟩ := data_of_definitions (eq_of_beq hkind) hl
  rw [List.map_append, List.mem_append, not_or] at hnew
  refine ⟨pre, l, post, rfl, hdefines, hnew.1, ?_, ?_⟩
  · exact fun he => hnew.2 (hlabel d.name he)
  · rw [hvalue, Nat.zero_add]

/-! ## The tables of a source -/

/-- What the tables of a source hold. -/
structure SymbolTables (source : List Char) : Prop where
  /-- No name is in both tables, and none is twice in one. -/
  nodup : ((assemble source).symbols.map Prod.fst).Nodup
  separate : ∀ name, name ∈ (assemble source).labels.map Prod.fst →
    name ∉ (assemble source).dataSymbols.map Prod.fst
  /-- Before each line, and behind the last one, a name is in one of the tables if and only if a
  line before defined it; the first definitions of their names are in the tables, and of each
  other definition there is one complaint, with its line. -/
  entered : ∀ pre, pre <+: sourceLines source →
    (Layout.of pre).Enters (definitions pre)
      ∧ ∀ name, (Layout.of pre).defines name = true ↔ name ∈ (definitions pre).map (·.name)
  errors : (assemble source).errors
    = (repeats (definitions (sourceLines source))).map Definition.complaint
      ++ unknownLines (sourceLines source)
  /-- Without errors every name is defined once, and every definition is in its table. -/
  once : (assemble source).success = true →
    ((definitions (sourceLines source)).map (·.name)).Nodup
      ∧ (assemble source).labels = entries .label (definitions (sourceLines source))
      ∧ (assemble source).dataSymbols = entries .data (definitions (sourceLines source))
  /-- The offset of a name of data is the number of bytes of all data in front of the line that
  defined it first. -/
  offset : ∀ name offset, (name, offset) ∈ (assemble source).dataSymbols →
    ∃ pre l post, sourceLines source = pre ++ l :: post ∧ l.DefinesData name
      ∧ name ∉ (definitions pre).map (·.name) ∧ l.label ≠ some name ∧ offset = dataBytes pre

section Source

variable (source : List Char)

/-- The errors are those of repeated names, and then those of unknown lines. -/
theorem errors_eq_repeats : (assemble source).errors
    = (repeats (definitions (sourceLines source))).map Definition.complaint
      ++ unknownLines (sourceLines source) := by
  rw [Assembly.errors]
  congr 1
  · exact (Layout.enters_of (sourceLines source)).errors
  · exact Emission.errors_of _ _

/-- Distinct names stay distinct in the joint table, whatever their kinds. -/
theorem nodup_entries {ds : List Definition} (h : (ds.map (·.name)).Nodup) :
    ((entries .data ds).map Prod.fst ++ (entries .label ds).map Prod.fst).Nodup := by
  rw [map_fst_entries, map_fst_entries]
  refine List.nodup_append.2 ⟨?_, ?_, ?_⟩
  · exact h.sublist (List.filter_sublist.map _)
  · exact h.sublist (List.filter_sublist.map _)
  · intro name hname other hother he
    obtain ⟨d, hd, rfl⟩ := List.mem_map.1 hname
    obtain ⟨e, he', rfl⟩ := List.mem_map.1 hother
    obtain ⟨hdmem, hdkind⟩ := List.mem_filter.1 hd
    obtain ⟨hemem, hekind⟩ := List.mem_filter.1 he'
    -- One definition cannot be of both kinds.
    have hsame := List.inj_on_of_nodup_map h hdmem hemem he
    rw [hsame, eq_of_beq hekind] at hdkind
    exact absurd hdkind (by decide)

/-- No name is twice in the joint table. -/
theorem nodup_symbols : ((assemble source).symbols.map Prod.fst).Nodup := by
  have henters := Layout.enters_of (sourceLines source)
  have hnames := (map_name_firsts (definitions (sourceLines source))).1
  have hdata : (assemble source).dataSymbols
      = entries .data (firsts (definitions (sourceLines source))) := henters.dataSymbols
  have hlabels : (assemble source).labels
      = entries .label (firsts (definitions (sourceLines source))) := henters.labels
  rw [Assembly.symbols, List.map_append, hdata, hlabels]
  exact nodup_entries hnames

/-- A source without errors defines no name again. -/
theorem repeats_of_success {source : List Char} (h : (assemble source).success = true) :
    repeats (definitions (sourceLines source)) = [] := by
  have hnil := List.isEmpty_iff.1 h
  rw [errors_eq_repeats] at hnil
  exact List.map_eq_nil_iff.1 (List.append_eq_nil_iff.1 hnil).1

/-- **The symbol tables of every source.** No name is in both. The first definition of a name enters
it and every other definition is complained of once, so a source without errors defines every name
once; and a name of data has the offset of all data in front of it. -/
theorem symbolTables_assemble : SymbolTables source where
  nodup := nodup_symbols source
  -- The table of all names is both tables behind each other.
  separate := by
    have hnodup := nodup_symbols source
    rw [Assembly.symbols, List.map_append] at hnodup
    intro name hlabel hdata
    exact (List.nodup_append.1 hnodup).2.2 name hdata name hlabel rfl
  entered := fun pre _ => ⟨Layout.enters_of pre, (Layout.enters_of pre).defines_iff⟩
  errors := errors_eq_repeats source
  once := by
    intro hsuccess
    have henters := Layout.enters_of (sourceLines source)
    have hfirsts := firsts_of_repeats (repeats_of_success hsuccess)
    have hnames := (map_name_firsts (definitions (sourceLines source))).1
    rw [hfirsts] at hnames
    refine ⟨hnames, ?_, ?_⟩
    · rw [← hfirsts]
      exact henters.labels
    · rw [← hfirsts]
      exact henters.dataSymbols
  offset := by
    intro name offset h
    have hdata := (Layout.enters_of (sourceLines source)).dataSymbols
    rw [Assembly.dataSymbols,
      show (assemble source).layout = Layout.of (sourceLines source) from rfl, hdata] at h
    exact exists_split_of_mem_entries h

end Source

/-! A label in front of a directive takes the name from its data, which take their place all the
same. -/

example : (assemble "b db 1, 2\nx: x dw 3\ny dd 4".toList).dataSymbols = [("b", 0), ("y", 4)] := by
  decide +kernel

end TurboBench.Asm
