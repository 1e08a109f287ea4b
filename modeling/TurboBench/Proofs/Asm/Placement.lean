import Mathlib.Data.List.Chain
import Mathlib.Data.List.Induction
import TurboBench.Asm.Assembly

/-!
# Where records and labels are placed

The two passes count addresses separately, over the same lines and with skip conditions of their
own. Here both are brought to one closed form: the address before a line is the load address plus
the bytes of the instructions on the lines before it (`SourceLine.codeBytes`). The records of the
second pass are then a recursion on the lines (`recordsFrom`), and a label of the first pass is a
cut of the lines into those before its first definition and the rest.

Nothing below asks for a source without errors. A line with an unknown instruction adds no bytes
in either pass, and a label that is defined again keeps the place of its first definition.
-/

set_option autoImplicit false

namespace TurboBench.Asm

open TurboBench.Text (trim lines)

/-! ## The lines of a source -/

theorem map_fst_numbered {α : Type} (n : Nat) (as : List α) :
    (numbered n as).map Prod.fst = List.range' n as.length := by
  induction as generalizing n with
  | nil => rfl
  | cons a as ih => rw [numbered, List.map_cons, ih, List.length_cons, List.range'_succ]

/-- Lines as a source has them: numbered upwards, each instruction with the number of its line. -/
structure Ascending (ls : List SourceLine) : Prop where
  numbers : ls.Pairwise (·.number < ·.number)
  line : ∀ l ∈ ls, ∀ i, l.content = .instruction i → i.line = l.number

namespace Ascending

theorem tail {l : SourceLine} {ls : List SourceLine} (h : Ascending (l :: ls)) : Ascending ls :=
  ⟨h.numbers.of_cons, fun k hk => h.line k (List.mem_cons_of_mem l hk)⟩

theorem lt_of_mem_left {pre post : List SourceLine} {l k : SourceLine}
    (h : Ascending (pre ++ l :: post)) (hk : k ∈ pre) : k.number < l.number :=
  (List.pairwise_append.1 h.numbers).2.2 k hk l List.mem_cons_self

theorem lt_of_mem_right {pre post : List SourceLine} {l k : SourceLine}
    (h : Ascending (pre ++ l :: post)) (hk : k ∈ post) : l.number < k.number := by
  have hcons := (List.pairwise_append.1 h.numbers).2.1
  exact List.rel_of_pairwise_cons hcons hk

end Ascending

/-- An instruction has the number of the line that it was read from. -/
theorem line_of_content_read {n : Nat} {cs : List Char} {i : Instruction}
    (h : (SourceLine.read n cs).content = .instruction i) : i.line = n := by
  simp only [SourceLine.read] at h
  -- Empty content and directives are settled before the text is looked at as an instruction.
  split at h
  · simp at h
  · split at h
    · simp at h
    · split at h
      · rename_i j hj
        obtain ⟨m, -, rfl⟩ := Option.map_eq_some_iff.1 hj
        rw [← Content.instruction.inj h]
      · simp at h

/-- Lines are numbered upwards. -/
theorem ascending_sourceLines (source : List Char) : Ascending (sourceLines source) := by
  have hnumber : (sourceLines source).map (·.number) = List.range' 1 (lines source).length := by
    rw [sourceLines, List.map_map, ← map_fst_numbered]
    rfl
  refine ⟨?_, ?_⟩
  · -- The numbers by themselves are `1, 2, …`, which is where the order is seen.
    have hlt : ((sourceLines source).map (·.number)).Pairwise (· < ·) := by
      rw [hnumber]
      exact List.pairwise_lt_range'
    exact List.pairwise_map.1 hlt
  · intro l hl i hi
    obtain ⟨⟨n, cs⟩, -, rfl⟩ := List.mem_map.1 hl
    exact line_of_content_read hi

/-! ## The bytes of lines -/

/-- The number of bytes that a line adds to the code. -/
def SourceLine.codeBytes (l : SourceLine) : Nat :=
  match l.content with
  | .instruction i => i.size
  | _ => 0

/-- The number of bytes that lines add to the code. -/
def codeBytes : List SourceLine → Nat
  | [] => 0
  | l :: ls => l.codeBytes + codeBytes ls

@[simp] theorem codeBytes_nil : codeBytes [] = 0 := rfl

@[simp] theorem codeBytes_cons (l : SourceLine) (ls : List SourceLine) :
    codeBytes (l :: ls) = l.codeBytes + codeBytes ls := rfl

theorem codeBytes_append (ls ks : List SourceLine) :
    codeBytes (ls ++ ks) = codeBytes ls + codeBytes ks := by
  induction ls with
  | nil => rw [List.nil_append, codeBytes_nil, Nat.zero_add]
  | cons l ls ih => rw [List.cons_append, codeBytes_cons, codeBytes_cons, ih, Nat.add_assoc]

/-! ## The second pass -/

/-- The records of lines, the first of which is placed at the address `n`. -/
def recordsFrom (labels : SymbolTable) : Nat → List SourceLine → List Record
  | _, [] => []
  | n, l :: ls =>
    match l.content with
    | .instruction i =>
      ⟨n, i.encode labels, String.ofList l.text, i⟩ :: recordsFrom labels (n + i.size) ls
    | _ => recordsFrom labels n ls

/-- The complaints about lines whose content is unknown. -/
def unknownLines (ls : List SourceLine) : List LineComplaint :=
  (ls.filter (·.content == .unknown)).map fun l => ⟨l.number, .unknownContent⟩

section SecondPass

variable (labels : SymbolTable)

theorem recordsFrom_cons_of_instruction {l : SourceLine} {i : Instruction} (n : Nat)
    (ls : List SourceLine) (h : l.content = .instruction i) :
    recordsFrom labels n (l :: ls)
      = ⟨n, i.encode labels, String.ofList l.text, i⟩ :: recordsFrom labels (n + i.size) ls := by
  simp [recordsFrom, h]

theorem recordsFrom_cons_of_not_instruction {l : SourceLine} (n : Nat) (ls : List SourceLine)
    (h : ∀ i, l.content ≠ .instruction i) :
    recordsFrom labels n (l :: ls) = recordsFrom labels n ls := by
  cases hc : l.content with
  | instruction i => exact absurd hc (h i)
  | _ => simp [recordsFrom, hc]

/-- A pass over further lines goes on at the address that the lines before them lead to. -/
theorem recordsFrom_append (n : Nat) (ls ks : List SourceLine) :
    recordsFrom labels n (ls ++ ks)
      = recordsFrom labels n ls ++ recordsFrom labels (n + codeBytes ls) ks := by
  induction ls generalizing n with
  | nil => rfl
  | cons l ls ih =>
    cases hc : l.content with
    | instruction i =>
      simp [recordsFrom, hc, ih, SourceLine.codeBytes, Nat.add_assoc]
    | _ => simp [recordsFrom, hc, ih, SourceLine.codeBytes]

/-- The records of lines take the bytes that the lines take. -/
theorem totalSize_recordsFrom (n : Nat) (ls : List SourceLine) :
    Record.totalSize (recordsFrom labels n ls) = codeBytes ls := by
  induction ls generalizing n with
  | nil => rfl
  | cons l ls ih =>
    cases hc : l.content with
    | instruction i =>
      simp [recordsFrom, hc, ih, SourceLine.codeBytes, Record.totalSize, Record.size]
    | _ => simp [recordsFrom, hc, ih, SourceLine.codeBytes]

/-- A record comes from an instruction, with the bytes of the lines before it in front. -/
theorem exists_split_of_mem_recordsFrom {n : Nat} {ls : List SourceLine} {r : Record}
    (h : r ∈ recordsFrom labels n ls) :
    ∃ pre l post i, ls = pre ++ l :: post ∧ l.content = .instruction i ∧
      r = ⟨n + codeBytes pre, i.encode labels, String.ofList l.text, i⟩ := by
  induction ls generalizing n with
  | nil => simp [recordsFrom] at h
  | cons l ls ih =>
    by_cases hc : ∃ i, l.content = .instruction i
    · obtain ⟨i, hi⟩ := hc
      have hbytes : l.codeBytes = i.size := by rw [SourceLine.codeBytes, hi]
      rw [recordsFrom_cons_of_instruction labels n ls hi] at h
      rcases List.mem_cons.1 h with rfl | h
      · exact ⟨[], l, ls, i, rfl, hi, rfl⟩
      · obtain ⟨pre, k, post, j, rfl, hj, rfl⟩ := ih h
        refine ⟨l :: pre, k, post, j, rfl, hj, ?_⟩
        rw [codeBytes_cons, hbytes, Nat.add_assoc]
    · have hbytes : l.codeBytes = 0 := by
        cases hk : l.content with
        | instruction i => exact absurd ⟨i, hk⟩ hc
        | _ => simp [SourceLine.codeBytes, hk]
      rw [recordsFrom_cons_of_not_instruction labels n ls (fun i hi => hc ⟨i, hi⟩)] at h
      obtain ⟨pre, k, post, j, rfl, hj, rfl⟩ := ih h
      refine ⟨l :: pre, k, post, j, rfl, hj, ?_⟩
      rw [codeBytes_cons, hbytes, Nat.zero_add]

theorem exists_line_of_mem_recordsFrom {n : Nat} {ls : List SourceLine} {r : Record}
    (h : r ∈ recordsFrom labels n ls) : ∃ l ∈ ls, l.content = .instruction r.instruction := by
  obtain ⟨pre, l, post, i, rfl, hi, rfl⟩ := exists_split_of_mem_recordsFrom labels h
  exact ⟨l, by simp, hi⟩

theorem bytes_of_mem_recordsFrom {n : Nat} {ls : List SourceLine} {r : Record}
    (h : r ∈ recordsFrom labels n ls) : r.bytes = r.instruction.encode labels := by
  obtain ⟨-, -, -, i, -, -, rfl⟩ := exists_split_of_mem_recordsFrom labels h
  rfl

theorem le_address_of_mem_recordsFrom {n : Nat} {ls : List SourceLine} {r : Record}
    (h : r ∈ recordsFrom labels n ls) : n ≤ r.address := by
  obtain ⟨pre, -, -, i, -, -, rfl⟩ := exists_split_of_mem_recordsFrom labels h
  exact Nat.le_add_right n (codeBytes pre)

/-- No record ends behind the bytes of all lines. -/
theorem following_le_of_mem_recordsFrom {n : Nat} {ls : List SourceLine} {r : Record}
    (h : r ∈ recordsFrom labels n ls) : r.following ≤ n + codeBytes ls := by
  obtain ⟨pre, l, post, i, rfl, hi, rfl⟩ := exists_split_of_mem_recordsFrom labels h
  have hbytes : l.codeBytes = i.size := by rw [SourceLine.codeBytes, hi]
  rw [codeBytes_append, codeBytes_cons, hbytes]
  simp only [Record.following, Record.size]
  omega

theorem exists_number_of_mem_recordsFrom {n : Nat} {ls : List SourceLine} {r : Record}
    (ha : Ascending ls) (h : r ∈ recordsFrom labels n ls) : ∃ l ∈ ls, r.line = l.number := by
  obtain ⟨l, hl, hc⟩ := exists_line_of_mem_recordsFrom labels h
  exact ⟨l, hl, ha.line l hl _ hc⟩

/-- Records stand in the order of their lines. -/
theorem pairwise_line_recordsFrom {n : Nat} {ls : List SourceLine} (ha : Ascending ls) :
    (recordsFrom labels n ls).Pairwise (·.line < ·.line) := by
  induction ls generalizing n with
  | nil => exact List.Pairwise.nil
  | cons l ls ih =>
    by_cases hc : ∃ i, l.content = .instruction i
    · obtain ⟨i, hi⟩ := hc
      rw [recordsFrom_cons_of_instruction labels n ls hi]
      refine List.pairwise_cons.2 ⟨?_, ih ha.tail⟩
      intro r hr
      -- A later record is on a later line, since it comes from one of the lines behind.
      obtain ⟨k, hk, hrk⟩ := exists_number_of_mem_recordsFrom labels ha.tail hr
      have hlk : l.number < k.number := List.rel_of_pairwise_cons ha.numbers hk
      have hil : i.line = l.number := ha.line l List.mem_cons_self i hi
      simp only [Record.line] at hrk ⊢
      omega
    · rw [recordsFrom_cons_of_not_instruction labels n ls (fun i hi => hc ⟨i, hi⟩)]
      exact ih ha.tail

/-- The first record stands where one begins. -/
theorem address_of_head_recordsFrom {n : Nat} {ls : List SourceLine} {r : Record}
    (h : (recordsFrom labels n ls).head? = some r) : r.address = n := by
  induction ls with
  | nil => simp [recordsFrom] at h
  | cons l ls ih =>
    cases hc : l.content with
    | instruction i =>
      rw [recordsFrom_cons_of_instruction labels n ls hc, List.head?_cons] at h
      rw [← Option.some.inj h]
    | _ =>
      simp only [recordsFrom, hc] at h
      exact ih h

/-- Each record begins where the one before it ends. -/
theorem isChain_recordsFrom (n : Nat) (ls : List SourceLine) :
    (recordsFrom labels n ls).IsChain (fun r q => q.address = r.following) := by
  induction ls generalizing n with
  | nil => exact List.IsChain.nil
  | cons l ls ih =>
    by_cases hc : ∃ i, l.content = .instruction i
    · obtain ⟨i, hi⟩ := hc
      rw [recordsFrom_cons_of_instruction labels n ls hi]
      refine List.isChain_cons.2 ⟨?_, ih (n + i.size)⟩
      intro q hq
      exact address_of_head_recordsFrom labels hq
    · rw [recordsFrom_cons_of_not_instruction labels n ls (fun i hi => hc ⟨i, hi⟩)]
      exact ih n

/-- Addresses grow along the records, since every instruction takes a byte. -/
theorem pairwise_address_recordsFrom (n : Nat) (ls : List SourceLine) :
    (recordsFrom labels n ls).Pairwise (·.address < ·.address) := by
  induction ls generalizing n with
  | nil => exact List.Pairwise.nil
  | cons l ls ih =>
    by_cases hc : ∃ i, l.content = .instruction i
    · obtain ⟨i, hi⟩ := hc
      rw [recordsFrom_cons_of_instruction labels n ls hi]
      refine List.pairwise_cons.2 ⟨?_, ih (n + i.size)⟩
      intro r hr
      -- The rest of the pass starts behind this instruction, at least one byte further on.
      have hle := le_address_of_mem_recordsFrom labels hr
      have hsize := i.size_bounds
      simp only
      omega
    · rw [recordsFrom_cons_of_not_instruction labels n ls (fun i hi => hc ⟨i, hi⟩)]
      exact ih n

/-- The last record ends where the pass ends. -/
theorem following_of_getLast_recordsFrom (n : Nat) (ls : List SourceLine) :
    ((recordsFrom labels n ls).getLast?.map Record.following).getD n = n + codeBytes ls := by
  induction ls generalizing n with
  | nil => simp [recordsFrom]
  | cons l ls ih =>
    cases hc : l.content with
    | instruction i =>
      -- With no record behind it this one is the last; otherwise the last one is further back.
      have hrest := ih (n + i.size)
      rw [recordsFrom_cons_of_instruction labels n ls hc, List.getLast?_cons, Option.map_some,
        Option.getD_some, codeBytes_cons, SourceLine.codeBytes, hc]
      cases hlast : (recordsFrom labels (n + i.size) ls).getLast? with
      | none =>
        rw [hlast] at hrest
        simp only [Option.map_none, Option.getD_none] at hrest
        simp only [Option.getD_none, Record.following, Record.size]
        omega
      | some r =>
        rw [hlast] at hrest
        simp only [Option.map_some, Option.getD_some] at hrest
        simp only [Option.getD_some]
        omega
    | _ => simp [recordsFrom, hc, ih, SourceLine.codeBytes]

namespace Emission

/-- One line moves the second pass on by its bytes. -/
theorem next_eq (s : Emission) (l : SourceLine) :
    (s.next labels l).address = s.address + l.codeBytes
      ∧ (s.next labels l).records = s.records ++ recordsFrom labels s.address [l]
      ∧ (s.next labels l).errors = s.errors ++ unknownLines [l] := by
  unfold next SourceLine.codeBytes
  -- one case for each kind of content
  split <;> simp_all [recordsFrom, unknownLines, instruction]

/-- The second pass adds the bytes, the records and the unknown lines of the lines that it goes
over. -/
theorem foldl_next_eq (ls : List SourceLine) (s : Emission) :
    (ls.foldl (next labels) s).address = s.address + codeBytes ls
      ∧ (ls.foldl (next labels) s).records = s.records ++ recordsFrom labels s.address ls
      ∧ (ls.foldl (next labels) s).errors = s.errors ++ unknownLines ls := by
  induction ls generalizing s with
  | nil => simp [recordsFrom, unknownLines]
  | cons l ls ih =>
    obtain ⟨haddress, hrecords, herrors⟩ := next_eq labels s l
    obtain ⟨iha, ihr, ihe⟩ := ih (s.next labels l)
    refine ⟨?_, ?_, ?_⟩
    · rw [List.foldl_cons, iha, haddress, codeBytes_cons, Nat.add_assoc]
    · -- The records of one line and of the rest are those of the lines cut behind the first.
      have hsplit := recordsFrom_append labels s.address [l] ls
      rw [List.foldl_cons, ihr, hrecords, haddress, List.append_assoc]
      rw [codeBytes_cons, codeBytes_nil, Nat.add_zero] at hsplit
      rw [← hsplit, List.singleton_append]
    · rw [List.foldl_cons, ihe, herrors, List.append_assoc, unknownLines, unknownLines,
        ← List.map_append, ← List.filter_append, List.singleton_append, ← unknownLines]

/-- The second pass in closed form: its records, and the address behind the last one. -/
theorem records_of (ls : List SourceLine) :
    (of labels ls).records = recordsFrom labels loadAddress ls := by
  rw [of, (foldl_next_eq labels ls start).2.1]
  rfl

theorem errors_of (ls : List SourceLine) : (of labels ls).errors = unknownLines ls := by
  rw [of, (foldl_next_eq labels ls start).2.2]
  rfl

theorem address_of (ls : List SourceLine) :
    (of labels ls).address = loadAddress + codeBytes ls :=
  (foldl_next_eq labels ls start).1

end Emission

end SecondPass

/-! ## The first pass -/

namespace Layout

theorem of_append_singleton (ls : List SourceLine) (l : SourceLine) :
    of (ls ++ [l]) = (of ls).next l := by
  rw [of, of, List.foldl_append, List.foldl_cons, List.foldl_nil]

/-- The state before the content of a line is looked at. -/
def label (s : Layout) (l : SourceLine) : Layout :=
  l.label.elim s (s.defineLabel l.number)

/-- A label takes no room. -/
theorem address_label (s : Layout) (l : SourceLine) : (s.label l).address = s.address := by
  unfold label
  cases l.label with
  | none => rfl
  | some name =>
    simp only [Option.elim_some, defineLabel]
    split <;> rfl

/-- A directive takes no room in the code and enters no label. -/
theorem directive_eq (s : Layout) (n : Nat) (d : Directive) :
    (s.directive n d).address = s.address ∧ (s.directive n d).labels = s.labels := by
  unfold directive
  cases d with
  | define symbol unit value =>
    cases symbol with
    | none => exact ⟨rfl, rfl⟩
    | some name =>
      simp only [Option.elim_some, defineData]
      split <;> exact ⟨rfl, rfl⟩
  | _ => exact ⟨rfl, rfl⟩

/-- Only the label of a line can enter the table of labels. -/
theorem labels_next (s : Layout) (l : SourceLine) : (s.next l).labels = (s.label l).labels := by
  unfold next
  simp only
  rw [← label]
  cases l.content with
  | directive d => exact (directive_eq (s.label l) l.number d).2
  | _ => rfl

/-- One line moves the first pass on by its bytes. -/
theorem address_next (s : Layout) (l : SourceLine) :
    (s.next l).address = s.address + l.codeBytes := by
  -- A label moves nothing, and of the kinds of content only an instruction does.
  rw [← address_label s l]
  unfold next SourceLine.codeBytes
  simp only
  rw [← label]
  cases l.content with
  | directive d => exact (directive_eq (s.label l) l.number d).1
  | _ => rfl

/-- The first pass counts addresses as the second one does. -/
theorem address_of (ls : List SourceLine) : (of ls).address = loadAddress + codeBytes ls := by
  -- from the back, since the pass is a fold from the left
  induction ls using List.reverseRecOn with
  | nil => rfl
  | append_singleton ls l ih =>
    rw [of_append_singleton, address_next, ih, codeBytes_append, codeBytes_cons, codeBytes_nil]
    omega

/-! A name stays defined, whichever table it is in. -/

theorem isSome_lookup_append (t u : SymbolTable) (name : String) :
    ((t ++ u).lookup name).isSome = ((t.lookup name).isSome || (u.lookup name).isSome) := by
  rw [List.lookup_append]
  cases t.lookup name <;> simp

/-- After the definition of a label its name is taken, and no other is that was not. -/
theorem defines_defineLabel (s : Layout) (n : Nat) (name other : String) :
    (s.defineLabel n name).defines other = (s.defines other || other == name) := by
  unfold defineLabel
  by_cases h : s.defines name = true
  · -- A name that is defined already is left alone, so nothing becomes defined.
    rw [if_pos h]
    by_cases ho : other = name
    · subst ho
      simpa [defines] using h
    · have hne : (other == name) = false := by simpa using ho
      rw [hne, Bool.or_false]
      rfl
  · rw [if_neg h]
    simp only [defines, isSome_lookup_append]
    by_cases ho : other = name
    · simp [ho]
    · have hne : (other == name) = false := by simpa using ho
      simp [List.lookup_cons, hne]

/-- After the label of a line its name is taken, and no other is that was not. -/
theorem defines_label (s : Layout) (l : SourceLine) (name : String) :
    (s.label l).defines name = (s.defines name || l.label == some name) := by
  unfold label
  cases l.label with
  | none => simp
  | some other =>
    rw [Option.elim_some, defines_defineLabel]
    rw [Option.some_beq_some, Bool.beq_comm (a := name)]

/-- A directive frees no name. -/
theorem defines_directive {s : Layout} {name : String} (n : Nat) (d : Directive)
    (h : s.defines name = true) : (s.directive n d).defines name = true := by
  unfold directive
  cases d with
  | define symbol unit value =>
    cases symbol with
    | none => exact h
    | some other =>
      simp only [Option.elim_some, defineData]
      split
      · exact h
      · -- The table of data symbols grows at its end, and the name was in one of the two tables.
        simp only [defines, isSome_lookup_append, Bool.or_eq_true] at h ⊢
        rcases h with h | h
        · exact Or.inl h
        · exact Or.inr (Or.inl h)
  | _ => exact h

/-- After a line all names are taken that were, and so is its label. -/
theorem defines_next {s : Layout} {l : SourceLine} {name : String}
    (h : s.defines name = true ∨ l.label = some name) : (s.next l).defines name = true := by
  have hlabel : (s.label l).defines name = true := by
    rw [defines_label]
    rcases h with h | h <;> simp [h]
  unfold next
  simp only
  rw [← label]
  cases l.content with
  | directive d => exact defines_directive l.number d hlabel
  | _ => exact hlabel

/-- After all lines the label of each of them is taken. -/
theorem defines_of_mem {ls : List SourceLine} {l : SourceLine} {name : String} (hl : l ∈ ls)
    (h : l.label = some name) : (of ls).defines name = true := by
  induction ls using List.reverseRecOn with
  | nil => simp at hl
  | append_singleton ls k ih =>
    rw [of_append_singleton]
    rcases List.mem_append.1 hl with hl | hl
    · exact defines_next (Or.inl (ih hl))
    · rw [List.mem_singleton.1 hl] at h
      exact defines_next (Or.inr h)

/-- A label stands for the address before the first line that carries it. -/
theorem exists_split_of_mem_labels {ls : List SourceLine} {name : String} {address : Nat}
    (h : (name, address) ∈ (of ls).labels) :
    ∃ pre l post, ls = pre ++ l :: post ∧ l.label = some name
      ∧ (∀ k ∈ pre, k.label ≠ some name) ∧ address = loadAddress + codeBytes pre := by
  induction ls using List.reverseRecOn with
  | nil => simp [of, start] at h
  | append_singleton ls l ih =>
    -- An entry that was there before has its cut already; the last line only lengthens `post`.
    have hold (h : (name, address) ∈ (of ls).labels) :
        ∃ pre k post, ls ++ [l] = pre ++ k :: post ∧ k.label = some name
          ∧ (∀ k ∈ pre, k.label ≠ some name) ∧ address = loadAddress + codeBytes pre := by
      obtain ⟨pre, k, post, hls, hk⟩ := ih h
      exact ⟨pre, k, post ++ [l], by rw [hls, List.append_assoc, List.cons_append], hk⟩
    rw [of_append_singleton, labels_next, label] at h
    cases hl : l.label with
    | none =>
      rw [hl] at h
      exact hold h
    | some other =>
      rw [hl, Option.elim_some, defineLabel] at h
      split at h
      · exact hold h
      · rename_i hnew
        rcases List.mem_append.1 h with h | h
        · exact hold h
        · -- The label is new, so no line before this one carries it.
          obtain ⟨rfl, rfl⟩ := Prod.mk.inj (List.mem_singleton.1 h)
          exact ⟨ls, l, [], rfl, hl, fun k hk hkl => hnew (defines_of_mem hk hkl), address_of ls⟩

end Layout

end TurboBench.Asm
