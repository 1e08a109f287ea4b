import TurboBench.Proofs.Asm.Placement

/-!
# The two passes agree

The main result, `passesAgree_assemble`, holds of every source, with or without errors: the records
lie one behind the other from the load address on, every line with content comes to exactly one of
a directive, a record and a complaint, and every label stands for the address of the first record
at or behind its line.

The closed forms of `Placement` reduce each part to a statement on lists of lines. What is added
here is what a cut of the lines at one of them does to the records: the records before the line
are those of the lines before it (`filter_line_lt`), and the line itself has at most one
(`filter_line_eq`).
-/

set_option autoImplicit false

namespace TurboBench.Asm

open TurboBench.Text (trim lines)

/-! ## Cutting the records at a line -/

section Cut

variable {pre post : List SourceLine} {l : SourceLine}

/-- Records of the lines before a line have smaller numbers. -/
theorem line_lt_of_mem_left (h : Ascending (pre ++ l :: post)) (labels : SymbolTable) {n : Nat}
    {r : Record} (hr : r ∈ recordsFrom labels n pre) : r.line < l.number := by
  obtain ⟨k, hk, hc⟩ := exists_line_of_mem_recordsFrom labels hr
  have hline : r.line = k.number := h.line k (List.mem_append_left _ hk) _ hc
  rw [hline]
  exact h.lt_of_mem_left hk

/-- Records of the lines behind a line have greater numbers. -/
theorem lt_line_of_mem_right (h : Ascending (pre ++ l :: post)) (labels : SymbolTable) {n : Nat}
    {r : Record} (hr : r ∈ recordsFrom labels n post) : l.number < r.line := by
  obtain ⟨k, hk, hc⟩ := exists_line_of_mem_recordsFrom labels hr
  have hmem : k ∈ pre ++ l :: post := List.mem_append_right _ (List.mem_cons_of_mem l hk)
  have hline : r.line = k.number := h.line k hmem _ hc
  rw [hline]
  exact h.lt_of_mem_right hk

theorem line_eq_of_mem_singleton (h : Ascending (pre ++ l :: post)) (labels : SymbolTable) {n : Nat}
    {r : Record} (hr : r ∈ recordsFrom labels n [l]) : r.line = l.number := by
  obtain ⟨k, hk, hc⟩ := exists_line_of_mem_recordsFrom labels hr
  rw [List.mem_singleton.1 hk] at hc
  exact h.line l (List.mem_append_right _ List.mem_cons_self) _ hc

theorem recordsFrom_cut (labels : SymbolTable) (n : Nat) :
    recordsFrom labels n (pre ++ l :: post)
      = recordsFrom labels n pre ++ (recordsFrom labels (n + codeBytes pre) [l]
        ++ recordsFrom labels (n + codeBytes pre + l.codeBytes) post) := by
  have hcons := recordsFrom_append labels (n + codeBytes pre) [l] post
  rw [codeBytes_cons, codeBytes_nil, Nat.add_zero, List.singleton_append] at hcons
  rw [recordsFrom_append, hcons]

/-- The records on a line are those that the line alone is assembled to. -/
theorem filter_line_eq (h : Ascending (pre ++ l :: post)) (labels : SymbolTable) (n : Nat) :
    (recordsFrom labels n (pre ++ l :: post)).filter (·.line = l.number)
      = recordsFrom labels (n + codeBytes pre) [l] := by
  -- nothing of the lines before, all of the line, nothing of the lines behind
  rw [recordsFrom_cut, List.filter_append, List.filter_append]
  rw [List.filter_eq_nil_iff.2 fun r hr => by
      have := line_lt_of_mem_left h labels hr
      simp only [decide_eq_true_eq]
      omega]
  rw [List.filter_eq_self.2 fun r hr => decide_eq_true (line_eq_of_mem_singleton h labels hr)]
  rw [List.filter_eq_nil_iff.2 fun r hr => by
      have := lt_line_of_mem_right h labels hr
      simp only [decide_eq_true_eq]
      omega]
  rw [List.nil_append, List.append_nil]

/-- The records with smaller numbers than a line are those of the lines before it. -/
theorem filter_line_lt (h : Ascending (pre ++ l :: post)) (labels : SymbolTable) (n : Nat) :
    (recordsFrom labels n (pre ++ l :: post)).filter (·.line < l.number)
      = recordsFrom labels n pre := by
  -- all of the lines before, nothing of the line and of those behind
  rw [recordsFrom_cut, List.filter_append, List.filter_append]
  rw [List.filter_eq_self.2 fun r hr => decide_eq_true (line_lt_of_mem_left h labels hr)]
  rw [List.filter_eq_nil_iff.2 fun r hr => by
      have := line_eq_of_mem_singleton h labels hr
      simp only [decide_eq_true_eq]
      omega]
  rw [List.filter_eq_nil_iff.2 fun r hr => by
      have := lt_line_of_mem_right h labels hr
      simp only [decide_eq_true_eq]
      omega]
  rw [List.append_nil, List.append_nil]

/-- The first record at or behind a line is the first one of the lines from it on. -/
theorem find?_le_line (h : Ascending (pre ++ l :: post)) (labels : SymbolTable) (n : Nat) :
    (recordsFrom labels n (pre ++ l :: post)).find? (l.number ≤ ·.line)
      = (recordsFrom labels (n + codeBytes pre) (l :: post)).head? := by
  rw [recordsFrom_append, List.find?_append]
  rw [List.find?_eq_none.2 fun r hr => by
      have := line_lt_of_mem_left h labels hr
      simp only [decide_eq_true_eq]
      omega]
  rw [Option.none_or]
  cases hrest : recordsFrom labels (n + codeBytes pre) (l :: post) with
  | nil => rfl
  | cons r rs =>
    -- Whatever comes first among the records that are left passes the test.
    have hr : r ∈ recordsFrom labels (n + codeBytes pre) (l :: post) := by
      rw [hrest]
      exact List.mem_cons_self
    obtain ⟨k, hk, hc⟩ := exists_line_of_mem_recordsFrom labels hr
    have hline : r.line = k.number := h.line k (List.mem_append_right _ hk) _ hc
    have hle : l.number ≤ r.line := by
      rw [hline]
      rcases List.mem_cons.1 hk with rfl | hk
      · exact Nat.le_refl _
      · exact Nat.le_of_lt (h.lt_of_mem_right hk)
    rw [List.find?_cons, decide_eq_true hle, List.head?_cons]

/-- The complaints about the content of a line are those that the line alone draws. -/
theorem filter_unknownLines (h : Ascending (pre ++ l :: post)) :
    (unknownLines (pre ++ l :: post)).filter (·.line = l.number) = unknownLines [l] := by
  have hnone (ks : List SourceLine) (hks : ∀ k ∈ ks, k.number ≠ l.number) :
      (unknownLines ks).filter (·.line = l.number) = [] := by
    refine List.filter_eq_nil_iff.2 fun c hc => ?_
    obtain ⟨k, hk, rfl⟩ := List.mem_map.1 hc
    simpa using hks k (List.mem_filter.1 hk).1
  have hsplit : unknownLines (pre ++ l :: post)
      = unknownLines pre ++ (unknownLines [l] ++ unknownLines post) := by
    simp only [unknownLines, ← List.map_append, ← List.filter_append, List.singleton_append]
  rw [hsplit, List.filter_append, List.filter_append,
    hnone pre fun k hk => Nat.ne_of_lt (h.lt_of_mem_left hk),
    hnone post fun k hk => Nat.ne_of_gt (h.lt_of_mem_right hk), List.nil_append, List.append_nil]
  refine List.filter_eq_self.2 fun c hc => ?_
  obtain ⟨k, hk, rfl⟩ := List.mem_map.1 hc
  rw [List.mem_singleton.1 (List.mem_filter.1 hk).1]
  exact decide_eq_true rfl

end Cut

/-- The first pass complains of names only. -/
theorem complaint_of_mem_layout {ls : List SourceLine} {c : LineComplaint}
    (h : c ∈ (Layout.of ls).errors) : c.complaint ≠ .unknownContent := by
  induction ls using List.reverseRecOn with
  | nil => simp [Layout.of, Layout.start] at h
  | append_singleton ls l ih =>
    rw [Layout.of_append_singleton] at h
    have hlabel (h : c ∈ ((Layout.of ls).label l).errors) : c.complaint ≠ .unknownContent := by
      unfold Layout.label at h
      cases hl : l.label with
      | none =>
        rw [hl] at h
        exact ih h
      | some name =>
        rw [hl, Option.elim_some, Layout.defineLabel] at h
        split at h
        · rcases List.mem_append.1 h with h | h
          · exact ih h
          · rw [List.mem_singleton.1 h]
            simp
        · exact ih h
    unfold Layout.next at h
    simp only at h
    rw [← Layout.label] at h
    -- Besides a label only the name of a data definition can be complained of.
    cases hc : l.content with
    | directive d =>
      rw [hc] at h
      cases d with
      | define symbol unit value =>
        cases symbol with
        | none => exact hlabel h
        | some name =>
          simp only [Layout.directive, Option.elim_some, Layout.defineData] at h
          split at h
          · rcases List.mem_append.1 h with h | h
            · exact hlabel h
            · rw [List.mem_singleton.1 h]
              simp
          · exact hlabel h
      | _ => exact hlabel h
    | _ =>
      rw [hc] at h
      exact hlabel h

/-! ## The agreement -/

/-- The label of a line. -/
def lineLabel (text : List Char) : Option String :=
  (splitLabel (trim (stripComment text))).1

/-- A line without its comment, its label and outer white space. -/
def lineContent (text : List Char) : List Char :=
  (splitLabel (trim (stripComment text))).2

/-- The content of the line `n` led to exactly one thing: it is a directive, with neither a record
nor a complaint, or it is none and has one record, or it is none and drew one complaint. -/
def ContentSettled (a : Assembly) (n : Nat) (text : List Char) : Prop :=
  let records := a.records.filter (·.line = n)
  let complaints :=
    (a.errors.filter fun c => c.line = n ∧ c.complaint = .unknownContent).map (·.text)
  ((∃ d, Directive.read? (lineContent text) = some d) ∧ records = [] ∧ complaints = [])
    ∨ (Directive.read? (lineContent text) = none ∧ records.length = 1 ∧ complaints = [])
    ∨ (Directive.read? (lineContent text) = none ∧ records = []
      ∧ complaints = [s!"Line {n}: Unknown instruction or directive"])

/-- What it means for the passes over a source to agree. -/
structure PassesAgree (source : List Char) (a : Assembly) : Prop where
  /-- The records stand in the order of their lines. -/
  lines_increase : (a.records.map (·.line)).Pairwise (· < ·)
  /-- The first record stands at the load address. -/
  first : ∀ r, a.records.head? = some r → r.address = 0x100
  /-- Every other one stands where the record before it ends. -/
  next : a.records.IsChain fun r q => q.address = r.address + r.size
  /-- No two records share an address, so a search for one finds the record that stands there. -/
  unique : ∀ r ∈ a.records, ∀ q ∈ a.records, q.address = r.address → q = r
  found : ∀ r ∈ a.records, a.recordAt? r.address = some r
  /-- Sorting the records by address does not move them. -/
  sorted : a.records.mergeSort (·.address ≤ ·.address) = a.records
  /-- The size of the code is counted from the load address to the end of the last record. -/
  size : a.codeSize = (a.records.getLast?.map Record.following).getD 0x100 - 0x100
  /-- Every line with content is a directive, one record or one complaint. -/
  content : ∀ n text, (n, text) ∈ numbered 1 (lines source) → lineContent text ≠ [] →
    ContentSettled a n text
  /-- A label stands for the place behind the records of the lines before its first definition. -/
  label : ∀ name address, (name, address) ∈ a.labels → ∃ n text,
    (n, text) ∈ numbered 1 (lines source) ∧ lineLabel text = some name
      ∧ (∀ m other, (m, other) ∈ numbered 1 (lines source) → lineLabel other = some name → n ≤ m)
      ∧ address = 0x100 + Record.totalSize (a.records.filter (·.line < n))
      ∧ address = ((a.records.find? (n ≤ ·.line)).map (·.address)).getD (0x100 + a.codeSize)

/-- The records of an assembly in closed form. -/
theorem records_assemble (source : List Char) :
    (assemble source).records
      = recordsFrom (assemble source).labels loadAddress (sourceLines source) :=
  Emission.records_of _ _

theorem codeSize_assemble (source : List Char) :
    (assemble source).codeSize = codeBytes (sourceLines source) := by
  rw [Assembly.codeSize, records_assemble, totalSize_recordsFrom]

theorem read_mem_sourceLines {source text : List Char} {n : Nat}
    (h : (n, text) ∈ numbered 1 (lines source)) : SourceLine.read n text ∈ sourceLines source :=
  List.mem_map.2 ⟨(n, text), h, rfl⟩

theorem number_read (n : Nat) (text : List Char) : (SourceLine.read n text).number = n := by
  simp only [SourceLine.read]

theorem label_read (n : Nat) (text : List Char) :
    (SourceLine.read n text).label = lineLabel text := by
  simp only [SourceLine.read, lineLabel]

/-- What a line with content is read as. Only what is no directive can be an instruction. -/
theorem content_read {text : List Char} (n : Nat) (hne : lineContent text ≠ []) :
    (∃ d, Directive.read? (lineContent text) = some d
        ∧ (SourceLine.read n text).content = .directive d)
      ∨ (Directive.read? (lineContent text) = none
        ∧ ((∃ i, (SourceLine.read n text).content = .instruction i)
          ∨ (SourceLine.read n text).content = .unknown)) := by
  unfold lineContent at hne ⊢
  simp only [SourceLine.read]
  generalize Instruction.read? n (trim (stripComment text)) = instruction
  generalize splitLabel (trim (stripComment text)) = cut at hne ⊢
  have hempty : cut.2.isEmpty = false := List.isEmpty_eq_false_iff.2 hne
  -- What the two readers do inside plays no part, only which of them gives a result.
  generalize Directive.read? cut.2 = directive
  rw [hempty]
  rcases directive with - | d
  · refine Or.inr ⟨rfl, ?_⟩
    rcases instruction with - | i
    · exact Or.inr rfl
    · exact Or.inl ⟨i, rfl⟩
  · exact Or.inl ⟨d, rfl, rfl⟩

/-- A line is reported as unknown once if it is, and not otherwise. -/
theorem filter_errors_assemble {source : List Char} {pre post : List SourceLine} {l : SourceLine}
    (hls : sourceLines source = pre ++ l :: post) :
    (assemble source).errors.filter (fun c => c.line = l.number ∧ c.complaint = .unknownContent)
      = unknownLines [l] := by
  have ha := ascending_sourceLines source
  rw [hls] at ha
  have hunknown : ∀ c ∈ unknownLines (sourceLines source), c.complaint = .unknownContent := by
    intro c hc
    obtain ⟨k, -, rfl⟩ := List.mem_map.1 hc
    rfl
  have hemission : (assemble source).errors
      = (Layout.of (sourceLines source)).errors ++ unknownLines (sourceLines source) :=
    congrArg _ (Emission.errors_of _ _)
  -- The first pass adds no complaint of this kind, the second pass nothing but these.
  rw [hemission, List.filter_append, List.filter_eq_nil_iff.2 fun c hc => by
      simpa using fun _ => complaint_of_mem_layout hc]
  rw [List.nil_append, ← filter_unknownLines ha, ← hls]
  refine List.filter_congr fun c hc => ?_
  simp [hunknown c hc]

/-- The wording of an unknown line. -/
theorem text_unknownContent (n : Nat) :
    (LineComplaint.mk n .unknownContent).text = s!"Line {n}: Unknown instruction or directive" := by
  -- The model joins the text of the complaint to its place, the statement has one literal.
  have hjoin :
      ": " ++ "Unknown instruction or directive" = ": Unknown instruction or directive" := by
    simp only [String.reduceAppend]
  have htext : (LineComplaint.mk n .unknownContent).text
      = s!"Line {n}: " ++ "Unknown instruction or directive" := rfl
  rw [htext, String.append_assoc, ← hjoin]
  rfl

/-- What a line holds is settled in the assembly: as a record, as a directive, or as an error. -/
theorem contentSettled_assemble {source text : List Char} {n : Nat}
    (h : (n, text) ∈ numbered 1 (lines source)) (hne : lineContent text ≠ []) :
    ContentSettled (assemble source) n text := by
  have hcontent := content_read n hne
  have hmem := read_mem_sourceLines h
  have hnumber := number_read n text
  generalize SourceLine.read n text = l at hcontent hmem hnumber
  subst hnumber
  -- Cut at the line, the assembly says of it what it says of the line alone.
  obtain ⟨pre, post, hls⟩ := List.append_of_mem hmem
  have ha := ascending_sourceLines source
  rw [hls] at ha
  have hrecords : (assemble source).records.filter (·.line = l.number)
      = recordsFrom (assemble source).labels (loadAddress + codeBytes pre) [l] := by
    rw [records_assemble, hls]
    exact filter_line_eq ha _ _
  unfold ContentSettled
  simp only [hrecords, filter_errors_assemble hls]
  rcases hcontent with ⟨d, hd, hcontent⟩ | ⟨hd, ⟨i, hcontent⟩ | hcontent⟩
  · refine Or.inl ⟨⟨d, hd⟩, ?_⟩
    simp [recordsFrom, unknownLines, hcontent]
  · refine Or.inr (Or.inl ⟨hd, ?_⟩)
    simp [recordsFrom, unknownLines, hcontent]
  · refine Or.inr (Or.inr ⟨hd, ?_, ?_⟩)
    · simp [recordsFrom, hcontent]
    · have hunknown : unknownLines [l] = [⟨l.number, .unknownContent⟩] := by
        simp [unknownLines, hcontent]
      rw [hunknown, List.map_singleton, text_unknownContent]

/-- A label has the address that the records before its first line come to. -/
theorem label_placed {source : List Char} {name : String} {address : Nat}
    (h : (name, address) ∈ (assemble source).labels) : ∃ n text,
    (n, text) ∈ numbered 1 (lines source) ∧ lineLabel text = some name
      ∧ (∀ m other, (m, other) ∈ numbered 1 (lines source) → lineLabel other = some name → n ≤ m)
      ∧ address = 0x100 + Record.totalSize ((assemble source).records.filter (·.line < n))
      ∧ address = (((assemble source).records.find? (n ≤ ·.line)).map (·.address)).getD
          (0x100 + (assemble source).codeSize) := by
  obtain ⟨pre, l, post, hls, hl, hpre, haddress⟩ := Layout.exists_split_of_mem_labels h
  have ha := ascending_sourceLines source
  rw [hls] at ha
  have hmem : l ∈ sourceLines source := by
    rw [hls]
    exact List.mem_append_right _ List.mem_cons_self
  obtain ⟨⟨n, text⟩, htext, hread⟩ := List.mem_map.1 hmem
  have hlabel : lineLabel text = some name := by
    rw [← hl, ← hread, label_read]
  have hnumber : n = l.number := by
    rw [← hread, number_read]
  rw [hnumber] at htext
  refine ⟨l.number, text, htext, hlabel, ?_, ?_, ?_⟩
  · -- An earlier line with the label would be one of those before the cut.
    intro m other hother hsame
    have hin := read_mem_sourceLines hother
    rw [hls] at hin
    have hm := number_read m other
    have hsame' := label_read m other
    generalize SourceLine.read m other = k at hin hm hsame'
    rcases List.mem_append.1 hin with hin | hin
    · exact absurd (hsame'.trans hsame) (hpre _ hin)
    · rw [← hm]
      rcases List.mem_cons.1 hin with rfl | hin
      · exact Nat.le_refl _
      · exact Nat.le_of_lt (ha.lt_of_mem_right hin)
  · rw [records_assemble, hls, filter_line_lt ha, totalSize_recordsFrom, haddress]
    rfl
  · rw [records_assemble, codeSize_assemble, hls, find?_le_line ha]
    cases hhead : (recordsFrom (assemble source).labels (loadAddress + codeBytes pre)
        (l :: post)).head? with
    | some r =>
      rw [haddress, Option.map_some, Option.getD_some]
      exact (address_of_head_recordsFrom _ hhead).symm
    | none =>
      -- Without a record from the line on, the code ends where the lines before it end.
      have hnil := List.head?_eq_none_iff.1 hhead
      have hsize := totalSize_recordsFrom (assemble source).labels (loadAddress + codeBytes pre)
        (l :: post)
      rw [hnil] at hsize
      rw [Option.map_none, Option.getD_none, codeBytes_append, ← hsize, haddress]
      rfl

/-! The records at an address, and the end of the code. -/

section Addresses

variable (source : List Char)

theorem pairwise_address_assemble :
    (assemble source).records.Pairwise (·.address < ·.address) := by
  rw [records_assemble]
  exact pairwise_address_recordsFrom _ _ _

variable {source}

/-- No two records stand at one address. -/
theorem eq_of_address_eq {r q : Record} (hr : r ∈ (assemble source).records)
    (hq : q ∈ (assemble source).records) (h : q.address = r.address) : q = r := by
  by_contra hne
  -- Addresses grow, so distinct records have distinct ones.
  have hdistinct : (assemble source).records.Pairwise (·.address ≠ ·.address) :=
    (pairwise_address_assemble source).imp Nat.ne_of_lt
  have : Std.Symm fun r q : Record => r.address ≠ q.address := ⟨fun _ _ h => h.symm⟩
  exact hdistinct.forall hq hr hne h

/-- A record is found at its address. -/
theorem recordAt?_of_mem {r : Record} (hr : r ∈ (assemble source).records) :
    (assemble source).recordAt? r.address = some r := by
  rw [Assembly.recordAt?]
  cases hfind : (assemble source).records.find? fun q => (q.address : Int) == r.address with
  | none => simpa using List.find?_eq_none.1 hfind r hr
  | some q =>
    have hq : q.address = r.address := by
      have hbeq := List.find?_some hfind
      exact_mod_cast eq_of_beq hbeq
    rw [eq_of_address_eq hr (List.mem_of_find?_eq_some hfind) hq]

/-- The size of the code is counted from the load address to the end of the last record. -/
theorem following_getLast_assemble (source : List Char) :
    (((assemble source).records.getLast?).map Record.following).getD loadAddress
      = loadAddress + (assemble source).codeSize := by
  rw [records_assemble, codeSize_assemble]
  exact following_of_getLast_recordsFrom _ _ _

end Addresses

/-- **The two passes agree.** For every source, whatever is wrong with it, the records lie one
behind the other, no line with content is passed over by either pass, and the addresses of the
first pass are those of the second. -/
theorem passesAgree_assemble (source : List Char) : PassesAgree source (assemble source) := by
  have hrecords := records_assemble source
  have ha := ascending_sourceLines source
  refine ⟨?_, ?_, ?_, fun r hr q hq => eq_of_address_eq hr hq, fun r hr => recordAt?_of_mem hr,
    ?_, ?_, fun n text => contentSettled_assemble, fun name address => label_placed⟩
  · rw [hrecords]
    exact List.pairwise_map.2 (pairwise_line_recordsFrom _ ha)
  · intro r hr
    rw [hrecords] at hr
    exact address_of_head_recordsFrom _ hr
  · rw [hrecords]
    exact isChain_recordsFrom _ _ _
  · -- A list that is in order already is not changed by sorting it.
    have horder := pairwise_address_assemble source
    exact List.mergeSort_of_pairwise (horder.imp fun h => decide_eq_true (Nat.le_of_lt h))
  · have hend := following_getLast_assemble source
    have hload : loadAddress = 0x100 := rfl
    rw [hload] at hend
    rw [hend, Nat.add_sub_cancel_left]

end TurboBench.Asm
