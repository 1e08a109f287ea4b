import Mathlib
import TurboBench.Proofs.Asm.DataItems
import TurboBench.Proofs.Asm.SymbolNames

/-!
# Loading the offset of a symbol

An operand `offset` with a name is neither a register nor a number nor a name, so its text is kept
as it stands on the line and looked at when the instruction is carried out. It is then put in small
letters and taken for an offset if it begins with `offset` and a space. What is between the space
and the name is trimmed, but a tab in the place of the space is not recognised, and the operand
counts as zero.

On the way there the text goes through the reader of comments, which keeps all of it, and through
the reader of arguments, which cuts a name with a comma that nothing protects. Apart from these two
cases the load is what it should be (`loads_iff`), for symbols of both kinds, in any case and behind
any blanks.
-/

set_option autoImplicit false

namespace TurboBench.Asm

open TurboBench.Text (isBlank trim trimLeft lower words firstWord lines)

/-! ## The line -/

/-- The text of the operand: the word `offset`, blanks, and a name. -/
structure OffsetText where
  word : List Char
  gap : List Char
  target : List Char
  toLower_word : word.map Char.toLower = "offset".toList
  gap_ne_nil : gap ≠ []
  gap_blank : ∀ c ∈ gap, c = ' ' ∨ c = '\t'

/-- The operand as it is written. -/
def OffsetText.text (t : OffsetText) : List Char :=
  t.word ++ (t.gap ++ t.target)

/-- The instruction that loads a register with an operand. -/
def loadText (r : Register) (operand : List Char) : List Char :=
  "mov".toList ++ ([' '] ++ (r.name.toList ++ ',' :: ([' '] ++ operand)))

/-- The record of the line `n` loads the register with the value: its second operand is the given
text, and executing it leaves the value modulo 64 KiB in the register. -/
structure Loads (a : Assembly) (n : Nat) (r : Register) (operand : List Char) (v : Nat) : Prop where
  record : ∃ q ∈ a.records, q.line = n ∧ q.instruction.mnemonic = .mov
    ∧ q.instruction.operands = [.register r, .unsupported (String.ofList operand)]
  value : ∀ q ∈ a.records, q.line = n → ∀ (disabled : List Mnemonic) (s : Progress),
    q.instruction.mnemonic ∉ disabled →
    (s.step disabled a.symbols q).1.machine.get r.name = .ok ((v % 0x10000 : Nat) : Int)

theorem isLabelText_mov : IsLabelText "mov".toList :=
  isLabelText_mnemonic .mov

theorem isLabelText_register (r : Register) : IsLabelText r.name.toList := by
  cases r <;> exact ⟨_, _, rfl, by decide, List.all_eq_true.1 (by decide)⟩

/-- The operands of the instruction: the register, and what the text of the other is cut into. -/
theorem arguments_operands (r : Register) (operand : List Char) :
    arguments (r.name.toList ++ ',' :: ([' '] ++ operand))
      = r.name.toList :: arguments operand := by
  have hlabel := isLabelText_register r
  have hunmarked : ∀ c ∈ r.name.toList, IsUnmarked c :=
    fun c hc => isUnmarked_of_isLabelPart (hlabel.isLabelPart c hc)
  have htrim : trim r.name.toList = r.name.toList := Text.trim_of_no_blank hlabel.not_blank
  have hspace : ∀ c ∈ [' '], isBlank c = true := List.forall_mem_singleton.2 (by decide)
  rw [arguments_comma (.of_unmarked hunmarked 0) (by rw [htrim]; exact hlabel.ne_nil), htrim,
    arguments_blanks_append hspace]

namespace OffsetText

variable (t : OffsetText)

theorem isBlank_gap : ∀ c ∈ t.gap, isBlank c = true := by
  intro c hc
  rcases t.gap_blank c hc with rfl | rfl <;> decide

theorem isLabelText_word : IsLabelText t.word := by
  rw [← isLabelText_toLower, t.toLower_word]
  exact ⟨_, _, rfl, by decide, List.all_eq_true.1 (by decide)⟩

theorem lower_word : lower t.word = "offset".toList := by
  have hascii : ∀ c ∈ t.word, c.toNat < 0x80 :=
    fun c hc => toNat_lt_of_isLabelPart (t.isLabelText_word.isLabelPart c hc)
  rw [Text.lower_of_ascii hascii, t.toLower_word]

variable {t}

theorem trim_text (h : IsSymbolText t.target) : trim t.text = t.text :=
  Text.trim_pair t.isLabelText_word.ne_nil t.isLabelText_word.not_blank h.ne_nil h.not_blank

/-- No comment begins in what is loaded. -/
theorem beforeComment_text (h : IsSymbolText t.target) : beforeComment none t.text = t.text := by
  have hword : ∀ c ∈ t.word, IsPlain c :=
    fun c hc => isPlain_of_isLabelPart (t.isLabelText_word.isLabelPart c hc)
  have hgap : ∀ c ∈ t.gap, IsPlain c := fun c hc => isPlain_of_isBlank (t.isBlank_gap c hc)
  rw [text, beforeComment_append_of_isPlain hword, beforeComment_append_of_isPlain hgap,
    h.uncommented]

theorem lower_text : lower t.text = "offset".toList ++ (t.gap ++ lower t.target) := by
  rw [text, Text.lower_append_gap t.gap_ne_nil t.isBlank_gap, lower_word]

/-! ## The operand -/

theorem exists_blank : ∃ b ∈ t.gap, b = ' ' ∨ b = '\t' := by
  obtain ⟨b, gap, hgap⟩ := List.exists_cons_of_ne_nil t.gap_ne_nil
  have hb : b ∈ t.gap := hgap ▸ List.mem_cons_self
  exact ⟨b, hb, t.gap_blank b hb⟩

/-- The blank in it tells the text from registers, numbers and names. -/
theorem read_text (h : IsSymbolText t.target) :
    Operand.read t.text = .unsupported (String.ofList t.text) := by
  obtain ⟨b, hb, hblank⟩ := t.exists_blank
  have hmem : b ∈ t.text := List.mem_append_right _ (List.mem_append_left _ hb)
  -- Reading tries the three kinds in this order, and none of them has a blank in it.
  have hregister : Register.ofName? (String.ofList (lower t.text)) = none := by
    refine Option.eq_none_iff_forall_not_mem.2 fun r hr => ?_
    have hname := congrArg String.toList (Register.name_of_ofName? hr)
    rw [String.toList_ofList] at hname
    have hin : b ∈ r.name.toList := by
      rw [hname, lower_text]
      exact List.mem_append_right _ (List.mem_append_left _ hb)
    have hnot := (isLabelText_register r).not_blank b hin
    rw [t.isBlank_gap b hb] at hnot
    exact absurd hnot (by decide)
  have hnumber : immediate? t.text = none := by
    rw [immediate?, trim_text h]
    split
    · rfl
    · refine Option.eq_none_iff_forall_not_mem.2 fun n hn => ?_
      have halpha := (isAlphanum_of_numberOf? hn).2 b hmem
      rcases hblank with rfl | rfl <;> exact absurd halpha (by decide)
  have hname : isName t.text = false := by
    cases htext : t.text with
    | nil => rfl
    | cons c cs =>
      rw [htext] at hmem
      have hnot : isNameStart b = false ∧ b.isDigit = false := by
        rcases hblank with rfl | rfl <;> decide
      refine Bool.eq_false_iff.2 fun hname => ?_
      obtain ⟨hc, hcs⟩ := Bool.and_eq_true_iff.1 hname
      rcases List.mem_cons.1 hmem with rfl | hmem
      · rw [hnot.1] at hc
        exact absurd hc (by decide)
      · have hb := List.all_eq_true.1 hcs b hmem
        rw [hnot.1, hnot.2] at hb
        exact absurd hb (by decide)
  simp only [Operand.read, trim_text h, hregister, hnumber, hname]
  rfl

/-- Behind a space the operand stands for the symbol, behind a tab for nothing. -/
theorem value_text {symbols : SymbolTable} {name : String} {v : Nat}
    (hname : IsSymbolText name.toList) (htarget : lower t.target = name.toList)
    (hlookup : symbols.lookup name = some v) (m : Machine) :
    (Operand.unsupported (String.ofList t.text)).value m symbols
      = .ok ((if t.gap.head? = some ' ' then v else 0 : Nat) : Int) := by
  obtain ⟨b, gap, hgap⟩ := List.exists_cons_of_ne_nil t.gap_ne_nil
  have htext : lower (String.ofList t.text).toList
      = "offset".toList ++ b :: (gap ++ name.toList) := by
    rw [String.toList_ofList, lower_text, hgap, htarget, List.cons_append]
  rw [hgap, List.head?_cons]
  -- The prefix is looked for with its space, so another blank in that place leaves nothing that is
  -- known.
  by_cases hb : b = ' '
  · subst hb
    have hblank : ∀ c ∈ gap, isBlank c = true :=
      fun c hc => t.isBlank_gap c (hgap ▸ List.mem_cons_of_mem _ hc)
    have htrim : trim (gap ++ name.toList) = name.toList := by
      rw [Text.trim_blanks_append hblank, Text.trim_of_no_blank hname.not_blank]
    rw [if_pos rfl]
    refine value_of_namesSymbol (.inr ⟨_, gap ++ name.toList, rfl, htext, ?_⟩) hlookup m
    rw [htrim, String.ofList_toList]
  · have hdata : ¬ "offset".toList ++ b :: (gap ++ name.toList) = "@data".toList := by
      intro heq
      exact absurd (List.cons.inj heq).1 (by decide)
    have hprefix : ¬ "offset ".toList.isPrefixOf ("offset".toList ++ b :: (gap ++ name.toList))
        = true := by
      rw [List.isPrefixOf_iff_prefix, show "offset ".toList = "offset".toList ++ [' '] from rfl,
        List.prefix_append_right_inj, List.cons_prefix_cons]
      exact fun h => hb h.1.symm
    rw [if_neg fun h => hb (Option.some.inj h)]
    simp only [Operand.value, htext, if_neg hdata, if_neg hprefix]
    rfl

/-! ## Arguments -/

/-- An operand that is not supported keeps its text, trimmed. -/
theorem text_of_read {cs : List Char} {s : String} (h : Operand.read cs = .unsupported s) :
    s = String.ofList (trim cs) := by
  simp only [Operand.read] at h
  split at h
  · exact absurd h (by simp)
  · split at h
    · exact absurd h (by simp)
    · split at h
      · exact absurd h (by simp)
      · exact (Operand.unsupported.inj h).symm

/-- The text is read as one operand if and only if the name in it is not cut. -/
theorem operands_text_iff (h : IsSymbolText t.target) :
    (arguments t.text).map Operand.read = [.unsupported (String.ofList t.text)]
      ↔ cutAtCommas none 0 t.target = [t.target] := by
  have hword : ∀ c ∈ t.word, IsUnmarked c :=
    fun c hc => isUnmarked_of_isLabelPart (t.isLabelText_word.isLabelPart c hc)
  have hfront : Unsplit 0 (t.word ++ t.gap) :=
    (Unsplit.of_unmarked hword 0).append (.of_blanks t.isBlank_gap 0)
  have htext : t.text = (t.word ++ t.gap) ++ t.target := (List.append_assoc ..).symm
  obtain ⟨w, ws, hcut⟩ := List.exists_cons_of_ne_nil (cutAtCommas_ne_nil none 0 t.target)
  -- The first piece holds the word, so it is the first argument.
  have hne : (trim (t.word ++ t.gap ++ w)).isEmpty = false := by
    obtain ⟨c, rest, hc⟩ := List.exists_cons_of_ne_nil t.isLabelText_word.ne_nil
    have hmem : c ∈ t.word := hc ▸ List.mem_cons_self
    exact List.isEmpty_eq_false_iff.2 <| List.ne_nil_of_mem <| Text.mem_trim_of_not_blank
      (List.mem_append_left _ (List.mem_append_left _ hmem)) (t.isLabelText_word.not_blank c hmem)
  have harguments : arguments t.text
      = trim (t.word ++ t.gap ++ w) :: (ws.map trim).filter (!·.isEmpty) := by
    rw [arguments, htext, hfront, hcut, prependAll, List.map_cons]
    exact List.filter_cons_of_pos (by rw [hne]; rfl)
  rw [harguments]
  constructor
  · intro hread
    -- It is as long as the text, so nothing of the name is left for other pieces.
    have hlength : t.text.length ≤ (t.word ++ t.gap ++ w).length := by
      have hfirst := text_of_read (List.cons.inj hread).1
      rw [String.ofList_inj] at hfirst
      rw [hfirst]
      exact (length_trim_le _).trans (length_trim_le _)
    have hjoin := intercalate_cutAtCommas none 0 t.target
    rw [hcut] at hjoin
    rw [htext] at hlength
    simp only [List.length_append] at hlength
    cases ws with
    | nil =>
      rw [List.intercalate_singleton] at hjoin
      rw [hcut, hjoin]
    | cons v vs =>
      rw [List.intercalate_cons_cons] at hjoin
      have htarget := congrArg List.length hjoin
      rw [List.length_append, List.length_append, List.length_singleton] at htarget
      omega
  · intro huncut
    obtain ⟨rfl, rfl⟩ := List.cons.inj (hcut.symm.trans huncut)
    rw [← htext, trim_text h, List.map_cons, read_text h]
    rfl

end OffsetText

/-! ## Reading the line -/

section Line

variable {t : OffsetText} {r : Register} {text : List Char} {n : Nat}

/-- Nothing of the line of a load is cut off as a comment. -/
theorem stripComment_loadText (h : IsSymbolText t.target) :
    stripComment (loadText r t.text) = loadText r t.text := by
  have hplain {cs : List Char} (hcs : IsLabelText cs) : ∀ c ∈ cs, IsPlain c :=
    fun c hc => isPlain_of_isLabelPart (hcs.isLabelPart c hc)
  have hspace : IsPlain ' ' := ⟨by decide, by decide⟩
  have hcomma : IsPlain ',' := ⟨by decide, by decide⟩
  have hfront : ∀ c ∈ "mov".toList ++ ' ' :: (r.name.toList ++ [',', ' ']), IsPlain c := by
    refine List.forall_mem_append.2 ⟨hplain isLabelText_mov, ?_⟩
    refine List.forall_mem_cons.2 ⟨hspace, List.forall_mem_append.2 ⟨?_, ?_⟩⟩
    · exact hplain (isLabelText_register r)
    · exact List.forall_mem_cons.2 ⟨hcomma, List.forall_mem_singleton.2 hspace⟩
  have htext : loadText r t.text
      = ("mov".toList ++ ' ' :: (r.name.toList ++ [',', ' '])) ++ t.text := by
    simp only [loadText, List.append_assoc, List.cons_append, List.nil_append]
  rw [stripComment, htext, beforeComment_append_of_isPlain hfront, t.beforeComment_text h]

/-- The line of a load has no blanks around it. -/
theorem trim_loadText (h : IsSymbolText t.target) :
    trim (loadText r t.text) = loadText r t.text := by
  refine Text.trim_eq_self (fun c hc => ?_) fun c hc => ?_
  · obtain rfl := Option.some.inj hc
    decide
  · have hend : loadText r t.text = ("mov".toList ++ ([' '] ++ (r.name.toList ++ ',' :: ([' ']
        ++ (t.word ++ t.gap))))) ++ t.target := by
      simp only [loadText, OffsetText.text, List.append_assoc, List.cons_append]
    rw [hend, List.getLast?_append_of_ne_nil _ h.ne_nil] at hc
    exact h.not_blank c (List.mem_of_mem_getLast? hc)

/-- What stands behind the mnemonic begins with the name of the register. -/
theorem head_register {c : Char} {rest : List Char} (hc : c ∈ (r.name.toList ++ rest).head?) :
    isLabelPart c = true := by
  have hlabel := isLabelText_register r
  rw [List.head?_append_of_ne_nil _ hlabel.ne_nil] at hc
  exact hlabel.isLabelPart c (List.mem_of_mem_head? hc)

/-- There is no label in front of a load. -/
theorem splitLabel_loadText (h : IsSymbolText t.target) :
    splitLabel (loadText r t.text) = (none, loadText r t.text) := by
  have hmov : ∀ c ∈ "mov".toList, isLabelPart c = true := isLabelText_mov.isLabelPart
  have hdrop : (loadText r t.text).dropWhile isLabelPart
      = ' ' :: (r.name.toList ++ ',' :: ([' '] ++ t.text)) :=
    Text.dropWhile_append_of_stop hmov (by decide)
  have hspace : ∀ c ∈ [' '], isBlank c = true := List.forall_mem_singleton.2 (by decide)
  have hbehind : trimLeft (' ' :: (r.name.toList ++ ',' :: ([' '] ++ t.text)))
      = r.name.toList ++ ',' :: ([' '] ++ t.text) :=
    Text.dropWhile_append_of_head hspace fun c hc => not_blank_of_isLabelPart (head_register hc)
  rw [splitLabel_of_no_colon, trim_loadText h]
  rw [trim_loadText h, hdrop, hbehind]
  rintro c hc rfl
  exact absurd (head_register hc) (by decide)

theorem lineContent_loadText (h : IsSymbolText t.target) :
    lineContent (loadText r t.text) = loadText r t.text := by
  rw [lineContent, stripComment_loadText h, trim_loadText h, splitLabel_loadText h]

/-- A load is no directive. -/
theorem read?_loadText (h : IsSymbolText t.target) :
    Directive.read? (loadText r t.text) = none := by
  have hspace : isBlank ' ' = true := by decide
  have hword : lower (r.name.toList ++ [',']) = r.name.toList ++ [','] := by
    cases r <;> decide
  have hblank : ∀ c ∈ r.name.toList ++ [','], isBlank c = false :=
    List.forall_mem_append.2
      ⟨(isLabelText_register r).not_blank, List.forall_mem_singleton.2 (by decide)⟩
  have hlower : lower (loadText r t.text)
      = "mov".toList ++ ' ' :: ((r.name.toList ++ [',']) ++ ' ' :: lower t.text) := by
    have htail : lower (r.name.toList ++ ',' :: ([' '] ++ t.text))
        = (r.name.toList ++ [',']) ++ ' ' :: lower t.text := by
      have hcut := Text.lower_append_blank hspace (r.name.toList ++ [',']) t.text
      rwa [hword, List.append_assoc, List.singleton_append] at hcut
    rw [loadText, List.singleton_append, Text.lower_append_blank hspace, htail]
    rfl
  have hwords : words (lower (loadText r t.text))
      = "mov".toList :: (r.name.toList ++ [',']) :: words (lower t.text) := by
    rw [hlower, Text.words_append_blank isLabelText_mov.ne_nil isLabelText_mov.not_blank hspace,
      Text.words_append_blank (by simp) hblank hspace]
  rw [Directive.read?, stripComment_loadText h, trim_loadText h, hwords]
  cases r <;> rfl

/-- What the line is read as. -/
theorem content_loadText (h : IsSymbolText t.target)
    (hline : lineContent text = loadText r t.text) :
    ∃ i, (SourceLine.read n text).content = .instruction i ∧ i.line = n ∧ i.mnemonic = .mov
      ∧ i.operands = .register r :: (arguments t.text).map Operand.read := by
  have hmov := isLabelText_mov
  have hne : lineContent text ≠ [] := by
    rw [hline]
    exact List.append_ne_nil_of_left_ne_nil hmov.ne_nil _
  have hregister : Operand.read r.name.toList = .register r := by
    cases r <;> rfl
  have hname : String.ofList (lower "mov".toList) = Mnemonic.mov.name := by decide
  have hparts := lineParts_eq hne
  rw [hline, loadText, Text.firstWord_append hmov.ne_nil hmov.not_blank
    (fun c hc => not_blank_of_isLabelPart (head_register hc)) (List.cons_ne_nil _ _)
    (List.forall_mem_singleton.2 (by decide)), arguments_operands, hname] at hparts
  have hread : Instruction.read? n (trim (stripComment text))
      = some ⟨n, String.ofList (trim (trim (stripComment text))), .mov,
        .register r :: (arguments t.text).map Operand.read⟩ := by
    rw [Instruction.read?, hparts]
    simp only [Option.bind_some, Mnemonic.ofName?_name, Option.map_some, List.map_cons, hregister]
  exact ⟨_, content_of_instruction hne (hline ▸ read?_loadText h) hread, rfl, rfl, rfl⟩

end Line

/-! ## Executing it -/

/-- The line is the load of the symbol, or holds it between a label and a comment. -/
def IsLoadOf (text : List Char) (r : Register) (t : OffsetText) (name : String) : Prop :=
  (text = loadText r t.text ∨ lineContent text = loadText r t.text)
    ∧ lower t.target = name.toList

section Executing

variable {source text : List Char} {n v : Nat} {r : Register} {t : OffsetText} {name : String}

/-- The line has a record, which holds what its arguments are read as. -/
theorem exists_record_loadText (hn : (n, text) ∈ numbered 1 (lines source))
    (h : IsSymbolText t.target) (hline : lineContent text = loadText r t.text) :
    ∃ q ∈ (assemble source).records, q.line = n ∧ q.instruction.mnemonic = .mov
      ∧ q.instruction.operands = .register r :: (arguments t.text).map Operand.read := by
  obtain ⟨i, hcontent, hi, hmov, hops⟩ := content_loadText (n := n) h hline
  obtain ⟨q, hq, rfl⟩ := exists_record_of_mem (read_mem_sourceLines hn) hcontent
  exact ⟨q, hq, hi, hmov, hops⟩

/-- A line that loads a symbol of the table has this text for its content. -/
theorem IsLoadOf.content (hline : IsLoadOf text r t name)
    (hlookup : (assemble source).symbols.lookup name = some v) :
    IsSymbolText t.target ∧ lineContent text = loadText r t.text := by
  obtain ⟨htext, htarget⟩ := hline
  have h : IsSymbolText t.target :=
    .of_lower (by rw [htarget]; exact isSymbolText_of_lookup hlookup)
  refine ⟨h, ?_⟩
  rcases htext with rfl | hcontent
  · exact lineContent_loadText h
  · exact hcontent

/-- What a record leaves in the register whose operand is the whole text. -/
theorem get_of_loadText {q : Record} (hline : IsLoadOf text r t name)
    (hlookup : (assemble source).symbols.lookup name = some v)
    (hword : Machine.width r.name = 16) (hmov : q.instruction.mnemonic = .mov)
    (hops : q.instruction.operands = [.register r, .unsupported (String.ofList t.text)])
    {disabled : List Mnemonic} (henabled : q.instruction.mnemonic ∉ disabled) (s : Progress) :
    (s.step disabled (assemble source).symbols q).1.machine.get r.name
      = .ok ((if t.gap.head? = some ' ' then v else 0 : Nat) % 0x10000 : Int) :=
  get_of_value henabled hmov hops hword
    (t.value_text (isSymbolText_of_lookup hlookup) hline.2 hlookup s.machine)

/-- What a load that works tells of the text. -/
theorem uncut_of_loads (hn : (n, text) ∈ numbered 1 (lines source))
    (hlookup : (assemble source).symbols.lookup name = some v)
    (hline : IsLoadOf text r t name) (hword : Machine.width r.name = 16)
    (hloads : Loads (assemble source) n r t.text v) :
    cutAtCommas none 0 t.target = [t.target] ∧ (t.gap.head? = some ' ' ∨ 0x10000 ∣ v) := by
  obtain ⟨h, hcontent⟩ := hline.content hlookup
  obtain ⟨q, hq, hqn, hmov, hops⟩ := exists_record_loadText hn h hcontent
  obtain ⟨⟨p, hp, hpn, -, hpops⟩, hvalue⟩ := hloads
  obtain rfl := eq_of_line_eq hq hp (hpn.trans hqn.symm)
  rw [hpops] at hops
  have huncut := (t.operands_text_iff h).1 (List.cons.inj hops).2.symm
  refine ⟨huncut, or_iff_not_imp_left.2 fun hgap => Nat.dvd_of_mod_eq_zero ?_⟩
  have henabled : p.instruction.mnemonic ∉ [] := List.not_mem_nil
  have hget := hvalue p hp hpn [] .start henabled
  rw [get_of_loadText hline hlookup hword hmov hpops henabled, if_neg hgap, Except.ok.injEq] at hget
  omega

/-- A load works if the name is one argument and a blank stands right behind the word. -/
theorem loads_of_uncut (hn : (n, text) ∈ numbered 1 (lines source))
    (hlookup : (assemble source).symbols.lookup name = some v)
    (hline : IsLoadOf text r t name) (hword : Machine.width r.name = 16)
    (huncut : cutAtCommas none 0 t.target = [t.target])
    (hgap : t.gap.head? = some ' ' ∨ 0x10000 ∣ v) : Loads (assemble source) n r t.text v := by
  obtain ⟨h, hcontent⟩ := hline.content hlookup
  obtain ⟨q, hq, hqn, hmov, hops⟩ := exists_record_loadText hn h hcontent
  rw [(t.operands_text_iff h).2 huncut] at hops
  refine ⟨⟨q, hq, hqn, hmov, hops⟩, fun p hp hpn disabled s henabled => ?_⟩
  obtain rfl := eq_of_line_eq hq hp (hpn.trans hqn.symm)
  rw [get_of_loadText hline hlookup hword hmov hops henabled, Except.ok.injEq]
  split
  · rfl
  · have hmod := Nat.mod_eq_zero_of_dvd (hgap.resolve_left ‹_›)
    omega

/-- **A load of the offset of a symbol leaves it modulo 64 KiB in the register if and only if the
name is not cut at a comma and a space follows the word**, or nothing is to be left because the
value is a multiple of 64 KiB. -/
theorem loads_iff (hn : (n, text) ∈ numbered 1 (lines source))
    (hlookup : (assemble source).symbols.lookup name = some v)
    (hline : IsLoadOf text r t name) (hword : Machine.width r.name = 16) :
    Loads (assemble source) n r t.text v
      ↔ cutAtCommas none 0 t.target = [t.target] ∧ (t.gap.head? = some ' ' ∨ 0x10000 ∣ v) :=
  ⟨uncut_of_loads hn hlookup hline hword,
    fun h => loads_of_uncut hn hlookup hline hword h.1 h.2⟩

end Executing

/-- A source that loads the offset of the second of two bytes. -/
def secondByte : List Char :=
  "db 1\nx db 2\nl: mov dx, oFFset \tX ; far".toList

/-- The operand in it. -/
def secondByteOperand : OffsetText :=
  ⟨"oFFset".toList, [' ', '\t'], ['X'], by decide, by decide, by simp⟩

/-- Any case will do, and blanks of both kinds if a space is the first of them. -/
theorem loads_iff_secondByte :
    (3, "l: mov dx, oFFset \tX ; far".toList) ∈ numbered 1 (lines secondByte)
      ∧ (assemble secondByte).symbols.lookup "x" = some 1 ∧ Machine.width Register.dx.name = 16
      ∧ IsLoadOf "l: mov dx, oFFset \tX ; far".toList .dx secondByteOperand "x"
      ∧ Loads (assemble secondByte) 3 .dx "oFFset \tX".toList 1 := by
  have hn : (3, "l: mov dx, oFFset \tX ; far".toList) ∈ numbered 1 (lines secondByte) := by decide
  have hlookup : (assemble secondByte).symbols.lookup "x" = some 1 := by decide +kernel
  have hword : Machine.width Register.dx.name = 16 := by decide
  have hline : IsLoadOf "l: mov dx, oFFset \tX ; far".toList .dx secondByteOperand "x" :=
    ⟨.inr (by decide +kernel), by decide⟩
  exact ⟨hn, hlookup, hword, hline, (loads_iff hn hlookup hline hword).2 ⟨rfl, .inl rfl⟩⟩

/-- The same with a tab behind the word. -/
def secondByteTab : List Char :=
  "db 1\nx db 2\nmov dx, offset\tx".toList

/-- The operand in it. -/
def secondByteTabOperand : OffsetText :=
  ⟨"offset".toList, ['\t'], ['x'], by decide, by decide, by simp⟩

/-- The source is assembled without errors, and the load leaves zero in place of the offset. -/
theorem not_loads_secondByteTab :
    (assemble secondByteTab).success = true
      ∧ (assemble secondByteTab).symbols.lookup "x" = some 1
      ∧ IsLoadOf "mov dx, offset\tx".toList .dx secondByteTabOperand "x"
      ∧ ¬ Loads (assemble secondByteTab) 3 .dx "offset\tx".toList 1 := by
  have hn : (3, "mov dx, offset\tx".toList) ∈ numbered 1 (lines secondByteTab) := by decide
  have hlookup : (assemble secondByteTab).symbols.lookup "x" = some 1 := by decide +kernel
  have hline : IsLoadOf "mov dx, offset\tx".toList .dx secondByteTabOperand "x" :=
    ⟨.inl rfl, by decide⟩
  refine ⟨by decide +kernel, hlookup, hline, fun hloads => ?_⟩
  obtain ⟨-, hspace | hmultiple⟩ := uncut_of_loads hn hlookup hline (by decide) hloads
  · exact absurd hspace (by decide)
  · exact absurd hmultiple (by decide)

end TurboBench.Asm
