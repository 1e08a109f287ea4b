import TurboBench.Proofs.Files.MissingFolders
import TurboBench.Proofs.Shell.Confinement
import TurboBench.Proofs.Shell.Sessions
import TurboBench.Proofs.Text.Utf8RoundTrip

/-!
# Commands answer

A command that cannot do what it is asked for says so in its answer. There are two exceptions, which
end a command without an answer and leave the desk as it was (`Upsets`): a name with the character
that no path can hold, and work that the stack has not room enough for, which is to make a great
many folders on the way to a file, or to size repetitions nested too deep in a line. Otherwise there
is an answer, whatever the texts are that a command is given and whatever has become of the files
(`answers_iff`), and so it is for all commands of a sequence (`answers_performAmid_iff`).

This takes a desk on which things fit together, as they do after any session, since an engine would
break down on what another one has made. It takes samples that are text and that can be saved under
their names, as those that the workbench comes with are (`sampleOf_bundled`). Texts and names are
made of whole characters here, and files are as a tree has them: neither half a surrogate pair, nor
a link, nor a date outside of the calendar is spoken of.
-/

set_option autoImplicit false

namespace TurboBench.Files.FileTree

/-- All that is in the files of a tree is text. -/
def IsText (t : FileTree) : Prop :=
  ∀ entry ∈ t.entries, ∀ f, entry.2 = .file f → ∃ cs, Text.Utf8.decode f.bytes = .ok cs

/-- Where all is text, all that is read is. -/
theorem IsText.readText_ne_notText {t : FileTree} (h : t.IsText) (folder : Location) (p : Path)
    (flaw : Text.Utf8.Flaw) : t.readText folder p ≠ .error (.notText flaw) := by
  intro hread
  unfold readText at hread
  cases hbytes : t.read folder p with
  | error f =>
    rw [hbytes] at hread
    exact nomatch hread
  | ok bytes =>
    obtain ⟨f, hfind, rfl⟩ := exists_of_read hbytes
    have hroot : p.location folder ≠ [] := by
      intro hroot
      rw [hroot, find?_root] at hfind
      exact nomatch hfind
    obtain ⟨cs, hcs⟩ := h _ (mem_entries_of_find? hroot hfind) f rfl
    simp only [hbytes, hcs] at hread
    exact nomatch hread

end TurboBench.Files.FileTree

namespace TurboBench.Shell

open TurboBench.Files

/-! ## The samples -/

namespace Library

/-- All files of the samples that the workbench comes with are text. -/
theorem isText_bundled : bundled.files.IsText := by
  intro entry hentry f hf
  obtain ⟨tool, -, hentry⟩ := List.mem_flatMap.1 hentry
  rcases List.mem_cons.1 hentry with rfl | hentry
  · exact nomatch hf
  · obtain ⟨⟨name, text⟩, -, rfl⟩ := List.mem_map.1 hentry
    obtain rfl := Entry.file.inj hf
    exact ⟨text.toList, Text.Utf8.decode_encode text.toList⟩

theorem exists_names_bundled (tool : Tool) : ∃ names, bundled.names tool = .ok names := by
  cases tool
  · exact ⟨_, rfl⟩
  · exact ⟨_, rfl⟩

/-- No file or folder of the library has a name with the character that no path can hold. -/
theorem not_nul_bundled :
    ∀ entry ∈ bundled.files.entries, ∀ step ∈ entry.1, '\x00' ∉ step.toList := by
  decide

/-- The name of a sample is made of characters of the name of its file. -/
theorem mem_of_sampleName? {tool : Tool} {fileName name : String}
    (h : sampleName? tool fileName = some name) {c : Char} (hc : c ∈ name.toList) :
    c ∈ fileName.toList := by
  simp only [sampleName?] at h
  split at h
  · obtain rfl := Option.some.inj h
    split at hc
    · exact hc
    · rw [String.toList_ofList] at hc
      exact List.mem_of_mem_take hc
  · exact nomatch h

/-- The samples of a library are named as files of it are. -/
theorem exists_of_mem_names {l : Library} {tool : Tool} {names : List String} {name : String}
    (h : l.names tool = .ok names) (hname : name ∈ names) :
    ∃ entry ∈ l.files.entries, ∃ fileName ∈ entry.1, sampleName? tool fileName = some name := by
  unfold Library.names at h
  simp only at h
  split at h
  · exact nomatch h
  · obtain rfl := Except.ok.inj h
    exact absurd hname List.not_mem_nil
  -- A name comes from the name of a file, and that is the last part of a place in the tree.
  · split at h
    · exact nomatch h
    · rename_i files hfiles
      obtain rfl := Except.ok.inj h
      obtain ⟨fileName, hfile, hsample⟩ := List.mem_filterMap.1 (List.mem_mergeSort.1 hname)
      unfold FileTree.list at hfiles
      split at hfiles
      · exact nomatch hfiles
      · split at hfiles
        · exact nomatch hfiles
        · exact nomatch hfiles
        · obtain rfl := Except.ok.inj hfiles
          obtain ⟨⟨place, e⟩, hentry, hlast⟩ :=
            List.mem_filterMap.1 (List.mem_mergeSort.1 hfile)
          simp only at hlast
          split at hlast
          · exact ⟨_, hentry, fileName, List.mem_of_getLast? hlast, hsample⟩
          · exact nomatch hlast

/-- **The samples that the workbench comes with are there or are refused**, and can be saved under
their names. -/
theorem sampleOf_bundled (tool name : String) :
    (∃ f, bundled.sampleOf tool name = .error (.refused f))
      ∨ ∃ s, bundled.sampleOf tool name = .ok s ∧ '\x00' ∉ s.fileName.toList := by
  unfold sampleOf
  cases Tool.ofName? tool with
  | none => exact .inl ⟨_, rfl⟩
  | some t =>
    obtain ⟨names, hnames⟩ := exists_names_bundled t
    simp only [sample, hnames]
    split
    · rename_i hkey
      split
      · exact .inl ⟨_, rfl⟩
      · rename_i flaw hread
        exact absurd hread (isText_bundled.readText_ne_notText _ _ flaw)
      · refine .inr ⟨_, rfl, ?_⟩
        rw [String.toList_append, List.mem_append, not_or]
        -- The name is that of a file of the library with the ending of the tool behind it.
        constructor
        · obtain ⟨entry, hentry, fileName, hfile, hsample⟩ :=
            exists_of_mem_names hnames (List.contains_iff_mem.1 hkey)
          exact fun hnul => not_nul_bundled entry hentry fileName hfile
            (mem_of_sampleName? hsample hnul)
        · cases t <;> decide
    · exact .inl ⟨_, rfl⟩

end Library

namespace Workbench

/-! ## What upsets a command -/

/-- What a command breaks down on, with a tool at work and the files as they are. -/
inductive Upsets (b : Workbench) (tool : Option Tool) (files : FileTree) :
    Command → Breakdown → Prop
  /-- The character that no path can hold is in a name. To load a file a tool has to be at work
  first. -/
  | load {name : String} (htool : tool ≠ none) (h : '\x00' ∈ name.toList) :
      Upsets b tool files (.load name) .nulInPath
  | save {name text : String} (h : '\x00' ∈ name.toList) :
      Upsets b tool files (.save name text) .nulInPath
  /-- More folders are missing on the way to a file than the stack has room for. -/
  | folders {name text : String} {l : Location} (hplace : b.place name = .ok l)
      (hshort : Location.IsShort l.dropLast) (h : files.MissesMore b.stack.calls l.dropLast) :
      Upsets b tool files (.save name text) .stackExhausted
  /-- A line has data nested deeper than the stack has room for. -/
  | compile {source : String} {line : Asm.SourceLine} (htool : tool = some .assembler)
      (hline : line ∈ Asm.sourceLines source.toList)
      (h : line.isSizable b.stack.levels = false) :
      Upsets b tool files (.compile source) .stackExhausted
  | compileAndExecute {source : String} {line : Asm.SourceLine} (htool : tool = some .assembler)
      (hline : line ∈ Asm.sourceLines source.toList)
      (h : line.isSizable b.stack.levels = false) :
      Upsets b tool files (.compileAndExecute source) .stackExhausted

section Answers

variable {b : Workbench} {d : Desk} {c : Command} {f : Breakdown}

theorem place_of_nul {name : String} (h : '\x00' ∈ name.toList) :
    b.place name = .error .nul := by
  simp only [place, Path.hasNul_of_mem h, if_true]

/-- Without that character a name is not refused for it. -/
theorem place_ne_nul {name : String} (h : '\x00' ∉ name.toList) : b.place name ≠ .error .nul := by
  rw [place_of_not_nul b h]
  split
  · exact fun heq => nomatch heq
  · exact fun heq => nomatch heq

/-- The stack is exhausted if the folders above a place are too many. -/
theorem makeFoldersWithin_of_place (hb : b.IsReal) {name : String} {l : Location}
    (hplace : b.place name = .ok l) :
    d.files.makeFoldersWithin b.stack.calls b.workingFolder (Path.ofLocation l).parent = none
      ↔ Location.IsShort l.dropLast ∧ d.files.MissesMore b.stack.calls l.dropLast :=
  FileTree.makeFoldersWithin_eq_none_iff (normalises_of_place hb hplace).isPlain.dropLast _

/-- An engine makes nothing of a source only if it is the assembler, and a line cannot be sized. -/
theorem compile_newEngine_eq_none_iff {tool : Tool} {source : String} :
    (b.newEngine tool).compile b.stack source = none
      ↔ tool = .assembler
        ∧ ∃ line ∈ Asm.sourceLines source.toList, line.isSizable b.stack.levels = false := by
  cases tool with
  | pascal => exact iff_of_false (fun h => nomatch h) fun h => nomatch h.1
  | assembler =>
    show (Asm.assembleWithin b.stack.levels source.toList).map Artifact.assembly = none ↔ _
    rw [Option.map_eq_none_iff]
    unfold Asm.assembleWithin
    split
    · rename_i hall
      refine iff_of_false (fun h => nomatch h) ?_
      rintro ⟨-, line, hline, hsizable⟩
      rw [List.all_eq_true.1 hall line hline] at hsizable
      exact nomatch hsizable
    · rename_i hall
      refine iff_of_true rfl ⟨rfl, ?_⟩
      obtain ⟨line, hline, hsizable⟩ := List.all_eq_false.1 (Bool.not_eq_true _ ▸ hall)
      exact ⟨line, hline, Bool.not_eq_true _ ▸ hsizable⟩

/-- Compiling a source with a line that cannot be sized breaks down on a sound desk. -/
theorem compile_of_not_sizable (h : b.IsSound d) {source : String} {line : Asm.SourceLine}
    (htool : d.tool = some .assembler) (hline : line ∈ Asm.sourceLines source.toList)
    (hsizable : line.isSizable b.stack.levels = false) :
    b.compile d source = d.breakDown .stackExhausted := by
  refine compile_of_exhausted b d (e := b.newEngine .assembler) ?_ ?_
  · rw [h.engine, htool, Option.map_some]
  · exact compile_newEngine_eq_none_iff.2 ⟨rfl, line, hline, hsizable⟩

/-- **What upsets a command ends it**, and leaves the desk as it was. -/
theorem perform_of_upsets (hb : b.IsReal) (h : b.IsSound d) (hc : b.Upsets d.tool d.files c f) :
    b.perform d c = d.breakDown f := by
  cases hc with
  | load htool hnul =>
    obtain ⟨tool, htool⟩ := Option.ne_none_iff_exists'.1 htool
    have he : d.engine = some (b.newEngine tool) := by rw [h.engine, htool, Option.map_some]
    simp only [perform, load, he, place_of_nul hnul]
  | save hnul => simp only [perform, save, place_of_nul hnul]
  | folders hplace hshort hmisses =>
    simp only [perform, save, hplace, (makeFoldersWithin_of_place hb hplace).2 ⟨hshort, hmisses⟩]
  | compile htool hline hsizable =>
    exact compile_of_not_sizable h htool hline hsizable
  | compileAndExecute htool hline hsizable =>
    have hcompile := compile_of_not_sizable h htool hline hsizable
    rw [perform, compileAndExecute_of_failed b d (by rw [hcompile]; rfl), hcompile]

/-- Loading answers unless it is upset by the name. -/
theorem answers_load {name : String} (h : b.IsSound d)
    (hc : ∀ f, ¬ b.Upsets d.tool d.files (.load name) f) :
    ∃ a, (b.load d name).answer = .ok a := by
  unfold load
  split
  · exact ⟨_, rfl⟩
  · rename_i e he
    have hnul : '\x00' ∉ name.toList := by
      refine fun hnul => hc _ (.load ?_ hnul)
      intro htool
      rw [h.engine, htool] at he
      exact nomatch he
    split
    · rename_i hplace
      exact absurd hplace (place_ne_nul hnul)
    · exact ⟨_, rfl⟩
    · simp only
      split
      · exact ⟨_, rfl⟩
      · exact ⟨_, rfl⟩
      · split
        · exact ⟨_, rfl⟩
        · exact ⟨_, rfl⟩

/-- Saving answers unless it is upset by the name or by missing folders. -/
theorem answers_save {name text : String} (hb : b.IsReal)
    (hc : ∀ f, ¬ b.Upsets d.tool d.files (.save name text) f) :
    ∃ a, (b.save d name text).answer = .ok a := by
  unfold save
  split
  · rename_i hplace
    exact absurd hplace (place_ne_nul fun hnul => hc _ (.save hnul))
  · exact ⟨_, rfl⟩
  · rename_i l hplace
    simp only
    split
    · rename_i hexhausted
      obtain ⟨hshort, hmisses⟩ := (makeFoldersWithin_of_place hb hplace).1 hexhausted
      exact absurd (.folders hplace hshort hmisses) (hc _)
    · exact ⟨_, rfl⟩
    · split
      · exact ⟨_, rfl⟩
      · exact ⟨_, rfl⟩

/-- Compiling answers unless a line cannot be sized. -/
theorem answers_compile {source : String} (h : b.IsSound d)
    (hc : ∀ line ∈ Asm.sourceLines source.toList, d.tool = some .assembler →
      line.isSizable b.stack.levels = true) :
    ∃ a, (b.compile d source).answer = .ok a := by
  unfold compile
  split
  · exact ⟨_, rfl⟩
  · rename_i e he
    split
    · rename_i hnone
      rw [h.engine] at he
      obtain ⟨tool, htool, rfl⟩ := Option.map_eq_some_iff.1 he
      obtain ⟨rfl, line, hline, hsizable⟩ := compile_newEngine_eq_none_iff.1 hnone
      rw [hc line hline htool] at hsizable
      exact nomatch hsizable
    · exact ⟨_, rfl⟩

/-- What stands on a sound desk can be executed, or there is a refusal. -/
theorem answers_execute (h : b.IsSound d) : ∃ a, (b.execute d).answer = .ok a := by
  cases hcompiled : d.compiled with
  | none =>
    rw [h.execute_of_nothing hcompiled]
    exact ⟨_, rfl⟩
  | some a =>
    obtain ⟨e, work, he, -, hwork⟩ := h.exists_execute hcompiled
    rw [execute_of_compiled b d he hcompiled hwork]
    exact ⟨_, rfl⟩

/-- Compiling and executing answers if compiling does. -/
theorem answers_compileAndExecute {source : String}
    (h : ∃ a, (b.compile d source).answer = .ok a) :
    ∃ a, (b.compileAndExecute d source).answer = .ok a := by
  cases hsuccess : (b.compile d source).succeeds with
  | false =>
    rw [compileAndExecute_of_failed b d hsuccess]
    exact h
  | true =>
    obtain ⟨_, _, _, _, -, -, hboth⟩ := compileAndExecute_of_succeeded b d hsuccess
    rw [hboth]
    exact ⟨_, rfl⟩

/-- Writing a sample answers: those that the workbench comes with are text, and their names are
names of files. -/
theorem answers_createSample (hsamples : b.samples = .bundled) (tool name : String) :
    ∃ a, (b.createSample d tool name).answer = .ok a := by
  unfold createSample
  simp only [hsamples]
  rcases Library.sampleOf_bundled (((Tool.ofAlias? tool).map (·.name)).getD tool) name with
    ⟨f, hsample⟩ | ⟨s, hsample, hnul⟩
  · rw [hsample]
    exact ⟨_, rfl⟩
  · rw [hsample]
    simp only
    split
    · rename_i hplace
      exact absurd hplace (place_ne_nul hnul)
    · exact ⟨_, rfl⟩
    · split
      · exact ⟨_, rfl⟩
      · exact ⟨_, rfl⟩

/-- **A command that nothing upsets has an answer**, whatever stands on the desk. -/
theorem answers_of_not_upsets (hb : b.IsReal) (hsamples : b.samples = .bundled) (h : b.IsSound d)
    (hc : ∀ f, ¬ b.Upsets d.tool d.files c f) : ∃ a, (b.perform d c).answer = .ok a := by
  have hsizable {source : String} (hnot : ∀ line ∈ Asm.sourceLines source.toList,
      d.tool = some .assembler → ¬ line.isSizable b.stack.levels = false) :
      ∃ a, (b.compile d source).answer = .ok a :=
    answers_compile h fun line hline htool => Bool.not_eq_false _ ▸ hnot line hline htool
  cases c with
  | select name =>
    rw [perform, select]
    split
    · exact ⟨_, rfl⟩
    · exact ⟨_, rfl⟩
  | load name => exact answers_load h hc
  | save name text => exact answers_save hb hc
  | compile source =>
    exact hsizable fun line hline htool hnot => hc _ (.compile htool hline hnot)
  | execute => exact answers_execute h
  | compileAndExecute source =>
    exact answers_compileAndExecute
      (hsizable fun line hline htool hnot => hc _ (.compileAndExecute htool hline hnot))
  | list =>
    rw [perform, list]
    split
    · exact ⟨_, rfl⟩
    · split
      · exact ⟨_, rfl⟩
      · exact ⟨_, rfl⟩
  | createSample tool name => exact answers_createSample hsamples tool name
  | help tool => exact ⟨_, rfl⟩

/-- **A command answers if and only if nothing upsets it.** -/
theorem answers_iff (hb : b.IsReal) (hsamples : b.samples = .bundled) (h : b.IsSound d)
    (c : Command) :
    (∃ a, (b.perform d c).answer = .ok a) ↔ ∀ f, ¬ b.Upsets d.tool d.files c f := by
  constructor
  · rintro ⟨a, ha⟩ f hc
    rw [perform_of_upsets hb h hc] at ha
    exact nomatch ha
  · exact answers_of_not_upsets hb hsamples h

end Answers

/-! ## Sequences of commands -/

/-- What comes of a sequence of commands, each of which finds files that may have been changed in
the meantime. -/
def performAmid (b : Workbench) (d : Desk) : List (FileTree × Command) → List Outcome
  | [] => []
  | (files, c) :: rest =>
    let o := b.perform { d with files := files } c
    o :: b.performAmid o.desk rest

/-- In a sequence of commands, one is upset by something. The tool that it finds at work is the one
that those ahead of it have selected last. -/
def MeetsUpset (b : Workbench) (tool : Option Tool) (visits : List (FileTree × Command)) : Prop :=
  ∃ before files c after f, visits = before ++ (files, c) :: after
    ∧ b.Upsets ((lastSelected? (before.map Prod.snd)).or tool) files c f

section Sequences

variable {b : Workbench} {tool : Option Tool} {files : FileTree} {c : Command}
  {rest : List (FileTree × Command)}

theorem not_meetsUpset_nil : ¬ b.MeetsUpset tool [] := by
  rintro ⟨before, files, c, after, f, hvisits, -⟩
  exact List.append_ne_nil_of_right_ne_nil before (List.cons_ne_nil _ _) hvisits.symm

/-- A command is upset either at the head of a sequence or behind it, with the tool that the head
leaves at work. -/
theorem meetsUpset_cons :
    b.MeetsUpset tool ((files, c) :: rest)
      ↔ (∃ f, b.Upsets tool files c f) ∨ b.MeetsUpset (c.selected?.or tool) rest := by
  have hlast (before : List (FileTree × Command)) (first : FileTree × Command) :
      (lastSelected? ((first :: before).map Prod.snd)).or tool
        = (lastSelected? (before.map Prod.snd)).or (first.2.selected?.or tool) := by
    rw [List.map_cons, lastSelected?, lastAnswer?_cons, Option.or_assoc]
    rfl
  constructor
  · rintro ⟨before, files', c', after, f, hvisits, hupset⟩
    cases before with
    | nil =>
      obtain ⟨⟨rfl, rfl⟩, -⟩ := List.cons_eq_cons.1 hvisits
      exact .inl ⟨f, hupset⟩
    | cons first before =>
      obtain ⟨rfl, rfl⟩ := List.cons_eq_cons.1 hvisits
      rw [hlast] at hupset
      exact .inr ⟨before, files', c', after, f, rfl, hupset⟩
  · rintro (⟨f, hupset⟩ | ⟨before, files', c', after, f, rfl, hupset⟩)
    · exact ⟨[], files, c, rest, f, rfl, hupset⟩
    · refine ⟨(files, c) :: before, files', c', after, f, rfl, ?_⟩
      rwa [hlast]

/-- Whatever becomes of the files, the rest of a sound desk fits together. -/
theorem IsSound.with_files {d : Desk} (h : b.IsSound d) (files : FileTree) :
    b.IsSound { d with files := files } :=
  ⟨h.engine, h.compiled⟩

/-- **All commands of a sequence have an answer**, unless one is upset by something. -/
theorem answers_performAmid_iff (hb : b.IsReal) (hsamples : b.samples = .bundled) {d : Desk}
    (h : b.IsSound d) (visits : List (FileTree × Command)) :
    (∀ o ∈ b.performAmid d visits, ∃ a, o.answer = .ok a) ↔ ¬ b.MeetsUpset d.tool visits := by
  induction visits generalizing d with
  | nil => exact iff_of_true (fun o ho => absurd ho List.not_mem_nil) not_meetsUpset_nil
  | cons visit rest ih =>
    obtain ⟨files, c⟩ := visit
    have hfiles := h.with_files files
    rw [performAmid, List.forall_mem_cons, answers_iff hb hsamples hfiles,
      ih (isSound_perform hfiles c), tool_perform, meetsUpset_cons, not_or, not_exists]

end Sequences

/-- That a workbench reports what comes of its commands. -/
structure Reports (b : Workbench) : Prop where
  /-- The desk of a session is sound, whatever files it began with. -/
  sound : ∀ files cs, b.IsSound (b.session files cs)
  /-- Whatever the texts are. -/
  answers : ∀ d, b.IsSound d → ∀ c,
    (∃ a, (b.perform d c).answer = .ok a) ↔ ∀ f, ¬ b.Upsets d.tool d.files c f
  breaksDown : ∀ d, b.IsSound d → ∀ c f, b.Upsets d.tool d.files c f →
    b.perform d c = d.breakDown f
  /-- Whatever happens to the files in the meantime. -/
  answersAll : ∀ d, b.IsSound d → ∀ visits,
    (∀ o ∈ b.performAmid d visits, ∃ a, o.answer = .ok a) ↔ ¬ b.MeetsUpset d.tool visits

/-- **The workbench with its own samples reports**, but for names that no path can have and for work
that the stack has not room enough for. -/
theorem reports {b : Workbench} (hb : b.IsReal) (hsamples : b.samples = .bundled) :
    b.Reports where
  sound := isSound_session b
  answers _ h := answers_iff hb hsamples h
  breaksDown _ h _ _ := perform_of_upsets hb h
  answersAll _ h := answers_performAmid_iff hb hsamples h

theorem samples_demo : demo.samples = .bundled := by
  simp only [demo]

theorem reports_demo : demo.IsReal ∧ demo.samples = .bundled ∧ demo.Reports :=
  ⟨isReal_demo, samples_demo, reports isReal_demo samples_demo⟩

/-- A file cannot be saved under such a name, and nothing is answered. -/
theorem not_answers_nul : ¬ ∀ (b : Workbench) (d : Desk) (c : Command), b.IsReal →
    b.samples = .bundled → b.IsSound d → ∃ a, (b.perform d c).answer = .ok a := by
  intro h
  have hsound : demo.IsSound (demoDesk none) := ⟨rfl, fun _ ha => nomatch ha⟩
  obtain ⟨a, ha⟩ := h demo (demoDesk none) (.save "a\x00b.asm" "ret") isReal_demo samples_demo
    hsound
  have hnul : demo.Upsets none (demoDesk none).files (.save "a\x00b.asm" "ret") .nulInPath :=
    .save (show '\x00' ∈ "a\x00b.asm".toList by decide)
  rw [perform_of_upsets isReal_demo hsound hnul] at ha
  exact nomatch ha

end Workbench

end TurboBench.Shell
