import TurboBench.Proofs.Files.Frames
import TurboBench.Shell.Workbench

/-!
# Commands stay in the workspace

A name leads to a place in the workspace if its normal form, behind that of the workspace, is
strictly below that of the workspace (`Workbench.LeadsInside`). Loading and saving are refused with
this as the reason exactly where a name does not, but that loading asks for a tool first.

Every command changes files at such places only, and so does every sequence of commands
(`sameOutside_performAll`); what is outside of the workspace is neither created nor changed nor
removed, the workspace itself and the folders above it apart, which saving makes if they are gone.
-/

set_option autoImplicit false

namespace TurboBench.Shell

open TurboBench.Files
open TurboBench.Text (normalizeNewlines)

namespace Workbench

/-! ## Names -/

/-- The components of the path to the workspace, from the root on. -/
def workspaceComponents (b : Workbench) : List String :=
  (if b.settings.workspace.isAbsolute then [] else b.workingFolder) ++ b.settings.workspace.steps

/-- The components of the workspace and those of a name behind them. A name with a slash in front
starts at the root. -/
def joinedComponents (b : Workbench) (name : String) : List String :=
  if name.toList.head? = some '/' then components name
  else b.workspaceComponents ++ components name

/-- A name leads strictly below the workspace. -/
def LeadsInside (b : Workbench) (name : String) : Prop :=
  ∃ folder l, Normalises b.workspaceComponents folder ∧ Normalises (b.joinedComponents name) l
    ∧ folder <+: l ∧ folder ≠ l

/-- A workbench that there can be: the folder one works in is a location without dots, and the path
of the workspace has been read from a text. -/
structure IsReal (b : Workbench) : Prop where
  workingFolder : b.workingFolder.IsPlain
  workspace : ∀ step ∈ b.settings.workspace.steps, Path.isStep step = true

section Names

variable {b : Workbench} {name : String} {l : Location}

/-- The workspace lies at the normal form of its path. -/
theorem ofComponents_workspace (hb : b.IsReal) :
    Location.ofComponents b.workspaceComponents = b.root := by
  have hfolder : Location.IsPlain
      (if b.settings.workspace.isAbsolute then [] else b.workingFolder) := by
    split
    · exact Location.isPlain_nil
    · exact hb.workingFolder
  rw [workspaceComponents, Location.ofComponents_append, hfolder.ofComponents,
    List.filter_eq_self.2 hb.workspace]
  rfl

/-- The normal form of a joined name is the location that the name is followed to from the
workspace. -/
theorem ofComponents_joined (hb : b.IsReal) (name : String) :
    Location.ofComponents (b.joinedComponents name) = (Path.ofString name).location b.root := by
  unfold joinedComponents Path.location
  rw [Path.steps_ofString]
  by_cases hslash : name.toList.head? = some '/'
  · rw [if_pos hslash, if_pos ((Path.isAbsolute_ofString name).2 hslash)]
    rfl
  · rw [if_neg hslash, if_neg (mt (Path.isAbsolute_ofString name).1 hslash),
      Location.ofComponents_append, ofComponents_workspace hb]

/-- A name leads inside if its location is below the root of the workspace. -/
theorem leadsInside_iff (hb : b.IsReal) :
    b.LeadsInside name ↔ b.root.isBelow ((Path.ofString name).location b.root) = true := by
  rw [Location.isBelow_iff, ← ofComponents_joined hb, ← ofComponents_workspace hb]
  constructor
  · rintro ⟨folder, l, hfolder, hl, hbelow⟩
    rwa [normalises_iff.1 hfolder, normalises_iff.1 hl] at hbelow
  · intro hbelow
    exact ⟨_, _, normalises_iff.2 rfl, normalises_iff.2 rfl, hbelow⟩

/-- A name without the one character that no path can hold is refused for where it leads only. -/
theorem place_of_not_nul (b : Workbench) (h : '\x00' ∉ name.toList) :
    b.place name =
      if b.root.isBelow ((Path.ofString name).location b.root) then
        .ok ((Path.ofString name).location b.root)
      else .error .outside := by
  simp only [place, Path.hasNul_ofString h, Bool.false_eq_true, if_false]

/-- A name is refused for where it leads exactly if it does not lead inside. -/
theorem place_eq_outside_iff (hb : b.IsReal) (h : '\x00' ∉ name.toList) :
    b.place name = .error .outside ↔ ¬ b.LeadsInside name := by
  rw [place_of_not_nul b h, leadsInside_iff hb]
  split
  · rename_i hbelow
    exact ⟨fun heq => (nomatch heq), fun hnot => absurd hbelow hnot⟩
  · rename_i hnot
    exact ⟨fun _ => hnot, fun _ => rfl⟩

/-- The place of a name is the location that it is followed to. -/
theorem eq_location_of_place (h : b.place name = .ok l) :
    l = (Path.ofString name).location b.root := by
  simp only [place] at h
  split at h
  · cases h
  · split at h
    · exact (Except.ok.inj h).symm
    · cases h

/-- A place in the workspace is the normal form of what leads to it. -/
theorem normalises_of_place (hb : b.IsReal) (h : b.place name = .ok l) :
    Normalises (b.joinedComponents name) l :=
  normalises_iff.2 ((eq_location_of_place h).trans (ofComponents_joined hb name).symm)

end Names

/-! ## Answers -/

section Answers

variable {b : Workbench} {d : Desk} {name text : String}

/-- Saving is refused for where a name leads if that is not inside, and for no other reason. -/
theorem save_escapes_iff :
    (b.save d name text).answer = .ok (.refused (.escapes name))
      ↔ b.place name = .error .outside := by
  unfold save
  cases hplace : b.place name with
  | error m =>
    cases m with
    | nul => simp [Desk.breakDown]
    | outside => simp [Desk.refuse]
  | ok l =>
    simp only [reduceCtorEq, iff_false]
    split
    · simp [Desk.breakDown]
    · simp [Desk.refuse]
    · split
      · simp [Desk.refuse]
      · simp

/-- Once a tool has been put to work, so is loading. -/
theorem load_escapes_iff (he : d.engine ≠ none) :
    (b.load d name).answer = .ok (.refused (.escapes name))
      ↔ b.place name = .error .outside := by
  obtain ⟨e, he⟩ := Option.ne_none_iff_exists'.1 he
  unfold load
  rw [he]
  cases hplace : b.place name with
  | error m =>
    cases m with
    | nul => simp [Desk.breakDown]
    | outside => simp [Desk.refuse]
  | ok l =>
    simp only [reduceCtorEq, iff_false]
    split
    · simp [Desk.refuse]
    · simp [Desk.refuse]
    · split
      · simp [Desk.refuse]
      · simp

/-- What is loaded is read from a place in the workspace. -/
theorem exists_of_loaded {n source : String}
    (h : (b.load d name).answer = .ok (.loaded n source)) :
    n = name ∧ ∃ l cs, b.place name = .ok l
      ∧ d.files.readText b.workingFolder (.ofLocation l) = .ok cs
      ∧ source = String.ofList cs := by
  unfold load at h
  split at h
  · exact nomatch h
  · split at h
    · exact nomatch h
    · exact nomatch h
    · rename_i l hplace
      simp only at h
      split at h
      · exact nomatch h
      · exact nomatch h
      · split at h
        · exact nomatch h
        · rename_i cs hcs
          injection h with h
          injection h with hname hsource
          exact ⟨hname.symm, l, cs, hplace, hcs, hsource.symm⟩

end Answers

/-! ## Files -/

section Files

variable {b : Workbench}

/-- Saving makes folders on the way to a place in the workspace, and a file there. -/
theorem sameOutside_save (hb : b.IsReal) (d : Desk) (name text : String) :
    FileTree.SameOutside b.root d.files (b.save d name text).desk.files := by
  unfold save
  cases hplace : b.place name with
  | error m =>
    cases m with
    | nul => exact .refl b.root d.files
    | outside => exact .refl b.root d.files
  | ok l =>
    have hl := (normalises_of_place hb hplace).isPlain
    have hbelow := isBelow_of_place hplace
    have hmade : FileTree.SameOutside b.root d.files
        (d.files.makeFolders b.workingFolder (Path.ofLocation l).parent).1 :=
      FileTree.sameOutside_makeFolders hl hbelow
    simp only
    split
    · exact .refl b.root d.files
    · -- The folders that were made before the fault stay.
      rename_i files f hfault
      rw [← (FileTree.makeFoldersWithin_eq_some_iff.1 hfault).1] at hmade
      exact hmade
    · rename_i files hdone
      rw [← (FileTree.makeFoldersWithin_eq_some_iff.1 hdone).1] at hmade
      split
      · exact hmade
      · rename_i files' hwrite
        exact hmade.trans (FileTree.sameOutside_write hl hbelow hwrite)

/-- Writing a sample puts a file at a place in the workspace. -/
theorem sameOutside_createSample (hb : b.IsReal) (d : Desk) (tool name : String) :
    FileTree.SameOutside b.root d.files (b.createSample d tool name).desk.files := by
  unfold createSample
  simp only
  split
  · exact .refl b.root d.files
  · exact .refl b.root d.files
  · exact .refl b.root d.files
  · split
    · exact .refl b.root d.files
    · exact .refl b.root d.files
    · rename_i l hplace
      split
      · exact .refl b.root d.files
      · rename_i files hwrite
        exact FileTree.sameOutside_write (normalises_of_place hb hplace).isPlain
          (isBelow_of_place hplace) hwrite

theorem files_compile (d : Desk) (source : String) :
    (b.compile d source).desk.files = d.files := by
  rw [b.desk_compile]

/-- The other commands leave all files as they are. -/
theorem files_perform (d : Desk) {c : Command} (hsave : ∀ name text, c ≠ .save name text)
    (hsample : ∀ tool name, c ≠ .createSample tool name) :
    (b.perform d c).desk.files = d.files := by
  -- A load only reads, and nothing else that is left touches the files.
  cases c with
  | select name =>
    rw [perform, select]
    split
    · rfl
    · rfl
  | load name =>
    rw [perform]
    rcases b.desk_load d name with h | h
    · rw [h]
    · rw [h]
  | save name text => exact absurd rfl (hsave name text)
  | compile source => exact files_compile d source
  | execute => rw [perform, b.desk_execute]
  | compileAndExecute source =>
    rw [perform, b.desk_compileAndExecute]
    exact files_compile d source
  | list => rw [perform, b.desk_list]
  | createSample tool name => exact absurd rfl (hsample tool name)
  | help tool => rfl

/-- **A command leaves everything outside of the workspace as it is.** -/
theorem sameOutside_perform (hb : b.IsReal) (d : Desk) (c : Command) :
    FileTree.SameOutside b.root d.files (b.perform d c).desk.files := by
  by_cases hsave : ∃ name text, c = .save name text
  · obtain ⟨name, text, rfl⟩ := hsave
    rw [perform]
    exact sameOutside_save hb d name text
  · by_cases hsample : ∃ tool name, c = .createSample tool name
    · obtain ⟨tool, name, rfl⟩ := hsample
      rw [perform]
      exact sameOutside_createSample hb d tool name
    · rw [files_perform d (fun name text hc => hsave ⟨name, text, hc⟩)
        fun tool name hc => hsample ⟨tool, name, hc⟩]
      exact .refl b.root d.files

/-- So does every sequence of commands. -/
theorem sameOutside_performAll (hb : b.IsReal) (d : Desk) (cs : List Command) :
    FileTree.SameOutside b.root d.files (b.performAll d cs).files := by
  induction cs generalizing d with
  | nil => exact FileTree.SameOutside.refl b.root d.files
  | cons c cs ih => exact (sameOutside_perform hb d c).trans (ih (b.perform d c).desk)

end Files

/-- That the commands on a desk stay in the workspace. -/
structure Confines (b : Workbench) (d : Desk) : Prop where
  /-- The workspace is at the normal form of its path. -/
  root : Normalises b.workspaceComponents b.root
  save : ∀ name text, '\x00' ∉ name.toList →
    ((b.save d name text).answer = .ok (.refused (.escapes name)) ↔ ¬ b.LeadsInside name)
  load : d.engine ≠ none → ∀ name, '\x00' ∉ name.toList →
    ((b.load d name).answer = .ok (.refused (.escapes name)) ↔ ¬ b.LeadsInside name)
  /-- As long as no tool has been put to work, loading is refused for this. -/
  idle : d.engine = none → ∀ name, (b.load d name).answer = .ok (.refused .noTool)
  /-- What is loaded is the text of a file strictly below the workspace. -/
  loaded : ∀ name n source, (b.load d name).answer = .ok (.loaded n source) →
    n = name ∧ ∃ l f cs, Normalises (b.joinedComponents name) l ∧ b.root.isBelow l = true
      ∧ d.files.find? l = some (.file f) ∧ Text.Utf8.decode f.bytes = .ok cs
      ∧ source = String.ofList (normalizeNewlines cs)
  /-- Whatever is done, nothing outside of the workspace changes. -/
  frame : ∀ cs, FileTree.SameOutside b.root d.files (b.performAll d cs).files

/-- **The workspace confines the commands**, wherever it is and whatever the names are. -/
theorem confines {b : Workbench} (hb : b.IsReal) (d : Desk) : b.Confines d where
  root := normalises_iff.2 (ofComponents_workspace hb).symm
  save name text hnul := save_escapes_iff.trans (place_eq_outside_iff hb hnul)
  load he name hnul := (load_escapes_iff he).trans (place_eq_outside_iff hb hnul)
  idle he name := by simp only [load, he, Desk.refuse]
  loaded name n source h := by
    obtain ⟨hn, l, text, hplace, hread, rfl⟩ := exists_of_loaded h
    have hl := normalises_of_place hb hplace
    obtain ⟨f, cs, hfind, hcs, rfl⟩ := FileTree.exists_of_readText hl.isPlain hread
    exact ⟨hn, l, f, cs, hl, isBelow_of_place hplace, hfind, hcs, rfl⟩
  frame cs := sameOutside_performAll hb d cs

/-- A workbench with the default settings. -/
def demo : Workbench :=
  ⟨.default, ["home"], .bundled, 0, .usual⟩

/-- A desk with a file beside the workspace, and with a tool at work or without one. -/
def demoDesk (tool : Option Tool) : Desk :=
  ⟨tool, tool.map demo.newEngine, none, none,
    ⟨[(["home"], .folder), (["home", "workspace"], .folder), (["home", "x"], .file ⟨[], 0⟩)]⟩⟩

theorem isReal_demo : demo.IsReal where
  workingFolder := by decide
  workspace := by decide

theorem confines_demo : demo.IsReal ∧ demo.Confines (demoDesk none)
    ∧ demo.Confines (demoDesk (some .pascal)) :=
  ⟨isReal_demo, confines isReal_demo _, confines isReal_demo _⟩

/-- Without a tool a name that leads out of the workspace is refused for the missing tool. -/
theorem not_load_escapes_iff : ¬ ∀ (b : Workbench) (d : Desk) (name : String), b.IsReal →
    '\x00' ∉ name.toList →
      ((b.load d name).answer = .ok (.refused (.escapes name)) ↔ ¬ b.LeadsInside name) := by
  intro h
  have houtside : ¬ demo.LeadsInside "../x" := by
    rw [leadsInside_iff isReal_demo]
    decide
  have hanswer := (h demo (demoDesk none) "../x" isReal_demo (by decide)).2 houtside
  have hidle : (demo.load (demoDesk none) "../x").answer = .ok (.refused .noTool) := rfl
  rw [hidle] at hanswer
  injection hanswer with hrefused
  injection hrefused with htrouble
  exact nomatch htrouble

end Workbench

end TurboBench.Shell
