import TurboBench.Proofs.Files.MissingFolders
import TurboBench.Proofs.Shell.Confinement

/-!
# What a failed save leaves

A file is saved in two steps: the folders that are missing above it are made, and then it is
written. Either can fail, and nothing is taken back. The faults that are spoken of here are those
that the name and the files before account for (`TakesName`, `success_iff_of_answer`): a name that
leads out of the workspace, a name or a path that is too long, a file where a folder has to be, a
folder in the place of the file. All of them are found before anything is written, so what a failed
save leaves are folders, where there was nothing before, on the way to the folder that the file was
to lie in (`failed_leavesFolders`). Which ones these are can be told from the name and the files,
too (`MakesFolder`); there are none if the name leads out of the workspace, nor if that folder is
there. Nothing is said of a medium that is full or cannot be written to.
-/

set_option autoImplicit false

namespace TurboBench.Shell.Workbench

open TurboBench.Files

/-- To save a name, a folder has to be made at a location, and can be. -/
def MakesFolder (b : Workbench) (d : Desk) (name : String) (m : Location) : Prop :=
  ∃ l, Normalises (b.joinedComponents name) l ∧ b.root.isBelow l = true
    ∧ Location.IsShort l.dropLast ∧ d.files.IsMissing l.dropLast m

/-- A file can be saved under a name: it leads to a place in the workspace, and a file can be put
there. -/
def TakesName (b : Workbench) (d : Desk) (name : String) : Prop :=
  ∃ l, Normalises (b.joinedComponents name) l ∧ b.root.isBelow l = true ∧ d.files.Takes l

section FailedSaves

variable {b : Workbench} {d : Desk} {name text : String} {a : Answer} {l : Location}

/-- A name that leads out of the workspace leads to no location below it. -/
theorem not_isBelow_of_outside (hb : b.IsReal) (hplace : b.place name = .error .outside)
    (hl : Normalises (b.joinedComponents name) l) : ¬ b.root.isBelow l = true := by
  intro hbelow
  obtain rfl : l = (Path.ofString name).location b.root :=
    (normalises_iff.1 hl).trans (ofComponents_joined hb name)
  simp only [place, hbelow, if_true] at hplace
  split at hplace
  · cases hplace
  · cases hplace

/-- A location below another one is a name in the location above it. -/
theorem exists_eq_append_of_isBelow {m : Location} (h : m.isBelow l = true) :
    ∃ above last, l = above ++ [last] := by
  rcases List.eq_nil_or_concat' l with rfl | ⟨above, last, hl⟩
  · obtain ⟨habove, hne⟩ := (Location.isBelow_iff m []).1 h
    exact absurd (List.prefix_nil.1 habove) hne
  · exact ⟨above, last, hl⟩

/-- Where a save is answered, the two steps of saving say whether it has succeeded. -/
theorem success_iff_of_place (hplace : b.place name = .ok l)
    (h : (b.save d name text).answer = .ok a) :
    a.success = true ↔ ∃ u v,
      d.files.makeFolders b.workingFolder (.ofLocation l.dropLast) = (u, none)
        ∧ u.write b.workingFolder (.ofLocation l) ⟨Text.Utf8.encode text.toList, b.moment⟩
          = .ok v := by
  have hparent : (Path.ofLocation l).parent = .ofLocation l.dropLast := rfl
  simp only [save, hplace, hparent] at h
  split at h
  · exact nomatch h
  · rename_i hmade
    obtain rfl := Except.ok.inj h
    rw [← (FileTree.makeFoldersWithin_eq_some_iff.1 hmade).1]
    refine iff_of_false (fun hsuccess => nomatch hsuccess) ?_
    rintro ⟨_, _, hfolders, -⟩
    exact nomatch (Prod.ext_iff.1 hfolders).2
  · rename_i u hmade
    rw [← (FileTree.makeFoldersWithin_eq_some_iff.1 hmade).1]
    split at h
    · rename_i hwrite
      obtain rfl := Except.ok.inj h
      refine iff_of_false (fun hsuccess => nomatch hsuccess) ?_
      rintro ⟨_, v, hfolders, hagain⟩
      obtain rfl := (Prod.ext_iff.1 hfolders).1
      rw [hwrite] at hagain
      exact nomatch hagain
    · rename_i v hwrite
      obtain rfl := Except.ok.inj h
      exact iff_of_true rfl ⟨u, v, rfl, hwrite⟩

/-- **A save that is answered succeeds if and only if a file can be saved under the name.** -/
theorem success_iff_of_answer (hb : b.IsReal) (ht : d.files.IsTree)
    (h : (b.save d name text).answer = .ok a) : a.success = true ↔ b.TakesName d name := by
  cases hplace : b.place name with
  | error m =>
    cases m with
    | nul =>
      simp only [save, hplace] at h
      exact nomatch h
    | outside =>
      simp only [save, hplace] at h
      obtain rfl := Except.ok.inj h
      refine iff_of_false (fun hsuccess => nomatch hsuccess) ?_
      rintro ⟨l, hl, hbelow, -⟩
      exact not_isBelow_of_outside hb hplace hl hbelow
  | ok l =>
    have hnorm := normalises_of_place hb hplace
    have hbelow := isBelow_of_place hplace
    obtain ⟨above, last, rfl⟩ := exists_eq_append_of_isBelow hbelow
    rw [success_iff_of_place hplace h, List.dropLast_concat, ← FileTree.takes_iff ht hnorm.isPlain]
    constructor
    · exact fun htakes => ⟨_, hnorm, hbelow, htakes⟩
    · rintro ⟨l', hl', -, htakes⟩
      rwa [(normalises_iff.1 hl').trans (normalises_iff.1 hnorm).symm] at htakes

/-- What is left of a save that has failed is what was made above the place of the file. -/
theorem desk_of_failed (h : (b.save d name text).answer = .ok a) (hfailed : a.success = false) :
    (b.place name = .error .outside ∧ (b.save d name text).desk = d)
      ∨ ∃ l, b.place name = .ok l ∧ (b.save d name text).desk
          = { d with
              files := (d.files.makeFolders b.workingFolder (.ofLocation l.dropLast)).1 } := by
  unfold save at h ⊢
  -- A save can fail at the name, at the folders above the file, or at the file.
  cases hplace : b.place name with
  | error m =>
    rw [hplace] at h
    cases m with
    | nul => cases h
    | outside => exact .inl ⟨rfl, rfl⟩
  | ok l =>
    rw [hplace] at h
    refine .inr ⟨l, rfl, ?_⟩
    have hparent : (Path.ofLocation l).parent = .ofLocation l.dropLast := rfl
    simp only [hparent] at h ⊢
    split at h
    · exact nomatch h
    · rename_i hmade
      rw [← (FileTree.makeFoldersWithin_eq_some_iff.1 hmade).1]
      rfl
    · rename_i files hmade
      rw [← (FileTree.makeFoldersWithin_eq_some_iff.1 hmade).1]
      split at h
      · rfl
      · obtain rfl := Except.ok.inj h
        cases hfailed

/-- The folders that are made for a name are those that are missing above its place. -/
theorem makesFolder_iff_of_place (hb : b.IsReal) (hplace : b.place name = .ok l) (m : Location) :
    b.MakesFolder d name m ↔ Location.IsShort l.dropLast ∧ d.files.IsMissing l.dropLast m := by
  constructor
  · rintro ⟨l', hl', -, hmade⟩
    obtain rfl : l' = l :=
      (normalises_iff.1 hl').trans (normalises_iff.1 (normalises_of_place hb hplace)).symm
    exact hmade
  · exact fun hmade => ⟨l, normalises_of_place hb hplace, isBelow_of_place hplace, hmade⟩

/-- Nothing has to be made for a name that leads out of the workspace. -/
theorem not_makesFolder_of_outside (hb : b.IsReal) (hplace : b.place name = .error .outside)
    (m : Location) : ¬ b.MakesFolder d name m := by
  rintro ⟨l, hl, hbelow, -⟩
  exact not_isBelow_of_outside hb hplace hl hbelow

end FailedSaves

/-- That a save fails for what the name and the files before account for, and leaves nothing but the
folders that it has made. -/
structure LeavesFolders (b : Workbench) (d : Desk) (name text : String) : Prop where
  reason : ¬ b.TakesName d name
  tool : (b.save d name text).desk.tool = d.tool
  compiled : (b.save d name text).desk.compiled = d.compiled
  engine : (b.save d name text).desk.engine = d.engine
  currentFile : (b.save d name text).desk.currentFile = d.currentFile
  made : ∀ m, b.MakesFolder d name m → (b.save d name text).desk.files.find? m = some .folder
  kept : ∀ m, ¬ b.MakesFolder d name m →
    (b.save d name text).desk.files.find? m = d.files.find? m
  /-- If there is nothing to make, nothing at all changes. -/
  unchanged : (∀ m, ¬ b.MakesFolder d name m) → (b.save d name text).desk = d
  /-- So it is for a name that leads out of the workspace, -/
  outside : ¬ b.LeadsInside name → (b.save d name text).desk = d
  /-- and for a file that was to lie in a folder that is there. -/
  there : ∀ l, Normalises (b.joinedComponents name) l →
    d.files.find? l.dropLast = some .folder → (b.save d name text).desk = d

/-- **A save that fails leaves folders and nothing else.** -/
theorem failed_leavesFolders {b : Workbench} {d : Desk} {name text : String} {a : Answer}
    (hb : b.IsReal) (ht : d.files.IsTree) (h : (b.save d name text).answer = .ok a)
    (hfailed : a.success = false) : b.LeavesFolders d name text := by
  have hreason : ¬ b.TakesName d name := by
    rw [← success_iff_of_answer hb ht h, hfailed]
    exact Bool.false_ne_true
  rcases desk_of_failed h hfailed with ⟨hplace, hdesk⟩ | ⟨l, hplace, hdesk⟩
  · have hnot := not_makesFolder_of_outside (d := d) hb hplace
    exact ⟨hreason, by rw [hdesk], by rw [hdesk], by rw [hdesk], by rw [hdesk],
      fun m hm => absurd hm (hnot m), fun m _ => by rw [hdesk], fun _ => hdesk, fun _ => hdesk,
      fun _ _ _ => hdesk⟩
  · have hl := normalises_of_place hb hplace
    have hmakes := makesFolder_iff_of_place (d := d) hb hplace
    -- Where no folder is made the desk is as it was, which settles the last three parts.
    have hkept : (∀ m, ¬ b.MakesFolder d name m) → (b.save d name text).desk = d := by
      intro hnone
      rw [hdesk, FileTree.makeFolders_eq_self ht hl.isPlain.dropLast
        fun m hm => hnone m ((hmakes m).2 hm)]
    refine ⟨hreason, by rw [hdesk], by rw [hdesk], by rw [hdesk], by rw [hdesk], fun m hm => ?_,
      fun m hm => ?_, hkept, fun houtside => ?_, fun l' hl' hthere => hkept fun m hm => ?_⟩
    · rw [hdesk]
      exact FileTree.find?_makeFolders ht hl.isPlain.dropLast ((hmakes m).1 hm)
    · rw [hdesk]
      exact FileTree.find?_makeFolders_of_not ht hl.isPlain.dropLast (mt (hmakes m).2 hm)
    · exact absurd ⟨b.root, l, normalises_iff.2 (ofComponents_workspace hb).symm, hl,
        (Location.isBelow_iff b.root l).1 (isBelow_of_place hplace)⟩ houtside
    · obtain rfl : l' = l := (normalises_iff.1 hl').trans (normalises_iff.1 hl).symm
      obtain ⟨-, hmissing⟩ := (hmakes m).1 hm
      rw [ht.missing_of_isPrefix hmissing.missing hmissing.isPrefix] at hthere
      exact nomatch hthere

/-! ## A name that is too long -/

/-- The name of a file that has as many letters as the number says, and one more. -/
def lettersName (n : Nat) : String :=
  String.ofList (List.replicate (n + 1) 'a')

/-- Such a file in a folder. -/
def nestedName (n : Nat) : String :=
  String.ofList (['d'] ++ '/' :: List.replicate (n + 1) 'a')

/-- Each letter takes one byte. -/
theorem utf8ByteSize_lettersName (n : Nat) : (lettersName n).utf8ByteSize = n + 1 := by
  have hletter : 'a'.utf8Size = 1 := by decide
  unfold lettersName
  induction n with
  | zero => decide
  | succ n ih =>
    rw [List.replicate_succ, String.ofList_cons, String.utf8ByteSize_append,
      String.utf8ByteSize_singleton, ih, hletter]
    omega

theorem not_mem_letters {c : Char} (hc : c ≠ 'a') (n : Nat) : c ∉ List.replicate (n + 1) 'a' :=
  fun hmem => hc (List.eq_of_mem_replicate hmem)

theorem lettersName_ne {s : String} (h : s.toList.head? ≠ some 'a') (n : Nat) :
    lettersName n ≠ s := by
  rintro rfl
  rw [lettersName, String.toList_ofList, List.replicate_succ] at h
  exact h rfl

/-- A name of letters is none with a meaning of its own. -/
theorem isPlain_nested (n : Nat) : Location.IsPlain ["d", lettersName n] := by
  refine List.forall_mem_cons.2 ⟨by decide, List.forall_mem_singleton.2 ⟨?_, ?_⟩⟩
  · rw [Path.isStep, Bool.and_eq_true, bne_iff_ne, bne_iff_ne]
    exact ⟨lettersName_ne (by decide) n, lettersName_ne (by decide) n⟩
  · exact lettersName_ne (by decide) n

/-- The name has two steps, the folder and the file in it. -/
theorem steps_nestedName (n : Nat) :
    (Path.ofString (nestedName n)).steps = ["d", lettersName n] := by
  have hletters : ∀ c ∈ List.replicate (n + 1) 'a', (c == '/') = false :=
    fun c hc => beq_false_of_ne fun heq => not_mem_letters (by decide) n (heq ▸ hc)
  rw [Path.steps_ofString, components, nestedName, String.toList_ofList,
    Text.pieces_append_of_not (List.forall_mem_singleton.2 (by decide)) rfl,
    Text.pieces_of_not hletters]
  exact (isPlain_nested n).filter_isStep

/-- It leads into a folder of the workspace. -/
theorem place_nestedName (n : Nat) :
    demo.place (nestedName n) = .ok ["home", "workspace", "d", lettersName n] := by
  have hnul : '\x00' ∉ (nestedName n).toList := by
    rw [nestedName, String.toList_ofList, List.mem_append, not_or]
    refine ⟨by decide, fun hmem => ?_⟩
    rcases List.mem_cons.1 hmem with hslash | hletter
    · exact absurd hslash (by decide)
    · exact not_mem_letters (by decide) n hletter
  have habsolute : (Path.ofString (nestedName n)).isAbsolute = false := by
    rw [← Bool.not_eq_true, Path.isAbsolute_ofString, nestedName, String.toList_ofList]
    simp
  have hlocation : (Path.ofString (nestedName n)).location demo.root
      = ["home", "workspace", "d", lettersName n] := by
    rw [Path.location, steps_nestedName, habsolute, if_neg Bool.false_ne_true,
      (isPlain_nested n).foldl_follow]
    rfl
  rw [place_of_not_nul demo hnul, hlocation]
  rfl

theorem isTree_demoDesk (tool : Option Tool) : (demoDesk tool).files.IsTree := by
  refine FileTree.isTree_of_entries (t := (demoDesk none).files) ?_
  decide

/-- The files when the folder has been made. -/
def madeFiles : FileTree :=
  (demoDesk none).files.put ["home", "workspace", "d"] .folder

/-- A name of that many letters is too long to be written. -/
theorem write_nestedName {n : Nat} (hn : nameLimit ≤ n) (f : File) :
    madeFiles.write demo.workingFolder (.ofLocation ["home", "workspace", "d", lettersName n]) f
      = .error ⟨.nameTooLong, .ofLocation ["home", "workspace", "d", lettersName n]⟩ := by
  have hwalk : madeFiles.walk [] ["home", "workspace", "d", lettersName n]
      = .error .nameTooLong := by
    have hlong : nameLimit < (lettersName n).utf8ByteSize := by
      rw [utf8ByteSize_lettersName]
      omega
    exact if_pos hlong
  have hlocate : madeFiles.locate demo.workingFolder
      (.ofLocation ["home", "workspace", "d", lettersName n]) = .error .nameTooLong := by
    unfold FileTree.locate
    split
    · rfl
    · exact hwalk
  simp only [FileTree.write, hlocate]

/-- The folder is made first. -/
theorem makeFolders_nestedName (n : Nat) :
    (demoDesk none).files.makeFoldersWithin demo.stack.calls demo.workingFolder
      (Path.ofLocation ["home", "workspace", "d", lettersName n]).parent
        = some (madeFiles, none) := by
  refine FileTree.makeFoldersWithin_eq_some_iff.2 ⟨?_, ?_⟩
  · unfold FileTree.makeFolders
    rfl
  · unfold FileTree.ascent
    exact Nat.zero_le _

theorem save_nestedName {n : Nat} (hn : nameLimit ≤ n) :
    demo.save (demoDesk none) (nestedName n) "ret"
      = { demoDesk none with files := madeFiles }.refuse (.notSaved ⟨.nameTooLong,
          .ofLocation ["home", "workspace", "d", lettersName n]⟩) := by
  simp only [save, place_nestedName, makeFolders_nestedName, write_nestedName hn]

theorem answer_save_nestedName {n : Nat} (hn : nameLimit ≤ n) :
    (demo.save (demoDesk none) (nestedName n) "ret").answer
      = .ok (.refused (.notSaved ⟨.nameTooLong,
          .ofLocation ["home", "workspace", "d", lettersName n]⟩)) := by
  rw [save_nestedName hn]
  rfl

/-- It is one that the save makes. -/
theorem makesFolder_nestedName (n : Nat) :
    demo.MakesFolder (demoDesk none) (nestedName n) ["home", "workspace", "d"] := by
  refine (makesFolder_iff_of_place isReal_demo (place_nestedName n) _).2 ?_
  rw [show (["home", "workspace", "d", lettersName n] : Location).dropLast
    = ["home", "workspace", "d"] from rfl]
  have hopen : (demoDesk none).files.Opens ["home", "workspace", "d"] :=
    (((FileTree.opens_root _).append rfl (by decide)).append
      rfl (by decide)).append rfl (by decide)
  exact ⟨by decide, List.prefix_rfl, rfl, hopen.isFree fun f hfile => nomatch hfile⟩

/-- The folder is left when the file in it cannot be written. -/
theorem failed_leavesFolders_nestedName :
    demo.IsReal ∧ (demoDesk none).files.IsTree
      ∧ (demo.save (demoDesk none) (nestedName nameLimit) "ret").answer
        = .ok (.refused (.notSaved ⟨.nameTooLong,
            .ofLocation ["home", "workspace", "d", lettersName nameLimit]⟩))
      ∧ (demo.save (demoDesk none) (nestedName nameLimit) "ret").desk.files.find?
        ["home", "workspace", "d"] = some .folder :=
  ⟨isReal_demo, isTree_demoDesk none, answer_save_nestedName (Nat.le_refl nameLimit),
    (failed_leavesFolders isReal_demo (isTree_demoDesk none)
      (answer_save_nestedName (Nat.le_refl nameLimit)) rfl).made _
      (makesFolder_nestedName nameLimit)⟩

/-- A folder that was made for a file is left where the file cannot be written. -/
theorem not_failed_unchanged : ¬ ∀ (b : Workbench) (d : Desk) (name text : String) (a : Answer),
    b.IsReal → d.files.IsTree → (b.save d name text).answer = .ok a → a.success = false →
      (∀ m, (b.save d name text).desk.files.find? m = d.files.find? m)
        ∧ (b.save d name text).desk.currentFile = d.currentFile := by
  intro h
  have hanswer := answer_save_nestedName (Nat.le_refl nameLimit)
  obtain ⟨hfiles, -⟩ := h demo (demoDesk none) (nestedName nameLimit) "ret" _ isReal_demo
    (isTree_demoDesk none) hanswer rfl
  have hthere := hfiles ["home", "workspace", "d"]
  rw [save_nestedName (Nat.le_refl nameLimit)] at hthere
  exact nomatch hthere

end TurboBench.Shell.Workbench
