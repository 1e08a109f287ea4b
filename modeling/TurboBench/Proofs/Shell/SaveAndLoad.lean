import TurboBench.Proofs.Shell.Confinement
import TurboBench.Proofs.Text.Utf8RoundTrip

/-!
# What was saved can be loaded

A file that has just been written is read along the same path: the folders on the way to it are
still there, since nothing is written where a folder is (`FileTree.walk_put`). Its bytes are those
of the text, and they are read back as that text.

So whatever has been saved can be loaded by the same name, provided that a tool has been put to
work. What is loaded need not be what was saved, though: a file is written with the line ends that
the text has, and read with a line feed in place of each of them (`load_of_saved`).
-/

set_option autoImplicit false

namespace TurboBench.Files.FileTree

open TurboBench.Text (normalizeNewlines)

/-! ## A file that was written -/

section Written

variable {t u : FileTree} {working here l m : Location} {p : Path}

/-- What is put where no folder is does not stand in the way. -/
theorem walk_put {steps : List String} (hm : t.find? m ≠ some .folder) (e : Entry)
    (h : t.walk here steps = .ok l) : (t.put m e).walk here steps = .ok l := by
  induction steps generalizing here with
  | nil => exact h
  | cons step steps ih =>
    unfold walk at h ⊢
    cases hhere : t.find? here with
    | none =>
      rw [hhere] at h
      cases h
    | some entry =>
      rw [hhere] at h
      cases entry with
      | file f => cases h
      | folder =>
        have hne : here ≠ m := fun heq => hm (heq ▸ hhere)
        rw [find?_put_of_ne t hne, hhere]
        simp only at h ⊢
        split at h
        · cases h
        · rename_i hshort
          rw [if_neg hshort]
          exact ih h

/-- The path of a file that was written leads to it. -/
theorem entry_of_write {f : File} (h : t.write working p f = .ok u) :
    u.entry working p = .ok (.file f) := by
  have hthere := find?_of_write_self h
  unfold write at h
  split at h
  · exact nomatch h
  · rename_i l hl
    obtain rfl := eq_location_of_locate hl
    -- Something was written, so there was no folder in its place and the way to it is what it was.
    have hnot : t.find? (p.location working) ≠ some .folder := by
      intro hfolder
      rw [hfolder] at h
      exact nomatch h
    have hput : u = t.put (p.location working) (.file f) := by
      split at h
      · exact nomatch h
      · exact (Except.ok.inj h).symm
    have hlocate : u.locate working p = .ok (p.location working) := by
      unfold locate at hl ⊢
      split at hl
      · exact nomatch hl
      · rename_i hshort
        rw [if_neg hshort, hput]
        exact walk_put hnot _ hl
    simp only [entry, hlocate, hthere]

theorem isFile_of_write {f : File} (h : t.write working p f = .ok u) :
    u.isFile working p = .ok true := by
  simp only [isFile, ask, entry_of_write h]

/-- A text that was written is read with a line feed for every line end. -/
theorem readText_of_write {text : List Char} {moment : Int}
    (h : t.write working p ⟨Text.Utf8.encode text, moment⟩ = .ok u) :
    u.readText working p = .ok (normalizeNewlines text) := by
  simp only [readText, read, entry_of_write h, Text.Utf8.decode_encode]

end Written

end TurboBench.Files.FileTree

namespace TurboBench.Shell.Workbench

open TurboBench.Files
open TurboBench.Text (normalizeNewlines)

/-! ## Saving and loading -/

section SaveAndLoad

variable {b : Workbench} {d : Desk} {name text : String} {a : Answer}

/-- What saving has done if it has succeeded. -/
theorem exists_of_saved (h : (b.save d name text).answer = .ok a) (hsuccess : a.success = true) :
    ∃ (l : Location) (files files' : FileTree), b.place name = .ok l
      ∧ files.write b.workingFolder (.ofLocation l) ⟨Text.Utf8.encode text.toList, b.moment⟩
          = .ok files'
      ∧ (b.save d name text).desk = { d with files := files', currentFile := some name } := by
  unfold save at h ⊢
  -- Every other way through a save ends with an answer that it has failed.
  cases hplace : b.place name with
  | error m =>
    rw [hplace] at h
    cases m with
    | nul => cases h
    | outside =>
      obtain rfl := Except.ok.inj h
      cases hsuccess
  | ok l =>
    rw [hplace] at h
    simp only at h ⊢
    split at h
    · exact nomatch h
    · obtain rfl := Except.ok.inj h
      cases hsuccess
    · rename_i files hmade
      split at h
      · obtain rfl := Except.ok.inj h
        cases hsuccess
      · rename_i files' hwrite
        exact ⟨l, files, files', rfl, hwrite, rfl⟩

/-- What was saved is loaded with its line ends made line feeds. -/
theorem load_of_saved (h : (b.save d name text).answer = .ok a) (hsuccess : a.success = true)
    (he : d.engine ≠ none) :
    (b.load (b.save d name text).desk name).answer
      = .ok (.loaded name (String.ofList (normalizeNewlines text.toList))) := by
  obtain ⟨l, files, files', hplace, hwrite, hdesk⟩ := exists_of_saved h hsuccess
  obtain ⟨e, he⟩ := Option.ne_none_iff_exists'.1 he
  rw [hdesk]
  simp only [load, he, hplace, FileTree.isFile_of_write hwrite, FileTree.readText_of_write hwrite]

theorem load_of_saved_of_idle (h : (b.save d name text).answer = .ok a)
    (hsuccess : a.success = true) (he : d.engine = none) :
    (b.load (b.save d name text).desk name).answer = .ok (.refused .noTool) := by
  obtain ⟨l, files, files', -, -, hdesk⟩ := exists_of_saved h hsuccess
  rw [hdesk]
  simp only [load, he, Desk.refuse]

/-- A text has its line ends as they are read if and only if there is no carriage return in it. -/
theorem ofList_normalizeNewlines_eq_iff (text : String) :
    String.ofList (normalizeNewlines text.toList) = text ↔ '\r' ∉ text.toList := by
  rw [← Text.normalizeNewlines_eq_self_iff]
  constructor
  · intro h
    rw [← String.toList_ofList (l := normalizeNewlines text.toList), h]
  · intro h
    rw [h, String.ofList_toList]

/-- **What was saved can be loaded, if there is a tool to load it.** It is what was saved if and
only if there is no carriage return in it. -/
theorem load_saved_iff (h : (b.save d name text).answer = .ok a) (hsuccess : a.success = true) :
    ((∃ source, (b.load (b.save d name text).desk name).answer = .ok (.loaded name source))
        ↔ d.engine ≠ none)
      ∧ ((b.load (b.save d name text).desk name).answer = .ok (.loaded name text)
        ↔ d.engine ≠ none ∧ '\r' ∉ text.toList) := by
  by_cases he : d.engine = none
  · rw [load_of_saved_of_idle h hsuccess he]
    simp [he]
  · rw [load_of_saved h hsuccess he]
    simp [he, ofList_normalizeNewlines_eq_iff]

end SaveAndLoad

/-- A desk with the Pascal tool at work, in a workspace without files. -/
def emptyDesk : Desk :=
  ⟨some .pascal, some (demo.newEngine .pascal), none, none,
    ⟨[(["home"], .folder), (["home", "workspace"], .folder)]⟩⟩

/-- Nothing has to be made before a file is saved there. -/
theorem answer_save_emptyDesk (text : String) :
    (demo.save emptyDesk "a.asm" text).answer = .ok (.saved "a.asm") := by
  have hplace : demo.place "a.asm" = .ok ["home", "workspace", "a.asm"] := by
    rw [place_of_not_nul demo (by decide)]
    rfl
  have hmade : emptyDesk.files.makeFoldersWithin demo.stack.calls demo.workingFolder
      (Path.ofLocation ["home", "workspace", "a.asm"]).parent = some (emptyDesk.files, none) := by
    refine FileTree.makeFoldersWithin_eq_some_iff.2 ⟨?_, ?_⟩
    · unfold FileTree.makeFolders
      rfl
    · unfold FileTree.ascent
      exact Nat.zero_le _
  rw [save, hplace]
  simp only [hmade]
  rfl

theorem load_saved_iff_emptyDesk :
    (demo.save emptyDesk "a.asm" "ret\n").answer = .ok (.saved "a.asm")
      ∧ (demo.load (demo.save emptyDesk "a.asm" "ret\n").desk "a.asm").answer
          = .ok (.loaded "a.asm" "ret\n") :=
  ⟨answer_save_emptyDesk "ret\n",
    (load_saved_iff (answer_save_emptyDesk "ret\n") rfl).2.2 ⟨nofun, by decide⟩⟩

/-- A carriage return is not loaded as it was saved. -/
theorem not_load_saved_carriageReturn : ¬ ∀ (b : Workbench) (d : Desk) (name text : String),
    d.engine ≠ none → (b.save d name text).answer = .ok (.saved name) →
      (b.load (b.save d name text).desk name).answer = .ok (.loaded name text) := by
  intro h
  have hsaved := answer_save_emptyDesk "ret\r\n"
  have hloaded := load_of_saved hsaved rfl nofun
  rw [h demo emptyDesk "a.asm" "ret\r\n" nofun hsaved] at hloaded
  injection hloaded with hanswer
  injection hanswer with _ hsource
  exact absurd ((ofList_normalizeNewlines_eq_iff "ret\r\n").1 hsource.symm) (by decide)

end TurboBench.Shell.Workbench
