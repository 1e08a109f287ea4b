import TurboBench.Proofs.Files.Normalisation
import TurboBench.Proofs.Json.Limits
import TurboBench.Shell.Settings

/-!
# Settings that are loaded

Settings are loaded as they are given, or it is said why not: each number is the one in the settings
file, within its bounds, or its default, and the workspace is the one in the environment, or the one
in the file, or the default (`load_eq_ok_iff`).

Loading breaks down where something happens that is not foreseen: a home folder is not known, a path
cannot be asked about, bytes are not text, or the reader gives up. There are no other breakdowns
(`load_eq_broken_iff`), and none where all is as usual (`IsTame.not_unforeseen`).
-/

set_option autoImplicit false

namespace TurboBench.Shell.Settings

open TurboBench.Files (Path FileTree)
open TurboBench.Text (trim normalizeNewlines)

variable {s : Surroundings} {folder : Path} {members : List (String × Json.Value)}

/-! ## Numbers -/

/-- The value of a number: the one in a settings file, within the bounds, or else a given one. -/
inductive NumberOf (members : List (String × Json.Value)) (n : Setting) (otherwise : Int) :
    Int → Prop
  | given {v : Int} (h : Json.member? members n.key = some (.integer v)) (hlow : n.low ≤ v)
      (hhigh : v ≤ n.high) : NumberOf members n otherwise v
  | missing (h : Json.member? members n.key = none) : NumberOf members n otherwise otherwise

theorem NumberOf.bounds {n : Setting} {v : Int} (h : NumberOf members n n.default v) :
    n.low ≤ v ∧ v ≤ n.high := by
  cases h with
  | given _ hlow hhigh => exact ⟨hlow, hhigh⟩
  | missing _ => cases n <;> decide

theorem set_get_self (t : Settings) (n : Setting) : t.set n (t.get n) = t := by
  cases n <;> rfl

/-- Settings with the same workspace and the same numbers are the same. -/
theorem eq_of_get {t u : Settings} (hw : t.workspace = u.workspace) (h : ∀ n, t.get n = u.get n) :
    t = u := by
  obtain ⟨w, a, p, m⟩ := t
  obtain ⟨w', a', p', m'⟩ := u
  obtain rfl : w = w' := hw
  obtain rfl : a = a' := h .assemblerSteps
  obtain rfl : p = p' := h .pascalSteps
  obtain rfl : m = m' := h .memoryDump
  rfl

/-- A number is read if it is the right one for its key, and is put in its place. -/
theorem readNumber_eq_ok_iff {t u : Settings} {n : Setting} :
    readNumber members t n = .ok u ↔ ∃ v, NumberOf members n (t.get n) v ∧ u = t.set n v := by
  unfold readNumber
  constructor
  · intro h
    split at h
    · rename_i hmissing
      obtain rfl := Except.ok.inj h
      exact ⟨_, .missing hmissing, (set_get_self t n).symm⟩
    · rename_i v hgiven
      split at h
      · rename_i hadmits
        simp only [Setting.admits, Bool.and_eq_true, decide_eq_true_eq] at hadmits
        obtain rfl := Except.ok.inj h
        exact ⟨v, .given hgiven hadmits.1 hadmits.2, rfl⟩
      · exact nomatch h
    · exact nomatch h
  · rintro ⟨v, hv, rfl⟩
    -- A member that is given has passed its bounds, and one that is missing changes nothing.
    cases hv with
    | given h hlow hhigh =>
      have hadmits : n.admits v = true := by
        simp only [Setting.admits, Bool.and_eq_true, decide_eq_true_eq]
        exact ⟨hlow, hhigh⟩
      simp only [h, hadmits, if_true]
    | missing h => simp only [h, set_get_self]

/-- Numbers are read one after the other, each without a look at the others. -/
theorem readNumbers_cons_eq_ok_iff {t u : Settings} {n : Setting} {ns : List Setting} :
    readNumbers members t (n :: ns) = .ok u
      ↔ ∃ v, NumberOf members n (t.get n) v ∧ readNumbers members (t.set n v) ns = .ok u := by
  rw [readNumbers]
  constructor
  · intro h
    cases hread : readNumber members t n with
    | error f =>
      rw [hread] at h
      exact nomatch h
    | ok w =>
      rw [hread] at h
      obtain ⟨v, hv, rfl⟩ := readNumber_eq_ok_iff.1 hread
      exact ⟨v, hv, h⟩
  · rintro ⟨v, hv, h⟩
    rw [readNumber_eq_ok_iff.2 ⟨v, hv, rfl⟩]
    exact h

/-- Each number is read, and no other one is changed. -/
theorem readNumbers_eq_ok_iff {t u : Settings} {ns : List Setting} (hns : ns.Nodup) :
    readNumbers members t ns = .ok u ↔ u.workspace = t.workspace
      ∧ (∀ n ∈ ns, NumberOf members n (t.get n) (u.get n)) ∧ ∀ n ∉ ns, u.get n = t.get n := by
  -- Since no setting is read twice, reading one leaves the values that the others start with.
  induction ns generalizing t with
  | nil =>
    rw [readNumbers]
    constructor
    · intro h
      obtain rfl := Except.ok.inj h
      exact ⟨rfl, fun n hn => absurd hn List.not_mem_nil, fun _ _ => rfl⟩
    · rintro ⟨hw, -, hget⟩
      rw [eq_of_get hw fun n => hget n List.not_mem_nil]
  | cons n ns ih =>
    obtain ⟨hn, hns⟩ := List.nodup_cons.1 hns
    have hself (v : Int) : (t.set n v).get n = v := by rw [get_set, if_pos rfl]
    have hother (v : Int) {m : Setting} (hm : m ≠ n) : (t.set n v).get m = t.get m := by
      rw [get_set, if_neg hm]
    have hne {m : Setting} (hm : m ∈ ns) : m ≠ n := by
      rintro rfl
      exact hn hm
    rw [readNumbers_cons_eq_ok_iff]
    constructor
    · rintro ⟨v, hv, h⟩
      obtain ⟨hw, hin, hout⟩ := (ih hns).1 h
      have hun : u.get n = v := (hout n hn).trans (hself v)
      refine ⟨hw.trans (workspace_set t n v), ?_, fun m hm => ?_⟩
      · exact List.forall_mem_cons.2 ⟨hun ▸ hv, fun m hm => hother v (hne hm) ▸ hin m hm⟩
      · rw [List.mem_cons, not_or] at hm
        exact (hout m hm.2).trans (hother v hm.1)
    · rintro ⟨hw, hin, hout⟩
      obtain ⟨hv, hin⟩ := List.forall_mem_cons.1 hin
      refine ⟨u.get n, hv, (ih hns).2 ⟨hw.trans (workspace_set t n _).symm, ?_, fun m hm => ?_⟩⟩
      · exact fun m hm => (hother _ (hne hm)).symm ▸ hin m hm
      · by_cases hmn : m = n
        · rw [hmn, hself]
        · rw [hother _ hmn]
          exact hout m fun hmem => (List.mem_cons.1 hmem).elim hmn hm

theorem nodup_all : Setting.all.Nodup := by decide

/-! ## The workspace -/

/-- The workspace of a settings file in a folder. -/
inductive WorkspaceOf (s : Surroundings) (folder : Path) (members : List (String × Json.Value)) :
    Path → Prop
  | given {name : String} {p : Path} (h : Json.member? members workspaceKey = some (.string name))
      (htext : trim name.toList ≠ []) (hp : s.expandHome (.ofString name) = .ok p) :
      WorkspaceOf s folder members (folder.join p)
  | missing (h : Json.member? members workspaceKey = none
      ∨ Json.member? members workspaceKey = some .null) :
      WorkspaceOf s folder members default.workspace

theorem readWorkspace_of_missing (h : Json.member? members workspaceKey = none
    ∨ Json.member? members workspaceKey = some .null) :
    readWorkspace s folder members = .ok none := by
  rcases h with h | h <;> simp only [readWorkspace, h]

theorem readWorkspace_of_given {name : String} {p : Path}
    (h : Json.member? members workspaceKey = some (.string name)) (htext : trim name.toList ≠ [])
    (hp : s.expandHome (.ofString name) = .ok p) :
    readWorkspace s folder members = .ok (some (folder.join p)) := by
  have hempty : (trim name.toList).isEmpty = false := List.isEmpty_eq_false_iff.2 htext
  simp only [readWorkspace, h, hempty, Bool.false_eq_true, if_false, hp]

theorem readWorkspace_of_no_home {name : String} {b : Breakdown}
    (h : Json.member? members workspaceKey = some (.string name)) (htext : trim name.toList ≠ [])
    (hb : s.expandHome (.ofString name) = .error b) :
    readWorkspace s folder members = .error (.broken b) := by
  have hempty : (trim name.toList).isEmpty = false := List.isEmpty_eq_false_iff.2 htext
  simp only [readWorkspace, h, hempty, Bool.false_eq_true, if_false, hb]

/-- What is in place of a workspace and is none is refused. -/
theorem readWorkspace_cases (s : Surroundings) (folder : Path)
    (members : List (String × Json.Value)) :
    (Json.member? members workspaceKey = none ∨ Json.member? members workspaceKey = some .null)
      ∨ (∃ name, Json.member? members workspaceKey = some (.string name)
          ∧ trim name.toList ≠ [])
      ∨ readWorkspace s folder members = .error (.refused .blankWorkspace) := by
  unfold readWorkspace
  split
  · rename_i h
    exact .inl (.inl h)
  · rename_i h
    exact .inl (.inr h)
  · rename_i name h
    by_cases htext : trim name.toList = []
    · rw [htext]
      exact .inr (.inr rfl)
    · exact .inr (.inl ⟨name, h, htext⟩)
  · exact .inr (.inr rfl)

/-- The workspace that is read is the right one for what is held. -/
theorem workspaceOf_iff {w : Path} : WorkspaceOf s folder members w
    ↔ ∃ o, readWorkspace s folder members = .ok o ∧ o.getD default.workspace = w := by
  constructor
  · rintro (⟨h, htext, hp⟩ | h)
    · exact ⟨_, readWorkspace_of_given h htext hp, rfl⟩
    · exact ⟨none, readWorkspace_of_missing h, rfl⟩
  · rintro ⟨o, ho, rfl⟩
    rcases readWorkspace_cases s folder members with h | ⟨name, h, htext⟩ | h
    · rw [readWorkspace_of_missing h] at ho
      obtain rfl := Except.ok.inj ho
      exact .missing h
    · cases hp : s.expandHome (.ofString name) with
      | error b =>
        rw [readWorkspace_of_no_home h htext hp] at ho
        exact nomatch ho
      | ok p =>
        rw [readWorkspace_of_given h htext hp] at ho
        obtain rfl := Except.ok.inj ho
        exact .given h htext hp
    · rw [h] at ho
      exact nomatch ho

/-- Reading the workspace breaks down only for a home folder that is not known. -/
theorem readWorkspace_eq_broken_iff {b : Breakdown} :
    readWorkspace s folder members = .error (.broken b)
      ↔ ∃ name, Json.member? members workspaceKey = some (.string name)
        ∧ trim name.toList ≠ [] ∧ s.expandHome (.ofString name) = .error b := by
  constructor
  · intro hb
    rcases readWorkspace_cases s folder members with h | ⟨name, h, htext⟩ | h
    · rw [readWorkspace_of_missing h] at hb
      exact nomatch hb
    · cases hp : s.expandHome (.ofString name) with
      | error b' =>
        rw [readWorkspace_of_no_home h htext hp] at hb
        obtain rfl := Failure.broken.inj (Except.error.inj hb)
        exact ⟨name, h, htext, hp⟩
      | ok p =>
        rw [readWorkspace_of_given h htext hp] at hb
        exact nomatch hb
    · rw [h] at hb
      exact nomatch hb
  · rintro ⟨name, h, htext, hp⟩
    exact readWorkspace_of_no_home h htext hp

/-! ## Members -/

/-- The settings that the members of a settings file in a folder make. -/
structure MadeOf (s : Surroundings) (folder : Path) (members : List (String × Json.Value))
    (t : Settings) : Prop where
  known : ∀ m ∈ members, m.1 ∈ knownKeys
  workspace : WorkspaceOf s folder members t.workspace
  number : ∀ n, NumberOf members n n.default (t.get n)

/-- No key is unknown if all of them are known. -/
theorem unknownKeys_eq_nil_iff : unknownKeys members = [] ↔ ∀ m ∈ members, m.1 ∈ knownKeys := by
  rw [List.eq_nil_iff_forall_not_mem]
  simp only [unknownKeys, List.mem_mergeSort, List.mem_eraseDups, List.mem_filter, List.mem_map]
  constructor
  · intro h m hm
    by_cases hknown : m.1 ∈ knownKeys
    · exact hknown
    · refine absurd ⟨⟨m, hm, rfl⟩, ?_⟩ (h m.1)
      simp only [List.contains_eq_mem, hknown, decide_false, Bool.not_false]
  · rintro h key ⟨⟨m, hm, rfl⟩, hunknown⟩
    simp only [List.contains_eq_mem, h m hm, decide_true, Bool.not_true] at hunknown
    exact Bool.false_ne_true hunknown

theorem get_start (w : Path) (n : Setting) :
    ({ default with workspace := w } : Settings).get n = n.default := by
  cases n <;> rfl

theorem unknownKeys_isEmpty (h : ∀ m ∈ members, m.1 ∈ knownKeys) :
    (unknownKeys members).isEmpty = true :=
  List.isEmpty_iff.2 (unknownKeys_eq_nil_iff.2 h)

theorem ofMembers_of_error (h : ∀ m ∈ members, m.1 ∈ knownKeys) {f : Failure SettingsFlaw}
    (hw : readWorkspace s folder members = .error f) : ofMembers s folder members = .error f := by
  simp only [ofMembers, unknownKeys_isEmpty h, Bool.not_true, Bool.false_eq_true, if_false, hw]

theorem ofMembers_of_flaw (h : ∀ m ∈ members, m.1 ∈ knownKeys) {w : Option Path}
    {f : SettingsFlaw} (hw : readWorkspace s folder members = .ok w)
    (hf : readNumbers members { default with workspace := w.getD default.workspace } Setting.all
      = .error f) : ofMembers s folder members = .error (.refused f) := by
  simp only [ofMembers, unknownKeys_isEmpty h, Bool.not_true, Bool.false_eq_true, if_false, hw, hf]

theorem ofMembers_of_ok (h : ∀ m ∈ members, m.1 ∈ knownKeys) {w : Option Path} {t : Settings}
    (hw : readWorkspace s folder members = .ok w)
    (ht : readNumbers members { default with workspace := w.getD default.workspace } Setting.all
      = .ok t) : ofMembers s folder members = .ok t := by
  simp only [ofMembers, unknownKeys_isEmpty h, Bool.not_true, Bool.false_eq_true, if_false, hw, ht]

/-- Unknown keys are looked for first, so with any other outcome there are none. -/
theorem known_of_ofMembers {o : Except (Failure SettingsFlaw) Settings}
    (h : ofMembers s folder members = o) (ho : ∀ keys, o ≠ .error (.refused (.unknownKeys keys))) :
    ∀ m ∈ members, m.1 ∈ knownKeys := by
  rw [← unknownKeys_eq_nil_iff]
  by_cases hunknown : unknownKeys members = []
  · exact hunknown
  · have hempty : (unknownKeys members).isEmpty = false := List.isEmpty_eq_false_iff.2 hunknown
    simp only [ofMembers, hempty, Bool.not_false, if_true] at h
    exact absurd h.symm (ho _)

/-- **Members make settings if and only if these are right for them.** -/
theorem ofMembers_eq_ok_iff {t : Settings} :
    ofMembers s folder members = .ok t ↔ MadeOf s folder members t := by
  constructor
  · intro h
    have hknown := known_of_ofMembers h fun _ heq => nomatch heq
    -- The workspace is read first, and the numbers are set on the settings that have it.
    cases hw : readWorkspace s folder members with
    | error f =>
      rw [ofMembers_of_error hknown hw] at h
      exact nomatch h
    | ok w =>
      cases hu : readNumbers members { default with workspace := w.getD default.workspace }
          Setting.all with
      | error f =>
        rw [ofMembers_of_flaw hknown hw hu] at h
        exact nomatch h
      | ok u =>
        rw [ofMembers_of_ok hknown hw hu] at h
        obtain rfl := Except.ok.inj h
        obtain ⟨hworkspace, hnumber, -⟩ := (readNumbers_eq_ok_iff nodup_all).1 hu
        refine ⟨hknown, workspaceOf_iff.2 ⟨w, hw, hworkspace.symm⟩, fun n => ?_⟩
        exact get_start _ n ▸ hnumber n n.mem_all
  · rintro ⟨hknown, hworkspace, hnumber⟩
    obtain ⟨w, hw, hworkspace⟩ := workspaceOf_iff.1 hworkspace
    have hread : readNumbers members { default with workspace := w.getD default.workspace }
        Setting.all = .ok t := by
      refine (readNumbers_eq_ok_iff nodup_all).2 ⟨hworkspace.symm, fun n _ => ?_, fun n hn => ?_⟩
      · rw [get_start]
        exact hnumber n
      · exact absurd n.mem_all hn
    exact ofMembers_of_ok hknown hw hread

/-- Members break down only for the home folder of the workspace that they name. -/
theorem ofMembers_eq_broken_iff {b : Breakdown} :
    ofMembers s folder members = .error (.broken b)
      ↔ (∀ m ∈ members, m.1 ∈ knownKeys)
        ∧ ∃ name, Json.member? members workspaceKey = some (.string name)
          ∧ trim name.toList ≠ [] ∧ s.expandHome (.ofString name) = .error b := by
  constructor
  · intro h
    have hknown := known_of_ofMembers h fun _ heq => nomatch heq
    refine ⟨hknown, ?_⟩
    -- Only the workspace can break off: a number is either taken or refused.
    cases hw : readWorkspace s folder members with
    | error f =>
      rw [ofMembers_of_error hknown hw] at h
      rw [Except.error.inj h] at hw
      exact readWorkspace_eq_broken_iff.1 hw
    | ok w =>
      cases hu : readNumbers members { default with workspace := w.getD default.workspace }
          Setting.all with
      | error f =>
        rw [ofMembers_of_flaw hknown hw hu] at h
        exact nomatch h
      | ok u =>
        rw [ofMembers_of_ok hknown hw hu] at h
        exact nomatch h
  · rintro ⟨hknown, hname⟩
    exact ofMembers_of_error hknown (readWorkspace_eq_broken_iff.2 hname)

/-! ## Files -/

section Files

variable {files : FileTree} {asked : Option Path} {file : Path} {text : List Char}

/-- The settings file in force, its path made absolute. -/
def InForce (s : Surroundings) (asked : Option Path) (file : Path) : Prop :=
  ∃ p q, file? s asked = some p ∧ s.expandHome p = .ok q ∧ q.hasNul = false
    ∧ file = .ofLocation (q.location s.workingFolder)

/-- The text of the settings file in force: that of its bytes, with a line feed for every line
end. -/
def TextOf (s : Surroundings) (files : FileTree) (asked : Option Path) (file : Path)
    (text : List Char) : Prop :=
  InForce s asked file ∧ ∃ bytes cs, files.read s.workingFolder file = .ok bytes
    ∧ Text.Utf8.decode bytes = .ok cs ∧ text = normalizeNewlines cs

/-- What the settings file in force holds, and the folder that it lies in. Where there is no such
file, nothing is held. -/
inductive Holds (s : Surroundings) (files : FileTree) (asked : Option Path) :
    Path → List (String × Json.Value) → Prop
  | noFile (folder : Path) (h : file? s asked = none) : Holds s files asked folder []
  | file {file : Path} {text : List Char} {members : List (String × Json.Value)}
      (h : TextOf s files asked file text)
      (hp : Json.parse s.stack.calls text = .ok (.object members)) :
      Holds s files asked file.parent members

/-- The settings before the environment names the workspace. -/
def base (s : Surroundings) (files : FileTree) (asked : Option Path) :
    Except (Failure SettingsFlaw) Settings :=
  (file? s asked).elim (.ok default) (ofFile s files)

theorem base_of_exists_error (h : InForce s asked file) {f : Files.Fault}
    (hexists : files.exists_ s.workingFolder file = .error f) :
    base s files asked = .error (.broken (.fault f)) := by
  obtain ⟨p, q, hp, hq, hnul, rfl⟩ := h
  simp only [base, hp, Option.elim_some, ofFile, hq, hnul, Bool.false_eq_true, if_false, hexists]

theorem base_of_missing (h : InForce s asked file)
    (hexists : files.exists_ s.workingFolder file = .ok false) :
    base s files asked = .error (.refused (.notFound file)) := by
  obtain ⟨p, q, hp, hq, hnul, rfl⟩ := h
  simp only [base, hp, Option.elim_some, ofFile, hq, hnul, Bool.false_eq_true, if_false, hexists]

theorem base_of_read_error (h : InForce s asked file) {f : Files.Fault}
    (hexists : files.exists_ s.workingFolder file = .ok true)
    (hread : files.read s.workingFolder file = .error f) :
    base s files asked = .error (.refused (.unreadable f)) := by
  obtain ⟨p, q, hp, hq, hnul, rfl⟩ := h
  simp only [base, hp, Option.elim_some, ofFile, hq, hnul, Bool.false_eq_true, if_false, hexists,
    FileTree.readText, hread]

/-- A file that was read is there. -/
theorem exists_of_read {working : Files.Location} {bytes : List UInt8}
    (h : files.read working file = .ok bytes) : files.exists_ working file = .ok true := by
  unfold FileTree.read at h
  cases he : files.entry working file with
  | error c =>
    rw [he] at h
    exact nomatch h
  | ok e => simp only [FileTree.exists_, FileTree.ask, he]

theorem base_of_decode_error (h : InForce s asked file) {bytes : List UInt8}
    {f : Text.Utf8.Flaw} (hread : files.read s.workingFolder file = .ok bytes)
    (hbytes : Text.Utf8.decode bytes = .error f) :
    base s files asked = .error (.broken (.notText f)) := by
  obtain ⟨p, q, hp, hq, hnul, rfl⟩ := h
  simp only [base, hp, Option.elim_some, ofFile, hq, hnul, Bool.false_eq_true, if_false,
    exists_of_read hread, FileTree.readText, hread, hbytes]

theorem base_of_textOf (h : TextOf s files asked file text) :
    base s files asked = ofText s file text := by
  obtain ⟨⟨p, q, hp, hq, hnul, rfl⟩, bytes, cs, hread, hcs, rfl⟩ := h
  simp only [base, hp, Option.elim_some, ofFile, hq, hnul, Bool.false_eq_true, if_false,
    exists_of_read hread, FileTree.readText, hread, hcs]

/-- Why the text of the settings file is not read, where nothing is said about it: its home folder
is not known, its path cannot be asked about, or its bytes are not text. -/
inductive NotRead (s : Surroundings) (files : FileTree) (asked : Option Path) : Breakdown → Prop
  | home {p : Path} {b : Breakdown} (hp : file? s asked = some p) (h : s.expandHome p = .error b) :
      NotRead s files asked b
  | nul {p q : Path} (hp : file? s asked = some p) (hq : s.expandHome p = .ok q)
      (h : q.hasNul = true) : NotRead s files asked .nulInPath
  | path {file : Path} {f : Files.Fault} (hfile : InForce s asked file)
      (h : files.exists_ s.workingFolder file = .error f) : NotRead s files asked (.fault f)
  | bytes {file : Path} {bytes : List UInt8} {f : Text.Utf8.Flaw} (hfile : InForce s asked file)
      (hread : files.read s.workingFolder file = .ok bytes)
      (h : Text.Utf8.decode bytes = .error f) : NotRead s files asked (.notText f)

/-- Where the text of the file is not read, loading breaks down. -/
theorem base_of_notRead {b : Breakdown} (h : NotRead s files asked b) :
    base s files asked = .error (.broken b) := by
  cases h with
  | home hp h => simp only [base, hp, Option.elim_some, ofFile, h]
  | nul hp hq h => simp only [base, hp, Option.elim_some, ofFile, hq, h, if_true]
  | path hfile h => exact base_of_exists_error hfile h
  | bytes hfile hread h => exact base_of_decode_error hfile hread h

/-- The text of the settings file is read, or it is known why not. -/
theorem base_cases (s : Surroundings) (files : FileTree) (asked : Option Path) :
    (file? s asked = none ∧ base s files asked = .ok default)
      ∨ (∃ file text, TextOf s files asked file text)
      ∨ (∃ f, base s files asked = .error (.refused f))
      ∨ ∃ b, NotRead s files asked b := by
  -- The steps in their order; each has a result that ends it and one that goes on.
  cases hp : file? s asked with
  | none => exact .inl ⟨rfl, by rw [base, hp]; rfl⟩
  | some p =>
    cases hq : s.expandHome p with
    | error b => exact .inr (.inr (.inr ⟨b, .home hp hq⟩))
    | ok q =>
      cases hnul : q.hasNul with
      | true => exact .inr (.inr (.inr ⟨_, .nul hp hq hnul⟩))
      | false =>
        obtain ⟨file, hfile⟩ : ∃ file, InForce s asked file := ⟨_, p, q, hp, hq, hnul, rfl⟩
        cases hexists : files.exists_ s.workingFolder file with
        | error f => exact .inr (.inr (.inr ⟨_, .path hfile hexists⟩))
        | ok there =>
          cases there with
          | false => exact .inr (.inr (.inl ⟨_, base_of_missing hfile hexists⟩))
          | true =>
            cases hread : files.read s.workingFolder file with
            | error f => exact .inr (.inr (.inl ⟨_, base_of_read_error hfile hexists hread⟩))
            | ok bytes =>
              cases hcs : Text.Utf8.decode bytes with
              | error f => exact .inr (.inr (.inr ⟨_, .bytes hfile hread hcs⟩))
              | ok cs => exact .inr (.inl ⟨_, _, hfile, bytes, cs, hread, hcs, rfl⟩)

/-- The reader gives up on a text that nothing is wrong with so far. -/
inductive GivesUp (s : Surroundings) (text : List Char) : Breakdown → Prop
  | numeral {n : Nat} (h : Json.parse s.stack.calls text = .error (.numeralTooLong n)) :
      GivesUp s text (.numeralTooLong n Json.digitLimit)
  | array (h : Json.parse s.stack.calls text = .error .arrayTooDeep) : GivesUp s text .arrayTooDeep
  | object (h : Json.parse s.stack.calls text = .error .objectTooDeep) :
      GivesUp s text .objectTooDeep

theorem ofText_of_object (hp : Json.parse s.stack.calls text = .ok (.object members)) :
    ofText s file text = ofMembers s file.parent members := by
  simp only [ofText, hp]

/-- Where the reader gives up, loading breaks down. -/
theorem ofText_of_givesUp {b : Breakdown} (h : GivesUp s text b) :
    ofText s file text = .error (.broken b) := by
  cases h with
  | numeral h => simp only [ofText, h]
  | array h => simp only [ofText, h]
  | object h => simp only [ofText, h]

/-- A text has members, is refused, or is given up. -/
theorem ofText_cases (s : Surroundings) (file : Path) (text : List Char) :
    (∃ members, Json.parse s.stack.calls text = .ok (.object members))
      ∨ (∃ f, ofText s file text = .error (.refused f)) ∨ ∃ b, GivesUp s text b := by
  cases hp : Json.parse s.stack.calls text with
  | error c =>
    cases c with
    | malformed flaw position =>
      exact .inr (.inl ⟨.malformed file text flaw position, by simp only [ofText, hp]⟩)
    | numeralTooLong n => exact .inr (.inr ⟨_, .numeral hp⟩)
    | arrayTooDeep => exact .inr (.inr ⟨_, .array hp⟩)
    | objectTooDeep => exact .inr (.inr ⟨_, .object hp⟩)
  | ok v =>
    cases v with
    | object members => exact .inl ⟨members, rfl⟩
    | _ => exact .inr (.inl ⟨.notObject, by simp only [ofText, hp]⟩)

/-- What is held is read, or it is known why not. -/
theorem holds_cases (s : Surroundings) (files : FileTree) (asked : Option Path) :
    (∃ folder members, Holds s files asked folder members)
      ∨ (∃ f, base s files asked = .error (.refused f))
      ∨ (∃ b, NotRead s files asked b)
      ∨ ∃ file text b, TextOf s files asked file text ∧ GivesUp s text b := by
  rcases base_cases s files asked with ⟨h, -⟩ | ⟨file, text, h⟩ | h | h
  · exact .inl ⟨⟨.root, []⟩, [], .noFile _ h⟩
  · rcases ofText_cases s file text with ⟨members, hp⟩ | ⟨f, hf⟩ | ⟨b, hb⟩
    · exact .inl ⟨_, members, .file h hp⟩
    · exact .inr (.inl ⟨f, (base_of_textOf h).trans hf⟩)
    · exact .inr (.inr (.inr ⟨file, text, b, h, hb⟩))
  · exact .inr (.inl h)
  · exact .inr (.inr (.inl h))

/-- The settings are those that what is held makes. -/
theorem base_of_holds (h : Holds s files asked folder members) :
    base s files asked = ofMembers s folder members := by
  cases h with
  | noFile folder h =>
    have hdefault : MadeOf s folder [] default :=
      ⟨fun m hm => absurd hm List.not_mem_nil, .missing (.inl rfl), fun n => ?_⟩
    · rw [ofMembers_eq_ok_iff.2 hdefault, base, h]
      rfl
    · rw [get_default]
      exact .missing rfl
  | file h hp => rw [base_of_textOf h, ofText_of_object hp]

end Files

/-! ## Loading -/

/-- The settings that are right for what a settings file in a folder holds. The environment goes
before the file, but what the file says has to make sense in any case. -/
structure RightFor (s : Surroundings) (folder : Path) (members : List (String × Json.Value))
    (t : Settings) : Prop where
  known : ∀ m ∈ members, m.1 ∈ knownKeys
  number : ∀ n, NumberOf members n n.default (t.get n)
  workspace : ∃ w, WorkspaceOf s folder members w ∧
    match s.lookUp workspaceVariable with
    | none => t.workspace = w
    | some name => s.expandHome (.ofString name) = .ok t.workspace

/-- What happens that is not foreseen. -/
inductive Unforeseen (s : Surroundings) (files : FileTree) (asked : Option Path) : Breakdown → Prop
  | notRead {b : Breakdown} (h : NotRead s files asked b) : Unforeseen s files asked b
  | givesUp {file : Path} {text : List Char} {b : Breakdown} (h : TextOf s files asked file text)
      (hb : GivesUp s text b) : Unforeseen s files asked b
  /-- The home folder of the workspace in the file is not known, -/
  | workspace {folder : Path} {members : List (String × Json.Value)} {name : String} {b : Breakdown}
      (h : Holds s files asked folder members) (hknown : ∀ m ∈ members, m.1 ∈ knownKeys)
      (hname : Json.member? members workspaceKey = some (.string name))
      (htext : trim name.toList ≠ []) (hb : s.expandHome (.ofString name) = .error b) :
      Unforeseen s files asked b
  /-- nor that of the workspace in the environment, and nothing is wrong with the file. -/
  | variable_ {folder : Path} {members : List (String × Json.Value)} {t : Settings} {name : String}
      {b : Breakdown} (h : Holds s files asked folder members) (ht : MadeOf s folder members t)
      (hname : s.lookUp workspaceVariable = some name)
      (hb : s.expandHome (.ofString name) = .error b) : Unforeseen s files asked b

section Loading

variable {files : FileTree} {asked : Option Path}

theorem load_of_error {f : Failure SettingsFlaw} (h : base s files asked = .error f) :
    load s files asked = .error f := by
  unfold base at h
  simp only [load, h]

theorem load_of_no_variable {t : Settings} (h : base s files asked = .ok t)
    (hname : s.lookUp workspaceVariable = none) : load s files asked = .ok t := by
  unfold base at h
  simp only [load, h, hname]

theorem load_of_variable {t : Settings} {name : String} {p : Path}
    (h : base s files asked = .ok t) (hname : s.lookUp workspaceVariable = some name)
    (hp : s.expandHome (.ofString name) = .ok p) :
    load s files asked = .ok { t with workspace := p } := by
  unfold base at h
  simp only [load, h, hname, hp]

theorem load_of_no_home {t : Settings} {name : String} {b : Breakdown}
    (h : base s files asked = .ok t) (hname : s.lookUp workspaceVariable = some name)
    (hb : s.expandHome (.ofString name) = .error b) :
    load s files asked = .error (.broken b) := by
  unfold base at h
  simp only [load, h, hname, hb]

theorem rightFor_of_madeOf {t : Settings} (h : MadeOf s folder members t) {p : Path}
    (hp : match s.lookUp workspaceVariable with
      | none => p = t.workspace
      | some name => s.expandHome (.ofString name) = .ok p) :
    RightFor s folder members { t with workspace := p } where
  known := h.known
  number n := by
    have hn := h.number n
    cases n <;> exact hn
  workspace := ⟨t.workspace, h.workspace, hp⟩

/-- **Settings are loaded just if they are right for what is held.** -/
theorem load_eq_ok_iff {t : Settings} : load s files asked = .ok t
    ↔ ∃ folder members, Holds s files asked folder members ∧ RightFor s folder members t := by
  constructor
  · intro h
    rcases holds_cases s files asked with
      ⟨folder, members, hholds⟩ | ⟨f, hf⟩ | ⟨b, hb⟩ | ⟨file, text, b, htext, hb⟩
    · refine ⟨folder, members, hholds, ?_⟩
      cases hbase : base s files asked with
      | error f =>
        rw [load_of_error hbase] at h
        exact nomatch h
      | ok u =>
        have hu := ofMembers_eq_ok_iff.1 ((base_of_holds hholds).symm.trans hbase)
        cases hname : s.lookUp workspaceVariable with
        | none =>
          rw [load_of_no_variable hbase hname] at h
          obtain rfl := Except.ok.inj h
          exact rightFor_of_madeOf hu (by rw [hname])
        | some name =>
          cases hp : s.expandHome (.ofString name) with
          | error b =>
            rw [load_of_no_home hbase hname hp] at h
            exact nomatch h
          | ok p =>
            rw [load_of_variable hbase hname hp] at h
            obtain rfl := Except.ok.inj h
            exact rightFor_of_madeOf hu (by rw [hname]; exact hp)
    · rw [load_of_error hf] at h
      exact nomatch h
    · rw [load_of_error (base_of_notRead hb)] at h
      exact nomatch h
    · rw [load_of_error ((base_of_textOf htext).trans (ofText_of_givesUp hb))] at h
      exact nomatch h
  · rintro ⟨folder, members, hholds, hknown, hnumber, w, hw, hworkspace⟩
    -- The file has made the settings with its own workspace in them.
    have hmade : MadeOf s folder members { t with workspace := w } :=
      ⟨hknown, hw, fun n => by have hn := hnumber n; cases n <;> exact hn⟩
    have hbase := (base_of_holds hholds).trans (ofMembers_eq_ok_iff.2 hmade)
    cases hname : s.lookUp workspaceVariable with
    | none =>
      rw [hname] at hworkspace
      rw [load_of_no_variable hbase hname, ← hworkspace]
    | some name =>
      rw [hname] at hworkspace
      have hload := load_of_variable hbase hname hworkspace
      exact hload

/-- **What is not foreseen is all that nothing is said about.** -/
theorem load_eq_broken_iff {b : Breakdown} :
    load s files asked = .error (.broken b) ↔ Unforeseen s files asked b := by
  constructor
  · intro h
    -- Either the file holds members, and then the names are left to be looked at, or there are
    -- none.
    rcases holds_cases s files asked with
      ⟨folder, members, hholds⟩ | ⟨f, hf⟩ | ⟨b', hb⟩ | ⟨file, text, b', htext, hb⟩
    · cases hbase : base s files asked with
      | error f =>
        rw [load_of_error hbase] at h
        rw [Except.error.inj h, base_of_holds hholds] at hbase
        obtain ⟨hknown, name, hname, htext, hb⟩ := ofMembers_eq_broken_iff.1 hbase
        exact .workspace hholds hknown hname htext hb
      | ok u =>
        have hu := ofMembers_eq_ok_iff.1 ((base_of_holds hholds).symm.trans hbase)
        cases hname : s.lookUp workspaceVariable with
        | none =>
          rw [load_of_no_variable hbase hname] at h
          exact nomatch h
        | some name =>
          cases hp : s.expandHome (.ofString name) with
          | error b' =>
            rw [load_of_no_home hbase hname hp] at h
            obtain rfl := Failure.broken.inj (Except.error.inj h)
            exact .variable_ hholds hu hname hp
          | ok p =>
            rw [load_of_variable hbase hname hp] at h
            exact nomatch h
    · rw [load_of_error hf] at h
      exact nomatch h
    · rw [load_of_error (base_of_notRead hb)] at h
      obtain rfl := Failure.broken.inj (Except.error.inj h)
      exact .notRead hb
    · rw [load_of_error ((base_of_textOf htext).trans (ofText_of_givesUp hb))] at h
      obtain rfl := Failure.broken.inj (Except.error.inj h)
      exact .givesUp htext hb
  · intro h
    -- Each of the four breaks off at its own place, so the parts before it have results.
    cases h with
    | notRead h => exact load_of_error (base_of_notRead h)
    | givesUp h hb => exact load_of_error ((base_of_textOf h).trans (ofText_of_givesUp hb))
    | workspace h hknown hname htext hb =>
      exact load_of_error ((base_of_holds h).trans
        (ofMembers_eq_broken_iff.2 ⟨hknown, _, hname, htext, hb⟩))
    | variable_ h ht hname hb =>
      exact load_of_no_home ((base_of_holds h).trans (ofMembers_eq_ok_iff.2 ht)) hname hb

end Loading

/-! ## Validation -/

/-- Each number is within the bounds of its setting. -/
structure IsBounded (t : Settings) : Prop where
  assemblerSteps : 1 ≤ t.assemblerSteps ∧ t.assemblerSteps ≤ 1000000
  pascalSteps : 1 ≤ t.pascalSteps ∧ t.pascalSteps ≤ 10000000
  memoryDump : 0 ≤ t.memoryDump ∧ t.memoryDump ≤ 65536

theorem RightFor.isBounded {t : Settings} (h : RightFor s folder members t) : t.IsBounded :=
  ⟨(h.number .assemblerSteps).bounds, (h.number .pascalSteps).bounds,
    (h.number .memoryDump).bounds⟩

/-- That settings are loaded only if they are right, and refused with a reason otherwise. -/
structure Validates (s : Surroundings) (files : FileTree) (asked : Option Path) : Prop where
  answers : (∃ t, load s files asked = .ok t) ∨ ∃ f, load s files asked = .error (.refused f)
  right : ∀ t, load s files asked = .ok t ↔
    ∃ folder members, Holds s files asked folder members ∧ RightFor s folder members t
  bounded : ∀ t, load s files asked = .ok t → t.IsBounded

/-- **Settings are validated or refused**, but where something happens that is not foreseen. -/
theorem validates_iff (s : Surroundings) (files : FileTree) (asked : Option Path) :
    Validates s files asked ↔ ∀ b, ¬ Unforeseen s files asked b := by
  constructor
  · intro h b hb
    have hload := load_eq_broken_iff.2 hb
    rcases h.answers with ⟨t, ht⟩ | ⟨f, hf⟩
    · rw [ht] at hload
      exact nomatch hload
    · rw [hf] at hload
      exact nomatch hload
  · intro h
    refine ⟨?_, fun t => load_eq_ok_iff, fun t ht => ?_⟩
    · cases hload : load s files asked with
      | ok t => exact .inl ⟨t, rfl⟩
      | error f =>
        cases f with
        | refused f => exact .inr ⟨f, rfl⟩
        | broken b => exact absurd (load_eq_broken_iff.1 hload) (h b)
    · obtain ⟨folder, members, -, hright⟩ := load_eq_ok_iff.1 ht
      exact hright.isBounded

/-! ## Tame files -/

/-- A path begins with a tilde, so that it starts at a home folder. -/
def StartsAtHome (p : Path) : Prop :=
  p.isAbsolute = false ∧ ∃ step steps, p.steps = step :: steps ∧ step.toList.head? = some '~'

/-- A path that does not begin with a tilde stays as it is. -/
theorem expandHome_of_not_startsAtHome {p : Path} (h : ¬ StartsAtHome p) :
    s.expandHome p = .ok p := by
  unfold Surroundings.expandHome
  split
  · rename_i step steps hrelative hsteps
    split
    · rename_i user htilde
      exact absurd ⟨hrelative, step, steps, hsteps, by rw [htilde]; rfl⟩ h
    · rfl
  · rfl

/-- Short names are not too long to be followed. -/
theorem walk_ne_nameTooLong {files : FileTree} {here : Files.Location} {steps : List String}
    (h : ∀ step ∈ steps, step.utf8ByteSize ≤ Files.nameLimit) :
    files.walk here steps ≠ .error .nameTooLong := by
  induction steps generalizing here with
  | nil => exact fun heq => nomatch heq
  | cons step steps ih =>
    obtain ⟨hstep, hsteps⟩ := List.forall_mem_cons.1 h
    unfold FileTree.walk
    split
    · exact fun heq => nomatch heq
    · exact fun heq => nomatch heq
    · rw [if_neg (Nat.not_lt.2 hstep)]
      exact ih hsteps

/-- A path can be asked about if it is not too long, nor a name in it. -/
theorem exists_ne_error {files : FileTree} {working : Files.Location} {file : Path}
    (hpath : file.text.utf8ByteSize < Files.pathLimit)
    (hnames : ∀ step ∈ file.steps, step.utf8ByteSize ≤ Files.nameLimit) (f : Files.Fault) :
    files.exists_ working file ≠ .error f := by
  have hentry : files.entry working file ≠ .error .nameTooLong := by
    unfold FileTree.entry FileTree.locate
    rw [if_neg (Nat.not_le.2 hpath)]
    cases hwalk : files.walk (if file.isAbsolute then [] else working) file.steps with
    | error c =>
      intro heq
      obtain rfl := Except.error.inj heq
      exact walk_ne_nameTooLong hnames hwalk
    | ok l =>
      simp only
      split
      · exact fun heq => nomatch heq
      · exact fun heq => nomatch heq
  unfold FileTree.exists_ FileTree.ask
  split
  · exact fun heq => nomatch heq
  · rename_i hlong
    exact absurd hlong hentry
  · exact fun heq => nomatch heq

/-- Nothing about the settings is out of the ordinary: no path begins with a tilde, none is too
long or holds a character that no path can hold, and the file is text with no more opening brackets
than the stack has room for and no runs of digits that are too long. -/
structure IsTame (s : Surroundings) (files : FileTree) (asked : Option Path) : Prop where
  path : ∀ p, file? s asked = some p → ¬ StartsAtHome p ∧ p.hasNul = false
  short : ∀ file, InForce s asked file → file.text.utf8ByteSize < Files.pathLimit
    ∧ ∀ step ∈ file.steps, step.utf8ByteSize ≤ Files.nameLimit
  text : ∀ file bytes, InForce s asked file → files.read s.workingFolder file = .ok bytes →
    ∃ cs, Text.Utf8.decode bytes = .ok cs
      ∧ (∀ n, Json.HasDigits n (normalizeNewlines cs) → n ≤ Json.digitLimit)
      ∧ (normalizeNewlines cs).countP Json.isOpening ≤ s.stack.calls
  workspace : ∀ folder members name, Holds s files asked folder members →
    Json.member? members workspaceKey = some (.string name) → ¬ StartsAtHome (.ofString name)
  variable_ : ∀ name, s.lookUp workspaceVariable = some name → ¬ StartsAtHome (.ofString name)

section Tame

variable {files : FileTree} {asked : Option Path}

/-- What is not out of the ordinary is read, or refused. -/
theorem IsTame.not_notRead (h : IsTame s files asked) (b : Breakdown) :
    ¬ NotRead s files asked b := by
  rintro (⟨hp, hhome⟩ | ⟨hp, hq, hnul⟩ | ⟨hfile, hexists⟩ | ⟨hfile, hread, hbytes⟩)
  · rw [expandHome_of_not_startsAtHome (h.path _ hp).1] at hhome
    exact nomatch hhome
  · rw [expandHome_of_not_startsAtHome (h.path _ hp).1] at hq
    obtain rfl := Except.ok.inj hq
    rw [(h.path _ hp).2] at hnul
    exact Bool.false_ne_true hnul
  · exact exists_ne_error (h.short _ hfile).1 (h.short _ hfile).2 _ hexists
  · obtain ⟨cs, hcs, -⟩ := h.text _ _ hfile hread
    rw [hcs] at hbytes
    exact nomatch hbytes

/-- The reader does not give up on what is not out of the ordinary. -/
theorem IsTame.not_givesUp (h : IsTame s files asked) {file : Path} {text : List Char}
    (htext : TextOf s files asked file text) (b : Breakdown) : ¬ GivesUp s text b := by
  obtain ⟨hfile, bytes, cs, hread, hcs, rfl⟩ := htext
  obtain ⟨cs', hcs', hdigits, hopenings⟩ := h.text _ _ hfile hread
  obtain rfl := Except.ok.inj (hcs.symm.trans hcs')
  rintro (hp | hp | hp)
  · obtain ⟨hlong, hrun⟩ := Json.digits_of_parse hp
    exact absurd (hdigits _ hrun) (Nat.not_le.2 hlong)
  · exact absurd hopenings (Nat.not_le.2 (Json.openings_of_parse (.inl hp)))
  · exact absurd hopenings (Nat.not_le.2 (Json.openings_of_parse (.inr hp)))

/-- **Where nothing is out of the ordinary, settings are validated or refused.** -/
theorem IsTame.not_unforeseen (h : IsTame s files asked) (b : Breakdown) :
    ¬ Unforeseen s files asked b := by
  intro hb
  cases hb with
  | notRead hb => exact h.not_notRead b hb
  | givesUp htext hb => exact h.not_givesUp htext b hb
  | workspace hholds _ hname _ hb =>
    rw [expandHome_of_not_startsAtHome (h.workspace _ _ _ hholds hname)] at hb
    exact nomatch hb
  | variable_ _ _ hname hb =>
    rw [expandHome_of_not_startsAtHome (h.variable_ _ hname)] at hb
    exact nomatch hb

end Tame

/-! ## A file that is not text -/

theorem decode_of_no_lead {byte : UInt8} (h : Text.Utf8.Lead.of? byte = none)
    (bytes : List UInt8) : Text.Utf8.decode (byte :: bytes) = .error ⟨0, 1, byte, .noLead⟩ := by
  simp only [Text.Utf8.decode, Text.Utf8.decodeFrom, h]

/-- Surroundings without variables. -/
def bareSurroundings : Surroundings :=
  ⟨["home"], [], none, [], .usual⟩

/-- A settings file of some bytes. -/
def bytesFile (bytes : List UInt8) : FileTree :=
  ⟨[(["home"], .folder), (["home", "c.json"], .file ⟨bytes, 0⟩)]⟩

theorem load_bytesFile {byte : UInt8} (h : Text.Utf8.Lead.of? byte = none) (bytes : List UInt8) :
    load bareSurroundings (bytesFile (byte :: bytes)) (some (.ofString "c.json"))
      = .error (.broken (.notText ⟨0, 1, byte, .noLead⟩)) :=
  load_of_error (base_of_notRead
    (.bytes ⟨.ofString "c.json", _, rfl, rfl, Path.hasNul_ofString (by decide), rfl⟩ rfl
      (decode_of_no_lead h bytes)))

/-- A settings file that is not text is not refused. -/
theorem not_validates_notText : ¬ ∀ (s : Surroundings) (files : FileTree) (asked : Option Path),
    Validates s files asked := by
  intro h
  have hload := load_bytesFile (show Text.Utf8.Lead.of? 0xFF = none by decide) []
  rcases (h bareSurroundings (bytesFile [0xFF]) (some (.ofString "c.json"))).answers with
    ⟨t, ht⟩ | ⟨f, hf⟩
  · rw [hload] at ht
    exact nomatch ht
  · rw [hload] at hf
    exact nomatch hf

end TurboBench.Shell.Settings
