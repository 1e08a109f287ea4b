import TurboBench.Files.Tree
import TurboBench.Text.Lines
import TurboBench.Text.Quoted
import TurboBench.Text.Utf8

/-!
Access to a tree of files by path, and the faults that it can end in.

A path is followed step by step: each step but the last has to lead to a folder, and a name must
not be longer than `nameLimit` bytes, nor a whole path as long as `pathLimit`. Steps are checked
in order, so of two faults the one further up is reported. A fault shows the path that was asked
for, not the location that it leads to.

Every operation that changes a tree either succeeds or leaves the tree as it was, with one
exception: making a folder and the folders above it keeps those that were made before a fault.

The causes of faults are those that a tree can know of (`Cause`). What it does not know of is left
out here as well: an access that is not permitted, a device that is full or read only, a link that
leads back to itself. With these an access could fail where it succeeds here, and writing, which
empties a file before it fills it, could lose what was in it.
-/

namespace TurboBench.Files

open TurboBench.Text (quoted normalizeNewlines)

/-! ## Faults -/

/-- Why an access fails. -/
inductive Cause
  | missing
  | exists_
  | notFolder
  | isFolder
  | nameTooLong
  deriving DecidableEq, Repr

/-- The number of a cause. -/
def Cause.code : Cause → Nat
  | .missing => 2
  | .exists_ => 17
  | .notFolder => 20
  | .isFolder => 21
  | .nameTooLong => 36

/-- The wording of a cause. -/
def Cause.text : Cause → String
  | .missing => "No such file or directory"
  | .exists_ => "File exists"
  | .notFolder => "Not a directory"
  | .isFolder => "Is a directory"
  | .nameTooLong => "File name too long"

/-- A failed access: why it failed, and for which path. -/
structure Fault where
  cause : Cause
  path : Path
  deriving DecidableEq, Repr

/-- The wording of a fault. -/
def Fault.text (f : Fault) : String :=
  s!"[Errno {f.cause.code}] {f.cause.text}: {quoted f.path.text}"

/-- Why a file cannot be read as text. -/
inductive ReadFlaw
  | fault (f : Fault)
  | notText (f : Text.Utf8.Flaw)
  deriving DecidableEq, Repr

/-- The wording of what keeps a file from being read. -/
def ReadFlaw.text : ReadFlaw → String
  | .fault f => f.text
  | .notText f => f.text

/-! ## Following paths -/

/-- The most bytes that a name can have. -/
def nameLimit : Nat := 255

/-- The number of bytes that a path must stay below. -/
def pathLimit : Nat := 4096

namespace FileTree

/-- The location that steps lead to from a location. The last step may lead to nothing. -/
def walk (t : FileTree) (here : Location) : List String → Except Cause Location
  | [] => .ok here
  | step :: steps =>
    match t.find? here with
    | none => .error .missing
    | some (.file _) => .error .notFolder
    | some .folder =>
      if nameLimit < step.utf8ByteSize then .error .nameTooLong
      else t.walk (Location.follow here step) steps

/-- The location that a path leads to from the folder one works in. -/
def locate (t : FileTree) (folder : Location) (p : Path) : Except Cause Location :=
  if pathLimit ≤ p.text.utf8ByteSize then .error .nameTooLong
  else t.walk (if p.isAbsolute then [] else folder) p.steps

/-- What stands where a path leads. -/
def entry (t : FileTree) (folder : Location) (p : Path) : Except Cause Entry :=
  match t.locate folder p with
  | .error c => .error c
  | .ok l =>
    match t.find? l with
    | some e => .ok e
    | none => .error .missing

/-- A location that was walked to is the one that the steps name. -/
theorem eq_of_walk {t : FileTree} {here l : Location} {steps : List String}
    (h : t.walk here steps = .ok l) : l = steps.foldl Location.follow here := by
  induction steps generalizing here with
  | nil => simpa [walk] using h.symm
  | cons step steps ih =>
    unfold walk at h
    split at h
    · cases h
    · cases h
    · split at h
      · cases h
      · simpa using ih h

/-- Where a path leads does not depend on the tree, only whether it leads there. -/
theorem eq_location_of_locate {t : FileTree} {folder l : Location} {p : Path}
    (h : t.locate folder p = .ok l) : l = p.location folder := by
  unfold locate at h
  split at h
  · cases h
  · exact eq_of_walk h

/-! ## Questions -/

/-- The answer to a question about an entry. A path that leads nowhere makes it `false`; a name
that is too long is a fault even here. -/
def ask (t : FileTree) (folder : Location) (p : Path) (q : Entry → Bool) : Except Fault Bool :=
  match t.entry folder p with
  | .ok e => .ok (q e)
  | .error .nameTooLong => .error ⟨.nameTooLong, p⟩
  | .error _ => .ok false

/-- Whether a path leads to anything. -/
def exists_ (t : FileTree) (folder : Location) (p : Path) : Except Fault Bool :=
  t.ask folder p fun _ => true

/-- Whether a path leads to a file. -/
def isFile (t : FileTree) (folder : Location) (p : Path) : Except Fault Bool :=
  t.ask folder p fun
    | .file _ => true
    | .folder => false

/-- Whether a path leads to a folder. -/
def isFolder (t : FileTree) (folder : Location) (p : Path) : Except Fault Bool :=
  t.ask folder p fun
    | .file _ => false
    | .folder => true

/-- The bytes of a file. -/
def read (t : FileTree) (folder : Location) (p : Path) : Except Fault (List UInt8) :=
  match t.entry folder p with
  | .ok (.file f) => .ok f.bytes
  | .ok .folder => .error ⟨.isFolder, p⟩
  | .error c => .error ⟨c, p⟩

/-- The text of a file, with a line feed for every line end. -/
def readText (t : FileTree) (folder : Location) (p : Path) : Except ReadFlaw (List Char) :=
  match t.read folder p with
  | .error f => .error (.fault f)
  | .ok bytes =>
    match Text.Utf8.decode bytes with
    | .error f => .error (.notText f)
    | .ok cs => .ok (normalizeNewlines cs)

/-- The names in a folder, in ascending order. -/
def list (t : FileTree) (folder : Location) (p : Path) : Except Fault (List String) :=
  match t.locate folder p with
  | .error c => .error ⟨c, p⟩
  | .ok l =>
    match t.find? l with
    | none => .error ⟨.missing, p⟩
    | some (.file _) => .error ⟨.notFolder, p⟩
    | some .folder => .ok ((t.names l).mergeSort fun a b => decide (a ≤ b))

/-! ## Changes -/

/-- Writes a file, which may be there already. -/
def write (t : FileTree) (folder : Location) (p : Path) (f : File) : Except Fault FileTree :=
  match t.locate folder p with
  | .error c => .error ⟨c, p⟩
  | .ok l =>
    match t.find? l with
    | some .folder => .error ⟨.isFolder, p⟩
    | _ => .ok (t.put l (.file f))

/-- Makes a folder where nothing is yet. -/
def makeFolder (t : FileTree) (folder : Location) (p : Path) : Except Cause FileTree :=
  match t.locate folder p with
  | .error c => .error c
  | .ok l =>
    match t.find? l with
    | none => .ok (t.put l .folder)
    | some _ => .error .exists_

/-- What comes of a folder that could not be made: nothing is wrong if it was there before. -/
def settle (t : FileTree) (folder : Location) (p : Path) (c : Cause) : Option Fault :=
  match t.isFolder folder p with
  | .ok true => none
  | .ok false => some ⟨c, p⟩
  | .error f => some f

/-- Makes a folder, and the folders above it, where they are not there yet. What was made before
a fault stays. -/
def makeFolders (t : FileTree) (folder : Location) (p : Path) : FileTree × Option Fault :=
  match t.makeFolder folder p with
  | .ok t => (t, none)
  | .error .missing =>
    if _h : p.steps = [] then (t, some ⟨.missing, p⟩)
    else
      -- The folder above is made first, and then this one is tried again.
      match t.makeFolders folder p.parent with
      | (t, some f) => (t, some f)
      | (t, none) =>
        match t.makeFolder folder p with
        | .ok t => (t, none)
        | .error .missing => (t, some ⟨.missing, p⟩)
        | .error c => (t, t.settle folder p c)
  | .error c => (t, t.settle folder p c)
  termination_by p.steps.length
  decreasing_by exact Path.length_parent _h

/-- How many folders above the one that is asked for are looked at before one is found that can be
made or that is there. Nothing is made on the way up. -/
def ascent (t : FileTree) (folder : Location) (p : Path) : Nat :=
  match t.makeFolder folder p with
  | .error .missing => if _h : p.steps = [] then 0 else t.ascent folder p.parent + 1
  | _ => 0
  termination_by p.steps.length
  decreasing_by exact Path.length_parent _h

/-- Makes a folder and the folders above it on a stack with room for so many calls inside each
other. Each folder that is looked at on the way up takes one, so the stack is exhausted before
anything is made, if it is at all. -/
def makeFoldersWithin (t : FileTree) (calls : Nat) (folder : Location) (p : Path) :
    Option (FileTree × Option Fault) :=
  if t.ascent folder p ≤ calls then some (t.makeFolders folder p) else none

/-- What is made on a stack is what is made with room without end. -/
theorem makeFoldersWithin_eq_some_iff {calls : Nat} {t : FileTree} {folder : Location} {p : Path}
    {made : FileTree × Option Fault} :
    t.makeFoldersWithin calls folder p = some made
      ↔ made = t.makeFolders folder p ∧ t.ascent folder p ≤ calls := by
  unfold makeFoldersWithin
  split
  · rename_i h
    exact ⟨fun hmade => ⟨(Option.some.inj hmade).symm, h⟩, fun hmade => by rw [hmade.1]⟩
  · rename_i h
    exact ⟨fun hmade => (nomatch hmade), fun hmade => absurd hmade.2 h⟩

/-- A file that was written is the only change. -/
theorem find?_of_write {t u : FileTree} {folder m : Location} {p : Path} {f : File}
    (h : t.write folder p f = .ok u) (hm : m ≠ p.location folder) : u.find? m = t.find? m := by
  unfold write at h
  split at h
  · cases h
  · rename_i l hl
    rw [← eq_location_of_locate hl] at hm
    split at h
    · cases h
    · cases h
      exact find?_put_of_ne t hm _

/-- What was written is there afterwards. -/
theorem find?_of_write_self {t u : FileTree} {folder : Location} {p : Path} {f : File}
    (h : t.write folder p f = .ok u) : u.find? (p.location folder) = some (.file f) := by
  unfold write at h
  split at h
  · cases h
  · rename_i l hl
    have hloc := eq_location_of_locate hl
    split at h
    · cases h
    · rename_i hne
      cases h
      rw [← hloc]
      refine find?_put_self t ?_ _
      rintro rfl
      exact hne (find?_root t)

end FileTree

end TurboBench.Files
