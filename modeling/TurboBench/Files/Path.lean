import TurboBench.Text.Blank

/-!
Paths and locations.

A path is what a user writes: steps between slashes, starting at the root or at the folder one
works in. Empty steps and single dots mean nothing and are dropped when a path is read; a double
dot is kept, because what it means depends on where the path starts. Exactly two slashes in front
are a start of their own, which systems are free to interpret, so they are kept apart from one
slash and from three.

A location is where a path leads: the names of the folders from the root down. It holds no dots,
so a location lies below another one exactly when it is a proper extension of it.
-/

namespace TurboBench.Files

open TurboBench.Text (pieces)

/-! ## Locations -/

/-- The names that lead from the root to a file or folder. -/
abbrev Location := List String

namespace Location

/-- Where one step leads. A double dot leads to the folder above, and at the root nowhere. -/
def follow (here : Location) (step : String) : Location :=
  if step = ".." then here.dropLast else here ++ [step]

/-- Whether a location lies strictly below a folder. -/
def isBelow (folder location : Location) : Bool :=
  folder.isPrefixOf location && folder != location

theorem isBelow_iff (folder location : Location) :
    isBelow folder location = true ↔ folder <+: location ∧ folder ≠ location := by
  simp [isBelow]

/-- Nothing lies below itself. -/
@[simp] theorem isBelow_self (location : Location) : isBelow location location = false := by
  simp [isBelow]

end Location

/-! ## Paths -/

/-- Where a path starts. -/
inductive Anchor
  | workingFolder
  | root
  | doubleRoot
  deriving DecidableEq, Repr

/-- A path: its start and its steps. -/
structure Path where
  anchor : Anchor
  steps : List String
  deriving DecidableEq, Repr

namespace Path

/-- The start that a text announces by its leading slashes. -/
def anchorOf : List Char → Anchor
  | '/' :: '/' :: '/' :: _ => .root
  | '/' :: '/' :: _ => .doubleRoot
  | '/' :: _ => .root
  | _ => .workingFolder

/-- Whether a step leads anywhere. -/
def isStep (s : String) : Bool :=
  s != "" && s != "."

/-- Reads a path. -/
def ofString (s : String) : Path :=
  ⟨anchorOf s.toList, ((pieces (· == '/') s.toList).map String.ofList).filter isStep⟩

/-- The text of a path. A path without steps that starts where one is, is a single dot. -/
def text (p : Path) : String :=
  let steps := "/".intercalate p.steps
  match p.anchor with
  | .workingFolder => if p.steps.isEmpty then "." else steps
  | .root => "/" ++ steps
  | .doubleRoot => "//" ++ steps

/-- Whether a path starts at the root. -/
def isAbsolute (p : Path) : Bool :=
  p.anchor != .workingFolder

/-- A path continued by another one. A path from the root starts anew. -/
def join (p q : Path) : Path :=
  if q.isAbsolute then q else { p with steps := p.steps ++ q.steps }

/-- A path continued by one step. -/
def child (p : Path) (step : String) : Path :=
  { p with steps := p.steps ++ [step] }

/-- A path without its last step. -/
def parent (p : Path) : Path :=
  { p with steps := p.steps.dropLast }

/-- Whether a character that no path can hold stands in a path. -/
def hasNul (p : Path) : Bool :=
  p.steps.any fun s => s.contains '\x00'

/-- Where a path leads, for a given folder to work in. -/
def location (p : Path) (workingFolder : Location) : Location :=
  p.steps.foldl Location.follow (if p.isAbsolute then [] else workingFolder)

/-- The path from the root to a location. -/
def ofLocation (l : Location) : Path :=
  ⟨.root, l⟩

/-- No step of a path that was read is empty or a single dot. -/
theorem isStep_of_mem_ofString {s step : String} (h : step ∈ (ofString s).steps) :
    isStep step = true :=
  (List.mem_filter.1 h).2

/-- A path from the root leads to one place, whatever the folder to work in is. -/
theorem location_of_isAbsolute {p : Path} (h : p.isAbsolute = true) (l m : Location) :
    p.location l = p.location m := by
  simp [location, h]

/-- Following a continued path is following both parts. -/
theorem location_join {p q : Path} (h : q.isAbsolute = false) (l : Location) :
    (p.join q).location l = q.location (p.location l) := by
  have hp : ({ p with steps := p.steps ++ q.steps } : Path).isAbsolute = p.isAbsolute := rfl
  simp [location, join, h, hp, List.foldl_append]

/-- Only a path with steps has a shorter parent. -/
theorem length_parent {p : Path} (h : p.steps ≠ []) : p.parent.steps.length < p.steps.length := by
  have := List.length_pos_iff.2 h
  simp only [parent, List.length_dropLast]
  omega

end Path

end TurboBench.Files
