import TurboBench.Files.Path

/-!
Trees of files and folders.

A tree is seen through one question: what stands at a location. The root is always a folder;
everything else is there because it was put there. Putting something at one location and removing
what lies at and below one are the only changes, and each changes the answer there and nowhere
else.

A tree knows neither permissions nor owners, neither capacity nor quotas, and no symbolic links: who
asks makes no difference, there is always room, and a location has one way to it.
-/

namespace TurboBench.Files

/-- A file: its bytes, and when it was last changed, in seconds since 1970. -/
structure File where
  bytes : List UInt8
  modified : Int
  deriving DecidableEq, Repr

/-- What can stand at a location. -/
inductive Entry
  | file (f : File)
  | folder
  deriving DecidableEq, Repr

/-- A tree of files and folders: what was put where, with one entry for a location. -/
structure FileTree where
  entries : List (Location × Entry)
  deriving DecidableEq, Repr

namespace FileTree

/-- The tree that has a root and nothing else. -/
def empty : FileTree := ⟨[]⟩

/-- What stands at a location. -/
def find? (t : FileTree) (l : Location) : Option Entry :=
  if l = [] then some .folder else t.entries.lookup l

/-- The tree with an entry at a location. -/
def put (t : FileTree) (l : Location) (e : Entry) : FileTree :=
  ⟨(l, e) :: t.entries.filter (·.1 != l)⟩

/-- The tree without what stands at a location and below it. -/
def remove (t : FileTree) (l : Location) : FileTree :=
  ⟨t.entries.filter (!l.isPrefixOf ·.1)⟩

/-- The tree with a folder at a location and at every location above it. -/
def withFolders (t : FileTree) (l : Location) : FileTree :=
  ((List.range l.length).map fun n => l.take (n + 1)).foldl
    (fun t l => if (t.find? l).isNone then t.put l .folder else t) t

/-- The names of what stands directly in a folder. -/
def names (t : FileTree) (folder : Location) : List String :=
  t.entries.filterMap fun (l, _) =>
    if l.dropLast = folder then l.getLast? else none

/-- The tree with every file marked as changed at one moment. -/
def touch (t : FileTree) (moment : Int) : FileTree :=
  ⟨t.entries.map fun
    | (l, .file f) => (l, .file { f with modified := moment })
    | (l, .folder) => (l, .folder)⟩

/-- What stands in one tree and not in the same way in an earlier one, a folder before what is in
it. -/
def changes (before after : FileTree) : List (Location × Entry) :=
  (after.entries.filter fun (l, e) => before.find? l != some e).mergeSort
    fun a b => a.1.length ≤ b.1.length

/-! ## What stands where after a change -/

theorem find?_root (t : FileTree) : t.find? [] = some .folder := by
  simp [find?]

theorem find?_of_ne_root (t : FileTree) {l : Location} (h : l ≠ []) :
    t.find? l = t.entries.lookup l := by
  simp [find?, h]

/-- Filtering by the location keeps the answers at the locations that stay. -/
theorem lookup_filter (entries : List (Location × Entry)) (p : Location → Bool) (l : Location)
    (h : p l = true) : (entries.filter (p ·.1)).lookup l = entries.lookup l := by
  induction entries with
  | nil => rfl
  | cons e entries ih =>
    obtain ⟨k, v⟩ := e
    by_cases hk : p k = true
    · simp only [List.filter_cons, hk, if_true, List.lookup_cons, ih]
    · have hlk : l ≠ k := by
        rintro rfl
        exact hk h
      have : (l == k) = false := by simpa using hlk
      simpa only [List.filter_cons, hk, List.lookup_cons, this, Bool.false_eq_true, if_false]
        using ih

/-- What was put at a location stands there. -/
theorem find?_put_self (t : FileTree) {l : Location} (h : l ≠ []) (e : Entry) :
    (t.put l e).find? l = some e := by
  simp [find?, put, h]

/-- Putting something at one location changes no other. -/
theorem find?_put_of_ne (t : FileTree) {l m : Location} (h : m ≠ l) (e : Entry) :
    (t.put l e).find? m = t.find? m := by
  unfold find? put
  split
  · rfl
  · have hml : (m == l) = false := by simpa using h
    simp only [List.lookup_cons, hml]
    exact lookup_filter t.entries (· != l) m (by simpa using h)

theorem mem_changes {before after : FileTree} {l : Location} {e : Entry} :
    (l, e) ∈ changes before after ↔ (l, e) ∈ after.entries ∧ before.find? l ≠ some e := by
  simp [changes]

/-- Nothing is left at a location that was removed, nor below it. -/
theorem find?_remove_of_isPrefixOf (t : FileTree) {l m : Location} (hm : m ≠ [])
    (h : l.isPrefixOf m = true) : (t.remove l).find? m = none := by
  rw [find?_of_ne_root _ hm, List.lookup_eq_none_iff]
  intro e he
  have hle : l.isPrefixOf e.1 = false := by simpa using (List.mem_filter.1 he).2
  have : m ≠ e.1 := by
    rintro rfl
    rw [h] at hle
    exact Bool.noConfusion hle
  simpa using this

/-- Removing changes nothing elsewhere. -/
theorem find?_remove_of_not_isPrefixOf (t : FileTree) {l m : Location}
    (h : l.isPrefixOf m = false) : (t.remove l).find? m = t.find? m := by
  unfold find? remove
  split
  · rfl
  · exact lookup_filter t.entries (fun k => !l.isPrefixOf k) m (by simp [h])

end FileTree

end TurboBench.Files
