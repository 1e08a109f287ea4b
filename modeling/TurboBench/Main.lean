import TurboBench.CommandLine.Run

/-!
The program: one command line, carried out on the disk.

What a command line can look at is known before it is carried out: the settings file, the files
that lie directly in the workspace, and the file that is named. These are read into a tree, the
command line is carried out on the tree, and what changed in the tree is written to the disk.
-/

namespace TurboBench.Main

open TurboBench.Files
open TurboBench.Shell
open TurboBench.CommandLine

/-- What lies at a location on the disk. -/
def entryAt (l : Location) : IO (Option Entry) := do
  let path := (← IO.currentDir) / (Path.ofLocation l).text
  if ← path.isDir then
    return some .folder
  if ← path.pathExists then
    let bytes ← IO.FS.readBinFile path
    let modified := (← path.metadata).modified.sec
    return some (.file ⟨bytes.toList, modified⟩)
  return none

/-- Enters what lies at a location on the disk into a tree, with the folders above it. -/
def enter (t : FileTree) (l : Location) : IO FileTree := do
  let mut t := t
  for n in List.range l.length do
    let place := l.take (n + 1)
    if let some e ← entryAt place then
      t := t.put place e
  return t

/-- Enters what lies directly in a folder on the disk into a tree. -/
def enterChildren (t : FileTree) (l : Location) : IO FileTree := do
  let mut t := t
  if (← entryAt l) == some .folder then
    for child in ← ((← IO.currentDir) / (Path.ofLocation l).text).readDir do
      t ← enter t (l ++ [child.fileName])
  return t

/-- What the program finds. -/
def surroundings : IO Surroundings := do
  let folder := (Path.ofString (← IO.currentDir).toString).location []
  let mut environment := []
  for name in ["HOME", Settings.fileVariable, Settings.workspaceVariable] do
    if let some value ← IO.getEnv name then
      environment := environment ++ [(name, value)]
  return ⟨folder, environment, none, [], .usual⟩

/-- The tree of what a command line can look at. -/
def treeFor (s : Surroundings) (i : Invocation) : IO FileTree := do
  let mut t ← enter .empty s.workingFolder
  if let .ok config := i.choices.config.path? then
    if let some file := Settings.file? s config then
      if let .ok p := s.expandHome file then
        t ← enter t (p.location s.workingFolder)
  if let .ok settings := settingsFor s t i.choices then
    let root := settings.workspace.location s.workingFolder
    t ← enterChildren (← enter t root) root
    if let some name := i.request.fileName? then
      t ← enter t ((Path.ofString name).location root)
  return t

/-- Writes to the disk what stands at a location. -/
def writeEntry (l : Location) (e : Entry) : IO Unit := do
  let path := (Path.ofLocation l).text
  match e with
  | .folder => IO.FS.createDirAll path
  | .file f => IO.FS.writeBinFile path ⟨f.bytes.toArray⟩

/-- Prints what a command line leaves to see. -/
def present (r : Report) : IO UInt32 := do
  IO.print (printed r.out)
  IO.eprint (printed r.err)
  return r.exit.toUInt32

end TurboBench.Main

open TurboBench TurboBench.Main in
/-- Carries out a command line on the disk. -/
def main (line : List String) : IO UInt32 := do
  match CommandLine.Invocation.read line with
  | .error i => present i.report
  | .ok i =>
    let s ← surroundings
    let before ← treeFor s i
    let effect := i.carryOut s 0 before
    for (l, e) in Files.FileTree.changes before effect.files do
      writeEntry l e
    match effect.report with
    | .ok r => present r
    | .error b =>
      IO.eprintln b.text
      return 1
