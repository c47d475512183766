import ContentTypes.Command.Run

/-!
# The program

Copies the files that a command may look at into a tree, lets the command work on the tree, and carries
out on the disk what has changed in it.
-/

open ContentTypes Command

namespace ContentTypes.Program

def readVariables : IO (List (String × String)) := do
  let bytes ← IO.FS.readBinFile "/proc/self/environ"
  let text := (String.fromUTF8? bytes).getD ""
  pure ((text.toList.splitOn '\x00').map fun entry =>
    let name := entry.takeWhile (· ≠ '=')
    (String.ofList name, String.ofList (entry.drop (name.length + 1))))

def findUserFile : IO Path := do
  let base ← match ← IO.getEnv "XDG_CONFIG_HOME" with
    | some directory =>
      if (⟨directory⟩ : Path).isAbsolute then pure (some (⟨directory⟩ : Path)) else pure none
    | none => pure none
  let home := (← IO.getEnv "HOME").getD ""
  let directory := base.getD ((⟨home⟩ : Path).join ⟨".config"⟩)
  pure (directory.join ⟨"schema-typegen/typegen.toml"⟩)

def readEntry? (path : Path) : IO (Option FileEntry) := do
  let directory ← IO.currentDir
  let place := directory / path.text
  if ← place.isDir then pure (some .directory)
  else if ← place.pathExists then pure (some (.file (← IO.FS.readBinFile place)))
  else pure none

def copyEntry (tree : FileTree) (path : Path) : FileEntry → FileTree
  | .directory => (tree.makeDirectories path).1
  | .file contents => (tree.writeBytes path contents).toOption.getD tree

def copyPath (tree : FileTree) (path : Path) : IO FileTree := do
  let mut tree := tree
  for length in [1:path.components.length + 1] do
    let onTheWay := Path.ofComponents (path.components.take length)
    if let some entry ← readEntry? onTheWay then tree := copyEntry tree onTheWay entry
  pure tree

/-- Copies what is at a path, and what lies at most `depth` levels below it. -/
def copyBelow (depth : Nat) (tree : FileTree) (path : Path) : IO FileTree := do
  let tree ← copyPath tree path
  match depth with
  | 0 => pure tree
  | depth + 1 =>
    let directory ← IO.currentDir
    let place := directory / path.text
    if ← place.isDir then
      (← place.readDir).toList.foldlM (fun tree entry =>
        copyBelow depth tree (path.join ⟨entry.fileName⟩)) tree
    else pure tree

def copyProject (tree : FileTree) (project : Project) : IO FileTree := do
  let tree ← copyBelow 1 tree (project.settings.apiDir project.root)
  let tree ← copyBelow 2 tree (project.settings.componentsDir project.root)
  let schemas := (project.entityNames tree).map project.entityPath
    ++ project.settings.includePaths project.root
  let tree ← schemas.foldlM copyPath tree
  (project.plan tree).files.foldlM (fun tree file => copyPath tree (project.target file)) tree

def copyFor (surroundings : Surroundings) (tree : FileTree) (invocation : Invocation) :
    IO FileTree := do
  let sources := invocation.sources surroundings
  let tree ← sources.places.foldlM copyPath tree
  match invocation.request with
  | .createSettings output => copyPath tree (invocation.root.join output)
  | _ =>
    match Settings.load tree sources with
    | .error _ => pure tree
    | .ok settings => copyProject tree ⟨invocation.root, settings⟩

def startTree : IO FileTree := do
  let path : Path := ⟨(← IO.currentDir).toString⟩
  let tree := (FileTree.root.makeDirectories path).1
  pure ((tree.changeDirectory path).toOption.getD tree)

def applyChange (path : Path) : FileEntry → IO Unit
  | .directory => IO.FS.createDirAll path.text
  | .file contents => IO.FS.writeBinFile path.text contents

end ContentTypes.Program

open ContentTypes.Program in
def main (arguments : List String) : IO UInt32 := do
  let surroundings : Surroundings := ⟨← findUserFile, ← readVariables⟩
  let start ← startTree
  let tree ← match Invocation.ofArguments arguments with
    | .ok invocation => copyFor surroundings start invocation
    | .error _ => pure start
  let (after, outcome) := Command.run surroundings tree arguments
  for (path, entry) in after.changesSince tree do
    applyChange path entry
  IO.print outcome.output
  IO.eprint outcome.errors
  pure (UInt32.ofNat outcome.code)
