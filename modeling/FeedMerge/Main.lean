import FeedMerge.Clock
import FeedMerge.CommandLine

/-!
# The program

The command line decides on a file tree alone. Here the part of the file system that a run may read
or write is looked up first, and what the run answers is carried out afterwards: new directories are
made, changed files are staged and moved into place, and the log goes to the error stream.
-/

namespace FeedMerge.Program

/-- The absolute path of a place. -/
def systemPath (place : Place) : String := "/" ++ "/".intercalate place

/-- The tree with what the file system has at a place. -/
def look (tree : FileTree) (place : Place) : IO FileTree := do
  match ← (IO.FS.realPath (systemPath place)).toBaseIO with
  | .error _ => return tree
  | .ok path =>
    if ← path.isDir then return tree.plant place .directory
    else return tree.plant place (.file (← IO.FS.readBinFile path))

/-- The tree with what the file system has on the way of some paths. -/
def lookAlong (tree : FileTree) (paths : List Path) : IO FileTree :=
  (paths.flatMap tree.placesOn).foldlM look tree

/-- Brings the file system from one tree to another. -/
def carryOut (before after : FileTree) : IO Unit := do
  for (place, node) in after.nodes do
    if node.isDirectory && !before.isDirectoryAt place then
      IO.FS.createDirAll (systemPath place)
  for (place, content) in before.changedFiles after do
    let name := place.getLast?.getD ""
    let staged := place.dropLast ++ [FileTree.stagedName name before.freshLength]
    IO.FS.writeBinFile (systemPath staged) content
    IO.FS.rename (systemPath staged) (systemPath place)

end FeedMerge.Program

open FeedMerge in
/-- The program on its arguments. -/
def main (argv : List String) : IO UInt32 := do
  let here ← IO.currentDir
  let bare := FileTree.withWorkingDirectory (Path.ofText here.toString).names
  let configured ← Program.lookAlong bare (CommandLine.paths bare argv)
  let tree ← Program.lookAlong configured (CommandLine.paths configured argv)
  let now ← Program.readClock
  match CommandLine.execute now tree argv with
  | .error exit =>
    IO.print exit.output
    IO.eprint exit.errors
    return UInt32.ofNat exit.code
  | .ok outcome =>
    outcome.logs.forM fun line => IO.eprintln (line.level.name ++ " " ++ line.text)
    Program.carryOut tree outcome.tree
    match outcome.ending with
    | .exited code => return UInt32.ofNat code
    | .uncaught error =>
      IO.eprintln error.message
      return 1
