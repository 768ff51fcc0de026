import FeedMerge.Files.Path
import FeedMerge.Text.Quoted
import FeedMerge.Text.Utf8

/-!
# Files

A file tree holds the files and directories that an operation can see, each at its place: the list
of names from the top. Relative paths start at the working directory. A path is followed name by
name, and every name but the last must be that of a directory, so a double dot is only good behind a
directory that exists. Names and the texts of paths have a greatest length in bytes.

A file is written by `replace`: the directories on the way are made, the text is staged piece by
piece in a file beside the destination, and the staged file is renamed. Each step may fail, the
staging when a piece of the text cannot be encoded. If anything fails the staged file is gone again,
and only directories may have been added.
-/

namespace FeedMerge

/-- The names that lead from the top to a file or directory. -/
abbrev Place := List String

inductive Node where
  | directory
  | file (content : ByteArray)

def Node.isDirectory : Node → Bool
  | directory => true
  | file _ => false

/-- What a file system may answer instead of doing what it is asked to. -/
inductive FileErrorKind where
  | notFound
  | busy
  | alreadyExists
  | notDirectory
  | isDirectory
  | nameTooLong
  deriving DecidableEq, Repr

namespace FileErrorKind

def number : FileErrorKind → Nat
  | notFound => 2
  | busy => 16
  | alreadyExists => 17
  | notDirectory => 20
  | isDirectory => 21
  | nameTooLong => 36

def text : FileErrorKind → String
  | notFound => "No such file or directory"
  | busy => "Device or resource busy"
  | alreadyExists => "File exists"
  | notDirectory => "Not a directory"
  | isDirectory => "Is a directory"
  | nameTooLong => "File name too long"

end FileErrorKind

/-- An error of the file system, with the path in question and the one it was to be renamed to; or a
text that cannot be encoded, be it a path or what is to be written; or a path with a NUL. -/
inductive FileError where
  | system (kind : FileErrorKind) (path : String) (target : Option String)
  | unencodable (fault : Text.Utf8.EncodingFault)
  | embeddedNul
  deriving DecidableEq, Repr

def FileError.message : FileError → String
  | system kind path target =>
    let goal := match target with
      | none => ""
      | some target => " -> " ++ Text.quote target
    s!"[Errno {kind.number}] {kind.text}: {Text.quote path}{goal}"
  | unencodable fault => fault.message
  | embeddedNul => "embedded null byte"

structure FileTree where
  nodes : List (Place × Node)
  workingDirectory : Place

namespace FileTree

/-- The file or directory at a place; the top is always a directory. -/
def node? (tree : FileTree) (place : Place) : Option Node :=
  if place = [] then some .directory else tree.nodes.lookup place

/-- The content of the file at a place. -/
def file? (tree : FileTree) (place : Place) : Option ByteArray :=
  match tree.node? place with
  | some (.file content) => some content
  | _ => none

/-- Whether there is a directory at a place. -/
def isDirectoryAt (tree : FileTree) (place : Place) : Bool :=
  (tree.node? place).any Node.isDirectory

/-- The tree without what is at a place. -/
def remove (tree : FileTree) (place : Place) : FileTree :=
  { tree with nodes := tree.nodes.filter fun (other, _) => other ≠ place }

/-- The tree with a node at a place, instead of what may be there. -/
def put (tree : FileTree) (place : Place) (node : Node) : FileTree :=
  { tree with nodes := (place, node) :: (tree.remove place).nodes }

/-! ### Following paths -/

/-- The place that a name leads to from a directory; there is nothing above the top. -/
def enter (place : Place) (name : String) : Place :=
  if name = ".." then place.dropLast else place ++ [name]

/-- Whether a name has too many bytes for any directory. -/
def isLongName (name : String) : Bool := 255 < name.utf8ByteSize

/-- Whether the text of a path has too many bytes for any file system. -/
def isLongPath (text : String) : Bool := 4096 ≤ text.utf8ByteSize

/-- The place that some names lead to from a directory. What is there does not matter, but on the
way there must be directories. -/
def follow (tree : FileTree) (place : Place) : List String → Except FileErrorKind Place
  | [] => .ok place
  | name :: names =>
    if isLongName name then .error .nameTooLong
    else if names.isEmpty then .ok (enter place name)
    else
      match tree.node? (enter place name) with
      | some .directory => follow tree (enter place name) names
      | some (.file _) => .error .notDirectory
      | none => .error .notFound

/-- The place that a path leads to. -/
def locate (tree : FileTree) (path : Path) : Except FileErrorKind Place :=
  if isLongPath path.text then .error .nameTooLong
  else tree.follow (if path.isAbsolute then [] else tree.workingDirectory) path.names

/-- The places that a path passes, with the one that it leads to at the end, whatever may be there.
-/
def placesOn (tree : FileTree) (path : Path) : List Place :=
  let start : Place := if path.isAbsolute then [] else tree.workingDirectory
  (List.range path.names.length).map fun n => (path.names.take (n + 1)).foldl enter start

/-- An error of the file system about one path. -/
def failure (kind : FileErrorKind) (path : Path) : FileError := .system kind path.text none

/-- The content of the file that a path leads to. -/
def content (tree : FileTree) (path : Path) : Except FileErrorKind ByteArray :=
  match tree.locate path with
  | .error kind => .error kind
  | .ok place =>
    match tree.node? place with
    | some (.file content) => .ok content
    | some .directory => .error .isDirectory
    | none => .error .notFound

/-- The error for the text of a path that cannot be handed to a file system. -/
def refusal (text : String) : FileError :=
  match Text.Utf8.encodingFault? Text.isRawByte text.toList with
  | some fault => .unencodable fault
  | none => .embeddedNul

/-- The content of the file that a path leads to, where messages show the path. -/
def read (tree : FileTree) (path : Path) : Except FileError ByteArray :=
  if path.isNameable then (tree.content path).mapError (failure · path)
  else .error (refusal path.text)

/-- The content of the file that a text names. It must name something, and a file is not named like
a directory. -/
def contentNamed (tree : FileTree) (text : String) : Except FileErrorKind ByteArray :=
  if text = "" then .error .notFound
  else if isLongPath text then .error .nameTooLong
  else
    match tree.content (.ofText text) with
    | .error kind => .error kind
    | .ok content => if Path.namesDirectory text then .error .notDirectory else .ok content

/-- The content of the file that a text names, where messages show the text as it is given. -/
def readNamed (tree : FileTree) (text : String) : Except FileError ByteArray :=
  if (Path.ofText text).isNameable then
    (tree.contentNamed text).mapError fun kind => .system kind text none
  else .error (refusal text)

/-! ### Making directories -/

/-- Whether a path leads to a directory. -/
def isDirectory (tree : FileTree) (path : Path) : Bool :=
  match tree.locate path with
  | .ok place => tree.isDirectoryAt place
  | .error _ => false

/-- The tree with one more directory. -/
def makeDirectory (tree : FileTree) (path : Path) : Except FileErrorKind FileTree :=
  match tree.locate path with
  | .error kind => .error kind
  | .ok place =>
    match tree.node? place with
    | some _ => .error .alreadyExists
    | none => .ok (tree.put place .directory)

/-- One more directory, where it is no error that the directory is there already. -/
def ensureDirectory (tree : FileTree) (path : Path) : Except FileErrorKind FileTree :=
  match tree.makeDirectory path with
  | .ok tree => .ok tree
  | .error kind => if kind ≠ .notFound && tree.isDirectory path then .ok tree else .error kind

/-- The directory of a path with all directories above it, made from the first that is missing. The
names of the path come last one first. -/
def ensureDirectories (tree : FileTree) (root : PathRoot) :
    List String → FileTree × Except FileError Unit
  | [] =>
    match tree.ensureDirectory ⟨root, []⟩ with
    | .ok tree => (tree, .ok ())
    | .error kind => (tree, .error (failure kind ⟨root, []⟩))
  | name :: above =>
    let path : Path := ⟨root, (name :: above).reverse⟩
    match tree.ensureDirectory path with
    | .ok tree => (tree, .ok ())
    | .error .notFound =>
      match tree.ensureDirectories root above with
      | (tree, .error error) => (tree, .error error)
      | (tree, .ok ()) =>
        match tree.ensureDirectory path with
        | .ok tree => (tree, .ok ())
        | .error kind => (tree, .error (failure kind path))
    | .error kind => (tree, .error (failure kind path))

/-! ### Replacing a file -/

/-- The name of a staged file, with a part of its own of the given length. -/
def stagedName (name : String) (length : Nat) : String :=
  "." ++ name ++ "." ++ .ofList (List.replicate length 'X') ++ ".tmp"

/-- How messages show the name of a staged file, whatever the length of its own part. -/
def shownStagedName (name : String) : String := stagedName name 8

/-- A length that makes a staged name longer than any name in the tree. -/
def freshLength (tree : FileTree) : Nat :=
  let longest := (tree.nodes.map fun (place, _) => (place.getLast?.getD "").length).foldl max 0
  max 8 (longest + 1)

/-- A place for a staged file in a directory, at which there is nothing yet. -/
def stagedPlace (tree : FileTree) (directory : Place) (name : String) : Place :=
  directory ++ [stagedName name tree.freshLength]

/-- The absolute text of a place. -/
def absoluteText (place : Place) : String := "/" ++ "/".intercalate place

/-- The text of a place: relative if it is below the working directory. -/
def placeText (tree : FileTree) (place : Place) : String :=
  if tree.workingDirectory.isPrefixOf place then
    "/".intercalate (place.drop tree.workingDirectory.length)
  else absoluteText place

/-- The tree after a file was renamed to the path, where it replaces a file but no directory. -/
def rename (tree : FileTree) (source : Place) (content : ByteArray) (path : Path) :
    Except FileErrorKind FileTree :=
  match path.names.getLast? with
  | none => .error .busy
  | some ".." => .error .busy
  | some _ =>
    match tree.locate path with
    | .error kind => .error kind
    | .ok place =>
      match tree.node? place with
      | some .directory => .error .isDirectory
      | _ => .ok ((tree.remove source).put place (.file content))

/-- Some pieces of text staged in a directory that is there, and then moved to the path. -/
def replaceIn (tree : FileTree) (directory : Place) (path : Path) (pieces : List (List Char)) :
    FileTree × Except FileError Unit :=
  let name := shownStagedName path.fileName
  let shown := tree.placeText (directory ++ [name])
  let full := absoluteText (directory ++ [name])
  if !path.isNameable then (tree, .error (refusal full))
  else if isLongName name || isLongPath full then (tree, .error (.system .nameTooLong shown none))
  else
    let staged := tree.stagedPlace directory path.fileName
    let (content, fault) := Text.Utf8.encode pieces
    let withStaged := tree.put staged (.file content)
    match fault with
    | some fault => (withStaged.remove staged, .error (.unencodable fault))
    | none =>
      match withStaged.rename staged content path with
      | .ok tree => (tree, .ok ())
      | .error kind => (withStaged.remove staged, .error (.system kind shown (some path.text)))

/-- The tree with a text, given in pieces, in the file that the path leads to, or without any other
file than before. -/
def replace (tree : FileTree) (path : Path) (pieces : List (List Char)) :
    FileTree × Except FileError Unit :=
  let directory := path.parent
  if !directory.isNameable then (tree, .error (refusal directory.text))
  else
    match tree.ensureDirectories directory.root directory.names.reverse with
    | (tree, .error error) => (tree, .error error)
    | (tree, .ok ()) =>
      match tree.locate directory with
      | .error kind => (tree, .error (failure kind directory))
      | .ok place => tree.replaceIn place path pieces

/-! ### Whole trees -/

/-- The directories above a place, put in where they are missing. -/
def plantAbove (tree : FileTree) (place : Place) : FileTree :=
  let plantOne (tree : FileTree) (n : Nat) :=
    if (tree.node? (place.take n)).isSome then tree else tree.put (place.take n) .directory
  (List.range place.length).foldl plantOne tree

/-- The tree with a node at a place and directories above it. -/
def plant (tree : FileTree) (place : Place) (node : Node) : FileTree :=
  (tree.plantAbove place).put place node

/-- A tree of an empty working directory. -/
def withWorkingDirectory (place : Place) : FileTree :=
  FileTree.plant ⟨[], place⟩ place .directory

/-- The files that are new or have another content than before. -/
def changedFiles (before after : FileTree) : List (Place × ByteArray) :=
  after.nodes.filterMap fun (place, node) =>
    match node with
    | .file content =>
      if (before.file? place).any (·.data = content.data) then none else some (place, content)
    | .directory => none

/-- The changed files below the working directory with their paths, sorted. -/
def changes (before after : FileTree) : List (String × ByteArray) :=
  let below := (before.changedFiles after).filter fun (place, _) =>
    after.workingDirectory.isPrefixOf place
  let named := below.map fun (place, content) => (after.placeText place, content)
  named.mergeSort fun a b => a.1 ≤ b.1

end FileTree

end FeedMerge
