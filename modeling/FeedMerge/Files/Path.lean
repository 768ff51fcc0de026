import FeedMerge.Text.Surrogate

/-!
# Paths

A path is a root, if it is absolute, and the names that lead to a file. Its text drops empty names
and single dots but keeps double dots, since what they lead to depends on the files. A path without
root and names is written as a single dot. Exactly two leading slashes are a root of their own.

A file system takes all names without NULs and surrogates. It also takes the surrogates that tell
the bytes of names which are no text; that such bytes may make up a character together is left out,
and they count like other characters for the length of a name.
-/

namespace FeedMerge

/-- Where a path begins. -/
inductive PathRoot where
  | relative
  | top
  | doubleTop
  deriving DecidableEq, Repr

def PathRoot.text : PathRoot → String
  | relative => ""
  | top => "/"
  | doubleTop => "//"

structure Path where
  root : PathRoot
  names : List String
  deriving DecidableEq, Repr

namespace Path

/-- The parts of a text between its slashes. -/
def splitSlashes : List Char → List (List Char)
  | [] => [[]]
  | c :: rest =>
    if c = '/' then [] :: splitSlashes rest
    else
      match splitSlashes rest with
      | [] => [[c]]
      | part :: parts => (c :: part) :: parts

/-- The root that a text begins with. -/
def rootOf (chars : List Char) : PathRoot :=
  match (chars.takeWhile (· = '/')).length with
  | 0 => .relative
  | 2 => .doubleTop
  | _ => .top

/-- The path of a text. -/
def ofText (text : String) : Path where
  root := rootOf text.toList
  names := ((splitSlashes text.toList).map String.ofList).filter fun name => name ≠ "" && name ≠ "."

/-- Whether a text can only name a directory: its last part is empty or a single dot. -/
def namesDirectory (text : String) : Bool :=
  let last := (splitSlashes text.toList).getLast?
  last = some [] || last = some ['.']

/-- The text of a path. -/
def text (p : Path) : String :=
  if p.root = .relative && p.names.isEmpty then "." else p.root.text ++ "/".intercalate p.names

def isAbsolute (p : Path) : Bool := p.root ≠ .relative

/-- The path that begins at another one, unless it is absolute. -/
def under (p base : Path) : Path :=
  if p.isAbsolute then p else ⟨base.root, base.names ++ p.names⟩

/-- The path without its last name. -/
def parent (p : Path) : Path := ⟨p.root, p.names.dropLast⟩

/-- The last name of a path, empty if there is none. -/
def fileName (p : Path) : String := p.names.getLast?.getD ""

/-- Whether a file system takes a character in a name. -/
def takesChar (c : Char) : Bool := c ≠ '\x00' && (!Text.isSurrogate c || Text.isRawByte c)

/-- Whether all names can be handed to a file system. -/
def isNameable (p : Path) : Bool := p.names.all fun name => name.toList.all takesChar

end Path

end FeedMerge
