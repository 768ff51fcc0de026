import FeedMerge.Checked
import FeedMerge.Json
import FeedMerge.Text.Surrogate

/-!
# Operation descriptors

A descriptor is the raw shape of an operation in a configuration: its kind, its sources, its
transformations, which may be left out, and its destination. `Descriptor.ofJson` checks the shape of
a JSON value before any mapping is looked at. All defects are found, in the order of the fields,
each with the path to it; fields that are not asked for do not matter.
-/

namespace FeedMerge.Operation

/-- What may be wrong with the shape of a descriptor. -/
inductive ShapeError where
  | missing
  | notText
  | illegibleText
  | emptyText
  | notList
  | notObject
  | notRecord (record : String)
  deriving DecidableEq, Repr

def ShapeError.message : ShapeError → String
  | .missing => "Field required"
  | .notText => "Input should be a valid string"
  | .illegibleText =>
    "Input should be a valid string, unable to parse raw data as a unicode string"
  | .emptyText => "String should have at least 1 character"
  | .notList => "Input should be a valid list"
  | .notObject => "Input should be a valid dictionary"
  | .notRecord record => s!"Input should be a valid dictionary or instance of {record}"

/-- A defect and the names and numbers of the fields and items that lead to it. -/
structure ShapeDefect where
  path : List String
  error : ShapeError
  deriving DecidableEq, Repr

namespace ShapeDefect

def pathText (d : ShapeDefect) : String := ".".intercalate d.path

/-- The defect seen from outside the field or item that it was found in. -/
def under (name : String) (d : ShapeDefect) : ShapeDefect := { d with path := name :: d.path }

/-- The line that lists a defect; the descriptor itself is called the root. -/
def message (d : ShapeDefect) : String :=
  let place := if d.path.isEmpty then "<root>" else d.pathText
  s!"{place}: {d.error.message}"

end ShapeDefect

/-- A well-shaped value, or all defects. -/
abbrev Shaped (α : Type) := Checked ShapeDefect α

/-- A value seen from outside the field or item that it stands in. -/
def Shaped.under {α : Type} (name : String) (a : Shaped α) : Shaped α :=
  a.mapError (·.map (·.under name))

/-! ### Shapes -/

def text : Json → Shaped String
  | .string s => .ok s
  | _ => .error [⟨[], .notText⟩]

/-- A text that is not empty and holds no surrogates. -/
def nonEmptyText : Json → Shaped String
  | .string s =>
    if !Text.isEncodable s then .error [⟨[], .illegibleText⟩]
    else if s = "" then .error [⟨[], .emptyText⟩]
    else .ok s
  | _ => .error [⟨[], .notText⟩]

def object : Json → Shaped Fields
  | .object fields => .ok fields
  | _ => .error [⟨[], .notObject⟩]

/-- The items of a list, numbered from a start. -/
def items {α : Type} (shape : Json → Shaped α) : Nat → List Json → Shaped (List α)
  | _, [] => .ok []
  | i, item :: rest =>
    (((shape item).under (toString i)).both (items shape (i + 1) rest)).map fun (x, xs) => x :: xs

def list {α : Type} (shape : Json → Shaped α) : Json → Shaped (List α)
  | .array values => items shape 0 values
  | _ => .error [⟨[], .notList⟩]

/-- A field that an object must have. -/
def required {α : Type} (fields : Fields) (name : String) (shape : Json → Shaped α) : Shaped α :=
  match fields.find? name with
  | some value => (shape value).under name
  | none => .error [⟨[name], .missing⟩]

/-- A field that stands for a value when it is left out. -/
def optional {α : Type} (fields : Fields) (name : String) (absent : α) (shape : Json → Shaped α) :
    Shaped α :=
  match fields.find? name with
  | some value => (shape value).under name
  | none => .ok absent

/-! ### Descriptors -/

/-- A file to read and the transformation to project it with. -/
structure Source where
  file : String
  transformation : String
  deriving DecidableEq, Repr

structure TransformationDescriptor where
  id : String
  mapping : Fields

structure Descriptor where
  kind : String
  sources : List Source
  transformations : List TransformationDescriptor
  destination : String

def Source.ofJson : Json → Shaped Source
  | .object fields =>
    ((required fields "file" nonEmptyText).both (required fields "transformation" nonEmptyText)).map
      fun (file, transformation) => ⟨file, transformation⟩
  | _ => .error [⟨[], .notRecord "SourceDescriptor"⟩]

def TransformationDescriptor.ofJson : Json → Shaped TransformationDescriptor
  | .object fields =>
    ((required fields "id" nonEmptyText).both (required fields "mapping" object)).map
      fun (id, mapping) => ⟨id, mapping⟩
  | _ => .error [⟨[], .notRecord "TransformationDescriptor"⟩]

def Descriptor.ofJson : Json → Shaped Descriptor
  | .object fields =>
    let kind := required fields "operation" text
    let sources := required fields "sources" (list Source.ofJson)
    let transformations :=
      optional fields "transformations" [] (list TransformationDescriptor.ofJson)
    let destination := required fields "destination" nonEmptyText
    ((kind.both sources).both (transformations.both destination)).map
      fun ((kind, sources), (transformations, destination)) =>
        ⟨kind, sources, transformations, destination⟩
  | _ => .error [⟨[], .notRecord "OperationDescriptor"⟩]

end FeedMerge.Operation
