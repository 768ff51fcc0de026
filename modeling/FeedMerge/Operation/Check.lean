import FeedMerge.Mapping.Check
import FeedMerge.Operation

/-!
# Checking configurations

`Operation.check` finds all defects of a configuration in order: for each operation those of its
shape, or else its kind, its transformations with their mappings, and the sources that refer to a
transformation which is not declared.
-/

namespace FeedMerge.Operation

inductive Defect where
  | notOperations
  | misshapen (location : Location) (defect : ShapeDefect)
  | unsupportedKind (location : Location) (kind : String)
  | duplicateTransformation (location : Location) (id : String)
  | mapping (defect : Mapping.Defect)
  | unknownTransformation (location : Location) (id : String)
  deriving DecidableEq, Repr

def Defect.message : Defect → String
  | notOperations => Location.root.text ++ ": configuration must be an array of operations"
  | misshapen location defect => s!"{location.text}.{defect.pathText}: {defect.error.message}"
  | unsupportedKind location kind =>
    s!"{location.text}: '{kind}' is not supported (only '{mergeKind}')"
  | duplicateTransformation location id => s!"{location.text}: duplicate transformation id '{id}'"
  | mapping defect => defect.message
  | unknownTransformation location id => s!"{location.text}: unknown transformation '{id}'"

/-- The defects of the transformations from number `i` on, where some ids are declared already. -/
def checkTransformations (location : Location) (seen : List String) :
    Nat → List TransformationDescriptor → List Defect
  | _, [] => []
  | i, t :: rest =>
    let place := (location.field "transformations").index i
    let duplicate := if seen.contains t.id then [.duplicateTransformation place t.id] else []
    let defects := (Mapping.check (place.field "mapping") (.object t.mapping)).map .mapping
    duplicate ++ defects ++ checkTransformations location (t.id :: seen) (i + 1) rest

/-- The sources from number `i` on that refer to none of the ids. -/
def checkSources (location : Location) (ids : List String) : Nat → List Source → List Defect
  | _, [] => []
  | i, source :: rest =>
    let unknown :=
      if ids.contains source.transformation then []
      else [.unknownTransformation ((location.field "sources").index i) source.transformation]
    unknown ++ checkSources location ids (i + 1) rest

/-- The defects of an operation whose shape is right. -/
def checkDescriptor (location : Location) (d : Descriptor) : List Defect :=
  let kind :=
    if d.kind = mergeKind then [] else [.unsupportedKind (location.field "operation") d.kind]
  kind ++ checkTransformations location [] 0 d.transformations ++
    checkSources location (d.transformations.map (·.id)) 0 d.sources

/-- The defects of one value of a configuration. -/
def checkOne (index : Nat) (value : Json) : List Defect :=
  match Descriptor.ofJson value with
  | .error defects => defects.map (.misshapen (locationOf index))
  | .ok d => checkDescriptor (locationOf index) d

/-- The defects of some values, numbered from a start. -/
def checkValues : Nat → List Json → List Defect
  | _, [] => []
  | i, value :: values => checkOne i value ++ checkValues (i + 1) values

/-- All defects of a configuration. -/
def check : Json → List Defect
  | .object fields => checkValues 0 [.object fields]
  | .array values => checkValues 0 values
  | _ => [.notOperations]

end FeedMerge.Operation
