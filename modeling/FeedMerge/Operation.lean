import FeedMerge.Mapping
import FeedMerge.Operation.Descriptor

/-!
# Operations

An operation names its sources, a mapping for each transformation id, and the destination of its
summaries. A configuration is an array of operation descriptors, or a single one.
`Operation.listOfJson` reads it and stops at the first defect: operations are taken in order, each
with its shape before its transformations, and a repeated id before the mapping that comes with it.
-/

namespace FeedMerge

structure Operation where
  kind : String
  sources : List Operation.Source
  transformations : List (String × Mapping)
  destination : String
  index : Nat

namespace Operation

/-- The one kind of operation that can be run. -/
def mergeKind : String := "merge"

/-- How messages call an operation. -/
def label (op : Operation) : String := s!"operation #{op.index} ({op.kind} -> {op.destination})"

/-- The ids of the transformations, in order. -/
def ids (op : Operation) : List String := op.transformations.map (·.1)

/-- The files that an operation names: its sources in order, and its destination. -/
def files (op : Operation) : List String := op.sources.map (·.file) ++ [op.destination]

/-- The mapping for a source. -/
def mappingFor (op : Operation) (source : Source) : Except Fault Mapping :=
  match op.transformations.lookup source.transformation with
  | some mapping => .ok mapping
  | none =>
    let known := op.ids.mergeSort fun a b => a ≤ b
    .error ⟨.unknownTransformation source.file source.transformation known,
      (Location.ofText op.label).field "sources", none⟩

/-- The transformations from number `i` on, behind those that are known already. -/
def readTransformations (location : Location) (known : List (String × Mapping)) :
    Nat → List TransformationDescriptor → Except Fault (List (String × Mapping))
  | _, [] => .ok known
  | i, t :: rest =>
    let place := (location.field "transformations").index i
    if (known.map (·.1)).contains t.id then .error ⟨.duplicateTransformation t.id, place, none⟩
    else
      match Mapping.ofFields (place.field "mapping") t.mapping with
      | .error fault => .error fault
      | .ok mapping => readTransformations location (known ++ [(t.id, mapping)]) (i + 1) rest

/-- Where an operation stands in a configuration. -/
def locationOf (index : Nat) : Location := Location.root.index index

/-- The operation that a value of the configuration declares. -/
def ofJson (index : Nat) (value : Json) : Except Fault Operation :=
  match Descriptor.ofJson value with
  | .error defects => .error ⟨.misshapenOperation defects, locationOf index, none⟩
  | .ok d =>
    (readTransformations (locationOf index) [] 0 d.transformations).map fun transformations =>
      { kind := d.kind, sources := d.sources, transformations, destination := d.destination, index }

/-- The operations that some values declare, numbered from a start. -/
def ofValues : Nat → List Json → Except Fault (List Operation)
  | _, [] => .ok []
  | i, value :: values =>
    match ofJson i value with
    | .error fault => .error fault
    | .ok op => (ofValues (i + 1) values).map (op :: ·)

/-- The operations of a configuration. -/
def listOfJson : Json → Except Fault (List Operation)
  | .object fields => ofValues 0 [.object fields]
  | .array values => ofValues 0 values
  | value => .error ⟨.notOperations value.kind, .root, none⟩

end Operation

end FeedMerge
