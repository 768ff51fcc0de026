import FeedMerge.Document
import FeedMerge.Location
import FeedMerge.Operation.Descriptor
import FeedMerge.Reading

/-!
# Faults

A fault is something that a configuration, a mapping or a document does wrong, with the place where
it does. `Cause` tells what is wrong and falls into one of four categories; `Fault.message` is the
whole wording. A fault that is found while an operation works on a source names them too.
-/

namespace FeedMerge

/-- The kinds of fault that a caller may want to tell apart. -/
inductive Category where
  | configuration
  | unsupportedOperation
  | mapping
  | reading
  deriving DecidableEq, Repr

inductive Cause where
  | emptyRuleKey
  | flagNotText (key : String) (found : Json.Kind)
  | emptyTarget (key : String)
  | unsuitedRule (key : String) (found : Json.Kind)
  | mappingNotObject (found : Json.Kind)
  | emptyMapping
  | notOperations (found : Json.Kind)
  | misshapenOperation (defects : List Operation.ShapeDefect)
  | duplicateTransformation (id : String)
  | unknownTransformation (file id : String) (known : List String)
  | unreadableConfiguration (error : Document.Error)
  | unsupportedKind (kind supported : String)
  | predicateNotText (found : Json.Kind)
  | ambiguousPredicate (text : String)
  | predicateWithoutField (text : String)
  | missingField (name : String)
  | comparedStructure (name : String) (found : Json.Kind)
  | copiedStructure (source target : String) (found : Json.Kind)
  | notAnObject (found : Json.Kind)
  | notNested (found : Json.Kind)
  | incompleteReading (missing : List Reading.Field)
  | rejectedReading (rejections : List Reading.Rejection)
  deriving DecidableEq, Repr

namespace Cause

def category : Cause → Category
  | emptyRuleKey | flagNotText .. | emptyTarget _ | unsuitedRule .. | mappingNotObject _
  | emptyMapping | notOperations _ | misshapenOperation _ | duplicateTransformation _
  | unknownTransformation .. | unreadableConfiguration _ => .configuration
  | unsupportedKind .. => .unsupportedOperation
  | predicateNotText _ | ambiguousPredicate _ | predicateWithoutField _ | missingField _
  | comparedStructure .. | copiedStructure .. | notAnObject _ | notNested _ => .mapping
  | incompleteReading _ | rejectedReading _ => .reading

def message : Cause → String
  | emptyRuleKey => "rule keys must be non-empty strings"
  | flagNotText key found =>
    s!"flag rule '{key}' expects an equality string like 'Field == literal', got {found.name}"
  | emptyTarget key => s!"rule '{key}' has an empty target name"
  | unsuitedRule key found =>
    s!"rule '{key}' must be a target name, an equality string or a nested object, got {found.name}"
  | mappingNotObject found => s!"mapping must be an object (dict), got {found.name}"
  | emptyMapping => "mapping must not be empty"
  | notOperations found => s!"configuration must be an array of operations, got {found.name}"
  | misshapenOperation defects =>
    "invalid operation descriptor: " ++ "; ".intercalate (defects.map (·.message))
  | duplicateTransformation id => s!"duplicate transformation id '{id}'"
  | unknownTransformation file id known =>
    s!"source '{file}' references unknown transformation '{id}' (known: {Json.inspectNames known})"
  | unreadableConfiguration error => s!"configuration file is not valid UTF-8 JSON: {error.message}"
  | unsupportedKind kind supported => s!"operation '{kind}' is not supported (only '{supported}')"
  | predicateNotText found => s!"predicate must be a string, got {found.name}"
  | ambiguousPredicate text => s!"predicate '{text}' must contain exactly one '=='"
  | predicateWithoutField text => s!"predicate '{text}' is missing a source field name"
  | missingField name => s!"source field '{name}' not found"
  | comparedStructure name found =>
    s!"source field '{name}' must be a scalar to compare, got {found.name}"
  | copiedStructure source target found =>
    s!"'{source}' maps to '{target}' but holds a {found.name}; " ++
      "nested values need a nested mapping object"
  | notAnObject found => s!"expected an object to apply mapping, got {found.name}"
  | notNested found => s!"nested mapping expects an array or object, got {found.name}"
  | incompleteReading missing =>
    "'Value' resolved before required fields were mapped: missing " ++
      Json.inspectNames (missing.map (·.name))
  | rejectedReading rejections =>
    "could not coerce record fields: " ++ ", ".intercalate (rejections.map (·.message))

end Cause

/-- The part of an operation that was at work. -/
structure Attribution where
  operation : String
  file : String
  transformation : String
  deriving DecidableEq, Repr

def Attribution.text (a : Attribution) : String :=
  s!"{a.operation}, source '{a.file}' (transformation '{a.transformation}')"

structure Fault where
  cause : Cause
  location : Location
  source : Option Attribution := none
  deriving DecidableEq, Repr

namespace Fault

/-- The wording of the fault itself; an empty location is not mentioned. -/
def ownMessage (f : Fault) : String :=
  let place := f.location.text
  if place = "" then f.cause.message else s!"{place}: {f.cause.message}"

def message (f : Fault) : String :=
  match f.source with
  | none => f.ownMessage
  | some source => s!"{source.text}: {f.ownMessage}"

/-- The fault as found in the work on a source. -/
def during (f : Fault) (source : Attribution) : Fault := { f with source := some source }

end Fault

end FeedMerge
