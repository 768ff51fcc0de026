import FeedMerge.Mapping

/-!
# Checking mappings

`Mapping.check` finds every defect of a mapping, in the order of declaration and depth first, where
reading it would stop at the first one. Objects under keys that are not those of flags are entered;
every other entry is checked as a rule of its own.
-/

namespace FeedMerge.Mapping

inductive Defect where
  | notNonEmptyObject (location : Location)
  | badRule (fault : Fault)
  deriving DecidableEq, Repr

namespace Defect

def location : Defect → Location
  | notNonEmptyObject location => location
  | badRule fault => fault.location

def message : Defect → String
  | notNonEmptyObject location => location.text ++ ": mapping must be a non-empty object"
  | badRule fault => fault.message

end Defect

/-- The defect of an entry that is not entered. -/
def checkRule (location : Location) (key : String) (value : Json) : List Defect :=
  match Rule.ofEntry location key value with
  | .error fault => [.badRule fault]
  | .ok _ => []

mutual

/-- The defects of one entry of an object. -/
def checkEntry (location : Location) (key : String) : Json → List Defect
  | .object fields =>
    if Rule.isFlagKey key then checkRule location key (.object fields)
    else if fields.isEmpty then [.notNonEmptyObject location]
    else checkFields location fields
  | value => checkRule location key value

/-- The defects of the fields of an object. -/
def checkFields (location : Location) : Fields → List Defect
  | [] => []
  | (key, value) :: fields =>
    checkEntry (location.field key) key value ++ checkFields location fields

end

/-- All defects of a mapping. -/
def check (location : Location) : Json → List Defect
  | .object fields =>
    if fields.isEmpty then [.notNonEmptyObject location] else checkFields location fields
  | _ => [.notNonEmptyObject location]

end FeedMerge.Mapping
