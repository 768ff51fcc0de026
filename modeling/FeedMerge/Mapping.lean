import FeedMerge.Mapping.Predicate

/-!
# Mappings

A mapping says how one level of a source document is projected. Each of its rules has a key: a flag
derives a truth value under its key, a rename copies a field to a target name, and a nested rule
applies a mapping of its own to the objects in a field. A key that begins with `is` always belongs
to a flag. The level emits a reading if one of its renames has the target `Value`.

Mappings are written as JSON objects. `Mapping.ofJson` reads them and stops at the first defect;
`Mapping.toJson` writes them back in normal form.
-/

namespace FeedMerge

inductive Rule where
  | rename (source target : String)
  | flag (target : String) (predicate : Predicate)
  | nested (source : String) (rules : List Rule)

namespace Rule

/-- The key that a rule is declared under. -/
def key : Rule → String
  | rename source _ => source
  | flag target _ => target
  | nested source _ => source

/-- The target that completes a reading. -/
def terminalTarget : String := "Value"

/-- A rename that completes a reading. -/
def isTerminal : Rule → Bool
  | rename _ target => target = terminalTarget
  | _ => false

/-- The targets and predicates of the flags of a level. -/
def flags (rules : List Rule) : List (String × Predicate) :=
  rules.filterMap fun
    | flag target predicate => some (target, predicate)
    | _ => none

/-- The sources and targets of the renames of a level. -/
def renames (rules : List Rule) : List (String × String) :=
  rules.filterMap fun
    | rename source target => some (source, target)
    | _ => none

/-- The sources and rules of the nested rules of a level. -/
def nestings (rules : List Rule) : List (String × List Rule) :=
  rules.filterMap fun
    | nested source below => some (source, below)
    | _ => none

/-- Whether a level emits a reading. -/
def emits (rules : List Rule) : Bool := rules.any isTerminal

/-- A level names its flags first, then its renames, then what is below its nested rules. -/
def levelTargets (rules : List Rule) : List String :=
  (flags rules).map (·.1) ++ (renames rules).map (·.2)

mutual

/-- The names that the levels below give values to. -/
def targetsBelow : List Rule → List String
  | [] => []
  | rule :: rules => rule.targetsOfNested ++ targetsBelow rules

/-- The names that the level of a nested rule, and those below it, give values to. -/
def targetsOfNested : Rule → List String
  | nested _ rules => levelTargets rules ++ targetsBelow rules
  | _ => []

end

/-- The names that a level and those below it give values to. -/
def targets (rules : List Rule) : List String := levelTargets rules ++ targetsBelow rules

mutual

/-- The value that a rule is written with. -/
def toJson : Rule → Json
  | rename _ target => .string target
  | flag _ predicate => .string predicate.text
  | nested _ rules => .object (toFields rules)

/-- The rules as fields, each under its key. -/
def toFields : List Rule → Fields
  | [] => []
  | rule :: rules => (rule.key, rule.toJson) :: toFields rules

end

/-- Keys of flags. -/
def isFlagKey (key : String) : Bool :=
  match key.toList with
  | 'i' :: 's' :: _ => true
  | _ => false

mutual

/-- The rule that a key and a value declare. -/
def ofEntry (location : Location) (key : String) : Json → Except Fault Rule
  | .object fields =>
    if key = "" then .error ⟨.emptyRuleKey, location, none⟩
    else if isFlagKey key then .error ⟨.flagNotText key .object, location, none⟩
    else if fields.isEmpty then .error ⟨.emptyMapping, location, none⟩
    else (ofFields location fields).map (nested key)
  | .string text =>
    if key = "" then .error ⟨.emptyRuleKey, location, none⟩
    else if isFlagKey key then (Predicate.ofText location text).map (flag key)
    else if Text.IsBlank text then .error ⟨.emptyTarget key, location, none⟩
    else .ok (rename key text)
  | value =>
    if key = "" then .error ⟨.emptyRuleKey, location, none⟩
    else if isFlagKey key then .error ⟨.flagNotText key value.kind, location, none⟩
    else .error ⟨.unsuitedRule key value.kind, location, none⟩

/-- The rules that the fields of an object declare, each at the location of its field. -/
def ofFields (location : Location) : Fields → Except Fault (List Rule)
  | [] => .ok []
  | (key, value) :: fields =>
    match ofEntry (location.field key) key value with
    | .error fault => .error fault
    | .ok rule => (ofFields location fields).map (rule :: ·)

end

/-- The rule that a key of any kind and a value declare; only texts are keys. -/
def ofPair (location : Location) (key value : Json) : Except Fault Rule :=
  match key with
  | .string key => ofEntry location key value
  | _ => .error ⟨.emptyRuleKey, location, none⟩

end Rule

/-- The rules of one level, at the location of the configuration where they are declared. -/
structure Mapping where
  location : Location
  rules : List Rule

namespace Mapping

/-- The mapping that an object declares. -/
def ofFields (location : Location) (fields : Fields) : Except Fault Mapping :=
  if fields.isEmpty then .error ⟨.emptyMapping, location, none⟩
  else (Rule.ofFields location fields).map fun rules => ⟨location, rules⟩

/-- The mapping that a value declares, which must be an object. -/
def ofJson (location : Location) : Json → Except Fault Mapping
  | .object fields => ofFields location fields
  | value => .error ⟨.mappingNotObject value.kind, location, none⟩

/-- The mapping of a nested rule, at the location of its field. -/
def below (m : Mapping) (source : String) (rules : List Rule) : Mapping :=
  ⟨m.location.field source, rules⟩

def emits (m : Mapping) : Bool := Rule.emits m.rules

def targets (m : Mapping) : List String := Rule.targets m.rules

/-- The object that declares a mapping, in normal form. -/
def toJson (m : Mapping) : Json := .object (Rule.toFields m.rules)

end Mapping

end FeedMerge
