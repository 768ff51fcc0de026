/-!
# JSON values

The documents that are merged, the mappings and the configurations are all JSON values. Integers and
floating-point numbers stay apart, integers have any size, and the fields of an object keep their
order. `Fields` is such a list of named values, with the operations of a dictionary: a name is
looked up at its first occurrence, and binding a name again keeps its place.
-/

namespace FeedMerge

inductive Json where
  | null
  | bool (value : Bool)
  | int (value : Int)
  | float (value : Float)
  | string (value : String)
  | array (items : List Json)
  | object (fields : List (String × Json))
  deriving Inhabited

/-- Named values in order. -/
abbrev Fields := List (String × Json)

namespace Fields

/-- The value of a name, at its first occurrence. -/
def find? (fields : Fields) (name : String) : Option Json :=
  fields.lookup name

/-- The fields with a name bound to a value: in place if the name occurs, at the end otherwise. -/
def bind : Fields → String → Json → Fields
  | [], name, value => [(name, value)]
  | (key, old) :: rest, name, value =>
    if key = name then (key, value) :: rest else (key, old) :: bind rest name value

/-- All bindings of `updates`, in order. -/
def overlay (fields updates : Fields) : Fields :=
  updates.foldl (fun acc (name, value) => acc.bind name value) fields

/-- The names in order. -/
def names (fields : Fields) : List String :=
  fields.map (·.1)

theorem find?_bind_self (fields : Fields) (name : String) (value : Json) :
    (fields.bind name value).find? name = some value := by
  induction fields with
  | nil => simp [bind, find?]
  | cons field rest ih =>
    obtain ⟨key, old⟩ := field
    by_cases h : key = name
    · simp [bind, find?, h]
    · have hne : (name == key) = false := by simpa using Ne.symm h
      simpa [bind, find?, h, List.lookup_cons, hne] using ih

theorem find?_bind_of_ne (fields : Fields) {name other : String} (value : Json) (h : other ≠ name) :
    (fields.bind name value).find? other = fields.find? other := by
  have hname : (other == name) = false := by simpa using h
  induction fields with
  | nil => simp [bind, find?, List.lookup_cons, hname]
  | cons field rest ih =>
    obtain ⟨key, old⟩ := field
    by_cases hkey : key = name
    · subst hkey
      simp [bind, find?, List.lookup_cons, hname]
    · by_cases hother : other = key
      · subst hother
        simp [bind, find?, hkey]
      · have hne : (other == key) = false := by simpa using hother
        simpa [bind, find?, List.lookup_cons, hkey, hne] using ih

end Fields

namespace Json

/-- The kinds of value, as messages tell them apart. -/
inductive Kind where
  | null
  | bool
  | int
  | float
  | string
  | array
  | object
  deriving DecidableEq, Repr

/-- The name of a kind in messages. -/
def Kind.name : Kind → String
  | .null => "NoneType"
  | .bool => "bool"
  | .int => "int"
  | .float => "float"
  | .string => "str"
  | .array => "list"
  | .object => "dict"

def kind : Json → Kind
  | .null => .null
  | .bool _ => .bool
  | .int _ => .int
  | .float _ => .float
  | .string _ => .string
  | .array _ => .array
  | .object _ => .object

/-- Scalars are all values but arrays and objects. -/
def isScalar (value : Json) : Bool :=
  value.kind ≠ .array && value.kind ≠ .object

end Json

end FeedMerge
