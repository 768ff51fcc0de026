import FeedMerge.Context
import FeedMerge.Mapping

/-!
# Projection

Projecting a document under a mapping emits readings. At each object that is visited the flags of
the level are evaluated first, then its renames; the values found are bound in the context that the
object was reached with; if the level emits, the context makes up a reading; and then the nested
rules visit the objects below, each in the context of this object.

A projection is the list of its emissions in order, with the error that cut it short, if any.
Joining two projections keeps the emissions of the second only if the first went through.
-/

namespace FeedMerge

/-- A reading and the context that it was made from. -/
structure Emission where
  context : Context
  reading : Reading

namespace Projection

/-- Why a projection ends early. -/
inductive Error where
  | fault (fault : Fault)
  | timestamp (error : Timestamp.RangeError)
  deriving DecidableEq, Repr

def Error.message : Error → String
  | fault f => f.message
  | timestamp error => error.message

end Projection

/-- What a projection emits, and the error that ends it, if any. -/
structure Projection where
  emissions : List Emission
  error : Option Projection.Error

namespace Projection

/-- Nothing emitted, and no error. -/
def nothing : Projection := ⟨[], none⟩

/-- Nothing emitted before an error. -/
def failed (error : Error) : Projection := ⟨[], some error⟩

/-- A projection and then another, which is begun only if the first has no error. -/
def andThen (p q : Projection) : Projection :=
  match p.error with
  | some _ => p
  | none => ⟨p.emissions ++ q.emissions, q.error⟩

/-- The readings in order of emission. -/
def readings (p : Projection) : List Reading := p.emissions.map (·.reading)

theorem nothing_andThen (p : Projection) : nothing.andThen p = p := rfl

theorem andThen_nothing (p : Projection) : p.andThen nothing = p := by
  obtain ⟨emissions, error⟩ := p
  cases error <;> simp [andThen, nothing]

theorem andThen_assoc (p q r : Projection) : (p.andThen q).andThen r = p.andThen (q.andThen r) := by
  obtain ⟨emissions, error⟩ := p
  cases error with
  | some e => rfl
  | none => cases hq : q.error <;> simp [andThen, hq]

/-- After an error nothing is begun. -/
theorem andThen_of_error {p : Projection} {error : Error} (h : p.error = some error)
    (q : Projection) : p.andThen q = p := by
  rw [andThen, h]

theorem error_andThen {p q : Projection} :
    (p.andThen q).error = none ↔ p.error = none ∧ q.error = none := by
  unfold andThen
  split
  · rename_i error herror
    simp [herror]
  · rename_i herror
    simp [herror]

theorem readings_andThen {p q : Projection} (h : p.error = none) :
    (p.andThen q).readings = p.readings ++ q.readings := by
  unfold andThen
  rw [h]
  exact List.map_append

/-! ### Resolving the values of an object -/

/-- The truth values of the flags of a level. -/
def resolveFlags (location : Location) (fields : Fields) :
    List (String × Predicate) → Except Fault Fields
  | [] => .ok []
  | (target, predicate) :: rest =>
    match predicate.evaluate (location.field target) fields with
    | .error fault => .error fault
    | .ok truth => (resolveFlags location fields rest).map ((target, .bool truth) :: ·)

/-- The value of a field of an object, which must be there. -/
def lookup (location : Location) (fields : Fields) (name : String) : Except Fault Json :=
  match fields.find? name with
  | some value => .ok value
  | none => .error ⟨.missingField name, location, none⟩

/-- The values that the renames of a level copy. -/
def resolveRenames (location : Location) (fields : Fields) :
    List (String × String) → Except Fault Fields
  | [] => .ok []
  | (source, target) :: rest =>
    match lookup location fields source with
    | .error fault => .error fault
    | .ok value =>
      if value.isScalar then (resolveRenames location fields rest).map ((target, value) :: ·)
      else .error ⟨.copiedStructure source target value.kind, location.field source, none⟩

/-- All values that a level binds, flags before renames. -/
def resolve (rules : List Rule) (location : Location) (fields : Fields) : Except Fault Fields :=
  match resolveFlags location fields (Rule.flags rules) with
  | .error fault => .error fault
  | .ok flags => (resolveRenames location fields (Rule.renames rules)).map (flags ++ ·)

/-! ### Emitting -/

/-- The reading that a context makes up. -/
def build (context : Context) : Except Error Reading :=
  let missing := context.draft.missing
  if missing.isEmpty then
    match context.draft.read context.now with
    | .ok reading => .ok reading
    | .error (.rejected rejections) =>
      .error (.fault ⟨.rejectedReading rejections, context.location, none⟩)
    | .error (.outOfRange error) => .error (.timestamp error)
  else .error (.fault ⟨.incompleteReading missing, context.location, none⟩)

/-- The reading of a level that emits. -/
def emit (rules : List Rule) (context : Context) : Projection :=
  if Rule.emits rules then
    match build context with
    | .ok reading => ⟨[⟨context, reading⟩], none⟩
    | .error error => failed error
  else nothing

/-! ### Visiting objects -/

/-- What the rules of a level make of a value, where `below` does the nested rules: the value must
be an object. -/
def visit (rules : List Rule) (below : Fields → Context → Projection) (context : Context) :
    Json → Projection
  | .object fields =>
    match resolve rules context.location fields with
    | .error fault => failed (.fault fault)
    | .ok values =>
      let context := context.overlay values
      (emit rules context).andThen (below fields context)
  | value => failed (.fault ⟨.notAnObject value.kind, context.location, none⟩)

/-- The items of an array in order, numbered from a start. -/
def visitItems (one : Context → Json → Projection) (context : Context) (location : Location) :
    Nat → List Json → Projection
  | _, [] => nothing
  | i, item :: items =>
    (one (context.descend (location.index i)) item).andThen
      (visitItems one context location (i + 1) items)

/-- What a nested rule makes of the value of its field: an object is visited, and every item of an
array. -/
def visitField (one : Context → Json → Projection) (context : Context) (location : Location) :
    Json → Projection
  | .array items => visitItems one context location 0 items
  | .object fields => one (context.descend location) (.object fields)
  | value => failed (.fault ⟨.notNested value.kind, location, none⟩)

mutual

/-- The nested rules of a level, in order, on an object whose values the context holds. -/
def descend : List Rule → Fields → Context → Projection
  | [], _, _ => nothing
  | rule :: rules, fields, context =>
    (descendRule rule fields context).andThen (descend rules fields context)

/-- One rule of a level; only nested rules visit what is below. -/
def descendRule : Rule → Fields → Context → Projection
  | .nested source rules, fields, context =>
    match lookup context.location fields source with
    | .error fault => failed (.fault fault)
    | .ok value =>
      visitField (visit rules (descend rules)) context (context.location.field source) value
  | _, _, _ => nothing

end

/-- The rules of a level on one value. -/
def ofValue (rules : List Rule) (context : Context) (value : Json) : Projection :=
  visit rules (descend rules) context value

/-- A document under some rules, from a context to start with; the items of an array are visited one
by one. -/
def ofDocument (rules : List Rule) (context : Context) : Json → Projection
  | .array items => visitItems (ofValue rules) context context.location 0 items
  | value => ofValue rules context value

end Projection

end FeedMerge
