import FeedMerge.Fault
import FeedMerge.Json.Writer

/-!
# Predicates

A predicate compares one field of an object with a literal: `Kind == Temperature`. Its text is cut
at the two equals signs, which must occur once; both sides are trimmed, and the field needs a name.
It holds of an object if the comparison text of the field is the literal.
-/

namespace FeedMerge

structure Predicate where
  field : String
  literal : String
  deriving DecidableEq, Repr

namespace Predicate

/-- The parts of a text before and behind the first two equals signs in a row. -/
def cut? : List Char → Option (List Char × List Char)
  | '=' :: '=' :: rest => some ([], rest)
  | c :: rest => (cut? rest).map fun (before, behind) => (c :: before, behind)
  | [] => none

/-- The predicate of a text. -/
def ofText (location : Location) (text : String) : Except Fault Predicate :=
  match cut? text.toList with
  | none => .error ⟨.ambiguousPredicate text, location, none⟩
  | some (before, behind) =>
    if (cut? behind).isSome then .error ⟨.ambiguousPredicate text, location, none⟩
    else
      let field := Text.trim (.ofList before)
      if field = "" then .error ⟨.predicateWithoutField text, location, none⟩
      else .ok ⟨field, Text.trim (.ofList behind)⟩

/-- The predicate of a value, which must be a text. -/
def ofJson (location : Location) : Json → Except Fault Predicate
  | .string text => ofText location text
  | value => .error ⟨.predicateNotText value.kind, location, none⟩

/-- The text of a predicate. -/
def text (p : Predicate) : String := p.field ++ " == " ++ p.literal

/-- Whether the predicate holds of an object with these fields. -/
def evaluate (p : Predicate) (location : Location) (fields : Fields) : Except Fault Bool :=
  match fields.find? p.field with
  | none => .error ⟨.missingField p.field, location, none⟩
  | some value =>
    if value.isScalar then .ok (value.comparisonText = p.literal)
    else .error ⟨.comparedStructure p.field value.kind, location, none⟩

end Predicate

end FeedMerge
