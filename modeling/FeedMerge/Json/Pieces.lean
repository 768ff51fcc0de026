import FeedMerge.Json.Writer

/-!
# Writing JSON piece by piece

A value is not written at once but piece by piece: each bracket, break and name is a piece of its
own, and so is each scalar, with what opens the array or separates its items before it. Only where a
piece ends shows, when one of them cannot be encoded. Joined they are the text of the value
(`flatten_pieces`).
-/

namespace FeedMerge.Json

/-- The pieces of an item of an array behind what stands before it: one piece with a scalar. -/
def piecesBehind (before : List Char) (item : Json) (pieces : List (List Char)) :
    List (List Char) :=
  if item.isScalar then [before ++ pieces.flatten] else before :: pieces

mutual

/-- The pieces of a value that stands at a level; some may be empty. -/
def pieces (layout : Layout) (level : Nat) : Json → List (List Char)
  | .array [] => [['[', ']']]
  | .array (item :: items) =>
    piecesBehind ('[' :: layout.lineBreak (level + 1)) item (pieces layout (level + 1) item) ++
      itemPieces layout (level + 1) items ++ [layout.lineBreak level, [']']]
  | .object [] => [['\x7b', '\x7d']]
  | .object ((name, value) :: fields) =>
    [['\x7b'], layout.lineBreak (level + 1), writeText layout.ascii name, [':', ' ']] ++
      pieces layout (level + 1) value ++ fieldPieces layout (level + 1) fields ++
      [layout.lineBreak level, ['\x7d']]
  | value => [writeValue layout level value]

/-- The pieces of the items after the first. -/
def itemPieces (layout : Layout) (level : Nat) : List Json → List (List Char)
  | [] => []
  | item :: items =>
    piecesBehind (layout.separator level) item (pieces layout level item) ++
      itemPieces layout level items

/-- The pieces of the fields after the first. -/
def fieldPieces (layout : Layout) (level : Nat) : List (String × Json) → List (List Char)
  | [] => []
  | (name, value) :: fields =>
    [layout.separator level, writeText layout.ascii name, [':', ' ']] ++
      pieces layout level value ++ fieldPieces layout level fields

end

theorem flatten_piecesBehind (before : List Char) (item : Json) (pieces : List (List Char)) :
    (piecesBehind before item pieces).flatten = before ++ pieces.flatten := by
  unfold piecesBehind
  split <;> simp

mutual

/-- The pieces of a value make up its text. -/
theorem flatten_pieces (layout : Layout) : ∀ (level : Nat) (value : Json),
    (pieces layout level value).flatten = writeValue layout level value
  | _, .array [] => rfl
  | level, .array (item :: items) => by
    rw [pieces, writeValue, List.flatten_append, List.flatten_append, flatten_piecesBehind,
      flatten_pieces layout (level + 1) item, flatten_itemPieces layout (level + 1) items]
    simp
  | _, .object [] => rfl
  | level, .object ((name, value) :: fields) => by
    rw [pieces, writeValue, List.flatten_append, List.flatten_append, List.flatten_append,
      flatten_pieces layout (level + 1) value, flatten_fieldPieces layout (level + 1) fields]
    simp
  | _, .null | _, .bool _ | _, .int _ | _, .float _ | _, .string _ => List.append_nil _

theorem flatten_itemPieces (layout : Layout) : ∀ (level : Nat) (items : List Json),
    (itemPieces layout level items).flatten = writeItems layout level items
  | _, [] => rfl
  | level, item :: items => by
    rw [itemPieces, writeItems, List.flatten_append, flatten_piecesBehind,
      flatten_pieces layout level item, flatten_itemPieces layout level items]

theorem flatten_fieldPieces (layout : Layout) : ∀ (level : Nat) (fields : Fields),
    (fieldPieces layout level fields).flatten = writeFields layout level fields
  | _, [] => rfl
  | level, (name, value) :: fields => by
    rw [fieldPieces, writeFields, List.flatten_append, List.flatten_append,
      flatten_pieces layout level value, flatten_fieldPieces layout level fields]
    simp

end

end FeedMerge.Json
