import FeedMerge.Json.Reader
import FeedMerge.Text.Utf8

/-!
# Documents

A document is the JSON value of the bytes of a file: they are read as UTF-8, line ends become line
feeds, and the text is read as JSON.
-/

namespace FeedMerge.Document

/-- Why bytes are no document. -/
inductive Error where
  | encoding (fault : Text.Utf8.Fault)
  | json (error : Json.ReadError)
  deriving DecidableEq, Repr

def Error.message : Error → String
  | .encoding fault => fault.message
  | .json error => error.message

/-- The document of a text. -/
def ofText (text : String) : Except Error Json :=
  (Json.read (.ofList (Text.unifyLineEnds text.toList))).mapError .json

/-- The document of the bytes of a file. -/
def ofBytes (bytes : ByteArray) : Except Error Json :=
  match Text.Utf8.decode bytes with
  | .error fault => .error (.encoding fault)
  | .ok text => ofText text

theorem ofBytes_toUTF8 {chars : List Char} (h : '\r' ∉ chars) :
    ofBytes (String.ofList chars).toUTF8 =
      ((Json.readChars chars).mapError (Json.ReadError.at chars)).mapError .json := by
  rw [ofBytes, Text.Utf8.decode_toUTF8]
  dsimp only
  rw [ofText, String.toList_ofList, Text.unifyLineEnds_eq_self chars h, Json.read,
    String.toList_ofList]

end FeedMerge.Document
