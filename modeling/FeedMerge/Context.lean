import FeedMerge.Json.Inspect
import FeedMerge.Location
import FeedMerge.Reading

/-!
# Contexts

A context holds the values that one branch of a document has resolved so far, and where the branch
stands. Contexts only ever grow downwards: an object binds its own values in the context that it was
reached with, and what is below it sees the result, so no branch sees what a sibling has bound.

A context also holds the reading of the clock by which texts such as `now` are read. It is one
reading for all of a projection, as if no time passed while a document is projected.
-/

namespace FeedMerge

structure Context where
  values : Fields := []
  location : Location := .root
  now : Timestamp

namespace Context

/-- Nothing resolved, at the root of a document. -/
def empty (now : Timestamp) : Context := { now }

def get? (c : Context) (name : String) : Option Json := c.values.find? name

/-- The context with further bindings; a name that is bound already keeps its place. -/
def overlay (c : Context) (updates : Fields) : Context :=
  { c with values := c.values.overlay updates }

/-- The context at another location. -/
def descend (c : Context) (location : Location) : Context := { c with location }

/-- The draft of the reading that the values make up. -/
def draft (c : Context) : Reading.Draft := .ofFields c.values

/-- The context in one line. -/
def describe (c : Context) : String :=
  s!"ProjectionContext(path={Text.quote c.location.text}, values={(Json.object c.values).inspect})"

end Context

end FeedMerge
