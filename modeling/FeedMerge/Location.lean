/-!
# Locations

A location says where in a document or a configuration something stands: a text to begin with,
mostly `$` for the root, then the steps to fields and items. Its text is the beginning followed by
`.field` and `[index]` for the steps.
-/

namespace FeedMerge

/-- A step from an object to a field or from an array to an item. -/
inductive Step where
  | field (name : String)
  | index (i : Nat)
  deriving DecidableEq, Repr

def Step.text : Step → String
  | .field name => "." ++ name
  | .index i => "[" ++ toString i ++ "]"

structure Location where
  start : String
  steps : List Step := []
  deriving DecidableEq, Repr

namespace Location

/-- The root of a document. -/
def root : Location := { start := "$" }

/-- A text as a location of its own. -/
def ofText (text : String) : Location := { start := text }

def step (l : Location) (s : Step) : Location := { l with steps := l.steps ++ [s] }

def field (l : Location) (name : String) : Location := l.step (.field name)

def index (l : Location) (i : Nat) : Location := l.step (.index i)

def text (l : Location) : String :=
  l.steps.foldl (fun acc s => acc ++ s.text) l.start

theorem text_step (l : Location) (s : Step) : (l.step s).text = l.text ++ s.text := by
  simp [step, text]

theorem text_field (l : Location) (name : String) : (l.field name).text = l.text ++ ("." ++ name) :=
  text_step l _

theorem text_index (l : Location) (i : Nat) :
    (l.index i).text = l.text ++ ("[" ++ toString i ++ "]") :=
  text_step l _

end Location

end FeedMerge
