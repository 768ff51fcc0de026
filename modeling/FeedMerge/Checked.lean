/-!
# Collecting defects

A checked value is a value or a list of defects. Where several parts are checked on their own,
`both` keeps the defects of all of them, in order, instead of stopping at the first.
-/

namespace FeedMerge

/-- A value, or the defects that keep it from being one. -/
abbrev Checked (ε α : Type) := Except (List ε) α

namespace Checked

/-- Two values at once; the defects of both are kept, in order. -/
def both {ε α β : Type} (a : Checked ε α) (b : Checked ε β) : Checked ε (α × β) :=
  match a, b with
  | .ok x, .ok y => .ok (x, y)
  | .ok _, .error defects => .error defects
  | .error defects, .ok _ => .error defects
  | .error first, .error second => .error (first ++ second)

/-- The defects of a checked value. -/
def defects {ε α : Type} : Checked ε α → List ε
  | .ok _ => []
  | .error defects => defects

theorem both_eq_ok {ε α β : Type} {a : Checked ε α} {b : Checked ε β} {x : α} {y : β} :
    a.both b = .ok (x, y) ↔ a = .ok x ∧ b = .ok y := by
  cases a <;> cases b <;> simp [both]

theorem defects_both {ε α β : Type} (a : Checked ε α) (b : Checked ε β) :
    (a.both b).defects = a.defects ++ b.defects := by
  cases a <;> cases b <;> simp [both, defects]

end Checked

end FeedMerge
