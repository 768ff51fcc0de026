import FeedMerge.Projection
import FeedMerge.Proofs.Result

/-!
# What a level binds

A level is a rule set together with the object that it is applied to. What it binds is said here
without the evaluation that stops at the first fault: each flag stands for whether its predicate
holds, each rename for the value of its field. Where a level is resolved at all, `resolve` gives
exactly these bindings (`bindings_of_resolve`), and a context that is overlaid with bindings shows
for each name the last of them (`Fields.find?_overlay`).
-/

namespace FeedMerge

namespace Fields

/-- The last value that some bindings give to a name. -/
def last? (bindings : Fields) (name : String) : Option Json := bindings.reverse.lookup name

theorem last?_cons (binding : String × Json) (bindings : Fields) (name : String) :
    last? (binding :: bindings) name =
      (bindings.last? name).or (if name = binding.1 then some binding.2 else none) := by
  obtain ⟨key, value⟩ := binding
  unfold last?
  rw [List.reverse_cons, List.lookup_append]
  congr 1
  by_cases h : name = key
  · simp [h]
  · have hne : (name == key) = false := by simpa using h
    simp [List.lookup_cons, h, hne]

theorem overlay_append (fields first second : Fields) :
    fields.overlay (first ++ second) = (fields.overlay first).overlay second :=
  List.foldl_append

/-- A later binding of a name replaces an earlier one, and any binding the value before. -/
theorem find?_overlay (fields updates : Fields) (name : String) :
    (fields.overlay updates).find? name = (updates.last? name).or (fields.find? name) := by
  induction updates generalizing fields with
  | nil => rfl
  | cons binding updates ih =>
    obtain ⟨key, value⟩ := binding
    have hcons : fields.overlay ((key, value) :: updates) =
        (fields.bind key value).overlay updates := rfl
    rw [hcons, ih, last?_cons, Option.or_assoc]
    congr 1
    by_cases h : name = key
    · subst h
      rw [find?_bind_self]
      simp
    · rw [find?_bind_of_ne _ _ h]
      simp [h]

end Fields

/-- Whether a predicate holds of an object: it has the field, and its comparison text is the
literal. -/
def Predicate.holds (p : Predicate) (fields : Fields) : Bool :=
  match fields.find? p.field with
  | some value => value.comparisonText = p.literal
  | none => false

theorem Predicate.eq_holds_of_evaluate {p : Predicate} {location : Location} {fields : Fields}
    {truth : Bool} (h : p.evaluate location fields = .ok truth) : truth = p.holds fields := by
  unfold evaluate at h
  unfold holds
  split at h
  · cases h
  · rename_i value hvalue
    split at h
    · rw [hvalue]
      simpa using h.symm
    · cases h

namespace Projection

/-- Some rules and the object that they are applied to. -/
structure Level where
  rules : List Rule
  fields : Fields

/-- The values of the flags of a level, then those of its renames. -/
def Level.bindings (l : Level) : Fields :=
  ((Rule.flags l.rules).map fun (target, predicate) =>
    (target, Json.bool (predicate.holds l.fields))) ++
  (Rule.renames l.rules).filterMap fun (source, target) =>
    (l.fields.find? source).map fun value => (target, value)

theorem eq_map_of_resolveFlags {location : Location} {fields values : Fields}
    {flags : List (String × Predicate)} (h : resolveFlags location fields flags = .ok values) :
    values = flags.map fun (target, predicate) =>
      (target, Json.bool (predicate.holds fields)) := by
  induction flags generalizing values with
  | nil =>
    cases h
    rfl
  | cons flag rest ih =>
    obtain ⟨target, predicate⟩ := flag
    unfold resolveFlags at h
    split at h
    · cases h
    · rename_i truth htruth
      obtain ⟨more, hrest, rfl⟩ := Except.map_eq_ok.mp h
      rw [List.map_cons, ← ih hrest, Predicate.eq_holds_of_evaluate htruth]

theorem find?_of_lookup {location : Location} {fields : Fields} {name : String} {value : Json}
    (h : lookup location fields name = .ok value) : fields.find? name = some value := by
  unfold lookup at h
  split at h
  · rename_i found hfound
    cases h
    exact hfound
  · cases h

theorem eq_filterMap_of_resolveRenames {location : Location} {fields values : Fields}
    {renames : List (String × String)} (h : resolveRenames location fields renames = .ok values) :
    values = renames.filterMap fun (source, target) =>
      (fields.find? source).map fun value => (target, value) := by
  induction renames generalizing values with
  | nil =>
    cases h
    rfl
  | cons rename rest ih =>
    obtain ⟨source, target⟩ := rename
    unfold resolveRenames at h
    split at h
    · cases h
    · rename_i value hvalue
      split at h
      · obtain ⟨more, hrest, rfl⟩ := Except.map_eq_ok.mp h
        rw [List.filterMap_cons_some (b := (target, value)), ← ih hrest]
        simp [find?_of_lookup hvalue]
      · cases h

/-- A level that is resolved without a fault gives its bindings. -/
theorem bindings_of_resolve {rules : List Rule} {location : Location} {fields values : Fields}
    (h : resolve rules location fields = .ok values) : values = Level.bindings ⟨rules, fields⟩ := by
  unfold resolve at h
  split at h
  · cases h
  · rename_i flags hflags
    obtain ⟨renames, hrenames, rfl⟩ := Except.map_eq_ok.mp h
    rw [Level.bindings, ← eq_map_of_resolveFlags hflags, ← eq_filterMap_of_resolveRenames hrenames]

end Projection

end FeedMerge
