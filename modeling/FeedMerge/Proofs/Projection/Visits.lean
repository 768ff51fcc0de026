import FeedMerge.Proofs.Location
import FeedMerge.Proofs.Projection.Bindings

/-!
# The objects that a projection visits

`visits` lists the objects of a document that a rule set reaches: an object before those below it,
the nested rules of a level in order, the items of an array in order. Nothing is carried along in
it. Each visit only knows the levels from the root of the document down to its own object, and from
these its context is made: the one to begin with, overlaid with the bindings of one level after the
other (`get?_context`). `Descent` tells without any order which objects are reached by which steps
through which levels, and `exists_mem_visits_iff` that the list has exactly these. So all that a
visit knows comes from the objects on the way to it.
-/

namespace FeedMerge

namespace Projection

/-- A visited object: the steps that lead to it from the root of the document, the levels above it
from the root down, and its own level. -/
structure Visit where
  steps : List Step
  above : List Level
  own : Level

namespace Visit

/-- The levels from the root of the document down to the object. -/
def levels (v : Visit) : List Level := v.above ++ [v.own]

/-- Whether a record is emitted at the object. -/
def emits (v : Visit) : Bool := Rule.emits v.own.rules

/-- The context at the object, if the document is entered with a given one. -/
def context (v : Visit) (c : Context) : Context where
  values := v.levels.foldl (fun values level => values.overlay level.bindings) c.values
  location := c.location.along v.steps
  now := c.now

/-- The visit as seen from a level above it. -/
def inside (level : Level) (v : Visit) : Visit := { v with above := level :: v.above }

/-- The visit as seen from where some steps begin. -/
def behind (steps : List Step) (v : Visit) : Visit := { v with steps := steps ++ v.steps }

end Visit

/-- The values that rules are applied to in the value of a field: the items of an array, or the
value itself. -/
def parts : Json → List (List Step × Json)
  | .array items => items.zipIdx.map fun (item, i) => ([.index i], item)
  | value => [([], value)]

/-- The visits in all parts of a value, part by part. -/
def visitsIn (visitsOf : Json → List Visit) (value : Json) : List Visit :=
  (parts value).flatMap fun (steps, part) => (visitsOf part).map (.behind steps)

/-- The visit of an object, and then those below it. -/
def visitsFrom (rules : List Rule) (below : Fields → List Visit) : Json → List Visit
  | .object fields =>
    ⟨[], [], ⟨rules, fields⟩⟩ :: (below fields).map (.inside ⟨rules, fields⟩)
  | _ => []

mutual

/-- The objects that the nested rules of a level visit, rule by rule. -/
def visitsBelow : List Rule → Fields → List Visit
  | [], _ => []
  | rule :: rules, fields => visitsOfRule rule fields ++ visitsBelow rules fields

/-- The objects that one rule of a level visits. -/
def visitsOfRule : Rule → Fields → List Visit
  | .nested source rules, fields =>
    match fields.find? source with
    | some value =>
      (visitsIn (visitsFrom rules (visitsBelow rules)) value).map (.behind [.field source])
    | none => []
  | _, _ => []

end

/-- The objects of a document that some rules visit, in order. -/
def visits (rules : List Rule) (document : Json) : List Visit :=
  visitsIn (visitsFrom rules (visitsBelow rules)) document

/-! ### Which objects are visited -/

/-- Some steps lead from a value down to an object through levels, the first of which applies the
given rules to a part of the value, and each other one those of a nested rule of the level before to
a part of the field that the rule names. -/
inductive Descent : List Rule → Json → List Step → List Level → Prop
  | here {rules : List Rule} {value : Json} {first : List Step} {fields : Fields}
      (hpart : (first, Json.object fields) ∈ parts value) :
      Descent rules value first [⟨rules, fields⟩]
  | deeper {rules inner : List Rule} {value child : Json} {first more : List Step} {fields : Fields}
      {source : String} {levels : List Level} (hpart : (first, Json.object fields) ∈ parts value)
      (hrule : Rule.nested source inner ∈ rules) (hchild : fields.find? source = some child)
      (hbelow : Descent inner child more levels) :
      Descent rules value (first ++ .field source :: more) (⟨rules, fields⟩ :: levels)

theorem visitsBelow_eq_flatMap (rules : List Rule) (fields : Fields) :
    visitsBelow rules fields = rules.flatMap (visitsOfRule · fields) := by
  induction rules with
  | nil => rfl
  | cons rule rules ih => rw [visitsBelow, List.flatMap_cons, ih]

theorem mem_visitsOfRule {source : String} {inner : List Rule} {fields : Fields} {v : Visit} :
    v ∈ visitsOfRule (.nested source inner) fields ↔
      ∃ child, fields.find? source = some child ∧
        ∃ u ∈ visits inner child, u.behind [.field source] = v := by
  unfold visitsOfRule
  cases hchild : fields.find? source with
  | none => simp
  | some child => simp [visits]

/-- A visit is of an object among the parts of the value, or comes from a nested rule of it. -/
theorem mem_visits {rules : List Rule} {value : Json} {v : Visit} :
    v ∈ visits rules value ↔ ∃ first fields, (first, Json.object fields) ∈ parts value ∧
      (v = ⟨first, [], ⟨rules, fields⟩⟩ ∨
        ∃ u ∈ visitsBelow rules fields, v = (u.inside ⟨rules, fields⟩).behind first) := by
  unfold visits visitsIn
  simp only [List.mem_flatMap, List.mem_map, Prod.exists]
  constructor
  · rintro ⟨first, part, hpart, u, hu, rfl⟩
    cases part with
    | object fields =>
      rcases List.mem_cons.mp hu with rfl | hu
      · exact ⟨first, fields, hpart, .inl (by simp [Visit.behind])⟩
      · obtain ⟨w, hw, rfl⟩ := List.mem_map.mp hu
        exact ⟨first, fields, hpart, .inr ⟨w, hw, rfl⟩⟩
    | _ => cases hu
  · rintro ⟨first, fields, hpart, rfl | ⟨u, hu, rfl⟩⟩
    · exact ⟨first, _, hpart, _, List.mem_cons_self, by simp [Visit.behind]⟩
    · exact ⟨first, _, hpart, _, List.mem_cons_of_mem _ (List.mem_map_of_mem hu), rfl⟩

/-- What is visited is reached, if that holds of what is visited below. -/
private theorem descent_of_mem_visits_of_below {rules : List Rule}
    (hbelow : ∀ rule ∈ rules, ∀ fields, ∀ v ∈ visitsOfRule rule fields,
      ∃ source inner child more, rule = .nested source inner ∧ fields.find? source = some child ∧
        v.steps = .field source :: more ∧ Descent inner child more v.levels)
    {value : Json} {v : Visit} (h : v ∈ visits rules value) :
    Descent rules value v.steps v.levels := by
  obtain ⟨first, fields, hpart, rfl | ⟨u, hu, rfl⟩⟩ := mem_visits.mp h
  · exact .here hpart
  · rw [visitsBelow_eq_flatMap] at hu
    obtain ⟨rule, hrule, hu⟩ := List.mem_flatMap.mp hu
    obtain ⟨source, inner, child, more, rfl, hchild, hsteps, hdescent⟩ := hbelow rule hrule _ u hu
    have hbehind := Descent.deeper hpart hrule hchild hdescent
    rwa [← hsteps] at hbehind

mutual

private theorem descent_of_mem_visitsOfRule : ∀ (rule : Rule) (fields : Fields),
    ∀ v ∈ visitsOfRule rule fields, ∃ source inner child more, rule = .nested source inner ∧
      fields.find? source = some child ∧ v.steps = .field source :: more ∧
      Descent inner child more v.levels
  | .nested source inner, fields, v, hv => by
    obtain ⟨child, hchild, u, hu, rfl⟩ := mem_visitsOfRule.mp hv
    exact ⟨source, inner, child, u.steps, rfl, hchild, rfl,
      descent_of_mem_visits_of_below (descent_of_mem_rules inner) hu⟩
  | .rename .., _, _, hv => nomatch hv
  | .flag .., _, _, hv => nomatch hv

private theorem descent_of_mem_rules : ∀ (rules : List Rule), ∀ rule ∈ rules,
    ∀ fields, ∀ v ∈ visitsOfRule rule fields, ∃ source inner child more,
      rule = .nested source inner ∧ fields.find? source = some child ∧
      v.steps = .field source :: more ∧ Descent inner child more v.levels
  | [], _, hrule => nomatch hrule
  | first :: rest, rule, hrule => by
    intro fields
    rcases List.mem_cons.mp hrule with hfirst | hrest
    · rw [hfirst]
      exact descent_of_mem_visitsOfRule first fields
    · exact descent_of_mem_rules rest rule hrest fields

end

/-- An object is visited by the steps and through the levels by which it is reached, and no other
way. -/
theorem exists_mem_visits_iff {rules : List Rule} {value : Json} {steps : List Step}
    {levels : List Level} :
    (∃ v ∈ visits rules value, v.steps = steps ∧ v.levels = levels) ↔
      Descent rules value steps levels := by
  constructor
  · rintro ⟨v, hv, rfl, rfl⟩
    exact descent_of_mem_visits_of_below (descent_of_mem_rules rules) hv
  · intro h
    induction h with
    | here hpart => exact ⟨_, mem_visits.mpr ⟨_, _, hpart, .inl rfl⟩, rfl, rfl⟩
    | @deeper rules inner value child first more fields source levels hpart hrule hchild _ ih =>
      obtain ⟨u, hu, rfl, rfl⟩ := ih
      have hrules : u.behind [.field source] ∈ visitsBelow rules fields := by
        rw [visitsBelow_eq_flatMap]
        exact List.mem_flatMap.mpr ⟨_, hrule, mem_visitsOfRule.mpr ⟨child, hchild, u, hu, rfl⟩⟩
      exact ⟨_, mem_visits.mpr ⟨first, fields, hpart, .inr ⟨_, hrules, rfl⟩⟩, rfl, rfl⟩

/-! ### The contexts of visits -/

/-- The values at an object are all bindings of the levels down to it, one after the other. -/
theorem values_context (v : Visit) (c : Context) :
    (v.context c).values = c.values.overlay (v.levels.flatMap Level.bindings) := by
  have hlevels (levels : List Level) : ∀ values : Fields,
      levels.foldl (fun values level => values.overlay level.bindings) values =
        values.overlay (levels.flatMap Level.bindings) := by
    induction levels with
    | nil => exact fun _ => rfl
    | cons level levels ih =>
      intro values
      rw [List.foldl_cons, ih, List.flatMap_cons, Fields.overlay_append]
  exact hlevels v.levels c.values

/-- In the context at an object a name has the value that the levels bind it to last, or else the
one that it had to begin with. -/
theorem get?_context (v : Visit) (c : Context) (name : String) :
    (v.context c).get? name =
      (Fields.last? (v.levels.flatMap Level.bindings) name).or (c.get? name) := by
  rw [Context.get?, values_context, Fields.find?_overlay]
  rfl

/-- The contexts of the visits that emit, in order. -/
def emittingContexts (c : Context) (vs : List Visit) : List Context :=
  (vs.filter Visit.emits).map (Visit.context · c)

theorem emittingContexts_append (c : Context) (first second : List Visit) :
    emittingContexts c (first ++ second) =
      emittingContexts c first ++ emittingContexts c second := by
  simp [emittingContexts]

theorem emittingContexts_cons (c : Context) (v : Visit) (vs : List Visit) :
    emittingContexts c (v :: vs) =
      (if v.emits then [v.context c] else []) ++ emittingContexts c vs := by
  unfold emittingContexts
  cases h : v.emits <;> simp [h]

theorem context_own (level : Level) (c : Context) :
    Visit.context ⟨[], [], level⟩ c = c.overlay level.bindings := by
  simp [Visit.context, Visit.levels, Context.overlay, Location.along_nil]

theorem emittingContexts_inside (c : Context) (level : Level) (vs : List Visit) :
    emittingContexts c (vs.map (.inside level)) =
      emittingContexts (c.overlay level.bindings) vs := by
  unfold emittingContexts
  rw [List.filter_map, List.map_map]
  rfl

theorem emittingContexts_behind (c : Context) (steps : List Step) (vs : List Visit) :
    emittingContexts c (vs.map (.behind steps)) =
      emittingContexts (c.descend (c.location.along steps)) vs := by
  unfold emittingContexts
  rw [List.filter_map, List.map_map]
  refine List.map_congr_left fun v _ => ?_
  simp [Visit.context, Visit.behind, Visit.levels, Context.descend, Location.along_append]

end Projection

end FeedMerge
