import FeedMerge.Proofs.Mapping.Relocation
import FeedMerge.Proofs.Projection.Visits
import FeedMerge.Session

/-!
# What a projection emits

A projection that goes through emits one record for each visited object whose level emits, in the
order of the visits, and the record is built from the context of the visit (`madeFrom_ofDocument`).
The induction is on the rules, with the context left general, since every level hands a larger one
down; `MadeFrom` is what it carries, and sequencing projections adds their contexts up. A step of a
session appends these records to its sink.
-/

namespace FeedMerge

namespace Projection

/-! ### Projections that go through -/

/-- A projection that, if it goes through, emits one record for each of some contexts, in order,
built from it. -/
def MadeFrom (p : Projection) (contexts : List Context) : Prop :=
  p.error = none →
    p.emissions.map (·.context) = contexts ∧ p.readings.map .ok = contexts.map build

theorem madeFrom_nothing : MadeFrom nothing [] :=
  fun _ => ⟨rfl, rfl⟩

theorem madeFrom_failed (error : Error) (contexts : List Context) :
    MadeFrom (failed error) contexts :=
  fun h => nomatch h

theorem MadeFrom.andThen {p q : Projection} {first second : List Context}
    (hp : MadeFrom p first) (hq : MadeFrom q second) :
    MadeFrom (p.andThen q) (first ++ second) := by
  intro h
  obtain ⟨emissions, error⟩ := p
  cases error with
  | some error => cases h
  | none =>
    obtain ⟨hfirst, hfirstReadings⟩ := hp rfl
    obtain ⟨hsecond, hsecondReadings⟩ := hq h
    constructor
    · rw [← hfirst, ← hsecond]
      exact List.map_append
    · rw [List.map_append, ← hfirstReadings, ← hsecondReadings, ← List.map_append]
      exact congrArg _ List.map_append

theorem madeFrom_emit (rules : List Rule) (c : Context) :
    MadeFrom (emit rules c) (if Rule.emits rules then [c] else []) := by
  unfold emit
  split
  · split
    · rename_i reading hreading
      exact fun _ => ⟨rfl, by simp [readings, hreading]⟩
    · exact madeFrom_failed _ _
  · exact madeFrom_nothing

theorem madeFrom_visit {rules : List Rule} {below : Fields → Context → Projection}
    {visitsBelow : Fields → List Visit}
    (hbelow : ∀ fields c, MadeFrom (below fields c) (emittingContexts c (visitsBelow fields)))
    (c : Context) (value : Json) :
    MadeFrom (visit rules below c value)
      (emittingContexts c (visitsFrom rules visitsBelow value)) := by
  cases value with
  | object fields =>
    unfold visit visitsFrom
    dsimp only
    split
    · exact madeFrom_failed _ _
    · rename_i values hvalues
      rw [emittingContexts_cons, context_own, emittingContexts_inside,
        ← bindings_of_resolve hvalues]
      exact (madeFrom_emit rules _).andThen (hbelow fields _)
  | _ => exact madeFrom_failed _ _

theorem madeFrom_visitItems {one : Context → Json → Projection} {visitsOf : Json → List Visit}
    (hone : ∀ c value, MadeFrom (one c value) (emittingContexts c (visitsOf value)))
    (c : Context) (location : Location) (items : List Json) (i : Nat) :
    MadeFrom (visitItems one c location i items)
      (emittingContexts (c.descend location) ((items.zipIdx i).flatMap fun (item, i) =>
        (visitsOf item).map (.behind [.index i]))) := by
  induction items generalizing i with
  | nil => exact madeFrom_nothing
  | cons item items ih =>
    rw [List.zipIdx_cons, List.flatMap_cons, emittingContexts_append, emittingContexts_behind]
    exact (hone _ item).andThen (ih (i + 1))

theorem visitsIn_array (visitsOf : Json → List Visit) (items : List Json) :
    visitsIn visitsOf (.array items) =
      items.zipIdx.flatMap fun (item, i) => (visitsOf item).map (.behind [.index i]) := by
  simp [visitsIn, parts, List.flatMap_map]

theorem visitsIn_of_kind_ne (visitsOf : Json → List Visit) {value : Json}
    (h : value.kind ≠ .array) : visitsIn visitsOf value = visitsOf value := by
  have hbehind : Visit.behind [] = id := rfl
  cases value with
  | array items => exact absurd rfl h
  | _ => simp [visitsIn, parts, hbehind]

theorem madeFrom_visitField {one : Context → Json → Projection} {visitsOf : Json → List Visit}
    (hone : ∀ c value, MadeFrom (one c value) (emittingContexts c (visitsOf value)))
    (c : Context) (location : Location) (value : Json) :
    MadeFrom (visitField one c location value)
      (emittingContexts (c.descend location) (visitsIn visitsOf value)) := by
  cases value with
  | array items =>
    rw [visitsIn_array]
    exact madeFrom_visitItems hone c location items 0
  | object fields =>
    rw [visitsIn_of_kind_ne visitsOf (by simp [Json.kind])]
    exact hone _ _
  | _ => exact madeFrom_failed _ _

mutual

theorem madeFrom_descend : ∀ (rules : List Rule) (fields : Fields) (c : Context),
    MadeFrom (descend rules fields c) (emittingContexts c (visitsBelow rules fields))
  | [], _, _ => madeFrom_nothing
  | rule :: rules, fields, c => by
    rw [descend, visitsBelow, emittingContexts_append]
    exact (madeFrom_descendRule rule fields c).andThen (madeFrom_descend rules fields c)

theorem madeFrom_descendRule : ∀ (rule : Rule) (fields : Fields) (c : Context),
    MadeFrom (descendRule rule fields c) (emittingContexts c (visitsOfRule rule fields))
  | .nested source rules, fields, c => by
    rw [descendRule]
    split
    · exact madeFrom_failed _ _
    · rename_i value hvalue
      rw [visitsOfRule, find?_of_lookup hvalue, emittingContexts_behind]
      exact madeFrom_visitField (madeFrom_visit (madeFrom_descend rules)) c _ value
  | .rename .., _, _ => madeFrom_nothing
  | .flag .., _, _ => madeFrom_nothing

end

/-- A document that is projected without an error gives the records of the visits that emit. -/
theorem madeFrom_ofDocument (rules : List Rule) (c : Context) (document : Json) :
    MadeFrom (ofDocument rules c document) (emittingContexts c (visits rules document)) := by
  have hone : ∀ c value, MadeFrom (ofValue rules c value)
      (emittingContexts c (visitsFrom rules (visitsBelow rules) value)) :=
    madeFrom_visit (madeFrom_descend rules)
  unfold visits
  cases document with
  | array items =>
    rw [visitsIn_array]
    exact madeFrom_visitItems hone c c.location items 0
  | _ =>
    rw [visitsIn_of_kind_ne _ (by simp [Json.kind])]
    exact hone c _

end Projection

/-! ### The sink -/

namespace Session

open Projection

theorem step_project (s : Session) {location : Location} {declared : Json} {mapping : Mapping}
    (hmapping : Mapping.ofJson location declared = .ok mapping) (document : Json)
    (context : Context) :
    s.step (.project declared document context) =
      s.stepProjection true (.ok (ofDocument mapping.rules context document)) fun p =>
        .sinkLength (s.sink.length + p.readings.length) := by
  simp only [step, projectDeclared, Mapping.ofJson_relocate hmapping .root, Except.map]

theorem sink_step_project (s : Session) {location : Location} {declared : Json} {mapping : Mapping}
    (hmapping : Mapping.ofJson location declared = .ok mapping) (document : Json)
    (context : Context) :
    (s.step (.project declared document context)).1.sink =
      s.sink ++ (ofDocument mapping.rules context document).readings := by
  rw [step_project s hmapping]
  rfl

theorem error_eq_none_of_step_project {s : Session} {location : Location} {declared : Json}
    {mapping : Mapping} (hmapping : Mapping.ofJson location declared = .ok mapping)
    {document : Json} {context : Context} {answer : Answer}
    (h : (s.step (.project declared document context)).2.result = .ok answer) :
    (ofDocument mapping.rules context document).error = none := by
  rw [step_project s hmapping] at h
  unfold stepProjection resultOf at h
  dsimp only at h
  split at h
  · assumption
  · cases h

/-- When a document is projected into the sink without an error, the sink is continued by exactly
one record for each visited object whose level emits, in the order of the visits. Each record is
built from the context that the levels from the root down to its object make of the one to begin
with, in which the last binding of a name counts; and the visited objects with their levels are
those that the document is descended to by the rules. -/
theorem project_appends_visits {s : Session} {location : Location} {declared document : Json}
    {context : Context} {mapping : Mapping} {answer : Answer}
    (hmapping : Mapping.ofJson location declared = .ok mapping)
    (h : (s.step (.project declared document context)).2.result = .ok answer) :
    (∃ records, (s.step (.project declared document context)).1.sink = s.sink ++ records ∧
      records.map .ok = ((visits mapping.rules document).filter Visit.emits).map fun v =>
        build (v.context context)) ∧
    (∀ v ∈ visits mapping.rules document, ∀ name, (v.context context).get? name =
      (Fields.last? (v.levels.flatMap Level.bindings) name).or (context.get? name)) ∧
    ∀ steps levels, (∃ v ∈ visits mapping.rules document, v.steps = steps ∧ v.levels = levels) ↔
      Descent mapping.rules document steps levels := by
  refine ⟨⟨(ofDocument mapping.rules context document).readings, ?_, ?_⟩, ?_, ?_⟩
  · exact sink_step_project s hmapping document context
  · have herror := error_eq_none_of_step_project hmapping h
    have hreadings := (madeFrom_ofDocument mapping.rules context document herror).2
    rw [hreadings, emittingContexts, List.map_map]
    rfl
  · exact fun v _ => get?_context v context
  · exact fun steps levels => exists_mem_visits_iff

/-- A level for the company, one for its sensors, and one for further readings of a sensor, under
the names of the sensor or of their own. -/
def sampleDeclaration : Json :=
  .object [("Id", .string "CompanyId"), ("Name", .string "CompanyName"), ("At", .string "Dtm"),
    ("Sensors", .object [("isTemperature", .string "Kind == T"),
      ("isHumidity", .string "Kind == H"), ("Id", .string "DeviceId"),
      ("Name", .string "DeviceName"), ("Reading", .string "Value"),
      ("More", .object [("Name", .string "DeviceName"), ("Reading", .string "Value")])])]

/-- The rules that `sampleDeclaration` declares. -/
def sampleRules : List Rule :=
  [.rename "Id" "CompanyId", .rename "Name" "CompanyName", .rename "At" "Dtm",
    .nested "Sensors" [.flag "isTemperature" ⟨"Kind", "T"⟩, .flag "isHumidity" ⟨"Kind", "H"⟩,
      .rename "Id" "DeviceId", .rename "Name" "DeviceName", .rename "Reading" "Value",
      .nested "More" [.rename "Name" "DeviceName", .rename "Reading" "Value"]]]

/-- One company with two sensors, the first of which has two further readings. -/
def sampleDocument : Json :=
  let reading (name : String) (value : Int) : Fields :=
    [("Name", .string name), ("Reading", .int value)]
  let sensor (id : Int) (kind name : String) (value : Int) (more : List Fields) : Json :=
    .object ([("Id", .int id), ("Kind", .string kind), ("More", .array (more.map .object))] ++
      reading name value)
  .array [.object [("Id", .int 1), ("Name", .string "Acme"), ("At", .string "2024-01-01"),
    ("Sensors", .array [sensor 7 "T" "north" 20 [reading "attic" 21, reading "roof" 19],
      sensor 8 "H" "south" 60 []])]]

/-- Four records of two sensors, the inner ones between the outer ones. -/
theorem project_appends_inner_visits :
    ∃ mapping answer, Mapping.ofJson .root sampleDeclaration = .ok mapping ∧
      (step {} (.project sampleDeclaration sampleDocument (.empty .start))).2.result = .ok answer ∧
      (∃ records, (step {} (.project sampleDeclaration sampleDocument (.empty .start))).1.sink =
          [] ++ records ∧
        records.map .ok = ((visits mapping.rules sampleDocument).filter Visit.emits).map fun v =>
          build (v.context (.empty .start))) ∧
      (∀ v ∈ visits mapping.rules sampleDocument, ∀ name, (v.context (.empty .start)).get? name =
        (Fields.last? (v.levels.flatMap Level.bindings) name).or
          ((Context.empty .start).get? name)) ∧
      ∀ steps levels,
        (∃ v ∈ visits mapping.rules sampleDocument, v.steps = steps ∧ v.levels = levels) ↔
          Descent mapping.rules sampleDocument steps levels := by
  cases hmapping : Mapping.ofJson .root sampleDeclaration with
  | error fault =>
    have hread : (Mapping.ofJson .root sampleDeclaration).isOk = true := by decide +kernel
    rw [hmapping] at hread
    cases hread
  | ok mapping =>
    have hstep :
        (step {} (.project sampleDeclaration sampleDocument (.empty .start))).2.result.isOk =
          true := by decide +kernel
    cases h : (step {} (.project sampleDeclaration sampleDocument (.empty .start))).2.result with
    | error error =>
      rw [h] at hstep
      cases hstep
    | ok answer =>
      exact ⟨mapping, answer, rfl, rfl, project_appends_visits hmapping h⟩

end Session

end FeedMerge
