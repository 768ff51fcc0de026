import FeedMerge.Proofs.Projection.Checks
import FeedMerge.Proofs.Projection.Emissions

/-!
# Where a projection fails

A projection that fails has stopped at the first of its checks that fails (`FirstFailure`), and what
it has emitted are the records that were checked before. The steps that a check is listed with are
not only how the traversal came there: followed in the document, they lead to the value that is
checked (`follow?_of_mem_checks`), and they are the path of the fault. The records among the checks
are those of the visits that emit (`recordContexts_checks`), so a failing projection emits a
prefix of what the document would have given.
-/

namespace FeedMerge

/-- The value that some steps lead to. -/
def Json.follow? : Json → List Step → Option Json
  | value, [] => some value
  | .object fields, .field name :: steps => (Fields.find? fields name).bind (follow? · steps)
  | .array items, .index i :: steps => items[i]?.bind (follow? · steps)
  | _, _ => none
termination_by _ steps => steps.length

theorem Json.follow?_nil (value : Json) : value.follow? [] = some value := by
  simp [follow?]

theorem Json.follow?_append (value : Json) (first second : List Step) :
    value.follow? (first ++ second) = (value.follow? first).bind (Json.follow? · second) := by
  induction first generalizing value with
  | nil => simp [follow?]
  | cons s first ih =>
    rw [List.cons_append]
    cases value <;> cases s <;> simp [follow?, Option.bind_assoc, ih]

namespace Projection

/-! ### Where checks are made -/

/-- The steps of some checks lead from a value to what they check. -/
def Aims (value : Json) (ks : List Check) : Prop :=
  ∀ k ∈ ks, value.follow? k.steps = some k.test.subject

namespace Aims

variable {value : Json} {first second : List Check}

theorem append (hfirst : Aims value first) (hsecond : Aims value second) :
    Aims value (first ++ second) := by
  intro k hk
  exact (List.mem_append.mp hk).elim (hfirst k) (hsecond k)

theorem inside {ks : List Check} (h : Aims value ks) (level : Level) :
    Aims value (ks.map (.inside level)) := by
  intro k hk
  obtain ⟨u, hu, rfl⟩ := List.mem_map.mp hk
  exact h u hu

theorem behind {part : Json} {steps : List Step} {ks : List Check} (h : Aims part ks)
    (hsteps : value.follow? steps = some part) : Aims value (ks.map (.behind steps)) := by
  intro k hk
  obtain ⟨u, hu, rfl⟩ := List.mem_map.mp hk
  have hu := h u hu
  change value.follow? (steps ++ u.steps) = some u.test.subject
  rw [Json.follow?_append, hsteps]
  exact hu

end Aims

theorem follow?_of_mem_parts {value part : Json} {steps : List Step}
    (h : (steps, part) ∈ parts value) : value.follow? steps = some part := by
  cases value with
  | array items =>
    obtain ⟨⟨item, i⟩, hitem, heq⟩ := List.mem_map.mp h
    cases heq
    have hget : items[i]? = some part := List.mem_zipIdx_iff_getElem?.mp hitem
    simp [Json.follow?, hget]
  | _ =>
    cases List.mem_singleton.mp h
    exact Json.follow?_nil _

theorem aims_checksIn {checksOf : Json → List Check} (h : ∀ value, Aims value (checksOf value))
    (value : Json) : Aims value (checksIn checksOf value) := by
  intro k hk
  obtain ⟨⟨steps, part⟩, hpart, hk⟩ := List.mem_flatMap.mp hk
  exact (h part).behind (follow?_of_mem_parts hpart) k hk

theorem aims_checksFrom {rules : List Rule} {below : Fields → List Check}
    (hbelow : ∀ fields, Aims (.object fields) (below fields)) (value : Json) :
    Aims value (checksFrom rules below value) := by
  have hhere {test : Test} (htest : test.subject = value) :
      value.follow? (Check.here test).steps = some (Check.here test).test.subject :=
    (Json.follow?_nil value).trans (congrArg some htest.symm)
  cases value with
  | object fields =>
    refine Aims.append (Aims.append (Aims.append ?_ ?_) ?_) ((hbelow fields).inside _)
    · intro k hk
      rcases List.mem_cons.mp hk with rfl | hk
      · exact hhere rfl
      · obtain ⟨flag, -, rfl⟩ := List.mem_map.mp hk
        exact hhere rfl
    · intro k hk
      obtain ⟨rename, -, hk⟩ := List.mem_flatMap.mp hk
      rcases List.mem_cons.mp hk with rfl | hk
      · exact hhere rfl
      · obtain rfl := List.mem_singleton.mp hk
        exact hhere rfl
    · intro k hk
      split at hk
      · obtain rfl := List.mem_singleton.mp hk
        exact hhere rfl
      · cases hk
  | _ =>
    intro k hk
    obtain rfl := List.mem_singleton.mp hk
    exact hhere rfl

mutual

theorem aims_checksBelow : ∀ (rules : List Rule) (fields : Fields),
    Aims (.object fields) (checksBelow rules fields)
  | [], _ => nofun
  | rule :: rules, fields => by
    rw [checksBelow]
    exact (aims_checksOfRule rule fields).append (aims_checksBelow rules fields)

theorem aims_checksOfRule : ∀ (rule : Rule) (fields : Fields),
    Aims (.object fields) (checksOfRule rule fields)
  | .nested source rules, fields => by
    rw [checksOfRule]
    intro k hk
    rcases List.mem_cons.mp hk with rfl | hk
    · exact Json.follow?_nil _
    rcases List.mem_cons.mp hk with rfl | hk
    · exact Json.follow?_nil _
    split at hk
    · rename_i value hvalue
      have hinner : Aims value (checksIn (checksFrom rules (checksBelow rules)) value) :=
        aims_checksIn (aims_checksFrom (aims_checksBelow rules)) value
      have hfield : (Json.object fields).follow? [.field source] = some value := by
        simp [Json.follow?, hvalue]
      exact hinner.behind hfield k hk
    · cases hk
  | .rename .., _ => nofun
  | .flag .., _ => nofun

end

/-- The steps of a check lead from the document to what is checked. -/
theorem follow?_of_mem_checks {rules : List Rule} {document : Json} {k : Check}
    (h : k ∈ checks rules document) : document.follow? k.steps = some k.test.subject :=
  aims_checksIn (aims_checksFrom (aims_checksBelow rules)) document k h

/-! ### Records among the checks -/

variable {c : Context}

/-- The contexts that the records among some checks are built from. -/
def recordContexts (c : Context) (ks : List Check) : List Context :=
  ks.filterMap (Check.recordContext? c)

theorem recordContexts_append (first second : List Check) :
    recordContexts c (first ++ second) = recordContexts c first ++ recordContexts c second :=
  List.filterMap_append

theorem recordContexts_inside (level : Level) (ks : List Check) :
    recordContexts c (ks.map (.inside level)) = recordContexts (c.overlay level.bindings) ks := by
  unfold recordContexts
  rw [List.filterMap_map]
  rfl

theorem recordContexts_behind (steps : List Step) (ks : List Check) :
    recordContexts c (ks.map (.behind steps)) =
      recordContexts (c.descend (c.location.along steps)) ks := by
  unfold recordContexts
  rw [List.filterMap_map]
  have hsame : Check.recordContext? c ∘ Check.behind steps =
      Check.recordContext? (c.descend (c.location.along steps)) :=
    funext (Check.recordContext?_behind steps)
  rw [hsame]

theorem recordContexts_checksIn {checksOf : Json → List Check} {visitsOf : Json → List Visit}
    (h : ∀ c value, recordContexts c (checksOf value) = emittingContexts c (visitsOf value))
    (c : Context) (value : Json) :
    recordContexts c (checksIn checksOf value) = emittingContexts c (visitsIn visitsOf value) := by
  unfold checksIn visitsIn
  induction parts value with
  | nil => rfl
  | cons part rest ih =>
    obtain ⟨steps, part⟩ := part
    rw [List.flatMap_cons, List.flatMap_cons, recordContexts_append, emittingContexts_append, ih,
      recordContexts_behind, emittingContexts_behind, h]

theorem recordContexts_checksFrom {rules : List Rule} {below : Fields → List Check}
    {visitsBelow : Fields → List Visit}
    (hbelow : ∀ c fields, recordContexts c (below fields) = emittingContexts c (visitsBelow fields))
    (c : Context) (value : Json) :
    recordContexts c (checksFrom rules below value) =
      emittingContexts c (visitsFrom rules visitsBelow value) := by
  cases value with
  | object fields =>
    have hflags : recordContexts c ((Rule.flags rules).map (flagCheck fields)) = [] := by
      refine List.filterMap_eq_nil_iff.mpr fun k hk => ?_
      obtain ⟨flag, -, rfl⟩ := List.mem_map.mp hk
      rfl
    have hrenames : recordContexts c ((Rule.renames rules).flatMap (renameChecks fields)) = [] := by
      refine List.filterMap_eq_nil_iff.mpr fun k hk => ?_
      obtain ⟨rename, -, hk⟩ := List.mem_flatMap.mp hk
      rcases List.mem_cons.mp hk with rfl | hk
      · rfl
      · obtain rfl := List.mem_singleton.mp hk
        rfl
    have hobject : recordContexts c [.here (.isObject (.object fields))] = [] := rfl
    have hrecord : recordContexts c
        (if Rule.emits rules then [.here (.record ⟨rules, fields⟩)] else []) =
          if Rule.emits rules then [c.overlay (Level.bindings ⟨rules, fields⟩)] else [] := by
      split
      · simp [recordContexts, Check.recordContext?, Check.here, Check.context, Location.along_nil]
      · rfl
    -- of the checks at the object itself only its record counts
    rw [checksFrom, visitsFrom, ← List.singleton_append, recordContexts_append,
      recordContexts_append, recordContexts_append, recordContexts_append, hobject, hflags,
      hrenames, hrecord, recordContexts_inside, hbelow, emittingContexts_cons,
      emittingContexts_inside, context_own]
    rfl
  | _ => rfl

mutual

theorem recordContexts_checksBelow : ∀ (rules : List Rule) (c : Context) (fields : Fields),
    recordContexts c (checksBelow rules fields) = emittingContexts c (visitsBelow rules fields)
  | [], _, _ => rfl
  | rule :: rules, c, fields => by
    rw [checksBelow, visitsBelow, recordContexts_append, emittingContexts_append,
      recordContexts_checksOfRule rule c fields, recordContexts_checksBelow rules c fields]

theorem recordContexts_checksOfRule : ∀ (rule : Rule) (c : Context) (fields : Fields),
    recordContexts c (checksOfRule rule fields) = emittingContexts c (visitsOfRule rule fields)
  | .nested source rules, c, fields => by
    have hinner : ∀ c value, recordContexts c (checksFrom rules (checksBelow rules) value) =
        emittingContexts c (visitsFrom rules (visitsBelow rules) value) :=
      recordContexts_checksFrom (recordContexts_checksBelow rules)
    rw [checksOfRule, visitsOfRule]
    change recordContexts c (match fields.find? source with | some value => _ | none => _) = _
    cases fields.find? source with
    | none => rfl
    | some value =>
      dsimp only
      rw [recordContexts_behind, emittingContexts_behind, recordContexts_checksIn hinner]
  | .rename .., _, _ => rfl
  | .flag .., _, _ => rfl

end

/-- The records among the checks of a document are those of the visits that emit, in order. -/
theorem recordContexts_checks (rules : List Rule) (c : Context) (document : Json) :
    recordContexts c (checks rules document) = emittingContexts c (visits rules document) :=
  recordContexts_checksIn (recordContexts_checksFrom (recordContexts_checksBelow rules)) c document

/-- Checks that pass emit the records that are built from their contexts. -/
theorem readings_of_pass {ks : List Check} (h : ∀ k ∈ ks, k.failure? c = none) :
    ((ks.filterMap (Check.emission? c)).map (·.reading)).map .ok =
      (recordContexts c ks).map build := by
  induction ks with
  | nil => rfl
  | cons k ks ih =>
    obtain ⟨hk, hrest⟩ := List.forall_mem_cons.mp h
    have ih := ih hrest
    unfold recordContexts at ih ⊢
    unfold Check.failure? at hk
    rw [List.filterMap_cons, List.filterMap_cons, Check.emission?]
    cases hrecord : k.recordContext? c with
    | none => exact ih
    | some recorded =>
      rw [hrecord] at hk
      dsimp only at hk ⊢
      cases hbuild : build recorded with
      | error error =>
        rw [hbuild] at hk
        cases hk
      | ok reading => simp [hbuild, ih]

/-! ### The first failure -/

/-- A record that cannot be built has a fault of its reading, at the place of its context. -/
theorem exists_cause_of_build_error {recorded : Context} {fault : Fault}
    (h : build recorded = .error (.fault fault)) :
    ∃ cause : Cause, cause.category = .reading ∧ fault = ⟨cause, recorded.location, none⟩ := by
  unfold build at h
  dsimp only at h
  split at h
  · split at h
    · cases h
    · cases h
      exact ⟨_, rfl, rfl⟩
    · cases h
  · cases h
    exact ⟨_, rfl, rfl⟩

theorem Test.category_of_cause? {test : Test} {cause : Cause} (h : test.cause? = some cause) :
    cause.category = .mapping := by
  unfold Test.cause? at h
  repeat' split at h
  all_goals cases h
  all_goals rfl

/-- What goes wrong in a projection is told of a mapping or of a reading, never of a configuration,
and at the place of the check. -/
theorem exists_cause_of_failure {k : Check} {fault : Fault}
    (h : k.failure? c = some (.fault fault)) :
    ∃ cause : Cause, (cause.category = .mapping ∨ cause.category = .reading) ∧
      fault = ⟨cause, c.location.along k.place, none⟩ := by
  unfold Check.failure? at h
  cases hrecord : k.recordContext? c with
  | none =>
    rw [hrecord] at h
    obtain ⟨cause, hcause, heq⟩ := Option.map_eq_some_iff.mp h
    cases heq
    exact ⟨cause, .inl (Test.category_of_cause? hcause), rfl⟩
  | some recorded =>
    have hplace : recorded.location = c.location.along k.place := by
      unfold Check.recordContext? at hrecord
      split at hrecord
      · rename_i own htest
        cases hrecord
        simp [Check.place, htest, Test.place, Context.overlay, Check.context]
      · cases hrecord
    rw [hrecord] at h
    dsimp only at h
    cases hbuild : build recorded with
    | ok reading =>
      rw [hbuild] at h
      cases h
    | error error =>
      rw [hbuild] at h
      cases h
      obtain ⟨cause, hcategory, rfl⟩ := exists_cause_of_build_error hbuild
      exact ⟨cause, .inr hcategory, by rw [hplace]⟩

/-- Going through a document under some rules ends at a check: every check before it passes, it
fails with the error, and what it checks is where its steps lead to in the document. A fault of its
own is located there, or at the field that it is about. -/
structure FirstFailure (rules : List Rule) (document : Json) (c : Context) (before : List Check)
    (k : Check) (error : Error) : Prop where
  order : ∃ after, checks rules document = before ++ k :: after
  passed : ∀ passed ∈ before, passed.failure? c = none
  fails : k.failure? c = some error
  leads : document.follow? k.steps = some k.test.subject
  located : ∀ fault, error = .fault fault → fault.location = c.location.along k.place ∧
    fault.location.text = k.place.foldl (fun text s => text ++ s.text) c.location.text

/-- A projection that fails has emitted what was checked before the first failure. -/
theorem exists_firstFailure {rules : List Rule} {document : Json} {error : Error}
    (h : (ofDocument rules c document).error = some error) :
    ∃ before k, FirstFailure rules document c before k error ∧
      (ofDocument rules c document).emissions = before.filterMap (Check.emission? c) := by
  rw [ofDocument_eq_runChecks] at h ⊢
  obtain ⟨before, k, after, hsplit, hbefore, hk⟩ := exists_first_failure h
  have hmem : k ∈ checks rules document := by
    rw [hsplit]
    simp
  refine ⟨before, k, ⟨⟨after, hsplit⟩, hbefore, hk, follow?_of_mem_checks hmem, ?_⟩, ?_⟩
  · rintro fault rfl
    obtain ⟨cause, -, rfl⟩ := exists_cause_of_failure hk
    exact ⟨rfl, Location.text_along _ _⟩
  · rw [hsplit, runChecks_of_failure hbefore hk]

end Projection

namespace Session

open Projection

theorem error_of_step_project {s : Session} {location : Location} {declared : Json}
    {mapping : Mapping} (hmapping : Mapping.ofJson location declared = .ok mapping)
    {document : Json} {context : Context} {error : Merge.Error}
    (h : (s.step (.project declared document context)).2.result = .error error) :
    ∃ failure, (ofDocument mapping.rules context document).error = some failure ∧
      error = .ofProjection failure := by
  rw [step_project s hmapping] at h
  unfold stepProjection resultOf at h
  dsimp only at h
  split at h
  · cases h
  · rename_i failure hfailure
    cases h
    exact ⟨failure, hfailure, rfl⟩

/-- When a document cannot be projected into the sink, the error is that of the first check that
fails. The sink is continued by the records that were checked before, in order, which are the first
ones of those that the visits of the document would give, and no count of records is reported. -/
theorem project_stops_at_first_failure {s : Session} {location : Location}
    {declared document : Json} {context : Context} {mapping : Mapping} {error : Merge.Error}
    (hmapping : Mapping.ofJson location declared = .ok mapping)
    (h : (s.step (.project declared document context)).2.result = .error error) :
    ∃ before k failure records,
      FirstFailure mapping.rules document context before k failure ∧
      error = .ofProjection failure ∧
      (s.step (.project declared document context)).1.sink = s.sink ++ records ∧
      records.map .ok = (recordContexts context before).map build ∧
      recordContexts context before <+: emittingContexts context (visits mapping.rules document) ∧
      (s.step (.project declared document context)).2.journal.metrics = [] := by
  obtain ⟨failure, hfailure, rfl⟩ := error_of_step_project hmapping h
  obtain ⟨before, k, hfirst, hemissions⟩ := exists_firstFailure hfailure
  refine ⟨before, k, failure, (ofDocument mapping.rules context document).readings, hfirst, rfl,
    sink_step_project s hmapping document context, ?_, ?_, ?_⟩
  · rw [readings, hemissions]
    exact readings_of_pass hfirst.passed
  · obtain ⟨after, hsplit⟩ := hfirst.order
    rw [← recordContexts_checks, hsplit, recordContexts_append]
    exact List.prefix_append _ _
  · rw [step_project s hmapping]
    simp [stepProjection, Merge.projectionJournal, hfailure]

/-- A company whose first sensor is complete, but for the value of its second further reading. -/
def brokenDocument : Json :=
  let sensor (id : Int) (more : List Fields) : Json :=
    .object [("Id", .int id), ("Kind", .string "T"), ("More", .array (more.map .object)),
      ("Name", .string "north"), ("Reading", .int 20)]
  .array [.object [("Id", .int 1), ("Name", .string "Acme"), ("At", .string "2024-01-01"),
    ("Sensors", .array [sensor 7 [[("Name", .string "attic"), ("Reading", .int 21)],
      [("Name", .string "roof")]], sensor 8 []])]]

/-- The record of the sensor and of its first further reading are emitted, then a field is missing.
-/
theorem project_stops_inside_a_sensor :
    ∃ mapping error before k failure records,
      Mapping.ofJson .root sampleDeclaration = .ok mapping ∧
      (step {} (.project sampleDeclaration brokenDocument (.empty .start))).2.result =
        .error error ∧
      (step {} (.project sampleDeclaration brokenDocument (.empty .start))).1.sink.length = 2 ∧
      FirstFailure mapping.rules brokenDocument (.empty .start) before k failure ∧
      error = .ofProjection failure ∧
      (step {} (.project sampleDeclaration brokenDocument (.empty .start))).1.sink = [] ++ records ∧
      records.map .ok = (recordContexts (.empty .start) before).map build ∧
      recordContexts (.empty .start) before <+:
        emittingContexts (.empty .start) (visits mapping.rules brokenDocument) ∧
      (step {} (.project sampleDeclaration brokenDocument (.empty .start))).2.journal.metrics =
        [] := by
  cases hmapping : Mapping.ofJson .root sampleDeclaration with
  | error fault =>
    have hread : (Mapping.ofJson .root sampleDeclaration).isOk = true := by decide +kernel
    rw [hmapping] at hread
    cases hread
  | ok mapping =>
    have hstep :
        (step {} (.project sampleDeclaration brokenDocument (.empty .start))).2.result.isOk =
          false := by decide +kernel
    cases h : (step {} (.project sampleDeclaration brokenDocument (.empty .start))).2.result with
    | ok answer =>
      rw [h] at hstep
      cases hstep
    | error error =>
      obtain ⟨before, k, failure, records, hfirst⟩ := project_stops_at_first_failure hmapping h
      exact ⟨mapping, error, before, k, failure, records, rfl, rfl, by decide +kernel, hfirst⟩

end Session

end FeedMerge
