import FeedMerge.Proofs.Merge.Course
import FeedMerge.Proofs.Projection.Failure
import FeedMerge.Proofs.Summary.Grouping
import FeedMerge.Proofs.Timestamp.Utc

/-!
# Numbers out of range

Of the errors that end an operation two come from arithmetic: a moment that lies beyond the calendar
once it is brought to UTC, and an id that cannot be kept in the table of readings. `Overflows` tells
from the operation and the files when an operation ends with such an error, and
`run_eq_outOfRange_iff` says that it tells all of them.
-/

namespace FeedMerge

/-- Every field has a value, and that of the moment lies beyond the calendar. -/
def Context.IsBeyondCalendar (c : Context) : Prop :=
  c.draft.missing = [] ∧
    ∃ v, c.get? Reading.Field.createdAt.name = some v ∧ Timestamp.IsBeyondCalendar c.now v

namespace Projection

theorem mapError_rejected_ne {α : Type} (result : Reading.Collected α)
    (error : Timestamp.RangeError) :
    result.mapError Reading.Draft.Failure.rejected ≠ .error (.outOfRange error) := by
  cases result <;> simp [Except.mapError]

/-- Whatever is wrong with other fields, a moment beyond the calendar is what a record fails by. -/
theorem read_eq_outOfRange_iff {d : Reading.Draft} {now : Timestamp}
    {error : Timestamp.RangeError} :
    d.read now = .error (.outOfRange error) ↔
      ∃ source, d.createdAt = some source ∧ Timestamp.ofSource now source = .error error := by
  unfold Reading.Draft.read Reading.Draft.takeTimestamp
  cases d.createdAt with
  | none => simp [mapError_rejected_ne]
  | some source =>
    cases hsource : Timestamp.ofSource now source with
    | error other => simp [hsource]
    | ok result => cases result <;> simp [hsource, mapError_rejected_ne]

theorem build_eq_timestamp_iff {c : Context} {error : Timestamp.RangeError} :
    build c = .error (.timestamp error) ↔ c.IsBeyondCalendar := by
  have hsource : (∃ source, c.draft.createdAt = some source ∧
      Timestamp.ofSource c.now source = .error error) ↔
        ∃ v, c.get? Reading.Field.createdAt.name = some v ∧
          Timestamp.IsBeyondCalendar c.now v := by
    unfold Context.draft Reading.Draft.ofFields Context.get?
    cases c.values.find? Reading.Field.createdAt.name with
    | none => simp
    | some v => simp [Timestamp.ofSource_eq_error_iff]
  unfold Context.IsBeyondCalendar build
  rw [← hsource, ← read_eq_outOfRange_iff, ← List.isEmpty_iff]
  dsimp only
  cases c.draft.missing.isEmpty with
  | false => simp
  | true =>
    cases c.draft.read c.now with
    | ok reading => simp
    | error failure => cases failure <;> simp

theorem failure?_eq_timestamp_iff {k : Check} {c : Context} {error : Timestamp.RangeError} :
    k.failure? c = some (.timestamp error) ↔
      ∃ recorded, k.recordContext? c = some recorded ∧ recorded.IsBeyondCalendar := by
  unfold Check.failure?
  cases k.recordContext? c with
  | none => simp
  | some recorded =>
    have hbuild := @build_eq_timestamp_iff recorded error
    cases hrecorded : build recorded with
    | ok reading => simp [← hbuild, hrecorded]
    | error other => simp [← hbuild, hrecorded]

end Projection

namespace Merge

variable {settings : Settings} {now : Timestamp} {tree : FileTree} {op : Operation}

/-! ### Sources in order -/

theorem result_projectSource (settings : Settings) (now : Timestamp) (tree : FileTree)
    (source : Operation.Source) (mapping : Mapping) :
    (projectSource settings now tree source mapping).2 =
      match load tree (settings.resolve (.ofText source.file)) with
      | .error error => .error error
      | .ok document =>
        match (Projection.ofDocument mapping.rules (.empty now) document).error with
        | some error => .error (.ofProjection error)
        | none => .ok (Projection.ofDocument mapping.rules (.empty now) document).readings := by
  unfold projectSource
  cases load tree (settings.resolve (.ofText source.file)) <;> rfl

theorem result_runSource (source : Operation.Source) (mapping : Mapping) :
    (runSource settings now tree op source mapping).2 =
      (projectSource settings now tree source mapping).2.mapError
        (·.during ⟨op.label, source.file, source.transformation⟩) := by
  unfold runSource
  rcases projectSource settings now tree source mapping with ⟨journal, _ | readings⟩ <;> rfl

theorem runSource_eq_ok_iff {source : Operation.Source} {mapping : Mapping}
    {readings : List Reading} (hmapping : op.mappingFor source = .ok mapping) :
    (runSource settings now tree op source mapping).2 = .ok readings ↔
      SourceReadings settings now tree op source readings := by
  constructor
  · exact fun h => sourceReadings_of_runSource hmapping (Prod.ext rfl h)
  · rintro ⟨found, document, hfound, hdocument, herror, hreadings⟩
    obtain rfl : found = mapping :=
      Option.some.inj (hfound.symm.trans (lookup_of_mappingFor hmapping))
    rw [result_runSource, result_projectSource, hdocument]
    dsimp only
    rw [herror, hreadings]
    rfl

/-- The readings of some sources, from those of each. -/
theorem runSources_of_sourceReadings {sources : List Operation.Source}
    {planned : List (Operation.Source × Mapping)} {parts : List (List Reading)}
    (hplanned : resolveSources op sources = .ok planned)
    (hparts : List.Forall₂ (SourceReadings settings now tree op) sources parts) :
    (runSources settings now tree op planned).2 = .ok parts.flatten := by
  induction hparts generalizing planned with
  | nil =>
    cases hplanned
    rfl
  | @cons source own sources parts hown hparts ih =>
    unfold resolveSources at hplanned
    split at hplanned
    · cases hplanned
    · rename_i mapping hmapping
      obtain ⟨rest, hrest, rfl⟩ := Except.map_eq_ok.mp hplanned
      have hfirst := (runSource_eq_ok_iff hmapping).mpr hown
      unfold runSources
      rcases hrun : runSource settings now tree op source mapping with ⟨journal, _ | readings⟩
      · rw [hrun] at hfirst
        cases hfirst
      · rw [hrun] at hfirst
        cases hfirst
        dsimp only
        rw [ih hrest]
        rfl

/-- Sources fail with the error of the first that fails. -/
theorem runSources_eq_error_iff {planned : List (Operation.Source × Mapping)} {error : Error} :
    (runSources settings now tree op planned).2 = .error error ↔
      ∃ before source mapping after, planned = before ++ (source, mapping) :: after ∧
        (∀ p ∈ before, ∃ readings, (runSource settings now tree op p.1 p.2).2 = .ok readings) ∧
        (runSource settings now tree op source mapping).2 = .error error := by
  induction planned with
  | nil => simp [runSources]
  | cons first rest ih =>
    obtain ⟨source, mapping⟩ := first
    unfold runSources
    rcases hfirst : runSource settings now tree op source mapping with ⟨journal, other | readings⟩
    · constructor
      · intro h
        refine ⟨[], source, mapping, rest, rfl, List.forall_mem_nil _, ?_⟩
        rw [hfirst]
        exact h
      · rintro ⟨before, failing, own, after, hsplit, hbefore, herror⟩
        cases before with
        | nil =>
          obtain ⟨hfailing, -⟩ := List.cons.inj hsplit
          cases hfailing
          rwa [hfirst] at herror
        | cons passed before =>
          obtain ⟨rfl, -⟩ := List.cons.inj hsplit
          obtain ⟨readings, hreadings⟩ := (List.forall_mem_cons.mp hbefore).1
          rw [hfirst] at hreadings
          cases hreadings
    · dsimp only
      rw [Except.map_eq_error, ih]
      constructor
      · rintro ⟨before, failing, own, after, rfl, hbefore, herror⟩
        refine ⟨(source, mapping) :: before, failing, own, after, rfl, ?_, herror⟩
        exact List.forall_mem_cons.mpr ⟨⟨readings, by rw [hfirst]⟩, hbefore⟩
      · rintro ⟨before, failing, own, after, hsplit, hbefore, herror⟩
        cases before with
        | nil =>
          obtain ⟨hfailing, -⟩ := List.cons.inj hsplit
          cases hfailing
          rw [hfirst] at herror
          cases herror
        | cons passed before =>
          obtain ⟨-, rfl⟩ := List.cons.inj hsplit
          exact ⟨before, failing, own, after, rfl, (List.forall_mem_cons.mp hbefore).2, herror⟩

/-! ### Operations out of range -/

/-- Errors of numbers out of range. -/
def Error.isOutOfRange : Error → Bool
  | timestamp _ | size _ => true
  | _ => false

/-- An operation ends with a number out of range: at the first check that fails in the first source
that fails, which is that of a record with a moment beyond the calendar; or behind the last source,
by an id that is not kept. -/
inductive Overflows (settings : Settings) (now : Timestamp) (tree : FileTree) (op : Operation) :
    Error → Prop
  | moment {before after : List (Operation.Source × Mapping)} {source : Operation.Source}
      {mapping : Mapping} {document : Json} {passed : List Projection.Check}
      {k : Projection.Check} {recorded : Context} {error : Timestamp.RangeError}
      (hplan : plan op = .ok (before ++ (source, mapping) :: after))
      (hbefore : ∀ p ∈ before, ∃ readings, SourceReadings settings now tree op p.1 readings)
      (hload : load tree (settings.resolve (.ofText source.file)) = .ok document)
      (hfirst : Projection.FirstFailure mapping.rules document (.empty now) passed k
        (.timestamp error))
      (hrecord : k.recordContext? (.empty now) = some recorded)
      (hbeyond : recorded.IsBeyondCalendar) : Overflows settings now tree op (.timestamp error)
  | id {planned : List (Operation.Source × Mapping)} {parts : List (List Reading)}
      (hplan : plan op = .ok planned)
      (hparts : List.Forall₂ (SourceReadings settings now tree op) op.sources parts)
      (hids : ¬ (Summary.IdsAreKept (parts.flatten.map (·.companyId)) ∧
        Summary.IdsAreKept (parts.flatten.map (·.deviceId)))) :
      Overflows settings now tree op (.size .idTooLarge)

theorem isOutOfRange_of_documentOf {content : Except FileError ByteArray} {error : Error}
    (h : documentOf content = .error error) : error.isOutOfRange = false := by
  cases content with
  | error cause =>
    cases h
    rfl
  | ok bytes =>
    cases hbytes : Document.ofBytes bytes with
    | error cause =>
      rw [documentOf, hbytes] at h
      cases h
      rfl
    | ok document =>
      rw [documentOf, hbytes] at h
      cases h

/-- An error out of range is told as it is, without what was being worked on. -/
theorem Error.during_eq_iff {error other : Error} {source : Attribution}
    (h : other.isOutOfRange = true) : error.during source = other ↔ error = other := by
  cases error <;> cases other <;> simp_all [during, isOutOfRange]

/-- A source out of range has a document with a record out of range. -/
theorem runSource_eq_outOfRange_iff {source : Operation.Source} {mapping : Mapping}
    {error : Error} (h : error.isOutOfRange = true) :
    (runSource settings now tree op source mapping).2 = .error error ↔
      ∃ document cause, load tree (settings.resolve (.ofText source.file)) = .ok document ∧
        (Projection.ofDocument mapping.rules (.empty now) document).error =
          some (.timestamp cause) ∧
        .timestamp cause = error := by
  rw [result_runSource, result_projectSource]
  cases hload : load tree (settings.resolve (.ofText source.file)) with
  | error other =>
    have hother := isOutOfRange_of_documentOf hload
    have hne : other ≠ error := fun heq => by simp [heq, h] at hother
    simp [Except.mapError, Error.during_eq_iff h, hne]
  | ok document =>
    cases herror : (Projection.ofDocument mapping.rules (.empty now) document).error with
    | none => simp [herror, Except.mapError]
    | some other =>
      cases other with
      | fault fault =>
        have hne : Error.fault fault ≠ error := fun heq => by simp [← heq, Error.isOutOfRange] at h
        simp [herror, Except.mapError, Error.during_eq_iff h, Error.ofProjection, hne]
      | timestamp cause =>
        have hunique : (∃ other, Error.timestamp other = error) ↔ .timestamp cause = error :=
          ⟨fun ⟨other, heq⟩ => by cases other; cases cause; exact heq, fun heq => ⟨cause, heq⟩⟩
        simp [herror, Except.mapError, Error.during_eq_iff h, Error.ofProjection, hunique]

/-- The error of a projection is that of the first check that fails. -/
theorem error_eq_some_iff {rules : List Rule} {c : Context} {document : Json}
    {error : Projection.Error} :
    (Projection.ofDocument rules c document).error = some error ↔
      ∃ passed k, Projection.FirstFailure rules document c passed k error := by
  constructor
  · intro h
    obtain ⟨passed, k, hfirst, -⟩ := Projection.exists_firstFailure h
    exact ⟨passed, k, hfirst⟩
  · rintro ⟨passed, k, hfirst⟩
    obtain ⟨after, hsplit⟩ := hfirst.order
    rw [Projection.ofDocument_eq_runChecks, hsplit,
      Projection.runChecks_of_failure hfirst.passed hfirst.fails]

theorem Course.overflows {outcome : Outcome} {error : Error}
    (hcourse : Course settings now tree op outcome) (h : outcome.result = .error error)
    (hrange : error.isOutOfRange = true) : Overflows settings now tree op error := by
  cases hcourse with
  | refused hplan =>
    cases h
    cases hrange
  | stopped hplan hsources =>
    cases h
    -- only a record of the document can be out of range, neither its file nor its text
    obtain ⟨before, source, mapping, after, rfl, hbefore, herror⟩ :=
      runSources_eq_error_iff.mp (congrArg Prod.snd hsources)
    obtain ⟨document, cause, hload, hprojected, rfl⟩ :=
      (runSource_eq_outOfRange_iff hrange).mp herror
    obtain ⟨passed, k, hfirst⟩ := error_eq_some_iff.mp hprojected
    obtain ⟨recorded, hrecord, hbeyond⟩ := Projection.failure?_eq_timestamp_iff.mp hfirst.fails
    have hmapping := mappingFor_of_resolveSources (resolveSources_of_plan hplan)
    refine .moment hplan (fun p hp => ?_) hload hfirst hrecord hbeyond
    obtain ⟨readings, hreadings⟩ := hbefore p hp
    exact ⟨readings,
      (runSource_eq_ok_iff (hmapping p (List.mem_append_left _ hp))).mp hreadings⟩
  | @unsummarised _ _ _ error hplan hsources hsummaries =>
    cases h
    cases error
    obtain ⟨parts, hparts, rfl⟩ :=
      sourceReadings_of_runSources (resolveSources_of_plan hplan) hsources
    exact .id hplan hparts (Summary.ofReadings_eq_error_iff.mp hsummaries)
  | unwritten hplan hsources hsummaries hwrite =>
    cases h
    cases hrange
  | written => cases h

theorem result_runPlan {planned : List (Operation.Source × Mapping)} (h : plan op = .ok planned) :
    (runPlan settings now tree op).result =
      match (runSources settings now tree op planned).2 with
      | .error error => .error error
      | .ok readings => (finish settings tree op readings).result := by
  unfold runPlan
  rw [h]
  dsimp only
  rcases runSources settings now tree op planned with ⟨journal, _ | readings⟩ <;> rfl

/-- An operation ends with an error out of range exactly if it overflows. -/
theorem run_eq_outOfRange_iff {error : Error} :
    (run settings now tree op).result = .error error ∧ error.isOutOfRange = true ↔
      Overflows settings now tree op error := by
  constructor
  · rintro ⟨h, hrange⟩
    exact (runPlan_course settings now tree op).overflows h hrange
  · intro h
    show (runPlan settings now tree op).result = _ ∧ _
    cases h with
    | @moment before after source mapping document passed k recorded error hplan hbefore hload
        hfirst hrecord hbeyond =>
      have hmapping := mappingFor_of_resolveSources (resolveSources_of_plan hplan)
      have hpassed : ∀ p ∈ before, ∃ readings,
          (runSource settings now tree op p.1 p.2).2 = .ok readings := by
        intro p hp
        obtain ⟨readings, hreadings⟩ := hbefore p hp
        exact ⟨readings,
          (runSource_eq_ok_iff (hmapping p (List.mem_append_left _ hp))).mpr hreadings⟩
      have hfails : (runSource settings now tree op source mapping).2 = .error (.timestamp error) :=
        (runSource_eq_outOfRange_iff rfl).mpr
          ⟨document, error, hload, error_eq_some_iff.mpr ⟨passed, k, hfirst⟩, rfl⟩
      refine ⟨?_, rfl⟩
      rw [result_runPlan hplan, runSources_eq_error_iff.mpr
        ⟨before, source, mapping, after, rfl, hpassed, hfails⟩]
    | @id planned parts hplan hparts hids =>
      refine ⟨?_, rfl⟩
      rw [result_runPlan hplan,
        runSources_of_sourceReadings (resolveSources_of_plan hplan) hparts]
      dsimp only
      rw [finish, Summary.ofReadings_eq_error_iff.mpr hids]

end Merge

end FeedMerge
