import FeedMerge.Proofs.Engine.Refusal
import FeedMerge.Proofs.Merge.Effect

/-!
# Which source is blamed

The sources of an operation are loaded and projected in order into one sink, and the first that
fails ends the operation (`SourceFails`, `Blamed`). By then the engine holds the readings of the
sources before it and some of its own. What comes behind has not been looked at: a run over some
sources that stops is the same whatever is appended to them (`runSources_append_of_error`), and it
depends on the files only as far as they were loaded (`runSources_congr_of_load`).
-/

namespace FeedMerge

namespace Merge

variable {settings : Settings} {now : Timestamp} {tree : FileTree} {op : Operation}
  {source : Operation.Source} {mapping : Mapping} {error : Error}

/-! ### Sources that fail -/

/-- What a source fails with by itself: its document cannot be loaded, or not be projected. -/
inductive SourceFails (settings : Settings) (now : Timestamp) (tree : FileTree) (op : Operation)
    (source : Operation.Source) : Error → Prop
  | load {error : Error} (hload : load tree (sourcePath settings source) = .error error) :
      SourceFails settings now tree op source error
  | projection {mapping : Mapping} {document : Json} {error : Projection.Error}
      (hmapping : op.transformations.lookup source.transformation = some mapping)
      (hload : Merge.load tree (sourcePath settings source) = .ok document)
      (herror : (Projection.ofDocument mapping.rules (.empty now) document).error = some error) :
      SourceFails settings now tree op source (.ofProjection error)

theorem projectSource_eq_error_iff (hmapping : op.mappingFor source = .ok mapping) :
    (projectSource settings now tree source mapping).2 = .error error ↔
      SourceFails settings now tree op source error := by
  rw [result_projectSource]
  constructor
  · intro h
    cases hload : load tree (settings.resolve (.ofText source.file)) with
    | error own =>
      rw [hload] at h
      cases h
      exact .load hload
    | ok document =>
      rw [hload] at h
      dsimp only at h
      cases herror : (Projection.ofDocument mapping.rules (.empty now) document).error with
      | none =>
        rw [herror] at h
        cases h
      | some own =>
        rw [herror] at h
        cases h
        exact .projection (lookup_of_mappingFor hmapping) hload herror
  · intro h
    cases h with
    | load hload =>
      rw [sourcePath] at hload
      rw [hload]
    | projection hown hload herror =>
      obtain rfl := Option.some.inj (hown.symm.trans (lookup_of_mappingFor hmapping))
      rw [sourcePath] at hload
      rw [hload]
      dsimp only
      rw [herror]

theorem runSource_of_sourceFails (hmapping : op.mappingFor source = .ok mapping)
    (h : SourceFails settings now tree op source error) :
    (runSource settings now tree op source mapping).2 =
      .error (error.during ⟨op.label, source.file, source.transformation⟩) := by
  rw [result_runSource, (projectSource_eq_error_iff hmapping).mpr h]
  rfl

theorem exists_runSource_of_not_sourceFails (hmapping : op.mappingFor source = .ok mapping)
    (h : ¬ ∃ error, SourceFails settings now tree op source error) :
    ∃ readings, (runSource settings now tree op source mapping).2 = .ok readings := by
  rw [result_runSource]
  cases hproject : (projectSource settings now tree source mapping).2 with
  | error own => exact absurd ⟨own, (projectSource_eq_error_iff hmapping).mp hproject⟩ h
  | ok readings => exact ⟨readings, rfl⟩

/-! ### What is told of them -/

/-- How an operation tells the error of a source: a fault keeps its cause and its place, and its
wording follows what was being worked on; any other error is told as it is. -/
inductive Blamed (op : Operation) (source : Operation.Source) : Error → Error → Prop
  | fault {own told : Fault} (hcause : told.cause = own.cause)
      (hlocation : told.location = own.location)
      (hmessage : told.message =
        s!"{op.label}, source '{source.file}' (transformation '{source.transformation}')" ++ ": " ++
          own.message) :
      Blamed op source (.fault own) (.fault told)
  | other {error : Error} (hother : ∀ fault, error ≠ .fault fault) : Blamed op source error error

/-- A fault of a source names no source yet. -/
theorem source_eq_none_of_sourceFails {fault : Fault}
    (h : SourceFails settings now tree op source (.fault fault)) : fault.source = none := by
  generalize herror : Error.fault fault = error at h
  cases h with
  | load hload =>
    rw [← herror] at hload
    exact absurd hload (documentOf_ne_fault _ fault)
  | @projection _ _ own _ _ hprojection =>
    cases own with
    | timestamp cause => cases herror
    | fault own =>
      cases herror
      obtain ⟨passed, k, hfirst⟩ := error_eq_some_iff.mp hprojection
      obtain ⟨cause, -, rfl⟩ := Projection.exists_cause_of_failure hfirst.fails
      rfl

theorem during_eq_self (h : ∀ fault, error ≠ .fault fault) (a : Attribution) :
    error.during a = error := by
  cases error with
  | fault fault => exact absurd rfl (h fault)
  | _ => rfl

theorem blamed_during (h : SourceFails settings now tree op source error) :
    Blamed op source error (error.during ⟨op.label, source.file, source.transformation⟩) := by
  by_cases hfault : ∃ fault, error = .fault fault
  · obtain ⟨fault, rfl⟩ := hfault
    have hown : fault.message = fault.ownMessage := by
      rw [Fault.message, source_eq_none_of_sourceFails h]
    refine .fault rfl rfl ?_
    rw [hown]
    rfl
  · have hother : ∀ fault, error ≠ .fault fault := not_exists.mp hfault
    rw [during_eq_self hother]
    exact .other hother

/-! ### Planning with other sources behind -/

theorem resolveSources_of_mappingFor {planned : List (Operation.Source × Mapping)}
    (h : ∀ p ∈ planned, op.mappingFor p.1 = .ok p.2) :
    resolveSources op (planned.map Prod.fst) = .ok planned := by
  induction planned with
  | nil => rfl
  | cons first rest ih =>
    obtain ⟨hfirst, hrest⟩ := List.forall_mem_cons.mp h
    rw [List.map_cons, resolveSources, hfirst, ih hrest]
    rfl

/-- The sources of an operation make no difference to what a source refers to. -/
theorem resolveSources_with_sources (others sources : List Operation.Source) :
    resolveSources { op with sources := others } sources = resolveSources op sources := by
  induction sources with
  | nil => rfl
  | cons source sources ih =>
    rw [resolveSources, resolveSources, ih]
    rfl

theorem exists_plan_with_sources {before after : List (Operation.Source × Mapping)}
    {others : List Operation.Source} (hplan : plan op = .ok (before ++ after))
    (hothers : ∀ s ∈ others, s.transformation ∈ op.ids) :
    ∃ behind, behind.length = others.length ∧
      plan { op with sources := before.map Prod.fst ++ others } = .ok (before ++ behind) := by
  have hkind : op.kind = Operation.mergeKind := by
    by_contra hkind
    rw [plan, if_neg hkind] at hplan
    cases hplan
  have hresolved := mappingFor_of_resolveSources (resolveSources_of_plan hplan)
  obtain ⟨behind, hbehind⟩ := exists_resolveSources hothers
  obtain rfl := map_fst_of_resolveSources hbehind
  refine ⟨behind, (List.length_map _).symm, ?_⟩
  rw [plan, if_pos hkind, resolveSources_with_sources, ← List.map_append]
  refine resolveSources_of_mappingFor fun p hp => (List.mem_append.mp hp).elim (fun hp => ?_)
    (mappingFor_of_resolveSources hbehind p)
  exact hresolved p (List.mem_append_left _ hp)

end Merge

namespace Engine

open Merge

variable {now : Timestamp} {op : Operation} {tree : FileTree}

/-- Behind a source that fails nothing is looked at. -/
theorem runSources_append_of_error {first : List (Operation.Source × Mapping)} {error : Error}
    (e : Engine) (sink : List Reading)
    (h : (e.runSources now tree op sink first).2.2 = .error error)
    (more : List (Operation.Source × Mapping)) :
    e.runSources now tree op sink (first ++ more) = e.runSources now tree op sink first := by
  induction first generalizing e sink with
  | nil => cases h
  | cons p first ih =>
    obtain ⟨source, mapping⟩ := p
    rw [List.cons_append, runSources, runSources]
    rw [runSources] at h
    rcases hsource : e.runSource now tree op sink source mapping with
      ⟨next, journal, own | continued⟩
    · rfl
    · rw [hsource] at h
      dsimp only at h ⊢
      rw [ih next continued h]

theorem runSources_congr_of_load {other : FileTree} {planned : List (Operation.Source × Mapping)}
    (others : List Operation.Source) (e : Engine) (sink : List Reading)
    (h : ∀ p ∈ planned,
      load other (sourcePath e.settings p.1) = load tree (sourcePath e.settings p.1)) :
    e.runSources now other { op with sources := others } sink planned =
      e.runSources now tree op sink planned := by
  induction planned generalizing e sink with
  | nil => rfl
  | cons p planned ih =>
    obtain ⟨source, mapping⟩ := p
    obtain ⟨hfirst, hrest⟩ := List.forall_mem_cons.mp h
    have hsource : e.runSource now other { op with sources := others } sink source mapping =
        e.runSource now tree op sink source mapping := by
      rw [sourcePath] at hfirst
      rw [runSource, runSource, hfirst]
      rfl
    have hsettings := @settings_runSource now tree op e sink source mapping
    rw [runSources, runSources, hsource]
    rcases hrun : e.runSource now tree op sink source mapping with ⟨next, journal, own | continued⟩
    · rfl
    · rw [hrun] at hsettings
      dsimp only at hsettings ⊢
      rw [ih next continued (hsettings ▸ hrest)]

theorem run_of_error {planned : List (Operation.Source × Mapping)} {e next : Engine}
    {journal : Journal} {error : Error} (hplan : plan op = .ok planned)
    (hsources : e.runSources now tree op [] planned = (next, journal, .error error)) :
    e.run now tree op =
      (next, ⟨.error error, startJournal op planned ++ journal ++ .metric .operationError,
        tree⟩) := by
  rw [run, runPlan, hplan]
  dsimp only
  rw [hsources]
  rfl

/-- Where the sources before one go through and it fails, the sources behind it are not run. -/
theorem exists_runSources_of_failure {before : List (Operation.Source × Mapping)}
    {failing : Operation.Source × Mapping} {error : Error} (e : Engine)
    (hmapping : ∀ p ∈ before ++ [failing], op.mappingFor p.1 = .ok p.2)
    (hbefore : ∀ p ∈ before, ¬ ∃ error, SourceFails e.settings now tree op p.1 error)
    (hfailing : SourceFails e.settings now tree op failing.1 error) :
    ∃ next journal, ∀ more, e.runSources now tree op [] (before ++ failing :: more) =
      (next, journal,
        .error (error.during ⟨op.label, failing.1.file, failing.1.transformation⟩)) := by
  obtain ⟨hpassed, hknown⟩ := List.forall_mem_append.mp hmapping
  have hown := hknown failing (List.mem_singleton_self _)
  have hstop := Merge.runSources_eq_error_iff.mpr ⟨before, failing.1, failing.2, [], rfl,
    fun p hp => exists_runSource_of_not_sourceFails (hpassed p hp) (hbefore p hp),
    runSource_of_sourceFails hown hfailing⟩
  have hresult := congrArg Prod.snd (@runSources_eq now tree op e [] (before ++ [failing]))
  rcases hrun : e.runSources now tree op [] (before ++ [failing]) with ⟨next, journal, result⟩
  rw [hrun, hstop] at hresult
  obtain rfl : result = .error _ := hresult
  refine ⟨next, journal, fun more => ?_⟩
  rw [← List.singleton_append, ← List.append_assoc,
    runSources_append_of_error e [] (congrArg (·.2.2) hrun) more, hrun]

/-- With other files and other sources behind the one that fails, the run stops there as well. -/
theorem run_with_sources_of_failure {before after : List (Operation.Source × Mapping)}
    {failing : Operation.Source × Mapping} {others : List Operation.Source} {files : FileTree}
    {e next : Engine} {journal : Journal} {told : Error}
    (hplan : plan op = .ok (before ++ failing :: after))
    (hrun : e.runSources now tree op [] (before ++ [failing]) = (next, journal, .error told))
    (hlength : others.length = after.length) (hothers : ∀ s ∈ others, s.transformation ∈ op.ids)
    (hload : ∀ p ∈ before ++ [failing],
      load files (sourcePath e.settings p.1) = load tree (sourcePath e.settings p.1)) :
    e.run now files { op with sources := before.map Prod.fst ++ failing.1 :: others } =
      (next, ⟨.error told, startJournal op (before ++ failing :: after) ++ journal ++
        .metric .operationError, files⟩) := by
  have hstopped := (runSources_congr_of_load (before.map Prod.fst ++ failing.1 :: others) e []
    hload).trans hrun
  rw [List.append_cons] at hplan
  obtain ⟨behind, hbehind, hother⟩ := exists_plan_with_sources hplan hothers
  rw [List.map_append, List.map_singleton, ← List.append_cons] at hother
  have hsources := runSources_append_of_error e [] (congrArg (·.2.2) hstopped) behind
  rw [hstopped] at hsources
  have hcount : (before ++ [failing] ++ behind).length = (before ++ failing :: after).length := by
    rw [← List.append_cons, List.length_append, List.length_append, List.length_cons,
      List.length_cons, hbehind, hlength]
  rw [run_of_error hother hsources, startJournal, startJournal, hcount]
  rfl

/-- Every operation of the right kind whose references are declared: if some source cannot be
loaded or projected, the operation ends with the error of the first such source in order, told with
what was being worked on, and leaves the files as they are. With as many other sources behind that
one, whatever they are and whatever files there are, if only those read by then are the same, the
engine ends the operation with the same error and the same journal. -/
theorem first_failing_source_is_blamed (op : Operation) (hkind : op.kind = Operation.mergeKind)
    (hsources : ∀ s ∈ op.sources, s.transformation ∈ op.ids) (e : Engine) (now : Timestamp)
    (tree : FileTree)
    (hfails : ∃ s ∈ op.sources, ∃ error, SourceFails e.settings now tree op s error) :
    ∃ before source after error told, op.sources = before ++ source :: after ∧
      (∀ s ∈ before, ¬ ∃ other, SourceFails e.settings now tree op s other) ∧
      SourceFails e.settings now tree op source error ∧ Blamed op source error told ∧
      (e.run now tree op).2.result = .error told ∧ (e.run now tree op).2.tree = tree ∧
      ∀ (others : List Operation.Source) (files : FileTree), others.length = after.length →
        (∀ s ∈ others, s.transformation ∈ op.ids) →
        (∀ s ∈ before ++ [source],
          files.read (sourcePath e.settings s) = tree.read (sourcePath e.settings s)) →
        e.run now files { op with sources := before ++ source :: others } =
          ((e.run now tree op).1, { (e.run now tree op).2 with tree := files }) := by
  obtain ⟨planned, hplan⟩ := exists_plan hkind hsources
  have hmapping := mappingFor_of_resolveSources (resolveSources_of_plan hplan)
  have hfst := map_fst_of_resolveSources (resolveSources_of_plan hplan)
  have hsome : ∃ p ∈ planned, ∃ error, SourceFails e.settings now tree op p.1 error := by
    obtain ⟨s, hs, hfails⟩ := hfails
    obtain ⟨p, hp, rfl⟩ := List.mem_map.mp (hfst ▸ hs)
    exact ⟨p, hp, hfails⟩
  obtain ⟨before, failing, after, rfl, hbefore, error, hfailing⟩ := List.exists_first hsome
  have hknown : ∀ p ∈ before ++ [failing], op.mappingFor p.1 = .ok p.2 := fun p hp =>
    hmapping p (by rw [List.append_cons]; exact List.mem_append_left _ hp)
  obtain ⟨next, journal, hrun⟩ := exists_runSources_of_failure e hknown hbefore hfailing
  have hended := run_of_error hplan (hrun after)
  refine ⟨before.map Prod.fst, failing.1, after.map Prod.fst, error, _, ?_, ?_, hfailing,
    blamed_during hfailing, ?_, ?_, fun others files hlength hothers hfiles => ?_⟩
  · rw [← hfst, List.map_append, List.map_cons]
  · exact List.forall_mem_map.mpr hbefore
  · rw [hended]
  · rw [hended]
  · have hload : ∀ p ∈ before ++ [failing],
        load files (sourcePath e.settings p.1) = load tree (sourcePath e.settings p.1) := by
      intro p hp
      have hsource : p.1 ∈ (before ++ [failing]).map Prod.fst := List.mem_map_of_mem hp
      rw [List.map_append] at hsource
      rw [load, load, hfiles p.1 hsource]
    rw [List.length_map] at hlength
    rw [hended, run_with_sources_of_failure hplan (hrun []) hlength hothers hload]

/-- Of three sources the second lacks a field, and the third is not there. -/
def brokenTree : FileTree :=
  sampleTree.plant ["work", "c.json"] (.file "[\x7b\"Id\": 8\x7d]".toUTF8)

def brokenOperation : Operation :=
  { sampleOperation "summaries.json" with
    sources := [⟨"a.json", "flat"⟩, ⟨"c.json", "flat"⟩, ⟨"d.json", "flat"⟩] }

/-- The field is told of, and not the file that is missing. -/
theorem second_source_is_blamed :
    ∃ before source after error told, brokenOperation.sources = before ++ source :: after ∧
      SourceFails {} .start brokenTree brokenOperation source error ∧
      Blamed brokenOperation source error told ∧
      ((start {}).run .start brokenTree brokenOperation).2.result = .error told ∧
      told.message = "operation #0 (merge -> summaries.json), source 'c.json' " ++
        "(transformation 'flat'): $[0].isTemperature: source field 'Name' not found" := by
  have hkind : brokenOperation.kind = Operation.mergeKind := rfl
  have hknown : ∀ s ∈ brokenOperation.sources, s.transformation ∈ brokenOperation.ids := by decide
  have hmissing : (load brokenTree (sourcePath {} ⟨"d.json", "flat"⟩)).isOk = false := by
    decide +kernel
  have hfails : ∃ s ∈ brokenOperation.sources, ∃ error,
      SourceFails (start {}).settings .start brokenTree brokenOperation s error := by
    refine ⟨⟨"d.json", "flat"⟩, by simp [brokenOperation], ?_⟩
    cases hload : load brokenTree (sourcePath {} ⟨"d.json", "flat"⟩) with
    | error error => exact ⟨error, .load hload⟩
    | ok document =>
      rw [hload] at hmissing
      cases hmissing
  obtain ⟨before, source, after, error, told, hsplit, -, hfailing, hblamed, hresult, -⟩ :=
    first_failing_source_is_blamed brokenOperation hkind hknown (start {}) .start brokenTree hfails
  refine ⟨before, source, after, error, told, hsplit, hfailing, hblamed, hresult, ?_⟩
  have hmessage : (((start {}).run .start brokenTree brokenOperation).2.result.mapError
      Error.message).map (fun _ => ()) =
        .error ("operation #0 (merge -> summaries.json), source 'c.json' " ++
          "(transformation 'flat'): $[0].isTemperature: source field 'Name' not found") := by
    decide +kernel
  rw [hresult] at hmessage
  exact Except.error.inj hmessage

end Engine

end FeedMerge
