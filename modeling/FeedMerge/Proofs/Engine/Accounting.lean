import FeedMerge.Proofs.Engine.Attribution
import FeedMerge.Proofs.Summary.Grouping

/-!
# What an operation counts

An operation counts the readings of each source that went through, in order, and says each count in
a line of the log (`Counted`); a source that fails is not counted, whatever it had emitted by then.
Behind the sources stand the number of summaries, if it came to that, and one closing metric. So the
journal of an operation is known from what its sources contribute (`Accounts`), and the counts add
up to the readings that are summarised.
-/

namespace FeedMerge

namespace Journal

theorem empty_append (a : Journal) : Journal.empty ++ a = a := rfl

theorem append_assoc (a b c : Journal) : a ++ b ++ c = a ++ (b ++ c) :=
  congrArg₂ Journal.mk (List.append_assoc _ _ _) (List.append_assoc _ _ _)

/-- The lines that are logged whatever the settings are. -/
def plainLogs (j : Journal) : List LogLine := j.logs.filter (·.level ≠ .debug)

theorem plainLogs_append (a b : Journal) : (a ++ b).plainLogs = a.plainLogs ++ b.plainLogs :=
  List.filter_append _ _

end Journal

namespace Merge

variable {settings : Settings} {now : Timestamp} {tree : FileTree} {op : Operation}
  {source : Operation.Source} {mapping : Mapping} {readings : List Reading}
  {summaries : List Summary} {error : Error}
  {parts : List (List Reading)} {planned : List (Operation.Source × Mapping)}

/-- What the log says when a source went through. -/
def projectedLine (source : Operation.Source) (readings : List Reading) : LogLine :=
  ⟨.info,
    s!"Projected {readings.length} record(s) from '{source.file}' via '{source.transformation}'"⟩

/-- A journal counts what some sources contribute, and says each count in a line of its own. -/
structure Counted (sources : List Operation.Source) (parts : List (List Reading))
    (journal : Journal) : Prop where
  metrics_eq : journal.metrics = parts.map (.recordsProjected ·.length)
  logs_eq : journal.plainLogs = List.zipWith projectedLine sources parts

/-! ### One source -/

theorem plainLogs_projection (verbose : Bool) (p : Projection) :
    (projectionJournal verbose p).plainLogs = [] := by
  refine List.filter_eq_nil_iff.mpr fun line hline => ?_
  unfold projectionJournal emissionLines at hline
  dsimp only at hline
  split at hline
  · obtain ⟨e, -, rfl⟩ := List.mem_map.mp hline
    simp
  · cases hline

theorem plainLogs_projectSource (source : Operation.Source) (mapping : Mapping) :
    (projectSource settings now tree source mapping).1.plainLogs = [] := by
  unfold projectSource
  cases load tree (settings.resolve (.ofText source.file)) with
  | error error => rfl
  | ok document => exact plainLogs_projection _ _

/-- A source is counted where it goes through, and only there. -/
theorem metrics_projectSource (source : Operation.Source) (mapping : Mapping) :
    (projectSource settings now tree source mapping).1.metrics =
      match (projectSource settings now tree source mapping).2 with
      | .ok readings => [.recordsProjected readings.length]
      | .error _ => [] := by
  unfold projectSource
  cases load tree (settings.resolve (.ofText source.file)) with
  | error error => rfl
  | ok document =>
    change (projectionJournal _
      (Projection.ofDocument mapping.rules (.empty now) document)).metrics = _
    unfold projectDocument projectionJournal
    dsimp only
    cases (Projection.ofDocument mapping.rules (.empty now) document).error with
    | none => simp [Projection.readings]
    | some error => rfl

theorem exists_runSource_of_sourceReadings (hmapping : op.mappingFor source = .ok mapping)
    (h : SourceReadings settings now tree op source readings) :
    ∃ journal, runSource settings now tree op source mapping = (journal, .ok readings) ∧
      Counted [source] [readings] journal := by
  have hresult := (runSource_eq_ok_iff hmapping).mpr h
  rw [result_runSource, Except.mapError_eq_ok] at hresult
  have hlogs := @plainLogs_projectSource settings now tree source mapping
  have hmetrics := @metrics_projectSource settings now tree source mapping
  rw [runSource]
  rcases hproject : projectSource settings now tree source mapping with ⟨journal, result⟩
  rw [hproject] at hresult hlogs hmetrics
  obtain rfl : result = .ok readings := hresult
  refine ⟨_, rfl, (metrics_append_log _ _ _).trans hmetrics, ?_⟩
  rw [Journal.plainLogs_append, hlogs]
  rfl

theorem plainLogs_failureLines (op : Operation) (source : Operation.Source) (error : Error) :
    (Journal.mk (failureLines op source error) []).plainLogs = failureLines op source error := by
  refine List.filter_eq_self.mpr fun line hline => ?_
  unfold failureLines at hline
  split at hline
  · obtain rfl := List.mem_singleton.mp hline
    rfl
  · split at hline
    · obtain rfl := List.mem_singleton.mp hline
      rfl
    · cases hline

/-- Whatever a source has emitted when it fails, it is not counted. -/
theorem exists_runSource_of_sourceFails (hmapping : op.mappingFor source = .ok mapping)
    (h : SourceFails settings now tree op source error) :
    ∃ journal, runSource settings now tree op source mapping =
        (journal, .error (error.during ⟨op.label, source.file, source.transformation⟩)) ∧
      journal.metrics = [] ∧ journal.plainLogs = failureLines op source error := by
  have hresult := (projectSource_eq_error_iff hmapping).mpr h
  have hlogs := @plainLogs_projectSource settings now tree source mapping
  have hmetrics := @metrics_projectSource settings now tree source mapping
  rw [runSource]
  rcases hproject : projectSource settings now tree source mapping with ⟨journal, result⟩
  rw [hproject] at hresult hlogs hmetrics
  obtain rfl : result = .error error := hresult
  refine ⟨_, rfl, ?_, ?_⟩
  · rw [Journal.metrics_append, hmetrics]
    rfl
  · rw [Journal.plainLogs_append, hlogs, plainLogs_failureLines]
    rfl

/-! ### Several sources -/

theorem Counted.append {first second : List Operation.Source} {others : List (List Reading)}
    {journal more : Journal} (hfirst : Counted first parts journal)
    (hsecond : Counted second others more) (hlength : first.length = parts.length) :
    Counted (first ++ second) (parts ++ others) (journal ++ more) where
  metrics_eq := by
    rw [Journal.metrics_append, hfirst.metrics_eq, hsecond.metrics_eq, List.map_append]
  logs_eq := by
    rw [Journal.plainLogs_append, hfirst.logs_eq, hsecond.logs_eq, List.zipWith_append hlength]

/-- Sources that go through are counted, and those behind them are run as if they were the first. -/
theorem exists_runSources_append (hmapping : ∀ p ∈ planned, op.mappingFor p.1 = .ok p.2)
    (hparts : List.Forall₂ (SourceReadings settings now tree op) (planned.map Prod.fst) parts)
    (rest : List (Operation.Source × Mapping)) :
    ∃ journal, Counted (planned.map Prod.fst) parts journal ∧
      runSources settings now tree op (planned ++ rest) =
        (journal ++ (runSources settings now tree op rest).1,
          (runSources settings now tree op rest).2.map (parts.flatten ++ ·)) := by
  induction planned generalizing parts with
  | nil =>
    cases hparts
    refine ⟨.empty, ⟨rfl, rfl⟩, ?_⟩
    rw [List.nil_append, Journal.empty_append]
    rcases runSources settings now tree op rest with ⟨journal, error | readings⟩ <;> rfl
  | cons p planned ih =>
    obtain ⟨hown, hknown⟩ := List.forall_mem_cons.mp hmapping
    cases hparts with
    | @cons _ own _ parts hfirst hparts =>
      obtain ⟨first, hrun, hcounted⟩ := exists_runSource_of_sourceReadings hown hfirst
      obtain ⟨more, hmore, hruns⟩ := ih hknown hparts
      refine ⟨first ++ more, hcounted.append hmore rfl, ?_⟩
      rw [List.cons_append, runSources, hrun, hruns, Journal.append_assoc, List.flatten_cons]
      dsimp only
      rcases runSources settings now tree op rest with ⟨journal, error | readings⟩
      · rfl
      · simp only [Except.map, List.append_assoc]

/-! ### The whole operation -/

/-- The journal of an operation counts what some sources contribute, after it has told how many
sources there are; then it goes on with the given metrics and lines. -/
structure Accounts (op : Operation) (sources : List Operation.Source)
    (parts : List (List Reading)) (metrics : List Metric) (lines : List LogLine)
    (journal : Journal) : Prop where
  metrics_eq : journal.metrics = parts.map (.recordsProjected ·.length) ++ metrics
  logs_eq : journal.plainLogs =
    ⟨.info, s!"Starting {op.label} with {op.sources.length} source(s)"⟩ ::
      (List.zipWith projectedLine sources parts ++ lines)

theorem length_of_plan (hplan : plan op = .ok planned) : planned.length = op.sources.length := by
  rw [← map_fst_of_resolveSources (resolveSources_of_plan hplan), List.length_map]

/-- When all sources go through, the rest is up to their readings. -/
theorem accounts_of_sourceReadings (hplan : plan op = .ok planned)
    (hparts : List.Forall₂ (SourceReadings settings now tree op) op.sources parts) :
    Accounts op op.sources parts
      ((finish settings tree op parts.flatten).journal.metrics ++
        [closingMetric (finish settings tree op parts.flatten).result])
      (finish settings tree op parts.flatten).journal.plainLogs
      (run settings now tree op).journal := by
  have hresolved := resolveSources_of_plan hplan
  have hsources := map_fst_of_resolveSources hresolved
  rw [← hsources] at hparts ⊢
  obtain ⟨journal, hcounted, hruns⟩ :=
    exists_runSources_append (mappingFor_of_resolveSources hresolved) hparts []
  rw [List.append_nil] at hruns
  have hrun : runPlan settings now tree op = { finish settings tree op parts.flatten with
      journal := startJournal op planned ++ (journal ++ .empty) ++
        (finish settings tree op parts.flatten).journal } := by
    rw [runPlan, hplan]
    dsimp only
    rw [hruns]
    simp only [runSources, Except.map, List.append_nil]
    rfl
  rw [run, hrun]
  constructor
  · simp only [Journal.metrics_append, hcounted.metrics_eq, List.append_assoc]
    rfl
  · simp only [Journal.plainLogs_append, hcounted.logs_eq, startJournal, length_of_plan hplan]
    simp [Journal.plainLogs, Journal.log, Journal.metric, Journal.empty]

/-- Where a source fails, those before it are counted and nothing else. -/
theorem accounts_of_sourceFails {before after : List (Operation.Source × Mapping)}
    (hplan : plan op = .ok (before ++ (source, mapping) :: after))
    (hparts : List.Forall₂ (SourceReadings settings now tree op) (before.map Prod.fst) parts)
    (hfails : SourceFails settings now tree op source error) :
    Accounts op (before.map Prod.fst) parts [.operationError] (failureLines op source error)
      (run settings now tree op).journal := by
  obtain ⟨hbefore, hrest⟩ :=
    List.forall_mem_append.mp (mappingFor_of_resolveSources (resolveSources_of_plan hplan))
  have hmapping : op.mappingFor source = .ok mapping := (List.forall_mem_cons.mp hrest).1
  obtain ⟨last, hlast, hmetrics, hlogs⟩ := exists_runSource_of_sourceFails hmapping hfails
  obtain ⟨journal, hcounted, hruns⟩ :=
    exists_runSources_append hbefore hparts ((source, mapping) :: after)
  rw [runSources, hlast] at hruns
  have hrun : (run settings now tree op).journal =
      startJournal op (before ++ (source, mapping) :: after) ++ (journal ++ last) ++
        .metric .operationError := by
    rw [run, runPlan, hplan]
    dsimp only
    rw [hruns]
    rfl
  rw [hrun]
  constructor
  · simp only [Journal.metrics_append, hcounted.metrics_eq, hmetrics, List.append_assoc]
    rfl
  · simp only [Journal.plainLogs_append, hcounted.logs_eq, hlogs, startJournal,
      length_of_plan hplan]
    simp [Journal.plainLogs, Journal.log, Journal.metric]

theorem finish_of_written {after : FileTree}
    (hsummaries : Summary.ofReadings readings = .ok summaries)
    (hwrite : writeSummaries tree settings.indent (destination settings op) summaries =
      (after, .ok ())) :
    finish settings tree op readings =
      ⟨.ok summaries, writtenJournal settings op summaries, after⟩ := by
  unfold destination at hwrite
  rw [finish, hsummaries]
  dsimp only
  rw [deliver, hwrite]
  rfl

theorem finish_of_unwritten {after : FileTree} {error : FileError}
    (hsummaries : Summary.ofReadings readings = .ok summaries)
    (hwrite : writeSummaries tree settings.indent (destination settings op) summaries =
      (after, .error error)) :
    finish settings tree op readings =
      ⟨.error (.file error), .metric (.groupsAggregated summaries.length), after⟩ := by
  unfold destination at hwrite
  rw [finish, hsummaries]
  dsimp only
  rw [deliver, hwrite]

theorem finish_of_unsummarised {error : Summary.SizeError}
    (hsummaries : Summary.ofReadings readings = .error error) :
    finish settings tree op readings = ⟨.error (.size error), .empty, tree⟩ := by
  rw [finish, hsummaries]

/-- Readings that can be summarised have as many summaries as there are devices among them. -/
theorem length_of_ofReadings (h : Summary.ofReadings readings = .ok summaries) :
    summaries.length = (readings.map (·.device)).eraseDups.length := by
  rw [← (Summary.summarized_of_ofReadings h).devices, List.length_map]

theorem exists_plan_of_ok (h : (run settings now tree op).result = .ok summaries) :
    ∃ planned, plan op = .ok planned := by
  cases hplan : plan op with
  | ok planned => exact ⟨planned, rfl⟩
  | error fault =>
    rw [result_run, runPlan, hplan] at h
    cases h

theorem mem_ids_of_sourceReadings {sources : List Operation.Source}
    (h : List.Forall₂ (SourceReadings settings now tree op) sources parts) :
    ∀ s ∈ sources, s.transformation ∈ op.ids := by
  induction h with
  | nil => nofun
  | @cons source _ _ _ hfirst _ ih =>
    obtain ⟨mapping, -, hlookup, -⟩ := hfirst
    have hmapping : op.mappingFor source = .ok mapping := by
      unfold Operation.mappingFor
      rw [hlookup]
    exact List.forall_mem_cons.mpr ⟨Operation.exists_mappingFor_iff.mp ⟨mapping, hmapping⟩, ih⟩

end Merge

namespace Engine

open Merge
open Operation (mergeKind)

/-- Every operation, on every file system, run by any engine. When it succeeds, its metrics are the
number of readings of each source in order, the number of summaries, and the time; when a source
fails, the numbers of the sources before it and one failure; when only the summaries cannot be
written, or only their ids are too large, all numbers that are known then and one failure; and when
the operation is refused, one failure alone. The log says the number of each source that is counted,
in order. These numbers add up to that of the readings that are summarised, and there are as many
summaries as there are devices among these. -/
theorem journal_accounts_for_readings (e : Engine) (now : Timestamp) (tree : FileTree)
    (op : Operation) :
    (∀ summaries, (e.run now tree op).2.result = .ok summaries →
      ∃ parts, List.Forall₂ (SourceReadings e.settings now tree op) op.sources parts ∧
        Summary.ofReadings parts.flatten = .ok summaries ∧
        parts.flatten.length = (parts.map List.length).foldr (· + ·) 0 ∧
        summaries.length = (parts.flatten.map (·.device)).eraseDups.length ∧
        Accounts op op.sources parts [.groupsAggregated summaries.length, .operationTime]
          (writtenJournal e.settings op summaries).logs (e.run now tree op).2.journal) ∧
    (op.kind = mergeKind → (∀ s ∈ op.sources, s.transformation ∈ op.ids) →
      ∀ before source after parts error, op.sources = before ++ source :: after →
        List.Forall₂ (SourceReadings e.settings now tree op) before parts →
        SourceFails e.settings now tree op source error →
        Accounts op before parts [.operationError] (failureLines op source error)
          (e.run now tree op).2.journal) ∧
    (op.kind = mergeKind →
      ∀ parts, List.Forall₂ (SourceReadings e.settings now tree op) op.sources parts →
        (∀ summaries after error, Summary.ofReadings parts.flatten = .ok summaries →
          writeSummaries tree e.settings.indent (destination e.settings op) summaries =
            (after, .error error) →
          summaries.length = (parts.flatten.map (·.device)).eraseDups.length ∧
          Accounts op op.sources parts [.groupsAggregated summaries.length, .operationError] []
            (e.run now tree op).2.journal) ∧
        ∀ error, Summary.ofReadings parts.flatten = .error error →
          Accounts op op.sources parts [.operationError] [] (e.run now tree op).2.journal) ∧
    ((op.kind ≠ mergeKind ∨ ∃ s ∈ op.sources, s.transformation ∉ op.ids) →
      (e.run now tree op).2.journal = .metric .operationError) := by
  rw [outcome_run]
  refine ⟨?_, ?_, ?_, ?_⟩
  · intro summaries h
    obtain ⟨planned, hplan⟩ := exists_plan_of_ok h
    have hcourse := runPlan_course e.settings now tree op
    obtain ⟨parts, hparts, hsummaries⟩ := hcourse.sourceReadings_of_ok h
    have haccounts := accounts_of_sourceReadings hplan hparts
    rw [finish_of_written hsummaries (hcourse.written_of_ok h)] at haccounts
    have hcount : parts.flatten.length = (parts.map List.length).foldr (· + ·) 0 := by
      rw [List.length_flatten, List.sum_eq_foldr]
    exact ⟨parts, hparts, hsummaries, hcount, length_of_ofReadings hsummaries, haccounts⟩
  · intro hkind hids before source after parts error hsplit hparts hfails
    obtain ⟨planned, hplan⟩ := exists_plan hkind hids
    have hfst := map_fst_of_resolveSources (resolveSources_of_plan hplan)
    rw [hsplit] at hfst
    obtain ⟨first, rest, rfl, rfl, hrest⟩ := List.map_eq_append_iff.mp hfst
    obtain ⟨⟨source, mapping⟩, behind, rfl, rfl, -⟩ := List.map_eq_cons_iff.mp hrest
    exact accounts_of_sourceFails hplan hparts hfails
  · intro hkind parts hparts
    obtain ⟨planned, hplan⟩ := exists_plan hkind (mem_ids_of_sourceReadings hparts)
    have haccounts := accounts_of_sourceReadings hplan hparts
    constructor
    · intro summaries after error hsummaries hwrite
      rw [finish_of_unwritten hsummaries hwrite] at haccounts
      exact ⟨length_of_ofReadings hsummaries, haccounts⟩
    · intro error hsummaries
      rw [finish_of_unsummarised hsummaries] at haccounts
      exact haccounts
  · intro hrefused
    obtain ⟨fault, hfault⟩ := exists_refusal hrefused
    rw [← outcome_run, run_of_refusal hfault]

/-- One reading each from two files, of one device. -/
theorem journal_accounts_for_two_sources :
    ∃ summaries parts,
      ((start {}).run .start sampleTree (sampleOperation "summaries.json")).2.result =
        .ok summaries ∧
      List.Forall₂ (SourceReadings {} .start sampleTree (sampleOperation "summaries.json"))
        [⟨"a.json", "flat"⟩, ⟨"b.json", "flat"⟩] parts ∧
      Accounts (sampleOperation "summaries.json") [⟨"a.json", "flat"⟩, ⟨"b.json", "flat"⟩] parts
        [.groupsAggregated summaries.length, .operationTime]
        (writtenJournal {} (sampleOperation "summaries.json") summaries).logs
        ((start {}).run .start sampleTree (sampleOperation "summaries.json")).2.journal ∧
      ((start {}).run .start sampleTree (sampleOperation "summaries.json")).2.journal.metrics =
        [.recordsProjected 1, .recordsProjected 1, .groupsAggregated 1, .operationTime] := by
  have hrun : (((start {}).run .start sampleTree (sampleOperation "summaries.json")).2.result.isOk,
      ((start {}).run .start sampleTree (sampleOperation "summaries.json")).2.journal.metrics) =
        (true, [.recordsProjected 1, .recordsProjected 1, .groupsAggregated 1, .operationTime]) := by
    decide +kernel
  obtain ⟨hsuccess, hmetrics⟩ := Prod.mk.inj hrun
  cases h : ((start {}).run .start sampleTree (sampleOperation "summaries.json")).2.result with
  | ok summaries =>
    obtain ⟨parts, hparts, -, -, -, haccounts⟩ :=
      (journal_accounts_for_readings (start {}) .start sampleTree
        (sampleOperation "summaries.json")).1 summaries h
    exact ⟨summaries, parts, rfl, hparts, haccounts, hmetrics⟩
  | error error =>
    rw [h] at hsuccess
    cases hsuccess

end Engine

end FeedMerge
