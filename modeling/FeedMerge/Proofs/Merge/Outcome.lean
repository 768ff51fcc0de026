import FeedMerge.Proofs.Merge.Course

/-!
# What an operation leaves behind

An operation that succeeds returns the summaries of the readings of all its sources, in order, and
has written exactly their text to its destination; every other file is as it was. One that fails
leaves every file as it was, whatever it had done until then, and its metrics end with the one that
counts the failure. Both are read off the course of the operation; the closing metric changes
neither the result nor the files.
-/

namespace FeedMerge.Merge

variable {settings : Settings} {now : Timestamp} {tree : FileTree} {op : Operation}

theorem result_run (settings : Settings) (now : Timestamp) (tree : FileTree) (op : Operation) :
    (run settings now tree op).result = (runPlan settings now tree op).result := rfl

theorem tree_run (settings : Settings) (now : Timestamp) (tree : FileTree) (op : Operation) :
    (run settings now tree op).tree = (runPlan settings now tree op).tree := rfl

theorem metrics_run (settings : Settings) (now : Timestamp) (tree : FileTree) (op : Operation) :
    (run settings now tree op).journal.metrics =
      (runPlan settings now tree op).journal.metrics ++
        [closingMetric (runPlan settings now tree op).result] := rfl

/-! ### Success -/

theorem Course.sourceReadings_of_ok {outcome : Outcome} {summaries : List Summary}
    (hcourse : Course settings now tree op outcome) (h : outcome.result = .ok summaries) :
    ∃ parts, List.Forall₂ (SourceReadings settings now tree op) op.sources parts ∧
      Summary.ofReadings parts.flatten = .ok summaries := by
  cases hcourse with
  | written hplan hsources hsummaries hwrite =>
    cases h
    obtain ⟨parts, hparts, rfl⟩ :=
      sourceReadings_of_runSources (resolveSources_of_plan hplan) hsources
    exact ⟨parts, hparts, hsummaries⟩
  | _ => cases h

theorem Course.written_of_ok {outcome : Outcome} {summaries : List Summary}
    (hcourse : Course settings now tree op outcome) (h : outcome.result = .ok summaries) :
    writeSummaries tree settings.indent (destination settings op) summaries =
      (outcome.tree, .ok ()) := by
  cases hcourse with
  | written hplan hsources hsummaries hwrite =>
    cases h
    exact hwrite
  | _ => cases h

/-- Written summaries stand where the path leads to, and no other file is touched. -/
theorem exists_place_of_writeSummaries {after : FileTree} {indent : Option Int} {path : Path}
    {summaries : List Summary}
    (h : writeSummaries tree indent path summaries = (after, .ok ())) :
    ∃ place, after.locate path = .ok place ∧
      after.file? place = some (fileText indent summaries).toUTF8 ∧
      ∀ other, other ≠ place → after.file? other = tree.file? other := by
  obtain ⟨made, place, hgrows, hlocate, hnode, hothers⟩ := FileTree.exists_place_of_replace h
  refine ⟨place, hlocate, ?_, ?_⟩
  · rw [FileTree.file?, hnode, flatten_filePieces]
  · intro other hother
    rw [FileTree.file?_eq_of_node?_eq (hothers other hother), hgrows.file?_eq]

/-- An operation that succeeds returns the summaries of what its sources contribute in order, each
read from the files as they were before and projected from an empty context. Its destination holds
their text, and no other file has been added, changed or removed. -/
theorem run_ok_writes_summaries {summaries : List Summary}
    (h : (run settings now tree op).result = .ok summaries) :
    (∃ parts, List.Forall₂ (SourceReadings settings now tree op) op.sources parts ∧
      Summary.ofReadings parts.flatten = .ok summaries) ∧
    ∃ place, (run settings now tree op).tree.locate (destination settings op) = .ok place ∧
      (run settings now tree op).tree.file? place =
        some (fileText settings.indent summaries).toUTF8 ∧
      ∀ other, other ≠ place → (run settings now tree op).tree.file? other = tree.file? other := by
  rw [result_run] at h
  rw [tree_run]
  have hcourse := runPlan_course settings now tree op
  exact ⟨hcourse.sourceReadings_of_ok h, exists_place_of_writeSummaries (hcourse.written_of_ok h)⟩

/-- A working directory with two documents of one device. -/
def sampleTree : FileTree :=
  let document (reading : String) : Node :=
    .file ("[\x7b\"Id\": 7, \"Name\": \"north\", \"At\": \"2024-01-01\", \"Reading\": " ++
      reading ++ "\x7d]").toUTF8
  ((FileTree.withWorkingDirectory ["work"]).plant ["work", "a.json"] (document "20")).plant
    ["work", "b.json"] (document "22.5")

/-- The two documents under one mapping, merged into a destination. -/
def sampleOperation (destination : String) : Operation where
  kind := Operation.mergeKind
  sources := [⟨"a.json", "flat"⟩, ⟨"b.json", "flat"⟩]
  transformations := [("flat", ⟨.root, [.flag "isTemperature" ⟨"Name", "north"⟩,
    .flag "isHumidity" ⟨"Name", "south"⟩, .rename "Id" "CompanyId", .rename "Name" "CompanyName",
    .rename "Id" "DeviceId", .rename "Name" "DeviceName", .rename "At" "Dtm",
    .rename "Reading" "Value"]⟩)]
  destination
  index := 0

/-- The second source is overwritten with the summary of what it held. -/
theorem run_ok_writes_over_a_source :
    ∃ summaries, (run {} .start sampleTree (sampleOperation "b.json")).result = .ok summaries ∧
      (∃ parts, List.Forall₂ (SourceReadings {} .start sampleTree (sampleOperation "b.json"))
          [⟨"a.json", "flat"⟩, ⟨"b.json", "flat"⟩] parts ∧
        Summary.ofReadings parts.flatten = .ok summaries) ∧
      ∃ place,
        (run {} .start sampleTree (sampleOperation "b.json")).tree.locate
          (destination {} (sampleOperation "b.json")) = .ok place ∧
        (run {} .start sampleTree (sampleOperation "b.json")).tree.file? place =
          some (fileText (some 2) summaries).toUTF8 ∧
        ∀ other, other ≠ place →
          (run {} .start sampleTree (sampleOperation "b.json")).tree.file? other =
            sampleTree.file? other := by
  have hsuccess : (run {} .start sampleTree (sampleOperation "b.json")).result.isOk = true := by
    decide +kernel
  cases h : (run {} .start sampleTree (sampleOperation "b.json")).result with
  | ok summaries => exact ⟨summaries, rfl, run_ok_writes_summaries h⟩
  | error error =>
    rw [h] at hsuccess
    cases hsuccess

/-! ### Failure -/

theorem Course.grows_of_error {outcome : Outcome} {error : Error}
    (hcourse : Course settings now tree op outcome) (h : outcome.result = .error error) :
    FileTree.Grows tree outcome.tree (tree.OnTheWay (destination settings op).parent) := by
  cases hcourse with
  | unwritten hplan hsources hsummaries hwrite => exact FileTree.grows_of_replace_error hwrite
  | written => cases h
  | _ => exact .refl _ _

/-- Before the closing metric only records and groups have been counted. -/
theorem Course.mem_metrics {outcome : Outcome} (hcourse : Course settings now tree op outcome)
    {m : Metric} (h : m ∈ outcome.journal.metrics) :
    (∃ n, m = .recordsProjected n) ∨ ∃ n, m = .groupsAggregated n := by
  have hprojected {sources : List (Operation.Source × Mapping)} {journal : Journal}
      {result : Except Error (List Reading)}
      (hsources : runSources settings now tree op sources = (journal, result))
      (hm : m ∈ journal.metrics) : ∃ n, m = .recordsProjected n := by
    have hjournal : (runSources settings now tree op sources).1 = journal := by rw [hsources]
    exact mem_metrics_runSources (hjournal ▸ hm)
  cases hcourse with
  | refused => cases h
  | stopped hplan hsources => exact .inl (hprojected hsources h)
  | unsummarised hplan hsources hsummaries =>
    refine .inl (hprojected hsources ?_)
    simpa [Journal.metrics_append, startJournal, Journal.log, Journal.empty] using h
  | unwritten hplan hsources hsummaries hwrite =>
    rw [Journal.metrics_append, List.mem_append] at h
    rcases h with h | h
    · exact .inl (hprojected hsources h)
    · exact .inr ⟨_, List.mem_singleton.mp h⟩
  | written hplan hsources hsummaries hwrite =>
    rw [Journal.metrics_append, List.mem_append] at h
    rcases h with h | h
    · exact .inl (hprojected hsources h)
    · exact .inr ⟨_, List.mem_singleton.mp h⟩

/-- An operation that fails, be it before anything is written or at any step of the writing, leaves
every file as it was and adds none, staged ones included. Only directories without a file may be
new, on the way to the destination, and the metrics end with the one failure, without a time. -/
theorem run_error_keeps_files {error : Error}
    (h : (run settings now tree op).result = .error error) :
    (∀ place, (run settings now tree op).tree.file? place = tree.file? place) ∧
    (∀ place, (run settings now tree op).tree.node? place ≠ tree.node? place →
      tree.node? place = none ∧ (run settings now tree op).tree.node? place = some .directory ∧
      tree.OnTheWay (destination settings op).parent place ∧
      (tree.IsRooted →
        ∀ below, place <+: below → (run settings now tree op).tree.file? below = none)) ∧
    ∃ counted, (run settings now tree op).journal.metrics = counted ++ [.operationError] ∧
      Metric.operationError ∉ counted ∧ Metric.operationTime ∉ counted := by
  rw [result_run] at h
  rw [tree_run, metrics_run, h]
  have hcourse := runPlan_course settings now tree op
  have hgrows := hcourse.grows_of_error h
  refine ⟨hgrows.file?_eq, ?_, (runPlan settings now tree op).journal.metrics, rfl, ?_, ?_⟩
  · intro place hne
    obtain ⟨hnone, hdirectory, hway⟩ := hgrows.of_node?_ne hne
    exact ⟨hnone, hdirectory, hway, fun hrooted below => hgrows.file?_below_eq_none hrooted hnone⟩
  · intro hmem
    rcases hcourse.mem_metrics hmem with ⟨n, hn⟩ | ⟨n, hn⟩ <;> cases hn
  · intro hmem
    rcases hcourse.mem_metrics hmem with ⟨n, hn⟩ | ⟨n, hn⟩ <;> cases hn

/-- A second document of another device, the name of which is a lone surrogate. -/
def unencodableTree : FileTree :=
  sampleTree.plant ["work", "b.json"] (.file ("[\x7b\"Id\": 8, \"Name\": \"\\ud800\", " ++
    "\"At\": \"2024-01-01\", \"Reading\": 22.5\x7d]").toUTF8)

/-- A lone surrogate is only found out when the name is to be written. By then the directory of the
destination is made, and the summary before is in the staged file, which is gone again. -/
theorem run_error_leaves_a_directory :
    ∃ error, (run {} .start unencodableTree (sampleOperation "new/all.json")).result =
        .error error ∧
      error.message = "'utf-8' codec can't encode character '\\ud800' in position 1: " ++
        "surrogates not allowed" ∧
      (run {} .start unencodableTree (sampleOperation "new/all.json")).tree.isDirectoryAt
        ["work", "new"] = true ∧
      (∀ place, (run {} .start unencodableTree (sampleOperation "new/all.json")).tree.file? place =
        unencodableTree.file? place) ∧
      (∀ place, (run {} .start unencodableTree (sampleOperation "new/all.json")).tree.node? place ≠
          unencodableTree.node? place →
        unencodableTree.node? place = none ∧
        (run {} .start unencodableTree (sampleOperation "new/all.json")).tree.node? place =
          some .directory ∧
        unencodableTree.OnTheWay (destination {} (sampleOperation "new/all.json")).parent place ∧
        (unencodableTree.IsRooted → ∀ below, place <+: below →
          (run {} .start unencodableTree (sampleOperation "new/all.json")).tree.file? below =
            none)) ∧
      ∃ counted, (run {} .start unencodableTree (sampleOperation "new/all.json")).journal.metrics =
          counted ++ [.operationError] ∧
        Metric.operationError ∉ counted ∧ Metric.operationTime ∉ counted := by
  have hmessage : ((run {} .start unencodableTree
      (sampleOperation "new/all.json")).result.mapError Error.message).map (fun _ => ()) =
        .error ("'utf-8' codec can't encode character '\\ud800' in position 1: " ++
          "surrogates not allowed") := by
    decide +kernel
  have hdirectory : (run {} .start unencodableTree
      (sampleOperation "new/all.json")).tree.isDirectoryAt ["work", "new"] = true := by
    decide +kernel
  rw [Except.map_eq_error, Except.mapError_eq_error] at hmessage
  obtain ⟨error, hresult, htold⟩ := hmessage
  exact ⟨error, hresult, htold, hdirectory, run_error_keeps_files hresult⟩

end FeedMerge.Merge
