import FeedMerge.Merge
import FeedMerge.Proofs.Files.Replacement
import FeedMerge.Proofs.Result
import Mathlib.Data.List.Forall2

/-!
# The course of an operation

An operation is refused before any file is read, or stops at a source, or its readings have no
summaries, or these cannot be written, or they are written. `Course` has one constructor for each,
with everything that is known then, and `runPlan_course` says that there is no other way; what is
said of all operations is read off it case by case. The readings of the sources are described one by
one (`SourceReadings`), each from the files as they were at the beginning and from an empty context.
-/

namespace FeedMerge.Merge

/-- Where the summaries of an operation go. -/
def destination (settings : Settings) (op : Operation) : Path :=
  settings.resolve (.ofText op.destination)

/-- What the log says when the sources of an operation are known. -/
def startJournal (op : Operation) (sources : List (Operation.Source × Mapping)) : Journal :=
  .log .info s!"Starting {op.label} with {sources.length} source(s)"

/-- The journal of a number of summaries that could be written. -/
def writtenJournal (settings : Settings) (op : Operation) (summaries : List Summary) : Journal :=
  .metric (.groupsAggregated summaries.length) ++
    .log .info s!"Wrote {summaries.length} device summary(ies) to {(destination settings op).text}"

/-- The ways that an operation can go at a reading of the clock, without its closing metric. -/
inductive Course (settings : Settings) (now : Timestamp) (tree : FileTree) (op : Operation) :
    Outcome → Prop
  | refused {fault : Fault} (hplan : plan op = .error fault) :
      Course settings now tree op ⟨.error (.fault fault), .empty, tree⟩
  | stopped {sources : List (Operation.Source × Mapping)} {journal : Journal} {error : Error}
      (hplan : plan op = .ok sources)
      (hsources : runSources settings now tree op sources = (journal, .error error)) :
      Course settings now tree op ⟨.error error, startJournal op sources ++ journal, tree⟩
  | unsummarised {sources : List (Operation.Source × Mapping)} {journal : Journal}
      {readings : List Reading} {error : Summary.SizeError} (hplan : plan op = .ok sources)
      (hsources : runSources settings now tree op sources = (journal, .ok readings))
      (hsummaries : Summary.ofReadings readings = .error error) :
      Course settings now tree op
        ⟨.error (.size error), startJournal op sources ++ journal ++ .empty, tree⟩
  | unwritten {sources : List (Operation.Source × Mapping)} {journal : Journal}
      {readings : List Reading} {summaries : List Summary} {after : FileTree} {error : FileError}
      (hplan : plan op = .ok sources)
      (hsources : runSources settings now tree op sources = (journal, .ok readings))
      (hsummaries : Summary.ofReadings readings = .ok summaries)
      (hwrite : writeSummaries tree settings.indent (destination settings op) summaries =
        (after, .error error)) :
      Course settings now tree op ⟨.error (.file error), startJournal op sources ++ journal ++
        .metric (.groupsAggregated summaries.length), after⟩
  | written {sources : List (Operation.Source × Mapping)} {journal : Journal}
      {readings : List Reading} {summaries : List Summary} {after : FileTree}
      (hplan : plan op = .ok sources)
      (hsources : runSources settings now tree op sources = (journal, .ok readings))
      (hsummaries : Summary.ofReadings readings = .ok summaries)
      (hwrite : writeSummaries tree settings.indent (destination settings op) summaries =
        (after, .ok ())) :
      Course settings now tree op ⟨.ok summaries, startJournal op sources ++ journal ++
        writtenJournal settings op summaries, after⟩

variable {settings : Settings} {now : Timestamp} {tree : FileTree} {op : Operation}

theorem runPlan_course (settings : Settings) (now : Timestamp) (tree : FileTree) (op : Operation) :
    Course settings now tree op (runPlan settings now tree op) := by
  unfold runPlan
  split
  · rename_i fault hplan
    exact .refused hplan
  · rename_i sources hplan
    dsimp only
    split
    · rename_i journal error hsources
      exact .stopped hplan hsources
    · rename_i journal readings hsources
      unfold finish
      split
      · rename_i error hsummaries
        exact .unsummarised hplan hsources hsummaries
      · rename_i summaries hsummaries
        unfold deliver
        dsimp only
        split
        · rename_i after error hwrite
          exact .unwritten hplan hsources hsummaries hwrite
        · rename_i after hwrite
          exact .written hplan hsources hsummaries hwrite

/-! ### The readings of the sources -/

/-- The readings that a source of an operation contributes: those that its document, read from the
tree, yields from an empty context under the mapping that its transformation is bound to. -/
def SourceReadings (settings : Settings) (now : Timestamp) (tree : FileTree) (op : Operation)
    (source : Operation.Source) (readings : List Reading) : Prop :=
  ∃ mapping document, op.transformations.lookup source.transformation = some mapping ∧
    load tree (settings.resolve (.ofText source.file)) = .ok document ∧
    (Projection.ofDocument mapping.rules (.empty now) document).error = none ∧
    (Projection.ofDocument mapping.rules (.empty now) document).readings = readings

theorem lookup_of_mappingFor {source : Operation.Source} {mapping : Mapping}
    (h : op.mappingFor source = .ok mapping) :
    op.transformations.lookup source.transformation = some mapping := by
  unfold Operation.mappingFor at h
  split at h
  · rename_i found hfound
    cases h
    exact hfound
  · cases h

theorem projectDocument_ok {verbose : Bool} {now : Timestamp} {rules : List Rule} {document : Json}
    {journal : Journal} {readings : List Reading}
    (h : projectDocument verbose now rules document = (journal, .ok readings)) :
    (Projection.ofDocument rules (.empty now) document).error = none ∧
      (Projection.ofDocument rules (.empty now) document).readings = readings := by
  unfold projectDocument at h
  dsimp only at h
  split at h
  · cases h
  · rename_i herror
    cases h
    exact ⟨herror, rfl⟩

theorem sourceReadings_of_runSource {source : Operation.Source} {mapping : Mapping}
    {journal : Journal} {readings : List Reading} (hmapping : op.mappingFor source = .ok mapping)
    (h : runSource settings now tree op source mapping = (journal, .ok readings)) :
    SourceReadings settings now tree op source readings := by
  unfold runSource at h
  split at h
  · cases h
  · rename_i projected found hprojected
    cases h
    unfold projectSource at hprojected
    split at hprojected
    · cases hprojected
    · rename_i document hdocument
      exact ⟨mapping, document, lookup_of_mappingFor hmapping, hdocument,
        projectDocument_ok hprojected⟩

/-- The readings of some sources are those of the first, then those of the second, and so on. -/
theorem sourceReadings_of_runSources {sources : List Operation.Source}
    {planned : List (Operation.Source × Mapping)} {journal : Journal} {readings : List Reading}
    (hplanned : resolveSources op sources = .ok planned)
    (h : runSources settings now tree op planned = (journal, .ok readings)) :
    ∃ parts, List.Forall₂ (SourceReadings settings now tree op) sources parts ∧
      readings = parts.flatten := by
  induction sources generalizing planned journal readings with
  | nil =>
    cases hplanned
    cases h
    exact ⟨[], .nil, rfl⟩
  | cons source sources ih =>
    unfold resolveSources at hplanned
    split at hplanned
    · cases hplanned
    · rename_i mapping hmapping
      obtain ⟨rest, hrest, rfl⟩ := Except.map_eq_ok.mp hplanned
      unfold runSources at h
      split at h
      · cases h
      · rename_i first own hfirst
        obtain ⟨others, hothers, hreadings⟩ := Except.map_eq_ok.mp (congrArg Prod.snd h)
        obtain ⟨parts, hparts, rfl⟩ := ih hrest (Prod.ext rfl hothers)
        exact ⟨own :: parts, .cons (sourceReadings_of_runSource hmapping hfirst) hparts,
          hreadings.symm⟩

theorem resolveSources_of_plan {planned : List (Operation.Source × Mapping)}
    (h : plan op = .ok planned) : resolveSources op op.sources = .ok planned := by
  unfold plan at h
  split at h
  · exact h
  · cases h

/-! ### The metrics of the sources -/

theorem map_fst_of_resolveSources {sources : List Operation.Source}
    {planned : List (Operation.Source × Mapping)} (h : resolveSources op sources = .ok planned) :
    planned.map Prod.fst = sources := by
  induction sources generalizing planned with
  | nil =>
    cases h
    rfl
  | cons source sources ih =>
    unfold resolveSources at h
    split at h
    · cases h
    · obtain ⟨rest, hrest, rfl⟩ := Except.map_eq_ok.mp h
      rw [List.map_cons, ih hrest]

theorem mappingFor_of_resolveSources {sources : List Operation.Source}
    {planned : List (Operation.Source × Mapping)} (h : resolveSources op sources = .ok planned) :
    ∀ p ∈ planned, op.mappingFor p.1 = .ok p.2 := by
  induction sources generalizing planned with
  | nil =>
    cases h
    exact List.forall_mem_nil _
  | cons source sources ih =>
    unfold resolveSources at h
    split at h
    · cases h
    · rename_i mapping hmapping
      obtain ⟨rest, hrest, rfl⟩ := Except.map_eq_ok.mp h
      exact List.forall_mem_cons.mpr ⟨hmapping, ih hrest⟩

theorem metrics_append_log (journal : Journal) (level : Level) (text : String) :
    (journal ++ Journal.log level text).metrics = journal.metrics :=
  List.append_nil _

theorem mem_metrics_projectSource {source : Operation.Source} {mapping : Mapping} {m : Metric}
    (h : m ∈ (projectSource settings now tree source mapping).1.metrics) :
    ∃ n, m = .recordsProjected n := by
  unfold projectSource at h
  split at h
  · cases h
  · unfold projectDocument projectionJournal at h
    dsimp only at h
    split at h
    · exact ⟨_, List.mem_singleton.mp h⟩
    · cases h

theorem metrics_runSource (source : Operation.Source) (mapping : Mapping) :
    (runSource settings now tree op source mapping).1.metrics =
      (projectSource settings now tree source mapping).1.metrics := by
  unfold runSource
  rcases projectSource settings now tree source mapping with ⟨journal, _ | readings⟩
  · exact List.append_nil _
  · exact metrics_append_log _ _ _

/-- While sources are projected, only their records are counted. -/
theorem mem_metrics_runSources {planned : List (Operation.Source × Mapping)} {m : Metric}
    (h : m ∈ (runSources settings now tree op planned).1.metrics) :
    ∃ n, m = .recordsProjected n := by
  induction planned with
  | nil => cases h
  | cons first rest ih =>
    obtain ⟨source, mapping⟩ := first
    have hown : m ∈ (runSource settings now tree op source mapping).1.metrics →
        ∃ n, m = .recordsProjected n := by
      rw [metrics_runSource]
      exact mem_metrics_projectSource
    unfold runSources at h
    split at h
    · rename_i journal error hfirst
      rw [hfirst] at hown
      exact hown h
    · rename_i journal readings hfirst
      rw [hfirst] at hown
      dsimp only at h hown
      rw [Journal.metrics_append, List.mem_append] at h
      exact h.elim hown ih

end FeedMerge.Merge
