import FeedMerge.Files.Tree
import FeedMerge.Journal
import FeedMerge.Json.Pieces
import FeedMerge.Operation
import FeedMerge.Projection
import FeedMerge.Summary

/-!
# Running operations

A merge reads the sources of an operation one after another, projects each under its mapping from an
empty context, folds the readings of all of them into summaries, and writes these to the
destination. The kind of the operation and the references to its mappings are settled before any
file is read. An operation that fails leaves every file as it was, and says in its metrics only that
it failed and what had been counted by then.

Operations of a list run in order, each on the files that the ones before it left, and the first
failure ends the run. A run has one reading of the clock, by which the timestamps of all its sources
are read, as if no time passed meanwhile.
-/

namespace FeedMerge

/-- How operations are run: the directory that relative paths are taken from, the indent of the
files written, and whether each emission is logged. -/
structure Settings where
  dataDirectory : Option Path := none
  indent : Option Int := some 2
  verbose : Bool := false

/-- A path taken from the data directory, unless it is absolute. -/
def Settings.resolve (s : Settings) (path : Path) : Path :=
  match s.dataDirectory with
  | none => path
  | some directory => path.under directory

namespace Merge

/-- Why an operation fails. -/
inductive Error where
  | fault (fault : Fault)
  | timestamp (error : Timestamp.RangeError)
  | size (error : Summary.SizeError)
  | document (error : Document.Error)
  | file (error : FileError)
  deriving DecidableEq, Repr

namespace Error

def message : Error → String
  | fault f => f.message
  | timestamp error => error.message
  | size error => error.message
  | document error => error.message
  | file error => error.message

/-- The error of a projection. -/
def ofProjection : Projection.Error → Error
  | .fault f => fault f
  | .timestamp error => timestamp error

/-- Errors that say that a source cannot be read: those of the file system, and of texts that are no
JSON. -/
def isUnreadable : Error → Bool
  | file (.system ..) => true
  | document (.encoding _) => true
  | document (.json (.malformed ..)) => true
  | _ => false

/-- The error of a source, where a fault tells what was being worked on. -/
def during (source : Attribution) : Error → Error
  | fault f => fault (f.during source)
  | error => error

end Error

/-- What the log says about each emission. -/
def emissionLines (verbose : Bool) (emissions : List Emission) : List LogLine :=
  if verbose then
    emissions.map fun e =>
      ⟨.debug, s!"Emitted record at {e.context.location.text}: {e.reading.describe}"⟩
  else []

/-- The document in the content of a file that was read. -/
def documentOf : Except FileError ByteArray → Except Error Json
  | .error error => .error (.file error)
  | .ok bytes => (Document.ofBytes bytes).mapError .document

/-- The document that a path leads to. -/
def load (tree : FileTree) (path : Path) : Except Error Json := documentOf (tree.read path)

/-- What a projection leaves in the journal; a count only if it went through. -/
def projectionJournal (verbose : Bool) (p : Projection) : Journal where
  logs := emissionLines verbose p.emissions
  metrics := if p.error.isNone then [.recordsProjected p.emissions.length] else []

/-- The readings of a document under some rules, from an empty context. -/
def projectDocument (verbose : Bool) (now : Timestamp) (rules : List Rule) (document : Json) :
    Journal × Except Error (List Reading) :=
  let projection := Projection.ofDocument rules (.empty now) document
  (projectionJournal verbose projection,
    match projection.error with
    | some error => .error (.ofProjection error)
    | none => .ok projection.readings)

/-- What the log says about a source that failed. -/
def failureLines (op : Operation) (source : Operation.Source) (error : Error) : List LogLine :=
  match error with
  | .fault f => [⟨.error, s!"Failed {op.label} on source '{source.file}': {f.message}"⟩]
  | error =>
    if error.isUnreadable then
      [⟨.error, s!"Cannot read source '{source.file}' for {op.label}: {error.message}"⟩]
    else []

/-- The readings of the document of a source. -/
def projectSource (settings : Settings) (now : Timestamp) (tree : FileTree)
    (source : Operation.Source) (mapping : Mapping) : Journal × Except Error (List Reading) :=
  match load tree (settings.resolve (.ofText source.file)) with
  | .error error => (.empty, .error error)
  | .ok document => projectDocument settings.verbose now mapping.rules document

/-- The journal and the readings of one source of an operation. -/
def runSource (settings : Settings) (now : Timestamp) (tree : FileTree) (op : Operation)
    (source : Operation.Source) (mapping : Mapping) : Journal × Except Error (List Reading) :=
  match projectSource settings now tree source mapping with
  | (journal, .error error) =>
    (journal ++ Journal.mk (failureLines op source error) [],
      .error (error.during ⟨op.label, source.file, source.transformation⟩))
  | (journal, .ok readings) =>
    (journal ++ Journal.log .info
      s!"Projected {readings.length} record(s) from '{source.file}' via '{source.transformation}'",
      .ok readings)

/-- The journal and the readings of some sources, up to the first that fails. -/
def runSources (settings : Settings) (now : Timestamp) (tree : FileTree) (op : Operation) :
    List (Operation.Source × Mapping) → Journal × Except Error (List Reading)
  | [] => (.empty, .ok [])
  | (source, mapping) :: rest =>
    match runSource settings now tree op source mapping with
    | (journal, .error error) => (journal, .error error)
    | (journal, .ok readings) =>
      let (more, result) := runSources settings now tree op rest
      (journal ++ more, result.map (readings ++ ·))

/-- The text of a file of summaries. -/
def fileText (indent : Option Int) (summaries : List Summary) : String :=
  (Json.array (summaries.map Summary.toJson)).write { indent, ascii := false } ++ "\n"

/-- The pieces that a file of summaries is written in. -/
def filePieces (indent : Option Int) (summaries : List Summary) : List (List Char) :=
  (Json.array (summaries.map Summary.toJson)).pieces { indent, ascii := false } 0 ++ [['\n']]

/-- The pieces make up the text of the file. -/
theorem flatten_filePieces (indent : Option Int) (summaries : List Summary) :
    String.ofList (filePieces indent summaries).flatten = fileText indent summaries := by
  rw [filePieces, List.flatten_append, Json.flatten_pieces, fileText, Json.write,
    String.ofList_append]
  rfl

/-- The files with the summaries written to a path, or the error that kept them from it. -/
def writeSummaries (tree : FileTree) (indent : Option Int) (path : Path)
    (summaries : List Summary) : FileTree × Except FileError Unit :=
  tree.replace path (filePieces indent summaries)

/-- What an operation gives: its summaries or its error, its journal, and the files after it. -/
structure Outcome where
  result : Except Error (List Summary)
  journal : Journal
  tree : FileTree

/-- The sources of an operation with their mappings. -/
def resolveSources (op : Operation) :
    List Operation.Source → Except Fault (List (Operation.Source × Mapping))
  | [] => .ok []
  | source :: rest =>
    match op.mappingFor source with
    | .error fault => .error fault
    | .ok mapping => (resolveSources op rest).map ((source, mapping) :: ·)

/-- The sources to run with their mappings, if the operation can be run at all. -/
def plan (op : Operation) : Except Fault (List (Operation.Source × Mapping)) :=
  if op.kind = Operation.mergeKind then resolveSources op op.sources
  else .error ⟨.unsupportedKind op.kind Operation.mergeKind, .ofText op.label, none⟩

/-- Summaries written to the destination. -/
def deliver (settings : Settings) (tree : FileTree) (op : Operation) (summaries : List Summary) :
    Outcome :=
  let destination := settings.resolve (.ofText op.destination)
  let counted := Journal.metric (.groupsAggregated summaries.length)
  match writeSummaries tree settings.indent destination summaries with
  | (tree, .error error) => ⟨.error (.file error), counted, tree⟩
  | (tree, .ok ()) =>
    let written := s!"Wrote {summaries.length} device summary(ies) to {destination.text}"
    ⟨.ok summaries, counted ++ .log .info written, tree⟩

/-- The summaries of some readings written to the destination. -/
def finish (settings : Settings) (tree : FileTree) (op : Operation) (readings : List Reading) :
    Outcome :=
  match Summary.ofReadings readings with
  | .error error => ⟨.error (.size error), .empty, tree⟩
  | .ok summaries => deliver settings tree op summaries

/-- The operation itself, without its closing metric. -/
def runPlan (settings : Settings) (now : Timestamp) (tree : FileTree) (op : Operation) : Outcome :=
  match plan op with
  | .error fault => ⟨.error (.fault fault), .empty, tree⟩
  | .ok sources =>
    let started := Journal.log .info s!"Starting {op.label} with {sources.length} source(s)"
    match runSources settings now tree op sources with
    | (journal, .error error) => ⟨.error error, started ++ journal, tree⟩
    | (journal, .ok readings) =>
      let outcome := finish settings tree op readings
      { outcome with journal := started ++ journal ++ outcome.journal }

/-- The metric that closes an operation. -/
def closingMetric : Except Error (List Summary) → Metric
  | .ok _ => .operationTime
  | .error _ => .operationError

/-- The outcome of an operation at a reading of the clock. -/
def run (settings : Settings) (now : Timestamp) (tree : FileTree) (op : Operation) : Outcome :=
  let outcome := runPlan settings now tree op
  { outcome with journal := outcome.journal ++ .metric (closingMetric outcome.result) }

/-- What a list of operations gives. -/
structure RunOutcome where
  result : Except Error Unit
  journal : Journal
  tree : FileTree

/-- The outcome of operations in order, up to the first that fails. -/
def runAll (settings : Settings) (now : Timestamp) (tree : FileTree) :
    List Operation → RunOutcome
  | [] => ⟨.ok (), .empty, tree⟩
  | op :: ops =>
    let first := run settings now tree op
    match first.result with
    | .error error => ⟨.error error, first.journal, first.tree⟩
    | .ok _ =>
      let rest := runAll settings now first.tree ops
      { rest with journal := first.journal ++ rest.journal }

/-- The operations of the configuration file that a text names, which faults show as it is given.
-/
def loadOperations (tree : FileTree) (name : String) : Except Error (List Operation) :=
  match documentOf (tree.readNamed name) with
  | .error (.document error) =>
    match error with
    | .json (.integerTooLong _) => .error (.document error)
    | _ => .error (.fault ⟨.unreadableConfiguration error, .ofText name, none⟩)
  | .error error => .error error
  | .ok document => (Operation.listOfJson document).mapError .fault

end Merge

end FeedMerge
