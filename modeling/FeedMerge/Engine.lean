import FeedMerge.Merge

/-!
# Engines

`Merge.run` is what an operation gives by itself. An engine is what runs many operations: it lives
as long as they do, and so does what it holds. It projects all documents with one interpreter, which
keeps the emissions of a trace that is under way, and it collects the readings of an operation in
one sink, which every source continues, also with the readings before a failure. It can be given a
list of operations, of which the first that fails is the last, or one operation after another,
whatever became of the ones before.
-/

namespace FeedMerge

structure Engine where
  settings : Settings
  traced : Option (List Emission) := none

namespace Engine

open Merge

/-- An engine that has not run anything. -/
def start (settings : Settings) : Engine := { settings }

/-- What a projection into a sink leaves, and the error that ended it, if any. -/
structure Projected where
  engine : Engine
  sink : List Reading
  journal : Journal
  error : Option Projection.Error

/-- A document projected from an empty context into a sink. -/
def project (e : Engine) (now : Timestamp) (rules : List Rule) (document : Json)
    (sink : List Reading) : Projected :=
  let p := Projection.ofDocument rules (.empty now) document
  let continued := sink ++ p.readings
  { engine := { e with traced := e.traced.map (· ++ p.emissions) }
    sink := continued
    journal := {
      logs := emissionLines e.settings.verbose p.emissions
      metrics :=
        if p.error.isNone then [.recordsProjected (continued.length - sink.length)] else [] }
    error := p.error }

/-- One source of an operation into a sink: the engine after it, the journal, and the sink if it did
not fail. -/
def runSource (e : Engine) (now : Timestamp) (tree : FileTree) (op : Operation)
    (sink : List Reading) (source : Operation.Source) (mapping : Mapping) :
    Engine × Journal × Except Error (List Reading) :=
  let failed (error : Error) : Journal × Except Error (List Reading) :=
    (Journal.mk (failureLines op source error) [],
      .error (error.during ⟨op.label, source.file, source.transformation⟩))
  match load tree (e.settings.resolve (.ofText source.file)) with
  | .error error => (e, failed error)
  | .ok document =>
    let p := e.project now mapping.rules document sink
    match p.error with
    | some error =>
      let (journal, result) := failed (.ofProjection error)
      (p.engine, p.journal ++ journal, result)
    | none =>
      let count := p.sink.length - sink.length
      (p.engine, p.journal ++ Journal.log .info
        s!"Projected {count} record(s) from '{source.file}' via '{source.transformation}'",
        .ok p.sink)

/-- Some sources, one after another into the same sink, up to the first that fails. -/
def runSources (e : Engine) (now : Timestamp) (tree : FileTree) (op : Operation)
    (sink : List Reading) :
    List (Operation.Source × Mapping) → Engine × Journal × Except Error (List Reading)
  | [] => (e, .empty, .ok sink)
  | (source, mapping) :: rest =>
    match e.runSource now tree op sink source mapping with
    | (e, journal, .error error) => (e, journal, .error error)
    | (e, journal, .ok sink) =>
      let (e, more, result) := runSources e now tree op sink rest
      (e, journal ++ more, result)

/-- The operation itself, without its closing metric. -/
def runPlan (e : Engine) (now : Timestamp) (tree : FileTree) (op : Operation) : Engine × Outcome :=
  match plan op with
  | .error fault => (e, ⟨.error (.fault fault), .empty, tree⟩)
  | .ok sources =>
    let started := Journal.log .info s!"Starting {op.label} with {sources.length} source(s)"
    match e.runSources now tree op [] sources with
    | (e, journal, .error error) => (e, ⟨.error error, started ++ journal, tree⟩)
    | (e, journal, .ok readings) =>
      let outcome := finish e.settings tree op readings
      (e, { outcome with journal := started ++ journal ++ outcome.journal })

/-- The outcome of an operation at a reading of the clock, and the engine after it. -/
def run (e : Engine) (now : Timestamp) (tree : FileTree) (op : Operation) : Engine × Outcome :=
  let (e, outcome) := e.runPlan now tree op
  (e, { outcome with journal := outcome.journal ++ .metric (closingMetric outcome.result) })

/-- The outcomes of operations in order, each on the files that the one before it left, also if that
one failed. -/
def runEach (e : Engine) (now : Timestamp) (tree : FileTree) : List Operation → List Outcome
  | [] => []
  | op :: ops =>
    let (e, outcome) := e.run now tree op
    outcome :: runEach e now outcome.tree ops

/-- The outcome of operations in order, up to the first that fails. -/
def runAll (e : Engine) (now : Timestamp) (tree : FileTree) : List Operation → RunOutcome
  | [] => ⟨.ok (), .empty, tree⟩
  | op :: ops =>
    let (e, first) := e.run now tree op
    match first.result with
    | .error error => ⟨.error error, first.journal, first.tree⟩
    | .ok _ =>
      let rest := runAll e now first.tree ops
      { rest with journal := first.journal ++ rest.journal }

end Engine

end FeedMerge
