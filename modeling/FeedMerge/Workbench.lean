import FeedMerge.Session

/-!
# Workbenches

`Session.step` is what a step gives by itself. A workbench is where the steps of a session are
carried out: it has one interpreter for all of them, and the sink that they share. The interpreter
takes every emission on its own, into the sink of the step and, while a trace is under way, into the
list of that trace. A list that was begun stays, since whoever asked for the trace may look at it at
any time. Which one is under way is noted when a trace begins and has to be taken back when it ends,
after a failure too; otherwise the emissions of later steps would go into it.
-/

namespace FeedMerge

/-- What an interpreter holds as long as it lives: all traces in the order in which they were begun,
and the number of the one under way. -/
structure Interpreter where
  verbose : Bool := false
  traces : List (List Emission) := []
  underWay : Option Nat := none

namespace Interpreter

/-- An emission noted in the trace under way. -/
def note (i : Interpreter) (e : Emission) : Interpreter :=
  match i.underWay with
  | none => i
  | some n => { i with traces := i.traces.modify n (· ++ [e]) }

/-- An emission into a sink. -/
def emit (held : Interpreter × List Reading) (e : Emission) : Interpreter × List Reading :=
  (held.1.note e, held.2 ++ [e.reading])

/-- What a projection into a sink leaves, and the error that ended it, if any. -/
structure Projected where
  interpreter : Interpreter
  sink : List Reading
  journal : Journal
  error : Option Projection.Error

/-- The result of a step that projected: its answer, unless there was an error. -/
def Projected.result (p : Projected) (answer : Session.Answer) :
    Except Merge.Error Session.Answer :=
  match p.error with
  | none => .ok answer
  | some error => .error (.ofProjection error)

/-- A document projected from a context into a sink. -/
def project (i : Interpreter) (rules : List Rule) (document : Json) (context : Context)
    (sink : List Reading) : Projected :=
  let p := Projection.ofDocument rules context document
  let held := p.emissions.foldl emit (i, sink)
  { interpreter := held.1
    sink := held.2
    journal := {
      logs := Merge.emissionLines i.verbose p.emissions
      metrics := if p.error.isNone then [.recordsProjected (held.2.length - sink.length)] else [] }
    error := p.error }

/-- The interpreter with a new trace under way. -/
def beginTrace (i : Interpreter) : Interpreter :=
  { i with traces := i.traces ++ [[]], underWay := some i.traces.length }

/-- The interpreter with no trace under way. -/
def endTrace (i : Interpreter) : Interpreter := { i with underWay := none }

/-- What the trace under way holds. -/
def currentTrace (i : Interpreter) : List Emission :=
  (i.underWay.bind (i.traces[·]?)).getD []

/-- A document projected into a sink of its own while a trace is under way, and the trace. -/
def trace (i : Interpreter) (rules : List Rule) (document : Json) (now : Timestamp) :
    Projected × List Emission :=
  let p := i.beginTrace.project rules document (.empty now) []
  ({ p with interpreter := p.interpreter.endTrace }, p.interpreter.currentTrace)

end Interpreter

structure Workbench where
  interpreter : Interpreter := {}
  sink : List Reading := []

namespace Workbench

/-- What a step gives, and the readings that it emitted, into whichever sink. -/
structure Outcome extends Session.StepOutcome where
  emitted : List Reading

/-- A workbench that nothing was done at. -/
def fresh (verbose : Bool) : Workbench := { interpreter := { verbose } }

/-- What a mapping that cannot be read gives: nothing is projected. -/
def refuse (fault : Fault) : Outcome where
  result := .error (.fault fault)
  added := []
  journal := .empty
  emitted := []

/-- A step, and the workbench after it. -/
def step (w : Workbench) : Session.Step → Workbench × Outcome
  | .project declared document context =>
    match Mapping.ofJson .root declared with
    | .error fault => (w, refuse fault)
    | .ok mapping =>
      let p := w.interpreter.project mapping.rules document context w.sink
      let added := p.sink.drop w.sink.length
      (⟨p.interpreter, p.sink⟩,
        { result := p.result (.sinkLength p.sink.length), added, journal := p.journal,
          emitted := added })
  | .projectAlone declared document context =>
    match Mapping.ofJson .root declared with
    | .error fault => (w, refuse fault)
    | .ok mapping =>
      let p := w.interpreter.project mapping.rules document context []
      (⟨p.interpreter, w.sink⟩,
        { result := p.result (.readings p.sink), added := [], journal := p.journal,
          emitted := p.sink })
  | .trace declared document now =>
    match Mapping.ofJson .root declared with
    | .error fault => (w, refuse fault)
    | .ok mapping =>
      let (p, trace) := w.interpreter.trace mapping.rules document now
      (⟨p.interpreter, w.sink⟩,
        { result := p.result (.emissions trace), added := [], journal := p.journal,
          emitted := p.sink })
  | .aggregate =>
    (w, { result := Session.summarise { sink := w.sink }, added := [], journal := .empty,
          emitted := [] })
  | .clear =>
    ({ w with sink := [] }, { result := .ok .cleared, added := [], journal := .empty, emitted := [] })

/-- Steps in order, with the workbench after each of them. -/
def run (w : Workbench) : List Session.Step → List (Workbench × Outcome)
  | [] => []
  | first :: rest =>
    let outcome := w.step first
    outcome :: run outcome.1 rest

/-- The workbench after some steps. -/
def after (w : Workbench) (steps : List Session.Step) : Workbench :=
  steps.foldl (fun w step => (w.step step).1) w

end Workbench

end FeedMerge
