import FeedMerge.Merge

/-!
# Sessions

A session projects documents step by step into one list of readings, its sink. A step may also
project on its own, trace what is emitted from where, summarise the sink, or clear it. Every step
tells what it added to the sink, its result, and its journal; nothing but the sink passes from one
step to the next. Each step that projects has a reading of the clock of its own, in its context.
-/

namespace FeedMerge

structure Session where
  verbose : Bool := false
  sink : List Reading := []

namespace Session

/-- What a session can be asked; mappings come as they are declared. -/
inductive Step where
  | project (mapping document : Json) (context : Context)
  | projectAlone (mapping document : Json) (context : Context)
  | trace (mapping document : Json) (now : Timestamp)
  | aggregate
  | clear

inductive Answer where
  | sinkLength (n : Nat)
  | readings (rs : List Reading)
  | emissions (es : List Emission)
  | summaries (ss : List Summary)
  | cleared

/-- What a step gives: its answer or error, the readings it added to the sink, and its journal. -/
structure StepOutcome where
  result : Except Merge.Error Answer
  added : List Reading
  journal : Journal

/-- The projection of a document under a declared mapping; a fault of the mapping is a projection
that fails at once. -/
def projectDeclared (mapping document : Json) (context : Context) : Except Fault Projection :=
  (Mapping.ofJson .root mapping).map fun m => .ofDocument m.rules context document

/-- A result of a projection that went through. -/
def resultOf (p : Projection) (answer : Answer) : Except Merge.Error Answer :=
  match p.error with
  | none => .ok answer
  | some error => .error (.ofProjection error)

/-- A step that runs a projection; `keeps` tells whether its readings go into the sink. -/
def stepProjection (s : Session) (keeps : Bool) (projected : Except Fault Projection)
    (answer : Projection → Answer) : Session × StepOutcome :=
  match projected with
  | .error fault => (s, ⟨.error (.fault fault), [], .empty⟩)
  | .ok p =>
    let added := if keeps then p.readings else []
    ({ s with sink := s.sink ++ added },
      ⟨resultOf p (answer p), added, Merge.projectionJournal s.verbose p⟩)

/-- The summaries of the sink. -/
def summarise (s : Session) : Except Merge.Error Answer :=
  match Summary.ofReadings s.sink with
  | .ok summaries => .ok (.summaries summaries)
  | .error error => .error (.size error)

/-- A step, and the session after it. -/
def step (s : Session) : Step → Session × StepOutcome
  | .project mapping document context =>
    s.stepProjection true (projectDeclared mapping document context) fun p =>
      .sinkLength (s.sink.length + p.readings.length)
  | .projectAlone mapping document context =>
    s.stepProjection false (projectDeclared mapping document context) fun p => .readings p.readings
  | .trace mapping document now =>
    s.stepProjection false (projectDeclared mapping document (.empty now)) fun p =>
      .emissions p.emissions
  | .aggregate => (s, ⟨s.summarise, [], .empty⟩)
  | .clear => ({ s with sink := [] }, ⟨.ok .cleared, [], .empty⟩)

/-- Steps in order, with the session after each of them. -/
def run (s : Session) : List Step → List (Session × StepOutcome)
  | [] => []
  | first :: rest =>
    let outcome := s.step first
    outcome :: run outcome.1 rest

end Session

end FeedMerge
