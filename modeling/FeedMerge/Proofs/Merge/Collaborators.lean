import FeedMerge.Merge

/-!
# Operations with other collaborators

An operation asks for files in two places only: it loads the document of a source, and it writes the
summaries. `runWith` is an operation with both left open, in any monad, so that whatever is asked
for, and in which order, is an effect of that monad. With collaborators that work on a file tree it
is `run` (`runWith_onFiles`): there is nothing else that an operation does with files.
-/

namespace FeedMerge.Merge

/-- What an operation leaves to others: to load documents and to write summaries. -/
structure Collaborators (m : Type → Type) where
  load : Path → m (Except Error Json)
  write : Path → List Summary → m (Except FileError Unit)

/-- The collaborators that load from a file tree and write to it. -/
def onFiles (indent : Option Int) : Collaborators (StateM FileTree) where
  load path := fun tree => (Merge.load tree path, tree)
  write path summaries := fun tree => (writeSummaries tree indent path summaries).swap

/-- What becomes of a source when its document was projected, or could not be loaded. -/
def concludeSource (op : Operation) (source : Operation.Source) :
    Journal × Except Error (List Reading) → Journal × Except Error (List Reading)
  | (journal, .error error) =>
    (journal ++ Journal.mk (failureLines op source error) [],
      .error (error.during ⟨op.label, source.file, source.transformation⟩))
  | (journal, .ok readings) =>
    (journal ++ Journal.log .info
      s!"Projected {readings.length} record(s) from '{source.file}' via '{source.transformation}'",
      .ok readings)

section

variable {m : Type → Type} [Monad m] (collaborators : Collaborators m) (settings : Settings)
  (now : Timestamp) (op : Operation)

/-- One source of an operation. -/
def runSourceWith (source : Operation.Source) (mapping : Mapping) :
    m (Journal × Except Error (List Reading)) := do
  match ← collaborators.load (settings.resolve (.ofText source.file)) with
  | .error error => return concludeSource op source (.empty, .error error)
  | .ok document =>
    return concludeSource op source (projectDocument settings.verbose now mapping.rules document)

/-- Some sources, up to the first that fails. -/
def runSourcesWith :
    List (Operation.Source × Mapping) → m (Journal × Except Error (List Reading))
  | [] => return (.empty, .ok [])
  | (source, mapping) :: rest => do
    match ← runSourceWith collaborators settings now op source mapping with
    | (journal, .error error) => return (journal, .error error)
    | (journal, .ok readings) =>
      let (more, result) ← runSourcesWith rest
      return (journal ++ more, result.map (readings ++ ·))

/-- The summaries of some readings, handed over to be written. -/
def finishWith (readings : List Reading) : m (Journal × Except Error (List Summary)) := do
  match Summary.ofReadings readings with
  | .error error => return (.empty, .error (.size error))
  | .ok summaries =>
    let destination := settings.resolve (.ofText op.destination)
    let counted := Journal.metric (.groupsAggregated summaries.length)
    match ← collaborators.write destination summaries with
    | .error error => return (counted, .error (.file error))
    | .ok () =>
      let written := s!"Wrote {summaries.length} device summary(ies) to {destination.text}"
      return (counted ++ .log .info written, .ok summaries)

/-- The operation itself, without its closing metric. -/
def runPlanWith : m (Journal × Except Error (List Summary)) := do
  match plan op with
  | .error fault => return (.empty, .error (.fault fault))
  | .ok sources =>
    let started := Journal.log .info s!"Starting {op.label} with {sources.length} source(s)"
    match ← runSourcesWith collaborators settings now op sources with
    | (journal, .error error) => return (started ++ journal, .error error)
    | (journal, .ok readings) =>
      let (more, result) ← finishWith collaborators settings op readings
      return (started ++ journal ++ more, result)

/-- What an operation gives with its collaborators. -/
def runWith : m (Journal × Except Error (List Summary)) := do
  let (journal, result) ← runPlanWith collaborators settings now op
  return (journal ++ .metric (closingMetric result), result)

end

/-! ### Files as collaborators -/

theorem load_onFiles (indent : Option Int) (path : Path) (tree : FileTree) :
    ((onFiles indent).load path).run tree = pure (load tree path, tree) := rfl

theorem write_onFiles (indent : Option Int) (path : Path) (summaries : List Summary)
    (tree : FileTree) :
    ((onFiles indent).write path summaries).run tree =
      pure (writeSummaries tree indent path summaries).swap := rfl

variable (settings : Settings) (now : Timestamp) (op : Operation) (tree : FileTree)

theorem runSourceWith_onFiles (source : Operation.Source) (mapping : Mapping) :
    (runSourceWith (onFiles settings.indent) settings now op source mapping).run tree =
      pure (runSource settings now tree op source mapping, tree) := by
  have hconclude : runSource settings now tree op source mapping =
      concludeSource op source (projectSource settings now tree source mapping) := by
    unfold runSource concludeSource
    rcases projectSource settings now tree source mapping with ⟨journal, _ | readings⟩ <;> rfl
  rw [hconclude]
  unfold runSourceWith projectSource
  rw [StateT.run_bind, load_onFiles, pure_bind]
  cases load tree (settings.resolve (.ofText source.file)) <;> rfl

theorem runSourcesWith_onFiles (planned : List (Operation.Source × Mapping)) :
    (runSourcesWith (onFiles settings.indent) settings now op planned).run tree =
      pure (runSources settings now tree op planned, tree) := by
  induction planned with
  | nil => rfl
  | cons first rest ih =>
    obtain ⟨source, mapping⟩ := first
    unfold runSourcesWith runSources
    rw [StateT.run_bind, runSourceWith_onFiles, pure_bind]
    rcases runSource settings now tree op source mapping with ⟨journal, _ | readings⟩
    · rfl
    · dsimp only
      rw [StateT.run_bind, ih]
      rfl

theorem finishWith_onFiles (readings : List Reading) :
    (finishWith (onFiles settings.indent) settings op readings).run tree =
      pure (((finish settings tree op readings).journal, (finish settings tree op readings).result),
        (finish settings tree op readings).tree) := by
  unfold finishWith finish
  cases Summary.ofReadings readings with
  | error error => rfl
  | ok summaries =>
    unfold deliver
    dsimp only
    rw [StateT.run_bind, write_onFiles, pure_bind]
    rcases writeSummaries tree settings.indent (settings.resolve (.ofText op.destination)) summaries
      with ⟨after, _ | _⟩ <;> rfl

theorem runPlanWith_onFiles :
    (runPlanWith (onFiles settings.indent) settings now op).run tree =
      pure (((runPlan settings now tree op).journal, (runPlan settings now tree op).result),
        (runPlan settings now tree op).tree) := by
  unfold runPlanWith runPlan
  cases plan op with
  | error fault => rfl
  | ok sources =>
    dsimp only
    rw [StateT.run_bind, runSourcesWith_onFiles, pure_bind]
    rcases runSources settings now tree op sources with ⟨journal, _ | readings⟩
    · rfl
    · dsimp only
      rw [StateT.run_bind, finishWith_onFiles]
      rfl

/-- With files as its collaborators an operation does to a file tree what `run` does. -/
theorem runWith_onFiles :
    (runWith (onFiles settings.indent) settings now op).run tree =
      pure (((run settings now tree op).journal, (run settings now tree op).result),
        (run settings now tree op).tree) := by
  unfold runWith run
  rw [StateT.run_bind, runPlanWith_onFiles]
  rfl

end FeedMerge.Merge
