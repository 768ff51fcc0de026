import FeedMerge.Engine
import FeedMerge.Proofs.Merge.Outcome

/-!
# Operations in sequence

An engine keeps its interpreter as long as it lives and hands one sink from source to source.
Neither makes a difference to later operations: every operation begins with an empty sink, and no
outcome depends on what has been traced (`outcome_run`). So whatever an engine runs in the course of
its life is a sequence of operations that are each run by an engine of their own, on the files that
the one before left (`Sequence`).

Along a sequence no directory is lost. Hence a destination goes on leading to where it led when it
was written, and what stands there is only replaced by an operation whose destination leads to the
same place (`Sequence.file?_eq`).
-/

namespace FeedMerge.Engine

open Merge

variable {settings : Settings} {now : Timestamp} {tree after : FileTree} {op : Operation}

/-! ### What an engine carries on -/

theorem journal_project (e : Engine) (now : Timestamp) (rules : List Rule) (document : Json)
    (sink : List Reading) :
    (e.project now rules document sink).journal =
      projectionJournal e.settings.verbose (Projection.ofDocument rules (.empty now) document) := by
  simp [project, projectionJournal, Projection.readings]

theorem settings_runSource (e : Engine) (sink : List Reading) (source : Operation.Source)
    (mapping : Mapping) :
    (e.runSource now tree op sink source mapping).1.settings = e.settings := by
  unfold runSource
  dsimp only
  split
  · rfl
  · split
    · rfl
    · rfl

/-- A source adds the readings to a sink that it has without one, and leaves the same journal. -/
theorem runSource_eq (e : Engine) (sink : List Reading) (source : Operation.Source)
    (mapping : Mapping) :
    (e.runSource now tree op sink source mapping).2 =
      ((Merge.runSource e.settings now tree op source mapping).1,
        (Merge.runSource e.settings now tree op source mapping).2.map (sink ++ ·)) := by
  have hjournal (document : Json) := journal_project e now mapping.rules document sink
  unfold runSource Merge.runSource Merge.projectSource Merge.projectDocument
  cases load tree (e.settings.resolve (.ofText source.file)) with
  | error error => rfl
  | ok document =>
    dsimp only
    cases herror : (Projection.ofDocument mapping.rules (.empty now) document).error with
    | some error =>
      have hp : (e.project now mapping.rules document sink).error = some error := herror
      rw [hp, ← hjournal]
      rfl
    | none =>
      have hp : (e.project now mapping.rules document sink).error = none := herror
      have hsink : (e.project now mapping.rules document sink).sink =
        sink ++ (Projection.ofDocument mapping.rules (.empty now) document).readings := rfl
      rw [hp, ← hjournal, hsink]
      dsimp only
      rw [List.length_append, Nat.add_sub_cancel_left]
      rfl

theorem settings_runSources (e : Engine) (sink : List Reading)
    (planned : List (Operation.Source × Mapping)) :
    (e.runSources now tree op sink planned).1.settings = e.settings := by
  induction planned generalizing e sink with
  | nil => rfl
  | cons first rest ih =>
    obtain ⟨source, mapping⟩ := first
    have hsettings := @settings_runSource now tree op e sink source mapping
    unfold runSources
    rcases hfirst : e.runSource now tree op sink source mapping with ⟨next, journal, _ | continued⟩
    · rwa [hfirst] at hsettings
    · rw [hfirst] at hsettings
      exact (ih next continued).trans hsettings

/-- The same of some sources, whatever is in the sink and whatever has been traced. -/
theorem runSources_eq (e : Engine) (sink : List Reading)
    (planned : List (Operation.Source × Mapping)) :
    (e.runSources now tree op sink planned).2 =
      ((Merge.runSources e.settings now tree op planned).1,
        (Merge.runSources e.settings now tree op planned).2.map (sink ++ ·)) := by
  induction planned generalizing e sink with
  | nil =>
    show (Journal.empty, Except.ok sink) = (Journal.empty, Except.ok (sink ++ []))
    rw [List.append_nil]
  | cons first rest ih =>
    obtain ⟨source, mapping⟩ := first
    have heq := @runSource_eq now tree op e sink source mapping
    have hsettings := @settings_runSource now tree op e sink source mapping
    unfold runSources Merge.runSources
    rcases hfirst : e.runSource now tree op sink source mapping with ⟨next, result⟩
    rw [hfirst] at heq hsettings
    dsimp only at heq hsettings
    rcases hown : Merge.runSource e.settings now tree op source mapping with ⟨journal, _ | readings⟩
    · rw [hown] at heq
      obtain rfl : result = (journal, _) := heq
      rfl
    · rw [hown] at heq
      obtain rfl : result = (journal, _) := heq
      -- the sink that is handed on is continued, and so is what the rest adds to it
      have hrest := ih next (sink ++ readings)
      rw [hsettings] at hrest
      show (journal ++ (next.runSources now tree op (sink ++ readings) rest).2.1,
        (next.runSources now tree op (sink ++ readings) rest).2.2) = _
      rw [hrest]
      dsimp only
      rcases Merge.runSources e.settings now tree op rest with ⟨more, _ | added⟩
      · rfl
      · simp only [Except.map, List.append_assoc]

theorem settings_run (e : Engine) (now : Timestamp) (tree : FileTree) (op : Operation) :
    (e.run now tree op).1.settings = e.settings := by
  unfold run runPlan
  dsimp only
  cases plan op with
  | error fault => rfl
  | ok sources =>
    have hsettings := @settings_runSources now tree op e [] sources
    dsimp only
    rcases hsources : e.runSources now tree op [] sources with ⟨next, journal, _ | readings⟩
    · rwa [hsources] at hsettings
    · rwa [hsources] at hsettings

theorem outcome_runPlan (e : Engine) (now : Timestamp) (tree : FileTree) (op : Operation) :
    (e.runPlan now tree op).2 = Merge.runPlan e.settings now tree op := by
  unfold runPlan Merge.runPlan
  cases plan op with
  | error fault => rfl
  | ok sources =>
    have hsettings := @settings_runSources now tree op e [] sources
    have heq := @runSources_eq now tree op e [] sources
    dsimp only
    rcases hsources : e.runSources now tree op [] sources with ⟨next, result⟩
    rw [hsources] at heq hsettings
    dsimp only at heq hsettings
    rcases hown : Merge.runSources e.settings now tree op sources with ⟨journal, _ | readings⟩
    · rw [hown] at heq
      obtain rfl : result = (journal, _) := heq
      rfl
    · rw [hown] at heq
      obtain rfl : result = (journal, _) := heq
      rw [← hsettings]
      rfl

/-- What an operation gives does not depend on what the engine did before. -/
theorem outcome_run (e : Engine) (now : Timestamp) (tree : FileTree) (op : Operation) :
    (e.run now tree op).2 = Merge.run e.settings now tree op := by
  unfold run Merge.run
  rw [← outcome_runPlan]

/-- Without its interpreter and its sinks an engine is a recursion over operations. -/
theorem runAll_eq (e : Engine) (now : Timestamp) (tree : FileTree) (ops : List Operation) :
    e.runAll now tree ops = Merge.runAll e.settings now tree ops := by
  induction ops generalizing e tree with
  | nil => rfl
  | cons op ops ih =>
    have houtcome := outcome_run e now tree op
    have hrest := ih (e.run now tree op).1 (e.run now tree op).2.tree
    rw [settings_run, houtcome] at hrest
    unfold runAll Merge.runAll
    dsimp only
    cases hresult : (Merge.run e.settings now tree op).result with
    | error error => rw [houtcome, hresult]
    | ok summaries => rw [houtcome, hrest, hresult]

/-- The outcome of an operation that an engine of its own runs. -/
def alone (settings : Settings) (now : Timestamp) (tree : FileTree) (op : Operation) : Outcome :=
  ((start settings).run now tree op).2

theorem alone_eq_run (settings : Settings) (now : Timestamp) (tree : FileTree) (op : Operation) :
    alone settings now tree op = Merge.run settings now tree op :=
  outcome_run (start settings) now tree op

theorem outcome_run_eq_alone (e : Engine) (now : Timestamp) (tree : FileTree) (op : Operation) :
    (e.run now tree op).2 = alone e.settings now tree op :=
  (outcome_run e now tree op).trans (alone_eq_run e.settings now tree op).symm

/-! ### Sequences -/

/-- Operations with their outcomes, each of them run by an engine of its own on the files that the
one before it left. -/
inductive Sequence (settings : Settings) (now : Timestamp) :
    FileTree → List (Operation × Outcome) → FileTree → Prop
  | nil {tree : FileTree} : Sequence settings now tree [] tree
  | cons {tree after : FileTree} {op : Operation} {steps : List (Operation × Outcome)}
      (hrest : Sequence settings now (alone settings now tree op).tree steps after) :
      Sequence settings now tree ((op, alone settings now tree op) :: steps) after

theorem exists_sequence_runEach (e : Engine) (now : Timestamp) (tree : FileTree)
    (ops : List Operation) :
    ∃ steps after, Sequence e.settings now tree steps after ∧ steps.map Prod.fst = ops ∧
      steps.map Prod.snd = e.runEach now tree ops := by
  induction ops generalizing e tree with
  | nil => exact ⟨[], tree, .nil, rfl, rfl⟩
  | cons op ops ih =>
    have houtcome := outcome_run_eq_alone e now tree op
    obtain ⟨steps, after, hsteps, hops, houtcomes⟩ :=
      ih (e.run now tree op).1 (e.run now tree op).2.tree
    rw [settings_run, houtcome] at hsteps
    refine ⟨(op, alone e.settings now tree op) :: steps, after, .cons hsteps, ?_, ?_⟩
    · rw [List.map_cons, hops]
    · rw [List.map_cons, houtcomes, ← houtcome]
      rfl

/-- The journals of some operations, one after another. -/
def journalOf (steps : List (Operation × Outcome)) : Journal :=
  (steps.map (·.2.journal)).foldr (· ++ ·) .empty

theorem journalOf_singleton (step : Operation × Outcome) : journalOf [step] = step.2.journal := by
  show Journal.append _ _ = _
  simp [Journal.append, Journal.empty]

/-- A run over operations ends with the last of them if none fails, and else with the first that
does. -/
inductive Ended : List (Operation × Outcome) → List Operation → Except Error Unit → Prop
  | through {steps : List (Operation × Outcome)} (hpassed : ∀ s ∈ steps, s.2.result.isOk = true) :
      Ended steps [] (.ok ())
  | stopped {steps : List (Operation × Outcome)} {last : Operation × Outcome}
      {rest : List Operation} {error : Error} (hpassed : ∀ s ∈ steps, s.2.result.isOk = true)
      (herror : last.2.result = .error error) : Ended (steps ++ [last]) rest (.error error)

theorem Ended.cons {step : Operation × Outcome} {steps : List (Operation × Outcome)}
    {rest : List Operation} {result : Except Error Unit} (h : Ended steps rest result)
    (hstep : step.2.result.isOk = true) : Ended (step :: steps) rest result := by
  cases h with
  | through hpassed => exact .through (List.forall_mem_cons.mpr ⟨hstep, hpassed⟩)
  | stopped hpassed herror =>
    rw [← List.cons_append]
    exact .stopped (List.forall_mem_cons.mpr ⟨hstep, hpassed⟩) herror

theorem exists_sequence_runAll (e : Engine) (now : Timestamp) (tree : FileTree)
    (ops : List Operation) :
    ∃ steps rest result after, Sequence e.settings now tree steps after ∧
      ops = steps.map Prod.fst ++ rest ∧ Ended steps rest result ∧
      e.runAll now tree ops = ⟨result, journalOf steps, after⟩ ∧
      ∀ error, result = .error error → ∀ others,
        e.runAll now tree (steps.map Prod.fst ++ others) = ⟨result, journalOf steps, after⟩ := by
  have hpassed : ∀ s ∈ ([] : List (Operation × Outcome)), s.2.result.isOk = true :=
    List.forall_mem_nil _
  induction ops generalizing e tree with
  | nil =>
    refine ⟨[], [], .ok (), tree, .nil, rfl, .through hpassed, rfl, ?_⟩
    intro error herror
    cases herror
  | cons op ops ih =>
    have houtcome := outcome_run_eq_alone e now tree op
    cases hresult : (alone e.settings now tree op).result with
    | error error =>
      -- nothing behind the operation is looked at
      have hstops (others : List Operation) : e.runAll now tree (op :: others) =
          ⟨.error error, journalOf [(op, alone e.settings now tree op)],
            (alone e.settings now tree op).tree⟩ := by
        unfold runAll
        dsimp only
        rw [houtcome, hresult, journalOf_singleton]
      refine ⟨[(op, alone e.settings now tree op)], ops, .error error,
        (alone e.settings now tree op).tree, .cons .nil, rfl, ?_, hstops ops, fun _ _ => hstops⟩
      have hended := @Ended.stopped [] (op, alone e.settings now tree op) ops error hpassed hresult
      exact hended
    | ok summaries =>
      obtain ⟨steps, rest, result, after, hsteps, hops, hended, hrun, hstops⟩ :=
        ih (e.run now tree op).1 (e.run now tree op).2.tree
      rw [settings_run, houtcome] at hsteps
      have hgoesOn {others : List Operation}
          (hothers : (e.run now tree op).1.runAll now (e.run now tree op).2.tree others =
            ⟨result, journalOf steps, after⟩) :
          e.runAll now tree (op :: others) =
            ⟨result, journalOf ((op, alone e.settings now tree op) :: steps), after⟩ := by
        unfold runAll
        dsimp only
        rw [hothers, houtcome, hresult]
        rfl
      refine ⟨(op, alone e.settings now tree op) :: steps, rest, result, after, .cons hsteps,
        ?_, ?_, hgoesOn hrun, fun error herror others => hgoesOn (hstops error herror others)⟩
      · rw [hops]
        rfl
      · refine hended.cons ?_
        show (alone e.settings now tree op).result.isOk = true
        rw [hresult]
        rfl

/-! ### Destinations -/

theorem written_of_alone {summaries : List Summary}
    (h : (alone settings now tree op).result = .ok summaries) :
    writeSummaries tree settings.indent (destination settings op) summaries =
      ((alone settings now tree op).tree, .ok ()) := by
  rw [alone_eq_run] at h ⊢
  exact (runPlan_course settings now tree op).written_of_ok h

theorem grows_of_alone {error : Error} (h : (alone settings now tree op).result = .error error) :
    FileTree.Grows tree (alone settings now tree op).tree
      (tree.OnTheWay (destination settings op).parent) := by
  rw [alone_eq_run] at h ⊢
  exact (runPlan_course settings now tree op).grows_of_error h

theorem keepsDirectories_alone (settings : Settings) (now : Timestamp) (tree : FileTree)
    (op : Operation) :
    FileTree.KeepsDirectories tree (alone settings now tree op).tree := by
  cases h : (alone settings now tree op).result with
  | error error => exact (grows_of_alone h).keepsDirectories
  | ok summaries => exact FileTree.keepsDirectories_of_replace (written_of_alone h)

theorem Sequence.keepsDirectories {steps : List (Operation × Outcome)}
    (h : Sequence settings now tree steps after) : FileTree.KeepsDirectories tree after := by
  induction h with
  | nil => exact .refl _
  | cons hrest ih => exact (keepsDirectories_alone settings now _ _).trans ih

/-- A file is as it was if no operation that went through has a destination that leads to it. -/
theorem Sequence.file?_eq {steps : List (Operation × Outcome)} {place : Place}
    (h : Sequence settings now tree steps after)
    (hother : ∀ s ∈ steps, s.2.result.isOk = true →
      after.locate (destination settings s.1) ≠ .ok place) :
    after.file? place = tree.file? place := by
  induction h with
  | nil => rfl
  | @cons tree after op steps hrest ih =>
    obtain ⟨hfirst, hlater⟩ := List.forall_mem_cons.mp hother
    rw [ih hlater]
    cases hresult : (alone settings now tree op).result with
    | error error => exact (grows_of_alone hresult).file?_eq place
    | ok summaries =>
      obtain ⟨written, hlocate, -, hothers⟩ :=
        exists_place_of_writeSummaries (written_of_alone hresult)
      refine hothers place fun heq => ?_
      -- the destination still leads there after the operations behind it
      have hleads := hrest.keepsDirectories.locate hlocate
      refine hfirst ?_ (heq ▸ hleads)
      show (alone settings now tree op).result.isOk = true
      rw [hresult]
      rfl

/-- The operations that went through have delivered: the destination of each holds its summaries,
unless a later one that went through has a destination that leads to the same place. -/
def Delivered (settings : Settings) (steps : List (Operation × Outcome)) (tree : FileTree) : Prop :=
  ∀ earlier op outcome later summaries, steps = earlier ++ (op, outcome) :: later →
    outcome.result = .ok summaries →
    ∃ place, tree.locate (destination settings op) = .ok place ∧
      ((∀ s ∈ later, s.2.result.isOk = true →
          tree.locate (destination settings s.1) ≠ .ok place) →
        tree.file? place = some (fileText settings.indent summaries).toUTF8)

theorem Sequence.delivered {steps : List (Operation × Outcome)}
    (h : Sequence settings now tree steps after) : Delivered settings steps after := by
  induction h with
  | nil =>
    intro earlier op outcome later summaries hsteps
    simp at hsteps
  | @cons tree after op steps hrest ih =>
    intro earlier op' outcome later summaries hsteps hresult
    cases earlier with
    | cons first earlier =>
      obtain ⟨-, hsteps⟩ := List.cons.inj hsteps
      exact ih earlier op' outcome later summaries hsteps hresult
    | nil =>
      obtain ⟨hstep, rfl⟩ := List.cons.inj hsteps
      obtain ⟨rfl, rfl⟩ := Prod.mk.inj hstep
      obtain ⟨place, hlocate, hfile, -⟩ :=
        exists_place_of_writeSummaries (written_of_alone hresult)
      refine ⟨place, hrest.keepsDirectories.locate hlocate, fun hlater => ?_⟩
      rw [hrest.file?_eq hlater, hfile]

/-! ### The life of an engine -/

/-- One engine that runs operations one after another, also behind failures, gives for each of them
what an engine of its own would give on the files left by those before. Given all at once, they run
in the same way up to the first that fails: its error is the error of the run, the journal and the
files are those of the operations up to it, and the ones behind it make no difference. Either way
every operation that went through has delivered. -/
theorem runs_in_sequence (e : Engine) (now : Timestamp) (tree : FileTree) (ops : List Operation) :
    (∃ steps after, Sequence e.settings now tree steps after ∧ steps.map Prod.fst = ops ∧
      steps.map Prod.snd = e.runEach now tree ops ∧ Delivered e.settings steps after) ∧
    ∃ steps rest result after, Sequence e.settings now tree steps after ∧
      ops = steps.map Prod.fst ++ rest ∧ Ended steps rest result ∧
      e.runAll now tree ops = ⟨result, journalOf steps, after⟩ ∧
      (∀ error, result = .error error → ∀ others,
        e.runAll now tree (steps.map Prod.fst ++ others) = ⟨result, journalOf steps, after⟩) ∧
      Delivered e.settings steps after := by
  constructor
  · obtain ⟨steps, after, hsteps, hops, houtcomes⟩ := exists_sequence_runEach e now tree ops
    exact ⟨steps, after, hsteps, hops, houtcomes, hsteps.delivered⟩
  · obtain ⟨steps, rest, result, after, hsteps, hops, hended, hrun, hstops⟩ :=
      exists_sequence_runAll e now tree ops
    exact ⟨steps, rest, result, after, hsteps, hops, hended, hrun, hstops, hsteps.delivered⟩

end FeedMerge.Engine
