import FeedMerge.Proofs.Files.Effect
import FeedMerge.Proofs.Merge.Outcome
import FeedMerge.Proofs.Projection.Clock

/-!
# What an operation depends on

Of the files that an operation is run on, only those of its sources matter to its result, and of
the rest only that the directories on the way are there and that the destination can be replaced.
So an operation that went through on one tree goes through on another one that has the directories
of the first, the same sources, and room for the destination; its summaries and its journal are the
same, and it does to the other tree what it did to the first. It need not be run at the same time,
if the records of its sources tell the same times at both readings of the clock.
-/

namespace FeedMerge.Merge

open FileTree (KeepsDirectories KeepsKinds Replaceable)

variable {settings : Settings} {now later : Timestamp} {tree other : FileTree} {op : Operation}
  {summaries : List Summary}

/-- Where the file of a source is. -/
def sourcePath (settings : Settings) (source : Operation.Source) : Path :=
  settings.resolve (.ofText source.file)

/-! ### Sources on another tree -/

theorem load_of_keepsDirectories {path : Path} {document : Json}
    (hload : load tree path = .ok document) (hkept : KeepsDirectories tree other)
    (hfile : other.file? (tree.target path) = tree.file? (tree.target path)) :
    load other path = load tree path := by
  unfold load at hload ⊢
  cases hread : tree.read path with
  | error error =>
    rw [hread] at hload
    cases hload
  | ok content => rw [FileTree.read_of_keepsDirectories hread hkept hfile]

/-! ### Sources at another reading of the clock -/

/-- The records of a source tell the same times at two readings of the clock. -/
def SourceKeepsTime (settings : Settings) (now later : Timestamp) (tree : FileTree)
    (op : Operation) (source : Operation.Source) : Prop :=
  ∀ mapping document, op.transformations.lookup source.transformation = some mapping →
    load tree (sourcePath settings source) = .ok document →
      Projection.KeepsTime mapping.rules now later document

theorem sourceKeepsTime_self (settings : Settings) (now : Timestamp) (tree : FileTree)
    (op : Operation) (source : Operation.Source) :
    SourceKeepsTime settings now now tree op source :=
  fun _ _ _ _ _ _ _ _ => rfl

/-- What is said of a source where it was read later on holds where it was read before. -/
theorem SourceKeepsTime.before {source : Operation.Source}
    (h : SourceKeepsTime settings now later other op source) (hkept : KeepsDirectories tree other)
    (hfile : other.file? (tree.target (sourcePath settings source)) =
      tree.file? (tree.target (sourcePath settings source))) :
    SourceKeepsTime settings now later tree op source :=
  fun mapping document hmapping hload =>
    h mapping document hmapping ((load_of_keepsDirectories hload hkept hfile).trans hload)

theorem projectDocument_of_keepsTime {verbose : Bool} {rules : List Rule} {document : Json}
    (hpassed : (Projection.ofDocument rules (.empty now) document).error = none)
    (htimes : Projection.KeepsTime rules now later document) :
    projectDocument verbose later rules document = projectDocument verbose now rules document := by
  have hlater : Projection.ofDocument rules (.empty later) document =
      (Projection.ofDocument rules (.empty now) document).withClock later :=
    Projection.ofDocument_withClock hpassed htimes
  have hreadings (p : Projection) : (p.withClock later).readings = p.readings :=
    List.map_map
  have hjournal (p : Projection) : projectionJournal verbose (p.withClock later) =
      projectionJournal verbose p := by
    unfold projectionJournal emissionLines Projection.withClock
    rw [List.map_map, List.length_map]
    rfl
  unfold projectDocument
  dsimp only
  rw [hlater, hreadings, hjournal]
  rfl

/-- A source whose document is the same contributes the same, and leaves the same journal. -/
theorem runSource_of_keepsTime {source : Operation.Source} {mapping : Mapping} {journal : Journal}
    {readings : List Reading} (hmapping : op.mappingFor source = .ok mapping)
    (h : runSource settings now tree op source mapping = (journal, .ok readings))
    (hload : ∀ document, load tree (sourcePath settings source) = .ok document →
      load other (sourcePath settings source) = .ok document)
    (htimes : SourceKeepsTime settings now later tree op source) :
    runSource settings later other op source mapping = (journal, .ok readings) := by
  obtain ⟨found, document, hfound, hdocument, hpassed, -⟩ := sourceReadings_of_runSource hmapping h
  obtain rfl : found = mapping :=
    Option.some.inj (hfound.symm.trans (lookup_of_mappingFor hmapping))
  have hproject : projectSource settings later other source found =
      projectSource settings now tree source found := by
    have hother := hload document hdocument
    rw [sourcePath] at hother
    rw [projectSource, projectSource, hother, hdocument]
    exact projectDocument_of_keepsTime hpassed (htimes found document hfound hdocument)
  rw [← h, runSource, runSource, hproject]

theorem runSources_of_keepsTime {planned : List (Operation.Source × Mapping)} {journal : Journal}
    {readings : List Reading} (hmapping : ∀ p ∈ planned, op.mappingFor p.1 = .ok p.2)
    (h : runSources settings now tree op planned = (journal, .ok readings))
    (hload : ∀ p ∈ planned, ∀ document, load tree (sourcePath settings p.1) = .ok document →
      load other (sourcePath settings p.1) = .ok document)
    (htimes : ∀ p ∈ planned, SourceKeepsTime settings now later tree op p.1) :
    runSources settings later other op planned = (journal, .ok readings) := by
  induction planned generalizing journal readings with
  | nil => exact h
  | cons first rest ih =>
    obtain ⟨hfirst, hrest⟩ := List.forall_mem_cons.mp hmapping
    obtain ⟨hloadFirst, hloadRest⟩ := List.forall_mem_cons.mp hload
    obtain ⟨htimesFirst, htimesRest⟩ := List.forall_mem_cons.mp htimes
    rw [runSources] at h ⊢
    rcases hrun : runSource settings now tree op first.1 first.2 with ⟨own, error | found⟩
    · rw [hrun] at h
      cases h
    · rw [hrun] at h
      rcases hmore : runSources settings now tree op rest with ⟨more, error | others⟩
      · rw [hmore] at h
        cases h
      · rw [hmore] at h
        rw [runSource_of_keepsTime hfirst hrun hloadFirst htimesFirst,
          ih hrest hmore hloadRest htimesRest]
        exact h

/-- Sources with the same files, whose records tell the same times, give the same readings and leave
the same journal. -/
theorem runSources_of_keepsDirectories {planned : List (Operation.Source × Mapping)}
    {journal : Journal} {readings : List Reading} (hplan : plan op = .ok planned)
    (hsources : runSources settings now tree op planned = (journal, .ok readings))
    (hkept : KeepsDirectories tree other)
    (hfiles : ∀ source ∈ op.sources, other.file? (tree.target (sourcePath settings source)) =
      tree.file? (tree.target (sourcePath settings source)))
    (htimes : ∀ source ∈ op.sources, SourceKeepsTime settings now later tree op source) :
    runSources settings later other op planned = (journal, .ok readings) := by
  have hresolved := resolveSources_of_plan hplan
  have hsource : ∀ p ∈ planned, p.1 ∈ op.sources := fun p hp =>
    map_fst_of_resolveSources hresolved ▸ List.mem_map_of_mem hp
  refine runSources_of_keepsTime (mappingFor_of_resolveSources hresolved) hsources
    (fun p hp document hload => ?_) fun p hp => htimes p.1 (hsource p hp)
  rw [load_of_keepsDirectories hload hkept (hfiles p.1 (hsource p hp)), hload]

/-! ### The whole operation -/

theorem runPlan_of_written {planned : List (Operation.Source × Mapping)} {journal : Journal}
    {readings : List Reading} {after : FileTree} (hplan : plan op = .ok planned)
    (hsources : runSources settings now tree op planned = (journal, .ok readings))
    (hsummaries : Summary.ofReadings readings = .ok summaries)
    (hwrite : writeSummaries tree settings.indent (destination settings op) summaries =
      (after, .ok ())) :
    runPlan settings now tree op = ⟨.ok summaries, startJournal op planned ++ journal ++
      writtenJournal settings op summaries, after⟩ := by
  unfold destination at hwrite
  rw [runPlan, hplan]
  dsimp only
  rw [hsources]
  dsimp only
  rw [finish, hsummaries]
  dsimp only
  rw [deliver, hwrite]
  rfl

/-- An operation that went through on one tree goes through on another one that has no directory
less and the same sources, if their records tell the same times and the destination can be replaced
there. -/
theorem exists_run_of_keepsDirectories (h : (run settings now tree op).result = .ok summaries)
    (hkept : KeepsDirectories tree other)
    (hfiles : ∀ source ∈ op.sources, other.file? (tree.target (sourcePath settings source)) =
      tree.file? (tree.target (sourcePath settings source)))
    (htimes : ∀ source ∈ op.sources, SourceKeepsTime settings now later tree op source)
    (hreplaceable : Replaceable other (destination settings op)) :
    ∃ after,
      run settings later other op = ⟨.ok summaries, (run settings now tree op).journal, after⟩ ∧
      writeSummaries other settings.indent (destination settings op) summaries =
        (after, .ok ()) := by
  have hcourse := runPlan_course settings now tree op
  unfold run at h ⊢
  dsimp only at h ⊢
  obtain ⟨-, -, hencoded⟩ := FileTree.path_of_replace (hcourse.written_of_ok h)
  obtain ⟨after, hafter⟩ := hreplaceable.exists_replace hencoded
  refine ⟨after, ?_, hafter⟩
  generalize runPlan settings now tree op = outcome at h hcourse
  cases hcourse with
  | written hplan hsources hsummaries hwrite =>
    cases h
    rw [runPlan_of_written hplan (runSources_of_keepsDirectories hplan hsources hkept hfiles htimes)
      hsummaries hafter]
  | _ => cases h

/-- What a run that succeeds writes puts at a place, if anything. -/
theorem node?_of_written {after : FileTree} {indent : Option Int} {path : Path}
    (h : writeSummaries tree indent path summaries = (after, .ok ())) (place : Place) :
    after.node? place =
      (tree.replacement path (fileText indent summaries) place).or (tree.node? place) := by
  rw [← flatten_filePieces]
  exact FileTree.node?_of_replace h place

theorem written_of_run (h : (run settings now tree op).result = .ok summaries) :
    writeSummaries tree settings.indent (destination settings op) summaries =
      ((run settings now tree op).tree, .ok ()) :=
  (runPlan_course settings now tree op).written_of_ok h

end FeedMerge.Merge
