import FeedMerge.Proofs.Engine.Sequence
import FeedMerge.Proofs.Merge.Effect
import FeedMerge.Proofs.Timestamp.Utc

/-!
# Running the same operations again

Operations that went through can be run again on the files that they left, if none reads a file that
one of them writes: every source is as it was, and every destination can be replaced once more, since
files stay files and directories stay directories. What the first run put at a place the second run
puts there as well, in the same order, so nothing has changed in the end; this is so although on its
way the second run undoes what later operations of the first have written over earlier ones.

Time passes between the two runs. A record whose time is told by the clock, as by `now` or by a time
of day without its date, is another one in the second run; what is said here is said of runs whose
records tell the same times at both readings of the clock, as all texts in the form of ISO 8601 do.
-/

namespace FeedMerge.Engine

open Merge
open FileTree (KeepsKinds Replaceable)

variable {settings : Settings} {now later : Timestamp} {tree after : FileTree}
  {steps : List (Operation × Outcome)}

/-! ### Files and directories along a sequence -/

theorem keepsKinds_alone (settings : Settings) (now : Timestamp) (tree : FileTree)
    (op : Operation) :
    KeepsKinds tree (alone settings now tree op).tree := by
  cases h : (alone settings now tree op).result with
  | error error => exact (grows_of_alone h).keepsKinds
  | ok summaries => exact FileTree.keepsKinds_of_replace (written_of_alone h)

theorem Sequence.keepsKinds (h : Sequence settings now tree steps after) :
    KeepsKinds tree after := by
  induction h with
  | nil => exact .refl _
  | cons hrest ih => exact (keepsKinds_alone settings now _ _).trans ih

/-! ### Runs of a sequence -/

theorem runEach_of_sequence {e : Engine} (h : Sequence e.settings now tree steps after) :
    e.runEach now tree (steps.map Prod.fst) = steps.map Prod.snd := by
  generalize hsettings : e.settings = settings at h
  induction h generalizing e with
  | nil => rfl
  | @cons tree after op steps hrest ih =>
    have houtcome := outcome_run_eq_alone e now tree op
    rw [hsettings] at houtcome
    have hnext := ih ((settings_run e now tree op).trans hsettings)
    rw [List.map_cons, List.map_cons, runEach]
    dsimp only
    rw [houtcome, hnext]

theorem runAll_of_sequence {e : Engine} (h : Sequence e.settings now tree steps after)
    (hpassed : ∀ s ∈ steps, s.2.result.isOk = true) :
    e.runAll now tree (steps.map Prod.fst) = ⟨.ok (), journalOf steps, after⟩ := by
  generalize hsettings : e.settings = settings at h
  induction h generalizing e with
  | nil => rfl
  | @cons tree after op steps hrest ih =>
    obtain ⟨hfirst, hlater⟩ := List.forall_mem_cons.mp hpassed
    have houtcome := outcome_run_eq_alone e now tree op
    rw [hsettings] at houtcome
    have hnext := ih hlater ((settings_run e now tree op).trans hsettings)
    cases hresult : (alone settings now tree op).result with
    | error error =>
      rw [hresult] at hfirst
      cases hfirst
    | ok summaries =>
      rw [List.map_cons, runAll]
      dsimp only
      rw [houtcome, hresult, hnext]
      rfl

/-- A run over operations that goes through is a sequence in which each of them does. -/
theorem exists_sequence_of_runAll_eq_ok {e : Engine} {ops : List Operation}
    (h : (e.runAll now tree ops).result = .ok ()) :
    ∃ steps, Sequence e.settings now tree steps (e.runAll now tree ops).tree ∧
      steps.map Prod.fst = ops ∧ (∀ s ∈ steps, s.2.result.isOk = true) ∧
      (e.runAll now tree ops).journal = journalOf steps := by
  obtain ⟨steps, rest, result, after, hsteps, hops, hended, hrun, -⟩ :=
    exists_sequence_runAll e now tree ops
  rw [hrun] at h ⊢
  cases hended with
  | through hpassed =>
    rw [List.append_nil] at hops
    exact ⟨steps, hsteps, hops.symm, hpassed, rfl⟩
  | stopped => cases h

/-! ### The second run -/

/-- What two runs do to the place: the second one leaves there what the first has left, or neither
touches it. -/
def SameThere (before after again last : FileTree) (place : Place) : Prop :=
  last.node? place = after.node? place ∨
    (last.node? place = again.node? place ∧ after.node? place = before.node? place)

theorem SameThere.trans {before middle after again next last : FileTree} {place : Place}
    (hfirst : SameThere before middle again next place)
    (hsecond : SameThere middle after next last place) :
    SameThere before after again last place := by
  rcases hsecond with hlast | ⟨hlast, hafter⟩
  · exact .inl hlast
  · rcases hfirst with hnext | ⟨hnext, hmiddle⟩
    · exact .inl (hlast.trans (hnext.trans hafter.symm))
    · exact .inr ⟨hlast.trans hnext, hafter.trans hmiddle⟩

theorem sameThere_of_replace {again last : FileTree} {path : Path}
    {pieces : List (List Char)} (h : tree.replace path pieces = (after, .ok ()))
    (hagain : again.replace path pieces = (last, .ok ()))
    (hworking : again.workingDirectory = tree.workingDirectory) (place : Place) :
    SameThere tree after again last place := by
  unfold SameThere
  rw [FileTree.node?_of_replace h, FileTree.node?_of_replace hagain,
    FileTree.replacement_of_workingDirectory_eq hworking]
  cases tree.replacement path (.ofList pieces.flatten) place with
  | none => exact .inr ⟨rfl, rfl⟩
  | some node => exact .inl rfl

/-- What is the same file in two trees is so behind the same replacement of another file. -/
theorem file?_eq_of_replace {again last : FileTree} {path : Path} {pieces : List (List Char)}
    (h : tree.replace path pieces = (after, .ok ()))
    (hagain : again.replace path pieces = (last, .ok ()))
    (hworking : again.workingDirectory = tree.workingDirectory) {place : Place}
    (hne : place ≠ tree.target path) (hfile : again.file? place = tree.file? place) :
    last.file? place = after.file? place := by
  rw [FileTree.file?_of_replace h hne, ← hfile]
  refine FileTree.file?_of_replace hagain ?_
  rwa [FileTree.target_of_workingDirectory_eq hworking]

/-- No source of the operations is where one of them writes. -/
def ReadsNoResult (settings : Settings) (tree : FileTree) (ops : List Operation) : Prop :=
  ∀ a ∈ ops, ∀ source ∈ a.sources, ∀ b ∈ ops,
    tree.target (sourcePath settings source) ≠ tree.target (destination settings b)

/-- The records of all sources of the operations tell the same times at two readings of the clock.
-/
def KeepsTime (settings : Settings) (now later : Timestamp) (tree : FileTree)
    (ops : List Operation) : Prop :=
  ∀ op ∈ ops, ∀ source ∈ op.sources, SourceKeepsTime settings now later tree op source

theorem Sequence.file?_source_eq (h : Sequence settings now tree steps after)
    (hreads : ReadsNoResult settings tree (steps.map Prod.fst)) {op : Operation}
    (hop : op ∈ steps.map Prod.fst) {source : Operation.Source} (hsource : source ∈ op.sources) :
    after.file? (tree.target (sourcePath settings source)) =
      tree.file? (tree.target (sourcePath settings source)) := by
  refine h.file?_eq fun s hs _ hlocate => ?_
  obtain ⟨-, -, hplace⟩ := FileTree.locate_eq_ok_iff.mp hlocate
  rw [FileTree.target_of_workingDirectory_eq h.keepsDirectories.workingDirectory] at hplace
  exact hreads op hop source hsource s.1 (List.mem_map_of_mem hs) hplace.symm

/-- A sequence in which every operation goes through can be run again wherever what is a file or a
directory behind it still is one, if the sources are as they were and their records tell the same
times. -/
theorem Sequence.exists_again (h : Sequence settings now tree steps after)
    (hpassed : ∀ s ∈ steps, s.2.result.isOk = true)
    (hreads : ReadsNoResult settings tree (steps.map Prod.fst)) {other : FileTree}
    (hkinds : KeepsKinds after other)
    (hfiles : ∀ a ∈ steps.map Prod.fst, ∀ source ∈ a.sources,
      other.file? (tree.target (sourcePath settings source)) =
        tree.file? (tree.target (sourcePath settings source)))
    (htimes : KeepsTime settings now later after (steps.map Prod.fst)) :
    ∃ again last, Sequence settings later other again last ∧
      again.map Prod.fst = steps.map Prod.fst ∧
      again.map (fun s => (s.2.result, s.2.journal)) =
        steps.map (fun s => (s.2.result, s.2.journal)) ∧
      ∀ place, SameThere tree after other last place := by
  induction h generalizing other with
  | nil => exact ⟨[], other, .nil, rfl, rfl, fun _ => .inr ⟨rfl, rfl⟩⟩
  | @cons tree after op steps hrest ih =>
    obtain ⟨hfirst, hlater⟩ := List.forall_mem_cons.mp hpassed
    rw [List.map_cons] at hreads hfiles htimes
    obtain ⟨summaries, hresult⟩ :
        ∃ summaries, (alone settings now tree op).result = .ok summaries := by
      cases hresult : (alone settings now tree op).result with
      | error error =>
        rw [hresult] at hfirst
        cases hfirst
      | ok summaries => exact ⟨summaries, rfl⟩
    have hwritten : tree.replace _ _ = _ := written_of_alone hresult
    have hkept := keepsKinds_alone settings now tree op
    have hbehind : KeepsKinds (alone settings now tree op).tree other :=
      hrest.keepsKinds.trans hkinds
    have hother : other.workingDirectory = tree.workingDirectory :=
      (hkept.trans hbehind).workingDirectory
    -- the operation goes through again
    have hkeepsTime : ∀ source ∈ op.sources, SourceKeepsTime settings now later tree op source :=
      fun source hsource => (htimes op List.mem_cons_self source hsource).before
        (hkept.trans hrest.keepsKinds).keepsDirectories
        ((Sequence.cons hrest).file?_source_eq hreads List.mem_cons_self hsource)
    obtain ⟨next, hrun, hnext⟩ := exists_run_of_keepsDirectories
      (alone_eq_run settings now tree op ▸ hresult) (hkept.trans hbehind).keepsDirectories
      (hfiles op List.mem_cons_self) hkeepsTime (.again hwritten hbehind)
    rw [← alone_eq_run, ← alone_eq_run] at hrun
    -- and the sources behind it are still the same in both trees
    have htarget (path : Path) := FileTree.target_of_workingDirectory_eq hkept.workingDirectory path
    have hreadsRest :
        ReadsNoResult settings (alone settings now tree op).tree (steps.map Prod.fst) := by
      intro a ha source hsource b hb
      rw [htarget, htarget]
      exact hreads a (List.mem_cons_of_mem _ ha) source hsource b (List.mem_cons_of_mem _ hb)
    have hfilesRest : ∀ a ∈ steps.map Prod.fst, ∀ source ∈ a.sources,
        next.file? ((alone settings now tree op).tree.target (sourcePath settings source)) =
          (alone settings now tree op).tree.file?
            ((alone settings now tree op).tree.target (sourcePath settings source)) := by
      intro a ha source hsource
      rw [htarget]
      exact file?_eq_of_replace hwritten hnext hother
        (hreads a (List.mem_cons_of_mem _ ha) source hsource op List.mem_cons_self)
        (hfiles a (List.mem_cons_of_mem _ ha) source hsource)
    obtain ⟨again, last, hagain, hops, houtcomes, hplaces⟩ := ih hlater hreadsRest
      (hkinds.trans (FileTree.keepsKinds_of_replace hnext)) hfilesRest
      fun a ha => htimes a (List.mem_cons_of_mem _ ha)
    have hstep : (alone settings later other op).tree = next := by rw [hrun]
    refine ⟨(op, alone settings later other op) :: again, last, .cons (hstep ▸ hagain), ?_, ?_, ?_⟩
    · rw [List.map_cons, List.map_cons, hops]
    · rw [List.map_cons, List.map_cons, houtcomes, hrun, hresult]
    · intro place
      exact (sameThere_of_replace hwritten hnext hother place).trans (hplaces place)

theorem exists_results_of_passed (h : ∀ s ∈ steps, s.2.result.isOk = true) :
    ∃ results : List (List Summary), steps.map (·.2.result) = results.map .ok := by
  induction steps with
  | nil => exact ⟨[], rfl⟩
  | cons step steps ih =>
    obtain ⟨hfirst, hlater⟩ := List.forall_mem_cons.mp h
    obtain ⟨results, hresults⟩ := ih hlater
    cases hresult : step.2.result with
    | error error =>
      rw [hresult] at hfirst
      cases hfirst
    | ok summaries => exact ⟨summaries :: results, by rw [List.map_cons, hresult, hresults]; rfl⟩

/-- When a run over operations goes through, none of them reads a file that one of them writes, and
the records of their sources tell the same times later on, then the same run on the files that it
left goes through as well, with the same results and the same journal, and leaves at every place
what the first has left. It does not matter which engine runs them again, nor whether destinations
are shared. -/
theorem repeated_run_changes_nothing {e again : Engine} (hsettings : again.settings = e.settings)
    {now later : Timestamp} {tree : FileTree} {ops : List Operation}
    (hrun : (e.runAll now tree ops).result = .ok ()) (hreads : ReadsNoResult e.settings tree ops)
    (htimes : KeepsTime e.settings now later (e.runAll now tree ops).tree ops) :
    ∃ results : List (List Summary),
      (e.runEach now tree ops).map (·.result) = results.map .ok ∧
      (again.runEach later (e.runAll now tree ops).tree ops).map (·.result) = results.map .ok ∧
      (again.runAll later (e.runAll now tree ops).tree ops).result = .ok () ∧
      (again.runAll later (e.runAll now tree ops).tree ops).journal =
        (e.runAll now tree ops).journal ∧
      ∀ place, (again.runAll later (e.runAll now tree ops).tree ops).tree.node? place =
        (e.runAll now tree ops).tree.node? place := by
  obtain ⟨steps, hsteps, hops, hpassed, hjournal⟩ := exists_sequence_of_runAll_eq_ok hrun
  rw [← hops] at hreads
  obtain ⟨repeated, last, hrepeated, hsame, houtcomes, hplaces⟩ :=
    hsteps.exists_again hpassed hreads (.refl _)
      (fun _ hop _ hsource => hsteps.file?_source_eq hreads hop hsource) (by rwa [hops])
  obtain ⟨results, hresults⟩ := exists_results_of_passed hpassed
  have hsameResults : repeated.map (·.2.result) = results.map .ok := by
    have hsame := congrArg (List.map Prod.fst) houtcomes
    rw [List.map_map, List.map_map] at hsame
    exact hsame.trans hresults
  have hsameJournals : journalOf repeated = journalOf steps := by
    have hjournals := congrArg (List.map Prod.snd) houtcomes
    rw [List.map_map, List.map_map] at hjournals
    exact congrArg (List.foldr (· ++ ·) Journal.empty) hjournals
  have hpassedAgain : ∀ s ∈ repeated, s.2.result.isOk = true := by
    intro s hs
    have hmem : s.2.result ∈ results.map .ok := hsameResults ▸ List.mem_map_of_mem hs
    obtain ⟨summaries, -, hresult⟩ := List.mem_map.mp hmem
    rw [← hresult]
    rfl
  rw [← hsettings] at hrepeated
  have hagain := runAll_of_sequence hrepeated hpassedAgain
  have heach := runEach_of_sequence hrepeated
  rw [hsame, hops] at hagain heach
  refine ⟨results, ?_, ?_, ?_, ?_, ?_⟩
  · rw [← hops, runEach_of_sequence hsteps, List.map_map]
    exact hresults
  · rw [heach, List.map_map]
    exact hsameResults
  · rw [hagain]
  · rw [hagain, hsameJournals, hjournal]
  · intro place
    rw [hagain]
    exact (hplaces place).elim id And.left

/-- Two operations with different sources that share a destination. -/
def sharedOperations : List Operation :=
  [{ sampleOperation "new/all.json" with sources := [⟨"a.json", "flat"⟩] },
    { sampleOperation "new/all.json" with sources := [⟨"b.json", "flat"⟩], index := 1 }]

/-- The second of two operations has the last word on a new file, and has it again another day. -/
theorem shared_destination_is_left_alone :
    ∃ results : List (List Summary),
      ((start {}).runEach .start sampleTree sharedOperations).map (·.result) = results.map .ok ∧
      ((start {}).runEach Timestamp.leapEvening
        ((start {}).runAll .start sampleTree sharedOperations).tree
        sharedOperations).map (·.result) = results.map .ok ∧
      ((start {}).runAll Timestamp.leapEvening
        ((start {}).runAll .start sampleTree sharedOperations).tree
        sharedOperations).result = .ok () ∧
      ∀ place, ((start {}).runAll Timestamp.leapEvening
          ((start {}).runAll .start sampleTree sharedOperations).tree
          sharedOperations).tree.node? place =
        ((start {}).runAll .start sampleTree sharedOperations).tree.node? place := by
  have hrun : ((start {}).runAll .start sampleTree sharedOperations).result = .ok () := by
    decide +kernel
  have hreads : ReadsNoResult {} sampleTree sharedOperations := by
    unfold ReadsNoResult
    decide +kernel
  have hdated : ∀ op ∈ sharedOperations, ∀ source ∈ op.sources,
      ((op.transformations.lookup source.transformation).all fun mapping =>
        (load ((start {}).runAll .start sampleTree sharedOperations).tree
          (sourcePath {} source)).toOption.all fun document =>
            (Projection.ofDocument mapping.rules (.empty .start) document).emissions.all fun e =>
              (e.context.get? Reading.Field.createdAt.name).all Timestamp.isIso) = true := by
    decide +kernel
  have htimes : KeepsTime {} .start Timestamp.leapEvening
      ((start {}).runAll .start sampleTree sharedOperations).tree sharedOperations := by
    intro op hop source hsource mapping document hmapping hload e he
    have hall := hdated op hop source hsource
    rw [hmapping, hload] at hall
    exact Context.keepsTime_of_isIso (List.all_eq_true.mp hall e he) _ _
  have hsettings : (start {}).settings = (start {}).settings := rfl
  obtain ⟨results, hfirst, hsecond, hok, -, hplaces⟩ :=
    repeated_run_changes_nothing hsettings hrun hreads htimes
  exact ⟨results, hfirst, hsecond, hok, hplaces⟩

/-- The first source with a reading of just now. -/
def presentTree : FileTree :=
  sampleTree.plant ["work", "a.json"] (.file ("[\x7b\"Id\": 7, \"Name\": \"north\", " ++
    "\"At\": \"now\", \"Reading\": 20\x7d]").toUTF8)

def presentOperation : Operation :=
  { sampleOperation "new/all.json" with sources := [⟨"a.json", "flat"⟩] }

/-- A reading of just now is another one in the second run, and so is its summary. -/
theorem present_reading_is_another_later :
    ((start {}).runAll .start presentTree [presentOperation]).result = .ok () ∧
    ReadsNoResult {} presentTree [presentOperation] ∧
    ((start {}).runEach Timestamp.leapEvening
        ((start {}).runAll .start presentTree [presentOperation]).tree
        [presentOperation]).map (·.result) ≠
      ((start {}).runEach .start presentTree [presentOperation]).map (·.result) := by
  have hrun : ((start {}).runAll .start presentTree [presentOperation]).result = .ok () := by
    decide +kernel
  have hreads : ReadsNoResult {} presentTree [presentOperation] := by
    unfold ReadsNoResult
    decide +kernel
  refine ⟨hrun, hreads, fun hsame => ?_⟩
  have htimes := congrArg (List.map fun result =>
    result.toOption.map (List.map Summary.firstReadingAt)) hsame
  rw [List.map_map, List.map_map] at htimes
  revert htimes
  decide +kernel

end FeedMerge.Engine
