import FeedMerge.CommandLine
import FeedMerge.Proofs.Merge.OutOfRange

/-!
# How the program ends

On arguments that can be read the program ends in one of three ways. If something that it needs is
wrong (`Fails`), it logs what and ends with the exit code 1; that includes names in the result that
cannot be encoded. If a number of an operation is out of range (`GoesOutOfRange`), it ends with an
error that it does not catch. Otherwise the exit code is 0. `run_explained` says that one of the
three is so, and that they exclude each other.

The machine that the program runs on is left out. It is taken to recurse as deep as documents and
mappings nest, to have all the memory that is asked for, and not to be interrupted. Where it has a
limit to recursion, a document that nests deeper ends the program with an error of its own, which is
not told of here.
-/

namespace FeedMerge

namespace Merge

variable {settings : Settings} {now : Timestamp} {tree : FileTree}

theorem runAll_cons_of_error {op : Operation} {ops : List Operation} {error : Error}
    (h : (run settings now tree op).result = .error error) :
    (runAll settings now tree (op :: ops)).result = .error error := by
  rw [runAll]
  dsimp only
  rw [h]

/-- Behind an operation that goes through the run is that of the rest, on the files that it has
left. -/
theorem runAll_cons_of_ok {op : Operation} {ops : List Operation} {summaries : List Summary}
    (h : (run settings now tree op).result = .ok summaries) :
    (runAll settings now tree (op :: ops)).result =
        (runAll settings now (run settings now tree op).tree ops).result ∧
      (runAll settings now tree (op :: ops)).tree =
        (runAll settings now (run settings now tree op).tree ops).tree := by
  rw [runAll]
  dsimp only
  rw [h]
  exact ⟨rfl, rfl⟩

/-- A run over operations fails with the error of the first that fails on the files that the ones
before it have left. -/
theorem runAll_eq_error_iff {ops : List Operation} {error : Error} :
    (runAll settings now tree ops).result = .error error ↔
      ∃ before op after, ops = before ++ op :: after ∧
        (runAll settings now tree before).result = .ok () ∧
        (run settings now (runAll settings now tree before).tree op).result = .error error := by
  induction ops generalizing tree with
  | nil => simp [runAll]
  | cons first rest ih =>
    cases hfirst : (run settings now tree first).result with
    | error other =>
      rw [runAll_cons_of_error hfirst]
      constructor
      · intro h
        obtain rfl := Except.error.inj h
        exact ⟨[], first, rest, rfl, rfl, hfirst⟩
      · rintro ⟨before, op, after, hsplit, hbefore, hop⟩
        cases before with
        | nil =>
          obtain ⟨rfl, -⟩ := List.cons.inj hsplit
          have hother : Except.error other = Except.error error := hfirst.symm.trans hop
          rw [Except.error.inj hother]
        | cons passed before =>
          obtain ⟨rfl, -⟩ := List.cons.inj hsplit
          rw [runAll_cons_of_error hfirst] at hbefore
          cases hbefore
    | ok summaries =>
      rw [(runAll_cons_of_ok hfirst).1, ih]
      constructor
      · rintro ⟨before, op, after, rfl, hbefore, hop⟩
        refine ⟨first :: before, op, after, rfl, ?_, ?_⟩
        · rwa [(runAll_cons_of_ok hfirst).1]
        · rwa [(runAll_cons_of_ok hfirst).2]
      · rintro ⟨before, op, after, hsplit, hbefore, hop⟩
        cases before with
        | nil =>
          obtain ⟨rfl, -⟩ := List.cons.inj hsplit
          have hcontra : Except.ok summaries = Except.error error := hfirst.symm.trans hop
          cases hcontra
        | cons passed before =>
          obtain ⟨rfl, rfl⟩ := List.cons.inj hsplit
          rw [(runAll_cons_of_ok hfirst).1] at hbefore
          rw [(runAll_cons_of_ok hfirst).2] at hop
          exact ⟨before, op, after, rfl, hbefore, hop⟩

end Merge

namespace CommandLine

variable {now : Timestamp} {tree : FileTree} {a : Arguments}

/-! ### What can go wrong -/

/-- What the log says about an error that ends the run. -/
def failureText : Merge.Error → String
  | .fault f => "Merge failed: " ++ f.message
  | error => "I/O error: " ++ error.message

theorem failedEnding_eq (error : Merge.Error) :
    failedEnding error =
      if error.isOutOfRange then (.uncaught error, [])
      else (.exited 1, [⟨.error, failureText error⟩]) := by
  cases error <;> rfl

/-- Something is wrong that the program catches, with what it logs about it: the configuration
cannot be read or has defects, or an operation fails behind those that go through. -/
inductive Fails (now : Timestamp) (tree : FileTree) (a : Arguments) : String → Prop
  | unreadable {error : Merge.Error} (hmode : a.validateOnly = true)
      (hload : Merge.load tree a.configPath = .error error) :
      Fails now tree a ("Cannot read configuration: " ++ error.message)
  | invalid {document : Json} (hmode : a.validateOnly = true)
      (hload : Merge.load tree a.configPath = .ok document)
      (hdefects : Operation.check document ≠ []) :
      Fails now tree a ("Invalid configuration:\n- " ++
        "\n- ".intercalate ((Operation.check document).map (·.message)))
  | refused {error : Merge.Error} (hmode : a.validateOnly = false)
      (hload : Merge.loadOperations tree a.configPath.text = .error error) :
      Fails now tree a (failureText error)
  | stopped {before after : List Operation} {op : Operation} {error : Merge.Error}
      (hmode : a.validateOnly = false)
      (hload : Merge.loadOperations tree a.configPath.text = .ok (before ++ op :: after))
      (hbefore : (Merge.runAll a.settings now tree before).result = .ok ())
      (hop : (Merge.run a.settings now (Merge.runAll a.settings now tree before).tree op).result =
        .error error)
      (hrange : error.isOutOfRange = false) : Fails now tree a (failureText error)

/-- An operation overflows behind those that go through. -/
def GoesOutOfRange (now : Timestamp) (tree : FileTree) (a : Arguments) (error : Merge.Error) :
    Prop :=
  a.validateOnly = false ∧ ∃ before op after,
    Merge.loadOperations tree a.configPath.text = .ok (before ++ op :: after) ∧
    (Merge.runAll a.settings now tree before).result = .ok () ∧
    Merge.Overflows a.settings now (Merge.runAll a.settings now tree before).tree op error

theorem isOutOfRange_of_loadOperations {name : String} {error : Merge.Error}
    (h : Merge.loadOperations tree name = .error error) : error.isOutOfRange = false := by
  unfold Merge.loadOperations at h
  split at h
  · split at h <;> (cases h; rfl)
  · rename_i hdocument
    cases h
    exact Merge.isOutOfRange_of_documentOf hdocument
  · rename_i document hdocument
    cases hoperations : Operation.listOfJson document with
    | error fault =>
      rw [hoperations] at h
      cases h
      rfl
    | ok operations =>
      rw [hoperations] at h
      cases h

/-! ### The three endings -/

theorem run_eq_checkConfiguration (h : a.validateOnly = true) :
    run now tree a = checkConfiguration tree a :=
  if_pos h

theorem run_eq_runConfiguration (h : a.validateOnly = false) :
    run now tree a = runConfiguration now tree a :=
  if_neg (Bool.eq_false_iff.mp h)

/-- The configuration is not loaded, or an operation of it fails. -/
def StopsBy (now : Timestamp) (tree : FileTree) (a : Arguments) (error : Merge.Error) : Prop :=
  Merge.loadOperations tree a.configPath.text = .error error ∨
    ∃ operations, Merge.loadOperations tree a.configPath.text = .ok operations ∧
      (Merge.runAll a.settings now tree operations).result = .error error

theorem runConfiguration_of_stopsBy {error : Merge.Error} (h : StopsBy now tree a error) :
    (runConfiguration now tree a).ending = (failedEnding error).1 ∧
      (failedEnding error).2 <:+ (runConfiguration now tree a).logs := by
  unfold runConfiguration
  rcases h with hload | ⟨operations, hload, hresult⟩
  · rw [hload]
    exact ⟨rfl, List.suffix_rfl⟩
  · rw [hload]
    dsimp only
    rw [hresult]
    exact ⟨rfl, List.suffix_append _ _⟩

theorem runConfiguration_of_ok {operations : List Operation}
    (hload : Merge.loadOperations tree a.configPath.text = .ok operations)
    (hresult : (Merge.runAll a.settings now tree operations).result = .ok ()) :
    (runConfiguration now tree a).ending = .exited 0 := by
  unfold runConfiguration
  rw [hload]
  dsimp only
  rw [hresult]

theorem ending_of_stopsBy {error : Merge.Error} (hmode : a.validateOnly = false)
    (h : StopsBy now tree a error) (hrange : error.isOutOfRange = false) :
    (run now tree a).ending = .exited 1 ∧
      (run now tree a).logs.getLast? = some ⟨.error, failureText error⟩ := by
  obtain ⟨hending, earlier, hlogs⟩ := runConfiguration_of_stopsBy h
  rw [failedEnding_eq, hrange] at hending hlogs
  rw [run_eq_runConfiguration hmode, ← hlogs]
  exact ⟨hending, List.getLast?_concat⟩

theorem stopsBy_of_run {before after : List Operation} {op : Operation} {error : Merge.Error}
    (hload : Merge.loadOperations tree a.configPath.text = .ok (before ++ op :: after))
    (hbefore : (Merge.runAll a.settings now tree before).result = .ok ())
    (hop : (Merge.run a.settings now (Merge.runAll a.settings now tree before).tree op).result =
      .error error) : StopsBy now tree a error :=
  .inr ⟨_, hload, Merge.runAll_eq_error_iff.mpr ⟨before, op, after, rfl, hbefore, hop⟩⟩

theorem ending_of_fails {text : String} (h : Fails now tree a text) :
    (run now tree a).ending = .exited 1 ∧ (run now tree a).logs.getLast? = some ⟨.error, text⟩ := by
  cases h with
  | unreadable hmode hload =>
    rw [run_eq_checkConfiguration hmode, checkConfiguration, hload]
    exact ⟨rfl, rfl⟩
  | invalid hmode hload hdefects =>
    rw [run_eq_checkConfiguration hmode, checkConfiguration, hload]
    dsimp only
    split
    · contradiction
    · exact ⟨rfl, rfl⟩
  | refused hmode hload =>
    exact ending_of_stopsBy hmode (.inl hload) (isOutOfRange_of_loadOperations hload)
  | stopped hmode hload hbefore hop hrange =>
    exact ending_of_stopsBy hmode (stopsBy_of_run hload hbefore hop) hrange

theorem ending_of_goesOutOfRange {error : Merge.Error} (h : GoesOutOfRange now tree a error) :
    (run now tree a).ending = .uncaught error := by
  obtain ⟨hmode, before, op, after, hload, hbefore, hoverflows⟩ := h
  obtain ⟨hop, hrange⟩ := Merge.run_eq_outOfRange_iff.mpr hoverflows
  have hending := (runConfiguration_of_stopsBy (stopsBy_of_run hload hbefore hop)).1
  rw [run_eq_runConfiguration hmode, hending, failedEnding_eq, hrange]
  rfl

/-- On a machine without limits the program ends in one of the three ways. -/
theorem ending_cases (now : Timestamp) (tree : FileTree) (a : Arguments) :
    (run now tree a).ending = .exited 0 ∨ (∃ text, Fails now tree a text) ∨
      ∃ error, GoesOutOfRange now tree a error := by
  cases hmode : a.validateOnly with
  | true =>
    cases hload : Merge.load tree a.configPath with
    | error error => exact .inr (.inl ⟨_, .unreadable hmode hload⟩)
    | ok document =>
      by_cases hdefects : Operation.check document = []
      · rw [run_eq_checkConfiguration hmode, checkConfiguration, hload]
        dsimp only
        rw [hdefects]
        exact .inl rfl
      · exact .inr (.inl ⟨_, .invalid hmode hload hdefects⟩)
  | false =>
    cases hload : Merge.loadOperations tree a.configPath.text with
    | error error => exact .inr (.inl ⟨_, .refused hmode hload⟩)
    | ok operations =>
      cases hresult : (Merge.runAll a.settings now tree operations).result with
      | ok done =>
        rw [run_eq_runConfiguration hmode]
        exact .inl (runConfiguration_of_ok hload hresult)
      | error error =>
        obtain ⟨before, op, after, rfl, hbefore, hop⟩ := Merge.runAll_eq_error_iff.mp hresult
        cases hrange : error.isOutOfRange with
        | false => exact .inr (.inl ⟨_, .stopped hmode hload hbefore hop hrange⟩)
        | true =>
          have hoverflows := Merge.run_eq_outOfRange_iff.mp ⟨hop, hrange⟩
          exact .inr (.inr ⟨error, hmode, before, op, after, hload, hbefore, hoverflows⟩)

/-- The ending of the program is explained by what goes wrong. -/
structure Explained (now : Timestamp) (tree : FileTree) (a : Arguments) (outcome : Outcome) :
    Prop where
  /-- Unless a number is out of range, no error escapes. -/
  caught : (∀ error, ¬ GoesOutOfRange now tree a error) →
    outcome.ending = .exited 0 ∨ outcome.ending = .exited 1
  uncaught_iff : ∀ error, outcome.ending = .uncaught error ↔ GoesOutOfRange now tree a error
  failed_iff : outcome.ending = .exited 1 ↔ ∃ text, Fails now tree a text
  logged : ∀ text, Fails now tree a text → outcome.logs.getLast? = some ⟨.error, text⟩
  succeeded_iff : outcome.ending = .exited 0 ↔
    (∀ text, ¬ Fails now tree a text) ∧ ∀ error, ¬ GoesOutOfRange now tree a error

/-- What the program does with its arguments is explained, on a machine without limits. -/
theorem run_explained (now : Timestamp) (tree : FileTree) (a : Arguments) :
    Explained now tree a (run now tree a) where
  caught hcovered := by
    rcases ending_cases now tree a with hzero | ⟨text, hfails⟩ | ⟨error, hrange⟩
    · exact .inl hzero
    · exact .inr (ending_of_fails hfails).1
    · exact absurd hrange (hcovered error)
  uncaught_iff error := by
    refine ⟨fun huncaught => ?_, ending_of_goesOutOfRange⟩
    rcases ending_cases now tree a with hzero | ⟨text, hfails⟩ | ⟨other, hrange⟩
    · simp [hzero] at huncaught
    · simp [(ending_of_fails hfails).1] at huncaught
    · have hother : other = error := by simpa [ending_of_goesOutOfRange hrange] using huncaught
      exact hother ▸ hrange
  failed_iff := by
    refine ⟨fun hone => ?_, fun ⟨text, hfails⟩ => (ending_of_fails hfails).1⟩
    rcases ending_cases now tree a with hzero | hfails | ⟨error, hrange⟩
    · simp [hzero] at hone
    · exact hfails
    · simp [ending_of_goesOutOfRange hrange] at hone
  logged text hfails := (ending_of_fails hfails).2
  succeeded_iff := by
    constructor
    · intro hzero
      refine ⟨fun text hfails => ?_, fun error hrange => ?_⟩
      · simp [(ending_of_fails hfails).1] at hzero
      · simp [ending_of_goesOutOfRange hrange] at hzero
    · rintro ⟨hnone, hcovered⟩
      rcases ending_cases now tree a with hzero | ⟨text, hfails⟩ | ⟨error, hrange⟩
      · exact hzero
      · exact absurd hfails (hnone text)
      · exact absurd hrange (hcovered error)

theorem execute_eq_run {argv : List String} (now : Timestamp) (tree : FileTree)
    (h : readArguments argv = .ok a) : execute now tree argv = .ok (run now tree a) := by
  rw [execute, h]

/-- Whatever is in the files, the program on arguments that can be read ends with the exit code 0 or
1, and in the second case has logged what is wrong, unless a number of an operation is out of range.
Then, and apart from the limits of a machine only then, an error escapes. -/
theorem execute_explained {argv : List String} (now : Timestamp) (tree : FileTree)
    (h : readArguments argv = .ok a) :
    ∃ outcome, execute now tree argv = .ok outcome ∧ Explained now tree a outcome :=
  ⟨run now tree a, execute_eq_run now tree h, run_explained now tree a⟩

/-! ### A moment that escapes -/

theorem loadOperations_of_readChars {name : String} {chars : List Char} {document : Json}
    {operations : List Operation}
    (hread : tree.readNamed name = .ok (String.ofList chars).toUTF8) (hchars : '\r' ∉ chars)
    (hdocument : Json.readChars chars = .ok document)
    (hoperations : Operation.listOfJson document = .ok operations) :
    Merge.loadOperations tree name = .ok operations := by
  rw [Merge.loadOperations, hread, Merge.documentOf, Document.ofBytes_toUTF8 hchars, hdocument]
  dsimp only [Except.mapError]
  rw [hoperations]

def sampleConfiguration : List Char :=
  ["[\x7b\"operation\":\"merge\",", "\"sources\":[\x7b\"file\":\"a\",", "\"transformation\":\"m\"\x7d],",
    "\"transformations\":[", "\x7b\"id\":\"m\",", "\"mapping\":\x7b", "\"isTemperature\":\"k==T\",",
    "\"isHumidity\":\"k==H\",", "\"c\":\"CompanyId\",", "\"l\":\"CompanyName\",",
    "\"d\":\"DeviceId\",", "\"n\":\"DeviceName\",", "\"t\":\"Dtm\",", "\"v\":\"Value\"\x7d\x7d],",
    "\"destination\":\"o\"\x7d]"].flatMap String.toList

/-- A working directory with the configuration and its source, whose only record has been taken in
the first hour of the calendar, with an offset that leads to the year before it. -/
def sampleTree : FileTree :=
  let document := "\x7b\"k\":\"T\",\"c\":1,\"l\":\"A\",\"d\":10,\"n\":\"p\"," ++
    "\"t\":\"0001-01-01T00:30+01:00\",\"v\":2\x7d"
  ((FileTree.withWorkingDirectory ["work"]).plant ["work", "config"]
    (.file (String.ofList sampleConfiguration).toUTF8)).plant ["work", "a"] (.file document.toUTF8)

theorem ending_of_sampleTree :
    (run .start sampleTree { config := "config" }).ending =
      .uncaught (.timestamp .beyondCalendar) := by
  -- the configuration is read as characters, since decoding takes the kernel too long
  have hread : sampleTree.readNamed "config" = .ok (String.ofList sampleConfiguration).toUTF8 := rfl
  have hname : (Arguments.configPath { config := "config" }).text = "config" := by decide +kernel
  have hchars : '\r' ∉ sampleConfiguration := by decide +kernel
  have hruns : ((Json.readChars sampleConfiguration).toOption.bind fun document =>
      (Operation.listOfJson document).toOption.map fun operations =>
        (Merge.runAll (Arguments.settings { config := "config" }) .start sampleTree
          operations).result) =
      some (.error (.timestamp .beyondCalendar)) := by decide +kernel
  obtain ⟨document, hdocument, hruns⟩ := Option.bind_eq_some_iff.mp hruns
  obtain ⟨operations, hoperations, hresult⟩ := Option.map_eq_some_iff.mp hruns
  rw [Except.toOption_eq_some] at hdocument hoperations
  have hload := loadOperations_of_readChars hread hchars hdocument hoperations
  have hstops : StopsBy .start sampleTree { config := "config" } (.timestamp .beyondCalendar) :=
    .inr ⟨operations, hname.symm ▸ hload, hresult⟩
  rw [run_eq_runConfiguration rfl, (runConfiguration_of_stopsBy hstops).1]
  rfl

/-- What goes wrong with the sample is that its moment is out of range. -/
theorem execute_explained_for_sample :
    readArguments ["config"] = .ok { config := "config" } ∧
      ∃ outcome, execute .start sampleTree ["config"] = .ok outcome ∧
        Explained .start sampleTree { config := "config" } outcome ∧
        GoesOutOfRange .start sampleTree { config := "config" } (.timestamp .beyondCalendar) := by
  have harguments : readArguments ["config"] = .ok { config := "config" } := by decide +kernel
  obtain ⟨outcome, houtcome, hexplained⟩ := execute_explained .start sampleTree harguments
  have hrun := Except.ok.inj (houtcome.symm.trans (execute_eq_run .start sampleTree harguments))
  refine ⟨harguments, outcome, houtcome, hexplained, (hexplained.uncaught_iff _).mp ?_⟩
  rw [hrun, ending_of_sampleTree]

theorem execute_lets_a_moment_escape :
    ∃ outcome, execute .start sampleTree ["config"] = .ok outcome ∧
      outcome.ending = .uncaught (.timestamp .beyondCalendar) ∧
      outcome.ending ≠ .exited 0 ∧ outcome.ending ≠ .exited 1 := by
  have harguments : readArguments ["config"] = .ok { config := "config" } := by decide +kernel
  refine ⟨_, execute_eq_run .start sampleTree harguments, ending_of_sampleTree, ?_, ?_⟩
  · simp [ending_of_sampleTree]
  · simp [ending_of_sampleTree]

end CommandLine

end FeedMerge
