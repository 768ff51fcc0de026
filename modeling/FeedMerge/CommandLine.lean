import FeedMerge.CommandLine.Arguments
import FeedMerge.Merge
import FeedMerge.Operation.Check

/-!
# The command line

The program runs all operations of a configuration file, or only checks it. Relative paths are taken
from the data directory, which is the directory of the configuration unless another one is given.
Failures are logged and end with the exit code 1, but numbers out of their range are not caught:
those of timestamps beyond the calendar, and of ids that cannot be kept. Wrong arguments end with
the exit code 2 and a message on the error stream.
-/

namespace FeedMerge.CommandLine

def usageLine : String :=
  "usage: sensor-merge [-h] [--data-dir DATA_DIR] [--validate-only] [-v] config\n"

def helpText : String :=
  usageLine ++ "\n" ++
  "Reconcile heterogeneous sensor feeds into per-device summaries.\n" ++
  "\n" ++
  "positional arguments:\n" ++
  "  config               Path to the JSON operation configuration\n" ++
  "\n" ++
  "options:\n" ++
  "  -h, --help           show this help message and exit\n" ++
  "  --data-dir DATA_DIR  Directory that relative source/destination paths\n" ++
  "                       resolve against (default: the configuration file's\n" ++
  "                       directory)\n" ++
  "  --validate-only      Check the configuration and exit\n" ++
  "  -v, --verbose        Enable debug logging\n"

/-- How the program ends. -/
inductive Ending where
  | exited (code : Nat)
  | uncaught (error : Merge.Error)
  deriving DecidableEq, Repr

/-- What the program leaves behind: how it ended, its log, and the files. -/
structure Outcome where
  ending : Ending
  logs : List LogLine
  tree : FileTree

/-- What the arguments alone may end the program with: an exit code and the texts for the two
streams. -/
structure EarlyExit where
  code : Nat
  output : String
  errors : String
  deriving DecidableEq, Repr

def earlyExit : Stop → EarlyExit
  | .help => ⟨0, helpText, ""⟩
  | .usage error => ⟨2, "", s!"{usageLine}sensor-merge: error: {error.message}\n"⟩

/-- The path of the configuration. -/
def Arguments.configPath (a : Arguments) : Path := .ofText a.config

/-- The settings that the arguments ask for; an empty data directory counts as none. -/
def Arguments.settings (a : Arguments) : Settings where
  dataDirectory :=
    match a.dataDirectory with
    | none => some a.configPath.parent
    | some directory =>
      if directory = "" then some a.configPath.parent else some (.ofText directory)
  verbose := a.verbose

/-- The end of a run that failed. -/
def failedEnding (error : Merge.Error) : Ending × List LogLine :=
  match error with
  | .timestamp _ | .size _ => (.uncaught error, [])
  | .fault f => (.exited 1, [⟨.error, "Merge failed: " ++ f.message⟩])
  | error => (.exited 1, [⟨.error, "I/O error: " ++ error.message⟩])

/-- All operations of the configuration, at a reading of the clock. -/
def runConfiguration (now : Timestamp) (tree : FileTree) (a : Arguments) : Outcome :=
  match Merge.loadOperations tree a.configPath.text with
  | .error error =>
    let (ending, logs) := failedEnding error
    ⟨ending, logs, tree⟩
  | .ok operations =>
    let outcome := Merge.runAll a.settings now tree operations
    match outcome.result with
    | .ok () => ⟨.exited 0, outcome.journal.logs, outcome.tree⟩
    | .error error =>
      let (ending, logs) := failedEnding error
      ⟨ending, outcome.journal.logs ++ logs, outcome.tree⟩

/-- The configuration checked, and nothing run. -/
def checkConfiguration (tree : FileTree) (a : Arguments) : Outcome :=
  match Merge.load tree a.configPath with
  | .error error => ⟨.exited 1, [⟨.error, "Cannot read configuration: " ++ error.message⟩], tree⟩
  | .ok document =>
    match Operation.check document with
    | [] => ⟨.exited 0, [⟨.info, s!"Configuration {a.configPath.text} is valid"⟩], tree⟩
    | defects =>
      let lines := "\n- ".intercalate (defects.map (·.message))
      ⟨.exited 1, [⟨.error, "Invalid configuration:\n- " ++ lines⟩], tree⟩

/-- The program on arguments that were read. -/
def run (now : Timestamp) (tree : FileTree) (a : Arguments) : Outcome :=
  if a.validateOnly then checkConfiguration tree a else runConfiguration now tree a

/-- The program on its command line. -/
def execute (now : Timestamp) (tree : FileTree) (argv : List String) :
    Except EarlyExit Outcome :=
  match readArguments argv with
  | .error stop => .error (earlyExit stop)
  | .ok a => .ok (run now tree a)

/-- The paths that a run may read or write, as far as the files tell: that of the configuration, and
those that its operations name. -/
def paths (tree : FileTree) (argv : List String) : List Path :=
  match readArguments argv with
  | .error _ => []
  | .ok a =>
    let named :=
      match Merge.loadOperations tree a.configPath.text with
      | .error _ => []
      | .ok operations => operations.flatMap Operation.files
    a.configPath :: named.map fun file => a.settings.resolve (.ofText file)

end FeedMerge.CommandLine
