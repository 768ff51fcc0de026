import FeedMerge.Text.Digit
import FeedMerge.Text.Quoted

/-!
# Arguments

The command line takes the path of a configuration and some options. Options may stand anywhere
before a double hyphen; a long option may be cut short as long as it is told apart from the others,
and short options without a value may share a hyphen. First every argument is told to be an option
or not, where an ambiguous one is an error, then they are taken in order. Asking for help ends the
reading at once, and so does an error; a missing or a superfluous argument is only noticed at the
end.
-/

namespace FeedMerge.CommandLine

structure Arguments where
  config : String
  dataDirectory : Option String := none
  validateOnly : Bool := false
  verbose : Bool := false
  deriving DecidableEq, Repr

/-- What an option asks for. -/
inductive Switch where
  | help
  | dataDirectory
  | validateOnly
  | verbose
  deriving DecidableEq, Repr

/-- The names of the options, in the order in which they are listed. -/
def optionNames : List (String × Switch) :=
  [("-h", .help), ("--help", .help), ("--data-dir", .dataDirectory),
    ("--validate-only", .validateOnly), ("-v", .verbose), ("--verbose", .verbose)]

/-- How messages call an option. -/
def Switch.title : Switch → String
  | help => "-h/--help"
  | dataDirectory => "--data-dir"
  | validateOnly => "--validate-only"
  | verbose => "-v/--verbose"

inductive UsageError where
  | ambiguous (argument : String) (matching : List String)
  | missingValue (switch : Switch)
  | unexpectedValue (switch : Switch) (value : String)
  | missingConfig
  | unrecognized (arguments : List String)
  deriving DecidableEq, Repr

def UsageError.message : UsageError → String
  | ambiguous argument matching =>
    s!"ambiguous option: {argument} could match " ++ ", ".intercalate matching
  | missingValue switch => s!"argument {switch.title}: expected one argument"
  | unexpectedValue switch value =>
    s!"argument {switch.title}: ignored explicit argument {Text.quote value}"
  | missingConfig => "the following arguments are required: config"
  | unrecognized arguments => "unrecognized arguments: " ++ " ".intercalate arguments

/-- What is attached to an option: a value behind the equals sign of a long option, or further
letters behind a short one, where an equals sign makes no difference. -/
inductive Attached where
  | value (text : String)
  | letters (text : String)
  deriving DecidableEq, Repr

/-- What an argument is. An option may come with something attached to it. -/
inductive Item where
  | plain (text : String)
  | separator
  | option (switch : Switch) (value : Option Attached)
  | unknownOption (argument : String)
  deriving DecidableEq, Repr

/-! ### Telling options apart -/

/-- Whether a name of an option has a single hyphen. -/
def isShort (name : String) : Bool := name.toList.length = 2

/-- A text cut at its first equals sign. -/
def cutAtEquals (chars : List Char) : String × Option String :=
  match chars.dropWhile (· ≠ '=') with
  | [] => (.ofList chars, none)
  | _ :: behind => (.ofList (chars.takeWhile (· ≠ '=')), some (.ofList behind))

/-- The options that an argument may mean, with what is attached to it. -/
def candidates (chars : List Char) : List (String × Switch × Option Attached) :=
  match chars with
  | '-' :: '-' :: _ =>
    let (name, value) := cutAtEquals chars
    optionNames.filterMap fun (full, switch) =>
      if name.toList.isPrefixOf full.toList then some (full, switch, value.map .value) else none
  | first :: second :: rest =>
    optionNames.filterMap fun (full, switch) =>
      if full.toList = [first, second] then some (full, switch, some (.letters (.ofList rest)))
      else none
  | _ => []

/-- Arguments that look like negative numbers, perhaps at the end of a line. -/
def isNegativeNumber (chars : List Char) : Bool :=
  match chars with
  | '-' :: body =>
    let body := if body.getLast? = some '\n' then body.dropLast else body
    match body.dropWhile Text.isDecimalDigit with
    | [] => !body.isEmpty
    | '.' :: decimals => !decimals.isEmpty && decimals.all Text.isDecimalDigit
    | _ => false
  | _ => false

/-- What an argument is that stands before any separator. -/
def classify (argument : String) : Except UsageError Item :=
  let chars := argument.toList
  match chars with
  | '-' :: _ :: _ =>
    match optionNames.lookup argument with
    | some switch => .ok (.option switch none)
    | none =>
      let (name, value) := cutAtEquals chars
      match value, optionNames.lookup name with
      | some value, some switch =>
        .ok (.option switch (some (if isShort name then .letters value else .value value)))
      | _, _ =>
        match candidates chars with
        | [(_, switch, value)] => .ok (.option switch value)
        | [] =>
          if isNegativeNumber chars || chars.contains ' ' then .ok (.plain argument)
          else .ok (.unknownOption argument)
        | several => .error (.ambiguous argument (several.map (·.1)))
  | _ => .ok (.plain argument)

/-- What all arguments are; behind a double hyphen none is an option. -/
def classifyAll : List String → Except UsageError (List Item)
  | [] => .ok []
  | argument :: rest =>
    if argument = "--" then .ok (.separator :: rest.map .plain)
    else
      match classify argument with
      | .error error => .error error
      | .ok item => (classifyAll rest).map (item :: ·)

/-! ### Taking the arguments -/

/-- What has been taken so far. -/
structure Taken where
  config : Option String := none
  dataDirectory : Option String := none
  validateOnly : Bool := false
  verbose : Bool := false
  extras : List String := []

/-- Why the reading of arguments ends early. -/
inductive Stop where
  | help
  | usage (error : UsageError)
  deriving DecidableEq, Repr

/-- An option without a value. -/
def Taken.turnOn (t : Taken) : Switch → Except Stop Taken
  | .help => .error .help
  | .validateOnly => .ok { t with validateOnly := true }
  | .verbose => .ok { t with verbose := true }
  | .dataDirectory => .error (.usage (.missingValue .dataDirectory))

/-- The switches that share a hyphen: the first one, and those of the letters behind it. From a
letter that is none on, the letters are a value that no switch asked for. -/
def readCluster (switch : Switch) : List Char → Except Stop (List Switch)
  | [] => .ok [switch]
  | letter :: rest =>
    match optionNames.lookup (.ofList ['-', letter]) with
    | some other => (readCluster other rest).map (switch :: ·)
    | none => .error (.usage (.unexpectedValue switch (.ofList (letter :: rest))))

/-- The value of the data directory; a double hyphen is none. -/
def Taken.takeDirectory (t : Taken) (value : String) : Taken :=
  { t with dataDirectory := if value = "--" then none else some value }

/-- An option with what is attached to it; no switch is turned on before its whole cluster is read.
-/
def Taken.takeAttached (t : Taken) : Switch → Attached → Except Stop Taken
  | .dataDirectory, .value value => .ok (t.takeDirectory value)
  | .dataDirectory, .letters value => .ok (t.takeDirectory value)
  | switch, .value value => .error (.usage (.unexpectedValue switch value))
  | switch, .letters "" => .error (.usage (.unexpectedValue switch ""))
  | switch, .letters letters =>
    match readCluster switch letters.toList with
    | .error stop => .error stop
    | .ok switches => switches.foldlM Taken.turnOn t

/-- An argument that is no option: the configuration if that is still to come, otherwise one too
many. -/
def Taken.takePlain (t : Taken) (text : String) (all : List String) : Taken :=
  match t.config with
  | none => { t with config := some text }
  | some _ => { t with extras := t.extras ++ all }

/-- All items in order. A double hyphen beside the configuration belongs to it. -/
def Taken.takeAll (t : Taken) : List Item → Except Stop Taken
  | [] => .ok t
  | .unknownOption argument :: rest => { t with extras := t.extras ++ [argument] }.takeAll rest
  | .option switch (some attached) :: rest =>
    match t.takeAttached switch attached with
    | .error stop => .error stop
    | .ok t => t.takeAll rest
  | .option .dataDirectory none :: .plain value :: rest =>
    { t with dataDirectory := some value }.takeAll rest
  | .option switch none :: rest =>
    match t.turnOn switch with
    | .error stop => .error stop
    | .ok t => t.takeAll rest
  | .plain text :: .separator :: rest => (t.takePlain text [text, "--"]).takeAll rest
  | .plain text :: rest => (t.takePlain text [text]).takeAll rest
  | .separator :: .plain text :: rest => (t.takePlain text ["--", text]).takeAll rest
  | .separator :: rest => { t with extras := t.extras ++ ["--"] }.takeAll rest

/-- The arguments of a command line. -/
def readArguments (argv : List String) : Except Stop Arguments :=
  match classifyAll argv with
  | .error error => .error (.usage error)
  | .ok items =>
    match Taken.takeAll {} items with
    | .error stop => .error stop
    | .ok t =>
      match t.config with
      | none => .error (.usage .missingConfig)
      | some config =>
        if t.extras.isEmpty then
          .ok { config, dataDirectory := t.dataDirectory, validateOnly := t.validateOnly,
                verbose := t.verbose }
        else .error (.usage (.unrecognized t.extras))

end FeedMerge.CommandLine
