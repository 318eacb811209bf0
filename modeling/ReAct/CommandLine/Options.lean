import ReAct.Settings
import ReAct.Text.Lowercase

/-!
# Options of the command

Every option is named in full or by any beginning of its name that no other option shares. A value
follows its option as the next argument or behind an equals sign; what looks like an option is no
value, except that negative numbers and texts with blanks are. After a double dash there are values
only. The command has no arguments besides its options; one that asks for help may hold others in
front of that.
-/

namespace ReAct.CommandLine

open ReAct.Text

/-- The options. -/
inductive Flag where
  | help
  | agent
  | question
  | endpoint
  | memoryFile
  | conversation
  | verbose
  | logLevel
  deriving DecidableEq

/-- The options by their names. -/
def flags : List (String × Flag) :=
  [("--help", .help), ("--agent", .agent), ("--question", .question), ("--endpoint", .endpoint),
    ("--memory-file", .memoryFile), ("--conversation-id", .conversation), ("--verbose", .verbose),
    ("--log-level", .logLevel)]

/-- What a command is asked to do. -/
structure Options where
  /-- The file with the agent's definition. -/
  agent : String
  question : String
  endpoint : String
  memoryFile : Option String
  conversation : Option String
  verbose : Bool
  logLevel : String

/-- Why a command is not carried out. -/
inductive Refusal where
  /-- Help was asked for. -/
  | help
  /-- The arguments make no sense. -/
  | misuse
  deriving DecidableEq

/-- The exit code of a refusal. -/
def Refusal.exitCode : Refusal → Nat
  | .help => 0
  | .misuse => 2

/-- An argument by its role. -/
inductive Argument where
  /-- An option, with the value behind its equals sign. -/
  | option (flag : Flag) (value : Option String)
  | value (text : String)
  /-- The double dash. -/
  | divider
  /-- What looks like an option and is none. -/
  | unknown

/-- Whether a text is a negative number. -/
def isNegativeNumber (s : List Char) : Bool :=
  match s with
  | '-' :: rest =>
    match rest.span isDigit with
    | (whole, []) => !whole.isEmpty
    | (_, '.' :: fraction) => !fraction.isEmpty && fraction.all isDigit
    | _ => false
  | _ => false

/-- The role of an argument that starts with a dash and is longer than that. -/
def dashed (s : String) : Except Refusal Argument :=
  let (name, rest) := s.toList.span fun c => c ≠ '='
  let value := rest.tail?.map String.ofList
  if s = "-h" then .ok (.option .help none)
  else if ['-', 'h'].isPrefixOf s.toList then .error .misuse
  else
    let matching :=
      if ['-', '-'].isPrefixOf name then flags.filter fun f => name.isPrefixOf f.1.toList else []
    match matching with
    | [(_, flag)] => .ok (.option flag value)
    | [] =>
      if isNegativeNumber s.toList || s.toList.contains ' ' then .ok (.value s) else .ok .unknown
    | _ => .error .misuse

/-- The role of an argument before any double dash. -/
def classify (s : String) : Except Refusal Argument :=
  match s.toList with
  | '-' :: _ :: _ => dashed s
  | _ => .ok (.value s)

/-- The roles of all arguments. -/
def classifyAll : List String → Except Refusal (List Argument)
  | [] => .ok []
  | s :: rest =>
    if s = "--" then .ok (.divider :: rest.map .value)
    else (classify s).bind fun argument => (classifyAll rest).map (argument :: ·)

/-- What has been given so far. -/
structure Given where
  agent : Option String := none
  question : Option String := none
  endpoint : Option String := none
  memoryFile : Option String := none
  conversation : Option String := none
  verbose : Bool := false
  logLevel : Option String := none
  /-- There were arguments that belong to no option. -/
  hasStray : Bool := false

/-- The levels that may be chosen. -/
def logLevels : List String :=
  ["debug", "info", "warning", "error", "critical"]

/-- Gives a value to an option that takes one. -/
def Given.set (given : Given) (flag : Flag) (value : String) : Except Refusal Given :=
  match flag with
  | .agent => .ok { given with agent := some value }
  | .question => .ok { given with question := some value }
  | .endpoint => .ok { given with endpoint := some value }
  | .memoryFile => .ok { given with memoryFile := some value }
  | .conversation => .ok { given with conversation := some value }
  | .logLevel =>
    if logLevels.contains (lowered value) then .ok { given with logLevel := some (lowered value) }
    else .error .misuse
  | .help => .error .misuse
  | .verbose => .error .misuse

/-- Takes arguments in order. -/
def Given.take (given : Given) : List Argument → Except Refusal Given
  | [] => .ok given
  | .option .help none :: _ => .error .help
  | .option .verbose none :: rest => { given with verbose := true : Given }.take rest
  | .option flag (some value) :: rest => (given.set flag value).bind fun given => given.take rest
  | .option flag none :: .value value :: rest =>
    (given.set flag value).bind fun given => given.take rest
  | .option _ none :: _ => .error .misuse
  | _ :: rest => { given with hasStray := true : Given }.take rest

/-- Reads the arguments of the command; settings fill in for options that are not given. -/
def parse (settings : Settings) (arguments : List String) : Except Refusal Options := do
  let arguments ← classifyAll arguments
  let given ← ({} : Given).take arguments
  if given.hasStray then throw .misuse
  match given.agent, given.question with
  | some agent, some question =>
    return {
      agent := agent
      question := question
      endpoint := given.endpoint.getD settings.modelEndpoint
      memoryFile := given.memoryFile
      conversation := given.conversation
      verbose := given.verbose || settings.verbose
      logLevel := given.logLevel.getD (lowered settings.logLevel)
    }
  | _, _ => .error .misuse

end ReAct.CommandLine
