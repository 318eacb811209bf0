import ReAct.CommandLine.Command

/-!
# The program

Carries the command out in the real world. HTTP exchanges are made by whoever started the program:
every request is written to standard error as one line of JSON, and its outcome is expected on
standard input as one line of JSON, with a status and a body or with an error.
-/

namespace ReAct.CommandLine

/-- A request as a line of JSON. -/
def requestLine : Http.Request → String
  | .post url body =>
    (Json.obj [("method", .str "POST"), ("url", .str url), ("body", body)]).print Json.spacedAscii
  | .get url query headers =>
    (Json.obj
      [("method", .str "GET"), ("url", .str url), ("query", Json.ofTextFields query),
        ("headers", Json.ofTextFields headers)]).print Json.spacedAscii

/-- The outcome in a line of JSON. -/
def outcomeOf (line : String) : Http.Outcome :=
  let v := (Json.read? line).getD .null
  match v.member "status", v.member "body", v.member "error" with
  | .int status, .str body, _ => .response status.toNat body
  | _, _, .str text => .broken text
  | _, _, _ => .broken "no response"

/-- The folder of a file. -/
def folderOf (path : String) : String :=
  String.ofList ((path.toList.reverse.dropWhile fun c => c ≠ '/').drop 1).reverse

/-- What lies at a path. -/
def lookAt (path : String) : IO Memory.Disk := do
  try return { file := .text (← IO.FS.readFile path) }
  catch
    | .noFileOrDirectory .. => return { file := .missing }
    | _ => return { file := .directory }

/-- Writes the file of a journal. -/
def writeJournal (path : String) (disk : Memory.Disk) : IO Unit :=
  match disk.file with
  | .text content => do
    let folder := folderOf path
    unless folder.isEmpty do IO.FS.createDirAll folder
    IO.FS.writeFile path content
  | _ => pure ()

/-- The surroundings of a real command. -/
def realSurroundings : Surroundings IO where
  exchange := fun request => do
    (← IO.getStderr).putStrLn (requestLine request)
    return outcomeOf (← (← IO.getStdin).getLine)
  load := fun path => try return some (← IO.FS.readFile path) catch _ => return none
  lookUp := lookAt
  putDown := writeJournal
  print := fun text => do
    let out ← IO.getStdout
    out.putStr text
    out.flush

/-- The present moment, as the file system tells it. -/
def presentMoment : IO Moment := do
  let (_, file) ← IO.FS.createTempFile
  let data ← file.metadata
  IO.FS.removeFile file
  return Moment.ofEpoch data.modified.sec

/-- Where a real command gets names and times from. -/
def realRegistrar : IO Memory.Registrar := do
  let bytes ← IO.getRandomBytes 16
  let seed := bytes.toList.foldl (fun n b => 256 * n + b.toNat) 0
  let now ← presentMoment
  return { identifier := fun n => String.ofList (Text.hexDigits 32 (seed + n)), now := now }

/-- The environment variables that name settings. -/
def environment : IO (Fields String) := do
  match ({} : Settings).toJson with
  | .obj members =>
    members.filterMapM fun member => do
      return (← IO.getEnv member.1).map fun value => (member.1, value)
  | _ => return []

end ReAct.CommandLine

open ReAct ReAct.CommandLine in
/-- Runs the command. -/
def main (arguments : List String) : IO UInt32 := do
  match Settings.ofEnvironment (← environment) with
  | .error failure =>
    IO.eprintln failure.text
    return 1
  | .ok settings =>
    let ending ← execute realSurroundings (← realRegistrar) settings arguments
    match ending.exit with
    | .ok code => return code.toUInt32
    | .error failure =>
      IO.eprintln failure.text
      return 1
