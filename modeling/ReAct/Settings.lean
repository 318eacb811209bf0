import ReAct.Record.Check
import ReAct.Json.Printer

/-!
# Settings

The settings of the process, which come from environment variables. The names of variables are
compared without regard to case, and variables that name no setting are ignored.
-/

namespace ReAct

/-- The settings of the process. -/
structure Settings where
  debug : Bool := false
  dataDir : String := "./data"
  logLevel : String := "info"
  maxIterations : Int := 10
  messageHistoryLimit : Int := 10
  verbose : Bool := false
  traceDisabled : Bool := false
  modelEndpoint : String := "http://localhost:8000/models/\x7bmodel_id\x7d/_predict"
  modelTimeout : Double := Record.doubleOfInt 30
  toolCatalogUrl : Option String := none

namespace Settings

open Record

/-- Reads settings from an object; what it does not mention keeps its value in `base`. -/
def checkOver (base : Settings) (members : Fields Json) : Checked Settings :=
  Settings.mk <$> defaulted members "DEBUG" base.debug flag
    <*> defaulted members "DATA_DIR" base.dataDir text
    <*> defaulted members "LOG_LEVEL" base.logLevel text
    <*> defaulted members "MAX_ITERATIONS" base.maxIterations integer
    <*> defaulted members "MESSAGE_HISTORY_LIMIT" base.messageHistoryLimit integer
    <*> defaulted members "VERBOSE" base.verbose flag
    <*> defaulted members "TRACE_DISABLED" base.traceDisabled flag
    <*> defaulted members "MODEL_ENDPOINT" base.modelEndpoint text
    <*> defaulted members "MODEL_TIMEOUT" base.modelTimeout decimal
    <*> defaulted members "TOOL_CATALOG_URL" base.toolCatalogUrl (optional text)

/-- The settings that environment variables lead to. -/
def ofEnvironment (environment : Fields String) : Except Failure Settings :=
  let members := Fields.ofEntries (environment.map fun v => (v.1.map Char.toUpper, Json.str v.2))
  (checkOver {} members).toExcept

/-- The settings as an object. -/
def toJson (s : Settings) : Json :=
  .obj
    [("DEBUG", .bool s.debug), ("DATA_DIR", .str s.dataDir), ("LOG_LEVEL", .str s.logLevel),
      ("MAX_ITERATIONS", .int s.maxIterations),
      ("MESSAGE_HISTORY_LIMIT", .int s.messageHistoryLimit), ("VERBOSE", .bool s.verbose),
      ("TRACE_DISABLED", .bool s.traceDisabled), ("MODEL_ENDPOINT", .str s.modelEndpoint),
      ("MODEL_TIMEOUT", .float s.modelTimeout), ("TOOL_CATALOG_URL", Json.ofText? s.toolCatalogUrl)]

end Settings

end ReAct
