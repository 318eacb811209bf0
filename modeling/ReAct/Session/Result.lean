import ReAct.Session.Basic

/-!
# Results of sessions

What a session hands to its caller: the answer, the outputs of the tools that report theirs, and the
named items in which both are delivered.
-/

namespace ReAct.Session

open Record

/-- A named item of a result: a text, or an object. -/
structure OutputItem where
  name : String
  result : Option String := none
  data : Option (Fields Json) := none

namespace OutputItem

/-- Reads an item from an object. -/
def check : Check OutputItem :=
  record fun members =>
    OutputItem.mk <$> required members "name" text
      <*> defaulted members "result" none (optional text)
      <*> defaulted members "data" none (optional (table any))

/-- The item as an object. -/
def toJson (item : OutputItem) : Json :=
  .obj
    [("name", .str item.name), ("result", Json.ofText? item.result),
      ("data", Json.ofOption .obj item.data)]

end OutputItem

/-- What a session hands to its caller. -/
structure Result where
  outputs : List OutputItem := []
  finalAnswer : String
  additionalInfo : Fields (List String) := []
  terminalPhase : Phase
  /-- How often the model was called. -/
  iterations : Int := 0

/-- The reported outputs of tools, as the members of an object. -/
def infoMembers (info : Fields (List String)) : Fields Json :=
  info.mapValues Json.ofTexts

namespace Result

/-- Reads a result from an object. -/
def check : Check Result :=
  record fun members =>
    Result.mk <$> defaulted members "outputs" [] (list OutputItem.check)
      <*> required members "final_answer" text
      <*> defaulted members "additional_info" [] (table (list text))
      <*> required members "terminal_state" (choice Phase.ofName?)
      <*> defaulted members "iterations" 0 integer

/-- The result as an object. -/
def toJson (result : Result) : Json :=
  .obj
    [("outputs", .arr (result.outputs.map OutputItem.toJson)),
      ("final_answer", .str result.finalAnswer),
      ("additional_info", .obj (infoMembers result.additionalInfo)),
      ("terminal_state", .str result.terminalPhase.name), ("iterations", .int result.iterations)]

end Result

end ReAct.Session
