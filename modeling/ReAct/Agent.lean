import ReAct.Tool.Spec

/-!
# Agents

The definition of a conversational agent: the model it talks to, the tools it may call, and the
parameters that every session with it starts from.
-/

namespace ReAct

open Record

/-- The model of an agent, with the options that every request to it carries. -/
structure Agent.Model where
  id : String
  parameters : Fields String := []

namespace Agent.Model

/-- Reads a model from an object. -/
def check : Check Agent.Model :=
  record fun members =>
    Agent.Model.mk <$> required members "model_id" text
      <*> defaulted members "parameters" [] (table text)

/-- The model as an object. -/
def toJson (model : Agent.Model) : Json :=
  .obj [("model_id", .str model.id), ("parameters", Json.ofTextFields model.parameters)]

end Agent.Model

/-- A conversational agent. -/
structure Agent where
  name : String
  description : Option String := none
  model : Agent.Model
  tools : List Tool.Spec := []
  parameters : Fields String := []
  tenant : Option String := none
  /-- The kind of application that the agent belongs to. -/
  application : Option String := none

namespace Agent

/-- Reads an agent from an object. -/
def check : Check Agent :=
  record fun members =>
    Agent.mk <$> required members "name" text
      <*> defaulted members "description" none (optional text)
      <*> required members "llm" Model.check
      <*> defaulted members "tools" [] (list Tool.Spec.check)
      <*> defaulted members "parameters" [] (table text)
      <*> defaulted members "tenant_id" none (optional text)
      <*> defaulted members "app_type" none (optional text)

/-- The agent as an object. -/
def toJson (agent : Agent) : Json :=
  .obj
    [("name", .str agent.name), ("description", Json.ofText? agent.description),
      ("llm", agent.model.toJson), ("tools", .arr (agent.tools.map Tool.Spec.toJson)),
      ("parameters", Json.ofTextFields agent.parameters),
      ("tenant_id", Json.ofText? agent.tenant), ("app_type", Json.ofText? agent.application)]

end Agent

end ReAct
