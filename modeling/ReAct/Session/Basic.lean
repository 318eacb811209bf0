import ReAct.Record.Check

/-!
# Sessions

The identity of a session: whose question it answers, and where in conversation memory the answer
belongs. Further, the phases that a session goes through, and the steps that its trace records.
-/

namespace ReAct

open Record

/-- The identity of a session. -/
structure Session where
  conversation : Option String := none
  /-- The interaction in memory that the session answers. -/
  root : Option String := none
  tenant : Option String := none
  question : String := ""
  parameters : Fields String := []

namespace Session

/-- Reads a session from an object. -/
def check : Check Session :=
  record fun members =>
    Session.mk <$> defaulted members "conversation_id" none (optional text)
      <*> defaulted members "parent_interaction_id" none (optional text)
      <*> defaulted members "tenant_id" none (optional text)
      <*> defaulted members "question" "" text
      <*> defaulted members "params" [] (table text)

/-- The session as an object. -/
def toJson (session : Session) : Json :=
  .obj
    [("conversation_id", Json.ofText? session.conversation),
      ("parent_interaction_id", Json.ofText? session.root),
      ("tenant_id", Json.ofText? session.tenant), ("question", .str session.question),
      ("params", Json.ofTextFields session.parameters)]

/-- What a session goes through. -/
inductive Phase where
  /-- The model is to be called. -/
  | dispatched
  /-- The model has replied; its reply is to be read. -/
  | parsed
  /-- The model has asked for a tool; the tool is to be run. -/
  | toolRunning
  /-- The tool has been run; its observation is to be handed back. -/
  | folded
  /-- The model has answered. -/
  | final
  /-- The last call that the configuration allows was not an answer. -/
  | budgetSpent
  deriving DecidableEq

namespace Phase

/-- The name of a phase. -/
def name : Phase → String
  | .dispatched => "dispatched"
  | .parsed => "parsed"
  | .toolRunning => "tool_running"
  | .folded => "folded"
  | .final => "final"
  | .budgetSpent => "max_iterations_reached"

/-- The phase of a name. -/
def ofName? (name : String) : Option Phase :=
  [Phase.dispatched, .parsed, .toolRunning, .folded, .final, .budgetSpent].find? fun phase =>
    phase.name == name

/-- Whether a session ends in a phase. -/
def isTerminal : Phase → Bool
  | .final => true
  | .budgetSpent => true
  | _ => false

end Phase

/-- A step of a session, as its trace records it. -/
structure TraceStep where
  number : Int
  origin : String
  question : Option String := none
  response : Option String := none
  deriving DecidableEq

namespace TraceStep

/-- Reads a step from an object. -/
def check : Check TraceStep :=
  record fun members =>
    TraceStep.mk <$> required members "trace_number" integer
      <*> required members "origin" text
      <*> defaulted members "question" none (optional text)
      <*> defaulted members "response" none (optional text)

/-- The step as an object. -/
def toJson (step : TraceStep) : Json :=
  .obj
    [("trace_number", .int step.number), ("origin", .str step.origin),
      ("question", Json.ofText? step.question), ("response", Json.ofText? step.response)]

end TraceStep

end Session

end ReAct
