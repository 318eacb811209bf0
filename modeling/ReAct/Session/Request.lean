import ReAct.Agent
import ReAct.Dialogue
import ReAct.Memory.Request
import ReAct.Reply.Turn

/-!
# What a session asks of the world

A session talks to its model, to the tools of its agent, to conversation memory and to a catalogue
of tools. All of these are outside of it: they answer in whatever way they like, and every answer
but that to the closing of a tool may matter to what is asked next. Whatever is asked is answered,
if only by a failure: the process does not exit, and the task is not cancelled, in the midst of a
question.
-/

namespace ReAct.Session

/-- What a session can ask. Tools are known by their names. -/
inductive Request where
  | callModel (model : String) (parameters : Fields Json)
  | buildTool (spec : Tool.Spec)
  | runTool (name : String) (parameters : Fields String)
  | closeTool (name : String)
  | memory (request : Memory.Request)
  | discover (agent : Agent) (credentials : Option (Fields String))

/-- What an answer holds. Where something may fail, the answer says how. -/
def Request.Answer : Request → Type
  | .callModel _ _ => Except Failure Reply
  | .buildTool _ => Except Failure Tool.Face
  | .runTool _ _ => Except String Json
  | .closeTool _ => Except String Unit
  | .memory request => Except Failure request.Answer
  | .discover _ _ => Except Failure (List Tool.Spec)

/-- A part of a session: what it asks, and its result. -/
abbrev Action (α : Type) : Type := Dialogue Request Request.Answer α

/-- Asks one question. -/
def ask (request : Request) : Action request.Answer :=
  Dialogue.question request

/-- A part of a session that may fail. -/
abbrev Attempt (α : Type) : Type := ExceptT Failure (Dialogue Request Request.Answer) α

end ReAct.Session
