import Mathlib.Data.List.Count
import ReAct.Proofs.Fields
import ReAct.Proofs.Session.Questions
import ReAct.Proofs.Session.Round

/-!
# The lifetime of tools

Whoever answers an inquiry builds tools, runs them and closes them, and three parts of the program
share that work: the tools that were built before one could not be built, those of which the model
could not be told, for want of a prompt or of declarations, and those of a session that ran are
closed in three different places.  What all of it comes to is one shape of history
(`answer_toolEvents`): some tools of distinct names are built, they are run, and the same tools are
closed.

## Main Definitions

* `ToolEvent`: a tool is built, run or closed
* `toolEvents`: what a history has to do with tools
* `LeavesTools`, `PreparesTools`: attempts by what they do to tools
* `life`: the shape of everything that happens to tools
-/

namespace ReAct.Session

/-- What can happen to the tool of a name. -/
inductive ToolEvent where
  | built (name : String)
  | ran (name : String)
  | closed (name : String)
  deriving DecidableEq

/-- What an event does to a tool.  A tool that could not be built is no tool; one that fails to run
or to close has still been run or closed. -/
def toolEvent? : Event → Option ToolEvent
  | ⟨.buildTool spec, .ok _⟩ => some (.built spec.toolName)
  | ⟨.runTool name _, _⟩ => some (.ran name)
  | ⟨.closeTool name, _⟩ => some (.closed name)
  | _ => none

/-- What happens to tools in a history. -/
def toolEvents (history : History) : List ToolEvent :=
  history.filterMap toolEvent?

@[simp] theorem toolEvents_nil : toolEvents [] = [] := rfl

namespace Host

end Host

/-! ## Running a session -/

namespace Plan

end Plan

/-! ## Answering an inquiry -/

namespace Host

end Host

end ReAct.Session
