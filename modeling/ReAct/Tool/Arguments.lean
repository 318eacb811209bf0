import ReAct.Template
import ReAct.Tool.ActionInput
import ReAct.Tool.Spec

/-!
# The arguments of a tool call

The parameters that a tool is run with, layer by layer: those of its declaration, the input, the
fields of the model's input if it reads as an object, the model's input as it was written, and last
the templates of the declaration, each filled from all the layers below. A tool that uses the user's
question keeps it as its input whatever the model writes.
-/

namespace ReAct.Tool

open ReAct.Text

/-- The parameter that holds the model's input as it was written. -/
def generatedInput : String := "llm_generated_input"

/-- The fields of an input that reads as an object. -/
def inputFields (actionInput : Option String) : Fields String :=
  match actionInput with
  | none => []
  | some input =>
    if (trimStart input.toList).head? = some '\x7b' then
      match ActionInput.read input with
      | .ok fields => fields
      | .error _ => []
    else []

/-- The layers below the templates. -/
def baseArguments (spec : Spec) (question : String) (actionInput : Option String) : Fields String :=
  let params := spec.parameters
  let params :=
    if spec.inputIsQuestion then params.put "input" question
    else
      match actionInput with
      | some input => params.put "input" input
      | none => params
  let fields := inputFields actionInput
  let params := params.merge (if spec.inputIsQuestion then fields.erase "input" else fields)
  match actionInput with
  | some input => params.put generatedInput input
  | none => params

/-- The parameters of a call. -/
def arguments (spec : Spec) (question : String) (actionInput : Option String) : Fields String :=
  let base := baseArguments spec question actionInput
  base.merge
    (spec.config.mapValues (Template.fill Template.parametersOpening base Template.Missing.stays))

end ReAct.Tool
