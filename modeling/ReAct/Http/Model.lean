import ReAct.Http.Basic
import ReAct.Http.Endpoint
import ReAct.Http.Url
import ReAct.Reply.Turn

/-!
# Models behind an endpoint

A model is called by posting its parameters to its address. Its reply is the object in the body of
the response.
-/

namespace ReAct.Http.Model

/-- The request that calls a model. -/
def request (endpoint model : String) (parameters : Fields Json) : Except Failure Request :=
  (Endpoint.fill endpoint model).map fun url =>
    .post (Url.normalText url) (.obj [("parameters", .obj parameters)])

/-- The failure of a call whose outcome is of no use. -/
def faultFailure (model : String) : Fault → Failure
  | .notJson => ⟨.model, "Invalid response from model '" ++ model ++ "': " ++ Fault.notJson.text⟩
  | fault => ⟨.model, "Error calling model '" ++ model ++ "': " ++ fault.text⟩

/-- The reply in an outcome. -/
def reply (model : String) (outcome : Outcome) : Except Failure Reply :=
  match outcome.value with
  | .error fault => .error (faultFailure model fault)
  | .ok (.obj members) => .ok (.object members)
  | .ok _ => .error ⟨.model, "Unexpected response type from model '" ++ model ++ "'"⟩

/-- Calls a model, given how exchanges are made. -/
def call {m : Type → Type} [Monad m] (exchange : Request → m Outcome) (endpoint model : String)
    (parameters : Fields Json) : m (Except Failure Reply) :=
  match request endpoint model parameters with
  | .error failure => pure (.error failure)
  | .ok request => reply model <$> exchange request

end ReAct.Http.Model
