import ReAct.Agent
import ReAct.Http.Basic
import ReAct.Http.Url

/-!
# The catalogue of tools

A catalogue is asked for the tools of an agent by the agent's name. It answers with a list of tool
specifications, or with an object that has such a list. It is all or nothing: one invalid
specification spoils the whole answer, and every way in which the answer is of no use is a failure
of discovery.
-/

namespace ReAct.Http.Catalog

open Record

/-- The request for the tools of an agent. -/
def request (url : String) (agent : Agent) (credentials : Option (Fields String)) : Request :=
  .get (Url.withoutQuery (Url.normalText url)) [("agent", agent.name)]
    (headers (credentials.getD []))

/-- The list in the value of an answer. -/
def items? : Json → Option (List Json)
  | .arr items => some items
  | .obj members =>
    match Fields.get? members "tools" with
    | some (.arr items) => some items
    | _ => none
  | _ => none

/-- The specifications of a list; the issues are those of the first invalid one. -/
def specs : List Json → Checked (List Tool.Spec)
  | [] => .valid []
  | item :: rest =>
    match Tool.Spec.check item with
    | .faulty issues => .faulty issues
    | .valid spec => (specs rest).map (spec :: ·)

/-- The specifications in an outcome. -/
def read (url : String) (outcome : Outcome) : Except Failure (List Tool.Spec) :=
  match outcome.value with
  | .error fault =>
    .error ⟨.discovery, "Error querying tool catalog " ++ url ++ ": " ++ fault.text⟩
  | .ok v =>
    match items? v with
    | none => .error ⟨.discovery, "Tool catalog " ++ url ++ " did not return a tool list"⟩
    | some items =>
      match specs items with
      | .valid specs => .ok specs
      | .faulty issues =>
        .error ⟨.discovery, "Invalid tool spec from " ++ url ++ ": " ++ issuesText issues⟩

/-- Asks a catalogue, given how exchanges are made. Without an address there are no tools. -/
def fetch {m : Type → Type} [Monad m] (exchange : Request → m Outcome) (url : Option String)
    (agent : Agent) (credentials : Option (Fields String)) : m (Except Failure (List Tool.Spec)) :=
  match url.filter fun url => url ≠ "" with
  | none => pure (.ok [])
  | some url => read url <$> exchange (request url agent credentials)

end ReAct.Http.Catalog
