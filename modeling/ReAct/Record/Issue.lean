import ReAct.Failure

/-!
# Issues of a record

What is wrong with a value that should be a record: the place and the kind of each fault. The text
of a list of issues names them in the order of the record's declaration.
-/

namespace ReAct.Record

/-- What is wrong at one place. -/
inductive Issue.Kind where
  | missing
  | text
  | object
  | list
  | record
  | integer
  | integerText
  | fractional
  | notFinite
  | decimalText
  | flag
  | flagText
  | choice
  | tooSmall
  | frozen
  | moment
  | momentText
  deriving DecidableEq

/-- The name of a kind in reports. -/
def Issue.Kind.name : Issue.Kind → String
  | .missing => "missing"
  | .text => "string_type"
  | .object => "dict_type"
  | .list => "list_type"
  | .record => "model_type"
  | .integer => "int_type"
  | .integerText => "int_parsing"
  | .fractional => "int_from_float"
  | .notFinite => "finite_number"
  | .decimalText => "float_parsing"
  | .flag => "bool_type"
  | .flagText => "bool_parsing"
  | .choice => "enum"
  | .tooSmall => "greater_than_equal"
  | .frozen => "frozen_instance"
  | .moment => "datetime_type"
  | .momentText => "datetime_parsing"

/-- A fault at a place; the place is the list of names and positions that lead to it. -/
structure Issue where
  path : List String
  kind : Issue.Kind
  deriving DecidableEq

/-- The text of an issue. -/
def Issue.text (issue : Issue) : String :=
  ".".intercalate issue.path ++ ":" ++ issue.kind.name

/-- The text of a list of issues. -/
def issuesText (issues : List Issue) : String :=
  "; ".intercalate (issues.map Issue.text)

/-- The failure that reports issues. -/
def failure (issues : List Issue) : Failure :=
  ⟨.record, issuesText issues⟩

end ReAct.Record
