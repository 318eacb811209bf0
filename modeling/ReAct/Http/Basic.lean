import ReAct.Failure
import ReAct.Json.Reader

/-!
# HTTP exchanges

A request, and what comes of it: a response with a status and a body, or nothing because the
transport failed. How the body is read is the same everywhere: it must be JSON, after a byte order
mark if there is one.
-/

namespace ReAct.Http

/-- What is sent: values to a resource, or a query for one. -/
inductive Request where
  | post (url : String) (body : Json)
  | get (url : String) (query headers : Fields String)

/-- What comes of a request. -/
inductive Outcome where
  | response (status : Nat) (body : String)
  /-- The transport failed. -/
  | broken (text : String)

/-- Why an outcome is of no use. -/
inductive Fault where
  | transport (text : String)
  /-- The status is not one of success. -/
  | status (code : Nat)
  | notJson
  deriving DecidableEq

/-- The text of a fault. -/
def Fault.text : Fault → String
  | .transport text => text
  | .status code => "HTTP " ++ toString code
  | .notJson => "invalid JSON"

/-- Whether a status is one of success. -/
def isSuccess (status : Nat) : Bool :=
  200 ≤ status && status < 300

/-- The value of a body. -/
def bodyValue? (body : String) : Option Json :=
  match body.toList with
  | '\uFEFF' :: rest => Json.ofChars? .refused rest
  | s => Json.ofChars? .refused s

/-- The value that an outcome brings. -/
def Outcome.value : Outcome → Except Fault Json
  | .broken text => .error (.transport text)
  | .response status body =>
    if isSuccess status then
      match bodyValue? body with
      | some v => .ok v
      | none => .error .notJson
    else .error (.status status)

/-- Headers as they are sent: names in lower case, the values of one name joined. -/
def headers (fields : Fields String) : Fields String :=
  fields.foldl
    (fun sent field =>
      let name := field.1.map Char.toLower
      match Fields.get? sent name with
      | none => Fields.put sent name field.2
      | some value => Fields.put sent name (value ++ ", " ++ field.2))
    []

end ReAct.Http
