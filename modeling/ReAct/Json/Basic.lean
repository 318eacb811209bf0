import ReAct.Fields
import ReAct.Decimal.Double

/-!
# JSON values

Values as they are read from a JSON text. Objects keep the order of their members, integers are
exact and of any size, and every other number is a double, so `1` and `1.0` are different values.
-/

namespace ReAct

/-- A JSON value. -/
inductive Json where
  | null
  | bool (value : Bool)
  | int (value : Int)
  | float (value : Double)
  | str (value : String)
  | arr (items : List Json)
  | obj (members : List (String × Json))
  deriving Inhabited

namespace Json

/-- Whether a value is the null value. -/
def isNull : Json → Bool
  | .null => true
  | _ => false

/-- Whether a value counts as present: not null, false, zero or empty. -/
def truthy : Json → Bool
  | .null => false
  | .bool b => b
  | .int n => n ≠ 0
  | .float x => !x.isZero
  | .str s => s ≠ ""
  | .arr items => !items.isEmpty
  | .obj members => !members.isEmpty

/-- The member of an object under a name; null where there is none. -/
def member (name : String) : Json → Json
  | .obj members => (Fields.get? members name).getD .null
  | _ => .null

/-- A value that may be absent, null standing for absence. -/
def ofOption {α : Type} (f : α → Json) : Option α → Json
  | none => .null
  | some a => f a

/-- A text that may be absent. -/
def ofText? : Option String → Json :=
  ofOption .str

/-- The list of texts. -/
def ofTexts (texts : List String) : Json :=
  .arr (texts.map .str)

/-- The object whose members are texts. -/
def ofTextFields (fields : Fields String) : Json :=
  .obj (fields.mapValues .str)

/-- Whether a value is the given text. -/
def isText (s : String) : Json → Bool
  | .str t => t == s
  | _ => false

end Json

end ReAct
