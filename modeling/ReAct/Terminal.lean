/-!
# Coloured text on a terminal

What a command prints stands between the control sequence of a colour and the one that resets it.
-/

namespace ReAct.Terminal

/-- The colours. -/
inductive Color where
  | red
  | green
  | yellow
  | blue
  deriving DecidableEq

/-- The control sequence of a colour. -/
def Color.sequence : Color → String
  | .red => "\x1b[91m"
  | .green => "\x1b[92m"
  | .yellow => "\x1b[33m"
  | .blue => "\x1b[94m"

/-- The name of a colour. -/
def Color.name : Color → String
  | .red => "RED"
  | .green => "GREEN"
  | .yellow => "YELLOW"
  | .blue => "BLUE"

/-- The colour of a name. -/
def Color.ofName? (name : String) : Option Color :=
  [Color.red, .green, .yellow, .blue].find? fun color => color.name == name

/-- A text in a colour. -/
def colored (color : Color) (text : String) : String :=
  color.sequence ++ text ++ "\x1b[0m"

/-- A line that starts with a text in a colour; more texts may follow it. -/
def line (color : Color) (text : String) (more : List String := []) (between : String := " ")
    (ending : String := "\n") : String :=
  between.intercalate (colored color text :: more) ++ ending

end ReAct.Terminal
